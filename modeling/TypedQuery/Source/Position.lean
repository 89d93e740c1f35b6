/-!
# Positions in a source text

A position counts characters: its offset from the start, its line, and its column
in that line.
-/

namespace TypedQuery

/-- A place in a source text. Lines and columns count from one, offsets from zero. -/
structure Position where
  line : Nat
  column : Nat
  offset : Nat
deriving DecidableEq

namespace Position

/-- The start of a text. -/
def start : Position := ⟨1, 1, 0⟩

instance : Inhabited Position := ⟨start⟩

/-- The position after one character. -/
def after (p : Position) (c : Char) : Position :=
  if c = '\n' then ⟨p.line + 1, 1, p.offset + 1⟩ else ⟨p.line, p.column + 1, p.offset + 1⟩

/-- The position after some characters. -/
def past (p : Position) (text : List Char) : Position :=
  text.foldl after p

/-- The position of `rest`, when `p` is the position of a text that ends with it. -/
def upTo (p : Position) (text rest : List Char) : Position :=
  p.past (text.take (text.length - rest.length))

/-- How messages write a position. -/
def text (p : Position) : String :=
  "line " ++ toString p.line ++ ", column " ++ toString p.column

end Position

end TypedQuery
