import TypedQuery.Proofs.Decimal.Writing
import TypedQuery.Proofs.Token.Characters

/-!
# Tokens as they are written

How the tokens of a text are written, with blanks and comments between them. Tokens need no blank
between them unless the first would go on with the characters of the second.
-/

namespace TypedQuery

/-- The text does not go on with a character of a kind. -/
def Stops (kind : Char → Bool) (rest : List Char) : Prop :=
  ∀ c ∈ rest.head?, kind c = false

/-- A word that can be a name. -/
def isName (word : String) : Bool :=
  match word.toList with
  | [] => false
  | c :: rest => isNameStart c && rest.all isNamePart

/-- The signs of a symbol. Keywords have none. -/
def Symbol.signs : Symbol → List (List Char)
  | and => [['&', '&']]
  | or => [['|', '|']]
  | not | cond | thenBranch | elseBranch | null => []
  | eq => [['='], ['=', '=']]
  | notEq => [['!', '=']]
  | less => [['<']]
  | lessEq => [['<', '=']]
  | greater => [['>']]
  | greaterEq => [['>', '=']]
  | plus => [['+']]
  | minus => [['-']]
  | star => [['*']]
  | slash => [['/']]
  | percent => [['%']]
  | caret => [['^']]
  | bang => [['!']]
  | question => [['?']]
  | leftParen => [['(']]
  | rightParen => [[')']]
  | leftBrace => [['\x7b']]
  | rightBrace => [['\x7d']]
  | leftBracket => [['[']]
  | rightBracket => [[']']]
  | dot => [['.']]
  | spread => [['.', '.', '.']]
  | comma => [[',']]
  | colon => [[':']]

/-- The characters of a text between quotes. -/
def escape (chars : List Char) : List Char :=
  chars.flatMap fun c => if c = '"' ∨ c = '\\' then ['\\', c] else [c]

/-- A token is written by characters, with the rest of a text after them. The rest must not go on
with characters that would belong to the token. -/
inductive Token.Spelled : Token → List Char → List Char → Prop
  | integer {n : UInt64} {rest : List Char} (stops : Stops Char.isDigit rest)
      (whole : fractionDigits rest = []) :
      Spelled (.integer n) (Nat.toDigits 10 n.toNat) rest
  | decimal {d : Decimal} {rest : List Char} (writable : d.Writable)
      (unsigned : d.negative = false) (stops : Stops Char.isDigit rest) :
      Spelled (.decimal d) d.spelling rest
  | text {s : String} {rest : List Char} : Spelled (.text s) ('"' :: escape s.toList ++ ['"']) rest
  | word {word : String} {rest : List Char} (named : isName word = true)
      (stops : Stops isNamePart rest) :
      Spelled (.ofWord word) word.toList rest
  | var {name : String} {rest : List Char} (named : isName name = true)
      (stops : Stops isNamePart rest) :
      Spelled (.var name) ('$' :: name.toList) rest
  | sign {symbol : Symbol} {sign rest : List Char} (known : sign ∈ symbol.signs)
      (longest : ∀ other : Symbol, ∀ longer ∈ other.signs, longer <+: sign ++ rest →
        longer.length ≤ sign.length) :
      Spelled (.symbol symbol) sign rest

/-- Blanks, and comments up to the end of their lines. -/
inductive Gap : List Char → Prop
  | nil : Gap []
  | blank {c : Char} {gap : List Char} (blank : Text.isBlank c = true) (more : Gap gap) :
      Gap (c :: gap)
  | comment {comment gap : List Char} (line : '\n' ∉ comment) (more : Gap gap) :
      Gap ('#' :: (comment ++ '\n' :: gap))

/-- Two gaps make one. -/
theorem Gap.append {gap more : List Char} (h : Gap gap) (hmore : Gap more) : Gap (gap ++ more) := by
  induction h with
  | nil => exact hmore
  | blank hblank _ ih => exact .blank hblank ih
  | comment hline _ ih =>
    rw [List.cons_append, List.append_assoc, List.cons_append]
    exact .comment hline ih

/-- A text writes tokens. -/
inductive Writes : List Token → List Char → Prop
  | nil {gap : List Char} (between : Gap gap) : Writes [] gap
  | cons {token : Token} {tokens : List Token} {gap spelling rest : List Char} (between : Gap gap)
      (first : token.Spelled spelling rest) (others : Writes tokens rest) :
      Writes (token :: tokens) (gap ++ (spelling ++ rest))

/-! ### Tokens that can be written -/

/-- The text ends, or it goes on with a blank or a comment. -/
def Detached (rest : List Char) : Prop :=
  ∀ c ∈ rest.head?, Text.isBlank c = true ∨ c = '#'

/-- No token goes on with a blank or a comment. -/
theorem Detached.stops {rest : List Char} (h : Detached rest) : Stops isNamePart rest := by
  intro c hc
  rcases h c hc with hblank | rfl
  · exact isNamePart_of_isBlank hblank
  · decide

/-- Where no character of a name follows, no digit does. -/
theorem Stops.digits {rest : List Char} (h : Stops isNamePart rest) : Stops Char.isDigit rest := by
  intro c hc
  have hpart := h c hc
  cases hdigit : c.isDigit with
  | false => rfl
  | true =>
    rw [isNamePart_of_isDigit hdigit] at hpart
    cases hpart

/-- No fraction follows where the text is detached. -/
theorem Detached.fractionDigits {rest : List Char} (h : Detached rest) :
    fractionDigits rest = [] := by
  unfold TypedQuery.fractionDigits
  split
  · have hpoint := h '.' rfl
    exact absurd hpoint (by decide)
  · rfl

/-- Signs consist of the characters that start signs. -/
theorem mem_signStarts_of_mem_signs {c : Char} {sign : List Char} {symbol : Symbol}
    (hsign : sign ∈ symbol.signs) (hc : c ∈ sign) : c ∈ signStarts := by
  have hall : symbol.signs.all (fun sign => sign.all signStarts.contains) = true := by
    cases symbol
    all_goals decide
  have hsign' := List.all_eq_true.mp hall sign hsign
  exact List.contains_iff_mem.mp (List.all_eq_true.mp hsign' c hc)

/-- No sign goes on with a blank or a comment. -/
theorem Detached.longest {sign rest : List Char} (h : Detached rest) (other : Symbol)
    (longer : List Char) (hlonger : longer ∈ other.signs) (hbegins : longer <+: sign ++ rest) :
    longer.length ≤ sign.length := by
  cases rest with
  | nil =>
    rw [List.append_nil] at hbegins
    exact hbegins.length_le
  | cons c more =>
    rcases Nat.lt_or_ge sign.length longer.length with hlength | hlength
    · have hnext : sign ++ [c] <+: sign ++ c :: more := ⟨more, by simp⟩
      have hthrough : sign ++ [c] <+: longer := by
        refine List.prefix_of_prefix_length_le hnext hbegins ?_
        rw [List.length_append, List.length_singleton]
        omega
      have hc : c ∈ longer := hthrough.subset (by simp)
      have hsign := isBlank_of_mem_signStarts (mem_signStarts_of_mem_signs hlonger hc)
      rcases h c rfl with hblank | hmark
      · rw [hsign.1] at hblank
        cases hblank
      · exact absurd hmark hsign.2
    · exact hlength

/-- What is written before some text is written in the same way before a blank. -/
theorem Token.Spelled.detached {token : Token} {spelling rest other : List Char}
    (h : token.Spelled spelling rest) (hdetached : Detached other) :
    token.Spelled spelling other := by
  cases h with
  | integer _ _ => exact .integer hdetached.stops.digits hdetached.fractionDigits
  | decimal hwritable hsign _ => exact .decimal hwritable hsign hdetached.stops.digits
  | text => exact .text
  | word hname _ => exact .word hname hdetached.stops
  | var hname _ => exact .var hname hdetached.stops
  | sign hknown _ => exact .sign hknown hdetached.longest

/-- A token can be written. -/
def Token.Writable (token : Token) : Prop :=
  ∃ spelling, token.Spelled spelling []

/-- The end of a text is detached. -/
theorem detached_nil : Detached [] :=
  nofun

/-- There is a text for tokens that can be written: they stand one after the other, each with a
blank before it. -/
theorem exists_writes {tokens : List Token} (h : ∀ token ∈ tokens, token.Writable) :
    ∃ text, Writes tokens text ∧ Detached text := by
  induction tokens with
  | nil => exact ⟨[], .nil .nil, detached_nil⟩
  | cons token tokens ih =>
    obtain ⟨text, hwrites, hdetached⟩ :=
      ih fun other hother => h other (List.mem_cons_of_mem _ hother)
    obtain ⟨spelling, hspelled⟩ := h token List.mem_cons_self
    have hblank : Text.isBlank ' ' = true := by decide
    refine ⟨[' '] ++ (spelling ++ text),
      .cons (.blank hblank .nil) (hspelled.detached hdetached) hwrites, ?_⟩
    intro c hc
    cases hc
    exact .inl hblank

/-- A name can be written. -/
theorem Token.writable_of_isName {word : String} (h : isName word = true) :
    (Token.ofWord word).Writable :=
  ⟨word.toList, .word h detached_nil.stops⟩

/-- Every symbol has a sign or is a keyword. -/
theorem Token.writable_symbol (symbol : Symbol) : (Token.symbol symbol).Writable := by
  have hsign : ∀ sign ∈ symbol.signs, (Token.symbol symbol).Writable :=
    fun sign hsign => ⟨sign, .sign hsign detached_nil.longest⟩
  have hword : ∀ word : String, Token.ofWord word = .symbol symbol → isName word = true →
      (Token.symbol symbol).Writable :=
    fun word hword hname => hword ▸ writable_of_isName hname
  cases symbol with
  | not => exact hword "not" rfl (by decide)
  | cond => exact hword "if" rfl (by decide)
  | thenBranch => exact hword "then" rfl (by decide)
  | elseBranch => exact hword "else" rfl (by decide)
  | null => exact hword "null" rfl (by decide)
  | _ => exact hsign _ List.mem_cons_self

/-- An integer without a sign can be written. -/
theorem Token.writable_integer (n : UInt64) : (Token.integer n).Writable :=
  ⟨_, .integer detached_nil.stops.digits rfl⟩

/-- The token of a decimal without a sign can be written if the decimal can. -/
theorem Token.writable_decimal {d : Decimal} (hwritable : d.Writable) (hsign : d.negative = false) :
    (Token.decimal d).Writable :=
  ⟨_, .decimal hwritable hsign detached_nil.stops.digits⟩

/-- A text can be written. -/
theorem Token.writable_text (s : String) : (Token.text s).Writable :=
  ⟨_, .text⟩

/-- A variable can be written if its name is a name. -/
theorem Token.writable_var {name : String} (h : isName name = true) : (Token.var name).Writable :=
  ⟨_, .var h detached_nil.stops⟩

end TypedQuery
