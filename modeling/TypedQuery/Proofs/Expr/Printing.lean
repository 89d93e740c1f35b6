import TypedQuery.Expr.Reader
import TypedQuery.Proofs.Token.Passing

/-!
# Expressions as they are written

An expression is written with parentheses only where the text would be read in another way without
them. Conditionals can be written with keywords or with signs, and negations with a word or a sign,
each at its place as one likes.
-/

namespace TypedQuery

/-- How tightly the parts of an expression are bound together. -/
inductive Tightness
  | any
  | level (level : Level)
  | power
  | signed
  | path
deriving DecidableEq

/-- The number of looser levels. -/
def Level.rank : Level → Nat
  | or => 0
  | and => 1
  | equality => 2
  | order => 3
  | sum => 4
  | product => 5

namespace Tightness

/-- The number of looser bindings. -/
def rank : Tightness → Nat
  | any => 0
  | level l => l.rank + 1
  | power => 7
  | signed => 8
  | path => 9

/-- The next tighter binding. -/
def tighter : Tightness → Tightness
  | any => level .or
  | level l =>
    match l.tighter? with
    | some next => .level next
    | none => power
  | power => signed
  | signed => path
  | path => path

end Tightness

namespace Operator

/-- The symbol of an operator. -/
def sign : Operator → Symbol
  | equal => .eq
  | notEqual => .notEq
  | less => .less
  | lessEqual => .lessEq
  | greater => .greater
  | greaterEqual => .greaterEq
  | add => .plus
  | subtract => .minus
  | multiply => .star
  | divide => .slash
  | modulo => .percent
  | power => .caret
  | and => .and
  | or => .or

/-- The binding of an operator. -/
def tightness : Operator → Tightness
  | or => .level .or
  | and => .level .and
  | equal | notEqual => .level .equality
  | less | lessEqual | greater | greaterEqual => .level .order
  | add | subtract => .level .sum
  | multiply | divide | modulo => .level .product
  | power => .power

/-- The loosest binding on the left of an operator. Powers associate to the right. -/
def left : Operator → Tightness
  | power => .signed
  | op => op.tightness

/-- The loosest binding on the right of an operator. All but powers associate to the left. -/
def right : Operator → Tightness
  | power => .power
  | op => op.tightness.tighter

end Operator

/-- How the conditionals and negations of an expression are written, each found by the way to it
from the whole. -/
structure Style where
  keywords : List Nat → Bool
  word : List Nat → Bool

namespace Style

/-- The style of a part. -/
def part (style : Style) (index : Nat) : Style :=
  ⟨fun way => style.keywords (index :: way), fun way => style.word (index :: way)⟩

/-- The symbol of a negation. -/
def negation (style : Style) : Symbol :=
  if style.word [] then .not else .bang

end Style

namespace Expr

/-- How tightly an expression is bound together when it is written. -/
def tightness : Expr → Tightness
  | conditional _ _ _ _ => .any
  | binary op _ _ => op.tightness
  | literal value => if value.isNegative then .signed else .path
  | invoke method [_] => if method = "not" then .signed else .path
  | _ => .path

/-- An expression stands in parentheses where a tighter one is due. -/
def enclosed (expr : Expr) (due : Tightness) (tokens : List Token) : List Token :=
  if expr.tightness.rank < due.rank then
    .symbol .leftParen :: (tokens ++ [.symbol .rightParen])
  else tokens

mutual

/-- The tokens of an expression, without parentheses around the whole. -/
def tokens (style : Style) : Expr → List Token
  | literal value => value.tokens
  | var name => [.var name]
  | identifier name => [.identifier name]
  | access object name =>
    object.enclosed .path (object.tokens (style.part 0)) ++ [.symbol .dot, .ofWord name]
  | invoke method [operand] =>
    if method = "not" then
      .symbol style.negation :: operand.enclosed .signed (operand.tokens (style.part 0))
    else
      .identifier method :: .symbol .leftParen ::
        (operand.tokens (style.part 0) ++ [.symbol .rightParen])
  | invoke method arguments =>
    .identifier method :: .symbol .leftParen ::
      (itemTokens style arguments ++ [.symbol .rightParen])
  | call receiver method arguments =>
    receiver.enclosed .path (receiver.tokens (style.part 0)) ++
      .symbol .dot :: .ofWord method :: .symbol .leftParen ::
        (itemTokens (style.part 1) arguments ++ [.symbol .rightParen])
  | binary op left right =>
    left.enclosed op.left (left.tokens (style.part 0)) ++
      .symbol op.sign :: right.enclosed op.right (right.tokens (style.part 1))
  | conditional test _ yes no =>
    if style.keywords [] then
      .symbol .cond :: (test.tokens (style.part 0) ++
        .symbol .thenBranch :: (yes.tokens (style.part 1) ++
          .symbol .elseBranch :: no.tokens (style.part 2)))
    else
      test.enclosed (.level .or) (test.tokens (style.part 0)) ++
        .symbol .question :: (yes.tokens (style.part 1) ++
          .symbol .colon :: no.tokens (style.part 2))

/-- The tokens of arguments, with commas between them. -/
def itemTokens (style : Style) : List Expr → List Token
  | [] => []
  | [item] => item.tokens (style.part 0)
  | item :: rest => item.tokens (style.part 0) ++ .symbol .comma :: itemTokens (style.part 1) rest

end

mutual

/-- An expression without the source texts of its tests. -/
def bare : Expr → Expr
  | literal value => literal value
  | var name => var name
  | identifier name => identifier name
  | access object name => access object.bare name
  | invoke method arguments => invoke method (bareItems arguments)
  | call receiver method arguments => call receiver.bare method (bareItems arguments)
  | binary op left right => binary op left.bare right.bare
  | conditional test _ yes no => conditional test.bare "" yes.bare no.bare

/-- Arguments without the source texts of their tests. -/
def bareItems : List Expr → List Expr
  | [] => []
  | item :: rest => item.bare :: bareItems rest

end

/-- An expression can be written: all its names are names, calls without receiver and plain names
are no keywords, apart from negations, and all its decimals can be written. -/
inductive Writable : Expr → Prop
  | literal {value : Literal} (writable : value.Writable) : Writable (literal value)
  | var {name : String} (named : isName name = true) : Writable (var name)
  | identifier {name : String} (named : isName name = true)
      (free : Token.ofWord name = .identifier name) : Writable (identifier name)
  | access {object : Expr} {name : String} (inner : Writable object) (named : isName name = true) :
      Writable (access object name)
  | invoke {method : String} {arguments : List Expr} (named : isName method = true)
      (free : Token.ofWord method = .identifier method)
      (items : ∀ item ∈ arguments, Writable item) : Writable (invoke method arguments)
  | negation {operand : Expr} (inner : Writable operand) : Writable operand.negation
  | call {receiver : Expr} {method : String} {arguments : List Expr} (inner : Writable receiver)
      (named : isName method = true) (items : ∀ item ∈ arguments, Writable item) :
      Writable (call receiver method arguments)
  | binary {op : Operator} {left right : Expr} (first : Writable left) (second : Writable right) :
      Writable (binary op left right)
  | conditional {test yes no : Expr} {testText : String} (first : Writable test)
      (second : Writable yes) (third : Writable no) :
      Writable (conditional test testText yes no)

example : (binary .multiply (binary .add (var "a") (var "b")) (literal (.integer (-2)))).tokens
    ⟨fun _ => true, fun _ => true⟩ = [.symbol .leftParen, .var "a", .symbol .plus, .var "b",
      .symbol .rightParen, .symbol .star, .symbol .minus, .integer 2] := by
  decide

/-- A call without receiver whose name is no keyword. -/
theorem tokens_invoke {style : Style} {method : String} (arguments : List Expr)
    (hmethod : method ≠ "not") :
    (invoke method arguments).tokens style = .identifier method :: .symbol .leftParen ::
      (itemTokens style arguments ++ [.symbol .rightParen]) := by
  rcases arguments with _ | ⟨item, _ | ⟨next, rest⟩⟩
  · simp only [tokens]
  · simp only [tokens, if_neg hmethod, itemTokens]
  · simp only [tokens]

/-- The tokens of a negation are its sign and those of the operand. -/
theorem tokens_negation (style : Style) (operand : Expr) :
    operand.negation.tokens style =
      .symbol style.negation :: operand.enclosed .signed (operand.tokens (style.part 0)) := by
  simp only [negation, tokens, if_pos]

/-- A name that is no keyword is not the word of negation. -/
theorem ne_not_of_free {method : String} (hfree : Token.ofWord method = .identifier method) :
    method ≠ "not" := by
  rintro rfl
  revert hfree
  decide

/-- Tokens that can be written can be written in parentheses. -/
theorem writable_enclosed {inner : List Token} (expr : Expr) (due : Tightness)
    (h : ∀ token ∈ inner, token.Writable) :
    ∀ token ∈ expr.enclosed due inner, token.Writable := by
  unfold enclosed
  split
  · rw [List.forall_mem_cons, List.forall_mem_append, List.forall_mem_singleton]
    exact ⟨Token.writable_symbol _, h, Token.writable_symbol _⟩
  · exact h

/-- The tokens of arguments can be written if those of each can. -/
theorem writable_itemTokens {items : List Expr}
    (h : ∀ item ∈ items, ∀ (style : Style), ∀ token ∈ item.tokens style, token.Writable)
    (style : Style) : ∀ token ∈ itemTokens style items, token.Writable := by
  induction items generalizing style with
  | nil => exact nofun
  | cons item rest ih =>
    have hitem := h item List.mem_cons_self
    have hrest := ih (fun other hother => h other (List.mem_cons_of_mem _ hother)) (style.part 1)
    cases rest with
    | nil => exact hitem (style.part 0)
    | cons next more =>
      rw [itemTokens, List.forall_mem_append, List.forall_mem_cons]
      · exact ⟨hitem _, Token.writable_symbol _, hrest⟩
      · exact nofun

/-- The tokens of an expression that can be written can be written. -/
theorem Writable.tokens {expr : Expr} (h : expr.Writable) (style : Style) :
    ∀ token ∈ expr.tokens style, token.Writable := by
  induction h generalizing style with
  | @literal value hvalue =>
    have htoken := Literal.writable_token hvalue
    rw [Expr.tokens, Literal.tokens]
    split
    · rw [List.forall_mem_cons, List.forall_mem_singleton]
      exact ⟨Token.writable_symbol _, htoken⟩
    · rw [List.forall_mem_singleton]
      exact htoken
  | var hname =>
    rw [Expr.tokens, List.forall_mem_singleton]
    exact Token.writable_var hname
  | identifier hname hfree =>
    rw [Expr.tokens, List.forall_mem_singleton, ← hfree]
    exact Token.writable_of_isName hname
  | access _ hname ih =>
    rw [Expr.tokens, List.forall_mem_append, List.forall_mem_cons, List.forall_mem_singleton]
    exact ⟨writable_enclosed _ _ (ih _), Token.writable_symbol _, Token.writable_of_isName hname⟩
  | invoke hname hfree _ ih =>
    rw [tokens_invoke _ (ne_not_of_free hfree), List.forall_mem_cons, List.forall_mem_cons,
      List.forall_mem_append, List.forall_mem_singleton, ← hfree]
    exact ⟨Token.writable_of_isName hname, Token.writable_symbol _, writable_itemTokens ih style,
      Token.writable_symbol _⟩
  | negation _ ih =>
    rw [tokens_negation, List.forall_mem_cons]
    exact ⟨Token.writable_symbol _, writable_enclosed _ _ (ih _)⟩
  | call _ hname _ ihr ih =>
    rw [Expr.tokens, List.forall_mem_append, List.forall_mem_cons, List.forall_mem_cons,
      List.forall_mem_cons, List.forall_mem_append, List.forall_mem_singleton]
    exact ⟨writable_enclosed _ _ (ihr _), Token.writable_symbol _, Token.writable_of_isName hname,
      Token.writable_symbol _, writable_itemTokens ih _, Token.writable_symbol _⟩
  | binary _ _ ihl ihr =>
    rw [Expr.tokens, List.forall_mem_append, List.forall_mem_cons]
    exact ⟨writable_enclosed _ _ (ihl _), Token.writable_symbol _, writable_enclosed _ _ (ihr _)⟩
  | conditional _ _ _ iht ihy ihn =>
    rw [Expr.tokens]
    split
    · rw [List.forall_mem_cons, List.forall_mem_append, List.forall_mem_cons,
        List.forall_mem_append, List.forall_mem_cons]
      exact ⟨Token.writable_symbol _, iht _, Token.writable_symbol _, ihy _,
        Token.writable_symbol _, ihn _⟩
    · rw [List.forall_mem_append, List.forall_mem_cons, List.forall_mem_append,
        List.forall_mem_cons]
      exact ⟨writable_enclosed _ _ (iht _), Token.writable_symbol _, ihy _,
        Token.writable_symbol _, ihn _⟩

end Expr

end TypedQuery
