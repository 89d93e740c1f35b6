import TypedQuery.Proofs.Expr.Printing

/-!
# Readers of looser and tighter bindings

What the reader of a binding makes of some tokens is stated for all that may follow them. A looser
reader starts with the next tighter one, so that it reads whatever a tighter one reads, in front of
tokens that do not go on with it.
-/

namespace TypedQuery

/-- The rank at which a token goes on with an expression that stands before it. -/
def Token.joint? : Token → Option Nat
  | symbol .question => some 0
  | symbol .or => some 1
  | symbol .and => some 2
  | symbol .eq | symbol .notEq => some 3
  | symbol .less | symbol .lessEq | symbol .greater | symbol .greaterEq => some 4
  | symbol .plus | symbol .minus => some 5
  | symbol .star | symbol .slash | symbol .percent => some 6
  | symbol .caret => some 7
  | symbol .dot => some 9
  | symbol .leftParen => some 10
  | _ => none

/-- The token goes on with an expression only at ranks below a bound. -/
def Token.Free (bound : Nat) (token : Token) : Prop :=
  ∀ rank, token.joint? = some rank → rank < bound

namespace Token.Free

variable {token : Token} {bound bound' : Nat}

/-- A token that is free below a bound is so below every larger one. -/
theorem mono (h : token.Free bound) (hle : bound ≤ bound') : token.Free bound' :=
  fun rank hrank => Nat.lt_of_lt_of_le (h rank hrank) hle

/-- A token that goes on with no expression is free. -/
theorem of_none (h : token.joint? = none) : token.Free bound := by
  intro rank hrank
  rw [h] at hrank
  cases hrank

/-- A free token is none of those that go on at the bound or above it. -/
theorem ne_of_joint {other : Token} {rank : Nat} (h : token.Free bound)
    (hother : other.joint? = some rank) (hle : bound ≤ rank) : token ≠ other := by
  rintro rfl
  have hlt := h rank hother
  omega

end Token.Free

/-- An operator of a level goes on at the rank above it. -/
theorem Level.joint_of_operator {level : Level} {token : Token} {op : Operator}
    (h : level.operator? token = some op) : token.joint? = some (level.rank + 1) := by
  unfold Level.operator? at h
  split at h
  all_goals first | rfl | cases h

/-- A token that is free at a level is no operator of it. -/
theorem Token.Free.operator_eq_none {level : Level} {token : Token}
    (h : token.Free (level.rank + 1)) : level.operator? token = none := by
  cases hop : level.operator? token with
  | none => rfl
  | some op =>
    have hlt := h _ (Level.joint_of_operator hop)
    omega

/-- The sign of an operator goes on at the rank of its binding. -/
theorem Operator.joint_sign (op : Operator) :
    (Token.symbol op.sign).joint? = some op.tightness.rank := by
  cases op
  all_goals rfl

/-- An operator is the power, or it stands on a level and associates to the left. -/
theorem Operator.tightness_cases (op : Operator) :
    op = .power ∨ ∃ level, op.tightness = .level level ∧ op.left = .level level ∧
      op.right = (Tightness.level level).tighter := by
  cases op
  all_goals first | exact .inl rfl | exact .inr ⟨_, rfl, rfl, rfl⟩

/-- The sign of an operator is read as the operator at its level. -/
theorem Operator.operator_sign {op : Operator} {level : Level} (h : op.tightness = .level level) :
    level.operator? (.symbol op.sign) = some op := by
  cases op
  all_goals
    cases h
    try rfl

namespace Tightness

/-- The least rank at which the reader of a binding takes no token after an expression, unless it
goes on with more of the same rank. -/
def limit : Tightness → Nat
  | any => 0
  | level l => l.rank + 2
  | power => 7
  | signed => 8
  | path => 10

/-- The limit of a binding is not below its rank. -/
theorem rank_le_limit (due : Tightness) : due.rank ≤ due.limit := by
  cases due with
  | level l => exact Nat.le_succ _
  | _ => decide

/-- No limit is above ten. -/
theorem limit_le (due : Tightness) : due.limit ≤ 10 := by
  cases due with
  | level l => cases l <;> decide
  | _ => decide

/-- No rank is above nine. -/
theorem rank_le (due : Tightness) : due.rank ≤ 9 := by
  cases due with
  | level l => cases l <;> decide
  | _ => decide

/-- Bindings differ in rank. -/
theorem rank_injective {due due' : Tightness} (h : due.rank = due'.rank) : due = due' := by
  rcases due with _ | ⟨_ | _⟩ | _
  all_goals
    rcases due' with _ | ⟨_ | _⟩ | _
    all_goals first | rfl | cases h

/-- The next tighter binding has the next rank. -/
theorem rank_tighter {due : Tightness} (h : due ≠ .path) : due.tighter.rank = due.rank + 1 := by
  cases due with
  | level l => cases l <;> rfl
  | path => exact absurd rfl h
  | _ => rfl

/-- The reader of expressions that are bound at least so tightly. -/
def reader : Tightness → Nat → Reader Expr
  | any, fuel => Expr.readAny fuel
  | level l, fuel => Expr.readLevel fuel l
  | power, fuel => Expr.readPower fuel
  | signed, fuel => Expr.readSigned fuel
  | path, fuel => Expr.readSigned fuel

/-- How this reader goes on after a first expression. -/
def resume : Tightness → Nat → Expr → Reader Expr
  | level l, fuel, left => Expr.readChain fuel l left
  | path, fuel, object => Expr.readPath fuel object
  | _, _, expr => pure expr

end Tightness

namespace Expr

open Reader

/-- The expressions are the same, but for the source texts of their tests. -/
def Same (expr other : Expr) : Prop :=
  other.bare = expr.bare

/-- Tokens start with one that closes no parentheses. -/
def Opens (tokens : List Token) : Prop :=
  ∃ first more, tokens = first :: more ∧ first ≠ .symbol .rightParen

/-- No parenthesis is closed in front of such tokens. -/
theorem Opens.not_closed {α : Type} {tokens rest after : List Token} {yes no : Reader α}
    {post : α → Prop} (h : Opens tokens) (hno : no.Passes (tokens ++ rest) after post) :
    (atSymbol .rightParen >>= fun found => if found = true then yes else no).Passes
      (tokens ++ rest) after post := by
  obtain ⟨first, more, rfl, hfirst⟩ := h
  exact Passes.not_atSymbol hfirst hno

/-- Tokens are read as an expression by the reader of a binding: in front of a token that does not
go on with the expression, the reader comes to the point after these tokens. There it may go on with
more of the same binding, so that what follows an operand is left to the rest of the reader. Each
token pays for twenty readers inside each other, of which those of looser bindings are behind. -/
def Reads (bound : Nat) (due : Tightness) (tokens : List Token) (expr : Expr) : Prop :=
  ∀ (fuel : Nat) (next : Token) (rest after : List Token) (post : Expr → Prop),
    20 * tokens.length + 20 ≤ fuel + 2 * due.rank → next.Free bound → next.Free due.limit →
    (∀ fuel' found, fuel ≤ fuel' + tokens.length + 1 → Same expr found →
      (due.resume fuel' found).Passes (next :: rest) after post) →
    (due.reader fuel).Passes (tokens ++ next :: rest) after post

namespace Reads

variable {bound fuel : Nat} {due : Tightness} {tokens rest : List Token} {next : Token}
  {expr : Expr}

/-- In front of a token that goes on with nothing, the reader stops. -/
theorem passes (h : Reads bound due tokens expr)
    (hfuel : 20 * tokens.length + 20 ≤ fuel + 2 * due.rank) (hbound : next.Free bound)
    (hnext : next.Free due.rank) :
    (due.reader fuel).Passes (tokens ++ next :: rest) (next :: rest) (Same expr) := by
  have hrank := due.rank_le
  refine h fuel next rest _ _ hfuel hbound (hnext.mono due.rank_le_limit) fun fuel' found hleft
    hsame => ?_
  obtain ⟨fuel', rfl⟩ : ∃ less, fuel' = less + 1 := ⟨fuel' - 1, by omega⟩
  -- Only the readers of levels and of paths would go on here.
  cases due with
  | level l =>
    change (readChain (fuel' + 1) l found).Passes _ _ _
    unfold readChain
    refine Passes.current ?_
    rw [hnext.operator_eq_none]
    exact Passes.pure hsame
  | path =>
    have hdot : next ≠ .symbol .dot := hnext.ne_of_joint rfl (Nat.le_refl 9)
    change (readPath (fuel' + 1) found).Passes _ _ _
    unfold readPath
    refine Passes.not_atSymbol hdot ?_
    exact Passes.pure hsame
  | _ => exact Passes.pure hsame

/-- An operand of a level is read at the next tighter binding. -/
theorem readOperand_succ (fuel : Nat) (level : Level) :
    readOperand (fuel + 1) level = (Tightness.level level).tighter.reader fuel := by
  unfold readOperand
  cases level
  all_goals rfl

/-- The limit of a binding is not above the rank of the next tighter one. -/
theorem limit_le_tighter {due : Tightness} (hpath : due ≠ .path) :
    due.limit ≤ due.tighter.rank := by
  cases due with
  | level l => cases l <;> decide
  | path => exact absurd rfl hpath
  | _ => decide

/-- The reader of a looser binding starts with the reader of the next tighter one. -/
theorem looser (h : Reads bound due.tighter tokens expr) : Reads bound due tokens expr := by
  by_cases hpath : due = .path
  · subst hpath
    exact h
  intro fuel next rest after post hfuel hbound hnext hresume
  have hrank := due.rank_le
  obtain ⟨fuel, rfl⟩ : ∃ less, fuel = less + 2 := ⟨fuel - 2, by omega⟩
  have hneed : 20 * tokens.length + 20 ≤ fuel + 2 * due.tighter.rank := by
    rw [Tightness.rank_tighter hpath]
    omega
  have hmore : 20 * tokens.length + 20 ≤ fuel + 1 + 2 * due.tighter.rank := by omega
  have htight : next.Free due.tighter.rank := hnext.mono (limit_le_tighter hpath)
  have hread : (due.tighter.reader fuel).Passes (tokens ++ next :: rest) (next :: rest)
      (Same expr) := h.passes hneed hbound htight
  have hread' : (due.tighter.reader (fuel + 1)).Passes (tokens ++ next :: rest) (next :: rest)
      (Same expr) := h.passes hmore hbound htight
  -- Each reader asks for its own tokens after the tighter part, and finds none.
  cases due with
  | any =>
    have hquestion : next ≠ .symbol .question := hnext.ne_of_joint rfl (Nat.le_refl 0)
    change (readAny (fuel + 2)).Passes _ _ _
    unfold readAny
    refine Passes.position fun start => hread'.bind fun found hsame => ?_
    refine Passes.not_atSymbol hquestion ?_
    exact hresume (fuel + 2) found (by omega) hsame
  | level l =>
    change (readLevel (fuel + 2) l).Passes _ _ _
    unfold readLevel
    rw [readOperand_succ]
    exact hread.bind fun found hsame => hresume (fuel + 1) found (by omega) hsame
  | power =>
    have hcaret : next ≠ .symbol .caret := hnext.ne_of_joint rfl (Nat.le_refl 7)
    change (readPower (fuel + 2)).Passes _ _ _
    unfold readPower
    refine hread'.bind fun found hsame => ?_
    refine Passes.not_atSymbol hcaret ?_
    exact hresume (fuel + 2) found (by omega) hsame
  | signed =>
    refine h (fuel + 2) next rest after post (by omega) hbound (hnext.mono (by decide))
      fun fuel' found hleft hsame => ?_
    obtain ⟨fuel', rfl⟩ : ∃ less, fuel' = less + 1 := ⟨fuel' - 1, by omega⟩
    have hdot : next ≠ .symbol .dot := hnext.ne_of_joint rfl (by decide)
    change (readPath (fuel' + 1) found).Passes _ _ _
    unfold readPath
    refine Passes.not_atSymbol hdot ?_
    exact hresume (fuel + 2) found (by omega) hsame
  | path => exact absurd rfl hpath

/-- Looser readers read what tighter ones read. -/
theorem of_le {due' : Tightness} (h : Reads bound due tokens expr) (hle : due'.rank ≤ due.rank) :
    Reads bound due' tokens expr := by
  obtain ⟨steps, hsteps⟩ : ∃ steps, due.rank = due'.rank + steps :=
    ⟨_, (Nat.add_sub_of_le hle).symm⟩
  induction steps generalizing due' with
  | zero =>
    rw [← Tightness.rank_injective hsteps]
    exact h
  | succ steps ih =>
    have hrank := due.rank_le
    have hpath : due' ≠ .path := by
      rintro rfl
      change due.rank = 9 + (steps + 1) at hsteps
      omega
    have htighter := Tightness.rank_tighter hpath
    exact looser (ih (by omega) (by omega))

/-- In front of what an expression in any place must not go on with, nothing else is asked for. -/
theorem of_any (h : Reads 0 .any tokens expr) : Reads bound .any tokens expr :=
  fun fuel next rest after post hfuel _ hnext hresume =>
    h fuel next rest after post hfuel hnext hnext hresume

end Reads

end Expr

end TypedQuery
