import TypedQuery.Proofs.Expr.Readable
import TypedQuery.Proofs.Expr.Locality

/-!
# Texts of tests

A conditional keeps the source text of its test. This text is cut out of the source, from the first
token of the test to the last one, and read by itself it is the test again: readers are local, and
the fuel for a text suffices for every part of it.
-/

namespace TypedQuery.Expr

open Reader

/-- An expression stands in another one, at any depth. -/
inductive Within (part : Expr) : Expr → Prop
  | whole : Within part part
  | object {object : Expr} {name : String} (h : Within part object) :
      Within part (access object name)
  | item {method : String} {arguments : List Expr} {item : Expr} (member : item ∈ arguments)
      (h : Within part item) : Within part (invoke method arguments)
  | receiver {receiver : Expr} {method : String} {arguments : List Expr}
      (h : Within part receiver) : Within part (call receiver method arguments)
  | argument {receiver : Expr} {method : String} {arguments : List Expr} {item : Expr}
      (member : item ∈ arguments) (h : Within part item) :
      Within part (call receiver method arguments)
  | left {op : Operator} {left right : Expr} (h : Within part left) :
      Within part (binary op left right)
  | right {op : Operator} {left right : Expr} (h : Within part right) :
      Within part (binary op left right)
  | test {test : Expr} {testText : String} {yes no : Expr} (h : Within part test) :
      Within part (conditional test testText yes no)
  | yes {test : Expr} {testText : String} {yes no : Expr} (h : Within part yes) :
      Within part (conditional test testText yes no)
  | no {test : Expr} {testText : String} {yes no : Expr} (h : Within part no) :
      Within part (conditional test testText yes no)

/-- Every test in the expression is read from the text that is kept of it. -/
def Retold (expr : Expr) : Prop :=
  ∀ test testText yes no, Within (conditional test testText yes no) expr →
    read testText = .ok test

namespace Retold

variable {object left right test yes no operand : Expr} {arguments : List Expr}

/-- Literals have no tests. -/
theorem literal (value : Literal) : (literal value).Retold := nofun

/-- Variables have no tests. -/
theorem var (name : String) : (var name).Retold := nofun

/-- Names have no tests. -/
theorem identifier (name : String) : (identifier name).Retold := nofun

/-- The tests in a path are those of the object. -/
theorem access (h : object.Retold) (name : String) : (access object name).Retold := by
  intro test testText yes no hwithin
  cases hwithin with
  | object hobject => exact h _ _ _ _ hobject

/-- The tests in a call are those of the arguments. -/
theorem invoke (h : ∀ item ∈ arguments, item.Retold) (method : String) :
    (invoke method arguments).Retold := by
  intro test testText yes no hwithin
  cases hwithin with
  | item hmember hitem => exact h _ hmember _ _ _ _ hitem

/-- The tests in a method call are those of the receiver and of the arguments. -/
theorem call (hreceiver : object.Retold) (h : ∀ item ∈ arguments, item.Retold) (method : String) :
    (call object method arguments).Retold := by
  intro test testText yes no hwithin
  cases hwithin with
  | receiver hobject => exact hreceiver _ _ _ _ hobject
  | argument hmember hitem => exact h _ hmember _ _ _ _ hitem

/-- The tests in an operator are those of the operands. -/
theorem binary (hleft : left.Retold) (hright : right.Retold) (op : Operator) :
    (binary op left right).Retold := by
  intro test testText yes no hwithin
  cases hwithin with
  | left h => exact hleft _ _ _ _ h
  | right h => exact hright _ _ _ _ h

/-- The test of a conditional has to be read from its text, beside those in the parts. -/
theorem conditional {testText : String} (htest : test.Retold) (hyes : yes.Retold)
    (hno : no.Retold) (htext : read testText = .ok test) :
    (conditional test testText yes no).Retold := by
  intro test' testText' yes' no' hwithin
  cases hwithin with
  | whole => exact htext
  | test h => exact htest _ _ _ _ h
  | yes h => exact hyes _ _ _ _ h
  | no h => exact hno _ _ _ _ h

/-- The tests in a negation are those of the operand. -/
theorem negation (h : operand.Retold) : operand.negation.Retold :=
  invoke (List.forall_mem_singleton.mpr h) "not"

/-- The tests behind a sign are those of the operand. -/
theorem opposite (h : operand.Retold) : operand.opposite.Retold :=
  binary (literal _) h .subtract

end Retold

/-! ### Reading the texts -/

/-- A text is read as an expression by a reader that leaves nothing of it. -/
theorem read_of_reads_all {source : String} {test : Expr} {d d' : Cursor}
    (hd : Cursor.ofSource source = .ok d) (hread : readAny (fuelFor d.size) d = .ok (test, d'))
    (hend : d'.current.token = .eof ∧ d'.rest = []) : read source = .ok test := by
  obtain ⟨text, ⟨token, start, stop⟩, rest, previous⟩ := d'
  obtain ⟨rfl, rfl⟩ := hend
  refine read_eq_ok.mpr ⟨d, ⟨text, ⟨.eof, start, stop⟩, [], stop⟩, hd, ?_⟩
  rw [readWhole_eq]
  exact bind_eq_ok.mpr ⟨test, _, hread, rfl⟩

/-- The test of a conditional with keywords is any expression. -/
theorem read_of_retells_any {test : Expr} {text : String} (h : Retells readAny 20 test text) :
    read text = .ok test := by
  obtain ⟨d, hd, hagain⟩ := h
  obtain ⟨d', hread, hend⟩ := hagain (fuelFor d.size) (by unfold fuelFor; omega)
  exact read_of_reads_all hd hread hend

/-- The test of a conditional with signs is bound more tightly than a conditional. -/
theorem read_of_retells_level {test : Expr} {text : String}
    (h : Retells (fun fuel => readLevel fuel .or) 18 test text) : read text = .ok test := by
  obtain ⟨d, hd, hagain⟩ := h
  obtain ⟨fuel, hfuel⟩ : ∃ fuel, fuelFor d.size = fuel + 1 := ⟨20 * d.size + 19, rfl⟩
  unfold fuelFor at hfuel
  obtain ⟨d', hread, hend⟩ := hagain fuel (by omega)
  refine read_of_reads_all hd ?_ hend
  have hlast : ∀ {yes : Reader Expr}, (atSymbol .question >>= fun found =>
      if found = true then yes else return test) d' = .ok (test, d') := by
    intro yes
    refine bind_eq_ok.mpr ⟨false, d', ?_, rfl⟩
    change Except.ok (decide (d'.current.token = .symbol .question), d') = _
    rw [hend.1]
    rfl
  unfold fuelFor
  rw [hfuel]
  unfold readAny
  exact bind_eq_ok.mpr ⟨d.current.start, d, rfl, bind_eq_ok.mpr ⟨test, d', hread, hlast⟩⟩

/-! ### Readers of expressions -/

/-- Tokens of operators can stand in expressions. -/
theorem isExpressive_of_operator {level : Level} {token : Token} {op : Operator}
    (h : level.operator? token = some op) : token.isExpressive = true := by
  unfold Level.operator? at h
  split at h
  all_goals first | rfl | cases h

/-- Taking down a text does not move. -/
theorem ifSymbol_textFrom {symbol : Symbol} {offset : Nat} {yes : String → Reader Expr}
    {no : Reader Expr} :
    (atSymbol symbol >>= fun found => if found = true then textFrom offset >>= yes else no) =
      textFrom offset >>= fun text => atSymbol symbol >>= fun found =>
        if found = true then yes text else no := by
  funext c
  change (if decide (c.current.token = .symbol symbol) = true then textFrom offset >>= yes
      else no) c = (if decide (c.current.token = .symbol symbol) = true then yes _ else no) c
  split
  all_goals rfl

/-- With some fuel, all readers of expressions are local, and they give expressions whose tests are
read from their texts. -/
structure ReadersLocal (fuel : Nat) : Prop where
  any : Local (fun _ => True) 1 0 20 (readAny fuel) readAny Retold
  level : ∀ level, Local (fun _ => True) 1 0 (18 - 2 * level.rank) (readLevel fuel level)
    (fun fuel => readLevel fuel level) Retold
  operand : ∀ level, Local (fun _ => True) 1 0 (17 - 2 * level.rank) (readOperand fuel level)
    (fun fuel => readOperand fuel level) Retold
  chain : ∀ level left, left.Retold → Local (fun _ => True) 0 0 1 (readChain fuel level left)
    (fun fuel => readChain fuel level left) Retold
  power : Local (fun _ => True) 1 0 6 (readPower fuel) readPower Retold
  signed : Local (fun _ => True) 1 0 4 (readSigned fuel) readSigned Retold
  path : ∀ object, object.Retold → Local (fun _ => True) 0 0 1 (readPath fuel object)
    (fun fuel => readPath fuel object) Retold
  primary : Local (fun _ => True) 1 0 1 (readPrimary fuel) readPrimary Retold
  arguments : Local (fun _ => True) 1 0 2 (readArguments fuel) readArguments
    fun items => ∀ item ∈ items, item.Retold
  items : Local (fun _ => True) 0 1 21 (readItems fuel) readItems
    fun items => ∀ item ∈ items, item.Retold

namespace ReadersLocal

variable {fuel : Nat}

/-- Without fuel nothing is read. -/
theorem zero : ReadersLocal 0 where
  any := by
    rw [readAny]
    exact Local.fail
  level _ := by
    rw [readLevel]
    exact Local.fail
  operand _ := by
    rw [readOperand]
    exact Local.fail
  chain _ _ _ := by
    rw [readChain]
    exact Local.fail
  power := by
    rw [readPower]
    exact Local.fail
  signed := by
    rw [readSigned]
    exact Local.fail
  path _ _ := by
    rw [readPath]
    exact Local.fail
  primary := by
    rw [readPrimary]
    exact Local.fail
  arguments := by
    rw [readArguments]
    exact Local.fail
  items := by
    rw [readItems]
    exact Local.fail

/-- The reader of expressions is local if the readers with less fuel are. -/
theorem any_succ (h : ReadersLocal fuel) :
    Local (fun _ => True) 1 0 20 (readAny (fuel + 1)) readAny Retold := by
  rw [readAny]
  refine Local.succ ?_ readAny.eq_2
  simp only [ifSymbol_textFrom]
  refine ((Local.quoted (h.level .or)) fun test testText htest htext => ?_).raise (by decide)
  refine Local.ifSymbol (.inl ?_) (Local.pure htest)
  refine (Local.advance (by rfl)).andThen fun _ _ => ?_
  refine .weaken ((h.any.raise (by decide)).andThen fun yes hyes => ?_)
  refine .weaken ((Local.expect rfl).andThen fun _ _ => ?_)
  refine .weaken ((h.any.raise (by decide)).andThen fun no hno => Local.pure ?_)
  exact .conditional htest hyes hno (read_of_retells_level htext)

/-- The reader of a level is local if the readers with less fuel are. -/
theorem level_succ (h : ReadersLocal fuel) (level : Level) :
    Local (fun _ => True) 1 0 (18 - 2 * level.rank) (readLevel (fuel + 1) level)
      (fun fuel => readLevel fuel level) Retold := by
  have hdue : 18 - 2 * level.rank = 17 - 2 * level.rank + 1 := by
    cases level
    all_goals decide
  rw [readLevel, hdue]
  refine Local.succ ?_ fun fuel => by rw [readLevel]
  refine (h.operand level).andThen fun left hleft => ?_
  exact (h.chain level left hleft).raise (Nat.le_trans (by decide) (Nat.le_add_left 20 _))

/-- The reader of an operand of a level is local if the readers with less fuel are. -/
theorem operand_succ (h : ReadersLocal fuel) (level : Level) :
    Local (fun _ => True) 1 0 (17 - 2 * level.rank) (readOperand (fuel + 1) level)
      (fun fuel => readOperand fuel level) Retold := by
  rw [readOperand]
  cases level with
  | product => exact Local.succ h.power fun fuel => by rw [readOperand]; rfl
  | _ => exact Local.succ (h.level _) fun fuel => by rw [readOperand]; rfl

/-- The reader of the operators behind an operand is local if the readers with less fuel are. -/
theorem chain_succ (h : ReadersLocal fuel) (level : Level) {left : Expr} (hleft : left.Retold) :
    Local (fun _ => True) 0 0 1 (readChain (fuel + 1) level left)
      (fun fuel => readChain fuel level left) Retold := by
  rw [readChain]
  refine Local.succ ?_ fun fuel => by rw [readChain]
  refine Local.look fun token _ => ?_
  cases hop : level.operator? token with
  | none =>
    have hend : level.operator? .eof = none := by
      cases level
      all_goals rfl
    refine .inr ⟨Local.pure hleft, .inr fun fuel => ?_⟩
    rw [hend]
  | some op =>
    refine .inl ((Local.advance (isExpressive_of_operator hop)).andThen fun _ _ => ?_)
    refine .weaken (((h.operand level).raise (by omega)).andThen fun right hright => ?_)
    exact (h.chain level _ (hleft.binary hright op)).raise (by decide)

/-- The reader of powers is local if the readers with less fuel are. -/
theorem power_succ (h : ReadersLocal fuel) :
    Local (fun _ => True) 1 0 6 (readPower (fuel + 1)) readPower Retold := by
  rw [readPower]
  refine Local.succ ?_ readPower.eq_2
  refine (h.signed.raise (by decide)).andThen fun left hleft => ?_
  refine Local.ifSymbol (.inl ?_) (Local.pure hleft)
  refine (Local.advance (by rfl)).andThen fun _ _ => ?_
  refine .weaken ((h.power.raise (by decide)).andThen fun right hright => Local.pure ?_)
  exact .binary hleft hright _

/-- The reader of operands behind signs is local if the readers with less fuel are. -/
theorem signed_succ (h : ReadersLocal fuel) :
    Local (fun _ => True) 1 0 4 (readSigned (fuel + 1)) readSigned Retold := by
  have hnegation : ∀ {token : Token}, token.isExpressive = true → Local (· = token) 1 0 3
      (do advance; let operand ← readSigned fuel; return operand.negation)
      (fun fuel => do advance; let operand ← readSigned fuel; return operand.negation) Retold := by
    intro token hkind
    refine (Local.advance hkind).andThen fun _ _ => ?_
    refine .weaken ((h.signed.raise (by decide)).andThen fun operand hoperand => Local.pure ?_)
    exact hoperand.negation
  have hprimary : ∀ {kind}, Local kind 1 0 3 (readPrimary fuel >>= readPath fuel)
      (fun fuel => readPrimary fuel >>= readPath fuel) Retold := by
    intro kind
    refine (h.primary.mono (fun _ _ => trivial) (Nat.le_refl _) (Nat.le_refl _)
      (by decide)).andThen fun start hstart => ?_
    exact (h.path start hstart).raise (by decide)
  rw [readSigned]
  refine Local.succ ?_ readSigned.eq_2
  refine Local.look fun token _ => .inl ?_
  cases token with
  | symbol s =>
    cases s with
    | not | bang => exact hnegation rfl
    | minus =>
      refine (Local.advance (by rfl)).andThen fun _ _ => Local.negated fun found => ?_
      cases found with
      | some value => exact Local.pure (.literal value)
      | none =>
        refine .weaken ((h.signed.raise (by decide)).andThen fun operand hoperand => Local.pure ?_)
        exact hoperand.opposite
    | _ => exact hprimary
  | _ => exact hprimary

/-- The reader of paths is local if the readers with less fuel are. -/
theorem path_succ (h : ReadersLocal fuel) {object : Expr} (hobject : object.Retold) :
    Local (fun _ => True) 0 0 1 (readPath (fuel + 1) object) (fun fuel => readPath fuel object)
      Retold := by
  rw [readPath]
  refine Local.succ ?_ fun fuel => by rw [readPath]
  refine Local.ifSymbol (.inl ?_) (Local.pure hobject)
  refine (Local.advance (by rfl)).andThen fun _ _ => ?_
  refine .weaken (Local.name.andThen fun member _ => Local.ifSymbol (.inl ?_) ?_)
  · refine ((h.arguments.mono (fun _ _ => trivial) (Nat.le_refl _) (Nat.le_refl _)
      (by decide))).andThen fun arguments harguments => ?_
    exact (h.path _ (hobject.call harguments member)).raise (by decide)
  · exact (h.path _ (hobject.access member)).raise (by decide)

/-- The reader of primaries is local if the readers with less fuel are. -/
theorem primary_succ (h : ReadersLocal fuel) :
    Local (fun _ => True) 1 0 1 (readPrimary (fuel + 1)) readPrimary Retold := by
  rw [readPrimary]
  refine Local.succ ?_ readPrimary.eq_2
  refine Local.literal (fun value => Local.pure (.literal value)) ?_
  refine Local.look fun token _ => .inl ?_
  cases token with
  | var name =>
    exact (Local.advance (by rfl)).andThen fun _ _ => Local.pure (Retold.var name)
  | identifier name =>
    refine (Local.advance (by rfl)).andThen fun _ _ => Local.ifSymbol (.inl ?_) ?_
    · refine (h.arguments.mono (fun _ _ => trivial) (Nat.le_refl _) (Nat.le_refl _)
        (by decide)).andThen fun arguments harguments => Local.pure ?_
      exact .invoke harguments name
    · exact Local.pure (.identifier name)
  | symbol s =>
    cases s with
    | leftParen =>
      refine (Local.advance (by rfl)).andThen fun _ _ => ?_
      refine .weaken (h.any.andThen fun inner hinner => ?_)
      exact .weaken ((Local.expect rfl).andThen fun _ _ => Local.pure hinner)
    | cond =>
      refine (Local.advance (by rfl)).andThen fun _ _ => ?_
      refine .weaken (Local.quoted h.any fun test testText htest htext => ?_)
      refine .weaken ((Local.expect rfl).andThen fun _ _ => ?_)
      refine .weaken ((h.any.raise (by decide)).andThen fun yes hyes => ?_)
      refine .weaken ((Local.expect rfl).andThen fun _ _ => ?_)
      refine .weaken ((h.any.raise (by decide)).andThen fun no hno => Local.pure ?_)
      exact .conditional htest hyes hno (read_of_retells_any htext)
    | _ => exact Local.fail
  | _ => exact Local.fail

/-- The reader of arguments is local if the readers with less fuel are. -/
theorem arguments_succ (h : ReadersLocal fuel) :
    Local (fun _ => True) 1 0 2 (readArguments (fuel + 1)) readArguments
      fun items => ∀ item ∈ items, item.Retold := by
  rw [readArguments]
  refine Local.succ ?_ readArguments.eq_2
  refine (Local.expect rfl).andThen fun _ _ => ?_
  exact h.items.bind (fun items hitems => (Local.expect rfl).andThen fun _ _ => Local.pure hitems)
    (Nat.zero_le _) (Nat.le_refl _) (by decide) (Nat.le_refl _)

/-- The reader of items is local if the readers with less fuel are. -/
theorem items_succ (h : ReadersLocal fuel) :
    Local (fun _ => True) 0 1 21 (readItems (fuel + 1)) readItems
      fun items => ∀ item ∈ items, item.Retold := by
  rw [readItems]
  refine Local.succ ?_ readItems.eq_2
  refine Local.ifSymbol (.inr ⟨Local.pure (List.forall_mem_nil _), Nat.one_pos⟩) ?_
  refine .weaken (h.any.andThen fun item hitem => ?_)
  refine Local.ifSymbol (.inr ⟨Local.pure (List.forall_mem_singleton.mpr hitem), Nat.one_pos⟩) ?_
  refine .weaken ((Local.expect rfl).andThen fun _ _ => ?_)
  refine (h.items.raise (by decide)).bind (fun items hitems => Local.pure ?_) (Nat.zero_le _)
    (Nat.le_refl _) (Nat.le_refl _) (Nat.le_refl _)
  exact List.forall_mem_cons.mpr ⟨hitem, hitems⟩

/-- With one more unit of fuel all readers are local still. -/
theorem succ (h : ReadersLocal fuel) : ReadersLocal (fuel + 1) where
  any := h.any_succ
  level := h.level_succ
  operand := h.operand_succ
  chain level _ hleft := h.chain_succ level hleft
  power := h.power_succ
  signed := h.signed_succ
  path _ hobject := h.path_succ hobject
  primary := h.primary_succ
  arguments := h.arguments_succ
  items := h.items_succ

end ReadersLocal

/-- With any fuel, all readers of expressions are local. -/
theorem readersLocal (fuel : Nat) : ReadersLocal fuel := by
  induction fuel with
  | zero => exact .zero
  | succ fuel ih => exact ih.succ

/-- What is read as an expression has its tests in the texts that are kept of them, and reading
passes all tokens of the source, up to its end. -/
theorem retold_of_read {source : String} {expr : Expr} (h : read source = .ok expr) :
    expr.Retold ∧ ∃ c c' n, Cursor.ofSource source = .ok c ∧
      c.Reaches (·.isExpressive = true) n c' ∧ c'.current.token = .eof ∧ c'.rest = [] := by
  obtain ⟨c, last, hc, hwhole⟩ := read_eq_ok.mp h
  rw [readWhole_eq] at hwhole
  obtain ⟨found, c', hread, hlast⟩ := bind_eq_ok.mp hwhole
  obtain ⟨_, between, hend, ⟨⟩⟩ := bind_eq_ok.mp hlast
  have hscanned := Cursor.scanned_ofSource hc
  obtain ⟨hretold, n, -, hreaches, -⟩ := (readersLocal _).any c expr c' hscanned trivial hread
  have heof : c'.current.token = .eof := by
    have hexpect : (if c'.current.token = .eof then Reader.advance
        else fail (.expected .eof c'.current.token)) c' = .ok ((), last) := hend
    split at hexpect
    · assumption
    · cases hexpect
  exact ⟨hretold, c, c', n, hc, hreaches, heof, (hreaches.scanned hscanned).rest_eq_nil heof⟩

/-- The tokens of an expression are such that can stand in one. -/
theorem isExpressive_of_read {source : String} {expr : Expr} (h : read source = .ok expr)
    {lexeme : Lexeme} (hmem : .ok lexeme ∈ lexemes source) :
    lexeme.token.isExpressive = true ∨ lexeme.token = .eof := by
  obtain ⟨-, c, c', n, hc, hreaches, hend, hrest⟩ := retold_of_read h
  rw [(Cursor.lexemes_of_ofSource hc).1] at hmem
  exact hreaches.ofKind_of_mem hend hrest hmem

/-- The text that a conditional keeps of its test is the test: read as an expression of its own, it
is the test, with the texts of the tests in it. -/
theorem read_testText {source testText : String} {expr test yes no : Expr}
    (h : read source = .ok expr) (hwithin : Within (conditional test testText yes no) expr) :
    read testText = .ok test :=
  (retold_of_read h).1 test testText yes no hwithin

/-- The texts that the negation of a conditional keeps of its test and, where this is a conditional
as well, of the test in it. -/
def testTexts? : Expr → Option (String × String)
  | invoke _ [conditional (conditional _ inner _ _) outer _ _] => some (outer, inner)
  | _ => none

/-- The texts that a negated conditional keeps are those of a conditional in it and of the one in
its test. -/
theorem within_of_testTexts {expr : Expr} {outer inner : String}
    (h : expr.testTexts? = some (outer, inner)) :
    ∃ test yes no yes' no',
      Within (conditional (conditional test inner yes no) outer yes' no') expr ∧
        Within (conditional test inner yes no) expr := by
  unfold testTexts? at h
  split at h
  · cases h
    exact ⟨_, _, _, _, _, .item (List.mem_singleton.mpr rfl) .whole,
      .item (List.mem_singleton.mpr rfl) (.test .whole)⟩
  · cases h

/-- The test is a conditional with signs, in parentheses and with a comment; so is its text. -/
theorem read_testText_which :
    ∃ expr test yes no yes' no',
      read "not if ( a # which\n ? b : c ) then 1 else 2" = .ok expr ∧
        Within (conditional (conditional test "a" yes no) "( a # which\n ? b : c )" yes' no') expr ∧
        Within (conditional test "a" yes no) expr ∧
        read "( a # which\n ? b : c )" = .ok (conditional test "a" yes no) ∧
        read "a" = .ok test := by
  have htexts : (read "not if ( a # which\n ? b : c ) then 1 else 2").toOption.bind testTexts? =
      some ("( a # which\n ? b : c )", "a") := by
    decide +kernel
  cases hread : read "not if ( a # which\n ? b : c ) then 1 else 2" with
  | error fault =>
    rw [hread] at htexts
    cases htexts
  | ok expr =>
    rw [hread] at htexts
    obtain ⟨test, yes, no, yes', no', houter, hinner⟩ := within_of_testTexts htexts
    exact ⟨_, test, yes, no, yes', no', rfl, houter, hinner, read_testText hread houter,
      read_testText hread hinner⟩

end TypedQuery.Expr
