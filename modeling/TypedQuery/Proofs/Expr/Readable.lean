import TypedQuery.Proofs.Expr.Roundtrip
import TypedQuery.Proofs.Token.Yielding

/-!
# What is read can be written

Every expression that is read from a text can be written, and what is written of it is read as the
same expression.
-/

namespace TypedQuery.Expr

open Reader

/-- With some fuel, all readers of expressions give what can be written. -/
structure ReadersYield (fuel : Nat) : Prop where
  any : (readAny fuel).Yields Writable
  level : ∀ level, (readLevel fuel level).Yields Writable
  operand : ∀ level, (readOperand fuel level).Yields Writable
  chain : ∀ level left, left.Writable → (readChain fuel level left).Yields Writable
  power : (readPower fuel).Yields Writable
  signed : (readSigned fuel).Yields Writable
  path : ∀ object, object.Writable → (readPath fuel object).Yields Writable
  primary : (readPrimary fuel).Yields Writable
  arguments : (readArguments fuel).Yields fun items => ∀ item ∈ items, item.Writable
  items : (readItems fuel).Yields fun items => ∀ item ∈ items, item.Writable

namespace ReadersYield

variable {fuel : Nat}

/-- Without fuel nothing is read. -/
theorem zero : ReadersYield 0 where
  any := by
    unfold readAny
    exact Yields.fail _
  level _ := by
    unfold readLevel
    exact Yields.fail _
  operand _ := by
    unfold readOperand
    exact Yields.fail _
  chain _ _ _ := by
    unfold readChain
    exact Yields.fail _
  power := by
    unfold readPower
    exact Yields.fail _
  signed := by
    unfold readSigned
    exact Yields.fail _
  path _ _ := by
    unfold readPath
    exact Yields.fail _
  primary := by
    unfold readPrimary
    exact Yields.fail _
  arguments := by
    unfold readArguments
    exact Yields.fail _
  items := by
    unfold readItems
    exact Yields.fail _

/-- The reader of expressions gives what can be written if the readers with less fuel do. -/
theorem any_succ (h : ReadersYield fuel) : (readAny (fuel + 1)).Yields Writable := by
  unfold readAny
  refine Yields.position.bind fun start _ => (h.level .or).bind fun test htest => ?_
  refine (Yields.atSymbol _).bind fun found _ => ?_
  split
  · refine (Yields.textFrom _).bind fun text _ => Yields.advance.bind fun _ _ => ?_
    refine h.any.bind fun yes hyes => (Yields.expect _).bind fun _ _ => ?_
    exact h.any.bind fun no hno => Yields.pure (.conditional htest hyes hno)
  · exact Yields.pure htest

/-- The reader of an operand gives what can be written if the readers with less fuel do. -/
theorem operand_succ (h : ReadersYield fuel) (level : Level) :
    (readOperand (fuel + 1) level).Yields Writable := by
  unfold readOperand
  split
  · exact h.level _
  · exact h.power

/-- The reader of the operators behind an operand gives what can be written if the readers with less
fuel do. -/
theorem chain_succ (h : ReadersYield fuel) (level : Level) {left : Expr} (hleft : left.Writable) :
    (readChain (fuel + 1) level left).Yields Writable := by
  unfold readChain
  refine Yields.current.bind fun token _ => ?_
  split
  · exact Yields.pure hleft
  · refine Yields.advance.bind fun _ _ => (h.operand level).bind fun right hright => ?_
    exact h.chain level _ (.binary hleft hright)

/-- The reader of powers gives what can be written if the readers with less fuel do. -/
theorem power_succ (h : ReadersYield fuel) : (readPower (fuel + 1)).Yields Writable := by
  unfold readPower
  refine h.signed.bind fun left hleft => (Yields.atSymbol _).bind fun found _ => ?_
  split
  · refine Yields.advance.bind fun _ _ => h.power.bind fun right hright => ?_
    exact Yields.pure (.binary hleft hright)
  · exact Yields.pure hleft

/-- The reader of operands behind signs gives what can be written if the readers with less fuel do.
-/
theorem signed_succ (h : ReadersYield fuel) : (readSigned (fuel + 1)).Yields Writable := by
  unfold readSigned
  refine Yields.current.bind fun token _ => ?_
  split
  · refine Yields.advance.bind fun _ _ => h.signed.bind fun operand hoperand => ?_
    exact Yields.pure (.negation hoperand)
  · refine Yields.advance.bind fun _ _ => h.signed.bind fun operand hoperand => ?_
    exact Yields.pure (.negation hoperand)
  · refine Yields.advance.bind fun _ _ => Yields.negated.bind fun found hfound => ?_
    split
    · exact Yields.pure (.literal (hfound _ rfl))
    · refine h.signed.bind fun operand hoperand => Yields.pure ?_
      exact .binary (.literal trivial) hoperand
  · exact h.primary.bind fun start hstart => h.path start hstart

/-- The reader of paths gives what can be written if the readers with less fuel do. -/
theorem path_succ (h : ReadersYield fuel) {object : Expr} (hobject : object.Writable) :
    (readPath (fuel + 1) object).Yields Writable := by
  unfold readPath
  refine (Yields.atSymbol _).bind fun found _ => ?_
  split
  · refine Yields.advance.bind fun _ _ => Yields.name.bind fun member hmember => ?_
    refine (Yields.atSymbol _).bind fun found _ => ?_
    split
    · exact h.arguments.bind fun arguments harguments =>
        h.path _ (.call hobject hmember harguments)
    · exact h.path _ (.access hobject hmember)
  · exact Yields.pure hobject

/-- The reader of primaries gives what can be written if the readers with less fuel do. -/
theorem primary_succ (h : ReadersYield fuel) : (readPrimary (fuel + 1)).Yields Writable := by
  unfold readPrimary
  refine Yields.literal.bind fun found hfound => ?_
  split
  · exact Yields.pure (.literal (hfound _ rfl))
  · refine Yields.current.bind fun token htoken => ?_
    split
    · exact Yields.advance.bind fun _ _ => Yields.pure (.var htoken.proper)
    · have hname := htoken.proper
      refine Yields.advance.bind fun _ _ => (Yields.atSymbol _).bind fun found _ => ?_
      split
      · exact h.arguments.bind fun arguments harguments =>
          Yields.pure (.invoke hname.1 hname.2 harguments)
      · exact Yields.pure (.identifier hname.1 hname.2)
    · refine Yields.advance.bind fun _ _ => h.any.bind fun inner hinner => ?_
      exact (Yields.expect _).bind fun _ _ => Yields.pure hinner
    · refine Yields.advance.bind fun _ _ => Yields.position.bind fun start _ => ?_
      refine h.any.bind fun test htest => (Yields.textFrom _).bind fun text _ => ?_
      refine (Yields.expect _).bind fun _ _ => h.any.bind fun yes hyes => ?_
      refine (Yields.expect _).bind fun _ _ => h.any.bind fun no hno => ?_
      exact Yields.pure (.conditional htest hyes hno)
    · exact Yields.fail _

/-- The reader of arguments gives what can be written if the readers with less fuel do. -/
theorem arguments_succ (h : ReadersYield fuel) :
    (readArguments (fuel + 1)).Yields fun items => ∀ item ∈ items, item.Writable := by
  unfold readArguments
  refine (Yields.expect _).bind fun _ _ => h.items.bind fun items hitems => ?_
  exact (Yields.expect _).bind fun _ _ => Yields.pure hitems

/-- The reader of items gives what can be written if the readers with less fuel do. -/
theorem items_succ (h : ReadersYield fuel) :
    (readItems (fuel + 1)).Yields fun items => ∀ item ∈ items, item.Writable := by
  unfold readItems
  refine (Yields.atSymbol _).bind fun found _ => ?_
  split
  · exact Yields.pure fun _ h => absurd h List.not_mem_nil
  · refine h.any.bind fun item hitem => (Yields.atSymbol _).bind fun found _ => ?_
    split
    · exact Yields.pure (List.forall_mem_singleton.mpr hitem)
    · refine (Yields.expect _).bind fun _ _ => h.items.bind fun items hitems => ?_
      exact Yields.pure (List.forall_mem_cons.mpr ⟨hitem, hitems⟩)

/-- With one more unit of fuel all readers give what can be written still. -/
theorem succ (h : ReadersYield fuel) : ReadersYield (fuel + 1) where
  any := h.any_succ
  level level := by
    unfold readLevel
    exact (h.operand level).bind fun left hleft => h.chain level left hleft
  operand := h.operand_succ
  chain level _ hleft := h.chain_succ level hleft
  power := h.power_succ
  signed := h.signed_succ
  path _ hobject := h.path_succ hobject
  primary := h.primary_succ
  arguments := h.arguments_succ
  items := h.items_succ

end ReadersYield

/-- With any fuel, all readers of expressions give what can be written. -/
theorem readersYield (fuel : Nat) : ReadersYield fuel := by
  induction fuel with
  | zero => exact .zero
  | succ fuel ih => exact ih.succ

/-- A text is read as an expression by reading all its tokens. -/
theorem read_eq_ok {source : String} {expr : Expr} :
    read source = .ok expr ↔ ∃ cursor cursor', Cursor.ofSource source = .ok cursor ∧
      readWhole cursor = .ok (expr, cursor') :=
  runFrom_eq_ok

/-- Reads an expression with some fuel, and the end of the text. -/
def readAll (fuel : Nat) : Reader Expr := do
  let expr ← readAny fuel
  expectToken .eof
  return expr

/-- The fuel for a whole text comes from the number of its tokens. -/
theorem readWhole_eq (cursor : Cursor) :
    readWhole cursor = readAll (fuelFor cursor.size) cursor := by
  unfold readWhole
  change StateT.bind _ _ cursor = _
  rfl

/-- Every expression that is read from a text can be written. -/
theorem writable_of_read {source : String} {expr : Expr} (h : read source = .ok expr) :
    expr.Writable := by
  obtain ⟨cursor, cursor', hcursor, hwhole⟩ := read_eq_ok.mp h
  have hyields : (readAll (fuelFor cursor.size)).Yields Writable := by
    unfold readAll
    refine (readersYield _).any.bind fun inner hinner => ?_
    exact (Yields.expectToken _).bind fun _ _ => Yields.pure hinner
  rw [readWhole_eq] at hwhole
  exact (hyields cursor expr cursor' (Cursor.sound_ofSource hcursor) hwhole).2

/-- Tokens that are read as an expression are read as this expression from the start of a text. -/
theorem read_of_sees {expr : Expr} {tokens : List Token} {source : String} {cursor : Cursor}
    (h : Reads 10 .any tokens expr) (hcursor : Cursor.ofSource source = .ok cursor)
    (hsees : cursor.Sees (tokens ++ [.eof])) :
    ∃ found, read source = .ok found ∧ Same expr found := by
  have hsize : cursor.size = tokens.length + 1 := by
    rw [hsees.size, List.length_append, List.length_singleton]
  have hend : ∀ bound, Token.eof.Free bound := fun bound => .of_none rfl
  have hfuel : 20 * tokens.length + 20 ≤ fuelFor cursor.size + 2 * 0 := by
    rw [hsize]
    unfold fuelFor
    omega
  have hread : (readAny (fuelFor cursor.size)).Passes (tokens ++ [.eof]) [.eof] (Same expr) :=
    h.passes hfuel (hend _) (hend _)
  have hall : (readAll (fuelFor cursor.size)).Passes (tokens ++ [.eof]) [.eof] (Same expr) := by
    unfold readAll
    exact hread.bind fun found hsame => Passes.expectEnd.bind fun _ _ => Passes.pure hsame
  obtain ⟨found, cursor', hfound, -, hsame⟩ := hall cursor hsees
  rw [← readWhole_eq] at hfound
  exact ⟨found, read_eq_ok.mpr ⟨cursor, cursor', hcursor, hfound⟩, hsame⟩

/-- A text of tokens that are read as an expression is read as this expression. -/
theorem read_of_reads {expr : Expr} {tokens : List Token} {source : String}
    (h : Reads 10 .any tokens expr) (hsource : Writes tokens source.toList) :
    ∃ found, read source = .ok found ∧ Same expr found := by
  obtain ⟨cursor, hcursor, hsees⟩ := hsource.ofSource
  exact read_of_sees h hcursor hsees

/-- A text that writes an expression is read as this expression. -/
theorem read_of_writes {expr : Expr} {style : Style} {source : String} (h : expr.Writable)
    (hsource : Writes (expr.tokens style) source.toList) :
    ∃ found, read source = .ok found ∧ Same expr found :=
  read_of_reads ((h.reads style).of_le (Nat.zero_le _)) hsource

/-- There is a text for every expression that can be written, in every style. -/
theorem Writable.exists_source {expr : Expr} (h : expr.Writable) (style : Style) :
    ∃ source : String, Writes (expr.tokens style) source.toList := by
  obtain ⟨text, hwrites, -⟩ := exists_writes (h.tokens style)
  exact ⟨String.ofList text, by rwa [String.toList_ofList]⟩

/-- Reading inverts writing: an expression that can be written is read back from all its texts, and
every expression that is read from a text can be written. -/
theorem read_inverts_writing :
    (∀ expr : Expr, expr.Writable → ∀ style : Style,
      (∃ source : String, Writes (expr.tokens style) source.toList) ∧
        ∀ source : String, Writes (expr.tokens style) source.toList →
          ∃ found, read source = .ok found ∧ found.bare = expr.bare) ∧
      ∀ (source : String) (expr : Expr), read source = .ok expr → expr.Writable :=
  ⟨fun _ hexpr style => ⟨hexpr.exists_source style, fun _ hsource => read_of_writes hexpr hsource⟩,
    fun _ _ hread => writable_of_read hread⟩

/-- A conditional whose test is one, with keywords and with signs, is read back. -/
theorem read_inverts_writing_choice :
    let choice : Expr := .conditional (.conditional (.var "a") "" (.var "b") (.identifier "c")) ""
      (.access (.literal (.integer (-5))) "if") (negation (.call (.var "a") "not" [.var "b"]))
    let style : Style := ⟨fun way => way = [0], fun _ => true⟩
    choice.Writable ∧ ∃ (source : String) (found : Expr),
      Writes (choice.tokens style) source.toList ∧ read source = .ok found ∧
        found.bare = choice.bare := by
  intro choice style
  have ha : isName "a" = true := by decide
  have hb : isName "b" = true := by decide
  have hc : isName "c" = true := by decide
  have hif : isName "if" = true := by decide
  have hnot : isName "not" = true := by decide
  have hfree : Token.ofWord "c" = .identifier "c" := by decide
  have hitems : ∀ item ∈ [Expr.var "b"], item.Writable :=
    List.forall_mem_singleton.mpr (.var hb)
  have hchoice : choice.Writable :=
    .conditional (.conditional (.var ha) (.var hb) (.identifier hc hfree))
      (.access (.literal trivial) hif) (.negation (.call (.var ha) hnot hitems))
  obtain ⟨⟨source, hsource⟩, hread⟩ := read_inverts_writing.1 choice hchoice style
  obtain ⟨found, hfound, hsame⟩ := hread source hsource
  exact ⟨hchoice, source, found, hsource, hfound, hsame⟩

/-- The decimal that an expression is. -/
def decimal? : Expr → Option Decimal
  | literal (.decimal d) => some d
  | _ => none

/-- A digit after the point for which there is no room is rounded away: then an expression is read
that has a decimal without a digit after the point, and the text of this decimal is not read. -/
theorem read_rounds :
    ∃ d : Decimal, read "12345678901234567890123456789.5" = .ok (.literal (.decimal d)) ∧
      d.scale = 0 ∧ d.text = "12345678901234567890123456790" ∧
      ∀ expr, read d.text ≠ .ok expr := by
  have hround : ((read "12345678901234567890123456789.5").toOption.bind decimal?).map
      (fun d => (d.scale, d.text)) = some (0, "12345678901234567890123456790") := by
    decide +kernel
  have hrange : (read "12345678901234567890123456790").toOption.isNone = true := by
    decide +kernel
  cases hread : read "12345678901234567890123456789.5" with
  | error fault =>
    rw [hread] at hround
    cases hround
  | ok expr =>
    rw [hread] at hround
    change (expr.decimal?).map _ = _ at hround
    obtain ⟨d, hdecimal, hparts⟩ := Option.map_eq_some_iff.mp hround
    rw [Prod.mk.injEq] at hparts
    refine ⟨d, ?_, hparts.1, hparts.2, ?_⟩
    · unfold decimal? at hdecimal
      split at hdecimal
      · cases hdecimal
        rfl
      · cases hdecimal
    · intro other hother
      rw [hparts.2] at hother
      rw [hother] at hrange
      cases hrange

end TypedQuery.Expr
