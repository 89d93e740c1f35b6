import TypedQuery.Proofs.Document.Fragments

/-!
# Expansion ends and is exact

The expansion of fragments as the recursion that it is, without a bound on how many fragments are
entered. It ends because each fragment that is entered is one less that can be, and inside of a
fragment selections get smaller. A fragment that is entered is active until its selections are
expanded, so whatever is spread there is reached from it. This tells what each failure means, and
that nothing fails where every fragment that is reached is defined and reaches not itself.
-/

namespace TypedQuery

namespace Document

variable {document : Document} {selections written : List Selection} {name other : String}

/-- The expansion of selections inside of the active fragments, with no bound on how many more are
entered. -/
def expansion (document : Document) (active : List String) :
    List Selection → Except CompileFault (List Selection)
  | [] => .ok []
  | .field name alias? arguments selections position :: rest => do
    let inner ← document.expansion active selections
    let others ← document.expansion active rest
    return .field name alias? arguments inner position :: others
  | .spread name _ :: rest =>
    if _ : name ∈ active then .error (.fragmentCycle name)
    else
      match _ : document.fragment? name with
      | none => .error (.unknownFragment name)
      | some fragment => do
        let first ← document.expansion (name :: active) fragment.selections
        let others ← document.expansion active rest
        return first ++ others
termination_by selections => (document.unentered active, sizeOf selections)
decreasing_by
  · exact Prod.Lex.right _
      (by simp only [List.cons.sizeOf_spec, Selection.field.sizeOf_spec]; omega)
  · exact Prod.Lex.right _ (by simp only [List.cons.sizeOf_spec]; omega)
  · exact Prod.Lex.left _ _ (unentered_cons_lt ‹_› ‹_›)
  · exact Prod.Lex.right _ (by simp only [List.cons.sizeOf_spec]; omega)

/-- A fragment is spread in selections, or reached from one that is. -/
def ReachedFrom (document : Document) (selections : List Selection) (name : String) : Prop :=
  ∃ spread ∈ spreadsIn selections, spread = name ∨ document.Reaches spread name

/-- A fragment reaches those that are reached from its selections. -/
theorem reaches_iff : document.Reaches name other ↔
    ∃ fragment, document.fragment? name = some fragment ∧
      document.ReachedFrom fragment.selections other := by
  constructor
  · intro h
    cases h with
    | spread hfragment hspread => exact ⟨_, hfragment, other, hspread, .inl rfl⟩
    | through hfragment hspread hreaches => exact ⟨_, hfragment, _, hspread, .inr hreaches⟩
  · rintro ⟨fragment, hfragment, spread, hspread, rfl | hreaches⟩
    · exact .spread hfragment hspread
    · exact .through hfragment hspread hreaches

section ReachedFrom

variable {rest : List Selection} {alias? : Option String} {arguments : List (String × Argument)}
  {position : Position}

/-- Nothing is reached from no selections. -/
theorem not_reachedFrom_nil : ¬document.ReachedFrom [] name := by
  rintro ⟨_, hspread, _⟩
  cases hspread

/-- A field reaches what its selections do. -/
theorem reachedFrom_field :
    document.ReachedFrom (.field name alias? arguments selections position :: rest) other ↔
      document.ReachedFrom selections other ∨ document.ReachedFrom rest other := by
  unfold ReachedFrom
  conv =>
    lhs
    unfold spreadsIn Selection.spreads
  simp only [List.mem_append, or_and_right, exists_or]

/-- A spread reaches its fragment and what this reaches. -/
theorem reachedFrom_spread :
    document.ReachedFrom (.spread name position :: rest) other ↔
      (name = other ∨ document.Reaches name other) ∨ document.ReachedFrom rest other := by
  unfold ReachedFrom
  conv =>
    lhs
    unfold spreadsIn Selection.spreads
  simp only [List.mem_append, List.mem_singleton, or_and_right, exists_or, exists_eq_left]

end ReachedFrom

/-- The bound on the fragments that are entered does nothing where it is greater than the number
of those that can be. -/
theorem expandSelections_eq_expansion (active : List String) (selections : List Selection)
    (fuel : Nat) (hfuel : document.unentered active < fuel) :
    expandSelections (document.fragmentSelections fuel active) selections =
      document.expansion active selections := by
  fun_induction document.expansion active selections generalizing fuel with
  | case1 => rfl
  | case2 active name alias? arguments selections position rest ihinner ihrest =>
    unfold expandSelections Selection.expand
    rw [ihinner fuel hfuel, ihrest fuel hfuel]
    cases document.expansion active selections <;> rfl
  | case3 active name position rest hactive =>
    obtain ⟨fuel, rfl⟩ := Nat.exists_eq_add_one_of_ne_zero (Nat.ne_zero_of_lt hfuel)
    unfold expandSelections Selection.expand fragmentSelections
    rw [if_pos hactive]
    rfl
  | case4 active name position rest hactive hfragment =>
    obtain ⟨fuel, rfl⟩ := Nat.exists_eq_add_one_of_ne_zero (Nat.ne_zero_of_lt hfuel)
    unfold expandSelections Selection.expand fragmentSelections
    rw [if_neg hactive, hfragment]
    rfl
  | case5 active name position rest hactive fragment hfragment ihfirst ihrest =>
    obtain ⟨fuel, rfl⟩ := Nat.exists_eq_add_one_of_ne_zero (Nat.ne_zero_of_lt hfuel)
    have hless := unentered_cons_lt hfragment hactive
    have hname : document.fragmentSelections (fuel + 1) active name =
        document.expansion (name :: active) fragment.selections := by
      unfold fragmentSelections
      rw [if_neg hactive, hfragment]
      exact ihfirst fuel (by omega)
    unfold expandSelections Selection.expand
    rw [hname, ihrest (fuel + 1) hfuel]

/-! ### What failures mean -/

/-- What a failure of an expansion inside of active fragments says about the fragments that are
reached from the selections. -/
def Tells (document : Document) (active : List String) (selections : List Selection)
    (fault : CompileFault) : Prop :=
  ∃ name, document.ReachedFrom selections name ∧
    (fault = .unknownFragment name ∧ document.fragment? name = none ∨
      fault = .fragmentCycle name ∧ (name ∈ active ∨ document.Reaches name name))

/-- What a failure says of selections it says of those from which more is reached. -/
theorem Tells.mono {active : List String} {others : List Selection} {fault : CompileFault}
    (h : document.Tells active selections fault)
    (himp : ∀ name, document.ReachedFrom selections name → document.ReachedFrom others name) :
    document.Tells active others fault := by
  obtain ⟨name, hreached, hfault⟩ := h
  exact ⟨name, himp name hreached, hfault⟩

/-- A failure names a fragment that is reached, and tells what is wrong with it. -/
theorem tells_of_expansion (active : List String) (selections : List Selection)
    (fault : CompileFault) (h : document.expansion active selections = .error fault) :
    document.Tells active selections fault := by
  fun_induction document.expansion active selections with
  | case1 => cases h
  | case2 active name alias? arguments selections position rest ihinner ihrest =>
    cases hinner : document.expansion active selections with
    | error cause =>
      rw [hinner] at h
      cases h
      exact (ihinner hinner).mono fun _ hreached => reachedFrom_field.mpr (.inl hreached)
    | ok inner =>
      cases hrest : document.expansion active rest with
      | error cause =>
        rw [hinner, hrest] at h
        cases h
        exact (ihrest hrest).mono fun _ hreached => reachedFrom_field.mpr (.inr hreached)
      | ok others =>
        rw [hinner, hrest] at h
        cases h
  | case3 active name position rest hactive =>
    cases h
    exact ⟨name, reachedFrom_spread.mpr (.inl (.inl rfl)), .inr ⟨rfl, .inl hactive⟩⟩
  | case4 active name position rest hactive hfragment =>
    cases h
    exact ⟨name, reachedFrom_spread.mpr (.inl (.inl rfl)), .inl ⟨rfl, hfragment⟩⟩
  | case5 active name position rest hactive fragment hfragment ihfirst ihrest =>
    cases hfirst : document.expansion (name :: active) fragment.selections with
    | error cause =>
      rw [hfirst] at h
      cases h
      obtain ⟨other, hreached, hfault⟩ := ihfirst hfirst
      have hreaches : document.Reaches name other := reaches_iff.mpr ⟨fragment, hfragment, hreached⟩
      refine ⟨other, reachedFrom_spread.mpr (.inl (.inr hreaches)), hfault.imp_right ?_⟩
      -- the fragment that has become active here reaches what is spread in it
      refine And.imp_right fun hcycle => ?_
      rcases hcycle with hmem | hcycle
      · rcases List.mem_cons.mp hmem with rfl | hmem
        · exact .inr hreaches
        · exact .inl hmem
      · exact .inr hcycle
    | ok first =>
      cases hrest : document.expansion active rest with
      | error cause =>
        rw [hfirst, hrest] at h
        cases h
        exact (ihrest hrest).mono fun _ hreached => reachedFrom_spread.mpr (.inr hreached)
      | ok others =>
        rw [hfirst, hrest] at h
        cases h

/-! ### What can be written out -/

/-- The spreads in two lists of selections are those in one and those in the other. -/
theorem spreadsIn_append (selections others : List Selection) :
    spreadsIn (selections ++ others) = spreadsIn selections ++ spreadsIn others := by
  induction selections with
  | nil => rfl
  | cons selection rest ih =>
    rw [List.cons_append, spreadsIn, spreadsIn, ih, List.append_assoc]

/-- What is written out has no spreads left. -/
theorem WritesOut.spreadsIn_eq_nil (h : document.WritesOut selections written) :
    spreadsIn written = [] := by
  induction h with
  | nil => rfl
  | field _ _ ihinner ihrest =>
    unfold spreadsIn Selection.spreads
    rw [ihinner, ihrest]
    rfl
  | spread _ _ _ ihinner ihrest => rw [spreadsIn_append, ihinner, ihrest, List.append_nil]

/-- All fragments that are reached from selections that can be written out are defined, and none
reaches itself. -/
theorem WritesOut.reached (h : document.WritesOut selections written)
    (hreached : document.ReachedFrom selections name) :
    (document.fragment? name).isSome ∧ ¬document.Reaches name name := by
  induction h with
  | nil => exact absurd hreached not_reachedFrom_nil
  | field _ _ ihinner ihrest =>
    rcases reachedFrom_field.mp hreached with hreached | hreached
    · exact ihinner hreached
    · exact ihrest hreached
  | @spread spread position fragment inner rest others hfragment hinner hrest ihinner ihrest =>
    have hinside : document.Reaches spread name →
        (document.fragment? name).isSome ∧ ¬document.Reaches name name := by
      intro hreaches
      obtain ⟨found, hfound, hreached⟩ := reaches_iff.mp hreaches
      cases hfragment.symm.trans hfound
      exact ihinner hreached
    rcases reachedFrom_spread.mp hreached with (rfl | hreaches) | hreached
    · exact ⟨hfragment ▸ rfl, fun hcycle => (hinside hcycle).2 hcycle⟩
    · exact hinside hreaches
    · exact ihrest hreached

/-- At the start no more fragments can be entered than there are. -/
theorem unentered_nil_lt : document.unentered [] < document.fragments.length + 1 := by
  rw [unentered_nil]
  exact Nat.lt_succ_self _

/-- What selections expand to, if they do, is what they are written out as. -/
theorem writesOut_of_expansion (h : document.expansion [] selections = .ok written) :
    document.WritesOut selections written := by
  rw [← expandSelections_eq_expansion [] selections _ unentered_nil_lt] at h
  exact expandSelections_writesOut (fragmentSelections_writesOut _ _) selections written h

/-- Expansion that starts inside of no fragment ends, and it is exact. Its bound on the fragments
that are entered is never met: it is the recursion without a bound. It gives a result just when
every fragment that is reached is defined and none reaches itself. The result is what the
selections are written out as, each spread giving way to the selections of the first fragment of
its name, and it has no spreads. A failure names an undefined fragment that is reached, or one that
is reached and reaches itself. -/
theorem expands_exactly (document : Document) (selections : List Selection) :
    let outcome := expandSelections
      (document.fragmentSelections (document.fragments.length + 1) []) selections
    outcome = document.expansion [] selections ∧
    ((∃ written, outcome = .ok written) ↔ ∀ name, document.ReachedFrom selections name →
      (document.fragment? name).isSome ∧ ¬document.Reaches name name) ∧
    (∀ written, outcome = .ok written ↔ document.WritesOut selections written) ∧
    (∀ written, outcome = .ok written → spreadsIn written = []) ∧
    ∀ fault, outcome = .error fault → ∃ name, document.ReachedFrom selections name ∧
      (fault = .unknownFragment name ∧ document.fragment? name = none ∨
        fault = .fragmentCycle name ∧ document.Reaches name name) := by
  intro outcome
  have houtcome : outcome = document.expansion [] selections :=
    expandSelections_eq_expansion [] selections _ unentered_nil_lt
  have hwritten : ∀ written, outcome = .ok written → document.WritesOut selections written :=
    fun written h => writesOut_of_expansion (houtcome ▸ h)
  have hfault : ∀ fault, outcome = .error fault → ∃ name, document.ReachedFrom selections name ∧
      (fault = .unknownFragment name ∧ document.fragment? name = none ∨
        fault = .fragmentCycle name ∧ document.Reaches name name) := by
    intro fault h
    obtain ⟨name, hreached, htells⟩ := tells_of_expansion [] selections fault (houtcome ▸ h)
    exact ⟨name, hreached, htells.imp_right (And.imp_right (Or.resolve_left · List.not_mem_nil))⟩
  have hgood : (∀ name, document.ReachedFrom selections name →
      (document.fragment? name).isSome ∧ ¬document.Reaches name name) →
        ∃ written, outcome = .ok written := by
    intro hreached
    cases hcase : outcome with
    | ok written => exact ⟨written, rfl⟩
    | error fault =>
      obtain ⟨name, hname, ⟨_, hundefined⟩ | ⟨_, hcycle⟩⟩ := hfault fault hcase
      · have hdefined := (hreached name hname).1
        rw [hundefined] at hdefined
        cases hdefined
      · exact absurd hcycle (hreached name hname).2
  refine ⟨houtcome, ⟨?_, hgood⟩, fun written => ⟨hwritten written, fun h => ?_⟩,
    fun written h => (hwritten written h).spreadsIn_eq_nil, hfault⟩
  · rintro ⟨written, h⟩ name hname
    exact (hwritten written h).reached hname
  · obtain ⟨others, hothers⟩ := hgood fun name hname => h.reached hname
    rw [hothers, (hwritten others hothers).unique h]

end Document

end TypedQuery
