import TypedQuery.Document.Expansion
import TypedQuery.Proofs.Computation
import TypedQuery.Proofs.Entries

/-!
# Fragments in the place of their spreads

What it means to write fragments out, with no bound on how many are entered: each spread gives way
to the selections of the first fragment of its name, with the fragments in these written out in
turn. What selections expand to is what they are then, and nothing else is.
-/

namespace TypedQuery

/-- What selections are with each fragment written out in the place of its spreads. -/
inductive Document.WritesOut (document : Document) : List Selection → List Selection → Prop
  | nil : WritesOut document [] []
  | field {name : String} {alias? : Option String} {arguments : List (String × Argument)}
      {position : Position} {selections inner rest others : List Selection}
      (hinner : WritesOut document selections inner) (hrest : WritesOut document rest others) :
      WritesOut document (.field name alias? arguments selections position :: rest)
        (.field name alias? arguments inner position :: others)
  | spread {name : String} {position : Position} {fragment : Fragment}
      {inner rest others : List Selection} (hfragment : document.fragment? name = some fragment)
      (hinner : WritesOut document fragment.selections inner)
      (hrest : WritesOut document rest others) :
      WritesOut document (.spread name position :: rest) (inner ++ others)

namespace Document

variable {document : Document} {selections written others : List Selection}

/-- Selections are written out in one way only. -/
theorem WritesOut.unique (h : document.WritesOut selections written)
    (hothers : document.WritesOut selections others) : written = others := by
  induction h generalizing others with
  | nil =>
    cases hothers
    rfl
  | field _ _ ihinner ihrest =>
    cases hothers with
    | field hinner hrest => rw [ihinner hinner, ihrest hrest]
  | spread hfragment _ _ ihinner ihrest =>
    cases hothers with
    | spread hfragment' hinner hrest =>
      cases hfragment.symm.trans hfragment'
      rw [ihinner hinner, ihrest hrest]

section Expansion

variable {fragment : String → Except CompileFault (List Selection)}

mutual

/-- A selection expands to what it is written out as. -/
theorem expand_writesOut
    (hfragment : ∀ name, Returns (fragment name) fun expanded =>
      ∃ found, document.fragment? name = some found ∧
        document.WritesOut found.selections expanded) :
    (selection : Selection) → Returns (selection.expand fragment) fun expanded =>
      ∀ rest others, document.WritesOut rest others →
        document.WritesOut (selection :: rest) (expanded ++ others)
  | .spread name _ => (hfragment name).mono fun _ ⟨_, hfound, hinner⟩ _ _ hrest =>
      .spread hfound hinner hrest
  | .field _ _ _ selections _ => by
    unfold Selection.expand
    exact .bind (expandSelections_writesOut hfragment selections) fun inner hinner =>
      .ok fun _ _ hrest => .field hinner hrest

/-- Selections expand to what they are written out as. -/
theorem expandSelections_writesOut
    (hfragment : ∀ name, Returns (fragment name) fun expanded =>
      ∃ found, document.fragment? name = some found ∧
        document.WritesOut found.selections expanded) :
    (selections : List Selection) → Returns (expandSelections fragment selections)
      fun expanded => document.WritesOut selections expanded
  | [] => .ok .nil
  | selection :: rest => by
    unfold expandSelections
    exact .bind (expand_writesOut hfragment selection) fun first hfirst =>
      .bind (expandSelections_writesOut hfragment rest) fun others hothers =>
        .ok (hfirst rest others hothers)

end

end Expansion

/-- What a fragment stands for is what its selections are written out as. -/
theorem fragmentSelections_writesOut (fuel : Nat) (active : List String) (name : String) :
    Returns (document.fragmentSelections fuel active name) fun expanded =>
      ∃ found, document.fragment? name = some found ∧
        document.WritesOut found.selections expanded := by
  induction fuel generalizing active name with
  | zero => exact .error _
  | succ fuel ih =>
    unfold fragmentSelections
    split
    · exact .error _
    · split
      · exact .error _
      · rename_i found hfound
        exact (expandSelections_writesOut (ih _) found.selections).mono
          fun expanded hexpanded => ⟨found, hfound, hexpanded⟩

end Document

/-! ### Selections without arguments -/

mutual

/-- No field of a selection has arguments, at any depth. -/
def Selection.argumentless : Selection → Bool
  | .field _ _ arguments selections _ => arguments.isEmpty && areArgumentless selections
  | .spread _ _ => true

/-- No field of the selections has arguments. -/
def areArgumentless : List Selection → Bool
  | [] => true
  | selection :: rest => selection.argumentless && areArgumentless rest

end

/-- No field that an operation selects has arguments, nor has any in a fragment. -/
def Document.withoutArguments (document : Document) (operation : Operation) : Bool :=
  areArgumentless operation.selections &&
    document.fragments.all fun fragment => areArgumentless fragment.selections

/-- Selections are without arguments if each is. -/
theorem areArgumentless_iff {selections : List Selection} :
    areArgumentless selections = true ↔
      ∀ selection ∈ selections, selection.argumentless = true := by
  induction selections with
  | nil => exact ⟨fun _ => nofun, fun _ => rfl⟩
  | cons selection rest ih =>
    unfold areArgumentless
    rw [Bool.and_eq_true, ih, List.forall_mem_cons]

/-- Writing fragments without arguments out brings no arguments in. -/
theorem Document.WritesOut.areArgumentless {document : Document}
    {selections written : List Selection} (h : document.WritesOut selections written)
    (hfragments : ∀ fragment ∈ document.fragments,
      TypedQuery.areArgumentless fragment.selections = true)
    (hselections : TypedQuery.areArgumentless selections = true) :
    TypedQuery.areArgumentless written = true := by
  induction h with
  | nil => rfl
  | field _ _ ihinner ihrest =>
    unfold TypedQuery.areArgumentless Selection.argumentless at hselections ⊢
    simp only [Bool.and_eq_true] at hselections ⊢
    exact ⟨⟨hselections.1.1, ihinner hselections.1.2⟩, ihrest hselections.2⟩
  | spread hfragment _ _ ihinner ihrest =>
    unfold TypedQuery.areArgumentless at hselections
    have hinner := ihinner (hfragments _ (List.mem_of_find?_eq_some hfragment))
    have hrest := ihrest (Bool.and_eq_true_iff.mp hselections).2
    rw [areArgumentless_iff] at hinner hrest ⊢
    exact List.forall_mem_append.mpr ⟨hinner, hrest⟩

/-!
### Fragments that do not reach themselves

A fragment is expanded inside of others, which it may not spread, and with a bound on how many may
be entered. Neither matters to a fragment that does not reach what it is expanded in: the bound is
never met, and a spread of a fragment that does not reach itself stands for its selections as they
are expanded at the top.
-/

mutual

/-- The fragments that are spread in a selection, at any depth. -/
def Selection.spreads : Selection → List String
  | .field _ _ _ selections _ => spreadsIn selections
  | .spread name _ => [name]

/-- The fragments that are spread in selections, at any depth. -/
def spreadsIn : List Selection → List String
  | [] => []
  | selection :: rest => selection.spreads ++ spreadsIn rest

end

namespace Document

/-- A fragment is spread in another one, or in one that is spread there, and so on. -/
inductive Reaches (document : Document) : String → String → Prop
  | spread {name other : String} {fragment : Fragment}
      (hfragment : document.fragment? name = some fragment)
      (hspread : other ∈ spreadsIn fragment.selections) : Reaches document name other
  | through {name between other : String} {fragment : Fragment}
      (hfragment : document.fragment? name = some fragment)
      (hspread : between ∈ spreadsIn fragment.selections)
      (hreaches : Reaches document between other) : Reaches document name other

/-- The number of fragments that can be entered inside of others. -/
def unentered (document : Document) (active : List String) : Nat :=
  (document.fragments.filter fun fragment => fragment.name ∉ active).length

end Document

section Expansion

variable {first second : String → Except CompileFault (List Selection)}

mutual

/-- What a selection stands for depends on the fragments that are spread in it. -/
theorem Selection.expand_congr :
    (selection : Selection) → (∀ name ∈ selection.spreads, first name = second name) →
      selection.expand first = selection.expand second
  | .spread name _, h => h name (List.mem_singleton_self name)
  | .field _ _ _ selections _, h => by
    unfold Selection.expand
    rw [expandSelections_congr selections h]

/-- Writing out selections depends on the fragments that are spread in them. -/
theorem expandSelections_congr :
    (selections : List Selection) → (∀ name ∈ spreadsIn selections, first name = second name) →
      expandSelections first selections = expandSelections second selections
  | [], _ => rfl
  | selection :: rest, h => by
    unfold spreadsIn at h
    rw [List.forall_mem_append] at h
    unfold expandSelections
    rw [selection.expand_congr h.1, expandSelections_congr rest h.2]

end

end Expansion

namespace Document

variable {document : Document} {fragment : Fragment} {name : String}

/-- At the start all fragments can be entered. -/
theorem unentered_nil : document.unentered [] = document.fragments.length := by
  unfold unentered
  rw [List.filter_eq_self.mpr fun _ _ => decide_eq_true List.not_mem_nil]

/-- Inside of one more fragment, fewer fragments can be entered. -/
theorem unentered_cons_lt {active : List String}
    (hfragment : document.fragment? name = some fragment) (hactive : name ∉ active) :
    document.unentered (name :: active) < document.unentered active := by
  have hname : fragment.name = name := by simpa using List.find?_some hfragment
  subst hname
  exact length_filter_notMem_cons_lt Fragment.name (List.mem_of_find?_eq_some hfragment) hactive

/-- The bound is not met where it is greater than the number of fragments that can be entered. -/
theorem fragmentSelections_succ {fuel : Nat} {active : List String}
    (hfuel : document.unentered active < fuel) :
    document.fragmentSelections (fuel + 1) active = document.fragmentSelections fuel active := by
  induction fuel generalizing active with
  | zero => exact absurd hfuel (Nat.not_lt_zero _)
  | succ fuel ih =>
    funext name
    conv =>
      lhs
      unfold fragmentSelections
    conv =>
      rhs
      unfold fragmentSelections
    split
    · rfl
    · rename_i hactive
      cases hfragment : document.fragment? name with
      | none => rfl
      | some fragment =>
        have hless := unentered_cons_lt hfragment hactive
        dsimp only
        rw [ih (by omega)]

/-- A fragment that does not reach another one stands for the same inside of it. -/
theorem fragmentSelections_of_not_reaches {other : String} (fuel : Nat) (active : List String)
    (hname : name ≠ other) (hreaches : ¬document.Reaches name other) :
    document.fragmentSelections fuel (active ++ [other]) name =
      document.fragmentSelections fuel active name := by
  induction fuel generalizing active name with
  | zero => rfl
  | succ fuel ih =>
    have hmem : name ∈ active ++ [other] ↔ name ∈ active := by
      rw [List.mem_append, List.mem_singleton, or_iff_left hname]
    unfold fragmentSelections
    simp only [hmem]
    cases hfragment : document.fragment? name with
    | none => rfl
    | some fragment =>
      dsimp only
      congr 1
      refine expandSelections_congr fragment.selections fun inner hspread => ?_
      refine ih (name :: active) ?_ fun hinner => hreaches (.through hfragment hspread hinner)
      rintro rfl
      exact hreaches (.spread hfragment hspread)

/-- A spread of a fragment that does not reach itself stands for the selections of the fragment. -/
theorem expand_spread (position : Position) (hfragment : document.fragment? name = some fragment)
    (hreaches : ¬document.Reaches name name) :
    document.expand (.spread name position) =
      expandSelections (document.fragmentSelections (document.fragments.length + 1) [])
        fragment.selections := by
  have hless := unentered_cons_lt hfragment List.not_mem_nil
  rw [unentered_nil] at hless
  unfold expand Selection.expand
  conv =>
    lhs
    unfold fragmentSelections
  rw [if_neg List.not_mem_nil, hfragment]
  dsimp only
  rw [← fragmentSelections_succ hless]
  refine expandSelections_congr fragment.selections fun inner hspread => ?_
  refine fragmentSelections_of_not_reaches _ [] ?_ fun hinner =>
    hreaches (.through hfragment hspread hinner)
  rintro rfl
  exact hreaches (.spread hfragment hspread)

end Document

end TypedQuery
