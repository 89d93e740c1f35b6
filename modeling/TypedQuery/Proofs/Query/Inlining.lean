import TypedQuery.Proofs.Document.Equality
import TypedQuery.Proofs.Document.Fragments
import TypedQuery.Proofs.Query.Positions
import TypedQuery.Proofs.Query.Reading

/-!
# Spreads and the selections in their places

A spread at the top of an operation stands for the selections of its fragment, and a document in
which these are written in its place runs alike, if they can be written out themselves. If one of
them cannot, all of them are lost to it: the spread is then worth one field that is called like the
fragment and selects nothing but the first of them that cannot be written out.
-/

namespace TypedQuery

open Halting

/-- The outcome of a part of a mutation document. -/
def Part.outcome (scope : Scope) : Part → Outcome
  | .field selection => selection.outcome scope
  | .failed name fault => .failed ⟨fault, [name]⟩

namespace Document

/-- The fragments in a selection, and those that they reach, can be written out. -/
def Expands (document : Document) (selection : Selection) : Prop :=
  ∃ fields, document.expand selection = .ok fields

variable {document : Document} {operation : Operation} {fragment : Fragment} {name : String}
  {position : Position} {failing : Selection} {selections written others : List Selection}

/-- The outcomes of a mutation document are those of its parts. -/
theorem outcomes_eq (scope : Scope) (selections : List Selection) :
    document.outcomes scope selections =
      (document.parts selections).map fun part => (part.name, part.outcome scope) := by
  unfold outcomes parts
  rw [List.map_flatMap]
  congr 1
  funext selection
  cases document.expand selection with
  | error fault => rfl
  | ok expanded =>
    dsimp only
    rw [List.map_map]
    rfl

/-- Selections are written out if each can be. -/
theorem expandSelections_of_expands
    (h : ∀ selection ∈ selections, document.Expands selection) :
    ∃ fields, expandSelections (document.fragmentSelections (document.fragments.length + 1) [])
      selections = .ok fields := by
  induction selections with
  | nil => exact ⟨[], rfl⟩
  | cons selection rest ih =>
    rw [List.forall_mem_cons] at h
    obtain ⟨⟨first, hfirst⟩, hrest⟩ := h
    obtain ⟨others, hothers⟩ := ih hrest
    unfold expand at hfirst
    refine ⟨first ++ others, ?_⟩
    unfold expandSelections
    rw [hfirst, hothers]
    rfl

/-- Selections fail to be written out because of the first one that cannot be. -/
theorem expandSelections_of_fails {fault : CompileFault}
    (hwritten : ∀ selection ∈ written, document.Expands selection)
    (hfails : document.expand failing = .error fault) :
    expandSelections (document.fragmentSelections (document.fragments.length + 1) [])
      (written ++ failing :: others) = .error fault := by
  induction written with
  | nil =>
    unfold expand at hfails
    rw [List.nil_append, expandSelections, hfails]
    rfl
  | cons selection rest ih =>
    rw [List.forall_mem_cons] at hwritten
    obtain ⟨⟨first, hfirst⟩, hrest⟩ := hwritten
    unfold expand at hfirst
    rw [List.cons_append, expandSelections, hfirst, ih hrest]
    rfl

/-- A spread is the same parts of an operation as the selections of its fragment, if these can be
written out. -/
theorem parts_spread (hfragment : document.fragment? name = some fragment)
    (hreaches : ¬document.Reaches name name)
    (hexpands : ∀ selection ∈ fragment.selections, document.Expands selection) :
    document.parts [.spread name position] = document.parts fragment.selections := by
  obtain ⟨fields, hfields⟩ := expandSelections_of_expands hexpands
  have hspread := document.expand_spread position hfragment hreaches
  rw [hfields] at hspread
  rw [parts_of_expandSelections hfields]
  unfold parts
  rw [List.flatMap_singleton, hspread]

/-- If one of the selections of a fragment cannot be written out, a spread is a part that fails. -/
theorem parts_spread_of_fails (hfragment : document.fragment? name = some fragment)
    (hreaches : ¬document.Reaches name name)
    (hselections : fragment.selections = written ++ failing :: others)
    (hwritten : ∀ selection ∈ written, document.Expands selection)
    (hfails : ¬document.Expands failing) :
    document.parts [.spread name position] =
      document.parts [.field name none [] [failing] position] := by
  cases hexpand : document.expand failing with
  | ok fields => exact absurd ⟨fields, hexpand⟩ hfails
  | error fault =>
    have hspread := document.expand_spread position hfragment hreaches
    rw [hselections, expandSelections_of_fails hwritten hexpand] at hspread
    have hfield : document.expand (.field name none [] [failing] position) = .error fault := by
      unfold expand Selection.expand
      rw [← List.nil_append [failing], expandSelections_of_fails (List.forall_mem_nil _) hexpand]
      rfl
    unfold parts
    rw [List.flatMap_singleton, List.flatMap_singleton, hspread, hfield]
    rfl

/-- A document is the same as its operation that is meant with its fragments. -/
theorem sameFor_selecting {name? : Option String}
    (hoperation : document.operation name? = .ok operation) :
    document.SameFor name? (document.selecting operation operation.selections) := by
  refine ⟨?_, rfl⟩
  rw [selecting_operation operation.selections hoperation, hoperation]

end Document

namespace Host

variable {host : Host} {services : Services} {request : Request} {document : Document}
  {operation : Operation} {first second before between after : List Selection}

/-- Operations with the same parts run alike. -/
theorem runDocument_of_parts (hoperation : document.operation request.operation? = .ok operation)
    (hparts : document.parts first = document.parts second) :
    host.runDocument services (document.selecting operation first) request =
      host.runDocument services (document.selecting operation second) request := by
  have hselections : ∀ (scope : Scope) (kind : OperationKind),
      compileSelections document scope .parameter request.claims kind first [] =
        compileSelections document scope .parameter request.claims kind second [] := by
    intro scope kind
    cases kind with
    | query => rw [compileSelections_eq, compileSelections_eq, hparts]
    | mutation =>
      rw [compileSelections_mutation, compileSelections_mutation, Document.outcomes_eq,
        Document.outcomes_eq, hparts]
  have hdocument : ∀ selections, compileSelections (document.selecting operation selections) =
      compileSelections document := fun selections => compileSelections_congr rfl
  have hcompile : host.compileOperation (document.selecting operation first) request =
      host.compileOperation (document.selecting operation second) request := by
    unfold Host.compileOperation
    rw [Document.selecting_operation first hoperation,
      Document.selecting_operation second hoperation, hdocument, hdocument]
    simp only [Halting.ofExcept, pure_bind, hselections]
  unfold Host.runDocument
  rw [hcompile]

/-- A document runs like every other one in which selections at the top have given way to the same
parts. -/
theorem run_of_parts {source text : String} {other : Document}
    (hread : Document.read source = .ok document)
    (hoperation : document.operation request.operation? = .ok operation)
    (hselections : operation.selections = before ++ first ++ after)
    (hparts : document.parts first = document.parts between)
    (htext : Document.read text = .ok other)
    (hother : other.SameFor request.operation?
      (document.selecting operation (before ++ between ++ after))) :
    host.run services text request = host.run services source request := by
  rw [run_of_read hread, run_of_read htext, runDocument_of_sameFor hother,
    runDocument_of_sameFor (Document.sameFor_selecting hoperation), hselections]
  refine runDocument_of_parts hoperation ?_
  simp only [Document.parts_append, hparts]

/-- What a spread at the top stands for, if its fragment does not reach itself. If each selection of
the fragment can be written out, every document with these selections in the place of the spread
runs alike: it gives the same envelope, and leaves the same store and record types. If not, this
holds of every document with one field in the place of the spread, which is called like the fragment
and selects only the first selection of the fragment that cannot be written out. So the selections
before and after that one are not shown, and its error has the name of the fragment for its path. -/
theorem run_spread_in_place (host : Host) (services : Services) {source : String}
    (request : Request) {fragment : Fragment} {name : String} {position : Position}
    (hread : Document.read source = .ok document)
    (hoperation : document.operation request.operation? = .ok operation)
    (hselections : operation.selections = before ++ .spread name position :: after)
    (hfragment : document.fragment? name = some fragment)
    (hreaches : ¬document.Reaches name name) :
    let inPlace between := document.selecting operation (before ++ between ++ after)
    ((∀ selection ∈ fragment.selections, document.Expands selection) →
      ∀ text other, Document.read text = .ok other →
        other.SameFor request.operation? (inPlace fragment.selections) →
        host.run services text request = host.run services source request) ∧
    ∀ written failing others, fragment.selections = written ++ failing :: others →
      (∀ selection ∈ written, document.Expands selection) → ¬document.Expands failing →
      ∀ text other, Document.read text = .ok other →
        other.SameFor request.operation? (inPlace [.field name none [] [failing] position]) →
        host.run services text request = host.run services source request := by
  intro inPlace
  rw [← List.singleton_append, ← List.append_assoc] at hselections
  refine ⟨fun hexpands text other htext hother => ?_,
    fun written failing others hsplit hwritten hfails text other htext hother => ?_⟩
  · exact run_of_parts hread hoperation hselections
      (Document.parts_spread hfragment hreaches hexpands) htext hother
  · exact run_of_parts hread hoperation hselections
      (Document.parts_spread_of_fails hfragment hreaches hsplit hwritten hfails) htext hother

end Host

/-- A text for `tallyHost` with a fragment that can be written out and one that cannot. -/
def cardSource (top : String) : String :=
  "\x7b" ++ top ++ "\x7dfragment id on Query\x7bname\x7d" ++
    "fragment card on Query\x7bage years:age\x7b...x\x7d\x7d"

/-- What is read of such a text, where `top` has a length. -/
def cardDocument (length : Nat) (top : List Selection) : Document :=
  let place (offset : Nat) : Position := ⟨1, length + offset + 1, length + offset⟩
  ⟨[⟨.query, none, [], top⟩],
    [⟨"id", "Query", [.field "name" none [] [] (place 23)]⟩,
      ⟨"card", "Query", [.field "age" none [] [] (place 51),
        .field "age" (some "years") [] [.spread "x" (place 65)] (place 55)]⟩]⟩

/-- Nothing is spread in the fragments of such a document but an unknown fragment. -/
theorem eq_of_cardDocument_reaches {length : Nat} {top : List Selection} {name other : String}
    (hreaches : (cardDocument length top).Reaches name other) : name = "card" ∧ other = "x" := by
  have hspreads : ∀ {name other fragment}, (cardDocument length top).fragment? name =
      some fragment → other ∈ spreadsIn fragment.selections → name = "card" ∧ other = "x" := by
    intro name other fragment hfragment hspread
    obtain rfl : fragment.name = name := by simpa using List.find?_some hfragment
    rcases List.mem_cons.mp (List.mem_of_find?_eq_some hfragment) with rfl | hmem
    · cases hspread
    · obtain rfl := List.mem_singleton.mp hmem
      exact ⟨rfl, List.mem_singleton.mp hspread⟩
  induction hreaches with
  | spread hfragment hspread => exact hspreads hfragment hspread
  | through hfragment hspread _ ih => exact ⟨(hspreads hfragment hspread).1, ih.2⟩

/-- The name is shown as if it were selected in the place of the fragment. The age is lost with the
spread, and shown where it is selected in its place. -/
theorem Host.run_spread_in_place_card :
    let run top := tallyHost.run [] (cardSource top) .empty
    run "name ...card" = run "...id ...card" ∧
      run "...id card\x7byears:age\x7b...x\x7d\x7d" = run "...id ...card" ∧
      ((run "...id ...card").answer? newborn).map Json.compact =
        some ("\x7b\"data\":\x7b\"name\":\"Ann\",\"card\":null\x7d,\"errors\":[\x7b\"message\":" ++
          "\"Fragment 'x' is not defined\",\"path\":[\"card\"]\x7d]\x7d") ∧
      ((run "...id age years:age\x7b...x\x7d").answer? newborn).map Json.compact =
        some ("\x7b\"data\":\x7b\"name\":\"Ann\",\"age\":0,\"years\":null\x7d,\"errors\":[\x7b" ++
          "\"message\":\"Fragment 'x' is not defined\",\"path\":[\"years\"]\x7d]\x7d") := by
  intro run
  let id : Selection := .spread "id" ⟨1, 2, 1⟩
  let card : Selection := .spread "card" ⟨1, 8, 7⟩
  let document := cardDocument 13 [id, card]
  have hread : Document.read (cardSource "...id ...card") = .ok document := by
    decide +kernel
  have hname : Document.read (cardSource "name ...card") =
      .ok (cardDocument 12 [.field "name" none [] [] ⟨1, 2, 1⟩, .spread "card" ⟨1, 7, 6⟩]) := by
    decide +kernel
  have hcard : Document.read (cardSource "...id card\x7byears:age\x7b...x\x7d\x7d") =
      .ok (cardDocument 27 [id, .field "card" none []
        [.field "age" (some "years") [] [.spread "x" ⟨1, 23, 22⟩] ⟨1, 13, 12⟩] ⟨1, 8, 7⟩]) := by
    decide +kernel
  have hleaf : ¬document.Reaches "id" "id" :=
    fun hreaches => absurd (eq_of_cardDocument_reaches hreaches).1 (by decide)
  have hself : ¬document.Reaches "card" "card" :=
    fun hreaches => absurd (eq_of_cardDocument_reaches hreaches).2 (by decide)
  refine ⟨?_, ?_, by decide +kernel, by decide +kernel⟩
  · have hspread := (tallyHost.run_spread_in_place [] .empty hread rfl
      (show [id, card] = [] ++ id :: [card] from rfl) rfl hleaf).1
    exact hspread (List.forall_mem_singleton.mpr ⟨_, rfl⟩) _ _ hname ⟨rfl, rfl⟩
  · have hspread := (tallyHost.run_spread_in_place [] .empty hread rfl
      (show [id, card] = [id] ++ card :: [] from rfl) rfl hself).2
    exact hspread _ _ [] (show _ = [_] ++ _ :: [] from rfl)
      (List.forall_mem_singleton.mpr ⟨_, rfl⟩) (fun ⟨_, h⟩ => nomatch h) _ _ hcard ⟨rfl, rfl⟩

end TypedQuery
