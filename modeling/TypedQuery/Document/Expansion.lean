import TypedQuery.Compile.Fault
import TypedQuery.Document.Basic

/-!
# Fragments in place

The selections of a document with every fragment written out where it is spread. A
fragment may not reach itself.
-/

namespace TypedQuery

/-- What a field is called in the result: its alias, or else its name. -/
def Selection.responseName : Selection → String
  | .field name alias? _ _ _ => alias?.getD name
  | .spread fragment _ => fragment

mutual

/-- The selections that a selection stands for, where `fragment` gives those of a
fragment. -/
def Selection.expand (fragment : String → Except CompileFault (List Selection)) :
    Selection → Except CompileFault (List Selection)
  | .field name alias? arguments selections position => do
    let inner ← expandSelections fragment selections
    return [.field name alias? arguments inner position]
  | .spread name _ => fragment name

/-- The selections that a list of selections stands for. -/
def expandSelections (fragment : String → Except CompileFault (List Selection)) :
    List Selection → Except CompileFault (List Selection)
  | [] => .ok []
  | selection :: rest => do
    let first ← selection.expand fragment
    let others ← expandSelections fragment rest
    return first ++ others

end

namespace Document

/-- The expanded selections of a fragment that is spread inside the `active` ones.
`fuel` bounds how many fragments may be entered; each is entered at most once. -/
def fragmentSelections (document : Document) :
    (fuel : Nat) → (active : List String) → String → Except CompileFault (List Selection)
  | 0, _, name => .error (.fragmentCycle name)
  | fuel + 1, active, name =>
    if name ∈ active then .error (.fragmentCycle name)
    else
      match document.fragment? name with
      | none => .error (.unknownFragment name)
      | some fragment =>
        expandSelections (fragmentSelections document fuel (name :: active)) fragment.selections

/-- The selections that a selection stands for. -/
def expand (document : Document) (selection : Selection) : Except CompileFault (List Selection) :=
  selection.expand (document.fragmentSelections (document.fragments.length + 1) [])

end Document

end TypedQuery
