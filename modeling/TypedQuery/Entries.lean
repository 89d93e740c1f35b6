/-!
# Named entries

Lists of named values in the order in which the names first appeared. Inserting
under a name that is already present replaces the value and keeps the place.
-/

namespace TypedQuery

/-- Named values in the order of first appearance. -/
abbrev Entries (α : Type) := List (String × α)

namespace Entries

variable {α : Type}

/-- The value under a name. -/
def find? (entries : Entries α) (name : String) : Option α :=
  entries.lookup name

/-- Whether a name is present. -/
def contains (entries : Entries α) (name : String) : Bool :=
  (find? entries name).isSome

/-- Puts a value under a name, in the place of the old value if there is one and
at the end otherwise. -/
def insert (entries : Entries α) (name : String) (value : α) : Entries α :=
  match entries with
  | [] => [(name, value)]
  | entry :: rest =>
    if entry.1 = name then (name, value) :: rest else entry :: insert rest name value

/-- Inserts entries one after another. -/
def extend (entries : Entries α) (more : List (String × α)) : Entries α :=
  more.foldl (fun result entry => insert result entry.1 entry.2) entries

/-- The entries of a list, a repeated name keeping its first place and its last
value. -/
def ofList (pairs : List (String × α)) : Entries α :=
  extend [] pairs

/-- Removes the entry under a name. -/
def erase (entries : Entries α) (name : String) : Entries α :=
  entries.filter fun entry => entry.1 ≠ name

/-- The names in their order. -/
def names (entries : Entries α) : List String :=
  entries.map Prod.fst

/-- The values in their order. -/
def values (entries : Entries α) : List α :=
  entries.map Prod.snd

variable {entries more : Entries α} {name : String} {value : α} {entry : String × α}

/-- What an insertion holds is the new entry or was there before. -/
theorem mem_of_mem_insert (h : entry ∈ insert entries name value) :
    entry = (name, value) ∨ entry ∈ entries := by
  induction entries with
  | nil => exact Or.inl (List.mem_singleton.mp h)
  | cons first rest ih =>
    rw [insert] at h
    split at h
    · rcases List.mem_cons.mp h with h | h
      · exact Or.inl h
      · exact Or.inr (List.mem_cons_of_mem _ h)
    · rcases List.mem_cons.mp h with h | h
      · exact Or.inr (h ▸ List.mem_cons_self)
      · exact (ih h).imp_right (List.mem_cons_of_mem _)

/-- The first of further entries is inserted first. -/
theorem extend_cons : extend entries (entry :: more) =
    extend (insert entries entry.1 entry.2) more :=
  rfl

/-- What further insertions hold is one of the new entries or was there before. -/
theorem mem_of_mem_extend (h : entry ∈ extend entries more) : entry ∈ entries ∨ entry ∈ more := by
  induction more generalizing entries with
  | nil => exact Or.inl h
  | cons first rest ih =>
    rw [extend_cons] at h
    rcases ih h with h | h
    · rcases mem_of_mem_insert h with h | h
      · exact Or.inr (h ▸ List.mem_cons_self)
      · exact Or.inl h
    · exact Or.inr (List.mem_cons_of_mem _ h)

/-- The entries of a list are among its pairs. -/
theorem mem_of_mem_ofList {pairs : List (String × α)} (h : entry ∈ ofList pairs) : entry ∈ pairs :=
  (mem_of_mem_extend h).resolve_left List.not_mem_nil

end Entries

end TypedQuery
