import TypedQuery.Entries
import TypedQuery.Ty.Basic

/-!
# Numbers of record types

A register keeps record types under their signatures and counts the numbers that it has
given. Who asks for a record type gets the one that is kept, or else a new one with the next
number. Texts refer to a record type by its number.
-/

namespace TypedQuery

/-- A record type as it is handed out: its number and its fields. -/
structure RecordType where
  id : Nat
  fields : Signature

namespace RecordType

/-- How texts refer to a record type. -/
def name (type : RecordType) : String :=
  "Record" ++ toString type.id

/-- Types are compared by their fields, whatever their numbers are. -/
instance : Coe RecordType Signature := ⟨fields⟩

end RecordType

/-- Record types under their signatures, and the number of the next one. The register of the
process is shared: arguments of mutations have their record types in it, and so have documents
that have no register of their own. -/
structure Register where
  types : List (Signature × RecordType)
  nextId : Nat
  shared : Bool
  keyed : ∀ entry ∈ types, entry.2.fields = entry.1

namespace Register

/-- A register without record types. -/
def fresh (shared : Bool) : Register := ⟨[], 0, shared, nofun⟩

/-- A register for documents alone. -/
def empty : Register := fresh false

/-- The register of the process, before any record type. -/
def process : Register := fresh true

instance : Inhabited Register := ⟨empty⟩

/-- The number of record types. -/
def size (register : Register) : Nat :=
  register.types.length

/-- The record type that is kept under a signature. -/
def find? (register : Register) (signature : Signature) : Option RecordType :=
  register.types.lookup signature

/-- The number of a record type. -/
def number? (register : Register) (signature : Signature) : Option Nat :=
  (register.find? signature).map RecordType.id

/-- Gives a signature the next number. -/
def issue (register : Register) (signature : Signature) : RecordType × Register :=
  let type := ⟨register.nextId, signature⟩
  (type, { register with
    types := register.types ++ [(signature, type)]
    nextId := register.nextId + 1
    keyed := List.forall_mem_append.mpr ⟨register.keyed, List.forall_mem_singleton.mpr rfl⟩ })

/-- The record type of a list of fields, and the register with it. A repeated name
keeps its first place and takes its last type. -/
def create (register : Register) (fields : List (String × Ty)) : RecordType × Register :=
  let signature := Entries.ofList fields
  match register.find? signature with
  | some type => (type, register)
  | none => register.issue signature

/-- How texts refer to the record type with a signature. One that is not in the register has
the name that it would get. -/
def nameOf (register : Register) (signature : Signature) : String :=
  ((register.find? signature).getD (register.issue signature).1).name

/-- What is kept under a signature has its fields. -/
theorem fields_of_find? {register : Register} {signature : Signature} {type : RecordType}
    (h : register.find? signature = some type) : type.fields = signature := by
  obtain ⟨_, _, htypes, -⟩ := List.lookup_eq_some_iff.mp h
  exact register.keyed (signature, type) (by simp [htypes])

/-- The record type that is handed out has the fields that were asked for. -/
theorem fields_create (register : Register) (fields : List (String × Ty)) :
    (register.create fields).1.fields = Entries.ofList fields := by
  unfold create
  dsimp only
  split
  · rename_i hfound
    exact fields_of_find? hfound
  · rfl

end Register

/-- The text of a type. -/
def Ty.text (register : Register) : Ty → String
  | any => "Any"
  | null => "Null"
  | boolean => "Boolean"
  | int kind => kind.name
  | float => "Float"
  | decimal => "Decimal"
  | string => "String"
  | guid => "Guid"
  | dateTime => "DateTime"
  | enum name => name
  | object name => name
  | record fields => register.nameOf fields
  | list element => "[" ++ element.text register ++ "]"
  | nullable inner => inner.text register ++ "?"

end TypedQuery
