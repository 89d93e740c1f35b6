import TypedQuery.Json.ToValue
import TypedQuery.Schema.Basic

/-!
# Schemas from samples

A JSON sample gives a schema and the value of the sample at that schema. The root
becomes the type `Query`, and nested objects get the names of the members that hold
them.
-/

namespace TypedQuery

/-- The object types found so far with the types of their fields. -/
abbrev Sketch := Entries (Entries Ty)

namespace Sketch

/-- The fields of a type. -/
def fields (sketch : Sketch) (type : String) : Entries Ty :=
  (Entries.find? sketch type).getD []

/-- Makes sure that a type is there. -/
def declare (sketch : Sketch) (type : String) : Sketch :=
  Entries.insert sketch type (fields sketch type)

end Sketch

namespace Ty

/-- The type of values of either type: decimals for integers and decimals, and the
dynamic type where nothing closer fits. The dynamic type gives way to any other. -/
def unify : Ty → Ty → Ty
  | any, other => other
  | other, any => other
  | int a, int b => if a = b then int a else any
  | int _, decimal => decimal
  | decimal, int _ => decimal
  | list a, list b => list (unify a b)
  | a, b => if a = b then a else any

end Ty

namespace Sketch

/-- Adds a field to a type as the last one. A field that is there already is unified
and moves to the end. -/
def addField (sketch : Sketch) (type field : String) (ty : Ty) : Sketch :=
  let old := fields sketch type
  let merged := match Entries.find? old field with
    | some previous => previous.unify ty
    | none => ty
  Entries.insert sketch type (Entries.erase old field ++ [(field, merged)])

end Sketch

/-- The name of the type of objects under a member. -/
def typeNameOf (member : String) : String :=
  match (Text.camelCase member).toList with
  | [] => "Anonymous"
  | c :: rest => String.ofList (Text.capital c ++ rest)

/-- The type and the value of a number. Other numbers than integers are decimals where
they fit. -/
def Json.Number.infer : Json.Number → Ty × Value
  | .natural n =>
    if n.toNat < powerOfTwo 63 then (.int .i64, .ofUInt64 n) else (.int .u64, .uint n)
  | .negative n => (.int .i64, .int n)
  | .float x =>
    match (Json.Number.decimal? x).or (Decimal.ofFloat? x) with
    | some d => (.decimal, .decimal d)
    | none => (.float, .float x)

namespace Json

mutual

/-- The type and the value of a JSON value, where objects have the given type name. -/
def infer (type : String) : Json → StateM Sketch (Ty × Value)
  | null => return (.any, .null)
  | bool b => return (.boolean, .boolean b)
  | number n => return n.infer
  | string s => return (.string, .text s)
  | array items => do
    let (element?, values) ← inferItems type none items
    return (.list (element?.getD .any), .list values)
  | object members => do
    let values ← inferMembers type members
    modify fun sketch => sketch.declare type
    return (.object type, .object type (Entries.ofList values))

/-- The common type of items and their values. -/
def inferItems (type : String) (element? : Option Ty) :
    List Json → StateM Sketch (Option Ty × List Value)
  | [] => return (element?, [])
  | item :: rest => do
    let (ty, value) ← infer type item
    let element := match element? with
      | some previous => previous.unify ty
      | none => ty
    let (element?, values) ← inferItems type (some element) rest
    return (element?, value :: values)

/-- The values of the members of an object. Their types are noted. -/
def inferMembers (type : String) :
    List (String × Json) → StateM Sketch (List (String × Value))
  | [] => return []
  | (name, json) :: rest => do
    let (ty, value) ← infer (typeNameOf name) json
    modify fun sketch => sketch.addField type name ty
    let values ← inferMembers type rest
    return (name, value) :: values

end

end Json

namespace Schema

/-- The field of a member of a sample. Lists of objects accept every sequence
argument. -/
def inferredField (member : String) (ty : Ty) : FieldDefinition :=
  let composite := match ty.element? with
    | some element => element.isComposite
    | none => false
  { FieldDefinition.ofMember member ty with
    sequenceArguments := if composite then .all else .none }

/-- The schema of a sample, and the sample as the value of a context. -/
def ofSample (sample : Json) : Schema × Value :=
  let ((_, context), sketch) := (sample.infer "Query").run []
  let types := List.map (fun (name, fields) =>
    ObjectType.ofFields name none
      (List.map (fun (member, ty) => inferredField member ty) fields)) sketch
  let root := if Entries.contains sketch "Query" then [] else [ObjectType.ofFields "Query" none []]
  (ofParts "Query" [] (root ++ types) [], context)

end Schema

end TypedQuery
