import TypedQuery.Text.Case

/-!
# Public names

The public spelling of a host name: `FirstName` and `first_name` become
`firstName`, and `URLPath` becomes `urlPath`.
-/

namespace TypedQuery.Text

/-- Respells the rest of a name. `first` holds at its first character, `leading`
inside the capitals with which it starts, `raise` after a separator, and `started`
once something has been written. -/
def camelFrom (first leading raise started : Bool) : List Char → List Char
  | [] => []
  | c :: rest =>
    if c = '_' || c = '-' then camelFrom false false started started rest
    else if leading && isCapital c && (first || !(rest.head?.map isSmall).getD false) then
      small c ++ camelFrom false true raise true rest
    else if raise then capital c ++ camelFrom false false false true rest
    else c :: camelFrom false false false true rest

/-- The public spelling of a host name. -/
def camelCase (name : String) : String :=
  String.ofList (camelFrom true true false false name.toList)

end TypedQuery.Text
