/-!
# Parts of a text
-/

namespace TypedQuery.Text

/-- One text stands somewhere inside another. -/
def occursIn (part : List Char) : List Char → Bool
  | [] => part.isEmpty
  | c :: rest => part.isPrefixOf (c :: rest) || occursIn part rest

end TypedQuery.Text
