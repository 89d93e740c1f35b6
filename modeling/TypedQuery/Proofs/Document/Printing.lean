import TypedQuery.Document.Reader
import TypedQuery.Proofs.Token.Passing

/-!
# Documents as they are written

Commas stand after items, named values, variable definitions and selections, as many as one likes
and none at all. A query without a name and without variables needs no keyword. Definitions stand in
any order in which operations follow operations and fragments follow fragments as in the document.
-/

namespace TypedQuery

/-- How a document is laid out: the number of commas after each part and whether the keyword stands
before a query that needs none. The parts are found by the way to them from the whole. -/
structure Layout where
  commas : List Nat → Nat
  keyword : List Nat → Bool

namespace Layout

/-- The layout of a part. -/
def part (layout : Layout) (index : Nat) : Layout :=
  ⟨fun way => layout.commas (index :: way), fun way => layout.keyword (index :: way)⟩

/-- The commas after a part. -/
def separator (layout : Layout) : List Token :=
  List.replicate (layout.commas []) (.symbol .comma)

end Layout

mutual

/-- The tokens of the value of an argument. -/
def Argument.tokens (layout : Layout) : Argument → List Token
  | .literal value => value.tokens
  | .enum name => [.ofWord name]
  | .var name => [.var name]
  | .list items =>
    .symbol .leftBracket :: (Argument.itemTokens layout items ++ [.symbol .rightBracket])
  | .object members =>
    .symbol .leftBrace :: (Argument.memberTokens layout members ++ [.symbol .rightBrace])

/-- The tokens of items. -/
def Argument.itemTokens (layout : Layout) : List Argument → List Token
  | [] => []
  | item :: rest =>
    item.tokens (layout.part 0) ++ (layout.separator ++ Argument.itemTokens (layout.part 1) rest)

/-- The tokens of named values. -/
def Argument.memberTokens (layout : Layout) : List (String × Argument) → List Token
  | [] => []
  | (name, value) :: rest =>
    .ofWord name :: .symbol .colon :: (value.tokens (layout.part 0) ++
      (layout.separator ++ Argument.memberTokens (layout.part 1) rest))

end

/-- The tokens of the arguments of a field. -/
def Argument.listTokens (layout : Layout) (arguments : List (String × Argument)) : List Token :=
  if arguments.isEmpty then []
  else .symbol .leftParen :: (memberTokens layout arguments ++ [.symbol .rightParen])

/-- The tokens of an alias. -/
def Selection.aliasTokens : Option String → List Token
  | none => []
  | some name => [.ofWord name, .symbol .colon]

mutual

/-- The tokens of a field or of the place of a fragment. -/
def Selection.tokens (layout : Layout) : Selection → List Token
  | .spread fragment _ => [.symbol .spread, .ofWord fragment]
  | .field name alias? arguments selections _ =>
    Selection.aliasTokens alias? ++ .ofWord name ::
      (Argument.listTokens (layout.part 0) arguments ++
        if selections.isEmpty then []
        else .symbol .leftBrace ::
          (Selection.listTokens (layout.part 1) selections ++ [.symbol .rightBrace]))

/-- The tokens of selections. -/
def Selection.listTokens (layout : Layout) : List Selection → List Token
  | [] => []
  | selection :: rest =>
    selection.tokens (layout.part 0) ++
      (layout.separator ++ Selection.listTokens (layout.part 1) rest)

end

/-- The tokens of selections in braces. -/
def Selection.setTokens (layout : Layout) (selections : List Selection) : List Token :=
  .symbol .leftBrace :: (listTokens layout selections ++ [.symbol .rightBrace])

/-- The tokens of the selections of a field: none, or those of a set. -/
def Selection.innerTokens (layout : Layout) (selections : List Selection) : List Token :=
  if selections.isEmpty then [] else setTokens layout selections

/-- The name of a type: a word or a type in brackets, with or without a mark. -/
inductive TypeName
  | word (name : String) (required : Bool)
  | list (item : TypeName) (required : Bool)

namespace TypeName

/-- The text of a name. -/
def text : TypeName → String
  | word name required => if required then name ++ "!" else name
  | list item required =>
    if required then "[" ++ item.text ++ "]" ++ "!" else "[" ++ item.text ++ "]"

/-- The tokens of a mark. -/
def markTokens (required : Bool) : List Token :=
  if required then [.symbol .bang] else []

/-- The tokens of a name. -/
def tokens : TypeName → List Token
  | word name required => .ofWord name :: markTokens required
  | list item required =>
    .symbol .leftBracket :: (item.tokens ++ .symbol .rightBracket :: markTokens required)

/-- The word in a name is a name. -/
def Writable : TypeName → Prop
  | word name _ => isName name = true
  | list item _ => item.Writable

/-- The token of a character after the word. -/
def closing (c : Char) : Token :=
  if c = '!' then .symbol .bang else .symbol .rightBracket

/-- The tokens of the characters of a name: brackets, the word, brackets and marks. -/
def charTokens : List Char → List Token
  | '[' :: rest => .symbol .leftBracket :: charTokens rest
  | chars =>
    .ofWord (String.ofList (chars.takeWhile isNamePart)) ::
      (chars.dropWhile isNamePart).map closing

end TypeName

namespace VariableDefinition

/-- The tokens of the default of a variable. -/
def defaultTokens (layout : Layout) : Option Argument → List Token
  | none => []
  | some value => .symbol .eq :: value.tokens layout

/-- The tokens of the definition of a variable. -/
def tokens (layout : Layout) (definition : VariableDefinition) : List Token :=
  .var definition.name :: .symbol .colon ::
    (TypeName.charTokens definition.typeName.toList ++ defaultTokens layout definition.default?)

/-- The tokens of definitions. -/
def listTokens (layout : Layout) : List VariableDefinition → List Token
  | [] => []
  | definition :: rest =>
    definition.tokens (layout.part 0) ++ (layout.separator ++ listTokens (layout.part 1) rest)

/-- The tokens of the variables of an operation. -/
def headerTokens (layout : Layout) (definitions : List VariableDefinition) : List Token :=
  if definitions.isEmpty then []
  else .symbol .leftParen :: (listTokens layout definitions ++ [.symbol .rightParen])

end VariableDefinition

/-- The word before an operation. -/
def OperationKind.keyword : OperationKind → String
  | query => "query"
  | mutation => "mutation"

namespace Operation

/-- The tokens of the name of an operation. -/
def nameTokens : Option String → List Token
  | none => []
  | some name => [.ofWord name]

/-- The operation is written without a keyword. -/
def isShort (layout : Layout) (operation : Operation) : Bool :=
  operation.kind = .query && operation.name?.isNone && operation.vars.isEmpty &&
    !layout.keyword []

/-- The tokens of an operation. -/
def tokens (layout : Layout) (operation : Operation) : List Token :=
  if operation.isShort layout then Selection.setTokens layout operation.selections
  else .identifier operation.kind.keyword :: (nameTokens operation.name? ++
    (VariableDefinition.headerTokens (layout.part 0) operation.vars ++
      Selection.setTokens (layout.part 1) operation.selections))

end Operation

/-- The tokens of a fragment. -/
def Fragment.tokens (layout : Layout) (fragment : Fragment) : List Token :=
  .identifier "fragment" :: .ofWord fragment.name :: .identifier "on" ::
    .ofWord fragment.typeCondition :: Selection.setTokens layout fragment.selections

/-- A definition in a document. -/
inductive Definition
  | operation (operation : Operation)
  | fragment (fragment : Fragment)

/-- The tokens of a definition. -/
def Definition.tokens (layout : Layout) : Definition → List Token
  | .operation defined => defined.tokens layout
  | .fragment defined => defined.tokens layout

/-- The tokens of definitions, one after the other. -/
def Definition.listTokens (layout : Layout) : List Definition → List Token
  | [] => []
  | definition :: rest =>
    definition.tokens (layout.part 0) ++ Definition.listTokens (layout.part 1) rest

namespace Document

/-- A document with one more operation before the others. -/
def addOperation (document : Document) (operation : Operation) : Document :=
  { document with operations := operation :: document.operations }

/-- A document with one more fragment before the others. -/
def addFragment (document : Document) (fragment : Fragment) : Document :=
  { document with fragments := fragment :: document.fragments }

/-- The document of definitions: the operations in their order and the fragments in theirs. -/
def ofDefinitions : List Definition → Document
  | [] => empty
  | .operation operation :: rest => (ofDefinitions rest).addOperation operation
  | .fragment fragment :: rest => (ofDefinitions rest).addFragment fragment

end Document

/-! ### Documents without positions -/

mutual

/-- A selection without its positions. -/
def Selection.bare : Selection → Selection
  | .spread fragment _ => .spread fragment .start
  | .field name alias? arguments selections _ =>
    .field name alias? arguments (Selection.bareList selections) .start

/-- Selections without their positions. -/
def Selection.bareList : List Selection → List Selection
  | [] => []
  | selection :: rest => selection.bare :: Selection.bareList rest

end

/-- An operation without positions. -/
def Operation.bare (operation : Operation) : Operation :=
  { operation with selections := Selection.bareList operation.selections }

/-- A fragment without positions. -/
def Fragment.bare (fragment : Fragment) : Fragment :=
  { fragment with selections := Selection.bareList fragment.selections }

/-- A document without positions. -/
def Document.bare (document : Document) : Document :=
  ⟨document.operations.map Operation.bare, document.fragments.map Fragment.bare⟩

/-! ### Documents that can be written -/

/-- The value of an argument can be written: the names in it are names, those of members of
enumerations are no keywords, and its decimals can be written. -/
inductive Argument.Writable : Argument → Prop
  | literal {value : Literal} (writable : value.Writable) : Writable (.literal value)
  | enum {name : String} (named : isName name = true)
      (free : Token.ofWord name = .identifier name) : Writable (.enum name)
  | var {name : String} (named : isName name = true) : Writable (.var name)
  | list {items : List Argument} (inner : ∀ item ∈ items, Writable item) : Writable (.list items)
  | object {members : List (String × Argument)}
      (names : ∀ member ∈ members, isName member.1 = true)
      (values : ∀ member ∈ members, Writable member.2) : Writable (.object members)

/-- A selection can be written: the names in it are names, and its arguments can be written. -/
inductive Selection.Writable : Selection → Prop
  | field {name : String} {alias? : Option String} {arguments : List (String × Argument)}
      {selections : List Selection} {position : Position} (named : isName name = true)
      (renamed : ∀ other ∈ alias?, isName other = true)
      (names : ∀ member ∈ arguments, isName member.1 = true)
      (values : ∀ member ∈ arguments, member.2.Writable)
      (inner : ∀ selection ∈ selections, Writable selection) :
      Writable (.field name alias? arguments selections position)
  | spread {fragment : String} {position : Position} (named : isName fragment = true) :
      Writable (.spread fragment position)

/-- The definition of a variable can be written. -/
structure VariableDefinition.Writable (definition : VariableDefinition) : Prop where
  named : isName definition.name = true
  typed : ∃ ty : TypeName, ty.Writable ∧ definition.typeName = ty.text
  default : ∀ value ∈ definition.default?, value.Writable

/-- An operation can be written. -/
structure Operation.Writable (operation : Operation) : Prop where
  named : ∀ name ∈ operation.name?, isName name = true
  vars : ∀ definition ∈ operation.vars, definition.Writable
  selections : ∀ selection ∈ operation.selections, selection.Writable

/-- A fragment can be written. -/
structure Fragment.Writable (fragment : Fragment) : Prop where
  named : isName fragment.name = true
  typed : isName fragment.typeCondition = true
  selections : ∀ selection ∈ fragment.selections, selection.Writable

/-- A document can be written: it has an operation, and all that is in it can be written. -/
structure Document.Writable (document : Document) : Prop where
  nonempty : document.operations ≠ []
  operations : ∀ operation ∈ document.operations, operation.Writable
  fragments : ∀ fragment ∈ document.fragments, fragment.Writable

/-! ### The tokens of what can be written -/

/-- Commas can be written. -/
theorem Layout.writable_separator (layout : Layout) :
    ∀ token ∈ layout.separator, token.Writable := by
  intro token htoken
  rw [List.eq_of_mem_replicate htoken]
  exact Token.writable_symbol _

/-- The tokens of a literal that can be written can be written. -/
theorem Literal.writable_tokens {value : Literal} (h : value.Writable) :
    ∀ token ∈ value.tokens, token.Writable := by
  have htoken := writable_token h
  unfold tokens
  split
  · rw [List.forall_mem_cons, List.forall_mem_singleton]
    exact ⟨Token.writable_symbol _, htoken⟩
  · rw [List.forall_mem_singleton]
    exact htoken

namespace Argument

/-- The tokens of items can be written if those of each item can. -/
theorem writable_itemTokens {items : List Argument}
    (h : ∀ item ∈ items, ∀ (layout : Layout), ∀ token ∈ item.tokens layout, token.Writable)
    (layout : Layout) : ∀ token ∈ itemTokens layout items, token.Writable := by
  induction items generalizing layout with
  | nil => exact nofun
  | cons item rest ih =>
    have hrest := ih (fun other hother => h other (List.mem_cons_of_mem _ hother))
    rw [itemTokens, List.forall_mem_append, List.forall_mem_append]
    exact ⟨h item List.mem_cons_self _, layout.writable_separator, hrest _⟩

/-- The tokens of members can be written if their names are names and those of each value can. -/
theorem writable_memberTokens {members : List (String × Argument)}
    (hnames : ∀ member ∈ members, isName member.1 = true)
    (h : ∀ member ∈ members, ∀ (layout : Layout), ∀ token ∈ member.2.tokens layout, token.Writable)
    (layout : Layout) : ∀ token ∈ memberTokens layout members, token.Writable := by
  induction members generalizing layout with
  | nil => exact nofun
  | cons member rest ih =>
    have hrest := ih (fun other hother => hnames other (List.mem_cons_of_mem _ hother))
      (fun other hother => h other (List.mem_cons_of_mem _ hother))
    rw [memberTokens, List.forall_mem_cons, List.forall_mem_cons, List.forall_mem_append,
      List.forall_mem_append]
    exact ⟨Token.writable_of_isName (hnames member List.mem_cons_self), Token.writable_symbol _,
      h member List.mem_cons_self _, layout.writable_separator, hrest _⟩

/-- The tokens of an argument that can be written can be written. -/
theorem Writable.tokens {argument : Argument} (h : argument.Writable) (layout : Layout) :
    ∀ token ∈ argument.tokens layout, token.Writable := by
  induction h generalizing layout with
  | literal hvalue =>
    rw [Argument.tokens]
    exact Literal.writable_tokens hvalue
  | enum hname _ =>
    rw [Argument.tokens, List.forall_mem_singleton]
    exact Token.writable_of_isName hname
  | var hname =>
    rw [Argument.tokens, List.forall_mem_singleton]
    exact Token.writable_var hname
  | list _ ih =>
    rw [Argument.tokens, List.forall_mem_cons, List.forall_mem_append, List.forall_mem_singleton]
    exact ⟨Token.writable_symbol _, writable_itemTokens ih layout, Token.writable_symbol _⟩
  | object hnames _ ih =>
    rw [Argument.tokens, List.forall_mem_cons, List.forall_mem_append, List.forall_mem_singleton]
    exact ⟨Token.writable_symbol _, writable_memberTokens hnames ih layout,
      Token.writable_symbol _⟩

/-- The tokens of arguments that can be written can be written. -/
theorem writable_listTokens {arguments : List (String × Argument)}
    (hnames : ∀ member ∈ arguments, isName member.1 = true)
    (h : ∀ member ∈ arguments, member.2.Writable) (layout : Layout) :
    ∀ token ∈ listTokens layout arguments, token.Writable := by
  unfold listTokens
  split
  · exact nofun
  · rw [List.forall_mem_cons, List.forall_mem_append, List.forall_mem_singleton]
    exact ⟨Token.writable_symbol _,
      writable_memberTokens hnames (fun member hmember => (h member hmember).tokens) layout,
      Token.writable_symbol _⟩

end Argument

namespace Selection

/-- The tokens of an alias that is a name can be written. -/
theorem writable_aliasTokens {alias? : Option String}
    (h : ∀ other ∈ alias?, isName other = true) : ∀ token ∈ aliasTokens alias?, token.Writable := by
  cases alias? with
  | none => exact nofun
  | some other =>
    rw [aliasTokens, List.forall_mem_cons, List.forall_mem_singleton]
    exact ⟨Token.writable_of_isName (h other rfl), Token.writable_symbol _⟩

/-- The tokens of selections can be written if those of each selection can. -/
theorem writable_listTokens {selections : List Selection}
    (h : ∀ selection ∈ selections, ∀ (layout : Layout),
      ∀ token ∈ selection.tokens layout, token.Writable)
    (layout : Layout) : ∀ token ∈ listTokens layout selections, token.Writable := by
  induction selections generalizing layout with
  | nil => exact nofun
  | cons selection rest ih =>
    have hrest := ih (fun other hother => h other (List.mem_cons_of_mem _ hother))
    rw [listTokens, List.forall_mem_append, List.forall_mem_append]
    exact ⟨h selection List.mem_cons_self _, layout.writable_separator, hrest _⟩

/-- The tokens of selections in braces can be written if those of each selection can. -/
theorem writable_setTokens {selections : List Selection}
    (h : ∀ selection ∈ selections, ∀ (layout : Layout),
      ∀ token ∈ selection.tokens layout, token.Writable)
    (layout : Layout) : ∀ token ∈ setTokens layout selections, token.Writable := by
  rw [setTokens, List.forall_mem_cons, List.forall_mem_append, List.forall_mem_singleton]
  exact ⟨Token.writable_symbol _, writable_listTokens h layout, Token.writable_symbol _⟩

/-- The tokens of a field are those of its alias, its name, its arguments and its selections. -/
theorem tokens_field (layout : Layout) (name : String) (alias? : Option String)
    (arguments : List (String × Argument)) (selections : List Selection) (position : Position) :
    (field name alias? arguments selections position).tokens layout =
      aliasTokens alias? ++ .ofWord name :: (Argument.listTokens (layout.part 0) arguments ++
        innerTokens (layout.part 1) selections) := by
  rw [tokens, innerTokens, setTokens]

/-- The tokens of a selection that can be written can be written. -/
theorem Writable.tokens {selection : Selection} (h : selection.Writable) (layout : Layout) :
    ∀ token ∈ selection.tokens layout, token.Writable := by
  induction h generalizing layout with
  | field hname halias hnames hvalues _ ih =>
    rw [tokens_field, List.forall_mem_append, List.forall_mem_cons, List.forall_mem_append]
    refine ⟨writable_aliasTokens halias, Token.writable_of_isName hname,
      Argument.writable_listTokens hnames hvalues _, ?_⟩
    unfold innerTokens
    split
    · exact nofun
    · exact writable_setTokens ih _
  | spread hname =>
    rw [Selection.tokens, List.forall_mem_cons, List.forall_mem_singleton]
    exact ⟨Token.writable_symbol _, Token.writable_of_isName hname⟩

end Selection

namespace TypeName

/-- A mark can be written. -/
theorem writable_markTokens (required : Bool) :
    ∀ token ∈ markTokens required, token.Writable := by
  unfold markTokens
  split
  · rw [List.forall_mem_singleton]
    exact Token.writable_symbol _
  · exact nofun

/-- The tokens of the name of a type can be written if the word in it is a name. -/
theorem Writable.tokens {ty : TypeName} (h : ty.Writable) :
    ∀ token ∈ ty.tokens, token.Writable := by
  induction ty with
  | word name required =>
    rw [TypeName.tokens, List.forall_mem_cons]
    exact ⟨Token.writable_of_isName h, writable_markTokens required⟩
  | list item required ih =>
    rw [TypeName.tokens, List.forall_mem_cons, List.forall_mem_append, List.forall_mem_cons]
    exact ⟨Token.writable_symbol _, ih h, Token.writable_symbol _, writable_markTokens required⟩

/-- A word in the name of a type is one token. -/
theorem charTokens_word {name : String} {rest : List Char} (hname : isName name = true)
    (hrest : Stops isNamePart rest) :
    charTokens (name.toList ++ rest) = .ofWord name :: rest.map closing := by
  obtain ⟨c, more, hchars, hstart, -⟩ := exists_of_isName hname
  have hbracket : c ≠ '[' := by
    rintro rfl
    cases hstart
  have hall := isNamePart_of_mem hname
  have hword : charTokens (name.toList ++ rest) =
      .ofWord (String.ofList ((name.toList ++ rest).takeWhile isNamePart)) ::
        ((name.toList ++ rest).dropWhile isNamePart).map closing := by
    rw [hchars, List.cons_append]
    unfold charTokens
    split
    · rename_i heq
      cases heq
      exact absurd rfl hbracket
    · rfl
  rw [hword, takeWhile_append_of_stops hall hrest, dropWhile_append_of_stops hall hrest,
    String.ofList_toList]

/-- The characters of a mark. -/
def markChars (required : Bool) : List Char :=
  if required then ['!'] else []

/-- The characters of a mark are its tokens. -/
theorem map_closing_markChars (required : Bool) (rest : List Char) :
    (markChars required ++ rest).map closing = markTokens required ++ rest.map closing := by
  cases required
  all_goals rfl

/-- A word ends before a mark. -/
theorem stops_markChars (required : Bool) {rest : List Char} (h : Stops isNamePart rest) :
    Stops isNamePart (markChars required ++ rest) := by
  cases required with
  | false => exact h
  | true =>
    rintro _ ⟨⟩
    decide

/-- The characters of a word with a mark. -/
theorem toList_text_word (name : String) (required : Bool) :
    (word name required).text.toList = name.toList ++ markChars required := by
  cases required with
  | false => exact (List.append_nil _).symm
  | true => exact String.toList_append

/-- The characters of a type in brackets with a mark. -/
theorem toList_text_list (item : TypeName) (required : Bool) :
    (list item required).text.toList = '[' :: (item.text.toList ++ ']' :: markChars required) := by
  cases required
  all_goals simp [text, markChars]

/-- The characters of a name are taken apart as the name is put together. -/
theorem charTokens_append {ty : TypeName} (h : ty.Writable) {rest : List Char}
    (hrest : Stops isNamePart rest) :
    charTokens (ty.text.toList ++ rest) = ty.tokens ++ rest.map closing := by
  induction ty generalizing rest with
  | word name required =>
    rw [toList_text_word, List.append_assoc, charTokens_word h (stops_markChars required hrest),
      map_closing_markChars, tokens, List.cons_append]
  | list item required ih =>
    have hbracket : Stops isNamePart (']' :: (markChars required ++ rest)) := by
      rintro _ ⟨⟩
      decide
    rw [toList_text_list, List.cons_append, List.append_assoc, List.cons_append, charTokens,
      ih h hbracket, List.map_cons, map_closing_markChars, tokens, List.cons_append,
      List.append_assoc, List.cons_append]
    rfl

/-- The characters of the name of a type are its tokens. -/
theorem charTokens_text {ty : TypeName} (h : ty.Writable) :
    charTokens ty.text.toList = ty.tokens := by
  have hend : Stops isNamePart [] := nofun
  have hchars := charTokens_append h hend
  rwa [List.append_nil, List.map_nil, List.append_nil] at hchars

example : charTokens "[[Int!]]!".toList = [.symbol .leftBracket, .symbol .leftBracket,
    .identifier "Int", .symbol .bang, .symbol .rightBracket, .symbol .rightBracket,
    .symbol .bang] := by
  decide

end TypeName

namespace VariableDefinition

/-- The tokens of the definition of a variable that can be written can be written. -/
theorem Writable.tokens {definition : VariableDefinition} (h : definition.Writable)
    (layout : Layout) : ∀ token ∈ definition.tokens layout, token.Writable := by
  obtain ⟨hname, ⟨ty, hty, htext⟩, hdefault⟩ := h
  have hvalue : ∀ token ∈ defaultTokens layout definition.default?, token.Writable := by
    cases hfound : definition.default? with
    | none => exact nofun
    | some value =>
      rw [defaultTokens, List.forall_mem_cons]
      exact ⟨Token.writable_symbol _, (hdefault value hfound).tokens layout⟩
  rw [VariableDefinition.tokens, htext, TypeName.charTokens_text hty, List.forall_mem_cons,
    List.forall_mem_cons, List.forall_mem_append]
  exact ⟨Token.writable_var hname, Token.writable_symbol _, hty.tokens, hvalue⟩

/-- The tokens of definitions of variables that can be written can be written. -/
theorem writable_listTokens {definitions : List VariableDefinition}
    (h : ∀ definition ∈ definitions, definition.Writable) (layout : Layout) :
    ∀ token ∈ listTokens layout definitions, token.Writable := by
  induction definitions generalizing layout with
  | nil => exact nofun
  | cons definition rest ih =>
    have hrest := ih (fun other hother => h other (List.mem_cons_of_mem _ hother))
    rw [listTokens, List.forall_mem_append, List.forall_mem_append]
    exact ⟨(h definition List.mem_cons_self).tokens _, layout.writable_separator, hrest _⟩

/-- The tokens of the variables of an operation can be written if each definition can. -/
theorem writable_headerTokens {definitions : List VariableDefinition}
    (h : ∀ definition ∈ definitions, definition.Writable) (layout : Layout) :
    ∀ token ∈ headerTokens layout definitions, token.Writable := by
  unfold headerTokens
  split
  · exact nofun
  · rw [List.forall_mem_cons, List.forall_mem_append, List.forall_mem_singleton]
    exact ⟨Token.writable_symbol _, writable_listTokens h layout, Token.writable_symbol _⟩

end VariableDefinition

/-- The token of a word that is no keyword can be written. -/
theorem Token.writable_identifier {word : String} (hname : isName word = true)
    (hfree : ofWord word = .identifier word) : (Token.identifier word).Writable :=
  hfree ▸ writable_of_isName hname

/-- The tokens of an operation that can be written can be written. -/
theorem Operation.Writable.tokens {operation : Operation} (h : operation.Writable)
    (layout : Layout) : ∀ token ∈ operation.tokens layout, token.Writable := by
  have hset : ∀ layout, ∀ token ∈ Selection.setTokens layout operation.selections, token.Writable :=
    Selection.writable_setTokens fun selection hselection =>
      (h.selections selection hselection).tokens
  have hname : ∀ token ∈ nameTokens operation.name?, token.Writable := by
    cases hfound : operation.name? with
    | none => exact nofun
    | some name =>
      rw [nameTokens, List.forall_mem_singleton]
      exact Token.writable_of_isName (h.named name hfound)
  have hkeyword : (Token.identifier operation.kind.keyword).Writable := by
    cases operation.kind
    all_goals exact Token.writable_identifier (by decide) (by decide)
  unfold Operation.tokens
  split
  · exact hset layout
  · rw [List.forall_mem_cons, List.forall_mem_append, List.forall_mem_append]
    exact ⟨hkeyword, hname, VariableDefinition.writable_headerTokens h.vars _, hset _⟩

/-- The tokens of a fragment that can be written can be written. -/
theorem Fragment.Writable.tokens {fragment : Fragment} (h : fragment.Writable) (layout : Layout) :
    ∀ token ∈ fragment.tokens layout, token.Writable := by
  rw [Fragment.tokens, List.forall_mem_cons, List.forall_mem_cons, List.forall_mem_cons,
    List.forall_mem_cons]
  exact ⟨Token.writable_identifier (by decide) (by decide), Token.writable_of_isName h.named,
    Token.writable_identifier (by decide) (by decide), Token.writable_of_isName h.typed,
    Selection.writable_setTokens (fun selection hselection =>
      (h.selections selection hselection).tokens) layout⟩

/-- The tokens of the definitions of a document that can be written can be written. -/
theorem Definition.writable_listTokens {definitions : List Definition}
    (hoperations : ∀ operation ∈ (Document.ofDefinitions definitions).operations,
      operation.Writable)
    (hfragments : ∀ fragment ∈ (Document.ofDefinitions definitions).fragments, fragment.Writable)
    (layout : Layout) : ∀ token ∈ Definition.listTokens layout definitions, token.Writable := by
  induction definitions generalizing layout with
  | nil => exact nofun
  | cons definition rest ih =>
    rw [Definition.listTokens, List.forall_mem_append]
    cases definition with
    | operation defined =>
      obtain ⟨hdefined, hoperations⟩ := List.forall_mem_cons.mp hoperations
      exact ⟨hdefined.tokens _, ih hoperations hfragments _⟩
    | fragment defined =>
      obtain ⟨hdefined, hfragments⟩ := List.forall_mem_cons.mp hfragments
      exact ⟨hdefined.tokens _, ih hoperations hfragments _⟩

end TypedQuery
