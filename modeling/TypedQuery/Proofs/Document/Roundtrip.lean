import TypedQuery.Proofs.Document.Passing

/-!
# Written documents are read back

The headers of operations and fragments are read with a token of lookahead for each part that may
be absent. The definitions of a document are read one after the other, so that operations and
fragments each keep their order.
-/

namespace TypedQuery

open Document Reader

variable {rest : List Token} {fuel : Nat} {layout : Layout}

/-! ### The names of types -/

namespace TypeName

/-- The reader of the mark of a type. -/
def readMark (base : String) : Reader String := do
  if ← atSymbol .bang then
    advance
    return base ++ "!"
  else return base

/-- The reader of a type name, in the words for its mark. -/
theorem readTypeName_succ (fuel : Nat) :
    readTypeName (fuel + 1) = (do
      if ← atSymbol .leftBracket then
        advance
        let inner ← readTypeName fuel
        expect .rightBracket
        readMark ("[" ++ inner ++ "]")
      else
        let name ← Reader.name
        readMark name) := by
  rw [readTypeName]
  rfl

/-- A mark is read where it stands. -/
theorem passes_mark {base : String} (required : Bool) (hrest : Begins (· ≠ .symbol .bang) rest) :
    (readMark base).Passes (markTokens required ++ rest) rest
      (· = if required then base ++ "!" else base) := by
  unfold readMark
  cases required with
  | false => exact hrest.not_atSymbol (Passes.pure rfl)
  | true => exact Passes.atSymbol (Passes.advance hrest.ne_nil (Passes.pure rfl))

/-- The name of a type is read in front of anything but a mark. -/
theorem passes_tokens {ty : TypeName} (hrest : Begins (· ≠ .symbol .bang) rest)
    (hfuel : 4 * ty.tokens.length ≤ fuel) :
    (readTypeName fuel).Passes (ty.tokens ++ rest) rest (· = ty.text) := by
  induction ty generalizing rest fuel with
  | word name required =>
    rw [tokens, List.length_cons] at hfuel
    obtain ⟨fuel, rfl⟩ : ∃ less, fuel = less + 1 := ⟨fuel - 1, by omega⟩
    have hleft : markTokens required ++ rest ≠ [] :=
      List.append_ne_nil_of_right_ne_nil _ hrest.ne_nil
    rw [tokens, List.cons_append, readTypeName_succ]
    refine Passes.not_atSymbol (Token.ofWord_ne_symbol name rfl) ?_
    exact Passes.name (Token.name_ofWord name) hleft (passes_mark required hrest)
  | list item required ih =>
    rw [tokens, List.length_cons, List.length_append, List.length_cons] at hfuel
    obtain ⟨fuel, rfl⟩ : ∃ less, fuel = less + 1 := ⟨fuel - 1, by omega⟩
    have hleft : markTokens required ++ rest ≠ [] :=
      List.append_ne_nil_of_right_ne_nil _ hrest.ne_nil
    have hbracket : Begins (· ≠ .symbol .bang)
        (.symbol .rightBracket :: (markTokens required ++ rest)) := .cons (by simp)
    rw [tokens, List.cons_append, List.append_assoc, List.cons_append, readTypeName_succ]
    refine Passes.atSymbol (Passes.advance (by simp) ?_)
    refine (ih hbracket (by omega)).bind ?_
    rintro _ rfl
    exact Passes.expect hleft (passes_mark required hrest)

end TypeName

/-! ### Variables -/

namespace VariableDefinition

/-- The reader of definitions after the default of the first one. -/
def readRest (fuel : Nat) (name typeName : String) (default? : Option Argument) :
    Reader (List VariableDefinition) := do
  skipCommas fuel
  let definitions ← readVariables fuel
  return ⟨name, typeName, default?⟩ :: definitions

/-- The reader of variables, in the words for what stands behind a default. -/
theorem readVariables_succ (fuel : Nat) :
    readVariables (fuel + 1) = (do
      match ← current with
      | .symbol .rightParen => return []
      | .var name =>
        advance
        expect .colon
        let typeName ← readTypeName fuel
        if ← atSymbol .eq then
          advance
          let value ← readArgument fuel
          readRest fuel name typeName (some value)
        else readRest fuel name typeName none
      | found => fail (.expectedVariable found)) := by
  rw [readVariables]
  rfl

/-- Definitions of variables, or the parenthesis that closes them, can stand behind commas. -/
theorem begins_listTokens (definitions : List VariableDefinition) (layout : Layout)
    (rest : List Token) :
    Begins Token.Fresh (listTokens layout definitions ++ .symbol .rightParen :: rest) := by
  cases definitions with
  | nil => exact .cons ⟨by simp, rfl⟩
  | cons definition others =>
    rw [listTokens, tokens]
    exact .cons ⟨by simp, rfl⟩

/-- No mark follows a type before its default. -/
theorem begins_defaultTokens (layout : Layout) (default? : Option Argument)
    (hrest : Begins (·.joins = false) rest) :
    Begins (· ≠ .symbol .bang) (defaultTokens layout default? ++ rest) := by
  cases default? with
  | none => exact hrest.ne_symbol rfl
  | some value => exact .cons nofun

/-- Definitions of variables are read up to the closing parenthesis. -/
theorem passes_definitions {definitions : List VariableDefinition}
    (h : ∀ definition ∈ definitions, definition.Writable)
    (hfuel : 4 * (listTokens layout definitions).length + 1 ≤ fuel) :
    (readVariables fuel).Passes (listTokens layout definitions ++ .symbol .rightParen :: rest)
      (.symbol .rightParen :: rest) (· = definitions) := by
  induction definitions generalizing layout fuel with
  | nil =>
    obtain ⟨fuel, rfl⟩ : ∃ less, fuel = less + 1 := ⟨fuel - 1, by omega⟩
    rw [readVariables_succ]
    exact Passes.current (Passes.pure rfl)
  | cons definition others ih =>
    obtain ⟨⟨-, ⟨ty, hty, htext⟩, hdefault⟩, hothers⟩ := List.forall_mem_cons.mp h
    obtain ⟨name, typeName, default?⟩ := definition
    dsimp only at htext
    subst htext
    have hleft := begins_listTokens others (layout.part 1) rest
    have hjoins : Begins (·.joins = false) (layout.separator ++
        (listTokens (layout.part 1) others ++ .symbol .rightParen :: rest)) :=
      (hleft.imp fun token hfresh => hfresh.2).separated layout rfl
    have hmark := begins_defaultTokens (layout.part 0) default? hjoins
    rw [listTokens, tokens, TypeName.charTokens_text hty, List.length_append, List.length_append,
      List.length_cons, List.length_cons, List.length_append] at hfuel
    obtain ⟨fuel, rfl⟩ : ∃ less, fuel = less + 1 := ⟨fuel - 1, by omega⟩
    have hrest : ∀ value?, (readRest fuel name ty.text value?).Passes
        (layout.separator ++ (listTokens (layout.part 1) others ++ .symbol .rightParen :: rest))
        (.symbol .rightParen :: rest) (· = ⟨name, ty.text, value?⟩ :: others) := by
      intro value?
      unfold readRest
      refine passes_separator (hleft.imp fun token hfresh => hfresh.1) (by omega) ?_
      refine (ih hothers (by omega)).bind ?_
      rintro _ rfl
      exact Passes.pure rfl
    rw [listTokens, tokens, TypeName.charTokens_text hty, List.append_assoc, List.append_assoc,
      List.cons_append, List.cons_append, List.append_assoc, readVariables_succ]
    refine Passes.current (Passes.advance (List.cons_ne_nil _ _) ?_)
    refine Passes.expect (List.append_ne_nil_of_right_ne_nil _ hmark.ne_nil) ?_
    refine (TypeName.passes_tokens hmark (by omega)).bind ?_
    rintro _ rfl
    cases default? with
    | none => exact (hjoins.ne_symbol rfl).not_atSymbol (hrest none)
    | some value =>
      have hvalue : value.ReadBack := (hdefault value rfl).readBack
      rw [defaultTokens, List.length_cons] at hfuel
      rw [defaultTokens, List.cons_append] at hmark ⊢
      refine Passes.atSymbol (Passes.advance
        (List.append_ne_nil_of_right_ne_nil _ hjoins.ne_nil) ?_)
      refine (hvalue (layout.part 0) fuel _ hjoins.ne_nil (by omega)).bind ?_
      rintro _ rfl
      exact hrest (some _)

end VariableDefinition

/-! ### Operations and fragments -/

namespace Operation

/-- The reader of the selections of an operation. -/
def readBody (fuel : Nat) (kind : OperationKind) (name? : Option String)
    (vars : List VariableDefinition) : Reader Operation := do
  let selections ← readSelectionSet fuel
  return ⟨kind, name?, vars, selections⟩

/-- The reader of an operation after its name. -/
def readHeader (fuel : Nat) (kind : OperationKind) (name? : Option String) : Reader Operation := do
  if ← atSymbol .leftParen then
    advance
    let definitions ← readVariables fuel
    expect .rightParen
    readBody fuel kind name? definitions
  else readBody fuel kind name? []

/-- The reader of an operation, in the words for what stands behind its name. -/
theorem readOperation_eq (fuel : Nat) (kind : OperationKind) :
    readOperation fuel kind = (do
      if (← atSymbol .leftBrace) || (← atSymbol .leftParen) then readHeader fuel kind none
      else
        let name ← Reader.name
        readHeader fuel kind (some name)) := by
  rfl

/-- The operation is the same, but for positions. -/
def Same (operation found : Operation) : Prop :=
  found.bare = operation.bare

variable {kind : OperationKind} {name? : Option String} {vars : List VariableDefinition}
  {selections : List Selection}

/-- The selections of an operation are read back. -/
theorem passes_body (hrest : rest ≠ []) (h : ∀ selection ∈ selections, selection.Writable)
    (hfuel : 4 * (Selection.setTokens layout selections).length ≤ fuel) :
    (readBody fuel kind name? vars).Passes (Selection.setTokens layout selections ++ rest) rest
      (Same ⟨kind, name?, vars, selections⟩) := by
  unfold readBody
  refine (Selection.passes_set hrest (fun selection hselection => (h selection hselection).readBack)
    hfuel).bind fun founds hfounds => Passes.pure ?_
  unfold Same
  rw [bare, bare, hfounds]

/-- The variables and the selections of an operation are read back. -/
theorem passes_header (hrest : rest ≠ []) (hvars : ∀ definition ∈ vars, definition.Writable)
    (h : ∀ selection ∈ selections, selection.Writable)
    (hfuel : 4 * ((VariableDefinition.headerTokens (layout.part 0) vars).length +
      (Selection.setTokens (layout.part 1) selections).length) ≤ fuel) :
    (readHeader fuel kind name?).Passes
      (VariableDefinition.headerTokens (layout.part 0) vars ++
        (Selection.setTokens (layout.part 1) selections ++ rest)) rest
      (Same ⟨kind, name?, vars, selections⟩) := by
  unfold VariableDefinition.headerTokens at hfuel ⊢
  unfold readHeader
  cases vars with
  | nil =>
    have hbrace : Begins (· ≠ .symbol .leftParen)
        (Selection.setTokens (layout.part 1) selections ++ rest) := .cons nofun
    exact hbrace.not_atSymbol (passes_body hrest h (by simp at hfuel; omega))
  | cons definition others =>
    rw [List.isEmpty_cons, if_neg Bool.false_ne_true, List.length_cons, List.length_append,
      List.length_singleton] at hfuel
    rw [List.isEmpty_cons, if_neg Bool.false_ne_true, List.cons_append, List.append_assoc,
      List.singleton_append]
    refine Passes.atSymbol (Passes.advance (by simp) ?_)
    refine (VariableDefinition.passes_definitions hvars (by omega)).bind ?_
    rintro _ rfl
    exact Passes.expect (List.cons_ne_nil _ _) (passes_body hrest h (by omega))

/-- A reader that looks for an opening symbol knows whether it stands there. -/
theorem passes_looking {β : Type} {token : Token} {after : List Token} {yes no : Reader β}
    {post : β → Prop}
    (h : (if decide (token = .symbol .leftBrace) || decide (token = .symbol .leftParen) then yes
      else no).Passes (token :: rest) after post) :
    (do if (← atSymbol .leftBrace) || (← atSymbol .leftParen) then yes else no).Passes
      (token :: rest) after post := by
  have hat : ∀ symbol, (atSymbol symbol).Passes (token :: rest) (token :: rest)
      (· = decide (token = .symbol symbol)) := fun symbol => Passes.current (Passes.pure rfl)
  refine (hat .leftBrace).bind ?_
  rintro _ rfl
  refine (hat .leftParen).bind ?_
  rintro _ rfl
  exact h

/-- An operation is read after its keyword. -/
theorem passes_operation {operation : Operation} (h : operation.Writable) (hrest : rest ≠ [])
    (hfuel : 4 * ((VariableDefinition.headerTokens (layout.part 0) operation.vars).length +
      (Selection.setTokens (layout.part 1) operation.selections).length) ≤ fuel) :
    (readOperation fuel operation.kind).Passes
      (nameTokens operation.name? ++
        (VariableDefinition.headerTokens (layout.part 0) operation.vars ++
          (Selection.setTokens (layout.part 1) operation.selections ++ rest))) rest
      (Same operation) := by
  have hheader : ∀ name?, (readHeader fuel operation.kind name?).Passes
      (VariableDefinition.headerTokens (layout.part 0) operation.vars ++
        (Selection.setTokens (layout.part 1) operation.selections ++ rest)) rest
      (Same { operation with name? }) :=
    fun name? => passes_header hrest h.vars h.selections hfuel
  obtain ⟨kind, name?, vars, selections⟩ := operation
  rw [readOperation_eq]
  cases name? with
  | none =>
    have hopens : ∃ first more, VariableDefinition.headerTokens (layout.part 0) vars ++
        (Selection.setTokens (layout.part 1) selections ++ rest) = first :: more ∧
          (first = .symbol .leftBrace ∨ first = .symbol .leftParen) := by
      unfold VariableDefinition.headerTokens
      split
      · exact ⟨_, _, rfl, .inl rfl⟩
      · exact ⟨_, _, rfl, .inr rfl⟩
    obtain ⟨first, more, htokens, hfirst⟩ := hopens
    have hfound := hheader none
    rw [htokens] at hfound
    rw [nameTokens, List.nil_append, htokens]
    refine passes_looking ?_
    rw [if_pos (by simpa using hfirst)]
    exact hfound
  | some name =>
    have hbrace : Token.ofWord name ≠ .symbol .leftBrace := Token.ofWord_ne_symbol name rfl
    have hparen : Token.ofWord name ≠ .symbol .leftParen := Token.ofWord_ne_symbol name rfl
    have hleft : Selection.setTokens (layout.part 1) selections ++ rest ≠ [] :=
      List.cons_ne_nil _ _
    rw [nameTokens, List.singleton_append]
    refine passes_looking ?_
    rw [if_neg (by simp [hbrace, hparen])]
    exact Passes.name (Token.name_ofWord name) (List.append_ne_nil_of_right_ne_nil _ hleft)
      (hheader (some name))

end Operation

/-- A fragment is read after its keyword. -/
theorem Fragment.passes_fragment {fragment : Fragment} (h : fragment.Writable) (hrest : rest ≠ [])
    (hfuel : 4 * (Selection.setTokens layout fragment.selections).length ≤ fuel) :
    (readFragment fuel).Passes (.ofWord fragment.name :: .identifier "on" ::
      .ofWord fragment.typeCondition :: (Selection.setTokens layout fragment.selections ++ rest))
      rest (fun found => found.bare = fragment.bare) := by
  have hset := Selection.passes_set hrest
    (fun selection hselection => (h.selections selection hselection).readBack) hfuel
  unfold readFragment
  refine Passes.name (Token.name_ofWord _) (List.cons_ne_nil _ _) (Passes.current ?_)
  rw [if_pos rfl]
  refine Passes.advance (List.cons_ne_nil _ _) ?_
  refine Passes.name (Token.name_ofWord _) (List.cons_ne_nil _ _) ?_
  refine hset.bind fun founds hfounds => Passes.pure ?_
  rw [bare, bare, hfounds]

/-! ### Documents -/

namespace Document

/-- Documents that are the same but for positions stay so with one more operation. -/
theorem bare_addOperation {document found : Document} {operation other : Operation}
    (hoperation : other.bare = operation.bare) (hfound : found.bare = document.bare) :
    (found.addOperation other).bare = (document.addOperation operation).bare := by
  rw [bare, bare, mk.injEq] at hfound
  rw [bare, bare, mk.injEq]
  exact ⟨by simp only [addOperation, List.map_cons, hoperation, hfound.1], hfound.2⟩

/-- Documents that are the same but for positions stay so with one more fragment. -/
theorem bare_addFragment {document found : Document} {fragment other : Fragment}
    (hfragment : other.bare = fragment.bare) (hfound : found.bare = document.bare) :
    (found.addFragment other).bare = (document.addFragment fragment).bare := by
  rw [bare, bare, mk.injEq] at hfound
  rw [bare, bare, mk.injEq]
  exact ⟨hfound.1, by simp only [addFragment, List.map_cons, hfragment, hfound.2]⟩

/-- An operation that is written without a keyword has nothing but selections. -/
theorem eq_of_isShort {operation : Operation} (h : operation.isShort layout = true) :
    operation = ⟨.query, none, [], operation.selections⟩ := by
  obtain ⟨kind, name?, vars, selections⟩ := operation
  simp only [Operation.isShort, Bool.and_eq_true, decide_eq_true_eq, Option.isNone_iff_eq_none,
    List.isEmpty_iff] at h
  obtain ⟨⟨⟨rfl, rfl⟩, rfl⟩, -⟩ := h
  rfl

/-- The word before an operation tells its kind. -/
theorem keyword_kind (kind : OperationKind) :
    (decide (kind.keyword = "query") || decide (kind.keyword = "mutation")) = true ∧
      (if kind.keyword = "query" then OperationKind.query else .mutation) = kind := by
  cases kind
  all_goals decide

/-- An operation is read, and the definitions after it. -/
theorem passes_addOperation {operation : Operation} {document : Document} {tokens : List Token}
    (h : operation.Writable) (hfuel : 4 * (operation.tokens layout).length ≤ fuel)
    (htokens : tokens ≠ [])
    (hread : (readDefinitions fuel).Passes tokens [.eof] fun found => found.bare = document.bare) :
    (readDefinitions (fuel + 1)).Passes (operation.tokens layout ++ tokens) [.eof]
      fun found => found.bare = (document.addOperation operation).bare := by
  unfold Operation.tokens at hfuel ⊢
  unfold readDefinitions
  split
  · rename_i hshort
    rw [if_pos hshort] at hfuel
    have hset := Selection.passes_set htokens
      (fun selection hselection => (h.selections selection hselection).readBack) hfuel
    refine Passes.current (hset.bind fun founds hfounds => ?_)
    refine hread.bind fun found hfound => Passes.pure (bare_addOperation ?_ hfound)
    rw [eq_of_isShort hshort, Operation.bare, Operation.bare, hfounds]
  · rename_i hlong
    rw [if_neg hlong, List.length_cons, List.length_append, List.length_append] at hfuel
    have hlength : 4 * ((VariableDefinition.headerTokens (layout.part 0) operation.vars).length +
        (Selection.setTokens (layout.part 1) operation.selections).length) ≤ fuel := by omega
    have hoperation := Operation.passes_operation h htokens hlength
    obtain ⟨hkeyword, hkind⟩ := keyword_kind operation.kind
    have hleft : Operation.nameTokens operation.name? ++
        (VariableDefinition.headerTokens (layout.part 0) operation.vars ++
          (Selection.setTokens (layout.part 1) operation.selections ++ tokens)) ≠ [] :=
      List.append_ne_nil_of_right_ne_nil _ (List.append_ne_nil_of_right_ne_nil _
        (List.cons_ne_nil _ _))
    rw [List.cons_append, List.append_assoc, List.append_assoc]
    refine Passes.current ?_
    dsimp only
    rw [if_pos hkeyword, hkind]
    refine Passes.advance hleft (hoperation.bind fun other hother => ?_)
    exact hread.bind fun found hfound => Passes.pure (bare_addOperation hother hfound)

/-- A fragment is read, and the definitions after it. -/
theorem passes_addFragment {fragment : Fragment} {document : Document} {tokens : List Token}
    (h : fragment.Writable) (hfuel : 4 * (fragment.tokens layout).length ≤ fuel)
    (htokens : tokens ≠ [])
    (hread : (readDefinitions fuel).Passes tokens [.eof] fun found => found.bare = document.bare) :
    (readDefinitions (fuel + 1)).Passes (fragment.tokens layout ++ tokens) [.eof]
      fun found => found.bare = (document.addFragment fragment).bare := by
  rw [Fragment.tokens, List.length_cons, List.length_cons, List.length_cons,
    List.length_cons] at hfuel
  have hlength : 4 * (Selection.setTokens layout fragment.selections).length ≤ fuel := by omega
  have hfragment := Fragment.passes_fragment h htokens hlength
  rw [Fragment.tokens, List.cons_append, List.cons_append, List.cons_append, List.cons_append]
  unfold readDefinitions
  refine Passes.current ?_
  dsimp only
  rw [if_neg (by decide), if_pos rfl]
  refine Passes.advance (List.cons_ne_nil _ _) (hfragment.bind fun other hother => ?_)
  exact hread.bind fun found hfound => Passes.pure (bare_addFragment hother hfound)

/-- A definition has a token. -/
theorem length_tokens_pos (definition : Definition) (layout : Layout) :
    1 ≤ (definition.tokens layout).length := by
  cases definition with
  | operation defined =>
    rw [Definition.tokens, Operation.tokens]
    split
    · exact Nat.le_add_left _ _
    · exact Nat.le_add_left _ _
  | fragment defined => exact Nat.le_add_left _ _

/-- The tokens of definitions are read as the document of these definitions. -/
theorem passes_definitions {definitions : List Definition}
    (hoperations : ∀ operation ∈ (ofDefinitions definitions).operations, operation.Writable)
    (hfragments : ∀ fragment ∈ (ofDefinitions definitions).fragments, fragment.Writable)
    (hfuel : 4 * (Definition.listTokens layout definitions).length + 1 ≤ fuel) :
    (readDefinitions fuel).Passes (Definition.listTokens layout definitions ++ [.eof]) [.eof]
      fun found => found.bare = (ofDefinitions definitions).bare := by
  induction definitions generalizing layout fuel with
  | nil =>
    obtain ⟨fuel, rfl⟩ : ∃ less, fuel = less + 1 := ⟨fuel - 1, by omega⟩
    unfold readDefinitions
    exact Passes.current (Passes.pure rfl)
  | cons definition others ih =>
    have hpositive := length_tokens_pos definition (layout.part 0)
    rw [Definition.listTokens, List.length_append] at hfuel
    obtain ⟨fuel, rfl⟩ : ∃ less, fuel = less + 1 := ⟨fuel - 1, by omega⟩
    have htokens : Definition.listTokens (layout.part 1) others ++ [Token.eof] ≠ [] := by simp
    rw [Definition.listTokens, List.append_assoc]
    cases definition with
    | operation defined =>
      obtain ⟨hdefined, hoperations⟩ := List.forall_mem_cons.mp hoperations
      rw [Definition.tokens] at hfuel hpositive ⊢
      exact passes_addOperation hdefined (by omega) htokens
        (ih hoperations hfragments (by omega))
    | fragment defined =>
      obtain ⟨hdefined, hfragments⟩ := List.forall_mem_cons.mp hfragments
      rw [Definition.tokens] at hfuel hpositive ⊢
      exact passes_addFragment hdefined (by omega) htokens
        (ih hoperations hfragments (by omega))

end Document

end TypedQuery
