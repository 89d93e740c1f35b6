import TypedQuery.Proofs.Document.Printing

/-!
# Written parts of documents are read

What the readers of arguments, selections and the names of types make of their tokens, whatever may
follow them. An argument is read in front of any token. After a name a reader looks for one of a few
symbols, so that a selection is read in front of what is none of them.
-/

namespace TypedQuery

/-- The token neither separates nor closes. -/
def Token.opens : Token → Bool
  | symbol .comma | symbol .rightBracket | symbol .rightBrace | symbol .rightParen | eof => false
  | _ => true

/-- The token may go on with a name or a type before it. -/
def Token.joins : Token → Bool
  | symbol .colon | symbol .leftParen | symbol .leftBrace | symbol .bang | symbol .eq => true
  | _ => false

/-- A name is no symbol, unless it is a keyword. -/
theorem Token.opens_ofWord (word : String) : (ofWord word).opens = true := by
  by_cases h : word ∈ keywords
  · have hall : ∀ word ∈ keywords, (ofWord word).opens = true := by decide
    exact hall word h
  · rw [ofWord_eq_identifier h]
    rfl

/-- A word goes on with nothing before it. -/
theorem Token.joins_ofWord (word : String) : (ofWord word).joins = false := by
  by_cases h : word ∈ keywords
  · have hall : ∀ word ∈ keywords, (ofWord word).joins = false := by decide
    exact hall word h
  · rw [ofWord_eq_identifier h]
    rfl

/-- A word is none of the symbols that are no names. -/
theorem Token.ofWord_ne_symbol {symbol : Symbol} (word : String)
    (h : (Token.symbol symbol).name? = none) : ofWord word ≠ .symbol symbol := by
  intro heq
  have hname := name_ofWord word
  rw [heq, h] at hname
  cases hname

/-- A token that opens is none of the symbols that separate or close. -/
theorem Token.ne_of_opens {token : Token} {symbol : Symbol} (h : token.opens = true)
    (hsymbol : (Token.symbol symbol).opens = false) : token ≠ .symbol symbol := by
  rintro rfl
  rw [hsymbol] at h
  cases h

/-- A token that goes on with nothing is none of the symbols that do. -/
theorem Token.ne_of_not_joins {token : Token} {symbol : Symbol} (h : token.joins = false)
    (hsymbol : (Token.symbol symbol).joins = true) : token ≠ .symbol symbol := by
  rintro rfl
  rw [hsymbol] at h
  cases h

/-- Tokens start with one of a kind. -/
def Begins (kind : Token → Prop) (tokens : List Token) : Prop :=
  ∃ first more, tokens = first :: more ∧ kind first

namespace Begins

variable {kind other : Token → Prop} {tokens : List Token}

/-- Tokens that start with one are not empty. -/
theorem ne_nil (h : Begins kind tokens) : tokens ≠ [] := by
  obtain ⟨first, more, rfl, -⟩ := h
  exact List.cons_ne_nil _ _

/-- Tokens start with the same one whatever follows them. -/
theorem append (h : Begins kind tokens) (rest : List Token) : Begins kind (tokens ++ rest) := by
  obtain ⟨first, more, rfl, hfirst⟩ := h
  exact ⟨first, more ++ rest, rfl, hfirst⟩

/-- A token of a kind is one of every wider kind. -/
theorem imp (h : Begins kind tokens) (himp : ∀ token, kind token → other token) :
    Begins other tokens := by
  obtain ⟨first, more, rfl, hfirst⟩ := h
  exact ⟨first, more, rfl, himp first hfirst⟩

/-- Tokens start with the first of them. -/
theorem cons {token : Token} (h : kind token) : Begins kind (token :: tokens) :=
  ⟨token, tokens, rfl, h⟩

/-- Tokens that go on with nothing do not start with a symbol that does. -/
theorem ne_symbol {symbol : Symbol} (h : Begins (·.joins = false) tokens)
    (hsymbol : (Token.symbol symbol).joins = true) : Begins (· ≠ .symbol symbol) tokens :=
  h.imp fun _ hjoins => Token.ne_of_not_joins hjoins hsymbol

/-- Commas may stand in front. -/
theorem separated (layout : Layout) (hcomma : kind (.symbol .comma)) (h : Begins kind tokens) :
    Begins kind (layout.separator ++ tokens) := by
  unfold Layout.separator
  cases layout.commas [] with
  | zero => exact h
  | succ count => exact cons hcomma

/-- A reader that asks for a symbol finds something else at the start. -/
theorem not_atSymbol {β : Type} {symbol : Symbol} {after : List Token} {yes no : Reader β}
    {post : β → Prop} (h : Begins (· ≠ .symbol symbol) tokens) (hno : no.Passes tokens after post) :
    (Reader.atSymbol symbol >>= fun found => if found = true then yes else no).Passes
      tokens after post := by
  obtain ⟨first, more, rfl, hfirst⟩ := h
  exact Reader.Passes.not_atSymbol hfirst hno

end Begins

/-- The token stands after a part and its commas: it is no comma and goes on with nothing. -/
def Token.Fresh (token : Token) : Prop :=
  token ≠ .symbol .comma ∧ token.joins = false

/-- A token that opens and goes on with nothing can stand behind commas. -/
theorem Token.fresh_of_opens {token : Token} (hopens : token.opens = true)
    (hjoins : token.joins = false) : token.Fresh :=
  ⟨ne_of_opens hopens rfl, hjoins⟩

namespace Document

open Reader

variable {rest : List Token} {fuel : Nat}

/-- Commas are passed up to the first other token. -/
theorem passes_skipCommas {count : Nat} (hrest : Begins (· ≠ .symbol .comma) rest)
    (hfuel : count < fuel) :
    (skipCommas fuel).Passes (List.replicate count (.symbol .comma) ++ rest) rest
      (fun _ => True) := by
  induction count generalizing fuel with
  | zero =>
    obtain ⟨fuel, rfl⟩ : ∃ less, fuel = less + 1 := ⟨fuel - 1, by omega⟩
    unfold skipCommas
    exact hrest.not_atSymbol (Passes.pure trivial)
  | succ count ih =>
    obtain ⟨fuel, rfl⟩ : ∃ less, fuel = less + 1 := ⟨fuel - 1, by omega⟩
    have hleft : List.replicate count (Token.symbol .comma) ++ rest ≠ [] :=
      List.append_ne_nil_of_right_ne_nil _ hrest.ne_nil
    rw [List.replicate_succ, List.cons_append]
    unfold skipCommas
    exact Passes.atSymbol (Passes.advance hleft (ih (by omega)))

/-- The commas of a layout are passed. -/
theorem passes_separator {β : Type} {layout : Layout} {after : List Token} {next : Unit → Reader β}
    {post : β → Prop} (hrest : Begins (· ≠ .symbol .comma) rest)
    (hfuel : layout.separator.length < fuel) (h : (next ()).Passes rest after post) :
    (skipCommas fuel >>= next).Passes (layout.separator ++ rest) after post := by
  unfold Layout.separator at hfuel ⊢
  rw [List.length_replicate] at hfuel
  exact (passes_skipCommas hrest hfuel).bind fun _ _ => h

end Document

/-! ### Arguments -/

namespace Argument

open Document Reader

variable {rest : List Token} {fuel : Nat} {layout : Layout}

/-- An argument starts with a token that opens. -/
theorem begins_tokens (argument : Argument) (hwritable : argument.Writable) (layout : Layout) :
    Begins (·.opens = true) (argument.tokens layout) := by
  cases hwritable with
  | @literal value _ =>
    rw [tokens, Literal.tokens]
    split
    · exact .cons rfl
    · cases value
      all_goals exact .cons rfl
  | enum _ _ =>
    rw [tokens]
    exact .cons (Token.opens_ofWord _)
  | var _ =>
    rw [tokens]
    exact .cons rfl
  | list _ =>
    rw [tokens]
    exact .cons rfl
  | object _ _ =>
    rw [tokens]
    exact .cons rfl

/-- The tokens of an argument are read as this argument. Each token pays for four readers inside
each other. -/
def ReadBack (argument : Argument) : Prop :=
  ∀ (layout : Layout) (fuel : Nat) (rest : List Token), rest ≠ [] →
    4 * (argument.tokens layout).length ≤ fuel →
      (readArgument fuel).Passes (argument.tokens layout ++ rest) rest (· = argument)

/-- Literals are read back. -/
theorem readBack_literal (value : Literal) : (literal value).ReadBack := by
  intro layout fuel rest hrest hfuel
  rw [tokens, Literal.tokens] at hfuel ⊢
  split at hfuel
  · rename_i hsign
    obtain ⟨fuel, rfl⟩ : ∃ less, fuel = less + 1 := ⟨fuel - 1, by simp at hfuel; omega⟩
    rw [if_pos hsign]
    unfold readArgument
    refine Passes.not_literal rfl (Passes.current (Passes.advance (List.cons_ne_nil _ _) ?_))
    exact Passes.negated hsign hrest (Passes.pure rfl)
  · rename_i hsign
    obtain ⟨fuel, rfl⟩ : ∃ less, fuel = less + 1 := ⟨fuel - 1, by simp at hfuel; omega⟩
    rw [if_neg hsign]
    unfold readArgument
    exact Passes.literal (Bool.eq_false_iff.mpr hsign) hrest (Passes.pure rfl)

/-- Members of enumerations are read back. -/
theorem readBack_enum {name : String} (hfree : Token.ofWord name = .identifier name) :
    (enum name).ReadBack := by
  intro layout fuel rest hrest hfuel
  rw [tokens, List.length_singleton] at hfuel
  obtain ⟨fuel, rfl⟩ : ∃ less, fuel = less + 1 := ⟨fuel - 1, by omega⟩
  rw [tokens, hfree]
  unfold readArgument
  refine Passes.not_literal rfl (Passes.current (Passes.advance hrest ?_))
  exact Passes.pure rfl

/-- Variables are read back. -/
theorem readBack_var (name : String) : (var name).ReadBack := by
  intro layout fuel rest hrest hfuel
  rw [tokens, List.length_singleton] at hfuel
  obtain ⟨fuel, rfl⟩ : ∃ less, fuel = less + 1 := ⟨fuel - 1, by omega⟩
  rw [tokens]
  unfold readArgument
  refine Passes.not_literal rfl (Passes.current (Passes.advance hrest ?_))
  exact Passes.pure rfl

/-- In front of items and a closing symbol there is no comma. -/
theorem begins_itemTokens {items : List Argument} (hwritable : ∀ item ∈ items, item.Writable)
    (layout : Layout) (rest : List Token) :
    Begins (· ≠ .symbol .comma) (itemTokens layout items ++ .symbol .rightBracket :: rest) := by
  cases items with
  | nil => exact .cons nofun
  | cons item others =>
    have hitem := begins_tokens item (hwritable item List.mem_cons_self) (layout.part 0)
    rw [itemTokens, List.append_assoc]
    exact (hitem.append _).imp fun token hopens => Token.ne_of_opens hopens rfl

/-- The items of a list are read back in front of the bracket that closes it. -/
theorem passes_items {items : List Argument} (hwritable : ∀ item ∈ items, item.Writable)
    (hreads : ∀ item ∈ items, item.ReadBack)
    (hfuel : 4 * (itemTokens layout items).length + 1 ≤ fuel) :
    (readItems fuel).Passes (itemTokens layout items ++ .symbol .rightBracket :: rest)
      (.symbol .rightBracket :: rest) (· = items) := by
  induction items generalizing layout fuel with
  | nil =>
    obtain ⟨fuel, rfl⟩ : ∃ less, fuel = less + 1 := ⟨fuel - 1, by omega⟩
    unfold readItems
    exact Passes.atSymbol (Passes.pure rfl)
  | cons item others ih =>
    obtain ⟨hitem, hothers⟩ := List.forall_mem_cons.mp hwritable
    obtain ⟨hread, hmore⟩ := List.forall_mem_cons.mp hreads
    obtain ⟨fuel, rfl⟩ : ∃ less, fuel = less + 1 := ⟨fuel - 1, by omega⟩
    have hleft := begins_itemTokens hothers (layout.part 1) rest
    obtain ⟨first, more, htokens, hopens⟩ := begins_tokens item hitem (layout.part 0)
    rw [itemTokens, List.length_append, List.length_append, htokens, List.length_cons] at hfuel
    have hread' := hread (layout.part 0) fuel
      (layout.separator ++ (itemTokens (layout.part 1) others ++ .symbol .rightBracket :: rest))
      (List.append_ne_nil_of_right_ne_nil _ hleft.ne_nil)
    rw [htokens, List.length_cons, List.cons_append] at hread'
    rw [itemTokens, List.append_assoc, List.append_assoc, htokens, List.cons_append]
    unfold readItems
    refine Passes.not_atSymbol (Token.ne_of_opens hopens rfl) ?_
    refine (hread' (by omega)).bind ?_
    rintro _ rfl
    refine passes_separator hleft (by omega) ?_
    refine (ih hothers hmore (by omega)).bind ?_
    rintro _ rfl
    exact Passes.pure rfl

/-- Members, or the symbol that closes them, can stand behind commas. -/
theorem begins_memberTokens {close : Symbol} (hclose : (Token.symbol close).Fresh)
    (members : List (String × Argument)) (layout : Layout) (rest : List Token) :
    Begins Token.Fresh (memberTokens layout members ++ .symbol close :: rest) := by
  cases members with
  | nil => exact .cons hclose
  | cons member others =>
    rw [memberTokens, List.cons_append]
    exact .cons (Token.fresh_of_opens (Token.opens_ofWord _) (Token.joins_ofWord _))

/-- Named values are read up to a closing symbol. -/
theorem passes_members {close : Symbol} {members : List (String × Argument)}
    (hclose : (Token.symbol close).Fresh) (hname : (Token.symbol close).name? = none)
    (hreads : ∀ member ∈ members, member.2.ReadBack)
    (hfuel : 4 * (memberTokens layout members).length + 1 ≤ fuel) :
    (readMembers close fuel).Passes (memberTokens layout members ++ .symbol close :: rest)
      (.symbol close :: rest) (· = members) := by
  induction members generalizing layout fuel with
  | nil =>
    obtain ⟨fuel, rfl⟩ : ∃ less, fuel = less + 1 := ⟨fuel - 1, by omega⟩
    unfold readMembers
    exact Passes.atSymbol (Passes.pure rfl)
  | cons member others ih =>
    obtain ⟨name, value⟩ := member
    obtain ⟨hread, hmore⟩ := List.forall_mem_cons.mp hreads
    change value.ReadBack at hread
    obtain ⟨fuel, rfl⟩ : ∃ less, fuel = less + 1 := ⟨fuel - 1, by omega⟩
    have hleft := begins_memberTokens hclose others (layout.part 1) rest
    rw [memberTokens, List.length_cons, List.length_cons, List.length_append,
      List.length_append] at hfuel
    have hvalue := hread (layout.part 0) fuel
      (layout.separator ++ (memberTokens (layout.part 1) others ++ .symbol close :: rest))
      (List.append_ne_nil_of_right_ne_nil _ hleft.ne_nil) (by omega)
    rw [memberTokens, List.cons_append, List.cons_append, List.append_assoc, List.append_assoc]
    unfold readMembers
    refine Passes.not_atSymbol (Token.ofWord_ne_symbol name hname) ?_
    refine Passes.name (Token.name_ofWord name) (List.cons_ne_nil _ _) ?_
    refine Passes.expect (List.append_ne_nil_of_right_ne_nil _
      (List.append_ne_nil_of_right_ne_nil _ hleft.ne_nil)) ?_
    refine hvalue.bind ?_
    rintro _ rfl
    refine passes_separator (hleft.imp fun token hfresh => hfresh.1) (by omega) ?_
    refine (ih hmore (by omega)).bind ?_
    rintro _ rfl
    exact Passes.pure rfl

/-- A list is read back if its items are. -/
theorem readBack_list {items : List Argument} (hwritable : ∀ item ∈ items, item.Writable)
    (hreads : ∀ item ∈ items, item.ReadBack) : (list items).ReadBack := by
  intro layout fuel rest hrest hfuel
  rw [tokens, List.length_cons, List.length_append, List.length_singleton] at hfuel
  obtain ⟨fuel, rfl⟩ : ∃ less, fuel = less + 1 := ⟨fuel - 1, by omega⟩
  rw [tokens, List.cons_append, List.append_assoc, List.singleton_append]
  unfold readArgument
  refine Passes.not_literal rfl (Passes.current (Passes.advance (by simp) ?_))
  refine (passes_items hwritable hreads (by omega)).bind ?_
  rintro _ rfl
  exact Passes.expect hrest (Passes.pure rfl)

/-- An object is read back if its members are. -/
theorem readBack_object {members : List (String × Argument)}
    (hreads : ∀ member ∈ members, member.2.ReadBack) : (object members).ReadBack := by
  intro layout fuel rest hrest hfuel
  rw [tokens, List.length_cons, List.length_append, List.length_singleton] at hfuel
  obtain ⟨fuel, rfl⟩ : ∃ less, fuel = less + 1 := ⟨fuel - 1, by omega⟩
  rw [tokens, List.cons_append, List.append_assoc, List.singleton_append]
  have hclose : (Token.symbol .rightBrace).Fresh := ⟨by simp, rfl⟩
  unfold readArgument
  refine Passes.not_literal rfl (Passes.current (Passes.advance (by simp) ?_))
  refine (passes_members hclose rfl hreads (by omega)).bind ?_
  rintro _ rfl
  exact Passes.expect hrest (Passes.pure rfl)

/-- The tokens of an argument that can be written are read as this argument. -/
theorem Writable.readBack {argument : Argument} (h : argument.Writable) : argument.ReadBack := by
  induction h with
  | literal _ => exact readBack_literal _
  | enum _ hfree => exact readBack_enum hfree
  | var _ => exact readBack_var _
  | list hitems ih => exact readBack_list hitems ih
  | object _ _ ih => exact readBack_object ih

/-- The arguments of a field are read where nothing but arguments starts with a parenthesis. -/
theorem passes_listTokens {arguments : List (String × Argument)}
    (h : ∀ member ∈ arguments, member.2.Writable)
    (hrest : Begins (· ≠ .symbol .leftParen) rest)
    (hfuel : 4 * (listTokens layout arguments).length ≤ fuel) :
    (readArguments fuel).Passes (listTokens layout arguments ++ rest) rest (· = arguments) := by
  unfold listTokens at hfuel ⊢
  unfold readArguments
  cases arguments with
  | nil => exact hrest.not_atSymbol (Passes.pure rfl)
  | cons member others =>
    have hclose : (Token.symbol .rightParen).Fresh := ⟨by simp, rfl⟩
    rw [List.isEmpty_cons, if_neg Bool.false_ne_true, List.length_cons, List.length_append,
      List.length_singleton] at hfuel
    rw [List.isEmpty_cons, if_neg Bool.false_ne_true, List.cons_append, List.append_assoc,
      List.singleton_append]
    refine Passes.atSymbol (Passes.advance (by simp) ?_)
    refine (passes_members hclose rfl (fun member hmember => (h member hmember).readBack)
      (by omega)).bind ?_
    rintro _ rfl
    exact Passes.expect hrest.ne_nil (Passes.pure rfl)

end Argument

/-! ### Selections -/

namespace Selection

open Document Reader

variable {rest : List Token} {fuel : Nat} {layout : Layout}

/-- The field of an optional alias and a name, in the order in which they are written. -/
def named (first : String) (second : Option String) (arguments : List (String × Argument))
    (selections : List Selection) (position : Position) : Selection :=
  .field (second.getD first) (second.map fun _ => first) arguments selections position

/-- The reader of a field after its name. -/
def readFieldRest (fuel : Nat) (start : Position) (first : String) (second : Option String) :
    Reader Selection := do
  let arguments ← readArguments fuel
  if ← atSymbol .leftBrace then
    let selections ← readSelectionSet fuel
    return named first second arguments selections start
  else return named first second arguments [] start

/-- The reader of a selection, in the words for what stands after a name. -/
theorem readSelection_succ (fuel : Nat) :
    readSelection (fuel + 1) = (do
      let start ← position
      if ← atSymbol .spread then
        advance
        let fragment ← Reader.name
        return .spread fragment start
      else
        let first ← Reader.name
        if ← atSymbol .colon then
          advance
          let second ← Reader.name
          readFieldRest fuel start first (some second)
        else readFieldRest fuel start first none) := by
  unfold readSelection readFieldRest
  rfl

/-- The tokens of a selection are read as this selection, but for positions. Each token pays for
four readers inside each other. -/
def ReadBack (selection : Selection) : Prop :=
  ∀ (layout : Layout) (fuel : Nat) (rest : List Token), Begins (·.joins = false) rest →
    4 * (selection.tokens layout).length ≤ fuel →
      (readSelection fuel).Passes (selection.tokens layout ++ rest) rest (·.bare = selection.bare)

/-- Two lists of selections are the same, but for positions. -/
def SameList (selections others : List Selection) : Prop :=
  bareList others = bareList selections

/-- A selection starts with a token that opens and goes on with nothing. -/
theorem begins_tokens (selection : Selection) (layout : Layout) :
    Begins (fun token => token.opens = true ∧ token.joins = false) (selection.tokens layout) := by
  cases selection with
  | spread fragment position =>
    rw [tokens]
    exact .cons ⟨rfl, rfl⟩
  | field name alias? arguments selections position =>
    rw [tokens]
    cases alias? with
    | none => exact .cons ⟨Token.opens_ofWord _, Token.joins_ofWord _⟩
    | some other => exact .cons ⟨Token.opens_ofWord _, Token.joins_ofWord _⟩

/-- Selections, or the brace that closes them, can stand behind commas. -/
theorem begins_listTokens (selections : List Selection) (layout : Layout) (rest : List Token) :
    Begins Token.Fresh (listTokens layout selections ++ .symbol .rightBrace :: rest) := by
  cases selections with
  | nil => exact .cons ⟨nofun, rfl⟩
  | cons selection others =>
    rw [listTokens, List.append_assoc]
    exact ((begins_tokens selection _).append _).imp fun token h => Token.fresh_of_opens h.1 h.2

/-- Selections are read up to the closing brace. -/
theorem passes_selections {selections : List Selection}
    (hreads : ∀ selection ∈ selections, selection.ReadBack)
    (hfuel : 4 * (listTokens layout selections).length + 1 ≤ fuel) :
    (readSelections fuel).Passes (listTokens layout selections ++ .symbol .rightBrace :: rest)
      (.symbol .rightBrace :: rest) (SameList selections) := by
  induction selections generalizing layout fuel with
  | nil =>
    obtain ⟨fuel, rfl⟩ : ∃ less, fuel = less + 1 := ⟨fuel - 1, by omega⟩
    unfold readSelections
    exact Passes.atSymbol (Passes.pure rfl)
  | cons selection others ih =>
    obtain ⟨hread, hmore⟩ := List.forall_mem_cons.mp hreads
    obtain ⟨fuel, rfl⟩ : ∃ less, fuel = less + 1 := ⟨fuel - 1, by omega⟩
    have hleft := begins_listTokens others (layout.part 1) rest
    obtain ⟨first, more, htokens, hopens, -⟩ := begins_tokens selection (layout.part 0)
    rw [listTokens, List.length_append, List.length_append] at hfuel
    have hlength : 1 ≤ (selection.tokens (layout.part 0)).length := by
      rw [htokens, List.length_cons]
      omega
    have hselection := hread (layout.part 0) fuel
      (layout.separator ++ (listTokens (layout.part 1) others ++ .symbol .rightBrace :: rest))
      ((hleft.imp fun token hfresh => hfresh.2).separated layout rfl) (by omega)
    have hend : first ≠ .eof := by
      rintro rfl
      cases hopens
    rw [listTokens, List.append_assoc, List.append_assoc]
    unfold readSelections
    rw [htokens, List.cons_append] at hselection ⊢
    refine Passes.not_atSymbol (Token.ne_of_opens hopens rfl) ?_
    refine Passes.not_atToken hend ?_
    refine hselection.bind fun found hfound => ?_
    refine passes_separator (hleft.imp fun token hfresh => hfresh.1) (by omega) ?_
    refine (ih hmore (by omega)).bind fun founds hfounds => Passes.pure ?_
    unfold SameList at hfounds ⊢
    rw [bareList, bareList, hfound, hfounds]

/-- Selections in braces are read. -/
theorem passes_set {selections : List Selection} (hrest : rest ≠ [])
    (hreads : ∀ selection ∈ selections, selection.ReadBack)
    (hfuel : 4 * (setTokens layout selections).length ≤ fuel) :
    (readSelectionSet fuel).Passes (setTokens layout selections ++ rest) rest
      (SameList selections) := by
  rw [setTokens, List.length_cons, List.length_append, List.length_singleton] at hfuel
  obtain ⟨fuel, rfl⟩ : ∃ less, fuel = less + 1 := ⟨fuel - 1, by omega⟩
  rw [setTokens, List.cons_append, List.append_assoc, List.singleton_append]
  unfold readSelectionSet
  refine Passes.expect (by simp) ?_
  refine (passes_selections hreads (by omega)).bind fun founds hfounds => ?_
  exact Passes.expect hrest (Passes.pure hfounds)

/-- The selections of a field start with a brace, if there are any. -/
theorem begins_innerTokens {kind : Token → Prop} (selections : List Selection)
    (hbrace : kind (.symbol .leftBrace)) (hrest : Begins kind rest) :
    Begins kind (innerTokens layout selections ++ rest) := by
  unfold innerTokens
  split
  · exact hrest
  · exact .cons hbrace

/-- What stands after the name of a field is read. -/
theorem passes_fieldRest {arguments : List (String × Argument)} {selections : List Selection}
    {start : Position} {first : String} {second : Option String}
    (harguments : ∀ member ∈ arguments, member.2.Writable)
    (hreads : ∀ selection ∈ selections, selection.ReadBack) (hrest : Begins (·.joins = false) rest)
    (hfuel : 4 * ((Argument.listTokens (layout.part 0) arguments).length +
      (innerTokens (layout.part 1) selections).length) ≤ fuel) :
    (readFieldRest fuel start first second).Passes
      (Argument.listTokens (layout.part 0) arguments ++
        (innerTokens (layout.part 1) selections ++ rest)) rest fun found =>
      found.bare = .field (second.getD first) (second.map fun _ => first) arguments
        (bareList selections) .start := by
  have hinner : Begins (· ≠ .symbol .leftParen)
      (innerTokens (layout.part 1) selections ++ rest) :=
    begins_innerTokens selections nofun (hrest.ne_symbol rfl)
  unfold readFieldRest
  refine (Argument.passes_listTokens harguments hinner (by omega)).bind ?_
  rintro _ rfl
  unfold innerTokens at hfuel ⊢
  split
  · rename_i hempty
    rw [List.isEmpty_iff] at hempty
    subst hempty
    refine (hrest.ne_symbol rfl).not_atSymbol (Passes.pure ?_)
    rw [named, bare]
  · rename_i hempty
    rw [if_neg hempty] at hfuel
    refine Passes.atSymbol ?_
    refine (passes_set hrest.ne_nil hreads (by omega)).bind fun founds hfounds => Passes.pure ?_
    unfold SameList at hfounds
    rw [named, bare, hfounds]

/-- The place of a fragment is read back. -/
theorem readBack_spread (fragment : String) (position : Position) :
    (spread fragment position).ReadBack := by
  intro layout fuel rest hrest hfuel
  rw [tokens, List.length_cons, List.length_singleton] at hfuel
  obtain ⟨fuel, rfl⟩ : ∃ less, fuel = less + 1 := ⟨fuel - 1, by omega⟩
  rw [tokens, readSelection_succ]
  refine Passes.position fun start => Passes.atSymbol ?_
  refine Passes.advance (List.cons_ne_nil _ _) ?_
  exact Passes.name (Token.name_ofWord fragment) hrest.ne_nil (Passes.pure rfl)

/-- A field is read back if its arguments can be written and its selections are read back. -/
theorem readBack_field {name : String} {alias? : Option String}
    {arguments : List (String × Argument)} {selections : List Selection} {position : Position}
    (harguments : ∀ member ∈ arguments, member.2.Writable)
    (hreads : ∀ selection ∈ selections, selection.ReadBack) :
    (field name alias? arguments selections position).ReadBack := by
  intro layout fuel rest hrest hfuel
  have hinner : Begins (· ≠ .symbol .colon) (innerTokens (layout.part 1) selections ++ rest) :=
    begins_innerTokens selections nofun (hrest.ne_symbol rfl)
  have hleft : Begins (· ≠ .symbol .colon) (Argument.listTokens (layout.part 0) arguments ++
      (innerTokens (layout.part 1) selections ++ rest)) := by
    unfold Argument.listTokens
    split
    · exact hinner
    · exact .cons nofun
  rw [tokens_field, List.length_append, List.length_cons, List.length_append] at hfuel
  obtain ⟨fuel, rfl⟩ : ∃ less, fuel = less + 1 := ⟨fuel - 1, by omega⟩
  rw [tokens_field, List.append_assoc, List.cons_append, List.append_assoc, readSelection_succ]
  refine Passes.position fun start => ?_
  cases alias? with
  | none =>
    refine Passes.not_atSymbol (Token.ofWord_ne_symbol name rfl) ?_
    refine Passes.name (Token.name_ofWord name) hleft.ne_nil (hleft.not_atSymbol ?_)
    exact passes_fieldRest harguments hreads hrest (by omega)
  | some other =>
    refine Passes.not_atSymbol (Token.ofWord_ne_symbol other rfl) ?_
    refine Passes.name (Token.name_ofWord other) (List.cons_ne_nil _ _) ?_
    refine Passes.atSymbol (Passes.advance (List.cons_ne_nil _ _) ?_)
    refine Passes.name (Token.name_ofWord name) hleft.ne_nil ?_
    exact passes_fieldRest harguments hreads hrest (by omega)

/-- The tokens of a selection that can be written are read as this selection, but for positions. -/
theorem Writable.readBack {selection : Selection} (h : selection.Writable) :
    selection.ReadBack := by
  induction h with
  | field _ _ _ hvalues _ ih => exact readBack_field hvalues ih
  | spread _ => exact readBack_spread _ _

end Selection

end TypedQuery
