import TypedQuery.Proofs.Document.Roundtrip
import TypedQuery.Proofs.Token.Yielding

/-!
# Documents that are read can be written

Every document that is read from a text can be written, and what is written of it is read as the
same document.
-/

namespace TypedQuery

open Document Reader

variable {fuel : Nat}

/-! ### Arguments -/

/-- The names of members are names, and their values can be written. -/
def Argument.MembersWritable (members : List (String × Argument)) : Prop :=
  ∀ member ∈ members, isName member.1 = true ∧ member.2.Writable

/-- With some fuel, all readers of arguments give what can be written. -/
structure ArgumentsYield (fuel : Nat) : Prop where
  argument : (readArgument fuel).Yields Argument.Writable
  items : (readItems fuel).Yields fun items => ∀ item ∈ items, item.Writable
  members : ∀ close, (readMembers close fuel).Yields Argument.MembersWritable

namespace ArgumentsYield

/-- Without fuel nothing is read. -/
theorem zero : ArgumentsYield 0 where
  argument := by
    unfold readArgument
    exact Yields.fail _
  items := by
    unfold readItems
    exact Yields.fail _
  members _ := by
    unfold readMembers
    exact Yields.fail _

/-- The reader of an argument gives what can be written if the readers with less fuel do. -/
theorem argument_succ (h : ArgumentsYield fuel) :
    (readArgument (fuel + 1)).Yields Argument.Writable := by
  unfold readArgument
  refine Yields.literal.bind fun found hfound => ?_
  split
  · exact Yields.pure (.literal (hfound _ rfl))
  · refine Yields.current.bind fun token htoken => ?_
    split
    · exact Yields.advance.bind fun _ _ => Yields.pure (.var htoken.proper)
    · refine Yields.advance.bind fun _ _ => Yields.negated.bind fun found hfound => ?_
      split
      · exact Yields.pure (.literal (hfound _ rfl))
      · exact Yields.fail _
    · have hname := htoken.proper
      exact Yields.advance.bind fun _ _ => Yields.pure (.enum hname.1 hname.2)
    · refine Yields.advance.bind fun _ _ => h.items.bind fun items hitems => ?_
      exact (Yields.expect _).bind fun _ _ => Yields.pure (.list hitems)
    · refine Yields.advance.bind fun _ _ => (h.members _).bind fun members hmembers => ?_
      refine (Yields.expect _).bind fun _ _ => Yields.pure (.object ?_ ?_)
      · exact fun member hmember => (hmembers member hmember).1
      · exact fun member hmember => (hmembers member hmember).2
    · exact Yields.fail _

end ArgumentsYield

/-- Skipping commas asks for nothing. -/
theorem yields_skipCommas (fuel : Nat) : (skipCommas fuel).Yields fun _ => True := by
  induction fuel with
  | zero =>
    unfold skipCommas
    exact Yields.fail _
  | succ fuel ih =>
    unfold skipCommas
    refine (Yields.atSymbol _).bind fun found _ => ?_
    split
    · exact Yields.advance.bind fun _ _ => ih
    · exact Yields.pure trivial

namespace ArgumentsYield

/-- The reader of items gives what can be written if the readers with less fuel do. -/
theorem items_succ (h : ArgumentsYield fuel) :
    (readItems (fuel + 1)).Yields fun items => ∀ item ∈ items, item.Writable := by
  unfold readItems
  refine (Yields.atSymbol _).bind fun found _ => ?_
  split
  · exact Yields.pure (List.forall_mem_nil _)
  · refine h.argument.bind fun item hitem => (yields_skipCommas _).bind fun _ _ => ?_
    refine h.items.bind fun items hitems => Yields.pure ?_
    exact List.forall_mem_cons.mpr ⟨hitem, hitems⟩

/-- The reader of members gives what can be written if the readers with less fuel do. -/
theorem members_succ (h : ArgumentsYield fuel) (close : Symbol) :
    (readMembers close (fuel + 1)).Yields Argument.MembersWritable := by
  unfold readMembers
  refine (Yields.atSymbol _).bind fun found _ => ?_
  split
  · exact Yields.pure (List.forall_mem_nil _)
  · refine Yields.name.bind fun member hmember => (Yields.expect _).bind fun _ _ => ?_
    refine h.argument.bind fun value hvalue => (yields_skipCommas _).bind fun _ _ => ?_
    refine (h.members close).bind fun members hmembers => Yields.pure ?_
    exact List.forall_mem_cons.mpr ⟨⟨hmember, hvalue⟩, hmembers⟩

end ArgumentsYield

/-- With any fuel, all readers of arguments give what can be written. -/
theorem argumentsYield (fuel : Nat) : ArgumentsYield fuel := by
  induction fuel with
  | zero => exact .zero
  | succ fuel ih => exact ⟨ih.argument_succ, ih.items_succ, ih.members_succ⟩

/-- Arguments that are read can be written. -/
theorem yields_readArguments (fuel : Nat) :
    (readArguments fuel).Yields Argument.MembersWritable := by
  unfold readArguments
  refine (Yields.atSymbol _).bind fun found _ => ?_
  split
  · refine Yields.advance.bind fun _ _ => ?_
    refine ((argumentsYield fuel).members _).bind fun members hmembers => ?_
    exact (Yields.expect _).bind fun _ _ => Yields.pure hmembers
  · exact Yields.pure nofun

/-! ### Selections -/

/-- With some fuel, all readers of selections give what can be written. -/
structure SelectionsYield (fuel : Nat) : Prop where
  set : (readSelectionSet fuel).Yields fun selections =>
    ∀ selection ∈ selections, selection.Writable
  selections : (readSelections fuel).Yields fun selections =>
    ∀ selection ∈ selections, selection.Writable
  selection : (readSelection fuel).Yields Selection.Writable

namespace SelectionsYield

/-- Without fuel no selection is read. -/
theorem zero : SelectionsYield 0 where
  set := by
    unfold readSelectionSet
    exact Yields.fail _
  selections := by
    unfold readSelections
    exact Yields.fail _
  selection := by
    unfold readSelection
    exact Yields.fail _

/-- The reader of selections in braces gives what can be written if the readers with less fuel do.
-/
theorem set_succ (h : SelectionsYield fuel) :
    (readSelectionSet (fuel + 1)).Yields fun selections =>
      ∀ selection ∈ selections, selection.Writable := by
  unfold readSelectionSet
  refine (Yields.expect _).bind fun _ _ => h.selections.bind fun selections hselections => ?_
  exact (Yields.expect _).bind fun _ _ => Yields.pure hselections

/-- The reader of selections gives what can be written if the readers with less fuel do. -/
theorem selections_succ (h : SelectionsYield fuel) :
    (readSelections (fuel + 1)).Yields fun selections =>
      ∀ selection ∈ selections, selection.Writable := by
  unfold readSelections
  refine (Yields.atSymbol _).bind fun found _ => ?_
  split
  · exact Yields.pure (List.forall_mem_nil _)
  · refine (Yields.atToken _).bind fun found _ => ?_
    split
    · exact Yields.fail _
    · refine h.selection.bind fun selection hselection => (yields_skipCommas _).bind fun _ _ => ?_
      refine h.selections.bind fun selections hselections => Yields.pure ?_
      exact List.forall_mem_cons.mpr ⟨hselection, hselections⟩

/-- A field with an alias and a field without one can be written. -/
theorem writable_named {first : String} {second : Option String}
    {arguments : List (String × Argument)} {selections : List Selection} {position : Position}
    (hfirst : isName first = true) (hsecond : ∀ name ∈ second, isName name = true)
    (harguments : Argument.MembersWritable arguments)
    (hselections : ∀ selection ∈ selections, selection.Writable) :
    (Selection.named first second arguments selections position).Writable := by
  have hnames : ∀ member ∈ arguments, isName member.1 = true :=
    fun member hmember => (harguments member hmember).1
  have hvalues : ∀ member ∈ arguments, member.2.Writable :=
    fun member hmember => (harguments member hmember).2
  cases second with
  | none => exact .field hfirst nofun hnames hvalues hselections
  | some name =>
    refine .field (hsecond name rfl) ?_ hnames hvalues hselections
    rintro _ ⟨⟩
    exact hfirst

/-- A field of a name that is read can be written. -/
theorem yields_fieldRest (h : SelectionsYield fuel) {start : Position} {first : String}
    {second : Option String} (hfirst : isName first = true)
    (hsecond : ∀ name ∈ second, isName name = true) :
    (Selection.readFieldRest fuel start first second).Yields Selection.Writable := by
  unfold Selection.readFieldRest
  refine (yields_readArguments _).bind fun arguments harguments => ?_
  refine (Yields.atSymbol _).bind fun found _ => ?_
  split
  · exact h.set.bind fun selections hselections =>
      Yields.pure (writable_named hfirst hsecond harguments hselections)
  · exact Yields.pure (writable_named hfirst hsecond harguments nofun)

/-- The reader of a selection gives what can be written if the readers with less fuel do. -/
theorem selection_succ (h : SelectionsYield fuel) :
    (readSelection (fuel + 1)).Yields Selection.Writable := by
  rw [Selection.readSelection_succ]
  refine Yields.position.bind fun start _ => (Yields.atSymbol _).bind fun found _ => ?_
  split
  · refine Yields.advance.bind fun _ _ => Yields.name.bind fun fragment hfragment => ?_
    exact Yields.pure (.spread hfragment)
  · refine Yields.name.bind fun first hfirst => (Yields.atSymbol _).bind fun found _ => ?_
    split
    · refine Yields.advance.bind fun _ _ => Yields.name.bind fun second hsecond => ?_
      refine h.yields_fieldRest hfirst ?_
      rintro _ ⟨⟩
      exact hsecond
    · exact h.yields_fieldRest hfirst nofun

end SelectionsYield

/-- With any fuel, all readers of selections give what can be written. -/
theorem selectionsYield (fuel : Nat) : SelectionsYield fuel := by
  induction fuel with
  | zero => exact .zero
  | succ fuel ih => exact ⟨ih.set_succ, ih.selections_succ, ih.selection_succ⟩

/-! ### Definitions -/

/-- What is read with a mark has what the text has with the mark and without it. -/
theorem TypeName.yields_mark {base : String} {post : String → Prop} (hmarked : post (base ++ "!"))
    (hbase : post base) : (readMark base).Yields post := by
  unfold readMark
  refine (Yields.atSymbol _).bind fun found _ => ?_
  split
  · exact Yields.advance.bind fun _ _ => Yields.pure hmarked
  · exact Yields.pure hbase

/-- What is read as the name of a type is the text of one. -/
theorem TypeName.yields_readTypeName (fuel : Nat) :
    (readTypeName fuel).Yields fun text => ∃ ty : TypeName, ty.Writable ∧ text = ty.text := by
  induction fuel with
  | zero =>
    unfold readTypeName
    exact Yields.fail _
  | succ fuel ih =>
    rw [readTypeName_succ]
    refine (Yields.atSymbol _).bind fun found _ => ?_
    split
    · refine Yields.advance.bind fun _ _ => ih.bind ?_
      rintro _ ⟨item, hitem, rfl⟩
      refine (Yields.expect _).bind fun _ _ => ?_
      exact yields_mark ⟨.list item true, hitem, rfl⟩ ⟨.list item false, hitem, rfl⟩
    · refine Yields.name.bind fun name hname => ?_
      exact yields_mark ⟨.word name true, hname, rfl⟩ ⟨.word name false, hname, rfl⟩

/-- Definitions of variables that are read can be written. -/
theorem VariableDefinition.yields_readVariables (fuel : Nat) :
    (readVariables fuel).Yields fun definitions =>
      ∀ definition ∈ definitions, definition.Writable := by
  induction fuel with
  | zero =>
    unfold readVariables
    exact Yields.fail _
  | succ fuel ih =>
    have hrest : ∀ {name typeName : String} {default? : Option Argument},
        (⟨name, typeName, default?⟩ : VariableDefinition).Writable →
          (readRest fuel name typeName default?).Yields fun definitions =>
            ∀ definition ∈ definitions, definition.Writable := by
      intro name typeName default? hdefinition
      unfold readRest
      refine (yields_skipCommas _).bind fun _ _ => ih.bind fun definitions hdefinitions => ?_
      exact Yields.pure (List.forall_mem_cons.mpr ⟨hdefinition, hdefinitions⟩)
    rw [readVariables_succ]
    refine Yields.current.bind fun token htoken => ?_
    split
    · exact Yields.pure nofun
    · refine Yields.advance.bind fun _ _ => (Yields.expect _).bind fun _ _ => ?_
      refine (TypeName.yields_readTypeName _).bind fun typeName htype => ?_
      refine (Yields.atSymbol _).bind fun found _ => ?_
      split
      · refine Yields.advance.bind fun _ _ => ?_
        refine (argumentsYield fuel).argument.bind fun value hvalue =>
          hrest ⟨htoken.proper, htype, ?_⟩
        rintro _ ⟨⟩
        exact hvalue
      · exact hrest ⟨htoken.proper, htype, nofun⟩
    · exact Yields.fail _

/-- An operation that is read can be written. -/
theorem Operation.yields_readOperation (fuel : Nat) (kind : OperationKind) :
    (readOperation fuel kind).Yields Operation.Writable := by
  have hbody : ∀ {name? : Option String} {vars : List VariableDefinition},
      (∀ name ∈ name?, isName name = true) → (∀ definition ∈ vars, definition.Writable) →
        (readBody fuel kind name? vars).Yields Operation.Writable := by
    intro name? vars hname hvars
    exact (selectionsYield fuel).set.bind fun selections hselections =>
      Yields.pure ⟨hname, hvars, hselections⟩
  have hheader : ∀ {name? : Option String}, (∀ name ∈ name?, isName name = true) →
      (readHeader fuel kind name?).Yields Operation.Writable := by
    intro name? hname
    unfold readHeader
    refine (Yields.atSymbol _).bind fun found _ => ?_
    split
    · refine Yields.advance.bind fun _ _ => ?_
      refine (VariableDefinition.yields_readVariables _).bind fun vars hvars => ?_
      exact (Yields.expect _).bind fun _ _ => hbody hname hvars
    · exact hbody hname nofun
  rw [readOperation_eq]
  refine (Yields.atSymbol _).bind fun _ _ => (Yields.atSymbol _).bind fun _ _ => ?_
  split
  · exact hheader nofun
  · refine Yields.name.bind fun name hname => hheader ?_
    rintro _ ⟨⟩
    exact hname

/-- A fragment that is read can be written. -/
theorem Fragment.yields_readFragment (fuel : Nat) :
    (readFragment fuel).Yields Fragment.Writable := by
  unfold readFragment
  refine Yields.name.bind fun fragment hfragment => Yields.current.bind fun found _ => ?_
  split
  · refine Yields.advance.bind fun _ _ => Yields.name.bind fun typeCondition htype => ?_
    exact (selectionsYield fuel).set.bind fun selections hselections =>
      Yields.pure ⟨hfragment, htype, hselections⟩
  · exact Yields.fail _

namespace Document

/-- All definitions of a document can be written. -/
def PartsWritable (document : Document) : Prop :=
  (∀ operation ∈ document.operations, operation.Writable) ∧
    ∀ fragment ∈ document.fragments, fragment.Writable

/-- All definitions that are read can be written. -/
theorem yields_readDefinitions (fuel : Nat) : (readDefinitions fuel).Yields PartsWritable := by
  induction fuel with
  | zero =>
    unfold readDefinitions
    exact Yields.fail _
  | succ fuel ih =>
    have hoperation : ∀ {operation : Operation}, operation.Writable →
        (do
          let document ← readDefinitions fuel
          return document.addOperation operation).Yields PartsWritable := by
      intro operation hoperation
      refine ih.bind fun document hdocument => Yields.pure ?_
      exact ⟨List.forall_mem_cons.mpr ⟨hoperation, hdocument.1⟩, hdocument.2⟩
    unfold readDefinitions
    refine Yields.current.bind fun token _ => ?_
    split
    · exact Yields.pure ⟨nofun, nofun⟩
    · exact (selectionsYield fuel).set.bind fun selections hselections =>
        hoperation ⟨nofun, nofun, hselections⟩
    · split
      · refine Yields.advance.bind fun _ _ => ?_
        exact (Operation.yields_readOperation _ _).bind fun operation h => hoperation h
      · split
        · refine Yields.advance.bind fun _ _ => ?_
          refine (Fragment.yields_readFragment _).bind fun fragment hfragment => ?_
          refine ih.bind fun document hdocument => Yields.pure ?_
          exact ⟨hdocument.1, List.forall_mem_cons.mpr ⟨hfragment, hdocument.2⟩⟩
        · exact Yields.fail _
    · exact Yields.fail _

/-- Reads definitions with some fuel, among them an operation. -/
def readAll (fuel : Nat) : Reader Document := do
  let document ← readDefinitions fuel
  if document.operations.isEmpty then fail .noOperations else return document

/-- The fuel for a whole text comes from the number of its tokens. -/
theorem readWhole_eq (cursor : Cursor) :
    readWhole cursor = readAll (fuelFor cursor.size) cursor := by
  unfold readWhole
  change StateT.bind _ _ cursor = _
  rfl

/-- A text is read as a document by reading all its tokens. -/
theorem read_eq_ok {source : String} {document : Document} :
    read source = .ok document ↔ ∃ cursor cursor', Cursor.ofSource source = .ok cursor ∧
      readWhole cursor = .ok (document, cursor') :=
  runFrom_eq_ok

/-- Every document that is read from a text can be written. -/
theorem writable_of_read {source : String} {document : Document} (h : read source = .ok document) :
    document.Writable := by
  obtain ⟨cursor, cursor', hcursor, hwhole⟩ := read_eq_ok.mp h
  have hyields : (readAll (fuelFor cursor.size)).Yields Writable := by
    unfold readAll
    refine (yields_readDefinitions _).bind fun found hfound => ?_
    split
    · exact Yields.fail _
    · rename_i hnonempty
      exact Yields.pure ⟨mt List.isEmpty_iff.mpr hnonempty, hfound.1, hfound.2⟩
  rw [readWhole_eq] at hwhole
  exact (hyields cursor document cursor' (Cursor.sound_ofSource hcursor) hwhole).2

/-- A text that writes definitions is read as the document of these definitions. -/
theorem read_of_writes {definitions : List Definition} {layout : Layout} {source : String}
    (h : (ofDefinitions definitions).Writable)
    (hsource : Writes (Definition.listTokens layout definitions) source.toList) :
    ∃ found, read source = .ok found ∧ found.bare = (ofDefinitions definitions).bare := by
  obtain ⟨cursor, hcursor, hsees⟩ := hsource.ofSource
  have hsize : cursor.size = (Definition.listTokens layout definitions).length + 1 := by
    rw [hsees.size, List.length_append, List.length_singleton]
  have hfuel : 4 * (Definition.listTokens layout definitions).length + 1 ≤
      fuelFor cursor.size := by
    rw [hsize]
    unfold fuelFor
    omega
  have hall : (readAll (fuelFor cursor.size)).Passes
      (Definition.listTokens layout definitions ++ [.eof]) [.eof]
      fun found => found.bare = (ofDefinitions definitions).bare := by
    unfold readAll
    refine (passes_definitions h.operations h.fragments hfuel).bind fun found hfound => ?_
    have hnonempty : found.operations.isEmpty = false := by
      have hcount := congrArg (fun document : Document => document.operations.isEmpty) hfound
      simp only [bare, List.isEmpty_map] at hcount
      rw [hcount]
      exact Bool.eq_false_iff.mpr (mt List.isEmpty_iff.mp h.nonempty)
    rw [if_neg (Bool.eq_false_iff.mp hnonempty)]
    exact Passes.pure hfound
  obtain ⟨found, cursor', hfound, -, hsame⟩ := hall cursor hsees
  rw [← readWhole_eq] at hfound
  exact ⟨found, read_eq_ok.mpr ⟨cursor, cursor', hcursor, hfound⟩, hsame⟩

/-- There is a text for all definitions of a document that can be written, in every layout. -/
theorem exists_source {definitions : List Definition} (h : (ofDefinitions definitions).Writable)
    (layout : Layout) :
    ∃ source : String, Writes (Definition.listTokens layout definitions) source.toList := by
  obtain ⟨text, hwrites, -⟩ :=
    exists_writes (Definition.writable_listTokens h.operations h.fragments layout)
  exact ⟨String.ofList text, by rwa [String.toList_ofList]⟩

/-- The definitions of a document, the operations before the fragments. -/
def definitions (document : Document) : List Definition :=
  document.operations.map .operation ++ document.fragments.map .fragment

/-- A document is that of its definitions. -/
theorem ofDefinitions_definitions (document : Document) :
    ofDefinitions document.definitions = document := by
  obtain ⟨operations, fragments⟩ := document
  have hfragments : ofDefinitions (fragments.map .fragment) = ⟨[], fragments⟩ := by
    induction fragments with
    | nil => rfl
    | cons fragment others ih => rw [List.map_cons, ofDefinitions, ih]; rfl
  unfold definitions
  induction operations with
  | nil => exact hfragments
  | cons operation others ih => rw [List.map_cons, List.cons_append, ofDefinitions, ih]; rfl

/-- Reading inverts writing: a document that can be written is read back, but for positions, from
all texts that write its definitions, in whatever order operations and fragments follow each other
and with as many commas as one likes. Every document that is read from a text can be written. -/
theorem read_inverts_printing :
    (∀ document : Document, document.Writable →
      (∃ definitions : List Definition, ofDefinitions definitions = document) ∧
        ∀ definitions : List Definition, ofDefinitions definitions = document →
          ∀ layout : Layout,
            (∃ source : String,
              Writes (Definition.listTokens layout definitions) source.toList) ∧
              ∀ source : String, Writes (Definition.listTokens layout definitions) source.toList →
                ∃ found, read source = .ok found ∧ found.bare = document.bare) ∧
      ∀ (source : String) (document : Document), read source = .ok document →
        document.Writable := by
  refine ⟨fun document hdocument => ⟨⟨_, ofDefinitions_definitions document⟩, ?_⟩,
    fun _ _ hread => writable_of_read hread⟩
  rintro definitions rfl layout
  exact ⟨exists_source hdocument layout, fun _ hsource => read_of_writes hdocument hsource⟩

/-- A fragment that is named after the word in its header stands between a query that is named after
its keyword and one without a keyword, with commas after some of the parts. -/
theorem read_inverts_printing_between :
    let value : Argument := .object [("x", .list [.literal (.integer (-2)), .enum "A", .var "min"])]
    let field : Selection :=
      .field "people" (some "if") [("null", value)] [.spread "on" .start] .start
    let query : Operation :=
      ⟨.query, some "query", [⟨"min", "[Int!]!", some (.literal (.integer 18))⟩], [field]⟩
    let short : Operation := ⟨.query, none, [], [field, field]⟩
    let fragment : Fragment := ⟨"on", "Person", [field]⟩
    let layout : Layout := ⟨fun way => way.length % 3, fun _ => false⟩
    let document : Document := ⟨[query, short], [fragment]⟩
    document.Writable ∧ ∃ (source : String) (found : Document),
      Writes (Definition.listTokens layout
        [.operation query, .fragment fragment, .operation short]) source.toList ∧
        read source = .ok found ∧ found.bare = document.bare := by
  intro value field query short fragment layout document
  have hname : ∀ name ∈ ["x", "A", "min", "people", "if", "null", "on", "query", "Int", "Person"],
      isName name = true := by decide
  have hfree : Token.ofWord "A" = .identifier "A" := by decide
  have hitems : ∀ item ∈ [.literal (.integer (-2)), .enum "A", .var "min"],
      Argument.Writable item :=
    List.forall_mem_cons.mpr ⟨.literal trivial, List.forall_mem_cons.mpr
      ⟨.enum (hname _ (by decide)) hfree, List.forall_mem_singleton.mpr
        (.var (hname _ (by decide)))⟩⟩
  have hvalue : value.Writable :=
    .object (List.forall_mem_singleton.mpr (hname _ (by decide)))
      (List.forall_mem_singleton.mpr (.list hitems))
  have halias : ∀ name ∈ some "if", isName name = true := by
    rintro _ ⟨⟩
    exact hname _ (by decide)
  have hfield : field.Writable :=
    .field (hname _ (by decide)) halias (List.forall_mem_singleton.mpr (hname _ (by decide)))
      (List.forall_mem_singleton.mpr hvalue)
      (List.forall_mem_singleton.mpr (.spread (hname _ (by decide))))
  have htype : ∃ ty : TypeName, ty.Writable ∧ "[Int!]!" = ty.text :=
    ⟨.list (.word "Int" true) true, hname _ (by decide), by decide⟩
  have hdefault : ∀ argument ∈ some (Argument.literal (.integer 18)), argument.Writable := by
    rintro _ ⟨⟩
    exact .literal trivial
  have hquery : query.Writable := by
    refine ⟨?_, List.forall_mem_singleton.mpr ⟨hname _ (by decide), htype, hdefault⟩,
      List.forall_mem_singleton.mpr hfield⟩
    rintro _ ⟨⟩
    exact hname _ (by decide)
  have hshort : short.Writable :=
    ⟨nofun, nofun, List.forall_mem_cons.mpr ⟨hfield, List.forall_mem_singleton.mpr hfield⟩⟩
  have hdocument : document.Writable :=
    ⟨List.cons_ne_nil _ _, List.forall_mem_cons.mpr ⟨hquery, List.forall_mem_singleton.mpr hshort⟩,
      List.forall_mem_singleton.mpr
        ⟨hname _ (by decide), hname _ (by decide), List.forall_mem_singleton.mpr hfield⟩⟩
  obtain ⟨⟨source, hsource⟩, hread⟩ := (read_inverts_printing.1 document hdocument).2
    [.operation query, .fragment fragment, .operation short] rfl layout
  obtain ⟨found, hfound, hsame⟩ := hread source hsource
  exact ⟨hdocument, source, found, hsource, hfound, hsame⟩

end Document

end TypedQuery
