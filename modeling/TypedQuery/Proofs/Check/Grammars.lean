import TypedQuery.Proofs.Document.Opening
import TypedQuery.Proofs.Expr.TestTexts

/-!
# Which grammar a checked text is read by

The first characters of a text decide whether it is taken for a document. No text is accepted by
both grammars, and for the texts that one of them accepts these characters tell by which one, with
exceptions: documents with a comment in front or with a comment or a sign right behind their first
word, and expressions that open with such a word and a blank or a parenthesis.
-/

namespace TypedQuery

variable {source : String} {text more left rest : List Char} {c : Char} {word : String}
  {kind : Char → Prop} {token : Token}

/-! ### The first characters -/

/-- The text starts with the word of a definition, and a character of a kind stands right behind
it. -/
def OpensWith (kind : Char → Prop) (text : List Char) : Prop :=
  ∃ word ∈ definitionWords, ∃ c rest, text = word.toList ++ c :: rest ∧ kind c

/-- The first character of such a word tells which one it is. -/
theorem exists_of_definitionWord (hword : word ∈ definitionWords) :
    ∃ c more, word.toList = c :: more ∧ c ∈ ['q', 'm', 'f'] ∧
      ∀ other ∈ definitionWords, other.toList.head? = some c → other = word := by
  rcases List.mem_cons.mp hword with rfl | hword
  · exact ⟨'q', "uery".toList, by decide, by decide, by decide⟩
  · rcases List.mem_cons.mp hword with rfl | hword
    · exact ⟨'m', "utation".toList, by decide, by decide, by decide⟩
    · rw [List.mem_singleton.mp hword]
      exact ⟨'f', "ragment".toList, by decide, by decide, by decide⟩

/-- The words of definitions start with three letters only. -/
theorem OpensWith.head_ne (h : OpensWith kind text) {mark : Char} (hmark : mark ∉ ['q', 'm', 'f']) :
    text.head? ≠ some mark := by
  obtain ⟨word, hword, d, rest, rfl, -⟩ := h
  obtain ⟨c, more, hchars, hhead, -⟩ := exists_of_definitionWord hword
  rw [hchars]
  rintro ⟨⟩
  exact hmark hhead

/-- Behind the word of a definition the next character decides. -/
theorem opensWith_word (hword : word ∈ definitionWords) :
    OpensWith kind (word.toList ++ c :: rest) ↔ kind c := by
  refine ⟨?_, fun h => ⟨word, hword, c, rest, rfl, h⟩⟩
  rintro ⟨other, hother, d, behind, hsame, hd⟩
  obtain ⟨first, more, hchars, -, hunique⟩ := exists_of_definitionWord hword
  obtain ⟨first', more', hchars', -, -⟩ := exists_of_definitionWord hother
  obtain rfl : other = word := by
    rw [hchars, hchars', List.cons_append, List.cons_append] at hsame
    refine hunique other hother ?_
    rw [hchars', (List.cons.inj hsame).1]
    rfl
  cases List.append_cancel_left hsame
  exact hd

/-- A text starts a definition if its word stands there with a blank, a brace or a parenthesis right
behind it. -/
theorem startsDefinition_iff : startsDefinition text word = true ↔
    ∃ c rest, text = word.toList ++ c :: rest ∧
      (Text.isBlank c = true ∨ c = '\x7b' ∨ c = '(') := by
  unfold startsDefinition
  rw [Bool.and_eq_true, List.isPrefixOf_iff_prefix]
  constructor
  · rintro ⟨⟨rest, rfl⟩, hbehind⟩
    rw [← String.length_toList, List.drop_left] at hbehind
    cases rest with
    | nil => cases hbehind
    | cons c rest =>
      simp only [Bool.or_eq_true, decide_eq_true_iff, or_assoc] at hbehind
      exact ⟨c, rest, rfl, hbehind⟩
  · rintro ⟨c, rest, rfl, hkind⟩
    rw [← String.length_toList, List.drop_left]
    refine ⟨List.prefix_append _ _, ?_⟩
    simp only [Bool.or_eq_true, decide_eq_true_iff, or_assoc]
    exact hkind

/-- A text is taken for a document if it opens, after blanks, with a brace or with the word of a
definition. -/
theorem isDocument_iff : isDocument source = true ↔
    (Text.trimStart source.toList).head? = some '\x7b' ∨
      OpensWith (fun c => Text.isBlank c = true ∨ c = '\x7b' ∨ c = '(')
        (Text.trimStart source.toList) := by
  unfold isDocument OpensWith
  simp only [Bool.or_eq_true, decide_eq_true_iff, List.any_eq_true, startsDefinition_iff]

/-! ### From characters to tokens -/

/-- Behind a gap stands what follows, unless there is a comment in the gap. -/
theorem trimStart_of_gap {gap : List Char} (hgap : Gap gap) (hblank : Text.isBlank c = false) :
    Text.trimStart (gap ++ c :: rest) = c :: rest ∨
      (Text.trimStart (gap ++ c :: rest)).head? = some '#' := by
  unfold Text.trimStart
  induction hgap with
  | nil => exact .inl (List.dropWhile_cons_of_neg (Bool.eq_false_iff.mp hblank))
  | blank hfirst _ ih =>
    rw [List.cons_append, List.dropWhile_cons_of_pos hfirst]
    exact ih
  | comment _ _ _ =>
    rw [List.cons_append, List.dropWhile_cons_of_neg (by decide)]
    exact .inr rfl

/-- Where no comment stands, blanks are skipped as they are trimmed. -/
theorem skipBlanks_of_trimStart (h : Text.trimStart text = c :: rest) (hmark : c ≠ '#') :
    skipBlanks false text = c :: rest := by
  induction text with
  | nil => cases h
  | cons d more ih =>
    unfold Text.trimStart at h ih
    unfold skipBlanks
    cases hblank : Text.isBlank d with
    | true =>
      rw [List.dropWhile_cons_of_pos hblank] at h
      exact ih h
    | false =>
      rw [List.dropWhile_cons_of_neg (Bool.eq_false_iff.mp hblank)] at h
      cases h
      rw [if_neg Bool.false_ne_true, if_neg Bool.false_ne_true, if_neg hmark]

/-- A brace is scanned as one. -/
theorem scanToken_brace (rest : List Char) :
    scanToken '\x7b' rest = .ok (.symbol .leftBrace, rest) := by
  have hscan : scanSymbol? ('\x7b' :: rest) = some (.leftBrace, rest) := by
    cases rest with
    | nil => rfl
    | cons d rest =>
      have hspread : ∀ last, '\x7b' = '.' → d = '.' → rest = '.' :: last → False := by
        rintro _ ⟨⟩
      rw [scanSymbol_of_ne_spread hspread]
      rfl
  unfold scanToken
  rw [hscan]

/-- Numbers are no names and no symbols. -/
theorem not_named_of_scanNumber (h : scanNumber text = .ok (token, left)) :
    token.name? = none ∧ ∀ symbol, token ≠ .symbol symbol := by
  unfold scanNumber at h
  dsimp only at h
  split at h
  · unfold integerToken at h
    split at h
    · cases h
      exact ⟨rfl, nofun⟩
    · cases h
  · unfold decimalToken at h
    split at h
    · cases h
      exact ⟨rfl, nofun⟩
    · cases h

/-- A token is a sign, a word, or something else that is no name. -/
theorem scanToken_cases (h : scanToken c (more ++ left) = .ok (token, left)) :
    (∃ symbol, token = .symbol symbol ∧ c :: more ∈ symbol.signs) ∨
      (∃ word, token = .ofWord word ∧ word.toList = c :: more ∧ isNameStart c = true ∧
        Stops isNamePart left) ∨
      token.name? = none ∧ ∀ symbol, token ≠ .symbol symbol := by
  unfold scanToken at h
  split at h
  · rename_i symbol left' hscan
    cases h
    have hcut : scanSymbol? ((c :: more) ++ (left ++ [])) = some (symbol, left ++ []) := by
      rw [List.append_nil]
      exact hscan
    exact .inl ⟨symbol, rfl, (scanSymbol_cut hcut).1⟩
  · split at h
    · let ofQuoted := fun chars => Token.text (String.ofList chars)
      obtain ⟨chars, -, rfl⟩ := Scanned.map_eq_ok (f := ofQuoted) h
      exact .inr (.inr ⟨rfl, nofun⟩)
    · split at h
      · rename_i hstart
        simp only [Except.ok.injEq, Prod.mk.injEq] at h
        obtain ⟨rfl, hleft⟩ := h
        obtain ⟨hmore, hstops⟩ := takeWhile_of_dropWhile hleft
        refine .inr (.inl ⟨_, rfl, ?_, hstart, hstops⟩)
        rw [String.toList_ofList, hmore]
      · refine .inr (.inr ?_)
        split at h
        · exact not_named_of_scanNumber h
        · split at h
          · split at h
            · simp only [Except.ok.injEq, Prod.mk.injEq] at h
              obtain ⟨rfl, -⟩ := h
              exact ⟨rfl, nofun⟩
            · cases h
          · split at h
            · cases h
            · split at h
              · cases h
              · cases h

/-! ### Documents and expressions -/

/-- What can stand behind the word of a definition is not the end. -/
theorem ne_eof_of_follows (h : Document.Follows token) : token ≠ .eof := by
  rintro rfl
  rcases h with hbrace | hparen | hnamed
  · cases hbrace
  · cases hparen
  · cases hnamed

/-- The signs that can stand behind the word of a definition start with few characters. -/
theorem head_of_follows {symbol : Symbol} (hfollows : Document.Follows (.symbol symbol))
    (hsign : c :: more ∈ symbol.signs) : c ∈ ['\x7b', '(', '&', '|'] := by
  have hall : symbol = .leftBrace ∨ symbol = .leftParen ∨
      (Token.symbol symbol).name?.isSome = true →
        (symbol.signs.all fun sign =>
          sign.head?.all fun c => c ∈ ['\x7b', '(', '&', '|']) = true := by
    cases symbol
    all_goals decide
  have hsymbol := hfollows.imp Token.symbol.inj (Or.imp_left Token.symbol.inj)
  simpa using List.all_eq_true.mp (hall hsymbol) _ hsign

/-- The characters that stand right behind the word of a definition in a document. -/
theorem exists_behind_word {next : Lexeme} {offset : Nat}
    (h : next.StandsIn text offset left) (hfollows : Document.Follows next.token)
    (hstops : Stops isNamePart text) :
    ∃ c rest, text = c :: rest ∧
      (Text.isBlank c = true ∨ c = '#' ∨ c ∈ ['\x7b', '(', '&', '|']) := by
  obtain ⟨gap, c, more, rfl, hgap, -, hscan, -, -⟩ := h
  cases hgap with
  | blank hblank hmore => exact ⟨_, _, rfl, .inl hblank⟩
  | comment _ _ => exact ⟨'#', _, rfl, .inr (.inl rfl)⟩
  | nil =>
    refine ⟨c, more ++ left, rfl, .inr (.inr ?_)⟩
    rcases scanToken_cases hscan with ⟨symbol, hsymbol, hsign⟩ | ⟨word, -, -, hstart, -⟩ |
      ⟨hname, hne⟩
    · rw [hsymbol] at hfollows
      exact head_of_follows hfollows hsign
    · have hpart := hstops c rfl
      rw [isNamePart_of_isNameStart hstart] at hpart
      cases hpart
    · rcases hfollows with hbrace | hparen | hnamed
      · exact absurd hbrace (hne _)
      · exact absurd hparen (hne _)
      · rw [hname] at hnamed
        cases hnamed

/-- How the text of a document starts, when no comment stands in front of it. -/
theorem start_of_document {document : Document} (h : Document.read source = .ok document) :
    (Text.trimStart source.toList).head? = some '#' ∨
      (Text.trimStart source.toList).head? = some '\x7b' ∨
        OpensWith (fun c => Text.isBlank c = true ∨ c = '#' ∨ c ∈ ['\x7b', '(', '&', '|'])
          (Text.trimStart source.toList) := by
  obtain ⟨c, hc, hopens, -⟩ := Document.opens_of_read h
  have hscanned := Cursor.scanned_ofSource hc
  obtain ⟨-, hsource, hstart⟩ := Cursor.lexemes_of_ofSource hc
  have hproper : c.current.token ≠ .eof := by
    intro heof
    cases hopens with
    | brace htoken =>
      rw [htoken] at heof
      cases heof
    | word _ htoken _ _ =>
      rw [htoken] at heof
      cases heof
  obtain ⟨hstands, -, place, hplace, hrest⟩ := hscanned.standsIn hproper
  obtain ⟨gap, first, more, htext, hgap, ⟨hblank, -⟩, hscan, -, -⟩ := hstands
  rw [hstart, hsource, List.drop_zero] at htext
  rcases trimStart_of_gap hgap hblank with htrim | hcomment
  · rw [htext, htrim]
    right
    cases hopens with
    | brace htoken =>
      rw [htoken] at hscan
      rcases scanToken_cases hscan with ⟨symbol, hsymbol, hsign⟩ | ⟨word, hword, -⟩ | ⟨-, hne⟩
      · cases hsymbol
        have hall : ∀ sign ∈ Symbol.leftBrace.signs, sign.head? = some '\x7b' := by decide
        exact .inl (hall (first :: more) hsign)
      · exact absurd hword.symm (Token.ofWord_ne_symbol word rfl)
      · exact absurd rfl (hne .leftBrace)
    | @word word next ahead hword htoken hahead hfollows =>
      rw [htoken] at hscan
      rcases scanToken_cases hscan with ⟨_, hsymbol, -⟩ | ⟨other, hother, hchars, -, hstops⟩ |
        ⟨hname, -⟩
      · cases hsymbol
      · obtain rfl : word = other := by
          have hname := Token.name_ofWord other
          rw [← hother] at hname
          exact Option.some.inj hname
        obtain ⟨hstands, -⟩ := (hscanned.next hproper hahead).standsIn (ne_eof_of_follows hfollows)
        obtain ⟨d, behind, hbehind, hkind⟩ := exists_behind_word hstands hfollows hstops
        rw [← hsource, hbehind, ← List.cons_append, ← hchars]
        exact .inr ⟨word, hword, d, behind, rfl, hkind⟩
      · cases hname
  · rw [htext]
    exact .inl hcomment

/-- The texts of documents that are taken for expressions. -/
theorem isDocument_eq_false_of_document {document : Document}
    (h : Document.read source = .ok document) :
    isDocument source = false ↔ (Text.trimStart source.toList).head? = some '#' ∨
      OpensWith (fun c => c = '#' ∨ c = '&' ∨ c = '|') (Text.trimStart source.toList) := by
  rw [← Bool.not_eq_true, isDocument_iff]
  rcases start_of_document h with hcomment | hbrace | ⟨word, hword, c, rest, htext, hkind⟩
  · refine iff_of_true ?_ (.inl hcomment)
    rintro (hbrace | hopens)
    · rw [hcomment] at hbrace
      cases hbrace
    · exact hopens.head_ne (by decide) hcomment
  · refine iff_of_false (fun hnot => hnot (.inl hbrace)) ?_
    rintro (hcomment | hopens)
    · rw [hcomment] at hbrace
      cases hbrace
    · exact hopens.head_ne (by decide) hbrace
  · have hopens : OpensWith (fun _ => True) (Text.trimStart source.toList) :=
      ⟨word, hword, c, rest, htext, trivial⟩
    rw [or_iff_right (hopens.head_ne (by decide)), or_iff_right (hopens.head_ne (by decide)),
      htext, opensWith_word hword, opensWith_word hword]
    simp only [List.mem_cons, List.not_mem_nil, or_false] at hkind
    constructor
    · tauto
    · rintro hmark (hblank | rfl | rfl)
      · rcases hmark with rfl | rfl | rfl
        all_goals cases hblank
      · exact absurd hmark (by decide)
      · exact absurd hmark (by decide)

/-- There is no brace in an expression. -/
theorem ne_leftBrace_of_expr {expr : Expr} (h : Expr.read source = .ok expr) {lexeme : Lexeme}
    (hmem : .ok lexeme ∈ lexemes source) : lexeme.token ≠ .symbol .leftBrace := by
  intro hbrace
  rcases Expr.isExpressive_of_read h hmem with hexpressive | heof
  · rw [hbrace] at hexpressive
    cases hexpressive
  · rw [hbrace] at heof
    cases heof

/-- A text that opens with a brace has the token of it. -/
theorem exists_brace (htext : Text.trimStart text = '\x7b' :: rest) (place : Position) :
    ∃ lexeme, .ok lexeme ∈ lexemesFrom place text ∧ lexeme.token = .symbol .leftBrace := by
  have hskip := skipBlanks_of_trimStart htext (by decide)
  rw [lexemesFrom_of_scan hskip rfl (scanToken_brace rest)]
  exact ⟨_, List.mem_cons_self, rfl⟩

/-- The word of a definition and a brace are the first tokens where they are the first
characters. -/
theorem exists_brace_behind_word (hword : word ∈ definitionWords)
    (htext : Text.trimStart text = word.toList ++ '\x7b' :: rest) (place : Position) :
    ∃ lexeme, .ok lexeme ∈ lexemesFrom place text ∧ lexeme.token = .symbol .leftBrace := by
  have hname : ∀ word ∈ definitionWords, isName word = true := by decide
  have hstops : Stops isNamePart ('\x7b' :: rest) := by
    rintro _ ⟨⟩
    decide
  obtain ⟨c, more, hchars, ⟨-, hmark⟩, hscan⟩ := scansTo_word (hname word hword) hstops
  rw [hchars] at htext
  have hskip : skipBlanks false text = c :: (more ++ '\x7b' :: rest) :=
    skipBlanks_of_trimStart htext hmark
  have htrim : Text.trimStart ('\x7b' :: rest) = '\x7b' :: rest :=
    List.dropWhile_cons_of_neg (by decide)
  rw [lexemesFrom_of_scan hskip rfl hscan]
  exact (exists_brace htrim _).imp fun lexeme h => ⟨List.mem_cons_of_mem _ h.1, h.2⟩

/-- The texts of expressions that are taken for documents. -/
theorem isDocument_of_expr {expr : Expr} (h : Expr.read source = .ok expr) :
    isDocument source = true ↔
      OpensWith (fun c => Text.isBlank c = true ∨ c = '(') (Text.trimStart source.toList) := by
  rw [isDocument_iff]
  constructor
  · rintro (hbrace | ⟨word, hword, c, rest, htext, hblank | rfl | hparen⟩)
    · obtain ⟨rest, htext⟩ := List.head?_eq_some_iff.mp hbrace
      obtain ⟨lexeme, hmem, hbrace⟩ := exists_brace htext .start
      exact absurd hbrace (ne_leftBrace_of_expr h hmem)
    · exact ⟨word, hword, c, rest, htext, .inl hblank⟩
    · obtain ⟨lexeme, hmem, hbrace⟩ := exists_brace_behind_word hword htext .start
      exact absurd hbrace (ne_leftBrace_of_expr h hmem)
    · exact ⟨word, hword, c, rest, htext, .inr hparen⟩
  · rintro ⟨word, hword, c, rest, htext, hblank | hparen⟩
    · exact .inr ⟨word, hword, c, rest, htext, .inl hblank⟩
    · exact .inr ⟨word, hword, c, rest, htext, .inr (.inr hparen)⟩

/-- No text is accepted by both grammars. -/
theorem not_both {document : Document} {expr : Expr} (h : Document.read source = .ok document) :
    Expr.read source ≠ .ok expr := by
  intro hread
  obtain ⟨-, -, -, lexeme, hlexeme, hbrace⟩ := Document.opens_of_read h
  exact ne_leftBrace_of_expr hread hlexeme hbrace

/-! ### What a check reports -/

/-- The outcome of a check is that the text is malformed: the check fails, or its output is that of
a document which fails as a whole. -/
def ReportsMalformed (outcome : EStateM.Result (Halt CheckFault) World CheckResult) : Prop :=
  ∃ error world, outcome = .error (.fault (.malformed error)) world ∨
    outcome = .error (.fault (.compile (.malformed error))) world ∨
    outcome = .ok (.output (failedEnvelope world.register (.malformed error))) world

/-- Checks find that a text is well-formed if they take it for what it is, and they report it as
malformed if they do not, whether they check the syntax or run it. -/
structure ChecksAs (source : String) (right : Bool) : Prop where
  valid : ∀ options world, options.query = source → options.syntaxOnly = true → right = true →
    check options world = .ok .valid world
  malformed : ∀ options world inputs, options.query = source →
    (options.syntaxOnly = true ∨ readInputs options = .ok inputs) → right = false →
      ReportsMalformed (check options world)

/-- A check of the syntax alone looks at the text and leaves the world. -/
theorem check_of_syntaxOnly {options : CheckOptions} (h : options.syntaxOnly = true)
    (world : World) :
    check options world = Halting.ofExcept (checkSyntax options.query) world := by
  unfold check
  rw [if_pos h]

/-- A text that is a document is checked as one exactly if it is taken for one. -/
theorem checksAs_of_document {document : Document} (h : Document.read source = .ok document) :
    ChecksAs source (isDocument source) := by
  constructor
  · rintro options world rfl honly hright
    rw [check_of_syntaxOnly honly]
    unfold checkSyntax
    rw [if_pos hright, h]
    rfl
  · rintro options world inputs rfl hmode hwrong
    obtain ⟨error, hread⟩ : ∃ error, Expr.read options.query = .error error := by
      cases hread : Expr.read options.query with
      | ok expr => exact absurd hread (not_both h)
      | error error => exact ⟨error, rfl⟩
    cases honly : options.syntaxOnly with
    | true =>
      refine ⟨error, world, .inl ?_⟩
      rw [check_of_syntaxOnly honly]
      unfold checkSyntax
      rw [hwrong, if_neg Bool.false_ne_true, hread]
      rfl
    | false =>
      obtain hinputs := hmode.resolve_left (by rw [honly]; exact Bool.false_ne_true)
      refine ⟨error, world, .inr (.inl ?_)⟩
      unfold check
      rw [honly, hinputs, hwrong, if_neg Bool.false_ne_true]
      unfold Query.compile Scope.compileSource Scope.compileText
      rw [hread]
      rfl

/-- A text that is an expression is checked as one exactly if it is not taken for a document. -/
theorem checksAs_of_expr {expr : Expr} (h : Expr.read source = .ok expr) :
    ChecksAs source (!isDocument source) := by
  constructor
  · rintro options world rfl honly hright
    rw [check_of_syntaxOnly honly]
    unfold checkSyntax
    rw [Bool.not_eq_true'] at hright
    rw [hright, if_neg Bool.false_ne_true, h]
    rfl
  · rintro options world inputs rfl hmode hwrong
    rw [Bool.not_eq_false'] at hwrong
    obtain ⟨error, hread⟩ : ∃ error, Document.read options.query = .error error := by
      cases hread : Document.read options.query with
      | ok document => exact absurd h (not_both hread)
      | error error => exact ⟨error, rfl⟩
    cases honly : options.syntaxOnly with
    | true =>
      refine ⟨error, world, .inl ?_⟩
      rw [check_of_syntaxOnly honly]
      unfold checkSyntax
      rw [hwrong, if_pos rfl, hread]
      rfl
    | false =>
      obtain hinputs := hmode.resolve_left (by rw [honly]; exact Bool.false_ne_true)
      refine ⟨error, { world with store := (Schema.ofSample inputs.1).2 }, .inr (.inr ?_)⟩
      unfold check
      rw [honly, hinputs, hwrong, if_neg Bool.false_ne_true]
      unfold Host.run Host.compileDocument
      rw [hread]
      rfl

/-- Documents and expressions are told apart by the first characters, up to these: a document is
taken for an expression if it opens with a comment, or if a comment or one of two signs stands right
behind its first word, and an expression is taken for a document if it opens with the word of a
definition and a blank or a parenthesis. Checks report such texts as malformed. -/
theorem grammar_of_accepted (source : String) :
    (∀ document, Document.read source = .ok document →
      (∀ expr, Expr.read source ≠ .ok expr) ∧
      (isDocument source = false ↔ (Text.trimStart source.toList).head? = some '#' ∨
        OpensWith (fun c => c = '#' ∨ c = '&' ∨ c = '|') (Text.trimStart source.toList)) ∧
      ChecksAs source (isDocument source)) ∧
    (∀ expr, Expr.read source = .ok expr →
      (isDocument source = true ↔
        OpensWith (fun c => Text.isBlank c = true ∨ c = '(') (Text.trimStart source.toList)) ∧
      ChecksAs source (!isDocument source)) :=
  ⟨fun _ h => ⟨fun _ => not_both h, isDocument_eq_false_of_document h, checksAs_of_document h⟩,
    fun _ h => ⟨isDocument_of_expr h, checksAs_of_expr h⟩⟩

/-- A field that is named as an operation, and a document behind a comment. -/
theorem grammar_of_accepted_misread :
    (∃ expr, Expr.read "query + 1" = .ok expr) ∧ isDocument "query + 1" = true ∧
      (∀ world, ReportsMalformed (check ⟨"query + 1", none, none, true⟩ world)) ∧
    (∃ document, Document.read "# all\n\x7b xs \x7d" = .ok document) ∧
      isDocument "# all\n\x7b xs \x7d" = false ∧
      ∀ world, ReportsMalformed (check ⟨"# all\n\x7b xs \x7d", none, none, true⟩ world) := by
  have hfield : (Expr.read "query + 1").isOk = true := by decide +kernel
  have hbehind : (Document.read "# all\n\x7b xs \x7d").isOk = true := by decide +kernel
  cases hexpr : Expr.read "query + 1" with
  | error fault =>
    rw [hexpr] at hfield
    cases hfield
  | ok expr =>
    cases hdocument : Document.read "# all\n\x7b xs \x7d" with
    | error fault =>
      rw [hdocument] at hbehind
      cases hbehind
    | ok document =>
      obtain ⟨htaken, hchecks⟩ := (grammar_of_accepted "query + 1").2 expr hexpr
      obtain ⟨-, htaken', hchecks'⟩ :=
        (grammar_of_accepted "# all\n\x7b xs \x7d").1 document hdocument
      have hquery : isDocument "query + 1" = true :=
        htaken.mpr ⟨"query", List.mem_cons_self, ' ', "+ 1".toList, by decide, by decide⟩
      have hcomment : isDocument "# all\n\x7b xs \x7d" = false := htaken'.mpr (.inl (by decide))
      have hwrong : (!isDocument "query + 1") = false := by rw [hquery]; rfl
      exact ⟨⟨expr, rfl⟩, hquery,
        fun world => hchecks.malformed _ world (.null, []) rfl (.inl rfl) hwrong,
        ⟨document, rfl⟩, hcomment,
        fun world => hchecks'.malformed _ world (.null, []) rfl (.inl rfl) hcomment⟩

end TypedQuery
