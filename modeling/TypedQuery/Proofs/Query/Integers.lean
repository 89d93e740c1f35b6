import TypedQuery.Proofs.Document.Readable
import TypedQuery.Proofs.Expr.Readable
import TypedQuery.Proofs.Token.Integers
import TypedQuery.Query

/-!
# Numerals in queries and documents

A numeral in the signed range of 64 bits is an expression that gives just this number, and the value
of an argument that is just this number. Beyond the range neither an expression nor a document with
the numeral is read.
-/

namespace TypedQuery

open Reader

variable {spelling : IntegerSpelling} {gap rest : List Char} {tokens : List Token}

/-! ### Numerals as expressions -/

namespace Expr

/-- Digits in range are read as the literal of their number. -/
theorem Reads.unsigned {bound : Nat} (h : spelling.Fits) (hsign : spelling.negative = false) :
    Reads bound .path [spelling.token] (.literal (.integer spelling.value)) := by
  have hsymbol : ∀ symbol, spelling.token ≠ .symbol symbol := fun symbol => nofun
  refine Reads.of_primary ⟨hsymbol _, hsymbol _, hsymbol _⟩ fun fuel next rest hfuel _ _ => ?_
  obtain ⟨fuel, rfl⟩ : ∃ less, fuel = less + 1 := ⟨fuel - 1, by omega⟩
  unfold readPrimary
  refine (spelling.passes_literal h hsign (List.cons_ne_nil _ _)).bind ?_
  rintro _ rfl
  exact Passes.pure rfl

/-- A sign and digits in range are read as the literal of the negative number. -/
theorem Reads.signed {bound : Nat} (h : spelling.Fits) (hsign : spelling.negative = true) :
    Reads bound .signed [.symbol .minus, spelling.token] (.literal (.integer spelling.value)) := by
  intro fuel next rest after post hfuel _ _ hresume
  rw [List.length_cons, List.length_singleton] at hfuel hresume
  change _ ≤ fuel + 2 * 8 at hfuel
  obtain ⟨fuel, rfl⟩ : ∃ less, fuel = less + 1 := ⟨fuel - 1, by omega⟩
  change (readSigned (fuel + 1)).Passes (.symbol .minus :: spelling.token :: next :: rest) _ _
  unfold readSigned
  refine Passes.current (Passes.advance (List.cons_ne_nil _ _) ?_)
  refine (spelling.passes_negated h hsign (List.cons_ne_nil _ _)).bind ?_
  rintro _ rfl
  exact hresume (fuel + 1) _ (by omega) rfl

/-- A numeral in the range is read as a literal. -/
theorem Reads.numeral {bound : Nat} (h : spelling.Fits) :
    Reads bound .any spelling.tokens (.literal (.integer spelling.value)) := by
  unfold IntegerSpelling.tokens
  cases hsign : spelling.negative with
  | false => exact (Reads.unsigned h hsign).of_le (Nat.zero_le _)
  | true => exact (Reads.signed h hsign).of_le (Nat.zero_le _)

section Beyond

variable (h : ¬spelling.Fits) (hrest : IntegerSpelling.Ends rest) (hgap : Gap gap)
  (start : Position)

include h hrest hgap

/-- A sign, or an operand without one, does not make a numeral beyond the range a literal. -/
theorem faults_signed (fuel : Nat) :
    (readSigned fuel).Faults (lexemesFrom start (gap ++ (spelling.chars ++ rest))) := by
  cases fuel with
  | zero =>
    unfold readSigned
    exact Faults.fail _
  | succ fuel =>
    refine spelling.faults h hrest hgap (fun lexeme more htoken hliteral => ?_)
      (fun lexeme more hminus hmore hnegated => ?_) start
    · have hprimary : (readPrimary fuel).Faults (.ok lexeme :: more) := by
        cases fuel with
        | zero =>
          unfold readPrimary
          exact Faults.fail _
        | succ fuel =>
          unfold readPrimary
          exact hliteral.bind
      unfold readSigned
      refine Faults.current ?_
      rw [htoken]
      exact hprimary.bind
    · unfold readSigned
      refine Faults.current ?_
      rw [hminus]
      exact Faults.advance hmore hnegated.bind

/-- No reader of powers comes past digits out of range. -/
theorem faults_power (fuel : Nat) :
    (readPower fuel).Faults (lexemesFrom start (gap ++ (spelling.chars ++ rest))) := by
  cases fuel with
  | zero =>
    unfold readPower
    exact Faults.fail _
  | succ fuel =>
    unfold readPower
    exact (faults_signed h hrest hgap start fuel).bind

/-- No reader of a level comes past digits out of range. -/
theorem faults_level (fuel : Nat) (level : Level) :
    (readLevel fuel level).Faults (lexemesFrom start (gap ++ (spelling.chars ++ rest))) ∧
      (readOperand fuel level).Faults
        (lexemesFrom start (gap ++ (spelling.chars ++ rest))) := by
  induction fuel generalizing level with
  | zero =>
    unfold readLevel readOperand
    exact ⟨Faults.fail _, Faults.fail _⟩
  | succ fuel ih =>
    constructor
    · unfold readLevel
      exact (ih level).2.bind
    · unfold readOperand
      split
      · exact (ih _).1
      · exact faults_power h hrest hgap start fuel

/-- No reader of expressions comes past digits out of range. -/
theorem faults_any (fuel : Nat) :
    (readAny fuel).Faults (lexemesFrom start (gap ++ (spelling.chars ++ rest))) := by
  cases fuel with
  | zero =>
    unfold readAny
    exact Faults.fail _
  | succ fuel =>
    unfold readAny
    exact Faults.position fun here => (faults_level h hrest hgap start fuel .or).1.bind

end Beyond

/-- A numeral in the range is read as its number. -/
theorem read_numeral (h : spelling.Fits) :
    read spelling.text = .ok (.literal (.integer spelling.value)) := by
  obtain ⟨cursor, hcursor, hsees⟩ := spelling.sees_text h.magnitude_lt
  obtain ⟨expr, hread, hsame⟩ := read_of_sees (Reads.numeral h) hcursor hsees
  rw [hread]
  unfold Same at hsame
  cases expr with
  | literal value => exact congrArg Except.ok hsame
  | _ => cases hsame

/-- A numeral beyond the range is not read. -/
theorem read_beyond (h : ¬spelling.Fits) : ∃ error, read spelling.text = .error error := by
  have hfaults (fuel : Nat) : (readAny fuel).Faults (lexemes spelling.text) := by
    have hany := faults_any h IntegerSpelling.ends_nil .nil Position.start fuel
    rwa [← spelling.lexemes_text] at hany
  refine Faults.runFrom_eq_error fun lexeme more source stop hahead => ?_
  rw [readWhole_eq]
  unfold readAll
  exact (hfaults _).bind lexeme more source stop hahead

end Expr

/-! ### Numerals as arguments -/

namespace Document

/-- A numeral in the range is read as the value of an argument. -/
theorem passes_numeral (h : spelling.Fits) (htokens : tokens ≠ []) (fuel : Nat) :
    (readArgument (fuel + 1)).Passes (spelling.tokens ++ tokens) tokens
      (· = .literal (.integer spelling.value)) := by
  unfold IntegerSpelling.tokens readArgument
  cases hsign : spelling.negative with
  | false =>
    refine (spelling.passes_literal h hsign htokens).bind ?_
    rintro _ rfl
    exact Passes.pure rfl
  | true =>
    refine Passes.not_literal rfl (Passes.current (Passes.advance (List.cons_ne_nil _ _) ?_))
    refine (spelling.passes_negated h hsign htokens).bind ?_
    rintro _ rfl
    exact Passes.pure rfl

/-- A numeral beyond the range is no value of an argument. -/
theorem faults_numeral (h : ¬spelling.Fits) (hrest : IntegerSpelling.Ends rest) (hgap : Gap gap)
    (start : Position) (fuel : Nat) :
    (readArgument fuel).Faults (lexemesFrom start (gap ++ (spelling.chars ++ rest))) := by
  cases fuel with
  | zero =>
    unfold readArgument
    exact Faults.fail _
  | succ fuel =>
    unfold readArgument
    refine spelling.faults h hrest hgap (fun lexeme more _ hliteral => hliteral.bind)
      (fun lexeme more hminus hmore hnegated => ?_) start
    refine IntegerSpelling.faults_minus hminus (Faults.current ?_)
    rw [hminus]
    exact Faults.advance hmore hnegated.bind

/-- A query with one field and one argument, up to its value. -/
def opening (field argument : String) : List Token :=
  [.symbol .leftBrace, .ofWord field, .symbol .leftParen, .ofWord argument, .symbol .colon]

/-- What closes the argument and the query. -/
def closing : List Token :=
  [.symbol .rightParen, .symbol .rightBrace]

/-- A document that is a query with one field and one argument. -/
def ofArgument (field argument : String) (value : Argument) (position : Position) : Document :=
  ⟨[⟨.query, none, [], [.field field none [(argument, value)] [] position]⟩], []⟩

variable {field argument : String} {value : Argument} {fuel : Nat}

/-- A word is not the end of the text. -/
theorem ofWord_ne_eof (word : String) : Token.ofWord word ≠ .eof := by
  intro hword
  have hopens := Token.opens_ofWord word
  rw [hword] at hopens
  cases hopens

/-- An argument in parentheses is read. -/
theorem passes_arguments {before : List Token} (htokens : tokens ≠ []) (hbefore : before ≠ [])
    (hvalue : (readArgument (fuel + 1)).Passes before (.symbol .rightParen :: tokens)
      (· = value)) :
    (readArguments (fuel + 2)).Passes
      (.symbol .leftParen :: .ofWord argument :: .symbol .colon :: before) tokens
      (· = [(argument, value)]) := by
  have hcommas : (skipCommas (fuel + 1)).Passes (.symbol .rightParen :: tokens)
      (.symbol .rightParen :: tokens) (fun _ => True) := by
    unfold skipCommas
    exact Passes.not_atSymbol (by decide) (Passes.pure trivial)
  have hend : (readMembers .rightParen (fuel + 1)).Passes (.symbol .rightParen :: tokens)
      (.symbol .rightParen :: tokens) (· = []) := by
    unfold readMembers
    exact Passes.atSymbol (Passes.pure rfl)
  have hmembers : (readMembers .rightParen (fuel + 2)).Passes
      (.ofWord argument :: .symbol .colon :: before) (.symbol .rightParen :: tokens)
      (· = [(argument, value)]) := by
    unfold readMembers
    refine Passes.not_atSymbol (Token.ofWord_ne_symbol argument rfl) ?_
    refine Passes.name (Token.name_ofWord argument) (List.cons_ne_nil _ _) ?_
    refine Passes.expect hbefore (hvalue.bind ?_)
    rintro _ rfl
    refine hcommas.bind fun _ _ => hend.bind ?_
    rintro _ rfl
    exact Passes.pure rfl
  unfold readArguments
  refine Passes.atSymbol (Passes.advance (List.cons_ne_nil _ _) (hmembers.bind ?_))
  rintro _ rfl
  exact Passes.expect htokens (Passes.pure rfl)

/-- A query with one field and one argument is read. -/
theorem passes_ofArgument {before : List Token} (hbefore : before ≠ [])
    (hvalue : (readArgument (fuel + 1)).Passes before (closing ++ [.eof]) (· = value)) :
    (readDefinitions (fuel + 6)).Passes (opening field argument ++ before) [.eof]
      fun found => ∃ position, found = ofArgument field argument value position := by
  have hselection : (readSelection (fuel + 3)).Passes
      (.ofWord field :: .symbol .leftParen :: .ofWord argument :: .symbol .colon :: before)
      [.symbol .rightBrace, .eof] fun found =>
        ∃ position, found = .field field none [(argument, value)] [] position := by
    rw [Selection.readSelection_succ]
    refine Passes.position fun start => ?_
    refine Passes.not_atSymbol (Token.ofWord_ne_symbol field rfl) ?_
    refine Passes.name (Token.name_ofWord field) (List.cons_ne_nil _ _) ?_
    refine Passes.not_atSymbol (by decide) ?_
    unfold Selection.readFieldRest
    refine (passes_arguments (List.cons_ne_nil _ _) hbefore hvalue).bind ?_
    rintro _ rfl
    exact Passes.not_atSymbol (by decide) (Passes.pure ⟨start, rfl⟩)
  have hcommas : (skipCommas (fuel + 3)).Passes [.symbol .rightBrace, .eof]
      [.symbol .rightBrace, .eof] (fun _ => True) := by
    unfold skipCommas
    exact Passes.not_atSymbol (by decide) (Passes.pure trivial)
  have hend : (readSelections (fuel + 3)).Passes [.symbol .rightBrace, .eof]
      [.symbol .rightBrace, .eof] (· = []) := by
    unfold readSelections
    exact Passes.atSymbol (Passes.pure rfl)
  have hselections : (readSelections (fuel + 4)).Passes
      (.ofWord field :: .symbol .leftParen :: .ofWord argument :: .symbol .colon :: before)
      [.symbol .rightBrace, .eof] fun found =>
        ∃ position, found = [.field field none [(argument, value)] [] position] := by
    unfold readSelections
    refine Passes.not_atSymbol (Token.ofWord_ne_symbol field rfl) ?_
    refine Passes.not_atToken (ofWord_ne_eof field) ?_
    refine hselection.bind ?_
    rintro _ ⟨position, rfl⟩
    refine hcommas.bind fun _ _ => hend.bind ?_
    rintro _ rfl
    exact Passes.pure ⟨position, rfl⟩
  have hset : (readSelectionSet (fuel + 5)).Passes (opening field argument ++ before) [.eof]
      fun found => ∃ position, found = [.field field none [(argument, value)] [] position] := by
    unfold readSelectionSet
    refine Passes.expect (List.cons_ne_nil _ _) (hselections.bind ?_)
    rintro _ ⟨position, rfl⟩
    exact Passes.expect (List.cons_ne_nil _ _) (Passes.pure ⟨position, rfl⟩)
  have hlast : (readDefinitions (fuel + 5)).Passes [.eof] [.eof] (· = empty) := by
    unfold readDefinitions
    exact Passes.current (Passes.pure rfl)
  -- the reader of definitions, put together from the parts
  unfold readDefinitions
  refine Passes.current (hset.bind ?_)
  rintro _ ⟨position, rfl⟩
  refine hlast.bind ?_
  rintro _ rfl
  exact Passes.pure ⟨position, rfl⟩

section Faults

variable {brace name paren member colon : Lexeme} {ahead : List (Except ScanError Lexeme)}

/-- A fault in the value of an argument is one in the parentheses. -/
theorem faults_arguments (hparen : paren.token = .symbol .leftParen)
    (hmember : member.token = .ofWord argument) (hcolon : colon.token = .symbol .colon)
    (hahead : ahead ≠ []) (hvalue : ∀ fuel, (readArgument fuel).Faults ahead) (fuel : Nat) :
    (readArguments fuel).Faults (.ok paren :: .ok member :: .ok colon :: ahead) := by
  have hmembers : (readMembers .rightParen fuel).Faults (.ok member :: .ok colon :: ahead) := by
    cases fuel with
    | zero =>
      unfold readMembers
      exact Faults.fail _
    | succ fuel =>
      unfold readMembers
      refine Faults.not_atSymbol (hmember ▸ Token.ofWord_ne_symbol argument rfl) ?_
      refine Faults.name (hmember ▸ Token.name_ofWord argument) (List.cons_ne_nil _ _) ?_
      exact Faults.expect hcolon hahead (hvalue fuel).bind
  unfold readArguments
  exact Faults.atSymbol hparen (Faults.advance (List.cons_ne_nil _ _) hmembers.bind)

/-- A fault in the value of the argument is a fault in the query. -/
theorem faults_ofArgument (hbrace : brace.token = .symbol .leftBrace)
    (hname : name.token = .ofWord field)
    (harguments : ∀ fuel, (readArguments fuel).Faults (.ok paren :: ahead))
    (hparen : paren.token = .symbol .leftParen) (fuel : Nat) :
    (readDefinitions fuel).Faults (.ok brace :: .ok name :: .ok paren :: ahead) := by
  have hselection (fuel : Nat) :
      (readSelection fuel).Faults (.ok name :: .ok paren :: ahead) := by
    cases fuel with
    | zero =>
      unfold readSelection
      exact Faults.fail _
    | succ fuel =>
      rw [Selection.readSelection_succ]
      refine Faults.position fun start => ?_
      refine Faults.not_atSymbol (hname ▸ Token.ofWord_ne_symbol field rfl) ?_
      refine Faults.name (hname ▸ Token.name_ofWord field) (List.cons_ne_nil _ _) ?_
      exact Faults.not_atSymbol (by simp [hparen]) (harguments fuel).bind
  have hselections (fuel : Nat) :
      (readSelections fuel).Faults (.ok name :: .ok paren :: ahead) := by
    cases fuel with
    | zero =>
      unfold readSelections
      exact Faults.fail _
    | succ fuel =>
      unfold readSelections
      refine Faults.not_atSymbol (hname ▸ Token.ofWord_ne_symbol field rfl) ?_
      exact Faults.not_atToken (hname ▸ ofWord_ne_eof field) (hselection fuel).bind
  have hset (fuel : Nat) :
      (readSelectionSet fuel).Faults (.ok brace :: .ok name :: .ok paren :: ahead) := by
    cases fuel with
    | zero =>
      unfold readSelectionSet
      exact Faults.fail _
    | succ fuel =>
      unfold readSelectionSet
      exact Faults.expect hbrace (List.cons_ne_nil _ _) (hselections fuel).bind
  cases fuel with
  | zero =>
    unfold readDefinitions
    exact Faults.fail _
  | succ fuel =>
    unfold readDefinitions
    refine Faults.current ?_
    rw [hbrace]
    exact (hset fuel).bind

end Faults

/-- A text opens a query with one field and one argument for all names. -/
theorem writesBefore_opening (hfield : isName field = true) (hargument : isName argument = true)
    (behind : List Char) :
    WritesBefore behind (opening field argument)
      ('\x7b' :: (field.toList ++ '(' :: (argument.toList ++ ':' :: behind))) := by
  have hcolon : Stops isNamePart (':' :: behind) := by
    intro c hc
    cases hc
    decide
  have hparen : Stops isNamePart ('(' :: (argument.toList ++ ':' :: behind)) := by
    intro c hc
    cases hc
    decide
  exact .cons .nil (Token.spelled_of_mem_solitary (by decide) (by decide) _)
    (.cons .nil (.word hfield hparen)
      (.cons .nil (Token.spelled_of_mem_solitary (by decide) (by decide) _)
        (.cons .nil (.word hargument hcolon)
          (.cons .nil (Token.spelled_of_mem_solitary (by decide) (by decide) _) .nil))))

/-- The arguments and the selections are closed by a parenthesis and a brace. -/
theorem writes_closing : Writes closing [')', '\x7d'] :=
  .cons .nil (Token.spelled_of_mem_solitary (by decide) (by decide) _)
    (.cons .nil (Token.spelled_of_mem_solitary (by decide) (by decide) _) (.nil .nil))

/-- A query with one field and one argument is read from what is left of a text. -/
theorem read_ofArgument {source : String} {cursor : Cursor} {before : List Token}
    (hcursor : Cursor.ofSource source = .ok cursor)
    (hsees : cursor.Sees (opening field argument ++ before)) (hbefore : before ≠ [])
    (hvalue : ∀ fuel, (readArgument (fuel + 1)).Passes before (closing ++ [.eof]) (· = value)) :
    ∃ position, read source = .ok (ofArgument field argument value position) := by
  obtain ⟨fuel, hfuel⟩ : ∃ fuel, fuelFor cursor.size = fuel + 6 := by
    refine ⟨fuelFor cursor.size - 6, ?_⟩
    unfold fuelFor Cursor.size
    omega
  have hall : (readAll (fuelFor cursor.size)).Passes (opening field argument ++ before) [.eof]
      fun found => ∃ position, found = ofArgument field argument value position := by
    rw [hfuel]
    unfold readAll
    refine (passes_ofArgument hbefore (hvalue fuel)).bind ?_
    rintro _ ⟨position, rfl⟩
    exact Passes.pure ⟨position, rfl⟩
  obtain ⟨found, cursor', hfound, -, position, rfl⟩ := hall cursor hsees
  rw [← readWhole_eq] at hfound
  exact ⟨position, read_eq_ok.mpr ⟨cursor, cursor', hcursor, hfound⟩⟩

/-- A query with one field and one argument whose value is a numeral is read exactly if the numeral
is in the range. -/
theorem read_numeral {after : List Char} {source : String} (hafter : IntegerSpelling.Ends after)
    (hgap : Gap gap) (hclosing : Writes closing after)
    (hopening : WritesBefore (gap ++ (spelling.chars ++ after)) (opening field argument)
      source.toList) :
    (spelling.Fits → ∃ position, read source =
      .ok (ofArgument field argument (.literal (.integer spelling.value)) position)) ∧
    (¬spelling.Fits → ∃ error, read source = .error error) := by
  obtain ⟨found, stop, hfound, hlexemes⟩ := hopening.lexemesFrom .start
  constructor
  · intro h
    obtain ⟨numeral, place, htokens, hnumeral⟩ :=
      IntegerSpelling.lexemesFrom_chars h.magnitude_lt hafter hgap stop
    obtain ⟨last, hlast, hclosed⟩ := hclosing.lexemesFrom place
    have hall : lexemes source = (found ++ (numeral ++ last)).map .ok := by
      unfold lexemes
      rw [hlexemes, hnumeral, hlast, List.map_append, List.map_append]
    obtain ⟨cursor, hcursor, hsees⟩ := Cursor.exists_sees hall
    rw [List.map_append, List.map_append, hfound, htokens, hclosed] at hsees
    refine read_ofArgument hcursor hsees ?_ fun fuel => passes_numeral h ?_ fuel
    · simp
    · simp
  · intro h
    obtain ⟨brace, found, rfl, hbrace, hfound⟩ := List.map_eq_cons_iff.mp hfound
    obtain ⟨name, found, rfl, hname, hfound⟩ := List.map_eq_cons_iff.mp hfound
    obtain ⟨paren, found, rfl, hparen, hfound⟩ := List.map_eq_cons_iff.mp hfound
    obtain ⟨member, found, rfl, hmember, hfound⟩ := List.map_eq_cons_iff.mp hfound
    obtain ⟨colon, found, rfl, hcolon, hfound⟩ := List.map_eq_cons_iff.mp hfound
    obtain rfl := List.map_eq_nil_iff.mp hfound
    have hvalue (fuel : Nat) := faults_numeral h hafter hgap stop fuel
    have hdefinitions (fuel : Nat) : (readDefinitions fuel).Faults (lexemes source) := by
      unfold lexemes
      rw [hlexemes]
      exact faults_ofArgument hbrace hname
        (faults_arguments hparen hmember hcolon (lexemesFrom_ne_nil _ _) hvalue) hparen fuel
    refine Faults.runFrom_eq_error fun lexeme more source stop hahead => ?_
    rw [readWhole_eq]
    unfold readAll
    exact (hdefinitions _).bind lexeme more source stop hahead

end Document

/-! ### Numerals are exact -/

namespace Query

/-- A literal that is an integer gives this integer, whatever the context and the services. -/
theorem run_integer (n : Int64) (contextTy : Ty) (services : Services) (store : Value) :
    (ofNode (Literal.integer n).node contextTy).run services store = .ok (.int n) := by
  unfold Literal.node
  dsimp only
  split
  · rfl
  · rfl

/-- A numeral in the range is compiled to a query that gives its number. -/
theorem compile_numeral (h : spelling.Fits) (scope : Scope) (contextTy : Ty) (capture : Capture)
    (session : Session) :
    (compile scope contextTy spelling.text capture) session =
      .ok (ofNode (Literal.integer spelling.value).node contextTy) session := by
  unfold compile Scope.compileSource Scope.compileText
  rw [Expr.read_numeral h]
  rfl

/-- A numeral beyond the range is not compiled. -/
theorem compile_beyond (h : ¬spelling.Fits) (scope : Scope) (contextTy : Ty) (capture : Capture)
    (session : Session) :
    ∃ error, (compile scope contextTy spelling.text capture) session =
      .error (.fault (.malformed error)) session := by
  obtain ⟨error, hread⟩ := Expr.read_beyond h
  refine ⟨error, ?_⟩
  unfold compile Scope.compileSource Scope.compileText
  rw [hread]
  rfl

end Query

namespace IntegerSpelling

/-- A numeral is exact at every boundary. As a query it gives the number that it denotes if this is
in the signed range of 64 bits, and is malformed otherwise. Wherever the value of an argument is
read, and in every document with one field and one argument, it is read as this number in the same
cases, and as nothing otherwise. -/
theorem denotes_number (spelling : IntegerSpelling) :
    (spelling.Fits → spelling.value.toInt = spelling.number) ∧
    (∀ (scope : Scope) (contextTy : Ty) (capture : Capture) (session : Session),
      (spelling.Fits → ∃ query,
        (Query.compile scope contextTy spelling.text capture) session = .ok query session ∧
          ∀ services store, query.run services store = .ok (.int spelling.value)) ∧
      (¬spelling.Fits → ∃ error,
        (Query.compile scope contextTy spelling.text capture) session =
          .error (.fault (.malformed error)) session)) ∧
    (∀ (gap after : List Char) (place : Position) (fuel : Nat) (cursor : Cursor), Gap gap →
      Ends after → cursor.rest = lexemesFrom place (gap ++ (spelling.chars ++ after)) →
      (spelling.Fits → ∀ tokens, Writes tokens after →
        ∃ cursor', (do advance; Document.readArgument (fuel + 1)) cursor =
            .ok (.literal (.integer spelling.value), cursor') ∧
          cursor'.Sees (tokens ++ [.eof])) ∧
      (¬spelling.Fits →
        ∃ error, (do advance; Document.readArgument fuel) cursor = .error error)) ∧
    ∀ (field argument : String) (gap after : List Char) (source : String), Gap gap → Ends after →
      Writes Document.closing after →
      WritesBefore (gap ++ (spelling.chars ++ after)) (Document.opening field argument)
        source.toList →
      (spelling.Fits → ∃ position, Document.read source = .ok
        (Document.ofArgument field argument (.literal (.integer spelling.value)) position)) ∧
      (¬spelling.Fits → ∃ error, Document.read source = .error error) := by
  refine ⟨toInt_value, fun scope contextTy capture session => ⟨fun h => ?_, fun h => ?_⟩,
    fun gap after place fuel cursor hgap hafter hcursor => ⟨fun h tokens hwrites => ?_,
      fun h => ?_⟩,
    fun field argument gap after source hgap hafter hclosing hopening =>
      Document.read_numeral hafter hgap hclosing hopening⟩
  · exact ⟨_, Query.compile_numeral h scope contextTy capture session,
      fun services store => Query.run_integer _ contextTy services store⟩
  · exact Query.compile_beyond h scope contextTy capture session
  · obtain ⟨found, stop, hfound, hlexemes⟩ := lexemesFrom_chars h.magnitude_lt hafter hgap place
    obtain ⟨last, hlast, hends⟩ := hwrites.lexemesFrom stop
    have hsees : cursor.Sees
        (cursor.current.token :: (spelling.tokens ++ (tokens ++ [.eof]))) := by
      refine ⟨found ++ last, ?_, ?_⟩
      · rw [hcursor, hlexemes, hlast, List.map_append]
      · rw [List.map_append, hfound, hends]
    have hpasses : (advance >>= fun _ => Document.readArgument (fuel + 1)).Passes
        (cursor.current.token :: (spelling.tokens ++ (tokens ++ [.eof]))) (tokens ++ [.eof])
        (· = .literal (.integer spelling.value)) :=
      Passes.advance (by simp) (Document.passes_numeral h (by simp) fuel)
    obtain ⟨result, cursor', hread, hafter, rfl⟩ := hpasses cursor hsees
    exact ⟨cursor', hread, hafter⟩
  · have hfaults := Document.faults_numeral h hafter hgap place fuel
    exact Faults.advance (lexemesFrom_ne_nil _ _) hfaults cursor.current cursor.rest cursor.source
      cursor.previousStop (congrArg _ hcursor.symm)

/-- The smallest number, with zeros before its other digits, can be written with its sign and only
with it. -/
theorem denotes_number_smallest :
    let smallest (negative : Bool) : IntegerSpelling :=
      ⟨negative, "0009223372036854775808".toList, by decide,
        List.all_eq_true.mp (by decide)⟩
    (smallest true).text = "-0009223372036854775808" ∧
      (∃ query, (Query.compile ⟨.empty, .standard, [], 1⟩ .any "-0009223372036854775808") default =
          .ok query default ∧ query.run [] .null = .ok (.int Int64.minValue)) ∧
      (∃ position, Document.read "\x7bf(x:-0009223372036854775808)\x7d" = .ok
        (Document.ofArgument "f" "x" (.literal (.integer Int64.minValue)) position)) ∧
      ∃ error, Document.read "\x7bf(x:0009223372036854775808)\x7d" = .error error := by
  intro smallest
  have hnumber : (smallest true).number = -9223372036854775808 ∧
      (smallest false).number = 9223372036854775808 := by decide
  have hfits : (smallest true).Fits := by
    unfold Fits
    rw [hnumber.1]
    decide
  have hbeyond : ¬(smallest false).Fits := by
    unfold Fits
    rw [hnumber.2]
    decide
  have hvalue : (smallest true).value = Int64.minValue := by
    unfold value
    rw [hnumber.1]
    rfl
  have hends : Ends [')', '\x7d'] := by
    refine ⟨fun c hc => ?_, rfl⟩
    cases hc
    rfl
  have hf : isName "f" = true := by decide
  have hx : isName "x" = true := by decide
  have hopening : ∀ negative, WritesBefore ([] ++ ((smallest negative).chars ++ [')', '\x7d']))
      (Document.opening "f" "x")
      ('\x7b' :: 'f' :: '(' :: 'x' :: ':' :: ((smallest negative).chars ++ [')', '\x7d'])) :=
    fun negative => Document.writesBefore_opening hf hx _
  have hsigned : "\x7bf(x:-0009223372036854775808)\x7d".toList =
      '\x7b' :: 'f' :: '(' :: 'x' :: ':' :: ((smallest true).chars ++ [')', '\x7d']) := by decide
  have hunsigned : "\x7bf(x:0009223372036854775808)\x7d".toList =
      '\x7b' :: 'f' :: '(' :: 'x' :: ':' :: ((smallest false).chars ++ [')', '\x7d']) := by decide
  obtain ⟨-, hquery, -, hdocument⟩ := denotes_number (smallest true)
  obtain ⟨-, -, -, hother⟩ := denotes_number (smallest false)
  refine ⟨rfl, ?_, ?_, ?_⟩
  · obtain ⟨query, hcompile, hrun⟩ := (hquery ⟨.empty, .standard, [], 1⟩ .any .parameter
      default).1 hfits
    exact ⟨query, hcompile, hvalue ▸ hrun [] .null⟩
  · obtain ⟨position, hread⟩ := (hdocument "f" "x" [] _ _ .nil hends Document.writes_closing
      (hsigned ▸ hopening true)).1 hfits
    exact ⟨position, hvalue ▸ hread⟩
  · exact (hother "f" "x" [] _ _ .nil hends Document.writes_closing
      (hunsigned ▸ hopening false)).2 hbeyond

end IntegerSpelling

end TypedQuery
