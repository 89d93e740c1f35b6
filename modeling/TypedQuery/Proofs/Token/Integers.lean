import Mathlib.Algebra.Ring.Int.Defs
import TypedQuery.Proofs.Token.Passing

/-!
# Integers as they are written

Digits, with a minus sign before them or not. A numeral that is in the signed range of 64 bits is
passed as one literal. One that is not is a fault: digits that do not fit in 64 bits are none of the
tokens, and among those that do the smallest signed number is the last one, behind a minus sign
only.
-/

namespace TypedQuery

/-- Characters with which no sign of several characters starts. -/
def solitary : List Char :=
  ['-', '(', ')', ':', '\x7b', '\x7d']

/-- What starts with such a character is no longer sign. -/
theorem length_le_of_mem_solitary {c : Char} {sign : List Char} {symbol : Symbol}
    (hc : c ∈ solitary) (hsign : sign ∈ symbol.signs) (hhead : sign.head? = some c) :
    sign.length ≤ 1 := by
  have hall : (symbol.signs.all fun sign => solitary.all fun c =>
      sign.head? != some c || sign.length ≤ 1) = true := by
    cases symbol
    all_goals decide
  have hsigns := List.all_eq_true.mp (List.all_eq_true.mp hall sign hsign) c hc
  simpa [hhead] using hsigns

/-- A sign of one such character is written in front of everything. -/
theorem Token.spelled_of_mem_solitary {c : Char} {symbol : Symbol} (hc : c ∈ solitary)
    (hsign : [c] ∈ symbol.signs) (rest : List Char) :
    (Token.symbol symbol).Spelled [c] rest := by
  refine .sign hsign fun other longer hlonger hbegins => ?_
  cases longer with
  | nil => exact Nat.zero_le _
  | cons d more =>
    have hhead : (d :: more).head? = some c :=
      congrArg some (List.cons_prefix_cons.mp hbegins).1
    exact length_le_of_mem_solitary hc hlonger hhead

/-- A text writes tokens in front of what stands behind them, whatever this is. -/
inductive WritesBefore (behind : List Char) : List Token → List Char → Prop
  | nil : WritesBefore behind [] behind
  | cons {token : Token} {tokens : List Token} {gap spelling rest : List Char} (between : Gap gap)
      (first : token.Spelled spelling rest) (others : WritesBefore behind tokens rest) :
      WritesBefore behind (token :: tokens) (gap ++ (spelling ++ rest))

/-- The tokens are scanned, and the scan goes on with what stands behind them. -/
theorem WritesBefore.lexemesFrom {behind text : List Char} {tokens : List Token}
    (h : WritesBefore behind tokens text) (start : Position) :
    ∃ (found : List Lexeme) (stop : Position), found.map Lexeme.token = tokens ∧
      lexemesFrom start text = found.map .ok ++ TypedQuery.lexemesFrom stop behind := by
  induction h generalizing start with
  | nil => exact ⟨[], start, rfl, rfl⟩
  | @cons token tokens gap spelling rest hgap hspelled _ ih =>
    obtain ⟨lexeme, place, rfl, hlexemes⟩ := hspelled.scansTo.lexemesFrom hgap start
    obtain ⟨found, stop, rfl, hfound⟩ := ih place
    refine ⟨lexeme :: found, stop, rfl, ?_⟩
    rw [hlexemes, hfound]
    rfl

/-- Digits, with a minus sign before them or not. Zeros may stand before the other digits. -/
structure IntegerSpelling where
  negative : Bool
  digits : List Char
  nonempty : digits ≠ []
  isDigit : ∀ c ∈ digits, c.isDigit = true

namespace IntegerSpelling

/-- The characters of a numeral. -/
def chars (spelling : IntegerSpelling) : List Char :=
  if spelling.negative then '-' :: spelling.digits else spelling.digits

/-- The text of a numeral. -/
def text (spelling : IntegerSpelling) : String :=
  String.ofList spelling.chars

/-- The number that the digits write. -/
def magnitude (spelling : IntegerSpelling) : Nat :=
  digitsValue spelling.digits

/-- The number that a numeral denotes. -/
def number (spelling : IntegerSpelling) : Int :=
  if spelling.negative then -(spelling.magnitude : Int) else spelling.magnitude

/-- The number is in the signed range of 64 bits. -/
def Fits (spelling : IntegerSpelling) : Prop :=
  -2 ^ 63 ≤ spelling.number ∧ spelling.number < 2 ^ 63

/-- The number as a signed integer. -/
def value (spelling : IntegerSpelling) : Int64 :=
  Int64.ofInt spelling.number

/-- The token of the digits, if there is one. -/
def token (spelling : IntegerSpelling) : Token :=
  .integer (UInt64.ofNat spelling.magnitude)

/-- The tokens of a numeral, if there are some. -/
def tokens (spelling : IntegerSpelling) : List Token :=
  if spelling.negative then [.symbol .minus, spelling.token] else [spelling.token]

variable {spelling : IntegerSpelling} {gap rest : List Char}

/-- A numeral in range is the integer of its number. -/
theorem toInt_value (h : spelling.Fits) : spelling.value.toInt = spelling.number :=
  Int64.toInt_ofInt_of_le h.1 h.2

/-- Numbers in the range have digits that fit in 64 bits. -/
theorem Fits.magnitude_lt (h : spelling.Fits) : spelling.magnitude < powerOfTwo 64 := by
  have hlimit : powerOfTwo 64 = 2 ^ 64 := rfl
  unfold Fits number at h
  split at h
  all_goals omega

/-- Digits below the bound are the unsigned integer of their number. -/
theorem toNat_magnitude (h : spelling.magnitude < powerOfTwo 64) :
    (UInt64.ofNat spelling.magnitude).toNat = spelling.magnitude := by
  have hlimit : powerOfTwo 64 = 2 ^ 64 := rfl
  rw [UInt64.toNat_ofNat']
  omega

/-! ### Scanning numerals -/

/-- The text does not go on with digits, nor with a point and digits. -/
structure Ends (rest : List Char) : Prop where
  digits : Stops Char.isDigit rest
  fraction : fractionDigits rest = []

/-- A numeral may stand at the end of a text. -/
theorem ends_nil : Ends [] :=
  ⟨nofun, rfl⟩

/-- A numeral has a first digit. -/
theorem exists_first (spelling : IntegerSpelling) :
    ∃ c more, spelling.digits = c :: more ∧ c.isDigit = true := by
  obtain ⟨c, more, hdigits⟩ := List.exists_cons_of_ne_nil spelling.nonempty
  exact ⟨c, more, hdigits, spelling.isDigit c (hdigits ▸ List.mem_cons_self)⟩

/-- Digits that fit in 64 bits are one token. -/
theorem scansTo_digits (h : spelling.magnitude < powerOfTwo 64) (hrest : Ends rest) :
    ScansTo spelling.digits spelling.token rest := by
  have htoken : integerToken spelling.digits = .ok spelling.token := if_pos h
  refine scansTo_of_scanNumber spelling.exists_first ?_
  rw [scanNumber_whole spelling.isDigit hrest.digits hrest.fraction, htoken]
  rfl

/-- Digits that do not fit in 64 bits are a fault. -/
theorem lexemesFrom_digits (h : ¬spelling.magnitude < powerOfTwo 64) (hrest : Ends rest)
    (hgap : Gap gap) (start : Position) :
    ∃ error, lexemesFrom start (gap ++ (spelling.digits ++ rest)) = [.error error] := by
  have htoken : integerToken spelling.digits =
      .error (.integerDigits (String.ofList spelling.digits)) := if_neg h
  have hscan : scanNumber (spelling.digits ++ rest) =
      .error (.integerDigits (String.ofList spelling.digits), rest) := by
    rw [scanNumber_whole spelling.isDigit hrest.digits hrest.fraction, htoken]
    rfl
  obtain ⟨c, more, hdigits, hc⟩ := spelling.exists_first
  have hskip : skipBlanks false (gap ++ (spelling.digits ++ rest)) = c :: (more ++ rest) := by
    rw [hdigits]
    exact hgap.skipBlanks_cons (not_blank_of_isNamePart (isNamePart_of_isDigit hc))
  rw [hdigits, List.cons_append, ← scanToken_of_isDigit hc] at hscan
  exact ⟨_, lexemesFrom_of_fault hskip rfl hscan⟩

/-- A minus sign is scanned in front of everything. -/
theorem scansTo_minus (rest : List Char) : ScansTo ['-'] (.symbol .minus) rest :=
  (Token.spelled_of_mem_solitary (by decide) (by decide) rest).scansTo

/-- A numeral whose digits fit in 64 bits is scanned as its tokens. -/
theorem lexemesFrom_chars (h : spelling.magnitude < powerOfTwo 64) (hrest : Ends rest)
    (hgap : Gap gap) (start : Position) :
    ∃ (found : List Lexeme) (stop : Position), found.map Lexeme.token = spelling.tokens ∧
      lexemesFrom start (gap ++ (spelling.chars ++ rest)) =
        found.map .ok ++ lexemesFrom stop rest := by
  have hdigits := scansTo_digits h hrest
  unfold chars tokens
  cases spelling.negative with
  | false =>
    obtain ⟨lexeme, stop, htoken, hlexemes⟩ := hdigits.lexemesFrom hgap start
    exact ⟨[lexeme], stop, congrArg (fun token => [token]) htoken, hlexemes⟩
  | true =>
    obtain ⟨minus, place, hminus, hfirst⟩ :=
      (scansTo_minus (spelling.digits ++ rest)).lexemesFrom hgap start
    obtain ⟨lexeme, stop, htoken, hlexemes⟩ := hdigits.lexemesFrom .nil place
    refine ⟨[minus, lexeme], stop, ?_, ?_⟩
    · simp [hminus, htoken]
    · rw [List.nil_append] at hlexemes
      simpa [hlexemes] using hfirst

/-- A numeral is scanned as a text of its own. -/
theorem lexemes_text (spelling : IntegerSpelling) :
    lexemes spelling.text = lexemesFrom .start ([] ++ (spelling.chars ++ [])) := by
  unfold lexemes text
  rw [String.toList_ofList, List.nil_append, List.append_nil]

/-- In a text of its own, the tokens of a numeral are all that is left. -/
theorem sees_text (h : spelling.magnitude < powerOfTwo 64) :
    ∃ cursor, Cursor.ofSource spelling.text = .ok cursor ∧
      cursor.Sees (spelling.tokens ++ [.eof]) := by
  obtain ⟨found, stop, htokens, hlexemes⟩ := lexemesFrom_chars h ends_nil .nil Position.start
  obtain ⟨eof, heof, hends⟩ : ∃ eof : Lexeme, eof.token = .eof ∧
      lexemesFrom stop [] = [.ok eof] := ⟨_, rfl, lexemesFrom_of_blank rfl rfl⟩
  have hall : lexemes spelling.text = (found ++ [eof]).map .ok := by
    rw [lexemes_text, hlexemes, hends, List.map_append]
    rfl
  have htokens : (found ++ [eof]).map Lexeme.token = spelling.tokens ++ [.eof] := by
    rw [List.map_append, htokens, List.map_singleton, heof]
  exact htokens ▸ Cursor.exists_sees hall

/-! ### Reading numerals -/

/-- A numeral in range is read to its value. -/
theorem signedInteger_of_fits (h : spelling.Fits) :
    Reader.signedInteger spelling.negative (UInt64.ofNat spelling.magnitude) =
      pure spelling.value := by
  have hlimit : powerOfTwo 63 = 2 ^ 63 := rfl
  have hmagnitude := toNat_magnitude h.magnitude_lt
  unfold Fits number at h
  unfold Reader.signedInteger value number
  rw [hmagnitude]
  cases hnegative : spelling.negative with
  | false =>
    rw [hnegative, if_neg Bool.false_ne_true] at h
    rw [if_neg Bool.false_ne_true, if_neg Bool.false_ne_true, if_pos (by omega)]
  | true =>
    rw [hnegative, if_pos rfl] at h
    rw [if_pos rfl, if_pos rfl, if_pos (by omega)]

/-- Numbers beyond the range are refused. -/
theorem signedInteger_beyond (h : ¬spelling.Fits)
    (hmagnitude : spelling.magnitude < powerOfTwo 64) :
    ∃ fault, Reader.signedInteger spelling.negative (UInt64.ofNat spelling.magnitude) =
      Reader.fail fault := by
  have hlimit : powerOfTwo 63 = 2 ^ 63 := rfl
  unfold Fits number at h
  unfold Reader.signedInteger
  rw [toNat_magnitude hmagnitude]
  cases hnegative : spelling.negative with
  | false =>
    rw [hnegative, if_neg Bool.false_ne_true] at h
    rw [if_neg Bool.false_ne_true, if_neg (by omega)]
    exact ⟨_, rfl⟩
  | true =>
    rw [hnegative, if_pos rfl] at h
    rw [if_pos rfl, if_neg (by omega)]
    exact ⟨_, rfl⟩

end IntegerSpelling

/-! ### Readers that find a fault -/

namespace Reader

variable {α β : Type} {ahead : List (Except ScanError Lexeme)} {lexeme : Lexeme}

/-- A reader that comes to what is scanned there stops with a fault. If a fault is scanned there, no
reader comes to it. -/
def Faults (run : Reader α) (ahead : List (Except ScanError Lexeme)) : Prop :=
  ∀ lexeme more source stop, ahead = .ok lexeme :: more →
    ∃ error, run ⟨source, lexeme, more, stop⟩ = .error error

namespace Faults

/-- No reader comes to a fault that is scanned. -/
theorem of_error {run : Reader α} (error : ScanError) : Faults run (.error error :: ahead) :=
  nofun

/-- A reader that only fails stops with its fault. -/
theorem fail (fault : SyntaxFault) : Faults (Reader.fail fault : Reader α) ahead :=
  fun _ _ _ _ _ => ⟨_, rfl⟩

/-- A reader in two parts stops where its first part does. -/
theorem bind {run : Reader α} {next : α → Reader β} (h : run.Faults ahead) :
    (run >>= next).Faults ahead := by
  intro lexeme more source stop hahead
  obtain ⟨error, hrun⟩ := h lexeme more source stop hahead
  refine ⟨error, ?_⟩
  change StateT.bind run next _ = .error error
  unfold StateT.bind
  rw [hrun]
  rfl

/-- A reader in two parts goes on where its first part does not move. -/
theorem after {run : Reader α} {next : α → Reader β} {result : α}
    (hrun : ∀ {more} source stop,
      run ⟨source, lexeme, more, stop⟩ = .ok (result, ⟨source, lexeme, more, stop⟩))
    (h : (next result).Faults (.ok lexeme :: ahead)) :
    (run >>= next).Faults (.ok lexeme :: ahead) := by
  rintro _ _ source stop ⟨⟩
  obtain ⟨error, hnext⟩ := h lexeme ahead source stop rfl
  refine ⟨error, ?_⟩
  change StateT.bind run next _ = .error error
  unfold StateT.bind
  rw [hrun]
  exact hnext

/-- A reader that looks at the current token stops if it does so with this token. -/
theorem current {next : Token → Reader β}
    (h : (next lexeme.token).Faults (.ok lexeme :: ahead)) :
    (Reader.current >>= next).Faults (.ok lexeme :: ahead) :=
  after (fun _ _ => rfl) h

/-- A reader that asks for the position stops if it does so at every one. -/
theorem position {next : Position → Reader β} (h : ∀ here, (next here).Faults ahead) :
    (Reader.position >>= next).Faults ahead := by
  rintro lexeme more source stop rfl
  exact (after (fun _ _ => rfl) (h lexeme.start)) lexeme more source stop rfl

variable {yes no : Reader β} {symbol : Symbol}

/-- A reader that asks for a symbol takes the branch for it where the symbol stands. -/
theorem atSymbol (htoken : lexeme.token = .symbol symbol)
    (h : yes.Faults (.ok lexeme :: ahead)) :
    (Reader.atSymbol symbol >>= fun found => if found = true then yes else no).Faults
      (.ok lexeme :: ahead) := by
  have hfound : ∀ {more} source stop, Reader.atSymbol symbol ⟨source, lexeme, more, stop⟩ =
      .ok (true, ⟨source, lexeme, more, stop⟩) := by
    intro more source stop
    change Except.ok (decide (lexeme.token = .symbol symbol), _) = _
    rw [decide_eq_true htoken]
  exact after hfound (by rwa [if_pos rfl])

/-- A reader that asks for a token takes the other branch where another one stands. -/
theorem not_atToken {token : Token} (htoken : lexeme.token ≠ token)
    (h : no.Faults (.ok lexeme :: ahead)) :
    (Reader.atToken token >>= fun found => if found = true then yes else no).Faults
      (.ok lexeme :: ahead) := by
  have hmissed : ∀ {more} source stop, Reader.atToken token ⟨source, lexeme, more, stop⟩ =
      .ok (false, ⟨source, lexeme, more, stop⟩) := by
    intro more source stop
    change Except.ok (decide (lexeme.token = token), _) = _
    rw [decide_eq_false htoken]
  exact after hmissed (by rwa [if_neg Bool.false_ne_true])

/-- A reader that asks for a symbol takes the other branch where another token stands. -/
theorem not_atSymbol (htoken : lexeme.token ≠ .symbol symbol)
    (h : no.Faults (.ok lexeme :: ahead)) :
    (Reader.atSymbol symbol >>= fun found => if found = true then yes else no).Faults
      (.ok lexeme :: ahead) :=
  not_atToken htoken h

/-- A token is passed, if no fault is scanned behind it. -/
theorem advance {next : Unit → Reader β} (hahead : ahead ≠ []) (h : (next ()).Faults ahead) :
    (Reader.advance >>= next).Faults (.ok lexeme :: ahead) := by
  rintro _ _ source stop ⟨⟩
  cases ahead with
  | nil => exact absurd rfl hahead
  | cons first rest =>
    cases first with
    | error error => exact ⟨error.error, rfl⟩
    | ok second => exact h second rest source lexeme.stop rfl

/-- A reader that expects a symbol which stands there stops if it does so behind it. -/
theorem expect {next : Unit → Reader β} (htoken : lexeme.token = .symbol symbol)
    (hahead : ahead ≠ []) (h : (next ()).Faults ahead) :
    (Reader.expect symbol >>= next).Faults (.ok lexeme :: ahead) := by
  have hexpect : (Reader.expect symbol >>= next) =
      (Reader.current >>= fun found =>
        (if found = .symbol symbol then Reader.advance
          else Reader.fail (.expected (.symbol symbol) found)) >>= next) := rfl
  rw [hexpect]
  refine current ?_
  rw [if_pos htoken]
  exact advance hahead h

/-- A reader of a name that stands there stops if it does so behind it. -/
theorem name {next : String → Reader β} {word : String} (htoken : lexeme.token.name? = some word)
    (hahead : ahead ≠ []) (h : (next word).Faults ahead) :
    (Reader.name >>= next).Faults (.ok lexeme :: ahead) := by
  unfold Reader.name
  rw [bind_assoc]
  refine current ?_
  rw [htoken]
  dsimp only
  rw [bind_assoc]
  exact advance hahead (by rwa [pure_bind])

/-- A text in which a reader finds a fault is not read. -/
theorem runFrom_eq_error {run : Reader α} {source : String} (h : run.Faults (lexemes source)) :
    ∃ error, (do
      let cursor ← Cursor.ofSource source
      let (found, _) ← run.run cursor
      return found) = .error error := by
  unfold Cursor.ofSource
  cases hlexemes : lexemes source with
  | nil => exact absurd hlexemes (lexemesFrom_ne_nil _ _)
  | cons first more =>
    cases first with
    | error error => exact ⟨error.error, rfl⟩
    | ok lexeme =>
      obtain ⟨error, hrun⟩ := h lexeme more source.toList 0 hlexemes
      refine ⟨error, ?_⟩
      change (run ⟨source.toList, lexeme, more, 0⟩ >>= _) = _
      rw [hrun]
      rfl

end Faults

end Reader

/-! ### Numerals in front of a reader -/

namespace IntegerSpelling

open Reader

variable {spelling : IntegerSpelling} {gap rest : List Char} {tokens : List Token}

/-- A numeral in the range without a sign is passed as a literal. -/
theorem passes_literal (h : spelling.Fits) (hsign : spelling.negative = false)
    (htokens : tokens ≠ []) :
    Reader.literal?.Passes (spelling.token :: tokens) tokens
      (· = some (.integer spelling.value)) := by
  have hvalue := signedInteger_of_fits h
  rw [hsign] at hvalue
  refine Passes.current ?_
  change Passes (Reader.signedInteger false _ >>= _) _ _ _
  rw [hvalue, pure_bind]
  exact Passes.advance htokens (Passes.pure rfl)

/-- A numeral in the range with a sign is passed behind the sign. -/
theorem passes_negated (h : spelling.Fits) (hsign : spelling.negative = true)
    (htokens : tokens ≠ []) :
    Reader.negated?.Passes (spelling.token :: tokens) tokens
      (· = some (.integer spelling.value)) := by
  have hvalue := signedInteger_of_fits h
  rw [hsign] at hvalue
  refine Passes.current ?_
  change Passes (Reader.signedInteger true _ >>= _) _ _ _
  rw [hvalue, pure_bind]
  exact Passes.advance htokens (Passes.pure rfl)

/-- A minus sign is no literal. -/
theorem faults_minus {α : Type} {next : Option Literal → Reader α}
    {ahead : List (Except ScanError Lexeme)} {lexeme : Lexeme}
    (htoken : lexeme.token = .symbol .minus) (h : (next none).Faults (.ok lexeme :: ahead)) :
    (Reader.literal? >>= next).Faults (.ok lexeme :: ahead) := by
  unfold Reader.literal?
  rw [bind_assoc]
  refine Faults.current ?_
  rw [htoken]
  exact h

/-- A numeral beyond the range is a fault for every reader that takes a number as a literal, and a
number behind a minus sign as one literal with it. -/
theorem faults {α : Type} {run : Reader α} (h : ¬spelling.Fits) (hrest : Ends rest) (hgap : Gap gap)
    (hliteral : ∀ lexeme more, lexeme.token = spelling.token →
      Reader.literal?.Faults (.ok lexeme :: more) → run.Faults (.ok lexeme :: more))
    (hnegated : ∀ lexeme more, lexeme.token = .symbol .minus → more ≠ [] →
      Reader.negated?.Faults more → run.Faults (.ok lexeme :: more)) (start : Position) :
    run.Faults (lexemesFrom start (gap ++ (spelling.chars ++ rest))) := by
  have hbeyond (hmagnitude : spelling.magnitude < powerOfTwo 64) {β : Type}
      {next : Int64 → Reader β} {ahead : List (Except ScanError Lexeme)} :
      (Reader.signedInteger spelling.negative (UInt64.ofNat spelling.magnitude) >>= next).Faults
        ahead := by
    obtain ⟨fault, hfault⟩ := signedInteger_beyond h hmagnitude
    rw [hfault]
    exact (Faults.fail fault).bind
  unfold chars
  -- digits beyond 64 bits are no token; those beyond the signed range are refused by the reader
  cases hsign : spelling.negative with
  | false =>
    by_cases hmagnitude : spelling.magnitude < powerOfTwo 64
    · obtain ⟨lexeme, stop, htoken, hlexemes⟩ :=
        (scansTo_digits hmagnitude hrest).lexemesFrom hgap start
      rw [if_neg Bool.false_ne_true, hlexemes]
      refine hliteral lexeme _ htoken (Faults.current ?_)
      rw [htoken]
      exact hsign ▸ hbeyond hmagnitude
    · obtain ⟨error, hlexemes⟩ := lexemesFrom_digits hmagnitude hrest hgap start
      rw [if_neg Bool.false_ne_true, hlexemes]
      exact Faults.of_error error
  | true =>
    obtain ⟨minus, place, hminus, hfirst⟩ :=
      (scansTo_minus (spelling.digits ++ rest)).lexemesFrom hgap start
    have hchars : gap ++ ('-' :: spelling.digits ++ rest) =
        gap ++ (['-'] ++ (spelling.digits ++ rest)) := rfl
    rw [if_pos rfl, hchars, hfirst]
    refine hnegated minus _ hminus (lexemesFrom_ne_nil _ _) ?_
    by_cases hmagnitude : spelling.magnitude < powerOfTwo 64
    · obtain ⟨lexeme, stop, htoken, hlexemes⟩ :=
        (scansTo_digits hmagnitude hrest).lexemesFrom .nil place
      rw [List.nil_append] at hlexemes
      rw [hlexemes]
      refine Faults.current ?_
      rw [htoken]
      exact hsign ▸ hbeyond hmagnitude
    · obtain ⟨error, hlexemes⟩ := lexemesFrom_digits hmagnitude hrest .nil place
      rw [List.nil_append] at hlexemes
      rw [hlexemes]
      exact Faults.of_error error

end IntegerSpelling

end TypedQuery
