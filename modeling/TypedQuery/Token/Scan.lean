import TypedQuery.Numeral
import TypedQuery.Source.Fault
import TypedQuery.Text.Blank
import TypedQuery.Text.Letter

/-!
# From text to tokens

A text is a row of tokens with blanks and comments between them. Scanning is pure:
each step looks at the characters that are left, and positions are computed from
the characters that were passed.
-/

namespace TypedQuery

/-- The characters with which a name starts. -/
def isNameStart (c : Char) : Bool :=
  Text.isLetter c || c = '_'

/-- The characters of a name. -/
def isNamePart (c : Char) : Bool :=
  Text.isLetterOrNumber c || c = '_'

/-- The text after the blanks and comments at its start. `comment` says that the
start is inside a comment, which runs to the end of its line. -/
def skipBlanks (comment : Bool) : List Char → List Char
  | [] => []
  | c :: rest =>
    if comment then skipBlanks (c ≠ '\n') rest
    else if Text.isBlank c then skipBlanks false rest
    else if c = '#' then skipBlanks true rest
    else c :: rest

/-- A fault together with the text at which it was found. -/
abbrev Scanned (α : Type) := Except (SyntaxFault × List Char) (α × List Char)

/-- The character that an escape stands for. -/
def unescape? (c : Char) : Option Char :=
  if c = 'n' then some '\n'
  else if c = 't' then some '\t'
  else if c = 'r' then some '\r'
  else if c = '"' || c = '\\' || c = '/' then some c
  else none

/-- Scans a quoted text after its opening quote. `escaped` says that the last
character was a backslash. -/
def scanQuoted (escaped : Bool) : List Char → Scanned (List Char)
  | [] => .error (if escaped then .endAfterBackslash else .missingQuote, [])
  | c :: rest =>
    if escaped then
      match unescape? c with
      | none => .error (.escape c, c :: rest)
      | some d => (scanQuoted false rest).map fun (chars, left) => (d :: chars, left)
    else if c = '"' then .ok ([], rest)
    else if c = '\\' then scanQuoted true rest
    else (scanQuoted false rest).map fun (chars, left) => (c :: chars, left)

/-- The digits after a point at the start of a text. -/
def fractionDigits : List Char → List Char
  | '.' :: rest => rest.takeWhile Char.isDigit
  | _ => []

/-- The integer that is written by digits. -/
def integerToken (digits : List Char) : Except SyntaxFault Token :=
  if digitsValue digits < powerOfTwo 64 then .ok (.integer (UInt64.ofNat (digitsValue digits)))
  else .error (.integerDigits (String.ofList digits))

/-- The decimal that is written by digits with a point. -/
def decimalToken (digits : List Char) : Except SyntaxFault Token :=
  match Decimal.read digits with
  | .ok d => .ok (.decimal d)
  | .error fault => .error (.decimalLiteral (String.ofList digits) fault)

/-- A token or a fault at the text that follows it. -/
def scannedAt (left : List Char) : Except SyntaxFault Token → Scanned Token
  | .ok token => .ok (token, left)
  | .error fault => .error (fault, left)

/-- Scans an integer, or a decimal if a point and a digit follow. -/
def scanNumber (text : List Char) : Scanned Token :=
  let whole := text.takeWhile Char.isDigit
  let rest := text.dropWhile Char.isDigit
  let fraction := fractionDigits rest
  if fraction.isEmpty then scannedAt rest (integerToken whole)
  else scannedAt (rest.drop (fraction.length + 1)) (decimalToken (whole ++ '.' :: fraction))

/-- The symbol that is written by one character, whatever follows. -/
def Symbol.ofChar? : Char → Option Symbol
  | ',' => some comma
  | '+' => some plus
  | '-' => some minus
  | '*' => some star
  | '/' => some slash
  | '%' => some percent
  | '^' => some caret
  | '?' => some question
  | ':' => some colon
  | '(' => some leftParen
  | ')' => some rightParen
  | '\x7b' => some leftBrace
  | '\x7d' => some rightBrace
  | '[' => some leftBracket
  | ']' => some rightBracket
  | '.' => some dot
  | '=' => some eq
  | '!' => some bang
  | '<' => some less
  | '>' => some greater
  | _ => none

/-- The symbol that is written by two characters. -/
def Symbol.ofPair? : Char → Char → Option Symbol
  | '=', '=' => some eq
  | '!', '=' => some notEq
  | '<', '=' => some lessEq
  | '>', '=' => some greaterEq
  | '&', '&' => some and
  | '|', '|' => some or
  | _, _ => none

/-- Scans the longest symbol at the start of a text. -/
def scanSymbol? : List Char → Option (Symbol × List Char)
  | '.' :: '.' :: '.' :: rest => some (.spread, rest)
  | c :: d :: rest =>
    match Symbol.ofPair? c d with
    | some symbol => some (symbol, rest)
    | none => (Symbol.ofChar? c).map fun symbol => (symbol, d :: rest)
  | [c] => (Symbol.ofChar? c).map fun symbol => (symbol, [])
  | [] => none

/-- Scans the token that starts with `c`, which is no blank. -/
def scanToken (c : Char) (rest : List Char) : Scanned Token :=
  match scanSymbol? (c :: rest) with
  | some (symbol, left) => .ok (.symbol symbol, left)
  | none =>
    if c = '"' then
      (scanQuoted false rest).map fun (chars, left) => (.text (String.ofList chars), left)
    else if isNameStart c then
      .ok (.ofWord (String.ofList (c :: rest.takeWhile isNamePart)), rest.dropWhile isNamePart)
    else if c.isDigit then scanNumber (c :: rest)
    else if c = '$' then
      if (rest.head?.map isNameStart).getD false then
        .ok (.var (String.ofList (rest.takeWhile isNamePart)), rest.dropWhile isNamePart)
      else .error (.variableName, c :: rest)
    else if c = '&' then .error (.singleAmpersand, c :: rest)
    else if c = '|' then .error (.singleBar, c :: rest)
    else .error (.character c, c :: rest)

/-- Skipping blanks makes no text longer. -/
theorem length_skipBlanks_le (comment : Bool) (text : List Char) :
    (skipBlanks comment text).length ≤ text.length := by
  induction text generalizing comment with
  | nil => simp [skipBlanks]
  | cons c rest ih =>
    unfold skipBlanks
    split
    · exact Nat.le_succ_of_le (ih _)
    · split
      · exact Nat.le_succ_of_le (ih _)
      · split
        · exact Nat.le_succ_of_le (ih _)
        · exact Nat.le_refl _

/-- Dropping a run makes no list longer. -/
theorem length_dropWhile_le {α : Type} (p : α → Bool) (xs : List α) :
    (xs.dropWhile p).length ≤ xs.length :=
  (List.dropWhile_sublist p).length_le

/-- Scanning a text in quotes makes what is left no longer. -/
theorem length_scanQuoted_le {escaped : Bool} {text chars left : List Char}
    (h : scanQuoted escaped text = .ok (chars, left)) : left.length ≤ text.length := by
  induction text generalizing escaped chars with
  | nil => simp [scanQuoted] at h
  | cons c rest ih =>
    have step : ∀ {d : Char} {escaped : Bool},
        (scanQuoted escaped rest).map (fun (chars, left) => (d :: chars, left)) =
            .ok (chars, left) →
          left.length ≤ (c :: rest).length := by
      intro d escaped h
      cases inner : scanQuoted escaped rest with
      | error e => simp [inner, Except.map] at h
      | ok result =>
        obtain ⟨chars', left'⟩ := result
        simp only [inner, Except.map, Except.ok.injEq, Prod.mk.injEq] at h
        exact Nat.le_succ_of_le (ih (h.2 ▸ inner))
    unfold scanQuoted at h
    split at h
    · split at h
      · simp at h
      · exact step h
    · split at h
      · simp only [Except.ok.injEq, Prod.mk.injEq] at h
        simp [h.2]
      · split at h
        · exact Nat.le_succ_of_le (ih h)
        · exact step h

/-- Scanning a symbol takes a character at least. -/
theorem length_scanSymbol_le {c : Char} {rest left : List Char} {symbol : Symbol}
    (h : scanSymbol? (c :: rest) = some (symbol, left)) : left.length ≤ rest.length := by
  unfold scanSymbol? at h
  split at h
  · rename_i same
    simp only [List.cons.injEq] at same
    simp only [Option.some.injEq, Prod.mk.injEq] at h
    simp [same.2, h.2, Nat.le_add_right_of_le]
  · rename_i same
    simp only [List.cons.injEq] at same
    split at h
    · simp only [Option.some.injEq, Prod.mk.injEq] at h
      simp [same.2, h.2]
    · obtain ⟨_, _, pair⟩ := Option.map_eq_some_iff.mp h
      simp only [Prod.mk.injEq] at pair
      simp [same.2, ← pair.2]
  · obtain ⟨_, _, pair⟩ := Option.map_eq_some_iff.mp h
    simp only [Prod.mk.injEq] at pair
    simp [← pair.2]
  · simp at h

/-- A scan that is to end at a text ends there. -/
theorem eq_of_scannedAt {left left' : List Char} {scan : Except SyntaxFault Token} {token : Token}
    (h : scannedAt left scan = .ok (token, left')) : left' = left := by
  cases scan with
  | ok token => simp only [scannedAt, Except.ok.injEq, Prod.mk.injEq] at h; exact h.2.symm
  | error fault => simp [scannedAt] at h

/-- Scanning a number takes a digit at least. -/
theorem length_scanNumber_le {c : Char} {rest left : List Char} {token : Token} (digit : c.isDigit)
    (h : scanNumber (c :: rest) = .ok (token, left)) : left.length ≤ rest.length := by
  have shorter : ((c :: rest).dropWhile Char.isDigit).length ≤ rest.length := by
    simpa [digit] using length_dropWhile_le Char.isDigit rest
  simp only [scanNumber] at h
  split at h
  · rw [eq_of_scannedAt h]
    exact shorter
  · rw [eq_of_scannedAt h, List.length_drop]
    omega

/-- A token takes at least its first character. -/
theorem length_scanToken_le {c : Char} {rest left : List Char} {token : Token}
    (h : scanToken c rest = .ok (token, left)) : left.length ≤ rest.length := by
  unfold scanToken at h
  split at h
  · rename_i found
    simp only [Except.ok.injEq, Prod.mk.injEq] at h
    exact h.2 ▸ length_scanSymbol_le found
  · split at h
    · cases inner : scanQuoted false rest with
      | error e => simp [inner, Except.map] at h
      | ok result =>
        obtain ⟨chars, left⟩ := result
        simp only [inner, Except.map, Except.ok.injEq, Prod.mk.injEq] at h
        exact h.2 ▸ length_scanQuoted_le inner
    · split at h
      · simp only [Except.ok.injEq, Prod.mk.injEq] at h
        exact h.2 ▸ length_dropWhile_le _ _
      · split at h
        · rename_i digit
          exact length_scanNumber_le digit h
        · split at h
          · split at h
            · simp only [Except.ok.injEq, Prod.mk.injEq] at h
              exact h.2 ▸ length_dropWhile_le _ _
            · simp at h
          · split at h
            · simp at h
            · split at h <;> simp at h

/-- A token, where it starts and the offset at which it ends. -/
structure Lexeme where
  token : Token
  start : Position
  stop : Nat
deriving DecidableEq

/-- A fault in the text of a token, and where that token starts. -/
structure ScanError where
  error : SyntaxError
  start : Position
deriving DecidableEq

/-- The tokens of a text that stands at a position, up to the end of the text or
the first fault. -/
def lexemesFrom (start : Position) (text : List Char) : List (Except ScanError Lexeme) :=
  let body := skipBlanks false text
  let here := start.upTo text body
  match _started : body with
  | [] => [.ok ⟨.eof, here, here.offset⟩]
  | c :: rest =>
    match _scanned : scanToken c rest with
    | .error (fault, left) => [.error ⟨⟨fault, here.upTo (c :: rest) left⟩, here⟩]
    | .ok (token, left) =>
      let stop := here.upTo (c :: rest) left
      .ok ⟨token, here, stop.offset⟩ :: lexemesFrom stop left
termination_by text.length
decreasing_by
  have skipped := length_skipBlanks_le false text
  have passed := length_scanToken_le _scanned
  have same : (skipBlanks false text).length = rest.length + 1 := by
    rw [show skipBlanks false text = c :: rest from _started, List.length_cons]
  omega

/-- The tokens of a source text. -/
def lexemes (source : String) : List (Except ScanError Lexeme) :=
  lexemesFrom .start source.toList

end TypedQuery
