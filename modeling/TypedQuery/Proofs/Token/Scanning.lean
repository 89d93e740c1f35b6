import Mathlib.Data.List.TakeWhile
import TypedQuery.Proofs.Token.Writing

/-!
# Scanning what is written

A text that writes tokens is scanned as these tokens, and every token that is scanned can be
written.
-/

namespace TypedQuery

section Stops

variable {kind : Char → Bool} {chars rest : List Char}

/-- A run of characters of a kind goes up to the first one of another kind. -/
theorem takeWhile_append_of_stops (hall : ∀ c ∈ chars, kind c = true) (hstop : Stops kind rest) :
    (chars ++ rest).takeWhile kind = chars := by
  rw [List.takeWhile_append_of_pos hall]
  cases rest with
  | nil => exact List.append_nil chars
  | cons d more =>
    have hlast : kind d = false := hstop d rfl
    rw [List.takeWhile_cons_of_neg (by simp [hlast]), List.append_nil]

/-- What is behind a run of characters of a kind is left. -/
theorem dropWhile_append_of_stops (hall : ∀ c ∈ chars, kind c = true) (hstop : Stops kind rest) :
    (chars ++ rest).dropWhile kind = rest := by
  rw [List.dropWhile_append_of_pos hall]
  cases rest with
  | nil => rfl
  | cons d more =>
    have hlast : kind d = false := hstop d rfl
    exact List.dropWhile_cons_of_neg (by simp [hlast])

end Stops

/-! ### Scanning signs -/

/-- Two characters are taken for a symbol that is written so. -/
theorem pair_mem_signs {c d : Char} {symbol : Symbol} (h : Symbol.ofPair? c d = some symbol) :
    [c, d] ∈ symbol.signs := by
  unfold Symbol.ofPair? at h
  split at h
  all_goals first | (cases h; decide) | cases h

/-- Each sign of a symbol is scanned as this symbol if nothing follows. -/
theorem scanSymbol_of_mem_signs {sign : List Char} {symbol : Symbol} (h : sign ∈ symbol.signs) :
    scanSymbol? sign = some (symbol, []) := by
  have hall : ∀ sign ∈ symbol.signs, scanSymbol? sign = some (symbol, []) := by
    cases symbol
    all_goals decide
  exact hall sign h

/-- A sign of several characters is the spread or a pair. -/
theorem scanSymbol_alone {c d : Char} {more : List Char} {symbol : Symbol}
    (h : scanSymbol? (c :: d :: more) = some (symbol, [])) :
    c :: d :: more = ['.', '.', '.'] ∧ symbol = .spread ∨
      more = [] ∧ Symbol.ofPair? c d = some symbol := by
  unfold scanSymbol? at h
  split at h
  · rename_i hspread
    cases h
    exact .inl ⟨hspread, rfl⟩
  · rename_i hcons
    cases hcons
    split at h
    · rename_i hpair
      cases h
      exact .inr ⟨rfl, hpair⟩
    · obtain ⟨other, -, hleft⟩ := Option.map_eq_some_iff.mp h
      cases hleft
  · rename_i hcons
    cases hcons
  · rename_i hcons
    cases hcons

/-- A sign is scanned in front of a text that does not make it a longer one. -/
theorem scanSymbol_append {sign rest : List Char} {symbol : Symbol}
    (halone : scanSymbol? sign = some (symbol, []))
    (hlongest : ∀ other : Symbol, ∀ longer ∈ other.signs, longer <+: sign ++ rest →
      longer.length ≤ sign.length) :
    scanSymbol? (sign ++ rest) = some (symbol, rest) := by
  -- by the length of the sign: one character must not be the start of a longer sign
  rcases sign with _ | ⟨c, _ | ⟨d, more⟩⟩
  · cases halone
  · have hchar : Symbol.ofChar? c = some symbol := by
      simpa [scanSymbol?] using halone
    rcases rest with _ | ⟨d, rest⟩
    · exact halone
    · have hpair : Symbol.ofPair? c d = none := by
        cases hfound : Symbol.ofPair? c d with
        | none => rfl
        | some other =>
          have hlength := hlongest other [c, d] (pair_mem_signs hfound) ⟨rest, rfl⟩
          rw [List.length_cons, List.length_singleton, List.length_singleton] at hlength
          omega
      change scanSymbol? (c :: d :: rest) = some (symbol, d :: rest)
      unfold scanSymbol?
      split
      · rename_i hspread
        cases hspread
        have hlength : 3 ≤ 1 := hlongest .spread ['.', '.', '.'] (by decide) ⟨_, rfl⟩
        omega
      · rename_i hcons
        cases hcons
        rw [hpair, hchar]
        rfl
      · rename_i hcons
        cases hcons
      · rename_i hcons
        cases hcons
  · rcases scanSymbol_alone halone with ⟨hdots, rfl⟩ | ⟨rfl, hpair⟩
    · cases hdots
      rfl
    · change scanSymbol? (c :: d :: rest) = some (symbol, rest)
      unfold scanSymbol?
      split
      · rename_i hspread
        cases hspread
        cases hpair
      · rename_i hcons
        cases hcons
        rw [hpair]
      · rename_i hcons
        cases hcons
      · rename_i hcons
        cases hcons

/-! ### Scanning one token -/

/-- The characters of a name. -/
theorem exists_of_isName {word : String} (h : isName word = true) :
    ∃ c more, word.toList = c :: more ∧ isNameStart c = true ∧
      ∀ d ∈ more, isNamePart d = true := by
  unfold isName at h
  split at h
  · cases h
  · rename_i c more hchars
    rw [Bool.and_eq_true, List.all_eq_true] at h
    exact ⟨c, more, hchars, h.1, h.2⟩

/-- The characters of a name are those of names. -/
theorem isNamePart_of_mem {word : String} (h : isName word = true) :
    ∀ c ∈ word.toList, isNamePart c = true := by
  obtain ⟨c, more, hchars, hstart, hmore⟩ := exists_of_isName h
  rw [hchars]
  intro d hd
  rcases List.mem_cons.mp hd with rfl | hd
  · exact isNamePart_of_isNameStart hstart
  · exact hmore d hd

/-- A text between quotes is scanned up to the closing quote. -/
theorem scanQuoted_escape (chars rest : List Char) :
    scanQuoted false (escape chars ++ '"' :: rest) = .ok (chars, rest) := by
  induction chars with
  | nil =>
    change scanQuoted false ('"' :: rest) = .ok ([], rest)
    unfold scanQuoted
    rfl
  | cons c more ih =>
    by_cases hescaped : c = '"' ∨ c = '\\'
    · have hchars : escape (c :: more) ++ '"' :: rest =
          '\\' :: c :: (escape more ++ '"' :: rest) := by
        simp [escape, hescaped]
      have hstands : unescape? c = some c := by
        rcases hescaped with rfl | rfl
        · rfl
        · rfl
      rw [hchars]
      unfold scanQuoted
      change scanQuoted true (c :: (escape more ++ '"' :: rest)) = .ok (c :: more, rest)
      unfold scanQuoted
      rw [if_pos rfl, hstands, ih]
      rfl
    · have hchars : escape (c :: more) ++ '"' :: rest = c :: (escape more ++ '"' :: rest) := by
        simp [escape, hescaped]
      rw [not_or] at hescaped
      rw [hchars]
      unfold scanQuoted
      rw [if_neg Bool.false_ne_true, if_neg hescaped.1, if_neg hescaped.2, ih]
      rfl

/-- Digits without a point are scanned as an integer. -/
theorem scanNumber_whole {digits rest : List Char} (hdigits : ∀ c ∈ digits, c.isDigit = true)
    (hstop : Stops Char.isDigit rest) (hwhole : fractionDigits rest = []) :
    scanNumber (digits ++ rest) = scannedAt rest (integerToken digits) := by
  unfold scanNumber
  rw [takeWhile_append_of_stops hdigits hstop, dropWhile_append_of_stops hdigits hstop]
  dsimp only
  rw [hwhole, List.isEmpty_nil, if_pos rfl]

/-- Digits with a point and a digit are scanned as a decimal. -/
theorem scanNumber_pointed {digits fraction rest : List Char}
    (hdigits : ∀ c ∈ digits, c.isDigit = true) (hfraction : ∀ c ∈ fraction, c.isDigit = true)
    (hne : fraction ≠ []) (hstop : Stops Char.isDigit rest) :
    scanNumber (digits ++ '.' :: (fraction ++ rest)) =
      scannedAt rest (decimalToken (digits ++ '.' :: fraction)) := by
  have hpoint : Stops Char.isDigit ('.' :: (fraction ++ rest)) := by
    intro c hc
    cases hc
    rfl
  have hafter : fractionDigits ('.' :: (fraction ++ rest)) = fraction :=
    takeWhile_append_of_stops hfraction hstop
  unfold scanNumber
  rw [takeWhile_append_of_stops hdigits hpoint, dropWhile_append_of_stops hdigits hpoint]
  dsimp only
  rw [hafter, if_neg (by simpa using hne)]
  simp

/-- The parts of a decimal before and after the point. -/
theorem Decimal.spelling_eq (d : Decimal) :
    ∃ whole fraction, d.spelling = whole ++ '.' :: fraction ∧ whole ≠ [] ∧ fraction ≠ [] ∧
      (∀ c ∈ whole, c.isDigit = true) ∧ ∀ c ∈ fraction, c.isDigit = true := by
  unfold Decimal.spelling
  split
  · refine ⟨Nat.toDigits 10 d.mantissa, ['0'], rfl, Nat.toDigits_ne_nil, List.cons_ne_nil _ _,
      fun c hc => isDigit_of_mem_toDigits hc, ?_⟩
    intro c hc
    rw [List.mem_singleton.mp hc]
    rfl
  · rename_i hscale
    obtain ⟨whole, fraction, hdigits, hne, hlength, hall, -⟩ := Decimal.digits_eq d.mantissa hscale
    refine ⟨whole, fraction, hdigits, hne, ?_, fun c hc => hall c (List.mem_append_left _ hc),
      fun c hc => hall c (List.mem_append_right _ hc)⟩
    rintro rfl
    exact hscale hlength.symm

/-- A text starts with a token that is written so, and the scan goes on with the rest. -/
def ScansTo (spelling : List Char) (token : Token) (rest : List Char) : Prop :=
  ∃ c more, spelling = c :: more ∧ (Text.isBlank c = false ∧ c ≠ '#') ∧
    scanToken c (more ++ rest) = .ok (token, rest)

/-- What starts with a digit is scanned as a number. -/
theorem scanToken_of_isDigit {c : Char} {rest : List Char} (hdigit : c.isDigit = true) :
    scanToken c rest = scanNumber (c :: rest) := by
  have hsign : c ∉ signStarts := by
    intro hmem
    rw [isDigit_of_mem_signStarts hmem] at hdigit
    cases hdigit
  have hquote : c ≠ '"' := by
    rintro rfl
    cases hdigit
  unfold scanToken
  rw [scanSymbol_eq_none _ hsign]
  dsimp only
  rw [if_neg hquote, if_neg (Bool.eq_false_iff.mp (isNameStart_of_isDigit hdigit)), if_pos hdigit]

/-- Text that starts with a digit is scanned as a number. -/
theorem scansTo_of_scanNumber {spelling rest : List Char} {token : Token}
    (hhead : ∃ c more, spelling = c :: more ∧ c.isDigit = true)
    (hscan : scanNumber (spelling ++ rest) = .ok (token, rest)) : ScansTo spelling token rest := by
  obtain ⟨c, more, rfl, hdigit⟩ := hhead
  exact ⟨c, more, rfl, not_blank_of_isNamePart (isNamePart_of_isDigit hdigit),
    (scanToken_of_isDigit hdigit).trans hscan⟩

/-- The digits of an integer are scanned as this integer where no fraction follows. -/
theorem scansTo_integer {n : UInt64} {rest : List Char} (hstop : Stops Char.isDigit rest)
    (hwhole : fractionDigits rest = []) :
    ScansTo (Nat.toDigits 10 n.toNat) (.integer n) rest := by
  have hdigits : ∀ c ∈ Nat.toDigits 10 n.toNat, c.isDigit = true :=
    fun c hc => isDigit_of_mem_toDigits hc
  have htoken : integerToken (Nat.toDigits 10 n.toNat) = .ok (.integer n) := by
    have hlimit : n.toNat < powerOfTwo 64 := n.toNat_lt
    unfold integerToken
    rw [digitsValue_toDigits, if_pos hlimit, UInt64.ofNat_toNat]
  refine scansTo_of_scanNumber ?_ ?_
  · cases hchars : Nat.toDigits 10 n.toNat with
    | nil => exact absurd hchars Nat.toDigits_ne_nil
    | cons c more =>
      rw [hchars] at hdigits
      exact ⟨c, more, rfl, hdigits c List.mem_cons_self⟩
  · rw [scanNumber_whole hdigits hstop hwhole, htoken]
    rfl

/-- A decimal without a sign is scanned from its digits. -/
theorem scansTo_decimal {d : Decimal} {rest : List Char} (hwritable : d.Writable)
    (hsign : d.negative = false) (hstop : Stops Char.isDigit rest) :
    ScansTo d.spelling (.decimal d) rest := by
  obtain ⟨whole, fraction, hspelling, hne, hfraction, hdigits, hmore⟩ := d.spelling_eq
  have htoken : decimalToken d.spelling = .ok (.decimal d) := by
    unfold decimalToken
    rw [Decimal.read_spelling hwritable hsign]
  refine scansTo_of_scanNumber ?_ ?_
  · cases whole with
    | nil => exact absurd rfl hne
    | cons c more => exact ⟨c, more ++ '.' :: fraction, hspelling, hdigits c List.mem_cons_self⟩
  · rw [hspelling, List.append_assoc, List.cons_append,
      scanNumber_pointed hdigits hmore hfraction hstop, ← hspelling, htoken]
    rfl

/-- A text in quotes is scanned as this text. -/
theorem scansTo_text {s : String} {rest : List Char} :
    ScansTo ('"' :: escape s.toList ++ ['"']) (.text s) rest := by
  refine ⟨'"', escape s.toList ++ ['"'], rfl, ⟨rfl, by decide⟩, ?_⟩
  have hscan : scanQuoted false ((escape s.toList ++ ['"']) ++ rest) = .ok (s.toList, rest) := by
    rw [List.append_assoc]
    exact scanQuoted_escape s.toList rest
  unfold scanToken
  rw [scanSymbol_eq_none _ (by decide)]
  dsimp only
  rw [if_pos rfl, hscan]
  simp [Except.map]

/-- A word is scanned up to the first character that is none of a name. -/
theorem scansTo_word {word : String} {rest : List Char} (hname : isName word = true)
    (hstop : Stops isNamePart rest) : ScansTo word.toList (.ofWord word) rest := by
  obtain ⟨c, more, hchars, hstart, hmore⟩ := exists_of_isName hname
  have hsign : c ∉ signStarts := by
    intro hmem
    rw [isNameStart_of_mem_signStarts hmem] at hstart
    cases hstart
  have hquote : c ≠ '"' := by
    rintro rfl
    revert hstart
    decide
  refine ⟨c, more, hchars, not_blank_of_isNamePart (isNamePart_of_isNameStart hstart), ?_⟩
  unfold scanToken
  rw [scanSymbol_eq_none _ hsign]
  dsimp only
  rw [if_neg hquote, if_pos hstart, takeWhile_append_of_stops hmore hstop,
    dropWhile_append_of_stops hmore hstop, ← hchars, String.ofList_toList]

/-- A variable is scanned up to the first character that is none of a name. -/
theorem scansTo_var {name : String} {rest : List Char} (hname : isName name = true)
    (hstop : Stops isNamePart rest) : ScansTo ('$' :: name.toList) (.var name) rest := by
  have hparts := isNamePart_of_mem hname
  obtain ⟨c, more, hchars, hstart, -⟩ := exists_of_isName hname
  have hhead : ((name.toList ++ rest).head?.map isNameStart).getD false = true := by
    rw [hchars]
    exact hstart
  refine ⟨'$', name.toList, rfl, ⟨rfl, by decide⟩, ?_⟩
  unfold scanToken
  rw [scanSymbol_eq_none _ (by decide)]
  dsimp only
  rw [if_neg (by decide), if_neg (by decide), if_neg (by decide), if_pos rfl, if_pos hhead,
    takeWhile_append_of_stops hparts hstop, dropWhile_append_of_stops hparts hstop,
    String.ofList_toList]

/-- A sign is scanned as its symbol where no longer one stands. -/
theorem scansTo_sign {sign rest : List Char} {symbol : Symbol} (hsign : sign ∈ symbol.signs)
    (hlongest : ∀ other : Symbol, ∀ longer ∈ other.signs, longer <+: sign ++ rest →
      longer.length ≤ sign.length) : ScansTo sign (.symbol symbol) rest := by
  have hscan := scanSymbol_append (scanSymbol_of_mem_signs hsign) hlongest
  cases sign with
  | nil =>
    have halone := scanSymbol_of_mem_signs hsign
    cases halone
  | cons c more =>
    have hstart : c ∈ signStarts := mem_signStarts_of_scanSymbol hscan
    refine ⟨c, more, rfl, isBlank_of_mem_signStarts hstart, ?_⟩
    unfold scanToken
    rw [List.cons_append] at hscan
    rw [hscan]

/-- A token that is written in a text is scanned. -/
theorem Token.Spelled.scansTo {token : Token} {spelling rest : List Char}
    (h : token.Spelled spelling rest) : ScansTo spelling token rest := by
  cases h with
  | integer hstop hwhole => exact scansTo_integer hstop hwhole
  | decimal hwritable hsign hstop => exact scansTo_decimal hwritable hsign hstop
  | text => exact scansTo_text
  | word hname hstop => exact scansTo_word hname hstop
  | var hname hstop => exact scansTo_var hname hstop
  | sign hknown hlongest => exact scansTo_sign hknown hlongest

/-! ### Scanning a text -/

/-- A comment is skipped to the end of its line. -/
theorem skipBlanks_comment {comment rest : List Char} (hline : '\n' ∉ comment) :
    skipBlanks true (comment ++ '\n' :: rest) = skipBlanks false rest := by
  induction comment with
  | nil =>
    change skipBlanks true ('\n' :: rest) = skipBlanks false rest
    conv =>
      lhs
      unfold skipBlanks
    rfl
  | cons c more ih =>
    rw [List.mem_cons, not_or] at hline
    have hgoes : decide (c ≠ '\n') = true := decide_eq_true (Ne.symm hline.1)
    rw [List.cons_append]
    conv =>
      lhs
      unfold skipBlanks
    rw [if_pos rfl, hgoes]
    exact ih hline.2

/-- Gaps are skipped. -/
theorem Gap.skipBlanks {gap : List Char} (h : Gap gap) (rest : List Char) :
    skipBlanks false (gap ++ rest) = TypedQuery.skipBlanks false rest := by
  induction h with
  | nil => rfl
  | blank hblank _ ih =>
    rw [List.cons_append]
    conv =>
      lhs
      unfold TypedQuery.skipBlanks
    rw [if_neg Bool.false_ne_true, if_pos hblank]
    exact ih
  | @comment comment gap hline _ ih =>
    have hmark : ¬Text.isBlank '#' = true := by decide
    rw [List.cons_append, List.append_assoc, List.cons_append]
    conv =>
      lhs
      unfold TypedQuery.skipBlanks
    rw [if_neg Bool.false_ne_true, if_neg hmark, if_pos rfl, skipBlanks_comment hline]
    exact ih

/-- There is a token in every text, be it the one for its end. -/
theorem lexemesFrom_ne_nil (place : Position) (text : List Char) : lexemesFrom place text ≠ [] := by
  rw [lexemesFrom]
  split
  · exact List.cons_ne_nil _ _
  · split
    all_goals exact List.cons_ne_nil _ _

/-- Text of blanks alone has the token for its end. -/
theorem lexemesFrom_of_blank {start here : Position} {text : List Char}
    (h : skipBlanks false text = [])
    (hhere : start.upTo text (skipBlanks false text) = here) :
    lexemesFrom start text = [.ok ⟨.eof, here, here.offset⟩] := by
  rw [lexemesFrom]
  split
  · rw [hhere]
  · rename_i hcons
    rw [h] at hcons
    cases hcons

/-- Where no token can be scanned, the tokens of a text end with the failure. -/
theorem lexemesFrom_of_fault {start here : Position} {text rest left : List Char} {c : Char}
    {fault : SyntaxFault} (h : skipBlanks false text = c :: rest)
    (hhere : start.upTo text (skipBlanks false text) = here)
    (hscan : scanToken c rest = .error (fault, left)) :
    lexemesFrom start text = [.error ⟨⟨fault, here.upTo (c :: rest) left⟩, here⟩] := by
  rw [lexemesFrom]
  split
  · rename_i hnil
    rw [h] at hnil
    cases hnil
  · rename_i d more hcons
    have hsame : d :: more = c :: rest := hcons.symm.trans h
    cases hsame
    split
    · rename_i herror
      rw [hscan] at herror
      cases herror
      rw [hhere]
    · rename_i hok
      rw [hscan] at hok
      cases hok

/-- A token that is scanned stands before those of the rest. -/
theorem lexemesFrom_of_scan {start here : Position} {text rest left : List Char} {c : Char}
    {token : Token} (h : skipBlanks false text = c :: rest)
    (hhere : start.upTo text (skipBlanks false text) = here)
    (hscan : scanToken c rest = .ok (token, left)) :
    lexemesFrom start text =
      .ok ⟨token, here, (here.upTo (c :: rest) left).offset⟩ ::
        lexemesFrom (here.upTo (c :: rest) left) left := by
  rw [lexemesFrom]
  split
  · rename_i hnil
    rw [h] at hnil
    cases hnil
  · rename_i d more hcons
    have hsame : d :: more = c :: rest := hcons.symm.trans h
    cases hsame
    split
    · rename_i herror
      rw [hscan] at herror
      cases herror
    · rename_i hok
      rw [hscan] at hok
      cases hok
      rw [hhere]

/-- Gaps are skipped up to a character that starts a token. -/
theorem Gap.skipBlanks_cons {gap : List Char} (h : Gap gap) {c : Char} {rest : List Char}
    (hstart : Text.isBlank c = false ∧ c ≠ '#') :
    TypedQuery.skipBlanks false (gap ++ c :: rest) = c :: rest := by
  rw [h.skipBlanks]
  unfold TypedQuery.skipBlanks
  rw [if_neg Bool.false_ne_true, if_neg (Bool.eq_false_iff.mp hstart.1), if_neg hstart.2]

/-- A token that is scanned behind a gap is the first one. -/
theorem ScansTo.lexemesFrom {spelling gap rest : List Char} {token : Token}
    (h : ScansTo spelling token rest) (hgap : Gap gap) (start : Position) :
    ∃ lexeme stop, lexeme.token = token ∧
      lexemesFrom start (gap ++ (spelling ++ rest)) =
        .ok lexeme :: TypedQuery.lexemesFrom stop rest := by
  obtain ⟨c, more, rfl, hstart, hscan⟩ := h
  have hskip : TypedQuery.skipBlanks false (gap ++ (c :: more ++ rest)) = c :: (more ++ rest) :=
    hgap.skipBlanks_cons hstart
  exact ⟨⟨token, _, _⟩, _, rfl, lexemesFrom_of_scan hskip rfl hscan⟩

/-- A text that writes tokens is scanned as these tokens, with the end of the text after them. -/
theorem Writes.lexemesFrom {tokens : List Token} {text : List Char} (h : Writes tokens text)
    (start : Position) :
    ∃ found : List Lexeme, lexemesFrom start text = found.map .ok ∧
      found.map Lexeme.token = tokens ++ [.eof] := by
  induction h generalizing start with
  | @nil gap hgap =>
    have hskip : skipBlanks false gap = [] := by
      have hgone := hgap.skipBlanks []
      rw [List.append_nil] at hgone
      exact hgone
    exact ⟨[⟨.eof, _, _⟩], lexemesFrom_of_blank hskip rfl, rfl⟩
  | @cons token tokens gap spelling rest hgap hspelled _ ih =>
    obtain ⟨lexeme, stop, rfl, hlexemes⟩ := hspelled.scansTo.lexemesFrom hgap start
    obtain ⟨found, hfound, htokens⟩ := ih stop
    refine ⟨lexeme :: found, ?_, ?_⟩
    · rw [hlexemes, hfound]
      rfl
    · rw [List.map_cons, htokens]
      rfl

/-! ### Every token that is scanned can be written -/

/-- The characters of a fraction are digits. -/
theorem isDigit_of_mem_fractionDigits {chars : List Char} {c : Char}
    (h : c ∈ fractionDigits chars) : c.isDigit = true := by
  unfold fractionDigits at h
  split at h
  · exact List.mem_takeWhile_imp h
  · cases h

/-- A run of characters of names is a name if it can start one. -/
theorem isName_takeWhile {chars : List Char} (h : (chars.head?.map isNameStart).getD false = true) :
    isName (String.ofList (chars.takeWhile isNamePart)) = true := by
  cases chars with
  | nil => cases h
  | cons c more =>
    have hstart : isNameStart c = true := h
    have hparts : (more.takeWhile isNamePart).all isNamePart = true := List.all_takeWhile
    unfold isName
    rw [String.toList_ofList, List.takeWhile_cons_of_pos (isNamePart_of_isNameStart hstart)]
    dsimp only
    rw [hstart, hparts, Bool.true_and]

/-- A number that is scanned can be written. -/
theorem Token.writable_of_scanNumber {c : Char} {rest left : List Char} {token : Token}
    (hdigit : c.isDigit = true) (h : scanNumber (c :: rest) = .ok (token, left)) :
    token.Writable := by
  have hwhole : (c :: rest).takeWhile Char.isDigit ≠ [] := by
    rw [List.takeWhile_cons_of_pos hdigit]
    exact List.cons_ne_nil _ _
  unfold scanNumber at h
  dsimp only at h
  split at h
  · unfold integerToken at h
    split at h
    · cases h
      exact writable_integer _
    · cases h
  · rename_i hfraction
    unfold decimalToken at h
    split at h
    · rename_i d hread
      cases h
      rw [List.isEmpty_iff] at hfraction
      have hd := Decimal.writable_of_read (fun c hc => List.mem_takeWhile_imp hc) hwhole
        (fun c hc => isDigit_of_mem_fractionDigits hc) hfraction hread
      exact writable_decimal hd.1 hd.2
    · cases h

/-- Every token that is scanned can be written. -/
theorem Token.writable_of_scanToken {c : Char} {rest left : List Char} {token : Token}
    (h : scanToken c rest = .ok (token, left)) : token.Writable := by
  unfold scanToken at h
  split at h
  · cases h
    exact writable_symbol _
  · split at h
    · cases hquoted : scanQuoted false rest with
      | error fault =>
        rw [hquoted] at h
        cases h
      | ok found =>
        rw [hquoted] at h
        cases h
        exact writable_text _
    · split at h
      · rename_i hstart
        cases h
        have hhead : (((c :: rest).head?).map isNameStart).getD false = true := hstart
        have hname := isName_takeWhile hhead
        rw [List.takeWhile_cons_of_pos (isNamePart_of_isNameStart hstart)] at hname
        exact writable_of_isName hname
      · split at h
        · rename_i hdigit
          exact writable_of_scanNumber hdigit h
        · split at h
          · split at h
            · rename_i hstart
              cases h
              exact writable_var (isName_takeWhile hstart)
            · cases h
          · split at h
            · cases h
            · split at h
              · cases h
              · cases h

/-- So does every token of a text, up to its end. -/
theorem writable_of_mem_lexemesFrom {start : Position} {text : List Char} {lexeme : Lexeme}
    (h : .ok lexeme ∈ lexemesFrom start text) :
    lexeme.token.Writable ∨ lexeme.token = .eof := by
  induction start, text using lexemesFrom.induct with
  | case1 start text body hbody =>
    rw [lexemesFrom_of_blank hbody rfl, List.mem_singleton] at h
    cases h
    exact .inr rfl
  | case2 start text body c rest hbody fault left hscan =>
    rw [lexemesFrom_of_fault hbody rfl hscan, List.mem_singleton] at h
    cases h
  | case3 start text body here c rest hbody token left hscan stop ih =>
    rw [lexemesFrom_of_scan hbody rfl hscan] at h
    rcases List.mem_cons.mp h with hfirst | hrest
    · cases hfirst
      exact .inl (Token.writable_of_scanToken hscan)
    · exact ih hrest

end TypedQuery
