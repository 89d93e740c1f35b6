import TypedQuery.Token.Scan

/-!
# Kinds of characters

The characters with which tokens start tell the kinds of tokens apart: signs, names, numbers, and
the blanks between them.
-/

namespace TypedQuery

/-- Digits by their numbers. -/
theorem isDigit_iff {c : Char} : c.isDigit = true ↔ 48 ≤ c.toNat ∧ c.toNat ≤ 57 := by
  simp [Char.isDigit, UInt32.le_iff_toNat_le, ← Char.toNat_val]

/-- Letters by their numbers. -/
theorem isAlpha_iff {c : Char} :
    c.isAlpha = true ↔ 65 ≤ c.toNat ∧ c.toNat ≤ 90 ∨ 97 ≤ c.toNat ∧ c.toNat ≤ 122 := by
  change (decide (c.val ≥ 65 ∧ c.val ≤ 90) ||
    (decide (c.val ≥ 97) && decide (c.val ≤ 122))) = true ↔ _
  simp [UInt32.le_iff_toNat_le, ← Char.toNat_val]

/-- Digits are among the first characters. -/
theorem ascii_of_isDigit {c : Char} (h : c.isDigit = true) : c.toNat < 128 := by
  have hrange := isDigit_iff.mp h
  omega

/-- A digit starts no name, but it can be part of one. -/
theorem isNameStart_of_isDigit {c : Char} (h : c.isDigit = true) : isNameStart c = false := by
  have hunderscore : c ≠ '_' := by
    rintro rfl
    cases h
  have halpha : c.isAlpha = false := by
    have hrange := isDigit_iff.mp h
    rw [Bool.eq_false_iff, Ne, isAlpha_iff]
    omega
  unfold isNameStart Text.isLetter
  rw [if_pos (ascii_of_isDigit h), halpha, decide_eq_false hunderscore, Bool.or_false]

/-- Digits may stand in names. -/
theorem isNamePart_of_isDigit {c : Char} (h : c.isDigit = true) : isNamePart c = true := by
  unfold isNamePart Text.isLetterOrNumber
  rw [if_pos (ascii_of_isDigit h), Char.isAlphanum, h, Bool.or_true, Bool.true_or]

/-- What starts a name may stand in one. -/
theorem isNamePart_of_isNameStart {c : Char} (h : isNameStart c = true) : isNamePart c = true := by
  have hpart : Text.isLetter c = true → Text.isLetterOrNumber c = true := by
    intro hletter
    unfold Text.isLetter at hletter
    unfold Text.isLetterOrNumber
    split
    · rename_i hascii
      rw [if_pos hascii] at hletter
      rw [Char.isAlphanum, hletter, Bool.true_or]
    · rename_i hascii
      rw [if_neg hascii] at hletter
      rw [hletter, Bool.true_or]
  simp only [isNameStart, isNamePart, Bool.or_eq_true] at h ⊢
  exact h.imp_left hpart

/-- The characters with which signs start. -/
def signStarts : List Char :=
  [',', '+', '-', '*', '/', '%', '^', '?', ':', '(', ')', '\x7b', '\x7d', '[', ']', '.', '=', '!',
    '<', '>', '&', '|']

/-- No sign starts like a name. -/
theorem isNameStart_of_mem_signStarts {c : Char} (h : c ∈ signStarts) : isNameStart c = false := by
  have hall : signStarts.all (fun c => !isNameStart c) = true := by decide
  simpa using List.all_eq_true.mp hall c h

/-- No sign starts like a number. -/
theorem isDigit_of_mem_signStarts {c : Char} (h : c ∈ signStarts) : c.isDigit = false := by
  have hall : signStarts.all (fun c => !c.isDigit) = true := by decide
  simpa using List.all_eq_true.mp hall c h

/-- No sign starts like a gap. -/
theorem isBlank_of_mem_signStarts {c : Char} (h : c ∈ signStarts) :
    Text.isBlank c = false ∧ c ≠ '#' := by
  have hall : signStarts.all (fun c => !Text.isBlank c && c != '#') = true := by decide
  simpa using List.all_eq_true.mp hall c h

/-- Signs of two characters start with one of the characters for signs. -/
theorem mem_signStarts_of_pair {c d : Char} {symbol : Symbol}
    (h : Symbol.ofPair? c d = some symbol) : c ∈ signStarts := by
  unfold Symbol.ofPair? at h
  split at h
  all_goals first | decide | cases h

/-- Signs of one character are among the characters for signs. -/
theorem mem_signStarts_of_char {c : Char} {symbol : Symbol} (h : Symbol.ofChar? c = some symbol) :
    c ∈ signStarts := by
  unfold Symbol.ofChar? at h
  split at h
  all_goals first | decide | cases h

/-- A sign starts with one of these characters. -/
theorem mem_signStarts_of_scanSymbol {c : Char} {rest : List Char} {found : Symbol × List Char}
    (h : scanSymbol? (c :: rest) = some found) : c ∈ signStarts := by
  unfold scanSymbol? at h
  split at h
  · rename_i hspread
    cases hspread
    decide
  · rename_i hcons
    cases hcons
    split at h
    · exact mem_signStarts_of_pair ‹_›
    · obtain ⟨symbol, hchar, -⟩ := Option.map_eq_some_iff.mp h
      exact mem_signStarts_of_char hchar
  · rename_i hcons
    cases hcons
    obtain ⟨symbol, hchar, -⟩ := Option.map_eq_some_iff.mp h
    exact mem_signStarts_of_char hchar
  · cases h

/-- No symbol is scanned from another character. -/
theorem scanSymbol_eq_none {c : Char} (rest : List Char) (h : c ∉ signStarts) :
    scanSymbol? (c :: rest) = none := by
  cases hscan : scanSymbol? (c :: rest) with
  | none => rfl
  | some found => exact absurd (mem_signStarts_of_scanSymbol hscan) h

namespace Text

/-- The intervals of letters do not meet those of blanks. -/
theorem alphabetic_apart_from_blank :
    ∀ a ∈ alphabeticIntervals, ∀ b ∈ blankIntervals, a.2 < b.1 ∨ b.2 < a.1 := by
  decide +kernel

/-- The intervals of numbers do not meet those of blanks. -/
theorem numbers_apart_from_blank :
    ∀ a ∈ numberIntervals, ∀ b ∈ blankIntervals, a.2 < b.1 ∨ b.2 < a.1 := by
  decide +kernel

/-- A point of some intervals is in none of those apart from them. -/
theorem not_inIntervals_of_apart {these those : List (Nat × Nat)} {point : Nat}
    (hapart : ∀ a ∈ these, ∀ b ∈ those, a.2 < b.1 ∨ b.2 < a.1)
    (hthose : inIntervals those point = true) : inIntervals these point = false := by
  unfold inIntervals at *
  obtain ⟨b, hb, hwithin⟩ := List.any_eq_true.mp hthose
  rw [List.any_eq_false]
  intro a ha
  have hab := hapart a ha b hb
  simp only [Bool.and_eq_true, decide_eq_true_eq] at hwithin ⊢
  omega

end Text

/-- A blank is not part of a name. -/
theorem isNamePart_of_isBlank {c : Char} (h : Text.isBlank c = true) : isNamePart c = false := by
  have hunderscore : c ≠ '_' := by
    rintro rfl
    cases h
  have hrange : c.toNat ≤ 32 ∨ 128 ≤ c.toNat := by
    simp [Text.isBlank, Text.inIntervals, Text.blankIntervals] at h
    omega
  unfold isNamePart Text.isLetterOrNumber
  rw [decide_eq_false hunderscore, Bool.or_false]
  split
  · have halpha : ¬c.isAlpha = true := by
      rw [isAlpha_iff]
      omega
    have hdigit : ¬c.isDigit = true := by
      rw [isDigit_iff]
      omega
    simp [Char.isAlphanum, halpha, hdigit]
  · rw [Text.not_inIntervals_of_apart Text.alphabetic_apart_from_blank h,
      Text.not_inIntervals_of_apart Text.numbers_apart_from_blank h]
    rfl

/-- The first character of a name or of a number is no blank and starts no comment. -/
theorem not_blank_of_isNamePart {c : Char} (h : isNamePart c = true) :
    Text.isBlank c = false ∧ c ≠ '#' := by
  constructor
  · cases hblank : Text.isBlank c with
    | false => rfl
    | true => exact absurd h (Bool.eq_false_iff.mp (isNamePart_of_isBlank hblank))
  · rintro rfl
    revert h
    decide

end TypedQuery
