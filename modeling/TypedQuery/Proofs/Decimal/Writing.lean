import TypedQuery.Decimal.Reader

/-!
# Decimals as they are written

What is read back from the digits of a decimal. Every decimal with a fractional digit is read back
from its digits. Of those without one, only those are read at all that leave no room for a digit
after the point: of such a number the digit is rounded away.
-/

namespace TypedQuery

/-- The value of digits is that of the library. -/
theorem digitsValue_eq_ofDigitChars (digits : List Char) :
    digitsValue digits = Nat.ofDigitChars 10 digits 0 := by
  unfold digitsValue Nat.ofDigitChars digitValue
  congr 1
  funext n c
  omega

/-- The digits of a number write it. -/
theorem digitsValue_toDigits (n : Nat) : digitsValue (Nat.toDigits 10 n) = n := by
  rw [digitsValue_eq_ofDigitChars, Nat.ofDigitChars_ten_toDigits]

/-- The digits of a number are digits. -/
theorem isDigit_of_mem_toDigits {n : Nat} {c : Char} (h : c ∈ Nat.toDigits 10 n) :
    c.isDigit = true :=
  Nat.isDigit_of_mem_toDigits (by decide) (by decide) h

/-- A digit is at most nine. -/
theorem digitValue_le {c : Char} (h : c.isDigit = true) : digitValue c ≤ 9 := by
  have hrange : '0'.toNat ≤ c.toNat ∧ c.toNat ≤ '9'.toNat := by
    simpa [Char.isDigit, Char.le_def, UInt32.le_iff_toNat_le] using h
  have hzero : '0'.toNat = 48 := rfl
  have hnine : '9'.toNat = 57 := rfl
  unfold digitValue
  omega

/-- The number that digits after the digits of another number write. -/
def digitsValueFrom (n : Nat) (digits : List Char) : Nat :=
  digits.foldl (fun n c => n * 10 + digitValue c) n

/-- Digits are read in two goes. -/
theorem digitsValueFrom_append (n : Nat) (digits more : List Char) :
    digitsValueFrom n (digits ++ more) = digitsValueFrom (digitsValueFrom n digits) more :=
  List.foldl_append

/-- A number does not become smaller by digits behind it. -/
theorem le_digitsValueFrom (n : Nat) (digits : List Char) : n ≤ digitsValueFrom n digits := by
  induction digits generalizing n with
  | nil => exact Nat.le_refl n
  | cons c rest ih =>
    have hnext := ih (n * 10 + digitValue c)
    change n ≤ digitsValueFrom (n * 10 + digitValue c) rest
    omega

/-- Zeros in front of digits change nothing. -/
theorem digitsValueFrom_zeros (count : Nat) (digits : List Char) :
    digitsValueFrom 0 (List.replicate count '0' ++ digits) = digitsValueFrom 0 digits := by
  induction count with
  | zero => rfl
  | succ count ih => exact ih

namespace Decimal

variable {seen : Bool} {mantissa scale : Nat} {digits fraction : List Char}

/-- Digits after the point that fit are read. -/
theorem readDigits_fraction (hdigits : ∀ c ∈ digits, c.isDigit = true)
    (hfits : digitsValueFrom mantissa digits < powerOfTwo 96)
    (hscale : scale + digits.length ≤ 28) :
    readDigits true true mantissa scale digits =
      .ok (digitsValueFrom mantissa digits, scale + digits.length) := by
  induction digits generalizing mantissa scale with
  | nil => rfl
  | cons c rest ih =>
    have hdigit : c.isDigit = true := hdigits c List.mem_cons_self
    have hnext : mantissa * 10 + digitValue c < powerOfTwo 96 :=
      Nat.lt_of_le_of_lt (le_digitsValueFrom _ rest) hfits
    rw [List.length_cons] at hscale
    have hroom : (true && decide (scale = 28)) = false := by
      rw [Bool.true_and, decide_eq_false_iff_not]
      omega
    unfold readDigits
    rw [hroom, if_neg Bool.false_ne_true, if_pos hdigit, if_pos hnext, if_pos rfl,
      ih (fun d hd => hdigits d (List.mem_cons_of_mem _ hd)) hfits (by omega), List.length_cons]
    congr 2
    omega

/-- Digits before the point that fit are read. -/
theorem readDigits_whole (hdigits : ∀ c ∈ digits, c.isDigit = true)
    (hfits : digitsValueFrom mantissa digits < powerOfTwo 96) :
    readDigits false seen mantissa 0 (digits ++ '.' :: fraction) =
      readDigits true (seen || !digits.isEmpty) (digitsValueFrom mantissa digits) 0 fraction := by
  induction digits generalizing mantissa seen with
  | nil =>
    have hpoint : '.'.isDigit = false := rfl
    conv =>
      lhs
      unfold readDigits
    simp [hpoint, digitsValueFrom]
  | cons c rest ih =>
    have hdigit : c.isDigit = true := hdigits c List.mem_cons_self
    have hnext : mantissa * 10 + digitValue c < powerOfTwo 96 :=
      Nat.lt_of_le_of_lt (le_digitsValueFrom _ rest) hfits
    rw [List.cons_append]
    conv =>
      lhs
      unfold readDigits
    rw [Bool.false_and, if_neg Bool.false_ne_true, if_pos hdigit, if_pos hnext,
      if_neg Bool.false_ne_true, ih (fun d hd => hdigits d (List.mem_cons_of_mem _ hd)) hfits]
    simp [digitsValueFrom]

/-- A text that starts with a digit has no sign. -/
theorem read_eq_of_isDigit {c : Char} {rest : List Char} (hdigit : c.isDigit = true) :
    read (c :: rest) =
      match readDigits false false 0 0 (c :: rest) with
      | .error fault => .error fault
      | .ok (mantissa, scale) =>
        match ofParts? false mantissa scale with
        | some d => .ok d
        | none => .error .tooManyDigits := by
  unfold read
  split
  rename_i negative digits hsplit
  have hsame : (negative, digits) = (false, c :: rest) := by
    rw [← hsplit]
    split
    · rename_i hminus
      cases hminus
      cases hdigit
    · rename_i hplus
      cases hplus
      cases hdigit
    · rfl
  cases hsame
  rfl

/-- A decimal that starts with a digit has no sign. -/
theorem read_of_isDigit {c : Char} {rest : List Char} (hdigit : c.isDigit = true)
    (hread : readDigits false false 0 0 (c :: rest) = .ok (mantissa, scale))
    (hmantissa : mantissa < powerOfTwo 96) (hscale : scale ≤ 28) :
    read (c :: rest) = .ok ⟨false, mantissa, scale, hmantissa, hscale⟩ := by
  rw [read_eq_of_isDigit hdigit, hread]
  simp [ofParts?, hmantissa, hscale]

/-- Digits with a point are read as the number that they write, if it fits. -/
theorem read_pointed (hdigits : ∀ c ∈ digits, c.isDigit = true) (hne : digits ≠ [])
    (hfraction : ∀ c ∈ fraction, c.isDigit = true)
    (hfits : digitsValueFrom 0 (digits ++ fraction) < powerOfTwo 96)
    (hscale : fraction.length ≤ 28) :
    read (digits ++ '.' :: fraction) =
      .ok ⟨false, digitsValueFrom 0 (digits ++ fraction), fraction.length, hfits, hscale⟩ := by
  have hwhole : digitsValueFrom 0 digits < powerOfTwo 96 := by
    rw [digitsValueFrom_append] at hfits
    exact Nat.lt_of_le_of_lt (le_digitsValueFrom _ _) hfits
  have hread : readDigits false false 0 0 (digits ++ '.' :: fraction) =
      .ok (digitsValueFrom 0 (digits ++ fraction), fraction.length) := by
    rw [readDigits_whole hdigits hwhole]
    have hseen : (false || !digits.isEmpty) = true := by simp [hne]
    rw [digitsValueFrom_append] at hfits
    rw [hseen, readDigits_fraction hfraction hfits (by omega), digitsValueFrom_append, Nat.zero_add]
  cases digits with
  | nil => exact absurd rfl hne
  | cons c rest => exact read_of_isDigit (hdigits c List.mem_cons_self) hread hfits hscale

/-- A digit after the point that does not fit is rounded away. -/
theorem readDigits_full (hfull : powerOfTwo 96 ≤ mantissa * 10) :
    readDigits true seen mantissa 0 ['0'] = .ok (mantissa, 0) := by
  have hzero : digitValue '0' = 0 := rfl
  have hnext : ¬mantissa * 10 < powerOfTwo 96 := by omega
  have hdigit : '0'.isDigit = true := rfl
  unfold readDigits
  simp [hnext, hdigit, roundBy, hzero]

/-- The decimal has a digit after the point, or there is no room for one. -/
def Writable (d : Decimal) : Prop :=
  0 < d.scale ∨ powerOfTwo 96 ≤ d.mantissa * 10

/-- A decimal as it is written, without its sign. There is a digit after the point in any case. -/
def spelling (d : Decimal) : List Char :=
  if d.scale = 0 then Nat.toDigits 10 d.mantissa ++ ['.', '0']
  else Decimal.digits d.mantissa d.scale

/-- The parts of the digits of a number before and after the point. -/
theorem digits_eq (mantissa : Nat) {scale : Nat} (hscale : scale ≠ 0) :
    ∃ whole fraction, Decimal.digits mantissa scale = whole ++ '.' :: fraction ∧ whole ≠ [] ∧
      fraction.length = scale ∧ (∀ c ∈ whole ++ fraction, c.isDigit = true) ∧
      digitsValueFrom 0 (whole ++ fraction) = mantissa := by
  let all := Nat.toDigits 10 mantissa
  let padded := List.replicate (scale + 1 - all.length) '0' ++ all
  have hlength : scale + 1 ≤ padded.length := by
    have hpadded : padded.length = scale + 1 - all.length + all.length := by
      rw [List.length_append, List.length_replicate]
    omega
  have hjoined : padded.take (padded.length - scale) ++ padded.drop (padded.length - scale) =
      padded := List.take_append_drop _ _
  refine ⟨padded.take (padded.length - scale), padded.drop (padded.length - scale), ?_, ?_, ?_, ?_,
    ?_⟩
  · unfold Decimal.digits
    exact if_neg hscale
  · intro hempty
    have htaken := congrArg List.length hempty
    rw [List.length_take, List.length_nil] at htaken
    omega
  · rw [List.length_drop]
    omega
  · rw [hjoined]
    intro c hc
    rcases List.mem_append.mp hc with hzero | hdigit
    · rw [List.eq_of_mem_replicate hzero]
      rfl
    · exact isDigit_of_mem_toDigits hdigit
  · rw [hjoined, digitsValueFrom_zeros]
    exact digitsValue_toDigits mantissa

/-- A decimal that is not negative is read back from what is written. -/
theorem read_spelling {d : Decimal} (h : d.Writable) (hsign : d.negative = false) :
    read d.spelling = .ok d := by
  obtain ⟨negative, mantissa, scale, hmantissa, hlimit⟩ := d
  cases hsign
  unfold spelling
  dsimp only
  split
  · rename_i hscale
    cases hscale
    have hfull : powerOfTwo 96 ≤ mantissa * 10 := h.resolve_left (Nat.lt_irrefl 0)
    have hvalue : digitsValueFrom 0 (Nat.toDigits 10 mantissa) = mantissa :=
      digitsValue_toDigits mantissa
    have hread : readDigits false false 0 0 (Nat.toDigits 10 mantissa ++ ['.', '0']) =
        .ok (mantissa, 0) := by
      rw [readDigits_whole (fun c hc => isDigit_of_mem_toDigits hc) (hvalue.symm ▸ hmantissa),
        hvalue]
      exact readDigits_full hfull
    cases hdigits : Nat.toDigits 10 mantissa with
    | nil => exact absurd hdigits Nat.toDigits_ne_nil
    | cons c rest =>
      rw [hdigits] at hread
      have hdigit : c.isDigit = true := isDigit_of_mem_toDigits (hdigits ▸ List.mem_cons_self)
      exact read_of_isDigit hdigit hread hmantissa hlimit
  · rename_i hscale
    obtain ⟨whole, fraction, hdigits, hne, hlength, hall, hvalue⟩ := digits_eq mantissa hscale
    have hread := read_pointed (fun c hc => hall c (List.mem_append_left _ hc)) hne
      (fun c hc => hall c (List.mem_append_right _ hc)) (hvalue.symm ▸ hmantissa)
      (hlength.symm ▸ hlimit)
    rw [hdigits, hread]
    congr 2

/-- A digit that does not fit leaves a decimal with a fractional digit, or one without room for
it. -/
theorem writable_of_roundBy {c : Char} {mantissa' scale' : Nat} (hdigit : c.isDigit = true)
    (hmantissa : mantissa < powerOfTwo 96)
    (hfull : scale = 28 ∨ powerOfTwo 96 ≤ mantissa * 10 + digitValue c)
    (h : roundBy mantissa scale c = .ok (mantissa', scale')) :
    0 < scale' ∨ powerOfTwo 96 ≤ mantissa' * 10 := by
  have hvalue := digitValue_le hdigit
  have hlimit := mantissa_limit_eq
  unfold roundBy at h
  simp only [hdigit, Bool.not_true, Bool.false_and, Bool.true_and, decide_eq_true_eq] at h
  rw [if_neg Bool.false_ne_true] at h
  split at h
  · split at h
    · cases h
      omega
    · split at h
      · cases h
      · cases h
        omega
  · cases h
    omega

/-- The digits after a point leave a decimal that can be written. -/
theorem writable_of_readDigits_fraction {mantissa' scale' : Nat}
    (hfraction : ∀ c ∈ fraction, c.isDigit = true) (hmantissa : mantissa < powerOfTwo 96)
    (hpart : 0 < scale ∨ fraction ≠ [])
    (h : readDigits true seen mantissa scale fraction = .ok (mantissa', scale')) :
    0 < scale' ∨ powerOfTwo 96 ≤ mantissa' * 10 := by
  induction fraction generalizing seen mantissa scale with
  | nil =>
    unfold readDigits at h
    split at h
    · cases h
      exact .inl (hpart.resolve_right fun hne => hne rfl)
    · cases h
  | cons c rest ih =>
    have hdigit : c.isDigit = true := hfraction c List.mem_cons_self
    unfold readDigits at h
    rw [Bool.true_and] at h
    split at h
    · rename_i hscale
      exact writable_of_roundBy hdigit hmantissa (.inl (of_decide_eq_true hscale)) h
    · dsimp only at h
      split at h
      · rename_i hfits
        exact ih (fun d hd => hfraction d (List.mem_cons_of_mem _ hd)) hfits
          (.inl (Nat.succ_pos scale)) h
      · rename_i hfull
        exact writable_of_roundBy hdigit hmantissa (.inr (Nat.le_of_not_lt hfull)) h

/-- So do the digits before it. -/
theorem writable_of_readDigits {mantissa' scale' : Nat}
    (hdigits : ∀ c ∈ digits, c.isDigit = true) (hfraction : ∀ c ∈ fraction, c.isDigit = true)
    (hne : fraction ≠ []) (hmantissa : mantissa < powerOfTwo 96)
    (h : readDigits false seen mantissa 0 (digits ++ '.' :: fraction) = .ok (mantissa', scale')) :
    0 < scale' ∨ powerOfTwo 96 ≤ mantissa' * 10 := by
  induction digits generalizing seen mantissa with
  | nil =>
    have hpoint : '.'.isDigit = false := rfl
    rw [List.nil_append] at h
    unfold readDigits at h
    simp only [Bool.false_and, if_neg Bool.false_ne_true, hpoint] at h
    exact writable_of_readDigits_fraction hfraction hmantissa (.inr hne) h
  | cons c rest ih =>
    have hdigit : c.isDigit = true := hdigits c List.mem_cons_self
    rw [List.cons_append] at h
    unfold readDigits at h
    rw [Bool.false_and, if_neg Bool.false_ne_true, if_pos hdigit] at h
    dsimp only at h
    split at h
    · rename_i hfits
      exact ih (fun d hd => hdigits d (List.mem_cons_of_mem _ hd)) hfits h
    · cases h

/-- What is read from digits with a digit after the point can be written, and it is not negative. -/
theorem writable_of_read {d : Decimal} (hdigits : ∀ c ∈ digits, c.isDigit = true)
    (hwhole : digits ≠ []) (hfraction : ∀ c ∈ fraction, c.isDigit = true) (hne : fraction ≠ [])
    (h : read (digits ++ '.' :: fraction) = .ok d) : d.Writable ∧ d.negative = false := by
  cases digits with
  | nil => exact absurd rfl hwhole
  | cons c rest =>
    have hdigit : c.isDigit = true := hdigits c List.mem_cons_self
    rw [List.cons_append] at h
    rw [read_eq_of_isDigit hdigit] at h
    cases hread : readDigits false false 0 0 (c :: (rest ++ '.' :: fraction)) with
    | error fault =>
      rw [hread] at h
      cases h
    | ok parts =>
      obtain ⟨mantissa, scale⟩ := parts
      rw [hread] at h
      have hwritable := writable_of_readDigits hdigits hfraction hne (by decide) hread
      dsimp only at h
      unfold ofParts? at h
      split at h
      · rename_i hparts
        split at hparts
        · cases hparts
          cases h
          exact ⟨hwritable, rfl⟩
        · cases hparts
      · cases h

end Decimal

end TypedQuery
