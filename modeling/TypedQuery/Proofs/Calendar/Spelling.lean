import TypedQuery.Calendar.Reader

/-!
# Spellings of timestamps

A date is written with four digits for the year and two for the month and the day. Behind it a time
of day may stand, with or without seconds, and with or without an offset from universal time. Every
ASCII text with the shape of a timestamp is written in this way.
-/

namespace TypedQuery.DateTime

/-- A numeral of a number of decimal digits. -/
structure Numeral (width : Nat) where
  digits : List Char
  length_eq : digits.length = width
  isDigit : ∀ c ∈ digits, c.isDigit = true

/-- Digits as a numeral. -/
def Numeral.ofDigits (digits : List Char) (h : digits.all Char.isDigit = true) :
    Numeral digits.length :=
  ⟨digits, rfl, List.all_eq_true.mp h⟩

/-- The number that a numeral writes. -/
def Numeral.value {width : Nat} (numeral : Numeral width) : Nat :=
  digitsValue numeral.digits

/-- The fraction of a second: a point and at least one digit. -/
structure Fraction where
  places : Nat
  numeral : Numeral (places + 1)

/-- The fraction as it is written. -/
def Fraction.chars (fraction : Fraction) : List Char :=
  '.' :: fraction.numeral.digits

/-- The seconds of a time of day. -/
structure Seconds where
  whole : Numeral 2
  fraction? : Option Fraction

/-- The seconds as they are written. -/
def Seconds.chars (seconds : Seconds) : List Char :=
  ':' :: (seconds.whole.digits ++ seconds.fraction?.elim [] Fraction.chars)

/-- An offset from universal time: `Z`, or a sign with hours and minutes. -/
inductive Zone
  | universal
  | offset (negative : Bool) (hours minutes : Numeral 2)

/-- The offset as it is written. -/
def Zone.chars : Zone → List Char
  | universal => ['Z']
  | offset negative hours minutes =>
    (if negative then '-' else '+') :: (hours.digits ++ ':' :: minutes.digits)

/-- A time of day, with a blank or `T` before it. -/
structure Clock where
  spaced : Bool
  hours : Numeral 2
  minutes : Numeral 2
  seconds? : Option Seconds
  zone? : Option Zone

namespace Clock

/-- The offset as it is written, if there is one. -/
def zoneChars (clock : Clock) : List Char :=
  clock.zone?.elim [] Zone.chars

/-- What is written behind the minutes. -/
def secondsChars (clock : Clock) : List Char :=
  clock.seconds?.elim [] Seconds.chars ++ clock.zoneChars

/-- The time of day as it is written, without the character before it. -/
def timeChars (clock : Clock) : List Char :=
  clock.hours.digits ++ ':' :: (clock.minutes.digits ++ clock.secondsChars)

/-- The time of day as it is written. -/
def chars (clock : Clock) : List Char :=
  (if clock.spaced then ' ' else 'T') :: clock.timeChars

end Clock

/-- A timestamp as it is written. -/
structure Spelling where
  year : Numeral 4
  month : Numeral 2
  day : Numeral 2
  clock? : Option Clock

namespace Spelling

/-- What is written behind the date. -/
def clockChars (spelling : Spelling) : List Char :=
  spelling.clock?.elim [] Clock.chars

/-- The characters of a spelling. -/
def chars (spelling : Spelling) : List Char :=
  spelling.year.digits ++ '-' :: (spelling.month.digits ++
    '-' :: (spelling.day.digits ++ spelling.clockChars))

/-- The text of a spelling. -/
def text (spelling : Spelling) : String :=
  String.ofList spelling.chars

end Spelling

/-! ### What has the shape of a timestamp -/

variable {text rest : List Char} {c : Char}

/-- A character is passed exactly if it stands there. -/
theorem pass?_eq_some : pass? c text = some rest ↔ text = c :: rest := by
  cases text with
  | nil => exact ⟨nofun, nofun⟩
  | cons d more =>
    change (if d = c then some more else none) = some rest ↔ _
    by_cases hd : d = c
    · rw [if_pos hd, hd]
      exact ⟨fun h => congrArg (c :: ·) (Option.some.inj h),
        fun h => congrArg some (List.cons.inj h).2⟩
    · rw [if_neg hd]
      exact ⟨nofun, fun h => absurd (List.cons.inj h).1 hd⟩

/-- Among ASCII characters, the decimal digits of all scripts are those from 0 to 9. -/
theorem isDecimalDigit_of_ascii (hascii : c.toNat < 128) : Text.isDecimalDigit c = c.isDigit := by
  unfold Text.isDecimalDigit
  rw [if_pos hascii]

/-- Passing digits is passing a numeral. -/
theorem exists_numeral_of_passDigits? {width : Nat} (hascii : ∀ c ∈ text, c.toNat < 128)
    (h : passDigits? width text = some rest) :
    ∃ numeral : Numeral width, text = numeral.digits ++ rest := by
  induction width generalizing text with
  | zero => exact ⟨⟨[], rfl, nofun⟩, Option.some.inj h⟩
  | succ width ih =>
    cases text with
    | nil => cases h
    | cons c more =>
      obtain ⟨hc, hmore⟩ := List.forall_mem_cons.mp hascii
      unfold passDigits? at h
      split at h
      · rename_i hdigit
        obtain ⟨numeral, rfl⟩ := ih hmore h
        have hdigits : ∀ d ∈ c :: numeral.digits, d.isDigit = true :=
          List.forall_mem_cons.mpr ⟨isDecimalDigit_of_ascii hc ▸ hdigit, numeral.isDigit⟩
        exact ⟨⟨c :: numeral.digits, congrArg (· + 1) numeral.length_eq, hdigits⟩, rfl⟩
      · cases h

/-- Two numerals of two digits with a separator between them. -/
theorem exists_numerals_of_passes (hascii : ∀ c ∈ text, c.toNat < 128)
    (h : (do
      let rest ← passDigits? 2 text
      let rest ← pass? ':' rest
      passDigits? 2 rest) = some rest) :
    ∃ first second : Numeral 2, text = first.digits ++ ':' :: (second.digits ++ rest) := by
  obtain ⟨more, hfirst, hmore⟩ := Option.bind_eq_some_iff.mp h
  obtain ⟨last, hcolon, hsecond⟩ := Option.bind_eq_some_iff.mp hmore
  obtain ⟨first, htext⟩ := exists_numeral_of_passDigits? hascii hfirst
  rw [pass?_eq_some.mp hcolon] at htext
  rw [htext] at hascii
  have hlast := (List.forall_mem_cons.mp (List.forall_mem_append.mp hascii).2).2
  obtain ⟨second, hsecond⟩ := exists_numeral_of_passDigits? hlast hsecond
  exact ⟨first, second, hsecond ▸ htext⟩

/-- A text of the shape of an offset is one, or empty. -/
theorem exists_zone_of_isZoneShaped (hascii : ∀ c ∈ text, c.toNat < 128)
    (h : isZoneShaped text = true) : ∃ zone? : Option Zone, text = zone?.elim [] Zone.chars := by
  unfold isZoneShaped at h
  split at h
  · exact ⟨none, rfl⟩
  · exact ⟨some .universal, rfl⟩
  · rename_i sign more _
    obtain ⟨hsign, hmore⟩ := (Bool.and_eq_true _ _).mp h
    obtain ⟨hours, minutes, rfl⟩ :=
      exists_numerals_of_passes (List.forall_mem_cons.mp hascii).2 (beq_iff_eq.mp hmore)
    rw [List.append_nil]
    have hsign : sign = '+' ∨ sign = '-' := by simpa using hsign
    rcases hsign with rfl | rfl
    · exact ⟨some (.offset false hours minutes), rfl⟩
    · exact ⟨some (.offset true hours minutes), rfl⟩

/-- Digits up to the first other character make a numeral. -/
theorem exists_fraction (hascii : ∀ c ∈ text, c.toNat < 128)
    (hnonempty : (text.takeWhile Text.isDecimalDigit).isEmpty = false) :
    ∃ fraction : Fraction,
      text = fraction.numeral.digits ++ text.dropWhile Text.isDecimalDigit := by
  have hdigits : ∀ c ∈ text.takeWhile Text.isDecimalDigit, c.isDigit = true := by
    intro c hc
    have hdecimal : Text.isDecimalDigit c = true :=
      List.all_eq_true.mp List.all_takeWhile c hc
    rw [← hdecimal, isDecimalDigit_of_ascii (hascii c ((List.takeWhile_prefix _).subset hc))]
  have hlength : (text.takeWhile Text.isDecimalDigit).length =
      (text.takeWhile Text.isDecimalDigit).length - 1 + 1 := by
    have hpositive := List.length_pos_iff.mpr (List.isEmpty_eq_false_iff.mp hnonempty)
    omega
  exact ⟨⟨_, ⟨_, hlength, hdigits⟩⟩, List.takeWhile_append_dropWhile.symm⟩

/-- A text of the shape of seconds has seconds or none, and an offset or none behind them. -/
theorem exists_seconds_of_isSecondsShaped (hascii : ∀ c ∈ text, c.toNat < 128)
    (h : isSecondsShaped text = true) :
    ∃ (seconds? : Option Seconds) (zone? : Option Zone),
      text = seconds?.elim [] Seconds.chars ++ zone?.elim [] Zone.chars := by
  unfold isSecondsShaped at h
  split at h
  · rename_i more
    have hmore := (List.forall_mem_cons.mp hascii).2
    split at h
    · cases h
    · rename_i digits hwhole
      obtain ⟨whole, rfl⟩ := exists_numeral_of_passDigits? hmore hwhole
      have hdigits := (List.forall_mem_cons.mp (List.forall_mem_append.mp hmore).2).2
      obtain ⟨hnonempty, hzone⟩ := (Bool.and_eq_true _ _).mp h
      obtain ⟨fraction, hfraction⟩ := exists_fraction hdigits (by simpa using hnonempty)
      have hleft : ∀ c ∈ digits.dropWhile Text.isDecimalDigit, c.toNat < 128 :=
        fun c hc => hdigits c ((List.dropWhile_suffix _).subset hc)
      obtain ⟨zone?, hzone⟩ := exists_zone_of_isZoneShaped hleft hzone
      refine ⟨some ⟨whole, some fraction⟩, zone?, ?_⟩
      rw [hzone] at hfraction
      rw [hfraction]
      simp [Seconds.chars, Fraction.chars]
    · rename_i left _ hwhole
      obtain ⟨whole, rfl⟩ := exists_numeral_of_passDigits? hmore hwhole
      obtain ⟨zone?, rfl⟩ :=
        exists_zone_of_isZoneShaped (List.forall_mem_append.mp hmore).2 h
      exact ⟨some ⟨whole, none⟩, zone?, by simp [Seconds.chars]⟩
  · obtain ⟨zone?, rfl⟩ := exists_zone_of_isZoneShaped hascii h
    exact ⟨none, zone?, rfl⟩

/-- A text of the shape of a time of day is one, or empty. -/
theorem exists_clock_of_isTimeShaped (hascii : ∀ c ∈ text, c.toNat < 128)
    (h : isTimeShaped text = true) :
    ∃ clock? : Option Clock, text = clock?.elim [] Clock.chars := by
  unfold isTimeShaped at h
  split at h
  · exact ⟨none, rfl⟩
  · rename_i c more
    have hmore := (List.forall_mem_cons.mp hascii).2
    obtain ⟨hc, htime⟩ := (Bool.and_eq_true _ _).mp h
    split at htime
    · cases htime
    · rename_i left hpasses
      obtain ⟨hours, minutes, rfl⟩ := exists_numerals_of_passes hmore hpasses
      have hleft := (List.forall_mem_append.mp
        (List.forall_mem_cons.mp (List.forall_mem_append.mp hmore).2).2).2
      obtain ⟨seconds?, zone?, rfl⟩ := exists_seconds_of_isSecondsShaped hleft htime
      have hc : c = 'T' ∨ c = ' ' := by simpa using hc
      rcases hc with rfl | rfl
      · exact ⟨some ⟨false, hours, minutes, seconds?, zone?⟩, rfl⟩
      · exact ⟨some ⟨true, hours, minutes, seconds?, zone?⟩, rfl⟩

/-- An ASCII text with the shape of a timestamp spells one. -/
theorem exists_spelling_of_isShaped {text : String} (hascii : ∀ c ∈ text.toList, c.toNat < 128)
    (h : isShaped text = true) : ∃ spelling : Spelling, spelling.text = text := by
  unfold isShaped at h
  split at h
  · cases h
  · rename_i rest hpasses
    obtain ⟨afterYear, hyear, hpasses⟩ := Option.bind_eq_some_iff.mp hpasses
    obtain ⟨months, hfirstDash, hpasses⟩ := Option.bind_eq_some_iff.mp hpasses
    obtain ⟨afterMonth, hmonth, hpasses⟩ := Option.bind_eq_some_iff.mp hpasses
    obtain ⟨days, hsecondDash, hday⟩ := Option.bind_eq_some_iff.mp hpasses
    obtain ⟨year, hchars⟩ := exists_numeral_of_passDigits? hascii hyear
    rw [pass?_eq_some.mp hfirstDash] at hchars
    rw [hchars] at hascii
    have hmonths := (List.forall_mem_cons.mp (List.forall_mem_append.mp hascii).2).2
    obtain ⟨month, rfl⟩ := exists_numeral_of_passDigits? hmonths hmonth
    rw [pass?_eq_some.mp hsecondDash] at hchars hmonths
    have hdays := (List.forall_mem_cons.mp (List.forall_mem_append.mp hmonths).2).2
    obtain ⟨day, rfl⟩ := exists_numeral_of_passDigits? hdays hday
    obtain ⟨clock?, rfl⟩ :=
      exists_clock_of_isTimeShaped (List.forall_mem_append.mp hdays).2 h
    refine ⟨⟨year, month, day, clock?⟩, ?_⟩
    rw [← String.toList_inj, hchars]
    exact String.toList_ofList

end TypedQuery.DateTime
