import Mathlib.Tactic.Ring
import TypedQuery.Proofs.Calendar.Spelling
import TypedQuery.Proofs.Token.Scanning

/-!
# Reading spelled timestamps

A date alone and a timestamp with seconds are read as the instants that they denote, an offset from
universal time being taken off. A timestamp that ends with its minutes, or goes on with an offset
there, is not read, although it has the shape of one.
-/

namespace TypedQuery

/-- Digits write a number below the power of ten of their count. -/
theorem digitsValueFrom_lt (n : Nat) {digits : List Char} (h : ∀ c ∈ digits, c.isDigit = true) :
    digitsValueFrom n digits < (n + 1) * 10 ^ digits.length := by
  induction digits generalizing n with
  | nil =>
    change n < (n + 1) * 1
    omega
  | cons c rest ih =>
    obtain ⟨hc, hrest⟩ := List.forall_mem_cons.mp h
    have hstep : n * 10 + digitValue c + 1 ≤ (n + 1) * 10 := by
      have hdigit := digitValue_le hc
      omega
    calc digitsValueFrom n (c :: rest)
        = digitsValueFrom (n * 10 + digitValue c) rest := rfl
      _ < (n * 10 + digitValue c + 1) * 10 ^ rest.length := ih _ hrest
      _ ≤ (n + 1) * 10 * 10 ^ rest.length := Nat.mul_le_mul_right _ hstep
      _ = (n + 1) * 10 ^ (c :: rest).length := by
        rw [List.length_cons]
        ring

section Stops

variable {kind : Char → Bool} {c : Char} {rest : List Char}

/-- Where a text ends, a run of characters does. -/
theorem stops_nil : Stops kind [] :=
  nofun

/-- A character of another kind ends a run. -/
theorem stops_cons (h : kind c = false) : Stops kind (c :: rest) := by
  intro d hd
  cases hd
  exact h

/-- A run ends as well where less of the rest is looked at. -/
theorem Stops.take (h : Stops kind rest) (count : Nat) :
    Stops kind (rest.take count) := by
  cases count with
  | zero => exact stops_nil
  | succ count =>
    cases rest with
    | nil => exact stops_nil
    | cons d more => exact stops_cons (h d rfl)

end Stops

namespace DateTime

/-! ### What a spelling denotes -/

/-- A numeral is less than the power of ten of its width. -/
theorem Numeral.value_lt {width : Nat} (numeral : Numeral width) : numeral.value < 10 ^ width := by
  have hbound := digitsValueFrom_lt 0 numeral.isDigit
  rw [numeral.length_eq, Nat.zero_add, Nat.one_mul] at hbound
  exact hbound

/-- The nanoseconds of a fraction. -/
def Fraction.nano (fraction : Fraction) : Nat :=
  fraction.numeral.value * 10 ^ (9 - (fraction.places + 1))

/-- The second that a number of seconds falls into; a leap second belongs to the one before it. -/
def Seconds.second (seconds : Seconds) : Nat :=
  min seconds.whole.value 59

/-- The nanoseconds from the second on, which in a leap second are more than a second. -/
def Seconds.nano (seconds : Seconds) : Nat :=
  (if seconds.whole.value = 60 then 10 ^ 9 else 0) + seconds.fraction?.elim 0 Fraction.nano

/-- Seconds up to a leap second, with at most nine digits behind the point. -/
structure Seconds.Valid (seconds : Seconds) : Prop where
  whole : seconds.whole.value ≤ 60
  fraction : ∀ fraction, seconds.fraction? = some fraction → fraction.places < 9

/-- The seconds by which a local time is ahead of universal time. -/
def Zone.seconds : Zone → Int
  | universal => 0
  | offset negative hours minutes =>
    let seconds : Int := hours.value * 3600 + minutes.value * 60
    if negative then -seconds else seconds

/-- An offset of less than a day. -/
def Zone.Valid : Zone → Prop
  | universal => True
  | offset _ hours minutes => hours.value < 24 ∧ minutes.value < 60

namespace Clock

/-- The second of the day. Seconds that are not written are zero. -/
def second (clock : Clock) : Nat :=
  clock.hours.value * 3600 + clock.minutes.value * 60 + clock.seconds?.elim 0 Seconds.second

/-- A time of day that exists. -/
structure Valid (clock : Clock) : Prop where
  hours : clock.hours.value < 24
  minutes : clock.minutes.value < 60
  seconds : ∀ seconds, clock.seconds? = some seconds → seconds.Valid
  zone : ∀ zone, clock.zone? = some zone → zone.Valid

end Clock

namespace Spelling

/-- The date that is written. -/
def date (spelling : Spelling) : Date :=
  ⟨spelling.year.value, spelling.month.value, spelling.day.value⟩

/-- A day of the calendar and a time of day that exist. -/
structure Valid (spelling : Spelling) : Prop where
  month : 1 ≤ spelling.month.value ∧ spelling.month.value ≤ 12
  day : 1 ≤ spelling.day.value ∧
    spelling.day.value ≤ Date.daysInMonth spelling.year.value spelling.month.value
  clock : ∀ clock, spelling.clock? = some clock → clock.Valid

/-- The instant that is written: so many seconds after 1 March of the year 0 in universal time, and
nanoseconds. What is not written is zero. -/
structure Denotes (spelling : Spelling) (t : DateTime) : Prop where
  second_lt : t.second < 86400
  seconds : t.day * 86400 + t.second = spelling.date.toNumber * 86400 +
    spelling.clock?.elim 0 (fun clock => (clock.second : Int)) -
    spelling.clock?.elim 0 (fun clock => clock.zone?.elim 0 Zone.seconds)
  nano : t.nano =
    spelling.clock?.elim 0 fun clock => clock.seconds?.elim 0 Seconds.nano

/-- A date alone, or a time of day with its seconds. -/
def isComplete (spelling : Spelling) : Bool :=
  spelling.clock?.all fun clock => clock.seconds?.isSome

end Spelling

/-! ### Reading numerals -/

variable {width least most : Nat} {rest : List Char} {c : Char}

/-- A numeral is read to its end, if no more digits are looked for or no more follow. -/
theorem number?_digits (numeral : Numeral width) (hleast : least ≤ width) (hmost : width ≤ most)
    (hends : width = most ∨ Stops Char.isDigit rest) :
    number? least most (numeral.digits ++ rest) = some (numeral.value, width, rest) := by
  have hlength := numeral.length_eq
  have hstops : Stops Char.isDigit (rest.take (most - width)) := by
    rcases hends with rfl | hends
    · rw [Nat.sub_self]
      exact stops_nil
    · exact hends.take _
  have htake : ((numeral.digits ++ rest).take most).takeWhile Char.isDigit = numeral.digits := by
    rw [List.take_append, hlength, List.take_of_length_le (by omega)]
    exact takeWhile_append_of_stops numeral.isDigit hstops
  have hdrop : (numeral.digits ++ rest).drop width = rest := by
    rw [List.drop_append_of_le_length (by omega), List.drop_of_length_le (by omega),
      List.nil_append]
  unfold number?
  dsimp only
  rw [htake, hlength, if_neg (Nat.not_lt.mpr hleast), hdrop]
  rfl

/-- Two digits are read whatever follows. -/
theorem number?_two (numeral : Numeral 2) (rest : List Char) :
    number? 2 2 (numeral.digits ++ rest) = some (numeral.value, 2, rest) :=
  number?_digits numeral (Nat.le_refl 2) (Nat.le_refl 2) (Or.inl rfl)

/-- Digits are not passed over with blanks. -/
theorem trimStart_digits (numeral : Numeral (width + 1)) (rest : List Char) :
    Text.trimStart (numeral.digits ++ rest) = numeral.digits ++ rest := by
  have hlength := numeral.length_eq
  unfold Text.trimStart
  cases hdigits : numeral.digits with
  | nil =>
    rw [hdigits] at hlength
    cases hlength
  | cons c more =>
    have hdigit : c.isDigit = true := numeral.isDigit c (hdigits ▸ List.mem_cons_self)
    have hblank := (not_blank_of_isNamePart (isNamePart_of_isDigit hdigit)).1
    rw [List.cons_append, List.dropWhile_cons_of_neg (by simp [hblank])]

/-- Two digits are read as their number. -/
theorem field?_digits (numeral : Numeral 2) (rest : List Char) :
    field? (numeral.digits ++ rest) = some (numeral.value, rest) := by
  unfold field?
  rw [trimStart_digits,
    number?_digits numeral (by decide) (Nat.le_refl 2) (Or.inl rfl)]
  rfl

/-- Letters, signs and colons are no fields. -/
theorem field?_eq_none (hblank : Text.isBlank c = false) (hdigit : c.isDigit = false) :
    field? (c :: rest) = none := by
  have hstart : Text.trimStart (c :: rest) = c :: rest :=
    List.dropWhile_cons_of_neg (by simp [hblank])
  have hempty : ((c :: rest).take 2).takeWhile Char.isDigit = [] :=
    List.takeWhile_cons_of_neg (by simp [hdigit])
  unfold field? number?
  rw [hstart, hempty]
  rfl

/-- Four digits are read as the year. -/
theorem year?_digits (numeral : Numeral 4) (rest : List Char) :
    year? (numeral.digits ++ rest) = some ((numeral.value : Int), rest) := by
  have hlength := numeral.length_eq
  have hnumber : number? 1 4 (numeral.digits ++ rest) = some (numeral.value, 4, rest) :=
    number?_digits numeral (by decide) (Nat.le_refl 4) (Or.inl rfl)
  unfold year?
  rw [trimStart_digits]
  cases hdigits : numeral.digits with
  | nil =>
    rw [hdigits] at hlength
    cases hlength
  | cons c more =>
    have hdigit : c.isDigit = true := numeral.isDigit c (hdigits ▸ List.mem_cons_self)
    rw [hdigits] at hnumber
    rw [List.cons_append] at hnumber ⊢
    split
    · rename_i heq
      cases (List.cons.inj heq).1
      cases hdigit
    · rename_i heq
      cases (List.cons.inj heq).1
      cases hdigit
    · rw [hnumber]
      rfl

/-- A character that stands there is passed. -/
theorem pass?_cons (c : Char) (rest : List Char) : pass? c (c :: rest) = some rest :=
  pass?_eq_some.mpr rfl

/-! ### Reading dates and times of day -/

/-- The date of a spelling is read, up to the time of day. -/
theorem date?_chars (spelling : Spelling) :
    date? spelling.chars = some (spelling.date, spelling.clockChars) := by
  unfold date? Spelling.chars
  simp only [year?_digits, pass?_cons, field?_digits, Option.bind_eq_bind, Option.bind_some]
  rfl

/-- What is written of an offset does not go on with a digit or a fraction. -/
theorem stops_zoneChars (clock : Clock) :
    Stops Char.isDigit clock.zoneChars ∧ ∀ rest, clock.zoneChars ≠ '.' :: rest := by
  unfold Clock.zoneChars
  cases clock.zone? with
  | none => exact ⟨stops_nil, nofun⟩
  | some zone =>
    cases zone with
    | universal => exact ⟨stops_cons rfl, nofun⟩
    | offset negative hours minutes =>
      cases negative with
      | true => exact ⟨stops_cons rfl, nofun⟩
      | false => exact ⟨stops_cons rfl, nofun⟩

/-- What is written of an offset does not start with a colon. -/
theorem pass?_zoneChars (clock : Clock) : pass? ':' clock.zoneChars = none := by
  unfold Clock.zoneChars
  cases clock.zone? with
  | none => rfl
  | some zone =>
    cases zone with
    | universal => rfl
    | offset negative hours minutes =>
      cases negative with
      | true => rfl
      | false => rfl

/-- The digits behind the point are read as nanoseconds. -/
theorem fraction?_digits {fraction : Fraction} (hplaces : fraction.places < 9)
    (hstops : Stops Char.isDigit rest) :
    fraction? (fraction.numeral.digits ++ rest) = some (fraction.nano, rest) := by
  have hnone : ∀ c ∈ ([] : List Char), c.isDigit = true := nofun
  have hdrop : rest.dropWhile Char.isDigit = rest := dropWhile_append_of_stops hnone hstops
  unfold fraction?
  rw [number?_digits fraction.numeral (by omega) (by omega) (Or.inr hstops), Option.map_some]
  dsimp only
  rw [hdrop]
  rfl

variable {clock : Clock} {seconds : Seconds}

/-- A fraction is read as its nanoseconds, and its absence as none. -/
theorem optionalFraction?_chars (clock : Clock) (hvalid : seconds.Valid) :
    optionalFraction? (seconds.fraction?.elim [] Fraction.chars ++ clock.zoneChars) =
      some (seconds.fraction?.elim 0 Fraction.nano, clock.zoneChars) := by
  obtain ⟨hstops, hpoint⟩ := stops_zoneChars clock
  cases hfraction : seconds.fraction? with
  | none =>
    change optionalFraction? clock.zoneChars = some (0, clock.zoneChars)
    unfold optionalFraction?
    split
    · rename_i heq
      exact absurd heq (hpoint _)
    · rfl
  | some fraction => exact fraction?_digits (hvalid.fraction fraction hfraction) hstops

/-- A local time of day is read where it has its seconds and no offset. -/
theorem timeOn?_timeChars (date : Date) (hseconds : clock.seconds? = some seconds)
    (hvalid : seconds.Valid) :
    timeOn? date clock.timeChars =
      if clock.zoneChars.isEmpty then
        ofParts? date clock.hours.value clock.minutes.value seconds.whole.value
          (seconds.fraction?.elim 0 Fraction.nano)
      else none := by
  unfold timeOn? Clock.timeChars Clock.secondsChars
  simp only [hseconds, Option.elim_some, Seconds.chars, List.cons_append, List.append_assoc,
    field?_digits, pass?_cons, optionalFraction?_chars clock hvalid, Option.bind_eq_bind,
    Option.bind_some]

/-- A time of day that ends with its minutes, or goes on with an offset there, is not read. -/
theorem timeOn?_eq_none (date : Date) (hseconds : clock.seconds? = none) :
    timeOn? date clock.timeChars = none := by
  unfold timeOn? Clock.timeChars Clock.secondsChars
  simp only [hseconds, Option.elim_none, List.nil_append, field?_digits, pass?_cons,
    pass?_zoneChars, Option.bind_eq_bind, Option.bind_some, Option.bind_none]

variable {spelling : Spelling} {zone : Zone}

/-- A time of day is read to what it is at its place before or behind `T`, or a blank. -/
theorem readLocal?_chars (hclock : spelling.clock? = some clock) :
    readLocal? spelling.chars =
      if clock.spaced then none else timeOn? spelling.date clock.timeChars := by
  unfold readLocal?
  rw [date?_chars, Spelling.clockChars, hclock]
  cases hspaced : clock.spaced with
  | true =>
    have hblank : pass? 'T' (' ' :: clock.timeChars) = none := rfl
    simp only [Option.elim_some, Clock.chars, hspaced, if_true, hblank, Option.bind_eq_bind,
      Option.bind_some, Option.bind_none]
  | false =>
    simp only [Option.elim_some, Clock.chars, hspaced, Bool.false_eq_true, if_false, pass?_cons,
      Option.bind_eq_bind, Option.bind_some]

/-- The format with a space reads the times behind a space alone. -/
theorem readSpaced?_chars (hclock : spelling.clock? = some clock) :
    readSpaced? spelling.chars =
      if clock.spaced then timeOn? spelling.date clock.timeChars else none := by
  unfold readSpaced?
  rw [date?_chars, Spelling.clockChars, hclock]
  cases hspaced : clock.spaced with
  | true =>
    have htrim : Text.trimStart (' ' :: clock.timeChars) = clock.timeChars :=
      (List.dropWhile_cons_of_pos rfl).trans (trimStart_digits clock.hours _)
    simp only [Option.elim_some, Clock.chars, hspaced, if_true, htrim, Option.bind_eq_bind,
      Option.bind_some]
  | false =>
    have htrim : Text.trimStart ('T' :: clock.timeChars) = 'T' :: clock.timeChars :=
      List.dropWhile_cons_of_neg (by decide)
    have hnone : timeOn? spelling.date ('T' :: clock.timeChars) = none := by
      unfold timeOn?
      rw [field?_eq_none (by decide) (by decide)]
      rfl
    simp only [Option.elim_some, Clock.chars, hspaced, Bool.false_eq_true, if_false, htrim, hnone,
      Option.bind_eq_bind, Option.bind_some]

/-- The format of dates reads dates without a time of day alone. -/
theorem readDate?_chars (spelling : Spelling) :
    readDate? spelling.chars =
      if spelling.clock?.isNone then ofParts? spelling.date 0 0 0 0 else none := by
  unfold readDate?
  rw [date?_chars, Spelling.clockChars]
  cases spelling.clock? with
  | none => rfl
  | some clock => rfl

/-- A valid offset is read to its seconds. -/
theorem offset?_chars (hvalid : zone.Valid) : offset? zone.chars = some (zone.seconds, []) := by
  cases zone with
  | universal => rfl
  | offset negative hours minutes =>
    obtain ⟨hhours, hminutes⟩ := hvalid
    have hbounds : hours.value ≤ 23 ∧ minutes.value ≤ 59 := by omega
    have hhoursRead := number?_two hours (':' :: minutes.digits)
    have hminutesRead := number?_two minutes []
    rw [List.append_nil] at hminutesRead
    cases negative with
    | true =>
      simp [offset?, Zone.chars, Zone.seconds, hhoursRead, hminutesRead, pass?_cons, hbounds]
    | false =>
      simp [offset?, Zone.chars, Zone.seconds, hhoursRead, hminutesRead, pass?_cons, hbounds]

/-- The strict form reads the date and the time up to the minutes, and goes on from there. -/
theorem readZoned?_chars (hclock : spelling.clock? = some clock) :
    readZoned? spelling.chars = (do
      let rest ← pass? ':' clock.secondsChars
      let (second, _, rest) ← number? 2 2 rest
      let (nano, rest) ← optionalFraction? rest
      let (offset, rest) ← offset? rest
      if rest.isEmpty then
        (ofParts? spelling.date clock.hours.value clock.minutes.value second nano).map
          (·.minusOffset offset)
      else none) := by
  have htwo : ∀ {α : Type} (numeral : Numeral 2) (rest : List Char)
      (next : Nat × Nat × List Char → Option α),
      (number? 2 2 (numeral.digits ++ rest)).bind next = next (numeral.value, 2, rest) := by
    intro α numeral rest next
    rw [number?_digits numeral (Nat.le_refl 2) (Nat.le_refl 2) (Or.inl rfl), Option.bind_some]
  have hfour : ∀ {α : Type} (rest : List Char) (next : Nat × Nat × List Char → Option α),
      (number? 4 4 (spelling.year.digits ++ rest)).bind next =
        next (spelling.year.value, 4, rest) := by
    intro α rest next
    rw [number?_digits spelling.year (Nat.le_refl 4) (Nat.le_refl 4) (Or.inl rfl),
      Option.bind_some]
  have hpass : ∀ {α : Type} (c : Char) (rest : List Char) (next : List Char → Option α),
      (pass? c (c :: rest)).bind next = next rest := by
    intro α c rest next
    rw [pass?_cons, Option.bind_some]
  have hclockChars : spelling.clockChars =
      (if clock.spaced then ' ' else 'T') :: clock.timeChars := by
    unfold Spelling.clockChars
    rw [hclock]
    rfl
  have hbehind : ∀ c : Char, c = (if clock.spaced then ' ' else 'T') →
      (c = 'T' || c = 't' || c = ' ') = true := by
    rintro c rfl
    cases clock.spaced <;> rfl
  unfold readZoned? Spelling.chars
  rw [hclockChars]
  -- each part is read before what is done with it is looked at
  simp only [↓Option.bind_eq_bind, ↓hfour, ↓htwo, ↓hpass, ↓hbehind _ rfl, ↓reduceIte,
    ↓Option.bind_some, Clock.timeChars]
  rfl

/-- A timestamp with an offset is read to what its local time is, less the offset. -/
theorem readZoned?_timed (hclock : spelling.clock? = some clock)
    (hseconds : clock.seconds? = some seconds) (hvalid : seconds.Valid)
    (hzone : clock.zone? = some zone) (hoffset : zone.Valid) :
    readZoned? spelling.chars =
      (ofParts? spelling.date clock.hours.value clock.minutes.value seconds.whole.value
        (seconds.fraction?.elim 0 Fraction.nano)).map (·.minusOffset zone.seconds) := by
  have hrest := optionalFraction?_chars clock hvalid
  have hzoneChars : clock.zoneChars = zone.chars := by
    unfold Clock.zoneChars
    rw [hzone]
    rfl
  have hwhole := number?_two seconds.whole (seconds.fraction?.elim [] Fraction.chars ++ zone.chars)
  rw [hzoneChars] at hrest
  rw [readZoned?_chars hclock]
  simp only [Clock.secondsChars, hseconds, Option.elim_some, Seconds.chars, List.cons_append,
    List.append_assoc, hzoneChars, pass?_cons, hwhole, hrest, offset?_chars hoffset,
    Option.bind_eq_bind, Option.bind_some]
  rfl

/-- The format with an offset reads no time of day without seconds. -/
theorem readZoned?_eq_none (hclock : spelling.clock? = some clock)
    (hseconds : clock.seconds? = none) : readZoned? spelling.chars = none := by
  rw [readZoned?_chars hclock]
  simp only [Clock.secondsChars, hseconds, Option.elim_none, List.nil_append, pass?_zoneChars,
    Option.bind_eq_bind, Option.bind_none]

/-! ### What is read -/

/-- A fraction is less than a second. -/
theorem Fraction.nano_lt {fraction : Fraction} (hplaces : fraction.places < 9) :
    fraction.nano < 10 ^ 9 := by
  have hsplit : 10 ^ (fraction.places + 1) * 10 ^ (9 - (fraction.places + 1)) = 10 ^ 9 := by
    rw [← Nat.pow_add]
    congr 1
    omega
  rw [← hsplit]
  exact Nat.mul_lt_mul_of_pos_right fraction.numeral.value_lt (Nat.pow_pos (by decide))

/-- A valid spelling has a date of the calendar. -/
theorem Spelling.Valid.isValid_date (h : spelling.Valid) : spelling.date.isValid = true := by
  have hyear := spelling.year.value_lt
  obtain ⟨hmonth, hmonthLast⟩ := h.month
  obtain ⟨hday, hdayLast⟩ := h.day
  unfold Date.isValid Spelling.date
  simp only [Bool.and_eq_true, decide_eq_true_eq]
  omega

/-- The instant of a date and a time of day that exist. -/
theorem ofParts?_of_valid {date : Date} {hour minute second nano : Nat}
    (hdate : date.isValid = true) (hhour : hour < 24) (hminute : minute < 60)
    (hsecond : second ≤ 60) (hnano : nano < 10 ^ 9) :
    ofParts? date hour minute second nano =
      some ⟨date.toNumber, hour * 3600 + minute * 60 + min second 59,
        (if second = 60 then 10 ^ 9 else 0) + nano⟩ := by
  unfold ofParts?
  rw [if_pos (by simp [hdate, hhour, hminute, hsecond]; omega)]
  by_cases hleap : second = 60
  · rw [if_pos hleap, if_pos hleap, hleap, Nat.add_comm nano]
    rfl
  · have hmin : min second 59 = second := by omega
    rw [if_neg hleap, if_neg hleap, hmin, Nat.zero_add]

/-- Taking off an offset moves an instant by just so many seconds. -/
theorem minusOffset_spec (t : DateTime) (offset : Int) :
    (t.minusOffset offset).second < 86400 ∧
      (t.minusOffset offset).day * 86400 + (t.minusOffset offset).second =
        t.day * 86400 + t.second - offset ∧
      (t.minusOffset offset).nano = t.nano := by
  have hdiv : ((t.second : Int) - offset).fdiv 86400 = ((t.second : Int) - offset) / 86400 :=
    Int.fdiv_eq_ediv_of_nonneg _ (by decide)
  have hmod : ((t.second : Int) - offset).fmod 86400 = ((t.second : Int) - offset) % 86400 :=
    Int.fmod_eq_emod_of_nonneg _ (by decide)
  unfold minusOffset
  dsimp only
  rw [hdiv, hmod]
  omega

/-- A valid time of day falls into a day. -/
theorem Clock.Valid.second_lt (h : clock.Valid) : clock.second < 86400 := by
  have hhours := h.hours
  have hminutes := h.minutes
  have hseconds : clock.seconds?.elim 0 Seconds.second ≤ 59 := by
    cases clock.seconds? with
    | none => exact Nat.zero_le 59
    | some seconds => exact Nat.min_le_right _ _
  unfold Clock.second
  omega

/-- A date alone is read as its midnight. -/
theorem Spelling.Valid.read_bare (h : spelling.Valid) (hclock : spelling.clock? = none) :
    read? spelling.text = some ⟨spelling.date.toNumber, 0, 0⟩ := by
  have hchars : spelling.text.toList = spelling.chars := String.toList_ofList
  have hread : readDate? spelling.chars = ofParts? spelling.date 0 0 0 0 := by
    rw [readDate?_chars, hclock]
    rfl
  unfold read?
  dsimp only
  rw [hchars, hread, ofParts?_of_valid h.isValid_date (by decide) (by decide) (by decide)
    (by decide)]
  rfl

/-- The local time of a spelling with seconds. -/
def Spelling.localTime (spelling : Spelling) (clock : Clock) (seconds : Seconds) : DateTime :=
  ⟨spelling.date.toNumber, clock.second, seconds.nano⟩

/-- The parts of a valid spelling make its local time. -/
theorem ofParts?_localTime (h : spelling.Valid) (hclock : spelling.clock? = some clock)
    (hseconds : clock.seconds? = some seconds) :
    ofParts? spelling.date clock.hours.value clock.minutes.value seconds.whole.value
      (seconds.fraction?.elim 0 Fraction.nano) = some (spelling.localTime clock seconds) := by
  have hvalid := h.clock clock hclock
  have hsecondsValid := hvalid.seconds seconds hseconds
  have hnano : seconds.fraction?.elim 0 Fraction.nano < 10 ^ 9 := by
    cases hfraction : seconds.fraction? with
    | none => decide
    | some fraction => exact Fraction.nano_lt (hsecondsValid.fraction fraction hfraction)
  have hsecond : clock.second = clock.hours.value * 3600 + clock.minutes.value * 60 +
      min seconds.whole.value 59 := by
    unfold Clock.second
    rw [hseconds]
    rfl
  rw [ofParts?_of_valid h.isValid_date hvalid.hours hvalid.minutes hsecondsValid.whole hnano,
    ← hsecond]
  rfl

/-- A timestamp with seconds is read as its local time, less the offset if there is one. -/
theorem Spelling.Valid.read_timed (h : spelling.Valid) (hclock : spelling.clock? = some clock)
    (hseconds : clock.seconds? = some seconds) :
    read? spelling.text = some (clock.zone?.elim (spelling.localTime clock seconds)
      fun zone => (spelling.localTime clock seconds).minusOffset zone.seconds) := by
  have hchars : spelling.text.toList = spelling.chars := String.toList_ofList
  have hvalid := h.clock clock hclock
  have hsecondsValid := hvalid.seconds seconds hseconds
  have hparts := ofParts?_localTime h hclock hseconds
  have hbare : readDate? spelling.chars = none := by
    rw [readDate?_chars, hclock]
    rfl
  unfold read?
  dsimp only
  rw [hchars, hbare, readLocal?_chars hclock, readSpaced?_chars hclock,
    timeOn?_timeChars spelling.date hseconds hsecondsValid, hparts]
  cases hzone : clock.zone? with
  | none =>
    have hends : clock.zoneChars.isEmpty = true := by
      unfold Clock.zoneChars
      rw [hzone]
      rfl
    rw [if_pos hends]
    cases clock.spaced <;> rfl
  | some zone =>
    have hends : ¬clock.zoneChars.isEmpty = true := by
      unfold Clock.zoneChars
      rw [hzone]
      cases zone <;> exact nofun
    rw [if_neg hends, readZoned?_timed hclock hseconds hsecondsValid hzone
      (hvalid.zone zone hzone), hparts]
    cases clock.spaced <;> rfl

/-- A complete spelling of an instant that exists is read as this instant. -/
theorem Spelling.Valid.read_complete (h : spelling.Valid) (hcomplete : spelling.isComplete = true) :
    ∃ t, read? spelling.text = some t ∧ spelling.Denotes t := by
  cases hclock : spelling.clock? with
  | none =>
    have hmidnight : 0 < 86400 := by decide
    refine ⟨_, h.read_bare hclock, ⟨hmidnight, ?_, ?_⟩⟩
    · rw [hclock]
      simp
    · rw [hclock]
      rfl
  | some clock =>
    have hvalid := h.clock clock hclock
    obtain ⟨seconds, hseconds⟩ : ∃ seconds, clock.seconds? = some seconds := by
      unfold Spelling.isComplete at hcomplete
      rw [hclock] at hcomplete
      exact Option.isSome_iff_exists.mp hcomplete
    have hlocal : (spelling.localTime clock seconds).second < 86400 := hvalid.second_lt
    refine ⟨_, h.read_timed hclock hseconds, ?_⟩
    cases hzone : clock.zone? with
    | none =>
      refine ⟨hlocal, ?_, ?_⟩
      · rw [hclock, Option.elim_some, Option.elim_some, hzone]
        exact (Int.sub_zero _).symm
      · rw [hclock, Option.elim_some, hseconds]
        rfl
    | some zone =>
      obtain ⟨hsecondLt, hmoved, hkept⟩ :=
        minusOffset_spec (spelling.localTime clock seconds) zone.seconds
      refine ⟨hsecondLt, hmoved.trans ?_, hkept.trans ?_⟩
      · rw [hclock, Option.elim_some, Option.elim_some, hzone]
        rfl
      · rw [hclock, Option.elim_some, hseconds]
        rfl

/-- A timestamp without its seconds is not read. -/
theorem Spelling.read_incomplete (h : spelling.isComplete = false) :
    read? spelling.text = none := by
  have hchars : spelling.text.toList = spelling.chars := String.toList_ofList
  unfold Spelling.isComplete at h
  cases hclock : spelling.clock? with
  | none =>
    rw [hclock] at h
    cases h
  | some clock =>
    have hseconds : clock.seconds? = none := by
      rw [hclock] at h
      exact Option.isNone_iff_eq_none.mp (Option.isSome_eq_false_iff.mp h)
    have hbare : readDate? spelling.chars = none := by
      rw [readDate?_chars, hclock]
      rfl
    unfold read?
    dsimp only
    rw [hchars, hbare, readLocal?_chars hclock, readSpaced?_chars hclock,
      timeOn?_eq_none _ hseconds, readZoned?_eq_none hclock hseconds]
    cases clock.spaced <;> rfl

end DateTime

end TypedQuery
