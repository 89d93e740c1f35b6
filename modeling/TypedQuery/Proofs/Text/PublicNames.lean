import TypedQuery.Schema.Basic

/-!
# Public names

A public name has no separators, and it is its own public name unless it starts with a capital. It
does so in one case only: separators at the start of a host name are left out, but the capital of a
word behind them is kept, so that `_FirstName` becomes `FirstName`. What a host declares under a
host name or under its public name has the same public name in all other cases.
-/

namespace TypedQuery

namespace Text

/-! ### ASCII characters -/

/-- A text of ASCII characters. -/
def IsAscii (text : String) : Prop :=
  ∀ c ∈ text.toList, c.toNat < 128

variable {first leading raise started : Bool} {c : Char} {chars rest : List Char}

/-- What holds of all ASCII characters is checked one by one. -/
theorem forall_ascii {p : Char → Prop} (hall : ∀ n : Fin 128, p (Char.ofNat n))
    (hascii : c.toNat < 128) : p c := by
  have hchar : Char.ofNat c.toNat = c := Char.ofNat_toNat c
  exact hchar ▸ hall ⟨c.toNat, hascii⟩

/-- The small form of an ASCII character is one character. -/
theorem small_of_ascii (hascii : c.toNat < 128) : small c = [c.toLower] := by
  unfold small
  rw [if_pos hascii]

/-- The capital form of an ASCII character is one character. -/
theorem capital_of_ascii (hascii : c.toNat < 128) : capital c = [c.toUpper] := by
  unfold capital
  rw [if_pos hascii]

/-- Among ASCII characters the capitals are the upper case letters. -/
theorem isCapital_of_ascii (hascii : c.toNat < 128) : isCapital c = c.isUpper := by
  unfold isCapital
  rw [if_pos hascii]

/-- The small form of an ASCII character is one of them. -/
theorem toNat_toLower_lt (hascii : c.toNat < 128) : c.toLower.toNat < 128 :=
  forall_ascii (p := fun c => c.toLower.toNat < 128) (by decide) hascii

/-- The capital form of an ASCII character is one of them. -/
theorem toNat_toUpper_lt (hascii : c.toNat < 128) : c.toUpper.toNat < 128 :=
  forall_ascii (p := fun c => c.toUpper.toNat < 128) (by decide) hascii

/-- A small form is no capital. -/
theorem isUpper_toLower (hascii : c.toNat < 128) : c.toLower.isUpper = false :=
  forall_ascii (p := fun c => c.toLower.isUpper = false) (by decide) hascii

/-! ### Words and their separators -/

/-- The characters between the words of a host name. -/
def isSeparator (c : Char) : Bool :=
  c = '_' || c = '-'

/-- A name that starts with separators and goes on with a capital. -/
def opensRaised (name : String) : Bool :=
  name.toList.head?.any isSeparator && (name.toList.dropWhile isSeparator).head?.any isCapital

/-- A name that starts with a capital. -/
def opensCapital (name : String) : Bool :=
  name.toList.head?.any isCapital

/-- No small form of another character is a separator. -/
theorem isSeparator_toLower (hascii : c.toNat < 128) (hc : isSeparator c = false) :
    isSeparator c.toLower = false :=
  forall_ascii (p := fun c => isSeparator c = false → isSeparator c.toLower = false)
    (by decide) hascii hc

/-- No capital form of another character is a separator. -/
theorem isSeparator_toUpper (hascii : c.toNat < 128) (hc : isSeparator c = false) :
    isSeparator c.toUpper = false :=
  forall_ascii (p := fun c => isSeparator c = false → isSeparator c.toUpper = false)
    (by decide) hascii hc

/-! ### One character at a time -/

/-- A separator is left out, and raises the next character unless nothing stands before it. -/
theorem camelFrom_separator (hc : isSeparator c = true) :
    camelFrom first leading raise started (c :: rest) =
      camelFrom false false started started rest := by
  have hif : (c = '_' || c = '-') = true := hc
  rw [camelFrom, if_pos hif]

/-- A capital at the start, or before another one or the end of the leading capitals, is written
small. -/
theorem camelFrom_leading (hc : isSeparator c = false) (hcapital : isCapital c = true)
    (hrun : (first || !(rest.head?.map isSmall).getD false) = true) :
    camelFrom first true raise started (c :: rest) =
      small c ++ camelFrom false true raise true rest := by
  have hif : ¬(c = '_' || c = '-') = true := by
    rw [Bool.not_eq_true]
    exact hc
  rw [camelFrom, if_neg hif, hcapital, hrun]
  rfl

/-- Every other character ends the leading capitals. -/
theorem camelFrom_plain (hc : isSeparator c = false)
    (hplain : (leading && isCapital c && (first || !(rest.head?.map isSmall).getD false)) = false) :
    camelFrom first leading raise started (c :: rest) =
      (if raise then capital c else [c]) ++ camelFrom false false false true rest := by
  have hif : ¬(c = '_' || c = '-') = true := by
    rw [Bool.not_eq_true]
    exact hc
  rw [camelFrom, if_neg hif, hplain]
  cases raise <;> rfl

/-! ### The characters of a public name -/

/-- A public name has the characters of the host name but for its separators, some of them in
another case. -/
theorem exists_of_mem_camelFrom (hascii : ∀ c ∈ chars, c.toNat < 128) {d : Char}
    (hmem : d ∈ camelFrom first leading raise started chars) :
    ∃ c ∈ chars, isSeparator c = false ∧ (d = c ∨ d = c.toLower ∨ d = c.toUpper) := by
  induction chars generalizing first leading raise started with
  | nil => cases hmem
  | cons c rest ih =>
    obtain ⟨hc, hrest⟩ := List.forall_mem_cons.mp hascii
    have hlater : ∀ {first leading raise started : Bool},
        d ∈ camelFrom first leading raise started rest →
          ∃ e ∈ c :: rest, isSeparator e = false ∧ (d = e ∨ d = e.toLower ∨ d = e.toUpper) := by
      intro first leading raise started h
      obtain ⟨e, he, hform⟩ := ih hrest h
      exact ⟨e, List.mem_cons_of_mem _ he, hform⟩
    cases hseparator : isSeparator c with
    | true =>
      rw [camelFrom_separator hseparator] at hmem
      exact hlater hmem
    | false =>
      cases hrun : leading && isCapital c && (first || !(rest.head?.map isSmall).getD false) with
      | true =>
        obtain ⟨hleading, hstays⟩ := (Bool.and_eq_true _ _).mp hrun
        obtain ⟨rfl, hcapital⟩ := (Bool.and_eq_true _ _).mp hleading
        rw [camelFrom_leading hseparator hcapital hstays, small_of_ascii hc] at hmem
        rcases List.mem_cons.mp hmem with rfl | hmem
        · exact ⟨c, List.mem_cons_self, hseparator, Or.inr (Or.inl rfl)⟩
        · exact hlater hmem
      | false =>
        rw [camelFrom_plain hseparator hrun, capital_of_ascii hc] at hmem
        rcases List.mem_append.mp hmem with hmem | hmem
        · refine ⟨c, List.mem_cons_self, hseparator, ?_⟩
          cases raise with
          | true => exact Or.inr (Or.inr (List.mem_singleton.mp hmem))
          | false => exact Or.inl (List.mem_singleton.mp hmem)
        · exact hlater hmem

variable {name : String}

/-- A public spelling is made character by character. -/
theorem toList_camelCase : (camelCase name).toList = camelFrom true true false false name.toList :=
  String.toList_ofList

/-- Separators are left out. -/
theorem isSeparator_of_mem_camelCase (hascii : IsAscii name) :
    ∀ c ∈ (camelCase name).toList, isSeparator c = false := by
  intro d hd
  rw [toList_camelCase] at hd
  obtain ⟨c, hc, hseparator, rfl | rfl | rfl⟩ := exists_of_mem_camelFrom hascii hd
  · exact hseparator
  · exact isSeparator_toLower (hascii c hc) hseparator
  · exact isSeparator_toUpper (hascii c hc) hseparator

/-- The public spelling of an ASCII name is an ASCII name. -/
theorem isAscii_camelCase (hascii : IsAscii name) : IsAscii (camelCase name) := by
  intro d hd
  rw [toList_camelCase] at hd
  obtain ⟨c, hc, -, rfl | rfl | rfl⟩ := exists_of_mem_camelFrom hascii hd
  · exact hascii _ hc
  · exact toNat_toLower_lt (hascii c hc)
  · exact toNat_toUpper_lt (hascii c hc)

/-! ### The first character -/

/-- Without separators, what follows the leading capitals stays as it is. -/
theorem camelFrom_eq_self (hchars : ∀ c ∈ chars, isSeparator c = false) :
    camelFrom first false false started chars = chars := by
  induction chars generalizing first started with
  | nil => rfl
  | cons c rest ih =>
    obtain ⟨hc, hrest⟩ := List.forall_mem_cons.mp hchars
    rw [camelFrom_plain hc rfl, ih hrest]
    rfl

/-- Separators at the start of a name are left out, and the name stays as it is up to the next
separator. -/
theorem head?_camelFrom_unstarted :
    (camelFrom first false false false chars).head? = (chars.dropWhile isSeparator).head? := by
  induction chars generalizing first with
  | nil => rfl
  | cons c rest ih =>
    cases hc : isSeparator c with
    | true => rw [camelFrom_separator hc, List.dropWhile_cons_of_pos hc, ih]
    | false =>
      have hpass : ¬isSeparator c = true := by simp [hc]
      rw [camelFrom_plain hc rfl, List.dropWhile_cons_of_neg hpass]
      rfl

/-- A public name starts with a capital exactly if separators before a capital open the host
name. -/
theorem opensCapital_camelCase (hascii : IsAscii name) :
    opensCapital (camelCase name) = opensRaised name := by
  unfold opensCapital opensRaised
  rw [toList_camelCase]
  unfold IsAscii at hascii
  cases hname : name.toList with
  | nil => rfl
  | cons c rest =>
    rw [hname] at hascii
    have hc : c.toNat < 128 := hascii c List.mem_cons_self
    cases hseparator : isSeparator c with
    | true =>
      have hopens : (c :: rest).head?.any isSeparator = true := hseparator
      rw [camelFrom_separator hseparator, head?_camelFrom_unstarted,
        List.dropWhile_cons_of_pos hseparator, hopens, Bool.true_and]
    | false =>
      have hopens : (c :: rest).head?.any isSeparator = false := hseparator
      rw [hopens, Bool.false_and]
      cases hcapital : isCapital c with
      | true =>
        rw [camelFrom_leading hseparator hcapital rfl, small_of_ascii hc]
        exact (isCapital_of_ascii (toNat_toLower_lt hc)).trans (isUpper_toLower hc)
      | false =>
        have hplain : (true && isCapital c && (true || !(rest.head?.map isSmall).getD false)) =
            false := by
          rw [hcapital]
          rfl
        rw [camelFrom_plain hseparator hplain]
        exact hcapital

/-- A name without separators is its own public name exactly if it does not start with a
capital. -/
theorem camelCase_eq_self_iff (hascii : IsAscii name)
    (hname : ∀ c ∈ name.toList, isSeparator c = false) :
    camelCase name = name ↔ opensCapital name = false := by
  rw [← String.toList_inj, toList_camelCase]
  unfold opensCapital
  unfold IsAscii at hascii
  cases hchars : name.toList with
  | nil => exact ⟨fun _ => rfl, fun _ => rfl⟩
  | cons c rest =>
    rw [hchars] at hascii hname
    obtain ⟨hc, hrest⟩ := List.forall_mem_cons.mp hname
    cases hcapital : isCapital c with
    | true =>
      have hc128 : c.toNat < 128 := hascii c List.mem_cons_self
      have hchanged : c.toLower ≠ c := by
        intro hsame
        have hupper : c.isUpper = true := (isCapital_of_ascii hc128).symm.trans hcapital
        rw [← hsame, isUpper_toLower hc128] at hupper
        cases hupper
      rw [camelFrom_leading hc hcapital rfl, small_of_ascii hc128]
      refine ⟨fun hsame => absurd (List.cons.inj hsame).1 hchanged, fun hlow => ?_⟩
      exact absurd (hcapital.symm.trans hlow) (by decide)
    | false =>
      have hplain : (true && isCapital c && (true || !(rest.head?.map isSmall).getD false)) =
          false := by
        rw [hcapital]
        rfl
      rw [camelFrom_plain hc hplain, camelFrom_eq_self hrest]
      exact ⟨fun _ => hcapital, fun _ => rfl⟩

/-! ### What is declared under a name -/

/-- A field, a mutation and an argument of a mutation have one declaration under a host name and
under another one, but for the member that a field shows. -/
structure SameDeclarations (name other : String) : Prop where
  field : ∀ ty, FieldDefinition.ofMember other ty =
    { FieldDefinition.ofMember name ty with resolver := .member other }
  mutation : ∀ mutation : Mutation,
    ({ mutation with name := other }).publish = ({ mutation with name := name }).publish
  argument : ∀ (mutation : Mutation) (before after : List ArgumentDefinition)
    (argument : ArgumentDefinition),
    ({ mutation with arguments := before ++ { argument with name := other } :: after }).publish =
      ({ mutation with arguments := before ++ { argument with name := name } :: after }).publish

/-- Names with one public name declare the same. -/
theorem SameDeclarations.of_camelCase {other : String} (h : camelCase other = camelCase name) :
    SameDeclarations name other where
  field ty := by
    unfold FieldDefinition.ofMember
    rw [h]
  mutation mutation := by
    unfold Mutation.publish
    rw [h]
  argument mutation before after argument := by
    unfold Mutation.publish
    simp only [List.map_append, List.map_cons, h]

/-- The public name of an ASCII name has no separators. It starts with a capital, and has another
public name than itself, exactly if separators before a capital open the host name. In all other
cases what is declared under the host name and under the public name is the same. -/
theorem camelCase_public (name : String) (hascii : IsAscii name) :
    (∀ c ∈ (camelCase name).toList, c ≠ '_' ∧ c ≠ '-') ∧
      (opensCapital (camelCase name) = false ↔ opensRaised name = false) ∧
      (camelCase (camelCase name) = camelCase name ↔ opensRaised name = false) ∧
      (opensRaised name = false → SameDeclarations name (camelCase name)) := by
  have hseparators := isSeparator_of_mem_camelCase hascii
  have hopens : opensCapital (camelCase name) = opensRaised name := opensCapital_camelCase hascii
  have hfixed : camelCase (camelCase name) = camelCase name ↔ opensRaised name = false := by
    rw [← hopens]
    exact camelCase_eq_self_iff (isAscii_camelCase hascii) hseparators
  refine ⟨fun c hc => ?_, by rw [hopens], hfixed, fun h => .of_camelCase (hfixed.mpr h)⟩
  have hc : isSeparator c = false := hseparators c hc
  simpa [isSeparator] using hc

/-- Separators at both ends of a name and next to each other, and runs of capitals. -/
theorem camelCase_public_request :
    IsAscii "_last--HTTP_Request2_" ∧ opensRaised "_last--HTTP_Request2_" = false ∧
      camelCase "_last--HTTP_Request2_" = "lastHTTPRequest2" ∧
      camelCase "lastHTTPRequest2" = "lastHTTPRequest2" ∧
      SameDeclarations "_last--HTTP_Request2_" "lastHTTPRequest2" := by
  have hascii : IsAscii "_last--HTTP_Request2_" := by
    unfold IsAscii
    simp
  have hlow : opensRaised "_last--HTTP_Request2_" = false := by decide
  have hname : camelCase "_last--HTTP_Request2_" = "lastHTTPRequest2" := by decide
  obtain ⟨-, -, hfixed, hsame⟩ := camelCase_public "_last--HTTP_Request2_" hascii
  rw [hname] at hfixed hsame
  exact ⟨hascii, hlow, hname, hfixed.mpr hlow, hsame hlow⟩

/-- The capital behind a separator at the start is kept, and is not kept a second time. -/
example : camelCase "_FirstName" = "FirstName" ∧ camelCase "FirstName" = "firstName" := by
  decide

end Text

end TypedQuery
