import TypedQuery.Json.OfValue
import TypedQuery.Proofs.Schema.Accepting
import TypedQuery.Proofs.Value.Exactness

/-!
# Constants that are converted at once

Where an operand is brought to a type, a constant is converted while the query is compiled if that
can be done, and otherwise the conversion is left to the run. What is done at once is what the run
would have done. Numbers of enumerations are the one exception: taken at once they carry the name of
their member, which a conversion in the run does not look up.
-/

namespace TypedQuery

namespace Value

variable {schema : Schema} {value : Value} {ty : Ty} {name : String} {n : Int}

/-- A conversion to a nullable type is one to the type in it. -/
theorem convert_underlying (value : Value) (ty : Ty) :
    value.convert ty.underlying = value.convert ty := by
  cases ty with
  | nullable inner => cases value <;> rfl
  | _ => rfl

/-- Converting to a type takes no heed of whether it admits `null`. -/
theorem convert_orNull (value : Value) (ty : Ty) : value.convert ty.orNull = value.convert ty := by
  unfold Ty.orNull
  split
  · rfl
  · exact (convert_underlying value (.nullable ty)).symm

/-- A value other than `null` is converted as such. -/
theorem convert_of_ne_null (h : value ≠ .null) (ty : Ty) :
    value.convert ty = value.convertSome ty := by
  cases value with
  | null => exact absurd rfl h
  | _ => rfl

/-- An integer is taken for the integer that it is. -/
theorem toInteger?_of_integer? (h : value.integer? = some n) : value.toInteger? = some n := by
  cases value with
  | int _ | uint _ | enum _ _ _ => exact h
  | _ => cases h

/-- An integer that is made for a kind is what a conversion to the kind gives. -/
theorem convert_int {kind : IntKind} {result : Value} (h : value.integer? = some n)
    (hresult : ofInt? n kind = some result) : value.convert (.int kind) = .ok result := by
  have hnull : value ≠ .null := by
    rintro rfl
    cases h
  rw [convert_of_ne_null hnull]
  unfold convertSome
  rw [toInteger?_of_integer? h]
  dsimp only
  rw [hresult]

/-- A value in the normal form of a type is converted to itself. -/
theorem convert_of_normal (h : schema.Normal value ty) : value.convert ty = .ok value := by
  induction h with
  | null _ => rfl
  | @nullable value inner _ ih =>
    rw [← convert_underlying]
    exact ih
  | int hfits => exact convert_int rfl (ofInt?_eq_some.mpr ⟨hfits, .inl ⟨_, rfl, rfl⟩⟩)
  | uint hlarge hfits =>
    exact convert_int rfl (ofInt?_eq_some.mpr ⟨hfits, .inr ⟨_, hlarge, rfl, rfl⟩⟩)
  | boolean | float | decimal | text | guid | dateTime | enum | list => rfl

/-- An integer becomes the value of an enumeration with its number, if it has 64 bits with a
sign. -/
theorem IsInt.convert_enum (h : value.IsInt n) (name : String) :
    value.convert (.enum name) =
      if IntKind.fits .i64 n then .ok (.enum name none (Int64.ofInt n))
      else .error (.conversion value (.enum name)) := by
  obtain ⟨hinteger, hn⟩ := h
  cases value with
  | int m =>
    cases hn
    rw [if_pos (IntKind.fits_toInt m), Int64.ofInt_toInt]
    rfl
  | uint m =>
    cases hn
    simp only [IntKind.fits_natCast]
    rfl
  | _ => cases hinteger

end Value

namespace Plan

variable {schema : Schema} {ty target : Ty} {value result : Value} {plan : Plan}
  {refusal : CompileFault} {name : String} {n : Int}

/-- What takes the place of a constant that is converted to a type: another constant, with the value
that the run would have converted it to; a conversion in the run; or the constant itself, if it has
the type already, and then a value in normal form would have been converted to itself. The type may
have `null` added. -/
inductive Converted (schema : Schema) (ty : Ty) (value : Value) (target : Ty) : Plan → Prop
  | folded {nodeTy : Ty} {result : Value} (hty : nodeTy = target ∨ nodeTy = target.orNull)
      (hresult : value.convert target = .ok result) :
      Converted schema ty value target (const nodeTy result)
  | left {nodeTy : Ty} (hty : nodeTy = target ∨ nodeTy = target.orNull)
      (hrun : ∀ services environment,
        (unary nodeTy .convert (const ty value)).eval services environment =
          value.convert target) :
      Converted schema ty value target (unary nodeTy .convert (const ty value))
  | kept (hty : ty = target ∨ ty = target.orNull)
      (hnormal : schema.Normal value ty → value.convert target = .ok value) :
      Converted schema ty value target (const ty value)

/-- A conversion that is left to the run takes the place of the constant. -/
theorem converted_convert {nodeTy : Ty} (hty : nodeTy = target ∨ nodeTy = target.orNull) :
    Converted schema ty value target ((const ty value).convert nodeTy) := by
  have htarget : value.convert nodeTy = value.convert target := by
    rcases hty with rfl | rfl
    · rfl
    · exact Value.convert_orNull value target
  unfold convert
  split
  · rename_i hsame
    cases hsame
    exact .kept hty fun hnormal => htarget.symm.trans (Value.convert_of_normal hnormal)
  · exact .left hty fun _ _ => htarget

/-- What a constant becomes at once is what its value is converted to. -/
theorem convert_of_folded? (h : (const ty value).folded? target = some result) :
    value.convert target = .ok result := by
  rw [← Value.convert_underlying]
  unfold folded? at h
  split at h
  case h_1 hconstant hkind =>
    cases hconstant
    obtain ⟨n, hn, hresult⟩ := Option.bind_eq_some_iff.mp h
    rw [hkind]
    exact Value.convert_int hn hresult
  case h_7 => cases h
  -- The other cases are decimals and floats of numbers, for which the run has the same functions.
  all_goals
    rename_i hconstant hunderlying
    cases hconstant
    cases h
    rw [hunderlying]
    rfl

/-- A constant that is brought to a type is converted at once or in the run, with one result. -/
theorem converted_convertOperand (schema : Schema) (ty target : Ty) (value : Value) :
    Converted schema ty value target ((const ty value).convertOperand target) := by
  unfold convertOperand
  split
  · rename_i hfolded
    exact .folded (.inl rfl) (convert_of_folded? hfolded)
  · exact converted_convert (.inl rfl)

/-- A text that is read at once is what the text is converted to. -/
theorem convert_of_readShaped? {s : String} (h : readShaped? s target = .ok (some result)) :
    (Value.text s).convert target = .ok result := by
  unfold readShaped? at h
  dsimp only at h
  split at h
  · split at h
    · split at h
      · rename_i hread
        cases h
        change Value.convertSome.orFault _ _ ((Guid.read? s).map .guid) = _
        rw [hread]
        rfl
      · cases h
    · cases h
  · split at h
    · split at h
      · rename_i hread
        cases h
        change Value.convertSome.orFault _ _ ((DateTime.read? s).map .dateTime) = _
        rw [hread]
        rfl
      · cases h
    · cases h
  · cases h

/-- A constant text that is brought to a type is read at once or converted in the run, with one
result. -/
theorem converted_textTo (hplan : (const ty value).textTo target refusal = .ok plan) :
    Converted schema ty value target plan := by
  unfold textTo at hplan
  split at hplan
  · rename_i s hconstant
    cases hconstant
    cases hread : readShaped? s target with
    | error fault =>
      rw [hread] at hplan
      cases hplan
    | ok result? =>
      rw [hread] at hplan
      cases result? with
      | none => cases hplan
      | some result =>
        cases hplan
        exact .folded (.inl rfl) (convert_of_readShaped? hread)
  · rename_i hconstant
    cases hconstant
    cases hplan
    exact .folded (.inr rfl) rfl
  · cases hplan
    exact converted_convert (.inl rfl)

/-- An integer is taken as the value of an enumeration with its number and, if this is declared,
with its name. It is refused if it does not have 64 bits with a sign. -/
theorem enumOperand_of_isInt (h : value.IsInt n) (schema : Schema) (ty : Ty) (name : String) :
    (const ty value).enumOperand schema name =
      if IntKind.fits .i64 n then
        .ok (const (.enum name) (.enum name
          (enumMemberName? (some schema) name none (Int64.ofInt n)) (Int64.ofInt n)))
      else .error (.argument name (.notInRange value)) := by
  have hinteger : (const ty value).enumOperand schema name =
      ((schema.enum? name).bind fun enum => enum.convert? value).elim
        (if IntKind.fits .i64 n then .ok (const (.enum name) (.enum name none (Int64.ofInt n)))
        else .error (.argument name (.notInRange value)))
        fun folded => .ok (const (.enum name) folded) := by
    obtain ⟨hinteger, hn⟩ := h
    cases hfolded : (schema.enum? name).bind fun enum => enum.convert? value <;>
      cases value <;> cases hinteger <;> cases hn <;> simp [enumOperand, constant?, hfolded]
  have hconvert : ∀ enum : EnumType, enum.convert? value =
      if IntKind.fits .i64 n && (enum.nameOf? (Int64.ofInt n)).isSome then
        some (enum.value (Int64.ofInt n))
      else none := by
    intro enum
    obtain ⟨hinteger, hn⟩ := h
    cases value <;> cases hinteger <;> cases hn <;> rfl
  rw [hinteger]
  cases henum : schema.enum? name with
  | none => simp [enumMemberName?, henum]
  | some enum =>
    have hname := Schema.name_of_enum? henum
    simp only [Option.bind_some, hconvert]
    cases hfits : IntKind.fits .i64 n <;> cases hmember : enum.nameOf? (Int64.ofInt n) <;>
      simp [enumMemberName?, henum, EnumType.value, hname, hmember]

/-- A conversion to an enumeration that is left to the run is one of the constant itself. -/
theorem converted_enumOperand {nodeTy : Ty} {operand : Plan}
    (hplan : (const ty value).enumOperand schema name = .ok (unary nodeTy .convert operand)) :
    Converted schema ty value (.enum name) (unary nodeTy .convert operand) := by
  have hinteger : ∀ n, ¬value.IsInt n := by
    intro n hn
    rw [enumOperand_of_isInt hn] at hplan
    split at hplan <;> cases hplan
  unfold enumOperand at hplan
  dsimp only at hplan
  split at hplan
  · split at hplan <;> cases hplan
  · rename_i n hconstant
    cases hconstant
    exact absurd ⟨rfl, rfl⟩ (hinteger n.toInt)
  · rename_i n hconstant
    cases hconstant
    exact absurd ⟨rfl, rfl⟩ (hinteger n.toNat)
  · split at hplan
    · have hty : (Ty.enum name).nullableLike ty = .enum name ∨
          (Ty.enum name).nullableLike ty = (Ty.enum name).orNull := by
        unfold Ty.nullableLike
        split
        · exact .inr rfl
        · exact .inl rfl
      rw [← Except.ok.inj hplan]
      exact converted_convert hty
    · cases hplan

/-- Converting a constant agrees with converting its value in the run. Where a constant is brought
to a type, or is a text opposite an identifier or a timestamp, another constant in its place has the
value that the run would have given, and a conversion that is left to the run gives just this value
or the same failure. An integer opposite an enumeration becomes the value that the run would have
given, with the name of its member if that is declared, and it is refused where the run would have
failed; any other conversion to the enumeration is left to the run. -/
theorem folding_agrees (schema : Schema) (ty : Ty) (value : Value) :
    (∀ target, Converted schema ty value target ((const ty value).convertOperand target)) ∧
    (∀ target refusal plan, (const ty value).textTo target refusal = .ok plan →
      Converted schema ty value target plan) ∧
    (∀ name n plan, value.IsInt n →
      ((const ty value).enumOperand schema name = .ok plan ↔
        ∃ number, value.convert (.enum name) = .ok (.enum name none number) ∧
          plan = const (.enum name)
            (.enum name (enumMemberName? (some schema) name none number) number))) ∧
    ∀ name nodeTy operand,
      (const ty value).enumOperand schema name = .ok (unary nodeTy .convert operand) →
        Converted schema ty value (.enum name) (unary nodeTy .convert operand) := by
  refine ⟨fun target => converted_convertOperand schema ty target value,
    fun target refusal plan hplan => converted_textTo hplan, fun name n plan hn => ?_,
    fun name nodeTy operand hplan => converted_enumOperand hplan⟩
  rw [enumOperand_of_isInt hn, hn.convert_enum]
  split
  · simp [eq_comm]
  · simp

/-- A schema with an enumeration of two signals. -/
def signalSchema : Schema := .ofParts "Query" [⟨"Signal", [("Stop", 0), ("Go", 1)]⟩] [] []

/-- A text is read and a number is named at once; `null` is converted in the run. -/
theorem folding_agrees_signal :
    (∃ t, (const .string (.text "2024-02-29")).textTo .dateTime (.missingService "") =
        .ok (const .dateTime (.dateTime t)) ∧
      (Value.text "2024-02-29").convert .dateTime = .ok (.dateTime t)) ∧
    ((const (.int .i64) (.int 1)).enumOperand signalSchema "Signal" =
        .ok (const (.enum "Signal") (.enum "Signal" (some "Go") 1)) ∧
      (Value.int 1).convert (.enum "Signal") = .ok (.enum "Signal" none 1)) ∧
    (const (.nullable (.int .i64)) .null).enumOperand signalSchema "Signal" =
        .ok (unary (.nullable (.enum "Signal")) .convert (const (.nullable (.int .i64)) .null)) ∧
      Converted signalSchema (.nullable (.int .i64)) .null (.enum "Signal")
        (unary (.nullable (.enum "Signal")) .convert (const (.nullable (.int .i64)) .null)) := by
  refine ⟨?_, ?_, rfl, ?_⟩
  · have htext : ∃ t, (const .string (.text "2024-02-29")).textTo .dateTime (.missingService "") =
        .ok (const .dateTime (.dateTime t)) := ⟨_, rfl⟩
    obtain ⟨t, ht⟩ := htext
    obtain ⟨-, htexts, -, -⟩ := folding_agrees signalSchema .string (.text "2024-02-29")
    cases htexts _ _ _ ht with
    | folded _ hresult => exact ⟨t, ht, hresult⟩
  · have hnumber : (const (.int .i64) (.int 1)).enumOperand signalSchema "Signal" =
        .ok (const (.enum "Signal") (.enum "Signal" (some "Go") 1)) := rfl
    obtain ⟨-, -, henum, -⟩ := folding_agrees signalSchema (.int .i64) (.int 1)
    obtain ⟨number, hconvert, hplan⟩ := (henum "Signal" 1 _ ⟨rfl, rfl⟩).mp hnumber
    obtain ⟨-, -, rfl⟩ := Value.enum.inj (Plan.const.inj hplan).2
    exact ⟨hnumber, hconvert⟩
  · exact (folding_agrees signalSchema (.nullable (.int .i64)) .null).2.2.2 _ _ _ rfl

end Plan

end TypedQuery
