import TypedQuery.Proofs.Token.Tiling

/-!
# Texts that are cut

Scanning looks at what follows a token only to see where the token ends. A text that is cut behind a
token is scanned as before, up to there. No token ends with a blank, so that nothing is trimmed off
the text of some tokens.
-/

namespace TypedQuery

variable {kind : Char → Bool} {text more kept cut left : List Char} {c : Char} {token : Token}

/-- The text does not end with a blank. -/
def Text.EndsTight (text : List Char) : Prop :=
  ∀ c ∈ text.getLast?, Text.isBlank c = false

/-- Where a text does not go on, it does not when the end is cut off. -/
theorem Stops.of_append (h : Stops kind (kept ++ cut)) : Stops kind kept := by
  cases kept with
  | nil => exact nofun
  | cons c rest => exact h

/-- Behind a run no character of its kind stands. -/
theorem stops_dropWhile (kind : Char → Bool) (text : List Char) :
    Stops kind (text.dropWhile kind) := by
  intro c hc
  have hnot := List.head?_dropWhile_not kind text
  rw [Option.mem_def.mp hc] at hnot
  simpa using hnot

/-! ### Signs -/

/-- A character that is a symbol is one of its signs. -/
theorem singleton_mem_signs {symbol : Symbol} (h : Symbol.ofChar? c = some symbol) :
    [c] ∈ symbol.signs := by
  unfold Symbol.ofChar? at h
  split at h
  all_goals first | (cases h; decide) | cases h

/-- A character alone is the symbol that it writes. -/
theorem scanSymbol_singleton (c : Char) :
    scanSymbol? [c] = (Symbol.ofChar? c).map fun symbol => (symbol, []) := by
  simp [scanSymbol?]

/-- Without three points, a text starts with a pair or with a sign of one character. -/
theorem scanSymbol_of_ne_spread {d : Char} {rest : List Char}
    (h : ∀ last, c = '.' → d = '.' → rest = '.' :: last → False) :
    scanSymbol? (c :: d :: rest) =
      match Symbol.ofPair? c d with
      | some symbol => some (symbol, rest)
      | none => (Symbol.ofChar? c).map fun symbol => (symbol, d :: rest) := by
  unfold scanSymbol?
  split
  · rename_i hcons
    cases hcons
    exact (h _ rfl rfl rfl).elim
  · rename_i hcons
    cases hcons
    rfl
  · rename_i hcons
    cases hcons
  · rename_i hcons
    cases hcons

/-- A sign is scanned in front of a part of what follows it. -/
theorem scanSymbol_cut {symbol : Symbol}
    (h : scanSymbol? (text ++ (kept ++ cut)) = some (symbol, kept ++ cut)) :
    text ∈ symbol.signs ∧ scanSymbol? (text ++ kept) = some (symbol, kept) := by
  generalize hwhole : text ++ (kept ++ cut) = whole at h
  unfold scanSymbol? at h
  split at h
  · cases h
    obtain rfl : text = ['.', '.', '.'] := List.append_cancel_right hwhole
    exact ⟨by decide, rfl⟩
  · rename_i c d rest hspread
    split at h
    · rename_i hpair
      cases h
      obtain rfl : text = [c, d] := List.append_cancel_right hwhole
      refine ⟨pair_mem_signs hpair, ?_⟩
      change scanSymbol? (c :: d :: kept) = _
      rw [scanSymbol_of_ne_spread, hpair]
      rintro last rfl rfl
      cases hpair
    · rename_i hpair
      obtain ⟨other, hchar, hleft⟩ := Option.map_eq_some_iff.mp h
      obtain ⟨rfl, hrest⟩ := Prod.mk.inj hleft
      rw [hrest] at hwhole
      obtain rfl : text = [c] := List.append_cancel_right hwhole
      refine ⟨singleton_mem_signs hchar, ?_⟩
      cases kept with
      | nil =>
        rw [List.append_nil, scanSymbol_singleton, hchar]
        rfl
      | cons e kept =>
        obtain ⟨rfl, hmore⟩ := List.cons.inj hrest
        change scanSymbol? (c :: d :: kept) = _
        rw [scanSymbol_of_ne_spread, hpair, hchar]
        · rfl
        · intro last hc hd hlast
          exact hspread _ hc hd (by rw [hmore, hlast]; rfl)
  · rename_i c
    obtain ⟨other, hchar, hleft⟩ := Option.map_eq_some_iff.mp h
    obtain ⟨rfl, hnil⟩ := Prod.mk.inj hleft
    rw [← hnil, List.append_nil] at hwhole
    obtain ⟨rfl, -⟩ := List.append_eq_nil_iff.mp hnil.symm
    subst hwhole
    refine ⟨singleton_mem_signs hchar, ?_⟩
    rw [List.append_nil, scanSymbol_singleton, hchar]
    rfl
  · cases h

/-- No sign ends with a blank. -/
theorem endsTight_of_mem_signs {symbol : Symbol} (h : text ∈ symbol.signs) :
    Text.EndsTight text := by
  have hall : (symbol.signs.all fun sign => sign.getLast?.all fun c => !Text.isBlank c) = true := by
    cases symbol
    all_goals decide
  intro c hc
  have hlast := List.all_eq_true.mp hall text h
  rw [Option.mem_def.mp hc] at hlast
  simpa using hlast

/-! ### Quoted texts -/

/-- A text ends as what stands last in it does. -/
theorem Text.EndsTight.of_append (h : EndsTight more) (hne : more ≠ []) :
    EndsTight (text ++ more) := by
  intro c hc
  rw [List.getLast?_append, List.getLast?_eq_some_getLast hne] at hc
  exact h c (by rw [List.getLast?_eq_some_getLast hne]; exact hc)

/-- Two texts that end with no blank make one. -/
theorem Text.EndsTight.append (htext : EndsTight text) (hmore : EndsTight more) :
    EndsTight (text ++ more) := by
  cases more with
  | nil => rwa [List.append_nil]
  | cons c rest => exact hmore.of_append (List.cons_ne_nil c rest)

/-- A text of characters of names does not end with a blank. -/
theorem Text.endsTight_of_forall (h : ∀ c ∈ text, isNamePart c = true) : EndsTight text :=
  fun c hc => (not_blank_of_isNamePart (h c (List.mem_of_getLast? hc))).1

/-- What is made of scanned characters was scanned. -/
theorem Scanned.map_eq_ok {α β : Type} {f : α → β} {scan : Scanned α} {found : β}
    (h : (scan.map fun (chars, left) => (f chars, left)) = .ok (found, left)) :
    ∃ chars, scan = .ok (chars, left) ∧ f chars = found := by
  cases scan with
  | error fault => cases h
  | ok result =>
    cases h
    exact ⟨_, rfl, rfl⟩

/-- A quoted text ends at a quote, or it goes on behind its first character, which is scanned alike
whatever stands there. -/
theorem scanQuoted_cons {escaped : Bool} {rest chars : List Char}
    (h : scanQuoted escaped (c :: rest) = .ok (chars, left)) :
    (escaped = false ∧ c = '"' ∧ chars = [] ∧ left = rest) ∨
      ∃ escaped' chars', scanQuoted escaped' rest = .ok (chars', left) ∧
        ∀ other left', scanQuoted escaped' other = .ok (chars', left') →
          scanQuoted escaped (c :: other) = .ok (chars, left') := by
  unfold scanQuoted at h
  split at h
  · rename_i hescaped
    split at h
    · cases h
    · rename_i d hstands
      obtain ⟨chars', hscan, rfl⟩ := Scanned.map_eq_ok h
      refine .inr ⟨false, chars', hscan, fun other left' hother => ?_⟩
      unfold scanQuoted
      rw [if_pos hescaped, hstands, hother]
      rfl
  · rename_i hescaped
    split at h
    · rename_i hquote
      cases h
      exact .inl ⟨Bool.eq_false_iff.mpr hescaped, hquote, rfl, rfl⟩
    · rename_i hquote
      split at h
      · rename_i hbackslash
        refine .inr ⟨true, chars, h, fun other left' hother => ?_⟩
        unfold scanQuoted
        rw [if_neg hescaped, if_neg hquote, if_pos hbackslash, hother]
      · rename_i hbackslash
        obtain ⟨chars', hscan, rfl⟩ := Scanned.map_eq_ok h
        refine .inr ⟨false, chars', hscan, fun other left' hother => ?_⟩
        unfold scanQuoted
        rw [if_neg hescaped, if_neg hquote, if_neg hbackslash, hother]
        rfl

/-- At least the closing quote is taken. -/
theorem length_scanQuoted_lt {escaped : Bool} {chars : List Char}
    (h : scanQuoted escaped text = .ok (chars, left)) : left.length < text.length := by
  cases text with
  | nil => simp [scanQuoted] at h
  | cons c rest =>
    rw [List.length_cons, Nat.lt_succ_iff]
    rcases scanQuoted_cons h with ⟨-, -, -, rfl⟩ | ⟨escaped', chars', hscan, -⟩
    · exact Nat.le_refl _
    · exact length_scanQuoted_le hscan

/-- A quoted text ends with its quote, whatever follows. -/
theorem scanQuoted_cut {escaped : Bool} {chars : List Char}
    (h : scanQuoted escaped (text ++ (kept ++ cut)) = .ok (chars, kept ++ cut)) :
    text.getLast? = some '"' ∧ scanQuoted escaped (text ++ kept) = .ok (chars, kept) := by
  induction text generalizing escaped chars with
  | nil => exact absurd (length_scanQuoted_lt h) (Nat.lt_irrefl _)
  | cons c rest ih =>
    rcases scanQuoted_cons h with ⟨rfl, rfl, rfl, hleft⟩ | ⟨escaped', chars', hscan, hback⟩
    · obtain rfl : rest = [] := List.append_cancel_right (hleft.symm.trans (List.nil_append _).symm)
      refine ⟨rfl, ?_⟩
      change scanQuoted false ('"' :: kept) = _
      unfold scanQuoted
      rfl
    · obtain ⟨hquote, hkept⟩ := ih hscan
      refine ⟨?_, hback _ _ hkept⟩
      rw [List.getLast?_cons, hquote]
      rfl

/-! ### Numbers -/

/-- Where no fraction stands, none does when the end is cut off. -/
theorem fractionDigits_of_append (h : fractionDigits (kept ++ cut) = []) :
    fractionDigits kept = [] := by
  unfold fractionDigits
  split
  · rename_i rest
    have hdigits : (rest ++ cut).takeWhile Char.isDigit = [] := h
    cases rest with
    | nil => rfl
    | cons d more =>
      cases hd : d.isDigit with
      | false => exact List.takeWhile_cons_of_neg (by rw [hd]; exact Bool.false_ne_true)
      | true =>
        rw [List.cons_append, List.takeWhile_cons_of_pos hd] at hdigits
        cases hdigits
  · rfl

/-- A point and digits stand where digits are found behind a point. -/
theorem fractionDigits_split (h : fractionDigits text ≠ []) :
    text = '.' :: (fractionDigits text ++ text.drop ((fractionDigits text).length + 1)) ∧
      Stops Char.isDigit (text.drop ((fractionDigits text).length + 1)) := by
  unfold fractionDigits at h ⊢
  split at h
  · rename_i rest
    have hdrop : rest.drop (rest.takeWhile Char.isDigit).length = rest.dropWhile Char.isDigit := by
      have hdropped : (rest.takeWhile Char.isDigit ++ rest.dropWhile Char.isDigit).drop
          (rest.takeWhile Char.isDigit).length = rest.dropWhile Char.isDigit := List.drop_left
      rwa [List.takeWhile_append_dropWhile] at hdropped
    rw [List.drop_succ_cons, hdrop, List.takeWhile_append_dropWhile]
    exact ⟨rfl, stops_dropWhile _ _⟩
  · exact absurd rfl h

/-- A scan that goes on has a token. -/
theorem ok_of_scannedAt {scan : Except SyntaxFault Token} {left' : List Char}
    (h : scannedAt left scan = .ok (token, left')) : scan = .ok token := by
  cases scan with
  | error fault => cases h
  | ok found =>
    cases h
    rfl

/-- A number is scanned in front of a part of what follows it. -/
theorem scanNumber_cut (h : scanNumber (text ++ (kept ++ cut)) = .ok (token, kept ++ cut)) :
    Text.EndsTight text ∧ scanNumber (text ++ kept) = .ok (token, kept) := by
  generalize htext : text ++ (kept ++ cut) = whole at h
  have hsplit : whole.takeWhile Char.isDigit ++ whole.dropWhile Char.isDigit = whole :=
    List.takeWhile_append_dropWhile
  have hdigits : ∀ c ∈ whole.takeWhile Char.isDigit, c.isDigit = true := fun c =>
    List.mem_takeWhile_imp
  have htight : ∀ {digits : List Char}, (∀ c ∈ digits, c.isDigit = true) → Text.EndsTight digits :=
    fun hall => Text.endsTight_of_forall fun c hc => isNamePart_of_isDigit (hall c hc)
  unfold scanNumber at h
  dsimp only at h
  split at h
  · rename_i hfraction
    have hleft := eq_of_scannedAt h
    rw [List.isEmpty_iff, ← hleft] at hfraction
    have hstops := stops_dropWhile Char.isDigit whole
    rw [← hleft] at hsplit hstops
    rw [← List.append_cancel_right (hsplit.trans htext.symm)]
    refine ⟨htight hdigits, ?_⟩
    rw [scanNumber_whole hdigits hstops.of_append (fractionDigits_of_append hfraction),
      ok_of_scannedAt h]
    rfl
  · rename_i hfraction
    rw [List.isEmpty_iff] at hfraction
    obtain ⟨hpoint, hstops⟩ := fractionDigits_split hfraction
    have hleft := eq_of_scannedAt h
    rw [← hleft] at hpoint hstops
    rw [hpoint, ← List.cons_append, ← List.append_assoc] at hsplit
    rw [← List.append_cancel_right (hsplit.trans htext.symm)]
    have hmore : ∀ c ∈ fractionDigits (whole.dropWhile Char.isDigit), c.isDigit = true :=
      fun c => isDigit_of_mem_fractionDigits
    constructor
    · rw [← List.singleton_append, ← List.append_assoc]
      exact (htight hmore).of_append hfraction
    · rw [List.append_assoc, List.cons_append,
        scanNumber_pointed hdigits hmore hfraction hstops.of_append, ok_of_scannedAt h]
      rfl

/-! ### Tokens -/

/-- What is passed of a text is found by what is left. -/
theorem takeWhile_of_dropWhile (h : (text ++ left).dropWhile kind = left) :
    (text ++ left).takeWhile kind = text ∧ Stops kind left := by
  have hsplit : (text ++ left).takeWhile kind ++ (text ++ left).dropWhile kind = text ++ left :=
    List.takeWhile_append_dropWhile
  have hstops := stops_dropWhile kind (text ++ left)
  rw [h] at hsplit hstops
  exact ⟨List.append_cancel_right hsplit, hstops⟩

/-- A token is scanned in front of a part of what follows it, and it does not end with a blank. -/
theorem scanToken_cut (h : scanToken c (more ++ (kept ++ cut)) = .ok (token, kept ++ cut)) :
    Text.EndsTight (c :: more) ∧ scanToken c (more ++ kept) = .ok (token, kept) := by
  have hscans : ∀ {token}, ScansTo (c :: more) token kept →
      scanToken c (more ++ kept) = .ok (token, kept) := by
    rintro token ⟨_, _, hsame, -, hscan⟩
    cases hsame
    exact hscan
  unfold scanToken at h
  split at h
  -- a sign is whole, since what follows it has been looked at
  · rename_i hfound
    cases h
    rw [← List.cons_append] at hfound
    obtain ⟨hsign, hkept⟩ := scanSymbol_cut hfound
    refine ⟨endsTight_of_mem_signs hsign, ?_⟩
    unfold scanToken
    rw [← List.cons_append, hkept]
  · split at h
    -- a text in quotes ends with its quote
    · rename_i hquote
      let ofQuoted := fun chars => Token.text (String.ofList chars)
      obtain ⟨chars, hscan, rfl⟩ := Scanned.map_eq_ok (f := ofQuoted) h
      obtain ⟨hlast, hkept⟩ := scanQuoted_cut hscan
      subst hquote
      constructor
      · intro d hd
        rw [List.getLast?_cons, hlast] at hd
        cases hd
        decide
      · unfold scanToken
        rw [scanSymbol_eq_none _ (by decide)]
        dsimp only
        rw [if_pos rfl, hkept]
        rfl
    · split at h
      -- a word ends where no character of a name follows
      · rename_i hstart
        simp only [Except.ok.injEq, Prod.mk.injEq] at h
        obtain ⟨rfl, hleft⟩ := h
        obtain ⟨hmore, hstops⟩ := takeWhile_of_dropWhile hleft
        have hhead : (((c :: (more ++ (kept ++ cut))).head?).map isNameStart).getD false = true :=
          hstart
        have hname := isName_takeWhile hhead
        rw [List.takeWhile_cons_of_pos (isNamePart_of_isNameStart hstart)] at hname
        rw [hmore] at hname ⊢
        have hscan := scansTo_word hname hstops.of_append
        rw [String.toList_ofList] at hscan
        have hparts := isNamePart_of_mem hname
        rw [String.toList_ofList] at hparts
        exact ⟨Text.endsTight_of_forall hparts, hscans hscan⟩
      · split at h
        -- a number
        · rename_i hdigit
          rw [← List.cons_append] at h
          obtain ⟨htight, hkept⟩ := scanNumber_cut h
          exact ⟨htight, hscans (scansTo_of_scanNumber ⟨c, more, rfl, hdigit⟩ hkept)⟩
        · split at h
          -- a variable, which ends like a word
          · rename_i hdollar
            split at h
            · rename_i hstart
              simp only [Except.ok.injEq, Prod.mk.injEq] at h
              obtain ⟨rfl, hleft⟩ := h
              obtain ⟨hmore, hstops⟩ := takeWhile_of_dropWhile hleft
              have hname := isName_takeWhile hstart
              rw [hmore] at hname ⊢
              have hscan := scansTo_var hname hstops.of_append
              have hparts := isNamePart_of_mem hname
              rw [String.toList_ofList] at hparts hscan
              subst hdollar
              refine ⟨fun d hd => ?_, hscans hscan⟩
              rcases List.mem_cons.mp (List.mem_of_getLast? hd) with rfl | hd
              · decide
              · exact (not_blank_of_isNamePart (hparts d hd)).1
            · cases h
          · split at h
            · cases h
            · split at h
              · cases h
              · cases h

end TypedQuery
