import Mathlib.Data.List.Induction
import TypedQuery.Proofs.Token.Separation

/-!
# Tokens tile their text

The tokens that are scanned cover the source text in its order, each a stretch of its own, and
nothing is left out but blanks and comments. Lines and columns are counted on while the characters
are passed, and they are those of the place in the text, after line breaks inside of quotes and
comments as well as at a fault in the middle of a token.
-/

namespace TypedQuery

/-! ### Positions -/

namespace Position

/-- The position of an offset in a text. Its line is told by the line breaks before it, its column
by the characters since the last one. -/
def ofOffset (source : List Char) (offset : Nat) : Position where
  line := 1 + (source.take offset).count '\n'
  column := 1 + ((source.take offset).reverse.takeWhile (· ≠ '\n')).length
  offset := offset

/-- The position of an offset has this offset. -/
@[simp] theorem offset_ofOffset (source : List Char) (offset : Nat) :
    (ofOffset source offset).offset = offset :=
  rfl

/-- A position goes past a text part by part. -/
theorem past_append (p : Position) (first second : List Char) :
    p.past (first ++ second) = (p.past first).past second :=
  List.foldl_append

/-- Passing characters from the start counts lines and columns. -/
theorem past_start (passed : List Char) :
    start.past passed = ofOffset passed passed.length := by
  induction passed using List.reverseRecOn with
  | nil => rfl
  | append_singleton passed c ih =>
    rw [past_append, ih]
    unfold ofOffset
    rw [List.take_length, List.take_length]
    by_cases h : c = '\n'
    · simp [past, after, h, Nat.add_assoc]
    · simp [past, after, h, Nat.add_assoc]

/-- A position depends on what stands before it only. -/
theorem ofOffset_append (passed rest : List Char) :
    ofOffset (passed ++ rest) passed.length = start.past passed := by
  rw [past_start]
  simp [ofOffset]

/-- The position after some characters of a text that stands at a position. -/
theorem upTo_append (passed text rest : List Char) :
    (ofOffset (passed ++ (text ++ rest)) passed.length).upTo (text ++ rest) rest =
      ofOffset (passed ++ (text ++ rest)) (passed.length + text.length) := by
  have htext : (text ++ rest).take ((text ++ rest).length - rest.length) = text := by simp
  have hlast := ofOffset_append (passed ++ text) rest
  rw [List.append_assoc, List.length_append] at hlast
  rw [ofOffset_append, upTo, htext, hlast, past_append]

end Position

/-! ### What is skipped -/

/-- A comment goes on to the end of its line, or to that of the text. -/
theorem skipBlanks_true (text : List Char) :
    '\n' ∉ text ∧ skipBlanks true text = [] ∨
      ∃ comment rest, '\n' ∉ comment ∧ text = comment ++ '\n' :: rest ∧
        skipBlanks true text = skipBlanks false rest := by
  induction text with
  | nil => exact .inl ⟨List.not_mem_nil, rfl⟩
  | cons c rest ih =>
    by_cases hline : c = '\n'
    · subst hline
      exact .inr ⟨[], rest, List.not_mem_nil, rfl, rfl⟩
    · have hskip : skipBlanks true (c :: rest) = skipBlanks true rest := by
        rw [skipBlanks, if_pos rfl, decide_eq_true hline]
      rcases ih with ⟨hrest, hnil⟩ | ⟨comment, left, hcomment, rfl, hleft⟩
      · refine .inl ⟨?_, hskip.trans hnil⟩
        rw [List.mem_cons, not_or]
        exact ⟨Ne.symm hline, hrest⟩
      · refine .inr ⟨c :: comment, left, ?_, rfl, hskip.trans hleft⟩
        rw [List.mem_cons, not_or]
        exact ⟨Ne.symm hline, hcomment⟩

/-- Blanks and comments at the end of a text. The last comment may end with the text. -/
inductive LastGap : List Char → Prop
  | closed {gap : List Char} (closed : Gap gap) : LastGap gap
  | comment {gap comment : List Char} (closed : Gap gap) (line : '\n' ∉ comment) :
      LastGap (gap ++ '#' :: comment)

/-- What is skipped at the start of a text: blanks and comments, up to the next token or up to the
end of the text. -/
def Skips (text : List Char) : Prop :=
  skipBlanks false text = [] ∧ LastGap text ∨
    ∃ gap c rest, Gap gap ∧ skipBlanks false text = c :: rest ∧ text = gap ++ c :: rest

/-- A gap is skipped with what is skipped behind it. -/
theorem Gap.skips {gap text : List Char} (hgap : Gap gap) (h : Skips text) :
    Skips (gap ++ text) := by
  unfold Skips
  rw [hgap.skipBlanks]
  rcases h with ⟨hnil, hlast⟩ | ⟨more, c, rest, hmore, hcons, rfl⟩
  · refine .inl ⟨hnil, ?_⟩
    cases hlast with
    | closed hmore => exact .closed (hgap.append hmore)
    | comment hmore hline =>
      rw [← List.append_assoc]
      exact .comment (hgap.append hmore) hline
  · refine .inr ⟨gap ++ more, c, rest, hgap.append hmore, hcons, ?_⟩
    rw [List.append_assoc]

/-- Nothing but blanks and comments is skipped. -/
theorem skipBlanks_skips (text : List Char) : Skips text := by
  induction hlength : text.length using Nat.strongRecOn generalizing text with
  | ind n ih =>
    cases text with
    | nil => exact .inl ⟨rfl, .closed .nil⟩
    | cons c rest =>
      have hrest : rest.length < n := by
        rw [← hlength, List.length_cons]
        exact Nat.lt_succ_self _
      by_cases hblank : Text.isBlank c = true
      · exact Gap.skips (.blank hblank .nil) (ih _ hrest rest rfl)
      · by_cases hmark : c = '#'
        · subst hmark
          have hskip : skipBlanks false ('#' :: rest) = skipBlanks true rest := by
            conv =>
              lhs
              unfold skipBlanks
            rw [if_neg Bool.false_ne_true, if_neg hblank, if_pos rfl]
          rcases skipBlanks_true rest with ⟨hline, hnil⟩ | ⟨comment, left, hline, rfl, hleft⟩
          · exact .inl ⟨hskip.trans hnil, LastGap.comment Gap.nil hline⟩
          · have hshort : left.length < n := by
              rw [List.length_append, List.length_cons] at hrest
              omega
            have hskips := Gap.skips (.comment hline .nil) (ih _ hshort left rfl)
            rwa [List.cons_append, List.append_assoc] at hskips
        · refine .inr ⟨[], c, rest, .nil, ?_, rfl⟩
          unfold skipBlanks
          rw [if_neg Bool.false_ne_true, if_neg hblank, if_neg hmark]

/-! ### What is scanned -/

/-- The text at which a scan ends, with a token or with a fault. -/
def Scanned.left {α : Type} : Scanned α → List Char
  | .ok (_, left) => left
  | .error (_, left) => left

/-- A scan ends at the same text whatever is made of what it finds. -/
theorem Scanned.left_map {α β : Type} (f : α → β) (scan : Scanned α) :
    Scanned.left (scan.map fun (found, left) => (f found, left)) = scan.left := by
  cases scan with
  | ok found => rfl
  | error fault => rfl

/-- The scan of a text in quotes ends further on. -/
theorem left_scanQuoted (escaped : Bool) (text : List Char) :
    (scanQuoted escaped text).left <:+ text := by
  induction text generalizing escaped with
  | nil =>
    unfold scanQuoted
    exact List.suffix_refl []
  | cons c rest ih =>
    have hrest : ∀ {left : List Char}, left <:+ rest → left <:+ c :: rest :=
      fun h => h.trans (List.suffix_cons c rest)
    unfold scanQuoted
    split
    · split
      · exact List.suffix_refl _
      · rename_i d _
        rw [Scanned.left_map (d :: ·)]
        exact hrest (ih false)
    · split
      · exact List.suffix_cons c rest
      · split
        · exact hrest (ih true)
        · rw [Scanned.left_map (c :: ·)]
          exact hrest (ih false)

/-- A scan that is to end at a text ends there. -/
theorem left_scannedAt (left : List Char) (scan : Except SyntaxFault Token) :
    (scannedAt left scan).left = left := by
  cases scan with
  | ok token => rfl
  | error fault => rfl

/-- The scan of a number ends further on. -/
theorem left_scanNumber (text : List Char) : (scanNumber text).left <:+ text := by
  have hdrop : text.dropWhile Char.isDigit <:+ text := List.dropWhile_suffix _
  unfold scanNumber
  dsimp only
  split
  · rw [left_scannedAt]
    exact hdrop
  · rw [left_scannedAt]
    exact (List.drop_suffix _ _).trans hdrop

/-- The scan of a symbol ends further on. -/
theorem left_scanSymbol {text left : List Char} {symbol : Symbol}
    (h : scanSymbol? text = some (symbol, left)) : left <:+ text := by
  unfold scanSymbol? at h
  split at h
  · cases h
    exact ⟨['.', '.', '.'], rfl⟩
  · split at h
    · cases h
      exact ⟨[_, _], rfl⟩
    · obtain ⟨_, _, hpair⟩ := Option.map_eq_some_iff.mp h
      cases hpair
      exact ⟨[_], rfl⟩
  · obtain ⟨_, _, hpair⟩ := Option.map_eq_some_iff.mp h
    cases hpair
    exact ⟨[_], rfl⟩
  · cases h

/-- A scan ends in the text in which it starts, also where it finds a fault. -/
theorem left_scanToken (c : Char) (rest : List Char) :
    (scanToken c rest).left <:+ c :: rest := by
  have hname : rest.dropWhile isNamePart <:+ c :: rest :=
    (List.dropWhile_suffix _).trans (List.suffix_cons c rest)
  unfold scanToken
  split
  · exact left_scanSymbol ‹_›
  · split
    · rw [Scanned.left_map (fun chars => Token.text (String.ofList chars))]
      exact (left_scanQuoted false rest).trans (List.suffix_cons c rest)
    · split
      · exact hname
      · split
        · exact left_scanNumber (c :: rest)
        · split
          · split
            · exact hname
            · exact List.suffix_refl _
          · split
            · exact List.suffix_refl _
            · split
              all_goals exact List.suffix_refl _

/-! ### Tiles -/

/-- The characters between two offsets of a text. -/
def stretch (source : List Char) (start stop : Nat) : List Char :=
  (source.take stop).drop start

/-- A part of a text is the stretch between its offsets. -/
theorem stretch_append (passed text rest : List Char) :
    stretch (passed ++ (text ++ rest)) passed.length (passed.length + text.length) = text := by
  unfold stretch
  rw [← List.append_assoc, ← List.length_append, List.take_left, List.drop_left]

/-- What is scanned of a text from an offset on covers it. Each token takes characters of its own,
in their order, and between the tokens there are only blanks and comments. The end of the text is
the last that is scanned, unless there is a fault. The positions of tokens and of faults are those
of their offsets. -/
inductive Tiles (source : List Char) : Nat → List (Except ScanError Lexeme) → Prop
  | eof {offset : Nat} (within : offset ≤ source.length) (skipped : LastGap (source.drop offset)) :
      Tiles source offset [.ok ⟨.eof, .ofOffset source source.length, source.length⟩]
  | fault {offset start place : Nat} {fault : SyntaxFault} (after : offset ≤ start)
      (skipped : Gap (stretch source offset start)) (inside : start ≤ place)
      (within : place ≤ source.length) :
      Tiles source offset
        [.error ⟨⟨fault, .ofOffset source place⟩, .ofOffset source start⟩]
  | token {offset start stop : Nat} {token : Token} {rest : List (Except ScanError Lexeme)}
      (proper : token ≠ .eof) (after : offset ≤ start)
      (skipped : Gap (stretch source offset start)) (nonempty : start < stop)
      (within : stop ≤ source.length) (others : Tiles source stop rest) :
      Tiles source offset (.ok ⟨token, .ofOffset source start, stop⟩ :: rest)

/-- Each token takes at least one character. -/
theorem Tiles.length_le {source : List Char} {offset : Nat}
    {found : List (Except ScanError Lexeme)} (h : Tiles source offset found) :
    offset + found.length ≤ source.length + 1 := by
  induction h with
  | eof hwithin _ =>
    rw [List.length_singleton]
    omega
  | fault hafter _ hinside hwithin =>
    rw [List.length_singleton]
    omega
  | token _ hafter _ hnonempty _ _ ih =>
    rw [List.length_cons]
    omega

/-- The end of the text is not scanned as a token. -/
theorem ne_eof_of_scanToken {c : Char} {rest left : List Char} {token : Token}
    (h : scanToken c rest = .ok (token, left)) : token ≠ .eof := by
  rintro rfl
  exact Token.printable_iff_writable.mpr (Token.writable_of_scanToken h)

/-- A token is scanned after the gap before it, and the scan ends at an offset after its start. -/
theorem scanned_stretch {start : Position} {passed gap rest : List Char} {c : Char}
    (hstart : start = .ofOffset (passed ++ (gap ++ c :: rest)) passed.length)
    (hskip : skipBlanks false (gap ++ c :: rest) = c :: rest) :
    let source := passed ++ (gap ++ c :: rest)
    let here := Position.ofOffset source (passed.length + gap.length)
    start.upTo (gap ++ c :: rest) (skipBlanks false (gap ++ c :: rest)) = here ∧
      ∃ spelling, c :: rest = spelling ++ (scanToken c rest).left ∧
        here.upTo (c :: rest) (scanToken c rest).left =
          .ofOffset source (passed.length + gap.length + spelling.length) := by
  intro source here
  have hhere := Position.upTo_append passed gap (c :: rest)
  obtain ⟨spelling, hspelling⟩ := left_scanToken c rest
  have hstop := Position.upTo_append (passed ++ gap) spelling (scanToken c rest).left
  rw [hspelling, List.append_assoc, List.length_append] at hstop
  refine ⟨?_, spelling, hspelling.symm, hstop⟩
  rw [hskip, hstart]
  exact hhere

/-- What is scanned from an offset on covers what is left. -/
theorem tiles_lexemesFrom {start : Position} {passed text : List Char}
    (hstart : start = .ofOffset (passed ++ text) passed.length) :
    Tiles (passed ++ text) passed.length (lexemesFrom start text) := by
  -- on the length of what is left, since every token takes at least one character
  induction hlength : text.length using Nat.strongRecOn generalizing start passed text with
  | ind n ih =>
    rcases skipBlanks_skips text with ⟨hnil, hlast⟩ | ⟨gap, c, rest, hgap, hcons, rfl⟩
    · have hhere := Position.upTo_append passed text []
      rw [List.append_nil, ← hstart, ← List.length_append] at hhere
      rw [lexemesFrom_of_blank hnil ((congrArg _ hnil).trans hhere)]
      refine .eof ?_ ?_
      · rw [List.length_append]
        omega
      · rwa [List.drop_left]
    · obtain ⟨hhere, spelling, hspelling, hstop⟩ := scanned_stretch hstart hcons
      have hskipped : Gap (stretch (passed ++ (gap ++ c :: rest)) passed.length
          (passed.length + gap.length)) := by
        rwa [stretch_append]
      have hsource : (passed ++ (gap ++ c :: rest)).length =
          passed.length + gap.length + (c :: rest).length := by
        rw [List.length_append, List.length_append, Nat.add_assoc]
      have hrest := congrArg List.length hspelling
      rw [List.length_append] at hrest
      cases hscan : scanToken c rest with
      | error found =>
        obtain ⟨fault, left⟩ := found
        have hleft : (scanToken c rest).left = left := congrArg Scanned.left hscan
        rw [hleft] at hstop hrest
        rw [lexemesFrom_of_fault hcons hhere hscan, hstop]
        exact .fault (by omega) hskipped (by omega) (by omega)
      | ok found =>
        obtain ⟨token, left⟩ := found
        have hshort := length_scanToken_le hscan
        have hleft : (scanToken c rest).left = left := congrArg Scanned.left hscan
        rw [hleft] at hstop hrest hspelling
        rw [List.length_cons] at hsource hrest
        rw [lexemesFrom_of_scan hcons hhere hscan, hstop, Position.offset_ofOffset]
        refine .token (ne_eof_of_scanToken hscan) (by omega) hskipped (by omega) (by omega) ?_
        have hpassed : passed ++ (gap ++ c :: rest) = passed ++ (gap ++ spelling) ++ left := by
          rw [hspelling]
          simp only [List.append_assoc]
        have hoffset : passed.length + gap.length + spelling.length =
            (passed ++ (gap ++ spelling)).length := by
          rw [List.length_append, List.length_append, Nat.add_assoc]
        have hless : left.length < n := by
          rw [← hlength, List.length_append, List.length_cons]
          omega
        rw [hpassed, hoffset]
        exact ih _ hless rfl rfl

/-- The tokens of a text tile it. -/
theorem lexemes_tile (source : String) :
    Tiles source.toList 0 (lexemes source) ∧
      (lexemes source).length ≤ source.toList.length + 1 := by
  have htiles : Tiles source.toList 0 (lexemes source) :=
    @tiles_lexemesFrom _ [] _ rfl
  have hlength := htiles.length_le
  exact ⟨htiles, by omega⟩

end TypedQuery
