import TypedQuery.Proofs.Token.Cutting
import TypedQuery.Token.Cursor

/-!
# Excerpts

Tokens that stand in a row in a text, with what is between them, are a text of their own. It is read
from its start as the whole text is read from there, up to the end of the excerpt: the tokens are
the same ones, moved, and no blanks can be trimmed off.
-/

namespace TypedQuery

variable {source text left kept beyond : List Char} {origin final offset n : Nat} {lexeme : Lexeme}
  {kind : Token → Prop}

/-- A position past a text has the offset behind it. -/
theorem Position.offset_past (p : Position) (text : List Char) :
    (p.past text).offset = p.offset + text.length := by
  induction text generalizing p with
  | nil => rfl
  | cons c rest ih =>
    have hafter : (p.after c).offset = p.offset + 1 := by
      unfold after
      split
      all_goals rfl
    change ((p.after c).past rest).offset = _
    rw [ih, hafter, List.length_cons, Nat.add_assoc, Nat.add_comm 1]

/-- A position up to what is left has the offset behind what is not. -/
theorem Position.offset_upTo (p : Position) (text left : List Char) :
    (p.upTo (text ++ left) left).offset = p.offset + text.length := by
  unfold upTo
  rw [List.length_append, Nat.add_sub_cancel, List.take_left, offset_past]

/-- What is left of a text at an offset is a stretch and what is left behind it. -/
theorem drop_eq_stretch (h : offset ≤ final) (within : final ≤ source.length) :
    source.drop offset = stretch source offset final ++ source.drop final := by
  unfold stretch
  rw [← List.drop_append_of_le_length, List.take_append_drop]
  rw [List.length_take]
  omega

/-- A stretch that ends where it starts is empty. -/
theorem stretch_self (source : List Char) (offset : Nat) : stretch source offset offset = [] := by
  unfold stretch
  rw [List.drop_eq_nil_iff, List.length_take]
  exact Nat.min_le_left _ _

/-- An excerpt of an excerpt is one of the whole text. -/
theorem stretch_stretch {start stop : Nat} (h : origin + stop ≤ final) :
    stretch (stretch source origin final) start stop =
      stretch source (origin + start) (origin + stop) := by
  unfold stretch
  rw [List.take_drop, List.take_take, Nat.min_eq_left h, List.drop_drop]

/-- A stretch splits at every offset in it. -/
theorem stretch_split {middle : Nat} (hfirst : offset ≤ middle) (hlast : middle ≤ final)
    (within : final ≤ source.length) :
    stretch source offset final = stretch source offset middle ++ stretch source middle final := by
  have hbehind : stretch source offset final ++ source.drop final =
      (stretch source offset middle ++ stretch source middle final) ++ source.drop final := by
    rw [List.append_assoc, ← drop_eq_stretch hlast within,
      ← drop_eq_stretch hfirst (Nat.le_trans hlast within),
      ← drop_eq_stretch (Nat.le_trans hfirst hlast) within]
  exact List.append_cancel_right hbehind

/-- A text without blanks at its ends is not trimmed. -/
theorem Text.trim_of_tight (hfirst : Stops isBlank text) (hlast : EndsTight text) :
    trim text = text := by
  have hkeep : ∀ {text}, Stops isBlank text → text.dropWhile isBlank = text := by
    intro text h
    cases text with
    | nil => rfl
    | cons c rest =>
      have hc : isBlank c = false := h c rfl
      exact List.dropWhile_cons_of_neg (by rw [hc]; exact Bool.false_ne_true)
  have hback : Stops isBlank text.reverse := by
    intro c hc
    rw [List.head?_reverse] at hc
    exact hlast c hc
  unfold trim
  rw [hkeep hfirst, hkeep hback, List.reverse_reverse]

/-! ### One token -/

/-- A token is scanned at the start of a text, behind a gap. The text starts at an offset, and some
of it is left. -/
def Lexeme.StandsIn (lexeme : Lexeme) (text : List Char) (offset : Nat) (left : List Char) : Prop :=
  ∃ gap c more, text = gap ++ c :: (more ++ left) ∧ Gap gap ∧
    (Text.isBlank c = false ∧ c ≠ '#') ∧ scanToken c (more ++ left) = .ok (lexeme.token, left) ∧
      lexeme.start.offset = offset + gap.length ∧
        lexeme.stop = lexeme.start.offset + (c :: more).length

namespace Lexeme.StandsIn

/-- What is left is a part of the text, from the end of the token on. -/
theorem left_eq (h : lexeme.StandsIn text offset left) :
    text.length + offset = lexeme.stop + left.length ∧ offset ≤ lexeme.start.offset ∧
      lexeme.start.offset < lexeme.stop ∧ left = text.drop (lexeme.stop - offset) := by
  obtain ⟨gap, c, more, rfl, -, -, -, hstart, hstop⟩ := h
  have hspelled : gap ++ c :: (more ++ left) = (gap ++ c :: more) ++ left := by
    rw [List.append_assoc, List.cons_append]
  have hlength : lexeme.stop - offset = (gap ++ c :: more).length := by
    rw [List.length_append]
    omega
  rw [hlength, hspelled, List.drop_left]
  rw [List.length_cons] at hstop
  simp only [List.length_append, List.length_cons, and_true]
  omega

/-- The token stands at the end of the gap as well. -/
theorem at_start (h : lexeme.StandsIn (source.drop offset) offset left) :
    lexeme.StandsIn (source.drop lexeme.start.offset) lexeme.start.offset left := by
  obtain ⟨gap, c, more, htext, -, hfirst, hscan, hstart, hstop⟩ := h
  refine ⟨[], c, more, ?_, .nil, hfirst, hscan, rfl, hstop⟩
  rw [hstart, ← List.drop_drop, htext, List.drop_left]
  rfl

/-- It stands in the text that is cut somewhere behind it. -/
theorem of_append (h : lexeme.StandsIn (text ++ beyond) offset (kept ++ beyond)) :
    lexeme.StandsIn text offset kept := by
  obtain ⟨gap, c, more, htext, hgap, hfirst, hscan, hstart, hstop⟩ := h
  have hspelled : text ++ beyond = (gap ++ c :: (more ++ kept)) ++ beyond := by
    rw [htext]
    simp only [List.append_assoc, List.cons_append]
  exact ⟨gap, c, more, List.append_cancel_right hspelled, hgap, hfirst, (scanToken_cut hscan).2,
    hstart, hstop⟩

/-- It is the first one that is found in the text, wherever this stands. -/
theorem found (h : lexeme.StandsIn text offset left) {place : Position}
    (hplace : offset = origin + place.offset) :
    ∃ other place', lexemesFrom place text = .ok other :: lexemesFrom place' left ∧
      lexeme.token = other.token ∧ lexeme.start.offset = origin + other.start.offset ∧
        lexeme.stop = origin + other.stop ∧ lexeme.stop = origin + place'.offset := by
  obtain ⟨gap, c, more, rfl, hgap, ⟨hblank, hmark⟩, hscan, hstart, hstop⟩ := h
  have hskip : skipBlanks false (gap ++ c :: (more ++ left)) = c :: (more ++ left) := by
    rw [hgap.skipBlanks]
    unfold skipBlanks
    rw [if_neg Bool.false_ne_true, if_neg (Bool.eq_false_iff.mp hblank), if_neg hmark]
  have hhere := place.offset_upTo gap (c :: (more ++ left))
  generalize hfirst : place.upTo (gap ++ c :: (more ++ left)) (c :: (more ++ left)) = here at hhere
  have hend : (here.upTo (c :: (more ++ left)) left).offset = here.offset + (c :: more).length :=
    here.offset_upTo (c :: more) left
  refine ⟨_, _, lexemesFrom_of_scan hskip ((congrArg _ hskip).trans hfirst) hscan, rfl, ?_⟩
  dsimp only
  omega

/-- It stands in every excerpt that it belongs to. -/
theorem in_stretch (h : lexeme.StandsIn (source.drop offset) offset (source.drop lexeme.stop))
    (hfinal : lexeme.stop ≤ final) (hwithin : final ≤ source.length) :
    lexeme.StandsIn (stretch source offset final) offset (stretch source lexeme.stop final) := by
  obtain ⟨-, hstart, hstop, -⟩ := h.left_eq
  rw [drop_eq_stretch (show offset ≤ final by omega) hwithin,
    drop_eq_stretch hfinal hwithin] at h
  exact h.of_append

/-- A text that starts with a token does not start with blanks. -/
theorem stops (h : lexeme.StandsIn text lexeme.start.offset left) : Stops Text.isBlank text := by
  obtain ⟨gap, c, more, rfl, -, hfirst, -, hstart, -⟩ := h
  obtain rfl : gap = [] := List.eq_nil_of_length_eq_zero (by omega)
  rintro _ ⟨⟩
  exact hfirst.1

/-- A text that ends with a token does not end with blanks. -/
theorem endsTight (h : lexeme.StandsIn text offset []) : Text.EndsTight text := by
  obtain ⟨gap, c, more, rfl, -, -, hscan, -, -⟩ := h
  have hcut : scanToken c (more ++ ([] ++ [])) = .ok (lexeme.token, [] ++ []) := hscan
  rw [List.append_nil]
  exact (scanToken_cut hcut).1.of_append (List.cons_ne_nil c more)

end Lexeme.StandsIn

/-- No blanks and no comments are left where some are skipped. -/
theorem first_of_skipBlanks {comment : Bool} {c : Char} {rest : List Char}
    (h : skipBlanks comment text = c :: rest) : Text.isBlank c = false ∧ c ≠ '#' := by
  induction text generalizing comment with
  | nil => cases h
  | cons d more ih =>
    unfold skipBlanks at h
    split at h
    · exact ih h
    · split at h
      · exact ih h
      · rename_i hblank
        split at h
        · exact ih h
        · rename_i hmark
          cases h
          exact ⟨Bool.eq_false_iff.mpr hblank, hmark⟩

/-- What is found first in a text is its end, with nothing behind it, or a token that stands there,
and the next ones are found behind this token. -/
theorem first_of_lexemesFrom {place : Position} {rest : List (Except ScanError Lexeme)}
    (h : lexemesFrom place text = .ok lexeme :: rest) :
    lexeme.token = .eof ∧ rest = [] ∨ lexeme.token ≠ .eof ∧
      ∃ left place', lexeme.StandsIn text place.offset left ∧ place'.offset = lexeme.stop ∧
        rest = lexemesFrom place' left := by
  rcases skipBlanks_skips text with ⟨hnil, -⟩ | ⟨gap, c, behind, hgap, hskip, rfl⟩
  · rw [lexemesFrom_of_blank hnil rfl] at h
    cases h
    exact .inl ⟨rfl, rfl⟩
  · cases hscan : scanToken c behind with
    | error found =>
      rw [lexemesFrom_of_fault hskip rfl hscan] at h
      cases h
    | ok found =>
      obtain ⟨token, left⟩ := found
      have hshort := length_scanToken_le hscan
      obtain ⟨spelling, hspelling⟩ : left <:+ c :: behind := by
        have hsuffix := left_scanToken c behind
        rwa [hscan] at hsuffix
      cases spelling with
      | nil =>
        have hlength := congrArg List.length hspelling
        rw [List.nil_append, List.length_cons] at hlength
        omega
      | cons d more =>
        cases hspelling
        rw [lexemesFrom_of_scan hskip (congrArg _ hskip) hscan] at h
        cases h
        exact .inr ⟨ne_eof_of_scanToken hscan, left, _,
          ⟨gap, c, more, rfl, hgap, first_of_skipBlanks hskip, hscan,
            place.offset_upTo gap (c :: (more ++ left)),
            Position.offset_upTo _ (c :: more) left⟩, rfl, rfl⟩

/-! ### Tokens in a row -/

namespace Cursor

variable {c c' c'' d : Cursor}

/-- What a cursor has ahead is what is found in the text behind the last token that was passed. -/
def Scanned (c : Cursor) : Prop :=
  c.previousStop ≤ c.source.length ∧ ∃ place : Position, place.offset = c.previousStop ∧
    lexemesFrom place (c.source.drop c.previousStop) = .ok c.current :: c.rest

/-- At the start of a text all its tokens are ahead. -/
theorem lexemes_of_ofSource {source : String} (h : Cursor.ofSource source = .ok c) :
    lexemes source = .ok c.current :: c.rest ∧ c.source = source.toList ∧ c.previousStop = 0 := by
  unfold ofSource at h
  split at h
  · rename_i hfound
    cases h
    exact ⟨hfound, rfl, rfl⟩
  · cases h
  · rename_i hnil
    exact absurd hnil (lexemesFrom_ne_nil _ _)

/-- The cursor at the start of a text has ahead what is found in it. -/
theorem scanned_ofSource {source : String} (h : Cursor.ofSource source = .ok c) : c.Scanned := by
  obtain ⟨hfound, hsource, hstop⟩ := lexemes_of_ofSource h
  refine ⟨hstop ▸ Nat.zero_le _, .start, hstop.symm, ?_⟩
  rw [hstop, hsource]
  exact hfound

/-- Some tokens are passed, all of them of a kind and none of them the end of the text. -/
inductive Reaches (kind : Token → Prop) : Nat → Cursor → Cursor → Prop
  | here {c : Cursor} : Reaches kind 0 c c
  | token {n : Nat} {c c' : Cursor} {next : Lexeme} {rest : List (Except ScanError Lexeme)}
      (ofKind : kind c.current.token) (proper : c.current.token ≠ .eof)
      (ahead : c.rest = .ok next :: rest)
      (others : Reaches kind n ⟨c.source, next, rest, c.current.stop⟩ c') :
      Reaches kind (n + 1) c c'

/-- The current token is found behind the last one that was passed, and the rest behind it. -/
theorem Scanned.standsIn (h : c.Scanned) (hproper : c.current.token ≠ .eof) :
    c.current.StandsIn (c.source.drop c.previousStop) c.previousStop
        (c.source.drop c.current.stop) ∧
      c.current.stop ≤ c.source.length ∧
        ∃ place : Position, place.offset = c.current.stop ∧
          c.rest = lexemesFrom place (c.source.drop c.current.stop) := by
  obtain ⟨hwithin, place, hplace, hfound⟩ := h
  obtain ⟨-, left, place', hstands, hplace', hrest⟩ :=
    (first_of_lexemesFrom hfound).resolve_left fun hend => hproper hend.1
  rw [hplace] at hstands
  obtain ⟨hlength, hstart, hstop, hleft⟩ := hstands.left_eq
  have hpassed : c.previousStop + (c.current.stop - c.previousStop) = c.current.stop := by omega
  rw [List.drop_drop, hpassed] at hleft
  rw [List.length_drop] at hlength
  subst hleft
  exact ⟨hstands, by omega, place', hplace', hrest⟩

/-- Nothing is found behind the end of a text. -/
theorem Scanned.rest_eq_nil (h : c.Scanned) (hend : c.current.token = .eof) : c.rest = [] := by
  obtain ⟨-, place, -, hfound⟩ := h
  rcases first_of_lexemesFrom hfound with ⟨-, hrest⟩ | ⟨hproper, -⟩
  · exact hrest
  · exact absurd hend hproper

/-- One token further on, a cursor has ahead what is found in the text. -/
theorem Scanned.next (h : c.Scanned) (hproper : c.current.token ≠ .eof) {next : Lexeme}
    {rest : List (Except ScanError Lexeme)} (hahead : c.rest = .ok next :: rest) :
    Scanned ⟨c.source, next, rest, c.current.stop⟩ := by
  obtain ⟨-, hwithin, place, hplace, hrest⟩ := h.standsIn hproper
  exact ⟨hwithin, place, hplace, hrest.symm.trans hahead⟩

namespace Reaches

/-- Tokens that are passed in two goes are passed. -/
theorem trans {m : Nat} (h : c.Reaches kind n c') (h' : c'.Reaches kind m c'') :
    c.Reaches kind (n + m) c'' := by
  induction h with
  | here => rwa [Nat.zero_add]
  | token hkind hproper hahead _ ih =>
    rw [Nat.add_right_comm]
    exact .token hkind hproper hahead (ih h')

/-- Passing tokens leaves the text. -/
theorem source_eq (h : c.Reaches kind n c') : c'.source = c.source := by
  induction h with
  | here => rfl
  | token _ _ _ _ ih => exact ih

/-- What is found in the text is ahead after tokens are passed. -/
theorem scanned (h : c.Reaches kind n c') (hc : c.Scanned) : c'.Scanned := by
  induction h with
  | here => exact hc
  | token _ hproper hahead _ ih => exact ih (hc.next hproper hahead)

/-- Tokens are passed in the direction of the end. -/
theorem previousStop_le (h : c.Reaches kind n c') (hc : c.Scanned) :
    c.previousStop ≤ c'.previousStop := by
  induction h with
  | here => exact Nat.le_refl _
  | token _ hproper hahead _ ih =>
    obtain ⟨hstands, -⟩ := hc.standsIn hproper
    obtain ⟨-, hstart, hstop, -⟩ := hstands.left_eq
    have hlater := ih (hc.next hproper hahead)
    dsimp only at hlater
    omega

/-- If the text ends behind them, all its tokens are of the kind. -/
theorem ofKind_of_mem (h : c.Reaches kind n c') (hend : c'.current.token = .eof)
    (hrest : c'.rest = []) {lexeme : Lexeme}
    (hmem : Except.ok lexeme ∈ Except.ok c.current :: c.rest) :
    kind lexeme.token ∨ lexeme.token = .eof := by
  induction h with
  | here =>
    rw [hrest, List.mem_singleton] at hmem
    cases hmem
    exact .inr hend
  | token hkind _ hahead _ ih =>
    rcases List.mem_cons.mp hmem with hfirst | hlater
    · cases hfirst
      exact .inl hkind
    · rw [hahead] at hlater
      exact ih hend hrest hlater

end Reaches

end Cursor

/-- Some of the tokens of a text are those of an excerpt that ends with them. It starts at an
offset of the text. -/
inductive Excerpt (origin final : Nat) :
    Nat → List (Except ScanError Lexeme) → List (Except ScanError Lexeme) → Prop
  | eof {ahead : List (Except ScanError Lexeme)} {start : Position} {stop : Nat} :
      Excerpt origin final 0 ahead [.ok ⟨.eof, start, stop⟩]
  | token {n : Nat} {lexeme other : Lexeme} {ahead moved : List (Except ScanError Lexeme)}
      (same : lexeme.token = other.token)
      (starts : lexeme.start.offset = origin + other.start.offset)
      (stops : lexeme.stop = origin + other.stop) (within : lexeme.stop ≤ final)
      (others : Excerpt origin final n ahead moved) :
      Excerpt origin final (n + 1) (.ok lexeme :: ahead) (.ok other :: moved)

/-- An excerpt has a first token, and as many more as it is long. -/
theorem Excerpt.exists_first {ahead moved : List (Except ScanError Lexeme)}
    (h : Excerpt origin final n ahead moved) :
    ∃ other rest, moved = .ok other :: rest ∧ rest.length = n := by
  induction h with
  | eof => exact ⟨_, _, rfl, rfl⟩
  | token _ _ _ _ _ ih =>
    obtain ⟨_, _, rfl, hlength⟩ := ih
    exact ⟨_, _, rfl, by rw [List.length_cons, hlength]⟩

/-- A token that stands in the text is the first one of an excerpt. -/
theorem Excerpt.of_standsIn {place : Position} {rest : List (Except ScanError Lexeme)}
    (h : lexeme.StandsIn (source.drop offset) offset (source.drop lexeme.stop))
    (hplace : offset = origin + place.offset) (hfinal : lexeme.stop ≤ final)
    (hwithin : final ≤ source.length)
    (hrest : ∀ place' : Position, lexeme.stop = origin + place'.offset →
      Excerpt origin final n rest (lexemesFrom place' (stretch source lexeme.stop final))) :
    Excerpt origin final (n + 1) (.ok lexeme :: rest)
      (lexemesFrom place (stretch source offset final)) := by
  obtain ⟨other, place', hfound, hsame, hstarts, hstops, hplace'⟩ :=
    (h.in_stretch hfinal hwithin).found hplace
  rw [hfound]
  exact .token hsame hstarts hstops hfinal (hrest place' hplace')

namespace Cursor

variable {c c' d : Cursor}

/-- A cursor in an excerpt has ahead what a cursor in the text has there, up to the end of the
excerpt. -/
structure Mirrors (origin final n : Nat) (c d : Cursor) : Prop where
  source : d.source = stretch c.source origin final
  passed : d.previousStop = c.previousStop - origin
  within : c.previousStop ≤ final
  ahead : Excerpt origin final n (.ok c.current :: c.rest) (.ok d.current :: d.rest)

/-- Within an excerpt the tokens are those of the text. -/
theorem Mirrors.token_eq (h : c.Mirrors origin final (n + 1) d) :
    d.current.token = c.current.token := by
  obtain ⟨-, -, -, hahead⟩ := h
  cases hahead with
  | token hsame _ _ _ _ => exact hsame.symm

/-- Within an excerpt tokens start at the offset of the text, less that of the excerpt. -/
theorem Mirrors.start_eq (h : c.Mirrors origin final (n + 1) d) :
    c.current.start.offset = origin + d.current.start.offset := by
  obtain ⟨-, -, -, hahead⟩ := h
  cases hahead with
  | token _ hstarts _ _ _ => exact hstarts

/-- At the end of an excerpt there is the token for the end and nothing behind it. -/
theorem Mirrors.eof (h : c.Mirrors origin final 0 d) : d.current.token = .eof ∧ d.rest = [] := by
  obtain ⟨source, current, rest, stop⟩ := d
  obtain ⟨-, -, -, hahead⟩ := h
  cases hahead
  exact ⟨rfl, rfl⟩

/-- The text that was passed is the same one. -/
theorem Mirrors.stretch_eq {start : Nat} (h : c.Mirrors origin final n d)
    (hstart : origin + start ≤ c.previousStop) :
    stretch d.source start d.previousStop = stretch c.source (origin + start) c.previousStop := by
  have hpassed : origin + d.previousStop = c.previousStop := by
    rw [h.passed]
    omega
  have hwithin := h.within
  rw [← hpassed] at hwithin
  rw [h.source, stretch_stretch hwithin, hpassed]

/-- Both cursors pass a token. -/
theorem Mirrors.next (h : c.Mirrors origin final (n + 1) d) {next : Lexeme}
    {rest : List (Except ScanError Lexeme)} (hrest : c.rest = .ok next :: rest) :
    ∃ next' rest', d.rest = .ok next' :: rest' ∧
      Mirrors origin final n ⟨c.source, next, rest, c.current.stop⟩
        ⟨d.source, next', rest', d.current.stop⟩ := by
  obtain ⟨hsource, -, -, hahead⟩ := h
  cases hahead with
  | token _ _ hstops hwithin hothers =>
    have hpassed : d.current.stop = c.current.stop - origin := by omega
    obtain ⟨next', rest', hfound, -⟩ := hothers.exists_first
    rw [hrest, hfound] at hothers
    exact ⟨next', rest', hfound, hsource, hpassed, hwithin, hothers⟩

/-- A cursor in an excerpt has the tokens of the excerpt ahead and the one for the end. -/
theorem Mirrors.size (h : c.Mirrors origin final n d) : d.size = n + 1 := by
  obtain ⟨_, _, hahead, hlength⟩ := h.ahead.exists_first
  cases hahead
  rw [Cursor.size, hlength]

/-- The tokens that are passed are those of the excerpt that they make up. -/
theorem Reaches.excerpt_behind (h : c.Reaches kind n c') (hc : c.Scanned) {place : Position}
    (hplace : c.previousStop = origin + place.offset) :
    Excerpt origin c'.previousStop n (.ok c.current :: c.rest)
      (lexemesFrom place (stretch c.source c.previousStop c'.previousStop)) := by
  induction h generalizing place with
  | @here c =>
    rw [stretch_self, lexemesFrom_of_blank rfl rfl]
    exact .eof
  | @token n c c' next rest _ hproper hahead hothers ih =>
    obtain ⟨hstands, -⟩ := hc.standsIn hproper
    have hnext := hc.next hproper hahead
    have hwithin := (hothers.scanned hnext).1
    rw [hothers.source_eq] at hwithin
    refine .of_standsIn hstands hplace (hothers.previousStop_le hnext) hwithin
      fun place' hplace' => ?_
    rw [hahead]
    exact ih hnext hplace'

/-- The tokens that are passed make a stretch that does not end with blanks. -/
theorem Reaches.endsTight (h : c.Reaches kind n c') (hc : c.Scanned) :
    Text.EndsTight (stretch c.source c.previousStop c'.previousStop) := by
  induction h with
  | here =>
    rw [stretch_self]
    exact nofun
  | @token n c c' next rest _ hproper hahead hothers ih =>
    obtain ⟨hstands, hwithin, -⟩ := hc.standsIn hproper
    obtain ⟨-, hstart, hstop, -⟩ := hstands.left_eq
    have hnext := hc.next hproper hahead
    have hend := (hothers.scanned hnext).1
    have hfirst := hstands.in_stretch (Nat.le_refl _) hwithin
    rw [stretch_self] at hfirst
    rw [hothers.source_eq] at hend
    rw [stretch_split (show c.previousStop ≤ c.current.stop by omega)
      (hothers.previousStop_le hnext) hend]
    exact hfirst.endsTight.append (ih hnext)

/-- Tokens that are passed make up a text of their own. -/
theorem Reaches.excerpt (h : c.Reaches kind (n + 1) c') (hc : c.Scanned) :
    let text := stretch c.source c.current.start.offset c'.previousStop
    Text.trim text = text ∧ c.current.start.offset ≤ c'.previousStop ∧ ∃ d,
      Cursor.ofSource (String.ofList text) = .ok d ∧
        c.Mirrors c.current.start.offset c'.previousStop (n + 1) d := by
  intro text
  cases h with
  | @token _ _ _ next rest _ hproper hahead hothers =>
    obtain ⟨hstands, hwithin, -⟩ := hc.standsIn hproper
    obtain ⟨-, hstart, hstop, -⟩ := hstands.left_eq
    have hnext := hc.next hproper hahead
    have hlast := hothers.previousStop_le hnext
    have hend := (hothers.scanned hnext).1
    rw [hothers.source_eq] at hend
    dsimp only at hlast hend
    have hexcerpt : Excerpt c.current.start.offset c'.previousStop (n + 1) (.ok c.current :: c.rest)
        (lexemesFrom .start text) := by
      refine .of_standsIn hstands.at_start rfl hlast hend fun place' hplace' => ?_
      rw [hahead]
      exact hothers.excerpt_behind hnext hplace'
    obtain ⟨other, rest', hfound, -⟩ := hexcerpt.exists_first
    refine ⟨Text.trim_of_tight ?_ ?_, by omega, ⟨text, other, rest', 0⟩, ?_, rfl, ?_, ?_, ?_⟩
    · exact (hstands.at_start.in_stretch hlast hend).stops
    · have hfirst := hstands.at_start.in_stretch (Nat.le_refl _) hwithin
      rw [stretch_self] at hfirst
      have hsplit : text = stretch c.source c.current.start.offset c.current.stop ++
          stretch c.source c.current.stop c'.previousStop :=
        stretch_split (Nat.le_of_lt hstop) hlast hend
      rw [hsplit]
      exact hfirst.endsTight.append (hothers.endsTight hnext)
    · have hlexemes : lexemes (String.ofList text) = .ok other :: rest' := by
        rw [← hfound, lexemes, String.toList_ofList]
      unfold ofSource
      rw [hlexemes, String.toList_ofList]
    · dsimp only
      omega
    · omega
    · rw [← hfound]
      exact hexcerpt

end Cursor

end TypedQuery
