import TypedQuery.Proofs.Token.Passing

/-!
# Tokens apart from each other

Tokens are printed one after the other, each in one of its spellings, with blanks or comments
between them. Whatever the spellings and the separators, scanning such a text gives the tokens back.
What can be printed in this way is all that is ever scanned.
-/

namespace TypedQuery

namespace Token

/-- The ways to print a token. Some symbols have a sign and a word. -/
def spellings : Token → List (List Char)
  | integer n => [Nat.toDigits 10 n.toNat]
  | decimal d => [d.spelling]
  | text s => ['"' :: escape s.toList ++ ['"']]
  | boolean b => (boolean b).keyword?.toList.map String.toList
  | var name => ['$' :: name.toList]
  | identifier name => [name.toList]
  | symbol s => s.signs ++ (symbol s).keyword?.toList.map String.toList
  | eof => []

/-- A token can be printed: names are names, an identifier is no keyword, and a decimal has no sign
and a digit after the point, or no room for one. Every integer, every text and every symbol can. -/
def Printable : Token → Prop
  | decimal d => d.Writable ∧ d.negative = false
  | var name => isName name = true
  | identifier name => isName name = true ∧ name ∉ keywords
  | eof => False
  | _ => True

variable {token : Token} {word : String} {spelling rest : List Char}

/-- The word of a keyword is a name, and it is scanned as the keyword. -/
theorem ofWord_keyword (h : token.keyword? = some word) :
    ofWord word = token ∧ isName word = true := by
  cases token with
  | boolean b =>
    cases b
    all_goals
      cases h
      exact ⟨rfl, by decide⟩
  | symbol s =>
    cases s
    all_goals first | (cases h; exact ⟨rfl, by decide⟩) | cases h
  | _ => cases h

/-- A keyword is spelled by its word. -/
theorem spelled_keyword (hspelling : spelling ∈ token.keyword?.toList.map String.toList)
    (hrest : Detached rest) : token.Spelled spelling rest := by
  obtain ⟨word, hword, rfl⟩ := List.mem_map.mp hspelling
  obtain ⟨hofWord, hname⟩ := ofWord_keyword (Option.mem_toList.mp hword)
  rw [← hofWord]
  exact .word hname hrest.stops

/-- Each way to print a token writes it in front of a blank or a comment. -/
theorem Printable.spelled (h : token.Printable) (hspelling : spelling ∈ token.spellings)
    (hrest : Detached rest) : token.Spelled spelling rest := by
  cases token with
  | integer n =>
    cases List.mem_singleton.mp hspelling
    exact .integer hrest.stops.digits hrest.fractionDigits
  | decimal d =>
    cases List.mem_singleton.mp hspelling
    exact .decimal h.1 h.2 hrest.stops.digits
  | text s =>
    cases List.mem_singleton.mp hspelling
    exact .text
  | boolean b => exact spelled_keyword hspelling hrest
  | var name =>
    cases List.mem_singleton.mp hspelling
    exact .var h hrest.stops
  | identifier name =>
    cases List.mem_singleton.mp hspelling
    rw [← ofWord_eq_identifier h.2]
    exact .word h.1 hrest.stops
  | symbol s =>
    rcases List.mem_append.mp hspelling with hsign | hword
    · exact .sign hsign hrest.longest
    · exact spelled_keyword hword hrest
  | eof => cases h

/-- A token that can be printed has a spelling. -/
theorem exists_spelling (h : token.Printable) : ∃ spelling, spelling ∈ token.spellings := by
  cases token with
  | boolean b =>
    cases b
    all_goals exact ⟨_, List.mem_cons_self⟩
  | symbol s =>
    cases s
    all_goals exact ⟨_, List.mem_cons_self⟩
  | eof => cases h
  | _ => exact ⟨_, List.mem_cons_self⟩

/-- The tokens that can be printed are those that can be written in some text, and so those that can
be scanned. -/
theorem printable_iff_writable : token.Printable ↔ token.Writable := by
  constructor
  · intro h
    obtain ⟨spelling, hspelling⟩ := exists_spelling h
    exact ⟨spelling, h.spelled hspelling detached_nil⟩
  · rintro ⟨spelling, hspelled⟩
    cases hspelled with
    | @word word _ hname _ =>
      by_cases hkeyword : word ∈ keywords
      · have hall : ∀ word ∈ keywords, (ofWord word).keyword?.isSome = true := by decide
        have hsome := hall word hkeyword
        cases hword : ofWord word with
        | boolean b => trivial
        | symbol s => trivial
        | _ =>
          rw [hword] at hsome
          cases hsome
      · rw [ofWord_eq_identifier hkeyword]
        exact ⟨hname, hkeyword⟩
    | decimal hwritable hsign _ => exact ⟨hwritable, hsign⟩
    | var hname _ => exact hname
    | _ => trivial

end Token

/-- A text in which tokens are printed with a separator after each but the last one: blanks and
comments that end with their lines, in any mix. The last one may have a separator after it, too. -/
inductive Separated : List Token → List Char → Prop
  | nil : Separated [] []
  | last {token : Token} {spelling : List Char} (printed : spelling ∈ token.spellings) :
      Separated [token] spelling
  | cons {token : Token} {tokens : List Token} {spelling gap rest : List Char}
      (printed : spelling ∈ token.spellings) (separator : Gap gap) (nonempty : gap ≠ [])
      (others : Separated tokens rest) : Separated (token :: tokens) (spelling ++ (gap ++ rest))

/-- A separator starts with a blank or a comment. -/
theorem Gap.detached {gap : List Char} (h : Gap gap) (hne : gap ≠ []) (rest : List Char) :
    Detached (gap ++ rest) := by
  intro c hc
  cases h with
  | nil => exact absurd rfl hne
  | blank hblank _ =>
    cases hc
    exact .inl hblank
  | comment _ _ =>
    cases hc
    exact .inr rfl

/-- After a gap, a text writes what it writes without the gap. -/
theorem Writes.after_gap {tokens : List Token} {gap text : List Char} (hgap : Gap gap)
    (h : Writes tokens text) : Writes tokens (gap ++ text) := by
  cases h with
  | nil hblank => exact .nil (hgap.append hblank)
  | @cons token tokens between spelling rest hbetween hfirst hothers =>
    rw [← List.append_assoc]
    exact .cons (hgap.append hbetween) hfirst hothers

/-- A text in which tokens stand apart writes these tokens. -/
theorem Separated.writes {tokens : List Token} {text : List Char} (h : Separated tokens text)
    (hprintable : ∀ token ∈ tokens, token.Printable) : Writes tokens text := by
  induction h with
  | nil => exact .nil .nil
  | @last token spelling hspelling =>
    have hspelled := (hprintable token List.mem_cons_self).spelled hspelling detached_nil
    have hwrites := Writes.cons Gap.nil hspelled (.nil .nil)
    rwa [List.nil_append, List.append_nil] at hwrites
  | @cons token tokens spelling gap rest hspelling hgap hne _ ih =>
    obtain ⟨htoken, htokens⟩ := List.forall_mem_cons.mp hprintable
    have hspelled := htoken.spelled hspelling (hgap.detached hne rest)
    have hwrites := Writes.cons Gap.nil hspelled ((ih htokens).after_gap hgap)
    rwa [List.nil_append] at hwrites

/-- Tokens that can be printed can be printed apart from each other. -/
theorem exists_separated {tokens : List Token} (hprintable : ∀ token ∈ tokens, token.Printable) :
    ∃ text, Separated tokens text := by
  induction tokens with
  | nil => exact ⟨[], .nil⟩
  | cons token rest ih =>
    obtain ⟨htoken, hrest⟩ := List.forall_mem_cons.mp hprintable
    obtain ⟨spelling, hspelling⟩ := Token.exists_spelling htoken
    obtain ⟨text, htext⟩ := ih hrest
    have hblank : Text.isBlank ' ' = true := by decide
    exact ⟨_, .cons hspelling (.blank hblank .nil) (List.cons_ne_nil ' ' []) htext⟩

/-- Scanning inverts printing. Tokens that can be printed can be printed apart from each other, and
a text in which they are is scanned as just these tokens and the end of the text, whatever the
spellings and the separators. -/
theorem lexemes_separated {tokens : List Token}
    (hprintable : ∀ token ∈ tokens, token.Printable) :
    (∃ source : String, Separated tokens source.toList) ∧
      ∀ source : String, Separated tokens source.toList →
        (lexemes source).map (Except.map Lexeme.token) = (tokens ++ [Token.eof]).map .ok := by
  constructor
  · obtain ⟨text, htext⟩ := exists_separated hprintable
    refine ⟨String.ofList text, ?_⟩
    rwa [String.toList_ofList]
  · intro source hsource
    obtain ⟨found, hfound, htokens⟩ := (hsource.writes hprintable).lexemesFrom .start
    unfold lexemes
    rw [hfound, ← htokens, List.map_map, List.map_map]
    rfl

/-- A variable with the name of a keyword, a sign in front of a comment, a decimal before a spread,
a text with a quote in it, the largest integer, and a name that starts like a keyword. -/
theorem lexemes_separated_mixed :
    let decimal : Decimal := ⟨false, 150, 2, by decide, by decide⟩
    let tokens : List Token := [.var "if", .symbol .and, .decimal decimal, .symbol .spread,
      .text "a\"", .integer 18446744073709551615, .identifier "iff"]
    let source := "$if && # a $ and\n1.50\t...\r\n\"a\\\"\" 18446744073709551615 iff"
    (∀ token ∈ tokens, token.Printable) ∧ Separated tokens source.toList ∧
      (lexemes source).map (Except.map Lexeme.token) = (tokens ++ [Token.eof]).map .ok := by
  intro decimal tokens source
  have hprintable : ∀ token ∈ tokens, token.Printable := by
    simp only [tokens, List.forall_mem_cons]
    exact ⟨show isName "if" = true by decide, trivial, ⟨.inl (by decide), rfl⟩, trivial, trivial,
      trivial, ⟨by decide, by decide⟩, nofun⟩
  have hspace : Gap [' '] := .blank (by decide) .nil
  have hcomment : Gap (' ' :: '#' :: (" a $ and".toList ++ ['\n'])) :=
    .blank (by decide) (.comment (by decide) .nil)
  have htab : Gap ['\t'] := .blank (by decide) .nil
  have hline : Gap ['\r', '\n'] := .blank (by decide) (.blank (by decide) .nil)
  have hsource : source.toList = "$if".toList ++ ([' '] ++ ("&&".toList ++
      (' ' :: '#' :: (" a $ and".toList ++ ['\n']) ++ ("1.50".toList ++ (['\t'] ++ ("...".toList ++
        (['\r', '\n'] ++ ("\"a\\\"\"".toList ++ ([' '] ++ ("18446744073709551615".toList ++
          ([' '] ++ "iff".toList))))))))))) := by
    decide
  have hseparated : Separated tokens source.toList := by
    rw [hsource]
    exact .cons (by decide) hspace (by decide) (.cons (by decide) hcomment (by decide)
      (.cons (by decide +kernel) htab (by decide) (.cons (by decide) hline (by decide)
        (.cons (by decide) hspace (by decide) (.cons (by decide +kernel) hspace (by decide)
          (.last (by decide)))))))
  exact ⟨hprintable, hseparated, (lexemes_separated hprintable).2 source hseparated⟩

end TypedQuery
