import TypedQuery.Proofs.Token.Passing

/-!
# What readers can find at all

All tokens that a reader meets are written in some text, and so is what it makes of them: a literal
can be written, and a name is a name.
-/

namespace TypedQuery

namespace Token

/-- What a token carries: names are names, identifiers are no keywords, decimals can be written. -/
def Proper : Token → Prop
  | identifier name => isName name = true ∧ ofWord name = identifier name
  | var name => isName name = true
  | decimal d => d.Writable
  | _ => True

/-- Keywords carry nothing. -/
theorem proper_of_keyword {token : Token} {word : String} (h : token.keyword? = some word) :
    token.Proper := by
  cases token with
  | identifier name => cases h
  | var name => cases h
  | decimal d => cases h
  | _ => trivial

/-- A token that can be written carries what it should. -/
theorem Writable.proper {token : Token} (h : token.Writable) : token.Proper := by
  obtain ⟨spelling, hspelled⟩ := h
  cases hspelled with
  | @word word _ hname _ =>
    by_cases hkeyword : word ∈ keywords
    · exact proper_of_keyword (keyword_ofWord hkeyword)
    · have hword := ofWord_eq_identifier hkeyword
      rw [hword]
      exact ⟨hname, hword⟩
  | var hname _ => exact hname
  | decimal hwritable _ _ => exact hwritable
  | _ => trivial

/-- A token that may be left: one that can be written, or the end of the text. -/
def Sound (token : Token) : Prop :=
  token.Writable ∨ token = .eof

/-- A token that may be left carries what it should. -/
theorem Sound.proper {token : Token} (h : token.Sound) : token.Proper := by
  rcases h with hwritable | rfl
  · exact hwritable.proper
  · trivial

/-- What stands for a name is a name. -/
theorem Sound.isName {token : Token} {word : String} (h : token.Sound)
    (hname : token.name? = some word) : isName word = true := by
  cases token with
  | identifier name =>
    cases hname
    exact h.proper.1
  | boolean b =>
    cases b
    all_goals
      cases hname
      decide
  | symbol s =>
    cases s
    all_goals first | (cases hname; decide) | cases hname
  | _ => cases hname

end Token

/-- All tokens that are left are sound. -/
def Cursor.Sound (cursor : Cursor) : Prop :=
  cursor.current.token.Sound ∧ ∀ lexeme, .ok lexeme ∈ cursor.rest → lexeme.token.Sound

/-- The tokens of a source text are sound. -/
theorem Cursor.sound_ofSource {source : String} {cursor : Cursor}
    (h : Cursor.ofSource source = .ok cursor) : cursor.Sound := by
  have hall : ∀ lexeme, .ok lexeme ∈ lexemes source → lexeme.token.Sound :=
    fun lexeme hlexeme => writable_of_mem_lexemesFrom hlexeme
  unfold ofSource at h
  split at h
  · rename_i first rest hlexemes
    cases h
    rw [hlexemes] at hall
    exact ⟨hall first List.mem_cons_self, fun lexeme hlexeme =>
      hall lexeme (List.mem_cons_of_mem _ hlexeme)⟩
  · cases h
  · cases h
    exact ⟨.inr rfl, nofun⟩

namespace Reader

variable {α β : Type}

/-- From sound tokens, every result of a reader has a property, and what is left is sound. -/
def Yields (run : Reader α) (post : α → Prop) : Prop :=
  ∀ cursor result cursor', cursor.Sound → run cursor = .ok (result, cursor') →
    cursor'.Sound ∧ post result

namespace Yields

variable {post : α → Prop}

/-- A result yields its property and reads nothing. -/
theorem pure {result : α} (h : post result) : Yields (Pure.pure result) post := by
  intro cursor found cursor' hsound hrun
  cases hrun
  exact ⟨hsound, h⟩

/-- A reader that only fails yields nothing. -/
theorem fail (fault : SyntaxFault) : Yields (Reader.fail fault) post := by
  intro cursor found cursor' _ hrun
  cases hrun

/-- Readers one after another yield what the second yields on what the first does. -/
theorem bind {run : Reader α} {next : α → Reader β} {post' : β → Prop} (hrun : run.Yields post)
    (hnext : ∀ result, post result → (next result).Yields post') : (run >>= next).Yields post' := by
  intro cursor found cursor' hsound hboth
  change StateT.bind run next cursor = .ok (found, cursor') at hboth
  unfold StateT.bind at hboth
  cases hfirst : run cursor with
  | error fault =>
    rw [hfirst] at hboth
    cases hboth
  | ok between =>
    rw [hfirst] at hboth
    obtain ⟨hbetween, hpost⟩ := hrun cursor between.1 between.2 hsound hfirst
    exact hnext between.1 hpost between.2 found cursor' hbetween hboth

/-- The current token is sound. -/
theorem current : Reader.current.Yields Token.Sound := by
  intro cursor found cursor' hsound hrun
  cases hrun
  exact ⟨hsound, hsound.1⟩

/-- Positions are read without a property. -/
theorem position : Reader.position.Yields fun _ => True := by
  intro cursor found cursor' hsound hrun
  cases hrun
  exact ⟨hsound, trivial⟩

/-- Stretches of the text are read without a property. -/
theorem textFrom (offset : Nat) : (Reader.textFrom offset).Yields fun _ => True := by
  intro cursor found cursor' hsound hrun
  cases hrun
  exact ⟨hsound, trivial⟩

/-- Behind a sound token there are sound ones. -/
theorem advance : Reader.advance.Yields fun _ => True := by
  rintro ⟨source, first, more, stop⟩ found cursor' ⟨hfirst, hmore⟩ hrun
  cases more with
  | nil =>
    cases hrun
    exact ⟨⟨hfirst, hmore⟩, trivial⟩
  | cons next rest =>
    cases next with
    | error fault => cases hrun
    | ok second =>
      cases hrun
      exact ⟨⟨hmore second List.mem_cons_self, fun lexeme hlexeme =>
        hmore lexeme (List.mem_cons_of_mem _ hlexeme)⟩, trivial⟩

/-- Asking for a token leaves sound tokens. -/
theorem atToken (token : Token) : (Reader.atToken token).Yields fun _ => True :=
  current.bind fun _ _ => pure trivial

/-- Asking for a symbol leaves sound tokens. -/
theorem atSymbol (symbol : Symbol) : (Reader.atSymbol symbol).Yields fun _ => True :=
  atToken _

/-- Behind an expected token there are sound ones. -/
theorem expectToken (token : Token) : (Reader.expectToken token).Yields fun _ => True := by
  refine current.bind fun found _ => ?_
  split
  · exact advance
  · exact fail _

/-- Behind an expected symbol there are sound tokens. -/
theorem expect (symbol : Symbol) : (Reader.expect symbol).Yields fun _ => True :=
  expectToken _

/-- A name that is read is a name. -/
theorem name : Reader.name.Yields fun word => isName word = true := by
  refine current.bind fun found hfound => ?_
  split
  · rename_i word hword
    exact advance.bind fun _ _ => pure (hfound.isName hword)
  · exact fail _

/-- The range of an integer is checked on sound tokens. -/
theorem signedInteger (negative : Bool) (n : UInt64) :
    (Reader.signedInteger negative n).Yields fun _ => True := by
  unfold Reader.signedInteger
  repeat' split
  all_goals first | exact pure trivial | exact fail _

/-- What is found of a literal is one that can be written. -/
theorem some_literal {value : Literal} (h : value.Writable) :
    Yields (do Reader.advance; return some value) fun found =>
      ∀ other, found = some other → other.Writable := by
  refine advance.bind fun _ _ => pure ?_
  rintro _ ⟨⟩
  exact h

/-- A literal that is read can be written. -/
theorem literal : Reader.literal?.Yields fun found => ∀ value, found = some value →
    value.Writable := by
  refine current.bind fun token htoken => ?_
  cases token with
  | integer n =>
    refine (signedInteger false n).bind fun value _ => ?_
    exact some_literal (show (Literal.integer value).Writable from trivial)
  | decimal d => exact some_literal (show (Literal.decimal d).Writable from htoken.proper)
  | text s => exact some_literal (show (Literal.text s).Writable from trivial)
  | boolean b => exact some_literal (show (Literal.boolean b).Writable from trivial)
  | symbol s =>
    cases s with
    | null => exact some_literal (show Literal.null.Writable from trivial)
    | _ => exact pure nofun
  | _ => exact pure nofun

/-- Negated numbers that are read can be written. -/
theorem negated : Reader.negated?.Yields fun found => ∀ value, found = some value →
    value.Writable := by
  refine current.bind fun token htoken => ?_
  cases token with
  | integer n =>
    refine (signedInteger true n).bind fun value _ => ?_
    exact some_literal (show (Literal.integer value).Writable from trivial)
  | decimal d => exact some_literal (show (Literal.decimal d.neg).Writable from htoken.proper)
  | _ => exact pure nofun

end Yields

end Reader

end TypedQuery
