import TypedQuery.Proofs.Token.Scanning
import TypedQuery.Token.Cursor

/-!
# Readers and the tokens that are left

What a reader does is told by the tokens in front of it: it passes some of them, and others are
left. Positions do not matter. The rules follow the steps of a reader, one after the other.
-/

namespace TypedQuery

/-- The tokens that are left: the current one and those after it. None has a fault. -/
def Cursor.Sees (cursor : Cursor) (tokens : List Token) : Prop :=
  ∃ found : List Lexeme, cursor.rest = found.map .ok ∧
    cursor.current.token :: found.map Lexeme.token = tokens

/-- A cursor has as many tokens ahead as it sees. -/
theorem Cursor.Sees.size {cursor : Cursor} {tokens : List Token} (h : cursor.Sees tokens) :
    cursor.size = tokens.length := by
  obtain ⟨found, hrest, rfl⟩ := h
  rw [Cursor.size, hrest]
  simp

/-- At the start of a text that is scanned without a fault, all its tokens are left. -/
theorem Cursor.exists_sees {source : String} {found : List Lexeme}
    (h : lexemes source = found.map .ok) :
    ∃ cursor, Cursor.ofSource source = .ok cursor ∧ cursor.Sees (found.map Lexeme.token) := by
  unfold Cursor.ofSource
  cases found with
  | nil => exact absurd h (lexemesFrom_ne_nil _ _)
  | cons first rest =>
    rw [h]
    exact ⟨⟨source.toList, first, rest.map .ok, 0⟩, rfl, rest, rfl, rfl⟩

/-- At the start of a text that writes tokens, all of them are left. -/
theorem Writes.ofSource {tokens : List Token} {source : String} (h : Writes tokens source.toList) :
    ∃ cursor, Cursor.ofSource source = .ok cursor ∧ cursor.Sees (tokens ++ [.eof]) := by
  obtain ⟨found, hfound, htokens⟩ := h.lexemesFrom .start
  rw [← htokens]
  exact Cursor.exists_sees hfound

/-- A literal with a sign before it. -/
def Literal.isNegative : Literal → Bool
  | integer n => n < 0
  | decimal d => d.negative
  | _ => false

/-- The token of a literal, without its sign. -/
def Literal.token : Literal → Token
  | integer n => .integer (UInt64.ofNat n.toInt.natAbs)
  | decimal d => .decimal d.abs
  | text s => .text s
  | boolean b => .boolean b
  | null => .symbol .null

/-- The tokens of a literal. -/
def Literal.tokens (value : Literal) : List Token :=
  if value.isNegative then [.symbol .minus, value.token] else [value.token]

/-- The token is a literal. -/
def Token.isLiteral : Token → Bool
  | integer _ | decimal _ | text _ | boolean _ | symbol .null => true
  | _ => false

/-- The token is a number. -/
def Token.isNumber : Token → Bool
  | integer _ | decimal _ => true
  | _ => false

/-- A literal can be written: so can its decimal, if it is one. -/
def Literal.Writable : Literal → Prop
  | decimal d => d.Writable
  | _ => True

/-- The token of a literal that can be written can be written. -/
theorem Literal.writable_token {value : Literal} (h : value.Writable) : value.token.Writable := by
  cases value with
  | integer n => exact Token.writable_integer _
  | decimal d => exact Token.writable_decimal h rfl
  | text s => exact Token.writable_text s
  | boolean b =>
    cases b with
    | false =>
      have hname : isName "false" = true := by decide
      exact Token.writable_of_isName hname
    | true =>
      have hname : isName "true" = true := by decide
      exact Token.writable_of_isName hname
  | null => exact Token.writable_symbol .null

/-- The words that are keywords. -/
def Token.keywords : List String :=
  ["and", "or", "not", "if", "then", "else", "true", "false", "null"]

/-- A keyword is the token of its word. -/
theorem Token.keyword_ofWord {word : String} (h : word ∈ keywords) :
    (ofWord word).keyword? = some word := by
  revert word
  decide

/-- A word that is no keyword is an identifier. -/
theorem Token.ofWord_eq_identifier {word : String} (h : word ∉ keywords) :
    ofWord word = .identifier word := by
  simp only [keywords, List.mem_cons, List.not_mem_nil, not_or] at h
  obtain ⟨hand, hor, hnot, hif, hthen, helse, htrue, hfalse, hnull, -⟩ := h
  unfold ofWord
  rw [if_neg hand, if_neg hor, if_neg hnot, if_neg hif, if_neg hthen, if_neg helse, if_neg htrue,
    if_neg hfalse, if_neg hnull]

/-- Every word is the name that its token stands for. -/
theorem Token.name_ofWord (word : String) : (ofWord word).name? = some word := by
  by_cases h : word ∈ keywords
  · have hall : ∀ word ∈ keywords, (ofWord word).name? = some word := by decide
    exact hall word h
  · rw [ofWord_eq_identifier h]
    rfl

namespace Reader

variable {α β : Type} {tokens before between after rest : List Token} {token : Token}

/-- Where some tokens are left, a reader gives a result with a property and leaves others. -/
def Passes (run : Reader α) (before after : List Token) (post : α → Prop) : Prop :=
  ∀ cursor : Cursor, cursor.Sees before →
    ∃ result cursor', run cursor = .ok (result, cursor') ∧ cursor'.Sees after ∧ post result

namespace Passes

/-- A result passes no tokens. -/
theorem pure {result : α} {post : α → Prop} (h : post result) :
    Passes (Pure.pure result) tokens tokens post :=
  fun cursor hsees => ⟨result, cursor, rfl, hsees, h⟩

/-- One reader after the other. -/
theorem bind {run : Reader α} {next : α → Reader β} {post : α → Prop} {post' : β → Prop}
    (hrun : run.Passes before between post)
    (hnext : ∀ result, post result → (next result).Passes between after post') :
    (run >>= next).Passes before after post' := by
  intro cursor hsees
  obtain ⟨first, cursor₁, hfirst, hbetween, hpost⟩ := hrun cursor hsees
  obtain ⟨result, cursor₂, hresult, hafter, hpost'⟩ := hnext first hpost cursor₁ hbetween
  refine ⟨result, cursor₂, ?_, hafter, hpost'⟩
  change StateT.bind run next cursor = .ok (result, cursor₂)
  unfold StateT.bind
  rw [hfirst]
  exact hresult

variable {next : α → Reader β} {post : β → Prop}

/-- The current token is looked at. -/
theorem current {next : Token → Reader β} (h : (next token).Passes (token :: rest) after post) :
    (Reader.current >>= next).Passes (token :: rest) after post := by
  have hcurrent : Reader.current.Passes (token :: rest) (token :: rest) (· = token) := by
    intro cursor hsees
    obtain ⟨found, hrest, htokens⟩ := hsees
    rw [List.cons.injEq] at htokens
    exact ⟨cursor.current.token, cursor, rfl, ⟨found, hrest, by rw [htokens.1, htokens.2]⟩,
      htokens.1⟩
  refine hcurrent.bind ?_
  rintro _ rfl
  exact h

/-- What does not move passes nothing. -/
theorem position {next : Position → Reader β} (h : ∀ here, (next here).Passes before after post) :
    (Reader.position >>= next).Passes before after post := by
  have hposition : Reader.position.Passes before before (fun _ => True) :=
    fun cursor hsees => ⟨cursor.current.start, cursor, rfl, hsees, trivial⟩
  exact hposition.bind fun here _ => h here

/-- A reader that asks for a stretch of the text passes tokens if it does so whatever this is. -/
theorem textFrom {offset : Nat} {next : String → Reader β}
    (h : ∀ text, (next text).Passes before after post) :
    (Reader.textFrom offset >>= next).Passes before after post := by
  have htext : (Reader.textFrom offset).Passes before before (fun _ => True) :=
    fun cursor hsees => ⟨_, cursor, rfl, hsees, trivial⟩
  exact htext.bind fun text _ => h text

/-- A reader that asks for a symbol finds it. -/
theorem atSymbol {symbol : Symbol} {yes no : Reader β}
    (h : yes.Passes (.symbol symbol :: rest) after post) :
    (Reader.atSymbol symbol >>= fun found => if found = true then yes else no).Passes
      (.symbol symbol :: rest) after post := by
  have hat : (Reader.atSymbol symbol).Passes (.symbol symbol :: rest) (.symbol symbol :: rest)
      (· = true) := current (pure (decide_eq_true rfl))
  refine hat.bind fun found hfound => ?_
  rw [if_pos hfound]
  exact h

/-- A reader that asks for a token finds something else. -/
theorem not_atToken {other : Token} {yes no : Reader β} (hne : token ≠ other)
    (h : no.Passes (token :: rest) after post) :
    (Reader.atToken other >>= fun found => if found = true then yes else no).Passes
      (token :: rest) after post := by
  have hat : (Reader.atToken other).Passes (token :: rest) (token :: rest) (· = false) :=
    current (pure (decide_eq_false hne))
  refine hat.bind fun found hfound => ?_
  rw [if_neg (Bool.eq_false_iff.mp hfound)]
  exact h

/-- A reader that asks for a symbol finds something else. -/
theorem not_atSymbol {symbol : Symbol} {yes no : Reader β} (hne : token ≠ .symbol symbol)
    (h : no.Passes (token :: rest) after post) :
    (Reader.atSymbol symbol >>= fun found => if found = true then yes else no).Passes
      (token :: rest) after post :=
  not_atToken hne h

/-- The current token is passed. Something is left, the end of the text if nothing else. -/
theorem passes_advance (hrest : rest ≠ []) :
    Reader.advance.Passes (token :: rest) rest (fun _ => True) := by
  rintro ⟨source, first, more, stop⟩ ⟨found, hfound, htokens⟩
  rw [List.cons.injEq] at htokens
  cases hfound
  cases found with
  | nil => exact absurd htokens.2.symm hrest
  | cons second others => exact ⟨(), _, rfl, ⟨others, rfl, htokens.2⟩, trivial⟩

/-- Stepping over a token passes it. -/
theorem advance {next : Unit → Reader β} (hrest : rest ≠ [])
    (h : (next ()).Passes rest after post) :
    (Reader.advance >>= next).Passes (token :: rest) after post :=
  (passes_advance hrest).bind fun _ _ => h

/-- An expected symbol is passed. -/
theorem expect {symbol : Symbol} {next : Unit → Reader β} (hrest : rest ≠ [])
    (h : (next ()).Passes rest after post) :
    (Reader.expect symbol >>= next).Passes (.symbol symbol :: rest) after post := by
  have hexpect : (Reader.expect symbol).Passes (.symbol symbol :: rest) rest (fun _ => True) := by
    refine current ?_
    rw [if_pos rfl]
    exact passes_advance hrest
  exact hexpect.bind fun _ _ => h

/-- A name is passed. -/
theorem name {word : String} {next : String → Reader β} (hname : token.name? = some word)
    (hrest : rest ≠ []) (h : (next word).Passes rest after post) :
    (Reader.name >>= next).Passes (token :: rest) after post := by
  have hpasses : Reader.name.Passes (token :: rest) rest (· = word) := by
    refine current ?_
    rw [hname]
    exact advance hrest (pure rfl)
  refine hpasses.bind ?_
  rintro _ rfl
  exact h

/-- The end of the text is passed and stays. -/
theorem expectEnd : (Reader.expectToken .eof).Passes [.eof] [.eof] (fun _ => True) := by
  refine current ?_
  rw [if_pos rfl]
  rintro ⟨source, first, more, stop⟩ ⟨found, hfound, htokens⟩
  rw [List.cons.injEq] at htokens
  cases hfound
  cases found with
  | nil => exact ⟨(), _, rfl, ⟨[], rfl, htokens.1 ▸ rfl⟩, trivial⟩
  | cons second others => cases htokens.2

/-- The digits of an integer without a sign are read to it. -/
theorem signedInteger_of_nonneg {n : Int64} (h : ¬n < 0) :
    Reader.signedInteger false (UInt64.ofNat n.toInt.natAbs) = Pure.pure n := by
  have hrange := n.toInt_lt
  have hsign : 0 ≤ n.toInt := by
    rw [Int64.lt_iff_toInt_lt] at h
    exact Int.not_lt.mp h
  have hnat : (UInt64.ofNat n.toInt.natAbs).toNat = n.toInt.natAbs := by
    rw [UInt64.toNat_ofNat']
    omega
  have hfits : n.toInt.natAbs < powerOfTwo 63 := by
    have hlimit : powerOfTwo 63 = 2 ^ 63 := rfl
    omega
  unfold Reader.signedInteger
  rw [if_neg Bool.false_ne_true, hnat, if_pos hfits, Int.natAbs_of_nonneg hsign, Int64.ofInt_toInt]

/-- The digits of an integer behind a sign are read to it. -/
theorem signedInteger_of_neg {n : Int64} (h : n < 0) :
    Reader.signedInteger true (UInt64.ofNat n.toInt.natAbs) = Pure.pure n := by
  have hrange := n.le_toInt
  have hsign : n.toInt < 0 := Int64.lt_iff_toInt_lt.mp h
  have hnat : (UInt64.ofNat n.toInt.natAbs).toNat = n.toInt.natAbs := by
    rw [UInt64.toNat_ofNat']
    omega
  have hfits : n.toInt.natAbs ≤ powerOfTwo 63 := by
    have hlimit : powerOfTwo 63 = 2 ^ 63 := rfl
    omega
  have hvalue : -(n.toInt.natAbs : Int) = n.toInt := by omega
  unfold Reader.signedInteger
  rw [if_pos rfl, hnat, if_pos hfits, hvalue, Int64.ofInt_toInt]

/-- A literal without a sign is passed. -/
theorem literal {value : Literal} {next : Option Literal → Reader β}
    (hsign : value.isNegative = false) (hrest : rest ≠ [])
    (h : (next (some value)).Passes rest after post) :
    (Reader.literal? >>= next).Passes (value.token :: rest) after post := by
  have hliteral : Reader.literal?.Passes (value.token :: rest) rest (· = some value) := by
    refine current ?_
    cases value with
    | integer n =>
      have hn : ¬n < 0 := of_decide_eq_false hsign
      change Passes (Reader.signedInteger false _ >>= _) _ _ _
      rw [signedInteger_of_nonneg hn]
      exact (pure rfl).bind fun _ hsame => hsame ▸ advance hrest (pure rfl)
    | decimal d =>
      have habs : d.abs = d := by
        obtain ⟨negative, mantissa, scale, hmantissa, hscale⟩ := d
        cases hsign
        rfl
      exact advance hrest (pure (by rw [habs]))
    | text s => exact advance hrest (pure rfl)
    | boolean b => exact advance hrest (pure rfl)
    | null => exact advance hrest (pure rfl)
  refine hliteral.bind ?_
  rintro _ rfl
  exact h

/-- A reader that asks for a literal finds something else. -/
theorem not_literal {next : Option Literal → Reader β} (hnone : token.isLiteral = false)
    (h : (next none).Passes (token :: rest) after post) :
    (Reader.literal? >>= next).Passes (token :: rest) after post := by
  have hliteral : Reader.literal?.Passes (token :: rest) (token :: rest) (· = none) := by
    refine current ?_
    cases token with
    | integer n => cases hnone
    | decimal d => cases hnone
    | text s => cases hnone
    | boolean b => cases hnone
    | symbol symbol =>
      cases symbol with
      | null => cases hnone
      | _ => exact pure rfl
    | _ => exact pure rfl
  refine hliteral.bind ?_
  rintro _ rfl
  exact h

/-- A number after a minus sign is passed. -/
theorem negated {value : Literal} {next : Option Literal → Reader β}
    (hsign : value.isNegative = true) (hrest : rest ≠ [])
    (h : (next (some value)).Passes rest after post) :
    (Reader.negated? >>= next).Passes (value.token :: rest) after post := by
  have hliteral : Reader.negated?.Passes (value.token :: rest) rest (· = some value) := by
    refine current ?_
    cases value with
    | integer n =>
      have hn : n < 0 := of_decide_eq_true hsign
      change Passes (Reader.signedInteger true _ >>= _) _ _ _
      rw [signedInteger_of_neg hn]
      exact (pure rfl).bind fun _ hsame => hsame ▸ advance hrest (pure rfl)
    | decimal d =>
      have hneg : d.abs.neg = d := by
        obtain ⟨negative, mantissa, scale, hmantissa, hscale⟩ := d
        cases hsign
        rfl
      exact advance hrest (pure (by rw [hneg]))
    | text s => cases hsign
    | boolean b => cases hsign
    | null => cases hsign
  refine hliteral.bind ?_
  rintro _ rfl
  exact h

/-- A minus sign that stands before no number belongs to no literal. -/
theorem not_negated {next : Option Literal → Reader β} (hnone : token.isNumber = false)
    (h : (next none).Passes (token :: rest) after post) :
    (Reader.negated? >>= next).Passes (token :: rest) after post := by
  have hliteral : Reader.negated?.Passes (token :: rest) (token :: rest) (· = none) := by
    refine current ?_
    cases token with
    | integer n => cases hnone
    | decimal d => cases hnone
    | _ => exact pure rfl
  refine hliteral.bind ?_
  rintro _ rfl
  exact h

end Passes

/-- A text is read by running a reader from its first token. -/
theorem runFrom_eq_ok {run : Reader α} {source : String} {result : α} :
    (do
      let cursor ← Cursor.ofSource source
      let (found, _) ← run.run cursor
      return found) = .ok result ↔ ∃ cursor cursor', Cursor.ofSource source = .ok cursor ∧
        run cursor = .ok (result, cursor') := by
  cases Cursor.ofSource source with
  | error fault =>
    refine ⟨nofun, ?_⟩
    rintro ⟨_, _, ⟨⟩, _⟩
  | ok cursor =>
    change (run cursor >>= fun found => Pure.pure found.1) = .ok result ↔ _
    cases hrun : run cursor with
    | error fault =>
      refine ⟨nofun, ?_⟩
      rintro ⟨_, _, ⟨⟩, hread⟩
      rw [hrun] at hread
      cases hread
    | ok found =>
      obtain ⟨other, cursor'⟩ := found
      constructor
      · rintro ⟨⟩
        exact ⟨cursor, cursor', rfl, hrun⟩
      · rintro ⟨_, _, ⟨⟩, hread⟩
        rw [hrun] at hread
        cases hread
        rfl

end Reader

end TypedQuery
