import TypedQuery.Proofs.Token.Excerpts

/-!
# Readers are local

What a reader gives depends on the tokens that it passes, and on nothing behind them: from an
excerpt that ends there the same is read. The rules follow the steps of a reader. A reader that is
given fuel needs some for each token, whatever fuel it was given in the whole text.
-/

namespace TypedQuery

/-- The tokens that stand in expressions. -/
def Token.isExpressive : Token → Bool
  | eof | symbol .leftBrace | symbol .rightBrace | symbol .leftBracket | symbol .rightBracket
  | symbol .spread => false
  | _ => true

/-- Every name can stand in an expression. -/
theorem Token.isExpressive_of_name {token : Token} {word : String}
    (h : token.name? = some word) : token.isExpressive = true := by
  cases token with
  | symbol s =>
    cases s
    all_goals first | rfl | cases h
  | eof => cases h
  | _ => rfl

namespace Reader

variable {α β : Type}

/-- A reader passes at least some number of tokens, if the current one is of a kind, and all of them
can stand in expressions. A family of
readers, one for each amount of fuel, gives the same from every excerpt that holds these tokens, and
a number of tokens ahead of them. -/
def Local (kind : Token → Prop) (least ahead due : Nat) (run : Reader α) (again : Nat → Reader α)
    (post : α → Prop) : Prop :=
  ∀ c result c', c.Scanned → kind c.current.token → run c = .ok (result, c') →
    post result ∧ ∃ passed, least ≤ passed ∧ c.Reaches (·.isExpressive = true) passed c' ∧
      ∀ origin final more d fuel, ahead ≤ more → 20 * passed + due ≤ fuel →
        c.Mirrors origin final (passed + more) d →
          ∃ d', again fuel d = .ok (result, d') ∧ c'.Mirrors origin final more d'

/-- A reader gives a result from a text of its own, and reads all of it. -/
def Retells (again : Nat → Reader α) (due : Nat) (result : α) (text : String) : Prop :=
  ∃ d, Cursor.ofSource text = .ok d ∧ ∀ fuel, 20 * d.size + due ≤ fuel →
    ∃ d', again fuel d = .ok (result, d') ∧ d'.current.token = .eof ∧ d'.rest = []

/-- Reads something, and takes down its text. -/
def spanned (run : Reader α) : Reader (α × String) := do
  let start ← position
  let result ← run
  let text ← textFrom start.offset
  return (result, text)

/-- Readers one after another succeed where each does behind the one before it. -/
theorem bind_eq_ok {run : Reader α} {next : α → Reader β} {c c' : Cursor} {result : β} :
    (run >>= next) c = .ok (result, c') ↔
      ∃ first between, run c = .ok (first, between) ∧ next first between = .ok (result, c') := by
  change StateT.bind run next c = _ ↔ _
  unfold StateT.bind
  cases run c with
  | error fault =>
    refine ⟨nofun, ?_⟩
    rintro ⟨_, _, ⟨⟩, _⟩
  | ok found =>
    refine ⟨fun h => ⟨found.1, found.2, rfl, h⟩, ?_⟩
    rintro ⟨_, _, ⟨⟩, h⟩
    exact h

namespace Local

variable {kind : Token → Prop} {least least' ahead ahead' due due' : Nat} {run : Reader α}
  {again : Nat → Reader α} {post : α → Prop}

/-- A reader that is local is so for fewer first tokens, with less that is passed, and with more
that is left or due. -/
theorem mono {kind' : Token → Prop} (h : Local kind least ahead due run again post)
    (hkind : ∀ token, kind' token → kind token) (hleast : least' ≤ least) (hahead : ahead ≤ ahead')
    (hdue : due ≤ due') : Local kind' least' ahead' due' run again post := by
  intro c result c' hc hcurrent hrun
  obtain ⟨hpost, passed, hpassed, hreaches, hagain⟩ := h c result c' hc (hkind _ hcurrent) hrun
  refine ⟨hpost, passed, Nat.le_trans hleast hpassed, hreaches, ?_⟩
  intro origin final more d fuel hmore hfuel
  exact hagain origin final more d fuel (Nat.le_trans hahead hmore) (by omega)

/-- A local reader may be given more fuel. -/
theorem raise (h : Local kind least ahead due run again post) (hdue : due ≤ due') :
    Local kind least ahead due' run again post :=
  h.mono (fun _ => id) (Nat.le_refl _) (Nat.le_refl _) hdue

/-- A local reader need not be said to pass tokens. -/
theorem weaken (h : Local kind least ahead due run again post) :
    Local kind 0 ahead due run again post :=
  h.mono (fun _ => id) (Nat.zero_le _) (Nat.le_refl _) (Nat.le_refl _)

/-- A result is local: it passes nothing. -/
theorem pure {result : α} (h : post result) :
    Local kind 0 ahead due (Pure.pure result) (fun _ => Pure.pure result) post := by
  intro c found c' hc _ hrun
  cases hrun
  refine ⟨h, 0, Nat.le_refl 0, .here, fun origin final more d fuel _ _ hd => ⟨d, rfl, ?_⟩⟩
  rwa [Nat.zero_add] at hd

/-- A reader that only fails is local, as it gives nothing. -/
theorem fail {fault : SyntaxFault} : Local kind least ahead due (Reader.fail fault) again post := by
  intro c found c' _ _ hrun
  cases hrun

/-- One reader after the other. -/
theorem bind {next : α → Reader β} {again' : Nat → α → Reader β} {post' : β → Prop}
    {least₁ least₂ ahead₁ due₁ due₂ : Nat} (hrun : Local kind least₁ ahead₁ due₁ run again post)
    (hnext : ∀ result, post result →
      Local (fun _ => True) least₂ ahead due₂ (next result) (fun fuel => again' fuel result) post')
    (hleast : least ≤ least₁ + least₂) (hahead : ahead₁ ≤ least₂ + ahead)
    (hdue₁ : due₁ ≤ due + 20 * least₂) (hdue₂ : due₂ ≤ due + 20 * least₁) :
    Local kind least ahead due (run >>= next) (fun fuel => again fuel >>= again' fuel) post' := by
  intro c result c' hc hcurrent hboth
  obtain ⟨first, between, hfirst, hsecond⟩ := bind_eq_ok.mp hboth
  obtain ⟨hpost, passed₁, hpassed₁, hreaches₁, hagain₁⟩ := hrun c first between hc hcurrent hfirst
  obtain ⟨hpost', passed₂, hpassed₂, hreaches₂, hagain₂⟩ :=
    hnext first hpost between result c' (hreaches₁.scanned hc) trivial hsecond
  refine ⟨hpost', passed₁ + passed₂, by omega, hreaches₁.trans hreaches₂, ?_⟩
  intro origin final more d fuel hmore hfuel hd
  rw [Nat.add_assoc] at hd
  obtain ⟨d₁, hd₁, hmirrors⟩ :=
    hagain₁ origin final (passed₂ + more) d fuel (by omega) (by omega) hd
  obtain ⟨d', hd', hend⟩ := hagain₂ origin final more d₁ fuel hmore (by omega) hmirrors
  exact ⟨d', bind_eq_ok.mpr ⟨first, d₁, hd₁, hd'⟩, hend⟩

/-- A reader that passes a token, and another one after it. -/
theorem andThen {next : α → Reader β} {again' : Nat → α → Reader β} {post' : β → Prop}
    (hrun : Local kind 1 0 due run again post)
    (hnext : ∀ result, post result → Local (fun _ => True) 0 ahead (due + 20) (next result)
      (fun fuel => again' fuel result) post') :
    Local kind 1 ahead due (run >>= next) (fun fuel => again fuel >>= again' fuel) post' :=
  hrun.bind hnext (Nat.le_refl _) (Nat.zero_le _) (Nat.le_refl _) (Nat.le_refl _)

/-- The current token is looked at. If it is not passed it may stand behind the excerpt, and then
the same has to be done at the end of the text. -/
theorem look {next : Token → Reader β} {again' : Nat → Token → Reader β} {post' : β → Prop}
    (h : ∀ token, kind token →
      Local (· = token) (max 1 least) ahead due (next token) (fun fuel => again' fuel token) post' ∨
        Local (· = token) least ahead due (next token) (fun fuel => again' fuel token) post' ∧
          (0 < ahead ∨ ∀ fuel, again' fuel token = again' fuel .eof)) :
    Local kind least ahead due (Reader.current >>= next)
      (fun fuel => Reader.current >>= again' fuel) post' := by
  intro c result c' hc hcurrent hrun
  have hnext : next c.current.token c = .ok (result, c') := hrun
  have hsame : ∀ {origin final n d fuel}, c.Mirrors origin final (n + 1) d →
      (Reader.current >>= again' fuel) d = again' fuel c.current.token d := by
    intro origin final n d fuel hd
    rw [← hd.token_eq]
    rfl
  rcases h _ hcurrent with hpasses | ⟨hstays, hend⟩
  · obtain ⟨hpost, passed, hpassed, hreaches, hagain⟩ := hpasses c result c' hc rfl hnext
    refine ⟨hpost, passed, by omega, hreaches, ?_⟩
    intro origin final more d fuel hmore hfuel hd
    change ∃ d', (Reader.current >>= again' fuel) d = _ ∧ _
    obtain ⟨n, rfl⟩ : ∃ n, passed = n + 1 := ⟨passed - 1, by omega⟩
    have hcurrent : c.Mirrors origin final (n + more + 1) d := by rwa [Nat.add_right_comm] at hd
    rw [hsame hcurrent]
    exact hagain origin final more d fuel hmore hfuel hd
  · obtain ⟨hpost, passed, hpassed, hreaches, hagain⟩ := hstays c result c' hc rfl hnext
    refine ⟨hpost, passed, hpassed, hreaches, ?_⟩
    intro origin final more d fuel hmore hfuel hd
    have heither : (Reader.current >>= again' fuel) d = again' fuel c.current.token d := by
      cases hn : passed + more with
      | zero =>
        rw [hn] at hd
        rcases hend with hpositive | heof
        · omega
        · rw [heof, ← hd.eof.1]
          rfl
      | succ n =>
        rw [hn] at hd
        exact hsame hd
    change ∃ d', (Reader.current >>= again' fuel) d = _ ∧ _
    rw [heither]
    exact hagain origin final more d fuel hmore hfuel hd

/-- It is looked at and passed by a reader that another one follows. -/
theorem look_bind {read : Token → Reader α} {next : α → Reader β} {again' : Nat → α → Reader β}
    {post' : β → Prop}
    (h : ∀ token, kind token → Local (· = token) (max 1 least) ahead due (read token >>= next)
      (fun fuel => read token >>= again' fuel) post') :
    Local kind least ahead due (Reader.current >>= read >>= next)
      (fun fuel => Reader.current >>= read >>= again' fuel) post' := by
  have hassoc : ∀ next : α → Reader β, Reader.current >>= read >>= next =
      Reader.current >>= fun token => read token >>= next := fun _ => rfl
  simp only [hassoc]
  exact look fun token htoken => .inl (h token htoken)

/-- A reader that asks for a symbol. -/
theorem ifSymbol {symbol : Symbol} {yes no : Reader α} {yes' no' : Nat → Reader α}
    (hyes : Local (· = .symbol symbol) (max 1 least) ahead due yes yes' post ∨
      Local (· = .symbol symbol) least ahead due yes yes' post ∧ 0 < ahead)
    (hno : Local (fun _ => True) least ahead due no no' post) :
    Local kind least ahead due
      (Reader.atSymbol symbol >>= fun found => if found = true then yes else no)
      (fun fuel => Reader.atSymbol symbol >>= fun found =>
        if found = true then yes' fuel else no' fuel) post := by
  let choose (yes no : Reader α) : Token → Reader α := fun token =>
    if decide (token = .symbol symbol) = true then yes else no
  change Local kind least ahead due (Reader.current >>= choose yes no)
    (fun fuel => Reader.current >>= choose (yes' fuel) (no' fuel)) post
  have hsymbol : ∀ {yes no : Reader α}, choose yes no (.symbol symbol) = yes :=
    if_pos (decide_eq_true rfl)
  have hother : ∀ {yes no : Reader α} {token}, token ≠ .symbol symbol →
      choose yes no token = no := fun hne => if_neg (by rwa [decide_eq_true_iff])
  refine look fun token _ => ?_
  by_cases htoken : token = .symbol symbol
  · subst htoken
    simp only [hsymbol]
    exact hyes.imp_right fun h => ⟨h.1, .inl h.2⟩
  · simp only [hother htoken]
    refine .inr ⟨hno.mono (fun _ _ => trivial) (Nat.le_refl _) (Nat.le_refl _) (Nat.le_refl _),
      .inr fun fuel => ?_⟩
    exact (hother (show Token.eof ≠ .symbol symbol from nofun)).symm

section Tokens

variable {token : Token} {value : Literal}

/-- A token that can stand in an expression is passed. -/
theorem advance (hkind : token.isExpressive = true) :
    Local (· = token) 1 0 due Reader.advance (fun _ => Reader.advance) fun _ => True := by
  have hproper : token ≠ .eof := by
    rintro rfl
    cases hkind
  rintro ⟨source, current, rest, previousStop⟩ ⟨⟩ c' hc rfl hrun
  obtain ⟨-, -, place, -, hrest⟩ := hc.standsIn hproper
  cases rest with
  | nil => exact absurd hrest.symm (lexemesFrom_ne_nil _ _)
  | cons next rest =>
    cases next with
    | error fault => cases hrun
    | ok next =>
      cases hrun
      refine ⟨trivial, 1, Nat.le_refl 1, .token hkind hproper rfl .here, ?_⟩
      intro origin final more d fuel _ _ hd
      rw [Nat.add_comm] at hd
      obtain ⟨next', rest', hfound, hnext⟩ := hd.next rfl
      obtain ⟨source', current', _, previousStop'⟩ := d
      cases hfound
      exact ⟨_, rfl, hnext⟩

/-- An expected symbol is passed. -/
theorem expect {symbol : Symbol} (hkind : (Token.symbol symbol).isExpressive = true) :
    Local kind 1 0 due (Reader.expect symbol) (fun _ => Reader.expect symbol) fun _ => True := by
  refine look fun token _ => .inl ?_
  split
  · rename_i hfound
    rw [hfound]
    exact advance hkind
  · exact fail

/-- A name is passed. -/
theorem name : Local kind 1 0 due Reader.name (fun _ => Reader.name) fun _ => True := by
  refine look fun token _ => .inl ?_
  cases hname : token.name? with
  | none => exact fail
  | some word =>
    exact (advance (Token.isExpressive_of_name hname)).andThen fun _ _ => pure trivial

/-- A literal that is found is passed. -/
theorem some_literal {post : Option Literal → Prop} (hkind : token.isExpressive = true)
    (h : post (some value)) :
    Local (· = token) 1 0 due (do Reader.advance; return some value)
      (fun _ => do Reader.advance; return some value) post :=
  (advance hkind).andThen fun _ _ => pure h

/-- Reading an integer as a literal passes one token. -/
theorem some_integer {post : Option Literal → Prop} {negative : Bool} {n : UInt64}
    (h : ∀ value, post (some value)) :
    Local (· = .integer n) 1 0 due
      (do let value ← signedInteger negative n; Reader.advance; return some (.integer value))
      (fun _ => do
        let value ← signedInteger negative n; Reader.advance; return some (.integer value))
      post := by
  unfold signedInteger
  repeat' split
  all_goals first
    | exact some_literal rfl (h _)
    | (intro c found c' _ _ hrun; cases hrun)

/-- A reader that asks for a literal. -/
theorem literal {next : Option Literal → Reader α} {again' : Nat → Option Literal → Reader α}
    (hsome : ∀ value, Local (fun _ => True) 0 ahead (due + 20) (next (some value))
      (fun fuel => again' fuel (some value)) post)
    (hnone : Local kind 1 ahead due (next none) (fun fuel => again' fuel none) post) :
    Local kind 1 ahead due (Reader.literal? >>= next)
      (fun fuel => Reader.literal? >>= again' fuel) post := by
  have hfound : ∀ {token : Token} {run : Reader (Option Literal)},
      Local (· = token) 1 0 due run (fun _ => run) (· ≠ none) →
        Local (· = token) 1 ahead due (run >>= next) (fun fuel => run >>= again' fuel) post := by
    intro token run hrun
    refine hrun.andThen fun found hsome' => ?_
    cases found with
    | none => exact absurd rfl hsome'
    | some value => exact hsome value
  refine look_bind fun token htoken => ?_
  have hother : Local (· = token) 1 ahead due (next none) (fun fuel => again' fuel none) post := by
    refine hnone.mono ?_ (Nat.le_refl _) (Nat.le_refl _) (Nat.le_refl _)
    rintro _ rfl
    exact htoken
  cases token with
  | integer n => exact hfound (some_integer fun _ => nofun)
  | decimal d => exact hfound (some_literal rfl nofun)
  | text s => exact hfound (some_literal rfl nofun)
  | boolean b => exact hfound (some_literal rfl nofun)
  | symbol s =>
    cases s with
    | null => exact hfound (some_literal rfl nofun)
    | _ => exact hother
  | _ => exact hother

/-- A reader that asks for a number behind a minus sign. -/
theorem negated {next : Option Literal → Reader α} {again' : Nat → Option Literal → Reader α}
    (h : ∀ found, Local (fun _ => True) 0 ahead due (next found) (fun fuel => again' fuel found)
      post) :
    Local kind 0 ahead due (Reader.negated? >>= next)
      (fun fuel => Reader.negated? >>= again' fuel) post := by
  have hnegated : Local kind 0 0 0 Reader.negated? (fun _ => Reader.negated?) fun _ => True := by
    refine look fun token _ => ?_
    cases token with
    | integer n => exact .inl (some_integer fun _ => trivial)
    | decimal d => exact .inl (some_literal rfl trivial)
    | _ => exact .inr ⟨pure trivial, .inr fun _ => rfl⟩
  exact hnegated.bind (fun found _ => h found) (Nat.le_refl _) (Nat.zero_le _) (Nat.zero_le _)
    (Nat.le_refl _)

end Tokens

/-- Fuel is needed for the reader itself. -/
theorem succ {body : Nat → Reader α} (h : Local kind least ahead due run body post)
    (hagain : ∀ fuel, again (fuel + 1) = body fuel) :
    Local kind least ahead (due + 1) run again post := by
  intro c result c' hc hcurrent hrun
  obtain ⟨hpost, passed, hpassed, hreaches, hbody⟩ := h c result c' hc hcurrent hrun
  refine ⟨hpost, passed, hpassed, hreaches, ?_⟩
  intro origin final more d fuel hmore hfuel hd
  obtain ⟨fuel, rfl⟩ : ∃ smaller, fuel = smaller + 1 := ⟨fuel - 1, by omega⟩
  rw [hagain]
  exact hbody origin final more d fuel hmore (by omega) hd

end Local

/-- What is read with its text has the text up to the last token that it passes, without blanks
around it. -/
theorem spanned_eq_ok {run : Reader α} {c c' : Cursor} {result : α} {text : String} :
    spanned run c = .ok ((result, text), c') ↔ run c = .ok (result, c') ∧
      String.ofList (Text.trim (stretch c'.source c.current.start.offset c'.previousStop)) =
        text := by
  let takeDown (found : α) : Reader (α × String) := do
    let text ← textFrom c.current.start.offset
    return (found, text)
  change (run >>= takeDown) c = _ ↔ _
  rw [bind_eq_ok]
  constructor
  · rintro ⟨_, _, hrun, ⟨⟩⟩
    exact ⟨hrun, rfl⟩
  · rintro ⟨hrun, rfl⟩
    exact ⟨result, c', hrun, rfl⟩

/-- What is read and taken down is read again from the text that is taken down. -/
theorem Local.spanned {kind : Token → Prop} {least due : Nat} {run : Reader α}
    {again : Nat → Reader α} {post : α → Prop} (h : Local kind (least + 1) 0 due run again post) :
    Local kind (least + 1) 0 due (Reader.spanned run) (fun fuel => Reader.spanned (again fuel))
      fun found => post found.1 ∧ Retells again due found.1 found.2 := by
  rintro c ⟨result, text⟩ c' hc hcurrent hspanned
  obtain ⟨hrun, rfl⟩ := spanned_eq_ok.mp hspanned
  obtain ⟨hpost, passed, hpassed, hreaches, hagain⟩ := h c result c' hc hcurrent hrun
  obtain ⟨n, rfl⟩ : ∃ n, passed = n + 1 := ⟨passed - 1, by omega⟩
  obtain ⟨htrim, hstart, d, hd, hmirrors⟩ := hreaches.excerpt hc
  rw [hreaches.source_eq, htrim]
  refine ⟨⟨hpost, d, hd, fun fuel hfuel => ?_⟩, n + 1, hpassed, hreaches, ?_⟩
  · rw [hmirrors.size] at hfuel
    obtain ⟨d', hd', hend⟩ := hagain _ _ 0 d fuel (Nat.le_refl 0) (by omega) hmirrors
    exact ⟨d', hd', hend.eof⟩
  · intro origin final more d fuel hmore hfuel hd
    obtain ⟨d', hd', hend⟩ := hagain origin final more d fuel hmore hfuel hd
    rw [Nat.add_right_comm] at hd
    rw [hd.start_eq] at hstart htrim ⊢
    refine ⟨d', spanned_eq_ok.mpr ⟨hd', ?_⟩, hend⟩
    rw [hend.stretch_eq hstart, hreaches.source_eq, htrim]

/-- A reader that takes down the text of what it reads, and goes on with both. -/
theorem Local.quoted {kind : Token → Prop} {ahead due : Nat} {run : Reader α}
    {again : Nat → Reader α} {post : α → Prop} {next : α → String → Reader β}
    {again' : Nat → α → String → Reader β} {post' : β → Prop}
    (h : Local kind 1 0 due run again post)
    (hnext : ∀ result text, post result → Retells again due result text →
      Local (fun _ => True) 0 ahead (due + 20) (next result text)
        (fun fuel => again' fuel result text) post') :
    Local kind 1 ahead due
      (do
        let start ← position
        let result ← run
        let text ← textFrom start.offset
        next result text)
      (fun fuel => do
        let start ← position
        let result ← again fuel
        let text ← textFrom start.offset
        again' fuel result text) post' := by
  have hboth : Local kind 1 ahead due (Reader.spanned run >>= fun found => next found.1 found.2)
      (fun fuel => Reader.spanned (again fuel) >>= fun found => again' fuel found.1 found.2)
      post' :=
    h.spanned.andThen fun found hfound => hnext found.1 found.2 hfound.1 hfound.2
  unfold Reader.spanned at hboth
  simp only [bind_assoc, pure_bind] at hboth
  exact hboth

end Reader

end TypedQuery
