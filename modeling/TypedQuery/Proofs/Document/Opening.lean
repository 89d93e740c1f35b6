import TypedQuery.Check
import TypedQuery.Proofs.Document.Readable
import TypedQuery.Proofs.Expr.Locality

/-!
# How documents open

Readers never turn back: what is ahead of them was ahead before. So every document holds the brace
of the selections that its first definition ends with, and the tokens in front of it are the word of
this definition and, behind the word, a name, a parenthesis or the brace itself.
-/

namespace TypedQuery

namespace Reader

variable {α β : Type}

/-- What is ahead after a reader was ahead before it. -/
def Forward (run : Reader α) : Prop :=
  ∀ c result c', run c = .ok (result, c') →
    ∀ lexeme, Except.ok lexeme ∈ Except.ok c'.current :: c'.rest →
      Except.ok lexeme ∈ Except.ok c.current :: c.rest

namespace Forward

/-- A finished reader stays where it is. -/
theorem pure (result : α) : Forward (Pure.pure result) := by
  intro c found c' hrun lexeme hlexeme
  cases hrun
  exact hlexeme

/-- A reader that only fails does not turn back. -/
theorem fail (fault : SyntaxFault) : Forward (Reader.fail fault : Reader α) := by
  intro c found c' hrun
  cases hrun

/-- Readers one after another do not turn back if neither does. -/
theorem bind {run : Reader α} {next : α → Reader β} (hrun : run.Forward)
    (hnext : ∀ result, (next result).Forward) : (run >>= next).Forward := by
  intro c result c' hboth lexeme hlexeme
  obtain ⟨first, between, hfirst, hsecond⟩ := bind_eq_ok.mp hboth
  exact hrun c first between hfirst lexeme (hnext first between result c' hsecond lexeme hlexeme)

/-- Looking at the current token does not turn back. -/
theorem current : Reader.current.Forward := by
  intro c result c' hrun lexeme hlexeme
  cases hrun
  exact hlexeme

/-- Stepping over a token does not turn back. -/
theorem advance : Reader.advance.Forward := by
  rintro ⟨source, first, rest, stop⟩ result c' hrun lexeme hlexeme
  cases rest with
  | nil =>
    cases hrun
    exact hlexeme
  | cons next rest =>
    cases next with
    | error fault => cases hrun
    | ok next =>
      cases hrun
      exact List.mem_cons_of_mem _ hlexeme

/-- Asking for a token does not turn back. -/
theorem atToken (token : Token) : (Reader.atToken token).Forward :=
  current.bind fun _ => pure _

/-- Asking for a symbol does not turn back. -/
theorem atSymbol (symbol : Symbol) : (Reader.atSymbol symbol).Forward :=
  atToken _

/-- Stepping over an expected symbol does not turn back. -/
theorem expect (symbol : Symbol) : (Reader.expect symbol).Forward := by
  refine current.bind fun found => ?_
  split
  · exact advance
  · exact fail _

/-- The reader of names does not turn back. -/
theorem name : Reader.name.Forward := by
  refine current.bind fun found => ?_
  split
  · exact advance.bind fun _ => pure _
  · exact fail _

/-- The range of an integer is checked without turning back. -/
theorem signedInteger (negative : Bool) (n : UInt64) :
    (Reader.signedInteger negative n).Forward := by
  unfold Reader.signedInteger
  split
  · split
    · exact pure _
    · exact fail _
  · split
    · exact pure _
    · exact fail _

/-- The reader of literals does not turn back. -/
theorem literal : Reader.literal?.Forward := by
  unfold Reader.literal?
  refine current.bind fun token => ?_
  cases token with
  | integer n => exact (signedInteger _ _).bind fun _ => advance.bind fun _ => pure _
  | decimal d => exact advance.bind fun _ => pure _
  | text s => exact advance.bind fun _ => pure _
  | boolean b => exact advance.bind fun _ => pure _
  | symbol s =>
    cases s with
    | null => exact advance.bind fun _ => pure _
    | _ => exact pure _
  | _ => exact pure _

/-- The reader of negated numbers does not turn back. -/
theorem negated : Reader.negated?.Forward := by
  unfold Reader.negated?
  refine current.bind fun token => ?_
  cases token with
  | integer n => exact (signedInteger _ _).bind fun _ => advance.bind fun _ => pure _
  | decimal d => exact advance.bind fun _ => pure _
  | _ => exact pure _

end Forward

end Reader

namespace Document

open Reader VariableDefinition Operation

/-- Commas are skipped without turning back. -/
theorem forward_skipCommas (fuel : Nat) : (skipCommas fuel).Forward := by
  induction fuel with
  | zero => exact Forward.fail _
  | succ fuel ih =>
    unfold skipCommas
    refine (Forward.atSymbol _).bind fun found => ?_
    split
    · exact Forward.advance.bind fun _ => ih
    · exact Forward.pure _

/-- With some fuel, the readers of arguments do not turn back. -/
structure ArgumentsForward (fuel : Nat) : Prop where
  argument : (readArgument fuel).Forward
  items : (readItems fuel).Forward
  members : ∀ close, (readMembers close fuel).Forward

namespace ArgumentsForward

variable {fuel : Nat}

/-- Without fuel nothing is read. -/
theorem zero : ArgumentsForward 0 where
  argument := by
    unfold readArgument
    exact Forward.fail _
  items := by
    unfold readItems
    exact Forward.fail _
  members close := by
    unfold readMembers
    exact Forward.fail _

/-- The reader of an argument goes forward if the readers with less fuel do. -/
theorem argument_succ (h : ArgumentsForward fuel) : (readArgument (fuel + 1)).Forward := by
  unfold readArgument
  refine Forward.literal.bind fun found => ?_
  split
  · exact Forward.pure _
  · refine Forward.current.bind fun token => ?_
    split
    · exact Forward.advance.bind fun _ => Forward.pure _
    · refine Forward.advance.bind fun _ => Forward.negated.bind fun found => ?_
      split
      · exact Forward.pure _
      · exact Forward.fail _
    · exact Forward.advance.bind fun _ => Forward.pure _
    · exact Forward.advance.bind fun _ => h.items.bind fun _ =>
        (Forward.expect _).bind fun _ => Forward.pure _
    · exact Forward.advance.bind fun _ => (h.members _).bind fun _ =>
        (Forward.expect _).bind fun _ => Forward.pure _
    · exact Forward.fail _

/-- The reader of items goes forward if the readers with less fuel do. -/
theorem items_succ (h : ArgumentsForward fuel) : (readItems (fuel + 1)).Forward := by
  unfold readItems
  refine (Forward.atSymbol _).bind fun found => ?_
  split
  · exact Forward.pure _
  · exact h.argument.bind fun _ => (forward_skipCommas fuel).bind fun _ =>
      h.items.bind fun _ => Forward.pure _

/-- The reader of members goes forward if the readers with less fuel do. -/
theorem members_succ (h : ArgumentsForward fuel) (close : Symbol) :
    (readMembers close (fuel + 1)).Forward := by
  unfold readMembers
  refine (Forward.atSymbol _).bind fun found => ?_
  split
  · exact Forward.pure _
  · exact Forward.name.bind fun _ => (Forward.expect _).bind fun _ =>
      h.argument.bind fun _ => (forward_skipCommas fuel).bind fun _ =>
        (h.members close).bind fun _ => Forward.pure _

end ArgumentsForward

/-- With any fuel, the readers of arguments do not turn back. -/
theorem argumentsForward (fuel : Nat) : ArgumentsForward fuel := by
  induction fuel with
  | zero => exact .zero
  | succ fuel ih => exact ⟨ih.argument_succ, ih.items_succ, ih.members_succ⟩

/-- The reader of type names does not turn back. -/
theorem forward_readTypeName (fuel : Nat) : (readTypeName fuel).Forward := by
  induction fuel with
  | zero =>
    unfold readTypeName
    exact Forward.fail _
  | succ fuel ih =>
    have hmark : ∀ base, (TypeName.readMark base).Forward := by
      intro base
      unfold TypeName.readMark
      refine (Forward.atSymbol _).bind fun found => ?_
      split
      · exact Forward.advance.bind fun _ => Forward.pure _
      · exact Forward.pure _
    rw [TypeName.readTypeName_succ]
    refine (Forward.atSymbol _).bind fun found => ?_
    split
    · exact Forward.advance.bind fun _ => ih.bind fun _ => (Forward.expect _).bind fun _ => hmark _
    · exact Forward.name.bind fun _ => hmark _

/-- The reader of variables does not turn back. -/
theorem forward_readVariables (fuel : Nat) : (readVariables fuel).Forward := by
  induction fuel with
  | zero =>
    unfold readVariables
    exact Forward.fail _
  | succ fuel ih =>
    have hrest : ∀ name typeName default?, (readRest fuel name typeName default?).Forward := by
      intro name typeName default?
      unfold readRest
      exact (forward_skipCommas fuel).bind fun _ => ih.bind fun _ => Forward.pure _
    rw [readVariables_succ]
    refine Forward.current.bind fun token => ?_
    split
    · exact Forward.pure _
    · refine Forward.advance.bind fun _ => (Forward.expect _).bind fun _ =>
        (forward_readTypeName fuel).bind fun _ => (Forward.atSymbol _).bind fun found => ?_
      split
      · exact Forward.advance.bind fun _ => (argumentsForward fuel).argument.bind fun _ =>
          hrest _ _ _
      · exact hrest _ _ _
    · exact Forward.fail _

/-! ### Braces -/

/-- A reader meets a brace that opens selections. -/
def Braced {α : Type} (run : Reader α) : Prop :=
  ∀ c result c', run c = .ok (result, c') →
    ∃ lexeme, Except.ok lexeme ∈ Except.ok c.current :: c.rest ∧ lexeme.token = .symbol .leftBrace

namespace Braced

variable {α β : Type} {run : Reader α} {next : α → Reader β}

/-- A reader that only fails gives nothing, so that no brace is asked of it. -/
theorem fail (fault : SyntaxFault) : Braced (Reader.fail fault : Reader α) := by
  intro c result c' hrun
  cases hrun

/-- A reader that meets a brace meets it whatever follows. -/
theorem bind (h : Braced run) : Braced (run >>= next) := by
  intro c result c' hboth
  obtain ⟨first, between, hfirst, -⟩ := bind_eq_ok.mp hboth
  exact h c first between hfirst

/-- A brace is met behind what is read first. -/
theorem after (hrun : run.Forward) (h : ∀ result, Braced (next result)) :
    Braced (run >>= next) := by
  intro c result c' hboth
  obtain ⟨first, between, hfirst, hsecond⟩ := bind_eq_ok.mp hboth
  obtain ⟨lexeme, hlexeme, hbrace⟩ := h first between result c' hsecond
  exact ⟨lexeme, hrun c first between hfirst lexeme hlexeme, hbrace⟩

/-- The reader that expects a brace meets one. -/
theorem expect : Braced (Reader.expect .leftBrace) := by
  intro c result c' hrun
  change (if c.current.token = .symbol .leftBrace then Reader.advance
    else Reader.fail (.expected (.symbol .leftBrace) c.current.token)) c = _ at hrun
  split at hrun
  · exact ⟨c.current, List.mem_cons_self, ‹_›⟩
  · cases hrun

/-- The reader of selections meets the brace that opens them. -/
theorem selections (fuel : Nat) : Braced (readSelectionSet fuel) := by
  cases fuel with
  | zero =>
    unfold readSelectionSet
    exact fail _
  | succ fuel =>
    unfold readSelectionSet
    exact expect.bind

/-- The reader of an operation meets the brace of its selections. -/
theorem operation (fuel : Nat) (kind : OperationKind) : Braced (readOperation fuel kind) := by
  have hbody : ∀ name? vars, Braced (readBody fuel kind name? vars) :=
    fun _ _ => (selections fuel).bind
  have hheader : ∀ name?, Braced (readHeader fuel kind name?) := by
    intro name?
    unfold readHeader
    refine after (Forward.atSymbol _) fun found => ?_
    split
    · exact after Forward.advance fun _ => after (forward_readVariables fuel) fun _ =>
        after (Forward.expect _) fun _ => hbody _ _
    · exact hbody _ _
  rw [readOperation_eq]
  refine after (Forward.atSymbol _) fun _ => after (Forward.atSymbol _) fun _ => ?_
  split
  · exact hheader _
  · exact after Forward.name fun _ => hheader _

/-- The reader of a fragment meets the brace of its selections. -/
theorem fragment (fuel : Nat) : Braced (readFragment fuel) := by
  unfold readFragment
  refine after Forward.name fun _ => after Forward.current fun found => ?_
  split
  · exact after Forward.advance fun _ => after Forward.name fun _ => (selections fuel).bind
  · exact fail _

end Braced

/-! ### Definitions -/

/-- The token can stand behind the word of a definition. -/
def Follows (token : Token) : Prop :=
  token = .symbol .leftBrace ∨ token = .symbol .leftParen ∨ token.name?.isSome = true

/-- At the first token of a document: a brace, or the word of a definition and a token that can
stand behind it. -/
inductive Opens (c : Cursor) : Prop
  | brace (token : c.current.token = .symbol .leftBrace)
  | word {word : String} {next : Lexeme} {rest : List (Except ScanError Lexeme)}
      (known : word ∈ definitionWords) (token : c.current.token = .identifier word)
      (ahead : c.rest = .ok next :: rest) (opens : Follows next.token)

/-- A name is read from a token that is a name. -/
theorem name_isSome {c c' : Cursor} {word : String} (h : Reader.name c = .ok (word, c')) :
    c.current.token.name?.isSome = true := by
  obtain ⟨found, between, hcurrent, hfound⟩ := bind_eq_ok.mp h
  cases hcurrent
  cases hname : c.current.token.name? with
  | none =>
    rw [hname] at hfound
    cases hfound
  | some word => rfl

/-- An operation is read from a token that can stand behind its word. -/
theorem follows_of_readOperation {fuel : Nat} {kind : OperationKind} {c c' : Cursor}
    {operation : Operation} (h : readOperation fuel kind c = .ok (operation, c')) :
    Follows c.current.token := by
  rw [readOperation_eq] at h
  obtain ⟨_, _, ⟨⟩, hparen⟩ := bind_eq_ok.mp h
  obtain ⟨_, _, ⟨⟩, hrest⟩ := bind_eq_ok.mp hparen
  split at hrest
  · rename_i hopens
    rw [Bool.or_eq_true, decide_eq_true_iff, decide_eq_true_iff] at hopens
    exact hopens.imp_right .inl
  · obtain ⟨word, between, hname, -⟩ := bind_eq_ok.mp hrest
    exact .inr (.inr (name_isSome hname))

/-- A fragment is read from a token that can stand behind its word. -/
theorem follows_of_readFragment {fuel : Nat} {c c' : Cursor} {fragment : Fragment}
    (h : readFragment fuel c = .ok (fragment, c')) : Follows c.current.token := by
  unfold readFragment at h
  obtain ⟨word, between, hname, -⟩ := bind_eq_ok.mp h
  exact .inr (.inr (name_isSome hname))

/-- Something is found behind a word, the end of the text if nothing else. -/
theorem rest_of_advance {c c' : Cursor} (hc : c.Scanned) (hproper : c.current.token ≠ .eof)
    {result : Unit} (h : Reader.advance c = .ok (result, c')) :
    c.rest = .ok c'.current :: c'.rest := by
  obtain ⟨-, -, place, -, hrest⟩ := hc.standsIn hproper
  obtain ⟨source, current, rest, stop⟩ := c
  cases rest with
  | nil => exact absurd hrest.symm (lexemesFrom_ne_nil _ _)
  | cons next rest =>
    cases next with
    | error fault => cases h
    | ok next =>
      cases h
      rfl

/-- A word is passed, and then what belongs to its definition is read. -/
theorem opens_of_word {α : Type} {run : Reader α} {c c' : Cursor} {word : String} {result : α}
    (hc : c.Scanned) (hword : word ∈ definitionWords) (htoken : c.current.token = .identifier word)
    (hfollows : ∀ {c c' result}, run c = .ok (result, c') → Follows c.current.token)
    (hbraced : Braced run) (h : (Reader.advance >>= fun _ => run) c = .ok (result, c')) :
    Opens c ∧ ∃ lexeme, Except.ok lexeme ∈ Except.ok c.current :: c.rest ∧
      lexeme.token = .symbol .leftBrace := by
  have hproper : c.current.token ≠ .eof := by
    rw [htoken]
    exact nofun
  obtain ⟨_, between, hadvance, hrun⟩ := bind_eq_ok.mp h
  have hrest := rest_of_advance hc hproper hadvance
  exact ⟨.word hword htoken hrest (hfollows hrun),
    Braced.after Forward.advance (fun _ => hbraced) c result c' h⟩

/-- A document opens with a definition, and it holds a brace. -/
theorem opens_of_read {source : String} {document : Document} (h : read source = .ok document) :
    ∃ c, Cursor.ofSource source = .ok c ∧ Opens c ∧
      ∃ lexeme, Except.ok lexeme ∈ lexemes source ∧ lexeme.token = .symbol .leftBrace := by
  obtain ⟨c, last, hc, hwhole⟩ := read_eq_ok.mp h
  rw [readWhole_eq] at hwhole
  obtain ⟨found, between, hread, hlast⟩ := bind_eq_ok.mp hwhole
  rw [(Cursor.lexemes_of_ofSource hc).1]
  have hscanned := Cursor.scanned_ofSource hc
  refine ⟨c, hc, ?_⟩
  cases hfuel : fuelFor c.size with
  | zero =>
    rw [hfuel, readDefinitions] at hread
    cases hread
  | succ fuel =>
    rw [hfuel, readDefinitions] at hread
    obtain ⟨token, _, hcurrent, hdefinition⟩ := bind_eq_ok.mp hread
    cases hcurrent
    cases htoken : c.current.token with
    | eof =>
      rw [htoken] at hdefinition
      cases hdefinition
      cases hlast
    | symbol s =>
      rw [htoken] at hdefinition
      cases s with
      | leftBrace => exact ⟨.brace htoken, c.current, List.mem_cons_self, htoken⟩
      | _ => cases hdefinition
    | identifier word =>
      rw [htoken] at hdefinition
      dsimp only at hdefinition
      split at hdefinition
      · rename_i hword
        rw [Bool.or_eq_true, decide_eq_true_iff, decide_eq_true_iff] at hword
        refine opens_of_word hscanned ?_ htoken (fun hrun => ?_) (Braced.operation _ _).bind
          hdefinition
        · rcases hword with rfl | rfl
          all_goals decide
        · obtain ⟨operation, _, hoperation, -⟩ := bind_eq_ok.mp hrun
          exact follows_of_readOperation hoperation
      · split at hdefinition
        · rename_i hword
          refine opens_of_word hscanned ?_ htoken (fun hrun => ?_) (Braced.fragment _).bind
            hdefinition
          · rw [hword]
            decide
          · obtain ⟨fragment, _, hfragment, -⟩ := bind_eq_ok.mp hrun
            exact follows_of_readFragment hfragment
        · cases hdefinition
    | _ =>
      rw [htoken] at hdefinition
      cases hdefinition

end Document

end TypedQuery
