import TypedQuery.Proofs.Expr.Descent

/-!
# Written expressions are read back

The tokens of an expression are read back as this expression, but for the source texts of its
tests. Each kind of expression is read where its own binding is due, and in parentheses where a
tighter one is due.
-/

namespace TypedQuery.Expr

open Reader

namespace Reads

variable {bound fuel : Nat} {due : Tightness} {tokens rest : List Token} {next : Token}
  {expr : Expr}

/-- The reader of paths starts with a literal, a name or parentheses. -/
theorem of_primary {token : Token}
    (hsign : token ≠ .symbol .not ∧ token ≠ .symbol .bang ∧ token ≠ .symbol .minus)
    (hprimary : ∀ (fuel : Nat) (next : Token) (rest : List Token),
      20 * (tokens.length + 1) < fuel → next.Free bound → next.Free 10 →
      (readPrimary fuel).Passes (token :: (tokens ++ next :: rest)) (next :: rest) (Same expr)) :
    Reads bound .path (token :: tokens) expr := by
  intro fuel next rest after post hfuel hbound hnext hresume
  rw [List.length_cons] at hfuel hresume
  change _ ≤ fuel + 2 * 9 at hfuel
  obtain ⟨fuel, rfl⟩ : ∃ less, fuel = less + 1 := ⟨fuel - 1, by omega⟩
  change (readSigned (fuel + 1)).Passes (token :: (tokens ++ next :: rest)) _ _
  unfold readSigned
  refine Passes.current ?_
  split
  · exact absurd rfl hsign.1
  · exact absurd rfl hsign.2.1
  · exact absurd rfl hsign.2.2
  · exact (hprimary fuel next rest (by omega) hbound hnext).bind fun found hsame =>
      hresume fuel found (by omega) hsame

/-- A literal without a sign is read from its token. -/
theorem literal {value : Literal} (hsign : value.isNegative = false) :
    Reads bound .path [value.token] (.literal value) := by
  refine of_primary ?_ fun fuel next rest hfuel _ _ => ?_
  · cases value <;> exact ⟨nofun, nofun, nofun⟩
  · obtain ⟨fuel, rfl⟩ : ∃ less, fuel = less + 1 := ⟨fuel - 1, by omega⟩
    unfold readPrimary
    exact Passes.literal hsign (List.cons_ne_nil _ _) (Passes.pure rfl)

/-- A variable is read from its token. -/
theorem var {name : String} : Reads bound .path [.var name] (.var name) := by
  refine of_primary ⟨nofun, nofun, nofun⟩ fun fuel next rest hfuel _ _ => ?_
  obtain ⟨fuel, rfl⟩ : ∃ less, fuel = less + 1 := ⟨fuel - 1, by omega⟩
  unfold readPrimary
  refine Passes.not_literal rfl (Passes.current ?_)
  exact Passes.advance (List.cons_ne_nil _ _) (Passes.pure rfl)

/-- A name is read from its token. -/
theorem identifier {name : String} : Reads bound .path [.identifier name] (.identifier name) := by
  refine of_primary ⟨nofun, nofun, nofun⟩ fun fuel next rest hfuel _ hnext => ?_
  have hparen : next ≠ .symbol .leftParen := hnext.ne_of_joint rfl (Nat.le_refl 10)
  obtain ⟨fuel, rfl⟩ : ∃ less, fuel = less + 1 := ⟨fuel - 1, by omega⟩
  unfold readPrimary
  refine Passes.not_literal rfl (Passes.current (Passes.advance (List.cons_ne_nil _ _) ?_))
  refine Passes.not_atSymbol hparen ?_
  exact Passes.pure rfl

/-- An expression in parentheses. -/
theorem parentheses (h : Reads bound .any tokens expr) :
    Reads bound .path (.symbol .leftParen :: (tokens ++ [.symbol .rightParen])) expr := by
  refine of_primary ⟨nofun, nofun, nofun⟩ fun fuel next rest hfuel _ _ => ?_
  rw [List.length_append, List.length_singleton] at hfuel
  obtain ⟨fuel, rfl⟩ : ∃ less, fuel = less + 1 := ⟨fuel - 1, by omega⟩
  have hinner : (readAny fuel).Passes (tokens ++ .symbol .rightParen :: next :: rest)
      (.symbol .rightParen :: next :: rest) (Same expr) :=
    h.passes (by change _ ≤ fuel + 2 * 0; omega) (.of_none rfl) (.of_none rfl)
  rw [List.append_assoc, List.singleton_append]
  unfold readPrimary
  refine Passes.not_literal rfl (Passes.current (Passes.advance (by simp) ?_))
  refine hinner.bind fun found hsame => ?_
  exact Passes.expect (List.cons_ne_nil _ _) (Passes.pure hsame)

/-- An expression can be read where a tighter one is due, for it stands in parentheses there. -/
theorem enclosed (h : Reads bound expr.tightness tokens expr) (due : Tightness) :
    Reads bound due (expr.enclosed due tokens) expr := by
  unfold Expr.enclosed
  split
  · exact (parentheses (h.of_le (Nat.zero_le _))).of_le due.rank_le
  · exact h.of_le (by omega)

/-- A sign that goes on at a rank is free above it. -/
theorem free_sign {symbol : Symbol} {rank : Nat} (h : (Token.symbol symbol).joint? = some rank)
    (hlt : rank < bound) : (Token.symbol symbol).Free bound := by
  intro other hother
  rw [h] at hother
  cases hother
  exact hlt

/-- A path is read from the tokens of the object, a point and a name. -/
theorem access {object : Expr} {name : String} (h : Reads 10 .path tokens object) :
    Reads 10 .path (tokens ++ [.symbol .dot, .ofWord name]) (.access object name) := by
  intro fuel next rest after post hfuel _ hnext hresume
  rw [List.length_append, List.length_cons, List.length_singleton] at hfuel hresume
  change _ ≤ fuel + 2 * 9 at hfuel
  have hparen : next ≠ .symbol .leftParen := hnext.ne_of_joint rfl (Nat.le_refl 10)
  have hdot : (Token.symbol .dot).Free 10 := free_sign rfl (by decide)
  rw [List.append_assoc]
  refine h fuel _ _ after post (by change _ ≤ fuel + 2 * 9; omega) hdot hdot
    fun fuel' found hleft hsame => ?_
  obtain ⟨fuel', rfl⟩ : ∃ less, fuel' = less + 1 := ⟨fuel' - 1, by omega⟩
  change (readPath (fuel' + 1) found).Passes _ _ _
  unfold readPath
  refine Passes.atSymbol ?_
  refine Passes.advance (List.cons_ne_nil _ _) ?_
  refine Passes.name (Token.name_ofWord name) (List.cons_ne_nil _ _) ?_
  refine Passes.not_atSymbol hparen ?_
  refine hresume fuel' _ (by omega) ?_
  unfold Same at hsame ⊢
  rw [bare, bare, hsame]

/-- The arguments are the same, but for the source texts of their tests. -/
def SameItems (items others : List Expr) : Prop :=
  bareItems others = bareItems items

/-- Arguments are the same one by one. -/
theorem SameItems.cons {item other : Expr} {items others : List Expr} (hitem : Same item other)
    (hitems : SameItems items others) : SameItems (item :: items) (other :: others) := by
  unfold Same at hitem
  unfold SameItems at hitems ⊢
  rw [bareItems, bareItems, hitem, hitems]

/-- Arguments are read up to the closing parenthesis. -/
theorem passes_items {items : List Expr} {style : Style}
    (h : ∀ item ∈ items, ∀ style, Reads 10 .any (item.tokens style) item)
    (hopen : ∀ item ∈ items, ∀ style, Opens (item.tokens style))
    (hfuel : 20 * (itemTokens style items).length + 21 ≤ fuel) :
    (readItems fuel).Passes (itemTokens style items ++ .symbol .rightParen :: rest)
      (.symbol .rightParen :: rest) (SameItems items) := by
  induction items generalizing style fuel with
  | nil =>
    obtain ⟨fuel, rfl⟩ : ∃ less, fuel = less + 1 := ⟨fuel - 1, by omega⟩
    unfold readItems
    refine Passes.atSymbol ?_
    exact Passes.pure rfl
  | cons item others ih =>
    have hitem := h item List.mem_cons_self (style.part 0)
    have hfirst := hopen item List.mem_cons_self (style.part 0)
    obtain ⟨fuel, rfl⟩ : ∃ less, fuel = less + 1 := ⟨fuel - 1, by omega⟩
    -- a comma follows every item but the last
    cases others with
    | nil =>
      rw [itemTokens] at hfuel ⊢
      have hread : (readAny fuel).Passes (item.tokens (style.part 0) ++ .symbol .rightParen :: rest)
          (.symbol .rightParen :: rest) (Same item) :=
        hitem.passes (by change _ ≤ fuel + 2 * 0; omega) (.of_none rfl) (.of_none rfl)
      unfold readItems
      refine hfirst.not_closed ?_
      refine hread.bind fun found hsame => Passes.atSymbol ?_
      exact Passes.pure (SameItems.cons hsame rfl)
    | cons second more =>
      have htokens : itemTokens style (item :: second :: more) =
          item.tokens (style.part 0) ++
            .symbol .comma :: itemTokens (style.part 1) (second :: more) := by
        rw [itemTokens]
        simp
      rw [htokens, List.length_append, List.length_cons] at hfuel
      rw [htokens, List.append_assoc, List.cons_append]
      have hread : (readAny fuel).Passes
          (item.tokens (style.part 0) ++ .symbol .comma ::
            (itemTokens (style.part 1) (second :: more) ++ .symbol .rightParen :: rest))
          (.symbol .comma ::
            (itemTokens (style.part 1) (second :: more) ++ .symbol .rightParen :: rest))
          (Same item) :=
        hitem.passes (by change _ ≤ fuel + 2 * 0; omega) (.of_none rfl) (.of_none rfl)
      unfold readItems
      refine hfirst.not_closed ?_
      refine hread.bind fun found hsame => Passes.not_atSymbol (by simp) ?_
      refine Passes.expect (by simp) ?_
      refine Passes.bind (ih (fun other hother => h other (List.mem_cons_of_mem _ hother))
        (fun other hother => hopen other (List.mem_cons_of_mem _ hother)) (by omega))
        fun founds hsames => ?_
      exact Passes.pure (SameItems.cons hsame hsames)

/-- Arguments in parentheses are read. -/
theorem passes_arguments {items : List Expr} {style : Style}
    (h : ∀ item ∈ items, ∀ style, Reads 10 .any (item.tokens style) item)
    (hopen : ∀ item ∈ items, ∀ style, Opens (item.tokens style)) (hrest : rest ≠ [])
    (hfuel : 20 * (itemTokens style items).length + 22 ≤ fuel) :
    (readArguments fuel).Passes
      (.symbol .leftParen :: (itemTokens style items ++ .symbol .rightParen :: rest)) rest
      (SameItems items) := by
  obtain ⟨fuel, rfl⟩ : ∃ less, fuel = less + 1 := ⟨fuel - 1, by omega⟩
  unfold readArguments
  refine Passes.expect (by simp) ?_
  refine (passes_items h hopen (by omega)).bind fun founds hsames => ?_
  exact Passes.expect hrest (Passes.pure hsames)

/-- A call is read from its name and the tokens of its arguments. -/
theorem invoke {method : String} {items : List Expr} {style : Style}
    (h : ∀ item ∈ items, ∀ style, Reads 10 .any (item.tokens style) item)
    (hopen : ∀ item ∈ items, ∀ style, Opens (item.tokens style)) :
    Reads bound .path (.identifier method :: .symbol .leftParen ::
      (itemTokens style items ++ [.symbol .rightParen])) (.invoke method items) := by
  refine of_primary ⟨nofun, nofun, nofun⟩ fun fuel next rest hfuel _ _ => ?_
  rw [List.length_cons, List.length_append, List.length_singleton] at hfuel
  obtain ⟨fuel, rfl⟩ : ∃ less, fuel = less + 1 := ⟨fuel - 1, by omega⟩
  rw [List.cons_append, List.append_assoc, List.singleton_append]
  unfold readPrimary
  refine Passes.not_literal rfl (Passes.current (Passes.advance (List.cons_ne_nil _ _) ?_))
  refine Passes.atSymbol ?_
  refine (passes_arguments h hopen (List.cons_ne_nil _ _) (by omega)).bind fun founds hsames => ?_
  refine Passes.pure ?_
  unfold SameItems at hsames
  unfold Same
  rw [bare, bare, hsames]

/-- A method call is read from the tokens of the receiver, a point, its name and the tokens of its
arguments. -/
theorem call {receiver : Expr} {method : String} {items : List Expr} {style : Style}
    (hreceiver : Reads 10 .path tokens receiver)
    (h : ∀ item ∈ items, ∀ style, Reads 10 .any (item.tokens style) item)
    (hopen : ∀ item ∈ items, ∀ style, Opens (item.tokens style)) :
    Reads 10 .path (tokens ++ .symbol .dot :: .ofWord method :: .symbol .leftParen ::
      (itemTokens style items ++ [.symbol .rightParen])) (.call receiver method items) := by
  intro fuel next rest after post hfuel _ hnext hresume
  rw [List.length_append, List.length_cons, List.length_cons, List.length_cons, List.length_append,
    List.length_singleton] at hfuel hresume
  change _ ≤ fuel + 2 * 9 at hfuel
  have hdot : (Token.symbol .dot).Free 10 := free_sign rfl (by decide)
  rw [List.append_assoc, List.cons_append, List.cons_append, List.cons_append, List.append_assoc,
    List.singleton_append]
  refine hreceiver fuel _ _ after post (by change _ ≤ fuel + 2 * 9; omega) hdot hdot
    fun fuel' found hleft hsame => ?_
  obtain ⟨fuel', rfl⟩ : ∃ less, fuel' = less + 1 := ⟨fuel' - 1, by omega⟩
  change (readPath (fuel' + 1) found).Passes _ _ _
  unfold readPath
  refine Passes.atSymbol ?_
  refine Passes.advance (List.cons_ne_nil _ _) ?_
  refine Passes.name (Token.name_ofWord method) (List.cons_ne_nil _ _) ?_
  refine Passes.atSymbol ?_
  refine (passes_arguments h hopen (List.cons_ne_nil _ _) (by omega)).bind fun founds hsames => ?_
  refine hresume fuel' _ (by omega) ?_
  unfold SameItems at hsames
  unfold Same at hsame ⊢
  rw [bare, bare, hsame, hsames]

/-- A negation is read from its sign and the tokens of the operand. -/
theorem negation {operand : Expr} {symbol : Symbol} (hsymbol : symbol = .not ∨ symbol = .bang)
    (h : Reads bound .signed tokens operand) :
    Reads bound .signed (.symbol symbol :: tokens) operand.negation := by
  intro fuel next rest after post hfuel hbound hnext hresume
  rw [List.length_cons] at hfuel hresume
  change _ ≤ fuel + 2 * 8 at hfuel
  obtain ⟨fuel, rfl⟩ : ∃ less, fuel = less + 1 := ⟨fuel - 1, by omega⟩
  have hread : (readSigned fuel).Passes (tokens ++ next :: rest) (next :: rest) (Same operand) :=
    h.passes (by change _ ≤ fuel + 2 * 8; omega) hbound hnext
  have hrest : tokens ++ next :: rest ≠ [] := by simp
  have hsame : ∀ found, Same operand found → Same operand.negation found.negation := by
    intro found hfound
    unfold Same at hfound ⊢
    simp only [Expr.negation, bare, bareItems, hfound]
  change (readSigned (fuel + 1)).Passes (.symbol symbol :: (tokens ++ next :: rest)) _ _
  unfold readSigned
  refine Passes.current ?_
  rcases hsymbol with rfl | rfl
  · refine Passes.advance hrest (hread.bind fun found hfound => ?_)
    exact hresume (fuel + 1) _ (by omega) (hsame found hfound)
  · refine Passes.advance hrest (hread.bind fun found hfound => ?_)
    exact hresume (fuel + 1) _ (by omega) (hsame found hfound)

/-- A number with a sign is one literal. -/
theorem negative {value : Literal} (hsign : value.isNegative = true) :
    Reads bound .signed [.symbol .minus, value.token] (.literal value) := by
  intro fuel next rest after post hfuel _ _ hresume
  rw [List.length_cons, List.length_singleton] at hfuel hresume
  change _ ≤ fuel + 2 * 8 at hfuel
  obtain ⟨fuel, rfl⟩ : ∃ less, fuel = less + 1 := ⟨fuel - 1, by omega⟩
  change (readSigned (fuel + 1)).Passes (.symbol .minus :: value.token :: next :: rest) _ _
  unfold readSigned
  refine Passes.current (Passes.advance (List.cons_ne_nil _ _) ?_)
  refine Passes.negated hsign (List.cons_ne_nil _ _) ?_
  exact hresume (fuel + 1) _ (by omega) rfl

/-- A sign that stands before no number takes the opposite of what follows. -/
theorem opposite {operand : Expr} {first : Token} {more : List Token}
    (hfirst : first.isNumber = false) (h : Reads bound .signed (first :: more) operand) :
    Reads bound .signed (.symbol .minus :: first :: more) operand.opposite := by
  intro fuel next rest after post hfuel hbound hnext hresume
  rw [List.length_cons] at hfuel hresume
  change _ ≤ fuel + 2 * 8 at hfuel
  obtain ⟨fuel, rfl⟩ : ∃ less, fuel = less + 1 := ⟨fuel - 1, by omega⟩
  have hread : (readSigned fuel).Passes (first :: more ++ next :: rest) (next :: rest)
      (Same operand) := h.passes (by change _ ≤ fuel + 2 * 8; omega) hbound hnext
  have hsame : ∀ found, Same operand found → Same operand.opposite found.opposite := by
    intro found hfound
    unfold Same at hfound ⊢
    simp only [Expr.opposite, bare, hfound]
  change (readSigned (fuel + 1)).Passes (.symbol .minus :: first :: (more ++ next :: rest)) _ _
  unfold readSigned
  refine Passes.current (Passes.advance (List.cons_ne_nil _ _) ?_)
  refine Passes.not_negated hfirst (hread.bind fun found hfound => ?_)
  exact hresume (fuel + 1) _ (by omega) (hsame found hfound)

/-- Operators on the same operands are the same. -/
theorem same_binary {op : Operator} {left right left' right' : Expr} (hleft : Same left left')
    (hright : Same right right') : Same (.binary op left right) (.binary op left' right') := by
  unfold Same at hleft hright ⊢
  rw [bare, bare, hleft, hright]

/-- Powers associate to the right. -/
theorem power {left right : Expr} {leftTokens rightTokens : List Token}
    (hleft : Reads 10 .signed leftTokens left) (hright : Reads bound .power rightTokens right) :
    Reads bound .power (leftTokens ++ .symbol .caret :: rightTokens)
      (.binary .power left right) := by
  intro fuel next rest after post hfuel hbound hnext hresume
  rw [List.length_append, List.length_cons] at hfuel hresume
  change _ ≤ fuel + 2 * 7 at hfuel
  obtain ⟨fuel, rfl⟩ : ∃ less, fuel = less + 1 := ⟨fuel - 1, by omega⟩
  have hfirst : (readSigned fuel).Passes
      (leftTokens ++ .symbol .caret :: (rightTokens ++ next :: rest))
      (.symbol .caret :: (rightTokens ++ next :: rest)) (Same left) :=
    hleft.passes (by change _ ≤ fuel + 2 * 8; omega) (free_sign rfl (by decide))
      (free_sign rfl (by decide))
  have hsecond : (readPower fuel).Passes (rightTokens ++ next :: rest) (next :: rest)
      (Same right) := hright.passes (by change _ ≤ fuel + 2 * 7; omega) hbound hnext
  rw [List.append_assoc, List.cons_append]
  change (readPower (fuel + 1)).Passes _ _ _
  unfold readPower
  refine hfirst.bind fun left' hsame => Passes.atSymbol ?_
  refine Passes.advance (by simp) (hsecond.bind fun right' hsame' => ?_)
  exact hresume (fuel + 1) _ (by omega) (same_binary hsame hsame')

/-- All other operators associate to the left. -/
theorem chained {op : Operator} {level : Level} {left right : Expr}
    {leftTokens rightTokens : List Token} (hop : op.tightness = .level level)
    (hleft : Reads 10 (.level level) leftTokens left)
    (hright : Reads bound (Tightness.level level).tighter rightTokens right) :
    Reads bound (.level level) (leftTokens ++ .symbol op.sign :: rightTokens)
      (.binary op left right) := by
  intro fuel next rest after post hfuel hbound hnext hresume
  rw [List.length_append, List.length_cons] at hfuel hresume
  have hrank := Tightness.rank_le (.level level)
  have htighter : (Tightness.level level).tighter.rank = (Tightness.level level).rank + 1 :=
    Tightness.rank_tighter nofun
  have hjoint : (Token.symbol op.sign).joint? = some (level.rank + 1) := by
    rw [op.joint_sign, hop]
    rfl
  have hsign : (Token.symbol op.sign).Free (Tightness.level level).limit :=
    free_sign hjoint (Nat.lt_succ_self _)
  rw [List.append_assoc, List.cons_append]
  -- The same reader reads the operand on the left and goes on with the operator.
  refine hleft fuel _ _ after post (by omega) (hsign.mono (Tightness.limit_le _)) hsign
    fun fuel' left' hless hsame => ?_
  obtain ⟨fuel', rfl⟩ : ∃ less, fuel' = less + 2 := ⟨fuel' - 2, by omega⟩
  have hsecond : ((Tightness.level level).tighter.reader fuel').Passes
      (rightTokens ++ next :: rest) (next :: rest) (Same right) :=
    hright.passes (by omega) hbound (hnext.mono (limit_le_tighter nofun))
  change (readChain (fuel' + 2) level left').Passes _ _ _
  unfold readChain
  refine Passes.current ?_
  rw [Operator.operator_sign hop]
  refine Passes.advance (by simp) ?_
  rw [readOperand_succ]
  refine hsecond.bind fun right' hsame' => ?_
  exact hresume (fuel' + 1) _ (by omega) (same_binary hsame hsame')

/-- Conditionals of the same parts are the same, whatever text they keep. -/
theorem same_conditional {test yes no test' yes' no' : Expr} (text text' : String)
    (htest : Same test test') (hyes : Same yes yes') (hno : Same no no') :
    Same (.conditional test text yes no) (.conditional test' text' yes' no') := by
  unfold Same at htest hyes hno ⊢
  rw [bare, bare, htest, hyes, hno]

/-- A conditional with signs. -/
theorem conditional_signs {test yes no : Expr} {testTokens yesTokens noTokens : List Token}
    (text : String) (htest : Reads 10 (.level .or) testTokens test)
    (hyes : Reads 10 .any yesTokens yes) (hno : Reads 10 .any noTokens no) :
    Reads 10 .any (testTokens ++ .symbol .question :: (yesTokens ++ .symbol .colon :: noTokens))
      (.conditional test text yes no) := by
  intro fuel next rest after post hfuel hbound hnext hresume
  rw [List.length_append, List.length_cons, List.length_append, List.length_cons] at hfuel hresume
  change _ ≤ fuel + 2 * 0 at hfuel
  obtain ⟨fuel, rfl⟩ : ∃ less, fuel = less + 1 := ⟨fuel - 1, by omega⟩
  have hfirst : (readLevel fuel .or).Passes
      (testTokens ++ .symbol .question ::
        (yesTokens ++ .symbol .colon :: (noTokens ++ next :: rest)))
      (.symbol .question :: (yesTokens ++ .symbol .colon :: (noTokens ++ next :: rest)))
      (Same test) :=
    htest.passes (by change _ ≤ fuel + 2 * 1; omega) (free_sign rfl (by decide))
      (free_sign rfl (by decide))
  have hsecond : (readAny fuel).Passes (yesTokens ++ .symbol .colon :: (noTokens ++ next :: rest))
      (.symbol .colon :: (noTokens ++ next :: rest)) (Same yes) :=
    hyes.passes (by change _ ≤ fuel + 2 * 0; omega) (.of_none rfl) (.of_none rfl)
  have hthird : (readAny fuel).Passes (noTokens ++ next :: rest) (next :: rest) (Same no) :=
    hno.passes (by change _ ≤ fuel + 2 * 0; omega) hbound hnext
  rw [List.append_assoc, List.cons_append, List.append_assoc, List.cons_append]
  change (readAny (fuel + 1)).Passes _ _ _
  unfold readAny
  refine Passes.position fun start => hfirst.bind fun test' htest' => Passes.atSymbol ?_
  refine Passes.textFrom fun text' => Passes.advance (by simp) ?_
  refine hsecond.bind fun yes' hyes' => Passes.expect (by simp) ?_
  refine hthird.bind fun no' hno' => ?_
  exact hresume (fuel + 1) _ (by omega) (same_conditional text text' htest' hyes' hno')

/-- A conditional with keywords. Its last part takes all that can go on with it. -/
theorem conditional_keywords {test yes no : Expr} {testTokens yesTokens noTokens : List Token}
    (text : String) (htest : Reads 10 .any testTokens test)
    (hyes : Reads 10 .any yesTokens yes) (hno : Reads 10 .any noTokens no) :
    Reads 10 .any (.symbol .cond :: (testTokens ++ .symbol .thenBranch ::
      (yesTokens ++ .symbol .elseBranch :: noTokens))) (.conditional test text yes no) := by
  -- It is found where a path starts, but only in front of tokens that go on with nothing.
  have hprimary : Reads 0 .path (.symbol .cond :: (testTokens ++ .symbol .thenBranch ::
      (yesTokens ++ .symbol .elseBranch :: noTokens))) (.conditional test text yes no) := by
    refine of_primary ⟨nofun, nofun, nofun⟩ fun fuel next rest hfuel hnext _ => ?_
    rw [List.length_append, List.length_cons, List.length_append, List.length_cons] at hfuel
    obtain ⟨fuel, rfl⟩ : ∃ less, fuel = less + 1 := ⟨fuel - 1, by omega⟩
    have hfirst : (readAny fuel).Passes
        (testTokens ++ .symbol .thenBranch ::
          (yesTokens ++ .symbol .elseBranch :: (noTokens ++ next :: rest)))
        (.symbol .thenBranch :: (yesTokens ++ .symbol .elseBranch :: (noTokens ++ next :: rest)))
        (Same test) :=
      htest.passes (by change _ ≤ fuel + 2 * 0; omega) (.of_none rfl) (.of_none rfl)
    have hsecond : (readAny fuel).Passes
        (yesTokens ++ .symbol .elseBranch :: (noTokens ++ next :: rest))
        (.symbol .elseBranch :: (noTokens ++ next :: rest)) (Same yes) :=
      hyes.passes (by change _ ≤ fuel + 2 * 0; omega) (.of_none rfl) (.of_none rfl)
    have hthird : (readAny fuel).Passes (noTokens ++ next :: rest) (next :: rest) (Same no) :=
      hno.passes (by change _ ≤ fuel + 2 * 0; omega) (hnext.mono (Nat.zero_le 10)) hnext
    rw [List.append_assoc, List.cons_append, List.append_assoc, List.cons_append]
    unfold readPrimary
    refine Passes.not_literal rfl (Passes.current (Passes.advance (by simp) ?_))
    refine Passes.position fun start => hfirst.bind fun test' htest' => ?_
    refine Passes.textFrom fun text' => Passes.expect (by simp) ?_
    refine hsecond.bind fun yes' hyes' => Passes.expect (by simp) ?_
    refine hthird.bind fun no' hno' => Passes.pure ?_
    exact same_conditional text text' htest' hyes' hno'
  exact of_any (hprimary.of_le (Nat.zero_le _))

end Reads

/-- Tokens that open an expression do so in parentheses too. -/
theorem Opens.enclosed {tokens : List Token} (h : Opens tokens) (expr : Expr) (due : Tightness) :
    Opens (expr.enclosed due tokens) := by
  unfold Expr.enclosed
  split
  · exact ⟨_, _, rfl, nofun⟩
  · exact h

/-- Tokens open an expression whatever follows them. -/
theorem Opens.append {tokens : List Token} (h : Opens tokens) (rest : List Token) :
    Opens (tokens ++ rest) := by
  obtain ⟨first, more, rfl, hfirst⟩ := h
  exact ⟨first, more ++ rest, rfl, hfirst⟩

/-- No written expression starts by closing parentheses. -/
theorem Writable.opens {expr : Expr} (h : expr.Writable) (style : Style) :
    Opens (expr.tokens style) := by
  induction h generalizing style with
  | @literal value hvalue =>
    rw [Expr.tokens, Literal.tokens]
    split
    · exact ⟨_, _, rfl, by simp⟩
    · refine ⟨_, _, rfl, ?_⟩
      cases value <;> simp [Literal.token]
  | var _ =>
    rw [Expr.tokens]
    exact ⟨_, _, rfl, by simp⟩
  | identifier _ _ =>
    rw [Expr.tokens]
    exact ⟨_, _, rfl, by simp⟩
  | access _ _ ih =>
    rw [Expr.tokens]
    exact ((ih _).enclosed _ _).append _
  | invoke _ hfree _ _ =>
    rw [tokens_invoke _ (ne_not_of_free hfree)]
    exact ⟨_, _, rfl, by simp⟩
  | negation _ _ =>
    rw [tokens_negation]
    refine ⟨_, _, rfl, ?_⟩
    unfold Style.negation
    split <;> simp
  | call _ _ _ ih _ =>
    rw [Expr.tokens]
    exact ((ih _).enclosed _ _).append _
  | binary _ _ ih _ =>
    rw [Expr.tokens]
    exact ((ih _).enclosed _ _).append _
  | conditional _ _ _ ih _ _ =>
    rw [Expr.tokens]
    split
    · exact ⟨_, _, rfl, by simp⟩
    · exact ((ih _).enclosed _ _).append _

/-- The tokens of an expression are read as this expression. -/
theorem Writable.reads {expr : Expr} (h : expr.Writable) (style : Style) :
    Reads 10 expr.tightness (expr.tokens style) expr := by
  -- on the expression; an operand that is bound less tightly is read in its parentheses
  induction h generalizing style with
  | @literal value hvalue =>
    rw [Expr.tokens, Literal.tokens, Expr.tightness]
    split
    · exact Reads.negative ‹_›
    · exact Reads.literal (Bool.eq_false_iff.mpr ‹_›)
  | var _ =>
    rw [Expr.tokens]
    exact Reads.var
  | identifier _ _ =>
    rw [Expr.tokens]
    exact Reads.identifier
  | access _ _ ih =>
    rw [Expr.tokens]
    exact Reads.access ((ih _).enclosed _)
  | @invoke method arguments _ hfree hitems ih =>
    have hnot := ne_not_of_free hfree
    have hpath : (Expr.invoke method arguments).tightness = .path := by
      rcases arguments with _ | ⟨item, _ | ⟨next, rest⟩⟩
      · rfl
      · exact if_neg hnot
      · rfl
    rw [tokens_invoke _ hnot, hpath]
    exact Reads.invoke (fun item hitem style => (ih item hitem style).of_le (Nat.zero_le _))
      fun item hitem => (hitems item hitem).opens
  | negation _ ih =>
    rw [tokens_negation]
    refine Reads.negation ?_ ((ih _).enclosed _)
    unfold Style.negation
    split
    · exact .inl rfl
    · exact .inr rfl
  | call _ _ hitems ihr ih =>
    rw [Expr.tokens]
    exact Reads.call ((ihr _).enclosed _)
      (fun item hitem style => (ih item hitem style).of_le (Nat.zero_le _))
      fun item hitem => (hitems item hitem).opens
  | @binary op left right _ _ ihl ihr =>
    rw [Expr.tokens, Expr.tightness]
    rcases op.tightness_cases with rfl | ⟨level, hlevel, hleft, hright⟩
    · exact Reads.power ((ihl _).enclosed _) ((ihr _).enclosed _)
    · rw [hlevel, hleft, hright]
      exact Reads.chained hlevel ((ihl _).enclosed _) ((ihr _).enclosed _)
  | conditional _ _ _ iht ihy ihn =>
    rw [Expr.tokens]
    split
    · exact Reads.conditional_keywords _ ((iht _).of_le (Nat.zero_le _))
        ((ihy _).of_le (Nat.zero_le _)) ((ihn _).of_le (Nat.zero_le _))
    · exact Reads.conditional_signs _ ((iht _).enclosed _) ((ihy _).of_le (Nat.zero_le _))
        ((ihn _).of_le (Nat.zero_le _))

end TypedQuery.Expr
