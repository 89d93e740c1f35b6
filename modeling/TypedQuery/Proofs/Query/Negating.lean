import TypedQuery.Proofs.Expr.Readable
import TypedQuery.Proofs.Plan.Calculating
import TypedQuery.Proofs.Query.Joining

/-!
# Opposites of integers

A sign before anything but a number stands for a difference from zero. This zero is a literal of 32
bits, so the difference is one of 32 bits, whatever the kind of the operand is: it is exact within
this range, and reported as an overflow beyond it.
-/

namespace TypedQuery

open Halting

namespace Expr

/-- How an operand is written behind a sign: in parentheses, or as it is if it starts with no
number. -/
inductive BehindSign (operand : Expr) (style : Style) : List Token → Prop
  | parentheses : BehindSign operand style
      (.symbol .leftParen :: (operand.tokens style ++ [.symbol .rightParen]))
  | plain {first : Token} {more : List Token}
      (htokens : operand.enclosed .signed (operand.tokens style) = first :: more)
      (hfirst : first.isNumber = false) : BehindSign operand style (first :: more)

variable {operand : Expr} {style : Style} {tokens : List Token} {source : String}

/-- What stands behind a sign is read as the operand of the sign. -/
theorem BehindSign.reads (h : operand.BehindSign style tokens) (hoperand : operand.Writable) :
    Reads 10 .signed (.symbol .minus :: tokens) operand.opposite := by
  cases h with
  | parentheses =>
    have hany : Reads 10 .any (operand.tokens style) operand :=
      (hoperand.reads style).of_le (Nat.zero_le _)
    exact .opposite rfl (hany.parentheses.of_le (by decide))
  | plain htokens hfirst =>
    exact .opposite hfirst (htokens ▸ (hoperand.reads style).enclosed .signed)

/-- What is the same as an opposite is an opposite of the same operand. -/
theorem exists_opposite_of_same {found : Expr} (h : Same operand.opposite found) :
    ∃ other : Expr, found = other.opposite ∧ other.bare = operand.bare := by
  change found.bare = .binary .subtract (.literal (.integer 0)) operand.bare at h
  cases found with
  | binary op left right =>
    rw [bare] at h
    injection h with hop hleft hright
    cases left <;> cases hleft
    exact ⟨right, by rw [hop]; rfl, hright⟩
  | _ =>
    rw [bare] at h
    cases h

/-- A sign before an operand is read as the opposite of the operand. -/
theorem read_opposite (hoperand : operand.Writable) (htokens : operand.BehindSign style tokens)
    (hsource : Writes (.symbol .minus :: tokens) source.toList) :
    ∃ found : Expr, read source = .ok found.opposite ∧ found.bare = operand.bare := by
  obtain ⟨found, hread, hsame⟩ :=
    read_of_reads ((htokens.reads hoperand).of_le (Nat.zero_le _)) hsource
  obtain ⟨other, rfl, hother⟩ := exists_opposite_of_same hsame
  exact ⟨other, hread, hother⟩

end Expr

namespace Value

variable {value : Value} {n : Int} {outcome : Except RunFault Value}

/-- What the opposite of an integer, or of `null`, comes to: the exact one, as long as it and the
integer have 32 bits. -/
inductive Negated : Value → Except RunFault Value → Prop
  | null : Negated .null (.ok .null)
  | exact {value result : Value} {n : Int} (hn : value.IsInt n) (hleast : -2147483648 < n)
      (hgreatest : n ≤ 2147483647) (hresult : result.IsInt (-n)) : Negated value (.ok result)
  | tooWide {value : Value} {n : Int} (hn : value.IsInt n)
      (hwide : n < -2147483648 ∨ 2147483647 < n) :
      Negated value (.error (.overflow (.number n .i32)))
  | least {value : Value} (hn : value.IsInt (-2147483648)) :
      Negated value (.error (.overflow (.integers 0 .subtract (-2147483648) .i32)))

/-- The range of 32 bits with a sign, in numbers. -/
theorem fits_i32_iff : IntKind.fits .i32 n = true ↔ -2147483648 ≤ n ∧ n ≤ 2147483647 :=
  IntKind.fits_iff

/-- A difference from zero at 32 bits is an opposite. -/
theorem Calculated.negated (h : Calculated .subtract .i32 (.int 0) value outcome) :
    Negated value outcome := by
  have hzero : ∀ {m}, (Value.int 0).IsInt m → m = 0 := fun hm => hm.unique ⟨rfl, rfl⟩
  cases h with
  | unfit hb hfits =>
    rw [← Bool.not_eq_true, fits_i32_iff] at hfits
    exact .tooWide hb (by omega)
  | null hnull _ =>
    rcases hnull with hnull | rfl
    · cases hnull
    · exact .null
  | byZero _ _ hop => cases hop
  | @exact _ m n c ha hb hright hyields hfits hresult =>
    obtain rfl := hzero ha
    obtain rfl : -n = c := (hyields (-n)).mp (neg_add_cancel n)
    rw [fits_i32_iff] at hright hfits
    exact .exact hb (by omega) (by omega) hresult
  | @overflow m n c ha hb hright hyields hfits =>
    obtain rfl := hzero ha
    obtain rfl : -n = c := (hyields (-n)).mp (neg_add_cancel n)
    rw [← Bool.not_eq_true, fits_i32_iff] at hfits
    rw [fits_i32_iff] at hright
    obtain rfl : n = -2147483648 := by omega
    exact .least hb

end Value

namespace Query

variable {node : Node} {contextTy : Ty} {services : Services} {store value : Value}

/-- A query with the variables of another one finds them at the same values. -/
theorem lookup_environmentOf_ofPlan_join (constant plan : Plan) (name : String) :
    (environmentOf ((Node.ofPlan constant).join node plan) store).lookup name =
      (environmentOf node store).lookup name := by
  unfold environmentOf Node.join Node.ofPlan
  rw [map_extend, List.lookup_append, List.lookup_append]
  exact congrArg (Option.or · _) (Entries.find?_reverse_ofList _)

/-- A query that joins a constant to another one runs where the other one does. -/
theorem run_ofPlan_join (constant plan : Plan)
    (h : (ofNode node contextTy).run services store = .ok value) :
    ∃ environment, node.plan.eval services environment = .ok value ∧
      (ofNode ((Node.ofPlan constant).join node plan) contextTy).run services store =
        plan.eval services environment := by
  obtain ⟨hservices, hvalue⟩ := run_ofNode_eq_ok.mp h
  refine ⟨environmentOf ((Node.ofPlan constant).join node plan) store, ?_, run_ofNode ?_⟩
  · rw [← hvalue]
    exact Plan.eval_eq_of_free node.plan fun name _ =>
      lookup_environmentOf_ofPlan_join constant plan name
  · intro service hservice
    exact (Node.mem_foldl_addService.mp hservice).elim nofun (hservices service)

end Query

namespace Scope

variable {scope : Scope} {operand : Expr} {inner node : Node} {session final : Session}
  {kind : IntKind}

/-- The zero that an operand is subtracted from. -/
def zero : Plan := .const (.int .i32) (.int 0)

/-- The opposite of an integer is a difference from zero at the kind of this zero. -/
theorem compile_opposite (members : Members)
    (hnode : (scope.compile inner operand) session = .ok node final)
    (hkind : node.ty.intKind? = some kind) :
    ∃ gathered, Plan.Gathers members .i32 zero node.plan gathered ∧
      (scope.compile inner operand.opposite) session =
        .ok ((Node.ofPlan zero).join node
          (.operator .subtract gathered.1 gathered.2 gathered.1.ty)) final := by
  obtain ⟨gathered, hgathers, haccepted⟩ :=
    Plan.exists_gathered members scope.schema .subtract zero node.plan rfl rfl hkind
  refine ⟨gathered, hgathers, ?_⟩
  have hzero : (scope.compile inner (.literal (.integer 0))) session =
      .ok (Node.ofPlan zero) session := by
    unfold compile compileExpr
    rfl
  unfold compile Expr.opposite compileExpr
  refine bind_eq_ok.mpr ⟨_, session, hzero, bind_eq_ok.mpr ⟨node, final, hnode, ?_⟩⟩
  change (Halting.ofExcept (Plan.reconcile scope.schema .subtract zero node.plan) >>= _) final = _
  rw [haccepted]
  rfl

/-- The opposite of an integer, on the values of the integer. -/
theorem negated_of_gathers {members : Members} {gathered : Plan × Plan} {plan : Plan}
    {services : Services} {environment : Environment} {value : Value}
    (h : Plan.Gathers members .i32 zero plan gathered)
    (hvalue : plan.eval services environment = .ok value)
    (hconforms : value.Conforms members plan.ty) :
    Value.Negated value ((Plan.operator .subtract gathered.1 gathered.2 gathered.1.ty).eval services
      environment) := by
  have hcalculated : Value.Calculated .subtract .i32 (.int 0) value _ :=
    h.calculated rfl nofun rfl rfl (.int rfl rfl) hvalue hconforms
  exact hcalculated.negated

/-- A sign before an operand is read as its opposite, and the opposite of an integer of any kind,
nullable or not, compiles. It is of 32 bits whatever the operand is: its value is the exact opposite
as long as this and the integer have 32 bits, and otherwise an overflow. -/
theorem opposite_negates (scope : Scope) :
    (∀ (operand : Expr) (style : Style) (tokens : List Token) (source : String),
      operand.Writable → operand.BehindSign style tokens →
      Writes (.symbol .minus :: tokens) source.toList →
      ∃ found : Expr, Expr.read source = .ok found.opposite ∧ found.bare = operand.bare) ∧
    ∀ (operand : Expr) (inner node : Node) (session final : Session) (kind : IntKind),
      (scope.compile inner operand) session = .ok node final → node.ty.intKind? = some kind →
      ∃ opposite, (scope.compile inner operand.opposite) session = .ok opposite final ∧
        opposite.ty.intKind? = some .i32 ∧
        (∀ services environment value, node.plan.eval services environment = .ok value →
          value.Conforms scope.schema.members node.ty →
          Value.Negated value (opposite.plan.eval services environment)) ∧
        ∀ contextTy services store value,
          (Query.ofNode node contextTy).run services store = .ok value →
          value.Conforms scope.schema.members node.ty →
          Value.Negated value ((Query.ofNode opposite contextTy).run services store) := by
  refine ⟨fun operand style tokens source => Expr.read_opposite, ?_⟩
  intro operand inner node session final kind hnode hkind
  obtain ⟨gathered, hgathers, haccepted⟩ := compile_opposite scope.schema.members hnode hkind
  refine ⟨_, haccepted, hgathers.leftKind, fun services environment value hvalue hconforms =>
    negated_of_gathers hgathers hvalue hconforms, ?_⟩
  intro contextTy services store value hrun hconforms
  obtain ⟨environment, hvalue, heval⟩ := Query.run_ofPlan_join zero
    (.operator .subtract gathered.1 gathered.2 gathered.1.ty) hrun
  rw [heval]
  exact negated_of_gathers hgathers hvalue hconforms

end Scope

/-- A host with a balance of 64 bits. -/
def balanceHost : Host where
  schema := .ofParts "Query" [] [.ofFields "Query" none [.ofMember "balance" (.int .i64)]] []
  methods := .standard
  depth := 1

namespace Scope

/-- The opposite of a balance of more than 32 bits is reported as an overflow. -/
theorem opposite_negates_balance :
    (∃ (source : String) (found : Expr),
      Writes [.symbol .minus, .identifier "balance"] source.toList ∧
        Expr.read source = .ok found.opposite ∧ found.bare = .identifier "balance") ∧
    ∃ opposite, ((balanceHost.scope []).compile (context (.object "Query"))
        (Expr.identifier "balance").opposite) default = .ok opposite default ∧
      (Query.ofNode opposite (.object "Query")).run []
          (.object "Query" [("balance", .int 3000000000)]) =
        .error (.overflow (.number 3000000000 .i32)) := by
  obtain ⟨hread, hcompile⟩ := opposite_negates (balanceHost.scope [])
  constructor
  · let style : Style := ⟨fun _ => false, fun _ => false⟩
    have hbalance : (Expr.identifier "balance").Writable := .identifier (by decide) (by decide)
    have hwritable : ∀ token ∈ [Token.symbol .minus, .identifier "balance"], token.Writable :=
      List.forall_mem_cons.mpr ⟨Token.writable_symbol .minus, hbalance.tokens style⟩
    obtain ⟨text, hwrites, -⟩ := exists_writes hwritable
    have hsource : Writes [.symbol .minus, .identifier "balance"] (String.ofList text).toList := by
      rwa [String.toList_ofList]
    have hbehind : (Expr.identifier "balance").BehindSign style [.identifier "balance"] :=
      .plain rfl rfl
    obtain ⟨found, hfound, hsame⟩ := hread _ style _ _ hbalance hbehind hsource
    exact ⟨_, found, hsource, hfound, hsame⟩
  · have hnode : ((balanceHost.scope []).compile (context (.object "Query"))
        (.identifier "balance")) default = .ok _ default := rfl
    obtain ⟨opposite, haccepted, -, -, hrun⟩ := hcompile _ _ _ _ _ .i64 hnode rfl
    have hresult := hrun (.object "Query") [] (.object "Query" [("balance", .int 3000000000)])
      (.int 3000000000) rfl (.int rfl (by decide))
    refine ⟨opposite, haccepted, ?_⟩
    generalize (Query.ofNode opposite _).run _ _ = outcome at hresult ⊢
    have hbalance : (Value.int 3000000000).IsInt 3000000000 := ⟨rfl, rfl⟩
    cases hresult with
    | exact hn _ hgreatest _ =>
      cases hn.unique hbalance
      omega
    | tooWide hn _ =>
      cases hn.unique hbalance
      rfl
    | least hn => cases hn.unique hbalance

end Scope

end TypedQuery
