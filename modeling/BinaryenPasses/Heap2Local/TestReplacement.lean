import BinaryenPasses.Heap2Local.FieldReplacement

/-!
# What replaces a test of the allocation

`Struct2Local` answers the tests on the allocation without the allocation.  `visitRefIsNull`
drops the test and yields 0: the allocation is not null.  `visitRefTest` drops the reference
and yields whether the allocation's type is a subtype of the cast type.  `visitRefEq` drops
both operands and yields 1 when both are recorded as `Flows`, else 0.  `visitRefGetDesc` drops
the reference and reads the descriptor's local.  The first three build the same shape, a block
of drops ending in a constant (`dropsThenConst`).

* `visitRefIsNull_eq`, `visitRefTest_eq`, `visitRefEq_eq`, `visitRefGetDesc_eq` — the visitors
  are the replacements followed by `replaceCurrent`;
* `dropsThenConst_layout`, `eval_dropsThenConst` — the block of drops and its run: the dropped
  operands as `seqEval` runs them, then the constant;
* `castOk_allocation`, `decide_eq_of_flows` — what the original tests compute on the
  allocation's reference;
* **`refTestReplacements_match`** — each replacement runs its operands as the original test
  does and yields what the test yields on the allocation; for `ref.eq`, where an operand holds
  the allocation exactly when it is recorded as `Flows`.
-/

namespace BinaryenPasses.Heap2Local

open BinaryenPasses.IR

namespace Struct2Local

variable (s2l : Struct2Local)

/-! ## The blocks the visitors build -/

/-- The drops of `xs`, built in order. -/
def makeDrops (f : Function) : List ExprId → Function × List ExprId
  | [] => (f, [])
  | x :: xs =>
    let (f, drop) := Builder.makeDrop f x
    let (f, drops) := makeDrops f xs
    (f, drop :: drops)

/-- The block `visitRefIsNull`, `visitRefTest` and `visitRefEq` build: `xs` dropped, then the
constant `v`. -/
def dropsThenConst (f : Function) (xs : List ExprId) (v : Literal) : Function × ExprId :=
  let (f, drops) := makeDrops f xs
  let (f, c) := Builder.makeConst f v
  Builder.makeBlock f (drops ++ [c])

/-- `visitRefIsNull`'s replacement: the test itself dropped, then 0. -/
def refIsNullReplacement (f : Function) (curr : ExprId) : Function × ExprId :=
  dropsThenConst f [curr] (.i32 0)

/-- `visitRefTest`'s replacement: the reference dropped, then whether the allocation's type is
a subtype of the cast type. -/
def refTestReplacement (f : Function) (ref : ExprId) (castType : Ty) : Function × ExprId :=
  dropsThenConst f [ref] (.i32 (if Ty.isSubType s2l.types s2l.allocType castType then 1 else 0))

/-- `visitRefEq`'s replacement: both operands dropped, then `result`. -/
def refEqReplacement (f : Function) (left right : ExprId) (result : Bool) :
    Function × ExprId :=
  dropsThenConst f [left, right] (.i32 (if result then 1 else 0))

/-- `visitRefGetDesc`'s replacement: the reference dropped, then the descriptor's local read. -/
def refGetDescReplacement (f : Function) (ref : ExprId) : Function × ExprId :=
  let type := s2l.descType.getD .none
  let (f, value) := Builder.makeLocalGet f (s2l.localIndexes.getD s2l.fields.length 0) type
  let (f, drop) := Builder.makeDrop f ref
  Builder.blockify f drop [value]

theorem visitRefIsNull_eq (r : Rewrite) (curr : ExprId) (parent : Option ExprId)
    (h : r.reached.get curr ≠ .none) :
    visitRefIsNull r curr parent =
      (r.withFunc (refIsNullReplacement r.func curr).1).replaceCurrent curr parent
        (refIsNullReplacement r.func curr).2 := by
  simp only [visitRefIsNull, h, if_false]
  rfl

theorem visitRefTest_eq (r : Rewrite) (curr : ExprId) (parent : Option ExprId)
    (ref : ExprId) (castType : Ty) (h : r.reached.get curr ≠ .none) :
    s2l.visitRefTest r curr parent ref castType =
      (r.withFunc (s2l.refTestReplacement r.func ref castType).1).replaceCurrent curr parent
        (s2l.refTestReplacement r.func ref castType).2 := by
  simp only [visitRefTest, h, if_false]
  rfl

theorem visitRefEq_eq (r : Rewrite) (curr : ExprId) (parent : Option ExprId)
    (left right : ExprId) (type : Ty) (h : r.reached.get curr ≠ .none)
    (hty : type ≠ .unreachable) :
    visitRefEq r curr parent left right type =
      (r.withFunc (refEqReplacement r.func left right
        (r.reached.get left == .flows && r.reached.get right == .flows)).1).replaceCurrent curr
        parent (refEqReplacement r.func left right
          (r.reached.get left == .flows && r.reached.get right == .flows)).2 := by
  simp only [visitRefEq, h, hty, if_false, refEqReplacement, Bool.and_eq_true, beq_iff_eq]
  rfl

theorem visitRefGetDesc_eq (r : Rewrite) (curr : ExprId) (parent : Option ExprId)
    (ref : ExprId) (currType : Ty) (h : r.reached.get curr ≠ .none) :
    s2l.visitRefGetDesc r curr parent ref currType =
      ((if s2l.descType.getD .none ≠ currType then { r with refinalize := true } else r).withFunc
        (s2l.refGetDescReplacement r.func ref).1).replaceCurrent curr parent
        (s2l.refGetDescReplacement r.func ref).2 := by
  simp only [visitRefGetDesc, h, if_false]
  split_ifs <;> rfl

/-! ## Where the builders put each part -/

theorem makeDrops_spec (f : Function) : ∀ xs : List ExprId,
    f.Extends (makeDrops f xs).1 ∧
      List.Forall₂ (fun d x => (makeDrops f xs).1.expr? d = some (.drop x)) (makeDrops f xs).2 xs
  | [] => ⟨.refl f, .nil⟩
  | x :: xs => by
    obtain ⟨hext, hds⟩ := makeDrops_spec (Builder.makeDrop f x).1 xs
    exact ⟨(Builder.alloc_extends _ _).trans hext,
      .cons (hext.expr? (Builder.expr?_alloc _ _)) hds⟩

theorem dropsThenConst_layout (f : Function) (xs : List ExprId) (v : Literal) :
    f.Extends (dropsThenConst f xs v).1 ∧ ∃ ds c,
      (dropsThenConst f xs v).1.expr? (dropsThenConst f xs v).2 =
        some (.block none (ds ++ [c])) ∧
      List.Forall₂ (fun d x => (dropsThenConst f xs v).1.expr? d = some (.drop x)) ds xs ∧
      (dropsThenConst f xs v).1.expr? c = some (.const v) := by
  obtain ⟨hext, hds⟩ := makeDrops_spec f xs
  have hext' : (makeDrops f xs).1.Extends (dropsThenConst f xs v).1 :=
    (Builder.alloc_extends _ _).trans (Builder.alloc_extends _ _)
  exact ⟨hext.trans hext', (makeDrops f xs).2, (Builder.makeConst (makeDrops f xs).1 v).2,
    Builder.expr?_alloc _ _, hds.imp fun _ _ h => hext'.expr? h,
    (Builder.alloc_extends _ _).expr? (Builder.expr?_alloc _ _)⟩

theorem refGetDescReplacement_layout (f : Function) (ref : ExprId) :
    f.Extends (s2l.refGetDescReplacement f ref).1 ∧
      (s2l.refGetDescReplacement f ref).1.exprs.map Expression.expr =
        f.exprs.map Expression.expr ++ [.localGet (s2l.localIndexes.getD s2l.fields.length 0),
          .drop ref, .block none [f.exprs.length + 1, f.exprs.length]] := by
  refine (fun (h : _ ∧ _) => ⟨extends_of_take h.1, h.2⟩) ?_
  simp [refGetDescReplacement, Builder.makeLocalGet, Builder.makeDrop, Builder.blockify,
    Builder.makeBlock, Builder.alloc, Function.expr?, Function.get, List.getElem_append_right]

/-! ## Running the blocks -/

variable (types : TypeSection) (env : CallEnv)

/-- A block of drops ending in a constant: the dropped operands as `seqEval` runs them, then
the constant. -/
theorem eval_dropsThenConst {g : Function} {B c : ExprId} {ds l : List ExprId} {v : Literal}
    (hB : g.expr? B = some (.block none (ds ++ [c])))
    (hds : List.Forall₂ (fun d x => g.expr? d = some (.drop x)) ds l)
    (hc : g.expr? c = some (.const v)) (m : Nat) (s : State) :
    eval types env g (m + 2) B s =
      match seqEval (eval types env g m) l s with
      | (.ok _, s) => (.normal (some v), s)
      | (.error fl, s) => (fl, s) := by
  rw [eval_block_none types env hB, seqEval_drops types env hds]
  rcases seqEval (eval types env g m) l s with ⟨_ | _, s'⟩ <;>
    simp [seqEval, eval_of_expr? types env hc, evalStep]

/-- The block of drops built on `f`: the dropped operands as they run in `f`. -/
theorem dropsThenConst_eval {f : Function} (hf : f.ChildrenInRange) {xs : List ExprId}
    (hxs : ∀ x ∈ xs, x < f.exprs.length) (v : Literal) (m : Nat) (s : State) :
    eval types env (dropsThenConst f xs v).1 (m + 2) (dropsThenConst f xs v).2 s =
      match seqEval (eval types env f m) xs s with
      | (.ok _, s) => (.normal (some v), s)
      | (.error fl, s) => (fl, s) := by
  obtain ⟨hext, ds, c, hB, hds, hc⟩ := dropsThenConst_layout f xs v
  rw [eval_dropsThenConst types env hB hds hc, seqEval_extend types env hf hext xs hxs]

/-- The `ref.get_desc` block: the reference as `f` runs it, then the descriptor's local. -/
theorem refGetDescReplacement_eval {f : Function} (hf : f.ChildrenInRange) {ref : ExprId}
    (href : ref < f.exprs.length) (n : Nat) (s : State) :
    eval types env (s2l.refGetDescReplacement f ref).1 (n + 4)
        (s2l.refGetDescReplacement f ref).2 s =
      andThen (eval types env f (n + 2) ref s) fun _ s =>
        (.normal s.locals[s2l.localIndexes.getD s2l.fields.length 0]?, s) := by
  obtain ⟨⟨extra, hgx⟩, hmap⟩ := s2l.refGetDescReplacement_layout f ref
  have hid := expr?_of_exprs_map hmap
  have hB : (s2l.refGetDescReplacement f ref).2 = f.exprs.length + 2 := by
    simp [refGetDescReplacement, Builder.makeLocalGet, Builder.makeDrop, Builder.blockify,
      Builder.makeBlock, Builder.alloc, Function.expr?, Function.get, List.getElem_append_right]
  have h0 : (s2l.refGetDescReplacement f ref).1.expr? f.exprs.length =
      some (.localGet (s2l.localIndexes.getD s2l.fields.length 0)) := hid 0
  rw [hB, eval_block_none types env (hid 2)]
  simp only [seqEval, eval_drop types env (hid 1),
    eval_extend types env hf hgx (n + 2) ref s href]
  rcases eval types env f (n + 2) ref s with ⟨_ | _ | _ | _ | _, s'⟩ <;>
    simp only [andThen, eval_localGet types env h0]
  rfl

/-! ## What the tests compute on the allocation -/

/-- A cast test of a reference to an object of type `i` is the subtyping of the non-null
reference type of `i`. -/
theorem castOk_allocation {s : State} {a i : Nat} {o : HeapObject} (ho : s.heap[a]? = some o)
    (hi : o.type = i) (t : Ty) :
    castOk types s (some (.ref a)) t = Ty.isSubType types (.ref (.defined i) false) t := by
  rw [isSubType_ref_defined]
  simp only [castOk, ho, hi]

/-- Two values compared by `ref.eq`, each the allocation's reference exactly when it is
recorded as flowing and one of them recorded so: they are equal exactly when both are. -/
theorem decide_eq_of_flows {vl vr x : Option Literal} {bl br : Bool} (hl : bl = true ↔ vl = x)
    (hr : br = true ↔ vr = x) (hone : (bl || br) = true) : decide (vl = vr) = (bl && br) := by
  cases bl <;> cases br <;> simp only [Bool.or_false, Bool.false_or, Bool.or_true,
    Bool.and_true, Bool.and_false, true_iff, false_iff, Bool.false_eq_true] at hl hr hone ⊢
  · subst hr
    simpa using hl
  · subst hl
    simpa [eq_comm] using hr
  · simp [hl, hr]

/-! ## The replacements against the tests -/

/-- **The replacements answer the tests as the tests answer on the allocation.**  Take a
`ref.is_null`, `ref.test`, `ref.eq` or `ref.get_desc` in the original function `f₀`, and the same
expression in `f`, the function the visitor rewrites (its operands already rewritten).  Run the
test from any state, and the replacement from any state of the rewritten function.

When the operands fail alike, both fail the same way in the states the operands leave.  When
they complete alike, the original reference being the allocation at `a`, both yield the same
value in those states: 0 for `ref.is_null`; for `ref.test`, whether the allocation's type is a
subtype of the cast type, the object at `a` having the allocation's type; for `ref.get_desc`,
the descriptor, which the object and the descriptor's local both hold.  For `ref.eq`, each
operand being the allocation's reference exactly when it is recorded as `Flows` (`bl`, `br`)
and one of them so, both yield 1 when both are, else 0. -/
theorem refTestReplacements_match (s2l : Struct2Local) {f₀ f : Function}
    (hf : f.ChildrenInRange) (m n : Nat) (so sn : State) (a : Nat) :
    (∀ curr₀ curr ref₀ ref,
      f₀.expr? curr₀ = some (.refIsNull ref₀) → f.expr? curr = some (.refIsNull ref) →
      (∀ fl so' sn', (∀ v, fl ≠ .normal v) →
        eval types env f₀ m ref₀ so = (fl, so') → eval types env f (n + 2) ref sn = (fl, sn') →
        eval types env f₀ (m + 1) curr₀ so = (fl, so') ∧
        eval types env (refIsNullReplacement f curr).1 (n + 5)
          (refIsNullReplacement f curr).2 sn = (fl, sn')) ∧
      (∀ x so' sn',
        eval types env f₀ m ref₀ so = (.normal (some (.ref a)), so') →
        eval types env f (n + 2) ref sn = (.normal x, sn') →
        eval types env f₀ (m + 1) curr₀ so = (.normal (some (.i32 0)), so') ∧
        eval types env (refIsNullReplacement f curr).1 (n + 5)
          (refIsNullReplacement f curr).2 sn = (.normal (some (.i32 0)), sn'))) ∧
    (∀ curr₀ curr ref₀ ref castType,
      f₀.expr? curr₀ = some (.refTest ref₀ castType) →
      f.expr? curr = some (.refTest ref castType) →
      (∀ fl so' sn', (∀ v, fl ≠ .normal v) →
        eval types env f₀ m ref₀ so = (fl, so') → eval types env f (n + 2) ref sn = (fl, sn') →
        eval types env f₀ (m + 1) curr₀ so = (fl, so') ∧
        eval types env (s2l.refTestReplacement f ref castType).1 (n + 4)
          (s2l.refTestReplacement f ref castType).2 sn = (fl, sn')) ∧
      (∀ x so' sn' o, s2l.types = types →
        eval types env f₀ m ref₀ so = (.normal (some (.ref a)), so') →
        eval types env f (n + 2) ref sn = (.normal x, sn') →
        so'.heap[a]? = some o → s2l.allocType = .ref (.defined o.type) false →
        eval types env f₀ (m + 1) curr₀ so =
          (.normal (some (Literal.ofBool (Ty.isSubType types s2l.allocType castType))), so') ∧
        eval types env (s2l.refTestReplacement f ref castType).1 (n + 4)
          (s2l.refTestReplacement f ref castType).2 sn =
          (.normal (some (Literal.ofBool (Ty.isSubType types s2l.allocType castType))), sn'))) ∧
    (∀ curr₀ curr l₀ r₀ l r,
      f₀.expr? curr₀ = some (.refEq l₀ r₀) → f.expr? curr = some (.refEq l r) →
      (∀ result fl so' sn', seqEval (eval types env f₀ m) [l₀, r₀] so = (.error fl, so') →
        seqEval (eval types env f (n + 2)) [l, r] sn = (.error fl, sn') →
        eval types env f₀ (m + 1) curr₀ so = (fl, so') ∧
        eval types env (refEqReplacement f l r result).1 (n + 4)
          (refEqReplacement f l r result).2 sn = (fl, sn')) ∧
      (∀ (bl br : Bool) vl vr x y so' sn',
        seqEval (eval types env f₀ m) [l₀, r₀] so = (.ok [vl, vr], so') →
        seqEval (eval types env f (n + 2)) [l, r] sn = (.ok [x, y], sn') →
        (bl = true ↔ vl = some (.ref a)) → (br = true ↔ vr = some (.ref a)) →
        (bl || br) = true →
        eval types env f₀ (m + 1) curr₀ so = (.normal (some (Literal.ofBool (bl && br))), so') ∧
        eval types env (refEqReplacement f l r (bl && br)).1 (n + 4)
          (refEqReplacement f l r (bl && br)).2 sn =
          (.normal (some (Literal.ofBool (bl && br))), sn'))) ∧
    (∀ curr₀ curr ref₀ ref,
      f₀.expr? curr₀ = some (.refGetDesc ref₀) → f.expr? curr = some (.refGetDesc ref) →
      (∀ fl so' sn', (∀ v, fl ≠ .normal v) →
        eval types env f₀ m ref₀ so = (fl, so') → eval types env f (n + 2) ref sn = (fl, sn') →
        eval types env f₀ (m + 1) curr₀ so = (fl, so') ∧
        eval types env (s2l.refGetDescReplacement f ref).1 (n + 4)
          (s2l.refGetDescReplacement f ref).2 sn = (fl, sn')) ∧
      (∀ x so' sn' o dv,
        eval types env f₀ m ref₀ so = (.normal (some (.ref a)), so') →
        eval types env f (n + 2) ref sn = (.normal x, sn') →
        so'.heap[a]? = some o → o.desc = some dv →
        sn'.locals[s2l.localIndexes.getD s2l.fields.length 0]? = some dv →
        eval types env f₀ (m + 1) curr₀ so = (.normal (some dv), so') ∧
        eval types env (s2l.refGetDescReplacement f ref).1 (n + 4)
          (s2l.refGetDescReplacement f ref).2 sn = (.normal (some dv), sn'))) := by
  have hone : ∀ {ref : ExprId}, ref < f.exprs.length → ∀ v,
      eval types env (dropsThenConst f [ref] v).1 (n + 4) (dropsThenConst f [ref] v).2 sn =
        andThen (eval types env f (n + 2) ref sn) fun _ s => (.normal (some v), s) := by
    intro ref href v
    rw [dropsThenConst_eval types env hf (by simpa using href)]
    simp only [seqEval]
    rcases eval types env f (n + 2) ref sn with ⟨_ | _ | _ | _ | _, s'⟩ <;> rfl
  refine ⟨fun curr₀ curr ref₀ ref h₀ h => ?_, fun curr₀ curr ref₀ ref castType h₀ h => ?_,
    fun curr₀ curr l₀ r₀ l r h₀ h => ?_, fun curr₀ curr ref₀ ref h₀ h => ?_⟩
  all_goals rw [eval_of_expr? types env h₀]
  case refine_1 =>
    -- `ref.is_null`: the test itself is dropped
    have hrepl : eval types env (refIsNullReplacement f curr).1 (n + 5)
        (refIsNullReplacement f curr).2 sn =
        andThen (eval types env f (n + 2) ref sn) fun _ s => (.normal (some (.i32 0)), s) := by
      rw [refIsNullReplacement, dropsThenConst_eval types env hf
        (by simpa using lt_of_expr? h) _ (n + 3)]
      simp only [seqEval, eval_of_expr? types env h, evalStep]
      rcases eval types env f (n + 2) ref sn with ⟨_ | _ | _ | _ | _, s'⟩ <;> rfl
    refine ⟨fun fl so' sn' hn h₁ h₂ => ?_, fun x so' sn' h₁ h₂ => ?_⟩ <;>
      simp only [evalStep, hrepl, h₁, h₂, andThen]
    · cases fl with
      | normal v => exact absurd rfl (hn v)
      | _ => exact ⟨rfl, rfl⟩
    · simp [Literal.ofBool]
  case refine_2 =>
    -- `ref.test`: decided by the allocation's type
    have hrepl := hone (children_lt_of_expr? hf h ref (List.mem_cons_self _ _))
      (.i32 (if Ty.isSubType s2l.types s2l.allocType castType then 1 else 0))
    refine ⟨fun fl so' sn' hn h₁ h₂ => ?_, fun x so' sn' o htypes h₁ h₂ ho halloc => ?_⟩ <;>
      simp only [refTestReplacement, evalStep, hrepl, h₁, h₂, andThen]
    · cases fl with
      | normal v => exact absurd rfl (hn v)
      | _ => exact ⟨rfl, rfl⟩
    · rw [castOk_allocation types ho rfl, ← halloc, htypes]
      exact ⟨rfl, rfl⟩
  case refine_3 =>
    -- `ref.eq`: both operands dropped
    have hrepl : ∀ result, eval types env (refEqReplacement f l r result).1 (n + 4)
        (refEqReplacement f l r result).2 sn =
        match seqEval (eval types env f (n + 2)) [l, r] sn with
        | (.ok _, s) => (.normal (some (Literal.ofBool result)), s)
        | (.error fl, s) => (fl, s) :=
      fun result => dropsThenConst_eval types env hf (children_lt_of_expr? hf h) _ _ sn
    refine ⟨fun result fl so' sn' h₁ h₂ => ?_,
      fun bl br vl vr x y so' sn' h₁ h₂ hl hr hlr => ?_⟩ <;>
      simp only [evalStep, hrepl, h₁, h₂, andThenAll, and_self, and_true]
    rw [decide_eq_of_flows hl hr hlr]
  case refine_4 =>
    -- `ref.get_desc`: read from the descriptor's local
    have hrepl := s2l.refGetDescReplacement_eval types env hf
      (children_lt_of_expr? hf h ref (List.mem_cons_self _ _)) n sn
    refine ⟨fun fl so' sn' hn h₁ h₂ => ?_, fun x so' sn' o dv h₁ h₂ ho hdv hloc => ?_⟩ <;>
      simp only [evalStep, hrepl, h₁, h₂, andThen]
    · cases fl with
      | normal v => exact absurd rfl (hn v)
      | _ => exact ⟨rfl, rfl⟩
    · simp only [State.getObj, ho, Option.some_bind, hdv, hloc, and_self]

/-- The allocation `(struct.new_desc $Point (struct.new $Point.desc))` at 1, tested by `e` at 2. -/
def pointOp (e : Expr) (type : Ty) : Function :=
  ⟨[], [], [⟨.structNew [] none, .ref (.defined 1) false⟩,
    ⟨.structNew [] (some 0), .ref (.defined 0) false⟩, ⟨e, type⟩], 2⟩

/-- `(ref.eq (local.tee $x A) (local.get $x))` for the same allocation `A` at 1. -/
def pointEq : Function :=
  ⟨[], [.ref (.defined 0) true],
    [⟨.structNew [] none, .ref (.defined 1) false⟩,
      ⟨.structNew [] (some 0), .ref (.defined 0) false⟩,
      ⟨.localSet 0 1 true, .ref (.defined 0) false⟩, ⟨.localGet 0, .ref (.defined 0) true⟩,
      ⟨.refEq 2 3, .i32⟩], 4⟩

/-- The local graph of `pointEq`: the `local.get` at 3 reads the tee at 2. -/
def pointEqLocalGraph : LocalGraph :=
  ⟨fun set => if set = 2 then [3] else [], fun get => if get = 3 then [some 2] else []⟩

/-- `pointOp e` as the walk of `Struct2Local` leaves it before the test `e`: the allocation is
the block at 7, which stores the descriptor in local 0 through the temp local 1. -/
def pointOpWalked (e : Expr) (type : Ty) : Function :=
  ⟨[], [.ref (.defined 1) false, .ref (.defined 1) false],
    [⟨.structNew [] none, .ref (.defined 1) false⟩,
      ⟨.structNew [] (some 0), .ref (.defined 0) false⟩,
      ⟨e, type⟩, ⟨.localSet 1 0 false, .none⟩, ⟨.localGet 1, .ref (.defined 1) false⟩,
      ⟨.localSet 0 4 false, .none⟩, ⟨.refNull, .ref (.defined 0) true⟩,
      ⟨.block none [3, 5, 6], .ref (.defined 0) true⟩], 2⟩

/-- `pointEq` as the walk leaves it before `ref.eq`: the tee is the block at 9 that stands for the
allocation, and the `local.get` the null at 10. -/
def pointEqWalked : Function :=
  ⟨[], [.ref (.defined 0) true, .ref (.defined 1) false, .ref (.defined 1) false],
    [⟨.structNew [] none, .ref (.defined 1) false⟩,
      ⟨.structNew [] (some 0), .ref (.defined 0) false⟩,
      ⟨.localSet 0 9 true, .ref (.defined 0) false⟩, ⟨.localGet 0, .ref (.defined 0) true⟩,
      ⟨.refEq 9 10, .i32⟩, ⟨.localSet 2 0 false, .none⟩, ⟨.localGet 2, .ref (.defined 1) false⟩,
      ⟨.localSet 1 6 false, .none⟩, ⟨.refNull, .ref (.defined 0) true⟩,
      ⟨.block none [5, 7, 8], .ref (.defined 0) true⟩, ⟨.refNull, .ref (.defined 0) true⟩], 4⟩

theorem walkBefore_pointIsNull :
    (walkBefore describedTypes noLocalSets (pointOp (.refIsNull 1) .i32) 1 2).func =
      pointOpWalked (.refIsNull 7) .i32 := by
  decide

theorem walkBefore_pointTest :
    (walkBefore describedTypes noLocalSets (pointOp (.refTest 1 (.ref .struct false)) .i32) 1
      2).func = pointOpWalked (.refTest 7 (.ref .struct false)) .i32 := by
  decide

theorem walkBefore_pointEq :
    (walkBefore describedTypes pointEqLocalGraph pointEq 1 4).func = pointEqWalked := by
  decide

theorem walkBefore_pointGetDesc :
    (walkBefore describedTypes noLocalSets (pointOp (.refGetDesc 1) (.ref (.defined 1) false)) 1
      2).func = pointOpWalked (.refGetDesc 7) (.ref (.defined 1) false) := by
  decide

/-- On `$Point`, in the functions the walk of `Struct2Local` leaves: the allocation is not null,
is a struct, equals its copy in `$x`, and is described by the `$Point.desc` at 0; each
replacement answers the same from the locals. -/
theorem refTestReplacements_match_point :
    (walkBefore describedTypes noLocalSets (pointOp (.refIsNull 1) .i32) 1 2).func =
      pointOpWalked (.refIsNull 7) .i32 ∧
    eval describedTypes (fun _ _ => none) (pointOp (.refIsNull 1) .i32) 4 2 ⟨[], [], [], []⟩ =
      (.normal (some (.i32 0)), ⟨[], [], [⟨1, [], none⟩, ⟨0, [], some (.ref 0)⟩], []⟩) ∧
    eval describedTypes (fun _ _ => none)
        (refIsNullReplacement (pointOpWalked (.refIsNull 7) .i32) 2).1 6
        (refIsNullReplacement (pointOpWalked (.refIsNull 7) .i32) 2).2
        ⟨[.null, .null], [], [], []⟩ =
      (.normal (some (.i32 0)), ⟨[.ref 0, .ref 0], [], [⟨1, [], none⟩], []⟩) ∧
    (walkBefore describedTypes noLocalSets (pointOp (.refTest 1 (.ref .struct false)) .i32) 1
      2).func = pointOpWalked (.refTest 7 (.ref .struct false)) .i32 ∧
    eval describedTypes (fun _ _ => none) (pointOp (.refTest 1 (.ref .struct false)) .i32) 4 2
        ⟨[], [], [], []⟩ =
      (.normal (some (.i32 1)), ⟨[], [], [⟨1, [], none⟩, ⟨0, [], some (.ref 0)⟩], []⟩) ∧
    eval describedTypes (fun _ _ => none)
        ((make describedTypes (pointOp (.refTest 1 (.ref .struct false)) .i32)
          1).1.refTestReplacement (pointOpWalked (.refTest 7 (.ref .struct false)) .i32) 7
          (.ref .struct false)).1 5
        ((make describedTypes (pointOp (.refTest 1 (.ref .struct false)) .i32)
          1).1.refTestReplacement (pointOpWalked (.refTest 7 (.ref .struct false)) .i32) 7
          (.ref .struct false)).2
        ⟨[.null, .null], [], [], []⟩ =
      (.normal (some (.i32 1)), ⟨[.ref 0, .ref 0], [], [⟨1, [], none⟩], []⟩) ∧
    (walkBefore describedTypes pointEqLocalGraph pointEq 1 4).func = pointEqWalked ∧
    eval describedTypes (fun _ _ => none) pointEq 4 4 ⟨[.null], [], [], []⟩ =
      (.normal (some (.i32 1)), ⟨[.ref 1], [], [⟨1, [], none⟩, ⟨0, [], some (.ref 0)⟩], []⟩) ∧
    eval describedTypes (fun _ _ => none) (refEqReplacement pointEqWalked 9 10 true).1 5
        (refEqReplacement pointEqWalked 9 10 true).2 ⟨[.null, .null, .null], [], [], []⟩ =
      (.normal (some (.i32 1)), ⟨[.null, .ref 0, .ref 0], [], [⟨1, [], none⟩], []⟩) ∧
    (walkBefore describedTypes noLocalSets (pointOp (.refGetDesc 1) (.ref (.defined 1) false)) 1
      2).func = pointOpWalked (.refGetDesc 7) (.ref (.defined 1) false) ∧
    eval describedTypes (fun _ _ => none) (pointOp (.refGetDesc 1) (.ref (.defined 1) false)) 4 2
        ⟨[], [], [], []⟩ =
      (.normal (some (.ref 0)), ⟨[], [], [⟨1, [], none⟩, ⟨0, [], some (.ref 0)⟩], []⟩) ∧
    eval describedTypes (fun _ _ => none)
        ((make describedTypes (pointOp (.refGetDesc 1) (.ref (.defined 1) false))
          1).1.refGetDescReplacement (pointOpWalked (.refGetDesc 7) (.ref (.defined 1) false))
          7).1 5
        ((make describedTypes (pointOp (.refGetDesc 1) (.ref (.defined 1) false))
          1).1.refGetDescReplacement (pointOpWalked (.refGetDesc 7) (.ref (.defined 1) false))
          7).2
        ⟨[.null, .null], [], [], []⟩ =
      (.normal (some (.ref 0)), ⟨[.ref 0, .ref 0], [], [⟨1, [], none⟩], []⟩) := by
  have hnull := ((@refTestReplacements_match describedTypes (fun _ _ => none)
    (make describedTypes (pointOp (.refIsNull 1) .i32) 1).1 (pointOp (.refIsNull 1) .i32)
    (pointOpWalked (.refIsNull 7) .i32) (Function.childrenInRange_iff.2 (by decide)) 3 1
    ⟨[], [], [], []⟩ ⟨[.null, .null], [], [], []⟩ 1).1 2 2 1 7 rfl rfl).2 (some .null)
    ⟨[], [], [⟨1, [], none⟩, ⟨0, [], some (.ref 0)⟩], []⟩
    ⟨[.ref 0, .ref 0], [], [⟨1, [], none⟩], []⟩ rfl rfl
  have htest := ((@refTestReplacements_match describedTypes (fun _ _ => none)
    (make describedTypes (pointOp (.refTest 1 (.ref .struct false)) .i32) 1).1
    (pointOp (.refTest 1 (.ref .struct false)) .i32)
    (pointOpWalked (.refTest 7 (.ref .struct false)) .i32)
    (Function.childrenInRange_iff.2 (by decide)) 3 1 ⟨[], [], [], []⟩
    ⟨[.null, .null], [], [], []⟩ 1).2.1 2 2 1 7 (.ref .struct false) rfl rfl).2
    (some .null) ⟨[], [], [⟨1, [], none⟩, ⟨0, [], some (.ref 0)⟩], []⟩
    ⟨[.ref 0, .ref 0], [], [⟨1, [], none⟩], []⟩ ⟨0, [], some (.ref 0)⟩ rfl rfl rfl rfl rfl
  have heq := ((@refTestReplacements_match describedTypes (fun _ _ => none)
    (make describedTypes pointEq 1).1 pointEq pointEqWalked
    (Function.childrenInRange_iff.2 (by decide)) 3 1 ⟨[.null], [], [], []⟩
    ⟨[.null, .null, .null], [], [], []⟩ 1).2.2.1 4 4 2 3 9 10 rfl rfl).2
    true true (some (.ref 1)) (some (.ref 1)) (some .null) (some .null)
    ⟨[.ref 1], [], [⟨1, [], none⟩, ⟨0, [], some (.ref 0)⟩], []⟩
    ⟨[.null, .ref 0, .ref 0], [], [⟨1, [], none⟩], []⟩ rfl rfl (iff_of_true rfl rfl)
    (iff_of_true rfl rfl) rfl
  have hdesc := ((@refTestReplacements_match describedTypes (fun _ _ => none)
    (make describedTypes (pointOp (.refGetDesc 1) (.ref (.defined 1) false)) 1).1
    (pointOp (.refGetDesc 1) (.ref (.defined 1) false))
    (pointOpWalked (.refGetDesc 7) (.ref (.defined 1) false))
    (Function.childrenInRange_iff.2 (by decide)) 3 1 ⟨[], [], [], []⟩
    ⟨[.null, .null], [], [], []⟩ 1).2.2.2 2 2 1 7 rfl rfl).2 (some .null)
    ⟨[], [], [⟨1, [], none⟩, ⟨0, [], some (.ref 0)⟩], []⟩
    ⟨[.ref 0, .ref 0], [], [⟨1, [], none⟩], []⟩ ⟨0, [], some (.ref 0)⟩ (.ref 0) rfl rfl rfl rfl rfl
  exact ⟨walkBefore_pointIsNull, hnull.1, hnull.2, walkBefore_pointTest, htest.1.trans rfl,
    htest.2.trans rfl, walkBefore_pointEq, heq.1, heq.2, walkBefore_pointGetDesc, hdesc.1, hdesc.2⟩

end Struct2Local

end BinaryenPasses.Heap2Local
