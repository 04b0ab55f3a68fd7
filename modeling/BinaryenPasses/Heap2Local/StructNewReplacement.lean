import BinaryenPasses.Heap2Local.Struct2Local
import BinaryenPasses.IR.Metatheory
import Mathlib.Data.List.Forall2

/-!
# The block that replaces a `struct.new`

`Struct2Local::visitStructNew` replaces a non-escaping allocation by a block that first sets
fresh temps to the operands and the descriptor, in order, then copies the temps (or the zeros
of a `struct.new_default`) into the field locals and the descriptor local, and ends in a null.
This file proves that the block does what the allocation did, for every allocation, every
operand list and every state of the locals:

* `structNewReplacement_layout` — where the builders put each part of the block, in a function
  that extends the one they started from;
* `seqEval_stage` — **staging**: the sets of the temps run the operands as the allocation runs
  them, and leave their values in the temps;
* `seqEval_storeLocals` — **copying**: from there, every field local gets its value, the
  descriptor local the descriptor, and the block yields null, whatever the field locals held
  before;
* **`structNewReplacement_replaces_allocation`** — the block against the allocation: when the
  operands fail, or the descriptor is null, the block ends the same way in the same state; when
  the allocation completes, the block yields null and the field locals hold the operands'
  values (or the zeros), the descriptor local the descriptor.

The two functions are compared on the locals of the function before the rewrite: the temps
come after them.
-/


namespace BinaryenPasses.Heap2Local

open BinaryenPasses.IR

/-- The expression `Builder::makeConstantExpression` builds for the zero of a type. -/
def zeroExpression : Ty → Expr
  | .ref _ _ => .refNull
  | t => .const (Literal.makeZero t)

theorem expr?_makeConstantExpression (f : Function) (t : Ty) :
    (Builder.makeConstantExpression f t).1.expr? (Builder.makeConstantExpression f t).2 =
      some (zeroExpression t) := by
  cases t <;> exact Builder.expr?_alloc _ _

theorem makeConstantExpression_extends (f : Function) (t : Ty) :
    f.Extends (Builder.makeConstantExpression f t).1 := by
  cases t <;> exact Builder.alloc_extends _ _

namespace Struct2Local

variable (s2l : Struct2Local)

/-! ## What each builder builds -/

/-- The sets of the temps to the operands, one per field, when the operands are explicit. -/
theorem storeOperands_spec (f : Function) (ts : List Nat) (ops : List ExprId) {g : Function}
    (hg : (s2l.storeOperands f ts ops).1.Extends g) :
    f.Extends g ∧ List.Forall₂
      (fun j id => g.expr? id = some (.localSet (ts.getD j 0) (ops.getD j 0) false))
      (if ops.isEmpty then [] else List.range s2l.fields.length) (s2l.storeOperands f ts ops).2 := by
  unfold storeOperands at hg ⊢
  by_cases h : ops.isEmpty <;> simp only [h, if_true, if_false, Bool.false_eq_true] at hg ⊢
  · exact ⟨hg, .nil⟩
  · exact Builder.buildEach_spec _
      (fun j g id => g.expr? id = some (.localSet (ts.getD j 0) (ops.getD j 0) false))
      (fun _ _ => ⟨Builder.alloc_extends _ _, Builder.expr?_alloc _ _⟩)
      (fun _ _ _ _ h p => h.expr? p) _ f g hg

/-- The set of the last temp to the descriptor, through a `ref.as_non_null` when its type is
nullable. -/
theorem storeDescriptor_spec (f : Function) (ts : List Nat) (desc : Option ExprId) {g : Function}
    (hg : (storeDescriptor f ts desc).1.Extends g) :
    f.Extends g ∧ (storeDescriptor f ts desc).2.length = desc.toList.length ∧
      ∀ d ∈ desc, ∃ set d', (storeDescriptor f ts desc).2 = [set] ∧
        g.expr? set = some (.localSet (ts.getD (ts.length - 1) 0) d' false) ∧
        if (f.typeOf d).isNullable then g.expr? d' = some (.refAs .nonNull d) else d' = d := by
  cases desc with
  | none => exact ⟨hg, rfl, by simp⟩
  | some d =>
    simp only [storeDescriptor, Option.mem_def, Option.some.injEq, forall_eq'] at hg ⊢
    by_cases hn : (f.typeOf d).isNullable <;> simp only [hn, if_true, if_false] at hg ⊢
    · have h1 : (Builder.makeRefAs f .nonNull d).1.Extends g :=
        (Builder.alloc_extends _ _).trans hg
      exact ⟨(Builder.alloc_extends _ _).trans h1, rfl, _, _, rfl,
        hg.expr? (Builder.expr?_alloc _ _), h1.expr? (Builder.expr?_alloc _ _)⟩
    · exact ⟨(Builder.alloc_extends _ _).trans hg, rfl, _, _, rfl,
        hg.expr? (Builder.expr?_alloc _ _), rfl⟩

/-- The sets of the field locals to the temps, or to the zeros. -/
theorem storeFields_spec (f : Function) (ts : List Nat) (withDefault : Bool) {g : Function}
    (hg : (s2l.storeFields f ts withDefault).1.Extends g) :
    f.Extends g ∧ List.Forall₂ (fun j id => ∃ val,
        g.expr? id = some (.localSet (s2l.localIndexes.getD j 0) val false) ∧
        g.expr? val = some (if withDefault then zeroExpression (s2l.fields.getD j default).type
          else .localGet (ts.getD j 0)))
      (List.range s2l.fields.length) (s2l.storeFields f ts withDefault).2 := by
  refine Builder.buildEach_spec _ (fun j g id => ∃ val,
      g.expr? id = some (.localSet (s2l.localIndexes.getD j 0) val false) ∧
      g.expr? val = some (if withDefault then zeroExpression (s2l.fields.getD j default).type
        else .localGet (ts.getD j 0))) (fun f j => ?_) (fun _ _ _ _ h ⟨val, h1, h2⟩ =>
    ⟨val, h.expr? h1, h.expr? h2⟩) _ f g hg
  cases withDefault
  · exact ⟨(Builder.alloc_extends _ _).trans (Builder.alloc_extends _ _), _,
      Builder.expr?_alloc _ _, (Builder.alloc_extends _ _).expr? (Builder.expr?_alloc _ _)⟩
  · exact ⟨(makeConstantExpression_extends _ _).trans (Builder.alloc_extends _ _), _,
      Builder.expr?_alloc _ _, (Builder.alloc_extends _ _).expr? (expr?_makeConstantExpression _ _)⟩

/-- The set of the descriptor local to the last temp. -/
theorem storeDescriptorLocal_spec (f : Function) (ts : List Nat) (desc : Option ExprId)
    {g : Function} (hg : (s2l.storeDescriptorLocal f ts desc).1.Extends g) :
    f.Extends g ∧ (s2l.storeDescriptorLocal f ts desc).2.length = desc.toList.length ∧
      ∀ d ∈ desc, ∃ set val, (s2l.storeDescriptorLocal f ts desc).2 = [set] ∧
        g.expr? set = some (.localSet (s2l.localIndexes.getD s2l.fields.length 0) val false) ∧
        g.expr? val = some (.localGet (ts.getD (ts.length - 1) 0)) := by
  cases desc with
  | none => exact ⟨hg, rfl, by simp⟩
  | some d =>
    simp only [storeDescriptorLocal, Option.mem_def, Option.some.injEq, forall_eq'] at hg ⊢
    have h1 : (Builder.makeLocalGet f (ts.getD (ts.length - 1) 0) (f.typeOf d)).1.Extends g :=
      (Builder.alloc_extends _ _).trans hg
    exact ⟨(Builder.alloc_extends _ _).trans h1, rfl, _, _, rfl,
      hg.expr? (Builder.expr?_alloc _ _), h1.expr? (Builder.expr?_alloc _ _)⟩

theorem makeConstantExpression_numLocals (f : Function) (t : Ty) :
    (Builder.makeConstantExpression f t).1.numLocals = f.numLocals := by
  cases t <;> rfl

/-- None of the four parts adds a local. -/
theorem store_numLocals (f : Function) (ts : List Nat) (ops : List ExprId) (desc : Option ExprId)
    (withDefault : Bool) :
    (s2l.storeOperands f ts ops).1.numLocals = f.numLocals ∧
    (storeDescriptor f ts desc).1.numLocals = f.numLocals ∧
    (s2l.storeFields f ts withDefault).1.numLocals = f.numLocals ∧
    (s2l.storeDescriptorLocal f ts desc).1.numLocals = f.numLocals := by
  refine ⟨?_, ?_, Builder.buildEach_numLocals _ (fun f j => ?_) _ f, ?_⟩
  · unfold storeOperands
    split
    · rfl
    · exact Builder.buildEach_numLocals _ (fun _ _ => rfl) _ f
  · cases desc with
    | none => rfl
    | some d =>
      simp only [storeDescriptor]
      split <;> rfl
  · cases withDefault
    · rfl
    · show (match Builder.makeConstantExpression f (s2l.fields.getD j default).type with
        | (f, val) => Builder.makeLocalSet f (s2l.localIndexes.getD j 0) val).1.numLocals = _
      cases (s2l.fields.getD j default).type <;> rfl
  · cases desc <;> rfl

/-! ## Staging and copying -/

variable (types : TypeSection) (env : CallEnv)

theorem eval_zeroExpression {g : Function} {id : ExprId} {t : Ty}
    (h : g.expr? id = some (zeroExpression t)) (m : Nat) (S : State) :
    eval types env g (m + 1) id S = (.normal (some (Literal.makeZero t)), S) := by
  rw [eval_of_expr? types env h]
  cases t <;> rfl

/-- How a run of staging sets relates to the run of the operands it stages: when the operands
complete, the temps hold their values; otherwise the sets fail the same way, in the same state
below `N`. -/
def Staged (N : Nat) (temps : List Nat) :
    Except Flow (List (Option Literal)) × State → Except Flow (List (Option Literal)) × State →
      Prop
  | (.ok vs, s), r => r = (.ok (vs.map fun _ => none), s.setLocals temps (vs.map (·.getD .null)))
  | (.error fl, s), r => r.1 = .error fl ∧ r.2.takeLocals N = s.takeLocals N

section stage

variable {f g : Function} {N n : Nat}

/-- **Staging.**  Setting fresh temps to the operands one by one runs the operands as they run
in `f`, and leaves their values in the temps. -/
theorem seqEval_stage (hfree : ∀ k, N ≤ k → f.LocalFree k) :
    ∀ {ps : List (Nat × ExprId)} {ids : List ExprId},
      List.Forall₂ (fun p id => g.expr? id = some (.localSet p.1 p.2 false)) ps ids →
      (∀ p ∈ ps, N ≤ p.1) →
      (∀ p ∈ ps, ∀ s, (eval types env f n p.2 s).1 ≠ .outOfFuel →
        eval types env g (n + 1) p.2 s = eval types env f n p.2 s) →
      ∀ s, YieldsValues (eval types env f n) (ps.map Prod.snd) s →
      (seqEval (eval types env f n) (ps.map Prod.snd) s).1 ≠ .error .outOfFuel →
        Staged N (ps.map Prod.fst) (seqEval (eval types env f n) (ps.map Prod.snd) s)
          (seqEval (eval types env g (n + 2)) ids s)
  | [], [], .nil, _, _, s, _, _ => rfl
  | (t, o) :: ps, id :: ids, .cons hid hrest, hN, href, s, hv, hne => by
    simp only [List.map_cons, seqEval] at hne ⊢
    rw [eval_of_expr? types env hid]
    simp only [evalStep]
    rcases ho : eval types env f n o s with ⟨fl, s1⟩
    rw [ho] at hne
    have hno : fl ≠ .outOfFuel := by rintro rfl; exact hne rfl
    rw [href _ (.head _) s (by rw [ho]; exact hno), ho]
    cases fl with
    | normal v =>
      cases v with
      | none => exact absurd ho hv.head
      | some v =>
        have hcomm := seqEval_setLocal
          (@eval_setLocal types env t v f (hfree t (hN _ (.head _))) n) (ps.map Prod.snd) s1
        have ih := seqEval_stage hfree hrest (fun p hp => hN p (.tail _ hp))
          (fun p hp => href p (.tail _ hp)) (s1.setLocal t v)
          ((hv.tail ho).setLocal (eval_setLocal types env (hfree t (hN _ (.head _))) n))
        rw [hcomm] at ih
        simp only [andThen, Bool.false_eq_true, if_false] at hne ⊢
        rcases hr : seqEval (eval types env f n) (ps.map Prod.snd) s1 with ⟨_ | vs, s2⟩ <;>
          simp only [hr] at ih hne
        · obtain ⟨h1, h2⟩ := ih (by simpa using hne)
          rcases hg : seqEval (eval types env g (n + 2)) ids (s1.setLocal t v) with ⟨_ | _, u⟩ <;>
            rw [hg] at h1 h2 <;> cases h1
          exact ⟨rfl, by rw [h2, State.takeLocals_setLocal_of_le _ (hN _ (.head _))]⟩
        · rw [ih (by simp)]
          rfl
    | _ => exact ⟨rfl, rfl⟩

end stage

section copy

variable {g : Function} {N : Nat} {S : State}

/-- **Copying.**  Setting locals below `N` to values that only read locals from `N` on (or are
constants) stores those values, whatever the locals below `N` hold. -/
theorem seqEval_copy (m : Nat) :
    ∀ {ps : List (Nat × Literal)} {ids : List ExprId},
      List.Forall₂ (fun p id => ∃ val, g.expr? id = some (.localSet p.1 val false) ∧
        ∀ S', (∀ k, N ≤ k → S'.locals[k]? = S.locals[k]?) →
          eval types env g m val S' = (.normal (some p.2), S')) ps ids →
      (∀ p ∈ ps, p.1 < N) →
      ∀ S', (∀ k, N ≤ k → S'.locals[k]? = S.locals[k]?) →
        seqEval (eval types env g (m + 1)) ids S' =
          (.ok (ids.map fun _ => none), S'.setLocals (ps.map Prod.fst) (ps.map Prod.snd))
  | [], [], .nil, _, _, _ => rfl
  | (l, w) :: ps, id :: ids, .cons ⟨val, hid, hval⟩ hrest, hlt, S', hS' => by
    have hl : l < N := hlt _ (.head _)
    simp only [seqEval, List.map_cons, State.setLocals_cons]
    rw [eval_of_expr? types env hid]
    simp only [evalStep, hval S' hS', andThen, Bool.false_eq_true, if_false]
    rw [seqEval_copy m hrest (fun p hp => hlt p (.tail _ hp)) (S'.setLocal l w) fun k hk => by
      rw [State.getElem?_locals_setLocal _ _ _ (by omega), hS' k hk]]

end copy

/-! ## Where the block's parts are -/

theorem forall₂_imp_of_mem {α β : Type} {R S : α → β → Prop} :
    ∀ {l₁ : List α} {l₂ : List β}, (∀ a ∈ l₁, ∀ b, R a b → S a b) → List.Forall₂ R l₁ l₂ →
      List.Forall₂ S l₁ l₂
  | _, _, _, .nil => .nil
  | a :: _, _, H, .cons h t =>
    .cons (H a (.head _) _ h) (forall₂_imp_of_mem (fun a' ha' => H a' (.tail _ ha')) t)

theorem map_range_getD {α : Type} (l : List α) (d : α) :
    (List.range l.length).map (l.getD · d) = l :=
  List.ext_getElem (by simp) fun j _ h => by simp [List.getElem?_eq_getElem h]

theorem tempTypes_length (f : Function) (ops : List ExprId) (desc : Option ExprId) :
    (s2l.tempTypes f ops desc).length =
      (if ops.isEmpty then 0 else s2l.fields.length) + desc.toList.length := by
  cases hE : ops.isEmpty <;> cases desc <;> simp [tempTypes, hE]

/-- Where `structNewReplacement` puts what: the block, its null, the sets of the temps (the
`N`-th local on, `N` the function's number of locals) to the operands and the descriptor, and
the sets of the field locals to the temps or the zeros, in a function that extends `f` and has
room for the temps. -/
theorem structNewReplacement_layout (f : Function) (ops : List ExprId) (desc : Option ExprId)
    (hd : ∀ d ∈ desc, d < f.exprs.length) {g : Function} {B : ExprId}
    (h : s2l.structNewReplacement f ops desc = (g, B)) :
    ∃ opSets descSet fieldSets descFieldSet null,
      f.Extends g ∧ g.numLocals = f.numLocals + (s2l.tempTypes f ops desc).length ∧
      g.expr? B = some (.block none (opSets ++ descSet ++ fieldSets ++ descFieldSet ++ [null])) ∧
      g.expr? null = some .refNull ∧
      List.Forall₂ (fun j id => g.expr? id = some (.localSet (f.numLocals + j) (ops.getD j 0) false))
        (if ops.isEmpty then [] else List.range s2l.fields.length) opSets ∧
      descSet.length = desc.toList.length ∧
      (∀ d ∈ desc, ∃ set d', descSet = [set] ∧
        g.expr? set = some (.localSet (f.numLocals + (if ops.isEmpty then 0 else s2l.fields.length))
          d' false) ∧
        if (f.typeOf d).isNullable then g.expr? d' = some (.refAs .nonNull d) else d' = d) ∧
      List.Forall₂ (fun j id => ∃ val,
        g.expr? id = some (.localSet (s2l.localIndexes.getD j 0) val false) ∧
        g.expr? val = some (if ops.isEmpty then zeroExpression (s2l.fields.getD j default).type
          else .localGet (f.numLocals + j)))
        (List.range s2l.fields.length) fieldSets ∧
      descFieldSet.length = desc.toList.length ∧
      ∀ d ∈ desc, ∃ set val, descFieldSet = [set] ∧
        g.expr? set = some (.localSet (s2l.localIndexes.getD s2l.fields.length 0) val false) ∧
        g.expr? val = some (.localGet (f.numLocals +
          (if ops.isEmpty then 0 else s2l.fields.length))) := by
  have hnT := s2l.tempTypes_length f ops desc
  simp only [structNewReplacement] at h
  rcases h1 : Builder.addVars f (s2l.tempTypes f ops desc) with ⟨f1, ts⟩
  rcases h2 : s2l.storeOperands f1 ts ops with ⟨f2, opSets⟩
  rcases h3 : storeDescriptor f2 ts desc with ⟨f3, descSet⟩
  rcases h4 : s2l.storeFields f3 ts ops.isEmpty with ⟨f4, fieldSets⟩
  rcases h5 : s2l.storeDescriptorLocal f4 ts desc with ⟨f5, descFieldSet⟩
  rcases h6 : Builder.makeRefNull f5 s2l.allocType.getHeapType with ⟨f6, null⟩
  simp only [h1, h2, h3, h4, h5, h6] at h
  obtain ⟨e6, hB⟩ := Builder.alloc_spec h
  obtain ⟨e5, hnull⟩ := Builder.alloc_spec h6
  have hts : ts = List.range' f.numLocals (s2l.tempTypes f ops desc).length := by
    rw [← Builder.addVars_indexes, h1]
  have e1 : f.Extends f1 := ⟨[], by rw [← Builder.addVars_exprs f (s2l.tempTypes f ops desc), h1,
    List.append_nil]⟩
  have n1 : f1.numLocals = f.numLocals + (s2l.tempTypes f ops desc).length := by
    rw [← Builder.addVars_numLocals, h1]
  have hget : ∀ j, j < (s2l.tempTypes f ops desc).length → ts.getD j 0 = f.numLocals + j := by
    intro j hj
    rw [hts, List.getD_eq_getElem?_getD, List.getElem?_range' _ _ hj]
    simp
  obtain ⟨e4, hdl, hdesc'⟩ := s2l.storeDescriptorLocal_spec f4 ts desc
    (show (s2l.storeDescriptorLocal f4 ts desc).1.Extends g by rw [h5]; exact e5.trans e6)
  obtain ⟨e3, hfields⟩ := s2l.storeFields_spec f3 ts ops.isEmpty (by rw [h4]; exact e4)
  obtain ⟨e2, hdl', hdesc⟩ := storeDescriptor_spec f2 ts desc (by rw [h3]; exact e3)
  obtain ⟨e1', hops⟩ := s2l.storeOperands_spec f1 ts ops (by rw [h2]; exact e2)
  rw [h5] at hdl hdesc'
  rw [h4] at hfields
  rw [h3] at hdl' hdesc
  rw [h2] at hops
  have hlast : ∀ d ∈ desc, ts.getD (ts.length - 1) 0 =
      f.numLocals + (if ops.isEmpty then 0 else s2l.fields.length) := by
    rintro d rfl
    rw [hget _ (by rw [hts, List.length_range', hnT]; simp), hts, List.length_range', hnT]
    simp
  have e2' : f.Extends f2 :=
    e1.trans (s2l.storeOperands_spec f1 ts ops
      (show (s2l.storeOperands f1 ts ops).1.Extends f2 by rw [h2]; exact .refl _)).1
  refine ⟨opSets, descSet, fieldSets, descFieldSet, null, e1.trans e1', ?_, hB, e6.expr? hnull,
    forall₂_imp_of_mem (fun j hj id h => ?_) hops, hdl', fun d hd' => ?_,
    forall₂_imp_of_mem (fun j hj id h => ?_) hfields, hdl, fun d hd' => ?_⟩
  · obtain ⟨n2, -, -, -⟩ := s2l.store_numLocals f1 ts ops desc ops.isEmpty
    obtain ⟨-, n3, -, -⟩ := s2l.store_numLocals f2 ts ops desc ops.isEmpty
    obtain ⟨-, -, n4, -⟩ := s2l.store_numLocals f3 ts ops desc ops.isEmpty
    obtain ⟨-, -, -, n5⟩ := s2l.store_numLocals f4 ts ops desc ops.isEmpty
    rw [h2] at n2
    rw [h3] at n3
    rw [h4] at n4
    rw [h5] at n5
    calc g.numLocals = f6.numLocals := (congrArg (fun p => p.1.numLocals) h).symm
      _ = f5.numLocals := (congrArg (fun p => p.1.numLocals) h6).symm
      _ = f1.numLocals := by simp only at n2 n3 n4 n5; omega
      _ = _ := n1
  · cases hE : ops.isEmpty <;> simp only [hE, Bool.false_eq_true, if_false, if_true,
      List.mem_range, List.not_mem_nil] at hj
    rwa [hget j (by rw [hnT, hE]; simp only [Bool.false_eq_true, if_false]; omega)] at h
  · obtain ⟨set, d', h1, h2, h3⟩ := hdesc d hd'
    rw [hlast d hd', e2'.typeOf (hd d hd')] at *
    exact ⟨set, d', h1, h2, h3⟩
  · cases hE : ops.isEmpty <;> simp only [hE, Bool.false_eq_true, if_false, if_true] at h ⊢
    · simp only [List.mem_range] at hj
      rwa [hget j (by rw [hnT, hE]; simp only [Bool.false_eq_true, if_false]; omega)] at h
    · exact h
  · obtain ⟨set, val, h1, h2, h3⟩ := hdesc' d hd'
    rw [hlast d hd'] at h3
    exact ⟨set, val, h1, h2, h3⟩

/-! ## The block against the allocation -/

theorem seqEval_ok_length {go : ExprId → State → Flow × State} :
    ∀ {l : List ExprId} {s s' : State} {vs : List (Option Literal)},
      seqEval go l s = (.ok vs, s') → vs.length = l.length
  | [], _, _, _, h => by simp only [seqEval, Prod.mk.injEq, Except.ok.injEq] at h; rw [← h.1]; rfl
  | c :: l, s, s', vs, h => by
    simp only [seqEval] at h
    split at h
    · split at h
      · next heq =>
        simp only [Prod.mk.injEq, Except.ok.injEq] at h
        rw [← h.1, List.length_cons, seqEval_ok_length heq, List.length_cons]
      · simp at h
    · simp at h

theorem eval_block_none {g : Function} {B : ExprId} {L : List ExprId}
    (h : g.expr? B = some (.block none L)) (m : Nat) (s : State) :
    eval types env g (m + 1) B s =
      match seqEval (eval types env g m) L s with
      | (.ok vs, s) => (.normal (vs.getLast?.getD none), s)
      | (.error fl, s) => (fl, s) := by
  rw [eval_of_expr? types env h]
  simp only [evalStep]
  rcases seqEval (eval types env g m) L s with ⟨fl | vs, t⟩
  · cases fl <;> simp
  · rfl

theorem eval_localSet {g : Function} {id : ExprId} {i : Nat} {v : ExprId}
    (h : g.expr? id = some (.localSet i v false)) (m : Nat) (s : State) :
    eval types env g (m + 1) id s =
      andThen (eval types env g m v s) fun x s =>
        match x with
        | some x => (.normal none, s.setLocal i x)
        | none => (.trap, s) := by
  rw [eval_of_expr? types env h]
  rfl

/-- The second half of the block, from a state whose temps `N, N + 1, ...` hold `ws`: every field
local gets its temp's value (or its zero), the descriptor local the descriptor's temp, and the
block's value is the null. -/
theorem seqEval_storeLocals {g : Function} {N kt : Nat} (m : Nat) {locs : List Nat}
    {fields : List Field} {wd : Bool} {desc : Option ExprId} {ws : List Literal} {s' : State}
    {fieldSets descFieldSet : List ExprId} {null : ExprId}
    (hlen : N + ws.length ≤ s'.locals.length) (hkt : kt = if wd then 0 else fields.length)
    (hws : ws.length = kt + desc.toList.length)
    (hlt : ∀ j < fields.length + desc.toList.length, locs.getD j 0 < N)
    (hfields : List.Forall₂ (fun j id => ∃ val,
        g.expr? id = some (.localSet (locs.getD j 0) val false) ∧
        g.expr? val = some (if wd then zeroExpression (fields.getD j default).type
          else .localGet (N + j)))
      (List.range fields.length) fieldSets)
    (hdl : descFieldSet.length = desc.toList.length)
    (hdesc : ∀ d ∈ desc, ∃ set val, descFieldSet = [set] ∧
      g.expr? set = some (.localSet (locs.getD fields.length 0) val false) ∧
      g.expr? val = some (.localGet (N + kt)))
    (hnull : g.expr? null = some .refNull) :
    seqEval (eval types env g (m + 2)) (fieldSets ++ descFieldSet ++ [null])
      (s'.setLocals (List.range' N ws.length) ws) =
      (.ok ((fieldSets ++ descFieldSet).map (fun _ => none) ++ [some .null]),
        (s'.setLocals (List.range' N ws.length) ws).setLocals
          ((List.range fields.length).map (locs.getD · 0) ++
            desc.toList.map fun _ => locs.getD fields.length 0)
          ((List.range fields.length).map (fun j =>
            if wd then Literal.makeZero (fields.getD j default).type else ws.getD j .null) ++
            desc.toList.map fun _ => ws.getD kt .null)) := by
  have hread : ∀ j < ws.length, ∀ {val}, g.expr? val = some (.localGet (N + j)) → ∀ S',
      (∀ k, N ≤ k → S'.locals[k]? = (s'.setLocals (List.range' N ws.length) ws).locals[k]?) →
      eval types env g (m + 1) val S' = (.normal (some (ws.getD j .null)), S') := by
    intro j hj val hval S' hS'
    rw [eval_of_expr? types env hval]
    show (Flow.normal S'.locals[N + j]?, S') = _
    rw [hS' _ (Nat.le_add_right N j), State.getElem?_locals_setLocals_range' ws N j s' hlen hj,
      List.getD_eq_getElem?_getD, List.getElem?_eq_getElem hj]
    rfl
  have hF : List.Forall₂ (fun (p : Nat × Literal) id => ∃ val,
      g.expr? id = some (.localSet p.1 val false) ∧ ∀ S', (∀ k, N ≤ k →
        S'.locals[k]? = (s'.setLocals (List.range' N ws.length) ws).locals[k]?) →
        eval types env g (m + 1) val S' = (.normal (some p.2), S'))
      ((List.range fields.length).map (fun j => (locs.getD j 0,
        if wd then Literal.makeZero (fields.getD j default).type else ws.getD j .null)) ++
        desc.toList.map fun _ => (locs.getD fields.length 0, ws.getD kt .null))
      (fieldSets ++ descFieldSet) := by
    refine List.rel_append ?_ ?_
    · rw [List.forall₂_map_left_iff]
      refine forall₂_imp_of_mem (fun j hj id ⟨val, h1, h2⟩ => ⟨val, h1, fun S' hS' => ?_⟩) hfields
      cases wd
      · simp only [List.mem_range] at hj
        exact hread j (by simp at hkt; omega) h2 S' hS'
      · exact eval_zeroExpression types env h2 m S'
    · cases desc with
      | none =>
        rw [List.length_eq_zero.mp hdl]
        exact .nil
      | some d =>
        obtain ⟨set, val, rfl, h1, h2⟩ := hdesc d rfl
        exact .cons ⟨val, h1, hread kt (by simp at hws; omega) h2⟩ .nil
  have hlt' : ∀ p ∈ (List.range fields.length).map (fun j => (locs.getD j 0,
        if wd then Literal.makeZero (fields.getD j default).type else ws.getD j .null)) ++
        desc.toList.map (fun _ => (locs.getD fields.length 0, ws.getD kt .null)), p.1 < N := by
    intro p hp
    simp only [List.mem_append, List.mem_map, List.mem_range] at hp
    rcases hp with ⟨j, hj, rfl⟩ | ⟨d, hd, rfl⟩
    · exact hlt j (by omega)
    · exact hlt _ (by have := List.length_pos_of_mem hd; omega)
  rw [seqEval_append, seqEval_copy types env (m + 1) hF hlt' _ fun _ _ => rfl]
  simp only [seqEval, eval_of_expr? types env hnull, evalStep, List.map_append, List.map_map]
  rfl

/-- The values `visitStructNew`'s block leaves in the field locals then in the descriptor local,
given `vs`, the values of the operands then of the descriptor: the operands' values, or the zero
of each field's type for a `struct.new_default`. -/
def structNewValues (fields : List Field) (withDefault : Bool) (vs : List (Option Literal)) :
    List Literal :=
  (if withDefault then fields.map fun fl => Literal.makeZero fl.type else []) ++
    vs.map (·.getD .null)

/-- The temps are out of the function's view. -/
theorem takeLocals_setLocals_temps (s : State) (N l : Nat) (ws : List Literal) :
    (s.setLocals (List.range' N l) ws).takeLocals N = s.takeLocals N := by
  rw [State.takeLocals_setLocals]
  exact State.setLocals_of_length_le (fun k hk => by
    simp only [List.mem_range'_1] at hk
    simp only [State.takeLocals, List.length_take]
    omega) ws

/-- The temps, set before the field locals, are gone from the function's view. -/
theorem takeLocals_temps (s : State) (N l : Nat) (ws : List Literal) (locs : List Nat)
    (vals : List Literal) :
    ((s.setLocals (List.range' N l) ws).setLocals locs vals).takeLocals N =
      (s.setLocals locs vals).takeLocals N := by
  rw [State.takeLocals_setLocals, takeLocals_setLocals_temps, ← State.takeLocals_setLocals]

/-- Setting the next temp extends the run of temps. -/
theorem setLocals_range'_concat (s : State) (N : Nat) (ws : List Literal) (v : Literal) :
    (s.setLocals (List.range' N ws.length) ws).setLocal (N + ws.length) v =
      s.setLocals (List.range' N (ws ++ [v]).length) (ws ++ [v]) := by
  rw [List.length_append, List.length_singleton, List.range'_concat, Nat.one_mul,
    State.setLocals_append _ (by simp)]
  rfl

theorem storeValues_eq (fields : List Field) (wd : Bool) (ovs : List (Option Literal))
    (es : List Literal) (h : if wd then ovs = [] else ovs.length = fields.length) :
    (List.range fields.length).map (fun j => if wd then Literal.makeZero (fields.getD j default).type
      else (ovs.map (·.getD .null) ++ es).getD j .null) ++ es =
      structNewValues fields wd (ovs ++ es.map some) := by
  cases wd
  · simp only [Bool.false_eq_true, if_false] at h ⊢
    have : (List.range fields.length).map ((ovs.map (·.getD .null) ++ es).getD · .null) =
        ovs.map (·.getD .null) := by
      rw [← h, ← List.length_map ovs (·.getD Literal.null)]
      exact List.ext_getElem (by simp) fun j _ hj => by
        simp [List.getElem?_append_left hj, List.getElem?_eq_getElem hj]
    rw [this]
    simp [structNewValues, Function.comp_def]
  · simp only [if_true] at h ⊢
    subst h
    have := congrArg (List.map fun fl : Field => Literal.makeZero fl.type)
      (map_range_getD fields default)
    simp only [List.map_map, Function.comp_def] at this
    rw [this]
    simp [structNewValues, Function.comp_def]

/-- The copying half against the allocation's values: from a state whose temps hold the
operands' values `ovs`, then the descriptor's `es`, the block's tail yields null, and the state
below `N` is the one where the field locals, then the descriptor local, hold `structNewValues`. -/
theorem seqEval_storeLocals_values {g : Function} {N : Nat} (m : Nat) {locs : List Nat}
    {fields : List Field} {wd : Bool} {desc : Option ExprId} {ovs : List (Option Literal)}
    {es : List Literal} {s' : State} {fieldSets descFieldSet : List ExprId} {null : ExprId}
    (hvals : if wd then ovs = [] else ovs.length = fields.length)
    (hes : es.length = desc.toList.length)
    (hlocals : locs.length = fields.length + desc.toList.length) (hlt : ∀ k ∈ locs, k < N)
    (hlen : N + (ovs.map (·.getD .null) ++ es).length ≤ s'.locals.length)
    (hfields : List.Forall₂ (fun j id => ∃ val,
        g.expr? id = some (.localSet (locs.getD j 0) val false) ∧
        g.expr? val = some (if wd then zeroExpression (fields.getD j default).type
          else .localGet (N + j)))
      (List.range fields.length) fieldSets)
    (hdl : descFieldSet.length = desc.toList.length)
    (hdesc : ∀ d ∈ desc, ∃ set val, descFieldSet = [set] ∧
      g.expr? set = some (.localSet (locs.getD fields.length 0) val false) ∧
      g.expr? val = some (.localGet (N + if wd then 0 else fields.length)))
    (hnull : g.expr? null = some .refNull) :
    ∃ S, seqEval (eval types env g (m + 2)) (fieldSets ++ descFieldSet ++ [null])
        (s'.setLocals (List.range' N (ovs.map (·.getD .null) ++ es).length)
          (ovs.map (·.getD .null) ++ es)) =
        (.ok ((fieldSets ++ descFieldSet).map (fun _ => none) ++ [some .null]), S) ∧
      S.takeLocals N =
        (s'.setLocals locs (structNewValues fields wd (ovs ++ es.map some))).takeLocals N := by
  have hkt : ovs.length = if wd then 0 else fields.length := by
    cases wd <;> simp only [Bool.false_eq_true, if_true, if_false] at hvals ⊢
    · exact hvals
    · simp [hvals]
  have hlt' : ∀ j < fields.length + desc.toList.length, locs.getD j 0 < N := fun j hj => by
    rw [List.getD_eq_getElem?_getD, List.getElem?_eq_getElem (by omega)]
    exact hlt _ (List.getElem_mem _)
  refine ⟨_, seqEval_storeLocals types env m hlen rfl (by simp [hkt, hes]) hlt' hfields hdl hdesc
    hnull, ?_⟩
  have hlocs : (List.range fields.length).map (locs.getD · 0) ++
      desc.toList.map (fun _ => locs.getD fields.length 0) = locs := by
    conv_rhs => rw [← map_range_getD locs 0, hlocals]
    cases desc <;> simp [List.range_succ]
  have hes' : desc.toList.map (fun _ => (ovs.map (·.getD Literal.null) ++ es).getD
      (if wd then 0 else fields.length) .null) = es := by
    rw [← hkt]
    cases desc with
    | none => exact (List.length_eq_zero.mp hes).symm
    | some d =>
      obtain ⟨e, rfl⟩ := List.length_eq_one.mp hes
      simp
  rw [takeLocals_temps, hlocs, hes', storeValues_eq fields wd ovs es hvals]

/-- The allocation itself: it fails as its operands do, traps on a null descriptor, and otherwise
completes with a reference. -/
theorem eval_structNew {f : Function} {allocation : ExprId} {ops : List ExprId}
    {desc : Option ExprId} {ty : Ty} {i : Nat}
    (hget : f.get allocation = some ⟨.structNew ops desc, ty⟩) (hty : definedIndex ty = some i)
    (n : Nat) (s : State) :
    match seqEval (eval types env f n) (ops ++ desc.toList) s with
    | (.error fl, s') => eval types env f (n + 1) allocation s = (fl, s')
    | (.ok vs, s') =>
      if desc.isSome ∧ vs.getLast?.getD none = some .null then
        eval types env f (n + 1) allocation s = (.trap, s')
      else ∃ r t, eval types env f (n + 1) allocation s = (.normal (some r), t) := by
  rw [eval_succ, hget]
  simp only [evalStep, hty]
  rcases seqEval (eval types env f n) (ops ++ desc.toList) s with ⟨fl | vs, s'⟩
  · rfl
  · simp only [andThenAll]
    split_ifs with h₁ h₂ h₂ <;> simp_all

/-- The operands' values: none for a `struct.new_default`, one per field otherwise. -/
theorem seqEval_ops_shape {go : ExprId → State → Flow × State} {ops : List ExprId}
    {fields : List Field} (hops : ops = [] ∨ ops.length = fields.length) {s s' : State}
    {ovs : List (Option Literal)} (h : seqEval go ops s = (.ok ovs, s')) :
    ovs.length = (if ops.isEmpty then 0 else fields.length) ∧
      (if ops.isEmpty then ovs = [] else ovs.length = fields.length) := by
  have hl := seqEval_ok_length h
  rcases hops with rfl | hk
  · simpa using hl
  · cases hE : ops.isEmpty
    · simpa [hk] using hl
    · simpa [List.isEmpty_iff.mp hE] using hl

/-- What the block replacing an allocation does against the allocation.  `operands` is the run
of the allocation's operands then descriptor, `orig` the allocation's run, `repl` the block's.
Where the allocation completes, the block yields null and leaves the field locals, then the
descriptor local, holding the values, the state after the operands being otherwise unchanged;
where it does not, the block ends the same way in the same state.  States are compared on the
function's first `n` locals: the block's temps come after them. -/
def ReplacesAllocation (n : Nat) (localIndexes : List Nat) (fields : List Field)
    (withDefault : Bool) (operands : Except Flow (List (Option Literal)) × State)
    (orig repl : Flow × State) : Prop :=
  match operands, orig.1 with
  | (.ok vs, s), .normal _ =>
    repl.1 = .normal (some .null) ∧
    repl.2.takeLocals n =
      (s.setLocals localIndexes (structNewValues fields withDefault vs)).takeLocals n
  | _, _ => repl.1 = orig.1 ∧ repl.2.takeLocals n = orig.2.takeLocals n

/-- The first part of the block, the sets of the operands' temps `N, N + 1, ...`, against the
allocation's operands. -/
theorem seqEval_opSets {f g : Function} {n : Nat} {ops opSets : List ExprId}
    {fields : List Field} (hfree : ∀ k, f.numLocals ≤ k → f.LocalFree k)
    (hops : ops = [] ∨ ops.length = fields.length)
    (hopSets : List.Forall₂
      (fun j id => g.expr? id = some (.localSet (f.numLocals + j) (ops.getD j 0) false))
      (if ops.isEmpty then [] else List.range fields.length) opSets)
    (hmono : ∀ c ∈ ops, ∀ s, (eval types env f n c s).1 ≠ .outOfFuel →
      eval types env g (n + 1) c s = eval types env f n c s)
    (s : State) (hvalues : YieldsValues (eval types env f n) ops s)
    (hne : (seqEval (eval types env f n) ops s).1 ≠ .error .outOfFuel) :
    Staged f.numLocals (List.range' f.numLocals (if ops.isEmpty then 0 else fields.length))
      (seqEval (eval types env f n) ops s) (seqEval (eval types env g (n + 2)) opSets s) := by
  have hmap : (if ops.isEmpty then [] else List.range fields.length).map (ops.getD · 0) = ops := by
    cases hE : ops.isEmpty
    · rcases hops with rfl | hk
      · simp at hE
      · simp only [Bool.false_eq_true, if_false]
        rw [← hk]
        exact map_range_getD ops 0
    · simp only [if_true, List.map_nil]
      exact (List.isEmpty_iff.mp hE).symm
  have hsnd : ((if ops.isEmpty then [] else List.range fields.length).map
      fun j => (f.numLocals + j, ops.getD j 0)).map Prod.snd = ops := by
    rw [List.map_map]
    exact hmap
  have hfst : ((if ops.isEmpty then [] else List.range fields.length).map
      fun j => (f.numLocals + j, ops.getD j 0)).map Prod.fst =
      List.range' f.numLocals (if ops.isEmpty then 0 else fields.length) := by
    rw [List.map_map]
    split <;> simp [List.range'_eq_map_range]
  have hmem : ∀ p ∈ (if ops.isEmpty then [] else List.range fields.length).map
      (fun j => (f.numLocals + j, ops.getD j 0)), p.2 ∈ ops :=
    fun p hp => hsnd ▸ List.mem_map_of_mem Prod.snd hp
  have h := seqEval_stage types env hfree (List.forall₂_map_left_iff.2 hopSets)
    (fun p hp => by obtain ⟨j, -, rfl⟩ := List.mem_map.1 hp; exact Nat.le_add_right _ _)
    (fun p hp => hmono p.2 (hmem p hp)) s (by rwa [hsnd]) (by rwa [hsnd])
  rwa [hfst, hsnd] at h

/-- The descriptor as the block reads it, through `ref.as_non_null` when its type is nullable:
from a state whose temps are set, it runs as the allocation's descriptor, and traps on null where
the allocation's own check would. -/
theorem eval_descriptorRead {f g : Function} {n : Nat} {d d' : ExprId} {temps : List Nat}
    {ws : List Literal}
    (hd' : if (f.typeOf d).isNullable then g.expr? d' = some (.refAs .nonNull d) else d' = d)
    (hfree : ∀ k ∈ temps, f.LocalFree k) (hold : ∀ m s, eval types env g m d s = eval types env f m d s)
    (s : State) (hnf : (eval types env f n d s).1 ≠ .outOfFuel) :
    eval types env g (n + 1) d' (s.setLocals temps ws) =
      andThen ((eval types env f n d s).1, (eval types env f n d s).2.setLocals temps ws)
        fun x s => if (f.typeOf d).isNullable ∧ x = some .null then (.trap, s)
          else (.normal x, s) := by
  have hS := eval_setLocals types env hfree n d ws s
  by_cases hn : (f.typeOf d).isNullable
  · rw [if_pos hn] at hd'
    rw [eval_of_expr? types env hd']
    simp only [evalStep, hold, hS, hn, true_and]
  · rw [if_neg hn] at hd'
    rw [hd', hold, eval_mono types env f (Nat.le_succ n) (by rwa [hS]), hS]
    simp only [hn, false_and, if_false]
    rcases eval types env f n d s with ⟨_ | _, _⟩ <;> rfl

/-- **The block replaces the allocation.**  For a `struct.new` of `f` (explicit operands, one
per field, or none for `struct.new_default`; a descriptor or not) whose field and descriptor
locals are locals of `f`, whose locals from `f.numLocals` on are free, and whose operands yield
values, the block `structNewReplacement` builds, run from any state with room for its temps,
relates to the allocation as `ReplacesAllocation` says: it runs the operands then the descriptor
once each, in order, as the allocation does; fails where they fail, and traps on a null
descriptor, in the same state; and otherwise yields null with each field local holding its
operand's value (or its zero) and the descriptor local the descriptor.  The field locals' earlier
values are never read. -/
theorem structNewReplacement_replaces_allocation (s2l : Struct2Local) {f : Function}
    {allocation : ExprId} {ops : List ExprId} {desc : Option ExprId} {ty : Ty} {i : Nat}
    (hget : f.get allocation = some ⟨.structNew ops desc, ty⟩) (hty : definedIndex ty = some i)
    (hops : ops = [] ∨ ops.length = s2l.fields.length)
    (hlocals : s2l.localIndexes.length = s2l.fields.length + desc.toList.length)
    (hlt : ∀ k ∈ s2l.localIndexes, k < f.numLocals)
    (hf : f.ChildrenInRange) (hfree : ∀ k, f.numLocals ≤ k → f.LocalFree k)
    (n : Nat) (s : State) (hvalues : YieldsValues (eval types env f n) (ops ++ desc.toList) s)
    (hdesc : ∀ d ∈ desc, (f.typeOf d).isNullable = false → ∀ vs s₁ s₂,
      seqEval (eval types env f n) ops s = (.ok vs, s₁) →
      eval types env f n d s₁ ≠ (.normal (some .null), s₂))
    (hs : (s2l.structNewReplacement f ops desc).1.numLocals ≤ s.locals.length)
    (hfuel : (eval types env f (n + 1) allocation s).1 ≠ .outOfFuel) :
    ReplacesAllocation f.numLocals s2l.localIndexes s2l.fields ops.isEmpty
      (seqEval (eval types env f n) (ops ++ desc.toList) s)
      (eval types env f (n + 1) allocation s)
      (eval types env (s2l.structNewReplacement f ops desc).1 (n + 3)
        (s2l.structNewReplacement f ops desc).2 s) := by
  have hchild : ∀ c ∈ ops ++ desc.toList, c < f.exprs.length := fun c hc =>
    hf _ _ hget c (by simpa [Expr.children] using hc)
  rcases hrep : s2l.structNewReplacement f ops desc with ⟨g, B⟩
  obtain ⟨opSets, descSet, fieldSets, descFieldSet, null, ⟨extra, hgx⟩, hnum, hB, hnull, hopSets,
    hdl, hdescSet, hfieldSets, hdfl, hdescField⟩ :=
    s2l.structNewReplacement_layout f ops desc (fun d hd => hchild d (by simp [hd])) hrep
  rw [hrep] at hs
  have hold : ∀ c ∈ ops ++ desc.toList, ∀ m s, eval types env g m c s = eval types env f m c s :=
    fun c hc m s => eval_extend types env hf hgx m c s (hchild c hc)
  have ho := eval_structNew types env hget hty n s
  rw [seqEval_append] at ho
  -- the operands, staged into the temps
  have hst := seqEval_opSets types env hfree hops hopSets
    (fun c hc s h => (hold c (List.mem_append_left _ hc) _ s).trans
      (eval_mono types env f (Nat.le_succ n) h)) s hvalues.append.1
    (fun h => by
      rcases hRo : seqEval (eval types env f n) ops s with ⟨fl | _, s1⟩ <;> rw [hRo] at h <;>
        cases h
      simp only [hRo] at ho
      exact hfuel (by rw [ho]))
  simp only
  rw [eval_block_none types env hB, show opSets ++ descSet ++ fieldSets ++ descFieldSet ++ [null] =
    opSets ++ (descSet ++ (fieldSets ++ descFieldSet ++ [null])) by simp only [List.append_assoc],
    seqEval_append (eval types env g (n + 2)) opSets, seqEval_append (eval types env f n) ops]
  rcases hRo : seqEval (eval types env f n) ops s with ⟨fl | ovs, s1⟩ <;>
    simp only [hRo] at hst ho ⊢
  · -- an operand fails
    obtain ⟨h1, h2⟩ := hst
    rcases hT : seqEval (eval types env g (n + 2)) opSets s with ⟨_ | _, t⟩ <;>
      rw [hT] at h1 h2 <;> cases h1
    rw [ho]
    exact ⟨rfl, h2⟩
  · -- the operands complete
    simp only [Staged] at hst
    rw [hst]
    simp only
    obtain ⟨hkt, hvals⟩ := seqEval_ops_shape hops hRo
    have hroom : f.numLocals + (ovs.length + desc.toList.length) ≤ s1.locals.length := by
      have h1 := seqEval_locals_length (eval_locals_length types env f n) ops s
      rw [hRo] at h1
      rw [hkt, h1, ← s2l.tempTypes_length, ← hnum]
      simpa using hs
    cases desc with
    | none =>
      obtain rfl : descSet = [] := List.length_eq_zero.mp hdl
      simp only [Option.toList, seqEval, List.append_nil, List.nil_append, Option.isSome_none,
        Bool.false_eq_true, false_and, if_false] at ho hroom ⊢
      obtain ⟨r, t, hot⟩ := ho
      obtain ⟨S, hcopy, hS⟩ := seqEval_storeLocals_values types env n hvals
        (show ([] : List Literal).length = (none : Option ExprId).toList.length from rfl) hlocals
        hlt (by simpa using hroom) hfieldSets hdfl hdescField hnull
      simp only [List.append_nil, List.length_map, hkt, List.map_nil] at hcopy hS
      rw [hot, hcopy]
      exact ⟨by simp, hS⟩
    | some d =>
      obtain ⟨dset, d', rfl, hdset, hd'⟩ := hdescSet d rfl
      rw [seqEval_append (eval types env g (n + 2)) [dset]]
      simp only [seqEval, eval_localSet types env hdset] at ho ⊢
      rcases hd : eval types env f n d s1 with ⟨fl, s2⟩
      have hnf : fl ≠ .outOfFuel := by
        rintro rfl
        simp only [hd] at ho
        exact hfuel (by rw [ho])
      -- the descriptor, staged into the last temp
      rw [eval_descriptorRead types env hd' (fun k hk => hfree k (List.mem_range'_1.1 hk).1)
        (hold d (by simp)) s1 (by rw [hd]; exact hnf)]
      simp only [hd] at ho ⊢
      rcases fl with (_ | v) | ⟨l, v⟩ | v | _ | _
      · exact absurd hd (hvalues.append.2 _ _ hRo).head
      · simp only [andThen] at ho ⊢
        by_cases hv : v = .null
        · subst hv
          by_cases hn : (f.typeOf d).isNullable = true
          · simp [hn] at ho ⊢
            rw [ho]
            exact ⟨rfl, takeLocals_setLocals_temps _ _ _ _⟩
          · exact absurd hd (hdesc d rfl (by simpa using hn) _ _ _ hRo)
        · simp only [hv, List.getLast?_concat, Option.getD_some, Option.some.injEq, and_false,
            if_false] at ho ⊢
          obtain ⟨r, t, hot⟩ := ho
          have hlen2 : s2.locals.length = s1.locals.length := by
            have := eval_locals_length types env f n d s1
            rwa [hd] at this
          obtain ⟨S, hcopy, hS⟩ := seqEval_storeLocals_values types env n hvals
            (show [v].length = (some d).toList.length from rfl) hlocals hlt
            (show _ ≤ s2.locals.length by simpa [hlen2] using hroom) hfieldSets hdfl hdescField
            hnull
          rw [hot, ← hkt, ← List.length_map ovs (·.getD Literal.null), setLocals_range'_concat,
            hcopy]
          exact ⟨by simp [List.getLast?_cons], hS⟩
      all_goals simp only [andThen, ReplacesAllocation] at ho ⊢
      all_goals rw [ho]
      all_goals exact ⟨rfl, takeLocals_setLocals_temps _ _ _ _⟩

/-- `Struct2Local`'s constructor adds the field locals, then the descriptor local, after the
function's locals, and leaves the expressions alone: the locals the block writes are locals of
the function it rewrites. -/
theorem make_localIndexes (types : TypeSection) (f : Function) (allocation : ExprId) :
    (make types f allocation).1.localIndexes = List.range' f.numLocals
      ((make types f allocation).1.fields.length +
        (make types f allocation).1.descType.toList.length) ∧
    (make types f allocation).2.numLocals =
      f.numLocals + (make types f allocation).1.localIndexes.length ∧
    (make types f allocation).2.exprs = f.exprs := by
  simp only [make]
  refine ⟨?_, ?_, Builder.addVars_exprs _ _⟩
  · rw [Builder.addVars_indexes]
    simp
  · rw [Builder.addVars_numLocals, Builder.addVars_indexes]
    simp

/-- A struct type `$Counter` with one mutable `i32` field. -/
def counterTypes : TypeSection := [.struct [⟨.i32, .notPacked, true⟩] none none]

/-- `(struct.new $Counter (i32.const 7))`. -/
def counterFunction : Function :=
  ⟨[], [], [⟨.const (.i32 7), .i32⟩, ⟨.structNew [0] none, .ref (.defined 0) false⟩], 1⟩

/-- The counter's allocation, from a state whose field local still holds 3: its block sets the
field local to 7 and yields null. -/
theorem structNewReplacement_replaces_counter :
    ReplacesAllocation (make counterTypes counterFunction 1).2.numLocals
      (make counterTypes counterFunction 1).1.localIndexes
      (make counterTypes counterFunction 1).1.fields [0].isEmpty
      (seqEval (eval counterTypes (fun _ _ => none) (make counterTypes counterFunction 1).2 5)
        ([0] ++ none.toList) ⟨[.i32 3, .i32 0], [], [], []⟩)
      (eval counterTypes (fun _ _ => none) (make counterTypes counterFunction 1).2 (5 + 1) 1
        ⟨[.i32 3, .i32 0], [], [], []⟩)
      (eval counterTypes (fun _ _ => none)
        ((make counterTypes counterFunction 1).1.structNewReplacement
          (make counterTypes counterFunction 1).2 [0] none).1 (5 + 3)
        ((make counterTypes counterFunction 1).1.structNewReplacement
          (make counterTypes counterFunction 1).2 [0] none).2 ⟨[.i32 3, .i32 0], [], [], []⟩) :=
  structNewReplacement_replaces_allocation counterTypes (fun _ _ => none)
    (make counterTypes counterFunction 1).1
    (show (make counterTypes counterFunction 1).2.get 1 =
      some ⟨.structNew [0] none, .ref (.defined 0) false⟩ by decide)
    rfl (.inr rfl) (by decide) (by decide)
    (Function.childrenInRange_iff.2 (by decide))
    (Function.localFree_of_lt (by decide))
    5 _ (@YieldsValues.of_seqEval _ _ _ [some (.i32 7)] rfl (by decide))
    (by simp) (by decide) (by decide)

end Struct2Local

end BinaryenPasses.Heap2Local
