import BinaryenPasses.Heap2Local.Pass

/-!
# `Heap2Local` keeps the signature and the locals

Every local the pass adds comes from `Builder::addVar`, which appends it: the locals of each
field and of the descriptor (the `Struct2Local` constructor), the temps of `visitStructNew`, the
scratch locals of `visitRefCast`, `visitStructRMW` and `visitStructCmpxchg`, and the local of an
array's initial value (the `Array2Struct` constructor).  Every other edit of the function builds
or overwrites expressions of the arena.  So the pass never touches a parameter nor the type of
a local the function had, and the local indices of the original body keep their meaning.  The
only type it makes, `Struct(fields)`, is the module's own or comes after the module's types.

* `Function.KeepsLocals` — the parameters are the same and the old locals a prefix of the new;
* `Struct2Local.visit_keepsLocals`, `Array2Struct.visit_keepsLocals` — one visit of either
  rewriter, with `locals_structNewReplacement` for the block that replaces an allocation;
* `walkBody_keepsLocals` — a whole walk, so `struct2Local_keepsLocals`, `array2Struct_grows`;
* `optimizeArray_grows`, `optimizeStruct_grows`, `foldl_grows` — the iterations and loops of the
  driver;
* **`heap2Local_keeps_locals`** — the pass keeps the parameters, the locals it was given and
  the module's types.
-/

namespace BinaryenPasses.IR

/-- `g` has the parameters of `f`, and the locals of `f` followed by those added to it. -/
def Function.KeepsLocals (f g : Function) : Prop := g.params = f.params ∧ f.vars <+: g.vars

namespace Function.KeepsLocals

@[refl] theorem refl (f : Function) : f.KeepsLocals f := ⟨rfl, List.prefix_refl _⟩

@[trans] theorem trans {f g h : Function} (hfg : f.KeepsLocals g) (hgh : g.KeepsLocals h) :
    f.KeepsLocals h := ⟨hgh.1.trans hfg.1, hfg.2.trans hgh.2⟩

/-- A fold whose every step keeps the locals keeps them. -/
theorem foldl {σ α : Type} (func : σ → Function) (step : σ → α → σ)
    (hstep : ∀ st a, (func st).KeepsLocals (func (step st a))) (l : List α) (st : σ) :
    (func st).KeepsLocals (func (l.foldl step st)) :=
  List.foldlRecOn (motive := fun st' => (func st).KeepsLocals (func st')) l step st (refl _)
    fun st' h a _ => h.trans (hstep st' a)

end Function.KeepsLocals

/-! ## Edits of the arena leave the locals alone -/

@[simp] theorem locals_set (f : Function) (id : ExprId) (e : Expression) :
    (f.set id e).params = f.params ∧ (f.set id e).vars = f.vars := ⟨rfl, rfl⟩

@[simp] theorem locals_replaceSlot (f : Function) (parent : Option ExprId) (curr rep : ExprId) :
    (f.replaceSlot parent curr rep).params = f.params ∧
      (f.replaceSlot parent curr rep).vars = f.vars := by
  unfold Function.replaceSlot; split <;> (try split) <;> exact ⟨rfl, rfl⟩

namespace Builder

@[simp] theorem locals_alloc (f : Function) (e : Expression) :
    (alloc f e).1.params = f.params ∧ (alloc f e).1.vars = f.vars := ⟨rfl, rfl⟩

@[simp] theorem locals_addVar (f : Function) (t : Ty) :
    (addVar f t).1.params = f.params ∧ (addVar f t).1.vars = f.vars ++ [t] := ⟨rfl, rfl⟩

@[simp] theorem locals_addVars (f : Function) :
    ∀ ts, (addVars f ts).1.params = f.params ∧ (addVars f ts).1.vars = f.vars ++ ts
  | [] => ⟨rfl, (List.append_nil _).symm⟩
  | t :: ts => by
    obtain ⟨h₁, h₂⟩ := locals_addVars (addVar f t).1 ts
    exact ⟨h₁, by simpa using h₂⟩

@[simp] theorem locals_blockify (f : Function) (any : ExprId) (appends : List ExprId) :
    (blockify f any appends).1.params = f.params ∧ (blockify f any appends).1.vars = f.vars := by
  unfold blockify; split <;> exact ⟨rfl, rfl⟩

@[simp] theorem locals_makeConstantExpression (f : Function) (t : Ty) :
    (makeConstantExpression f t).1.params = f.params ∧
      (makeConstantExpression f t).1.vars = f.vars := by
  unfold makeConstantExpression; split <;> exact ⟨rfl, rfl⟩

/-- `buildEach` with a builder that adds no local adds none. -/
theorem locals_buildEach {α : Type} (mk : Function → α → Function × ExprId)
    (hmk : ∀ f x, (mk f x).1.params = f.params ∧ (mk f x).1.vars = f.vars) :
    ∀ (xs : List α) (f : Function),
      (buildEach mk f xs).1.params = f.params ∧ (buildEach mk f xs).1.vars = f.vars
  | [], _ => ⟨rfl, rfl⟩
  | x :: xs, f => by
    obtain ⟨h₁, h₂⟩ := locals_buildEach mk hmk xs (mk f x).1
    exact ⟨h₁.trans (hmk f x).1, h₂.trans (hmk f x).2⟩

end Builder

end BinaryenPasses.IR

namespace BinaryenPasses.Heap2Local

open BinaryenPasses.IR

@[simp] theorem locals_makePackedFieldGet (f : Function) (value : ExprId) (field : Field)
    (signed : Bool) : (makePackedFieldGet f value field signed).1.params = f.params ∧
      (makePackedFieldGet f value field signed).1.vars = f.vars := by
  unfold makePackedFieldGet; split <;> exact ⟨rfl, rfl⟩

@[simp] theorem func_replaceCurrent (r : Rewrite) (curr : ExprId) (parent : Option ExprId)
    (rep : ExprId) : (r.replaceCurrent curr parent rep).func = r.func.replaceSlot parent curr rep :=
  rfl

@[simp] theorem func_withFunc (r : Rewrite) (f : Function) : (r.withFunc f).func = f := rfl

/-! ## One visit of `Struct2Local` -/

namespace Struct2Local

variable (s2l : Struct2Local)

@[simp] theorem locals_storeOperands (f : Function) (tempIndexes : List Nat) (ops : List ExprId) :
    (s2l.storeOperands f tempIndexes ops).1.params = f.params ∧
      (s2l.storeOperands f tempIndexes ops).1.vars = f.vars := by
  unfold storeOperands; split
  · exact ⟨rfl, rfl⟩
  · exact Builder.locals_buildEach _ (fun _ _ => ⟨rfl, rfl⟩) _ _

@[simp] theorem locals_storeDescriptor (f : Function) (tempIndexes : List Nat)
    (desc : Option ExprId) : (storeDescriptor f tempIndexes desc).1.params = f.params ∧
      (storeDescriptor f tempIndexes desc).1.vars = f.vars := by
  cases desc with
  | none => exact ⟨rfl, rfl⟩
  | some d => simp only [storeDescriptor]; split <;> exact ⟨rfl, rfl⟩

@[simp] theorem locals_storeFields (f : Function) (tempIndexes : List Nat) (withDefault : Bool) :
    (s2l.storeFields f tempIndexes withDefault).1.params = f.params ∧
      (s2l.storeFields f tempIndexes withDefault).1.vars = f.vars :=
  Builder.locals_buildEach _ (fun f _ => by
    cases withDefault <;> simp [Builder.makeLocalSet, Builder.makeLocalGet]) _ _

@[simp] theorem locals_storeDescriptorLocal (f : Function) (tempIndexes : List Nat)
    (desc : Option ExprId) : (s2l.storeDescriptorLocal f tempIndexes desc).1.params = f.params ∧
      (s2l.storeDescriptorLocal f tempIndexes desc).1.vars = f.vars := by
  cases desc <;> exact ⟨rfl, rfl⟩

/-- The block that replaces the allocation adds its temps, and nothing else, to the locals. -/
theorem locals_structNewReplacement (f : Function) (ops : List ExprId) (desc : Option ExprId) :
    (s2l.structNewReplacement f ops desc).1.params = f.params ∧
      (s2l.structNewReplacement f ops desc).1.vars = f.vars ++ s2l.tempTypes f ops desc := by
  simp [structNewReplacement, Builder.makeRefNull, Builder.makeBlock]

theorem visitRefCast_keepsLocals (r : Rewrite) (curr : ExprId) (parent : Option ExprId)
    (ref : ExprId) (desc : Option ExprId) (type : Ty) :
    r.func.KeepsLocals (s2l.visitRefCast r curr parent ref desc type).func := by
  unfold visitRefCast
  by_cases hnone : r.reached.get curr = .none
  · rw [if_pos hnone]
  · rw [if_neg hnone]
    cases desc <;> dsimp only <;> split_ifs <;>
      simp [Function.KeepsLocals, Builder.makeDrop, Builder.makeSequence, Builder.makeBlock,
        Builder.makeLocalSet, Builder.makeLocalGet, Builder.makeRefNull, Builder.makeUnreachable,
        Builder.makeIf, Builder.makeRefEq]

theorem visit_keepsLocals (r : Rewrite) (curr : ExprId) (parent : Option ExprId) :
    r.func.KeepsLocals (s2l.visit r curr parent).func := by
  unfold visit
  split
  · rfl
  · split
    case h_11 => exact s2l.visitRefCast_keepsLocals ..
    case h_17 => rfl
    all_goals
      simp only [visitBlock, visitLoop, adjustTypeFlowingThrough, visitLocalSet, visitLocalGet,
        visitBreak, visitStructNew, visitRefIsNull, visitRefEq, visitRefAs, visitRefTest,
        visitRefGetDesc, visitStructSet, visitStructGet, visitStructRMW, visitStructCmpxchg]
      (try split_ifs) <;> (try split) <;>
        simp [Function.KeepsLocals, Builder.makeDrop, Builder.makeConst, Builder.makeSequence,
          Builder.makeBlock, Builder.makeLocalSet, Builder.makeLocalGet, Builder.makeRefNull,
          Builder.makeIf, Builder.makeRefEq, Builder.makeBinary, locals_structNewReplacement]

end Struct2Local

/-! ## One visit of `Array2Struct` -/

namespace Array2Struct

variable (a2s : Array2Struct) (types : TypeSection)

theorem visit_keepsLocals (r : Rewrite) (curr : ExprId) (parent : Option ExprId) :
    r.func.KeepsLocals (a2s.visit types r curr parent).func := by
  unfold visit
  split
  · rfl
  · split
    case h_7 => rfl
    all_goals
      simp only [visitArrayNew, visitArrayNewFixed, replaceAllocation, visitArraySet,
        visitArrayGet, visitRefTest, visitRefCast]
      (try split_ifs) <;> (try split) <;>
        simp [Function.KeepsLocals, Builder.makeDrop, Builder.makeConst, Builder.makeSequence,
          Builder.makeBlock, Builder.makeUnreachable, Builder.makeStructGet, Builder.makeStructSet]

end Array2Struct

/-! ## Whole walks -/

/-- A walk whose every visit keeps the locals keeps them. -/
theorem walkBody_keepsLocals (visit : Rewrite → ExprId → Option ExprId → Rewrite)
    (hvisit : ∀ (r : Rewrite) curr parent, r.func.KeepsLocals (visit r curr parent).func)
    (f : Function) (r : Rewrite) : r.func.KeepsLocals (walkBody visit f r).func :=
  Function.KeepsLocals.foldl Rewrite.func _
    (fun (r : Rewrite) (q : ExprId × Option ExprId) => hvisit r q.1 q.2) _ r

/-- `Struct2Local` adds the locals of the fields and the descriptor, then those of its
visits. -/
theorem struct2Local_keepsLocals (types : TypeSection) (allocation : ExprId) (f : Function)
    (reached : Interactions) : f.KeepsLocals (struct2Local types allocation f reached).1 := by
  have hmake : f.KeepsLocals (Struct2Local.make types f allocation).2 := by
    simp [Struct2Local.make, Function.KeepsLocals]
  exact hmake.trans (walkBody_keepsLocals _ (Struct2Local.visit_keepsLocals _) _ _)

theorem locals_retypeReached (types : TypeSection) (arrayType structType : HeapType)
    (acc : Function × Bool) (reached : ExprId) :
    acc.1.KeepsLocals (retypeReached types arrayType structType acc reached).1 := by
  obtain ⟨f, refinalize⟩ := acc
  simp only [retypeReached]
  split <;> (try split_ifs) <;> simp [Function.KeepsLocals]

/-- `HeapType(Struct(fields))` adds a type, if any, after those of the module. -/
theorem prefix_internStruct (types : TypeSection) (fields : List Field) :
    types <+: (internStruct types fields).1 := by
  unfold internStruct; split
  · exact List.prefix_refl _
  · exact List.prefix_append _ _

/-- `Array2Struct`'s constructor: the struct type after the module's types, and a local for an
initial value. -/
theorem make_grows (types : TypeSection) (f : Function) (reached : Interactions)
    (allocation : ExprId) :
    types <+: (Array2Struct.make types f reached allocation).2.1 ∧
      f.KeepsLocals (Array2Struct.make types f reached allocation).2.2.func := by
  refine ⟨prefix_internStruct _ _, ?_⟩
  simp only [Array2Struct.make]
  refine Function.KeepsLocals.trans ?_
    (Function.KeepsLocals.foldl Prod.fst _ (locals_retypeReached _ _ _) _ _)
  split <;> simp [Function.KeepsLocals, Builder.makeStructNew, Builder.makeLocalSet,
    Builder.makeLocalGet, Builder.makeSequence, Builder.makeBlock, Builder.locals_buildEach]

theorem array2Struct_grows (types : TypeSection) (allocation : ExprId) (f : Function)
    (reached : Interactions) :
    types <+: (array2Struct types allocation f reached).1 ∧
      f.KeepsLocals (array2Struct types allocation f reached).2.1 := by
  obtain ⟨htypes, hmake⟩ := make_grows types f reached allocation
  exact ⟨htypes, hmake.trans (walkBody_keepsLocals _ (Array2Struct.visit_keepsLocals _ _) _ _)⟩

/-! ## The driver -/

/-- What the driver's loops thread may only grow: types after the module's, locals after the
function's. -/
def Grows (acc acc' : TypeSection × Function) : Prop :=
  acc.1 <+: acc'.1 ∧ acc.2.KeepsLocals acc'.2

theorem Grows.refl (acc : TypeSection × Function) : Grows acc acc :=
  ⟨List.prefix_refl _, .refl _⟩

theorem Grows.trans {a b c : TypeSection × Function} (hab : Grows a b) (hbc : Grows b c) :
    Grows a c := ⟨hab.1.trans hbc.1, hab.2.trans hbc.2⟩

theorem optimizeArray_grows (c : Collaborators) (acc : TypeSection × Function)
    (allocation : ExprId) : Grows acc (optimizeArray c acc allocation) := by
  obtain ⟨types, f⟩ := acc
  dsimp only [optimizeArray]
  split_ifs
  · exact .refl _
  · split
    · next st _ =>
      have hgrows := array2Struct_grows types allocation f st.reachedInteractions
      generalize array2Struct types allocation f st.reachedInteractions = res at hgrows
      obtain ⟨types', f', reached', structNew⟩ := res
      exact ⟨hgrows.1, hgrows.2.trans (struct2Local_keepsLocals _ _ _ _)⟩
    · exact .refl _

theorem optimizeStruct_grows (c : Collaborators) (acc : TypeSection × Function)
    (allocation : ExprId) : Grows acc (optimizeStruct c acc allocation) := by
  obtain ⟨types, f⟩ := acc
  dsimp only [optimizeStruct]
  split_ifs
  · exact .refl _
  · split
    · exact ⟨List.prefix_refl _, struct2Local_keepsLocals _ _ _ _⟩
    · exact .refl _

/-- A loop of the driver grows what each of its iterations grows. -/
theorem foldl_grows (step : TypeSection × Function → ExprId → TypeSection × Function)
    (hstep : ∀ acc a, Grows acc (step acc a)) (allocations : List ExprId)
    (acc : TypeSection × Function) : Grows acc (allocations.foldl step acc) :=
  List.foldlRecOn (motive := Grows acc) allocations step acc (.refl _)
    fun acc' h a _ => h.trans (hstep acc' a)

/-- `Heap2Local` keeps the function's parameters and the locals it had, adding locals only after
them, and keeps the module's types, adding types only after them. -/
theorem heap2Local_keeps_locals (types : TypeSection) (localGraph : LocalGraph) (f : Function) :
    types <+: (heap2Local types localGraph f).1 ∧
      f.KeepsLocals (heap2Local types localGraph f).2 := by
  unfold heap2Local
  obtain ⟨structNews, arrayNews⟩ := findAllocations f
  dsimp only
  exact (foldl_grows _ (optimizeArray_grows _) arrayNews (types, f)).trans
    (foldl_grows _ (optimizeStruct_grows _) structNews _)

end BinaryenPasses.Heap2Local
