import Mathlib.Data.List.GetD
import Mathlib.Data.List.Nodup
import Mathlib.Logic.Relation
import BinaryenPasses.IR.Metatheory
import BinaryenPasses.Heap2Local.Locals
import BinaryenPasses.Heap2Local.ArrayAllocation
import BinaryenPasses.Heap2Local.ArrayTestReplacement

/-!
# `Struct2Local` takes the allocation out of the function

`Struct2Local` walks the body once, children first.  At the allocation, `visitStructNew` puts the
block that stores its operands in the slot that held it.  Every other visit replaces or edits
the expression it visits, and builds only from that expression's children and from expressions
it has just built.  So on a body that is a tree, once the walk is over no slot holds the
allocation and the body no longer reaches it: the `struct.new` is dead code.

* `Function.Spares a f g` — what the edits around `a` keep: no slot holds `a` that did not,
  `a` does not become the body, `a` itself only has child slots refilled, and the arena only
  grows; closed under `trans`, with `grow`, `set`, `replaceSlot` and `buildEach` for the
  builders and for `Walker::replaceCurrent`;
* one lemma per visitor (`visitRefCast_spares`, `visitStructRMW_spares`, ...), and
  `Struct2Local.visit_spares`: a visit of an expression that neither is the allocation nor holds
  it spares the allocation;
* `structNewReplacement_spares`, `visit_allocation_detached`: the allocation's own visit empties
  the one slot that held it (`Function.Spares.detach`);
* `parentsFollow_postOrderFrom`: the walk visits the holder of an expression after it;
* `struct2Local_detached`, and **`struct2Local_removes_allocation`**: after the walk no slot holds
  the allocation and the body does not reach it.
-/

namespace BinaryenPasses.IR

/-! ## Slots, and what a rewrite spares -/

/-- Expression `id` of `f` holds `a` in one of its child slots. -/
def Function.Holds (f : Function) (id a : ExprId) : Prop :=
  ∃ x, f.expr? id = some x ∧ a ∈ x.children

/-- `Refills a y x`: `x` is `y` with child slots refilled by expressions other than `a`. -/
def Expr.Refills (a : ExprId) : Expr → Expr → Prop :=
  Relation.ReflTransGen fun x y => ∃ old new, new ≠ a ∧ y = x.replaceChild old new

/-- What the rewrites around an expression `a` of `f` keep: `g` holds `a` in no slot that `f`
did not, has `a` as its body only if `f` had, keeps `a` up to refilled child slots, and only adds
expressions. -/
structure Function.Spares (a : ExprId) (f g : Function) : Prop where
  /-- Every slot of `g` that holds `a` held it in `f`. -/
  holds : ∀ id, g.Holds id a → f.Holds id a
  /-- `a` is the body of `g` only if it was the body of `f`. -/
  body : g.body = a → f.body = a
  /-- `a` keeps its expression, up to refilled child slots. -/
  expr : ∀ x, g.expr? a = some x → ∃ y, f.expr? a = some y ∧ Expr.Refills a y x
  /-- The arena only grows. -/
  length : f.exprs.length ≤ g.exprs.length

/-- The expressions of the arena without their types: what decides the slots. -/
def Function.shape (f : Function) : List Expr := f.exprs.map Expression.expr

@[simp] theorem Function.length_shape (f : Function) : f.shape.length = f.exprs.length :=
  List.length_map _ _

theorem Function.expr?_eq_shape (f : Function) (id : ExprId) : f.expr? id = f.shape[id]? := by
  simp only [Function.expr?, Function.get, Function.shape, List.getElem?_map]

@[simp] theorem Function.shape_mk (params vars : List Ty) (exprs : List Expression)
    (body : ExprId) : Function.shape ⟨params, vars, exprs, body⟩ = exprs.map Expression.expr := rfl

@[simp] theorem Function.map_expr_exprs (f : Function) : f.exprs.map Expression.expr = f.shape :=
  rfl

@[simp] theorem shape_set (f : Function) (k : ExprId) (e : Expression) :
    (f.set k e).shape = f.shape.set k e.expr := by
  simp only [Function.shape, Function.set, List.map_set]

@[simp] theorem shape_alloc (f : Function) (e : Expression) :
    (Builder.alloc f e).1.shape = f.shape ++ [e.expr] := by
  simp only [Function.shape, Builder.alloc, List.map_append, List.map_cons, List.map_nil]

@[simp] theorem snd_alloc (f : Function) (e : Expression) :
    (Builder.alloc f e).2 = f.shape.length :=
  (Function.length_shape f).symm

@[simp] theorem shape_addVar (f : Function) (t : Ty) :
    (Builder.addVar f t).1.shape = f.shape := rfl

@[simp] theorem body_alloc (f : Function) (e : Expression) :
    (Builder.alloc f e).1.body = f.body := rfl

@[simp] theorem body_set (f : Function) (k : ExprId) (e : Expression) :
    (f.set k e).body = f.body := rfl

@[simp] theorem body_addVar (f : Function) (t : Ty) : (Builder.addVar f t).1.body = f.body := rfl

@[simp] theorem shape_blockify (f : Function) (any : ExprId) (appends : List ExprId) :
    (Builder.blockify f any appends).1.shape = match f.shape[any]? with
      | some (.block none list) => f.shape.set any (.block none (list ++ appends))
      | _ => f.shape ++ [.block none (any :: appends)] := by
  unfold Builder.blockify
  rw [Function.expr?_eq_shape]
  split <;> simp_all [Builder.makeBlock]

@[simp] theorem snd_blockify (f : Function) (any : ExprId) (appends : List ExprId) :
    (Builder.blockify f any appends).2 = match f.shape[any]? with
      | some (.block none _) => any
      | _ => f.shape.length := by
  unfold Builder.blockify
  rw [Function.expr?_eq_shape]
  split <;> simp_all [Builder.makeBlock]

@[simp] theorem body_blockify (f : Function) (any : ExprId) (appends : List ExprId) :
    (Builder.blockify f any appends).1.body = f.body := by
  unfold Builder.blockify; split <;> rfl

/-- An expression built after `a` is not `a`. -/
theorem ne_of_fresh {a n : Nat} (h : a < n) : a ≠ n ∧ n ≠ a ∧ ∀ k, a ≠ n + k ∧ n + k ≠ a :=
  ⟨by omega, by omega, fun _ => ⟨by omega, by omega⟩⟩

@[simp] theorem take_shape_append (f : Function) (xs : List Expr) :
    (f.shape ++ xs).take f.exprs.length = f.shape := by
  rw [← Function.length_shape, List.take_left]

@[simp] theorem drop_shape_append (f : Function) (xs : List Expr) :
    (f.shape ++ xs).drop f.exprs.length = xs := by
  rw [← Function.length_shape, List.drop_left]

@[simp] theorem getElem?_shape_append (f : Function) (xs : List Expr) (k : Nat) :
    (f.shape ++ xs)[f.exprs.length + k]? = xs[k]? := by
  rw [← Function.length_shape, List.getElem?_append_right (Nat.le_add_right _ _),
    Nat.add_sub_cancel_left]

@[simp] theorem getElem_shape_append (f : Function) (xs : List Expr) (k : Nat)
    (h : f.exprs.length + k < (f.shape ++ xs).length) (hk : k < xs.length) :
    (f.shape ++ xs)[f.exprs.length + k] = xs[k] := by
  simp only [← Function.length_shape]
  rw [List.getElem_append_right (by simp)]
  simp

@[simp] theorem getElem?_shape_append_length (f : Function) (xs : List Expr) :
    (f.shape ++ xs)[f.exprs.length]? = xs[0]? :=
  getElem?_shape_append f xs 0

@[simp] theorem getElem_shape_append_length (f : Function) (xs : List Expr)
    (h : f.exprs.length < (f.shape ++ xs).length) (hk : 0 < xs.length) :
    (f.shape ++ xs)[f.exprs.length] = xs[0] :=
  getElem_shape_append f xs 0 h hk

namespace Function.Spares

variable {a : ExprId} {f g h : Function}

theorem refl (a : ExprId) (f : Function) : f.Spares a f :=
  ⟨fun _ h => h, id, fun x hx => ⟨x, hx, Relation.ReflTransGen.refl⟩, le_rfl⟩

theorem trans (hfg : f.Spares a g) (hgh : g.Spares a h) : f.Spares a h where
  holds id hh := hfg.holds id (hgh.holds id hh)
  body hb := hfg.body (hgh.body hb)
  expr x hx := by
    obtain ⟨y, hy, hyx⟩ := hgh.expr x hx
    obtain ⟨z, hz, hzy⟩ := hfg.expr y hy
    exact ⟨z, hz, Relation.ReflTransGen.trans hzy hyx⟩
  length := hfg.length.trans hgh.length

/-- Builders that only add expressions spare an expression of `f` that none of them holds. -/
theorem grow (ha : a < f.exprs.length)
    (hg : g.shape.take f.exprs.length = f.shape ∧
      (∀ x ∈ g.shape.drop f.exprs.length, a ∉ x.children) ∧ g.body = f.body) :
    f.Spares a g := by
  obtain ⟨htake, hnew, hbody⟩ := hg
  have hlen : f.exprs.length ≤ g.exprs.length := by
    have := congrArg List.length htake
    simp only [List.length_take, Function.length_shape] at this
    omega
  have hget : ∀ id, id < f.exprs.length → g.expr? id = f.expr? id := fun id hid => by
    rw [Function.expr?_eq_shape, Function.expr?_eq_shape, ← htake, List.getElem?_take_of_lt hid]
  refine ⟨fun id ⟨x, hx, hax⟩ => ?_, fun h => hbody ▸ h,
    fun x hx => ⟨x, hget a ha ▸ hx, Relation.ReflTransGen.refl⟩, hlen⟩
  by_cases hid : id < f.exprs.length
  · exact ⟨x, hget id hid ▸ hx, hax⟩
  · rw [Function.expr?_eq_shape, ← List.take_append_drop f.exprs.length g.shape,
      List.getElem?_append_right (by simpa using Nat.le_trans (Nat.min_le_left _ _) (Nat.le_of_not_lt hid))] at hx
    exact absurd hax (hnew x (List.getElem?_mem hx))

/-- Setting an expression other than `a` with children other than `a`. -/
theorem set {k : ExprId} {e : Expression} (hk : k ≠ a) (he : a ∉ e.expr.children) :
    f.Spares a (f.set k e) := by
  have hget : ∀ id, id ≠ k → (f.set k e).expr? id = f.expr? id := fun id hid => by
    rw [Function.expr?_eq_shape, Function.expr?_eq_shape, shape_set,
      List.getElem?_set_ne (Ne.symm hid)]
  refine ⟨fun id ⟨x, hx, hax⟩ => ?_, id, fun x hx => ⟨x, hget a (Ne.symm hk) ▸ hx,
    Relation.ReflTransGen.refl⟩, by simp [Function.set]⟩
  by_cases hid : id = k
  · subst hid
    rw [Function.expr?_eq_shape, shape_set] at hx
    by_cases hlt : id < f.shape.length
    · rw [List.getElem?_set_self hlt] at hx; cases hx; exact absurd hax he
    · rw [List.set_eq_of_length_le (Nat.le_of_not_lt hlt),
        List.getElem?_eq_none (Nat.le_of_not_lt hlt)] at hx
      cases hx
  · exact ⟨x, hget id hid ▸ hx, hax⟩

/-- `replaceCurrent`'s slot update with a replacement other than `a`. -/
theorem replaceSlot (parent : Option ExprId) (curr : ExprId) {rep : ExprId} (hrep : rep ≠ a) :
    f.Spares a (f.replaceSlot parent curr rep) := by
  rcases parent with _ | p
  · exact ⟨fun _ h => h, fun h => absurd h hrep, fun x hx => ⟨x, hx, Relation.ReflTransGen.refl⟩, le_rfl⟩
  rcases hp : f.get p with _ | e
  · simp only [Function.replaceSlot, hp]; exact refl a f
  simp only [Function.replaceSlot, hp]
  have hlt : p < f.exprs.length := (List.getElem?_eq_some_iff.1 hp).1
  have hgetp : (f.set p { e with expr := e.expr.replaceChild curr rep }).expr? p =
      some (e.expr.replaceChild curr rep) := by
    rw [Function.expr?_eq_shape, shape_set, List.getElem?_set_self (by simpa using hlt)]
  have hfp : f.expr? p = some e.expr := by simp [Function.expr?, hp]
  have hget : ∀ id, id ≠ p → (f.set p { e with expr := e.expr.replaceChild curr rep }).expr? id =
      f.expr? id := fun id hid => by
    rw [Function.expr?_eq_shape, Function.expr?_eq_shape, shape_set,
      List.getElem?_set_ne (Ne.symm hid)]
  refine ⟨fun id ⟨x, hx, hax⟩ => ?_, id, fun x hx => ?_, by simp [Function.set]⟩
  · by_cases hid : id = p
    · subst hid
      rw [hgetp] at hx; cases hx
      rw [Expr.children_replaceChild, List.mem_map] at hax
      obtain ⟨c, hc, hca⟩ := hax
      split_ifs at hca with hcc
      · exact absurd hca hrep
      · exact ⟨e.expr, hfp, hca ▸ hc⟩
    · exact ⟨x, hget id hid ▸ hx, hax⟩
  · by_cases hid : a = p
    · subst hid
      rw [hgetp] at hx; cases hx
      exact ⟨e.expr, hfp, Relation.ReflTransGen.single ⟨curr, rep, hrep, rfl⟩⟩
    · exact ⟨x, hget a hid ▸ hx, Relation.ReflTransGen.refl⟩

/-- Editing only the locals spares every expression. -/
theorem of_eq (hexprs : g.exprs = f.exprs) (hbody : g.body = f.body) : f.Spares a g := by
  have hget : ∀ id, g.expr? id = f.expr? id := fun id => by
    simp only [Function.expr?, Function.get, hexprs]
  exact ⟨fun id ⟨x, hx, h⟩ => ⟨x, hget id ▸ hx, h⟩, fun h => hbody ▸ h,
    fun x hx => ⟨x, hget a ▸ hx, .refl⟩, hexprs ▸ le_rfl⟩

/-- A fresh expression that does not hold `a`: it spares `a` and is not `a`. -/
theorem alloc {e : Expression} (ha : a < f.exprs.length) (he : a ∉ e.expr.children) :
    f.Spares a (Builder.alloc f e).1 ∧ (Builder.alloc f e).2 ≠ a :=
  ⟨grow ha ⟨by simp, by simpa using he, rfl⟩, by simpa using (ne_of_fresh ha).2.1⟩

theorem makeRefNull (ht : HeapType) (ha : a < f.exprs.length) :
    f.Spares a (Builder.makeRefNull f ht).1 ∧ (Builder.makeRefNull f ht).2 ≠ a :=
  alloc ha (by simp [Expr.children])

theorem makeBlock (list : List ExprId) (ha : a < f.exprs.length) (hlist : ∀ id ∈ list, id ≠ a) :
    f.Spares a (Builder.makeBlock f list).1 ∧ (Builder.makeBlock f list).2 ≠ a :=
  alloc ha fun h => hlist a h rfl

/-- A `buildEach` whose every build spares `a` and returns an expression other than `a`. -/
theorem buildEach {α : Type} {mk : Function → α → Function × ExprId} :
    ∀ {xs : List α} {f : Function},
      (∀ g : Function, a < g.exprs.length → ∀ x ∈ xs, g.Spares a (mk g x).1 ∧ (mk g x).2 ≠ a) →
      a < f.exprs.length →
      f.Spares a (Builder.buildEach mk f xs).1 ∧ ∀ id ∈ (Builder.buildEach mk f xs).2, id ≠ a
  | [], f, _, _ => ⟨refl a f, fun _ h => nomatch h⟩
  | x :: _, f, hmk, ha =>
    have h := hmk f ha x (List.mem_cons_self _ _)
    have ih := buildEach (fun (g : Function) hg y hy => hmk g hg y (List.mem_cons_of_mem x hy))
      (lt_of_lt_of_le ha h.1.length)
    ⟨h.1.trans ih.1, List.forall_mem_cons.2 ⟨h.2, ih.2⟩⟩

end Function.Spares

theorem Builder.body_addVars (f : Function) : ∀ ts, (Builder.addVars f ts).1.body = f.body
  | [] => rfl
  | _ :: ts => Builder.body_addVars _ ts

/-! ## A detached expression -/

/-- `a` is out of `f`: no slot holds it and it is not the body, so nothing reaches it. -/
structure Function.Detached (a : ExprId) (f : Function) : Prop where
  /-- No expression holds `a` in a child slot. -/
  free : ∀ id, ¬ f.Holds id a
  /-- `a` is not the body. -/
  body : f.body ≠ a
  /-- `a` is still in the arena. -/
  lt : a < f.exprs.length

namespace Function.Detached

variable {a : ExprId} {f g : Function}

theorem spares (hd : f.Detached a) (hs : f.Spares a g) : g.Detached a :=
  ⟨fun id h => hd.free id (hs.holds id h), fun h => hd.body (hs.body h),
    lt_of_lt_of_le hd.lt hs.length⟩

/-- Only `a` reaches a detached `a`. -/
theorem reaches_eq (hd : f.Detached a) {x : ExprId} (h : f.Reaches x a) : x = a := by
  induction h with
  | refl => rfl
  | @child x c _ e hget hc _ ih =>
    cases ih hd
    exact absurd ⟨e.expr, by simp [Function.expr?, hget], hc⟩ (hd.free x)

theorem not_reaches_body (hd : f.Detached a) : ¬ f.Reaches f.body a :=
  fun h => hd.body (hd.reaches_eq h)

end Function.Detached

theorem Function.expr?_set_ne (f : Function) {k id : ExprId} (e : Expression) (h : id ≠ k) :
    (f.set k e).expr? id = f.expr? id := by
  rw [Function.expr?_eq_shape, Function.expr?_eq_shape, shape_set, List.getElem?_set_ne (Ne.symm h)]

theorem Function.expr?_set_self (f : Function) {k : ExprId} (e : Expression)
    (h : k < f.exprs.length) : (f.set k e).expr? k = some e.expr := by
  rw [Function.expr?_eq_shape, shape_set, List.getElem?_set_self (by simpa using h)]

/-- Replacing `a` in the one slot that may hold it detaches `a`. -/
theorem Function.Spares.detach {a rep : ExprId} {f g : Function} {parent : Option ExprId}
    (hs : f.Spares a g) (hholds : ∀ id, f.Holds id a → parent = some id)
    (hbody : f.body = a → parent = none) (hrep : rep ≠ a) (ha : a < f.exprs.length) :
    (g.replaceSlot parent a rep).Detached a := by
  have hlt := lt_of_lt_of_le ha hs.length
  have hholds' : ∀ id, g.Holds id a → parent = some id := fun id h => hholds id (hs.holds id h)
  rcases parent with _ | p
  · exact ⟨fun id h => (nomatch hholds' id h), hrep, hlt⟩
  have hbody' : g.body ≠ a := fun h => (nomatch hbody (hs.body h))
  rcases hp : g.get p with _ | e
  · refine ⟨fun id ⟨x, hx, hax⟩ => ?_, by simpa [Function.replaceSlot, hp] using hbody',
      by simpa [Function.replaceSlot, hp] using hlt⟩
    simp only [Function.replaceSlot, hp] at hx
    cases Option.some.inj (hholds' id ⟨x, hx, hax⟩)
    simp [Function.expr?, hp] at hx
  simp only [Function.replaceSlot, hp]
  refine ⟨fun id ⟨x, hx, hax⟩ => ?_, hbody', by simpa [Function.set] using hlt⟩
  by_cases hid : id = p
  · subst hid
    rw [Function.expr?_set_self _ _ (List.getElem?_eq_some_iff.1 hp).1] at hx
    cases hx
    rw [Expr.children_replaceChild, List.mem_map] at hax
    obtain ⟨c, hc, hca⟩ := hax
    split_ifs at hca with hcc
    · exact hrep hca
    · exact hcc hca
  · rw [Function.expr?_set_ne _ _ hid] at hx
    exact hid (Option.some.inj (hholds' id ⟨x, hx, hax⟩)).symm

/-! ## Refilled slots -/

namespace Expr.Refills

variable {a : ExprId} {x y : Expr}

/-- Refilling slots with expressions other than `a` does not make `a` a child. -/
theorem not_mem_children (h : Expr.Refills a y x) (hy : a ∉ y.children) : a ∉ x.children := by
  induction h with
  | refl => exact hy
  | tail _ hstep ih =>
    obtain ⟨old, new, hnew, rfl⟩ := hstep
    rw [Expr.children_replaceChild, List.mem_map]
    rintro ⟨c, hc, hca⟩
    split_ifs at hca
    · exact hnew hca
    · exact ih (hca ▸ hc)

/-- A refilled `struct.new` is a `struct.new` with as many operands. -/
theorem structNew {ops : List ExprId} {desc : Option ExprId}
    (h : Expr.Refills a (.structNew ops desc) x) :
    ∃ ops' desc', x = .structNew ops' desc' ∧ ops'.length = ops.length := by
  induction h with
  | refl => exact ⟨ops, desc, rfl, rfl⟩
  | tail _ hstep ih =>
    obtain ⟨old, new, -, rfl⟩ := hstep
    obtain ⟨ops', desc', rfl, hlen⟩ := ih
    exact ⟨_, _, rfl, (List.length_map _ _).trans hlen⟩

end Expr.Refills

/-! ## Slot owners come later in the walk -/

/-- Each entry's slot owner is visited later in the list, unless it is `top`. -/
def ParentsFollow (top : Option ExprId) : List (ExprId × Option ExprId) → Prop
  | [] => True
  | (_, q) :: rest => (∀ p, q = some p → p ∈ rest.map Prod.fst ∨ top = some p) ∧
      ParentsFollow top rest

namespace ParentsFollow

variable {top : Option ExprId}

theorem append : ∀ {l m : List (ExprId × Option ExprId)},
    ParentsFollow top l → ParentsFollow top m → ParentsFollow top (l ++ m)
  | [], _, _, hm => hm
  | _ :: _, _, ⟨hq, hl⟩, hm => ⟨fun p hp => (hq p hp).imp_left fun h => by simp [h], append hl hm⟩

theorem flatten : ∀ {ls : List (List (ExprId × Option ExprId))},
    (∀ l ∈ ls, ParentsFollow top l) → ParentsFollow top ls.flatten
  | [], _ => trivial
  | _ :: _, h => append (h _ (List.mem_cons_self _ _)) (flatten fun l hl => h l (List.mem_cons_of_mem _ hl))

/-- Closing the children's entries with their owner's. -/
theorem close {id : ExprId} {parent : Option ExprId} : ∀ {l : List (ExprId × Option ExprId)},
    ParentsFollow (some id) l → ParentsFollow parent (l ++ [(id, parent)])
  | [], _ => ⟨fun _ hp => Or.inr hp, trivial⟩
  | _ :: _, ⟨hq, hl⟩ => ⟨fun p hp => Or.inl (by
      rcases hq p hp with h | h
      · simp [h]
      · cases h; simp), close hl⟩

/-- The owner of an entry is after it. -/
theorem owner_mem {c p : ExprId} {post : List (ExprId × Option ExprId)} :
    ∀ {pre : List (ExprId × Option ExprId)}, ParentsFollow top (pre ++ (c, some p) :: post) →
      p ∈ post.map Prod.fst ∨ top = some p
  | [], h => h.1 p rfl
  | _ :: _, h => owner_mem h.2

end ParentsFollow

theorem parentsFollow_postOrderFrom (f : Function) :
    ∀ fuel id parent, ParentsFollow parent (postOrderFrom f fuel id parent)
  | 0, _, _ => trivial
  | fuel + 1, id, parent => by
    unfold postOrderFrom
    split
    · trivial
    · exact ParentsFollow.close (ParentsFollow.flatten fun l hl => by
        obtain ⟨c, -, rfl⟩ := List.mem_map.1 hl
        exact parentsFollow_postOrderFrom f fuel c (some id))

/-- The walk ends with the expression it started from. -/
theorem postOrderFrom_eq_nil_or (f : Function) (fuel : Nat) (id : ExprId) (parent : Option ExprId) :
    postOrderFrom f fuel id parent = [] ∨
      ∃ l, postOrderFrom f fuel id parent = l ++ [(id, parent)] := by
  cases fuel with
  | zero => exact Or.inl rfl
  | succ fuel =>
    unfold postOrderFrom
    split
    · exact Or.inl rfl
    · exact Or.inr ⟨_, rfl⟩

/-- The walk depends only on the arena and the body. -/
theorem postOrderFrom_congr {f g : Function} (h : g.exprs = f.exprs) :
    ∀ fuel id parent, postOrderFrom g fuel id parent = postOrderFrom f fuel id parent
  | 0, _, _ => rfl
  | fuel + 1, id, parent => by
    have hget : g.expr? id = f.expr? id := by simp only [Function.expr?, Function.get, h]
    simp only [postOrderFrom, hget, postOrderFrom_congr h fuel]

theorem postOrder_congr {f g : Function} (h : g.exprs = f.exprs) (hbody : g.body = f.body) :
    postOrder g = postOrder f := by
  rw [postOrder, postOrder, postOrderFrom_congr h, h, hbody]

end BinaryenPasses.IR

namespace BinaryenPasses.Heap2Local
open BinaryenPasses.IR

variable {a : ExprId}

@[simp] theorem Rewrite.func_refinalize (r : Rewrite) (b : Bool) :
    ({ r with refinalize := b } : Rewrite).func = r.func := rfl

theorem Rewrite.spares_replaceCurrent {r : Rewrite} {g : Function} {curr rep : ExprId}
    (parent : Option ExprId) (hg : r.func.Spares a g) (hrep : rep ≠ a) :
    r.func.Spares a ((r.withFunc g).replaceCurrent curr parent rep).func :=
  hg.trans (Function.Spares.replaceSlot _ _ hrep)

namespace Struct2Local
variable (s2l : Struct2Local)

theorem adjustTypeFlowingThrough_spares (r : Rewrite) (curr : ExprId) (hcurr : curr ≠ a)
    (hfree : ¬ r.func.Holds curr a) : r.func.Spares a (adjustTypeFlowingThrough r curr).func := by
  unfold adjustTypeFlowingThrough
  split_ifs
  · exact .refl _ _
  · split
    · next e he => exact Function.Spares.set hcurr fun h => hfree ⟨e.expr, by simp [Function.expr?, he], h⟩
    · exact .refl _ _

theorem visitBreak_spares (r : Rewrite) (curr : ExprId) (value condition : Option ExprId)
    (hcurr : curr ≠ a) (hfree : ¬ r.func.Holds curr a) :
    r.func.Spares a (visitBreak r curr value condition).func := by
  unfold visitBreak
  split_ifs
  · exact .refl _ _
  · split
    · next e he => exact Function.Spares.set hcurr fun h => hfree ⟨e.expr, by simp [Function.expr?, he], h⟩
    · exact .refl _ _

theorem visitLocalSet_spares (r : Rewrite) (curr : ExprId) (parent : Option ExprId) (value : ExprId)
    (isTee : Bool) (hvalue : value ≠ a) (ha : a < r.func.exprs.length) :
    r.func.Spares a (visitLocalSet r curr parent value isTee).func := by
  unfold visitLocalSet
  split_ifs
  · exact .refl _ _
  · exact (Function.Spares.replaceSlot _ _ hvalue)
  · refine Rewrite.spares_replaceCurrent _ (Function.Spares.grow ha ?_) ?_ <;>
      simp [Builder.makeDrop, Expr.children, Ne.symm hvalue, ne_of_fresh ha]

theorem visitLocalGet_spares (r : Rewrite) (curr : ExprId) (parent : Option ExprId) (type : Ty)
    (ha : a < r.func.exprs.length) : r.func.Spares a (visitLocalGet r curr parent type).func := by
  unfold visitLocalGet
  split_ifs
  · exact .refl _ _
  · refine Rewrite.spares_replaceCurrent _ (Function.Spares.grow ha ?_) ?_ <;>
      simp [Builder.makeRefNull, Expr.children, ne_of_fresh ha]

theorem visitRefIsNull_spares (r : Rewrite) (curr : ExprId) (parent : Option ExprId)
    (hcurr : curr ≠ a) (ha : a < r.func.exprs.length) :
    r.func.Spares a (visitRefIsNull r curr parent).func := by
  unfold visitRefIsNull
  split_ifs
  · exact .refl _ _
  · refine Rewrite.spares_replaceCurrent _ (Function.Spares.grow ha ?_) ?_ <;>
      simp [Builder.makeDrop, Builder.makeConst, Builder.makeSequence, Builder.makeBlock,
        Expr.children, Ne.symm hcurr, ne_of_fresh ha]

theorem visitRefEq_spares (r : Rewrite) (curr : ExprId) (parent : Option ExprId) (left right : ExprId)
    (type : Ty) (hleft : left ≠ a) (hright : right ≠ a) (ha : a < r.func.exprs.length) :
    r.func.Spares a (visitRefEq r curr parent left right type).func := by
  unfold visitRefEq
  split_ifs
  · exact .refl _ _
  · exact .refl _ _
  · refine Rewrite.spares_replaceCurrent _ (Function.Spares.grow ha ?_) ?_ <;>
      simp [Builder.makeDrop, Builder.makeConst, Builder.makeBlock,
        Expr.children, Ne.symm hleft, Ne.symm hright, ne_of_fresh ha]

theorem visitRefAs_spares (r : Rewrite) (curr : ExprId) (parent : Option ExprId) (value : ExprId)
    (hvalue : value ≠ a) : r.func.Spares a (visitRefAs r curr parent value).func := by
  unfold visitRefAs
  split_ifs
  · exact .refl _ _
  · exact Function.Spares.replaceSlot _ _ hvalue

theorem visitRefTest_spares (r : Rewrite) (curr : ExprId) (parent : Option ExprId) (ref : ExprId)
    (castType : Ty) (href : ref ≠ a) (ha : a < r.func.exprs.length) :
    r.func.Spares a (s2l.visitRefTest r curr parent ref castType).func := by
  unfold visitRefTest
  split_ifs
  · exact .refl _ _
  · refine Rewrite.spares_replaceCurrent _ (Function.Spares.grow ha ?_) ?_ <;>
      simp [Builder.makeDrop, Builder.makeConst, Builder.makeSequence, Builder.makeBlock,
        Expr.children, Ne.symm href, ne_of_fresh ha]

theorem visitRefGetDesc_spares (r : Rewrite) (curr : ExprId) (parent : Option ExprId) (ref : ExprId)
    (currType : Ty) (href : ref ≠ a) (ha : a < r.func.exprs.length) :
    r.func.Spares a (s2l.visitRefGetDesc r curr parent ref currType).func := by
  unfold visitRefGetDesc
  dsimp only
  split_ifs
  · exact .refl _ _
  all_goals
    refine Rewrite.spares_replaceCurrent _ (Function.Spares.grow ha ?_) ?_ <;>
      simp [Builder.makeLocalGet, Builder.makeDrop, Expr.children, Ne.symm href, ne_of_fresh ha]

theorem visitStructSet_spares (r : Rewrite) (curr : ExprId) (parent : Option ExprId) (index : Nat)
    (ref value : ExprId) (href : ref ≠ a) (hvalue : value ≠ a) (ha : a < r.func.exprs.length) :
    r.func.Spares a (s2l.visitStructSet r curr parent index ref value).func := by
  unfold visitStructSet
  split_ifs
  · exact .refl _ _
  · refine Rewrite.spares_replaceCurrent _ (Function.Spares.grow ha ?_) ?_ <;>
      simp [Builder.makeDrop, Builder.makeLocalSet, Builder.makeSequence, Builder.makeBlock,
        Expr.children, Ne.symm href, Ne.symm hvalue, ne_of_fresh ha]

theorem visitStructGet_spares (r : Rewrite) (curr : ExprId) (parent : Option ExprId) (index : Nat)
    (ref : ExprId) (signed : Bool) (currType : Ty) (href : ref ≠ a) (ha : a < r.func.exprs.length) :
    r.func.Spares a (s2l.visitStructGet r curr parent index ref signed currType).func := by
  unfold visitStructGet makePackedFieldGet
  dsimp only
  split_ifs
  · exact .refl _ _
  all_goals
    split <;>
    refine Rewrite.spares_replaceCurrent _ (Function.Spares.grow ha ?_) ?_ <;>
      simp [Builder.makeLocalGet, Builder.makeDrop, Builder.makeUnary, Builder.makeConst,
        Builder.makeBinary, Expr.children, Ne.symm href, ne_of_fresh ha]

theorem visitStructRMW_spares (r : Rewrite) (curr : ExprId) (parent : Option ExprId) (op : RMWOp)
    (index : Nat) (ref value : ExprId) (type : Ty) (href : ref ≠ a) (hvalue : value ≠ a)
    (ha : a < r.func.exprs.length) :
    r.func.Spares a (s2l.visitStructRMW r curr parent op index ref value type).func := by
  unfold visitStructRMW
  split_ifs
  · exact .refl _ _
  · cases op <;>
    refine Rewrite.spares_replaceCurrent _ ((Function.Spares.grow ha ?_).trans
      (Function.Spares.set ?_ ?_)) ?_ <;>
      simp [Builder.makeLocalGet, Builder.makeLocalSet, Builder.makeDrop, Builder.makeSequence,
        Builder.makeBlock, Builder.makeBinary, Expr.children, Ne.symm href, Ne.symm hvalue,
        ne_of_fresh ha]

theorem visitStructCmpxchg_spares (r : Rewrite) (curr : ExprId) (parent : Option ExprId)
    (index : Nat) (ref expected replacement : ExprId) (type : Ty) (href : ref ≠ a)
    (hexpected : expected ≠ a) (hreplacement : replacement ≠ a) (ha : a < r.func.exprs.length) :
    r.func.Spares a
      (s2l.visitStructCmpxchg r curr parent index ref expected replacement type).func := by
  unfold visitStructCmpxchg
  split_ifs
  · exact .refl _ _
  all_goals
    refine Rewrite.spares_replaceCurrent _ ((Function.Spares.grow ha ?_).trans
      (Function.Spares.set ?_ ?_)) ?_ <;>
    simp [Builder.makeLocalGet, Builder.makeLocalSet, Builder.makeDrop, Builder.makeBlock,
      Builder.makeIf, Builder.makeRefEq, Builder.makeBinary, Expr.children, Ne.symm href,
      Ne.symm hexpected, Ne.symm hreplacement, ne_of_fresh ha]

/-- Where a null may pass a cast, the cast is kept, now of a scratch local read after the
replacement is in place. -/
theorem keptCast_spares {f R : Function} {curr : ExprId} (hR : f.Spares a R)
    (ha : a < f.exprs.length) (hcurr : curr ≠ a) (scratch : Nat) (t type : Ty) :
    f.Spares a ((Builder.makeLocalGet R scratch t).1.set curr
      ⟨.refCast (Builder.makeLocalGet R scratch t).2 none, type⟩) := by
  have hR' : a < R.exprs.length := lt_of_lt_of_le ha hR.length
  exact hR.trans ((Function.Spares.grow hR' (by simp [Builder.makeLocalGet, Expr.children])).trans
    (Function.Spares.set hcurr (by simp [Builder.makeLocalGet, Expr.children, hR'.ne])))

theorem visitRefCast_spares (r : Rewrite) (curr : ExprId) (parent : Option ExprId) (ref : ExprId)
    (desc : Option ExprId) (type : Ty) (hcurr : curr ≠ a) (href : ref ≠ a) (hdesc : ∀ d ∈ desc, d ≠ a)
    (ha : a < r.func.exprs.length) :
    r.func.Spares a (s2l.visitRefCast r curr parent ref desc type).func := by
  unfold visitRefCast
  by_cases hnone : r.reached.get curr = .none
  · rw [if_pos hnone]; exact .refl _ _
  rw [if_neg hnone]
  rcases desc with _ | d
  · dsimp only
    split_ifs
    · exact Function.Spares.replaceSlot _ _ href
    · refine Rewrite.spares_replaceCurrent _ (Function.Spares.grow ha ?_) ?_ <;>
        simp [Builder.makeDrop, Builder.makeUnreachable, Builder.makeSequence, Builder.makeBlock,
          Expr.children, Ne.symm href, ne_of_fresh ha]
  · have hd : d ≠ a := hdesc d rfl
    dsimp only
    split_ifs
    · simp only [func_withFunc]
      refine keptCast_spares (Rewrite.spares_replaceCurrent _ (Function.Spares.grow ha ?_) ?_) ha
        hcurr _ _ _ <;>
        simp [Builder.addVar, Builder.makeLocalSet, Builder.makeDrop, Expr.children, Ne.symm href,
          Ne.symm hd, Ne.symm hcurr, ne_of_fresh ha]
    · refine Rewrite.spares_replaceCurrent _ (Function.Spares.grow ha ?_) ?_ <;>
        simp [Builder.makeDrop, Builder.makeUnreachable, Expr.children, Ne.symm href, Ne.symm hd,
          ne_of_fresh ha]
    · refine Rewrite.spares_replaceCurrent _ (Function.Spares.grow ha ?_) ?_ <;>
        simp [Builder.makeDrop, Builder.makeLocalGet, Builder.makeRefEq, Builder.makeRefNull,
          Builder.makeUnreachable, Builder.makeIf, Expr.children, Ne.symm href, Ne.symm hd,
          ne_of_fresh ha]


/-! ## The block that replaces the allocation -/

theorem storeOperands_spares (f : Function) (tempIndexes : List Nat) {ops : List ExprId}
    (hops : a ∉ ops) (hlen : ops = [] ∨ s2l.fields.length ≤ ops.length)
    (ha : a < f.exprs.length) :
    f.Spares a (s2l.storeOperands f tempIndexes ops).1 ∧
      ∀ id ∈ (s2l.storeOperands f tempIndexes ops).2, id ≠ a := by
  unfold storeOperands
  split
  · exact ⟨.refl _ _, fun _ h => nomatch h⟩
  · next hne =>
    have hlen' : s2l.fields.length ≤ ops.length := hlen.resolve_left (by simpa using hne)
    refine Function.Spares.buildEach (fun g hg i hi => Function.Spares.alloc hg ?_) ha
    have hi' : i < ops.length := lt_of_lt_of_le (List.mem_range.1 hi) hlen'
    simp only [Expr.children, List.mem_singleton, List.getD_eq_getElem _ _ hi']
    exact fun h => hops (h ▸ List.getElem_mem hi')

theorem storeDescriptor_spares (f : Function) (tempIndexes : List Nat) {desc : Option ExprId}
    (hdesc : ∀ d ∈ desc, d ≠ a) (ha : a < f.exprs.length) :
    f.Spares a (storeDescriptor f tempIndexes desc).1 ∧
      ∀ id ∈ (storeDescriptor f tempIndexes desc).2, id ≠ a := by
  cases desc with
  | none => exact ⟨.refl _ _, fun _ h => nomatch h⟩
  | some d =>
    have hd : d ≠ a := hdesc d rfl
    simp only [storeDescriptor]
    split_ifs <;> refine ⟨Function.Spares.grow ha ?_, ?_⟩ <;>
      simp [Builder.makeRefAs, Builder.makeLocalSet, Expr.children, Ne.symm hd, ne_of_fresh ha]

theorem storeFields_spares (f : Function) (tempIndexes : List Nat) (withDefault : Bool)
    (ha : a < f.exprs.length) :
    f.Spares a (s2l.storeFields f tempIndexes withDefault).1 ∧
      ∀ id ∈ (s2l.storeFields f tempIndexes withDefault).2, id ≠ a := by
  refine Function.Spares.buildEach (fun g hg i _ => ?_) ha
  cases withDefault
  · refine ⟨Function.Spares.grow hg ?_, ?_⟩ <;>
      simp [Builder.makeLocalGet, Builder.makeLocalSet, Expr.children, ne_of_fresh hg]
  · simp only [if_true]
    unfold Builder.makeConstantExpression
    split <;> refine ⟨Function.Spares.grow hg ?_, ?_⟩ <;>
      simp [Builder.makeRefNull, Builder.makeConst, Builder.makeLocalSet, Expr.children,
        ne_of_fresh hg]

theorem storeDescriptorLocal_spares (f : Function) (tempIndexes : List Nat)
    (desc : Option ExprId) (ha : a < f.exprs.length) :
    f.Spares a (s2l.storeDescriptorLocal f tempIndexes desc).1 ∧
      ∀ id ∈ (s2l.storeDescriptorLocal f tempIndexes desc).2, id ≠ a := by
  cases desc with
  | none => exact ⟨.refl _ _, fun _ h => nomatch h⟩
  | some d =>
    refine ⟨Function.Spares.grow ha ?_, ?_⟩ <;>
      simp [storeDescriptorLocal, Builder.makeLocalGet, Builder.makeLocalSet, Expr.children,
        ne_of_fresh ha]

/-- The block that replaces the allocation only adds expressions, none of which holds `a` when
no operand is `a`, and is not `a`. -/
theorem structNewReplacement_spares (f : Function) (ops : List ExprId) (desc : Option ExprId)
    (hops : a ∉ ops) (hdesc : ∀ d ∈ desc, d ≠ a)
    (hlen : ops = [] ∨ s2l.fields.length ≤ ops.length) (ha : a < f.exprs.length) :
    f.Spares a (s2l.structNewReplacement f ops desc).1 ∧
      (s2l.structNewReplacement f ops desc).2 ≠ a := by
  simp only [structNewReplacement]
  rcases h1 : Builder.addVars f (s2l.tempTypes f ops desc) with ⟨f1, ts⟩
  have s1 : f.Spares a f1 := .of_eq (by rw [← Builder.addVars_exprs f (s2l.tempTypes f ops desc), h1])
    (by rw [← Builder.body_addVars f (s2l.tempTypes f ops desc), h1])
  obtain ⟨s2, o2⟩ := s2l.storeOperands_spares f1 ts hops hlen (lt_of_lt_of_le ha s1.length)
  rcases h2 : s2l.storeOperands f1 ts ops with ⟨f2, opSets⟩
  rw [h2] at s2 o2
  obtain ⟨s3, o3⟩ := storeDescriptor_spares f2 ts hdesc (lt_of_lt_of_le ha (s1.trans s2).length)
  rcases h3 : storeDescriptor f2 ts desc with ⟨f3, descSet⟩
  rw [h3] at s3 o3
  have l3 := lt_of_lt_of_le ha ((s1.trans s2).trans s3).length
  obtain ⟨s4, o4⟩ := s2l.storeFields_spares f3 ts ops.isEmpty l3
  rcases h4 : s2l.storeFields f3 ts ops.isEmpty with ⟨f4, fieldSets⟩
  rw [h4] at s4 o4
  obtain ⟨s5, o5⟩ := s2l.storeDescriptorLocal_spares f4 ts desc (lt_of_lt_of_le l3 s4.length)
  rcases h5 : s2l.storeDescriptorLocal f4 ts desc with ⟨f5, descFieldSet⟩
  rw [h5] at s5 o5
  have l5 := lt_of_lt_of_le (lt_of_lt_of_le l3 s4.length) s5.length
  obtain ⟨s6, o6⟩ := Function.Spares.makeRefNull (f := f5) s2l.allocType.getHeapType l5
  rcases h6 : Builder.makeRefNull f5 s2l.allocType.getHeapType with ⟨f6, null⟩
  rw [h6] at s6 o6
  obtain ⟨s7, o7⟩ := Function.Spares.makeBlock (f := f6)
    (opSets ++ descSet ++ fieldSets ++ descFieldSet ++ [null])
    (lt_of_lt_of_le l5 s6.length) fun id hid => by
      simp only [List.mem_append, List.mem_singleton] at hid
      rcases hid with (((h | h) | h) | h) | rfl
      exacts [o2 id h, o3 id h, o4 id h, o5 id h, o6]
  exact ⟨(((((s1.trans s2).trans s3).trans s4).trans s5).trans s6).trans s7, o7⟩

/-! ## One visit -/

/-- A visit of an expression other than the allocation, none of whose slots holds it, spares
the allocation. -/
theorem visit_spares (r : Rewrite) (curr : ExprId) (parent : Option ExprId)
    (hcurr : curr ≠ s2l.allocation) (hfree : ¬ r.func.Holds curr s2l.allocation)
    (ha : s2l.allocation < r.func.exprs.length) :
    r.func.Spares s2l.allocation (s2l.visit r curr parent).func := by
  unfold visit
  split
  · exact .refl _ _
  next e type hget =>
    have hch : ∀ c ∈ e.children, c ≠ s2l.allocation := fun c hc h =>
      hfree ⟨e, by simp [Function.expr?, hget], h ▸ hc⟩
    split
    next => exact adjustTypeFlowingThrough_spares r curr hcurr hfree
    next => exact adjustTypeFlowingThrough_spares r curr hcurr hfree
    next _ value isTee =>
      exact visitLocalSet_spares r curr parent value isTee (hch value (by simp [Expr.children])) ha
    next => exact visitLocalGet_spares r curr parent type ha
    next _ value condition => exact visitBreak_spares r curr value condition hcurr hfree
    next => rw [visitStructNew, if_pos hcurr]; exact .refl _ _
    next => exact visitRefIsNull_spares r curr parent hcurr ha
    next left right =>
      exact visitRefEq_spares r curr parent left right type (hch left (by simp [Expr.children]))
        (hch right (by simp [Expr.children])) ha
    next _ value => exact visitRefAs_spares r curr parent value (hch value (by simp [Expr.children]))
    next ref castType =>
      exact s2l.visitRefTest_spares r curr parent ref castType (hch ref (by simp [Expr.children])) ha
    next ref desc =>
      exact s2l.visitRefCast_spares r curr parent ref desc type hcurr
        (hch ref (by simp [Expr.children])) (fun d hd => hch d (by simp [Expr.children, hd])) ha
    next ref =>
      exact s2l.visitRefGetDesc_spares r curr parent ref type (hch ref (by simp [Expr.children])) ha
    next index ref value =>
      exact s2l.visitStructSet_spares r curr parent index ref value
        (hch ref (by simp [Expr.children])) (hch value (by simp [Expr.children])) ha
    next index ref signed =>
      exact s2l.visitStructGet_spares r curr parent index ref signed type
        (hch ref (by simp [Expr.children])) ha
    next op index ref value =>
      exact s2l.visitStructRMW_spares r curr parent op index ref value type
        (hch ref (by simp [Expr.children])) (hch value (by simp [Expr.children])) ha
    next index ref expected replacement =>
      exact s2l.visitStructCmpxchg_spares r curr parent index ref expected replacement type
        (hch ref (by simp [Expr.children])) (hch expected (by simp [Expr.children]))
        (hch replacement (by simp [Expr.children])) ha
    next => exact .refl _ _

/-- Visiting the allocation, held by its slot owner alone, detaches it. -/
theorem visit_allocation_detached (r : Rewrite) (parent : Option ExprId) {f : Function}
    (hs : f.Spares s2l.allocation r.func)
    (hholds : ∀ id, f.Holds id s2l.allocation → parent = some id)
    (hbody : f.body = s2l.allocation → parent = none) {ops : List ExprId} {desc : Option ExprId}
    (hnew : r.func.expr? s2l.allocation = some (.structNew ops desc))
    (hself : s2l.allocation ∉ (Expr.structNew ops desc).children)
    (hlen : ops = [] ∨ s2l.fields.length ≤ ops.length) (ha : s2l.allocation < f.exprs.length) :
    (s2l.visit r s2l.allocation parent).func.Detached s2l.allocation := by
  obtain ⟨⟨e, type⟩, hget, he⟩ := Option.map_eq_some'.1 hnew
  cases he
  simp only [Expr.children, List.mem_append, not_or] at hself
  obtain ⟨hsnr, hblock⟩ := s2l.structNewReplacement_spares r.func ops desc hself.1
    (fun d hd h => hself.2 (by rw [← h]; simpa using hd)) hlen (lt_of_lt_of_le ha hs.length)
  rcases h : s2l.structNewReplacement r.func ops desc with ⟨g, block⟩
  rw [h] at hsnr hblock
  simp only [visit, hget, visitStructNew, ne_eq, not_true_eq_false, if_false, h,
    func_replaceCurrent, func_withFunc]
  exact (hs.trans hsnr).detach hholds hbody hblock ha

end Struct2Local
/-! ## The walk -/

/-- The body is the last expression visited, with no slot owner. -/
theorem postOrder_body_parent {f : Function} (htree : ((postOrder f).map Prod.fst).Nodup)
    {parent : Option ExprId} (h : (f.body, parent) ∈ postOrder f) : parent = none := by
  rcases postOrderFrom_eq_nil_or f f.exprs.length f.body none with hnil | ⟨l, hl⟩
  · rw [postOrder, hnil] at h; cases h
  rw [postOrder, hl] at h htree
  rcases List.mem_append.1 h with h | h
  · simp only [List.map_append, List.map_cons, List.map_nil, List.nodup_append] at htree
    exact absurd (List.mem_singleton_self f.body) (htree.2.2 (List.mem_map_of_mem Prod.fst h))
  · exact (Prod.mk.inj (List.mem_singleton.1 h)).2

/-- `Struct2Local` takes the allocation out of the function.  The walk visits every expression
once; the allocation is visited with the one slot that holds it; and its operands fill every
field or none. -/
theorem struct2Local_detached (types : TypeSection) (allocation : ExprId) (f : Function)
    (reached : Interactions) (htree : ((postOrder f).map Prod.fst).Nodup)
    {parent : Option ExprId} (hvisited : (allocation, parent) ∈ postOrder f)
    (hslot : ∀ id, f.Holds id allocation → parent = some id)
    {ops : List ExprId} {desc : Option ExprId}
    (hnew : f.expr? allocation = some (.structNew ops desc))
    (hops : ∀ i, definedIndex (f.typeOf allocation) = some i →
      ops = [] ∨ (fieldsOf types i).length ≤ ops.length) :
    (struct2Local types allocation f reached).1.Detached allocation := by
  have hbody : f.body = allocation → parent = none := fun h =>
    postOrder_body_parent htree (h ▸ hvisited)
  have ha : allocation < f.exprs.length := lt_of_expr? hnew
  -- the constructor only adds locals
  have hexprs : (Struct2Local.make types f allocation).2.exprs = f.exprs := Builder.addVars_exprs _ _
  have hbody' : (Struct2Local.make types f allocation).2.body = f.body := Builder.body_addVars _ _
  have hf : f.Spares allocation (Struct2Local.make types f allocation).2 := .of_eq hexprs hbody'
  -- the order of the walk, around the allocation
  obtain ⟨pre, post, hsplit⟩ := List.append_of_mem hvisited
  have howner : ∀ p, parent = some p → p ∈ post.map Prod.fst := fun p hp => by
    have := parentsFollow_postOrderFrom f f.exprs.length f.body none
    rw [← postOrder, hsplit, hp] at this
    exact (ParentsFollow.owner_mem this).resolve_right nofun
  rw [hsplit] at htree
  simp only [List.map_append, List.map_cons, List.nodup_append, List.nodup_cons,
    List.disjoint_cons_right] at htree
  obtain ⟨-, ⟨hpost, -⟩, hpre, hdisj⟩ := htree
  have hfree : ∀ q ∈ pre, ¬ f.Holds q.1 allocation := fun q hq h =>
    hdisj (List.mem_map_of_mem Prod.fst hq) (howner q.1 (hslot q.1 h))
  have hself : allocation ∉ (Expr.structNew ops desc).children := fun h =>
    hpost (howner allocation (hslot allocation ⟨_, hnew, h⟩))
  set s2l := (Struct2Local.make types f allocation).1
  show (walkBody s2l.visit (Struct2Local.make types f allocation).2
    ⟨(Struct2Local.make types f allocation).2, reached, false⟩).func.Detached allocation
  rw [walkBody, postOrder_congr hexprs hbody', hsplit, List.foldl_append, List.foldl_cons]
  -- before the allocation, every visit spares it
  have hbefore := List.foldlRecOn (motive := fun r : Rewrite => f.Spares allocation r.func) pre
    (fun st q => s2l.visit st q.1 q.2) ⟨(Struct2Local.make types f allocation).2, reached, false⟩ hf
    fun r hr q hq => hr.trans (s2l.visit_spares r q.1 q.2
      (fun h => hpre ((show q.1 = allocation from h) ▸ List.mem_map_of_mem Prod.fst hq))
      (fun h => hfree q hq (hr.holds q.1 h)) (lt_of_lt_of_le ha hr.length))
  generalize pre.foldl _ _ = r at hbefore
  -- the allocation, its slots refilled, is detached by its own visit
  obtain ⟨x, hx⟩ : ∃ x, r.func.expr? allocation = some x := by
    rw [Function.expr?_eq_shape, List.getElem?_eq_getElem (by simpa using lt_of_lt_of_le ha hbefore.length)]
    exact ⟨_, rfl⟩
  obtain ⟨y, hy, hyx⟩ := hbefore.expr x hx
  rw [hnew] at hy; cases hy
  obtain ⟨ops', desc', rfl, hlen⟩ := hyx.structNew
  have hlen' : ops' = [] ∨ s2l.fields.length ≤ ops'.length := by
    show ops' = [] ∨ (match definedIndex (f.typeOf allocation) with
      | some i => fieldsOf types i | none => []).length ≤ ops'.length
    split
    next i hi =>
      rcases hops i hi with h | h
      · exact .inl (List.eq_nil_of_length_eq_zero (by simp [hlen, h]))
      · exact .inr (hlen ▸ h)
    next => exact .inr (Nat.zero_le _)
  have hat := s2l.visit_allocation_detached r parent hbefore hslot hbody hx
    (hyx.not_mem_children hself) hlen' ha
  -- after it, every visit keeps it detached
  exact List.foldlRecOn (motive := fun r : Rewrite => r.func.Detached allocation) post _ _ hat
    fun r hr q hq => hr.spares (s2l.visit_spares r q.1 q.2
      (fun h => hpost ((show q.1 = allocation from h) ▸ List.mem_map_of_mem Prod.fst hq))
      (hr.free q.1) hr.lt)

/-- After `Struct2Local`, no expression holds the allocation and the body does not reach it:
the allocation is gone from the function. -/
theorem struct2Local_removes_allocation (types : TypeSection) (allocation : ExprId)
    (f : Function) (reached : Interactions) (htree : ((postOrder f).map Prod.fst).Nodup)
    {parent : Option ExprId} (hvisited : (allocation, parent) ∈ postOrder f)
    (hslot : ∀ id, f.Holds id allocation → parent = some id)
    {ops : List ExprId} {desc : Option ExprId}
    (hnew : f.expr? allocation = some (.structNew ops desc))
    (hops : ∀ i, definedIndex (f.typeOf allocation) = some i →
      ops = [] ∨ (fieldsOf types i).length ≤ ops.length) :
    (∀ id, ¬ (struct2Local types allocation f reached).1.Holds id allocation) ∧
      ¬ (struct2Local types allocation f reached).1.Reaches
        (struct2Local types allocation f reached).1.body allocation :=
  have hd := struct2Local_detached types allocation f reached htree hvisited hslot hnew hops
  ⟨hd.free, hd.not_reaches_body⟩

/-- A struct type with one mutable `i32` field. -/
def counterSection : TypeSection := [.struct [⟨.i32, .notPacked, true⟩] none none]

/-- `(drop (struct.new $Counter (i32.const 7)))`. -/
def droppedCounter : Function :=
  ⟨[], [], [⟨.const (.i32 7), .i32⟩, ⟨.structNew [0] none, .ref (.defined 0) false⟩,
    ⟨.drop 1, .none⟩], 2⟩

/-- The dropped counter's allocation is gone after `Struct2Local`. -/
theorem struct2Local_removes_droppedCounter :
    (∀ id, ¬ (struct2Local counterSection 1 droppedCounter []).1.Holds id 1) ∧
      ¬ (struct2Local counterSection 1 droppedCounter []).1.Reaches
        (struct2Local counterSection 1 droppedCounter []).1.body 1 :=
  struct2Local_removes_allocation counterSection 1 droppedCounter [] (by decide)
    (show (1, some 2) ∈ postOrder droppedCounter by decide)
    (fun id ⟨x, hx, hm⟩ => by
      rcases id with _ | _ | _ | id <;>
        simp [droppedCounter, Function.expr?, Function.get, Expr.children] at hx ⊢ <;>
        subst hx <;> simp [Expr.children] at hm)
    rfl (fun i hi => by cases hi; decide)

end BinaryenPasses.Heap2Local
