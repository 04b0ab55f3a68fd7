import BinaryenPasses.Heap2Local.ArrayReplacement

/-!
# The struct that replaces the array

`Array2Struct.make` builds, for an array allocation of `numFields` slots, the struct type with
the array's element as each of its `numFields` fields (`internStruct`, which reuses an equal
type the module has), and a `struct.new` of it: of the same operands for `array.new_fixed`, of
no operand for `array.new_default`, and of `numFields` reads of a scratch local set to the
initial value for `array.new`.  It then retypes the reached expressions, which changes no
expression and leaves the `struct.new`'s type alone.  Run from states where the operands give
the same values, the allocation and its replacement create objects holding the same slots,
the struct's fields being the element `numFields` times: the correspondence the accesses of
`ArrayReplacement` start from.

* `internStruct_spec` — the struct type has the given fields;
* `retypeReached_get`, `foldl_retypeReached` — the retyping keeps every expression, and the type
  of an expression of the struct type;
* `make_arrayNewFixed`, `make_arrayNewDefault`, `make_arrayNewInit` — where `make` puts the
  `struct.new` and what it holds;
* **`arrayNewReplacement_matches_allocation`** — the replacement creates, where the allocation
  creates an array, a struct holding the same slots.
-/

namespace BinaryenPasses.Heap2Local

open BinaryenPasses.IR

/-! ## The struct type -/

/-- `internStruct` gives a type whose fields are the ones asked for, whether the module had it
or it is new. -/
theorem internStruct_spec (types : TypeSection) (fields : List Field) :
    ∃ i, (internStruct types fields).2 = .defined i ∧
      fieldsOf (internStruct types fields).1 i = fields := by
  unfold internStruct
  split
  · next i h =>
    obtain ⟨hi, hp, -⟩ := List.findIdx?_eq_some_iff_getElem.1 h
    simp only [beq_iff_eq] at hp
    exact ⟨i, rfl, by simp [fieldsOf, List.getElem?_eq_getElem hi, hp]⟩
  · exact ⟨types.length, rfl, by simp [fieldsOf]⟩

/-! ## The retyping of the reached expressions -/

/-- One step of the retyping changes no expression, and keeps the type of an expression that
already has the struct type. -/
theorem retypeReached_get (types : TypeSection) (arrayType structType : HeapType)
    (acc : Function × Bool) (reached x : ExprId) :
    (retypeReached types arrayType structType acc reached).1.expr? x = acc.1.expr? x ∧
      ∀ b, acc.1.typeOf x = .ref structType b →
        (retypeReached types arrayType structType acc reached).1.typeOf x = .ref structType b := by
  obtain ⟨f, flag⟩ := acc
  simp only [retypeReached]
  split
  · exact ⟨rfl, fun _ h => h⟩
  · next e _ he =>
    split_ifs
    · exact ⟨rfl, fun _ h => h⟩
    · by_cases hx : x = reached
      · subst hx
        have hk : x < f.exprs.length := (List.getElem?_eq_some_iff.1 he).1
        simp only [Function.expr?, Function.typeOf, get_set_self f hk, he]
        refine ⟨rfl, fun b h => ?_⟩
        simp only [Option.map_some', Option.getD_some] at h ⊢
        simp [h, Ty.isNullable]
      · have hget := get_set_ne f hx { e with type := .ref structType e.type.isNullable }
        exact ⟨by simp only [Function.expr?, hget],
          fun _ h => by simpa only [Function.typeOf, hget] using h⟩
    · exact ⟨rfl, fun _ h => h⟩
  · exact ⟨rfl, fun _ h => h⟩

/-- The whole retyping changes no expression, and keeps the type of an expression that already
has the struct type. -/
theorem foldl_retypeReached (types : TypeSection) (arrayType structType : HeapType) :
    ∀ (l : List ExprId) (acc : Function × Bool) (x : ExprId),
      (l.foldl (retypeReached types arrayType structType) acc).1.expr? x = acc.1.expr? x ∧
      ∀ b, acc.1.typeOf x = .ref structType b →
        (l.foldl (retypeReached types arrayType structType) acc).1.typeOf x = .ref structType b
  | [], _, _ => ⟨rfl, fun _ h => h⟩
  | r :: l, acc, x => by
    obtain ⟨h₁, h₂⟩ := retypeReached_get types arrayType structType acc r x
    obtain ⟨h₃, h₄⟩ := foldl_retypeReached types arrayType structType l
      (retypeReached types arrayType structType acc r) x
    exact ⟨h₃.trans h₁, fun b h => h₄ b (h₂ b h)⟩

/-- The retyping keeps the locals. -/
theorem foldl_retypeReached_numLocals (types : TypeSection) (arrayType structType : HeapType) :
    ∀ (l : List ExprId) (acc : Function × Bool),
      (l.foldl (retypeReached types arrayType structType) acc).1.numLocals = acc.1.numLocals
  | [], _ => rfl
  | r :: l, ⟨f, flag⟩ => by
    rw [List.foldl_cons, foldl_retypeReached_numLocals types arrayType structType l]
    simp only [retypeReached]
    split
    · rfl
    · split_ifs <;> rfl
    · rfl

/-! ## What `make` builds -/

section make

variable (types : TypeSection) (f : Function) (reached : Interactions) {allocation : ExprId}

/-- The struct type `make` interns has the array's element as each of its fields. -/
theorem make_fieldsOf {i j : Nat} (hj : definedIndex (f.typeOf allocation) = some j)
    (hi : (Array2Struct.make types f reached allocation).1.structType = .defined i) :
    fieldsOf (Array2Struct.make types f reached allocation).2.1 i =
      List.replicate (Array2Struct.make types f reached allocation).1.numFields
        (elementOf types j) := by
  obtain ⟨i', hi', hfields⟩ := internStruct_spec types
    (List.replicate (getArrayNewSize f allocation) (elementOf types j))
  simp only [Array2Struct.make, hj] at hi ⊢
  rw [hi'] at hi
  cases hi
  exact hfields

/-- For `array.new_fixed`, the `struct.new` of the same operands replaces the allocation. -/
theorem make_arrayNewFixed {values : List ExprId}
    (h : f.expr? allocation = some (.arrayNewFixed values)) :
    (Array2Struct.make types f reached allocation).1.numFields = values.length ∧
      (Array2Struct.make types f reached allocation).1.arrayNewReplacement =
        (Array2Struct.make types f reached allocation).1.structNew ∧
      (Array2Struct.make types f reached allocation).2.2.func.expr?
        (Array2Struct.make types f reached allocation).1.structNew =
        some (.structNew values none) ∧
      (Array2Struct.make types f reached allocation).2.2.func.typeOf
        (Array2Struct.make types f reached allocation).1.structNew =
        .ref (Array2Struct.make types f reached allocation).1.structType false := by
  simp only [Array2Struct.make, h]
  exact ⟨by simp only [getArrayNewSize, h], trivial,
    (foldl_retypeReached _ _ _ _ _ _).1.trans (Builder.expr?_alloc _ _),
    (foldl_retypeReached _ _ _ _ _ _).2 false (by simp [Builder.makeStructNew, Builder.alloc,
      Function.typeOf, Function.get])⟩

/-- For `array.new_default`, the `struct.new` of no operand replaces the allocation. -/
theorem make_arrayNewDefault {size : ExprId}
    (h : f.expr? allocation = some (.arrayNew none size)) :
    (Array2Struct.make types f reached allocation).1.numFields = getIndex f size ∧
      (Array2Struct.make types f reached allocation).1.arrayNewReplacement =
        (Array2Struct.make types f reached allocation).1.structNew ∧
      (Array2Struct.make types f reached allocation).2.2.func.expr?
        (Array2Struct.make types f reached allocation).1.structNew = some (.structNew [] none) ∧
      (Array2Struct.make types f reached allocation).2.2.func.typeOf
        (Array2Struct.make types f reached allocation).1.structNew =
        .ref (Array2Struct.make types f reached allocation).1.structType false := by
  simp only [Array2Struct.make, h]
  exact ⟨by simp only [getArrayNewSize, h], trivial,
    (foldl_retypeReached _ _ _ _ _ _).1.trans (Builder.expr?_alloc _ _),
    (foldl_retypeReached _ _ _ _ _ _).2 false (by simp [Builder.makeStructNew, Builder.alloc,
      Function.typeOf, Function.get])⟩

/-- For `array.new` with an initial value, a block replaces the allocation: the `local.set` of
the value in a new local, then the `struct.new` of `numFields` reads of it. -/
theorem make_arrayNewInit {init size : ExprId}
    (h : f.expr? allocation = some (.arrayNew (some init) size)) :
    (Array2Struct.make types f reached allocation).1.numFields = getIndex f size ∧
      (Array2Struct.make types f reached allocation).2.2.func.numLocals = f.numLocals + 1 ∧
      ∃ set gets, (Array2Struct.make types f reached allocation).2.2.func.expr?
          (Array2Struct.make types f reached allocation).1.arrayNewReplacement =
          some (.block none [set, (Array2Struct.make types f reached allocation).1.structNew]) ∧
        (Array2Struct.make types f reached allocation).2.2.func.expr? set =
          some (.localSet f.numLocals init false) ∧
        (Array2Struct.make types f reached allocation).2.2.func.expr?
          (Array2Struct.make types f reached allocation).1.structNew =
          some (.structNew gets none) ∧
        (Array2Struct.make types f reached allocation).2.2.func.typeOf
          (Array2Struct.make types f reached allocation).1.structNew =
          .ref (Array2Struct.make types f reached allocation).1.structType false ∧
        List.Forall₂ (fun _ g => (Array2Struct.make types f reached allocation).2.2.func.expr? g =
          some (.localGet f.numLocals))
          (List.range (Array2Struct.make types f reached allocation).1.numFields) gets := by
  simp only [Array2Struct.make, h]
  have hgets : ∀ (t : Ty) (g₀ : Function) (xs : List Nat),
      g₀.Extends
        (Builder.buildEach (fun g _ => Builder.makeLocalGet g f.numLocals t) g₀ xs).1 ∧
      List.Forall₂ (fun _ id =>
          (Builder.buildEach (fun g _ => Builder.makeLocalGet g f.numLocals t) g₀ xs).1.expr? id =
            some (.localGet f.numLocals)) xs
        (Builder.buildEach (fun g _ => Builder.makeLocalGet g f.numLocals t) g₀ xs).2 :=
    fun t g₀ xs => Builder.buildEach_spec _
      (fun _ g id => g.expr? id = some (.localGet f.numLocals))
      (fun g _ => ⟨Builder.alloc_extends _ _, Builder.expr?_alloc _ _⟩)
      (fun _ _ _ _ hext h => hext.expr? h) xs g₀ _ (.refl _)
  refine ⟨by simp only [getArrayNewSize, h], ?_, _, _,
    (foldl_retypeReached _ _ _ _ _ _).1.trans (Builder.expr?_alloc _ _),
    (foldl_retypeReached _ _ _ _ _ _).1.trans (((hgets _ _ _).1.trans
      ((Builder.alloc_extends _ _).trans (Builder.alloc_extends _ _))).expr?
        (Builder.expr?_alloc _ _)),
    (foldl_retypeReached _ _ _ _ _ _).1.trans ((Builder.alloc_extends _ _).expr?
      (Builder.expr?_alloc _ _)),
    (foldl_retypeReached _ _ _ _ _ _).2 false ?_,
    (hgets _ _ _).2.imp fun _ _ hg => (foldl_retypeReached _ _ _ _ _ _).1.trans
      (((Builder.alloc_extends _ _).trans (Builder.alloc_extends _ _)).expr? hg)⟩
  · rw [foldl_retypeReached_numLocals]
    simp only [Builder.makeSequence, Builder.makeBlock, Builder.makeStructNew,
      Builder.alloc_numLocals]
    rw [Builder.buildEach_numLocals _ (fun _ _ => rfl)]
    simp only [Builder.makeLocalSet, Builder.alloc_numLocals]
    simp [Builder.addVar, Function.numLocals, Nat.add_assoc]
  · refine ((Builder.alloc_extends _ _).typeOf ?_).trans ?_
    · simp [Builder.makeStructNew, Builder.alloc]
    · simp [Builder.makeStructNew, Builder.alloc, Function.typeOf, Function.get]

end make

/-! ## Running the allocation and the `struct.new` -/

variable (types : TypeSection) (env : CallEnv)

/-- Packing a list of values each with the same field. -/
theorem zipWith_replicate_left {α β γ : Type} (g : α → β → γ) (a : α) :
    ∀ l : List β, List.zipWith g (List.replicate l.length a) l = l.map (g a)
  | [] => rfl
  | b :: l => by simp [List.replicate_succ, zipWith_replicate_left g a l]

/-- Reads of one local, each at least one step of fuel: the local's value, once per read, in the
same state. -/
theorem seqEval_localGets {g : Function} {t : Nat} {v : Literal} (m : Nat) {s : State}
    (hv : s.locals[t]? = some v) : ∀ {xs : List Nat} {gets : List ExprId},
      List.Forall₂ (fun _ id => g.expr? id = some (.localGet t)) xs gets →
      seqEval (eval types env g (m + 1)) gets s = (.ok (List.replicate gets.length (some v)), s)
  | _, _, .nil => rfl
  | _, _, .cons h hs => by
    simp only [seqEval, eval_of_expr? types env h, evalStep, hv,
      seqEval_localGets m hv hs, List.length_cons, List.replicate_succ]

/-- A `struct.new` with no descriptor: its operands as `seqEval` runs them, then a new object of
its type holding them packed, or the zeros of the fields when it has none. -/
theorem eval_structNew_none {g : Function} {B : ExprId} {ops : List ExprId} {i : Nat}
    (hB : g.expr? B = some (.structNew ops none)) (hty : g.typeOf B = .ref (.defined i) false)
    (m : Nat) (s : State) :
    (∀ fl s', seqEval (eval types env g m) ops s = (.error fl, s') →
      eval types env g (m + 1) B s = (fl, s')) ∧
    (∀ vs s', seqEval (eval types env g m) ops s = (.ok vs, s') →
      eval types env g (m + 1) B s =
        (.normal (some (s'.alloc ⟨i, if ops = [] then (fieldsOf types i).map fun fl =>
            Literal.makeZero fl.type
          else List.zipWith (fun fl v => Literal.pack fl (v.getD .null)) (fieldsOf types i) vs,
          none⟩).2),
        (s'.alloc ⟨i, if ops = [] then (fieldsOf types i).map fun fl => Literal.makeZero fl.type
          else List.zipWith (fun fl v => Literal.pack fl (v.getD .null)) (fieldsOf types i) vs,
          none⟩).1)) := by
  rw [eval_of_expr? types env hB, hty]
  refine ⟨fun fl s' h => ?_, fun vs s' h => ?_⟩ <;>
    simp only [evalStep, Option.toList, List.append_nil, h, andThenAll]
  simp [definedIndex, Ty.getHeapType]

/-! ## The replacement against the allocation -/

/-- **The replacement creates what the allocation creates.**  Take an array allocation of the
original function `f₀`, evaluated with the original types, of type `ty` (array type `j`), and
the same allocation in `f`, from which `Array2Struct.make` builds the struct type `i` (in its
types `types'`), the `struct.new` of it and the expression that replaces the allocation, in its
function `F`.  The struct type's fields are the array's element `numFields` times.  Run the
allocation from any state, and the replacement from any state of `F`.

For `array.new_fixed`, when the operands fail alike both fail alike, and when they give the same
values both create an object holding them packed with the element: the array at the end of the
original heap, the struct at the end of the other.  For `array.new_default` of the constant
size `k`, both create an object of `k` zeros of the element's type.  For `array.new` of the
constant size `k`, when the initial value fails alike both fail alike, and when it gives the same
value `v` both create an object of `k` copies of `v` packed; the replacement leaves `v` in its new
local. -/
theorem arrayNewReplacement_matches_allocation {f₀ f : Function} (reached : Interactions)
    {alloc₀ allocation : ExprId} {ty : Ty} {i j : Nat} (hty : definedIndex ty = some j)
    (htype : f.typeOf allocation = ty)
    (hi : (Array2Struct.make types f reached allocation).1.structType = .defined i)
    (m n : Nat) (so sn : State) :
    fieldsOf (Array2Struct.make types f reached allocation).2.1 i =
        List.replicate (Array2Struct.make types f reached allocation).1.numFields
          (elementOf types j) ∧
    (∀ values₀ values, f₀.get alloc₀ = some ⟨.arrayNewFixed values₀, ty⟩ →
      f.expr? allocation = some (.arrayNewFixed values) →
      (∀ fl so' sn', seqEval (eval types env f₀ m) values₀ so = (.error fl, so') →
        seqEval (eval (Array2Struct.make types f reached allocation).2.1 env
          (Array2Struct.make types f reached allocation).2.2.func (n + 1)) values sn =
          (.error fl, sn') →
        eval types env f₀ (m + 1) alloc₀ so = (fl, so') ∧
        eval (Array2Struct.make types f reached allocation).2.1 env
          (Array2Struct.make types f reached allocation).2.2.func (n + 2)
          (Array2Struct.make types f reached allocation).1.arrayNewReplacement sn = (fl, sn')) ∧
      (∀ vs so' sn', seqEval (eval types env f₀ m) values₀ so = (.ok vs, so') →
        seqEval (eval (Array2Struct.make types f reached allocation).2.1 env
          (Array2Struct.make types f reached allocation).2.2.func (n + 1)) values sn =
          (.ok vs, sn') →
        eval types env f₀ (m + 1) alloc₀ so =
          (.normal (some (so'.alloc ⟨j, vs.map fun v =>
            Literal.pack (elementOf types j) (v.getD .null), none⟩).2),
          (so'.alloc ⟨j, vs.map fun v => Literal.pack (elementOf types j) (v.getD .null),
            none⟩).1) ∧
        eval (Array2Struct.make types f reached allocation).2.1 env
          (Array2Struct.make types f reached allocation).2.2.func (n + 2)
          (Array2Struct.make types f reached allocation).1.arrayNewReplacement sn =
          (.normal (some (sn'.alloc ⟨i, vs.map fun v =>
            Literal.pack (elementOf types j) (v.getD .null), none⟩).2),
          (sn'.alloc ⟨i, vs.map fun v => Literal.pack (elementOf types j) (v.getD .null),
            none⟩).1))) ∧
    (∀ size₀ size k so', f₀.get alloc₀ = some ⟨.arrayNew none size₀, ty⟩ →
      f.expr? allocation = some (.arrayNew none size) → f.expr? size = some (.const k) →
      seqEval (eval types env f₀ m) [size₀] so = (.ok [some k], so') →
      eval types env f₀ (m + 1) alloc₀ so =
        (.normal (some (so'.alloc ⟨j, List.replicate k.getUnsigned
          (Literal.makeZero (elementOf types j).type), none⟩).2),
        (so'.alloc ⟨j, List.replicate k.getUnsigned (Literal.makeZero (elementOf types j).type),
          none⟩).1) ∧
      eval (Array2Struct.make types f reached allocation).2.1 env
        (Array2Struct.make types f reached allocation).2.2.func (n + 1)
        (Array2Struct.make types f reached allocation).1.arrayNewReplacement sn =
        (.normal (some (sn.alloc ⟨i, List.replicate k.getUnsigned
          (Literal.makeZero (elementOf types j).type), none⟩).2),
        (sn.alloc ⟨i, List.replicate k.getUnsigned
          (Literal.makeZero (elementOf types j).type), none⟩).1)) ∧
    (∀ init₀ size₀ init size k, f₀.get alloc₀ = some ⟨.arrayNew (some init₀) size₀, ty⟩ →
      f.expr? allocation = some (.arrayNew (some init) size) → f.expr? size = some (.const k) →
      f.numLocals < sn.locals.length →
      (∀ fl so' sn', (∀ v, fl ≠ .normal v) →
        seqEval (eval types env f₀ m) [init₀, size₀] so = (.error fl, so') →
        eval (Array2Struct.make types f reached allocation).2.1 env
          (Array2Struct.make types f reached allocation).2.2.func (n + 1) init sn = (fl, sn') →
        eval types env f₀ (m + 1) alloc₀ so = (fl, so') ∧
        eval (Array2Struct.make types f reached allocation).2.1 env
          (Array2Struct.make types f reached allocation).2.2.func (n + 3)
          (Array2Struct.make types f reached allocation).1.arrayNewReplacement sn = (fl, sn')) ∧
      (∀ v so' sn',
        seqEval (eval types env f₀ m) [init₀, size₀] so = (.ok [some v, some k], so') →
        eval (Array2Struct.make types f reached allocation).2.1 env
          (Array2Struct.make types f reached allocation).2.2.func (n + 1) init sn =
          (.normal (some v), sn') →
        eval types env f₀ (m + 1) alloc₀ so =
          (.normal (some (so'.alloc ⟨j, List.replicate k.getUnsigned
            (Literal.pack (elementOf types j) v), none⟩).2),
          (so'.alloc ⟨j, List.replicate k.getUnsigned (Literal.pack (elementOf types j) v),
            none⟩).1) ∧
        eval (Array2Struct.make types f reached allocation).2.1 env
          (Array2Struct.make types f reached allocation).2.2.func (n + 3)
          (Array2Struct.make types f reached allocation).1.arrayNewReplacement sn =
          (.normal (some ((sn'.setLocal f.numLocals v).alloc
            ⟨i, List.replicate k.getUnsigned (Literal.pack (elementOf types j) v), none⟩).2),
          ((sn'.setLocal f.numLocals v).alloc ⟨i, List.replicate k.getUnsigned
            (Literal.pack (elementOf types j) v), none⟩).1))) := by
  have hfields := make_fieldsOf types f reached (htype ▸ hty) hi
  set T' := (Array2Struct.make types f reached allocation).2.1
  refine ⟨hfields, fun values₀ values hget h => ?_,
    fun size₀ size k so' hget h hsize h₁ => ?_,
    fun init₀ size₀ init size k hget h hsize hroom => ?_⟩
  · -- `array.new_fixed`: the same operands
    obtain ⟨hnum, hrep, hB, hBty⟩ := make_arrayNewFixed types f reached h
    have hS := eval_structNew_none T' env hB (by rw [hBty, hi]) (n + 1) sn
    rw [hrep]
    refine ⟨fun fl so' sn' h₁ h₂ => ⟨?_, hS.1 fl sn' h₂⟩, fun vs so' sn' h₁ h₂ => ⟨?_, ?_⟩⟩
    · rw [eval_succ, hget]
      simp only [evalStep, h₁, andThenAll]
    · rw [eval_succ, hget]
      simp only [evalStep, h₁, andThenAll, hty]
    · rw [hS.2 vs sn' h₂, hfields, hnum]
      rcases values with _ | ⟨x, values⟩
      · obtain ⟨rfl, rfl⟩ : vs = [] ∧ sn' = sn := by
          simpa [seqEval, eq_comm] using h₂
        rfl
      · rw [← Struct2Local.seqEval_ok_length h₂, zipWith_replicate_left]
        rfl
  · -- `array.new_default`: no operand, `numFields` zeros
    obtain ⟨hnum, hrep, hB, hBty⟩ := make_arrayNewDefault types f reached h
    have hS := eval_structNew_none T' env hB (by rw [hBty, hi]) n sn
    rw [hrep, (hS.2 [] sn rfl), hfields, hnum, Array2Struct.getIndex_const hsize]
    refine ⟨?_, by simp [List.map_replicate]⟩
    rw [eval_succ, hget]
    simp only [evalStep, Option.toList, List.nil_append, h₁, andThenAll, hty]
    simp
  · -- `array.new` of an initial value: the value in a new local, read once per field
    obtain ⟨hnum, hloc, set, gets, hB, hset, hS, hSty, hgets⟩ :=
      make_arrayNewInit types f reached h
    have hS' := eval_structNew_none T' env hS (by rw [hSty, hi]) (n + 1)
    refine ⟨fun fl so' sn' hn h₁ h₂ => ⟨?_, ?_⟩, fun v so' sn' h₁ h₂ => ⟨?_, ?_⟩⟩
    · rw [eval_succ, hget]
      simp only [evalStep, Option.toList, List.singleton_append, h₁, andThenAll]
    · rw [Struct2Local.eval_block_none T' env hB]
      simp only [seqEval, Struct2Local.eval_localSet T' env hset, h₂]
      cases fl with
      | normal v => exact absurd rfl (hn v)
      | _ => rfl
    · rw [eval_succ, hget]
      simp only [evalStep, Option.toList, List.singleton_append, h₁, andThenAll, hty,
        Option.isSome_some, if_true, List.head?_cons, List.getLast?_cons_cons,
        List.getLast?_singleton, Option.getD_some, Option.map_some']
    · have hlen : f.numLocals < sn'.locals.length := by
        have := eval_locals_length T' env
          (Array2Struct.make types f reached allocation).2.2.func (n + 1) init sn
        rw [h₂] at this
        exact this ▸ hroom
      rw [Struct2Local.eval_block_none T' env hB]
      have hgets' := seqEval_localGets T' env n
        (Struct2Local.getElem?_locals_setLocal_self hlen v) hgets
      simp only [seqEval, Struct2Local.eval_localSet T' env hset, h₂, andThen,
        (hS' (sn'.setLocal f.numLocals v)).2 _ _ hgets', hfields, hgets.length_eq.symm,
        List.length_range, hnum, Array2Struct.getIndex_const hsize]
      by_cases hg : gets = []
      · have hk : k.getUnsigned = 0 := by
          simpa [hg, hnum, Array2Struct.getIndex_const hsize] using hgets.length_eq
        simp [hg, hk]
      · simp [hg]

/-- `(array.new $Bytes (i32.const 0x1ff) (i32.const 2))` at 2. -/
def byteArrayNew : Function :=
  ⟨[], [], [⟨.const (.i32 0x1ff), .i32⟩, ⟨.const (.i32 2), .i32⟩,
    ⟨.arrayNew (some 0) 1, .ref (.defined 0) false⟩], 2⟩

/-- On `$Bytes`: the allocation fills both slots with `0x1ff` truncated to `0xff`; its
replacement keeps the whole value in the new local 0 and builds the same two slots in the new
struct type 1. -/
theorem arrayNewReplacement_matches_allocation_bytes :
    eval Array2Struct.byteArrayTypes (fun _ _ => none) byteArrayNew 2 2 ⟨[], [], [], []⟩ =
      (.normal (some (.ref 0)), ⟨[], [], [⟨0, [.i32 0xff, .i32 0xff], none⟩], []⟩) ∧
    eval (Array2Struct.make Array2Struct.byteArrayTypes byteArrayNew [] 2).2.1 (fun _ _ => none)
      (Array2Struct.make Array2Struct.byteArrayTypes byteArrayNew [] 2).2.2.func 4
      (Array2Struct.make Array2Struct.byteArrayTypes byteArrayNew [] 2).1.arrayNewReplacement
      ⟨[.i32 0], [], [], []⟩ =
      (.normal (some (.ref 0)), ⟨[.i32 0x1ff], [], [⟨1, [.i32 0xff, .i32 0xff], none⟩], []⟩) := by
  have H := (@arrayNewReplacement_matches_allocation Array2Struct.byteArrayTypes (fun _ _ => none)
    byteArrayNew byteArrayNew [] 2 2 (.ref (.defined 0) false) 1 0 rfl rfl rfl 1 1
    ⟨[], [], [], []⟩ ⟨[.i32 0], [], [], []⟩).2.2.2 0 1 0 1 (.i32 2) rfl rfl rfl (by decide)
  have h := H.2 (.i32 0x1ff) ⟨[], [], [], []⟩ ⟨[.i32 0], [], [], []⟩ rfl rfl
  exact ⟨h.1.trans rfl, h.2.trans rfl⟩

end BinaryenPasses.Heap2Local
