import BinaryenPasses.Heap2Local.ArrayReplacement

/-!
# What replaces a test or a cast of the array

`Array2Struct` turns the array into a struct before `Struct2Local` sees it, so a `ref.test` or a
`ref.cast` the allocation reaches is answered for the original array type while that type is
still known.  `visitRefTest` drops the test and yields whether the array type passes it.
`visitRefCast` puts the cast, dropped, and a trap in place of a cast the array type fails, and
gives a cast it passes the non-nullable struct type.  Against the array object of the original
function and the struct object of the rewritten one, a test and its replacement yield the same
outcome, and a cast and its replacement both pass their own reference or both trap.

* `visitRefTest_eq`, `visitRefCast_eq` — the visitors are `refTestReplacement` and
  `refCastReplacement`, with `replaceCurrent` where the expression changes;
* `eval_refCastRetyped` — retyping the cast changes only its own step: its operands run as
  before;
* `refTestReplacement_eval`, `refCastReplacement_eval` — the replacements run: the operands,
  then the outcome for the array type, a trap, or the cast to the struct type;
* **`typeCheckReplacements_match`** — each replacement runs the operands as the original does
  and answers the test or the cast as the original answers it on the array.
-/

namespace BinaryenPasses.Heap2Local

open BinaryenPasses.IR

namespace Array2Struct

variable (a2s : Array2Struct) (types : TypeSection)

/-! ## The expressions the visitors build -/

/-- The expression `visitRefTest` puts in place of a `ref.test`: the test itself dropped, then
whether the original array type passes it. -/
def refTestReplacement (f : Function) (curr : ExprId) (castType : Ty) : Function × ExprId :=
  Struct2Local.dropsThenConst f [curr]
    (.i32 (if Ty.isSubType types a2s.originalType castType then 1 else 0))

/-- What `visitRefCast` leaves for a cast: where the original array type fails it, the cast
dropped, then a trap; else the cast itself, of the non-nullable struct type. -/
def refCastReplacement (f : Function) (curr : ExprId) (type : Ty) : Function × ExprId :=
  if !Ty.isSubType types a2s.originalType type then
    let (f, drop) := Builder.makeDrop f curr
    let (f, unreachable) := Builder.makeUnreachable f
    Builder.makeSequence f drop unreachable
  else
    match f.get curr with
    | some e => (f.set curr { e with type := .ref a2s.structType false }, curr)
    | none => (f, curr)

theorem visitRefTest_eq (r : Rewrite) (curr : ExprId) (parent : Option ExprId) (castType : Ty)
    (h : r.reached.get curr ≠ .none) :
    a2s.visitRefTest types r curr parent castType =
      (r.withFunc (a2s.refTestReplacement types r.func curr castType).1).replaceCurrent curr
        parent (a2s.refTestReplacement types r.func curr castType).2 := by
  simp only [visitRefTest, h, if_false]
  rfl

theorem visitRefCast_eq (r : Rewrite) (curr : ExprId) (parent : Option ExprId) (type : Ty)
    (h : r.reached.get curr ≠ .none) :
    a2s.visitRefCast types r curr parent type =
      { (if Ty.isSubType types a2s.originalType type then
          r.withFunc (a2s.refCastReplacement types r.func curr type).1
        else (r.withFunc (a2s.refCastReplacement types r.func curr type).1).replaceCurrent curr
          parent (a2s.refCastReplacement types r.func curr type).2) with refinalize := true } := by
  simp only [visitRefCast, refCastReplacement, h, if_false]
  cases Ty.isSubType types a2s.originalType type
  · rfl
  · simp only [Bool.not_true, Bool.false_eq_true, if_false, if_true]
    rcases r.func.get curr with _ | e <;> rfl

/-! ## Where the builders put each part -/

theorem refCastReplacement_layout_fails (f : Function) (curr : ExprId) {type : Ty}
    (h : Ty.isSubType types a2s.originalType type = false) :
    f.Extends (a2s.refCastReplacement types f curr type).1 ∧
      (a2s.refCastReplacement types f curr type).2 = f.exprs.length + 2 ∧
      (a2s.refCastReplacement types f curr type).1.exprs.map Expression.expr =
        f.exprs.map Expression.expr ++
          [.drop curr, .unreachable, .block none [f.exprs.length, f.exprs.length + 1]] := by
  refine (fun (h : _ ∧ _ ∧ _) => ⟨Struct2Local.extends_of_take h.1, h.2⟩) ?_
  simp [refCastReplacement, h, Builder.makeDrop, Builder.makeUnreachable,
    Builder.makeSequence, Builder.makeBlock, Builder.alloc]

theorem refCastReplacement_of_passes (f : Function) {curr ref : ExprId} {d : Option ExprId}
    {type : Ty} (hcurr : f.get curr = some ⟨.refCast ref d, type⟩)
    (h : Ty.isSubType types a2s.originalType type = true) :
    a2s.refCastReplacement types f curr type =
      (f.set curr ⟨.refCast ref d, .ref a2s.structType false⟩, curr) := by
  simp only [refCastReplacement, h, hcurr, Bool.not_true, Bool.false_eq_true, if_false]

/-! ## Running the replacements -/

variable (types' : TypeSection) (env : CallEnv)

/-- Retyping a cast changes only its own step: its operands, which do not reach it, run as in
`f`. -/
theorem eval_refCastRetyped {f : Function} {curr ref : ExprId} {d : Option ExprId} {type : Ty}
    (hcurr : f.get curr = some ⟨.refCast ref d, type⟩) (hr : ¬ f.Reaches ref curr)
    (hd : ∀ c ∈ d, ¬ f.Reaches c curr) (ty : Ty) (n : Nat) (s : State) :
    eval types' env (f.set curr ⟨.refCast ref d, ty⟩) (n + 1) curr s =
      evalStep types' env (eval types' env f n) curr (.refCast ref d) ty s := by
  rw [eval_succ, get_set_self f (List.getElem?_eq_some_iff.1 hcurr).1]
  simp only [evalStep]
  rw [seqEval_congr (fun c hc => funext fun s => eval_set_of_not_reaches types' env _ n c s ?_)]
  rcases List.mem_cons.1 hc with rfl | hc
  · exact hr
  · exact hd c (by simpa using hc)

/-- The `ref.test` replacement: the test's reference as `f` runs it, then the outcome for the
array type. -/
theorem refTestReplacement_eval {f : Function} (hf : f.ChildrenInRange) {curr ref : ExprId}
    {castType : Ty} (hcurr : f.expr? curr = some (.refTest ref castType)) (n : Nat)
    (s : State) :
    eval types' env (a2s.refTestReplacement types f curr castType).1 (n + 5)
        (a2s.refTestReplacement types f curr castType).2 s =
      andThen (eval types' env f (n + 2) ref s) fun _ s =>
        (.normal (some (Literal.ofBool (Ty.isSubType types a2s.originalType castType))), s) := by
  rw [refTestReplacement, Struct2Local.dropsThenConst_eval types' env hf
    (by simpa using lt_of_expr? hcurr)]
  simp only [seqEval, eval_of_expr? types' env hcurr, evalStep]
  rcases eval types' env f (n + 2) ref s with ⟨_ | _ | _ | _ | _, s'⟩ <;> rfl

/-- The `ref.cast` replacement: where the array type passes the cast, the cast of the operands
as `f` runs them to the struct type; else the operands, then a trap. -/
theorem refCastReplacement_eval {f : Function} (hf : f.ChildrenInRange) {curr ref : ExprId}
    {d : Option ExprId} {type : Ty} (hcurr : f.get curr = some ⟨.refCast ref d, type⟩)
    (hr : ¬ f.Reaches ref curr) (hd : ∀ c ∈ d, ¬ f.Reaches c curr) (n : Nat) (s : State)
    (hfuel : (seqEval (eval types' env f (n + 2)) (ref :: d.toList) s).1 ≠ .error .outOfFuel) :
    eval types' env (a2s.refCastReplacement types f curr type).1 (n + 5)
        (a2s.refCastReplacement types f curr type).2 s =
      if Ty.isSubType types a2s.originalType type then
        evalStep types' env (eval types' env f (n + 2)) curr (.refCast ref d)
          (.ref a2s.structType false) s
      else
        match seqEval (eval types' env f (n + 2)) (ref :: d.toList) s with
        | (.ok _, s) => (.trap, s)
        | (.error fl, s) => (fl, s) := by
  cases hsub : Ty.isSubType types a2s.originalType type
  · -- the array type fails the cast: the cast dropped, then a trap
    obtain ⟨hext, hB, hmap⟩ := a2s.refCastReplacement_layout_fails types f curr hsub
    have hid := Struct2Local.expr?_of_exprs_map hmap
    have hblock : _ = some (Expr.block none ([f.exprs.length] ++ [f.exprs.length + 1])) := hid 2
    have hdrop : List.Forall₂ (fun dr c => (a2s.refCastReplacement types f curr type).1.expr? dr =
        some (.drop c)) [f.exprs.length] [curr] := .cons (hid 0) .nil
    have hlt : ∀ c ∈ [curr], c < f.exprs.length := by
      simpa using (List.getElem?_eq_some_iff.1 hcurr).1
    rw [hB, Struct2Local.eval_dropsThenTrap types' env hblock hdrop (hid 1),
      Struct2Local.seqEval_extend types' env hf hext [curr] hlt]
    have hstep : eval types' env f (n + 3) curr s =
        evalStep types' env (eval types' env f (n + 2)) curr (.refCast ref d) type s := by
      rw [eval_succ, hcurr]
    generalize hq : seqEval (eval types' env f (n + 2)) (ref :: d.toList) s = q
    simp only [seqEval, hstep]
    simp only [evalStep, hq, Bool.false_eq_true, if_false]
    rcases q with ⟨fl | vs, s'⟩
    · cases fl with
      | normal v => exact absurd rfl (seqEval_error_ne_normal hq v)
      | _ => rfl
    · simp only [andThenAll]
      rcases vs with _ | ⟨x, _ | ⟨dv, _ | _⟩⟩ <;> rcases d with _ | d <;>
        (try simp only) <;> (try split_ifs) <;> rfl
  · -- the array type passes the cast: the cast, retyped
    rw [a2s.refCastReplacement_of_passes types f hcurr hsub,
      eval_refCastRetyped types' env hcurr hr hd, if_pos rfl]
    simp only [evalStep]
    rw [Struct2Local.seqEval_mono types' env f (show n + 2 ≤ n + 4 by omega) hfuel]

/-! ## The replacements against the test and the cast -/

/-- **The replacements answer the test and the cast as the original does on the array.**  Take a
`ref.test` or a `ref.cast` in the original function `f₀`, evaluated with the original types, and
the same expression in `f`, the function `visitRefTest` or `visitRefCast` rewrites (its operands
already rewritten), evaluated with the types `types'` that hold the struct type.  Run the
original from any state, and the replacement from any state of the rewritten function.

When the operands fail alike, both fail the same way in the states the operands leave.  When
they complete alike, the original reference being the array at `a`, of the allocation's type,
and the rewritten one the struct at `a'`, of the struct type: both `ref.test`s yield whether the
array type passes the test; a `ref.cast` without a descriptor that the array type passes yields
each run's own reference, and any other cast traps in both runs (a descriptor cast needs a
descriptor, which neither object has). -/
theorem typeCheckReplacements_match (a2s : Array2Struct) {f₀ f : Function}
    (hf : f.ChildrenInRange) (types' : TypeSection) (m n : Nat) (so sn : State) (a a' : Nat) :
    (∀ curr₀ curr ref₀ ref castType,
      f₀.expr? curr₀ = some (.refTest ref₀ castType) →
      f.expr? curr = some (.refTest ref castType) →
      (∀ fl so' sn', (∀ v, fl ≠ .normal v) →
        eval types env f₀ m ref₀ so = (fl, so') → eval types' env f (n + 2) ref sn = (fl, sn') →
        eval types env f₀ (m + 1) curr₀ so = (fl, so') ∧
        eval types' env (a2s.refTestReplacement types f curr castType).1 (n + 5)
          (a2s.refTestReplacement types f curr castType).2 sn = (fl, sn')) ∧
      (∀ x so' sn' o,
        eval types env f₀ m ref₀ so = (.normal (some (.ref a)), so') →
        eval types' env f (n + 2) ref sn = (.normal x, sn') →
        so'.heap[a]? = some o → a2s.originalType = .ref (.defined o.type) false →
        eval types env f₀ (m + 1) curr₀ so =
          (.normal (some (Literal.ofBool (Ty.isSubType types a2s.originalType castType))), so') ∧
        eval types' env (a2s.refTestReplacement types f curr castType).1 (n + 5)
          (a2s.refTestReplacement types f curr castType).2 sn =
          (.normal (some (Literal.ofBool (Ty.isSubType types a2s.originalType castType))),
            sn'))) ∧
    (∀ curr₀ curr ref₀ ref d₀ d type,
      f₀.get curr₀ = some ⟨.refCast ref₀ d₀, type⟩ → f.get curr = some ⟨.refCast ref d, type⟩ →
      (d₀ = none ↔ d = none) → ¬ f.Reaches ref curr → (∀ c ∈ d, ¬ f.Reaches c curr) →
      (∀ fl so' sn', fl ≠ .outOfFuel →
        seqEval (eval types env f₀ m) (ref₀ :: d₀.toList) so = (.error fl, so') →
        seqEval (eval types' env f (n + 2)) (ref :: d.toList) sn = (.error fl, sn') →
        eval types env f₀ (m + 1) curr₀ so = (fl, so') ∧
        eval types' env (a2s.refCastReplacement types f curr type).1 (n + 5)
          (a2s.refCastReplacement types f curr type).2 sn = (fl, sn')) ∧
      (∀ dvs₀ dvs so' sn' o o',
        seqEval (eval types env f₀ m) (ref₀ :: d₀.toList) so =
          (.ok (some (.ref a) :: dvs₀), so') →
        seqEval (eval types' env f (n + 2)) (ref :: d.toList) sn =
          (.ok (some (.ref a') :: dvs), sn') →
        none ∉ dvs₀ → none ∉ dvs →
        so'.heap[a]? = some o → sn'.heap[a']? = some o' → o.desc = none → o'.desc = none →
        a2s.originalType = .ref (.defined o.type) false → a2s.structType = .defined o'.type →
        if d₀ = none ∧ Ty.isSubType types a2s.originalType type then
          eval types env f₀ (m + 1) curr₀ so = (.normal (some (.ref a)), so') ∧
          eval types' env (a2s.refCastReplacement types f curr type).1 (n + 5)
            (a2s.refCastReplacement types f curr type).2 sn = (.normal (some (.ref a')), sn')
        else
          eval types env f₀ (m + 1) curr₀ so = (.trap, so') ∧
          eval types' env (a2s.refCastReplacement types f curr type).1 (n + 5)
            (a2s.refCastReplacement types f curr type).2 sn = (.trap, sn'))) := by
  have hstep₀ : ∀ {curr₀ ref₀ d₀ type}, f₀.get curr₀ = some ⟨.refCast ref₀ d₀, type⟩ →
      eval types env f₀ (m + 1) curr₀ so =
        evalStep types env (eval types env f₀ m) curr₀ (.refCast ref₀ d₀) type so := fun h₀ => by
    rw [eval_succ, h₀]
  refine ⟨fun curr₀ curr ref₀ ref castType h₀ h => ⟨fun fl so' sn' hn h₁ h₂ => ?_,
      fun x so' sn' o h₁ h₂ ho horig => ?_⟩,
    fun curr₀ curr ref₀ ref d₀ d type h₀ h hdd hr hd => ⟨fun fl so' sn' hfl h₁ h₂ => ?_,
      fun dvs₀ dvs so' sn' o o' h₁ h₂ hn₀ hn ho ho' hod hod' horig hstruct => ?_⟩⟩
  · -- `ref.test`, the reference failing
    rw [eval_of_expr? types env h₀, a2s.refTestReplacement_eval types types' env hf h, h₂]
    simp only [evalStep, h₁]
    cases fl with
    | normal v => exact absurd rfl (hn v)
    | _ => exact ⟨rfl, rfl⟩
  · -- `ref.test` of the array
    rw [eval_of_expr? types env h₀, a2s.refTestReplacement_eval types types' env hf h, h₂]
    simp only [evalStep, h₁, andThen, Struct2Local.castOk_allocation types ho rfl, ← horig,
      and_self]
  · -- `ref.cast`, the operands failing
    rw [hstep₀ h₀, a2s.refCastReplacement_eval types types' env hf h hr hd n sn
      (by rw [h₂]; simpa using hfl)]
    simp [evalStep, h₁, h₂, andThenAll]
  · -- `ref.cast` of the array
    have hl₀ := Struct2Local.seqEval_ok_length h₁
    have hl := Struct2Local.seqEval_ok_length h₂
    rw [hstep₀ h₀, a2s.refCastReplacement_eval types types' env hf h hr hd n sn (by rw [h₂]; simp)]
    simp only [evalStep, h₁, h₂, andThenAll]
    rcases d₀ with _ | d₀ <;> rcases d with _ | d
    · -- no descriptor: the cast decided by the array type, and passed by the struct
      obtain rfl : dvs₀ = [] := List.length_eq_zero.1 (by simpa using hl₀)
      obtain rfl : dvs = [] := List.length_eq_zero.1 (by simpa using hl)
      have hcast : castOk types' sn' (some (.ref a')) (.ref a2s.structType false) = true := by
        simp [castOk, ho', hstruct, Ty.getHeapType]
      simp only [Struct2Local.castOk_allocation types ho rfl, ← horig, hcast, true_and, if_true]
      cases Ty.isSubType types a2s.originalType type <;> simp
    · simp at hdd
    · simp at hdd
    · -- a descriptor: neither object has one
      obtain ⟨dv₀, rfl⟩ := List.length_eq_one.1 (by simpa using hl₀)
      obtain ⟨dv, rfl⟩ := List.length_eq_one.1 (by simpa using hl)
      obtain ⟨l₀, rfl⟩ := Option.ne_none_iff_exists'.1 (by simpa [eq_comm] using hn₀)
      obtain ⟨l, rfl⟩ := Option.ne_none_iff_exists'.1 (by simpa [eq_comm] using hn)
      simp [State.getObj, ho, ho', hod, hod']

/-- `(ref.test (ref null $Bytes) A)`, where `A`, at 2, is the `array.new_fixed` of two `$Bytes`
slots. -/
def byteArrayTest : Function :=
  ⟨[], [], [⟨.const (.i32 0x1ff), .i32⟩, ⟨.const (.i32 7), .i32⟩,
    ⟨.arrayNewFixed [0, 1], .ref (.defined 0) false⟩,
    ⟨.refTest 2 (.ref (.defined 0) true), .i32⟩], 3⟩

/-- `(drop (ref.cast (ref $Bytes) A))` for the same allocation: dropped, the cast does not let
the allocation escape as the function's result. -/
def byteArrayCast : Function :=
  ⟨[], [], [⟨.const (.i32 0x1ff), .i32⟩, ⟨.const (.i32 7), .i32⟩,
    ⟨.arrayNewFixed [0, 1], .ref (.defined 0) false⟩,
    ⟨.refCast 2 none, .ref (.defined 0) false⟩, ⟨.drop 3, .none⟩], 4⟩

/-- `byteArrayTest` as the walk of `Array2Struct` leaves it before the test, the allocation
being the `struct.new` at 4. -/
def byteArrayTestWalked : Function :=
  ⟨[], [], [⟨.const (.i32 0x1ff), .i32⟩, ⟨.const (.i32 7), .i32⟩,
    ⟨.arrayNewFixed [0, 1], .ref (.defined 1) false⟩,
    ⟨.refTest 4 (.ref (.defined 0) true), .i32⟩,
    ⟨.structNew [0, 1] none, .ref (.defined 1) false⟩], 3⟩

/-- `byteArrayCast` as the walk leaves it before the cast, the allocation being the `struct.new`
at 5. -/
def byteArrayCastWalked : Function :=
  ⟨[], [], [⟨.const (.i32 0x1ff), .i32⟩, ⟨.const (.i32 7), .i32⟩,
    ⟨.arrayNewFixed [0, 1], .ref (.defined 1) false⟩,
    ⟨.refCast 5 none, .ref (.defined 0) false⟩, ⟨.drop 3, .none⟩,
    ⟨.structNew [0, 1] none, .ref (.defined 1) false⟩], 4⟩

theorem arrayWalkBefore_byteArrayTest :
    (arrayWalkBefore byteArrayTypes Struct2Local.noLocalSets byteArrayTest 2 3).2.1 =
      byteArrayStructTypes ∧
    (arrayWalkBefore byteArrayTypes Struct2Local.noLocalSets byteArrayTest 2 3).2.2.func =
      byteArrayTestWalked := by
  decide

theorem arrayWalkBefore_byteArrayCast :
    (arrayWalkBefore byteArrayTypes Struct2Local.noLocalSets byteArrayCast 2 3).2.1 =
      byteArrayStructTypes ∧
    (arrayWalkBefore byteArrayTypes Struct2Local.noLocalSets byteArrayCast 2 3).2.2.func =
      byteArrayCastWalked := by
  decide

/-- On `$Bytes`, in the functions the walk of `Array2Struct` leaves: the test of the array
against `(ref null $Bytes)` and its replacement both yield 1, and the cast of the array to
`(ref $Bytes)` and the retyped cast of the struct both pass their reference. -/
theorem typeCheckReplacements_match_bytes :
    ((arrayWalkBefore byteArrayTypes Struct2Local.noLocalSets byteArrayTest 2 3).2.1 =
      byteArrayStructTypes ∧
    (arrayWalkBefore byteArrayTypes Struct2Local.noLocalSets byteArrayTest 2 3).2.2.func =
      byteArrayTestWalked) ∧
    eval byteArrayTypes (fun _ _ => none) byteArrayTest 3 3 ⟨[], [], [], []⟩ =
      (.normal (some (.i32 1)), ⟨[], [], [⟨0, [.i32 0xff, .i32 7], none⟩], []⟩) ∧
    eval byteArrayStructTypes (fun _ _ => none)
      ((arrayWalkBefore byteArrayTypes Struct2Local.noLocalSets byteArrayTest 2
        3).1.refTestReplacement byteArrayTypes byteArrayTestWalked 3 (.ref (.defined 0) true)).1 5
      ((arrayWalkBefore byteArrayTypes Struct2Local.noLocalSets byteArrayTest 2
        3).1.refTestReplacement byteArrayTypes byteArrayTestWalked 3 (.ref (.defined 0) true)).2
      ⟨[], [], [], []⟩ =
      (.normal (some (.i32 1)), ⟨[], [], [⟨1, [.i32 0xff, .i32 7], none⟩], []⟩) ∧
    ((arrayWalkBefore byteArrayTypes Struct2Local.noLocalSets byteArrayCast 2 3).2.1 =
      byteArrayStructTypes ∧
    (arrayWalkBefore byteArrayTypes Struct2Local.noLocalSets byteArrayCast 2 3).2.2.func =
      byteArrayCastWalked) ∧
    eval byteArrayTypes (fun _ _ => none) byteArrayCast 3 3 ⟨[], [], [], []⟩ =
      (.normal (some (.ref 0)), ⟨[], [], [⟨0, [.i32 0xff, .i32 7], none⟩], []⟩) ∧
    eval byteArrayStructTypes (fun _ _ => none)
      ((arrayWalkBefore byteArrayTypes Struct2Local.noLocalSets byteArrayCast 2
        3).1.refCastReplacement byteArrayTypes byteArrayCastWalked 3 (.ref (.defined 0) false)).1 5
      ((arrayWalkBefore byteArrayTypes Struct2Local.noLocalSets byteArrayCast 2
        3).1.refCastReplacement byteArrayTypes byteArrayCastWalked 3 (.ref (.defined 0) false)).2
      ⟨[], [], [], []⟩ =
      (.normal (some (.ref 0)), ⟨[], [], [⟨1, [.i32 0xff, .i32 7], none⟩], []⟩) := by
  have hleaf : ∀ c ∈ [0, 1], ¬ byteArrayCastWalked.Reaches c 3 := by
    intro c hc
    rcases List.mem_pair.1 hc with rfl | rfl <;>
      exact Struct2Local.not_reaches_of_children_nil (by decide) fun e he => by cases he; rfl
  have hr : ¬ byteArrayCastWalked.Reaches 5 3 := by
    rintro (_ | ⟨he, hc, hr⟩)
    cases he
    exact hleaf _ hc hr
  have htest := ((@typeCheckReplacements_match byteArrayTypes (fun _ _ => none)
    (arrayWalkBefore byteArrayTypes Struct2Local.noLocalSets byteArrayTest 2 3).1 byteArrayTest
    byteArrayTestWalked (Function.childrenInRange_iff.2 (by decide)) byteArrayStructTypes 2 0
    ⟨[], [], [], []⟩ ⟨[], [], [], []⟩ 0 0).1 3 3 2 4 _ rfl rfl).2 (some (.ref 0))
    ⟨[], [], [⟨0, [.i32 0xff, .i32 7], none⟩], []⟩ ⟨[], [], [⟨1, [.i32 0xff, .i32 7], none⟩], []⟩
    ⟨0, [.i32 0xff, .i32 7], none⟩ rfl rfl rfl rfl
  have hcast := ((@typeCheckReplacements_match byteArrayTypes (fun _ _ => none)
    (arrayWalkBefore byteArrayTypes Struct2Local.noLocalSets byteArrayCast 2 3).1 byteArrayCast
    byteArrayCastWalked (Function.childrenInRange_iff.2 (by decide)) byteArrayStructTypes 2 0
    ⟨[], [], [], []⟩ ⟨[], [], [], []⟩ 0 0).2 3 3 2 5 none none _ rfl rfl Iff.rfl hr
    (by simp)).2 [] [] ⟨[], [], [⟨0, [.i32 0xff, .i32 7], none⟩], []⟩
    ⟨[], [], [⟨1, [.i32 0xff, .i32 7], none⟩], []⟩ ⟨0, [.i32 0xff, .i32 7], none⟩
    ⟨1, [.i32 0xff, .i32 7], none⟩ rfl rfl (by simp) (by simp) rfl rfl rfl rfl rfl rfl
  rw [if_pos (by decide)] at hcast
  exact ⟨arrayWalkBefore_byteArrayTest, htest.1.trans rfl, htest.2.trans rfl,
    arrayWalkBefore_byteArrayCast, hcast⟩

end Array2Struct

end BinaryenPasses.Heap2Local
