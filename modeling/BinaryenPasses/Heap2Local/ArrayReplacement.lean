import BinaryenPasses.Heap2Local.Array2Struct
import BinaryenPasses.Heap2Local.TestReplacement

/-!
# What replaces an access of the array

`Array2Struct` turns a non-escaping array of `numFields` slots into a struct with one field per
slot, all of the element's type, and its constant-index accesses into field accesses:
`visitArrayGet` puts a `struct.get` of the slot in place of an `array.get`, `visitArraySet` a
`struct.set` in place of an `array.set`, and both put a trap in place of an access out of
bounds.  The array object of the original function and the struct object of the rewritten one
correspond when they hold the same slots, the struct's fields being the array's element
`numFields` times; an access and its replacement then read the same value, or store the same
value and keep the correspondence, or both trap.

* `visitArrayGet_eq`, `visitArraySet_eq` — the visitors are `arrayGetReplacement` and
  `arraySetReplacement` followed by `replaceCurrent`;
* `arrayGetReplacement_eval`, `arraySetReplacement_eval` — the replacements run: the operands,
  then the field access of the slot or, out of bounds, a trap;
* **`arrayAccessReplacements_match`** — each replacement runs its operands as the original
  access does and reads or writes the struct's field as the original reads or writes the
  array's slot.
-/

namespace BinaryenPasses.Heap2Local

open BinaryenPasses.IR

namespace Array2Struct

variable (a2s : Array2Struct)

/-! ## The expressions the visitors build -/

/-- The expression `visitArrayGet` puts in place of an `array.get` of slot `index`: a trap out of
bounds, else a `struct.get` of the field. -/
def arrayGetReplacement (f : Function) (ref : ExprId) (index : Nat) (signed : Bool) (type : Ty) :
    Function × ExprId :=
  if index ≥ a2s.numFields then
    let (f, drop) := Builder.makeDrop f ref
    let (f, unreachable) := Builder.makeUnreachable f
    Builder.makeSequence f drop unreachable
  else Builder.makeStructGet f index ref type signed

/-- The expression `visitArraySet` puts in place of an `array.set` of slot `index`: a trap out of
bounds, else a `struct.set` of the field. -/
def arraySetReplacement (f : Function) (ref : ExprId) (index : Nat) (value : ExprId) :
    Function × ExprId :=
  if index ≥ a2s.numFields then
    let (f, dropRef) := Builder.makeDrop f ref
    let (f, dropValue) := Builder.makeDrop f value
    let (f, unreachable) := Builder.makeUnreachable f
    Builder.makeBlock f [dropRef, dropValue, unreachable]
  else Builder.makeStructSet f index ref value

theorem visitArrayGet_eq (r : Rewrite) (curr : ExprId) (parent : Option ExprId)
    (ref index : ExprId) (signed : Bool) (type : Ty) (h : r.reached.get curr ≠ .none) :
    a2s.visitArrayGet r curr parent ref index signed type =
      if getIndex r.func index ≥ a2s.numFields then
        { (r.withFunc (a2s.arrayGetReplacement r.func ref (getIndex r.func index) signed
            type).1).replaceCurrent curr parent
            (a2s.arrayGetReplacement r.func ref (getIndex r.func index) signed type).2 with
          refinalize := true }
      else (r.withFunc (a2s.arrayGetReplacement r.func ref (getIndex r.func index) signed
          type).1).replaceCurrent curr parent
          (a2s.arrayGetReplacement r.func ref (getIndex r.func index) signed type).2 := by
  simp only [visitArrayGet, arrayGetReplacement, h, if_false]
  split_ifs <;> rfl

theorem visitArraySet_eq (r : Rewrite) (curr : ExprId) (parent : Option ExprId)
    (ref index value : ExprId) (h : r.reached.get curr ≠ .none) :
    a2s.visitArraySet r curr parent ref index value =
      if getIndex r.func index ≥ a2s.numFields then
        { (r.withFunc (a2s.arraySetReplacement r.func ref (getIndex r.func index) value).1
            ).replaceCurrent curr parent
            (a2s.arraySetReplacement r.func ref (getIndex r.func index) value).2 with
          refinalize := true }
      else (r.withFunc (a2s.arraySetReplacement r.func ref (getIndex r.func index) value).1
          ).replaceCurrent curr parent
          (a2s.arraySetReplacement r.func ref (getIndex r.func index) value).2 := by
  simp only [visitArraySet, arraySetReplacement, h, if_false]
  split_ifs <;> rfl

/-- The index `getIndex` reads from a constant. -/
theorem getIndex_const {f : Function} {idx : ExprId} {k : Literal}
    (h : f.expr? idx = some (.const k)) : getIndex f idx = k.getUnsigned := by
  simp only [getIndex, h]

/-! ## Where the builders put each part -/

theorem arrayGetReplacement_layout_oob (f : Function) (ref : ExprId) {index : Nat}
    (signed : Bool) (type : Ty) (h : a2s.numFields ≤ index) :
    f.Extends (a2s.arrayGetReplacement f ref index signed type).1 ∧
      (a2s.arrayGetReplacement f ref index signed type).2 = f.exprs.length + 2 ∧
      (a2s.arrayGetReplacement f ref index signed type).1.exprs.map Expression.expr =
        f.exprs.map Expression.expr ++
          [.drop ref, .unreachable, .block none [f.exprs.length, f.exprs.length + 1]] := by
  refine (fun (h : _ ∧ _ ∧ _) => ⟨Struct2Local.extends_of_take h.1, h.2⟩) ?_
  simp [arrayGetReplacement, h, Builder.makeDrop, Builder.makeUnreachable,
    Builder.makeSequence, Builder.makeBlock, Builder.alloc]

theorem arraySetReplacement_layout_oob (f : Function) (ref : ExprId) {index : Nat}
    (value : ExprId) (h : a2s.numFields ≤ index) :
    f.Extends (a2s.arraySetReplacement f ref index value).1 ∧
      (a2s.arraySetReplacement f ref index value).2 = f.exprs.length + 3 ∧
      (a2s.arraySetReplacement f ref index value).1.exprs.map Expression.expr =
        f.exprs.map Expression.expr ++ [.drop ref, .drop value, .unreachable,
          .block none [f.exprs.length, f.exprs.length + 1, f.exprs.length + 2]] := by
  refine (fun (h : _ ∧ _ ∧ _) => ⟨Struct2Local.extends_of_take h.1, h.2⟩) ?_
  simp [arraySetReplacement, h, Builder.makeDrop, Builder.makeUnreachable, Builder.makeBlock,
    Builder.alloc]

/-! ## Running the replacements -/

variable (types : TypeSection) (env : CallEnv)

/-- The `array.get` replacement: the reference as `f` runs it, then a trap out of bounds, else
the `struct.get` of the slot. -/
theorem arrayGetReplacement_eval {f : Function} (hf : f.ChildrenInRange) {ref : ExprId}
    (href : ref < f.exprs.length) (index : Nat) (signed : Bool) (type : Ty) (n : Nat)
    (s : State) (hfuel : (eval types env f (n + 2) ref s).1 ≠ .outOfFuel) :
    eval types env (a2s.arrayGetReplacement f ref index signed type).1 (n + 4)
        (a2s.arrayGetReplacement f ref index signed type).2 s =
      andThen (eval types env f (n + 2) ref s) fun x s =>
        if a2s.numFields ≤ index then (.trap, s) else
        match s.getObj x with
        | some o =>
          match o.fields[index]?, (fieldsOf types o.type)[index]? with
          | some v, some fl => (.normal (some (Literal.unpack fl signed v)), s)
          | _, _ => (.trap, s)
        | none => (.trap, s) := by
  by_cases hoob : a2s.numFields ≤ index
  · -- out of bounds: the reference dropped, then a trap
    obtain ⟨⟨extra, hgx⟩, hB, hmap⟩ := a2s.arrayGetReplacement_layout_oob f ref signed type hoob
    have hid := Struct2Local.expr?_of_exprs_map hmap
    have hblock : _ = some (Expr.block none ([f.exprs.length] ++ [f.exprs.length + 1])) := hid 2
    have hdrop : List.Forall₂ (fun d c => (a2s.arrayGetReplacement f ref index signed type).1.expr?
        d = some (.drop c)) [f.exprs.length] [ref] := .cons (hid 0) .nil
    rw [hB, Struct2Local.eval_dropsThenTrap types env hblock hdrop (hid 1)]
    simp only [seqEval, eval_extend types env hf hgx _ ref s href, hoob, if_true]
    rcases eval types env f (n + 2) ref s with ⟨_ | _ | _ | _ | _, s'⟩ <;> rfl
  · -- in bounds: the `struct.get` of the slot
    have hg : a2s.arrayGetReplacement f ref index signed type =
        Builder.alloc f ⟨.structGet index ref signed, type⟩ := if_neg hoob
    rw [hg, eval_of_expr? types env (Builder.expr?_alloc _ _)]
    simp only [evalStep, hoob, if_false]
    exact congrArg (fun x => andThen x _) ((eval_extend types env hf
      (show (Builder.alloc f _).1.exprs = f.exprs ++ [_] from rfl) _ ref s href).trans
      (eval_mono types env f (show n + 2 ≤ n + 3 by omega) hfuel))

/-- The `array.set` replacement: the reference and the value as `seqEval` runs them in `f`,
then a trap out of bounds, else the `struct.set` of the slot. -/
theorem arraySetReplacement_eval {f : Function} (hf : f.ChildrenInRange) {ref value : ExprId}
    (hlt : ∀ c ∈ [ref, value], c < f.exprs.length) (index : Nat) (n : Nat) (s : State)
    (hfuel : (seqEval (eval types env f (n + 2)) [ref, value] s).1 ≠ .error .outOfFuel) :
    eval types env (a2s.arraySetReplacement f ref index value).1 (n + 4)
        (a2s.arraySetReplacement f ref index value).2 s =
      andThenAll (seqEval (eval types env f (n + 2)) [ref, value] s) fun vs s =>
        if a2s.numFields ≤ index then (.trap, s) else
        match vs with
        | [x, some y] =>
          match s.getObj x with
          | some o =>
            match (fieldsOf types o.type)[index]? with
            | some fl => (.normal none, s.setObj x (o.setField index (Literal.pack fl y)))
            | none => (.trap, s)
          | none => (.trap, s)
        | _ => (.trap, s) := by
  by_cases hoob : a2s.numFields ≤ index
  · -- out of bounds: both operands dropped, then a trap
    obtain ⟨hext, hB, hmap⟩ := a2s.arraySetReplacement_layout_oob f ref value hoob
    have hid := Struct2Local.expr?_of_exprs_map hmap
    have hblock : _ = some (Expr.block none
        ([f.exprs.length, f.exprs.length + 1] ++ [f.exprs.length + 2])) := hid 3
    have hdrops : List.Forall₂ (fun d c => (a2s.arraySetReplacement f ref index value).1.expr? d =
        some (.drop c)) [f.exprs.length, f.exprs.length + 1] [ref, value] :=
      .cons (hid 0) (.cons (hid 1) .nil)
    rw [hB, Struct2Local.eval_dropsThenTrap types env hblock hdrops (hid 2),
      Struct2Local.seqEval_extend types env hf hext [ref, value] hlt]
    simp only [hoob, if_true]
    rcases seqEval (eval types env f (n + 2)) [ref, value] s with ⟨_ | _, s'⟩ <;> rfl
  · -- in bounds: the `struct.set` of the slot
    have hg : a2s.arraySetReplacement f ref index value =
        Builder.alloc f ⟨.structSet index ref value, .none⟩ := if_neg hoob
    rw [hg, eval_of_expr? types env (Builder.expr?_alloc _ _)]
    simp only [evalStep, hoob, if_false]
    exact congrArg (fun x => andThenAll x _)
      ((Struct2Local.seqEval_extend types env hf (Builder.alloc_extends _ _) [ref, value] hlt _
        s).trans (Struct2Local.seqEval_mono types env f (show n + 2 ≤ n + 3 by omega) hfuel))

/-! ## The replacements against the array accesses -/

/-- The struct's field `k`, for `k` below the number of slots, is the array's element. -/
theorem getElem?_replicate_of_lt {el : Field} {n k : Nat} (hk : k < n) :
    (List.replicate n el)[k]? = some el := by
  rw [List.getElem?_replicate, if_pos hk]

/-- **The replacements do what the array accesses do.**  Take an `array.get` or an `array.set`
in the original function `f₀`, evaluated with the original types, and the same expression in
`f`, the function `visitArrayGet` or `visitArraySet` rewrites (its operands already rewritten, its
index the constant `k`), evaluated with the types `types'` that hold the struct type.  Run the
access from any state, and the replacement from any state of the rewritten function.

When the operands fail alike, both fail the same way in the states the operands leave.  When they
complete alike, the original reference being the array at `a` and the rewritten one the struct
at `a'`, the two holding the same `numFields` slots and the struct's fields being the array's
element: the `array.get` and its replacement both return the slot unpacked, or both trap out of
bounds; the `array.set` and its replacement both store the value packed in the slot of their
object, or both trap out of bounds. -/
theorem arrayAccessReplacements_match (a2s : Array2Struct) {f₀ f : Function}
    (hf : f.ChildrenInRange) (types' : TypeSection) (m n : Nat) (so sn : State) (a a' : Nat) :
    (∀ curr₀ curr ref₀ idx₀ ref idx signed type,
      f₀.expr? curr₀ = some (.arrayGet ref₀ idx₀ signed) →
      f.expr? curr = some (.arrayGet ref idx signed) →
      (∀ fl so' sn', fl ≠ .outOfFuel → (∀ v, fl ≠ .normal v) →
        seqEval (eval types env f₀ m) [ref₀, idx₀] so = (.error fl, so') →
        eval types' env f (n + 2) ref sn = (fl, sn') →
        eval types env f₀ (m + 1) curr₀ so = (fl, so') ∧
        eval types' env (a2s.arrayGetReplacement f ref (getIndex f idx) signed type).1 (n + 4)
          (a2s.arrayGetReplacement f ref (getIndex f idx) signed type).2 sn = (fl, sn')) ∧
      (∀ k so' sn' o o',
        seqEval (eval types env f₀ m) [ref₀, idx₀] so = (.ok [some (.ref a), some k], so') →
        eval types' env f (n + 2) ref sn = (.normal (some (.ref a')), sn') →
        f.expr? idx = some (.const k) →
        so'.heap[a]? = some o → sn'.heap[a']? = some o' → o'.fields = o.fields →
        o.fields.length = a2s.numFields →
        fieldsOf types' o'.type = List.replicate a2s.numFields (elementOf types o.type) →
        eval types env f₀ (m + 1) curr₀ so =
          (match o.fields[k.getUnsigned]? with
            | some v => (.normal (some (Literal.unpack (elementOf types o.type) signed v)), so')
            | none => (.trap, so')) ∧
        eval types' env (a2s.arrayGetReplacement f ref (getIndex f idx) signed type).1 (n + 4)
          (a2s.arrayGetReplacement f ref (getIndex f idx) signed type).2 sn =
          (match o.fields[k.getUnsigned]? with
            | some v => (.normal (some (Literal.unpack (elementOf types o.type) signed v)), sn')
            | none => (.trap, sn')))) ∧
    (∀ curr₀ curr ref₀ idx₀ value₀ ref idx value,
      f₀.expr? curr₀ = some (.arraySet ref₀ idx₀ value₀) →
      f.expr? curr = some (.arraySet ref idx value) →
      (∀ fl so' sn', fl ≠ .outOfFuel →
        seqEval (eval types env f₀ m) [ref₀, idx₀, value₀] so = (.error fl, so') →
        seqEval (eval types' env f (n + 2)) [ref, value] sn = (.error fl, sn') →
        eval types env f₀ (m + 1) curr₀ so = (fl, so') ∧
        eval types' env (a2s.arraySetReplacement f ref (getIndex f idx) value).1 (n + 4)
          (a2s.arraySetReplacement f ref (getIndex f idx) value).2 sn = (fl, sn')) ∧
      (∀ k y so' sn' o o',
        seqEval (eval types env f₀ m) [ref₀, idx₀, value₀] so =
          (.ok [some (.ref a), some k, some y], so') →
        seqEval (eval types' env f (n + 2)) [ref, value] sn = (.ok [some (.ref a'), some y], sn') →
        f.expr? idx = some (.const k) →
        so'.heap[a]? = some o → sn'.heap[a']? = some o' → o'.fields = o.fields →
        o.fields.length = a2s.numFields →
        fieldsOf types' o'.type = List.replicate a2s.numFields (elementOf types o.type) →
        if k.getUnsigned < a2s.numFields then
          eval types env f₀ (m + 1) curr₀ so = (.normal none, so'.setObj (some (.ref a))
            (o.setField k.getUnsigned (Literal.pack (elementOf types o.type) y))) ∧
          eval types' env (a2s.arraySetReplacement f ref (getIndex f idx) value).1 (n + 4)
            (a2s.arraySetReplacement f ref (getIndex f idx) value).2 sn =
            (.normal none, sn'.setObj (some (.ref a'))
              (o'.setField k.getUnsigned (Literal.pack (elementOf types o.type) y)))
        else
          eval types env f₀ (m + 1) curr₀ so = (.trap, so') ∧
          eval types' env (a2s.arraySetReplacement f ref (getIndex f idx) value).1 (n + 4)
            (a2s.arraySetReplacement f ref (getIndex f idx) value).2 sn = (.trap, sn'))) := by
  refine ⟨fun curr₀ curr ref₀ idx₀ ref idx signed type h₀ h => ⟨?_, ?_⟩,
    fun curr₀ curr ref₀ idx₀ value₀ ref idx value h₀ h => ?_⟩
  · -- `array.get`, the operands failing
    intro fl so' sn' hfl hn h₁ h₂
    refine ⟨by rw [eval_of_expr? types env h₀]; simp only [evalStep, h₁, andThenAll], ?_⟩
    rw [a2s.arrayGetReplacement_eval types' env hf
      (Struct2Local.children_lt_of_expr? hf h ref (List.mem_cons_self _ _)) _ signed type n sn
      (by rw [h₂]; exact hfl), h₂]
    cases fl with
    | normal v => exact absurd rfl (hn v)
    | _ => rfl
  · -- `array.get` of the array
    intro k so' sn' o o' h₁ h₂ hidx ho ho' hfo hlen htypes
    rw [eval_of_expr? types env h₀, Array2Struct.getIndex_const hidx,
      a2s.arrayGetReplacement_eval types' env hf
        (Struct2Local.children_lt_of_expr? hf h ref (List.mem_cons_self _ _)) _ signed type n sn
        (by simp [h₂])]
    simp only [evalStep, h₁, h₂, andThenAll, andThen, State.getObj, ho, ho', hfo, htypes]
    by_cases hk : a2s.numFields ≤ k.getUnsigned
    · rw [List.getElem?_eq_none (by omega)]
      simp only [hk, if_true, and_self]
    · rw [getElem?_replicate_of_lt (by omega), List.getElem?_eq_getElem (by omega)]
      simp only [hk, if_false, and_self]
  · have hlt : ∀ c ∈ [ref, value], c < f.exprs.length := fun c hc =>
      Struct2Local.children_lt_of_expr? hf h c (by
        rcases List.mem_pair.1 hc with rfl | rfl <;> simp [Expr.children])
    refine ⟨fun fl so' sn' hfl h₁ h₂ => ?_, fun k y so' sn' o o' h₁ h₂ hidx ho ho' hfo hlen
      htypes => ?_⟩
    · -- `array.set`, the operands failing
      rw [eval_of_expr? types env h₀, a2s.arraySetReplacement_eval types' env hf hlt _ n sn
        (by rw [h₂]; simpa using hfl)]
      simp only [evalStep, h₁, h₂, andThenAll, and_self]
    · -- `array.set` of the array
      rw [eval_of_expr? types env h₀, Array2Struct.getIndex_const hidx,
        a2s.arraySetReplacement_eval types' env hf hlt _ n sn
          (by simp [h₂])]
      simp only [evalStep, h₁, h₂, andThenAll, State.getObj, ho, ho', htypes, hlen]
      split_ifs with hk hk' hk'
      · omega
      · rw [getElem?_replicate_of_lt hk]
        exact ⟨rfl, rfl⟩
      · exact ⟨rfl, rfl⟩
      · omega

/-- An array type `$Bytes` of mutable `i8` slots. -/
def byteArrayTypes : TypeSection := [.array ⟨.i32, .i8, true⟩ none]

/-- `$Bytes` and the struct type `Array2Struct` makes for two of its slots. -/
def byteArrayStructTypes : TypeSection :=
  byteArrayTypes ++ [.struct (List.replicate 2 ⟨.i32, .i8, true⟩) none none]

/-- `Array2Struct` of `allocation`, with the interactions the analysis records over the local
graph `localGraph`, walked over the expressions before `curr`: the rewriter, the types with the
struct type interned, and the rewrite its visitor of `curr` receives. -/
def arrayWalkBefore (types : TypeSection) (localGraph : LocalGraph) (f : Function)
    (allocation curr : ExprId) : Array2Struct × TypeSection × Rewrite :=
  let m := Array2Struct.make types f
    (escapes (.ofFunction types localGraph f) allocation).2.reachedInteractions allocation
  (m.1, m.2.1, ((postOrder m.2.2.func).takeWhile (·.1 ≠ curr)).foldl
    (fun st q => m.1.visit m.2.1 st q.1 q.2) m.2.2)

/-- `(array.get_s $Bytes (array.new_fixed $Bytes (i32.const 0x1ff) (i32.const 7))
(i32.const 0))`. -/
def byteArrayGet : Function :=
  ⟨[], [], [⟨.const (.i32 0x1ff), .i32⟩, ⟨.const (.i32 7), .i32⟩,
    ⟨.arrayNewFixed [0, 1], .ref (.defined 0) false⟩, ⟨.const (.i32 0), .i32⟩,
    ⟨.arrayGet 2 3 true, .i32⟩], 4⟩

/-- `(array.set $Bytes (array.new_fixed $Bytes (i32.const 0x1ff) (i32.const 7)) (i32.const 1)
(i32.const 0x2ab))`. -/
def byteArraySet : Function :=
  ⟨[], [], [⟨.const (.i32 0x1ff), .i32⟩, ⟨.const (.i32 7), .i32⟩,
    ⟨.arrayNewFixed [0, 1], .ref (.defined 0) false⟩, ⟨.const (.i32 1), .i32⟩,
    ⟨.const (.i32 0x2ab), .i32⟩, ⟨.arraySet 2 3 4, .none⟩], 5⟩

/-- `byteArrayGet` as the walk of `Array2Struct` leaves it before the read: the allocation is
the `struct.new` at 5, and the `array.new_fixed` it replaced, retyped, is out of the tree. -/
def byteArrayGetWalked : Function :=
  ⟨[], [], [⟨.const (.i32 0x1ff), .i32⟩, ⟨.const (.i32 7), .i32⟩,
    ⟨.arrayNewFixed [0, 1], .ref (.defined 1) false⟩, ⟨.const (.i32 0), .i32⟩,
    ⟨.arrayGet 5 3 true, .i32⟩, ⟨.structNew [0, 1] none, .ref (.defined 1) false⟩], 4⟩

/-- `byteArraySet` as the walk leaves it before the store, the allocation being the `struct.new`
at 6. -/
def byteArraySetWalked : Function :=
  ⟨[], [], [⟨.const (.i32 0x1ff), .i32⟩, ⟨.const (.i32 7), .i32⟩,
    ⟨.arrayNewFixed [0, 1], .ref (.defined 1) false⟩, ⟨.const (.i32 1), .i32⟩,
    ⟨.const (.i32 0x2ab), .i32⟩, ⟨.arraySet 6 3 4, .none⟩,
    ⟨.structNew [0, 1] none, .ref (.defined 1) false⟩], 5⟩

theorem arrayWalkBefore_byteArrayGet :
    (arrayWalkBefore byteArrayTypes Struct2Local.noLocalSets byteArrayGet 2 4).2.1 =
      byteArrayStructTypes ∧
    (arrayWalkBefore byteArrayTypes Struct2Local.noLocalSets byteArrayGet 2 4).2.2.func =
      byteArrayGetWalked := by
  decide

theorem arrayWalkBefore_byteArraySet :
    (arrayWalkBefore byteArrayTypes Struct2Local.noLocalSets byteArraySet 2 5).2.1 =
      byteArrayStructTypes ∧
    (arrayWalkBefore byteArrayTypes Struct2Local.noLocalSets byteArraySet 2 5).2.2.func =
      byteArraySetWalked := by
  decide

/-- On `$Bytes`, whose slot 0 holds `0x1ff` truncated to `0xff`, in the functions the walk of
`Array2Struct` leaves: the read of slot 0 and its `struct.get` both sign-extend it to `-1`, and
the store of `0x2ab` in slot 1 and its `struct.set` both leave `0xab`. -/
theorem arrayAccessReplacements_match_bytes :
    ((arrayWalkBefore byteArrayTypes Struct2Local.noLocalSets byteArrayGet 2 4).2.1 =
      byteArrayStructTypes ∧
    (arrayWalkBefore byteArrayTypes Struct2Local.noLocalSets byteArrayGet 2 4).2.2.func =
      byteArrayGetWalked) ∧
    eval byteArrayTypes (fun _ _ => none) byteArrayGet 3 4 ⟨[], [], [], []⟩ =
      (.normal (some (.i32 0xffffffff)), ⟨[], [], [⟨0, [.i32 0xff, .i32 7], none⟩], []⟩) ∧
    eval byteArrayStructTypes (fun _ _ => none)
        ((arrayWalkBefore byteArrayTypes Struct2Local.noLocalSets byteArrayGet 2
          4).1.arrayGetReplacement byteArrayGetWalked 5 (getIndex byteArrayGetWalked 3) true
          .i32).1 4
        ((arrayWalkBefore byteArrayTypes Struct2Local.noLocalSets byteArrayGet 2
          4).1.arrayGetReplacement byteArrayGetWalked 5 (getIndex byteArrayGetWalked 3) true
          .i32).2 ⟨[], [], [], []⟩ =
      (.normal (some (.i32 0xffffffff)), ⟨[], [], [⟨1, [.i32 0xff, .i32 7], none⟩], []⟩) ∧
    ((arrayWalkBefore byteArrayTypes Struct2Local.noLocalSets byteArraySet 2 5).2.1 =
      byteArrayStructTypes ∧
    (arrayWalkBefore byteArrayTypes Struct2Local.noLocalSets byteArraySet 2 5).2.2.func =
      byteArraySetWalked) ∧
    eval byteArrayTypes (fun _ _ => none) byteArraySet 3 5 ⟨[], [], [], []⟩ =
      (.normal none, ⟨[], [], [⟨0, [.i32 0xff, .i32 0xab], none⟩], []⟩) ∧
    eval byteArrayStructTypes (fun _ _ => none)
        ((arrayWalkBefore byteArrayTypes Struct2Local.noLocalSets byteArraySet 2
          5).1.arraySetReplacement byteArraySetWalked 6 (getIndex byteArraySetWalked 3) 4).1 4
        ((arrayWalkBefore byteArrayTypes Struct2Local.noLocalSets byteArraySet 2
          5).1.arraySetReplacement byteArraySetWalked 6 (getIndex byteArraySetWalked 3) 4).2
        ⟨[], [], [], []⟩ =
      (.normal none, ⟨[], [], [⟨1, [.i32 0xff, .i32 0xab], none⟩], []⟩) := by
  have hget := ((@arrayAccessReplacements_match byteArrayTypes (fun _ _ => none)
    (arrayWalkBefore byteArrayTypes Struct2Local.noLocalSets byteArrayGet 2 4).1 byteArrayGet
    byteArrayGetWalked (Function.childrenInRange_iff.2 (by decide)) byteArrayStructTypes 2 0
    ⟨[], [], [], []⟩ ⟨[], [], [], []⟩ 0 0).1 4 4 2 3 5 3 true .i32 rfl rfl).2 (.i32 0)
    ⟨[], [], [⟨0, [.i32 0xff, .i32 7], none⟩], []⟩ ⟨[], [], [⟨1, [.i32 0xff, .i32 7], none⟩], []⟩
    ⟨0, [.i32 0xff, .i32 7], none⟩ ⟨1, [.i32 0xff, .i32 7], none⟩ rfl rfl rfl rfl rfl rfl rfl rfl
  have hset := ((@arrayAccessReplacements_match byteArrayTypes (fun _ _ => none)
    (arrayWalkBefore byteArrayTypes Struct2Local.noLocalSets byteArraySet 2 5).1 byteArraySet
    byteArraySetWalked (Function.childrenInRange_iff.2 (by decide)) byteArrayStructTypes 2 0
    ⟨[], [], [], []⟩ ⟨[], [], [], []⟩ 0 0).2 5 5 2 3 4 6 3 4 rfl rfl).2 (.i32 1) (.i32 0x2ab)
    ⟨[], [], [⟨0, [.i32 0xff, .i32 7], none⟩], []⟩ ⟨[], [], [⟨1, [.i32 0xff, .i32 7], none⟩], []⟩
    ⟨0, [.i32 0xff, .i32 7], none⟩ ⟨1, [.i32 0xff, .i32 7], none⟩ rfl rfl rfl rfl rfl rfl rfl rfl
  rw [if_pos (by decide)] at hset
  exact ⟨arrayWalkBefore_byteArrayGet, hget.1.trans rfl, hget.2.trans rfl,
    arrayWalkBefore_byteArraySet, hset.1.trans rfl, hset.2.trans rfl⟩

end Array2Struct

end BinaryenPasses.Heap2Local
