import BinaryenPasses.Heap2Local.CastReplacement

/-!
# What replaces a field access of the allocation

`Struct2Local` keeps each field of the allocation in a local.  `visitStructSet` drops the
reference and stores the value in the field's local; `visitStructGet` drops the reference and
reads the field's local, masked or sign-extended for a packed field as `makePackedFieldGet`
builds it.  The heap stores a packed field's value truncated (`Literal.pack`) and the local the
value itself: the two agree when the heap field is the local's value packed.  A `struct.set`
and its replacement keep that agreement, and under it a `struct.get` and its replacement read
the same value.

* `visitStructGet_eq`, `visitStructSet_eq` — the visitors are `structGetReplacement` and
  `structSetReplacement` followed by `replaceCurrent`;
* `makePackedFieldGet_spec` — what `makePackedFieldGet` builds on a read of a local reads it as
  a read of the packed field reads the value packed;
* `structGetReplacement_layout`, `structSetReplacement_layout` — where the builders put each
  part of the two blocks;
* **`structFieldReplacements_match_heap`** — each block runs the reference (and the value) as
  the original access does, and reads or writes the field's local as the original reads or
  writes the field.
-/

namespace BinaryenPasses.Heap2Local

open BinaryenPasses.IR

namespace Struct2Local

variable (s2l : Struct2Local)

/-! ## The blocks the visitors build -/

/-- The function and the block `visitStructGet` builds, before `replaceCurrent`. -/
def structGetReplacement (f : Function) (index : Nat) (ref : ExprId) (signed : Bool) :
    Function × ExprId :=
  let field := s2l.fields.getD index default
  let (f, value) := Builder.makeLocalGet f (s2l.localIndexes.getD index 0) field.type
  let (f, value) := makePackedFieldGet f value field signed
  let (f, drop) := Builder.makeDrop f ref
  let (f, replacement) := Builder.blockify f drop []
  Builder.blockify f replacement [value]

theorem visitStructGet_eq (r : Rewrite) (curr : ExprId) (parent : Option ExprId) (index : Nat)
    (ref : ExprId) (signed : Bool) (currType : Ty) (h : r.reached.get curr ≠ .none) :
    s2l.visitStructGet r curr parent index ref signed currType =
      ((if (s2l.fields.getD index default).type ≠ currType then { r with refinalize := true }
        else r).withFunc (s2l.structGetReplacement r.func index ref signed).1).replaceCurrent
        curr parent (s2l.structGetReplacement r.func index ref signed).2 := by
  simp only [visitStructGet, h, if_false]
  split_ifs <;> rfl

/-- The function and the block `visitStructSet` builds, before `replaceCurrent`. -/
def structSetReplacement (f : Function) (index : Nat) (ref value : ExprId) :
    Function × ExprId :=
  let (f, drop) := Builder.makeDrop f ref
  let (f, set) := Builder.makeLocalSet f (s2l.localIndexes.getD index 0) value
  Builder.makeSequence f drop set

theorem visitStructSet_eq (r : Rewrite) (curr : ExprId) (parent : Option ExprId) (index : Nat)
    (ref value : ExprId) (h : r.reached.get curr ≠ .none) :
    s2l.visitStructSet r curr parent index ref value =
      (r.withFunc (s2l.structSetReplacement r.func index ref value).1).replaceCurrent curr parent
        (s2l.structSetReplacement r.func index ref value).2 := by
  simp only [visitStructSet, h, if_false]
  rfl

/-! ## Reading a packed field from its local -/

/-- A byte (half) masked by all ones is itself: masking a packed field before truncating it
changes nothing. -/
@[simp] theorem and_byteMask (x : BitVec 8) : x &&& BitVec.ofNat 8 255 = x := by
  rw [show BitVec.ofNat 8 255 = BitVec.allOnes 8 by decide, BitVec.and_allOnes]

@[simp] theorem and_halfMask (x : BitVec 16) : x &&& BitVec.ofNat 16 65535 = x := by
  rw [show BitVec.ofNat 16 65535 = BitVec.allOnes 16 by decide, BitVec.and_allOnes]

variable (types : TypeSection) (env : CallEnv)

/-- What `makePackedFieldGet` builds on a read of local `k` extends the function, and in any
extension reads the local's value `v` as a read of the field reads `v` packed. -/
theorem makePackedFieldGet_spec {f : Function} {get : ExprId} {k : Nat}
    (hget : f.expr? get = some (.localGet k)) (field : Field) (signed : Bool) :
    f.Extends (makePackedFieldGet f get field signed).1 ∧
    ∀ g, (makePackedFieldGet f get field signed).1.Extends g → ∀ m s v, s.locals[k]? = some v →
      (field.isPacked → ∃ w, v = .i32 w) →
      eval types env g (m + 2) (makePackedFieldGet f get field signed).2 s =
        (.normal (some (Literal.unpack field signed (Literal.pack field v))), s) := by
  rcases field with ⟨ty, p, mu⟩
  have hin : ∀ e g, (Builder.alloc f e).1.Extends g → g.expr? get = some (.localGet k) :=
    fun e _ hg => hg.expr? ((Builder.alloc_extends f e).expr? hget)
  cases p <;> cases signed <;>
    simp only [makePackedFieldGet, Builder.makeUnary, Builder.makeConst, Builder.makeBinary]
  case notPacked.false | notPacked.true =>
    refine ⟨.refl f, fun g hg m s v hv _ => ?_⟩
    rw [eval_localGet types env (hg.expr? hget)]
    simp [hv, Literal.pack, Literal.unpack]
  case i8.true | i16.true =>
    refine ⟨Builder.alloc_extends _ _, fun g hg m s v hv hp => ?_⟩
    obtain ⟨w, rfl⟩ := hp rfl
    rw [eval_of_expr? types env (hg.expr? (Builder.expr?_alloc _ _))]
    simp [evalStep, andThen, eval_localGet types env (hin _ _ hg), hv, Literal.unary,
      Literal.pack, Literal.unpack]
  case i8.false | i16.false =>
    refine ⟨(Builder.alloc_extends _ _).trans (Builder.alloc_extends _ _),
      fun g hg m s v hv hp => ?_⟩
    obtain ⟨w, rfl⟩ := hp rfl
    have hmask : ∀ e e' g, (Builder.alloc (Builder.alloc f e).1 e').1.Extends g →
        g.expr? (Builder.alloc f e).2 = some e.expr :=
      fun e e' _ hg => hg.expr? ((Builder.alloc_extends _ e').expr? (Builder.expr?_alloc f e))
    rw [eval_of_expr? types env (hg.expr? (Builder.expr?_alloc _ _))]
    simp only [evalStep, andThenAll, seqEval, eval_localGet types env
      (hin _ _ ((Builder.alloc_extends _ _).trans hg)), eval_of_expr? types env (hmask _ _ _ hg)]
    simp [evalStep, hv, Literal.binary, Literal.pack, Literal.unpack]

/-! ## Where the builders put each part -/

/-- Where `structSetReplacement` puts what: the dropped reference, the value stored in the
field's local, and the block of the two. -/
theorem structSetReplacement_layout (f : Function) (index : Nat) (ref value : ExprId) :
    f.Extends (s2l.structSetReplacement f index ref value).1 ∧
    (s2l.structSetReplacement f index ref value).2 = f.exprs.length + 2 ∧
    (s2l.structSetReplacement f index ref value).1.exprs.map Expression.expr =
      f.exprs.map Expression.expr ++ [.drop ref,
        .localSet (s2l.localIndexes.getD index 0) value false,
        .block none [f.exprs.length, f.exprs.length + 1]] := by
  refine (fun (h : _ ∧ _) => ⟨extends_of_take h.1, h.2⟩) ?_
  simp [structSetReplacement, Builder.makeDrop, Builder.makeLocalSet, Builder.makeSequence,
    Builder.makeBlock, Builder.alloc]

/-- Where `structGetReplacement` puts what: a block of the dropped reference and the read of the
field's local, which reads the local's value as a read of the field reads it packed. -/
theorem structGetReplacement_layout (f : Function) (index : Nat) (ref : ExprId) (signed : Bool) :
    f.Extends (s2l.structGetReplacement f index ref signed).1 ∧
    ∃ drop value, (s2l.structGetReplacement f index ref signed).1.expr?
        (s2l.structGetReplacement f index ref signed).2 = some (.block none [drop, value]) ∧
      (s2l.structGetReplacement f index ref signed).1.expr? drop = some (.drop ref) ∧
      ∀ m s v, s.locals[s2l.localIndexes.getD index 0]? = some v →
        ((s2l.fields.getD index default).isPacked → ∃ w, v = .i32 w) →
        eval types env (s2l.structGetReplacement f index ref signed).1 (m + 2) value s =
          (.normal (some (Literal.unpack (s2l.fields.getD index default) signed
            (Literal.pack (s2l.fields.getD index default) v))), s) := by
  set k := s2l.localIndexes.getD index 0
  set field := s2l.fields.getD index default
  obtain ⟨hext, hval⟩ := makePackedFieldGet_spec types env
    (Builder.expr?_alloc f ⟨.localGet k, field.type⟩) field signed
  simp only [structGetReplacement, Builder.makeLocalGet]
  set P := makePackedFieldGet (Builder.alloc f ⟨.localGet k, field.type⟩).1
    (Builder.alloc f ⟨.localGet k, field.type⟩).2 field signed
  have hext' : P.1.Extends (Builder.blockify (Builder.blockify (Builder.makeDrop P.1 ref).1
      (Builder.makeDrop P.1 ref).2 []).1 (Builder.blockify (Builder.makeDrop P.1 ref).1
      (Builder.makeDrop P.1 ref).2 []).2 [P.2]).1 := by
    refine extends_of_take ?_
    simp [Builder.makeDrop, Builder.blockify, Builder.makeBlock, Builder.alloc, Function.expr?,
      Function.get, Function.set, List.getElem_append_right, List.take_set_of_lt]
  refine ⟨(Builder.alloc_extends _ _).trans (hext.trans hext'), P.1.exprs.length, P.2, ?_, ?_,
    fun m s v hv hp => hval _ hext' m s v hv hp⟩ <;>
  simp [Builder.makeDrop, Builder.blockify, Builder.makeBlock, Builder.alloc, Function.expr?,
    Function.get, Function.set, List.getElem_append_right]

/-! ## Running the blocks -/

/-- The `struct.set` block: the reference and the value as `seqEval` runs them in `f`, then the
value stored in the field's local. -/
theorem structSetReplacement_eval {f : Function} (hf : f.ChildrenInRange) (index : Nat)
    {ref value : ExprId} (hlt : ∀ c ∈ [ref, value], c < f.exprs.length) (n : Nat) (s : State) :
    eval types env (s2l.structSetReplacement f index ref value).1 (n + 4)
        (s2l.structSetReplacement f index ref value).2 s =
      match seqEval (eval types env f (n + 2)) [ref, value] s with
      | (.ok [_, some y], s) => (.normal none, s.setLocal (s2l.localIndexes.getD index 0) y)
      | (.ok _, s) => (.trap, s)
      | (.error fl, s) => (fl, s) := by
  obtain ⟨hext, hB, hmap⟩ := s2l.structSetReplacement_layout f index ref value
  have hid := expr?_of_exprs_map hmap
  rw [hB, eval_block_none types env (hid 2),
    seqEval_drop_set types env (by simpa using hid 0) (hid 1),
    seqEval_extend types env hf hext [ref, value] hlt]
  rcases hr : seqEval (eval types env f (n + 2)) [ref, value] s with ⟨fl | vs, s'⟩
  · rfl
  · obtain ⟨x, y, rfl⟩ := List.length_eq_two.1 (seqEval_ok_length hr)
    rcases y with _ | y <;> rfl

/-- The `struct.get` block: the reference as `f` runs it, then the read of the field's local. -/
theorem structGetReplacement_eval {f : Function} (hf : f.ChildrenInRange) (index : Nat)
    {ref : ExprId} (signed : Bool) (href : ref < f.exprs.length) (n : Nat) (s : State) :
    (∀ fl s', eval types env f (n + 2) ref s = (fl, s') → (∀ v, fl ≠ .normal v) →
      eval types env (s2l.structGetReplacement f index ref signed).1 (n + 4)
        (s2l.structGetReplacement f index ref signed).2 s = (fl, s')) ∧
    (∀ x s' v, eval types env f (n + 2) ref s = (.normal x, s') →
      s'.locals[s2l.localIndexes.getD index 0]? = some v →
      ((s2l.fields.getD index default).isPacked → ∃ w, v = .i32 w) →
      eval types env (s2l.structGetReplacement f index ref signed).1 (n + 4)
        (s2l.structGetReplacement f index ref signed).2 s =
        (.normal (some (Literal.unpack (s2l.fields.getD index default) signed
          (Literal.pack (s2l.fields.getD index default) v))), s')) := by
  obtain ⟨⟨extra, hgx⟩, drop, value, hB, hdrop, hval⟩ :=
    s2l.structGetReplacement_layout types env f index ref signed
  have href' := eval_extend types env hf hgx (n + 2) ref s href
  refine ⟨fun fl s' h hn => ?_, fun x s' v h hv hp => ?_⟩
  · rw [eval_block_none types env hB]
    simp only [seqEval, eval_drop types env hdrop, href', h]
    cases fl with
    | normal v => exact absurd rfl (hn v)
    | _ => rfl
  · rw [eval_block_none types env hB]
    simp only [seqEval, eval_drop types env hdrop, href', h, andThen, hval (n + 1) s' v hv hp]
    rfl

/-! ## The field accesses -/

/-- `struct.get`: its reference as `f` runs it; then the field of the object it names, unpacked
as the field's type says. -/
theorem eval_structGet {f : Function} {curr ref : ExprId} {index : Nat} {signed : Bool}
    (hcurr : f.expr? curr = some (.structGet index ref signed)) (m : Nat) (s : State) :
    (∀ fl s', eval types env f m ref s = (fl, s') → (∀ v, fl ≠ .normal v) →
      eval types env f (m + 1) curr s = (fl, s')) ∧
    (∀ a s' o fv field, eval types env f m ref s = (.normal (some (.ref a)), s') →
      s'.heap[a]? = some o → o.fields[index]? = some fv →
      (fieldsOf types o.type)[index]? = some field →
      eval types env f (m + 1) curr s = (.normal (some (Literal.unpack field signed fv)), s')) := by
  rw [eval_of_expr? types env hcurr]
  refine ⟨fun fl s' h hn => ?_, fun a s' o fv field h ho hfv hfield => ?_⟩
  · simp only [evalStep, h]
    cases fl with
    | normal v => exact absurd rfl (hn v)
    | _ => rfl
  · simp only [evalStep, h, andThen, State.getObj, ho, hfv, hfield]

/-- `struct.set`: its operands as `seqEval` runs them; then the value, packed as the field's
type says, stored in the field of the object the reference names. -/
theorem eval_structSet {f : Function} {curr ref value : ExprId} {index : Nat}
    (hcurr : f.expr? curr = some (.structSet index ref value)) (m : Nat) (s : State) :
    (∀ fl s', seqEval (eval types env f m) [ref, value] s = (.error fl, s') →
      eval types env f (m + 1) curr s = (fl, s')) ∧
    (∀ a y s' o field, seqEval (eval types env f m) [ref, value] s =
        (.ok [some (.ref a), some y], s') →
      s'.heap[a]? = some o → (fieldsOf types o.type)[index]? = some field →
      eval types env f (m + 1) curr s =
        (.normal none, s'.setObj (some (.ref a)) (o.setField index (Literal.pack field y)))) := by
  rw [eval_of_expr? types env hcurr]
  exact ⟨fun fl s' h => by simp only [evalStep, h, andThenAll],
    fun a y s' o field h ho hfield => by simp only [evalStep, h, andThenAll, State.getObj, ho, hfield]⟩

/-- A `struct.set` and its replacement keep the agreement a `struct.get` needs: afterwards the
field holds the local's value packed. -/
theorem structSet_keeps_field_agreement {so sn : State} {a : Nat} {o : HeapObject}
    {index k : Nat} (field : Field) (y : Literal) (ho : so.heap[a]? = some o)
    (hi : index < o.fields.length) (hk : k < sn.locals.length) :
    ∃ o', (so.setObj (some (.ref a)) (o.setField index (Literal.pack field y))).heap[a]? =
        some o' ∧ o'.type = o.type ∧ o'.fields[index]? = some (Literal.pack field y) ∧
      (sn.setLocal k y).locals[k]? = some y := by
  have ha : a < so.heap.length := (List.getElem?_eq_some_iff.1 ho).1
  refine ⟨o.setField index (Literal.pack field y), ?_, rfl, ?_, getElem?_locals_setLocal_self hk y⟩
  · simp [State.setObj, List.getElem?_set, ha]
  · simp [HeapObject.setField, List.getElem?_set, hi]

/-! ## The blocks against the field accesses -/

/-- **The blocks do what the field accesses do.**  Take a `struct.get` or a `struct.set` of field
`index` in the original function `f₀`, and the same expression in `f`, the function
`visitStructGet` or `visitStructSet` rewrites (its operands already rewritten).  Run the access
from any state, and the block from any state of the rewritten function.

When the operands fail alike, both fail the same way in the states the operands leave.  When
they complete alike, the original reference being the allocation at `a`: the `struct.set` stores
the value packed in the field and its block the value itself in the field's local; the
`struct.get`, the field holding the local's value packed and the analysis' field being the
heap type's, returns the field unpacked, and so does its block. -/
theorem structFieldReplacements_match_heap (s2l : Struct2Local) {f₀ f : Function}
    (hf : f.ChildrenInRange) {index : Nat} (m n : Nat) (so sn : State) (a : Nat) :
    (∀ curr₀ curr ref₀ ref signed,
      f₀.expr? curr₀ = some (.structGet index ref₀ signed) →
      f.expr? curr = some (.structGet index ref signed) →
      (∀ fl so' sn', (∀ v, fl ≠ .normal v) →
        eval types env f₀ m ref₀ so = (fl, so') →
        eval types env f (n + 2) ref sn = (fl, sn') →
        eval types env f₀ (m + 1) curr₀ so = (fl, so') ∧
        eval types env (s2l.structGetReplacement f index ref signed).1 (n + 4)
          (s2l.structGetReplacement f index ref signed).2 sn = (fl, sn')) ∧
      (∀ x so' sn' o fv field v,
        eval types env f₀ m ref₀ so = (.normal (some (.ref a)), so') →
        eval types env f (n + 2) ref sn = (.normal x, sn') →
        so'.heap[a]? = some o → o.fields[index]? = some fv →
        (fieldsOf types o.type)[index]? = some field → s2l.fields.getD index default = field →
        sn'.locals[s2l.localIndexes.getD index 0]? = some v → fv = Literal.pack field v →
        (field.isPacked → ∃ w, v = .i32 w) →
        eval types env f₀ (m + 1) curr₀ so =
          (.normal (some (Literal.unpack field signed fv)), so') ∧
        eval types env (s2l.structGetReplacement f index ref signed).1 (n + 4)
          (s2l.structGetReplacement f index ref signed).2 sn =
          (.normal (some (Literal.unpack field signed fv)), sn'))) ∧
    (∀ curr₀ curr ref₀ value₀ ref value,
      f₀.expr? curr₀ = some (.structSet index ref₀ value₀) →
      f.expr? curr = some (.structSet index ref value) →
      (∀ fl so' sn', seqEval (eval types env f₀ m) [ref₀, value₀] so = (.error fl, so') →
        seqEval (eval types env f (n + 2)) [ref, value] sn = (.error fl, sn') →
        eval types env f₀ (m + 1) curr₀ so = (fl, so') ∧
        eval types env (s2l.structSetReplacement f index ref value).1 (n + 4)
          (s2l.structSetReplacement f index ref value).2 sn = (fl, sn')) ∧
      (∀ x y so' sn' o field,
        seqEval (eval types env f₀ m) [ref₀, value₀] so = (.ok [some (.ref a), some y], so') →
        seqEval (eval types env f (n + 2)) [ref, value] sn = (.ok [x, some y], sn') →
        so'.heap[a]? = some o → (fieldsOf types o.type)[index]? = some field →
        eval types env f₀ (m + 1) curr₀ so =
          (.normal none, so'.setObj (some (.ref a)) (o.setField index (Literal.pack field y))) ∧
        eval types env (s2l.structSetReplacement f index ref value).1 (n + 4)
          (s2l.structSetReplacement f index ref value).2 sn =
          (.normal none, sn'.setLocal (s2l.localIndexes.getD index 0) y))) := by
  refine ⟨fun curr₀ curr ref₀ ref signed h₀ h => ?_,
    fun curr₀ curr ref₀ value₀ ref value h₀ h => ?_⟩
  · have hblock := s2l.structGetReplacement_eval types env hf index signed
      (children_lt_of_expr? hf h ref (List.mem_singleton_self _)) n sn
    refine ⟨fun fl so' sn' hn h₁ h₂ => ⟨(eval_structGet types env h₀ m so).1 fl so' h₁ hn,
        hblock.1 fl sn' h₂ hn⟩,
      fun x so' sn' o fv field v h₁ h₂ ho hfv hfield hfd hv hpack hp => ?_⟩
    subst hfd hpack
    exact ⟨(eval_structGet types env h₀ m so).2 a so' o _ _ h₁ ho hfv hfield,
      hblock.2 x sn' v h₂ hv hp⟩
  · have hblock := s2l.structSetReplacement_eval types env hf index
      (children_lt_of_expr? hf h) n sn
    exact ⟨fun fl so' sn' h₁ h₂ => ⟨(eval_structSet types env h₀ m so).1 fl so' h₁,
        by rw [hblock, h₂]⟩,
      fun x y so' sn' o field h₁ h₂ ho hfield =>
        ⟨(eval_structSet types env h₀ m so).2 a y so' o field h₁ ho hfield, by rw [hblock, h₂]⟩⟩

/-- A struct type `$Byte` with one mutable field packed to `i8`. -/
def byteTypes : TypeSection := [.struct [⟨.i32, .i8, true⟩] none none]

/-- `(struct.get_s $Byte 0 (struct.new $Byte (i32.const 0x1ff)))`. -/
def byteGet : Function :=
  ⟨[], [], [⟨.const (.i32 0x1ff), .i32⟩, ⟨.structNew [0] none, .ref (.defined 0) false⟩,
    ⟨.structGet 0 1 true, .i32⟩], 2⟩

/-- `(struct.set $Byte 0 (struct.new $Byte (i32.const 0x1ff)) (i32.const 0x2ab))`. -/
def byteSet : Function :=
  ⟨[], [], [⟨.const (.i32 0x1ff), .i32⟩, ⟨.structNew [0] none, .ref (.defined 0) false⟩,
    ⟨.const (.i32 0x2ab), .i32⟩, ⟨.structSet 0 1 2, .none⟩], 3⟩

/-- `byteGet` as the walk of `Struct2Local` leaves it before the read: the allocation is the
block at 7, which stores `0x1ff` in the field's local 0 through the temp local 1. -/
def byteGetWalked : Function :=
  ⟨[], [.i32, .i32], [⟨.const (.i32 0x1ff), .i32⟩, ⟨.structNew [0] none, .ref (.defined 0) false⟩,
    ⟨.structGet 0 7 true, .i32⟩, ⟨.localSet 1 0 false, .none⟩, ⟨.localGet 1, .i32⟩,
    ⟨.localSet 0 4 false, .none⟩, ⟨.refNull, .ref (.defined 0) true⟩,
    ⟨.block none [3, 5, 6], .ref (.defined 0) true⟩], 2⟩

/-- `byteSet` as the walk leaves it before the store, the allocation being the block at 8. -/
def byteSetWalked : Function :=
  ⟨[], [.i32, .i32], [⟨.const (.i32 0x1ff), .i32⟩, ⟨.structNew [0] none, .ref (.defined 0) false⟩,
    ⟨.const (.i32 0x2ab), .i32⟩, ⟨.structSet 0 8 2, .none⟩, ⟨.localSet 1 0 false, .none⟩,
    ⟨.localGet 1, .i32⟩, ⟨.localSet 0 5 false, .none⟩, ⟨.refNull, .ref (.defined 0) true⟩,
    ⟨.block none [4, 6, 7], .ref (.defined 0) true⟩], 3⟩

theorem walkBefore_byteGet :
    (walkBefore byteTypes noLocalSets byteGet 1 2).func = byteGetWalked := by
  decide

theorem walkBefore_byteSet :
    (walkBefore byteTypes noLocalSets byteSet 1 3).func = byteSetWalked := by
  decide

/-- On `$Byte`, whose field the heap keeps truncated to `0xff` and the local as `0x1ff`, in the
functions the walk of `Struct2Local` leaves: both reads sign-extend the byte to `-1`, and the
store leaves `0xab` in the field and `0x2ab` in the local. -/
theorem structFieldReplacements_match_heap_byte :
    (walkBefore byteTypes noLocalSets byteGet 1 2).func = byteGetWalked ∧
    eval byteTypes (fun _ _ => none) byteGet 3 2 ⟨[], [], [], []⟩ =
      (.normal (some (.i32 0xffffffff)), ⟨[], [], [⟨0, [.i32 0xff], none⟩], []⟩) ∧
    eval byteTypes (fun _ _ => none)
        ((make byteTypes byteGet 1).1.structGetReplacement byteGetWalked 0 7 true).1 5
        ((make byteTypes byteGet 1).1.structGetReplacement byteGetWalked 0 7 true).2
        ⟨[.i32 0, .i32 0], [], [], []⟩ =
      (.normal (some (.i32 0xffffffff)), ⟨[.i32 0x1ff, .i32 0x1ff], [], [], []⟩) ∧
    (walkBefore byteTypes noLocalSets byteSet 1 3).func = byteSetWalked ∧
    eval byteTypes (fun _ _ => none) byteSet 3 3 ⟨[], [], [], []⟩ =
      (.normal none, ⟨[], [], [⟨0, [.i32 0xab], none⟩], []⟩) ∧
    eval byteTypes (fun _ _ => none)
        ((make byteTypes byteSet 1).1.structSetReplacement byteSetWalked 0 8 2).1 5
        ((make byteTypes byteSet 1).1.structSetReplacement byteSetWalked 0 8 2).2
        ⟨[.i32 0, .i32 0], [], [], []⟩ =
      (.normal none, ⟨[.i32 0x2ab, .i32 0x1ff], [], [], []⟩) := by
  have hget := ((@structFieldReplacements_match_heap byteTypes (fun _ _ => none)
    (make byteTypes byteGet 1).1 byteGet byteGetWalked
    (Function.childrenInRange_iff.2 (by decide)) 0 2 1 ⟨[], [], [], []⟩
    ⟨[.i32 0, .i32 0], [], [], []⟩ 0).1 2 2 1 7 true rfl rfl).2 (some .null)
    ⟨[], [], [⟨0, [.i32 0xff], none⟩], []⟩ ⟨[.i32 0x1ff, .i32 0x1ff], [], [], []⟩
    ⟨0, [.i32 0xff], none⟩ (.i32 0xff) ⟨.i32, .i8, true⟩ (.i32 0x1ff)
    rfl rfl rfl rfl rfl rfl rfl rfl fun _ => ⟨_, rfl⟩
  have hset := ((@structFieldReplacements_match_heap byteTypes (fun _ _ => none)
    (make byteTypes byteSet 1).1 byteSet byteSetWalked
    (Function.childrenInRange_iff.2 (by decide)) 0 2 1 ⟨[], [], [], []⟩
    ⟨[.i32 0, .i32 0], [], [], []⟩ 0).2 3 3 1 2 8 2 rfl rfl).2 (some .null) (.i32 0x2ab)
    ⟨[], [], [⟨0, [.i32 0xff], none⟩], []⟩ ⟨[.i32 0x1ff, .i32 0x1ff], [], [], []⟩
    ⟨0, [.i32 0xff], none⟩ ⟨.i32, .i8, true⟩ rfl rfl rfl rfl
  exact ⟨walkBefore_byteGet, hget.1.trans rfl, hget.2.trans rfl, walkBefore_byteSet,
    hset.1.trans rfl, hset.2.trans rfl⟩

end Struct2Local

end BinaryenPasses.Heap2Local
