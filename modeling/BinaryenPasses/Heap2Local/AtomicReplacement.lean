import BinaryenPasses.Heap2Local.StructNewReplacement

/-!
# The blocks that replace `struct.rmw` and `struct.cmpxchg`

`Struct2Local::visitStructRMW` replaces a read-modify-write of a field of the allocation by a
block on the field's local: the reference is dropped, the value stored in a scratch local, the
field's local stashed in another, updated, and the stash returned.  `visitStructCmpxchg` does
the same with the expected value and the replacement, and updates the field's local only when
it equals the expected value (`ref.eq` for references, integer equality otherwise).

The operands of the rewritten expression are themselves rewritten by the walk, so the block is
compared with the heap operation over any two runs of the operands, one in the original function
and one in the function the visitor rewrites, that end alike: the same way when they fail, and
otherwise with the same values (the reference apart, which is the allocation in the original
run) and with the field's local holding what the allocation's field holds.

* `structRMWReplacement_layout`, `structCmpxchgReplacement_layout` — where the builders put
  each part of the blocks;
* `seqEval_drop_set`, `seqEval_localSet` — dropping the reference and storing the other
  operands in scratch locals runs the operands once each, in order, as `seqEval` runs them;
* `eval_structRMW`, `eval_structCmpxchg` — the heap operations, once their operands have run;
* `structRMWReplacement_eval`, `structCmpxchgReplacement_eval` — the blocks, once their
  operands have run;
* **`structAtomicReplacements_match_heap`** — each block returns the field's value as it stands
  after the operands, and leaves in the field's local what the heap operation leaves in the
  field: `op(old, value)` (the value for `xchg`, wrapping arithmetic otherwise), or the
  replacement when the field equals the expected value.
-/

namespace BinaryenPasses.Heap2Local

open BinaryenPasses.IR

namespace Struct2Local

variable (s2l : Struct2Local)

/-! ## The blocks the visitors build -/

/-- The function and the block `visitStructRMW` builds, before `replaceCurrent`. -/
def structRMWReplacement (f : Function) (op : RMWOp) (index : Nat) (ref value : ExprId)
    (type : Ty) : Function × ExprId :=
  let (f, oldScratch) := Builder.addVar f type
  let (f, valScratch) := Builder.addVar f type
  let fieldLocal := s2l.localIndexes.getD index 0
  let (f, drop) := Builder.makeDrop f ref
  let (f, setVal) := Builder.makeLocalSet f valScratch value
  let (f, block) := Builder.makeSequence f drop setVal
  let (f, getField) := Builder.makeLocalGet f fieldLocal type
  let (f, setOld) := Builder.makeLocalSet f oldScratch getField
  let (f, newVal) := match op with
    | .xchg => Builder.makeLocalGet f valScratch type
    | op =>
      let (f, lhs) := Builder.makeLocalGet f fieldLocal type
      let (f, rhs) := Builder.makeLocalGet f valScratch type
      Builder.makeBinary f (rmwBinop op) lhs rhs
  let (f, setField) := Builder.makeLocalSet f fieldLocal newVal
  let (f, getOld) := Builder.makeLocalGet f oldScratch type
  (f.set block ⟨.block none [drop, setVal, setOld, setField, getOld], type⟩, block)

theorem visitStructRMW_eq (r : Rewrite) (curr : ExprId) (parent : Option ExprId) (op : RMWOp)
    (index : Nat) (ref value : ExprId) (type : Ty) (h : r.reached.get curr ≠ .none) :
    s2l.visitStructRMW r curr parent op index ref value type =
      (r.withFunc (s2l.structRMWReplacement r.func op index ref value type).1).replaceCurrent
        curr parent (s2l.structRMWReplacement r.func op index ref value type).2 := by
  simp only [visitStructRMW, h, if_false]
  rfl

/-- The function and the block `visitStructCmpxchg` builds, before `replaceCurrent`. -/
def structCmpxchgReplacement (f : Function) (index : Nat) (ref expected replacement : ExprId)
    (type : Ty) : Function × ExprId :=
  let (f, oldScratch) := Builder.addVar f type
  let (f, expectedScratch) := Builder.addVar f type
  let (f, replacementScratch) := Builder.addVar f type
  let fieldLocal := s2l.localIndexes.getD index 0
  let (f, drop) := Builder.makeDrop f ref
  let (f, setExpected) := Builder.makeLocalSet f expectedScratch expected
  let (f, setReplacement) := Builder.makeLocalSet f replacementScratch replacement
  let (f, getField) := Builder.makeLocalGet f fieldLocal type
  let (f, setOld) := Builder.makeLocalSet f oldScratch getField
  let (f, block) := Builder.makeBlock f [drop, setExpected, setReplacement, setOld]
  let (f, lhs) := Builder.makeLocalGet f fieldLocal type
  let (f, rhs) := Builder.makeLocalGet f expectedScratch type
  let (f, pred) := if type.isRef then Builder.makeRefEq f lhs rhs
    else Builder.makeBinary f .eq lhs rhs
  let (f, getReplacement) := Builder.makeLocalGet f replacementScratch type
  let (f, setField) := Builder.makeLocalSet f fieldLocal getReplacement
  let (f, iff) := Builder.makeIf f pred setField none
  let (f, getOld) := Builder.makeLocalGet f oldScratch type
  let f := f.set block
    ⟨.block none [drop, setExpected, setReplacement, setOld, iff, getOld], type⟩
  (f, block)

theorem visitStructCmpxchg_eq (r : Rewrite) (curr : ExprId) (parent : Option ExprId)
    (index : Nat) (ref expected replacement : ExprId) (type : Ty)
    (h : r.reached.get ref = .flows) :
    s2l.visitStructCmpxchg r curr parent index ref expected replacement type =
      (r.withFunc (s2l.structCmpxchgReplacement r.func index ref expected replacement type).1
        ).replaceCurrent curr parent
        (s2l.structCmpxchgReplacement r.func index ref expected replacement type).2 := by
  simp only [visitStructCmpxchg, h, ne_eq, not_true_eq_false, if_false]
  rfl

/-! ## Where the builders put each part -/

/-- Read an expression of the built function off the list of its expressions' classes. -/
theorem expr?_of_exprs_map {f g : Function} {t : List Expr}
    (h : g.exprs.map Expression.expr = f.exprs.map Expression.expr ++ t) (k : Nat) :
    g.expr? (f.exprs.length + k) = t[k]? := by
  have : g.expr? (f.exprs.length + k) = (g.exprs.map Expression.expr)[f.exprs.length + k]? := by
    simp [Function.expr?, Function.get, List.getElem?_map]
  rw [this, h, List.getElem?_append_right (by simp)]
  simp

/-- A function whose first expressions are those of `f` extends it. -/
theorem extends_of_take {f g : Function} (h : g.exprs.take f.exprs.length = f.exprs) :
    f.Extends g :=
  ⟨g.exprs.drop f.exprs.length, by
    conv_lhs => rw [← List.take_append_drop f.exprs.length g.exprs, h]⟩

variable (types : TypeSection) (env : CallEnv)

/-- Where `structRMWReplacement` puts what, `N` being the function's number of locals: the
block at `L + 2` (`L` the number of expressions), the dropped reference, the value stored in the
scratch local `N + 1`, the field's local stashed in `N`, the new value stored in the field's
local, and the stash read back; the new value is the scratch value for `xchg`, else the
operator on the field's local and the scratch value. -/
theorem structRMWReplacement_layout (f : Function) (op : RMWOp) (index : Nat)
    (ref value : ExprId) (type : Ty) :
    f.Extends (s2l.structRMWReplacement f op index ref value type).1 ∧
    (s2l.structRMWReplacement f op index ref value type).1.numLocals = f.numLocals + 2 ∧
    (s2l.structRMWReplacement f op index ref value type).2 = f.exprs.length + 2 ∧
    ∃ setField newVal getOld,
      (s2l.structRMWReplacement f op index ref value type).1.expr? (f.exprs.length + 2) =
        some (.block none [f.exprs.length, f.exprs.length + 1, f.exprs.length + 4, setField,
          getOld]) ∧
      (s2l.structRMWReplacement f op index ref value type).1.expr? f.exprs.length =
        some (.drop ref) ∧
      (s2l.structRMWReplacement f op index ref value type).1.expr? (f.exprs.length + 1) =
        some (.localSet (f.numLocals + 1) value false) ∧
      (s2l.structRMWReplacement f op index ref value type).1.expr? (f.exprs.length + 3) =
        some (.localGet (s2l.localIndexes.getD index 0)) ∧
      (s2l.structRMWReplacement f op index ref value type).1.expr? (f.exprs.length + 4) =
        some (.localSet f.numLocals (f.exprs.length + 3) false) ∧
      (s2l.structRMWReplacement f op index ref value type).1.expr? setField =
        some (.localSet (s2l.localIndexes.getD index 0) newVal false) ∧
      (s2l.structRMWReplacement f op index ref value type).1.expr? getOld =
        some (.localGet f.numLocals) ∧
      ∀ m s old v, s.locals[s2l.localIndexes.getD index 0]? = some old →
        s.locals[f.numLocals + 1]? = some v →
        eval types env (s2l.structRMWReplacement f op index ref value type).1 (m + 2) newVal s =
          (Literal.rmw op old v).elim (.trap, s) fun nv => (.normal (some nv), s) := by
  obtain ⟨htake, hnum, hB⟩ : (s2l.structRMWReplacement f op index ref value type).1.exprs.take
      f.exprs.length = f.exprs ∧
      (s2l.structRMWReplacement f op index ref value type).1.numLocals = f.numLocals + 2 ∧
      (s2l.structRMWReplacement f op index ref value type).2 = f.exprs.length + 2 := by
    cases op <;> simp [structRMWReplacement, Builder.addVar, Builder.makeDrop,
      Builder.makeLocalSet, Builder.makeSequence, Builder.makeBlock, Builder.makeLocalGet,
      Builder.makeBinary, Builder.alloc, Function.set, List.take_set_of_lt,
      Function.numLocals] <;> omega
  have hext := extends_of_take htake
  refine ⟨hext, hnum, hB, ?_⟩
  by_cases hop : op = .xchg
  · subst hop
    have hlist : (s2l.structRMWReplacement f .xchg index ref value type).1.exprs.map
        Expression.expr = f.exprs.map Expression.expr ++
          [.drop ref, .localSet (f.numLocals + 1) value false,
            .block none [f.exprs.length, f.exprs.length + 1, f.exprs.length + 4,
              f.exprs.length + 6, f.exprs.length + 7],
            .localGet (s2l.localIndexes.getD index 0),
            .localSet f.numLocals (f.exprs.length + 3) false, .localGet (f.numLocals + 1),
            .localSet (s2l.localIndexes.getD index 0) (f.exprs.length + 5) false,
            .localGet f.numLocals] := by
      simp [structRMWReplacement, Builder.addVar, Builder.makeDrop,
        Builder.makeLocalSet, Builder.makeSequence, Builder.makeBlock, Builder.makeLocalGet,
        Builder.alloc, Function.set, List.map_set, Function.numLocals]
      omega
    have hid := expr?_of_exprs_map hlist
    refine ⟨f.exprs.length + 6, f.exprs.length + 5, f.exprs.length + 7, hid 2,
      by simpa using hid 0, hid 1, hid 3, hid 4, hid 6, hid 7, fun m s old v _ hv => ?_⟩
    have h5 : _ = some (Expr.localGet (f.numLocals + 1)) := hid 5
    rw [eval_of_expr? types env h5]
    simp [evalStep, hv, Literal.rmw]
  · have hlist : (s2l.structRMWReplacement f op index ref value type).1.exprs.map
        Expression.expr = f.exprs.map Expression.expr ++
          [.drop ref, .localSet (f.numLocals + 1) value false,
            .block none [f.exprs.length, f.exprs.length + 1, f.exprs.length + 4,
              f.exprs.length + 8, f.exprs.length + 9],
            .localGet (s2l.localIndexes.getD index 0),
            .localSet f.numLocals (f.exprs.length + 3) false,
            .localGet (s2l.localIndexes.getD index 0), .localGet (f.numLocals + 1),
            .binary (rmwBinop op) (f.exprs.length + 5) (f.exprs.length + 6),
            .localSet (s2l.localIndexes.getD index 0) (f.exprs.length + 7) false,
            .localGet f.numLocals] := by
      clear hext htake hnum hB
      cases op <;> (try exact absurd rfl hop) <;> simp [structRMWReplacement, Builder.addVar,
        Builder.makeDrop, Builder.makeLocalSet, Builder.makeSequence, Builder.makeBlock,
        Builder.makeLocalGet, Builder.makeBinary, Builder.alloc, Function.set, List.map_set,
        Function.numLocals, rmwBinop] <;> omega
    have hid := expr?_of_exprs_map hlist
    refine ⟨f.exprs.length + 8, f.exprs.length + 7, f.exprs.length + 9, hid 2,
      by simpa using hid 0, hid 1, hid 3, hid 4, hid 8, hid 9, fun m s old v hold hv => ?_⟩
    have h5 : _ = some (Expr.localGet (s2l.localIndexes.getD index 0)) := hid 5
    have h6 : _ = some (Expr.localGet (f.numLocals + 1)) := hid 6
    have h7 : _ = some (Expr.binary (rmwBinop op) (f.exprs.length + 5) (f.exprs.length + 6)) :=
      hid 7
    rw [eval_of_expr? types env h7]
    simp only [evalStep, seqEval, andThenAll, eval_of_expr? types env h5,
      eval_of_expr? types env h6, hold, hv]
    have hrmw : Literal.rmw op old v = Literal.binary (rmwBinop op) old v := by
      cases op <;> first | exact absurd rfl hop | rfl
    rw [hrmw]
    cases Literal.binary (rmwBinop op) old v <;> rfl

/-- Where `structCmpxchgReplacement` puts what, `N` being the function's number of locals and `L`
its number of expressions: the block at `L + 5`; the dropped reference, the expected value stored
in `N + 1`, the replacement in `N + 2`, the field's local stashed in `N`; then the exchange, under
`ref.eq` for references and integer equality otherwise; and the stash read back. -/
theorem structCmpxchgReplacement_layout (f : Function) (index : Nat)
    (ref expected replacement : ExprId) (type : Ty) :
    f.Extends (s2l.structCmpxchgReplacement f index ref expected replacement type).1 ∧
    (s2l.structCmpxchgReplacement f index ref expected replacement type).1.numLocals =
      f.numLocals + 3 ∧
    (s2l.structCmpxchgReplacement f index ref expected replacement type).2 =
      f.exprs.length + 5 ∧
    (s2l.structCmpxchgReplacement f index ref expected replacement type).1.exprs.map
      Expression.expr = f.exprs.map Expression.expr ++
        [.drop ref, .localSet (f.numLocals + 1) expected false,
          .localSet (f.numLocals + 2) replacement false,
          .localGet (s2l.localIndexes.getD index 0),
          .localSet f.numLocals (f.exprs.length + 3) false,
          .block none [f.exprs.length, f.exprs.length + 1, f.exprs.length + 2,
            f.exprs.length + 4, f.exprs.length + 11, f.exprs.length + 12],
          .localGet (s2l.localIndexes.getD index 0), .localGet (f.numLocals + 1),
          if type.isRef then .refEq (f.exprs.length + 6) (f.exprs.length + 7)
            else .binary .eq (f.exprs.length + 6) (f.exprs.length + 7),
          .localGet (f.numLocals + 2),
          .localSet (s2l.localIndexes.getD index 0) (f.exprs.length + 9) false,
          .iff (f.exprs.length + 8) (f.exprs.length + 10) none, .localGet f.numLocals] := by
  refine (fun (h : _ ∧ _) => ⟨extends_of_take h.1, h.2⟩) ?_
  cases hT : type.isRef <;> simp [structCmpxchgReplacement, Builder.addVar, Builder.makeDrop,
    Builder.makeLocalSet, Builder.makeBlock, Builder.makeLocalGet, Builder.makeBinary,
    Builder.makeRefEq, Builder.makeIf, Builder.alloc, Function.set, List.take_set_of_lt,
    List.map_set, Function.numLocals, hT] <;> omega

/-! ## Running the blocks -/

section run

variable {g : Function}

theorem eval_drop {id ref : ExprId} (h : g.expr? id = some (.drop ref)) (m : Nat) (s : State) :
    eval types env g (m + 1) id s =
      andThen (eval types env g m ref s) fun _ s => (.normal none, s) := by
  rw [eval_of_expr? types env h]
  rfl

theorem eval_localGet {id : ExprId} {i : Nat} (h : g.expr? id = some (.localGet i)) (m : Nat)
    (s : State) : eval types env g (m + 1) id s = (.normal s.locals[i]?, s) := by
  rw [eval_of_expr? types env h]
  rfl

theorem getElem?_locals_setLocal_self {s : State} {i : Nat} (h : i < s.locals.length)
    (v : Literal) : (s.setLocal i v).locals[i]? = some v :=
  List.getElem?_set_self h

/-- Dropping the reference then storing the next operand in a local runs the two operands as
`seqEval` runs them, then the rest of the block from the state with the operand stored. -/
theorem seqEval_drop_set {d st ref value : ExprId} {t : Nat}
    (hd : g.expr? d = some (.drop ref)) (hst : g.expr? st = some (.localSet t value false))
    (m : Nat) (rest : List ExprId) (s : State) :
    seqEval (eval types env g (m + 1)) (d :: st :: rest) s =
      match seqEval (eval types env g m) [ref, value] s with
      | (.ok [_, some v], s) =>
        match seqEval (eval types env g (m + 1)) rest (s.setLocal t v) with
        | (.ok vs, s) => (.ok (none :: none :: vs), s)
        | (.error fl, s) => (.error fl, s)
      | (.ok _, s) => (.error .trap, s)
      | (.error fl, s) => (.error fl, s) := by
  simp only [seqEval, eval_drop types env hd, eval_localSet types env hst]
  rcases eval types env g m ref s with ⟨_ | _ | _ | _ | _, s1⟩ <;> simp only [andThen]
  rcases eval types env g m value s1 with ⟨_ | _ | _ | _ | _, s2⟩ <;> simp only [andThen]
  rename_i w
  cases w with
  | none => rfl
  | some w =>
    simp only
    rcases seqEval (eval types env g (m + 1)) rest (s2.setLocal t w) with ⟨_ | _, _⟩ <;> rfl

/-- A block's `local.set` of an operand: the operand, then the rest of the block from the state
with its value stored. -/
theorem seqEval_localSet {st value : ExprId} {t : Nat}
    (hst : g.expr? st = some (.localSet t value false)) (m : Nat) (rest : List ExprId)
    (s : State) :
    seqEval (eval types env g (m + 1)) (st :: rest) s =
      match eval types env g m value s with
      | (.normal (some v), s) =>
        match seqEval (eval types env g (m + 1)) rest (s.setLocal t v) with
        | (.ok vs, s) => (.ok (none :: vs), s)
        | (.error fl, s) => (.error fl, s)
      | (.normal none, s) => (.error .trap, s)
      | (fl, s) => (.error fl, s) := by
  simp only [seqEval, eval_localSet types env hst]
  rcases eval types env g m value s with ⟨_ | _ | _ | _ | _, s1⟩ <;> try rfl
  rename_i w
  cases w <;> rfl

theorem seqEval_pair_eq_ok {go : ExprId → State → Flow × State} {a b : ExprId} {s s' : State}
    {x y : Option Literal} (h : seqEval go [a, b] s = (.ok [x, y], s')) :
    ∃ s1, go a s = (.normal x, s1) ∧ go b s1 = (.normal y, s') := by
  simp only [seqEval] at h
  rcases h1 : go a s with ⟨_ | _ | _ | _ | _, s1⟩ <;> rw [h1] at h <;> try simp at h
  rcases h2 : go b s1 with ⟨_ | _ | _ | _ | _, s2⟩ <;> rw [h2] at h <;> simp at h
  obtain ⟨⟨rfl, rfl⟩, rfl⟩ := h
  exact ⟨s1, rfl, h2⟩

@[simp] theorem truthy_ofBool (b : Bool) : (Literal.ofBool b).truthy = b := by
  cases b <;> rfl

/-- The exchange's test: `ref.eq` of the field's local and the expected value's, or, for integer
fields, `eq` at their width; both are the equality of the two values. -/
theorem eval_cmpxchgTest {pred lhs rhs : ExprId} {k t : Nat} {type : Ty}
    (hp : g.expr? pred = some (if type.isRef then .refEq lhs rhs else .binary .eq lhs rhs))
    (hl : g.expr? lhs = some (.localGet k)) (hr : g.expr? rhs = some (.localGet t)) (m : Nat)
    {s : State} {old e : Literal} (hold : s.locals[k]? = some old) (he : s.locals[t]? = some e)
    (hty : type.isRef = false → old.type = type ∧ e.type = type) :
    eval types env g (m + 2) pred s = (.normal (some (Literal.ofBool (old = e))), s) := by
  cases hT : type.isRef <;> simp only [hT, if_true, Bool.false_eq_true, if_false] at hp <;>
    rw [eval_of_expr? types env hp] <;>
    simp only [evalStep, seqEval, andThenAll, eval_localGet types env hl,
      eval_localGet types env hr, hold, he]
  · obtain ⟨h1, h2⟩ := hty hT
    cases old <;> cases e <;> simp only [Literal.type] at h1 h2 <;> subst h1 <;>
      simp_all [Ty.isRef, Literal.binary, Bool.beq_eq_decide_eq]
  · simp

/-- The operands of a rewritten expression run alike in a function that extends it. -/
theorem seqEval_extend {f : Function} (hf : f.ChildrenInRange) (hg : f.Extends g)
    (l : List ExprId) (hl : ∀ c ∈ l, c < f.exprs.length) (m : Nat) (s : State) :
    seqEval (eval types env g m) l s = seqEval (eval types env f m) l s := by
  obtain ⟨extra, hgx⟩ := hg
  exact seqEval_congr (fun c hc => funext fun s => eval_extend types env hf hgx m c s (hl c hc)) s

end run

/-! ## The heap operations -/

theorem children_lt_of_expr? {f : Function} (hf : f.ChildrenInRange) {id : ExprId}
    {e : Expr} (h : f.expr? id = some e) : ∀ c ∈ e.children, c < f.exprs.length := by
  obtain ⟨⟨e', ty⟩, hget, rfl⟩ := Option.map_eq_some'.1 h
  exact hf id _ hget

/-- `struct.rmw`: its operands as `seqEval` runs them; then, on an object whose field is not
packed, `op(old, v)` stored in the field and `old` returned, or a trap where the operator
fails. -/
theorem eval_structRMW {f : Function} {curr ref value : ExprId} {op : RMWOp} {index : Nat}
    (hcurr : f.expr? curr = some (.structRMW op index ref value)) (m : Nat) (s : State) :
    (∀ fl s', seqEval (eval types env f m) [ref, value] s = (.error fl, s') →
      eval types env f (m + 1) curr s = (fl, s')) ∧
    (∀ a v s' o old field, seqEval (eval types env f m) [ref, value] s =
        (.ok [some (.ref a), some v], s') →
      s'.heap[a]? = some o → o.fields[index]? = some old →
      (fieldsOf types o.type)[index]? = some field → field.packedType = .notPacked →
      eval types env f (m + 1) curr s = (Literal.rmw op old v).elim (.trap, s') fun nv =>
        (.normal (some old), s'.setObj (some (.ref a)) (o.setField index nv))) := by
  rw [eval_of_expr? types env hcurr]
  refine ⟨fun fl s' h => by simp only [evalStep, h, andThenAll],
    fun a v s' o old field h ho hold hfield hp => ?_⟩
  simp only [evalStep, h, andThenAll, State.getObj, ho, hold, hfield]
  cases Literal.rmw op old v <;> simp [Literal.pack, hp]

/-- `struct.cmpxchg`: its operands as `seqEval` runs them; then the replacement stored in the
field when the field's value `old` equals the expected value, and `old` returned. -/
theorem eval_structCmpxchg {f : Function} {curr ref expected replacement : ExprId}
    {index : Nat} (hcurr : f.expr? curr = some (.structCmpxchg index ref expected replacement))
    (m : Nat) (s : State) :
    (∀ fl s', seqEval (eval types env f m) [ref, expected, replacement] s = (.error fl, s') →
      eval types env f (m + 1) curr s = (fl, s')) ∧
    (∀ a e y s' o old, seqEval (eval types env f m) [ref, expected, replacement] s =
        (.ok [some (.ref a), some e, some y], s') →
      s'.heap[a]? = some o → o.fields[index]? = some old →
      eval types env f (m + 1) curr s = (.normal (some old),
        if old = e then s'.setObj (some (.ref a)) (o.setField index y) else s')) := by
  rw [eval_of_expr? types env hcurr]
  refine ⟨fun fl s' h => by simp only [evalStep, h, andThenAll],
    fun a e y s' o old h ho hold => ?_⟩
  simp only [evalStep, h, andThenAll, State.getObj, ho, hold]
  split_ifs <;> rfl

/-- **The `struct.rmw` block.**  Run from a state with room for its two scratch locals, the
block runs the reference then the value as they run in `f`, and fails where they fail, in the
state they leave.  Otherwise, the field's local holding `old`, it stores the value in a scratch
local, stashes `old` in the other, stores `op(old, v)` in the field's local or traps where the
operator does, and yields `old`. -/
theorem structRMWReplacement_eval {f : Function} (hf : f.ChildrenInRange) (op : RMWOp)
    (index : Nat) (ref value : ExprId) (type : Ty)
    (hchild : ∀ c ∈ [ref, value], c < f.exprs.length)
    (hk : s2l.localIndexes.getD index 0 < f.numLocals) (n : Nat) {sn : State}
    (hroom : f.numLocals + 2 ≤ sn.locals.length) :
    (∀ fl sn', seqEval (eval types env f (n + 2)) [ref, value] sn = (.error fl, sn') →
      eval types env (s2l.structRMWReplacement f op index ref value type).1 (n + 4)
        (s2l.structRMWReplacement f op index ref value type).2 sn = (fl, sn')) ∧
    (∀ r v sn' old, seqEval (eval types env f (n + 2)) [ref, value] sn = (.ok [r, some v], sn') →
      sn'.locals[s2l.localIndexes.getD index 0]? = some old →
      eval types env (s2l.structRMWReplacement f op index ref value type).1 (n + 4)
        (s2l.structRMWReplacement f op index ref value type).2 sn =
        (Literal.rmw op old v).elim
          (.trap, (sn'.setLocal (f.numLocals + 1) v).setLocal f.numLocals old) fun nv =>
          (.normal (some old), ((sn'.setLocal (f.numLocals + 1) v).setLocal f.numLocals
            old).setLocal (s2l.localIndexes.getD index 0) nv)) := by
  obtain ⟨hext, -, hB, setField, newVal, getOld, hblock, hdrop, hset, hget, hsetOld, hsetField,
    hgetOld, hnew⟩ := s2l.structRMWReplacement_layout types env f op index ref value type
  rw [hB, eval_block_none types env hblock, seqEval_drop_set types env hdrop hset,
    seqEval_extend types env hf hext [ref, value] hchild]
  refine ⟨fun fl sn' h => by rw [h], fun r v sn' old h hold => ?_⟩
  have hlen : sn'.locals.length = sn.locals.length := by
    have := seqEval_locals_length (eval_locals_length types env f (n + 2)) [ref, value] sn
    rwa [h] at this
  have hS3k : ((sn'.setLocal (f.numLocals + 1) v).setLocal f.numLocals old).locals[
      s2l.localIndexes.getD index 0]? = some old := by
    rw [State.getElem?_locals_setLocal _ _ _ (by omega),
      State.getElem?_locals_setLocal _ _ _ (by omega), hold]
  have hS3v : ((sn'.setLocal (f.numLocals + 1) v).setLocal f.numLocals old).locals[
      f.numLocals + 1]? = some v := by
    rw [State.getElem?_locals_setLocal _ _ _ (by omega), getElem?_locals_setLocal_self (by omega)]
  rw [h]
  simp (disch := omega) only [seqEval, eval_localSet types env hsetOld,
    eval_localGet types env hget, andThen, State.getElem?_locals_setLocal, hold,
    eval_localSet types env hsetField, hnew n _ old v hS3k hS3v]
  cases Literal.rmw op old v with
  | none => rfl
  | some nv =>
    have hS4 : (((sn'.setLocal (f.numLocals + 1) v).setLocal f.numLocals old).setLocal
        (s2l.localIndexes.getD index 0) nv).locals[f.numLocals]? = some old := by
      rw [State.getElem?_locals_setLocal _ _ _ (by omega),
        getElem?_locals_setLocal_self (by simp only [State.length_locals_setLocal]; omega)]
    simp only [Option.elim_some, andThen, seqEval, eval_localGet types env hgetOld, hS4]
    rfl

/-- The end of the `struct.cmpxchg` block, from a state where the field's local holds `old` and
the scratch locals the expected value `e` and the replacement `y`: `old` stashed, the exchange
made when `old = e`, and `old` read back. -/
theorem seqEval_cmpxchgTail {f : Function} {index : Nat} {ref expected replacement : ExprId}
    {type : Ty} (hk : s2l.localIndexes.getD index 0 < f.numLocals) (n : Nat) (S : State)
    (hroom : f.numLocals + 3 ≤ S.locals.length) {old e y : Literal}
    (hold : S.locals[s2l.localIndexes.getD index 0]? = some old)
    (he : S.locals[f.numLocals + 1]? = some e) (hy : S.locals[f.numLocals + 2]? = some y)
    (hty : type.isRef = false → old.type = type ∧ e.type = type) :
    seqEval (eval types env (s2l.structCmpxchgReplacement f index ref expected replacement
        type).1 (n + 3)) [f.exprs.length + 4, f.exprs.length + 11, f.exprs.length + 12] S =
      (.ok [none, none, some old], if old = e then
        (S.setLocal f.numLocals old).setLocal (s2l.localIndexes.getD index 0) y
        else S.setLocal f.numLocals old) := by
  obtain ⟨-, -, -, hlist⟩ :=
    s2l.structCmpxchgReplacement_layout f index ref expected replacement type
  have hid := expr?_of_exprs_map hlist
  have h11 : _ = some (Expr.iff (f.exprs.length + 8) (f.exprs.length + 10) none) := hid 11
  have h10 : _ = some (Expr.localSet (s2l.localIndexes.getD index 0) (f.exprs.length + 9) false) :=
    hid 10
  have h12 : _ = some (Expr.localGet f.numLocals) := hid 12
  have hS : ∀ i, i ≠ f.numLocals → (S.setLocal f.numLocals old).locals[i]? = S.locals[i]? :=
    fun i hi => State.getElem?_locals_setLocal _ _ _ hi
  have hN : (S.setLocal f.numLocals old).locals[f.numLocals]? = some old :=
    getElem?_locals_setLocal_self (by omega) old
  have htest := eval_cmpxchgTest types env (hid 8) (hid 6) (hid 7) n
    ((hS _ (by omega)).trans hold) ((hS _ (by omega)).trans he) hty
  simp only [seqEval, eval_localSet types env (hid 4), eval_localGet types env (hid 3), hold,
    andThen]
  rw [eval_of_expr? types env h11]
  simp only [evalStep, htest, andThen, truthy_ofBool, decide_eq_true_eq]
  by_cases hoe : old = e
  · subst hoe
    have hN' : ((S.setLocal f.numLocals old).setLocal (s2l.localIndexes.getD index 0)
        y).locals[f.numLocals]? = some old := by
      rw [State.getElem?_locals_setLocal _ _ _ (by omega), hN]
    simp only [eq_self_iff_true, if_true, eval_localSet types env h10,
      eval_localGet types env (hid 9), andThen, hS _ (show f.numLocals + 2 ≠ f.numLocals by omega),
      hy, eval_localGet types env h12, hN']
  · simp only [hoe, if_false, eval_localGet types env h12, hN]

/-- **The `struct.cmpxchg` block.**  Run from a state with room for its three scratch locals, in
a function whose locals from `f.numLocals` on are free, the block runs the reference, the
expected value and the replacement as they run in `f`, and fails where they fail, in the state
they leave but for the scratch locals.  Otherwise, the field's local holding `old`, it stores the
expected value `e`, the replacement `y` and `old` in the scratch locals, stores `y` in the field's
local when `old = e`, and yields `old`. -/
theorem structCmpxchgReplacement_eval {f : Function} (hf : f.ChildrenInRange)
    (hfree : ∀ j, f.numLocals ≤ j → f.LocalFree j) (index : Nat)
    (ref expected replacement : ExprId) (type : Ty)
    (hchild : ∀ c ∈ [ref, expected, replacement], c < f.exprs.length)
    (hk : s2l.localIndexes.getD index 0 < f.numLocals) (n : Nat) {sn : State}
    (hroom : f.numLocals + 3 ≤ sn.locals.length)
    (hexp : YieldsValues (eval types env f (n + 2)) [ref, expected, replacement] sn) :
    (∀ fl sn', seqEval (eval types env f (n + 2)) [ref, expected, replacement] sn =
        (.error fl, sn') →
      (eval types env (s2l.structCmpxchgReplacement f index ref expected replacement type).1
        (n + 4) (s2l.structCmpxchgReplacement f index ref expected replacement type).2 sn).1 =
        fl ∧
      (eval types env (s2l.structCmpxchgReplacement f index ref expected replacement type).1
        (n + 4) (s2l.structCmpxchgReplacement f index ref expected replacement type).2
        sn).2.takeLocals f.numLocals = sn'.takeLocals f.numLocals) ∧
    (∀ r e y sn' old, seqEval (eval types env f (n + 2)) [ref, expected, replacement] sn =
        (.ok [r, some e, some y], sn') →
      sn'.locals[s2l.localIndexes.getD index 0]? = some old →
      (type.isRef = false → old.type = type ∧ e.type = type) →
      eval types env (s2l.structCmpxchgReplacement f index ref expected replacement type).1
        (n + 4) (s2l.structCmpxchgReplacement f index ref expected replacement type).2 sn =
        (.normal (some old), if old = e then
          (((sn'.setLocal (f.numLocals + 1) e).setLocal (f.numLocals + 2) y).setLocal
            f.numLocals old).setLocal (s2l.localIndexes.getD index 0) y
          else ((sn'.setLocal (f.numLocals + 1) e).setLocal (f.numLocals + 2) y).setLocal
            f.numLocals old)) := by
  obtain ⟨hext, -, hB, hlist⟩ :=
    s2l.structCmpxchgReplacement_layout f index ref expected replacement type
  have hid := expr?_of_exprs_map hlist
  have h0 := hid 0
  simp only [Nat.add_zero, List.getElem?_cons_zero] at h0
  have h5 : _ = some (Expr.block none [f.exprs.length, f.exprs.length + 1, f.exprs.length + 2,
      f.exprs.length + 4, f.exprs.length + 11, f.exprs.length + 12]) := hid 5
  rw [hB, eval_block_none types env h5, seqEval_drop_set types env h0 (hid 1),
    seqEval_extend types env hf hext [ref, expected]
      fun c hc => hchild c ((List.prefix_append [ref, expected] [replacement]).subset hc)]
  have hsplit : seqEval (eval types env f (n + 2)) [ref, expected, replacement] sn = _ :=
    seqEval_append (eval types env f (n + 2)) [ref, expected] [replacement] sn
  rcases h2 : seqEval (eval types env f (n + 2)) [ref, expected] sn with ⟨fl1 | vs, s1⟩
  · rw [h2] at hsplit
    refine ⟨fun fl sn' h => ?_, fun r e y sn' old h => ?_⟩ <;>
      rw [hsplit] at h <;> cases h
    exact ⟨rfl, rfl⟩
  obtain ⟨r, w, rfl⟩ : ∃ r w, vs = [r, w] := by
    match vs, seqEval_ok_length h2 with
    | [r, w], _ => exact ⟨r, w, rfl⟩
  obtain ⟨s0, hr0, hw⟩ := seqEval_pair_eq_ok h2
  rcases w with _ | e
  · exact absurd hw (hexp.tail hr0).head
  have hrep : eval types env (s2l.structCmpxchgReplacement f index ref expected replacement
      type).1 (n + 2) replacement (s1.setLocal (f.numLocals + 1) e) =
      ((eval types env f (n + 2) replacement s1).1,
        (eval types env f (n + 2) replacement s1).2.setLocal (f.numLocals + 1) e) := by
    obtain ⟨extra, hgx⟩ := hext
    rw [eval_extend types env hf hgx _ _ _ (hchild replacement (by simp)),
      eval_setLocal types env (hfree _ (Nat.le_succ _))]
  have hlen := seqEval_locals_length (eval_locals_length types env f (n + 2))
    [ref, expected, replacement] sn
  generalize seqEval (eval types env f (n + 2)) [ref, expected, replacement] sn = run
    at hsplit hlen ⊢
  rw [h2] at hsplit
  simp only
  rw [seqEval_localSet types env (hid 2), hrep]
  rcases h3 : eval types env f (n + 2) replacement s1 with ⟨_ | _ | _ | _ | _, s2⟩ <;>
    simp only [h3, seqEval] at hsplit <;> subst hsplit
  · rename_i w
    rcases w with _ | y
    · refine ⟨fun fl sn' h => ?_, fun r' e' y sn' old h => ?_⟩ <;> simp at h
    refine ⟨fun fl sn' h => (by cases h), fun r' e' y' sn' old h hold hty => ?_⟩
    simp only [List.cons_append, List.nil_append, Prod.mk.injEq, Except.ok.injEq,
      List.cons.injEq, Option.some.injEq, and_true] at h
    obtain ⟨⟨rfl, rfl, rfl⟩, rfl⟩ := h
    have hlen' : s2.locals.length = sn.locals.length := hlen
    simp only
    rw [s2l.seqEval_cmpxchgTail types env hk n ((s2.setLocal (f.numLocals + 1) e).setLocal
        (f.numLocals + 2) y) (by simp only [State.length_locals_setLocal]; omega)
      (by rw [State.getElem?_locals_setLocal _ _ _ (by omega),
        State.getElem?_locals_setLocal _ _ _ (by omega), hold])
      (by rw [State.getElem?_locals_setLocal _ _ _ (by omega),
        getElem?_locals_setLocal_self (by omega)])
      (getElem?_locals_setLocal_self (by simp only [State.length_locals_setLocal]; omega) y) hty]
    rfl
  all_goals
    refine ⟨fun fl sn' h => ?_, fun r' e' y sn' old h => ?_⟩ <;> cases h
    exact ⟨rfl, State.takeLocals_setLocal_of_le _ (by omega) _⟩

/-! ## The blocks against the heap operations -/

/-- **The blocks do what the heap operations do.**  Take a `struct.rmw` (any operator) or a
`struct.cmpxchg` on field `index` in the original function `f₀`, and the same expression in `f`,
the function `visitStructRMW` or `visitStructCmpxchg` rewrites (its operands already rewritten),
whose field local `k` is a local of `f` and whose locals from `f.numLocals` on are free.  Run
the heap operation from any state, and the block from any state of the rewritten function.

When the operands fail alike, both fail the same way, the block in the state its operands leave
(for `struct.cmpxchg`, but for its scratch locals).  When the operands complete alike, the
original reference being the allocation at `a` and `old` being both its field after the
original operands and the field's local after the others, both return `old`; the heap operation
stores `op(old, v)` (for `struct.cmpxchg`, the replacement when `old` equals the expected value)
in the field and the block the same value in the field's local, or both trap where the operator
does.  The field's values before the operands, which the operands may read or write, enter only
through `old`.  The field is not packed, as `visitStructRMW` asserts; an integer field's value
and the expected value have the field's type. -/
theorem structAtomicReplacements_match_heap (s2l : Struct2Local) {f₀ f : Function}
    (hf : f.ChildrenInRange) (hfree : ∀ j, f.numLocals ≤ j → f.LocalFree j) {index : Nat}
    (hk : s2l.localIndexes.getD index 0 < f.numLocals) (m n : Nat) (so sn : State) :
    (∀ curr₀ curr op ref₀ value₀ ref value type,
      f₀.expr? curr₀ = some (.structRMW op index ref₀ value₀) →
      f.expr? curr = some (.structRMW op index ref value) →
      (s2l.structRMWReplacement f op index ref value type).1.numLocals ≤ sn.locals.length →
      (∀ r parent, r.func = f → r.reached.get curr ≠ .none →
        s2l.visitStructRMW r curr parent op index ref value type =
          (r.withFunc (s2l.structRMWReplacement f op index ref value type).1).replaceCurrent curr
            parent (s2l.structRMWReplacement f op index ref value type).2) ∧
      (∀ fl so' sn', seqEval (eval types env f₀ m) [ref₀, value₀] so = (.error fl, so') →
        seqEval (eval types env f (n + 2)) [ref, value] sn = (.error fl, sn') →
        eval types env f₀ (m + 1) curr₀ so = (fl, so') ∧
        eval types env (s2l.structRMWReplacement f op index ref value type).1 (n + 4)
          (s2l.structRMWReplacement f op index ref value type).2 sn = (fl, sn')) ∧
      (∀ a r v so' sn' o old field,
        seqEval (eval types env f₀ m) [ref₀, value₀] so = (.ok [some (.ref a), some v], so') →
        seqEval (eval types env f (n + 2)) [ref, value] sn = (.ok [r, some v], sn') →
        so'.heap[a]? = some o → o.fields[index]? = some old →
        (fieldsOf types o.type)[index]? = some field → field.packedType = .notPacked →
        sn'.locals[s2l.localIndexes.getD index 0]? = some old →
        eval types env f₀ (m + 1) curr₀ so = (Literal.rmw op old v).elim (.trap, so') (fun nv =>
          (.normal (some old), so'.setObj (some (.ref a)) (o.setField index nv))) ∧
        eval types env (s2l.structRMWReplacement f op index ref value type).1 (n + 4)
          (s2l.structRMWReplacement f op index ref value type).2 sn =
          (Literal.rmw op old v).elim
            (.trap, (sn'.setLocal (f.numLocals + 1) v).setLocal f.numLocals old) fun nv =>
            (.normal (some old), ((sn'.setLocal (f.numLocals + 1) v).setLocal f.numLocals
              old).setLocal (s2l.localIndexes.getD index 0) nv))) ∧
    (∀ curr₀ curr ref₀ expected₀ replacement₀ ref expected replacement type,
      f₀.expr? curr₀ = some (.structCmpxchg index ref₀ expected₀ replacement₀) →
      f.expr? curr = some (.structCmpxchg index ref expected replacement) →
      (s2l.structCmpxchgReplacement f index ref expected replacement type).1.numLocals ≤
        sn.locals.length →
      YieldsValues (eval types env f (n + 2)) [ref, expected, replacement] sn →
      (∀ r parent, r.func = f → r.reached.get ref = .flows →
        s2l.visitStructCmpxchg r curr parent index ref expected replacement type =
          (r.withFunc (s2l.structCmpxchgReplacement f index ref expected replacement type).1
            ).replaceCurrent curr parent
            (s2l.structCmpxchgReplacement f index ref expected replacement type).2) ∧
      (∀ fl so' sn', seqEval (eval types env f₀ m) [ref₀, expected₀, replacement₀] so =
          (.error fl, so') →
        seqEval (eval types env f (n + 2)) [ref, expected, replacement] sn = (.error fl, sn') →
        eval types env f₀ (m + 1) curr₀ so = (fl, so') ∧
        (eval types env (s2l.structCmpxchgReplacement f index ref expected replacement type).1
          (n + 4) (s2l.structCmpxchgReplacement f index ref expected replacement type).2
          sn).1 = fl ∧
        (eval types env (s2l.structCmpxchgReplacement f index ref expected replacement type).1
          (n + 4) (s2l.structCmpxchgReplacement f index ref expected replacement type).2
          sn).2.takeLocals f.numLocals = sn'.takeLocals f.numLocals) ∧
      (∀ a r e y so' sn' o old,
        seqEval (eval types env f₀ m) [ref₀, expected₀, replacement₀] so =
          (.ok [some (.ref a), some e, some y], so') →
        seqEval (eval types env f (n + 2)) [ref, expected, replacement] sn =
          (.ok [r, some e, some y], sn') →
        so'.heap[a]? = some o → o.fields[index]? = some old →
        sn'.locals[s2l.localIndexes.getD index 0]? = some old →
        (type.isRef = false → old.type = type ∧ e.type = type) →
        eval types env f₀ (m + 1) curr₀ so = (.normal (some old),
          if old = e then so'.setObj (some (.ref a)) (o.setField index y) else so') ∧
        eval types env (s2l.structCmpxchgReplacement f index ref expected replacement type).1
          (n + 4) (s2l.structCmpxchgReplacement f index ref expected replacement type).2 sn =
          (.normal (some old), if old = e then
            (((sn'.setLocal (f.numLocals + 1) e).setLocal (f.numLocals + 2) y).setLocal
              f.numLocals old).setLocal (s2l.localIndexes.getD index 0) y
            else ((sn'.setLocal (f.numLocals + 1) e).setLocal (f.numLocals + 2) y).setLocal
              f.numLocals old))) := by
  refine ⟨fun curr₀ curr op ref₀ value₀ ref value type h₀ h hroom => ?_,
    fun curr₀ curr ref₀ expected₀ replacement₀ ref expected replacement type h₀ h hroom hexp =>
      ?_⟩
  · rw [(s2l.structRMWReplacement_layout types env f op index ref value type).2.1] at hroom
    have hblock := s2l.structRMWReplacement_eval types env hf op index ref value type
      (children_lt_of_expr? hf h) hk n hroom
    refine ⟨fun r parent hr hreach => ?_, fun fl so' sn' h₁ h₂ =>
        ⟨(eval_structRMW types env h₀ m so).1 fl so' h₁,
        hblock.1 fl sn' h₂⟩,
      fun a r v so' sn' o old field h₁ h₂ ho hold hfield hp hold' =>
        ⟨(eval_structRMW types env h₀ m so).2 a v so' o old field h₁ ho hold hfield hp,
          hblock.2 r v sn' old h₂ hold'⟩⟩
    rw [← hr]
    exact s2l.visitStructRMW_eq r curr parent op index ref value type hreach
  · rw [(s2l.structCmpxchgReplacement_layout f index ref expected replacement type).2.1]
      at hroom
    have hblock := s2l.structCmpxchgReplacement_eval types env hf hfree index ref expected
      replacement type (children_lt_of_expr? hf h) hk n hroom hexp
    refine ⟨fun r parent hr hflows => ?_, fun fl so' sn' h₁ h₂ =>
        ⟨(eval_structCmpxchg types env h₀ m so).1 fl so' h₁,
        hblock.1 fl sn' h₂⟩,
      fun a r e y so' sn' o old h₁ h₂ ho hold hold' hty =>
        ⟨(eval_structCmpxchg types env h₀ m so).2 a e y so' o old h₁ ho hold,
          hblock.2 r e y sn' old h₂ hold' hty⟩⟩
    rw [← hr]
    exact s2l.visitStructCmpxchg_eq r curr parent index ref expected replacement type hflows

/-- `Struct2Local` of `allocation`, with the interactions the analysis records over the local
graph `localGraph`, walked over the expressions before `curr`: the rewrite its visitor of `curr`
receives. -/
def walkBefore (types : TypeSection) (localGraph : LocalGraph) (f : Function)
    (allocation curr : ExprId) : Rewrite :=
  ((postOrder (make types f allocation).2).takeWhile (·.1 ≠ curr)).foldl
    (fun st q => (make types f allocation).1.visit st q.1 q.2)
    ⟨(make types f allocation).2,
      (escapes (.ofFunction types localGraph f) allocation).2.reachedInteractions, false⟩

/-- The local graph of a function without `local.set`. -/
def noLocalSets : LocalGraph := ⟨fun _ => [], fun _ => []⟩

/-- `(struct.atomic.rmw.sub $Counter 0 (struct.new $Counter (i32.const 7)) (i32.const 5))`. -/
def counterSub : Function :=
  ⟨[], [], [⟨.const (.i32 7), .i32⟩, ⟨.structNew [0] none, .ref (.defined 0) false⟩,
    ⟨.const (.i32 5), .i32⟩, ⟨.structRMW .sub 0 1 2, .i32⟩], 3⟩

/-- `(struct.atomic.rmw.cmpxchg $Counter 0 (struct.new $Counter (i32.const 7)) (i32.const 7)
(i32.const 9))`. -/
def counterExchange : Function :=
  ⟨[], [], [⟨.const (.i32 7), .i32⟩, ⟨.structNew [0] none, .ref (.defined 0) false⟩,
    ⟨.const (.i32 7), .i32⟩, ⟨.const (.i32 9), .i32⟩, ⟨.structCmpxchg 0 1 2 3, .i32⟩], 4⟩


/-- `counterSub` as the walk leaves it: the allocation is the block at 8, which stores 7 in the
field's local 0 through the temp local 1 and ends in the null. -/
def counterSubWalked : Function :=
  ⟨[], [.i32, .i32], [⟨.const (.i32 7), .i32⟩, ⟨.structNew [0] none, .ref (.defined 0) false⟩,
    ⟨.const (.i32 5), .i32⟩, ⟨.structRMW .sub 0 8 2, .i32⟩, ⟨.localSet 1 0 false, .none⟩,
    ⟨.localGet 1, .i32⟩, ⟨.localSet 0 5 false, .none⟩, ⟨.refNull, .ref (.defined 0) true⟩,
    ⟨.block none [4, 6, 7], .ref (.defined 0) true⟩], 3⟩

/-- `counterExchange` as the walk leaves it, the allocation being the block at 9. -/
def counterExchangeWalked : Function :=
  ⟨[], [.i32, .i32], [⟨.const (.i32 7), .i32⟩, ⟨.structNew [0] none, .ref (.defined 0) false⟩,
    ⟨.const (.i32 7), .i32⟩, ⟨.const (.i32 9), .i32⟩, ⟨.structCmpxchg 0 9 2 3, .i32⟩,
    ⟨.localSet 1 0 false, .none⟩, ⟨.localGet 1, .i32⟩, ⟨.localSet 0 6 false, .none⟩,
    ⟨.refNull, .ref (.defined 0) true⟩, ⟨.block none [5, 7, 8], .ref (.defined 0) true⟩], 4⟩

theorem walkBefore_counterSub :
    (walkBefore counterTypes noLocalSets counterSub 1 3).func = counterSubWalked := by
  decide

theorem walkBefore_counterExchange :
    (walkBefore counterTypes noLocalSets counterExchange 1 4).func = counterExchangeWalked := by
  decide

/-- The block `visitStructRMW` builds for the subtraction. -/
def counterSubReplacement : Function × ExprId :=
  (make counterTypes counterSub 1).1.structRMWReplacement counterSubWalked .sub 0 8 2 .i32

/-- The block `visitStructCmpxchg` builds for the exchange. -/
def counterExchangeReplacement : Function × ExprId :=
  (make counterTypes counterExchange 1).1.structCmpxchgReplacement counterExchangeWalked 0 9 2 3
    .i32

/-- On the counter, `7 - 5` and the exchange of 7 for 9, in the functions the walk of
`Struct2Local` leaves: its visitors build the blocks, and each block returns 7 and leaves in
local 0 what the heap operation leaves in the field. -/
theorem structAtomicReplacements_match_heap_counter :
    (walkBefore counterTypes noLocalSets counterSub 1 3).func = counterSubWalked ∧
    eval counterTypes (fun _ _ => none) counterSub 3 3 ⟨[], [], [], []⟩ =
      (.normal (some (.i32 7)), ⟨[], [], [⟨0, [.i32 2], none⟩], []⟩) ∧
    (make counterTypes counterSub 1).1.visitStructRMW
        (walkBefore counterTypes noLocalSets counterSub 1 3) 3 none .sub 0 8 2 .i32 =
      ((walkBefore counterTypes noLocalSets counterSub 1 3).withFunc
        counterSubReplacement.1).replaceCurrent 3 none counterSubReplacement.2 ∧
    eval counterTypes (fun _ _ => none) counterSubReplacement.1 5 counterSubReplacement.2
        ⟨[.i32 0, .i32 0, .i32 0, .i32 0], [], [], []⟩ =
      (.normal (some (.i32 7)), ⟨[.i32 2, .i32 7, .i32 7, .i32 5], [], [], []⟩) ∧
    (walkBefore counterTypes noLocalSets counterExchange 1 4).func = counterExchangeWalked ∧
    eval counterTypes (fun _ _ => none) counterExchange 3 4 ⟨[], [], [], []⟩ =
      (.normal (some (.i32 7)), ⟨[], [], [⟨0, [.i32 9], none⟩], []⟩) ∧
    (make counterTypes counterExchange 1).1.visitStructCmpxchg
        (walkBefore counterTypes noLocalSets counterExchange 1 4) 4 none 0 9 2 3 .i32 =
      ((walkBefore counterTypes noLocalSets counterExchange 1 4).withFunc
        counterExchangeReplacement.1).replaceCurrent 4 none counterExchangeReplacement.2 ∧
    eval counterTypes (fun _ _ => none) counterExchangeReplacement.1 5
        counterExchangeReplacement.2 ⟨[.i32 0, .i32 0, .i32 0, .i32 0, .i32 0], [], [], []⟩ =
      (.normal (some (.i32 7)), ⟨[.i32 9, .i32 7, .i32 7, .i32 7, .i32 9], [], [], []⟩) := by
  have Hs := (@structAtomicReplacements_match_heap counterTypes (fun _ _ => none)
    (make counterTypes counterSub 1).1 counterSub counterSubWalked
    (Function.childrenInRange_iff.2 (by decide)) (Function.localFree_of_lt (by decide))
    0 (by decide) 2 1 ⟨[], [], [], []⟩ ⟨[.i32 0, .i32 0, .i32 0, .i32 0], [], [], []⟩).1
    3 3 .sub 1 2 8 2 .i32 (by decide) (by decide) (by decide)
  have hrmw := Hs.2.2 0 (some .null) (.i32 5) ⟨[], [], [⟨0, [.i32 7], none⟩], []⟩
    ⟨[.i32 7, .i32 7, .i32 0, .i32 0], [], [], []⟩ ⟨0, [.i32 7], none⟩ (.i32 7)
    ⟨.i32, .notPacked, true⟩ rfl rfl rfl rfl rfl rfl rfl
  have Hx := (@structAtomicReplacements_match_heap counterTypes (fun _ _ => none)
    (make counterTypes counterExchange 1).1 counterExchange counterExchangeWalked
    (Function.childrenInRange_iff.2 (by decide)) (Function.localFree_of_lt (by decide))
    0 (by decide) 2 1 ⟨[], [], [], []⟩ ⟨[.i32 0, .i32 0, .i32 0, .i32 0, .i32 0], [], [], []⟩).2
    4 4 1 2 3 9 2 3 .i32 (by decide) (by decide) (by decide)
    (@YieldsValues.of_seqEval _ _ _ [some .null, some (.i32 7), some (.i32 9)] rfl (by decide))
  have hcx := Hx.2.2 0 (some .null) (.i32 7) (.i32 9) ⟨[], [], [⟨0, [.i32 7], none⟩], []⟩
    ⟨[.i32 7, .i32 7, .i32 0, .i32 0, .i32 0], [], [], []⟩ ⟨0, [.i32 7], none⟩ (.i32 7)
    rfl rfl rfl rfl rfl fun _ => ⟨rfl, rfl⟩
  exact ⟨walkBefore_counterSub, hrmw.1.trans rfl, Hs.1 _ none walkBefore_counterSub (by decide),
    hrmw.2.trans rfl, walkBefore_counterExchange, hcx.1.trans rfl,
    Hx.1 _ none walkBefore_counterExchange (by decide), hcx.2.trans rfl⟩

end Struct2Local

end BinaryenPasses.Heap2Local
