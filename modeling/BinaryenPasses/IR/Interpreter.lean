import BinaryenPasses.IR.Traversal

/-!
# A reference interpreter for the GC subset

The semantics against which the rewrites of `Heap2Local` are compared: a big-step evaluator of
an expression of a function's arena, over a state of locals, globals, a heap of struct and array
objects, and the list of calls performed.  Evaluation is bounded by fuel (every nested
evaluation and every loop iteration costs one), so it is structural and evaluates on concrete
programs.

Control leaves an expression normally with at most one value, by a branch to a label, by a
return, or by a trap (`Flow`).  Children are evaluated left to right (`seqEval`), and the first
that does not complete normally decides the outcome.  Heap accesses trap on null and, for
arrays, out of bounds; packed fields are truncated when written and extended, signed or not,
when read; `ref.eq` compares addresses; casts and tests compare the object's declared type with
the target under `HeapType.isSubType`; `ref.cast_desc` compares the object's descriptor by
identity.  A call records its target and arguments and takes its result from `CallEnv`.
-/

namespace BinaryenPasses.IR

/-- A heap object: its declared type, its fields (for an array, its elements) and its
descriptor. -/
structure HeapObject where
  type : Nat
  fields : List Literal
  desc : Option Literal
  deriving DecidableEq, Repr

/-- The object with field (or element) `i` replaced. -/
def HeapObject.setField (o : HeapObject) (i : Nat) (v : Literal) : HeapObject :=
  { o with fields := o.fields.set i v }

/-- The state a function body runs on. -/
structure State where
  locals : List Literal
  globals : List Literal
  heap : List HeapObject
  calls : List (Name × List Literal)
  deriving DecidableEq, Repr

/-- How control leaves an expression. -/
inductive Flow
  | normal (value : Option Literal)
  | brk (name : Name) (value : Option Literal)
  | ret (value : Option Literal)
  | trap
  | outOfFuel
  deriving DecidableEq, Repr

/-- The results of the functions a body calls. -/
abbrev CallEnv := Name → List Literal → Option Literal

namespace Literal

def truthy : Literal → Bool
  | .i32 v => v != 0
  | .i64 v => v != 0
  | _ => false

def ofBool (b : Bool) : Literal := .i32 (if b then 1 else 0)

/-- The value of a binary operator on two integers of the same width. -/
def binary : AbstractOp → Literal → Literal → Option Literal
  | .add, .i32 a, .i32 b => some (.i32 (a + b))
  | .sub, .i32 a, .i32 b => some (.i32 (a - b))
  | .and, .i32 a, .i32 b => some (.i32 (a &&& b))
  | .or, .i32 a, .i32 b => some (.i32 (a ||| b))
  | .xor, .i32 a, .i32 b => some (.i32 (a ^^^ b))
  | .eq, .i32 a, .i32 b => some (ofBool (a == b))
  | .add, .i64 a, .i64 b => some (.i64 (a + b))
  | .sub, .i64 a, .i64 b => some (.i64 (a - b))
  | .and, .i64 a, .i64 b => some (.i64 (a &&& b))
  | .or, .i64 a, .i64 b => some (.i64 (a ||| b))
  | .xor, .i64 a, .i64 b => some (.i64 (a ^^^ b))
  | .eq, .i64 a, .i64 b => some (ofBool (a == b))
  | _, _, _ => none

def unary : UnaryOp → Literal → Option Literal
  | .extendS8Int32, .i32 a => some (.i32 ((a.truncate 8).signExtend 32))
  | .extendS16Int32, .i32 a => some (.i32 ((a.truncate 16).signExtend 32))
  | _, _ => none

/-- The new value a read-modify-write stores. -/
def rmw : RMWOp → Literal → Literal → Option Literal
  | .add, a, b => binary .add a b
  | .sub, a, b => binary .sub a b
  | .and, a, b => binary .and a b
  | .or, a, b => binary .or a b
  | .xor, a, b => binary .xor a b
  | .xchg, _, b => some b

/-- The value a packed field stores. -/
def pack (field : Field) (v : Literal) : Literal :=
  match field.packedType, v with
  | .i8, .i32 a => .i32 (a &&& 0xff)
  | .i16, .i32 a => .i32 (a &&& 0xffff)
  | _, v => v

/-- The value a read of a packed field gives. -/
def unpack (field : Field) (signed : Bool) (v : Literal) : Literal :=
  match field.packedType, signed, v with
  | .i8, true, .i32 a => .i32 ((a.truncate 8).signExtend 32)
  | .i16, true, .i32 a => .i32 ((a.truncate 16).signExtend 32)
  | _, _, v => v

end Literal

/-- Evaluate children left to right; stop at the first that does not complete normally. -/
def seqEval (ev : ExprId → State → Flow × State) :
    List ExprId → State → Except Flow (List (Option Literal)) × State
  | [], s => (.ok [], s)
  | c :: cs, s =>
    match ev c s with
    | (.normal v, s) =>
      match seqEval ev cs s with
      | (.ok vs, s) => (.ok (v :: vs), s)
      | (.error fl, s) => (.error fl, s)
    | (fl, s) => (.error fl, s)

namespace State

def getObj (s : State) (v : Option Literal) : Option HeapObject :=
  match v with
  | some (.ref a) => s.heap[a]?
  | _ => none

def setObj (s : State) (v : Option Literal) (o : HeapObject) : State :=
  match v with
  | some (.ref a) => { s with heap := s.heap.set a o }
  | _ => s

def alloc (s : State) (o : HeapObject) : State × Literal :=
  ({ s with heap := s.heap ++ [o] }, .ref s.heap.length)

def setLocal (s : State) (i : Nat) (v : Literal) : State := { s with locals := s.locals.set i v }

def setGlobal (s : State) (i : Nat) (v : Literal) : State := { s with globals := s.globals.set i v }

/-- Record a call with its arguments. -/
def addCall (s : State) (target : Name) (args : List Literal) : State :=
  { s with calls := s.calls ++ [(target, args)] }

/-! Only `setLocal` writes the locals, and it keeps their number. -/

@[simp] theorem setObj_locals (s : State) (x : Option Literal) (o : HeapObject) :
    (s.setObj x o).locals = s.locals := by
  unfold setObj; split <;> rfl

@[simp] theorem alloc_locals (s : State) (o : HeapObject) : (s.alloc o).1.locals = s.locals := rfl

@[simp] theorem setGlobal_locals (s : State) (i : Nat) (v : Literal) :
    (s.setGlobal i v).locals = s.locals := rfl

@[simp] theorem addCall_locals (s : State) (t : Name) (a : List Literal) :
    (s.addCall t a).locals = s.locals := rfl

@[simp] theorem length_locals_setLocal (s : State) (k : Nat) (v : Literal) :
    (s.setLocal k v).locals.length = s.locals.length := List.length_set ..

/-! Setting a local touches nothing else and commutes with the other state updates. -/

section setLocal

variable (s : State) (k : Nat) (v : Literal)

@[simp] theorem setLocal_globals : (s.setLocal k v).globals = s.globals := rfl

@[simp] theorem setLocal_heap : (s.setLocal k v).heap = s.heap := rfl

@[simp] theorem setLocal_calls : (s.setLocal k v).calls = s.calls := rfl

@[simp] theorem getObj_setLocal (x : Option Literal) : (s.setLocal k v).getObj x = s.getObj x :=
  rfl

@[simp] theorem setObj_setLocal (x : Option Literal) (o : HeapObject) :
    (s.setLocal k v).setObj x o = (s.setObj x o).setLocal k v := by
  unfold setObj; split <;> rfl

@[simp] theorem alloc_setLocal (o : HeapObject) :
    (s.setLocal k v).alloc o = ((s.alloc o).1.setLocal k v, (s.alloc o).2) := rfl

@[simp] theorem setGlobal_setLocal (i : Nat) (x : Literal) :
    (s.setLocal k v).setGlobal i x = (s.setGlobal i x).setLocal k v := rfl

@[simp] theorem addCall_setLocal (t : Name) (a : List Literal) :
    (s.setLocal k v).addCall t a = (s.addCall t a).setLocal k v := rfl

theorem setLocal_comm {i : Nat} (h : i ≠ k) (x : Literal) :
    (s.setLocal k v).setLocal i x = (s.setLocal i x).setLocal k v := by
  simp only [setLocal, State.mk.injEq, and_true, true_and]
  exact List.set_comm _ _ _ (Ne.symm h)

theorem getElem?_locals_setLocal {i : Nat} (h : i ≠ k) :
    (s.setLocal k v).locals[i]? = s.locals[i]? :=
  List.getElem?_set_ne (Ne.symm h)

end setLocal

end State

/-- Whether a runtime value passes a cast or test to `t`. -/
def castOk (types : TypeSection) (s : State) (v : Option Literal) (t : Ty) : Bool :=
  match v with
  | some .null => t.isNullable
  | some (.ref a) =>
    match s.heap[a]? with
    | some o => HeapType.isSubType types (.defined o.type) t.getHeapType
    | none => false
  | _ => false

@[simp] theorem castOk_setLocal (types : TypeSection) (s : State) (k : Nat) (v : Literal)
    (x : Option Literal) (t : Ty) : castOk types (s.setLocal k v) x t = castOk types s x t := rfl

/-- Go on with the value of an expression that completed normally; any other outcome is the
outcome of the whole. -/
def andThen (r : Flow × State) (k : Option Literal → State → Flow × State) : Flow × State :=
  match r with
  | (.normal x, s) => k x s
  | r => r

/-- Go on with the values of children that all completed normally; otherwise the outcome of the
first that did not. -/
def andThenAll (r : Except Flow (List (Option Literal)) × State)
    (k : List (Option Literal) → State → Flow × State) : Flow × State :=
  match r with
  | (.ok vs, s) => k vs s
  | (.error fl, s) => (fl, s)

/-- One evaluation step of the expression `e` of type `ty` at `id`, given the evaluator `go` of
its children (and of the loop itself, for its next iteration). -/
def evalStep (types : TypeSection) (env : CallEnv) (go : ExprId → State → Flow × State)
    (id : ExprId) (e : Expr) (ty : Ty) (s : State) : Flow × State :=
  match e with
  | .block name list =>
    match seqEval go list s with
    | (.ok vs, s) => (.normal (vs.getLast?.getD none), s)
    | (.error (.brk n v), s) => if name = some n then (.normal v, s) else (.brk n v, s)
    | (.error fl, s) => (fl, s)
  | .loop name body =>
    match go body s with
    | (.brk n v, s) => if name = some n then go id s else (.brk n v, s)
    | r => r
  | .iff c t e =>
    andThen (go c s) fun x s =>
      match x with
      | some v =>
        if v.truthy then go t s else
        match e with
        | some e => go e s
        | none => (.normal none, s)
      | none => (.trap, s)
  | .br n v c =>
    andThenAll (seqEval go (v.toList ++ c.toList) s) fun vs s =>
      let value := if v.isSome then vs.head?.getD none else none
      if c.isSome then
        if (vs.getLast?.getD none).map Literal.truthy = some true then (.brk n value, s)
        else (.normal value, s)
      else (.brk n value, s)
  | .switch ts d v c =>
    andThenAll (seqEval go (v.toList ++ [c]) s) fun vs s =>
      let value := if v.isSome then vs.head?.getD none else none
      let idx := ((vs.getLast?.getD none).map Literal.getUnsigned).getD 0
      (.brk (ts[idx]?.getD d) value, s)
  | .call target ops isReturn =>
    andThenAll (seqEval go ops s) fun vs s =>
      let args := vs.filterMap fun v => v
      let s := s.addCall target args
      if isReturn then (.ret (env target args), s) else (.normal (env target args), s)
  | .localGet i => (.normal s.locals[i]?, s)
  | .localSet i v tee =>
    andThen (go v s) fun x s =>
      match x with
      | some x => (.normal (if tee then some x else none), s.setLocal i x)
      | none => (.trap, s)
  | .globalGet i => (.normal s.globals[i]?, s)
  | .globalSet i v =>
    andThen (go v s) fun x s =>
      match x with
      | some x => (.normal none, s.setGlobal i x)
      | none => (.trap, s)
  | .const v => (.normal (some v), s)
  | .unary op v =>
    andThen (go v s) fun x s =>
      match x.bind (Literal.unary op) with
      | some r => (.normal (some r), s)
      | none => (.trap, s)
  | .binary op l r =>
    andThenAll (seqEval go [l, r] s) fun vs s =>
      match vs with
      | [some a, some b] =>
        match Literal.binary op a b with
        | some x => (.normal (some x), s)
        | none => (.trap, s)
      | _ => (.trap, s)
  | .select t e c =>
    andThenAll (seqEval go [t, e, c] s) fun vs s =>
      match vs with
      | [a, b, some x] => (.normal (if x.truthy then a else b), s)
      | _ => (.trap, s)
  | .drop v => andThen (go v s) fun _ s => (.normal none, s)
  | .ret v => andThenAll (seqEval go v.toList s) fun vs s => (.ret (vs.head?.getD none), s)
  | .unreachable => (.trap, s)
  | .refNull => (.normal (some .null), s)
  | .refIsNull v =>
    andThen (go v s) fun x s => (.normal (some (Literal.ofBool (x = some .null))), s)
  | .refEq l r =>
    andThenAll (seqEval go [l, r] s) fun vs s =>
      match vs with
      | [a, b] => (.normal (some (Literal.ofBool (a = b))), s)
      | _ => (.trap, s)
  | .refAs op v =>
    andThen (go v s) fun x s =>
      if op = .nonNull ∧ x = some .null then (.trap, s) else (.normal x, s)
  | .refTest r t =>
    andThen (go r s) fun x s => (.normal (some (Literal.ofBool (castOk types s x t))), s)
  | .refCast r d =>
    andThenAll (seqEval go (r :: d.toList) s) fun vs s =>
      match vs, d with
      | x :: _, none => if castOk types s x ty then (.normal x, s) else (.trap, s)
      | [x, dv], some _ =>
        if dv = some .null then (.trap, s) else
        if x = some .null then (if ty.isNullable then (.normal x, s) else (.trap, s)) else
        if (s.getObj x).bind HeapObject.desc = dv ∧ (s.getObj x).isSome then (.normal x, s)
        else (.trap, s)
      | _, _ => (.trap, s)
  | .refGetDesc r =>
    andThen (go r s) fun x s =>
      match (s.getObj x).bind HeapObject.desc with
      | some dv => (.normal (some dv), s)
      | none => (.trap, s)
  | .structNew ops d =>
    andThenAll (seqEval go (ops ++ d.toList) s) fun vs s =>
      match definedIndex ty with
      | some i =>
        let fields := fieldsOf types i
        let dv := if d.isSome then vs.getLast?.getD none else none
        if d.isSome ∧ dv = some .null then (.trap, s) else
        let vals := if ops = [] then fields.map fun fl => Literal.makeZero fl.type
          else List.zipWith (fun fl v => Literal.pack fl (v.getD .null)) fields vs
        let (s, r) := s.alloc ⟨i, vals, dv⟩
        (.normal (some r), s)
      | none => (.trap, s)
  | .structGet i r signed =>
    andThen (go r s) fun x s =>
      match s.getObj x with
      | some o =>
        match o.fields[i]?, (fieldsOf types o.type)[i]? with
        | some v, some fl => (.normal (some (Literal.unpack fl signed v)), s)
        | _, _ => (.trap, s)
      | none => (.trap, s)
  | .structSet i r v =>
    andThenAll (seqEval go [r, v] s) fun vs s =>
      match vs with
      | [x, some y] =>
        match s.getObj x with
        | some o =>
          match (fieldsOf types o.type)[i]? with
          | some fl =>
            (.normal none, s.setObj x (o.setField i (Literal.pack fl y)))
          | none => (.trap, s)
        | none => (.trap, s)
      | _ => (.trap, s)
  | .structRMW op i r v =>
    andThenAll (seqEval go [r, v] s) fun vs s =>
      match vs with
      | [x, some y] =>
        match s.getObj x with
        | some o =>
          match o.fields[i]?, (fieldsOf types o.type)[i]? with
          | some old, some fl =>
            match Literal.rmw op old y with
            | some nv =>
              (.normal (some old), s.setObj x (o.setField i (Literal.pack fl nv)))
            | none => (.trap, s)
          | _, _ => (.trap, s)
        | none => (.trap, s)
      | _ => (.trap, s)
  | .structCmpxchg i r ex rep =>
    andThenAll (seqEval go [r, ex, rep] s) fun vs s =>
      match vs with
      | [x, some e', some y] =>
        match s.getObj x with
        | some o =>
          match o.fields[i]? with
          | some old =>
            if old = e' then
              (.normal (some old), s.setObj x (o.setField i y))
            else (.normal (some old), s)
          | none => (.trap, s)
        | none => (.trap, s)
      | _ => (.trap, s)
  | .arrayNew init size =>
    andThenAll (seqEval go (init.toList ++ [size]) s) fun vs s =>
      match definedIndex ty with
      | some i =>
        let n := ((vs.getLast?.getD none).map Literal.getUnsigned).getD 0
        let el := elementOf types i
        let v := if init.isSome then Literal.pack el ((vs.head?.getD none).getD .null)
          else Literal.makeZero el.type
        let (s, r) := s.alloc ⟨i, List.replicate n v, none⟩
        (.normal (some r), s)
      | none => (.trap, s)
  | .arrayNewFixed vals =>
    andThenAll (seqEval go vals s) fun vs s =>
      match definedIndex ty with
      | some i =>
        let el := elementOf types i
        let (s, r) := s.alloc ⟨i, vs.map fun v => Literal.pack el (v.getD .null), none⟩
        (.normal (some r), s)
      | none => (.trap, s)
  | .arrayGet r idx signed =>
    andThenAll (seqEval go [r, idx] s) fun vs s =>
      match vs with
      | [x, some k] =>
        match s.getObj x with
        | some o =>
          match o.fields[k.getUnsigned]? with
          | some v => (.normal (some (Literal.unpack (elementOf types o.type) signed v)), s)
          | none => (.trap, s)
        | none => (.trap, s)
      | _ => (.trap, s)
  | .arraySet r idx v =>
    andThenAll (seqEval go [r, idx, v] s) fun vs s =>
      match vs with
      | [x, some k, some y] =>
        match s.getObj x with
        | some o =>
          if k.getUnsigned < o.fields.length then
            (.normal none,
              s.setObj x (o.setField k.getUnsigned (Literal.pack (elementOf types o.type) y)))
          else (.trap, s)
        | none => (.trap, s)
      | _ => (.trap, s)
  | .arrayRMW op r idx v =>
    andThenAll (seqEval go [r, idx, v] s) fun vs s =>
      match vs with
      | [x, some k, some y] =>
        match s.getObj x with
        | some o =>
          match o.fields[k.getUnsigned]? with
          | some old =>
            match Literal.rmw op old y with
            | some nv =>
              (.normal (some old),
                s.setObj x (o.setField k.getUnsigned (Literal.pack (elementOf types o.type) nv)))
            | none => (.trap, s)
          | none => (.trap, s)
        | none => (.trap, s)
      | _ => (.trap, s)
  | .arrayCmpxchg r idx ex rep =>
    andThenAll (seqEval go [r, idx, ex, rep] s) fun vs s =>
      match vs with
      | [x, some k, some e', some y] =>
        match s.getObj x with
        | some o =>
          match o.fields[k.getUnsigned]? with
          | some old =>
            if old = e' then
              (.normal (some old), s.setObj x (o.setField k.getUnsigned y))
            else (.normal (some old), s)
          | none => (.trap, s)
        | none => (.trap, s)
      | _ => (.trap, s)

/-- The evaluator of the expressions of `f`: each step costs one unit of fuel. -/
def eval (types : TypeSection) (env : CallEnv) (f : Function) :
    Nat → ExprId → State → Flow × State
  | 0, _, s => (.outOfFuel, s)
  | fuel + 1, id, s =>
    match f.get id with
    | none => (.trap, s)
    | some ⟨e, ty⟩ => evalStep types env (eval types env f fuel) id e ty s

theorem eval_zero (types : TypeSection) (env : CallEnv) (f : Function) (id : ExprId) (s : State) :
    eval types env f 0 id s = (.outOfFuel, s) := rfl

theorem eval_succ (types : TypeSection) (env : CallEnv) (f : Function) (n : Nat) (id : ExprId)
    (s : State) :
    eval types env f (n + 1) id s =
      match f.get id with
      | none => (.trap, s)
      | some ⟨e, ty⟩ => evalStep types env (eval types env f n) id e ty s := rfl

/-- Running a function body from its initial locals: the arguments, then the zero value of each
declared local. -/
def run (types : TypeSection) (env : CallEnv) (f : Function) (fuel : Nat) (args : List Literal)
    (globals : List Literal) (heap : List HeapObject) : Flow × State :=
  eval types env f fuel f.body
    ⟨args ++ f.vars.map Literal.makeZero, globals, heap, []⟩

end BinaryenPasses.IR
