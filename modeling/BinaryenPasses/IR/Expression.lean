import BinaryenPasses.IR.Types

/-!
# Binaryen expressions as an arena

Binaryen's IR is a tree of `Expression` objects linked by pointers; passes compare pointers for
identity (`curr->ref == child`) and key their maps by them.  Here a function owns an arena, a
list of expressions, and an `Expression*` is an index into it (`ExprId`).  Each expression is
one of Binaryen's expression classes with its fields (`Expr`), children given by index, and its
type.  Allocating a new expression (`Builder::make*`) appends to the arena; rewriting a child
slot (`replaceCurrent`) edits the parent's indices; expressions are never freed, exactly as the
C++ leaves replaced nodes in the module's allocator.

* `Expr.children` — the children in evaluation order, the order `PostWalker` visits them in;
* `Expr.replaceChild` — the slot update behind `replaceCurrent`;
* `Builder` — the `make*` helpers the two rewriters use, with the types their `finalize`
  computes, `blockify`, and `addVar`;
* `children_replaceChild` — replacing a child updates exactly the matching slots.
-/

namespace BinaryenPasses.IR

/-- An `Expression*`: the index of an expression in its function's arena. -/
abbrev ExprId := Nat

/-- `Literal`: a constant, and a runtime value (a reference to a heap object is its address). -/
inductive Literal
  | i32 (v : BitVec 32)
  | i64 (v : BitVec 64)
  | null
  | ref (addr : Nat)
  deriving DecidableEq, Repr

namespace Literal

/-- `Literal::makeZero`. -/
def makeZero : Ty → Literal
  | .i32 => .i32 0
  | .i64 => .i64 0
  | _ => .null

/-- `Literal::getUnsigned`. -/
def getUnsigned : Literal → Nat
  | .i32 v => v.toNat
  | .i64 v => v.toNat
  | _ => 0

/-- The type `Builder::makeConst` gives a literal. -/
def type : Literal → Ty
  | .i32 _ => .i32
  | .i64 _ => .i64
  | _ => .ref .none true

end Literal

/-- The binary operators the rewriters emit, as `Abstract::getBinary` names them; the width
comes from the operands. -/
inductive AbstractOp
  | add
  | sub
  | and
  | or
  | xor
  | eq
  deriving DecidableEq, Repr

/-- The sign extensions `Bits::makePackedFieldGet` emits. -/
inductive UnaryOp
  | extendS8Int32
  | extendS16Int32
  deriving DecidableEq, Repr

/-- `RMWOp` of `struct.rmw` and `array.rmw`. -/
inductive RMWOp
  | add
  | sub
  | and
  | or
  | xor
  | xchg
  deriving DecidableEq, Repr

/-- `RefAsOp`. -/
inductive RefAsOp
  | nonNull
  | anyConvertExtern
  | externConvertAny
  deriving DecidableEq, Repr

/-- Binaryen's expression classes with their fields; children are arena indices.  `iff` is
`If`, `br` is `Break` (`br`, and `br_if` when it has a condition), `ret` is `Return`; a
`StructNew` is `isWithDefault` when it has no operands. -/
inductive Expr
  | block (name : Option Name) (list : List ExprId)
  | loop (name : Option Name) (body : ExprId)
  | iff (condition ifTrue : ExprId) (ifFalse : Option ExprId)
  | br (name : Name) (value condition : Option ExprId)
  | switch (targets : List Name) (default : Name) (value : Option ExprId) (condition : ExprId)
  | call (target : Name) (operands : List ExprId) (isReturn : Bool)
  | localGet (index : Nat)
  | localSet (index : Nat) (value : ExprId) (isTee : Bool)
  | globalGet (index : Nat)
  | globalSet (index : Nat) (value : ExprId)
  | const (value : Literal)
  | unary (op : UnaryOp) (value : ExprId)
  | binary (op : AbstractOp) (left right : ExprId)
  | select (ifTrue ifFalse condition : ExprId)
  | drop (value : ExprId)
  | ret (value : Option ExprId)
  | unreachable
  | refNull
  | refIsNull (value : ExprId)
  | refEq (left right : ExprId)
  | refAs (op : RefAsOp) (value : ExprId)
  | refTest (ref : ExprId) (castType : Ty)
  | refCast (ref : ExprId) (desc : Option ExprId)
  | refGetDesc (ref : ExprId)
  | structNew (operands : List ExprId) (desc : Option ExprId)
  | structGet (index : Nat) (ref : ExprId) (signed : Bool)
  | structSet (index : Nat) (ref value : ExprId)
  | structRMW (op : RMWOp) (index : Nat) (ref value : ExprId)
  | structCmpxchg (index : Nat) (ref expected replacement : ExprId)
  | arrayNew (init : Option ExprId) (size : ExprId)
  | arrayNewFixed (values : List ExprId)
  | arrayGet (ref index : ExprId) (signed : Bool)
  | arraySet (ref index value : ExprId)
  | arrayRMW (op : RMWOp) (ref index value : ExprId)
  | arrayCmpxchg (ref index expected replacement : ExprId)
  deriving DecidableEq, Repr

/-- An expression of the arena: its class and fields, and its type. -/
structure Expression where
  expr : Expr
  type : Ty
  deriving DecidableEq, Repr

namespace Expr

/-- The children in evaluation order. -/
def children : Expr → List ExprId
  | .block _ list => list
  | .loop _ body => [body]
  | .iff c t f => c :: t :: f.toList
  | .br _ v c => v.toList ++ c.toList
  | .switch _ _ v c => v.toList ++ [c]
  | .call _ ops _ => ops
  | .localSet _ v _ => [v]
  | .globalSet _ v => [v]
  | .unary _ v => [v]
  | .binary _ l r => [l, r]
  | .select t f c => [t, f, c]
  | .drop v => [v]
  | .ret v => v.toList
  | .refIsNull v => [v]
  | .refEq l r => [l, r]
  | .refAs _ v => [v]
  | .refTest r _ => [r]
  | .refCast r d => r :: d.toList
  | .refGetDesc r => [r]
  | .structNew ops d => ops ++ d.toList
  | .structGet _ r _ => [r]
  | .structSet _ r v => [r, v]
  | .structRMW _ _ r v => [r, v]
  | .structCmpxchg _ r e x => [r, e, x]
  | .arrayNew i s => i.toList ++ [s]
  | .arrayNewFixed vs => vs
  | .arrayGet r i _ => [r, i]
  | .arraySet r i v => [r, i, v]
  | .arrayRMW _ r i v => [r, i, v]
  | .arrayCmpxchg r i e x => [r, i, e, x]
  | .localGet _ | .globalGet _ | .const _ | .unreachable | .refNull => []

/-- The slot update of `replaceCurrent`: every child slot holding `old` now holds `new`. -/
def replaceChild (e : Expr) (old new : ExprId) : Expr :=
  let r : ExprId → ExprId := fun c => if c = old then new else c
  match e with
  | .block n list => .block n (list.map r)
  | .loop n body => .loop n (r body)
  | .iff c t f => .iff (r c) (r t) (f.map r)
  | .br n v c => .br n (v.map r) (c.map r)
  | .switch ts d v c => .switch ts d (v.map r) (r c)
  | .call t ops isRet => .call t (ops.map r) isRet
  | .localSet i v tee => .localSet i (r v) tee
  | .globalSet i v => .globalSet i (r v)
  | .unary op v => .unary op (r v)
  | .binary op l x => .binary op (r l) (r x)
  | .select t f c => .select (r t) (r f) (r c)
  | .drop v => .drop (r v)
  | .ret v => .ret (v.map r)
  | .refIsNull v => .refIsNull (r v)
  | .refEq l x => .refEq (r l) (r x)
  | .refAs op v => .refAs op (r v)
  | .refTest x t => .refTest (r x) t
  | .refCast x d => .refCast (r x) (d.map r)
  | .refGetDesc x => .refGetDesc (r x)
  | .structNew ops d => .structNew (ops.map r) (d.map r)
  | .structGet i x s => .structGet i (r x) s
  | .structSet i x v => .structSet i (r x) (r v)
  | .structRMW op i x v => .structRMW op i (r x) (r v)
  | .structCmpxchg i x e' y => .structCmpxchg i (r x) (r e') (r y)
  | .arrayNew i s => .arrayNew (i.map r) (r s)
  | .arrayNewFixed vs => .arrayNewFixed (vs.map r)
  | .arrayGet x i s => .arrayGet (r x) (r i) s
  | .arraySet x i v => .arraySet (r x) (r i) (r v)
  | .arrayRMW op x i v => .arrayRMW op (r x) (r i) (r v)
  | .arrayCmpxchg x i e' y => .arrayCmpxchg (r x) (r i) (r e') (r y)
  | e => e

@[simp] theorem toList_optionMap (o : Option ExprId) (r : ExprId → ExprId) :
    (o.map r).toList = o.toList.map r := by
  cases o <;> rfl

/-- `replaceCurrent` edits exactly the slots that held the old child. -/
theorem children_replaceChild (e : Expr) (old new : ExprId) :
    (e.replaceChild old new).children = e.children.map (fun c => if c = old then new else c) := by
  cases e <;> simp only [replaceChild, children, List.map_cons, List.map_nil, List.map_append,
    toList_optionMap]

end Expr

/-- A function: its parameters and declared locals (`vars`), the arena of its expressions, and
the root of its body. -/
structure Function where
  params : List Ty
  vars : List Ty
  exprs : List Expression
  body : ExprId
  deriving DecidableEq, Repr

namespace Function

/-- The expression an `ExprId` points to. -/
def get (f : Function) (id : ExprId) : Option Expression := f.exprs[id]?

/-- The class of the expression an `ExprId` points to. -/
def expr? (f : Function) (id : ExprId) : Option Expr := (f.get id).map Expression.expr

/-- The type of the expression an `ExprId` points to (`unreachable` for a dangling id). -/
def typeOf (f : Function) (id : ExprId) : Ty := ((f.get id).map Expression.type).getD .unreachable

/-- Overwrite the expression at `id` (a field update of an existing expression). -/
def set (f : Function) (id : ExprId) (e : Expression) : Function :=
  { f with exprs := f.exprs.set id e }

/-- The number of locals, parameters first. -/
def numLocals (f : Function) : Nat := f.params.length + f.vars.length

/-- The type of local `i`. -/
def localType (f : Function) (i : Nat) : Ty := ((f.params ++ f.vars)[i]?).getD .none

end Function

/-! ## The builder -/

namespace Builder

/-- Allocate a new expression; its index is the arena's old length. -/
def alloc (f : Function) (e : Expression) : Function × ExprId :=
  ({ f with exprs := f.exprs ++ [e] }, f.exprs.length)

/-- `Builder::addVar`: a fresh local of type `t`; its index is the old number of locals. -/
def addVar (f : Function) (t : Ty) : Function × Nat :=
  ({ f with vars := f.vars ++ [t] }, f.numLocals)

/-- `Builder::addVar` for each type in turn. -/
def addVars (f : Function) : List Ty → Function × List Nat
  | [] => (f, [])
  | t :: ts =>
    let (f, i) := addVar f t
    let (f, is) := addVars f ts
    (f, i :: is)

/-- Build one expression per item, in order. -/
def buildEach {α : Type} (mk : Function → α → Function × ExprId) (f : Function) :
    List α → Function × List ExprId
  | [] => (f, [])
  | x :: xs =>
    let (f, e) := mk f x
    let (f, es) := buildEach mk f xs
    (f, e :: es)

/-- The type `Block::finalize` gives an unnamed block: its last element's type, or
`unreachable` when that is `none` and some element is unreachable. -/
def blockType (f : Function) (list : List ExprId) : Ty :=
  match list.getLast? with
  | none => .none
  | some last =>
    let t := f.typeOf last
    if t = .none ∧ list.any (fun c => f.typeOf c = .unreachable) then .unreachable else t

def makeBlock (f : Function) (list : List ExprId) : Function × ExprId :=
  alloc f ⟨.block none list, blockType f list⟩

/-- `Builder::makeSequence`. -/
def makeSequence (f : Function) (a b : ExprId) : Function × ExprId := makeBlock f [a, b]

/-- `Builder::blockify`: append to `any` when it is an unnamed block, else wrap both. -/
def blockify (f : Function) (any : ExprId) (appends : List ExprId) : Function × ExprId :=
  match f.expr? any with
  | some (.block none list) =>
    let f := f.set any ⟨.block none (list ++ appends), blockType f (list ++ appends)⟩
    (f, any)
  | _ => makeBlock f (any :: appends)

def makeDrop (f : Function) (v : ExprId) : Function × ExprId :=
  alloc f ⟨.drop v, if f.typeOf v = .unreachable then .unreachable else .none⟩

def makeLocalSet (f : Function) (i : Nat) (v : ExprId) : Function × ExprId :=
  alloc f ⟨.localSet i v false, if f.typeOf v = .unreachable then .unreachable else .none⟩

def makeLocalGet (f : Function) (i : Nat) (t : Ty) : Function × ExprId :=
  alloc f ⟨.localGet i, t⟩

def makeConst (f : Function) (v : Literal) : Function × ExprId :=
  alloc f ⟨.const v, v.type⟩

/-- `Builder::makeRefNull` of a heap type: a null of that heap type. -/
def makeRefNull (f : Function) (ht : HeapType) : Function × ExprId :=
  alloc f ⟨.refNull, .ref ht true⟩

/-- `Builder::makeConstantExpression` of a zero: a constant, or a null for a reference. -/
def makeConstantExpression (f : Function) (t : Ty) : Function × ExprId :=
  match t with
  | .ref ht _ => makeRefNull f ht
  | _ => makeConst f (Literal.makeZero t)

def makeRefAs (f : Function) (op : RefAsOp) (v : ExprId) : Function × ExprId :=
  alloc f ⟨.refAs op v, match f.typeOf v with
    | .ref ht _ => if op = .nonNull then .ref ht false else .ref ht true
    | t => t⟩

def makeUnreachable (f : Function) : Function × ExprId :=
  alloc f ⟨.unreachable, .unreachable⟩

def makeIf (f : Function) (c t : ExprId) (e : Option ExprId) : Function × ExprId :=
  alloc f ⟨.iff c t e, match e with
    | none => .none
    | some e => if f.typeOf t = .unreachable then f.typeOf e else f.typeOf t⟩

def makeRefEq (f : Function) (l r : ExprId) : Function × ExprId :=
  alloc f ⟨.refEq l r, .i32⟩

def makeBinary (f : Function) (op : AbstractOp) (l r : ExprId) : Function × ExprId :=
  alloc f ⟨.binary op l r, if op = .eq then .i32 else f.typeOf l⟩

def makeUnary (f : Function) (op : UnaryOp) (v : ExprId) : Function × ExprId :=
  alloc f ⟨.unary op v, .i32⟩

def makeStructNew (f : Function) (ht : HeapType) (ops : List ExprId) : Function × ExprId :=
  alloc f ⟨.structNew ops none, .ref ht false⟩

def makeStructSet (f : Function) (i : Nat) (r v : ExprId) : Function × ExprId :=
  alloc f ⟨.structSet i r v, .none⟩

def makeStructGet (f : Function) (i : Nat) (r : ExprId) (t : Ty) (signed : Bool) :
    Function × ExprId :=
  alloc f ⟨.structGet i r signed, t⟩

end Builder

end BinaryenPasses.IR
