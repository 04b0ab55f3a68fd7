import BinaryenPasses.Heap2Local.Struct2Local

/-!
# `Array2Struct`: a small non-escaping array becomes a struct

An array allocation of a constant size below 20 (`array.new`, `array.new_default` or
`array.new_fixed`) that does not escape is turned into a `struct.new` with one field per slot,
all of the element's type, so that `Struct2Local` can then turn it into locals.  The new
`struct.new` and the expression that replaces the allocation are recorded as `Flows`; the reached
expressions of the array's type are retyped to the struct type; then a walk rewrites the
accesses the analysis reached: `array.get` and `array.set` at a constant index become
`struct.get` and `struct.set` (or a trap when the index is out of bounds), and `ref.test` and
`ref.cast` are decided against the original array type.

The walk has no visit for `array.rmw` nor for `array.cmpxchg`, although the analysis lets an
allocation reach both: they stay as they are.
-/

namespace BinaryenPasses.Heap2Local

open BinaryenPasses.IR

/-- `HeapType(Struct(fields))`: types are canonical, so this is the struct type with these
fields, no supertype and no descriptor that the module already has, or else a new one. -/
def internStruct (types : TypeSection) (fields : List Field) : TypeSection × HeapType :=
  match types.findIdx? (· == .struct fields none none) with
  | some i => (types, .defined i)
  | none => (types ++ [.struct fields none none], .defined types.length)

/-- `getIndex`: the value of an index known to be a constant (the source casts to `Const`; any
other expression is not a case it handles). -/
def getIndex (f : Function) (curr : ExprId) : Nat :=
  match f.expr? curr with
  | some (.const v) => v.getUnsigned
  | _ => 0

/-- `getArrayNewSize`. -/
def getArrayNewSize (f : Function) (allocation : ExprId) : Nat :=
  match f.expr? allocation with
  | some (.arrayNew _ size) => getIndex f size
  | some (.arrayNewFixed values) => values.length
  | _ => 0

/-- `Array2Struct`'s fixed data: the allocation, its original type, the number of slots, the
struct type, the `struct.new` and what replaces the allocation. -/
structure Array2Struct where
  allocation : ExprId
  originalType : Ty
  numFields : Nat
  structType : HeapType
  structNew : ExprId
  arrayNewReplacement : ExprId

/-- One step of the retyping loop over the reached expressions: an expression whose heap type
the array's type is a subtype of gets the struct type, with its nullability (casts are left to
their visit). -/
def retypeReached (types : TypeSection) (arrayType structType : HeapType)
    (acc : Function × Bool) (reached : ExprId) : Function × Bool :=
  let (f, refinalize) := acc
  match f.get reached with
  | some ⟨.refCast .., _⟩ => acc
  | some e =>
    if !e.type.isRef then acc else
    let reachedHeapType := e.type.getHeapType
    if HeapType.isSubType types arrayType reachedHeapType then
      (f.set reached { e with type := .ref structType e.type.isNullable },
        refinalize || arrayType != reachedHeapType)
    else acc
  | none => acc

/-- The constructor of `Array2Struct` before its walk: the struct type, the `struct.new` (for
`array.new` with an initial value, the value goes to a local read once per field), the two new
expressions recorded as `Flows`, and the retyping of the reached expressions. -/
def Array2Struct.make (types : TypeSection) (f : Function) (reached : Interactions)
    (allocation : ExprId) : Array2Struct × TypeSection × Rewrite :=
  let originalType := f.typeOf allocation
  let numFields := getArrayNewSize f allocation
  let arrayType := originalType.getHeapType
  let element := match definedIndex originalType with
    | some i => elementOf types i
    | none => ⟨.none, .notPacked, false⟩
  let (types, structType) := internStruct types (List.replicate numFields element)
  let (f, structNew, arrayNewReplacement) := match f.expr? allocation with
    | some (.arrayNew none _) =>
      let (f, structNew) := Builder.makeStructNew f structType []
      (f, structNew, structNew)
    | some (.arrayNew (some init) _) =>
      let (f, localIndex) := Builder.addVar f element.type
      let (f, set) := Builder.makeLocalSet f localIndex init
      let (f, gets) := Builder.buildEach (fun f _ => Builder.makeLocalGet f localIndex element.type)
        f (List.range numFields)
      let (f, structNew) := Builder.makeStructNew f structType gets
      let (f, seq) := Builder.makeSequence f set structNew
      (f, structNew, seq)
    | some (.arrayNewFixed values) =>
      let (f, structNew) := Builder.makeStructNew f structType values
      (f, structNew, structNew)
    | _ => (f, allocation, allocation)
  let reached := (reached.set arrayNewReplacement .flows).set structNew .flows
  let (f, refinalize) :=
    (reached.map Prod.fst).foldl (retypeReached types arrayType structType) (f, false)
  (⟨allocation, originalType, numFields, structType, structNew, arrayNewReplacement⟩, types,
    ⟨f, reached, refinalize⟩)

namespace Array2Struct

variable (a2s : Array2Struct) (types : TypeSection)

/-- The visit of the allocation, for both array allocation classes: it becomes
`arrayNewReplacement`. -/
def replaceAllocation (r : Rewrite) (curr : ExprId) (parent : Option ExprId) : Rewrite :=
  if curr = a2s.allocation then r.replaceCurrent curr parent a2s.arrayNewReplacement else r

def visitArrayNew (r : Rewrite) (curr : ExprId) (parent : Option ExprId) : Rewrite :=
  a2s.replaceAllocation r curr parent

def visitArrayNewFixed (r : Rewrite) (curr : ExprId) (parent : Option ExprId) : Rewrite :=
  a2s.replaceAllocation r curr parent

/-- `visitArraySet`: a `struct.set` of the slot, or a trap out of bounds. -/
def visitArraySet (r : Rewrite) (curr : ExprId) (parent : Option ExprId)
    (ref index value : ExprId) : Rewrite :=
  if r.reached.get curr = .none then r else
  let index := getIndex r.func index
  if index ≥ a2s.numFields then
    let (f, dropRef) := Builder.makeDrop r.func ref
    let (f, dropValue) := Builder.makeDrop f value
    let (f, unreachable) := Builder.makeUnreachable f
    let (f, block) := Builder.makeBlock f [dropRef, dropValue, unreachable]
    { (r.withFunc f).replaceCurrent curr parent block with refinalize := true }
  else
    let (f, set) := Builder.makeStructSet r.func index ref value
    (r.withFunc f).replaceCurrent curr parent set

/-- `visitArrayGet`: a `struct.get` of the slot, or a trap out of bounds. -/
def visitArrayGet (r : Rewrite) (curr : ExprId) (parent : Option ExprId) (ref index : ExprId)
    (signed : Bool) (type : Ty) : Rewrite :=
  if r.reached.get curr = .none then r else
  let index := getIndex r.func index
  if index ≥ a2s.numFields then
    let (f, drop) := Builder.makeDrop r.func ref
    let (f, unreachable) := Builder.makeUnreachable f
    let (f, seq) := Builder.makeSequence f drop unreachable
    { (r.withFunc f).replaceCurrent curr parent seq with refinalize := true }
  else
    let (f, get) := Builder.makeStructGet r.func index ref type signed
    (r.withFunc f).replaceCurrent curr parent get

/-- `visitRefTest`: decided against the original array type. -/
def visitRefTest (r : Rewrite) (curr : ExprId) (parent : Option ExprId) (castType : Ty) :
    Rewrite :=
  if r.reached.get curr = .none then r else
  let result := Ty.isSubType types a2s.originalType castType
  let (f, drop) := Builder.makeDrop r.func curr
  let (f, c) := Builder.makeConst f (.i32 (if result then 1 else 0))
  let (f, seq) := Builder.makeSequence f drop c
  (r.withFunc f).replaceCurrent curr parent seq

/-- `visitRefCast`: a cast the original array type fails becomes a trap; one it passes gets the
non-nullable struct type. -/
def visitRefCast (r : Rewrite) (curr : ExprId) (parent : Option ExprId) (type : Ty) : Rewrite :=
  if r.reached.get curr = .none then r else
  let r :=
    if !Ty.isSubType types a2s.originalType type then
      let (f, drop) := Builder.makeDrop r.func curr
      let (f, unreachable) := Builder.makeUnreachable f
      let (f, seq) := Builder.makeSequence f drop unreachable
      (r.withFunc f).replaceCurrent curr parent seq
    else
      match r.func.get curr with
      | some e => r.withFunc (r.func.set curr { e with type := .ref a2s.structType false })
      | none => r
  { r with refinalize := true }

/-- The visits of `Array2Struct`, by expression class. -/
def visit (r : Rewrite) (curr : ExprId) (parent : Option ExprId) : Rewrite :=
  match r.func.get curr with
  | none => r
  | some ⟨e, type⟩ =>
    match e with
    | .arrayNew .. => a2s.visitArrayNew r curr parent
    | .arrayNewFixed _ => a2s.visitArrayNewFixed r curr parent
    | .arraySet ref index value => a2s.visitArraySet r curr parent ref index value
    | .arrayGet ref index signed => a2s.visitArrayGet r curr parent ref index signed type
    | .refTest _ castType => a2s.visitRefTest types r curr parent castType
    | .refCast .. => a2s.visitRefCast types r curr parent type
    | _ => r

end Array2Struct

/-- `Array2Struct`: the types (with the struct type), the function with the allocation turned
into a `struct.new`, the interactions updated for the replacements, and that `struct.new`. -/
def array2Struct (types : TypeSection) (allocation : ExprId) (f : Function)
    (reached : Interactions) : TypeSection × Function × Interactions × ExprId :=
  let (a2s, types, r) := Array2Struct.make types f reached allocation
  let r := walkBody (a2s.visit types) r.func r
  (types, r.func, r.reached, a2s.structNew)

end BinaryenPasses.Heap2Local
