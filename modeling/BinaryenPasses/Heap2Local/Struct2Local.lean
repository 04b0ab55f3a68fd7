import BinaryenPasses.Heap2Local.EscapeAnalyzer

/-!
# `Struct2Local`: a non-escaping struct allocation becomes locals

The rewriter `Heap2Local` runs on a `struct.new` the analysis found not to escape.  It gives each
field, and the descriptor, a fresh local, then walks the body once, children first.  The
allocation becomes a block that stores its operands into the field locals and yields a null, and
every expression the analysis recorded is rewritten to work on the locals: field reads and
writes become `local.get` and `local.set`, tests and casts are decided statically, `ref.eq`
becomes a constant, and the copies of the reference through locals are dropped or nulled.

Every replacement goes through `replaceCurrent`, which also gives the replacement the
interaction of what it replaces (`applyOldInteractionToReplacement`), so that the visits of the
parents still recognise it.

`ReFinalize` is not in the source; it recomputes types bottom-up and changes no value, so the
model keeps the flag and leaves the types as the visitors set them.

The block that replaces the allocation (`structNewReplacement`) is proved to do what the
allocation did in `BinaryenPasses.Heap2Local.StructNewReplacement`.
-/

namespace BinaryenPasses.Heap2Local

open BinaryenPasses.IR

/-! ## Rewriting walkers -/

/-- `EscapeAnalyzer::applyOldInteractionToReplacement`: a replacement takes over the interaction
of the expression it replaces, unless it is unreachable code. -/
def applyOldInteractionToReplacement (m : Interactions) (f : Function) (old rep : ExprId) :
    Interactions :=
  if f.typeOf rep ≠ .unreachable then m.set rep (m.get old) else m

/-- What a rewriting walker threads through its walk: the function, the interactions of the
analysis (which `replaceCurrent` keeps up to date), and whether the function needs
refinalizing. -/
structure Rewrite where
  func : Function
  reached : Interactions
  refinalize : Bool

/-- `replaceCurrent` of both rewriters. -/
def Rewrite.replaceCurrent (r : Rewrite) (curr : ExprId) (parent : Option ExprId)
    (rep : ExprId) : Rewrite :=
  { r with
    reached := applyOldInteractionToReplacement r.reached r.func curr rep
    func := r.func.replaceSlot parent curr rep }

/-- `Rewrite` after building with the builder. -/
def Rewrite.withFunc (r : Rewrite) (f : Function) : Rewrite := { r with func := f }

/-! ## Helpers outside the source -/

/-- Modelled from the spec: `Bits::makePackedFieldGet` (`ir/bits.h`) is not in the source.  A
read of a packed field is widened from its storage width: sign-extended when signed, masked
otherwise. -/
def makePackedFieldGet (f : Function) (value : ExprId) (field : Field) (signed : Bool) :
    Function × ExprId :=
  match field.packedType, signed with
  | .notPacked, _ => (f, value)
  | .i8, true => Builder.makeUnary f .extendS8Int32 value
  | .i16, true => Builder.makeUnary f .extendS16Int32 value
  | .i8, false =>
    let (f, mask) := Builder.makeConst f (.i32 0xff)
    Builder.makeBinary f .and value mask
  | .i16, false =>
    let (f, mask) := Builder.makeConst f (.i32 0xffff)
    Builder.makeBinary f .and value mask

/-- Modelled from the spec: `Break::finalize` (`wasm/wasm.cpp`) is not in the source.  A `br` is
unreachable; a `br_if` has the type of its value (none without one), and is unreachable when its
condition or value is. -/
def Break.finalize (f : Function) (value condition : Option ExprId) : Ty :=
  match condition with
  | none => .unreachable
  | some c =>
    if f.typeOf c = .unreachable ∨ value.map f.typeOf = some .unreachable then .unreachable
    else (value.map f.typeOf).getD .none

/-- The binary operator of a read-modify-write (`xchg` has none and is handled apart). -/
def rmwBinop : RMWOp → AbstractOp
  | .add => .add
  | .sub => .sub
  | .and => .and
  | .or => .or
  | .xor => .xor
  | .xchg => .add

/-! ## The rewriter -/

/-- `Struct2Local`'s fixed data: the types, the allocation with its type, fields and descriptor
type, and the locals that hold its fields and then its descriptor. -/
structure Struct2Local where
  types : TypeSection
  allocation : ExprId
  allocType : Ty
  fields : List Field
  descType : Option Ty
  localIndexes : List Nat

namespace Struct2Local

/-- `adjustTypeFlowingThrough`: where the allocation flows through, the type becomes
nullable. -/
def adjustTypeFlowingThrough (r : Rewrite) (curr : ExprId) : Rewrite :=
  if r.reached.get curr ≠ .flows then r else
  match r.func.get curr with
  | some e => r.withFunc (r.func.set curr { e with type := e.type.toNullable })
  | none => r

def visitBlock (r : Rewrite) (curr : ExprId) : Rewrite := adjustTypeFlowingThrough r curr

def visitLoop (r : Rewrite) (curr : ExprId) : Rewrite := adjustTypeFlowingThrough r curr

/-- `visitLocalSet`: the set of the reference is dropped (a tee becomes its value). -/
def visitLocalSet (r : Rewrite) (curr : ExprId) (parent : Option ExprId) (value : ExprId)
    (isTee : Bool) : Rewrite :=
  if r.reached.get curr = .none then r else
  if isTee then r.replaceCurrent curr parent value else
  let (f, drop) := Builder.makeDrop r.func value
  (r.withFunc f).replaceCurrent curr parent drop

/-- `visitLocalGet`: a get of the reference becomes a null. -/
def visitLocalGet (r : Rewrite) (curr : ExprId) (parent : Option ExprId) (type : Ty) :
    Rewrite :=
  if r.reached.get curr = .none then r else
  let (f, null) := Builder.makeRefNull r.func type.getHeapType
  (r.withFunc f).replaceCurrent curr parent null

/-- `visitBreak`: a branch the allocation flows through is finalized again. -/
def visitBreak (r : Rewrite) (curr : ExprId) (value condition : Option ExprId) : Rewrite :=
  if r.reached.get curr = .none then r else
  match r.func.get curr with
  | some e => r.withFunc (r.func.set curr { e with type := Break.finalize r.func value condition })
  | none => r

variable (s2l : Struct2Local)

/-- The types of `visitStructNew`'s temp locals: one per field for explicit operands, then one
for the descriptor. -/
def tempTypes (f : Function) (ops : List ExprId) (desc : Option ExprId) : List Ty :=
  (if ops.isEmpty then [] else s2l.fields.map Field.type) ++ (desc.map f.typeOf).toList

/-- "Store the initial values into the temp locals": the operands, one per field. -/
def storeOperands (f : Function) (tempIndexes : List Nat) (ops : List ExprId) :
    Function × List ExprId :=
  if ops.isEmpty then (f, []) else
    Builder.buildEach (fun f i => Builder.makeLocalSet f (tempIndexes.getD i 0) (ops.getD i 0))
      f (List.range s2l.fields.length)

/-- Then the descriptor into the last temp, made non-null when it is nullable so that a null
descriptor still traps. -/
def storeDescriptor (f : Function) (tempIndexes : List Nat) :
    Option ExprId → Function × List ExprId
  | none => (f, [])
  | some d =>
    let (f, d') := if (f.typeOf d).isNullable then Builder.makeRefAs f .nonNull d else (f, d)
    let (f, set) := Builder.makeLocalSet f (tempIndexes.getD (tempIndexes.length - 1) 0) d'
    (f, [set])

/-- "Store the values into the locals representing the fields": each field's temp, or the zero
of the field's type. -/
def storeFields (f : Function) (tempIndexes : List Nat) (withDefault : Bool) :
    Function × List ExprId :=
  Builder.buildEach (fun f i =>
      let type := (s2l.fields.getD i default).type
      let (f, val) := if withDefault then Builder.makeConstantExpression f type
        else Builder.makeLocalGet f (tempIndexes.getD i 0) type
      Builder.makeLocalSet f (s2l.localIndexes.getD i 0) val)
    f (List.range s2l.fields.length)

/-- Then the descriptor's temp into the descriptor local. -/
def storeDescriptorLocal (f : Function) (tempIndexes : List Nat) :
    Option ExprId → Function × List ExprId
  | none => (f, [])
  | some d =>
    let (f, val) :=
      Builder.makeLocalGet f (tempIndexes.getD (tempIndexes.length - 1) 0) (f.typeOf d)
    let (f, set) := Builder.makeLocalSet f (s2l.localIndexes.getD s2l.fields.length 0) val
    (f, [set])

/-- The block `visitStructNew` puts in place of the allocation: the temps stored, the field
locals stored from them, then a null. -/
def structNewReplacement (f : Function) (ops : List ExprId) (desc : Option ExprId) :
    Function × ExprId :=
  let (f, tempIndexes) := Builder.addVars f (s2l.tempTypes f ops desc)
  let (f, opSets) := s2l.storeOperands f tempIndexes ops
  let (f, descSet) := storeDescriptor f tempIndexes desc
  let (f, fieldSets) := s2l.storeFields f tempIndexes ops.isEmpty
  let (f, descFieldSet) := s2l.storeDescriptorLocal f tempIndexes desc
  let (f, null) := Builder.makeRefNull f s2l.allocType.getHeapType
  Builder.makeBlock f (opSets ++ descSet ++ fieldSets ++ descFieldSet ++ [null])

/-- `visitStructNew`: the allocation becomes `structNewReplacement`. -/
def visitStructNew (r : Rewrite) (curr : ExprId) (parent : Option ExprId) (ops : List ExprId)
    (desc : Option ExprId) : Rewrite :=
  if curr ≠ s2l.allocation then r else
  let (f, block) := s2l.structNewReplacement r.func ops desc
  (r.withFunc f).replaceCurrent curr parent block

/-- `visitRefIsNull`: the allocation is not null; the test is dropped and 0 appended. -/
def visitRefIsNull (r : Rewrite) (curr : ExprId) (parent : Option ExprId) : Rewrite :=
  if r.reached.get curr = .none then r else
  let (f, drop) := Builder.makeDrop r.func curr
  let (f, c) := Builder.makeConst f (.i32 0)
  let (f, seq) := Builder.makeSequence f drop c
  (r.withFunc f).replaceCurrent curr parent seq

/-- `visitRefEq`: 1 when both operands are recorded as `Flows`, else 0. -/
def visitRefEq (r : Rewrite) (curr : ExprId) (parent : Option ExprId) (left right : ExprId)
    (type : Ty) : Rewrite :=
  if r.reached.get curr = .none then r else
  if type = .unreachable then r else
  let result := r.reached.get left = .flows ∧ r.reached.get right = .flows
  let (f, dropLeft) := Builder.makeDrop r.func left
  let (f, dropRight) := Builder.makeDrop f right
  let (f, c) := Builder.makeConst f (.i32 (if result then 1 else 0))
  let (f, block) := Builder.makeBlock f [dropLeft, dropRight, c]
  (r.withFunc f).replaceCurrent curr parent block

/-- `visitRefAs`: a `ref.as_non_null` of the allocation cannot trap and is removed. -/
def visitRefAs (r : Rewrite) (curr : ExprId) (parent : Option ExprId) (value : ExprId) :
    Rewrite :=
  if r.reached.get curr = .none then r else
  r.replaceCurrent curr parent value

/-- `visitRefTest`: decided by the allocation's exact type. -/
def visitRefTest (r : Rewrite) (curr : ExprId) (parent : Option ExprId) (ref : ExprId)
    (castType : Ty) : Rewrite :=
  if r.reached.get curr = .none then r else
  let result := Ty.isSubType s2l.types s2l.allocType castType
  let (f, drop) := Builder.makeDrop r.func ref
  let (f, c) := Builder.makeConst f (.i32 (if result then 1 else 0))
  let (f, seq) := Builder.makeSequence f drop c
  (r.withFunc f).replaceCurrent curr parent seq

/-- `visitRefCast`.  With a descriptor: when the allocation has none, or is the descriptor,
the cast fails except that a nullable cast lets a null reference through (kept as a cast to
the bottom type, the reference moved past the descriptor through a scratch local); when the
allocation is the reference, the cast succeeds iff the descriptor is the allocation's own.
Without a descriptor, the cast is decided by the allocation's exact type. -/
def visitRefCast (r : Rewrite) (curr : ExprId) (parent : Option ExprId) (ref : ExprId)
    (desc : Option ExprId) (type : Ty) : Rewrite :=
  if r.reached.get curr = .none then r else
  let r := match desc with
    | some desc =>
      let allocIsCastRef := r.reached.get ref == ParentChildInteraction.flows
      let allocIsCastDesc := r.reached.get desc == ParentChildInteraction.flows
      if s2l.descType.isNone || allocIsCastDesc then
        if allocIsCastDesc && !allocIsCastRef && type.isNullable then
          let (f, scratch) := Builder.addVar r.func (r.func.typeOf ref)
          let (f, set) := Builder.makeLocalSet f scratch ref
          let (f, drop) := Builder.makeDrop f desc
          let (f, block) := Builder.blockify f set [drop, curr]
          let r := (r.withFunc f).replaceCurrent curr parent block
          let (f, get) := Builder.makeLocalGet r.func scratch (r.func.typeOf ref)
          r.withFunc (f.set curr ⟨.refCast get none, .ref .none type.isNullable⟩)
        else
          let (f, dropRef) := Builder.makeDrop r.func ref
          let (f, dropDesc) := Builder.makeDrop f desc
          let (f, unreachable) := Builder.makeUnreachable f
          let (f, block) := Builder.blockify f dropRef [dropDesc, unreachable]
          (r.withFunc f).replaceCurrent curr parent block
      else
        let descType := s2l.descType.getD .none
        let (f, dropRef) := Builder.makeDrop r.func ref
        let (f, get) := Builder.makeLocalGet f (s2l.localIndexes.getD s2l.fields.length 0) descType
        let (f, eq) := Builder.makeRefEq f desc get
        let (f, null) := Builder.makeRefNull f s2l.allocType.getHeapType
        let (f, unreachable) := Builder.makeUnreachable f
        let (f, iff) := Builder.makeIf f eq null (some unreachable)
        let (f, block) := Builder.blockify f dropRef [iff]
        (r.withFunc f).replaceCurrent curr parent block
    | none =>
      if Ty.isSubType s2l.types s2l.allocType type then r.replaceCurrent curr parent ref else
      let (f, drop) := Builder.makeDrop r.func ref
      let (f, unreachable) := Builder.makeUnreachable f
      let (f, seq) := Builder.makeSequence f drop unreachable
      (r.withFunc f).replaceCurrent curr parent seq
  { r with refinalize := true }

/-- `visitRefGetDesc`: the descriptor is read from its local. -/
def visitRefGetDesc (r : Rewrite) (curr : ExprId) (parent : Option ExprId) (ref : ExprId)
    (currType : Ty) : Rewrite :=
  if r.reached.get curr = .none then r else
  let type := s2l.descType.getD .none
  let r := if type ≠ currType then { r with refinalize := true } else r
  let (f, value) := Builder.makeLocalGet r.func (s2l.localIndexes.getD s2l.fields.length 0) type
  let (f, drop) := Builder.makeDrop f ref
  let (f, block) := Builder.blockify f drop [value]
  (r.withFunc f).replaceCurrent curr parent block

/-- `visitStructSet`: the value goes to the field's local. -/
def visitStructSet (r : Rewrite) (curr : ExprId) (parent : Option ExprId) (index : Nat)
    (ref value : ExprId) : Rewrite :=
  if r.reached.get curr = .none then r else
  let (f, drop) := Builder.makeDrop r.func ref
  let (f, set) := Builder.makeLocalSet f (s2l.localIndexes.getD index 0) value
  let (f, seq) := Builder.makeSequence f drop set
  (r.withFunc f).replaceCurrent curr parent seq

/-- `visitStructGet`: the field's local, widened as a packed field read is. -/
def visitStructGet (r : Rewrite) (curr : ExprId) (parent : Option ExprId) (index : Nat)
    (ref : ExprId) (signed : Bool) (currType : Ty) : Rewrite :=
  if r.reached.get curr = .none then r else
  let field := s2l.fields.getD index default
  let type := field.type
  let r := if type ≠ currType then { r with refinalize := true } else r
  let (f, value) := Builder.makeLocalGet r.func (s2l.localIndexes.getD index 0) type
  let (f, value) := makePackedFieldGet f value field signed
  let (f, drop) := Builder.makeDrop f ref
  let (f, replacement) := Builder.blockify f drop []
  let (f, block) := Builder.blockify f replacement [value]
  (r.withFunc f).replaceCurrent curr parent block

/-- `visitStructRMW`: the value into a scratch local, the old field value into another, the
field's local updated, the old value returned. -/
def visitStructRMW (r : Rewrite) (curr : ExprId) (parent : Option ExprId) (op : RMWOp)
    (index : Nat) (ref value : ExprId) (type : Ty) : Rewrite :=
  if r.reached.get curr = .none then r else
  let (f, oldScratch) := Builder.addVar r.func type
  let (f, valScratch) := Builder.addVar f type
  let fieldLocal := s2l.localIndexes.getD index 0
  let (f, drop) := Builder.makeDrop f ref
  let (f, setVal) := Builder.makeLocalSet f valScratch value
  let (f, block) := Builder.makeSequence f drop setVal
  let (f, getField) := Builder.makeLocalGet f fieldLocal type
  let (f, setOld) := Builder.makeLocalSet f oldScratch getField
  let (f, newVal) := match op with
    | .xchg => Builder.makeLocalGet f valScratch type
    | op =>
      let (f, lhs) := Builder.makeLocalGet f fieldLocal type
      let (f, rhs) := Builder.makeLocalGet f valScratch type
      Builder.makeBinary f (rmwBinop op) lhs rhs
  let (f, setField) := Builder.makeLocalSet f fieldLocal newVal
  let (f, getOld) := Builder.makeLocalGet f oldScratch type
  let f := f.set block ⟨.block none [drop, setVal, setOld, setField, getOld], type⟩
  (r.withFunc f).replaceCurrent curr parent block

/-- `visitStructCmpxchg`: only when the allocation is the reference (the expected value may
also carry it, then the real `struct.cmpxchg` stays).  Expected, replacement and old value go
to scratch locals; the field's local is exchanged when it equals the expected value. -/
def visitStructCmpxchg (r : Rewrite) (curr : ExprId) (parent : Option ExprId) (index : Nat)
    (ref expected replacement : ExprId) (type : Ty) : Rewrite :=
  if r.reached.get ref ≠ .flows then r else
  let (f, oldScratch) := Builder.addVar r.func type
  let (f, expectedScratch) := Builder.addVar f type
  let (f, replacementScratch) := Builder.addVar f type
  let fieldLocal := s2l.localIndexes.getD index 0
  let (f, drop) := Builder.makeDrop f ref
  let (f, setExpected) := Builder.makeLocalSet f expectedScratch expected
  let (f, setReplacement) := Builder.makeLocalSet f replacementScratch replacement
  let (f, getField) := Builder.makeLocalGet f fieldLocal type
  let (f, setOld) := Builder.makeLocalSet f oldScratch getField
  let (f, block) := Builder.makeBlock f [drop, setExpected, setReplacement, setOld]
  let (f, lhs) := Builder.makeLocalGet f fieldLocal type
  let (f, rhs) := Builder.makeLocalGet f expectedScratch type
  let (f, pred) := if type.isRef then Builder.makeRefEq f lhs rhs
    else Builder.makeBinary f .eq lhs rhs
  let (f, getReplacement) := Builder.makeLocalGet f replacementScratch type
  let (f, setField) := Builder.makeLocalSet f fieldLocal getReplacement
  let (f, iff) := Builder.makeIf f pred setField none
  let (f, getOld) := Builder.makeLocalGet f oldScratch type
  let f := f.set block
    ⟨.block none [drop, setExpected, setReplacement, setOld, iff, getOld], type⟩
  (r.withFunc f).replaceCurrent curr parent block

/-- The visits of `Struct2Local`, by expression class. -/
def visit (r : Rewrite) (curr : ExprId) (parent : Option ExprId) : Rewrite :=
  match r.func.get curr with
  | none => r
  | some ⟨e, type⟩ =>
    match e with
    | .block .. => visitBlock r curr
    | .loop .. => visitLoop r curr
    | .localSet _ value isTee => visitLocalSet r curr parent value isTee
    | .localGet _ => visitLocalGet r curr parent type
    | .br _ value condition => visitBreak r curr value condition
    | .structNew ops desc => s2l.visitStructNew r curr parent ops desc
    | .refIsNull _ => visitRefIsNull r curr parent
    | .refEq left right => visitRefEq r curr parent left right type
    | .refAs _ value => visitRefAs r curr parent value
    | .refTest ref castType => s2l.visitRefTest r curr parent ref castType
    | .refCast ref desc => s2l.visitRefCast r curr parent ref desc type
    | .refGetDesc ref => s2l.visitRefGetDesc r curr parent ref type
    | .structSet index ref value => s2l.visitStructSet r curr parent index ref value
    | .structGet index ref signed => s2l.visitStructGet r curr parent index ref signed type
    | .structRMW op index ref value => s2l.visitStructRMW r curr parent op index ref value type
    | .structCmpxchg index ref expected replacement =>
      s2l.visitStructCmpxchg r curr parent index ref expected replacement type
    | _ => r

end Struct2Local

/-- The constructor of `Struct2Local` before its walk: the fields of the allocation's type, and
a fresh local for each field and then for the descriptor. -/
def Struct2Local.make (types : TypeSection) (f : Function) (allocation : ExprId) :
    Struct2Local × Function :=
  let allocType := f.typeOf allocation
  let fields := match definedIndex allocType with
    | some i => fieldsOf types i
    | none => []
  let descType := match f.expr? allocation with
    | some (.structNew _ (some d)) => some (f.typeOf d)
    | _ => none
  let (f', localIndexes) := Builder.addVars f (fields.map Field.type ++ descType.toList)
  (⟨types, allocation, allocType, fields, descType, localIndexes⟩, f')

/-- `Struct2Local`: the function with the allocation turned into locals, and the interactions
updated for the replacements. -/
def struct2Local (types : TypeSection) (allocation : ExprId) (f : Function)
    (reached : Interactions) : Function × Interactions :=
  let (s2l, f) := Struct2Local.make types f allocation
  let r := walkBody s2l.visit f ⟨f, reached, false⟩
  (r.func, r.reached)

end BinaryenPasses.Heap2Local
