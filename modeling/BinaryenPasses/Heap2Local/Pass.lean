import BinaryenPasses.Heap2Local.Array2Struct

/-!
# `Heap2Local` on a function

The driver: it finds the allocations of the body (`AllocationFinder`), builds the local graph,
the parents and the branch targets once, and then analyses the allocations one by one against
those, arrays first: a non-escaping array is turned into a struct by `Array2Struct` and then
into locals by `Struct2Local`; a non-escaping struct by `Struct2Local` alone.  Each analysis
reads the function as the previous rewrites left it.

The local graph (`LazyLocalGraph`) is not in the source: it is the parameter that describes the
function the pass starts from.

* `Struct2Local.visit_arrayAtomic`, `Array2Struct.visit_arrayAtomic` — neither rewriter has a
  visit for `array.rmw` or `array.cmpxchg`, which the analysis lets an allocation reach;
* **`heap2Local_arrayRMW_traps`** — so an `array.rmw` on a small fixed array returns the old slot
  before the pass and traps after it, on the null that replaces the array;
* **`heap2Local_keeps_arrayRMW`** — the analysis records that `array.rmw` as consuming the
  allocation, yet it is still the body after the pass, its reference now yielding null;
* **`heap2Local_arrayCmpxchg_traps`** — the same for `array.cmpxchg`;
* **`heap2Local_cmpxchg_expected_exchanges`** — a `struct.cmpxchg` that the allocation reaches
  only as its expected value is kept with a null in that place, and now exchanges a null field.
-/

namespace BinaryenPasses.Heap2Local

open BinaryenPasses.IR

/-! ## Finding the allocations -/

/-- `AllocationFinder::isValidSize`: a fixed array size small enough for locals. -/
def isValidSize (size : Nat) : Bool := size < 20

/-- `AllocationFinder::isValidSize` of a size operand: a constant of a valid size. -/
def isValidSizeExpr (f : Function) (size : ExprId) : Bool :=
  match f.expr? size with
  | some (.const c) => isValidSize c.getUnsigned
  | _ => false

/-- The visits of `AllocationFinder`: reachable `struct.new`, and reachable array allocations of
a valid fixed size. -/
def findAllocation (f : Function) (acc : List ExprId × List ExprId) (curr : ExprId) :
    List ExprId × List ExprId :=
  let (structNews, arrayNews) := acc
  match f.get curr with
  | some ⟨.structNew .., type⟩ =>
    if type ≠ .unreachable then (structNews ++ [curr], arrayNews) else acc
  | some ⟨.arrayNew _ size, type⟩ =>
    if type ≠ .unreachable ∧ isValidSizeExpr f size then (structNews, arrayNews ++ [curr])
    else acc
  | some ⟨.arrayNewFixed values, type⟩ =>
    if type ≠ .unreachable ∧ isValidSize values.length then (structNews, arrayNews ++ [curr])
    else acc
  | _ => acc

/-- `AllocationFinder`: the struct allocations and the array allocations, in walk order. -/
def findAllocations (f : Function) : List ExprId × List ExprId :=
  walkBody (fun acc curr _ => findAllocation f acc curr) f ([], [])

/-- Modelled from the spec: `TypeUpdating::canHandleAsLocal` (`ir/type-updating.h`) is not in
the source.  A field can live in a local when its type is concrete. -/
def canHandleAsLocal (field : Field) : Bool := field.type.isConcrete

/-- `canHandleAsLocals`: every field of a struct type, or the element of an array type, can
live in a local. -/
def canHandleAsLocals (types : TypeSection) (type : Ty) : Bool :=
  if type = .unreachable then false else
  match (definedIndex type).bind (types[·]?) with
  | some (.struct fields _ _) => fields.all canHandleAsLocal
  | some (.array element _) => canHandleAsLocal element
  | none => false

/-! ## The driver -/

/-- What the driver builds once, before any rewrite. -/
structure Collaborators where
  localGraph : LocalGraph
  parents : Parents
  branchTargets : BranchTargets

/-- The analyzer of one allocation: the function as it is now, with the collaborators built
before any rewrite. -/
def Collaborators.analyzer (c : Collaborators) (types : TypeSection) (f : Function) : Analyzer :=
  ⟨f, types, c.localGraph, c.parents, c.branchTargets⟩

/-- One iteration of the array loop. -/
def optimizeArray (c : Collaborators) (acc : TypeSection × Function) (allocation : ExprId) :
    TypeSection × Function :=
  let (types, f) := acc
  if !canHandleAsLocals types (f.typeOf allocation) then acc else
  match escapes (c.analyzer types f) allocation with
  | (false, st) =>
    let (types, f, reached, structNew) := array2Struct types allocation f st.reachedInteractions
    (types, (struct2Local types structNew f reached).1)
  | (true, _) => acc

/-- One iteration of the struct loop. -/
def optimizeStruct (c : Collaborators) (acc : TypeSection × Function) (allocation : ExprId) :
    TypeSection × Function :=
  let (types, f) := acc
  if !canHandleAsLocals types (f.typeOf allocation) then acc else
  match escapes (c.analyzer types f) allocation with
  | (false, st) => (types, (struct2Local types allocation f st.reachedInteractions).1)
  | (true, _) => acc

/-- `Heap2Local::Heap2Local`: the module's types and the function after the pass. -/
def heap2Local (types : TypeSection) (localGraph : LocalGraph) (f : Function) :
    TypeSection × Function :=
  let c : Collaborators := ⟨localGraph, Parents.build f, BranchTargets.build f⟩
  let (structNews, arrayNews) := findAllocations f
  let acc := arrayNews.foldl (optimizeArray c) (types, f)
  structNews.foldl (optimizeStruct c) acc

/-! ## Array read-modify-writes -/

/-- `array.rmw` and `array.cmpxchg`: the array operations the analysis lets an allocation reach
and no rewriter visits. -/
def isArrayAtomic : Expr → Bool
  | .arrayRMW .. | .arrayCmpxchg .. => true
  | _ => false

/-- `Struct2Local` has no visit for `array.rmw` nor `array.cmpxchg`. -/
theorem Struct2Local.visit_arrayAtomic (s2l : Struct2Local) {r : Rewrite} {curr : ExprId}
    (parent : Option ExprId) {e : Expr} {type : Ty} (h : r.func.get curr = some ⟨e, type⟩)
    (he : isArrayAtomic e) : s2l.visit r curr parent = r := by
  cases e <;> simp_all [Struct2Local.visit, isArrayAtomic]

/-- Nor has `Array2Struct`. -/
theorem Array2Struct.visit_arrayAtomic (a2s : Array2Struct) (types : TypeSection) {r : Rewrite}
    {curr : ExprId} (parent : Option ExprId) {e : Expr} {type : Ty}
    (h : r.func.get curr = some ⟨e, type⟩) (he : isArrayAtomic e) :
    a2s.visit types r curr parent = r := by
  cases e <;> simp_all [Array2Struct.visit, isArrayAtomic]

/-- No function is called. -/
def noCalls : CallEnv := fun _ _ => none

/-- The local graph of a function with no `local.set`, whose gets all read a parameter. -/
def paramsLocalGraph : LocalGraph := ⟨fun _ => [], fun _ => [none]⟩

/-- `(array.rmw.add (array.new_fixed 1 (i32.const 0)) (i32.const 0) (i32.const 5))`: it adds 5
to the only slot and returns the old value, 0. -/
def arrayRMWFunction : Function :=
  ⟨[], [],
    [⟨.const (.i32 0), .i32⟩, ⟨.arrayNewFixed [0], .ref (.defined 0) false⟩,
     ⟨.const (.i32 0), .i32⟩, ⟨.const (.i32 5), .i32⟩, ⟨.arrayRMW .add 1 2 3, .i32⟩], 4⟩

/-- `Heap2Local` changes the meaning of `arrayRMWFunction`: it returns 0, and after the pass it
traps, its `array.rmw` now operating on the null that replaces the array. -/
theorem heap2Local_arrayRMW_traps :
    (run i32ArrayTypes noCalls arrayRMWFunction 20 [] [] []).1 = .normal (some (.i32 0)) ∧
    (run (heap2Local i32ArrayTypes paramsLocalGraph arrayRMWFunction).1 noCalls
      (heap2Local i32ArrayTypes paramsLocalGraph arrayRMWFunction).2 20 [] [] []).1 = .trap := by
  decide

/-- After `Heap2Local` the `array.rmw` that the analysis recorded as consuming the array is still
the body, and its reference operand now yields null. -/
theorem heap2Local_keeps_arrayRMW :
    (escapes (.ofFunction i32ArrayTypes paramsLocalGraph arrayRMWFunction) 1).1 = false ∧
    (escapes (.ofFunction i32ArrayTypes paramsLocalGraph arrayRMWFunction)
      1).2.reachedInteractions.get 4 = .fullyConsumes ∧
    (heap2Local i32ArrayTypes paramsLocalGraph arrayRMWFunction).2.body = 4 ∧
    ∃ ref, (heap2Local i32ArrayTypes paramsLocalGraph arrayRMWFunction).2.expr? 4 =
        some (.arrayRMW .add ref 2 3) ∧
      (eval (heap2Local i32ArrayTypes paramsLocalGraph arrayRMWFunction).1 noCalls
        (heap2Local i32ArrayTypes paramsLocalGraph arrayRMWFunction).2 10 ref
        ⟨[.i32 0, .i32 0], [], [], []⟩).1 = .normal (some .null) :=
  ⟨by decide, by decide, by decide, 10, by decide, by decide⟩

/-- A two-slot array of zeros (`array.new` with an initial value) whose slot 1 is exchanged for 7
by `array.cmpxchg` when it holds 0; the old value, 0, is returned. -/
def arrayCmpxchgFunction : Function :=
  ⟨[], [],
    [⟨.const (.i32 0), .i32⟩, ⟨.const (.i32 2), .i32⟩,
     ⟨.arrayNew (some 0) 1, .ref (.defined 0) false⟩, ⟨.const (.i32 1), .i32⟩,
     ⟨.const (.i32 0), .i32⟩, ⟨.const (.i32 7), .i32⟩, ⟨.arrayCmpxchg 2 3 4 5, .i32⟩], 6⟩

/-- `Array2Struct` then `Struct2Local` do not simulate `array.cmpxchg`: the original exchanges
slot 1 and returns 0, the rewritten function traps. -/
theorem heap2Local_arrayCmpxchg_traps :
    run i32ArrayTypes noCalls arrayCmpxchgFunction 20 [] [] [] =
      (.normal (some (.i32 0)), ⟨[], [], [⟨0, [.i32 0, .i32 7], none⟩], []⟩) ∧
    (run (heap2Local i32ArrayTypes paramsLocalGraph arrayCmpxchgFunction).1 noCalls
      (heap2Local i32ArrayTypes paramsLocalGraph arrayCmpxchgFunction).2 20 [] [] []).1 =
      .trap := by
  decide

/-- A struct type `$Holder` with one mutable nullable `eqref` field, and an empty struct type
`$E`. -/
def holderTypes : TypeSection :=
  [.struct [⟨.ref .eq true, .notPacked, true⟩] none none, .struct [] none none]

/-- With `$h` a `$Holder` parameter:
`(drop (struct.cmpxchg $Holder 0 (local.get $h) (struct.new $E) (struct.new $E)))` then
`(ref.is_null (struct.get $Holder 0 (local.get $h)))`.  The expected value is a fresh object,
which no field can hold, so the exchange never happens. -/
def cmpxchgExpectedFunction : Function :=
  ⟨[.ref (.defined 0) true], [],
    [⟨.localGet 0, .ref (.defined 0) true⟩, ⟨.structNew [] none, .ref (.defined 1) false⟩,
     ⟨.structNew [] none, .ref (.defined 1) false⟩, ⟨.structCmpxchg 0 0 1 2, .ref .eq true⟩,
     ⟨.drop 3, .none⟩, ⟨.localGet 0, .ref (.defined 0) true⟩,
     ⟨.structGet 0 5 false, .ref .eq true⟩, ⟨.refIsNull 6, .i32⟩, ⟨.block none [4, 7], .i32⟩], 8⟩

/-- When the allocation reaches only the expected operand of a `struct.cmpxchg`, `Struct2Local`
leaves the `struct.cmpxchg` with a null as expected value, which a null field equals: on a
holder whose field is null, the original leaves the field null and returns 1, the rewritten
function exchanges it and returns 0. -/
theorem heap2Local_cmpxchg_expected_exchanges :
    (run holderTypes noCalls cmpxchgExpectedFunction 20 [.ref 0] [] [⟨0, [.null], none⟩]).1 =
      .normal (some (.i32 1)) ∧
    (run (heap2Local holderTypes paramsLocalGraph cmpxchgExpectedFunction).1 noCalls
      (heap2Local holderTypes paramsLocalGraph cmpxchgExpectedFunction).2 20 [.ref 0] []
      [⟨0, [.null], none⟩]).1 = .normal (some (.i32 0)) := by
  decide

end BinaryenPasses.Heap2Local
