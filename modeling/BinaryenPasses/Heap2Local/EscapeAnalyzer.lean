import BinaryenPasses.IR.Interpreter

/-!
# `EscapeAnalyzer`: does an allocation escape?

The analysis of `Heap2Local`.  From the allocation it follows the value upwards, pair by pair:
a worklist of `(child, parent)` flows in which the child is known to hold the allocation.  Each
parent is classified (`getParentChildInteraction`, whose `Checker` lists the expression classes
that can consume or forward a reference without leaking it); a parent that lets the value
escape, or mixes it with other values, ends the analysis.  A parent the value flows through is
followed to its own parent, a `local.set` to every `local.get` it influences, and a branch to
its target.  Once the worklist is empty, the gets the recorded sets influence must read only
from those sets (`getsAreExclusiveToSets`).

The collaborators are built once per function, before any rewrite: `Parents`, `BranchTargets`
and the local graph.  The local graph (`LazyLocalGraph`) is not in the source and is a
parameter: the gets a set may influence, and the sets (or the initial value, `none`) a get may
read.

* `escapesLoop_reached`, **`escapes_recorded`** — along the whole worklist loop, every recorded
  interaction is `Flows` or `FullyConsumes`: an `Escapes` or `Mixes` classification stops the
  loop before it is recorded;
* `escapes_arrayRMW_nonConstIndex` — an `array.rmw` with a non-constant index does not make an
  array allocation escape: the `Checker` accepts `array.rmw` and `array.cmpxchg` on their
  reference without the constant-index test it applies to `array.get` and `array.set`.
-/

namespace BinaryenPasses.Heap2Local

open BinaryenPasses.IR

/-- Interactions between a child and a parent with regard to the allocation. -/
inductive ParentChildInteraction
  | escapes
  | fullyConsumes
  | flows
  | mixes
  | none
  deriving DecidableEq, Repr

/-- `LazyLocalGraph`, as the analysis queries it. -/
structure LocalGraph where
  getSetInfluences : ExprId → List ExprId
  getSets : ExprId → List (Option ExprId)

/-- What the analysis reads: the function as it is now, its types, and the collaborators built
before any rewrite. -/
structure Analyzer where
  func : Function
  types : TypeSection
  localGraph : LocalGraph
  parents : Parents
  branchTargets : BranchTargets

/-- The analyzer of a function before any rewrite: the collaborators built from it. -/
def Analyzer.ofFunction (types : TypeSection) (localGraph : LocalGraph) (f : Function) :
    Analyzer :=
  ⟨f, types, localGraph, Parents.build f, BranchTargets.build f⟩

/-- The map from expressions to interactions; absence means `None`. -/
abbrev Interactions := List (ExprId × ParentChildInteraction)

/-- `reachedInteractions[e] = i`. -/
def Interactions.set (m : Interactions) (e : ExprId) (i : ParentChildInteraction) : Interactions :=
  (e, i) :: m.filter (fun p => p.1 ≠ e)

/-- `getInteraction`. -/
def Interactions.get (m : Interactions) (e : ExprId) : ParentChildInteraction :=
  ((m.find? (fun p => p.1 = e)).map Prod.snd).getD .none

/-- What the analysis leaves for the rewriters. -/
structure EscapeState where
  sets : List ExprId
  reachedInteractions : Interactions

/-! ## The checker -/

/-- Whether an expression is a `Const`. -/
def isConst (f : Function) (id : ExprId) : Bool :=
  match f.expr? id with
  | some (.const _) => true
  | _ => false

/-- `Checker`: `(escapes, fullyConsumes)` for a parent `curr`, given that `child` holds the
allocation.  Every class it does not list escapes. -/
def Checker.visit (an : Analyzer) (allocation child : ExprId) (curr : Expression) : Bool × Bool :=
  match curr.expr with
  | .block .. | .loop .. | .br .. | .switch .. | .localGet _ | .localSet .. => (false, false)
  | .drop _ | .refIsNull _ | .refEq .. | .refTest .. | .refGetDesc _ | .structGet .. => (false, true)
  | .refAs op _ => (op != .nonNull, false)
  | .refCast ref _ =>
    if ref = child then (false, !Ty.isSubType an.types (an.func.typeOf allocation) curr.type)
    else (false, true)
  | .structSet _ ref _ | .structRMW _ _ ref _ | .arrayRMW _ ref _ _ =>
    if ref = child then (false, true) else (true, false)
  | .structCmpxchg _ ref expected _ | .arrayCmpxchg ref _ expected _ =>
    if ref = child ∨ expected = child then (false, true) else (true, false)
  | .arraySet ref index _ =>
    if !isConst an.func index then (true, false)
    else if ref = child then (false, true) else (true, false)
  | .arrayGet _ index _ => if !isConst an.func index then (true, false) else (false, true)
  | _ => (true, false)

/-- The second test for mixing: `child` is the value of the only branch to `parent`, a block
whose last element is unreachable, so no value falls out of its end. -/
def soleBranchFlows (an : Analyzer) (child p : ExprId) (curr : Expression) : Bool :=
  match curr.expr.getDefinedName.map an.branchTargets.getBranches, curr.expr with
  | some [b], .block _ list =>
    (an.func.expr? b).bind Expr.getSentValue == some child &&
      an.func.typeOf (list.getLast?.getD p) == .unreachable
  | _, _ => false

/-- `getParentChildInteraction`. -/
def getParentChildInteraction (an : Analyzer) (allocation : ExprId) (parent : Option ExprId)
    (child : ExprId) : ParentChildInteraction :=
  match parent with
  | none => .escapes
  | some p =>
    match an.func.get p with
    | none => .escapes
    | some curr =>
      let (escapes, fullyConsumes) := Checker.visit an allocation child curr
      if escapes then .escapes
      else if fullyConsumes || !curr.type.isRef then .fullyConsumes
      else if getImmediateFallthrough an.func p = child then .flows
      else if soleBranchFlows an child p curr then .flows
      else .mixes

/-- `branchesSentByParent`: the labels to which `parent` sends `child`. -/
def branchesSentByParent (an : Analyzer) (child parent : ExprId) : List Name :=
  match an.func.expr? parent with
  | some e => (e.scopeNameUsesAndSentValues.filter fun u => u.2 = some child).map Prod.fst
  | none => []

/-! ## The worklist -/

/-- A flow from a child holding the allocation to its parent. -/
abbrev ChildAndParent := ExprId × Option ExprId

/-- Modelled from the spec: `UniqueNonrepeatingDeferredQueue` (`support/unique_deferring_queue.h`)
is not in the source.  A queue of flows that never yields an item twice: pushing an item already
yielded does nothing, pushing one still pending moves it to the back. -/
structure FlowQueue where
  pending : List ChildAndParent
  processed : List ChildAndParent

def FlowQueue.push (q : FlowQueue) (x : ChildAndParent) : FlowQueue :=
  if x ∈ q.processed then q else { q with pending := q.pending.erase x ++ [x] }

def FlowQueue.pushAll (q : FlowQueue) (xs : List ChildAndParent) : FlowQueue :=
  xs.foldl FlowQueue.push q

/-- `getsAreExclusiveToSets`: every get a recorded set influences reads only recorded sets
(never the initial value). -/
def getsAreExclusiveToSets (lg : LocalGraph) (sets : List ExprId) : Bool :=
  (sets.flatMap lg.getSetInfluences).all fun get =>
    (lg.getSets get).all fun s => match s with
      | some s => sets.contains s
      | none => false

/-- Whether an expression is a `local.set` (or `local.tee`). -/
def isLocalSet (f : Function) (id : ExprId) : Bool :=
  match f.expr? id with
  | some (.localSet ..) => true
  | _ => false

/-- The flows one iteration pushes, in the order of the source: the grandparent when the value
flows through, the gets a `local.set` influences, the targets of the branches that send it. -/
def pushedFlows (an : Analyzer) (child p : ExprId) (interaction : ParentChildInteraction) :
    List ChildAndParent :=
  (if interaction = .flows then [(p, an.parents.getParent p)] else []) ++
  (if isLocalSet an.func p then
    (an.localGraph.getSetInfluences p).map fun g => (g, an.parents.getParent g) else []) ++
  (branchesSentByParent an child p).map fun n => (child, an.branchTargets.getTarget n)

/-- `sets.insert(set)` when the parent is a `local.set`. -/
def recordSet (an : Analyzer) (sets : List ExprId) (p : ExprId) : List ExprId :=
  if isLocalSet an.func p ∧ p ∉ sets then sets ++ [p] else sets

/-- One iteration of the loop of `escapes` on the flow `(child, parent)`: `none` when the
parent lets the allocation escape or mixes it, else the new queue and state. -/
def flowStep (an : Analyzer) (allocation : ExprId) (q : FlowQueue) (st : EscapeState)
    (child : ExprId) (parent : Option ExprId) : Option (FlowQueue × EscapeState) :=
  match parent with
  | none => none
  | some p =>
    let interaction := getParentChildInteraction an allocation (some p) child
    if interaction = .escapes ∨ interaction = .mixes then none else
    some (q.pushAll (pushedFlows an child p interaction),
      { sets := recordSet an st.sets p,
        reachedInteractions := (st.reachedInteractions.set child .flows).set p interaction })

/-- The `while` loop of `escapes`, with fuel; `none` means the allocation escapes. -/
def escapesLoop (an : Analyzer) (allocation : ExprId) :
    Nat → FlowQueue → EscapeState → Option EscapeState
  | 0, _, _ => none
  | fuel + 1, q, st =>
    match q.pending with
    | [] => some st
    | (child, parent) :: rest =>
      match flowStep an allocation ⟨rest, (child, parent) :: q.processed⟩ st child parent with
      | none => none
      | some (q, st) => escapesLoop an allocation fuel q st

/-- Enough iterations for every flow between two expressions of the function. -/
def escapesFuel (f : Function) : Nat := (f.exprs.length + 1) * (f.exprs.length + 1) + 1

/-- `EscapeAnalyzer::escapes`: whether the allocation escapes, with the sets and interactions
recorded along the way. -/
def escapes (an : Analyzer) (allocation : ExprId) : Bool × EscapeState :=
  let q : FlowQueue := ⟨[(allocation, an.parents.getParent allocation)], []⟩
  match escapesLoop an allocation (escapesFuel an.func) q ⟨[], []⟩ with
  | none => (true, ⟨[], []⟩)
  | some st => (!getsAreExclusiveToSets an.localGraph st.sets, st)

/-! ## What the loop records -/

/-- An interaction the rewriters may act on: the value flows through, or is consumed. -/
def Recorded (i : ParentChildInteraction) : Prop := i = .flows ∨ i = .fullyConsumes

theorem Interactions.get_set (m : Interactions) (e : ExprId) (i : ParentChildInteraction)
    (x : ExprId) : (m.set e i).get x = if x = e then i else m.get x := by
  unfold Interactions.set Interactions.get
  by_cases h : x = e
  · subst h; simp
  · have hp : (fun p : ExprId × ParentChildInteraction => !decide (p.1 = e) && decide (p.1 = x)) =
        fun p => decide (p.1 = x) := by
      funext p; by_cases hx : p.1 = x <;> simp [hx, h]
    simp [List.find?_cons, Ne.symm h, h, hp]

/-- Every interaction of the map is one the rewriters act on. -/
def AllRecorded (m : Interactions) : Prop := ∀ p ∈ m, Recorded p.2

theorem getParentChildInteraction_ne_none (an : Analyzer) (allocation : ExprId)
    (parent : Option ExprId) (child : ExprId) :
    getParentChildInteraction an allocation parent child ≠ .none := by
  unfold getParentChildInteraction
  repeat' split
  all_goals simp_all

theorem AllRecorded.set {m : Interactions} (hm : AllRecorded m) {e : ExprId}
    {i : ParentChildInteraction} (hi : Recorded i) : AllRecorded (m.set e i) := by
  intro p hp
  simp only [Interactions.set, List.mem_cons, List.mem_filter] at hp
  rcases hp with rfl | ⟨hp, _⟩
  · exact hi
  · exact hm p hp

/-- What one iteration can do: it classifies a flow with a parent as `Flows` or
`FullyConsumes`, pushes `pushedFlows`, and records the child as `Flows` and the parent with its
interaction. -/
theorem flowStep_eq_some {an : Analyzer} {allocation : ExprId} {q q' : FlowQueue}
    {st st' : EscapeState} {child : ExprId} {parent : Option ExprId}
    (h : flowStep an allocation q st child parent = some (q', st')) :
    ∃ p, parent = some p ∧ Recorded (getParentChildInteraction an allocation (some p) child) ∧
      q' = q.pushAll (pushedFlows an child p (getParentChildInteraction an allocation (some p) child)) ∧
      st' = ⟨recordSet an st.sets p, (st.reachedInteractions.set child .flows).set p
        (getParentChildInteraction an allocation (some p) child)⟩ := by
  obtain _ | p := parent
  · simp [flowStep] at h
  simp only [flowStep] at h
  split_ifs at h with hesc
  obtain ⟨rfl, rfl⟩ := Prod.mk.inj (Option.some.inj h)
  refine ⟨p, rfl, ?_, rfl, rfl⟩
  have := getParentChildInteraction_ne_none an allocation (some p) child
  revert hesc this
  cases getParentChildInteraction an allocation (some p) child <;> simp [Recorded]

/-- One iteration records only `Flows` and `FullyConsumes`. -/
theorem flowStep_recorded {an : Analyzer} {allocation : ExprId} {q q' : FlowQueue}
    {st st' : EscapeState} {child : ExprId} {parent : Option ExprId}
    (h : flowStep an allocation q st child parent = some (q', st'))
    (hst : AllRecorded st.reachedInteractions) : AllRecorded st'.reachedInteractions := by
  obtain ⟨p, -, hrec, -, rfl⟩ := flowStep_eq_some h
  exact (hst.set (Or.inl rfl)).set hrec

/-- `escapesLoop_reached`: the whole loop records only `Flows` and `FullyConsumes`. -/
theorem escapesLoop_reached {an : Analyzer} {allocation : ExprId} :
    ∀ (fuel : Nat) (q : FlowQueue) (st st' : EscapeState),
    escapesLoop an allocation fuel q st = some st' →
    AllRecorded st.reachedInteractions → AllRecorded st'.reachedInteractions := by
  intro fuel
  induction fuel with
  | zero => intro q st st' h; simp [escapesLoop] at h
  | succ fuel ih =>
    intro q st st' h hst
    simp only [escapesLoop] at h
    split at h
    · cases h; exact hst
    · split at h
      · cases h
      · next q'' st'' hstep => exact ih _ _ _ h (flowStep_recorded hstep hst)

/-- `EscapeAnalyzer::escapes` records only `Flows` and `FullyConsumes`, whatever the function,
its local graph and the allocation. -/
theorem escapes_recorded (an : Analyzer) (allocation : ExprId) :
    AllRecorded (escapes an allocation).2.reachedInteractions := by
  have hnil : AllRecorded [] := fun _ h => absurd h (List.not_mem_nil _)
  unfold escapes
  dsimp only
  split
  · exact hnil
  · next st h => exact escapesLoop_reached _ _ _ _ h hnil

/-! ## Read-modify-write on arrays -/

/-- The `Checker` lets an allocation reach an `array.rmw` as its reference whatever the index:
the interaction is `FullyConsumes`, with no test that the index is a constant. -/
theorem getParentChildInteraction_arrayRMW {an : Analyzer} {allocation p child : ExprId}
    {op : RMWOp} {index value : ExprId} {type : Ty}
    (hp : an.func.get p = some ⟨.arrayRMW op child index value, type⟩) :
    getParentChildInteraction an allocation (some p) child = .fullyConsumes := by
  simp [getParentChildInteraction, hp, Checker.visit]

/-- The same for `array.cmpxchg`, reached as its reference or as its expected value. -/
theorem getParentChildInteraction_arrayCmpxchg {an : Analyzer} {allocation p child : ExprId}
    {ref index expected replacement : ExprId} {type : Ty}
    (hp : an.func.get p = some ⟨.arrayCmpxchg ref index expected replacement, type⟩)
    (hchild : ref = child ∨ expected = child) :
    getParentChildInteraction an allocation (some p) child = .fullyConsumes := by
  simp [getParentChildInteraction, hp, Checker.visit, hchild]

/-- A one-slot array of `i32`, mutable. -/
def i32ArrayTypes : TypeSection := [.array ⟨.i32, .notPacked, true⟩ none]

/-- `(array.rmw.add (array.new_fixed 1 (i32.const 0)) (local.get 0) (i32.const 5))`: the index
is the parameter. -/
def nonConstIndexFunction : Function :=
  ⟨[.i32], [],
    [⟨.const (.i32 0), .i32⟩, ⟨.arrayNewFixed [0], .ref (.defined 0) false⟩, ⟨.localGet 0, .i32⟩,
     ⟨.const (.i32 5), .i32⟩, ⟨.arrayRMW .add 1 2 3, .i32⟩], 4⟩

/-- The local graph of `nonConstIndexFunction`: the get reads the parameter's initial value. -/
def nonConstIndexLocalGraph : LocalGraph :=
  ⟨fun _ => [], fun g => if g = 2 then [none] else []⟩

/-- The analysis of `nonConstIndexFunction` finds that the array does not escape, though the
`array.rmw` it reaches has an index that is not a constant. -/
theorem escapes_arrayRMW_nonConstIndex :
    isConst nonConstIndexFunction 2 = false ∧
    (escapes (.ofFunction i32ArrayTypes nonConstIndexLocalGraph nonConstIndexFunction) 1).1 =
      false ∧
    (escapes (.ofFunction i32ArrayTypes nonConstIndexLocalGraph nonConstIndexFunction)
      1).2.reachedInteractions.get 4 = .fullyConsumes := by
  decide

end BinaryenPasses.Heap2Local
