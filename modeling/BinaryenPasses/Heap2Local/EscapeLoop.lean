import Mathlib.Data.List.Nodup
import Mathlib.Data.List.Perm.Subperm
import Mathlib.Data.List.ProdSigma
import Mathlib.Logic.Relation
import BinaryenPasses.Heap2Local.EscapeAnalyzer

/-!
# The worklist loop of `EscapeAnalyzer::escapes` terminates

The loop pops a flow `(child, parent)`, classifies it, and either stops (the queue is empty, or
the parent lets the allocation escape or mixes it) or pushes the flows `pushedFlows` lists and
goes on.  A cycle in the local graph (a `local.set` in a loop whose value is a `local.get` of the
same local) pushes the same flows again and again; the loop still stops, because the
`UniqueNonrepeatingDeferredQueue` never yields a flow twice, and a flow the loop goes on after
has its child and its parent among the function's expressions.

`LoopStep` is one iteration that goes on; `escapesLoop` runs iterations with fuel.  For an
analyzer whose `Parents` is built from its function:

* `Reached` — the flows the queue can hold: the allocation's flow to its parent, and what a
  consumed or forwarded flow pushes; `Reached.child_lt` — a reached flow with a parent has its
  child in the function;
* `LoopInv.step`, `loopInv_of_reaches` — at every iteration the queue holds no flow twice and no
  flow it has yielded, and every flow it has yielded was reached and consumed or forwarded;
* `LoopInv.processed_subset` — so the yielded flows lie in `flowUniverse`, the `n * n` flows
  between two of the `n` expressions;
* `escapesLoop_eq_some`, `escapesLoop_eq_none` — what the fuelled loop returns is where a run of
  iterations ends: an empty queue, or a flow the loop cannot go on after;
* **`escapesLoop_terminates`** — from the start of `escapes` the loop terminates (`Acc`), never
  yields a flow twice, goes on only after flows of `flowUniverse`, so that the number of those
  not yet yielded strictly decreases, and the fuel of `escapes` is enough: more gives the same.
-/

namespace BinaryenPasses.Heap2Local

open BinaryenPasses.IR

/-! ## The queue -/

namespace FlowQueue

theorem push_processed (q : FlowQueue) (x : ChildAndParent) :
    (q.push x).processed = q.processed := by
  unfold push; split <;> rfl

theorem mem_push (q : FlowQueue) (x y : ChildAndParent) :
    y ∈ (q.push x).pending ↔ y ∈ q.pending ∨ (y = x ∧ x ∉ q.processed) := by
  unfold push
  split
  · next hx => simp [hx]
  · next hx =>
    by_cases hy : y = x
    · simp [hy, hx]
    · simp [hy, List.mem_erase_of_ne hy]

theorem push_nodup {q : FlowQueue} (h : q.pending.Nodup) (x : ChildAndParent) :
    (q.push x).pending.Nodup := by
  unfold push
  split
  · exact h
  · exact List.nodup_append.mpr ⟨h.erase x, List.nodup_singleton x,
      fun a ha hb => h.not_mem_erase (List.mem_singleton.mp hb ▸ ha)⟩

theorem pushAll_processed (q : FlowQueue) (xs : List ChildAndParent) :
    (q.pushAll xs).processed = q.processed := by
  induction xs generalizing q with
  | nil => rfl
  | cons x xs ih => exact (ih (q.push x)).trans (push_processed q x)

/-- Pushing adds the flows not yet yielded, and keeps the pending ones. -/
theorem mem_pushAll (q : FlowQueue) (xs : List ChildAndParent) (y : ChildAndParent) :
    y ∈ (q.pushAll xs).pending ↔ y ∈ q.pending ∨ (y ∈ xs ∧ y ∉ q.processed) := by
  induction xs generalizing q with
  | nil => simp [pushAll]
  | cons x xs ih =>
    show y ∈ ((q.push x).pushAll xs).pending ↔ _
    rw [ih, mem_push, push_processed]
    by_cases hy : y = x
    · subst hy; tauto
    · simp [hy]

theorem pushAll_nodup {q : FlowQueue} (h : q.pending.Nodup) (xs : List ChildAndParent) :
    (q.pushAll xs).pending.Nodup := by
  induction xs generalizing q with
  | nil => exact h
  | cons x xs ih => exact ih (push_nodup h x)

end FlowQueue

/-! ## One iteration -/

/-- The state of the loop: the queue of flows, and what has been recorded. -/
abbrev LoopState := FlowQueue × EscapeState

/-- The state the loop of `escapes` starts from: the allocation's flow to its parent queued,
nothing recorded. -/
def escapesStart (an : Analyzer) (allocation : ExprId) : LoopState :=
  (⟨[(allocation, an.parents.getParent allocation)], []⟩, ⟨[], []⟩)

@[simp] theorem escapesStart_pending (an : Analyzer) (allocation : ExprId) :
    (escapesStart an allocation).1.pending = [(allocation, an.parents.getParent allocation)] :=
  rfl

@[simp] theorem escapesStart_processed (an : Analyzer) (allocation : ExprId) :
    (escapesStart an allocation).1.processed = [] := rfl

/-- How the parent of a flow treats the child that holds the allocation. -/
def flowInteraction (an : Analyzer) (allocation : ExprId) (x : ChildAndParent) :
    ParentChildInteraction :=
  getParentChildInteraction an allocation x.2 x.1

/-- One iteration of the loop that goes on: it pops the next flow, whose parent neither lets the
allocation escape nor mixes it, and `flowStep` pushes and records. -/
inductive LoopStep (an : Analyzer) (allocation : ExprId) : LoopState → LoopState → Prop
  | pop {s : LoopState} {child : ExprId} {parent : Option ExprId} {rest : List ChildAndParent}
      {next : LoopState} :
      s.1.pending = (child, parent) :: rest →
      flowStep an allocation ⟨rest, (child, parent) :: s.1.processed⟩ s.2 child parent =
        some next →
      LoopStep an allocation s next

section Loop

variable {an : Analyzer} {allocation : ExprId}

/-- An iteration stops the loop exactly when the flow's interaction is not recorded. -/
theorem flowStep_eq_none_iff {q : FlowQueue} {st : EscapeState} {child : ExprId}
    {parent : Option ExprId} :
    flowStep an allocation q st child parent = none ↔
      ¬Recorded (flowInteraction an allocation (child, parent)) := by
  obtain _ | p := parent
  · simp [flowStep, flowInteraction, getParentChildInteraction, Recorded]
  · have hne := getParentChildInteraction_ne_none an allocation (some p) child
    simp only [flowStep, flowInteraction]
    generalize getParentChildInteraction an allocation (some p) child = i at hne ⊢
    cases i <;> simp [Recorded] at hne ⊢

/-- What an iteration that goes on does: the flow it pops has a parent and is recorded, it
pushes `pushedFlows` and records the child and the parent. -/
theorem LoopStep.eq {s s' : LoopState} (h : LoopStep an allocation s s') :
    ∃ child p rest, s.1.pending = (child, some p) :: rest ∧
      Recorded (flowInteraction an allocation (child, some p)) ∧
      s'.1 = FlowQueue.pushAll ⟨rest, (child, some p) :: s.1.processed⟩
        (pushedFlows an child p (flowInteraction an allocation (child, some p))) ∧
      s'.2 = ⟨recordSet an s.2.sets p, (s.2.reachedInteractions.set child .flows).set p
        (flowInteraction an allocation (child, some p))⟩ := by
  obtain ⟨hq, hstep⟩ := h
  obtain ⟨p, rfl, hrec, h1, h2⟩ := flowStep_eq_some hstep
  exact ⟨_, p, _, hq, hrec, h1, h2⟩

/-- Each iteration that goes on yields one more flow. -/
theorem LoopStep.processed_eq {s s' : LoopState} (h : LoopStep an allocation s s') :
    ∃ x, s.1.pending.head? = some x ∧ s'.1.processed = x :: s.1.processed := by
  obtain ⟨child, p, _, hq, -, h1, -⟩ := h.eq
  exact ⟨(child, some p), by rw [hq]; rfl, by rw [h1, FlowQueue.pushAll_processed]⟩

theorem LoopStep.processed_length {s s' : LoopState} (h : LoopStep an allocation s s') :
    s'.1.processed.length = s.1.processed.length + 1 := by
  obtain ⟨x, -, hx⟩ := h.processed_eq
  rw [hx, List.length_cons]

theorem escapesLoop_done {s : LoopState} (h : s.1.pending = []) (fuel : Nat) :
    escapesLoop an allocation (fuel + 1) s.1 s.2 = some s.2 := by
  simp [escapesLoop, h]

theorem escapesLoop_stuck {s : LoopState} {child : ExprId} {parent : Option ExprId}
    {rest : List ChildAndParent} (h : s.1.pending = (child, parent) :: rest)
    (hstep : flowStep an allocation ⟨rest, (child, parent) :: s.1.processed⟩ s.2 child parent =
      none) (fuel : Nat) :
    escapesLoop an allocation (fuel + 1) s.1 s.2 = none := by
  simp [escapesLoop, h, hstep]

theorem escapesLoop_of_step {s s' : LoopState} (h : LoopStep an allocation s s') (fuel : Nat) :
    escapesLoop an allocation (fuel + 1) s.1 s.2 = escapesLoop an allocation fuel s'.1 s'.2 := by
  obtain ⟨hq, hstep⟩ := h
  simp [escapesLoop, hq, hstep]

/-- When the fuelled loop returns a state, a run of iterations reaches an empty queue with that
state. -/
theorem escapesLoop_eq_some : ∀ (fuel : Nat) (s : LoopState) (st : EscapeState),
    escapesLoop an allocation fuel s.1 s.2 = some st →
    ∃ s', Relation.ReflTransGen (LoopStep an allocation) s s' ∧ s'.1.pending = [] ∧ s'.2 = st
  | 0, _, _, h => by simp [escapesLoop] at h
  | fuel + 1, s, st, h => by
    rcases hq : s.1.pending with _ | ⟨⟨child, parent⟩, rest⟩
    · rw [escapesLoop_done hq] at h
      exact ⟨s, .refl, hq, Option.some.inj h⟩
    · cases hf : flowStep an allocation ⟨rest, (child, parent) :: s.1.processed⟩ s.2 child parent
      with
      | none => rw [escapesLoop_stuck hq hf] at h; cases h
      | some s' =>
        have hstep : LoopStep an allocation s s' := .pop hq hf
        rw [escapesLoop_of_step hstep] at h
        obtain ⟨s'', hrun, hend⟩ := escapesLoop_eq_some fuel s' st h
        exact ⟨s'', .head hstep hrun, hend⟩

end Loop

/-! ## The flows the queue can hold -/

/-- The flows the loop can be handed: the allocation's flow to its parent, and every flow a
reached flow whose parent consumes or forwards the allocation pushes. -/
inductive Reached (an : Analyzer) (allocation : ExprId) : ChildAndParent → Prop
  | start : Reached an allocation (allocation, an.parents.getParent allocation)
  | push {child p : ExprId} {x : ChildAndParent} :
      Reached an allocation (child, some p) →
      Recorded (getParentChildInteraction an allocation (some p) child) →
      x ∈ pushedFlows an child p (getParentChildInteraction an allocation (some p) child) →
      Reached an allocation x

/-- The three rules by which a flow pushes flows. -/
theorem mem_pushedFlows {an : Analyzer} {child p : ExprId} {i : ParentChildInteraction}
    {x : ChildAndParent} :
    x ∈ pushedFlows an child p i ↔
      (i = .flows ∧ x = (p, an.parents.getParent p)) ∨
      (isLocalSet an.func p = true ∧
        ∃ g ∈ an.localGraph.getSetInfluences p, (g, an.parents.getParent g) = x) ∨
      ∃ n ∈ branchesSentByParent an child p, (child, an.branchTargets.getTarget n) = x := by
  unfold pushedFlows
  split_ifs <;> simp [*]

/-! ## Parents built from the function -/

theorem expr?_isSome_of_mem_postOrderFrom (f : Function) :
    ∀ (fuel : Nat) (id : ExprId) (parent : Option ExprId) (x : ExprId × Option ExprId),
      x ∈ postOrderFrom f fuel id parent → (f.expr? x.1).isSome
  | 0, _, _, _, h => absurd h (List.not_mem_nil _)
  | fuel + 1, id, parent, x, h => by
    unfold postOrderFrom at h
    split at h
    · exact absurd h (List.not_mem_nil _)
    · next e he =>
      rcases List.mem_append.mp h with h | h
      · obtain ⟨l, hl, hx⟩ := List.mem_flatten.mp h
        obtain ⟨c, -, rfl⟩ := List.mem_map.mp hl
        exact expr?_isSome_of_mem_postOrderFrom f fuel c (some id) x hx
      · rw [List.mem_singleton.mp h, he]; rfl

/-- `Parents::getParent` knows only the function's expressions. -/
theorem getParent_build_lt {f : Function} {c p : ExprId}
    (h : (Parents.build f).getParent c = some p) : c < f.exprs.length := by
  obtain ⟨q, hq, -⟩ := Option.bind_eq_some.mp h
  have hc : q.1 = c := by simpa using List.find?_some hq
  have hs := expr?_isSome_of_mem_postOrderFrom f _ _ _ q (List.mem_of_find?_eq_some hq)
  rw [hc] at hs
  by_contra hlt
  simp [Function.expr?, Function.get, List.getElem?_eq_none (Nat.le_of_not_lt hlt)] at hs

/-- A recorded flow's parent is an expression of the function. -/
theorem lt_of_recorded {an : Analyzer} {allocation p child : ExprId}
    (h : Recorded (getParentChildInteraction an allocation (some p) child)) :
    p < an.func.exprs.length := by
  by_contra hp
  have hget : an.func.get p = none := List.getElem?_eq_none (Nat.le_of_not_lt hp)
  simp [getParentChildInteraction, hget, Recorded] at h

theorem Reached.child_lt {an : Analyzer} {allocation : ExprId}
    (hparents : an.parents = Parents.build an.func) {x : ChildAndParent}
    (h : Reached an allocation x) : ∀ p, x.2 = some p → x.1 < an.func.exprs.length := by
  induction h with
  | start => exact fun p hp => getParent_build_lt (hparents ▸ hp)
  | @push child p0 x _ hrec hx ih =>
    intro p hp
    rcases mem_pushedFlows.mp hx with ⟨-, rfl⟩ | ⟨-, g, -, rfl⟩ | ⟨n, -, rfl⟩
    · exact lt_of_recorded hrec
    · exact getParent_build_lt (hparents ▸ hp)
    · exact ih p0 rfl

/-! ## The invariant of the loop -/

/-- What holds at every iteration: the queue holds no flow twice and no flow it has yielded, the
flows it holds are reached, and the flows it has yielded were reached and consumed or
forwarded. -/
structure LoopInv (an : Analyzer) (allocation : ExprId) (s : LoopState) : Prop where
  pending_nodup : s.1.pending.Nodup
  processed_nodup : s.1.processed.Nodup
  pending_fresh : ∀ x ∈ s.1.pending, x ∉ s.1.processed
  pending_reached : ∀ x ∈ s.1.pending, Reached an allocation x
  processed_recorded :
    ∀ x ∈ s.1.processed, Reached an allocation x ∧ Recorded (flowInteraction an allocation x)

section Invariant

variable {an : Analyzer} {allocation : ExprId}

theorem loopInv_start (an : Analyzer) (allocation : ExprId) :
    LoopInv an allocation (escapesStart an allocation) where
  pending_nodup := List.nodup_singleton _
  processed_nodup := List.nodup_nil
  pending_fresh := fun _ _ h => absurd h (List.not_mem_nil _)
  pending_reached := fun _ hx => List.mem_singleton.mp hx ▸ .start
  processed_recorded := fun _ h => absurd h (List.not_mem_nil _)

theorem LoopInv.step {s s' : LoopState} (hinv : LoopInv an allocation s)
    (h : LoopStep an allocation s s') : LoopInv an allocation s' := by
  obtain ⟨child, p, rest, hq, hrec, h1, -⟩ := h.eq
  have hnd := hinv.pending_nodup
  rw [hq, List.nodup_cons] at hnd
  have hx : (child, some p) ∈ s.1.pending := hq ▸ List.mem_cons_self _ _
  have hrest : ∀ y ∈ rest, y ∈ s.1.pending := fun y hy => hq ▸ List.mem_cons_of_mem _ hy
  have hproc : s'.1.processed = (child, some p) :: s.1.processed := by
    rw [h1, FlowQueue.pushAll_processed]
  have hmem := fun y => (h1 ▸ FlowQueue.mem_pushAll _ _ y :
    y ∈ s'.1.pending ↔ y ∈ rest ∨ (y ∈ pushedFlows an child p
      (flowInteraction an allocation (child, some p)) ∧ y ∉ (child, some p) :: s.1.processed))
  constructor
  · rw [h1]; exact FlowQueue.pushAll_nodup hnd.2 _
  · rw [hproc]; exact List.nodup_cons.mpr ⟨hinv.pending_fresh _ hx, hinv.processed_nodup⟩
  · intro y hy
    rw [hproc]
    rcases (hmem y).mp hy with hy | ⟨-, hy⟩
    · exact List.not_mem_cons_of_ne_of_not_mem (fun he => hnd.1 (he ▸ hy))
        (hinv.pending_fresh y (hrest y hy))
    · exact hy
  · intro y hy
    rcases (hmem y).mp hy with hy | ⟨hy, -⟩
    · exact hinv.pending_reached y (hrest y hy)
    · exact .push (hinv.pending_reached _ hx) hrec hy
  · intro y hy
    rw [hproc] at hy
    rcases List.mem_cons.mp hy with rfl | hy
    · exact ⟨hinv.pending_reached _ hx, hrec⟩
    · exact hinv.processed_recorded y hy

/-- The invariant holds at every state a run of iterations reaches from the start. -/
theorem loopInv_of_reaches {s : LoopState}
    (h : Relation.ReflTransGen (LoopStep an allocation) (escapesStart an allocation) s) :
    LoopInv an allocation s := by
  induction h with
  | refl => exact loopInv_start an allocation
  | tail _ hstep ih => exact ih.step hstep

end Invariant

/-! ## Finitely many flows -/

/-- The flows between two expressions of a function: a child and a parent in the arena. -/
def flowUniverse (f : Function) : List ChildAndParent :=
  List.range f.exprs.length ×ˢ (List.range f.exprs.length).map some

theorem length_flowUniverse (f : Function) :
    (flowUniverse f).length = f.exprs.length * f.exprs.length := by
  simp [flowUniverse, List.length_product]

section Bound

variable {an : Analyzer} {allocation : ExprId} (hparents : an.parents = Parents.build an.func)
include hparents

/-- The flows the loop has gone on after are flows between two of the function's
expressions. -/
theorem LoopInv.processed_subset {s : LoopState} (hinv : LoopInv an allocation s) :
    s.1.processed ⊆ flowUniverse an.func := by
  rintro ⟨c, _ | p⟩ hx <;> obtain ⟨hreached, hrec⟩ := hinv.processed_recorded _ hx
  · simp [flowInteraction, getParentChildInteraction, Recorded] at hrec
  · simp [flowUniverse, lt_of_recorded hrec, hreached.child_lt hparents p rfl]

theorem LoopInv.processed_length_le {s : LoopState} (hinv : LoopInv an allocation s) :
    s.1.processed.length ≤ (flowUniverse an.func).length :=
  (hinv.processed_nodup.subperm (hinv.processed_subset hparents)).length_le

theorem processed_length_le_of_reaches {s : LoopState}
    (h : Relation.ReflTransGen (LoopStep an allocation) (escapesStart an allocation) s) :
    s.1.processed.length ≤ (flowUniverse an.func).length :=
  (loopInv_of_reaches h).processed_length_le hparents

/-- No infinite run: from a reachable state whose flows not yet yielded number at most `k`,
every run of iterations ends. -/
theorem acc_of_reaches (k : Nat) : ∀ s : LoopState,
    Relation.ReflTransGen (LoopStep an allocation) (escapesStart an allocation) s →
    (flowUniverse an.func).length - s.1.processed.length ≤ k →
    Acc (flip (LoopStep an allocation)) s := by
  induction k with
  | zero =>
    intro s hs hk
    refine Acc.intro s fun s' hstep => absurd hk ?_
    have := processed_length_le_of_reaches hparents (hs.tail hstep)
    have := hstep.processed_length
    omega
  | succ k ih =>
    intro s hs hk
    refine Acc.intro s fun s' hstep => ih s' (hs.tail hstep) ?_
    have := hstep.processed_length
    omega

/-- Fuel beyond the flows not yet yielded gives the loop's result, whatever the fuel. -/
theorem escapesLoop_fuel_eq : ∀ (fuel fuel' : Nat) (s : LoopState),
    Relation.ReflTransGen (LoopStep an allocation) (escapesStart an allocation) s →
    (flowUniverse an.func).length < fuel + s.1.processed.length →
    (flowUniverse an.func).length < fuel' + s.1.processed.length →
    escapesLoop an allocation fuel s.1 s.2 = escapesLoop an allocation fuel' s.1 s.2 := by
  intro fuel
  induction fuel with
  | zero => intro _ s hs h _; have := processed_length_le_of_reaches hparents hs; omega
  | succ fuel ih =>
    intro fuel' s hs h h'
    obtain _ | fuel' := fuel'
    · have := processed_length_le_of_reaches hparents hs; omega
    rcases hq : s.1.pending with _ | ⟨⟨child, parent⟩, rest⟩
    · rw [escapesLoop_done hq, escapesLoop_done hq]
    · cases hf : flowStep an allocation ⟨rest, (child, parent) :: s.1.processed⟩ s.2 child parent
      with
      | none => rw [escapesLoop_stuck hq hf, escapesLoop_stuck hq hf]
      | some s' =>
        have hstep : LoopStep an allocation s s' := .pop hq hf
        have := hstep.processed_length
        rw [escapesLoop_of_step hstep, escapesLoop_of_step hstep]
        exact ih fuel' s' (hs.tail hstep) (by omega) (by omega)

/-- With enough fuel, the loop returns `none` only at a flow it cannot go on after, which a run
of iterations reaches. -/
theorem escapesLoop_eq_none : ∀ (fuel : Nat) (s : LoopState),
    Relation.ReflTransGen (LoopStep an allocation) (escapesStart an allocation) s →
    (flowUniverse an.func).length < fuel + s.1.processed.length →
    escapesLoop an allocation fuel s.1 s.2 = none →
    ∃ s', Relation.ReflTransGen (LoopStep an allocation) s s' ∧
      ∃ x rest, s'.1.pending = x :: rest ∧ ¬Recorded (flowInteraction an allocation x) := by
  intro fuel
  induction fuel with
  | zero => intro s hs h _; have := processed_length_le_of_reaches hparents hs; omega
  | succ fuel ih =>
    intro s hs h hnone
    rcases hq : s.1.pending with _ | ⟨⟨child, parent⟩, rest⟩
    · rw [escapesLoop_done hq] at hnone; cases hnone
    · cases hf : flowStep an allocation ⟨rest, (child, parent) :: s.1.processed⟩ s.2 child parent
      with
      | none => exact ⟨s, .refl, _, rest, hq, flowStep_eq_none_iff.mp hf⟩
      | some s' =>
        have hstep : LoopStep an allocation s s' := .pop hq hf
        have := hstep.processed_length
        rw [escapesLoop_of_step hstep] at hnone
        obtain ⟨s'', hrun, hend⟩ := ih s' (hs.tail hstep) (by omega) hnone
        exact ⟨s'', .head hstep hrun, hend⟩

end Bound

/-- The loop of `escapes` terminates, for every function, allocation and local graph (cycles
included), with the function's `Parents`: no run of iterations from its start is infinite.  At
every iteration the queue never yields a flow it has yielded before, the flows the loop has gone
on after are flows between two of the function's expressions, and each iteration that goes on
lowers the number of those not yet yielded; the fuel `escapes` gives is enough, since more fuel
gives the same result. -/
theorem escapesLoop_terminates (an : Analyzer) (allocation : ExprId)
    (hparents : an.parents = Parents.build an.func) :
    Acc (flip (LoopStep an allocation)) (escapesStart an allocation) ∧
    (∀ s, Relation.ReflTransGen (LoopStep an allocation) (escapesStart an allocation) s →
      s.1.processed.Nodup ∧ (∀ x ∈ s.1.pending, x ∉ s.1.processed) ∧
      s.1.processed ⊆ flowUniverse an.func ∧
      ∀ s', LoopStep an allocation s s' →
        (flowUniverse an.func).length - s'.1.processed.length <
          (flowUniverse an.func).length - s.1.processed.length) ∧
    ∀ fuel, escapesFuel an.func ≤ fuel →
      escapesLoop an allocation fuel (escapesStart an allocation).1
          (escapesStart an allocation).2 =
        escapesLoop an allocation (escapesFuel an.func) (escapesStart an allocation).1
          (escapesStart an allocation).2 := by
  have hbound : (flowUniverse an.func).length < escapesFuel an.func := by
    have := Nat.mul_le_mul (Nat.le_add_right an.func.exprs.length 1)
      (Nat.le_add_right an.func.exprs.length 1)
    rw [length_flowUniverse, escapesFuel]
    omega
  refine ⟨acc_of_reaches hparents _ _ .refl le_rfl, fun s hs => ?_, fun fuel hfuel => ?_⟩
  · have hinv := loopInv_of_reaches hs
    refine ⟨hinv.processed_nodup, hinv.pending_fresh, hinv.processed_subset hparents,
      fun s' hstep => ?_⟩
    have := processed_length_le_of_reaches hparents (hs.tail hstep)
    have := hstep.processed_length
    omega
  · exact escapesLoop_fuel_eq hparents _ _ _ .refl (by simp; omega) (by simp; omega)

/-- The analyzer of `nonConstIndexFunction` has its `Parents` built from the function: the loop
of its analysis terminates. -/
theorem escapesLoop_terminates_nonConstIndex :
    Acc (flip (LoopStep (.ofFunction i32ArrayTypes nonConstIndexLocalGraph
      nonConstIndexFunction) 1))
      (escapesStart (.ofFunction i32ArrayTypes nonConstIndexLocalGraph nonConstIndexFunction) 1) :=
  (escapesLoop_terminates _ 1 rfl).1

end BinaryenPasses.Heap2Local
