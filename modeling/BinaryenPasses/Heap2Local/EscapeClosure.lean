import BinaryenPasses.Heap2Local.EscapeLoop

/-!
# What `EscapeAnalyzer::escapes` decides

`escapes` answers a question about `Reached`, the least set of flows that holds the
allocation's flow to its parent and is closed under the three rules of `pushedFlows`, applied
to the flows whose parent consumes or forwards the allocation.  The allocation does not escape
exactly when every reached flow is consumed or forwarded and the gets the reached `local.set`s
influence read only from reached `local.set`s.  The loop has then yielded exactly the reached
flows, in whatever order its queue yields them, so that the sets it records are the reached
`local.set`s and the interactions it records are those of the reached expressions, each `Flows`
or `FullyConsumes`.

* `ClosureInv.step`, `closureInv_of_reaches` — along the loop, the flows a yielded flow pushes
  are queued or yielded, the recorded sets are the `local.set` parents of the yielded flows, and
  the recorded interactions are those of the expressions of the yielded flows;
* `ClosureInv.reached_mem` — once the queue is empty, every reached flow has been yielded;
* `getsAreExclusiveToSets_iff` — the final check, as a statement over the recorded sets;
* **`escapes_eq_false_iff`** — the characterisation, with the sets and the interactions the
  analysis leaves.
-/

namespace BinaryenPasses.Heap2Local

open BinaryenPasses.IR

/-! ## The reached expressions and sets -/

/-- A `local.set` that is the parent of a reached flow. -/
def ReachedSet (an : Analyzer) (allocation s : ExprId) : Prop :=
  isLocalSet an.func s = true ∧ ∃ child, Reached an allocation (child, some s)

/-- An expression of a reached flow: its child, or its parent. -/
def ReachedExpr (an : Analyzer) (allocation e : ExprId) : Prop :=
  ∃ child parent, Reached an allocation (child, parent) ∧ (e = child ∨ parent = some e)

/-- The gets the reached sets influence read only from reached sets, never from the local's
initial value. -/
def ExclusiveGets (an : Analyzer) (allocation : ExprId) : Prop :=
  ∀ s, ReachedSet an allocation s → ∀ g ∈ an.localGraph.getSetInfluences s,
    ∀ s' ∈ an.localGraph.getSets g, ∃ t, s' = some t ∧ ReachedSet an allocation t

/-- `getsAreExclusiveToSets`, as a statement over the sets it is given. -/
theorem getsAreExclusiveToSets_iff (lg : LocalGraph) (sets : List ExprId) :
    getsAreExclusiveToSets lg sets = true ↔
      ∀ s ∈ sets, ∀ g ∈ lg.getSetInfluences s, ∀ s' ∈ lg.getSets g,
        ∃ t, s' = some t ∧ t ∈ sets := by
  simp only [getsAreExclusiveToSets, List.all_eq_true, List.mem_flatMap]
  constructor
  · intro h s hs g hg s' hs'
    have := h g ⟨s, hs, hg⟩ s' hs'
    cases s' <;> simp_all
  · rintro h g ⟨s, hs, hg⟩ s' hs'
    obtain ⟨t, rfl, ht⟩ := h s hs g hg s' hs'
    simpa using ht

theorem mem_recordSet {an : Analyzer} {sets : List ExprId} {p t : ExprId} :
    t ∈ recordSet an sets p ↔ t ∈ sets ∨ (t = p ∧ isLocalSet an.func p = true) := by
  unfold recordSet
  split_ifs with h
  · simp [h.1]
  · refine ⟨Or.inl, ?_⟩
    rintro (ht | ⟨rfl, hl⟩)
    · exact ht
    · exact by_contra fun hn => h ⟨hl, hn⟩

theorem Interactions.mem_map_fst_set (m : Interactions) (k : ExprId) (i : ParentChildInteraction)
    (e : ExprId) : e ∈ (m.set k i).map Prod.fst ↔ e = k ∨ e ∈ m.map Prod.fst := by
  by_cases he : e = k
  · simp [Interactions.set, he]
  · simp [Interactions.set, he]

/-! ## The invariant of the loop -/

/-- What the loop's state records of the flows it has yielded: the allocation's flow is queued
or yielded, every flow a yielded flow pushes is queued or yielded, the recorded sets are the
`local.set` parents of the yielded flows, the recorded interactions are those of the yielded
flows' expressions, and each is `Flows` or `FullyConsumes`. -/
structure ClosureInv (an : Analyzer) (allocation : ExprId) (s : LoopState) : Prop where
  start_mem : (allocation, an.parents.getParent allocation) ∈ s.1.pending ∨
    (allocation, an.parents.getParent allocation) ∈ s.1.processed
  pushed_mem : ∀ child p, (child, some p) ∈ s.1.processed →
    ∀ y ∈ pushedFlows an child p (getParentChildInteraction an allocation (some p) child),
      y ∈ s.1.pending ∨ y ∈ s.1.processed
  sets_iff : ∀ t, t ∈ s.2.sets ↔
    isLocalSet an.func t = true ∧ ∃ child, (child, some t) ∈ s.1.processed
  domain_iff : ∀ e, e ∈ s.2.reachedInteractions.map Prod.fst ↔
    ∃ child parent, (child, parent) ∈ s.1.processed ∧ (e = child ∨ parent = some e)
  recorded : AllRecorded s.2.reachedInteractions

section Closure

variable {an : Analyzer} {allocation : ExprId}

theorem closureInv_start (an : Analyzer) (allocation : ExprId) :
    ClosureInv an allocation (escapesStart an allocation) where
  start_mem := Or.inl (List.mem_singleton_self _)
  pushed_mem := fun _ _ h => absurd h (List.not_mem_nil _)
  sets_iff := fun _ => by simp [escapesStart]
  domain_iff := fun _ => by simp [escapesStart]
  recorded := fun _ h => absurd h (List.not_mem_nil _)

/-- An iteration keeps every queued or yielded flow queued or yielded. -/
theorem LoopStep.queued_mono {s s' : LoopState} (h : LoopStep an allocation s s')
    {y : ChildAndParent} (hy : y ∈ s.1.pending ∨ y ∈ s.1.processed) :
    y ∈ s'.1.pending ∨ y ∈ s'.1.processed := by
  obtain ⟨child, p, rest, hq, -, h1, -⟩ := h.eq
  rw [h1, FlowQueue.mem_pushAll, FlowQueue.pushAll_processed]
  rw [hq] at hy
  rcases hy with hy | hy
  · rcases List.mem_cons.mp hy with rfl | hy
    · exact Or.inr (List.mem_cons_self _ _)
    · exact Or.inl (Or.inl hy)
  · exact Or.inr (List.mem_cons_of_mem _ hy)

theorem ClosureInv.step {s s' : LoopState} (hc : ClosureInv an allocation s)
    (h : LoopStep an allocation s s') : ClosureInv an allocation s' := by
  obtain ⟨child, p, rest, hq, hrec, h1, h2⟩ := h.eq
  have hproc : s'.1.processed = (child, some p) :: s.1.processed := by
    rw [h1, FlowQueue.pushAll_processed]
  refine ⟨h.queued_mono hc.start_mem, fun c q hx y hy => ?_, fun t => ?_, fun e => ?_, ?_⟩
  · rw [hproc] at hx
    rcases List.mem_cons.mp hx with hx | hx
    · simp only [Prod.mk.injEq, Option.some.injEq] at hx
      obtain ⟨rfl, rfl⟩ := hx
      by_cases hyp : y ∈ (c, some q) :: s.1.processed
      · exact Or.inr (hproc ▸ hyp)
      · exact Or.inl (by rw [h1, FlowQueue.mem_pushAll]; exact Or.inr ⟨hy, hyp⟩)
    · exact h.queued_mono (hc.pushed_mem c q hx y hy)
  · rw [h2, hproc, mem_recordSet, hc.sets_iff]
    simp only [List.mem_cons, Prod.mk.injEq, Option.some.injEq]
    constructor
    · rintro (⟨hl, c, hc⟩ | ⟨ht, hl⟩)
      · exact ⟨hl, c, Or.inr hc⟩
      · exact ⟨ht ▸ hl, child, Or.inl ⟨rfl, ht⟩⟩
    · rintro ⟨hl, c, ⟨-, ht⟩ | hc⟩
      · exact Or.inr ⟨ht, ht ▸ hl⟩
      · exact Or.inl ⟨hl, c, hc⟩
  · rw [h2, hproc]
    simp only [Interactions.mem_map_fst_set, hc.domain_iff, List.mem_cons, Prod.mk.injEq]
    constructor
    · rintro (he | he | ⟨c, par, hx, he⟩)
      · exact ⟨child, some p, Or.inl ⟨rfl, rfl⟩, Or.inr (he ▸ rfl)⟩
      · exact ⟨child, some p, Or.inl ⟨rfl, rfl⟩, Or.inl he⟩
      · exact ⟨c, par, Or.inr hx, he⟩
    · rintro ⟨c, par, ⟨hc, hpar⟩ | hx, he | he⟩
      · exact Or.inr (Or.inl (he.trans hc))
      · exact Or.inl (Option.some.inj (hpar ▸ he)).symm
      · exact Or.inr (Or.inr ⟨c, par, hx, Or.inl he⟩)
      · exact Or.inr (Or.inr ⟨c, par, hx, Or.inr he⟩)
  · rw [h2]
    exact (hc.recorded.set (Or.inl rfl)).set hrec

theorem closureInv_of_reaches {s : LoopState}
    (h : Relation.ReflTransGen (LoopStep an allocation) (escapesStart an allocation) s) :
    ClosureInv an allocation s := by
  induction h with
  | refl => exact closureInv_start an allocation
  | tail _ hstep ih => exact ih.step hstep

/-- Once the queue is empty, the loop has yielded every reached flow. -/
theorem ClosureInv.reached_mem {s : LoopState} (hc : ClosureInv an allocation s)
    (hdone : s.1.pending = []) {x : ChildAndParent} (h : Reached an allocation x) :
    x ∈ s.1.processed := by
  induction h with
  | start => simpa [hdone] using hc.start_mem
  | push _ _ hx ih => simpa [hdone] using hc.pushed_mem _ _ ih _ hx

/-- At the end of a run that empties the queue, the yielded flows are the reached flows. -/
theorem mem_processed_iff_reached {s : LoopState}
    (h : Relation.ReflTransGen (LoopStep an allocation) (escapesStart an allocation) s)
    (hdone : s.1.pending = []) (x : ChildAndParent) :
    x ∈ s.1.processed ↔ Reached an allocation x :=
  ⟨fun hx => ((loopInv_of_reaches h).processed_recorded x hx).1,
    (closureInv_of_reaches h).reached_mem hdone⟩

end Closure

theorem escapes_of_loop_none {an : Analyzer} {allocation : ExprId}
    (h : escapesLoop an allocation (escapesFuel an.func) (escapesStart an allocation).1
      (escapesStart an allocation).2 = none) :
    escapes an allocation = (true, ⟨[], []⟩) := by
  have h' : escapesLoop an allocation (escapesFuel an.func)
      ⟨[(allocation, an.parents.getParent allocation)], []⟩ ⟨[], []⟩ = none := h
  simp only [escapes, h']

theorem escapes_of_loop_some {an : Analyzer} {allocation : ExprId} {st : EscapeState}
    (h : escapesLoop an allocation (escapesFuel an.func) (escapesStart an allocation).1
      (escapesStart an allocation).2 = some st) :
    escapes an allocation = (!getsAreExclusiveToSets an.localGraph st.sets, st) := by
  have h' : escapesLoop an allocation (escapesFuel an.func)
      ⟨[(allocation, an.parents.getParent allocation)], []⟩ ⟨[], []⟩ = some st := h
  simp only [escapes, h']

/-- `EscapeAnalyzer::escapes`, for a function with its `Parents`, its local graph and its
branch targets, finds that the allocation does not escape exactly when every flow of `Reached`
is consumed or forwarded and the gets the reached `local.set`s influence read only from reached
`local.set`s; then the interactions it records cover exactly the reached expressions, none of
them `Escapes`, `Mixes` or `None`, and the sets it records are exactly the reached `local.set`s.
Neither side depends on the order in which the queue yields the flows. -/
theorem escapes_eq_false_iff (an : Analyzer) (allocation : ExprId)
    (hparents : an.parents = Parents.build an.func) :
    ((escapes an allocation).1 = false ↔
      (∀ x, Reached an allocation x → Recorded (flowInteraction an allocation x)) ∧
        ExclusiveGets an allocation) ∧
    ((escapes an allocation).1 = false →
      (∀ e, e ∈ (escapes an allocation).2.reachedInteractions.map Prod.fst ↔
        ReachedExpr an allocation e) ∧
      (∀ t, t ∈ (escapes an allocation).2.sets ↔ ReachedSet an allocation t) ∧
      AllRecorded (escapes an allocation).2.reachedInteractions) := by
  have hbound : (flowUniverse an.func).length < escapesFuel an.func +
      (escapesStart an allocation).1.processed.length := by
    have := Nat.mul_le_mul (Nat.le_add_right an.func.exprs.length 1)
      (Nat.le_add_right an.func.exprs.length 1)
    simp only [length_flowUniverse, escapesFuel, escapesStart_processed, List.length_nil]
    omega
  cases hloop : escapesLoop an allocation (escapesFuel an.func) (escapesStart an allocation).1
    (escapesStart an allocation).2 with
  | none =>
    rw [escapes_of_loop_none hloop]
    obtain ⟨s, hs, x, rest, hq, hx⟩ :=
      escapesLoop_eq_none hparents _ _ .refl hbound hloop
    have hreached := (loopInv_of_reaches hs).pending_reached x (hq ▸ List.mem_cons_self _ _)
    simp only [Bool.true_eq_false, false_iff, false_implies, and_true]
    exact fun ⟨hall, _⟩ => hx (hall x hreached)
  | some st =>
    rw [escapes_of_loop_some hloop]
    obtain ⟨s, hs, hdone, rfl⟩ := escapesLoop_eq_some _ _ _ hloop
    have hmem := mem_processed_iff_reached hs hdone
    have hc := closureInv_of_reaches hs
    have hsets : ∀ t, t ∈ s.2.sets ↔ ReachedSet an allocation t := fun t => by
      simp only [hc.sets_iff, hmem, ReachedSet]
    have hexcl : getsAreExclusiveToSets an.localGraph s.2.sets = true ↔
        ExclusiveGets an allocation := by
      simp only [getsAreExclusiveToSets_iff, hsets, ExclusiveGets]
    have hall : ∀ x, Reached an allocation x → Recorded (flowInteraction an allocation x) :=
      fun x hx => ((loopInv_of_reaches hs).processed_recorded x ((hmem x).mpr hx)).2
    refine ⟨⟨fun h => ⟨hall, hexcl.mp (by simpa using h)⟩, fun h => by simpa using hexcl.mpr h.2⟩,
      fun _ => ⟨fun e => ?_, hsets, hc.recorded⟩⟩
    simp only [hc.domain_iff, hmem, ReachedExpr]

/-- The analyzer of `nonConstIndexFunction` has its `Parents` built from the function: its
verdict is the characterisation. -/
theorem escapes_eq_false_iff_nonConstIndex :
    ((escapes (.ofFunction i32ArrayTypes nonConstIndexLocalGraph nonConstIndexFunction) 1).1 =
        false ↔
      (∀ x, Reached (.ofFunction i32ArrayTypes nonConstIndexLocalGraph nonConstIndexFunction) 1 x →
        Recorded (flowInteraction
          (.ofFunction i32ArrayTypes nonConstIndexLocalGraph nonConstIndexFunction) 1 x)) ∧
      ExclusiveGets (.ofFunction i32ArrayTypes nonConstIndexLocalGraph nonConstIndexFunction) 1) :=
  (escapes_eq_false_iff _ 1 rfl).1

end BinaryenPasses.Heap2Local
