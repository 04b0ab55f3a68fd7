import Mathlib.Data.List.Sort

/-!
# The outlining reconstructor: `ReconstructStringifyWalker` as a state machine

Outlining walks each function in *stringified* order: after the function-start symbol, the walk
is a flat list of events, each either a unique separator symbol (the start of a block, if, else,
loop, try, catch, catch-all or try-table scope, or an end) or one shallow expression.
`ReconstructStringifyWalker` consumes that list while holding two IR builders: `existingBuilder`,
which rebuilds the function itself, and `outlinedBuilder`, which builds the body of the outlined
callee.  An instruction counter and a sequence counter decide, event by event, which builder an
expression goes to.

This file is a faithful transcription of the walker (`addUniqueSymbol`, `visitExpression`,
`startExistingFunction`, `getCurrState`, `maybeBeginSeq`, `transitionToInSeq`,
`transitionToInSkipSeq`, `maybeEndSeq`, `transitionToNotInSeq`) over an explicit state record.
The builders are modelled by the list of calls each one receives; the only effect of a builder
on the module that the walker reads back is the callee body installed by the outlined builder's
`visitEnd`, kept here as `hasBody`.

## Routing

The reference output is `expectedExisting`/`expectedOutlined`: every event outside all ranges is
sent to the existing builder in order, each range is replaced there by a call (and an
`unreachable` when the sequence ends with an unreachable-typed expression), and the range itself
goes to the outlined builder, framed by the callee's start, one `local.get` per parameter and an
end, exactly when the callee has no body yet.

* `walk_outside` — a stretch of events before the next sequence is copied to `existingBuilder`;
* `walk_range` — the events of one sequence produce the call and, for a first occurrence, the
  callee body, and leave the walker between sequences again;
* **`reconstruct_routes`** — for every event list and every list of sequences that is sorted,
  pairwise disjoint, inside `[1, n+1)` and free of separators, the walker's two builders receive
  exactly the reference calls and the sequence counter ends at the number of sequences.

The 32-bit `instrCounter` is a `Nat` here: a function has fewer than `2^32` stringified
positions, so the counter never wraps.
-/

namespace BinaryenPasses.Outlining.Reconstruct

/-- Function names. -/
abbrev Name := String

/-- The separator symbols the walker receives after the function start. -/
inductive SeparatorReason
  | blockStart
  | ifStart
  | elseStart
  | loopStart
  | tryStart
  | catchStart
  | catchAllStart
  | tryTableStart
  | scopeEnd
  deriving DecidableEq, Repr

/-- One position of the stringified walk: a separator or a shallow expression. -/
inductive Event (E : Type)
  | symbol (reason : SeparatorReason)
  | expr (e : E)
  deriving DecidableEq, Repr

/-- The calls an `IRBuilder` receives from the walker.  `symbol` stands for the scope call of a
separator (`visitBlockStart`, `pushSynthetic` and `visitIfStart`, `visitElse`, ...; for an end,
`visitEnd`, `setFunction` and `build`); `visit` for `visit`, `visitBreakWithType` and
`visitSwitchWithType`. -/
inductive BuilderOp (E : Type)
  | build
  | funcStart (func : Name)
  | symbol (reason : SeparatorReason)
  | visit (e : E)
  | call (func : Name)
  | unreachable
  | localGet (index : Nat)
  | visitEnd
  deriving DecidableEq, Repr

/-- `OutliningSequence`: a function-relative range `[startIdx, endIdx)` to be replaced by a call
to `func`. -/
structure OutliningSequence where
  startIdx : Nat
  endIdx : Nat
  func : Name
  endsTypeUnreachable : Bool
  deriving DecidableEq, Repr

/-- The three states of the walker. -/
inductive ReconstructState
  | notInSeq
  | inSeq
  | inSkipSeq
  deriving DecidableEq, Repr

/-- The walker's state: its own fields, the two builders, and the part of the module it reads
(whether a function has a body, and a callee's parameter count). -/
structure Walker (E : Type) where
  state : ReconstructState
  sequences : List OutliningSequence
  seqCounter : Nat
  instrCounter : Nat
  existingBuilder : List (BuilderOp E)
  outlinedBuilder : List (BuilderOp E)
  hasBody : Name → Bool
  numParams : Name → Nat

variable {E : Type}

namespace Walker

/-- `getCurrState`: inside the current sequence's range the walker outlines, or skips when the
callee already has a body. -/
def getCurrState (w : Walker E) : ReconstructState :=
  match w.sequences[w.seqCounter]? with
  | some s =>
    if s.startIdx ≤ w.instrCounter ∧ w.instrCounter < s.endIdx then
      if w.hasBody s.func then .inSkipSeq else .inSeq
    else .notInSeq
  | none => .notInSeq

/-- The call that replaces a sequence in the existing function, with the `unreachable` that
keeps an unreachable-typed tail. -/
def callOps (s : OutliningSequence) : List (BuilderOp E) :=
  .call s.func :: if s.endsTypeUnreachable then [.unreachable] else []

/-- The callee's prologue: its start and one `local.get` per parameter. -/
def calleeStart (s : OutliningSequence) (params : Nat) : List (BuilderOp E) :=
  .funcStart s.func :: (List.range params).map .localGet

/-- `transitionToInSeq`. -/
def transitionToInSeq (w : Walker E) (s : OutliningSequence) : Walker E :=
  { w with
    existingBuilder := w.existingBuilder ++ callOps s
    outlinedBuilder := w.outlinedBuilder ++ calleeStart s (w.numParams s.func) }

/-- `transitionToInSkipSeq`. -/
def transitionToInSkipSeq (w : Walker E) (s : OutliningSequence) : Walker E :=
  { w with existingBuilder := w.existingBuilder ++ callOps s }

/-- `maybeBeginSeq`: count the expression, then enter a sequence if its range starts here. -/
def maybeBeginSeq (w : Walker E) : Walker E :=
  let w := { w with instrCounter := w.instrCounter + 1 }
  let currState := w.getCurrState
  let w :=
    if currState = w.state then w
    else match currState, w.sequences[w.seqCounter]? with
      | .inSeq, some s => w.transitionToInSeq s
      | .inSkipSeq, some s => w.transitionToInSkipSeq s
      | _, _ => w
  { w with state := currState }

/-- `transitionToNotInSeq`: the outlined builder's `visitEnd` installs the callee's body. -/
def transitionToNotInSeq (w : Walker E) (s : OutliningSequence) : Walker E :=
  let w :=
    if w.state = .inSeq then
      { w with
        outlinedBuilder := w.outlinedBuilder ++ [.visitEnd]
        hasBody := Function.update w.hasBody s.func true }
    else w
  { w with seqCounter := w.seqCounter + 1 }

/-- `maybeEndSeq`: the sequence ends after its last expression, at `endIdx - 1`. -/
def maybeEndSeq (w : Walker E) : Walker E :=
  match w.sequences[w.seqCounter]? with
  | some s =>
    if w.instrCounter + 1 = s.endIdx then
      { w.transitionToNotInSeq s with state := .notInSeq }
    else w
  | none => w

/-- `visitExpression`. -/
def visitExpression (w : Walker E) (e : E) : Walker E :=
  let w := w.maybeBeginSeq
  let w :=
    match w.state with
    | .inSeq => { w with outlinedBuilder := w.outlinedBuilder ++ [.visit e] }
    | .notInSeq => { w with existingBuilder := w.existingBuilder ++ [.visit e] }
    | .inSkipSeq => w
  if w.state = .inSeq ∨ w.state = .inSkipSeq then w.maybeEndSeq else w

/-- `addUniqueSymbol` for every separator but the function start. -/
def addUniqueSymbol (w : Walker E) (r : SeparatorReason) : Walker E :=
  { w with
    instrCounter := w.instrCounter + 1
    existingBuilder := w.existingBuilder ++ [.symbol r] }

/-- One event of the walk. -/
def step (w : Walker E) : Event E → Walker E
  | .symbol r => w.addUniqueSymbol r
  | .expr e => w.visitExpression e

/-- `startExistingFunction`: build what is pending, start the function, reset the counters. -/
def startExistingFunction (w : Walker E) (func : Name) : Walker E :=
  { w with
    existingBuilder := w.existingBuilder ++ [.build, .funcStart func]
    instrCounter := 0
    seqCounter := 0
    state := .notInSeq }

end Walker

/-- A fresh walker for one function, as `Outlining::outline` creates it. -/
def Walker.init (sequences : List OutliningSequence) (hasBody : Name → Bool)
    (numParams : Name → Nat) : Walker E :=
  { state := .notInSeq, sequences, seqCounter := 0, instrCounter := 0,
    existingBuilder := [], outlinedBuilder := [], hasBody, numParams }

/-- The walk of one function: its start, then every event in stringified order. -/
def reconstruct (func : Name) (sequences : List OutliningSequence) (hasBody : Name → Bool)
    (numParams : Name → Nat) (events : List (Event E)) : Walker E :=
  events.foldl Walker.step ((Walker.init sequences hasBody numParams).startExistingFunction func)

/-! ## The reference routing -/

/-- What an event sends to the existing builder when it lies outside every sequence; for an
expression inside a range it is also what the outlined builder receives. -/
def Event.existingOp : Event E → BuilderOp E
  | .symbol r => .symbol r
  | .expr e => .visit e

/-- The events at the 1-based positions `[a, b)`. -/
def slice (events : List (Event E)) (a b : Nat) : List (Event E) :=
  (events.drop (a - 1)).take (b - a)

/-- The existing builder's calls after the function start, from position `pos` on, with `seqs`
the sequences not yet reached. -/
def expectedExisting (events : List (Event E)) : Nat → List OutliningSequence → List (BuilderOp E)
  | pos, [] => (events.drop (pos - 1)).map Event.existingOp
  | pos, s :: ss =>
    (slice events pos s.startIdx).map Event.existingOp ++ Walker.callOps s ++
      expectedExisting events s.endIdx ss

/-- The outlined builder's calls: one framed callee body per sequence whose callee has no body
when the walk reaches it. -/
def expectedOutlined (events : List (Event E)) (numParams : Name → Nat) :
    (Name → Bool) → List OutliningSequence → List (BuilderOp E)
  | _, [] => []
  | hasBody, s :: ss =>
    (if hasBody s.func then []
     else Walker.calleeStart s (numParams s.func) ++
       (slice events s.startIdx s.endIdx).map Event.existingOp ++ [.visitEnd]) ++
      expectedOutlined events numParams (Function.update hasBody s.func true) ss

/-- The bodies installed once every sequence has been walked. -/
def installedBodies (hasBody : Name → Bool) (seqs : List OutliningSequence) : Name → Bool :=
  seqs.foldl (fun h s => Function.update h s.func true) hasBody

/-- The hypotheses on the sequences of a function whose walk has the events `events`: sorted by
start, pairwise disjoint, inside `[1, n + 1)`, and made of expressions only. -/
structure ValidSequences (events : List (Event E)) (seqs : List OutliningSequence) : Prop where
  sorted : seqs.Sorted (fun a b => a.startIdx ≤ b.startIdx)
  disjoint : seqs.Pairwise (fun a b => a.endIdx ≤ b.startIdx ∨ b.endIdx ≤ a.startIdx)
  bounds : ∀ s ∈ seqs, 1 ≤ s.startIdx ∧ s.startIdx < s.endIdx ∧ s.endIdx ≤ events.length + 1
  onlyExprs : ∀ s ∈ seqs, ∀ i, s.startIdx ≤ i → i < s.endIdx → ∃ e, events[i - 1]? = some (.expr e)

/-! ## One event at a time -/

namespace Walker

/-- The state of a walker inside a sequence whose callee has a body exactly when `b`. -/
def seqState (b : Bool) : ReconstructState := if b then .inSkipSeq else .inSeq

/-- What the outlined builder receives from a range: nothing when the callee has a body. -/
def outlinedOps (b : Bool) (ops : List (BuilderOp E)) : List (BuilderOp E) := if b then [] else ops

theorem outlinedOps_append (b : Bool) (xs ys : List (BuilderOp E)) :
    outlinedOps b (xs ++ ys) = outlinedOps b xs ++ outlinedOps b ys := by
  cases b <;> simp [outlinedOps]

/-- Outside every range an event goes to the existing builder and only the counter moves. -/
theorem step_outside (w : Walker E) (ev : Event E) (hstate : w.state = .notInSeq)
    (hnext : ∀ s, w.sequences[w.seqCounter]? = some s → w.instrCounter + 1 < s.startIdx) :
    w.step ev = { w with instrCounter := w.instrCounter + 1,
                         existingBuilder := w.existingBuilder ++ [ev.existingOp] } := by
  obtain ⟨st, seqs, k, c, ex, out, hb, np⟩ := w
  simp only at hstate hnext
  subst hstate
  cases ev with
  | symbol r => rfl
  | expr e =>
    cases hk : seqs[k]? with
    | none => simp [step, visitExpression, maybeBeginSeq, getCurrState, hk, Event.existingOp]
    | some s =>
      have h1 : ¬ s.startIdx ≤ c + 1 := by have := hnext s hk; omega
      simp [step, visitExpression, maybeBeginSeq, getCurrState, hk, h1, Event.existingOp]

/-- The first expression of a range behaves as if the walker were already inside the sequence,
with the call and the callee's prologue emitted. -/
theorem step_enter (w : Walker E) (e : E) (s : OutliningSequence)
    (hk : w.sequences[w.seqCounter]? = some s) (hstate : w.state = .notInSeq)
    (hc : w.instrCounter + 1 = s.startIdx) (hlt : s.startIdx < s.endIdx) :
    w.step (.expr e) =
      ({ w with state := seqState (w.hasBody s.func),
                existingBuilder := w.existingBuilder ++ callOps s,
                outlinedBuilder := w.outlinedBuilder ++
                  outlinedOps (w.hasBody s.func) (calleeStart s (w.numParams s.func)) } :
        Walker E).step (.expr e) := by
  obtain ⟨st, seqs, k, c, ex, out, hb, np⟩ := w
  simp only at hk hstate hc ⊢
  subst hstate
  have h1 : s.startIdx ≤ c + 1 := by omega
  have h2 : c + 1 < s.endIdx := by omega
  cases hbs : hb s.func <;>
    simp [step, visitExpression, maybeBeginSeq, getCurrState, transitionToInSeq,
      transitionToInSkipSeq, seqState, outlinedOps, hk, hbs, h1, h2]

/-- Inside a range an expression goes to the outlined builder (or nowhere, when skipping); the
last one ends the sequence and installs the callee's body. -/
theorem step_inRange (w : Walker E) (e : E) (s : OutliningSequence)
    (hk : w.sequences[w.seqCounter]? = some s)
    (hstate : w.state = seqState (w.hasBody s.func))
    (hc : s.startIdx ≤ w.instrCounter + 1) (hlt : w.instrCounter + 1 < s.endIdx) :
    w.step (.expr e) =
      if w.instrCounter + 2 = s.endIdx then
        { w with state := .notInSeq, seqCounter := w.seqCounter + 1,
                 instrCounter := w.instrCounter + 1,
                 outlinedBuilder := w.outlinedBuilder ++
                   outlinedOps (w.hasBody s.func) [.visit e, .visitEnd],
                 hasBody := Function.update w.hasBody s.func true }
      else
        { w with instrCounter := w.instrCounter + 1,
                 outlinedBuilder := w.outlinedBuilder ++ outlinedOps (w.hasBody s.func) [.visit e] } := by
  obtain ⟨st, seqs, k, c, ex, out, hb, np⟩ := w
  simp only at hk hstate hc hlt ⊢
  subst hstate
  cases hbs : hb s.func <;> by_cases hend : c + 2 = s.endIdx <;>
    simp [step, visitExpression, maybeBeginSeq, getCurrState, maybeEndSeq, transitionToNotInSeq,
      seqState, outlinedOps, hk, hbs, hend, hc, hlt, Function.update_eq_self_iff]

/-! ## Runs over stretches of events -/

/-- `walk_outside`: a stretch of events that ends before the next sequence starts is copied, in
order, to the existing builder. -/
theorem walk_outside (l : List (Event E)) : ∀ (w : Walker E), w.state = .notInSeq →
    (∀ s, w.sequences[w.seqCounter]? = some s → w.instrCounter + l.length < s.startIdx) →
    l.foldl step w = { w with instrCounter := w.instrCounter + l.length,
                              existingBuilder := w.existingBuilder ++ l.map Event.existingOp } := by
  induction l with
  | nil => intro w _ _; simp
  | cons ev l ih =>
    intro w hstate hnext
    simp only [List.length_cons] at hnext
    rw [List.foldl_cons, step_outside w ev hstate (fun s hs => by have := hnext s hs; omega), ih]
    · simp only [List.length_cons, List.map_cons, List.append_assoc, List.singleton_append]
      congr 1
      omega
    · exact hstate
    · intro s hs; have := hnext s hs; simp only; omega

/-- The expressions of a range after the walker has entered it. -/
theorem walk_inRange (s : OutliningSequence) (l : List (Event E))
    (hl : ∀ ev ∈ l, ∃ e, ev = .expr e) : ∀ (w : Walker E),
    w.sequences[w.seqCounter]? = some s → w.state = seqState (w.hasBody s.func) →
    s.startIdx ≤ w.instrCounter + 1 → w.instrCounter + l.length + 1 = s.endIdx → l ≠ [] →
    l.foldl step w =
      { w with state := .notInSeq, seqCounter := w.seqCounter + 1,
               instrCounter := s.endIdx - 1,
               outlinedBuilder := w.outlinedBuilder ++
                 outlinedOps (w.hasBody s.func) (l.map Event.existingOp ++ [.visitEnd]),
               hasBody := Function.update w.hasBody s.func true } := by
  induction l with
  | nil => intro w _ _ _ _ h; exact absurd rfl h
  | cons ev l ih =>
    intro w hk hstate hc hlen _
    obtain ⟨e, rfl⟩ := hl ev (List.mem_cons_self _ _)
    simp only [List.length_cons] at hlen
    rw [List.foldl_cons, step_inRange w e s hk hstate hc (by omega)]
    cases l with
    | nil =>
      -- the last expression ends the sequence
      simp only [List.length_nil] at hlen
      simp [show w.instrCounter + 2 = s.endIdx by omega, Event.existingOp]
      omega
    | cons ev' l =>
      -- a middle expression: the walker stays in the sequence
      simp only [List.length_cons] at hlen
      rw [if_neg (by omega), ih (fun ev hev => hl ev (List.mem_cons_of_mem _ hev))]
      · simp only [List.map_cons, List.cons_append, List.append_assoc]
        rw [← outlinedOps_append]
        rfl
      · exact hk
      · exact hstate
      · simp only; omega
      · simp only [List.length_cons]; omega
      · exact List.cons_ne_nil _ _

/-- `walk_range`: the events of one sequence, walked from just before its start, emit the call
(and `unreachable`) into the existing builder, the framed range into the outlined builder when
the callee has no body, and leave the walker between sequences with the callee's body
installed. -/
theorem walk_range (w : Walker E) (s : OutliningSequence) (l : List (Event E))
    (hlt : s.startIdx < s.endIdx) (hlen : l.length = s.endIdx - s.startIdx)
    (hl : ∀ ev ∈ l, ∃ e, ev = .expr e) (hk : w.sequences[w.seqCounter]? = some s)
    (hstate : w.state = .notInSeq) (hc : w.instrCounter + 1 = s.startIdx) :
    l.foldl step w =
      { w with state := .notInSeq, seqCounter := w.seqCounter + 1,
               instrCounter := s.endIdx - 1,
               existingBuilder := w.existingBuilder ++ callOps s,
               outlinedBuilder := w.outlinedBuilder ++
                 outlinedOps (w.hasBody s.func)
                   (calleeStart s (w.numParams s.func) ++ l.map Event.existingOp ++ [.visitEnd]),
               hasBody := Function.update w.hasBody s.func true } := by
  obtain _ | ⟨ev, l'⟩ := l
  · simp only [List.length_nil] at hlen; omega
  obtain ⟨e, rfl⟩ := hl ev (List.mem_cons_self _ _)
  rw [List.foldl_cons, step_enter w e s hk hstate hc hlt, ← List.foldl_cons, walk_inRange s _ hl]
  · simp [outlinedOps_append, List.append_assoc]
  · exact hk
  · rfl
  · simp only; omega
  · simp only [List.length_cons] at hlen ⊢; omega
  · exact List.cons_ne_nil _ _

end Walker

/-! ## The whole walk -/

theorem drop_eq_slice_append (events : List (Event E)) {a b : Nat} (ha : 1 ≤ a) (hab : a ≤ b) :
    events.drop (a - 1) = slice events a b ++ events.drop (b - 1) := by
  rw [slice, show b - 1 = (a - 1) + (b - a) by omega, ← List.drop_drop, List.take_append_drop]

theorem length_slice (events : List (Event E)) {a b : Nat} (ha : 1 ≤ a) (hab : a ≤ b)
    (hb : b ≤ events.length + 1) : (slice events a b).length = b - a := by
  simp only [slice, List.length_take, List.length_drop]
  omega

theorem slice_exprs {events : List (Event E)} {a b : Nat} (ha : 1 ≤ a)
    (h : ∀ i, a ≤ i → i < b → ∃ e, events[i - 1]? = some (.expr e)) :
    ∀ ev ∈ slice events a b, ∃ e, ev = .expr e := by
  intro ev hev
  obtain ⟨i, hi⟩ := List.mem_iff_getElem?.mp hev
  simp only [slice, List.getElem?_take, List.getElem?_drop] at hi
  split at hi
  · obtain ⟨e, he⟩ := h (a + i) (by omega) (by omega)
    rw [show a + i - 1 = a - 1 + i by omega, hi] at he
    exact ⟨e, Option.some_injective _ he⟩
  · cases hi

/-- Sorted, disjoint ranges follow one another. -/
theorem ValidSequences.chain {events : List (Event E)} {seqs : List OutliningSequence}
    (hv : ValidSequences events seqs) : seqs.Pairwise (fun a b => a.endIdx ≤ b.startIdx) :=
  (hv.sorted.and hv.disjoint).imp_of_mem fun _ hb ⟨hle, hdis⟩ => by
    have := (hv.bounds _ hb).2.1
    omega

/-- The walk from a point between sequences, at position `pos`, with the sequences `rest` still
ahead. -/
theorem walk_from (events : List (Event E)) (seqs : List OutliningSequence)
    (hv : ValidSequences events seqs) :
    ∀ (rest pre : List OutliningSequence) (w : Walker E) (pos : Nat),
    seqs = pre ++ rest → w.sequences = seqs → w.seqCounter = pre.length →
    w.state = .notInSeq → w.instrCounter + 1 = pos → pos ≤ events.length + 1 →
    (∀ s ∈ rest, pos ≤ s.startIdx) →
    (events.drop (pos - 1)).foldl Walker.step w =
      { w with seqCounter := seqs.length, instrCounter := events.length,
               existingBuilder := w.existingBuilder ++ expectedExisting events pos rest,
               outlinedBuilder := w.outlinedBuilder ++
                 expectedOutlined events w.numParams w.hasBody rest,
               hasBody := installedBodies w.hasBody rest } := by
  intro rest
  induction rest with
  | nil =>
    intro pre w pos hsplit hseqs hk hstate hc hpos _
    rw [Walker.walk_outside _ _ hstate (fun s hs => by simp [hseqs, hk, hsplit] at hs)]
    simp only [List.length_drop, hsplit, List.append_nil, hk, expectedExisting,
      expectedOutlined, installedBodies, List.foldl_nil]
    congr 1
    omega
  | cons s rest ih =>
    intro pre w pos hsplit hseqs hk hstate hc hpos hafter
    have hmem : s ∈ seqs := by simp [hsplit]
    obtain ⟨h1, h2, h3⟩ := hv.bounds s hmem
    have hps := hafter s (List.mem_cons_self _ _)
    have hchain : ∀ t ∈ rest, s.endIdx ≤ t.startIdx := by
      have := hv.chain
      rw [hsplit, List.pairwise_append, List.pairwise_cons] at this
      exact this.2.1.1
    have hks : w.sequences[w.seqCounter]? = some s := by
      rw [hseqs, hk, hsplit, List.getElem?_append_right (le_refl _), Nat.sub_self]; simp
    have hlen1 := length_slice events (by omega : 1 ≤ pos) hps (by omega)
    rw [drop_eq_slice_append events (by omega) hps, drop_eq_slice_append events h1 h2.le,
      List.foldl_append, List.foldl_append,
      Walker.walk_outside _ _ hstate (fun t ht => by rw [hks] at ht; cases ht; omega)]
    rw [Walker.walk_range _ s (slice events s.startIdx s.endIdx) h2
      (length_slice events h1 h2.le h3) (slice_exprs h1 (hv.onlyExprs s hmem))]
    rotate_left
    · exact hks
    · exact hstate
    · simp only [hlen1]; omega
    rw [ih (pre ++ [s])]
    · simp [expectedExisting, expectedOutlined, installedBodies, Walker.outlinedOps,
        List.append_assoc, hstate]
    · simp [hsplit]
    · exact hseqs
    · simp [hk]
    · rfl
    · simp only; omega
    · exact h3
    · exact hchain

/-- **Routing of the reconstructor.**  For every event list of a function and every list of
outlining sequences that is sorted by start, pairwise disjoint, inside `[1, n + 1)` and made of
expressions only, `ReconstructStringifyWalker` sends each separator and each expression outside
the ranges to the existing builder once and in order, replaces each range there by one call to
its callee (followed by `unreachable` exactly when the sequence ends unreachable), sends a range
to the outlined builder, framed by the callee's start, its parameters' `local.get`s and an end,
exactly when the callee has no body when the walk reaches it, and ends with `seqCounter` equal to
the number of sequences. -/
theorem reconstruct_routes (func : Name) (seqs : List OutliningSequence)
    (hasBody : Name → Bool) (numParams : Name → Nat) (events : List (Event E))
    (hv : ValidSequences events seqs) :
    let w := reconstruct func seqs hasBody numParams events
    w.existingBuilder = [.build, .funcStart func] ++ expectedExisting events 1 seqs ∧
    w.outlinedBuilder = expectedOutlined events numParams hasBody seqs ∧
    w.seqCounter = seqs.length ∧ w.state = .notInSeq ∧
    w.hasBody = installedBodies hasBody seqs := by
  have h := walk_from events seqs hv seqs []
    ((Walker.init seqs hasBody numParams).startExistingFunction func) 1 rfl rfl rfl rfl rfl (by omega)
    (fun s hs => (hv.bounds s hs).1)
  simp only [reconstruct, Walker.init, Walker.startExistingFunction, List.nil_append,
    Nat.sub_self, List.drop_zero] at h ⊢
  simp [h]

/-- Two occurrences of one callee in one function, around a block start: the first occurrence
is outlined, the second only replaced by the call. -/
theorem reconstruct_routes_two_occurrences :
    let events : List (Event Nat) :=
      [.expr 10, .expr 20, .symbol .blockStart, .expr 10, .expr 20, .symbol .scopeEnd]
    let seqs : List OutliningSequence := [⟨1, 3, "outline$", false⟩, ⟨4, 6, "outline$", false⟩]
    ValidSequences events seqs ∧
    (reconstruct "a" seqs (fun _ => false) (fun _ => 0) events).existingBuilder =
      [.build, .funcStart "a", .call "outline$", .symbol .blockStart, .call "outline$",
        .symbol .scopeEnd] ∧
    (reconstruct "a" seqs (fun _ => false) (fun _ => 0) events).outlinedBuilder =
      [.funcStart "outline$", .visit 10, .visit 20, .visitEnd] := by
  intro events seqs
  have hv : ValidSequences events seqs :=
    ⟨by decide, by decide, by decide, fun s hs i h1 h2 => by
      simp only [seqs, List.mem_cons, List.mem_singleton, List.not_mem_nil, or_false] at hs
      rcases hs with rfl | rfl
      · obtain rfl | rfl : i = 1 ∨ i = 2 := by simp only at h1 h2; omega
        all_goals exact ⟨_, rfl⟩
      · obtain rfl | rfl : i = 4 ∨ i = 5 := by simp only at h1 h2; omega
        all_goals exact ⟨_, rfl⟩⟩
  exact ⟨hv, (reconstruct_routes "a" seqs _ _ events hv).1.trans rfl,
    (reconstruct_routes "a" seqs _ _ events hv).2.1.trans rfl⟩

end BinaryenPasses.Outlining.Reconstruct
