import BinaryenPasses.IR.Interpreter

/-!
# What a rewrite's proof needs from the interpreter

What every argument that a rewrite keeps the meaning of a function needs from `eval`:

* **`eval_mono`** — once an evaluation completes (does not run out of fuel), more fuel changes
  nothing;
* **`eval_extend`** — appending expressions to the arena does not change how the old ones
  evaluate, when their children are old ones: this is how a builder's new expressions leave the
  rest of a function alone;
* **`eval_setLocal`** / **`eval_setLocals`** — locals that no expression of the function reads
  or writes can be set before an evaluation or after it, with the same outcome: this is how a
  rewriter's fresh scratch locals stay invisible to the code it moves;
* `eval_locals_length` — no evaluation adds or removes a local;
* `seqEval_append` — children evaluated in two runs, one after the other;
* `State.takeLocals` / `State.setLocals` — a state seen through the function's own locals, and
  a group of locals set at once, with the laws that relate them;
* `Function.Extends` and `Builder.buildEach_spec` — a builder only appends, so what it built
  stays where it put it through every later build.

Each fact about `eval` is proved once for `evalStep`, by cases on the expression class with one
lemma per continuation combinator (`andThen`, `andThenAll`), and lifted to `eval` by induction
on fuel.
-/

namespace BinaryenPasses.IR

/-- The local an expression reads or writes. -/
def Expr.localIndex : Expr → Option Nat
  | .localGet i => some i
  | .localSet i _ _ => some i
  | _ => none

/-- Every child of an expression of the arena is an expression of the arena. -/
def Function.ChildrenInRange (f : Function) : Prop :=
  ∀ id e, f.get id = some e → ∀ c ∈ e.expr.children, c < f.exprs.length

/-- No expression of the arena reads or writes local `k`. -/
def Function.LocalFree (f : Function) (k : Nat) : Prop :=
  ∀ id e, f.get id = some e → e.expr.localIndex ≠ some k

/-- `ChildrenInRange`, expression by expression: a form that can be decided. -/
theorem Function.childrenInRange_iff {f : Function} :
    f.ChildrenInRange ↔ ∀ e ∈ f.exprs, ∀ c ∈ e.expr.children, c < f.exprs.length :=
  ⟨fun h e he => let ⟨id, hid⟩ := List.mem_iff_getElem?.1 he; h id e hid,
    fun h id e hid => h e (List.mem_iff_getElem?.2 ⟨id, hid⟩)⟩

/-- `LocalFree`, expression by expression. -/
theorem Function.localFree_iff {f : Function} {k : Nat} :
    f.LocalFree k ↔ ∀ e ∈ f.exprs, e.expr.localIndex ≠ some k :=
  ⟨fun h e he => let ⟨id, hid⟩ := List.mem_iff_getElem?.1 he; h id e hid,
    fun h id e hid => h e (List.mem_iff_getElem?.2 ⟨id, hid⟩)⟩

/-- A function whose local accesses all lie below its locals leaves every later local free: a
form that can be decided. -/
theorem Function.localFree_of_lt {f : Function}
    (h : ∀ e ∈ f.exprs, ∀ i ∈ e.expr.localIndex, i < f.numLocals) (k : Nat)
    (hk : f.numLocals ≤ k) : f.LocalFree k :=
  Function.localFree_iff.2 fun e he hi => by
    have := h e he k hi
    omega

variable (types : TypeSection) (env : CallEnv)

/-! ## The arena: only the children are read -/

theorem seqEval_congr {go₁ go₂ : ExprId → State → Flow × State} {l : List ExprId}
    (h : ∀ c ∈ l, go₁ c = go₂ c) (s : State) : seqEval go₁ l s = seqEval go₂ l s := by
  induction l generalizing s with
  | nil => rfl
  | cons c l ih =>
    simp only [seqEval, h c (List.mem_cons_self c l),
      ih (fun c hc => h c (List.mem_cons_of_mem _ hc))]

/-- A step reads the evaluator only at its children (and, for a loop, at itself). -/
theorem evalStep_congr {go₁ go₂ : ExprId → State → Flow × State} {id : ExprId} {e : Expr}
    {ty : Ty} (h : ∀ c ∈ id :: e.children, go₁ c = go₂ c) (s : State) :
    evalStep types env go₁ id e ty s = evalStep types env go₂ id e ty s := by
  have hs : ∀ l, l = e.children → seqEval go₁ l = seqEval go₂ l := by
    rintro l rfl
    exact funext (seqEval_congr fun c hc => h c (List.mem_cons_of_mem _ hc))
  cases e
  case iff c t f => cases f <;> simp (disch := simp [Expr.children]) only [evalStep, h]
  all_goals simp (disch := simp [Expr.children]) only [evalStep, hs, h]

/-- **Arena extension.**  Appending expressions changes nothing for the old ones. -/
theorem eval_extend {f g : Function} (hf : f.ChildrenInRange) {extra : List Expression}
    (hg : g.exprs = f.exprs ++ extra) :
    ∀ n id s, id < f.exprs.length → eval types env g n id s = eval types env f n id s
  | 0, _, _, _ => rfl
  | n + 1, id, s, hid => by
    have hget : g.get id = f.get id := by
      simp only [Function.get, hg, List.getElem?_append_left hid]
    rw [eval_succ, eval_succ, hget]
    split
    · rfl
    · next e ty he =>
      refine evalStep_congr types env (fun c hc => funext fun s => ?_) s
      refine eval_extend hf hg n c s ?_
      rcases List.mem_cons.mp hc with rfl | hc
      · exact hid
      · exact hf _ _ he c hc

/-- An expression of the arena takes one step of fuel. -/
theorem eval_of_expr? {f : Function} {id : ExprId} {e : Expr} (h : f.expr? id = some e) (n : Nat)
    (s : State) : eval types env f (n + 1) id s = evalStep types env (eval types env f n) id e (f.typeOf id) s := by
  simp only [Function.expr?, Option.map_eq_some'] at h
  obtain ⟨⟨e', ty⟩, hget, rfl⟩ := h
  simp only [eval_succ, hget, Function.typeOf, Option.map_some', Option.getD_some]

/-! ## Fuel -/

/-- `go₂` agrees with `go₁` wherever `go₁` does not run out of fuel. -/
def Refines (go₁ go₂ : ExprId → State → Flow × State) : Prop :=
  ∀ c s, (go₁ c s).1 ≠ .outOfFuel → go₂ c s = go₁ c s

theorem seqEval_refines {go₁ go₂ : ExprId → State → Flow × State} (H : Refines go₁ go₂) :
    ∀ {l : List ExprId} {s : State}, (seqEval go₁ l s).1 ≠ .error .outOfFuel →
      seqEval go₂ l s = seqEval go₁ l s
  | [], _, _ => rfl
  | c :: l, s, h => by
    simp only [seqEval] at h ⊢
    rcases hc : go₁ c s with ⟨fl, s'⟩
    rw [hc] at h
    rw [H c s (by cases fl <;> simp_all), hc]
    cases fl
    all_goals try rfl
    simp only at h ⊢
    rcases hl : seqEval go₁ l s' with ⟨r, s''⟩
    rw [hl] at h
    rw [seqEval_refines H (by cases r <;> simp_all), hl]

theorem andThen_refines {r₁ r₂ : Flow × State} {k₁ k₂ : Option Literal → State → Flow × State}
    (hne : (andThen r₁ k₁).1 ≠ .outOfFuel) (hr : r₁.1 ≠ .outOfFuel → r₂ = r₁)
    (hk : ∀ x t, (k₁ x t).1 ≠ .outOfFuel → k₂ x t = k₁ x t) : andThen r₂ k₂ = andThen r₁ k₁ := by
  rcases r₁ with ⟨fl, t⟩
  cases fl <;> simp_all [andThen]

theorem andThenAll_refines {r₁ r₂ : Except Flow (List (Option Literal)) × State}
    {k : List (Option Literal) → State → Flow × State}
    (hne : (andThenAll r₁ k).1 ≠ .outOfFuel) (hr : r₁.1 ≠ .error .outOfFuel → r₂ = r₁) :
    andThenAll r₂ k = andThenAll r₁ k := by
  rcases r₁ with ⟨_ | fl, t⟩ <;> simp_all [andThenAll]

/-- A step that completes with `go₁` completes the same way with any `go₂` refining it. -/
theorem evalStep_refines {go₁ go₂ : ExprId → State → Flow × State} (H : Refines go₁ go₂)
    {id : ExprId} {e : Expr} {ty : Ty} {s : State}
    (hne : (evalStep types env go₁ id e ty s).1 ≠ .outOfFuel) :
    evalStep types env go₂ id e ty s = evalStep types env go₁ id e ty s := by
  cases e <;> simp only [evalStep] at hne ⊢
  case block => split at hne <;> simp_all [seqEval_refines H]
  case loop => split at hne <;> (try split_ifs at hne ⊢) <;> simp_all [H _ _]
  case iff c t f =>
    refine andThen_refines hne (H _ _) fun x t' h => ?_
    cases f <;> simp only at h ⊢ <;> split at h <;> (try split_ifs at h ⊢) <;> simp_all [H _ _]
  all_goals first
    | rfl
    | exact andThen_refines hne (H _ _) fun _ _ _ => rfl
    | exact andThenAll_refines hne (seqEval_refines H)

theorem eval_succ_refines (f : Function) :
    ∀ n, Refines (eval types env f n) (eval types env f (n + 1))
  | 0, _, _, h => absurd rfl h
  | n + 1, id, s, h => by
    rw [eval_succ] at h ⊢
    rw [eval_succ]
    rcases hget : f.get id with _ | ⟨e, ty⟩
    · rfl
    · simp only [hget] at h
      exact evalStep_refines types env (eval_succ_refines f n) h

/-- **Fuel monotonicity.** -/
theorem eval_mono (f : Function) {n m : Nat} (hnm : n ≤ m) {id : ExprId} {s : State}
    (h : (eval types env f n id s).1 ≠ .outOfFuel) :
    eval types env f m id s = eval types env f n id s := by
  induction m, hnm using Nat.le_induction with
  | base => rfl
  | succ m _ ih => rw [eval_succ_refines types env f m id s (ih ▸ h), ih]

/-! ## Fresh locals -/

section setLocal

variable {k : Nat} {v : Literal}

theorem seqEval_setLocal {go : ExprId → State → Flow × State}
    (H : ∀ c s, go c (s.setLocal k v) = ((go c s).1, (go c s).2.setLocal k v)) :
    ∀ (l : List ExprId) (s : State),
      seqEval go l (s.setLocal k v) = ((seqEval go l s).1, (seqEval go l s).2.setLocal k v)
  | [], _ => rfl
  | c :: l, s => by
    simp only [seqEval, H c s]
    rcases go c s with ⟨fl, t⟩
    cases fl <;> try rfl
    simp only [seqEval_setLocal H l t]
    rcases seqEval go l t with ⟨r, t'⟩
    cases r <;> rfl

theorem andThen_setLocal {r : Flow × State} {K : Option Literal → State → Flow × State}
    (hK : ∀ x t, K x (t.setLocal k v) = ((K x t).1, (K x t).2.setLocal k v)) :
    andThen (r.1, r.2.setLocal k v) K = ((andThen r K).1, (andThen r K).2.setLocal k v) := by
  rcases r with ⟨fl, t⟩
  cases fl <;> simp [andThen, hK]

theorem andThenAll_setLocal {r : Except Flow (List (Option Literal)) × State}
    {K : List (Option Literal) → State → Flow × State}
    (hK : ∀ vs t, K vs (t.setLocal k v) = ((K vs t).1, (K vs t).2.setLocal k v)) :
    andThenAll (r.1, r.2.setLocal k v) K =
      ((andThenAll r K).1, (andThenAll r K).2.setLocal k v) := by
  rcases r with ⟨_ | _, t⟩ <;> simp [andThenAll, hK]

/-- A step of an expression that does not name local `k` commutes with setting it, when its
children's evaluations do. -/
theorem evalStep_setLocal {go : ExprId → State → Flow × State} {id : ExprId} {e : Expr} {ty : Ty}
    (H : ∀ c s, go c (s.setLocal k v) = ((go c s).1, (go c s).2.setLocal k v))
    (hk : e.localIndex ≠ some k) (s : State) :
    evalStep types env go id e ty (s.setLocal k v) =
      ((evalStep types env go id e ty s).1, (evalStep types env go id e ty s).2.setLocal k v) := by
  cases e <;> simp only [evalStep, H, seqEval_setLocal H]
  case block =>
    rcases seqEval go _ s with ⟨fl | _, t⟩
    · cases fl <;> simp only
      split_ifs <;> rfl
    · rfl
  case loop =>
    rcases go _ s with ⟨fl, t⟩
    cases fl <;> simp only
    split_ifs <;> simp [H]
  case localGet i => simp_all [Expr.localIndex, State.getElem?_locals_setLocal]
  case localSet i x tee =>
    refine andThen_setLocal fun x t => ?_
    rcases x with _ | x
    · rfl
    · simp [State.setLocal_comm _ _ _ (by simpa [Expr.localIndex, eq_comm] using hk)]
  all_goals first
    | rfl
    | (refine andThen_setLocal fun x t => ?_
       (try simp only [State.getObj_setLocal, castOk_setLocal]) <;> (repeat' split) <;> simp [H])
    | (refine andThenAll_setLocal fun x t => ?_
       (try simp only [State.getObj_setLocal, castOk_setLocal]) <;> (repeat' split) <;> simp [H])

/-- **Fresh locals.**  Setting a local no expression of the function names commutes with
evaluation. -/
theorem eval_setLocal {f : Function} (hk : f.LocalFree k) :
    ∀ n id s, eval types env f n id (s.setLocal k v) =
      ((eval types env f n id s).1, (eval types env f n id s).2.setLocal k v)
  | 0, _, _ => rfl
  | n + 1, id, s => by
    rw [eval_succ, eval_succ]
    split
    · rfl
    · next e ty he => exact evalStep_setLocal types env (eval_setLocal hk n) (hk id _ he) s

end setLocal

/-! ## Locals keep their number -/

section localsLength

variable {L : Nat}

theorem seqEval_locals_length {go : ExprId → State → Flow × State}
    (H : ∀ c s, (go c s).2.locals.length = s.locals.length) :
    ∀ (l : List ExprId) (s : State), (seqEval go l s).2.locals.length = s.locals.length
  | [], _ => rfl
  | c :: l, s => by
    simp only [seqEval]
    rcases hgo : go c s with ⟨fl, t⟩
    have hc : t.locals.length = s.locals.length := by rw [← H c s, hgo]
    cases fl <;> try exact hc
    have hl := seqEval_locals_length H l t
    simp only
    rcases hsl : seqEval go l t with ⟨_ | _, u⟩ <;> rw [hsl] at hl <;> exact hl.trans hc

theorem andThen_locals_length {r : Flow × State} {K : Option Literal → State → Flow × State}
    (hr : r.2.locals.length = L) (hK : ∀ x t, t.locals.length = L → (K x t).2.locals.length = L) :
    (andThen r K).2.locals.length = L := by
  rcases r with ⟨fl, t⟩
  cases fl <;> simp_all [andThen]

theorem andThenAll_locals_length {r : Except Flow (List (Option Literal)) × State}
    {K : List (Option Literal) → State → Flow × State} (hr : r.2.locals.length = L)
    (hK : ∀ vs t, t.locals.length = L → (K vs t).2.locals.length = L) :
    (andThenAll r K).2.locals.length = L := by
  rcases r with ⟨_ | _, t⟩ <;> simp_all [andThenAll]

theorem evalStep_locals_length {go : ExprId → State → Flow × State}
    (H : ∀ c s, (go c s).2.locals.length = s.locals.length) {id : ExprId} {e : Expr} {ty : Ty}
    (s : State) : (evalStep types env go id e ty s).2.locals.length = s.locals.length := by
  have hs := seqEval_locals_length H
  cases e <;> simp only [evalStep]
  case block l =>
    have := hs l s
    split <;> (try split_ifs) <;> simp_all
  case loop body =>
    have := H body s
    split <;> (try split_ifs) <;> simp_all
  all_goals first
    | rfl
    | exact andThen_locals_length (H _ _) fun _ _ ht => by (repeat' split) <;> simp [ht, H]
    | exact andThenAll_locals_length (hs _ _) fun _ _ ht => by (repeat' split) <;> simp [ht, H]

/-- **Locals keep their number.** -/
theorem eval_locals_length (f : Function) :
    ∀ n id s, (eval types env f n id s).2.locals.length = s.locals.length
  | 0, _, _ => rfl
  | n + 1, id, s => by
    rw [eval_succ]
    split
    · rfl
    · exact evalStep_locals_length types env (eval_locals_length f n) s

end localsLength

/-! ## Lists of children -/

theorem seqEval_append (go : ExprId → State → Flow × State) (l₁ l₂ : List ExprId) (s : State) :
    seqEval go (l₁ ++ l₂) s =
      match seqEval go l₁ s with
      | (.ok vs, s) =>
        match seqEval go l₂ s with
        | (.ok ws, s) => (.ok (vs ++ ws), s)
        | (.error fl, s) => (.error fl, s)
      | (.error fl, s) => (.error fl, s) := by
  induction l₁ generalizing s with
  | nil =>
    simp only [List.nil_append, seqEval]
    rcases seqEval go l₂ s with ⟨_ | _, _⟩ <;> rfl
  | cons c l₁ ih =>
    rw [List.cons_append]
    simp only [seqEval]
    rcases go c s with ⟨fl, t⟩
    cases fl <;> try rfl
    simp only [ih]
    rcases seqEval go l₁ t with ⟨_ | _, u⟩
    · rfl
    · simp only
      rcases seqEval go l₂ u with ⟨_ | _, w⟩ <;> rfl

/-- A run of children stops only at an outcome that is not a value. -/
theorem seqEval_error_ne_normal {go : ExprId → State → Flow × State} :
    ∀ {l : List ExprId} {s s' : State} {fl : Flow},
      seqEval go l s = (.error fl, s') → ∀ v, fl ≠ .normal v
  | [], _, _, _, h => by simp [seqEval] at h
  | c :: l, s, s', fl, h => by
    simp only [seqEval] at h
    rcases hc : go c s with ⟨_ | _ | _ | _ | _, t⟩ <;>
      simp only [hc, Prod.mk.injEq, Except.error.injEq] at h
    · rcases hl : seqEval go l t with ⟨_ | fl', t'⟩ <;>
        simp only [hl, Prod.mk.injEq, Except.error.injEq, reduceCtorEq, false_and] at h
      exact h.1 ▸ seqEval_error_ne_normal hl
    all_goals intro v; simp [← h.1]

/-- In the run of `l` from `s`, every child that completes yields a value.  Validation gives this
of the operands of a `struct.new`, a `struct.cmpxchg` or a `ref.cast`; it is a fact of the run at
hand and not of every state (a `local.get` of a local the state lacks yields nothing). -/
def YieldsValues (go : ExprId → State → Flow × State) : List ExprId → State → Prop
  | [], _ => True
  | c :: l, s => match go c s with
    | (.normal v, t) => v ≠ none ∧ YieldsValues go l t
    | _ => True

namespace YieldsValues

variable {go : ExprId → State → Flow × State}

theorem head {c : ExprId} {l : List ExprId} {s t : State} (h : YieldsValues go (c :: l) s) :
    go c s ≠ (.normal none, t) := fun hc => by
  simp only [YieldsValues, hc] at h
  exact h.1 rfl

theorem tail {c : ExprId} {l : List ExprId} {s t : State} {v : Option Literal}
    (h : YieldsValues go (c :: l) s) (hc : go c s = (.normal v, t)) : YieldsValues go l t := by
  simp only [YieldsValues, hc] at h
  exact h.2

/-- The run of `l₁ ++ l₂` yields values along `l₁`, and along `l₂` from where `l₁` completes. -/
theorem append : ∀ {l₁ l₂ : List ExprId} {s : State}, YieldsValues go (l₁ ++ l₂) s →
    YieldsValues go l₁ s ∧ ∀ vs t, seqEval go l₁ s = (.ok vs, t) → YieldsValues go l₂ t
  | [], _, _, h => ⟨trivial, fun _ _ ht => by cases ht; exact h⟩
  | c :: l₁, l₂, s, h => by
    rw [List.cons_append] at h
    rcases hc : go c s with ⟨fl, t⟩
    cases fl with
    | normal v =>
      obtain ⟨h₁, h₂⟩ := append (h.tail hc)
      refine ⟨?_, fun vs u hu => ?_⟩
      · simp only [YieldsValues, hc]
        exact ⟨fun hv => h.head (hv ▸ hc), h₁⟩
      · simp only [seqEval, hc] at hu
        rcases hl : seqEval go l₁ t with ⟨_ | ws, u'⟩ <;> simp only [hl] at hu <;> cases hu
        exact h₂ ws u hl
    | _ =>
      refine ⟨by simp [YieldsValues, hc], fun vs u hu => ?_⟩
      simp [seqEval, hc] at hu

/-- A run that completes with a value from every expression yields values along the list. -/
theorem of_seqEval : ∀ {l : List ExprId} {s : State} {vs : List (Option Literal)},
    (seqEval go l s).1 = .ok vs → none ∉ vs → YieldsValues go l s
  | [], _, _, _, _ => trivial
  | c :: l, s, vs, h, hvs => by
    rcases hc : go c s with ⟨fl, u⟩
    cases fl with
    | normal v =>
      simp only [seqEval, hc] at h
      rcases hl : seqEval go l u with ⟨_ | ws, u'⟩ <;> simp only [hl] at h <;> cases h
      simp only [YieldsValues, hc]
      exact ⟨fun hv => hvs (hv ▸ List.mem_cons_self _ _),
        of_seqEval (by rw [hl]) fun hw => hvs (List.mem_cons_of_mem _ hw)⟩
    | _ => simp [YieldsValues, hc]

/-- Setting a local no child reads changes no child's outcome. -/
theorem setLocal {k : Nat} {v : Literal}
    (H : ∀ c s, go c (s.setLocal k v) = ((go c s).1, (go c s).2.setLocal k v)) :
    ∀ {l : List ExprId} {s : State}, YieldsValues go l s → YieldsValues go l (s.setLocal k v)
  | [], _, _ => trivial
  | c :: l, s, h => by
    rcases hc : go c s with ⟨fl, t⟩
    simp only [YieldsValues, H c s, hc]
    cases fl with
    | normal w => exact ⟨fun hw => h.head (hw ▸ hc), setLocal H (h.tail hc)⟩
    | _ => trivial

end YieldsValues

/-! ## Groups of locals -/

namespace State

/-- The state with its first `n` locals only: what a function with `n` locals sees of it. -/
def takeLocals (s : State) (n : Nat) : State := { s with locals := s.locals.take n }

/-- Set the locals `is` to the values `vs`, in order. -/
def setLocals (s : State) : List Nat → List Literal → State
  | i :: is, v :: vs => (s.setLocal i v).setLocals is vs
  | _, _ => s

@[simp] theorem setLocals_nil (s : State) (vs : List Literal) : s.setLocals [] vs = s := rfl

@[simp] theorem setLocals_cons (s : State) (i : Nat) (is : List Nat) (v : Literal)
    (vs : List Literal) : s.setLocals (i :: is) (v :: vs) = (s.setLocal i v).setLocals is vs := rfl

theorem takeLocals_setLocal (s : State) (n k : Nat) (v : Literal) :
    (s.setLocal k v).takeLocals n = (s.takeLocals n).setLocal k v := by
  simp only [takeLocals, setLocal, List.set_take]

theorem setLocal_of_length_le {s : State} {k : Nat} (h : s.locals.length ≤ k) (v : Literal) :
    s.setLocal k v = s := by
  simp only [setLocal, List.set_eq_of_length_le h]

theorem takeLocals_setLocals (n : Nat) :
    ∀ (s : State) is vs, (s.setLocals is vs).takeLocals n = (s.takeLocals n).setLocals is vs
  | s, i :: is, v :: vs => by
    rw [setLocals_cons, takeLocals_setLocals n _ is vs, takeLocals_setLocal, setLocals_cons]
  | _, [], _ | _, _ :: _, [] => rfl

theorem takeLocals_setLocal_of_le (s : State) {n k : Nat} (h : n ≤ k) (v : Literal) :
    (s.setLocal k v).takeLocals n = s.takeLocals n := by
  rw [takeLocals_setLocal, setLocal_of_length_le]
  simp only [takeLocals, List.length_take]
  omega

@[simp] theorem length_locals_setLocals :
    ∀ (s : State) is vs, (s.setLocals is vs).locals.length = s.locals.length
  | s, i :: is, v :: vs => by
    rw [setLocals_cons, length_locals_setLocals _ is vs, length_locals_setLocal]
  | _, [], _ | _, _ :: _, [] => rfl

theorem setLocals_of_length_le :
    ∀ {s : State} {is : List Nat}, (∀ i ∈ is, s.locals.length ≤ i) → ∀ vs, s.setLocals is vs = s
  | s, i :: is, h, v :: vs => by
    rw [setLocals_cons, setLocal_of_length_le (h i (List.mem_cons_self i is))]
    exact setLocals_of_length_le (fun j hj => h j (List.mem_cons_of_mem i hj)) vs
  | _, [], _, _ | _, _ :: _, _, [] => rfl

theorem setLocals_append :
    ∀ (s : State) {is vs}, is.length = vs.length → ∀ js ws,
      s.setLocals (is ++ js) (vs ++ ws) = (s.setLocals is vs).setLocals js ws
  | _, [], [], _, _, _ => rfl
  | s, i :: is, v :: vs, h, js, ws => setLocals_append (s.setLocal i v) (by simpa using h) js ws

theorem getElem?_locals_setLocals_of_not_mem {k : Nat} :
    ∀ (s : State) {is : List Nat}, k ∉ is → ∀ vs, (s.setLocals is vs).locals[k]? = s.locals[k]?
  | s, i :: is, h, v :: vs => by
    rw [setLocals_cons, getElem?_locals_setLocals_of_not_mem _ (fun h' => h (.tail i h')),
      getElem?_locals_setLocal _ _ _ (by rintro rfl; exact h (List.mem_cons_self _ _))]
  | _, [], _, _ | _, _ :: _, _, [] => rfl

/-- Consecutive locals read back the values they were set to. -/
theorem getElem?_locals_setLocals_range' :
    ∀ (ws : List Literal) (n j : Nat) (s : State), n + ws.length ≤ s.locals.length →
      j < ws.length → (s.setLocals (List.range' n ws.length) ws).locals[n + j]? = ws[j]?
  | [], _, _, _, _, hj => absurd hj (Nat.not_lt_zero _)
  | w :: ws, n, j, s, h, hj => by
    simp only [List.length_cons, List.range'_succ, setLocals_cons] at h hj ⊢
    cases j with
    | zero =>
      rw [getElem?_locals_setLocals_of_not_mem _ (by simp)]
      simp only [setLocal, Nat.add_zero, List.getElem?_cons_zero]
      exact List.getElem?_set_self (show n < s.locals.length by omega)
    | succ j =>
      rw [show n + (j + 1) = n + 1 + j by omega, getElem?_locals_setLocals_range' ws (n + 1) j _
        (by rw [length_locals_setLocal]; omega) (by omega), List.getElem?_cons_succ]

end State

section setLocals

variable {is : List Nat}

/-- Setting locals no expression of the function names commutes with evaluation. -/
theorem eval_setLocals {f : Function} (hk : ∀ i ∈ is, f.LocalFree i) (n : Nat) (id : ExprId) :
    ∀ vs s, eval types env f n id (s.setLocals is vs) =
      ((eval types env f n id s).1, (eval types env f n id s).2.setLocals is vs) := by
  induction is with
  | nil => intro vs s; rfl
  | cons i is ih =>
    rintro (_ | ⟨v, vs⟩) s
    · rfl
    · rw [State.setLocals_cons, ih (fun j hj => hk j (.tail i hj)),
        eval_setLocal types env (hk i (.head is))]
      rfl

end setLocals

/-! ## The builder only appends -/

/-- `g` has the expressions of `f` at their indices, and maybe more after them. -/
def Function.Extends (f g : Function) : Prop := ∃ extra, g.exprs = f.exprs ++ extra

namespace Function.Extends

variable {f g h : Function}

theorem refl (f : Function) : f.Extends f := ⟨[], (List.append_nil _).symm⟩

theorem trans (hfg : f.Extends g) (hgh : g.Extends h) : f.Extends h := by
  obtain ⟨e₁, h₁⟩ := hfg
  obtain ⟨e₂, h₂⟩ := hgh
  exact ⟨e₁ ++ e₂, by rw [h₂, h₁, List.append_assoc]⟩

theorem get {id : ExprId} {e : Expression} (hfg : f.Extends g) (he : f.get id = some e) :
    g.get id = some e := by
  obtain ⟨extra, hg⟩ := hfg
  obtain ⟨hid, -⟩ := List.getElem?_eq_some_iff.mp he
  simpa only [Function.get, hg, List.getElem?_append_left hid] using he

theorem expr? {id : ExprId} {e : Expr} (hfg : f.Extends g) (he : f.expr? id = some e) :
    g.expr? id = some e := by
  simp only [Function.expr?, Option.map_eq_some'] at he ⊢
  obtain ⟨x, hx, rfl⟩ := he
  exact ⟨x, hfg.get hx, rfl⟩

theorem typeOf {id : ExprId} (hfg : f.Extends g) (hid : id < f.exprs.length) :
    g.typeOf id = f.typeOf id := by
  obtain ⟨x, hx⟩ : ∃ x, f.get id = some x := by simp [Function.get, hid]
  simp only [Function.typeOf, hfg.get hx, hx]

end Function.Extends

/-! ## Expressions an expression reaches -/

/-- `a` reaches `b` through the children of the arena. -/
inductive Function.Reaches (f : Function) : ExprId → ExprId → Prop
  | refl (a : ExprId) : Function.Reaches f a a
  | child {a c b : ExprId} {e : Expression} : f.get a = some e → c ∈ e.expr.children →
      Function.Reaches f c b → Function.Reaches f a b

/-- An expression of `f` reaches in an extension of `f` only what it reaches in `f`. -/
theorem Function.Reaches.of_extends {f g : Function} (hf : f.ChildrenInRange) (hg : f.Extends g)
    {a b : ExprId} (h : g.Reaches a b) (ha : a < f.exprs.length) : f.Reaches a b := by
  induction h with
  | refl a => exact .refl a
  | @child a c b e hget hc _ ih =>
    obtain ⟨extra, hgx⟩ := hg
    have hget' : f.get a = some e := by
      rwa [Function.get, hgx, List.getElem?_append_left ha] at hget
    exact .child hget' hc (ih (hf a e hget' c hc))

/-- **Frame.**  Setting expression `k` changes nothing for an expression that does not reach
it. -/
theorem eval_set_of_not_reaches {f : Function} {k : ExprId} (e' : Expression) :
    ∀ n id s, ¬ f.Reaches id k → eval types env (f.set k e') n id s = eval types env f n id s
  | 0, _, _, _ => rfl
  | n + 1, id, s, h => by
    have hne : id ≠ k := fun h' => h (h' ▸ .refl id)
    have hget : (f.set k e').get id = f.get id := by
      simp only [Function.get, Function.set, List.getElem?_set_ne (Ne.symm hne)]
    rw [eval_succ, eval_succ, hget]
    split
    · rfl
    · next e ty he =>
      refine evalStep_congr types env (fun c hc => funext fun s => ?_) s
      refine eval_set_of_not_reaches e' n c s fun hc' => h ?_
      rcases List.mem_cons.mp hc with rfl | hc
      · exact hc'
      · exact .child he hc hc'

namespace Builder

@[simp] theorem alloc_extends (f : Function) (e : Expression) : f.Extends (alloc f e).1 :=
  ⟨[e], rfl⟩

@[simp] theorem expr?_alloc (f : Function) (e : Expression) :
    (alloc f e).1.expr? (alloc f e).2 = some e.expr := by
  simp [alloc, Function.expr?, Function.get]

theorem addVars_exprs (f : Function) : ∀ ts, (addVars f ts).1.exprs = f.exprs
  | [] => rfl
  | _ :: ts => addVars_exprs _ ts

theorem addVars_numLocals (f : Function) :
    ∀ ts, (addVars f ts).1.numLocals = f.numLocals + ts.length
  | [] => rfl
  | t :: ts => by
    show (addVars (addVar f t).1 ts).1.numLocals = _
    rw [addVars_numLocals]
    simp only [addVar, Function.numLocals, List.length_append, List.length_cons,
      List.length_nil]
    omega

theorem addVars_indexes (f : Function) :
    ∀ ts, (addVars f ts).2 = List.range' f.numLocals ts.length
  | [] => rfl
  | t :: ts => by
    show (addVar f t).2 :: (addVars (addVar f t).1 ts).2 = _
    rw [addVars_indexes, List.length_cons, List.range'_succ]
    simp [addVar, Function.numLocals, Nat.add_assoc]

theorem alloc_spec {f g : Function} {e : Expression} {id : ExprId} (h : alloc f e = (g, id)) :
    f.Extends g ∧ g.expr? id = some e.expr := by
  simp only [alloc, Prod.mk.injEq] at h
  obtain ⟨rfl, rfl⟩ := h
  exact ⟨alloc_extends f e, expr?_alloc f e⟩

@[simp] theorem alloc_numLocals (f : Function) (e : Expression) :
    (alloc f e).1.numLocals = f.numLocals := rfl

theorem buildEach_numLocals {α : Type} (mk : Function → α → Function × ExprId)
    (hmk : ∀ f x, (mk f x).1.numLocals = f.numLocals) :
    ∀ (xs : List α) (f : Function), (buildEach mk f xs).1.numLocals = f.numLocals
  | [], _ => rfl
  | x :: xs, f => (buildEach_numLocals mk hmk xs _).trans (hmk f x)

/-- What `buildEach` builds: each item's expression, in a function every later one extends. -/
theorem buildEach_spec {α : Type} (mk : Function → α → Function × ExprId)
    (P : α → Function → ExprId → Prop) (hmk : ∀ f x, f.Extends (mk f x).1 ∧ P x (mk f x).1 (mk f x).2)
    (hP : ∀ x f g id, f.Extends g → P x f id → P x g id) :
    ∀ (xs : List α) (f g : Function), (buildEach mk f xs).1.Extends g →
      f.Extends g ∧ List.Forall₂ (fun x id => P x g id) xs (buildEach mk f xs).2
  | [], f, g, h => ⟨h, .nil⟩
  | x :: xs, f, g, h => by
    obtain ⟨hext, hrest⟩ := buildEach_spec mk P hmk hP xs (mk f x).1 g h
    exact ⟨(hmk f x).1.trans hext, .cons (hP x _ g _ hext (hmk f x).2) hrest⟩

end Builder

end BinaryenPasses.IR
