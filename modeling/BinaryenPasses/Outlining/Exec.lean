import BinaryenPasses.Outlining.FunctionList

/-!
# Running straight-line code: fuel, sequencing, stack heights

The facts about `exec` that the preservation of a function's outcome by `Outlining::run` rests
on.  A run that ends within some fuel ends alike with more (`exec_mono`).  A stretch of
instructions that neither writes a local nor leaves the function hands its stack to what follows
(`exec_append`).  A module whose bodies keep the stack discipline of their declared signatures
(`Module.Typed`) has calls that return exactly the declared number of results
(`exec_results_length`), and a stretch run on top of a deeper stack leaves the part below its
`need` untouched (`exec_frame`); `need` is the parameter count `StackSignature` composes
(`params_foldl_compose`).

* `exec_mono` — fuel monotonicity;
* `exec_append` — a straight stretch, then the rest;
* `exec_results_length` — type soundness for the stack heights;
* `exec_frame` — the frame rule for the stack;
* `exec_cons` — one instruction (`execInstr`), then the rest;
* `exec_stretch` — a stretch of a checked body runs on the top values it needs;
* `exec_localGets_append` — the `local.get`s of a callee's prologue rebuild the caller's
  operands;
* `typeCheck_after` — after a stretch, the rest is checked at the height the stretch leaves;
* **`params_foldl_compose`** — the parameters of a stretch's composed signature are its `need`.
-/

namespace BinaryenPasses.Outlining

open Reconstruct

/-! ## Outcomes -/

namespace Outcome

/-- Go on from the stack a completed run leaves; any other outcome is final. -/
def andThen : Outcome → (List Int → Outcome) → Outcome
  | .values st, k => k st
  | o, _ => o

/-- The outcome of a run on a stack with `rest` below it, when the run never looks at `rest`. -/
def below (o : Outcome) (rest : List Int) : Outcome := o.andThen fun st => .values (st ++ rest)

@[simp] theorem andThen_values (st : List Int) (k : List Int → Outcome) :
    (Outcome.values st).andThen k = k st := rfl

@[simp] theorem andThen_trap (k : List Int → Outcome) : Outcome.trap.andThen k = .trap := rfl

@[simp] theorem andThen_outOfFuel (k : List Int → Outcome) :
    Outcome.outOfFuel.andThen k = .outOfFuel := rfl

end Outcome

/-! ## One instruction -/

/-- What one instruction does: the body stops with an outcome, or goes on with these locals and
this stack. -/
inductive Step
  | stop (o : Outcome)
  | next (locals stack : List Int)

/-- One instruction as `exec` runs it, a callee being run with fuel `n`. -/
def execInstr (m : Module) (n : Nat) : Instr → List Int → List Int → Step
  | .const v, locals, stack => .next locals (v :: stack)
  | .drop, locals, _ :: stack => .next locals stack
  | .localGet j, locals, stack =>
    match locals[j]? with
    | some v => .next locals (v :: stack)
    | none => .stop .trap
  | .localSet j, locals, v :: stack => .next (locals.set j v) stack
  | .call target isReturn, locals, stack =>
    match m.getFunction? target with
    | some ⟨_, params, _, vars, some body⟩ =>
      match exec m n body ((stack.take params).reverse ++ List.replicate vars 0) [] with
      | .values results =>
        if isReturn then .stop (.values results) else .next locals (results ++ stack.drop params)
      | r => .stop r
    | _ => .stop .trap
  | .ret, _, stack => .stop (.values stack)
  | _, _, _ => .stop .trap

/-- `exec` runs one instruction, then the rest with one unit of fuel less. -/
theorem exec_cons (m : Module) (n : Nat) (i : Instr) (rest : List Instr) (locals stack : List Int) :
    exec m (n + 1) (i :: rest) locals stack =
      match execInstr m n i locals stack with
      | .stop o => o
      | .next locals' stack' => exec m n rest locals' stack' := by
  cases i with
  | call target isReturn =>
    simp only [exec, execInstr]
    rcases m.getFunction? target with _ | ⟨_, params, _, vars, _ | body⟩ <;> simp only
    cases exec m n body ((stack.take params).reverse ++ List.replicate vars 0) [] with
    | values results => simp only; split <;> rfl
    | _ => rfl
  | localGet j => simp only [exec, execInstr]; cases locals[j]? <;> rfl
  | _ => cases stack <;> rfl

/-- Only a call depends on the module and the fuel. -/
theorem execInstr_plain {i : Instr} (hi : ∀ target isReturn, i ≠ .call target isReturn)
    (m m' : Module) (n n' : Nat) (locals stack : List Int) :
    execInstr m n i locals stack = execInstr m' n' i locals stack := by
  cases i <;> cases stack <;> first | rfl | exact absurd rfl (hi _ _)

/-- A call runs its callee's body on the operands and zeroed locals. -/
theorem execInstr_call (m : Module) {target : Name} {fn : Func} {body : List Instr}
    (hg : m.getFunction? target = some fn) (hb : fn.body = some body) (n : Nat)
    (isReturn : Bool) (locals stack : List Int) :
    execInstr m n (.call target isReturn) locals stack =
      match exec m n body ((stack.take fn.params).reverse ++ List.replicate fn.vars 0) [] with
      | .values results =>
        if isReturn then .stop (.values results)
        else .next locals (results ++ stack.drop fn.params)
      | r => .stop r := by
  obtain ⟨_, _, _, _, _⟩ := fn
  cases hb
  simp only [execInstr, hg]

variable (m : Module)

/-! ## Fuel -/

/-- A run that ends within some fuel ends alike with more. -/
theorem exec_mono : ∀ {n n' : Nat} {body : List Instr} {locals stack : List Int}, n ≤ n' →
    exec m n body locals stack ≠ .outOfFuel →
    exec m n' body locals stack = exec m n body locals stack
  | 0, _, _, _, _, _, h => absurd rfl h
  | n + 1, n' + 1, [], _, _, _, _ => rfl
  | n + 1, n' + 1, i :: rest, locals, stack, hle, h => by
    have hle' : n ≤ n' := by omega
    cases i with
    | const v => simp only [exec] at h ⊢; exact exec_mono hle' h
    | drop =>
      cases stack with
      | nil => rfl
      | cons _ _ => simp only [exec] at h ⊢; exact exec_mono hle' h
    | localGet j =>
      simp only [exec] at h ⊢
      cases hj : locals[j]? with
      | none => rfl
      | some v => simp only [hj] at h ⊢; exact exec_mono hle' h
    | localSet j =>
      cases stack with
      | nil => rfl
      | cons _ _ => simp only [exec] at h ⊢; exact exec_mono hle' h
    | call target isReturn =>
      simp only [exec] at h ⊢
      rcases hg : m.getFunction? target with _ | ⟨_, params, _, vars, _ | body⟩ <;>
        simp only [hg] at h ⊢
      generalize hc : exec m n body ((stack.take params).reverse ++ List.replicate vars 0) [] = c
        at h
      have hc' : c ≠ .outOfFuel := by rintro rfl; exact h rfl
      rw [exec_mono hle' (hc ▸ hc'), hc]
      rcases c with results | _ | _
      · simp only at h ⊢
        split_ifs at h ⊢
        · rfl
        · exact exec_mono hle' h
      · rfl
      · exact absurd rfl hc'
    | unreachable => rfl
    | ret => rfl

/-! ## Straight stretches -/

/-- An instruction that neither writes a local nor leaves the function. -/
def Instr.isStraight : Instr → Bool
  | .localSet _ | .ret => false
  | .call _ isReturn => !isReturn
  | _ => true

/-- An instruction that may stand in an outlined stretch: the content filters take out
`local.get`, `local.set` and `return`, and a tail call is what `outlining_returnCall_traps`
shows the pass cannot move. -/
def Instr.isOutlinable : Instr → Bool
  | .const _ | .drop | .unreachable => true
  | .call _ isReturn => !isReturn
  | _ => false

theorem Instr.isStraight_of_isOutlinable {i : Instr} (h : i.isOutlinable) : i.isStraight := by
  cases i <;> simp_all [Instr.isOutlinable, Instr.isStraight]

/-- A straight stretch hands the stack it leaves to the instructions after it, with the fuel it
did not use. -/
theorem exec_append (post : List Instr) :
    ∀ {l : List Instr}, (∀ i ∈ l, i.isStraight) → ∀ (n : Nat) (locals stack : List Int),
    exec m n (l ++ post) locals stack =
      (exec m n l locals stack).andThen fun st => exec m (n - l.length) post locals st
  | [], _, 0, _, _ => rfl
  | [], _, _ + 1, _, _ => rfl
  | _ :: _, _, 0, _, _ => rfl
  | i :: l, hl, n + 1, locals, stack => by
    have ih := exec_append post (fun j hj => hl j (List.mem_cons_of_mem _ hj))
    have hi := hl i (List.mem_cons_self _ _)
    rw [List.cons_append, List.length_cons, Nat.add_sub_add_right]
    cases i with
    | const v => exact ih n locals _
    | drop =>
      cases stack with
      | nil => rfl
      | cons _ stack => exact ih n locals stack
    | localGet j =>
      simp only [exec]
      cases locals[j]? with
      | none => rfl
      | some v => exact ih n locals _
    | call target isReturn =>
      obtain rfl : isReturn = false := by simpa [Instr.isStraight] using hi
      simp only [exec]
      rcases m.getFunction? target with _ | ⟨_, params, _, vars, _ | body⟩
      · rfl
      · rfl
      · simp only
        rcases exec m n body ((stack.take params).reverse ++ List.replicate vars 0) [] with
          results | _ | _
        · exact ih n locals _
        · rfl
        · rfl
    | unreachable => rfl
    | localSet _ => simp [Instr.isStraight] at hi
    | ret => simp [Instr.isStraight] at hi

/-! ## The stack a stretch needs -/

/-- The stack height a straight stretch needs at its start, every callee returning the results
it declares: each instruction finds its operands, and nothing after an unreachable-typed
instruction runs. -/
def need : List Instr → Nat
  | [] => 0
  | i :: rest =>
    if (i.stackSignature m).polymorphic then (i.stackSignature m).params
    else max (i.stackSignature m).params
      (need rest + (i.stackSignature m).params - (i.stackSignature m).results)

/-- **`StackSignature` composes the stack a stretch needs.**  Folding `operator+=` over a
stretch from the signature `acc` of what came before adds to `acc`'s parameters what the stretch
needs beyond `acc`'s results, unless `acc` is already polymorphic. -/
theorem params_foldl_compose : ∀ (l : List Instr) (acc : StackSignature),
    (l.foldl (fun sig i => sig.compose (i.stackSignature m)) acc).params =
      if acc.polymorphic then acc.params else acc.params + (need m l - acc.results)
  | [], acc => by split_ifs <;> simp [need]
  | i :: l, ⟨P, R, poly⟩ => by
    rw [List.foldl_cons, params_foldl_compose l]
    rcases hsig : i.stackSignature m with ⟨p, r, ipoly⟩
    cases poly <;> cases ipoly <;> simp [StackSignature.compose, need, hsig, Nat.max_def] <;>
      (try split_ifs) <;> omega

@[simp] theorem need_nil : need m [] = 0 := rfl

@[simp] theorem need_const (v : Int) (l : List Instr) :
    need m (.const v :: l) = need m l - 1 := by
  simp [need, Instr.stackSignature]

@[simp] theorem need_localGet (j : Nat) (l : List Instr) :
    need m (.localGet j :: l) = need m l - 1 := by
  simp [need, Instr.stackSignature]

@[simp] theorem need_drop (l : List Instr) : need m (.drop :: l) = need m l + 1 := by
  simp [need, Instr.stackSignature]

@[simp] theorem need_unreachable (l : List Instr) : need m (.unreachable :: l) = 0 := rfl

theorem need_call {target : Name} {fn : Func} (hg : m.getFunction? target = some fn)
    (l : List Instr) :
    need m (.call target false :: l) = max fn.params (need m l + fn.params - fn.results) := by
  simp [need, Instr.stackSignature, hg]

/-! ## The stack discipline -/

/-- The stack discipline of a straight-line body in a function of `nlocals` locals returning
`results` values, run from height `h`: every instruction finds its operands, reads or writes an
existing local and calls a function that has a body, and the body leaves `results` values at its
end, at a `return` or through a tail call.  Nothing after an `unreachable` is checked. -/
def typeCheck (nlocals results : Nat) : List Instr → Nat → Bool
  | [], h => h == results
  | .const _ :: rest, h => typeCheck nlocals results rest (h + 1)
  | .localGet j :: rest, h => j < nlocals && typeCheck nlocals results rest (h + 1)
  | .drop :: rest, h => 0 < h && typeCheck nlocals results rest (h - 1)
  | .localSet j :: rest, h => j < nlocals && 0 < h && typeCheck nlocals results rest (h - 1)
  | .call target isReturn :: rest, h =>
    match m.getFunction? target with
    | some ⟨_, params, res, _, some _⟩ =>
      params ≤ h &&
        if isReturn then res == results else typeCheck nlocals results rest (h - params + res)
    | _ => false
  | .unreachable :: _, _ => true
  | .ret :: _, h => h == results

/-- A function keeps the stack discipline of its signature. -/
def Func.Typed (fn : Func) : Prop :=
  ∀ body ∈ fn.body, typeCheck m (fn.params + fn.vars) fn.results body 0

/-- Every function of the module keeps the stack discipline of its signature. -/
def Module.Typed : Prop := ∀ fn ∈ m, fn.Typed m

instance : DecidablePred (Func.Typed m) := fun fn =>
  inferInstanceAs (Decidable (∀ body ∈ fn.body, _))

instance : Decidable m.Typed := inferInstanceAs (Decidable (∀ fn ∈ m, fn.Typed m))

theorem mem_of_getFunction? {name : Name} {fn : Func} (h : m.getFunction? name = some fn) :
    fn ∈ m :=
  List.mem_of_find?_eq_some h

variable {m}

/-- **Stack heights.**  In a module that keeps the stack discipline, a body run from a stack of
the height it is checked at ends with exactly the values its function returns. -/
theorem exec_results_length (hm : m.Typed) : ∀ {n : Nat} {body : List Instr}
    {nlocals results h : Nat} {locals stack st : List Int},
    typeCheck m nlocals results body h → stack.length = h →
    exec m n body locals stack = .values st → st.length = results
  | 0, _, _, _, _, _, _, _, _, _, hrun => by cases hrun
  | n + 1, [], _, _, _, _, _, _, ht, hh, hrun => by
    simp only [typeCheck, beq_iff_eq, exec, Outcome.values.injEq] at ht hrun
    rw [← hrun, hh, ht]
  | n + 1, i :: rest, nlocals, results, h, locals, stack, st, ht, hh, hrun => by
    cases i with
    | const v =>
      exact exec_results_length hm (h := h + 1) ht (by simp [hh]) hrun
    | localGet j =>
      simp only [typeCheck, Bool.and_eq_true, decide_eq_true_eq] at ht
      simp only [exec] at hrun
      split at hrun
      · exact exec_results_length hm ht.2 (by simp [hh]) hrun
      · cases hrun
    | drop =>
      simp only [typeCheck, Bool.and_eq_true, decide_eq_true_eq] at ht
      cases stack with
      | nil => cases hrun
      | cons _ stack =>
        exact exec_results_length hm ht.2 (by simp at hh; omega) hrun
    | localSet j =>
      simp only [typeCheck, Bool.and_eq_true, decide_eq_true_eq] at ht
      cases stack with
      | nil => cases hrun
      | cons _ stack =>
        exact exec_results_length hm ht.2 (by simp at hh; omega) hrun
    | call target isReturn =>
      simp only [typeCheck] at ht
      simp only [exec] at hrun
      rcases hg : m.getFunction? target with _ | ⟨_, params, res, vars, _ | body⟩ <;>
        simp only [hg, Bool.false_eq_true] at ht hrun
      simp only [Bool.and_eq_true, decide_eq_true_eq] at ht
      have hbody := hm _ (mem_of_getFunction? m hg) body rfl
      rcases hc : exec m n body ((stack.take params).reverse ++ List.replicate vars 0) [] with
        results' | _ | _ <;> simp only [hc, reduceCtorEq] at hrun
      have hres := exec_results_length hm hbody List.length_nil hc
      cases isReturn with
      | true =>
        simp only [if_true, beq_iff_eq] at ht hrun
        rw [← Outcome.values.inj hrun, hres, ht.2]
      | false =>
        simp only [Bool.false_eq_true, if_false] at ht hrun
        exact exec_results_length hm ht.2 (by simp [hres, hh]; omega) hrun
    | unreachable => cases hrun
    | ret =>
      simp only [typeCheck, beq_iff_eq, exec, Outcome.values.injEq] at ht hrun
      rw [← hrun, hh, ht]

/-- After an instruction that goes on, the rest of a checked body is checked at the height it
leaves. -/
theorem typeCheck_next (hm : m.Typed) {nlocals results n : Nat} {i : Instr}
    {rest : List Instr} {locals stack locals' stack' : List Int}
    (ht : typeCheck m nlocals results (i :: rest) stack.length)
    (hstep : execInstr m n i locals stack = .next locals' stack') :
    typeCheck m nlocals results rest stack'.length := by
  cases i with
  | const v => cases hstep; simpa [typeCheck] using ht
  | localGet j =>
    simp only [execInstr] at hstep
    split at hstep
    · cases hstep
      simp only [typeCheck, Bool.and_eq_true] at ht
      simpa using ht.2
    · cases hstep
  | drop =>
    cases stack with
    | nil => cases hstep
    | cons _ stack =>
      cases hstep
      simp only [typeCheck, Bool.and_eq_true] at ht
      simpa using ht.2
  | localSet j =>
    cases stack with
    | nil => cases hstep
    | cons _ stack =>
      cases hstep
      simp only [typeCheck, Bool.and_eq_true] at ht
      simpa using ht.2
  | call target isReturn =>
    simp only [typeCheck] at ht
    rcases hg : m.getFunction? target with _ | ⟨_, params, res, vars, _ | body⟩ <;>
      simp only [hg, Bool.false_eq_true] at ht
    rw [execInstr_call m hg rfl] at hstep
    rcases hc : exec m n body ((stack.take params).reverse ++ List.replicate vars 0) [] with
      results' | _ | _ <;> simp only [hc, reduceCtorEq] at hstep
    cases isReturn with
    | true => cases hstep
    | false =>
      simp only [Bool.false_eq_true, if_false, Step.next.injEq] at hstep ht
      obtain ⟨rfl, rfl⟩ := hstep
      simp only [Bool.and_eq_true, decide_eq_true_eq] at ht
      have hres := exec_results_length hm (hm _ (mem_of_getFunction? m hg) body rfl)
        List.length_nil hc
      have hlen : (results' ++ stack.drop params).length = stack.length - params + res := by
        simp only [List.length_append, hres, List.length_drop]; omega
      exact hlen ▸ ht.2
  | unreachable => cases hstep
  | ret => cases hstep

/-! ## The frame rule -/

/-- A checked body gives a straight stretch at its start at least the stack it needs. -/
theorem need_le_of_typeCheck {nlocals results : Nat} (post : List Instr) :
    ∀ {l : List Instr} {h : Nat}, (∀ i ∈ l, i.isStraight) →
    typeCheck m nlocals results (l ++ post) h → need m l ≤ h
  | [], _, _, _ => Nat.zero_le _
  | i :: l, h, hl, ht => by
    have ih := @need_le_of_typeCheck nlocals results post l
    have hl' : ∀ j ∈ l, j.isStraight := fun j hj => hl j (List.mem_cons_of_mem _ hj)
    have hi := hl i (List.mem_cons_self _ _)
    rw [List.cons_append] at ht
    cases i with
    | const v =>
      have := ih hl' ht
      rw [need_const]
      omega
    | localGet j =>
      simp only [typeCheck, Bool.and_eq_true] at ht
      have := ih hl' ht.2
      rw [need_localGet]
      omega
    | drop =>
      simp only [typeCheck, Bool.and_eq_true, decide_eq_true_eq] at ht
      have := ih hl' ht.2
      rw [need_drop]
      omega
    | call target isReturn =>
      obtain rfl : isReturn = false := by simpa [Instr.isStraight] using hi
      simp only [typeCheck] at ht
      rcases hg : m.getFunction? target with _ | ⟨_, params, res, vars, _ | body⟩ <;>
        simp only [hg, Bool.false_eq_true] at ht
      simp only [Bool.and_eq_true, decide_eq_true_eq, Bool.false_eq_true, if_false] at ht
      have := ih hl' ht.2
      rw [need_call m hg]
      simp only
      omega
    | unreachable => simp
    | localSet _ => simp [Instr.isStraight] at hi
    | ret => simp [Instr.isStraight] at hi

/-- **Frame rule for the stack.**  In a module that keeps the stack discipline, a straight
stretch run on a stack `cur` that holds what it needs, with `rest` below, runs as on `cur` alone
and leaves `rest` below. -/
theorem exec_frame (hm : m.Typed) (rest : List Int) : ∀ {n : Nat} {l : List Instr}
    {locals cur : List Int}, (∀ i ∈ l, i.isStraight) → need m l ≤ cur.length →
    exec m n l locals (cur ++ rest) = (exec m n l locals cur).below rest
  | 0, _, _, _, _, _ => rfl
  | _ + 1, [], _, _, _, _ => rfl
  | n + 1, i :: l, locals, cur, hl, hneed => by
    have ih := fun locals cur => @exec_frame hm rest n l locals cur
    have hl' : ∀ j ∈ l, j.isStraight := fun j hj => hl j (List.mem_cons_of_mem _ hj)
    have hi := hl i (List.mem_cons_self _ _)
    cases i with
    | const v =>
      rw [need_const] at hneed
      exact ih locals (v :: cur) hl' (by simp only [List.length_cons]; omega)
    | localGet j =>
      rw [need_localGet] at hneed
      simp only [exec]
      cases locals[j]? with
      | none => rfl
      | some v => exact ih locals (v :: cur) hl' (by simp only [List.length_cons]; omega)
    | drop =>
      rw [need_drop] at hneed
      cases cur with
      | nil => simp at hneed
      | cons _ cur =>
        exact ih locals cur hl' (by simp only [List.length_cons] at hneed; omega)
    | call target isReturn =>
      obtain rfl : isReturn = false := by simpa [Instr.isStraight] using hi
      simp only [exec]
      rcases hg : m.getFunction? target with _ | ⟨_, params, res, vars, _ | body⟩
      · rfl
      · rfl
      · rw [need_call m hg] at hneed
        simp only at hneed
        have hp : params ≤ cur.length := by omega
        simp only [List.take_append_of_le_length hp, List.drop_append_of_le_length hp]
        rcases hc : exec m n body ((cur.take params).reverse ++ List.replicate vars 0) [] with
          results | _ | _
        · have hres := exec_results_length hm (hm _ (mem_of_getFunction? m hg) body rfl)
            List.length_nil hc
          simp only [Bool.false_eq_true, if_false]
          rw [← List.append_assoc]
          exact ih locals _ hl' (by simp [hres]; omega)
        · rfl
        · rfl
    | unreachable => rfl
    | localSet _ => simp [Instr.isStraight] at hi
    | ret => simp [Instr.isStraight] at hi

/-- A straight stretch of a checked body runs on the top values it needs, and the rest runs on
what it leaves above the values below. -/
theorem exec_stretch (hm : m.Typed) {seg : List Instr} (hseg : ∀ i ∈ seg, i.isStraight)
    (post : List Instr) (n : Nat) (locals stack : List Int) (hp : need m seg ≤ stack.length) :
    exec m n (seg ++ post) locals stack =
      (exec m n seg locals (stack.take (need m seg))).andThen fun st =>
        exec m (n - seg.length) post locals (st ++ stack.drop (need m seg)) := by
  conv_lhs => rw [exec_append m post hseg, ← List.take_append_drop (need m seg) stack,
    exec_frame hm _ hseg (by simp [hp])]
  cases exec m n seg locals (stack.take (need m seg)) <;> rfl

/-- The callee's prologue: `local.get a … local.get (a + k - 1)` push the locals from `a` on, the
last one on top, one unit of fuel each. -/
theorem exec_localGets_append (L : List Int) (post : List Instr) :
    ∀ (k a n : Nat) (stack : List Int), a + k ≤ L.length →
    exec m n ((List.range' a k).map Instr.localGet ++ post) L stack =
      if k < n then exec m (n - k) post L (((L.drop a).take k).reverse ++ stack)
      else .outOfFuel
  | 0, _, n, _, _ => by cases n <;> simp [exec]
  | _ + 1, _, 0, _, _ => by simp [exec]
  | k + 1, a, n + 1, stack, hk => by
    have ha : a < L.length := by omega
    rw [List.range'_succ, List.map_cons, List.cons_append, exec_cons]
    simp only [execInstr, List.getElem?_eq_getElem ha]
    rw [exec_localGets_append L post k (a + 1) n _ (by omega), List.drop_eq_getElem_cons ha,
      List.take_succ_cons, List.reverse_cons, List.append_assoc, List.singleton_append]
    simp only [Nat.add_lt_add_iff_right, Nat.add_sub_add_right]

/-! ## Stretches inside a checked body -/

/-- The locals play no part in a run of outlinable instructions. -/
theorem exec_locals_irrelevant {l : List Instr} (hl : ∀ i ∈ l, i.isOutlinable) :
    ∀ (n : Nat) (locals locals' stack : List Int),
    exec m n l locals stack = exec m n l locals' stack := by
  induction l with
  | nil => intro n; cases n <;> intros <;> rfl
  | cons i l ih =>
    intro n locals locals' stack
    have ih' := ih fun j hj => hl j (List.mem_cons_of_mem _ hj)
    have hi := hl i (List.mem_cons_self _ _)
    cases n with
    | zero => rfl
    | succ n =>
      cases i with
      | const v => exact ih' n locals locals' _
      | drop =>
        cases stack with
        | nil => rfl
        | cons _ stack => exact ih' n locals locals' stack
      | call target isReturn =>
        obtain rfl : isReturn = false := by simpa [Instr.isOutlinable] using hi
        simp only [exec]
        rcases m.getFunction? target with _ | ⟨_, params, _, vars, _ | body⟩
        · rfl
        · rfl
        · simp only
          rcases exec m n body ((stack.take params).reverse ++ List.replicate vars 0) [] with
            results | _ | _
          · exact ih' n locals locals' _
          · rfl
          · rfl
      | unreachable => rfl
      | localGet _ => simp [Instr.isOutlinable] at hi
      | localSet _ => simp [Instr.isOutlinable] at hi
      | ret => simp [Instr.isOutlinable] at hi

/-- A stretch ending in `unreachable` never completes. -/
theorem exec_ne_values_of_getLast {l : List Instr} (hl : ∀ i ∈ l, i.isStraight)
    (hlast : l.getLast? = some .unreachable) (n : Nat) (locals stack st : List Int) :
    exec m n l locals stack ≠ .values st := by
  obtain ⟨init, rfl⟩ := List.getLast?_eq_some_iff.mp hlast
  rw [exec_append m [.unreachable] (fun i hi => hl i (List.mem_append_left _ hi))]
  rcases exec m n init locals stack with st' | _ | _
  · simp only [Outcome.andThen_values]
    cases n - init.length <;> simp [exec]
  · simp
  · simp

/-- After a straight stretch that completes, the rest of a checked body is checked at the height
the stretch leaves. -/
theorem typeCheck_after (hm : m.Typed) {nlocals results : Nat} (post : List Instr) :
    ∀ {l : List Instr} {n : Nat} {locals stack st : List Int}, (∀ i ∈ l, i.isStraight) →
    typeCheck m nlocals results (l ++ post) stack.length →
    exec m n l locals stack = .values st → typeCheck m nlocals results post st.length
  | [], 0, _, _, _, _, _, hrun => by cases hrun
  | [], _ + 1, _, _, _, _, ht, hrun => by
    simp only [exec, Outcome.values.injEq] at hrun
    rwa [← hrun]
  | _ :: _, 0, _, _, _, _, _, hrun => by cases hrun
  | i :: l, n + 1, locals, stack, st, hl, ht, hrun => by
    have hl' : ∀ j ∈ l, j.isStraight := fun j hj => hl j (List.mem_cons_of_mem _ hj)
    have hi := hl i (List.mem_cons_self _ _)
    rw [List.cons_append] at ht
    cases i with
    | const v =>
      simp only [typeCheck] at ht
      exact typeCheck_after hm post hl' (by simpa using ht) hrun
    | localGet j =>
      simp only [typeCheck, Bool.and_eq_true] at ht
      simp only [exec] at hrun
      split at hrun
      · exact typeCheck_after hm post hl' (by simpa using ht.2) hrun
      · cases hrun
    | drop =>
      simp only [typeCheck, Bool.and_eq_true, decide_eq_true_eq] at ht
      cases stack with
      | nil => cases hrun
      | cons _ stack => exact typeCheck_after hm post hl' (by simpa using ht.2) hrun
    | call target isReturn =>
      obtain rfl : isReturn = false := by simpa [Instr.isStraight] using hi
      simp only [typeCheck] at ht
      simp only [exec] at hrun
      rcases hg : m.getFunction? target with _ | ⟨_, params, res, vars, _ | body⟩ <;>
        simp only [hg, Bool.false_eq_true, reduceCtorEq] at ht hrun
      simp only [Bool.and_eq_true, decide_eq_true_eq, Bool.false_eq_true, if_false] at ht
      rcases hc : exec m n body ((stack.take params).reverse ++ List.replicate vars 0) [] with
        results' | _ | _ <;> simp only [hc, reduceCtorEq] at hrun
      have hres := exec_results_length hm (hm _ (mem_of_getFunction? m hg) body rfl)
        List.length_nil hc
      simp only [Bool.false_eq_true, if_false] at hrun
      have hlen : (results' ++ stack.drop params).length = stack.length - params + res := by
        simp only [List.length_append, hres, List.length_drop]; omega
      exact typeCheck_after hm post hl' (hlen ▸ ht.2) hrun
    | unreachable => cases hrun
    | localSet _ => simp [Instr.isStraight] at hi
    | ret => simp [Instr.isStraight] at hi

/-- Run alone on the values it needs, an outlinable stretch of a checked body is checked too. -/
theorem typeCheck_of_need {nlocals results : Nat} (post : List Instr) (nlocals' : Nat) :
    ∀ {l : List Instr} {h : Nat} (p : Nat), (∀ i ∈ l, i.isOutlinable) →
    typeCheck m nlocals results (l ++ post) h → need m l ≤ p →
    ∃ r, typeCheck m nlocals' r l p
  | [], _, p, _, _, _ => ⟨p, by simp [typeCheck]⟩
  | i :: l, h, p, hl, ht, hneed => by
    have hl' : ∀ j ∈ l, j.isOutlinable := fun j hj => hl j (List.mem_cons_of_mem _ hj)
    have hi := hl i (List.mem_cons_self _ _)
    rw [List.cons_append] at ht
    cases i with
    | const v =>
      rw [need_const] at hneed
      simp only [typeCheck] at ht ⊢
      exact typeCheck_of_need post nlocals' (p + 1) hl' ht (by omega)
    | drop =>
      rw [need_drop] at hneed
      simp only [typeCheck, Bool.and_eq_true, decide_eq_true_eq] at ht ⊢
      obtain ⟨r, hr⟩ := typeCheck_of_need post nlocals' (p - 1) hl' ht.2 (by omega)
      exact ⟨r, by omega, hr⟩
    | call target isReturn =>
      obtain rfl : isReturn = false := by simpa [Instr.isOutlinable] using hi
      simp only [typeCheck] at ht ⊢
      rcases hg : m.getFunction? target with _ | ⟨_, params, res, vars, _ | body⟩ <;>
        simp only [hg, Bool.false_eq_true] at ht
      rw [need_call m hg] at hneed
      simp only [Bool.and_eq_true, decide_eq_true_eq, Bool.false_eq_true, if_false] at ht hneed ⊢
      obtain ⟨r, hr⟩ := typeCheck_of_need post nlocals' (p - params + res) hl' ht.2 (by omega)
      exact ⟨r, by omega, hr⟩
    | unreachable => exact ⟨0, rfl⟩
    | localGet _ => simp [Instr.isOutlinable] at hi
    | localSet _ => simp [Instr.isOutlinable] at hi
    | ret => simp [Instr.isOutlinable] at hi

end BinaryenPasses.Outlining
