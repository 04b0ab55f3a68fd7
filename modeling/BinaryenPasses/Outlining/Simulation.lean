import BinaryenPasses.Outlining.Exec

/-!
# Outlined code computes what it replaces

What `Outlining::run` must keep: a function calls its outlined callee where a stretch of its body
stood, and the callee runs that stretch on the caller's operands.  `Outlined m m' l l'` says that
`l'`, a body of the module `m'`, is the body `l` of `m` with stretches replaced so: each stretch
is made of outlinable instructions, its callee takes `need` parameters and has the body
`Outlining::outline` builds for it, the `local.get`s of the parameters followed by the stretch, and
the call is followed by `unreachable` only where the stretch ends in one.  `OutlinesModule m m'`
says that every function of `m` is in `m'` under its name, with its signature and a related body.

The simulation holds in both directions and with any fuel: a run of one side that ends within
some fuel is matched by a run of the other side with the same outcome.  Both directions are
proved by strong induction on the fuel of the given run, one instruction at a time
(`execInstr_forward`, `execInstr_backward`), a stretch at once on the top of the stack
(`exec_stretch`, `exec_call_outlined`).

* `exec_call_outlined` — a call of an outlined callee runs its stretch on the caller's top values;
* `exec_outlined_forward` — a run of `m` is matched by `m'` on the outlined code;
* `exec_outlined_backward` — a run of `m'` on the outlined code is matched by `m`;
* **`invoke_outlined`** — in a module that keeps the stack discipline, every function computes
  the same values, or the same trap, in a module that outlines it.
-/

namespace BinaryenPasses.Outlining

open Reconstruct

/-- The body `Outlining::outline` builds for the callee of a stretch: one `local.get` per
parameter, then the stretch. -/
def calleeBody (params : Nat) (seg : List Instr) : List Instr :=
  (List.range params).map Instr.localGet ++ seg

variable (m m' : Module)

/-- `Outlined m m' l l'`: the body `l'` of `m'` is the body `l` of `m` with stretches of outlinable
instructions replaced by calls of their callees in `m'`, each followed by `unreachable` only
where its stretch ends in one. -/
inductive Outlined : List Instr → List Instr → Prop
  | nil : Outlined [] []
  | keep (i : Instr) {l l' : List Instr} : Outlined l l' → Outlined (i :: l) (i :: l')
  | call {seg l l' : List Instr} {callee : Name} {results : Nat} (ends : Bool) :
      seg ≠ [] → (∀ i ∈ seg, i.isOutlinable) →
      (ends = true → seg.getLast? = some .unreachable) →
      m'.getFunction? callee =
        some ⟨callee, need m seg, results, 0, some (calleeBody (need m seg) seg)⟩ →
      Outlined l l' →
      Outlined (seg ++ l) (.call callee false :: ((if ends then [.unreachable] else []) ++ l'))

/-- `m'` outlines `m`: every function of `m` is found in `m'` under its name, with its parameters
and locals, and with a body related to its own. -/
def OutlinesModule : Prop :=
  ∀ name fn, m.getFunction? name = some fn → ∃ fn', m'.getFunction? name = some fn' ∧
    fn'.params = fn.params ∧ fn'.vars = fn.vars ∧ Option.Rel (Outlined m m') fn.body fn'.body

/-- The forward simulation with fuel `n`: a run of checked code of `m` that ends within `n` is
matched, for some fuel, by `m'` on the related code. -/
def SimForward (n : Nat) : Prop :=
  ∀ ⦃l l' : List Instr⦄, Outlined m m' l l' → ∀ ⦃nlocals results : Nat⦄ ⦃locals stack : List Int⦄,
    typeCheck m nlocals results l stack.length → exec m n l locals stack ≠ .outOfFuel →
    ∃ n', exec m' n' l' locals stack = exec m n l locals stack

/-- The backward simulation with fuel `n`: a run of `m'` on the code related to checked code of
`m` that ends within `n` is matched, for some fuel, by `m`. -/
def SimBackward (n : Nat) : Prop :=
  ∀ ⦃l l' : List Instr⦄, Outlined m m' l l' → ∀ ⦃nlocals results : Nat⦄ ⦃locals stack : List Int⦄,
    typeCheck m nlocals results l stack.length → exec m' n l' locals stack ≠ .outOfFuel →
    ∃ n₀, exec m n₀ l locals stack = exec m' n l' locals stack

variable {m m'}

/-- Every body is related to itself. -/
theorem Outlined.refl : ∀ l : List Instr, Outlined m m' l l
  | [] => .nil
  | i :: l => .keep i (Outlined.refl l)

/-! ## The callee of a stretch -/

/-- A call of the callee of a stretch runs the stretch on the caller's top `p` values, after one
unit of fuel per parameter, and the caller goes on with what it leaves above the values below. -/
theorem exec_call_outlined {callee : Name} {p results : Nat} {seg : List Instr}
    (hg : m'.getFunction? callee = some ⟨callee, p, results, 0, some (calleeBody p seg)⟩)
    (hseg : ∀ i ∈ seg, i.isOutlinable) (n : Nat) (rest : List Instr) (locals stack : List Int)
    (hp : p ≤ stack.length) :
    exec m' (n + 1) (.call callee false :: rest) locals stack =
      if p < n then
        (exec m' (n - p) seg locals (stack.take p)).andThen fun st =>
          exec m' n rest locals (st ++ stack.drop p)
      else .outOfFuel := by
  rw [exec_cons, execInstr_call m' hg rfl]
  simp only [calleeBody, List.range_eq_range', List.replicate_zero, List.append_nil,
    Bool.false_eq_true, if_false]
  rw [exec_localGets_append _ _ p 0 n [] (by simp [hp])]
  have htop : ((((stack.take p).reverse.drop 0).take p).reverse ++ []) = stack.take p := by
    rw [List.drop_zero, List.take_of_length_le (by simp), List.reverse_reverse, List.append_nil]
  split_ifs
  · rw [htop, exec_locals_irrelevant hseg _ _ locals]
    cases exec m' (n - p) seg locals (stack.take p) <;> rfl
  · rfl

/-! ## One instruction -/

/-- The function a checked call reaches in `m`, and the one of that name in a module that
outlines `m`: same parameters and locals, related bodies. -/
theorem call_outlined (hmm : OutlinesModule m m') {target : Name} {isReturn : Bool}
    {rest : List Instr} {nlocals results h : Nat}
    (ht : typeCheck m nlocals results (.call target isReturn :: rest) h) :
    ∃ fn body fn' body', m.getFunction? target = some fn ∧ fn.body = some body ∧
      m'.getFunction? target = some fn' ∧ fn'.body = some body' ∧
      fn'.params = fn.params ∧ fn'.vars = fn.vars ∧ Outlined m m' body body' := by
  simp only [typeCheck] at ht
  rcases hg : m.getFunction? target with _ | ⟨_, params, res, vars, _ | body⟩ <;>
    simp only [hg, Bool.false_eq_true] at ht
  obtain ⟨fn', hg', hp, hv, hrel⟩ := hmm target _ hg
  rcases hb : fn'.body with _ | body' <;> rw [hb] at hrel <;> cases hrel
  exact ⟨_, body, fn', body', rfl, rfl, hg', hb, hp, hv, by assumption⟩

/-- One instruction, forward: given the simulation with fuel `n`, what a checked instruction of
`m` does with fuel `n` for its callee, `m'` does with every fuel from some point on. -/
theorem execInstr_forward (hm : m.Typed) (hmm : OutlinesModule m m') {n : Nat}
    (hsim : SimForward m m' n) {i : Instr} {rest : List Instr} {nlocals results : Nat}
    {locals stack : List Int} (ht : typeCheck m nlocals results (i :: rest) stack.length)
    (hstop : execInstr m n i locals stack ≠ .stop .outOfFuel) :
    ∃ N, ∀ n' ≥ N, execInstr m' n' i locals stack = execInstr m n i locals stack := by
  by_cases hi : ∀ target isReturn, i ≠ .call target isReturn
  · exact ⟨0, fun n' _ => execInstr_plain hi _ _ _ _ _ _⟩
  push_neg at hi
  obtain ⟨target, isReturn, rfl⟩ := hi
  obtain ⟨fn, body, fn', body', hg, hb, hg', hb', hp, hv, hrel⟩ := call_outlined hmm ht
  rw [execInstr_call m hg hb] at hstop ⊢
  have hcallee : exec m n body ((stack.take fn.params).reverse ++ List.replicate fn.vars 0) [] ≠
      .outOfFuel := by
    intro hc; rw [hc] at hstop; exact hstop rfl
  obtain ⟨N, hN⟩ := hsim hrel (hm _ (mem_of_getFunction? m hg) body hb) hcallee
  refine ⟨N, fun n' hn' => ?_⟩
  rw [execInstr_call m' hg' hb', hp, hv, exec_mono m' hn' (hN ▸ hcallee), hN]

/-- One instruction, backward: given the simulation with fuel `n`, what a checked instruction
does in `m'` with fuel `n` for its callee, `m` does with every fuel from some point on. -/
theorem execInstr_backward (hm : m.Typed) (hmm : OutlinesModule m m') {n : Nat}
    (hsim : SimBackward m m' n) {i : Instr} {rest : List Instr} {nlocals results : Nat}
    {locals stack : List Int} (ht : typeCheck m nlocals results (i :: rest) stack.length)
    (hstop : execInstr m' n i locals stack ≠ .stop .outOfFuel) :
    ∃ N, ∀ n₀ ≥ N, execInstr m n₀ i locals stack = execInstr m' n i locals stack := by
  by_cases hi : ∀ target isReturn, i ≠ .call target isReturn
  · exact ⟨0, fun n₀ _ => execInstr_plain hi _ _ _ _ _ _⟩
  push_neg at hi
  obtain ⟨target, isReturn, rfl⟩ := hi
  obtain ⟨fn, body, fn', body', hg, hb, hg', hb', hp, hv, hrel⟩ := call_outlined hmm ht
  rw [execInstr_call m' hg' hb', hp, hv] at hstop ⊢
  have hcallee : exec m' n body' ((stack.take fn.params).reverse ++ List.replicate fn.vars 0) [] ≠
      .outOfFuel := by
    intro hc; rw [hc] at hstop; exact hstop rfl
  obtain ⟨N, hN⟩ := hsim hrel (hm _ (mem_of_getFunction? m hg) body hb) hcallee
  refine ⟨N, fun n₀ hn₀ => ?_⟩
  rw [execInstr_call m hg hb, exec_mono m hn₀ (hN ▸ hcallee), hN]

/-- A kept instruction, forward. -/
theorem exec_keep_forward (hm : m.Typed) (hmm : OutlinesModule m m') {n : Nat}
    (hsim : SimForward m m' n) (i : Instr) {l l' : List Instr} (hl : Outlined m m' l l')
    {nlocals results : Nat} {locals stack : List Int}
    (ht : typeCheck m nlocals results (i :: l) stack.length)
    (h : exec m (n + 1) (i :: l) locals stack ≠ .outOfFuel) :
    ∃ n', exec m' n' (i :: l') locals stack = exec m (n + 1) (i :: l) locals stack := by
  rw [exec_cons] at h ⊢
  rcases hs : execInstr m n i locals stack with o | ⟨locals', stack'⟩ <;>
    simp only [hs] at h ⊢
  · obtain ⟨N, hN⟩ := execInstr_forward hm hmm hsim ht (by rw [hs]; rintro ⟨⟩; exact h rfl)
    exact ⟨N + 1, by rw [exec_cons, hN N le_rfl, hs]⟩
  · obtain ⟨N, hN⟩ := execInstr_forward hm hmm hsim ht (by rw [hs]; exact nofun)
    obtain ⟨N', hN'⟩ := hsim hl (typeCheck_next hm ht hs) h
    refine ⟨max N N' + 1, ?_⟩
    rw [exec_cons, hN _ (le_max_left _ _), hs]
    exact (exec_mono m' (le_max_right N N') (hN' ▸ h)).trans hN'

/-- A kept instruction, backward. -/
theorem exec_keep_backward (hm : m.Typed) (hmm : OutlinesModule m m') {n : Nat}
    (hsim : SimBackward m m' n) (i : Instr) {l l' : List Instr} (hl : Outlined m m' l l')
    {nlocals results : Nat} {locals stack : List Int}
    (ht : typeCheck m nlocals results (i :: l) stack.length)
    (h : exec m' (n + 1) (i :: l') locals stack ≠ .outOfFuel) :
    ∃ n₀, exec m n₀ (i :: l) locals stack = exec m' (n + 1) (i :: l') locals stack := by
  rw [exec_cons] at h ⊢
  rcases hs : execInstr m' n i locals stack with o | ⟨locals', stack'⟩ <;>
    simp only [hs] at h ⊢
  · obtain ⟨N, hN⟩ := execInstr_backward hm hmm hsim ht (by rw [hs]; rintro ⟨⟩; exact h rfl)
    exact ⟨N + 1, by rw [exec_cons, hN N le_rfl, hs]⟩
  · obtain ⟨N, hN⟩ := execInstr_backward hm hmm hsim ht (by rw [hs]; exact nofun)
    obtain ⟨N', hN'⟩ := hsim hl (typeCheck_next hm ht ((hN N le_rfl).trans hs)) h
    refine ⟨max N N' + 1, ?_⟩
    rw [exec_cons, hN _ (le_max_left _ _), hs]
    exact (exec_mono m (le_max_right N N') (hN' ▸ h)).trans hN'

/-! ## An outlined stretch -/

section Stretch

variable {seg l l' : List Instr} {callee : Name} {results : Nat} {ends : Bool}

/-- A stretch that completes does not end in `unreachable`, so its call has nothing after it. -/
theorem ends_false_of_values {mod : Module} (hseg : ∀ i ∈ seg, i.isOutlinable)
    (hends : ends = true → seg.getLast? = some .unreachable) {n : Nat} {locals stack st : List Int}
    (hrun : exec mod n seg locals stack = .values st) : ends = false := by
  cases ends
  · rfl
  · exact absurd hrun (exec_ne_values_of_getLast
      (fun i hi => Instr.isStraight_of_isOutlinable (hseg i hi)) (hends rfl) n locals stack st)

/-- An outlined stretch, forward. -/
theorem exec_stretch_forward (hm : m.Typed) (hmm : OutlinesModule m m') {n : Nat}
    (hsim : ∀ k ≤ n, SimForward m m' k) (hne : seg ≠ []) (hseg : ∀ i ∈ seg, i.isOutlinable)
    (hends : ends = true → seg.getLast? = some .unreachable)
    (hg : m'.getFunction? callee =
      some ⟨callee, need m seg, results, 0, some (calleeBody (need m seg) seg)⟩)
    (hl : Outlined m m' l l') {nlocals res : Nat} {locals stack : List Int}
    (ht : typeCheck m nlocals res (seg ++ l) stack.length)
    (h : exec m (n + 1) (seg ++ l) locals stack ≠ .outOfFuel) :
    ∃ n', exec m' n' (.call callee false :: ((if ends then [.unreachable] else []) ++ l'))
      locals stack = exec m (n + 1) (seg ++ l) locals stack := by
  have hstraight : ∀ i ∈ seg, i.isStraight :=
    fun i hi => Instr.isStraight_of_isOutlinable (hseg i hi)
  have hp : need m seg ≤ stack.length := need_le_of_typeCheck l hstraight ht
  obtain ⟨r, htop⟩ := typeCheck_of_need l 0 (need m seg) hseg ht le_rfl
  rw [exec_stretch hm hstraight l _ locals stack hp] at h ⊢
  obtain ⟨i, segt, rfl⟩ := List.exists_cons_of_ne_nil hne
  have hrun : exec m (n + 1) (i :: segt) locals (stack.take (need m (i :: segt))) ≠
      .outOfFuel := by
    intro h'; rw [h'] at h; exact h rfl
  obtain ⟨N, hN⟩ := exec_keep_forward hm hmm (hsim n le_rfl) i (Outlined.refl segt)
    (by rwa [List.length_take, min_eq_left hp]) hrun
  have hcall := fun K => exec_call_outlined hg hseg (K + need m (i :: segt) + 1)
    ((if ends then [.unreachable] else []) ++ l') locals stack hp
  simp only [show ∀ K, K + need m (i :: segt) + 1 - need m (i :: segt) = K + 1 by omega,
    show ∀ K, need m (i :: segt) < K + need m (i :: segt) + 1 by omega, if_true] at hcall
  rcases ho : exec m (n + 1) (i :: segt) locals (stack.take (need m (i :: segt))) with
    st | _ | _ <;> rw [ho] at h hN
  · cases ends_false_of_values hseg hends hN
    have hfull : exec m (n + 1) (i :: segt) locals stack =
        .values (st ++ stack.drop (need m (i :: segt))) := by
      conv_lhs => rw [← List.take_append_drop (need m (i :: segt)) stack]
      rw [exec_frame hm _ hstraight (by simp [hp]), ho]; rfl
    obtain ⟨N', hN'⟩ := hsim _ (by simp) hl (typeCheck_after hm l hstraight ht hfull) h
    refine ⟨max N N' + need m (i :: segt) + 1 + 1, ?_⟩
    have e₁ : exec m' (max N N' + 1) (i :: segt) locals (stack.take (need m (i :: segt))) =
        .values st := (exec_mono m' (by omega) (by rw [hN]; nofun)).trans hN
    have e₂ : exec m' (max N N' + need m (i :: segt) + 1) l' locals
        (st ++ stack.drop (need m (i :: segt))) = _ := (exec_mono m' (by omega) (hN' ▸ h)).trans hN'
    rw [hcall, e₁]
    exact e₂
  · refine ⟨N + need m (i :: segt) + 1 + 1, ?_⟩
    have e₁ : exec m' (N + 1) (i :: segt) locals (stack.take (need m (i :: segt))) = .trap :=
      (exec_mono m' (by omega) (by rw [hN]; nofun)).trans hN
    rw [hcall, e₁]; rfl
  · exact absurd rfl h

/-- An outlined stretch, backward. -/
theorem exec_stretch_backward (hm : m.Typed) {n : Nat}
    (hsim : ∀ k ≤ n, SimBackward m m' k) (hseg : ∀ i ∈ seg, i.isOutlinable)
    (hends : ends = true → seg.getLast? = some .unreachable)
    (hg : m'.getFunction? callee =
      some ⟨callee, need m seg, results, 0, some (calleeBody (need m seg) seg)⟩)
    (hl : Outlined m m' l l') {nlocals res : Nat} {locals stack : List Int}
    (ht : typeCheck m nlocals res (seg ++ l) stack.length)
    (h : exec m' (n + 1) (.call callee false :: ((if ends then [.unreachable] else []) ++ l'))
      locals stack ≠ .outOfFuel) :
    ∃ n₀, exec m n₀ (seg ++ l) locals stack = exec m' (n + 1)
      (.call callee false :: ((if ends then [.unreachable] else []) ++ l')) locals stack := by
  have hstraight : ∀ i ∈ seg, i.isStraight :=
    fun i hi => Instr.isStraight_of_isOutlinable (hseg i hi)
  have hp : need m seg ≤ stack.length := need_le_of_typeCheck l hstraight ht
  obtain ⟨r, htop⟩ := typeCheck_of_need l 0 (need m seg) hseg ht le_rfl
  rw [exec_call_outlined hg hseg n _ locals stack hp] at h ⊢
  by_cases hlt : need m seg < n
  · rw [if_pos hlt] at h ⊢
    have hrun : exec m' (n - need m seg) seg locals (stack.take (need m seg)) ≠ .outOfFuel := by
      intro h'; rw [h'] at h; exact h rfl
    obtain ⟨N, hN⟩ := hsim _ (Nat.sub_le n _) (Outlined.refl seg)
      (by rwa [List.length_take, min_eq_left hp]) hrun
    have hstretch := fun K => exec_stretch hm hstraight l K locals stack hp
    rcases ho : exec m' (n - need m seg) seg locals (stack.take (need m seg)) with
      st | _ | _ <;> rw [ho] at h hN
    · cases ends_false_of_values hseg hends ho
      have hfull : exec m N seg locals stack = .values (st ++ stack.drop (need m seg)) := by
        conv_lhs => rw [← List.take_append_drop (need m seg) stack]
        rw [exec_frame hm _ hstraight (by simp [hp]), hN]; rfl
      obtain ⟨N', hN'⟩ := hsim n le_rfl hl (typeCheck_after hm l hstraight ht hfull) h
      refine ⟨max N (N' + seg.length), ?_⟩
      have e₁ : exec m (max N (N' + seg.length)) seg locals (stack.take (need m seg)) =
          .values st := (exec_mono m (by omega) (by rw [hN]; nofun)).trans hN
      have e₂ : exec m (max N (N' + seg.length) - seg.length) l locals
          (st ++ stack.drop (need m seg)) = _ := (exec_mono m (by omega) (hN' ▸ h)).trans hN'
      rw [hstretch, e₁]
      exact e₂
    · exact ⟨N, by rw [hstretch, hN]; rfl⟩
    · exact absurd rfl h
  · rw [if_neg hlt] at h
    exact absurd rfl h

end Stretch

/-! ## Whole runs -/

/-- **Forward simulation.**  Every run of checked code of `m` that ends within some fuel is
matched by `m'` on the outlined code, with the same values or the same trap. -/
theorem exec_outlined_forward (hm : m.Typed) (hmm : OutlinesModule m m') (n : Nat) :
    SimForward m m' n := by
  induction n using Nat.strong_induction_on with
  | _ n ih =>
    intro l l' hl nlocals results locals stack ht h
    cases n with
    | zero => exact absurd rfl h
    | succ n =>
      cases hl with
      | nil => exact ⟨1, rfl⟩
      | keep i hl => exact exec_keep_forward hm hmm (ih n (by omega)) i hl ht h
      | call ends hne hseg hends hg hl =>
        exact exec_stretch_forward hm hmm (fun k hk => ih k (by omega)) hne hseg hends hg hl ht h

/-- **Backward simulation.**  Every run of `m'` on outlined code that ends within some fuel is
matched by `m` on the original code, with the same values or the same trap. -/
theorem exec_outlined_backward (hm : m.Typed) (hmm : OutlinesModule m m') (n : Nat) :
    SimBackward m m' n := by
  induction n using Nat.strong_induction_on with
  | _ n ih =>
    intro l l' hl nlocals results locals stack ht h
    cases n with
    | zero => exact absurd rfl h
    | succ n =>
      cases hl with
      | nil => exact ⟨1, rfl⟩
      | keep i hl => exact exec_keep_backward hm hmm (ih n (by omega)) i hl ht h
      | call ends _ hseg hends hg hl =>
        exact exec_stretch_backward hm (fun k hk => ih k (by omega)) hseg hends hg hl ht h

/-- `Module::invoke` runs the body the name finds. -/
theorem invoke_eq {mod : Module} {name : Name} {fn : Func} (hfn : mod.getFunction? name = some fn)
    (n : Nat) (args : List Int) :
    mod.invoke n name args =
      match fn.body with
      | some body => exec mod n body (args ++ List.replicate fn.vars 0) []
      | none => .trap := by
  obtain ⟨_, _, _, _, _ | _⟩ := fn <;> simp [Module.invoke, hfn]

/-- **Outlining keeps what every function computes.**  In a module that keeps the stack
discipline, a function of `m` run in a module `m'` that outlines `m` computes what it computed in
`m`: a call that ends within some fuel in one module ends, for some fuel, with the same values or
the same trap in the other. -/
theorem invoke_outlined (hm : m.Typed) (hmm : OutlinesModule m m') {name : Name} {fn : Func}
    (hfn : m.getFunction? name = some fn) (args : List Int) :
    (∀ n, m.invoke n name args ≠ .outOfFuel →
      ∃ n', m'.invoke n' name args = m.invoke n name args) ∧
    (∀ n, m'.invoke n name args ≠ .outOfFuel →
      ∃ n₀, m.invoke n₀ name args = m'.invoke n name args) := by
  obtain ⟨fn', hfn', -, hv, hrel⟩ := hmm name fn hfn
  simp only [invoke_eq hfn, invoke_eq hfn', hv]
  rcases hb : fn.body with _ | body <;> rcases hb' : fn'.body with _ | body' <;>
    rw [hb, hb'] at hrel <;> cases hrel
  · exact ⟨fun _ _ => ⟨0, rfl⟩, fun _ _ => ⟨0, rfl⟩⟩
  · have ht := hm _ (mem_of_getFunction? m hfn) body hb
    exact ⟨fun n h => exec_outlined_forward hm hmm n ‹_› ht h,
      fun n h => exec_outlined_backward hm hmm n ‹_› ht h⟩

end BinaryenPasses.Outlining
