import BinaryenPasses.Outlining.Rebuild

/-!
# `Outlining::run` keeps what every function computes

The pass, run on a module of straight-line functions that keeps the stack discipline, whose calls
name its functions and whose names are distinct, with substrings the suffix tree mines (`Mined`)
and no `return_call` at their occurrences (`NoReturnCall`), leaves a module that outlines the
original one (`OutlinesModule`): every function keeps its declaration, and its body becomes the
old body with each occurrence replaced by a call of a callee whose body is the parameters'
`local.get`s followed by the occurrence.  With the simulation of
`BinaryenPasses.Outlining.Simulation`, every function then computes after the pass what it
computed before.

The proof follows the pass.  `makeSequences` groups the occurrences by function
(`pushAll_records`).  `outline` runs over the groups; the bodies it has installed after some
groups are described by `OutlineInv`: the functions of the groups have their new bodies, the
others their old ones, and each callee has no body or the body of its substring, which every
callee of a group already has (`OutlineInv.step`, `outlineInv_foldl`).  `moveOutlinedFunctions`
only rotates the functions, whose names stay distinct.  The same invariant gives what the module
looks like after the pass: its calls still name its functions, the added functions are the
callees of the substrings, and the functions no occurrence lies in are untouched.

* `getFunction?_of_decls` — a function keeps its declaration while bodies are installed;
* `OutlineInv.step` — one iteration of `outline` keeps the invariant;
* `run_outlines` — the module the pass leaves outlines the original one;
* **`run_preserves_invoke`** — every function of the module computes after the pass what it
  computed before: the same values or the same trap, given enough fuel;
* `run_closed` — every call after the pass names a function;
* `run_added_functions` — each added function pushes its parameters and runs its substring;
* `run_keeps_unmatched` — a function no occurrence lies in is left as it was.
-/

namespace BinaryenPasses.Outlining

open Reconstruct

/-! ## Lookups while bodies are installed -/

theorem map_name_of_decls {O N : Module}
    (hdecls : O.map Func.withoutBody = N.map Func.withoutBody) :
    O.map Func.name = N.map Func.name := by
  simpa [List.map_map, Function.comp_def] using congrArg (List.map Func.name) hdecls

theorem name_of_getFunction? {m : Module} {name : Name} {fn : Func}
    (h : m.getFunction? name = some fn) : fn.name = name := by
  simpa using List.find?_some h

/-- While only bodies change, the lookup finds each function with its declaration. -/
theorem getFunction?_of_decls {O N : Module}
    (hdecls : O.map Func.withoutBody = N.map Func.withoutBody) (hnd : (N.map Func.name).Nodup)
    {fn : Func} (hfn : fn ∈ N) :
    O.getFunction? fn.name = some { fn with body := O.bodyOf fn.name } := by
  have hnames := map_name_of_decls hdecls
  obtain ⟨g, hg, hgfn⟩ := List.mem_map.mp (hdecls ▸ List.mem_map_of_mem Func.withoutBody hfn)
  have hget := getFunction?_of_mem (hnames ▸ hnd) hg
  obtain ⟨gn, gp, gr, gv, gb⟩ := g
  obtain ⟨fnn, fp, fr, fv, fb⟩ := fn
  simp only [Func.withoutBody, Func.mk.injEq, and_true] at hgfn
  obtain ⟨rfl, rfl, rfl, rfl⟩ := hgfn
  rw [Module.bodyOf, hget]
  rfl

/-- The names stay distinct when `makeSequences` appends the callees. -/
theorem AddsOutlined.nodup_names {s : Stringified} {m : Module} {substrings : List RepeatedSubstring}
    {news : Module} (hadds : AddsOutlined s m substrings news) (hnd : (m.map Func.name).Nodup) :
    ((m ++ news).map Func.name).Nodup := by
  obtain ⟨hnews, hfresh⟩ := hadds.fresh
  rw [List.map_append]
  exact hnd.append hnews fun x hx hx' => by
    obtain ⟨fn, hfn, rfl⟩ := List.mem_map.mp hx'
    exact hfresh fn hfn hx

/-! ## The bodies while `outline` runs -/

/-- The new body `outline` gives a function with the body `body` and the sequences `seqs`. -/
def newBody (body : List Instr) (seqs : List OutliningSequence) : List Instr :=
  (expectedExisting (bodyEvents body) 1
    (seqs.insertionSort fun a b => a.startIdx ≤ b.startIdx)).filterMap builtInstr

/-- The bodies after `outline` has run over the groups `done`, from the module `m` with the
callees `news` of the kept substrings appended: every declaration as it was, the functions of the
groups with their new bodies and the other functions of `m` with their old ones, each callee
with no body or the body of its substring, and every callee of a group with a body. -/
structure OutlineInv (m : Module) (substrings : List RepeatedSubstring) (news : Module)
    (done : Sequences) (M : Module) : Prop where
  decls : M.map Func.withoutBody = (m ++ news).map Func.withoutBody
  untouched : ∀ fn ∈ m, fn.name ∉ done.map Prod.fst → M.bodyOf fn.name = fn.body
  rewritten : ∀ p ∈ done, ∀ fn ∈ m, fn.name = p.1 → ∀ body, fn.body = some body →
    M.bodyOf p.1 = some (newBody body p.2)
  callees : ∀ sub callee, (sub, callee) ∈ (keptSubstrings m substrings).zip news →
    M.bodyOf callee.name = none ∨ sub.startIndices ≠ [] ∧
      M.bodyOf callee.name = some (calleeBody callee.params (subInstrs (hashStringify m) sub))
  installed : ∀ p ∈ done, ∀ q ∈ p.2, M.bodyOf q.func ≠ none

/-- The sort of `outlineFunction` orders the sequences by their start. -/
theorem sorted_insertionSort_startIdx (seqs : List OutliningSequence) :
    (seqs.insertionSort fun a b => a.startIdx ≤ b.startIdx).Sorted
      fun a b => a.startIdx ≤ b.startIdx :=
  haveI : IsTotal OutliningSequence fun a b => a.startIdx ≤ b.startIdx :=
    ⟨fun _ _ => le_total _ _⟩
  haveI : IsTrans OutliningSequence fun a b => a.startIdx ≤ b.startIdx :=
    ⟨fun _ _ _ => Nat.le_trans⟩
  List.sorted_insertionSort _ _

/-- A group of `makeSequences` (`pushAll_records`): the sequences of a function of `m`, each
standing for an occurrence of a kept substring in its body and calling that substring's callee,
no two overlapping. -/
def GroupOf (m : Module) (substrings : List RepeatedSubstring) (news : Module)
    (p : Name × List OutliningSequence) : Prop :=
  ∃ fn ∈ m, fn.name = p.1 ∧ ∃ body, fn.body = some body ∧
    (∀ q ∈ p.2, ∃ sub callee, (sub, callee) ∈ (keptSubstrings m substrings).zip news ∧
      sub.startIndices ≠ [] ∧ SeqAt (hashStringify m) body sub callee.name q) ∧
    p.2.Pairwise fun a b => a.endIdx ≤ b.startIdx ∨ b.endIdx ≤ a.startIdx

theorem SeqAt.rangeOf_eq {s : Stringified} {body : List Instr} {sub : RepeatedSubstring}
    {callee : Name} {q : OutliningSequence} (hat : SeqAt s body sub callee q) :
    rangeOf body q = subInstrs s sub := by
  rw [rangeOf, hat.end_eq, Nat.add_sub_cancel_left, hat.instrs]

section Outline

variable {m : Module} (hnd : (m.map Func.name).Nodup) {substrings : List RepeatedSubstring}
  {news : Module} (hadds : AddsOutlined (hashStringify m) m (keptSubstrings m substrings) news)
include hnd hadds

theorem outlineInv_start :
    OutlineInv m substrings news [] (m ++ news) := by
  have hnd' := hadds.nodup_names hnd
  refine ⟨rfl, fun fn hfn _ => ?_, by simp, fun sub callee hmem => .inl ?_, by simp⟩
  · rw [Module.bodyOf, getFunction?_of_mem hnd' (List.mem_append_left _ hfn)]; rfl
  · obtain ⟨pre, hadd⟩ := hadds.exists_pre hmem
    rw [Module.bodyOf, getFunction?_of_mem hnd' (List.mem_append_right _ (List.of_mem_zip hmem).2),
      Option.some_bind, (addOutlinedFunction_callee hadd).2.2.1]

variable (hmined : Mined m substrings)
include hmined

/-- **One iteration of `outline` keeps the invariant.**  The group of a function of `m` that has
not been rebuilt yet, whose sequences stand for occurrences of kept substrings in its body and do
not overlap, gives that function its new body and its callees the bodies of their substrings. -/
theorem OutlineInv.step {done : Sequences} {M : Module}
    (hinv : OutlineInv m substrings news done M) {p : Name × List OutliningSequence}
    (hkey : p.1 ∉ done.map Prod.fst) (hdone : ∀ p' ∈ done, p'.1 ∈ m.map Func.name)
    (hp : GroupOf m substrings news p) :
    OutlineInv m substrings news (done ++ [p]) (outlineFunction M p.1 p.2) := by
  obtain ⟨fn, hfn, hname, body, hb, hseqs, hpw⟩ := hp
  obtain ⟨hnews, hfresh⟩ := hadds.fresh
  have hnd' := hadds.nodup_names hnd
  have hf : M.bodyOf p.1 = some body := by
    rw [← hname, hinv.untouched fn hfn (hname ▸ hkey), hb]
  -- the callees of the group are functions of the module that are not in `m`
  have hcallee : ∀ q ∈ p.2, ∃ sub callee, (sub, callee) ∈ (keptSubstrings m substrings).zip news ∧
      sub.startIndices ≠ [] ∧ q.func = callee.name ∧ q.func ∉ m.map Func.name ∧ q.startIdx < q.endIdx ∧
      rangeOf body q = subInstrs (hashStringify m) sub := fun q hq => by
    obtain ⟨sub, callee, hmem, hne, hat⟩ := hseqs q hq
    have hpos := hmined.nonempty sub
      ((keptSubstrings_sublist m substrings).subset (List.of_mem_zip hmem).1)
    exact ⟨sub, callee, hmem, hne, hat.func_eq, hat.func_eq ▸ hfresh callee (List.of_mem_zip hmem).2,
      by rw [hat.end_eq]; omega, hat.rangeOf_eq⟩
  have hnotm : ∀ q ∈ p.2, ∀ x ∈ m.map Func.name, q.func ≠ x := fun q hq x hx he => by
    obtain ⟨-, -, -, -, -, hq', -⟩ := hcallee q hq
    exact hq' (he ▸ hx)
  -- the group is valid for the walk
  have hsorted := sorted_insertionSort_startIdx p.2
  have hperm := List.perm_insertionSort (fun a b : OutliningSequence => a.startIdx ≤ b.startIdx) p.2
  have hvalid : ValidSequences (bodyEvents body)
      (p.2.insertionSort fun a b => a.startIdx ≤ b.startIdx) := by
    refine ⟨hsorted, (hperm.pairwise_iff fun h => h.symm).mpr hpw, fun q hq => ?_,
      fun q hq i hi hi' => ?_⟩
    all_goals obtain ⟨sub, callee, -, -, hat⟩ := hseqs q (hperm.subset hq)
    all_goals obtain ⟨-, -, -, -, -, -, hlt, -⟩ := hcallee q (hperm.subset hq)
    · refine ⟨hat.start_pos, hlt, ?_⟩
      have := hat.end_le
      simp [bodyEvents]; omega
    · have hi₁ : i - 1 < body.length := by have := hat.end_le; have := hat.start_pos; omega
      exact ⟨body[i - 1], by rw [bodyEvents, List.getElem?_append_left (by simpa using hi₁),
        List.getElem?_map, List.getElem?_eq_getElem hi₁]; rfl⟩
  have hfunc : ∀ q ∈ p.2, q.func ≠ p.1 ∧ (M.getFunction? q.func).isSome := fun q hq => by
    obtain ⟨sub, callee, hmem, -, hq', -, -, -⟩ := hcallee q hq
    refine ⟨hnotm q hq _ (hname ▸ List.mem_map_of_mem _ hfn), ?_⟩
    rw [hq', getFunction?_of_decls hinv.decls hnd'
      (List.mem_append_right _ (List.of_mem_zip hmem).2)]
    rfl
  obtain ⟨hdecls, hfbody, hother, hinst⟩ := outlineFunction_spec hf hvalid hfunc
  -- a function of `m` other than the group's keeps its body
  have hkeep : ∀ x ∈ m.map Func.name, x ≠ p.1 →
      (outlineFunction M p.1 p.2).bodyOf x = M.bodyOf x := fun x hx hxp => by
    rcases hother x hxp with h | ⟨q, hq, hqx, -⟩
    · exact h
    · exact absurd hqx (hnotm q hq x hx)
  refine ⟨hdecls.trans hinv.decls, fun fn' hfn' hkey' => ?_, fun p' hp' fn' hfn' hname' body' hb' => ?_,
    fun sub callee hmem => ?_, fun p' hp' q hq => ?_⟩
  · simp only [List.map_append, List.mem_append, not_or, List.map_cons, List.map_nil,
      List.mem_singleton] at hkey'
    rw [hkeep _ (List.mem_map_of_mem _ hfn') hkey'.2, hinv.untouched fn' hfn' hkey'.1]
  · rcases List.mem_append.mp hp' with hp' | hp'
    · have hne : p'.1 ≠ p.1 := fun he => hkey (he ▸ List.mem_map_of_mem _ hp')
      rw [hkeep _ (hdone p' hp') hne, hinv.rewritten p' hp' fn' hfn' hname' body' hb']
    · obtain rfl := List.mem_singleton.mp hp'
      obtain rfl := List.inj_on_of_nodup_map hnd hfn' hfn (hname'.trans hname.symm)
      obtain rfl := Option.some.inj (hb'.symm.trans hb)
      exact hfbody
  · have hcm := hfresh callee (List.of_mem_zip hmem).2
    have hne : callee.name ≠ p.1 := fun he => hcm (he ▸ hname ▸ List.mem_map_of_mem _ hfn)
    rcases hother callee.name hne with h | ⟨q, hq, hqx, h⟩
    · rw [h]; exact hinv.callees sub callee hmem
    · obtain ⟨sub', callee', hmem', hne', hq', -, -, hrange⟩ := hcallee q hq
      obtain rfl : callee' = callee := List.inj_on_of_nodup_map hnews (List.of_mem_zip hmem').2
        (List.of_mem_zip hmem).2 (hq'.symm.trans hqx)
      have hzip : (((keptSubstrings m substrings).zip news).map Prod.snd).Nodup := by
        rw [List.map_snd_zip _ _ hadds.length.le]
        exact hnews.of_map _
      obtain ⟨rfl, -⟩ := Prod.mk.inj (List.inj_on_of_nodup_map hzip hmem' hmem rfl)
      have hparams : M.numParams callee'.name = callee'.params := by
        rw [Module.numParams, getFunction?_of_decls hinv.decls hnd'
          (List.mem_append_right _ (List.of_mem_zip hmem).2)]
        rfl
      rw [h, hparams, hrange]
      exact .inr ⟨hne', rfl⟩
  · rcases List.mem_append.mp hp' with hp' | hp'
    · by_cases he : q.func = p.1
      · rw [he, hfbody]; exact Option.some_ne_none _
      · rcases hother q.func he with h | ⟨_, _, _, h⟩
        · rw [h]; exact hinv.installed p' hp' q hq
        · rw [h]; exact Option.some_ne_none _
    · obtain rfl := List.mem_singleton.mp hp'
      exact hinst q hq

/-- **`outline` keeps the invariant over its groups.** -/
theorem outlineInv_foldl : ∀ (groups done : Sequences) (M : Module),
    OutlineInv m substrings news done M → ((done ++ groups).map Prod.fst).Nodup →
    (∀ p ∈ done ++ groups, GroupOf m substrings news p) →
    OutlineInv m substrings news (done ++ groups)
      (groups.foldl (fun M p => outlineFunction M p.1 p.2) M)
  | [], done, M, hinv, _, _ => by simpa using hinv
  | p :: groups, done, M, hinv, hkeys, hgroups => by
    have hkey : p.1 ∉ done.map Prod.fst := fun h => by
      rw [List.map_append, List.map_cons] at hkeys
      exact List.disjoint_of_nodup_append hkeys h (List.mem_cons_self _ _)
    have hdone : ∀ p' ∈ done, p'.1 ∈ m.map Func.name := fun p' hp' => by
      obtain ⟨fn, hfn, hname, -⟩ := hgroups p' (List.mem_append_left _ hp')
      exact hname ▸ List.mem_map_of_mem _ hfn
    have hstep := hinv.step hnd hadds hmined hkey hdone (hgroups p (by simp))
    simpa using outlineInv_foldl groups (done ++ [p]) _ hstep (by simpa using hkeys)
      (by simpa using hgroups)

end Outline

/-- With its sequences apart and each calling its range's callee, the new body of a function
outlines its old body. -/
theorem outlined_newBody {m m' : Module} {body : List Instr} {seqs : List OutliningSequence}
    (hpw : seqs.Pairwise fun a b => a.endIdx ≤ b.startIdx ∨ b.endIdx ≤ a.startIdx)
    (hbounds : ∀ q ∈ seqs, 1 ≤ q.startIdx ∧ q.startIdx < q.endIdx ∧ q.endIdx ≤ body.length + 1)
    (hcalls : ∀ q ∈ seqs, CallsOutlined m m' body q) :
    Outlined m m' body (newBody body seqs) := by
  have hperm := List.perm_insertionSort (fun a b : OutliningSequence => a.startIdx ≤ b.startIdx)
    seqs
  -- sorted by start, sequences that do not overlap come one after the other
  have hapart : (seqs.insertionSort fun a b => a.startIdx ≤ b.startIdx).Pairwise
      fun a b => a.endIdx ≤ b.startIdx :=
    ((sorted_insertionSort_startIdx seqs).and ((hperm.pairwise_iff fun h => h.symm).mpr hpw)).imp_of_mem
      fun _ hb ⟨hle, hor⟩ => by have := (hbounds _ (hperm.subset hb)).2.1; omega
  simpa using outlined_expectedExisting body _ 1 le_rfl hapart
    (fun q hq => hbounds q (hperm.subset hq)) fun q hq => hcalls q (hperm.subset hq)

/-! ## The module the pass leaves -/

/-- The lookup by name does not see the order of two blocks of functions whose names are
distinct. -/
theorem getFunction?_append_comm {A B : Module} (hnd : ((A ++ B).map Func.name).Nodup)
    (x : Name) : (B ++ A).getFunction? x = (A ++ B).getFunction? x := by
  have happend : ∀ A B : Module,
      (A ++ B).getFunction? x = (A.getFunction? x).or (B.getFunction? x) :=
    fun _ _ => List.find?_append
  rw [happend, happend]
  rcases ha : A.getFunction? x with _ | fa <;> rcases hb : B.getFunction? x with _ | fb
  all_goals try rfl
  rw [List.map_append] at hnd
  exact absurd (name_of_getFunction? hb ▸ List.mem_map_of_mem Func.name (mem_of_getFunction? B hb))
    (List.disjoint_of_nodup_append hnd
      (name_of_getFunction? ha ▸ List.mem_map_of_mem Func.name (mem_of_getFunction? A ha)))

/-- `moveOutlinedFunctions` does not change what a name finds. -/
theorem getFunction?_moveOutlinedFunctions {M : Module} (hnd : (M.map Func.name).Nodup)
    (outlinedCount : Nat) (x : Name) :
    (moveOutlinedFunctions M outlinedCount).getFunction? x = M.getFunction? x := by
  conv_rhs => rw [← List.take_append_drop (M.length - outlinedCount) M]
  exact getFunction?_append_comm (by rwa [List.take_append_drop]) x

/-- An outlinable instruction after which nothing is reached is `unreachable`. -/
theorem Instr.eq_unreachable_of_isUnreachableTyped {i : Instr} (ho : i.isOutlinable)
    (hu : i.isUnreachableTyped) : i = .unreachable := by
  cases i <;> simp_all [Instr.isOutlinable, Instr.isUnreachableTyped]

/-- The module `run` leaves finds what `outline` left, before the rotation. -/
theorem getFunction?_run {m : Module} (hnd : (m.map Func.name).Nodup)
    {substrings : List RepeatedSubstring} {news : Module}
    (hadds : AddsOutlined (hashStringify m) m (keptSubstrings m substrings) news)
    {groups : Sequences} {M : Module} (hinv : OutlineInv m substrings news groups M)
    (hM : run m substrings = moveOutlinedFunctions M (keptSubstrings m substrings).length)
    (x : Name) : (run m substrings).getFunction? x = M.getFunction? x := by
  rw [hM]
  exact getFunction?_moveOutlinedFunctions
    ((map_name_of_decls hinv.decls).symm ▸ hadds.nodup_names hnd) _ x

/-- `moveOutlinedFunctions` keeps every function. -/
theorem mem_moveOutlinedFunctions {M : Module} {outlinedCount : Nat} {fn : Func} :
    fn ∈ moveOutlinedFunctions M outlinedCount ↔ fn ∈ M := by
  conv_rhs => rw [← List.take_append_drop (M.length - outlinedCount) M]
  rw [moveOutlinedFunctions, List.mem_append, List.mem_append, or_comm]

theorem hasFunction_of_getFunction? {m : Module} {name : Name} {fn : Func}
    (h : m.getFunction? name = some fn) : m.hasFunction name :=
  (hasFunction_eq_true m name).mpr
    (name_of_getFunction? h ▸ List.mem_map_of_mem Func.name (mem_of_getFunction? m h))

/-- The calls of an outlined body name functions of `m'` when the calls of the old body do: a
call that replaces a stretch names its callee, which `m'` has. -/
theorem Outlined.callees {m m' : Module} {l l' : List Instr} (h : Outlined m m' l l')
    (hl : ∀ i ∈ l, i.callee?.all m'.hasFunction) : ∀ i ∈ l', i.callee?.all m'.hasFunction := by
  induction h with
  | nil => exact hl
  | keep i _ ih =>
    rw [List.forall_mem_cons] at hl ⊢
    exact ⟨hl.1, ih hl.2⟩
  | call ends _ _ _ hg _ ih =>
    rw [List.forall_mem_append] at hl
    rw [List.forall_mem_cons, List.forall_mem_append]
    refine ⟨by simpa [Instr.callee?] using hasFunction_of_getFunction? hg, ?_, ih hl.2⟩
    split <;> simp [Instr.callee?]

/-- An instruction of a substring's occurrence is an instruction of a body of `m`. -/
theorem mem_subInstrs {m : Module} {sub : RepeatedSubstring} {i : Instr}
    (hi : i ∈ subInstrs (hashStringify m) sub) :
    ∃ fn ∈ m, ∃ body, fn.body = some body ∧ i ∈ body := by
  obtain ⟨o, ho, rfl⟩ := List.mem_filterMap.mp hi
  have hmem := List.mem_of_mem_drop (List.mem_of_mem_take ho)
  simp only [hashStringify_eq, List.mem_flatMap] at hmem
  obtain ⟨fn, hfn, hin⟩ := hmem
  rw [stringifyFunction] at hin
  split at hin
  · exact ⟨fn, hfn, _, ‹_›, by simpa using hin⟩
  · simp at hin

/-- Every callee `makeSequences` appends is the callee of one of the substrings. -/
theorem AddsOutlined.exists_zip {s : Stringified} {m : Module}
    {substrings : List RepeatedSubstring} {news : Module} (hadds : AddsOutlined s m substrings news)
    {callee : Func} (h : callee ∈ news) : ∃ sub, (sub, callee) ∈ substrings.zip news := by
  rw [← List.map_snd_zip substrings news hadds.length.le] at h
  obtain ⟨⟨sub, _⟩, hmem, rfl⟩ := List.mem_map.mp h
  exact ⟨sub, hmem⟩

/-- A function after the pass is one of the module with the callees appended, with the body
`outline` gave it. -/
theorem mem_run {m : Module} (hnd : (m.map Func.name).Nodup) {substrings : List RepeatedSubstring}
    {news : Module} (hadds : AddsOutlined (hashStringify m) m (keptSubstrings m substrings) news)
    {groups : Sequences} {M : Module} (hinv : OutlineInv m substrings news groups M)
    (hrun : run m substrings = moveOutlinedFunctions M (keptSubstrings m substrings).length)
    {fn : Func} (hfn : fn ∈ run m substrings) :
    ∃ g ∈ m ++ news, fn = { g with body := M.bodyOf g.name } := by
  have hnd' := hadds.nodup_names hnd
  have hfM := mem_moveOutlinedFunctions.mp (hrun ▸ hfn)
  obtain ⟨g, hg, hgname⟩ := List.mem_map.mp
    (map_name_of_decls hinv.decls ▸ List.mem_map_of_mem Func.name hfM)
  refine ⟨g, hg, ?_⟩
  have := getFunction?_of_decls hinv.decls hnd' hg
  rwa [hgname, getFunction?_of_mem ((map_name_of_decls hinv.decls).symm ▸ hnd') hfM,
    Option.some.injEq, ← hgname] at this

section Run

variable {m : Module} (hnd : (m.map Func.name).Nodup) {substrings : List RepeatedSubstring}
  (hmined : Mined m substrings)
include hnd hmined

/-- `outline` over the groups of `makeSequences` ends in the invariant's state, over all the
groups, from the module with the callees appended. -/
theorem makeSequences_outline :
    ∃ news, AddsOutlined (hashStringify m) m (keptSubstrings m substrings) news ∧
      (makeSequences m (keptSubstrings m substrings) (hashStringify m)).1 = m ++ news ∧
      (∀ p ∈ (makeSequences m (keptSubstrings m substrings) (hashStringify m)).2,
        GroupOf m substrings news p) ∧
      OutlineInv m substrings news (makeSequences m (keptSubstrings m substrings) (hashStringify m)).2
        (outline (makeSequences m (keptSubstrings m substrings) (hashStringify m)).1
          (makeSequences m (keptSubstrings m substrings) (hashStringify m)).2) ∧
      ∀ p ∈ (makeSequences m (keptSubstrings m substrings) (hashStringify m)).2,
        ∃ sub ∈ keptSubstrings m substrings, ∃ idx ∈ sub.startIndices,
          ((hashStringify m).makeRelative idx).2 = p.1 := by
  obtain ⟨news, hadds, hM, hseq⟩ :=
    makeSequences_eq m (keptSubstrings m substrings) (hashStringify m)
  obtain ⟨hkeys, hgroups⟩ := pushAll_records hnd hmined hadds.length
  rw [hM, hseq]
  refine ⟨news, hadds, rfl, hgroups, outlineInv_foldl hnd hadds hmined _ [] (m ++ news)
    (outlineInv_start hnd hadds) hkeys hgroups, fun p hp => ?_⟩
  -- a group's key is the function of one of its records
  have hgroupsOf := groupsOf_pushAll
    (sequenceRecords (hashStringify m) (keptSubstrings m substrings) news)
  have hne := hgroupsOf.nonempty p hp
  rw [hgroupsOf.entries p hp] at hne
  obtain ⟨q, hq⟩ := List.exists_mem_of_ne_nil _ hne
  obtain ⟨r, hr, -⟩ := List.mem_map.mp hq
  obtain ⟨hr, hrp⟩ := List.mem_filter.mp hr
  obtain ⟨⟨sub, callee⟩, hmem, hr⟩ := List.mem_flatMap.mp hr
  obtain ⟨idx, hidx, rfl⟩ := List.mem_map.mp hr
  exact ⟨sub, (List.of_mem_zip hmem).1, idx, hidx, by simpa [sequenceAt] using hrp⟩

/-- A function of `m` has, in any module whose lookups are those `outline` leaves, a body that
outlines its old one. -/
theorem body_outlined (hnoRet : NoReturnCall m substrings) (hclosed : m.Closed) {news : Module}
    (hadds : AddsOutlined (hashStringify m) m (keptSubstrings m substrings) news)
    {groups : Sequences} {M m' : Module} (hinv : OutlineInv m substrings news groups M)
    (hgroups : ∀ p ∈ groups, GroupOf m substrings news p)
    (hget : ∀ x, m'.getFunction? x = M.getFunction? x) {fn : Func} (hfm : fn ∈ m) :
    Option.Rel (Outlined m m') fn.body (M.bodyOf fn.name) := by
  have hnd' := hadds.nodup_names hnd
  by_cases hk : fn.name ∈ groups.map Prod.fst
  case neg =>
    rw [hinv.untouched fn hfm hk]
    cases fn.body
    · exact .none
    · exact .some (Outlined.refl _)
  case pos =>
    obtain ⟨p, hp, hpk⟩ := List.mem_map.mp hk
    obtain ⟨fn₀, hfn₀, hname₀, body, hb, hseqs, hpw⟩ := hgroups p hp
    obtain rfl : fn = fn₀ := List.inj_on_of_nodup_map hnd hfm hfn₀ (hpk.symm.trans hname₀.symm)
    -- every sequence of the group calls a callee that holds its range
    have hcalls : ∀ q ∈ p.2, CallsOutlined m m' body q := fun q hq => by
      obtain ⟨sub, callee, hmem, hne, hat⟩ := hseqs q hq
      obtain ⟨hvars, -, hparams, -⟩ := callee_spec hnd hmined hclosed hadds hmem hne
      have houtl := subInstrs_outlinable hnd hmined hnoRet (List.of_mem_zip hmem).1 hne
      have hbody : M.bodyOf callee.name =
          some (calleeBody callee.params (subInstrs (hashStringify m) sub)) := by
        rcases hinv.callees sub callee hmem with h | ⟨-, h⟩
        · exact absurd (hat.func_eq ▸ h) (hinv.installed p hp q hq)
        · exact h
      refine ⟨hat.rangeOf_eq ▸ houtl, fun hends => ?_, ⟨callee.results, ?_⟩⟩
      · rw [hat.ends_eq] at hends
        rw [hat.rangeOf_eq]
        rcases hl : (subInstrs (hashStringify m) sub).getLast? with _ | i
        · simp [hl] at hends
        · simp only [hl, Option.any_some] at hends
          rw [Instr.eq_unreachable_of_isUnreachableTyped
            (houtl i (List.mem_of_getLast?_eq_some hl)) hends]
      · rw [hat.func_eq, hget, getFunction?_of_decls hinv.decls hnd'
          (List.mem_append_right _ (List.of_mem_zip hmem).2), hbody, hat.rangeOf_eq, ← hparams,
          ← hvars]
    rw [hb, hname₀, hinv.rewritten p hp fn hfm hname₀ body hb]
    refine .some (outlined_newBody hpw (fun q hq => ?_) hcalls)
    obtain ⟨sub, callee, hmem, -, hat⟩ := hseqs q hq
    have := hmined.nonempty sub ((keptSubstrings_sublist m substrings).subset (List.of_mem_zip hmem).1)
    exact ⟨hat.start_pos, by rw [hat.end_eq]; omega, hat.end_le⟩

/-- **The module the pass leaves outlines the original one.** -/
theorem run_outlines (hnoRet : NoReturnCall m substrings) (hclosed : m.Closed) :
    OutlinesModule m (run m substrings) := by
  obtain ⟨news, hadds, hM, hgroups, hinv, -⟩ := makeSequences_outline hnd hmined
  have hget := getFunction?_run hnd hadds hinv (by rw [run_eq, hM])
  intro name fn hfn
  have hfm := mem_of_getFunction? m hfn
  obtain rfl := name_of_getFunction? hfn
  rw [hM] at hinv hget
  exact ⟨_, (hget _).trans (getFunction?_of_decls hinv.decls (hadds.nodup_names hnd)
    (List.mem_append_left _ hfm)), rfl, rfl,
    body_outlined hnd hmined hnoRet hclosed hadds hinv hgroups hget hfm⟩

end Run

/-- `$f` and `$g` both push a constant, then `i32.const 1; drop; drop`, which drops it, and then
push their result; `$h` only pushes its result. -/
def sharedDropsModule : Module :=
  [⟨"f", 0, 1, 0, some [.const 5, .const 1, .drop, .drop, .const 7]⟩,
   ⟨"g", 0, 1, 0, some [.const 6, .const 1, .drop, .drop, .const 8]⟩,
   ⟨"h", 0, 1, 0, some [.const 9]⟩]

/-- `i32.const 1; drop; drop` at its two positions in the stringified module, after the start of
`$f` and its first instruction, and after `$f`, the start of `$g` and its first instruction. -/
def sharedDropsSubstrings : List RepeatedSubstring := [⟨3, [2, 9]⟩]

theorem sharedDrops_mined : Mined sharedDropsModule sharedDropsSubstrings :=
  ⟨by decide, by decide, by decide, by decide⟩

theorem sharedDrops_noReturnCall : NoReturnCall sharedDropsModule sharedDropsSubstrings := by
  unfold NoReturnCall; decide

/-- **`Outlining::run` keeps what every function computes.**  On a module of straight-line
functions that keeps the stack discipline, whose calls name its functions and whose names are
distinct, with substrings the suffix tree mines and no `return_call` at their occurrences, a
call of a function of the module ends after the pass exactly when it ends before, with the same
values or the same trap. -/
theorem run_preserves_invoke {m : Module} {substrings : List RepeatedSubstring} (hm : m.Typed)
    (hclosed : m.Closed) (hnd : (m.map Func.name).Nodup) (hmined : Mined m substrings)
    (hnoRet : NoReturnCall m substrings) {name : Name} (hname : name ∈ m.map Func.name)
    (args : List Int) :
    (∀ n, m.invoke n name args ≠ .outOfFuel →
      ∃ n', (run m substrings).invoke n' name args = m.invoke n name args) ∧
    (∀ n, (run m substrings).invoke n name args ≠ .outOfFuel →
      ∃ n₀, m.invoke n₀ name args = (run m substrings).invoke n name args) := by
  obtain ⟨fn, hfn, rfl⟩ := List.mem_map.mp hname
  exact invoke_outlined hm (run_outlines hnd hmined hnoRet hclosed) (getFunction?_of_mem hnd hfn) args

/-- The pass outlines `i32.const 1; drop; drop` into a callee of one parameter, and `$f` still
returns 7. -/
theorem run_preserves_invoke_sharedDrops :
    (run sharedDropsModule sharedDropsSubstrings).getFunction? "f" =
      some ⟨"f", 0, 1, 0, some [.const 5, .call "outline$" false, .const 7]⟩ ∧
    (run sharedDropsModule sharedDropsSubstrings).getFunction? "outline$" =
      some ⟨"outline$", 1, 0, 0, some [.localGet 0, .const 1, .drop, .drop]⟩ ∧
    ∀ n, sharedDropsModule.invoke n "f" [] ≠ .outOfFuel →
      ∃ n', (run sharedDropsModule sharedDropsSubstrings).invoke n' "f" [] =
        sharedDropsModule.invoke n "f" [] :=
  ⟨by decide, by decide, (run_preserves_invoke (by decide) (by decide) (by decide)
    sharedDrops_mined sharedDrops_noReturnCall (by decide) []).1⟩

/-- **The calls after the pass name functions of the module.**  When every call of a module of
straight-line functions names one of its functions, and no occurrence holds a `return_call`, so
does every call after the pass: the calls that replace the occurrences name the functions the
pass adds, and the bodies of those functions hold the instructions of the module's own
bodies. -/
theorem run_closed {m : Module} {substrings : List RepeatedSubstring} (hclosed : m.Closed)
    (hnd : (m.map Func.name).Nodup) (hmined : Mined m substrings)
    (hnoRet : NoReturnCall m substrings) :
    (run m substrings).Closed := by
  obtain ⟨news, hadds, hM, hgroups, hinv, -⟩ := makeSequences_outline hnd hmined
  have hrun := run_eq m substrings
  rw [hM] at hinv hrun
  set M := outline (m ++ news) (makeSequences m (keptSubstrings m substrings) (hashStringify m)).2
  have hget := getFunction?_run hnd hadds hinv hrun
  have hnd' := hadds.nodup_names hnd
  -- the functions of `m` are still there
  have hnames : ∀ x, m.hasFunction x → (run m substrings).hasFunction x := fun x hx => by
    obtain ⟨fn, hfn, rfl⟩ := List.mem_map.mp ((hasFunction_eq_true m x).mp hx)
    exact hasFunction_of_getFunction?
      ((hget _).trans (getFunction?_of_decls hinv.decls hnd' (List.mem_append_left _ hfn)))
  have hmono : ∀ i : Instr, i.callee?.all m.hasFunction →
      i.callee?.all (run m substrings).hasFunction := fun i hi => by
    cases hc : i.callee? with
    | none => rfl
    | some x =>
      simp only [hc, Option.all_some] at hi ⊢
      exact hnames x hi
  intro fn' hfn' body' hb' i hi
  -- the function is one of `m`, or a callee, with the body `outline` gave it
  obtain ⟨g, hg, rfl⟩ := mem_run hnd hadds hinv hrun hfn'
  have hbody : M.bodyOf g.name = some body' := hb'
  rcases List.mem_append.mp hg with hgm | hgn
  case inl =>
    have hrel := body_outlined hnd hmined hnoRet hclosed hadds hinv hgroups hget hgm
    rw [hbody] at hrel
    rcases hgb : g.body with _ | b <;> rw [hgb] at hrel <;> cases hrel
    exact Outlined.callees ‹_› (fun j hj => hmono j (hclosed g hgm b hgb j hj)) i hi
  case inr =>
    obtain ⟨sub, hmem⟩ := hadds.exists_zip hgn
    rcases hinv.callees sub g hmem with h | ⟨-, h⟩ <;> rw [hbody] at h <;> cases h
    rcases List.mem_append.mp hi with hi | hi
    · obtain ⟨j, -, rfl⟩ := List.mem_map.mp hi
      rfl
    · obtain ⟨fn, hfn, b, hb, hib⟩ := mem_subInstrs hi
      exact hmono i (hclosed fn hfn b hb i hib)

/-- On `sharedDropsModule`, every call after the pass names a function. -/
theorem run_closed_sharedDrops : (run sharedDropsModule sharedDropsSubstrings).Closed :=
  run_closed (by decide) (by decide) sharedDrops_mined sharedDrops_noReturnCall

/-- **The functions the pass adds.**  A function after the pass that the module did not have
declares no locals, and has no body or the body of a kept substring that occurs in the module:
the `local.get`s of its parameters, then the substring's instructions, which are constants,
`drop`s, `unreachable`s and calls (the filters let a `return_call` through), and need from the
stack exactly its parameters. -/
theorem run_added_functions {m : Module} {substrings : List RepeatedSubstring}
    (hclosed : m.Closed) (hnd : (m.map Func.name).Nodup) (hmined : Mined m substrings) :
    ∀ fn ∈ run m substrings, fn.name ∉ m.map Func.name →
      fn.vars = 0 ∧ (fn.body = none ∨ ∃ sub ∈ keptSubstrings m substrings,
        subInstrs (hashStringify m) sub ≠ [] ∧
        (∀ i ∈ subInstrs (hashStringify m) sub, i.isOutlinable ∨ i.isReturnCall) ∧
        fn.params = need m (subInstrs (hashStringify m) sub) ∧
        fn.body = some (calleeBody fn.params (subInstrs (hashStringify m) sub))) := by
  obtain ⟨news, hadds, hM, -, hinv, -⟩ := makeSequences_outline hnd hmined
  have hrun := run_eq m substrings
  rw [hM] at hinv hrun
  set M := outline (m ++ news) (makeSequences m (keptSubstrings m substrings) (hashStringify m)).2
  intro fn hfn hnew
  -- the function is the callee `makeSequences` appended, with the body `outline` gave it
  obtain ⟨g, hg, rfl⟩ := mem_run hnd hadds hinv hrun hfn
  have hgn : g ∈ news := (List.mem_append.mp hg).resolve_left fun hgm =>
    hnew (List.mem_map_of_mem Func.name hgm :)
  obtain ⟨sub, hmem⟩ := hadds.exists_zip hgn
  obtain ⟨pre, hadd⟩ := hadds.exists_pre hmem
  refine ⟨(addOutlinedFunction_callee hadd).2.1, ?_⟩
  rcases hinv.callees sub _ hmem with h | ⟨hne, h⟩
  · exact .inl h
  · obtain ⟨-, -, hparams, hsub⟩ := callee_spec hnd hmined hclosed hadds hmem hne
    exact .inr ⟨sub, (List.of_mem_zip hmem).1, hsub,
      outlinable_of_mem_keptSubstrings (List.of_mem_zip hmem).1, hparams, h⟩

/-- On `sharedDropsModule`, the one function the pass adds is `outline$`, of one parameter. -/
theorem run_added_functions_sharedDrops :
    (run sharedDropsModule sharedDropsSubstrings).map Func.name = ["outline$", "f", "g", "h"] ∧
    ∀ fn ∈ run sharedDropsModule sharedDropsSubstrings, fn.name ∉ sharedDropsModule.map Func.name →
      fn.vars = 0 ∧ (fn.body = none ∨ ∃ sub ∈ keptSubstrings sharedDropsModule sharedDropsSubstrings,
        subInstrs (hashStringify sharedDropsModule) sub ≠ [] ∧
        (∀ i ∈ subInstrs (hashStringify sharedDropsModule) sub,
          i.isOutlinable ∨ i.isReturnCall) ∧
        fn.params = need sharedDropsModule (subInstrs (hashStringify sharedDropsModule) sub) ∧
        fn.body = some (calleeBody fn.params (subInstrs (hashStringify sharedDropsModule) sub))) :=
  ⟨by decide, run_added_functions (by decide) (by decide) sharedDrops_mined⟩

/-- **The pass leaves alone the functions no occurrence lies in.**  A function of a module of
straight-line functions in which, by `makeRelative`, no occurrence of a kept substring starts
is found after the pass exactly as it was. -/
theorem run_keeps_unmatched {m : Module} {substrings : List RepeatedSubstring}
    (hnd : (m.map Func.name).Nodup) (hmined : Mined m substrings) {fn : Func} (hfn : fn ∈ m)
    (hnone : ∀ sub ∈ keptSubstrings m substrings, ∀ idx ∈ sub.startIndices,
      ((hashStringify m).makeRelative idx).2 ≠ fn.name) :
    (run m substrings).getFunction? fn.name = some fn := by
  obtain ⟨news, hadds, hM, -, hinv, hkeys⟩ := makeSequences_outline hnd hmined
  have hget := getFunction?_run hnd hadds hinv (by rw [run_eq, hM])
  have hk : fn.name ∉ (makeSequences m (keptSubstrings m substrings) (hashStringify m)).2.map
      Prod.fst := fun h => by
    obtain ⟨p, hp, hpk⟩ := List.mem_map.mp h
    obtain ⟨sub, hsub, idx, hidx, he⟩ := hkeys p hp
    exact hnone sub hsub idx hidx (he.trans hpk)
  rw [hM] at hinv hget
  rw [hget, getFunction?_of_decls hinv.decls (hadds.nodup_names hnd) (List.mem_append_left _ hfn),
    hinv.untouched fn hfn hk]

/-- On `sharedDropsModule`, `$h`, where no occurrence lies, is left as it was. -/
theorem run_keeps_unmatched_sharedDrops :
    (run sharedDropsModule sharedDropsSubstrings).getFunction? "h" =
      some ⟨"h", 0, 1, 0, some [.const 9]⟩ :=
  run_keeps_unmatched (by decide) sharedDrops_mined
    (show ⟨"h", 0, 1, 0, some [.const 9]⟩ ∈ sharedDropsModule by decide) (by decide)

end BinaryenPasses.Outlining
