import BinaryenPasses.Outlining.Simulation

/-!
# Where the occurrences of a repeated substring lie

`HashStringifyWalker` lays the functions with a body end to end, each as its start symbol, its
instructions and the end of its scope; `makeRelative` reads a position back as a position in a
function.  An occurrence whose positions all hold instructions therefore lies inside one body, at
the same distance from that function's start as from the start of its block
(`occurrence_in_body`): two occurrences in one function keep their order and their gaps.

The facts the suffix tree and `filterOverlaps` give the pass about the substrings are gathered in
`Mined`; from them, every sequence `makeSequences` records names the function the occurrence lies
in, a range of its body that holds the substring's instructions, and the substring's callee
(`pushAll_records`), a callee that takes what the instructions need (`callee_spec`).

* `hashStringify_eq` — the stringified module is the functions' blocks end to end;
* `stringify_block` — a function's block, at its offset;
* `occurrence_in_body` — an occurrence of instructions lies inside one body;
* `makeSequences_eq` — `makeSequences` appends the callees and groups the sequences by function;
* **`pushAll_records`** — what `makeSequences` records about each occurrence;
* `callee_spec` — the callee of a kept substring takes what its instructions need;
* `subInstrs_outlinable` — with no `return_call` at the occurrences, a kept substring can be
  outlined.
-/

namespace BinaryenPasses.Outlining

open Reconstruct

/-! ## The blocks of the functions -/

/-- The positions of the functions with a body, end to end. -/
theorem hashStringify_eq (m : Module) :
    hashStringify m = ⟨m.flatMap fun fn => (stringifyFunction fn).exprs,
      m.flatMap fun fn => (stringifyFunction fn).relative⟩ := by
  suffices h : ∀ (m : Module) (s : Stringified),
      m.foldl (fun s fn => ⟨s.exprs ++ (stringifyFunction fn).exprs,
        s.relative ++ (stringifyFunction fn).relative⟩) s =
      ⟨s.exprs ++ m.flatMap fun fn => (stringifyFunction fn).exprs,
        s.relative ++ m.flatMap fun fn => (stringifyFunction fn).relative⟩ from h m ⟨[], []⟩
  intro m
  induction m with
  | nil => intro s; simp
  | cons fn m ih => intro s; simp [ih, List.append_assoc]

theorem length_stringifyFunction (fn : Func) :
    (stringifyFunction fn).relative.length = (stringifyFunction fn).exprs.length := by
  unfold stringifyFunction
  split <;> simp

theorem length_relative (m : Module) :
    (hashStringify m).relative.length = (hashStringify m).exprs.length := by
  simp only [hashStringify_eq, List.length_flatMap, Function.comp_def, length_stringifyFunction]

/-- Inside a block, the position `j` of a body holds its instruction `j - 1`; the two ends hold
none. -/
theorem block_getElem? (body : List Instr) (j : Nat) :
    (none :: body.map some ++ [none])[j]?.join = if j = 0 then none else body[j - 1]? := by
  rcases j with _ | j
  · simp
  · simp only [List.cons_append, List.getElem?_cons_succ, Nat.add_sub_cancel,
      if_neg (Nat.succ_ne_zero j)]
    rcases Nat.lt_trichotomy j body.length with h | rfl | h
    · rw [List.getElem?_append_left (by simpa using h), List.getElem?_map]
      cases body[j]? <;> rfl
    · simp
    · rw [List.getElem?_eq_none (by simp; omega), List.getElem?_eq_none (by omega)]; rfl

/-- Where the block of the function named `f` starts: after the blocks of the functions before
it. -/
def offset (m : Module) (f : Name) : Nat :=
  ((m.takeWhile (·.name != f)).flatMap fun fn => (stringifyFunction fn).exprs).length

section Blocks

variable {m : Module} (hnd : (m.map Func.name).Nodup)
include hnd

/-- The block of a function with a body, at its offset: its start symbol, its instructions and
the end of its scope, each position read back as the position in the function. -/
theorem stringify_block {fn : Func} (hfn : fn ∈ m) {body : List Instr}
    (hb : fn.body = some body) {j : Nat} (hj : j < body.length + 2) :
    (hashStringify m).exprs[offset m fn.name + j]? = (none :: body.map some ++ [none])[j]? ∧
    (hashStringify m).relative[offset m fn.name + j]? = some (j, fn.name) := by
  rw [hashStringify_eq]
  dsimp only
  induction m with
  | nil => exact absurd hfn (List.not_mem_nil _)
  | cons g m ih =>
    obtain ⟨hg, hnd'⟩ := List.nodup_cons.mp hnd
    simp only [List.flatMap_cons]
    rcases List.mem_cons.mp hfn with rfl | hfn
    · have hlen : j < (stringifyFunction fn).exprs.length := by
        simp [stringifyFunction, hb]; omega
      have hoff : offset (fn :: m) fn.name = 0 := by simp [offset]
      have hlen' : j < (stringifyFunction fn).relative.length := by
        rwa [length_stringifyFunction]
      rw [hoff, Nat.zero_add]
      constructor
      · rw [List.getElem?_append_left hlen]; simp [stringifyFunction, hb]
      · rw [List.getElem?_append_left hlen']; simp [stringifyFunction, hb, hj]
    · have hne : (g.name != fn.name) = true :=
        bne_iff_ne.mpr fun he => hg (he ▸ List.mem_map_of_mem _ hfn)
      have hoff : offset (g :: m) fn.name =
          (stringifyFunction g).exprs.length + offset m fn.name := by
        simp [offset, List.takeWhile_cons, hne]
      have hle : (stringifyFunction g).exprs.length ≤ offset (g :: m) fn.name + j := by omega
      have hle' : (stringifyFunction g).relative.length ≤ offset (g :: m) fn.name + j := by
        rwa [length_stringifyFunction]
      rw [List.getElem?_append_right hle, List.getElem?_append_right hle',
        length_stringifyFunction, hoff, Nat.add_assoc, Nat.add_sub_cancel_left]
      exact ih hnd' hfn

/-- A position read back as the position `r` in the function `f` lies in `f`'s block. -/
theorem relative_getElem? {idx r : Nat} {f : Name}
    (h : (hashStringify m).relative[idx]? = some (r, f)) :
    ∃ fn ∈ m, fn.name = f ∧ ∃ body, fn.body = some body ∧ r < body.length + 2 ∧
      idx = offset m f + r := by
  rw [hashStringify_eq] at h
  dsimp only at h
  induction m generalizing idx with
  | nil => simp at h
  | cons g m ih =>
    obtain ⟨hg, hnd'⟩ := List.nodup_cons.mp hnd
    simp only [List.flatMap_cons] at h
    by_cases hlt : idx < (stringifyFunction g).relative.length
    · rw [List.getElem?_append_left hlt] at h
      rcases hb : g.body with _ | body
      · simp [stringifyFunction, hb] at hlt
      · have hlt' : idx < body.length + 2 := by simpa [stringifyFunction, hb] using hlt
        have hrel : (stringifyFunction g).relative[idx]? = some (idx, g.name) := by
          simp [stringifyFunction, hb, hlt']
        obtain ⟨rfl, rfl⟩ := Prod.mk.inj (Option.some.inj (hrel.symm.trans h))
        exact ⟨g, List.mem_cons_self _ _, rfl, body, hb, hlt', by simp [offset]⟩
    · rw [List.getElem?_append_right (by omega)] at h
      obtain ⟨fn, hfn, rfl, body, hb, hr, hidx⟩ := ih hnd' h
      have hne : (g.name != fn.name) = true :=
        bne_iff_ne.mpr fun he => hg (he ▸ List.mem_map_of_mem _ hfn)
      refine ⟨fn, List.mem_cons_of_mem _ hfn, rfl, body, hb, hr, ?_⟩
      simp only [offset, List.takeWhile_cons, hne, if_true, List.flatMap_cons,
        List.length_append] at hidx ⊢
      have := length_stringifyFunction g
      omega

/-- An occurrence whose positions all hold instructions lies inside one body: it starts at the
position `r ≥ 1` of a function with a body, which `makeRelative` reads back, ends within the
body, and holds the body's instructions from `r` on. -/
theorem occurrence_in_body {idx len : Nat} (hlen : 0 < len)
    (hsome : ∀ k < len, (hashStringify m).exprAt (idx + k) ≠ none) :
    ∃ fn ∈ m, ∃ body, fn.body = some body ∧ ∃ r, 1 ≤ r ∧ r + len ≤ body.length + 1 ∧
      idx = offset m fn.name + r ∧ (hashStringify m).makeRelative idx = (r, fn.name) ∧
      (hashStringify m).occurrence idx len = ((body.drop (r - 1)).take len).map some := by
  have hidx : idx < (hashStringify m).relative.length := by
    have h0 := hsome 0 hlen
    rw [length_relative]
    by_contra hge
    exact h0 (by simp [Stringified.exprAt, List.getElem?_eq_none (Nat.le_of_not_lt hge)])
  obtain ⟨⟨r, f⟩, hx⟩ : ∃ x, (hashStringify m).relative[idx]? = some x :=
    ⟨_, List.getElem?_eq_getElem hidx⟩
  obtain ⟨fn, hfn, rfl, body, hb, hr, rfl⟩ := relative_getElem? hnd hx
  have hat : ∀ j < body.length + 2, (hashStringify m).exprAt (offset m fn.name + j) =
      if j = 0 then none else body[j - 1]? := fun j hj => by
    rw [Stringified.exprAt, (stringify_block hnd hfn hb hj).1, block_getElem?]
  have hr1 : 1 ≤ r := by
    by_contra h0
    have := hsome 0 hlen
    rw [Nat.add_zero, hat r hr, if_pos (by omega)] at this
    exact this rfl
  have hend : r + len ≤ body.length + 1 := by
    by_contra hgt
    have := hsome (body.length + 1 - r) (by omega)
    rw [Nat.add_assoc, show r + (body.length + 1 - r) = body.length + 1 by omega,
      hat _ (by omega), if_neg (by omega), Nat.add_sub_cancel,
      List.getElem?_eq_none (le_refl _)] at this
    exact this rfl
  refine ⟨fn, hfn, body, hb, r, hr1, hend, rfl, by simp [Stringified.makeRelative, hx], ?_⟩
  apply List.ext_getElem?
  intro k
  simp only [Stringified.occurrence, List.getElem?_take, List.getElem?_drop, List.getElem?_map]
  split_ifs with hk
  · have hsk := hsome k hk
    rw [Nat.add_assoc, hat _ (by omega), if_neg (by omega)] at hsk
    rw [Nat.add_assoc]
    have hblock := (stringify_block hnd hfn hb (show r + k < body.length + 2 by omega)).1
    rw [hblock]
    have := block_getElem? body (r + k)
    rw [if_neg (by omega)] at this
    rw [show r - 1 + k = r + k - 1 by omega]
    revert this
    rcases (none :: body.map some ++ [none])[r + k]? with _ | _ | i <;> simp_all
  · rfl

end Blocks

/-! ## The substrings the suffix tree mines -/

/-- A tail call, the one unreachable-typed instruction the content filters let through. -/
def Instr.isReturnCall : Instr → Bool
  | .call _ isReturn => isReturn
  | _ => false

/-- What the suffix tree, `dedupe` and `filterOverlaps` give the pass about the repeated
substrings: every substring is nonempty, every position of an occurrence holds an instruction,
the occurrences of a substring hold the same instructions, and no two occurrences overlap. -/
structure Mined (m : Module) (substrings : List RepeatedSubstring) : Prop where
  nonempty : ∀ sub ∈ substrings, 0 < sub.length
  inBody : ∀ sub ∈ substrings, ∀ idx ∈ sub.startIndices, ∀ k < sub.length,
    (hashStringify m).exprAt (idx + k) ≠ none
  same : ∀ sub ∈ substrings, ∀ idx ∈ sub.startIndices,
    (hashStringify m).occurrence idx sub.length =
      (hashStringify m).occurrence (sub.startIndices.headD 0) sub.length
  disjoint : (substrings.flatMap fun sub => sub.startIndices.map fun idx => (idx, sub.length)).Pairwise
    fun a b => a.1 + a.2 ≤ b.1 ∨ b.1 + b.2 ≤ a.1

/-- No occurrence holds a tail call.  Neither the suffix tree nor the content filters give this:
a `return_call` gets through them, and once outlined it returns from the callee instead of the
caller.  The results about the rebuilt bodies that need it take it as a hypothesis. -/
def NoReturnCall (m : Module) (substrings : List RepeatedSubstring) : Prop :=
  ∀ sub ∈ substrings, ∀ idx ∈ sub.startIndices, ∀ k < sub.length,
    ((hashStringify m).exprAt (idx + k)).all (!·.isReturnCall)

/-- The function a call names. -/
def Instr.callee? : Instr → Option Name
  | .call target _ => some target
  | _ => none

/-- Every call of every body names a function of the module, as validation requires. -/
def Module.Closed (m : Module) : Prop :=
  ∀ fn ∈ m, ∀ body ∈ fn.body, ∀ i ∈ body, i.callee?.all m.hasFunction

instance (m : Module) : Decidable m.Closed :=
  inferInstanceAs (Decidable (∀ fn ∈ m, ∀ body ∈ fn.body, ∀ i ∈ body, _))

/-- The instructions of a substring, read at its first occurrence, where the content filters and
`addOutlinedFunction` read them. -/
def subInstrs (s : Stringified) (sub : RepeatedSubstring) : List Instr :=
  (s.occurrence (sub.startIndices.headD 0) sub.length).filterMap id

theorem subInstrs_of_occurrence {s : Stringified} {sub : RepeatedSubstring} {seg : List Instr}
    (h : s.occurrence (sub.startIndices.headD 0) sub.length = seg.map some) :
    subInstrs s sub = seg := by
  rw [subInstrs, h, List.filterMap_map]
  exact List.filterMap_some seg

/-- An occurrence of a mined substring: the range of a body, from the position `r` that
`makeRelative` reads back, that holds the substring's instructions. -/
theorem Mined.occurrence {m : Module} (hnd : (m.map Func.name).Nodup)
    {substrings : List RepeatedSubstring} (hmined : Mined m substrings)
    {sub : RepeatedSubstring} (hsub : sub ∈ substrings) {idx : Nat}
    (hidx : idx ∈ sub.startIndices) :
    ∃ fn ∈ m, ∃ body, fn.body = some body ∧ ∃ r, 1 ≤ r ∧ r + sub.length ≤ body.length + 1 ∧
      idx = offset m fn.name + r ∧ (hashStringify m).makeRelative idx = (r, fn.name) ∧
      (body.drop (r - 1)).take sub.length = subInstrs (hashStringify m) sub ∧
      (hashStringify m).occurrence idx sub.length =
        (subInstrs (hashStringify m) sub).map some := by
  obtain ⟨fn, hfn, body, hb, r, hr, hend, hoff, hrel, hocc⟩ :=
    occurrence_in_body hnd (hmined.nonempty sub hsub) (hmined.inBody sub hsub idx hidx)
  have hseg := subInstrs_of_occurrence ((hmined.same sub hsub idx hidx).symm.trans hocc)
  exact ⟨fn, hfn, body, hb, r, hr, hend, hoff, hrel, hseg.symm, hseg ▸ hocc⟩

/-! ## The substrings the filters keep, and their callees -/

theorem flatMap_sublist_flatMap {α β : Type} (f : α → List β) {l₁ l₂ : List α}
    (h : l₁.Sublist l₂) : (l₁.flatMap f).Sublist (l₂.flatMap f) := by
  induction h with
  | slnil => exact List.Sublist.slnil
  | cons a _ ih => rw [List.flatMap_cons]; exact ih.trans (List.sublist_append_right _ _)
  | cons₂ a _ ih => rw [List.flatMap_cons, List.flatMap_cons]; exact ih.append_left _

theorem keptSubstrings_sublist (m : Module) (substrings : List RepeatedSubstring) :
    (keptSubstrings m substrings).Sublist substrings :=
  ((List.filter_sublist _).trans (List.filter_sublist _)).trans (List.filter_sublist _)

/-- A substring the content filters keep holds no `return`, `local.set` or `local.get`: each of
its instructions is outlinable, or a tail call. -/
theorem outlinable_of_mem_keptSubstrings {m : Module} {substrings : List RepeatedSubstring}
    {sub : RepeatedSubstring} (h : sub ∈ keptSubstrings m substrings) :
    ∀ i ∈ subInstrs (hashStringify m) sub, i.isOutlinable ∨ i.isReturnCall := by
  simp only [keptSubstrings, filterLocalGets, filterLocalSets, filterBranches, filter,
    List.mem_filter, List.all_eq_true] at h
  obtain ⟨⟨⟨-, hbr⟩, hset⟩, hget⟩ := h
  intro i hi
  obtain ⟨e, he, rfl⟩ := List.mem_filterMap.mp hi
  have h1 := hbr _ he
  have h2 := hset _ he
  have h3 := hget _ he
  cases i <;> simp [Instr.isOutlinable, Instr.isReturnCall, Instr.isBranchOrReturn] at h1 h2 h3 ⊢

theorem stackSignature_append {m : Module} (pre : Module) {i : Instr}
    (hi : i.callee?.all m.hasFunction) : i.stackSignature (m ++ pre) = i.stackSignature m := by
  cases i with
  | call target isReturn =>
    have hfind : (m ++ pre).getFunction? target = m.getFunction? target := by
      have hany : m.any (·.name == target) = true := by
        simpa only [Instr.callee?, Option.all_some] using hi
      obtain ⟨fn, hfn⟩ := Option.isSome_iff_exists.mp
        (List.find?_isSome.mpr (List.any_eq_true.mp hany))
      simp only [Module.getFunction?, List.find?_append, hfn]
      rfl
    simp only [Instr.stackSignature, hfind]
  | _ => rfl

/-- A stretch whose calls name functions of `m` needs the same stack in `m` and in `m` with
functions appended. -/
theorem need_append_module {m : Module} (pre : Module) :
    ∀ {l : List Instr}, (∀ i ∈ l, i.callee?.all m.hasFunction) → need (m ++ pre) l = need m l
  | [], _ => rfl
  | i :: l, h => by
    simp only [need, stackSignature_append pre (h i (List.mem_cons_self _ _)),
      need_append_module pre fun j hj => h j (List.mem_cons_of_mem _ hj)]

/-- The function `addOutlinedFunction` appends: no locals, no body, and the parameters of the
first occurrence's signature. -/
theorem addOutlinedFunction_callee {M : Module} {sub : RepeatedSubstring} {s : Stringified}
    {fn : Func} {name : Name} (h : addOutlinedFunction M sub s = (M ++ [fn], name)) :
    fn.name = name ∧ fn.vars = 0 ∧ fn.body = none ∧ ∀ seg : List Instr,
      s.occurrence (sub.startIndices.headD 0) sub.length = seg.map some → fn.params = need M seg := by
  simp only [addOutlinedFunction, Prod.mk.injEq] at h
  obtain ⟨h1, rfl⟩ := h
  obtain rfl := (List.cons.inj (List.append_cancel_left h1)).1
  refine ⟨rfl, rfl, rfl, fun seg hocc => ?_⟩
  simp only [hocc, List.foldl_map, Option.map_some', Option.getD_some]
  rw [params_foldl_compose]
  simp

/-- Each callee `makeSequences` adds is the one `addOutlinedFunction` appends to the module as it
stands then. -/
theorem AddsOutlined.exists_pre {s : Stringified} {m : Module} {substrings : List RepeatedSubstring}
    {news : Module} (h : AddsOutlined s m substrings news) {sub : RepeatedSubstring} {fn : Func}
    (hmem : (sub, fn) ∈ substrings.zip news) :
    ∃ pre, addOutlinedFunction (m ++ pre) sub s = (m ++ pre ++ [fn], fn.name) := by
  induction h with
  | nil => simp at hmem
  | @cons m sub' _ fn' _ hadd _ ih =>
    rw [List.zip_cons_cons, List.mem_cons] at hmem
    rcases hmem with he | hmem
    · obtain ⟨rfl, rfl⟩ := Prod.mk.inj he
      exact ⟨[], by simpa using hadd⟩
    · obtain ⟨pre, hpre⟩ := ih hmem
      exact ⟨fn' :: pre, by simpa using hpre⟩

/-! ## The sequences `makeSequences` records -/

/-- The function the occurrence at `seqIdx` lies in, and the sequence `makeSequences` records for
it with the callee `func`. -/
def sequenceAt (s : Stringified) (sub : RepeatedSubstring) (func : Name) (seqIdx : Nat) :
    Name × OutliningSequence :=
  ((s.makeRelative seqIdx).2, ⟨(s.makeRelative seqIdx).1, (s.makeRelative seqIdx).1 + sub.length,
    func, (s.exprAt (seqIdx + sub.length - 1)).any Instr.isUnreachableTyped⟩)

/-- `seqByFunc[existingFunc].push_back(seq)` for each record in turn. -/
def Sequences.pushAll (seqByFunc : Sequences) (records : List (Name × OutliningSequence)) :
    Sequences :=
  records.foldl (fun acc r => acc.push r.1 r.2) seqByFunc

/-- The records of `makeSequences`: for each kept substring and its callee, one per occurrence. -/
def sequenceRecords (s : Stringified) (substrings : List RepeatedSubstring) (news : Module) :
    List (Name × OutliningSequence) :=
  (substrings.zip news).flatMap fun p => p.1.startIndices.map (sequenceAt s p.1 p.2.name)

theorem foldl_eq_pushAll {G : Sequences → Nat → Sequences} (f : Nat → Name × OutliningSequence)
    (hG : ∀ acc idx, G acc idx = acc.push (f idx).1 (f idx).2) (l : List Nat) (acc : Sequences) :
    l.foldl G acc = acc.pushAll (l.map f) := by
  obtain rfl : G = fun acc idx => acc.push (f idx).1 (f idx).2 := funext₂ hG
  simp only [Sequences.pushAll, List.foldl_map]

/-- `makeSequences` adds the callees of `AddsOutlined` and pushes one record per occurrence. -/
theorem makeSequences_eq (m : Module) (substrings : List RepeatedSubstring) (s : Stringified) :
    ∃ news, AddsOutlined s m substrings news ∧ (makeSequences m substrings s).1 = m ++ news ∧
      (makeSequences m substrings s).2 =
        Sequences.pushAll [] (sequenceRecords s substrings news) := by
  unfold makeSequences
  generalize ([] : Sequences) = acc
  induction substrings generalizing m acc with
  | nil => exact ⟨[], .nil m, by simp, by simp [sequenceRecords, Sequences.pushAll]⟩
  | cons sub substrings ih =>
    obtain ⟨fn, hfn, -, -⟩ := addOutlinedFunction_spec m sub s
    rw [List.foldl_cons]
    dsimp only
    rw [hfn]
    dsimp only
    rw [foldl_eq_pushAll (sequenceAt s sub fn.name) (fun acc idx => ?_)]
    · obtain ⟨news, hadds, h1, h2⟩ := ih (m ++ [fn]) (Sequences.pushAll acc
        (sub.startIndices.map (sequenceAt s sub fn.name)))
      refine ⟨fn :: news, .cons hfn hadds, by simpa using h1, ?_⟩
      rw [h2]
      simp only [sequenceRecords, List.zip_cons_cons, List.flatMap_cons, Sequences.pushAll,
        List.foldl_append]
    · simp only [sequenceAt]

/-- What `seqByFunc` holds once the records `done` are pushed: each function once, with the
sequences recorded for it, in order. -/
structure GroupsOf (done : List (Name × OutliningSequence)) (seqByFunc : Sequences) : Prop where
  nodup : (seqByFunc.map Prod.fst).Nodup
  entries : ∀ p ∈ seqByFunc, p.2 = (done.filter (·.1 == p.1)).map Prod.snd
  nonempty : ∀ p ∈ seqByFunc, p.2 ≠ []
  keys : ∀ r ∈ done, r.1 ∈ seqByFunc.map Prod.fst

theorem GroupsOf.push {done : List (Name × OutliningSequence)} {acc : Sequences}
    (h : GroupsOf done acc) (f : Name) (q : OutliningSequence) :
    GroupsOf (done ++ [(f, q)]) (acc.push f q) := by
  have hfilter : ∀ g, (done ++ [(f, q)]).filter (·.1 == g) =
      done.filter (·.1 == g) ++ if f = g then [(f, q)] else [] := fun g => by
    rw [List.filter_append]; split_ifs with hfg <;> simp [hfg]
  unfold Sequences.push
  split_ifs with hany
  · have hkeys : (acc.map fun p => if p.1 = f then (p.1, p.2 ++ [q]) else p).map Prod.fst =
        acc.map Prod.fst := by
      simp only [List.map_map]
      exact List.map_congr_left fun p _ => by simp only [Function.comp_apply]; split_ifs <;> rfl
    obtain ⟨g, hg, hgf⟩ := List.any_eq_true.mp hany
    refine ⟨hkeys ▸ h.nodup, fun p' hp' => ?_, fun p' hp' => ?_, fun r hr => ?_⟩
    · obtain ⟨p, hp, rfl⟩ := List.mem_map.mp hp'
      by_cases hpf : p.1 = f
      · simp [hpf, hfilter, h.entries p hp]
      · simp [hpf, hfilter, h.entries p hp, Ne.symm hpf]
    · obtain ⟨p, hp, rfl⟩ := List.mem_map.mp hp'
      split_ifs <;> simp [h.nonempty p hp]
    · rw [hkeys]
      rcases List.mem_append.mp hr with hr | hr
      · exact h.keys r hr
      · obtain rfl := List.mem_singleton.mp hr
        exact List.mem_map.mpr ⟨g, hg, by simpa using hgf⟩
  · have hnot : ∀ p ∈ acc, p.1 ≠ f := fun p hp hpf =>
      hany (List.any_eq_true.mpr ⟨p, hp, by simpa using hpf⟩)
    have hnone : done.filter (·.1 == f) = [] := List.filter_eq_nil_iff.mpr fun r hr hrf => by
      obtain ⟨p, hp, hpr⟩ := List.mem_map.mp (h.keys r hr)
      exact hnot p hp (hpr.trans (by simpa using hrf))
    refine ⟨?_, fun p' hp' => ?_, fun p' hp' => ?_, fun r hr => ?_⟩
    · rw [List.map_append]
      exact h.nodup.append (List.nodup_singleton _) fun x hx hx' => by
        obtain ⟨p, hp, rfl⟩ := List.mem_map.mp hx
        exact hnot p hp (List.mem_singleton.mp (by simpa using hx'))
    · rcases List.mem_append.mp hp' with hp' | hp'
      · simp [hfilter, h.entries p' hp', Ne.symm (hnot p' hp')]
      · obtain rfl := List.mem_singleton.mp hp'
        simp [hfilter, hnone]
    · rcases List.mem_append.mp hp' with hp' | hp'
      · exact h.nonempty p' hp'
      · obtain rfl := List.mem_singleton.mp hp'; simp
    · rw [List.map_append]
      rcases List.mem_append.mp hr with hr | hr
      · exact List.mem_append_left _ (h.keys r hr)
      · obtain rfl := List.mem_singleton.mp hr; simp

theorem groupsOf_pushAll (records : List (Name × OutliningSequence)) :
    GroupsOf records (Sequences.pushAll [] records) := by
  suffices h : ∀ (records done : List (Name × OutliningSequence)) (acc : Sequences),
      GroupsOf done acc → GroupsOf (done ++ records) (acc.pushAll records) from
    h records [] [] ⟨List.nodup_nil, by simp, by simp, by simp⟩
  intro records
  induction records with
  | nil => intro done acc h; simpa [Sequences.pushAll] using h
  | cons r records ih =>
    intro done acc h
    have := ih (done ++ [r]) _ (h.push r.1 r.2)
    simpa [Sequences.pushAll] using this

/-! ## What each sequence stands for -/

/-- Inside an occurrence, `exprAt` reads the occurrence's instructions. -/
theorem exprAt_of_occurrence {s : Stringified} {idx len : Nat} {seg : List Instr}
    (h : s.occurrence idx len = seg.map some) {k : Nat} (hk : k < len) :
    s.exprAt (idx + k) = seg[k]? := by
  have hk' := congrArg (·[k]?) h
  simp only [Stringified.occurrence, List.getElem?_take, if_pos hk, List.getElem?_drop,
    List.getElem?_map] at hk'
  simp only [Stringified.exprAt, hk']
  cases seg[k]? <;> rfl

/-- The sequence `q` stands for an occurrence of `sub` in a function with the body `body` and
calls `callee`: its range holds the substring's instructions, and it ends unreachable-typed as
they do. -/
structure SeqAt (s : Stringified) (body : List Instr) (sub : RepeatedSubstring) (callee : Name)
    (q : OutliningSequence) : Prop where
  start_pos : 1 ≤ q.startIdx
  end_eq : q.endIdx = q.startIdx + sub.length
  end_le : q.endIdx ≤ body.length + 1
  instrs : (body.drop (q.startIdx - 1)).take sub.length = subInstrs s sub
  func_eq : q.func = callee
  ends_eq : q.endsTypeUnreachable = (subInstrs s sub).getLast?.any Instr.isUnreachableTyped

section Records

variable {m : Module} (hnd : (m.map Func.name).Nodup) {substrings : List RepeatedSubstring}
  (hmined : Mined m substrings)
include hnd hmined

/-- The record of an occurrence names the function it lies in, at the offset of that function's
block. -/
theorem sequenceAt_spec {sub : RepeatedSubstring} (hsub : sub ∈ substrings) {idx : Nat}
    (hidx : idx ∈ sub.startIndices) (callee : Name) :
    ∃ fn ∈ m, ∃ body, fn.body = some body ∧
      (sequenceAt (hashStringify m) sub callee idx).1 = fn.name ∧
      SeqAt (hashStringify m) body sub callee (sequenceAt (hashStringify m) sub callee idx).2 ∧
      idx = offset m fn.name + (sequenceAt (hashStringify m) sub callee idx).2.startIdx := by
  obtain ⟨fn, hfn, body, hb, r, hr, hend, hoff, hrel, hseg, hocc⟩ :=
    hmined.occurrence hnd hsub hidx
  have hlen : (subInstrs (hashStringify m) sub).length = sub.length := by
    rw [← hseg, List.length_take, List.length_drop]; omega
  have hpos := hmined.nonempty sub hsub
  refine ⟨fn, hfn, body, hb, by simp [sequenceAt, hrel], ⟨?_, ?_, ?_, ?_, rfl, ?_⟩, ?_⟩ <;>
    simp only [sequenceAt, hrel]
  · exact hr
  · exact hend
  · exact hseg
  · rw [Nat.add_sub_assoc hpos, exprAt_of_occurrence hocc (by omega),
      List.getLast?_eq_getElem?, hlen]
  · exact hoff

/-- Two records of one function stand for ranges of its body that do not overlap. -/
theorem sequenceRecords_pairwise {news : Module} (hlen : news.length = (keptSubstrings m substrings).length) :
    (sequenceRecords (hashStringify m) (keptSubstrings m substrings) news).Pairwise
      fun a b => a.1 = b.1 → a.2.endIdx ≤ b.2.startIdx ∨ b.2.endIdx ≤ a.2.startIdx := by
  set kept := keptSubstrings m substrings
  set occs := (kept.zip news).flatMap fun p => p.1.startIndices.map fun idx => (p, idx)
  have hrec : sequenceRecords (hashStringify m) kept news =
      occs.map fun o => sequenceAt (hashStringify m) o.1.1 o.1.2.name o.2 := by
    simp [sequenceRecords, occs, List.map_flatMap, List.map_map, Function.comp_def]
  have hpairs : (kept.flatMap fun sub => sub.startIndices.map fun idx => (idx, sub.length)) =
      occs.map fun o => (o.2, o.1.1.length) := by
    conv_lhs => rw [← List.map_fst_zip kept news hlen.ge, List.flatMap_map]
    simp [occs, List.map_flatMap, List.map_map, Function.comp_def]
  have hdisj := (hmined.disjoint.sublist (flatMap_sublist_flatMap _
    (keptSubstrings_sublist m substrings)))
  rw [hpairs, List.pairwise_map] at hdisj
  rw [hrec, List.pairwise_map]
  refine hdisj.imp_of_mem fun {o o'} ho ho' hd hsame => ?_
  obtain ⟨⟨sub, callee⟩, hp, ho⟩ := List.mem_flatMap.mp ho
  obtain ⟨idx, hidx, rfl⟩ := List.mem_map.mp ho
  obtain ⟨⟨sub', callee'⟩, hp', ho'⟩ := List.mem_flatMap.mp ho'
  obtain ⟨idx', hidx', rfl⟩ := List.mem_map.mp ho'
  have hs := (keptSubstrings_sublist m substrings).subset (List.of_mem_zip hp).1
  have hs' := (keptSubstrings_sublist m substrings).subset (List.of_mem_zip hp').1
  obtain ⟨fn, -, body, -, hname, hat, hoff⟩ := sequenceAt_spec hnd hmined hs hidx callee.name
  obtain ⟨fn', -, body', -, hname', hat', hoff'⟩ :=
    sequenceAt_spec hnd hmined hs' hidx' callee'.name
  simp only at hsame hd ⊢
  rw [hname, hname'] at hsame
  rw [hsame] at hoff
  rw [hat.end_eq, hat'.end_eq]
  omega

/-- The groups of `makeSequences`: each function of `m` once, with sequences that stand for
non-overlapping occurrences in its body. -/
theorem pushAll_records {news : Module}
    (hlen : news.length = (keptSubstrings m substrings).length) :
    let seqByFunc := Sequences.pushAll []
      (sequenceRecords (hashStringify m) (keptSubstrings m substrings) news)
    (seqByFunc.map Prod.fst).Nodup ∧ ∀ p ∈ seqByFunc, ∃ fn ∈ m, fn.name = p.1 ∧ ∃ body,
      fn.body = some body ∧
      (∀ q ∈ p.2, ∃ sub callee, (sub, callee) ∈ (keptSubstrings m substrings).zip news ∧
        sub.startIndices ≠ [] ∧ SeqAt (hashStringify m) body sub callee.name q) ∧
      p.2.Pairwise fun a b => a.endIdx ≤ b.startIdx ∨ b.endIdx ≤ a.startIdx := by
  intro seqByFunc
  have hgroups := groupsOf_pushAll
    (sequenceRecords (hashStringify m) (keptSubstrings m substrings) news)
  refine ⟨hgroups.nodup, fun p hp => ?_⟩
  have hentries := hgroups.entries p hp
  -- every sequence of the group is a record of the group's function
  have hrecord : ∀ q ∈ p.2, ∃ sub callee, (sub, callee) ∈ (keptSubstrings m substrings).zip news ∧
      ∃ idx ∈ sub.startIndices, sequenceAt (hashStringify m) sub callee.name idx = (p.1, q) := by
    intro q hq
    rw [hentries] at hq
    obtain ⟨r, hr, rfl⟩ := List.mem_map.mp hq
    obtain ⟨hr, hr1⟩ := List.mem_filter.mp hr
    obtain ⟨⟨sub, callee⟩, hmem, hr⟩ := List.mem_flatMap.mp hr
    obtain ⟨idx, hidx, rfl⟩ := List.mem_map.mp hr
    exact ⟨sub, callee, hmem, idx, hidx, Prod.ext (by simpa using hr1) rfl⟩
  have hspec : ∀ q ∈ p.2, ∃ fn ∈ m, fn.name = p.1 ∧ ∃ body, fn.body = some body ∧
      ∃ sub callee, (sub, callee) ∈ (keptSubstrings m substrings).zip news ∧
        sub.startIndices ≠ [] ∧ SeqAt (hashStringify m) body sub callee.name q := by
    intro q hq
    obtain ⟨sub, callee, hmem, idx, hidx, hrec⟩ := hrecord q hq
    obtain ⟨fn, hfn, body, hb, hname, hat, -⟩ := sequenceAt_spec hnd hmined
      ((keptSubstrings_sublist m substrings).subset (List.of_mem_zip hmem).1) hidx callee.name
    rw [hrec] at hname hat
    exact ⟨fn, hfn, hname.symm, body, hb, sub, callee, hmem, List.ne_nil_of_mem hidx, hat⟩
  obtain ⟨q₀, hq₀⟩ := List.exists_mem_of_ne_nil _ (hgroups.nonempty p hp)
  obtain ⟨fn, hfn, hname, body, hb, -⟩ := hspec q₀ hq₀
  refine ⟨fn, hfn, hname, body, hb, fun q hq => ?_, ?_⟩
  · obtain ⟨fn', hfn', hname', body', hb', hq'⟩ := hspec q hq
    obtain rfl := List.inj_on_of_nodup_map hnd hfn' hfn (hname'.trans hname.symm)
    obtain rfl := Option.some.inj (hb'.symm.trans hb)
    exact hq'
  · rw [hentries, List.pairwise_map]
    refine ((sequenceRecords_pairwise hnd hmined hlen).filter _).imp_of_mem
      fun {a b} ha hb' hab => hab ?_
    simp only [List.mem_filter, beq_iff_eq] at ha hb'
    exact ha.2.trans hb'.2.symm

/-- A kept substring with occurrences: its instructions lie at its first occurrence, and there
are as many of them as its length. -/
theorem subInstrs_at_head {sub : RepeatedSubstring} (hsub : sub ∈ substrings) {head : Nat}
    {rest : List Nat} (hheads : sub.startIndices = head :: rest) :
    ∃ fn ∈ m, ∃ body, fn.body = some body ∧
      (∀ i ∈ subInstrs (hashStringify m) sub, i ∈ body) ∧
      (subInstrs (hashStringify m) sub).length = sub.length ∧
      (hashStringify m).occurrence head sub.length =
        (subInstrs (hashStringify m) sub).map some := by
  have hhead : head ∈ sub.startIndices := hheads ▸ List.mem_cons_self _ _
  obtain ⟨fn, hfn, body, hb, r, hr, hend, -, -, hseg, hocc⟩ := hmined.occurrence hnd hsub hhead
  refine ⟨fn, hfn, body, hb, fun i hi => List.mem_of_mem_drop (List.mem_of_mem_take (hseg ▸ hi)),
    by rw [← hseg, List.length_take, List.length_drop]; omega, hocc⟩

/-- The callee of a kept substring with occurrences: no locals, no body yet, the substring's
`need` as parameters, and a nonempty stretch of instructions. -/
theorem callee_spec (hclosed : m.Closed) {news : Module}
    (hadds : AddsOutlined (hashStringify m) m (keptSubstrings m substrings) news)
    {sub : RepeatedSubstring} {callee : Func}
    (hmem : (sub, callee) ∈ (keptSubstrings m substrings).zip news)
    (hne : sub.startIndices ≠ []) :
    callee.vars = 0 ∧ callee.body = none ∧
      callee.params = need m (subInstrs (hashStringify m) sub) ∧
      subInstrs (hashStringify m) sub ≠ [] := by
  have hsub := (keptSubstrings_sublist m substrings).subset (List.of_mem_zip hmem).1
  obtain ⟨pre, hadd⟩ := hadds.exists_pre hmem
  obtain ⟨head, rest, hheads⟩ := List.exists_cons_of_ne_nil hne
  obtain ⟨fn, hfn, body, hb, hin, hlen, hocc⟩ := subInstrs_at_head hnd hmined hsub hheads
  obtain ⟨-, hvars, hbody, hparams⟩ := addOutlinedFunction_callee hadd
  have hcalls : ∀ i ∈ subInstrs (hashStringify m) sub, i.callee?.all m.hasFunction :=
    fun i hi => hclosed fn hfn body hb i (hin i hi)
  refine ⟨hvars, hbody, (hparams _ (by rwa [hheads])).trans
    (need_append_module pre hcalls), fun h => ?_⟩
  have := hmined.nonempty sub hsub
  rw [h, List.length_nil] at hlen
  omega

/-- With no `return_call` at the occurrences, every instruction of a kept substring with
occurrences can be outlined: the filters leave nothing else. -/
theorem subInstrs_outlinable (hnoRet : NoReturnCall m substrings) {sub : RepeatedSubstring}
    (hkept : sub ∈ keptSubstrings m substrings) (hne : sub.startIndices ≠ []) :
    ∀ i ∈ subInstrs (hashStringify m) sub, i.isOutlinable := by
  have hsub := (keptSubstrings_sublist m substrings).subset hkept
  obtain ⟨head, rest, hheads⟩ := List.exists_cons_of_ne_nil hne
  obtain ⟨-, -, -, -, -, hlen, hocc⟩ := subInstrs_at_head hnd hmined hsub hheads
  intro i hi
  obtain ⟨k, hk, rfl⟩ := List.getElem_of_mem hi
  have hret := hnoRet sub hsub head (hheads ▸ List.mem_cons_self _ _) k (hlen ▸ hk)
  rw [exprAt_of_occurrence hocc (hlen ▸ hk), List.getElem?_eq_getElem hk] at hret
  rcases outlinable_of_mem_keptSubstrings hkept _ hi with h | h
  · exact h
  · simp [h] at hret

end Records

end BinaryenPasses.Outlining
