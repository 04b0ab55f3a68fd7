import BinaryenPasses.Outlining.Occurrences

/-!
# What `outlineFunction` installs

For one function and its sequences, sorted by start and pairwise disjoint, the walk of
`ReconstructStringifyWalker` hands the existing builder the function's events with each range
replaced by a call, and the outlined builder one framed body per callee that has none yet
(`walk_from`).  The bodies the two builders build are then the function's new body and the
callees' bodies: the parameters' `local.get`s followed by the range.  The new body is related to
the old one by `Outlined` as soon as each callee in the final module has the body of its range
(`outlined_expectedExisting`).  Installing the bodies changes the body of the function, sets
the bodies of some callees, and leaves every other function alone (`outlineFunction_spec`).

* `builtBodies_existing` — the existing builder builds one body, the function's;
* `builtBodies_expectedOutlined` — the outlined builder builds callee bodies, one for each
  callee that has no body yet;
* `outlined_expectedExisting` — the function's new body is an outlining of its old one;
* **`outlineFunction_spec`** — what one iteration of `outline` does to the bodies of a module.
-/

namespace BinaryenPasses.Outlining

open Reconstruct

/-! ## The bodies the builders build -/

/-- An operation of the builders other than a function start. -/
def Reconstruct.BuilderOp.IsBody (op : BuilderOp Instr) : Prop := ∀ func, op ≠ .funcStart func

theorem builtBodies_cons_of_isBody {op : BuilderOp Instr} (hop : op.IsBody)
    (ops : List (BuilderOp Instr)) :
    builtBodies (op :: ops) =
      ((builtInstr op).toList ++ (builtBodies ops).1, (builtBodies ops).2) := by
  cases op with
  | funcStart func => exact absurd rfl (hop func)
  | _ => rfl

theorem builtBodies_funcStart (func : Name) (ops : List (BuilderOp Instr)) :
    builtBodies (.funcStart func :: ops) =
      ([], (func, (builtBodies ops).1) :: (builtBodies ops).2) := rfl

/-- Operations with no function start add their instructions to what is pending. -/
theorem builtBodies_append_of_isBody {ops : List (BuilderOp Instr)} (hops : ∀ op ∈ ops, op.IsBody)
    (rest : List (BuilderOp Instr)) :
    builtBodies (ops ++ rest) =
      (ops.filterMap builtInstr ++ (builtBodies rest).1, (builtBodies rest).2) := by
  induction ops with
  | nil => rfl
  | cons op ops ih =>
    rw [List.cons_append, builtBodies_cons_of_isBody (hops op (List.mem_cons_self _ _)),
      ih fun o ho => hops o (List.mem_cons_of_mem _ ho), List.filterMap_cons]
    cases builtInstr op <;> rfl

theorem isBody_existingOp (ev : Event Instr) : (Event.existingOp ev).IsBody := by
  cases ev <;> simp [Event.existingOp, BuilderOp.IsBody]

theorem isBody_expectedExisting (events : List (Event Instr)) :
    ∀ (pos : Nat) (seqs : List OutliningSequence),
    ∀ op ∈ expectedExisting events pos seqs, op.IsBody
  | pos, [] => by
    simp only [expectedExisting, List.mem_map]
    rintro op ⟨ev, -, rfl⟩
    exact isBody_existingOp ev
  | pos, s :: ss => by
    intro op hop
    simp only [expectedExisting, List.mem_append, List.mem_map, Walker.callOps,
      List.mem_cons] at hop
    rcases hop with (⟨ev, -, rfl⟩ | rfl | hop) | hop
    · exact isBody_existingOp ev
    · simp [BuilderOp.IsBody]
    · split_ifs at hop <;> simp_all [BuilderOp.IsBody]
    · exact isBody_expectedExisting events s.endIdx ss op hop

/-- The existing builder builds one body: the function's, from its instructions. -/
theorem builtBodies_existing (func : Name) (events : List (Event Instr))
    (seqs : List OutliningSequence) :
    (builtBodies ([.build, .funcStart func] ++ expectedExisting events 1 seqs)).2 =
      [(func, (expectedExisting events 1 seqs).filterMap builtInstr)] := by
  have hbody := builtBodies_append_of_isBody (isBody_expectedExisting events 1 seqs) []
  rw [List.append_nil, show builtBodies [] = ([], []) from rfl, List.append_nil] at hbody
  rw [List.cons_append, builtBodies_cons_of_isBody (by simp [BuilderOp.IsBody]),
    List.singleton_append, builtBodies_funcStart, hbody]

/-! ## The events of a body and their slices -/

/-- The walk of a body: its instructions, then the end of its scope. -/
def bodyEvents (body : List Instr) : List (Event Instr) := body.map .expr ++ [.symbol .scopeEnd]

/-- The range of a body a sequence stands for. -/
def rangeOf (body : List Instr) (q : OutliningSequence) : List Instr :=
  (body.drop (q.startIdx - 1)).take (q.endIdx - q.startIdx)

theorem filterMap_existingOp_expr (l : List Instr) :
    ((l.map Event.expr).map Event.existingOp).filterMap builtInstr = l := by
  simp only [List.map_map, List.filterMap_map]
  exact List.filterMap_some l

/-- What follows position `k` of the walk builds the body from `k` on. -/
theorem filterMap_drop_bodyEvents (body : List Instr) (k : Nat) :
    (((bodyEvents body).drop k).map Event.existingOp).filterMap builtInstr = body.drop k := by
  rw [bodyEvents, List.drop_append_eq_append_drop, List.map_append, List.filterMap_append,
    ← List.map_drop, filterMap_existingOp_expr]
  rcases k - (body.map Event.expr).length with _ | _ <;> simp [Event.existingOp, builtInstr]

/-- A slice of the walk inside the body builds that range of the body. -/
theorem filterMap_slice_bodyEvents (body : List Instr) {a b : Nat} (ha : 1 ≤ a)
    (hb : b ≤ body.length + 1) :
    ((slice (bodyEvents body) a b).map Event.existingOp).filterMap builtInstr =
      (body.drop (a - 1)).take (b - a) := by
  rw [Reconstruct.slice, bodyEvents, List.drop_append_eq_append_drop, List.take_append_of_le_length
    (by simp; omega), ← List.map_drop, ← List.map_take, filterMap_existingOp_expr]

/-! ## The callee bodies -/

/-- The outlined builder builds one body per sequence whose callee has no body when the walk
reaches it: the parameters' `local.get`s, then the sequence's slice of the walk. -/
theorem builtBodies_expectedOutlined (events : List (Event Instr)) (numParams : Name → Nat) :
    ∀ (hasBody : Name → Bool) (seqs : List OutliningSequence),
    (builtBodies (expectedOutlined events numParams hasBody seqs)).1 = [] ∧
    (∀ e ∈ (builtBodies (expectedOutlined events numParams hasBody seqs)).2, ∃ s ∈ seqs,
      e = (s.func, (List.range (numParams s.func)).map Instr.localGet ++
        ((slice events s.startIdx s.endIdx).map Event.existingOp).filterMap builtInstr)) ∧
    ∀ s ∈ seqs, hasBody s.func = true ∨
      ∃ e ∈ (builtBodies (expectedOutlined events numParams hasBody seqs)).2, e.1 = s.func
  | _, [] => ⟨rfl, fun _ he => absurd he (List.not_mem_nil _), by simp⟩
  | hasBody, s :: ss => by
    obtain ⟨ih₁, ih₂, ih₃⟩ :=
      builtBodies_expectedOutlined events numParams (Function.update hasBody s.func true) ss
    have hcover : ∀ s' ∈ ss, hasBody s'.func = true ∨ s'.func = s.func ∨ ∃ e ∈
        (builtBodies (expectedOutlined events numParams (Function.update hasBody s.func true)
          ss)).2, e.1 = s'.func := fun s' hs' => by
      rcases ih₃ s' hs' with h | h
      · by_cases he : s'.func = s.func
        · exact .inr (.inl he)
        · exact .inl (by rwa [Function.update_noteq he] at h)
      · exact .inr (.inr h)
    simp only [expectedOutlined]
    by_cases hs : hasBody s.func = true
    · rw [if_pos hs, List.nil_append]
      refine ⟨ih₁, fun e he => ?_, fun s' hs' => ?_⟩
      · obtain ⟨s', hs', rfl⟩ := ih₂ e he
        exact ⟨s', List.mem_cons_of_mem _ hs', rfl⟩
      · rcases List.mem_cons.mp hs' with rfl | hs'
        · exact .inl hs
        · rcases hcover s' hs' with h | h | h
          · exact .inl h
          · exact .inl (h ▸ hs)
          · exact .inr h
    · rw [if_neg hs]
      have hframe : Walker.calleeStart s (numParams s.func) ++
          (slice events s.startIdx s.endIdx).map Event.existingOp ++ [.visitEnd] ++
          expectedOutlined events numParams (Function.update hasBody s.func true) ss =
          .funcStart s.func :: (((List.range (numParams s.func)).map .localGet ++
            (slice events s.startIdx s.endIdx).map Event.existingOp ++ [.visitEnd]) ++
            expectedOutlined events numParams (Function.update hasBody s.func true) ss) := by
        simp [Walker.calleeStart]
      have hbody : ∀ op ∈ (List.range (numParams s.func)).map BuilderOp.localGet ++
          (slice events s.startIdx s.endIdx).map Event.existingOp ++ [.visitEnd],
          op.IsBody := by
        intro op hop
        simp only [List.mem_append, List.mem_map, List.mem_singleton] at hop
        rcases hop with (⟨i, -, rfl⟩ | ⟨ev, -, rfl⟩) | rfl
        · simp [BuilderOp.IsBody]
        · exact isBody_existingOp ev
        · simp [BuilderOp.IsBody]
      rw [hframe, builtBodies_funcStart, builtBodies_append_of_isBody hbody, ih₁]
      refine ⟨rfl, fun e he => ?_, fun s' hs' => ?_⟩
      · rcases List.mem_cons.mp he with rfl | he
        · refine ⟨s, List.mem_cons_self _ _, ?_⟩
          simp only [List.filterMap_append, List.filterMap_map, List.append_nil]
          simp [Function.comp_def, builtInstr, ← List.filterMap_eq_map]
        · obtain ⟨s', hs', rfl⟩ := ih₂ e he
          exact ⟨s', List.mem_cons_of_mem _ hs', rfl⟩
      · rcases List.mem_cons.mp hs' with rfl | hs'
        · exact .inr ⟨_, List.mem_cons_self _ _, rfl⟩
        · rcases hcover s' hs' with h | h | ⟨e, he, he'⟩
          · exact .inl h
          · exact .inr ⟨_, List.mem_cons_self _ _, h.symm⟩
          · exact .inr ⟨e, List.mem_cons_of_mem _ he, he'⟩

/-! ## The new body of the function -/

theorem Outlined.keep_append {m m' : Module} {l l' : List Instr} (h : Outlined m m' l l') :
    ∀ pre : List Instr, Outlined m m' (pre ++ l) (pre ++ l')
  | [] => h
  | i :: pre => .keep i (Outlined.keep_append h pre)

/-- What a sequence needs for its call to outline its range in `m'`: the range is a stretch of
outlinable instructions, the call is followed by `unreachable` only after a stretch that ends in
one, and the callee in `m'` takes the stretch's `need` as parameters and runs the stretch. -/
structure CallsOutlined (m m' : Module) (body : List Instr) (q : OutliningSequence) : Prop where
  outlinable : ∀ i ∈ rangeOf body q, i.isOutlinable
  ends : q.endsTypeUnreachable = true → (rangeOf body q).getLast? = some .unreachable
  callee : ∃ results, m'.getFunction? q.func = some ⟨q.func, need m (rangeOf body q), results, 0,
    some (calleeBody (need m (rangeOf body q)) (rangeOf body q))⟩

/-- **The function's new body outlines its old one.**  From position `pos` of the walk on, with
the sequences still to come in order and apart, the existing builder builds the rest of the body
with each range replaced by its call. -/
theorem outlined_expectedExisting {m m' : Module} (body : List Instr) :
    ∀ (seqs : List OutliningSequence) (pos : Nat), 1 ≤ pos →
    seqs.Pairwise (fun a b => a.endIdx ≤ b.startIdx) →
    (∀ q ∈ seqs, pos ≤ q.startIdx ∧ q.startIdx < q.endIdx ∧ q.endIdx ≤ body.length + 1) →
    (∀ q ∈ seqs, CallsOutlined m m' body q) →
    Outlined m m' (body.drop (pos - 1))
      ((expectedExisting (bodyEvents body) pos seqs).filterMap builtInstr)
  | [], pos, _, _, _, _ => by
    rw [expectedExisting, filterMap_drop_bodyEvents]
    exact Outlined.refl _
  | q :: qs, pos, hpos, hpw, hb, hc => by
    obtain ⟨hq, hqs⟩ := List.pairwise_cons.mp hpw
    obtain ⟨h₁, h₂, h₃⟩ := hb q (List.mem_cons_self _ _)
    have ih := outlined_expectedExisting body qs q.endIdx (by omega) hqs
      (fun q' hq' => ⟨hq q' hq', (hb q' (List.mem_cons_of_mem _ hq')).2⟩)
      (fun q' hq' => hc q' (List.mem_cons_of_mem _ hq'))
    have hsplit : body.drop (pos - 1) = (body.drop (pos - 1)).take (q.startIdx - pos) ++
        (rangeOf body q ++ body.drop (q.endIdx - 1)) := by
      have e₁ : body.drop (pos - 1) =
          (body.drop (pos - 1)).take (q.startIdx - pos) ++ body.drop (q.startIdx - 1) := by
        conv_lhs => rw [← List.take_append_drop (q.startIdx - pos) (body.drop (pos - 1))]
        rw [List.drop_drop, show pos - 1 + (q.startIdx - pos) = q.startIdx - 1 by omega]
      have e₂ : body.drop (q.startIdx - 1) = rangeOf body q ++ body.drop (q.endIdx - 1) := by
        rw [rangeOf]
        conv_lhs => rw [← List.take_append_drop (q.endIdx - q.startIdx) (body.drop (q.startIdx - 1))]
        rw [List.drop_drop, show q.startIdx - 1 + (q.endIdx - q.startIdx) = q.endIdx - 1 by omega]
      conv_lhs => rw [e₁, e₂]
    have hcall : (Walker.callOps q).filterMap builtInstr =
        .call q.func false :: if q.endsTypeUnreachable then [.unreachable] else [] := by
      unfold Walker.callOps; split_ifs <;> rfl
    have hne : rangeOf body q ≠ [] := by
      rw [rangeOf, ← List.length_pos, List.length_take, List.length_drop]; omega
    obtain ⟨hout, hends, results, hg⟩ := hc q (List.mem_cons_self _ _)
    rw [hsplit, expectedExisting, List.filterMap_append, List.filterMap_append,
      filterMap_slice_bodyEvents body hpos (by omega), hcall, List.append_assoc]
    exact (Outlined.call _ hne hout hends hg ih).keep_append _

/-! ## Installing the bodies -/

/-- The body a function has in a module. -/
def Module.bodyOf (m : Module) (name : Name) : Option (List Instr) :=
  (m.getFunction? name).bind Func.body

theorem getFunction?_setBody (M : Module) (n : Name) (b : List Instr) (x : Name) :
    (M.setBody n b).getFunction? x =
      (M.getFunction? x).map fun fn => if x = n then { fn with body := some b } else fn := by
  unfold Module.getFunction? Module.setBody
  rw [List.find?_map]
  have hp : ((fun fn : Func => fn.name == x) ∘
      fun fn => if fn.name = n then { fn with body := some b } else fn) = (·.name == x) := by
    funext fn; simp only [Function.comp_apply]; split_ifs <;> rfl
  rw [hp]
  apply Option.map_congr
  intro fn hfn
  rw [show fn.name = x by simpa using List.find?_some hfn]

/-- Installing bodies changes a function's body only to one installed for its name. -/
theorem bodyOf_foldl_setBody (x : Name) : ∀ (bodies : List (Name × List Instr)) (M : Module),
    (bodies.foldl (fun M e => M.setBody e.1 e.2) M).bodyOf x = M.bodyOf x ∨
      ∃ e ∈ bodies, e.1 = x ∧ (bodies.foldl (fun M e => M.setBody e.1 e.2) M).bodyOf x = some e.2
  | [], _ => .inl rfl
  | e :: bodies, M => by
    rw [List.foldl_cons]
    rcases bodyOf_foldl_setBody x bodies (M.setBody e.1 e.2) with h | ⟨e', he', hx, h⟩
    · rw [h, Module.bodyOf, getFunction?_setBody]
      by_cases hxe : x = e.1
      · rcases hfn : M.getFunction? x with _ | fn
        · exact .inl (by simp [Module.bodyOf, hfn])
        · exact .inr ⟨e, List.mem_cons_self _ _, hxe.symm, by simp [hxe]⟩
      · exact .inl (by simp [hxe, Module.bodyOf])
    · exact .inr ⟨e', List.mem_cons_of_mem _ he', hx, h⟩

/-- A function that exists gets one of the bodies installed for its name, if any is. -/
theorem bodyOf_foldl_setBody_of_mem (x : Name) : ∀ (bodies : List (Name × List Instr))
    (M : Module), (M.getFunction? x).isSome → (∃ e ∈ bodies, e.1 = x) →
    ∃ e ∈ bodies, e.1 = x ∧ (bodies.foldl (fun M e => M.setBody e.1 e.2) M).bodyOf x = some e.2
  | [], _, _, ⟨_, he, _⟩ => absurd he (List.not_mem_nil _)
  | e :: bodies, M, hx, hmem => by
    rw [List.foldl_cons]
    have hx' : ((M.setBody e.1 e.2).getFunction? x).isSome := by
      rw [getFunction?_setBody, Option.isSome_map']; exact hx
    by_cases hrest : ∃ e' ∈ bodies, e'.1 = x
    · obtain ⟨e', he', hx, h⟩ := bodyOf_foldl_setBody_of_mem x bodies _ hx' hrest
      exact ⟨e', List.mem_cons_of_mem _ he', hx, h⟩
    · push_neg at hrest
      obtain ⟨e', he', hxe⟩ := hmem
      obtain rfl : e' = e := by
        rcases List.mem_cons.mp he' with rfl | he'
        · rfl
        · exact absurd hxe (hrest e' he')
      rcases bodyOf_foldl_setBody x bodies (M.setBody e'.1 e'.2) with h | ⟨e'', he'', hx'', _⟩
      · refine ⟨e', List.mem_cons_self _ _, hxe, ?_⟩
        obtain ⟨fn, hfn⟩ := Option.isSome_iff_exists.mp hx
        rw [h]
        simp [Module.bodyOf, getFunction?_setBody, hxe, hfn]
      · exact absurd hx'' (hrest e'' he'')

/-! ## One iteration of `outline` -/

/-- The builders after the walk of one function, as `walk_from` routes the events. -/
theorem reconstruct_builders (func : Name) (seqs : List OutliningSequence)
    (hasBody : Name → Bool) (numParams : Name → Nat) (events : List (Event Instr))
    (hv : ValidSequences events seqs) :
    (reconstruct func seqs hasBody numParams events).existingBuilder =
      [.build, .funcStart func] ++ expectedExisting events 1 seqs ∧
    (reconstruct func seqs hasBody numParams events).outlinedBuilder =
      expectedOutlined events numParams hasBody seqs := by
  have h := walk_from events seqs hv seqs []
    ((Walker.init seqs hasBody numParams).startExistingFunction func) 1 rfl rfl rfl rfl rfl
    (by omega) (fun s hs => (hv.bounds s hs).1)
  simp only [reconstruct, Walker.init, Walker.startExistingFunction, List.nil_append,
    Nat.sub_self, List.drop_zero] at h ⊢
  simp [h]

/-- A sequence of a body's walk ends inside the body: its positions hold expressions. -/
theorem endIdx_le_of_valid {body : List Instr} {seqs : List OutliningSequence}
    (hv : ValidSequences (bodyEvents body) seqs) {s : OutliningSequence} (hs : s ∈ seqs) :
    s.endIdx ≤ body.length + 1 := by
  obtain ⟨h₁, h₂, -⟩ := hv.bounds s hs
  obtain ⟨e, he⟩ := hv.onlyExprs s hs (s.endIdx - 1) (by omega) (by omega)
  by_contra hlt
  rw [bodyEvents, List.getElem?_append_right (by simp; omega), List.length_map] at he
  rcases hk : s.endIdx - 1 - 1 - body.length with _ | k <;> simp [hk] at he

/-- **One iteration of `outline`.**  It keeps every declaration, gives the function the body the
existing builder builds, gives each callee of its sequences a body, and changes no other body
but a callee's, to the parameters' `local.get`s followed by the range of one of its
sequences. -/
theorem outlineFunction_spec {M : Module} {f : Name} {seqs : List OutliningSequence}
    {body : List Instr} (hf : M.bodyOf f = some body)
    (hvalid : ValidSequences (bodyEvents body)
      (seqs.insertionSort fun a b => a.startIdx ≤ b.startIdx))
    (hfunc : ∀ q ∈ seqs, q.func ≠ f ∧ (M.getFunction? q.func).isSome) :
    (outlineFunction M f seqs).map Func.withoutBody = M.map Func.withoutBody ∧
    (outlineFunction M f seqs).bodyOf f = some ((expectedExisting (bodyEvents body) 1
      (seqs.insertionSort fun a b => a.startIdx ≤ b.startIdx)).filterMap builtInstr) ∧
    (∀ x, x ≠ f → (outlineFunction M f seqs).bodyOf x = M.bodyOf x ∨ ∃ q ∈ seqs, q.func = x ∧
      (outlineFunction M f seqs).bodyOf x =
        some ((List.range (M.numParams x)).map Instr.localGet ++ rangeOf body q)) ∧
    ∀ q ∈ seqs, (outlineFunction M f seqs).bodyOf q.func ≠ none := by
  set sorted := seqs.insertionSort fun a b => a.startIdx ≤ b.startIdx
  have hperm : sorted.Perm seqs := List.perm_insertionSort _ _
  have hevents : M.events f = bodyEvents body := by
    unfold Module.events
    rw [show (M.getFunction? f).bind Func.body = some body from hf]
    rfl
  obtain ⟨hex, hout⟩ := reconstruct_builders f sorted M.hasBody M.numParams _ hvalid
  obtain ⟨-, hent, hcover⟩ :=
    builtBodies_expectedOutlined (bodyEvents body) M.numParams M.hasBody sorted
  set entries := (builtBodies (expectedOutlined (bodyEvents body) M.numParams M.hasBody sorted)).2
  set newBody := (expectedExisting (bodyEvents body) 1 sorted).filterMap builtInstr
  have hdef : outlineFunction M f seqs =
      ((f, newBody) :: entries).foldl (fun m body => m.setBody body.1 body.2) M := by
    simp only [outlineFunction]
    rw [hevents, hex, hout, builtBodies_existing]
    rfl
  have hentry : ∀ e ∈ entries, ∃ q ∈ seqs, e = (q.func,
      (List.range (M.numParams q.func)).map Instr.localGet ++ rangeOf body q) := fun e he => by
    obtain ⟨q, hq, rfl⟩ := hent e he
    refine ⟨q, hperm.subset hq, ?_⟩
    rw [filterMap_slice_bodyEvents body (hvalid.bounds q hq).1 (endIdx_le_of_valid hvalid hq)]
    rfl
  have hsome : (M.getFunction? f).isSome := by
    rcases h : M.getFunction? f with _ | _
    · simp [Module.bodyOf, h] at hf
    · rfl
  refine ⟨by rw [hdef]; exact foldl_setBody_withoutBody _ _, ?_, fun x hx => ?_, fun q hq => ?_⟩
  · obtain ⟨e, he, hef, h⟩ := bodyOf_foldl_setBody_of_mem f ((f, newBody) :: entries) M hsome
      ⟨(f, newBody), List.mem_cons_self _ _, rfl⟩
    rw [hdef, h]
    rcases List.mem_cons.mp he with rfl | he
    · rfl
    · obtain ⟨q, hq, rfl⟩ := hentry e he
      exact absurd hef (hfunc q hq).1
  · rw [hdef]
    rcases bodyOf_foldl_setBody x ((f, newBody) :: entries) M with h | ⟨e, he, hex, h⟩
    · exact .inl h
    · rcases List.mem_cons.mp he with rfl | he
      · exact absurd hex.symm hx
      · obtain ⟨q, hq, rfl⟩ := hentry e he
        exact .inr ⟨q, hq, hex, hex ▸ h⟩
  · rw [hdef]
    rcases hcover q (hperm.mem_iff.mpr hq) with h | ⟨e, he, hef⟩
    · rcases bodyOf_foldl_setBody q.func ((f, newBody) :: entries) M with h' | ⟨_, _, _, h'⟩
      · rw [h']
        simpa [Module.hasBody, Module.bodyOf, Option.isSome_iff_ne_none] using h
      · rw [h']; exact Option.some_ne_none _
    · obtain ⟨e', -, -, h'⟩ := bodyOf_foldl_setBody_of_mem q.func ((f, newBody) :: entries) M
        (hfunc q hq).2 ⟨e, List.mem_cons_of_mem _ he, hef⟩
      rw [h']; exact Option.some_ne_none _

end BinaryenPasses.Outlining
