import Mathlib.Tactic.IntervalCases
import Mathlib.Tactic.Ring
import BinaryenPasses.Outlining.Pass

/-!
# The function list `Outlining::run` leaves

`makeSequences` adds one callee per kept substring through `addOutlinedFunction`, each under a
name `Names::getValidFunctionName` finds free; `outline` only installs bodies; and
`moveOutlinedFunctions` rotates the callees to the front of the module.  Together, the module
after the pass lists the callees in the order they were created and then the original functions
in their order, every declaration unchanged, and a module whose names are distinct keeps them
distinct, so that the lookup by name finds each function of the list.

* `toString_injective` — distinct numbers print as distinct numerals: `decimalValue` reads a
  numeral back;
* `getValidFunctionName_fresh` — of the `n + 1` candidate names at most `n` are taken, so the
  name found is free;
* `makeSequences_adds` — `makeSequences` appends exactly the functions of `AddsOutlined`, whose
  names are distinct and new (`AddsOutlined.fresh`);
* `outline_withoutBody` — `outline` changes bodies only;
* `moveOutlinedFunctions_append` — the rotation puts the last functions first;
* **`run_function_list`** — the functions after the pass are the callees, one per kept
  substring, followed by the original functions, with distinct names and a matching lookup.
-/

namespace BinaryenPasses.Outlining

open Reconstruct

/-! ## Decimal numerals -/

/-- The number a list of decimal digits spells, the most significant digit first. -/
def decimalValue (ds : List Char) : Nat := ds.foldl (fun acc c => acc * 10 + (c.toNat - 48)) 0

theorem foldl_decimalValue (ds : List Char) (acc : Nat) :
    ds.foldl (fun acc c => acc * 10 + (c.toNat - 48)) acc =
      acc * 10 ^ ds.length + decimalValue ds := by
  induction ds generalizing acc with
  | nil => simp [decimalValue]
  | cons c ds ih =>
    rw [decimalValue, List.foldl_cons, List.foldl_cons, ih, ih, List.length_cons]
    ring

theorem digitChar_value {d : Nat} (h : d < 10) : (Nat.digitChar d).toNat - 48 = d := by
  interval_cases d <;> rfl

/-- One step of `Nat.toDigitsCore`: the last digit goes in front of `ds`. -/
theorem toDigitsCore_succ (fuel n : Nat) (ds : List Char) :
    Nat.toDigitsCore 10 (fuel + 1) n ds =
      if n / 10 = 0 then Nat.digitChar (n % 10) :: ds
      else Nat.toDigitsCore 10 fuel (n / 10) (Nat.digitChar (n % 10) :: ds) := rfl

/-- `Nat.toDigitsCore` puts the digits of `n` in front of `ds`. -/
theorem decimalValue_toDigitsCore : ∀ fuel n ds, n < fuel →
    decimalValue (Nat.toDigitsCore 10 fuel n ds) = n * 10 ^ ds.length + decimalValue ds
  | 0, _, _, h => absurd h (Nat.not_lt_zero _)
  | fuel + 1, n, ds, h => by
    have hd : decimalValue (Nat.digitChar (n % 10) :: ds) =
        n % 10 * 10 ^ ds.length + decimalValue ds := by
      rw [decimalValue, List.foldl_cons, foldl_decimalValue,
        digitChar_value (Nat.mod_lt _ (by omega))]
      simp
    rw [toDigitsCore_succ]
    split
    · rw [hd, Nat.mod_eq_of_lt (by omega)]
    · rw [decimalValue_toDigitsCore fuel (n / 10) _ (by omega), hd, List.length_cons]
      conv_rhs => rw [← Nat.div_add_mod n 10]
      ring

theorem decimalValue_toString (n : Nat) : decimalValue (toString n).data = n := by
  simpa [decimalValue] using decimalValue_toDigitsCore (n + 1) n [] (by omega)

theorem toString_injective {a b : Nat} (h : toString a = toString b) : a = b := by
  rw [← decimalValue_toString a, h, decimalValue_toString]

/-! ## Free names -/

@[simp] theorem hasFunction_eq_true (m : Module) (name : Name) :
    m.hasFunction name = true ↔ name ∈ m.map Func.name := by
  simp [Module.hasFunction]

/-- The candidates `root_0`, `root_1`, ... are distinct. -/
theorem candidate_injective (root : Name) {i j : Nat}
    (h : root ++ "_" ++ toString i = root ++ "_" ++ toString j) : i = j :=
  toString_injective (String.ext (List.append_cancel_left (congrArg String.data h)))

/-- `getValidFunctionName` finds a name no function has: `m.length + 1` distinct candidates
cannot all be among the `m.length` names of the module. -/
theorem getValidFunctionName_fresh (m : Module) (root : Name) :
    m.hasFunction (getValidFunctionName m root) = false := by
  unfold getValidFunctionName
  split
  · next h => simpa using h
  · dsimp only
    set candidates := (List.range (m.length + 1)).map fun i => root ++ "_" ++ toString i
    have hfree : ∃ c ∈ candidates, (!m.hasFunction c) = true := by
      by_contra hall
      push_neg at hall
      have hsub : candidates ⊆ m.map Func.name := fun c hc => by simpa using hall c hc
      have hnodup : candidates.Nodup :=
        (List.nodup_range _).map fun i j h => candidate_injective root h
      have hlen := (hnodup.subperm hsub).length_le
      simp [candidates] at hlen
    obtain ⟨c, hc⟩ := Option.isSome_iff_exists.mp (List.find?_isSome.mpr hfree)
    rw [hc, Option.getD_some]
    simpa using List.find?_some hc

/-! ## The callees `makeSequences` adds -/

/-- `addOutlinedFunction` appends one function with a free name and no body, and returns its
name. -/
theorem addOutlinedFunction_spec (m : Module) (substring : RepeatedSubstring)
    (stringify : Stringified) :
    ∃ fn, addOutlinedFunction m substring stringify = (m ++ [fn], fn.name) ∧
      m.hasFunction fn.name = false ∧ fn.body = none :=
  ⟨_, rfl, getValidFunctionName_fresh m _, rfl⟩

theorem addOutlinedFunction_fresh {m : Module} {substring : RepeatedSubstring}
    {stringify : Stringified} {fn : Func} {name : Name}
    (h : addOutlinedFunction m substring stringify = (m ++ [fn], name)) :
    fn.name ∉ m.map Func.name := by
  obtain ⟨fn', h', hfresh, -⟩ := addOutlinedFunction_spec m substring stringify
  obtain rfl : fn' = fn := (by simpa [h'] using h : fn' = fn ∧ _).1
  exact fun hmem => absurd ((hasFunction_eq_true m _).mpr hmem) (by simp [hfresh])

/-- The functions `makeSequences` adds for `substrings` to the module `m`: for each substring in
order, the function `addOutlinedFunction` appends to the module as it stands then. -/
inductive AddsOutlined (stringify : Stringified) : Module → List RepeatedSubstring → Module → Prop
  | nil (m : Module) : AddsOutlined stringify m [] []
  | cons {m : Module} {substring : RepeatedSubstring} {substrings : List RepeatedSubstring}
      {fn : Func} {news : Module} :
      addOutlinedFunction m substring stringify = (m ++ [fn], fn.name) →
      AddsOutlined stringify (m ++ [fn]) substrings news →
      AddsOutlined stringify m (substring :: substrings) (fn :: news)

namespace AddsOutlined

variable {stringify : Stringified} {m : Module} {substrings : List RepeatedSubstring}
  {news : Module}

theorem length (h : AddsOutlined stringify m substrings news) :
    news.length = substrings.length := by
  induction h with
  | nil => rfl
  | cons _ _ ih => simp [ih]

/-- The added functions have distinct names that the module did not have. -/
theorem fresh (h : AddsOutlined stringify m substrings news) :
    (news.map Func.name).Nodup ∧ ∀ fn ∈ news, fn.name ∉ m.map Func.name := by
  induction h with
  | nil => simp
  | @cons m _ _ fn news hadd _ ih =>
    obtain ⟨hnodup, hnew⟩ := ih
    have hnew' : ∀ g ∈ news, g.name ∉ m.map Func.name ∧ g.name ≠ fn.name := fun g hg => by
      simpa [not_or] using hnew g hg
    refine ⟨List.nodup_cons.mpr ⟨fun hmem => ?_, hnodup⟩, ?_⟩
    · obtain ⟨g, hg, hname⟩ := List.mem_map.mp hmem
      exact (hnew' g hg).2 hname
    · intro g hg
      rcases List.mem_cons.mp hg with rfl | hg
      · exact addOutlinedFunction_fresh hadd
      · exact (hnew' g hg).1

end AddsOutlined

/-- `makeSequences` appends the functions of `AddsOutlined` to the module, and nothing else. -/
theorem makeSequences_adds (m : Module) (substrings : List RepeatedSubstring)
    (stringify : Stringified) :
    ∃ news, AddsOutlined stringify m substrings news ∧
      (makeSequences m substrings stringify).1 = m ++ news := by
  unfold makeSequences
  generalize ([] : Sequences) = seqByFunc
  induction substrings generalizing m seqByFunc with
  | nil => exact ⟨[], .nil m, by simp⟩
  | cons substring substrings ih =>
    obtain ⟨fn, hfn, -, -⟩ := addOutlinedFunction_spec m substring stringify
    rw [List.foldl_cons]
    dsimp only
    rw [hfn]
    obtain ⟨news, hadds, heq⟩ := ih (m ++ [fn]) _
    exact ⟨fn :: news, .cons hfn hadds, by simpa using heq⟩

/-! ## Rebuilding and moving the functions -/

/-- A function's declaration: everything but its body. -/
def Func.withoutBody (fn : Func) : Func := { fn with body := none }

@[simp] theorem name_withoutBody (fn : Func) : fn.withoutBody.name = fn.name := rfl

@[simp] theorem setBody_withoutBody (m : Module) (name : Name) (body : List Instr) :
    (m.setBody name body).map Func.withoutBody = m.map Func.withoutBody := by
  unfold Module.setBody
  rw [List.map_map]
  exact List.map_congr_left fun fn _ => by
    simp only [Function.comp_apply]
    split_ifs <;> rfl

theorem foldl_setBody_withoutBody (m : Module) (bodies : List (Name × List Instr)) :
    (bodies.foldl (fun m body => m.setBody body.1 body.2) m).map Func.withoutBody =
      m.map Func.withoutBody := by
  induction bodies generalizing m with
  | nil => rfl
  | cons body bodies ih => rw [List.foldl_cons, ih, setBody_withoutBody]

/-- `outline` installs bodies and changes nothing else. -/
theorem outline_withoutBody (m : Module) (seqByFunc : Sequences) :
    (outline m seqByFunc).map Func.withoutBody = m.map Func.withoutBody := by
  unfold outline
  induction seqByFunc generalizing m with
  | nil => rfl
  | cons p seqByFunc ih =>
    rw [List.foldl_cons, ih]
    exact foldl_setBody_withoutBody _ _

theorem moveOutlinedFunctions_map (f : Func → Func) (m : Module) (outlinedCount : Nat) :
    (moveOutlinedFunctions m outlinedCount).map f =
      moveOutlinedFunctions (m.map f) outlinedCount := by
  simp [moveOutlinedFunctions, List.map_drop, List.map_take]

/-- The rotation moves the last `b.length` functions, `b`, in front of the others. -/
theorem moveOutlinedFunctions_append (a b : Module) :
    moveOutlinedFunctions (a ++ b) b.length = b ++ a := by
  simp [moveOutlinedFunctions]

/-! ## The name map -/

/-- In a module whose names are distinct, the lookup by name finds every function. -/
theorem getFunction?_of_mem {m : Module} (hm : (m.map Func.name).Nodup) {fn : Func}
    (h : fn ∈ m) : m.getFunction? fn.name = some fn := by
  induction m with
  | nil => exact absurd h (List.not_mem_nil _)
  | cons g m ih =>
    obtain ⟨hg, hm⟩ := List.nodup_cons.mp hm
    rcases List.mem_cons.mp h with rfl | h
    · simp [Module.getFunction?]
    · have hne : g.name ≠ fn.name := fun he => hg (he ▸ List.mem_map_of_mem _ h)
      simpa [Module.getFunction?, hne] using ih hm h

/-! ## The pass -/

/-- The substrings `run` passes to `makeSequences`: those the three content filters keep. -/
def keptSubstrings (m : Module) (substrings : List RepeatedSubstring) :
    List RepeatedSubstring :=
  filterLocalGets (filterLocalSets (filterBranches substrings (hashStringify m))
    (hashStringify m)) (hashStringify m)

theorem run_eq (m : Module) (substrings : List RepeatedSubstring) :
    run m substrings =
      moveOutlinedFunctions
        (outline (makeSequences m (keptSubstrings m substrings) (hashStringify m)).1
          (makeSequences m (keptSubstrings m substrings) (hashStringify m)).2)
        (keptSubstrings m substrings).length := rfl

/-- `Outlining::run` adds one function per substring it keeps, each the one
`addOutlinedFunction` appends, under a name no other function has, and no other function.  The
module it leaves lists those functions in the order they were created and then the original
functions in their order, each declaration unchanged (only bodies are rebuilt).  When the
original names are distinct, all the names are, and the lookup by name finds every function of
the list. -/
theorem run_function_list (m : Module) (substrings : List RepeatedSubstring) :
    ∃ news : Module, AddsOutlined (hashStringify m) m (keptSubstrings m substrings) news ∧
      news.length = (keptSubstrings m substrings).length ∧
      (news.map Func.name).Nodup ∧ (∀ fn ∈ news, fn.name ∉ m.map Func.name) ∧
      (run m substrings).map Func.withoutBody = (news ++ m).map Func.withoutBody ∧
      ((m.map Func.name).Nodup →
        ((run m substrings).map Func.name).Nodup ∧
        ∀ fn ∈ run m substrings, (run m substrings).getFunction? fn.name = some fn) := by
  obtain ⟨news, hadds, hseq⟩ :=
    makeSequences_adds m (keptSubstrings m substrings) (hashStringify m)
  obtain ⟨hnodup, hnew⟩ := hadds.fresh
  have hdecl : (run m substrings).map Func.withoutBody = (news ++ m).map Func.withoutBody := by
    rw [run_eq, moveOutlinedFunctions_map, outline_withoutBody, hseq, ← hadds.length,
      List.map_append, ← List.length_map news Func.withoutBody, moveOutlinedFunctions_append,
      List.map_append]
  have hnames : (run m substrings).map Func.name = (news ++ m).map Func.name := by
    simpa [List.map_map, Function.comp_def] using congrArg (List.map Func.name) hdecl
  refine ⟨news, hadds, hadds.length, hnodup, hnew, hdecl, fun hm => ?_⟩
  have hall : ((run m substrings).map Func.name).Nodup := by
    rw [hnames, List.map_append]
    exact List.nodup_append.mpr ⟨hnodup, hm, fun x hx hx' => by
      obtain ⟨fn, hfn, rfl⟩ := List.mem_map.mp hx
      exact hnew fn hfn hx'⟩
  exact ⟨hall, fun fn hfn => getFunction?_of_mem hall hfn⟩

/-- On the module of `outlining_returnCall_traps`, whose names are distinct, the names after the
pass are distinct. -/
theorem run_function_list_tailCall :
    (tailCallModule.map Func.name).Nodup ∧
      ((run tailCallModule tailCallSubstrings).map Func.name).Nodup := by
  obtain ⟨-, -, -, -, -, -, h⟩ := run_function_list tailCallModule tailCallSubstrings
  exact ⟨by decide, (h (by decide)).1⟩

end BinaryenPasses.Outlining
