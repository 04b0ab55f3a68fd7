import BinaryenPasses.Heap2Local.AtomicReplacement

/-!
# What replaces a cast of the allocation

`Struct2Local::visitRefCast` decides every `ref.cast` and `ref.cast_desc` the allocation reaches
from what it knows of the allocation.  Without a descriptor the cast is decided by the
allocation's exact type: it becomes the reference itself, or a trap after it.  With a
descriptor:

* when the allocation has no descriptor, or is the descriptor, the cast fails, except that a
  nullable cast whose reference is not the allocation lets a null through: the cast is kept as
  a cast to the bottom type of a scratch local that carries the reference past the descriptor;
* otherwise the allocation is the reference, and the cast succeeds exactly when the descriptor
  is the allocation's own, which `ref.eq` compares with the descriptor's local.

The block is compared with the original cast over any two runs of the operands, one in the
original function and one in the function the visitor rewrites, that end alike: the same way
when they fail; otherwise with the allocation where the analysis says it flows in the original
run, and the same values elsewhere.  The object the reference holds in the run does not have
the allocation as its descriptor, the allocation not having escaped into it.

* `visitRefCast_eq` — the visitor is `refCastReplacement` followed by `replaceCurrent`, which
  edits only the parent;
* `refCastReplacement_layout_fails`, `_unreachable`, `_compare`, `_keep` — where the builders
  put each part of the four replacements;
* `eval_dropsThenTrap`, `eval_compareReplacement`, `eval_keepReplacement` — the blocks, read
  off the run of their operands;
* `refCastReplacement_eval_none`, `refCastReplacement_eval_some` — the replacement, read off
  the run of the cast's operands in the function being rewritten; the kept cast sees its
  operands as before, neither reaching the cast (`eval_set_of_not_reaches`);
* **`refCastReplacement_matches_cast`** — the replacement runs the reference then the
  descriptor once each, in order, and traps exactly where the cast traps; where the cast
  succeeds, with the allocation or with the null a nullable cast lets through, the replacement
  completes, with the null that stands for the allocation.
-/

namespace BinaryenPasses.Heap2Local

open BinaryenPasses.IR

/-! ## Setting an expression -/

theorem get_set_self (f : Function) {k : ExprId} (hk : k < f.exprs.length) (e : Expression) :
    (f.set k e).get k = some e := by
  simp only [Function.get, Function.set, List.getElem?_set_self hk]

theorem lt_of_expr? {f : Function} {id : ExprId} {e : Expr} (h : f.expr? id = some e) :
    id < f.exprs.length := by
  obtain ⟨_, hget, -⟩ := Option.map_eq_some'.1 h
  exact (List.getElem?_eq_some_iff.1 hget).1

theorem get_set_ne (f : Function) {k id : ExprId} (h : id ≠ k) (e : Expression) :
    (f.set k e).get id = f.get id := by
  simp only [Function.get, Function.set, List.getElem?_set_ne (Ne.symm h)]

/-! ## `replaceCurrent` edits only the parent -/

theorem typeOf_replaceSlot (f : Function) (parent : Option ExprId) (curr rep id : ExprId) :
    (f.replaceSlot parent curr rep).typeOf id = f.typeOf id := by
  rcases parent with _ | p
  · rfl
  simp only [Function.replaceSlot]
  rcases hp : f.get p with _ | e
  · rfl
  simp only [Function.typeOf, Function.get, Function.set] at hp ⊢
  by_cases h : id = p
  · subst h
    rw [List.getElem?_set_self (List.getElem?_eq_some_iff.1 hp).1, hp]
    rfl
  · rw [List.getElem?_set_ne (Ne.symm h)]

theorem replaceSlot_alloc (f : Function) {parent : Option ExprId} (curr rep : ExprId)
    (hp : ∀ p ∈ parent, p < f.exprs.length) (e : Expression) :
    Builder.alloc (f.replaceSlot parent curr rep) e =
      ((Builder.alloc f e).1.replaceSlot parent curr rep, f.exprs.length) := by
  rcases parent with _ | p
  · rfl
  have hp' := hp p rfl
  have hget : (Builder.alloc f e).1.get p = f.get p := by
    simp [Builder.alloc, Function.get, List.getElem?_append_left hp']
  simp only [Function.replaceSlot, hget]
  rcases f.get p with _ | e'
  · rfl
  · simp [Builder.alloc, Function.set, List.set_append_left _ _ hp']

theorem replaceSlot_set (f : Function) {parent : Option ExprId} (curr rep : ExprId) {k : ExprId}
    (hp : ∀ p ∈ parent, p ≠ k) (e : Expression) :
    (f.set k e).replaceSlot parent curr rep = (f.replaceSlot parent curr rep).set k e := by
  rcases parent with _ | p
  · rfl
  have hpk := hp p rfl
  have hget : (f.set k e).get p = f.get p := by
    simp [Function.get, Function.set, List.getElem?_set_ne (Ne.symm hpk)]
  simp only [Function.replaceSlot, hget]
  rcases f.get p with _ | e'
  · rfl
  · simp only [Function.set, List.set_comm _ _ _ hpk]

theorem blockify_spec (f : Function) (any : ExprId) (appends : List ExprId)
    (h : any < f.exprs.length) :
    f.exprs.length ≤ (Builder.blockify f any appends).1.exprs.length ∧
    any ≤ (Builder.blockify f any appends).2 ∧
    (Builder.blockify f any appends).2 < (Builder.blockify f any appends).1.exprs.length := by
  unfold Builder.blockify
  split
  · simp [Function.set, h]
  · simp only [Builder.makeBlock, Builder.alloc, List.length_append, List.length_singleton]
    exact ⟨Nat.le_succ _, Nat.le_of_lt h, Nat.lt_succ_self _⟩

/-- Where a null may pass, the source edits the kept cast after `replaceCurrent`; editing it
before gives the same rewrite, `replaceCurrent` editing only the parent. -/
theorem replaceCurrent_keepCast (r : Rewrite) {f : Function} {curr block : ExprId}
    {parent : Option ExprId} (hcurr : curr < r.func.exprs.length)
    (hparent : ∀ p ∈ parent, p ≠ curr ∧ p < r.func.exprs.length)
    (hf : r.func.exprs.length ≤ f.exprs.length)
    (hblock : r.func.exprs.length ≤ block ∧ block < f.exprs.length) (scratch ref : ExprId)
    (t : Ty) :
    ((r.withFunc f).replaceCurrent curr parent block).withFunc
        ((Builder.makeLocalGet ((r.withFunc f).replaceCurrent curr parent block).func scratch
            (((r.withFunc f).replaceCurrent curr parent block).func.typeOf ref)).1.set curr
          ⟨.refCast (Builder.makeLocalGet ((r.withFunc f).replaceCurrent curr parent
            block).func scratch (((r.withFunc f).replaceCurrent curr parent
              block).func.typeOf ref)).2 none, t⟩) =
      (r.withFunc ((Builder.makeLocalGet f scratch (f.typeOf ref)).1.set curr
          ⟨.refCast (Builder.makeLocalGet f scratch (f.typeOf ref)).2 none, t⟩)).replaceCurrent
        curr parent block := by
  simp only [Rewrite.replaceCurrent, Rewrite.withFunc, typeOf_replaceSlot, Builder.makeLocalGet]
  rw [replaceSlot_alloc f curr block (fun p hp => lt_of_lt_of_le (hparent p hp).2 hf),
    ← replaceSlot_set _ curr block (fun p hp => (hparent p hp).1)]
  have htype : ((Builder.alloc f ⟨.localGet scratch, f.typeOf ref⟩).1.set curr
      ⟨.refCast f.exprs.length none, t⟩).typeOf block = f.typeOf block := by
    simp only [Function.typeOf, Function.get, Function.set, Builder.alloc,
      List.getElem?_set_ne (Nat.ne_of_lt (lt_of_lt_of_le hcurr hblock.1)),
      List.getElem?_append_left hblock.2]
  simp only [Builder.alloc] at htype ⊢
  simp only [applyOldInteractionToReplacement, htype]

namespace Struct2Local

variable (s2l : Struct2Local)

/-! ## The replacement the visitor builds -/

/-- The function and the expression `visitRefCast` puts in the cast's place, before
`replaceCurrent`.  Where a null may pass, the cast itself is kept, as a cast of the scratch
local to the bottom type; the source edits it after `replaceCurrent`, which edits only the
parent, so that the order makes no difference (`visitRefCast_eq`). -/
def refCastReplacement (r : Rewrite) (curr ref : ExprId) (desc : Option ExprId) (type : Ty) :
    Function × ExprId :=
  match desc with
  | some desc =>
    let allocIsCastRef := r.reached.get ref == ParentChildInteraction.flows
    let allocIsCastDesc := r.reached.get desc == ParentChildInteraction.flows
    if s2l.descType.isNone || allocIsCastDesc then
      if allocIsCastDesc && !allocIsCastRef && type.isNullable then
        let (f, scratch) := Builder.addVar r.func (r.func.typeOf ref)
        let (f, set) := Builder.makeLocalSet f scratch ref
        let (f, drop) := Builder.makeDrop f desc
        let (f, block) := Builder.blockify f set [drop, curr]
        let (f, get) := Builder.makeLocalGet f scratch (f.typeOf ref)
        (f.set curr ⟨.refCast get none, .ref .none type.isNullable⟩, block)
      else
        let (f, dropRef) := Builder.makeDrop r.func ref
        let (f, dropDesc) := Builder.makeDrop f desc
        let (f, unreachable) := Builder.makeUnreachable f
        Builder.blockify f dropRef [dropDesc, unreachable]
    else
      let descType := s2l.descType.getD .none
      let (f, dropRef) := Builder.makeDrop r.func ref
      let (f, get) := Builder.makeLocalGet f (s2l.localIndexes.getD s2l.fields.length 0) descType
      let (f, eq) := Builder.makeRefEq f desc get
      let (f, null) := Builder.makeRefNull f s2l.allocType.getHeapType
      let (f, unreachable) := Builder.makeUnreachable f
      let (f, iff) := Builder.makeIf f eq null (some unreachable)
      Builder.blockify f dropRef [iff]
  | none =>
    if Ty.isSubType s2l.types s2l.allocType type then (r.func, ref) else
    let (f, drop) := Builder.makeDrop r.func ref
    let (f, unreachable) := Builder.makeUnreachable f
    Builder.makeSequence f drop unreachable

theorem visitRefCast_eq (r : Rewrite) (curr : ExprId) (parent : Option ExprId) (ref : ExprId)
    (desc : Option ExprId) (type : Ty) (h : r.reached.get curr ≠ .none)
    (hcurr : curr < r.func.exprs.length)
    (hparent : ∀ p ∈ parent, p ≠ curr ∧ p < r.func.exprs.length) :
    s2l.visitRefCast r curr parent ref desc type =
      { (r.withFunc (s2l.refCastReplacement r curr ref desc type).1).replaceCurrent curr parent
          (s2l.refCastReplacement r curr ref desc type).2 with refinalize := true } := by
  simp only [visitRefCast, h, if_false]
  rcases desc with _ | d
  · simp only [refCastReplacement]
    split <;> rfl
  · simp only [refCastReplacement]
    split_ifs with h1 h2
    · obtain ⟨h₁, h₂, h₃⟩ := blockify_spec (Builder.makeDrop (Builder.makeLocalSet
        (Builder.addVar r.func (r.func.typeOf ref)).1 (Builder.addVar r.func (r.func.typeOf
          ref)).2 ref).1 d).1 (Builder.makeLocalSet (Builder.addVar r.func (r.func.typeOf
          ref)).1 (Builder.addVar r.func (r.func.typeOf ref)).2 ref).2 [(Builder.makeDrop
        (Builder.makeLocalSet
        (Builder.addVar r.func (r.func.typeOf ref)).1 (Builder.addVar r.func (r.func.typeOf
          ref)).2 ref).1 d).2, curr]
        (by simp [Builder.makeDrop, Builder.makeLocalSet, Builder.alloc])
      rw [replaceCurrent_keepCast r hcurr hparent ?_ ⟨?_, h₃⟩]
      · exact le_trans (by simp [Builder.makeDrop, Builder.makeLocalSet, Builder.alloc,
          Builder.addVar]) h₁
      · exact le_trans (by simp [Builder.makeLocalSet, Builder.alloc, Builder.addVar]) h₂
    · rfl
    · rfl

/-! ## Where the builders put each part -/

section layout

variable (r : Rewrite) (curr ref : ExprId) (type : Ty)

/-- A cast without a descriptor that the allocation's type fails: the reference dropped, then a
trap. -/
theorem refCastReplacement_layout_fails (h : Ty.isSubType s2l.types s2l.allocType type = false) :
    r.func.Extends (s2l.refCastReplacement r curr ref none type).1 ∧
    (s2l.refCastReplacement r curr ref none type).1.numLocals = r.func.numLocals ∧
    (s2l.refCastReplacement r curr ref none type).2 = r.func.exprs.length + 2 ∧
    (s2l.refCastReplacement r curr ref none type).1.exprs.map Expression.expr =
      r.func.exprs.map Expression.expr ++ [.drop ref, .unreachable,
        .block none [r.func.exprs.length, r.func.exprs.length + 1]] := by
  refine (fun (h : _ ∧ _) => ⟨extends_of_take h.1, h.2⟩) ?_
  simp [refCastReplacement, h, Builder.makeDrop, Builder.makeUnreachable,
    Builder.makeSequence, Builder.makeBlock, Builder.alloc, Function.numLocals]

/-- A descriptor cast that must fail: both operands dropped, then a trap. -/
theorem refCastReplacement_layout_unreachable (d : ExprId)
    (h₁ : (s2l.descType.isNone || r.reached.get d == .flows) = true)
    (h₂ : (r.reached.get d == .flows && !r.reached.get ref == .flows && type.isNullable) =
      false) :
    r.func.Extends (s2l.refCastReplacement r curr ref (some d) type).1 ∧
    (s2l.refCastReplacement r curr ref (some d) type).1.numLocals = r.func.numLocals ∧
    (s2l.refCastReplacement r curr ref (some d) type).2 = r.func.exprs.length + 3 ∧
    (s2l.refCastReplacement r curr ref (some d) type).1.exprs.map Expression.expr =
      r.func.exprs.map Expression.expr ++ [.drop ref, .drop d, .unreachable,
        .block none [r.func.exprs.length, r.func.exprs.length + 1, r.func.exprs.length + 2]] := by
  refine (fun (h : _ ∧ _) => ⟨extends_of_take h.1, h.2⟩) ?_
  simp [refCastReplacement, h₁, h₂, Builder.makeDrop, Builder.makeUnreachable,
    Builder.blockify, Builder.makeBlock, Builder.alloc, Function.expr?, Function.get,
    Function.numLocals, List.getElem_append_right]

/-- A descriptor cast of the allocation against another descriptor: the reference dropped, then
`ref.eq` of the descriptor with the descriptor's local choosing between a null and a trap. -/
theorem refCastReplacement_layout_compare (d : ExprId)
    (h : (s2l.descType.isNone || r.reached.get d == .flows) = false) :
    r.func.Extends (s2l.refCastReplacement r curr ref (some d) type).1 ∧
    (s2l.refCastReplacement r curr ref (some d) type).1.numLocals = r.func.numLocals ∧
    (s2l.refCastReplacement r curr ref (some d) type).2 = r.func.exprs.length + 6 ∧
    (s2l.refCastReplacement r curr ref (some d) type).1.exprs.map Expression.expr =
      r.func.exprs.map Expression.expr ++ [.drop ref,
        .localGet (s2l.localIndexes.getD s2l.fields.length 0),
        .refEq d (r.func.exprs.length + 1), .refNull, .unreachable,
        .iff (r.func.exprs.length + 2) (r.func.exprs.length + 3)
          (some (r.func.exprs.length + 4)),
        .block none [r.func.exprs.length, r.func.exprs.length + 5]] := by
  refine (fun (h : _ ∧ _) => ⟨extends_of_take h.1, h.2⟩) ?_
  simp [refCastReplacement, h, Builder.makeDrop, Builder.makeLocalGet, Builder.makeRefEq,
    Builder.makeRefNull, Builder.makeUnreachable, Builder.makeIf, Builder.blockify,
    Builder.makeBlock, Builder.alloc, Function.expr?, Function.get, Function.numLocals,
    List.getElem_append_right]

/-- A nullable descriptor cast by the allocation of a reference that is not the allocation:
the reference stored in a fresh scratch local `N`, the descriptor dropped, and the cast itself
kept, now of the scratch local to the bottom type. -/
theorem refCastReplacement_layout_keep (d : ExprId)
    (h : (r.reached.get d == .flows && !r.reached.get ref == .flows && type.isNullable) = true) :
    ∃ g : Function, r.func.Extends g ∧
      (s2l.refCastReplacement r curr ref (some d) type).1 =
        g.set curr ⟨.refCast (r.func.exprs.length + 3) none, .ref .none type.isNullable⟩ ∧
      g.numLocals = r.func.numLocals + 1 ∧
      (s2l.refCastReplacement r curr ref (some d) type).2 = r.func.exprs.length + 2 ∧
      g.exprs.map Expression.expr = r.func.exprs.map Expression.expr ++
        [.localSet r.func.numLocals ref false, .drop d,
          .block none [r.func.exprs.length, r.func.exprs.length + 1, curr],
          .localGet r.func.numLocals] := by
  have h₁ : (s2l.descType.isNone || r.reached.get d == .flows) = true := by
    simp only [Bool.and_eq_true] at h
    simp only [h.1.1, Bool.or_true]
  refine ⟨?g, extends_of_take ?_, ?eq, ?_, ?_, ?_⟩
  case eq =>
    simp only [refCastReplacement, h₁, h, if_true]
    refine congrArg (fun e : ExprId => Function.set _ curr ⟨.refCast e none, _⟩) ?_
    simp [Builder.addVar, Builder.makeLocalSet, Builder.makeDrop, Builder.blockify,
      Builder.makeBlock, Builder.makeLocalGet, Builder.alloc, Function.expr?, Function.get,
      List.getElem_append_right]
  all_goals simp [refCastReplacement, h₁, h, Builder.addVar, Builder.makeLocalSet,
    Builder.makeDrop, Builder.blockify, Builder.makeBlock, Builder.makeLocalGet, Builder.alloc,
    Function.expr?, Function.get, Function.numLocals, List.getElem_append_right, Nat.add_assoc]

end layout

/-! ## Running the replacements -/

variable (types : TypeSection) (env : CallEnv)

section run

variable {g : Function}

/-- Dropping operands, then the rest of a block: the operands as `seqEval` runs them. -/
theorem seqEval_drops {ds l : List ExprId}
    (hds : List.Forall₂ (fun d c => g.expr? d = some (.drop c)) ds l) (m : Nat)
    (rest : List ExprId) (s : State) :
    seqEval (eval types env g (m + 1)) (ds ++ rest) s =
      match seqEval (eval types env g m) l s with
      | (.ok _, s) =>
        match seqEval (eval types env g (m + 1)) rest s with
        | (.ok vs, s) => (.ok (ds.map (fun _ => none) ++ vs), s)
        | (.error fl, s) => (.error fl, s)
      | (.error fl, s) => (.error fl, s) := by
  induction hds generalizing s with
  | nil =>
    simp only [List.nil_append, seqEval, List.map_nil]
    rcases seqEval (eval types env g (m + 1)) rest s with ⟨_ | _, _⟩ <;> rfl
  | @cons d c ds l hd _ ih =>
    simp only [List.cons_append, seqEval, eval_drop types env hd]
    rcases eval types env g m c s with ⟨_ | _ | _ | _ | _, s1⟩ <;> simp only [andThen]
    rw [List.append_eq, ih]
    rcases seqEval (eval types env g m) l s1 with ⟨_ | _, s2⟩
    · rfl
    · simp only
      rcases seqEval (eval types env g (m + 1)) rest s2 with ⟨_ | _, _⟩ <;> rfl

/-- A block of drops ending in `unreachable`: the dropped operands as `seqEval` runs them, then a
trap. -/
theorem eval_dropsThenTrap {B u : ExprId} {ds l : List ExprId}
    (hB : g.expr? B = some (.block none (ds ++ [u])))
    (hds : List.Forall₂ (fun d c => g.expr? d = some (.drop c)) ds l)
    (hu : g.expr? u = some .unreachable) (m : Nat) (s : State) :
    eval types env g (m + 2) B s =
      match seqEval (eval types env g m) l s with
      | (.ok _, s) => (.trap, s)
      | (.error fl, s) => (fl, s) := by
  rw [eval_block_none types env hB, seqEval_drops types env hds]
  rcases seqEval (eval types env g m) l s with ⟨_ | _, s'⟩ <;>
    simp [seqEval, eval_of_expr? types env hu, evalStep]

/-- The descriptor compared with the descriptor's local: the reference dropped, then `ref.eq`
of the descriptor and the local choosing a null or a trap. -/
theorem eval_compareReplacement {B dr iff eq gt nl un ref d : ExprId} {k : Nat}
    (hB : g.expr? B = some (.block none [dr, iff])) (hdr : g.expr? dr = some (.drop ref))
    (hiff : g.expr? iff = some (.iff eq nl (some un))) (heq : g.expr? eq = some (.refEq d gt))
    (hgt : g.expr? gt = some (.localGet k)) (hnl : g.expr? nl = some .refNull)
    (hun : g.expr? un = some .unreachable) (m : Nat) (s : State)
    (href : (eval types env g (m + 1) ref s).1 ≠ .outOfFuel) :
    eval types env g (m + 4) B s =
      match seqEval (eval types env g (m + 1)) [ref, d] s with
      | (.ok [_, dv], s) => if dv = s.locals[k]? then (.normal (some .null), s) else (.trap, s)
      | (.ok _, s) => (.trap, s)
      | (.error fl, s) => (fl, s) := by
  rw [eval_block_none types env hB]
  simp only [seqEval, eval_drop types env hdr, eval_mono types env g (Nat.le_succ _) href]
  rcases eval types env g (m + 1) ref s with ⟨_ | _ | _ | _ | _, s1⟩ <;> simp only [andThen]
  simp only [eval_of_expr? types env hiff, eval_of_expr? types env heq, evalStep, seqEval,
    eval_localGet types env hgt]
  rcases eval types env g (m + 1) d s1 with ⟨_ | _ | _ | _ | _, s2⟩ <;>
    simp only [andThen, andThenAll]
  split_ifs <;> simp_all [eval_of_expr? types env hnl, eval_of_expr? types env hun, evalStep]

/-- The kept cast: the reference stored in the scratch local `N`, the descriptor dropped, then
the cast of the scratch local.  The scratch local aside, the block ends in the state the
operands leave. -/
theorem eval_keepReplacement {B st dr c gt ref d : ExprId} {N : Nat}
    (hB : g.expr? B = some (.block none [st, dr, c]))
    (hst : g.expr? st = some (.localSet N ref false)) (hdr : g.expr? dr = some (.drop d))
    (hc : g.expr? c = some (.refCast gt none)) (hgt : g.expr? gt = some (.localGet N))
    (m : Nat) (hd : ∀ s v, eval types env g (m + 2) d (s.setLocal N v) =
      ((eval types env g (m + 2) d s).1, (eval types env g (m + 2) d s).2.setLocal N v))
    (s : State) (href : (eval types env g (m + 2) ref s).1 ≠ .normal none)
    (hroom : N < s.locals.length) :
    (eval types env g (m + 4) B s).1 =
      (match seqEval (eval types env g (m + 2)) [ref, d] s with
       | (.ok (x :: _), s) => if castOk types s x (g.typeOf c) then .normal x else .trap
       | (.ok [], _) => .trap
       | (.error fl, _) => fl) ∧
    (eval types env g (m + 4) B s).2.takeLocals N =
      (seqEval (eval types env g (m + 2)) [ref, d] s).2.takeLocals N := by
  have hlen := eval_locals_length types env g (m + 2)
  rw [eval_block_none types env hB, seqEval_localSet types env hst]
  simp only [seqEval]
  rcases h1 : eval types env g (m + 2) ref s with ⟨_ | _ | _ | _ | _, s1⟩ <;>
    rw [h1] at href <;> simp only [and_self] at href ⊢
  rename_i x
  rcases x with _ | v
  · exact absurd rfl href
  have hlen1 : s1.locals.length = s.locals.length := by simpa [h1] using hlen ref s
  simp only [eval_drop types env hdr, hd]
  rcases h2 : eval types env g (m + 2) d s1 with ⟨_ | _ | _ | _ | _, s2⟩ <;>
    simp only [andThen, State.takeLocals_setLocal_of_le _ (le_refl N), and_self]
  have hlen2 : s2.locals.length = s1.locals.length := by simpa [h2] using hlen d s1
  simp only [eval_of_expr? types env hc, evalStep, seqEval, eval_localGet types env hgt,
    getElem?_locals_setLocal_self (by omega : N < s2.locals.length), andThenAll, Option.toList, castOk_setLocal]
  split_ifs <;> simp [State.takeLocals_setLocal_of_le _ (le_refl N)]

/-- Runs with more fuel agree with one that did not run out of fuel. -/
theorem seqEval_mono (f : Function) {n k : Nat} (hnk : n ≤ k) {l : List ExprId} {s : State}
    (h : (seqEval (eval types env f n) l s).1 ≠ .error .outOfFuel) :
    seqEval (eval types env f k) l s = seqEval (eval types env f n) l s :=
  seqEval_refines (fun _ _ hc => eval_mono types env f hnk hc) h

theorem ne_outOfFuel_of_seqEval {go : ExprId → State → Flow × State} {c : ExprId}
    {l : List ExprId} {s : State} (h : (seqEval go (c :: l) s).1 ≠ .error .outOfFuel) :
    (go c s).1 ≠ .outOfFuel := by
  intro hc
  apply h
  rcases hgo : go c s with ⟨fl, s'⟩
  rw [hgo] at hc
  simp only at hc
  simp only [seqEval, hgo, hc]

end run

/-! ## What the casts decide -/

/-- The allocation's exact, non-nullable type is a subtype of a type when its heap type is. -/
theorem isSubType_ref_defined (types : TypeSection) (i : Nat) (t : Ty) :
    Ty.isSubType types (.ref (.defined i) false) t =
      HeapType.isSubType types (.defined i) t.getHeapType := by
  cases t <;> simp [Ty.isSubType, Ty.getHeapType, HeapType.isSubType]
  rintro rfl -
  exact .inl rfl

/-- Only a null passes a cast to the bottom type, and only a nullable one. -/
theorem castOk_bottom (types : TypeSection) (s : State) (x : Option Literal) (b : Bool) :
    castOk types s x (.ref .none b) = (decide (x = some .null) && b) := by
  rcases x with _ | (_ | _ | _ | a) <;> simp [castOk, Ty.isNullable]
  split <;> simp [HeapType.isSubType, Ty.getHeapType]

/-! ## The replacement, once its operands have run -/

section replacement

variable (r : Rewrite) {curr ref : ExprId} (type : Ty)

/-- A cast without a descriptor: the reference itself where the allocation's type passes,
else the reference then a trap. -/
theorem refCastReplacement_eval_none (hf : r.func.ChildrenInRange)
    (hcurr : r.func.expr? curr = some (.refCast ref none)) (n : Nat) (s : State)
    (hrun : (seqEval (eval types env r.func n) [ref] s).1 ≠ .error .outOfFuel) :
    eval types env (s2l.refCastReplacement r curr ref none type).1 (n + 4)
        (s2l.refCastReplacement r curr ref none type).2 s =
      match seqEval (eval types env r.func n) [ref] s with
      | (.ok (x :: _), s) =>
        if Ty.isSubType s2l.types s2l.allocType type then (.normal x, s) else (.trap, s)
      | (.ok [], s) => (.trap, s)
      | (.error fl, s) => (fl, s) := by
  have hlt := children_lt_of_expr? hf hcurr
  cases hsub : Ty.isSubType s2l.types s2l.allocType type
  · obtain ⟨hext, -, hB, hmap⟩ := s2l.refCastReplacement_layout_fails r curr ref type hsub
    have hid := expr?_of_exprs_map hmap
    have hblock : _ = some (Expr.block none ([r.func.exprs.length] ++ [r.func.exprs.length + 1])) :=
      hid 2
    rw [hB, eval_dropsThenTrap types env hblock (.cons (by simpa using hid 0) .nil) (hid 1),
      seqEval_extend types env hf hext [ref] hlt, seqEval_mono types env r.func (by omega) hrun]
    rcases seqEval (eval types env r.func n) [ref] s with ⟨_ | _ | _, _⟩ <;> rfl
  · simp only [refCastReplacement, hsub, if_true]
    rw [eval_mono types env r.func (by omega) (ne_outOfFuel_of_seqEval hrun)]
    simp only [seqEval]
    rcases eval types env r.func n ref s with ⟨_ | _ | _ | _ | _, _⟩ <;> rfl

/-- A cast with a descriptor: each of the three blocks read off the run of the two operands.
The scratch local aside, the replacement ends in the state the operands leave. -/
theorem refCastReplacement_eval_some (hf : r.func.ChildrenInRange)
    (hfree : r.func.LocalFree r.func.numLocals) {d : ExprId}
    (hcurr : r.func.expr? curr = some (.refCast ref (some d)))
    (hrr : ¬ r.func.Reaches ref curr) (hrd : ¬ r.func.Reaches d curr) (n : Nat) (s : State)
    (href : (eval types env r.func n ref s).1 ≠ .normal none)
    (hroom : (s2l.refCastReplacement r curr ref (some d) type).1.numLocals ≤ s.locals.length)
    (hrun : (seqEval (eval types env r.func n) [ref, d] s).1 ≠ .error .outOfFuel) :
    (eval types env (s2l.refCastReplacement r curr ref (some d) type).1 (n + 4)
        (s2l.refCastReplacement r curr ref (some d) type).2 s).1 =
      (match seqEval (eval types env r.func n) [ref, d] s with
       | (.ok [x, dv], s) =>
         if (s2l.descType.isNone || r.reached.get d == .flows) = true then
           if (r.reached.get d == .flows && !r.reached.get ref == .flows && type.isNullable) = true
           then if x = some .null then .normal x else .trap
           else .trap
         else if dv = s.locals[s2l.localIndexes.getD s2l.fields.length 0]? then
           .normal (some .null) else .trap
       | (.ok _, _) => .trap
       | (.error fl, _) => fl) ∧
    (eval types env (s2l.refCastReplacement r curr ref (some d) type).1 (n + 4)
        (s2l.refCastReplacement r curr ref (some d) type).2 s).2.takeLocals r.func.numLocals =
      (seqEval (eval types env r.func n) [ref, d] s).2.takeLocals r.func.numLocals := by
  have hlt := children_lt_of_expr? hf hcurr
  have hlift : ∀ (g : Function) k, n ≤ k →
      (∀ c ∈ [ref, d], eval types env g k c = eval types env r.func k c) →
      seqEval (eval types env g k) [ref, d] s = seqEval (eval types env r.func n) [ref, d] s :=
    fun g k hk hg => (seqEval_congr hg s).trans (seqEval_mono types env r.func hk hrun)
  have hextends : ∀ g, r.func.Extends g → ∀ k, ∀ c ∈ [ref, d],
      eval types env g k c = eval types env r.func k c :=
    fun g ⟨_, hgx⟩ k c hc => funext fun s => eval_extend types env hf hgx k c s (hlt c hc)
  have hnf := ne_outOfFuel_of_seqEval hrun
  cases h₁ : (s2l.descType.isNone || r.reached.get d == .flows)
  case false =>
    obtain ⟨hext, -, hB, hmap⟩ := s2l.refCastReplacement_layout_compare r curr ref type d h₁
    have hid := expr?_of_exprs_map hmap
    have href' : (eval types env (s2l.refCastReplacement r curr ref (some d) type).1 (n + 1)
        ref s).1 ≠ .outOfFuel := by
      rw [congrFun (hextends _ hext (n + 1) ref (by simp)) s,
        eval_mono types env r.func (Nat.le_succ n) hnf]
      exact hnf
    rw [hB, eval_compareReplacement types env (hid 6) (by simpa using hid 0) (hid 5) (hid 2)
      (hid 1) (hid 3) (hid 4) n s href', hlift _ _ (Nat.le_succ n) (hextends _ hext _)]
    rcases hr : seqEval (eval types env r.func n) [ref, d] s with ⟨fl | vs, s'⟩
    · simp
    · obtain ⟨x, dv, rfl⟩ := List.length_eq_two.1 (seqEval_ok_length hr)
      simp only [Bool.false_eq_true, if_false]
      split_ifs <;> simp
  case true =>
  cases h₂ : (r.reached.get d == .flows && !r.reached.get ref == .flows && type.isNullable)
  case false =>
    obtain ⟨hext, -, hB, hmap⟩ :=
      s2l.refCastReplacement_layout_unreachable r curr ref type d h₁ h₂
    have hid := expr?_of_exprs_map hmap
    have hblock : _ = some (Expr.block none ([r.func.exprs.length, r.func.exprs.length + 1] ++
        [r.func.exprs.length + 2])) := hid 3
    rw [hB, eval_dropsThenTrap types env hblock
      (.cons (by simpa using hid 0) (.cons (hid 1) .nil)) (hid 2),
      hlift _ _ (by omega) (hextends _ hext _)]
    rcases hr : seqEval (eval types env r.func n) [ref, d] s with ⟨fl | vs, s'⟩
    · simp
    · obtain ⟨x, dv, rfl⟩ := List.length_eq_two.1 (seqEval_ok_length hr)
      simp
  case true =>
  obtain ⟨g, hext, hg, hnum, hB, hmap⟩ := s2l.refCastReplacement_layout_keep r curr ref type d h₂
  have hcurrL := lt_of_expr? hcurr
  have hcurrg : curr < g.exprs.length := by
    obtain ⟨extra, hgx⟩ := hext
    exact lt_of_lt_of_le hcurrL (by simp [hgx])
  have hid := expr?_of_exprs_map hmap
  have hid' : ∀ k, (g.set curr ⟨.refCast (r.func.exprs.length + 3) none,
      .ref .none type.isNullable⟩).expr? (r.func.exprs.length + k) =
      g.expr? (r.func.exprs.length + k) := fun k => by
    simp only [Function.expr?,
      get_set_ne g (Nat.ne_of_gt (lt_of_lt_of_le hcurrL (Nat.le_add_right _ k)))]
  have hreach : ∀ c ∈ [ref, d], ¬ g.Reaches c curr := by
    intro c hc h
    simp only [List.mem_cons, List.mem_singleton, List.not_mem_nil, or_false] at hc
    rcases hc with rfl | rfl
    · exact hrr (h.of_extends hf hext (hlt _ (List.mem_cons_self _ _)))
    · exact hrd (h.of_extends hf hext (hlt _ (by simp [Expr.children])))
  have hsame : ∀ k, ∀ c ∈ [ref, d], eval types env (g.set curr ⟨.refCast
      (r.func.exprs.length + 3) none, .ref .none type.isNullable⟩) k c =
      eval types env r.func k c := fun k c hc => funext fun s => by
    rw [eval_set_of_not_reaches types env _ k c s (hreach c hc)]
    exact congrFun (hextends g hext k c hc) s
  have hnull : type.isNullable = true := by simp only [Bool.and_eq_true] at h₂; exact h₂.2
  have h0 : (g.set curr ⟨.refCast (r.func.exprs.length + 3) none,
      .ref .none type.isNullable⟩).expr? r.func.exprs.length =
      some (.localSet r.func.numLocals ref false) := (hid' 0).trans (by simpa using hid 0)
  obtain ⟨hout, hlocals⟩ := eval_keepReplacement types env
    ((hid' 2).trans (hid 2)) h0 ((hid' 1).trans (hid 1))
    (by simp [Function.expr?, get_set_self g hcurrg]) ((hid' 3).trans (hid 3)) n
    (fun s v => by
      rw [congrFun (hsame _ d (by simp)) _, congrFun (hsame _ d (by simp)) _,
        eval_setLocal types env hfree]) s
    (by rw [congrFun (hsame _ ref (by simp)) s,
          eval_mono types env r.func (by omega) hnf]; exact href)
    (by rw [hg] at hroom; simp only [Function.numLocals, Function.set] at hroom hnum ⊢; omega)
  rw [hg, hB, hout, hlocals, hlift _ _ (by omega) (hsame _)]
  rcases hr : seqEval (eval types env r.func n) [ref, d] s with ⟨fl | vs, s'⟩
  · simp
  · obtain ⟨x, dv, rfl⟩ := List.length_eq_two.1 (seqEval_ok_length hr)
    simp [Function.typeOf, get_set_self g hcurrg, castOk_bottom, hnull]

end replacement

/-! ## The replacement matches the cast -/

/-- **The cast of a non-escaping allocation.**  Given a run of the cast's operands in the
original function `f₀` and one in the function being rewritten, ending alike, the cast and the
block `visitRefCast` builds trap together, or both complete: the cast with its reference (the
allocation, or a null a nullable cast lets through) and the block with that reference where
there is no descriptor, and with a null otherwise.  Where the allocation is the descriptor, the
object the reference holds in the run does not have it as its descriptor: the allocation does
not escape into another object.  Outside the scratch local, the block ends in the state the
operands leave. -/
theorem refCastReplacement_matches_cast (s2l : Struct2Local) (r : Rewrite) {f₀ : Function}
    (hf : r.func.ChildrenInRange) (hfree : r.func.LocalFree r.func.numLocals)
    (htypes : s2l.types = types) {i : Nat} (halloc : s2l.allocType = .ref (.defined i) false)
    {curr₀ curr ref₀ ref : ExprId} {type : Ty} (hty₀ : f₀.typeOf curr₀ = type) (m n : Nat)
    (so sn : State) (a : Nat) :
    (f₀.expr? curr₀ = some (.refCast ref₀ none) → r.func.expr? curr = some (.refCast ref none) →
      (∀ fl so' sn', fl ≠ .outOfFuel →
        seqEval (eval types env f₀ m) [ref₀] so = (.error fl, so') →
        seqEval (eval types env r.func n) [ref] sn = (.error fl, sn') →
        eval types env f₀ (m + 1) curr₀ so = (fl, so') ∧
        eval types env (s2l.refCastReplacement r curr ref none type).1 (n + 4)
          (s2l.refCastReplacement r curr ref none type).2 sn = (fl, sn')) ∧
      (∀ x so' sn' o, seqEval (eval types env f₀ m) [ref₀] so = (.ok [some (.ref a)], so') →
        seqEval (eval types env r.func n) [ref] sn = (.ok [x], sn') →
        so'.heap[a]? = some o → o.type = i →
        (eval types env f₀ (m + 1) curr₀ so = (.trap, so') ∧
          eval types env (s2l.refCastReplacement r curr ref none type).1 (n + 4)
            (s2l.refCastReplacement r curr ref none type).2 sn = (.trap, sn') ∨
        eval types env f₀ (m + 1) curr₀ so = (.normal (some (.ref a)), so') ∧
          eval types env (s2l.refCastReplacement r curr ref none type).1 (n + 4)
            (s2l.refCastReplacement r curr ref none type).2 sn = (.normal x, sn')))) ∧
    (∀ d₀ d, f₀.expr? curr₀ = some (.refCast ref₀ (some d₀)) →
      r.func.expr? curr = some (.refCast ref (some d)) →
      ¬ r.func.Reaches ref curr → ¬ r.func.Reaches d curr →
      YieldsValues (eval types env r.func n) [ref, d] sn →
      (s2l.refCastReplacement r curr ref (some d) type).1.numLocals ≤ sn.locals.length →
      (∀ fl so' sn', fl ≠ .outOfFuel →
        seqEval (eval types env f₀ m) [ref₀, d₀] so = (.error fl, so') →
        seqEval (eval types env r.func n) [ref, d] sn = (.error fl, sn') →
        eval types env f₀ (m + 1) curr₀ so = (fl, so') ∧
        (eval types env (s2l.refCastReplacement r curr ref (some d) type).1 (n + 4)
          (s2l.refCastReplacement r curr ref (some d) type).2 sn).1 = fl ∧
        (eval types env (s2l.refCastReplacement r curr ref (some d) type).1 (n + 4)
          (s2l.refCastReplacement r curr ref (some d) type).2 sn).2.takeLocals
            r.func.numLocals = sn'.takeLocals r.func.numLocals) ∧
      (∀ x₀ dv₀ x dv so' sn' o,
        seqEval (eval types env f₀ m) [ref₀, d₀] so = (.ok [x₀, dv₀], so') →
        seqEval (eval types env r.func n) [ref, d] sn = (.ok [x, dv], sn') →
        (r.reached.get ref = .flows → x₀ = some (.ref a)) →
        (r.reached.get ref ≠ .flows → x₀ = x) →
        (r.reached.get d = .flows → dv₀ = some (.ref a)) →
        (r.reached.get d ≠ .flows → dv₀ = dv) →
        (r.reached.get ref = .flows ∨ r.reached.get d = .flows) →
        so'.heap[a]? = some o → (so'.getObj x₀).bind HeapObject.desc ≠ some (.ref a) →
        (s2l.descType = none → o.desc = none) →
        (s2l.descType ≠ none → ∃ dd, o.desc = some dd ∧ dd ≠ .null ∧
          sn'.locals[s2l.localIndexes.getD s2l.fields.length 0]? = some dd) →
        ((eval types env f₀ (m + 1) curr₀ so).1 = .trap ∧
          (eval types env (s2l.refCastReplacement r curr ref (some d) type).1 (n + 4)
            (s2l.refCastReplacement r curr ref (some d) type).2 sn).1 = .trap ∨
        (eval types env f₀ (m + 1) curr₀ so).1 = .normal x₀ ∧
          (eval types env (s2l.refCastReplacement r curr ref (some d) type).1 (n + 4)
            (s2l.refCastReplacement r curr ref (some d) type).2 sn).1 = .normal (some .null)) ∧
        (eval types env f₀ (m + 1) curr₀ so).2 = so' ∧
        (eval types env (s2l.refCastReplacement r curr ref (some d) type).1 (n + 4)
          (s2l.refCastReplacement r curr ref (some d) type).2 sn).2.takeLocals
            r.func.numLocals = sn'.takeLocals r.func.numLocals)) := by
  refine ⟨fun h₀ h => ⟨fun fl so' sn' hfl hrun₀ hrun => ?_, fun x so' sn' o hrun₀ hrun ho hoty => ?_⟩,
    fun d₀ d h₀ h hrr hrd hv hroom => ⟨fun fl so' sn' hfl hrun₀ hrun => ?_,
      fun x₀ dv₀ x dv so' sn' o hrun₀ hrun hxR hx hdvD hdv hor ho hno hdn hds => ?_⟩⟩
  · rw [eval_of_expr? types env h₀, s2l.refCastReplacement_eval_none types env r type hf h n sn
      (by rw [hrun]; simpa using hfl), hrun]
    simp [evalStep, hrun₀, andThenAll]
  · rw [eval_of_expr? types env h₀, s2l.refCastReplacement_eval_none types env r type hf h n sn
      (by rw [hrun]; simp), hrun]
    simp only [evalStep, hrun₀, andThenAll, Option.toList, castOk, ho, hoty, hty₀, htypes,
      halloc, isSubType_ref_defined]
    cases HeapType.isSubType types (.defined i) type.getHeapType <;> simp
  · obtain ⟨h1, h2⟩ := s2l.refCastReplacement_eval_some types env r type hf hfree h hrr hrd n sn
      (fun h => hv.head (Prod.ext h rfl)) hroom (by rw [hrun]; simpa using hfl)
    rw [hrun] at h1 h2
    exact ⟨by simp [eval_of_expr? types env h₀, evalStep, hrun₀, andThenAll], h1, h2⟩
  · obtain ⟨h1, h2⟩ := s2l.refCastReplacement_eval_some types env r type hf hfree h hrr hrd n sn
      (fun h => hv.head (Prod.ext h rfl)) hroom (by rw [hrun]; simp)
    rw [hrun] at h1 h2
    obtain ⟨s1, hr1, hdv1⟩ := seqEval_pair_eq_ok hrun
    have hdvn : dv ≠ none := fun h' => (hv.tail hr1).head (by rw [← h']; exact hdv1)
    rw [eval_of_expr? types env h₀]
    simp only [evalStep, hrun₀, andThenAll, Option.toList, hty₀, h1, h2, and_true]
    by_cases hR : r.reached.get ref = .flows
    · obtain rfl := hxR hR
      have hobj : so'.getObj (some (.ref a)) = some o := ho
      by_cases hD : r.reached.get d = .flows
      · obtain rfl := hdvD hD
        have hoa : o.desc ≠ some (.ref a) := by simpa [hobj] using hno
        simp [hR, hD, hobj, hoa]
      · obtain rfl := hdv hD
        cases hdt : s2l.descType
        · simp [hR, hD, hdt, hobj, hdn hdt, Ne.symm hdvn]
        · obtain ⟨dd, hdd, hddn, hloc⟩ := hds (by simp [hdt])
          rw [hloc]
          by_cases hdd' : dv₀ = some dd
          · simp [hR, hD, hdt, hobj, hdd, hdd', hddn]
          · simp [hR, hD, hdt, hobj, hdd, hdd', Ne.symm hdd']
    · have hD := hor.resolve_left hR
      obtain rfl := hdvD hD
      obtain rfl := hx hR
      by_cases hxn : x₀ = some .null <;> cases type.isNullable <;>
        simp [hR, hD, hxn, hno]

/-! ## A null through a descriptor cast -/

/-- An expression without children reaches only itself. -/
theorem not_reaches_of_children_nil {f : Function} {a b : ExprId} (hab : a ≠ b)
    (h : ∀ e, f.get a = some e → e.expr.children = []) : ¬ f.Reaches a b := by
  intro hr
  cases hr with
  | refl => exact hab rfl
  | child hget hc _ => simp [h _ hget] at hc

/-- `$Point`, described by `$Point.desc`. -/
def describedTypes : TypeSection := [.struct [] none (some 1), .struct [] none none]

/-- The analysis of the allocation of a `$Point.desc` at 1. -/
def descStruct2Local : Struct2Local := ⟨describedTypes, 1, .ref (.defined 1) false, [], none, []⟩

/-- `(ref.cast_desc (ref null $Point) (ref.null none) (struct.new $Point.desc))`: the allocation
is only the cast's descriptor. -/
def nullCastOfDesc : Function :=
  ⟨[], [], [⟨.refNull, .ref .none true⟩, ⟨.structNew [] none, .ref (.defined 1) false⟩,
    ⟨.refCast 0 (some 1), .ref (.defined 0) true⟩], 2⟩

/-- The same cast once the allocation is the null that stands for it, flowing into the cast. -/
def nullCastOfDescRewrite : Rewrite :=
  ⟨⟨[], [], [⟨.refNull, .ref .none true⟩, ⟨.refNull, .ref .none true⟩,
    ⟨.refCast 0 (some 1), .ref (.defined 0) true⟩], 2⟩, [(1, .flows), (2, .flows)], false⟩

/-- A null passes the nullable cast whose descriptor is the allocation, and the kept cast to the
bottom type lets it through. -/
theorem refCastReplacement_matches_cast_nullDesc :
    (eval describedTypes (fun _ _ => none) nullCastOfDesc 2 2 ⟨[], [], [], []⟩).1 =
      .normal (some .null) ∧
    (eval describedTypes (fun _ _ => none) (descStruct2Local.refCastReplacement
        nullCastOfDescRewrite 2 0 (some 1) (.ref (.defined 0) true)).1 5
      (descStruct2Local.refCastReplacement nullCastOfDescRewrite 2 0 (some 1)
        (.ref (.defined 0) true)).2 ⟨[.null], [], [], []⟩).1 = .normal (some .null) := by
  have H := (@refCastReplacement_matches_cast describedTypes (fun _ _ => none) descStruct2Local
    nullCastOfDescRewrite nullCastOfDesc (Function.childrenInRange_iff.2 (by decide))
    (Function.localFree_iff.2 (by decide)) rfl 1 rfl 2 2 0 0 (.ref (.defined 0) true) rfl 1 1
    ⟨[], [], [], []⟩ ⟨[.null], [], [], []⟩ 0).2 1 1 rfl rfl
    (not_reaches_of_children_nil (by decide) fun _ h => by cases h; rfl)
    (not_reaches_of_children_nil (by decide) fun _ h => by cases h; rfl)
    (@YieldsValues.of_seqEval _ _ _ [some .null, some .null] rfl (by decide))
    (by decide)
  have hok := H.2 (some .null) (some (.ref 0)) (some .null) (some .null)
    ⟨[], [], [⟨1, [], none⟩], []⟩ ⟨[.null], [], [], []⟩ ⟨1, [], none⟩ rfl rfl
    (fun h => absurd h (by decide)) (fun _ => rfl) (fun _ => rfl) (fun h => absurd rfl h)
    (.inr rfl) rfl (by simp [State.getObj]) (fun _ => rfl) (fun h => absurd rfl h)
  exact hok.1.resolve_left fun h => absurd h.1 (by decide)

end Struct2Local

end BinaryenPasses.Heap2Local
