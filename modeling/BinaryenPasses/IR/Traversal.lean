import BinaryenPasses.IR.Expression

/-!
# Walking a function: post-order, parents, branch targets, fallthrough

The collaborators `Heap2Local` consumes: the post-order in which `PostWalker` visits a body,
`Parents` (the parent of every expression, built once from the body), `BranchTargets` (the
expression each label names and the branches that use it), the names and sent values
`operateOnScopeNameUsesAndSentValues` enumerates, and `Properties::getImmediateFallthrough`.

A body is a tree, so its depth is below the arena's size; the traversal is bounded by that size
and is structural.
-/

namespace BinaryenPasses.IR

/-- The expressions of the tree under `id`, children before parents, each with its parent. -/
def postOrderFrom (f : Function) : Nat → ExprId → Option ExprId → List (ExprId × Option ExprId)
  | 0, _, _ => []
  | fuel + 1, id, parent =>
    match f.expr? id with
    | none => []
    | some e => (e.children.map fun c => postOrderFrom f fuel c (some id)).flatten ++ [(id, parent)]

/-- The order in which `PostWalker` visits a function's body, with the slot owner of each
expression (`none` for the body itself). -/
def postOrder (f : Function) : List (ExprId × Option ExprId) :=
  postOrderFrom f f.exprs.length f.body none

/-- `Walker::replaceCurrent`: the slot that held `curr` (a child slot of `parent`, or the body
when there is no parent) now holds `rep`. -/
def Function.replaceSlot (f : Function) (parent : Option ExprId) (curr rep : ExprId) : Function :=
  match parent with
  | none => { f with body := rep }
  | some p =>
    match f.get p with
    | some e => f.set p { e with expr := e.expr.replaceChild curr rep }
    | none => f

/-- `PostWalker::walk` of a function's body with a visitor that threads a state: every
expression of the body as it stands when the walk starts, children first, is visited with the
expression whose slot holds it.  A visitor only replaces the current expression or edits it, so
the expressions still to be visited are those the walk started with, and a replacement is never
walked into. -/
def walkBody {σ : Type} (visit : σ → ExprId → Option ExprId → σ) (f : Function) (st : σ) : σ :=
  (postOrder f).foldl (fun st q => visit st q.1 q.2) st

/-! ## Parents -/

/-- `Parents`, built once from a body: each expression with its parent. -/
structure Parents where
  map : List (ExprId × Option ExprId)
  deriving DecidableEq, Repr

def Parents.build (f : Function) : Parents := ⟨postOrder f⟩

/-- `Parents::getParent`: the parent, or `none` for the body (and for an unknown expression). -/
def Parents.getParent (p : Parents) (id : ExprId) : Option ExprId :=
  (p.map.find? (fun q => q.1 = id)).bind Prod.snd

/-! ## Branches -/

/-- `BranchUtils::getDefinedName`: the label a block or loop defines. -/
def Expr.getDefinedName : Expr → Option Name
  | .block n _ => n
  | .loop n _ => n
  | _ => none

/-- `BranchUtils::operateOnScopeNameUsesAndSentValues`: every label a branch uses, with the
value it sends there. -/
def Expr.scopeNameUsesAndSentValues : Expr → List (Name × Option ExprId)
  | .br n v _ => [(n, v)]
  | .switch ts d v _ => (ts ++ [d]).map fun n => (n, v)
  | _ => []

/-- `BranchUtils::getSentValue`. -/
def Expr.getSentValue : Expr → Option ExprId
  | .br _ v _ => v
  | .switch _ _ v _ => v
  | _ => none

/-- `BranchUtils::BranchTargets`, built once from a body: the expressions it contains. -/
structure BranchTargets where
  nodes : List (ExprId × Expr)
  deriving DecidableEq, Repr

def BranchTargets.build (f : Function) : BranchTargets :=
  ⟨(postOrder f).filterMap fun q => (f.expr? q.1).map fun e => (q.1, e)⟩

/-- `BranchTargets::getTarget`: the expression defining a label. -/
def BranchTargets.getTarget (bt : BranchTargets) (n : Name) : Option ExprId :=
  (bt.nodes.find? fun q => q.2.getDefinedName = some n).map Prod.fst

/-- `BranchTargets::getBranches`: the branches that use a label. -/
def BranchTargets.getBranches (bt : BranchTargets) (n : Name) : List ExprId :=
  (bt.nodes.filter fun q => q.2.scopeNameUsesAndSentValues.any fun u => u.1 = n).map Prod.fst

/-! ## Fallthrough -/

/-- Modelled from the spec: `Properties::getImmediateFallthrough` (`ir/properties.h`) is not in
the source.  The child whose value is the value of `curr` when control falls through it: the
value of a tee, the last element of an unnamed block, a loop's body, the arm of an `if` whose
other arm is unreachable, the value of a `br_if`, the reference of a cast, the value of a
`ref.as_non_null`; `curr` itself otherwise, and always for unreachable code. -/
def getImmediateFallthrough (f : Function) (curr : ExprId) : ExprId :=
  match f.get curr with
  | none => curr
  | some ⟨e, t⟩ =>
    if t = .unreachable then curr else
    match e with
    | .localSet _ v true => v
    | .block none list => list.getLast?.getD curr
    | .loop _ body => body
    | .iff _ a (some b) =>
      if f.typeOf a = .unreachable then b else if f.typeOf b = .unreachable then a else curr
    | .br _ (some v) (some _) => v
    | .refCast r _ => r
    | .refAs .nonNull v => v
    | _ => curr

end BinaryenPasses.IR
