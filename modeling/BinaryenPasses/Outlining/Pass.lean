import BinaryenPasses.Outlining.Reconstruct

/-!
# `Outlining::run` on straight-line functions

The pass over a whole module: it stringifies the module (`HashStringifyWalker`), keeps the
repeated substrings that the three content filters let through, adds one callee per substring
(`addOutlinedFunction`, `makeSequences`), rebuilds every function holding an occurrence with the
reconstructor of `BinaryenPasses.Outlining.Reconstruct` (`outline`), and moves the callees to the
front of the module (`moveOutlinedFunctions`).

The functions here are straight-line: a body is a list of stack instructions with no scopes, so
the walk of a function is its start, its instructions and the end of its scope.  The suffix tree
(`repeatSubstrings`, `dedupe`, `filterOverlaps`) is not in the source; its output is the
parameter `substrings` of `run`.  The stringifier, the content filters, `StackSignature`,
`Names::getValidFunctionName` and `IRBuilder` are not in the source either, and are modelled
from the spec, each at its definition.  The instructions run on a stack machine with calls and
`return_call`, so that a function can be run before and after the pass.

* **`outlining_returnCall_traps`** — the content filters let a `return_call` through, and two
  functions ending with `i32.const 1; drop; return_call $f` return before the pass and trap
  after it: the tail call now leaves the callee, and control comes back to the `unreachable`
  after the call.
-/

namespace BinaryenPasses.Outlining

open Reconstruct

/-! ## Straight-line functions and their execution -/

/-- The instructions of a straight-line body. -/
inductive Instr
  /-- `i32.const` -/
  | const (value : Int)
  /-- `drop` -/
  | drop
  /-- `call`, or `return_call` when `isReturn` -/
  | call (target : Name) (isReturn : Bool)
  /-- `unreachable` -/
  | unreachable
  /-- `local.get` -/
  | localGet (index : Nat)
  /-- `local.set` -/
  | localSet (index : Nat)
  /-- `return` of the values on the stack -/
  | ret
  deriving DecidableEq, Repr

/-- The unreachable-typed instructions: those after which the stack is never used. -/
def Instr.isUnreachableTyped : Instr → Bool
  | .unreachable | .ret => true
  | .call _ isReturn => isReturn
  | _ => false

/-- A function: its name, its numbers of parameters, results and declared locals, and its body
(`none` for a function with no body yet, as `addOutlinedFunction` creates it). -/
structure Func where
  name : Name
  params : Nat
  results : Nat
  vars : Nat
  body : Option (List Instr)
  deriving DecidableEq, Repr

/-- A module is its list of functions; the name map is the lookup by name. -/
abbrev Module := List Func

namespace Module

/-- `Module::getFunction`. -/
def getFunction? (m : Module) (name : Name) : Option Func := m.find? (·.name == name)

/-- Whether a function of that name exists. -/
def hasFunction (m : Module) (name : Name) : Bool := m.any (·.name == name)

/-- Whether the function has a body. -/
def hasBody (m : Module) (name : Name) : Bool := ((m.getFunction? name).bind Func.body).isSome

/-- The function's number of parameters. -/
def numParams (m : Module) (name : Name) : Nat := ((m.getFunction? name).map Func.params).getD 0

/-- Install a body. -/
def setBody (m : Module) (name : Name) (body : List Instr) : Module :=
  m.map fun fn => if fn.name = name then { fn with body := some body } else fn

end Module

/-- What running a body gives: the values on the stack at its end or at a `return` (top first),
a trap, or nothing within the fuel. -/
inductive Outcome
  | values (stack : List Int)
  | trap
  | outOfFuel
  deriving DecidableEq, Repr

/-- The stack machine: `exec m fuel body locals stack`, the top of the stack first.  A call pops
the callee's arguments, runs its body on them and its zeroed locals, and pushes what it returns;
a `return_call` returns what the callee returns, and the rest of the body is not run. -/
def exec (m : Module) : Nat → List Instr → List Int → List Int → Outcome
  | 0, _, _, _ => .outOfFuel
  | _ + 1, [], _, stack => .values stack
  | fuel + 1, i :: rest, locals, stack =>
    match i, stack with
    | .const v, _ => exec m fuel rest locals (v :: stack)
    | .drop, _ :: stack => exec m fuel rest locals stack
    | .localGet j, _ =>
      match locals[j]? with
      | some v => exec m fuel rest locals (v :: stack)
      | none => .trap
    | .localSet j, v :: stack => exec m fuel rest (locals.set j v) stack
    | .call target isReturn, _ =>
      match m.getFunction? target with
      | some ⟨_, params, _, vars, some body⟩ =>
        match exec m fuel body ((stack.take params).reverse ++ List.replicate vars 0) [] with
        | .values results =>
          if isReturn then .values results else exec m fuel rest locals (results ++ stack.drop params)
        | r => r
      | _ => .trap
    | .ret, _ => .values stack
    | _, _ => .trap

/-- Call a function of the module on its arguments. -/
def Module.invoke (m : Module) (fuel : Nat) (name : Name) (args : List Int) : Outcome :=
  match m.getFunction? name with
  | some ⟨_, _, _, vars, some body⟩ => exec m fuel body (args ++ List.replicate vars 0) []
  | _ => .trap

/-! ## Stringifying the module -/

/-- Modelled from the spec: `HashStringifyWalker` (`passes/stringify-walker.h`) is not in the
source.  For each function with a body, in module order: its start symbol, its instructions and
the end of its scope.  `exprs` holds the instruction at each position (`none` at a separator),
`relative` the position counted from the function's start and the owning function
(`makeRelative`).  The hashes only feed the suffix tree, which is a parameter here. -/
structure Stringified where
  exprs : List (Option Instr)
  relative : List (Nat × Name)

/-- The positions of one function. -/
def stringifyFunction (fn : Func) : Stringified :=
  match fn.body with
  | some body =>
    let exprs := none :: body.map some ++ [none]
    ⟨exprs, (List.range exprs.length).map (·, fn.name)⟩
  | none => ⟨[], []⟩

/-- The stringified module. -/
def hashStringify (m : Module) : Stringified :=
  m.foldl (fun s fn =>
    ⟨s.exprs ++ (stringifyFunction fn).exprs, s.relative ++ (stringifyFunction fn).relative⟩)
    ⟨[], []⟩

namespace Stringified

/-- `exprs[idx]`. -/
def exprAt (s : Stringified) (idx : Nat) : Option Instr := s.exprs[idx]?.join

/-- `makeRelative`: the position counted from the owning function's start, and that function. -/
def makeRelative (s : Stringified) (idx : Nat) : Nat × Name := s.relative[idx]?.getD (0, "")

/-- The positions `[start, start + length)`. -/
def occurrence (s : Stringified) (start length : Nat) : List (Option Instr) :=
  (s.exprs.drop start).take length

end Stringified

/-- `SuffixTree::RepeatedSubstring`: a length and the positions where the substring starts. -/
structure RepeatedSubstring where
  length : Nat
  startIndices : List Nat
  deriving DecidableEq, Repr

/-! ## The content filters -/

/-- Modelled from the spec: `StringifyProcessor::filter` (`passes/stringify-walker.h`) is not
in the source.  It keeps the substrings none of whose instructions, read at the first
occurrence, satisfies `condition`. -/
def filter (condition : Instr → Bool) (substrings : List RepeatedSubstring)
    (s : Stringified) : List RepeatedSubstring :=
  substrings.filter fun sub =>
    (s.occurrence (sub.startIndices.headD 0) sub.length).all fun e => !e.any condition

/-- A branch, a `return` or a `try_table`; a straight-line body holds only `return`. -/
def Instr.isBranchOrReturn : Instr → Bool
  | .ret => true
  | _ => false

/-- Modelled from the spec: `StringifyProcessor::filterBranches`. -/
def filterBranches (substrings : List RepeatedSubstring) (s : Stringified) :
    List RepeatedSubstring :=
  filter Instr.isBranchOrReturn substrings s

/-- Modelled from the spec: `StringifyProcessor::filterLocalSets`. -/
def filterLocalSets (substrings : List RepeatedSubstring) (s : Stringified) :
    List RepeatedSubstring :=
  filter (fun i => i matches .localSet _) substrings s

/-- Modelled from the spec: `StringifyProcessor::filterLocalGets`. -/
def filterLocalGets (substrings : List RepeatedSubstring) (s : Stringified) :
    List RepeatedSubstring :=
  filter (fun i => i matches .localGet _) substrings s

/-! ## The callees and the sequences -/

/-- Modelled from the spec: `Names::getValidFunctionName` (`ir/names.h`) is not in the source.
The root if no function has it, else the root with the first free suffix `_0`, `_1`, ... -/
def getValidFunctionName (m : Module) (root : Name) : Name :=
  if !m.hasFunction root then root else
  let candidates := (List.range (m.length + 1)).map fun i => root ++ "_" ++ toString i
  (candidates.find? (!m.hasFunction ·)).getD root

/-- Modelled from the spec: `StackSignature` (`ir/stack-utils.h`) is not in the source.  The
numbers of values a straight-line sequence takes and leaves, and whether it is polymorphic
(ends unreachable-typed, the stack after it then being anything). -/
structure StackSignature where
  params : Nat
  results : Nat
  polymorphic : Bool
  deriving DecidableEq, Repr

/-- Modelled from the spec: `StackSignature::operator+=`.  The next signature's parameters are
taken from the results; the ones missing are added to the parameters unless the sequence is
already polymorphic. -/
def StackSignature.compose (sig next : StackSignature) : StackSignature :=
  let params :=
    if next.params ≤ sig.results ∨ sig.polymorphic then sig.params
    else sig.params + (next.params - sig.results)
  if next.polymorphic then ⟨params, next.results, true⟩
  else ⟨params, sig.results - next.params + next.results, sig.polymorphic⟩

/-- Modelled from the spec: `StackSignature(expr)`: the operands an instruction pops, and its
result, none and polymorphic when it is unreachable-typed. -/
def Instr.stackSignature (m : Module) : Instr → StackSignature
  | .const _ | .localGet _ => ⟨0, 1, false⟩
  | .drop | .localSet _ => ⟨1, 0, false⟩
  | .unreachable | .ret => ⟨0, 0, true⟩
  | .call target isReturn =>
    let fn := m.getFunction? target
    let params := (fn.map Func.params).getD 0
    if isReturn then ⟨params, 0, true⟩ else ⟨params, (fn.map Func.results).getD 0, false⟩

/-- `addOutlinedFunction`: a function with a free name, the stack signature of the first
occurrence, and no body (a separator, which a repeated substring never holds, counts as no
instruction). -/
def addOutlinedFunction (m : Module) (substring : RepeatedSubstring) (stringify : Stringified) :
    Module × Name :=
  let startIdx := substring.startIndices.headD 0
  let func := getValidFunctionName m "outline$"
  let sig := (stringify.occurrence startIdx substring.length).foldl
    (fun (sig : StackSignature) e => sig.compose ((e.map (Instr.stackSignature m)).getD ⟨0, 0, false⟩)) ⟨0, 0, false⟩
  (m ++ [⟨func, sig.params, sig.results, 0, none⟩], func)

/-- `makeSequences`'s map from an existing function to its sequences.  The source's
`unordered_map` is a list here, its keys in the order they are first inserted. -/
abbrev Sequences := List (Name × List OutliningSequence)

/-- `seqByFunc[existingFunc].push_back(seq)`. -/
def Sequences.push (seqByFunc : Sequences) (func : Name) (seq : OutliningSequence) : Sequences :=
  if seqByFunc.any (·.1 == func) then
    seqByFunc.map fun p => if p.1 = func then (p.1, p.2 ++ [seq]) else p
  else seqByFunc ++ [(func, [seq])]

/-- `makeSequences`: one callee per substring, and for each occurrence a sequence of its
function, relative to the function's start. -/
def makeSequences (m : Module) (substrings : List RepeatedSubstring) (stringify : Stringified) :
    Module × Sequences :=
  substrings.foldl (fun (m, seqByFunc) substring =>
    let (m, func) := addOutlinedFunction m substring stringify
    (m, substring.startIndices.foldl (fun seqByFunc seqIdx =>
      let (relativeIdx, existingFunc) := stringify.makeRelative seqIdx
      seqByFunc.push existingFunc ⟨relativeIdx, relativeIdx + substring.length, func,
        (stringify.exprAt (seqIdx + substring.length - 1)).any Instr.isUnreachableTyped⟩)
      seqByFunc))
    (m, [])

/-! ## Rebuilding the functions -/

/-- Modelled from the spec: `IRBuilder` (`wasm/wasm-ir-builder.h`) is not in the source.  On a
straight-line body, the instructions a builder receives after a function start are that
function's new body, in order; the other calls (`build`, the end of the function's scope, the
outlined builder's `visitEnd`) only close it. -/
def builtInstr : BuilderOp Instr → Option Instr
  | .visit e => some e
  | .call func => some (.call func false)
  | .unreachable => some .unreachable
  | .localGet i => some (.localGet i)
  | _ => none

/-- The bodies a builder builds: after each function start, its instructions up to the next
start; the first component holds the instructions before the first start. -/
def builtBodies : List (BuilderOp Instr) → List Instr × List (Name × List Instr)
  | [] => ([], [])
  | op :: ops =>
    match builtBodies ops, op with
    | (pending, bodies), .funcStart func => ([], (func, pending) :: bodies)
    | (pending, bodies), op => ((builtInstr op).toList ++ pending, bodies)

/-- The walk of a function: its instructions, then the end of its scope. -/
def Module.events (m : Module) (func : Name) : List (Event Instr) :=
  match (m.getFunction? func).bind Func.body with
  | some body => body.map .expr ++ [.symbol .scopeEnd]
  | none => []

/-- One iteration of `outline`: sort the function's sequences by start, walk the function, and
install the bodies the two builders build. -/
def outlineFunction (m : Module) (func : Name) (seqs : List OutliningSequence) : Module :=
  let seqs := seqs.insertionSort fun a b => a.startIdx ≤ b.startIdx
  let w : Walker Instr := reconstruct func seqs m.hasBody m.numParams (m.events func)
  ((builtBodies w.existingBuilder).2 ++ (builtBodies w.outlinedBuilder).2).foldl
    (fun m body => m.setBody body.1 body.2) m

/-- `outline`. -/
def outline (m : Module) (seqByFunc : Sequences) : Module :=
  seqByFunc.foldl (fun m p => outlineFunction m p.1 p.2) m

/-- `moveOutlinedFunctions`: the last `outlinedCount` functions move to the front. -/
def moveOutlinedFunctions (m : Module) (outlinedCount : Nat) : Module :=
  m.drop (m.length - outlinedCount) ++ m.take (m.length - outlinedCount)

/-- `Outlining::run`, given the substrings the suffix tree mines, dedupes and keeps disjoint.
The final `ReFinalize` has nothing to do on straight-line bodies. -/
def run (m : Module) (substrings : List RepeatedSubstring) : Module :=
  let stringify := hashStringify m
  let substrings := filterLocalGets
    (filterLocalSets (filterBranches substrings stringify) stringify) stringify
  let (m, sequences) := makeSequences m substrings stringify
  moveOutlinedFunctions (outline m sequences) substrings.length

/-! ## A tail call in an outlined sequence -/

/-- `$f` takes and returns nothing and does nothing; `$a` and `$b` both end with
`i32.const 1; drop; return_call $f`. -/
def tailCallModule : Module :=
  [⟨"f", 0, 0, 0, some []⟩, ⟨"a", 0, 0, 0, some [.const 1, .drop, .call "f" true]⟩,
   ⟨"b", 0, 0, 0, some [.const 1, .drop, .call "f" true]⟩]

/-- The three instructions at their two positions in the stringified module, after the start
and end of `$f` and the start of `$a`, and after `$a` and the start of `$b`. -/
def tailCallSubstrings : List RepeatedSubstring := [⟨3, [3, 8]⟩]

/-- The filters keep the repeated `i32.const 1; drop; return_call $f`, and `$a` becomes a call
of the callee followed by `unreachable`, the sequence ending unreachable-typed: before the pass
`$a` returns, after it `$a` traps. -/
theorem outlining_returnCall_traps :
    filterLocalGets (filterLocalSets (filterBranches tailCallSubstrings
      (hashStringify tailCallModule)) (hashStringify tailCallModule))
      (hashStringify tailCallModule) = tailCallSubstrings ∧
    (hashStringify tailCallModule).occurrence 3 3 =
      (hashStringify tailCallModule).occurrence 8 3 ∧
    (run tailCallModule tailCallSubstrings).getFunction? "outline$" =
      some ⟨"outline$", 0, 0, 0, some [.const 1, .drop, .call "f" true]⟩ ∧
    (run tailCallModule tailCallSubstrings).getFunction? "a" =
      some ⟨"a", 0, 0, 0, some [.call "outline$" false, .unreachable]⟩ ∧
    tailCallModule.invoke 10 "a" [] = .values [] ∧
    (run tailCallModule tailCallSubstrings).invoke 10 "a" [] = .trap := by
  decide

end BinaryenPasses.Outlining
