import BinaryenPasses.IR.Types
import BinaryenPasses.IR.Expression
import BinaryenPasses.IR.Traversal
import BinaryenPasses.IR.Interpreter
import BinaryenPasses.IR.Metatheory
import BinaryenPasses.Heap2Local.EscapeAnalyzer
import BinaryenPasses.Heap2Local.EscapeLoop
import BinaryenPasses.Heap2Local.EscapeClosure
import BinaryenPasses.Heap2Local.Struct2Local
import BinaryenPasses.Heap2Local.StructNewReplacement
import BinaryenPasses.Heap2Local.AtomicReplacement
import BinaryenPasses.Heap2Local.CastReplacement
import BinaryenPasses.Heap2Local.FieldReplacement
import BinaryenPasses.Heap2Local.TestReplacement
import BinaryenPasses.Heap2Local.Array2Struct
import BinaryenPasses.Heap2Local.ArrayReplacement
import BinaryenPasses.Heap2Local.ArrayAllocation
import BinaryenPasses.Heap2Local.ArrayTestReplacement
import BinaryenPasses.Heap2Local.Pass
import BinaryenPasses.Heap2Local.Locals
import BinaryenPasses.Heap2Local.Detach
import BinaryenPasses.Outlining.Reconstruct
import BinaryenPasses.Outlining.Pass
import BinaryenPasses.Outlining.FunctionList
import BinaryenPasses.Outlining.Exec
import BinaryenPasses.Outlining.Simulation
import BinaryenPasses.Outlining.Occurrences
import BinaryenPasses.Outlining.Rebuild
import BinaryenPasses.Outlining.Correctness
