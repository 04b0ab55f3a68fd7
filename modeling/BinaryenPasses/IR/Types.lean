import Mathlib.Data.List.Basic

/-!
# Binaryen types for the GC passes

The part of Binaryen's type system that `Heap2Local` reads: value types (`Type`, here `Ty`),
heap types, struct and array definitions with their packing, declared supertypes and
descriptors, the subtype test `Type::isSubType`, and the zero literal `Literal::makeZero`.

Heap types declared by the module are indices into its type section.  Subtyping of declared
types follows the chain of declared supertypes, which the section stores as indices; the walk up
the chain is bounded by the length of the section, so it is structural and evaluates.

* `HeapType.isSubType` — the abstract hierarchy `none ⊑ struct, array ⊑ eq ⊑ any`, declared
  types under their kind, and declared supertypes;
* `Ty.isSubType` — `unreachable` below everything, references by heap type and nullability;
* `isSubType_refl` — both tests are reflexive, the fact `Struct2Local` relies on when a cast's
  target is the allocation's own type.
-/

namespace BinaryenPasses.IR

/-- Labels and function names. -/
abbrev Name := String

/-- Heap types: a type declared by the module (an index into its type section) or one of the
abstract heap types of the `any` hierarchy. -/
inductive HeapType
  | defined (index : Nat)
  | any
  | eq
  | struct
  | array
  | none
  deriving DecidableEq, Repr

/-- Binaryen's `Type`: no value, the type of code that never completes, integers, and
references with their nullability. -/
inductive Ty
  | none
  | unreachable
  | i32
  | i64
  | ref (heapType : HeapType) (nullable : Bool)
  deriving DecidableEq, Repr, Inhabited

namespace Ty

/-- `Type::isRef`. -/
def isRef : Ty → Bool
  | .ref _ _ => true
  | _ => false

/-- `Type::isNullable`. -/
def isNullable : Ty → Bool
  | .ref _ n => n
  | _ => false

/-- `Type::getHeapType`; `none` for a type that is not a reference. -/
def getHeapType : Ty → HeapType
  | .ref ht _ => ht
  | _ => .none

/-- `Type::isConcrete`: a type that values have. -/
def isConcrete : Ty → Bool
  | .none | .unreachable => false
  | _ => true

/-- `Type(heapType, Nullable)`: the nullable variant of a reference type. -/
def toNullable : Ty → Ty
  | .ref ht _ => .ref ht true
  | t => t

end Ty

/-- Packed storage of an `i32` field. -/
inductive PackedType
  | notPacked
  | i8
  | i16
  deriving DecidableEq, Repr, Inhabited

/-- A struct field or an array element. -/
structure Field where
  type : Ty
  packedType : PackedType := .notPacked
  mutable : Bool := true
  deriving DecidableEq, Repr, Inhabited

/-- `Field::isPacked`. -/
def Field.isPacked (f : Field) : Bool := f.packedType != .notPacked

/-- A heap type the module declares: a struct with its fields and optional descriptor type, or
an array with its element; both with an optional declared supertype. -/
inductive HeapTypeDef
  | struct (fields : List Field) (supertype : Option Nat) (descriptor : Option Nat)
  | array (element : Field) (supertype : Option Nat)
  deriving DecidableEq, Repr

/-- The module's type section. -/
abbrev TypeSection := List HeapTypeDef

namespace HeapTypeDef

def supertype : HeapTypeDef → Option Nat
  | .struct _ s _ => s
  | .array _ s => s

def isStruct : HeapTypeDef → Bool
  | .struct .. => true
  | .array .. => false

def fields : HeapTypeDef → List Field
  | .struct fs _ _ => fs
  | .array .. => []

end HeapTypeDef

/-- The declared type index of a reference type. -/
def definedIndex (t : Ty) : Option Nat :=
  match t.getHeapType with
  | .defined i => some i
  | _ => none

/-- The fields of a declared struct type. -/
def fieldsOf (types : TypeSection) (i : Nat) : List Field :=
  match types[i]? with
  | some (.struct fs _ _) => fs
  | _ => []

/-- The element of a declared array type. -/
def elementOf (types : TypeSection) (i : Nat) : Field :=
  match types[i]? with
  | some (.array el _) => el
  | _ => ⟨.none, .notPacked, false⟩

/-- The declared supertypes of type `i`, nearest first, up to `fuel` steps. -/
def superChain (types : TypeSection) : Nat → Nat → List Nat
  | 0, _ => []
  | fuel + 1, i =>
    match (types[i]?).bind HeapTypeDef.supertype with
    | some j => j :: superChain types fuel j
    | none => []

/-- `HeapType::isSubType`. -/
def HeapType.isSubType (types : TypeSection) (a b : HeapType) : Bool :=
  a == b ||
  match a, b with
  | .none, _ => true
  | .defined i, .defined j => (superChain types types.length i).contains j
  | .defined i, .struct => (types[i]?.map HeapTypeDef.isStruct) == some true
  | .defined i, .array => (types[i]?.map HeapTypeDef.isStruct) == some false
  | .defined _, .eq | .defined _, .any => true
  | .struct, .eq | .struct, .any | .array, .eq | .array, .any | .eq, .any => true
  | _, _ => false

/-- `Type::isSubType`. -/
def Ty.isSubType (types : TypeSection) (a b : Ty) : Bool :=
  a == b ||
  match a, b with
  | .unreachable, _ => true
  | .ref h₁ n₁, .ref h₂ n₂ => (!n₁ || n₂) && HeapType.isSubType types h₁ h₂
  | _, _ => false

@[simp] theorem HeapType.isSubType_refl (types : TypeSection) (h : HeapType) :
    HeapType.isSubType types h h = true := by
  simp [HeapType.isSubType]

@[simp] theorem Ty.isSubType_refl (types : TypeSection) (t : Ty) :
    Ty.isSubType types t t = true := by
  simp [Ty.isSubType]

end BinaryenPasses.IR
