import Mathlib.Tactic

/-!
# Value types and 128-bit vectors

The value types of the intermediate representation and the descriptors of vector operations.
A `Word` is the bit pattern of a signed 64-bit integer; signed readings go through
`BitVec.toInt` and unsigned ones (`static_cast<std::size_t>`) through `BitVec.toNat`.

Every enumeration of the source has a fixed byte encoding. It is given once, by the list of the
values in declaration order; `enumCode` and `enumOfCode` read it in both directions.
-/

namespace UniJit.Ir

/-- A machine word: the bits of a signed 64-bit integer. -/
abbrev Word := BitVec 64

/-- An unsigned byte. -/
abbrev Byte := BitVec 8

/-- Equality of bytes is decided by their tests. -/
instance byte_lawfulBEq : LawfulBEq Byte := inferInstance

/-- A 128-bit vector. Byte `i` of the source's array is bits `8 * i` to `8 * i + 7`. -/
abbrev Vector128 := BitVec 128

/-- The type of an SSA value. -/
inductive ValueType
  | word | float64
  | i8x16 | i16x8 | i32x4 | i64x2
  | f32x4 | f64x2
  | mask8x16 | mask16x8 | mask32x4 | mask64x2
  deriving DecidableEq, Repr

/-- The lane selection of a shuffle: sixteen lane bytes, of which `laneCount` are meaningful. -/
structure VectorShuffle where
  lanes : Vector Byte 16
  laneCount : Byte
  deriving DecidableEq, Repr

/-- The unary vector operations. -/
inductive VectorUnaryOperation
  | bitwiseNot
  deriving DecidableEq, Repr

/-- The binary vector operations. -/
inductive VectorBinaryOperation
  | add | subtract | multiply | bitwiseAnd | bitwiseOr | bitwiseXor | divide
  deriving DecidableEq, Repr

/-- The vector comparisons. -/
inductive VectorComparison
  | equal
  | signedLessThan | signedLessEqual
  | unsignedLessThan | unsignedLessEqual
  | orderedFloatEqual | orderedFloatLessThan | orderedFloatLessEqual
  deriving DecidableEq, Repr

/-- How lanes are extended. -/
inductive VectorExtension
  | zero | sign
  deriving DecidableEq, Repr

/-- Which half of the lanes is widened. -/
inductive VectorHalf
  | low | high
  deriving DecidableEq, Repr

/-! ## Enumeration codes -/

/-- The position of a value in the declaration order of its enumeration. -/
def enumCode {α : Type} [DecidableEq α] (order : List α) (a : α) : Nat :=
  order.idxOf a

/-- The value at a position of the declaration order, if there is one. -/
def enumOfCode {α : Type} (order : List α) (n : Nat) : Option α :=
  order[n]?

/-- Decoding the code of a listed case gives the case. -/
lemma enumOfCode_enumCode {α : Type} [DecidableEq α] {order : List α} {a : α}
    (h : a ∈ order) : enumOfCode order (enumCode order a) = some a := by
  have hlt : order.idxOf a < order.length := List.idxOf_lt_length_iff.mpr h
  simp [enumOfCode, enumCode, List.getElem?_eq_getElem hlt]

/-- Encoding a decoded case gives its code. -/
lemma enumCode_of_enumOfCode {α : Type} [DecidableEq α] {order : List α} (nodup : order.Nodup)
    {n : Nat} {a : α} (h : enumOfCode order n = some a) : enumCode order a = n := by
  obtain ⟨hlt, rfl⟩ := List.getElem?_eq_some_iff.mp h
  exact nodup.idxOf_getElem n hlt

/-- The declaration order of `ValueType`. -/
def ValueType.order : List ValueType :=
  [.word, .float64, .i8x16, .i16x8, .i32x4, .i64x2, .f32x4, .f64x2,
   .mask8x16, .mask16x8, .mask32x4, .mask64x2]

/-- The binary vector operations as they are numbered. -/
def VectorBinaryOperation.order : List VectorBinaryOperation :=
  [.add, .subtract, .multiply, .bitwiseAnd, .bitwiseOr, .bitwiseXor, .divide]

/-- The vector comparisons as they are numbered. -/
def VectorComparison.order : List VectorComparison :=
  [.equal, .signedLessThan, .signedLessEqual, .unsignedLessThan, .unsignedLessEqual,
   .orderedFloatEqual, .orderedFloatLessThan, .orderedFloatLessEqual]

/-! ## Type predicates -/

/-- The scalar types. -/
def isScalarValueType : ValueType → Bool
  | .word | .float64 => true
  | _ => false

/-- The vectors of integers. -/
def isIntegerVectorType : ValueType → Bool
  | .i8x16 | .i16x8 | .i32x4 | .i64x2 => true
  | _ => false

/-- The vectors of floats. -/
def isFloatVectorType : ValueType → Bool
  | .f32x4 | .f64x2 => true
  | _ => false

/-- The masks. -/
def isMaskVectorType : ValueType → Bool
  | .mask8x16 | .mask16x8 | .mask32x4 | .mask64x2 => true
  | _ => false

/-- The vectors, masks included. -/
def isVectorValueType (type : ValueType) : Bool :=
  isIntegerVectorType type || isFloatVectorType type || isMaskVectorType type

/-- Every scalar or vector type is valid. -/
def isValidValueType (type : ValueType) : Bool :=
  isScalarValueType type || isVectorValueType type

-- every value of the enumeration is valid: the source's check rejects bytes that are none
example (type : ValueType) : isValidValueType type = true := by
  cases type <;> rfl

@[simp] lemma isVectorValueType_eq_not (type : ValueType) :
    isVectorValueType type = !isScalarValueType type := by
  cases type <;> rfl

/-- The bits of a lane, 0 for a scalar. -/
def vectorLaneBits : ValueType → Nat
  | .i8x16 | .mask8x16 => 8
  | .i16x8 | .mask16x8 => 16
  | .i32x4 | .f32x4 | .mask32x4 => 32
  | .i64x2 | .f64x2 | .mask64x2 => 64
  | .word | .float64 => 0

/-- The number of lanes of a 128-bit vector. -/
def vectorLaneCount (type : ValueType) : Nat :=
  let laneBits := vectorLaneBits type
  if laneBits = 0 then 0 else 128 / laneBits

/-- The mask with lanes of the same width. -/
def vectorMaskType (type : ValueType) : ValueType :=
  match vectorLaneBits type with
  | 8 => .mask8x16
  | 16 => .mask16x8
  | 32 => .mask32x4
  | 64 => .mask64x2
  | _ => .word

/-- Two vectors with lanes of the same width. -/
def vectorShapesMatch (lhs rhs : ValueType) : Bool :=
  isVectorValueType lhs && isVectorValueType rhs && vectorLaneBits lhs == vectorLaneBits rhs

/-! ## Lanes -/

/-- The low bits that a lane fills. -/
def laneMask (laneBits : Nat) : BitVec 64 :=
  if laneBits = 0 ∨ 64 < laneBits then 0
  else if laneBits = 64 then BitVec.allOnes 64
  else (1#64 <<< laneBits) - 1#64

/-- The bits of one lane, zero-extended. -/
def loadLane (value : Vector128) (lane laneBits : Nat) : BitVec 64 :=
  (value.extractLsb' (lane * laneBits) laneBits).setWidth 64

/-- The vector with one lane replaced by the low `laneBits` bits of `bits`. -/
def storeLane (value : Vector128) (lane laneBits : Nat) (bits : BitVec 64) : Vector128 :=
  let hole := (BitVec.allOnes laneBits).setWidth 128 <<< (lane * laneBits)
  let lanePart := (bits.setWidth laneBits).setWidth 128 <<< (lane * laneBits)
  (value &&& ~~~hole) ||| lanePart

/-- A mask vector is canonical when each lane is all zeros or all ones. -/
def vectorMaskIsCanonical (value : Vector128) (maskType : ValueType) : Bool :=
  isMaskVectorType maskType &&
    (List.range (vectorLaneCount maskType)).all fun lane =>
      let bits := loadLane value lane (vectorLaneBits maskType)
      bits == 0 || bits == laneMask (vectorLaneBits maskType)

end UniJit.Ir
