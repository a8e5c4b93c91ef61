import UniJit.Ir.Function

/-!
# Word, floating-point and vector arithmetic

What the interpreters and the constant folder compute. Words are bit patterns, so the source's
round trips between signed and unsigned words disappear; a signed comparison reads `toInt`.

Floating-point arithmetic is left to a `FloatUnit`: a record of functions on bit patterns that
stands for the host's `float` and `double`. Nothing in the development depends on what these
functions are.
-/

namespace UniJit.Ir

/-- The floating-point arithmetic of the host, on the bits of `double` and `float` values. -/
structure FloatUnit where
  add : Word → Word → Word
  subtract : Word → Word → Word
  multiply : Word → Word → Word
  divide : Word → Word → Word
  lessThan : Word → Word → Bool
  lessEqual : Word → Word → Bool
  equal : Word → Word → Bool
  isNan : Word → Bool
  add32 : BitVec 32 → BitVec 32 → BitVec 32
  subtract32 : BitVec 32 → BitVec 32 → BitVec 32
  multiply32 : BitVec 32 → BitVec 32 → BitVec 32
  divide32 : BitVec 32 → BitVec 32 → BitVec 32
  /-- The conversion of a `float` to a `double`. -/
  widen : BitVec 32 → Word
  /-- The conversion of a `double` to a `float`. -/
  narrow : Word → BitVec 32

/-! ## Words -/

/-- A truth value as a word. -/
def wordOfBool (b : Bool) : Word := if b then 1 else 0

/-- A shift to the left; a negative amount shifts to the right. -/
def shiftLeft (value amount : Word) : Word :=
  if amount.toInt < 0 then
    let magnitude := (0 - amount).toNat
    if 64 ≤ magnitude then 0 else value >>> magnitude
  else if 64 ≤ amount.toNat then 0
  else value <<< amount.toNat

/-- Lua's floor division on words: zero divides to 0, -1 negates with wraparound, and an inexact
quotient of mixed signs is rounded down. -/
def floorDivideWord (lhs rhs : Word) : Word :=
  if rhs = 0 then 0
  else if rhs = -1 then 0 - lhs
  else
    let quotient := lhs.sdiv rhs
    if (lhs ^^^ rhs).toInt < 0 ∧ lhs.srem rhs ≠ 0 then quotient - 1 else quotient

/-- Lua's floor remainder on words: 0 at the divisors 0 and -1, else it takes the divisor's sign. -/
def floorModuloWord (lhs rhs : Word) : Word :=
  if rhs = 0 ∨ rhs = -1 then 0
  else
    let remainder := lhs.srem rhs
    if remainder ≠ 0 ∧ (remainder ^^^ rhs).toInt < 0 then remainder + rhs else remainder

/-- The low bytes of a word in reversed order; only three widths are supported. -/
def byteSwapWord (value : Word) (width : MemoryWidth) : Word :=
  if width ≠ .k16 ∧ width ≠ .k32 ∧ width ≠ .k64 then 0
  else
    (List.range (memoryWidthBytes width)).foldl
      (fun reversed index => (reversed <<< 8) ||| ((value >>> (index * 8)) &&& 0xff)) 0

/-- The value of a binary operation on words; comparisons give 0 or 1 and Float64 operations go to
the host's unit. -/
def evaluateBinary (float : FloatUnit) (o : BinaryOpcode) (lhs rhs : Word) : Word :=
  match o with
  | .add => lhs + rhs
  | .subtract => lhs - rhs
  | .multiply => lhs * rhs
  | .bitwiseAnd => lhs &&& rhs
  | .bitwiseOr => lhs ||| rhs
  | .bitwiseXor => lhs ^^^ rhs
  | .shiftLeft => shiftLeft lhs rhs
  | .floorDivide => floorDivideWord lhs rhs
  | .floorModulo => floorModuloWord lhs rhs
  | .lessThan => wordOfBool (lhs.toInt < rhs.toInt)
  | .lessEqual => wordOfBool (lhs.toInt ≤ rhs.toInt)
  | .equal => wordOfBool (lhs = rhs)
  | .notEqual => wordOfBool (lhs ≠ rhs)
  | .floatAdd => float.add lhs rhs
  | .floatSubtract => float.subtract lhs rhs
  | .floatMultiply => float.multiply lhs rhs
  | .floatDivide => float.divide lhs rhs
  | .floatLessThan => wordOfBool (float.lessThan lhs rhs)
  | .floatLessEqual => wordOfBool (float.lessEqual lhs rhs)
  | .floatEqual => wordOfBool (float.equal lhs rhs)
  | .floatNotEqual => wordOfBool (!float.equal lhs rhs)

/-- A unary operation; `width` is the width of a byte swap and is not used otherwise. -/
def evaluateUnary (o : UnaryOpcode) (width : MemoryWidth) (operand : Word) : Word :=
  match o with
  | .negate => 0 - operand
  | .bitwiseNot => ~~~operand
  | .byteSwap => byteSwapWord operand width
  | .floatNegate => operand ^^^ (1 <<< 63)

/-! ## Vectors -/

/-- The bits of a lane, sign-extended. -/
def signedLane (bits : BitVec 64) (laneBits : Nat) : BitVec 64 :=
  if laneBits = 64 then bits
  else if bits &&& (1#64 <<< (laneBits - 1)) ≠ 0 then bits ||| ~~~laneMask laneBits
  else bits

/-- Fill the lanes of a vector one by one, from the zero vector. -/
def fillLanes (type : ValueType) (lane : Nat → BitVec 64) : Vector128 :=
  (List.range (vectorLaneCount type)).foldl
    (fun result index => storeLane result index (vectorLaneBits type) (lane index)) 0

/-- A lane comparison of integers, signed or unsigned at the lane's width. -/
def compareInteger (comparison : VectorComparison) (lhs rhs : BitVec 64) (laneBits : Nat) : Bool :=
  match comparison with
  | .equal => lhs == rhs
  | .signedLessThan => (signedLane lhs laneBits).toInt < (signedLane rhs laneBits).toInt
  | .signedLessEqual => (signedLane lhs laneBits).toInt ≤ (signedLane rhs laneBits).toInt
  | .unsignedLessThan => lhs.toNat < rhs.toNat
  | .unsignedLessEqual => lhs.toNat ≤ rhs.toNat
  | _ => false

/-- A lane comparison of Float64 bits, false when either side is a NaN. -/
def compareFloat (float : FloatUnit) (comparison : VectorComparison) (lhs rhs : Word) : Bool :=
  if float.isNan lhs || float.isNan rhs then false
  else
    match comparison with
    | .orderedFloatEqual => float.equal lhs rhs
    | .orderedFloatLessThan => float.lessThan lhs rhs
    | .orderedFloatLessEqual => float.lessEqual lhs rhs
    | _ => false

/-- The vector types that a binary operation is defined on. -/
def vectorBinaryDefined (operation : VectorBinaryOperation) (type : ValueType) : Bool :=
  match operation with
  | .bitwiseAnd | .bitwiseOr | .bitwiseXor => isVectorValueType type
  | .divide => isFloatVectorType type
  | .add | .subtract | .multiply => isIntegerVectorType type || isFloatVectorType type

/-- The vector types that a comparison is defined on. -/
def vectorComparisonDefined (comparison : VectorComparison) (type : ValueType) : Bool :=
  match comparison with
  | .orderedFloatEqual | .orderedFloatLessThan | .orderedFloatLessEqual => isFloatVectorType type
  | _ => !isFloatVectorType type && isIntegerVectorType type

/-- Every lane set to the given bits; zero for a type that is no data vector. -/
def vectorSplatBits (type : ValueType) (laneBits : Word) : Vector128 :=
  if ¬ isIntegerVectorType type ∧ ¬ isFloatVectorType type then 0
  else fillLanes type fun _ => laneBits &&& laneMask (vectorLaneBits type)

/-- One lane as a word, sign-extended on request; zero for a lane out of range. -/
def vectorExtractLaneBits (value : Vector128) (type : ValueType) (lane : Nat)
    (signExtend : Bool) : Word :=
  if ¬ isVectorValueType type ∨ vectorLaneCount type ≤ lane ∨
      (signExtend ∧ ¬ isIntegerVectorType type) then 0
  else
    let bits := loadLane value lane (vectorLaneBits type)
    if signExtend then signedLane bits (vectorLaneBits type) else bits

/-- The vector with one lane replaced; zero for a lane out of range. -/
def vectorInsertLaneBits (value : Vector128) (type : ValueType) (lane : Nat)
    (laneBits : Word) : Vector128 :=
  if (¬ isIntegerVectorType type ∧ ¬ isFloatVectorType type) ∨ vectorLaneCount type ≤ lane then 0
  else storeLane value lane (vectorLaneBits type) laneBits

/-- A lane-wise unary operation, zero where it is not defined on the type. -/
def vectorUnary (operation : VectorUnaryOperation) (value : Vector128) (type : ValueType) :
    Vector128 :=
  match operation with
  | .bitwiseNot => if ¬ isVectorValueType type then 0 else ~~~value

/-- One lane of an arithmetic operation on float lanes. -/
def floatLane (float : FloatUnit) (operation : VectorBinaryOperation) (width : Nat)
    (lhs rhs : BitVec 64) : BitVec 64 :=
  if width = 32 then
    let l : BitVec 32 := lhs.setWidth 32
    let r : BitVec 32 := rhs.setWidth 32
    let value : BitVec 32 :=
      match operation with
      | .add => float.add32 l r
      | .subtract => float.subtract32 l r
      | .multiply => float.multiply32 l r
      | .divide => float.divide32 l r
      | _ => 0
    value.setWidth 64
  else
    match operation with
    | .add => float.add lhs rhs
    | .subtract => float.subtract lhs rhs
    | .multiply => float.multiply lhs rhs
    | .divide => float.divide lhs rhs
    | _ => 0

/-- One lane of an arithmetic operation on integer lanes. -/
def integerLane (operation : VectorBinaryOperation) (width : Nat) (lhs rhs : BitVec 64) :
    BitVec 64 :=
  match operation with
  | .add => (lhs + rhs) &&& laneMask width
  | .subtract => (lhs - rhs) &&& laneMask width
  | .multiply => (lhs * rhs) &&& laneMask width
  | _ => 0

/-- A lane-wise binary operation, zero where it is not defined on the type. -/
def vectorBinary (float : FloatUnit) (operation : VectorBinaryOperation) (lhs rhs : Vector128)
    (type : ValueType) : Vector128 :=
  if ¬ vectorBinaryDefined operation type then 0
  else
    match operation with
    | .bitwiseAnd => lhs &&& rhs
    | .bitwiseOr => lhs ||| rhs
    | .bitwiseXor => lhs ^^^ rhs
    | _ =>
        let width := vectorLaneBits type
        fillLanes type fun lane =>
          let l := loadLane lhs lane width
          let r := loadLane rhs lane width
          if isFloatVectorType type then floatLane float operation width l r
          else integerLane operation width l r

/-- The mask of a lane-wise comparison: all ones or all zeros in each lane. -/
def vectorCompare (float : FloatUnit) (comparison : VectorComparison) (lhs rhs : Vector128)
    (type : ValueType) : Vector128 :=
  if ¬ vectorComparisonDefined comparison type then 0
  else
    let width := vectorLaneBits type
    fillLanes type fun lane =>
      let l := loadLane lhs lane width
      let r := loadLane rhs lane width
      let holds :=
        if isFloatVectorType type then
          if width = 32 then
            compareFloat float comparison (float.widen (l.setWidth 32)) (float.widen (r.setWidth 32))
          else compareFloat float comparison l r
        else compareInteger comparison l r width
      if holds then laneMask width else 0

/-- The lanes of the first value where the mask is set and of the second elsewhere; zero under a
mask that is not canonical. -/
def vectorSelect (mask trueValue falseValue : Vector128) (maskType : ValueType) : Vector128 :=
  if ¬ vectorMaskIsCanonical mask maskType then 0
  else (mask &&& trueValue) ||| (~~~mask &&& falseValue)

/-- The sign bits of the lanes, lane 0 in bit 0. -/
def vectorLaneSignMask (value : Vector128) (type : ValueType) : Word :=
  if ¬ isVectorValueType type then 0
  else
    let width := vectorLaneBits type
    (List.range (vectorLaneCount type)).foldl
      (fun result lane =>
        result ||| (((loadLane value lane width >>> (width - 1)) &&& 1) <<< lane)) 0

/-- The lanes picked by the shuffle's indices from the two concatenated inputs. -/
def vectorShuffle (value : Vector128) (type : ValueType) (shuffle : VectorShuffle) : Vector128 :=
  let laneCount := vectorLaneCount type
  let source := fun lane : Nat => (shuffle.lanes.toList.getD lane 0).toNat
  if ¬ isVectorValueType type ∨ shuffle.laneCount.toNat ≠ laneCount then 0
  else if (List.range laneCount).any fun lane => laneCount ≤ source lane then 0
  else fillLanes type fun lane => loadLane value (source lane) (vectorLaneBits type)

/-- One half of the lanes extended to twice their width. -/
def vectorWiden (value : Vector128) (sourceType resultType : ValueType)
    (extension : VectorExtension) (half : VectorHalf) : Vector128 :=
  if ¬ isIntegerVectorType sourceType ∨ ¬ isIntegerVectorType resultType ∨
      vectorLaneBits resultType ≠ vectorLaneBits sourceType * 2 ∨
      vectorLaneCount resultType * 2 ≠ vectorLaneCount sourceType then 0
  else
    let first := if half = .low then 0 else vectorLaneCount sourceType / 2
    fillLanes resultType fun lane =>
      let source := loadLane value (first + lane) (vectorLaneBits sourceType)
      if extension = .sign then signedLane source (vectorLaneBits sourceType) else source

end UniJit.Ir
