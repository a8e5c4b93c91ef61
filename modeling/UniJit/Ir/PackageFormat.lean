import UniJit.Ir.Package

/-!
# The records of a package

For every record of the format one lemma says that its reader accepts exactly what its writer
writes: `Reads limit read fun a bs => P a ∧ bs = write a`, where `P` lists what the reader demands
of the record beyond its shape. Both directions of the format, and the safety of the reader, are
read off these lemmas.
-/

namespace UniJit.Ir

open UniJit.Lib

variable {limit : Nat}

/-! ## Building blocks -/

/-- A refusal of a missing value, then the rest of the reading. -/
lemma orRejectThen {α β : Type} {o : Option α} {e : Status} {k : α → Reading Status β}
    {Q' : α → β → List Byte → Prop} (hk : ∀ a, o = some a → Reads limit (k a) (Q' a)) :
    Reads limit (orReject o e >>= k) fun b bs => ∃ a, o = some a ∧ Q' a b bs := by
  cases o with
  | some a =>
      refine ((Reads.pure a).bind fun a' _ h => hk a' (by rw [h.1])).congr fun b bs => ?_
      constructor
      · rintro ⟨a', _, bs₂, ⟨rfl, rfl⟩, hQ', rfl⟩
        exact ⟨a', rfl, hQ'⟩
      · rintro ⟨a', ha, hQ'⟩
        obtain rfl := Option.some.inj ha
        exact ⟨a, [], bs, ⟨rfl, rfl⟩, hQ', rfl⟩
  | none =>
      constructor
      · intro w offset _ _ _ f h
        rw [Reading.bind_error rfl] at h
        exact absurd h (by simp)
      · intro w offset _ _ _ b offset'
        rw [Reading.bind_error rfl]
        simp

/-- A computation that succeeds, then the rest of the reading. -/
lemma monitoredThen {α β : Type} {x : Except (Failure Status) α} {a : α} {k : α → Reading Status β}
    {Q' : β → List Byte → Prop} (hx : x = .ok a) (hk : Reads limit (k a) Q') :
    Reads limit (monitored x >>= k) Q' := by
  subst hx
  refine ((Reads.pure a).bind fun a' _ h => show Reads limit (k a') Q' from h.1 ▸ hk).congr
    fun b bs => ?_
  constructor
  · rintro ⟨_, _, bs₂, ⟨rfl, rfl⟩, hQ', rfl⟩
    exact hQ'
  · intro hQ'
    exact ⟨a, [], bs, ⟨rfl, rfl⟩, hQ', rfl⟩

/-- A checked addition of sizes is the sum, or it is refused; it never wraps. -/
lemma checkedAdd_eq {value : Nat} (increment : Nat) (hvalue : value ≤ kMaximumSize) :
    checkedAdd value increment =
      .ok (if value + increment ≤ kMaximumSize then some (value + increment) else none) := by
  unfold checkedAdd
  by_cases hsum : value + increment ≤ kMaximumSize
  · rw [if_neg (by omega), if_pos hsum, if_pos hsum]
  · rw [if_pos (by omega), if_neg hsum]

/-- Bytes and enumeration values correspond. -/
lemma enumOfByte_eq_some_iff {α : Type} [DecidableEq α] {order : List α} (hnodup : order.Nodup)
    (hlength : order.length ≤ 256) {b : Byte} {a : α} :
    enumOfByte order b = some a ↔ a ∈ order ∧ b = enumByte order a := by
  unfold enumOfByte enumByte
  constructor
  · intro h
    refine ⟨List.mem_of_getElem? h, ?_⟩
    rw [enumCode_of_enumOfCode hnodup h, BitVec.ofNat_toNat, BitVec.setWidth_eq]
  · rintro ⟨hmem, rfl⟩
    have hlt : enumCode order a < order.length := List.idxOf_lt_length_iff.mpr hmem
    rw [BitVec.toNat_ofNat, Nat.mod_eq_of_lt (by omega)]
    exact enumOfCode_enumCode hmem

lemma mem_valueTypeOrder (type : ValueType) : type ∈ ValueType.order := by
  cases type <;> decide

/-- Bytes and value types correspond. -/
lemma valueType_ofByte_iff {b : Byte} {type : ValueType} :
    enumOfByte ValueType.order b = some type ↔ b = enumByte ValueType.order type := by
  rw [enumOfByte_eq_some_iff (by decide) (by decide), and_iff_right (mem_valueTypeOrder type)]

/-- Decoding a byte order inverts encoding it. -/
lemma memoryByteOrder_ofByte_iff {b : Byte} {order : MemoryByteOrder} :
    enumOfByte MemoryByteOrder.order b = some order ↔ b = enumByte MemoryByteOrder.order order := by
  rw [enumOfByte_eq_some_iff (by decide) (by decide), and_iff_right (by cases order <;> decide)]

/-- Decoding a memory order inverts encoding it. -/
lemma atomicOrder_ofByte_iff {b : Byte} {order : AtomicMemoryOrder} :
    enumOfByte AtomicMemoryOrder.enumOrder b = some order ↔
      b = enumByte AtomicMemoryOrder.enumOrder order := by
  rw [enumOfByte_eq_some_iff (by decide) (by decide), and_iff_right (by cases order <;> decide)]

/-- Decoding a strength inverts encoding it. -/
lemma strength_ofByte_iff {b : Byte} {strength : AtomicCompareExchangeStrength} :
    enumOfByte AtomicCompareExchangeStrength.enumOrder b = some strength ↔
      b = enumByte AtomicCompareExchangeStrength.enumOrder strength := by
  rw [enumOfByte_eq_some_iff (by decide) (by decide), and_iff_right (by cases strength <;> decide)]

/-- Decoding a kind of patch cell inverts encoding it. -/
lemma patchCellKind_ofByte_iff {b : Byte} {kind : PatchCellKind} :
    enumOfByte PatchCellKind.order b = some kind ↔ b = enumByte PatchCellKind.order kind := by
  rw [enumOfByte_eq_some_iff (by decide) (by decide), and_iff_right (by cases kind <;> decide)]

/-- Decoding a width inverts encoding it. -/
lemma decodeMemoryWidth_iff {b : Byte} {width : MemoryWidth} :
    decodeMemoryWidth b = some width ↔ b = width.code := by
  constructor
  · intro h
    have hcode := List.find?_some h
    simp only [beq_iff_eq] at hcode
    exact hcode.symm
  · rintro rfl
    cases width <;> decide

/-! ## Records -/

section nodes

variable {Op : Type} [DecidableEq Op]

/-- Reading a node inverts writing it, except for runtime calls. -/
lemma reads_node {order : List Op} (hnodup : order.Nodup) (hlength : order.length ≤ 256)
    (hall : ∀ o, o ∈ order) (runtimeCall : Op) (index : Nat) :
    Reads limit (readNode order runtimeCall index) fun n bs =>
      n.opcode ≠ runtimeCall ∧ bs = writeNode order n := by
  unfold readNode
  refine Reads.congr (Reads.u8.bindBytes fun opcode => Reads.u8.bindBytes fun encodedType =>
    Reads.u16.bindBytes fun reserved => Reads.u32.bindBytes fun lhs =>
    Reads.u32.bindBytes fun rhs => Reads.u32.bindBytes fun auxiliary =>
    Reads.u32.bindBytes fun argumentBegin => Reads.u32.bindBytes fun argumentCount =>
    Reads.u32.bindBytes fun memoryAccess => Reads.u32.bindBytes fun frameSlot =>
    Reads.u32.bindBytes fun trustedObject => Reads.u32.bindBytes fun atomicAccess =>
    Reads.u64.bindBytes fun immediate => Reads.expectThen fun _ => orRejectThen fun op _ =>
    Reads.expectThen fun _ => orRejectThen fun type _ => Reads.pure _) fun n bs => ?_
  constructor
  · rintro ⟨opcode, _, ⟨encodedType, _, ⟨reserved, _, ⟨lhs, _, ⟨rhs, _, ⟨auxiliary, _,
      ⟨argumentBegin, _, ⟨argumentCount, _, ⟨memoryAccess, _, ⟨frameSlot, _, ⟨trustedObject, _,
      ⟨atomicAccess, _, ⟨immediate, _, ⟨rfl, op, hop, hcall, type, htype, rfl, rfl⟩, rfl⟩, rfl⟩,
      rfl⟩, rfl⟩, rfl⟩, rfl⟩, rfl⟩, rfl⟩, rfl⟩, rfl⟩, rfl⟩, rfl⟩, rfl⟩
    obtain ⟨-, rfl⟩ := (enumOfByte_eq_some_iff hnodup hlength).mp hop
    obtain rfl := valueType_ofByte_iff.mp htype
    exact ⟨hcall, by simp only [writeNode, List.append_assoc, List.append_nil]⟩
  · rintro ⟨hcall, rfl⟩
    refine ⟨enumByte order n.opcode, _, ⟨enumByte ValueType.order n.type, _, ⟨0, _,
      ⟨n.lhs.id, _, ⟨n.rhs.id, _, ⟨n.auxiliary.id, _, ⟨n.argumentBegin, _, ⟨n.argumentCount, _,
      ⟨n.memoryAccess, _, ⟨n.frameSlot, _, ⟨n.trustedObject, _, ⟨n.atomicAccess, _,
      ⟨n.immediate, [], ⟨rfl, n.opcode,
        (enumOfByte_eq_some_iff hnodup hlength).mpr ⟨hall _, rfl⟩, hcall, n.type,
        valueType_ofByte_iff.mpr rfl, rfl, rfl⟩, rfl⟩, rfl⟩, rfl⟩, rfl⟩, rfl⟩, rfl⟩, rfl⟩, rfl⟩,
      rfl⟩, rfl⟩, rfl⟩, rfl⟩, ?_⟩
    simp only [writeNode, List.append_assoc, List.append_nil]

end nodes

/-- Reading a scalar's type inverts writing it. -/
lemma reads_scalarType {e : Status} :
    Reads limit (readScalarType e) fun type bs =>
      isScalarValueType type = true ∧ bs = writeType type := by
  unfold readScalarType
  refine Reads.congr (Reads.u8.bindBytes fun encoded =>
      orRejectThen fun type _ => Reads.expectThen fun _ =>
    Reads.pure _) fun type bs => ?_
  constructor
  · rintro ⟨encoded, _, ⟨type, htype, hscalar, rfl, rfl⟩, rfl⟩
    obtain rfl := valueType_ofByte_iff.mp htype
    exact ⟨hscalar, rfl⟩
  · rintro ⟨hscalar, rfl⟩
    exact ⟨_, [], ⟨type, valueType_ofByte_iff.mpr rfl, hscalar, rfl, rfl⟩, rfl⟩

/-- Reading a value inverts writing it. -/
lemma reads_value {e : Status} :
    Reads limit (readValue e) fun v bs => True ∧ bs = writeValue v := by
  unfold readValue
  refine Reads.congr (Reads.u32.bindBytes fun id => Reads.pure _) fun v bs => ?_
  constructor
  · rintro ⟨id, _, ⟨rfl, rfl⟩, rfl⟩
    exact ⟨trivial, List.append_nil _⟩
  · rintro ⟨-, rfl⟩
    exact ⟨v.id, [], ⟨rfl, rfl⟩, (List.append_nil _).symm⟩

/-- Memory flags: two bits, in both directions. -/
lemma memoryFlags_iff {flags : Byte} {signExtend isVolatile : Bool} :
    (flags &&& ~~~3 = 0 ∧ signExtend = (flags &&& 1 != 0) ∧ isVolatile = (flags &&& 2 != 0)) ↔
      flags = (if signExtend then 1 else 0) ||| (if isVolatile then 2 else 0) := by
  revert flags
  cases signExtend <;> cases isVolatile <;> decide

/-- Reading a memory access inverts writing it. -/
lemma reads_memory :
    Reads limit readMemory fun access bs => True ∧ bs = writeMemory access := by
  unfold readMemory
  refine Reads.congr (Reads.u32.bindBytes fun region => Reads.u32.bindBytes fun aliasClass =>
    Reads.u8.bindBytes fun width => Reads.u8.bindBytes fun alignment =>
    Reads.u8.bindBytes fun byteOrder => Reads.u8.bindBytes fun flags =>
    orRejectThen fun width _ => orRejectThen fun byteOrder _ => Reads.expectThen fun _ =>
    Reads.pure _) fun access bs => ?_
  constructor
  · rintro ⟨region, _, ⟨aliasClass, _, ⟨width, _, ⟨alignment, _, ⟨byteOrder, _, ⟨flags, _,
      ⟨width', hwidth, byteOrder', hbyteOrder, hflags, rfl, rfl⟩, rfl⟩, rfl⟩, rfl⟩, rfl⟩, rfl⟩,
      rfl⟩
    obtain rfl := decodeMemoryWidth_iff.mp hwidth
    obtain rfl := memoryByteOrder_ofByte_iff.mp hbyteOrder
    refine ⟨trivial, ?_⟩
    simp only [writeMemory, memoryFlags, List.append_assoc, List.append_nil]
    rw [← memoryFlags_iff.mp ⟨hflags, rfl, rfl⟩]
  · rintro ⟨-, rfl⟩
    obtain ⟨hflags, hsign, hvolatile⟩ :=
      memoryFlags_iff.mpr (rfl : memoryFlags access = memoryFlags access)
    refine ⟨access.region, _, ⟨access.aliasClass, _, ⟨access.width.code, _, ⟨access.alignment, _,
      ⟨enumByte MemoryByteOrder.order access.byteOrder, _, ⟨memoryFlags access, [],
        ⟨access.width, decodeMemoryWidth_iff.mpr rfl, access.byteOrder,
          memoryByteOrder_ofByte_iff.mpr rfl, hflags, ?_, rfl⟩, rfl⟩, rfl⟩, rfl⟩, rfl⟩, rfl⟩, ?_⟩
    · rw [← hsign, ← hvolatile]
    · simp only [writeMemory, List.append_assoc, List.append_nil]

/-- Reading an atomic access inverts writing it. -/
lemma reads_atomic (index : Nat) :
    Reads limit (readAtomic index) fun access bs => True ∧ bs = writeAtomic access := by
  unfold readAtomic
  refine Reads.congr ((reads_memory.rejectAs _).bindEq fun memory _ =>
    Reads.u8.bindBytes fun order => Reads.u8.bindBytes fun failureOrder =>
    Reads.u8.bindBytes fun strength => Reads.u8.bindBytes fun reserved =>
    Reads.expectThen fun _ => orRejectThen fun order _ => orRejectThen fun failureOrder _ =>
    orRejectThen fun strength _ => Reads.pure _) fun access bs => ?_
  constructor
  · rintro ⟨memory, -, _, ⟨order, _, ⟨failureOrder, _, ⟨strength, _, ⟨reserved, _, ⟨rfl, order',
      horder, failureOrder', hfailure, strength', hstrength, rfl, rfl⟩, rfl⟩, rfl⟩, rfl⟩, rfl⟩,
      rfl⟩
    obtain rfl := atomicOrder_ofByte_iff.mp horder
    obtain rfl := atomicOrder_ofByte_iff.mp hfailure
    obtain rfl := strength_ofByte_iff.mp hstrength
    exact ⟨trivial, by simp only [writeAtomic, List.append_assoc, List.append_nil]⟩
  · rintro ⟨-, rfl⟩
    refine ⟨access.memory, trivial, _, ⟨enumByte AtomicMemoryOrder.enumOrder access.order, _,
      ⟨enumByte AtomicMemoryOrder.enumOrder access.failureOrder, _,
      ⟨enumByte AtomicCompareExchangeStrength.enumOrder access.strength, _, ⟨0, [], ⟨rfl,
        access.order, atomicOrder_ofByte_iff.mpr rfl, access.failureOrder,
        atomicOrder_ofByte_iff.mpr rfl, access.strength, strength_ofByte_iff.mpr rfl, rfl, rfl⟩,
      rfl⟩, rfl⟩, rfl⟩, rfl⟩, ?_⟩
    simp only [writeAtomic, List.append_assoc, List.append_nil]

/-- The frame-slot flag: one bit, in both directions. -/
lemma frameFlag_iff {flags : Byte} {sensitive : Bool} :
    (flags &&& ~~~1 = 0 ∧ sensitive = (flags &&& 1 != 0)) ↔ flags = if sensitive then 1 else 0 := by
  revert flags
  cases sensitive <;> decide

/-- Reading a frame slot inverts writing it. -/
lemma reads_frameSlot (index : Nat) :
    Reads limit (readFrameSlot index) fun slot bs =>
      isScalarValueType slot.type = true ∧ bs = writeFrameSlot slot := by
  unfold readFrameSlot
  refine Reads.congr (Reads.u8.bindBytes fun encodedType => Reads.u8.bindBytes fun flags =>
    Reads.u16.bindBytes fun reserved => orRejectThen fun type _ => Reads.expectThen fun _ =>
    Reads.pure _) fun slot bs => ?_
  constructor
  · rintro ⟨encodedType, _, ⟨flags, _, ⟨reserved, _, ⟨type, htype, ⟨hscalar, hflags, rfl⟩, rfl, rfl⟩,
      rfl⟩, rfl⟩, rfl⟩
    obtain rfl := valueType_ofByte_iff.mp htype
    refine ⟨hscalar, ?_⟩
    simp only [writeFrameSlot, List.append_assoc, List.append_nil]
    rw [← frameFlag_iff.mp ⟨hflags, rfl⟩]
  · rintro ⟨hscalar, rfl⟩
    obtain ⟨hflags, hsensitive⟩ := frameFlag_iff.mpr
      (rfl : (if slot.sensitive then 1 else 0 : Byte) = if slot.sensitive then 1 else 0)
    refine ⟨enumByte ValueType.order slot.type, _, ⟨if slot.sensitive then 1 else 0, _, ⟨0, [],
      ⟨slot.type, valueType_ofByte_iff.mpr rfl, ⟨hscalar, hflags, rfl⟩, ?_, rfl⟩, rfl⟩, rfl⟩, ?_⟩
    · rw [← hsensitive]
    · simp only [writeFrameSlot, List.append_assoc, List.append_nil]

/-- Reading a trusted object inverts writing it. -/
lemma reads_trustedObject (index : Nat) :
    Reads limit (readTrustedObject index) fun object bs =>
      object.byteSize ≤ kMaximumSize ∧ bs = writeTrustedObject object := by
  unfold readTrustedObject
  refine Reads.congr (Reads.u64.bindBytes fun identity => Reads.u64.bindBytes fun byteSize =>
    Reads.expectThen fun _ => Reads.pure _) fun object bs => ?_
  constructor
  · rintro ⟨identity, _, ⟨byteSize, _, ⟨hsize, rfl, rfl⟩, rfl⟩, rfl⟩
    refine ⟨hsize, ?_⟩
    simp only [writeTrustedObject, List.append_nil, BitVec.ofNat_toNat, BitVec.setWidth_eq]
  · rintro ⟨hsize, rfl⟩
    have htoNat : (BitVec.ofNat 64 object.byteSize).toNat = object.byteSize := by
      rw [BitVec.toNat_ofNat, Nat.mod_eq_of_lt]
      unfold kMaximumSize at hsize
      omega
    refine ⟨object.layoutIdentity, _, ⟨BitVec.ofNat 64 object.byteSize, [], ⟨?_, ?_, rfl⟩, rfl⟩, ?_⟩
    · rw [htoNat]
      exact hsize
    · rw [htoNat]
    · simp only [writeTrustedObject, List.append_nil]

/-- Reserved bytes are zeros. -/
lemma eq_replicate_zero_iff {bs : List Byte} {n : Nat} :
    (bs.length = n ∧ ∀ b ∈ bs, b = 0) ↔ bs = List.replicate n 0 :=
  List.eq_replicate_iff.symm

/-- Reading a patch cell inverts writing it. -/
lemma reads_patchCell (index : Nat) :
    Reads limit (readPatchCell index) fun cell bs => True ∧ bs = writePatchCell cell := by
  unfold readPatchCell
  refine Reads.congr (Reads.u64.bindBytes fun initialValue => Reads.u8.bindBytes fun kind =>
    Reads.raw.bind fun reserved _ _ => Reads.expectThen fun _ => orRejectThen fun kind _ =>
    Reads.pure _) fun cell bs => ?_
  constructor
  · rintro ⟨initialValue, _, ⟨kind, _, ⟨reserved, _, _, ⟨hlength, rfl⟩, ⟨hzero, kind', hkind, rfl,
      rfl⟩, rfl⟩, rfl⟩, rfl⟩
    obtain rfl := patchCellKind_ofByte_iff.mp hkind
    obtain rfl := eq_replicate_zero_iff.mp ⟨hlength, hzero⟩
    exact ⟨trivial, by simp only [writePatchCell, List.append_assoc, List.append_nil]⟩
  · rintro ⟨-, rfl⟩
    refine ⟨cell.initialValue, _, ⟨enumByte PatchCellKind.order cell.kind, _,
      ⟨List.replicate 7 0, List.replicate 7 0, [], ⟨rfl, rfl⟩, ⟨by simp, cell.kind,
        patchCellKind_ofByte_iff.mpr rfl, rfl, rfl⟩, rfl⟩, rfl⟩, ?_⟩
    simp only [writePatchCell, List.append_assoc, List.append_nil]

/-- Reading a vector constant inverts writing it. -/
lemma reads_vectorConstant :
    Reads limit readVectorConstant fun constant bs => True ∧ bs = writeVectorConstant constant := by
  unfold readVectorConstant
  refine Reads.congr (Reads.raw.bind fun bytes _ _ => Reads.pure _) fun constant bs => ?_
  constructor
  · rintro ⟨bytes, _, _, ⟨hlength, rfl⟩, ⟨rfl, rfl⟩, rfl⟩
    refine ⟨trivial, ?_⟩
    rw [writeVectorConstant, leBytes_ofLeBytes (by omega) hlength, List.append_nil]
  · rintro ⟨-, rfl⟩
    exact ⟨_, _, [], ⟨length_leBytes _ _, rfl⟩, ⟨(ofLeBytes_leBytes (n := 16) rfl _).symm, rfl⟩,
      (List.append_nil _).symm⟩

/-- The sixteen lane bytes survive as a vector. -/
lemma toList_shuffleLanes {bytes : List Byte} (hlength : bytes.length = 16) :
    (shuffleLanes bytes).toList = bytes := by
  apply List.ext_getElem (by simp [hlength])
  intro i hi hi'
  simp [shuffleLanes, List.getD, hi']

/-- A vector of lanes survives as its bytes. -/
lemma shuffleLanes_toList (lanes : Vector Byte 16) : shuffleLanes lanes.toList = lanes := by
  ext i hi
  simp [shuffleLanes, List.getD]

/-- Reading a shuffle inverts writing it. -/
lemma reads_vectorShuffle (index : Nat) :
    Reads limit (readVectorShuffle index) fun shuffle bs =>
      shuffle.laneCount.toNat ≤ 16 ∧ bs = writeVectorShuffle shuffle := by
  unfold readVectorShuffle
  refine Reads.congr (Reads.raw.bind fun lanes _ _ => Reads.u8.bindBytes fun laneCount =>
    Reads.raw.bind fun reserved _ _ => Reads.expectThen fun _ => Reads.pure _) fun shuffle bs => ?_
  constructor
  · rintro ⟨lanes, _, _, ⟨hlanes, rfl⟩, ⟨laneCount, _, ⟨reserved, _, _, ⟨hlength, rfl⟩,
      ⟨⟨hcount, hzero⟩, rfl, rfl⟩, rfl⟩, rfl⟩, rfl⟩
    obtain rfl := eq_replicate_zero_iff.mp ⟨hlength, hzero⟩
    refine ⟨hcount, ?_⟩
    simp only [writeVectorShuffle, toList_shuffleLanes hlanes, List.append_assoc, List.append_nil]
  · rintro ⟨hcount, rfl⟩
    refine ⟨shuffle.lanes.toList, _, _, ⟨by simp, rfl⟩, ⟨shuffle.laneCount, _,
      ⟨List.replicate 7 0, List.replicate 7 0, [], ⟨rfl, rfl⟩, ⟨⟨hcount, by simp⟩, ?_, rfl⟩, rfl⟩,
      rfl⟩, ?_⟩
    · rw [shuffleLanes_toList]
    · simp only [writeVectorShuffle, List.append_assoc, List.append_nil]

/-! ## Tables -/

/-- No table of the payload is longer than `limit`. -/
def Manifest.Bounded (m : Manifest) (limit : Nat) : Prop :=
  ∀ count ∈ m.records.map Prod.fst, count.toNat ≤ limit

/-- Reading a table inverts writing its items in order. -/
lemma reads_table {α : Type} {item : Nat → Reading Status α} {encode : α → List Byte} {P : α → Prop}
    {count : Nat} (hcount : count ≤ limit)
    (hitem : ∀ i, Reads limit (item i) fun a bs => P a ∧ bs = encode a) :
    Reads limit (readTable count item) fun as bs =>
      (as.length = count ∧ ∀ a ∈ as, P a) ∧ bs = as.flatMap encode :=
  Reads.reserveThen hcount (Reads.table hitem 0 count)

/-- Reading a list of values inverts writing it. -/
lemma reads_values {e : Status} {count : Nat} (hcount : count ≤ limit) :
    Reads limit (readValues e count) fun values bs =>
      values.length = count ∧ bs = values.flatMap writeValue := by
  refine (reads_table hcount fun _ => reads_value (e := e)).congr fun values bs => ?_
  simp

/-! ## Fast calls -/

/-- The bytes of a fast-call header. -/
def writeHeader (header : ValueType × BitVec 32) : List Byte :=
  [enumByte ValueType.order header.1] ++ [0] ++ leBytes 2 (0 : BitVec 16) ++ leBytes 4 header.2

/-- One more header is read while the parameter types still fit the count. -/
lemma reads_fastCallHeader (m : Manifest) (index : Nat)
    (s : List (ValueType × BitVec 32) × Nat) (hs : s.2 ≤ kMaximumSize) :
    Reads limit (readFastCallHeader m index s) fun s' bs => ∃ header : ValueType × BitVec 32,
      (isScalarValueType header.1 = true ∧
        s.2 + header.2.toNat ≤ m.fastCallSignatureValues.toNat) ∧
      s' = (s.1 ++ [header], s.2 + header.2.toNat) ∧ bs = writeHeader header := by
  have hmax : m.fastCallSignatureValues.toNat ≤ kMaximumSize := by
    have := m.fastCallSignatureValues.isLt
    unfold kMaximumSize
    omega
  unfold readFastCallHeader
  refine Reads.congr (Reads.u8.bindBytes fun encodedReturn => Reads.u8.bindBytes fun reserved8 =>
    Reads.u16.bindBytes fun reserved16 => Reads.u32.bindBytes fun parameterCount =>
    Reads.expectThen fun _ => orRejectThen fun returnType _ => Reads.expectThen fun _ =>
    monitoredThen (checkedAdd_eq _ hs) (orRejectThen fun signatureCount _ =>
    Reads.expectThen fun _ => Reads.pure _)) fun s' bs => ?_
  constructor
  · rintro ⟨encodedReturn, _, ⟨reserved8, _, ⟨reserved16, _, ⟨parameterCount, _, ⟨⟨rfl, rfl⟩,
      returnType, hreturn, hscalar, signatureCount, hsum, hcount, rfl, rfl⟩, rfl⟩, rfl⟩, rfl⟩, rfl⟩
    obtain rfl := valueType_ofByte_iff.mp hreturn
    split_ifs at hsum
    obtain rfl := Option.some.inj hsum
    refine ⟨(returnType, parameterCount), ⟨hscalar, hcount⟩, rfl, ?_⟩
    simp only [writeHeader, List.append_assoc, List.append_nil]
  · rintro ⟨⟨returnType, parameterCount⟩, ⟨hscalar, hcount⟩, rfl, rfl⟩
    refine ⟨enumByte ValueType.order returnType, _, ⟨0, _, ⟨0, _, ⟨parameterCount, [], ⟨⟨rfl, rfl⟩,
      returnType, valueType_ofByte_iff.mpr rfl, hscalar, _, if_pos (hcount.trans hmax), hcount,
      rfl, rfl⟩, rfl⟩, rfl⟩, rfl⟩, ?_⟩
    simp only [writeHeader, List.append_assoc, List.append_nil]

/-- Headers are accepted when their types are scalar and their counts add up to no more than the
manifest says. -/
lemma accepted_headers {m : Manifest} {headers : List (ValueType × BitVec 32)}
    {s : List (ValueType × BitVec 32) × Nat} (hs : s.2 ≤ m.fastCallSignatureValues.toNat) :
    Accepted
        (fun s header => isScalarValueType header.1 = true ∧
          s.2 + header.2.toNat ≤ m.fastCallSignatureValues.toNat)
        (fun s (header : ValueType × BitVec 32) => (s.1 ++ [header], s.2 + header.2.toNat)) s
        headers ↔
      (∀ header ∈ headers, isScalarValueType header.1 = true) ∧
        s.2 + (headers.map fun header => header.2.toNat).sum ≤
          m.fastCallSignatureValues.toNat := by
  induction headers generalizing s with
  | nil => simpa [Accepted] using hs
  | cons header headers ih =>
      rw [Accepted, List.map_cons, List.sum_cons, List.forall_mem_cons]
      constructor
      · rintro ⟨⟨hscalar, hle⟩, hrest⟩
        obtain ⟨hall, hsum⟩ := (ih hle).mp hrest
        exact ⟨⟨hscalar, hall⟩, by simpa [Nat.add_assoc] using hsum⟩
      · rintro ⟨⟨hscalar, hall⟩, hsum⟩
        refine ⟨⟨hscalar, by omega⟩, (ih (by simp only; omega)).mpr ⟨hall, ?_⟩⟩
        simpa [Nat.add_assoc] using hsum

/-- What the loop over the headers has gathered. -/
lemma foldl_headers (headers : List (ValueType × BitVec 32))
    (s : List (ValueType × BitVec 32) × Nat) :
    headers.foldl (fun s header => (s.1 ++ [header], s.2 + header.2.toNat)) s =
      (s.1 ++ headers, s.2 + (headers.map fun header => header.2.toNat).sum) := by
  induction headers generalizing s with
  | nil => simp
  | cons header headers ih => simp [ih, Nat.add_assoc]

/-- The header of a descriptor. -/
def fastCallHeader (d : FastCallDescriptor) : ValueType × BitVec 32 :=
  (d.returnType, BitVec.ofNat 32 d.parameterTypes.length)

/-- Reading the parameter types inverts writing them. -/
lemma reads_fastCallTypes {headers : List (ValueType × BitVec 32)}
    (hbound : ∀ header ∈ headers, header.2.toNat ≤ limit) :
    Reads limit (readFastCallTypes headers) fun ds bs =>
      (ds.map fastCallHeader = headers ∧ ∀ d ∈ ds, d.parameterTypes.length < 2 ^ 32 ∧
        ∀ type ∈ d.parameterTypes, isScalarValueType type = true) ∧
      bs = ds.flatMap fun d => d.parameterTypes.flatMap writeType := by
  induction headers with
  | nil =>
      refine (Reads.pure []).congr fun ds bs => ?_
      constructor
      · rintro ⟨rfl, rfl⟩
        simp
      · rintro ⟨⟨hmap, -⟩, rfl⟩
        obtain rfl := List.map_eq_nil_iff.mp hmap
        simp
  | cons header headers ih =>
      obtain ⟨returnType, parameterCount⟩ := header
      unfold readFastCallTypes
      refine Reads.congr (Reads.reserveThen (hbound (returnType, parameterCount) (by simp))
        ((Reads.table (fun _ => reads_scalarType) 0 _).bindEq fun types _ =>
          (ih fun header hmem => hbound header (by simp [hmem])).bindEq fun ds _ =>
          Reads.pure _)) fun all bs => ?_
      constructor
      · rintro ⟨types, ⟨hlength, hscalar⟩, _, ⟨ds, ⟨rfl, hds⟩, _, ⟨rfl, rfl⟩, rfl⟩, rfl⟩
        refine ⟨⟨?_, ?_⟩, by simp⟩
        · simp [fastCallHeader, hlength]
        · rw [List.forall_mem_cons]
          exact ⟨⟨hlength ▸ parameterCount.isLt, hscalar⟩, hds⟩
      · rintro ⟨⟨hmap, hall⟩, rfl⟩
        cases all with
        | nil => simp at hmap
        | cons d ds =>
            rw [List.map_cons, List.cons.injEq] at hmap
            obtain ⟨hheader, rfl⟩ := hmap
            rw [List.forall_mem_cons] at hall
            obtain ⟨rfl, rfl⟩ : d.returnType = returnType ∧
                BitVec.ofNat 32 d.parameterTypes.length = parameterCount := by
              simpa [fastCallHeader] using hheader
            refine ⟨d.parameterTypes, ⟨?_, hall.1.2⟩, _, ⟨ds, ⟨rfl, hall.2⟩, [], ⟨rfl, rfl⟩, rfl⟩, ?_⟩
            · rw [BitVec.toNat_ofNat, Nat.mod_eq_of_lt hall.1.1]
            · simp

/-- Reading the headers inverts writing them. -/
lemma reads_fastCallHeaders {m : Manifest} (hm : m.Bounded limit) :
    Reads limit (readFastCallHeaders m) fun headers bs =>
      (headers.length = m.fastCalls.toNat ∧
        (∀ header ∈ headers, isScalarValueType header.1 = true) ∧
        (headers.map fun header => header.2.toNat).sum = m.fastCallSignatureValues.toNat) ∧
      bs = headers.flatMap writeHeader := by
  have hcalls : m.fastCalls.toNat ≤ limit := hm _ (by simp [Manifest.records])
  have hkeep : ∀ (s : List (ValueType × BitVec 32) × Nat) (header : ValueType × BitVec 32),
      s.2 ≤ kMaximumSize → isScalarValueType header.1 = true ∧
        s.2 + header.2.toNat ≤ m.fastCallSignatureValues.toNat →
      s.2 + header.2.toNat ≤ kMaximumSize := by
    intro s header _ h
    have := m.fastCallSignatureValues.isLt
    unfold kMaximumSize
    omega
  unfold readFastCallHeaders
  refine Reads.congr (Reads.reserveThen hcalls
    ((Reads.loop (reads_fastCallHeader m) hkeep 0 _ (Nat.zero_le _)).bind fun s _ _ =>
      Reads.expectThen fun _ => Reads.pure s.1)) fun headers bs => ?_
  constructor
  · rintro ⟨_, _, _, ⟨headers', hlength, haccepted, rfl, rfl⟩, ⟨hcount, rfl, rfl⟩, rfl⟩
    obtain ⟨hscalar, -⟩ := (accepted_headers (Nat.zero_le _)).mp haccepted
    rw [foldl_headers] at hcount ⊢
    simp only [List.nil_append, Nat.zero_add] at hcount ⊢
    exact ⟨⟨hlength, hscalar, hcount⟩, List.append_nil _⟩
  · rintro ⟨⟨hlength, hscalar, hcount⟩, rfl⟩
    refine ⟨_, _, [], ⟨headers, hlength, (accepted_headers (Nat.zero_le _)).mpr ⟨hscalar, ?_⟩,
      rfl, rfl⟩, ?_, (List.append_nil _).symm⟩
    · simpa using hcount.le
    · rw [foldl_headers]
      simpa using hcount

/-- What the decoder demands of the fast-call table. -/
structure FastCallsOk (m : Manifest) (ds : List FastCallDescriptor) : Prop where
  length : ds.length = m.fastCalls.toNat
  total : (ds.map fun d => d.parameterTypes.length).sum = m.fastCallSignatureValues.toNat
  returnType : ∀ d ∈ ds, isScalarValueType d.returnType = true
  parameterTypes : ∀ d ∈ ds, ∀ type ∈ d.parameterTypes, isScalarValueType type = true

/-- An item is no larger than the sum of all. -/
lemma le_of_mem_of_sum {α : Type} {size : α → Nat} {xs : List α} {n : Nat}
    (hsum : (xs.map size).sum = n) {x : α} (hx : x ∈ xs) : size x ≤ n :=
  hsum ▸ List.single_le_sum (by simp) _ (List.mem_map_of_mem hx)

/-- Reading the fast calls inverts writing them. -/
lemma reads_fastCalls {m : Manifest} (hm : m.Bounded limit) :
    Reads limit (readFastCalls m) fun ds bs => FastCallsOk m ds ∧
      bs = ds.flatMap writeFastCallHeader ++
        ds.flatMap fun d => d.parameterTypes.flatMap writeType := by
  have hcalls : m.fastCalls.toNat ≤ limit := hm _ (by simp [Manifest.records])
  have hvalues : m.fastCallSignatureValues.toNat ≤ limit := hm _ (by simp [Manifest.records])
  have hwire := m.fastCallSignatureValues.isLt
  have hheaders : ∀ ds : List FastCallDescriptor, (ds.map fastCallHeader).flatMap writeHeader =
      ds.flatMap writeFastCallHeader := by
    intro ds
    rw [List.flatMap_map]
    rfl
  have hsizes : ∀ ds : List FastCallDescriptor, (∀ d ∈ ds, d.parameterTypes.length < 2 ^ 32) →
      ((ds.map fastCallHeader).map fun header => header.2.toNat) =
        ds.map fun d => d.parameterTypes.length := by
    intro ds hsmall
    rw [List.map_map]
    refine List.map_congr_left fun d hd => ?_
    simp only [Function.comp_apply, fastCallHeader, BitVec.toNat_ofNat]
    exact Nat.mod_eq_of_lt (hsmall d hd)
  unfold readFastCalls
  refine Reads.congr ((reads_fastCallHeaders hm).bindEq fun headers h =>
    Reads.reserveThen (h.1 ▸ hcalls) (reads_fastCallTypes fun header hmem =>
      (le_of_mem_of_sum h.2.2 hmem).trans hvalues))
    fun ds bs => ?_
  constructor
  · rintro ⟨_, ⟨hlength, hscalar, hsum⟩, _, ⟨⟨rfl, hds⟩, rfl⟩, rfl⟩
    rw [hsizes ds fun d hd => (hds d hd).1] at hsum
    refine ⟨⟨by simpa using hlength, hsum, fun d hd => ?_, fun d hd => (hds d hd).2⟩, ?_⟩
    · exact hscalar _ (List.mem_map_of_mem hd)
    · rw [hheaders]
  · rintro ⟨hok, rfl⟩
    have hsmall : ∀ d ∈ ds, d.parameterTypes.length < 2 ^ 32 := fun d hd =>
      (le_of_mem_of_sum hok.total hd).trans_lt hwire
    refine ⟨ds.map fastCallHeader, ⟨by simpa using hok.length, ?_, ?_⟩, _,
      ⟨⟨rfl, fun d hd => ⟨hsmall d hd, hok.parameterTypes d hd⟩⟩, rfl⟩, by rw [hheaders]⟩
    · intro header hmem
      obtain ⟨d, hd, rfl⟩ := List.mem_map.mp hmem
      exact hok.returnType d hd
    · rw [hsizes ds hsmall]
      exact hok.total

/-! ## Side tables -/

/-- What the decoder demands of the side tables, the counts of the manifest included. -/
structure TablesOk (m : Manifest) (t : SideTables) : Prop where
  callArguments : t.callArguments.length = m.callArguments.toNat
  fastCalls : FastCallsOk m t.fastCalls
  memoryRegionCount : t.memoryRegionCount = m.memoryRegions.toNat
  memoryAccesses : t.memoryAccesses.length = m.memoryAccesses.toNat
  atomicAccesses : t.atomicAccesses.length = m.atomicAccesses.toNat
  frameSlots : t.frameSlots.length = m.frameSlots.toNat ∧
    ∀ slot ∈ t.frameSlots, isScalarValueType slot.type = true
  trustedObjects : t.trustedObjects.length = m.trustedObjects.toNat ∧
    ∀ object ∈ t.trustedObjects, object.byteSize ≤ kMaximumSize
  patchCells : t.patchCells.length = m.patchCells.toNat
  vectorConstants : t.vectorConstants.length = m.vectorConstants.toNat
  vectorShuffles : t.vectorShuffles.length = m.vectorShuffles.toNat ∧
    ∀ shuffle ∈ t.vectorShuffles, shuffle.laneCount.toNat ≤ 16
  vectorSelectArguments : t.vectorSelectArguments.length = m.vectorSelectArguments.toNat

/-- Reading the side tables inverts writing them. -/
lemma reads_afterNodes {m : Manifest} (hm : m.Bounded limit) :
    Reads limit (readAfterNodes m) fun t bs => TablesOk m t ∧ bs = writeAfterNodes t := by
  have hbound : ∀ count ∈ m.records.map Prod.fst, count.toNat ≤ limit := hm
  simp only [Manifest.records, List.map_cons, List.map_nil, List.forall_mem_cons] at hbound
  obtain ⟨-, -, hcall, -, -, hmemory, hatomic, hframe, hobject, hcell, hconstant, hshuffle, hselect,
    -⟩ := hbound
  unfold readAfterNodes
  refine Reads.congr ((reads_values hcall).bindEq fun callArguments _ =>
    (reads_fastCalls hm).bindEq fun fastCalls _ =>
    (reads_table hmemory fun _ => reads_memory).bindEq fun memoryAccesses _ =>
    (reads_table hatomic reads_atomic).bindEq fun atomicAccesses _ =>
    (reads_table hframe reads_frameSlot).bindEq fun frameSlots _ =>
    (reads_table hobject reads_trustedObject).bindEq fun trustedObjects _ =>
    (reads_table hcell reads_patchCell).bindEq fun patchCells _ =>
    (reads_table hconstant fun _ => reads_vectorConstant).bindEq fun vectorConstants _ =>
    (reads_table hshuffle reads_vectorShuffle).bindEq fun vectorShuffles _ =>
    (reads_values hselect).bindEq fun vectorSelectArguments _ => Reads.pure _) fun t bs => ?_
  constructor
  · rintro ⟨callArguments, h₁, _, ⟨fastCalls, h₂, _, ⟨memoryAccesses, h₃, _, ⟨atomicAccesses, h₄, _,
      ⟨frameSlots, h₅, _, ⟨trustedObjects, h₆, _, ⟨patchCells, h₇, _, ⟨vectorConstants, h₈, _,
      ⟨vectorShuffles, h₉, _, ⟨vectorSelectArguments, h₁₀, _, ⟨rfl, rfl⟩, rfl⟩, rfl⟩, rfl⟩, rfl⟩,
      rfl⟩, rfl⟩, rfl⟩, rfl⟩, rfl⟩, rfl⟩
    refine ⟨⟨h₁, h₂, rfl, h₃.1, h₄.1, h₅, h₆, h₇.1, h₈.1, h₉, h₁₀⟩, ?_⟩
    simp only [writeAfterNodes, List.append_assoc, List.append_nil]
  · rintro ⟨ht, rfl⟩
    refine ⟨t.callArguments, ht.callArguments, _, ⟨t.fastCalls, ht.fastCalls, _,
      ⟨t.memoryAccesses, ⟨ht.memoryAccesses, by simp⟩, _,
      ⟨t.atomicAccesses, ⟨ht.atomicAccesses, by simp⟩, _, ⟨t.frameSlots, ht.frameSlots, _,
      ⟨t.trustedObjects, ht.trustedObjects, _, ⟨t.patchCells, ⟨ht.patchCells, by simp⟩, _,
      ⟨t.vectorConstants, ⟨ht.vectorConstants, by simp⟩, _,
      ⟨t.vectorShuffles, ht.vectorShuffles, _, ⟨t.vectorSelectArguments, ht.vectorSelectArguments,
        [], ⟨?_, rfl⟩, rfl⟩, rfl⟩, rfl⟩, rfl⟩, rfl⟩, rfl⟩, rfl⟩, rfl⟩, rfl⟩, ?_⟩
    · rw [← ht.memoryRegionCount]
    · simp only [writeAfterNodes, List.append_assoc, List.append_nil]

/-! ## Straight-line bodies -/

/-- Reading the parameter types inverts writing them. -/
lemma reads_parameterTypes {m : Manifest} (hm : m.Bounded limit) :
    Reads limit (readParameterTypes m) fun types bs =>
      (types.length = m.parameters.toNat ∧ ∀ type ∈ types, isScalarValueType type = true) ∧
      bs = types.flatMap writeType :=
  reads_table (hm _ (by simp [Manifest.records])) fun _ => reads_scalarType

section nodes

variable {Op : Type} [DecidableEq Op]

/-- Reading the nodes inverts writing them. -/
lemma reads_nodes {order : List Op} (hnodup : order.Nodup) (hlength : order.length ≤ 256)
    (hall : ∀ o, o ∈ order) (runtimeCall : Op) {m : Manifest} (hm : m.Bounded limit) :
    Reads limit (readNodes order runtimeCall m.nodes.toNat) fun nodes bs =>
      (nodes.length = m.nodes.toNat ∧ ∀ n ∈ nodes, n.opcode ≠ runtimeCall) ∧
      bs = nodes.flatMap (writeNode order) :=
  reads_table (hm _ (by simp [Manifest.records])) (reads_node hnodup hlength hall runtimeCall)

end nodes

/-- The numbering has every opcode. -/
lemma mem_opcodeOrder : ∀ o, o ∈ Opcode.order := by
  intro o
  cases o with
  | parameter => decide
  | op o =>
      cases o with
      | binary o => cases o <;> decide
      | unary o => cases o <;> decide
      | memory o => cases o <;> decide
      | atomic o => cases o <;> decide
      | _ => decide

/-- The numbering has every opcode of a graph. -/
lemma mem_controlOpcodeOrder : ∀ o, o ∈ ControlOpcode.order := by
  intro o
  cases o with
  | parameter => decide
  | blockParameter => decide
  | op o =>
      cases o with
      | binary o => cases o <;> decide
      | unary o => cases o <;> decide
      | memory o => cases o <;> decide
      | atomic o => cases o <;> decide
      | _ => decide

/-- What the decoder demands of a function beyond its tables' bytes. -/
structure FunctionOk (m : Manifest) (f : Function) : Prop where
  parameterTypes : f.parameterTypes.length = m.parameters.toNat ∧
    ∀ type ∈ f.parameterTypes, isScalarValueType type = true
  nodes : f.nodes.length = m.nodes.toNat ∧ ∀ n ∈ f.nodes, n.opcode ≠ .op .call
  tables : TablesOk m f.toSideTables
  returnValue : f.returnValue.id = m.returnValue

/-- The tables of a straight-line package. -/
def writeFunction (f : Function) : List Byte :=
  f.parameterTypes.flatMap writeType ++ (f.nodes.flatMap (writeNode Opcode.order) ++
    writeAfterNodes f.toSideTables)

/-- **The body of a straight-line package** holds the function's tables, and nothing else. -/
lemma reads_function {m : Manifest} (hm : m.Bounded limit) :
    Reads limit (readFunction m) fun f bs => FunctionOk m f ∧ bs = writeFunction f := by
  unfold readFunction
  refine Reads.congr ((reads_parameterTypes hm).bindEq fun types _ =>
    (reads_nodes (by decide) (by decide) mem_opcodeOrder _ hm).bindEq fun nodes _ =>
    (reads_afterNodes hm).bindEq fun tables _ => Reads.pure _) fun f bs => ?_
  constructor
  · rintro ⟨types, htypes, _, ⟨nodes, hnodes, _, ⟨tables, htables, _, ⟨rfl, rfl⟩, rfl⟩, rfl⟩, rfl⟩
    refine ⟨⟨htypes, hnodes, htables, rfl⟩, ?_⟩
    simp only [writeFunction, List.append_nil]
  · rintro ⟨hf, rfl⟩
    refine ⟨f.parameterTypes, hf.parameterTypes, _, ⟨f.nodes, hf.nodes, _,
      ⟨f.toSideTables, hf.tables, [], ⟨?_, rfl⟩, rfl⟩, rfl⟩, ?_⟩
    · rw [← hf.returnValue]
    · simp only [writeFunction, List.append_nil]

/-! ## Blocks -/

/-- The bytes of a block record. -/
def writeBlockRecord (r : BlockRecord) : List Byte :=
  leBytes 4 r.parameterCount ++ leBytes 4 r.instructionCount ++ [r.terminator] ++ [0] ++
    leBytes 2 (0 : BitVec 16) ++ leBytes 4 r.value ++ leBytes 4 r.trueTarget ++
    leBytes 4 r.trueArgumentCount ++ leBytes 4 r.falseTarget ++ leBytes 4 r.falseArgumentCount

/-- What the decoder demands of a block record by itself. -/
def BlockRecord.Ok (r : BlockRecord) : Prop :=
  r.terminator ≤ 3 ∧ r.terminator ≠ 0 ∧ r.parameterCount ≤ r.instructionCount

/-- Reading the fixed part of a block inverts writing it. -/
lemma reads_blockRecord {e : Status} :
    Reads limit (readBlockRecord e) fun r bs => r.Ok ∧ bs = writeBlockRecord r := by
  unfold readBlockRecord
  refine Reads.congr (Reads.u32.bindBytes fun parameterCount =>
    Reads.u32.bindBytes fun instructionCount => Reads.u8.bindBytes fun terminator =>
    Reads.u8.bindBytes fun reserved8 => Reads.u16.bindBytes fun reserved16 =>
    Reads.u32.bindBytes fun value => Reads.u32.bindBytes fun trueTarget =>
    Reads.u32.bindBytes fun trueArgumentCount => Reads.u32.bindBytes fun falseTarget =>
    Reads.u32.bindBytes fun falseArgumentCount => Reads.expectThen fun _ => Reads.pure _)
    fun r bs => ?_
  constructor
  · rintro ⟨parameterCount, _, ⟨instructionCount, _, ⟨terminator, _, ⟨reserved8, _, ⟨reserved16, _,
      ⟨value, _, ⟨trueTarget, _, ⟨trueArgumentCount, _, ⟨falseTarget, _, ⟨falseArgumentCount, _,
      ⟨⟨rfl, rfl, hok⟩, rfl, rfl⟩, rfl⟩, rfl⟩, rfl⟩, rfl⟩, rfl⟩, rfl⟩, rfl⟩, rfl⟩, rfl⟩, rfl⟩
    exact ⟨hok, by simp only [writeBlockRecord, List.append_assoc, List.append_nil]⟩
  · rintro ⟨hok, rfl⟩
    refine ⟨r.parameterCount, _, ⟨r.instructionCount, _, ⟨r.terminator, _, ⟨0, _, ⟨0, _,
      ⟨r.value, _, ⟨r.trueTarget, _, ⟨r.trueArgumentCount, _, ⟨r.falseTarget, _,
      ⟨r.falseArgumentCount, [], ⟨⟨rfl, rfl, hok⟩, rfl, rfl⟩, rfl⟩, rfl⟩, rfl⟩, rfl⟩, rfl⟩, rfl⟩,
      rfl⟩, rfl⟩, rfl⟩, ?_⟩
    simp only [writeBlockRecord, List.append_assoc, List.append_nil]

/-- The record of a block. -/
def blockRecord (block : BasicBlock) : BlockRecord where
  parameterCount := BitVec.ofNat 32 block.parameters.length
  instructionCount := BitVec.ofNat 32 block.instructions.length
  terminator := terminatorByte block.terminator
  value := block.terminator.value.id
  trueTarget := block.terminator.trueEdge.target.id
  trueArgumentCount := BitVec.ofNat 32 block.terminator.trueEdge.arguments.length
  falseTarget := block.terminator.falseEdge.target.id
  falseArgumentCount := BitVec.ofNat 32 block.terminator.falseEdge.arguments.length

/-- The bytes of the lists behind a block record. -/
def writeBlockLists (block : BasicBlock) : List Byte :=
  block.instructions.flatMap writeValue ++
    (block.terminator.trueEdge.arguments.flatMap writeValue ++
      block.terminator.falseEdge.arguments.flatMap writeValue)

/-- A written block is its fixed part and its lists. -/
lemma writeBlock_eq (block : BasicBlock) :
    writeBlock block = writeBlockRecord (blockRecord block) ++ writeBlockLists block := by
  simp only [writeBlock, writeBlockRecord, blockRecord, writeBlockLists, List.append_assoc]

/-- What the decoder demands of a terminator. -/
def TerminatorOk : ControlTerminator → Prop
  | .none => False
  | .ret _ => True
  | .jump edge => edge.target.valid
  | .branch condition trueEdge falseEdge =>
      condition.valid ∧ trueEdge.target.valid ∧ falseEdge.target.valid

/-- What the decoder demands of a block. -/
structure BlockOk (block : BasicBlock) : Prop where
  instructions : block.instructions.length < 2 ^ 32
  parameters : block.parameters = block.instructions.take block.parameters.length
  trueArguments : block.terminator.trueEdge.arguments.length < 2 ^ 32
  falseArguments : block.terminator.falseEdge.arguments.length < 2 ^ 32
  terminator : TerminatorOk block.terminator

/-- A block lists its parameters among its instructions. -/
lemma BlockOk.parameters_le {block : BasicBlock} (h : BlockOk block) :
    block.parameters.length ≤ block.instructions.length := by
  have := congrArg List.length h.parameters
  rw [List.length_take] at this
  omega

lemma toNat_ofNat32 {n : Nat} (h : n < 2 ^ 32) : (BitVec.ofNat 32 n).toNat = n := by
  rw [BitVec.toNat_ofNat, Nat.mod_eq_of_lt h]

/-- The record of an acceptable block is acceptable. -/
lemma blockRecord_ok {block : BasicBlock} (h : BlockOk block) :
    (blockRecord block).Ok ∧ (blockRecord block).canonical := by
  have hcount : (blockRecord block).parameterCount ≤ (blockRecord block).instructionCount := by
    have hle := h.parameters_le
    have hlt := h.instructions
    simp only [blockRecord, BitVec.le_def]
    rw [toNat_ofNat32 (by omega), toNat_ofNat32 hlt]
    exact hle
  have hterminator := h.terminator
  unfold BlockRecord.Ok BlockRecord.canonical
  cases hkind : block.terminator with
  | none => simp [hkind, TerminatorOk] at hterminator
  | ret v =>
      refine ⟨⟨?_, ?_, hcount⟩, ?_⟩ <;> simp [blockRecord, hkind, terminatorByte,
        ControlTerminator.trueEdge, ControlTerminator.falseEdge, Block.invalid]
  | jump edge =>
      have hvalid : edge.target.id ≠ kInvalidIndex := by
        rw [hkind] at hterminator
        exact hterminator
      refine ⟨⟨?_, ?_, hcount⟩, ?_⟩ <;> simp [blockRecord, hkind, terminatorByte,
        ControlTerminator.trueEdge, ControlTerminator.falseEdge, ControlTerminator.value,
        Block.invalid, Value.invalid, hvalid]
  | branch c t f =>
      obtain ⟨hc, ht, hf⟩ : c.id ≠ kInvalidIndex ∧ t.target.id ≠ kInvalidIndex ∧
          f.target.id ≠ kInvalidIndex := by
        rw [hkind] at hterminator
        exact hterminator
      refine ⟨⟨?_, ?_, hcount⟩, ?_⟩ <;> simp [blockRecord, hkind, terminatorByte,
        ControlTerminator.trueEdge, ControlTerminator.falseEdge, ControlTerminator.value,
        hc, ht, hf]

/-- A terminator is recovered from its record and its edge arguments. -/
lemma decodedTerminator_blockRecord {block : BasicBlock} (h : TerminatorOk block.terminator) :
    decodedTerminator (blockRecord block) block.terminator.trueEdge.arguments
      block.terminator.falseEdge.arguments = block.terminator := by
  cases hkind : block.terminator <;>
    simp_all [TerminatorOk, decodedTerminator, blockRecord, terminatorByte,
      ControlTerminator.trueEdge, ControlTerminator.falseEdge, ControlTerminator.value]

/-- A block decoded from an acceptable record has this record. -/
lemma blockRecord_decoded {r : BlockRecord} (hok : r.Ok) (hcanonical : r.canonical)
    {instructions trueArguments falseArguments : List Value}
    (hinstructions : instructions.length = r.instructionCount.toNat)
    (htrue : trueArguments.length = r.trueArgumentCount.toNat)
    (hfalse : falseArguments.length = r.falseArgumentCount.toNat) :
    let block : BasicBlock := ⟨instructions.take r.parameterCount.toNat, instructions,
      decodedTerminator r trueArguments falseArguments⟩
    BlockOk block ∧ blockRecord block = r ∧
      block.terminator.trueEdge.arguments = trueArguments ∧
      block.terminator.falseEdge.arguments = falseArguments := by
  obtain ⟨parameterCount, instructionCount, terminator, value, trueTarget, trueArgumentCount,
    falseTarget, falseArgumentCount⟩ := r
  obtain ⟨hle, hne, hcount⟩ := hok
  obtain ⟨hret, hjump, hbranch⟩ := hcanonical
  simp only at hle hne hcount hret hjump hbranch hinstructions htrue hfalse ⊢
  have hcount : parameterCount.toNat ≤ instructionCount.toNat := hcount
  have hprefix : instructions.take parameterCount.toNat =
      instructions.take (instructions.take parameterCount.toNat).length := by
    rw [List.length_take, hinstructions, Nat.min_eq_left hcount]
  have hsmall := instructionCount.isLt
  have hsmallTrue := trueArgumentCount.isLt
  have hsmallFalse := falseArgumentCount.isLt
  have hlength : (instructions.take parameterCount.toNat).length = parameterCount.toNat := by
    rw [List.length_take, hinstructions, Nat.min_eq_left hcount]
  have hcases : ∀ b : Byte, b ≤ 3 → b ≠ 0 → b = 1 ∨ b = 2 ∨ b = 3 := by decide
  rcases hcases terminator hle hne with rfl | rfl | rfl
  · obtain ⟨rfl, rfl, rfl, rfl⟩ := hret rfl
    obtain rfl := List.length_eq_zero_iff.mp htrue
    obtain rfl := List.length_eq_zero_iff.mp hfalse
    refine ⟨⟨hinstructions ▸ hsmall, hprefix, by simp [decodedTerminator, ControlTerminator.trueEdge],
      by simp [decodedTerminator, ControlTerminator.falseEdge], trivial⟩, ?_, rfl, rfl⟩
    simp [blockRecord, decodedTerminator, ControlTerminator.trueEdge, ControlTerminator.falseEdge,
      ControlTerminator.value, terminatorByte, hlength, hinstructions, Block.invalid]
  · obtain ⟨rfl, hvalid, rfl, rfl⟩ := hjump rfl
    obtain rfl := List.length_eq_zero_iff.mp hfalse
    refine ⟨⟨hinstructions ▸ hsmall, hprefix, by simp [decodedTerminator, ControlTerminator.trueEdge]; omega,
      by simp [decodedTerminator, ControlTerminator.falseEdge], hvalid⟩, ?_, rfl, rfl⟩
    simp [blockRecord, decodedTerminator, ControlTerminator.trueEdge, ControlTerminator.falseEdge,
      ControlTerminator.value, terminatorByte, hlength, hinstructions, htrue, Block.invalid,
      Value.invalid]
  · obtain ⟨hvalue, hvalid, hvalid'⟩ := hbranch rfl
    refine ⟨⟨hinstructions ▸ hsmall, hprefix, by simp [decodedTerminator, ControlTerminator.trueEdge]; omega,
      by simp [decodedTerminator, ControlTerminator.falseEdge]; omega, hvalue, hvalid, hvalid'⟩, ?_,
      rfl, rfl⟩
    simp [blockRecord, decodedTerminator, ControlTerminator.trueEdge, ControlTerminator.falseEdge,
      ControlTerminator.value, terminatorByte, hlength, hinstructions, htrue, hfalse]

/-- The parameters are the leading instructions. -/
lemma reads_leadingInstructions {instructions : List Value} {count : Nat}
    (hcount : count ≤ instructions.length) :
    Reads limit (leadingInstructions instructions count) fun parameters bs =>
      parameters = instructions.take count ∧ bs = [] := by
  unfold leadingInstructions
  rw [if_pos hcount]
  exact Reads.pure _

/-- The lists behind an acceptable record make a block with this record. -/
lemma reads_blockLists {r : BlockRecord} (hok : r.Ok) (hcanonical : r.canonical)
    (hinstructions : r.instructionCount.toNat ≤ limit)
    (htrue : r.trueArgumentCount.toNat ≤ limit) (hfalse : r.falseArgumentCount.toNat ≤ limit) :
    Reads limit (readBlockLists r) fun block bs =>
      (BlockOk block ∧ blockRecord block = r) ∧ bs = writeBlockLists block := by
  have hle : r.parameterCount.toNat ≤ r.instructionCount.toNat := hok.2.2
  unfold readBlockLists
  refine Reads.congr ((reads_values hinstructions).bindEq fun instructions hlength =>
    (reads_leadingInstructions (hlength ▸ hle)).bind fun parameters _ _ =>
    (reads_values htrue).bindEq fun trueArguments _ =>
    (reads_values hfalse).bindEq fun falseArguments _ => Reads.pure _) fun block bs => ?_
  constructor
  · rintro ⟨instructions, hlength, _, ⟨_, _, _, ⟨rfl, rfl⟩, ⟨trueArguments, htrueLength, _,
      ⟨falseArguments, hfalseLength, _, ⟨rfl, rfl⟩, rfl⟩, rfl⟩, rfl⟩, rfl⟩
    obtain ⟨hblock, hrecord, htrueEq, hfalseEq⟩ :=
      blockRecord_decoded hok hcanonical hlength htrueLength hfalseLength
    refine ⟨⟨hblock, hrecord⟩, ?_⟩
    simp only [writeBlockLists, htrueEq, hfalseEq, List.append_nil, List.nil_append]
  · rintro ⟨⟨hblock, rfl⟩, rfl⟩
    refine ⟨block.instructions, (toNat_ofNat32 hblock.instructions).symm, _,
      ⟨block.parameters, [], _, ⟨?_, rfl⟩,
        ⟨block.terminator.trueEdge.arguments, (toNat_ofNat32 hblock.trueArguments).symm, _,
        ⟨block.terminator.falseEdge.arguments, (toNat_ofNat32 hblock.falseArguments).symm, [],
          ⟨?_, rfl⟩, rfl⟩, rfl⟩, rfl⟩, ?_⟩
    · have hlt : block.parameters.length < 2 ^ 32 :=
        hblock.parameters_le.trans_lt hblock.instructions
      rw [blockRecord, toNat_ofNat32 hlt]
      exact hblock.parameters
    · rw [decodedTerminator_blockRecord hblock.terminator]
    · simp only [writeBlockLists, List.append_nil, List.nil_append]

/-- What the block loop accepts, with the counts so far. -/
def AcceptsBlock (m : Manifest) (s : BlockLoop) (block : BasicBlock) : Prop :=
  BlockOk block ∧
    s.instructionReferences + block.instructions.length ≤ m.blockInstructionReferences.toNat ∧
    s.edgeArguments + (block.terminator.trueEdge.arguments.length +
      block.terminator.falseEdge.arguments.length) ≤ m.edgeArguments.toNat

/-- The state of the block loop behind a block. -/
def BlockLoop.next (s : BlockLoop) (block : BasicBlock) : BlockLoop :=
  ⟨s.blocks ++ [block], s.instructionReferences + block.instructions.length,
    s.edgeArguments + (block.terminator.trueEdge.arguments.length +
      block.terminator.falseEdge.arguments.length)⟩

/-- The running counts are sizes. -/
def BlockLoop.Small (s : BlockLoop) : Prop :=
  s.instructionReferences ≤ kMaximumSize ∧ s.edgeArguments ≤ kMaximumSize

/-- Reading a block inverts writing it, while the manifest's counts hold. -/
lemma reads_block {m : Manifest} (hm : m.Bounded limit) (index : Nat) (s : BlockLoop)
    (hs : s.Small) :
    Reads limit (readBlock m index s) fun s' bs =>
      ∃ block, AcceptsBlock m s block ∧ s' = s.next block ∧ bs = writeBlock block := by
  have hreferences : m.blockInstructionReferences.toNat ≤ limit :=
    hm _ (by simp [Manifest.records])
  have hedges : m.edgeArguments.toNat ≤ limit := hm _ (by simp [Manifest.records])
  have hmax : m.edgeArguments.toNat ≤ kMaximumSize := by
    have := m.edgeArguments.isLt
    unfold kMaximumSize
    omega
  have hmax' : m.blockInstructionReferences.toNat ≤ kMaximumSize := by
    have := m.blockInstructionReferences.isLt
    unfold kMaximumSize
    omega
  have hsum : ∀ {a b c : Nat}, (if a + b ≤ kMaximumSize then some (a + b) else none) = some c →
      c = a + b ∧ c ≤ kMaximumSize := by
    intro a b c h
    split_ifs at h
    obtain rfl := Option.some.inj h
    exact ⟨rfl, by assumption⟩
  unfold readBlock
  refine Reads.congr (reads_blockRecord.bindEq fun r hr =>
    monitoredThen (checkedAdd_eq _ hs.1) (orRejectThen fun references href =>
    Reads.expectThen fun hrefLe => monitoredThen (checkedAdd_eq _ hs.2)
    (orRejectThen fun trueSum htrueSum => monitoredThen (checkedAdd_eq _ (hsum htrueSum).2)
    (orRejectThen fun edges hedgesSum => Reads.expectThen fun hedgesLe =>
    Reads.expectThen fun hcanonical => (reads_blockLists hr hcanonical ?_ ?_ ?_).bindEq
      fun block _ => Reads.pure _)))) fun s' bs => ?_
  · have := (hsum href).1
    omega
  · have := (hsum htrueSum).1
    have := (hsum hedgesSum).1
    omega
  · have := (hsum htrueSum).1
    have := (hsum hedgesSum).1
    omega
  · constructor
    · rintro ⟨_, hr, _, ⟨references, href, hrefLe, trueSum, htrueSum, edges, hedgesSum, hedgesLe,
        hcanonical, block, ⟨hblock, rfl⟩, _, ⟨rfl, rfl⟩, rfl⟩, rfl⟩
      obtain ⟨rfl, -⟩ := hsum href
      obtain ⟨rfl, -⟩ := hsum htrueSum
      obtain ⟨rfl, -⟩ := hsum hedgesSum
      simp only [blockRecord, toNat_ofNat32 hblock.instructions, toNat_ofNat32 hblock.trueArguments,
        toNat_ofNat32 hblock.falseArguments] at hrefLe hedgesLe ⊢
      refine ⟨block, ⟨hblock, hrefLe, by omega⟩, ?_, ?_⟩
      · simp only [BlockLoop.next, Nat.add_assoc]
      · rw [writeBlock_eq, List.append_nil]
        rfl
    · rintro ⟨block, ⟨hblock, hrefLe, hedgesLe⟩, rfl, rfl⟩
      obtain ⟨hok, hcanonical⟩ := blockRecord_ok hblock
      refine ⟨blockRecord block, hok, writeBlockLists block, ?_, writeBlock_eq block⟩
      have h1 := toNat_ofNat32 hblock.instructions
      have h2 := toNat_ofNat32 hblock.trueArguments
      have h3 := toNat_ofNat32 hblock.falseArguments
      simp only [blockRecord] at *
      refine ⟨_, if_pos ?_, ?_, _, if_pos ?_, _, if_pos ?_, ?_, hcanonical, block, ⟨hblock, rfl⟩, [],
        ⟨?_, rfl⟩, (List.append_nil _).symm⟩
      · omega
      · omega
      · omega
      · omega
      · omega
      · simp only [BlockLoop.next, h1, h2, h3, Nat.add_assoc]

/-- The number of edge arguments of a block. -/
def edgeArgumentCount (block : BasicBlock) : Nat :=
  block.terminator.trueEdge.arguments.length + block.terminator.falseEdge.arguments.length

/-- What the loop over the blocks has gathered. -/
lemma foldl_next (blocks : List BasicBlock) (s : BlockLoop) :
    blocks.foldl BlockLoop.next s =
      ⟨s.blocks ++ blocks, s.instructionReferences + (blocks.map (·.instructions.length)).sum,
        s.edgeArguments + (blocks.map edgeArgumentCount).sum⟩ := by
  induction blocks generalizing s with
  | nil => simp
  | cons block blocks ih => simp [ih, BlockLoop.next, edgeArgumentCount, Nat.add_assoc]

/-- The loop accepts blocks exactly within the manifest's counts. -/
lemma accepted_blocks {m : Manifest} {blocks : List BasicBlock} {s : BlockLoop}
    (hreferences : s.instructionReferences ≤ m.blockInstructionReferences.toNat)
    (hedges : s.edgeArguments ≤ m.edgeArguments.toNat) :
    Accepted (AcceptsBlock m) BlockLoop.next s blocks ↔ (∀ block ∈ blocks, BlockOk block) ∧
      s.instructionReferences + (blocks.map (·.instructions.length)).sum ≤
        m.blockInstructionReferences.toNat ∧
      s.edgeArguments + (blocks.map edgeArgumentCount).sum ≤ m.edgeArguments.toNat := by
  induction blocks generalizing s with
  | nil => simpa [Accepted] using ⟨hreferences, hedges⟩
  | cons block blocks ih =>
      rw [Accepted, List.map_cons, List.sum_cons, List.map_cons, List.sum_cons,
        List.forall_mem_cons]
      constructor
      · rintro ⟨⟨hblock, hle, hle'⟩, hrest⟩
        obtain ⟨hall, hsum, hsum'⟩ := (ih hle hle').mp hrest
        exact ⟨⟨hblock, hall⟩, by simpa [BlockLoop.next, Nat.add_assoc] using hsum,
          by simpa [BlockLoop.next, edgeArgumentCount, Nat.add_assoc] using hsum'⟩
      · rintro ⟨⟨hblock, hall⟩, hsum, hsum'⟩
        have hcount : edgeArgumentCount block = block.terminator.trueEdge.arguments.length +
            block.terminator.falseEdge.arguments.length := rfl
        refine ⟨⟨hblock, by omega, by omega⟩, (ih ?_ ?_).mpr ⟨hall, ?_, ?_⟩⟩ <;>
          simp only [BlockLoop.next] <;> omega

/-- What the decoder demands of the blocks, the counts of the manifest included. -/
structure BlocksOk (m : Manifest) (blocks : List BasicBlock) : Prop where
  length : blocks.length = m.blocks.toNat
  block : ∀ block ∈ blocks, BlockOk block
  references : (blocks.map (·.instructions.length)).sum = m.blockInstructionReferences.toNat
  edges : (blocks.map edgeArgumentCount).sum = m.edgeArguments.toNat

/-- Reading the blocks inverts writing them. -/
lemma reads_blocks {m : Manifest} (hm : m.Bounded limit) :
    Reads limit (readBlocks m) fun blocks bs =>
      BlocksOk m blocks ∧ bs = blocks.flatMap writeBlock := by
  have hblocks : m.blocks.toNat ≤ limit := hm _ (by simp [Manifest.records])
  have hkeep : ∀ (s : BlockLoop) (block : BasicBlock), s.Small → AcceptsBlock m s block →
      (s.next block).Small := by
    rintro s block - ⟨-, hreferences, hedges⟩
    have h1 := m.blockInstructionReferences.isLt
    have h2 := m.edgeArguments.isLt
    unfold BlockLoop.Small BlockLoop.next kMaximumSize
    simp only
    omega
  unfold readBlocks
  refine Reads.congr (Reads.reserveThen hblocks
    ((Reads.loop (reads_block hm) hkeep 0 _ ⟨Nat.zero_le _, Nat.zero_le _⟩).bind fun s _ _ =>
      Reads.expectThen fun _ => Reads.pure s.blocks)) fun blocks bs => ?_
  constructor
  · rintro ⟨_, _, _, ⟨blocks', hlength, haccepted, rfl, rfl⟩, ⟨hcounts, rfl, rfl⟩, rfl⟩
    obtain ⟨hall, -⟩ := (accepted_blocks (Nat.zero_le _) (Nat.zero_le _)).mp haccepted
    rw [foldl_next] at hcounts ⊢
    simp only [List.nil_append, Nat.zero_add, List.append_nil] at hcounts ⊢
    exact ⟨⟨hlength, hall, hcounts.1, hcounts.2⟩, trivial⟩
  · rintro ⟨hok, rfl⟩
    refine ⟨_, _, [], ⟨blocks, hok.length, (accepted_blocks (Nat.zero_le _) (Nat.zero_le _)).mpr
      ⟨hok.block, ?_, ?_⟩, rfl, rfl⟩, ?_, (List.append_nil _).symm⟩
    · simpa using hok.references.le
    · simpa using hok.edges.le
    · rw [foldl_next]
      simpa using ⟨hok.references, hok.edges⟩

/-- What the decoder demands of a graph beyond its tables' bytes. -/
structure ControlFlowOk (m : Manifest) (f : ControlFlowFunction) : Prop where
  parameterTypes : f.parameterTypes.length = m.parameters.toNat ∧
    ∀ type ∈ f.parameterTypes, isScalarValueType type = true
  nodes : f.nodes.length = m.nodes.toNat ∧ ∀ n ∈ f.nodes, n.opcode ≠ .op .call
  tables : TablesOk m f.toSideTables
  blocks : BlocksOk m f.blocks
  entryBlock : f.entryBlock.id = m.entryBlock

/-- The tables of a control-flow package. -/
def writeControlFlow (f : ControlFlowFunction) : List Byte :=
  f.parameterTypes.flatMap writeType ++ (f.nodes.flatMap (writeNode ControlOpcode.order) ++
    (writeAfterNodes f.toSideTables ++ f.blocks.flatMap writeBlock))

/-- **The body of a control-flow package** holds the graph's tables, and nothing else. -/
lemma reads_controlFlow {m : Manifest} (hm : m.Bounded limit) :
    Reads limit (readControlFlow m) fun f bs => ControlFlowOk m f ∧ bs = writeControlFlow f := by
  unfold readControlFlow
  refine Reads.congr ((reads_parameterTypes hm).bindEq fun types _ =>
    (reads_nodes (by decide) (by decide) mem_controlOpcodeOrder _ hm).bindEq fun nodes _ =>
    (reads_afterNodes hm).bindEq fun tables _ => (reads_blocks hm).bindEq fun blocks _ =>
    Reads.pure _) fun f bs => ?_
  constructor
  · rintro ⟨types, htypes, _, ⟨nodes, hnodes, _, ⟨tables, htables, _, ⟨blocks, hblocks, _,
      ⟨rfl, rfl⟩, rfl⟩, rfl⟩, rfl⟩, rfl⟩
    refine ⟨⟨htypes, hnodes, htables, hblocks, rfl⟩, ?_⟩
    simp only [writeControlFlow, List.append_nil]
  · rintro ⟨hf, rfl⟩
    refine ⟨f.parameterTypes, hf.parameterTypes, _, ⟨f.nodes, hf.nodes, _,
      ⟨f.toSideTables, hf.tables, _, ⟨f.blocks, hf.blocks, [], ⟨?_, rfl⟩, rfl⟩, rfl⟩, rfl⟩, ?_⟩
    · rw [← hf.entryBlock]
    · simp only [writeControlFlow, List.append_nil]

end UniJit.Ir
