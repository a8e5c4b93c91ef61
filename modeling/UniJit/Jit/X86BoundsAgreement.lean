import UniJit.Jit.CompilationLimits
import UniJit.Jit.X86BoundsCheck
import UniJit.Ir.Verifier
import UniJit.Ir.ControlFlowFacts
import UniJit.Ir.BoundedMemory

/-!
# The checks and the interpreter

When the check that the x86-64 back end emits decides like `boundedAddress`, the check of the
interpreter.

The regions that a check sees are the words of the context and of the table that it names
(`Represents`). The check compares the number of bound regions with the number of its own region,
plus one, as a **sign-extended byte**. Up to region 126 the byte is the number, and the two checks
agree (`passes_iff_boundedAddress`). From region 127 on the byte is either negative, and the check
then rejects every access, or it is the number modulo 256, and the check then reads a descriptor
outside of the table. The limits of a compilation admit 64 regions by default, and an embedder may raise them.
-/

namespace UniJit.Jit.X86

open UniJit.Ir UniJit.Lib UniJit.Lib.X86 UniJit.Runtime

/-! ## The regions in memory -/

/-- The memory holds a context, or none, with its table of regions. -/
structure Represents (context : Option ExecutionContext) (memory : BitVec 64 → Byte)
    (pointer : BitVec 64) : Prop where
  absent : pointer = 0 ↔ context = none
  bound : ∀ c, context = some c → ∃ before : ExecutionContext,
    before.bindMemoryRegions (tableOf memory pointer).toNat c.memoryRegions = .ok c
  count : ∀ c, context = some c → (countOf memory pointer).toNat = c.memoryRegions.length
  inside : ∀ c, context = some c →
    (tableOf memory pointer).toNat + c.memoryRegions.length * memoryRegionBytes ≤ 2 ^ 64
  data : ∀ c, context = some c → ∀ i region, c.memoryRegions[i]? = some region →
    (readWord memory (tableOf memory pointer +
      BitVec.ofNat 64 (i * memoryRegionBytes + dataOffset))).toNat = region.data
  size : ∀ c, context = some c → ∀ i region, c.memoryRegions[i]? = some region →
    (readWord memory (tableOf memory pointer +
      BitVec.ofNat 64 (i * memoryRegionBytes + sizeOffset))).toNat = region.size
  writable : ∀ c, context = some c → ∀ i region, c.memoryRegions[i]? = some region →
    memory (tableOf memory pointer +
      BitVec.ofNat 64 (i * memoryRegionBytes + writableOffset)) = if region.writable then 1 else 0

/-- A displacement that is not cut. -/
lemma displaced_eq (base : BitVec 64) {byteOffset : Nat} (h : byteOffset < 2 ^ 31) :
    displaced base byteOffset = base + BitVec.ofNat 64 byteOffset := by
  have hmsb : (BitVec.ofNat 32 byteOffset).msb = false := by
    rw [BitVec.msb_eq_decide, BitVec.toNat_ofNat]
    simp only [decide_eq_false_iff_not]
    omega
  rw [displaced, BitVec.signExtend_eq_setWidth_of_msb_false hmsb,
    BitVec.setWidth_ofNat_of_le_of_lt (by decide) (by omega)]

/-- A byte that stays positive is extended to itself. -/
lemma toNat_signExtend_ofNat {value : Nat} (h : value < 128) :
    ((BitVec.ofNat 8 value).signExtend 64).toNat = value := by
  have hmsb : (BitVec.ofNat 8 value).msb = false := by
    rw [BitVec.msb_eq_decide, BitVec.toNat_ofNat]
    simp only [decide_eq_false_iff_not]
    omega
  rw [BitVec.signExtend_eq_setWidth_of_msb_false hmsb, BitVec.toNat_setWidth, BitVec.toNat_ofNat]
  omega

/-- The bindings that the context accepts. -/
lemma bindMemoryRegions_eq_ok {storage : Nat} {regions : List MemoryRegion}
    {context context' : ExecutionContext} :
    context.bindMemoryRegions storage regions = .ok context' ↔
      ¬ (regions.length ≠ 0 ∧ storage = 0) ∧
      (∀ region ∈ regions, ¬ (region.size ≠ 0 ∧ region.data = 0) ∧
        ¬ 2 ^ 64 - 1 - region.data < region.size) ∧
      context' = { context with memoryRegions := regions } := by
  rw [ExecutionContext.bindMemoryRegions, require_bind_eq_ok, bind_eq_ok]
  simp only [forM_eq_ok, require_bind_eq_ok, require_eq_ok, pure_eq_ok, exists_const]
  refine and_congr_right fun _ => and_congr_left fun _ => ?_
  constructor
  · intro h region hregion
    obtain ⟨i, hi⟩ := List.mem_iff_getElem?.mp hregion
    exact h (region, i) (List.mem_zipIdx_iff_getElem?.mpr hi)
  · intro h entry hentry
    exact h entry.1 (List.mem_of_getElem? (List.mem_zipIdx_iff_getElem?.mp hentry))

/-! ## Agreement up to region 126 -/

/-- An access that the verifiers accept. -/
structure CheckedAccess.Valid (a : CheckedAccess) : Prop where
  positive : a.access.alignment ≠ 0
  small : a.access.alignment.toNat ≤ memoryWidthBytes a.access.width
  power : a.access.alignment &&& (a.access.alignment - 1) = 0

/-- The immediate of a width is its number of bytes. -/
lemma toNat_widthImmediate (a : CheckedAccess) :
    (widthImmediate a).toNat = memoryWidthBytes a.access.width := by
  have hwidth := memoryWidthBytes_bounds a.access.width
  exact toNat_signExtend_ofNat (by omega)

/-- The mask of an alignment, as the check extends it. -/
lemma toNat_alignmentMask {a : CheckedAccess} (h : a.Valid) :
    ((a.access.alignment - 1).signExtend 64).toNat = a.access.alignment.toNat - 1 := by
  have hwidth := memoryWidthBytes_bounds a.access.width
  have hsmall := h.small
  have hpositive : a.access.alignment.toNat ≠ 0 := fun hzero =>
    h.positive (BitVec.eq_of_toNat_eq hzero)
  have hmask : a.access.alignment - 1 = BitVec.ofNat 8 (a.access.alignment.toNat - 1) := by
    have hone : (1 : Byte) ≤ a.access.alignment := by
      rw [BitVec.le_def]
      show 1 ≤ a.access.alignment.toNat
      omega
    apply BitVec.eq_of_toNat_eq
    rw [BitVec.toNat_sub_of_le hone, BitVec.toNat_ofNat, Nat.mod_eq_of_lt (by omega)]
    rfl
  rw [hmask]
  exact toNat_signExtend_ofNat (by omega)

section agreement

variable {a : CheckedAccess} {context : Option ExecutionContext} {memory : BitVec 64 → Byte}
  {pointer : BitVec 64}

/-- The descriptor of a small region is in reach of the encoded displacement. -/
lemma descriptorField_eq (hregion : a.access.region.toNat ≤ 126) {field : Nat} (hfield : field < 24) :
    descriptorField a memory pointer field =
      tableOf memory pointer +
        BitVec.ofNat 64 (a.access.region.toNat * memoryRegionBytes + field) := by
  apply displaced_eq
  unfold memoryRegionBytes
  omega

/-- What a bound region satisfies. -/
lemma Represents.region (h : Represents context memory pointer) {c : ExecutionContext}
    (hc : context = some c) {i : Nat} {region : MemoryRegion}
    (hi : c.memoryRegions[i]? = some region) :
    tableOf memory pointer ≠ 0 ∧ (region.size ≠ 0 → region.data ≠ 0) ∧
      (region.data < 2 ^ 64 → region.data + region.size < 2 ^ 64) := by
  obtain ⟨before, hbind⟩ := h.bound c hc
  obtain ⟨hstorage, hregions, -⟩ := bindMemoryRegions_eq_ok.mp hbind
  obtain ⟨hnull, hwraps⟩ := hregions region (List.mem_of_getElem? hi)
  have hlength : 0 < c.memoryRegions.length := by
    have := List.getElem?_eq_some_iff.mp hi
    exact Nat.zero_lt_of_lt this.1
  refine ⟨fun hzero => ?_, fun hsize hdata => hnull ⟨hsize, hdata⟩, by omega⟩
  rw [hzero] at hstorage
  exact hstorage ⟨by omega, rfl⟩

/-- The address that both compute, if it does not wrap. -/
lemma toNat_address {data offset : BitVec 64} {base : Nat} (hdata : data.toNat = base)
    (hfits : base + offset.toNat < 2 ^ 64) : (data + offset).toNat = base + offset.toNat := by
  rw [BitVec.toNat_add, hdata, Nat.mod_eq_of_lt hfits]

/-- The alignment of that address. -/
lemma aligned_iff (hvalid : a.Valid) {address : BitVec 64} :
    (a.atomic = true ∨ 1 < a.access.alignment.toNat →
      address &&& (a.access.alignment - 1).signExtend 64 = 0) ↔
      address.toNat &&& (a.access.alignment.toNat - 1) = 0 := by
  have hand : address &&& (a.access.alignment - 1).signExtend 64 = 0 ↔
      address.toNat &&& (a.access.alignment.toNat - 1) = 0 := by
    rw [← BitVec.toNat_inj, BitVec.toNat_and, toNat_alignmentMask hvalid]
    rfl
  rw [hand]
  by_cases hlarge : 1 < a.access.alignment.toNat
  · simp [hlarge]
  · have hzero : a.access.alignment.toNat - 1 = 0 := by omega
    simp [hzero]

/-- The fields of a bound descriptor, as the check reads them. -/
lemma Represents.fields (h : Represents context memory pointer) {c : ExecutionContext}
    (hc : context = some c) (hregion : a.access.region.toNat ≤ 126) {region : MemoryRegion}
    (hi : c.memoryRegions[a.access.region.toNat]? = some region) :
    (dataOf a memory pointer).toNat = region.data ∧ (sizeOf a memory pointer).toNat = region.size ∧
      (memory (descriptorField a memory pointer writableOffset) ≠ 0 ↔ region.writable = true) := by
  refine ⟨?_, ?_, ?_⟩
  · rw [dataOf, descriptorField_eq hregion (by decide)]
    exact h.data c hc _ region hi
  · rw [sizeOf, descriptorField_eq hregion (by decide)]
    exact h.size c hc _ region hi
  · rw [descriptorField_eq hregion (by decide), h.writable c hc _ region hi]
    cases region.writable <;> decide

/-- **Agreement**: the check passes exactly the accesses that the interpreter accepts. -/
lemma passes_iff_boundedAddress (hvalid : a.Valid) (hregion : a.access.region.toNat ≤ 126)
    (h : Represents context memory pointer) (offset : Word) :
    Passes a memory pointer offset ↔
      ∃ r, boundedAddress a.access offset a.store context = .ok r := by
  have hwidth := memoryWidthBytes_bounds a.access.width
  have himmediate := toNat_widthImmediate a
  have hnumber : ((BitVec.ofNat 8 (a.access.region.toNat + 1)).signExtend 64).toNat =
      a.access.region.toNat + 1 := toNat_signExtend_ofNat (by omega)
  simp only [boundedAddress_eq_ok]
  constructor
  · intro hpasses
    obtain ⟨c, hc⟩ := Option.ne_none_iff_exists'.mp (h.absent.not.mp hpasses.context)
    have hcount := hpasses.region
    rw [hnumber, h.count c hc] at hcount
    have hi := List.getElem?_eq_getElem (Nat.lt_of_succ_le hcount)
    generalize c.memoryRegions[a.access.region.toNat] = region at hi
    obtain ⟨hdata, hsize, hwritable⟩ := h.fields hc hregion hi
    obtain ⟨-, -, hwraps⟩ := h.region hc hi
    have hlarge := hpasses.large
    have hinside := hpasses.inside
    rw [himmediate, hsize] at hlarge
    rw [BitVec.toNat_sub_of_le (BitVec.le_def.mpr hpasses.large), himmediate, hsize] at hinside
    have hfits := hwraps (hdata ▸ (dataOf a memory pointer).isLt)
    have haligned := (aligned_iff hvalid).mp hpasses.aligned
    rw [toNat_address hdata (by omega)] at haligned
    exact ⟨_, c, region, hc, hi, fun hstore => hwritable.mp (hpasses.writable hstore), hlarge,
      hinside, hvalid.positive, haligned, rfl⟩
  · intro hok
    obtain ⟨r, c, region, hc, hi, hstore, hlarge, hinside, -, haligned, -⟩ := hok
    obtain ⟨hdata, hsize, hwritable⟩ := h.fields hc hregion hi
    obtain ⟨htable, hbase, hwraps⟩ := h.region hc hi
    have hlength := (List.getElem?_eq_some_iff.mp hi).1
    have hfits := hwraps (hdata ▸ (dataOf a memory pointer).isLt)
    have hle : widthImmediate a ≤ sizeOf a memory pointer := by
      rw [BitVec.le_def, himmediate, hsize]
      exact hlarge
    constructor
    case context => exact h.absent.not.mpr (by simp [hc])
    case table => exact htable
    case region =>
      rw [hnumber, h.count c hc]
      exact hlength
    case base =>
      intro hzero
      rw [hzero] at hdata
      exact hbase (by omega) hdata.symm
    case writable => exact fun hs => hwritable.mpr (hstore hs)
    case large => exact BitVec.le_def.mp hle
    case inside =>
      rw [BitVec.toNat_sub_of_le hle, himmediate, hsize]
      exact hinside
    case aligned =>
      rw [aligned_iff hvalid, toNat_address hdata (by omega)]
      exact haligned

/-- The address of a check that passes is the one that the interpreter resolves. -/
lemma address_eq (hregion : a.access.region.toNat ≤ 126)
    (h : Represents context memory pointer) {offset : Word} {r : Nat × Nat}
    (hok : boundedAddress a.access offset a.store context = .ok r) :
    (dataOf a memory pointer + offset).toNat = r.1 := by
  obtain ⟨c, region, hc, hi, -, hlarge, hinside, -, -, rfl⟩ := boundedAddress_eq_ok.mp hok
  obtain ⟨hdata, -, -⟩ := h.fields hc hregion hi
  obtain ⟨-, -, hwraps⟩ := h.region hc hi
  have hfits := hwraps (hdata ▸ (dataOf a memory pointer).isLt)
  exact toNat_address hdata (by omega)

end agreement

/-! ## The frame of the check -/

/-- The largest frame. -/
def kMaximumStackSize : Nat := 1024 * 1024

/-- A location that the back end assigns: an allocatable register, or a slot of the frame. -/
def OperandLocation.InFrame : OperandLocation → Prop
  | .register r => r ∈ kAllocationRegisters
  | .stack byteOffset => byteOffset + 8 ≤ kMaximumStackSize

/-- The word that is kept at a location. -/
def OperandLocation.word (s : State) : OperandLocation → Word
  | .register r => s.registers r
  | .stack byteOffset => readWord s.memory (s.registers kRsp + BitVec.ofNat 64 byteOffset)

/-- The encoded displacements reach the whole frame. -/
lemma value_eq_word {location : OperandLocation} (h : location.InFrame) (s : State) :
    location.value s = location.word s := by
  cases location with
  | register r => rfl
  | stack byteOffset =>
      have hbound : byteOffset + 8 ≤ 1024 * 1024 := h
      rw [OperandLocation.value, OperandLocation.word, displaced_eq _ (by omega)]

/-- The check takes the failure path exactly when the interpreter rejects the access, and leaves the
address that the interpreter resolves otherwise, whatever regions are bound, wherever the context
and the offset are kept. -/
def CheckAgrees (a : CheckedAccess) : Prop :=
  ∀ (context : Option ExecutionContext) (contextSlot : Nat) (offset : OperandLocation) (s : State),
    (OperandLocation.stack (contextSlot * 8)).InFrame → offset.InFrame →
    Represents context s.memory ((OperandLocation.stack (contextSlot * 8)).word s) →
    ∃ is, disassemble (lowerMemoryCheck a contextSlot offset) = some is ∧
      (execute is s = .branched ↔
        ∃ message, boundedAddress a.access (offset.word s) a.store context = .error message) ∧
      ∀ address width,
        boundedAddress a.access (offset.word s) a.store context = .ok (address, width) →
          ∃ s', execute is s = .completed s' ∧ (s'.registers kScratch0).toNat = address

/-- What the check does, in terms of `Passes`. -/
lemma execute_memoryCheck (a : CheckedAccess) {contextSlot : Nat} {offset : OperandLocation}
    (hslot : (OperandLocation.stack (contextSlot * 8)).InFrame) (hoffset : offset.InFrame)
    (s : State) :
    Decides (checkInstructions a contextSlot offset) s
      (Passes a s.memory ((OperandLocation.stack (contextSlot * 8)).word s) (offset.word s))
      fun s' => s'.registers kScratch0 =
        dataOf a s.memory ((OperandLocation.stack (contextSlot * 8)).word s) + offset.word s := by
  have hregister : ∀ r, offset = .register r → r ∈ kAllocationRegisters := by
    intro r hr
    subst hr
    exact hoffset
  rw [← value_eq_word hslot, ← value_eq_word hoffset]
  exact decides_memoryCheck a contextSlot hregister s

/-- Up to region 126 the emitted check is the interpreter's. -/
lemma checkAgrees_of_le {a : CheckedAccess} (hvalid : a.Valid)
    (hregion : a.access.region.toNat ≤ 126) : CheckAgrees a := by
  intro context contextSlot offset s hslot hoffset hrepresents
  obtain ⟨hbranch, hcomplete⟩ := execute_memoryCheck a hslot hoffset s
  have hagree := passes_iff_boundedAddress hvalid hregion hrepresents (offset.word s)
  refine ⟨_, disassemble_memoryCheck a contextSlot offset, ?_, ?_⟩
  · cases hresolved : boundedAddress a.access (offset.word s) a.store context with
    | error message =>
        rw [hresolved] at hagree
        simpa using hbranch (by simp [hagree])
    | ok resolved =>
        rw [hresolved] at hagree
        obtain ⟨s', hexecute, -⟩ := hcomplete (hagree.mpr ⟨resolved, rfl⟩)
        simp [hexecute]
  · intro address width hok
    obtain ⟨s', hexecute, haddress⟩ := hcomplete (hagree.mpr ⟨_, hok⟩)
    refine ⟨s', hexecute, ?_⟩
    rw [haddress]
    exact address_eq hregion hrepresents hok

/-! ## From region 127 on -/

/-- A word whose bytes are known. -/
lemma readWord_eq {memory : BitVec 64 → Byte} {address word : BitVec 64}
    (h : ∀ i, i < 8 → memory (address + BitVec.ofNat 64 i) = (leBytes 8 word).getD i 0) :
    readWord memory address = word := by
  rw [readWord]
  have hbytes : (List.range 8).map (fun i => memory (address + BitVec.ofNat 64 i)) =
      leBytes 8 word := by
    apply List.ext_getElem (by simp)
    intro i hi hi'
    simp only [List.getElem_map, List.getElem_range]
    rw [h i (by simpa using hi)]
    exact (List.getElem_eq_getD 0).symm
  rw [hbytes, ofLeBytes_leBytes (by decide)]

/-- A word whose highest byte is not zero. -/
lemma le_readWord {memory : BitVec 64 → Byte} {address : BitVec 64}
    (h : memory (address + BitVec.ofNat 64 7) ≠ 0) :
    2 ^ 56 ≤ (readWord memory address).toNat := by
  by_contra hlt
  apply h
  apply BitVec.eq_of_getLsbD_eq
  intro j hj
  have hbit : (readWord memory address).getLsbD (56 + j) =
      (memory (address + BitVec.ofNat 64 7)).getLsbD j := by
    have hdiv : (56 + j) / 8 = 7 := by omega
    have hmod : (56 + j) % 8 = j := by omega
    have hlarge : 56 + j < 64 := by omega
    rw [readWord, getLsbD_ofLeBytes, hdiv, hmod]
    simp [hlarge]
  rw [← hbit, BitVec.getLsbD, Nat.testBit_lt_two_pow (lt_of_lt_of_le (not_le.mp hlt) ?_)]
  · simp
  · exact Nat.pow_le_pow_right (by decide) (by omega)

/-- The table of the sample memories; it starts at a multiple of the size of a descriptor. -/
def sampleTable : Nat := 24 * 2 ^ 36

/-- A frame at `8192` with a context at `4096`. All other bytes are nonzero, and are those of one
writable region over and over. -/
def sampleMemory (count : Nat) (address : BitVec 64) : Byte :=
  let a := address.toNat
  if 8192 ≤ a ∧ a < 8200 then (leBytes 8 (4096 : Word)).getD (a - 8192) 0
  else if 4664 ≤ a ∧ a < 4672 then (leBytes 8 (BitVec.ofNat 64 sampleTable)).getD (a - 4664) 0
  else if 4672 ≤ a ∧ a < 4680 then (leBytes 8 (BitVec.ofNat 64 count)).getD (a - 4672) 0
  else if a % 24 = 16 then 1
  else 0x10

/-- A region whose fields repeat one byte. -/
def sampleRegion : MemoryRegion where
  data := 0x1010101010101010
  size := 0x1010101010101010
  writable := true

/-- A context that binds it several times. -/
def sampleContext (count : Nat) : ExecutionContext where
  memoryRegions := List.replicate count sampleRegion

section sample

variable (count : Nat)

/-- An address that does not wrap. -/
lemma toNat_add_ofNat (base : BitVec 64) {n : Nat} (h : base.toNat + n < 2 ^ 64) :
    (base + BitVec.ofNat 64 n).toNat = base.toNat + n := by
  rw [BitVec.toNat_add, BitVec.toNat_ofNat, Nat.mod_eq_of_lt (show n < 2 ^ 64 by omega),
    Nat.mod_eq_of_lt h]

/-- Beyond the frame and the context, no byte is zero. -/
lemma sampleMemory_above {address : BitVec 64} (h : 8200 ≤ address.toNat) :
    sampleMemory count address = if address.toNat % 24 = 16 then 1 else 0x10 := by
  unfold sampleMemory
  simp only []
  rw [if_neg (by omega), if_neg (by omega), if_neg (by omega)]

/-- The sample memory is not zero behind the frame. -/
lemma sampleMemory_ne_zero {address : BitVec 64} (h : 8200 ≤ address.toNat) :
    sampleMemory count address ≠ 0 := by
  rw [sampleMemory_above count h]
  split_ifs <;> decide

/-- The frame points to the context. -/
lemma readWord_sampleFrame : readWord (sampleMemory count) 8192 = 4096 := by
  apply readWord_eq
  intro i hi
  have haddress : ((8192 : BitVec 64) + BitVec.ofNat 64 i).toNat = 8192 + i :=
    toNat_add_ofNat 8192 (by show 8192 + i < 2 ^ 64; omega)
  unfold sampleMemory
  simp only [haddress]
  rw [if_pos (by omega), Nat.add_sub_cancel_left]

/-- The context points to the regions. -/
lemma tableOf_sample : tableOf (sampleMemory count) 4096 = BitVec.ofNat 64 sampleTable := by
  rw [tableOf, displaced_eq _ (by decide)]
  apply readWord_eq
  intro i hi
  have haddress : ((4096 : BitVec 64) + BitVec.ofNat 64 memoryRegionsOffset +
      BitVec.ofNat 64 i).toNat = 4664 + i :=
    toNat_add_ofNat 4664 (by show 4664 + i < 2 ^ 64; omega)
  unfold sampleMemory
  simp only [haddress]
  rw [if_neg (by omega), if_pos (by omega), Nat.add_sub_cancel_left]

/-- The context counts the regions. -/
lemma countOf_sample : countOf (sampleMemory count) 4096 = BitVec.ofNat 64 count := by
  rw [countOf, displaced_eq _ (by decide)]
  apply readWord_eq
  intro i hi
  have haddress : ((4096 : BitVec 64) + BitVec.ofNat 64 memoryRegionCountOffset +
      BitVec.ofNat 64 i).toNat = 4672 + i :=
    toNat_add_ofNat 4672 (by show 4672 + i < 2 ^ 64; omega)
  unfold sampleMemory
  simp only [haddress]
  rw [if_neg (by omega), if_neg (by omega), if_pos (by omega), Nat.add_sub_cancel_left]

/-- An address inside the table. -/
lemma toNat_sampleTable_add {n : Nat} (h : n < 2 ^ 40) :
    (BitVec.ofNat 64 sampleTable + BitVec.ofNat 64 n).toNat = sampleTable + n := by
  have hbase : (BitVec.ofNat 64 sampleTable).toNat = sampleTable := by decide
  rw [toNat_add_ofNat _ (by rw [hbase, sampleTable]; omega), hbase]

/-- The words of the descriptors. -/
lemma readWord_sampleTable {n : Nat} (h : n < 2 ^ 39) (hfield : n % 24 = 0 ∨ n % 24 = 8) :
    readWord (sampleMemory count) (BitVec.ofNat 64 sampleTable + BitVec.ofNat 64 n) =
      0x1010101010101010 := by
  apply readWord_eq
  intro i hi
  have haddress : (BitVec.ofNat 64 sampleTable + BitVec.ofNat 64 n + BitVec.ofNat 64 i).toNat =
      sampleTable + n + i := by
    have hbase := toNat_sampleTable_add (show n < 2 ^ 40 by omega)
    rw [toNat_add_ofNat _ (by rw [hbase, sampleTable]; omega), hbase]
  rw [sampleMemory_above count (by rw [haddress, sampleTable]; omega), haddress,
    if_neg (by rw [sampleTable]; omega)]
  interval_cases i <;> decide

/-- The sample memory represents the sample context. -/
lemma represents_sample (h : count < 2 ^ 33) :
    Represents (some (sampleContext count)) (sampleMemory count) 4096 := by
  have htable := tableOf_sample count
  have hregion : ∀ i region, (sampleContext count).memoryRegions[i]? = some region →
      i < count ∧ region = sampleRegion := by
    intro i region hi
    simpa [sampleContext, List.getElem?_replicate, eq_comm] using hi
  constructor
  case absent => simp
  case bound =>
    intro c hc
    obtain rfl := Option.some.inj hc
    refine ⟨{}, bindMemoryRegions_eq_ok.mpr ⟨?_, ?_, rfl⟩⟩
    · rw [htable]
      exact fun hnull => absurd hnull.2 (by decide)
    · intro region hmem
      rw [List.eq_of_mem_replicate hmem]
      decide
  case count =>
    intro c hc
    obtain rfl := Option.some.inj hc
    rw [countOf_sample, BitVec.toNat_ofNat, Nat.mod_eq_of_lt (by omega)]
    simp [sampleContext]
  case inside =>
    intro c hc
    obtain rfl := Option.some.inj hc
    rw [htable, BitVec.toNat_ofNat]
    simp only [sampleContext, List.length_replicate, memoryRegionBytes, sampleTable]
    omega
  case data =>
    intro c hc i region hi
    obtain rfl := Option.some.inj hc
    obtain ⟨hlt, rfl⟩ := hregion i region hi
    rw [htable, readWord_sampleTable count (by rw [memoryRegionBytes, dataOffset]; omega)
      (by rw [memoryRegionBytes, dataOffset]; omega)]
    rfl
  case size =>
    intro c hc i region hi
    obtain rfl := Option.some.inj hc
    obtain ⟨hlt, rfl⟩ := hregion i region hi
    rw [htable, readWord_sampleTable count (by rw [memoryRegionBytes, sizeOffset]; omega)
      (by rw [memoryRegionBytes, sizeOffset]; omega)]
    rfl
  case writable =>
    intro c hc i region hi
    obtain rfl := Option.some.inj hc
    obtain ⟨hlt, rfl⟩ := hregion i region hi
    have haddress := toNat_sampleTable_add
      (show i * memoryRegionBytes + writableOffset < 2 ^ 40 by
        rw [memoryRegionBytes, writableOffset]; omega)
    rw [htable, sampleMemory_above count (by rw [haddress, sampleTable]; omega), haddress]
    rw [if_pos (by rw [sampleTable, memoryRegionBytes, writableOffset]; omega)]
    rfl

end sample

/-- A valid alignment is a power of two up to 16. -/
lemma alignment_dvd {a : CheckedAccess} (hvalid : a.Valid) :
    a.access.alignment.toNat ∣ 16 ∧ ∃ k, a.access.alignment.toNat = 2 ^ k := by
  have hpowers : ∀ alignment : Byte, alignment ≠ 0 → alignment.toNat ≤ 16 →
      alignment &&& (alignment - 1) = 0 →
      alignment = 1 ∨ alignment = 2 ∨ alignment = 4 ∨ alignment = 8 ∨ alignment = 16 := by
    decide
  have hwidth := memoryWidthBytes_bounds a.access.width
  have hsmall := hvalid.small
  rcases hpowers a.access.alignment hvalid.positive (by omega) hvalid.power with h | h | h | h | h
  all_goals rw [h]
  · exact ⟨by decide, 0, rfl⟩
  · exact ⟨by decide, 1, rfl⟩
  · exact ⟨by decide, 2, rfl⟩
  · exact ⟨by decide, 3, rfl⟩
  · exact ⟨by decide, 4, rfl⟩

/-- A multiple of the largest width is aligned. -/
lemma and_alignment_of_dvd {a : CheckedAccess} (hvalid : a.Valid) {address : Nat}
    (h : 16 ∣ address) : address &&& (a.access.alignment.toNat - 1) = 0 := by
  obtain ⟨hdvd, k, hk⟩ := alignment_dvd hvalid
  rw [hk, Nat.and_two_pow_sub_one_eq_mod]
  exact Nat.mod_eq_zero_of_dvd (dvd_trans (hk ▸ hdvd) h)

/-- The state in which the sample checks run; the offset is in a register. -/
def sampleState (count : Nat) (offset : Word) : State where
  registers r := if r = kRsp then 8192 else offset
  memory := sampleMemory count

/-- The number of the region is a negative byte: nothing passes. -/
lemma not_passes_sample {a : CheckedAccess} (h : 128 ≤ (a.access.region.toNat + 1) % 256)
    {count : Nat} (hcount : count < 2 ^ 33) (offset : Word) :
    ¬ Passes a (sampleMemory count) 4096 offset := by
  intro hpasses
  have hmsb : (BitVec.ofNat 8 (a.access.region.toNat + 1)).msb = true := by
    rw [BitVec.msb_eq_decide, BitVec.toNat_ofNat, decide_eq_true_eq]
    exact h
  have hregion := hpasses.region
  rw [countOf_sample, BitVec.toNat_signExtend, hmsb, BitVec.toNat_ofNat] at hregion
  simp only [if_true] at hregion
  omega

/-- Wherever the displacement leads to, it is far above the frame and the context. -/
lemma displaced_sample_above (byteOffset i : Nat) (hi : i < 8) :
    8200 ≤ (displaced (BitVec.ofNat 64 sampleTable) byteOffset + BitVec.ofNat 64 i).toNat := by
  rw [displaced]
  generalize BitVec.ofNat 32 byteOffset = displacement
  have hlt := displacement.isLt
  have hmsb := BitVec.msb_eq_decide displacement
  rw [BitVec.toNat_add, BitVec.toNat_add, BitVec.toNat_signExtend, BitVec.toNat_setWidth, hmsb]
  simp only [BitVec.toNat_ofNat, sampleTable]
  split_ifs with hnegative
  · rw [decide_eq_true_eq] at hnegative
    omega
  · rw [decide_eq_true_eq] at hnegative
    omega

/-- The number of the region is taken modulo 256: a descriptor outside of the table passes. -/
lemma passes_sample {a : CheckedAccess} (hvalid : a.Valid)
    (h : (a.access.region.toNat + 1) % 256 < 128) :
    ∃ offset, Passes a (sampleMemory 127) 4096 offset := by
  have hwidth := memoryWidthBytes_bounds a.access.width
  have himmediate := toNat_widthImmediate a
  have hword : ∀ field, 2 ^ 56 ≤ (readWord (sampleMemory 127)
      (descriptorField a (sampleMemory 127) 4096 field)).toNat := by
    intro field
    apply le_readWord
    rw [descriptorField, tableOf_sample]
    exact sampleMemory_ne_zero 127 (displaced_sample_above _ 7 (by decide))
  have hdata := hword dataOffset
  have hsize := hword sizeOffset
  rw [← dataOf] at hdata
  rw [← sizeOf] at hsize
  have hle : widthImmediate a ≤ sizeOf a (sampleMemory 127) 4096 := by
    rw [BitVec.le_def, himmediate]
    omega
  -- the distance to the next aligned address
  let gap := (16 - (dataOf a (sampleMemory 127) 4096).toNat % 16) % 16
  have hgap : (BitVec.ofNat 64 gap).toNat = gap := by
    rw [BitVec.toNat_ofNat]
    omega
  refine ⟨BitVec.ofNat 64 gap, ?_⟩
  constructor
  case context => decide
  case table =>
    rw [tableOf_sample]
    decide
  case region =>
    have hmod : BitVec.ofNat 8 (a.access.region.toNat + 1) =
        BitVec.ofNat 8 ((a.access.region.toNat + 1) % 256) := by
      apply BitVec.eq_of_toNat_eq
      simp
    rw [countOf_sample, hmod, toNat_signExtend_ofNat h]
    show (a.access.region.toNat + 1) % 256 ≤ 127
    omega
  case base =>
    intro hzero
    rw [hzero] at hdata
    revert hdata
    decide
  case writable =>
    intro _
    rw [descriptorField, tableOf_sample]
    have := displaced_sample_above
      (a.access.region.toNat * memoryRegionBytes + writableOffset) 0 (by decide)
    exact sampleMemory_ne_zero 127 (by simpa using this)
  case large => exact BitVec.le_def.mp hle
  case inside =>
    rw [BitVec.toNat_sub_of_le hle, himmediate, hgap]
    omega
  case aligned =>
    rw [aligned_iff hvalid]
    apply and_alignment_of_dvd hvalid
    rw [BitVec.toNat_add, hgap]
    omega

/-- The interpreter accepts the start of a bound region of the samples. -/
lemma boundedAddress_sample {a : CheckedAccess} (hvalid : a.Valid) {count : Nat}
    (h : a.access.region.toNat < count) :
    boundedAddress a.access 0 a.store (some (sampleContext count)) =
      .ok (sampleRegion.data, memoryWidthBytes a.access.width) := by
  have hwidth := memoryWidthBytes_bounds a.access.width
  refine boundedAddress_eq_ok.mpr ⟨_, sampleRegion, rfl, ?_, fun _ => rfl, ?_, ?_,
    hvalid.positive, and_alignment_of_dvd hvalid (by decide), rfl⟩
  · rw [sampleContext, List.getElem?_replicate, if_pos h]
  · show memoryWidthBytes a.access.width ≤ 0x1010101010101010
    omega
  · exact Nat.zero_le _

/-- A check of a region from 127 on rejects an access that the interpreter accepts, or lets one
pass for a region that is not bound. -/
lemma not_checkAgrees {a : CheckedAccess} (hvalid : a.Valid)
    (hregion : 126 < a.access.region.toNat) : ¬ CheckAgrees a := by
  intro hagrees
  have hregister : kRcx ≠ kRsp := by decide
  have hwidth := memoryWidthBytes_bounds a.access.width
  -- the check and the interpreter in the sample state
  have hsample : ∀ count offset, count < 2 ^ 33 →
      (¬ Passes a (sampleMemory count) 4096 offset ↔
        ∃ message, boundedAddress a.access offset a.store (some (sampleContext count)) =
          .error message) := by
    intro count offset hcount
    have hpointer : (OperandLocation.stack (0 * 8)).word (sampleState count offset) = 4096 := by
      rw [← readWord_sampleFrame count]
      rfl
    have hword : (OperandLocation.register kRcx).word (sampleState count offset) = offset := by
      simp [OperandLocation.word, sampleState, hregister]
    have hslot : (OperandLocation.stack (0 * 8)).InFrame := by
      show 0 * 8 + 8 ≤ 1024 * 1024
      decide
    have hoffset : (OperandLocation.register kRcx).InFrame := by
      show kRcx ∈ kAllocationRegisters
      decide
    have hdecides := execute_memoryCheck a hslot hoffset (sampleState count offset)
    obtain ⟨is, his, hbranch, -⟩ := hagrees (some (sampleContext count)) 0 (.register kRcx)
      (sampleState count offset) hslot hoffset (by
        rw [hpointer]
        exact represents_sample count hcount)
    rw [disassemble_memoryCheck, Option.some.injEq] at his
    subst his
    rw [hpointer, hword] at hdecides
    rw [hword] at hbranch
    rw [← hbranch]
    constructor
    · exact hdecides.1
    · intro hbranched hpasses
      obtain ⟨s', hexecute, -⟩ := hdecides.2 hpasses
      rw [hbranched] at hexecute
      exact absurd hexecute (by simp)
  by_cases hbyte : 128 ≤ (a.access.region.toNat + 1) % 256
  · have hlt := a.access.region.isLt
    obtain ⟨message, herror⟩ := (hsample (a.access.region.toNat + 1) 0 (by omega)).mp
      (not_passes_sample hbyte (by omega) 0)
    rw [boundedAddress_sample hvalid (Nat.lt_succ_self _)] at herror
    exact absurd herror (by simp)
  · obtain ⟨offset, hpasses⟩ := passes_sample hvalid (not_le.mp hbyte)
    apply (hsample 127 offset (by omega)).mpr _ hpasses
    have hnone : (sampleContext 127).memoryRegions[a.access.region.toNat]? = none := by
      rw [List.getElem?_eq_none_iff, sampleContext, List.length_replicate]
      exact hregion
    exact ⟨_, by rw [boundedAddress, Option.bind_some, hnone]⟩

/-! ## Whole functions -/

/-- The bounded or atomic access of an operation, with its check. -/
def checkedAccess {Op : Type} (t : SideTables) (n : NodeOf Op) : Operation → Option CheckedAccess
  | .memory o =>
      t.memoryAccesses[n.memoryAccess.toNat]?.map fun access => ⟨access, isMemoryStore o, false⟩
  | .atomic o =>
      t.atomicAccesses[n.atomicAccess.toNat]?.map fun access => ⟨access.memory, o ≠ .load, true⟩
  | _ => none

/-- The accesses of a straight line that are checked. -/
def checkedAccesses (f : Function) : List CheckedAccess :=
  f.nodes.filterMap fun n =>
    match n.opcode with
    | .op o => checkedAccess f.toSideTables n o
    | .parameter => none

/-- The accesses of a graph that are checked. -/
def checkedControlAccesses (f : ControlFlowFunction) : List CheckedAccess :=
  f.nodes.filterMap fun n =>
    match n.opcode with
    | .op o => checkedAccess f.toSideTables n o
    | _ => none

/-- The verifiers' rules make an access valid, and keep its region inside of the declared ones. -/
lemma valid_of_typed {Op : Type} {t : SideTables} {Γ : Value → Option ValueType} {o : Operation}
    {n : NodeOf Op} (htyped : Typed t Γ o n) {a : CheckedAccess}
    (ha : checkedAccess t n o = some a) :
    a.Valid ∧ a.access.region.toNat < t.memoryRegionCount := by
  cases o with
  | memory o =>
      obtain ⟨access, haccess, hok, -, -⟩ := htyped
      simp only [checkedAccess, haccess, Option.map_some, Option.some.injEq] at ha
      subst ha
      exact ⟨⟨hok.2.1, hok.2.2.1, hok.2.2.2.1⟩, hok.1⟩
  | atomic o =>
      obtain ⟨access, haccess, hok, -, -⟩ := htyped
      simp only [checkedAccess, haccess, Option.map_some, Option.some.injEq] at ha
      subst ha
      obtain ⟨hregion, hscalar, halignment, -⟩ := hok
      have hwidth : ∀ width : MemoryWidth, ∀ alignment : Byte,
          alignment.toNat = memoryWidthBytes width →
          alignment ≠ 0 ∧ alignment &&& (alignment - 1) = 0 := by
        intro width alignment h
        have hvalue : alignment = BitVec.ofNat 8 (memoryWidthBytes width) := by
          rw [← h, BitVec.ofNat_toNat, BitVec.setWidth_eq]
        subst hvalue
        cases width <;> decide
      obtain ⟨hpositive, hpower⟩ := hwidth _ _ halignment
      exact ⟨⟨hpositive, halignment.le, hpower⟩, hregion⟩
  | _ => simp [checkedAccess] at ha

/-- The accesses that are checked are valid and of a region of the function. -/
lemma mem_checkedAccesses {f : Function} (h : f.Verified) {a : CheckedAccess}
    (ha : a ∈ checkedAccesses f) : a.Valid ∧ a.access.region.toNat < f.memoryRegionCount := by
  obtain ⟨n, hn, hmatch⟩ := List.mem_filterMap.mp ha
  cases ho : n.opcode with
  | parameter => simp [ho] at hmatch
  | op o =>
      simp only [ho] at hmatch
      obtain ⟨Γ, htyped⟩ := h.typed_of_mem hn ho
      exact valid_of_typed htyped hmatch

/-- The accesses that are checked are valid and of a region of the graph. -/
lemma mem_checkedControlAccesses {f : ControlFlowFunction} (h : f.Verified) {a : CheckedAccess}
    (ha : a ∈ checkedControlAccesses f) :
    a.Valid ∧ a.access.region.toNat < f.memoryRegionCount := by
  obtain ⟨n, hn, hmatch⟩ := List.mem_filterMap.mp ha
  cases ho : n.opcode with
  | op o =>
      simp only [ho] at hmatch
      obtain ⟨Γ, htyped⟩ := h.typed_of_mem hn ho
      exact valid_of_typed htyped hmatch
  | _ => simp [ho] at hmatch

/-- **One check**: it agrees with the interpreter exactly up to region 126. -/
lemma checkAgrees_iff {a : CheckedAccess} (hvalid : a.Valid) :
    CheckAgrees a ↔ a.access.region.toNat ≤ 126 := by
  constructor
  · intro hagrees
    by_contra hlarge
    exact not_checkAgrees hvalid (not_le.mp hlarge) hagrees
  · exact checkAgrees_of_le hvalid

/-- **Bounds checks on x86-64**: in a verified function, of either kind, the emitted checks decide
like the interpreter, for every binding and every offset, exactly if no access uses a region
beyond 126. -/
theorem bounds_checks_agree_iff (f : Function) (hf : f.verify = .ok ()) (g : ControlFlowFunction)
    (hg : g.verify = .ok ()) :
    ((∀ a ∈ checkedAccesses f, CheckAgrees a) ↔
      ∀ a ∈ checkedAccesses f, a.access.region.toNat ≤ 126) ∧
    ((∀ a ∈ checkedControlAccesses g, CheckAgrees a) ↔
      ∀ a ∈ checkedControlAccesses g, a.access.region.toNat ≤ 126) := by
  have hverified := Function.verify_eq_ok.mp hf
  have hcontrol := ControlFlowFunction.verify_verified hg
  constructor
  · exact forall₂_congr fun a ha => checkAgrees_iff (mem_checkedAccesses hverified ha).1
  · exact forall₂_congr fun a ha => checkAgrees_iff (mem_checkedControlAccesses hcontrol ha).1

/-- Loads a byte of the last of its regions. -/
def loadSample (regions : BitVec 32) : Function where
  parameterTypes := [.word]
  nodes :=
    [{ opcode := .parameter },
     { opcode := .op (.memory .loadWord), lhs := .ofIndex 0, memoryAccess := 0 }]
  memoryRegionCount := regions.toNat
  memoryAccesses := [{ region := regions - 1 }]
  returnValue := .ofIndex 1

/-- The same access in a function of one block. -/
def loadControlSample (regions : BitVec 32) : ControlFlowFunction where
  parameterTypes := [.word]
  nodes :=
    [{ opcode := .parameter },
     { opcode := .op (.memory .loadWord), lhs := .ofIndex 0, memoryAccess := 0 }]
  memoryRegionCount := regions.toNat
  memoryAccesses := [{ region := regions - 1 }]
  entryBlock := .ofIndex 0
  blocks :=
    [{ parameters := [.ofIndex 0]
       instructions := [.ofIndex 0, .ofIndex 1]
       terminator := .ret (.ofIndex 1) }]

/-- With 127 regions every check agrees, in both forms. -/
theorem bounds_checks_agree_sample :
    (loadSample 127).verify = .ok () ∧ (loadControlSample 127).verify = .ok () ∧
      (∀ a ∈ checkedAccesses (loadSample 127), CheckAgrees a) ∧
      ∀ a ∈ checkedControlAccesses (loadControlSample 127), CheckAgrees a := by
  have hagrees := bounds_checks_agree_iff (loadSample 127) (by decide) (loadControlSample 127)
    (by decide)
  refine ⟨by decide, by decide, hagrees.1.mpr ?_, hagrees.2.mpr ?_⟩
  · decide
  · decide

/-- A function with 128 regions, which an embedder may admit, is compiled to a check that does not
decide like the interpreter. -/
theorem bounds_checks_differ :
    (loadSample 128).verify = .ok () ∧
      validateFunctionLimits (loadSample 128) {} { maximumMemoryRegions := 128 } = .ok () ∧
      ∃ a ∈ checkedAccesses (loadSample 128), ¬ CheckAgrees a := by
  refine ⟨by decide, by decide, ⟨{ region := 127 }, false, false⟩, by decide, ?_⟩
  apply not_checkAgrees
  · exact ⟨by decide, by decide, by decide⟩
  · decide

end UniJit.Jit.X86
