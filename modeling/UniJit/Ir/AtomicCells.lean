import UniJit.Ir.MemoryAccess

/-!
# Atomic operations on cells

What an atomic operation does to a cell of some number of bits, without masks and without a choice
of where a value is truncated: `replace` is the value the cell then holds, and an operation hands
out the old value, zero-extended, or for a store the operand it was given.

`accessBoundedAtomic_eq` says that the interpreter, which works on masked words, does this.
-/

namespace UniJit.Ir

open UniJit.Lib UniJit.Runtime

/-! ## Cells -/

/-- The value that a cell holds after an operation. -/
def AtomicOpcode.replace {k : Nat} (o : AtomicOpcode) (cell operand desired : BitVec k) : BitVec k :=
  match o with
  | .load => cell
  | .store => operand
  | .exchange => operand
  | .compareExchange => if cell = operand then desired else cell
  | .fetchAdd => cell + operand
  | .fetchAnd => cell &&& operand
  | .fetchOr => cell ||| operand
  | .fetchXor => cell ^^^ operand

/-- The cell of some bytes at an address. -/
def cellAt (n : Nat) (m : Machine) (address : Nat) : BitVec (8 * n) :=
  ofLeBytes (8 * n) (m.readBytes address n)

/-- The machine after a cell of `n` bytes is written at an address, least significant byte first. -/
def setCellAt (n : Nat) (m : Machine) (address : Nat) (cell : BitVec (8 * n)) : Machine :=
  m.writeBytes address (leBytes n cell)

/-- The word that an atomic operation hands out. -/
def atomicResult {k : Nat} (o : AtomicOpcode) (value : Word) (cell : BitVec k) : Word :=
  if o = .store then value else cell.setWidth 64

/-- The machine after an atomic operation on a cell of `n` bytes. -/
def atomicMachine (n : Nat) (o : AtomicOpcode) (m : Machine) (address : Nat) (value desired : Word) :
    Machine :=
  setCellAt n m address
    (o.replace (cellAt n m address) (value.setWidth (8 * n)) (desired.setWidth (8 * n)))

lemma length_readBytes (m : Machine) (address count : Nat) :
    (m.readBytes address count).length = count := by
  simp [Machine.readBytes]

/-- Writing back what was read changes nothing. -/
lemma setCellAt_cellAt (n : Nat) (m : Machine) (address : Nat) :
    setCellAt n m address (cellAt n m address) = m := by
  have hbytes : leBytes n (cellAt n m address) = m.readBytes address n :=
    leBytes_ofLeBytes le_rfl (length_readBytes m address n)
  have hmemory : (m.writeBytes address (m.readBytes address n)).memory = m.memory := by
    funext a
    simp only [Machine.writeBytes, length_readBytes]
    split_ifs with hinside
    · have hindex : a - address < n := by omega
      have haddress : address + (a - address) = a := by omega
      simp [Machine.readBytes, hindex, haddress]
    · rfl
  rw [setCellAt, hbytes]
  exact congrArg (fun memory => { m with memory := memory }) hmemory

/-- A compare-exchange writes exactly when the low bits match. -/
lemma atomicMachine_compareExchange (n : Nat) (m : Machine) (address : Nat) (value desired : Word) :
    atomicMachine n .compareExchange m address value desired =
      if cellAt n m address = value.setWidth (8 * n) then
        setCellAt n m address (desired.setWidth (8 * n))
      else m := by
  unfold atomicMachine AtomicOpcode.replace
  split_ifs
  · rfl
  · exact setCellAt_cellAt n m address

/-! ## Masked words -/

/-- A value of few bytes is read at any width that holds them. -/
lemma setWidth_ofLeBytes {k m : Nat} {bs : List Byte} (hk : 8 * bs.length ≤ k) :
    (ofLeBytes k bs).setWidth m = ofLeBytes m bs := by
  apply BitVec.eq_of_getLsbD_eq
  intro i hi
  rw [BitVec.getLsbD_setWidth, getLsbD_ofLeBytes, getLsbD_ofLeBytes]
  by_cases hlow : i < k
  · simp [hlow]
  · have hbyte : bs[i / 8]? = none := List.getElem?_eq_none (by omega)
    simp [hlow, List.getD, hbyte]

/-- Zero bytes on top do not count. -/
lemma ofLeBytes_append_zeros (k count : Nat) (bs : List Byte) :
    ofLeBytes k (bs ++ List.replicate count 0) = ofLeBytes k bs := by
  apply BitVec.eq_of_getLsbD_eq
  intro i _
  rw [getLsbD_ofLeBytes, getLsbD_ofLeBytes]
  by_cases hinside : i / 8 < bs.length
  · simp [List.getD, List.getElem?_append_left hinside]
  · have hbyte : bs[i / 8]? = none := List.getElem?_eq_none (not_lt.mp hinside)
    rw [List.getD, List.getD, List.getElem?_append_right (not_lt.mp hinside), hbyte,
      List.getElem?_replicate]
    split_ifs <;> rfl

/-- The bytes of a word keep their order when only the first are taken. -/
lemma take_leBytes {k n count : Nat} (h : count ≤ n) (w : BitVec k) :
    (leBytes n w).take count = leBytes count w := by
  rw [leBytes, leBytes, ← List.map_take, List.take_range, Nat.min_eq_left h]

/-- Bits above the bytes asked for do not change them. -/
lemma leBytes_setWidth {k m n : Nat} (hn : 8 * n ≤ m) (w : BitVec k) :
    leBytes n (w.setWidth m) = leBytes n w := by
  apply List.map_congr_left
  intro i hi
  rw [List.mem_range] at hi
  apply BitVec.eq_of_getLsbD_eq
  intro j hj
  have hinside : 8 * i + j < m := by omega
  simp [BitVec.getLsbD_ushiftRight, hj, hinside]

section masks

variable {n : Nat}

lemma widthMask_eq (hn : n ≤ 8) : widthMask n = (BitVec.allOnes (8 * n)).setWidth 64 := by
  interval_cases n <;> rfl

/-- A mask keeps the bits of a cell. -/
lemma and_widthMask (hn : n ≤ 8) (w : Word) :
    w &&& widthMask n = (w.setWidth (8 * n)).setWidth 64 := by
  apply BitVec.eq_of_getLsbD_eq
  intro i hi
  rw [widthMask_eq hn, BitVec.getLsbD_and, BitVec.getLsbD_setWidth, BitVec.getLsbD_setWidth,
    BitVec.getLsbD_setWidth, BitVec.getLsbD_allOnes]
  cases w.getLsbD i <;> simp [hi]

lemma setWidth_setWidth_cell (hn : n ≤ 8) (cell : BitVec (8 * n)) :
    (cell.setWidth 64).setWidth (8 * n) = cell := by
  rw [BitVec.setWidth_setWidth_of_le _ (by omega), BitVec.setWidth_eq]

/-- Comparing widened cells is comparing the cells. -/
lemma setWidth_cell_inj (hn : n ≤ 8) (cell cell' : BitVec (8 * n)) :
    cell.setWidth 64 = cell'.setWidth 64 ↔ cell = cell' := by
  refine ⟨fun h => ?_, fun h => h ▸ rfl⟩
  rw [← setWidth_setWidth_cell hn cell, h, setWidth_setWidth_cell hn]

/-- What an operation writes over a masked word, as a cell. -/
lemma atomicReplacement_eq (hn : n ≤ 8) (o : AtomicOpcode) (cell : BitVec (8 * n))
    (value desired : Word) :
    ((atomicReplacement o (widthMask n) (cell.setWidth 64) (value &&& widthMask n)
      (desired &&& widthMask n)).getD (cell.setWidth 64)).setWidth (8 * n) =
        o.replace cell (value.setWidth (8 * n)) (desired.setWidth (8 * n)) := by
  have hbits : 8 * n ≤ 64 := by omega
  rw [and_widthMask hn, and_widthMask hn]
  cases o with
  | compareExchange =>
      simp only [atomicReplacement, AtomicOpcode.replace, setWidth_cell_inj hn]
      split_ifs
      · exact setWidth_setWidth_cell hn _
      · exact setWidth_setWidth_cell hn _
  | fetchAdd =>
      simp only [atomicReplacement, AtomicOpcode.replace, Option.getD_some, and_widthMask hn,
        setWidth_setWidth_cell hn, BitVec.setWidth_add _ _ hbits]
  | load => exact setWidth_setWidth_cell hn _
  | store => exact setWidth_setWidth_cell hn _
  | exchange => exact setWidth_setWidth_cell hn _
  | fetchAnd =>
      simp only [atomicReplacement, AtomicOpcode.replace, Option.getD_some, BitVec.setWidth_and,
        setWidth_setWidth_cell hn]
  | fetchOr =>
      simp only [atomicReplacement, AtomicOpcode.replace, Option.getD_some, BitVec.setWidth_or,
        setWidth_setWidth_cell hn]
  | fetchXor =>
      simp only [atomicReplacement, AtomicOpcode.replace, Option.getD_some, BitVec.setWidth_xor,
        setWidth_setWidth_cell hn]

end masks

/-! ## The interpreter -/

section interpreter

variable {host : Host} {n : Nat}

/-- On a little-endian host the word read from a cell's bytes is the cell widened. -/
lemma nativeWordOfBytes_eq (hlittle : host.littleEndian = true) (m : Machine) (address : Nat) :
    nativeWordOfBytes host (m.readBytes address n) = (cellAt n m address).setWidth 64 := by
  rw [nativeWordOfBytes, memoryOrder, if_pos hlittle, ofLeBytes_append_zeros, cellAt,
    setWidth_ofLeBytes (by rw [length_readBytes])]

lemma nativeBytesOfWord_eq (hlittle : host.littleEndian = true) (hn : n ≤ 8) (w : Word) :
    nativeBytesOfWord host n w = leBytes n (w.setWidth (8 * n)) := by
  rw [nativeBytesOfWord, memoryOrder, if_pos hlittle, take_leBytes hn, leBytes_setWidth le_rfl]

/-- **The interpreter's atomics work on cells**: once an access is resolved, the operation is the
one on the cell. -/
lemma accessBoundedAtomic_eq (hlittle : host.littleEndian = true) {access : AtomicAccessDescriptor}
    {o : AtomicOpcode} {byteOffset value desired : Word} {site : Nat} {m : Machine} {address : Nat}
    (hresolved : boundedAddress access.memory byteOffset (o ≠ .load) m.context = .ok (address, n))
    (hn : n ≤ 8) :
    (accessBoundedAtomic host access o byteOffset value desired site).run m =
      .ok (atomicResult o value (cellAt n m address)) (atomicMachine n o m address value desired) := by
  have hreplace := atomicReplacement_eq hn o (cellAt n m address) value desired
  have hobserved : nativeWordOfBytes host (m.readBytes address n) &&& widthMask n =
      (cellAt n m address).setWidth 64 := by
    rw [nativeWordOfBytes_eq hlittle, and_widthMask hn, setWidth_setWidth_cell hn]
  have hmachine : ∀ w : Word, w.setWidth (8 * n) = o.replace (cellAt n m address)
      (value.setWidth (8 * n)) (desired.setWidth (8 * n)) →
      m.writeBytes address (leBytes n (w.setWidth (8 * n))) =
        atomicMachine n o m address value desired := by
    intro w hw
    rw [hw]
    rfl
  have hresolve : resolveBoundedMemory access.memory byteOffset site (o ≠ .load) m =
      .ok (address, n) m := resolveBoundedMemory_ok hresolved
  rw [accessBoundedAtomic]
  show EStateM.bind _ _ m = _
  rw [EStateM.bind, hresolve]
  dsimp only
  rw [get_bind, hobserved]
  cases hwrite : atomicReplacement o (widthMask n) ((cellAt n m address).setWidth 64)
      (value &&& widthMask n) (desired &&& widthMask n) with
  | none =>
      rw [hwrite, Option.getD_none] at hreplace
      have hkept := hmachine _ hreplace
      rw [setWidth_setWidth_cell hn] at hkept
      rw [← hkept]
      exact congrArg _ (setCellAt_cellAt n m address).symm
  | some replacement =>
      rw [hwrite, Option.getD_some] at hreplace
      rw [← hmachine _ hreplace, ← nativeBytesOfWord_eq hlittle hn]
      rfl

end interpreter

end UniJit.Ir
