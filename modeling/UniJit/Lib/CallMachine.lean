import UniJit.Lib.SharedMemory

/-!
# Registers, a frame and calls

The part of a load-store machine that the instruction sets of this library share: thirty-two
registers of which `z` reads as zero, floating-point registers of `w` bits, a flag, the words of
the frame from the stack pointer up, and a thread that shares the rest of the memory. The frame
belongs to the machine alone.

A routine is called with a pointer to its arguments in the frame and their number. It keeps the
frame and the stack pointer; nothing is assumed of the registers afterwards but the result.

A `Home` is a register with its place in the frame. `saveAll` and `restoreAll` store and load
several: `slots_saveAll` and `words_restoreAll` say that what was saved is what is restored.
-/

namespace UniJit.Lib.CallMachine

open UniJit.Lib.SharedMemory

/-- A register number. -/
abbrev Register := Fin 32

/-- What a machine meets: the other threads, and the routines it calls. -/
structure Environment (w : Nat) extends Interference where
  /-- The routine at an address: from the number of its arguments, the arguments and the memory, its
  result, the memory after it and whether it stored. -/
  routine : BitVec 64 → BitVec 64 → (Nat → BitVec 64) → Contents → BitVec 64 × Contents × Bool
  /-- What calls leave in the registers. -/
  clobbered : Nat → Register → BitVec 64
  clobberedFloats : Nat → Register → BitVec w
  clobberedZero : Nat → Bool
  /-- What an instruction computes from the program counter. -/
  programRelative : BitVec 64

/-- A machine at a call: registers, flags, the frame and the thread's view of memory. -/
structure State (z : Register) (w : Nat) where
  registers : Register → BitVec 64
  floats : Register → BitVec w
  zero : Bool := false
  stackPointer : BitVec 64
  frame : Nat → BitVec 64
  thread : Thread

/-- A register with its place in the frame, which for a vector is a pair of words. -/
inductive Home
  | word (register : Register) (slot : Nat)
  | float (register : Register) (slot : Nat)
  | vector (register : Register) (pair : Nat)
  deriving DecidableEq, Repr

namespace Home

/-- The register of a home. -/
def register : Home → Register
  | .word r _ | .float r _ | .vector r _ => r

/-- The home of a word. -/
def isWord : Home → Bool
  | .word _ _ => true
  | _ => false

/-- The frame slots of a home. -/
def slots : Home → List Nat
  | .word _ slot | .float _ slot => [slot]
  | .vector _ pair => [2 * pair, 2 * pair + 1]

/-- The register exists, and is wide enough for the place. -/
def Fits (z : Register) (w : Nat) : Home → Prop
  | .word r _ => r ≠ z
  | .float _ _ => 64 ≤ w
  | .vector _ _ => 128 ≤ w

/-- Two homes that share neither a register nor a word of the frame. -/
def Apart (h h' : Home) : Prop :=
  (h.isWord = h'.isWord → h.register ≠ h'.register) ∧ List.Disjoint h.slots h'.slots

lemma Apart.symm {h h' : Home} (hapart : h.Apart h') : h'.Apart h :=
  ⟨fun hkind hregister => hapart.1 hkind.symm hregister.symm, hapart.2.symm⟩

end Home

namespace State

variable {z : Register} {w : Nat} (s : State z w)

/-- Reads a register; register `z` reads 0. -/
def read (r : Register) : BitVec 64 := if r = z then 0 else s.registers r

/-- Writes a register; writes to register `z` are lost. -/
def set (r : Register) (value : BitVec 64) : State z w :=
  if r = z then s else { s with registers := Function.update s.registers r value }

/-- The words that a home holds in its register. -/
def words : Home → List (BitVec 64)
  | .word r _ => [s.read r]
  | .float r _ => [(s.floats r).setWidth 64]
  | .vector r _ => [(s.floats r).setWidth 64, (s.floats r >>> 64).setWidth 64]

/-- Store a register into its place. -/
def save (h : Home) : State z w :=
  match h with
  | .word r slot => { s with frame := Function.update s.frame slot (s.read r) }
  | .float r slot => { s with frame := Function.update s.frame slot ((s.floats r).setWidth 64) }
  | .vector r pair =>
      { s with
        frame := Function.update
          (Function.update s.frame (2 * pair) ((s.floats r).setWidth 64)) (2 * pair + 1)
          ((s.floats r >>> 64).setWidth 64) }

/-- Load a register from its place. -/
def restore (h : Home) : State z w :=
  match h with
  | .word r slot => s.set r (s.frame slot)
  | .float r slot => { s with floats := Function.update s.floats r ((s.frame slot).setWidth w) }
  | .vector r pair =>
      { s with
        floats := Function.update s.floats r
          ((s.frame (2 * pair)).setWidth w ||| (s.frame (2 * pair + 1)).setWidth w <<< 64) }

/-- Saves every home to the frame. -/
def saveAll (homes : List Home) : State z w := homes.foldl save s

/-- Restores every home from the frame. -/
def restoreAll (homes : List Home) : State z w := homes.foldl restore s

/-- A call of the routine at `target`. -/
def call (e : Environment w) (target pointer count : BitVec 64) (result : Register) : State z w :=
  let arguments := fun i => s.frame ((pointer - s.stackPointer).toNat / 8 + i)
  let (value, thread) := e.toInterference.call s.thread (e.routine target count arguments)
  let calls := s.thread.accesses.length
  { s with
    registers := Function.update (e.clobbered calls) result value
    floats := e.clobberedFloats calls
    zero := e.clobberedZero calls
    thread := thread }

/-! ## Reading states -/

section reading

variable {r : Register} (q : Register) (value : BitVec 64)

lemma set_registers (hr : r ≠ z) :
    (s.set r value).registers q = if q = r then value else s.registers q := by
  simp [set, hr, Function.update_apply]

lemma read_of_ne (hr : r ≠ z) : s.read r = s.registers r := if_neg hr

/-- Writing what is there. -/
lemma set_read (hr : r ≠ z) : s.set r (s.read r) = s := by
  rw [set, if_neg hr, read_of_ne s hr, Function.update_eq_self]

/-- The later of two writes counts. -/
@[simp] lemma set_set (r : Register) (value' : BitVec 64) :
    (s.set r value).set r value' = s.set r value' := by
  unfold set
  split_ifs
  · rfl
  · rw [Function.update_idem]

@[simp] lemma set_floats (r : Register) : (s.set r value).floats = s.floats := by
  unfold set
  split_ifs <;> rfl

@[simp] lemma set_frame (r : Register) : (s.set r value).frame = s.frame := by
  unfold set
  split_ifs <;> rfl

@[simp] lemma set_thread (r : Register) : (s.set r value).thread = s.thread := by
  unfold set
  split_ifs <;> rfl

/-- A write to a register leaves the stack pointer alone. -/
@[simp] lemma set_stackPointer (r : Register) :
    (s.set r value).stackPointer = s.stackPointer := by
  unfold set
  split_ifs <;> rfl

end reading

/-- A home depends on its register only. -/
lemma words_congr {s s' : State z w} {home : Home}
    (hregister : home.isWord → s'.registers home.register = s.registers home.register)
    (hfloats : s'.floats = s.floats) : s'.words home = s.words home := by
  cases home with
  | word r slot =>
      have hr : s'.registers r = s.registers r := hregister rfl
      simp only [words, read, hr]
  | float r slot => simp only [words, hfloats]
  | vector r pair => simp only [words, hfloats]

/-! ## Scratch registers -/

/-- Two states that differ in some registers, the flag and the thread only. -/
structure Within (scratch : List Register) (s s' : State z w) : Prop where
  registers : ∀ r ∉ scratch, s'.registers r = s.registers r
  floats : s'.floats = s.floats
  frame : s'.frame = s.frame
  stackPointer : s'.stackPointer = s.stackPointer

namespace Within

variable {scratch : List Register} {s s' : State z w}

lemma refl (scratch : List Register) (s : State z w) : Within scratch s s :=
  ⟨fun _ _ => rfl, rfl, rfl, rfl⟩

/-- Writing a scratch register stays within them. -/
lemma set (h : Within scratch s s') {r : Register} (hr : r ∈ scratch) (value : BitVec 64) :
    Within scratch s (s'.set r value) := by
  refine ⟨fun q hq => ?_, ?_, ?_, ?_⟩
  · have hne : q ≠ r := fun heq => hq (heq ▸ hr)
    by_cases hz : r = z
    · rw [State.set, if_pos hz, h.registers q hq]
    · rw [set_registers _ _ _ hz, if_neg hne, h.registers q hq]
  · rw [set_floats, h.floats]
  · rw [set_frame, h.frame]
  · rw [set_stackPointer, h.stackPointer]

lemma thread (h : Within scratch s s') (t : Thread) : Within scratch s { s' with thread := t } :=
  ⟨h.registers, h.floats, h.frame, h.stackPointer⟩

lemma zero (h : Within scratch s s') (b : Bool) : Within scratch s { s' with zero := b } :=
  ⟨h.registers, h.floats, h.frame, h.stackPointer⟩

lemma mono {scratch' : List Register} (h : Within scratch s s') (hsub : scratch ⊆ scratch') :
    Within scratch' s s' :=
  ⟨fun r hr => h.registers r fun hmem => hr (hsub hmem), h.floats, h.frame, h.stackPointer⟩

/-- Staying within the scratch registers is transitive. -/
lemma trans {s'' : State z w} (h : Within scratch s s') (h' : Within scratch s' s'') :
    Within scratch s s'' :=
  ⟨fun r hr => (h'.registers r hr).trans (h.registers r hr), h'.floats.trans h.floats,
    h'.frame.trans h.frame, h'.stackPointer.trans h.stackPointer⟩

lemma words (h : Within scratch s s') {home : Home}
    (hregister : home.isWord → home.register ∉ scratch) : s'.words home = s.words home :=
  words_congr (fun hword => h.registers _ (hregister hword)) h.floats

end Within

/-! ## Saving and restoring -/

section homes

variable (h : Home) (homes : List Home)

@[simp] lemma save_registers : (s.save h).registers = s.registers := by cases h <;> rfl

@[simp] lemma save_floats : (s.save h).floats = s.floats := by cases h <;> rfl

@[simp] lemma save_thread : (s.save h).thread = s.thread := by cases h <;> rfl

@[simp] lemma save_stackPointer : (s.save h).stackPointer = s.stackPointer := by cases h <;> rfl

/-- Restoring leaves the frame alone. -/
@[simp] lemma restore_frame : (s.restore h).frame = s.frame := by
  cases h with
  | word r slot => exact set_frame s _ r
  | float r slot => rfl
  | vector r pair => rfl

/-- Restoring leaves the memory alone. -/
@[simp] lemma restore_thread : (s.restore h).thread = s.thread := by
  cases h with
  | word r slot => exact set_thread s _ r
  | float r slot => rfl
  | vector r pair => rfl

/-- Restoring leaves the stack pointer alone. -/
@[simp] lemma restore_stackPointer : (s.restore h).stackPointer = s.stackPointer := by
  cases h with
  | word r slot => exact set_stackPointer s _ r
  | float r slot => rfl
  | vector r pair => rfl

/-- Saving does not change what the registers hold. -/
lemma words_save (h' : Home) : (s.save h).words h' = s.words h' := by
  cases h' <;> simp only [words, read, save_registers, save_floats]

/-- Saving writes the home's own slots only. -/
lemma save_frame_of_notMem {k : Nat} (hk : k ∉ h.slots) : (s.save h).frame k = s.frame k := by
  cases h with
  | word r slot =>
      rw [Home.slots, List.mem_singleton] at hk
      exact Function.update_of_ne hk _ _
  | float r slot =>
      rw [Home.slots, List.mem_singleton] at hk
      exact Function.update_of_ne hk _ _
  | vector r pair =>
      rw [Home.slots, List.mem_pair, not_or] at hk
      exact (Function.update_of_ne hk.2 _ _).trans (Function.update_of_ne hk.1 _ _)

/-- After a save the slots hold the home's words. -/
lemma slots_save : h.slots.map (s.save h).frame = s.words h := by
  cases h with
  | word r slot => simp [Home.slots, save, words]
  | float r slot => simp [Home.slots, save, words]
  | vector r pair => simp [Home.slots, save, words]

section saveAll

/-- Saving all changes no register. -/
@[simp] lemma saveAll_registers : (s.saveAll homes).registers = s.registers := by
  induction homes generalizing s with
  | nil => rfl
  | cons h homes ih => exact (ih _).trans (save_registers s h)

/-- Saving all changes no float register. -/
@[simp] lemma saveAll_floats : (s.saveAll homes).floats = s.floats := by
  induction homes generalizing s with
  | nil => rfl
  | cons h homes ih => exact (ih _).trans (save_floats s h)

/-- Saving all leaves the memory alone. -/
@[simp] lemma saveAll_thread : (s.saveAll homes).thread = s.thread := by
  induction homes generalizing s with
  | nil => rfl
  | cons h homes ih => exact (ih _).trans (save_thread s h)

/-- Saving all leaves the stack pointer alone. -/
@[simp] lemma saveAll_stackPointer : (s.saveAll homes).stackPointer = s.stackPointer := by
  induction homes generalizing s with
  | nil => rfl
  | cons h homes ih => exact (ih _).trans (save_stackPointer s h)

/-- Saving all writes the homes' slots only. -/
lemma saveAll_frame_of_notMem {k : Nat} (hk : ∀ h ∈ homes, k ∉ h.slots) :
    (s.saveAll homes).frame k = s.frame k := by
  induction homes generalizing s with
  | nil => rfl
  | cons h homes ih =>
      rw [List.forall_mem_cons] at hk
      exact (ih _ hk.2).trans (save_frame_of_notMem s h hk.1)

/-- Every place holds what its register did. -/
lemma slots_saveAll (hapart : homes.Pairwise Home.Apart) :
    ∀ h ∈ homes, h.slots.map (s.saveAll homes).frame = s.words h := by
  induction homes generalizing s with
  | nil => exact List.forall_mem_nil _
  | cons h homes ih =>
      rw [List.pairwise_cons] at hapart
      rw [List.forall_mem_cons]
      constructor
      · rw [← slots_save s h]
        apply List.map_congr_left
        intro k hk
        exact saveAll_frame_of_notMem _ _ fun h' hh' hk' => (hapart.1 h' hh').2 hk hk'
      · intro h' hh'
        exact (ih _ hapart.2 h' hh').trans (words_save s h h')

end saveAll

section restoreAll

/-- Restoring all leaves the frame alone. -/
@[simp] lemma restoreAll_frame : (s.restoreAll homes).frame = s.frame := by
  induction homes generalizing s with
  | nil => rfl
  | cons h homes ih => exact (ih _).trans (restore_frame s h)

/-- Restoring all leaves the memory alone. -/
@[simp] lemma restoreAll_thread : (s.restoreAll homes).thread = s.thread := by
  induction homes generalizing s with
  | nil => rfl
  | cons h homes ih => exact (ih _).trans (restore_thread s h)

/-- Restoring all leaves the stack pointer alone. -/
@[simp] lemma restoreAll_stackPointer : (s.restoreAll homes).stackPointer = s.stackPointer := by
  induction homes generalizing s with
  | nil => rfl
  | cons h homes ih => exact (ih _).trans (restore_stackPointer s h)

/-- A restored register does not disturb the others. -/
lemma words_restore_of_apart {h h' : Home} (hapart : h.isWord = h'.isWord → h.register ≠ h'.register) :
    (s.restore h).words h' = s.words h' := by
  cases h with
  | word r slot =>
      cases h' with
      | word r' slot' =>
          have hne : r' ≠ r := fun heq => hapart rfl heq.symm
          by_cases hr : r = z
          · simp [words, restore, set, hr]
          · simp [words, restore, read, set_registers s _ _ hr, hne]
      | float r' slot' => simp [words, restore]
      | vector r' pair => simp [words, restore]
  | float r slot =>
      cases h' with
      | word r' slot' => simp [words, restore, read]
      | float r' slot' =>
          have hne : r' ≠ r := fun heq => hapart rfl heq.symm
          simp [words, restore, hne]
      | vector r' pair =>
          have hne : r' ≠ r := fun heq => hapart rfl heq.symm
          simp [words, restore, hne]
  | vector r pair =>
      cases h' with
      | word r' slot' => simp [words, restore, read]
      | float r' slot' =>
          have hne : r' ≠ r := fun heq => hapart rfl heq.symm
          simp [words, restore, hne]
      | vector r' pair' =>
          have hne : r' ≠ r := fun heq => hapart rfl heq.symm
          simp [words, restore, hne]

/-- A restored home has the words of its slots. -/
lemma words_restore (hfits : h.Fits z w) : (s.restore h).words h = h.slots.map s.frame := by
  cases h with
  | word r slot =>
      have hr : r ≠ z := hfits
      simp [words, restore, read_of_ne _ hr, set_registers s _ _ hr, Home.slots]
  | float r slot =>
      have hw : 64 ≤ w := hfits
      simp [words, restore, Home.slots, BitVec.setWidth_setWidth_of_le _ hw]
  | vector r pair =>
      have hw : 128 ≤ w := hfits
      have hlow : ((s.frame (2 * pair)).setWidth w |||
          (s.frame (2 * pair + 1)).setWidth w <<< 64).setWidth 64 = s.frame (2 * pair) := by
        apply BitVec.eq_of_getLsbD_eq
        intro i hi
        have hiw : i < w := by omega
        simp [hi, hiw]
      have hhigh : (((s.frame (2 * pair)).setWidth w |||
          (s.frame (2 * pair + 1)).setWidth w <<< 64) >>> 64).setWidth 64 =
            s.frame (2 * pair + 1) := by
        apply BitVec.eq_of_getLsbD_eq
        intro i hi
        have hiw : 64 + i < w := by omega
        simp [hi, hiw]
      simp [words, restore, Home.slots, hlow, hhigh]

/-- Restoring all leaves a home apart from them alone. -/
lemma words_restoreAll_of_apart {h : Home} (hapart : ∀ h' ∈ homes, h'.Apart h) :
    (s.restoreAll homes).words h = s.words h := by
  induction homes generalizing s with
  | nil => rfl
  | cons h' homes ih =>
      rw [List.forall_mem_cons] at hapart
      exact (ih _ hapart.2).trans (words_restore_of_apart s hapart.1.1)

/-- Every register holds what its place does. -/
lemma words_restoreAll (hapart : homes.Pairwise Home.Apart)
    (hfits : ∀ h ∈ homes, h.Fits z w) :
    ∀ h ∈ homes, (s.restoreAll homes).words h = h.slots.map s.frame := by
  induction homes generalizing s with
  | nil => exact List.forall_mem_nil _
  | cons h homes ih =>
      rw [List.pairwise_cons] at hapart
      rw [List.forall_mem_cons] at hfits ⊢
      constructor
      · rw [← words_restore s h hfits.1]
        exact words_restoreAll_of_apart _ homes fun h' hh' => (hapart.1 h' hh').symm
      · intro h' hh'
        refine (ih _ hapart.2 hfits.2 h' hh').trans ?_
        rw [restore_frame]

end restoreAll

end homes

end State

end UniJit.Lib.CallMachine
