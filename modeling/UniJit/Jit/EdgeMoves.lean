import UniJit.Jit.ControlFlowAllocator
import UniJit.Lib.ParallelMove

/-!
# Moves along a control edge

When every parameter of an edge's target has a register of its own, the arguments are moved
straight into these registers. `planControlFlowEdgeMoves` puts the moves into an order: a move
whose destination no other pending move reads comes first; if there is none, the moves left are
cycles, and one destination is saved to the temporary of its bank.

The machine of the second half executes the planned moves as the code generator emits them. Word
registers hold 64 bits and SIMD registers 128; a `Float64` move carries the low 64 bits and clears
the others, and a vector is loaded from an even slot.

Main result: `planControlFlowEdgeMoves_delivers`, by the general theory of `UniJit.Lib.Delivering`.
-/

namespace UniJit.Jit

open UniJit.Ir UniJit.Lib

/-- Where a move reads. -/
inductive ControlFlowMoveSource
  | register
  | stack
  | temporary
  deriving DecidableEq, Repr

/-- A planned move. A missing destination stands for the temporary of the move's bank. -/
structure ControlFlowRegisterMove where
  sourceKind : ControlFlowMoveSource := .register
  sourceIndex : Option Nat := some 0
  destinationIndex : Option Nat := some 0
  type : ValueType := .word
  deriving DecidableEq, Repr

/-- The moves of an edge, when it uses registers only. -/
structure ControlFlowEdgeMoves where
  usesRegisters : Bool := false
  moves : List ControlFlowRegisterMove := []
  deriving DecidableEq, Repr

/-- The bank of physical registers that values of a type use. -/
def physicalBank (type : ValueType) : RegisterBank :=
  if type = .float64 ∨ isVectorValueType type then .simd else .word

/-- Two types live in the same registers. -/
def sharesPhysicalRegisterBank (lhs rhs : ValueType) : Prop := physicalBank lhs = physicalBank rhs

/-- Whether two types live in the same registers can be computed. -/
instance (lhs rhs : ValueType) : Decidable (sharesPhysicalRegisterBank lhs rhs) :=
  inferInstanceAs (Decidable (physicalBank lhs = physicalBank rhs))

/-! ## The plan -/

section plan

variable (f : ControlFlowFunction) (allocation : ControlFlowRegisterAllocation)
  (currentBlock : Nat)

/-- An argument is read from its register only in the block that defines it. -/
def sourceInRegister (argument : Value) : Prop :=
  allocation.ownerBlocks.getD argument.index none = some currentBlock ∧
    allocation.register argument.index ≠ none

/-- Whether an argument is in a register can be computed. -/
instance (argument : Value) : Decidable (sourceInRegister allocation currentBlock argument) :=
  inferInstanceAs (Decidable (_ ∧ _))

/-- The move of an argument into a parameter's register. -/
def edgeMove (parameter argument : Value) : ControlFlowRegisterMove :=
  if sourceInRegister allocation currentBlock argument then
    ⟨.register, allocation.register argument.index, allocation.register parameter.index,
      f.valueType parameter⟩
  else
    ⟨.stack, allocation.slot argument.index, allocation.register parameter.index,
      f.valueType parameter⟩

/-- The moves of an edge, without those from a register to itself; nothing if a parameter has no
register or shares one with an earlier parameter. -/
def collectEdgeMoves :
    List (Value × Value) → List ControlFlowRegisterMove → Option (List ControlFlowRegisterMove)
  | [], _ => some []
  | (parameter, argument) :: rest, destinations =>
      let type := f.valueType parameter
      let destination := allocation.register parameter.index
      if destination = none ∨ ∃ existing ∈ destinations,
          sharesPhysicalRegisterBank existing.type type ∧
            existing.destinationIndex = destination then
        none
      else do
        let pending ← collectEdgeMoves rest (destinations ++ [⟨.register, some 0, destination, type⟩])
        let move := edgeMove f allocation currentBlock parameter argument
        if move.sourceKind = .register ∧ move.sourceIndex = destination ∧
            sharesPhysicalRegisterBank (f.valueType argument) type then
          some pending
        else
          some (move :: pending)

end plan

/-- A pending move reads the destination of the candidate. -/
def destinationIsSource (pending : List ControlFlowRegisterMove)
    (candidate : ControlFlowRegisterMove) : Bool :=
  pending.any fun move => decide (sharesPhysicalRegisterBank move.type candidate.type ∧
    move.sourceKind = .register ∧ move.sourceIndex = candidate.destinationIndex)

/-- The type to save a blocked destination with: a vector type if some pending move reads it as a
vector. -/
def savedType (pending : List ControlFlowRegisterMove) (front : ControlFlowRegisterMove) :
    ValueType :=
  match pending.find? fun move => decide (move.sourceKind = .register ∧
      move.sourceIndex = front.destinationIndex ∧
      sharesPhysicalRegisterBank move.type front.type ∧ isVectorValueType move.type) with
  | some move => move.type
  | none => front.type

/-- A pending move that reads the saved register reads the temporary instead. -/
def redirectToTemporary (savedRegister : Option Nat) (saved : ValueType)
    (move : ControlFlowRegisterMove) : ControlFlowRegisterMove :=
  if sharesPhysicalRegisterBank move.type saved ∧ move.sourceKind = .register ∧
      move.sourceIndex = savedRegister then
    { move with sourceKind := .temporary, sourceIndex := some 0 }
  else move

/-- One iteration of the planning loop: the move it emits and the moves left. -/
def planStep (front : ControlFlowRegisterMove) (rest : List ControlFlowRegisterMove) :
    ControlFlowRegisterMove × List ControlFlowRegisterMove :=
  let pending := front :: rest
  match pending.findIdx? fun candidate => !destinationIsSource pending candidate with
  | some ready => (pending.getD ready front, pending.eraseIdx ready)
  | none =>
      let saved := savedType pending front
      (⟨.register, front.destinationIndex, none, saved⟩,
        pending.map (redirectToTemporary front.destinationIndex saved))

/-- The planning loop, with a bound on its iterations. -/
def planMoves : Nat → List ControlFlowRegisterMove → Option (List ControlFlowRegisterMove)
  | _, [] => some []
  | 0, _ :: _ => none
  | fuel + 1, front :: rest =>
      (planMoves fuel (planStep front rest).2).map ((planStep front rest).1 :: ·)

/-- The plan of an edge that leaves `currentBlock`; `none` if the loop needs more than `fuel`
iterations. -/
def planControlFlowEdgeMoves (fuel : Nat) (f : ControlFlowFunction) (edge : ControlEdge)
    (allocation : ControlFlowRegisterAllocation) (currentBlock : Nat) :
    Option ControlFlowEdgeMoves :=
  let target := f.blocks.getD edge.target.index {}
  match collectEdgeMoves f allocation currentBlock (target.parameters.zip edge.arguments) [] with
  | none => some ⟨false, []⟩
  | some pending => (planMoves fuel pending).map fun moves => ⟨true, moves⟩

/-! ## The machine -/

/-- Registers, the two temporaries and the spill area of a frame. -/
structure EdgeMachine where
  word : Nat → Word
  simd : Nat → Vector128
  wordTemporary : Word
  simdTemporary : Vector128
  stack : Nat → Word

namespace EdgeMachine

/-- The low 64 bits of a SIMD register. -/
def low (v : Vector128) : Word := v.setWidth 64

/-- A vector load scales its offset by the vector size: an odd slot is rounded down. -/
def loadVector (s : EdgeMachine) (slot : Nat) : Vector128 :=
  s.stack (slot / 2 * 2 + 1) ++ s.stack (slot / 2 * 2)

/-- Writes a word register, or the temporary. -/
def writeWord (s : EdgeMachine) (w : Word) : Option Nat → EdgeMachine
  | some index => { s with word := Function.update s.word index w }
  | none => { s with wordTemporary := w }

/-- Writes a vector register, or the temporary. -/
def writeSimd (s : EdgeMachine) (v : Vector128) : Option Nat → EdgeMachine
  | some index => { s with simd := Function.update s.simd index v }
  | none => { s with simdTemporary := v }

/-- The value a move reads; `none` if the plan has no index for it. -/
def read {α : Type} (register slot : Nat → α) (temporary : α) (move : ControlFlowRegisterMove) :
    Option α :=
  match move.sourceKind with
  | .register => move.sourceIndex.map register
  | .stack => move.sourceIndex.map slot
  | .temporary => some temporary

/-- Execute one move, as the register path of `copy_edge_arguments` emits it. -/
def execute (s : EdgeMachine) (move : ControlFlowRegisterMove) : Option EdgeMachine :=
  if isVectorValueType move.type then
    (read s.simd s.loadVector s.simdTemporary move).map fun v =>
      s.writeSimd v move.destinationIndex
  else if move.type = .float64 then
    (read (fun i => low (s.simd i)) s.stack (low s.simdTemporary) move).map fun w =>
      s.writeSimd (w.setWidth 128) move.destinationIndex
  else
    (read s.word s.stack s.wordTemporary move).map fun w => s.writeWord w move.destinationIndex

/-- Execute a list of moves in order. -/
def run (s : EdgeMachine) (moves : List ControlFlowRegisterMove) : Option EdgeMachine :=
  moves.foldlM execute s

/-- The value of a type in a register. -/
def registerValue (s : EdgeMachine) (type : ValueType) (register : Nat) : Vector128 :=
  if isVectorValueType type then s.simd register
  else if type = .float64 then (low (s.simd register)).setWidth 128
  else (s.word register).setWidth 128

/-- The value of a type in a stack slot; a vector takes the slot and the one behind it. -/
def slotValue (s : EdgeMachine) (type : ValueType) (slot : Nat) : Vector128 :=
  if isVectorValueType type then s.stack (slot + 1) ++ s.stack slot
  else (s.stack slot).setWidth 128

/-- What the register of an argument, or else its slot, holds. -/
def argumentValue (s : EdgeMachine) (f : ControlFlowFunction)
    (allocation : ControlFlowRegisterAllocation) (currentBlock : Nat) (argument : Value) :
    Option Vector128 :=
  if sourceInRegister allocation currentBlock argument then
    (allocation.register argument.index).map (s.registerValue (f.valueType argument))
  else
    (allocation.slot argument.index).map (s.slotValue (f.valueType argument))

end EdgeMachine

/-! ## Termination of the planning loop -/

section termination

/-- The value saved from a register is of its bank. -/
lemma physicalBank_savedType (pending : List ControlFlowRegisterMove)
    (front : ControlFlowRegisterMove) :
    physicalBank (savedType pending front) = physicalBank front.type := by
  unfold savedType
  split
  case h_1 move hfind =>
    have hmove := List.find?_some hfind
    simp only [decide_eq_true_eq] at hmove
    exact hmove.2.2.1
  case h_2 => rfl

/-- What decreases: every iteration removes a move or redirects one away from a register. -/
def planMeasure (pending : List ControlFlowRegisterMove) : Nat :=
  pending.length + pending.countP fun move => move.sourceKind = .register

/-- The two outcomes of an iteration: a move that no pending move blocks, or a blocked list whose
first destination is saved. -/
lemma planStep_cases (front : ControlFlowRegisterMove) (rest : List ControlFlowRegisterMove) :
    (∃ before move after, front :: rest = before ++ move :: after ∧
        destinationIsSource (front :: rest) move = false ∧
        planStep front rest = (move, before ++ after)) ∨
      ((∀ candidate ∈ front :: rest, destinationIsSource (front :: rest) candidate = true) ∧
        planStep front rest =
          (⟨.register, front.destinationIndex, none, savedType (front :: rest) front⟩,
            (front :: rest).map
              (redirectToTemporary front.destinationIndex (savedType (front :: rest) front)))) := by
  cases hready : (front :: rest).findIdx?
      fun candidate => !destinationIsSource (front :: rest) candidate with
  | some i =>
      left
      obtain ⟨hi, hnot, -⟩ := List.findIdx?_eq_some_iff_getElem.mp hready
      refine ⟨(front :: rest).take i, (front :: rest)[i], (front :: rest).drop (i + 1), ?_, ?_, ?_⟩
      · rw [List.cons_getElem_drop_succ, List.take_append_drop]
      · simpa using hnot
      · simp only [planStep, hready]
        rw [List.eraseIdx_eq_take_drop_succ, List.getD, List.getElem?_eq_getElem hi,
          Option.getD_some]
  | none =>
      right
      refine ⟨fun candidate hmem => ?_, by simp only [planStep, hready]⟩
      simpa using List.findIdx?_eq_none_iff.mp hready candidate hmem

/-- An iteration makes the measure smaller. -/
lemma planMeasure_planStep (front : ControlFlowRegisterMove) (rest : List ControlFlowRegisterMove) :
    planMeasure (planStep front rest).2 < planMeasure (front :: rest) := by
  obtain ⟨before, move, after, hpending, -, hstep⟩ | ⟨hblocked, hstep⟩ := planStep_cases front rest
  · rw [hstep, hpending]
    simp only [planMeasure, List.length_append, List.length_cons, List.countP_append,
      List.countP_cons]
    omega
  · rw [hstep]
    have hfront := hblocked front (by simp)
    simp only [destinationIsSource, List.any_eq_true, decide_eq_true_eq] at hfront
    obtain ⟨reader, hreader, hshares, hkind, hindex⟩ := hfront
    set saved := savedType (front :: rest) front with hsaved
    set redirect := redirectToTemporary front.destinationIndex saved
    have hmono : ∀ l : List ControlFlowRegisterMove,
        (l.map redirect).countP (fun move => move.sourceKind = .register) ≤
          l.countP fun move => move.sourceKind = .register := by
      intro l
      rw [List.countP_map]
      apply List.countP_mono_left
      intro move _ hmove
      simp only [Function.comp_apply, redirect, redirectToTemporary] at hmove
      split_ifs at hmove
      · exact absurd hmove (by simp)
      · exact hmove
    have hredirected : (redirect reader).sourceKind = .temporary := by
      simp only [redirect, redirectToTemporary]
      rw [if_pos ⟨hshares.trans (physicalBank_savedType _ _).symm, hkind, hindex⟩]
    obtain ⟨before, after, hsplit⟩ := List.append_of_mem hreader
    simp only [planMeasure, hsplit, List.length_map, List.length_append, List.length_cons,
      List.map_append, List.map_cons, List.countP_append, List.countP_cons, hkind, hredirected]
    have hbefore := hmono before
    have hafter := hmono after
    simp only [decide_true, if_true, reduceCtorEq, decide_false, Bool.false_eq_true, if_false]
    omega

/-- **The planning loop ends**, and the plan does not depend on the bound. -/
lemma planMoves_terminates (pending : List ControlFlowRegisterMove) :
    ∃ moves, ∀ fuel, planMeasure pending ≤ fuel → planMoves fuel pending = some moves := by
  induction hn : planMeasure pending using Nat.strong_induction_on generalizing pending with
  | _ n ih =>
      cases pending with
      | nil => exact ⟨[], fun fuel _ => by cases fuel <;> rfl⟩
      | cons front rest =>
          have hlt := planMeasure_planStep front rest
          obtain ⟨moves, hmoves⟩ := ih _ (hn ▸ hlt) (planStep front rest).2 rfl
          refine ⟨(planStep front rest).1 :: moves, fun fuel hfuel => ?_⟩
          cases fuel with
          | zero => omega
          | succ fuel =>
              rw [planMoves, hmoves fuel (by omega)]
              rfl

end termination

/-! ## Moves as parallel moves

The locations of the general theory are the registers, the temporaries and the slots; a slot is
a location of its own for each width it is read with, since no move writes the stack. -/

/-- The places that moves read and write. -/
inductive MoveLocation
  | register (bank : RegisterBank) (index : Nat)
  | temporary (bank : RegisterBank)
  | slot (vector : Bool) (index : Nat)
  deriving DecidableEq

/-- What moves of a type carry: the whole of a vector, 64 bits of anything else. -/
def typeView (type : ValueType) (v : Vector128) : Vector128 :=
  if isVectorValueType type then v else (EdgeMachine.low v).setWidth 128

/-- What a place holds, widened to a vector. -/
def EdgeMachine.contents (s : EdgeMachine) : MoveLocation → Vector128
  | .register .word index => (s.word index).setWidth 128
  | .register .simd index => s.simd index
  | .temporary .word => s.wordTemporary.setWidth 128
  | .temporary .simd => s.simdTemporary
  | .slot true index => s.loadVector index
  | .slot false index => (s.stack index).setWidth 128

namespace ControlFlowRegisterMove

/-- The place a move reads. -/
def source (m : ControlFlowRegisterMove) : MoveLocation :=
  match m.sourceKind with
  | .register => .register (physicalBank m.type) (m.sourceIndex.getD 0)
  | .stack => .slot (isVectorValueType m.type) (m.sourceIndex.getD 0)
  | .temporary => .temporary (physicalBank m.type)

/-- The place a move writes. -/
def destination (m : ControlFlowRegisterMove) : MoveLocation :=
  match m.destinationIndex with
  | some index => .register (physicalBank m.type) index
  | none => .temporary (physicalBank m.type)

/-- A move between places. -/
def toMove (m : ControlFlowRegisterMove) : Move MoveLocation ValueType :=
  ⟨m.source, m.destination, m.type⟩

/-- A pending move: its source has an index, and its destination is a register. -/
structure Pending (m : ControlFlowRegisterMove) : Prop where
  source : m.sourceIndex ≠ none
  destination : m.destinationIndex ≠ none

end ControlFlowRegisterMove

section machine

open ControlFlowRegisterMove

/-- The low word of a widened word. -/
@[simp] lemma low_setWidth (w : Word) : EdgeMachine.low (w.setWidth 128) = w := by
  unfold EdgeMachine.low
  rw [BitVec.setWidth_setWidth_of_le _ (by omega), BitVec.setWidth_eq]

/-- Viewing a value under its type twice is viewing it once. -/
lemma typeView_typeView (type : ValueType) (v : Vector128) :
    typeView type (typeView type v) = typeView type v := by
  unfold typeView
  split_ifs <;> simp

/-- Vectors live in the vector registers. -/
lemma physicalBank_vector {type : ValueType} (h : isVectorValueType type = true) :
    physicalBank type = .simd := by
  rw [physicalBank, if_pos (.inr h)]

/-- What the places hold after a word is written. -/
lemma contents_writeWord (s : EdgeMachine) (w : Word) (m : ControlFlowRegisterMove)
    (hbank : physicalBank m.type = .word) :
    (s.writeWord w m.destinationIndex).contents =
      Function.update s.contents m.destination (w.setWidth 128) := by
  funext l
  unfold EdgeMachine.writeWord ControlFlowRegisterMove.destination
  rw [hbank]
  cases m.destinationIndex with
  | none => cases l with
    | temporary bank => cases bank <;> simp [EdgeMachine.contents]
    | register bank index => cases bank <;> simp [EdgeMachine.contents]
    | slot vector index => cases vector <;> simp [EdgeMachine.contents, EdgeMachine.loadVector]
  | some d => cases l with
    | temporary bank => cases bank <;> simp [EdgeMachine.contents]
    | register bank index =>
        cases bank
        · by_cases hd : index = d <;> simp [EdgeMachine.contents, hd]
        · simp [EdgeMachine.contents]
    | slot vector index => cases vector <;> simp [EdgeMachine.contents, EdgeMachine.loadVector]

/-- What the places hold after a vector is written. -/
lemma contents_writeSimd (s : EdgeMachine) (v : Vector128) (m : ControlFlowRegisterMove)
    (hbank : physicalBank m.type = .simd) :
    (s.writeSimd v m.destinationIndex).contents = Function.update s.contents m.destination v := by
  funext l
  unfold EdgeMachine.writeSimd ControlFlowRegisterMove.destination
  rw [hbank]
  cases m.destinationIndex with
  | none => cases l with
    | temporary bank => cases bank <;> simp [EdgeMachine.contents]
    | register bank index => cases bank <;> simp [EdgeMachine.contents]
    | slot vector index => cases vector <;> simp [EdgeMachine.contents, EdgeMachine.loadVector]
  | some d => cases l with
    | temporary bank => cases bank <;> simp [EdgeMachine.contents]
    | register bank index =>
        cases bank
        · simp [EdgeMachine.contents]
        · by_cases hd : index = d <;> simp [EdgeMachine.contents, hd]
    | slot vector index => cases vector <;> simp [EdgeMachine.contents, EdgeMachine.loadVector]

/-- **The machine executes moves of the general theory.** -/
lemma execute_eq (s : EdgeMachine) (m : ControlFlowRegisterMove) (hsource : m.sourceIndex ≠ none) :
    ∃ s', s.execute m = some s' ∧ s'.stack = s.stack ∧
      s'.contents = m.toMove.exec typeView s.contents := by
  obtain ⟨i, hi⟩ := Option.ne_none_iff_exists'.mp hsource
  have hstackW : ∀ w, (s.writeWord w m.destinationIndex).stack = s.stack := by
    intro w
    unfold EdgeMachine.writeWord
    split <;> rfl
  have hstackV : ∀ v, (s.writeSimd v m.destinationIndex).stack = s.stack := by
    intro v
    unfold EdgeMachine.writeSimd
    split <;> rfl
  unfold EdgeMachine.execute
  by_cases hvec : isVectorValueType m.type = true
  · rw [if_pos hvec]
    have hbank := physicalBank_vector hvec
    cases hkind : m.sourceKind <;>
      simp only [EdgeMachine.read, hkind, hi, Option.map_some] <;>
      refine ⟨_, rfl, hstackV _, ?_⟩ <;>
      rw [contents_writeSimd s _ m hbank] <;>
      simp [Move.exec, Move.value, toMove, ControlFlowRegisterMove.source, hkind, hi, hbank, hvec,
        typeView, EdgeMachine.contents, -isVectorValueType_eq_not]
  · rw [if_neg hvec]
    by_cases hfloat : m.type = .float64
    · rw [if_pos hfloat]
      have hbank : physicalBank m.type = .simd := by simp [physicalBank, hfloat]
      cases hkind : m.sourceKind <;>
        simp only [EdgeMachine.read, hkind, hi, Option.map_some] <;>
        refine ⟨_, rfl, hstackV _, ?_⟩ <;>
        rw [contents_writeSimd s _ m hbank] <;>
        simp [Move.exec, Move.value, toMove, ControlFlowRegisterMove.source, hkind, hi, hbank, hvec,
          typeView, EdgeMachine.contents, -isVectorValueType_eq_not]
    · rw [if_neg hfloat]
      have hbank : physicalBank m.type = .word := by
        rw [physicalBank, if_neg (not_or.mpr ⟨hfloat, hvec⟩)]
      cases hkind : m.sourceKind <;>
        simp only [EdgeMachine.read, hkind, hi, Option.map_some] <;>
        refine ⟨_, rfl, hstackW _, ?_⟩ <;>
        rw [contents_writeWord s _ m hbank] <;>
        simp [Move.exec, Move.value, toMove, ControlFlowRegisterMove.source, hkind, hi, hbank, hvec,
          typeView, EdgeMachine.contents, -isVectorValueType_eq_not]

end machine

/-! ## Planned moves deliver -/

section delivers

open ControlFlowRegisterMove

variable {initial : MoveLocation → Vector128} {requested : List (Move MoveLocation ValueType)}

/-- The planner's test on indices and banks compares locations. -/
lemma source_eq_destination_iff {m c : ControlFlowRegisterMove} (hm : m.Pending) (hc : c.Pending) :
    m.source = c.destination ↔ sharesPhysicalRegisterBank m.type c.type ∧
      m.sourceKind = .register ∧ m.sourceIndex = c.destinationIndex := by
  obtain ⟨i, hi⟩ := Option.ne_none_iff_exists'.mp hm.source
  obtain ⟨d, hd⟩ := Option.ne_none_iff_exists'.mp hc.destination
  unfold ControlFlowRegisterMove.source ControlFlowRegisterMove.destination
    sharesPhysicalRegisterBank
  cases m.sourceKind <;> simp [hi, hd]

/-- A pending move writes a register. -/
lemma destination_eq_register {m : ControlFlowRegisterMove} (hm : m.Pending) :
    ∃ index, m.destination = .register (physicalBank m.type) index := by
  obtain ⟨d, hd⟩ := Option.ne_none_iff_exists'.mp hm.destination
  exact ⟨d, by rw [ControlFlowRegisterMove.destination, hd]⟩

/-- The source's test finds whether a destination is still to be read. -/
lemma destinationIsSource_iff {pending : List ControlFlowRegisterMove}
    {c : ControlFlowRegisterMove} (hpending : ∀ m ∈ pending, m.Pending) (hc : c.Pending) :
    destinationIsSource pending c = true ↔ ∃ m ∈ pending, m.source = c.destination := by
  simp only [destinationIsSource, List.any_eq_true, decide_eq_true_eq]
  constructor
  · rintro ⟨m, hm, hread⟩
    exact ⟨m, hm, (source_eq_destination_iff (hpending m hm) hc).mpr hread⟩
  · rintro ⟨m, hm, hread⟩
    exact ⟨m, hm, (source_eq_destination_iff (hpending m hm) hc).mp hread⟩

/-- Redirecting planned moves is redirecting moves of the general theory. -/
lemma toMove_redirectToTemporary {front m : ControlFlowRegisterMove} {saved : ValueType}
    (hfront : front.Pending) (hm : m.Pending) (hsaved : physicalBank saved = physicalBank front.type) :
    (redirectToTemporary front.destinationIndex saved m).toMove =
      m.toMove.redirect front.destination (.temporary (physicalBank front.type)) := by
  have hiff : m.toMove.source = front.destination ↔ sharesPhysicalRegisterBank m.type saved ∧
      m.sourceKind = .register ∧ m.sourceIndex = front.destinationIndex := by
    unfold sharesPhysicalRegisterBank
    rw [hsaved]
    exact source_eq_destination_iff hm hfront
  unfold redirectToTemporary Move.redirect
  by_cases hread : m.toMove.source = front.destination
  · have hcond := hiff.mp hread
    rw [if_pos hcond, if_pos hread]
    have hbank : physicalBank m.type = physicalBank front.type := hcond.1.trans hsaved
    simp only [toMove, ControlFlowRegisterMove.source, hbank]
    rfl
  · rw [if_neg fun hcond => hread (hiff.mpr hcond), if_neg hread]

/-- A redirected move is still pending. -/
lemma pending_redirectToTemporary {m : ControlFlowRegisterMove} (hm : m.Pending)
    (register : Option Nat) (saved : ValueType) : (redirectToTemporary register saved m).Pending := by
  unfold redirectToTemporary
  split_ifs
  · exact ⟨by simp, hm.destination⟩
  · exact hm

/-- The copy of a saved register has everything that its readers see. -/
lemma typeView_savedType {pending : List ControlFlowRegisterMove} {front m : ControlFlowRegisterMove}
    (hfront : front.Pending) (hmem : m ∈ pending) (hm : m.Pending)
    (hread : m.source = front.destination) (v : Vector128) :
    typeView m.type (typeView (savedType pending front) v) = typeView m.type v := by
  obtain ⟨hshares, hkind, hindex⟩ := (source_eq_destination_iff hm hfront).mp hread
  by_cases hsaved : isVectorValueType (savedType pending front) = true
  · conv_lhs => rw [typeView, typeView, if_pos hsaved]
    rfl
  · have hscalar : isVectorValueType m.type = false := by
      by_contra hvec
      rw [Bool.not_eq_false] at hvec
      unfold savedType at hsaved
      split at hsaved
      case h_1 move hfind =>
        have hmove := List.find?_some hfind
        simp only [decide_eq_true_eq] at hmove
        exact hsaved hmove.2.2.2
      case h_2 hfind =>
        have hnot := List.find?_eq_none.mp hfind m hmem
        exact hnot (decide_eq_true ⟨hkind, hindex, hshares, hvec⟩)
    simp only [typeView, hscalar, hsaved, Bool.false_eq_true, if_false, low_setWidth]

/-- **Step lemma**: an iteration of the planner emits a move after whose execution the moves left
still deliver the arguments. -/
lemma planStep_delivers {front : ControlFlowRegisterMove} {rest : List ControlFlowRegisterMove}
    {s : EdgeMachine} (hpending : ∀ m ∈ front :: rest, m.Pending)
    (htargets : ∀ m ∈ requested, ∃ bank index, m.destination = .register bank index)
    (h : Delivering typeView initial requested ((front :: rest).map toMove) s.contents) :
    (∀ m ∈ (planStep front rest).2, m.Pending) ∧
      ∃ s', s.execute (planStep front rest).1 = some s' ∧ s'.stack = s.stack ∧
        Delivering typeView initial requested ((planStep front rest).2.map toMove) s'.contents := by
  obtain ⟨before, move, after, hsplit, hready, hstep⟩ | ⟨hblocked, hstep⟩ :=
    planStep_cases front rest
  · rw [hstep]
    have hmove : move.Pending := hpending move (by rw [hsplit]; simp)
    obtain ⟨s', hs', hstack, hcontents⟩ := execute_eq s move hmove.source
    refine ⟨fun m hm => hpending m ?_, s', hs', hstack, ?_⟩
    · rw [hsplit]
      rcases List.mem_append.mp hm with hm | hm <;> simp [hm]
    · rw [hsplit, List.map_append, List.map_cons] at h
      rw [hcontents, List.map_append]
      apply h.emit typeView_typeView
      intro m' hm'
      rw [← List.map_cons, ← List.map_append, ← hsplit] at hm'
      obtain ⟨m, hm, rfl⟩ := List.mem_map.mp hm'
      intro heq
      have := (destinationIsSource_iff hpending hmove).mpr ⟨m, hm, heq⟩
      rw [hready] at this
      exact absurd this (by simp)
  · rw [hstep]
    have hfront : front.Pending := hpending front (by simp)
    have hsaved := physicalBank_savedType (front :: rest) front
    obtain ⟨s', hs', hstack, hcontents⟩ := execute_eq s
      ⟨.register, front.destinationIndex, none, savedType (front :: rest) front⟩ hfront.destination
    refine ⟨fun m' hm' => ?_, s', hs', hstack, ?_⟩
    · obtain ⟨m, hm, rfl⟩ := List.mem_map.mp hm'
      exact pending_redirectToTemporary (hpending m hm) _ _
    · -- every destination is still read, so the pending moves permute registers
      have hpermutation := source_mem_destinations h.nodup fun m' hm' => by
        obtain ⟨m, hm, rfl⟩ := List.mem_map.mp hm'
        obtain ⟨reader, hreader, hread⟩ :=
          (destinationIsSource_iff hpending (hpending m hm)).mp (hblocked m hm)
        exact ⟨reader.toMove, List.mem_map_of_mem hreader, hread⟩
      have hunread : ∀ m' ∈ (front :: rest).map toMove,
          m'.source ≠ .temporary (physicalBank front.type) := by
        intro m' hm' heq
        obtain ⟨d', hd', hdest⟩ := List.mem_map.mp (hpermutation m' hm')
        obtain ⟨d, hd, rfl⟩ := List.mem_map.mp hd'
        obtain ⟨index, hindex⟩ := destination_eq_register (hpending d hd)
        have : MoveLocation.register (physicalBank d.type) index =
            .temporary (physicalBank front.type) := hindex.symm.trans (hdest.trans heq)
        exact absurd this (by simp)
      have hmap : ((front :: rest).map (redirectToTemporary front.destinationIndex
            (savedType (front :: rest) front))).map toMove =
          ((front :: rest).map toMove).map
            (Move.redirect front.destination (.temporary (physicalBank front.type))) := by
        rw [List.map_map, List.map_map]
        exact List.map_congr_left fun m hm =>
          toMove_redirectToTemporary hfront (hpending m hm) hsaved
      have hsource : ControlFlowRegisterMove.toMove
            ⟨.register, front.destinationIndex, none, savedType (front :: rest) front⟩ =
          ⟨front.destination, .temporary (physicalBank front.type),
            savedType (front :: rest) front⟩ := by
        obtain ⟨d, hd⟩ := Option.ne_none_iff_exists'.mp hfront.destination
        simp only [toMove, ControlFlowRegisterMove.source, ControlFlowRegisterMove.destination, hd,
          hsaved, Option.getD_some]
      rw [hcontents, hmap, hsource]
      apply h.save hunread
      · intro m hm heq
        obtain ⟨bank, index, hregister⟩ := htargets m hm
        rw [hregister] at heq
        exact absurd heq (by simp)
      · intro m' hm' hread v
        obtain ⟨m, hm, rfl⟩ := List.mem_map.mp hm'
        exact typeView_savedType hfront hm (hpending m hm) hread v

/-- **Run lemma**: executing a whole plan delivers every requested move. -/
lemma planMoves_delivers {fuel : Nat} {pending moves : List ControlFlowRegisterMove}
    {s : EdgeMachine} (hpending : ∀ m ∈ pending, m.Pending)
    (htargets : ∀ m ∈ requested, ∃ bank index, m.destination = .register bank index)
    (h : Delivering typeView initial requested (pending.map toMove) s.contents)
    (hplan : planMoves fuel pending = some moves) :
    ∃ s', s.run moves = some s' ∧ s'.stack = s.stack ∧
      Delivering typeView initial requested [] s'.contents := by
  induction fuel generalizing pending moves s with
  | zero =>
      cases pending with
      | nil =>
          obtain rfl := Option.some.inj hplan
          exact ⟨s, rfl, rfl, h⟩
      | cons front rest => exact absurd hplan (by simp [planMoves])
  | succ fuel ih =>
      cases pending with
      | nil =>
          obtain rfl := Option.some.inj hplan
          exact ⟨s, rfl, rfl, h⟩
      | cons front rest =>
          rw [planMoves] at hplan
          obtain ⟨moves', hmoves', rfl⟩ := Option.map_eq_some_iff.mp hplan
          obtain ⟨hpending', s₁, hs₁, hstack₁, hdelivering⟩ := planStep_delivers hpending htargets h
          obtain ⟨s₂, hs₂, hstack₂, hdone⟩ := ih hpending' hdelivering hmoves'
          refine ⟨s₂, ?_, hstack₂.trans hstack₁, hdone⟩
          show ((planStep front rest).1 :: moves').foldlM EdgeMachine.execute s = some s₂
          rw [List.foldlM_cons, hs₁]
          exact hs₂

variable {f : ControlFlowFunction} {allocation : ControlFlowRegisterAllocation}
  {currentBlock : Nat}

/-- What the collection of an edge's moves guarantees. -/
structure Collected (f : ControlFlowFunction) (allocation : ControlFlowRegisterAllocation)
    (currentBlock : Nat) (pairs : List (Value × Value))
    (destinations pending : List ControlFlowRegisterMove) : Prop where
  register : ∀ pair ∈ pairs, allocation.register pair.1.index ≠ none
  sublist : pending.Sublist
    (pairs.map fun pair => edgeMove f allocation currentBlock pair.1 pair.2)
  self : ∀ pair ∈ pairs, edgeMove f allocation currentBlock pair.1 pair.2 ∉ pending →
    (edgeMove f allocation currentBlock pair.1 pair.2).source =
      (edgeMove f allocation currentBlock pair.1 pair.2).destination
  nodup : (pairs.map fun pair =>
    (edgeMove f allocation currentBlock pair.1 pair.2).destination).Nodup
  fresh : ∀ existing ∈ destinations, existing.destinationIndex ≠ none → ∀ pair ∈ pairs,
    existing.destination ≠ (edgeMove f allocation currentBlock pair.1 pair.2).destination

/-- A move has the type of its parameter. -/
@[simp] lemma edgeMove_type (parameter argument : Value) :
    (edgeMove f allocation currentBlock parameter argument).type = f.valueType parameter := by
  unfold edgeMove
  split_ifs <;> rfl

/-- A move writes the register of its parameter. -/
@[simp] lemma edgeMove_destinationIndex (parameter argument : Value) :
    (edgeMove f allocation currentBlock parameter argument).destinationIndex =
      allocation.register parameter.index := by
  unfold edgeMove
  split_ifs <;> rfl

/-- Two destination registers are one location if bank and index agree. -/
lemma destination_eq_iff {m c : ControlFlowRegisterMove} (hm : m.destinationIndex ≠ none)
    (hc : c.destinationIndex ≠ none) :
    m.destination = c.destination ↔
      sharesPhysicalRegisterBank m.type c.type ∧ m.destinationIndex = c.destinationIndex := by
  obtain ⟨i, hi⟩ := Option.ne_none_iff_exists'.mp hm
  obtain ⟨d, hd⟩ := Option.ne_none_iff_exists'.mp hc
  unfold ControlFlowRegisterMove.destination sharesPhysicalRegisterBank
  simp [hi, hd]

/-- What the collected moves are. -/
lemma collectEdgeMoves_spec {pairs : List (Value × Value)}
    {destinations pending : List ControlFlowRegisterMove}
    (h : collectEdgeMoves f allocation currentBlock pairs destinations = some pending) :
    Collected f allocation currentBlock pairs destinations pending := by
  induction pairs generalizing destinations pending with
  | nil =>
      obtain rfl := Option.some.inj h
      exact ⟨by simp, by simp, by simp, by simp, by simp⟩
  | cons pair pairs ih =>
      obtain ⟨parameter, argument⟩ := pair
      unfold collectEdgeMoves at h
      have hrefused : ¬(allocation.register parameter.index = none ∨ ∃ existing ∈ destinations,
          sharesPhysicalRegisterBank existing.type (f.valueType parameter) ∧
            existing.destinationIndex = allocation.register parameter.index) := by
        intro hrefused
        rw [if_pos hrefused] at h
        exact absurd h (by simp)
      rw [if_neg hrefused] at h
      obtain ⟨tail, htail, h⟩ := Option.bind_eq_some_iff.mp h
      have hrest := ih htail
      rw [not_or] at hrefused
      obtain ⟨hregister, hunique⟩ := hrefused
      set move := edgeMove f allocation currentBlock parameter argument with hmove
      have hmoveIndex : move.destinationIndex ≠ none := by
        rw [hmove, edgeMove_destinationIndex]
        exact hregister
      have hnew : ∀ other ∈ pairs,
          move.destination ≠ (edgeMove f allocation currentBlock other.1 other.2).destination := by
        intro other hother heq
        refine hrest.fresh ⟨.register, some 0, allocation.register parameter.index,
          f.valueType parameter⟩ (by simp) hregister other hother ?_
        rw [← heq]
        unfold ControlFlowRegisterMove.destination
        rw [hmove, edgeMove_destinationIndex, edgeMove_type]
      have hsub : pending = tail ∧ move.source = move.destination ∨ pending = move :: tail := by
        simp only at h
        split_ifs at h with hself
        · obtain ⟨hkind, hindex, -⟩ := hself
          refine .inl ⟨(Option.some.inj h).symm, ?_⟩
          obtain ⟨r, hr⟩ := Option.ne_none_iff_exists'.mp hregister
          unfold ControlFlowRegisterMove.source ControlFlowRegisterMove.destination
          rw [hkind, hindex, hmove, edgeMove_destinationIndex, hr]
          rfl
        · exact .inr (Option.some.inj h).symm
      constructor
      case register =>
        intro pair hpair
        rcases List.mem_cons.mp hpair with rfl | hpair
        · exact hregister
        · exact hrest.register pair hpair
      case sublist =>
        rw [List.map_cons]
        obtain ⟨rfl, -⟩ | rfl := hsub
        · exact hrest.sublist.cons _
        · exact hrest.sublist.cons_cons _
      case self =>
        intro pair hpair hnot
        obtain ⟨rfl, hself⟩ | rfl := hsub
        · rcases List.mem_cons.mp hpair with rfl | hpair
          · exact hself
          · exact hrest.self pair hpair hnot
        · rcases List.mem_cons.mp hpair with rfl | hpair
          · exact absurd (List.mem_cons_self) hnot
          · exact hrest.self pair hpair fun hmem => hnot (List.mem_cons_of_mem _ hmem)
      case nodup =>
        rw [List.map_cons, List.nodup_cons]
        refine ⟨fun hmem => ?_, hrest.nodup⟩
        obtain ⟨other, hother, heq⟩ := List.mem_map.mp hmem
        exact hnew other hother heq.symm
      case fresh =>
        intro existing hexisting hindex pair hpair
        rcases List.mem_cons.mp hpair with rfl | hpair
        · intro heq
          obtain ⟨hshares, hsame⟩ := (destination_eq_iff hindex hmoveIndex).mp heq
          rw [hmove, edgeMove_type] at hshares
          rw [hmove, edgeMove_destinationIndex] at hsame
          exact hunique ⟨existing, hexisting, hshares, hsame⟩
        · exact hrest.fresh existing (List.mem_append_left _ hexisting) hindex pair hpair

/-- A register is read as what its place holds, under a type. -/
lemma registerValue_eq (s : EdgeMachine) (type : ValueType) (r : Nat) :
    s.registerValue type r = typeView type (s.contents (.register (physicalBank type) r)) := by
  unfold EdgeMachine.registerValue typeView
  by_cases hvec : isVectorValueType type = true
  · rw [if_pos hvec, if_pos hvec, physicalBank_vector hvec]
    rfl
  · rw [if_neg hvec, if_neg hvec]
    by_cases hfloat : type = .float64
    · rw [if_pos hfloat, physicalBank, if_pos (.inl hfloat)]
      rfl
    · rw [if_neg hfloat, physicalBank, if_neg (not_or.mpr ⟨hfloat, hvec⟩)]
      exact (congrArg (BitVec.setWidth 128) (low_setWidth _)).symm

/-- An even slot is loaded as it is. -/
lemma slotValue_eq (s : EdgeMachine) (type : ValueType) (slot : Nat)
    (heven : isVectorValueType type = true → slot % 2 = 0) :
    s.slotValue type slot = typeView type (s.contents (.slot (isVectorValueType type) slot)) := by
  unfold EdgeMachine.slotValue typeView
  by_cases hvec : isVectorValueType type = true
  · have hround : slot / 2 * 2 = slot := by have := heven hvec; omega
    rw [if_pos hvec, if_pos hvec, hvec]
    simp only [EdgeMachine.contents, EdgeMachine.loadVector, hround]
  · rw [if_neg hvec, if_neg hvec, Bool.eq_false_of_not_eq_true hvec]
    exact (congrArg (BitVec.setWidth 128) (low_setWidth _)).symm

/-- An argument of an edge that leaves `currentBlock` has a register there or a slot. -/
lemma slot_isSome_of_argument {requirements : StackMapRequirements} {reuseFinalFloatLhs : Bool}
    {vectorMode : VectorRegisterMode} {block : BasicBlock} {argument : Value}
    (howned : f.Owned) (hsound : allocation.Sound f requirements reuseFinalFloatLhs vectorMode)
    (hblock : f.blocks[currentBlock]? = some block) (hvalid : f.validValue argument)
    (huse : argument ∈ terminatorUses block.terminator)
    (hstack : ¬ sourceInRegister allocation currentBlock argument) :
    (allocation.slot argument.index).isSome := by
  obtain ⟨b, i, hdef⟩ := howned.total hvalid.2
  by_cases hb : b = currentBlock
  · -- defined here, so it has no register
    rcases hsound.located _ hvalid.2 with hregister | hslot
    · have howner := (hsound.owners _ hvalid.2 currentBlock).mpr ⟨i, hb ▸ hdef⟩
      exact absurd ⟨howner, Option.isSome_iff_ne_none.mp hregister⟩ hstack
    · exact hslot
  · -- defined elsewhere, so its slot is persistent
    obtain ⟨s, hs, -⟩ := hsound.persistent _ b i currentBlock block.instructions.length hdef
      (Ne.symm hb) ⟨block, hblock, argument, hvalid.1, rfl, .inr ⟨rfl, huse⟩⟩
    simp [hs]

/-- The move of an edge carries what the argument's register or slot holds. -/
lemma argumentValue_eq {requirements : StackMapRequirements} {reuseFinalFloatLhs : Bool}
    {vectorMode : VectorRegisterMode} {parameter argument : Value}
    (hsound : allocation.Sound f requirements reuseFinalFloatLhs vectorMode)
    (hvalid : f.validValue argument) (htype : f.valueType argument = f.valueType parameter)
    (hpending : (edgeMove f allocation currentBlock parameter argument).Pending) (s : EdgeMachine) :
    s.argumentValue f allocation currentBlock argument =
      some ((edgeMove f allocation currentBlock parameter argument).toMove.value typeView
        s.contents) := by
  obtain ⟨i, hi⟩ := Option.ne_none_iff_exists'.mp hpending.source
  unfold EdgeMachine.argumentValue Move.value toMove
  by_cases hsource : sourceInRegister allocation currentBlock argument
  · simp only [edgeMove, hsource, if_true] at hi ⊢
    rw [hi, Option.map_some, registerValue_eq, htype]
    rfl
  · simp only [edgeMove, hsource, if_false] at hi ⊢
    rw [hi, Option.map_some, slotValue_eq, htype]
    · rfl
    · intro hvec
      rw [valueType_eq_valueTypeAt hvalid.1] at hvec
      exact (hsound.aligned _ i hi hvec).1

end delivers

/-- **Moves along an edge are a parallel assignment.** For every edge the planning loop ends; if
the plan uses registers, executing it from any machine state leaves every parameter's register
with what the register or slot of its argument held before the first move. -/
theorem planControlFlowEdgeMoves_delivers (f : ControlFlowFunction)
    (wordRegisterCount simdRegisterCount : Nat) (requirements : StackMapRequirements)
    (reuseFinalFloatLhs : Bool) (vectorMode : VectorRegisterMode)
    (allocation : ControlFlowRegisterAllocation) (currentBlock : Nat) (block target : BasicBlock)
    (edge : ControlEdge) (verified : f.verify = .ok ())
    (allocated : allocateControlFlowRegisters f wordRegisterCount simdRegisterCount requirements
      reuseFinalFloatLhs vectorMode = .ok allocation)
    (hblock : f.blocks[currentBlock]? = some block) (hedge : edge ∈ block.terminator.edges)
    (htarget : f.blocks[edge.target.index]? = some target) :
    ∃ plan bound,
      (∀ fuel, bound ≤ fuel →
        planControlFlowEdgeMoves fuel f edge allocation currentBlock = some plan) ∧
      (plan.usesRegisters = true → ∀ s : EdgeMachine, ∃ s', s.run plan.moves = some s' ∧
        ∀ (j : Nat) argument parameter, edge.arguments[j]? = some argument →
          target.parameters[j]? = some parameter →
          ∃ r v, allocation.register parameter.index = some r ∧
            s.argumentValue f allocation currentBlock argument = some v ∧
            s'.registerValue (f.valueType parameter) r = v) := by
  have howned := ControlFlowFunction.verify_owned verified
  have hsound := sound_of_allocateControlFlowRegisters howned allocated
  have hedgeOk := (howned.block hblock).edge edge hedge
  obtain ⟨hlength, harguments⟩ := hedgeOk.arguments target htarget
  have htargetD : f.blocks.getD edge.target.index {} = target := by
    rw [List.getD, htarget, Option.getD_some]
  set pairs := target.parameters.zip edge.arguments with hpairs
  have hpair : ∀ pair ∈ pairs, f.validValue pair.2 ∧ f.valueType pair.2 = f.valueType pair.1 := by
    intro pair hmem
    obtain ⟨j, hj⟩ := List.mem_iff_getElem?.mp hmem
    obtain ⟨hparameter, hargument⟩ := List.getElem?_zip_eq_some.mp hj
    exact harguments j pair.2 pair.1 hargument hparameter
  have huses : ∀ argument ∈ edge.arguments, argument ∈ terminatorUses block.terminator :=
    fun argument hmem => mem_terminatorUses_of_edge hedge hmem
  unfold planControlFlowEdgeMoves
  simp only [htargetD]
  cases hcollect : collectEdgeMoves f allocation currentBlock pairs [] with
  | none => exact ⟨⟨false, []⟩, 0, fun fuel _ => rfl, fun h => absurd h (by simp)⟩
  | some pending =>
      have hcollected := collectEdgeMoves_spec hcollect
      obtain ⟨moves, hmoves⟩ := planMoves_terminates pending
      refine ⟨⟨true, moves⟩, planMeasure pending, fun fuel hfuel => by simp [hmoves fuel hfuel],
        fun _ s => ?_⟩
      have hpairPending : ∀ pair ∈ pairs,
          (edgeMove f allocation currentBlock pair.1 pair.2).Pending := by
        intro pair hmem
        have hargument : pair.2 ∈ edge.arguments := (List.of_mem_zip hmem).2
        refine ⟨?_, by rw [edgeMove_destinationIndex]; exact hcollected.register pair hmem⟩
        unfold edgeMove
        split_ifs with hsource
        · exact hsource.2
        · exact Option.isSome_iff_ne_none.mp (slot_isSome_of_argument howned hsound hblock
            (hpair pair hmem).1 (huses pair.2 hargument) hsource)
      set requested := pairs.map fun pair =>
        (edgeMove f allocation currentBlock pair.1 pair.2).toMove with hrequested
      have hstart : Delivering typeView s.contents requested
          (pending.map ControlFlowRegisterMove.toMove) s.contents := by
        refine Delivering.start ?_ ?_ ?_
        · rw [hrequested, List.map_map]
          exact hcollected.nodup
        · have := hcollected.sublist.map ControlFlowRegisterMove.toMove
          rwa [List.map_map] at this
        · intro m hm hnot
          obtain ⟨pair, hmem, rfl⟩ := List.mem_map.mp hm
          exact hcollected.self pair hmem fun hin => hnot (List.mem_map_of_mem hin)
      obtain ⟨s', hs', -, hdone⟩ := planMoves_delivers
        (fun m hm => by
          obtain ⟨pair, hmem, rfl⟩ := List.mem_map.mp (hcollected.sublist.subset hm)
          exact hpairPending pair hmem)
        (fun m hm => by
          obtain ⟨pair, hmem, rfl⟩ := List.mem_map.mp hm
          obtain ⟨index, hindex⟩ := destination_eq_register (hpairPending pair hmem)
          exact ⟨_, index, hindex⟩)
        hstart (hmoves _ le_rfl)
      refine ⟨s', hs', fun j argument parameter hargument hparameter => ?_⟩
      have hmem : (parameter, argument) ∈ pairs :=
        List.mem_iff_getElem?.mpr ⟨j, List.getElem?_zip_eq_some.mpr ⟨hparameter, hargument⟩⟩
      obtain ⟨hvalid, htype⟩ := hpair _ hmem
      obtain ⟨r, hr⟩ := Option.ne_none_iff_exists'.mp (hcollected.register _ hmem)
      have hlanded := hdone.landed _ (List.mem_map_of_mem hmem) (by simp)
      refine ⟨r, _, hr, argumentValue_eq hsound hvalid htype (hpairPending _ hmem) s, ?_⟩
      rw [registerValue_eq, ← hlanded]
      simp only [ControlFlowRegisterMove.toMove, ControlFlowRegisterMove.destination,
        edgeMove_destinationIndex, edgeMove_type, hr]

/-- A loop that swaps its two parameters. -/
def swapSample : ControlFlowFunction where
  parameterTypes := [.word, .word]
  entryBlock := .ofIndex 0
  nodes :=
    [{ opcode := .parameter },
     { opcode := .parameter, immediate := 1 },
     { opcode := .blockParameter },
     { opcode := .blockParameter, immediate := 1 }]
  blocks :=
    [{ parameters := [.ofIndex 0, .ofIndex 1]
       instructions := [.ofIndex 0, .ofIndex 1]
       terminator := .jump ⟨.ofIndex 1, [.ofIndex 0, .ofIndex 1]⟩ },
     { parameters := [.ofIndex 2, .ofIndex 3]
       instructions := [.ofIndex 2, .ofIndex 3]
       terminator := .branch (.ofIndex 2) ⟨.ofIndex 1, [.ofIndex 3, .ofIndex 2]⟩ ⟨.ofIndex 2, []⟩ },
     { terminator := .ret (.ofIndex 3) }]

/-- Two parameters in exchanged registers. -/
def swapSampleAllocation : ControlFlowRegisterAllocation where
  registerIndices := [some 0, some 1, some 0, some 1]
  ownerBlocks := [some 0, some 0, some 1, some 1]
  requiresStack := [false, false, false, true]
  stackIndices := [none, none, none, some 0]
  stackSlots := 1
  liveAcrossCalls := [[], [], [], []]

/-- The swap goes through the temporary, and both parameters arrive. -/
theorem planControlFlowEdgeMoves_delivers_swapSample :
    planControlFlowEdgeMoves 4 swapSample ⟨.ofIndex 1, [.ofIndex 3, .ofIndex 2]⟩
        swapSampleAllocation 1 =
      some ⟨true, [⟨.register, some 0, none, .word⟩, ⟨.register, some 1, some 0, .word⟩,
        ⟨.temporary, some 0, some 1, .word⟩]⟩ ∧
    ∃ plan bound,
      (∀ fuel, bound ≤ fuel → planControlFlowEdgeMoves fuel swapSample
        ⟨.ofIndex 1, [.ofIndex 3, .ofIndex 2]⟩ swapSampleAllocation 1 = some plan) ∧
      (plan.usesRegisters = true → ∀ s : EdgeMachine, ∃ s', s.run plan.moves = some s' ∧
        ∀ (j : Nat) argument parameter, [Value.ofIndex 3, .ofIndex 2][j]? = some argument →
          [Value.ofIndex 2, .ofIndex 3][j]? = some parameter →
          ∃ r v, swapSampleAllocation.register parameter.index = some r ∧
            s.argumentValue swapSample swapSampleAllocation 1 argument = some v ∧
            s'.registerValue (swapSample.valueType parameter) r = v) := by
  have hverified : swapSample.verify = .ok () := by decide
  have hallocated : allocateControlFlowRegisters swapSample 2 1 [] false .sharedWithFloat64 =
      .ok swapSampleAllocation := by rfl
  refine ⟨by decide, ?_⟩
  exact planControlFlowEdgeMoves_delivers swapSample 2 1 [] false .sharedWithFloat64
    swapSampleAllocation 1 _ _ ⟨.ofIndex 1, [.ofIndex 3, .ofIndex 2]⟩ hverified hallocated rfl
    (by decide) rfl

end UniJit.Jit
