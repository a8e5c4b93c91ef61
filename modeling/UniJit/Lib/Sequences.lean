import UniJit.Lib.MachineCode

/-!
# Instruction sequences

Machine code as a list of instructions, all of one size. An assembler appends instructions and
later patches its branches: `Assembly` is such an assembler, and positions count instructions. A
machine runs the list from a position; a displacement counts from the branch.

`Completes` is as for blocks of bytes: wherever the list stands in a program, a machine that is at
one of its positions reaches its end in a state with a given property. A list with a symbolic front
is read through `at_front`, and a stretch without branches runs in one step by `straight`.
-/

namespace UniJit.Lib.Sequences

open UniJit.Lib.MachineCode (Effect)

/-! ## Assembling -/

/-- An assembler of instructions `I`. -/
abbrev Assembly (I : Type) := StateM (List I)

variable {I S : Type}

/-- Appends an instruction. -/
def emit (i : I) : Assembly I Unit := modify (· ++ [i])

/-- The number of instructions so far. -/
def size : Assembly I Nat := do pure (← get).length

/-- Exchanges an instruction that was emitted. -/
def patch (position : Nat) (i : I) : Assembly I Unit := modify (·.set position i)

/-- Append several instructions. -/
def emitAll (is : List I) : Assembly I Unit := is.forM emit

section assembling

variable {code : List I}

variable (code) in
lemma run_emit (i : I) : (emit i).run code = pure ((), code ++ [i]) := rfl

variable (code) in
lemma run_size : (size : Assembly I Nat).run code = pure (code.length, code) := by
  rw [size, StateT.run_bind]
  rfl

variable (code) in
/-- What emitting several leaves. -/
lemma run_emitAll (is : List I) : (emitAll is).run code = pure ((), code ++ is) := by
  induction is generalizing code with
  | nil => simp [emitAll, StateT.run_pure]
  | cons i is ih =>
      have hcons : emitAll (i :: is) = emit i >>= fun _ => emitAll is := rfl
      rw [hcons, StateT.run_bind, run_emit, pure_bind, ih, List.append_assoc, List.singleton_append]

end assembling

/-! ## Running -/

variable (step : I → S → Effect S)

/-- One step of the code. -/
def next (code : List I) (c : Nat × S) : Option (Nat × S) :=
  code[c.1]?.bind fun i => (step i c.2).after c.1 1

/-- Some number of steps; there is no result if the machine is stuck before. -/
def run (code : List I) : Nat → Nat × S → Option (Nat × S)
  | 0, c => some c
  | n + 1, c => (next step code c).bind (run code n)

/-- A machine that is at position `k` of the code, wherever the code stands, reaches its end in a
state with `Q`. -/
def Completes (code : List I) (k : Nat) (s : S) (Q : S → Prop) : Prop :=
  ∀ pre post, ∃ n s', run step (pre ++ code ++ post) n (pre.length + k, s) =
    some (pre.length + code.length, s') ∧ Q s'

variable {step} {code : List I} {k j : Nat} {i : I} {s s' : S} {Q R : S → Prop}

namespace Completes

/-- At its end code completes in its state. -/
lemma done (hk : k = code.length) (h : Q s) : Completes step code k s Q := by
  intro pre post
  exact ⟨0, s, by rw [hk]; rfl, h⟩

/-- One instruction, and what the machine does from where it then is. -/
lemma head (h : code[k]? = some i)
    (hstep : ∀ base, (step i s).after (base + k) 1 = some (base + j, s'))
    (hrest : Completes step code j s' Q) : Completes step code k s Q := by
  intro pre post
  obtain ⟨n, s'', hrun, hQ⟩ := hrest pre post
  refine ⟨n + 1, s'', ?_, hQ⟩
  have hk : k < code.length := (List.getElem?_eq_some_iff.mp h).1
  have hread : (pre ++ code ++ post)[pre.length + k]? = some i := by
    rw [List.append_assoc, List.getElem?_append_right (Nat.le_add_right _ _), Nat.add_sub_cancel_left,
      List.getElem?_append_left hk, h]
  rw [run, next]
  simp only [hread, Option.bind_some]
  rw [hstep]
  exact hrun

/-- An instruction that goes on completes where the rest does. -/
lemma next (h : code[k]? = some i) (hstep : step i s = .next s')
    (hrest : Completes step code (k + 1) s' Q) : Completes step code k s Q := by
  refine head h (fun base => ?_) hrest
  rw [hstep]
  rfl

/-- A jump to position `j`. -/
lemma jump {displacement : Int} (h : code[k]? = some i) (hstep : step i s = .jump displacement s')
    (htarget : (k : Int) + displacement = j) (hrest : Completes step code j s' Q) :
    Completes step code k s Q := by
  refine head h (fun base => ?_) hrest
  have hposition : ((base + k : Nat) : Int) + displacement = (base + j : Nat) := by omega
  rw [hstep, Effect.after, hposition, if_pos (Int.natCast_nonneg _), Int.toNat_natCast]

end Completes

/-! ## Stretches of code -/

/-- What a stretch of code without branches makes of a state. -/
def through (step : I → S → Effect S) : List I → S → Option S
  | [], s => some s
  | i :: is, s =>
      match step i s with
      | .next s' => through step is s'
      | _ => none

/-- Two sequences in a row run one after the other. -/
lemma through_append (is js : List I) (s : S) :
    through step (is ++ js) s = (through step is s).bind (through step js) := by
  induction is generalizing s with
  | nil => rfl
  | cons i is ih =>
      simp only [List.cons_append, through]
      split
      · exact ih _
      · rfl

/-- A sequence runs instruction by instruction. -/
lemma through_cons (h : step i s = .next s') (is : List I) :
    through step (i :: is) s = through step is s' := by
  simp only [through, h]

/-- The instruction at a position behind a front. -/
lemma at_front {front is back : List I} (h : is[j]? = some i) :
    (front ++ (is ++ back))[front.length + j]? = some i := by
  have hj : j < is.length := (List.getElem?_eq_some_iff.mp h).1
  rw [List.getElem?_append_right (Nat.le_add_right _ _), Nat.add_sub_cancel_left,
    List.getElem?_append_left hj, h]

/-- The instruction at a position of a back. -/
lemma at_back {front middle is : List I} (h : is[j]? = some i)
    (hk : k = front.length + middle.length + j) : (front ++ (middle ++ is))[k]? = some i := by
  rw [hk, Nat.add_assoc, List.getElem?_append_right (Nat.le_add_right _ _),
    Nat.add_sub_cancel_left, List.getElem?_append_right (Nat.le_add_right _ _),
    Nat.add_sub_cancel_left, h]

/-- A stretch without branches. -/
lemma Completes.straight {front is back : List I} (h : through step is s = some s')
    (hrest : Completes step (front ++ (is ++ back)) (front.length + is.length) s' Q) :
    Completes step (front ++ (is ++ back)) front.length s Q := by
  induction is generalizing front s with
  | nil =>
      obtain rfl := Option.some.inj h
      exact hrest
  | cons i is ih =>
      have hread : (front ++ (i :: is ++ back))[front.length]? = some i := by
        rw [List.getElem?_append_right le_rfl, Nat.sub_self]
        rfl
      simp only [through] at h
      split at h
      · rename_i middle hstep
        refine Completes.next hread hstep ?_
        have hcode : front ++ (i :: is ++ back) = front ++ [i] ++ (is ++ back) := by simp
        have hlength : front.length + 1 = (front ++ [i]).length := by simp
        have hend : front.length + (i :: is).length = (front ++ [i]).length + is.length := by
          simp [Nat.add_assoc, Nat.add_comm 1]
        rw [hcode, hend] at hrest
        rw [hcode, hlength]
        exact ih h hrest
      · cases h

/-- A stretch without branches in front. -/
lemma Completes.first {is back : List I} (h : through step is s = some s')
    (hrest : Completes step (is ++ back) is.length s' Q) : Completes step (is ++ back) 0 s Q := by
  have hrun : Completes step ([] ++ (is ++ back)) ([] : List I).length s Q := by
    refine Completes.straight h ?_
    rw [List.nil_append, List.length_nil, Nat.zero_add]
    exact hrest
  exact hrun

/-- Code without branches. -/
lemma Completes.of_through (h : through step code s = some s') (hQ : Q s') :
    Completes step code 0 s Q := by
  have hrun : Completes step (code ++ []) 0 s Q := Completes.first h (Completes.done (by simp) hQ)
  rwa [List.append_nil] at hrun

end UniJit.Lib.Sequences
