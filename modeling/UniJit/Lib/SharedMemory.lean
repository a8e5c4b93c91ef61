import UniJit.Lib.LittleEndian

/-!
# A thread among others

A thread shares a flat byte memory with other threads. Before each of its accesses the others may
have done anything to the memory, and a conditional store may fail for no reason: an `Interference`
fixes both, and a statement for every interference is one for every order of steps.

An access is one atomic step. The thread keeps a record of its accesses, with the memory before and
after each, so that "it changed the memory once" can be said of a finished run. `ActsOnce` says it:
all accesses but the last one are `Idle`, and the last one does to a cell what an operation does.

* `loadExclusive`, `storeConditional`: a load that reserves the bytes it observed, and a store that
  succeeds only while the memory still holds them;
* `update`, `call`: an atomic instruction, and a routine that is atomic as a whole;
* `Attempted.loadExclusive`, `Attempted.storeConditional`: the step rules of a retry loop;
* `ActsOnce.load`, `ActsOnce.store`, `ActsOnce.update`, `ActsOnce.call`: its ends.
-/

namespace UniJit.Lib.SharedMemory

/-! ## Cells -/

/-- What the memory holds. -/
abbrev Contents := Nat → BitVec 8

/-- The bytes from an address on. -/
def readBytes (n : Nat) (m : Contents) (address : Nat) : List (BitVec 8) :=
  (List.range n).map fun i => m (address + i)

/-- The cell of `n` bytes at an address. -/
def cell (n : Nat) (m : Contents) (address : Nat) : BitVec (8 * n) :=
  ofLeBytes (8 * n) (readBytes n m address)

/-- The memory after a cell is written. -/
def setCell (n : Nat) (m : Contents) (address : Nat) (value : BitVec (8 * n)) : Contents :=
  fun a =>
    if address ≤ a ∧ a < address + (leBytes n value).length then (leBytes n value).getD (a - address) 0
    else m a

/-- A cell after an operation that may store into it. -/
def storeInto (n : Nat) (m : Contents) (address : Nat) : Option (BitVec (8 * n)) → Contents
  | some value => setCell n m address value
  | none => m

/-! ## Threads -/

/-- The kinds of accesses. -/
inductive AccessKind
  | load | store | update | call
  deriving DecidableEq, Repr

/-- An access with the memory before and after it. -/
structure Access where
  kind : AccessKind
  before : Contents
  after : Contents
  stored : Bool

/-- An access that leaves the memory alone. -/
def Access.Idle (a : Access) : Prop := a.stored = false ∧ a.after = a.before

/-- What the other threads do between this thread's accesses. -/
structure Interference where
  /-- What the other threads make of the memory before an access. -/
  interfere : Nat → Contents → Contents
  /-- The conditional stores that fail although the memory holds what was observed. -/
  fails : Nat → Bool

/-- What a thread has done to the memory and what it has reserved. -/
structure Thread where
  /-- The memory after the latest access. -/
  memory : Contents
  /-- The address and the bytes that the latest exclusive load observed. -/
  reservation : Option (Nat × List (BitVec 8)) := none
  accesses : List Access := []

namespace Interference

variable (e : Interference) (t : Thread)

/-- The memory that the next access meets. -/
def observed : Contents := e.interfere t.accesses.length t.memory

/-- The thread after an access. -/
def access (kind : AccessKind) (after : Contents) (stored : Bool) : Thread where
  memory := after
  accesses := t.accesses ++ [⟨kind, e.observed t, after, stored⟩]

/-- A load. -/
def load (n address : Nat) : BitVec (8 * n) × Thread :=
  (cell n (e.observed t) address, e.access t .load (e.observed t) false)

/-- A store. -/
def store (n address : Nat) (value : BitVec (8 * n)) : Thread :=
  e.access t .store (setCell n (e.observed t) address value) true

/-- A load that reserves its cell. -/
def loadExclusive (n address : Nat) : BitVec (8 * n) × Thread :=
  (cell n (e.observed t) address,
    { e.access t .load (e.observed t) false with
      reservation := some (address, readBytes n (e.observed t) address) })

/-- A store that succeeds only if the memory still holds what the exclusive load observed. -/
def storeConditional (n address : Nat) (value : BitVec (8 * n)) : Bool × Thread :=
  if t.reservation = some (address, readBytes n (e.observed t) address) ∧
      e.fails t.accesses.length = false then
    (true, e.store t n address value)
  else (false, e.access t .store (e.observed t) false)

/-- An instruction that reads a cell and may store into it, as one step. -/
def update (n address : Nat) (f : BitVec (8 * n) → Option (BitVec (8 * n))) :
    BitVec (8 * n) × Thread :=
  let old := cell n (e.observed t) address
  (old, e.access t .update (storeInto n (e.observed t) address (f old)) (f old).isSome)

/-- A routine that reads and writes the memory as one step. -/
def call {α : Type} (routine : Contents → α × Contents × Bool) : α × Thread :=
  let (result, after, stored) := routine (e.observed t)
  (result, e.access t .call after stored)

end Interference

/-! ## Retry loops -/

/-- The number of accesses of a kind. -/
def countKind (kind : AccessKind) (accesses : List Access) : Nat :=
  accesses.countP (·.kind = kind)

/-- A thread that has so far only tried, since `t₀`: its accesses are idle, and `loads` of them are
loads and none is a call. -/
def Attempted (t₀ : Thread) (loads : Nat) (t : Thread) : Prop :=
  ∃ tried, t.accesses = t₀.accesses ++ tried ∧ (∀ a ∈ tried, a.Idle) ∧
    countKind .load tried = loads ∧ countKind .call tried = 0

/-- A thread that has done one operation on a cell since `t₀`, and nothing else to the memory. The
operation is `f`, on the value that the cell held, which is the result. -/
def ActsOnce {n : Nat} (address : Nat) (f : BitVec (8 * n) → Option (BitVec (8 * n)))
    (attempts : Nat) (t₀ t : Thread) (result : BitVec (8 * n)) : Prop :=
  ∃ tried last, t.accesses = t₀.accesses ++ tried ++ [last] ∧ (∀ a ∈ tried, a.Idle) ∧
    result = cell n last.before address ∧ last.after = storeInto n last.before address (f result) ∧
    last.stored = (f result).isSome ∧ countKind .load (tried ++ [last]) ≤ attempts ∧
    countKind .call (tried ++ [last]) ≤ 1

section rules

variable {e : Interference} {t₀ t : Thread} {loads attempts n address : Nat}
  {f : BitVec (8 * n) → Option (BitVec (8 * n))}

/-- One access more is counted when it is of the kind. -/
lemma countKind_append_singleton (kind : AccessKind) (accesses : List Access) (a : Access) :
    countKind kind (accesses ++ [a]) = countKind kind accesses + if a.kind = kind then 1 else 0 := by
  simp [countKind, List.countP_append, List.countP_cons]

lemma Attempted.start (t : Thread) : Attempted t 0 t :=
  ⟨[], (List.append_nil _).symm, List.forall_mem_nil _, rfl, rfl⟩

/-- One more idle access. -/
lemma Attempted.idle (h : Attempted t₀ loads t) (kind : AccessKind) (hkind : kind ≠ .call) :
    Attempted t₀ (loads + if kind = .load then 1 else 0) (e.access t kind (e.observed t) false) := by
  obtain ⟨tried, haccesses, hidle, hloads, hcalls⟩ := h
  refine ⟨tried ++ [⟨kind, e.observed t, e.observed t, false⟩], ?_, ?_, ?_, ?_⟩
  · simp only [Interference.access, haccesses, List.append_assoc]
  · rw [List.forall_mem_append, List.forall_mem_singleton]
    exact ⟨hidle, rfl, rfl⟩
  · rw [countKind_append_singleton, hloads]
  · rw [countKind_append_singleton, hcalls, if_neg hkind]

/-- An exclusive load is one attempt more. -/
lemma Attempted.loadExclusive (h : Attempted t₀ loads t) :
    Attempted t₀ (loads + 1) (e.loadExclusive t n address).2 :=
  h.idle .load (by decide)

/-- A conditional store that fails was only an attempt. -/
lemma Attempted.storeConditional (h : Attempted t₀ loads t) {value : BitVec (8 * n)}
    (hfailed : (e.storeConditional t n address value).1 = false) :
    Attempted t₀ loads (e.storeConditional t n address value).2 := by
  unfold Interference.storeConditional at hfailed ⊢
  split_ifs at hfailed ⊢
  exact h.idle .store (by decide)

/-- The last access of a loop: it does the operation to the cell that it meets. -/
lemma Attempted.act (h : Attempted t₀ loads t) (kind : AccessKind) (address : Nat)
    (f : BitVec (8 * n) → Option (BitVec (8 * n)))
    (hloads : (loads + if kind = .load then 1 else 0) ≤ attempts) :
    ActsOnce address f attempts t₀
      (e.access t kind (storeInto n (e.observed t) address (f (cell n (e.observed t) address)))
        (f (cell n (e.observed t) address)).isSome) (cell n (e.observed t) address) := by
  obtain ⟨tried, haccesses, hidle, hcount, hcalls⟩ := h
  let last : Access := ⟨kind, e.observed t,
    storeInto n (e.observed t) address (f (cell n (e.observed t) address)),
    (f (cell n (e.observed t) address)).isSome⟩
  refine ⟨tried, last, ?_, hidle, rfl, rfl, rfl, ?_, ?_⟩
  · simp only [Interference.access, haccesses, last]
  · rw [countKind_append_singleton, hcount]
    exact hloads
  · rw [countKind_append_singleton, hcalls]
    split_ifs <;> omega

/-- The reservation does not count. -/
lemma ActsOnce.congr {t' : Thread} {result : BitVec (8 * n)}
    (h : ActsOnce address f attempts t₀ t result) (haccesses : t'.accesses = t.accesses) :
    ActsOnce address f attempts t₀ t' result := by
  obtain ⟨tried, last, hall, hrest⟩ := h
  exact ⟨tried, last, haccesses.trans hall, hrest⟩

/-- A load is the whole operation if the operation leaves the loaded value alone. -/
lemma ActsOnce.load (h : Attempted t₀ loads t) (hloads : loads < attempts)
    (hnone : f (e.loadExclusive t n address).1 = none) :
    ActsOnce address f attempts t₀ (e.loadExclusive t n address).2
      (e.loadExclusive t n address).1 := by
  have hact := h.act (e := e) .load address f hloads
  rw [show f (cell n (e.observed t) address) = none from hnone] at hact
  exact hact.congr rfl

/-- A conditional store that succeeds met the cell that the load observed. -/
lemma ActsOnce.store (h : Attempted t₀ loads t) (hloads : loads ≤ attempts)
    {observed value : BitVec (8 * n)} {m : Contents}
    (hreserved : t.reservation = some (address, readBytes n m address))
    (hobserved : observed = cell n m address) (hsome : f observed = some value)
    (hsucceeded : (e.storeConditional t n address value).1 = true) :
    ActsOnce address f attempts t₀ (e.storeConditional t n address value).2 observed := by
  unfold Interference.storeConditional at hsucceeded ⊢
  split_ifs at hsucceeded ⊢ with hholds
  have hbytes : readBytes n m address = readBytes n (e.observed t) address := by
    have hpair := Option.some.inj (hreserved.symm.trans hholds.1)
    exact congrArg Prod.snd hpair
  have hcell : observed = cell n (e.observed t) address := by
    rw [hobserved, cell, hbytes]
    rfl
  have hact := h.act (e := e) .store address f hloads
  rw [← hcell, hsome] at hact
  exact hact

/-- An atomic update acts once. -/
lemma ActsOnce.update (h : Attempted t₀ loads t) (hloads : loads ≤ attempts) :
    ActsOnce address f attempts t₀ (e.update t n address f).2 (e.update t n address f).1 :=
  h.act .update address f hloads

/-- A routine that does the operation. -/
lemma ActsOnce.call (h : Attempted t₀ loads t) (hloads : loads ≤ attempts) {α : Type}
    {routine : Contents → α × Contents × Bool} (toCell : α → BitVec (8 * n))
    (hroutine : ∀ m, toCell (routine m).1 = cell n m address ∧
      (routine m).2.1 = storeInto n m address (f (cell n m address)) ∧
      (routine m).2.2 = (f (cell n m address)).isSome) :
    ActsOnce address f attempts t₀ (e.call t routine).2 (toCell (e.call t routine).1) := by
  obtain ⟨hresult, hafter, hstored⟩ := hroutine (e.observed t)
  have hact := h.act (e := e) .call address f hloads
  rw [← hafter, ← hstored, ← hresult] at hact
  exact hact

end rules

end UniJit.Lib.SharedMemory
