import UniJit.Lib.Checked
import UniJit.Lib.LittleEndian

/-!
# Readers of untrusted bytes

A reader looks at a window of an input and keeps an offset. Its model is **monitored**: looking
outside the input, a size that leaves 64 bits, and a table larger than the given limit are faults,
distinct from the rejections a reader reports. A program is safe when it never faults.

`Reads limit r Q` says in one piece what a reader `r` does: it does not fault, and it returns `a`
exactly when the bytes ahead start with some `bs` for which `Q a bs` holds, behind which it leaves
the offset. Both directions of a format follow from it: what is accepted has the described bytes,
and bytes of that description are accepted. The rules build `Reads` along the structure of a
reader. `Settles` is the same notion for monitored computations that read nothing.
-/

namespace UniJit.Lib

/-- What a monitored reader must not do. -/
inductive Fault
  | readOutside
  | sizeWraps
  | tableTooLarge
  deriving DecidableEq, Repr

/-- Why a reader stops: a fault, or a rejection of the input. -/
inductive Failure (ε : Type)
  | fault (f : Fault)
  | rejected (e : ε)
  deriving DecidableEq, Repr

/-- The part of an input that a reader may look at, and the limit for its tables. -/
structure Window where
  input : List (BitVec 8)
  base : Nat
  size : Nat
  tableLimit : Nat

namespace Window

/-- The bytes ahead of an offset. -/
def ahead (w : Window) (offset : Nat) : List (BitVec 8) :=
  (w.input.drop (w.base + offset)).take (w.size - offset)

/-- The window lies in the input, and its size is a 64-bit number. -/
structure Fits (w : Window) : Prop where
  inside : w.base + w.size ≤ w.input.length
  small : w.size < 2 ^ 64

end Window

/-- A reader: from a window and an offset to a value and a new offset. -/
def Reading (ε α : Type) := Window → Nat → Except (Failure ε) (α × Nat)

namespace Reading

variable {ε α β : Type}

/-- Readings are chained at the position they have reached. -/
instance : Monad (Reading ε) where
  pure a := fun _ offset => .ok (a, offset)
  bind r k := fun w offset =>
    match r w offset with
    | .ok (a, offset') => k a w offset'
    | .error e => .error e

/-- Reading goes on where its first part stopped. -/
lemma bind_ok {r : Reading ε α} {k : α → Reading ε β} {w : Window} {offset offset' : Nat} {a : α}
    (h : r w offset = .ok (a, offset')) : (r >>= k) w offset = k a w offset' := by
  show (match r w offset with
    | .ok (a, offset') => k a w offset'
    | .error e => .error e) = _
  rw [h]

/-- Reading ends where its first part failed. -/
lemma bind_error {r : Reading ε α} {k : α → Reading ε β} {w : Window} {offset : Nat}
    {e : Failure ε} (h : r w offset = .error e) : (r >>= k) w offset = .error e := by
  show (match r w offset with
    | .ok (a, offset') => k a w offset'
    | .error e => .error e) = _
  rw [h]

/-- The monitor stops the reader. -/
def fault (f : Fault) : Reading ε α := fun _ _ => .error (.fault f)

/-- Refuses what is read. -/
def reject (e : ε) : Reading ε α := fun _ _ => .error (.rejected e)

/-- Go on only if a condition holds. -/
def expect (c : Prop) [Decidable c] (e : ε) : Reading ε Unit := if c then pure () else reject e

/-- The number of bytes between the offset and the end of the window. -/
def remaining : Reading ε Nat := fun w offset =>
  if offset ≤ w.size then .ok (w.size - offset, offset) else .error (.fault .sizeWraps)

/-- Bytes of the input, from a position of the window on. -/
def fetch (w : Window) : Nat → Nat → Except (Failure ε) (List (BitVec 8))
  | _, 0 => .ok []
  | position, count + 1 =>
      match w.input[w.base + position]? with
      | none => .error (.fault .readOutside)
      | some b =>
          match fetch w (position + 1) count with
          | .ok bs => .ok (b :: bs)
          | .error e => .error e

/-- Look at the next bytes and move the offset behind them. -/
def take (count : Nat) : Reading ε (List (BitVec 8)) := fun w offset =>
  match fetch w offset count with
  | .error e => .error e
  | .ok bs => if offset + count < 2 ^ 64 then .ok (bs, offset + count) else .error (.fault .sizeWraps)

/-- A number of bytes as they are, if the window still has them. -/
def raw (count : Nat) (e : ε) : Reading ε (List (BitVec 8)) := do
  let left ← remaining
  expect (count ≤ left) e
  take count

/-- A little-endian number of `count` bytes. -/
def integer (count m : Nat) (e : ε) : Reading ε (BitVec m) := do
  let bs ← raw count e
  pure (ofLeBytes m bs)

/-- Reads a byte. -/
def u8 (e : ε) : Reading ε (BitVec 8) := integer 1 8 e

/-- Reads a halfword. -/
def u16 (e : ε) : Reading ε (BitVec 16) := integer 2 16 e

/-- Reads a word. -/
def u32 (e : ε) : Reading ε (BitVec 32) := integer 4 32 e

/-- Reads a doubleword. -/
def u64 (e : ε) : Reading ε (BitVec 64) := integer 8 64 e

/-- A reader that reports every rejection as `e`. -/
def rejectAs (e : ε) (r : Reading ε α) : Reading ε α := fun w offset =>
  match r w offset with
  | .error (.rejected _) => .error (.rejected e)
  | result => result

/-- Make room for a table. -/
def reserve (count : Nat) : Reading ε Unit := fun w offset =>
  if count ≤ w.tableLimit then .ok ((), offset) else .error (.fault .tableTooLarge)

/-- A loop that reads: `body index state` for the indices from `start` on. -/
def loop {σ : Type} (body : Nat → σ → Reading ε σ) : Nat → Nat → σ → Reading ε σ
  | _, 0, s => pure s
  | start, count + 1, s => do
      let s ← body start s
      loop body (start + 1) count s

/-- A table: one item after another. -/
def table (item : Nat → Reading ε α) : Nat → Nat → Reading ε (List α)
  | _, 0 => pure []
  | start, count + 1 => do
      let a ← item start
      let rest ← table item (start + 1) count
      pure (a :: rest)

/-- A reader after which nothing may be left. -/
def whole (r : Reading ε α) (e : ε) : Reading ε α := do
  let a ← r
  let left ← remaining
  expect (left = 0) e
  pure a

end Reading

/-- **What a reader does**: no fault, and `a` is returned exactly for the bytes that `Q`
describes. -/
structure Reads {ε α : Type} (limit : Nat) (r : Reading ε α) (Q : α → List (BitVec 8) → Prop) :
    Prop where
  safe : ∀ w offset, w.Fits → w.tableLimit = limit → offset ≤ w.size →
    ∀ f, r w offset ≠ .error (.fault f)
  exact : ∀ w offset, w.Fits → w.tableLimit = limit → offset ≤ w.size → ∀ a offset',
    r w offset = .ok (a, offset') ↔
      ∃ bs, Q a bs ∧ bs <+: w.ahead offset ∧ offset' = offset + bs.length

/-- **What a monitored computation does**: no fault, and `a` is its result exactly when `Q a`. -/
structure Settles {ε α : Type} (x : Except (Failure ε) α) (Q : α → Prop) : Prop where
  safe : ∀ f, x ≠ .error (.fault f)
  exact : ∀ a, x = .ok a ↔ Q a

namespace Settles

variable {ε α β : Type}

/-- Settling depends on the description only. -/
lemma congr {x : Except (Failure ε) α} {Q Q' : α → Prop} (h : Settles x Q)
    (hQ : ∀ a, Q a ↔ Q' a) : Settles x Q' :=
  ⟨h.safe, fun a => (h.exact a).trans (hQ a)⟩

lemma pure (a : α) : Settles (Pure.pure a : Except (Failure ε) α) (· = a) :=
  ⟨fun f => by simp [Pure.pure, Except.pure], fun b => pure_eq_ok⟩

/-- A computation that is known not to fault settles its own successes. -/
lemma self {x : Except (Failure ε) α} (h : ∀ f, x ≠ .error (.fault f)) :
    Settles x fun a => x = .ok a :=
  ⟨h, fun _ => Iff.rfl⟩

/-- Two parts settle one after the other. -/
lemma bind {x : Except (Failure ε) α} {k : α → Except (Failure ε) β} {Q : α → Prop}
    {Q' : α → β → Prop} (hx : Settles x Q) (hk : ∀ a, Q a → Settles (k a) (Q' a)) :
    Settles (x >>= k) fun b => ∃ a, Q a ∧ Q' a b := by
  constructor
  · intro f h
    cases hrun : x with
    | error e =>
        rw [hrun] at h
        obtain rfl : e = .fault f := by simpa [Bind.bind, Except.bind] using h
        exact hx.safe f hrun
    | ok a =>
        rw [hrun] at h
        exact (hk a ((hx.exact a).mp hrun)).safe f h
  · intro b
    rw [bind_eq_ok]
    constructor
    · rintro ⟨a, ha, hb⟩
      have hQ := (hx.exact a).mp ha
      exact ⟨a, hQ, ((hk a hQ).exact b).mp hb⟩
    · rintro ⟨a, hQ, hQ'⟩
      exact ⟨a, (hx.exact a).mpr hQ, ((hk a hQ).exact b).mpr hQ'⟩

/-- A rejection ahead of the rest. -/
lemma requireThen {c : Prop} [Decidable c] {e : ε} {k : Unit → Except (Failure ε) β}
    {Q' : β → Prop} (hk : c → Settles (k ()) Q') :
    Settles (require c (.rejected e) >>= k) fun b => c ∧ Q' b := by
  by_cases hc : c
  · simp only [require, hc, true_and]
    exact hk hc
  · simp only [require, hc, false_and]
    exact ⟨fun f => by simp [Bind.bind, Except.bind], fun b => by simp [Bind.bind, Except.bind]⟩

end Settles

/-- Items that a loop accepts one after another, `next` being its state transition. -/
def Accepted {σ ι : Type} (accept : σ → ι → Prop) (next : σ → ι → σ) : σ → List ι → Prop
  | _, [] => True
  | s, x :: xs => accept s x ∧ Accepted accept next (next s x) xs

namespace Reads

open Reading

variable {ε α β : Type} {limit : Nat}

/-- Reading depends on the description only. -/
lemma congr {r : Reading ε α} {Q Q' : α → List (BitVec 8) → Prop} (h : Reads limit r Q)
    (heq : ∀ a bs, Q a bs ↔ Q' a bs) : Reads limit r Q' where
  safe := h.safe
  exact w offset hw hlimit ho a offset' := by
    rw [h.exact w offset hw hlimit ho]
    simp only [heq]

/-- What is ahead is the rest of the window. -/
lemma length_ahead {w : Window} (hw : w.Fits) {offset : Nat} (ho : offset ≤ w.size) :
    (w.ahead offset).length = w.size - offset := by
  have := hw.inside
  simp only [Window.ahead, List.length_take, List.length_drop]
  omega

/-- What is ahead further on. -/
lemma ahead_add (w : Window) (offset n : Nat) : w.ahead (offset + n) = (w.ahead offset).drop n := by
  simp only [Window.ahead, List.drop_take, List.drop_drop]
  congr 1
  · omega
  · congr 1
    omega

/-- Two parts are a prefix exactly when the first is and the second is one behind it. -/
lemma prefix_append_iff {xs ys zs : List (BitVec 8)} :
    xs ++ ys <+: zs ↔ xs <+: zs ∧ ys <+: zs.drop xs.length := by
  constructor
  · rintro ⟨tail, rfl⟩
    exact ⟨⟨ys ++ tail, by simp⟩, ⟨tail, by simp⟩⟩
  · rintro ⟨⟨tail, rfl⟩, h⟩
    rw [List.drop_left] at h
    obtain ⟨tail', rfl⟩ := h
    exact ⟨tail', by simp⟩

/-- A value reads nothing. -/
lemma pure (a : α) : Reads limit (Pure.pure a : Reading ε α) fun b bs => b = a ∧ bs = [] where
  safe w offset _ _ _ f h := by cases h
  exact w offset hw hlimit ho b offset' := by
    show Except.ok (a, offset) = _ ↔ _
    constructor
    · intro h
      obtain ⟨rfl, rfl⟩ : a = b ∧ offset = offset' := by simpa using h
      exact ⟨[], ⟨rfl, rfl⟩, List.nil_prefix, rfl⟩
    · rintro ⟨bs, ⟨rfl, rfl⟩, -, rfl⟩
      rfl

/-- Two readers in a row. The second may rely on what the first has accepted. -/
lemma bind {r : Reading ε α} {k : α → Reading ε β} {Q : α → List (BitVec 8) → Prop}
    {Q' : α → β → List (BitVec 8) → Prop} (hr : Reads limit r Q)
    (hk : ∀ a bs, Q a bs → Reads limit (k a) (Q' a)) :
    Reads limit (r >>= k) fun b bs => ∃ a bs₁ bs₂, Q a bs₁ ∧ Q' a b bs₂ ∧ bs = bs₁ ++ bs₂ where
  safe w offset hw hlimit ho f h := by
    cases hrun : r w offset with
    | error e =>
        rw [bind_error hrun] at h
        obtain rfl := Except.error.inj h
        exact hr.safe w offset hw hlimit ho f hrun
    | ok result =>
        obtain ⟨a, offset'⟩ := result
        rw [bind_ok hrun] at h
        obtain ⟨bs, hQ, hbs, rfl⟩ := (hr.exact w offset hw hlimit ho a offset').mp hrun
        have hlength := hbs.length_le
        rw [length_ahead hw ho] at hlength
        exact (hk a bs hQ).safe w _ hw hlimit (by omega) f h
  exact w offset hw hlimit ho b offset'' := by
    constructor
    · intro h
      cases hrun : r w offset with
      | error e =>
          rw [bind_error hrun] at h
          exact absurd h (by simp)
      | ok result =>
          obtain ⟨a, offset'⟩ := result
          rw [bind_ok hrun] at h
          obtain ⟨bs₁, hQ, hbs₁, rfl⟩ := (hr.exact w offset hw hlimit ho a offset').mp hrun
          have hlength := hbs₁.length_le
          rw [length_ahead hw ho] at hlength
          obtain ⟨bs₂, hQ', hbs₂, rfl⟩ :=
            ((hk a bs₁ hQ).exact w _ hw hlimit (by omega) b offset'').mp h
          rw [ahead_add] at hbs₂
          exact ⟨bs₁ ++ bs₂, ⟨a, bs₁, bs₂, hQ, hQ', rfl⟩, prefix_append_iff.mpr ⟨hbs₁, hbs₂⟩,
            by simp [Nat.add_assoc]⟩
    · rintro ⟨bs, ⟨a, bs₁, bs₂, hQ, hQ', rfl⟩, hbs, rfl⟩
      obtain ⟨hbs₁, hbs₂⟩ := prefix_append_iff.mp hbs
      have hlength := hbs₁.length_le
      rw [length_ahead hw ho] at hlength
      rw [bind_ok ((hr.exact w offset hw hlimit ho a _).mpr ⟨bs₁, hQ, hbs₁, rfl⟩)]
      rw [← ahead_add] at hbs₂
      exact ((hk a bs₁ hQ).exact w _ hw hlimit (by omega) b _).mpr
        ⟨bs₂, hQ', hbs₂, by simp [Nat.add_assoc]⟩

/-- A check reads nothing. -/
lemma expect {c : Prop} [Decidable c] {e : ε} :
    Reads limit (Reading.expect c e) fun _ bs => c ∧ bs = [] where
  safe w offset _ _ _ f h := by
    unfold Reading.expect at h
    by_cases hc : c
    · rw [if_pos hc] at h
      cases h
    · rw [if_neg hc] at h
      cases h
  exact w offset hw hlimit ho a offset' := by
    unfold Reading.expect
    split_ifs with hc
    · simp only [hc, true_and]
      exact ((pure ()).exact w offset hw hlimit ho a offset').trans (by simp)
    · simp [hc, Reading.reject]

/-- Refusing under another error reads the same. -/
lemma rejectAs {r : Reading ε α} {Q : α → List (BitVec 8) → Prop} (h : Reads limit r Q) (e : ε) :
    Reads limit (Reading.rejectAs e r) Q where
  safe w offset hw hlimit ho f := by
    have hsafe := h.safe w offset hw hlimit ho f
    unfold Reading.rejectAs
    split
    · simp
    · exact hsafe
  exact w offset hw hlimit ho a offset' := by
    rw [← h.exact w offset hw hlimit ho]
    unfold Reading.rejectAs
    split
    case h_1 heq => simp [heq]
    case h_2 => exact Iff.rfl

/-- A reservation within the limit reads nothing. -/
lemma reserve {count : Nat} (hcount : count ≤ limit) :
    Reads limit (Reading.reserve count : Reading ε Unit) fun _ bs => bs = [] where
  safe w offset _ hlimit _ f h := by
    unfold Reading.reserve at h
    rw [if_pos (by omega)] at h
    cases h
  exact w offset hw hlimit ho a offset' := by
    unfold Reading.reserve
    rw [if_pos (by omega)]
    simp [eq_comm]

/-- A fetch inside the input gives its bytes. -/
lemma fetch_eq {w : Window} {position count : Nat}
    (h : w.base + position + count ≤ w.input.length) :
    (Reading.fetch w position count : Except (Failure ε) (List (BitVec 8))) =
      .ok ((w.input.drop (w.base + position)).take count) := by
  induction count generalizing position with
  | zero => simp [Reading.fetch]
  | succ count ih =>
      have hlt : w.base + position < w.input.length := by omega
      rw [Reading.fetch, List.getElem?_eq_getElem hlt, List.drop_eq_getElem_cons hlt,
        List.take_succ_cons]
      simp only [ih (show w.base + (position + 1) + count ≤ _ by omega), ← Nat.add_assoc]

/-- Raw bytes are whatever stands there. -/
lemma raw {count : Nat} {e : ε} :
    Reads limit (Reading.raw count e) fun a bs => bs.length = count ∧ a = bs := by
  have hrun : ∀ w offset, w.Fits → offset ≤ w.size → Reading.raw count e w offset =
      if count ≤ w.size - offset then .ok ((w.ahead offset).take count, offset + count)
      else .error (.rejected e) := by
    intro w offset hw ho
    have hinside := hw.inside
    have hsmall := hw.small
    unfold Reading.raw
    rw [bind_ok (show Reading.remaining w offset = .ok (w.size - offset, offset) from if_pos ho)]
    unfold Reading.expect
    by_cases hcount : count ≤ w.size - offset
    · rw [if_pos hcount, if_pos hcount, bind_ok rfl, Reading.take, fetch_eq (by omega)]
      simp only [Window.ahead, List.take_take, Nat.min_eq_left hcount]
      rw [if_pos (by omega)]
    · rw [if_neg hcount, if_neg hcount, bind_error rfl]
  constructor
  · intro w offset hw hlimit ho f
    rw [hrun w offset hw ho]
    split_ifs <;> simp
  · intro w offset hw hlimit ho a offset'
    rw [hrun w offset hw ho]
    split_ifs with hcount
    · constructor
      · intro h
        obtain ⟨rfl, rfl⟩ : _ = a ∧ _ = offset' := by simpa using h
        have hlength : ((w.ahead offset).take count).length = count := by
          rw [List.length_take, length_ahead hw ho]
          omega
        exact ⟨_, ⟨hlength, rfl⟩, List.take_prefix _ _, by rw [hlength]⟩
      · rintro ⟨bs, ⟨hlength, rfl⟩, hprefix, rfl⟩
        rw [List.prefix_iff_eq_take.mp hprefix, hlength]
        simp [length_ahead hw ho, hcount]
    · constructor
      · intro h
        cases h
      · rintro ⟨bs, ⟨hlength, rfl⟩, hprefix, rfl⟩
        have := hprefix.length_le
        rw [length_ahead hw ho] at this
        omega

/-- A number is its little-endian bytes. -/
lemma integer {count m : Nat} {e : ε} (hm : m = 8 * count) :
    Reads limit (Reading.integer count m e) fun a bs => bs = leBytes count a := by
  refine (raw.bind fun bs₁ _ _ => pure _).congr fun a bs => ?_
  constructor
  · rintro ⟨_, bs₁, bs₂, ⟨hlength, rfl⟩, ⟨rfl, rfl⟩, rfl⟩
    rw [List.append_nil, leBytes_ofLeBytes hm.ge hlength]
  · rintro rfl
    exact ⟨_, _, [], ⟨length_leBytes _ _, rfl⟩, ⟨(ofLeBytes_leBytes hm a).symm, rfl⟩, by simp⟩

lemma u8 {e : ε} : Reads limit (Reading.u8 e) fun a bs => bs = [a] :=
  (integer rfl).congr fun a bs => by rw [leBytes_one]

lemma u16 {e : ε} : Reads limit (Reading.u16 e) fun a bs => bs = leBytes 2 a := integer rfl

lemma u32 {e : ε} : Reads limit (Reading.u32 e) fun a bs => bs = leBytes 4 a := integer rfl

lemma u64 {e : ε} : Reads limit (Reading.u64 e) fun a bs => bs = leBytes 8 a := integer rfl

/-- Bytes of a known form ahead of the rest. -/
lemma bindEq {r : Reading ε α} {k : α → Reading ε β} {encode : α → List (BitVec 8)}
    {P : α → Prop} {Q' : α → β → List (BitVec 8) → Prop}
    (hr : Reads limit r fun a bs => P a ∧ bs = encode a)
    (hk : ∀ a, P a → Reads limit (k a) (Q' a)) :
    Reads limit (r >>= k) fun b bs => ∃ a, P a ∧ ∃ tail, Q' a b tail ∧ bs = encode a ++ tail := by
  refine (hr.bind fun a bs h => hk a h.1).congr fun b bs => ?_
  constructor
  · rintro ⟨a, _, bs₂, ⟨hP, rfl⟩, hQ', rfl⟩
    exact ⟨a, hP, bs₂, hQ', rfl⟩
  · rintro ⟨a, hP, tail, hQ', rfl⟩
    exact ⟨a, _, tail, ⟨hP, rfl⟩, hQ', rfl⟩

/-- Bytes that are the whole description of a value, ahead of the rest. -/
lemma bindBytes {r : Reading ε α} {k : α → Reading ε β} {encode : α → List (BitVec 8)}
    {Q' : α → β → List (BitVec 8) → Prop} (hr : Reads limit r fun a bs => bs = encode a)
    (hk : ∀ a, Reads limit (k a) (Q' a)) :
    Reads limit (r >>= k) fun b bs => ∃ a tail, Q' a b tail ∧ bs = encode a ++ tail := by
  refine (hr.bind fun a bs _ => hk a).congr fun b bs => ?_
  constructor
  · rintro ⟨a, _, bs₂, rfl, hQ', rfl⟩
    exact ⟨a, bs₂, hQ', rfl⟩
  · rintro ⟨a, tail, hQ', rfl⟩
    exact ⟨a, _, tail, rfl, hQ', rfl⟩

/-- A check ahead of the rest. -/
lemma expectThen {c : Prop} [Decidable c] {e : ε} {k : Unit → Reading ε β}
    {Q' : β → List (BitVec 8) → Prop} (hk : c → Reads limit (k ()) Q') :
    Reads limit (Reading.expect c e >>= k) fun b bs => c ∧ Q' b bs := by
  refine (expect.bind fun _ _ h => hk h.1).congr fun b bs => ?_
  constructor
  · rintro ⟨_, _, bs₂, ⟨hc, rfl⟩, hQ', rfl⟩
    exact ⟨hc, hQ'⟩
  · rintro ⟨hc, hQ'⟩
    exact ⟨(), [], bs, ⟨hc, rfl⟩, hQ', rfl⟩

/-- Room for a table ahead of the rest. -/
lemma reserveThen {count : Nat} {k : Unit → Reading ε β} {Q' : β → List (BitVec 8) → Prop}
    (hcount : count ≤ limit) (hk : Reads limit (k ()) Q') :
    Reads limit (Reading.reserve count >>= k) Q' := by
  refine ((reserve hcount).bind fun _ _ _ => hk).congr fun b bs => ?_
  constructor
  · rintro ⟨_, _, bs₂, rfl, hQ', rfl⟩
    exact hQ'
  · intro hQ'
    exact ⟨(), [], bs, rfl, hQ', rfl⟩

/-- A table of items of a known form. -/
lemma table {item : Nat → Reading ε α} {encode : α → List (BitVec 8)} {P : α → Prop}
    (hitem : ∀ i, Reads limit (item i) fun a bs => P a ∧ bs = encode a) (start count : Nat) :
    Reads limit (Reading.table item start count) fun as bs =>
      (as.length = count ∧ ∀ a ∈ as, P a) ∧ bs = as.flatMap encode := by
  induction count generalizing start with
  | zero =>
      refine (pure []).congr fun as bs => ?_
      constructor
      · rintro ⟨rfl, rfl⟩
        simp
      · rintro ⟨⟨hlength, -⟩, rfl⟩
        obtain rfl := List.length_eq_zero_iff.mp hlength
        simp
  | succ count ih =>
      refine ((hitem start).bindEq fun a _ => (ih (start + 1)).bindEq fun as _ =>
        pure (a :: as)).congr fun all bs => ?_
      constructor
      · rintro ⟨a, ha, _, ⟨as, ⟨hlength, has⟩, _, ⟨rfl, rfl⟩, rfl⟩, rfl⟩
        refine ⟨⟨by simp [hlength], ?_⟩, by simp⟩
        intro x hx
        rcases List.mem_cons.mp hx with rfl | hx
        · exact ha
        · exact has x hx
      · rintro ⟨⟨hlength, hall⟩, rfl⟩
        cases all with
        | nil => simp at hlength
        | cons a as =>
            exact ⟨a, hall a (by simp), _, ⟨as, ⟨by simpa using hlength,
              fun x hx => hall x (by simp [hx])⟩, [], ⟨rfl, rfl⟩, rfl⟩, by simp⟩

/-- A loop whose steps read one item each and keep an invariant of the state. -/
lemma loop {σ ι : Type} {body : Nat → σ → Reading ε σ} {Inv : σ → Prop} {accept : σ → ι → Prop}
    {next : σ → ι → σ} {encode : ι → List (BitVec 8)}
    (hbody : ∀ i s, Inv s → Reads limit (body i s) fun s' bs =>
      ∃ x, accept s x ∧ s' = next s x ∧ bs = encode x)
    (hinv : ∀ s x, Inv s → accept s x → Inv (next s x)) (start count : Nat) {s : σ} (hs : Inv s) :
    Reads limit (Reading.loop body start count s) fun s' bs => ∃ xs : List ι, xs.length = count ∧
      Accepted accept next s xs ∧ s' = xs.foldl next s ∧ bs = xs.flatMap encode := by
  induction count generalizing start s with
  | zero =>
      refine (pure s).congr fun s' bs => ?_
      constructor
      · rintro ⟨rfl, rfl⟩
        exact ⟨[], rfl, trivial, rfl, rfl⟩
      · rintro ⟨xs, hlength, -, rfl, rfl⟩
        obtain rfl := List.length_eq_zero_iff.mp hlength
        exact ⟨rfl, rfl⟩
  | succ count ih =>
      refine ((hbody start s hs).bind fun s₁ bs₁ h => ih (start + 1) (s := s₁) ?_).congr
        fun s' bs => ?_
      · obtain ⟨x, hx, rfl, -⟩ := h
        exact hinv s x hs hx
      · constructor
        · rintro ⟨_, _, _, ⟨x, hx, rfl, rfl⟩, ⟨xs, hlength, hxs, rfl, rfl⟩, rfl⟩
          exact ⟨x :: xs, by simp [hlength], ⟨hx, hxs⟩, rfl, rfl⟩
        · rintro ⟨xs, hlength, hxs, rfl, rfl⟩
          cases xs with
          | nil => simp at hlength
          | cons x xs =>
              exact ⟨_, _, _, ⟨x, hxs.1, rfl, rfl⟩,
                ⟨xs, by simpa using hlength, hxs.2, rfl, rfl⟩, rfl⟩

/-- A reader of the whole window: it does not fault, and it returns `a` exactly when the window is
what `Q` describes, with the offset at the end. -/
lemma whole {r : Reading ε α} {Q : α → List (BitVec 8) → Prop} (h : Reads limit r Q) (e : ε)
    {w : Window} (hw : w.Fits) (hlimit : w.tableLimit = limit) :
    (∀ f, Reading.whole r e w 0 ≠ .error (.fault f)) ∧ ∀ a offset,
      Reading.whole r e w 0 = .ok (a, offset) ↔ Q a (w.ahead 0) ∧ offset = w.size := by
  have htail : ∀ a offset, offset ≤ w.size →
      (do let left ← Reading.remaining; Reading.expect (left = 0) e; Pure.pure a : Reading ε α) w
        offset = if offset = w.size then .ok (a, offset) else .error (.rejected e) := by
    intro a offset ho
    rw [Reading.bind_ok (show Reading.remaining w offset = .ok (w.size - offset, offset) from
      if_pos ho)]
    unfold Reading.expect
    by_cases hend : offset = w.size
    · rw [if_pos (by omega), if_pos hend, Reading.bind_ok rfl]
      rfl
    · rw [if_neg (by omega), if_neg hend, Reading.bind_error rfl]
  have hlength := length_ahead hw (Nat.zero_le _)
  unfold Reading.whole
  cases hrun : r w 0 with
  | error e' =>
      rw [Reading.bind_error hrun]
      refine ⟨fun f hf => h.safe w 0 hw hlimit (Nat.zero_le _) f (by rw [hrun, hf]), ?_⟩
      intro a offset
      constructor
      · intro h'
        cases h'
      · rintro ⟨hQ, rfl⟩
        have := (h.exact w 0 hw hlimit (Nat.zero_le _) a _).mpr ⟨_, hQ, List.prefix_refl _, rfl⟩
        rw [hrun] at this
        cases this
  | ok result =>
      obtain ⟨a, offset⟩ := result
      rw [Reading.bind_ok hrun]
      obtain ⟨bs, hQ, hprefix, rfl⟩ := (h.exact w 0 hw hlimit (Nat.zero_le _) a offset).mp hrun
      have hle := hprefix.length_le
      rw [htail a _ (by omega)]
      constructor
      · intro f
        split_ifs <;> simp
      · intro a' offset'
        split_ifs with hend
        · have hall : bs = w.ahead 0 := hprefix.eq_of_length (by omega)
          constructor
          · intro h'
            obtain ⟨rfl, rfl⟩ : a = a' ∧ 0 + bs.length = offset' := by simpa using h'
            exact ⟨hall ▸ hQ, hend⟩
          · rintro ⟨hQ', rfl⟩
            have := (h.exact w 0 hw hlimit (Nat.zero_le _) a' _).mpr
              ⟨_, hQ', List.prefix_refl _, rfl⟩
            rw [hrun] at this
            obtain ⟨rfl, -⟩ : a = a' ∧ _ := by simpa using this
            rw [hend]
        · constructor
          · intro h'
            cases h'
          · rintro ⟨hQ', rfl⟩
            have := (h.exact w 0 hw hlimit (Nat.zero_le _) a' _).mpr
              ⟨_, hQ', List.prefix_refl _, rfl⟩
            rw [hrun] at this
            obtain ⟨-, hoffset⟩ : a = a' ∧ bs.length = (w.ahead 0).length := by simpa using this
            omega

end Reads

end UniJit.Lib
