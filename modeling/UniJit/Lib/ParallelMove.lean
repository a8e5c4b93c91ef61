import Mathlib.Tactic
import Mathlib.Data.Finset.Card
import Mathlib.Logic.Function.Basic

/-!
# Parallel moves, one at a time

A set of moves is meant to happen at once: every destination receives what its source held before
the first move. This module is about doing them one after another over a store of locations.

A move has a **kind**, and its kind decides which part of a value it carries (`view`): a narrow
move delivers only what the narrow view sees. `Delivering` is the invariant of a sequentialisation:
every pending move still reads the value it has to deliver, and every requested move that is no
longer pending has delivered its value. Two steps keep the invariant:

* `Delivering.emit`: a move whose destination no pending move reads;
* `Delivering.save`: a copy of a location to an unread one, with the readers redirected.

When neither step is obvious, because every destination is still read, the moves form a
permutation (`source_mem_destinations`): no source lies outside the destinations.
-/

namespace UniJit.Lib

/-- A move between two locations. -/
structure Move (L K : Type) where
  source : L
  destination : L
  kind : K

namespace Move

variable {L K V : Type} [DecidableEq L] (view : K → V → V)

/-- The value that a move carries. -/
def value (m : Move L K) (store : L → V) : V := view m.kind (store m.source)

/-- Executing a move. -/
def exec (m : Move L K) (store : L → V) : L → V :=
  Function.update store m.destination (m.value view store)

/-- A move that reads `l` instead reads its copy `copy`. -/
def redirect (l copy : L) (m : Move L K) : Move L K :=
  if m.source = l then { m with source := copy } else m

/-- Redirecting a source keeps the destination. -/
@[simp] lemma redirect_destination (l copy : L) (m : Move L K) :
    (m.redirect l copy).destination = m.destination := by
  unfold redirect
  split_ifs <;> rfl

/-- Redirecting a source keeps the kind. -/
@[simp] lemma redirect_kind (l copy : L) (m : Move L K) : (m.redirect l copy).kind = m.kind := by
  unfold redirect
  split_ifs <;> rfl

end Move

section delivering

variable {L K V : Type} [DecidableEq L] {view : K → V → V} {initial store : L → V}
  {requested pending : List (Move L K)}

/-- **The invariant of a sequentialisation** of the requested moves, begun in the store
`initial`. -/
structure Delivering (view : K → V → V) (initial : L → V) (requested pending : List (Move L K))
    (store : L → V) : Prop where
  distinct : (requested.map Move.destination).Nodup
  nodup : (pending.map Move.destination).Nodup
  carries : ∀ m ∈ pending, ∃ m₀ ∈ requested, m₀.destination = m.destination ∧ m₀.kind = m.kind ∧
    m.value view store = m₀.value view initial
  landed : ∀ m₀ ∈ requested, m₀.destination ∉ pending.map Move.destination →
    view m₀.kind (store m₀.destination) = m₀.value view initial

omit [DecidableEq L] in
/-- At the start all moves are pending, except those from a location to itself. -/
lemma Delivering.start (hdistinct : (requested.map Move.destination).Nodup)
    (hsub : pending.Sublist requested)
    (hself : ∀ m ∈ requested, m ∉ pending → m.source = m.destination) :
    Delivering view initial requested pending initial where
  distinct := hdistinct
  nodup := (hsub.map _).nodup hdistinct
  carries m hm := ⟨m, hsub.subset hm, rfl, rfl, rfl⟩
  landed m₀ hm₀ hnot := by
    have hpending : m₀ ∉ pending := fun hm => hnot (List.mem_map_of_mem hm)
    rw [Move.value, hself m₀ hm₀ hpending]

/-- A move whose destination no pending move reads can be executed. -/
lemma Delivering.emit {before after : List (Move L K)} {m : Move L K}
    (hview : ∀ k v, view k (view k v) = view k v)
    (h : Delivering view initial requested (before ++ m :: after) store)
    (hready : ∀ m' ∈ before ++ m :: after, m'.source ≠ m.destination) :
    Delivering view initial requested (before ++ after) (m.exec view store) := by
  have hsub : ∀ m' ∈ before ++ after, m' ∈ before ++ m :: after := by
    intro m' hm'
    rcases List.mem_append.mp hm' with hm' | hm' <;> simp [hm']
  constructor
  case distinct => exact h.distinct
  case nodup =>
    have hnodup := h.nodup
    rw [List.map_append, List.map_cons, List.nodup_middle] at hnodup
    rw [List.map_append]
    exact (List.nodup_cons.mp hnodup).2
  case carries =>
    intro m' hm'
    obtain ⟨m₀, hm₀, hdestination, hkind, hvalue⟩ := h.carries m' (hsub m' hm')
    refine ⟨m₀, hm₀, hdestination, hkind, ?_⟩
    rw [← hvalue]
    unfold Move.value Move.exec
    rw [Function.update_of_ne (hready m' (hsub m' hm'))]
  case landed =>
    intro m₀ hm₀ hnot
    unfold Move.exec
    by_cases heq : m₀.destination = m.destination
    · -- the executed move is the one that was requested for this destination
      obtain ⟨m₁, hm₁, hdestination, hkind, hvalue⟩ := h.carries m (by simp)
      obtain rfl : m₀ = m₁ :=
        List.inj_on_of_nodup_map h.distinct hm₀ hm₁ (heq.trans hdestination.symm)
      rw [heq, Function.update_self, ← hvalue, Move.value, hkind, hview]
    · rw [Function.update_of_ne heq]
      apply h.landed m₀ hm₀
      simp only [List.map_append, List.map_cons, List.mem_append, List.mem_cons, not_or] at hnot ⊢
      exact ⟨hnot.1, heq, hnot.2⟩

/-- A location can be copied to one that is neither a destination nor read by a pending move, if
the copy keeps what the readers see. -/
lemma Delivering.save {l copy : L} {k : K}
    (h : Delivering view initial requested pending store)
    (hunread : ∀ m ∈ pending, m.source ≠ copy) (hfree : ∀ m ∈ requested, m.destination ≠ copy)
    (hview : ∀ m ∈ pending, m.source = l → ∀ v, view m.kind (view k v) = view m.kind v) :
    Delivering view initial requested (pending.map (Move.redirect l copy))
      (Move.exec view ⟨l, copy, k⟩ store) := by
  have hdestinations : (pending.map (Move.redirect l copy)).map Move.destination =
      pending.map Move.destination := by
    rw [List.map_map]
    exact List.map_congr_left fun m _ => Move.redirect_destination l copy m
  constructor
  case distinct => exact h.distinct
  case nodup => rw [hdestinations]; exact h.nodup
  case carries =>
    intro m' hm'
    obtain ⟨m, hm, rfl⟩ := List.mem_map.mp hm'
    obtain ⟨m₀, hm₀, hdestination, hkind, hvalue⟩ := h.carries m hm
    refine ⟨m₀, hm₀, by simpa using hdestination, by simpa using hkind, ?_⟩
    rw [← hvalue]
    unfold Move.value Move.exec
    rw [Move.redirect_kind]
    unfold Move.redirect
    split_ifs with hsource
    · show view m.kind (Function.update store copy _ copy) = _
      rw [Function.update_self, hsource]
      exact hview m hm hsource _
    · rw [Function.update_of_ne (hunread m hm)]
  case landed =>
    intro m₀ hm₀ hnot
    unfold Move.exec
    rw [Function.update_of_ne (hfree m₀ hm₀)]
    exact h.landed m₀ hm₀ (hdestinations ▸ hnot)

/-- **A blocked set of moves is a permutation**: if every destination is read by a pending move,
every source is the destination of one. -/
lemma source_mem_destinations (hnodup : (pending.map Move.destination).Nodup)
    (hblocked : ∀ m ∈ pending, ∃ m' ∈ pending, m'.source = m.destination) :
    ∀ m ∈ pending, m.source ∈ pending.map Move.destination := by
  have hsub : (pending.map Move.destination).toFinset ⊆ (pending.map Move.source).toFinset := by
    intro l hl
    obtain ⟨m, hm, rfl⟩ := List.mem_map.mp (List.mem_toFinset.mp hl)
    obtain ⟨m', hm', heq⟩ := hblocked m hm
    rw [List.mem_toFinset, ← heq]
    exact List.mem_map_of_mem hm'
  have hcard : (pending.map Move.source).toFinset.card ≤
      (pending.map Move.destination).toFinset.card := by
    calc (pending.map Move.source).toFinset.card
        ≤ (pending.map Move.source).length := List.toFinset_card_le _
      _ = (pending.map Move.destination).length := by simp
      _ = (pending.map Move.destination).toFinset.card :=
          (List.toFinset_card_of_nodup hnodup).symm
  intro m hm
  have heq := Finset.eq_of_subset_of_card_le hsub hcard
  rw [← List.mem_toFinset, heq, List.mem_toFinset]
  exact List.mem_map_of_mem hm

end delivering

end UniJit.Lib
