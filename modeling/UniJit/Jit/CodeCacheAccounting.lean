import UniJit.Jit.CodeCache

/-!
# Accounting of the code cache

`Accounted` says that the totals of a cache are those of its entries; every operation keeps it, and
under it no subtraction borrows, so every run is defined. `Publishes` and `Finds` list the ways in
which a publication and a lookup can end; what holds of all of them is read off from there. The
counters balance as long as none of them wraps.
-/

namespace UniJit.Jit

open UniJit.Lib UniJit.Lib.Transitions UniJit.Runtime

namespace CodeCache

/-! ## Entries by key -/

/-- The bytes of some entries. -/
def entryBytes (entries : List (CacheKey × CacheEntry)) : Nat :=
  (entries.map (·.2.codeBytes)).sum

/-- The entries with other keys. -/
def dropKey (entries : List (CacheKey × CacheEntry)) (key : CacheKey) :
    List (CacheKey × CacheEntry) :=
  entries.filter (·.1 ≠ key)

/-- Dropping a key that is not there changes nothing. -/
lemma dropKey_of_not_mem {entries : List (CacheKey × CacheEntry)} {key : CacheKey}
    (h : key ∉ entries.map (·.1)) : dropKey entries key = entries := by
  apply List.filter_eq_self.mpr
  intro e he
  simp only [decide_not, Bool.not_eq_eq_eq_not, Bool.not_true, decide_eq_false_iff_not]
  rintro rfl
  exact h (List.mem_map_of_mem he)

/-- A dropped key is not there. -/
lemma not_mem_dropKey (entries : List (CacheKey × CacheEntry)) (key : CacheKey) :
    key ∉ (dropKey entries key).map (·.1) := by
  simp [dropKey]

/-- Dropping a key keeps the keys distinct. -/
lemma nodup_dropKey {entries : List (CacheKey × CacheEntry)} (h : (entries.map (·.1)).Nodup)
    (key : CacheKey) : ((dropKey entries key).map (·.1)).Nodup :=
  h.sublist (List.filter_sublist.map _)

/-- With distinct keys, an entry is one of its key and the entries with other keys. -/
lemma perm_dropKey {entries : List (CacheKey × CacheEntry)} (h : (entries.map (·.1)).Nodup)
    {key : CacheKey} {entry : CacheEntry} (hmem : (key, entry) ∈ entries) :
    entries.Perm ((key, entry) :: dropKey entries key) := by
  induction entries with
  | nil => simp at hmem
  | cons e es ih =>
      rw [List.map_cons, List.nodup_cons] at h
      rcases List.mem_cons.mp hmem with rfl | hmem
      · have hrest : dropKey ((key, entry) :: es) key = es := by
          simpa [dropKey] using dropKey_of_not_mem h.1
        rw [hrest]
      · have hne : e.1 ≠ key := by
          rintro rfl
          exact h.1 (List.mem_map.mpr ⟨_, hmem, rfl⟩)
        have hcons : dropKey (e :: es) key = e :: dropKey es key := by
          simp [dropKey, hne]
        rw [hcons]
        exact ((ih h.2 hmem).cons e).trans (List.Perm.swap _ _ _)

/-- With distinct keys the first entry of a key is the only one. -/
lemma eraseP_eq_dropKey {entries : List (CacheKey × CacheEntry)}
    (h : (entries.map (·.1)).Nodup) (key : CacheKey) :
    entries.eraseP (·.1 = key) = dropKey entries key := by
  induction entries with
  | nil => rfl
  | cons e es ih =>
      rw [List.map_cons, List.nodup_cons] at h
      by_cases hkey : e.1 = key
      · subst hkey
        have hrest : dropKey es e.1 = es := dropKey_of_not_mem h.1
        simpa [dropKey] using hrest.symm
      · simpa [dropKey, hkey] using ih h.2

/-- The bytes do not depend on the order. -/
lemma entryBytes_perm {entries entries' : List (CacheKey × CacheEntry)}
    (h : entries.Perm entries') : entryBytes entries = entryBytes entries' :=
  (h.map _).sum_eq

/-- Dropping an entry gives its bytes back. -/
lemma entryBytes_dropKey {entries : List (CacheKey × CacheEntry)}
    (h : (entries.map (·.1)).Nodup) {key : CacheKey} {entry : CacheEntry}
    (hmem : (key, entry) ∈ entries) :
    entryBytes entries = entry.codeBytes + entryBytes (dropKey entries key) := by
  rw [entryBytes_perm (perm_dropKey h hmem)]
  simp [entryBytes]

/-- Dropping an entry removes one. -/
lemma length_dropKey {entries : List (CacheKey × CacheEntry)} (h : (entries.map (·.1)).Nodup)
    {key : CacheKey} {entry : CacheEntry} (hmem : (key, entry) ∈ entries) :
    entries.length = (dropKey entries key).length + 1 :=
  (perm_dropKey h hmem).length_eq

/-- An entry that is looked up is there. -/
lemma mem_of_lookup {c : CodeCache} {key : CacheKey} {entry : CacheEntry}
    (h : c.lookup key = some entry) : (key, entry) ∈ c.entries := by
  obtain ⟨before, after, heq, -⟩ := List.lookup_eq_some_iff.mp h
  simp [heq]

/-- An entry that is there is looked up. -/
lemma lookup_of_mem {c : CodeCache} (hnodup : (c.entries.map (·.1)).Nodup) {key : CacheKey}
    {entry : CacheEntry} (hmem : (key, entry) ∈ c.entries) : c.lookup key = some entry := by
  obtain ⟨before, after, heq⟩ := List.append_of_mem hmem
  refine List.lookup_eq_some_iff.mpr ⟨before, after, heq, ?_⟩
  intro e he
  rw [heq, List.map_append, List.nodup_append] at hnodup
  rw [bne_iff_ne]
  exact (hnodup.2.2 e.1 (List.mem_map_of_mem he) key (by simp)).symm

/-- No entry is looked up exactly when the key is not there. -/
lemma lookup_eq_none {c : CodeCache} {key : CacheKey} :
    c.lookup key = none ↔ key ∉ c.entries.map (·.1) := by
  unfold lookup
  rw [List.lookup_eq_none_iff]
  constructor
  · intro h hmem
    obtain ⟨e, he, rfl⟩ := List.mem_map.mp hmem
    exact bne_iff_ne.mp (h e he) rfl
  · intro h e he
    rw [bne_iff_ne]
    rintro rfl
    exact h (List.mem_map_of_mem he)

/-! ## Totals -/

/-- The totals of a cache are those of its entries, and they are within the limits. -/
structure Accounted (c : CodeCache) : Prop where
  nodup : (c.entries.map (·.1)).Nodup
  length_le : c.entries.length ≤ c.limits.maximumEntries
  resident : c.statistics.residentEntries = c.entries.length
  bytes : c.statistics.residentCodeBytes = entryBytes c.entries
  bytes_le : entryBytes c.entries ≤ c.limits.maximumCodeBytes

/-- The cache without the entry of a key, when its totals are those of its entries. -/
def without (c : CodeCache) (key : CacheKey) : CodeCache :=
  { c with
    entries := dropKey c.entries key
    statistics := { c.statistics with
      residentCodeBytes := entryBytes (dropKey c.entries key)
      residentEntries := (dropKey c.entries key).length } }

/-- Removing an entry never borrows. -/
lemma Accounted.erase_eq {c : CodeCache} (h : Accounted c) {key : CacheKey} {entry : CacheEntry}
    (hmem : (key, entry) ∈ c.entries) : c.erase key entry = some (c.without key) := by
  have hbytes := entryBytes_dropKey h.nodup hmem
  have hle : entry.codeBytes ≤ c.statistics.residentCodeBytes := by
    rw [h.bytes]
    omega
  have hsub : c.statistics.residentCodeBytes - entry.codeBytes =
      entryBytes (dropKey c.entries key) := by
    rw [h.bytes]
    omega
  simp [erase, checkedSub, hle, hsub, without, eraseP_eq_dropKey h.nodup]

/-- Removing an entry keeps the accounts. -/
lemma Accounted.without {c : CodeCache} (h : Accounted c) {key : CacheKey} {entry : CacheEntry}
    (hmem : (key, entry) ∈ c.entries) : Accounted (c.without key) := by
  have hlength := length_dropKey h.nodup hmem
  have hbytes := entryBytes_dropKey h.nodup hmem
  refine ⟨nodup_dropKey h.nodup key, ?_, rfl, rfl, ?_⟩
  · have := h.length_le
    show (dropKey c.entries key).length ≤ c.limits.maximumEntries
    omega
  · have := h.bytes_le
    show entryBytes (dropKey c.entries key) ≤ c.limits.maximumCodeBytes
    omega

/-- Counters other than the totals do not matter. -/
lemma Accounted.congr {c c' : CodeCache} (h : Accounted c) (hentries : c'.entries = c.entries)
    (hlimits : c'.limits = c.limits)
    (hresident : c'.statistics.residentEntries = c.statistics.residentEntries)
    (hbytes : c'.statistics.residentCodeBytes = c.statistics.residentCodeBytes) :
    Accounted c' := by
  refine ⟨?_, ?_, ?_, ?_, ?_⟩
  · rw [hentries]
    exact h.nodup
  · rw [hentries, hlimits]
    exact h.length_le
  · rw [hresident, hentries]
    exact h.resident
  · rw [hbytes, hentries]
    exact h.bytes
  · rw [hentries, hlimits]
    exact h.bytes_le

/-- Changing the stamps of entries changes no total. -/
lemma Accounted.restamp {c c' : CodeCache} (h : Accounted c)
    (stamp : CacheKey × CacheEntry → CacheKey × CacheEntry)
    (hkey : ∀ e, (stamp e).1 = e.1) (hcode : ∀ e, (stamp e).2.codeBytes = e.2.codeBytes)
    (hentries : c'.entries = c.entries.map stamp) (hlimits : c'.limits = c.limits)
    (hresident : c'.statistics.residentEntries = c.statistics.residentEntries)
    (hbytes : c'.statistics.residentCodeBytes = c.statistics.residentCodeBytes) :
    Accounted c' := by
  have hkeys : (c.entries.map stamp).map (·.1) = c.entries.map (·.1) := by
    rw [List.map_map]
    exact List.map_congr_left fun e _ => hkey e
  have hsum : entryBytes (c.entries.map stamp) = entryBytes c.entries := by
    unfold entryBytes
    rw [List.map_map]
    congr 1
    exact List.map_congr_left fun e _ => hcode e
  refine ⟨?_, ?_, ?_, ?_, ?_⟩
  · rw [hentries, hkeys]
    exact h.nodup
  · rw [hentries, hlimits, List.length_map]
    exact h.length_le
  · rw [hresident, hentries, List.length_map]
    exact h.resident
  · rw [hbytes, hentries, hsum]
    exact h.bytes
  · rw [hentries, hlimits, hsum]
    exact h.bytes_le

/-! ## The eviction loop -/

/-- There is no least entry exactly when there is none. -/
lemma minElement_eq_none {entries : List (CacheKey × CacheEntry)} :
    minElement entries = none ↔ entries = [] := by
  cases entries with
  | nil => simp [minElement]
  | cons e es => simp [minElement]

/-- The victim is an entry, and no entry was used before it. -/
lemma minElement_spec {entries : List (CacheKey × CacheEntry)} {victim : CacheKey × CacheEntry}
    (h : minElement entries = some victim) :
    victim ∈ entries ∧ ∀ e ∈ entries, victim.2.lastAccess ≤ e.2.lastAccess := by
  cases entries with
  | nil => simp [minElement] at h
  | cons first rest =>
      obtain rfl := Option.some.inj h
      clear h
      induction rest generalizing first with
      | nil => simp
      | cons e es ih =>
          rw [List.foldl_cons]
          split_ifs with hlt
          · obtain ⟨hmem, hle⟩ := ih e
            refine ⟨List.mem_cons_of_mem _ hmem, ?_⟩
            intro x hx
            rcases List.mem_cons.mp hx with rfl | hx
            · exact BitVec.le_trans (hle e (by simp)) (BitVec.le_of_lt hlt)
            · exact hle x hx
          · obtain ⟨hmem, hle⟩ := ih first
            constructor
            · rcases List.mem_cons.mp hmem with heq | hmem
              · rw [heq]
                simp
              · exact List.mem_cons_of_mem _ (List.mem_cons_of_mem _ hmem)
            · intro x hx
              rcases List.mem_cons.mp hx with rfl | hx
              · exact hle x (by simp)
              · rcases List.mem_cons.mp hx with rfl | hx
                · exact BitVec.le_trans (hle first (by simp)) (BitVec.not_lt.mp hlt)
                · exact hle x (List.mem_cons_of_mem _ hx)

/-- The entries whose keys are not among those of some victims. -/
def dropVictims (entries victims : List (CacheKey × CacheEntry)) :
    List (CacheKey × CacheEntry) :=
  entries.filter (·.1 ∉ victims.map (·.1))

/-- No victim changes nothing. -/
@[simp] lemma dropVictims_nil (entries : List (CacheKey × CacheEntry)) :
    dropVictims entries [] = entries := by
  simp [dropVictims]

/-- Victims are dropped one by one. -/
lemma dropVictims_cons (entries victims : List (CacheKey × CacheEntry))
    (victim : CacheKey × CacheEntry) :
    dropVictims entries (victim :: victims) = dropVictims (dropKey entries victim.1) victims := by
  unfold dropVictims dropKey
  rw [List.filter_filter]
  apply List.filter_congr
  intro e _
  rw [Bool.eq_iff_iff]
  simp only [decide_eq_true_eq, Bool.and_eq_true, List.map_cons, List.mem_cons]
  tauto

/-- The cache after the eviction of the entry of a key. -/
def evicted (c : CodeCache) (key : CacheKey) : CodeCache :=
  (c.without key).count fun s => { s with evictions := s.evictions + 1 }

/-- An eviction keeps the accounts. -/
lemma Accounted.evicted {c : CodeCache} (h : Accounted c) {victim : CacheKey × CacheEntry}
    (hmem : victim ∈ c.entries) : Accounted (c.evicted victim.1) :=
  (h.without hmem).congr rfl rfl rfl rfl

/-- A run of the eviction loop that ends because the new entry fits. -/
inductive Evicts (room : Nat) : CodeCache → List (CacheKey × CacheEntry) → CodeCache → Prop
  | done {c : CodeCache} (fits : ¬ c.mustEvict room) : Evicts room c [] c
  | evict {c c' : CodeCache} {victim : CacheKey × CacheEntry}
      {victims : List (CacheKey × CacheEntry)} (full : c.mustEvict room)
      (least : minElement c.entries = some victim)
      (rest : Evicts room (c.evicted victim.1) victims c') : Evicts room c (victim :: victims) c'

/-- An eviction takes the least entry. -/
lemma Accounted.evictOne_eq {c : CodeCache} (h : Accounted c) {victim : CacheKey × CacheEntry}
    (hleast : minElement c.entries = some victim) :
    c.evictOne = some (some victim, c.evicted victim.1) := by
  have herase := h.erase_eq (minElement_spec hleast).1
  simp [evictOne, hleast, herase, CodeCache.evicted, CodeCache.without]

/-- The loop ends, before its fuel does, with the new entry fitting. -/
lemma Accounted.evictToFit_evicts {c : CodeCache} (h : Accounted c)
    (hlimit : c.limits.maximumEntries ≠ 0) (room : Nat) {fuel : Nat}
    (hfuel : c.entries.length < fuel) :
    ∃ victims c', evictToFit room fuel c = some (victims, true, c') ∧
      Evicts room c victims c' := by
  induction fuel generalizing c with
  | zero => omega
  | succ fuel ih =>
      by_cases hmust : c.mustEvict room
      · cases hleast : minElement c.entries with
        | none =>
            -- an empty cache has room for anything
            have hempty := minElement_eq_none.mp hleast
            simp [mustEvict, hempty, h.bytes, entryBytes, hlimit] at hmust
        | some victim =>
            have hmem := (minElement_spec hleast).1
            have hlength : c.entries.length = (dropKey c.entries victim.1).length + 1 :=
              length_dropKey h.nodup hmem
            obtain ⟨victims, c', heq, hevicts⟩ := ih (h.evicted hmem) hlimit
              (show (dropKey c.entries victim.1).length < fuel by omega)
            refine ⟨victim :: victims, c', ?_, .evict hmust hleast hevicts⟩
            simp [evictToFit, hmust, h.evictOne_eq hleast, heq]
      · exact ⟨[], c, by simp [evictToFit, hmust], .done hmust⟩

/-- What the loop leaves: the victims are gone and counted, and nothing else has changed. -/
lemma Evicts.eq {room : Nat} {c c' : CodeCache} {victims : List (CacheKey × CacheEntry)}
    (h : Accounted c) (hevicts : Evicts room c victims c') :
    c' = { c with
      entries := dropVictims c.entries victims
      statistics := { c.statistics with
        evictions := c.statistics.evictions + BitVec.ofNat 64 victims.length
        residentEntries := (dropVictims c.entries victims).length
        residentCodeBytes := entryBytes (dropVictims c.entries victims) } } := by
  induction hevicts with
  | @done c fits =>
      simp only [dropVictims_nil, ← h.bytes, ← h.resident, List.length_nil]
      simp
  | @evict c c' victim victims full least rest ih =>
      rw [ih (h.evicted (minElement_spec least).1)]
      have hentries : (c.evicted victim.1).entries = dropKey c.entries victim.1 := rfl
      have hcount : (c.evicted victim.1).statistics.evictions +
          BitVec.ofNat 64 victims.length =
            c.statistics.evictions + BitVec.ofNat 64 (victims.length + 1) := by
        show c.statistics.evictions + BitVec.ofNat 64 1 + _ = _
        rw [BitVec.add_assoc, BitVec.add_comm (BitVec.ofNat 64 1), ← BitVec.ofNat_add]
      rw [hentries, hcount, dropVictims_cons]
      rfl

/-- Evictions keep the accounts. -/
lemma Evicts.accounted {room : Nat} {c c' : CodeCache} {victims : List (CacheKey × CacheEntry)}
    (h : Accounted c) (hevicts : Evicts room c victims c') : Accounted c' := by
  induction hevicts with
  | done fits => exact h
  | evict full least rest ih => exact ih (h.evicted (minElement_spec least).1)

/-- Each victim is one entry less. -/
lemma Evicts.length_eq {room : Nat} {c c' : CodeCache} {victims : List (CacheKey × CacheEntry)}
    (h : Accounted c) (hevicts : Evicts room c victims c') :
    c.entries.length = c'.entries.length + victims.length := by
  induction hevicts with
  | done fits => simp
  | @evict c c' victim victims full least rest ih =>
      have hmem := (minElement_spec least).1
      have hlength := length_dropKey h.nodup hmem
      have hrest := ih (h.evicted hmem)
      have hentries : (c.evicted victim.1).entries = dropKey c.entries victim.1 := rfl
      rw [hentries] at hrest
      simp only [List.length_cons]
      omega

/-- Evicting stops when there is room. -/
lemma Evicts.not_mustEvict {room : Nat} {c c' : CodeCache}
    {victims : List (CacheKey × CacheEntry)} (hevicts : Evicts room c victims c') :
    ¬ c'.mustEvict room := by
  induction hevicts with
  | done fits => exact fits
  | evict full least rest ih => exact ih

/-- A new entry of some bytes fits beside some entries. -/
def Fits (limits : CodeCacheLimits) (entries : List (CacheKey × CacheEntry)) (codeBytes : Nat) :
    Prop :=
  entries.length < limits.maximumEntries ∧
    entryBytes entries + codeBytes ≤ limits.maximumCodeBytes

/-- The source's test of room is the limits' own. -/
lemma Accounted.mustEvict_iff {c : CodeCache} (h : Accounted c) {codeBytes : Nat}
    (hbytes : codeBytes ≤ c.limits.maximumCodeBytes) :
    c.mustEvict (c.limits.maximumCodeBytes - codeBytes) ↔
      ¬ Fits c.limits c.entries codeBytes := by
  simp only [mustEvict, decide_eq_true_eq, h.bytes, Fits]
  omega

/-- Each victim is the entry used longest ago of those left, and at its turn the new entry does
not fit. -/
lemma Evicts.victim {c c' : CodeCache} {victims : List (CacheKey × CacheEntry)} {codeBytes : Nat}
    (h : Accounted c) (hbytes : codeBytes ≤ c.limits.maximumCodeBytes)
    (hevicts : Evicts (c.limits.maximumCodeBytes - codeBytes) c victims c') {i : Nat}
    {victim : CacheKey × CacheEntry} (hi : victims[i]? = some victim) :
    let left := dropVictims c.entries (victims.take i)
    victim ∈ left ∧ (∀ e ∈ left, victim.2.lastAccess ≤ e.2.lastAccess) ∧
      ¬ Fits c.limits left codeBytes := by
  generalize hroom : c.limits.maximumCodeBytes - codeBytes = room at hevicts
  induction hevicts generalizing i with
  | done fits => simp at hi
  | @evict c c' first victims full least rest ih =>
      have hspec := minElement_spec least
      cases i with
      | zero =>
          obtain rfl : first = victim := by simpa using hi
          rw [← hroom] at full
          have hfits := (h.mustEvict_iff hbytes).mp full
          rw [List.take_zero, dropVictims_nil]
          exact ⟨hspec.1, hspec.2, hfits⟩
      | succ i =>
          have hnext := ih (h.evicted hspec.1) hbytes (by simpa using hi) hroom
          have hentries : (c.evicted first.1).entries = dropKey c.entries first.1 := rfl
          rw [hentries, ← dropVictims_cons] at hnext
          exact hnext

/-! ## Publication in stages -/

/-- A new stamp keeps the accounts. -/
lemma Accounted.nextStamp {c : CodeCache} (h : Accounted c) : Accounted c.nextStamp.2 := by
  unfold CodeCache.nextStamp
  split
  · exact h.restamp (fun e => (e.1, { e.2 with lastAccess := 0 })) (fun _ => rfl)
      (fun _ => rfl) rfl rfl rfl rfl
  · exact h.congr rfl rfl rfl rfl

@[simp] lemma nextStamp_limits (c : CodeCache) : c.nextStamp.2.limits = c.limits := by
  unfold nextStamp
  split <;> rfl

/-- A new stamp leaves the counters alone. -/
@[simp] lemma nextStamp_statistics (c : CodeCache) :
    c.nextStamp.2.statistics = c.statistics := by
  unfold nextStamp
  split <;> rfl

/-- A new stamp leaves the keys alone. -/
lemma nextStamp_keys (c : CodeCache) :
    c.nextStamp.2.entries.map (·.1) = c.entries.map (·.1) := by
  unfold nextStamp
  split
  · simp [List.map_map, Function.comp_def]
  · rfl

/-- Marking an entry keeps the accounts. -/
lemma Accounted.touch {c : CodeCache} (h : Accounted c) (key : CacheKey) :
    Accounted (c.touch key) := by
  refine h.nextStamp.restamp (fun e =>
    (e.1, if e.1 = key then { e.2 with lastAccess := c.nextStamp.1 } else e.2))
    (fun _ => rfl) (fun e => ?_) rfl rfl rfl rfl
  by_cases hkey : e.1 = key <;> simp [hkey]

@[simp] lemma touch_statistics (c : CodeCache) (key : CacheKey) :
    (c.touch key).statistics = c.statistics :=
  nextStamp_statistics c

/-- Marking an entry leaves the keys alone. -/
lemma touch_keys (c : CodeCache) (key : CacheKey) :
    (c.touch key).entries.map (·.1) = c.entries.map (·.1) := by
  rw [← nextStamp_keys c]
  have htouch : (c.touch key).entries = c.nextStamp.2.entries.map fun e =>
      (e.1, if e.1 = key then { e.2 with lastAccess := c.nextStamp.1 } else e.2) := rfl
  rw [htouch, List.map_map]
  rfl

@[simp] lemma length_touch (c : CodeCache) (key : CacheKey) :
    (c.touch key).entries.length = c.entries.length := by
  simpa using congrArg List.length (touch_keys c key)

/-- A hit is counted. -/
lemma hit_statistics (c : CodeCache) (key : CacheKey) (entry : CacheEntry) :
    (c.hit key entry).2.statistics = { c.statistics with hits := c.statistics.hits + 1 } :=
  touch_statistics _ key

/-- A reuse is counted. -/
lemma reuse_statistics (c : CodeCache) (key : CacheKey) (existing : CacheEntry) :
    (c.reuse key existing).2.statistics =
      { c.statistics with publicationReuses := c.statistics.publicationReuses + 1 } :=
  touch_statistics _ key

/-- The cache with one more publication counted. -/
def counted (c : CodeCache) : CodeCache :=
  c.count fun s => { s with publications := s.publications + 1 }

/-- The cache with one more retired entry. -/
def retired (c : CodeCache) (key : CacheKey) : CodeCache :=
  (c.without key).count fun s => { s with
    assumptionInvalidations := s.assumptionInvalidations + 1 }

/-- Retiring an entry that is there succeeds. -/
lemma Accounted.retire_eq {c : CodeCache} (h : Accounted c) {key : CacheKey}
    {entry : CacheEntry} (hmem : (key, entry) ∈ c.entries) :
    c.retire key entry = some (c.retired key) := by
  simp [retire, h.erase_eq hmem, CodeCache.retired]

/-- Retiring an entry keeps the accounts. -/
lemma Accounted.retired {c : CodeCache} (h : Accounted c) {key : CacheKey} {entry : CacheEntry}
    (hmem : (key, entry) ∈ c.entries) : Accounted (c.retired key) :=
  (h.without hmem).congr rfl rfl rfl rfl

/-- The states in which a publication begins a new generation: the key has no entry, or one with
another fingerprint, or it had one whose assumptions failed. -/
inductive Opened (c : CodeCache) (valid : Token → Bool) (key : CacheKey)
    (fingerprint : BitVec 64) : CodeCache → Option CacheEntry → Prop
  | vacant (missing : c.lookup key = none) : Opened c valid key fingerprint c.counted none
  | occupied {existing : CacheEntry} (found : c.lookup key = some existing)
      (other : existing.fingerprint ≠ fingerprint) :
      Opened c valid key fingerprint c.counted (some existing)
  | retired {existing : CacheEntry} (found : c.lookup key = some existing)
      (same : existing.fingerprint = fingerprint)
      (failed : existing.function.assumptions.firstInvalid valid ≠ none) :
      Opened c valid key fingerprint (c.counted.retired key) none

/-- The room that a new generation takes over, if the key has an entry. -/
def vacated (c : CodeCache) (key : CacheKey) : Option CacheEntry → CodeCache
  | none => c
  | some _ => (c.without key).count fun s => { s with replacements := s.replacements + 1 }

/-- How a publication ends, up to the eviction loop. -/
inductive Publishes (c : CodeCache) (valid : Token → Bool) (order : IterationOrder)
    (key : CacheKey) (fingerprint : BitVec 64) (function : Option CompiledCode) :
    CodeCachePublication → CodeCache → Prop
  | rejected (status : Status) :
      Publishes c valid order key fingerprint function { status := .error status } c
  | reused {existing : CacheEntry} (found : c.lookup key = some existing)
      (same : existing.fingerprint = fingerprint)
      (holds : existing.function.assumptions.firstInvalid valid = none) :
      Publishes c valid order key fingerprint function (c.counted.reuse key existing).1
        (c.counted.reuse key existing).2
  | uncached {c₁ : CodeCache} {existing : Option CacheEntry} (f : CompiledCode)
      (opened : Opened c valid key fingerprint c₁ existing) :
      Publishes c valid order key fingerprint function
        (c₁.nextCodeGeneration.2.uncached ⟨f, c₁.nextCodeGeneration.1⟩ []).1
        (c₁.nextCodeGeneration.2.uncached ⟨f, c₁.nextCodeGeneration.1⟩ []).2
  | stored {c₁ c₂ : CodeCache} {existing : Option CacheEntry} {f : CompiledCode}
      {victims : List (CacheKey × CacheEntry)}
      (opened : Opened c valid key fingerprint c₁ existing) (published : function = some f)
      (holds : f.assumptions.firstInvalid valid = none)
      (small : f.executableMappingSize ≤ c.limits.maximumCodeBytes)
      (evicts : Evicts (c.limits.maximumCodeBytes - f.executableMappingSize)
        (c₁.nextCodeGeneration.2.vacated key existing) victims c₂) :
      Publishes c valid order key fingerprint function
        (c₂.insert order key fingerprint ⟨f, c₁.nextCodeGeneration.1⟩ victims).1
        (c₂.insert order key fingerprint ⟨f, c₁.nextCodeGeneration.1⟩ victims).2

/-- Opening a publication keeps the accounts. -/
lemma Opened.accounted {c c₁ : CodeCache} {valid : Token → Bool} {key : CacheKey}
    {fingerprint : BitVec 64} {existing : Option CacheEntry} (h : Accounted c)
    (hopened : Opened c valid key fingerprint c₁ existing) : Accounted c₁ := by
  have hcounted : Accounted c.counted := h.congr rfl rfl rfl rfl
  cases hopened with
  | vacant => exact hcounted
  | occupied => exact hcounted
  | retired found => exact hcounted.retired (mem_of_lookup found)

/-- Opening a publication leaves the limits alone. -/
lemma Opened.limits {c c₁ : CodeCache} {valid : Token → Bool} {key : CacheKey}
    {fingerprint : BitVec 64} {existing : Option CacheEntry}
    (hopened : Opened c valid key fingerprint c₁ existing) : c₁.limits = c.limits := by
  cases hopened <;> rfl

/-- After the first half of a publication the key has the entry that is to be replaced, or none. -/
lemma Opened.existing {c c₁ : CodeCache} {valid : Token → Bool} {key : CacheKey}
    {fingerprint : BitVec 64} {existing : Option CacheEntry}
    (hopened : Opened c valid key fingerprint c₁ existing) :
    c₁.lookup key = existing := by
  cases hopened with
  | vacant missing => exact missing
  | occupied found => exact found
  | retired => exact lookup_eq_none.mpr (not_mem_dropKey c.entries key)

/-- Making place for a key keeps the accounts. -/
lemma Accounted.vacated {c : CodeCache} (h : Accounted c) {key : CacheKey}
    {existing : Option CacheEntry} (hexisting : c.lookup key = existing) :
    Accounted (c.vacated key existing) := by
  cases existing with
  | none => exact h
  | some entry => exact (h.without (mem_of_lookup hexisting)).congr rfl rfl rfl rfl

/-- Replacing an entry that was looked up succeeds. -/
lemma Accounted.replace_eq {c : CodeCache} (h : Accounted c) {key : CacheKey}
    {existing : Option CacheEntry} (hexisting : c.lookup key = existing) :
    c.replace key existing = some (c.vacated key existing) := by
  cases existing with
  | none => rfl
  | some entry =>
      simp only [replace, h.erase_eq (mem_of_lookup hexisting)]
      rfl

/-- Making place drops the key. -/
lemma vacated_entries {c : CodeCache} {key : CacheKey} {existing : Option CacheEntry}
    (hexisting : c.lookup key = existing) :
    (c.vacated key existing).entries = dropKey c.entries key := by
  cases existing with
  | none => exact (dropKey_of_not_mem (lookup_eq_none.mp hexisting)).symm
  | some entry => rfl

/-- The second half of a publication does one of two things. -/
lemma Accounted.publishNew_cases {c : CodeCache} (h : Accounted c) (valid : Token → Bool)
    (order : IterationOrder) {key : CacheKey} (fingerprint : BitVec 64) (f : CompiledCode)
    {existing : Option CacheEntry} (hexisting : c.lookup key = existing) :
    let g := c.nextCodeGeneration
    c.publishNew valid order key fingerprint f existing = some (g.2.uncached ⟨f, g.1⟩ []) ∨
    ∃ victims c₂, f.assumptions.firstInvalid valid = none ∧
      f.executableMappingSize ≤ c.limits.maximumCodeBytes ∧
      Evicts (c.limits.maximumCodeBytes - f.executableMappingSize) (g.2.vacated key existing)
        victims c₂ ∧
      c.publishNew valid order key fingerprint f existing =
        some (c₂.insert order key fingerprint ⟨f, g.1⟩ victims) := by
  intro g
  have hg : Accounted g.2 := h.congr rfl rfl rfl rfl
  have hlookup : g.2.lookup key = existing := hexisting
  by_cases hskip : f.assumptions.firstInvalid valid ≠ none ∨ g.2.limits.maximumEntries = 0 ∨
      g.2.limits.maximumCodeBytes < f.executableMappingSize
  · left
    exact if_pos hskip
  · right
    push Not at hskip
    obtain ⟨hholds, hentries, hsmall⟩ := hskip
    have hv := hg.vacated hlookup
    have hlimits : (g.2.vacated key existing).limits = c.limits := by
      cases existing <;> rfl
    obtain ⟨victims, c₂, heq, hevicts⟩ := hv.evictToFit_evicts (by rw [hlimits]; exact hentries)
      (c.limits.maximumCodeBytes - f.executableMappingSize) (Nat.lt_succ_self _)
    refine ⟨victims, c₂, hholds, hsmall, hevicts, ?_⟩
    -- the key was vacated, and evictions add nothing
    have hmissing : c₂.lookup key = none := by
      rw [lookup_eq_none, hevicts.eq hv, vacated_entries hlookup]
      intro hmem
      obtain ⟨e, he, rfl⟩ := List.mem_map.mp hmem
      exact not_mem_dropKey g.2.entries e.1 (List.mem_map_of_mem (List.mem_filter.mp he).1)
    have hroom : checkedSub (g.2.vacated key existing).limits.maximumCodeBytes
        f.executableMappingSize = some (c.limits.maximumCodeBytes - f.executableMappingSize) := by
      rw [hlimits]
      exact if_pos hsmall
    have hplace : (g.2.vacated key existing).place order key fingerprint ⟨f, g.1⟩ =
        some (c₂.insert order key fingerprint ⟨f, g.1⟩ victims) := by
      simp [place, hroom, heq, hmissing]
    have hskip : ¬ (f.assumptions.firstInvalid valid ≠ none ∨ g.2.limits.maximumEntries = 0 ∨
        g.2.limits.maximumCodeBytes < f.executableMappingSize) := by
      push Not
      exact ⟨hholds, hentries, hsmall⟩
    calc c.publishNew valid order key fingerprint f existing
        = (g.2.replace key existing).bind fun c => c.place order key fingerprint ⟨f, g.1⟩ :=
          if_neg hskip
      _ = some (c₂.insert order key fingerprint ⟨f, g.1⟩ victims) := by
          rw [hg.replace_eq hlookup, Option.bind_some, hplace]

/-- **Outcomes of a publication.** Under `Accounted` it always has one. -/
lemma Accounted.publish_cases {c : CodeCache} (h : Accounted c) (valid : Token → Bool)
    (order : IterationOrder) (key : CacheKey) (fingerprint : BitVec 64)
    (function : Option CompiledCode) :
    ∃ p c', c.publish valid order key fingerprint function = some (p, c') ∧
      Publishes c valid order key fingerprint function p c' := by
  unfold publish
  cases hcheck : c.checkPublication key function with
  | error status => exact ⟨_, _, rfl, .rejected status⟩
  | ok f =>
      have hfunction : function = some f := by
        cases function with
        | none => simp [checkPublication, require_bind_eq_ok] at hcheck
        | some f' =>
            simp only [checkPublication, require_bind_eq_ok, pure_eq_ok] at hcheck
            rw [hcheck.2.2.2]
      -- the new generation, once the first half is done
      have hnew : ∀ {c₁ : CodeCache} {existing : Option CacheEntry},
          Opened c valid key fingerprint c₁ existing →
          ∃ p c', c₁.publishNew valid order key fingerprint f existing = some (p, c') ∧
            Publishes c valid order key fingerprint function p c' := by
        intro c₁ existing hopened
        rcases (hopened.accounted h).publishNew_cases valid order fingerprint f
          hopened.existing with heq | ⟨victims, c₂, hholds, hsmall, hevicts, heq⟩
        · exact ⟨_, _, heq, .uncached f hopened⟩
        · rw [hopened.limits] at hsmall hevicts
          exact ⟨_, _, heq, .stored hopened hfunction hholds hsmall hevicts⟩
      have hcounted : Accounted c.counted := h.congr rfl rfl rfl rfl
      show ∃ p c', c.publishLocked valid order key fingerprint f = some (p, c') ∧ _
      unfold publishLocked
      have hlookup : c.counted.lookup key = c.lookup key := rfl
      rw [← counted]
      simp only [hlookup]
      cases hfound : c.lookup key with
      | none => exact hnew (.vacant hfound)
      | some existing =>
          by_cases hother : existing.fingerprint ≠ fingerprint
          · have := hnew (.occupied hfound hother)
            simpa [hother] using this
          · by_cases hholds : existing.function.assumptions.firstInvalid valid = none
            · have hreused : Publishes c valid order key fingerprint function _ _ :=
                .reused hfound (not_not.mp hother) hholds
              simpa [hother, hholds] using ⟨_, _, rfl, hreused⟩
            · have hretire := hcounted.retire_eq (mem_of_lookup hfound)
              have := hnew (.retired hfound (not_not.mp hother) hholds)
              simpa [hother, hholds, hretire] using this

/-- The entry that a publication adds. -/
def newEntry (c : CodeCache) (fingerprint : BitVec 64) (lease : CodeLease) : CacheEntry :=
  ⟨fingerprint, lease.generation, c.nextStamp.1, lease.function.executableMappingSize,
    lease.function⟩

/-- An insertion adds one entry, wherever it is stored. -/
lemma insert_perm (c : CodeCache) (order : IterationOrder) (key : CacheKey)
    (fingerprint : BitVec 64) (lease : CodeLease) (victims : List (CacheKey × CacheEntry)) :
    (c.insert order key fingerprint lease victims).2.entries.Perm
      ((key, c.newEntry fingerprint lease) :: c.nextStamp.2.entries) :=
  order.perm _

/-- An insertion adds one entry. -/
lemma length_insert (c : CodeCache) (order : IterationOrder) (key : CacheKey)
    (fingerprint : BitVec 64) (lease : CodeLease) (victims : List (CacheKey × CacheEntry)) :
    (c.insert order key fingerprint lease victims).2.entries.length = c.entries.length + 1 := by
  have hkeys := congrArg List.length (nextStamp_keys c)
  have hperm := (insert_perm c order key fingerprint lease victims).length_eq
  simp only [List.length_map, List.length_cons] at hkeys hperm
  omega

/-- An insertion is counted. -/
lemma insert_statistics (c : CodeCache) (order : IterationOrder) (key : CacheKey)
    (fingerprint : BitVec 64) (lease : CodeLease) (victims : List (CacheKey × CacheEntry)) :
    (c.insert order key fingerprint lease victims).2.statistics =
      { c.statistics with
        residentEntries := (c.insert order key fingerprint lease victims).2.entries.length
        residentCodeBytes := (c.statistics.residentCodeBytes +
          lease.function.executableMappingSize) % 2 ^ 64 } := by
  simp only [CodeCache.insert, nextStamp_statistics]

/-- An insertion that fits keeps the accounts. -/
lemma Accounted.insert {c : CodeCache} (h : Accounted c) (order : IterationOrder)
    {key : CacheKey} (hkey : key ∉ c.entries.map (·.1)) (fingerprint : BitVec 64)
    {lease : CodeLease} (hfits : Fits c.limits c.entries lease.function.executableMappingSize)
    (victims : List (CacheKey × CacheEntry)) :
    Accounted (c.insert order key fingerprint lease victims).2 := by
  have hstamp := h.nextStamp
  have hperm := insert_perm c order key fingerprint lease victims
  have hlength := length_insert c order key fingerprint lease victims
  have hlimits : (c.insert order key fingerprint lease victims).2.limits = c.limits :=
    nextStamp_limits c
  have hold : entryBytes c.nextStamp.2.entries = entryBytes c.entries := by
    rw [← hstamp.bytes, ← h.bytes, nextStamp_statistics]
  have hsum : entryBytes (c.insert order key fingerprint lease victims).2.entries =
      entryBytes c.entries + lease.function.executableMappingSize := by
    rw [entryBytes_perm hperm, ← hold, Nat.add_comm]
    simp [entryBytes, newEntry]
  have hmaximum := c.limits.maximumCodeBytes_lt
  refine ⟨?_, ?_, rfl, ?_, ?_⟩
  · rw [(hperm.map _).nodup_iff, List.map_cons, List.nodup_cons, nextStamp_keys]
    exact ⟨hkey, h.nodup⟩
  · rw [hlength, hlimits]
    exact hfits.1
  · rw [hsum]
    show (c.nextStamp.2.statistics.residentCodeBytes + _) % 2 ^ 64 = _
    rw [nextStamp_statistics, h.bytes]
    exact Nat.mod_eq_of_lt (lt_of_le_of_lt hfits.2 hmaximum)
  · rw [hsum, hlimits]
    exact hfits.2

/-- The cache into which a new generation is inserted: accounted for, without the key, and with
room for the function. -/
lemma Opened.evicted {c c₁ c₂ : CodeCache} {valid : Token → Bool} {key : CacheKey}
    {fingerprint : BitVec 64} {existing : Option CacheEntry} {codeBytes : Nat}
    {victims : List (CacheKey × CacheEntry)} (h : Accounted c)
    (hopened : Opened c valid key fingerprint c₁ existing)
    (hsmall : codeBytes ≤ c.limits.maximumCodeBytes)
    (hevicts : Evicts (c.limits.maximumCodeBytes - codeBytes)
      (c₁.nextCodeGeneration.2.vacated key existing) victims c₂) :
    Accounted c₂ ∧ c₂.entries = dropVictims (dropKey c.entries key) victims ∧
      c₂.limits = c.limits ∧ Fits c₂.limits c₂.entries codeBytes := by
  have h₁ : Accounted c₁.nextCodeGeneration.2 := (hopened.accounted h).congr rfl rfl rfl rfl
  have hlookup : c₁.nextCodeGeneration.2.lookup key = existing := hopened.existing
  have hv := h₁.vacated hlookup
  have h₂ := hevicts.accounted hv
  have hlimits : c₂.limits = c.limits := by
    rw [hevicts.eq hv, ← hopened.limits]
    cases existing <;> rfl
  refine ⟨h₂, ?_, hlimits, ?_⟩
  · rw [hevicts.eq hv]
    show dropVictims (c₁.nextCodeGeneration.2.vacated key existing).entries victims = _
    rw [vacated_entries hlookup]
    congr 1
    show dropKey c₁.entries key = dropKey c.entries key
    cases hopened with
    | vacant => rfl
    | occupied => rfl
    | retired => exact dropKey_of_not_mem (not_mem_dropKey c.entries key)
  · by_contra hfits
    rw [← hlimits] at hsmall hevicts
    exact hevicts.not_mustEvict ((h₂.mustEvict_iff hsmall).mpr hfits)

/-- The counters when a new generation is stored: one publication, at most one entry removed under
the key itself, and the victims. -/
lemma Opened.stored_statistics {c c₁ c₂ : CodeCache} {valid : Token → Bool} {key : CacheKey}
    {fingerprint : BitVec 64} {existing : Option CacheEntry} {room : Nat}
    {victims : List (CacheKey × CacheEntry)} (h : Accounted c)
    (hopened : Opened c valid key fingerprint c₁ existing)
    (hevicts : Evicts room (c₁.nextCodeGeneration.2.vacated key existing) victims c₂) :
    ∃ replaced retired, replaced < 2 ∧ retired < 2 ∧
      c.entries.length = c₂.entries.length + victims.length + replaced + retired ∧
      c₂.statistics = { c.statistics with
        publications := c.statistics.publications + 1
        replacements := c.statistics.replacements + BitVec.ofNat 64 replaced
        assumptionInvalidations :=
          c.statistics.assumptionInvalidations + BitVec.ofNat 64 retired
        evictions := c.statistics.evictions + BitVec.ofNat 64 victims.length
        residentEntries := c₂.statistics.residentEntries
        residentCodeBytes := c₂.statistics.residentCodeBytes } := by
  have hgeneration : Accounted c₁.nextCodeGeneration.2 :=
    (hopened.accounted h).congr rfl rfl rfl rfl
  have hv : Accounted (c₁.nextCodeGeneration.2.vacated key existing) :=
    hgeneration.vacated hopened.existing
  have hlength := hevicts.length_eq hv
  have heq := hevicts.eq hv
  cases hopened with
  | vacant =>
      refine ⟨0, 0, by decide, by decide, hlength, ?_⟩
      rw [heq]
      simp [vacated, nextCodeGeneration, counted, count]
  | occupied found =>
      have hdrop := length_dropKey h.nodup (mem_of_lookup found)
      have hleft : (dropKey c.entries key).length = c₂.entries.length + victims.length := hlength
      refine ⟨1, 0, by decide, by decide, by omega, ?_⟩
      rw [heq]
      simp [vacated, nextCodeGeneration, counted, count, CodeCache.without]
  | retired found =>
      have hdrop := length_dropKey h.nodup (mem_of_lookup found)
      have hleft : (dropKey c.entries key).length = c₂.entries.length + victims.length := hlength
      refine ⟨0, 1, by decide, by decide, by omega, ?_⟩
      rw [heq]
      simp [vacated, nextCodeGeneration, counted, count, CodeCache.without, CodeCache.retired]

/-- Evictions do not bring a key back. -/
lemma not_mem_dropVictims {entries : List (CacheKey × CacheEntry)} {key : CacheKey}
    (victims : List (CacheKey × CacheEntry)) (h : key ∉ entries.map (·.1)) :
    key ∉ (dropVictims entries victims).map (·.1) := by
  intro hmem
  obtain ⟨e, he, rfl⟩ := List.mem_map.mp hmem
  exact h (List.mem_map_of_mem (List.mem_filter.mp he).1)

/-- A publication keeps the accounts. -/
lemma Publishes.accounted {c c' : CodeCache} {valid : Token → Bool} {order : IterationOrder}
    {key : CacheKey} {fingerprint : BitVec 64} {function : Option CompiledCode}
    {p : CodeCachePublication} (h : Accounted c)
    (hpublishes : Publishes c valid order key fingerprint function p c') : Accounted c' := by
  cases hpublishes with
  | rejected => exact h
  | reused =>
      apply Accounted.touch
      exact h.congr rfl rfl rfl rfl
  | uncached f opened => exact (opened.accounted h).congr rfl rfl rfl rfl
  | stored opened published holds small evicts =>
      obtain ⟨h₂, hentries, -, hfits⟩ := opened.evicted h small evicts
      refine h₂.insert order ?_ fingerprint hfits _
      rw [hentries]
      exact not_mem_dropVictims _ (not_mem_dropKey c.entries key)

/-- A publication leaves the limits alone. -/
lemma Publishes.limits {c c' : CodeCache} {valid : Token → Bool} {order : IterationOrder}
    {key : CacheKey} {fingerprint : BitVec 64} {function : Option CompiledCode}
    {p : CodeCachePublication} (h : Accounted c)
    (hpublishes : Publishes c valid order key fingerprint function p c') :
    c'.limits = c.limits := by
  cases hpublishes with
  | rejected => rfl
  | reused => exact nextStamp_limits _
  | uncached f opened => exact opened.limits
  | stored opened published holds small evicts =>
      obtain ⟨-, -, hlimits, -⟩ := opened.evicted h small evicts
      rw [← hlimits]
      exact nextStamp_limits _

/-- The cache with one more lookup counted. -/
def looked (c : CodeCache) : CodeCache :=
  c.count fun s => { s with lookups := s.lookups + 1 }

/-- How a lookup ends. -/
inductive Finds (c : CodeCache) (valid : Token → Bool) (key : CacheKey)
    (fingerprint : BitVec 64) : Option CodeLease → CodeCache → Prop
  | missed (absent : ∀ entry, c.lookup key = some entry → entry.fingerprint ≠ fingerprint) :
      Finds c valid key fingerprint none
        c.looked.miss.2
  | retired {entry : CacheEntry} (found : c.lookup key = some entry)
      (failed : entry.function.assumptions.firstInvalid valid ≠ none) :
      Finds c valid key fingerprint none
        (c.looked.retired key).miss.2
  | hit {entry : CacheEntry} (found : c.lookup key = some entry)
      (same : entry.fingerprint = fingerprint)
      (holds : entry.function.assumptions.firstInvalid valid = none) :
      Finds c valid key fingerprint (some ⟨entry.function, entry.generation⟩)
        (c.looked.hit key entry).2

/-- What a search in a cache with its accounts in order may do. -/
lemma Accounted.find_cases {c : CodeCache} (h : Accounted c) (valid : Token → Bool)
    (key : CacheKey) (fingerprint : BitVec 64) :
    ∃ found c', c.find valid key fingerprint = some (found, c') ∧
      Finds c valid key fingerprint found c' := by
  unfold find
  have hcounted : Accounted c.looked :=
    h.congr rfl rfl rfl rfl
  have hlookup : c.looked.lookup key = c.lookup key := rfl
  rw [← looked]
  simp only [hlookup]
  cases hfound : c.lookup key with
  | none => exact ⟨_, _, rfl, .missed (by simp [hfound])⟩
  | some entry =>
      by_cases hother : entry.fingerprint ≠ fingerprint
      · have hmissed : Finds c valid key fingerprint none _ :=
          .missed (by simpa [hfound] using hother)
        exact ⟨_, _, by simp [hother, miss], hmissed⟩
      · by_cases hholds : entry.function.assumptions.firstInvalid valid = none
        · have hhit := Finds.hit hfound (not_not.mp hother) hholds
          exact ⟨_, _, by simp [hother, hholds, hit], hhit⟩
        · have hretired : Finds c valid key fingerprint none _ := .retired hfound hholds
          have heq := hcounted.retire_eq (mem_of_lookup hfound)
          exact ⟨_, _, by simp [hother, hholds, heq, miss], hretired⟩

/-- A search keeps the accounts. -/
lemma Finds.accounted {c c' : CodeCache} {valid : Token → Bool} {key : CacheKey}
    {fingerprint : BitVec 64} {found : Option CodeLease} (h : Accounted c)
    (hfinds : Finds c valid key fingerprint found c') : Accounted c' := by
  have hcounted : Accounted c.looked :=
    h.congr rfl rfl rfl rfl
  cases hfinds with
  | missed => exact hcounted.congr rfl rfl rfl rfl
  | retired found => exact (hcounted.retired (mem_of_lookup found)).congr rfl rfl rfl rfl
  | hit =>
      apply Accounted.touch
      exact hcounted.congr rfl rfl rfl rfl

/-- A search leaves the limits alone. -/
lemma Finds.limits {c c' : CodeCache} {valid : Token → Bool} {key : CacheKey}
    {fingerprint : BitVec 64} {found : Option CodeLease}
    (hfinds : Finds c valid key fingerprint found c') : c'.limits = c.limits := by
  cases hfinds with
  | missed => rfl
  | retired => rfl
  | hit => exact nextStamp_limits _

/-- An invalidation removes the entry of its key or does nothing. -/
lemma Accounted.invalidateIf_cases {c : CodeCache} (h : Accounted c) (key : CacheKey)
    (applies : CacheEntry → Bool) :
    c.invalidateIf key applies = some (false, c) ∨
    ∃ entry, c.lookup key = some entry ∧ applies entry ∧
      c.invalidateIf key applies = some (true, (c.without key).count fun s =>
        { s with invalidations := s.invalidations + 1 }) := by
  unfold invalidateIf
  cases hfound : c.lookup key with
  | none => exact .inl rfl
  | some entry =>
      by_cases happlies : applies entry
      · exact .inr ⟨entry, rfl, happlies, by simp [happlies, h.erase_eq (mem_of_lookup hfound)]⟩
      · exact .inl (by simp [happlies])

end CodeCache

/-! ## Balance of the counters -/

/-- No counter is smaller than before, so none has wrapped in between. -/
structure CodeCacheStats.Grows (s s' : CodeCacheStats) : Prop where
  lookups : s.lookups ≤ s'.lookups
  hits : s.hits ≤ s'.hits
  misses : s.misses ≤ s'.misses
  publications : s.publications ≤ s'.publications
  publicationReuses : s.publicationReuses ≤ s'.publicationReuses
  uncachedPublications : s.uncachedPublications ≤ s'.uncachedPublications
  replacements : s.replacements ≤ s'.replacements
  invalidations : s.invalidations ≤ s'.invalidations
  assumptionInvalidations : s.assumptionInvalidations ≤ s'.assumptionInvalidations
  evictions : s.evictions ≤ s'.evictions
  clears : s.clears ≤ s'.clears

/-- A counter that grew by `n` without wrapping shows it. -/
lemma toNat_add_of_le {x : BitVec 64} {n : Nat} (hn : n < 2 ^ 64)
    (h : x ≤ x + BitVec.ofNat 64 n) : (x + BitVec.ofNat 64 n).toNat = x.toNat + n := by
  have hx := x.isLt
  rw [BitVec.le_def, BitVec.toNat_add, BitVec.toNat_ofNat] at h
  rw [BitVec.toNat_add, BitVec.toNat_ofNat]
  omega

lemma toNat_succ_of_le {x : BitVec 64} (h : x ≤ x + 1) : (x + 1).toNat = x.toNat + 1 :=
  toNat_add_of_le (by decide) h

namespace CacheRun

open CodeCache

/-- Every lookup was a hit or a miss, and every entry that was ever stored is resident or was
removed in one of the counted ways. -/
structure Balanced (r : CacheRun) : Prop where
  lookups : r.cache.statistics.lookups.toNat =
    r.cache.statistics.hits.toNat + r.cache.statistics.misses.toNat
  publications : r.cache.statistics.publications.toNat =
    r.cache.statistics.publicationReuses.toNat + r.cache.statistics.uncachedPublications.toNat +
      (r.cache.entries.length + r.cache.statistics.replacements.toNat +
        r.cache.statistics.invalidations.toNat +
        r.cache.statistics.assumptionInvalidations.toNat +
        r.cache.statistics.evictions.toNat + r.cleared)

variable {r : CacheRun}

/-- A search keeps the counters in balance. -/
lemma Balanced.find (hb : Balanced r) (h : Accounted r.cache) {valid : Token → Bool}
    {key : CacheKey} {fingerprint : BitVec 64} {found : Option CodeLease} {c' : CodeCache}
    (hfinds : Finds r.cache valid key fingerprint found c')
    (hgrows : r.cache.statistics.Grows c'.statistics) (uses : List CacheKey) :
    Balanced { r with cache := c', uses := uses } := by
  have hlookups := hb.lookups
  have hpublications := hb.publications
  cases hfinds with
  | missed =>
      have h₁ := toNat_succ_of_le hgrows.lookups
      have h₂ := toNat_succ_of_le hgrows.misses
      refine ⟨?_, hpublications⟩
      simp only [looked, miss, count]
      omega
  | retired found =>
      have hlength := length_dropKey h.nodup (mem_of_lookup found)
      have h₁ := toNat_succ_of_le hgrows.lookups
      have h₂ := toNat_succ_of_le hgrows.misses
      have h₃ := toNat_succ_of_le hgrows.assumptionInvalidations
      constructor
      · simp only [looked, miss, count, retired, without]
        omega
      · simp only [looked, miss, count, retired, without]
        omega
  | hit found =>
      rw [hit_statistics] at hgrows
      have h₁ := toNat_succ_of_le hgrows.lookups
      have h₂ := toNat_succ_of_le hgrows.hits
      constructor
      · simp only [hit_statistics, looked, count]
        omega
      · simp only [hit_statistics, looked, count]
        simp only [hit, length_touch, count]
        omega

/-- A publication keeps the counters in balance. -/
lemma Balanced.publish (hb : Balanced r) (h : Accounted r.cache) {valid : Token → Bool}
    {order : IterationOrder} {key : CacheKey} {fingerprint : BitVec 64}
    {function : Option CompiledCode} {p : CodeCachePublication} {c' : CodeCache}
    (hpublishes : Publishes r.cache valid order key fingerprint function p c')
    (hgrows : r.cache.statistics.Grows c'.statistics) (uses : List CacheKey) :
    Balanced { r with cache := c', uses := uses } := by
  have hlookups := hb.lookups
  have hpublications := hb.publications
  cases hpublishes with
  | rejected => exact ⟨hlookups, hpublications⟩
  | reused found same holds =>
      rw [reuse_statistics] at hgrows
      have h₁ := toNat_succ_of_le hgrows.publications
      have h₂ := toNat_succ_of_le hgrows.publicationReuses
      constructor
      · simp only [reuse_statistics, counted, count]
        omega
      · simp only [reuse_statistics, counted, count]
        simp only [reuse, length_touch, count]
        omega
  | uncached f opened =>
      cases opened with
      | vacant =>
          have h₁ := toNat_succ_of_le hgrows.publications
          have h₂ := toNat_succ_of_le hgrows.uncachedPublications
          refine ⟨hlookups, ?_⟩
          simp only [counted, uncached, count, nextCodeGeneration]
          omega
      | occupied =>
          have h₁ := toNat_succ_of_le hgrows.publications
          have h₂ := toNat_succ_of_le hgrows.uncachedPublications
          refine ⟨hlookups, ?_⟩
          simp only [counted, uncached, count, nextCodeGeneration]
          omega
      | retired found =>
          have hlength := length_dropKey h.nodup (mem_of_lookup found)
          have h₁ := toNat_succ_of_le hgrows.publications
          have h₂ := toNat_succ_of_le hgrows.uncachedPublications
          have h₃ := toNat_succ_of_le hgrows.assumptionInvalidations
          refine ⟨hlookups, ?_⟩
          simp only [counted, uncached, count, nextCodeGeneration, retired, without]
          omega
  | @stored c₁ c₂ existing f victims opened published holds small evicts =>
      obtain ⟨replaced, retired, hreplaced, hretired, hlength, hstatistics⟩ :=
        opened.stored_statistics h evicts
      have hinsert := length_insert c₂ order key fingerprint ⟨f, c₁.nextCodeGeneration.1⟩ victims
      have hmaximum := h.length_le
      have hlimit := r.cache.limits.maximumEntries_lt
      rw [insert_statistics, hstatistics] at hgrows
      have h₁ := toNat_succ_of_le hgrows.publications
      have h₂ := toNat_add_of_le (by omega) hgrows.replacements
      have h₃ := toNat_add_of_le (by omega) hgrows.assumptionInvalidations
      have h₄ := toNat_add_of_le (by omega) hgrows.evictions
      constructor
      · simp only [insert_statistics]
        rw [hstatistics]
        exact hlookups
      · simp only [insert_statistics, hinsert]
        rw [hstatistics]
        simp only
        omega

/-- An invalidation keeps the counters in balance. -/
lemma Balanced.invalidated (hb : Balanced r) (h : Accounted r.cache) {key : CacheKey}
    {entry : CacheEntry} (hfound : r.cache.lookup key = some entry)
    (hgrows : r.cache.statistics.invalidations ≤ r.cache.statistics.invalidations + 1) :
    Balanced { r with cache := (r.cache.without key).count fun s =>
      { s with invalidations := s.invalidations + 1 } } := by
  have hpublications := hb.publications
  have hlength := length_dropKey h.nodup (mem_of_lookup hfound)
  have h₁ := toNat_succ_of_le hgrows
  refine ⟨hb.lookups, ?_⟩
  simp only [count, without]
  omega

/-- The counters of a state do not wrap in a step. -/
def NoneWraps (r : CacheRun) (operation : CacheOperation) : Prop :=
  ∀ r', r.step operation = some r' → r.cache.statistics.Grows r'.cache.statistics

/-- **Step.** Every operation has a result, which is accounted for, and balanced if no counter
wraps. -/
lemma step_accounted (h : Accounted r.cache) (operation : CacheOperation) :
    ∃ r', r.step operation = some r' ∧ Accounted r'.cache ∧ r'.cache.limits = r.cache.limits ∧
      (Balanced r → r.NoneWraps operation → Balanced r') := by
  have hinvalidate : ∀ key applies, ∃ b c', r.cache.invalidateIf key applies = some (b, c') ∧
      Accounted c' ∧ c'.limits = r.cache.limits ∧
      (Balanced r → r.cache.statistics.Grows c'.statistics → Balanced { r with cache := c' }) := by
    intro key applies
    rcases h.invalidateIf_cases key applies with heq | ⟨entry, hfound, -, heq⟩
    · exact ⟨_, _, heq, h, rfl, fun hb _ => ⟨hb.lookups, hb.publications⟩⟩
    · refine ⟨_, _, heq, (h.without (mem_of_lookup hfound)).congr rfl rfl rfl rfl, rfl, ?_⟩
      intro hb hgrows
      exact hb.invalidated h hfound hgrows.invalidations
  cases operation with
  | find key fingerprint =>
      obtain ⟨found, c', heq, hfinds⟩ := h.find_cases r.valid key fingerprint
      refine ⟨_, by simp only [step, CacheRun.find, heq]; rfl, hfinds.accounted h, hfinds.limits,
        ?_⟩
      intro hb hwraps
      exact hb.find h hfinds (hwraps _ (by simp only [step, CacheRun.find, heq]; rfl)) _
  | publish order key fingerprint function =>
      obtain ⟨p, c', heq, hpublishes⟩ :=
        h.publish_cases r.valid order key fingerprint function
      refine ⟨_, by simp only [step, CacheRun.publish, heq]; rfl, hpublishes.accounted h,
        hpublishes.limits h, ?_⟩
      intro hb hwraps
      exact hb.publish h hpublishes (hwraps _ (by simp only [step, CacheRun.publish, heq]; rfl)) _
  | invalidate key =>
      obtain ⟨b, c', heq, haccounted, hlimits, hbalanced⟩ := hinvalidate key fun _ => true
      refine ⟨_, by simp only [step, invalidate, heq]; rfl, haccounted, hlimits, ?_⟩
      intro hb hwraps
      exact hbalanced hb (hwraps _ (by simp only [step, invalidate, heq]; rfl))
  | invalidateFingerprint key fingerprint =>
      obtain ⟨b, c', heq, haccounted, hlimits, hbalanced⟩ :=
        hinvalidate key fun entry => entry.fingerprint = fingerprint
      refine ⟨_, by simp only [step, invalidateFingerprint, heq]; rfl, haccounted, hlimits, ?_⟩
      intro hb hwraps
      exact hbalanced hb (hwraps _ (by simp only [step, invalidateFingerprint, heq]; rfl))
  | clear =>
      refine ⟨_, rfl, ⟨by simp [clear], Nat.zero_le _, rfl, rfl, Nat.zero_le _⟩, rfl, ?_⟩
      intro hb _
      have hpublications := hb.publications
      refine ⟨hb.lookups, ?_⟩
      simp only [clear, List.length_nil]
      omega
  | closeToken token =>
      exact ⟨_, rfl, h, rfl, fun hb _ => ⟨hb.lookups, hb.publications⟩⟩

/-- The accounts of a new cache are in order. -/
lemma create_accounted (limits : CodeCacheLimits) (targetProfile : TargetProfile) :
    Accounted (create limits targetProfile).cache :=
  ⟨by simp [create], Nat.zero_le _, rfl, rfl, Nat.zero_le _⟩

/-- The counters of a new cache are in balance. -/
lemma create_balanced (limits : CodeCacheLimits) (targetProfile : TargetProfile) :
    Balanced (create limits targetProfile) :=
  ⟨rfl, rfl⟩

/-- Every run is defined. -/
lemma run_accounted (h : Accounted r.cache) (operations : List CacheOperation) :
    ∃ t, afterEvents step r operations = some t ∧ Accounted t.cache ∧
      t.cache.limits = r.cache.limits ∧
      (Balanced r → Along step NoneWraps r operations → Balanced t) := by
  induction operations generalizing r with
  | nil => exact ⟨r, rfl, h, rfl, fun hb _ => hb⟩
  | cons operation operations ih =>
      obtain ⟨r', hstep, h', hlimits, hbalanced⟩ := step_accounted h operation
      obtain ⟨t, hrun, ht, htlimits, htbalanced⟩ := ih h'
      refine ⟨t, afterEvents_cons.mpr ⟨r', hstep, hrun⟩, ht, htlimits.trans hlimits, ?_⟩
      intro hb halong
      exact htbalanced (hbalanced hb halong.1) (halong.2 r' hstep)

/-- **Accounting.** In every run of a cache no subtraction borrows, the totals are those of the
entries and within the limits, and the keys are distinct. If moreover no counter wraps, the
counters balance. -/
theorem cache_accounts (limits : CodeCacheLimits) (targetProfile : TargetProfile)
    (operations : List CacheOperation) :
    ∃ t, afterEvents step (create limits targetProfile) operations = some t ∧
      t.cache.statistics.residentEntries = t.cache.entries.length ∧
      t.cache.entries.length ≤ limits.maximumEntries ∧
      t.cache.statistics.residentCodeBytes = (t.cache.entries.map (·.2.codeBytes)).sum ∧
      t.cache.statistics.residentCodeBytes ≤ limits.maximumCodeBytes ∧
      (t.cache.entries.map (·.1)).Nodup ∧
      (Along step NoneWraps (create limits targetProfile) operations →
        t.cache.statistics.lookups.toNat =
          t.cache.statistics.hits.toNat + t.cache.statistics.misses.toNat ∧
        (t.cache.statistics.publications.toNat : Int) -
            t.cache.statistics.publicationReuses.toNat -
            t.cache.statistics.uncachedPublications.toNat =
          t.cache.statistics.residentEntries + t.cache.statistics.replacements.toNat +
            t.cache.statistics.invalidations.toNat +
            t.cache.statistics.assumptionInvalidations.toNat +
            t.cache.statistics.evictions.toNat + t.cleared) := by
  obtain ⟨t, hrun, h, hlimits, hbalanced⟩ :=
    run_accounted (create_accounted limits targetProfile) operations
  have hle := h.length_le
  have hbytes := h.bytes_le
  rw [hlimits] at hle hbytes
  refine ⟨t, hrun, h.resident, hle, h.bytes, h.bytes ▸ hbytes, h.nodup, ?_⟩
  intro halong
  obtain ⟨hlookups, hpublications⟩ := hbalanced (create_balanced limits targetProfile) halong
  refine ⟨hlookups, ?_⟩
  have hresident := h.resident
  omega

end CacheRun

end UniJit.Jit
