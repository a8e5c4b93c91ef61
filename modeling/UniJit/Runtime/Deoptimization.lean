import UniJit.Lib.KeyedLists
import UniJit.Runtime.ExecutionContext
import UniJit.Runtime.Materialization

/-!
# Deoptimization tables

When compiled code exits at a guard, the interpreter takes over. A deoptimization record says, for
one exit site, where to resume and which slots of the interpreter's frame to fill, from what: an
argument of the call, a constant, the value the exit has recorded, or a value the native code has
captured. A table is only built by `add`, so it has one record for a site, and a record fills a
slot once; both are fields of the structures below.

`reconstruct` reads a record against the context of the exit. The captured values are kept in
storage beside the rest of the context, and `capturedValueCount` of them are there.
-/

namespace UniJit.Runtime

open UniJit.Ir UniJit.Lib

/-! ## Records -/

/-- Where a recovered value comes from. -/
inductive RecoverySource
  | argument | constant | exitValue | capturedValue
  deriving DecidableEq, Repr

/-- The capture index of an operation that has not been resolved. -/
def unresolvedCaptureIndex : Nat := 2 ^ 64 - 1

/-- How one slot is filled. The source is `none` for a byte that names none. -/
structure RecoveryOperation where
  slot : Nat := 0
  type : ValueType := .word
  source : Option RecoverySource := some .constant
  argumentIndex : Nat := 0
  constant : Word := 0
  sourceValue : Value := .invalid
  captureIndex : Nat := unresolvedCaptureIndex
  deriving DecidableEq, Repr

namespace RecoveryOperation

/-- The slot of an argument. -/
def ofArgument (slot : Nat) (type : ValueType) (argumentIndex : Nat) : RecoveryOperation :=
  { slot := slot, type := type, source := some .argument, argumentIndex := argumentIndex }

/-- Recovers a constant. -/
def constantValue (slot : Nat) (type : ValueType) (value : Word) : RecoveryOperation :=
  { slot := slot, type := type, source := some .constant, constant := value }

/-- Recovers the value at the exit. -/
def ofExitValue (slot : Nat) (type : ValueType) : RecoveryOperation :=
  { slot := slot, type := type, source := some .exitValue }

/-- Recovers a value captured at the exit. -/
def capturedValue (slot : Nat) (type : ValueType) (value : Value) : RecoveryOperation :=
  { slot := slot, type := type, source := some .capturedValue, sourceValue := value }

/-- The operation names the index of its captured value. -/
def captureResolved (operation : RecoveryOperation) : Bool :=
  operation.source = some .capturedValue ∧ operation.captureIndex ≠ unresolvedCaptureIndex

/-- An operation has a scalar type, a source, and a value to capture if it captures one. -/
def wellFormed (operation : RecoveryOperation) : Bool :=
  validValueType operation.type ∧ operation.source ≠ none ∧
    (operation.source = some .capturedValue → operation.sourceValue.valid)

end RecoveryOperation

/-- What to restore at one exit site. The reason is `none` for a byte that names none. -/
structure DeoptimizationRecord where
  site : Nat := 0
  resumeOffset : Nat := 0
  reason : Option DeoptimizationReason := some .guardFailed
  recovery : List RecoveryOperation := []
  deriving DecidableEq, Repr

/-- What a table demands of a record. -/
structure DeoptimizationRecord.WellFormed (record : DeoptimizationRecord) : Prop where
  reason : record.reason ≠ none
  operations : ∀ operation ∈ record.recovery, operation.wellFormed = true
  slots : (record.recovery.map (·.slot)).Nodup

/-- The loop of `add` over the operations: each is well formed and fills a slot of its own. -/
def checkRecovery (recovery : List RecoveryOperation) : Except Status Unit :=
  recovery.zipIdx.forM fun (operation, index) => do
    require operation.wellFormed
      ⟨.invalidArgument, "deoptimization recovery operation is malformed", index⟩
    require (∀ candidate ∈ recovery.take index, candidate.slot ≠ operation.slot)
      ⟨.invalidArgument, "deoptimization recovery slot is duplicated", operation.slot⟩

/-- Recovery operations pass exactly when each is well formed and their slots are distinct. -/
lemma checkRecovery_eq_ok {recovery : List RecoveryOperation} {u : Unit} :
    checkRecovery recovery = .ok u ↔
      (∀ operation ∈ recovery, operation.wellFormed = true) ∧
        (recovery.map (·.slot)).Nodup := by
  simp only [checkRecovery, forM_eq_ok, require_bind_eq_ok, require_eq_ok]
  constructor
  · intro h
    have hat : ∀ (i : Nat) (operation : RecoveryOperation), recovery[i]? = some operation →
        operation.wellFormed = true ∧
          ∀ candidate ∈ recovery.take i, candidate.slot ≠ operation.slot :=
      fun i operation hi => h (operation, i) (List.mem_zipIdx_iff_getElem?.mpr hi)
    constructor
    · intro operation hmem
      obtain ⟨i, hi⟩ := List.getElem?_of_mem hmem
      exact (hat i operation hi).1
    · rw [List.nodup_iff_getElem?_ne_getElem?]
      intro i j hij hj heq
      rw [List.length_map] at hj
      rw [List.getElem?_map, List.getElem?_map, List.getElem?_eq_getElem hj,
        List.getElem?_eq_getElem (hij.trans hj)] at heq
      apply (hat j _ (List.getElem?_eq_getElem hj)).2 _ _ (Option.some.inj heq)
      exact List.mem_take_iff_getElem.mpr ⟨i, by omega, rfl⟩
  · rintro ⟨hoperations, hslots⟩ ⟨operation, i⟩ hentry
    have hi := List.mem_zipIdx_iff_getElem?.mp hentry
    refine ⟨hoperations _ (List.mem_of_getElem? hi), ?_⟩
    intro candidate hcandidate heq
    obtain ⟨j, hj, hget⟩ := List.mem_take_iff_getElem.mp hcandidate
    rw [List.nodup_iff_getElem?_ne_getElem?] at hslots
    have hlength := (List.getElem?_eq_some_iff.mp hi).1
    apply hslots j i (by omega) (by rw [List.length_map]; exact hlength)
    rw [List.getElem?_map, List.getElem?_map, List.getElem?_eq_getElem (by omega), hget, hi]
    exact congrArg some heq

/-! ## Tables -/

/-- Records of different sites. -/
structure DeoptimizationTable where
  records : List DeoptimizationRecord := []
  sites_nodup : (records.map (·.site)).Nodup := by simp
  wellFormed : ∀ record ∈ records, record.WellFormed := by simp

namespace DeoptimizationTable

/-- The record of a site. -/
def find (table : DeoptimizationTable) (site : Nat) : Option DeoptimizationRecord :=
  table.records.find? (·.site = site)

/-- The checks of `add`. -/
def checkRecord (table : DeoptimizationTable) (record : DeoptimizationRecord) :
    Except Status Unit := do
  require (record.reason ≠ none)
    ⟨.invalidArgument, "deoptimization record has an unknown reason", record.site⟩
  require (table.find record.site = none)
    ⟨.invalidArgument, "deoptimization site is already registered", record.site⟩
  checkRecovery record.recovery

/-- No record is found exactly when none has the site. -/
lemma find_eq_none {table : DeoptimizationTable} {site : Nat} :
    table.find site = none ↔ ∀ record ∈ table.records, record.site ≠ site :=
  find?_key_eq_none

/-- The record of a site is the only one that the table has for it. -/
lemma find_eq_some {table : DeoptimizationTable} {site : Nat} {record : DeoptimizationRecord} :
    table.find site = some record ↔ record ∈ table.records ∧ record.site = site :=
  find?_key_eq_some table.sites_nodup

/-- A record passes exactly when it is well formed and its site is new. -/
lemma checkRecord_eq_ok {table : DeoptimizationTable} {record : DeoptimizationRecord} {u : Unit} :
    table.checkRecord record = .ok u ↔
      record.WellFormed ∧ ∀ existing ∈ table.records, existing.site ≠ record.site := by
  unfold checkRecord
  rw [require_bind_eq_ok, require_bind_eq_ok, checkRecovery_eq_ok, find_eq_none]
  constructor
  · rintro ⟨hreason, hsite, hoperations, hslots⟩
    exact ⟨⟨hreason, hoperations, hslots⟩, hsite⟩
  · rintro ⟨⟨hreason, hoperations, hslots⟩, hsite⟩
    exact ⟨hreason, hsite, hoperations, hslots⟩

/-- Add a record; `allocates` says whether the table's storage can grow. -/
def add (table : DeoptimizationTable) (record : DeoptimizationRecord) (allocates : Bool) :
    Except Status DeoptimizationTable :=
  match hcheck : table.checkRecord record with
  | .error status => .error status
  | .ok () =>
      if allocates then
        .ok
          { records := table.records ++ [record]
            sites_nodup :=
              (nodup_map_concat table.sites_nodup record).mpr (checkRecord_eq_ok.mp hcheck).2
            wellFormed := by
              intro other hother
              rcases List.mem_append.mp hother with hold | hnew
              · exact table.wellFormed other hold
              · obtain rfl := List.mem_singleton.mp hnew
                exact (checkRecord_eq_ok.mp hcheck).1 }
      else
        .error ⟨.resourceExhausted, "unable to allocate deoptimization metadata", record.site⟩

/-- **Adding a record**: it is well formed and for a site of its own. -/
lemma add_eq_ok {table table' : DeoptimizationTable} {record : DeoptimizationRecord}
    {allocates : Bool} :
    table.add record allocates = .ok table' ↔
      allocates = true ∧ record.WellFormed ∧
        (∀ existing ∈ table.records, existing.site ≠ record.site) ∧
        table'.records = table.records ++ [record] := by
  obtain ⟨records', hsites', hwellFormed'⟩ := table'
  have hcheck : ∀ u, table.checkRecord record = .ok u ↔ _ := fun u => checkRecord_eq_ok
  unfold add
  split
  next status herror =>
    constructor
    · intro h
      cases h
    · rintro ⟨-, hrecord, hsite, -⟩
      rw [(hcheck ()).mpr ⟨hrecord, hsite⟩] at herror
      cases herror
  next hok =>
    obtain ⟨hrecord, hsite⟩ := (hcheck ()).mp hok
    cases allocates with
    | false => simp
    | true =>
        simp only [if_true, Except.ok.injEq, mk.injEq, true_and, hrecord]
        exact ⟨fun h => ⟨hsite, h.symm⟩, fun h => h.2.symm⟩

/-- Every argument that an operation names is one of the parameters. -/
def validate (table : DeoptimizationTable) (parameterCount : Nat) : Except Status Unit :=
  table.records.forM fun record =>
    record.recovery.forM fun operation =>
      require (operation.source = some .argument → operation.argumentIndex < parameterCount)
        ⟨.invalidArgument, "deoptimization recovery references an unknown argument", record.site⟩

end DeoptimizationTable

/-! ## Reconstruction -/

/-- The arguments as a caller passes them: a null pointer with a count, or words. -/
inductive ArgumentStorage
  | null (count : Nat)
  | words (values : List Word)
  deriving DecidableEq, Repr

namespace ArgumentStorage

/-- There is no array of arguments. -/
def isNull : ArgumentStorage → Bool
  | null _ => true
  | words _ => false

/-- The number of arguments. -/
def count : ArgumentStorage → Nat
  | null count => count
  | words values => values.length

/-- The argument at an index below the count; a null pointer is never read. -/
def get? : ArgumentStorage → Nat → Option Word
  | null _, _ => none
  | words values, index => values[index]?

end ArgumentStorage

section reconstruct

variable (arguments : ArgumentStorage) (context : ExecutionContext) (captured : Nat → Word)

/-- The value of one slot. A source that is none of the four leaves the zero that is there. -/
def recover (site : Nat) (operation : RecoveryOperation) : Except Status Word :=
  match operation.source with
  | some .argument =>
      match arguments.get? operation.argumentIndex with
      | none =>
          .error ⟨.invalidArgument, "deoptimization invocation has too few arguments", site⟩
      | some value => .ok value
  | some .constant => .ok operation.constant
  | some .exitValue => .ok context.exitValue
  | some .capturedValue => do
      require operation.captureResolved
        ⟨.invalidArgument, "deoptimization captured value is unresolved", site⟩
      require (operation.captureIndex < context.capturedValueCount)
        ⟨.invalidArgument, "deoptimization captured value is unavailable", site⟩
      pure (captured operation.captureIndex)
  | none => .ok 0

/-- Rebuild the frame of an exit; `allocates` says whether there is memory for its slots. -/
def DeoptimizationTable.reconstruct (table : DeoptimizationTable) (site : Nat)
    (allocates : Bool) : Except Status ReconstructedFrame :=
  match table.find site with
  | none =>
      .error ⟨.invalidArgument, "deoptimization site has no reconstruction metadata", site⟩
  | some record => do
      require (context.exitReason = .runtime ∧ context.exitSite = site)
        ⟨.invalidArgument, "execution context does not match the deoptimization site", site⟩
      require (¬ (arguments.count ≠ 0 ∧ arguments.isNull = true))
        ⟨.invalidArgument, "deoptimization argument storage is null", site⟩
      require (allocates = true)
        ⟨.resourceExhausted, "unable to allocate a reconstructed frame", site⟩
      let values ← record.recovery.mapM fun operation => do
        let value ← recover arguments context captured site operation
        pure { slot := operation.slot, type := operation.type, value := value : RecoveredValue }
      -- a record of a table has a reason
      pure
        { reason := record.reason.getD .guardFailed, site := record.site
          resumeOffset := record.resumeOffset, values := values }

/-- The value that the source of an operation designates, if it is available. -/
def designated (operation : RecoveryOperation) : Option Word :=
  match operation.source with
  | some .argument => arguments.get? operation.argumentIndex
  | some .constant => some operation.constant
  | some .exitValue => some context.exitValue
  | some .capturedValue =>
      if operation.captureIndex ≠ unresolvedCaptureIndex ∧
          operation.captureIndex < context.capturedValueCount then
        some (captured operation.captureIndex)
      else none
  | none => some 0

variable {arguments context captured}

/-- A value is recovered exactly when the operation designates one. -/
lemma recover_eq_ok {site : Nat} {operation : RecoveryOperation} {value : Word} :
    recover arguments context captured site operation = .ok value ↔
      designated arguments context captured operation = some value := by
  unfold recover designated
  cases hsource : operation.source with
  | none => simp
  | some source =>
      cases source with
      | argument => cases arguments.get? operation.argumentIndex <;> simp
      | constant => simp
      | exitValue => simp
      | capturedValue =>
          simp only [require_bind_eq_ok, pure_eq_ok, RecoveryOperation.captureResolved, hsource]
          split
          next h => simp [h.1, h.2, eq_comm]
          next h => simp only [reduceCtorEq, iff_false]; simpa using fun h' h'' => absurd ⟨h', h''⟩ h

/-- The slots of a frame are those of its record, each with the value that its source
designates. -/
lemma DeoptimizationTable.reconstruct_eq_ok {table : DeoptimizationTable} {site : Nat}
    {allocates : Bool} {frame : ReconstructedFrame} :
    table.reconstruct arguments context captured site allocates = .ok frame ↔
      ∃ record, table.find site = some record ∧
        (context.exitReason = .runtime ∧ context.exitSite = site) ∧
        ¬ (arguments.count ≠ 0 ∧ arguments.isNull = true) ∧ allocates = true ∧
        ∃ values, List.Forall₂ (fun operation value => ∃ word,
            designated arguments context captured operation = some word ∧
              value = ⟨operation.slot, operation.type, word⟩) record.recovery values ∧
          frame = ⟨record.reason.getD .guardFailed, record.site, record.resumeOffset, values⟩ := by
  unfold reconstruct
  cases table.find site with
  | none => simp
  | some record =>
      simp only [Option.some.injEq, exists_eq_left']
      rw [require_bind_eq_ok, require_bind_eq_ok, require_bind_eq_ok]
      simp only [bind_eq_ok, pure_eq_ok, mapM_eq_ok, recover_eq_ok]

/-- **Reconstruction succeeds** for a site of the table, in a context that has recorded a runtime
exit there, with storage for the arguments and memory for the frame, when every source that the
record designates is available. -/
lemma DeoptimizationTable.reconstruct_succeeds {table : DeoptimizationTable} {site : Nat}
    {allocates : Bool} :
    (∃ frame, table.reconstruct arguments context captured site allocates = .ok frame) ↔
      ∃ record ∈ table.records, record.site = site ∧
        (context.exitReason = .runtime ∧ context.exitSite = site) ∧
        ¬ (arguments.count ≠ 0 ∧ arguments.isNull = true) ∧ allocates = true ∧
        ∀ operation ∈ record.recovery,
          (designated arguments context captured operation).isSome = true := by
  simp only [reconstruct_eq_ok, find_eq_some]
  constructor
  · rintro ⟨_, record, ⟨hmem, hsite⟩, hexit, hstorage, hmemory, values, hvalues, -⟩
    refine ⟨record, hmem, hsite, hexit, hstorage, hmemory, ?_⟩
    intro operation hoperation
    obtain ⟨_, -, word, hword, -⟩ := exists_mem_right hvalues hoperation
    rw [hword]
    rfl
  · rintro ⟨record, hmem, hsite, hexit, hstorage, hmemory, havailable⟩
    have hvalue : ∀ operation ∈ record.recovery, ∃ value : RecoveredValue, ∃ word,
        designated arguments context captured operation = some word ∧
          value = ⟨operation.slot, operation.type, word⟩ := by
      intro operation hoperation
      obtain ⟨word, hword⟩ := Option.isSome_iff_exists.mp (havailable operation hoperation)
      exact ⟨_, word, hword, rfl⟩
    obtain ⟨values, hvalues⟩ := exists_forall₂.mpr hvalue
    exact ⟨_, record, ⟨hmem, hsite⟩, hexit, hstorage, hmemory, values, hvalues, rfl⟩

/-- **A reconstructed frame** has the slots of the record of its site, and in each slot the value
that the operation designates. -/
lemma DeoptimizationTable.reconstruct_exact {table : DeoptimizationTable} {site : Nat}
    {allocates : Bool} {frame : ReconstructedFrame}
    (h : table.reconstruct arguments context captured site allocates = .ok frame) :
    ∃ record ∈ table.records, record.site = site ∧ some frame.reason = record.reason ∧
      frame.site = site ∧ frame.resumeOffset = record.resumeOffset ∧
      frame.values.map (·.slot) = record.recovery.map (·.slot) ∧
      ∀ operation ∈ record.recovery, ∃ value,
        designated arguments context captured operation = some value ∧
          frame.find operation.slot = some ⟨operation.slot, operation.type, value⟩ := by
  obtain ⟨record, hfind, -, -, -, values, hvalues, rfl⟩ := reconstruct_eq_ok.mp h
  obtain ⟨hmem, hsite⟩ := find_eq_some.mp hfind
  have hrecord := table.wellFormed record hmem
  obtain ⟨reason, hreason⟩ := Option.ne_none_iff_exists'.mp hrecord.reason
  have hslots : values.map (·.slot) = record.recovery.map (·.slot) := by
    apply map_key_eq _ hvalues
    rintro operation _ ⟨word, -, rfl⟩
    rfl
  refine ⟨record, hmem, hsite, by rw [hreason]; rfl, hsite, rfl, hslots, ?_⟩
  intro operation hoperation
  obtain ⟨value, hvalue, word, hword, rfl⟩ := exists_mem_right hvalues hoperation
  exact ⟨word, hword, (find?_key_eq_some (hslots ▸ hrecord.slots)).mpr ⟨hvalue, rfl⟩⟩

end reconstruct

end UniJit.Runtime
