import UniJit.Runtime.Deoptimization

/-!
# On-stack replacement

An interpreter enters compiled code in the middle of a run by handing over its frame. The entry
plan binds each parameter of the compiled function to a slot of the frame, with its type, and
`marshal` copies the slots into an argument array of fixed capacity.

The array is a `Vector`; a write past its end has no meaning in the source, and is `none` here.
Plans and frames are only built by their `add` functions.
-/

namespace UniJit.Runtime

open UniJit.Ir UniJit.Lib

/-- The number of slots of a frame, and of arguments of a plan. -/
def maximumValues : Nat := 64

/-- A slot of a frame that is entered from. -/
structure OsrValue where
  slot : Nat := 0
  type : ValueType := .word
  value : Word := 0
  deriving DecidableEq, Repr

/-- The frame that is entered from. -/
structure OsrFrame where
  entrySite : Nat
  resumeOffset : Nat
  values : List OsrValue := []
  length_le : values.length ≤ maximumValues := by simp
  types : ∀ value ∈ values, validValueType value.type = true := by simp
  slots_nodup : (values.map (·.slot)).Nodup := by simp

/-- The slot and type of one argument. -/
structure OsrBinding where
  slot : Nat := 0
  type : ValueType := .word
  deriving DecidableEq, Repr

/-- Which slots become the arguments. -/
structure OsrEntryPlan where
  entrySite : Nat
  resumeOffset : Nat
  bindings : List OsrBinding := []
  length_le : bindings.length ≤ maximumValues := by simp
  types : ∀ binding ∈ bindings, validValueType binding.type = true := by simp
  slots_nodup : (bindings.map (·.slot)).Nodup := by simp

/-! ## Building -/

namespace OsrFrame

/-- The value of a slot. -/
def find (frame : OsrFrame) (slot : Nat) : Option OsrValue :=
  frame.values.find? (·.slot = slot)

/-- A value that is found is one of the frame's. -/
lemma find_eq_some {frame : OsrFrame} {slot : Nat} {value : OsrValue} :
    frame.find slot = some value ↔ value ∈ frame.values ∧ value.slot = slot :=
  find?_key_eq_some frame.slots_nodup

/-- No value is found exactly when no slot is the one. -/
lemma find_eq_none {frame : OsrFrame} {slot : Nat} :
    frame.find slot = none ↔ ∀ value ∈ frame.values, value.slot ≠ slot :=
  find?_key_eq_none

/-- Adds a slot to the frame. -/
def add (frame : OsrFrame) (slot : Nat) (type : ValueType) (value : Word) (allocates : Bool) :
    Except Status OsrFrame :=
  if htype : validValueType type = false then
    .error ⟨.invalidArgument, "OSR frame value has an unsupported type", slot⟩
  else if hroom : frame.values.length = maximumValues then
    .error ⟨.resourceExhausted, "OSR frame exceeds the value limit", slot⟩
  else if hslot : frame.find slot ≠ none then
    .error ⟨.invalidArgument, "OSR frame slot is duplicated", slot⟩
  else if allocates then
    .ok
      { frame with
        values := frame.values ++ [⟨slot, type, value⟩]
        length_le := by
          have := frame.length_le
          rw [List.length_append, List.length_singleton]
          omega
        types := by
          simp only [List.mem_append, List.mem_singleton]
          rintro other (hold | rfl)
          · exact frame.types other hold
          · exact Bool.of_not_eq_false htype
        slots_nodup :=
          (nodup_map_concat frame.slots_nodup _).mpr (find_eq_none.mp (not_not.mp hslot)) }
  else
    .error ⟨.resourceExhausted, "unable to allocate OSR frame state", slot⟩

end OsrFrame

/-- The check on the slots of `addArgument`. -/
def OsrEntryPlan.bindsSlot (plan : OsrEntryPlan) (slot : Nat) : Bool :=
  plan.bindings.any (·.slot = slot)

/-- Adds an argument to the plan. -/
def OsrEntryPlan.addArgument (plan : OsrEntryPlan) (slot : Nat) (type : ValueType)
    (allocates : Bool) : Except Status OsrEntryPlan :=
  if htype : validValueType type = false then
    .error ⟨.invalidArgument, "OSR argument binding has an unsupported type", slot⟩
  else if hroom : plan.bindings.length = maximumValues then
    .error ⟨.resourceExhausted, "OSR entry plan exceeds the argument limit", slot⟩
  else if hslot : plan.bindsSlot slot = true then
    .error ⟨.invalidArgument, "OSR argument binding reuses a logical slot", slot⟩
  else if allocates then
    .ok
      { plan with
        bindings := plan.bindings ++ [⟨slot, type⟩]
        length_le := by
          have := plan.length_le
          rw [List.length_append, List.length_singleton]
          omega
        types := by
          simp only [List.mem_append, List.mem_singleton]
          rintro other (hold | rfl)
          · exact plan.types other hold
          · exact Bool.of_not_eq_false htype
        slots_nodup := by
          apply (nodup_map_concat plan.slots_nodup _).mpr
          intro binding hbinding heq
          exact hslot (List.any_eq_true.mpr ⟨binding, hbinding, by simpa using heq⟩) }
  else
    .error ⟨.resourceExhausted, "unable to allocate OSR entry metadata", slot⟩

/-! ## Marshalling -/

/-- The marshalled arguments, or why there are none. -/
structure OsrArguments where
  status : Except Status Unit := .ok ()
  entrySite : Nat := 0
  resumeOffset : Nat := 0
  count : Nat := 0
  values : Vector Word maximumValues := Vector.replicate maximumValues 0

namespace OsrEntryPlan

/-- The loop over the bindings, from an index on. -/
def marshalFrom (frame : OsrFrame) (parameterTypes : List ValueType) :
    Nat → List OsrBinding → OsrArguments → Option OsrArguments
  | index, [], arguments => some { arguments with count := index, status := .ok () }
  | index, binding :: bindings, arguments =>
      if parameterTypes[index]? ≠ some binding.type then
        some
          { arguments with
            status := .error ⟨.invalidArgument,
              "OSR argument binding does not match the compiled signature", binding.slot⟩ }
      else
        match (frame.find binding.slot).filter (·.type = binding.type) with
        | none =>
            some
              { arguments with
                status := .error ⟨.invalidArgument,
                  "OSR argument is missing from the interpreter frame", binding.slot⟩ }
        | some value =>
            if hindex : index < maximumValues then
              marshalFrom frame parameterTypes (index + 1) bindings
                { arguments with values := arguments.values.set index value.value hindex }
            else none

/-- Marshals the arguments of an entry from a frame. -/
def marshal (plan : OsrEntryPlan) (frame : OsrFrame) (parameterTypes : List ValueType) :
    Option OsrArguments :=
  let arguments : OsrArguments :=
    { entrySite := plan.entrySite, resumeOffset := plan.resumeOffset }
  if frame.entrySite ≠ plan.entrySite ∨ frame.resumeOffset ≠ plan.resumeOffset then
    some
      { arguments with
        status := .error ⟨.invalidArgument,
          "OSR frame does not match the entry site and resume offset", frame.entrySite⟩ }
  else if parameterTypes.length ≠ plan.bindings.length then
    some
      { arguments with
        status := .error ⟨.invalidArgument,
          "OSR plan does not match the compiled function parameter count", plan.entrySite⟩ }
  else marshalFrom frame parameterTypes 0 plan.bindings arguments

end OsrEntryPlan

/-- The slot that a binding names holds a value of its type. -/
def OsrFrame.Provides (frame : OsrFrame) (binding : OsrBinding) (word : Word) : Prop :=
  ∃ value ∈ frame.values, value.slot = binding.slot ∧ value.type = binding.type ∧
    value.value = word

/-- Parameter `i` has the type of binding `i`, and the frame has a value of that type for it. -/
def MatchesFrom (frame : OsrFrame) (parameterTypes : List ValueType) (index : Nat)
    (bindings : List OsrBinding) : Prop :=
  ∀ (i : Nat) (binding : OsrBinding), bindings[i]? = some binding →
    parameterTypes[index + i]? = some binding.type ∧ ∃ word, frame.Provides binding word

/-- **The loop** ends without leaving the array. It succeeds exactly when the rest of the parameters
match, and then fills the rest of the array and keeps what is there. -/
lemma marshalFrom_spec (frame : OsrFrame) (parameterTypes : List ValueType)
    (bindings : List OsrBinding) (index : Nat) (arguments : OsrArguments)
    (hroom : index + bindings.length ≤ maximumValues) :
    ∃ arguments', OsrEntryPlan.marshalFrom frame parameterTypes index bindings arguments =
        some arguments' ∧
      (arguments'.status = .ok () ↔ MatchesFrom frame parameterTypes index bindings) ∧
      (arguments'.status = .ok () → arguments'.count = index + bindings.length ∧
        (∀ j, j < index → arguments'.values[j]? = arguments.values[j]?) ∧
        ∀ (i : Nat) (binding : OsrBinding), bindings[i]? = some binding →
          ∃ word, arguments'.values[index + i]? = some word ∧ frame.Provides binding word) := by
  induction bindings generalizing index arguments with
  | nil =>
      refine ⟨_, rfl, ?_, ?_⟩
      · simp [MatchesFrom]
      · simp
  | cons binding bindings ih =>
      rw [List.length_cons] at hroom
      unfold OsrEntryPlan.marshalFrom
      by_cases htype : parameterTypes[index]? = some binding.type
      · rw [if_neg (not_not.mpr htype)]
        cases hvalue : (frame.find binding.slot).filter (·.type = binding.type) with
        | none =>
            refine ⟨_, rfl, ?_, by simp⟩
            simp only [reduceCtorEq, false_iff]
            intro hmatches
            obtain ⟨-, word, value, hmem, hslot, hvtype, -⟩ := hmatches 0 binding rfl
            rw [OsrFrame.find_eq_some.mpr ⟨hmem, hslot⟩] at hvalue
            simp [hvtype] at hvalue
        | some value =>
            obtain ⟨hfind, hvtype⟩ := Option.filter_eq_some_iff.mp hvalue
            obtain ⟨hmem, hslot⟩ := OsrFrame.find_eq_some.mp hfind
            have hprovides : frame.Provides binding value.value :=
              ⟨value, hmem, hslot, by simpa using hvtype, rfl⟩
            have hindex : index < maximumValues := by omega
            obtain ⟨arguments', hrun, hstatus, hfilled⟩ := ih (index + 1)
              { arguments with values := arguments.values.set index value.value hindex }
              (by omega)
            refine ⟨arguments', ?_, ?_, ?_⟩
            · simp only [dif_pos hindex]
              exact hrun
            · rw [hstatus]
              constructor
              · rintro hrest (_ | i) other hother
                · obtain rfl : binding = other := by simpa using hother
                  exact ⟨htype, _, hprovides⟩
                · have := hrest i other (by simpa using hother)
                  rwa [Nat.add_assoc, Nat.add_comm 1] at this
              · intro hall i other hother
                have := hall (i + 1) other (by simpa using hother)
                rwa [← Nat.add_assoc, Nat.add_right_comm] at this
            · intro hok
              obtain ⟨hcount, hkept, hrest⟩ := hfilled hok
              refine ⟨by rw [List.length_cons]; omega, ?_, ?_⟩
              · intro j hj
                rw [hkept j (by omega)]
                exact Vector.getElem?_set_ne hindex (by omega)
              · rintro (_ | i) other hother
                · obtain rfl : binding = other := by simpa using hother
                  refine ⟨value.value, ?_, hprovides⟩
                  rw [Nat.add_zero, hkept index (by omega)]
                  exact Vector.getElem?_set_self hindex
                · obtain ⟨word, hword, hother'⟩ := hrest i other (by simpa using hother)
                  rw [Nat.add_assoc, Nat.add_comm 1] at hword
                  exact ⟨word, hword, hother'⟩
      · rw [if_pos htype]
        refine ⟨_, rfl, ?_, by simp⟩
        simp only [reduceCtorEq, false_iff]
        intro hmatches
        exact htype (hmatches 0 binding rfl).1

/-- Everything `marshal` asks for: the frame of this entry, and a match for every parameter. -/
structure OsrEntryPlan.Matches (plan : OsrEntryPlan) (frame : OsrFrame)
    (parameterTypes : List ValueType) : Prop where
  entrySite : frame.entrySite = plan.entrySite
  resumeOffset : frame.resumeOffset = plan.resumeOffset
  length : parameterTypes.length = plan.bindings.length
  parameters : MatchesFrom frame parameterTypes 0 plan.bindings

/-- **Marshalling** never leaves the array, succeeds exactly when everything matches, and then has
each parameter's value in its place. -/
lemma OsrEntryPlan.marshal_spec (plan : OsrEntryPlan) (frame : OsrFrame)
    (parameterTypes : List ValueType) :
    ∃ arguments, plan.marshal frame parameterTypes = some arguments ∧
      (arguments.status = .ok () ↔ plan.Matches frame parameterTypes) ∧
      (arguments.status = .ok () → arguments.count = parameterTypes.length ∧
        ∀ (i : Nat) (binding : OsrBinding), plan.bindings[i]? = some binding →
          parameterTypes[i]? = some binding.type ∧
          ∃ word, arguments.values[i]? = some word ∧ frame.Provides binding word) := by
  unfold marshal
  by_cases hsite : frame.entrySite ≠ plan.entrySite ∨ frame.resumeOffset ≠ plan.resumeOffset
  · rw [if_pos hsite]
    refine ⟨_, rfl, ?_, by simp⟩
    simp only [reduceCtorEq, false_iff]
    rintro ⟨hentry, hresume, -, -⟩
    rcases hsite with h | h
    · exact h hentry
    · exact h hresume
  · rw [if_neg hsite]
    by_cases hlength : parameterTypes.length ≠ plan.bindings.length
    · rw [if_pos hlength]
      refine ⟨_, rfl, ?_, by simp⟩
      simp only [reduceCtorEq, false_iff]
      rintro ⟨-, -, h, -⟩
      exact hlength h
    · rw [if_neg hlength]
      have hroom : 0 + plan.bindings.length ≤ maximumValues := by
        rw [Nat.zero_add]
        exact plan.length_le
      obtain ⟨arguments, hrun, hstatus, hfilled⟩ := marshalFrom_spec frame parameterTypes
        plan.bindings 0 { entrySite := plan.entrySite, resumeOffset := plan.resumeOffset } hroom
      rw [not_or, not_not, not_not] at hsite
      rw [not_not] at hlength
      refine ⟨arguments, hrun, ?_, ?_⟩
      · rw [hstatus]
        exact ⟨fun h => ⟨hsite.1, hsite.2, hlength, h⟩, fun h => h.parameters⟩
      · intro hok
        obtain ⟨hcount, -, hvalues⟩ := hfilled hok
        refine ⟨by omega, ?_⟩
        intro i binding hbinding
        obtain ⟨word, hword, hprovides⟩ := hvalues i binding hbinding
        have htype := (hstatus.mp hok i binding hbinding).1
        rw [Nat.zero_add] at hword htype
        exact ⟨htype, word, hword, hprovides⟩

/-- **Reconstruction and marshalling are exact.** `reconstruct` fails exactly when the site is
unknown, the context has recorded no runtime exit there, arguments are announced without storage,
memory runs out, or a designated source is unavailable; otherwise each slot has the value that its
source designates. `marshal` succeeds exactly when the frame is the one of this entry and every
parameter matches, has then each parameter's value from its slot, and never leaves its array. -/
theorem reconstruction_and_marshalling_exact :
    (∀ (table : DeoptimizationTable) (arguments : ArgumentStorage) (context : ExecutionContext)
        (captured : Nat → Word) (site : Nat) (allocates : Bool),
      ((∃ status, table.reconstruct arguments context captured site allocates = .error status) ↔
        (∀ record ∈ table.records, record.site ≠ site) ∨
        ¬ (context.exitReason = .runtime ∧ context.exitSite = site) ∨
        (arguments.count ≠ 0 ∧ arguments.isNull = true) ∨ allocates = false ∨
        ∃ record ∈ table.records, record.site = site ∧ ∃ operation ∈ record.recovery,
          designated arguments context captured operation = none) ∧
      ∀ frame, table.reconstruct arguments context captured site allocates = .ok frame →
        ∃ record ∈ table.records, record.site = site ∧ some frame.reason = record.reason ∧
          frame.site = site ∧ frame.resumeOffset = record.resumeOffset ∧
          frame.values.map (·.slot) = record.recovery.map (·.slot) ∧
          ∀ operation ∈ record.recovery, ∃ value,
            designated arguments context captured operation = some value ∧
              frame.find operation.slot = some ⟨operation.slot, operation.type, value⟩) ∧
    ∀ (plan : OsrEntryPlan) (frame : OsrFrame) (parameterTypes : List ValueType),
      ∃ arguments, plan.marshal frame parameterTypes = some arguments ∧
        (arguments.status = .ok () ↔ plan.Matches frame parameterTypes) ∧
        (arguments.status = .ok () → arguments.count = parameterTypes.length ∧
          ∀ (i : Nat) (binding : OsrBinding), plan.bindings[i]? = some binding →
            parameterTypes[i]? = some binding.type ∧
            ∃ word, arguments.values[i]? = some word ∧ frame.Provides binding word) := by
  refine ⟨?_, OsrEntryPlan.marshal_spec⟩
  intro table arguments context captured site allocates
  refine ⟨?_, fun frame => DeoptimizationTable.reconstruct_exact⟩
  have hfails : (∃ status,
        table.reconstruct arguments context captured site allocates = .error status) ↔
      ¬ ∃ frame, table.reconstruct arguments context captured site allocates = .ok frame := by
    cases table.reconstruct arguments context captured site allocates <;> simp
  rw [hfails, DeoptimizationTable.reconstruct_succeeds]
  constructor
  · intro hnot
    by_contra hnone
    simp only [not_or, not_not] at hnone
    obtain ⟨hknown, hexit, hstorage, hmemory, havailable⟩ := hnone
    simp only [not_exists, not_and] at havailable
    obtain ⟨record, hmem, hsite⟩ : ∃ record ∈ table.records, record.site = site := by
      simpa using hknown
    apply hnot
    refine ⟨record, hmem, hsite, hexit, hstorage, by simpa using hmemory, ?_⟩
    intro operation hoperation
    exact Option.isSome_iff_ne_none.mpr (havailable record hmem hsite operation hoperation)
  · rintro hreason ⟨record, hmem, hsite, hexit, hstorage, hmemory, havailable⟩
    rcases hreason with hunknown | hother | hnull | hexhausted | ⟨other, hmem', hsite', hrest⟩
    · exact hunknown record hmem hsite
    · exact hother hexit
    · exact hstorage hnull
    · rw [hmemory] at hexhausted
      cases hexhausted
    · obtain rfl : record = other :=
        List.inj_on_of_nodup_map table.sites_nodup hmem hmem' (hsite.trans hsite'.symm)
      obtain ⟨operation, hoperation, hnone⟩ := hrest
      have := havailable operation hoperation
      rw [hnone] at this
      cases this

/-- A table with one record, which fills one slot with a constant. -/
def constantTable : DeoptimizationTable where
  records := [{ site := 3, resumeOffset := 8, recovery := [.constantValue 0 .word 5] }]
  wellFormed := by
    intro record hrecord
    obtain rfl := List.mem_singleton.mp hrecord
    exact ⟨by simp, by decide, by decide⟩

/-- `reconstruct` also fails where it needs no argument but a count without storage is passed, and
where memory runs out; `marshal` also rejects a frame of another entry that has every slot. -/
theorem rejected_beyond_sources :
    (∃ status, constantTable.reconstruct (.null 1) { exitReason := .runtime, exitSite := 3 }
      (fun _ => 0) 3 true = .error status) ∧
    (∃ status, constantTable.reconstruct (.words []) { exitReason := .runtime, exitSite := 3 }
      (fun _ => 0) 3 false = .error status) ∧
    (∀ record ∈ constantTable.records, record.site = 3 ∧ ∀ operation ∈ record.recovery,
      ∀ arguments context captured, designated arguments context captured operation = some 5) ∧
    MatchesFrom ⟨2, 0, [⟨0, .word, 7⟩], by decide, by decide, by decide⟩ [.word] 0
      [⟨0, .word⟩] ∧
    ∀ arguments, (⟨1, 0, [⟨0, .word⟩], by decide, by decide, by decide⟩ : OsrEntryPlan).marshal
      ⟨2, 0, [⟨0, .word, 7⟩], by decide, by decide, by decide⟩ [.word] = some arguments →
        arguments.status ≠ .ok () := by
  refine ⟨⟨_, rfl⟩, ⟨_, rfl⟩, ?_, ?_, ?_⟩
  · intro record hrecord
    obtain rfl := List.mem_singleton.mp hrecord
    refine ⟨rfl, ?_⟩
    intro operation hoperation arguments context captured
    obtain rfl := List.mem_singleton.mp hoperation
    rfl
  · rintro (_ | i) binding hbinding
    · obtain rfl : (⟨0, .word⟩ : OsrBinding) = binding := by simpa using hbinding
      exact ⟨rfl, 7, _, List.mem_singleton_self _, rfl, rfl, rfl⟩
    · simp at hbinding
  · intro arguments hmarshal hok
    obtain rfl := Option.some.inj hmarshal
    cases hok

end UniJit.Runtime
