import UniJit.Lib.CallTrace
import UniJit.Lib.Checked
import UniJit.Ir.Function

/-!
# Object materialization

After an exit, the primitive slots of the interpreter frame are known. A materialization plan says
which objects have to be made as well: a recipe for each, whose fields are recovered slots,
constants, or other objects of the plan. `materializeFrame` checks the plan against the frame and
then drives a transaction through the frontend's callbacks: begin, allocate every object, store
their fields, store the frame slots, commit. If any callback fails the transaction is rolled back.

The callbacks are functions on a state that only the frontend knows; a callback that is null is
`none`. The allocations that `materializeFrame` makes itself all come before `begin`, and their
failure is not modelled.
-/

namespace UniJit.Runtime

open UniJit.Ir UniJit.Lib

/-- A handle that the host gave out for an object. -/
abbrev ObjectHandle := BitVec 64

/-- Why a frame is reconstructed. -/
inductive DeoptimizationReason
  | guardFailed | divisionByZero | typeMismatch | assumptionInvalidated
  deriving DecidableEq, Repr

/-! ## Frames and plans -/

/-- A slot of a reconstructed frame. -/
structure RecoveredValue where
  slot : Nat := 0
  type : ValueType := .word
  value : Word := 0
  deriving DecidableEq, Repr

/-- The interpreter's frame at an exit. -/
structure ReconstructedFrame where
  reason : DeoptimizationReason := .guardFailed
  site : Nat := 0
  resumeOffset : Nat := 0
  values : List RecoveredValue := []
  deriving DecidableEq, Repr

/-- The value of a slot. -/
def ReconstructedFrame.find (frame : ReconstructedFrame) (slot : Nat) : Option RecoveredValue :=
  frame.values.find? (·.slot = slot)

/-- Where a field's value comes from. -/
inductive MaterializationSource
  | recoveredSlot | constant | object
  deriving DecidableEq, Repr

/-- What a field of an object holds. The source is `none` for a byte that names none. -/
structure MaterializationInput where
  source : Option MaterializationSource := some .constant
  type : ValueType := .word
  recoveredSlot : Nat := 0
  constant : Word := 0
  objectId : Nat := 0
  deriving DecidableEq, Repr

/-- How an object is made and which slot receives it. -/
structure ObjectRecipe where
  id : Nat := 0
  destinationSlot : Nat := 0
  kind : BitVec 64 := 0
  fields : List MaterializationInput := []
  deriving DecidableEq, Repr

/-- The objects to be made at an exit. -/
structure MaterializationPlan where
  site : Nat
  resumeOffset : Nat
  recipes : List ObjectRecipe := []
  deriving DecidableEq, Repr

/-- The most fields that the objects of a plan may have together. -/
def maximumFields : Nat := 256 * 1024

/-- The types a field may have. -/
def validValueType (type : ValueType) : Bool := type = .word ∨ type = .float64

/-- A field has a source, and a scalar type unless it is an object. -/
def MaterializationInput.wellFormed (input : MaterializationInput) : Bool :=
  input.source ≠ none ∧ (input.source ≠ some .object → validValueType input.type)

/-- The fields of a recipe, checked one after the other. -/
def checkFields (fields : List MaterializationInput) : Except Status Unit :=
  fields.zipIdx.forM fun (input, index) =>
    require input.wellFormed
      ⟨.invalidArgument, "object materialization field is malformed", index⟩

/-- What the loop over the recipes has seen: the ids, the destination slots, and the number of
fields. -/
structure PlanScan where
  ids : List Nat := []
  destinations : List Nat := []
  fields : Nat := 0

namespace MaterializationPlan

/-- One recipe of the validation. -/
def scanRecipe (recipe : ObjectRecipe) (scan : PlanScan) : Except Status PlanScan := do
  require (recipe.id ∉ scan.ids)
    ⟨.invalidArgument, "object materialization recipe id is duplicated", recipe.id⟩
  require (recipe.destinationSlot ∉ scan.destinations)
    ⟨.invalidArgument, "object materialization destination slot is duplicated",
      recipe.destinationSlot⟩
  require (recipe.fields.length ≤ maximumFields ∧
      scan.fields ≤ maximumFields - recipe.fields.length)
    ⟨.resourceExhausted, "object materialization plan exceeds the field limit", recipe.id⟩
  checkFields recipe.fields
  pure
    { ids := recipe.id :: scan.ids
      destinations := recipe.destinationSlot :: scan.destinations
      fields := scan.fields + recipe.fields.length }

/-- Checks the recipes of a plan. -/
def validate (plan : MaterializationPlan) : Except Status Unit := do
  let scan ← foldExcept (fun _ => scanRecipe) 0 plan.recipes {}
  plan.recipes.forM fun recipe =>
    recipe.fields.forM fun input =>
      require (input.source = some .object → input.objectId ∈ scan.ids)
        ⟨.invalidArgument, "object materialization references an unknown object",
          input.objectId⟩

end MaterializationPlan

/-! ## Callbacks -/

/-- The host's functions, any of which may be missing. -/
structure MaterializationCallbacks (σ : Type) where
  begin : Option (DeoptimizationReason → Nat → Nat → Nat → Nat → σ → Except Status Unit × σ) := none
  /-- The answer carries the handle that the callback wrote, or the zero that was there. -/
  allocate : Option (Nat → BitVec 64 → Nat → σ → Except Status ObjectHandle × σ) := none
  storePrimitive : Option (ObjectHandle → Nat → ValueType → Word → σ → Except Status Unit × σ) :=
    none
  storeObject : Option (ObjectHandle → Nat → ObjectHandle → σ → Except Status Unit × σ) := none
  storeFramePrimitive : Option (Nat → ValueType → Word → σ → Except Status Unit × σ) := none
  storeFrameObject : Option (Nat → ObjectHandle → σ → Except Status Unit × σ) := none
  commit : Option (σ → Except Status Unit × σ) := none
  rollback : Option (σ → σ) := none

/-- A complete set of callbacks. -/
structure CompleteCallbacks (σ : Type) where
  begin : DeoptimizationReason → Nat → Nat → Nat → Nat → σ → Except Status Unit × σ
  allocate : Nat → BitVec 64 → Nat → σ → Except Status ObjectHandle × σ
  storePrimitive : ObjectHandle → Nat → ValueType → Word → σ → Except Status Unit × σ
  storeObject : ObjectHandle → Nat → ObjectHandle → σ → Except Status Unit × σ
  storeFramePrimitive : Nat → ValueType → Word → σ → Except Status Unit × σ
  storeFrameObject : Nat → ObjectHandle → σ → Except Status Unit × σ
  commit : σ → Except Status Unit × σ
  rollback : σ → σ

/-- Refuses when a function is missing. -/
def validateCallbacks {σ : Type} (callbacks : MaterializationCallbacks σ) :
    Except Status (CompleteCallbacks σ) :=
  match callbacks with
  | ⟨some begin, some allocate, some storePrimitive, some storeObject, some storeFramePrimitive,
      some storeFrameObject, some commit, some rollback⟩ =>
      .ok ⟨begin, allocate, storePrimitive, storeObject, storeFramePrimitive, storeFrameObject,
        commit, rollback⟩
  | _ => .error ⟨.invalidArgument, "object materialization callbacks are incomplete", 0⟩

/-- A call of a callback, with its arguments. -/
inductive MaterializationCall
  | begin (reason : DeoptimizationReason) (site resumeOffset objectCount frameValueCount : Nat)
  | allocate (objectId : Nat) (kind : BitVec 64) (fieldCount : Nat)
  | storePrimitive (object : ObjectHandle) (fieldIndex : Nat) (type : ValueType) (value : Word)
  | storeObject (object : ObjectHandle) (fieldIndex : Nat) (value : ObjectHandle)
  | storeFramePrimitive (slot : Nat) (type : ValueType) (value : Word)
  | storeFrameObject (slot : Nat) (value : ObjectHandle)
  | commit
  | rollback
  deriving DecidableEq, Repr

/-- The answer of a callback that reports a status only: no handle, which is zero. -/
def statusOnly {σ : Type} (answer : Except Status Unit × σ) : Except Status ObjectHandle × σ :=
  (answer.1.map fun () => 0, answer.2)

/-- Call the callback that a call names. -/
def CompleteCallbacks.perform {σ : Type} (callbacks : CompleteCallbacks σ) :
    MaterializationCall → σ → Except Status ObjectHandle × σ
  | .begin reason site resumeOffset objects values, s =>
      statusOnly (callbacks.begin reason site resumeOffset objects values s)
  | .allocate id kind fields, s => callbacks.allocate id kind fields s
  | .storePrimitive object field type value, s =>
      statusOnly (callbacks.storePrimitive object field type value s)
  | .storeObject object field value, s => statusOnly (callbacks.storeObject object field value s)
  | .storeFramePrimitive slot type value, s =>
      statusOnly (callbacks.storeFramePrimitive slot type value s)
  | .storeFrameObject slot value, s => statusOnly (callbacks.storeFrameObject slot value s)
  | .commit, s => statusOnly (callbacks.commit s)
  | .rollback, s => (.ok 0, callbacks.rollback s)

/-! ## Frames with objects -/

/-- The kinds of values in a materialized frame. -/
inductive MaterializedValueKind
  | word | float64 | object
  deriving DecidableEq, Repr

/-- A slot of a materialized frame. -/
structure MaterializedValue where
  slot : Nat := 0
  kind : MaterializedValueKind := .word
  value : Word := 0
  object : ObjectHandle := 0
  deriving DecidableEq, Repr

/-- The frame with its objects. -/
structure MaterializedFrame where
  reason : DeoptimizationReason := .guardFailed
  site : Nat := 0
  resumeOffset : Nat := 0
  values : List MaterializedValue := []
  deriving DecidableEq, Repr

/-- The slot of a recovered primitive. -/
def primitiveValue (value : RecoveredValue) : MaterializedValue :=
  { slot := value.slot, kind := if value.type = .float64 then .float64 else .word
    value := value.value }

/-- The slot of a new object. -/
def objectValue (recipe : ObjectRecipe) (handle : ObjectHandle) : MaterializedValue :=
  { slot := recipe.destinationSlot, kind := .object, object := handle }

/-- The slots of the whole frame, once the objects have handles. -/
def frameValues (frame : ReconstructedFrame) (plan : MaterializationPlan)
    (handles : List ObjectHandle) : List MaterializedValue :=
  frame.values.map primitiveValue ++ List.zipWith objectValue plan.recipes handles

/-! ## The checks before the transaction -/

/-- The slots of the frame must be scalars, each slot once. -/
def checkFrameSlots (frame : ReconstructedFrame) : Except Status (List Nat) :=
  foldExcept (fun _ value slots => do
    require (validValueType value.type ∧ value.slot ∉ slots)
      ⟨.invalidArgument, "reconstructed frame has malformed primitive slots", value.slot⟩
    pure (value.slot :: slots)) 0 frame.values []

/-- The destinations must be free, and the recovered fields available with their types. -/
def checkRecipes (frame : ReconstructedFrame) (plan : MaterializationPlan) (slots : List Nat) :
    Except Status (List Nat) :=
  foldExcept (fun _ recipe slots => do
    require (recipe.destinationSlot ∉ slots)
      ⟨.invalidArgument, "object destination conflicts with a reconstructed slot",
        recipe.destinationSlot⟩
    recipe.fields.forM fun input =>
      require (input.source = some .recoveredSlot →
          (frame.find input.recoveredSlot).map (·.type) = some input.type)
        ⟨.invalidArgument, "object field references an unavailable recovered slot",
          input.recoveredSlot⟩
    pure (recipe.destinationSlot :: slots)) 0 plan.recipes slots

/-- Everything that is checked before the first callback. -/
def checkMaterialization {σ : Type} (frame : ReconstructedFrame) (plan : MaterializationPlan)
    (callbacks : MaterializationCallbacks σ) : Except Status (CompleteCallbacks σ) := do
  require (plan.site = frame.site ∧ plan.resumeOffset = frame.resumeOffset)
    ⟨.invalidArgument, "object materialization plan does not match the reconstructed frame",
      frame.site⟩
  plan.validate
  let complete ← validateCallbacks callbacks
  let slots ← checkFrameSlots frame
  let _ ← checkRecipes frame plan slots
  pure complete

/-! ## The transaction -/

/-- The handle of the object with an id. -/
def handleOf (plan : MaterializationPlan) (handles : List ObjectHandle) (id : Nat) :
    ObjectHandle :=
  handles.getD (plan.recipes.findIdx (·.id = id)) 0

/-- The call that stores a field. -/
def fieldCall (frame : ReconstructedFrame) (plan : MaterializationPlan)
    (handles : List ObjectHandle) (object : ObjectHandle) (input : MaterializationInput)
    (index : Nat) : MaterializationCall :=
  if input.source = some .object then
    .storeObject object index (handleOf plan handles input.objectId)
  else
    .storePrimitive object index input.type
      (if input.source = some .constant then input.constant
        else ((frame.find input.recoveredSlot).map (·.value)).getD 0)

/-- The call that stores a slot of the frame. -/
def slotCall (value : MaterializedValue) : MaterializationCall :=
  if value.kind = .object then .storeFrameObject value.slot value.object
  else
    .storeFramePrimitive value.slot (if value.kind = .float64 then .float64 else .word) value.value

/-- The call that allocates an object. -/
def allocationCall (recipe : ObjectRecipe) : MaterializationCall :=
  .allocate recipe.id recipe.kind recipe.fields.length

/-- The call that begins a transaction. -/
def beginCall (frame : ReconstructedFrame) (plan : MaterializationPlan) : MaterializationCall :=
  .begin frame.reason frame.site frame.resumeOffset plan.recipes.length
    (frame.values.length + plan.recipes.length)

section transaction

variable {σ : Type} (callbacks : CompleteCallbacks σ) (frame : ReconstructedFrame)
  (plan : MaterializationPlan)

/-- A call that is made for its status. -/
def request (c : MaterializationCall) : Calls MaterializationCall ObjectHandle Status σ Unit := do
  let _ ← call callbacks.perform c

/-- From `begin` to `commit`. -/
def transaction : Calls MaterializationCall ObjectHandle Status σ MaterializedFrame := do
  request callbacks (beginCall frame plan)
  let handles ← collect callbacks.perform allocationCall plan.recipes
  (plan.recipes.zip handles).forM fun (recipe, object) =>
    recipe.fields.zipIdx.forM fun (input, index) =>
      request callbacks (fieldCall frame plan handles object input index)
  let values := frameValues frame plan handles
  values.forM fun value => request callbacks (slotCall value)
  request callbacks .commit
  pure
    { reason := frame.reason, site := frame.site, resumeOffset := frame.resumeOffset
      values := values }

/-- Call `rollback`. -/
def rollBack (s : Stage MaterializationCall ObjectHandle Status σ) :
    Stage MaterializationCall ObjectHandle Status σ :=
  { state := callbacks.rollback s.state, log := s.log ++ [(.rollback, .ok 0)] }

end transaction

/-- Materialize a frame: the result, and the frontend's state with the calls that were made. -/
def materializeFrame {σ : Type} (frame : ReconstructedFrame) (plan : MaterializationPlan)
    (callbacks : MaterializationCallbacks σ) (state : σ) :
    Except Status MaterializedFrame × Stage MaterializationCall ObjectHandle Status σ :=
  match checkMaterialization frame plan callbacks with
  | .error status => (.error status, { state := state })
  | .ok complete =>
      match transaction complete frame plan { state := state } with
      | .ok output s => (.ok output, s)
      | .error status s => (.error status, rollBack complete s)

/-! ## The trace of a transaction -/

/-- The calls that store the fields of the objects. -/
def fieldCalls (frame : ReconstructedFrame) (plan : MaterializationPlan)
    (handles : List ObjectHandle) : List MaterializationCall :=
  (plan.recipes.zip handles).flatMap fun (recipe, object) =>
    recipe.fields.zipIdx.map fun (input, index) =>
      fieldCall frame plan handles object input index

/-- The calls of a complete transaction, with their answers: the handles for the allocations, and
zero for the others. -/
def fullTrace (frame : ReconstructedFrame) (plan : MaterializationPlan)
    (handles : List ObjectHandle) : List (MaterializationCall × ObjectHandle) :=
  [(beginCall frame plan, 0)] ++
  (plan.recipes.map allocationCall).zip handles ++
  (fieldCalls frame plan handles).map (·, 0) ++
  ((frameValues frame plan handles).map slotCall).map (·, 0) ++
  [(.commit, 0)]

/-- The calls that store the slots of the frame, in the terms of the frame and the recipes: every
recovered slot with its type and value, and then for every recipe its object. -/
def slotCalls (frame : ReconstructedFrame) (plan : MaterializationPlan)
    (handles : List ObjectHandle) : List MaterializationCall :=
  (frame.values.map fun value => .storeFramePrimitive value.slot value.type value.value) ++
    List.zipWith (fun recipe handle => .storeFrameObject recipe.destinationSlot handle)
      plan.recipes handles

/-- The frame that the objects complete. -/
def materializedFrame (frame : ReconstructedFrame) (plan : MaterializationPlan)
    (handles : List ObjectHandle) : MaterializedFrame :=
  { reason := frame.reason, site := frame.site, resumeOffset := frame.resumeOffset
    values := frameValues frame plan handles }

/-- The slots of a frame that was let through are scalars. -/
lemma validValueType_of_checkFrameSlots {frame : ReconstructedFrame} {slots : List Nat}
    (h : checkFrameSlots frame = .ok slots) :
    ∀ value ∈ frame.values, validValueType value.type = true := by
  intro value hvalue
  obtain ⟨j, hj⟩ := List.getElem?_of_mem hvalue
  obtain ⟨seen, seen', hstep⟩ := foldExcept_at h hj
  rw [require_bind_eq_ok] at hstep
  exact hstep.1.1

/-- A frame that was let through is stored slot by slot, each with its type. -/
lemma slotCalls_of_checkMaterialization {σ : Type} {frame : ReconstructedFrame}
    {plan : MaterializationPlan} {callbacks : MaterializationCallbacks σ}
    {complete : CompleteCallbacks σ} (handles : List ObjectHandle)
    (h : checkMaterialization frame plan callbacks = .ok complete) :
    (frameValues frame plan handles).map slotCall = slotCalls frame plan handles := by
  have hslots : ∃ slots, checkFrameSlots frame = .ok slots := by
    unfold checkMaterialization at h
    rw [require_bind_eq_ok] at h
    simp only [bind_eq_ok] at h
    obtain ⟨-, _, -, _, -, slots, hslots, -⟩ := h
    exact ⟨slots, hslots⟩
  obtain ⟨slots, hslots⟩ := hslots
  have hvalid := validValueType_of_checkFrameSlots hslots
  rw [frameValues, slotCalls, List.map_append, List.map_map, List.map_zipWith]
  congr 1
  apply List.map_congr_left
  intro value hvalue
  have htype : value.type = .word ∨ value.type = .float64 := by
    simpa [validValueType] using hvalid value hvalue
  rcases htype with hword | hfloat
  · simp [slotCall, primitiveValue, hword]
  · simp [slotCall, primitiveValue, hfloat]

section

variable {σ : Type} (callbacks : CompleteCallbacks σ) (frame : ReconstructedFrame)
  (plan : MaterializationPlan)

/-- Only an allocation is answered with a handle. -/
def yieldsHandle : MaterializationCall → Bool
  | .allocate _ _ _ => true
  | _ => false

/-- A request that yields no handle is one call with no result. -/
lemma follows_request {c : MaterializationCall} (hc : yieldsHandle c = false) :
    Follows callbacks.perform (request callbacks c) fun trace _ => trace = [(c, 0)] := by
  have hanswer : ∀ s r, (callbacks.perform c s).1 = .ok r → r = 0 := by
    intro s r h
    have hstatus : ∀ answer : Except Status Unit × σ, (statusOnly answer).1 = .ok r → r = 0 := by
      rintro ⟨answer, t⟩ h
      cases answer with
      | ok u => simpa [statusOnly, Except.map] using h.symm
      | error e => simp [statusOnly, Except.map] at h
    cases c with
    | allocate => simp [yieldsHandle] at hc
    | rollback => simpa [CompleteCallbacks.perform] using h.symm
    | _ => exact hstatus _ h
  apply (Follows.bind (Follows.call_of_answer hanswer) (fun _ => Follows.pure ())
    fun _ => ⟨[], (), rfl, rfl⟩).mono
  rintro trace _ ⟨_, before, after, rfl, ⟨rfl, -⟩, rfl⟩
  simp

/-- A loop of calls that are made for their status. -/
lemma follows_requests {α : Type} {c : α → MaterializationCall}
    (hc : ∀ a, yieldsHandle (c a) = false) (as : List α) :
    Follows callbacks.perform (as.forM fun a => request callbacks (c a)) fun trace _ =>
      trace = (as.map c).map (·, 0) := by
  apply (Follows.forM fun a _ => follows_request callbacks (hc a)).mono
  rintro trace _ rfl
  rw [List.map_map, List.map_eq_flatMap]
  rfl

/-- Storing a field yields no handle. -/
lemma yieldsHandle_fieldCall (handles : List ObjectHandle) (object : ObjectHandle)
    (input : MaterializationInput) (index : Nat) :
    yieldsHandle (fieldCall frame plan handles object input index) = false := by
  unfold fieldCall
  split <;> rfl

/-- Storing a slot yields no handle. -/
lemma yieldsHandle_slotCall (value : MaterializedValue) :
    yieldsHandle (slotCall value) = false := by
  unfold slotCall
  split <;> rfl

/-- Storing the fields follows the recipes. -/
lemma follows_fields (handles : List ObjectHandle) :
    Follows callbacks.perform
      ((plan.recipes.zip handles).forM fun (recipe, object) =>
        recipe.fields.zipIdx.forM fun (input, index) =>
          request callbacks (fieldCall frame plan handles object input index))
      fun trace _ => trace = (fieldCalls frame plan handles).map (·, 0) := by
  have hbody : ∀ entry ∈ plan.recipes.zip handles, Follows callbacks.perform
      (entry.1.fields.zipIdx.forM fun (input, index) =>
        request callbacks (fieldCall frame plan handles entry.2 input index)) fun trace _ =>
      trace = (entry.1.fields.zipIdx.map fun (input, index) =>
        fieldCall frame plan handles entry.2 input index).map (·, 0) := by
    intro entry _
    apply follows_requests callbacks
    intro field
    exact yieldsHandle_fieldCall frame plan handles entry.2 field.1 field.2
  apply (Follows.forM hbody).mono
  rintro trace _ rfl
  rw [fieldCalls, List.map_flatMap]

/-- A transaction makes the calls of a full trace, in that order. -/
lemma follows_transaction :
    Follows callbacks.perform (transaction callbacks frame plan) fun trace output =>
      ∃ handles, handles.length = plan.recipes.length ∧ trace = fullTrace frame plan handles ∧
        output = materializedFrame frame plan handles := by
  -- from the last call backwards
  have hcommit : ∀ handles, Follows callbacks.perform
      (do
        request callbacks .commit
        pure (materializedFrame frame plan handles)) fun trace output =>
      trace = [(.commit, 0)] ∧ output = materializedFrame frame plan handles := by
    intro handles
    apply ((follows_request callbacks rfl).bind (fun _ => Follows.pure _)
      fun _ => ⟨[], _, rfl, rfl⟩).mono
    rintro trace output ⟨_, before, after, rfl, ⟨rfl, rfl⟩, rfl⟩
    exact ⟨rfl, rfl⟩
  have hslots : ∀ handles, Follows callbacks.perform
      (do
        (frameValues frame plan handles).forM fun value => request callbacks (slotCall value)
        request callbacks .commit
        pure (materializedFrame frame plan handles)) fun trace output =>
      trace = ((frameValues frame plan handles).map slotCall).map (·, 0) ++ [(.commit, 0)] ∧
        output = materializedFrame frame plan handles := by
    intro handles
    apply ((follows_requests callbacks yieldsHandle_slotCall _).bind (fun _ => hcommit handles)
      fun _ => ⟨_, _, rfl, rfl⟩).mono
    rintro trace output ⟨_, before, after, rfl, ⟨rfl, rfl⟩, rfl⟩
    exact ⟨rfl, rfl⟩
  have hfields : ∀ handles, Follows callbacks.perform
      (do
        (plan.recipes.zip handles).forM fun (recipe, object) =>
          recipe.fields.zipIdx.forM fun (input, index) =>
            request callbacks (fieldCall frame plan handles object input index)
        (frameValues frame plan handles).forM fun value => request callbacks (slotCall value)
        request callbacks .commit
        pure (materializedFrame frame plan handles)) fun trace output =>
      trace = (fieldCalls frame plan handles).map (·, 0) ++
          (((frameValues frame plan handles).map slotCall).map (·, 0) ++ [(.commit, 0)]) ∧
        output = materializedFrame frame plan handles := by
    intro handles
    apply ((follows_fields callbacks frame plan handles).bind (fun _ => hslots handles)
      fun _ => ⟨_, _, rfl, rfl⟩).mono
    rintro trace output ⟨_, before, after, rfl, ⟨rfl, rfl⟩, rfl⟩
    exact ⟨rfl, rfl⟩
  have hallocations := (Follows.collect callbacks.perform allocationCall plan.recipes).bind
    hfields fun _ => ⟨_, _, rfl, rfl⟩
  have hbegin : yieldsHandle (beginCall frame plan) = false := rfl
  apply ((follows_request callbacks hbegin).bind (fun _ => hallocations) fun _ =>
    ⟨_, _, List.replicate plan.recipes.length 0, _, _, ⟨by simp, rfl⟩, ⟨rfl, rfl⟩, rfl⟩).mono
  rintro trace output ⟨_, _, _, rfl, ⟨handles, _, _, ⟨hlength, rfl⟩, ⟨rfl, rfl⟩, rfl⟩, rfl⟩
  refine ⟨handles, hlength, ?_, rfl⟩
  simp only [fullTrace, List.append_assoc]

/-- **Materialization is a transaction.** If the checks fail, no callback is called. Otherwise the
calls follow a full trace: either all of it, every call succeeds, and the frame is returned; or up
to the first call that fails, after which `rollback` is called once and its status returned. In
both cases the answers are those of the callbacks. A full trace stores every recovered slot with its
type and then the object of every recipe. -/
theorem materialize_transactional {σ : Type} (frame : ReconstructedFrame)
    (plan : MaterializationPlan) (callbacks : MaterializationCallbacks σ) (state : σ) :
    match checkMaterialization frame plan callbacks with
    | .error status =>
        materializeFrame frame plan callbacks state = (.error status, { state := state, log := [] })
    | .ok complete =>
        ∃ handles s, handles.length = plan.recipes.length ∧
          (frameValues frame plan handles).map slotCall = slotCalls frame plan handles ∧
          Answered complete.perform state s.log s.state ∧
          ((∃ output, (materializeFrame frame plan callbacks state).1 = .ok output) ↔
            ∀ entry ∈ s.log, ∃ r, entry.2 = .ok r) ∧
          ((materializeFrame frame plan callbacks state =
                (.ok (materializedFrame frame plan handles), s) ∧
              s.log = successes (fullTrace frame plan handles)) ∨
            ∃ status before c r after,
              fullTrace frame plan handles = before ++ (c, r) :: after ∧
              materializeFrame frame plan callbacks state = (.error status, s) ∧
              s.log = successes before ++ [(c, .error status), (.rollback, .ok 0)]) := by
  cases hcheck : checkMaterialization frame plan callbacks with
  | error status => simp only [materializeFrame, hcheck]
  | ok complete =>
      have hfollows := follows_transaction complete frame plan { state := state }
      cases hrun : transaction complete frame plan { state := state } with
      | ok output s =>
          have heq : materializeFrame frame plan callbacks state = (.ok output, s) := by
            simp only [materializeFrame, hcheck, hrun]
          rw [hrun] at hfollows
          obtain ⟨trace, ⟨handles, hlength, rfl, rfl⟩, hlog, hanswered⟩ := hfollows
          simp only [List.nil_append] at hlog
          rw [← hlog] at hanswered
          refine ⟨handles, s, hlength, slotCalls_of_checkMaterialization handles hcheck, hanswered,
            ?_, .inl ⟨heq, hlog⟩⟩
          rw [heq, hlog]
          refine ⟨fun _ entry hentry => ?_, fun _ => ⟨_, rfl⟩⟩
          obtain ⟨⟨c, r⟩, -, rfl⟩ := List.mem_map.mp hentry
          exact ⟨r, rfl⟩
      | error status s =>
          have heq : materializeFrame frame plan callbacks state =
              (.error status, rollBack complete s) := by
            simp only [materializeFrame, hcheck, hrun]
          rw [hrun] at hfollows
          obtain ⟨before, c, r, after, output, ⟨handles, hlength, htrace, -⟩, hlog, hanswered⟩ :=
            hfollows
          simp only [List.nil_append] at hlog
          rw [← hlog] at hanswered
          have hrollback : Answered complete.perform s.state [(.rollback, .ok 0)]
              (complete.rollback s.state) := ⟨rfl, rfl⟩
          have hlog' : (rollBack complete s).log =
              successes before ++ [(c, .error status), (.rollback, .ok 0)] := by
            simp [rollBack, hlog]
          refine ⟨handles, rollBack complete s, hlength,
            slotCalls_of_checkMaterialization handles hcheck, hanswered.append hrollback, ?_, .inr
            ⟨status, before, c, r, after, htrace.symm, heq, hlog'⟩⟩
          rw [heq, hlog']
          constructor
          · rintro ⟨output, houtput⟩
            cases houtput
          · intro hall
            obtain ⟨r, hr⟩ := hall (c, .error status) (by simp)
            cases hr

/-- A frame with one recovered slot, and a plan for one object that refers to itself. -/
def sampleFrame : ReconstructedFrame :=
  { site := 3, resumeOffset := 8, values := [{ slot := 0, value := 5 }] }

/-- A plan with two objects. -/
def samplePlan : MaterializationPlan :=
  { site := 3, resumeOffset := 8
    recipes := [
      { id := 1, destinationSlot := 1, fields := [{ source := some .object, objectId := 1 }] }] }

/-- Callbacks that count, and fail at the call with a given number. -/
def sampleCallbacks (failing : Nat) : MaterializationCallbacks Nat :=
  let answer (n : Nat) : Except Status Unit :=
    if n = failing then .error ⟨.resourceExhausted, "out of cells", 0⟩ else .ok ()
  { begin := some fun _ _ _ _ _ n => (answer n, n + 1)
    allocate := some fun _ _ _ n => ((answer n).map fun () => 77, n + 1)
    storePrimitive := some fun _ _ _ _ n => (answer n, n + 1)
    storeObject := some fun _ _ _ n => (answer n, n + 1)
    storeFramePrimitive := some fun _ _ _ n => (answer n, n + 1)
    storeFrameObject := some fun _ _ n => (answer n, n + 1)
    commit := some fun n => (answer n, n + 1)
    rollback := some fun n => n }

-- a transaction that goes through, and one that fails at the second slot
example : (materializeFrame sampleFrame samplePlan (sampleCallbacks 9) 0).2.log.map (·.1) =
    [.begin .guardFailed 3 8 1 2, .allocate 1 0 1, .storeObject 77 0 77,
      .storeFramePrimitive 0 .word 5, .storeFrameObject 1 77, .commit] := by
  decide

example : (materializeFrame sampleFrame samplePlan (sampleCallbacks 4) 0).2.log.map (·.1) =
    [.begin .guardFailed 3 8 1 2, .allocate 1 0 1, .storeObject 77 0 77,
      .storeFramePrimitive 0 .word 5, .storeFrameObject 1 77, .rollback] := by
  decide

end

end UniJit.Runtime
