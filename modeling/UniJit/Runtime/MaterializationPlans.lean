import UniJit.Lib.KeyedLists
import UniJit.Runtime.Materialization

/-!
# Well-formed materialization plans

A plan is built by `add`, recipe by recipe. A recipe may refer to objects that come later, or to
itself, so `add` cannot check references; it checks everything else, and rejects a recipe that
would break a limit or repeat an identity or a destination. `validate` checks the whole plan again,
without the number of objects, and the references as well. On the plans that `add` builds the two
agree: what is left for `validate` to find is a reference to no recipe of the plan.

When such a plan is materialized, the reference is stored as the handle that the allocation of the
recipe has returned (`Linked`), whichever way the references go.
-/

namespace UniJit.Runtime

open UniJit.Ir UniJit.Lib

/-- The most objects of a plan. -/
def maximumObjects : Nat := 4096

namespace MaterializationPlan

/-- One step of the loop that adds up the fields. No recipe of a plan has more fields than the
limit, so that the source's unsigned subtraction does not wrap (`Buildable.fields_le`). -/
def countFields (recipe existing : ObjectRecipe) (count : Nat) : Except Status Nat := do
  require (¬maximumFields - existing.fields.length < count)
    ⟨.resourceExhausted, "object materialization plan exceeds the field limit", recipe.id⟩
  pure (count + existing.fields.length)

/-- Add a recipe; `allocates` says whether the plan's storage can grow. -/
def add (plan : MaterializationPlan) (recipe : ObjectRecipe) (allocates : Bool) :
    Except Status MaterializationPlan := do
  require (plan.recipes.length ≠ maximumObjects)
    ⟨.resourceExhausted, "object materialization plan exceeds the object limit", recipe.id⟩
  require (∀ existing ∈ plan.recipes, existing.id ≠ recipe.id)
    ⟨.invalidArgument, "object materialization recipe id is duplicated", recipe.id⟩
  require (∀ existing ∈ plan.recipes, existing.destinationSlot ≠ recipe.destinationSlot)
    ⟨.invalidArgument, "object materialization destination slot is duplicated",
      recipe.destinationSlot⟩
  require (recipe.fields.length ≤ maximumFields)
    ⟨.resourceExhausted, "object materialization recipe exceeds the field limit", recipe.id⟩
  let _ ← foldExcept (fun _ => countFields recipe) 0 plan.recipes recipe.fields.length
  checkFields recipe.fields
  require (allocates = true)
    ⟨.resourceExhausted, "unable to allocate object materialization metadata", recipe.id⟩
  pure { plan with recipes := plan.recipes ++ [recipe] }

/-- The plan after a sequence of calls of `add`; one that fails leaves the plan as it is. -/
def addAll (plan : MaterializationPlan) (recipes : List (ObjectRecipe × Bool)) :
    MaterializationPlan :=
  recipes.foldl (fun plan (recipe, allocates) => (plan.add recipe allocates).toOption.getD plan)
    plan

end MaterializationPlan

/-! ## Limits, identities and references -/

/-- The fields of all recipes. -/
def totalFields (recipes : List ObjectRecipe) : Nat := (recipes.map (·.fields.length)).sum

/-- What a list of recipes satisfies whatever its references are. -/
structure Buildable (recipes : List ObjectRecipe) : Prop where
  objects : recipes.length ≤ maximumObjects
  fields : totalFields recipes ≤ maximumFields
  ids : (recipes.map (·.id)).Nodup
  destinations : (recipes.map (·.destinationSlot)).Nodup
  inputs : ∀ recipe ∈ recipes, ∀ input ∈ recipe.fields, input.wellFormed = true

/-- Every object that a field refers to has a recipe. -/
def Resolved (recipes : List ObjectRecipe) : Prop :=
  ∀ recipe ∈ recipes, ∀ input ∈ recipe.fields, input.source = some .object →
    ∃ target ∈ recipes, target.id = input.objectId

/-- Fields pass exactly when each is well formed. -/
lemma checkFields_eq_ok {fields : List MaterializationInput} {u : Unit} :
    checkFields fields = .ok u ↔ ∀ input ∈ fields, input.wellFormed = true := by
  simp only [checkFields, forM_eq_ok, require_eq_ok]
  constructor
  · intro h input hinput
    obtain ⟨index, hindex⟩ := List.getElem?_of_mem hinput
    exact h (input, index) (List.mem_zipIdx_iff_getElem?.mpr hindex)
  · rintro h ⟨input, index⟩ hentry
    exact h input (List.mem_of_getElem? (List.mem_zipIdx_iff_getElem?.mp hentry))

/-- No single recipe has more fields than all of them. -/
lemma Buildable.fields_le {recipes : List ObjectRecipe} (h : Buildable recipes)
    {recipe : ObjectRecipe} (hmem : recipe ∈ recipes) : recipe.fields.length ≤ maximumFields :=
  (List.single_le_sum (by simp) _ (List.mem_map_of_mem hmem)).trans h.fields

/-! ## Building -/

open MaterializationPlan

/-- Counting succeeds exactly within the limit on fields. -/
lemma countFields_eq_ok {recipe : ObjectRecipe} {recipes : List ObjectRecipe} {i count total : Nat}
    (hle : ∀ existing ∈ recipes, existing.fields.length ≤ maximumFields)
    (hcount : count ≤ maximumFields) :
    foldExcept (fun _ => countFields recipe) i recipes count = .ok total ↔
      count + totalFields recipes ≤ maximumFields ∧ total = count + totalFields recipes := by
  induction recipes generalizing i count with
  | nil => simp [totalFields, hcount, eq_comm]
  | cons existing recipes ih =>
      have hfirst := hle existing List.mem_cons_self
      have hrest : ∀ other ∈ recipes, other.fields.length ≤ maximumFields :=
        fun other hother => hle other (List.mem_cons_of_mem _ hother)
      rw [foldExcept_cons_eq_ok]
      simp only [countFields, require_bind_eq_ok, pure_eq_ok, totalFields, List.map_cons,
        List.sum_cons]
      constructor
      · rintro ⟨_, ⟨hfits, rfl⟩, htail⟩
        obtain ⟨hsum, rfl⟩ := (ih hrest (by omega)).mp htail
        unfold totalFields at hsum ⊢
        omega
      · rintro ⟨hsum, rfl⟩
        refine ⟨_, ⟨by omega, rfl⟩, (ih hrest (by omega)).mpr ?_⟩
        unfold totalFields
        omega

/-- **Step.** A recipe is added exactly when the longer plan is still within its limits, without
duplicates and well typed. -/
lemma add_eq_ok {plan plan' : MaterializationPlan} (hplan : Buildable plan.recipes)
    {recipe : ObjectRecipe} {allocates : Bool} :
    plan.add recipe allocates = .ok plan' ↔ allocates = true ∧
      Buildable (plan.recipes ++ [recipe]) ∧
      plan' = { plan with recipes := plan.recipes ++ [recipe] } := by
  have htotal : totalFields (plan.recipes ++ [recipe]) =
      recipe.fields.length + totalFields plan.recipes := by
    simp [totalFields, Nat.add_comm]
  have hobjects := hplan.objects
  unfold MaterializationPlan.add
  rw [require_bind_eq_ok, require_bind_eq_ok, require_bind_eq_ok, require_bind_eq_ok, bind_eq_ok]
  constructor
  · rintro ⟨hroom, hids, hdestinations, hfields, total, htotals, hrest⟩
    obtain ⟨hsum, -⟩ := (countFields_eq_ok (fun _ => hplan.fields_le) hfields).mp htotals
    rw [bind_eq_ok] at hrest
    obtain ⟨_, hinputs, hrest⟩ := hrest
    rw [require_bind_eq_ok, pure_eq_ok] at hrest
    obtain ⟨hallocates, hresult⟩ := hrest
    refine ⟨hallocates, ⟨?_, by omega, ?_, ?_, ?_⟩, hresult⟩
    · rw [List.length_append, List.length_singleton]
      omega
    · exact (nodup_map_concat hplan.ids recipe).mpr hids
    · exact (nodup_map_concat hplan.destinations recipe).mpr hdestinations
    · intro other hother
      rcases List.mem_append.mp hother with hold | hnew
      · exact hplan.inputs other hold
      · obtain rfl := List.mem_singleton.mp hnew
        exact checkFields_eq_ok.mp hinputs
  · rintro ⟨hallocates, hbuildable, hresult⟩
    have hlength := hbuildable.objects
    rw [List.length_append, List.length_singleton] at hlength
    have hsum := hbuildable.fields
    have hfields : recipe.fields.length ≤ maximumFields := by omega
    refine ⟨by omega, (nodup_map_concat hplan.ids recipe).mp hbuildable.ids,
      (nodup_map_concat hplan.destinations recipe).mp hbuildable.destinations, hfields, _,
      (countFields_eq_ok (fun _ => hplan.fields_le) hfields).mpr ⟨by omega, rfl⟩, ?_⟩
    rw [bind_eq_ok]
    refine ⟨(), checkFields_eq_ok.mpr (hbuildable.inputs recipe (by simp)), ?_⟩
    rw [require_bind_eq_ok, pure_eq_ok]
    exact ⟨hallocates, hresult⟩

/-- **Run.** Whatever is added, the plan stays within its limits and without duplicates. -/
lemma buildable_addAll {plan : MaterializationPlan} (hplan : Buildable plan.recipes)
    (recipes : List (ObjectRecipe × Bool)) : Buildable (plan.addAll recipes).recipes := by
  induction recipes generalizing plan with
  | nil => exact hplan
  | cons entry recipes ih =>
      obtain ⟨recipe, allocates⟩ := entry
      apply ih
      show Buildable ((plan.add recipe allocates).toOption.getD plan).recipes
      cases hadd : plan.add recipe allocates with
      | error status => exact hplan
      | ok plan' =>
          obtain ⟨-, hbuildable, rfl⟩ := (add_eq_ok hplan).mp hadd
          exact hbuildable

/-! ## Validating -/

/-- The loop over the recipes finds everything but the number of objects and the references. -/
lemma scanRecipes_eq_ok {recipes : List ObjectRecipe} {i : Nat} {scan scan' : PlanScan}
    (hscan : scan.fields ≤ maximumFields) :
    foldExcept (fun _ => scanRecipe) i recipes scan = .ok scan' ↔
      (recipes.map (·.id)).Nodup ∧ (∀ recipe ∈ recipes, recipe.id ∉ scan.ids) ∧
      (recipes.map (·.destinationSlot)).Nodup ∧
      (∀ recipe ∈ recipes, recipe.destinationSlot ∉ scan.destinations) ∧
      scan.fields + totalFields recipes ≤ maximumFields ∧
      (∀ recipe ∈ recipes, ∀ input ∈ recipe.fields, input.wellFormed = true) ∧
      scan' =
        { ids := (recipes.map (·.id)).reverse ++ scan.ids
          destinations := (recipes.map (·.destinationSlot)).reverse ++ scan.destinations
          fields := scan.fields + totalFields recipes } := by
  induction recipes generalizing i scan with
  | nil =>
      rw [foldExcept_nil, Except.ok.injEq]
      constructor
      · rintro rfl
        exact ⟨List.nodup_nil, by simp, List.nodup_nil, by simp, hscan, by simp, rfl⟩
      · rintro ⟨-, -, -, -, -, -, rfl⟩
        rfl
  | cons recipe recipes ih =>
      rw [foldExcept_cons_eq_ok]
      have hstep : ∀ middle, scanRecipe recipe scan = .ok middle ↔ recipe.id ∉ scan.ids ∧
          recipe.destinationSlot ∉ scan.destinations ∧
          scan.fields + recipe.fields.length ≤ maximumFields ∧
          (∀ input ∈ recipe.fields, input.wellFormed = true) ∧
          middle =
            { ids := recipe.id :: scan.ids
              destinations := recipe.destinationSlot :: scan.destinations
              fields := scan.fields + recipe.fields.length } := by
        intro middle
        unfold scanRecipe
        rw [require_bind_eq_ok, require_bind_eq_ok, require_bind_eq_ok, bind_eq_ok]
        constructor
        · rintro ⟨hid, hdestination, ⟨hlength, hsum⟩, _, hinputs, hresult⟩
          exact ⟨hid, hdestination, by omega, checkFields_eq_ok.mp hinputs,
            pure_eq_ok.mp hresult⟩
        · rintro ⟨hid, hdestination, hsum, hinputs, hresult⟩
          exact ⟨hid, hdestination, by omega, (), checkFields_eq_ok.mpr hinputs,
            pure_eq_ok.mpr hresult⟩
      have htotal : totalFields (recipe :: recipes) = recipe.fields.length + totalFields recipes :=
        rfl
      simp only [hstep, List.map_cons, List.nodup_cons, List.forall_mem_cons, htotal,
        List.reverse_cons, List.append_assoc, List.singleton_append]
      constructor
      · rintro ⟨_, ⟨hid, hdestination, hsum, hinputs, rfl⟩, hrest⟩
        obtain ⟨hids, hnew, hdestinations, hnew', htotals, hinputs', rfl⟩ := (ih hsum).mp hrest
        simp only [List.mem_cons, not_or] at hnew hnew'
        change scan.fields + recipe.fields.length + totalFields recipes ≤ maximumFields at htotals
        refine ⟨⟨?_, hids⟩, ⟨hid, fun other hother => (hnew other hother).2⟩, ⟨?_, hdestinations⟩,
          ⟨hdestination, fun other hother => (hnew' other hother).2⟩, by omega,
          ⟨hinputs, hinputs'⟩, by simp only [Nat.add_assoc]⟩
        · intro hmem
          obtain ⟨other, hother, heq⟩ := List.mem_map.mp hmem
          exact (hnew other hother).1 heq
        · intro hmem
          obtain ⟨other, hother, heq⟩ := List.mem_map.mp hmem
          exact (hnew' other hother).1 heq
      · rintro ⟨⟨hfresh, hids⟩, ⟨hid, hnew⟩, ⟨hfresh', hdestinations⟩, ⟨hdestination, hnew'⟩, hsum,
          ⟨hinputs, hinputs'⟩, rfl⟩
        have hfirst : scan.fields + recipe.fields.length ≤ maximumFields := by omega
        have hall : scan.fields + recipe.fields.length + totalFields recipes ≤ maximumFields := by
          omega
        refine ⟨_, ⟨hid, hdestination, hfirst, hinputs, rfl⟩, (ih hfirst).mpr ⟨hids, ?_,
          hdestinations, ?_, hall, hinputs', by simp only [Nat.add_assoc]⟩⟩
        · intro other hother hmem
          rcases List.mem_cons.mp hmem with heq | hold
          · exact hfresh (List.mem_map.mpr ⟨other, hother, heq⟩)
          · exact hnew other hother hold
        · intro other hother hmem
          rcases List.mem_cons.mp hmem with heq | hold
          · exact hfresh' (List.mem_map.mpr ⟨other, hother, heq⟩)
          · exact hnew' other hother hold

/-- The loop over the recipes of a plan, from its start. -/
lemma scanPlan_eq_ok {recipes : List ObjectRecipe} {scan : PlanScan} :
    foldExcept (fun _ => scanRecipe) 0 recipes {} = .ok scan ↔
      (recipes.map (·.id)).Nodup ∧ (recipes.map (·.destinationSlot)).Nodup ∧
      totalFields recipes ≤ maximumFields ∧
      (∀ recipe ∈ recipes, ∀ input ∈ recipe.fields, input.wellFormed = true) ∧
      scan =
        { ids := (recipes.map (·.id)).reverse
          destinations := (recipes.map (·.destinationSlot)).reverse
          fields := totalFields recipes } := by
  rw [scanRecipes_eq_ok (Nat.zero_le maximumFields)]
  simp

/-- **Validation**, for a plan that `add` has built: the references are all it can object to. -/
lemma validate_eq_ok {plan : MaterializationPlan} (hplan : Buildable plan.recipes) {u : Unit} :
    plan.validate = .ok u ↔ Resolved plan.recipes := by
  unfold MaterializationPlan.validate
  rw [bind_eq_ok]
  have hscan : ∀ scan, foldExcept (fun _ => scanRecipe) 0 plan.recipes {} = .ok scan ↔
      scan =
        { ids := (plan.recipes.map (·.id)).reverse
          destinations := (plan.recipes.map (·.destinationSlot)).reverse
          fields := totalFields plan.recipes } := by
    intro scan
    rw [scanPlan_eq_ok]
    exact ⟨fun h => h.2.2.2.2,
      fun h => ⟨hplan.ids, hplan.destinations, hplan.fields, hplan.inputs, h⟩⟩
  simp only [hscan, exists_eq_left, forM_eq_ok, require_eq_ok, List.mem_reverse, List.mem_map]
  rfl

/-- A recipe is added exactly when there is room for an object and `validate` would get through its
loop over the recipes of the longer plan. -/
lemma add_agrees {plan : MaterializationPlan} (hplan : Buildable plan.recipes)
    (recipe : ObjectRecipe) :
    (∃ plan', plan.add recipe true = .ok plan') ↔ plan.recipes.length < maximumObjects ∧
      ∃ scan, foldExcept (fun _ => scanRecipe) 0 (plan.recipes ++ [recipe]) {} = .ok scan := by
  simp only [add_eq_ok hplan, true_and, scanPlan_eq_ok]
  constructor
  · rintro ⟨_, hbuildable, -⟩
    have hlength := hbuildable.objects
    rw [List.length_append, List.length_singleton] at hlength
    exact ⟨hlength, _, hbuildable.ids, hbuildable.destinations, hbuildable.fields,
      hbuildable.inputs, rfl⟩
  · rintro ⟨hroom, _, hids, hdestinations, hfields, hinputs, -⟩
    refine ⟨_, ⟨?_, hfields, hids, hdestinations, hinputs⟩, rfl⟩
    rw [List.length_append, List.length_singleton]
    exact hroom

/-! ## Materializing -/

/-- The answers of the allocations, and what is stored for the objects: in the frame, and in the
fields that refer to them. -/
structure Linked (plan : MaterializationPlan)
    (log : List (MaterializationCall × Except Status ObjectHandle)) (handles : List ObjectHandle) :
    Prop where
  length : handles.length = plan.recipes.length
  allocated : ∀ (i : Nat) (recipe : ObjectRecipe) (handle : ObjectHandle),
    plan.recipes[i]? = some recipe → handles[i]? = some handle →
      log[i + 1]? = some (allocationCall recipe, .ok handle) ∧
        (.storeFrameObject recipe.destinationSlot handle, .ok 0) ∈ log
  referenced : ∀ (i : Nat) (recipe : ObjectRecipe) (handle : ObjectHandle),
    plan.recipes[i]? = some recipe → handles[i]? = some handle →
      ∀ (field : Nat) (input : MaterializationInput), recipe.fields[field]? = some input →
        input.source = some .object → ∃ (k : Nat) (target : ObjectRecipe) (value : ObjectHandle),
          plan.recipes[k]? = some target ∧ target.id = input.objectId ∧ handles[k]? = some value ∧
            (.storeObject handle field value, .ok 0) ∈ log

/-- The handle that a reference is stored as is the one of the recipe it names. -/
lemma getElem?_handleOf {plan : MaterializationPlan} {handles : List ObjectHandle}
    (hlength : handles.length = plan.recipes.length) {id : Nat}
    (h : ∃ target ∈ plan.recipes, target.id = id) :
    ∃ (k : Nat) (target : ObjectRecipe), plan.recipes[k]? = some target ∧ target.id = id ∧
      handles[k]? = some (handleOf plan handles id) := by
  have hlt : plan.recipes.findIdx (·.id = id) < plan.recipes.length := by
    obtain ⟨target, hmem, hid⟩ := h
    exact List.findIdx_lt_length_of_exists ⟨target, hmem, by simpa using hid⟩
  refine ⟨_, _, List.getElem?_eq_getElem hlt, ?_, ?_⟩
  · simpa using List.findIdx_getElem (w := hlt)
  · have hinside : plan.recipes.findIdx (·.id = id) < handles.length := by omega
    simp only [handleOf, List.getD, List.getElem?_eq_getElem hinside, Option.getD_some]

/-- A traced call has succeeded. -/
lemma mem_successes {κ ρ ε : Type} {trace : List (κ × ρ)} {c : κ} {r : ρ} (h : (c, r) ∈ trace) :
    (c, .ok r) ∈ (successes trace : List (κ × Except ε ρ)) :=
  List.mem_map_of_mem (f := fun entry : κ × ρ => (entry.1, Except.ok entry.2)) h

/-- The trace of a whole transaction links the objects of a plan whose references are resolved. -/
lemma linked_fullTrace {frame : ReconstructedFrame} {plan : MaterializationPlan}
    (hresolved : Resolved plan.recipes) {handles : List ObjectHandle}
    (hlength : handles.length = plan.recipes.length) :
    Linked plan (successes (fullTrace frame plan handles)) handles where
  length := hlength
  allocated := by
    intro i recipe handle hrecipe hhandle
    constructor
    · have hzip : ((plan.recipes.map allocationCall).zip handles)[i]? =
          some (allocationCall recipe, handle) := by
        rw [List.getElem?_zip_eq_some]
        exact ⟨by rw [List.getElem?_map, hrecipe]; rfl, hhandle⟩
      have hinside := (List.getElem?_eq_some_iff.mp hzip).1
      simp only [successes, fullTrace, List.append_assoc, List.map_cons, List.map_append,
        List.cons_append, List.nil_append, List.map_nil, List.getElem?_cons_succ]
      rw [List.getElem?_append_left (by rw [List.length_map]; exact hinside), List.getElem?_map,
        hzip]
      rfl
    · apply mem_successes
      have hslot : objectValue recipe handle ∈ frameValues frame plan handles := by
        apply List.mem_append_right
        apply List.mem_of_getElem? (i := i)
        simp [List.getElem?_zipWith, hrecipe, hhandle]
      have hcall : slotCall (objectValue recipe handle) =
          .storeFrameObject recipe.destinationSlot handle := rfl
      simp only [fullTrace, List.mem_append]
      left
      right
      rw [← hcall]
      exact List.mem_map_of_mem (f := (·, 0)) (List.mem_map_of_mem hslot)
  referenced := by
    intro i recipe handle hrecipe hhandle field input hinput hobject
    obtain ⟨k, target, htarget, hid, hvalue⟩ := getElem?_handleOf hlength
      (hresolved recipe (List.mem_of_getElem? hrecipe) input (List.mem_of_getElem? hinput) hobject)
    refine ⟨k, target, _, htarget, hid, hvalue, mem_successes ?_⟩
    have hcall : fieldCall frame plan handles handle input field =
        .storeObject handle field (handleOf plan handles input.objectId) := by
      rw [fieldCall, if_pos hobject]
    have hzip : (recipe, handle) ∈ plan.recipes.zip handles := by
      apply List.mem_of_getElem? (i := i)
      rw [List.getElem?_zip_eq_some]
      exact ⟨hrecipe, hhandle⟩
    have hentry : (input, field) ∈ recipe.fields.zipIdx :=
      List.mem_zipIdx_iff_getElem?.mpr hinput
    simp only [fullTrace, List.mem_append]
    left
    left
    right
    rw [← hcall]
    apply List.mem_map_of_mem (f := (·, 0))
    exact List.mem_flatMap.mpr ⟨_, hzip, List.mem_map.mpr ⟨_, hentry, rfl⟩⟩

/-- A materialization that succeeds has passed its checks. -/
lemma materializeFrame_eq_ok {σ : Type} {frame : ReconstructedFrame} {plan : MaterializationPlan}
    {callbacks : MaterializationCallbacks σ} {state : σ} {output : MaterializedFrame}
    {s : Stage MaterializationCall ObjectHandle Status σ}
    (h : materializeFrame frame plan callbacks state = (.ok output, s)) :
    plan.validate = .ok () ∧ (∃ slots slots', checkFrameSlots frame = .ok slots ∧
        checkRecipes frame plan slots = .ok slots') ∧
      ∃ handles, handles.length = plan.recipes.length ∧
        output = materializedFrame frame plan handles ∧
        s.log = successes (fullTrace frame plan handles) := by
  have htransaction := materialize_transactional frame plan callbacks state
  cases hcheck : checkMaterialization frame plan callbacks with
  | error status =>
      rw [hcheck, h] at htransaction
      simp at htransaction
  | ok complete =>
      rw [hcheck] at htransaction
      obtain ⟨handles, s', hlength, -, -, -, hcases⟩ := htransaction
      unfold checkMaterialization at hcheck
      rw [require_bind_eq_ok, bind_eq_ok] at hcheck
      obtain ⟨-, _, hvalid, hcheck⟩ := hcheck
      simp only [bind_eq_ok] at hcheck
      obtain ⟨_, -, slots, hslots, slots', hrecipes, -⟩ := hcheck
      refine ⟨hvalid, ⟨slots, slots', hslots, hrecipes⟩, handles, hlength, ?_⟩
      rcases hcases with ⟨hrun, hlog⟩ | ⟨status, _, _, _, _, -, hrun, -⟩
      · obtain ⟨houtput, rfl⟩ := Prod.mk.inj (h.symm.trans hrun)
        exact ⟨Except.ok.inj houtput, hlog⟩
      · rw [h] at hrun
        simp at hrun

/-- A loop that collects slots, and lets each through once, has collected all of them. -/
lemma nodup_of_collects {α : Type} {slot : α → Nat}
    {body : Nat → α → List Nat → Except Status (List Nat)}
    (hbody : ∀ i a seen seen', body i a seen = .ok seen' → slot a ∉ seen ∧ seen' = slot a :: seen)
    {as : List α} {i : Nat} {seen slots : List Nat} (hseen : seen.Nodup)
    (h : foldExcept body i as seen = .ok slots) :
    slots.Nodup ∧ slots = (as.map slot).reverse ++ seen := by
  induction as generalizing i seen with
  | nil =>
      rw [foldExcept_nil, Except.ok.injEq] at h
      subst h
      exact ⟨hseen, rfl⟩
  | cons a as ih =>
      rw [foldExcept_cons_eq_ok] at h
      obtain ⟨seen', hstep, hrest⟩ := h
      obtain ⟨hnew, rfl⟩ := hbody _ _ _ _ hstep
      obtain ⟨hnodup, rfl⟩ := ih (List.nodup_cons.mpr ⟨hnew, hseen⟩) hrest
      refine ⟨hnodup, ?_⟩
      rw [List.map_cons, List.reverse_cons, List.append_assoc, List.singleton_append]

/-- The slots that were checked are distinct. -/
lemma nodup_of_checkFrameSlots {frame : ReconstructedFrame} {slots : List Nat}
    (h : checkFrameSlots frame = .ok slots) :
    slots.Nodup ∧ slots = (frame.values.map (·.slot)).reverse := by
  rw [← List.append_nil (frame.values.map (·.slot)).reverse]
  apply nodup_of_collects _ List.nodup_nil h
  intro i value seen seen' hstep
  rw [require_bind_eq_ok, pure_eq_ok] at hstep
  exact ⟨hstep.1.2, hstep.2⟩

/-- The slots of frame and recipes are distinct. -/
lemma nodup_of_checkRecipes {frame : ReconstructedFrame} {plan : MaterializationPlan}
    {slots slots' : List Nat} (h : checkRecipes frame plan slots = .ok slots')
    (hnodup : slots.Nodup) :
    slots'.Nodup ∧ slots' = (plan.recipes.map (·.destinationSlot)).reverse ++ slots := by
  apply nodup_of_collects _ hnodup h
  intro i recipe seen seen' hstep
  rw [require_bind_eq_ok, bind_eq_ok] at hstep
  obtain ⟨hnew, _, -, hresult⟩ := hstep
  exact ⟨hnew, pure_eq_ok.mp hresult⟩

/-- The slots of a frame with its objects are those that the checks have let through. -/
lemma slots_frameValues {frame : ReconstructedFrame} {plan : MaterializationPlan}
    {handles : List ObjectHandle} (hlength : handles.length = plan.recipes.length) :
    (frameValues frame plan handles).map (·.slot) =
      frame.values.map (·.slot) ++ plan.recipes.map (·.destinationSlot) := by
  have hobjects : ∀ (recipes : List ObjectRecipe) (handles : List ObjectHandle),
      handles.length = recipes.length →
        (List.zipWith objectValue recipes handles).map (·.slot) =
          recipes.map (·.destinationSlot) := by
    intro recipes
    induction recipes with
    | nil => intro handles _; rfl
    | cons recipe recipes ih =>
        intro handles hlength
        obtain ⟨handle, handles, rfl⟩ := List.exists_cons_of_length_eq_add_one hlength
        rw [List.zipWith_cons_cons, List.map_cons, List.map_cons,
          ih handles (Nat.succ.inj hlength)]
        rfl
  rw [frameValues, List.map_append, hobjects _ _ hlength, List.map_map]
  rfl

/-- **Materialization plans are well formed.** Whatever has been added to an empty plan, it stays
within its limits, without a repeated identity or destination; it passes `validate` exactly when
every reference is resolved; a further recipe is added exactly when there is room for it and the
loop of `validate` over the recipes, which checks all limits but the one on objects, goes through
with it; and it is added at the end, with the rest of the plan as it was. In a materialization that
succeeds, each reference is stored as the handle of the recipe it names, and no two entries of the
frame share a slot. -/
theorem plan_well_formed (site resumeOffset : Nat) (recipes : List (ObjectRecipe × Bool)) :
    let plan := (⟨site, resumeOffset, []⟩ : MaterializationPlan).addAll recipes
    Buildable plan.recipes ∧
    (plan.validate = .ok () ↔ Resolved plan.recipes) ∧
    (∀ recipe, (∃ plan', plan.add recipe true = .ok plan') ↔
      plan.recipes.length < maximumObjects ∧
        ∃ scan, foldExcept (fun _ => scanRecipe) 0 (plan.recipes ++ [recipe]) {} = .ok scan) ∧
    (∀ recipe allocates plan', plan.add recipe allocates = .ok plan' →
      allocates = true ∧ plan' = { plan with recipes := plan.recipes ++ [recipe] }) ∧
    ∀ {σ : Type} (frame : ReconstructedFrame) (callbacks : MaterializationCallbacks σ) (state : σ)
      (output : MaterializedFrame) (s : Stage MaterializationCall ObjectHandle Status σ),
      materializeFrame frame plan callbacks state = (.ok output, s) →
        (output.values.map (·.slot)).Nodup ∧
        ∃ handles, Linked plan s.log handles ∧ output = materializedFrame frame plan handles := by
  intro plan
  have hempty : Buildable ([] : List ObjectRecipe) :=
    ⟨Nat.zero_le _, Nat.zero_le _, List.nodup_nil, List.nodup_nil, by simp⟩
  have hplan : Buildable plan.recipes := buildable_addAll hempty recipes
  refine ⟨hplan, validate_eq_ok hplan, add_agrees hplan, ?_, ?_⟩
  · intro recipe allocates plan' hadd
    obtain ⟨hallocates, -, hresult⟩ := (add_eq_ok hplan).mp hadd
    exact ⟨hallocates, hresult⟩
  intro σ frame callbacks state output s hrun
  obtain ⟨hvalid, ⟨slots, slots', hslots, hrecipes⟩, handles, hlength, rfl, hlog⟩ :=
    materializeFrame_eq_ok hrun
  constructor
  · obtain ⟨hnodup, rfl⟩ := nodup_of_checkFrameSlots hslots
    obtain ⟨hnodup', rfl⟩ := nodup_of_checkRecipes hrecipes hnodup
    rw [← List.reverse_append, List.nodup_reverse] at hnodup'
    exact (slots_frameValues hlength).symm ▸ hnodup'
  · refine ⟨handles, ?_, rfl⟩
    rw [hlog]
    exact linked_fullTrace ((validate_eq_ok hplan).mp hvalid) hlength

end UniJit.Runtime
