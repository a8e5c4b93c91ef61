import Mathlib.Logic.Relation
import UniJit.Ir.Emission

/-!
# Values that emitted code computes

A translator that emits code for an expression ends with the handle of a value. `Code.Leads` says
that the code between two points of the builder takes a run from one state to another, and
`Code.Exits` that it leaves the function at a guard. The rules below say this for one call of the
builder (`Code.leads_append`, `Code.exits_append`); what was computed before stays as it is
(`Keeps`), so the rules compose.

A builder may refuse a node, and then the handle of the value is not valid. `Code.Computes` says of
an expression what holds in both cases: the run goes on, and the new value has its word if it is
valid.
-/

namespace UniJit.Ir

open UniJit.Lib UniJit.Runtime

/-- Two states of a run have the same values below `bound`. -/
structure Keeps (bound : Nat) (s s' : Values) : Prop where
  length : s'.words.length = s.words.length
  word : ∀ v : Value, v.index < bound → s'.word v = s.word v

namespace Keeps

variable {s s' s'' : Values} {bound bound' : Nat}

lemma refl (bound : Nat) (s : Values) : Keeps bound s s := ⟨rfl, fun _ _ => rfl⟩

lemma trans (h : Keeps bound s s') (h' : Keeps bound' s' s'') (hle : bound ≤ bound') :
    Keeps bound s s'' :=
  ⟨h'.length.trans h.length, fun v hv => (h'.word v (by omega)).trans (h.word v hv)⟩

lemma setWord (s : Values) (bound : Nat) (w : Word) : Keeps bound s (s.setWord bound w) :=
  ⟨Values.length_setWord, fun _ hv => Values.word_setWord_of_ne (by omega)⟩

end Keeps

namespace Code

variable {B : Type} [LawfulScalarBuilder B] {float : FloatUnit} (code : Code B float)

open LawfulScalarBuilder

/-- The code between two points takes a run from one state to another. -/
def Leads (b : B) (s : Values) (m : Machine) (b' : B) (s' : Values) (m' : Machine) : Prop :=
  ∀ post, code.Yields b' s' m' post → code.Yields b s m post

/-- The run leaves the function at a guard with this immediate. -/
def Exits (b : B) (s : Values) (m : Machine) (immediate : Word) : Prop :=
  ∀ post : Post, (∀ text ∈ guardTexts, ∀ m', post (.error ⟨.runtimeExit, text, immediate.toNat⟩ m')) →
    code.Yields b s m post

/-- Operations were appended between two points of a builder. -/
def Grows : B → B → Prop :=
  Relation.ReflTransGen fun b b' => ∃ (o : Operation) (type : ValueType) (lhs rhs : Value)
    (immediate : Word), b' = (ScalarBuilder.append b o type lhs rhs immediate).2

variable {code} {b b' b'' : B} {s s' s'' : Values} {m m' m'' : Machine}

lemma Leads.refl : code.Leads b s m b s m := fun _ h => h

lemma Leads.trans (h : code.Leads b s m b' s' m') (h' : code.Leads b' s' m' b'' s'' m'') :
    code.Leads b s m b'' s'' m'' := fun post hpost => h post (h' post hpost)

/-- Code that leads to an exit exits. -/
lemma Exits.of_leads {immediate : Word} (h : code.Leads b s m b' s' m')
    (h' : code.Exits b' s' m' immediate) : code.Exits b s m immediate :=
  fun post hpost => h post (h' post hpost)

lemma Grows.refl (b : B) : Grows b b := Relation.ReflTransGen.refl

lemma Grows.trans (h : Grows b b') (h' : Grows b' b'') : Grows b b'' :=
  Relation.ReflTransGen.trans h h'

/-- A builder is part of whatever it grows into. -/
lemma Grows.part (h : Grows b b') (hpart : code.Part b') : code.Part b := by
  induction h using Relation.ReflTransGen.head_induction_on with
  | refl => exact hpart
  | head happend _ ih =>
      obtain ⟨o, type, lhs, rhs, immediate, rfl⟩ := happend
      exact code.part_append ih

section calls

variable {o : Operation} {type : ValueType} {lhs rhs : Value} {immediate w : Word}

/-- A builder that refuses a node goes on refusing. -/
lemma accepts_of_append (h : accepts (ScalarBuilder.append b o type lhs rhs immediate).2) :
    accepts b := by
  by_contra hrefused
  rw [append_refused hrefused] at h
  exact hrefused h

lemma grows_append : Grows b (ScalarBuilder.append b o type lhs rhs immediate).2 :=
  .single ⟨o, type, lhs, rhs, immediate, rfl⟩

/-- An append never removes a node. -/
lemma size_le_append : size b ≤ size (ScalarBuilder.append b o type lhs rhs immediate).2 := by
  by_cases haccepts : accepts b
  · rw [size_append haccepts]
    exact Nat.le_succ _
  · rw [append_refused haccepts]

/-- A builder only grows. -/
lemma Grows.size_le (h : Grows b b') : size b ≤ size b' := by
  induction h with
  | refl => exact le_rfl
  | tail _ happend ih =>
      obtain ⟨o, type, lhs, rhs, immediate, rfl⟩ := happend
      exact ih.trans size_le_append

/-- A builder that takes a node has taken all before it. -/
lemma Grows.accepts (h : Grows b b') (haccepts : accepts b') : accepts b := by
  induction h with
  | refl => exact haccepts
  | tail _ happend ih =>
      obtain ⟨o, type, lhs, rhs, immediate, rfl⟩ := happend
      exact ih (accepts_of_append haccepts)

/-- The handle that a call answers with. -/
lemma index_append (haccepts : accepts b) :
    (ScalarBuilder.append b o type lhs rhs immediate).1.index = size b := by
  rw [append_value haccepts, Value.index_ofIndex (size_lt haccepts)]

/-- The appended value is valid exactly when the builder accepts nodes. -/
lemma valid_append : (ScalarBuilder.append b o type lhs rhs immediate).1.valid ↔ accepts b := by
  by_cases haccepts : accepts b
  · rw [append_value haccepts]
    simp [haccepts, Value.valid_ofIndex (size_lt haccepts)]
  · rw [append_refused haccepts]
    simp [haccepts, not_valid_invalid]

/-- One call of the builder: the new value holds the result of its operation. -/
lemma leads_append (haccepts : accepts b)
    (hpart : code.Part (ScalarBuilder.append b o type lhs rhs immediate).2)
    (hlength : s.words.length = code.total) (hoperands : operandsBelow o lhs rhs (size b))
    (hvalue : scalarValue float o immediate (s.word lhs) (s.word rhs) = some w) (m : Machine) :
    ∃ s', code.Leads b s m (ScalarBuilder.append b o type lhs rhs immediate).2 s' m ∧
      s'.word (ScalarBuilder.append b o type lhs rhs immediate).1 = w ∧ Keeps (size b) s s' := by
  have hle := code.size_le hpart
  rw [size_append haccepts] at hle
  refine ⟨s.setWord (size b) w, fun post hpost => ?_, ?_, Keeps.setWord ..⟩
  · exact code.step haccepts hpart hoperands hvalue hpost
  · exact Values.word_setWord_self (index_append haccepts) (by omega)

/-- A guard whose operand is zero. -/
lemma exits_append (haccepts : accepts b)
    (hpart : code.Part (ScalarBuilder.append b o type lhs .invalid immediate).2)
    (hlhs : lhs.index < size b) (hfires : guardFires float o (s.word lhs)) (m : Machine) :
    code.Exits b s m immediate :=
  fun _ hpost => code.exit haccepts hpart hlhs hfires hpost

end calls

/-! ## Computations -/

/-- The code between two points computes the word of a value from the earlier ones, if the value is
valid and its operands are `ready`. -/
structure Computes (code : Code B float) (b b' : B) (v : Value) (ready : Prop) (w : Values → Word) :
    Prop where
  grows : Grows b b'
  index_lt : v.valid → v.index < size b'
  leads : ready → code.Part b' → ∀ s m, s.words.length = code.total →
    ∃ s', code.Leads b s m b' s' m ∧ Keeps (size b) s s' ∧ (v.valid → s'.word v = w s)

section computations

variable {o : Operation} {type : ValueType} {lhs rhs : Value} {immediate : Word} {ready ready' : Prop}
  {w w' : Values → Word} {u v : Value}

/-- One append computes the operation's value. -/
lemma computes_append (hoperands : accepts b → ready → operandsBelow o lhs rhs (size b))
    (hvalue : ∀ s, scalarValue float o immediate (s.word lhs) (s.word rhs) = some (w s)) :
    code.Computes b (ScalarBuilder.append b o type lhs rhs immediate).2
      (ScalarBuilder.append b o type lhs rhs immediate).1 ready w where
  grows := grows_append
  index_lt := by
    intro hvalid
    have haccepts := valid_append.mp hvalid
    rw [index_append haccepts, size_append haccepts]
    exact Nat.lt_succ_self _
  leads := by
    intro hready hpart s m hlength
    by_cases haccepts : accepts b
    · obtain ⟨s', hleads, hword, hkeeps⟩ :=
        leads_append haccepts hpart hlength (hoperands haccepts hready) (hvalue s) m
      exact ⟨s', hleads, hkeeps, fun _ => hword⟩
    · have hinvalid : ¬(ScalarBuilder.append b o type lhs rhs immediate).1.valid :=
        mt valid_append.mp haccepts
      refine ⟨s, ?_, .refl _ s, fun hvalid => absurd hvalid hinvalid⟩
      rw [append_refused haccepts]
      exact .refl

lemma Computes.mono (h : code.Computes b b' v ready w) (hready : ready' → ready) :
    code.Computes b b' v ready' w :=
  ⟨h.grows, h.index_lt, fun hr => h.leads (hready hr)⟩

/-- A computation that goes on with the value of another one. -/
lemma Computes.trans (h : code.Computes b b' u ready w) (h' : code.Computes b' b'' v ready' w')
    {w'' : Values → Word} (hready : ready → ready') (hvalid : v.valid → u.valid)
    (hw : ready → ∀ s s', Keeps (size b) s s' → s'.word u = w s → w' s' = w'' s) :
    code.Computes b b'' v ready w'' where
  grows := h.grows.trans h'.grows
  index_lt := h'.index_lt
  leads := by
    intro hr hpart s m hlength
    obtain ⟨s₁, hleads, hkeeps, hword⟩ := h.leads hr (h'.grows.part hpart) s m hlength
    obtain ⟨s₂, hleads', hkeeps', hword'⟩ :=
      h'.leads (hready hr) hpart s₁ m (hkeeps.length.trans hlength)
    exact ⟨s₂, hleads.trans hleads', hkeeps.trans hkeeps' h.grows.size_le,
      fun hv => (hword' hv).trans (hw hr s s₁ hkeeps (hword (hvalid hv)))⟩

/-- The code between two points attempts to compute the word of a value: it leaves the function at a
guard instead, if the attempt `fails`. -/
structure Attempts (code : Code B float) (b b' : B) (v : Value) (ready : Prop) (fails : Values → Prop)
    (site : Word) (w : Values → Word) : Prop where
  grows : Grows b b'
  index_lt : v.valid → v.index < size b'
  leads : ready → code.Part b' → ∀ s m, s.words.length = code.total → ¬fails s →
    ∃ s', code.Leads b s m b' s' m ∧ Keeps (size b) s s' ∧ (v.valid → s'.word v = w s)
  exits : ready → code.Part b' → ∀ s m, s.words.length = code.total → fails s →
    code.Exits b s m site

/-- Code that computes is an attempt that never fails. -/
lemma Computes.attempts (h : code.Computes b b' v ready w) :
    code.Attempts b b' v ready (fun _ => False) 0 w where
  grows := h.grows
  index_lt := h.index_lt
  leads := fun hready hpart s m hlength _ => h.leads hready hpart s m hlength
  exits := fun _ _ _ _ _ hs => hs.elim

/-- An attempt may be read with equivalent conditions and values. -/
lemma Attempts.congr {fails fails' : Values → Prop} {site : Word}
    (h : code.Attempts b b' v ready fails site w) (hready : ready' → ready)
    (hfails : ∀ s, fails' s ↔ fails s) (hw : ∀ s, ¬fails s → w s = w' s) :
    code.Attempts b b' v ready' fails' site w' where
  grows := h.grows
  index_lt := h.index_lt
  leads := by
    intro hr hpart s m hlength hs
    have hs' : ¬fails s := mt (hfails s).mpr hs
    obtain ⟨s', hleads, hkeeps, hword⟩ := h.leads (hready hr) hpart s m hlength hs'
    exact ⟨s', hleads, hkeeps, fun hv => (hword hv).trans (hw s hs')⟩
  exits := fun hr hpart s m hlength hs => h.exits (hready hr) hpart s m hlength ((hfails s).mp hs)

/-- An attempt that goes on with the value of a computation. -/
lemma Computes.trans_attempts (h : code.Computes b b' u ready w) {fails fails' : Values → Prop}
    {site : Word} (h' : code.Attempts b' b'' v ready' fails' site w') {w'' : Values → Word}
    (hready : ready → ready') (hvalid : v.valid → u.valid)
    (hfails : ∀ s s', Keeps (size b) s s' → (u.valid → s'.word u = w s) → (fails' s' ↔ fails s))
    (hw : ready → ∀ s s', Keeps (size b) s s' → s'.word u = w s → w' s' = w'' s) :
    code.Attempts b b'' v ready fails site w'' where
  grows := h.grows.trans h'.grows
  index_lt := h'.index_lt
  leads := by
    intro hr hpart s m hlength hs
    obtain ⟨s₁, hleads, hkeeps, hword⟩ := h.leads hr (h'.grows.part hpart) s m hlength
    have hs₁ : ¬fails' s₁ := fun hfails' => hs ((hfails s s₁ hkeeps hword).mp hfails')
    obtain ⟨s₂, hleads', hkeeps', hword'⟩ :=
      h'.leads (hready hr) hpart s₁ m (hkeeps.length.trans hlength) hs₁
    exact ⟨s₂, hleads.trans hleads', hkeeps.trans hkeeps' h.grows.size_le,
      fun hv => (hword' hv).trans (hw hr s s₁ hkeeps (hword (hvalid hv)))⟩
  exits := by
    intro hr hpart s m hlength hs
    obtain ⟨s₁, hleads, hkeeps, hword⟩ := h.leads hr (h'.grows.part hpart) s m hlength
    exact .of_leads hleads (h'.exits (hready hr) hpart s₁ m (hkeeps.length.trans hlength)
      ((hfails s s₁ hkeeps hword).mpr hs))

end computations

end Code

end UniJit.Ir
