import Mathlib.Tactic

/-!
# Traces of fallible calls

A piece of code makes calls of type `κ` to the outside, one after the other. Each call is answered
with a value of type `ρ` or an error, and changes a state that only the outside knows. The code
stops at the first error. Here such code is a computation on a `Stage`, which keeps the outside's
state and the log of the calls with their answers.

`Follows x T` says that the log of `x` is one of the complete traces `T` describes, or, if a call
fails, a trace of `T` up to that call and nothing after it. `T` also relates the trace to the
result, since later calls may depend on earlier answers. The rules follow the code: `pure`, `call`,
`bind`, a loop `forM`, and a loop that collects answers, `collect`.
-/

namespace UniJit.Lib

variable {κ ρ ε σ α β : Type}

/-- The state of the outside and the calls made so far, the latest last. -/
structure Stage (κ ρ ε σ : Type) where
  state : σ
  log : List (κ × Except ε ρ) := []

/-- Code that makes calls. -/
abbrev Calls (κ ρ ε σ : Type) := EStateM ε (Stage κ ρ ε σ)

section

variable (perform : κ → σ → Except ε ρ × σ)

/-- Make a call and log it. -/
def call (c : κ) : Calls κ ρ ε σ ρ := fun s =>
  let (answer, state) := perform c s.state
  let s := { state := state, log := s.log ++ [(c, answer)] }
  match answer with
  | .ok r => .ok r s
  | .error e => .error e s

/-- A loop that makes a call for each element and collects the answers. -/
def collect (c : α → κ) : List α → Calls κ ρ ε σ (List ρ)
  | [] => pure []
  | a :: as => do
      let r ← call perform (c a)
      let rs ← collect c as
      pure (r :: rs)

/-- The answers in a log are those of the outside, from one state to another. -/
def Answered : σ → List (κ × Except ε ρ) → σ → Prop
  | s, [], t => t = s
  | s, (c, answer) :: rest, t => (perform c s).1 = answer ∧ Answered (perform c s).2 rest t

/-- The part of a log in which every call succeeds. -/
def successes (trace : List (κ × ρ)) : List (κ × Except ε ρ) :=
  trace.map fun (c, r) => (c, .ok r)

/-- How code leaves a stage: with a complete trace, or at the first call of one that fails. -/
def Left (T : List (κ × ρ) → α → Prop) (s : Stage κ ρ ε σ) :
    EStateM.Result ε (Stage κ ρ ε σ) α → Prop
  | .ok a s' => ∃ trace, T trace a ∧ s'.log = s.log ++ successes trace ∧
      Answered perform s.state (successes trace) s'.state
  | .error e s' => ∃ before c r after a, T (before ++ (c, r) :: after) a ∧
      s'.log = s.log ++ (successes before ++ [(c, .error e)]) ∧
      Answered perform s.state (successes before ++ [(c, .error e)]) s'.state

/-- The logs of `x` are complete traces of `T`, or end at a call that fails. -/
def Follows (x : Calls κ ρ ε σ α) (T : List (κ × ρ) → α → Prop) : Prop :=
  ∀ s, Left perform T s (x s)

variable {perform}

/-- Two logs in a row are answered one after the other. -/
lemma Answered.append {s t u : σ} {log log' : List (κ × Except ε ρ)}
    (h : Answered perform s log t) (h' : Answered perform t log' u) :
    Answered perform s (log ++ log') u := by
  induction log generalizing s with
  | nil =>
      obtain rfl : t = s := h
      exact h'
  | cons entry log ih => exact ⟨h.1, ih h.2⟩

/-- The successes of two logs in a row. -/
lemma successes_append (trace trace' : List (κ × ρ)) :
    (successes (trace ++ trace') : List (κ × Except ε ρ)) =
      successes trace ++ successes trace' :=
  List.map_append

namespace Follows

/-- A result calls nothing. -/
lemma pure (a : α) : Follows perform (Pure.pure a) fun trace b => trace = [] ∧ b = a := by
  intro s
  exact ⟨[], ⟨rfl, rfl⟩, by simp [successes], rfl⟩

/-- A call traces itself. -/
lemma call [Inhabited ρ] (c : κ) :
    Follows perform (call perform c) fun trace r => trace = [(c, r)] := by
  intro s
  unfold Lib.call
  cases h : perform c s.state with
  | mk answer state =>
      cases answer with
      | ok r => exact ⟨[(c, r)], rfl, rfl, by simp [successes, Answered, h]⟩
      | error e =>
          -- the call has no answer, but a complete trace has one
          exact ⟨[], c, default, [], default, rfl, rfl, by simp [successes, Answered, h]⟩

/-- A call that is only ever answered in one way. -/
lemma call_of_answer {c : κ} {r : ρ} (h : ∀ s r', (perform c s).1 = .ok r' → r' = r) :
    Follows perform (Lib.call perform c) fun trace _ => trace = [(c, r)] := by
  intro s
  unfold Lib.call
  cases hanswer : perform c s.state with
  | mk answer state =>
      cases answer with
      | ok r' =>
          obtain rfl := h s.state r' (by rw [hanswer])
          exact ⟨[(c, r')], rfl, rfl, by simp [successes, Answered, hanswer]⟩
      | error e => exact ⟨[], c, r, [], r, rfl, rfl, by simp [successes, Answered, hanswer]⟩

/-- Two parts trace one after the other. -/
lemma bind {x : Calls κ ρ ε σ α} {k : α → Calls κ ρ ε σ β} {T : List (κ × ρ) → α → Prop}
    {U : α → List (κ × ρ) → β → Prop} (hx : Follows perform x T)
    (hk : ∀ a, Follows perform (k a) (U a)) (total : ∀ a, ∃ trace b, U a trace b) :
    Follows perform (x >>= k) fun trace b =>
      ∃ a before after, T before a ∧ U a after b ∧ trace = before ++ after := by
  intro s
  have hs := hx s
  show Left perform _ s (EStateM.bind x k s)
  unfold EStateM.bind
  cases hrun : x s with
  | error e s' =>
      rw [hrun] at hs
      obtain ⟨before, c, r, after, a, hT, hlog, hanswered⟩ := hs
      obtain ⟨rest, b, hU⟩ := total a
      exact ⟨before, c, r, after ++ rest, b, ⟨a, _, _, hT, hU, by simp⟩, hlog, hanswered⟩
  | ok a s' =>
      rw [hrun] at hs
      obtain ⟨first, hT, hlog, hanswered⟩ := hs
      have hs' := hk a s'
      show Left perform _ s (k a s')
      cases hrun' : k a s' with
      | ok b s'' =>
          rw [hrun'] at hs'
          obtain ⟨second, hU, hlog', hanswered'⟩ := hs'
          refine ⟨first ++ second, ⟨a, _, _, hT, hU, rfl⟩, ?_, ?_⟩
          · rw [hlog', hlog, successes_append, List.append_assoc]
          · rw [successes_append]
            exact hanswered.append hanswered'
      | error e s'' =>
          rw [hrun'] at hs'
          obtain ⟨before, c, r, after, b, hU, hlog', hanswered'⟩ := hs'
          refine ⟨first ++ before, c, r, after, b, ⟨a, _, _, hT, hU, by simp⟩, ?_, ?_⟩
          · rw [hlog', hlog, successes_append]
            simp only [List.append_assoc]
          · rw [successes_append, List.append_assoc]
            exact hanswered.append hanswered'

/-- A weaker description follows. -/
lemma mono {x : Calls κ ρ ε σ α} {T U : List (κ × ρ) → α → Prop} (h : Follows perform x T)
    (hmono : ∀ trace a, T trace a → U trace a) : Follows perform x U := by
  intro s
  have hs := h s
  cases hrun : x s with
  | ok a s' =>
      rw [hrun] at hs
      obtain ⟨trace, hT, hrest⟩ := hs
      exact ⟨trace, hmono _ _ hT, hrest⟩
  | error e s' =>
      rw [hrun] at hs
      obtain ⟨before, c, r, after, a, hT, hrest⟩ := hs
      exact ⟨before, c, r, after, a, hmono _ _ hT, hrest⟩

/-- A loop: its trace is that of its iterations, one after the other. -/
lemma forM {body : α → Calls κ ρ ε σ Unit} {trace : α → List (κ × ρ)} {as : List α}
    (h : ∀ a ∈ as, Follows perform (body a) fun t _ => t = trace a) :
    Follows perform (as.forM body) fun t _ => t = as.flatMap trace := by
  induction as with
  | nil =>
      apply mono (pure ())
      intro t _ ht
      exact ht.1
  | cons a as ih =>
      change Follows perform (body a >>= fun _ => as.forM body) _
      apply mono (bind (h a (by simp)) (fun _ => ih fun b hb => h b (List.mem_cons_of_mem _ hb))
        fun _ => ⟨_, (), rfl⟩)
      rintro t _ ⟨-, before, after, rfl, rfl, rfl⟩
      rfl

end Follows

/-- The trace of a collecting loop pairs the calls with the collected answers. -/
lemma Follows.collect [Inhabited ρ] (perform : κ → σ → Except ε ρ × σ) (c : α → κ)
    (as : List α) :
    Follows perform (collect perform c as) fun trace rs =>
      rs.length = as.length ∧ trace = (as.map c).zip rs := by
  induction as with
  | nil =>
      apply Follows.mono (Follows.pure [])
      rintro trace rs ⟨rfl, rfl⟩
      exact ⟨rfl, rfl⟩
  | cons a as ih =>
      have hrest : ∀ r, Follows perform
          (Lib.collect perform c as >>= fun rs => Pure.pure (r :: rs)) fun trace rs =>
            ∃ rest, rs = r :: rest ∧ rest.length = as.length ∧ trace = (as.map c).zip rest := by
        intro r
        apply Follows.mono (Follows.bind ih (fun rs => Follows.pure (r :: rs))
          fun rs => ⟨[], r :: rs, rfl, rfl⟩)
        rintro trace rs ⟨rest, before, after, ⟨hlength, rfl⟩, ⟨rfl, rfl⟩, rfl⟩
        exact ⟨rest, rfl, hlength, by simp⟩
      apply Follows.mono (Follows.bind (Follows.call (c a)) hrest fun r =>
        ⟨_, _, List.replicate as.length default, rfl, by simp, rfl⟩)
      rintro trace rs ⟨r, before, after, rfl, ⟨rest, rfl, hlength, rfl⟩, rfl⟩
      exact ⟨by simp [hlength], rfl⟩

end

end UniJit.Lib
