import Mathlib.Data.List.Basic
/-!
# Runs of a partial step function

A machine `step : σ → ι → Option (σ × ω)` takes a state and an input to the next state and an
output; `none` is a crash. `run` feeds it a list of inputs. `transcript` is what an observer
sees: every step taken, up to the crash if there is one.

* `run_append` — a run splits where its inputs split.
* `run_invariant`, `transcript_invariant` — what every step keeps, every run keeps.
* `run_history` — what every step adds to the past, along a whole run.
* `run_map` — a run along a map of the states.
* `transcript_view` — two runs that look alike at the start look alike throughout.
* `run_lockstep` — two runs side by side.
-/

namespace PartialRun

variable {σ ι ω : Type}

def run (step : σ → ι → Option (σ × ω)) : σ → List ι → Option (σ × List ω)
  | s, [] => some (s, [])
  | s, i :: is =>
    match step s i with
    | none => none
    | some (s', o) => (run step s' is).map fun r => (r.1, o :: r.2)

structure Step (σ ι ω : Type) where
  before : σ
  input : ι
  after : σ
  output : ω

/-- The steps taken. -/
def transcript (step : σ → ι → Option (σ × ω)) : σ → List ι → List (Step σ ι ω)
  | _, [] => []
  | s, i :: is =>
    match step s i with
    | none => []
    | some (s', o) => ⟨s, i, s', o⟩ :: transcript step s' is

variable {step : σ → ι → Option (σ × ω)}

@[simp] theorem run_nil (s : σ) : run step s [] = some (s, []) := rfl

theorem run_cons_some {s s' : σ} {i : ι} {is : List ι} {os : List ω}
    (h : run step s (i :: is) = some (s', os)) :
    ∃ s₁ o os', step s i = some (s₁, o) ∧ run step s₁ is = some (s', os') ∧ os = o :: os' := by
  rw [run] at h
  cases hs : step s i with
  | none => rw [hs] at h; cases h
  | some r =>
    rw [hs] at h
    obtain ⟨⟨s₂, os'⟩, hr, he⟩ := Option.map_eq_some_iff.1 h
    cases he
    exact ⟨r.1, r.2, os', rfl, hr, rfl⟩

theorem run_cons {s s₁ : σ} {i : ι} {is : List ι} {o : ω} (h : step s i = some (s₁, o)) :
    run step s (i :: is) = (run step s₁ is).map fun r => (r.1, o :: r.2) := by
  rw [run, h]

theorem run_singleton (s : σ) (i : ι) : run step s [i] = (step s i).map fun r => (r.1, [r.2]) := by
  rw [run]; cases step s i <;> rfl

/-- A run splits where its inputs split. -/
theorem run_append (s : σ) (is js : List ι) :
    run step s (is ++ js) =
      (run step s is).bind fun r => (run step r.1 js).map fun q => (q.1, r.2 ++ q.2) := by
  induction is generalizing s with
  | nil => simp [run]
  | cons i is ih =>
    rw [List.cons_append, run, run]
    cases step s i with
    | none => rfl
    | some r =>
      simp only [ih]
      cases run step r.1 is with
      | none => rfl
      | some q => simp only [Option.bind_some, Option.map_some, Option.map_map]; rfl

theorem run_append_some {s s' s₁ : σ} {is js : List ι} {os ps : List ω}
    (h₁ : run step s is = some (s₁, os)) (h₂ : run step s₁ js = some (s', ps)) :
    run step s (is ++ js) = some (s', os ++ ps) := by
  rw [run_append, h₁, Option.bind_some, h₂]; rfl

theorem run_concat_some {s s₁ s' : σ} {is : List ι} {i : ι} {os : List ω} {o : ω}
    (h₁ : run step s is = some (s₁, os)) (h₂ : step s₁ i = some (s', o)) :
    run step s (is ++ [i]) = some (s', os ++ [o]) :=
  run_append_some h₁ (by rw [run_singleton, h₂]; rfl)

theorem run_append_split {s s' : σ} {is js : List ι} {os : List ω}
    (h : run step s (is ++ js) = some (s', os)) :
    ∃ s₁ os₁ os₂, run step s is = some (s₁, os₁) ∧ run step s₁ js = some (s', os₂) ∧ os = os₁ ++ os₂ := by
  rw [run_append] at h
  obtain ⟨⟨s₁, os₁⟩, h₁, h⟩ := Option.bind_eq_some_iff.1 h
  obtain ⟨⟨s₂, os₂⟩, h₂, h⟩ := Option.map_eq_some_iff.1 h
  cases h
  exact ⟨s₁, os₁, os₂, h₁, h₂, rfl⟩

/-- The last step of a run. -/
theorem run_concat_split {s s' : σ} {is : List ι} {i : ι} {os : List ω}
    (h : run step s (is ++ [i]) = some (s', os)) :
    ∃ s₁ os₁ o, run step s is = some (s₁, os₁) ∧ step s₁ i = some (s', o) ∧ os = os₁ ++ [o] := by
  obtain ⟨s₁, os₁, os₂, hinit, hlast, rfl⟩ := run_append_split h
  rw [run_singleton] at hlast
  obtain ⟨⟨s₂, o⟩, hstep, he⟩ := Option.map_eq_some_iff.1 hlast
  cases he
  exact ⟨s₁, os₁, o, hinit, hstep, rfl⟩

theorem run_length {s s' : σ} {is : List ι} {os : List ω} (h : run step s is = some (s', os)) :
    os.length = is.length := by
  induction is generalizing s os with
  | nil => cases h; rfl
  | cons i is ih =>
    obtain ⟨s₁, o, os', _, hr, rfl⟩ := run_cons_some h
    simp [ih hr]

/-- **What every step keeps, every run keeps.** -/
theorem run_invariant {I : σ → Prop} {s s' : σ} {is : List ι} {os : List ω}
    (hstep : ∀ s, ∀ i ∈ is, ∀ s' o, I s → step s i = some (s', o) → I s') (hs : I s)
    (h : run step s is = some (s', os)) : I s' := by
  induction is generalizing s os with
  | nil => cases h; exact hs
  | cons i is ih =>
    obtain ⟨s₁, o, os', h₁, hr, rfl⟩ := run_cons_some h
    exact ih (fun s i hi => hstep s i (List.mem_cons_of_mem _ hi)) (hstep s i (by simp) s₁ o hs h₁) hr

theorem transcript_cons {s s' : σ} {i : ι} {is : List ι} {o : ω} (h : step s i = some (s', o)) :
    transcript step s (i :: is) = ⟨s, i, s', o⟩ :: transcript step s' is := by
  rw [transcript, h]

theorem transcript_append {s s' : σ} {is js : List ι} {os : List ω} (h : run step s is = some (s', os)) :
    transcript step s (is ++ js) = transcript step s is ++ transcript step s' js := by
  induction is generalizing s os with
  | nil => cases h; rfl
  | cons i is ih =>
    obtain ⟨s₁, o, os', h₁, hr, rfl⟩ := run_cons_some h
    rw [List.cons_append, transcript_cons h₁, transcript_cons h₁, ih hr, List.cons_append]

/-- The transcript of a run that does not crash has all its inputs and outputs. -/
theorem transcript_of_run {s s' : σ} {is : List ι} {os : List ω} (h : run step s is = some (s', os)) :
    (transcript step s is).map (·.input) = is ∧ (transcript step s is).map (·.output) = os := by
  induction is generalizing s os with
  | nil => cases h; exact ⟨rfl, rfl⟩
  | cons i is ih =>
    obtain ⟨s₁, o, os', h₁, hr, rfl⟩ := run_cons_some h
    obtain ⟨hi, ho⟩ := ih hr
    rw [transcript_cons h₁]
    exact ⟨congrArg (i :: ·) hi, congrArg (o :: ·) ho⟩

/-- The outputs seen are those of the run up to the crash, if there is one. -/
theorem transcript_outputs (s : σ) (is : List ι) : ∃ pre post s' os, is = pre ++ post ∧
    run step s pre = some (s', os) ∧ (transcript step s is).map (·.output) = os := by
  induction is generalizing s with
  | nil => exact ⟨[], [], s, [], rfl, rfl, rfl⟩
  | cons i is ih =>
    cases hs : step s i with
    | none => exact ⟨[], i :: is, s, [], rfl, rfl, by rw [transcript, hs]; rfl⟩
    | some r =>
      obtain ⟨pre, post, s', os, rfl, hrun, hos⟩ := ih r.1
      refine ⟨i :: pre, post, s', r.2 :: os, rfl, ?_, ?_⟩
      · rw [run_cons hs, hrun]; rfl
      · rw [transcript_cons hs, List.map_cons, hos]

/-- Every entry of a transcript is a step on one of the inputs, from a state the invariant holds of
to one it holds of. -/
theorem transcript_invariant {I : σ → Prop} {s : σ} {is : List ι}
    (hstep : ∀ s, ∀ i ∈ is, ∀ s' o, I s → step s i = some (s', o) → I s') (hs : I s) :
    ∀ e ∈ transcript step s is,
      e.input ∈ is ∧ step e.before e.input = some (e.after, e.output) ∧ I e.before ∧ I e.after := by
  induction is generalizing s with
  | nil => intro e he; cases he
  | cons i is ih =>
    intro e he
    cases h : step s i with
    | none => rw [transcript, h] at he; cases he
    | some r =>
      rw [transcript_cons h] at he
      have hI := hstep s i (by simp) r.1 r.2 hs h
      rcases List.mem_cons.1 he with rfl | he
      · exact ⟨by simp, h, hs, hI⟩
      · obtain ⟨hi, hrest⟩ := ih (fun s i hi => hstep s i (List.mem_cons_of_mem _ hi)) hI e he
        exact ⟨List.mem_cons_of_mem _ hi, hrest⟩

theorem transcript_step {s : σ} {is : List ι} :
    ∀ e ∈ transcript step s is, e.input ∈ is ∧ step e.before e.input = some (e.after, e.output) := fun e he =>
  let h := transcript_invariant (I := fun _ => True) (fun _ _ _ _ _ _ _ => trivial) trivial e he
  ⟨h.1, h.2.1⟩

/-- A step of a transcript parts the run. -/
theorem transcript_split : ∀ {is : List ι} {s : σ} {earlier later : List (Step σ ι ω)} {e : Step σ ι ω},
    transcript step s is = earlier ++ e :: later →
      ∃ is₁ os, run step s is₁ = some (e.before, os) ∧ transcript step s is₁ = earlier ∧
        step e.before e.input = some (e.after, e.output)
  | [], _, earlier, _, _, h => by cases earlier <;> cases h
  | i :: is, s, earlier, later, e, h => by
    cases hs : step s i with
    | none => rw [transcript, hs] at h; cases earlier <;> cases h
    | some r =>
      rw [transcript_cons hs] at h
      cases earlier with
      | nil =>
        obtain ⟨rfl, -⟩ := List.cons.inj h
        exact ⟨[], [], rfl, rfl, hs⟩
      | cons d earlier =>
        obtain ⟨rfl, htail⟩ := List.cons.inj h
        obtain ⟨is₁, os, hrun, htranscript, he⟩ := transcript_split htail
        exact ⟨i :: is₁, r.2 :: os, by rw [run_cons hs, hrun]; rfl, by rw [transcript_cons hs, htranscript], he⟩

/-- **What every step adds to the past.** `J` relates the steps taken to the state they led to, and `C` is asked
of every step and the steps before it. -/
theorem run_history {J : List (Step σ ι ω) → σ → Prop} {C : List (Step σ ι ω) → Step σ ι ω → Prop}
    (hstep : ∀ past s i s' o, J past s → step s i = some (s', o) → C past ⟨s, i, s', o⟩ →
      J (past ++ [⟨s, i, s', o⟩]) s') :
    ∀ {is : List ι} {s s' : σ} {os : List ω} {past : List (Step σ ι ω)}, J past s →
      (∀ earlier e later, transcript step s is = earlier ++ e :: later → C (past ++ earlier) e) →
      run step s is = some (s', os) → J (past ++ transcript step s is) s'
  | [], _, _, _, past, hJ, _, h => by
    cases h
    rwa [transcript, List.append_nil]
  | i :: is, s, s', os, past, hJ, hC, h => by
    obtain ⟨s₁, o, os, hs, hrest, rfl⟩ := run_cons_some h
    rw [transcript_cons hs] at hC ⊢
    have hfirst : C past ⟨s, i, s₁, o⟩ := by
      have := hC [] _ _ rfl
      rwa [List.append_nil] at this
    have hnext := run_history hstep (hstep past s i s₁ o hJ hs hfirst) (fun earlier e later htail => by
      have := hC (⟨s, i, s₁, o⟩ :: earlier) e later (by rw [htail]; rfl)
      rwa [List.append_cons] at this) hrest
    rwa [List.append_assoc] at hnext

/-- A map of the states that every step goes along with, every run goes along with. -/
theorem run_map {τ : Type} {step' : τ → ι → Option (τ × ω)} {f : σ → τ}
    (hstep : ∀ {s i s' o}, step s i = some (s', o) → step' (f s) i = some (f s', o)) {is : List ι} {s s' : σ} {os : List ω}
    (h : run step s is = some (s', os)) : run step' (f s) is = some (f s', os) := by
  induction is generalizing s os with
  | nil => cases h; rfl
  | cons i is ih =>
    obtain ⟨s₁, o, os, h₁, hr, rfl⟩ := run_cons_some h
    rw [run_cons (hstep h₁), ih hr]
    rfl

/-- **Two runs, one view.** Where what is seen of a state and of an input determines what is seen of the
next state, two runs that look alike at the start and in their inputs look alike in every step. -/
theorem transcript_view {ρ κ : Type} (view : σ → ρ) (look : ι → κ) (next : ρ → κ → Option ρ)
    (hview : ∀ s i s' o, step s i = some (s', o) → next (view s) (look i) = some (view s')) :
    ∀ {is js : List ι} {s s' t t' : σ} {os ps : List ω}, view s = view t → is.map look = js.map look →
      run step s is = some (s', os) → run step t js = some (t', ps) →
      List.Forall₂ (fun e d => look e.input = look d.input ∧ view e.after = view d.after ∧
        step e.before e.input = some (e.after, e.output) ∧ step d.before d.input = some (d.after, d.output))
        (transcript step s is) (transcript step t js)
  | [], [], _, _, _, _, _, _, _, _, _, _ => .nil
  | [], _ :: _, _, _, _, _, _, _, _, hi, _, _ => by cases hi
  | _ :: _, [], _, _, _, _, _, _, _, hi, _, _ => by cases hi
  | i :: is, j :: js, s, s', t, t', os, ps, hs, hi, hr, hq => by
    obtain ⟨s₁, o, os, hstep, hrs, rfl⟩ := run_cons_some hr
    obtain ⟨t₁, p, ps, htep, hqs, rfl⟩ := run_cons_some hq
    obtain ⟨hhead, htail⟩ := List.cons.inj hi
    have hnext : view s₁ = view t₁ := by
      rw [← Option.some_inj, ← hview _ _ _ _ hstep, ← hview _ _ _ _ htep, hs, hhead]
    rw [transcript_cons hstep, transcript_cons htep]
    exact .cons ⟨hhead, hnext, hstep, htep⟩ (transcript_view view look next hview hnext htail hrs hqs)

/-- **Two runs in lockstep.** Where related steps lead from related states to related states, two runs on related inputs
are related step by step. -/
theorem run_lockstep {τ κ υ : Type} {step' : τ → κ → Option (τ × υ)} {R : σ → τ → Prop} {Q : ι → κ → Prop}
    {P : Step σ ι ω → Step τ κ υ → Prop}
    (hstep : ∀ s i s' o t j t' p, R s t → Q i j → step s i = some (s', o) → step' t j = some (t', p) →
      R s' t' ∧ P ⟨s, i, s', o⟩ ⟨t, j, t', p⟩) :
    ∀ {is : List ι} {js : List κ} {s s' : σ} {t t' : τ} {os : List ω} {ps : List υ}, R s t → List.Forall₂ Q is js →
      run step s is = some (s', os) → run step' t js = some (t', ps) →
      R s' t' ∧ List.Forall₂ P (transcript step s is) (transcript step' t js)
  | [], _, _, _, _, _, _, _, hs, .nil, hr, hq => by cases hr; cases hq; exact ⟨hs, .nil⟩
  | i :: is, _, s, s', t, t', os, ps, hs, .cons hi his, hr, hq => by
    obtain ⟨s₁, o, os, hfirst, hrs, rfl⟩ := run_cons_some hr
    obtain ⟨t₁, p, ps, hfirst', hqs, rfl⟩ := run_cons_some hq
    obtain ⟨hnext, hP⟩ := hstep _ _ _ _ _ _ _ _ hs hi hfirst hfirst'
    obtain ⟨hlast, hrest⟩ := run_lockstep hstep hnext his hrs hqs
    rw [transcript_cons hfirst, transcript_cons hfirst']
    exact ⟨hlast, .cons hP hrest⟩

end PartialRun
