import Mathlib.Data.List.Basic
/-!
# Loops

A loop goes round by `step : σ → Round σ ρ`: a round crashes, ends it with a result, or goes round again from another
state. `loop` has fuel for so many rounds, `Stops` says that some fuel is enough.

* `loop_mono` — more fuel changes nothing.
* `isSome_loop` — what counts down to zero stops.
* `not_stops`, `loop_ne_done` — what always goes round again does not stop, and has no result.
-/

namespace FuelLoop

variable {σ ρ : Type}

inductive Round (σ ρ : Type) where
  | crash
  | done (result : ρ)
  | again (next : σ)

/-- `none` is out of fuel, `some none` a crash. -/
def loop (step : σ → Round σ ρ) : Nat → σ → Option (Option ρ)
  | 0, _ => none
  | fuel + 1, s =>
    match step s with
    | .crash => some none
    | .done r => some (some r)
    | .again s' => loop step fuel s'

/-- After finitely many rounds the loop is over, with a result or a crash. -/
def Stops (step : σ → Round σ ρ) (s : σ) : Prop := ∃ fuel, (loop step fuel s).isSome

variable {step : σ → Round σ ρ}

theorem loop_again {s s' : σ} (h : step s = .again s') (fuel : Nat) : loop step (fuel + 1) s = loop step fuel s' := by
  rw [loop, h]

/-- A round from which the loop does not go on is the last. -/
theorem isSome_loop_last {s : σ} (h : ∀ s', step s ≠ .again s') (fuel : Nat) : (loop step (fuel + 1) s).isSome := by
  rw [loop]
  cases hs : step s with
  | crash => rfl
  | done r => rfl
  | again s' => exact absurd hs (h s')

/-- **More fuel changes nothing.** -/
theorem loop_mono {m n : Nat} {s : σ} {r : Option ρ} (h : loop step m s = some r) (hmn : m ≤ n) :
    loop step n s = some r := by
  induction m generalizing n s with
  | zero => cases h
  | succ m ih =>
    obtain ⟨n, rfl⟩ : ∃ k, n = k + 1 := ⟨n - 1, by omega⟩
    rw [loop] at h ⊢
    cases hs : step s with
    | crash => rw [hs] at h; exact h
    | done r' => rw [hs] at h; exact h
    | again s' =>
      rw [hs] at h
      exact ih h (by omega)

/-- **What counts down stops**, within a round more than it has to count. -/
theorem isSome_loop {I : σ → Prop} {rank : σ → Nat}
    (hstep : ∀ s s', I s → step s = .again s' → I s' ∧ rank s' < rank s) :
    ∀ {fuel : Nat} {s : σ}, I s → rank s < fuel → (loop step fuel s).isSome
  | fuel + 1, s, hs, hfuel => by
    by_cases hagain : ∃ s', step s = .again s'
    · obtain ⟨s', hs'⟩ := hagain
      obtain ⟨hI, hrank⟩ := hstep s s' hs hs'
      rw [loop_again hs']
      exact isSome_loop hstep hI (by omega)
    · exact isSome_loop_last (fun s' hs' => hagain ⟨s', hs'⟩) fuel

/-- A loop that never ends by itself has no result, whatever the fuel. -/
theorem loop_ne_done {I : σ → Prop} (hstep : ∀ s, I s → step s = .crash ∨ ∃ s', step s = .again s' ∧ I s') :
    ∀ {fuel : Nat} {s : σ} {r : ρ}, I s → loop step fuel s ≠ some (some r)
  | 0, _, _, _ => by simp [loop]
  | fuel + 1, s, r, hs => by
    rcases hstep s hs with hcrash | ⟨s', hs', hI⟩
    · simp [loop, hcrash]
    · rw [loop_again hs']
      exact loop_ne_done hstep hI

/-- **What always goes round again does not stop.** -/
theorem not_stops {I : σ → Prop} (hstep : ∀ s, I s → ∃ s', step s = .again s' ∧ I s') {s : σ} (hs : I s) :
    ¬ Stops step s := by
  rintro ⟨fuel, hstops⟩
  induction fuel generalizing s with
  | zero => cases hstops
  | succ fuel ih =>
    obtain ⟨s', hs', hI⟩ := hstep s hs
    rw [loop_again hs'] at hstops
    exact ih hI hstops

end FuelLoop
