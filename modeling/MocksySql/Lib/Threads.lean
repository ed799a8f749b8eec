import Mathlib.Logic.Function.Basic
import MocksySql.Lib.Run
/-!
# Threads over a shared state

A thread `act : τ → σ → Option (τ × σ)` takes one atomic step on the shared state; `none` is a thread
that has ended, or has panicked. Any number of threads run in any order, and the environment may
change the shared state between their steps.

* `outline` — the rule of Owicki and Gries: what each thread's own steps, the other threads' steps and the
  environment keep of every thread, every run keeps.
-/

namespace Threads
open PartialRun

variable {ι σ τ ε : Type} [DecidableEq ι]

structure Config (ι σ τ : Type) where
  shared : σ
  threads : ι → τ

/-- Who takes the next step. -/
inductive Label (ι ε : Type) where
  | thread (i : ι)
  | environment (e : ε)

/-- One atomic step. -/
def step (act : τ → σ → Option (τ × σ)) (change : ε → σ → σ) (c : Config ι σ τ) : Label ι ε → Option (Config ι σ τ × Unit)
  | .thread i => (act (c.threads i) c.shared).map fun (t, s) =>
      ({ shared := s, threads := Function.update c.threads i t }, ())
  | .environment e => some ({ c with shared := change e c.shared }, ())

variable {act : τ → σ → Option (τ × σ)} {change : ε → σ → σ}

theorem step_thread {c c' : Config ι σ τ} {i : ι} {o : Unit} (h : step act change c (.thread i) = some (c', o)) :
    ∃ t s, act (c.threads i) c.shared = some (t, s) ∧ c' = { shared := s, threads := Function.update c.threads i t } := by
  obtain ⟨⟨t, s⟩, hact, he⟩ := Option.map_eq_some_iff.1 h
  cases he
  exact ⟨t, s, hact, rfl⟩

section Outline
variable {P : ι → τ → σ → Prop} {G : τ → σ → Prop}

/-- What one step keeps of every thread, when a step is only taken where `G` holds. -/
theorem step_outline (hown : ∀ i t s t' s', P i t s → G t s → act t s = some (t', s') → P i t' s')
    (hother : ∀ i j t u s u' s', i ≠ j → P i t s → P j u s → G u s → act u s = some (u', s') → P i t s')
    (hchange : ∀ i t s e, P i t s → P i t (change e s)) {c c' : Config ι σ τ} {l : Label ι ε} {o : Unit}
    (hguard : ∀ i, l = .thread i → G (c.threads i) c.shared) (hc : ∀ i, P i (c.threads i) c.shared)
    (h : step act change c l = some (c', o)) : ∀ i, P i (c'.threads i) c'.shared := by
  intro i
  cases l with
  | environment e => cases h; exact hchange i _ _ e (hc i)
  | thread j =>
    obtain ⟨u, s, hact, rfl⟩ := step_thread h
    by_cases hij : i = j
    · subst hij
      simpa using hown i _ _ _ _ (hc i) (hguard i rfl) hact
    · simpa [Function.update_of_ne hij] using hother i j _ _ _ _ _ hij (hc i) (hc j) (hguard j rfl) hact

/-- **The rule of Owicki and Gries**, for runs whose steps are all guarded. -/
theorem outline (hown : ∀ i t s t' s', P i t s → G t s → act t s = some (t', s') → P i t' s')
    (hother : ∀ i j t u s u' s', i ≠ j → P i t s → P j u s → G u s → act u s = some (u', s') → P i t s')
    (hchange : ∀ i t s e, P i t s → P i t (change e s)) {labels : List (Label ι ε)} :
    ∀ {c c' : Config ι σ τ} {outs : List Unit},
      (∀ e ∈ transcript (step act change) c labels, ∀ i, e.input = .thread i → G (e.before.threads i) e.before.shared) →
      (∀ i, P i (c.threads i) c.shared) → run (step act change) c labels = some (c', outs) →
      ∀ i, P i (c'.threads i) c'.shared := by
  induction labels with
  | nil => intro c c' outs _ hc h; cases h; exact hc
  | cons l labels ih =>
    intro c c' outs hguard hc h
    obtain ⟨c₁, o, os, hl, hrest, -⟩ := run_cons_some h
    rw [transcript_cons hl] at hguard
    refine ih (fun e he => hguard e (List.mem_cons_of_mem _ he)) ?_ hrest
    exact step_outline hown hother hchange (hguard _ (List.mem_cons_self ..)) hc hl

end Outline

end Threads
