import Mathlib.Data.List.Basic
/-!
# Batches

A writer collects chunks and, at every chunk with a mark, flushes what it has. The theory is over
any symbols.

* `batches_length` — one batch a mark.
* `batches_eq_singleton` — where the last chunk has a mark there is one batch, of everything, exactly if
  no chunk before it has one.
-/

namespace Batching

variable {α : Type}

/-- The batches flushed, and what is collected afterwards. -/
def batches : List α → List (List α × Bool) → List (List α) × List α
  | pending, [] => ([], pending)
  | pending, (chunk, false) :: rest => batches (pending ++ chunk) rest
  | pending, (chunk, true) :: rest => ((pending ++ chunk) :: (batches [] rest).1, (batches [] rest).2)

theorem batches_append (pending : List α) (ms ns : List (List α × Bool)) :
    batches pending (ms ++ ns) =
      ((batches pending ms).1 ++ (batches (batches pending ms).2 ns).1, (batches (batches pending ms).2 ns).2) := by
  fun_induction batches pending ms with
  | case1 pending => rfl
  | case2 pending chunk rest ih => rw [List.cons_append, batches, ih]
  | case3 pending chunk rest ih => rw [List.cons_append, batches, ih]; rfl

theorem batches_length (pending : List α) (ms : List (List α × Bool)) :
    (batches pending ms).1.length = ms.countP (·.2) := by
  fun_induction batches pending ms with
  | case1 pending => rfl
  | case2 pending chunk rest ih => simp [ih]
  | case3 pending chunk rest ih => simp [ih]

/-- Without a mark everything is only collected. -/
theorem batches_of_unmarked {pending : List α} {ms : List (List α × Bool)} (h : ∀ m ∈ ms, m.2 = false) :
    batches pending ms = ([], pending ++ ms.flatMap (·.1)) := by
  fun_induction batches pending ms with
  | case1 pending => simp
  | case2 pending chunk rest ih =>
    rw [ih fun m hm => h m (List.mem_cons_of_mem _ hm), List.flatMap_cons, List.append_assoc]
  | case3 pending chunk rest ih => exact absurd (h _ (List.mem_cons_self ..)) (by simp)

/-- **One batch**, of everything, exactly if no chunk before the last has a mark. -/
theorem batches_eq_singleton {pending last : List α} {ms : List (List α × Bool)} :
    (batches pending (ms ++ [(last, true)])).1 = [pending ++ ms.flatMap (·.1) ++ last] ↔ ∀ m ∈ ms, m.2 = false := by
  constructor
  · intro h
    have hlen := congrArg List.length h
    rw [batches_length, List.countP_append, List.countP_singleton] at hlen
    have hzero : ms.countP (·.2) = 0 := by simpa using hlen
    intro m hm
    simpa using List.countP_eq_zero.1 hzero m hm
  · intro h
    rw [batches_append, batches_of_unmarked h]
    rfl

end Batching
