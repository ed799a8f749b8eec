import Mathlib.Data.List.Basic
/-!
# Cutting a stream into items, one read at a time

A reader receives a stream in reads of any size. From what it holds it takes items off the front
while it can, and keeps the residual for the next read. The theory is over any symbols `τ` and
items `α`; the only assumption on the reader is that it is *prefix-stable*: an item that can be
taken is not changed by what arrives later.

* `Splitter.split_append` — splitting `xs ++ ys` is splitting `xs`, then its residual with `ys`.
* `Splitter.feed_eq_split` — feeding reads one by one gives the items and the residual of the
  whole stream, however it is cut.
* `Splitter.residuals` — what is held after each read.
* `Splitter.render_split` — where items can be written back, the items taken and the residual
  are the stream.
* `Splitter.split_render`, `Splitter.feed_render` — a stream of written items splits into exactly these
  items, and one a read if they arrive so.
-/

namespace ByteStream

/-- A prefix-stable reader of items off the front of a stream; `none` asks for more input. -/
structure Splitter (τ α : Type) where
  next : List τ → Option (α × List τ)
  shorter : ∀ {xs a rest}, next xs = some (a, rest) → rest.length < xs.length
  stable : ∀ {xs a rest} ys, next xs = some (a, rest) → next (xs ++ ys) = some (a, rest ++ ys)

namespace Splitter

variable {τ α : Type} (s : Splitter τ α)

/-- All the items that can be taken, and the residual. -/
def split (xs : List τ) : List α × List τ :=
  match h : s.next xs with
  | none => ([], xs)
  | some (a, rest) =>
    have := s.shorter h
    ((a :: (split rest).1), (split rest).2)
termination_by xs.length

theorem split_of_none {xs : List τ} (h : s.next xs = none) : s.split xs = ([], xs) := by
  rw [split]; split
  · rfl
  · rename_i heq; rw [h] at heq; cases heq

theorem split_of_some {xs rest : List τ} {a : α} (h : s.next xs = some (a, rest)) :
    s.split xs = (a :: (s.split rest).1, (s.split rest).2) := by
  rw [split]; split
  · rename_i heq; rw [h] at heq; cases heq
  · rename_i heq; rw [h] at heq; cases heq; rfl

theorem next_nil : s.next [] = none := by
  cases h : s.next [] with
  | none => rfl
  | some p => exact absurd (s.shorter h) (Nat.not_lt_zero _)

@[simp] theorem split_nil : s.split [] = ([], []) := s.split_of_none s.next_nil

/-- The rule for an induction along the items: the residual, then one item at a time. -/
theorem split_induction {P : List τ → Prop} (done : ∀ xs, s.next xs = none → P xs)
    (item : ∀ xs a rest, s.next xs = some (a, rest) → P rest → P xs) (xs : List τ) : P xs := by
  induction h : xs.length using Nat.strongRecOn generalizing xs with
  | _ n ih =>
    cases hs : s.next xs with
    | none => exact done xs hs
    | some p => exact item xs p.1 p.2 hs (ih _ (h ▸ s.shorter hs) p.2 rfl)

/-- What the reader takes of any stream, it takes of this one. -/
theorem forall_mem_split {P : α → Prop} (h : ∀ xs a rest, s.next xs = some (a, rest) → P a) (xs : List τ) :
    ∀ a ∈ (s.split xs).1, P a := by
  induction xs using s.split_induction with
  | done xs hnext => rw [s.split_of_none hnext]; exact List.forall_mem_nil P
  | item xs a rest hnext ih =>
    rw [s.split_of_some hnext, List.forall_mem_cons]
    exact ⟨h xs a rest hnext, ih⟩

/-- **Splitting restarts from the residual.** -/
theorem split_append (xs ys : List τ) :
    s.split (xs ++ ys) =
      ((s.split xs).1 ++ (s.split ((s.split xs).2 ++ ys)).1, (s.split ((s.split xs).2 ++ ys)).2) := by
  induction xs using s.split_induction with
  | done xs h => rw [s.split_of_none h]; simp
  | item xs a rest h ih => rw [s.split_of_some h, s.split_of_some (s.stable ys h), ih]; simp

/-- What is shorter than the first item holds no item. -/
theorem split_of_part {xs ys rest : List τ} {a : α} (h : s.next (xs ++ ys) = some (a, rest))
    (hshort : rest.length < ys.length) : s.split xs = ([], xs) := by
  apply s.split_of_none
  cases hx : s.next xs with
  | none => rfl
  | some p =>
    have hstable := s.stable ys hx
    rw [h] at hstable
    cases hstable
    rw [List.length_append] at hshort
    omega

/-- No item can be taken off a residual. -/
theorem next_residual (xs : List τ) : s.next (s.split xs).2 = none := by
  induction xs using s.split_induction with
  | done xs h => rw [s.split_of_none h]; exact h
  | item xs a rest h ih => rw [s.split_of_some h]; exact ih

/-- Reads arriving one by one, the residual of each put in front of the next: the items each read
completes, and the last residual. -/
def feed : List τ → List (List τ) → List (List α) × List τ
  | pending, [] => ([], pending)
  | pending, c :: cs =>
    ((s.split (pending ++ c)).1 :: (feed (s.split (pending ++ c)).2 cs).1, (feed (s.split (pending ++ c)).2 cs).2)

/-- **The cut does not matter**: feeding the reads is splitting their concatenation. -/
theorem feed_eq_split : ∀ {pending : List τ} (cs : List (List τ)), s.next pending = none →
    (s.feed pending cs).1.flatten = (s.split (pending ++ cs.flatten)).1 ∧
      (s.feed pending cs).2 = (s.split (pending ++ cs.flatten)).2
  | pending, [], h => by simp [feed, s.split_of_none h]
  | pending, c :: cs, _ => by
    obtain ⟨h₁, h₂⟩ := feed_eq_split cs (s.next_residual (pending ++ c))
    rw [List.flatten_cons, ← List.append_assoc, s.split_append (pending ++ c)]
    simp only [feed, List.flatten_cons, h₁, h₂, and_self]

/-- The residual after each read. -/
def residuals : List τ → List (List τ) → List (List τ)
  | _, [] => []
  | pending, c :: cs => (s.split (pending ++ c)).2 :: residuals (s.split (pending ++ c)).2 cs

@[simp] theorem residuals_length (pending : List τ) (cs : List (List τ)) :
    (s.residuals pending cs).length = cs.length := by
  induction cs generalizing pending with
  | nil => rfl
  | cons c cs ih => simp [residuals, ih]

/-- The last one is the residual of the whole stream. -/
theorem residuals_getLast? : ∀ {pending : List τ} (cs : List (List τ)), s.next pending = none → cs ≠ [] →
    (s.residuals pending cs).getLast? = some (s.split (pending ++ cs.flatten)).2
  | _, [], _, h => absurd rfl h
  | pending, [c], _, _ => by simp [residuals]
  | pending, c :: c' :: cs, _, _ => by
    have ih := residuals_getLast? (c' :: cs) (s.next_residual (pending ++ c)) (by simp)
    have hstream : pending ++ (c :: c' :: cs).flatten = (pending ++ c) ++ (c' :: cs).flatten := by simp
    rw [residuals, List.getLast?_cons, ih, hstream, s.split_append (pending ++ c)]
    rfl

section Render
variable (render : α → List τ)

/-- **Nothing lost, duplicated, reordered or altered**: the items, written back, and the residual
are the stream. -/
theorem render_split (hr : ∀ xs a rest, s.next xs = some (a, rest) → xs = render a ++ rest)
    (xs : List τ) : (s.split xs).1.flatMap render ++ (s.split xs).2 = xs := by
  induction xs using s.split_induction with
  | done xs h => rw [s.split_of_none h]; rfl
  | item xs a rest h ih =>
    rw [s.split_of_some h, List.flatMap_cons, List.append_assoc, ih]
    exact (hr xs a rest h).symm

/-- A stream of written items splits into these items and what follows them. -/
theorem split_render (tail : List τ) (as : List α)
    (hr : ∀ a ∈ as, ∀ rest, s.next (render a ++ rest) = some (a, rest)) :
    s.split (as.flatMap render ++ tail) = (as ++ (s.split tail).1, (s.split tail).2) := by
  induction as with
  | nil => rfl
  | cons a as ih =>
    rw [List.flatMap_cons, List.append_assoc, s.split_of_some (hr a (by simp) _),
      ih fun b hb => hr b (by simp [hb])]
    rfl

/-- Written items that arrive one a read are taken one a read. -/
theorem feed_render (as : List α) (hr : ∀ a ∈ as, ∀ rest, s.next (render a ++ rest) = some (a, rest)) :
    s.feed [] (as.map render) = (as.map ([·]), []) := by
  induction as with
  | nil => rfl
  | cons a as ih =>
    have hsplit : s.split ([] ++ render a) = ([a], []) := by
      have h := s.split_render render [] [a] fun b hb rest => hr b (by simp_all) rest
      simpa using h
    rw [List.map_cons, feed, hsplit, ih fun b hb => hr b (by simp [hb])]
    rfl

end Render

end Splitter

end ByteStream
