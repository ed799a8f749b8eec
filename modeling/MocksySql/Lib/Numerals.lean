import Mathlib.Algebra.Order.Ring.Nat
import Mathlib.Data.List.Basic
import Mathlib.Tactic.Ring
/-!
# Numerals as texts

A numeral is a list of digits of some base, the most significant first. As texts two numerals compare lexicographically:
not by their values, but by the fractions with the same digits (0.9 and 0.10 for 9 and 10).

* `lt_iff_fractionLt` — the order of the texts, in arithmetic.
-/

namespace Numerals

variable {α : Type} (digit : α → ℕ) (b : ℕ)

/-- The number a list of digits stands for. -/
def value : List α → ℕ
  | [] => 0
  | x :: xs => digit x * b ^ xs.length + value xs

/-- The symbols of `s` are digits of base `b`, sorted by the digits they are. -/
structure AreDigits [LT α] (s : α → Prop) : Prop where
  below : ∀ {x}, s x → digit x < b
  lt_iff : ∀ {x y}, s x → s y → (x < y ↔ digit x < digit y)
  inj : ∀ {x y}, s x → s y → digit x = digit y → x = y

/-- Of two numerals of `i` and `j` digits and the values `u` and `v`, the first is the smaller fraction of the two, or
the same one with fewer digits. -/
def fractionLt (u i v j : ℕ) : Prop :=
  u * b ^ (j - i) < v * b ^ (i - j) ∨ u * b ^ (j - i) = v * b ^ (i - j) ∧ i < j

instance (u i v j : ℕ) : Decidable (fractionLt b u i v j) := inferInstanceAs (Decidable (_ ∨ _))

variable {digit b}

theorem value_lt {xs : List α} (h : ∀ x ∈ xs, digit x < b) : value digit b xs < b ^ xs.length := by
  induction xs with
  | nil => simp [value]
  | cons x xs ih =>
    have hx := h x (by simp)
    have hxs := ih fun y hy => h y (by simp [hy])
    calc digit x * b ^ xs.length + value digit b xs < digit x * b ^ xs.length + b ^ xs.length := by omega
      _ = (digit x + 1) * b ^ xs.length := by ring
      _ ≤ b * b ^ xs.length := Nat.mul_le_mul_right _ hx
      _ = b ^ (x :: xs).length := by rw [List.length_cons, pow_succ]; ring

/-- One more digit in front, over the same power of the base. -/
theorem value_cons_shift (x : α) (xs : List α) (k : ℕ) :
    value digit b (x :: xs) * b ^ k = digit x * b ^ (xs.length + k) + value digit b xs * b ^ k := by
  rw [value, pow_add]
  ring

/-- The leading digit decides, whatever stays below its place. -/
theorem leading_lt {d e p u v : ℕ} (hde : d < e) (hu : u < p) : d * p + u < e * p + v := by
  have hplace : (d + 1) * p ≤ e * p := Nat.mul_le_mul_right p hde
  rw [Nat.succ_mul] at hplace
  omega

/-- **Texts of digits sort by the fractions** the digits stand for. -/
theorem lt_iff_fractionLt [LT α] {s : α → Prop} (hs : AreDigits digit b s) {xs ys : List α} (hx : ∀ x ∈ xs, s x)
    (hy : ∀ y ∈ ys, s y) :
    xs < ys ↔ fractionLt b (value digit b xs) xs.length (value digit b ys) ys.length := by
  induction xs generalizing ys with
  | nil =>
    cases ys with
    | nil => simp [fractionLt, value]
    | cons y ys =>
      simp only [List.nil_lt_cons, fractionLt, value.eq_1, List.length_nil, List.length_cons, zero_mul, true_iff]
      by_cases hzero : value digit b (y :: ys) * b ^ (0 - (ys.length + 1)) = 0
      · exact .inr ⟨hzero.symm, by omega⟩
      · exact .inl (by omega)
  | cons x xs ih =>
    cases ys with
    | nil => simp [fractionLt, value]
    | cons y ys =>
      rw [List.forall_mem_cons] at hx hy
      have ih := ih hx.2 hy.2
      have hplace : xs.length + (ys.length - xs.length) = ys.length + (xs.length - ys.length) := by omega
      have hu : value digit b xs * b ^ (ys.length - xs.length) < b ^ (xs.length + (ys.length - xs.length)) := by
        rw [pow_add]
        exact Nat.mul_lt_mul_of_pos_right (value_lt fun z hz => hs.below (hx.2 z hz))
          (Nat.pow_pos (by have := hs.below hx.1; omega))
      have hv : value digit b ys * b ^ (xs.length - ys.length) < b ^ (xs.length + (ys.length - xs.length)) := by
        rw [hplace, pow_add]
        exact Nat.mul_lt_mul_of_pos_right (value_lt fun z hz => hs.below (hy.2 z hz))
          (Nat.pow_pos (by have := hs.below hx.1; omega))
      rw [List.cons_lt_cons_iff, ih, fractionLt, fractionLt, List.length_cons, List.length_cons,
        Nat.add_sub_add_right, Nat.add_sub_add_right, value_cons_shift, value_cons_shift, ← hplace]
      rcases Nat.lt_trichotomy (digit x) (digit y) with hlt | heq | hgt
      · have := leading_lt (v := value digit b ys * b ^ (xs.length - ys.length)) hlt hu
        simp only [(hs.lt_iff hx.1 hy.1).2 hlt, true_or, true_iff]
        exact .inl this
      · cases hs.inj hx.1 hy.1 heq
        have hirrefl : ¬ x < x := by rw [hs.lt_iff hx.1 hx.1]; omega
        simp only [hirrefl, false_or, true_and, Nat.add_lt_add_iff_left, Nat.add_left_cancel_iff,
          Nat.add_lt_add_iff_right]
      · have := leading_lt (v := value digit b xs * b ^ (ys.length - xs.length)) hgt hv
        have hnot : ¬ x < y := by rw [hs.lt_iff hx.1 hy.1]; omega
        have hne : x ≠ y := by rintro rfl; omega
        simp only [hnot, hne, false_and, or_self, false_iff]
        omega

end Numerals
