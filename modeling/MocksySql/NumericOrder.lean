import Mathlib.Data.Nat.Digits.Defs
import MocksySql.Evaluator
import MocksySql.Lib.Numerals
/-!
# Numbers, compared

A field of a text row is the decimal text of a number, and a numeric literal is kept as its digits (`evaluator.rs:52`);
a comparison compares the two texts.

* `numeral_lt_iff` — the order of two texts, in arithmetic.
* `numeric_comparison_iff` — which comparisons of integers come out right.
-/

namespace MocksySql

/-! ## Decimal texts -/

/-- The digits of `n`, behind leading zeros. -/
def decimalDigits (zeros n : ℕ) : List Char := List.replicate zeros '0' ++ Nat.toDigits 10 n

def numeral (zeros : ℕ) (n : ℤ) : String :=
  String.ofList (if n < 0 then '-' :: decimalDigits zeros n.natAbs else decimalDigits zeros n.natAbs)

/-- Without leading zeros it is the canonical text. -/
theorem toString_eq_numeral (n : ℤ) : toString n = numeral 0 n := by
  cases n with
  | ofNat k => rfl
  | negSucc k =>
    rw [numeral, if_pos (Int.negSucc_lt_zero k)]
    apply String.toList_injective
    simp [decimalDigits, toString, Int.repr]

/-- A numeric expression and the leading zeros it is written with. A minus sign is an operator, which the evaluator does
not know (`_ => Err(..)`). -/
inductive Writes (row : Row) (n : ℤ) : ℕ → Expr → Prop
  | column {ident} : row.lookup ident.value = some (some (toString n)) → Writes row n 0 (.identifier ident)
  | qualified {idents ident} : idents.getLast? = some ident → row.lookup ident.value = some (some (toString n)) →
      Writes row n 0 (.compoundIdentifier idents)
  | literal (zeros) : 0 ≤ n → Writes row n zeros (.value (.number (numeral zeros n)))
  | negative (zeros) : n < 0 → Writes row n zeros .other

theorem Writes.evaluate {row : Row} {n : ℤ} {zeros : ℕ} {e : Expr} (h : Writes row n zeros e) :
    Parse.evaluate row e =
      some (if e = .other then .error "Unsupported expression" else .ok (.string (some (numeral zeros n)))) := by
  cases h with
  | column hlookup =>
    rw [toString_eq_numeral] at hlookup
    simp [Parse.evaluate, Parse.column, hlookup]
  | qualified hlast hlookup =>
    rw [toString_eq_numeral] at hlookup
    simp [Parse.evaluate, hlast, Parse.column, hlookup]
  | literal zeros hn => rfl
  | negative zeros hn => rfl

/-! ## The order of the texts -/

def charDigit (c : Char) : ℕ := c.toNat - 48

theorem areDigits_isDigit : Numerals.AreDigits charDigit 10 (fun c => c.isDigit = true) := by
  have hrange : ∀ {c : Char}, c.isDigit = true → 48 ≤ c.toNat ∧ c.toNat ≤ 57 := by
    intro c hc
    simpa [Char.isDigit, UInt32.le_iff_toNat_le] using hc
  constructor
  · intro x hx
    have := hrange hx
    simp only [charDigit]
    omega
  · intro x y hx hy
    have := hrange hx
    have := hrange hy
    rw [Char.lt_def, UInt32.lt_iff_toNat_lt]
    simp only [charDigit]
    show x.toNat < y.toNat ↔ _
    omega
  · intro x y hx hy heq
    have := hrange hx
    have := hrange hy
    simp only [charDigit] at heq
    exact Char.toNat_inj.1 (by omega)

theorem value_eq_ofDigitChars (l : List Char) : Numerals.value charDigit 10 l = Nat.ofDigitChars 10 l 0 := by
  induction l with
  | nil => rfl
  | cons c l ih =>
    calc Numerals.value charDigit 10 (c :: l) = 10 ^ l.length * charDigit c + Nat.ofDigitChars 10 l 0 := by
          rw [Numerals.value, ih, Nat.mul_comm]
      _ = Nat.ofDigitChars 10 l (charDigit c) := Nat.ofDigitChars_eq_ofDigitChars_zero.symm
      _ = Nat.ofDigitChars 10 (c :: l) 0 := by rw [Nat.ofDigitChars_cons]; simp [charDigit]

theorem isDigit_decimalDigits {zeros n : ℕ} : ∀ c ∈ decimalDigits zeros n, c.isDigit = true := by
  intro c hc
  rcases List.mem_append.1 hc with hc | hc
  · rw [List.eq_of_mem_replicate hc]; rfl
  · exact Nat.isDigit_of_mem_toDigits (by omega) (by omega) hc

theorem value_decimalDigits (zeros n : ℕ) : Numerals.value charDigit 10 (decimalDigits zeros n) = n := by
  rw [value_eq_ofDigitChars, decimalDigits, Nat.ofDigitChars_append, Nat.ofDigitChars_replicate_zero, Nat.mul_zero,
    Nat.ofDigitChars_ten_toDigits]

/-- The fractions with these digits, `0.9` for 9 and `0.09` for 09. -/
def digitsBefore (i m j n : ℕ) : Prop :=
  Numerals.fractionLt 10 m (decimalDigits i m).length n (decimalDigits j n).length

theorem decimalDigits_lt_iff (i m j n : ℕ) : decimalDigits i m < decimalDigits j n ↔ digitsBefore i m j n := by
  rw [Numerals.lt_iff_fractionLt areDigits_isDigit isDigit_decimalDigits isDigit_decimalDigits, value_decimalDigits,
    value_decimalDigits]
  rfl

/-- How the numerals of `m` and `n`, with `i` and `j` leading zeros, sort: the negative ones first, those of one sign by
their digits. -/
def sortsBefore (i : ℕ) (m : ℤ) (j : ℕ) (n : ℤ) : Prop :=
  if m < 0 then 0 ≤ n ∨ digitsBefore i m.natAbs j n.natAbs else 0 ≤ n ∧ digitsBefore i m.natAbs j n.natAbs

theorem decimalDigits_ne_nil (zeros n : ℕ) : decimalDigits zeros n ≠ [] := by
  simp [decimalDigits]

/-- A minus sign sorts before every digit. -/
theorem minus_lt_decimalDigits (l : List Char) (zeros n : ℕ) :
    '-' :: l < decimalDigits zeros n ∧ ¬ decimalDigits zeros n < '-' :: l := by
  obtain ⟨c, rest, hcons⟩ := List.exists_cons_of_ne_nil (decimalDigits_ne_nil zeros n)
  have hdigit : c.isDigit = true := @isDigit_decimalDigits zeros n c (by simp [hcons])
  have hlt : '-' < c := by
    rw [Char.lt_def, UInt32.lt_iff_toNat_lt]
    simp only [Char.isDigit, Bool.and_eq_true, decide_eq_true_eq, UInt32.le_iff_toNat_le] at hdigit
    exact Nat.lt_of_lt_of_le (by decide) hdigit.1
  rw [hcons, List.cons_lt_cons_iff, List.cons_lt_cons_iff]
  refine ⟨.inl hlt, ?_⟩
  rintro (hgt | ⟨rfl, -⟩)
  · exact absurd (Char.lt_trans hlt hgt) (Char.lt_irrefl _)
  · exact Char.lt_irrefl _ hlt

theorem minus_ne_decimalDigits (l : List Char) (zeros n : ℕ) : '-' :: l ≠ decimalDigits zeros n := by
  intro heq
  have hminus := minus_lt_decimalDigits l zeros n
  rw [heq] at hminus
  exact hminus.2 hminus.1

theorem numeral_lt_iff (i : ℕ) (m : ℤ) (j : ℕ) (n : ℤ) : numeral i m < numeral j n ↔ sortsBefore i m j n := by
  rw [String.lt_iff, numeral, numeral, String.toList_ofList, String.toList_ofList, sortsBefore]
  by_cases hm : m < 0 <;> by_cases hn : n < 0
  · rw [if_pos hm, if_pos hn, if_pos hm, List.cons_lt_cons_iff, decimalDigits_lt_iff]
    simp [not_le.2 hn]
  · rw [if_pos hm, if_neg hn, if_pos hm]
    simp [minus_lt_decimalDigits, not_lt.1 hn]
  · rw [if_neg hm, if_pos hn, if_neg hm]
    simp [minus_lt_decimalDigits, hn]
  · rw [if_neg hm, if_neg hn, if_neg hm, decimalDigits_lt_iff]
    simp [not_lt.1 hn]

theorem numeral_le_iff (i : ℕ) (m : ℤ) (j : ℕ) (n : ℤ) : numeral i m ≤ numeral j n ↔ ¬ sortsBefore j n i m :=
  not_congr (numeral_lt_iff j n i m)

theorem numeral_inj {i j : ℕ} {m n : ℤ} (h : numeral i m = numeral j n) : m = n ∧ i = j := by
  have hdigits : (m < 0 ↔ n < 0) ∧ decimalDigits i m.natAbs = decimalDigits j n.natAbs := by
    have hlist := congrArg String.toList h
    rw [numeral, numeral, String.toList_ofList, String.toList_ofList] at hlist
    by_cases hm : m < 0 <;> by_cases hn : n < 0
    · rw [if_pos hm, if_pos hn] at hlist
      exact ⟨by simp [hm, hn], (List.cons.inj hlist).2⟩
    · rw [if_pos hm, if_neg hn] at hlist
      exact absurd hlist (minus_ne_decimalDigits _ j n.natAbs)
    · rw [if_neg hm, if_pos hn] at hlist
      exact absurd hlist.symm (minus_ne_decimalDigits _ i m.natAbs)
    · rw [if_neg hm, if_neg hn] at hlist
      exact ⟨by simp [hm, hn], hlist⟩
  have hvalue := congrArg (Numerals.value charDigit 10) hdigits.2
  rw [value_decimalDigits, value_decimalDigits] at hvalue
  have heq : m = n := by have := hdigits.1; omega
  have hlength := congrArg List.length hdigits.2
  rw [heq] at hlength
  exact ⟨heq, by simpa [decimalDigits] using hlength⟩

theorem numeral_eq_iff {i j : ℕ} {m n : ℤ} : numeral i m = numeral j n ↔ m = n ∧ i = j :=
  ⟨numeral_inj, fun h => by rw [h.1, h.2]⟩

/-! ## Comparisons -/

/-- The comparison of the integers. -/
def BinaryOperator.onIntegers : BinaryOperator → ℤ → ℤ → Bool
  | .eq, m, n => m = n
  | .notEq, m, n => m ≠ n
  | .lt, m, n => m < n
  | .ltEq, m, n => m ≤ n
  | .gt, m, n => n < m
  | .gtEq, m, n => n ≤ m
  | _, _, _ => false

/-- The texts compare as the numbers do: an order comparison, where they sort as the numbers do; equality, unless one
number is written in two ways. -/
def TextsAgree : BinaryOperator → ℕ → ℤ → ℕ → ℤ → Prop
  | .lt, i, m, j, n | .gtEq, i, m, j, n => sortsBefore i m j n ↔ m < n
  | .gt, i, m, j, n | .ltEq, i, m, j, n => sortsBefore j n i m ↔ n < m
  | _, i, m, j, n => m = n → i = j

theorem holds_numerals {op : BinaryOperator} (hop : op ∈ [BinaryOperator.eq, .notEq, .lt, .ltEq, .gt, .gtEq])
    (i : ℕ) (m : ℤ) (j : ℕ) (n : ℤ) :
    ParseResult.holds op (.string (some (numeral i m))) (.string (some (numeral j n))) = op.onIntegers m n ↔
      TextsAgree op i m j n := by
  simp only [List.mem_cons, List.not_mem_nil, or_false] at hop
  rcases hop with rfl | rfl | rfl | rfl | rfl | rfl
  · simp [ParseResult.holds, BinaryOperator.onIntegers, TextsAgree, numeral_eq_iff]
  · simp [ParseResult.holds, BinaryOperator.onIntegers, TextsAgree, numeral_eq_iff]
    tauto
  · simp only [ParseResult.holds, BinaryOperator.onIntegers, TextsAgree, numeral_lt_iff, decide_eq_decide]
  · simp only [ParseResult.holds, BinaryOperator.onIntegers, TextsAgree, numeral_le_iff, decide_eq_decide]
    rw [← Int.not_lt, not_iff_not]
  · simp only [ParseResult.holds, BinaryOperator.onIntegers, TextsAgree, numeral_lt_iff, decide_eq_decide]
  · simp only [ParseResult.holds, BinaryOperator.onIntegers, TextsAgree, numeral_le_iff, decide_eq_decide]
    rw [← Int.not_lt, not_iff_not]

/-- **Which comparisons of integers come out right**: without a minus sign in the expression, those whose texts compare
as the numbers do. -/
theorem numeric_comparison_iff {row : Row} {op : BinaryOperator} {m n : ℤ} {i j : ℕ} {l r : Expr}
    (hop : op ∈ [BinaryOperator.eq, .notEq, .lt, .ltEq, .gt, .gtEq]) (hl : Writes row m i l) (hr : Writes row n j r) :
    Parse.evaluate row (.binaryOp l op r) = some (.ok (.boolean (op.onIntegers m n))) ↔
      l ≠ .other ∧ r ≠ .other ∧ TextsAgree op i m j n := by
  rw [evaluate_compare hop, hl.evaluate, hr.evaluate, ← holds_numerals hop]
  by_cases hlo : l = .other
  · simp [hlo, EvaluateCondition.evaluate, Evaluation.andThen]
  by_cases hro : r = .other
  · simp [hlo, hro, EvaluateCondition.evaluate, Evaluation.andThen]
  · simp [hlo, hro, EvaluateCondition.evaluate, Evaluation.andThen, compare_eq hop]

def sampleNineRow : Row := (∅ : Row).insert "x" (some "9")

theorem numeric_comparison_five :
    Parse.evaluate sampleNineRow (.binaryOp (.identifier ⟨"x", none⟩) .gt (.value (.number (numeral 1 5)))) =
        some (.ok (.boolean true)) ↔
      Expr.identifier ⟨"x", none⟩ ≠ .other ∧ Expr.value (.number (numeral 1 5)) ≠ .other ∧
        TextsAgree .gt 0 9 1 5 :=
  @numeric_comparison_iff sampleNineRow .gt 9 5 0 1 _ _ (by decide) (.column rfl) (.literal 1 (by decide))

/-- 9 is not below 10. -/
theorem nine_not_below_ten :
    Writes sampleNineRow 9 0 (.identifier ⟨"x", none⟩) ∧ Writes sampleNineRow 10 0 (.value (.number "10")) ∧
      Parse.evaluate sampleNineRow (.binaryOp (.identifier ⟨"x", none⟩) .lt (.value (.number "10"))) ≠
        some (.ok (.boolean (BinaryOperator.onIntegers .lt 9 10))) :=
  ⟨.column rfl, .literal 0 (by decide), by decide⟩

end MocksySql
