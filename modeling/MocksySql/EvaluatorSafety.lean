import MocksySql.ReadYourWrites
/-!
# Where the evaluator panics

`Parse::evaluate` has an `Err` for expressions it does not support, and panics on others: an operator it does not know, a
column the row does not have, a placeholder, a text or NULL at the right of AND or OR. Whether it comes to them depends on
what stands to the left.

* `Expr.outcome` — what evaluation would come to if it never panicked.
* `Expr.Safe` — nothing that is reached panics.
* `evaluate_eq_outcome`, `safe_of_evaluate` — what is safe evaluates, and what evaluates is safe.
* `evaluator_returns_iff` — it returns exactly where the expression is safe, and so `override_row` gets through the
  WHEREs it evaluates.
-/

namespace MocksySql

/-- Is the right operand evaluated, the left one having come to this? -/
def BinaryOperator.reachesRight : BinaryOperator → Except String ParseResult → Bool
  | _, .error _ => false
  | .and, .ok (.boolean false) => false
  | .or, .ok (.boolean true) => false
  | _, .ok _ => true

/-- Can AND or OR end with this at its right? -/
def BinaryOperator.accepts : BinaryOperator → Except String ParseResult → Bool
  | .and, .ok (.string _) | .or, .ok (.string _) => false
  | _, _ => true

/-- The result of an operator with both operands evaluated. -/
def BinaryOperator.result : BinaryOperator → Except String ParseResult → Except String ParseResult →
    Except String ParseResult
  | .and, _, right | .or, _, right => right
  | op, left, right => left.bind fun l => right.map fun r => .boolean (ParseResult.holds op l r)

/-- The result of an expression, or the `Err` of the first unsupported part that is reached. -/
def Expr.outcome (row : Row) : Expr → Except String ParseResult
  | .binaryOp left op right =>
    if op.reachesRight (left.outcome row) then op.result (left.outcome row) (right.outcome row) else left.outcome row
  | .value val => .ok val.reading
  | .identifier ident => .ok (.string ((row.lookup ident.value).getD none))
  | .compoundIdentifier idents => .ok (.string ((idents.getLast?.bind fun ident => row.lookup ident.value).getD none))
  | .isNull expr => (expr.outcome row).map fun v => .boolean v.isNull
  | .isNotNull expr => (expr.outcome row).map fun v => .boolean v.isText
  | .nested expr => expr.outcome row
  | .other => .error "Unsupported expression"

/-- What is reached is supported, or has an `Err`: operators that are known, columns of the row, literals, and no text or
NULL at the right of AND and OR. -/
def Expr.Safe (row : Row) : Expr → Prop
  | .binaryOp left op right => op ≠ .other ∧ left.Safe row ∧
      (op.reachesRight (left.outcome row) = true → right.Safe row ∧ op.accepts (right.outcome row) = true)
  | .value (.placeholder _) => False
  | .value _ => True
  | .identifier ident => ident.value ∈ row
  | .compoundIdentifier idents => ∃ ident, idents.getLast? = some ident ∧ ident.value ∈ row
  | .isNull expr | .isNotNull expr | .nested expr => expr.Safe row
  | .other => True

section
variable {row : Row} {l r : Expr} {op : BinaryOperator} {left right : Except String ParseResult}

/-! ## One operator -/

/-- What an operator does with the right operand. -/
def BinaryOperator.finish : BinaryOperator → Except String ParseResult → ParseResult → Evaluation
  | .and, _ | .or, _ => EvaluateConjunction.finish
  | op, .ok l => EvaluateCondition.compare op l
  | _, .error msg => fun _ => some (.error msg)

theorem evaluate_left (hop : op ≠ .other) (hl : Parse.evaluate row l = some left)
    (hright : op.reachesRight left = false) : Parse.evaluate row (.binaryOp l op r) = some left := by
  rcases left with msg | (_ | _) | value <;> cases op <;> first
    | exact absurd rfl hop
    | exact Bool.noConfusion hright
    | simp only [Parse.evaluate, hl, EvaluateConjunction.evaluate, EvaluateCondition.evaluate, Evaluation.andThen]

theorem evaluate_right (hop : op ≠ .other) (hl : Parse.evaluate row l = some left)
    (hright : op.reachesRight left = true) :
    Parse.evaluate row (.binaryOp l op r) = (Parse.evaluate row r).andThen (op.finish left) := by
  rcases left with msg | (_ | _) | value <;> cases op <;> first
    | exact absurd rfl hop
    | exact Bool.noConfusion hright
    | simp only [Parse.evaluate, hl, EvaluateConjunction.evaluate, EvaluateCondition.evaluate, Evaluation.andThen,
        BinaryOperator.finish]

theorem finish_eq (hop : op ≠ .other) (hright : op.reachesRight left = true) :
    Evaluation.andThen (some right) (op.finish left) =
      if op.accepts right = true then some (op.result left right) else none := by
  rcases left with msg | v
  · cases hright
  · rcases right with msg | w
    · cases op <;> first
        | exact absurd rfl hop
        | rfl
    · cases op with
      | other => exact absurd rfl hop
      | and | or => cases w <;> rfl
      | _ => exact (compare_eq (by decide) v w).trans (if_pos rfl).symm

theorem column_ne_none_iff {name : String} : Parse.column row name ≠ none ↔ name ∈ row := by
  rw [Parse.column, ← AList.lookup_isSome, ← Option.isSome_iff_ne_none, Option.isSome_map]

/-! ## Safe expressions -/

/-- **A safe expression evaluates**, to its outcome. -/
theorem evaluate_eq_outcome : ∀ {e : Expr}, e.Safe row → Parse.evaluate row e = some (e.outcome row)
  | .binaryOp l op r, ⟨hop, hl, hr⟩ => by
    have el := evaluate_eq_outcome hl
    rw [Expr.outcome]
    cases hright : op.reachesRight (l.outcome row) with
    | false => exact evaluate_left hop el hright
    | true =>
      obtain ⟨hr, haccepts⟩ := hr hright
      rw [evaluate_right hop el hright, evaluate_eq_outcome hr, finish_eq hop hright, if_pos haccepts, if_pos rfl]
  | .value (.number _), _ => rfl
  | .value (.string _ _), _ => rfl
  | .value (.boolean _), _ => rfl
  | .value .null, _ => rfl
  | .identifier ident, h => column_eq h
  | .compoundIdentifier idents, ⟨ident, hlast, h⟩ => by
    rw [Parse.evaluate, hlast, Expr.outcome, hlast]
    exact column_eq h
  | .isNull e, h => by
    rw [Parse.evaluate, evaluate_eq_outcome (e := e) h, Expr.outcome]
    rcases e.outcome row with msg | (b | (_ | s)) <;> rfl
  | .isNotNull e, h => by
    rw [Parse.evaluate, evaluate_eq_outcome (e := e) h, Expr.outcome]
    rcases e.outcome row with msg | (b | (_ | s)) <;> rfl
  | .nested e, h => evaluate_eq_outcome (e := e) h
  | .other, _ => rfl

/-- **What evaluates is safe.** -/
theorem safe_of_evaluate : ∀ {e : Expr}, Parse.evaluate row e ≠ none → e.Safe row
  | .binaryOp l op r, h => by
    have hop : op ≠ .other := by
      rintro rfl
      exact h rfl
    have hl : l.Safe row := by
      refine safe_of_evaluate fun hl => h ?_
      cases op <;> simp only [Parse.evaluate, hl] <;> rfl
    have el := evaluate_eq_outcome hl
    refine ⟨hop, hl, fun hright => ?_⟩
    rw [evaluate_right hop el hright] at h
    have hr : r.Safe row := by
      refine safe_of_evaluate fun hr => h ?_
      rw [hr]; rfl
    refine ⟨hr, ?_⟩
    by_contra hrejects
    rw [evaluate_eq_outcome hr, finish_eq hop hright, if_neg hrejects] at h
    exact h rfl
  | .value (.placeholder _), h => h rfl
  | .value (.number _), _ => trivial
  | .value (.string _ _), _ => trivial
  | .value (.boolean _), _ => trivial
  | .value .null, _ => trivial
  | .identifier ident, h => column_ne_none_iff.1 h
  | .compoundIdentifier idents, h => by
    rw [Parse.evaluate] at h
    cases hlast : idents.getLast? with
    | none => rw [hlast] at h; exact absurd rfl h
    | some ident =>
      rw [hlast] at h
      exact ⟨ident, hlast, column_ne_none_iff.1 h⟩
  | .isNull e, h => safe_of_evaluate (e := e) fun he => h (by rw [Parse.evaluate, he]; rfl)
  | .isNotNull e, h => safe_of_evaluate (e := e) fun he => h (by rw [Parse.evaluate, he]; rfl)
  | .nested e, h => safe_of_evaluate (e := e) h
  | .other, _ => trivial

theorem evaluate_ne_none_iff {e : Expr} : Parse.evaluate row e ≠ none ↔ e.Safe row :=
  ⟨safe_of_evaluate, fun h => by rw [evaluate_eq_outcome h]; exact Option.some_ne_none _⟩

/-- A supported condition is safe. -/
theorem Cond.safe {e : Expr} (he : Cond e) (hcolumns : ∀ c ∈ e.columns, c ∈ row) : e.Safe row := by
  obtain ⟨b, hb⟩ := he.evaluates hcolumns
  refine safe_of_evaluate fun hnone => ?_
  rw [hb] at hnone
  cases hnone

/-- **The evaluator returns, with Ok or Err,** exactly where the expression is safe; and so do the evaluations of the
recorded UPDATEs' WHEREs and of the client's own. -/
theorem evaluator_returns_iff (row : Row) :
    (∀ e, (∃ r, Parse.evaluate row e = some r) ↔ e.Safe row) ∧
    (∀ entries o, (∃ r, ResponseAccumulator.chooseOverride row entries o = some r) ↔
      ∀ entry ∈ entries, ∀ selection ∈ entry.1, selection.Safe row) ∧
    ∀ selection, (∃ r, ResponseAccumulator.deselect row selection = some r) ↔ ∀ e ∈ selection, e.Safe row := by
  refine ⟨fun e => ?_, fun entries o => ?_, fun selection => ?_⟩
  · rw [← evaluate_ne_none_iff, Option.ne_none_iff_exists']
  · simp only [ResponseAccumulator.chooseOverride_eq_some_iff, exists_and_left, exists_eq', and_true, evaluate_ne_none_iff]
  · simp only [ResponseAccumulator.deselect_isSome, evaluate_ne_none_iff]

end

/-- `x + 1 = 2`, `y IS NULL` and `x = '1' AND x` panic on a row with the column `x` alone. -/
theorem evaluator_panics :
    Parse.evaluate ((∅ : Row).insert "x" (some "1"))
      (.binaryOp (.binaryOp (.identifier ⟨"x", none⟩) .other (.value (.number "1"))) .eq (.value (.number "2"))) = none ∧
    Parse.evaluate ((∅ : Row).insert "x" (some "1")) (.isNull (.identifier ⟨"y", none⟩)) = none ∧
    Parse.evaluate ((∅ : Row).insert "x" (some "1"))
      (.binaryOp (.binaryOp (.identifier ⟨"x", none⟩) .eq (.value (.string .singleQuoted "1"))) .and
        (.identifier ⟨"x", none⟩)) = none :=
  ⟨rfl, rfl, rfl⟩

end MocksySql
