import MocksySql.Evaluator
import MocksySql.Lib.ThreeValued
/-!
# Conditions in SQL's three-valued logic

A comparison with NULL is unknown, and an unknown condition selects no row. The evaluator has two truth values: its `=`
and `<>` compare NULL like any value (`evaluator.rs:166-187`), its IS NULL and IS NOT NULL are both false of every
condition (`:85`, `:89`), and AND and OR look at their left operand for FALSE and TRUE alone (`:112-122`): a text or NULL
there is neither. At the right one it panics (`:136-147`).

| here | in SQL |
| --- | --- |
| `SqlValue`, `Expr.sql` | values, a condition's value being TRUE, FALSE or NULL (unknown) |
| `SqlRules`             | how a truth value compares with a text and which texts count as TRUE, whatever the server has |
| `Expr.stuck`           | where the evaluator comes to a text or NULL at the right of AND or OR |
| `Expr.misleads`        | where the evaluator, given an expression and a row, comes out on the other side |

* `evaluate_eq_result` — what the evaluator makes of an expression, told by its SQL value.
* `selects_same_rows_iff` — it selects the rows SQL selects exactly where the expression is not mistaken.
-/

namespace MocksySql
open ThreeValued

inductive SqlValue where
  | null
  | truth (b : Bool)
  | text (s : String)
deriving DecidableEq, Repr

/-- What SQL leaves to the server: a truth value compared with a text, and a text as a condition. -/
structure SqlRules where
  mixed : BinaryOperator → SqlValue → SqlValue → Bool
  counts : String → Bool

namespace SqlValue

def ofTruth : Truth → SqlValue
  | none => .null
  | some b => .truth b

def toTruth (rules : SqlRules) : SqlValue → Truth
  | .null => none
  | .truth b => some b
  | .text s => some (rules.counts s)

def toText : SqlValue → Option String
  | .text s => some s
  | _ => none

/-- A condition of this value selects the row. -/
def selects (rules : SqlRules) (v : SqlValue) : Bool := ThreeValued.selects (v.toTruth rules)

@[simp] theorem toTruth_ofTruth (rules : SqlRules) (t : Truth) : (ofTruth t).toTruth rules = t := by cases t <;> rfl

theorem selects_iff {rules : SqlRules} {v : SqlValue} : v.selects rules = true ↔ v.toTruth rules = some true := by
  rw [selects, ThreeValued.selects, beq_iff_eq]

theorem selects_ofTruth_and {rules : SqlRules} (v w : SqlValue) :
    (ofTruth (ThreeValued.and (v.toTruth rules) (w.toTruth rules))).selects rules =
      (v.selects rules && w.selects rules) := by
  rw [selects, toTruth_ofTruth, selects_and]
  rfl

theorem selects_ofTruth_or {rules : SqlRules} (v w : SqlValue) :
    (ofTruth (ThreeValued.or (v.toTruth rules) (w.toTruth rules))).selects rules =
      (v.selects rules || w.selects rules) := by
  rw [selects, toTruth_ofTruth, selects_or]
  rfl

end SqlValue

/-- A comparison operator on ordered values. -/
def BinaryOperator.decides {α : Type} [DecidableEq α] [LT α] [LE α] [DecidableLT α] [DecidableLE α] (l r : α) :
    BinaryOperator → Bool
  | .eq => l = r
  | .notEq => l ≠ r
  | .lt => l < r
  | .ltEq => l ≤ r
  | .gt => r < l
  | .gtEq => r ≤ l
  | _ => false

/-- A comparison with NULL is unknown; texts compare bytewise, and FALSE is below TRUE. -/
def SqlValue.compare (rules : SqlRules) (op : BinaryOperator) : SqlValue → SqlValue → Truth
  | .null, _ | _, .null => none
  | .text l, .text r => some (op.decides l r)
  | .truth l, .truth r => some (op.decides l r)
  | l, r => some (rules.mixed op l r)

/-- The value of an expression in SQL. -/
def Expr.sql (rules : SqlRules) (row : Row) : Expr → SqlValue
  | .binaryOp left .and right =>
    .ofTruth (ThreeValued.and ((left.sql rules row).toTruth rules) ((right.sql rules row).toTruth rules))
  | .binaryOp left .or right =>
    .ofTruth (ThreeValued.or ((left.sql rules row).toTruth rules) ((right.sql rules row).toTruth rules))
  | .binaryOp left op right => .ofTruth (SqlValue.compare rules op (left.sql rules row) (right.sql rules row))
  | .value (.boolean b) => .truth b
  | .value (.string _ s) => .text s
  | .identifier ident => ((row.lookup ident.value).getD none).elim .null .text
  | .compoundIdentifier idents => ((idents.getLast?.bind fun ident => row.lookup ident.value).getD none).elim .null .text
  | .isNull expr => .truth (expr.sql rules row = .null)
  | .isNotNull expr => .truth (expr.sql rules row ≠ .null)
  | .nested expr => expr.sql rules row
  | .value _ | .other => .null

/-- Columns, string literals, NULL and truth values, under the comparisons, NULL tests and connectives, in parentheses or
not. No number is written in it: SQL compares numbers as numbers. -/
def Expr.NumberFree : Expr → Prop
  | .binaryOp left op right => op ≠ .other ∧ left.NumberFree ∧ right.NumberFree
  | .isNull expr | .isNotNull expr | .nested expr => expr.NumberFree
  | .compoundIdentifier idents => idents ≠ []
  | .value (.number _) | .value (.placeholder _) | .other => False
  | _ => True

/-- A comparison, a NULL test, a connective or a truth value, in parentheses or not. -/
def Expr.isCondition : Expr → Bool
  | .binaryOp _ _ _ | .isNull _ | .isNotNull _ | .value (.boolean _) => true
  | .nested expr => expr.isCondition
  | _ => false

/-- A value as the evaluator takes it: a condition that is not TRUE as FALSE, the wrong way round if it misleads, and
NULL as one more value of a column. -/
def SqlValue.taken (rules : SqlRules) (v : SqlValue) (isCondition misleads : Bool) : ParseResult :=
  if isCondition then .boolean (v.selects rules != misleads) else .string v.toText

@[simp] theorem SqlValue.taken_condition (rules : SqlRules) (v : SqlValue) (misleads : Bool) :
    v.taken rules true misleads = .boolean (v.selects rules != misleads) := rfl

@[simp] theorem SqlValue.taken_operand (rules : SqlRules) (v : SqlValue) (misleads : Bool) :
    v.taken rules false misleads = .string v.toText := rfl

/-- Two texts or NULLs that are not compared as SQL does. -/
def SqlValue.mistaken (op : BinaryOperator) (l r : SqlValue) : Bool :=
  match op with
  | .eq => l = .null && r = .null
  | .notEq => (l = .null : Bool) != (r = .null : Bool)
  | _ => false

/-- AND of two operands that select or not, each misleading or not: it misleads if one does and the other selects, or if
both do, being alike. -/
def misleadsAnd (l r misleadsLeft misleadsRight : Bool) : Bool :=
  match misleadsLeft, misleadsRight with
  | false, false => false
  | true, false => r
  | false, true => l
  | true, true => l == r

/-- OR: if one does and the other does not select, or if both do, being alike. -/
def misleadsOr (l r misleadsLeft misleadsRight : Bool) : Bool :=
  match misleadsLeft, misleadsRight with
  | false, false => false
  | true, false => !r
  | false, true => !l
  | true, true => l == r

/-- Does the expression take the evaluator to the wrong side?

* Columns and literals: `=` does for two NULLs, `<>` for one. A comparison with a condition in it does if the operands,
  as the evaluator takes them, compare another way.
* IS NULL and IS NOT NULL of a condition do where they are TRUE.
* A column, a literal or NULL at the left of AND counts as TRUE, and of OR as FALSE: it does where it is not. -/
def Expr.misleads (rules : SqlRules) (row : Row) : Expr → Bool
  | .binaryOp left .and right =>
    let l := (left.sql rules row).selects rules
    let r := (right.sql rules row).selects rules
    misleadsAnd l r (if left.isCondition then left.misleads rules row else !l) (right.misleads rules row)
  | .binaryOp left .or right =>
    let l := (left.sql rules row).selects rules
    let r := (right.sql rules row).selects rules
    misleadsOr l r (if left.isCondition then left.misleads rules row else l) (right.misleads rules row)
  | .binaryOp left op right =>
    let l := left.sql rules row
    let r := right.sql rules row
    if left.isCondition || right.isCondition then
      ThreeValued.selects (SqlValue.compare rules op l r) != ParseResult.holds op
        (l.taken rules left.isCondition (left.misleads rules row))
        (r.taken rules right.isCondition (right.misleads rules row))
    else SqlValue.mistaken op l r
  | .isNull expr => expr.isCondition && expr.sql rules row = .null
  | .isNotNull expr => expr.isCondition && expr.sql rules row ≠ .null
  | .nested expr => expr.misleads rules row
  | _ => false

/-- The expression as the evaluator takes it. -/
def Expr.taken (rules : SqlRules) (row : Row) (e : Expr) : ParseResult :=
  (e.sql rules row).taken rules e.isCondition (e.misleads rules row)

/-- The evaluator comes to a column, a literal or NULL at the right of AND or OR. -/
def Expr.stuck (rules : SqlRules) (row : Row) : Expr → Bool
  | .binaryOp left .and right =>
    left.stuck rules row ||
      (left.taken rules row != .boolean false && (right.stuck rules row || !right.isCondition))
  | .binaryOp left .or right =>
    left.stuck rules row ||
      (left.taken rules row != .boolean true && (right.stuck rules row || !right.isCondition))
  | .binaryOp left _ right => left.stuck rules row || right.stuck rules row
  | .isNull expr | .isNotNull expr | .nested expr => expr.stuck rules row
  | _ => false

/-- An expression that is stuck, or is no condition, never comes out TRUE; any other comes out wrong if it misleads. -/
def Expr.mistaken (rules : SqlRules) (row : Row) (e : Expr) : Bool :=
  if e.stuck rules row || !e.isCondition then (e.sql rules row).selects rules else e.misleads rules row

section
variable {rules : SqlRules} {row : Row} {e l r : Expr} {op : BinaryOperator}

/-! ## Comparisons -/

variable (rules row) in
/-- A column or a literal, in parentheses or not, is a text or NULL. -/
theorem Expr.sql_operand : ∀ e : Expr, e.NumberFree → e.isCondition = false →
    e.sql rules row = .null ∨ ∃ s, e.sql rules row = .text s
  | .identifier ident, _, _ => by
    rw [Expr.sql]
    cases (row.lookup ident.value).getD none with
    | none => exact .inl rfl
    | some s => exact .inr ⟨s, rfl⟩
  | .compoundIdentifier idents, _, _ => by
    rw [Expr.sql]
    cases (idents.getLast?.bind fun ident => row.lookup ident.value).getD none with
    | none => exact .inl rfl
    | some s => exact .inr ⟨s, rfl⟩
  | .value (.string _ s), _, _ => .inr ⟨s, rfl⟩
  | .value .null, _, _ => .inl rfl
  | .nested e, hfree, h => Expr.sql_operand e hfree h

/-- An operator that is neither AND, OR nor unknown compares. -/
theorem comparison_of_ne (hand : op ≠ .and) (hor : op ≠ .or) (hother : op ≠ .other) :
    op ∈ [BinaryOperator.eq, .notEq, .lt, .ltEq, .gt, .gtEq] := by
  cases op <;> simp_all

theorem sql_compare (h : op ∈ [BinaryOperator.eq, .notEq, .lt, .ltEq, .gt, .gtEq]) :
    (Expr.binaryOp l op r).sql rules row =
      .ofTruth (SqlValue.compare rules op (l.sql rules row) (r.sql rules row)) := by
  simp only [List.mem_cons, List.not_mem_nil, or_false] at h
  rcases h with rfl | rfl | rfl | rfl | rfl | rfl <;> rfl

theorem stuck_compare (h : op ∈ [BinaryOperator.eq, .notEq, .lt, .ltEq, .gt, .gtEq]) :
    (Expr.binaryOp l op r).stuck rules row = (l.stuck rules row || r.stuck rules row) := by
  simp only [List.mem_cons, List.not_mem_nil, or_false] at h
  rcases h with rfl | rfl | rfl | rfl | rfl | rfl <;> rfl

theorem misleads_compare (h : op ∈ [BinaryOperator.eq, .notEq, .lt, .ltEq, .gt, .gtEq]) :
    (Expr.binaryOp l op r).misleads rules row =
      if l.isCondition || r.isCondition then
        ThreeValued.selects (SqlValue.compare rules op (l.sql rules row) (r.sql rules row)) !=
          ParseResult.holds op (l.taken rules row) (r.taken rules row)
      else SqlValue.mistaken op (l.sql rules row) (r.sql rules row) := by
  simp only [List.mem_cons, List.not_mem_nil, or_false] at h
  rcases h with rfl | rfl | rfl | rfl | rfl | rfl <;> rfl

/-- Texts and NULLs compare as in SQL, or are mistaken. -/
theorem holds_texts (h : op ∈ [BinaryOperator.eq, .notEq, .lt, .ltEq, .gt, .gtEq]) {v w : SqlValue}
    (hv : v = .null ∨ ∃ s, v = .text s) (hw : w = .null ∨ ∃ s, w = .text s) :
    ParseResult.holds op (.string v.toText) (.string w.toText) =
      (ThreeValued.selects (SqlValue.compare rules op v w) != SqlValue.mistaken op v w) := by
  simp only [List.mem_cons, List.not_mem_nil, or_false] at h
  rcases hv with rfl | ⟨s, rfl⟩ <;> rcases hw with rfl | ⟨t, rfl⟩ <;>
    rcases h with rfl | rfl | rfl | rfl | rfl | rfl <;>
      simp [ParseResult.holds, SqlValue.toText, SqlValue.compare, SqlValue.mistaken, BinaryOperator.decides, bne]

theorem Expr.taken_condition (h : e.isCondition = true) :
    e.taken rules row = .boolean ((e.sql rules row).selects rules != e.misleads rules row) := by
  rw [Expr.taken, h, SqlValue.taken_condition]

theorem Expr.taken_operand (h : e.isCondition = false) : e.taken rules row = .string (e.sql rules row).toText := by
  rw [Expr.taken, h, SqlValue.taken_operand]

/-- A comparison is taken as its operands are. -/
theorem taken_compare (h : op ∈ [BinaryOperator.eq, .notEq, .lt, .ltEq, .gt, .gtEq]) (hl : l.NumberFree)
    (hr : r.NumberFree) : (Expr.binaryOp l op r).taken rules row =
      .boolean (ParseResult.holds op (l.taken rules row) (r.taken rules row)) := by
  rw [Expr.taken_condition rfl, sql_compare h, misleads_compare h, SqlValue.selects, SqlValue.toTruth_ofTruth]
  by_cases hcondition : l.isCondition || r.isCondition
  · rw [if_pos hcondition, ← Bool.bne_assoc, bne_self_eq_false, Bool.false_bne]
  · rw [if_neg hcondition]
    simp only [Bool.or_eq_true, not_or, Bool.not_eq_true] at hcondition
    rw [← holds_texts h (l.sql_operand rules row hl hcondition.1) (r.sql_operand rules row hr hcondition.2),
      Expr.taken_operand hcondition.1, Expr.taken_operand hcondition.2]

/-! ## Connectives -/

theorem misleadsAnd_eq (a b ml mr : Bool) : ((a && b) != misleadsAnd a b ml mr) = ((a != ml) && (b != mr)) := by
  cases a <;> cases b <;> cases ml <;> cases mr <;> rfl

theorem misleadsOr_eq (a b ml mr : Bool) : ((a || b) != misleadsOr a b ml mr) = ((a != ml) || (b != mr)) := by
  cases a <;> cases b <;> cases ml <;> cases mr <;> rfl

/-- AND is over where its left operand is taken as FALSE, and is its right one elsewhere. -/
theorem taken_and : (Expr.binaryOp l .and r).taken rules row =
    if l.taken rules row = .boolean false then .boolean false
    else .boolean ((r.sql rules row).selects rules != r.misleads rules row) := by
  rw [Expr.taken_condition rfl, Expr.sql, SqlValue.selects_ofTruth_and]
  refine (congrArg ParseResult.boolean (misleadsAnd_eq ..)).trans ?_
  cases hcondition : l.isCondition with
  | true =>
    rw [Expr.taken_condition hcondition, if_pos rfl]
    cases (l.sql rules row).selects rules != l.misleads rules row <;> simp
  | false =>
    rw [Expr.taken_operand hcondition, if_neg Bool.false_ne_true, if_neg (by simp)]
    cases (l.sql rules row).selects rules <;> simp

theorem taken_or : (Expr.binaryOp l .or r).taken rules row =
    if l.taken rules row = .boolean true then .boolean true
    else .boolean ((r.sql rules row).selects rules != r.misleads rules row) := by
  rw [Expr.taken_condition rfl, Expr.sql, SqlValue.selects_ofTruth_or]
  refine (congrArg ParseResult.boolean (misleadsOr_eq ..)).trans ?_
  cases hcondition : l.isCondition with
  | true =>
    rw [Expr.taken_condition hcondition, if_pos rfl]
    cases (l.sql rules row).selects rules != l.misleads rules row <;> simp
  | false =>
    rw [Expr.taken_operand hcondition, if_neg Bool.false_ne_true, if_neg (by simp)]
    cases (l.sql rules row).selects rules <;> simp

/-- What the evaluator comes to: a panic, or the expression as it takes it. -/
def Expr.result (rules : SqlRules) (row : Row) (e : Expr) : Evaluation :=
  if e.stuck rules row then none else some (.ok (e.taken rules row))

/-- The right operand of AND and OR, where they come to it. -/
theorem finish_result : (r.result rules row).andThen EvaluateConjunction.finish =
    if r.stuck rules row || !r.isCondition then none
    else some (.ok (.boolean ((r.sql rules row).selects rules != r.misleads rules row))) := by
  rw [Expr.result]
  cases r.stuck rules row with
  | true => rfl
  | false =>
    cases hcondition : r.isCondition with
    | true =>
      rw [Expr.taken_condition hcondition]
      rfl
    | false =>
      rw [Expr.taken_operand hcondition]
      rfl

theorem evaluate_and (hl : Parse.evaluate row l = l.result rules row) (hr : Parse.evaluate row r = r.result rules row) :
    Parse.evaluate row (.binaryOp l .and r) = (Expr.binaryOp l .and r).result rules row := by
  have hfinish := @finish_result rules row r
  rw [Parse.evaluate, hl, hr]
  generalize r.result rules row = right at hfinish ⊢
  rw [Expr.result, Expr.result, Expr.stuck, taken_and]
  cases l.stuck rules row with
  | true => rfl
  | false =>
    rcases l.taken rules row with (_ | _) | value
    · rfl
    · exact hfinish
    · exact hfinish

theorem evaluate_or (hl : Parse.evaluate row l = l.result rules row) (hr : Parse.evaluate row r = r.result rules row) :
    Parse.evaluate row (.binaryOp l .or r) = (Expr.binaryOp l .or r).result rules row := by
  have hfinish := @finish_result rules row r
  rw [Parse.evaluate, hl, hr]
  generalize r.result rules row = right at hfinish ⊢
  rw [Expr.result, Expr.result, Expr.stuck, taken_or]
  cases l.stuck rules row with
  | true => rfl
  | false =>
    rcases l.taken rules row with (_ | _) | value
    · exact hfinish
    · rfl
    · exact hfinish

/-! ## Every expression -/

/-- A NULL test is taken as its operand is; one of a condition is FALSE. -/
theorem taken_isNull (hfree : e.NumberFree) :
    (Expr.isNull e).taken rules row = .boolean (e.taken rules row).isNull := by
  rw [Expr.taken_condition rfl, Expr.sql, Expr.misleads]
  cases hcondition : e.isCondition with
  | true => simp [Expr.taken_condition hcondition, ParseResult.isNull, SqlValue.selects, SqlValue.toTruth]
  | false =>
    rw [Expr.taken_operand hcondition]
    rcases e.sql_operand rules row hfree hcondition with hnull | ⟨s, htext⟩ <;>
      simp [*, ParseResult.isNull, SqlValue.selects, SqlValue.toTruth, SqlValue.toText]

theorem taken_isNotNull (hfree : e.NumberFree) :
    (Expr.isNotNull e).taken rules row = .boolean (e.taken rules row).isText := by
  rw [Expr.taken_condition rfl, Expr.sql, Expr.misleads]
  cases hcondition : e.isCondition with
  | true => simp [Expr.taken_condition hcondition, ParseResult.isText, SqlValue.selects, SqlValue.toTruth]
  | false =>
    rw [Expr.taken_operand hcondition]
    rcases e.sql_operand rules row hfree hcondition with hnull | ⟨s, htext⟩ <;>
      simp [*, ParseResult.isText, SqlValue.selects, SqlValue.toTruth, SqlValue.toText]

/-- A column of the row is taken as it stands. -/
theorem evaluate_column {name : String} (h : name ∈ row) :
    Parse.column row name = some (.ok (.string (((row.lookup name).getD none).elim SqlValue.null .text).toText)) := by
  rw [column_eq h]
  cases (row.lookup name).getD none <;> rfl

variable (rules) in
/-- **What the evaluator makes of an expression**: a panic where it is stuck, a condition as its truth in SQL, or the
contrary where it misleads, and anything else as it stands. -/
theorem evaluate_eq_result : ∀ {e : Expr}, e.NumberFree → (∀ c ∈ e.columns, c ∈ row) →
    Parse.evaluate row e = e.result rules row
  | .binaryOp l op r, ⟨hother, hl, hr⟩, hc => by
    have el := evaluate_eq_result hl fun c h => hc c (by simp [Expr.columns, h])
    have er := evaluate_eq_result hr fun c h => hc c (by simp [Expr.columns, h])
    by_cases hand : op = .and
    · subst hand; exact evaluate_and el er
    by_cases hor : op = .or
    · subst hor; exact evaluate_or el er
    · have hop := comparison_of_ne hand hor hother
      rw [evaluate_compare hop, el, er, Expr.result, Expr.result, Expr.result, stuck_compare hop, taken_compare hop hl hr]
      cases l.stuck rules row <;> cases r.stuck rules row <;> first
        | rfl
        | exact compare_eq hop _ _
  | .isNull e, hfree, hc => by
    rw [Parse.evaluate, evaluate_eq_result (e := e) hfree hc, Expr.result, Expr.result, Expr.stuck,
      taken_isNull (e := e) hfree]
    cases e.stuck rules row <;> rcases e.taken rules row with b | (_ | s) <;> rfl
  | .isNotNull e, hfree, hc => by
    rw [Parse.evaluate, evaluate_eq_result (e := e) hfree hc, Expr.result, Expr.result, Expr.stuck,
      taken_isNotNull (e := e) hfree]
    cases e.stuck rules row <;> rcases e.taken rules row with b | (_ | s) <;> rfl
  | .nested e, hfree, hc => evaluate_eq_result (e := e) hfree hc
  | .identifier ident, _, hc => evaluate_column (hc ident.value (by simp [Expr.columns]))
  | .compoundIdentifier idents, hne, hc => by
    have hlast := List.getLast?_eq_some_getLast hne
    have hcolumn := @evaluate_column row _ (hc (idents.getLast hne).value (by simp [Expr.columns, hlast]))
    rw [Parse.evaluate, hlast]
    refine hcolumn.trans ?_
    simp [Expr.result, Expr.stuck, Expr.taken, Expr.isCondition, Expr.sql, hlast]
  | .value (.boolean b), _, _ => by cases b <;> rfl
  | .value (.string _ _), _, _ => rfl
  | .value .null, _, _ => rfl

/-- **The evaluator selects the rows SQL selects** exactly where the expression is not mistaken. -/
theorem selects_same_rows_iff (hcolumns : ∀ c ∈ e.columns, c ∈ row) (hfree : e.NumberFree) :
    (Parse.evaluate row e = some (.ok (.boolean true)) ↔ (e.sql rules row).toTruth rules = some true) ↔
      e.mistaken rules row = false := by
  rw [evaluate_eq_result rules hfree hcolumns, ← SqlValue.selects_iff, Expr.mistaken, Expr.result]
  cases e.stuck rules row with
  | true => simp
  | false =>
    cases hcondition : e.isCondition with
    | true =>
      rw [Expr.taken_condition hcondition]
      cases (e.sql rules row).selects rules <;> cases e.misleads rules row <;> simp
    | false => simp [Expr.taken_operand hcondition]

end

/-- `x = '1'` -/
def equalsOne : Expr := .binaryOp (.identifier ⟨"x", none⟩) .eq (.value (.string .singleQuoted "1"))

/-- `x = '1' AND (y = NULL OR NULL)` -/
def sampleCondition : Expr :=
  .binaryOp equalsOne .and (.nested (.binaryOp (.binaryOp (.identifier ⟨"y", none⟩) .eq (.value .null)) .or
    (.binaryOp (.value .null) .and equalsOne)))

/-- A row with x '2', y '1': neither side selects it, although `NULL AND x = '1'` leaves the evaluator with `x = '1'`. -/
theorem selects_same_rows_one :
    (Parse.evaluate (((∅ : Row).insert "x" (some "2")).insert "y" (some "1")) sampleCondition =
        some (.ok (.boolean true)) ↔
      (sampleCondition.sql ⟨fun _ _ _ => false, fun _ => false⟩
        (((∅ : Row).insert "x" (some "2")).insert "y" (some "1"))).toTruth ⟨fun _ _ _ => false, fun _ => false⟩ =
          some true) := by
  have hone : equalsOne.NumberFree := ⟨by decide, trivial, trivial⟩
  have hfree : sampleCondition.NumberFree :=
    ⟨by decide, hone, by decide, ⟨by decide, trivial, trivial⟩, by decide, trivial, hone⟩
  exact (selects_same_rows_iff (by decide) hfree).2 rfl

/-- `x = NULL` -/
def equalsNull : Expr := .binaryOp (.identifier ⟨"x", none⟩) .eq (.value .null)

/-- `x = NULL` selects the row with x NULL, and `NULL AND x = '1'` the row with x '1'. In SQL neither is selected. -/
theorem null_equals_null : equalsNull.NumberFree ∧
    (∀ rules, ¬ (Parse.evaluate ((∅ : Row).insert "x" none) equalsNull = some (.ok (.boolean true)) ↔
      (equalsNull.sql rules ((∅ : Row).insert "x" none)).toTruth rules = some true)) ∧
    ∀ rules, ¬ (Parse.evaluate ((∅ : Row).insert "x" (some "1")) (.binaryOp (.value .null) .and equalsOne) =
        some (.ok (.boolean true)) ↔
      ((Expr.binaryOp (.value .null) .and equalsOne).sql rules ((∅ : Row).insert "x" (some "1"))).toTruth rules =
        some true) := by
  refine ⟨⟨by decide, trivial, trivial⟩, fun rules h => ?_, fun rules h => ?_⟩
  · cases h.1 rfl
  · cases h.1 rfl

end MocksySql
