import MocksySql.Sql
/-!
# The WHERE evaluator (`materialization/evaluator.rs`)

| here | there |
| --- | --- |
| `Parse.evaluate`               | `Parse::evaluate` (`evaluator.rs:24`) |
| `EvaluateConjunction.evaluate` | `EvaluateConjunction::evaluate` (`:100`); the operands come evaluated, the right one is looked at only where the source evaluates it |
| `EvaluateCondition.evaluate`   | `EvaluateCondition::evaluate` (`:157`) |

Three outcomes: `none` is a panic (`panic!`, `unwrap` of a missing column, `unreachable!`),
`some (.error _)` is `Err("Unsupported expression")`, `some (.ok _)` a result. The source compares
`String`s by their UTF-8 bytes, which is the order of their chars.
-/

namespace MocksySql

inductive ParseResult where
  | boolean (b : Bool)
  | string (s : Option String)
deriving DecidableEq, Repr

abbrev Evaluation := Option (Except String ParseResult)

/-- `?` on an evaluation, then the rest of the function. -/
def Evaluation.andThen (e : Evaluation) (k : ParseResult → Evaluation) : Evaluation :=
  match e with
  | none => none
  | some (.error msg) => some (.error msg)
  | some (.ok r) => k r

/-- The right operand of AND and OR must be a boolean (`:136-147`). -/
def EvaluateConjunction.finish : ParseResult → Evaluation
  | .boolean b => some (.ok (.boolean b))
  | .string _ => none

def EvaluateConjunction.evaluate (op : BinaryOperator) (left right : Evaluation) : Evaluation :=
  left.andThen fun parsedLeft =>
    match op, parsedLeft with
    | .and, .boolean false => some (.ok (.boolean false))
    | .or, .boolean true => some (.ok (.boolean true))
    | .and, _ | .or, _ => right.andThen EvaluateConjunction.finish
    | _, _ => none

/-- The comparison itself (`:165-216`); NULL is only special to the order comparisons. -/
def EvaluateCondition.compare : BinaryOperator → ParseResult → ParseResult → Evaluation
  | .eq, .boolean l, .boolean r => some (.ok (.boolean (l == r)))
  | .eq, .string l, .string r => some (.ok (.boolean (l == r)))
  | .eq, _, _ => some (.ok (.boolean false))
  | .notEq, .boolean l, .boolean r => some (.ok (.boolean (l != r)))
  | .notEq, .string l, .string r => some (.ok (.boolean (l != r)))
  | .notEq, _, _ => some (.ok (.boolean true))
  | .lt, .string (some l), .string (some r) => some (.ok (.boolean (l < r)))
  | .ltEq, .string (some l), .string (some r) => some (.ok (.boolean (l ≤ r)))
  | .gt, .string (some l), .string (some r) => some (.ok (.boolean (r < l)))
  | .gtEq, .string (some l), .string (some r) => some (.ok (.boolean (r ≤ l)))
  | .lt, _, _ | .ltEq, _, _ | .gt, _, _ | .gtEq, _, _ => some (.ok (.boolean false))
  | .and, _, _ | .or, _, _ | .other, _, _ => none

def EvaluateCondition.evaluate (op : BinaryOperator) (left right : Evaluation) : Evaluation :=
  left.andThen fun parsedLeft => right.andThen fun parsedRight =>
    EvaluateCondition.compare op parsedLeft parsedRight

/-- `Expr::Value` (`:45-78`). -/
def Parse.literal (val : Value) : Evaluation :=
  match val.intoString with
  | some str => some (.ok (.string (some str)))
  | none =>
    match val with
    | .boolean b => some (.ok (.boolean b))
    | .number digits => some (.ok (.string (some digits)))
    | .string _ value => some (.ok (.string (some value)))
    | .null => some (.ok (.string none))
    | .placeholder _ => none

/-- `row.get(name).unwrap().clone()` -/
def Parse.column (row : Row) (name : String) : Evaluation :=
  (row.lookup name).map fun v => .ok (.string v)

def Parse.evaluate (row : Row) : Expr → Evaluation
  | .binaryOp left op right =>
    match op with
    | .and | .or => EvaluateConjunction.evaluate op (Parse.evaluate row left) (Parse.evaluate row right)
    | .eq | .notEq | .lt | .ltEq | .gt | .gtEq =>
      EvaluateCondition.evaluate op (Parse.evaluate row left) (Parse.evaluate row right)
    | .other => none
  | .value val => Parse.literal val
  | .identifier ident => Parse.column row ident.value
  | .compoundIdentifier idents =>
    match idents.getLast? with
    | some ident => Parse.column row ident.value
    | none => none
  | .isNull expr => (Parse.evaluate row expr).andThen fun
    | .boolean _ => some (.ok (.boolean false))
    | .string value => some (.ok (.boolean value.isNone))
  | .isNotNull expr => (Parse.evaluate row expr).andThen fun
    | .boolean _ => some (.ok (.boolean false))
    | .string value => some (.ok (.boolean value.isSome))
  | .nested expr => Parse.evaluate row expr
  | .other => some (.error "Unsupported expression")

/-! ## The fragment the evaluator supports -/

mutual
/-- Conditions: comparisons, NULL tests, AND, OR and truth values, parenthesised at will. -/
inductive Cond : Expr → Prop
  | truth (b : Bool) : Cond (.value (.boolean b))
  | and {l r} : Cond l → Cond r → Cond (.binaryOp l .and r)
  | or {l r} : Cond l → Cond r → Cond (.binaryOp l .or r)
  | compare {l r op} : op ∈ [BinaryOperator.eq, .notEq, .lt, .ltEq, .gt, .gtEq] → Term l → Term r →
      Cond (.binaryOp l op r)
  | isNull {e} : Term e → Cond (.isNull e)
  | isNotNull {e} : Term e → Cond (.isNotNull e)
  | nested {e} : Cond e → Cond (.nested e)
/-- Terms: columns, literals other than placeholders, conditions. -/
inductive Term : Expr → Prop
  | cond {e} : Cond e → Term e
  | column (ident : Ident) : Term (.identifier ident)
  | qualified {idents : List Ident} : idents ≠ [] → Term (.compoundIdentifier idents)
  | number (digits : String) : Term (.value (.number digits))
  | string (form : StringLiteral) (value : String) : Term (.value (.string form value))
  | null : Term (.value .null)
  | nested {e} : Term e → Term (.nested e)
end

/-- The columns an expression mentions, by their unqualified names. -/
def Expr.columns : Expr → List String
  | .identifier ident => [ident.value]
  | .compoundIdentifier idents => (idents.getLast?.map (·.value)).toList
  | .binaryOp left _ right => left.columns ++ right.columns
  | .isNull expr | .isNotNull expr | .nested expr => expr.columns
  | .value _ | .other => []

/-! ## Without short circuits -/

/-- Is it the truth value TRUE? -/
def ParseResult.isTrue : ParseResult → Bool
  | .boolean b => b
  | .string _ => false

def ParseResult.isNull : ParseResult → Bool
  | .string none => true
  | _ => false

/-- Is it a string, and not NULL? -/
def ParseResult.isText : ParseResult → Bool
  | .string (some _) => true
  | _ => false

/-- What a comparison finds of two values. -/
def ParseResult.holds : BinaryOperator → ParseResult → ParseResult → Bool
  | .eq, l, r => l = r
  | .notEq, l, r => l ≠ r
  | .lt, .string (some l), .string (some r) => l < r
  | .ltEq, .string (some l), .string (some r) => l ≤ r
  | .gt, .string (some l), .string (some r) => r < l
  | .gtEq, .string (some l), .string (some r) => r ≤ l
  | _, _, _ => false

/-- A literal as a value. -/
def Value.reading : Value → ParseResult
  | .boolean b => .boolean b
  | .number digits => .string (some digits)
  | .string _ value => .string (some value)
  | .null | .placeholder _ => .string none

/-- The value of an expression, both operands of every AND and OR being read. -/
def Expr.reading (row : Row) : Expr → ParseResult
  | .binaryOp left .and right => .boolean ((left.reading row).isTrue && (right.reading row).isTrue)
  | .binaryOp left .or right => .boolean ((left.reading row).isTrue || (right.reading row).isTrue)
  | .binaryOp left op right => .boolean (ParseResult.holds op (left.reading row) (right.reading row))
  | .value val => val.reading
  | .identifier ident => .string ((row.lookup ident.value).getD none)
  | .compoundIdentifier idents => .string ((idents.getLast?.bind fun ident => row.lookup ident.value).getD none)
  | .isNull expr => .boolean (expr.reading row).isNull
  | .isNotNull expr => .boolean (expr.reading row).isText
  | .nested expr => expr.reading row
  | .other => .string none

theorem compare_eq {op : BinaryOperator} (h : op ∈ [BinaryOperator.eq, .notEq, .lt, .ltEq, .gt, .gtEq])
    (l r : ParseResult) : EvaluateCondition.compare op l r = some (.ok (.boolean (ParseResult.holds op l r))) := by
  simp only [List.mem_cons, List.not_mem_nil, or_false] at h
  rcases h with rfl | rfl | rfl | rfl | rfl | rfl <;> rcases l with l | (_ | l) <;> rcases r with r | (_ | r) <;>
    simp [EvaluateCondition.compare, ParseResult.holds, bne, Bool.beq_eq_decide_eq]

/-- A comparison operator takes the comparison branch. -/
theorem evaluate_compare {op : BinaryOperator} (h : op ∈ [BinaryOperator.eq, .notEq, .lt, .ltEq, .gt, .gtEq])
    (row : Row) (l r : Expr) : Parse.evaluate row (.binaryOp l op r) =
      EvaluateCondition.evaluate op (Parse.evaluate row l) (Parse.evaluate row r) := by
  simp only [List.mem_cons, List.not_mem_nil, or_false] at h
  rcases h with rfl | rfl | rfl | rfl | rfl | rfl <;> rfl

theorem reading_compare {op : BinaryOperator} (h : op ∈ [BinaryOperator.eq, .notEq, .lt, .ltEq, .gt, .gtEq])
    (row : Row) (l r : Expr) :
    (Expr.binaryOp l op r).reading row = .boolean (ParseResult.holds op (l.reading row) (r.reading row)) := by
  simp only [List.mem_cons, List.not_mem_nil, or_false] at h
  rcases h with rfl | rfl | rfl | rfl | rfl | rfl <;> rfl

theorem column_eq {row : Row} {name : String} (h : name ∈ row) :
    Parse.column row name = some (.ok (.string ((row.lookup name).getD none))) := by
  obtain ⟨v, hv⟩ := Option.isSome_iff_exists.1 (AList.lookup_isSome.2 h)
  rw [Parse.column, hv]; rfl

/-- A condition reads as a truth value. -/
theorem Cond.reading_boolean (row : Row) : ∀ {e : Expr}, Cond e → ∃ b, e.reading row = .boolean b
  | _, .truth b => ⟨b, rfl⟩
  | _, .and _ _ => ⟨_, rfl⟩
  | _, .or _ _ => ⟨_, rfl⟩
  | _, .compare hop _ _ => ⟨_, reading_compare hop row _ _⟩
  | _, .isNull _ => ⟨_, rfl⟩
  | _, .isNotNull _ => ⟨_, rfl⟩
  | _, .nested he => he.reading_boolean row

mutual
/-- **The short circuits make no difference** to a condition, on a row that has its columns. -/
theorem Cond.evaluate_eq {row : Row} : ∀ {e : Expr}, Cond e → (∀ c ∈ e.columns, c ∈ row) →
    Parse.evaluate row e = some (.ok (e.reading row))
  | _, .truth b, _ => rfl
  | _, .and hl hr, hc => by
    have el := hl.evaluate_eq fun c h => hc c (by simp [Expr.columns, h])
    have er := hr.evaluate_eq fun c h => hc c (by simp [Expr.columns, h])
    obtain ⟨bl, hbl⟩ := hl.reading_boolean row
    obtain ⟨br, hbr⟩ := hr.reading_boolean row
    rw [Parse.evaluate, el, er, Expr.reading, hbl, hbr]
    cases bl <;> rfl
  | _, .or hl hr, hc => by
    have el := hl.evaluate_eq fun c h => hc c (by simp [Expr.columns, h])
    have er := hr.evaluate_eq fun c h => hc c (by simp [Expr.columns, h])
    obtain ⟨bl, hbl⟩ := hl.reading_boolean row
    obtain ⟨br, hbr⟩ := hr.reading_boolean row
    rw [Parse.evaluate, el, er, Expr.reading, hbl, hbr]
    cases bl <;> rfl
  | _, .compare hop hl hr, hc => by
    have el := hl.evaluate_eq fun c h => hc c (by simp [Expr.columns, h])
    have er := hr.evaluate_eq fun c h => hc c (by simp [Expr.columns, h])
    rw [evaluate_compare hop, el, er, reading_compare hop]
    exact compare_eq hop _ _
  | _, @Cond.isNull e he, hc => by
    rw [Parse.evaluate, he.evaluate_eq hc, Expr.reading]
    rcases e.reading row with b | (_ | s) <;> rfl
  | _, @Cond.isNotNull e he, hc => by
    rw [Parse.evaluate, he.evaluate_eq hc, Expr.reading]
    rcases e.reading row with b | (_ | s) <;> rfl
  | _, .nested he, hc => he.evaluate_eq hc
theorem Term.evaluate_eq {row : Row} : ∀ {e : Expr}, Term e → (∀ c ∈ e.columns, c ∈ row) →
    Parse.evaluate row e = some (.ok (e.reading row))
  | _, .cond he, hc => he.evaluate_eq hc
  | _, .column ident, hc => column_eq (hc ident.value (by simp [Expr.columns]))
  | _, @Term.qualified idents hne, hc => by
    have hlast := List.getLast?_eq_some_getLast hne
    have hcolumn := column_eq (hc (idents.getLast hne).value (by simp [Expr.columns, hlast]))
    rw [Parse.evaluate, hlast, Expr.reading, hlast]
    exact hcolumn
  | _, .number digits, _ => rfl
  | _, .string form value, _ => rfl
  | _, .null, _ => rfl
  | _, .nested he, hc => he.evaluate_eq hc
end

/-- **Conditions evaluate to a truth value** on a row that has their columns. -/
theorem Cond.evaluates {row : Row} {e : Expr} (he : Cond e) (hc : ∀ c ∈ e.columns, c ∈ row) :
    ∃ b, Parse.evaluate row e = some (.ok (.boolean b)) := by
  obtain ⟨b, hb⟩ := he.reading_boolean row
  exact ⟨b, by rw [he.evaluate_eq hc, hb]⟩

/-- The evaluator looks at the columns an expression mentions, and at no others. -/
theorem evaluate_congr {row row' : Row} {e : Expr} (h : ∀ c ∈ e.columns, row.lookup c = row'.lookup c) :
    Parse.evaluate row e = Parse.evaluate row' e := by
  induction e with
  | identifier ident => rw [Parse.evaluate, Parse.evaluate, Parse.column, h ident.value (by simp [Expr.columns])]; rfl
  | compoundIdentifier idents =>
    rw [Parse.evaluate, Parse.evaluate]
    cases hlast : idents.getLast? with
    | none => rfl
    | some ident =>
      show Parse.column row ident.value = Parse.column row' ident.value
      rw [Parse.column, h ident.value (by simp [Expr.columns, hlast])]; rfl
  | binaryOp left op right ihl ihr =>
    have hl := ihl fun c hc => h c (by simp [Expr.columns, hc])
    have hr := ihr fun c hc => h c (by simp [Expr.columns, hc])
    cases op <;> simp only [Parse.evaluate, hl, hr]
  | value val => rfl
  | isNull expr ih => rw [Parse.evaluate, Parse.evaluate, ih h]
  | isNotNull expr ih => rw [Parse.evaluate, Parse.evaluate, ih h]
  | nested expr ih => exact ih h
  | other => rfl

end MocksySql
