import MocksySql.Evaluator
/-!
# Rearranging conditions

Short circuits decide which operands of AND and OR are evaluated. For the supported conditions nothing else depends on
them: the value is the one read from both operands (`Cond.evaluate_eq`), so AND and OR commute and associate.

* `Rearranged` — operands swapped and regrouped, at any depth.
* `condition_order_independent` — a supported condition has a truth value, and every rearrangement has the same.
-/

namespace MocksySql

/-- Operands of AND and OR swapped and regrouped, with parentheses put around and taken away, anywhere inside. -/
inductive Rearranged : Expr → Expr → Prop
  | refl (e : Expr) : Rearranged e e
  | symm {e f : Expr} : Rearranged e f → Rearranged f e
  | trans {e f g : Expr} : Rearranged e f → Rearranged f g → Rearranged e g
  | andComm (l r : Expr) : Rearranged (.binaryOp l .and r) (.binaryOp r .and l)
  | orComm (l r : Expr) : Rearranged (.binaryOp l .or r) (.binaryOp r .or l)
  | andAssoc (a b c : Expr) :
      Rearranged (.binaryOp (.binaryOp a .and b) .and c) (.binaryOp a .and (.binaryOp b .and c))
  | orAssoc (a b c : Expr) : Rearranged (.binaryOp (.binaryOp a .or b) .or c) (.binaryOp a .or (.binaryOp b .or c))
  | parens (e : Expr) : Rearranged (.nested e) e
  | binaryOp (op : BinaryOperator) {l l' r r' : Expr} : Rearranged l l' → Rearranged r r' →
      Rearranged (.binaryOp l op r) (.binaryOp l' op r')
  | isNull {e f : Expr} : Rearranged e f → Rearranged (.isNull e) (.isNull f)
  | isNotNull {e f : Expr} : Rearranged e f → Rearranged (.isNotNull e) (.isNotNull f)
  | nested {e f : Expr} : Rearranged e f → Rearranged (.nested e) (.nested f)

/-! ## The grammar, backwards -/

theorem cond_and_iff {l r : Expr} : Cond (.binaryOp l .and r) ↔ Cond l ∧ Cond r := by
  constructor
  · rintro (_ | ⟨hl, hr⟩ | _ | ⟨hop, _, _⟩)
    · exact ⟨hl, hr⟩
    · simp at hop
  · rintro ⟨hl, hr⟩
    exact .and hl hr

theorem cond_or_iff {l r : Expr} : Cond (.binaryOp l .or r) ↔ Cond l ∧ Cond r := by
  constructor
  · rintro (_ | _ | ⟨hl, hr⟩ | ⟨hop, _, _⟩)
    · exact ⟨hl, hr⟩
    · simp at hop
  · rintro ⟨hl, hr⟩
    exact .or hl hr

theorem cond_compare_iff {l r : Expr} {op : BinaryOperator} (hand : op ≠ .and) (hor : op ≠ .or) :
    Cond (.binaryOp l op r) ↔ op ∈ [BinaryOperator.eq, .notEq, .lt, .ltEq, .gt, .gtEq] ∧ Term l ∧ Term r := by
  constructor
  · rintro (_ | _ | _ | ⟨hop, hl, hr⟩)
    · exact absurd rfl hand
    · exact absurd rfl hor
    · exact ⟨hop, hl, hr⟩
  · rintro ⟨hop, hl, hr⟩
    exact .compare hop hl hr

theorem cond_isNull_iff {e : Expr} : Cond (.isNull e) ↔ Term e :=
  ⟨fun h => by cases h; assumption, .isNull⟩

theorem cond_isNotNull_iff {e : Expr} : Cond (.isNotNull e) ↔ Term e :=
  ⟨fun h => by cases h; assumption, .isNotNull⟩

theorem cond_nested_iff {e : Expr} : Cond (.nested e) ↔ Cond e :=
  ⟨fun h => by cases h; assumption, .nested⟩

theorem term_binaryOp_iff {l r : Expr} {op : BinaryOperator} : Term (.binaryOp l op r) ↔ Cond (.binaryOp l op r) :=
  ⟨fun h => by cases h; assumption, .cond⟩

theorem term_isNull_iff {e : Expr} : Term (.isNull e) ↔ Cond (.isNull e) :=
  ⟨fun h => by cases h; assumption, .cond⟩

theorem term_isNotNull_iff {e : Expr} : Term (.isNotNull e) ↔ Cond (.isNotNull e) :=
  ⟨fun h => by cases h; assumption, .cond⟩

theorem term_nested_iff {e : Expr} : Term (.nested e) ↔ Term e := by
  constructor
  · rintro (h | _ | _ | _ | _ | _ | h)
    · exact .cond (cond_nested_iff.1 h)
    · exact h
  · exact .nested

/-! ## What a rearrangement keeps -/

namespace Rearranged

variable {e f : Expr}

theorem cond_iff_and_term_iff (h : Rearranged e f) : (Cond e ↔ Cond f) ∧ (Term e ↔ Term f) := by
  induction h with
  | refl e => exact ⟨Iff.rfl, Iff.rfl⟩
  | symm _ ih => exact ⟨ih.1.symm, ih.2.symm⟩
  | trans _ _ ih₁ ih₂ => exact ⟨ih₁.1.trans ih₂.1, ih₁.2.trans ih₂.2⟩
  | andComm l r => simp only [term_binaryOp_iff, cond_and_iff, and_comm, and_self]
  | orComm l r => simp only [term_binaryOp_iff, cond_or_iff, and_comm, and_self]
  | andAssoc a b c => simp only [term_binaryOp_iff, cond_and_iff, and_assoc, and_self]
  | orAssoc a b c => simp only [term_binaryOp_iff, cond_or_iff, and_assoc, and_self]
  | parens e => exact ⟨cond_nested_iff, term_nested_iff⟩
  | @binaryOp op l l' r r' _ _ ihl ihr =>
    rw [term_binaryOp_iff, term_binaryOp_iff]
    refine and_self_iff.2 ?_
    by_cases hand : op = .and
    · rw [hand, cond_and_iff, cond_and_iff, ihl.1, ihr.1]
    · by_cases hor : op = .or
      · rw [hor, cond_or_iff, cond_or_iff, ihl.1, ihr.1]
      · rw [cond_compare_iff hand hor, cond_compare_iff hand hor, ihl.2, ihr.2]
  | isNull _ ih => simp only [term_isNull_iff, cond_isNull_iff, ih.2, and_self]
  | isNotNull _ ih => simp only [term_isNotNull_iff, cond_isNotNull_iff, ih.2, and_self]
  | nested _ ih => rw [cond_nested_iff, cond_nested_iff, term_nested_iff, term_nested_iff]; exact ih

theorem mem_columns_iff (h : Rearranged e f) (c : String) : c ∈ e.columns ↔ c ∈ f.columns := by
  induction h with
  | refl e => exact Iff.rfl
  | symm _ ih => exact ih.symm
  | trans _ _ ih₁ ih₂ => exact ih₁.trans ih₂
  | andComm l r | orComm l r => simp only [Expr.columns, List.mem_append, or_comm]
  | andAssoc a b c | orAssoc a b c => simp only [Expr.columns, List.mem_append, or_assoc]
  | parens e => exact Iff.rfl
  | binaryOp op _ _ ihl ihr => simp only [Expr.columns, List.mem_append, ihl, ihr]
  | isNull _ ih | isNotNull _ ih | nested _ ih => exact ih

/-- AND and OR read both operands: their order and grouping do not matter. -/
theorem reading_eq (h : Rearranged e f) (row : Row) : e.reading row = f.reading row := by
  induction h with
  | refl e => rfl
  | symm _ ih => exact ih.symm
  | trans _ _ ih₁ ih₂ => exact ih₁.trans ih₂
  | andComm l r => rw [Expr.reading, Expr.reading, Bool.and_comm]
  | orComm l r => rw [Expr.reading, Expr.reading, Bool.or_comm]
  | andAssoc a b c => simp only [Expr.reading, ParseResult.isTrue, Bool.and_assoc]
  | orAssoc a b c => simp only [Expr.reading, ParseResult.isTrue, Bool.or_assoc]
  | parens e => rfl
  | binaryOp op _ _ ihl ihr => cases op <;> simp only [Expr.reading, ihl, ihr]
  | isNull _ ih | isNotNull _ ih => rw [Expr.reading, Expr.reading, ih]
  | nested _ ih => exact ih

end Rearranged

/-- **A condition has a truth value, in whatever order it is written**: on a row that has its columns it evaluates to what
is read from both operands of every AND and OR, and so does every rearrangement. -/
theorem condition_order_independent {row : Row} {e : Expr} (he : Cond e) (hcolumns : ∀ c ∈ e.columns, c ∈ row) :
    (∃ b, Parse.evaluate row e = some (.ok (.boolean b)) ∧ e.reading row = .boolean b) ∧
      ∀ f, Rearranged e f → Parse.evaluate row f = Parse.evaluate row e := by
  refine ⟨?_, fun f hf => ?_⟩
  · obtain ⟨b, hb⟩ := he.reading_boolean row
    exact ⟨b, by rw [he.evaluate_eq hcolumns, hb], hb⟩
  · have hcond : Cond f := hf.cond_iff_and_term_iff.1.1 he
    have hpresent : ∀ c ∈ f.columns, c ∈ row := fun c hc => hcolumns c ((hf.mem_columns_iff c).2 hc)
    rw [hcond.evaluate_eq hpresent, he.evaluate_eq hcolumns, hf.reading_eq]

/-- `x IS NULL AND a = 'SUCCESS'` -/
theorem condition_order_independent_null :
    Parse.evaluate (((∅ : Row).insert "a" (some "1")).insert "x" none)
        (.binaryOp (.binaryOp (.identifier ⟨"a", none⟩) .eq (.value (.string .doubleQuoted "SUCCESS"))) .and
          (.isNull (.identifier ⟨"x", none⟩))) =
      Parse.evaluate (((∅ : Row).insert "a" (some "1")).insert "x" none)
        (.binaryOp (.isNull (.identifier ⟨"x", none⟩)) .and
          (.binaryOp (.identifier ⟨"a", none⟩) .eq (.value (.string .doubleQuoted "SUCCESS")))) :=
  (condition_order_independent
    (.and (.isNull (.column _)) (.compare (by decide) (.column _) (.string _ _))) (by decide)).2 _ (.andComm _ _)

end MocksySql
