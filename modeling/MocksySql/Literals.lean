import MocksySql.RowFrame
/-!
# Literals, assigned and compared

A literal in a SET is stored as `Value::into_string` has it (`mod.rs:116`), a literal in a WHERE is taken apart by its
constructor (`evaluator.rs:45-78`).

* `SetRecords.lookup_eq` — what is stored, wherever the assignment stands in the SET.
* `same_reading_iff` — the two agree on strings and NULL, and on nothing else.
-/

namespace MocksySql

open FieldDecode

/-- The SET assigns the literal to the column, nothing behind that assigns the column again, and this is recorded of it. -/
def SetRecords (v : Value) (name : ObjectName) (assignments : Assignments) : Prop :=
  ∃ before after : List Assignment,
    processAssignments (before ++ ⟨.columnName name, .value v⟩ :: after) ∅ = .ok assignments ∧
      ∀ later ∈ after, ∀ other, later.target = .columnName other → other.last.value ≠ name.last.value

/-! ## What is stored -/

theorem processAssignments_append (before after : List Assignment) (processed : Assignments) :
    processAssignments (before ++ after) processed =
      (processAssignments before processed).bind (processAssignments after) := by
  induction before generalizing processed with
  | nil => rfl
  | cons assignment before ih =>
    obtain ⟨target, value⟩ := assignment
    cases value with
    | value value =>
      cases target with
      | columnName name => exact ih _
      | tuple names => rfl
    | _ => rfl

theorem lookup_processAssignments {column : String} {processed a : Assignments} {assignments : List Assignment}
    (hothers : ∀ later ∈ assignments, ∀ other, later.target = .columnName other → other.last.value ≠ column)
    (h : processAssignments assignments processed = .ok a) : a.lookup column = processed.lookup column := by
  fun_induction processAssignments assignments processed with
  | case1 processed => cases h; rfl
  | case2 => cases h
  | case3 processed assignment rest value hvalue name htarget ih =>
    rw [List.forall_mem_cons] at hothers
    rw [ih hothers.2 h, AList.lookup_insert_ne (Ne.symm (hothers.1 name htarget))]
  | case4 => cases h

theorem SetRecords.lookup_eq {v : Value} {name : ObjectName} {a : Assignments} (h : SetRecords v name a) :
    a.lookup name.last.value = some v.intoString := by
  obtain ⟨before, after, hset, hothers⟩ := h
  rw [processAssignments_append] at hset
  cases hbefore : processAssignments before ∅ with
  | error msg => rw [hbefore] at hset; cases hset
  | ok processed =>
    rw [hbefore] at hset
    rw [lookup_processAssignments hothers hset, AList.lookup_insert]

/-! ## What the rewritten row has -/

/-- The loop leaves what is assigned in every column it visits. -/
theorem rewriteFields_visited {columns : List ColumnDefinition} {o : Option Assignments} {new : Option String}
    {column : ColumnDefinition} (hnew : o.bind (·.lookup column.orgName) = some new) :
    ∀ {is : List Nat} {row row' : Row} {body body' : Bytes},
      ResponseAccumulator.rewriteFields columns o is row body = some (row', body') →
      ∀ i ∈ is, columns[i]? = some column → row'.lookup column.orgName = some new
  | j :: is, row, row', body, body', h, i, hi, hcolumn => by
    simp only [ResponseAccumulator.rewriteFields, Option.bind_eq_bind, Option.bind_eq_some_iff] at h
    obtain ⟨visited, hvisited, value, -, h⟩ := h
    rcases List.mem_cons.1 hi with rfl | hi
    · cases hcolumn.symm.trans hvisited
      rw [hnew] at h
      rcases ResponseAccumulator.rewriteFields_lookup h column.orgName with hkept | ⟨_, _, -, hassigned, hlookup⟩
      · rw [hkept, AList.lookup_insert]
      · rw [hlookup, ← hassigned, hnew]
    · cases hassigned : o.bind (·.lookup visited.orgName) with
      | none =>
        rw [hassigned] at h
        exact rewriteFields_visited hnew h i hi hcolumn
      | some _ =>
        rw [hassigned] at h
        exact rewriteFields_visited hnew h i hi hcolumn

/-! ## The two readings -/

/-- Assignment and comparison read the literal the same way. -/
structure SameReading (v : Value) : Prop where
  stored : ∀ name a, SetRecords v name a → ∃ stored, a.lookup name.last.value = some stored ∧
    ∀ row, Parse.evaluate row (.value v) = some (.ok (.string stored))
  /-- A row `override_row` has rewritten satisfies `c = v`. -/
  satisfied : v ≠ .null → ∀ name a, SetRecords v name a → ∀ columns is row body row' body',
    ResponseAccumulator.rewriteFields columns (some a) is row body = some (row', body') →
    ∀ i ∈ is, ∀ column, columns[i]? = some column → column.orgName = name.last.value →
    ∀ quoteStyle, Parse.evaluate row' (.binaryOp (.identifier ⟨name.last.value, quoteStyle⟩) .eq (.value v)) =
      some (.ok (.boolean true))
  nullOnly : ∀ name a, SetRecords v name a → a.lookup name.last.value = some none → v = .null

theorem SetRecords.single (v : Value) (name : ObjectName) :
    SetRecords v name ((∅ : Assignments).insert name.last.value v.intoString) :=
  ⟨[], [], rfl, by simp⟩

/-- **Strings and NULL are read the same way, other literals are not**: a number or a truth value is stored as NULL. -/
theorem same_reading_iff (v : Value) : SameReading v ↔ v = .null ∨ ∃ form s, v = .string form s := by
  constructor
  · intro h
    cases v with
    | null => exact .inl rfl
    | string form s => exact .inr ⟨form, s, rfl⟩
    | _ =>
      exact .inl (h.nullOnly ⟨[], ⟨"", none⟩⟩ _ (.single _ _) (AList.lookup_insert _))
  · rintro (rfl | ⟨form, s, rfl⟩)
    · exact ⟨fun name a ha => ⟨none, ha.lookup_eq, fun _ => rfl⟩, fun hne => absurd rfl hne, fun _ _ _ _ => rfl⟩
    · refine ⟨fun name a ha => ⟨some s, ha.lookup_eq, fun _ => rfl⟩, ?_, ?_⟩
      · intro _ name a ha columns is row body row' body' hrewrite i hi column hcolumn hname quoteStyle
        have hlookup : row'.lookup name.last.value = some (some s) :=
          by
          rw [← hname]
          exact rewriteFields_visited (by rw [Option.bind_some, hname]; exact ha.lookup_eq) hrewrite i hi hcolumn
        simp [Parse.evaluate, Parse.column, Parse.literal, Value.intoString, hlookup, EvaluateCondition.evaluate,
          Evaluation.andThen, EvaluateCondition.compare]
      · intro name a ha hnull
        rw [ha.lookup_eq] at hnull
        cases hnull

/-- `SET c = 5` is recorded as `c = NULL`, where `c = 5` compares with `'5'`. -/
theorem number_stored_as_null : ¬ SameReading (.number "5") := by
  intro h
  cases h.nullOnly ⟨[], ⟨"c", none⟩⟩ _ (.single _ _) (AList.lookup_insert _)

end MocksySql
