import MocksySql.EvaluatorSafety
import MocksySql.RowFrame
/-!
# Which rows can be rewritten

A row of a table with recorded UPDATEs is read field by field, the UPDATEs' WHEREs are evaluated on it, and the client's own
WHERE on what it is rewritten to. Each of the three can panic; the loop over the fields cannot.

| here | there |
| --- | --- |
| `rewrittenRow`  | `row` behind the second loop (`result_set.rs:135-151`) |
| `leftOut`       | `packet.skip` (`:153-166`) |
| `PassesAsRow`   | what `State::HydrateRows` does with a packet of type `Other` (`:351-361`) |

* `overrideRow_iff` — `override_row` returns exactly for the fields of a row that can be rewritten.
* `hydrateRow_iff` — a packet of type `Other` goes through exactly if it passes as a row.
-/

namespace MocksySql
open FieldDecode ConditionalUpdate

/-- The columns of these names replaced, where they are assigned. -/
def Row.writeAmong (row : Row) (names : List String) (o : Option Assignments) : Row where
  entries := row.entries.map fun e => ⟨e.1, if e.1 ∈ names then (o.bind (·.lookup e.1)).getD e.2 else e.2⟩
  nodupKeys := by
    rw [List.NodupKeys, List.keys, List.map_map]
    exact row.nodupKeys

theorem Row.lookup_writeAmong (row : Row) (names : List String) (o : Option Assignments) (c : String) :
    (row.writeAmong names o).lookup c =
      (row.lookup c).map fun v => if c ∈ names then (o.bind (·.lookup c)).getD v else v :=
  @List.dlookup_map₂ _ _ _ _ row.entries (fun c v => if c ∈ names then (o.bind (·.lookup c)).getD v else v) c

/-- The row the client's own WHERE is evaluated on: as many of the first columns are rewritten as the row has names. -/
def rewrittenRow (columns : List ColumnDefinition) (fields : List (Option Bytes)) (diff : StateDifference) : Row :=
  (rowRead columns fields ∅).writeAmong
    ((columns.take (distinctNames (columns.take fields.length))).map (·.orgName)) (appliedUpdate columns fields diff)

/-- Every WHERE can be evaluated: those of the UPDATEs on the row as it came, the client's own on the row as it is
rewritten. -/
structure Rewritable (columns : List ColumnDefinition) (fields : List (Option Bytes)) (diff : StateDifference)
    (selection : Option Expr) : Prop where
  recorded : ∀ e ∈ diff.iter, ∀ expr ∈ e.2.1, expr.Safe (rowRead columns fields ∅)
  own : ∀ expr ∈ selection, expr.Safe (rewrittenRow columns fields diff)

/-- Is the client's WHERE false of the row? -/
def leftOut (row : Row) : Option Expr → Bool
  | none => false
  | some expr =>
    match expr.outcome row with
    | .ok (.boolean false) => true
    | _ => false

/-- The bytes of a packet go through among the rows of these columns, and are sent on or dropped: they are not looked at
where nothing is recorded of the first column's table, and else are the fields of a row that can be rewritten. -/
inductive PassesAsRow (c : Connection) (columns : List ColumnDefinition) (body : Bytes) : Bool → Prop
  | unrecorded {column : ColumnDefinition} : columns.head? = some column → c.diff.lookup column.orgTable = none →
      PassesAsRow c columns body false
  | rewritten {column : ColumnDefinition} {diff : StateDifference} {command : Command} {fields : List (Option Bytes)} :
      columns.head? = some column → c.diff.lookup column.orgTable = some diff → c.lastCommand = some command →
      FieldsRead body fields → fields.length ≤ columns.length → Rewritable columns fields diff command.selection →
      PassesAsRow c columns body (leftOut (rewrittenRow columns fields diff) command.selection)

theorem passesAsRow_holding {c : Connection} {self : ResponseAccumulator} {columns : List ColumnDefinition} {body : Bytes}
    {dropped : Bool} : PassesAsRow (c.holding self) columns body dropped ↔ PassesAsRow c columns body dropped := by
  constructor
  · rintro (⟨hhead, hdiff⟩ | ⟨hhead, hdiff, hcommand, hfields, hle, hrewritable⟩)
    · exact .unrecorded hhead hdiff
    · exact .rewritten hhead hdiff hcommand hfields hle hrewritable
  · rintro (⟨hhead, hdiff⟩ | ⟨hhead, hdiff, hcommand, hfields, hle, hrewritable⟩)
    · exact .unrecorded hhead hdiff
    · exact .rewritten hhead hdiff hcommand hfields hle hrewritable

section
variable {columns : List ColumnDefinition} {fields : List (Option Bytes)} {row : Row}

/-! ## Fewer fields than columns -/

/-- Columns without a field are not in the row. -/
theorem rowRead_take : ∀ (columns : List ColumnDefinition) (fields : List (Option Bytes)) (row : Row),
    rowRead (columns.take fields.length) fields row = rowRead columns fields row
  | [], _, _ => by rw [List.take_nil]
  | _ :: _, [], _ => rfl
  | column :: columns, field :: fields, row => by
    rw [List.length_cons, List.take_succ_cons, rowRead, rowRead, rowRead_take columns fields]

theorem mem_rowRead_take (hle : fields.length ≤ columns.length) (name : String) :
    name ∈ rowRead columns fields ∅ ↔ name ∈ (columns.take fields.length).map (·.orgName) := by
  rw [← rowRead_take, mem_rowRead (List.length_take_of_le hle).symm]

theorem keys_rowRead_take (hle : fields.length ≤ columns.length) :
    (rowRead columns fields ∅).keys.length = distinctNames (columns.take fields.length) := by
  rw [← rowRead_take, keys_rowRead (List.length_take_of_le hle).symm]; rfl

/-- **The loop over the fields returns**: it reads columns that have one. -/
theorem rewriteFields_read (hle : fields.length ≤ columns.length) (diff : StateDifference) :
    ∃ row' newBody, ResponseAccumulator.rewriteFields columns (appliedUpdate columns fields diff)
        (List.range (rowRead columns fields ∅).keys.length) (rowRead columns fields ∅) [] = some (row', newBody) ∧
      ∀ c, row'.lookup c = (rewrittenRow columns fields diff).lookup c := by
  have hcount : distinctNames (columns.take fields.length) ≤ fields.length :=
    (distinctNames_le _).trans (List.length_take_le ..)
  obtain ⟨row', hrewrite, hrow'⟩ := @ResponseAccumulator.rewriteFields_take columns (rowRead columns fields ∅)
    (appliedUpdate columns fields diff) (distinctNames (columns.take fields.length)) (hcount.trans hle) fun name hname => by
      rw [mem_rowRead_take hle]
      rw [List.map_take] at hname ⊢
      exact List.take_subset_take_left _ hcount hname
  rw [keys_rowRead_take hle]
  refine ⟨row', _, hrewrite, fun c => ?_⟩
  rw [hrow', rewrittenRow, Row.lookup_writeAmong, lookup_override]
  split_ifs
  · rfl
  · rw [Option.map_id']

/-! ## What returns -/

theorem deselect_eq_some_iff {selection : Option Expr} {skipped : Bool} :
    ResponseAccumulator.deselect row selection = some skipped ↔
      (∀ expr ∈ selection, expr.Safe row) ∧ skipped = leftOut row selection := by
  cases selection with
  | none => simp [ResponseAccumulator.deselect, leftOut, eq_comm]
  | some expr =>
    rw [ResponseAccumulator.deselect, leftOut]
    by_cases hsafe : expr.Safe row
    · rw [evaluate_eq_outcome hsafe]
      rcases expr.outcome row with msg | (_ | _) | s <;> simp [hsafe, eq_comm]
    · rw [not_not.1 (mt evaluate_ne_none_iff.1 hsafe)]
      simp [hsafe]

variable {c : Connection} {self self' : ResponseAccumulator} {packet : Packet} {diff : StateDifference} {command : Command}

/-- **`override_row` returns** for the fields of a row that can be rewritten. -/
theorem overrideRow_iff (hcommand : c.lastCommand = some command) :
    (∃ packet', self.overrideRow packet diff c = some (self', packet')) ↔
      ∃ fields, FieldsRead packet.body fields ∧ fields.length ≤ self.columns.length ∧
        Rewritable self.columns fields diff command.selection ∧
          self' = { self with skippedPackets := self.skippedPackets +
            (leftOut (rewrittenRow self.columns fields diff) command.selection).toNat } := by
  constructor
  · rintro ⟨packet', h⟩
    obtain ⟨row, o, row', newBody, command', skipped, hparse, hchoose, hrewrite, hcommand', hskipped, rfl, -⟩ :=
      ResponseAccumulator.overrideRow_cases h
    cases hcommand.symm.trans hcommand'
    obtain ⟨fields, hfields, hle, rfl⟩ := ResponseAccumulator.parseRow_eq_some_iff.1 hparse
    obtain ⟨hrecorded, ho⟩ := ResponseAccumulator.chooseOverride_eq_some_iff.1 hchoose
    have happlied : o = appliedUpdate self.columns fields diff := by rw [← ho, Option.or_none]; rfl
    obtain ⟨row₁, newBody₁, hrewrite₁, hrow₁⟩ := rewriteFields_read hle diff
    rw [happlied, hrewrite₁] at hrewrite
    cases hrewrite
    rw [ResponseAccumulator.deselect_congr hrow₁] at hskipped
    obtain ⟨hown, rfl⟩ := deselect_eq_some_iff.1 hskipped
    exact ⟨fields, hfields, hle, ⟨fun e he expr hexpr =>
      evaluate_ne_none_iff.1 (hrecorded e.2 (List.mem_map_of_mem he) expr hexpr), hown⟩, rfl⟩
  · rintro ⟨fields, hfields, hle, ⟨hrecorded, hown⟩, rfl⟩
    have hparse := ResponseAccumulator.parseRow_eq_some_iff.2 ⟨fields, hfields, hle, rfl⟩
    have hchoose : ResponseAccumulator.chooseOverride (rowRead self.columns fields ∅) (diff.iter.map (·.2)) none =
        some (appliedUpdate self.columns fields diff) := by
      refine ResponseAccumulator.chooseOverride_eq_some_iff.2 ⟨fun entry hentry expr hexpr => ?_, Option.or_none⟩
      obtain ⟨e, he, rfl⟩ := List.mem_map.1 hentry
      exact evaluate_ne_none_iff.2 (hrecorded e he expr hexpr)
    obtain ⟨row', newBody, hrewrite, hrow'⟩ := rewriteFields_read hle diff
    have hskipped := deselect_eq_some_iff.2 ⟨hown, rfl⟩
    rw [← ResponseAccumulator.deselect_congr hrow'] at hskipped
    simp only [ResponseAccumulator.overrideRow, hparse, hchoose, hrewrite, hcommand, hskipped, Option.bind_eq_bind,
      Option.bind_some]
    exact ⟨_, rfl⟩

/-- **A packet of type `Other` among the rows** goes through exactly if it passes as a row. -/
theorem hydrateRow_iff (hp : packet.pType = .other) (hcommand : c.lastCommand = some command) :
    (∃ packet' flags, self.hydrateRow packet c = some (self', packet', flags)) ↔
      ∃ dropped, PassesAsRow c self.columns packet.body dropped ∧
        self' = { self with skippedPackets := self.skippedPackets + dropped.toNat } := by
  unfold ResponseAccumulator.hydrateRow
  simp only [hp]
  cases hhead : self.columns.head? with
  | none =>
    refine iff_of_false (by rintro ⟨_, _, ⟨⟩⟩) ?_
    rintro ⟨_, hpass, -⟩
    cases hpass with
    | unrecorded hhead' => cases hhead.symm.trans hhead'
    | rewritten hhead' => cases hhead.symm.trans hhead'
  | some column =>
    simp only
    cases hlookup : c.diff.lookup column.orgTable with
    | none =>
      simp only [Option.some.injEq, Prod.mk.injEq, exists_and_left, exists_eq', and_true]
      constructor
      · rintro rfl
        exact ⟨false, .unrecorded hhead hlookup, rfl⟩
      · rintro ⟨dropped, hpass, rfl⟩
        cases hpass with
        | unrecorded => rfl
        | rewritten hhead' hlookup' =>
          cases hhead.symm.trans hhead'
          cases hlookup.symm.trans hlookup'
    | some diff =>
      have hover := @overrideRow_iff c self self' packet diff command hcommand
      simp only [Option.map_eq_some_iff, Prod.mk.injEq, Prod.exists]
      constructor
      · rintro ⟨packet', flags, acc, packet₁, hreturns, rfl, -, -⟩
        obtain ⟨fields, hfields, hle, hrewritable, hself⟩ := hover.1 ⟨packet₁, hreturns⟩
        exact ⟨_, .rewritten hhead hlookup hcommand hfields hle hrewritable, hself⟩
      · rintro ⟨dropped, hpass, hself⟩
        cases hpass with
        | unrecorded hhead' hlookup' =>
          cases hhead.symm.trans hhead'
          cases hlookup.symm.trans hlookup'
        | @rewritten column' diff' command' fields hhead' hlookup' hcommand' hfields hle hrewritable =>
          cases hhead.symm.trans hhead'
          cases hlookup.symm.trans hlookup'
          cases hcommand.symm.trans hcommand'
          obtain ⟨packet', hreturns⟩ := hover.2 ⟨fields, hfields, hle, hrewritable, hself⟩
          exact ⟨packet', none, self', packet', hreturns, rfl, rfl, rfl⟩

end

end MocksySql
