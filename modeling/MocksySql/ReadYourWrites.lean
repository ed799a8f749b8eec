import MocksySql.RowFields
import MocksySql.Materialization
import MocksySql.Lib.Updates
/-!
# Reading recorded UPDATEs back

`override_row` rewrites a row with the assignments of one UPDATE: the last whose WHERE holds of the row as
the server sent it. A database applies all of them, each to the row as the earlier ones left it.

| here | in `Lib/Updates` |
| --- | --- |
| `Row`, `Assignments`, `Row.write` | `rowRows`, rows with columns and assignments to them |
| a recorded UPDATE | `recordedUpdate`, an update that applies where its WHERE holds |
| `chooseOverride`, `rewriteFields` | `Rows.lastMatch`, `Rows.override` |

* `parseRow_encodeRow` — a row is read back from its packet.
* `overrideRow_eq` — what `override_row` does is `Rows.applyLast`.
* `lastWord_of_same_columns` — UPDATEs for which that is enough.
* `emits_updated_row_iff` — it is `Rows.applyAll` exactly when the last matching UPDATE has the last word on
  every column.
* `first_update_hidden` — two UPDATEs of different columns, one of them not read back.
-/

namespace MocksySql
open FieldDecode ConditionalUpdate

/-! ## Values on the wire -/

namespace ResponseAccumulator

/-- What can be sent of a value: its length fits the longest length field. -/
def Fits (value : Option String) : Prop := ∀ s ∈ value, (asBytes s).length < 2 ^ 64

instance (value : Option String) : Decidable (Fits value) :=
  inferInstanceAs (Decidable (∀ s ∈ value, (asBytes s).length < 2 ^ 64))

/-- What is also read back: the decoder makes one char of every byte. -/
def Sendable (value : Option String) : Prop := Fits value ∧ ∀ s ∈ value, IsAscii s

instance (value : Option String) : Decidable (Sendable value) :=
  inferInstanceAs (Decidable (Fits value ∧ ∀ s ∈ value, IsAscii s))

theorem encodeField_eq (value : Option String) : encodeField value = fieldBytes (value.map asBytes) := by
  cases value <;> rfl

theorem Fits.fieldFits {value : Option String} (h : Fits value) : FieldFits (value.map asBytes) := by
  intro bytes hbytes
  obtain ⟨s, hs, rfl⟩ := Option.map_eq_some_iff.1 hbytes
  exact h s hs

theorem Sendable.latin1_eq {value : Option String} (h : Sendable value) : (value.map asBytes).map latin1 = value := by
  cases value with
  | none => rfl
  | some s => rw [Option.map_some, Option.map_some, latin1_asBytes (h.2 s rfl)]

theorem encodeField_cancel {v w : Option String} {xs ys : Bytes} (hv : Fits v) (hw : Fits w)
    (h : encodeField v ++ xs = encodeField w ++ ys) : v = w ∧ xs = ys := by
  rw [encodeField_eq, encodeField_eq] at h
  obtain ⟨hvalue, hrest⟩ := fieldBytes_cancel hv.fieldFits hw.fieldFits h
  exact ⟨Option.map_injective (fun _ _ => asBytes_injective) hvalue, hrest⟩

/-! ## Rows on the wire -/

/-- A row as the packet body of these columns. -/
def encodeRow (columns : List ColumnDefinition) (row : Row) : Bytes :=
  columns.flatMap fun column => encodeField ((row.lookup column.orgName).getD none)

theorem encodeRow_inj {columns : List ColumnDefinition} {row row' : Row}
    (hrow : ∀ c ∈ columns, Fits ((row.lookup c.orgName).getD none))
    (hrow' : ∀ c ∈ columns, Fits ((row'.lookup c.orgName).getD none)) :
    encodeRow columns row = encodeRow columns row' ↔
      ∀ c ∈ columns, (row.lookup c.orgName).getD none = (row'.lookup c.orgName).getD none := by
  induction columns with
  | nil => simp [encodeRow]
  | cons column columns ih =>
    rw [List.forall_mem_cons] at hrow hrow' ⊢
    rw [← ih hrow.2 hrow'.2]
    constructor
    · intro h
      exact encodeField_cancel hrow.1 hrow'.1 h
    · rintro ⟨hvalue, hrest⟩
      simp only [encodeRow, List.flatMap_cons] at hrest ⊢
      rw [hvalue, hrest]

theorem encodeRow_eq (columns : List ColumnDefinition) (row : Row) : encodeRow columns row =
    (columns.map fun column => ((row.lookup column.orgName).getD none).map asBytes).flatMap fieldBytes := by
  rw [encodeRow, List.flatMap_map]
  simp only [encodeField_eq]

/-- Fields that depend on the name of their column. -/
theorem lastField_map (g : String → Option Bytes) (name : String) (columns : List ColumnDefinition) :
    lastField columns (columns.map fun column => g column.orgName) name =
      if name ∈ columns.map (·.orgName) then some (g name) else none := by
  induction columns with
  | nil => rfl
  | cons column columns ih =>
    rw [List.map_cons, lastField, ih, List.map_cons]
    by_cases hlater : name ∈ columns.map (·.orgName)
    · rw [if_pos hlater, if_pos (List.mem_cons_of_mem _ hlater)]; rfl
    · by_cases hname : column.orgName = name
      · simp [hname, hlater]
      · simp [hname, hlater, Ne.symm hname]

/-- The row has these columns, each under a name of its own. -/
structure HasColumns (row : Row) (columns : List ColumnDefinition) : Prop where
  distinct : (columns.map (·.orgName)).Nodup
  mem_iff : ∀ c, c ∈ row ↔ c ∈ columns.map (·.orgName)

theorem HasColumns.congr {row row' : Row} {columns : List ColumnDefinition} (h : HasColumns row columns)
    (hlookup : ∀ c, row'.lookup c = row.lookup c) : HasColumns row' columns where
  distinct := h.distinct
  mem_iff c := by rw [← h.mem_iff, ← AList.lookup_isSome, hlookup, AList.lookup_isSome]

/-- **A row is read back** from its packet. -/
theorem parseRow_encodeRow {self : ResponseAccumulator} {packet : Packet} {row : Row}
    (hcolumns : HasColumns row self.columns) (hsend : ∀ c ∈ self.columns, Sendable ((row.lookup c.orgName).getD none))
    (hbody : packet.body = encodeRow self.columns row) :
    ∃ row', self.parseRow packet = some row' ∧ (∀ c, row'.lookup c = row.lookup c) ∧
      row'.keys.length = self.columns.length := by
  let fields := self.columns.map fun column => ((row.lookup column.orgName).getD none).map asBytes
  have hlength : fields.length = self.columns.length := List.length_map ..
  have hparse : self.parseRow packet = some (rowRead self.columns fields ∅) := by
    refine parseRow_fields hlength (fun f hf => ?_) (by rw [hbody, encodeRow_eq])
    obtain ⟨column, hcolumn, rfl⟩ := List.mem_map.1 hf
    exact (hsend column hcolumn).1.fieldFits
  refine ⟨rowRead self.columns fields ∅, hparse, fun c => ?_, ?_⟩
  · rw [lookup_rowRead, lastField_map fun name => ((row.lookup name).getD none).map asBytes, AList.lookup_empty,
      Option.or_none]
    by_cases hc : c ∈ row
    · obtain ⟨v, hv⟩ := Option.isSome_iff_exists.1 (AList.lookup_isSome.2 hc)
      have hmem := (hcolumns.mem_iff c).1 hc
      obtain ⟨column, hcolumn, rfl⟩ := List.mem_map.1 hmem
      rw [if_pos hmem, Option.map_some, (hsend column hcolumn).latin1_eq, hv]; rfl
    · rw [if_neg fun h => hc ((hcolumns.mem_iff c).2 h), AList.lookup_eq_none.2 hc]; rfl
  · rw [keys_rowRead hlength, List.dedup_eq_self.2 hcolumns.distinct, List.length_map]

end ResponseAccumulator

/-! ## Rows under UPDATEs -/

/-- The columns of the row that are assigned, replaced. -/
def Row.write (row : Row) (assignments : Assignments) : Row where
  entries := row.entries.map fun e => ⟨e.1, (assignments.lookup e.1).getD e.2⟩
  nodupKeys := by
    rw [List.NodupKeys, List.keys, List.map_map]
    exact row.nodupKeys

theorem Row.lookup_write (row : Row) (assignments : Assignments) (c : String) :
    (Row.write row assignments).lookup c = (row.lookup c).map fun v => (assignments.lookup c).getD v :=
  @List.dlookup_map₂ _ _ _ _ row.entries (fun c v => (assignments.lookup c).getD v) c

/-- The rows of the proxy and the assignments it has recorded. -/
def rowRows : Rows Row Assignments String (Option String) where
  get row c := row.lookup c
  assigned assignments c := assignments.lookup c
  write := Row.write
  get_write := Row.lookup_write

/-- A recorded UPDATE: it applies where it has no WHERE, or one that holds. -/
def recordedUpdate (entry : Option Expr × Assignments) : Update Row Assignments where
  applies row :=
    match entry.1 with
    | none => true
    | some selection => Parse.evaluate row selection == some (.ok (.boolean true))
  assignments := entry.2

theorem lookup_override (row : Row) (o : Option Assignments) (c : String) :
    (rowRows.override row o).lookup c = (row.lookup c).map fun v => (o.bind (·.lookup c)).getD v :=
  rowRows.get_override row o c

/-- Whether an UPDATE applies depends on the columns its WHERE mentions. -/
theorem applies_congr {row row' : Row} {entry : Option Expr × Assignments}
    (h : ∀ selection ∈ entry.1, ∀ c ∈ selection.columns, row.lookup c = row'.lookup c) :
    (recordedUpdate entry).applies row = (recordedUpdate entry).applies row' := by
  rw [recordedUpdate]
  cases hselection : entry.1 with
  | none => rfl
  | some selection => simp only [evaluate_congr (h selection hselection)]

theorem lookup_applyLast (row : Row) (updates : List (Update Row Assignments)) (c : String) :
    (rowRows.applyLast row updates).lookup c =
      (row.lookup c).map fun v => ((Rows.lastMatch row updates).bind (·.lookup c)).getD v :=
  rowRows.get_applyLast row updates c

theorem lookup_applyAll (row : Row) (updates : List (Update Row Assignments)) (c : String) :
    (rowRows.applyAll row updates).lookup c =
      (row.lookup c).map fun v => (rowRows.lastWrite (rowRows.effective row updates) c).getD v :=
  rowRows.get_applyAll row updates c

/-- The WHERE of a recorded UPDATE is in the supported fragment and mentions columns of the row. -/
def Supported (row : Row) (entry : Option Expr × Assignments) : Prop :=
  ∀ selection ∈ entry.1, Cond selection ∧ ∀ c ∈ selection.columns, c ∈ row

namespace ResponseAccumulator

/-- **The UPDATE that is applied**: every WHERE evaluates, and the last that matches counts. -/
theorem chooseOverride_eq_some_iff {row : Row} {overrideState o : Option Assignments} :
    ∀ {entries : List (Option Expr × Assignments)}, chooseOverride row entries overrideState = some o ↔
      (∀ e ∈ entries, ∀ selection ∈ e.1, Parse.evaluate row selection ≠ none) ∧
        (Rows.lastMatch row (entries.map recordedUpdate)).or overrideState = o
  | [] => by simp [chooseOverride, Rows.lastMatch]
  | (none, assignments) :: entries => by
    rw [chooseOverride, chooseOverride_eq_some_iff, List.forall_mem_cons]
    simp [Rows.lastMatch, recordedUpdate]
  | (some selection, assignments) :: entries => by
    rw [chooseOverride, List.forall_mem_cons]
    cases hevaluate : Parse.evaluate row selection with
    | none => simp [hevaluate]
    | some r =>
      have hmatch : recordedUpdate (some selection, assignments) = ⟨fun row => Parse.evaluate row selection ==
        some (.ok (.boolean true)), assignments⟩ := rfl
      rcases r with msg | (_ | _) | s
      all_goals
        simp only [chooseOverride_eq_some_iff]
        simp [Rows.lastMatch, hmatch, hevaluate]

theorem chooseOverride_eq {row : Row} {entries : List (Option Expr × Assignments)} {overrideState : Option Assignments}
    (hentries : ∀ e ∈ entries, Supported row e) :
    chooseOverride row entries overrideState =
      some ((Rows.lastMatch row (entries.map recordedUpdate)).or overrideState) := by
  refine chooseOverride_eq_some_iff.2 ⟨fun e he selection hselection hnone => ?_, rfl⟩
  obtain ⟨hcond, hcolumns⟩ := hentries e he selection hselection
  obtain ⟨b, hb⟩ := hcond.evaluates hcolumns
  rw [hb] at hnone
  cases hnone

theorem encodeRow_congr {columns : List ColumnDefinition} {row row' : Row}
    (h : ∀ c ∈ columns.map (·.orgName), row.lookup c = row'.lookup c) : encodeRow columns row = encodeRow columns row' := by
  induction columns with
  | nil => rfl
  | cons column columns ih =>
    rw [List.map_cons, List.forall_mem_cons] at h
    have hcons : ∀ r, encodeRow (column :: columns) r =
      encodeField ((r.lookup column.orgName).getD none) ++ encodeRow columns r := fun _ => rfl
    rw [hcons, hcons, h.1, ih h.2]

/-- One field: it is rewritten in the packet, and in the row for the client's own WHERE. -/
theorem rewriteFields_cons {columns : List ColumnDefinition} {o : Option Assignments} {i : Nat} {is : List Nat}
    {row : Row} {body : Bytes} {column : ColumnDefinition} (hcolumn : columns[i]? = some column)
    (hmem : column.orgName ∈ row) :
    ∃ row', rewriteFields columns o (i :: is) row body = rewriteFields columns o is row'
        (body ++ encodeField (((rowRows.override row o).lookup column.orgName).getD none)) ∧
      ∀ c, row'.lookup c = if c = column.orgName then (rowRows.override row o).lookup c else row.lookup c := by
  obtain ⟨v, hv⟩ := Option.isSome_iff_exists.1 (AList.lookup_isSome.2 hmem)
  have hnew : (rowRows.override row o).lookup column.orgName =
      some ((o.bind (·.lookup column.orgName)).getD v) := by rw [lookup_override, hv]; rfl
  rw [hnew, rewriteFields, hcolumn, Option.bind_eq_bind, Option.bind_some, hv, Option.bind_eq_bind, Option.bind_some]
  cases ho : o.bind (·.lookup column.orgName) with
  | some newValue =>
    refine ⟨row.insert column.orgName newValue, rfl, fun c => ?_⟩
    by_cases hc : c = column.orgName
    · subst hc
      rw [if_pos rfl, AList.lookup_insert, hnew, ho]; rfl
    · rw [if_neg hc, AList.lookup_insert_ne hc]
  | none =>
    refine ⟨row, rfl, fun c => ?_⟩
    by_cases hc : c = column.orgName
    · subst hc
      rw [if_pos rfl, hnew, ho, hv]; rfl
    · rw [if_neg hc]

/-- Overriding a row that is overridden in some columns. -/
theorem lookup_override_again {row row' : Row} {o : Option Assignments} {name : String}
    (h : ∀ c, row'.lookup c = if c = name then (rowRows.override row o).lookup c else row.lookup c) (c : String) :
    (rowRows.override row' o).lookup c = (rowRows.override row o).lookup c := by
  rw [lookup_override row', h]
  by_cases hc : c = name
  · rw [if_pos hc, lookup_override, Option.map_map]
    cases o.bind (·.lookup c) <;> rfl
  · rw [if_neg hc, lookup_override]

/-- The fields of some columns, be their names distinct or not. -/
theorem rewriteFields_eq {allColumns rest : List ColumnDefinition} {o : Option Assignments} :
    ∀ {columns : List ColumnDefinition} {k : Nat} {row : Row} {body : Bytes}, allColumns.drop k = columns ++ rest →
      (∀ c ∈ columns.map (·.orgName), c ∈ row) →
      ∃ row', rewriteFields allColumns o (List.range' k columns.length) row body =
          some (row', body ++ encodeRow columns (rowRows.override row o)) ∧
        ∀ c, row'.lookup c =
          if c ∈ columns.map (·.orgName) then (rowRows.override row o).lookup c else row.lookup c
  | [], k, row, body, _, _ => ⟨row, by simp [rewriteFields, encodeRow], fun c => by simp⟩
  | column :: columns, k, row, body, hcolumns, hmem => by
    rw [List.map_cons, List.forall_mem_cons] at hmem
    have hcolumn : allColumns[k]? = some column := by rw [← List.head?_drop, hcolumns]; rfl
    have hnext : allColumns.drop (k + 1) = columns ++ rest := by rw [← List.tail_drop, hcolumns]; rfl
    obtain ⟨row₁, hstep, hrow₁⟩ := @rewriteFields_cons allColumns o k (List.range' (k + 1) columns.length) row body
      column hcolumn hmem.1
    have hoverride := lookup_override_again hrow₁
    obtain ⟨row', hloop, hrow'⟩ := @rewriteFields_eq _ rest o columns (k + 1) row₁
      (body ++ encodeField (((rowRows.override row o).lookup column.orgName).getD none)) hnext fun c hc => by
        have hcmem := AList.lookup_isSome.2 (hmem.2 c hc)
        rw [← AList.lookup_isSome, hrow₁]
        split_ifs
        · rwa [lookup_override, Option.isSome_map]
        · exact hcmem
    refine ⟨row', ?_, fun c => ?_⟩
    · rw [List.length_cons, List.range'_succ, hstep, hloop, encodeRow_congr fun c _ => hoverride c, List.append_assoc]
      rfl
    · rw [hrow', hoverride, hrow₁, List.map_cons]
      by_cases hc : c ∈ columns.map (·.orgName)
      · rw [if_pos hc, if_pos (List.mem_cons_of_mem _ hc)]
      · simp only [List.mem_cons, hc, or_false, if_false]

/-- The first fields: the packet and the row for the client's own WHERE agree on them. -/
theorem rewriteFields_take {columns : List ColumnDefinition} {row : Row} (o : Option Assignments) {n : Nat}
    (hn : n ≤ columns.length) (hmem : ∀ c ∈ (columns.take n).map (·.orgName), c ∈ row) :
    ∃ row', rewriteFields columns o (List.range n) row [] =
        some (row', encodeRow (columns.take n) (rowRows.override row o)) ∧
      ∀ c, row'.lookup c =
        if c ∈ (columns.take n).map (·.orgName) then (rowRows.override row o).lookup c else row.lookup c := by
  obtain ⟨row', hrewrite, hrow'⟩ := @rewriteFields_eq columns (columns.drop n) o (columns.take n) 0 row []
    (by rw [List.drop_zero, List.take_append_drop]) hmem
  rw [List.length_take_of_le hn, ← List.range_eq_range'] at hrewrite
  exact ⟨row', hrewrite, hrow'⟩

/-- All fields: the packet and the row for the client's own WHERE agree. -/
theorem rewriteFields_all {columns : List ColumnDefinition} {row : Row} (o : Option Assignments)
    (hcolumns : HasColumns row columns) :
    ∃ row', rewriteFields columns o (List.range columns.length) row [] =
        some (row', encodeRow columns (rowRows.override row o)) ∧
      ∀ c, row'.lookup c = (rowRows.override row o).lookup c := by
  obtain ⟨row', hrewrite, hrow'⟩ := @rewriteFields_take columns row o columns.length (Nat.le_refl _) fun c hc => by
    rw [List.take_length] at hc
    exact (hcolumns.mem_iff c).2 hc
  rw [List.take_length] at hrewrite hrow'
  refine ⟨row', hrewrite, fun c => ?_⟩
  rw [hrow']
  by_cases hc : c ∈ columns.map (·.orgName)
  · rw [if_pos hc]
  · have hnone : row.lookup c = none := by
      rw [AList.lookup_eq_none, hcolumns.mem_iff]
      exact hc
    rw [if_neg hc, lookup_override, hnone]; rfl

theorem deselect_congr {row row' : Row} {selection : Option Expr} (h : ∀ c, row.lookup c = row'.lookup c) :
    deselect row selection = deselect row' selection := by
  cases selection with
  | none => rfl
  | some selection => rw [deselect, deselect, evaluate_congr fun c _ => h c]

theorem deselect_isSome (row : Row) (selection : Option Expr) :
    (∃ skipped, deselect row selection = some skipped) ↔ ∀ e ∈ selection, Parse.evaluate row e ≠ none := by
  cases selection with
  | none => simp [deselect]
  | some e =>
    rw [deselect]
    cases hevaluate : Parse.evaluate row e with
    | none => simp [hevaluate]
    | some r =>
      refine ⟨fun _ => by simp [hevaluate], fun _ => ?_⟩
      rcases r with msg | (b | s)
      · exact ⟨_, rfl⟩
      · cases b <;> exact ⟨_, rfl⟩
      · exact ⟨_, rfl⟩

/-- **What `override_row` does**: it applies the last recorded UPDATE that matches the row as the server sent it. -/
theorem overrideRow_eq {self : ResponseAccumulator} {packet : Packet} {diff : StateDifference} {connection : Connection}
    {command : Command} {row : Row} {entries : List (Option Expr × Assignments)}
    (hcolumns : HasColumns row self.columns) (hsend : ∀ c ∈ self.columns, Sendable ((row.lookup c.orgName).getD none))
    (hbody : packet.body = encodeRow self.columns row) (hdiff : diff.iter.map (·.2) = entries)
    (hentries : ∀ e ∈ entries, Supported row e) (hcommand : connection.lastCommand = some command) :
    self.overrideRow packet diff connection =
      (deselect (rowRows.applyLast row (entries.map recordedUpdate)) command.selection).map fun skipped =>
        ({ self with skippedPackets := self.skippedPackets + skipped.toNat },
          { packet with
            header := { size := (encodeRow self.columns (rowRows.applyLast row (entries.map recordedUpdate))).length
                        seq := packet.header.seq }
            body := encodeRow self.columns (rowRows.applyLast row (entries.map recordedUpdate))
            skip := packet.skip || skipped }) := by
  obtain ⟨row₁, hparse, hrow₁, hlength⟩ := parseRow_encodeRow hcolumns hsend hbody
  have hentries₁ : ∀ e ∈ entries, Supported row₁ e := by
    intro e he selection hselection
    obtain ⟨hcond, hmentions⟩ := hentries e he selection hselection
    refine ⟨hcond, fun c hc => ?_⟩
    rw [← AList.lookup_isSome, hrow₁, AList.lookup_isSome]
    exact hmentions c hc
  have hlast : Rows.lastMatch row₁ (entries.map recordedUpdate) = Rows.lastMatch row (entries.map recordedUpdate) := by
    refine Rows.lastMatch_congr fun u hu => ?_
    obtain ⟨e, -, rfl⟩ := List.mem_map.1 hu
    exact applies_congr fun _ _ c _ => hrow₁ c
  -- the row that was read back and the one that was sent are overridden alike
  have hoverride : ∀ c, (rowRows.override row₁ (Rows.lastMatch row (entries.map recordedUpdate))).lookup c =
      (rowRows.applyLast row (entries.map recordedUpdate)).lookup c := by
    intro c
    rw [Rows.applyLast, lookup_override, lookup_override, hrow₁]
  obtain ⟨row₂, hrewrite, hrow₂⟩ := rewriteFields_all (Rows.lastMatch row (entries.map recordedUpdate))
    (hcolumns.congr hrow₁)
  rw [encodeRow_congr fun c _ => hoverride c] at hrewrite
  simp only [overrideRow, hparse, hdiff, hcommand, Option.bind_eq_bind, Option.bind_some, chooseOverride_eq hentries₁,
    hlast, Option.or_none, hlength, hrewrite, deselect_congr fun c => (hrow₂ c).trans (hoverride c)]
  cases deselect (rowRows.applyLast row (entries.map recordedUpdate)) command.selection <;> rfl

end ResponseAccumulator

/-! ## Read your writes -/

/-- The last UPDATE that matches the row as the server sent it gives the column the value that the last
assignment to it gives, of those that take effect one after the other; where neither assigns it, it is as sent. -/
def LastWord (row : Row) (updates : List (Update Row Assignments)) (column : String) : Prop :=
  ∀ value ∈ row.lookup column, ((Rows.lastMatch row updates).bind (·.lookup column)).getD value =
    (rowRows.lastWrite (rowRows.effective row updates) column).getD value

instance (row : Row) (updates : List (Update Row Assignments)) (column : String) :
    Decidable (LastWord row updates column) :=
  inferInstanceAs (Decidable (∀ value ∈ row.lookup column, ((Rows.lastMatch row updates).bind (·.lookup column)).getD value =
    (rowRows.lastWrite (rowRows.effective row updates) column).getD value))

theorem lastWord_iff {row : Row} {updates : List (Update Row Assignments)} {column : String} (hmem : column ∈ row) :
    LastWord row updates column ↔
      (rowRows.applyLast row updates).lookup column = (rowRows.applyAll row updates).lookup column := by
  obtain ⟨value, hvalue⟩ := Option.isSome_iff_exists.1 (AList.lookup_isSome.2 hmem)
  rw [LastWord, lookup_applyLast, lookup_applyAll, hvalue, Option.map_some, Option.map_some, Option.some_inj]
  constructor
  · intro h
    exact h value rfl
  · rintro h _ ⟨⟩
    exact h

/-- **UPDATEs of one set of columns**, none of which a WHERE mentions: the last that matches has the last word. -/
theorem lastWord_of_same_columns {row : Row} {entries : List (Option Expr × Assignments)} {column : String}
    (hmentions : ∀ e ∈ entries, ∀ selection ∈ e.1, ∀ c ∈ selection.columns, ∀ e' ∈ entries, e'.2.lookup c = none)
    (hsame : ∀ e ∈ entries, ∀ e' ∈ entries, (e.2.lookup column).isSome → (e'.2.lookup column).isSome) :
    LastWord row (entries.map recordedUpdate) column := by
  have hkept : ∀ u ∈ entries.map recordedUpdate, ∀ v ∈ entries.map recordedUpdate, ∀ r,
      v.applies (rowRows.write r u.assignments) = v.applies r := by
    intro u hu v hv r
    obtain ⟨e', he', rfl⟩ := List.mem_map.1 hu
    obtain ⟨e, he, rfl⟩ := List.mem_map.1 hv
    refine applies_congr fun selection hselection c hc => ?_
    have hwrite : (rowRows.write r e'.2).lookup c = _ := Row.lookup_write r e'.2 c
    rw [recordedUpdate, hwrite, hmentions e he selection hselection c hc e' he']
    cases r.lookup c <;> rfl
  have hmatching : ∀ a ∈ Rows.matching row (entries.map recordedUpdate), ∃ e ∈ entries, e.2 = a := by
    intro a ha
    obtain ⟨u, hu, rfl⟩ := List.mem_map.1 ha
    obtain ⟨e, he, rfl⟩ := List.mem_map.1 (List.mem_filter.1 hu).1
    exact ⟨e, he, rfl⟩
  intro value _
  rw [rowRows.effective_eq_matching hkept, Rows.lastMatch_eq_getLast?]
  cases hlast : (Rows.matching row (entries.map recordedUpdate)).getLast? with
  | none =>
    rw [List.getLast?_eq_none_iff.1 hlast]
    rfl
  | some a =>
    obtain ⟨e, he, rfl⟩ := hmatching a (List.mem_of_getLast? hlast)
    rw [Option.bind_some]
    cases hv : e.2.lookup column with
    | some v => rw [rowRows.lastWrite_of_getLast? hlast hv]
    | none =>
      have hnone : ∀ a ∈ Rows.matching row (entries.map recordedUpdate), rowRows.assigned a column = none := by
        intro a ha
        obtain ⟨e', he', rfl⟩ := hmatching a ha
        by_contra hassigned
        have hsome := hsame e' he' e he (Option.isSome_iff_ne_none.2 hassigned)
        rw [hv] at hsome
        cases hsome
      rw [rowRows.lastWrite_eq_none hnone]

/-- A row whose values can be sent. -/
def Row.Fits (row : Row) : Prop := ∀ c, ResponseAccumulator.Fits ((row.lookup c).getD none)

/-- Writing what can be sent. -/
theorem Row.Fits.write {row : Row} {assignments : Assignments} (h : Row.Fits row)
    (hassignments : ∀ c, ∀ v ∈ assignments.lookup c, ResponseAccumulator.Fits v) :
    Row.Fits (Row.write row assignments) := by
  intro c
  have hc := h c
  rw [Row.lookup_write]
  cases hrow : row.lookup c with
  | none => rwa [hrow] at hc
  | some v =>
    rw [hrow] at hc
    cases hassigned : assignments.lookup c with
    | none => exact hc
    | some v' => exact hassignments c v' hassigned

/-- The table's entries are what `get_diff` has recorded of these calls, of a table it knew nothing of before. -/
structure Recording (env : Env) (tableName : String) (calls : List (List LiteralUpdate)) (diff : StateDifference) :
    Prop where
  uuids : Function.Injective env.uuid
  table : ∀ u ∈ calls.flatten, env.identToString u.name.last = tableName
  recorded : ∃ map drawn r, map.lookup tableName = none ∧ recordAll env map drawn calls = some r ∧
    r.1.lookup tableName = some diff

/-- The UPDATEs of these calls, in the order they were recorded. -/
def updates (calls : List (List LiteralUpdate)) : List (Update Row Assignments) :=
  (calls.flatten.map (·.entry)).map recordedUpdate

theorem Recording.iter {env : Env} {tableName : String} {calls : List (List LiteralUpdate)} {diff : StateDifference}
    (h : Recording env tableName calls diff) : diff.iter.map (·.2) = calls.flatten.map (·.entry) := by
  obtain ⟨map, drawn, ⟨map', drawn'⟩, hnew, hrecord, hdiff⟩ := h.recorded
  have hempty : tableEntries map tableName = [] := by rw [tableEntries, hnew]; rfl
  have hentries := recordAll_entries h.uuids h.table (fun e he => by rw [hempty] at he; cases he) hrecord
  rw [hempty, List.map_nil, List.nil_append, tableEntries, hdiff] at hentries
  exact hentries

/-- The packet is the row, as the server sends it under the columns the accumulator has. -/
structure RowPacket (acc : ResponseAccumulator) (packet : Packet) (row : Row) : Prop where
  columns : ResponseAccumulator.HasColumns row acc.columns
  sendable : ∀ c ∈ acc.columns, ResponseAccumulator.Sendable ((row.lookup c.orgName).getD none)
  body : packet.body = ResponseAccumulator.encodeRow acc.columns row

theorem RowPacket.fits {self : ResponseAccumulator} {packet : Packet} {row : Row} (h : RowPacket self packet row) :
    Row.Fits row := by
  intro c
  by_cases hc : c ∈ row
  · obtain ⟨column, hcolumn, rfl⟩ := List.mem_map.1 ((h.columns.mem_iff c).1 hc)
    exact (h.sendable column hcolumn).1
  · rw [AList.lookup_eq_none.2 hc]
    intro s hs
    cases hs

section
variable {env : Env} {tableName : String} {calls : List (List LiteralUpdate)} {diff : StateDifference}
  {self : ResponseAccumulator} {packet : Packet} {row : Row} {connection : Connection} {command : Command}

theorem write_fits (hfits : ∀ u ∈ calls.flatten, ∀ a ∈ u.set, ResponseAccumulator.Fits (a.2.map (·.2))) (r : Row)
    (u : Update Row Assignments) (hu : u ∈ updates calls) (hr : Row.Fits r) : Row.Fits (rowRows.write r u.assignments) := by
  obtain ⟨entry, hentry, rfl⟩ := List.mem_map.1 hu
  obtain ⟨update, hupdate, rfl⟩ := List.mem_map.1 hentry
  refine hr.write fun c v hv => ?_
  obtain ⟨a, ha, rfl⟩ := LiteralUpdate.lookup_assignments hv
  exact hfits update hupdate a ha

/-- The row of one UPDATE and the row of all of them, compared on the wire and column by column. -/
theorem applyLast_eq_applyAll_iff (hrow : RowPacket self packet row)
    (hfits : ∀ u ∈ calls.flatten, ∀ a ∈ u.set, ResponseAccumulator.Fits (a.2.map (·.2))) :
    ResponseAccumulator.encodeRow self.columns (rowRows.applyLast row (updates calls)) =
        ResponseAccumulator.encodeRow self.columns (rowRows.applyAll row (updates calls)) ↔
      ∀ column ∈ self.columns, LastWord row (updates calls) column.orgName := by
  have hlast : Row.Fits (rowRows.applyLast row (updates calls)) :=
    rowRows.applyLast_invariant (write_fits hfits) hrow.fits
  have hall : Row.Fits (rowRows.applyAll row (updates calls)) :=
    rowRows.applyAll_invariant (write_fits hfits) hrow.fits
  rw [ResponseAccumulator.encodeRow_inj (fun c _ => hlast c.orgName) fun c _ => hall c.orgName]
  refine forall₂_congr fun column hcolumn => ?_
  have hmem : column.orgName ∈ row := (hrow.columns.mem_iff _).2 (List.mem_map_of_mem hcolumn)
  obtain ⟨v, hv⟩ := Option.isSome_iff_exists.1 (AList.lookup_isSome.2 hmem)
  rw [lastWord_iff hmem, lookup_applyLast, lookup_applyAll, hv]
  simp only [Option.map_some, Option.getD_some, Option.some_inj]

/-- Columns that are not in the row stay out of it, so the two rows agree on all columns if they do on the row's. -/
theorem lookup_applyLast_eq (hrow : RowPacket self packet row)
    (h : ∀ column ∈ self.columns, LastWord row (updates calls) column.orgName) (c : String) :
    (rowRows.applyLast row (updates calls)).lookup c = (rowRows.applyAll row (updates calls)).lookup c := by
  by_cases hc : c ∈ row
  · obtain ⟨column, hcolumn, rfl⟩ := List.mem_map.1 ((hrow.columns.mem_iff c).1 hc)
    exact (lastWord_iff hc).1 (h column hcolumn)
  · have hnone : row.lookup c = none := AList.lookup_eq_none.2 hc
    rw [lookup_applyLast, lookup_applyAll, hnone, Option.map_none, Option.map_none]

/-- **Read your writes**, where the last matching UPDATE has the last word on every column (and the client's
own WHERE can be evaluated on the updated row). -/
theorem emits_updated_row_iff (hrecording : Recording env tableName calls diff) (hrow : RowPacket self packet row)
    (hsupported : ∀ u ∈ calls.flatten, Supported row u.entry)
    (hfits : ∀ u ∈ calls.flatten, ∀ a ∈ u.set, ResponseAccumulator.Fits (a.2.map (·.2)))
    (hcommand : connection.lastCommand = some command) :
    (∃ self' packet', self.overrideRow packet diff connection = some (self', packet') ∧
        packet'.body = ResponseAccumulator.encodeRow self.columns (rowRows.applyAll row (updates calls))) ↔
      (∀ selection ∈ command.selection, Parse.evaluate (rowRows.applyAll row (updates calls)) selection ≠ none) ∧
        ∀ column ∈ self.columns, LastWord row (updates calls) column.orgName := by
  have hentries : ∀ e ∈ calls.flatten.map (·.entry), Supported row e := by
    intro e he
    obtain ⟨u, hu, rfl⟩ := List.mem_map.1 he
    exact hsupported u hu
  have hdoes := ResponseAccumulator.overrideRow_eq hrow.columns hrow.sendable hrow.body hrecording.iter hentries hcommand
  have hskips := ResponseAccumulator.deselect_isSome (rowRows.applyAll row (updates calls)) command.selection
  rw [← hskips, ← applyLast_eq_applyAll_iff hrow hfits]
  constructor
  · rintro ⟨self', packet', heq, hbody⟩
    rw [hdoes] at heq
    obtain ⟨skipped, hskipped, hpacket⟩ := Option.map_eq_some_iff.1 heq
    cases hpacket
    have hword := (applyLast_eq_applyAll_iff hrow hfits).1 hbody
    refine ⟨⟨skipped, ?_⟩, hbody⟩
    rwa [← ResponseAccumulator.deselect_congr (lookup_applyLast_eq hrow hword)]
  · rintro ⟨⟨skipped, hskipped⟩, hbody⟩
    have hword := (applyLast_eq_applyAll_iff hrow hfits).1 hbody
    rw [← ResponseAccumulator.deselect_congr (lookup_applyLast_eq hrow hword)] at hskipped
    exact ⟨_, _, hdoes.trans (Option.map_eq_some_iff.2 ⟨skipped, hskipped, rfl⟩), hbody⟩

end

/-! ## A table `t` of two columns -/

/-- Every UUID is longer than the one before. -/
def sampleUuids : Env := { sampleEnv with uuid := fun n => String.ofList (List.replicate n '0') }

theorem sampleUuids_injective : Function.Injective sampleUuids.uuid := by
  intro m n h
  have hlength : (String.ofList (List.replicate m '0')).length = (String.ofList (List.replicate n '0')).length :=
    congrArg String.length h
  simpa using hlength

/-- `UPDATE t SET column = 'value' WHERE ..` -/
def sampleSet (column value : String) (selection : Option Expr) : LiteralUpdate where
  name := ⟨[], ⟨"t", none⟩⟩
  set := [(⟨[], ⟨column, none⟩⟩, some (.singleQuoted, value))]
  selection := selection

/-- What is recorded of `t`. -/
def sampleDiff (calls : List (List LiteralUpdate)) : StateDifference :=
  ((recordAll sampleUuids ∅ 0 calls).bind (·.1.lookup "t")).getD .new

/-- `x = '1', y = '2'` -/
def sampleRow : Row := ((∅ : Row).insert "y" (some "2")).insert "x" (some "1")

def sampleRows : ResponseAccumulator :=
  { ResponseAccumulator.default with columns := [sampleColumn, { sampleColumn with name := "y", orgName := "y" }] }

theorem mem_sampleRow (c : String) : c ∈ sampleRow ↔ c ∈ sampleRows.columns.map (·.orgName) := by
  rw [sampleRow, AList.mem_insert, AList.mem_insert]
  simp [sampleRows, sampleColumn]

theorem sampleRow_packet : RowPacket sampleRows (samplePacket 4 [1, 0x31, 1, 0x32] .other) sampleRow where
  columns := ⟨by decide, mem_sampleRow⟩
  sendable := by decide
  body := by decide

/-- `UPDATE t SET x = 'a' WHERE y = '2'` -/
def sampleWhere : LiteralUpdate :=
  sampleSet "x" "a" (some (.binaryOp (.identifier ⟨"y", none⟩) .eq (.value (.string .singleQuoted "2"))))

theorem sampleWhere_supported : Supported sampleRow sampleWhere.entry := by
  rintro selection ⟨⟩
  refine ⟨.compare (by decide) (.column _) (.string _ _), ?_⟩
  decide

/-- Two UPDATEs that match the row, the last with the last word on `x`. -/
theorem emits_updated_row_one :
    ∃ self' packet', sampleRows.overrideRow (samplePacket 4 [1, 0x31, 1, 0x32] .other)
        (sampleDiff [[sampleWhere], [sampleSet "x" "b" none]]) (sampleAwaiting 0x200) = some (self', packet') ∧
      packet'.body = ResponseAccumulator.encodeRow sampleRows.columns
        (rowRows.applyAll sampleRow (updates [[sampleWhere], [sampleSet "x" "b" none]])) := by
  refine (@emits_updated_row_iff sampleUuids "t" [[sampleWhere], [sampleSet "x" "b" none]] _ sampleRows _ _
    (sampleAwaiting 0x200) _ ⟨sampleUuids_injective, by decide, ⟨∅, 0, _, rfl, rfl, rfl⟩⟩ sampleRow_packet ?_
    (by decide) rfl).2 ⟨?_, by decide⟩
  · intro u hu
    simp only [List.flatten_cons, List.flatten_nil, List.append_nil, List.cons_append, List.nil_append, List.mem_cons,
      List.not_mem_nil, or_false] at hu
    rcases hu with rfl | rfl
    · exact sampleWhere_supported
    · rintro selection ⟨⟩
  · intro selection h
    cases h

/-- Two UPDATEs, of one column each: the row has the second one's value only. -/
theorem first_update_hidden :
    Recording sampleUuids "t" [[sampleSet "x" "a" none], [sampleSet "y" "b" none]]
        (sampleDiff [[sampleSet "x" "a" none], [sampleSet "y" "b" none]]) ∧
      RowPacket sampleRows (samplePacket 4 [1, 0x31, 1, 0x32] .other) sampleRow ∧
      ¬ ∃ self' packet', sampleRows.overrideRow (samplePacket 4 [1, 0x31, 1, 0x32] .other)
          (sampleDiff [[sampleSet "x" "a" none], [sampleSet "y" "b" none]]) (sampleAwaiting 0x200) =
            some (self', packet') ∧
        packet'.body = ResponseAccumulator.encodeRow sampleRows.columns (rowRows.applyAll sampleRow
          (updates [[sampleSet "x" "a" none], [sampleSet "y" "b" none]])) := by
  refine ⟨⟨sampleUuids_injective, by decide, ⟨∅, 0, _, rfl, rfl, rfl⟩⟩, sampleRow_packet, ?_⟩
  rintro ⟨self', packet', heq, hbody⟩
  cases heq
  revert hbody
  decide

end MocksySql
