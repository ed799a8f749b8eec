import MocksySql.ReadYourWrites
/-!
# What rewriting a row leaves alone

`override_row` takes a row apart into a map from column names to values and puts it together again from as many
columns as the map has keys (`result_set.rs:135`).

| here | there |
| --- | --- |
| `distinctNames`  | `row.len()`, the number of rounds of the loop |
| `lastField`      | what the map has kept of several fields of one name |
| `matchedUpdate`  | `override_state` behind the first loop |
| `writtenField`   | what the second loop writes for a column |

* `overrideRow_body` — the fields that are written.
* `frame_kept_iff` — the fields no UPDATE assigns stay where they are exactly if every column has its own name.
* `own_columns_iff` — when a row changes in columns of its own UPDATEs alone.
* `drops_justified_iff` — when a row is dropped for an UPDATE alone.
-/

namespace MocksySql
open FieldDecode ConditionalUpdate

/-- A packet with a row of these columns, no longer than a `Vec<u8>` can be. -/
structure RowSent (columns : List ColumnDefinition) (fields : List (Option Bytes)) (packet : Packet) : Prop where
  length : fields.length = columns.length
  body : packet.body = fields.flatMap fieldBytes
  bounded : packet.body.length < 2 ^ 63

/-- The values an UPDATE assigns, no longer than the length field of a text. -/
def TextSized (diff : StateDifference) : Prop :=
  ∀ e ∈ diff.iter, ∀ name, ∀ value ∈ e.2.2.lookup name, ResponseAccumulator.Fits value

def distinctNames (columns : List ColumnDefinition) : Nat := (columns.map (·.orgName)).dedup.length

/-- The last recorded UPDATE that matches the row. -/
def matchedUpdate (row : Row) (diff : StateDifference) : Option Assignments :=
  Rows.lastMatch row ((diff.iter.map (·.2)).map recordedUpdate)

/-- The UPDATE whose assignments are written into the row of these fields. -/
def appliedUpdate (columns : List ColumnDefinition) (fields : List (Option Bytes)) (diff : StateDifference) :
    Option Assignments := matchedUpdate (rowRead columns fields ∅) diff

/-- A char of every byte, and every char in UTF-8. -/
def recoded (field : Option Bytes) : Option Bytes := (field.map latin1).map asBytes

/-- What is written under this name: what the UPDATE assigns it, or the last field of the name. -/
def writtenField (columns : List ColumnDefinition) (fields : List (Option Bytes)) (o : Option Assignments)
    (name : String) : Option Bytes :=
  match o.bind (·.lookup name) with
  | some value => value.map asBytes
  | none => recoded ((lastField columns fields name).getD none)

section
variable {columns : List ColumnDefinition} {fields : List (Option Bytes)} {packet : Packet}

/-! ## Fields and columns -/

theorem fieldBytes_length_le {field : Option Bytes} (h : field ∈ fields) :
    (fieldBytes field).length ≤ (fields.flatMap fieldBytes).length := by
  obtain ⟨before, after, rfl⟩ := List.append_of_mem h
  simp only [List.flatMap_append, List.flatMap_cons, List.length_append]
  omega

theorem RowSent.exists_field (h : RowSent columns fields packet) {i : Nat} {column : ColumnDefinition}
    (hcolumn : columns[i]? = some column) : ∃ field ∈ fields, fields[i]? = some field := by
  have hi : i < fields.length := by
    rw [h.length]
    exact (List.getElem?_eq_some_iff.1 hcolumn).1
  exact ⟨fields[i], List.getElem_mem hi, List.getElem?_eq_getElem hi⟩

theorem RowSent.short (h : RowSent columns fields packet) {bytes : Bytes} (hbytes : some bytes ∈ fields) :
    bytes.length < 2 ^ 63 := by
  have hle := fieldBytes_length_le hbytes
  have hbound := h.bounded
  rw [h.body] at hbound
  simp only [fieldBytes, List.length_append] at hle
  omega

theorem RowSent.fits (h : RowSent columns fields packet) : ∀ f ∈ fields, FieldFits f := by
  rintro f hf bytes rfl
  exact Nat.lt_trans (h.short hf) (by decide)

theorem lastField_mem {name : String} {field : Option Bytes} : ∀ {columns : List ColumnDefinition}
    {fields : List (Option Bytes)}, lastField columns fields name = some field →
      field ∈ fields ∧ name ∈ columns.map (·.orgName)
  | [], _, h => by simp [lastField] at h
  | _ :: _, [], h => by simp [lastField] at h
  | column :: columns, f :: fields, h => by
    rw [lastField, Option.or_eq_some_iff] at h
    rcases h with h | ⟨-, h⟩
    · obtain ⟨hfield, hname⟩ := lastField_mem h
      exact ⟨List.mem_cons_of_mem f hfield, List.mem_cons_of_mem _ hname⟩
    · split_ifs at h with hname
      cases h
      exact ⟨List.mem_cons_self .., hname ▸ List.mem_cons_self ..⟩

/-- The field of a column whose name is its own. -/
theorem lastField_of_nodup : ∀ {columns : List ColumnDefinition} {fields : List (Option Bytes)} {i : Nat}
    {column : ColumnDefinition} {field : Option Bytes}, (columns.map (·.orgName)).Nodup →
      columns[i]? = some column → fields[i]? = some field → lastField columns fields column.orgName = some field
  | [], _, _, _, _, _, hcolumn, _ => by simp at hcolumn
  | _ :: _, [], _, _, _, _, _, hfield => by simp at hfield
  | column :: columns, field :: fields, 0, _, _, hnodup, hcolumn, hfield => by
    cases hcolumn
    cases hfield
    rw [List.map_cons, List.nodup_cons] at hnodup
    have hlater : lastField columns fields column.orgName = none := by
      by_contra hsome
      obtain ⟨field', hfield'⟩ := Option.ne_none_iff_exists'.1 hsome
      exact hnodup.1 (lastField_mem hfield').2
    rw [lastField, hlater, if_pos rfl]; rfl
  | column :: columns, field :: fields, i + 1, _, _, hnodup, hcolumn, hfield => by
    rw [List.map_cons, List.nodup_cons] at hnodup
    rw [lastField, lastField_of_nodup hnodup.2 hcolumn hfield]; rfl

theorem distinctNames_le (columns : List ColumnDefinition) : distinctNames columns ≤ columns.length := by
  have hle := (List.dedup_sublist (columns.map (·.orgName))).length_le
  rwa [List.length_map] at hle

theorem distinctNames_eq_length_iff : distinctNames columns = columns.length ↔ (columns.map (·.orgName)).Nodup := by
  rw [← List.dedup_eq_self]
  constructor
  · intro h
    exact (List.dedup_sublist _).eq_of_length (h.trans (List.length_map ..).symm)
  · intro h
    rw [distinctNames, h, List.length_map]

theorem recoded_eq_iff {field : Option Bytes} : recoded field = field ↔ ∀ bytes ∈ field, ∀ b ∈ bytes, b < 0x80 := by
  cases field with
  | none => simp [recoded]
  | some bytes => simp [recoded, asBytes_latin1_iff]

theorem recoded_fits {field : Option Bytes} (h : ∀ bytes ∈ field, bytes.length < 2 ^ 63) : FieldFits (recoded field) := by
  intro bytes hbytes
  cases field with
  | none => cases hbytes
  | some b =>
    cases hbytes
    have hcount := @List.countP_le_length _ (0x80 ≤ ·) b
    have hshort := h b rfl
    rw [length_asBytes_latin1]
    omega

/-! ## What is written -/

variable {self self' : ResponseAccumulator} {packet' : Packet} {diff : StateDifference} {c : Connection}

/-- What is written under a name is what the overridden row holds under it. -/
theorem lookup_override_rowRead (hlength : fields.length = columns.length) (o : Option Assignments) {name : String}
    (hname : name ∈ columns.map (·.orgName)) :
    (((rowRows.override (rowRead columns fields ∅) o).lookup name).getD none).map asBytes =
      writtenField columns fields o name := by
  obtain ⟨field, hfield⟩ := Option.isSome_iff_exists.1 ((lastField_isSome hlength).2 hname)
  rw [lookup_override, lookup_rowRead, hfield, writtenField, hfield]
  cases o.bind (·.lookup name) <;> rfl

/-- **The fields `override_row` writes**: of as many columns as there are names, each as it is written. -/
theorem overrideRow_body (hrow : RowSent self.columns fields packet)
    (h : self.overrideRow packet diff c = some (self', packet')) :
    packet'.body = ((self.columns.take (distinctNames self.columns)).map fun column =>
      writtenField self.columns fields (appliedUpdate self.columns fields diff) column.orgName).flatMap fieldBytes := by
  obtain ⟨row, o, row', newBody, command, skipped, hparse, hchoose, hrewrite, -, -, -, rfl⟩ :=
    ResponseAccumulator.overrideRow_cases h
  rw [ResponseAccumulator.parseRow_fields hrow.length hrow.fits hrow.body, Option.some_inj] at hparse
  subst hparse
  obtain ⟨-, ho⟩ := ResponseAccumulator.chooseOverride_eq_some_iff.1 hchoose
  have happlied : o = appliedUpdate self.columns fields diff := by rw [← ho, Option.or_none]; rfl
  have hkeys : (rowRead self.columns fields ∅).keys.length = distinctNames self.columns := keys_rowRead hrow.length
  obtain ⟨row₁, htake, -⟩ := @ResponseAccumulator.rewriteFields_take self.columns (rowRead self.columns fields ∅) o
    (distinctNames self.columns) (distinctNames_le _) fun name hname => by
      rw [List.map_take] at hname
      exact (mem_rowRead hrow.length name).2 (List.mem_of_mem_take hname)
  rw [hkeys, htake] at hrewrite
  cases hrewrite
  rw [ResponseAccumulator.encodeRow_eq, ← happlied]
  refine congrArg (List.flatMap fieldBytes) (List.map_congr_left fun column hcolumn => ?_)
  exact lookup_override_rowRead hrow.length o (List.mem_map_of_mem (List.mem_of_mem_take hcolumn))

theorem appliedUpdate_fits (hdiff : TextSized diff) {name : String} {value : Option String}
    (h : (appliedUpdate columns fields diff).bind (·.lookup name) = some value) : ResponseAccumulator.Fits value := by
  obtain ⟨assignments, hlast, hvalue⟩ := Option.bind_eq_some_iff.1 h
  obtain ⟨u, hu, rfl⟩ := Rows.lastMatch_mem hlast
  obtain ⟨entry, hentry, rfl⟩ := List.mem_map.1 hu
  obtain ⟨e, he, rfl⟩ := List.mem_map.1 hentry
  exact hdiff e he name value hvalue

theorem writtenField_fits (hrow : RowSent columns fields packet) (hdiff : TextSized diff) (name : String) :
    FieldFits (writtenField columns fields (appliedUpdate columns fields diff) name) := by
  unfold writtenField
  cases hassigned : (appliedUpdate columns fields diff).bind (·.lookup name) with
  | some value => exact (appliedUpdate_fits hdiff hassigned).fieldFits
  | none =>
    refine recoded_fits fun bytes hbytes => ?_
    cases hlast : lastField columns fields name with
    | none =>
      rw [hlast] at hbytes
      cases hbytes
    | some field =>
      rw [hlast] at hbytes
      cases hbytes
      exact hrow.short (lastField_mem hlast).1

/-- The fields of the packet that is forwarded are those written. -/
theorem overrideRow_fields_iff (hrow : RowSent self.columns fields packet) (hdiff : TextSized diff)
    (h : self.overrideRow packet diff c = some (self', packet')) {fields' : List (Option Bytes)} :
    packet'.body = fields'.flatMap fieldBytes ∧ (∀ f ∈ fields', FieldFits f) ↔
      fields' = (self.columns.take (distinctNames self.columns)).map fun column =>
        writtenField self.columns fields (appliedUpdate self.columns fields diff) column.orgName := by
  have hfits : ∀ f ∈ (self.columns.take (distinctNames self.columns)).map fun column =>
      writtenField self.columns fields (appliedUpdate self.columns fields diff) column.orgName, FieldFits f := by
    intro f hf
    obtain ⟨column, -, rfl⟩ := List.mem_map.1 hf
    exact writtenField_fits hrow hdiff column.orgName
  have hbody := overrideRow_body hrow h
  constructor
  · rintro ⟨hbody', hfits'⟩
    rw [hbody] at hbody'
    exact (flatMap_fieldBytes_inj hfits hfits' hbody').symm
  · rintro rfl
    exact ⟨hbody, hfits⟩

/-! ## Fields no UPDATE assigns -/

/-- The packet still has so many fields, those not assigned in their places; and if no UPDATE applies, its body. -/
structure FrameKept (columns : List ColumnDefinition) (fields : List (Option Bytes)) (o : Option Assignments)
    (packet packet' : Packet) : Prop where
  decodes : ∃ fields' : List (Option Bytes), packet'.body = fields'.flatMap fieldBytes ∧ (∀ f ∈ fields', FieldFits f) ∧
    fields'.length = fields.length ∧ ∀ (i : Nat) (column : ColumnDefinition), columns[i]? = some column →
      o.bind (·.lookup column.orgName) = none → fields'[i]? = fields[i]?
  unmatched : o = none → packet'.body = packet.body

/-- Under names of their own, fields that are not assigned are written back as they were, if they are ASCII. -/
theorem writtenField_unassigned {i : Nat} {column : ColumnDefinition} {field : Option Bytes} {o : Option Assignments}
    (hnodup : (columns.map (·.orgName)).Nodup) (hascii : ∀ bytes ∈ field, ∀ b ∈ bytes, b < 0x80)
    (hcolumn : columns[i]? = some column) (hfield : fields[i]? = some field)
    (ho : o.bind (·.lookup column.orgName) = none) : writtenField columns fields o column.orgName = field := by
  rw [writtenField, ho, lastField_of_nodup hnodup hcolumn hfield]
  exact recoded_eq_iff.2 hascii

/-- **Fields no UPDATE assigns stay where they are** exactly if the columns have distinct names. -/
theorem frame_kept_iff (hrow : RowSent self.columns fields packet)
    (hascii : ∀ field ∈ fields, ∀ bytes ∈ field, ∀ b ∈ bytes, b < 0x80) (hdiff : TextSized diff)
    (h : self.overrideRow packet diff c = some (self', packet')) :
    FrameKept self.columns fields (appliedUpdate self.columns fields diff) packet packet' ↔
      (self.columns.map (·.orgName)).Nodup := by
  constructor
  · rintro ⟨⟨fields', hbody, hfits, hlength, -⟩, -⟩
    have hwritten := (overrideRow_fields_iff hrow hdiff h).1 ⟨hbody, hfits⟩
    have hcount := congrArg List.length hwritten
    rw [List.length_map, List.length_take_of_le (distinctNames_le _), hlength, hrow.length] at hcount
    exact distinctNames_eq_length_iff.1 hcount.symm
  · intro hnodup
    have hall : distinctNames self.columns = self.columns.length := distinctNames_eq_length_iff.2 hnodup
    have hwritten := (overrideRow_fields_iff hrow hdiff h).2 rfl
    rw [hall, List.take_length] at hwritten
    have hkept : ∀ (i : Nat) (column : ColumnDefinition), self.columns[i]? = some column →
        (appliedUpdate self.columns fields diff).bind (·.lookup column.orgName) = none →
        (self.columns.map fun column => writtenField self.columns fields (appliedUpdate self.columns fields diff)
          column.orgName)[i]? = fields[i]? := by
      intro i column hcolumn ho
      obtain ⟨field, hmem, hfield⟩ := hrow.exists_field hcolumn
      rw [List.getElem?_map, hcolumn, Option.map_some, hfield,
        writtenField_unassigned hnodup (hascii field hmem) hcolumn hfield ho]
    refine ⟨⟨_, hwritten.1, hwritten.2, by rw [List.length_map, hrow.length], hkept⟩, fun hunmatched => ?_⟩
    rw [hwritten.1, hrow.body]
    congr 1
    refine List.ext_getElem? fun i => ?_
    cases hcolumn : self.columns[i]? with
    | some column => exact hkept i column hcolumn (by rw [hunmatched]; rfl)
    | none =>
      rw [List.getElem?_eq_none_iff, ← hrow.length] at hcolumn
      rw [List.getElem?_eq_none hcolumn, List.getElem?_eq_none (by rwa [List.length_map, ← hrow.length])]

end

/-- `UPDATE t SET <column> = <value> WHERE x = '5'`, recorded. -/
def sampleFive (column value : String) : StateDifference :=
  TtlCache.new.insert "u" (some (.binaryOp (.identifier ⟨"x", none⟩) .eq (.value (.string .singleQuoted "5"))),
    (∅ : Assignments).insert column (some value))

theorem sampleFive_textSized {column value : String} (h : (asBytes value).length < 2 ^ 64) :
    TextSized (sampleFive column value) := by
  intro e he name v hv s hs
  simp only [TtlCache.iter, sampleFive, TtlCache.insert, TtlCache.new, List.filter_nil, List.nil_append,
    List.mem_singleton] at he
  subst he
  by_cases hname : name = column
  · subst hname
    rw [AList.lookup_insert] at hv
    cases hv
    cases hs
    exact h
  · rw [AList.lookup_insert_ne hname] at hv
    cases hv

/-- Among the rows of a result set of these columns. -/
def sampleReading (columns : List ColumnDefinition) : ResponseAccumulator :=
  { ResponseAccumulator.default with state := .hydrateRows, columns }

/-- The row 5, 1 of `x` and `y`: the UPDATE that matches it assigns `x` alone. -/
theorem frame_kept_one : FrameKept sampleRows.columns [some [0x35], some [0x31]]
    (appliedUpdate sampleRows.columns [some [0x35], some [0x31]] (sampleFive "x" "b"))
    (samplePacket 4 [1, 0x35, 1, 0x31] .other) (samplePacket 4 [1, 0x62, 1, 0x31] .other) :=
  (@frame_kept_iff [some [0x35], some [0x31]] (samplePacket 4 [1, 0x35, 1, 0x31] .other)
    (sampleReading sampleRows.columns) (sampleReading sampleRows.columns) (samplePacket 4 [1, 0x62, 1, 0x31] .other)
    (sampleFive "x" "b") (sampleAwaiting 0x01000200) ⟨rfl, rfl, by decide⟩ (by simp)
    (sampleFive_textSized (by decide)) rfl).2 (by decide)

/-- `SELECT x, x FROM t`, no UPDATE matching: the row that comes has two fields, the one that is sent on has one. -/
theorem column_selected_twice :
    RowSent [sampleColumn, sampleColumn] [some [0x31], some [0x31]] (samplePacket 4 [1, 0x31, 1, 0x31] .other) ∧
      (sampleReading [sampleColumn, sampleColumn]).overrideRow (samplePacket 4 [1, 0x31, 1, 0x31] .other)
        (sampleFive "y" "b") (sampleAwaiting 0x01000200) =
          some (sampleReading [sampleColumn, sampleColumn], samplePacket 4 [1, 0x31] .other) ∧
      ¬ FrameKept [sampleColumn, sampleColumn] [some [0x31], some [0x31]]
        (appliedUpdate [sampleColumn, sampleColumn] [some [0x31], some [0x31]] (sampleFive "y" "b"))
        (samplePacket 4 [1, 0x31, 1, 0x31] .other) (samplePacket 4 [1, 0x31] .other) := by
  refine ⟨⟨rfl, rfl, by decide⟩, rfl, fun h => ?_⟩
  have hbody := h.unmatched rfl
  cases hbody

section
variable {env : Env} {columns : List ColumnDefinition} {fields : List (Option Bytes)} {packet packet' : Packet}
variable {self self' : ResponseAccumulator} {diff : StateDifference} {c : Connection} {phase : Phase}

/-! ## Columns of other tables -/

/-- An UPDATE recorded for the column's own table assigns it. -/
def OwnUpdateAssigns (log : StateDiffLog) (column : ColumnDefinition) : Prop :=
  ∃ diff, log.lookup column.orgTable = some diff ∧ ∃ e ∈ diff.iter, (e.2.2.lookup column.orgName).isSome

/-- A field that is not as it came is of a column that an UPDATE of its own table assigns. -/
def OwnColumnsOnly (log : StateDiffLog) (columns : List ColumnDefinition) (fields : List (Option Bytes))
    (packet' : Packet) : Prop :=
  ∃ fields' : List (Option Bytes), packet'.body = fields'.flatMap fieldBytes ∧ (∀ f ∈ fields', FieldFits f) ∧
    ∀ (i : Nat) (column : ColumnDefinition), columns[i]? = some column → fields'[i]? ≠ fields[i]? →
      OwnUpdateAssigns log column

/-- The field is among those written, and what is written under its name is what it was. -/
structure Survives (columns : List ColumnDefinition) (fields : List (Option Bytes)) (o : Option Assignments) (i : Nat)
    (column : ColumnDefinition) (field : Option Bytes) : Prop where
  reached : i < distinctNames columns
  assigned : ∀ value, o.bind (·.lookup column.orgName) = some value → value.map asBytes = field
  unassigned : o.bind (·.lookup column.orgName) = none →
    ∀ last, lastField columns fields column.orgName = some last → recoded last = field

theorem survives_iff (hlength : fields.length = columns.length) {o : Option Assignments} {i : Nat}
    {column : ColumnDefinition} {field : Option Bytes} (hcolumn : columns[i]? = some column) :
    Survives columns fields o i column field ↔
      i < distinctNames columns ∧ writtenField columns fields o column.orgName = field := by
  obtain ⟨last, hlast⟩ := Option.isSome_iff_exists.1
    ((lastField_isSome hlength).2 (List.mem_map_of_mem (List.mem_of_getElem? hcolumn)))
  rw [writtenField, hlast]
  constructor
  · rintro ⟨hreached, hassigned, hunassigned⟩
    refine ⟨hreached, ?_⟩
    cases ho : o.bind (·.lookup column.orgName) with
    | some value => exact hassigned value ho
    | none => exact hunassigned ho last hlast
  · rintro ⟨hreached, hwritten⟩
    refine ⟨hreached, fun value ho => ?_, fun ho last' hlast' => ?_⟩
    · rwa [ho] at hwritten
    · rw [hlast] at hlast'
      cases hlast'
      rwa [ho] at hwritten

/-- Distinct names and ASCII fields: nothing but an assignment under the column's name can change it. -/
theorem survives_of_nodup {o : Option Assignments} {i : Nat} {column : ColumnDefinition} {field : Option Bytes}
    (hnodup : (columns.map (·.orgName)).Nodup) (hascii : ∀ bytes ∈ field, ∀ b ∈ bytes, b < 0x80)
    (hcolumn : columns[i]? = some column) (hfield : fields[i]? = some field)
    (ho : o.bind (·.lookup column.orgName) = none) : Survives columns fields o i column field where
  reached := by
    rw [distinctNames_eq_length_iff.2 hnodup]
    exact (List.getElem?_eq_some_iff.1 hcolumn).1
  assigned value hvalue := by
    rw [ho] at hvalue
    cases hvalue
  unassigned _ last hlast := by
    rw [lastField_of_nodup hnodup hcolumn hfield] at hlast
    cases hlast
    exact recoded_eq_iff.2 hascii

theorem ownColumnsOnly_override (hrow : RowSent self.columns fields packet) (hdiff : TextSized diff)
    (h : self.overrideRow packet diff c = some (self', packet')) (log : StateDiffLog) :
    OwnColumnsOnly log self.columns fields packet' ↔
      ∀ (i : Nat) (column : ColumnDefinition) (field : Option Bytes), self.columns[i]? = some column →
        fields[i]? = some field → OwnUpdateAssigns log column ∨
          Survives self.columns fields (appliedUpdate self.columns fields diff) i column field := by
  have hwritten := @overrideRow_fields_iff fields packet self self' packet' diff c hrow hdiff h
  -- the field at a place: written if there are so many names
  have hat : ∀ (i : Nat) (column : ColumnDefinition) (field : Option Bytes), self.columns[i]? = some column →
      (((self.columns.take (distinctNames self.columns)).map fun column =>
        writtenField self.columns fields (appliedUpdate self.columns fields diff) column.orgName)[i]? = some field ↔
      Survives self.columns fields (appliedUpdate self.columns fields diff) i column field) := by
    intro i column field hcolumn
    rw [survives_iff hrow.length hcolumn, List.getElem?_map, List.getElem?_take]
    by_cases hi : i < distinctNames self.columns
    · simp [hi, hcolumn]
    · simp [hi]
  constructor
  · rintro ⟨fields', hbody, hfits, honly⟩ i column field hcolumn hfield
    by_cases hsame : fields'[i]? = fields[i]?
    · rw [hwritten.1 ⟨hbody, hfits⟩, hfield] at hsame
      exact .inr ((hat i column field hcolumn).1 hsame)
    · exact .inl (honly i column hcolumn hsame)
  · intro hkept
    obtain ⟨hbody, hfits⟩ := hwritten.2 rfl
    refine ⟨_, hbody, hfits, fun i column hcolumn hdiffers => ?_⟩
    obtain ⟨field, -, hfield⟩ := hrow.exists_field hcolumn
    refine (hkept i column field hcolumn hfield).resolve_right fun hsurvives => hdiffers ?_
    rw [hfield]
    exact (hat i column _ hcolumn).2 hsurvives

/-- A row that goes for an OK packet is not rewritten. -/
theorem consume_ok_row (hc : AwaitsText c) (hp : packet.pType = .ok)
    (h : self.consume env packet c = some (self', packet', phase)) : packet' = packet := by
  rcases ResponseAccumulator.consumeLoop_some h with hstep | ⟨self₁, packet₁, hstep, -⟩
  all_goals
    rw [ResponseAccumulator.consumeStep_text hc] at hstep
    obtain ⟨acc, hacc, hstep⟩ := Option.bind_eq_some_iff.1 hstep
    have hstate := ResponseAccumulator.completeOnErrorOrOk_state (by simp [Ordinary, hp]) hacc
    simp only [ResponseAccumulator.processResultSet, hstate] at hstep
    cases hstep
  rfl

/-- **A row changes in columns of its own UPDATEs alone**, if and only if it is taken for an OK packet, or no UPDATE is
recorded for the table of its first column, or every field survives that no UPDATE of its own table assigns. -/
theorem own_columns_iff (hc : AwaitsText c) (hstate : self.state = .hydrateRows) (htyped : Typed packet)
    (hrow : RowSent self.columns fields packet) (hdiff : ∀ table diff, c.diff.lookup table = some diff → TextSized diff)
    (h : self.consume env packet c = some (self', packet', phase)) :
    OwnColumnsOnly c.diff self.columns fields packet' ↔
      ∀ first diff, packet.pType = .other → self.columns.head? = some first →
        c.diff.lookup first.orgTable = some diff →
          ∀ (i : Nat) (column : ColumnDefinition) (field : Option Bytes), self.columns[i]? = some column →
            fields[i]? = some field → OwnUpdateAssigns c.diff column ∨
              Survives self.columns fields (appliedUpdate self.columns fields diff) i column field := by
  have hunchanged : packet'.body = packet.body → OwnColumnsOnly c.diff self.columns fields packet' := fun hbody =>
    ⟨fields, hbody.trans hrow.body, hrow.fits, fun _ _ _ hdiffers => absurd rfl hdiffers⟩
  have hne : fields ≠ [] := by
    rintro rfl
    rw [Typed, hrow.body] at htyped
    cases htyped
  rw [Typed, hrow.body, getPacketType_row hne, Option.some_inj] at htyped
  by_cases hother : packet.pType = .other
  · rw [ResponseAccumulator.consume, ResponseAccumulator.consumeFuel,
      ResponseAccumulator.consumeLoop_rewrite hc hother hstate] at h
    obtain ⟨⟨acc, row', flags⟩, hhydrate, h⟩ := Option.bind_eq_some_iff.1 h
    obtain ⟨seq, -, he⟩ := Option.map_eq_some_iff.1 h
    cases he
    obtain ⟨first, hfirst, ⟨hnone, -, rfl⟩ | ⟨diff, hlookup, hover⟩⟩ := ResponseAccumulator.hydrateRow_table hother hhydrate
    · refine iff_of_true (hunchanged rfl) ?_
      rintro first' diff - hfirst' hlookup
      rw [hfirst] at hfirst'
      cases hfirst'
      rw [hnone] at hlookup
      cases hlookup
    · have hover_iff := ownColumnsOnly_override hrow (hdiff _ _ hlookup) hover c.diff
      refine Iff.trans hover_iff ⟨fun hkept first' diff' _ hfirst' hlookup' => ?_, fun hkept => ?_⟩
      · rw [hfirst] at hfirst'
        cases hfirst'
        rw [hlookup] at hlookup'
        cases hlookup'
        exact hkept
      · exact hkept first diff hother hfirst hlookup
  · have hok : packet.pType = .ok := by
      rw [← htyped] at hother ⊢
      split_ifs at hother ⊢ <;> trivial
    refine iff_of_true (hunchanged ?_) fun _ _ hother' => absurd hother' hother
    rw [consume_ok_row hc hok h]

end

/-- A column `u.y`. -/
def otherColumn : ColumnDefinition := { sampleColumn with table := "u", orgTable := "u", name := "y", orgName := "y" }

/-- A SELECT has been sent, and an UPDATE of `t` recorded. -/
def sampleUpdated (diff : StateDifference) : Connection :=
  { sampleAwaiting 0x01000200 with diff := (∅ : StateDiffLog).insert "t" diff }

theorem sampleUpdated_textSized {diff : StateDifference} (h : TextSized diff) :
    ∀ table diff', (sampleUpdated diff).diff.lookup table = some diff' → TextSized diff' := by
  intro table diff' hlookup
  by_cases htable : table = "t"
  · subst htable
    rw [sampleUpdated, AList.lookup_insert] at hlookup
    cases hlookup
    exact h
  · rw [sampleUpdated, AList.lookup_insert_ne htable] at hlookup
    cases hlookup

theorem own_columns_one : OwnColumnsOnly (sampleUpdated (sampleFive "x" "b")).diff [sampleColumn, otherColumn]
    [some [0x35], some [0x31]] (samplePacket 4 [1, 0x62, 1, 0x31] .other) := by
  refine (@own_columns_iff sampleEnv [some [0x35], some [0x31]] (samplePacket 4 [1, 0x35, 1, 0x31] .other) _
    (sampleReading [sampleColumn, otherColumn]) _ (sampleUpdated (sampleFive "x" "b")) .pendingResponse
    ⟨rfl, _, rfl, by decide⟩ rfl rfl ⟨rfl, rfl, by decide⟩
    (sampleUpdated_textSized (sampleFive_textSized (by decide))) rfl).2 ?_
  intro first diff _ hfirst hlookup i column field hcolumn hfield
  cases hfirst
  obtain rfl := Option.some.inj hlookup
  rcases i with _ | _ | i
  · cases hcolumn
    exact .inl ⟨_, rfl, _, List.mem_singleton.2 rfl, rfl⟩
  · cases hcolumn
    cases hfield
    refine .inr ⟨by decide, fun value h => ?_, fun _ last hlast => ?_⟩
    · cases h
    · cases hlast
      rfl
  · cases hcolumn

/-- `UPDATE t SET y = 'b' WHERE x = '5'`, then `SELECT t.x, u.y`: the column `u.y` is changed. -/
theorem joined_column_changed :
    (sampleReading [sampleColumn, otherColumn]).consume sampleEnv (samplePacket 4 [1, 0x35, 1, 0x31] .other)
        (sampleUpdated (sampleFive "y" "b")) =
      some (sampleReading [sampleColumn, otherColumn], samplePacket 4 [1, 0x35, 1, 0x62] .other, .pendingResponse) ∧
    ¬ OwnColumnsOnly (sampleUpdated (sampleFive "y" "b")).diff [sampleColumn, otherColumn] [some [0x35], some [0x31]]
      (samplePacket 4 [1, 0x35, 1, 0x62] .other) := by
  refine ⟨rfl, ?_⟩
  rintro ⟨fields', hbody, hfits, honly⟩
  have hfields : [some [0x35], some [0x62]] = fields' :=
    flatMap_fieldBytes_inj (by decide) hfits hbody
  subst hfields
  obtain ⟨diff, hdiff, -⟩ := honly 1 otherColumn rfl (by decide)
  cases hdiff

/-! ## Rows that are dropped -/

namespace ResponseAccumulator

/-- Rewriting changes a value under an assigned name alone, to what is assigned. -/
theorem rewriteFields_lookup {columns : List ColumnDefinition} {o : Option Assignments} :
    ∀ {is : List Nat} {row row' : Row} {body body' : Bytes},
      rewriteFields columns o is row body = some (row', body') → ∀ name, row'.lookup name = row.lookup name ∨
        ∃ old new, row.lookup name = some old ∧ o.bind (·.lookup name) = some new ∧ row'.lookup name = some new
  | [], row, row', body, body', h, name => by
    cases h
    exact .inl rfl
  | i :: is, row, row', body, body', h, name => by
    simp only [rewriteFields, Option.bind_eq_bind, Option.bind_eq_some_iff] at h
    obtain ⟨column, -, value, hvalue, h⟩ := h
    cases hnew : o.bind (·.lookup column.orgName) with
    | none =>
      rw [hnew] at h
      exact rewriteFields_lookup h name
    | some newValue =>
      rw [hnew] at h
      have hrest := rewriteFields_lookup h name
      by_cases hname : name = column.orgName
      · subst hname
        rw [AList.lookup_insert] at hrest
        refine .inr ⟨value, newValue, hvalue, hnew, ?_⟩
        rcases hrest with hsame | ⟨_, new, -, hassigned, hlookup⟩
        · exact hsame
        · rw [hnew] at hassigned
          rw [hlookup, hassigned]
      · rwa [AList.lookup_insert_ne hname] at hrest

theorem deselect_eq_true {row : Row} {selection : Option Expr} :
    deselect row selection = some true ↔ ∃ expr ∈ selection, Parse.evaluate row expr = some (.ok (.boolean false)) := by
  cases selection with
  | none => simp [deselect]
  | some expr =>
    simp only [deselect, Option.mem_some_iff, exists_eq_left']
    rcases Parse.evaluate row expr with _ | _ | (_ | _) | _ <;> simp

end ResponseAccumulator

/-- The UPDATE gives a column the WHERE mentions another value than the row's. -/
def ChangesSelection (row : Row) (o : Option Assignments) (selection : Option Expr) : Prop :=
  ∃ expr ∈ selection, ∃ name ∈ expr.columns, ∃ old new, row.lookup name = some old ∧
    o.bind (·.lookup name) = some new ∧ new ≠ old

/-- A row that no recorded UPDATE matches is kept, and one that is dropped has a value changed that the WHERE depends on. -/
structure DropsJustified (row : Row) (diff : StateDifference) (selection : Option Expr)
    (acc acc' : ResponseAccumulator) (packet' : Packet) : Prop where
  unmatched : (∀ e ∈ diff.iter, (recordedUpdate e.2).applies row = false) →
    packet'.skip = false ∧ acc'.skippedPackets = acc.skippedPackets
  dropped : packet'.skip = true →
    ChangesSelection row (matchedUpdate row diff) selection

section
variable {row : Row} {packet packet' : Packet} {self self' : ResponseAccumulator} {diff : StateDifference}
variable {c : Connection} {command : Command}

theorem matchedUpdate_eq_none (h : ∀ e ∈ diff.iter, (recordedUpdate e.2).applies row = false) :
    matchedUpdate row diff = none := by
  refine Rows.lastMatch_eq_none fun u hu => ?_
  obtain ⟨entry, hentry, rfl⟩ := List.mem_map.1 hu
  obtain ⟨e, he, rfl⟩ := List.mem_map.1 hentry
  exact h e he

/-- **Rows are dropped for UPDATEs alone** exactly if the evaluator does not find the WHERE false of the row as it
came, or an UPDATE changes a value the WHERE depends on. -/
theorem drops_justified_iff (hparse : self.parseRow packet = some row) (hskip : packet.skip = false)
    (hcommand : c.lastCommand = some command) (h : self.overrideRow packet diff c = some (self', packet')) :
    DropsJustified row diff command.selection self self' packet' ↔
      (∀ expr ∈ command.selection, Parse.evaluate row expr ≠ some (.ok (.boolean false))) ∨
        ChangesSelection row (matchedUpdate row diff) command.selection := by
  obtain ⟨row₁, o, row', newBody, command₁, skipped, hparse₁, hchoose, hrewrite, hcommand₁, hskipped, rfl, rfl⟩ :=
    ResponseAccumulator.overrideRow_cases h
  rw [hparse] at hparse₁
  rw [hcommand] at hcommand₁
  cases hparse₁
  cases hcommand₁
  obtain ⟨-, ho⟩ := ResponseAccumulator.chooseOverride_eq_some_iff.1 hchoose
  rw [Option.or_none] at ho
  have ho : matchedUpdate row diff = o := ho
  rw [ho]
  -- a WHERE that depends on no changed value is evaluated as on the row that came
  have hsame : ¬ ChangesSelection row o command.selection →
      (skipped = true ↔ ∃ expr ∈ command.selection, Parse.evaluate row expr = some (.ok (.boolean false))) := by
    intro hchanges
    rw [← ResponseAccumulator.deselect_eq_true, ← Option.some_inj, ← hskipped]
    cases hselection : command.selection with
    | none => rfl
    | some expr =>
      have hlookup : ∀ name ∈ expr.columns, row'.lookup name = row.lookup name := by
        intro name hname
        rcases ResponseAccumulator.rewriteFields_lookup hrewrite name with hkept | ⟨old, new, hold, hnew, hnow⟩
        · exact hkept
        · rw [hold, hnow]
          by_contra hdiffers
          exact hchanges ⟨expr, hselection, name, hname, old, new, hold, hnew, fun he => hdiffers (congrArg some he)⟩
      rw [ResponseAccumulator.deselect, ResponseAccumulator.deselect, evaluate_congr hlookup]
  constructor
  · rintro ⟨-, hdropped⟩
    by_cases hchanges : ChangesSelection row o command.selection
    · exact .inr hchanges
    · refine .inl fun expr hexpr hfalse => hchanges ?_
      rw [ho] at hdropped
      exact hdropped (by simp [hskip, (hsame hchanges).2 ⟨expr, hexpr, hfalse⟩])
  · rintro (hnever | hchanges)
    · refine ⟨fun hunmatched => ?_, fun hdropped => ?_⟩
      · have hnone : o = none := ho.symm.trans (matchedUpdate_eq_none hunmatched)
        have hkept : skipped = false := by
          rw [← Bool.not_eq_true, hsame (by rintro ⟨_, _, _, _, _, _, _, hnew, -⟩; rw [hnone] at hnew; cases hnew)]
          rintro ⟨expr, hexpr, hfalse⟩
          exact hnever expr hexpr hfalse
        simp [hskip, hkept]
      · rw [ho]
        by_contra hchanges
        obtain ⟨expr, hexpr, hfalse⟩ := (hsame hchanges).1 (by simpa [hskip] using hdropped)
        exact hnever expr hexpr hfalse
    · refine ⟨fun hunmatched => ?_, fun _ => by rwa [ho]⟩
      obtain ⟨expr, -, name, -, old, new, -, hnew, -⟩ := hchanges
      have hnone : o = none := ho.symm.trans (matchedUpdate_eq_none hunmatched)
      rw [hnone] at hnew
      cases hnew

end

/-- `x < 10` -/
def belowTen : Expr := .binaryOp (.identifier ⟨"x", none⟩) .lt (.value (.number "10"))

/-- `SELECT x FROM t WHERE selection` has been sent. -/
def sampleSelecting (selection : Expr) : Connection :=
  { sampleAwaiting 0x01000200 with
    lastCommand := some ⟨.comQuery, "select x from t where ...",
      some [.query (.select [.table ⟨[], ⟨"t", none⟩⟩] (some selection) [])]⟩ }

/-- The row 9 of this SELECT is going to be dropped. -/
def sampleDropping : Connection :=
  { sampleSelecting belowTen with diff := (∅ : StateDiffLog).insert "t" (sampleFive "x" "b") }

/-- `x = '5'` -/
def isFive : Expr := .binaryOp (.identifier ⟨"x", none⟩) .eq (.value (.string .singleQuoted "5"))

/-- `WHERE x < 10` keeps the row 1, which the recorded UPDATE does not match; `WHERE x = '5'` drops the row 5, which it
gives another value. -/
theorem drops_justified_one :
    DropsJustified ((∅ : Row).insert "x" (some "1")) (sampleFive "x" "b") (some belowTen)
      (sampleReading [sampleColumn]) (sampleReading [sampleColumn]) (samplePacket 4 [1, 0x31] .other) ∧
    DropsJustified ((∅ : Row).insert "x" (some "5")) (sampleFive "x" "b") (some isFive)
      (sampleReading [sampleColumn]) { sampleReading [sampleColumn] with skippedPackets := 1 }
      { samplePacket 4 [1, 0x62] .other with skip := true } := by
  constructor
  · refine (@drops_justified_iff ((∅ : Row).insert "x" (some "1")) (samplePacket 4 [1, 0x31] .other)
      (samplePacket 4 [1, 0x31] .other) (sampleReading [sampleColumn]) (sampleReading [sampleColumn])
      (sampleFive "x" "b") (sampleSelecting belowTen) _ rfl rfl rfl rfl).2 (.inl ?_)
    rintro _ ⟨⟩
    decide
  · exact (@drops_justified_iff ((∅ : Row).insert "x" (some "5")) (samplePacket 4 [1, 0x35] .other)
      { samplePacket 4 [1, 0x62] .other with skip := true } (sampleReading [sampleColumn])
      { sampleReading [sampleColumn] with skippedPackets := 1 } (sampleFive "x" "b") (sampleSelecting isFive) _
      rfl rfl rfl rfl).2 (.inr ⟨isFive, rfl, "x", by decide, some "5", some "b", by decide, by decide, by decide⟩)

/-- The row 9 that a server returns for `WHERE x < 10` is dropped, as the text '9' is not below '10'. -/
theorem untouched_row_dropped :
    (sampleReading [sampleColumn]).overrideRow (samplePacket 4 [1, 0x39] .other) (sampleFive "x" "b")
        (sampleSelecting belowTen) =
      some ({ sampleReading [sampleColumn] with skippedPackets := 1 }, { samplePacket 4 [1, 0x39] .other with skip := true }) ∧
    ¬ DropsJustified ((∅ : Row).insert "x" (some "9")) (sampleFive "x" "b") (some belowTen)
      (sampleReading [sampleColumn]) { sampleReading [sampleColumn] with skippedPackets := 1 }
      { samplePacket 4 [1, 0x39] .other with skip := true } := by
  refine ⟨rfl, fun h => ?_⟩
  cases (h.unmatched (by decide)).1

end MocksySql
