import Mathlib.Data.List.Dedup
import MocksySql.LengthEncoding
import MocksySql.ResultSetRuns
/-!
# Rows on the wire

A text row is its fields one behind the other, each the NULL marker or a length and so many bytes, in any
encoding. The type of its packet is guessed from the first byte and the length of the whole (`packet.rs:82-101`).

* `getPacketType_row` — a row is taken for a row or for an OK packet.
* `read_as_row_iff` — it is taken for a row unless it starts with an empty field and has seven bytes or more.
* `flatMap_fieldBytes_inj` — a row has one list of fields.
* `parseRow_eq_some_iff` — what `parse_row` makes of any bytes; `lookup_rowRead`, of two columns of one name the later.
* `parseRow_fields` — and of a row.
-/

namespace MocksySql
open FieldDecode

/-- A field of a text row, its bytes in any encoding. -/
def fieldBytes : Option Bytes → Bytes
  | none => [0xfb]
  | some value => IntLenEnc.encode value.length ++ value

/-! ## The type of a row's packet -/

/-- The first byte of a row: a marker only for NULL and for a length nine bytes long. -/
theorem fieldBytes_head (value : Option Bytes) (rest : Bytes) : ∃ m tail, fieldBytes value ++ rest = m :: tail ∧
    m ≠ 0xff ∧ (m = 0xfe → 9 < (m :: tail).length) ∧ (m = 0x00 ↔ value = some []) ∧ (m = 0xfb ↔ value = none) := by
  cases value with
  | none => exact ⟨0xfb, rest, rfl, by decide, fun hfe => absurd hfe (by decide), by simp, by simp⟩
  | some value =>
    obtain ⟨m, tail, hm, hfb, hff, hzero⟩ := IntLenEnc.head_encode value.length
    refine ⟨m, tail ++ (value ++ rest), by simp [fieldBytes, hm], hff, fun hfe => ?_, ?_, by simp [hfb]⟩
    · -- a length field that starts with 0xfe has eight more bytes
      have hlong : tail.length = 8 := by
        unfold IntLenEnc.encode at hm
        split_ifs at hm with h251
        · have hbyte : (UInt8.ofNat value.length).toNat = value.length := by rw [UInt8.toNat_ofNat']; omega
          rw [List.cons.injEq] at hm
          rw [hm.1, hfe] at hbyte
          have : (0xfe : UInt8).toNat = 254 := rfl
          omega
        · rw [hfe] at hm; cases hm
        · rw [hfe] at hm; cases hm
        · cases hm
          exact toLe_length 8 _
      have hvalue : value ≠ [] := by
        rintro rfl
        rw [hfe] at hm; cases hm
      have := List.length_pos_of_ne_nil hvalue
      simp only [List.length_cons, List.length_append]
      omega
    · rw [Option.some_inj]
      constructor
      · intro h0
        by_contra hne
        exact hzero (List.length_pos_of_ne_nil hne) h0
      · rintro rfl
        cases hm
        rfl

/-- **A row is taken for a row or for an OK packet**, the latter if it starts with an empty field and is long enough. -/
theorem getPacketType_row {fields : List (Option Bytes)} (hne : fields ≠ []) :
    getPacketType (fields.flatMap fieldBytes) .pendingResponse =
      some (if fields.head? = some (some []) ∧ 7 ≤ (fields.flatMap fieldBytes).length then .ok else .other) := by
  obtain ⟨value, fields, rfl⟩ := List.exists_cons_of_ne_nil hne
  obtain ⟨m, tail, hm, hff, hfe, hzero, -⟩ := fieldBytes_head value (fields.flatMap fieldBytes)
  have heof : ¬ ((m :: tail).length ≤ 9 ∧ m = 0xfe) := fun h => by
    have := hfe h.2
    omega
  rw [List.flatMap_cons, hm, getPacketType]
  simp only [List.head?_cons, if_neg heof, if_neg hff, Option.some_inj, hzero, reduceCtorEq, if_false,
    and_comm (a := value = some [])]
  split_ifs <;> rfl

/-! ## Rows in a response -/

/-- The connection waits for the response to a command whose rows come as text. -/
structure AwaitsText (c : Connection) : Prop where
  phase : c.phase = .pendingResponse
  command : ∃ command, c.lastCommand = some command ∧
    command.comCode ∉ [MySqlCommand.comStmtPrepare, .comStmtReset, .comStmtExecute]

section
variable {env : Env} {c : Connection} {clientFlag : UInt32} {p : Packet} {self : ResponseAccumulator}

theorem AwaitsQuery.text (h : AwaitsQuery c clientFlag) : AwaitsText c := by
  obtain ⟨command, hcommand, hquery⟩ := h.command
  exact ⟨h.phase, command, hcommand, by simp [hquery]⟩

namespace ResponseAccumulator

theorem consumeStep_text (h : AwaitsText c) : self.consumeStep env p c =
    (self.completeOnErrorOrOk p c).bind fun acc => acc.processResultSet env p c .pendingResponse := by
  obtain ⟨command, hcommand, htext⟩ := h.command
  simp only [List.mem_cons, List.not_mem_nil, or_false, not_or] at htext
  obtain ⟨hprepare, hreset, hexecute⟩ := htext
  rw [consumeStep, hcommand]
  simp only [if_neg hexecute, h.phase, Option.bind_eq_bind]

/-- A packet of type `Other` among the rows: it is rewritten and renumbered, and the response goes on. -/
theorem consumeLoop_rewrite {fuel : Nat} {row : Packet} (h : AwaitsText c) (hp : row.pType = .other)
    (hstate : self.state = .hydrateRows) :
    consumeLoop env c (fuel + 1) self row = (self.hydrateRow row c).bind fun (acc, row', _) =>
      (subtractSkipped env row.header.seq acc.skippedPackets).map fun seq =>
        (acc, { row' with header := { row'.header with seq } }, .pendingResponse) := by
  have hkeep : self.completeOnErrorOrOk row c = some self := by rw [completeOnErrorOrOk, hp]
  rw [consumeLoop, consumeStep_text h, hkeep, Option.bind_some, processResultSet, hstate]
  simp only [Option.bind_eq_bind]
  cases hrow : self.hydrateRow row c with
  | none => rfl
  | some r =>
    obtain ⟨acc, row', flags⟩ := r
    obtain ⟨-, htype, hseq, rfl⟩ := hydrateRow_other hp hrow
    simp only [Option.bind_some, hseq]
    cases subtractSkipped env row.header.seq acc.skippedPackets with
    | none => rfl
    | some seq => simp [htype]

/-- A subtraction overflows when the rows dropped are more than the packet's number, modulo 256. -/
theorem subtractSkipped_eq_none {seq : UInt8} {skipped : Nat} :
    subtractSkipped env seq skipped = none ↔ env.overflowChecks ∧ seq.toNat < skipped % 256 := by
  unfold subtractSkipped
  have hlt : seq < UInt8.ofNat skipped ↔ seq.toNat < skipped % 256 := by
    rw [UInt8.lt_iff_toNat_lt]
    simp
  rw [← hlt]
  split_ifs with hover
  · simpa using hover
  · simpa using hover

end ResponseAccumulator

end

/-- A packet of this body goes for a row: it has no special type, and among the rows it leaves the accumulator among
the rows and the connection waiting. -/
structure ReadAsRow (body : Bytes) : Prop where
  pType : getPacketType body .pendingResponse = some .other
  goesOn : ∀ {env : Env} {c : Connection} {self self' : ResponseAccumulator} {p p' : Packet} {phase : Phase},
    AwaitsText c → self.state = .hydrateRows → Typed p → p.body = body →
      self.consume env p c = some (self', p', phase) → self'.state = .hydrateRows ∧ phase = .pendingResponse

theorem ReadAsRow.of_pType {body : Bytes} (h : getPacketType body .pendingResponse = some .other) : ReadAsRow body where
  pType := h
  goesOn := by
    intro env c self self' p p' phase hc hstate hp hbody hconsume
    rw [Typed, hbody, h] at hp
    rw [ResponseAccumulator.consume, ResponseAccumulator.consumeFuel,
      ResponseAccumulator.consumeLoop_rewrite hc (Option.some.inj hp).symm hstate] at hconsume
    obtain ⟨⟨acc, row', flags⟩, hrow, hconsume⟩ := Option.bind_eq_some_iff.1 hconsume
    obtain ⟨seq, -, he⟩ := Option.map_eq_some_iff.1 hconsume
    cases he
    exact ⟨(ResponseAccumulator.hydrateRow_other (Option.some.inj hp).symm hrow).1.trans hstate, rfl⟩

/-- **Rows are taken for rows**, unless they start with an empty field and have seven bytes or more. -/
theorem read_as_row_iff {fields : List (Option Bytes)} (hne : fields ≠ []) : ReadAsRow (fields.flatMap fieldBytes) ↔
    ¬ (fields.head? = some (some []) ∧ 7 ≤ (fields.flatMap fieldBytes).length) := by
  have htype := getPacketType_row hne
  constructor
  · intro hrow hok
    rw [if_pos hok, hrow.pType] at htype
    cases htype
  · intro hother
    rw [if_neg hother] at htype
    exact .of_pType htype

/-- The fields '' and 'abcdef'. -/
def emptyFirst : List (Option Bytes) := [some [], some [0x61, 0x62, 0x63, 0x64, 0x65, 0x66]]

theorem read_as_row_null : ReadAsRow ([none, some [0x31]].flatMap fieldBytes) :=
  (read_as_row_iff (by simp)).2 (by decide)

/-- A row that starts with an empty field is taken for an OK packet and ends the response. -/
theorem empty_first_field_ends_response :
    ¬ ReadAsRow (emptyFirst.flatMap fieldBytes) ∧
      getPacketType (emptyFirst.flatMap fieldBytes) .pendingResponse = some .ok ∧
      (({ ResponseAccumulator.default with state := .hydrateRows, columns := [sampleColumn, sampleColumn] } :
          ResponseAccumulator).consume sampleEnv (samplePacket 4 (emptyFirst.flatMap fieldBytes) .ok)
        (sampleAwaiting 0x01000200)).map (·.2.2) = some .command := by
  refine ⟨fun h => ?_, rfl, rfl⟩
  cases h.pType

/-! ## Reading a row -/

/-- The field's length fits the longest length field. -/
def FieldFits (field : Option Bytes) : Prop := ∀ bytes ∈ field, bytes.length < 2 ^ 64

instance (field : Option Bytes) : Decidable (FieldFits field) :=
  inferInstanceAs (Decidable (∀ bytes ∈ field, bytes.length < 2 ^ 64))

/-- **Fields are self-delimiting.** -/
theorem fieldBytes_cancel {v w : Option Bytes} {xs ys : Bytes} (hv : FieldFits v) (hw : FieldFits w)
    (h : fieldBytes v ++ xs = fieldBytes w ++ ys) : v = w ∧ xs = ys := by
  obtain ⟨m, r, hm, -, -, -, hnull⟩ := fieldBytes_head v xs
  obtain ⟨m', r', hm', -, -, -, hnull'⟩ := fieldBytes_head w ys
  have hhead : m = m' := by
    rw [hm, hm'] at h
    exact (List.cons.inj h).1
  have hnone : v = none ↔ w = none := by rw [← hnull, ← hnull', hhead]
  cases v with
  | none =>
    obtain rfl := hnone.1 rfl
    exact ⟨rfl, List.append_cancel_left h⟩
  | some bytes =>
    cases w with
    | none => cases hnone.2 rfl
    | some bytes' =>
      simp only [fieldBytes, List.append_assoc] at h
      have hread := IntLenEnc.reads (hv bytes rfl) (bytes ++ xs)
      rw [h, IntLenEnc.reads (hw bytes' rfl) (bytes' ++ ys)] at hread
      have hlen : bytes'.length = bytes.length := congrArg DecodeResult.result (Option.some.inj hread)
      rw [hlen] at h
      obtain ⟨rfl, hrest⟩ := List.append_inj (List.append_cancel_left h) hlen.symm
      exact ⟨rfl, hrest⟩

/-- **A row has one list of fields.** -/
theorem flatMap_fieldBytes_inj : ∀ {fields fields' : List (Option Bytes)}, (∀ f ∈ fields, FieldFits f) →
    (∀ f ∈ fields', FieldFits f) → fields.flatMap fieldBytes = fields'.flatMap fieldBytes → fields = fields'
  | [], [], _, _, _ => rfl
  | [], field :: fields', _, _, h => by
    obtain ⟨m, tail, hm, -⟩ := fieldBytes_head field (fields'.flatMap fieldBytes)
    rw [List.flatMap_cons, hm] at h
    cases h
  | field :: fields, [], _, _, h => by
    obtain ⟨m, tail, hm, -⟩ := fieldBytes_head field (fields.flatMap fieldBytes)
    rw [List.flatMap_cons, hm] at h
    cases h
  | field :: fields, field' :: fields', hfit, hfit', h => by
    rw [List.forall_mem_cons] at hfit hfit'
    rw [List.flatMap_cons, List.flatMap_cons] at h
    obtain ⟨rfl, hrest⟩ := fieldBytes_cancel hfit.1 hfit'.1 h
    rw [flatMap_fieldBytes_inj hfit.2 hfit'.2 hrest]

/-- The row `parse_row` makes of these fields: a char of every byte. -/
def rowRead : List ColumnDefinition → List (Option Bytes) → Row → Row
  | column :: columns, field :: fields, row => rowRead columns fields (row.insert column.orgName (field.map latin1))
  | _, _, row => row

/-- The last field under this name. -/
def lastField : List ColumnDefinition → List (Option Bytes) → String → Option (Option Bytes)
  | column :: columns, field :: fields, name =>
    (lastField columns fields name).or (if column.orgName = name then some field else none)
  | _, _, _ => none

/-- Of two columns of one name the later counts. -/
theorem lookup_rowRead (name : String) : ∀ (columns : List ColumnDefinition) (fields : List (Option Bytes)) (row : Row),
    (rowRead columns fields row).lookup name =
      ((lastField columns fields name).map (Option.map latin1)).or (row.lookup name)
  | [], _, row => by simp [rowRead, lastField]
  | _ :: _, [], row => by simp [rowRead, lastField]
  | column :: columns, field :: fields, row => by
    rw [rowRead, lookup_rowRead name columns fields, lastField]
    cases lastField columns fields name with
    | some later => rfl
    | none =>
      by_cases hname : column.orgName = name
      · subst hname
        rw [AList.lookup_insert, if_pos rfl]; rfl
      · rw [AList.lookup_insert_ne (Ne.symm hname), if_neg hname]; rfl

theorem lastField_isSome {name : String} : ∀ {columns : List ColumnDefinition} {fields : List (Option Bytes)},
    fields.length = columns.length → ((lastField columns fields name).isSome ↔ name ∈ columns.map (·.orgName))
  | [], [], _ => by simp [lastField]
  | column :: columns, field :: fields, h => by
    rw [lastField, List.map_cons, List.mem_cons, Option.isSome_or, Bool.or_eq_true, lastField_isSome (by simpa using h),
      or_comm]
    by_cases hname : column.orgName = name
    · simp [hname]
    · simp [hname, Ne.symm hname]

theorem mem_rowRead {columns : List ColumnDefinition} {fields : List (Option Bytes)}
    (hlength : fields.length = columns.length) (name : String) :
    name ∈ rowRead columns fields ∅ ↔ name ∈ columns.map (·.orgName) := by
  rw [← AList.lookup_isSome, lookup_rowRead, AList.lookup_empty, Option.or_none, Option.isSome_map,
    lastField_isSome hlength]

/-- A row has as many keys as the columns have names. -/
theorem keys_rowRead {columns : List ColumnDefinition} {fields : List (Option Bytes)}
    (hlength : fields.length = columns.length) :
    (rowRead columns fields ∅).keys.length = (columns.map (·.orgName)).dedup.length := by
  refine ((List.perm_ext_iff_of_nodup (AList.keys_nodup _) (List.nodup_dedup _)).2 fun name => ?_).length_eq
  rw [← AList.mem_keys, mem_rowRead hlength, List.mem_dedup]

/-- The bytes that are read as a field: the NULL marker, or a length in any form and so many bytes. -/
inductive FieldRead : Bytes → Option Bytes → Prop
  | null : FieldRead [0xfb] none
  | text {length value : Bytes} : length.head? ≠ some 0xfb → IntLenEnc.ReadAs length value.length →
      FieldRead (length ++ value) (some value)

/-- Fields one behind the other. -/
inductive FieldsRead : Bytes → List (Option Bytes) → Prop
  | nil : FieldsRead [] []
  | cons {part rest : Bytes} {field : Option Bytes} {fields : List (Option Bytes)} : FieldRead part field →
      FieldsRead rest fields → FieldsRead (part ++ rest) (field :: fields)

theorem FieldRead.ne_nil {part : Bytes} {field : Option Bytes} (h : FieldRead part field) : part ≠ [] := by
  cases h with
  | null => simp
  | text _ hlength => exact List.append_ne_nil_of_left_ne_nil hlength.ne_nil _

theorem FieldsRead.eq_nil {fields : List (Option Bytes)} (h : FieldsRead [] fields) : fields = [] := by
  generalize hbytes : ([] : Bytes) = bytes at h
  cases h with
  | nil => rfl
  | cons hfield _ => exact absurd (List.append_eq_nil_iff.1 hbytes.symm).1 hfield.ne_nil

theorem fieldRead_fieldBytes {field : Option Bytes} (hfit : FieldFits field) : FieldRead (fieldBytes field) field := by
  cases field with
  | none => exact .null
  | some value =>
    obtain ⟨m, tail, hm, hnull, -⟩ := IntLenEnc.head_encode value.length
    refine .text ?_ (IntLenEnc.readAs_encode (hfit value rfl))
    rw [hm]
    simpa using hnull

theorem fieldsRead_flatMap : ∀ {fields : List (Option Bytes)}, (∀ f ∈ fields, FieldFits f) →
    FieldsRead (fields.flatMap fieldBytes) fields
  | [], _ => .nil
  | field :: fields, hfit => by
    rw [List.forall_mem_cons] at hfit
    exact .cons (fieldRead_fieldBytes hfit.1) (fieldsRead_flatMap hfit.2)

/-- **What is read as a text** is a field in front of what follows it. -/
theorem stringLenEnc_readAs_iff {bytes : Bytes} {r : DecodeResult String} (hnull : bytes.head? ≠ some 0xfb) :
    StringLenEnc.fromBytes bytes none = some r ↔ ∃ part value rest, bytes = part ++ rest ∧
      FieldRead part (some value) ∧ r = ⟨latin1 value, part.length⟩ := by
  constructor
  · intro h
    simp only [StringLenEnc.fromBytes, Option.bind_eq_bind, Option.bind_eq_some_iff] at h
    obtain ⟨n, hn, value, hvalue, hr⟩ := h
    obtain ⟨length, behind, rfl, hlength, hincrement⟩ := IntLenEnc.readAs_iff.1 hn
    rw [hincrement, slice] at hvalue
    split_ifs at hvalue with hle
    rw [List.length_append] at hle
    have htext : behind.take n.result = value := by simpa [List.take_append] using hvalue
    have hcount : value.length = n.result := by
      rw [← htext, List.length_take]
      omega
    refine ⟨length ++ value, value, behind.drop n.result, ?_, .text ?_ (hcount ▸ hlength), ?_⟩
    · rw [List.append_assoc, ← htext, List.take_append_drop]
    · rwa [List.head?_append_of_ne_nil _ hlength.ne_nil] at hnull
    · rw [← Option.some.inj hr, hincrement, List.length_append, hcount]
  · rintro ⟨_, value, rest, rfl, hfield, rfl⟩
    cases hfield with
    | @text length _ _ hlength =>
      have hn := hlength.reads (value ++ rest)
      have hvalue := slice_append_mid length value rest
      simp only [StringLenEnc.fromBytes, List.append_assoc, hn, Option.bind_eq_bind, Option.bind_some, hvalue,
        List.length_append]

/-- A field that is not NULL does not begin with its marker. -/
theorem FieldRead.head_ne {part : Bytes} {value : Bytes} (h : FieldRead part (some value)) (rest : Bytes) :
    (part ++ rest).head? ≠ some 0xfb := by
  cases h with
  | text hnull hlength =>
    rwa [List.append_assoc, List.head?_append_of_ne_nil _ hlength.ne_nil]

namespace ResponseAccumulator

/-- The round of `parse_row` that reads a field. -/
theorem parseRowLoop_field {columns : List ColumnDefinition} {body part rest : Bytes} {fuel i columnIndex : Nat} {row : Row}
    {field : Option Bytes} (hfield : FieldRead part field) (hat : At body i (part ++ rest)) :
    parseRowLoop columns body (fuel + 1) i columnIndex row = columns[columnIndex]?.bind fun column =>
      parseRowLoop columns body fuel (i + part.length) (columnIndex + 1) (row.insert column.orgName (field.map latin1)) := by
  obtain ⟨m, tail, hm⟩ := List.exists_cons_of_ne_nil hfield.ne_nil
  have hfirst : body[i]? = some m := by rw [← List.head?_drop, hat.2, hm]; rfl
  have hlt : i < body.length := (List.getElem?_eq_some_iff.1 hfirst).1
  rw [parseRowLoop, if_pos hlt, hfirst]
  cases columns[columnIndex]? with
  | none => rfl
  | some column =>
    simp only [Option.bind_eq_bind, Option.bind_some]
    cases field with
    | none =>
      cases hfield
      cases hm
      rw [if_pos rfl]; rfl
    | some value =>
      have hnull := hfield.head_ne rest
      have hne : m ≠ 0xfb := by
        rw [hm] at hnull
        simpa using hnull
      have hread := (stringLenEnc_readAs_iff hnull).2 ⟨part, value, rest, rfl, hfield, rfl⟩
      rw [if_neg hne, hat.sliceFrom, Option.bind_some, hread]; rfl

/-- A byte that begins no field: the round panics. -/
theorem exists_field_of_parseRowLoop {columns : List ColumnDefinition} {body bytes : Bytes} {fuel i columnIndex : Nat}
    {row row' : Row} (hat : At body i bytes) (hne : bytes ≠ [])
    (h : parseRowLoop columns body (fuel + 1) i columnIndex row = some row') :
    ∃ part rest field, bytes = part ++ rest ∧ FieldRead part field := by
  obtain ⟨m, tail, rfl⟩ := List.exists_cons_of_ne_nil hne
  have hfirst : body[i]? = some m := by rw [← List.head?_drop, hat.2]; rfl
  have hlt : i < body.length := (List.getElem?_eq_some_iff.1 hfirst).1
  rw [parseRowLoop, if_pos hlt, hfirst] at h
  simp only [Option.bind_eq_bind, Option.bind_some, Option.bind_eq_some_iff] at h
  obtain ⟨column, -, h⟩ := h
  by_cases hnull : m = 0xfb
  · exact ⟨[0xfb], tail, none, by rw [hnull]; rfl, .null⟩
  · rw [if_neg hnull, hat.sliceFrom] at h
    simp only [Option.bind_some, Option.bind_eq_some_iff] at h
    obtain ⟨value, hvalue, -⟩ := h
    obtain ⟨part, field, rest, hbytes, hfield, -⟩ := (stringLenEnc_readAs_iff (by simpa using hnull)).1 hvalue
    exact ⟨part, rest, some field, hbytes, hfield⟩

/-- By the rounds, each of which takes a field. -/
theorem parseRowLoop_eq_some_iff {columns : List ColumnDefinition} {body : Bytes} {row' : Row} :
    ∀ {fuel : Nat} {bytes : Bytes} {i columnIndex : Nat} {row : Row}, At body i bytes → bytes.length ≤ fuel →
      (parseRowLoop columns body fuel i columnIndex row = some row' ↔ ∃ fields, FieldsRead bytes fields ∧
        fields.length ≤ (columns.drop columnIndex).length ∧ row' = rowRead (columns.drop columnIndex) fields row)
  | fuel, [], i, columnIndex, row, hat, _ => by
    have hend : ¬ i < body.length := by rw [hat.end_iff.2 rfl]; omega
    have hloop : parseRowLoop columns body fuel i columnIndex row = some row := by cases fuel <;> simp [parseRowLoop, hend]
    rw [hloop, Option.some_inj]
    constructor
    · rintro rfl
      exact ⟨[], .nil, Nat.zero_le _, by cases columns.drop columnIndex <;> rfl⟩
    · rintro ⟨fields, hfields, -, rfl⟩
      rw [hfields.eq_nil]
      cases columns.drop columnIndex <;> rfl
  | 0, b :: bytes, _, _, _, _, hfuel => by simp at hfuel
  | fuel + 1, b :: bytes, i, columnIndex, row, hat, hfuel => by
    constructor
    · intro h
      obtain ⟨part, rest, field, hbytes, hfield⟩ := exists_field_of_parseRowLoop hat (List.cons_ne_nil b bytes) h
      rw [hbytes] at hat hfuel ⊢
      rw [parseRowLoop_field hfield hat, Option.bind_eq_some_iff] at h
      obtain ⟨column, hcolumn, h⟩ := h
      have hpos := List.length_pos_of_ne_nil hfield.ne_nil
      rw [List.length_append] at hfuel
      obtain ⟨fields, hfields, hcount, rfl⟩ := (parseRowLoop_eq_some_iff hat.skip (by omega)).1 h
      obtain ⟨hlt, rfl⟩ := List.getElem?_eq_some_iff.1 hcolumn
      rw [List.drop_eq_getElem_cons hlt]
      exact ⟨field :: fields, .cons hfield hfields, Nat.succ_le_succ hcount, rfl⟩
    · rintro ⟨fields, hfields, hcount, rfl⟩
      generalize hbytes : b :: bytes = all at hfields hat hfuel
      cases hfields with
      | nil => cases hbytes
      | @cons part rest field fields hfield hrest =>
        have hpos := List.length_pos_of_ne_nil hfield.ne_nil
        rw [List.length_append] at hfuel
        have hlt : columnIndex < columns.length := by
          rw [List.length_drop, List.length_cons] at hcount
          omega
        rw [List.drop_eq_getElem_cons hlt] at hcount ⊢
        rw [parseRowLoop_field hfield hat, List.getElem?_eq_getElem hlt, Option.bind_some]
        exact (parseRowLoop_eq_some_iff hat.skip (by omega)).2 ⟨fields, hrest, Nat.le_of_succ_le_succ hcount, rfl⟩

/-- **What `parse_row` makes of any bytes**: those of as many fields as there are columns, or fewer. -/
theorem parseRow_eq_some_iff {self : ResponseAccumulator} {packet : Packet} {row : Row} :
    self.parseRow packet = some row ↔ ∃ fields, FieldsRead packet.body fields ∧ fields.length ≤ self.columns.length ∧
      row = rowRead self.columns fields ∅ :=
  parseRowLoop_eq_some_iff (At.start packet.body) (Nat.le_refl _)

/-- **What it makes of a row**, whatever its columns. -/
theorem parseRow_fields {self : ResponseAccumulator} {packet : Packet} {fields : List (Option Bytes)}
    (hlength : fields.length = self.columns.length) (hfit : ∀ f ∈ fields, FieldFits f)
    (hbody : packet.body = fields.flatMap fieldBytes) :
    self.parseRow packet = some (rowRead self.columns fields ∅) :=
  parseRow_eq_some_iff.2 ⟨fields, hbody ▸ fieldsRead_flatMap hfit, hlength.le, rfl⟩

end ResponseAccumulator

end MocksySql
