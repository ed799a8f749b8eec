import MocksySql.ConnectionInvariant
/-!
# Whole result sets

A server answers a COM_QUERY with a column count, the column definitions, the rows and a terminator.
The lemmas follow one accumulator through these packets: `Initiated`, then `HydrateColumns` with the
first `k` columns, `ColumnsHydrated`, `HydrateRows`, `Complete`.

* `ColumnDefinition.fromPacket_encode` — a column definition is read back.
-/

namespace MocksySql
open FieldDecode PartialRun

/-! ## Column definitions on the wire -/

/-- What can be sent and read back: the catalog is always "def", and the strings are ASCII. -/
structure ColumnDefinition.WellFormed (column : ColumnDefinition) : Prop where
  catalog : column.catalog = "def"
  strings : ∀ s ∈ [column.schema, column.table, column.orgTable, column.name, column.orgName],
    IsAscii s ∧ (asBytes s).length < 2 ^ 64

def ColumnDefinition.encode (column : ColumnDefinition) : Bytes :=
  StringLenEnc.encode column.catalog ++ (StringLenEnc.encode column.schema ++ (StringLenEnc.encode column.table ++
    (StringLenEnc.encode column.orgTable ++ (StringLenEnc.encode column.name ++ (StringLenEnc.encode column.orgName ++
      (IntLenEnc.encode column.fixedLengthFields.toNat ++ (toLe 2 column.characterSet.toNat ++
        (toLe 4 column.columnLength.toNat ++ (toLe 1 column.fieldType.code ++ (toLe 2 column.flags.toNat ++
          (toLe 1 column.decimals.toNat ++ (toLe 2 column.reserved.toNat ++ []))))))))))))

theorem FieldTypes.code_lt (t : FieldTypes) : t.code < 256 := by cases t <;> decide

/-- What can be sent, in any characters. -/
structure ColumnDefinition.Sendable (column : ColumnDefinition) : Prop where
  catalog : column.catalog = "def"
  strings : ∀ s ∈ [column.schema, column.table, column.orgTable, column.name, column.orgName],
    (asBytes s).length < 2 ^ 64

/-- What comes back: a name is read one char a byte. -/
def ColumnDefinition.asRead (column : ColumnDefinition) : ColumnDefinition :=
  { column with
    schema := latin1 (asBytes column.schema)
    table := latin1 (asBytes column.table)
    orgTable := latin1 (asBytes column.orgTable)
    name := latin1 (asBytes column.name)
    orgName := latin1 (asBytes column.orgName) }

/-- The fields are decoded one after another; what follows the last one is not looked at. -/
theorem ColumnDefinition.fields_append {column : ColumnDefinition} (h : column.Sendable) (trailing : Bytes) :
    (ColumnDefinition.fields (column.encode ++ trailing)).run' 0 = some column.asRead := by
  have hstring : ∀ s ∈ [column.schema, column.table, column.orgTable, column.name, column.orgName],
      Reads (StringLenEnc.fromBytes · none) (StringLenEnc.encode s) (latin1 (asBytes s)) := fun s hs =>
    StringLenEnc.reads_latin1 (h.strings s hs)
  have hcatalog : Reads (StringLenEnc.fromBytes · none) (StringLenEnc.encode column.catalog) column.catalog := by
    rw [h.catalog]; exact StringLenEnc.reads (by decide) (by decide)
  rw [run'_eq_some]
  refine ⟨column.encode.length, ?_⟩
  have hstart := At.start (column.encode ++ trailing)
  have hlength : column.encode.length = (column.encode ++ trailing).length - trailing.length := by simp
  rw [hlength]
  simp only [ColumnDefinition.encode, List.append_assoc, List.nil_append] at hstart ⊢
  unfold ColumnDefinition.fields
  refine hstart.field_bind hcatalog fun _ hat => ?_
  rw [require_bind h.catalog.symm]
  refine hat.field_bind (hstring _ (by simp)) fun _ hat => ?_
  refine hat.field_bind (hstring _ (by simp)) fun _ hat => ?_
  refine hat.field_bind (hstring _ (by simp)) fun _ hat => ?_
  refine hat.field_bind (hstring _ (by simp)) fun _ hat => ?_
  refine hat.field_bind (hstring _ (by simp)) fun _ hat => ?_
  refine hat.field_bind (IntLenEnc.reads column.fixedLengthFields.toNat_lt) fun _ hat => ?_
  refine hat.field_bind (IntFixedLen.reads (by decide) column.characterSet.toNat_lt) fun _ hat => ?_
  refine hat.field_bind (IntFixedLen.reads (by decide) column.columnLength.toNat_lt) fun _ hat => ?_
  refine hat.field_bind (IntFixedLen.reads (by decide) column.fieldType.code_lt) fun _ hat => ?_
  rw [lift_bind column.fieldType.tryFrom_code]
  refine hat.field_bind (IntFixedLen.reads (by decide) column.flags.toNat_lt) fun _ hat => ?_
  refine hat.field_bind (IntFixedLen.reads (by decide) column.decimals.toNat_lt) fun _ hat => ?_
  refine hat.field_bind (IntFixedLen.reads (by decide) column.reserved.toNat_lt) fun offset hat => ?_
  rw [pure_eq_some, hat.offset_eq]
  simp only [UInt64.ofNat_toNat, UInt16.ofNat_toNat, UInt32.ofNat_toNat, UInt8.ofNat_toNat, asRead]

theorem ColumnDefinition.fromPacket_sent {column : ColumnDefinition} {packet : Packet} (h : column.Sendable)
    (hbody : packet.body = column.encode) : ColumnDefinition.fromPacket packet = some column.asRead := by
  rw [ColumnDefinition.fromPacket, hbody, ← List.append_nil column.encode, ColumnDefinition.fields_append h]

theorem ColumnDefinition.WellFormed.sendable {column : ColumnDefinition} (h : column.WellFormed) : column.Sendable :=
  ⟨h.catalog, fun s hs => (h.strings s hs).2⟩

theorem ColumnDefinition.WellFormed.asRead_eq {column : ColumnDefinition} (h : column.WellFormed) :
    column.asRead = column := by
  have hstring : ∀ s ∈ [column.schema, column.table, column.orgTable, column.name, column.orgName],
      latin1 (asBytes s) = s := fun s hs => latin1_asBytes (h.strings s hs).1
  simp [asRead, hstring]

theorem ColumnDefinition.fromPacket_encode {column : ColumnDefinition} {packet : Packet} (h : column.WellFormed)
    (hbody : packet.body = column.encode) : ColumnDefinition.fromPacket packet = some column := by
  rw [fromPacket_sent h.sendable hbody, h.asRead_eq]

/-! ## Packets of a response to a COM_QUERY -/

/-- The connection waits for the response to a COM_QUERY under these capability flags. -/
structure AwaitsQuery (c : Connection) (clientFlag : UInt32) : Prop where
  phase : c.phase = .pendingResponse
  command : ∃ command, c.lastCommand = some command ∧ command.comCode = .comQuery
  flags : c.clientFlag = some clientFlag

/-- The type `Packet::from_bytes` gives a packet of a response. -/
def Typed (p : Packet) : Prop := getPacketType p.body .pendingResponse = some p.pType

/-- Neither of the packets that complete a response at once. -/
def Ordinary (p : Packet) : Prop := p.pType ≠ .error ∧ p.pType ≠ .ok

def Connection.holding (c : Connection) (self : ResponseAccumulator) : Connection := { c with queryResponse := self }

section
variable {env : Env} {c : Connection} {clientFlag : UInt32} {p : Packet}

theorem Connection.holding_fresh (hfresh : c.queryResponse = .default) : c = c.holding .default := by
  cases c
  simp only at hfresh
  subst hfresh
  rfl

theorem AwaitsQuery.holding (h : AwaitsQuery c clientFlag) (self : ResponseAccumulator) :
    AwaitsQuery (c.holding self) clientFlag := ⟨h.phase, h.command, h.flags⟩

namespace ResponseAccumulator
variable {self : ResponseAccumulator} {fuel : Nat}

theorem completeOnErrorOrOk_ordinary (hp : Ordinary p) : self.completeOnErrorOrOk p c = some self := by
  unfold completeOnErrorOrOk
  split
  · exact absurd ‹_› hp.1
  · exact absurd ‹_› hp.2
  · rfl

theorem completeOnErrorOrOk_state {self' : ResponseAccumulator} (hp : ¬ Ordinary p)
    (h : self.completeOnErrorOrOk p c = some self') : self'.state = .complete := by
  unfold completeOnErrorOrOk at h
  split at h
  · obtain ⟨_, -, rfl⟩ := Option.map_eq_some_iff.1 h
    rfl
  · obtain ⟨_, -, rfl⟩ := Option.map_eq_some_iff.1 h
    rfl
  · rename_i herror hok
    exact absurd ⟨herror, hok⟩ hp

theorem consumeStep_ordinary (h : AwaitsQuery c clientFlag) (hp : Ordinary p) :
    self.consumeStep env p c = self.processResultSet env p c .pendingResponse := by
  obtain ⟨command, hc, hquery⟩ := h.command
  simp [consumeStep, hc, hquery, completeOnErrorOrOk_ordinary hp, h.phase]

/-- An ERR or OK packet that can be read ends the response. -/
theorem consumeStep_completes (h : AwaitsQuery c clientFlag) (hord : ¬ Ordinary p) : self.consumeStep env p c =
    (self.completeOnErrorOrOk p c).map fun acc =>
      ({ acc with status := some p.pType, accumulationComplete := true }, p, .done .command) := by
  obtain ⟨command, hc, hquery⟩ := h.command
  rw [consumeStep]
  simp only [hc, hquery, Option.bind_eq_bind]
  cases hcomplete : self.completeOnErrorOrOk p c with
  | none => rfl
  | some acc =>
    have hstate := completeOnErrorOrOk_state hord hcomplete
    simp [processResultSet, hstate]

/-- It is handed on as it came. -/
theorem consume_completes (h : AwaitsQuery c clientFlag) (hord : ¬ Ordinary p) : self.consume env p c =
    (self.completeOnErrorOrOk p c).map fun acc =>
      ({ acc with status := some p.pType, accumulationComplete := true }, p, .command) := by
  rw [consume, consumeFuel, consumeLoop, consumeStep_completes h hord]
  cases self.completeOnErrorOrOk p c <;> rfl

theorem consumeLoop_done {self' : ResponseAccumulator} {p' : Packet} {phase : Phase}
    (h : self.consumeStep env p c = some (self', p', .done phase)) :
    consumeLoop env c (fuel + 1) self p = some (self', p', phase) := by
  rw [consumeLoop, h]

theorem consumeLoop_consume {self' : ResponseAccumulator} {p' : Packet}
    (h : self.consumeStep env p c = some (self', p', .consume)) :
    consumeLoop env c (fuel + 1) self p = consumeLoop env c fuel self' p' := by
  rw [consumeLoop, h]

/-- The column count, in a fresh accumulator. -/
theorem consumeLoop_columnCount {n : Nat} (h : AwaitsQuery c clientFlag) (hp : Ordinary p)
    (hopt : hasFlag clientFlag .clientOptionalResultSetMetadata = false) (hn : n < 2 ^ 64)
    (hbody : p.body = IntLenEnc.encode n) :
    consumeLoop env c (fuel + 2) .default p =
      some ({ ResponseAccumulator.default with state := .hydrateColumns, columnCount := n }, p, .pendingResponse) := by
  obtain ⟨command, hc, hquery⟩ := h.command
  have hdecode : IntLenEnc.fromBytes p.body none = some ⟨n, (IntLenEnc.encode n).length⟩ := by
    have hread := IntLenEnc.reads hn []
    rw [List.append_nil] at hread
    rw [hbody]
    exact hread
  have hround : ResponseAccumulator.default.consumeStep env p c =
      some ({ ResponseAccumulator.default with state := .columnCount }, p, .consume) := by
    rw [consumeStep_ordinary h hp]
    simp [processResultSet, ResponseAccumulator.default, hc, hquery, h.flags, hopt]
  rw [consumeLoop_consume hround]
  apply consumeLoop_done
  rw [consumeStep_ordinary h hp]
  simp [processResultSet, hdecode, h.flags, hopt]

/-- A column definition. -/
theorem consumeLoop_column {column : ColumnDefinition} (h : AwaitsQuery c clientFlag) (hp : Ordinary p)
    (hstate : self.state = .hydrateColumns) (hcolumn : ColumnDefinition.fromPacket p = some column) :
    consumeLoop env c (fuel + 1) self p =
      some ({ self with columns := self.columns ++ [column],
                        state := if self.columnCount = (self.columns ++ [column]).length then .columnsHydrated
                          else .hydrateColumns }, p, .pendingResponse) := by
  obtain ⟨command, hc, hquery⟩ := h.command
  apply consumeLoop_done
  rw [consumeStep_ordinary h hp]
  simp [processResultSet, hstate, hc, hquery, hcolumn]

/-- With CLIENT_DEPRECATE_EOF the packet behind the last definition is already a row or the end. -/
theorem consumeLoop_columnsHydrated (h : AwaitsQuery c clientFlag) (hp : Ordinary p)
    (hdep : hasFlag clientFlag .clientDeprecateEof) (hstate : self.state = .columnsHydrated) :
    consumeLoop env c (fuel + 1) self p = consumeLoop env c fuel { self with state := .hydrateRows } p := by
  apply consumeLoop_consume
  rw [consumeStep_ordinary h hp]
  simp [processResultSet, hstate, h.flags, lacksFlag_eq_not, hdep]

/-- A row of a table without recorded UPDATEs. -/
theorem consumeLoop_row {column : ColumnDefinition} (h : AwaitsQuery c clientFlag) (hp : p.pType = .other)
    (hstate : self.state = .hydrateRows) (hskip : self.skippedPackets = 0) (hcolumn : self.columns.head? = some column)
    (hdiff : c.diff.lookup column.orgTable = none) :
    consumeLoop env c (fuel + 1) self p = some (self, p, .pendingResponse) := by
  apply consumeLoop_done
  rw [consumeStep_ordinary h (by simp [Ordinary, hp])]
  simp [processResultSet, hstate, hydrateRow, hp, hcolumn, hdiff, subtractSkipped, hskip]
  rw [← hp]

/-- The accumulator after the packet that ends a response. -/
def completed (self : ResponseAccumulator) (pType : PacketType) : ResponseAccumulator :=
  { self with state := .complete, status := some pType, accumulationComplete := true }

theorem consumeLoop_complete (h : AwaitsQuery c clientFlag) (hp : Ordinary p) (hstate : self.state = .complete) :
    consumeLoop env c (fuel + 1) self p = some (self.completed p.pType, p, .command) := by
  apply consumeLoop_done
  rw [consumeStep_ordinary h hp]
  simp [processResultSet, hstate, completed]

/-- An EOF packet with status flags that announce no further result set. -/
theorem consumeLoop_eof {eof : EofData} {flags : UInt16} (h : AwaitsQuery c clientFlag) (hp : p.pType = .eof)
    (hstate : self.state = .hydrateRows) (hskip : self.skippedPackets = 0)
    (heof : EofData.fromPacket p c = some eof) (hflags : eof.statusFlags = some flags)
    (hmore : flags &&& serverMoreResultsExist = 0) :
    consumeLoop env c (fuel + 2) self p = some (self.completed .eof, p, .command) := by
  have hord : Ordinary p := by simp [Ordinary, hp]
  have hround : self.consumeStep env p c = some ({ self with state := .complete }, p, .consume) := by
    rw [consumeStep_ordinary h hord]
    simp [processResultSet, hstate, hydrateRow, hp, heof, hflags, subtractSkipped, hskip, hmore]
    rw [← hp]
  rw [consumeLoop_consume hround, consumeLoop_complete h hord rfl, hp]
  rfl

/-- An OK packet ends the response in any state, whatever its status flags. -/
theorem consumeLoop_ok {ok : OkData} (h : AwaitsQuery c clientFlag) (hp : p.pType = .ok)
    (hok : OkData.fromPacket p c = some ok) :
    consumeLoop env c (fuel + 1) self p = some (self.completed .ok, p, .command) := by
  obtain ⟨command, hc, hquery⟩ := h.command
  apply consumeLoop_done
  simp [consumeStep, hc, hquery, completeOnErrorOrOk, hp, hok, processResultSet, completed]

/-- An ERR packet ends the response in any state. -/
theorem consumeLoop_error {e : ErrorData} (h : AwaitsQuery c clientFlag) (hp : p.pType = .error)
    (herror : ErrorData.fromPacket p c = some e) :
    consumeLoop env c (fuel + 1) self p =
      some ({ self with error := some e }.completed .error, p, .command) := by
  obtain ⟨command, hc, hquery⟩ := h.command
  apply consumeLoop_done
  simp [consumeStep, hc, hquery, completeOnErrorOrOk, hp, herror, processResultSet, completed]

end ResponseAccumulator

/-! ## Terminators -/

/-- `SERVER_MORE_RESULTS_EXISTS` is clear in the status flags of a 7-byte EOF packet. -/
def NoMoreResults (body : Bytes) : Prop :=
  UInt16.ofNat (fromLe ((body.take 5).drop 3)) &&& serverMoreResultsExist = 0

instance (body : Bytes) : Decidable (NoMoreResults body) := inferInstanceAs (Decidable (_ = _))

/-- The body of an OK packet of the 4.1 protocol. -/
def okBody (affectedRows lastInsertId : UInt64) (statusFlags warnings : UInt16) (info : Bytes) : Bytes :=
  0x00 :: (IntLenEnc.encode affectedRows.toNat ++ (IntLenEnc.encode lastInsertId.toNat ++
    (toLe 2 statusFlags.toNat ++ (toLe 2 warnings.toNat ++ info))))

theorem getPacketType_okBody {affectedRows lastInsertId : UInt64} {statusFlags warnings : UInt16} {info : Bytes}
    (phase : Phase) : getPacketType (okBody affectedRows lastInsertId statusFlags warnings info) phase = some .ok := by
  obtain ⟨m, ms, hm, -⟩ := IntLenEnc.head_encode affectedRows.toNat
  obtain ⟨k, ks, hk, -⟩ := IntLenEnc.head_encode lastInsertId.toNat
  simp only [getPacketType, okBody, List.head?_cons, hm, hk, List.length_cons, List.length_append, toLe_length]
  exact if_pos ⟨by omega, trivial⟩

theorem OkData.fromPacket_okBody {affectedRows lastInsertId : UInt64} {statusFlags warnings : UInt16} {info : Bytes}
    (h41 : hasFlag clientFlag .clientProtocol41) (hflag : c.clientFlag = some clientFlag) (hp : p.pType = .ok)
    (hbody : p.body = okBody affectedRows lastInsertId statusFlags warnings info) :
    OkData.fromPacket p c = some ⟨0x00, affectedRows, lastInsertId, some statusFlags, some warnings⟩ := by
  rw [OkData.fromPacket, if_pos hp, hflag, hbody]
  simp only [Option.bind_eq_bind, Option.bind_some]
  rw [run'_eq_some]
  refine ⟨(okBody affectedRows lastInsertId statusFlags warnings info).length - info.length, ?_⟩
  have hstart : At (okBody affectedRows lastInsertId statusFlags warnings info) 0 (toLe 1 0 ++ (IntLenEnc.encode
      affectedRows.toNat ++ (IntLenEnc.encode lastInsertId.toNat ++ (toLe 2 statusFlags.toNat ++
        (toLe 2 warnings.toNat ++ info))))) := At.start _
  unfold OkData.fields
  refine hstart.field_bind (IntFixedLen.reads (by decide) (by decide)) fun _ hat => ?_
  rw [require_bind (.inl rfl)]
  refine hat.field_bind (IntLenEnc.reads affectedRows.toNat_lt) fun _ hat => ?_
  refine hat.field_bind (IntLenEnc.reads lastInsertId.toNat_lt) fun _ hat => ?_
  simp only [OkData.flagFields, if_pos h41, bind_assoc, pure_bind]
  refine hat.field_bind (IntFixedLen.reads (by decide) statusFlags.toNat_lt) fun _ hat => ?_
  refine hat.field_bind (IntFixedLen.reads (by decide) warnings.toNat_lt) fun _ hat => ?_
  rw [pure_eq_some, hat.offset_eq]
  simp only [UInt64.ofNat_toNat, UInt16.ofNat_toNat]
  rfl

/-- The packets that end a result set for good: the OK packet that took the place of EOF, or an ERR
packet of the 4.1 protocol, its texts in UTF-8. -/
inductive EndsResultSet (p : Packet) : Prop
  | eof : p.pType = .eof → p.body.length = 7 → NoMoreResults p.body → EndsResultSet p
  | error (c0 c1 : UInt8) (marker state message : String) : p.pType = .error → (asBytes marker).length = 1 →
      (asBytes state).length = 5 → p.body = [0xff, c0, c1] ++ (asBytes marker ++ (asBytes state ++ asBytes message)) →
      EndsResultSet p

theorem EofData.fromPacket_seven (h41 : hasFlag clientFlag .clientProtocol41) (hflag : c.clientFlag = some clientFlag)
    (hp : p.pType = .eof) (hlen : p.body.length = 7) :
    ∃ eof, EofData.fromPacket p c = some eof ∧ eof.statusFlags = some (UInt16.ofNat (fromLe ((p.body.take 5).drop 3))) := by
  obtain ⟨b0, b1, b2, b3, b4, b5, b6, hbody⟩ : ∃ b0 b1 b2 b3 b4 b5 b6, p.body = [b0, b1, b2, b3, b4, b5, b6] := by
    match hb : p.body, hlen with
    | [b0, b1, b2, b3, b4, b5, b6], _ => exact ⟨b0, b1, b2, b3, b4, b5, b6, rfl⟩
  rw [EofData.fromPacket, if_pos hp, hflag, hbody]
  simp only [Option.bind_eq_bind, Option.bind_some, if_pos h41, run'_eq_some]
  refine ⟨⟨some (UInt16.ofNat (fromLe [b3, b4])), some (UInt16.ofNat (fromLe [b1, b2]))⟩, ⟨5, ?_⟩, rfl⟩
  rfl

/-- The error code is read from the start of the body, the marker of the packet included. -/
theorem ErrorData.fromPacket_utf8 {c0 c1 : UInt8} {marker state message : String}
    (hflag : c.clientFlag = some clientFlag) (h41 : hasFlag clientFlag .clientProtocol41)
    (hp : p.pType = .error) (hm : (asBytes marker).length = 1) (hs : (asBytes state).length = 5)
    (hbody : p.body = [0xff, c0, c1] ++ (asBytes marker ++ (asBytes state ++ asBytes message))) :
    ErrorData.fromPacket p c = some ⟨UInt16.ofNat (fromLe [0xff, c0]), some ⟨marker, state⟩, message⟩ := by
  have hat : At p.body 3 (asBytes marker ++ (asBytes state ++ asBytes message)) := by
    rw [hbody]; exact (At.start _).skip
  have hstate : At p.body 4 (asBytes state ++ asBytes message) := by
    have := hat.skip; rwa [hm] at this
  have hmessage : At p.body 9 (asBytes message) := by
    have := hstate.skip; rwa [hs] at this
  have hcode : IntFixedLen.fromBytes p.body (some 2) = some ⟨fromLe [0xff, c0], 2⟩ := by
    rw [hbody]
    exact @IntFixedLen.reads_fromLe [0xff, c0] (by simp) _
  have hreadMarker := StringFixedLen.reads marker (asBytes state ++ asBytes message)
  have hreadState := StringFixedLen.reads state (asBytes message)
  rw [hm] at hreadMarker
  rw [hs] at hreadState
  have hsql : getSqlState p c 3 = some (some ⟨marker, state⟩) := by
    simp [getSqlState, hflag, h41, hat.sliceFrom, hreadMarker, hstate.sliceFrom, hreadState]
  simp [ErrorData.fromPacket, hp, hcode, hsql, hmessage.sliceFrom, StringEOFEnc.fromBytes, fromUtf8_asBytes]

/-! ## Runs -/

/-- The phase each packet leaves the connection in. -/
def phases (env : Env) (c : Connection) (packets : List Packet) : List Phase :=
  (transcript (consumePacket env) c packets).map (·.after.phase)

/-- The packet leaves the connection waiting, with another accumulator. -/
def Pends (env : Env) (c : Connection) (self : ResponseAccumulator) (p : Packet) (self' : ResponseAccumulator) : Prop :=
  ∃ out, consumePacket env (c.holding self) p = some (c.holding self', out)

theorem consumePacket_pending {self' : ResponseAccumulator} {p' : Packet} {phase : Phase}
    (hphase : c.phase = .pendingResponse) (hs : c.queryResponse.consume env p c = some (self', p', phase)) :
    consumePacket env c p = some ({ c with phase, queryResponse := self' }, if p'.skip then none else some p') := by
  rw [consumePacket, accumulate, hphase]
  simp [hs, syncConnectionState, AccumulationDelta.empty]

theorem consumePacket_pending_cases {c' : Connection} {out : Option Packet} (hphase : c.phase = .pendingResponse)
    (h : consumePacket env c p = some (c', out)) :
    ∃ self' p' phase, c.queryResponse.consume env p c = some (self', p', phase) ∧
      c' = { c with phase, queryResponse := self' } := by
  cases hs : c.queryResponse.consume env p c with
  | none => rw [consumePacket, accumulate, hphase] at h; simp [hs] at h
  | some r =>
    rw [consumePacket_pending hphase hs] at h
    cases h
    exact ⟨r.1, r.2.1, r.2.2, rfl, rfl⟩

theorem pends_iff (hphase : c.phase = .pendingResponse) {self self' : ResponseAccumulator} :
    Pends env c self p self' ↔ ∃ p', self.consume env p (c.holding self) = some (self', p', .pendingResponse) := by
  constructor
  · rintro ⟨out, hp⟩
    obtain ⟨self₁, p', phase, hconsume, hc⟩ := consumePacket_pending_cases (c := c.holding self) hphase hp
    have hself : self' = self₁ := congrArg Connection.queryResponse hc
    obtain rfl : phase = .pendingResponse := (congrArg Connection.phase hc).symm.trans hphase
    exact ⟨p', hself ▸ hconsume⟩
  · rintro ⟨p', hconsume⟩
    refine ⟨if p'.skip then none else some p', ?_⟩
    rw [consumePacket_pending (c := c.holding self) hphase hconsume]
    simp [Connection.holding, hphase]

/-- A packet that leaves the connection waiting is neither ERR nor OK. -/
theorem Pends.ordinary {self self' : ResponseAccumulator} (hstep : Pends env c self p self') (h : AwaitsQuery c clientFlag) :
    Ordinary p := by
  by_contra hord
  obtain ⟨p', hconsume⟩ := (pends_iff h.phase).1 hstep
  rw [ResponseAccumulator.consume_completes (h.holding self) hord] at hconsume
  obtain ⟨acc, -, he⟩ := Option.map_eq_some_iff.1 hconsume
  cases he

/-- Packets that each leave the connection waiting, `self` to `self'` in all. -/
inductive PendsAll (env : Env) (c : Connection) : ResponseAccumulator → List Packet → ResponseAccumulator → Prop
  | nil (self : ResponseAccumulator) : PendsAll env c self [] self
  | cons {self self₁ self' : ResponseAccumulator} {p : Packet} {ps : List Packet} :
      Pends env c self p self₁ → PendsAll env c self₁ ps self' → PendsAll env c self (p :: ps) self'

theorem PendsAll.append {self self₁ self' : ResponseAccumulator} {ps qs : List Packet}
    (hp : PendsAll env c self ps self₁) (hq : PendsAll env c self₁ qs self') : PendsAll env c self (ps ++ qs) self' := by
  induction hp with
  | nil => exact hq
  | cons h _ ih => exact .cons h (ih hq)

theorem PendsAll.run {self self' : ResponseAccumulator} {ps : List Packet} (hphase : c.phase = .pendingResponse)
    (h : PendsAll env c self ps self') :
    (∃ outs, run (consumePacket env) (c.holding self) ps = some (c.holding self', outs)) ∧
      phases env (c.holding self) ps = List.replicate ps.length .pendingResponse := by
  induction h with
  | nil => exact ⟨⟨[], rfl⟩, rfl⟩
  | cons hp _ ih =>
    obtain ⟨out, hstep⟩ := hp
    obtain ⟨⟨outs, hrun⟩, hphases⟩ := ih
    refine ⟨⟨out :: outs, ?_⟩, ?_⟩
    · rw [run_cons hstep, hrun]; rfl
    · rw [phases, transcript_cons hstep, List.map_cons, List.length_cons, List.replicate_succ]
      exact congrArg₂ _ hphase hphases

/-- Definitions, one by one, behind the columns already read. -/
theorem pendsAll_columns (h : AwaitsQuery c clientFlag) {columns : List ColumnDefinition} {ps : List Packet}
    (hps : List.Forall₂ (fun p column => Ordinary p ∧ ColumnDefinition.fromPacket p = some column) ps columns) :
    ∀ self : ResponseAccumulator, self.state = .hydrateColumns → self.columns.length < self.columnCount →
      self.columns.length + columns.length ≤ self.columnCount →
      PendsAll env c self ps { self with
        columns := self.columns ++ columns
        state := if self.columnCount = self.columns.length + columns.length then .columnsHydrated else .hydrateColumns } := by
  induction hps with
  | nil =>
    intro self hstate hlt _
    rw [if_neg (by simpa using hlt.ne'), List.append_nil, ← hstate]
    exact .nil self
  | @cons p column ps columns hp hps ih =>
    intro self hstate hlt hcount
    rw [List.length_cons] at hcount
    have hstep := @ResponseAccumulator.consumeLoop_column env _ _ _ self 15 _ (h.holding self) hp.1 hstate hp.2
    refine .cons ((pends_iff h.phase).2 ⟨p, hstep⟩) ?_
    have hlength : (self.columns ++ [column]).length = self.columns.length + 1 := by simp
    by_cases hlast : self.columnCount = self.columns.length + 1
    · obtain rfl : columns = [] := List.length_eq_zero_iff.1 (by omega)
      cases hps
      rw [hlength, if_pos hlast, if_pos (by simpa using hlast)]
      exact .nil _
    · rw [hlength, if_neg hlast]
      have hrest := ih { self with columns := self.columns ++ [column], state := .hydrateColumns } rfl
        (by simp only [hlength]; omega) (by simp only [hlength]; omega)
      simpa [Nat.add_assoc, Nat.add_comm 1] using hrest

/-- Before the rows, or among them. -/
structure AmongRows (columns : List ColumnDefinition) (acc : ResponseAccumulator) : Prop where
  state : acc.state = .columnsHydrated ∨ acc.state = .hydrateRows
  columns : acc.columns = columns
  skipped : acc.skippedPackets = 0

/-- Rows of a table without recorded UPDATEs, one by one. -/
theorem pendsAll_rows (h : AwaitsQuery c clientFlag) (hdep : hasFlag clientFlag .clientDeprecateEof)
    {column : ColumnDefinition} {columns : List ColumnDefinition}
    (hdiff : c.diff.lookup column.orgTable = none) : ∀ (rows : List Packet) (self : ResponseAccumulator),
      (∀ row ∈ rows, row.pType = .other) → AmongRows (column :: columns) self →
      ∃ self', PendsAll env c self rows self' ∧ AmongRows (column :: columns) self'
  | [], self, _, hself => ⟨self, .nil self, hself⟩
  | row :: rows, self, hrows, hself => by
    have hrow : row.pType = .other := hrows row (by simp)
    have hstep : Pends env c self row { self with state := .hydrateRows } := by
      have hread := fun fuel => @ResponseAccumulator.consumeLoop_row env _ _ row { self with state := .hydrateRows } fuel
        column (h.holding self) hrow rfl hself.skipped (by simp [hself.columns]) hdiff
      refine (pends_iff h.phase).2 ⟨row, ?_⟩
      rcases hself.state with hstate | hstate
      · exact (@ResponseAccumulator.consumeLoop_columnsHydrated env _ _ row self 15 (h.holding self)
          (by simp [Ordinary, hrow]) hdep hstate).trans (hread 14)
      · have hsame : { self with state := State.hydrateRows } = self := by rw [← hstate]
        have := hread 15
        rw [hsame] at this
        rw [hsame]
        exact this
    obtain ⟨self', hrest, hself'⟩ := pendsAll_rows h hdep hdiff rows { self with state := .hydrateRows }
      (fun r hr => hrows r (List.mem_cons_of_mem _ hr)) ⟨.inr rfl, hself.columns, hself.skipped⟩
    exact ⟨self', .cons hstep hrest, hself'⟩

/-- The terminator, behind the last definition or behind a row. -/
theorem consumePacket_terminator (h : AwaitsQuery c clientFlag) (h41 : hasFlag clientFlag .clientProtocol41)
    (hdep : hasFlag clientFlag .clientDeprecateEof) {columns : List ColumnDefinition} {self : ResponseAccumulator}
    (hself : AmongRows columns self) (hp : EndsResultSet p) :
    ∃ c' out, consumePacket env (c.holding self) p = some (c', out) ∧ c'.phase = .command ∧
      c'.queryResponse.columns = columns := by
  have hconsume : ∃ self', self.consume env p (c.holding self) = some (self', p, .command) ∧ self'.columns = columns := by
    cases hp with
    | eof htype hlen hmore =>
      have hord : Ordinary p := by simp [Ordinary, htype]
      obtain ⟨eof, heof, hflags⟩ := EofData.fromPacket_seven h41 (h.holding self).flags htype hlen
      have hend := fun fuel => @ResponseAccumulator.consumeLoop_eof env _ _ p { self with state := .hydrateRows } fuel
        eof _ (h.holding self) htype rfl hself.skipped heof hflags hmore
      refine ⟨{ self with state := .hydrateRows }.completed .eof, ?_, hself.columns⟩
      rcases hself.state with hstate | hstate
      · exact (@ResponseAccumulator.consumeLoop_columnsHydrated env _ _ p self 15 (h.holding self) hord hdep
          hstate).trans (hend 13)
      · have hsame : { self with state := State.hydrateRows } = self := by rw [← hstate]
        have := hend 14
        rw [hsame] at this
        rw [hsame]
        exact this
    | error c0 c1 marker state message htype hm hs hbody =>
      have herror := ErrorData.fromPacket_utf8 (h.holding self).flags h41 htype hm hs hbody
      exact ⟨_, @ResponseAccumulator.consumeLoop_error env _ _ p self 15 _ (h.holding self) htype herror, hself.columns⟩
  obtain ⟨self', hself', hcolumns⟩ := hconsume
  exact ⟨_, _, consumePacket_pending (h.holding self).phase hself', rfl, hcolumns⟩

theorem Typed.pType_eq {b : UInt8} (hp : Typed p) (hb : p.body.head? = some b) :
    p.pType = if 7 ≤ p.body.length ∧ b = 0x00 then .ok
      else if p.body.length ≤ 9 ∧ b = 0xfe then .eof
      else if b = 0xff then .error else .other := by
  unfold Typed getPacketType at hp
  simp only [hb, reduceCtorEq, if_false] at hp
  split_ifs at hp ⊢ <;> exact (Option.some.inj hp).symm

/-- An EOF packet starts with 0xFE. -/
theorem Typed.head_eof (hp : Typed p) (heof : p.pType = .eof) : p.body.head? = some 0xfe := by
  rw [Typed, heof] at hp
  unfold getPacketType at hp
  cases hhead : p.body.head? with
  | none => simp [hhead] at hp
  | some b =>
    simp only [hhead] at hp
    split_ifs at hp with h₁ h₂ <;> simp_all

theorem Typed.other_or_eof (hp : Typed p) (hord : Ordinary p) : p.pType = .other ∨ p.pType = .eof := by
  unfold Typed getPacketType at hp
  split at hp
  · cases hp
  · split_ifs at hp <;> simp_all [Ordinary]

/-- A packet is told by its first byte. -/
theorem Typed.ordinary {m : UInt8} {rest : Bytes} (hp : Typed p) (hbody : p.body = m :: rest) (h0 : m ≠ 0x00)
    (hff : m ≠ 0xFF) : Ordinary p := by
  unfold Typed getPacketType at hp
  simp only [hbody, List.head?_cons, h0, hff, and_false, if_false] at hp
  split_ifs at hp <;> simp [Ordinary, ← Option.some.inj hp]

theorem Typed.ordinary_encode {n : Nat} {rest : Bytes} (hp : Typed p) (hn : 0 < n)
    (hbody : p.body = IntLenEnc.encode n ++ rest) : Ordinary p := by
  obtain ⟨m, tail, hm, _, hff, h0⟩ := IntLenEnc.head_encode n
  rw [hm, List.cons_append] at hbody
  exact hp.ordinary hbody (h0 hn) hff

/-- The packets of a text result set up to the terminator, as a server sends them. -/
structure ResultSetPackets (columns : List ColumnDefinition) (count : Packet) (definitions rows : List Packet) : Prop where
  nonempty : columns ≠ []
  countable : columns.length < 2 ^ 64
  wellFormed : ∀ column ∈ columns, column.WellFormed
  count : Typed count ∧ count.body = IntLenEnc.encode columns.length
  definitions : List.Forall₂ (fun p column => Typed p ∧ p.body = column.encode) definitions columns
  rows : ∀ row ∈ rows, row.pType = .other

/-- From the definitions as they are sent to the ones that are read. -/
theorem forall₂_asRead {R S : Packet → ColumnDefinition → Prop} {columns : List ColumnDefinition} {ps : List Packet}
    (hread : ∀ p column, column.Sendable → R p column → S p column.asRead) (hsendable : ∀ column ∈ columns, column.Sendable)
    (hps : List.Forall₂ R ps columns) : List.Forall₂ S ps (columns.map ColumnDefinition.asRead) := by
  induction hps with
  | nil => exact .nil
  | cons hp _ ih =>
    exact .cons (hread _ _ (hsendable _ (by simp)) hp) (ih fun column hc => hsendable column (List.mem_cons_of_mem _ hc))

/-- Definitions are told by their first byte, and read back. -/
theorem decoded_definitions {columns : List ColumnDefinition} {definitions : List Packet}
    (hsendable : ∀ column ∈ columns, column.Sendable)
    (hdefs : List.Forall₂ (fun p column => Typed p ∧ p.body = column.encode) definitions columns) :
    List.Forall₂ (fun p column => Ordinary p ∧ ColumnDefinition.fromPacket p = some column) definitions
      (columns.map ColumnDefinition.asRead) := by
  refine forall₂_asRead (fun p column hcolumn hp => ⟨?_, ColumnDefinition.fromPacket_sent hcolumn hp.2⟩) hsendable hdefs
  have hlen : 0 < (asBytes column.catalog).length := by rw [hcolumn.catalog]; decide
  have hbody := hp.2
  rw [ColumnDefinition.encode, StringLenEnc.encode, List.append_assoc] at hbody
  exact hp.1.ordinary_encode hlen hbody

theorem ResultSetPackets.decoded {columns : List ColumnDefinition} {count : Packet} {definitions rows : List Packet}
    (h : ResultSetPackets columns count definitions rows) :
    List.Forall₂ (fun p column => Ordinary p ∧ ColumnDefinition.fromPacket p = some column) definitions columns := by
  have hread : columns.map ColumnDefinition.asRead = columns := by
    rw [List.map_congr_left fun column hc => (h.wellFormed column hc).asRead_eq, List.map_id']
  rw [← hread]
  exact decoded_definitions (fun column hc => (h.wellFormed column hc).sendable) h.definitions

/-- Count and definitions, up to one of them, are read by a fresh accumulator. -/
theorem pendsAll_definitions (h : AwaitsQuery c clientFlag)
    (hopt : hasFlag clientFlag .clientOptionalResultSetMetadata = false) {columns : List ColumnDefinition}
    {count : Packet} {definitions : List Packet} (hne : columns ≠ []) (hcountable : columns.length < 2 ^ 64)
    (hcounted : Typed count ∧ count.body = IntLenEnc.encode columns.length)
    (hdefinitions : List.Forall₂ (fun p column => Ordinary p ∧ ColumnDefinition.fromPacket p = some column)
      definitions columns) (k : Nat) :
    PendsAll env c .default (count :: definitions.take k) { ResponseAccumulator.default with
      columnCount := columns.length
      columns := columns.take k
      state := if columns.length ≤ k then .columnsHydrated else .hydrateColumns } := by
  obtain ⟨htyped, hbody⟩ := hcounted
  have hpos : 0 < columns.length := List.length_pos_of_ne_nil hne
  have hord : Ordinary count := htyped.ordinary_encode hpos (by rw [List.append_nil]; exact hbody)
  have hcount := @ResponseAccumulator.consumeLoop_columnCount env _ _ count 14 _ (h.holding .default) hord hopt
    hcountable hbody
  have hcolumns := @pendsAll_columns env _ _ h _ _ (List.forall₂_take k hdefinitions)
    { ResponseAccumulator.default with state := .hydrateColumns, columnCount := columns.length } rfl hpos
    (by simp [ResponseAccumulator.default])
  have hall : columns.length = (columns.take k).length ↔ columns.length ≤ k := by
    rw [List.length_take]
    omega
  simp only [ResponseAccumulator.default, List.nil_append, List.length_nil, Nat.zero_add, hall] at hcolumns
  exact .cons ((pends_iff h.phase).2 ⟨count, hcount⟩) hcolumns

/-- All of them take it to the rows. -/
theorem pendsAll_header (h : AwaitsQuery c clientFlag)
    (hopt : hasFlag clientFlag .clientOptionalResultSetMetadata = false) {columns : List ColumnDefinition}
    {count : Packet} {definitions : List Packet} (hne : columns ≠ []) (hcountable : columns.length < 2 ^ 64)
    (hcounted : Typed count ∧ count.body = IntLenEnc.encode columns.length)
    (hdefinitions : List.Forall₂ (fun p column => Ordinary p ∧ ColumnDefinition.fromPacket p = some column)
      definitions columns) :
    ∃ self', PendsAll env c .default (count :: definitions) self' ∧ self'.state = .columnsHydrated ∧
      AmongRows columns self' := by
  have hpends := @pendsAll_definitions env _ _ h hopt _ _ _ hne hcountable hcounted hdefinitions definitions.length
  rw [List.take_length, hdefinitions.length_eq, List.take_length, if_pos (Nat.le_refl _)] at hpends
  exact ⟨_, hpends, rfl, .inl rfl, rfl, rfl⟩

/-- **A text result set ends exactly at its terminator.** With CLIENT_PROTOCOL_41 and CLIENT_DEPRECATE_EOF
set and CLIENT_OPTIONAL_RESULTSET_METADATA clear, every packet of the response to a COM_QUERY but the last
leaves the connection waiting, the last gives the turn back to the client, nothing panics, and the
columns are those sent, in order. -/
theorem resultSet_exact_end (h : AwaitsQuery c clientFlag) (hfresh : c.queryResponse = .default)
    (h41 : hasFlag clientFlag .clientProtocol41) (hdep : hasFlag clientFlag .clientDeprecateEof)
    (hopt : hasFlag clientFlag .clientOptionalResultSetMetadata = false)
    {columns : List ColumnDefinition} {count : Packet} {definitions rows : List Packet}
    (hps : ResultSetPackets columns count definitions rows)
    (hdiff : ∀ column ∈ columns.head?, c.diff.lookup column.orgTable = none)
    {terminator : Packet} (hend : EndsResultSet terminator) :
    (∃ c' outs, run (consumePacket env) c (count :: definitions ++ rows ++ [terminator]) = some (c', outs) ∧
      c'.queryResponse.columns = columns) ∧
    phases env c (count :: definitions ++ rows ++ [terminator]) =
      List.replicate (1 + columns.length + rows.length) .pendingResponse ++ [.command] := by
  have hc : c = c.holding .default := Connection.holding_fresh hfresh
  obtain ⟨self₁, hheader, _, hself₁⟩ :=
    @pendsAll_header env _ _ h hopt _ _ _ hps.nonempty hps.countable hps.count hps.decoded
  obtain ⟨column, columns', rfl⟩ := List.exists_cons_of_ne_nil hps.nonempty
  obtain ⟨self₂, hrows, hself₂⟩ := pendsAll_rows h hdep (hdiff column rfl) rows self₁ hps.rows hself₁
  obtain ⟨⟨outs, hrun⟩, hphases⟩ := (hheader.append hrows).run h.phase
  obtain ⟨c', out, hlast, hcommand, hcolumns⟩ := consumePacket_terminator h h41 hdep hself₂ hend
  rw [← hc] at hrun hphases
  refine ⟨⟨c', outs ++ [out], ?_, hcolumns⟩, ?_⟩
  · exact run_concat_some hrun hlast
  · rw [phases, transcript_append hrun, List.map_append]
    rw [phases] at hphases
    rw [hphases, transcript_cons hlast]
    have hlen : definitions.length = (column :: columns').length := hps.definitions.length_eq
    simp only [transcript, List.map_cons, List.map_nil, hcommand, List.length_append, List.length_cons] at hlen ⊢
    rw [hlen]
    congr 2
    omega

end

/-- One column `t.x`. -/
def sampleColumn : ColumnDefinition where
  catalog := "def"
  schema := "s"
  table := "t"
  orgTable := "t"
  name := "x"
  orgName := "x"
  fixedLengthFields := 12
  characterSet := 33
  columnLength := 20
  fieldType := .mysqlTypeVarString
  flags := 0
  decimals := 0
  reserved := 0

theorem sampleColumn_wellFormed : sampleColumn.WellFormed := ⟨rfl, by decide⟩

/-- A connection that has sent a SELECT, with these capability flags. -/
def sampleAwaiting (clientFlag : UInt32) : Connection :=
  { Connection.new .plain .plain ∅ none none with
    phase := .pendingResponse
    lastCommand := some ⟨.comQuery, "select x from t", none⟩
    handshakeResponse := some { HandshakeResponseAccumulator.default with clientFlag } }

theorem sampleAwaiting_awaits (clientFlag : UInt32) : AwaitsQuery (sampleAwaiting clientFlag) clientFlag :=
  ⟨rfl, ⟨_, rfl, rfl⟩, rfl⟩

/-- A packet of a sample response. -/
def samplePacket (seq : UInt8) (body : Bytes) (pType : PacketType) : Packet := ⟨⟨body.length, seq⟩, body, pType, false⟩

theorem sampleColumn_packets : ResultSetPackets [sampleColumn] (samplePacket 1 [1] .other)
    [samplePacket 2 sampleColumn.encode .other] [samplePacket 3 [1, 0x31] .other] where
  nonempty := by simp
  countable := by decide
  wellFormed := by simpa using sampleColumn_wellFormed
  count := ⟨rfl, rfl⟩
  definitions := .cons ⟨rfl, rfl⟩ .nil
  rows := by simp [samplePacket]

theorem resultSet_exact_end_one :
    phases sampleEnv (sampleAwaiting 0x01000200) [samplePacket 1 [1] .other, samplePacket 2 sampleColumn.encode .other,
      samplePacket 3 [1, 0x31] .other, samplePacket 4 [0xfe, 0, 0, 2, 0, 0, 0] .eof] =
        [.pendingResponse, .pendingResponse, .pendingResponse, .command] :=
  (resultSet_exact_end (sampleAwaiting_awaits _) rfl (by decide) (by decide) (by decide) sampleColumn_packets
    (by decide) (.eof rfl rfl (by decide))).2

end MocksySql
