import MocksySql.Evaluator
import MocksySql.Packet
/-!
# Server responses (`accumulator/result_set.rs`)

| here | there |
| --- | --- |
| `FieldTypes.tryFrom`, `ColumnDefinition.fromPacket` | `result_set.rs:549`, `:428` |
| `parseRow`                 | `parse_row` (`:86`) |
| `overrideRow`              | `override_row` (`:115`): `chooseOverride` its loop over the recorded UPDATEs (`:125-133`), `rewriteFields` its loop over the fields (`:135-151`), `deselect` the client's own WHERE (`:153-170`) |
| `processBinaryResultSet`   | `process_binary_result_set` (`:179`) |
| `processStmtPrepare`       | `process_stmt_prepare` (`:193`) |
| `processResultSet`         | `process_result_set` (`:274`) |
| `consumeStep`, `consume`   | `Accumulator::consume` (`:35`) |

Every `self.consume(packet, connection)` inside the two `process_*` functions is the last thing they
do, so one call of `consume` is a loop: `consumeStep` is its body and says whether to go round again
(`Flow.consume`). Nothing bounds that loop in the source (`COM_FIELD_LIST` can spin); `consumeFuel`
rounds are more than any call that returns takes, and running out of them is, like a panic, the
end of the connection's thread: `none`.
-/

namespace MocksySql
open FieldDecode

/-! ## Column definitions -/

/-- The discriminants of the `#[repr(u8)]` enum. -/
def FieldTypes.code : FieldTypes → Nat
  | .mysqlTypeDecimal => 0 | .mysqlTypeTiny => 1 | .mysqlTypeShort => 2 | .mysqlTypeLong => 3
  | .mysqlTypeFloat => 4 | .mysqlTypeDouble => 5 | .mysqlTypeNull => 6 | .mysqlTypeTimestamp => 7
  | .mysqlTypeLongLong => 8 | .mysqlTypeInt24 => 9 | .mysqlTypeDate => 10 | .mysqlTypeTime => 11
  | .mysqlTypeDatetime => 12 | .mysqlTypeYear => 13 | .mysqlTypeNewDate => 14 | .mysqlTypeVarchar => 15
  | .mysqlTypeBit => 16 | .mysqlTypeTimestamp2 => 17 | .mysqlTypeDatetime2 => 18 | .mysqlTypeTime2 => 19
  | .mysqlTypeTypedArray => 20 | .mysqlTypeVector => 242 | .mysqlTypeInvalid => 243 | .mysqlTypeBool => 244
  | .mysqlTypeJson => 245 | .mysqlTypeNewDecimal => 246 | .mysqlTypeEnum => 247 | .mysqlTypeSet => 248
  | .mysqlTypeTinyBlob => 249 | .mysqlTypeMediumBlob => 250 | .mysqlTypeLongBlob => 251 | .mysqlTypeBlob => 252
  | .mysqlTypeVarString => 253 | .mysqlTypeString => 254 | .mysqlTypeGeometry => 255

def FieldTypes.tryFrom : Nat → Option FieldTypes
  | 0 => some .mysqlTypeDecimal | 1 => some .mysqlTypeTiny | 2 => some .mysqlTypeShort
  | 3 => some .mysqlTypeLong | 4 => some .mysqlTypeFloat | 5 => some .mysqlTypeDouble
  | 6 => some .mysqlTypeNull | 7 => some .mysqlTypeTimestamp | 8 => some .mysqlTypeLongLong
  | 9 => some .mysqlTypeInt24 | 10 => some .mysqlTypeDate | 11 => some .mysqlTypeTime
  | 12 => some .mysqlTypeDatetime | 13 => some .mysqlTypeYear | 14 => some .mysqlTypeNewDate
  | 15 => some .mysqlTypeVarchar | 16 => some .mysqlTypeBit | 17 => some .mysqlTypeTimestamp2
  | 18 => some .mysqlTypeDatetime2 | 19 => some .mysqlTypeTime2 | 20 => some .mysqlTypeTypedArray
  | 242 => some .mysqlTypeVector | 243 => some .mysqlTypeInvalid | 244 => some .mysqlTypeBool
  | 245 => some .mysqlTypeJson | 246 => some .mysqlTypeNewDecimal | 247 => some .mysqlTypeEnum
  | 248 => some .mysqlTypeSet | 249 => some .mysqlTypeTinyBlob | 250 => some .mysqlTypeMediumBlob
  | 251 => some .mysqlTypeLongBlob | 252 => some .mysqlTypeBlob | 253 => some .mysqlTypeVarString
  | 254 => some .mysqlTypeString | 255 => some .mysqlTypeGeometry
  | _ => none

theorem FieldTypes.tryFrom_code (t : FieldTypes) : FieldTypes.tryFrom t.code = some t := by
  cases t <;> rfl

def ColumnDefinition.fields (body : Bytes) : Cursor ColumnDefinition := do
  let catalog ← field body (StringLenEnc.fromBytes · none)
  require ("def" = catalog)
  let schema ← field body (StringLenEnc.fromBytes · none)
  let table ← field body (StringLenEnc.fromBytes · none)
  let orgTable ← field body (StringLenEnc.fromBytes · none)
  let name ← field body (StringLenEnc.fromBytes · none)
  let orgName ← field body (StringLenEnc.fromBytes · none)
  let fixedLengthFields ← field body (IntLenEnc.fromBytes · none)
  let characterSet ← field body (IntFixedLen.fromBytes · (some 2))
  let columnLength ← field body (IntFixedLen.fromBytes · (some 4))
  let fieldCode ← field body (IntFixedLen.fromBytes · (some 1))
  let fieldType ← FieldTypes.tryFrom fieldCode
  let flags ← field body (IntFixedLen.fromBytes · (some 2))
  let decimals ← field body (IntFixedLen.fromBytes · (some 1))
  let reserved ← field body (IntFixedLen.fromBytes · (some 2))
  return { catalog, schema, table, orgTable, name, orgName, fieldType
           fixedLengthFields := UInt64.ofNat fixedLengthFields
           characterSet := UInt16.ofNat characterSet
           columnLength := UInt32.ofNat columnLength
           flags := UInt16.ofNat flags
           decimals := UInt8.ofNat decimals
           reserved := UInt16.ofNat reserved }

def ColumnDefinition.fromPacket (packet : Packet) : Option ColumnDefinition :=
  (ColumnDefinition.fields packet.body).run' 0

namespace ResponseAccumulator

/-! ## Rows -/

/-- The `while i < packet.body.len()` loop; every round takes a byte, so `body.length` rounds do. -/
def parseRowLoop (columns : List ColumnDefinition) (body : Bytes) : Nat → Nat → Nat → Row → Option Row
  | 0, i, _, row => if i < body.length then none else some row
  | fuel + 1, i, columnIndex, row =>
    if i < body.length then do
      let b ← body[i]?
      let column ← columns[columnIndex]?
      if b = 0xfb then parseRowLoop columns body fuel (i + 1) (columnIndex + 1) (row.insert column.orgName none)
      else
        let value ← StringLenEnc.fromBytes (← sliceFrom body i) none
        parseRowLoop columns body fuel (i + value.offsetIncrement) (columnIndex + 1)
          (row.insert column.orgName (some value.result))
    else some row

def parseRow (self : ResponseAccumulator) (packet : Packet) : Option Row :=
  parseRowLoop self.columns packet.body packet.body.length 0 0 ∅

/-- The last UPDATE whose WHERE holds of the row (or that has none) is the one applied. -/
def chooseOverride (row : Row) : List (Option Expr × Assignments) → Option Assignments → Option (Option Assignments)
  | [], overrideState => some overrideState
  | (none, assignments) :: rest, _ => chooseOverride row rest (some assignments)
  | (some selection, assignments) :: rest, overrideState =>
    match Parse.evaluate row selection with
    | none => none
    | some (.ok (.boolean true)) => chooseOverride row rest (some assignments)
    | some _ => chooseOverride row rest overrideState

def encodeField : Option String → Bytes
  | none => [0xfb]
  | some value => StringLenEnc.encode value

def rewriteFields (columns : List ColumnDefinition) (overrideState : Option Assignments) :
    List Nat → Row → Bytes → Option (Row × Bytes)
  | [], row, newBody => some (row, newBody)
  | i :: is, row, newBody => do
    let column ← columns[i]?
    let value ← row.lookup column.orgName
    match overrideState.bind (·.lookup column.orgName) with
    | some newValue =>
      rewriteFields columns overrideState is (row.insert column.orgName newValue) (newBody ++ encodeField newValue)
    | none => rewriteFields columns overrideState is row (newBody ++ encodeField value)

end ResponseAccumulator

/-- The WHERE clause of the command's last statement, when that is a SELECT with one. -/
def Command.selection (command : Command) : Option Expr :=
  match command.ast.bind List.getLast? with
  | some (.query (.select _ selection _)) => selection
  | _ => none

namespace ResponseAccumulator

/-- Is the row left out of the client's SELECT, now that it is rewritten? -/
def deselect (row : Row) : Option Expr → Option Bool
  | none => some false
  | some selection =>
    match Parse.evaluate row selection with
    | none => none
    | some (.ok (.boolean false)) => some true
    | some _ => some false

def overrideRow (self : ResponseAccumulator) (packet : Packet) (diff : StateDifference) (connection : Connection) :
    Option (ResponseAccumulator × Packet) := do
  let row ← self.parseRow packet
  let overrideState ← chooseOverride row (diff.iter.map (·.2)) none
  let (row, newBody) ← rewriteFields self.columns overrideState (List.range row.keys.length) row []
  let lastCommand ← connection.lastCommand
  let skipped ← deselect row lastCommand.selection
  let packet := { packet with
    header := { size := newBody.length, seq := packet.header.seq }
    body := newBody
    skip := packet.skip || skipped }
  some ({ self with skippedPackets := self.skippedPackets + skipped.toNat }, packet)

/-! ## One round of `consume` -/

/-- How a round ends: with the next phase, or with another `self.consume(packet, connection)`. -/
inductive Flow where
  | done (phase : Phase)
  | consume
deriving DecidableEq, Repr

def processBinaryResultSet (packet : Packet) (currentPhase : Phase) : Phase :=
  if packet.pType = .eof ∨ (packet.header.seq = 1 ∧ packet.pType = .ok) then .command else currentPhase

/-- The fields a longer prepare response has (`:216-226`). -/
def readPrepareMetadata (self : ResponseAccumulator) (packet : Packet) : Option ResponseAccumulator :=
  if packet.header.size > 12 then do
    let warningCount ← IntFixedLen.fromBytes (← slice packet.body 9 11) (some 2)
    let metadataFollows ← IntFixedLen.fromBytes (← sliceFrom packet.body 11) (some 1)
    some { self with warningCount := warningCount.result, metadataFollows := metadataFollows.result == 1 }
  else some self

/-- `State::Initiated` of a prepare response (`:201-236`): is the metadata left out? -/
def readPrepareOk (self : ResponseAccumulator) (packet : Packet) (connection : Connection) :
    Option (ResponseAccumulator × Bool) := do
  let body := packet.body
  guard (body[0]? = some 0x00)
  let statementId ← IntFixedLen.fromBytes (← slice body 1 5) (some 4)
  let columnCount ← IntFixedLen.fromBytes (← slice body 5 7) (some 2)
  let paramCount ← IntFixedLen.fromBytes (← slice body 7 9) (some 2)
  guard (body[9]? = some 0x00)
  let self := { self with
    statementId := UInt32.ofNat statementId.result
    columnCount := columnCount.result
    paramCount := paramCount.result }
  let self ← self.readPrepareMetadata packet
  if self.metadataFollows then some (self, false)
  else
    let clientFlag ← connection.clientFlag
    some (self, hasFlag clientFlag .clientOptionalResultSetMetadata)

def processStmtPrepare (self : ResponseAccumulator) (packet : Packet) (connection : Connection)
    (currentPhase : Phase) : Option (ResponseAccumulator × Packet × Flow) :=
  match self.state with
  | .initiated => do
    let (self, metadataOmitted) ← self.readPrepareOk packet connection
    if metadataOmitted then some ({ self with state := .complete }, packet, .consume)
    else some ({ self with state := .metaExchange }, packet, .done currentPhase)
  | .metaExchange =>
    some ({ self with state := if 0 < self.paramCount then .hydrateParams else .paramsHydrated }, packet, .consume)
  | .hydrateParams => do
    let param ← ColumnDefinition.fromPacket packet
    let self := { self with params := self.params ++ [param] }
    if self.params.length = self.paramCount then
      if 0 < self.columnCount then some ({ self with state := .hydrateColumns }, packet, .done currentPhase)
      else some ({ self with state := .complete }, packet, .consume)
    else some (self, packet, .done currentPhase)
  | .hydrateColumns => do
    let column ← ColumnDefinition.fromPacket packet
    let self := { self with columns := self.columns ++ [column] }
    if self.columns.length = self.columnCount then some ({ self with state := .complete }, packet, .consume)
    else some (self, packet, .done currentPhase)
  | .complete =>
    some ({ self with status := some packet.pType, accumulationComplete := true }, packet, .done .command)
  | _ => none

/-- The `match packet.get_packet_type()` of `State::HydrateRows` (`:348-366`). -/
def hydrateRow (self : ResponseAccumulator) (packet : Packet) (connection : Connection) :
    Option (ResponseAccumulator × Packet × Option UInt16) :=
  match packet.pType with
  | .ok => (OkData.fromPacket packet connection).map fun ok => (self, packet, ok.statusFlags)
  | .eof => (EofData.fromPacket packet connection).map fun eof => (self, packet, eof.statusFlags)
  | .other =>
    match self.columns.head? with
    | none => none
    | some column =>
      match connection.diff.lookup column.orgTable with
      | some diff => (self.overrideRow packet diff connection).map fun r => (r.1, r.2, none)
      | none => some (self, packet, none)
  | _ => none

/-- `packet.header.seq -= self.skipped_packets as u8` -/
def subtractSkipped (env : Env) (seq : UInt8) (skippedPackets : Nat) : Option UInt8 :=
  if env.overflowChecks ∧ seq < UInt8.ofNat skippedPackets then none
  else some (seq - UInt8.ofNat skippedPackets)

def processResultSet (env : Env) (self : ResponseAccumulator) (packet : Packet) (connection : Connection)
    (currentPhase : Phase) : Option (ResponseAccumulator × Packet × Flow) :=
  match self.state with
  | .initiated => do
    let lastCommand ← connection.lastCommand
    if lastCommand.comCode = .comQuery then
      let clientFlag ← connection.clientFlag
      if hasFlag clientFlag .clientOptionalResultSetMetadata then
        some ({ self with state := .metaExchange }, packet, .consume)
      else some ({ self with state := .columnCount }, packet, .consume)
    else if lastCommand.comCode = .comFieldList then
      some ({ self with state := .hydrateColumns }, packet, .consume)
    else some ({ self with state := .complete }, packet, .consume)
  | .metaExchange => do
    -- a `length` is passed, which `IntLenEnc::from_bytes` never accepts
    let metadataFollows ← IntLenEnc.fromBytes packet.body (some 1)
    some ({ self with metadataFollows := metadataFollows.result == 1, state := .columnCount }, packet, .done currentPhase)
  | .columnCount => do
    let columnCount ← IntLenEnc.fromBytes packet.body none
    let clientFlag ← connection.clientFlag
    let follow := !hasFlag clientFlag .clientOptionalResultSetMetadata || self.metadataFollows
    some ({ self with columnCount := columnCount.result
                      state := if follow then .hydrateColumns else .columnsHydrated }, packet, .done currentPhase)
  | .hydrateColumns => do
    let lastCommand ← connection.lastCommand
    if lastCommand.comCode = .comFieldList ∧ packet.pType = .eof then
      some ({ self with state := .columnsHydrated }, packet, .consume)
    else
      let column ← ColumnDefinition.fromPacket packet
      let columns := self.columns ++ [column]
      some ({ self with columns
                        state := if self.columnCount = columns.length then .columnsHydrated else self.state },
        packet, .done currentPhase)
  | .columnsHydrated => do
    let clientFlag ← connection.clientFlag
    if lacksFlag clientFlag .clientDeprecateEof then
      if packet.pType = .eof then some ({ self with state := .hydrateRows }, packet, .done currentPhase) else none
    else some ({ self with state := .hydrateRows }, packet, .consume)
  | .hydrateRows => do
    let (self, packet, statusFlags) ← self.hydrateRow packet connection
    let seq ← subtractSkipped env packet.header.seq self.skippedPackets
    let packet := { packet with header := { packet.header with seq } }
    if packet.pType = .error ∨ statusFlags.isSome then
      let moreResults := statusFlags.any fun flags => flags &&& serverMoreResultsExist != 0
      some ({ self with state := if moreResults then .initiated else .complete }, packet, .consume)
    else some (self, packet, .done currentPhase)
  | .complete =>
    some ({ self with status := some packet.pType, accumulationComplete := true }, packet, .done .command)
  | _ => none

/-- An ERR or OK packet completes the response (`:52-61`), whatever the state. -/
def completeOnErrorOrOk (self : ResponseAccumulator) (packet : Packet) (connection : Connection) :
    Option ResponseAccumulator :=
  match packet.pType with
  | .error => (ErrorData.fromPacket packet connection).map fun e => { self with state := .complete, error := some e }
  | .ok => (OkData.fromPacket packet connection).map fun _ => { self with state := .complete }
  | _ => some self

def consumeStep (env : Env) (self : ResponseAccumulator) (packet : Packet) (connection : Connection) :
    Option (ResponseAccumulator × Packet × Flow) :=
  match connection.lastCommand with
  | none => none
  | some lastCommand =>
    match lastCommand.comCode with
    | .comStmtPrepare => self.processStmtPrepare packet connection connection.phase
    | .comStmtReset => some (self, packet, .done .command)
    | comCode => do
      let self ← self.completeOnErrorOrOk packet connection
      if comCode = .comStmtExecute then some (self, packet, .done (processBinaryResultSet packet connection.phase))
      else self.processResultSet env packet connection connection.phase

def consumeLoop (env : Env) (connection : Connection) :
    Nat → ResponseAccumulator → Packet → Option (ResponseAccumulator × Packet × Phase)
  | 0, _, _ => none
  | fuel + 1, self, packet =>
    match self.consumeStep env packet connection with
    | none => none
    | some (self, packet, .done phase) => some (self, packet, phase)
    | some (self, packet, .consume) => consumeLoop env connection fuel self packet

def consumeFuel : Nat := 16

def consume (env : Env) (self : ResponseAccumulator) (packet : Packet) (connection : Connection) :
    Option (ResponseAccumulator × Packet × Phase) :=
  consumeLoop env connection consumeFuel self packet

/-- What no round looks at, the loop does not look at. -/
theorem consume_congr {env : Env} {c d : Connection}
    (hstep : ∀ self packet, consumeStep env self packet d = consumeStep env self packet c) (self : ResponseAccumulator)
    (packet : Packet) : self.consume env packet d = self.consume env packet c := by
  unfold consume
  generalize consumeFuel = fuel
  induction fuel generalizing self packet with
  | zero => rfl
  | succ fuel ih =>
    rw [consumeLoop, consumeLoop, hstep]
    rcases self.consumeStep env packet c with _ | ⟨self', packet', phase | _⟩
    · rfl
    · rfl
    · exact ih self' packet'

end ResponseAccumulator

end MocksySql
