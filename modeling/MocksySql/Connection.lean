import Mathlib.Data.Nat.Bitwise
import MocksySql.Sql
import MocksySql.Types
/-!
# The data of a connection

| here | there |
| --- | --- |
| `Phase`, `SwitchableConnection`, `Connection` | `connection.rs:22-145` |
| `PacketHeader`, `PacketType`, `Packet`, `ErrorData`, `SQLState` | `mysql/packet.rs:6-177` |
| `CapabilityFlags`, `AccumulationDelta` | `accumulator/mod.rs:14-40` |
| `MySqlCommand`, `Command` | `mysql/command.rs:7-72` |
| `HandshakeAccumulator`, `HandshakeResponseAccumulator` | `accumulator/handshake.rs:12`, `handshake_response.rs:13` |
| `State`, `FieldTypes`, `ColumnDefinition`, `ResponseAccumulator` | `accumulator/result_set.rs:14-30`, `:396-426`, `:507-547` |
| `TtlCache`, `StateDifference`, `StateDiffLog`, `ReplayLog` | `materialization/mod.rs:15-30` |
| `Env` | what is fixed for a process and not in the source: the SQL parser, the Unicode tables of `str::to_lowercase`, base64, UUIDs, the build and its features, environment variables |

A `TtlCache` is the list of its unexpired entries, oldest first: iteration order is insertion
order, and an expiry is a change of the list between two steps. `connection.diff` and
`connection.replay` are shared between connections; here they are their current contents.
Fields no code reads (`rows`, `row_count`) are left out.
-/

namespace MocksySql
open FieldDecode

/-! ## Packets -/

inductive PacketType where
  | other | command | ok | eof | error
deriving DecidableEq, Repr

structure PacketHeader where
  size : Nat
  seq : UInt8
deriving DecidableEq, Repr

structure Packet where
  header : PacketHeader
  body : Bytes
  pType : PacketType
  skip : Bool
deriving DecidableEq, Repr

structure SQLState where
  stateMarker : String
  state : String
deriving DecidableEq, Repr

structure ErrorData where
  errorCode : UInt16
  sqlState : Option SQLState
  errorMessage : String
deriving DecidableEq, Repr

/-! ## Commands -/

inductive MySqlCommand where
  | comSleep | comQuit | comInitDb | comQuery | comFieldList | comCreateDb | comDropDb | comRefresh
  | comShutdown | comStatistics | comProcessInfo | comConnect | comProcessKill | comDebug | comPing
  | comTime | comDelayedInsert | comChangeUser | comBinlogDump | comTableDump | comConnectOut
  | comRegisterSlave | comStmtPrepare | comStmtExecute | comStmtSendLongData | comStmtClose
  | comStmtReset | comSetOption | comStmtFetch | comDaemon | comBinlogDumpGtid | comResetConnection
deriving DecidableEq, Repr

structure Command where
  comCode : MySqlCommand
  arg : String
  ast : Option (List Statement)
deriving DecidableEq, Repr

/-! ## Capability flags -/

inductive CapabilityFlags where
  | clientConnectWithDB | clientProtocol41 | clientSsl | clientTransactions | clientPluginAuth
  | clientConnectAttrs | clientPluginAuthLenEncClientData | clientSessionTrack | clientDeprecateEof
  | clientOptionalResultSetMetadata | clientZSTDCompressionAlgorithm | clientQueryAttributes
deriving DecidableEq, Repr

def CapabilityFlags.value : CapabilityFlags → UInt32
  | .clientConnectWithDB => 0x08
  | .clientProtocol41 => (0x01 : UInt32) <<< 9
  | .clientSsl => 2048
  | .clientTransactions => 8192
  | .clientPluginAuth => (0x01 : UInt32) <<< 19
  | .clientConnectAttrs => (0x01 : UInt32) <<< 20
  | .clientPluginAuthLenEncClientData => (0x01 : UInt32) <<< 21
  | .clientSessionTrack => (0x01 : UInt32) <<< 23
  | .clientDeprecateEof => (0x01 : UInt32) <<< 24
  | .clientOptionalResultSetMetadata => (0x01 : UInt32) <<< 25
  | .clientZSTDCompressionAlgorithm => (0x01 : UInt32) <<< 26
  | .clientQueryAttributes => (0x01 : UInt32) <<< 27

/-- `client_flag & flag != 0` -/
def hasFlag (clientFlag : UInt32) (flag : CapabilityFlags) : Bool := clientFlag &&& flag.value != 0

/-- `!client_flag & flag != 0` -/
def lacksFlag (clientFlag : UInt32) (flag : CapabilityFlags) : Bool := ~~~clientFlag &&& flag.value != 0

/-! ## Result sets -/

inductive State where
  | initiated | metaExchange | columnCount | hydrateParams | paramsHydrated | hydrateColumns
  | columnsHydrated | hydrateRows | complete
deriving DecidableEq, Repr

inductive FieldTypes where
  | mysqlTypeDecimal | mysqlTypeTiny | mysqlTypeShort | mysqlTypeLong | mysqlTypeFloat | mysqlTypeDouble
  | mysqlTypeNull | mysqlTypeTimestamp | mysqlTypeLongLong | mysqlTypeInt24 | mysqlTypeDate | mysqlTypeTime
  | mysqlTypeDatetime | mysqlTypeYear | mysqlTypeNewDate | mysqlTypeVarchar | mysqlTypeBit
  | mysqlTypeTimestamp2 | mysqlTypeDatetime2 | mysqlTypeTime2 | mysqlTypeTypedArray | mysqlTypeVector
  | mysqlTypeInvalid | mysqlTypeBool | mysqlTypeJson | mysqlTypeNewDecimal | mysqlTypeEnum | mysqlTypeSet
  | mysqlTypeTinyBlob | mysqlTypeMediumBlob | mysqlTypeLongBlob | mysqlTypeBlob | mysqlTypeVarString
  | mysqlTypeString | mysqlTypeGeometry
deriving DecidableEq, Repr

structure ColumnDefinition where
  catalog : String
  schema : String
  table : String
  orgTable : String
  name : String
  orgName : String
  fixedLengthFields : UInt64
  characterSet : UInt16
  columnLength : UInt32
  fieldType : FieldTypes
  flags : UInt16
  decimals : UInt8
  reserved : UInt16
deriving DecidableEq, Repr

structure ResponseAccumulator where
  state : State
  statementId : UInt32
  metadataFollows : Bool
  columns : List ColumnDefinition
  status : Option PacketType
  columnCount : Nat
  paramCount : Nat
  params : List ColumnDefinition
  accumulationComplete : Bool
  error : Option ErrorData
  skippedPackets : Nat
  warningCount : Nat
deriving DecidableEq, Repr

/-- `ResponseAccumulator::default()` -/
def ResponseAccumulator.default : ResponseAccumulator where
  state := .initiated
  statementId := 0
  metadataFollows := false
  columns := []
  status := none
  columnCount := 0
  paramCount := 0
  params := []
  accumulationComplete := false
  error := none
  skippedPackets := 0
  warningCount := 0

/-! ## Handshakes -/

structure HandshakeAccumulator where
  accumulationComplete : Bool
  protocolVersion : UInt8
  serverVersion : String
  threadId : UInt64
  authPluginDataPart1 : String
  filler : UInt8
  capabilityFlags1 : UInt16
  characterSet : UInt8
  statusFlags : UInt16
  capabilityFlags2 : UInt16
  authPluginDataLen : UInt8
  authPluginDataPart2 : String
  authPluginName : Option String
  capabilityFlags : UInt32
deriving DecidableEq, Repr

structure HandshakeResponseAccumulator where
  clientFlag : UInt32
  maxPacketSize : UInt32
  characterSet : UInt8
  filler : String
  username : String
  authResponseLength : Option UInt8
  authResponse : Option String
  database : Option String
  clientPluginName : Option String
  connectionAttrsLength : UInt8
  connectionAttrs : AList fun _ : String => String
  zstdCompressionLevel : UInt8
  accumulationComplete : Bool
deriving DecidableEq

structure AccumulationDelta where
  handshake : Option HandshakeAccumulator
  handshakeResponse : Option HandshakeResponseAccumulator
  lastCommand : Option Command
  response : Option ResponseAccumulator

/-! ## Shared state -/

/-- The unexpired entries of a `TtlCache`, oldest first, each key once. -/
structure TtlCache (K V : Type) where
  entries : List (K × V)
deriving DecidableEq, Repr

namespace TtlCache
variable {K V : Type} [DecidableEq K]

def new : TtlCache K V := ⟨[]⟩

/-- Replaces the entry of `k`, if there is one; either way the entry is now the newest. -/
def insert (c : TtlCache K V) (k : K) (v : V) : TtlCache K V :=
  ⟨c.entries.filter (·.1 ≠ k) ++ [(k, v)]⟩

def get (c : TtlCache K V) (k : K) : Option V := (c.entries.find? (·.1 = k)).map (·.2)

def iter (c : TtlCache K V) : List (K × V) := c.entries

theorem entries_insert_of_fresh {c : TtlCache K V} {k : K} (v : V) (h : ∀ e ∈ c.entries, e.1 ≠ k) :
    (c.insert k v).entries = c.entries ++ [(k, v)] := by
  have hfilter : c.entries.filter (·.1 ≠ k) = c.entries := by simpa [List.filter_eq_self] using h
  rw [insert, hfilter]

theorem get_insert_self (c : TtlCache K V) (k : K) (v : V) : (c.insert k v).get k = some v := by
  have hnone : (c.entries.filter (·.1 ≠ k)).find? (·.1 = k) = none := by simp
  rw [get, insert, List.find?_append, hnone]
  simp

end TtlCache

/-- UUID ↦ WHERE clause and assignments of one recorded UPDATE. -/
abbrev StateDifference := TtlCache String (Option Expr × Assignments)

/-- Table ↦ its recorded UPDATEs (a `DashMap`). -/
abbrev StateDiffLog := AList fun _ : String => StateDifference

/-- Command text ↦ base64 of its response. -/
abbrev ReplayLog := Option (TtlCache String String)

structure Env where
  /-- `Parser::parse_sql(&MySqlDialect {}, _).ok()` -/
  parseSql : String → Option (List Statement)
  /-- `Display` of an identifier -/
  identToString : Ident → String
  /-- `str::to_lowercase` -/
  toLowercase : String → String
  base64Encode : Bytes → String
  base64Decode : String → Option Bytes
  /-- The `n`-th `Uuid::new_v4()` of the process. -/
  uuid : Nat → String
  /-- Integer overflow panics (a debug build) or wraps (a release build). -/
  overflowChecks : Bool
  /-- The `tls` feature. -/
  tls : Bool
  /-- `INTERCEPT_WRITES` is "true". -/
  interceptWrites : Bool

/-- A release build with writes intercepted, for text no SQL parser accepts. -/
def sampleEnv : Env where
  parseSql _ := none
  identToString ident := ident.value
  toLowercase s := String.ofList (s.toList.map Char.toLower)
  base64Encode := latin1
  base64Decode s := some (s.toList.map fun c => UInt8.ofNat c.toNat)
  uuid n := toString n
  overflowChecks := false
  tls := true
  interceptWrites := true

/-! ## Connections -/

inductive Phase where
  | handshake | handshakeResponse | tlsExchange | authInit | authSwitchResponse | authFailed
  | authComplete | command | pendingResponse
deriving DecidableEq, Repr

inductive SwitchableConnection where
  | plain | clientTls | serverTls
deriving DecidableEq, Repr

structure Connection where
  phase : Phase
  partialBytes : Option Bytes
  lastCommand : Option Command
  handshake : Option HandshakeAccumulator
  handshakeResponse : Option HandshakeResponseAccumulator
  clientConnection : SwitchableConnection
  serverConnection : SwitchableConnection
  queryResponse : ResponseAccumulator
  diff : StateDiffLog
  replay : ReplayLog
  partialReplayBytes : Option Bytes
  /-- The topic, when responses are published. -/
  kafkaProducerConfig : Option String
deriving DecidableEq

/-- `Connection::new` (`connection.rs:46`). -/
def Connection.new (server client : SwitchableConnection) (diff : StateDiffLog) (replay : ReplayLog)
    (kafka : Option String) : Connection where
  phase := .handshake
  partialBytes := none
  lastCommand := none
  handshake := none
  handshakeResponse := none
  clientConnection := client
  serverConnection := server
  queryResponse := .default
  diff := diff
  replay := replay
  partialReplayBytes := none
  kafkaProducerConfig := kafka

/-- `connection.get_handshake_response().unwrap().client_flag` -/
def Connection.clientFlag (connection : Connection) : Option UInt32 :=
  connection.handshakeResponse.map (·.clientFlag)

def Connection.unsetPartialData (connection : Connection) : Connection :=
  { connection with partialBytes := none }

def Connection.setPartialData (connection : Connection) (bytes : Bytes) : Connection :=
  { connection with partialBytes := some bytes }

/-! ## Flags are single bits -/

theorem CapabilityFlags.value_toNat (flag : CapabilityFlags) : ∃ k < 32, flag.value.toNat = 2 ^ k := by
  refine ⟨flag.value.toNat.log2, ?_, ?_⟩ <;> cases flag <;> decide

theorem and_two_pow_ne_zero {f b : UInt32} {k : Nat} (hb : b.toNat = 2 ^ k) :
    (f &&& b != 0) = f.toNat.testBit k := by
  have h : (f &&& b).toNat = (f.toNat.testBit k).toNat * 2 ^ k := by
    rw [UInt32.toNat_and, hb, Nat.and_two_pow]
  have hp : 0 < 2 ^ k := Nat.two_pow_pos k
  cases ht : f.toNat.testBit k with
  | false =>
    have : f &&& b = 0 := UInt32.toNat_inj.1 (by rw [h, ht]; simp)
    simp [this]
  | true =>
    have : f &&& b ≠ 0 := fun h0 => by
      rw [h0, ht, Bool.toNat_true, Nat.one_mul] at h
      exact absurd h hp.ne
    simpa using this

/-- The source's test for a clear flag, `!client_flag & flag != 0`, is the negation of the test
for a set one: a flag is one bit. -/
theorem lacksFlag_eq_not (clientFlag : UInt32) (flag : CapabilityFlags) :
    lacksFlag clientFlag flag = !hasFlag clientFlag flag := by
  obtain ⟨k, hk, hv⟩ := flag.value_toNat
  rw [lacksFlag, hasFlag, and_two_pow_ne_zero hv, and_two_pow_ne_zero hv]
  have hlt := clientFlag.toNat_lt
  rw [UInt32.toNat_not, show UInt32.size - 1 - clientFlag.toNat = 2 ^ 32 - (clientFlag.toNat + 1) by
    simp only [UInt32.size]; omega, Nat.testBit_two_pow_sub_succ hlt]
  simp [hk]

end MocksySql
