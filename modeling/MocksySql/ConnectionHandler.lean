import MocksySql.Materialization
import MocksySql.StateHandler
/-!
# The exchange loop (`connection_handler.rs`)

| here | there |
| --- | --- |
| `sendCommandToServer`  | `send_command_to_server` (`connection_handler.rs:180`) |
| `pushToKafka`          | `push_to_kafka_if_logging_enabled` (`:219`), returning the records sent |
| `getResponseFromCache` | `get_response_from_cache_if_replay_enabled` (`:249`): `waiting` is one more round of its loop |
| `switchToTls`          | `switch_to_tls` (`:318`) |
| `getWriteResponse`, `isWriteQuery`, `interceptCommand` | `:362`, `:380`, `:407` |
| `serverTurn`, `clientTurn` | what a round of either loop then does with them (`:115-129`, `:149-174`) |
| `receive`              | where a round's bytes come from (`:95-113`, `:134-147`) |
| `exchangeStep`         | one turn of `exchange`, in whichever loop it is |
| `keepReplayLogEntry`   | what `spawn_kafka_read` does with an entry (`main.rs:137-142`) |

One binary with all features is modelled: `connection.replay` is `none` and `kafkaProducerConfig` is
`none` where replay is not compiled in or not enabled. The configured delays change no data.
-/

namespace MocksySql
open FieldDecode PartialRun

/-! ## Replay -/

structure ReplayLogEntry where
  lastCommand : String
  output : String
deriving DecidableEq, Repr

/-- What the `for` loop asks of a statement to go on (`:199-210`): if it is a query, to be a SELECT without a FROM. -/
def passesThrough : Statement → Bool
  | .query (.select from_ _ _) => from_.isEmpty
  | .query .other => false
  | _ => true

def sendCommandToServer (connection : Connection) : Bool :=
  match connection.replay, connection.lastCommand with
  | some _, some lastCommand =>
    if lastCommand.comCode = .comQuery then
      match lastCommand.ast with
      | some ast => ast.all passesThrough
      | none => false
    else true
  | _, _ => true

/-- The log buffer afterwards, and the records sent. -/
def pushToKafka (env : Env) (connection : Connection) (encodedBytes kafkaLogBuffer : Bytes) :
    Bytes × List ReplayLogEntry :=
  match connection.lastCommand, connection.kafkaProducerConfig with
  | some command, some _ =>
    match connection.partialBytes with
    | some _ => (kafkaLogBuffer ++ encodedBytes, [])
    | none => ([], [{ lastCommand := command.arg, output := env.base64Encode (kafkaLogBuffer ++ encodedBytes) }])
  | _, _ => (kafkaLogBuffer, [])

def keepReplayLogEntry (map : TtlCache String String) (entry : ReplayLogEntry) : TtlCache String String :=
  map.insert entry.lastCommand entry.output

inductive CacheResponse where
  | notReplayed
  | waiting
  | cached (connection : Connection) (bytes : Bytes)

/-- `bytes` is what the code copies into the buffer of `size` bytes. -/
def getResponseFromCache (env : Env) (connection : Connection) (size : Nat) : CacheResponse :=
  match sendCommandToServer connection, connection.replay, connection.lastCommand with
  | false, some replayLogs, some lastCommand =>
    match (replayLogs.get lastCommand.arg).bind env.base64Decode with
    | none => .waiting
    | some bytes =>
      let toTransmit := connection.partialReplayBytes.getD bytes
      let rest := toTransmit.drop size
      .cached { connection with partialReplayBytes := if rest = [] then none else some rest } (toTransmit.take size)
  | _, _, _ => .notReplayed

/-! ## TLS -/

def switchToTls (connection : Connection) : Connection :=
  let bothPlain := connection.serverConnection = .plain ∧ connection.clientConnection = .plain
  { connection with
    serverConnection := if bothPlain then .serverTls else connection.serverConnection
    clientConnection := if bothPlain then .clientTls else connection.clientConnection
    phase := .handshakeResponse }

/-! ## Intercepted writes -/

/-- What the connections of a process share: the diff log, the replay log, the UUIDs drawn so far
and `GLOBAL_COUNTER`. -/
structure Shared where
  diff : StateDiffLog
  replay : ReplayLog
  drawn : Nat
  globalCounter : UInt8

/-- The response, with the counter's value before `fetch_add`; `none` where `sequence + 1` overflows. -/
def getWriteResponse (env : Env) (count : UInt8) (lastCommand : Command) (sequence : UInt8) (clientFlag : UInt32) :
    Option Bytes := do
  let lastInsertId := if startsWith (env.toLowercase lastCommand.arg) "insert " then count.toUInt64 else 0
  let okData : OkData := { header := 0x00, affectedRows := 1, lastInsertId, statusFlags := none, warnings := none }
  guard ¬ (env.overflowChecks ∧ sequence = 255)
  let packet ← okData.toPacket (sequence + 1) clientFlag
  some packet.toBytes

/-- The textual test of `is_write_query` (`:392-396`). -/
def isWriteText (env : Env) (lastCommand : Command) (packet : Packet) : Bool :=
  let arg := env.toLowercase lastCommand.arg
  packet.pType == .command && lastCommand.comCode == .comQuery &&
    (startsWith arg "insert" || startsWith arg "update" || startsWith arg "delete")

/-- The UPDATEs of the AST are recorded whatever the answer is. -/
def isWriteQuery (env : Env) (lastCommand : Option Command) (packet : Packet) (diff : StateDiffLog) (drawn : Nat) :
    Option (Bool × StateDiffLog × Nat) :=
  match lastCommand with
  | none => some (false, diff, drawn)
  | some lastCommand => (getDiff env diff drawn lastCommand.ast).map (isWriteText env lastCommand packet, ·)

structure Intercepted where
  connection : Connection
  drawn : Nat
  globalCounter : UInt8
  /-- What is written to the client; `none` if the command is not answered here. -/
  response : Option Bytes

def interceptCommand (env : Env) (connection : Connection) (packets : List Packet) (drawn : Nat)
    (globalCounter : UInt8) : Option Intercepted :=
  if connection.phase ≠ .pendingResponse then some { connection, drawn, globalCounter, response := none }
  else
    match packets with
    | [packet] => do
      let (isWrite, diff, drawn) ← isWriteQuery env connection.lastCommand packet connection.diff drawn
      let connection := { connection with diff }
      if isWrite then
        let lastCommand ← connection.lastCommand
        let clientFlag ← connection.clientFlag
        let response ← getWriteResponse env globalCounter lastCommand packet.header.seq clientFlag
        some { connection := { connection with phase := .command }, drawn,
               globalCounter := globalCounter + 1, response := some response }
      else some { connection, drawn, globalCounter, response := none }
    | _ => some { connection, drawn, globalCounter, response := none }

/-- `intercept_enabled() && intercept_command(..)` -/
def interceptIfEnabled (env : Env) (connection : Connection) (packets : List Packet) (drawn : Nat)
    (globalCounter : UInt8) : Option Intercepted :=
  if env.interceptWrites then interceptCommand env connection packets drawn globalCounter
  else some { connection, drawn, globalCounter, response := none }

/-! ## The two inner loops -/

inductive Side where
  | client | server
deriving DecidableEq, Repr

def serverTransitionPhases : List Phase := [.handshakeResponse, .command, .authSwitchResponse]

def clientTransitionPhases : List Phase := [.authInit, .pendingResponse, .authComplete]

/-- What one turn writes to the two peers and to the log. -/
structure Output where
  toClient : Bytes
  toServer : Bytes
  records : List ReplayLogEntry
deriving DecidableEq, Repr

/-- The local variables of `exchange`, and the loop it is in. -/
structure Exchange where
  connection : Connection
  listening : Side
  kafkaLogBuffer : Bytes

/-- `exchange` as it starts, in the server loop. -/
def Exchange.start (connection : Connection) : Exchange := { connection, listening := .server, kafkaLogBuffer := [] }

/-- A round of the server loop on the bytes in the buffer. -/
def serverTurn (env : Env) (x : Exchange) (r : SocketRead) : Option (Exchange × Output) := do
  let (connection, packets) ← processIncomingFrame env r.buf x.connection r.readBytes
  let encodedBytes := generateOutgoingFrame packets
  let (kafkaLogBuffer, records) := pushToKafka env connection encodedBytes x.kafkaLogBuffer
  let listening := if connection.phase ∈ serverTransitionPhases then .client else .server
  some ({ connection, listening, kafkaLogBuffer }, { toClient := encodedBytes, toServer := [], records })

/-- The top of the client loop. -/
def switchIfAgreed (env : Env) (connection : Connection) : Connection :=
  if env.tls ∧ connection.phase = .tlsExchange then switchToTls connection else connection

/-- The bottom of the client loop, a command not being answered here. The log buffer is a fresh one
each time the server loop starts. -/
def afterClientFrame (x : Exchange) (connection : Connection) : Exchange :=
  if connection.phase ∈ clientTransitionPhases then { connection, listening := .server, kafkaLogBuffer := [] }
  else { x with connection }

/-- A round of the client loop; the counters are the process's afterwards. -/
def clientTurn (env : Env) (x : Exchange) (r : SocketRead) (drawn : Nat) (globalCounter : UInt8) :
    Option (Exchange × Output × Nat × UInt8) := do
  let (connection, packets) ← processIncomingFrame env r.buf x.connection r.readBytes
  let encodedBytes := generateOutgoingFrame packets
  let i ← interceptIfEnabled env connection packets drawn globalCounter
  match i.response with
  | some response =>
    some ({ x with connection := i.connection }, { toClient := response, toServer := [], records := [] },
      i.drawn, i.globalCounter)
  | none =>
    let toServer := if sendCommandToServer i.connection then encodedBytes else []
    some (afterClientFrame x i.connection, { toClient := [], toServer, records := [] }, i.drawn, i.globalCounter)

/-! ## Turns -/

/-- One turn: the shared state as the turn finds it, and the bytes the socket listened at has. -/
structure Turn where
  shared : Shared
  read : SocketRead

/-- The connection, with what it shares as `shared` has it. -/
def Connection.sharing (connection : Connection) (shared : Shared) : Connection :=
  { connection with diff := shared.diff, replay := shared.replay }

/-- Where the bytes of a turn come from. -/
inductive Origin where
  | client | server | replayLog
deriving DecidableEq, Repr

inductive Received where
  /-- A read of no bytes ends the exchange. -/
  | closed
  | waiting
  | bytes (connection : Connection) (r : SocketRead) (origin : Origin)

/-- The top of either loop: a response comes from the replay log or else from the server's socket. -/
def receive (env : Env) (x : Exchange) (read : SocketRead) : Received :=
  match x.listening with
  | .server =>
    match getResponseFromCache env x.connection read.buf.length with
    | .waiting => .waiting
    | .cached connection bytes =>
      if bytes = [] then .closed else .bytes connection (.whole bytes) .replayLog
    | .notReplayed => if read.readBytes = 0 then .closed else .bytes x.connection read .server
  | .client => if read.readBytes = 0 then .closed else .bytes (switchIfAgreed env x.connection) read .client

/-- `none` is a panic, or the end of the exchange. -/
def exchangeStep (env : Env) (x : Exchange) (turn : Turn) : Option (Exchange × Output × Shared) :=
  let x := { x with connection := x.connection.sharing turn.shared }
  match receive env x turn.read with
  | .closed => none
  | .waiting => some (x, { toClient := [], toServer := [], records := [] }, turn.shared)
  | .bytes connection r _ =>
    match x.listening with
    | .server => (serverTurn env { x with connection } r).map fun (x, output) => (x, output, turn.shared)
    | .client => (clientTurn env { x with connection } r turn.shared.drawn turn.shared.globalCounter).map
        fun (x, output, drawn, globalCounter) =>
          (x, output, { turn.shared with diff := x.connection.diff, drawn, globalCounter })

end MocksySql
