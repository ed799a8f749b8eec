import MocksySql.Packet
/-!
# The connection phase and commands (`mysql/accumulator/`)

| here | there |
| --- | --- |
| `HandshakeAccumulator.consume`         | `handshake.rs:31` |
| `HandshakeResponseAccumulator.consume` | `handshake_response.rs:31`: `readPrelude` up to the filler, then either the SSLRequest branch (`:61-73`) or `readRest` |
| `AuthInitAccumulator.consume`          | `auth_init.rs:13` |
| `AuthSwitchRequestAccumulator.consume` | `auth_switch_request.rs:15` |
| `AuthSwitchResponseAccumulator.consume` | `auth_switch_response.rs:12` |
| `AuthCompleteAccumulator.consume`      | `auth_complete.rs:11` |
| `CommandAccumulator.consume`           | `command.rs:33`, with `Command.fromBytes` (`mysql/command.rs:14`) |

None of these touches the packet. The connection-phase accumulators start from their default, so only
what `consume` leaves in them is returned, and only where someone reads it.
-/

namespace MocksySql
open FieldDecode

/-! ## Server handshake -/

def reservedString : String := String.ofList (List.replicate 10 (Char.ofNat 0))

def pluginDataMaxLength : Nat := 21

/-- The length byte, or the zero byte in its place when CLIENT_PLUGIN_AUTH is clear (`:94-107`). -/
def HandshakeAccumulator.readPluginDataLen (body : Bytes) (capabilityFlags : UInt32) : Cursor Nat := do
  let n ← field body (IntFixedLen.fromBytes · (some 1))
  if hasFlag capabilityFlags .clientPluginAuth then return n
  else
    require (n = 0x00)
    return 0

def HandshakeAccumulator.readPluginName (body : Bytes) (capabilityFlags : UInt32) : Cursor (Option String) := do
  if hasFlag capabilityFlags .clientPluginAuth then
    let name ← field body (StringNullEnc.fromBytes · none)
    return some name
  else return none

def HandshakeAccumulator.read (body : Bytes) : Cursor HandshakeAccumulator := do
  let protocolVersion ← field body (IntFixedLen.fromBytes · (some 1))
  require (protocolVersion = 0x0a)
  let serverVersion ← field body (StringNullEnc.fromBytes · none)
  let threadId ← field body (IntFixedLen.fromBytes · (some 4))
  let authPluginDataPart1 ← field body (StringFixedLen.fromBytes · (some 8))
  let filler ← field body (IntFixedLen.fromBytes · (some 1))
  require (filler = 0x00)
  let capabilityFlags1 ← field body (IntFixedLen.fromBytes · (some 2))
  let characterSet ← field body (IntFixedLen.fromBytes · (some 1))
  let statusFlags ← field body (IntFixedLen.fromBytes · (some 2))
  let capabilityFlags2 ← field body (IntFixedLen.fromBytes · (some 2))
  let capabilityFlags := (UInt32.ofNat capabilityFlags2 <<< 16) + UInt32.ofNat capabilityFlags1
  let authPluginDataLen ← HandshakeAccumulator.readPluginDataLen body capabilityFlags
  let reserved ← field body (StringFixedLen.fromBytes · (some 10))
  require (reserved = reservedString)
  let length := max pluginDataMaxLength authPluginDataLen - 8
  let authPluginDataPart2 ← field body (StringFixedLen.fromBytes · (some length))
  let authPluginName ← HandshakeAccumulator.readPluginName body capabilityFlags
  let offset ← get
  require (offset = body.length)
  return { accumulationComplete := true, serverVersion, authPluginDataPart1, authPluginDataPart2
           authPluginName, capabilityFlags
           protocolVersion := UInt8.ofNat protocolVersion
           threadId := UInt64.ofNat threadId
           filler := UInt8.ofNat filler
           capabilityFlags1 := UInt16.ofNat capabilityFlags1
           characterSet := UInt8.ofNat characterSet
           statusFlags := UInt16.ofNat statusFlags
           capabilityFlags2 := UInt16.ofNat capabilityFlags2
           authPluginDataLen := UInt8.ofNat authPluginDataLen }

def HandshakeAccumulator.consume (packet : Packet) : Option (HandshakeAccumulator × Phase) :=
  ((HandshakeAccumulator.read packet.body).run' 0).map fun self => (self, .handshakeResponse)

/-! ## Handshake response -/

def fillerString : String := String.ofList (List.replicate 23 (Char.ofNat 0))

/-- `HandshakeResponseAccumulator::default()` -/
def HandshakeResponseAccumulator.default : HandshakeResponseAccumulator where
  clientFlag := 0
  maxPacketSize := 0
  characterSet := 0
  filler := ""
  username := ""
  authResponseLength := none
  authResponse := none
  database := none
  clientPluginName := none
  connectionAttrsLength := 0
  connectionAttrs := ∅
  zstdCompressionLevel := 0
  accumulationComplete := false

namespace HandshakeResponseAccumulator

/-- `client_flag` to `filler`; without CLIENT_PROTOCOL_41 the client is refused (`:38`). -/
def readPrelude (body : Bytes) : Cursor HandshakeResponseAccumulator := do
  let clientFlag ← field body (IntFixedLen.fromBytes · (some 4))
  let clientFlag := UInt32.ofNat clientFlag
  require (hasFlag clientFlag .clientProtocol41)
  let maxPacketSize ← field body (IntFixedLen.fromBytes · (some 4))
  let characterSet ← field body (IntFixedLen.fromBytes · (some 1))
  let filler ← field body (StringFixedLen.fromBytes · (some 23))
  require (filler = fillerString)
  return { HandshakeResponseAccumulator.default with
    accumulationComplete := true, clientFlag, filler
    maxPacketSize := UInt32.ofNat maxPacketSize
    characterSet := UInt8.ofNat characterSet }

/-- `auth_response`, with a length-encoded or a one-byte length (`:82-104`). -/
def readAuthResponse (body : Bytes) (clientFlag : UInt32) : Cursor (Option UInt8 × Option String) := do
  if hasFlag clientFlag .clientPluginAuthLenEncClientData then
    let authResponse ← field body (StringLenEnc.fromBytes · none)
    return (none, some authResponse)
  else
    let length ← field body (IntFixedLen.fromBytes · (some 1))
    let authResponse ← field body (StringFixedLen.fromBytes · (some length))
    return (some (UInt8.ofNat length), some authResponse)

/-- A NUL-terminated string that is there only under `flag`. -/
def readOptionalString (body : Bytes) (clientFlag : UInt32) (flag : CapabilityFlags) : Cursor (Option String) := do
  if hasFlag clientFlag flag then
    let s ← field body (StringNullEnc.fromBytes · none)
    return some s
  else return none

/-- The `while offset < start + length` loop; a round takes two bytes or more. -/
def readAttrs (body : Bytes) (stop : Nat) : Nat → AList (fun _ : String => String) →
    Cursor (AList fun _ : String => String)
  | 0, attrs => do
    let offset ← get
    require (¬ offset < stop)
    return attrs
  | fuel + 1, attrs => do
    let offset ← get
    if offset < stop then
      let key ← field body (StringLenEnc.fromBytes · none)
      let value ← field body (StringLenEnc.fromBytes · none)
      readAttrs body stop fuel (attrs.insert key value)
    else return attrs

/-- The total length is cut to a byte (`as u8`, `:133`). -/
def readConnectionAttrs (body : Bytes) (clientFlag : UInt32) : Cursor (UInt8 × AList fun _ : String => String) := do
  if hasFlag clientFlag .clientConnectAttrs then
    let length ← field body (IntLenEnc.fromBytes · none)
    let length := UInt8.ofNat length
    let offset ← get
    let attrs ← readAttrs body (offset + length.toNat) length.toNat ∅
    return (length, attrs)
  else return (0, ∅)

/-- With the flag set the code passes a `length` that `IntLenEnc::from_bytes` refuses (`:155`). -/
def readZstdLevel (body : Bytes) (clientFlag : UInt32) : Cursor UInt8 := do
  if hasFlag clientFlag .clientZSTDCompressionAlgorithm then
    let level ← field body (IntLenEnc.fromBytes · (some 1))
    return UInt8.ofNat level
  else return 0

def readRest (body : Bytes) (prelude : HandshakeResponseAccumulator) : Cursor HandshakeResponseAccumulator := do
  let username ← field body (StringNullEnc.fromBytes · none)
  let (authResponseLength, authResponse) ← readAuthResponse body prelude.clientFlag
  let database ← readOptionalString body prelude.clientFlag .clientConnectWithDB
  let clientPluginName ← readOptionalString body prelude.clientFlag .clientPluginAuth
  let (connectionAttrsLength, connectionAttrs) ← readConnectionAttrs body prelude.clientFlag
  let zstdCompressionLevel ← readZstdLevel body prelude.clientFlag
  return { prelude with username, authResponseLength, authResponse, database, clientPluginName
                        connectionAttrsLength, connectionAttrs, zstdCompressionLevel }

def read (body : Bytes) (plain : Bool) : Cursor (HandshakeResponseAccumulator × Phase) := do
  let prelude ← readPrelude body
  if plain && hasFlag prelude.clientFlag .clientSsl then
    let offset ← get
    require (body.length = offset)
    return (prelude, .tlsExchange)
  else
    let self ← readRest body prelude
    return (self, .authInit)

def consume (packet : Packet) (connection : Connection) : Option (HandshakeResponseAccumulator × Phase) :=
  (read packet.body (connection.clientConnection = .plain)).run' 0

end HandshakeResponseAccumulator

/-! ## Authentication -/

def AuthSwitchRequestAccumulator.read (body : Bytes) : Cursor Phase := do
  let statusTag ← field body (IntFixedLen.fromBytes · (some 1))
  require (statusTag = 0xfe)
  let _pluginName ← field body (StringNullEnc.fromBytes · none)
  let _pluginProvidedData ← field body (StringEOFEnc.fromBytes · none)
  let offset ← get
  require (offset = body.length)
  return .authSwitchResponse

def AuthSwitchRequestAccumulator.consume (packet : Packet) : Option Phase :=
  (AuthSwitchRequestAccumulator.read packet.body).run' 0

def AuthCompleteAccumulator.consume (packet : Packet) : Option Phase :=
  match packet.pType with
  | .ok => some .command
  | .error => some .authFailed
  | _ => none

def AuthSwitchResponseAccumulator.consume (_packet : Packet) : Option Phase := some .authComplete

def AuthInitAccumulator.consume (packet : Packet) : Option Phase :=
  match packet.body.head? with
  | none => none
  | some b0 =>
    if b0 = 0xfe then AuthSwitchRequestAccumulator.consume packet
    else if b0 = 0x00 then AuthCompleteAccumulator.consume packet
    else if b0 = 0x01 then
      if packet.body[1]? = some 0x03 then some .authComplete
      else if packet.body[1]? = some 0x04 then some .authSwitchResponse
      else none
    else some .authInit

/-! ## Commands -/

def MySqlCommand.fromByte : UInt8 → Option MySqlCommand
  | 0x00 => some .comSleep | 0x01 => some .comQuit | 0x02 => some .comInitDb | 0x03 => some .comQuery
  | 0x04 => some .comFieldList | 0x05 => some .comCreateDb | 0x06 => some .comDropDb | 0x07 => some .comRefresh
  | 0x08 => some .comShutdown | 0x09 => some .comStatistics | 0x0A => some .comProcessInfo
  | 0x0B => some .comConnect | 0x0C => some .comProcessKill | 0x0D => some .comDebug | 0x0E => some .comPing
  | 0x0F => some .comTime | 0x10 => some .comDelayedInsert | 0x11 => some .comChangeUser
  | 0x12 => some .comBinlogDump | 0x13 => some .comTableDump | 0x14 => some .comConnectOut
  | 0x15 => some .comRegisterSlave | 0x16 => some .comStmtPrepare | 0x17 => some .comStmtExecute
  | 0x18 => some .comStmtSendLongData | 0x19 => some .comStmtClose | 0x1A => some .comStmtReset
  | 0x1B => some .comSetOption | 0x1C => some .comStmtFetch | 0x1D => some .comDaemon
  | 0x1E => some .comBinlogDumpGtid | 0x1F => some .comResetConnection
  | _ => none

def Command.fromBytes (env : Env) (code : MySqlCommand) (bytes : Bytes) : Option Command := do
  let arg ← if code = .comStmtExecute then some "" else fromUtf8 bytes
  some { comCode := code, arg, ast := env.parseSql arg }

/-- Parameter count and parameter set count (`:42-72`); binary parameters are not implemented. -/
def CommandAccumulator.readQueryAttributes (body : Bytes) : Cursor Unit := do
  let parameterCount ← field body (IntLenEnc.fromBytes · none)
  let parameterSetCount ← field body (IntLenEnc.fromBytes · none)
  require (parameterSetCount = 0x01)
  require (parameterCount = 0)

/-- Where the argument starts: after the command byte only for a COM_QUERY (`:34-74`). -/
def CommandAccumulator.argOffset (body : Bytes) (connection : Connection) : Option Nat := do
  let b0 ← body.head?
  if b0 = 0x03 then
    let clientFlag ← connection.clientFlag
    if hasFlag clientFlag .clientQueryAttributes then
      let (_, offset) ← (CommandAccumulator.readQueryAttributes body).run 1
      some offset
    else some 1
  else some 0

def CommandAccumulator.consume (env : Env) (packet : Packet) (connection : Connection) : Option (Command × Phase) := do
  let offset ← CommandAccumulator.argOffset packet.body connection
  let code ← MySqlCommand.fromByte (← packet.body.head?)
  let command ← Command.fromBytes env code (← sliceFrom packet.body offset)
  some (command, if command.comCode = .comStmtClose then .command else .pendingResponse)

end MocksySql
