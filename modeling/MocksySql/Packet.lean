import MocksySql.Connection
/-!
# Packets (`mysql/packet.rs`)

| here | there |
| --- | --- |
| `PacketHeader.fromBytes`, `PacketHeader.toBytes` | `packet.rs:29`, `:40` |
| `getPacketType`         | `get_packet_type` (`:82`); an empty body is an index panic |
| `Packet.fromBytes`      | `Packet::from_bytes` (`:50`): `none` a panic, `some (.error ())` its `Err` |
| `ErrorData.fromPacket`, `getSqlState` | `:119`, `:147` |
| `OkData.fromPacket`, `OkData.toPacket` | `:207`, `:288`, on a little-endian host |
| `EofData.fromPacket`    | `:326` |
-/

namespace MocksySql
open FieldDecode

def PacketHeader.fromBytes (b0 b1 b2 b3 : UInt8) : PacketHeader where
  size := fromLe [b0, b1, b2]
  seq := b3

def PacketHeader.toBytes (header : PacketHeader) : Bytes := toLe 3 header.size ++ [header.seq]

@[simp] theorem PacketHeader.toBytes_length (header : PacketHeader) : header.toBytes.length = 4 := by
  simp [PacketHeader.toBytes]

theorem PacketHeader.toBytes_fromBytes (b0 b1 b2 b3 : UInt8) :
    (PacketHeader.fromBytes b0 b1 b2 b3).toBytes = [b0, b1, b2, b3] := by
  have := toLe_fromLe [b0, b1, b2]
  rw [PacketHeader.toBytes, PacketHeader.fromBytes]
  exact congrArg (· ++ [b3]) this

def getPacketType (body : Bytes) (phase : Phase) : Option PacketType :=
  match body.head? with
  | none => none
  | some b0 =>
    if 7 ≤ body.length ∧ b0 = 0x00 then some .ok
    else if body.length ≤ 9 ∧ b0 = 0xfe then some .eof
    else if b0 = 0xff then some .error
    else if phase = .command then some .command
    else some .other

def Packet.fromBytes (bytes : Bytes) (phase : Phase) : Option (Except Unit Packet) :=
  match bytes with
  | b0 :: b1 :: b2 :: b3 :: rest =>
    let header := PacketHeader.fromBytes b0 b1 b2 b3
    if rest.length < header.size then some (.error ())
    else
      let body := rest.take header.size
      (getPacketType body phase).map fun pType => .ok { header, body, pType, skip := false }
  | _ => some (.error ())

def Packet.toBytes (packet : Packet) : Bytes := packet.header.toBytes ++ packet.body

/-! ## ERR packets -/

def getSqlState (packet : Packet) (connection : Connection) (offset : Nat) : Option (Option SQLState) := do
  let clientFlag ← connection.clientFlag
  if hasFlag clientFlag .clientProtocol41 then
    let stateMarker ← StringFixedLen.fromBytes (← sliceFrom packet.body offset) (some 1)
    let state ← StringFixedLen.fromBytes (← sliceFrom packet.body (offset + stateMarker.offsetIncrement)) (some 5)
    some (some { stateMarker := stateMarker.result, state := state.result })
  else some none

/-- The code is read from offset 0, marker byte included; the message starts at 9 in any case. -/
def ErrorData.fromPacket (packet : Packet) (connection : Connection) : Option ErrorData := do
  if packet.pType = .error then
    let errorCode ← IntFixedLen.fromBytes packet.body (some 2)
    let offset := 1 + errorCode.offsetIncrement
    let sqlState ← getSqlState packet connection offset
    let errorMessage ← StringEOFEnc.fromBytes (← sliceFrom packet.body (offset + 6)) none
    some { errorCode := UInt16.ofNat errorCode.result, sqlState, errorMessage := errorMessage.result }
  else none

/-! ## OK packets -/

structure OkData where
  header : UInt8
  affectedRows : UInt64
  lastInsertId : UInt64
  statusFlags : Option UInt16
  warnings : Option UInt16
deriving DecidableEq, Repr

/-- Status flags and warnings, as far as the client's flags announce them (`:233-260`). -/
def OkData.flagFields (body : Bytes) (clientFlag : UInt32) : Cursor (Option UInt16 × Option UInt16) := do
  if hasFlag clientFlag .clientProtocol41 then
    let statusFlags ← field body (IntFixedLen.fromBytes · (some 2))
    let warnings ← field body (IntFixedLen.fromBytes · (some 2))
    return (some (UInt16.ofNat statusFlags), some (UInt16.ofNat warnings))
  else if hasFlag clientFlag .clientTransactions then
    let statusFlags ← field body (IntFixedLen.fromBytes · (some 2))
    return (some (UInt16.ofNat statusFlags), none)
  else return (none, none)

def OkData.fields (body : Bytes) (clientFlag : UInt32) : Cursor OkData := do
  let header ← field body (IntFixedLen.fromBytes · (some 1))
  require (header = 0x00 ∨ header = 0xFE)
  let affectedRows ← field body (IntLenEnc.fromBytes · none)
  let lastInsertId ← field body (IntLenEnc.fromBytes · none)
  let (statusFlags, warnings) ← OkData.flagFields body clientFlag
  return { header := UInt8.ofNat header, affectedRows := UInt64.ofNat affectedRows,
           lastInsertId := UInt64.ofNat lastInsertId, statusFlags, warnings }

def OkData.fromPacket (packet : Packet) (connection : Connection) : Option OkData := do
  if packet.pType = .ok then
    let clientFlag ← connection.clientFlag
    (OkData.fields packet.body clientFlag).run' 0
  else none

/-- `none` is the `unwrap` of absent status flags (`:299`). -/
def OkData.toPacket (ok : OkData) (sequence : UInt8) (clientFlag : UInt32) : Option Packet := do
  let start := ok.header :: (IntLenEnc.encode ok.affectedRows.toNat ++ IntLenEnc.encode ok.lastInsertId.toNat)
  let flags ←
    if hasFlag clientFlag .clientProtocol41 then
      some (toLe 2 (ok.statusFlags.getD 0).toNat ++ toLe 2 (ok.warnings.getD 0).toNat)
    else if hasFlag clientFlag .clientTransactions then
      ok.statusFlags.map fun s => toLe 2 s.toNat
    else some []
  let body := start ++ flags
  some { header := { size := body.length, seq := sequence }, body, pType := .ok, skip := false }

/-! ## EOF packets -/

structure EofData where
  statusFlags : Option UInt16
  warnings : Option UInt16
deriving DecidableEq, Repr

def EofData.fields (body : Bytes) : Cursor EofData := do
  let warnings ← field body (IntFixedLen.fromBytes · (some 2))
  let statusFlags ← field body (IntFixedLen.fromBytes · (some 2))
  let offset ← get
  require (offset + 2 = body.length)
  return { statusFlags := some (UInt16.ofNat statusFlags), warnings := some (UInt16.ofNat warnings) }

def EofData.fromPacket (packet : Packet) (connection : Connection) : Option EofData := do
  if packet.pType = .eof then
    let clientFlag ← connection.clientFlag
    if hasFlag clientFlag .clientProtocol41 then (EofData.fields packet.body).run' 1
    else some { statusFlags := none, warnings := none }
  else none

/-- `ServerStatusFlags::ServerMoreResultsExist` -/
def serverMoreResultsExist : UInt16 := 0x08

end MocksySql
