import MocksySql.Lib.Run
import MocksySql.Handshake
import MocksySql.ResultSet
/-!
# Frames (`state_handler.rs`)

| here | there |
| --- | --- |
| `parseBuffer`, `verifyPacketOrder` | `state_handler.rs:132`, `:119` |
| `makePackets`           | `make_packets` (`:90`); each round but the last takes four bytes or more |
| `accumulate`            | `get_accumulator` (`:71`), then `consume` and `get_accumulation_delta` of what it returned |
| `syncConnectionState`   | `sync_connection_state` (`:52`) |
| `consumePacket`         | the body of the `for` loop of `process_incoming_frame` (`:31-47`); its output is the packet pushed to `out_packets`, if any |
| `processIncomingFrame`  | `process_incoming_frame` (`:23`) |
| `generateOutgoingFrame` | `generate_outgoing_frame` (`:157`) |

`none` is a panic: the connection's thread ends.
-/

namespace MocksySql
open FieldDecode PartialRun

/-- What a successful `read(&mut buf)` leaves: the buffer and how many of its bytes are new. -/
structure SocketRead where
  buf : Bytes
  readBytes : Nat
  inside : readBytes ≤ buf.length

/-- A buffer of exactly these bytes, all of them read. -/
def SocketRead.whole (bytes : Bytes) : SocketRead := ⟨bytes, bytes.length, Nat.le_refl _⟩

/-- The bytes read. -/
def SocketRead.chunk (r : SocketRead) : Bytes := r.buf.take r.readBytes

theorem SocketRead.slice_buf (r : SocketRead) : slice r.buf 0 r.readBytes = some r.chunk := by
  rw [slice, if_pos ⟨Nat.zero_le _, r.inside⟩]; rfl

/-! ## From bytes to packets -/

inductive PacketParseResult where
  | packet (p : Packet)
  | partialData (bytes : Bytes)
  | none
deriving DecidableEq, Repr

/-- The result, and the advanced `start_offset`. -/
def parseBuffer (buf : Bytes) (startOffset : Nat) (phase : Phase) : Option (PacketParseResult × Nat) :=
  if startOffset = buf.length then some (.none, startOffset)
  else do
    let rest ← sliceFrom buf startOffset
    match ← Packet.fromBytes rest phase with
    | .error _ => some (.partialData rest, startOffset)
    | .ok packet => some (.packet packet, startOffset + 4 + packet.header.size)

/-- The previous number plus one, 255 being followed by 0. -/
def seqFollows (prevSeq curSeq : UInt8) : Bool :=
  !((curSeq != 0 && prevSeq != curSeq - 1) || (curSeq == 0 && prevSeq != 255))

def verifyPacketOrder (ret : List Packet) (p : Packet) : Bool :=
  match ret.getLast? with
  | none => true
  | some prev => seqFollows prev.header.seq p.header.seq

def makePacketsLoop (chunk : Bytes) : Nat → Connection → Nat → List Packet → Option (Connection × List Packet)
  | 0, _, _, _ => none
  | fuel + 1, connection, offset, ret =>
    let bufferVec := connection.partialBytes.getD [] ++ chunk
    match parseBuffer bufferVec offset connection.phase with
    | none => none
    | some (.packet p, offset) =>
      if verifyPacketOrder ret p then makePacketsLoop chunk fuel connection offset (ret ++ [p]) else none
    | some (.none, _) => some (connection.unsetPartialData, ret)
    | some (.partialData pd, _) => some (connection.setPartialData pd, ret)

def makePackets (buf : Bytes) (connection : Connection) (readBytes : Nat) : Option (Connection × List Packet) := do
  let chunk ← slice buf 0 readBytes
  makePacketsLoop chunk ((connection.partialBytes.getD []).length + chunk.length + 1) connection 0 []

/-! ## Packets through the phase's accumulator -/

def AccumulationDelta.empty : AccumulationDelta := ⟨none, none, none, none⟩

def accumulate (env : Env) (packet : Packet) (connection : Connection) :
    Option (Phase × Packet × AccumulationDelta) :=
  match connection.phase with
  | .handshake => (HandshakeAccumulator.consume packet).map fun r =>
      (r.2, packet, { AccumulationDelta.empty with handshake := some r.1 })
  | .tlsExchange => none
  | .handshakeResponse => (HandshakeResponseAccumulator.consume packet connection).map fun r =>
      (r.2, packet, { AccumulationDelta.empty with handshakeResponse := some r.1 })
  | .authInit => (AuthInitAccumulator.consume packet).map (·, packet, .empty)
  | .authSwitchResponse => (AuthSwitchResponseAccumulator.consume packet).map (·, packet, .empty)
  | .authFailed => none
  | .authComplete => (AuthCompleteAccumulator.consume packet).map (·, packet, .empty)
  | .command => (CommandAccumulator.consume env packet connection).map fun r =>
      (r.2, packet, { AccumulationDelta.empty with lastCommand := some r.1, response := some .default })
  | .pendingResponse => (connection.queryResponse.consume env packet connection).map fun r =>
      (r.2.2, r.2.1, { AccumulationDelta.empty with response := some r.1 })

def syncConnectionState (connection : Connection) (delta : AccumulationDelta) : Connection :=
  { connection with
    handshake := delta.handshake.or connection.handshake
    handshakeResponse := delta.handshakeResponse.or connection.handshakeResponse
    lastCommand := delta.lastCommand.or connection.lastCommand
    queryResponse := delta.response.getD connection.queryResponse }

def consumePacket (env : Env) (connection : Connection) (packet : Packet) : Option (Connection × Option Packet) :=
  (accumulate env packet connection).map fun (phase, packet, delta) =>
    (syncConnectionState { connection with phase } delta, if packet.skip then none else some packet)

theorem consumePacket_frame {env : Env} {c c' : Connection} {packet : Packet} {out : Option Packet}
    (h : consumePacket env c packet = some (c', out)) : c'.partialBytes = c.partialBytes ∧ c'.diff = c.diff := by
  obtain ⟨_, _, he⟩ := Option.map_eq_some_iff.1 h
  cases he
  exact ⟨rfl, rfl⟩

def processIncomingFrame (env : Env) (buf : Bytes) (connection : Connection) (readBytes : Nat) :
    Option (Connection × List Packet) := do
  let (connection, inPackets) ← makePackets buf connection readBytes
  let (connection, outPackets) ← run (consumePacket env) connection inPackets
  some (connection, outPackets.filterMap id)

theorem processIncomingFrame_some {env : Env} {buf : Bytes} {connection connection' : Connection} {readBytes : Nat}
    {out : List Packet} (h : processIncomingFrame env buf connection readBytes = some (connection', out)) :
    ∃ c₀ packets outs, makePackets buf connection readBytes = some (c₀, packets) ∧
      run (consumePacket env) c₀ packets = some (connection', outs) ∧ out = outs.filterMap id := by
  simp only [processIncomingFrame, Option.bind_eq_bind, Option.bind_eq_some_iff] at h
  obtain ⟨⟨c₀, packets⟩, hmake, ⟨c', outs⟩, hrun, he⟩ := h
  cases he
  exact ⟨c₀, packets, outs, hmake, hrun, rfl⟩

def generateOutgoingFrame (packets : List Packet) : Bytes := packets.flatMap Packet.toBytes

end MocksySql
