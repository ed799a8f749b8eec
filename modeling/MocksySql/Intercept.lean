import MocksySql.AuthGate
import MocksySql.CommandParsing
import MocksySql.ResultSetRuns
import MocksySql.Transparency
/-!
# Which writes are answered locally

`is_write_query` decides by the first word of the raw text, where `get_diff` goes by the AST.

* `answered_iff` — a COM_QUERY, however it is cut into reads, is answered by the client loop and kept
  from the server exactly if it fits a packet and its text starts with one of three words.
* `commented_insert_forwarded` — an INSERT behind a comment goes to the server.
-/

namespace MocksySql
open FieldDecode PartialRun ByteStream

/-! ## The command -/

/-- The connection waits for a command, under these capability flags. -/
structure AwaitsCommand (c : Connection) (clientFlag : UInt32) : Prop where
  phase : c.phase = .command
  flags : c.clientFlag = some clientFlag
  protocol41 : hasFlag clientFlag .clientProtocol41

/-- The payload of a COM_QUERY, without parameters where query attributes are negotiated. -/
def queryPayload (clientFlag : UInt32) (text : String) : Bytes :=
  0x03 :: ((if hasFlag clientFlag .clientQueryAttributes then [0x00, 0x01] else []) ++ asBytes text)

/-- A payload as a client sends it: full packets, then one that is not full. -/
def payloadFrames (seq : UInt8) (payload : Bytes) : List Frame :=
  if payload.length < 0xffffff then [({ size := payload.length, seq }, payload)]
  else ({ size := 0xffffff, seq }, payload.take 0xffffff) :: payloadFrames (seq + 1) (payload.drop 0xffffff)
termination_by payload.length

def queryPacket (seq : UInt8) (clientFlag : UInt32) (text : String) : Packet where
  header := { size := (queryPayload clientFlag text).length, seq }
  body := queryPayload clientFlag text
  pType := .command
  skip := false

/-- The command the proxy makes of it. -/
def queryCommand (env : Env) (text : String) : Command := { comCode := .comQuery, arg := text, ast := env.parseSql text }

section
variable {env : Env} {c : Connection} {clientFlag : UInt32} {text : String} {seq : UInt8}

theorem AwaitsCommand.sharing (h : AwaitsCommand c clientFlag) (shared : Shared) :
    AwaitsCommand (c.sharing shared) clientFlag := ⟨h.phase, h.flags, h.protocol41⟩

theorem AwaitsCommand.withResidual (h : AwaitsCommand c clientFlag) (residual : Bytes) :
    AwaitsCommand (c.withResidual residual) clientFlag := by
  rw [Connection.withResidual_eq]
  exact ⟨h.phase, h.flags, h.protocol41⟩

theorem queryPayload_eq : queryPayload clientFlag text = commandBody clientFlag 0x03 (asBytes text) := by
  simp [queryPayload, commandBody, queryPrefix]

/-- The whole command in one packet. -/
theorem consumePacket_query (h : AwaitsCommand c clientFlag) :
    consumePacket env c (queryPacket seq clientFlag text) =
      some ({ c with phase := .pendingResponse, lastCommand := some (queryCommand env text), queryResponse := .default },
        some (queryPacket seq clientFlag text)) := by
  have hconsume : CommandAccumulator.consume env (queryPacket seq clientFlag text) c =
      some (queryCommand env text, .pendingResponse) := by
    rw [@consume_commandBody env c clientFlag 0x03 .comQuery (asBytes text) _ h.flags rfl queryPayload_eq,
      Command.fromBytes, if_neg (by decide), argument, if_pos rfl, fromUtf8_asBytes]
    rfl
  rw [consumePacket, accumulate, h.phase]
  simp only [hconsume, Option.map_some]
  rfl

theorem Command.fromBytes_comCode {code : MySqlCommand} {bytes : Bytes} {command : Command}
    (h : Command.fromBytes env code bytes = some command) : command.comCode = code := by
  unfold Command.fromBytes at h
  split_ifs at h
  · cases h; rfl
  · obtain ⟨arg, _, he⟩ := Option.bind_eq_some_iff.1 h
    cases he
    rfl

/-- A part of a command, as long as it starts as one. -/
theorem consumePacket_comQuery {p : Packet} {r : Connection × Option Packet} (hphase : c.phase = .command)
    (hflags : c.clientFlag = some clientFlag) (hhead : p.body.head? = some 0x03) (hskip : p.skip = false)
    (h : consumePacket env c p = some r) :
    AwaitsQuery r.1 clientFlag ∧ r.1.queryResponse = .default ∧ r.2 = some p ∧
      ∃ command next, CommandAccumulator.consume env p c = some (command, next) ∧ r.1.lastCommand = some command := by
  obtain ⟨⟨phase, p', delta⟩, hacc, rfl⟩ := Option.map_eq_some_iff.1 h
  rw [accumulate, hphase] at hacc
  obtain ⟨⟨command, next⟩, hconsume, he⟩ := Option.map_eq_some_iff.1 hacc
  cases he
  have hdecoded := hconsume
  simp only [CommandAccumulator.consume, Option.bind_eq_bind, Option.bind_eq_some_iff, hhead] at hconsume
  obtain ⟨_, _, _, hb, code, hcode, bytes, _, command', hcommand, he⟩ := hconsume
  cases hb
  cases hcode
  have hquery : command'.comCode = .comQuery := Command.fromBytes_comCode hcommand
  cases he
  refine ⟨⟨?_, ⟨command, rfl, hquery⟩, hflags⟩, rfl, by simp [hskip], command, _, hdecoded, rfl⟩
  simp [syncConnectionState, hquery]

end

/-! ## Frames of a payload -/

def firstFrame (seq : UInt8) (payload : Bytes) : Frame :=
  ({ size := (payload.take 0xffffff).length, seq }, payload.take 0xffffff)

theorem payloadFrames_cases (seq : UInt8) (payload : Bytes) :
    ∃ fs, payloadFrames seq payload = firstFrame seq payload :: fs ∧ (fs = [] ↔ payload.length < 0xffffff) ∧
      (fs ≠ [] → ∃ seq' payload', fs = payloadFrames seq' payload') := by
  rw [payloadFrames, firstFrame]
  split_ifs with h
  · rw [List.take_of_length_le (by omega)]
    exact ⟨[], rfl, by simpa using h, by simp⟩
  · rw [show (payload.take 0xffffff).length = 0xffffff by simp only [List.length_take]; omega]
    refine ⟨_, rfl, ⟨fun hnil => ?_, fun hlt => absurd hlt h⟩, fun _ => ⟨_, _, rfl⟩⟩
    rw [payloadFrames] at hnil
    split_ifs at hnil

/-- The stream of a payload starts with a frame, which ends it or is full. -/
theorem payloadFrames_stream (seq : UInt8) (payload : Bytes) :
    ∃ rest, (payloadFrames seq payload).flatMap Frame.toBytes = (firstFrame seq payload).toBytes ++ rest ∧
      frames.next ((firstFrame seq payload).toBytes ++ rest) = some (firstFrame seq payload, rest) ∧
      (rest = [] ↔ payload.length < 0xffffff) ∧
      (rest ≠ [] → ∃ seq' payload', rest = (payloadFrames seq' payload').flatMap Frame.toBytes) := by
  obtain ⟨fs, hcons, hnil, hmore⟩ := payloadFrames_cases seq payload
  have hrest : fs.flatMap Frame.toBytes = [] ↔ fs = [] := by
    cases fs <;> simp [Frame.toBytes, PacketHeader.toBytes]
  have hsize : (firstFrame seq payload).1.size < 256 ^ 3 := by
    simp only [firstFrame, List.length_take]
    omega
  refine ⟨fs.flatMap Frame.toBytes, by rw [hcons, List.flatMap_cons], nextFrame_toBytes rfl hsize _,
    hrest.trans hnil, fun hne => ?_⟩
  obtain ⟨seq', payload', rfl⟩ := hmore fun h => hne (hrest.2 h)
  exact ⟨seq', payload', rfl⟩

theorem firstFrame_toBytes_length {seq : UInt8} {payload : Bytes} (h : ¬ payload.length < 0xffffff) :
    (firstFrame seq payload).toBytes.length = 0x1000003 := by
  simp only [firstFrame, Frame.toBytes, List.length_append, PacketHeader.toBytes_length, List.length_take]
  omega

/-- A full frame that is not the last cannot be taken off fewer bytes than it has. -/
theorem next_of_short {seq : UInt8} {payload rest more : Bytes} (hmore : more ≠ []) (hshort : rest.length < 0x1000003)
    (hrest : rest ++ more = (payloadFrames seq payload).flatMap Frame.toBytes) : frames.next rest = none := by
  obtain ⟨tail, hstream, hnext, hsmall, -⟩ := payloadFrames_stream seq payload
  cases hs : frames.next rest with
  | none => rfl
  | some r =>
    have hboth := frames.stable more hs
    rw [hrest, hstream, hnext] at hboth
    obtain ⟨hfirst, rfl⟩ := Prod.mk.inj (Option.some.inj hboth)
    have hfull : ¬ payload.length < 0xffffff := fun h => hmore (List.append_eq_nil_iff.1 (hsmall.2 h)).2
    have hlen := @firstFrame_toBytes_length seq payload hfull
    have hbytes := congrArg List.length (nextFrame_eq_some hs).1
    rw [List.length_append, ← hfirst] at hbytes
    omega

/-! ## Turns of the client loop -/

/-- The client loop takes in all turns and nothing goes to the server; it answers at the last turn, no
earlier one, and then waits for the next command. -/
def AnsweredLocally (env : Env) : Exchange → List Turn → Prop
  | _, [] => False
  | x, turn :: turns => ∃ x' output shared, exchangeStep env x turn = some (x', output, shared) ∧
      x'.listening = .client ∧ output.toServer = [] ∧
      if turns = [] then output.toClient ≠ [] ∧ x'.connection.phase = .command
      else output.toClient = [] ∧ AnsweredLocally env x' turns

section
variable {env : Env} {x : Exchange} {turn : Turn} {clientFlag : UInt32}

/-- A turn of the client loop in `Command`. -/
theorem exchangeStep_client (hphase : x.connection.phase = .command) (hlisten : x.listening = .client)
    (hread : turn.read.chunk ≠ []) :
    exchangeStep env x turn =
      (clientTurn env { x with connection := x.connection.sharing turn.shared } turn.read turn.shared.drawn
        turn.shared.globalCounter).map fun (x, output, drawn, globalCounter) =>
          (x, output, { turn.shared with diff := x.connection.diff, drawn, globalCounter }) := by
  have hopen : turn.read.readBytes ≠ 0 := fun h => hread (by simp [SocketRead.chunk, h])
  have hplain : switchIfAgreed env (x.connection.sharing turn.shared) = x.connection.sharing turn.shared :=
    switchIfAgreed_of_ne (by rw [Connection.sharing, hphase]; decide)
  simp only [exchangeStep, receive, hlisten, if_neg hopen, hplain]

theorem exchangeStep_clientTurn (hphase : x.connection.phase = .command) (hlisten : x.listening = .client)
    (hread : turn.read.chunk ≠ []) {x' : Exchange} {output : Output} {shared : Shared}
    (hstep : exchangeStep env x turn = some (x', output, shared)) :
    ∃ q, clientTurn env { x with connection := x.connection.sharing turn.shared } turn.read turn.shared.drawn
      turn.shared.globalCounter = some (x', output, q) := by
  rw [exchangeStep_client hphase hlisten hread] at hstep
  obtain ⟨⟨x₁, output₁, q⟩, hturn, he⟩ := Option.map_eq_some_iff.1 hstep
  cases he
  exact ⟨q, hturn⟩

theorem chunks_eq_nil {turns : List Turn} (hreads : ∀ t ∈ turns, t.read.chunk ≠ []) :
    turns.flatMap (·.read.chunk) = [] ↔ turns = [] := by
  cases turns with
  | nil => simp
  | cons t ts => simp [hreads t (by simp)]

theorem interceptIfEnabled_command {c : Connection} (hphase : c.phase = .command) (packets : List Packet)
    (drawn : Nat) (counter : UInt8) :
    interceptIfEnabled env c packets drawn counter = some ⟨c, drawn, counter, none⟩ := by
  simp [interceptIfEnabled, interceptCommand, hphase]

/-- A turn that completes no packet. -/
theorem exchangeStep_incomplete (h : AwaitsCommand x.connection clientFlag) (hlisten : x.listening = .client)
    (hread : turn.read.chunk ≠ []) (hnone : frames.next (x.connection.partialBytes.getD [] ++ turn.read.chunk) = none) :
    ∃ x' shared, exchangeStep env x turn = some (x', { toClient := [], toServer := [], records := [] }, shared) ∧
      x'.listening = .client ∧ AwaitsCommand x'.connection clientFlag ∧
      x'.connection.partialBytes.getD [] = x.connection.partialBytes.getD [] ++ turn.read.chunk := by
  have hc := h.sharing turn.shared
  have hheld : (x.connection.sharing turn.shared).partialBytes = x.connection.partialBytes := rfl
  have hframe : processIncomingFrame env turn.read.buf (x.connection.sharing turn.shared) turn.read.readBytes =
      some ((x.connection.sharing turn.shared).withResidual (x.connection.partialBytes.getD [] ++ turn.read.chunk), []) := by
    rw [processIncomingFrame, makePackets_eq, hheld, frames.split_of_none hnone]
    simp [InOrder]
  have hc' := hc.withResidual (x.connection.partialBytes.getD [] ++ turn.read.chunk)
  rw [exchangeStep_client h.phase hlisten hread, clientTurn]
  simp only [hframe, Option.bind_eq_bind, Option.bind_some, interceptIfEnabled_command hc'.phase, Option.map_some,
    generateOutgoingFrame, List.flatMap_nil, ite_self]
  refine ⟨_, _, rfl, ?_, ?_, ?_⟩
  · rw [afterClientFrame, if_neg (by rw [hc'.phase]; decide)]
    exact hlisten
  · rw [afterClientFrame_connection]; exact hc'
  · rw [afterClientFrame_connection, Connection.withResidual_partialBytes]

/-- The words `is_write_query` looks for. -/
def StartsAsWrite (env : Env) (text : String) : Prop :=
  ∃ word ∈ ["insert", "update", "delete"], startsWith (env.toLowercase text) word

theorem isWriteText_query {seq : UInt8} {text : String} :
    isWriteText env (queryCommand env text) (queryPacket seq clientFlag text) ↔ StartsAsWrite env text := by
  simp [isWriteText, queryCommand, queryPacket, StartsAsWrite, or_assoc]

/-- The OK packet is there unless its number overflows. -/
theorem getWriteResponse_isSome {count seq : UInt8} {command : Command} (h41 : hasFlag clientFlag .clientProtocol41) :
    (∃ response, getWriteResponse env count command seq clientFlag = some response) ↔
      ¬ (env.overflowChecks ∧ seq = 255) := by
  by_cases hover : env.overflowChecks ∧ seq = 255
  · simp [getWriteResponse, hover]
  · simp [getWriteResponse, hover, OkData.toPacket, h41]

theorem getWriteResponse_ne_nil {count seq : UInt8} {command : Command} {response : Bytes}
    (h : getWriteResponse env count command seq clientFlag = some response) : response ≠ [] := by
  simp only [getWriteResponse, Option.bind_eq_bind, Option.bind_eq_some_iff] at h
  obtain ⟨_, _, packet, _, he⟩ := h
  cases he
  simp [Packet.toBytes, PacketHeader.toBytes]

theorem interceptIfEnabled_answer {c : Connection} {packets : List Packet} {drawn : Nat} {counter : UInt8}
    {i : Intercepted} {response : Bytes} (h : interceptIfEnabled env c packets drawn counter = some i)
    (hresponse : i.response = some response) : response ≠ [] ∧ i.connection.phase = .command := by
  cases interceptIfEnabled_intercepts h with
  | idle _ | passed _ _ _ _ => cases hresponse
  | answered _ _ _ _ _ _ hwritten =>
    cases hresponse
    exact ⟨getWriteResponse_ne_nil hwritten, rfl⟩

/-- `intercept_command` on a command that came in one packet, alone in its read. -/
theorem interceptIfEnabled_query {c : Connection} {seq : UInt8} {text : String} {drawn : Nat} {counter : UInt8}
    (hin : env.interceptWrites) (hphase : c.phase = .pendingResponse)
    (hcommand : c.lastCommand = some (queryCommand env text)) (hflags : c.clientFlag = some clientFlag)
    (h41 : hasFlag clientFlag .clientProtocol41) :
    (∃ i response, interceptIfEnabled env c [queryPacket seq clientFlag text] drawn counter = some i ∧
        i.response = some response) ↔ StartsAsWrite env text ∧ ¬ (env.overflowChecks ∧ seq = 255) := by
  obtain ⟨⟨diff, drawn'⟩, hdiff⟩ := getDiff_total env c.diff drawn (queryCommand env text).ast
  have hflags' : c.handshakeResponse.map (·.clientFlag) = some clientFlag := hflags
  have hseq : (queryPacket seq clientFlag text).header.seq = seq := rfl
  rw [← @isWriteText_query env clientFlag seq text,
    ← @getWriteResponse_isSome env clientFlag counter seq (queryCommand env text) h41]
  by_cases hwrite : isWriteText env (queryCommand env text) (queryPacket seq clientFlag text)
  · cases hresponse : getWriteResponse env counter (queryCommand env text) seq clientFlag <;>
      simp [interceptIfEnabled, hin, interceptCommand, hphase, isWriteQuery, hcommand, hdiff, hwrite, Connection.clientFlag,
        hflags', hseq, hresponse]
  · simp [interceptIfEnabled, hin, interceptCommand, hphase, isWriteQuery, hcommand, hdiff, hwrite]

/-- A turn of the client loop on a frame after which a response is pending: only an answer keeps it. -/
theorem clientTurn_pending {r : SocketRead} {drawn : Nat} {counter : UInt8} {c' : Connection} {packets : List Packet}
    (hframe : processIncomingFrame env r.buf x.connection r.readBytes = some (c', packets))
    (hphase : c'.phase = .pendingResponse) {x' : Exchange} {output : Output} {q : Nat × UInt8}
    (h : clientTurn env x r drawn counter = some (x', output, q)) (hclient : x'.listening = .client) :
    ∃ i, interceptIfEnabled env c' packets drawn counter = some i ∧ i.response = some output.toClient := by
  simp only [clientTurn, hframe, Option.bind_eq_bind, Option.bind_some, Option.bind_eq_some_iff] at h
  obtain ⟨i, hi, h⟩ := h
  refine ⟨i, hi, ?_⟩
  cases interceptIfEnabled_intercepts hi with
  | idle _ | passed _ _ _ _ =>
    cases h
    rw [afterClientFrame, if_pos (by simp only [hphase]; decide)] at hclient
    cases hclient
  | answered _ _ _ _ _ _ _ =>
    cases h
    rfl

/-- The connection once it has read a COM_QUERY. -/
def Connection.queried (env : Env) (c : Connection) (text : String) : Connection :=
  { c.withResidual [] with
    phase := .pendingResponse, lastCommand := some (queryCommand env text), queryResponse := .default }

/-- A read that completes a command, and no more. -/
theorem processIncomingFrame_query {c : Connection} {r : SocketRead} {seq : UInt8} {text : String}
    (h : AwaitsCommand c clientFlag) (hnext : frames.next (c.partialBytes.getD [] ++ r.chunk) =
      some (({ size := (queryPayload clientFlag text).length, seq }, queryPayload clientFlag text), [])) :
    processIncomingFrame env r.buf c r.readBytes = some (c.queried env text, [queryPacket seq clientFlag text]) := by
  have hpacket : Frame.toPacket c.phase ({ size := (queryPayload clientFlag text).length, seq },
      queryPayload clientFlag text) = some (queryPacket seq clientFlag text) := by
    simp [Frame.toPacket, queryPacket, queryPayload, getPacketType, h.phase]
  rw [processIncomingFrame, makePackets_eq, frames.split_of_some hnext]
  simp [hpacket, InOrder, run_singleton, consumePacket_query (h.withResidual []), Connection.queried]

/-- Where the client loop goes on when it has read a COM_QUERY. -/
def afterQuery (x : Exchange) (turn : Turn) (packet : Packet) (i : Intercepted) : Exchange × Output × Shared :=
  match i.response with
  | some response =>
    ({ x with connection := i.connection }, { toClient := response, toServer := [], records := [] },
      { turn.shared with diff := i.connection.diff, drawn := i.drawn, globalCounter := i.globalCounter })
  | none =>
    ({ connection := i.connection, listening := .server, kafkaLogBuffer := [] },
      { toClient := [], toServer := if sendCommandToServer i.connection then packet.toBytes else [], records := [] },
      { turn.shared with diff := i.connection.diff, drawn := i.drawn, globalCounter := i.globalCounter })

/-- **The turn that completes a COM_QUERY** does what `intercept_command` decides. -/
theorem exchangeStep_query {seq : UInt8} {text : String} (h : AwaitsCommand x.connection clientFlag)
    (hlisten : x.listening = .client) (hread : turn.read.chunk ≠ [])
    (hnext : frames.next (x.connection.partialBytes.getD [] ++ turn.read.chunk) =
      some (({ size := (queryPayload clientFlag text).length, seq }, queryPayload clientFlag text), [])) :
    exchangeStep env x turn = (interceptIfEnabled env ((x.connection.sharing turn.shared).queried env text)
      [queryPacket seq clientFlag text] turn.shared.drawn turn.shared.globalCounter).map
        (afterQuery x turn (queryPacket seq clientFlag text)) := by
  have hframe := @processIncomingFrame_query env clientFlag (x.connection.sharing turn.shared) turn.read seq text
    (h.sharing turn.shared) hnext
  rw [exchangeStep_client h.phase hlisten hread, clientTurn]
  simp only [hframe, Option.bind_eq_bind, Option.bind_some]
  cases hi : interceptIfEnabled env ((x.connection.sharing turn.shared).queried env text)
      [queryPacket seq clientFlag text] turn.shared.drawn turn.shared.globalCounter with
  | none => rfl
  | some i =>
    have hpending : i.response = none → i.connection.phase = .pendingResponse := by
      intro hnone
      cases interceptIfEnabled_intercepts hi with
      | idle _ | passed _ _ _ _ => rfl
      | answered _ _ _ _ _ _ _ => cases hnone
    cases hresponse : i.response with
    | some response => simp [afterQuery, hresponse]
    | none =>
      have hleave : afterClientFrame { x with connection := x.connection.sharing turn.shared } i.connection =
          { connection := i.connection, listening := .server, kafkaLogBuffer := [] } := by
        rw [afterClientFrame, if_pos (by rw [hpending hresponse]; decide)]
      simp [afterQuery, hresponse, hleave, generateOutgoingFrame]

/-- **The last turn** of a command that fits a packet. -/
theorem answeredLocally_last {seq : UInt8} {text : String} (hin : env.interceptWrites)
    (h : AwaitsCommand x.connection clientFlag) (hlisten : x.listening = .client) (hread : turn.read.chunk ≠ [])
    (hnext : frames.next (x.connection.partialBytes.getD [] ++ turn.read.chunk) =
      some (({ size := (queryPayload clientFlag text).length, seq }, queryPayload clientFlag text), [])) :
    AnsweredLocally env x [turn] ↔ StartsAsWrite env text ∧ ¬ (env.overflowChecks ∧ seq = 255) := by
  have hc := (h.sharing turn.shared).withResidual []
  have hframe := @processIncomingFrame_query env clientFlag (x.connection.sharing turn.shared) turn.read seq text
    (h.sharing turn.shared) hnext
  have hresponse := @interceptIfEnabled_query env clientFlag ((x.connection.sharing turn.shared).queried env text) seq text
    turn.shared.drawn turn.shared.globalCounter hin rfl rfl hc.flags h.protocol41
  rw [← hresponse]
  constructor
  · rintro ⟨x', output, shared, hstep, hclient, -⟩
    obtain ⟨q, hturn⟩ := exchangeStep_clientTurn h.phase hlisten hread hstep
    obtain ⟨i, hi, hsome⟩ := clientTurn_pending hframe rfl hturn hclient
    exact ⟨i, _, hi, hsome⟩
  · rintro ⟨i, response, hi, hsome⟩
    have hstep := @exchangeStep_query env x turn clientFlag seq text h hlisten hread hnext
    rw [hi, Option.map_some, afterQuery, hsome] at hstep
    exact ⟨_, _, _, hstep, hlisten, rfl, by rw [if_pos rfl]; exact interceptIfEnabled_answer hi hsome⟩

/-- The first packet of a response to a query is no row. -/
theorem ResponseAccumulator.hydrates_default {c : Connection} {p : Packet} (h : AwaitsQuery c clientFlag) :
    hydrates env c consumeFuel .default p = false := by
  have hnext : ∀ (state : State) (fuel : Nat), state = .metaExchange ∨ state = .columnCount → Ordinary p →
      hydrates env c (fuel + 1) { ResponseAccumulator.default with state } p = false := by
    intro state fuel hstate hp
    rw [hydrates, consumeStep_ordinary h hp, processResultSet]
    rcases hstate with rfl | rfl
    · simp [IntLenEnc.fromBytes]
    · cases IntLenEnc.fromBytes p.body none <;> simp [h.flags]
  by_cases hp : Ordinary p
  · obtain ⟨command, hc, hquery⟩ := h.command
    rw [consumeFuel, hydrates, consumeStep_ordinary h hp]
    by_cases hopt : hasFlag clientFlag .clientOptionalResultSetMetadata
    · simp [processResultSet, ResponseAccumulator.default, hc, hquery, h.flags, hopt]
      exact hnext .metaExchange 14 (.inl rfl) hp
    · simp [processResultSet, ResponseAccumulator.default, hc, hquery, h.flags, hopt]
      exact hnext .columnCount 14 (.inr rfl) hp
  · rw [consumeFuel, hydrates, consumeStep_completes h hp]
    cases ResponseAccumulator.default.completeOnErrorOrOk p c <;> rfl

theorem consumePacket_second {c : Connection} {p : Packet} {r : Connection × Option Packet}
    (h : AwaitsQuery c clientFlag) (hfresh : c.queryResponse = .default) (hskip : p.skip = false)
    (hr : consumePacket env c p = some r) : r.2.isSome := by
  obtain ⟨q, hq, -⟩ := consumePacket_body (e := ⟨c, p, r.1, r.2⟩) hr hskip fun hrow => by
    have := hrow.2.2
    rw [hfresh, ResponseAccumulator.hydrates_default h] at this
    cases this
  exact Option.isSome_of_eq_some hq

/-- With two packets or more in a read, none is answered. -/
theorem interceptIfEnabled_several {c : Connection} {packets : List Packet} {drawn : Nat} {counter : UInt8}
    (hseveral : 2 ≤ packets.length) :
    interceptIfEnabled env c packets drawn counter = some ⟨c, drawn, counter, none⟩ := by
  match packets, hseveral with
  | _ :: _ :: _, _ => unfold interceptIfEnabled interceptCommand; split_ifs <;> rfl

/-- A read that completes the first packet of a command: those behind it are consumed as a response. -/
theorem processIncomingFrame_first {c c' : Connection} {r : SocketRead} {f : Frame} {rest : Bytes}
    {packets : List Packet} (h : AwaitsCommand c clientFlag)
    (hnext : frames.next (c.partialBytes.getD [] ++ r.chunk) = some (f, rest)) (hhead : f.2.head? = some 0x03)
    (hframe : processIncomingFrame env r.buf c r.readBytes = some (c', packets)) :
    ∃ c₁ p ps outs, (AwaitsQuery c₁ clientFlag ∧ c₁.queryResponse = .default ∧ c₁.diff = c.diff ∧
      f.toPacket c.phase = some p ∧
      ∃ command next, CommandAccumulator.consume env p c = some (command, next) ∧ c₁.lastCommand = some command) ∧
      (frames.split rest).1.mapM (Frame.toPacket c.phase) = some ps ∧
      run (consumePacket env) c₁ ps = some (c', outs) ∧ packets = p :: outs.filterMap id := by
  obtain ⟨c₀, ps₀, outs₀, hmake, hrun, rfl⟩ := processIncomingFrame_some hframe
  obtain ⟨rfl, hall⟩ := makePackets_some hmake
  rw [frames.split_of_some hnext] at hall hrun
  obtain ⟨p, ps, hp, hps, rfl⟩ := mapM_toPacket_cons hall
  obtain ⟨hbody, hskip⟩ := Frame.toPacket_fresh hp
  obtain ⟨c₁, out₁, outs, hfirst, hrun₁, rfl⟩ := run_cons_some hrun
  have hc := h.withResidual (frames.split rest).2
  obtain ⟨hawaits, hdefault, rfl, command, next, hcommand, hlast⟩ :=
    consumePacket_comQuery hc.phase hc.flags (hbody ▸ hhead) hskip hfirst
  have hdiff := (consumePacket_frame hfirst).2
  rw [Connection.withResidual_eq] at hcommand hdiff
  exact ⟨c₁, p, ps, outs, ⟨hawaits, hdefault, hdiff, hp, command, next, hcommand, hlast⟩, hps, hrun₁, rfl⟩

/-- A turn that completes the first packet of a command that does not fit it. -/
theorem not_answeredLocally {turns : List Turn} {f : Frame} {rest : Bytes} {seq : UInt8} {payload : Bytes}
    (h : AwaitsCommand x.connection clientFlag) (hlisten : x.listening = .client)
    (hread : turn.read.chunk ≠ []) (hreads : ∀ t ∈ turns, t.read.chunk ≠ [])
    (hnext : frames.next (x.connection.partialBytes.getD [] ++ turn.read.chunk) = some (f, rest))
    (hhead : f.2.head? = some 0x03) (hshort : rest.length < 0x1000003)
    (hrest : rest ++ turns.flatMap (·.read.chunk) = (payloadFrames seq payload).flatMap Frame.toBytes) :
    ¬ AnsweredLocally env x (turn :: turns) := by
  rintro ⟨x', output, shared, hstep, hclient, -, hout⟩
  obtain ⟨q, hturn⟩ := exchangeStep_clientTurn h.phase hlisten hread hstep
  obtain ⟨⟨c', packets⟩, hframe, -⟩ := Option.bind_eq_some_iff.1 hturn
  obtain ⟨c₁, p, ps, outs, ⟨hawaits, hdefault, -⟩, hps, hrun, rfl⟩ :=
    processIncomingFrame_first (h.sharing turn.shared) hnext hhead hframe
  by_cases hlast : turns = []
  · -- the next packet is in this read too
    obtain ⟨tail, hstream, hnext₂, -⟩ := payloadFrames_stream seq payload
    rw [if_pos hlast] at hout
    rw [hlast, List.flatMap_nil, List.append_nil, hstream] at hrest
    rw [hrest, frames.split_of_some hnext₂] at hps
    obtain ⟨p₂, ps, hp₂, -, rfl⟩ := mapM_toPacket_cons hps
    obtain ⟨c₂, out₂, outs₂, hsecond, -, rfl⟩ := run_cons_some hrun
    have hsome := consumePacket_second hawaits hdefault (Frame.toPacket_fresh hp₂).2 hsecond
    obtain ⟨p₂', rfl⟩ := Option.isSome_iff_exists.1 hsome
    rw [clientTurn, hframe] at hturn
    simp only [Option.bind_eq_bind, Option.bind_some] at hturn
    rw [interceptIfEnabled_several (by simp)] at hturn
    cases hturn
    exact hout.1 rfl
  · -- only this one: an answer comes too early
    have hnone := next_of_short (fun hnil => hlast ((chunks_eq_nil hreads).1 hnil)) hshort hrest
    rw [if_neg hlast] at hout
    rw [frames.split_of_none hnone] at hps
    cases hps
    cases hrun
    obtain ⟨i, hi, hresponse⟩ := clientTurn_pending hframe hawaits.phase hturn hclient
    exact (interceptIfEnabled_answer hi hresponse).1 hout.1

/-- What a read leaves behind the frame it completes was read with it. -/
theorem rest_length_le {held chunk rest : Bytes} {f : Frame} (hheld : frames.next held = none)
    (hnext : frames.next (held ++ chunk) = some (f, rest)) : rest.length ≤ chunk.length := by
  obtain ⟨hbytes, hlen, hsize⟩ := nextFrame_eq_some hnext
  rcases List.append_eq_append_iff.1 hbytes with ⟨a, _, rfl⟩ | ⟨b, rfl, _⟩
  · simp only [List.length_append]; omega
  · have hsome : frames.next (f.toBytes ++ b) = some (f, b) := nextFrame_toBytes hlen hsize b
    rw [hsome] at hheld
    cases hheld

/-- A turn with nothing to answer leaves it to the turns that follow. -/
theorem answeredLocally_cons {turns : List Turn} {x' : Exchange} {shared : Shared} (hmore : turns ≠ [])
    (hstep : exchangeStep env x turn = some (x', { toClient := [], toServer := [], records := [] }, shared))
    (hlisten : x'.listening = .client) : AnsweredLocally env x (turn :: turns) ↔ AnsweredLocally env x' turns := by
  rw [AnsweredLocally]
  constructor
  · rintro ⟨x₁, output, shared₁, hstep₁, -, -, hout⟩
    rw [hstep] at hstep₁
    cases hstep₁
    rw [if_neg hmore] at hout
    exact hout.2
  · intro hrest
    exact ⟨x', _, shared, hstep, hlisten, rfl, by rw [if_neg hmore]; exact ⟨rfl, hrest⟩⟩

/-- Along the reads: `partial_bytes` holds what is there of the first packet. -/
theorem answeredLocally_iff {seq : UInt8} {text : String} (hin : env.interceptWrites) : ∀ {turns : List Turn} {x : Exchange},
    AwaitsCommand x.connection clientFlag → x.listening = .client →
    (∀ t ∈ turns, t.read.chunk ≠ [] ∧ t.read.buf.length = 4096) →
    frames.next (x.connection.partialBytes.getD []) = none →
    x.connection.partialBytes.getD [] ++ turns.flatMap (·.read.chunk) =
      (payloadFrames seq (queryPayload clientFlag text)).flatMap Frame.toBytes →
    (AnsweredLocally env x turns ↔
      (queryPayload clientFlag text).length < 0xffffff ∧ StartsAsWrite env text ∧ ¬ (env.overflowChecks ∧ seq = 255)) := by
  obtain ⟨rest, hstream, hnext, hsmall, hfull⟩ := payloadFrames_stream seq (queryPayload clientFlag text)
  intro turns
  induction turns with
  | nil =>
    intro x _ _ _ hheld hbytes
    rw [List.flatMap_nil, List.append_nil] at hbytes
    rw [hbytes, hstream, hnext] at hheld
    cases hheld
  | cons turn turns ih =>
    intro x h hlisten hreads hheld hbytes
    obtain ⟨hread, hbuf⟩ := hreads turn (by simp)
    have hreads' : ∀ t ∈ turns, t.read.chunk ≠ [] ∧ t.read.buf.length = 4096 := fun t ht =>
      hreads t (List.mem_cons_of_mem _ ht)
    rw [List.flatMap_cons, ← List.append_assoc] at hbytes
    cases hn : frames.next (x.connection.partialBytes.getD [] ++ turn.read.chunk) with
    | none =>
      obtain ⟨x', shared, hstep, hlisten', h', hheld'⟩ := @exchangeStep_incomplete env x turn clientFlag h hlisten hread hn
      have hmore : turns ≠ [] := by
        rintro rfl
        rw [List.flatMap_nil, List.append_nil] at hbytes
        rw [hbytes, hstream, hnext] at hn
        cases hn
      rw [← hheld'] at hn hbytes
      rw [answeredLocally_cons hmore hstep hlisten']
      exact ih h' hlisten' hreads' hn hbytes
    | some r =>
      obtain ⟨f', rest'⟩ := r
      have hboth := frames.stable (turns.flatMap (·.read.chunk)) hn
      rw [hbytes, hstream, hnext] at hboth
      obtain ⟨rfl, hrest⟩ := Prod.mk.inj (Option.some.inj hboth)
      by_cases hlen : (queryPayload clientFlag text).length < 0xffffff
      · rw [hsmall.2 hlen] at hrest
        obtain ⟨rfl, hturns⟩ := List.append_eq_nil_iff.1 hrest.symm
        obtain rfl : turns = [] := (chunks_eq_nil fun t ht => (hreads' t ht).1).1 hturns
        rw [firstFrame, List.take_of_length_le (by omega)] at hn
        rw [answeredLocally_last hin h hlisten hread hn]
        exact ⟨fun hw => ⟨hlen, hw⟩, fun hw => hw.2⟩
      · obtain ⟨seq', payload', htail⟩ := hfull fun hnil => hlen (hsmall.1 hnil)
        have hhead : (firstFrame seq (queryPayload clientFlag text)).2.head? = some 0x03 := rfl
        have hshort := rest_length_le hheld hn
        have hchunk : turn.read.chunk.length ≤ 4096 := by
          rw [← hbuf]; simp [SocketRead.chunk]
        refine iff_of_false ?_ fun hw => hlen hw.1
        exact not_answeredLocally h hlisten hread (fun t ht => (hreads' t ht).1) hn hhead (by omega)
          (hrest.symm.trans htail)

end

/-- **Which commands are answered locally.** A connection waits for a command, and a COM_QUERY arrives in
reads of any sizes. It is answered and kept from the server exactly if it fits a packet, its text in lower
case starts with "insert", "update" or "delete", and the number of the answer does not overflow. -/
theorem answered_iff {env : Env} (hin : env.interceptWrites) {x : Exchange} (hreach : Reachable env (x.connection, []))
    (hphase : x.connection.phase = .command) (hlisten : x.listening = .client)
    (hnone : x.connection.partialBytes = none) {clientFlag : UInt32} (hflag : x.connection.clientFlag = some clientFlag)
    (seq : UInt8) (text : String) {turns : List Turn}
    (hreads : ∀ turn ∈ turns, turn.read.chunk ≠ [] ∧ turn.read.buf.length = 4096)
    (hbytes : turns.flatMap (·.read.chunk) = (payloadFrames seq (queryPayload clientFlag text)).flatMap Frame.toBytes) :
    AnsweredLocally env x turns ↔
      (queryPayload clientFlag text).length < 0xffffff ∧ StartsAsWrite env text ∧ ¬ (env.overflowChecks ∧ seq = 255) := by
  obtain ⟨hr, hhr, h41⟩ := hreach.wf.negotiated (by simp [hphase]) (by simp [hphase])
  have hawaits : AwaitsCommand x.connection clientFlag := by
    refine ⟨hphase, hflag, ?_⟩
    rw [Connection.clientFlag, hhr] at hflag
    cases hflag
    exact h41
  refine answeredLocally_iff hin hawaits hlisten hreads ?_ ?_
  · rw [hnone]
    exact frames.next_nil
  · rw [hnone]
    exact hbytes

/-! ## With and without the condition -/

/-- One text is an INSERT behind a comment. -/
def commentEnv : Env := { sampleEnv with
  parseSql := fun text => if text = "/* 1 */ insert into t values (1)" then some [.insert] else none }

/-- A turn on these bytes, in the buffer of `exchange`. -/
def bufferTurn (bytes : Bytes) : Turn :=
  ⟨⟨∅, none, 0, 100⟩, ⟨bytes ++ List.replicate (4096 - bytes.length) 0, bytes.length, by simp⟩⟩

@[simp] theorem bufferTurn_chunk (bytes : Bytes) : (bufferTurn bytes).read.chunk = bytes := by
  simp [bufferTurn, SocketRead.chunk]

theorem bufferTurn_length {bytes : Bytes} (h : bytes.length ≤ 4096) : (bufferTurn bytes).read.buf.length = 4096 := by
  simp only [bufferTurn, List.length_append, List.length_replicate]
  omega

theorem run_reachable {env : Env} {turns : List Turn} {x x' : Exchange} {outs : List (Output × Shared)}
    (hx : Reachable env (x.connection, [])) (h : run (exchangeStep env) x turns = some (x', outs)) :
    Reachable env (x'.connection, []) := by
  refine run_invariant (I := fun y => Reachable env (y.connection, [])) ?_ hx h
  rintro y turn - y' ⟨output, shared⟩ ⟨server, client, diff, replay, kafka, hy⟩ hstep
  exact ⟨server, client, diff, replay, kafka, hy.trans (exchangeStep_steps hstep)⟩

theorem start_reachable (env : Env) (server client : SwitchableConnection) (diff : StateDiffLog) (replay : ReplayLog)
    (kafka : Option String) :
    Reachable env ((Exchange.start (.new server client diff replay kafka)).connection, []) :=
  ⟨server, client, diff, replay, kafka, .refl⟩

/-- "DELETE FROM t", in two reads. -/
theorem answered_iff_delete : ∃ x, Reachable sampleEnv (x.connection, []) ∧
    AnsweredLocally sampleEnv x [bufferTurn [14, 0, 0, 0, 0x03], bufferTurn (asBytes "DELETE FROM t")] := by
  have hstart : ∃ x outs, run (exchangeStep sampleEnv) (.start (.new .plain .plain ∅ none none))
      [sampleTurn sampleGreeting, sampleTurn sampleAnswer, sampleTurn sampleOk] = some (x, outs) ∧
      x.connection.phase = .command ∧ x.listening = .client ∧ x.connection.partialBytes = none ∧
      x.connection.clientFlag = some 0x200 := ⟨_, _, rfl, rfl, rfl, rfl, rfl⟩
  obtain ⟨x, outs, hrun, hphase, hlisten, hnone, hflag⟩ := hstart
  have hreach := run_reachable (start_reachable sampleEnv .plain .plain ∅ none none) hrun
  refine ⟨x, hreach, (answered_iff (by decide) hreach hphase hlisten hnone hflag 0 "DELETE FROM t" ?_ ?_).2 ?_⟩
  · intro turn hturn
    simp only [List.mem_cons, List.not_mem_nil, or_false] at hturn
    rcases hturn with rfl | rfl <;> exact ⟨by rw [bufferTurn_chunk]; decide, bufferTurn_length (by decide)⟩
  · rw [payloadFrames, if_pos (by decide)]
    simp only [List.flatMap_cons, List.flatMap_nil, bufferTurn_chunk]
    rfl
  · exact ⟨by decide, ⟨"delete", by decide, by decide⟩, by decide⟩

/-- The text is parsed as an INSERT, and goes to the server. -/
theorem commented_insert_forwarded : ∃ x, Reachable commentEnv (x.connection, []) ∧ x.connection.phase = .command ∧
    x.listening = .client ∧ commentEnv.parseSql "/* 1 */ insert into t values (1)" = some [.insert] ∧
    (∃ x' output shared, exchangeStep commentEnv x (sampleTurn
      ([33, 0, 0, 0, 0x03] ++ asBytes "/* 1 */ insert into t values (1)")) = some (x', output, shared) ∧
      output.toServer = [33, 0, 0, 0, 0x03] ++ asBytes "/* 1 */ insert into t values (1)") ∧
    ¬ AnsweredLocally commentEnv x [sampleTurn ([33, 0, 0, 0, 0x03] ++ asBytes "/* 1 */ insert into t values (1)")] := by
  have hstart : ∃ x outs x' output shared, run (exchangeStep commentEnv) (.start (.new .plain .plain ∅ none none))
      [sampleTurn sampleGreeting, sampleTurn sampleAnswer, sampleTurn sampleOk] = some (x, outs) ∧
      x.connection.phase = .command ∧ x.listening = .client ∧
      exchangeStep commentEnv x (sampleTurn ([33, 0, 0, 0, 0x03] ++ asBytes "/* 1 */ insert into t values (1)")) =
        some (x', output, shared) ∧
      output.toServer = [33, 0, 0, 0, 0x03] ++ asBytes "/* 1 */ insert into t values (1)" ∧
      x'.listening = .server := ⟨_, _, _, _, _, rfl, rfl, rfl, rfl, rfl, rfl⟩
  obtain ⟨x, outs, x', output, shared, hrun, hphase, hlisten, hstep, hserver, hleft⟩ := hstart
  have hreach := run_reachable (start_reachable commentEnv .plain .plain ∅ none none) hrun
  refine ⟨x, hreach, hphase, hlisten, rfl, ⟨x', output, shared, hstep, hserver⟩, ?_⟩
  rintro ⟨x₁, output₁, shared₁, hstep₁, hclient, -⟩
  rw [hstep] at hstep₁
  cases hstep₁
  rw [hleft] at hclient
  cases hclient

end MocksySql
