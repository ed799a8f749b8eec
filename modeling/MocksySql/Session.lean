import MocksySql.CommandParsing
import MocksySql.Dialogue
import MocksySql.HandshakeParsing
import MocksySql.PreparedStatements
import MocksySql.ResultSetRuns
/-!
# Sessions

A session as the protocol has it, from the greeting on: the client logs in and sends commands, each answered by an OK
packet, an ERR packet or, for a COM_QUERY, a text result set. A COM_STMT_PREPARE is answered with the definitions of a
statement, a COM_STMT_EXECUTE with an OK packet or a binary result set, COM_STMT_CLOSE not at all.

* `Session.dialogue` — the connection consumes a session, packet by packet, as what it is.
* `process_serves_session` — a relay takes any number of clients through their sessions, in any reads and any order.

Left out are the responses that are not consumed exactly: several results in one response, EOF packets as they were, a
statement without parameters, an ERR packet to a prepared statement, and binary rows that are taken for OK packets.
-/

namespace MocksySql
open FieldDecode PartialRun

/-! ## The grammar -/

/-- A payload that fits a packet. -/
def Small (body : Bytes) : Prop := body.length < 0xffffff

def frameOf (seq : UInt8) (body : Bytes) : Frame := (⟨body.length, seq⟩, body)

def Packet.frame (p : Packet) : Frame := (p.header, p.body)

/-- A packet of a response, as the server sends it. -/
structure Packet.Responds (p : Packet) : Prop where
  typed : Typed p
  size : p.header.size = p.body.length
  small : Small p.body
  kept : p.skip = false

/-- What a server answers a command with, under these capability flags. -/
inductive RespondsWith (clientFlag : UInt32) : MySqlCommand → List Packet → Prop
  | nothing : RespondsWith clientFlag .comStmtClose []
  | ok {code : MySqlCommand} {p : Packet} {affectedRows lastInsertId : UInt64} {statusFlags warnings : UInt16}
      {info : Bytes} : code ∉ [.comStmtPrepare, .comStmtExecute, .comStmtClose] →
      p.body = okBody affectedRows lastInsertId statusFlags warnings info → RespondsWith clientFlag code [p]
  | error {code : MySqlCommand} {p : Packet} {c0 c1 : UInt8} {marker state message : String} :
      code ∉ [.comStmtPrepare, .comStmtExecute, .comStmtClose] → (asBytes marker).length = 1 →
      (asBytes state).length = 5 → p.body = [0xff, c0, c1] ++ (asBytes marker ++ (asBytes state ++ asBytes message)) →
      RespondsWith clientFlag code [p]
  | resultSet {columns : List ColumnDefinition} {count : Packet} {definitions rows : List Packet} {terminator : Packet} :
      hasFlag clientFlag .clientDeprecateEof → hasFlag clientFlag .clientOptionalResultSetMetadata = false →
      ResultSetPackets columns count definitions rows → EndsResultSet terminator →
      RespondsWith clientFlag .comQuery (count :: definitions ++ rows ++ [terminator])
  | prepared {params columns : List ColumnDefinition} {ps : List Packet} : hasFlag clientFlag .clientDeprecateEof →
      hasFlag clientFlag .clientOptionalResultSetMetadata = false → params ≠ [] →
      PrepareResponse clientFlag (some (params, columns)) ps → RespondsWith clientFlag .comStmtPrepare ps
  | executed {response : ExecuteResponse} : response.Sent clientFlag → response.Fits clientFlag →
      RespondsWith clientFlag .comStmtExecute response.packets

/-- A command and its response. -/
structure Round where
  seq : UInt8
  code : UInt8
  arg : Bytes
  response : List Packet

namespace Round

def asked (clientFlag : UInt32) (r : Round) : Transmission := ⟨.client, [frameOf r.seq (commandBody clientFlag r.code r.arg)]⟩

def answered (r : Round) : List Transmission :=
  if r.response = [] then [] else [⟨.server, r.response.map Packet.frame⟩]

def transmissions (clientFlag : UInt32) (r : Round) : List Transmission := r.asked clientFlag :: r.answered

structure WellFormed (clientFlag : UInt32) (r : Round) : Prop where
  command : ∃ code, MySqlCommand.fromByte r.code = some code ∧ RespondsWith clientFlag code r.response
  /-- The argument is text, or the command's is not looked at. -/
  text : r.code = 0x17 ∨ (fromUtf8 r.arg).isSome
  small : Small (commandBody clientFlag r.code r.arg)
  responds : ∀ p ∈ r.response, p.Responds
  inOrder : InOrder (r.response.map (·.header))

end Round

structure Session where
  greetingSeq : UInt8
  greeting : HandshakeV10
  answerSeq : UInt8
  answer : HandshakeResponse41
  auth : AuthScript
  rounds : List Round

namespace Session

def opening (s : Session) : List Transmission :=
  ⟨.server, [frameOf s.greetingSeq s.greeting.encode]⟩ :: ⟨.client, [frameOf s.answerSeq s.answer.encode]⟩ ::
    s.auth.messages.map fun m => ⟨m.sender, [m.frame]⟩

def transmissions (s : Session) : List Transmission :=
  s.opening ++ s.rounds.flatMap (Round.transmissions s.answer.clientFlag)

structure WellFormed (s : Session) : Prop where
  greeting : Small s.greeting.encode
  answer : Small s.answer.encode
  names : ∀ name ∈ s.answer.sentNames, (fromUtf8 name).isSome
  authResponse : hasFlag s.answer.clientFlag .clientPluginAuthLenEncClientData ∨ (fromUtf8 s.answer.authResponse).isSome
  auth : s.auth.WellFormed ∧ s.auth.Supported
  accepted : IsOk s.auth.final
  rounds : ∀ r ∈ s.rounds, r.WellFormed s.answer.clientFlag

end Session

/-! ## Single packets -/

section
variable {env : Env} {c c' : Connection}

theorem frameOf_wellFormed {seq : UInt8} {body : Bytes} (h : Small body) (hne : body ≠ []) : (frameOf seq body).WellFormed :=
  ⟨rfl, Nat.lt_trans h (by decide), hne⟩

/-- A transmission of one packet. -/
theorem accepts_one {side : Side} {f : Frame} {p : Packet} {out : Option Packet} (hf : f.WellFormed)
    (hspeaks : side = c.phase.speaker) (hplain : c.phase ≠ .tlsExchange) (hp : f.toPacket c.phase = some p)
    (hstep : consumePacket env c p = some (c', out)) (hyields : nextListening side c'.phase = c'.phase.speaker) :
    Accepts env c ⟨side, [f]⟩ c' :=
  ⟨hspeaks, hplain, by simpa using hf, by simp [InOrder], .last hp hstep, hyields⟩

theorem frameOf_toPacket {seq : UInt8} {body : Bytes} (phase : Phase) (hne : body ≠ []) :
    ∃ p, (frameOf seq body).toPacket phase = some p ∧ p.body = body ∧ p.skip = false := by
  obtain ⟨p, hp⟩ := Option.isSome_iff_exists.1 ((Frame.toPacket_isSome phase).2 (show (frameOf seq body).2 ≠ [] from hne))
  exact ⟨p, hp, (Frame.toPacket_fresh hp).1, (Frame.toPacket_fresh hp).2⟩

/-! ## The opening -/

theorem HandshakeV10.encode_ne_nil (sent : HandshakeV10) : sent.encode ≠ [] := by
  simp [encode, toLe]

theorem HandshakeResponse41.encode_ne_nil (sent : HandshakeResponse41) : sent.encode ≠ [] := by
  simp [encode, encodePrelude, toLe]

theorem HandshakeResponse41.kept_clientFlag {sent : HandshakeResponse41} {acc : HandshakeResponseAccumulator}
    (h : sent.kept = some acc) : acc.clientFlag = sent.clientFlag := by
  simp only [kept, Option.bind_eq_some_iff, Option.some.injEq] at h
  obtain ⟨_, _, _, _, _, _, _, _, rfl⟩ := h
  rfl

theorem accepts_greeting (sent : HandshakeV10) {seq : UInt8} (hsmall : Small sent.encode) (hphase : c.phase = .handshake) :
    Accepts env c ⟨.server, [frameOf seq sent.encode]⟩
      { c with phase := .handshakeResponse, handshake := some sent.accumulated } := by
  obtain ⟨p, hp, hbody, hskip⟩ := @frameOf_toPacket seq _ c.phase sent.encode_ne_nil
  have hconsume : HandshakeAccumulator.consume p = some (sent.accumulated, .handshakeResponse) := by
    rw [HandshakeAccumulator.consume, hbody, run'_eq_some.2 ⟨_, sent.read_encode⟩]
    rfl
  have hstep : consumePacket env c p =
      some ({ c with phase := .handshakeResponse, handshake := some sent.accumulated }, some p) := by
    rw [consumePacket, accumulate, hphase]
    simp [hconsume, hskip, syncConnectionState, AccumulationDelta.empty]
  exact accepts_one (frameOf_wellFormed hsmall sent.encode_ne_nil) (by rw [hphase]; rfl) (by simp [hphase]) hp hstep rfl

theorem accepts_answer {sent : HandshakeResponse41} {seq : UInt8} (hsmall : Small sent.encode)
    (hkept : sent.kept.isSome) (hphase : c.phase = .handshakeResponse) :
    ∃ acc, acc.clientFlag = sent.clientFlag ∧ Accepts env c ⟨.client, [frameOf seq sent.encode]⟩
      { c with phase := .authInit, handshakeResponse := some acc } := by
  obtain ⟨acc, hacc⟩ := Option.isSome_iff_exists.1 hkept
  obtain ⟨p, hp, hbody, hskip⟩ := @frameOf_toPacket seq _ c.phase sent.encode_ne_nil
  have hstep : consumePacket env c p = some ({ c with phase := .authInit, handshakeResponse := some acc }, some p) := by
    rw [consumePacket, accumulate, hphase]
    simp [sent.consume_encode hbody c, hacc, hskip, syncConnectionState, AccumulationDelta.empty]
  exact ⟨acc, HandshakeResponse41.kept_clientFlag hacc,
    accepts_one (frameOf_wellFormed hsmall sent.encode_ne_nil) (by rw [hphase]; rfl) (by simp [hphase]) hp hstep rfl⟩

/-- A message of the authentication, where the automaton takes it. -/
theorem accepts_message {m : Message} {phase' : Phase} (hsize : m.body.length < 256 ^ 3) (hsender : m.sender = c.phase.speaker)
    (hnext : authNext c.phase m = some phase') : Accepts env c ⟨m.sender, [m.frame]⟩ { c with phase := phase' } := by
  have hphase := authNext_authenticating hnext
  obtain ⟨p, hp, hconsume⟩ := Option.bind_eq_some_iff.1 hnext
  have hstep := @consumePacket_auth env c hphase p (Frame.toPacket_fresh hp).2
  rw [hconsume, Option.map_some] at hstep
  have hne : m.body ≠ [] := (Frame.toPacket_isSome c.phase).1 (Option.isSome_of_eq_some hp)
  obtain ⟨hcases, hswitch⟩ := authConsume_cases hphase hconsume
  refine accepts_one ⟨rfl, hsize, hne⟩ hsender hphase.ne.2 hp hstep ?_
  rw [hsender]
  rcases hphase with h | h | h
  · rcases hcases with rfl | rfl | rfl | rfl | rfl <;> rw [h] <;> rfl
  · rw [hswitch h, h]
    rfl
  · rcases hcases with rfl | rfl | rfl | rfl | rfl <;> rw [h] <;> rfl

/-- Transmissions of one packet each, none of them a command. -/
inductive LogsIn (env : Env) : Connection → List Transmission → Connection → Prop
  | nil (c : Connection) : LogsIn env c [] c
  | cons {c c₁ c' : Connection} {side : Side} {f : Frame} {ts : List Transmission} : c.phase ≠ .command →
      Accepts env c ⟨side, [f]⟩ c₁ → LogsIn env c₁ ts c' → LogsIn env c (⟨side, [f]⟩ :: ts) c'

theorem LogsIn.dialogue {ts : List Transmission} (h : LogsIn env c ts c') : Dialogue env c ts c' := by
  induction h with
  | nil c => exact .nil c
  | cons _ ht _ ih => exact .cons ht ih

theorem logsIn_of_play : ∀ {ms : List Message} {c : Connection} {phase' : Phase}, authPlay c.phase ms = some phase' →
    (∀ m ∈ ms, m.body.length < 256 ^ 3) →
    LogsIn env c (ms.map fun m => ⟨m.sender, [m.frame]⟩) { c with phase := phase' }
  | [], c, _, h, _ => by cases h; exact .nil c
  | m :: ms, c, phase', h, hsizes => by
    rw [authPlay] at h
    split_ifs at h with hsender
    obtain ⟨phase₁, hnext, hrest⟩ := Option.bind_eq_some_iff.1 h
    obtain ⟨hsize, hsizes⟩ := List.forall_mem_cons.1 hsizes
    have hphase : c.phase ≠ .command := by
      rcases authNext_authenticating hnext with h | h | h <;> rw [h] <;> decide
    exact .cons hphase (accepts_message hsize hsender hnext)
      (@logsIn_of_play ms { c with phase := phase₁ } _ hrest hsizes)

/-! ## A command -/

theorem Command.fromBytes_some {code : MySqlCommand} {b : UInt8} {arg : Bytes} (hcode : MySqlCommand.fromByte b = some code)
    (htext : b = 0x17 ∨ (fromUtf8 arg).isSome) :
    ∃ command, Command.fromBytes env code (argument b arg) = some command ∧ command.comCode = code := by
  have hsome : (Command.fromBytes env code (argument b arg)).isSome := by
    rcases htext with rfl | htext
    · cases hcode
      rfl
    · obtain ⟨text, htext⟩ := Option.isSome_iff_exists.1 ((argument_utf8_iff hcode).2 htext)
      unfold Command.fromBytes
      split_ifs
      · rfl
      · rw [htext]
        rfl
  obtain ⟨command, hcommand⟩ := Option.isSome_iff_exists.1 hsome
  exact ⟨command, hcommand, Command.fromBytes_comCode hcommand⟩

theorem accepts_command {r : Round} {clientFlag : UInt32} {code : MySqlCommand} (hphase : c.phase = .command)
    (hflag : c.clientFlag = some clientFlag) (hcode : MySqlCommand.fromByte r.code = some code)
    (htext : r.code = 0x17 ∨ (fromUtf8 r.arg).isSome) (hsmall : Small (commandBody clientFlag r.code r.arg)) :
    ∃ command p c', Command.fromBytes env code (argument r.code r.arg) = some command ∧
      (frameOf r.seq (commandBody clientFlag r.code r.arg)).toPacket c.phase = some p ∧
      Accepts env c (r.asked clientFlag) c' ∧
      c'.phase = (if code = .comStmtClose then .command else .pendingResponse) ∧ c'.lastCommand = some command ∧
      c'.queryResponse = .default ∧ c'.clientFlag = c.clientFlag ∧ c'.diff = c.diff := by
  have hne : commandBody clientFlag r.code r.arg ≠ [] := by simp [commandBody]
  obtain ⟨p, hp, hbody, hskip⟩ := @frameOf_toPacket r.seq _ c.phase hne
  obtain ⟨command, hcommand, hcomCode⟩ := @Command.fromBytes_some env code _ r.arg hcode htext
  have hconsume := @consume_commandBody env c clientFlag r.code code r.arg p hflag hcode hbody
  rw [hcommand, Option.map_some, hcomCode] at hconsume
  have hstep : consumePacket env c p = some ({ c with
      phase := if code = .comStmtClose then .command else .pendingResponse
      lastCommand := some command
      queryResponse := .default }, some p) := by
    rw [consumePacket, accumulate, hphase]
    simp [hconsume, hskip, syncConnectionState, AccumulationDelta.empty]
  refine ⟨command, p, _, hcommand, hp, accepts_one (frameOf_wellFormed hsmall hne) (by rw [hphase]; rfl) (by simp [hphase]) hp
    hstep ?_, rfl, rfl, rfl, rfl, rfl⟩
  dsimp only
  split_ifs <;> rfl

/-! ## A response -/

theorem Packet.Responds.toPacket {p : Packet} (h : p.Responds) {phase : Phase} (hphase : phase = .pendingResponse) :
    p.frame.toPacket phase = some p := by
  have htyped : getPacketType p.body .pendingResponse = some p.pType := h.typed
  rw [hphase, Frame.toPacket, frame, htyped, Option.map_some, ← h.kept]

theorem Packet.Responds.wellFormed {p : Packet} (h : p.Responds) : p.frame.WellFormed := by
  refine ⟨h.size.symm, ?_, ?_⟩
  · have hsmall : p.body.length < 0xffffff := h.small
    show p.header.size < 256 ^ 3
    rw [h.size]
    omega
  · exact (Frame.toPacket_isSome .pendingResponse).1 (Option.isSome_of_eq_some (h.toPacket rfl))

/-- A packet that completes a response, whatever the command, as long as it reads back. -/
theorem consume_acknowledged {command : Command} {p : Packet} (hcommand : c.lastCommand = some command)
    (hcode : command.comCode ∉ [.comStmtPrepare, .comStmtExecute, .comStmtClose])
    (hdone : p.pType = .ok ∧ (OkData.fromPacket p c).isSome ∨ p.pType = .error ∧ (ErrorData.fromPacket p c).isSome)
    (self : ResponseAccumulator) : ∃ self', self.consume env p c = some (self', p, .command) := by
  have hcompleted : ∃ self₁, self.completeOnErrorOrOk p c = some self₁ ∧ self₁.state = .complete := by
    unfold ResponseAccumulator.completeOnErrorOrOk
    rcases hdone with ⟨hp, hread⟩ | ⟨hp, hread⟩ <;> obtain ⟨_, hread⟩ := Option.isSome_iff_exists.1 hread <;>
      rw [hp, hread] <;> exact ⟨_, rfl, rfl⟩
  obtain ⟨self₁, hself₁, hstate⟩ := hcompleted
  have hstep : ∃ self', self.consumeStep env p c = some (self', p, .done .command) := by
    unfold ResponseAccumulator.consumeStep
    simp only [hcommand]
    split
    · rename_i hprepare
      simp [hprepare] at hcode
    · exact ⟨self, rfl⟩
    · have hexecute : command.comCode ≠ .comStmtExecute := by
        intro h
        simp [h] at hcode
      simp only [hself₁, Option.bind_eq_bind, Option.bind_some, if_neg hexecute]
      exact ⟨_, by rw [ResponseAccumulator.processResultSet, hstate]⟩
  obtain ⟨self', hself'⟩ := hstep
  exact ⟨self', ResponseAccumulator.consumeLoop_done hself'⟩

/-- While a response is consumed, the capability flags stay. -/
theorem Consumes.clientFlag {fs : List Frame} (h : Consumes env c fs c') (hphase : c.phase = .pendingResponse) :
    c'.clientFlag = c.clientFlag := by
  induction h with
  | last _ hstep =>
    obtain ⟨_, _, _, -, rfl⟩ := consumePacket_pending_cases hphase hstep
    rfl
  | more _ hstep hsame _ ih =>
    rw [ih (hsame.trans hphase)]
    obtain ⟨_, _, _, -, rfl⟩ := consumePacket_pending_cases hphase hstep
    rfl

/-- Packets that leave the connection waiting, in front of the rest of a response. -/
theorem consumes_of_pends {self self' : ResponseAccumulator} {ps : List Packet} {fs : List Frame}
    (hphase : c.phase = .pendingResponse) (hpends : PendsAll env c self ps self') (hps : ∀ p ∈ ps, p.Responds)
    (hrest : Consumes env (c.holding self') fs c') : Consumes env (c.holding self) (ps.map Packet.frame ++ fs) c' := by
  induction hpends with
  | nil => exact hrest
  | cons hp _ ih =>
    obtain ⟨hfirst, hps⟩ := List.forall_mem_cons.1 hps
    obtain ⟨out, hstep⟩ := hp
    exact .more (hfirst.toPacket hphase) hstep rfl (ih hps hrest)

theorem TurnsBack.consumed {self self' : ResponseAccumulator} {ps : List Packet} (hphase : c.phase = .pendingResponse)
    (h : TurnsBack env c self ps self') (hps : ∀ p ∈ ps, p.Responds) :
    ∃ c', Consumes env (c.holding self) (ps.map Packet.frame) c' ∧ c'.phase = .command := by
  obtain ⟨init, last, self₁, p', rfl, hinit, hlast⟩ := h
  obtain ⟨hbefore, hps⟩ := List.forall_mem_append.1 hps
  have hstep := consumePacket_pending (c := c.holding self₁) hphase hlast
  rw [List.map_append]
  exact ⟨_, consumes_of_pends hphase hinit hbefore (.last ((hps last (by simp)).toPacket hphase) hstep), rfl⟩

/-- Nothing but COM_STMT_CLOSE goes unanswered. -/
theorem RespondsWith.eq_nil_iff {clientFlag : UInt32} {code : MySqlCommand} {ps : List Packet}
    (h : RespondsWith clientFlag code ps) : ps = [] ↔ code = .comStmtClose := by
  cases h with
  | nothing => simp
  | ok hcode _ | error hcode _ _ _ =>
    refine iff_of_false (by simp) fun hclose => ?_
    simp [hclose] at hcode
  | resultSet => simp
  | prepared _ _ _ hsent =>
    cases hsent
    simp
  | @executed response => cases response <;> simp [ExecuteResponse.packets]

/-- **A response** is consumed from its first packet to its last. -/
theorem response_consumed {clientFlag : UInt32} {command : Command} {ps : List Packet} (hphase : c.phase = .pendingResponse)
    (hflag : c.clientFlag = some clientFlag) (h41 : hasFlag clientFlag .clientProtocol41)
    (hcommand : c.lastCommand = some command) (hfresh : c.queryResponse = .default) (hdiff : c.diff = ∅)
    (hresponds : RespondsWith clientFlag command.comCode ps) (hne : ps ≠ []) (hps : ∀ p ∈ ps, p.Responds) :
    ∃ c', Consumes env c (ps.map Packet.frame) c' ∧ c'.phase = .command := by
  have hone : ∀ {p : Packet}, p.Responds → command.comCode ∉ [.comStmtPrepare, .comStmtExecute, .comStmtClose] →
      (p.pType = .ok ∧ (OkData.fromPacket p c).isSome ∨ p.pType = .error ∧ (ErrorData.fromPacket p c).isSome) →
      ∃ c', Consumes env c ([p].map Packet.frame) c' ∧ c'.phase = .command := by
    intro p hp hcode hdone
    obtain ⟨self', hself'⟩ := @consume_acknowledged env c command p hcommand hcode hdone c.queryResponse
    exact ⟨_, .last (hp.toPacket hphase) (consumePacket_pending hphase hself'), rfl⟩
  generalize hcode : command.comCode = code at hresponds
  cases hresponds with
  | nothing => exact absurd rfl hne
  | @ok _ p _ _ _ _ _ hcode' hbody =>
    have hp := hps p (by simp)
    have htyped : getPacketType p.body .pendingResponse = some p.pType := hp.typed
    rw [hbody, getPacketType_okBody] at htyped
    have htype : p.pType = .ok := (Option.some.inj htyped).symm
    exact hone hp (hcode ▸ hcode') (.inl ⟨htype, by rw [OkData.fromPacket_okBody h41 hflag htype hbody]; rfl⟩)
  | @error _ p c0 c1 marker state message hcode' hm hs hbody =>
    have hp := hps p (by simp)
    have htyped : getPacketType p.body .pendingResponse = some p.pType := hp.typed
    have htype : p.pType = .error := by
      rw [hbody] at htyped
      simpa [getPacketType, eq_comm] using htyped
    exact hone hp (hcode ▸ hcode')
      (.inr ⟨htype, by rw [ErrorData.fromPacket_utf8 hflag h41 htype hm hs hbody]; rfl⟩)
  | @resultSet columns count definitions rows terminator hdep hopt hsent hend =>
    have hawaits : AwaitsQuery c clientFlag := ⟨hphase, ⟨command, hcommand, hcode⟩, hflag⟩
    obtain ⟨self₁, hheader, -, hself₁⟩ :=
      @pendsAll_header env _ _ hawaits hopt _ _ _ hsent.nonempty hsent.countable hsent.count hsent.decoded
    obtain ⟨column, columns, rfl⟩ := List.exists_cons_of_ne_nil hsent.nonempty
    obtain ⟨self₂, hrows, hself₂⟩ :=
      @pendsAll_rows env _ _ hawaits hdep column columns (by simp [hdiff]) rows self₁ hsent.rows hself₁
    obtain ⟨c', out, hlast, hend', -⟩ := consumePacket_terminator hawaits h41 hdep hself₂ hend
    rw [List.forall_mem_append] at hps
    refine ⟨c', ?_, hend'⟩
    rw [Connection.holding_fresh hfresh, List.map_append]
    exact consumes_of_pends hphase (hheader.append hrows) hps.1 (.last ((hps.2 terminator (by simp)).toPacket hphase) hlast)
  | prepared hdep hopt hparams hsent =>
    obtain ⟨self', hturn⟩ := @turnsBack_prepareResponse env c _ ⟨hphase, ⟨command, hcommand, hcode⟩, hflag⟩ hdep hopt _ _ _
      hparams hsent
    rw [Connection.holding_fresh hfresh]
    exact hturn.consumed hphase hps
  | executed hsent hfits =>
    obtain ⟨self', hturn⟩ := @turnsBack_executeResponse env c _ ⟨hphase, ⟨command, hcommand, hcode⟩, hflag⟩ _ hsent hfits
      .default
    rw [Connection.holding_fresh hfresh]
    exact hturn.consumed hphase hps

/-! ## Rounds and sessions -/

/-- The client's next command is waited for, and nothing is recorded. -/
structure Serves (clientFlag : UInt32) (c : Connection) : Prop where
  phase : c.phase = .command
  flags : c.clientFlag = some clientFlag
  diff : c.diff = ∅

theorem accepts_response {clientFlag : UInt32} (h41 : hasFlag clientFlag .clientProtocol41) {command : Command} {r : Round}
    (hphase : c.phase = .pendingResponse) (hflags : c.clientFlag = some clientFlag) (hcommand : c.lastCommand = some command)
    (hfresh : c.queryResponse = .default) (hdiff : c.diff = ∅) (hresponds : RespondsWith clientFlag command.comCode r.response)
    (hsome : r.response ≠ []) (hr : r.WellFormed clientFlag) :
    ∃ c', Accepts env c ⟨.server, r.response.map Packet.frame⟩ c' ∧ Serves clientFlag c' := by
  obtain ⟨c', hconsumes, hphase'⟩ := @response_consumed env c clientFlag command r.response hphase hflags h41 hcommand
    hfresh hdiff hresponds hsome hr.responds
  refine ⟨c', ⟨by rw [hphase]; rfl, by simp [hphase], ?_, ?_, hconsumes, ?_⟩, hphase', ?_, ?_⟩
  · intro f hf
    obtain ⟨p, hp, rfl⟩ := List.mem_map.1 hf
    exact (hr.responds p hp).wellFormed
  · rw [List.map_map]
    exact hr.inOrder
  · rw [hphase']
    rfl
  · exact (hconsumes.clientFlag hphase).trans hflags
  · exact hconsumes.shared.1.trans hdiff

theorem round_dialogue {clientFlag : UInt32} (h41 : hasFlag clientFlag .clientProtocol41) {r : Round}
    (hc : Serves clientFlag c) (hr : r.WellFormed clientFlag) :
    ∃ c', Dialogue env c (r.transmissions clientFlag) c' ∧ Serves clientFlag c' := by
  obtain ⟨code, hcode, hresponds⟩ := hr.command
  obtain ⟨command, p, c₁, hread, -, hasked, hphase, hcommand, hfresh, hflags, hdiff⟩ :=
    @accepts_command env c r clientFlag code hc.phase hc.flags hcode hr.text hr.small
  rw [hc.flags] at hflags
  rw [hc.diff] at hdiff
  rw [Round.transmissions, Round.answered]
  by_cases hnil : r.response = []
  · rw [if_pos (hresponds.eq_nil_iff.1 hnil)] at hphase
    rw [if_pos hnil]
    exact ⟨c₁, .cons hasked (.nil _), hphase, hflags, hdiff⟩
  · rw [if_neg fun hclose => hnil (hresponds.eq_nil_iff.2 hclose)] at hphase
    rw [if_neg hnil]
    obtain rfl := Command.fromBytes_comCode hread
    obtain ⟨c', hanswered, hc'⟩ := accepts_response h41 hphase hflags hcommand hfresh hdiff hresponds hnil hr
    exact ⟨c', .cons hasked (.cons hanswered (.nil _)), hc'⟩

/-- What one round leads to, all rounds lead to. -/
theorem rounds_served {α : Type} {clientFlag : UInt32} {R : Connection → List α → Connection → Prop} {f : Round → List α}
    {P : Round → Prop} (hnil : ∀ c, R c [] c) (happend : ∀ {c c₁ c' us vs}, R c us c₁ → R c₁ vs c' → R c (us ++ vs) c')
    (hround : ∀ {c r}, Serves clientFlag c → P r → ∃ c', R c (f r) c' ∧ Serves clientFlag c') :
    ∀ {rounds : List Round} {c : Connection}, Serves clientFlag c → (∀ r ∈ rounds, P r) →
      ∃ c', R c (rounds.flatMap f) c' ∧ Serves clientFlag c'
  | [], c, hc, _ => ⟨c, hnil c, hc⟩
  | r :: rounds, c, hc, hrounds => by
    obtain ⟨hr, hrounds⟩ := List.forall_mem_cons.1 hrounds
    obtain ⟨c₁, hfirst, hc₁⟩ := hround hc hr
    obtain ⟨c', hrest, hc'⟩ := rounds_served hnil happend hround hc₁ hrounds
    exact ⟨c', happend hfirst hrest, hc'⟩

/-- The client logs in. -/
theorem Session.logsIn {s : Session} (hs : s.WellFormed) (server client : SwitchableConnection) (kafka : Option String) :
    ∃ c', LogsIn env (.new server client ∅ none kafka) s.opening c' ∧ Serves s.answer.clientFlag c' := by
  obtain ⟨phase', hplay, hphase'⟩ := supported_play hs.auth.1 hs.auth.2
  obtain rfl : phase' = .command := hphase'.2 hs.accepted
  have hgreeting := @accepts_greeting env (.new server client ∅ none kafka) s.greeting s.greetingSeq hs.greeting rfl
  obtain ⟨acc, hacc, hanswer⟩ := @accepts_answer env
    { Connection.new server client ∅ none kafka with phase := .handshakeResponse, handshake := some s.greeting.accumulated }
    s.answer s.answerSeq hs.answer (s.answer.kept_isSome.2 ⟨hs.names, hs.authResponse⟩) rfl
  have hserves : Serves s.answer.clientFlag { Connection.new server client ∅ none kafka with
      phase := .command, handshake := some s.greeting.accumulated, handshakeResponse := some acc } :=
    ⟨rfl, congrArg some hacc, rfl⟩
  exact ⟨_, .cons (by simp [Connection.new]) hgreeting (.cons (by simp) hanswer (logsIn_of_play hplay hs.auth.1.sizes)), hserves⟩

/-- **A session is consumed** from the greeting to its last round. -/
theorem Session.dialogue {s : Session} (hs : s.WellFormed) (server client : SwitchableConnection) (kafka : Option String) :
    ∃ c', Dialogue env (.new server client ∅ none kafka) s.transmissions c' ∧ Serves s.answer.clientFlag c' := by
  obtain ⟨c₁, hlogsIn, hc₁⟩ := @Session.logsIn env s hs server client kafka
  obtain ⟨c', hrounds, hc'⟩ := rounds_served Dialogue.nil .append (round_dialogue s.answer.protocol41) hc₁ hs.rounds
  exact ⟨c', hlogsIn.dialogue.append hrounds, hc'⟩

/-- A new connection takes a session in, in any reads. -/
theorem Initiated.converses (hin : ¬ env.interceptWrites) {x₀ : Exchange} (hinit : Initiated x₀) {s : Session}
    (hs : s.WellFormed) {script : List (Transmission × List Turn)} (hscript : script.map (·.1) = s.transmissions)
    (hbrings : ∀ e ∈ script, Brings e.2 e.1) (hidle : ∀ turn ∈ script.flatMap (·.2), turn.shared.Idle) :
    ∃ x, Converses env x₀ script x ∧ x.connection.phase = .command ∧ x.listening = .client := by
  obtain ⟨diff, replay, kafka, rfl⟩ := hinit
  obtain ⟨c', hdialogue, hc'⟩ := @Session.dialogue env s hs .plain .plain kafka
  obtain ⟨x, hconverses, hx⟩ := dialogue_relayed hin hdialogue
    (x := .start (.new .plain .plain diff replay kafka)) ⟨rfl, rfl, rfl, rfl⟩ hscript hbrings hidle
  have hphase : x.connection.phase = .command := by
    have hsame : x.connection.idle.phase = .command := by rw [hx.connection, hc'.phase]
    exact hsame
  exact ⟨x, hconverses, hphase, by rw [hx.listening, hc'.phase]; rfl⟩

end

/-! ## The process -/

/-- A run of the exchange loop whose turns find what the process shares is a run of the process. -/
theorem run_processStep {κ : Type} [DecidableEq κ] {env : Env} {serde : Serde} (hin : ¬ env.interceptWrites) {k : κ} :
    ∀ {turns : List Turn} {p : Process κ} {x x' : Exchange} {outs : List (Output × Shared)}, p.client k = .connected x →
      (∀ turn ∈ turns, turn.shared = p.shared) → run (exchangeStep env) x turns = some (x', outs) →
      ∃ p' outs', run (processStep env serde) p (turns.map fun turn => .turn k turn.read) = some (p', outs') ∧
        turnsOf k (transcript (processStep env serde) p (turns.map fun turn => .turn k turn.read)) = turns
  | [], p, _, _, _, _, _, _ => ⟨p, [], rfl, rfl⟩
  | ⟨shared, read⟩ :: turns, p, x, x', outs, hclient, hshared, hrun => by
    obtain ⟨rfl, hlater⟩ := List.forall_mem_cons.1 hshared
    obtain ⟨x₁, ⟨output, shared⟩, outs, hstep, hrest, rfl⟩ := run_cons_some hrun
    have hsame := exchangeStep_shared hstep
    rw [turnShared_off hin] at hsame
    subst hsame
    let p₁ : Process κ := { p with
      client := Function.update p.client k (.connected x₁), topic := p.topic ++ messages serde output.records }
    have hturn : processStep env serde p (.turn k read) = some (p₁, output) := by
      rw [processStep]
      simp only [hclient, hstep]
      rfl
    obtain ⟨p', outs', hrun', hturns⟩ := @run_processStep κ _ env serde hin k turns p₁ x₁ x' outs
      (Function.update_self _ _ _) hlater hrest
    refine ⟨p', output :: outs', ?_, ?_⟩
    · rw [List.map_cons, run_cons hturn, hrun']
      rfl
    · rw [List.map_cons, transcript_cons hturn, turnsOf, List.filterMap_cons]
      simp only [ProcessStep.turnOf, if_true]
      exact congrArg _ hturns

/-- What every new exchange loop makes of the turns of a connection of the process, that connection makes of them. -/
theorem process_led {κ : Type} [DecidableEq κ] {env : Env} {serde : Serde} {vars : String → Option String} {p₀ p : Process κ}
    {events : List (ProcessEvent κ)} {outs : List Output} (hstart : Process.start κ vars = some p₀)
    (hrun : run (processStep env serde) p₀ events = some (p, outs)) {k : κ} {turns : List Turn}
    (hturns : turnsOf k (transcript (processStep env serde) p₀ events) = turns)
    {P : Exchange → List (Step Exchange Turn (Output × Shared)) → Prop} (hleaves : ∀ x₀, Initiated x₀ → ¬ P x₀ [])
    (hled : ∀ x₀, Initiated x₀ → ∃ x outs, run (exchangeStep env) x₀ turns = some (x, outs) ∧
      P x (transcript (exchangeStep env) x₀ turns)) :
    ∃ x, p.client k = .connected x ∧ P x (exchangesOf k (transcript (processStep env serde) p₀ events)) := by
  have hclient : ∃ x, p.client k = .connected x := by
    have hran := process_projects hstart hrun k
    rw [hturns] at hran
    generalize outputsOf k _ = outputs, p.client k = client at hran
    cases hran with
    | waiting =>
      obtain ⟨x, outs', hrun', hP⟩ := hled (.start (.new .plain .plain ∅ none none)) ⟨_, _, _, rfl⟩
      cases hrun'
      exact absurd hP (hleaves _ ⟨_, _, _, rfl⟩)
    | connected => exact ⟨_, rfl⟩
    | gone hinit hrun hend =>
      obtain ⟨x, outs', hrun', -⟩ := hled _ hinit
      obtain ⟨x₁, _, _, hrun₁, hrest, -⟩ := run_append_split hrun'
      rw [hrun] at hrun₁
      cases hrun₁
      rw [run_singleton, hend] at hrest
      cases hrest
  obtain ⟨x, hclient⟩ := hclient
  obtain ⟨x₀, os, hinit, hran, hsteps⟩ := process_exchanges hstart hrun hclient
  rw [hturns] at hran hsteps
  obtain ⟨x', outs', hrun', hP⟩ := hled x₀ hinit
  cases hran.symm.trans hrun'
  exact ⟨x, hclient, by rwa [hsteps]⟩

/-- So it takes a script that leads somewhere else. -/
theorem process_converses {κ : Type} [DecidableEq κ] {env : Env} {serde : Serde} (hin : ¬ env.interceptWrites)
    {vars : String → Option String} {p₀ p : Process κ} {events : List (ProcessEvent κ)} {outs : List Output}
    (hstart : Process.start κ vars = some p₀) (hreplay : vars "kafka_replay_response_enable" ≠ some "true")
    (hrun : run (processStep env serde) p₀ events = some (p, outs)) {k : κ} {script : List (Transmission × List Turn)}
    (hturns : turnsOf k (transcript (processStep env serde) p₀ events) = script.flatMap (·.2)) {P : Exchange → Prop}
    (hleaves : ∀ x₀, Initiated x₀ → ¬ P x₀)
    (hconverses : (∀ turn ∈ script.flatMap (·.2), turn.shared.Idle) → ∀ x₀, Initiated x₀ → ∃ x, Converses env x₀ script x ∧ P x) :
    ∃ x, p.client k = .connected x ∧ RelayedAll script (exchangesOf k (transcript (processStep env serde) p₀ events)) ∧
      P x ∧ (outputsOf k (transcript (processStep env serde) p₀ events)).flatMap Output.written =
        script.flatMap (·.1.bytes) := by
  have hidle := @turnsOf_idle κ _ env serde hin vars p₀ hstart hreplay events k
  rw [hturns] at hidle
  have hled : ∀ x₀, Initiated x₀ → ∃ x outs, run (exchangeStep env) x₀ (script.flatMap (·.2)) = some (x, outs) ∧
      (RelayedAll script (transcript (exchangeStep env) x₀ (script.flatMap (·.2))) ∧ P x) := by
    intro x₀ hinit
    obtain ⟨x, hscript, hx⟩ := hconverses hidle x₀ hinit
    obtain ⟨outs, hran, hrelayed⟩ := hscript.run
    exact ⟨x, outs, hran, hrelayed, hx⟩
  obtain ⟨x, hclient, hrelayed, hx⟩ := process_led (P := fun x steps => RelayedAll script steps ∧ P x) hstart hrun hturns
    (fun x₀ hinit h => hleaves x₀ hinit h.2) hled
  refine ⟨x, hclient, hrelayed, hx, ?_⟩
  rw [outputsOf_exchanges hrun (by rw [hclient]; simp), List.flatMap_map, hrelayed.written]

/-- **A relay serves sessions.** A process neither intercepts nor replays, and what one of its connections reads is a
session, cut into any non-empty reads, those of other connections in between. Then each of its transmissions has been
read from the peer that sends it and written to the other one, byte for byte, and in the end the connection waits for
the client's next command. -/
theorem process_serves_session {κ : Type} [DecidableEq κ] {env : Env} {serde : Serde} (hin : ¬ env.interceptWrites)
    {vars : String → Option String} {p₀ p : Process κ} {events : List (ProcessEvent κ)} {outs : List Output}
    (hstart : Process.start κ vars = some p₀) (hreplay : vars "kafka_replay_response_enable" ≠ some "true")
    (hrun : run (processStep env serde) p₀ events = some (p, outs)) {k : κ} {s : Session} (hs : s.WellFormed)
    {script : List (Transmission × List Turn)} (hscript : script.map (·.1) = s.transmissions)
    (hbrings : ∀ e ∈ script, Brings e.2 e.1)
    (hturns : turnsOf k (transcript (processStep env serde) p₀ events) = script.flatMap (·.2)) :
    ∃ x, p.client k = .connected x ∧ RelayedAll script (exchangesOf k (transcript (processStep env serde) p₀ events)) ∧
      x.connection.phase = .command ∧ x.listening = .client ∧
      (outputsOf k (transcript (processStep env serde) p₀ events)).flatMap Output.written =
        s.transmissions.flatMap Transmission.bytes := by
  obtain ⟨x, hclient, hrelayed, ⟨hphase, hlisten⟩, hwritten⟩ := process_converses hin hstart hreplay hrun hturns
    (P := fun x => x.connection.phase = .command ∧ x.listening = .client)
    (by rintro _ ⟨_, _, _, rfl⟩ ⟨hphase, -⟩; cases hphase)
    fun hidle _ hinit => hinit.converses hin hs hscript hbrings hidle
  refine ⟨x, hclient, hrelayed, hphase, hlisten, ?_⟩
  rw [hwritten, ← hscript, List.flatMap_map]

theorem samplePacket_responds {seq : UInt8} {body : Bytes} {pType : PacketType} (h : Typed (samplePacket seq body pType))
    (hsmall : Small body) : (samplePacket seq body pType).Responds := ⟨h, rfl, hsmall, rfl⟩

def samplePinged : Round := ⟨0, 0x0e, [], [samplePacket 1 [0x00, 0, 0, 2, 0, 0, 0] .ok]⟩

def sampleSelected : Round :=
  ⟨0, 0x03, asBytes "select x from t", [samplePacket 1 [1] .other, samplePacket 2 sampleColumn.encode .other,
    samplePacket 3 [1, 0x31] .other, samplePacket 4 [0xfe, 0, 0, 2, 0, 0, 0] .eof]⟩

def sampleStatementPrepared : Round :=
  ⟨0, 0x16, asBytes "select x from t where x = ?", samplePrepared 1 1⟩

def sampleStatementExecuted : Round :=
  ⟨0, 0x17, [1, 0, 0, 0, 0, 1, 0, 0, 0], (sampleBinaryRow .other [0x01, 0x31]).packets⟩

def sampleClosed : Round := ⟨0, 0x19, [1, 0, 0, 0], []⟩

def sampleSession : Session where
  greetingSeq := 0
  greeting := sampleHandshake
  answerSeq := 1
  answer := { sampleHandshakeResponse with
    clientFlag := 0x01380208
    protocol41 := by decide
    noSsl := by decide
    noZstd := by decide }
  auth := sampleFast
  rounds := [samplePinged, sampleSelected, sampleStatementPrepared, sampleStatementExecuted, sampleClosed]

theorem samplePinged_wellFormed (clientFlag : UInt32) : samplePinged.WellFormed clientFlag where
  command := ⟨.comPing, rfl, .ok (by decide) (show _ = okBody 0 0 2 0 [] from rfl)⟩
  text := .inr (by decide)
  small := by simp [Small, commandBody, queryPrefix, samplePinged]
  responds := by
    simp only [samplePinged, List.forall_mem_singleton]
    exact samplePacket_responds rfl (by unfold Small; decide)
  inOrder := by decide

theorem sampleSelected_wellFormed : sampleSelected.WellFormed 0x01380208 where
  command := ⟨.comQuery, rfl, .resultSet (by decide) (by decide) sampleColumn_packets (.eof rfl rfl (by decide))⟩
  text := .inr (by decide)
  small := by unfold Small; decide
  responds := by
    simp only [sampleSelected, List.forall_mem_cons, List.not_mem_nil, false_implies, implies_true, and_true]
    refine ⟨samplePacket_responds rfl ?_, samplePacket_responds rfl ?_, samplePacket_responds rfl ?_,
      samplePacket_responds rfl ?_⟩ <;> unfold Small <;> decide
  inOrder := by decide

theorem sampleStatementPrepared_wellFormed : sampleStatementPrepared.WellFormed 0x01380208 where
  command := by
    have hgroup : ∀ seq, DefinitionGroup 0x01380208 [sampleColumn] [samplePacket seq sampleColumn.encode .other] :=
      fun _ => .alone (by simp) (by decide) (.cons rfl .nil)
    refine ⟨.comStmtPrepare, rfl, .prepared (by decide) (by decide) (by simp) (.prepared 1 0 (by decide) (by decide) ?_ rfl rfl
      (hgroup 2) (hgroup 3))⟩
    simpa using sampleColumn_wellFormed.sendable
  text := .inr (by decide)
  small := by unfold Small; decide
  responds := by
    simp only [sampleStatementPrepared, samplePrepared, List.replicate_one, List.singleton_append, List.forall_mem_cons,
      List.not_mem_nil, false_implies, implies_true, and_true]
    refine ⟨samplePacket_responds rfl ?_, samplePacket_responds rfl ?_, samplePacket_responds rfl ?_⟩ <;> unfold Small <;> decide
  inOrder := by decide

theorem sampleStatementExecuted_wellFormed : sampleStatementExecuted.WellFormed 0x01380208 where
  command := by
    have hsent : (sampleBinaryRow .other [0x01, 0x31]).Sent 0x01380208 :=
      .resultSet (by simp) (by decide) (by simpa using sampleColumn_wellFormed.sendable) rfl rfl rfl (.cons ⟨rfl, rfl⟩ .nil)
        rfl (by simpa using ⟨rfl, rfl⟩) rfl (.inl rfl)
    exact ⟨.comStmtExecute, rfl,
      .executed hsent ⟨by decide, .inl (by decide), by simpa using .inl (by decide), rfl, by decide⟩⟩
  text := .inl rfl
  small := by unfold Small; decide
  responds := by
    simp only [sampleStatementExecuted, sampleBinaryRow, ExecuteResponse.packets, List.cons_append, List.nil_append,
      List.append_nil, List.forall_mem_cons, List.not_mem_nil, false_implies, implies_true, and_true]
    refine ⟨samplePacket_responds rfl ?_, samplePacket_responds rfl ?_, samplePacket_responds rfl ?_,
      samplePacket_responds rfl ?_⟩ <;> unfold Small <;> decide
  inOrder := by decide

theorem sampleClosed_wellFormed : sampleClosed.WellFormed 0x01380208 where
  command := ⟨.comStmtClose, rfl, .nothing⟩
  text := .inr (by decide)
  small := by unfold Small; decide
  responds := by simp [sampleClosed]
  inOrder := by decide

theorem sampleSession_wellFormed : sampleSession.WellFormed where
  greeting := by unfold Small; decide
  answer := by unfold Small; decide
  names := by decide
  authResponse := by decide
  auth := ⟨⟨by simp [sampleSession, sampleFast], .inl ⟨by decide, rfl⟩, sizes_of_short rfl⟩,
    by simp [sampleSession, sampleFast], by simp [sampleSession, sampleFast]⟩
  accepted := ⟨by decide, rfl⟩
  rounds := by
    simpa [sampleSession] using ⟨samplePinged_wellFormed _, sampleSelected_wellFormed,
      sampleStatementPrepared_wellFormed, sampleStatementExecuted_wellFormed, sampleClosed_wellFormed⟩

/-- Each byte in a read of its own. -/
def bytewise (ts : List Transmission) : List (Transmission × List Turn) :=
  ts.map fun t => (t, t.bytes.map fun b => sampleTurn [b])

theorem bytewise_fst (ts : List Transmission) : (bytewise ts).map (·.1) = ts := by
  simp [bytewise, Function.comp_def]

theorem bytewise_brings (ts : List Transmission) : ∀ e ∈ bytewise ts, Brings e.2 e.1 := by
  intro e he
  obtain ⟨t, -, rfl⟩ := List.mem_map.1 he
  refine ⟨?_, fun turn hturn => ?_⟩
  · rw [List.flatMap_map]
    simp only [sampleTurn, whole_chunk]
    exact List.flatMap_singleton' _
  · obtain ⟨b, -, rfl⟩ := List.mem_map.1 hturn
    simp [sampleTurn, whole_chunk]

theorem bytewise_shared (ts : List Transmission) : ∀ turn ∈ (bytewise ts).flatMap (·.2), turn.shared = ⟨∅, none, 0, 100⟩ := by
  intro turn hturn
  obtain ⟨e, he, hturn⟩ := List.mem_flatMap.1 hturn
  obtain ⟨t, -, rfl⟩ := List.mem_map.1 he
  obtain ⟨b, -, rfl⟩ := List.mem_map.1 hturn
  rfl

/-- A client beside another one that says nothing. -/
def bytewiseEvents (ts : List Transmission) : List (ProcessEvent Bool) :=
  [.accept false, .accept true] ++ ((bytewise ts).flatMap (·.2)).map fun turn => .turn true turn.read

theorem bytewise_run {ts : List Transmission} (h : ∀ x₀, Initiated x₀ → ∃ x, Converses relayEnv x₀ (bytewise ts) x) :
    ∃ p₀ p outs, Process.start Bool (fun _ => none) = some p₀ ∧
      run (processStep relayEnv sampleSerde) p₀ (bytewiseEvents ts) = some (p, outs) ∧
      turnsOf true (transcript (processStep relayEnv sampleSerde) p₀ (bytewiseEvents ts)) = (bytewise ts).flatMap (·.2) := by
  have hopen : ∃ p₀ p₁ os x₀, Process.start Bool (fun _ => none) = some p₀ ∧
      run (processStep relayEnv sampleSerde) p₀ [.accept false, .accept true] = some (p₁, os) ∧
      turnsOf true (transcript (processStep relayEnv sampleSerde) p₀ [.accept false, .accept true]) = [] ∧
      p₁.client true = .connected x₀ ∧ p₁.shared = ⟨∅, none, 0, 100⟩ ∧ Initiated x₀ :=
    ⟨_, _, _, _, rfl, rfl, rfl, rfl, rfl, ⟨_, _, _, rfl⟩⟩
  obtain ⟨p₀, p₁, os, x₀, hstart, haccept, hnone, hclient, hp₁, hinit⟩ := hopen
  obtain ⟨x, hconverses⟩ := h x₀ hinit
  obtain ⟨outs, hrun, -⟩ := hconverses.run
  obtain ⟨p, outs', hrun, hturns⟩ := @run_processStep Bool _ relayEnv sampleSerde (by decide) true _ p₁ x₀ x outs hclient
    (fun turn hturn => (bytewise_shared ts turn hturn).trans hp₁.symm) hrun
  refine ⟨p₀, p, _, hstart, run_append_some haccept hrun, ?_⟩
  rw [← hturns, bytewiseEvents, transcript_append haccept, turnsOf, List.filterMap_append]
  exact congrArg₂ _ hnone rfl

theorem process_serves_session_one : ∃ p₀ p outs, Process.start Bool (fun _ => none) = some p₀ ∧
    run (processStep relayEnv sampleSerde) p₀ (bytewiseEvents sampleSession.transmissions) = some (p, outs) ∧
    (outputsOf true (transcript (processStep relayEnv sampleSerde) p₀
      (bytewiseEvents sampleSession.transmissions))).flatMap Output.written =
        sampleSession.transmissions.flatMap Transmission.bytes := by
  obtain ⟨p₀, p, outs, hstart, hrun, hread⟩ := @bytewise_run sampleSession.transmissions fun x₀ hinit => by
    obtain ⟨x, hconverses, -⟩ := @Initiated.converses relayEnv (by decide) x₀ hinit _ sampleSession_wellFormed _
      (bytewise_fst _) (bytewise_brings _) fun turn hturn => by rw [bytewise_shared _ turn hturn]; exact ⟨rfl, rfl⟩
    exact ⟨x, hconverses⟩
  obtain ⟨_, -, -, -, -, hwritten⟩ := process_serves_session (by decide) hstart (by decide) hrun
    sampleSession_wellFormed (bytewise_fst _) (bytewise_brings _) hread
  exact ⟨p₀, p, outs, hstart, hrun, hwritten⟩

end MocksySql
