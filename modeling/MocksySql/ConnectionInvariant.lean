import Mathlib.Logic.Relation
import MocksySql.ConnectionHandler
import MocksySql.Framing
import MocksySql.ResponseRound
/-!
# What holds of a connection in every reachable state

`Consumed` is the inversion of one packet: all that `consume` and `sync_connection_state` together
can do to a connection, phase by phase. `ConnStep` is the system a connection is part of: reads cut
into packets, packets consumed one by one, and the writes to its phase from outside.

* `consumePacket_consumed` — every consumed packet is one of the cases.
* `connection_invariant` — the invariant, in every state reachable from `Connection::new`.
-/

namespace MocksySql
open FieldDecode PartialRun Relation

/-! ## Handshake responses -/

theorem HandshakeResponseAccumulator.readPrelude_flag {body : Bytes} {offset : Nat}
    {r : HandshakeResponseAccumulator × Nat} (h : readPrelude body offset = some r) :
    hasFlag r.1.clientFlag .clientProtocol41 := by
  simp only [readPrelude, bind_eq_some, require_eq_some, pure_eq_some] at h
  obtain ⟨_, _, _, _, _, ⟨hflag, _⟩, _, _, _, _, _, _, _, _, _, _, _, _, rfl⟩ := h
  exact hflag

theorem HandshakeResponseAccumulator.readRest_flag {body : Bytes} {prelude : HandshakeResponseAccumulator}
    {offset : Nat} {r : HandshakeResponseAccumulator × Nat} (h : readRest body prelude offset = some r) :
    r.1.clientFlag = prelude.clientFlag := by
  simp only [readRest, bind_eq_some, pure_eq_some] at h
  obtain ⟨_, _, _, _, _, _, _, _, _, _, _, _, _, _, _, _, _, _, rfl⟩ := h
  rfl

/-- A client is only let past its handshake response with CLIENT_PROTOCOL_41. -/
theorem HandshakeResponseAccumulator.consume_cases {packet : Packet} {connection : Connection}
    {r : HandshakeResponseAccumulator × Phase} (h : consume packet connection = some r) :
    hasFlag r.1.clientFlag .clientProtocol41 ∧ (r.2 = .tlsExchange ∨ r.2 = .authInit) := by
  obtain ⟨offset, h⟩ := run'_eq_some.1 h
  simp only [read, bind_eq_some] at h
  obtain ⟨prelude, _, hprelude, h⟩ := h
  have hflag := readPrelude_flag hprelude
  split_ifs at h
  · simp only [bind_eq_some, require_eq_some, pure_eq_some] at h
    obtain ⟨_, _, _, _, _, _, he⟩ := h
    cases he
    exact ⟨hflag, .inl rfl⟩
  · simp only [bind_eq_some, pure_eq_some] at h
    obtain ⟨_, _, hrest, he⟩ := h
    cases he
    rw [readRest_flag hrest]
    exact ⟨hflag, .inr rfl⟩

/-! ## What a packet can do to a connection -/

def Phase.Authenticating (phase : Phase) : Prop :=
  phase = .authInit ∨ phase = .authSwitchResponse ∨ phase = .authComplete

/-- All that consuming packet `p` can make of connection `c`. -/
inductive Consumed (c : Connection) (p : Packet) : Connection → Prop
  | handshake (h : HandshakeAccumulator) : c.phase = .handshake →
      Consumed c p { c with phase := .handshakeResponse, handshake := some h }
  | handshakeResponse (hr : HandshakeResponseAccumulator) (phase : Phase) : c.phase = .handshakeResponse →
      phase = .tlsExchange ∨ phase = .authInit → hasFlag hr.clientFlag .clientProtocol41 →
      Consumed c p { c with phase, handshakeResponse := some hr }
  | auth (phase : Phase) : c.phase.Authenticating → phase.Authenticating ∨ phase = .authFailed ∨
      (phase = .command ∧ p.pType = .ok ∧ c.phase ≠ .authSwitchResponse) → Consumed c p { c with phase }
  | command (command : Command) (phase : Phase) : c.phase = .command → phase = .command ∨ phase = .pendingResponse →
      Consumed c p { c with phase, lastCommand := some command, queryResponse := .default }
  | response (self : ResponseAccumulator) (phase : Phase) : c.phase = .pendingResponse →
      phase = .pendingResponse ∨ phase = .command → Consumed c p { c with phase, queryResponse := self }

theorem HandshakeAccumulator.consume_phase {packet : Packet} {r : HandshakeAccumulator × Phase}
    (h : HandshakeAccumulator.consume packet = some r) : r.2 = .handshakeResponse := by
  obtain ⟨_, _, rfl⟩ := Option.map_eq_some_iff.1 h
  rfl

theorem AuthCompleteAccumulator.consume_cases {packet : Packet} {phase : Phase}
    (h : AuthCompleteAccumulator.consume packet = some phase) :
    phase = .authFailed ∨ (phase = .command ∧ packet.pType = .ok) := by
  unfold consume at h
  split at h
  · rename_i hok; cases h; exact .inr ⟨rfl, hok⟩
  · cases h; exact .inl rfl
  · cases h

theorem AuthSwitchRequestAccumulator.consume_phase {packet : Packet} {phase : Phase}
    (h : AuthSwitchRequestAccumulator.consume packet = some phase) : phase = .authSwitchResponse := by
  obtain ⟨offset, h⟩ := run'_eq_some.1 h
  simp only [read, bind_eq_some, require_eq_some, pure_eq_some] at h
  obtain ⟨_, _, _, _, _, _, _, _, _, _, _, _, _, _, _, _, _, _, he⟩ := h
  cases he
  rfl

theorem AuthInitAccumulator.consume_cases {packet : Packet} {phase : Phase}
    (h : AuthInitAccumulator.consume packet = some phase) :
    phase.Authenticating ∨ phase = .authFailed ∨ (phase = .command ∧ packet.pType = .ok) := by
  unfold consume at h
  split at h
  · cases h
  · split_ifs at h
    · rw [AuthSwitchRequestAccumulator.consume_phase h]; exact .inl (.inr (.inl rfl))
    · exact .inr (AuthCompleteAccumulator.consume_cases h)
    · cases h; exact .inl (.inr (.inr rfl))
    · cases h; exact .inl (.inr (.inl rfl))
    · cases h; exact .inl (.inl rfl)

theorem CommandAccumulator.consume_phase {env : Env} {packet : Packet} {connection : Connection}
    {r : Command × Phase} (h : CommandAccumulator.consume env packet connection = some r) :
    r.2 = .command ∨ r.2 = .pendingResponse := by
  simp only [consume, Option.bind_eq_bind, Option.bind_eq_some_iff] at h
  obtain ⟨_, _, _, _, _, _, _, _, _, _, he⟩ := h
  cases he
  dsimp only
  split_ifs
  · exact .inl rfl
  · exact .inr rfl

/-- **One packet.** -/
theorem consumePacket_consumed {env : Env} {c c' : Connection} {p : Packet} {out : Option Packet}
    (h : consumePacket env c p = some (c', out)) : Consumed c p c' := by
  obtain ⟨⟨phase, p', delta⟩, hacc, he⟩ := Option.map_eq_some_iff.1 h
  cases he
  unfold accumulate at hacc
  split at hacc
  case h_1 hphase =>
    obtain ⟨r, hr, he⟩ := Option.map_eq_some_iff.1 hacc
    cases he
    rw [HandshakeAccumulator.consume_phase hr]
    exact .handshake r.1 hphase
  case h_3 hphase =>
    obtain ⟨r, hr, he⟩ := Option.map_eq_some_iff.1 hacc
    cases he
    obtain ⟨hflag, hnext⟩ := HandshakeResponseAccumulator.consume_cases hr
    exact .handshakeResponse r.1 r.2 hphase hnext hflag
  case h_4 hphase =>
    obtain ⟨q, hq, he⟩ := Option.map_eq_some_iff.1 hacc
    cases he
    refine .auth _ (.inl hphase) ?_
    rcases AuthInitAccumulator.consume_cases hq with hq | hq | ⟨hq, hok⟩
    · exact .inl hq
    · exact .inr (.inl hq)
    · exact .inr (.inr ⟨hq, hok, by rw [hphase]; decide⟩)
  case h_5 hphase =>
    obtain ⟨q, hq, he⟩ := Option.map_eq_some_iff.1 hacc
    cases hq
    cases he
    exact .auth .authComplete (.inr (.inl hphase)) (.inl (.inr (.inr rfl)))
  case h_7 hphase =>
    obtain ⟨q, hq, he⟩ := Option.map_eq_some_iff.1 hacc
    cases he
    refine .auth _ (.inr (.inr hphase)) (.inr ?_)
    rcases AuthCompleteAccumulator.consume_cases hq with hq | ⟨hq, hok⟩
    · exact .inl hq
    · exact .inr ⟨hq, hok, by rw [hphase]; decide⟩
  case h_8 hphase =>
    obtain ⟨r, hr, he⟩ := Option.map_eq_some_iff.1 hacc
    cases he
    exact .command r.1 r.2 hphase (CommandAccumulator.consume_phase hr)
  case h_9 hphase =>
    obtain ⟨r, hr, he⟩ := Option.map_eq_some_iff.1 hacc
    cases he
    exact .response r.1 r.2.2 hphase (hphase ▸ ResponseAccumulator.consumeLoop_phase hr)
  all_goals cases hacc

/-! ## The system of a connection -/

/-- A connection and the packets of its current read that are still to be consumed. The phase is
written from outside twice: where a command is answered locally, and where the sockets are switched
to TLS. -/
inductive ConnStep (env : Env) : Connection × List Packet → Connection × List Packet → Prop
  | read {c c' : Connection} {packets : List Packet} (r : SocketRead) :
      makePackets r.buf c r.readBytes = some (c', packets) → ConnStep env (c, []) (c', packets)
  | packet {c c' : Connection} {p : Packet} {ps : List Packet} {out : Option Packet} :
      consumePacket env c p = some (c', out) → ConnStep env (c, p :: ps) (c', ps)
  | intercept {c : Connection} : c.phase = .pendingResponse → ConnStep env (c, []) ({ c with phase := .command }, [])
  | tls {c : Connection} : c.phase = .tlsExchange → ConnStep env (c, []) (switchToTls c, [])
  | shared {c : Connection} {ps : List Packet} (diff : StateDiffLog) (replay : ReplayLog)
      (partialReplayBytes : Option Bytes) : ConnStep env (c, ps) ({ c with diff, replay, partialReplayBytes }, ps)

/-- The states of a connection, between its packets too. -/
def Reachable (env : Env) (s : Connection × List Packet) : Prop :=
  ∃ server client diff replay kafka, ReflTransGen (ConnStep env) (Connection.new server client diff replay kafka, []) s

theorem packets_steps {env : Env} {c c' : Connection} {packets : List Packet} {outs : List (Option Packet)}
    (h : run (consumePacket env) c packets = some (c', outs)) :
    ReflTransGen (ConnStep env) (c, packets) (c', []) := by
  induction packets generalizing c outs with
  | nil => cases h; exact .refl
  | cons p ps ih =>
    obtain ⟨c₁, _, _, hp, hps, _⟩ := run_cons_some h
    exact .head (.packet hp) (ih hps)

/-- `process_incoming_frame` is a read and the consumption of its packets. -/
theorem frame_steps {env : Env} {c c' : Connection} {r : SocketRead} {out : List Packet}
    (h : processIncomingFrame env r.buf c r.readBytes = some (c', out)) :
    ReflTransGen (ConnStep env) (c, []) (c', []) := by
  obtain ⟨c₀, packets, outs, hmake, hrun, _⟩ := processIncomingFrame_some h
  exact .head (.read r hmake) (packets_steps hrun)

/-- What `intercept_command` can be: idle, a query that is let through, or a write that is answered. -/
inductive Intercepts (env : Env) (c : Connection) (packets : List Packet) (drawn : Nat) (counter : UInt8) :
    Intercepted → Prop
  | idle : ¬ (env.interceptWrites ∧ c.phase = .pendingResponse ∧ packets.length = 1) →
      Intercepts env c packets drawn counter { connection := c, drawn, globalCounter := counter, response := none }
  | passed {packet : Packet} {diff : StateDiffLog} {drawn' : Nat} : env.interceptWrites → c.phase = .pendingResponse →
      packets = [packet] → isWriteQuery env c.lastCommand packet c.diff drawn = some (false, diff, drawn') →
      Intercepts env c packets drawn counter
        { connection := { c with diff }, drawn := drawn', globalCounter := counter, response := none }
  | answered {packet : Packet} {diff : StateDiffLog} {drawn' : Nat} {lastCommand : Command} {clientFlag : UInt32}
      {response : Bytes} : env.interceptWrites → c.phase = .pendingResponse → packets = [packet] →
      isWriteQuery env c.lastCommand packet c.diff drawn = some (true, diff, drawn') → c.lastCommand = some lastCommand →
      c.clientFlag = some clientFlag →
      getWriteResponse env counter lastCommand packet.header.seq clientFlag = some response →
      Intercepts env c packets drawn counter
        { connection := { c with phase := .command, diff }, drawn := drawn', globalCounter := counter + 1,
          response := some response }

theorem interceptIfEnabled_intercepts {env : Env} {c : Connection} {packets : List Packet} {drawn : Nat} {counter : UInt8}
    {i : Intercepted} (h : interceptIfEnabled env c packets drawn counter = some i) :
    Intercepts env c packets drawn counter i := by
  unfold interceptIfEnabled interceptCommand at h
  split_ifs at h with hin hphase
  · cases h; exact .idle fun hidle => hphase hidle.2.1
  · split at h
    · simp only [Option.bind_eq_bind, Option.bind_eq_some_iff] at h
      obtain ⟨⟨isWrite, diff, drawn'⟩, hquery, h⟩ := h
      cases isWrite with
      | false => cases h; exact .passed hin (not_not.1 hphase) rfl hquery
      | true =>
        simp only [if_true, Option.bind_eq_some_iff] at h
        obtain ⟨lastCommand, hcommand, clientFlag, hflag, response, hresponse, he⟩ := h
        cases he
        exact .answered hin (not_not.1 hphase) rfl hquery hcommand hflag hresponse
    · rename_i hpackets
      cases h
      exact .idle fun hidle => (List.length_eq_one_iff.1 hidle.2.2).elim hpackets
  · cases h; exact .idle fun hidle => hin hidle.1

theorem getResponseFromCache_cached {env : Env} {c c' : Connection} {size : Nat} {bytes : Bytes}
    (h : getResponseFromCache env c size = .cached c' bytes) : ∃ rest, c' = { c with partialReplayBytes := rest } := by
  unfold getResponseFromCache at h
  split at h
  · split at h
    · cases h
    · cases h; exact ⟨_, rfl⟩
  · cases h

theorem switchIfAgreed_steps (env : Env) (c : Connection) :
    ReflTransGen (ConnStep env) (c, []) (switchIfAgreed env c, []) := by
  unfold switchIfAgreed
  split_ifs with h
  · exact .single (.tls h.2)
  · exact .refl

theorem interceptIfEnabled_steps {env : Env} {c : Connection} {packets : List Packet} {drawn : Nat}
    {counter : UInt8} {i : Intercepted} (h : interceptIfEnabled env c packets drawn counter = some i) :
    ReflTransGen (ConnStep env) (c, []) (i.connection, []) := by
  cases interceptIfEnabled_intercepts h with
  | idle _ => exact .refl
  | passed _ _ _ _ => exact .single (.shared _ c.replay c.partialReplayBytes)
  | answered _ hphase _ _ _ _ _ => exact .tail (.single (.intercept hphase)) (.shared _ c.replay c.partialReplayBytes)

theorem afterClientFrame_connection (x : Exchange) (c : Connection) : (afterClientFrame x c).connection = c := by
  unfold afterClientFrame; split_ifs <;> rfl

theorem receive_steps {env : Env} {x : Exchange} {read r : SocketRead} {c : Connection} {origin : Origin}
    (h : receive env x read = .bytes c r origin) : ReflTransGen (ConnStep env) (x.connection, []) (c, []) := by
  unfold receive at h
  split at h
  · split at h
    · cases h
    · rename_i hcache
      obtain ⟨rest, rfl⟩ := getResponseFromCache_cached hcache
      split_ifs at h
      cases h
      exact .single (.shared _ _ rest)
    · split_ifs at h
      cases h
      exact .refl
  · split_ifs at h
    cases h
    exact switchIfAgreed_steps env _

/-- The client loop reads the client's socket. -/
theorem receive_client {env : Env} {x : Exchange} {read r : SocketRead} {c : Connection} {origin : Origin}
    (h : receive env x read = .bytes c r origin) (hlisten : x.listening = .client) :
    c = switchIfAgreed env x.connection ∧ r = read ∧ origin = .client := by
  unfold receive at h
  simp only [hlisten] at h
  split_ifs at h
  cases h
  exact ⟨rfl, rfl, rfl⟩

theorem receive_waiting {env : Env} {x : Exchange} {read : SocketRead} (h : receive env x read = .waiting) :
    x.listening = .server := by
  unfold receive at h
  cases hlisten : x.listening with
  | server => rfl
  | client =>
    simp only [hlisten] at h
    split_ifs at h

theorem switchIfAgreed_of_ne {env : Env} {c : Connection} (hphase : c.phase ≠ .tlsExchange) :
    switchIfAgreed env c = c :=
  if_neg fun h => hphase h.2

/-- So it does with a connection in `Command`, as it stands. -/
theorem receive_command {env : Env} {x : Exchange} {read r : SocketRead} {c : Connection} {origin : Origin}
    (h : receive env x read = .bytes c r origin) (hlisten : x.listening = .client)
    (hphase : x.connection.phase = .command) : c = x.connection ∧ r = read := by
  obtain ⟨hc, hr, -⟩ := receive_client h hlisten
  rw [switchIfAgreed_of_ne (by rw [hphase]; decide)] at hc
  exact ⟨hc, hr⟩

/-- What a turn can be: waiting for the replay log, a frame of the server loop, or one of the client loop that is
answered here or not. -/
inductive Turned (env : Env) (x : Exchange) (turn : Turn) : Exchange → Output → Shared → Prop
  | waiting : receive env { x with connection := x.connection.sharing turn.shared } turn.read = .waiting →
      Turned env x turn { x with connection := x.connection.sharing turn.shared }
        { toClient := [], toServer := [], records := [] } turn.shared
  | server {c c' : Connection} {r : SocketRead} {origin : Origin} {packets : List Packet} {buffer : Bytes}
      {records : List ReplayLogEntry} : x.listening = .server →
      receive env { x with connection := x.connection.sharing turn.shared } turn.read = .bytes c r origin →
      processIncomingFrame env r.buf c r.readBytes = some (c', packets) →
      pushToKafka env c' (generateOutgoingFrame packets) x.kafkaLogBuffer = (buffer, records) →
      Turned env x turn
        { connection := c', listening := if c'.phase ∈ serverTransitionPhases then .client else .server,
          kafkaLogBuffer := buffer }
        { toClient := generateOutgoingFrame packets, toServer := [], records } turn.shared
  | answered {c c' : Connection} {r : SocketRead} {origin : Origin} {packets : List Packet} {i : Intercepted}
      {response : Bytes} : x.listening = .client →
      receive env { x with connection := x.connection.sharing turn.shared } turn.read = .bytes c r origin →
      processIncomingFrame env r.buf c r.readBytes = some (c', packets) →
      interceptIfEnabled env c' packets turn.shared.drawn turn.shared.globalCounter = some i → i.response = some response →
      Turned env x turn { x with connection := i.connection } { toClient := response, toServer := [], records := [] }
        { turn.shared with diff := i.connection.diff, drawn := i.drawn, globalCounter := i.globalCounter }
  | unanswered {c c' : Connection} {r : SocketRead} {origin : Origin} {packets : List Packet} {i : Intercepted} :
      x.listening = .client →
      receive env { x with connection := x.connection.sharing turn.shared } turn.read = .bytes c r origin →
      processIncomingFrame env r.buf c r.readBytes = some (c', packets) →
      interceptIfEnabled env c' packets turn.shared.drawn turn.shared.globalCounter = some i → i.response = none →
      Turned env x turn (afterClientFrame { x with connection := c } i.connection)
        { toClient := [], records := []
          toServer := if sendCommandToServer i.connection then generateOutgoingFrame packets else [] }
        { turn.shared with diff := i.connection.diff, drawn := i.drawn, globalCounter := i.globalCounter }

/-- **One turn** that does not panic. -/
theorem exchangeStep_turned {env : Env} {x x' : Exchange} {turn : Turn} {output : Output} {shared : Shared}
    (h : exchangeStep env x turn = some (x', output, shared)) : Turned env x turn x' output shared := by
  unfold exchangeStep at h
  dsimp only at h
  split at h
  · cases h
  · rename_i hwait
    cases h
    exact .waiting hwait
  · rename_i c r origin hreceive
    split at h
    · rename_i hserver
      obtain ⟨⟨x₁, output₁⟩, hturn, he⟩ := Option.map_eq_some_iff.1 h
      cases he
      simp only [serverTurn, Option.bind_eq_bind, Option.bind_eq_some_iff] at hturn
      obtain ⟨⟨c', packets⟩, hframe, he⟩ := hturn
      cases he
      exact .server hserver hreceive hframe rfl
    · rename_i hclient
      obtain ⟨⟨x₁, output₁, drawn, counter⟩, hturn, he⟩ := Option.map_eq_some_iff.1 h
      cases he
      simp only [clientTurn, Option.bind_eq_bind, Option.bind_eq_some_iff] at hturn
      obtain ⟨⟨c', packets⟩, hframe, i, hi, hturn⟩ := hturn
      split at hturn
      · rename_i response hresponse
        cases hturn
        exact .answered hclient hreceive hframe hi hresponse
      · rename_i hnone
        cases hturn
        rw [afterClientFrame_connection]
        exact .unanswered hclient hreceive hframe hi hnone

/-- Nothing but waiting, or one frame, after which `intercept_command` may write to the connection. -/
theorem exchangeStep_cases {env : Env} {x x' : Exchange} {turn : Turn} {output : Output} {shared : Shared}
    (h : exchangeStep env x turn = some (x', output, shared)) :
    (receive env { x with connection := x.connection.sharing turn.shared } turn.read = .waiting ∧
      x'.connection = x.connection.sharing turn.shared) ∨
      ∃ c r origin c' packets,
        receive env { x with connection := x.connection.sharing turn.shared } turn.read = .bytes c r origin ∧
        processIncomingFrame env r.buf c r.readBytes = some (c', packets) ∧
        (x'.connection = c' ∨ ∃ i, x'.connection = i.connection ∧
          interceptIfEnabled env c' packets turn.shared.drawn turn.shared.globalCounter = some i) := by
  cases exchangeStep_turned h with
  | waiting hwait => exact .inl ⟨hwait, rfl⟩
  | server _ hreceive hframe _ => exact .inr ⟨_, _, _, _, _, hreceive, hframe, .inl rfl⟩
  | answered _ hreceive hframe hi _ => exact .inr ⟨_, _, _, _, _, hreceive, hframe, .inr ⟨_, rfl, hi⟩⟩
  | unanswered _ hreceive hframe hi _ =>
    exact .inr ⟨_, _, _, _, _, hreceive, hframe, .inr ⟨_, afterClientFrame_connection _ _, hi⟩⟩

/-- **Every turn of the exchange loop is a run of this system.** -/
theorem exchangeStep_steps {env : Env} {x x' : Exchange} {turn : Turn} {output : Output} {shared : Shared}
    (h : exchangeStep env x turn = some (x', output, shared)) :
    ReflTransGen (ConnStep env) (x.connection, []) (x'.connection, []) := by
  have hshared : ReflTransGen (ConnStep env) (x.connection, []) (x.connection.sharing turn.shared, []) :=
    .single (.shared _ _ x.connection.partialReplayBytes)
  rcases exchangeStep_cases h with ⟨_, hx⟩ | ⟨c, r, origin, c', packets, hreceive, hframe, hx⟩
  · rw [hx]; exact hshared
  · have hsteps := hshared.trans ((receive_steps hreceive).trans (frame_steps hframe))
    rcases hx with hx | ⟨i, hx, hi⟩
    · rw [hx]; exact hsteps
    · rw [hx]; exact hsteps.trans (interceptIfEnabled_steps hi)

/-! ## The invariant -/

structure Connection.Wf (c : Connection) : Prop where
  /-- Past the handshake response there is one, of the 4.1 protocol. -/
  negotiated : c.phase ≠ .handshake → c.phase ≠ .handshakeResponse →
    ∃ hr, c.handshakeResponse = some hr ∧ hasFlag hr.clientFlag .clientProtocol41
  /-- A response is pending for some command. -/
  commanded : c.phase = .pendingResponse → ∃ command, c.lastCommand = some command

theorem Consumed.wf {c c' : Connection} {p : Packet} (h : Consumed c p c') (hc : c.Wf) : c'.Wf := by
  cases h with
  | handshake h hphase => exact ⟨fun _ hne => absurd rfl hne, by simp⟩
  | handshakeResponse hr phase hphase hnext hflag =>
    refine ⟨fun _ _ => ⟨hr, rfl, hflag⟩, fun hp => ?_⟩
    rcases hnext with rfl | rfl <;> cases hp
  | auth phase hphase hnext =>
    refine ⟨fun _ _ => hc.negotiated ?_ ?_, fun hp => ?_⟩
    · rintro he; rcases hphase with h | h | h <;> simp [he] at h
    · rintro he; rcases hphase with h | h | h <;> simp [he] at h
    · simp only at hp
      subst hp
      rcases hnext with (h | h | h) | h | ⟨h, _⟩ <;> cases h
  | command command phase hphase hnext =>
    exact ⟨fun _ _ => hc.negotiated (by simp [hphase]) (by simp [hphase]), fun _ => ⟨command, rfl⟩⟩
  | response self phase hphase hnext =>
    exact ⟨fun _ _ => hc.negotiated (by simp [hphase]) (by simp [hphase]), fun _ => hc.commanded hphase⟩

theorem withResidual_wf {c : Connection} (hc : c.Wf) (residual : Bytes) : (c.withResidual residual).Wf := by
  rw [Connection.withResidual_eq]
  exact ⟨hc.negotiated, hc.commanded⟩

/-- **The invariant is kept by every step.** -/
theorem ConnStep.wf {env : Env} {s s' : Connection × List Packet} (h : ConnStep env s s') (hs : s.1.Wf) :
    s'.1.Wf := by
  cases h with
  | read r hmake =>
    obtain ⟨rfl, _⟩ := makePackets_some hmake
    exact withResidual_wf hs _
  | packet hp => exact (consumePacket_consumed hp).wf hs
  | intercept hphase => exact ⟨fun _ _ => hs.negotiated (by simp [hphase]) (by simp [hphase]), by simp⟩
  | tls hphase => exact ⟨fun _ hne => absurd rfl hne, by simp [switchToTls]⟩
  | shared diff replay rest => exact ⟨hs.negotiated, hs.commanded⟩

theorem Reachable.wf {env : Env} {s : Connection × List Packet} (h : Reachable env s) : s.1.Wf := by
  obtain ⟨server, client, diff, replay, kafka, h⟩ := h
  induction h with
  | refl => exact ⟨fun hne => absurd rfl hne, by simp [Connection.new]⟩
  | tail _ hstep ih => exact hstep.wf ih

/-! ## Past `AuthInit` -/

/-- The phases before authentication starts. -/
def Phase.Early (phase : Phase) : Prop :=
  phase = .handshake ∨ phase = .handshakeResponse ∨ phase = .tlsExchange

/-- Past `AuthInit` a step goes on past it, and leaves the two handshakes alone. -/
theorem ConnStep.late {env : Env} {s s' : Connection × List Packet} (h : ConnStep env s s')
    (hs : ¬ s.1.phase.Early) :
    ¬ s'.1.phase.Early ∧ s'.1.handshake = s.1.handshake ∧ s'.1.handshakeResponse = s.1.handshakeResponse := by
  cases h with
  | read r hmake =>
    obtain ⟨rfl, _⟩ := makePackets_some hmake
    rw [Connection.withResidual_eq]
    exact ⟨hs, rfl, rfl⟩
  | packet hp =>
    cases consumePacket_consumed hp with
    | handshake _ hphase => exact absurd (.inl hphase) hs
    | handshakeResponse _ _ hphase => exact absurd (.inr (.inl hphase)) hs
    | auth phase hphase hnext =>
      refine ⟨?_, rfl, rfl⟩
      rcases hnext with (rfl | rfl | rfl) | rfl | ⟨rfl, _⟩ <;> simp [Phase.Early]
    | command _ phase hphase hnext => refine ⟨?_, rfl, rfl⟩; rcases hnext with rfl | rfl <;> simp [Phase.Early]
    | response _ phase hphase hnext => refine ⟨?_, rfl, rfl⟩; rcases hnext with rfl | rfl <;> simp [Phase.Early]
  | intercept hphase => exact ⟨by simp [Phase.Early], rfl, rfl⟩
  | tls hphase => exact absurd (.inr (.inr hphase)) hs
  | shared diff replay rest => exact ⟨hs, rfl, rfl⟩

theorem steps_late {env : Env} {s s' : Connection × List Packet} (h : ReflTransGen (ConnStep env) s s')
    (hs : ¬ s.1.phase.Early) :
    ¬ s'.1.phase.Early ∧ s'.1.handshake = s.1.handshake ∧ s'.1.handshakeResponse = s.1.handshakeResponse := by
  induction h with
  | refl => exact ⟨hs, rfl, rfl⟩
  | tail _ hstep ih =>
    obtain ⟨hearly, hh, hr⟩ := ih
    obtain ⟨hearly', hh', hr'⟩ := hstep.late hearly
    exact ⟨hearly', hh'.trans hh, hr'.trans hr⟩

/-- **The connection invariant**, in every reachable state: (i) past the handshake response a
4.1 handshake response is stored; (ii) a pending response has its command; (iii) a packet consumed in
`Command` leaves a fresh response accumulator; (iv) from `AuthInit` on both handshakes are fixed and
the phases before it do not return. So neither `unwrap` of the response path can fail. -/
theorem connection_invariant {env : Env} {s : Connection × List Packet} (h : Reachable env s) :
    (s.1.phase ≠ .handshake → s.1.phase ≠ .handshakeResponse →
      ∃ hr, s.1.handshakeResponse = some hr ∧ hasFlag hr.clientFlag .clientProtocol41) ∧
    (s.1.phase = .pendingResponse → ∃ command, s.1.lastCommand = some command) ∧
    (∀ p c' out, s.1.phase = .command → consumePacket env s.1 p = some (c', out) → c'.queryResponse = .default) ∧
    (s.1.phase = .authInit → ∀ s', ReflTransGen (ConnStep env) s s' →
      s'.1.phase ∉ [Phase.handshake, .handshakeResponse, .tlsExchange] ∧
        s'.1.handshake = s.1.handshake ∧ s'.1.handshakeResponse = s.1.handshakeResponse) ∧
    (s.1.phase = .pendingResponse → ∃ command flag, s.1.lastCommand = some command ∧ s.1.clientFlag = some flag) := by
  have hwf := h.wf
  refine ⟨hwf.negotiated, hwf.commanded, ?_, ?_, ?_⟩
  · intro p c' out hphase hp
    cases consumePacket_consumed hp with
    | command => rfl
    | handshake _ hp' | handshakeResponse _ _ hp' | response _ _ hp' => rw [hphase] at hp'; cases hp'
    | auth _ hp' => rcases hp' with h | h | h <;> rw [hphase] at h <;> cases h
  · intro hphase s' hsteps
    obtain ⟨hlate, hh, hr⟩ := steps_late hsteps (by simp [Phase.Early, hphase])
    refine ⟨?_, hh, hr⟩
    simpa [Phase.Early] using hlate
  · intro hphase
    obtain ⟨command, hc⟩ := hwf.commanded hphase
    obtain ⟨hr, hhr, _⟩ := hwf.negotiated (by simp [hphase]) (by simp [hphase])
    exact ⟨command, hr.clientFlag, hc, by rw [Connection.clientFlag, hhr]; rfl⟩

/-- A server's greeting, without CLIENT_PLUGIN_AUTH. -/
def sampleGreeting : Bytes :=
  [47, 0, 0, 0] ++ ([0x0a, 0x38, 0x00] ++ [1, 0, 0, 0] ++ List.replicate 8 0x61 ++ [0x00, 0x00, 0x02, 0x21, 2, 0, 0, 0, 0] ++
    List.replicate 10 0x00 ++ List.replicate 13 0x61)

/-- A client's answer: user "a", no password, CLIENT_PROTOCOL_41 alone. -/
def sampleAnswer : Bytes :=
  [35, 0, 0, 1] ++ ([0, 2, 0, 0, 0, 0, 0, 1, 0x21] ++ List.replicate 23 0x00 ++ [0x61, 0x00, 0x00])

/-- Greeting and answer take a connection to `AuthInit`. -/
theorem connection_invariant_authInit :
    ∃ s, Reachable sampleEnv s ∧ s.1.phase = .authInit ∧
      ∃ hr, s.1.handshakeResponse = some hr ∧ hasFlag hr.clientFlag .clientProtocol41 := by
  have hreads : ∃ c₁ out₁ c₂ out₂,
      processIncomingFrame sampleEnv sampleGreeting (.new .plain .plain ∅ none none) 51 = some (c₁, out₁) ∧
      processIncomingFrame sampleEnv sampleAnswer c₁ 39 = some (c₂, out₂) ∧ c₂.phase = .authInit :=
    ⟨_, _, _, _, rfl, rfl, rfl⟩
  obtain ⟨c₁, out₁, c₂, out₂, h₁, h₂, hphase⟩ := hreads
  have hreach : Reachable sampleEnv (c₂, []) := ⟨.plain, .plain, ∅, none, none,
    (frame_steps (r := ⟨sampleGreeting, 51, by decide⟩) h₁).trans (frame_steps (r := ⟨sampleAnswer, 39, by decide⟩) h₂)⟩
  exact ⟨(c₂, []), hreach, hphase, (connection_invariant hreach).1 (by simp [hphase]) (by simp [hphase])⟩

end MocksySql
