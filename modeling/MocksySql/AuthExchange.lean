import MocksySql.AuthGate
/-!
# The connection phase behind the handshake response

The grammar of the authentication rounds (`AuthScript`) is the protocol's; the automaton `authNext` is
what the phases `AuthInit`, `AuthSwitchResponse` and `AuthComplete` make of one packet. The exchange loop
takes each packet, over any reads, to where the automaton goes and listens to the peer that the phase
waits for (`run_message`).

* `auth_exchange_iff` — the exchanges that are carried through: no round after an auth switch, no request
  of the public key, text in the switch request, and no empty packet of the client.
* `auth_switch_then_fast` — a switch to `caching_sha2_password` that hits the server's cache is not.
-/

namespace MocksySql
open FieldDecode PartialRun ByteStream

/-! ## The grammar -/

/-- A packet, and the peer it comes from. -/
structure Message where
  sender : Side
  seq : UInt8
  body : Bytes
deriving DecidableEq, Repr

def Message.frame (m : Message) : Frame := (⟨m.body.length, m.seq⟩, m.body)

/-- AuthSwitchRequest and the client's answer. -/
structure SwitchRound where
  seq : UInt8
  pluginName : Bytes
  pluginData : Bytes
  answerSeq : UInt8
  answer : Bytes

def SwitchRound.messages (r : SwitchRound) : List Message :=
  [⟨.server, r.seq, 0xfe :: (r.pluginName ++ 0x00 :: r.pluginData)⟩, ⟨.client, r.answerSeq, r.answer⟩]

/-- The client's request of the public key, and the key. -/
structure KeyRound where
  requestSeq : UInt8
  request : Bytes
  keySeq : UInt8
  key : Bytes

def KeyRound.messages (r : KeyRound) : List Message :=
  [⟨.client, r.requestSeq, r.request⟩, ⟨.server, r.keySeq, 0x01 :: r.key⟩]

/-- What follows: the password is in the server's cache, or the client has to send it. -/
inductive MoreRound where
  | fast (seq : UInt8)
  | full (seq : UInt8) (key : Option KeyRound) (answerSeq : UInt8) (answer : Bytes)

def MoreRound.messages : MoreRound → List Message
  | .fast seq => [⟨.server, seq, [0x01, 0x03]⟩]
  | .full seq key answerSeq answer =>
    ⟨.server, seq, [0x01, 0x04]⟩ :: ((key.map KeyRound.messages).getD [] ++ [⟨.client, answerSeq, answer⟩])

/-- An exchange of the connection phase behind the handshake response. -/
structure AuthScript where
  switch : Option SwitchRound
  more : Option MoreRound
  finalSeq : UInt8
  final : Bytes

def AuthScript.messages (s : AuthScript) : List Message :=
  (s.switch.map SwitchRound.messages).getD [] ++ ((s.more.map MoreRound.messages).getD [] ++
    [⟨.server, s.finalSeq, s.final⟩])

/-- An OK packet has seven bytes or more. -/
def IsOk (body : Bytes) : Prop := 7 ≤ body.length ∧ body.head? = some 0x00

def IsErr (body : Bytes) : Prop := body.head? = some 0xff

structure AuthScript.WellFormed (s : AuthScript) : Prop where
  /-- The plugin's name ends at its first NUL. -/
  pluginName : ∀ r ∈ s.switch, (0x00 : UInt8) ∉ r.pluginName
  final : IsOk s.final ∨ IsErr s.final
  sizes : ∀ m ∈ s.messages, m.body.length < 256 ^ 3

/-! ## The automaton -/

/-- The peer whose packet a phase waits for. -/
def Phase.speaker : Phase → Side
  | .handshakeResponse | .tlsExchange | .authSwitchResponse | .command => .client
  | _ => .server

def authConsume : Phase → Packet → Option Phase
  | .authInit => AuthInitAccumulator.consume
  | .authSwitchResponse => AuthSwitchResponseAccumulator.consume
  | .authComplete => AuthCompleteAccumulator.consume
  | _ => fun _ => none

/-- One packet of the authentication, as `Packet::from_bytes` types it; `none` is a panic. -/
def authNext (phase : Phase) (m : Message) : Option Phase :=
  (m.frame.toPacket phase).bind (authConsume phase)

/-! ## The loop follows the automaton -/

/-- In this phase of the authentication, these bytes of the next packet having come in. -/
structure Authenticates (x : Exchange) (current : Phase) (held : Bytes) : Prop where
  phase : x.connection.phase = current
  listening : x.listening = current.speaker
  last : x.connection.lastCommand = none
  held : x.connection.partialBytes.getD [] = held

/-- These turns bring this message, in any number of reads. -/
structure Carries (turns : List Turn) (m : Message) : Prop where
  stream : (turns.map (·.read.chunk)).flatten = m.frame.toBytes
  nonempty : ∀ t ∈ turns, t.read.readBytes ≠ 0

/-- The messages go through, each read from the peer that sends it. -/
def Follows (env : Env) : Exchange → List (Message × List Turn) → Exchange → Prop
  | x, [], x' => x' = x
  | x, (m, turns) :: rest, x' =>
    ∃ x₁ outs, run (exchangeStep env) x turns = some (x₁, outs) ∧
      (∀ e ∈ transcript (exchangeStep env) x turns, e.before.listening = m.sender) ∧ Follows env x₁ rest x'

section
variable {env : Env} {x : Exchange} {phase : Phase} {held : Bytes}

theorem Phase.Authenticating.ne {phase : Phase} (h : phase.Authenticating) :
    phase ≠ .pendingResponse ∧ phase ≠ .tlsExchange := by
  rcases h with rfl | rfl | rfl <;> simp

theorem consumePacket_auth {c : Connection} (hphase : c.phase.Authenticating) {p : Packet} (hskip : p.skip = false) :
    consumePacket env c p = (authConsume c.phase p).map fun phase => ({ c with phase }, some p) := by
  unfold consumePacket accumulate
  rcases hphase with h | h | h <;> rw [h] <;> simp only [authConsume, Option.map_map, Function.comp_def, hskip] <;> rfl

/-- Where a packet of the authentication can lead. -/
theorem authConsume_cases {p : Packet} {phase' : Phase} (hphase : phase.Authenticating)
    (h : authConsume phase p = some phase') :
    (phase' = .authInit ∨ phase' = .authSwitchResponse ∨ phase' = .authComplete ∨ phase' = .command ∨ phase' = .authFailed) ∧
      (phase = .authSwitchResponse → phase' = .authComplete) := by
  rcases hphase with rfl | rfl | rfl
  · rcases AuthInitAccumulator.consume_cases h with (h | h | h) | h | ⟨h, _⟩ <;> simp [h]
  · cases h; simp
  · rcases AuthCompleteAccumulator.consume_cases h with h | ⟨h, _⟩ <;> simp [h]

theorem receive_auth (hx : Authenticates x phase held) (hphase : phase.Authenticating) (shared : Shared)
    {read : SocketRead} (hread : read.readBytes ≠ 0) :
    ∃ origin, receive env { x with connection := x.connection.sharing shared } read =
      .bytes (x.connection.sharing shared) read origin := by
  have hlive : getResponseFromCache env (x.connection.sharing shared) read.buf.length = .notReplayed := by
    simp [getResponseFromCache, Connection.sharing, hx.last]
  have hplain : switchIfAgreed env (x.connection.sharing shared) = x.connection.sharing shared := by
    refine switchIfAgreed_of_ne fun h => hphase.ne.2 ?_
    rw [← hx.phase]
    exact h
  unfold receive
  cases x.listening with
  | server => exact ⟨.server, by simp only [hlive]; rw [if_neg hread]⟩
  | client => exact ⟨.client, by simp only [hplain]; rw [if_neg hread]⟩

/-- The loop goes on listening to the peer that the phase waits for. -/
theorem exchangeStep_auth (hx : Authenticates x phase held) (hphase : phase.Authenticating) {turn : Turn}
    (hread : turn.read.readBytes ≠ 0) :
    (processIncomingFrame env turn.read.buf (x.connection.sharing turn.shared) turn.read.readBytes = none →
      exchangeStep env x turn = none) ∧
    ∀ c' packets, processIncomingFrame env turn.read.buf (x.connection.sharing turn.shared) turn.read.readBytes =
        some (c', packets) →
      (c'.phase.Authenticating ∨ phase ≠ .authSwitchResponse ∧ (c'.phase = .command ∨ c'.phase = .authFailed)) →
      (phase = .authSwitchResponse → c'.phase ≠ .authInit) →
      ∃ x' out, exchangeStep env x turn = some (x', out) ∧ x'.connection = c' ∧ x'.listening = c'.phase.speaker := by
  obtain ⟨origin, hreceive⟩ := @receive_auth env x phase held hx hphase turn.shared turn.read hread
  refine ⟨fun hnone => ?_, fun c' packets hframe hnext hinit => ?_⟩
  · unfold exchangeStep
    simp only [hreceive]
    cases x.listening <;> simp [serverTurn, clientTurn, hnone]
  · have hidle : ∀ drawn counter, interceptIfEnabled env c' packets drawn counter =
        some { connection := c', drawn, globalCounter := counter, response := none } := by
      intro drawn counter
      have hpending : c'.phase ≠ .pendingResponse := by
        rcases hnext with h | ⟨_, h | h⟩
        · exact h.ne.1
        · simp [h]
        · simp [h]
      simp [interceptIfEnabled, interceptCommand, hpending]
    unfold exchangeStep
    simp only [hreceive]
    by_cases hclient : phase = .authSwitchResponse
    · have hlistening : x.listening = .client := by rw [hx.listening, hclient]; rfl
      have hnext' : c'.phase = .authSwitchResponse ∨ c'.phase = .authComplete := by
        rcases hnext with (h | h | h) | ⟨hne, _⟩
        · exact absurd h (hinit hclient)
        · exact .inl h
        · exact .inr h
        · exact absurd hclient hne
      refine ⟨afterClientFrame { x with connection := x.connection.sharing turn.shared } c', _,
        by simp only [hlistening, clientTurn, hframe, hidle, Option.bind_eq_bind, Option.bind_some, Option.map_some]; rfl,
        afterClientFrame_connection _ _, ?_⟩
      unfold afterClientFrame
      rcases hnext' with h | h <;> simp [h, clientTransitionPhases, Phase.speaker, hlistening]
    · have hlistening : x.listening = .server := by
        rw [hx.listening]
        rcases hphase with rfl | rfl | rfl
        · rfl
        · exact absurd rfl hclient
        · rfl
      refine ⟨_, _, by simp only [hlistening, serverTurn, hframe]; rfl, rfl, ?_⟩
      rcases hnext with (h | h | h) | ⟨_, h | h⟩ <;> simp [h, serverTransitionPhases, Phase.speaker]

/-! ## One message -/

/-- A read that ends inside the packet is held back. -/
theorem processIncomingFrame_part {c : Connection} {m : Message} {r : SocketRead} {more : Bytes}
    (hsize : m.body.length < 256 ^ 3)
    (hstream : c.partialBytes.getD [] ++ r.chunk ++ more = m.frame.toBytes) (hmore : more ≠ []) :
    processIncomingFrame env r.buf c r.readBytes = some (c.withResidual (c.partialBytes.getD [] ++ r.chunk), []) := by
  have hnext : frames.next (m.frame.toBytes ++ []) = some (m.frame, []) := nextFrame_toBytes rfl hsize []
  rw [List.append_nil, ← hstream] at hnext
  have hpart := frames.split_of_part hnext (List.length_pos_of_ne_nil hmore)
  simp [processIncomingFrame, makePackets_eq, hpart, InOrder]

/-- The read that completes it takes the phase where the automaton goes. -/
theorem processIncomingFrame_message {c : Connection} (hphase : c.phase.Authenticating) {m : Message} {r : SocketRead}
    (hsize : m.body.length < 256 ^ 3) (hstream : c.partialBytes.getD [] ++ r.chunk = m.frame.toBytes) :
    (processIncomingFrame env r.buf c r.readBytes).map (·.1) =
      (authNext c.phase m).map fun phase => { c with phase, partialBytes := none } := by
  have hsplit : frames.split (c.partialBytes.getD [] ++ r.chunk) = ([m.frame], []) := by
    have hnext : frames.next (m.frame.toBytes ++ []) = some (m.frame, []) := nextFrame_toBytes rfl hsize []
    rw [List.append_nil] at hnext
    rw [hstream, frames.split_of_some hnext, frames.split_nil]
  cases hp : m.frame.toPacket c.phase with
  | none => simp [processIncomingFrame, makePackets_eq, hsplit, hp, authNext]
  | some p =>
    have hmake : makePackets r.buf c r.readBytes = some (c.withResidual [], [p]) := by
      rw [makePackets_eq]
      simp [hsplit, hp, InOrder]
    have hconsume := @consumePacket_auth env (c.withResidual []) (by simpa using hphase) p (Frame.toPacket_fresh hp).2
    simp only [processIncomingFrame, hmake, Option.bind_eq_bind, Option.bind_some, run_singleton, hconsume,
      Connection.withResidual_phase, authNext, hp]
    cases authConsume c.phase p with
    | none => rfl
    | some phase' => simp [Connection.withResidual_eq]

/-- A read that leaves the rest of the message for later. -/
theorem exchangeStep_part (hphase : phase.Authenticating) (hx : Authenticates x phase held) {m : Message}
    (hsize : m.body.length < 256 ^ 3) {turn : Turn} (hread : turn.read.readBytes ≠ 0) {more : Bytes}
    (hstream : held ++ turn.read.chunk ++ more = m.frame.toBytes) (hmore : more ≠ []) :
    ∃ x' out, exchangeStep env x turn = some (x', out) ∧ Authenticates x' phase (held ++ turn.read.chunk) := by
  have hheld : (x.connection.sharing turn.shared).partialBytes.getD [] = held := hx.held
  have hcurrent : (x.connection.sharing turn.shared).phase = phase := hx.phase
  have hframe := @processIncomingFrame_part env (x.connection.sharing turn.shared) m turn.read _ hsize
    (by rw [hheld]; exact hstream) hmore
  rw [hheld] at hframe
  obtain ⟨x', out, hstep, hconnection, hlistening⟩ := (exchangeStep_auth hx hphase hread).2 _ [] hframe
    (.inl (by rw [Connection.withResidual_phase, hcurrent]; exact hphase))
    (fun hs => by rw [Connection.withResidual_phase, hcurrent, hs]; simp)
  rw [Connection.withResidual_phase, hcurrent] at hlistening
  refine ⟨x', out, hstep, by rw [hconnection, Connection.withResidual_phase, hcurrent], hlistening, ?_, ?_⟩
  · rw [hconnection, Connection.withResidual_eq]; exact hx.last
  · rw [hconnection, Connection.withResidual_partialBytes]

/-- The read that completes it. -/
theorem exchangeStep_message (hphase : phase.Authenticating) (hx : Authenticates x phase held) {m : Message}
    (hsize : m.body.length < 256 ^ 3) {turn : Turn} (hread : turn.read.readBytes ≠ 0)
    (hstream : held ++ turn.read.chunk = m.frame.toBytes) :
    (authNext phase m = none → exchangeStep env x turn = none) ∧
      ∀ phase', authNext phase m = some phase' →
        ∃ x' out, exchangeStep env x turn = some (x', out) ∧ Authenticates x' phase' [] := by
  have hheld : (x.connection.sharing turn.shared).partialBytes.getD [] = held := hx.held
  have hcurrent : (x.connection.sharing turn.shared).phase = phase := hx.phase
  obtain ⟨hpanics, hgoes⟩ := @exchangeStep_auth env x phase held hx hphase turn hread
  have hmessage := @processIncomingFrame_message env (x.connection.sharing turn.shared) (by rw [hcurrent]; exact hphase)
    m turn.read hsize (by rw [hheld]; exact hstream)
  rw [hcurrent] at hmessage
  refine ⟨fun hnone => ?_, fun phase' hnext => ?_⟩
  · rw [hnone, Option.map_none, Option.map_eq_none_iff] at hmessage
    exact hpanics hmessage
  · rw [hnext, Option.map_some, Option.map_eq_some_iff] at hmessage
    obtain ⟨⟨c', packets⟩, hframe, rfl⟩ := hmessage
    obtain ⟨p, _, hconsume⟩ := Option.bind_eq_some_iff.1 hnext
    obtain ⟨hcases, hswitch⟩ := authConsume_cases hphase hconsume
    obtain ⟨x', out, hstep, hconnection, hlistening⟩ := hgoes _ packets hframe (by
      by_cases hs : phase = .authSwitchResponse
      · left; rw [hswitch hs]; exact .inr (.inr rfl)
      · rcases hcases with h | h | h | h | h
        · exact .inl (.inl h)
        · exact .inl (.inr (.inl h))
        · exact .inl (.inr (.inr h))
        · exact .inr ⟨hs, .inl h⟩
        · exact .inr ⟨hs, .inr h⟩) (fun hs => by simp [hswitch hs])
    exact ⟨x', out, hstep, by rw [hconnection], hlistening, by rw [hconnection]; exact hx.last, by rw [hconnection]; rfl⟩

/-- No read is empty. -/
theorem eq_nil_of_chunks {turns : List Turn} (hreads : ∀ t ∈ turns, t.read.readBytes ≠ 0)
    (hnone : (turns.map (·.read.chunk)).flatten = []) : turns = [] := by
  cases turns with
  | nil => rfl
  | cons t ts =>
    have hnil : t.read.chunk = [] := (List.append_eq_nil_iff.1 hnone).1
    have hlen := congrArg List.length hnil
    have hinside := t.read.inside
    have hne := hreads t (by simp)
    rw [SocketRead.chunk, List.length_take, List.length_nil] at hlen
    omega

/-- **The loop follows the automaton**, over any reads. -/
theorem run_message (hphase : phase.Authenticating) {m : Message} (hsize : m.body.length < 256 ^ 3) :
    ∀ {turns : List Turn} {x : Exchange} {held : Bytes}, Authenticates x phase held →
      held ++ (turns.map (·.read.chunk)).flatten = m.frame.toBytes → held.length < m.frame.toBytes.length →
      (∀ t ∈ turns, t.read.readBytes ≠ 0) →
      (authNext phase m = none → run (exchangeStep env) x turns = none) ∧
      ∀ phase', authNext phase m = some phase' → ∃ x' outs, run (exchangeStep env) x turns = some (x', outs) ∧
        Authenticates x' phase' [] ∧ ∀ e ∈ transcript (exchangeStep env) x turns, e.before.listening = phase.speaker
  | [], x, held, hx, hstream, hshort, _ => by
    simp only [List.map_nil, List.flatten_nil, List.append_nil] at hstream
    rw [hstream] at hshort
    exact absurd hshort (Nat.lt_irrefl _)
  | turn :: turns, x, held, hx, hstream, hshort, hreads => by
    simp only [List.map_cons, List.flatten_cons, ← List.append_assoc] at hstream
    have hread := hreads turn (by simp)
    by_cases hmore : (turns.map (·.read.chunk)).flatten = []
    · obtain rfl := eq_nil_of_chunks (fun t ht => hreads t (List.mem_cons_of_mem _ ht)) hmore
      rw [hmore, List.append_nil] at hstream
      obtain ⟨hnone, hsome⟩ := @exchangeStep_message env x phase held hphase hx m hsize turn hread hstream
      refine ⟨fun h => by rw [run_singleton, hnone h]; rfl, fun phase' h => ?_⟩
      obtain ⟨x', out, hstep, hx'⟩ := hsome phase' h
      refine ⟨x', [out], by rw [run_singleton, hstep]; rfl, hx', ?_⟩
      rw [transcript_cons hstep]
      simp [transcript, hx.listening]
    · obtain ⟨x₁, out, hstep, hx₁⟩ := @exchangeStep_part env x phase held hphase hx m hsize turn hread _ hstream hmore
      have hshort' : (held ++ turn.read.chunk).length < m.frame.toBytes.length := by
        have hlen := congrArg List.length hstream
        have hpos := List.length_pos_of_ne_nil hmore
        rw [List.length_append] at hlen
        omega
      obtain ⟨hnone, hsome⟩ := run_message hphase hsize hx₁ hstream hshort'
        fun t ht => hreads t (List.mem_cons_of_mem _ ht)
      refine ⟨fun h => ?_, fun phase' h => ?_⟩
      · rw [run_cons hstep, hnone h]
        rfl
      · obtain ⟨x', outs, hrun, hx', htranscript⟩ := hsome phase' h
        refine ⟨x', out :: outs, by rw [run_cons hstep, hrun]; rfl, hx', ?_⟩
        rw [transcript_cons hstep]
        intro e he
        rcases List.mem_cons.1 he with rfl | he
        · exact hx.listening
        · exact htranscript e he

/-! ## What the automaton makes of each message -/

theorem authNext_eq {m : Message} (hne : m.body ≠ []) : ∃ p : Packet, p.body = m.body ∧
    getPacketType m.body phase = some p.pType ∧ authNext phase m = authConsume phase p := by
  obtain ⟨p, hp⟩ := Option.isSome_iff_exists.1 ((Frame.toPacket_isSome phase (f := m.frame)).2 hne)
  refine ⟨p, (Frame.toPacket_fresh hp).1, ?_, by rw [authNext, hp]; rfl⟩
  obtain ⟨_, htype, rfl⟩ := Option.map_eq_some_iff.1 hp
  exact htype

theorem authNext_answer {m : Message} (hne : m.body ≠ []) : authNext .authSwitchResponse m = some .authComplete := by
  obtain ⟨p, _, _, hp⟩ := @authNext_eq .authSwitchResponse m hne
  exact hp

/-- A switch is understood if the plugin's name and data are text. -/
theorem authNext_switch {r : SwitchRound} (hname : (0x00 : UInt8) ∉ r.pluginName) :
    authNext .authInit ⟨.server, r.seq, 0xfe :: (r.pluginName ++ 0x00 :: r.pluginData)⟩ =
      (fromUtf8 r.pluginName).bind fun _ => (fromUtf8 r.pluginData).map fun _ => .authSwitchResponse := by
  obtain ⟨p, hbody, _, hp⟩ := @authNext_eq .authInit ⟨.server, r.seq, 0xfe :: (r.pluginName ++ 0x00 :: r.pluginData)⟩ (by simp)
  rw [hp, authConsume, AuthInitAccumulator.consume, hbody]
  simp only [List.head?_cons, if_true, AuthSwitchRequestAccumulator.consume, hbody]
  have hplugin : field (0xfe :: (r.pluginName ++ 0x00 :: r.pluginData)) (StringNullEnc.fromBytes · none) 1 =
      (fromUtf8 r.pluginName).map fun name => (name, r.pluginName.length + 2) := by
    simp only [field, sliceFrom, List.length_cons, Nat.le_add_left, if_true, List.drop_succ_cons, List.drop_zero,
      Option.bind_eq_bind, Option.bind_some, StringNullEnc.fromBytes_eq hname]
    cases fromUtf8 r.pluginName <;> simp
    omega
  have hdata : field (0xfe :: (r.pluginName ++ 0x00 :: r.pluginData)) (StringEOFEnc.fromBytes · none)
      (r.pluginName.length + 2) = (fromUtf8 r.pluginData).map fun s =>
        (s, (0xfe :: (r.pluginName ++ 0x00 :: r.pluginData)).length) := by
    have hdrop : (0xfe :: (r.pluginName ++ 0x00 :: r.pluginData)).drop (r.pluginName.length + 2) = r.pluginData := by
      rw [List.drop_succ_cons, ← List.drop_drop, List.drop_left, List.drop_succ_cons, List.drop_zero]
    rw [field, sliceFrom, if_pos (by simp), hdrop]
    simp only [StringEOFEnc.fromBytes, Option.bind_eq_bind, Option.bind_some]
    cases fromUtf8 r.pluginData <;> simp
    omega
  rw [AuthSwitchRequestAccumulator.read]
  simp only [StateT.run', bind, StateT.bind]
  rw [show field (0xfe :: (r.pluginName ++ 0x00 :: r.pluginData)) (IntFixedLen.fromBytes · (some 1)) 0 =
    some (0xfe, 1) from rfl]
  simp only [Option.bind_some, require, if_true, hplugin]
  cases fromUtf8 r.pluginName with
  | none => rfl
  | some name =>
    simp only [Option.map_some, Option.bind_some, hdata]
    cases fromUtf8 r.pluginData with
    | none => rfl
    | some s =>
      simp only [Option.map_some, Option.bind_some]
      generalize (0xfe :: (r.pluginName ++ 0x00 :: r.pluginData)).length = n
      show ((if n = n then some ((), n) else none).bind fun a => some (Phase.authSwitchResponse, a.2)).map (·.1) = _
      rw [if_pos rfl]
      rfl

/-- `AuthComplete` accepts no further round. -/
theorem authNext_more (sender : Side) (seq : UInt8) (data : Bytes) :
    authNext .authComplete ⟨sender, seq, 0x01 :: data⟩ = none := by
  obtain ⟨p, _, htype, hp⟩ := @authNext_eq .authComplete ⟨sender, seq, 0x01 :: data⟩ (by simp)
  simp only [getPacketType, List.head?_cons] at htype
  rw [if_neg (by simp), if_neg (by simp), if_neg (by decide), if_neg (by decide)] at htype
  rw [hp, authConsume, AuthCompleteAccumulator.consume, ← Option.some.inj htype]

/-- An OK packet ends the authentication, an ERR packet does not let the client in. -/
theorem authNext_final (hphase : phase = .authInit ∨ phase = .authComplete) {m : Message}
    (hfinal : IsOk m.body ∨ IsErr m.body) : ∃ phase', authNext phase m = some phase' ∧ (phase' = .command ↔ IsOk m.body) := by
  have hne : m.body ≠ [] := by
    rintro hnil
    rcases hfinal with ⟨h, _⟩ | h <;> simp [hnil, IsErr] at h
  obtain ⟨p, hbody, htype, hp⟩ := @authNext_eq phase m hne
  rcases hfinal with hok | herr
  · obtain ⟨hlen, hhead⟩ := id hok
    have hptype : p.pType = .ok := by
      simp [getPacketType, hhead, hlen] at htype
      exact htype.symm
    refine ⟨.command, ?_, by simp [hok]⟩
    rw [hp]
    rcases hphase with rfl | rfl
    · simp [authConsume, AuthInitAccumulator.consume, hbody, hhead, AuthCompleteAccumulator.consume, hptype]
    · simp [authConsume, AuthCompleteAccumulator.consume, hptype]
  · have hhead : m.body.head? = some 0xff := herr
    have hnot : ¬ IsOk m.body := by simp [IsOk, hhead]
    have hptype : p.pType = .error := by
      simp [getPacketType, hhead] at htype
      exact htype.symm
    rcases hphase with rfl | rfl
    · exact ⟨.authInit, by simp [hp, authConsume, AuthInitAccumulator.consume, hbody, hhead], by simp [hnot]⟩
    · exact ⟨.authFailed, by simp [hp, authConsume, AuthCompleteAccumulator.consume, hptype], by simp [hnot]⟩

/-! ## Messages one after the other -/

/-- The automaton over messages, each from the peer the phase waits for. -/
def authPlay : Phase → List Message → Option Phase
  | phase, [] => some phase
  | phase, m :: ms => if m.sender = phase.speaker then (authNext phase m).bind (authPlay · ms) else none

theorem authPlay_cons {m : Message} {ms : List Message} {phase' : Phase} (hsender : m.sender = phase.speaker)
    (hnext : authNext phase m = some phase') : authPlay phase (m :: ms) = authPlay phase' ms := by
  rw [authPlay, if_pos hsender, hnext]
  rfl

theorem authNext_authenticating {m : Message} {phase' : Phase} (h : authNext phase m = some phase') :
    phase.Authenticating := by
  obtain ⟨p, _, hp⟩ := Option.bind_eq_some_iff.1 h
  cases phase with
  | authInit => exact .inl rfl
  | authSwitchResponse => exact .inr (.inl rfl)
  | authComplete => exact .inr (.inr rfl)
  | _ => cases hp

theorem message_run (hx : Authenticates x phase []) (hphase : phase.Authenticating) {m : Message} {turns : List Turn}
    (hsize : m.body.length < 256 ^ 3) (hturns : Carries turns m) :
    (authNext phase m = none → run (exchangeStep env) x turns = none) ∧
      ∀ phase', authNext phase m = some phase' → ∃ x' outs, run (exchangeStep env) x turns = some (x', outs) ∧
        Authenticates x' phase' [] ∧ ∀ e ∈ transcript (exchangeStep env) x turns, e.before.listening = phase.speaker :=
  run_message hphase hsize hx (by rw [List.nil_append]; exact hturns.stream)
    (by simp [Message.frame, Frame.toBytes]) hturns.nonempty

/-- What the automaton goes through, the loop goes through. -/
theorem follows_of_play : ∀ {script : List (Message × List Turn)} {x : Exchange} {phase phase' : Phase},
    (∀ e ∈ script, Carries e.2 e.1 ∧ e.1.body.length < 256 ^ 3) → Authenticates x phase [] →
    authPlay phase (script.map (·.1)) = some phase' →
    ∃ x', Follows env x script x' ∧ Authenticates x' phase' []
  | [], x, _, _, _, hx, h => by cases h; exact ⟨x, rfl, hx⟩
  | (m, turns) :: script, x, phase, phase', hscript, hx, h => by
    rw [List.map_cons, authPlay] at h
    split_ifs at h with hsender
    obtain ⟨phase₁, hnext, hrest⟩ := Option.bind_eq_some_iff.1 h
    obtain ⟨hturns, hsize⟩ := hscript (m, turns) (by simp)
    obtain ⟨x₁, outs, hrun, hx₁, hlistens⟩ :=
      (@message_run env x phase hx (authNext_authenticating hnext) m turns hsize hturns).2 phase₁ hnext
    obtain ⟨x', hfollows, hx'⟩ := follows_of_play (fun e he => hscript e (List.mem_cons_of_mem _ he)) hx₁ hrest
    exact ⟨x', ⟨x₁, outs, hrun, fun e he => by rw [hlistens e he, hsender], hfollows⟩, hx'⟩

/-- Where the automaton is stuck, so is the loop. -/
theorem follows_stuck : ∀ {before : List Message} {script : List (Message × List Turn)} {x x' : Exchange}
    {phase phase₁ : Phase} {m : Message} {after : List Message},
    (∀ e ∈ script, Carries e.2 e.1 ∧ e.1.body.length < 256 ^ 3) → script.map (·.1) = before ++ m :: after →
    Authenticates x phase [] → authPlay phase before = some phase₁ → phase₁.Authenticating →
    authNext phase₁ m = none → ¬ Follows env x script x'
  | [], [], _, _, _, _, _, _, _, hmessages, _, _, _, _ => by cases hmessages
  | _ :: _, [], _, _, _, _, _, _, _, hmessages, _, _, _, _ => by cases hmessages
  | [], (m, turns) :: script, x, x', phase, phase₁, _, _, hscript, hmessages, hx, hplay, hphase, hnone => by
    cases hmessages
    cases hplay
    obtain ⟨hturns, hsize⟩ := hscript (m, turns) (by simp)
    rintro ⟨x₁, outs, hrun, _⟩
    rw [(@message_run env x _ hx hphase m turns hsize hturns).1 hnone] at hrun
    cases hrun
  | d :: before, (m, turns) :: script, x, x', phase, phase₁, _, _, hscript, hmessages, hx, hplay, hphase, hnone => by
    obtain ⟨rfl, htail⟩ := List.cons.inj hmessages
    rw [authPlay] at hplay
    split_ifs at hplay
    obtain ⟨phase₂, hnext, hplay⟩ := Option.bind_eq_some_iff.1 hplay
    obtain ⟨hturns, hsize⟩ := hscript (m, turns) (by simp)
    obtain ⟨x₁, outs, hrun, hx₁, _⟩ :=
      (@message_run env x phase hx (authNext_authenticating hnext) m turns hsize hturns).2 phase₂ hnext
    rintro ⟨x₂, outs₂, hrun₂, _, hfollows⟩
    rw [hrun] at hrun₂
    cases hrun₂
    exact follows_stuck (fun e he => hscript e (List.mem_cons_of_mem _ he)) htail hx₁ hplay hphase hnone hfollows

/-! ## The exchanges that are carried through -/

/-- Every packet is consumed, each is waited for at the peer that sends it, and an OK packet alone lets
the client in, whose command is then waited for. -/
def CarriedThrough (env : Env) (x : Exchange) (s : AuthScript) (script : List (Message × List Turn)) : Prop :=
  ∃ x', Follows env x script x' ∧ (x'.connection.phase = .command ↔ IsOk s.final) ∧
    (IsOk s.final → x'.listening = .client)

structure AuthScript.Supported (s : AuthScript) : Prop where
  /-- No round follows a switch, whose texts are UTF-8. -/
  switch : ∀ r ∈ s.switch, s.more = none ∧ (fromUtf8 r.pluginName).isSome ∧ (fromUtf8 r.pluginData).isSome ∧
    r.answer ≠ []
  /-- The public key is not asked for. -/
  full : ∀ seq key answerSeq answer, s.more = some (.full seq key answerSeq answer) → key = none ∧ answer ≠ []

theorem authPlay_switch {r : SwitchRound} (hname : (0x00 : UInt8) ∉ r.pluginName)
    (htext : (fromUtf8 r.pluginName).isSome ∧ (fromUtf8 r.pluginData).isSome) :
    authNext .authInit ⟨.server, r.seq, 0xfe :: (r.pluginName ++ 0x00 :: r.pluginData)⟩ =
      some .authSwitchResponse := by
  obtain ⟨name, hname'⟩ := Option.isSome_iff_exists.1 htext.1
  obtain ⟨data, hdata⟩ := Option.isSome_iff_exists.1 htext.2
  rw [authNext_switch hname, hname', hdata]
  rfl

/-- A supported exchange is accepted to its end. -/
theorem supported_play {s : AuthScript} (hs : s.WellFormed) (hsupported : s.Supported) :
    ∃ phase', authPlay .authInit s.messages = some phase' ∧ (phase' = .command ↔ IsOk s.final) := by
  have hlast : ∀ phase, phase = .authInit ∨ phase = .authComplete → ∃ phase',
      authPlay phase [⟨.server, s.finalSeq, s.final⟩] = some phase' ∧ (phase' = .command ↔ IsOk s.final) := by
    intro phase hphase
    obtain ⟨phase', hnext, hfinal⟩ := @authNext_final phase hphase ⟨.server, s.finalSeq, s.final⟩ hs.final
    refine ⟨phase', ?_, hfinal⟩
    rw [authPlay_cons (by rcases hphase with rfl | rfl <;> rfl) hnext]
    rfl
  obtain ⟨switch, more, finalSeq, final⟩ := s
  cases switch with
  | none =>
    cases more with
    | none => exact hlast .authInit (.inl rfl)
    | some round =>
      cases round with
      | fast seq => exact hlast .authComplete (.inr rfl)
      | full seq key answerSeq answer =>
        obtain ⟨rfl, hanswer⟩ := hsupported.full seq key answerSeq answer rfl
        obtain ⟨phase', hplay, hfinal⟩ := hlast .authComplete (.inr rfl)
        refine ⟨phase', ?_, hfinal⟩
        simp only [AuthScript.messages, MoreRound.messages, Option.map_none, Option.map_some, Option.getD_none,
          Option.getD_some, List.nil_append, List.cons_append]
        rw [@authPlay_cons _ _ _ .authSwitchResponse rfl rfl, authPlay_cons rfl (authNext_answer hanswer)]
        exact hplay
  | some r =>
    obtain ⟨hmore, hname, hdata, hanswer⟩ := hsupported.switch r rfl
    simp only at hmore
    subst hmore
    obtain ⟨phase', hplay, hfinal⟩ := hlast .authComplete (.inr rfl)
    refine ⟨phase', ?_, hfinal⟩
    simp only [AuthScript.messages, SwitchRound.messages, Option.map_none, Option.map_some, Option.getD_none,
      Option.getD_some, List.nil_append, List.cons_append]
    rw [authPlay_cons rfl (authPlay_switch (hs.pluginName r rfl) ⟨hname, hdata⟩),
      authPlay_cons rfl (authNext_answer hanswer)]
    exact hplay

/-- Any other one has a packet at which the automaton is stuck. -/
theorem unsupported_stuck {s : AuthScript} (hs : s.WellFormed) (hunsupported : ¬ s.Supported) :
    ∃ before phase m after, s.messages = before ++ m :: after ∧ authPlay .authInit before = some phase ∧
      phase.Authenticating ∧ authNext phase m = none := by
  obtain ⟨switch, more, finalSeq, final⟩ := s
  cases switch with
  | some r =>
    have hswitch := @authNext_switch r (hs.pluginName r rfl)
    by_cases htext : (fromUtf8 r.pluginName).isSome ∧ (fromUtf8 r.pluginData).isSome
    · have hrequest := authPlay_switch (hs.pluginName r rfl) htext
      by_cases hanswer : r.answer = []
      · refine ⟨[_], .authSwitchResponse, _, _, rfl, by rw [authPlay_cons rfl hrequest]; rfl, .inr (.inl rfl), ?_⟩
        rw [hanswer]
        rfl
      · cases more with
        | none =>
          refine absurd ⟨?_, by simp⟩ hunsupported
          rintro _ ⟨⟩
          exact ⟨rfl, htext.1, htext.2, hanswer⟩
        | some round =>
          have hplay : authPlay .authInit r.messages = some .authComplete := by
            rw [SwitchRound.messages, authPlay_cons rfl hrequest, authPlay_cons rfl (authNext_answer hanswer)]
            rfl
          cases round with
          | fast seq => exact ⟨r.messages, .authComplete, _, _, rfl, hplay, .inr (.inr rfl), authNext_more _ _ _⟩
          | full seq key answerSeq answer =>
            exact ⟨r.messages, .authComplete, _, _, rfl, hplay, .inr (.inr rfl), authNext_more _ _ _⟩
    · refine ⟨[], .authInit, _, _, rfl, rfl, .inl rfl, ?_⟩
      rw [hswitch]
      cases hname : fromUtf8 r.pluginName with
      | none => rfl
      | some name =>
        cases hdata : fromUtf8 r.pluginData with
        | none => rfl
        | some data => simp [hname, hdata] at htext
  | none =>
    cases more with
    | none => exact absurd ⟨by simp, by simp⟩ hunsupported
    | some round =>
      cases round with
      | fast seq => exact absurd ⟨by simp, by simp⟩ hunsupported
      | full seq key answerSeq answer =>
        cases key with
        | some k =>
          by_cases hrequest : k.request = []
          · refine ⟨[⟨.server, seq, [0x01, 0x04]⟩], .authSwitchResponse, _, _, rfl, rfl, .inr (.inl rfl), ?_⟩
            rw [hrequest]
            rfl
          · refine ⟨[⟨.server, seq, [0x01, 0x04]⟩, ⟨.client, k.requestSeq, k.request⟩], .authComplete, _, _, rfl, ?_,
              .inr (.inr rfl), authNext_more _ _ _⟩
            rw [@authPlay_cons _ _ _ .authSwitchResponse rfl rfl, authPlay_cons rfl (authNext_answer hrequest)]
            rfl
        | none =>
          by_cases hanswer : answer = []
          · refine ⟨[⟨.server, seq, [0x01, 0x04]⟩], .authSwitchResponse, _, _, rfl, rfl, .inr (.inl rfl), ?_⟩
            rw [hanswer]
            rfl
          · refine absurd ⟨by simp, ?_⟩ hunsupported
            rintro _ _ _ _ ⟨⟩
            exact ⟨rfl, hanswer⟩

/-- **Authentication exchanges.** Over any reads, an exchange is carried through if and only if no round
follows an auth switch, the client does not ask for the public key, the texts of the switch request are
UTF-8 and no packet of the client is empty. -/
theorem auth_exchange_iff {s : AuthScript} (hs : s.WellFormed) (hx : Authenticates x .authInit [])
    {script : List (Message × List Turn)} (hscript : script.map (·.1) = s.messages)
    (hturns : ∀ e ∈ script, Carries e.2 e.1) : CarriedThrough env x s script ↔ s.Supported := by
  have hall : ∀ e ∈ script, Carries e.2 e.1 ∧ e.1.body.length < 256 ^ 3 := fun e he =>
    ⟨hturns e he, hs.sizes e.1 (hscript ▸ List.mem_map_of_mem he)⟩
  constructor
  · rintro ⟨x', hfollows, _⟩
    by_contra hunsupported
    obtain ⟨before, phase₁, m, after, hmessages, hplay, hphase, hnone⟩ := unsupported_stuck hs hunsupported
    exact follows_stuck hall (hscript.trans hmessages) hx hplay hphase hnone hfollows
  · intro hsupported
    obtain ⟨phase', hplay, hfinal⟩ := supported_play hs hsupported
    obtain ⟨x', hfollows, hx'⟩ := follows_of_play hall hx (hscript ▸ hplay)
    refine ⟨x', hfollows, by rw [hx'.phase, hfinal], fun hok => ?_⟩
    rw [hx'.listening, hfinal.2 hok]
    rfl

end

/-- Behind the handshake response. -/
def sampleAuthenticating : Exchange :=
  .start { Connection.new .plain .plain ∅ none none with phase := .authInit }

theorem sampleAuthenticating_authenticates : Authenticates sampleAuthenticating .authInit [] := ⟨rfl, rfl, rfl, rfl⟩

/-- Each message in one read. -/
def sampleScript (s : AuthScript) : List (Message × List Turn) :=
  s.messages.map fun m => (m, [sampleTurn m.frame.toBytes])

theorem sampleScript_carries {s : AuthScript} : ∀ e ∈ sampleScript s, Carries e.2 e.1 := by
  intro e he
  obtain ⟨m, _, rfl⟩ := List.mem_map.1 he
  refine ⟨by simp [sampleTurn, SocketRead.chunk, SocketRead.whole], ?_⟩
  intro t ht
  rw [List.mem_singleton.1 ht]
  simp [sampleTurn, SocketRead.whole, Message.frame, Frame.toBytes]

theorem sizes_of_short {s : AuthScript} (h : s.messages.all (·.body.length < 256)) :
    ∀ m ∈ s.messages, m.body.length < 256 ^ 3 := by
  intro m hm
  exact Nat.lt_of_lt_of_le (of_decide_eq_true (List.all_eq_true.1 h m hm)) (Nat.le_self_pow (by decide) 256)

/-- The password is in the server's cache. -/
def sampleFast : AuthScript where
  switch := none
  more := some (.fast 2)
  finalSeq := 3
  final := [0x00, 0, 0, 2, 0, 0, 0]

theorem auth_exchange_iff_fast : CarriedThrough sampleEnv sampleAuthenticating sampleFast (sampleScript sampleFast) :=
  (auth_exchange_iff ⟨by simp [sampleFast], .inl ⟨by decide, rfl⟩, sizes_of_short rfl⟩
    sampleAuthenticating_authenticates (by simp [sampleScript, Function.comp_def]) sampleScript_carries).2
    ⟨by simp [sampleFast], by simp [sampleFast]⟩

/-- The same behind a switch to the plugin "c" with data "a". -/
def sampleSwitched : AuthScript := { sampleFast with switch := some ⟨2, [0x63], [0x61], 3, [0x62]⟩ }

/-- The connection panics at `01 03`. -/
theorem auth_switch_then_fast : sampleSwitched.WellFormed ∧ Authenticates sampleAuthenticating .authInit [] ∧
    ¬ CarriedThrough sampleEnv sampleAuthenticating sampleSwitched (sampleScript sampleSwitched) := by
  refine ⟨⟨?_, .inl ⟨by decide, rfl⟩, sizes_of_short rfl⟩, sampleAuthenticating_authenticates, ?_⟩
  · rintro _ ⟨⟩
    decide
  rintro ⟨x', ⟨x₁, o₁, h₁, _, x₂, o₂, h₂, _, x₃, o₃, h₃, _⟩, _⟩
  have hruns : ∃ y₁ p₁ y₂ p₂,
      run (exchangeStep sampleEnv) sampleAuthenticating [sampleTurn [4, 0, 0, 2, 0xfe, 0x63, 0x00, 0x61]] = some (y₁, p₁) ∧
      run (exchangeStep sampleEnv) y₁ [sampleTurn [1, 0, 0, 3, 0x62]] = some (y₂, p₂) ∧
      run (exchangeStep sampleEnv) y₂ [sampleTurn [2, 0, 0, 2, 0x01, 0x03]] = none := ⟨_, _, _, _, rfl, rfl, rfl⟩
  obtain ⟨y₁, p₁, y₂, p₂, hy₁, hy₂, hpanic⟩ := hruns
  obtain ⟨rfl, rfl⟩ := Prod.mk.inj (Option.some.inj (h₁.symm.trans hy₁))
  obtain ⟨rfl, rfl⟩ := Prod.mk.inj (Option.some.inj (h₂.symm.trans hy₂))
  cases h₃.symm.trans hpanic

end MocksySql
