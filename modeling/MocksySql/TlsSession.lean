import MocksySql.Session
import MocksySql.TlsSafety
/-!
# Sessions under TLS

A client that wants TLS sends an SSLRequest in place of its answer. `exchange` forwards it, puts both sockets under TLS
when its client loop comes round, and reads the answer from there.

| here | there |
| --- | --- |
| `HandshakeResponse41.encodeSecured` | the rest of an answer with CLIENT_SSL (`handshake_response.rs:62-76`) |
| `SecuredSession`                    | a session behind an SSLRequest |

* `exchangeStep_switched` — a round of the client loop begins with `switch_to_tls` (`connection_handler.rs:135-138`).
* `process_serves_secured_session` — a relay takes its clients through their sessions under TLS.
-/

namespace MocksySql
open FieldDecode PartialRun

/-! ## The answer -/

/-- The flags with CLIENT_SSL. -/
def securedFlag (clientFlag : UInt32) : UInt32 := clientFlag ||| CapabilityFlags.clientSsl.value

theorem hasFlag_securedFlag (clientFlag : UInt32) {flag : CapabilityFlags} (hne : flag ≠ .clientSsl) :
    hasFlag (securedFlag clientFlag) flag = hasFlag clientFlag flag := by
  have hapart : CapabilityFlags.clientSsl.value &&& flag.value = 0 := by
    cases flag <;> first | rfl | exact absurd rfl hne
  have hand : (clientFlag ||| CapabilityFlags.clientSsl.value) &&& flag.value =
      clientFlag &&& flag.value ||| CapabilityFlags.clientSsl.value &&& flag.value :=
    UInt32.toBitVec_inj.1 (by simpa using BitVec.and_or_distrib_right)
  rw [hasFlag, securedFlag, hand, hapart, UInt32.or_zero, hasFlag]

namespace HandshakeResponseAccumulator

/-- CLIENT_SSL says nothing about the fields behind the prelude. -/
theorem readRest_secured (body : Bytes) (prelude : HandshakeResponseAccumulator) :
    readRest body { prelude with clientFlag := securedFlag prelude.clientFlag } =
      (fun acc => { acc with clientFlag := securedFlag prelude.clientFlag }) <$> readRest body prelude := by
  simp only [readRest, readAuthResponse, readOptionalString, readConnectionAttrs, readZstdLevel,
    hasFlag_securedFlag _ (show CapabilityFlags.clientPluginAuthLenEncClientData ≠ .clientSsl by decide),
    hasFlag_securedFlag _ (show CapabilityFlags.clientConnectWithDB ≠ .clientSsl by decide),
    hasFlag_securedFlag _ (show CapabilityFlags.clientPluginAuth ≠ .clientSsl by decide),
    hasFlag_securedFlag _ (show CapabilityFlags.clientConnectAttrs ≠ .clientSsl by decide),
    hasFlag_securedFlag _ (show CapabilityFlags.clientZSTDCompressionAlgorithm ≠ .clientSsl by decide), map_bind, map_pure]

end HandshakeResponseAccumulator

namespace HandshakeResponse41
variable (sent : HandshakeResponse41)

/-- The same answer behind an SSLRequest. -/
def encodeSecured : Bytes :=
  encodePrelude (securedFlag sent.clientFlag) sent.maxPacketSize sent.characterSet ++ (nulTerminated sent.username ++
    (sent.encodeAuthResponse ++ (sent.encodeName .clientConnectWithDB sent.database ++
      (sent.encodeName .clientPluginAuth sent.clientPluginName ++ sent.encodeAttrs))))

theorem encodeSecured_ne_nil : sent.encodeSecured ≠ [] := by
  simp [encodeSecured, encodePrelude, toLe]

/-- **What is kept of it**, under TLS. -/
theorem consume_encodeSecured {packet : Packet} (hbody : packet.body = sent.encodeSecured) {c : Connection}
    (hc : c.clientConnection ≠ .plain) : HandshakeResponseAccumulator.consume packet c =
      sent.kept.map fun acc => ({ acc with clientFlag := securedFlag sent.clientFlag }, .authInit) := by
  rw [HandshakeResponseAccumulator.consume, hbody]
  have hread : Answers sent.encodeSecured
      (HandshakeResponseAccumulator.read sent.encodeSecured (c.clientConnection = .plain)) sent.encodeSecured
      (sent.kept.map fun acc => ({ acc with clientFlag := securedFlag sent.clientFlag }, Phase.authInit)) := by
    unfold HandshakeResponseAccumulator.read
    have h41 : hasFlag (securedFlag sent.clientFlag) .clientProtocol41 := by
      rw [hasFlag_securedFlag _ (by decide)]
      exact sent.protocol41
    refine (takes_prelude h41).bind_answers (g := fun _ => _) fun prelude hprelude => ?_
    cases hprelude
    simp only [hc, decide_false, Bool.false_and, Bool.false_eq_true, if_false]
    have hsame : HandshakeResponseAccumulator.readRest sent.encodeSecured
        (preludeOf (securedFlag sent.clientFlag) sent.maxPacketSize sent.characterSet) = _ :=
      HandshakeResponseAccumulator.readRest_secured sent.encodeSecured
        (preludeOf sent.clientFlag sent.maxPacketSize sent.characterSet)
    rw [hsame, bind_map_left]
    exact sent.answers_rest.bind_pure fun _ _ => rfl
  exact hread.run'

end HandshakeResponse41

/-! ## The switch -/

section
variable {env : Env} {x x' : Exchange}

def Exchange.switched (env : Env) (x : Exchange) : Exchange := { x with connection := switchIfAgreed env x.connection }

theorem switchIfAgreed_sharing (c : Connection) (shared : Shared) :
    (switchIfAgreed env c).sharing shared = switchIfAgreed env (c.sharing shared) := by
  by_cases h : env.tls ∧ c.phase = .tlsExchange
  · rw [switchIfAgreed, switchIfAgreed, if_pos h, if_pos (by exact h)]
    rfl
  · rw [switchIfAgreed, switchIfAgreed, if_neg h, if_neg (by exact h)]

theorem switchIfAgreed_idem (c : Connection) : switchIfAgreed env (switchIfAgreed env c) = switchIfAgreed env c := by
  by_cases h : env.tls ∧ c.phase = .tlsExchange
  · have hphase : (switchIfAgreed env c).phase ≠ .tlsExchange := by
      rw [switchIfAgreed, if_pos h]
      simp [switchToTls]
    exact switchIfAgreed_of_ne hphase
  · have hsame : switchIfAgreed env c = c := if_neg h
    rw [hsame, hsame]

/-- **A round of the client loop switches first.** -/
theorem exchangeStep_switched (hlisten : x.listening = .client) (turn : Turn) :
    exchangeStep env (x.switched env) turn = exchangeStep env x turn := by
  unfold exchangeStep receive Exchange.switched
  simp only [hlisten, switchIfAgreed_sharing, switchIfAgreed_idem]
  split_ifs
  · rfl
  · rfl

theorem Relays.of_switched (hlisten : x.listening = .client) {t : Transmission} {turns : List Turn} (hne : turns ≠ [])
    (h : Relays env (x.switched env) t turns x') : Relays env x t turns x' := by
  obtain ⟨⟨outs, hrun⟩, hinputs, hwritten, hacross⟩ := h
  obtain ⟨turn, turns, rfl⟩ := List.exists_cons_of_ne_nil hne
  obtain ⟨x₁, out, outs, hstep, hrest, rfl⟩ := run_cons_some hrun
  have hsame := (exchangeStep_switched hlisten turn).symm.trans hstep
  rw [transcript_cons hstep] at hinputs hwritten hacross
  rw [List.forall_mem_cons] at hacross
  refine ⟨⟨out :: outs, by rw [run_cons hsame, hrest]; rfl⟩, ?_⟩
  rw [transcript_cons hsame]
  exact ⟨hinputs, hwritten, List.forall_mem_cons.2 hacross⟩

theorem Converses.of_switched (hlisten : x.listening = .client) {t : Transmission} {turns : List Turn} (hne : turns ≠ [])
    {script : List (Transmission × List Turn)} (h : Converses env (x.switched env) ((t, turns) :: script) x') :
    Converses env x ((t, turns) :: script) x' := by
  obtain ⟨x₁, hrelays, hrest⟩ := h
  exact ⟨x₁, hrelays.of_switched hlisten hne, hrest⟩

theorem Converses.append : ∀ {script script' : List (Transmission × List Turn)} {x x₁ : Exchange},
    Converses env x script x₁ → Converses env x₁ script' x' → Converses env x (script ++ script') x'
  | [], _, _, _, h, h' => by
    cases h
    exact h'
  | (_, _) :: _, _, _, _, h, h' => by
    obtain ⟨x₂, hrelays, hrest⟩ := h
    exact ⟨x₂, hrelays, hrest.append h'⟩

end

/-! ## Sessions -/

/-- A session behind an SSLRequest; the flags of the answer are to have CLIENT_SSL besides. -/
structure SecuredSession extends Session where
  request : Frame

namespace SecuredSession

def clientFlag (s : SecuredSession) : UInt32 := securedFlag s.answer.clientFlag

/-- What is said in the clear. -/
def cleared (s : SecuredSession) : List Transmission :=
  [⟨.server, [frameOf s.greetingSeq s.greeting.encode]⟩, ⟨.client, [s.request]⟩]

/-- What is said under TLS. -/
def secured (s : SecuredSession) : List Transmission :=
  ⟨.client, [frameOf s.answerSeq s.answer.encodeSecured]⟩ :: (s.auth.messages.map (fun m => ⟨m.sender, [m.frame]⟩) ++
    s.rounds.flatMap (Round.transmissions s.clientFlag))

def transmissions (s : SecuredSession) : List Transmission := s.cleared ++ s.secured

structure WellFormed (s : SecuredSession) : Prop where
  greeting : Small s.greeting.encode
  request : SslRequest s.request
  answer : Small s.answer.encodeSecured
  names : ∀ name ∈ s.answer.sentNames, (fromUtf8 name).isSome
  authResponse : hasFlag s.answer.clientFlag .clientPluginAuthLenEncClientData ∨ (fromUtf8 s.answer.authResponse).isSome
  auth : s.auth.WellFormed ∧ s.auth.Supported
  accepted : IsOk s.auth.final
  rounds : ∀ r ∈ s.rounds, r.WellFormed s.clientFlag

end SecuredSession

section
variable {env : Env} {c c' : Connection}

theorem accepts_sslRequest {f : Frame} (hf : SslRequest f) (hphase : c.phase = .handshakeResponse)
    (hplain : c.clientConnection = .plain) :
    ∃ hr, Accepts env c ⟨.client, [f]⟩ { c with phase := .tlsExchange, handshakeResponse := some hr } := by
  obtain ⟨p, hp⟩ := Option.isSome_iff_exists.1 ((Frame.toPacket_isSome c.phase).2 hf.wellFormed.nonempty)
  obtain ⟨hr, hstep⟩ := @consumePacket_sslRequest env c f hphase hplain hf p (Frame.toPacket_fresh hp).1
    (Frame.toPacket_fresh hp).2
  exact ⟨hr, accepts_one hf.wellFormed (by rw [hphase]; rfl) (by simp [hphase]) hp hstep rfl⟩

theorem accepts_securedAnswer {sent : HandshakeResponse41} {seq : UInt8} (hsmall : Small sent.encodeSecured)
    (hkept : sent.kept.isSome) (hphase : c.phase = .handshakeResponse) (hc : c.clientConnection ≠ .plain) :
    ∃ acc, acc.clientFlag = securedFlag sent.clientFlag ∧ Accepts env c ⟨.client, [frameOf seq sent.encodeSecured]⟩
      { c with phase := .authInit, handshakeResponse := some acc } := by
  obtain ⟨acc, hacc⟩ := Option.isSome_iff_exists.1 hkept
  obtain ⟨p, hp, hbody, hskip⟩ := @frameOf_toPacket seq _ c.phase sent.encodeSecured_ne_nil
  have hstep : consumePacket env c p =
      some ({ c with phase := .authInit
                     handshakeResponse := some { acc with clientFlag := securedFlag sent.clientFlag } }, some p) := by
    rw [consumePacket, accumulate, hphase]
    simp [sent.consume_encodeSecured hbody hc, hacc, hskip, syncConnectionState, AccumulationDelta.empty]
  exact ⟨_, rfl, accepts_one (frameOf_wellFormed hsmall sent.encodeSecured_ne_nil) (by rw [hphase]; rfl) (by simp [hphase]) hp
    hstep rfl⟩

/-- Up to the request. -/
theorem SecuredSession.cleared_dialogue {s : SecuredSession} (hs : s.WellFormed) (kafka : Option String) :
    ∃ c', Dialogue env (.new .plain .plain ∅ none kafka) s.cleared c' ∧ c'.phase = .tlsExchange ∧
      (c'.serverConnection = .plain ∧ c'.clientConnection = .plain) ∧ c'.diff = ∅ := by
  have hgreeting := @accepts_greeting env (.new .plain .plain ∅ none kafka) s.greeting s.greetingSeq hs.greeting rfl
  obtain ⟨hr, hrequest⟩ := @accepts_sslRequest env
    { Connection.new .plain .plain ∅ none kafka with phase := .handshakeResponse, handshake := some s.greeting.accumulated }
    s.request hs.request rfl rfl
  exact ⟨_, .cons hgreeting (.cons hrequest (.nil _)), rfl, ⟨rfl, rfl⟩, rfl⟩

/-- From the answer on. -/
theorem SecuredSession.secured_dialogue {s : SecuredSession} (hs : s.WellFormed) (hphase : c.phase = .handshakeResponse)
    (hc : c.clientConnection ≠ .plain) (hdiff : c.diff = ∅) :
    ∃ c', Dialogue env c s.secured c' ∧ Serves s.clientFlag c' := by
  obtain ⟨phase', hplay, hphase'⟩ := supported_play hs.auth.1 hs.auth.2
  obtain rfl : phase' = .command := hphase'.2 hs.accepted
  have hkept : s.answer.kept.isSome := s.answer.kept_isSome.2 ⟨hs.names, hs.authResponse⟩
  obtain ⟨acc, hacc, hanswer⟩ := @accepts_securedAnswer env c s.answer s.answerSeq hs.answer hkept hphase hc
  have hserves : Serves s.clientFlag { c with phase := .command, handshakeResponse := some acc } :=
    ⟨rfl, congrArg some hacc, hdiff⟩
  have h41 : hasFlag s.clientFlag .clientProtocol41 := by
    rw [SecuredSession.clientFlag, hasFlag_securedFlag _ (by decide)]
    exact s.answer.protocol41
  obtain ⟨c', hrounds, hc'⟩ := rounds_served Dialogue.nil .append (round_dialogue h41) hserves hs.rounds
  exact ⟨c', .cons hanswer ((logsIn_of_play hplay hs.auth.1.sizes).dialogue.append hrounds), hc'⟩

theorem Rests.switched (htls : env.tls) {x : Exchange} (hx : Rests x c) (hphase : c.phase = .tlsExchange) :
    Rests (x.switched env) (switchToTls c) := by
  obtain ⟨rfl, hnothing, hskip, hlisten⟩ := hx
  have hswitch : switchIfAgreed env x.connection = switchToTls x.connection := if_pos ⟨htls, hphase⟩
  refine ⟨?_, hnothing, hskip, ?_⟩
  · rw [Exchange.switched, hswitch]
    rfl
  · rw [hphase] at hlisten
    exact hlisten

/-- A new connection takes a session under TLS in, in any reads. -/
theorem Initiated.converses_secured (hin : ¬ env.interceptWrites) (htls : env.tls) {x₀ : Exchange} (hinit : Initiated x₀)
    {s : SecuredSession} (hs : s.WellFormed) {script : List (Transmission × List Turn)}
    (hscript : script.map (·.1) = s.transmissions) (hbrings : ∀ e ∈ script, Brings e.2 e.1)
    (hidle : ∀ turn ∈ script.flatMap (·.2), turn.shared.Idle) :
    ∃ x, Converses env x₀ script x ∧ x.connection.phase = .command ∧ x.listening = .client ∧ x.connection.Secured := by
  obtain ⟨diff, replay, kafka, rfl⟩ := hinit
  obtain ⟨script₁, script₂, rfl, hcleared, hsecured⟩ := List.map_eq_append_iff.1 hscript
  rw [List.forall_mem_append] at hbrings
  rw [List.flatMap_append, List.forall_mem_append] at hidle
  obtain ⟨c₁, hdialogue₁, hphase₁, hplain, hdiff⟩ := @SecuredSession.cleared_dialogue env s hs kafka
  obtain ⟨x₁, hconverses₁, hx₁⟩ := dialogue_relayed hin hdialogue₁
    (x := .start (.new .plain .plain diff replay kafka)) ⟨rfl, rfl, rfl, rfl⟩ hcleared hbrings.1 hidle.1
  have hswitched := hx₁.switched htls hphase₁
  have hclient : (switchToTls c₁).clientConnection ≠ .plain := by
    rw [(switchToTls_secured (.inr hplain)).2]
    simp
  obtain ⟨c', hdialogue₂, hc'⟩ := @SecuredSession.secured_dialogue env (switchToTls c₁) s hs rfl hclient hdiff
  obtain ⟨x, hconverses₂, hx⟩ := dialogue_relayed hin hdialogue₂ hswitched hsecured hbrings.2 hidle.2
  have hstart : (x₁.switched env).connection.Secured := by
    have hsame : (x₁.switched env).connection.idle.Secured := by
      rw [hswitched.connection]
      exact switchToTls_secured (.inr hplain)
    exact hsame
  obtain ⟨outs, hrun, -⟩ := hconverses₂.run
  have hend := run_invariant (I := fun x : Exchange => Shielded x.connection ∧ x.connection.Secured)
    (fun _ _ _ _ _ hx hstep => (exchangeStep_shielded htls hx.1 hstep).imp id fun h => h.1 hx.2)
    ⟨⟨.inl hstart, fun _ => .inr hstart⟩, hstart⟩ hrun
  have hphase : x.connection.idle.phase = .command := by rw [hx.connection, hc'.phase]
  refine ⟨x, hconverses₁.append ?_, hphase, by rw [hx.listening, hc'.phase]; rfl, hend.2⟩
  -- the first turn of the answer makes the switch
  obtain ⟨⟨t, turns⟩, script₂, rfl, rfl, -⟩ := List.map_eq_cons_iff.1 hsecured
  refine hconverses₂.of_switched (by rw [hx₁.listening, hphase₁]; rfl) ?_
  rintro rfl
  have hbytes := (hbrings.2 _ (List.mem_cons_self ..)).stream
  exact Transmission.bytes_ne_nil (by simp) hbytes.symm

end

/-- **A relay serves sessions under TLS.** What one connection of a process that neither intercepts nor replays reads is a
session behind an SSLRequest, cut into any non-empty reads, those of other connections in between. Then each of its
transmissions has been read from the peer that sends it and written to the other one, byte for byte, and in the end both
sockets are under TLS and the connection waits for the client's next command. -/
theorem process_serves_secured_session {κ : Type} [DecidableEq κ] {env : Env} {serde : Serde} (hin : ¬ env.interceptWrites)
    (htls : env.tls) {vars : String → Option String} {p₀ p : Process κ} {events : List (ProcessEvent κ)} {outs : List Output}
    (hstart : Process.start κ vars = some p₀) (hreplay : vars "kafka_replay_response_enable" ≠ some "true")
    (hrun : run (processStep env serde) p₀ events = some (p, outs)) {k : κ} {s : SecuredSession} (hs : s.WellFormed)
    {script : List (Transmission × List Turn)} (hscript : script.map (·.1) = s.transmissions)
    (hbrings : ∀ e ∈ script, Brings e.2 e.1)
    (hturns : turnsOf k (transcript (processStep env serde) p₀ events) = script.flatMap (·.2)) :
    ∃ x, p.client k = .connected x ∧ RelayedAll script (exchangesOf k (transcript (processStep env serde) p₀ events)) ∧
      x.connection.phase = .command ∧ x.listening = .client ∧ x.connection.Secured ∧
      (outputsOf k (transcript (processStep env serde) p₀ events)).flatMap Output.written =
        s.transmissions.flatMap Transmission.bytes := by
  obtain ⟨x, hclient, hrelayed, ⟨hphase, hlisten, hsecured⟩, hwritten⟩ := process_converses hin hstart hreplay hrun
    hturns (P := fun x => x.connection.phase = .command ∧ x.listening = .client ∧ x.connection.Secured)
    (by rintro _ ⟨_, _, _, rfl⟩ ⟨hphase, -⟩; cases hphase)
    fun hidle _ hinit => hinit.converses_secured hin htls hs hscript hbrings hidle
  refine ⟨x, hclient, hrelayed, hphase, hlisten, hsecured, ?_⟩
  rw [hwritten, ← hscript, List.flatMap_map]

/-! ## A client that asks for TLS and pings -/

def sampleSecuredSession : SecuredSession where
  toSession := { sampleSession with answerSeq := 2, rounds := [samplePinged] }
  request := sampleSslRequest

theorem sampleSecuredSession_wellFormed : sampleSecuredSession.WellFormed where
  greeting := sampleSession_wellFormed.greeting
  request := sampleSslRequest_sslRequest
  answer := by unfold Small; decide
  names := sampleSession_wellFormed.names
  authResponse := sampleSession_wellFormed.authResponse
  auth := sampleSession_wellFormed.auth
  accepted := sampleSession_wellFormed.accepted
  rounds := by simpa [sampleSecuredSession] using samplePinged_wellFormed _

theorem process_serves_secured_session_one : ∃ p₀ p outs, Process.start Bool (fun _ => none) = some p₀ ∧
    run (processStep relayEnv sampleSerde) p₀ (bytewiseEvents sampleSecuredSession.transmissions) = some (p, outs) ∧
    (outputsOf true (transcript (processStep relayEnv sampleSerde) p₀
      (bytewiseEvents sampleSecuredSession.transmissions))).flatMap Output.written =
        sampleSecuredSession.transmissions.flatMap Transmission.bytes := by
  obtain ⟨p₀, p, outs, hstart, hrun, hread⟩ := @bytewise_run sampleSecuredSession.transmissions fun x₀ hinit => by
    obtain ⟨x, hconverses, -⟩ := @Initiated.converses_secured relayEnv (by decide) (by decide) x₀ hinit _
      sampleSecuredSession_wellFormed _ (bytewise_fst _) (bytewise_brings _)
      fun turn hturn => by rw [bytewise_shared _ turn hturn]; exact ⟨rfl, rfl⟩
    exact ⟨x, hconverses⟩
  obtain ⟨_, -, -, -, -, -, hwritten⟩ := process_serves_secured_session (by decide) (by decide) hstart (by decide) hrun
    sampleSecuredSession_wellFormed (bytewise_fst _) (bytewise_brings _) hread
  exact ⟨p₀, p, outs, hstart, hrun, hwritten⟩

end MocksySql
