import MocksySql.ProcessTransparency
/-!
# Nothing in the clear

A client that sets CLIENT_SSL in its answer to the greeting asks for TLS. From then on `exchange` writes to sockets under
TLS or not at all.

* `ConnStep.shielded` — what any step keeps, whatever comes from the peers.
* `exchangeStep_shielded` — one turn.
* `process_never_clear` — every turn of every connection of a process.
-/

namespace MocksySql
open FieldDecode PartialRun
open Relation (ReflTransGen)

/-! ## The sockets -/

def Connection.Secured (c : Connection) : Prop := c.serverConnection = .serverTls ∧ c.clientConnection = .clientTls

/-- The answer that is kept has CLIENT_SSL. -/
def Connection.Asked (c : Connection) : Prop := ∃ hr, c.handshakeResponse = some hr ∧ hasFlag hr.clientFlag .clientSsl

/-- Both sockets are under TLS or neither is, and where TLS is asked for it is there or waited for. -/
structure Shielded (c : Connection) : Prop where
  alike : c.Secured ∨ (c.serverConnection = .plain ∧ c.clientConnection = .plain)
  asked : c.Asked → c.phase = .tlsExchange ∨ c.Secured

/-- On a plain socket CLIENT_SSL leads to TLS. -/
theorem HandshakeResponseAccumulator.consume_plain {packet : Packet} {c : Connection} {r : HandshakeResponseAccumulator × Phase}
    (h : consume packet c = some r) (hplain : c.clientConnection = .plain) (hssl : hasFlag r.1.clientFlag .clientSsl) :
    r.2 = .tlsExchange := by
  obtain ⟨offset, h⟩ := run'_eq_some.1 h
  simp only [read, bind_eq_some, hplain, decide_true, Bool.true_and] at h
  obtain ⟨prelude, _, _, h⟩ := h
  split_ifs at h with hflag
  · simp only [bind_eq_some, require_eq_some, pure_eq_some] at h
    obtain ⟨_, _, _, _, _, _, he⟩ := h
    cases he
    rfl
  · simp only [bind_eq_some, pure_eq_some] at h
    obtain ⟨_, _, hrest, he⟩ := h
    cases he
    rw [readRest_flag hrest] at hssl
    exact absurd hssl hflag

section
variable {env : Env} {c c' : Connection}

theorem switchToTls_secured (h : c.Secured ∨ (c.serverConnection = .plain ∧ c.clientConnection = .plain)) :
    (switchToTls c).Secured := by
  rcases h with ⟨hserver, hclient⟩ | ⟨hserver, hclient⟩
  · simp [switchToTls, Connection.Secured, hserver, hclient]
  · simp [switchToTls, Connection.Secured, hserver, hclient]

theorem consumePacket_shielded {p : Packet} {out : Option Packet} (hc : Shielded c) (h : consumePacket env c p = some (c', out)) :
    Shielded c' ∧ (c.Secured → c'.Secured) := by
  by_cases hphase : c.phase = .handshakeResponse
  · obtain ⟨⟨phase, packet, delta⟩, hacc, he⟩ := Option.map_eq_some_iff.1 h
    rw [accumulate, hphase] at hacc
    obtain ⟨r, hr, hdelta⟩ := Option.map_eq_some_iff.1 hacc
    cases hdelta
    cases he
    refine ⟨⟨hc.alike, ?_⟩, id⟩
    rintro ⟨hr', he, hssl⟩
    cases he
    rcases hc.alike with hsecured | ⟨-, hplain⟩
    · exact .inr hsecured
    · exact .inl (HandshakeResponseAccumulator.consume_plain hr hplain hssl)
  · cases consumePacket_consumed h with
    | handshakeResponse _ _ hresponse => exact absurd hresponse hphase
    | handshake _ hother | command _ _ hother | response _ _ hother =>
      refine ⟨⟨hc.alike, fun hasked => .inr ?_⟩, id⟩
      rcases hc.asked hasked with htls | hsecured
      · rw [hother] at htls
        cases htls
      · exact hsecured
    | auth _ hauth =>
      refine ⟨⟨hc.alike, fun hasked => .inr ?_⟩, id⟩
      rcases hc.asked hasked with htls | hsecured
      · rcases hauth with hauth | hauth | hauth <;> rw [hauth] at htls <;> cases htls
      · exact hsecured

/-- **One step**, whatever comes in. -/
theorem ConnStep.shielded {s s' : Connection × List Packet} (hs : Shielded s.1) (h : ConnStep env s s') :
    Shielded s'.1 ∧ (s.1.Secured → s'.1.Secured) := by
  cases h with
  | read r hmake =>
    obtain ⟨rfl, -⟩ := makePackets_some hmake
    rw [Connection.withResidual_eq]
    exact ⟨⟨hs.alike, hs.asked⟩, id⟩
  | packet hstep => exact consumePacket_shielded hs hstep
  | @intercept c hphase =>
    refine ⟨⟨hs.alike, fun hasked => .inr ?_⟩, id⟩
    rcases hs.asked hasked with htls | hsecured
    · exact absurd (hphase.symm.trans htls) (by simp)
    · exact hsecured
  | tls =>
    have hsecured := switchToTls_secured hs.alike
    exact ⟨⟨.inl hsecured, fun _ => .inr hsecured⟩, fun _ => hsecured⟩
  | shared => exact ⟨⟨hs.alike, hs.asked⟩, id⟩

theorem steps_shielded {s s' : Connection × List Packet} (hs : Shielded s.1) (h : ReflTransGen (ConnStep env) s s') :
    Shielded s'.1 ∧ (s.1.Secured → s'.1.Secured) := by
  induction h with
  | refl => exact ⟨hs, id⟩
  | tail _ hstep ih =>
    obtain ⟨hshielded, hkept⟩ := hstep.shielded ih.1
    exact ⟨hshielded, hkept ∘ ih.2⟩

/-! ## Turns -/

/-- No packet is consumed while TLS is waited for. -/
theorem processIncomingFrame_waiting {r : SocketRead} {packets : List Packet} (hphase : c.phase = .tlsExchange)
    (h : processIncomingFrame env r.buf c r.readBytes = some (c', packets)) : packets = [] := by
  obtain ⟨c₀, ins, outs, hmake, hrun, rfl⟩ := processIncomingFrame_some h
  obtain ⟨rfl, -⟩ := makePackets_some hmake
  cases ins with
  | nil =>
    cases hrun
    rfl
  | cons p ps =>
    obtain ⟨c₁, _, _, hp, -⟩ := run_cons_some hrun
    rw [consumePacket, accumulate, Connection.withResidual_phase, hphase] at hp
    cases hp

theorem receive_server_phase {x : Exchange} {read r : SocketRead} {origin : Origin} (hlisten : x.listening = .server)
    (h : receive env x read = .bytes c r origin) : c.phase = x.connection.phase := by
  unfold receive at h
  simp only [hlisten] at h
  split at h
  · cases h
  · rename_i hcache
    obtain ⟨rest, rfl⟩ := getResponseFromCache_cached hcache
    split_ifs at h
    cases h
    rfl
  · split_ifs at h
    cases h
    rfl

/-- **One turn**: where TLS is asked for, it is there, or the turn writes nothing. -/
theorem exchangeStep_shielded (htls : env.tls) {x x' : Exchange} {turn : Turn} {output : Output} {shared : Shared}
    (hx : Shielded x.connection) (h : exchangeStep env x turn = some (x', output, shared)) :
    Shielded x'.connection ∧ (x.connection.Secured → x'.connection.Secured) ∧
      (x.connection.Asked → x'.connection.Secured ∨ output.written = []) := by
  obtain ⟨hshielded, hkept⟩ := steps_shielded hx (exchangeStep_steps h)
  refine ⟨hshielded, hkept, fun hasked => ?_⟩
  rcases hx.asked hasked with hphase | hsecured
  · have hswitched : ∀ {c : Connection} {r : SocketRead} {origin : Origin}, x.listening = .client →
        receive env { x with connection := x.connection.sharing turn.shared } turn.read = .bytes c r origin →
        Shielded c ∧ c.Secured := by
      intro c r origin hlisten hreceive
      obtain ⟨rfl, -⟩ := receive_client hreceive hlisten
      rw [switchIfAgreed, if_pos ⟨htls, hphase⟩]
      have hsecured : (switchToTls (x.connection.sharing turn.shared)).Secured := switchToTls_secured hx.alike
      exact ⟨⟨.inl hsecured, fun _ => .inr hsecured⟩, hsecured⟩
    cases exchangeStep_turned h with
    | waiting => exact .inr rfl
    | server hlisten hreceive hframe =>
      have hphase' := (receive_server_phase (x := { x with connection := x.connection.sharing turn.shared }) hlisten
        hreceive).trans hphase
      rw [processIncomingFrame_waiting hphase' hframe]
      exact .inr rfl
    | answered hlisten hreceive hframe hi =>
      obtain ⟨hc, hsecured⟩ := hswitched hlisten hreceive
      exact .inl ((steps_shielded hc ((frame_steps hframe).trans (interceptIfEnabled_steps hi))).2 hsecured)
    | unanswered hlisten hreceive hframe hi =>
      obtain ⟨hc, hsecured⟩ := hswitched hlisten hreceive
      rw [afterClientFrame_connection]
      exact .inl ((steps_shielded hc ((frame_steps hframe).trans (interceptIfEnabled_steps hi))).2 hsecured)
  · exact .inl (hkept hsecured)

end

/-- **Nothing is written in the clear once TLS is asked for.** In every run of a process, whatever its peers send and in
whichever order they take their turns: both sockets of a connection are under TLS or neither is, once they are they stay
so, and behind the turn that takes a client's CLIENT_SSL in, all that the connection writes goes through TLS. -/
theorem process_never_clear {κ : Type} [DecidableEq κ] {env : Env} {serde : Serde} (htls : env.tls)
    {vars : String → Option String} {p₀ p : Process κ} {events : List (ProcessEvent κ)} {outs : List Output}
    (hstart : Process.start κ vars = some p₀) (hrun : run (processStep env serde) p₀ events = some (p, outs)) (k : κ) :
    ∀ e ∈ exchangesOf k (transcript (processStep env serde) p₀ events), Shielded e.before.connection ∧
      Shielded e.after.connection ∧ (e.before.connection.Secured → e.after.connection.Secured) ∧
      (e.before.connection.Asked → e.after.connection.Secured ∨ e.output.1.written = []) := by
  obtain ⟨x₀, ⟨diff, replay, kafka, rfl⟩, hsteps⟩ := process_transcript hstart hrun k
  rw [hsteps]
  intro e he
  have hstarts : Shielded (Connection.new .plain .plain diff replay kafka) :=
    ⟨.inr ⟨rfl, rfl⟩, by rintro ⟨_, hnone, -⟩; cases hnone⟩
  obtain ⟨-, hstep, hbefore, hafter⟩ := transcript_invariant (I := fun x : Exchange => Shielded x.connection)
    (fun _ _ _ _ _ hx hstep => (exchangeStep_shielded htls hx hstep).1) hstarts e he
  obtain ⟨-, hkept, hwritten⟩ := exchangeStep_shielded htls hbefore hstep
  exact ⟨hbefore, hafter, hkept, hwritten⟩

/-! ## A client that asks for TLS -/

def sslRequestBytes : Bytes := [32, 0, 0, 1] ++ ([0, 0x0a, 0, 0, 0, 0, 0, 1, 0x21] ++ List.replicate 23 0x00)

/-- Its answer, by then under TLS. -/
def securedAnswer : Bytes := [35, 0, 0, 2] ++ ([0, 0x0a, 0, 0, 0, 0, 0, 1, 0x21] ++ List.replicate 23 0x00 ++ [0x61, 0x00, 0x00])

def securedEvents : List (ProcessEvent Bool) :=
  .accept true :: [sampleGreeting, sslRequestBytes, securedAnswer, sampleOk].map fun bytes => .turn true (.whole bytes)

theorem process_never_clear_secured : ∃ p₀ p outs x, Process.start Bool (fun _ => none) = some p₀ ∧
    run (processStep relayEnv sampleSerde) p₀ securedEvents = some (p, outs) ∧ p.client true = .connected x ∧
    x.connection.phase = .command ∧ x.connection.Secured ∧
    ∀ e ∈ exchangesOf true (transcript (processStep relayEnv sampleSerde) p₀ securedEvents),
      e.before.connection.Asked → e.after.connection.Secured ∨ e.output.1.written = [] := by
  have hrun : ∃ p₀ p outs x, Process.start Bool (fun _ => none) = some p₀ ∧
      run (processStep relayEnv sampleSerde) p₀ securedEvents = some (p, outs) ∧ p.client true = .connected x ∧
      x.connection.phase = .command ∧ x.connection.Secured :=
    ⟨_, _, _, _, rfl, rfl, rfl, rfl, ⟨rfl, rfl⟩⟩
  obtain ⟨p₀, p, outs, x, hstart, hrun, hclient, hphase, hsecured⟩ := hrun
  refine ⟨p₀, p, outs, x, hstart, hrun, hclient, hphase, hsecured, ?_⟩
  intro e he
  exact (process_never_clear (by decide) hstart hrun true e he).2.2.2

end MocksySql
