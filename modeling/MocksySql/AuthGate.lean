import MocksySql.ConnectionInvariant
/-!
# Who lets a client in

The phase is advanced packet by packet whichever peer a packet came from. `runEvents` follows the bytes
of a run from the sockets through `partial_bytes` into packets, so that each consumed packet is known
with the origin of each of its bytes.

* `auth_gate` — while no client byte is consumed in `AuthInit` or `AuthComplete`, only an OK packet of
  the server enters `Command`.
* `auth_gate_bypassed` — a client that sends an OK packet behind its handshake response lets itself in.
-/

namespace MocksySql
open FieldDecode PartialRun

/-! ## Bytes and where they came from -/

/-- A packet being consumed, and where each byte of its header and body was read from. -/
structure Event where
  step : Step Connection Packet (Option Packet)
  origins : List Origin

/-- The packets of a buffer take its bytes in order. -/
def traceBytes : List (Step Connection Packet (Option Packet)) → List Origin → List Event
  | [], _ => []
  | step :: steps, origins =>
    ⟨step, origins.take step.input.toBytes.length⟩ :: traceBytes steps (origins.drop step.input.toBytes.length)

theorem traceBytes_steps (steps : List (Step Connection Packet (Option Packet))) (origins : List Origin) :
    (traceBytes steps origins).map (·.step) = steps := by
  induction steps generalizing origins with
  | nil => rfl
  | cons step steps ih => rw [traceBytes, List.map_cons, ih]

/-- The events of one frame, `origins` being those of the buffer, and the origins of the residual. -/
def frameEvents (env : Env) (connection : Connection) (r : SocketRead) (origins : List Origin) :
    List Event × List Origin :=
  match makePackets r.buf connection r.readBytes with
  | none => ([], [])
  | some (connection, packets) =>
    (traceBytes (transcript (consumePacket env) connection packets) origins,
      origins.drop (packets.flatMap Packet.toBytes).length)

/-- The events of one turn, `origins` being those of `partial_bytes` before it and, in the result,
after it. -/
def turnEvents (env : Env) (x : Exchange) (origins : List Origin) (turn : Turn) : List Event × List Origin :=
  match receive env { x with connection := x.connection.sharing turn.shared } turn.read with
  | .bytes connection r origin => frameEvents env connection r (origins ++ List.replicate r.chunk.length origin)
  | _ => ([], origins)

/-- The events of a run, up to the panic that ends it if one does. -/
def runEvents (env : Env) : Exchange → List Origin → List Turn → List Event
  | _, _, [] => []
  | x, origins, turn :: turns =>
    (turnEvents env x origins turn).1 ++
      match exchangeStep env x turn with
      | none => []
      | some (x', _) => runEvents env x' (turnEvents env x origins turn).2 turns

/-- `Command` is first entered by an OK packet read from the server's socket. -/
def EnteredByServer (events : List Event) : Prop :=
  ∀ earlier e later, events = earlier ++ e :: later → (∀ d ∈ earlier, d.step.after.phase ≠ .command) →
    e.step.after.phase = .command →
      e.step.input.pType = .ok ∧ e.origins = List.replicate e.step.input.toBytes.length .server

/-! ## Up to the first command -/

/-- `P` holds of the events up to the first that enters `Command`, and of that one. -/
def UntilCommand (P : Event → Prop) : List Event → Prop
  | [] => True
  | e :: es => P e ∧ (e.step.after.phase ≠ .command → UntilCommand P es)

theorem untilCommand_append {P : Event → Prop} {es fs : List Event} (he : UntilCommand P es)
    (hf : (∀ e ∈ es, e.step.after.phase ≠ .command) → UntilCommand P fs) : UntilCommand P (es ++ fs) := by
  induction es with
  | nil => exact hf (by simp)
  | cons e es ih =>
    refine ⟨he.1, fun hne => ih (he.2 hne) fun hall => hf ?_⟩
    intro d hd
    rcases List.mem_cons.1 hd with rfl | hd
    · exact hne
    · exact hall d hd

theorem untilCommand_first {P : Event → Prop} {earlier later : List Event} {e : Event}
    (h : UntilCommand P (earlier ++ e :: later)) (hne : ∀ d ∈ earlier, d.step.after.phase ≠ .command) : P e := by
  induction earlier with
  | nil => exact h.1
  | cons d ds ih => exact ih (h.2 (hne d (by simp))) fun d' hd' => hne d' (List.mem_cons_of_mem d hd')

/-- No command was ever read. -/
structure Gated (c : Connection) : Prop where
  command : c.phase ≠ .command
  pending : c.phase ≠ .pendingResponse
  last : c.lastCommand = none

theorem Consumed.gated {c c' : Connection} {p : Packet} (h : Consumed c p c') (hc : Gated c) :
    (c'.phase ≠ .command → Gated c') ∧
      (c'.phase = .command → (c.phase = .authInit ∨ c.phase = .authComplete) ∧ p.pType = .ok) := by
  cases h with
  | handshake h hphase => exact ⟨fun hne => ⟨hne, by simp, hc.last⟩, by simp⟩
  | handshakeResponse hr phase hphase hnext hflag =>
    rcases hnext with rfl | rfl <;> exact ⟨fun hne => ⟨hne, by simp, hc.last⟩, by simp⟩
  | auth phase hphase hnext =>
    rcases hnext with (rfl | rfl | rfl) | rfl | ⟨rfl, hok, hne⟩
    iterate 4 exact ⟨fun hne => ⟨hne, by simp, hc.last⟩, by simp⟩
    refine ⟨fun h => absurd rfl h, fun _ => ⟨?_, hok⟩⟩
    rcases hphase with h | h | h
    · exact .inl h
    · exact absurd h hne
    · exact .inr h
  | command _ _ hphase => exact absurd hphase hc.command
  | response _ _ hphase => exact absurd hphase hc.pending

/-- What is known of an event before the first command. -/
structure Guarded (e : Event) : Prop where
  gated : Gated e.step.before
  length : e.origins.length = e.step.input.toBytes.length
  live : Origin.replayLog ∉ e.origins
  consumed : Consumed e.step.before e.step.input e.step.after

theorem traceBytes_guarded {env : Env} {packets : List Packet} : ∀ {c : Connection} {origins : List Origin},
    Gated c → (packets.flatMap Packet.toBytes).length ≤ origins.length → Origin.replayLog ∉ origins →
    UntilCommand Guarded (traceBytes (transcript (consumePacket env) c packets) origins) := by
  induction packets with
  | nil => intro c origins _ _ _; trivial
  | cons p ps ih =>
    intro c origins hc hlen hlive
    rw [List.flatMap_cons, List.length_append] at hlen
    rw [transcript]
    cases hp : consumePacket env c p with
    | none => trivial
    | some r =>
      have hconsumed : Consumed c p r.1 := consumePacket_consumed hp
      refine ⟨⟨hc, ?_, fun h => hlive (List.mem_of_mem_take h), hconsumed⟩, fun hne => ?_⟩
      · simp only [List.length_take]; omega
      · refine ih ((hconsumed.gated hc).1 hne) ?_ fun h => hlive (List.mem_of_mem_drop h)
        simp only [List.length_drop]; omega

theorem run_gated {env : Env} {packets : List Packet} : ∀ {c c' : Connection} {outs : List (Option Packet)}
    {origins : List Origin}, Gated c → run (consumePacket env) c packets = some (c', outs) →
    (∀ e ∈ traceBytes (transcript (consumePacket env) c packets) origins, e.step.after.phase ≠ .command) →
    Gated c' := by
  induction packets with
  | nil => intro c c' outs origins hc h _; cases h; exact hc
  | cons p ps ih =>
    intro c c' outs origins hc h hne
    obtain ⟨c₁, _, _, hp, hps, _⟩ := run_cons_some h
    rw [transcript_cons hp] at hne
    have hc₁ : Gated c₁ := ((consumePacket_consumed hp).gated hc).1 (hne ⟨_, _⟩ (List.mem_cons_self ..))
    exact ih hc₁ hps fun e he => hne e (List.mem_cons_of_mem _ he)

theorem Gated.sharing {c : Connection} (hc : Gated c) (shared : Shared) : Gated (c.sharing shared) :=
  ⟨hc.command, hc.pending, hc.last⟩

/-- Before the first command nothing is read from the replay log. -/
theorem receive_gated {env : Env} {x : Exchange} {read r : SocketRead} {c : Connection} {origin : Origin}
    (hx : Gated x.connection) (h : receive env x read = .bytes c r origin) :
    Gated c ∧ c.partialBytes = x.connection.partialBytes ∧ origin ≠ .replayLog := by
  have hlive : getResponseFromCache env x.connection read.buf.length = .notReplayed := by
    simp [getResponseFromCache, hx.last]
  unfold receive at h
  split at h
  · rw [hlive] at h
    dsimp only at h
    split_ifs at h
    cases h
    exact ⟨hx, rfl, by simp⟩
  · split_ifs at h
    cases h
    unfold switchIfAgreed
    split_ifs
    · exact ⟨⟨by simp [switchToTls], by simp [switchToTls], hx.last⟩, rfl, by simp⟩
    · exact ⟨hx, rfl, by simp⟩

/-- `origins` are those of the bytes held, none of them from the replay log. -/
structure Tracked (c : Connection) (origins : List Origin) : Prop where
  length : origins.length = (c.partialBytes.getD []).length
  live : Origin.replayLog ∉ origins

theorem withResidual_gated {c : Connection} (hc : Gated c) (residual : Bytes) : Gated (c.withResidual residual) := by
  rw [Connection.withResidual_eq]
  exact ⟨hc.command, hc.pending, hc.last⟩

theorem Tracked.read {c : Connection} {origins : List Origin} (h : Tracked c origins) (r : SocketRead)
    {origin : Origin} (ho : origin ≠ .replayLog) :
    (origins ++ List.replicate r.chunk.length origin).length = (c.partialBytes.getD [] ++ r.chunk).length ∧
      Origin.replayLog ∉ origins ++ List.replicate r.chunk.length origin := by
  refine ⟨by simp [h.length], fun hmem => ?_⟩
  rcases List.mem_append.1 hmem with hmem | hmem
  · exact h.live hmem
  · exact ho (List.eq_of_mem_replicate hmem).symm

theorem turnEvents_guarded {env : Env} {x : Exchange} {origins : List Origin} {turn : Turn}
    (hx : Gated x.connection) (ho : Tracked x.connection origins) :
    UntilCommand Guarded (turnEvents env x origins turn).1 := by
  unfold turnEvents
  split
  · rename_i c r origin hreceive
    obtain ⟨hc, hheld, horigin⟩ := receive_gated (hx.sharing turn.shared) hreceive
    obtain ⟨hlen, hlive⟩ := Tracked.read ⟨by rw [hheld]; exact ho.length, ho.live⟩ r horigin (c := c)
    unfold frameEvents
    split
    · trivial
    · rename_i c₀ packets hmake
      have hbytes := congrArg List.length (makePackets_bytes hmake)
      obtain ⟨rfl, _⟩ := makePackets_some hmake
      refine traceBytes_guarded (withResidual_gated hc _) ?_ hlive
      rw [hlen, ← hbytes]
      simp only [List.length_append]
      omega
  · trivial

theorem exchangeStep_gated {env : Env} {x x' : Exchange} {origins : List Origin} {turn : Turn}
    {r : Output × Shared} (hx : Gated x.connection) (ho : Tracked x.connection origins)
    (h : exchangeStep env x turn = some (x', r))
    (hne : ∀ e ∈ (turnEvents env x origins turn).1, e.step.after.phase ≠ .command) :
    Gated x'.connection ∧ Tracked x'.connection (turnEvents env x origins turn).2 := by
  rcases exchangeStep_cases h with ⟨hwait, hx'⟩ | ⟨c, read, origin, c', packets, hreceive, hframe, hx'⟩
  · rw [hx', turnEvents, hwait]
    exact ⟨hx.sharing _, ho.length, ho.live⟩
  · obtain ⟨hc, hheld, horigin⟩ := receive_gated (hx.sharing turn.shared) hreceive
    obtain ⟨hlen, hlive⟩ := Tracked.read ⟨by rw [hheld]; exact ho.length, ho.live⟩ read horigin (c := c)
    obtain ⟨c₀, ps, outs, hmake, hrun, _⟩ := processIncomingFrame_some hframe
    have hevents : turnEvents env x origins turn =
        (traceBytes (transcript (consumePacket env) c₀ ps) (origins ++ List.replicate read.chunk.length origin),
          (origins ++ List.replicate read.chunk.length origin).drop (ps.flatMap Packet.toBytes).length) := by
      rw [turnEvents, hreceive]
      simp only [frameEvents, hmake]
    rw [hevents] at hne ⊢
    have hheld' : c'.partialBytes = c₀.partialBytes :=
      run_invariant (I := fun s => s.partialBytes = c₀.partialBytes)
        (fun s p _ s' o hI hs => (consumePacket_frame hs).1.trans hI) rfl hrun
    have hbytes := congrArg List.length (makePackets_bytes hmake)
    have hc' : Gated c' := by
      obtain ⟨rfl, _⟩ := makePackets_some hmake
      exact run_gated (withResidual_gated hc _) hrun hne
    have hx'c : x'.connection = c' := by
      rcases hx' with hx' | ⟨i, hx', hi⟩
      · exact hx'
      · rw [hx']
        cases interceptIfEnabled_intercepts hi with
        | idle _ => rfl
        | passed _ hphase _ _ | answered _ hphase _ _ _ _ _ => exact absurd hphase hc'.pending
    rw [hx'c]
    refine ⟨hc', ?_, fun h => hlive (List.mem_of_mem_drop h)⟩
    rw [List.length_drop, hlen, hheld', ← hbytes, List.length_append]
    omega

theorem runEvents_guarded {env : Env} : ∀ {turns : List Turn} {x : Exchange} {origins : List Origin},
    Gated x.connection → Tracked x.connection origins → UntilCommand Guarded (runEvents env x origins turns)
  | [], _, _, _, _ => trivial
  | turn :: turns, x, origins, hx, ho => by
    refine untilCommand_append (turnEvents_guarded hx ho) fun hne => ?_
    split
    · trivial
    · rename_i x' r hstep
      obtain ⟨hx', ho'⟩ := exchangeStep_gated hx ho hstep hne
      exact runEvents_guarded hx' ho'

/-- A state in `Command` has had a packet that entered it. -/
theorem run_enters {env : Env} : ∀ {turns : List Turn} {x x' : Exchange} {origins : List Origin}
    {outs : List (Output × Shared)}, Gated x.connection → Tracked x.connection origins →
    run (exchangeStep env) x turns = some (x', outs) →
    (∀ e ∈ runEvents env x origins turns, e.step.after.phase ≠ .command) → Gated x'.connection
  | [], _, _, _, _, hx, _, h, _ => by cases h; exact hx
  | turn :: turns, x, x', origins, outs, hx, ho, h, hne => by
    obtain ⟨x₁, o, os, hstep, hrest, rfl⟩ := run_cons_some h
    rw [runEvents, hstep] at hne
    obtain ⟨hx₁, ho₁⟩ := exchangeStep_gated hx ho hstep fun e he => hne e (List.mem_append_left _ he)
    exact run_enters hx₁ ho₁ hrest fun e he => hne e (List.mem_append_right _ he)

/-- **The authentication gate.** In every run from a new connection none of whose packets consumed in
`AuthInit` or `AuthComplete` has a byte of the client, `Command` is first entered by an OK packet
read from the server, and it is not entered without a packet. -/
theorem auth_gate (env : Env) (server client : SwitchableConnection) (diff : StateDiffLog) (replay : ReplayLog)
    (kafka : Option String) (turns : List Turn)
    (hclient : ∀ e ∈ runEvents env (.start (.new server client diff replay kafka)) [] turns,
      e.step.before.phase = .authInit ∨ e.step.before.phase = .authComplete → Origin.client ∉ e.origins) :
    EnteredByServer (runEvents env (.start (.new server client diff replay kafka)) [] turns) ∧
      ∀ x' outs, run (exchangeStep env) (.start (.new server client diff replay kafka)) turns = some (x', outs) →
        x'.connection.phase = .command →
        ∃ e ∈ runEvents env (.start (.new server client diff replay kafka)) [] turns, e.step.after.phase = .command := by
  have hstart : Gated (Exchange.start (.new server client diff replay kafka)).connection :=
    ⟨by simp [Exchange.start, Connection.new], by simp [Exchange.start, Connection.new], rfl⟩
  have hnone : Tracked (Exchange.start (.new server client diff replay kafka)).connection [] := ⟨rfl, by simp⟩
  refine ⟨?_, ?_⟩
  · intro earlier e later hsplit hearlier hcommand
    have hguarded := @runEvents_guarded env turns _ [] hstart hnone
    rw [hsplit] at hguarded
    have he : Guarded e := untilCommand_first hguarded hearlier
    obtain ⟨hphase, hok⟩ := (he.consumed.gated he.gated).2 hcommand
    have hclient' := hclient e (by rw [hsplit]; simp) hphase
    refine ⟨hok, List.eq_replicate_iff.2 ⟨he.length, fun origin horigin => ?_⟩⟩
    cases origin with
    | client => exact absurd horigin hclient'
    | server => rfl
    | replayLog => exact absurd horigin he.live
  · intro x' outs hrun hcommand
    by_contra hno
    push Not at hno
    exact (run_enters hstart hnone hrun hno).command hcommand

/-! ## With and without the condition -/

/-- An OK packet with sequence number 2. -/
def sampleOk : Bytes := [7, 0, 0, 2, 0x00, 0, 0, 2, 0, 0, 0]

/-- A turn on these bytes, nothing being shared yet. -/
def sampleTurn (bytes : Bytes) : Turn := ⟨⟨∅, none, 0, 100⟩, .whole bytes⟩

/-- Greeting, answer, OK. -/
theorem auth_gate_polite :
    ∃ e ∈ runEvents sampleEnv (.start (.new .plain .plain ∅ none none)) []
        [sampleTurn sampleGreeting, sampleTurn sampleAnswer, sampleTurn sampleOk],
      e.step.after.phase = .command := by
  have hrun : ∃ x' outs, run (exchangeStep sampleEnv) (.start (.new .plain .plain ∅ none none))
      [sampleTurn sampleGreeting, sampleTurn sampleAnswer, sampleTurn sampleOk] = some (x', outs) ∧
      x'.connection.phase = .command := ⟨_, _, rfl, rfl⟩
  obtain ⟨x', outs, hrun, hphase⟩ := hrun
  refine (auth_gate sampleEnv .plain .plain ∅ none none _ ?_).2 x' outs hrun hphase
  have hevents : (runEvents sampleEnv (.start (.new .plain .plain ∅ none none)) []
      [sampleTurn sampleGreeting, sampleTurn sampleAnswer, sampleTurn sampleOk]).all fun e =>
        (e.step.before.phase != .authInit && e.step.before.phase != .authComplete) || !e.origins.contains .client := rfl
  intro e he hphase hclient
  have := List.all_eq_true.1 hevents e he
  rcases hphase with h | h <;> simp [h, hclient] at this

/-- The client sends its answer and an OK packet in one write: it is in without any byte of the
server since the greeting, and `exchange` goes on in the client loop. -/
theorem auth_gate_bypassed :
    ¬ EnteredByServer (runEvents sampleEnv (.start (.new .plain .plain ∅ none none)) []
        [sampleTurn sampleGreeting, sampleTurn (sampleAnswer ++ sampleOk)]) := by
  have hevents : ∃ e₁ e₂ e₃, runEvents sampleEnv (.start (.new .plain .plain ∅ none none)) []
        [sampleTurn sampleGreeting, sampleTurn (sampleAnswer ++ sampleOk)] = [e₁, e₂] ++ e₃ :: [] ∧
      e₁.step.after.phase = .handshakeResponse ∧ e₂.step.after.phase = .authInit ∧
      e₃.step.after.phase = .command ∧ e₃.origins = List.replicate 11 .client :=
    ⟨_, _, _, rfl, rfl, rfl, rfl, rfl⟩
  obtain ⟨e₁, e₂, e₃, hsplit, h₁, h₂, h₃, horigins⟩ := hevents
  intro h
  obtain ⟨_, hserver⟩ := h [e₁, e₂] e₃ [] hsplit (by simp [h₁, h₂]) h₃
  have := congrArg (Origin.client ∈ ·) hserver
  simp [horigins] at this

end MocksySql
