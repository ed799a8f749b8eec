import MocksySql.RecordReplay
import MocksySql.WriteSessions
/-!
# Sessions in replay mode

A session through a process that replays: the queries that `send_command_to_server` keeps off the server are answered from
the replay log, and all the rest is relayed.

| here | there |
| --- | --- |
| `passes`         | a last command that `send_command_to_server` (`connection_handler.rs:180`) lets through, with a replay log |
| `Round.keptOff`  | a round whose command it does not |

* `server_relayed`, `client_relayed` — a transmission that comes from a socket.
* `supplied` — any transmission, with `response_recalled` for those that do not.
* `process_replays_session` — every run of a process.
-/

namespace MocksySql
open FieldDecode PartialRun ByteStream

/-! ## What goes to the server -/

instance (s : Statement) : Decidable (s.IsQuery ∧ ¬ s.WithoutFrom) :=
  decidable_of_iff (passesThrough s = false) (by rw [← Bool.not_eq_true, passesThrough_iff, not_or, not_not, and_comm])

instance (command : Command) : Decidable command.StaysBack :=
  inferInstanceAs (Decidable (_ ∧ ∀ ast ∈ command.ast, ∃ s ∈ ast, s.IsQuery ∧ ¬ s.WithoutFrom))

def passes (lastCommand : Option Command) : Bool := lastCommand.all fun command => ¬ command.StaysBack

section
variable {env : Env} {x : Exchange} {c c' : Connection} {turn : Turn} {packets : List Packet}

theorem sendCommandToServer_passes (hreplay : c.replay.isSome) : sendCommandToServer c = passes c.lastCommand := by
  cases hcommand : c.lastCommand with
  | none => simp [sendCommandToServer, hcommand, passes]
  | some command =>
    have hback := sendCommandToServer_iff hreplay hcommand
    by_cases hkept : command.StaysBack
    · rw [hback.2 hkept]
      simp [passes, hkept]
    · rw [passes, Option.all_some, decide_eq_true hkept]
      rwa [← Bool.not_eq_false, hback]

/-! ## One turn -/

theorem processIncomingFrame_replaying (replay : ReplayLog) (rest : Option Bytes) {r : SocketRead}
    (h : processIncomingFrame env r.buf c r.readBytes = some (c', packets)) :
    processIncomingFrame env r.buf (c.replaying replay rest) r.readBytes = some (c'.replaying replay rest, packets) := by
  obtain ⟨c₀, ps, outs, hmake, hrun, rfl⟩ := processIncomingFrame_some h
  have hmake' : makePackets r.buf (c.replaying replay rest) r.readBytes = some (c₀.replaying replay rest, ps) := by
    rw [makePackets_eq] at hmake ⊢
    obtain ⟨_, hps, hmake⟩ := Option.bind_eq_some_iff.1 hmake
    refine Option.bind_eq_some_iff.2 ⟨_, hps, ?_⟩
    split_ifs at hmake with horder
    cases hmake
    rw [if_pos horder, Connection.withResidual_eq, Connection.withResidual_eq]
    rfl
  have hrun' := run_map (f := (·.replaying replay rest)) (consumePacket_replaying replay rest) hrun
  simp only [processIncomingFrame, hmake', hrun', Option.bind_eq_bind, Option.bind_some]

/-- What a turn in replay mode starts from. -/
theorem sharing_replaying {shared : Shared} (hshared : shared.Replays) (hnone : c.partialReplayBytes = none) :
    c.sharing shared = c.detached.replaying shared.replay none := by
  rw [Connection.sharing, hshared.1, ← hnone]
  rfl

/-- A turn that reads from the server's socket. -/
theorem exchangeStep_serverSocket (hturn : turn.shared.Replays) (hread : turn.read.chunk ≠ [])
    (hnone : x.connection.partialReplayBytes = none) (hlisten : x.listening = .server)
    (hpasses : passes x.connection.lastCommand)
    (hframe : processIncomingFrame env turn.read.buf x.connection.detached turn.read.readBytes = some (c', packets)) :
    ∃ x' records, exchangeStep env x turn = some (x', ⟨generateOutgoingFrame packets, [], records⟩, turn.shared) ∧
      x'.connection = c'.replaying turn.shared.replay none ∧ x'.listening = nextListening .server c'.phase := by
  have hopen : turn.read.readBytes ≠ 0 := fun h => hread (by simp [SocketRead.chunk, h])
  have hsent : sendCommandToServer (x.connection.sharing turn.shared) = true := by
    rw [sendCommandToServer_passes hturn.2]
    exact hpasses
  have hcache := @getResponseFromCache_sent env _ hsent turn.read.buf.length
  have hreceive : receive env { x with connection := x.connection.sharing turn.shared } turn.read =
      .bytes (x.connection.sharing turn.shared) turn.read .server := by
    unfold receive
    simp only [hlisten, hcache, if_neg hopen]
  have hframe' := processIncomingFrame_replaying turn.shared.replay none hframe
  rw [← sharing_replaying hturn hnone] at hframe'
  have hstep : exchangeStep env x turn =
      (serverTurn env { x with connection := x.connection.sharing turn.shared } turn.read).map
        fun r => (r.1, r.2, turn.shared) := by
    unfold exchangeStep
    simp only [hreceive]
    simp only [hlisten]
  rw [serverTurn_of_frame (by exact hframe'), Option.map_some] at hstep
  exact ⟨_, _, hstep, rfl, rfl⟩

/-- A turn that reads from the client's. -/
theorem exchangeStep_clientSocket (hin : ¬ env.interceptWrites) (hturn : turn.shared.Replays) (hread : turn.read.chunk ≠ [])
    (hnone : x.connection.partialReplayBytes = none) (hlisten : x.listening = .client)
    (hplain : x.connection.phase ≠ .tlsExchange)
    (hframe : processIncomingFrame env turn.read.buf x.connection.detached turn.read.readBytes = some (c', packets)) :
    ∃ x' shared, exchangeStep env x turn =
        some (x', ⟨[], if passes c'.lastCommand then generateOutgoingFrame packets else [], []⟩, shared) ∧
      x'.connection = c'.replaying turn.shared.replay none ∧ x'.listening = nextListening .client c'.phase := by
  have hopen : turn.read.readBytes ≠ 0 := fun h => hread (by simp [SocketRead.chunk, h])
  have hreceive : receive env { x with connection := x.connection.sharing turn.shared } turn.read =
      .bytes (x.connection.sharing turn.shared) turn.read .client := by
    unfold receive
    simp only [hlisten, if_neg hopen]
    rw [switchIfAgreed_of_ne (by exact hplain)]
  have hframe' := processIncomingFrame_replaying turn.shared.replay none hframe
  rw [← sharing_replaying hturn hnone] at hframe'
  have hoff : ∀ drawn counter, interceptIfEnabled env (c'.replaying turn.shared.replay none) packets drawn counter =
      some { connection := c'.replaying turn.shared.replay none, drawn, globalCounter := counter, response := none } :=
    fun drawn counter => if_neg hin
  have hsent : sendCommandToServer (c'.replaying turn.shared.replay none) = passes c'.lastCommand :=
    sendCommandToServer_passes hturn.2
  have hstep : exchangeStep env x turn =
      some (afterClientFrame { x with connection := x.connection.sharing turn.shared } (c'.replaying turn.shared.replay none),
        ⟨[], if passes c'.lastCommand then generateOutgoingFrame packets else [], []⟩,
        { turn.shared with diff := c'.diff }) := by
    unfold exchangeStep
    simp only [hreceive]
    simp only [hlisten, clientTurn, hframe', hoff, hsent, Option.bind_eq_bind, Option.bind_some, Option.map_some,
      afterClientFrame_connection]
    rfl
  refine ⟨_, _, hstep, afterClientFrame_connection _ _, ?_⟩
  by_cases hnext : c'.phase ∈ clientTransitionPhases
  · rw [afterClientFrame, if_pos (by exact hnext), nextListening, if_pos hnext]
  · rw [afterClientFrame, if_neg (by exact hnext), nextListening, if_neg hnext]
    exact hlisten

/-! ## One transmission -/

theorem detached_iff : c.detached = c ↔ c.diff = ∅ ∧ c.replay = none ∧ c.partialReplayBytes = none := by
  constructor
  · intro h
    rw [← h]
    exact ⟨rfl, rfl, rfl⟩
  · rintro ⟨hdiff, hreplay, hrest⟩
    rw [Connection.detached, ← hdiff, ← hreplay, ← hrest]

theorem Consumes.detached {fs : List Frame} (hc : c.detached = c) (h : Consumes env c fs c') : c'.detached = c' := by
  have hstep : ∀ {c c' p out}, c.detached = c → consumePacket env c p = some (c', out) → c'.detached = c' := by
    intro c c' p out hc hstep
    rw [detached_iff] at hc ⊢
    obtain ⟨hreplay, hrest⟩ := consumePacket_replay hstep
    exact ⟨(consumePacket_frame hstep).2.trans hc.1, hreplay.trans hc.2.1, hrest.trans hc.2.2⟩
  induction h with
  | last _ hlast => exact hstep hc hlast
  | more _ hfirst _ _ ih => exact ih (hstep hc hfirst)

theorem processIncomingFrame_detached {r : SocketRead}
    (h : processIncomingFrame env r.buf c.detached r.readBytes = some (c', packets)) : c'.detached = c' := by
  obtain ⟨hreplay, hrest⟩ := processIncomingFrame_replay h
  exact detached_iff.2 ⟨processIncomingFrame_diff h, hreplay, hrest⟩

/-- The turn with the last packet. -/
theorem Through.of_turn {side : Side} {x' : Exchange} {replay : ReplayLog}
    (hconnection : x'.connection = (c'.withResidual []).replaying replay none)
    (hskip : (c'.withResidual []).queryResponse.skippedPackets = 0)
    (hlisten : x'.listening = nextListening side (c'.withResidual []).phase) : Through side x' c' where
  connection := by
    rw [hconnection, ← Connection.detached_withResidual]
    rfl
  delivered := by rw [hconnection]; rfl
  unskipped := by rw [hconnection]; exact hskip
  listening := by rw [hlisten, Connection.withResidual_phase]

/-- **What the server says**, in any reads. -/
theorem server_relayed : ∀ {turns : List Turn} {x : Exchange} {fs : List Frame} {c' : Connection},
    Consumes env x.connection.detached fs c' → (∀ f ∈ fs, f.WellFormed) → InOrder (fs.map (·.1)) →
    x.connection.partialBytes.getD [] ++ turns.flatMap (·.read.chunk) = fs.flatMap Frame.toBytes → turns ≠ [] →
    (∀ turn ∈ turns, turn.read.chunk ≠ [] ∧ turn.shared.Replays) → x.listening = .server →
    x.connection.phase.speaker = .server → x.connection.partialReplayBytes = none →
    x.connection.queryResponse.skippedPackets = 0 → passes x.connection.lastCommand →
    ∃ x' outs, run (exchangeStep env) x turns = some (x', outs) ∧
      outs.flatMap (·.1.toClient) = x.connection.partialBytes.getD [] ++ turns.flatMap (·.read.chunk) ∧
      (∀ o ∈ outs, o.1.toServer = []) ∧ Through .server x' c'
  | [], _, _, _, _, _, _, _, hne, _, _, _, _, _, _ => absurd rfl hne
  | turn :: turns, x, fs, c', hconsumes, hfs, horder, hstream, _, hturns, hlisten, hspeaker, hnone, hskip, hpasses => by
    obtain ⟨⟨hread, hreplays⟩, hrest⟩ := List.forall_mem_cons.1 hturns
    have hquiet : Quiet x.connection.detached := ⟨rfl, hskip⟩
    have hwaits : x.connection.phase ≠ .command := by
      intro h
      rw [h] at hspeaker
      cases hspeaker
    rw [List.flatMap_cons, ← List.append_assoc] at hstream ⊢
    by_cases hlater : turns.flatMap (·.read.chunk) = []
    · obtain rfl := (chunks_eq_nil fun t ht => (hrest t ht).1).1 hlater
      rw [List.flatMap_nil, List.append_nil] at hstream ⊢
      obtain ⟨packets, hframe⟩ := processIncomingFrame_all hfs horder hconsumes hstream
      obtain ⟨x', records, hstep, hconnection, hnext⟩ := exchangeStep_serverSocket hreplays hread hnone hlisten hpasses hframe
      obtain ⟨hbytes, hquiet'⟩ := processIncomingFrame_quiet hquiet hframe
      rw [Connection.withResidual_partialBytes, List.append_nil] at hbytes
      exact ⟨x', _, by rw [run_singleton, hstep]; rfl, by rw [List.flatMap_singleton]; exact hbytes, by simp,
        .of_turn hconnection hquiet'.skipped hnext⟩
    · obtain ⟨c₁, packets, residual, fs', hframe, hphase, hfs', horder', hconsumes', hstream'⟩ :=
        processIncomingFrame_some_of hfs horder hconsumes hstream hlater
      obtain ⟨x₁, records, hstep, hconnection, hnext⟩ := exchangeStep_serverSocket hreplays hread hnone hlisten hpasses hframe
      obtain ⟨hbytes, hquiet₁⟩ := processIncomingFrame_quiet hquiet hframe
      have hdetached : x₁.connection.detached = c₁ := by
        rw [hconnection]
        exact processIncomingFrame_detached hframe
      have hphase₁ : x₁.connection.phase = x.connection.phase := by rw [hconnection]; exact hphase
      have hheld : x₁.connection.partialBytes = c₁.partialBytes := by rw [hconnection]; rfl
      have hcommand : x₁.connection.lastCommand = x.connection.lastCommand := by
        have hall := hconsumes.lastCommand (by exact hwaits)
        have hlast := hconsumes'.lastCommand (by rw [hphase]; exact hwaits)
        rw [Connection.withResidual_eq] at hlast
        rw [hconnection]
        exact hlast.symm.trans hall
      rw [← hdetached] at hconsumes'
      obtain ⟨x', outs, hrun, hwritten, hservers, hthrough⟩ := server_relayed hconsumes' hfs' horder'
        (by rw [hheld]; exact hstream') (fun h => hlater (by rw [h]; rfl)) hrest
        (by rw [hnext, hphase, show x.connection.detached.phase = x.connection.phase from rfl, ← hspeaker]
            exact nextListening_stays _)
        (by rw [hphase₁, hspeaker]) (by rw [hconnection]; rfl) (by rw [hconnection]; exact hquiet₁.skipped)
        (by rwa [hcommand])
      refine ⟨x', _ :: outs, by rw [run_cons hstep, hrun]; rfl, ?_, List.forall_mem_cons.2 ⟨rfl, hservers⟩,
        hthrough.of_withResidual⟩
      rw [List.flatMap_cons, hwritten, hheld, ← List.append_assoc, hbytes]
      rfl

/-- **What the client says**, in any reads of one packet. -/
theorem client_relayed (hin : ¬ env.interceptWrites) {f : Frame} {p : Packet} {out : Option Packet} (hf : f.WellFormed) :
    ∀ {turns : List Turn} {x : Exchange} {c' : Connection}, f.toPacket x.connection.phase = some p →
    consumePacket env x.connection.detached p = some (c', out) →
    x.connection.partialBytes.getD [] ++ turns.flatMap (·.read.chunk) = f.toBytes → turns ≠ [] →
    (∀ turn ∈ turns, turn.read.chunk ≠ [] ∧ turn.shared.Replays) → x.connection.phase ≠ .tlsExchange →
    x.listening = .client → x.connection.phase.speaker = .client → x.connection.partialReplayBytes = none →
    x.connection.queryResponse.skippedPackets = 0 →
    ∃ x' outs, run (exchangeStep env) x turns = some (x', outs) ∧
      outs.flatMap (·.1.toServer) = (if passes c'.lastCommand then f.toBytes else []) ∧
      (∀ o ∈ outs, o.1.toClient = []) ∧ Through .client x' c'
  | [], _, _, _, _, _, hne, _, _, _, _, _, _ => absurd rfl hne
  | turn :: turns, x, c', hp, hconsume, hstream, _, hturns, hplain, hlisten, hspeaker, hnone, hskip => by
    obtain ⟨⟨hread, hreplays⟩, hrest⟩ := List.forall_mem_cons.1 hturns
    have hquiet : Quiet x.connection.detached := ⟨rfl, hskip⟩
    rw [List.flatMap_cons, ← List.append_assoc] at hstream
    by_cases hlater : turns.flatMap (·.read.chunk) = []
    · obtain rfl := (chunks_eq_nil fun t ht => (hrest t ht).1).1 hlater
      rw [List.flatMap_nil, List.append_nil] at hstream
      have hframe := @processIncomingFrame_single env _ x.connection.detached turn.read f p _ hf hp hconsume hstream
      obtain ⟨x', shared, hstep, hconnection, hnext⟩ :=
        exchangeStep_clientSocket hin hreplays hread hnone hlisten hplain hframe
      obtain ⟨hbytes, hquiet'⟩ := processIncomingFrame_quiet hquiet hframe
      have hall := hbytes.trans hstream
      rw [Connection.withResidual_partialBytes, List.append_nil] at hall
      refine ⟨x', _, by rw [run_singleton, hstep]; rfl, ?_, by simp, .of_turn hconnection hquiet'.skipped hnext⟩
      rw [hall, Connection.withResidual_eq]
      simp
    · have hframe := @processIncomingFrame_within env x.connection.detached turn.read f _ hf hstream hlater
      obtain ⟨x₁, shared, hstep, hconnection, hnext⟩ :=
        exchangeStep_clientSocket hin hreplays hread hnone hlisten hplain hframe
      have hdetached : x₁.connection.detached =
          x.connection.detached.withResidual (x.connection.detached.partialBytes.getD [] ++ turn.read.chunk) := by
        rw [hconnection]
        exact processIncomingFrame_detached hframe
      have hphase₁ : x₁.connection.phase = x.connection.phase := by
        rw [hconnection]
        exact Connection.withResidual_phase ..
      have hheld : x₁.connection.partialBytes.getD [] = x.connection.partialBytes.getD [] ++ turn.read.chunk := by
        rw [hconnection]
        exact Connection.withResidual_partialBytes ..
      have hconsume₁ := consumePacket_withResidual (x.connection.detached.partialBytes.getD [] ++ turn.read.chunk) hconsume
      rw [← hdetached] at hconsume₁
      obtain ⟨x', outs, hrun, hsent, hclients, hthrough⟩ := client_relayed hin hf (by rwa [hphase₁]) hconsume₁
        (by rw [hheld]; exact hstream) (fun h => hlater (by rw [h]; rfl)) hrest (by rwa [hphase₁])
        (by rw [hnext, Connection.withResidual_phase, show x.connection.detached.phase = x.connection.phase from rfl, ← hspeaker]
            exact nextListening_stays _)
        (by rw [hphase₁, hspeaker]) (by rw [hconnection]; rfl) (by rw [hconnection, Connection.withResidual_eq]; exact hskip)
      refine ⟨x', _ :: outs, by rw [run_cons hstep, hrun]; rfl, ?_, List.forall_mem_cons.2 ⟨rfl, hclients⟩,
        hthrough.of_withResidual⟩
      rw [Connection.withResidual_eq] at hsent
      rw [List.flatMap_cons, hsent]
      simp [generateOutgoingFrame]

end

/-! ## Dialogues in replay mode -/

/-- A transmission and, where it is a command that is kept off the server or the response to one, that command. -/
structure Utterance extends Transmission where
  keptOff : Option Command

namespace Utterance

def toClient (u : Utterance) : Bytes := if u.sender = .server then u.bytes else []

def toServer (u : Utterance) : Bytes := if u.sender = .client ∧ u.keptOff = none then u.bytes else []

/-- These turns bring it: read from the peer or, a response that is kept in the replay log, delivered as the first round that
finds an entry finds it. -/
inductive Supplied (env : Env) (size : Nat) (u : Utterance) (turns : List Turn) : Prop
  | read : (u.sender = .server → u.keptOff = none) → Brings turns u.toTransmission → Supplied env size u turns
  | recalled {command : Command} : u.sender = .server → u.keptOff = some command →
      Redelivers env command size u.bytes turns →
      (turns.filterMap (Turn.found env command)).head? = some u.bytes → Supplied env size u turns

/-- In these steps, which are these turns, it goes where it is to go. -/
structure Performed (u : Utterance) (turns : List Turn) (steps : List (Step Exchange Turn (Output × Shared))) : Prop where
  inputs : steps.map (·.input) = turns
  toClient : steps.flatMap (·.output.1.toClient) = u.toClient
  toServer : steps.flatMap (·.output.1.toServer) = u.toServer

end Utterance

/-- In these steps the utterances of a script go where they are to go, one after the other, each in its turns. -/
inductive PerformedAll : List (Utterance × List Turn) → List (Step Exchange Turn (Output × Shared)) → Prop
  | nil : PerformedAll [] []
  | cons {u : Utterance} {turns : List Turn} {script : List (Utterance × List Turn)}
      {steps later : List (Step Exchange Turn (Output × Shared))} : u.Performed turns steps → PerformedAll script later →
      PerformedAll ((u, turns) :: script) (steps ++ later)

/-- What a connection makes of it, were there no replay log. -/
structure Utters (env : Env) (c : Connection) (u : Utterance) (c' : Connection) : Prop where
  accepts : Accepts env c u.toTransmission c'
  client : u.sender = .client → (∃ f, u.frames = [f]) ∧ passes c'.lastCommand = u.keptOff.isNone
  passed : u.sender = .server → u.keptOff = none → passes c.lastCommand
  keptOff {command : Command} : u.sender = .server → u.keptOff = some command →
    command.StaysBack ∧ c.lastCommand = some command ∧ c.phase = .pendingResponse

inductive UttersAll (env : Env) : Connection → List Utterance → Connection → Prop
  | nil (c : Connection) : UttersAll env c [] c
  | cons {c c₁ c' : Connection} {u : Utterance} {us : List Utterance} : Utters env c u c₁ → UttersAll env c₁ us c' →
      UttersAll env c (u :: us) c'

/-- Between two of them nothing is held or left to deliver, and the peer is listened to that the phase waits for. -/
structure RestsReplaying (x : Exchange) (c : Connection) : Prop where
  connection : x.connection.detached = c
  delivered : x.connection.partialReplayBytes = none
  nothing : c.partialBytes = none
  unskipped : c.queryResponse.skippedPackets = 0
  listening : x.listening = c.phase.speaker

section
variable {env : Env} {x : Exchange} {c c' : Connection} {u : Utterance}

theorem UttersAll.append {c₁ : Connection} {us vs : List Utterance} (h : UttersAll env c us c₁)
    (h' : UttersAll env c₁ vs c') : UttersAll env c (us ++ vs) c' := by
  induction h with
  | nil => exact h'
  | cons hu _ ih => exact .cons hu (ih h')

theorem Through.rests {side : Side} {x' : Exchange} (h : Through side x' c') (hc : c'.detached = c')
    (hnothing : c'.partialBytes = none) (hyields : nextListening side c'.phase = c'.phase.speaker) : RestsReplaying x' c' := by
  have hconnection := h.connection
  rw [hc, Connection.withResidual_nil hnothing] at hconnection
  exact ⟨hconnection, h.delivered, hnothing, by rw [← hconnection]; exact h.unskipped, by rw [h.listening, hyields]⟩

theorem Utterance.Performed.of_run {turns : List Turn} {x' : Exchange} {outs : List (Output × Shared)}
    (hrun : run (exchangeStep env) x turns = some (x', outs)) (hclient : outs.flatMap (·.1.toClient) = u.toClient)
    (hserver : outs.flatMap (·.1.toServer) = u.toServer) : u.Performed turns (transcript (exchangeStep env) x turns) := by
  obtain ⟨hinputs, houtputs⟩ := transcript_of_run hrun
  refine ⟨hinputs, ?_, ?_⟩
  · rw [← hclient, ← houtputs, List.flatMap_map]
  · rw [← hserver, ← houtputs, List.flatMap_map]

theorem PerformedAll.written {script : List (Utterance × List Turn)} {steps : List (Step Exchange Turn (Output × Shared))}
    (h : PerformedAll script steps) : steps.flatMap (·.output.1.toClient) = script.flatMap (·.1.toClient) ∧
      steps.flatMap (·.output.1.toServer) = script.flatMap (·.1.toServer) := by
  induction h with
  | nil => exact ⟨rfl, rfl⟩
  | cons hperformed _ ih =>
    simp only [List.flatMap_append, List.flatMap_cons, hperformed.toClient, hperformed.toServer, ih, and_self]

/-- **One utterance**, wherever it comes from. -/
theorem supplied (hin : ¬ env.interceptWrites) {size : Nat} (hsize : 0 < size) (hx : RestsReplaying x c)
    (hu : Utters env c u c') {turns : List Turn} (hsupplied : u.Supplied env size turns)
    (hreplays : ∀ turn ∈ turns, turn.shared.Replays) :
    ∃ x' outs, run (exchangeStep env) x turns = some (x', outs) ∧
      u.Performed turns (transcript (exchangeStep env) x turns) ∧ RestsReplaying x' c' := by
  obtain ⟨rfl, hdelivered, hnothing, hskip, hlisten⟩ := hx
  obtain ⟨haccepts, hclient, hpassed, hkeptOff⟩ := hu
  have hheld : x.connection.partialBytes = none := hnothing
  have hnothing' : c'.partialBytes = none := haccepts.consumed.partialBytes.trans hnothing
  have hdetached : c'.detached = c' := haccepts.consumed.detached rfl
  have hspeaker : x.listening = u.sender := hlisten.trans haccepts.speaks.symm
  have hphase : x.connection.phase.speaker = u.sender := haccepts.speaks.symm
  have hbytes : u.bytes = u.frames.flatMap Frame.toBytes := rfl
  cases hsupplied with
  | read hread hturns =>
    have hstream : x.connection.partialBytes.getD [] ++ turns.flatMap (·.read.chunk) = u.bytes := by
      rw [hheld]
      exact hturns.stream
    have hne : turns ≠ [] := by
      rintro rfl
      exact Transmission.bytes_ne_nil haccepts.consumed.ne_nil hturns.stream.symm
    have hreads : ∀ turn ∈ turns, turn.read.chunk ≠ [] ∧ turn.shared.Replays :=
      fun turn hturn => ⟨hturns.nonempty turn hturn, hreplays turn hturn⟩
    cases hsender : u.sender with
    | server =>
      rw [hsender] at hspeaker hphase
      have hpasses := hpassed hsender (hread hsender)
      obtain ⟨x', outs, hrun, hwritten, hservers, hthrough⟩ := server_relayed haccepts.consumed haccepts.wellFormed
        haccepts.inOrder hstream hne hreads hspeaker hphase hdelivered hskip hpasses
      refine ⟨x', outs, hrun, .of_run hrun ?_ ?_, hthrough.rests hdetached hnothing' (hsender ▸ haccepts.yields)⟩
      · rw [hwritten, hstream, Utterance.toClient, if_pos hsender]
      · rw [Utterance.toServer, if_neg (by simp [hsender]), List.flatMap_eq_nil_iff]
        exact hservers
    | client =>
      rw [hsender] at hspeaker hphase
      obtain ⟨⟨f, hframes⟩, hpasses⟩ := hclient hsender
      rw [hbytes, hframes, List.flatMap_singleton] at hstream
      have hconsumed := haccepts.consumed
      rw [hframes] at hconsumed
      obtain ⟨p, out, hp, hconsume⟩ : ∃ p out, f.toPacket x.connection.detached.phase = some p ∧
          consumePacket env x.connection.detached p = some (c', out) := by
        cases hconsumed with
        | last hp hstep => exact ⟨_, _, hp, hstep⟩
        | more _ _ _ hrest => exact absurd rfl hrest.ne_nil
      have hf : f.WellFormed := haccepts.wellFormed f (by rw [hframes]; exact List.mem_singleton_self _)
      obtain ⟨x', outs, hrun, hsent, hclients, hthrough⟩ := client_relayed hin hf hp hconsume hstream hne hreads haccepts.plain
        hspeaker hphase hdelivered hskip
      refine ⟨x', outs, hrun, .of_run hrun ?_ ?_, hthrough.rests hdetached hnothing' (hsender ▸ haccepts.yields)⟩
      · rw [Utterance.toClient, if_neg (by simp [hsender]), List.flatMap_eq_nil_iff]
        exact hclients
      · rw [hsent, hpasses, Utterance.toServer, hbytes, hframes, List.flatMap_singleton]
        simp [hsender]
  | recalled hsender hcommand hturns hfirst =>
    rw [hsender] at hspeaker
    obtain ⟨hkept, hlast, hpending⟩ := hkeptOff hsender hcommand
    have hreplaying : Replaying env _ x u.bytes u.frames c' :=
      ⟨hspeaker, hpending, hlast, hskip, haccepts.consumed, haccepts.wellFormed, haccepts.inOrder, by rw [hheld]; rfl⟩
    have hne : u.bytes ≠ [] := Transmission.bytes_ne_nil haccepts.consumed.ne_nil
    obtain ⟨x', outs, hrun, hwritten, hservers, hthrough⟩ := response_recalled hsize hkept hreplaying hne hturns (by
      intro entry hentry
      rw [hfirst] at hentry
      rw [Connection.toTransmit, hdelivered]
      exact (Option.some.inj hentry).symm)
    refine ⟨x', outs, hrun, .of_run hrun ?_ ?_, hthrough.rests hdetached hnothing' (hsender ▸ haccepts.yields)⟩
    · rw [hwritten, hheld, Utterance.toClient, if_pos hsender]
      rfl
    · rw [Utterance.toServer, if_neg (by simp [hsender]), List.flatMap_eq_nil_iff]
      exact hservers

/-- **A dialogue in replay mode**, whatever turns bring it. -/
theorem performed (hin : ¬ env.interceptWrites) {size : Nat} (hsize : 0 < size) :
    ∀ {script : List (Utterance × List Turn)} {x : Exchange} {c c' : Connection}, RestsReplaying x c →
    UttersAll env c (script.map (·.1)) c' → (∀ e ∈ script, e.1.Supplied env size e.2) →
    (∀ turn ∈ script.flatMap (·.2), turn.shared.Replays) →
    ∃ x' outs, run (exchangeStep env) x (script.flatMap (·.2)) = some (x', outs) ∧
      PerformedAll script (transcript (exchangeStep env) x (script.flatMap (·.2))) ∧ RestsReplaying x' c'
  | [], x, c, c', hx, hall, _, _ => by
    cases hall
    exact ⟨x, [], rfl, .nil, hx⟩
  | (u, turns) :: script, x, c, c', hx, hall, hsupplied, hreplays => by
    obtain ⟨hfirst, hsupplied⟩ := List.forall_mem_cons.1 hsupplied
    rw [List.flatMap_cons, List.forall_mem_append] at hreplays
    cases hall with
    | cons hu hall =>
      obtain ⟨x₁, outs₁, hrun₁, hperformed, hx₁⟩ := supplied hin hsize hx hu hfirst hreplays.1
      obtain ⟨x', outs, hrun, hlater, hx'⟩ := performed hin hsize hx₁ hall hsupplied hreplays.2
      refine ⟨x', outs₁ ++ outs, run_append_some hrun₁ hrun, ?_, hx'⟩
      rw [List.flatMap_cons, transcript_append hrun₁]
      exact .cons hperformed hlater

end

/-! ## Sessions in replay mode -/

namespace Round

/-- The command of a round, if it is kept off the server. -/
def keptOff (env : Env) (r : Round) : Option Command :=
  ((MySqlCommand.fromByte r.code).bind fun code => Command.fromBytes env code (argument r.code r.arg)).filter
    fun command => command.StaysBack

def utterances (env : Env) (clientFlag : UInt32) (r : Round) : List Utterance :=
  ⟨r.asked clientFlag, r.keptOff env⟩ :: r.answered.map (⟨·, r.keptOff env⟩)

end Round

def Session.utterances (env : Env) (s : Session) : List Utterance :=
  s.opening.map (⟨·, none⟩) ++ s.rounds.flatMap (Round.utterances env s.answer.clientFlag)

section
variable {env : Env} {c c' : Connection} {clientFlag : UInt32}

theorem LogsIn.utters {ts : List Transmission} (h : LogsIn env c ts c') :
    c.lastCommand = none → UttersAll env c (ts.map (⟨·, none⟩)) c' := by
  induction h with
  | nil c => exact fun _ => .nil c
  | cons hphase ht _ ih =>
    intro hnone
    have hnone' := (ht.consumed.lastCommand hphase).trans hnone
    refine .cons ⟨ht, fun _ => ⟨⟨_, rfl⟩, ?_⟩, fun _ _ => ?_, fun _ h => by cases h⟩ (ih hnone')
    · rw [hnone']
      rfl
    · rw [hnone]
      rfl

theorem round_utters (h41 : hasFlag clientFlag .clientProtocol41) {r : Round} (hc : Serves clientFlag c)
    (hr : r.WellFormed clientFlag) : ∃ c', UttersAll env c (r.utterances env clientFlag) c' ∧ Serves clientFlag c' := by
  obtain ⟨code, hcode, hresponds⟩ := hr.command
  obtain ⟨command, p, c₁, hread, -, hasked, hphase, hcommand, hfresh, hflags, hdiff⟩ :=
    @accepts_command env c r clientFlag code hc.phase hc.flags hcode hr.text hr.small
  rw [hc.flags] at hflags
  rw [hc.diff] at hdiff
  have hkept : r.keptOff env = if command.StaysBack then some command else none := by
    rw [Round.keptOff, hcode, Option.bind_some, hread, Option.filter_some]
    simp
  have hpasses : passes c₁.lastCommand = (r.keptOff env).isNone := by
    rw [hcommand, hkept, passes, Option.all_some]
    by_cases hoff : command.StaysBack <;> simp [hoff]
  have hutters : Utters env c ⟨r.asked clientFlag, r.keptOff env⟩ c₁ :=
    ⟨hasked, fun _ => ⟨⟨_, rfl⟩, hpasses⟩, fun h => (by cases h), fun h => (by cases h)⟩
  rw [Round.utterances, Round.answered]
  by_cases hnil : r.response = []
  · rw [if_pos (hresponds.eq_nil_iff.1 hnil)] at hphase
    rw [if_pos hnil]
    exact ⟨c₁, .cons hutters (.nil _), hphase, hflags, hdiff⟩
  · rw [if_neg fun hclose => hnil (hresponds.eq_nil_iff.2 hclose)] at hphase
    rw [if_neg hnil]
    obtain rfl := Command.fromBytes_comCode hread
    obtain ⟨c', hanswered, hc'⟩ := accepts_response h41 hphase hflags hcommand hfresh hdiff hresponds hnil hr
    refine ⟨c', .cons hutters (.cons ⟨hanswered, fun h => (by cases h), fun _ hnone => ?_, fun _ hsome => ?_⟩ (.nil _)), hc'⟩
    · rw [hpasses, Option.isNone_iff_eq_none]
      exact hnone
    · dsimp only at hsome
      rw [hkept] at hsome
      split_ifs at hsome with hoff
      cases hsome
      exact ⟨hoff, hcommand, hphase⟩

/-- **A session in replay mode** from the greeting to its last round. -/
theorem Session.utters {s : Session} (hs : s.WellFormed) (kafka : Option String) :
    ∃ c', UttersAll env (.new .plain .plain ∅ none kafka) (s.utterances env) c' ∧ Serves s.answer.clientFlag c' := by
  obtain ⟨c₁, hlogsIn, hc₁⟩ := @Session.logsIn env s hs .plain .plain kafka
  obtain ⟨c', hrounds, hc'⟩ := rounds_served UttersAll.nil .append (round_utters s.answer.protocol41) hc₁ hs.rounds
  exact ⟨c', .append (hlogsIn.utters rfl) hrounds, hc'⟩

end

/-! ## The process -/

theorem Process.start_replays {κ : Type} {vars : String → Option String} {p₀ : Process κ} (hstart : Process.start κ vars = some p₀)
    (hreplay : vars "kafka_replay_response_enable" = some "true") : p₀.shared.Replays := by
  simp only [Process.start, prepareAndRunKafkaConsumer, if_pos hreplay, Option.bind_eq_bind, Option.bind_eq_some_iff] at hstart
  obtain ⟨_, _, _, ⟨_, _, _, _, hnew⟩, he⟩ := hstart
  cases hnew
  cases he
  exact ⟨rfl, rfl⟩

section
variable {κ : Type} [DecidableEq κ] {env : Env} {serde : Serde}

theorem processStep_replays (hin : ¬ env.interceptWrites) {p p' : Process κ} {event : ProcessEvent κ} {output : Output}
    (h : p.shared.Replays) (hstep : processStep env serde p event = some (p', output)) : p'.shared.Replays := by
  cases processStep_stepped hstep with
  | accepted _ | panicked | published => exact h
  | turned _ _ | ended _ _ =>
    rw [turnShared_off hin]
    exact h
  | polled _ _ _ => exact ⟨h.1, rfl⟩
  | @updateExpired tableName uuid =>
    refine ⟨?_, h.2⟩
    simp [expireUpdate, h.1]
  | responseExpired =>
    refine ⟨h.1, ?_⟩
    simpa using h.2

/-- **A process that replays serves sessions.** What one of its connections reads is a session, cut into any non-empty reads,
but for the responses to the queries that are kept off the server; these the replay log has, from the first round of the
server loop that finds an entry on, whatever is polled or expires in between. Then the client gets all that a server would
say, byte for byte and in order; the server gets all that the client says but for those queries; and in the end the
connection waits for the client's next command. -/
theorem process_replays_session (hin : ¬ env.interceptWrites) {vars : String → Option String} {p₀ p : Process κ}
    {events : List (ProcessEvent κ)} {outs : List Output} (hstart : Process.start κ vars = some p₀)
    (hreplay : vars "kafka_replay_response_enable" = some "true")
    (hrun : run (processStep env serde) p₀ events = some (p, outs)) {k : κ} {s : Session} (hs : s.WellFormed) {size : Nat}
    (hsize : 0 < size) {script : List (Utterance × List Turn)} (hscript : script.map (·.1) = s.utterances env)
    (hsupplied : ∀ e ∈ script, e.1.Supplied env size e.2)
    (hturns : turnsOf k (transcript (processStep env serde) p₀ events) = script.flatMap (·.2)) :
    ∃ x, p.client k = .connected x ∧ PerformedAll script (exchangesOf k (transcript (processStep env serde) p₀ events)) ∧
      x.connection.phase = .command ∧ x.listening = .client ∧
      (outputsOf k (transcript (processStep env serde) p₀ events)).flatMap (·.toClient) =
        (s.utterances env).flatMap Utterance.toClient ∧
      (outputsOf k (transcript (processStep env serde) p₀ events)).flatMap (·.toServer) =
        (s.utterances env).flatMap Utterance.toServer := by
  have hreplays := @turnsOf_invariant κ _ env serde Shared.Replays (processStep_replays hin) p₀
    (Process.start_replays hstart hreplay) events k
  rw [hturns] at hreplays
  obtain ⟨x, hclient, hperformed, hphase, hlisten⟩ := process_led
    (P := fun x steps => PerformedAll script steps ∧ x.connection.phase = .command ∧ x.listening = .client) hstart hrun hturns
    (by rintro _ ⟨_, _, _, rfl⟩ ⟨-, hphase, -⟩; cases hphase) (by
      rintro _ ⟨diff, replay, kafka, rfl⟩
      obtain ⟨c', hutters, hc'⟩ := @Session.utters env s hs kafka
      obtain ⟨x, os, hran, hperformed, hx⟩ := performed hin hsize (x := .start (.new .plain .plain diff replay kafka))
        ⟨rfl, rfl, rfl, rfl, rfl⟩ (hscript ▸ hutters) hsupplied hreplays
      have hphase : x.connection.phase = .command := (congrArg (·.phase) hx.connection).trans hc'.phase
      exact ⟨x, os, hran, hperformed, hphase, by rw [hx.listening, hc'.phase]; rfl⟩)
  refine ⟨x, hclient, hperformed, hphase, hlisten, ?_, ?_⟩
  · rw [outputsOf_exchanges hrun (by rw [hclient]; simp), List.flatMap_map, hperformed.written.1, ← hscript, List.flatMap_map]
  · rw [outputsOf_exchanges hrun (by rw [hclient]; simp), List.flatMap_map, hperformed.written.2, ← hscript, List.flatMap_map]

end

/-! ## A query whose response is polled behind it, and a ping -/

def replayingEnv : Env := { recordEnv with interceptWrites := false }

def sampleAsked : Round := ⟨0, 0x03, asBytes "select x from t", [recordedOk]⟩

def replayedSession : Session := { sampleSession with rounds := [sampleAsked, samplePinged] }

/-- A round of the server loop before anything is polled. -/
def waitingTurn : Turn := ⟨⟨∅, some .new, 0, 100⟩, recordedTurn.read⟩

def readWhole (shared : Shared) (u : Utterance) : Utterance × List Turn := (u, [⟨shared, .whole u.bytes⟩])

/-- The query is asked before its response is polled; the ping goes to the server. -/
def replayedScript : List (Utterance × List Turn) :=
  (replayedSession.opening.map (⟨·, none⟩)).map (readWhole waitingTurn.shared) ++
    [readWhole waitingTurn.shared ⟨sampleAsked.asked replayedSession.answer.clientFlag, some recordedCommand⟩,
      (⟨⟨.server, [recordedOk.frame]⟩, some recordedCommand⟩, waitingTurn :: List.replicate 3 recordedTurn)] ++
    (samplePinged.transmissions replayedSession.answer.clientFlag).map fun t => readWhole recordedTurn.shared ⟨t, none⟩

def replayedEvents : List (ProcessEvent Bool) :=
  [.publish (asBytes recordedMessage), .accept true] ++
    ((replayedSession.opening ++ [sampleAsked.asked replayedSession.answer.clientFlag]).map fun t =>
      .turn true (.whole t.bytes)) ++
    [.turn true waitingTurn.read, .poll (asBytes recordedMessage), .turn true recordedTurn.read, .turn true recordedTurn.read,
      .turn true recordedTurn.read] ++
    (samplePinged.transmissions replayedSession.answer.clientFlag).map fun t => .turn true (.whole t.bytes)

theorem replayedSession_wellFormed : replayedSession.WellFormed where
  greeting := sampleSession_wellFormed.greeting
  answer := sampleSession_wellFormed.answer
  names := sampleSession_wellFormed.names
  authResponse := sampleSession_wellFormed.authResponse
  auth := sampleSession_wellFormed.auth
  accepted := sampleSession_wellFormed.accepted
  rounds := by
    have hasked : sampleAsked.WellFormed 0x01380208 :=
      ⟨⟨.comQuery, rfl, .ok (by decide) (show _ = okBody 0 0 2 0 [] from rfl)⟩, .inr (by decide), by unfold Small; decide,
        recordedOk_response.packets, by decide⟩
    simpa [replayedSession, sampleSession] using ⟨hasked, samplePinged_wellFormed _⟩

theorem readWhole_supplied {shared : Shared} {u : Utterance} (hread : u.sender = .server → u.keptOff = none)
    (hne : u.bytes ≠ []) : u.Supplied replayingEnv 4 (readWhole shared u).2 := by
  refine .read hread ⟨?_, ?_⟩
  · simp [readWhole, whole_chunk]
  · simpa [readWhole, whole_chunk] using hne

theorem recalled_supplied : Utterance.Supplied replayingEnv 4 ⟨⟨.server, [recordedOk.frame]⟩, some recordedCommand⟩
    (waitingTurn :: List.replicate 3 recordedTurn) := by
  have hnone : Turn.found replayingEnv recordedCommand waitingTurn = none := rfl
  have hsome : Turn.found replayingEnv recordedCommand recordedTurn = some recordedOk.toBytes := rfl
  have hfound : (waitingTurn :: List.replicate 3 recordedTurn).filterMap (Turn.found replayingEnv recordedCommand) =
      List.replicate 3 recordedOk.toBytes := by
    simp [hnone, hsome]
  refine .recalled rfl rfl ⟨?_, ?_, ?_⟩ ?_
  · simp [waitingTurn, recordedTurn, Shared.Replays]
  · rw [hfound]
    rfl
  · simp [List.getLast?_cons, hsome]
  · rw [hfound]
    rfl

theorem replayed_turns : ∃ p₀ p outs, Process.start Bool (fun _ => some "true") = some p₀ ∧
    run (processStep replayingEnv recordSerde) p₀ replayedEvents = some (p, outs) ∧
    turnsOf true (transcript (processStep replayingEnv recordSerde) p₀ replayedEvents) = replayedScript.flatMap (·.2) := by
  have hruns : ((Process.start Bool fun _ => some "true").any fun p₀ =>
      (run (processStep replayingEnv recordSerde) p₀ replayedEvents).isSome) = true := by decide +kernel
  obtain ⟨p₀, hstart, hrun⟩ := (Option.any_eq_true ..).1 hruns
  obtain ⟨⟨p, outs⟩, hrun⟩ := Option.isSome_iff_exists.1 hrun
  cases hstart
  exact ⟨_, p, outs, rfl, hrun, rfl⟩

theorem replayed_script : replayedScript.map (·.1) = replayedSession.utterances replayingEnv := rfl

/-- The response is delivered in three pieces, once it has been polled. -/
theorem process_replays_session_one : ∃ p₀ p outs, Process.start Bool (fun _ => some "true") = some p₀ ∧
    run (processStep replayingEnv recordSerde) p₀ replayedEvents = some (p, outs) ∧
    (outputsOf true (transcript (processStep replayingEnv recordSerde) p₀ replayedEvents)).flatMap (·.toClient) =
      (replayedSession.utterances replayingEnv).flatMap Utterance.toClient ∧
    (outputsOf true (transcript (processStep replayingEnv recordSerde) p₀ replayedEvents)).flatMap (·.toServer) =
      (replayedSession.utterances replayingEnv).flatMap Utterance.toServer := by
  obtain ⟨p₀, p, outs, hstart, hrun, hturns⟩ := replayed_turns
  have hsupplied : ∀ e ∈ replayedScript, e.1.Supplied replayingEnv 4 e.2 := by
    have hopening : ∀ t ∈ replayedSession.opening, t.bytes ≠ [] := by decide
    have hpinged : ∀ t ∈ samplePinged.transmissions replayedSession.answer.clientFlag, t.bytes ≠ [] := by decide
    simp only [replayedScript, List.forall_mem_append, List.forall_mem_map, List.forall_mem_cons, List.not_mem_nil,
      false_implies, implies_true, and_true]
    exact ⟨⟨fun t ht => readWhole_supplied (fun _ => rfl) (hopening t ht),
      readWhole_supplied (fun h => by cases h) (by decide), recalled_supplied⟩,
      fun t ht => readWhole_supplied (fun _ => rfl) (hpinged t ht)⟩
  obtain ⟨-, -, -, -, -, hclient, hserver⟩ := process_replays_session (by decide) hstart rfl hrun replayedSession_wellFormed
    (by decide) replayed_script hsupplied hturns
  exact ⟨p₀, p, outs, hstart, hrun, hclient, hserver⟩

end MocksySql
