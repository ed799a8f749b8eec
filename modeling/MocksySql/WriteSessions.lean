import MocksySql.Intercept
import MocksySql.Isolation
import MocksySql.Session
/-!
# Sessions with writes

A session through a process that answers writes itself: of what the client sends, the server gets all but the writes,
which the client gets an answer to; of what the server sends, the client gets all, but for rows and numbers.

| here | there |
| --- | --- |
| `Round.answeredHere` | `intercept_enabled() && intercept_command(..)` (`connection_handler.rs:150`), for a command that comes in one packet |
| `Attended`           | what `exchange` has written once a transmission is through (`:100-176`) |

* `exchangeStep_alone` — a turn, given what the connection would do were it alone.
* `process_attends_session` — every run of a process, as long as the connection does not end.
-/

namespace MocksySql
open FieldDecode PartialRun ByteStream

/-! ## One turn -/

/-- What a turn is to a connection that would make these packets of it and go on as `c'`, were it alone. -/
structure Alone (env : Env) (x : Exchange) (turn : Turn) (x' : Exchange) (output : Output) (c' : Connection)
    (packets : List Packet) : Prop where
  inputs : (turnPackets env x turn).map (·.input) = packets
  kept : ∀ s ∈ turnPackets env x turn, KeptButRows env s
  own : x'.own = (isolatedFrame env x.listening c' packets).1
  toServer : RowFree env x turn → output.toServer = (isolatedFrame env x.listening c' packets).2
  unanswered : x.listening = .client → answersHere env c' packets = false → output.toClient = []
  answered : x.listening = .client → answersHere env c' packets → RowFree env x turn →
    ∃ packet count command clientFlag, packets = [packet] ∧ c'.clientFlag = some clientFlag ∧
      getWriteResponse env count command packet.header.seq clientFlag = some output.toClient

section
variable {env : Env} {x x' : Exchange} {turn : Turn} {output : Output} {shared : Shared} {c' : Connection} {packets : List Packet}

/-- Without a replay log a turn is the bytes of its read. -/
theorem receive_unreplayed (hread : turn.read.chunk ≠ []) (hreplay : turn.shared.replay = none)
    (hplain : x.connection.phase ≠ .tlsExchange) :
    ∃ origin, receive env { x with connection := x.connection.sharing turn.shared } turn.read =
      .bytes (x.connection.sharing turn.shared) turn.read origin := by
  have hopen : turn.read.readBytes ≠ 0 := fun h => hread (by simp [SocketRead.chunk, h])
  have hside : x.listening = .server ∨ x.listening = .client := by
    cases x.listening <;> simp
  rcases hside with hlisten | hlisten
  · have hreceive := @receive_server env { x with connection := x.connection.sharing turn.shared } turn.read hlisten hreplay
    rw [if_neg hopen] at hreceive
    exact ⟨.server, hreceive⟩
  · refine ⟨.client, ?_⟩
    unfold receive
    simp only [hlisten, if_neg hopen]
    rw [switchIfAgreed_of_ne (by exact hplain)]

theorem exchangeStep_alone (hread : turn.read.chunk ≠ []) (hreplay : turn.shared.replay = none)
    (hplain : x.connection.phase ≠ .tlsExchange)
    (hframe : processIncomingFrame env turn.read.buf x.connection.own turn.read.readBytes = some (c', packets))
    (h : exchangeStep env x turn = some (x', output, shared)) : Alone env x turn x' output c' packets := by
  obtain ⟨origin, hreceive⟩ := @receive_unreplayed env x turn hread hreplay hplain
  have hbare : (x.connection.sharing turn.shared).bare = x.connection.own := by
    rw [sharing_bare, hreplay]
    rfl
  obtain ⟨c₁, packets₁, hframe₁⟩ := exchangeStep_frame h hreceive
  have hisolated := frame_isolated hframe₁
  have halone := hisolated.alone
  rw [hbare, hframe] at halone
  obtain ⟨rfl, hinputs⟩ := Prod.mk.inj (Option.some.inj halone)
  obtain ⟨toServer, hstep, hfree⟩ := exchangeStep_isolated h
  rw [isolatedStep_own, hreceive] at hstep
  dsimp only at hstep
  rw [hbare, hframe, Option.map_some] at hstep
  have hframed := Option.some.inj hstep
  have hanswers := hisolated.answers
  rw [← hinputs] at hanswers
  refine ⟨?_, ?_, (congrArg Prod.fst hframed).symm, fun hrow => (hfree hrow).trans (congrArg Prod.snd hframed).symm, ?_, ?_⟩
  · rw [turnPackets_bytes hreceive, hinputs]
  · rw [turnPackets_bytes hreceive]
    exact hisolated.kept
  · intro hlisten hno
    rw [hanswers] at hno
    cases exchangeStep_turned h with
    | waiting hwait => rfl
    | server hserver => rw [hlisten] at hserver; cases hserver
    | unanswered => rfl
    | answered _ hread' hframe' hi hresponse =>
      rw [hreceive] at hread'
      cases hread'
      rw [hframe₁] at hframe'
      cases hframe'
      have hyes := (interceptIfEnabled_bare hi).1
      rw [hresponse, hno] at hyes
      cases hyes
  · intro hlisten hyes hrow
    rw [hanswers] at hyes
    cases exchangeStep_turned h with
    | waiting hwait => rw [hreceive] at hwait; cases hwait
    | server hserver => rw [hlisten] at hserver; cases hserver
    | unanswered _ hread' hframe' hi hresponse =>
      rw [hreceive] at hread'
      cases hread'
      rw [hframe₁] at hframe'
      cases hframe'
      have hno := (interceptIfEnabled_bare hi).1
      rw [hresponse, hyes] at hno
      cases hno
    | answered _ hread' hframe' hi hresponse =>
      rw [hreceive] at hread'
      cases hread'
      rw [hframe₁] at hframe'
      cases hframe'
      have hsame : packets₁ = packets := by
        rw [hinputs]
        refine hisolated.rowFree (hrow.imp id fun hphases => ?_)
        rwa [turnPackets_bytes hreceive] at hphases
      subst hsame
      cases interceptIfEnabled_intercepts hi with
      | idle | passed => cases hresponse
      | answered _ _ hpackets _ _ hflag hwritten =>
        cases hresponse
        exact ⟨_, _, _, _, hpackets, hflag, hwritten⟩

/-- A turn of one packet, which is no part of a response. -/
theorem rowFree_single (hread : turn.read.chunk ≠ []) (hreplay : turn.shared.replay = none)
    (hplain : x.connection.phase ≠ .tlsExchange) (hphase : x.connection.phase ≠ .pendingResponse)
    (hlength : (turnPackets env x turn).length ≤ 1) : RowFree env x turn := by
  obtain ⟨origin, hreceive⟩ := @receive_unreplayed env x turn hread hreplay hplain
  refine .inr fun e he => ?_
  rw [turnPackets_bytes hreceive, frameSteps] at he hlength
  split at he
  · cases he
  · rename_i c₀ ins hmake
    have hstart : c₀.phase = x.connection.phase := (makePackets_typed hmake).1
    rcases ins with _ | ⟨p, ps⟩
    · cases he
    · cases hstep : consumePacket env c₀ p with
      | none => rw [transcript, hstep] at he; cases he
      | some r =>
        simp only [hmake, transcript_cons hstep, List.length_cons] at hlength
        have hlast : transcript (consumePacket env) r.1 ps = [] := List.length_eq_zero_iff.1 (by omega)
        rw [transcript_cons hstep, hlast, List.mem_singleton] at he
        rw [he]
        exact hstart ▸ hphase

/-! ## Alone -/

theorem processIncomingFrame_own {c : Connection} {r : SocketRead} (hown : c.own = c)
    (h : processIncomingFrame env r.buf c r.readBytes = some (c', packets)) : c'.own = c' := by
  have hbare : c.bare = c := by rw [← hown]; rfl
  have halone := (frame_isolated h).alone
  rw [hbare, h] at halone
  obtain ⟨hc', -⟩ := Prod.mk.inj (Option.some.inj halone)
  have hreplay : c'.replay = none := by
    rw [(processIncomingFrame_replay h).1, ← hown]
    rfl
  rw [Connection.own, ← hc', ← hreplay]

/-! ## One transmission -/

/-- The packets of some turns. -/
def packetsOf (env : Env) (steps : List (Step Exchange Turn (Output × Shared))) : List (Step Connection Packet (Option Packet)) :=
  steps.flatMap fun e => turnPackets env e.before e.input

/-- What is read goes through to the client, but for rows and numbers. -/
structure Delivers (env : Env) (steps : List (Step Exchange Turn (Output × Shared))) (bytes : Bytes) : Prop where
  read : (packetsOf env steps).flatMap (·.input.toBytes) = bytes
  kept : ∀ s ∈ packetsOf env steps, KeptButRows env s
  toClient : steps.flatMap (·.output.1.toClient) = generateOutgoingFrame ((packetsOf env steps).filterMap (·.output))
  toServer : steps.flatMap (·.output.1.toServer) = []

/-- A turn of a delivery. -/
theorem Alone.delivers (h : Alone env x turn x' output c' packets) (hlisten : x.listening = .server)
    (hstep : exchangeStep env x turn = some (x', output, shared)) :
    Delivers env [⟨x, turn, x', output, shared⟩] (generateOutgoingFrame packets) where
  read := by
    rw [packetsOf, List.flatMap_singleton, generateOutgoingFrame, ← h.inputs, List.flatMap_map]
  kept := by
    rw [packetsOf, List.flatMap_singleton]
    exact h.kept
  toClient := by
    rw [packetsOf, List.flatMap_singleton, List.flatMap_singleton]
    exact exchangeStep_toClient hlisten hstep
  toServer := by
    rw [List.flatMap_singleton]
    cases exchangeStep_turned hstep with
    | waiting | server => rfl
    | answered => rfl
    | unanswered hclient => rw [hlisten] at hclient; cases hclient

theorem Delivers.append {steps steps' : List (Step Exchange Turn (Output × Shared))} {bytes bytes' : Bytes}
    (h : Delivers env steps bytes) (h' : Delivers env steps' bytes') : Delivers env (steps ++ steps') (bytes ++ bytes') where
  read := by
    rw [packetsOf, List.flatMap_append, List.flatMap_append]
    exact congrArg₂ _ h.read h'.read
  kept := by
    rw [packetsOf, List.flatMap_append, List.forall_mem_append]
    exact ⟨h.kept, h'.kept⟩
  toClient := by
    rw [packetsOf, List.flatMap_append, List.flatMap_append, List.filterMap_append, generateOutgoingFrame, List.flatMap_append]
    exact congrArg₂ _ h.toClient h'.toClient
  toServer := by
    rw [List.flatMap_append, h.toServer, h'.toServer, List.append_nil]

/-- **What the server says** reaches the client, in any reads. -/
theorem server_transmission : ∀ {turns : List Turn} {x x' : Exchange} {outs : List (Output × Shared)} {fs : List Frame}
    {c' : Connection}, run (exchangeStep env) x turns = some (x', outs) → Consumes env x.connection.own fs c' →
    (∀ f ∈ fs, f.WellFormed) → InOrder (fs.map (·.1)) →
    x.connection.partialBytes.getD [] ++ turns.flatMap (·.read.chunk) = fs.flatMap Frame.toBytes → turns ≠ [] →
    (∀ turn ∈ turns, turn.read.chunk ≠ [] ∧ turn.shared.replay = none) → x.connection.phase ≠ .tlsExchange →
    x.listening = .server → x.connection.phase.speaker = .server →
    x'.connection.own = (c'.withResidual []).own ∧ x'.listening = nextListening .server c'.phase ∧
      Delivers env (transcript (exchangeStep env) x turns)
        (x.connection.partialBytes.getD [] ++ turns.flatMap (·.read.chunk))
  | [], _, _, _, _, _, _, _, _, _, _, hne, _, _, _, _ => absurd rfl hne
  | turn :: turns, x, x', outs, fs, c', hrun, hconsumes, hfs, horder, hstream, _, hturns, hplain, hlisten, hspeaker => by
    obtain ⟨x₁, ⟨output, shared⟩, outs, hstep, hrest, rfl⟩ := run_cons_some hrun
    obtain ⟨⟨hread, hreplay⟩, hturns⟩ := List.forall_mem_cons.1 hturns
    have hquiet : Quiet x.connection.own := ⟨rfl, rfl⟩
    rw [transcript_cons hstep, List.flatMap_cons, ← List.append_assoc]
    rw [List.flatMap_cons, ← List.append_assoc] at hstream
    by_cases hlater : turns.flatMap (·.read.chunk) = []
    · obtain rfl := (chunks_eq_nil fun t ht => (hturns t ht).1).1 hlater
      rw [List.flatMap_nil, List.append_nil] at hstream ⊢
      obtain ⟨packets, hframe⟩ := processIncomingFrame_all hfs horder hconsumes hstream
      have halone := exchangeStep_alone hread hreplay hplain hframe hstep
      obtain ⟨hbytes, -⟩ := processIncomingFrame_quiet hquiet hframe
      rw [Connection.withResidual_partialBytes, List.append_nil] at hbytes
      have hown := halone.own
      rw [isolatedFrame, if_neg (by simp [hlisten]), hlisten] at hown
      cases hrest
      refine ⟨congrArg (·.connection) hown, (congrArg (·.listening) hown).trans (by simp), ?_⟩
      exact hbytes ▸ halone.delivers hlisten hstep
    · obtain ⟨c₁, packets, residual, fs', hframe, hphase, hfs', horder', hconsumes', hstream'⟩ :=
        processIncomingFrame_some_of hfs horder hconsumes hstream hlater
      have halone := exchangeStep_alone hread hreplay hplain hframe hstep
      obtain ⟨hbytes, -⟩ := processIncomingFrame_quiet hquiet hframe
      have hown := halone.own
      rw [isolatedFrame, if_neg (by simp [hlisten]), hlisten, processIncomingFrame_own rfl hframe] at hown
      have hconnection : x₁.connection.own = c₁ := congrArg (·.connection) hown
      have hphase₁ : x₁.connection.phase = x.connection.phase := (congrArg (·.phase) hconnection).trans hphase
      have hnext : x₁.listening = .server := (congrArg (·.listening) hown).trans (by
        show nextListening .server c₁.phase = .server
        rw [hphase, ← hspeaker]
        exact nextListening_stays _)
      have hheld : x₁.connection.partialBytes = c₁.partialBytes := congrArg (·.partialBytes) hconnection
      rw [← hconnection] at hconsumes'
      obtain ⟨hown', hnext', hdelivers⟩ := server_transmission hrest hconsumes' hfs' horder' (by rw [hheld]; exact hstream')
        (fun h => hlater (by rw [h]; rfl)) hturns (by rwa [hphase₁]) hnext (by rw [hphase₁, hspeaker])
      rw [Connection.withResidual_withResidual] at hown'
      rw [Connection.withResidual_phase] at hnext'
      refine ⟨hown', hnext', ?_⟩
      have hall := (halone.delivers hlisten hstep).append hdelivers
      rwa [hheld, ← List.append_assoc, hbytes] at hall

/-- What the client says is on its way to the server, or is answered here. -/
structure Takes (env : Env) (steps : List (Step Exchange Turn (Output × Shared))) (c' : Connection) (p : Packet) : Prop where
  toServer : steps.flatMap (·.output.1.toServer) =
    if answersHere env c' [p] then [] else if sendCommandToServer c' then p.toBytes else []
  unanswered : answersHere env c' [p] = false → steps.flatMap (·.output.1.toClient) = []
  answered : answersHere env c' [p] → ∃ count command clientFlag, c'.clientFlag = some clientFlag ∧
    getWriteResponse env count command p.header.seq clientFlag = some (steps.flatMap (·.output.1.toClient))

theorem answersHere_withResidual (c : Connection) (residual : Bytes) (packets : List Packet) :
    answersHere env (c.withResidual residual) packets = answersHere env c packets := by
  rw [Connection.withResidual_eq]
  rfl

theorem sendCommandToServer_withResidual (c : Connection) (residual : Bytes) :
    sendCommandToServer (c.withResidual residual) = sendCommandToServer c := by
  rw [Connection.withResidual_eq]
  rfl

theorem Takes.of_withResidual {steps : List (Step Exchange Turn (Output × Shared))} {p : Packet} {residual : Bytes}
    (h : Takes env steps (c'.withResidual residual) p) : Takes env steps c' p where
  toServer := by
    have hsent := h.toServer
    rwa [answersHere_withResidual, sendCommandToServer_withResidual] at hsent
  unanswered hno := h.unanswered (by rwa [answersHere_withResidual])
  answered hyes := by
    obtain ⟨count, command, clientFlag, hflag, hresponse⟩ := h.answered (by rwa [answersHere_withResidual])
    rw [Connection.withResidual_eq] at hflag
    exact ⟨count, command, clientFlag, hflag, hresponse⟩

/-- Before the packet is whole nothing is written. -/
theorem Takes.after {e : Step Exchange Turn (Output × Shared)} {steps : List (Step Exchange Turn (Output × Shared))} {p : Packet}
    (hserver : e.output.1.toServer = []) (hclient : e.output.1.toClient = []) (h : Takes env steps c' p) :
    Takes env (e :: steps) c' p := by
  obtain ⟨hsent, hno, hyes⟩ := h
  refine ⟨?_, ?_, ?_⟩ <;> rw [List.flatMap_cons]
  · rw [hserver, List.nil_append, hsent]
  · rwa [hclient, List.nil_append]
  · rwa [hclient, List.nil_append]

/-- A read that ends inside the packet. -/
theorem processIncomingFrame_within {c : Connection} {r : SocketRead} {f : Frame} {later : Bytes} (hf : f.WellFormed)
    (hstream : c.partialBytes.getD [] ++ r.chunk ++ later = f.toBytes) (hlater : later ≠ []) :
    processIncomingFrame env r.buf c r.readBytes = some (c.withResidual (c.partialBytes.getD [] ++ r.chunk), []) := by
  have hnext : frames.next (f.toBytes ++ []) = some (f, []) := nextFrame_toBytes hf.size hf.encodable []
  rw [List.append_nil, ← hstream] at hnext
  have hpart := frames.split_of_part hnext (List.length_pos_of_ne_nil hlater)
  simp [processIncomingFrame, makePackets_eq, hpart, InOrder]

/-- The read that ends with it. -/
theorem processIncomingFrame_single {c : Connection} {r : SocketRead} {f : Frame} {p : Packet} {out : Option Packet}
    (hf : f.WellFormed) (hp : f.toPacket c.phase = some p) (hconsume : consumePacket env c p = some (c', out))
    (hstream : c.partialBytes.getD [] ++ r.chunk = f.toBytes) :
    processIncomingFrame env r.buf c r.readBytes = some (c'.withResidual [], [out].filterMap id) := by
  have hsplit : frames.split (c.partialBytes.getD [] ++ r.chunk) = ([f], []) := by
    have hnext : frames.next (f.toBytes ++ []) = some (f, []) := nextFrame_toBytes hf.size hf.encodable []
    rw [List.append_nil] at hnext
    rw [hstream, frames.split_of_some hnext, frames.split_nil]
  have hframe := @processIncomingFrame_of_split env c c' r [p] [out] (by simpa [hsplit] using hf) (by simp [hsplit, hp])
    (by simp [hsplit, InOrder]) (by rw [run_singleton, hconsume]; rfl)
  rwa [hsplit] at hframe

/-- **What the client says** reaches the server or is answered here, in any reads. -/
theorem client_transmission {f : Frame} {p : Packet} {out : Option Packet} (hf : f.WellFormed) :
    ∀ {turns : List Turn} {x x' : Exchange} {outs : List (Output × Shared)} {c' : Connection},
    run (exchangeStep env) x turns = some (x', outs) → f.toPacket x.connection.phase = some p →
    consumePacket env x.connection.own p = some (c', out) →
    x.connection.partialBytes.getD [] ++ turns.flatMap (·.read.chunk) = f.toBytes → turns ≠ [] →
    (∀ turn ∈ turns, turn.read.chunk ≠ [] ∧ turn.shared.replay = none) → x.connection.phase ≠ .tlsExchange →
    x.listening = .client → x.connection.phase.speaker = .client →
    x'.own = (isolatedFrame env .client (c'.withResidual []) [p]).1 ∧
      Takes env (transcript (exchangeStep env) x turns) c' p
  | [], _, _, _, _, _, _, _, _, hne, _, _, _, _ => absurd rfl hne
  | turn :: turns, x, x', outs, c', hrun, hp, hconsume, hstream, _, hturns, hplain, hlisten, hspeaker => by
    obtain ⟨x₁, ⟨output, shared⟩, outs, hstep, hrest, rfl⟩ := run_cons_some hrun
    obtain ⟨⟨hread, hreplay⟩, hturns⟩ := List.forall_mem_cons.1 hturns
    have hpending : x.connection.phase ≠ .pendingResponse := by
      intro h
      rw [h] at hspeaker
      cases hspeaker
    rw [transcript_cons hstep]
    rw [List.flatMap_cons, ← List.append_assoc] at hstream
    by_cases hlater : turns.flatMap (·.read.chunk) = []
    · obtain rfl := (chunks_eq_nil fun t ht => (hturns t ht).1).1 hlater
      rw [List.flatMap_nil, List.append_nil] at hstream
      obtain rfl : out = some p := by
        obtain ⟨-, hout⟩ := Prod.mk.inj (Option.some.inj (hconsume.symm.trans (consumePacket_bare hconsume)))
        rw [hout, (Frame.toPacket_fresh hp).2]
        rfl
      have hframe := @processIncomingFrame_single env _ x.connection.own turn.read f p _ hf hp hconsume hstream
      have halone := exchangeStep_alone hread hreplay hplain hframe hstep
      have hfree : RowFree env x turn := rowFree_single hread hreplay hplain hpending (by
        rw [← List.length_map (f := (·.input)), halone.inputs]
        simp)
      have hown := halone.own
      have hsent := halone.toServer hfree
      rw [hlisten] at hown hsent
      cases hrest
      refine ⟨hown, @Takes.of_withResidual _ _ _ _ [] ⟨?_, ?_, ?_⟩⟩ <;> simp only [transcript, List.flatMap_singleton]
      · rw [hsent, isolatedFrame]
        by_cases hyes : answersHere env (c'.withResidual []) [p]
        · rw [if_pos hyes, if_pos ⟨rfl, hyes⟩]
        · rw [if_neg hyes, if_neg (by simp [hyes])]
          simp [generateOutgoingFrame]
      · exact halone.unanswered hlisten
      · intro hyes
        obtain ⟨packet, count, command, clientFlag, hpackets, hflag, hresponse⟩ := halone.answered hlisten hyes hfree
        obtain rfl := (List.singleton_inj.1 hpackets : p = packet)
        exact ⟨count, command, clientFlag, hflag, hresponse⟩
    · have hframe := @processIncomingFrame_within env x.connection.own turn.read f _ hf hstream hlater
      have halone := exchangeStep_alone hread hreplay hplain hframe hstep
      have hfree : RowFree env x turn := rowFree_single hread hreplay hplain hpending (by
        rw [← List.length_map (f := (·.input)), halone.inputs]
        simp)
      have hown := halone.own
      have hsent := halone.toServer hfree
      rw [isolatedFrame, if_neg (by simp [answersHere]), hlisten] at hown hsent
      have hconnection : x₁.connection.own = x.connection.own.withResidual (x.connection.own.partialBytes.getD [] ++ turn.read.chunk) :=
        (congrArg (·.connection) hown).trans (processIncomingFrame_own rfl hframe)
      have hphase : x₁.connection.phase = x.connection.phase :=
        (congrArg (·.phase) hconnection).trans (Connection.withResidual_phase ..)
      have hheld : x₁.connection.partialBytes.getD [] = x.connection.partialBytes.getD [] ++ turn.read.chunk :=
        (congrArg (·.partialBytes.getD []) hconnection).trans (Connection.withResidual_partialBytes ..)
      have hnext : x₁.listening = .client := (congrArg (·.listening) hown).trans (by
        show nextListening .client (x.connection.own.withResidual _).phase = .client
        rw [Connection.withResidual_phase, ← hspeaker]
        exact nextListening_stays _)
      have hconsume₁ := consumePacket_withResidual (x.connection.own.partialBytes.getD [] ++ turn.read.chunk) hconsume
      rw [← hconnection] at hconsume₁
      obtain ⟨hown', htakes⟩ := client_transmission hf hrest (by rwa [hphase]) hconsume₁ (by rw [hheld]; exact hstream)
        (fun h => hlater (by rw [h]; rfl)) hturns (by rwa [hphase]) hnext (by rw [hphase, hspeaker])
      rw [Connection.withResidual_withResidual] at hown'
      refine ⟨hown', htakes.of_withResidual.after ?_ (halone.unanswered hlisten rfl)⟩
      rw [show (⟨x, turn, x₁, output, shared⟩ : Step Exchange Turn (Output × Shared)).output.1.toServer = output.toServer from rfl, hsent]
      simp [generateOutgoingFrame]

end

/-! ## Dialogues with writes -/

/-- Between two transmissions the connection, were it alone, would hold nothing and listen to the peer that its phase
waits for. -/
structure RestsAlone (x : Exchange) (c : Connection) : Prop where
  own : x.connection.own = c
  nothing : c.partialBytes = none
  listening : x.listening = c.phase.speaker

/-- A transmission, of a single packet if it is the client's, and whether that is answered here. -/
structure Attends (env : Env) (clientFlag : UInt32) (c : Connection) (t : Transmission) (here : Bool) (c' : Connection) :
    Prop where
  accepts : Accepts env c t c'
  client : t.sender = .client → ∃ f p, t.frames = [f] ∧ f.toPacket c.phase = some p ∧ answersHere env c' [p] = here
  server : t.sender = .server → here = false
  flags : here → c'.clientFlag = some clientFlag

/-- What a connection, were it alone, makes of such a dialogue. -/
inductive AttendsAll (env : Env) (clientFlag : UInt32) : Connection → List (Transmission × Bool) → Connection → Prop
  | nil (c : Connection) : AttendsAll env clientFlag c [] c
  | cons {c c₁ c' : Connection} {t : Transmission} {here : Bool} {ts : List (Transmission × Bool)} :
      Attends env clientFlag c t here c₁ →
      AttendsAll env clientFlag (if here then { c₁ with phase := .command } else c₁) ts c' →
      AttendsAll env clientFlag c ((t, here) :: ts) c'

/-- What `exchange` has written once a transmission is through. -/
inductive Attended (env : Env) (clientFlag : UInt32) (t : Transmission) (steps : List (Step Exchange Turn (Output × Shared))) :
    Bool → Prop
  | delivered : t.sender = .server → Delivers env steps t.bytes → Attended env clientFlag t steps false
  | forwarded : t.sender = .client → steps.flatMap (·.output.1.toServer) = t.bytes →
      steps.flatMap (·.output.1.toClient) = [] → Attended env clientFlag t steps false
  /-- An OK packet of one row, numbered behind the command. -/
  | answered {f : Frame} {ok : OkData} {packet : Packet} : t = ⟨.client, [f]⟩ → steps.flatMap (·.output.1.toServer) = [] →
      ok.affectedRows = 1 → ok.toPacket (f.1.seq + 1) clientFlag = some packet →
      steps.flatMap (·.output.1.toClient) = packet.toBytes → Attended env clientFlag t steps true

/-- In these steps the transmissions of a script are attended to one after the other, each in its turns. -/
inductive AttendedAll (env : Env) (clientFlag : UInt32) :
    List ((Transmission × Bool) × List Turn) → List (Step Exchange Turn (Output × Shared)) → Prop
  | nil : AttendedAll env clientFlag [] []
  | cons {t : Transmission} {here : Bool} {turns : List Turn} {script : List ((Transmission × Bool) × List Turn)}
      {steps later : List (Step Exchange Turn (Output × Shared))} : steps.map (·.input) = turns →
      Attended env clientFlag t steps here → AttendedAll env clientFlag script later →
      AttendedAll env clientFlag (((t, here), turns) :: script) (steps ++ later)

section
variable {env : Env} {clientFlag : UInt32} {x x' : Exchange} {c c' : Connection}

theorem AttendsAll.append {c₁ : Connection} {ts us : List (Transmission × Bool)} (h : AttendsAll env clientFlag c ts c₁)
    (h' : AttendsAll env clientFlag c₁ us c') : AttendsAll env clientFlag c (ts ++ us) c' := by
  induction h with
  | nil => exact h'
  | cons ht _ ih => exact .cons ht (ih h')

/-- Nothing the client sends before it is in `Command` is answered here. -/
theorem Accepts.attends {side : Side} {f : Frame} (h : Accepts env c ⟨side, [f]⟩ c') (hphase : c.phase ≠ .command) :
    Attends env clientFlag c ⟨side, [f]⟩ false c' where
  accepts := h
  client _ := by
    cases h.consumed with
    | @last _ _ _ p out hp hstep =>
      refine ⟨f, p, rfl, hp, answersHere_typed ?_⟩
      obtain ⟨pType, htype, rfl⟩ := Option.map_eq_some_iff.1 hp
      simpa using (getPacketType_command htype).2 hphase
    | more _ _ _ hrest => exact absurd rfl hrest.ne_nil
  server _ := rfl
  flags hno := by cases hno

theorem own_of_bare_self (hbare : c.bare = c) (hreplay : c.replay = none) : c.own = c := by
  rw [Connection.own, hbare, ← hreplay]

theorem Consumes.own {fs : List Frame} (hown : c.own = c) (h : Consumes env c fs c') : c'.own = c' := by
  have hstep : ∀ {c c' p out}, c.own = c → consumePacket env c p = some (c', out) → c'.own = c' := by
    intro c c' p out hown hstep
    have hbare : c.bare = c := by rw [← hown]; rfl
    have hsame := consumePacket_bare hstep
    rw [hbare, hstep] at hsame
    refine own_of_bare_self (congrArg Prod.fst (Option.some.inj hsame)).symm ?_
    rw [(consumePacket_replay hstep).1, ← hown]
    rfl
  induction h with
  | last _ hlast => exact hstep hown hlast
  | more _ hfirst _ _ ih => exact ih (hstep hown hfirst)

/-- **One transmission.** -/
theorem attended (hx : RestsAlone x c) {t : Transmission} {here : Bool} (ht : Attends env clientFlag c t here c')
    {turns : List Turn} (hturns : Brings turns t) (hreplay : ∀ turn ∈ turns, turn.shared.replay = none)
    {outs : List (Output × Shared)} (hrun : run (exchangeStep env) x turns = some (x', outs)) :
    Attended env clientFlag t (transcript (exchangeStep env) x turns) here ∧
      RestsAlone x' (if here then { c' with phase := .command } else c') := by
  obtain ⟨rfl, hnothing, hlisten⟩ := hx
  obtain ⟨haccepts, hclient, hserver, hflags⟩ := ht
  have hheld : x.connection.partialBytes = none := hnothing
  have hnothing' : c'.partialBytes = none := haccepts.consumed.partialBytes.trans hnothing
  have hown' : c'.own = c' := haccepts.consumed.own rfl
  have hreads : ∀ turn ∈ turns, turn.read.chunk ≠ [] ∧ turn.shared.replay = none :=
    fun turn hturn => ⟨hturns.nonempty turn hturn, hreplay turn hturn⟩
  have hne : turns ≠ [] := by
    rintro rfl
    exact Transmission.bytes_ne_nil haccepts.consumed.ne_nil hturns.stream.symm
  have hstream : x.connection.partialBytes.getD [] ++ turns.flatMap (·.read.chunk) = t.bytes := by
    rw [hheld]
    exact hturns.stream
  have hspeaker : x.listening = t.sender := hlisten.trans haccepts.speaks.symm
  cases hsender : t.sender with
  | server =>
    rw [hsender] at hspeaker
    obtain rfl := hserver hsender
    obtain ⟨hconnection, hnext, hdelivers⟩ := server_transmission hrun haccepts.consumed haccepts.wellFormed haccepts.inOrder
      hstream hne hreads haccepts.plain hspeaker (hlisten.symm.trans hspeaker)
    rw [Connection.withResidual_nil hnothing', hown'] at hconnection
    rw [hstream] at hdelivers
    refine ⟨.delivered hsender hdelivers, hconnection, hnothing', ?_⟩
    rw [hnext, ← hsender]
    exact haccepts.yields
  | client =>
    rw [hsender] at hspeaker
    obtain ⟨f, p, hframes, hp, hhere⟩ := hclient hsender
    have hbytes : t.bytes = f.toBytes := by
      rw [Transmission.bytes, hframes]
      simp
    have hpacket : p.toBytes = f.toBytes := by
      obtain ⟨_, _, rfl⟩ := Option.map_eq_some_iff.1 hp
      rfl
    obtain ⟨out, hconsume⟩ : ∃ out, consumePacket env x.connection.own p = some (c', out) := by
      have hconsumed := haccepts.consumed
      rw [hframes] at hconsumed
      cases hconsumed with
      | last hp' hstep =>
        cases hp.symm.trans hp'
        exact ⟨_, hstep⟩
      | more _ _ _ hrest => exact absurd rfl hrest.ne_nil
    have hf : f.WellFormed := haccepts.wellFormed f (by rw [hframes]; exact List.mem_singleton_self _)
    obtain ⟨hown, htakes⟩ := client_transmission hf hrun hp hconsume (hstream.trans hbytes) hne hreads haccepts.plain hspeaker
      (hlisten.symm.trans hspeaker)
    rw [Connection.withResidual_nil hnothing'] at hown
    have hsent := htakes.toServer
    have hreplay' : c'.replay = none := by rw [← hown']; rfl
    rw [show sendCommandToServer c' = true from by simp [sendCommandToServer, hreplay'], if_pos rfl, hhere] at hsent
    rw [isolatedFrame, hhere] at hown
    cases here with
    | false =>
      rw [if_neg (by simp), hown'] at hown
      refine ⟨.forwarded hsender ?_ (htakes.unanswered hhere), congrArg (·.connection) hown, hnothing', ?_⟩
      · rw [hsent, hbytes, hpacket]
        rfl
      · rw [show x'.listening = nextListening .client c'.phase from congrArg (·.listening) hown, ← hsender]
        exact haccepts.yields
    | true =>
      rw [if_pos ⟨rfl, rfl⟩] at hown
      obtain ⟨count, command, clientFlag', hflag, hresponse⟩ := htakes.answered hhere
      obtain rfl : clientFlag' = clientFlag := Option.some.inj (hflag.symm.trans (hflags rfl))
      simp only [getWriteResponse, Option.bind_eq_bind, Option.bind_eq_some_iff] at hresponse
      obtain ⟨_, _, packet, hwritten, he⟩ := hresponse
      have hseq : p.header.seq = f.1.seq := by
        obtain ⟨_, _, rfl⟩ := Option.map_eq_some_iff.1 hp
        rfl
      rw [hseq] at hwritten
      refine ⟨.answered (f := f) ?_ hsent rfl hwritten (Option.some.inj he).symm, ?_, hnothing', congrArg (·.listening) hown⟩
      · cases t
        cases hsender
        cases hframes
        rfl
      · refine (congrArg (·.connection) hown).trans ?_
        conv_rhs => rw [if_pos rfl, ← hown']
        rfl

/-- **A dialogue with writes**, whatever reads bring it, as long as nothing panics. -/
theorem all_attended : ∀ {script : List ((Transmission × Bool) × List Turn)} {x x' : Exchange} {c c' : Connection}
    {outs : List (Output × Shared)}, RestsAlone x c → AttendsAll env clientFlag c (script.map (·.1)) c' →
    (∀ e ∈ script, Brings e.2 e.1.1) → (∀ turn ∈ script.flatMap (·.2), turn.shared.replay = none) →
    run (exchangeStep env) x (script.flatMap (·.2)) = some (x', outs) →
    AttendedAll env clientFlag script (transcript (exchangeStep env) x (script.flatMap (·.2))) ∧ RestsAlone x' c'
  | [], x, x', c, c', outs, hx, hall, _, _, hrun => by
    cases hall
    cases hrun
    exact ⟨.nil, hx⟩
  | ((t, here), turns) :: script, x, x', c, c', outs, hx, hall, hbrings, hreplay, hrun => by
    obtain ⟨hturns, hbrings⟩ := List.forall_mem_cons.1 hbrings
    rw [List.flatMap_cons, List.forall_mem_append] at hreplay
    rw [List.flatMap_cons] at hrun
    obtain ⟨x₁, outs₁, outs₂, hfirst, hrest, -⟩ := run_append_split hrun
    cases hall with
    | cons ht hall =>
      obtain ⟨hattended, hx₁⟩ := attended hx ht hturns hreplay.1 hfirst
      obtain ⟨hlater, hx'⟩ := all_attended hx₁ hall hbrings hreplay.2 hrest
      rw [List.flatMap_cons, transcript_append hfirst]
      exact ⟨.cons (transcript_of_run hfirst).1 hattended hlater, hx'⟩

end

/-! ## Sessions with writes -/

namespace Round

/-- The command is a write that is answered here: a COM_QUERY that starts with one of the words. -/
def answeredHere (env : Env) (r : Round) : Bool :=
  env.interceptWrites && r.code == 0x03 && (fromUtf8 r.arg).any fun text =>
    startsWith (env.toLowercase text) "insert" || startsWith (env.toLowercase text) "update" ||
      startsWith (env.toLowercase text) "delete"

def attended (env : Env) (clientFlag : UInt32) (r : Round) : List (Transmission × Bool) :=
  (r.asked clientFlag, r.answeredHere env) :: r.answered.map (·, false)

/-- The server has nothing to say to a write that it does not get. -/
structure Attendable (env : Env) (clientFlag : UInt32) (r : Round) : Prop where
  write : r.answeredHere env → r.response = [] ∧ Small (commandBody clientFlag r.code r.arg)
  other : r.answeredHere env = false → r.WellFormed clientFlag

end Round

namespace Session

def attended (env : Env) (s : Session) : List (Transmission × Bool) :=
  s.opening.map (·, false) ++ s.rounds.flatMap (Round.attended env s.answer.clientFlag)

/-- A session, but for the answers to its writes. -/
structure Attendable (env : Env) (s : Session) : Prop where
  opens : { s with rounds := [] }.WellFormed
  rounds : ∀ r ∈ s.rounds, r.Attendable env s.answer.clientFlag

/-- What the server is to get of it: all that the client says but the writes. -/
def forwarded (env : Env) (s : Session) : Bytes :=
  ((s.attended env).filter fun t => t.1.sender = .client ∧ ¬ t.2).flatMap (·.1.bytes)

end Session

section
variable {env : Env} {c c' : Connection} {clientFlag : UInt32}

theorem fromByte_comQuery {b : UInt8} (h : MySqlCommand.fromByte b = some .comQuery) : b = 0x03 := by
  unfold MySqlCommand.fromByte at h
  split at h
  all_goals first | rfl | cases h

/-- Which commands are answered here. -/
theorem answersHere_round {r : Round} {code : MySqlCommand} {command : Command} {p : Packet}
    (hcode : MySqlCommand.fromByte r.code = some code) (hread : Command.fromBytes env code (argument r.code r.arg) = some command)
    (htype : r.code = 0x03 → p.pType = .command) (hcommand : c'.lastCommand = some command)
    (hphase : c'.phase = if code = .comStmtClose then .command else .pendingResponse) :
    answersHere env c' [p] = r.answeredHere env := by
  have hcomCode := Command.fromBytes_comCode hread
  by_cases hquery : code = .comQuery
  · subst hquery
    have hthree := fromByte_comQuery hcode
    rw [if_neg (by decide)] at hphase
    rw [Command.fromBytes, if_neg (by decide), argument, if_pos hthree] at hread
    obtain ⟨text, htext, he⟩ := Option.bind_eq_some_iff.1 hread
    cases he
    simp [answersHere, Round.answeredHere, hphase, hcommand, isWriteText, htype hthree, hthree, htext]
  · have hother : r.code ≠ 0x03 := by
      intro h
      rw [h] at hcode
      cases hcode
      exact hquery rfl
    replace hquery : (code == .comQuery) = false := by simpa using hquery
    replace hother : (r.code == 0x03) = false := by simpa using hother
    simp [answersHere, Round.answeredHere, hcommand, isWriteText, hcomCode, hquery, hother]

theorem round_attends (h41 : hasFlag clientFlag .clientProtocol41) {r : Round} (hc : Serves clientFlag c)
    (hr : r.Attendable env clientFlag) :
    ∃ c', AttendsAll env clientFlag c (r.attended env clientFlag) c' ∧ Serves clientFlag c' := by
  have hcommand : ∃ code, MySqlCommand.fromByte r.code = some code ∧ (r.code = 0x17 ∨ (fromUtf8 r.arg).isSome) ∧
      Small (commandBody clientFlag r.code r.arg) := by
    by_cases hhere : r.answeredHere env
    · have hsmall := (hr.write hhere).2
      simp only [Round.answeredHere, Bool.and_eq_true, beq_iff_eq, Option.any_eq_true_iff_get] at hhere
      obtain ⟨⟨-, hthree⟩, hsome, -⟩ := hhere
      exact ⟨.comQuery, by rw [hthree]; rfl, .inr hsome, hsmall⟩
    · have hw := hr.other (by simpa using hhere)
      obtain ⟨code, hcode, -⟩ := hw.command
      exact ⟨code, hcode, hw.text, hw.small⟩
  obtain ⟨code, hcode, htext, hsmall⟩ := hcommand
  obtain ⟨command, p, c₁, hread, hp, hasked, hphase, hlast, hfresh, hflags, hdiff⟩ :=
    @accepts_command env c r clientFlag code hc.phase hc.flags hcode htext hsmall
  have htype : r.code = 0x03 → p.pType = .command := by
    intro hthree
    rw [hc.phase] at hp
    obtain ⟨pType, htype, rfl⟩ := Option.map_eq_some_iff.1 hp
    simpa [frameOf, commandBody, hthree, getPacketType, eq_comm] using htype
  rw [hc.flags] at hflags
  rw [hc.diff] at hdiff
  have hhere := answersHere_round hcode hread htype hlast hphase
  have hattends : Attends env clientFlag c (r.asked clientFlag) (r.answeredHere env) c₁ :=
    ⟨hasked, fun _ => ⟨_, p, rfl, hp, hhere⟩, fun h => (by cases h), fun _ => hflags⟩
  rw [Round.attended, Round.answered]
  by_cases hwrite : r.answeredHere env
  · rw [if_pos (hr.write hwrite).1]
    exact ⟨_, .cons hattends (.nil _), by rw [if_pos hwrite], by rw [if_pos hwrite]; exact hflags, by rw [if_pos hwrite]; exact hdiff⟩
  · have hw := hr.other (by simpa using hwrite)
    obtain ⟨code', hcode', hresponds⟩ := hw.command
    cases hcode.symm.trans hcode'
    by_cases hnil : r.response = []
    · rw [if_pos (hresponds.eq_nil_iff.1 hnil)] at hphase
      rw [if_pos hnil]
      exact ⟨_, .cons hattends (.nil _), by rw [if_neg hwrite]; exact hphase, by rw [if_neg hwrite]; exact hflags,
        by rw [if_neg hwrite]; exact hdiff⟩
    · rw [if_neg fun hclose => hnil (hresponds.eq_nil_iff.2 hclose)] at hphase
      rw [if_neg hnil]
      obtain rfl := Command.fromBytes_comCode hread
      obtain ⟨c', hanswered, hc'⟩ := accepts_response h41 hphase hflags hlast hfresh hdiff hresponds hnil hw
      refine ⟨c', .cons hattends ?_, hc'⟩
      rw [if_neg hwrite]
      exact .cons ⟨hanswered, fun h => (by cases h), fun _ => rfl, fun h => (by cases h)⟩ (.nil _)

theorem LogsIn.attends {ts : List Transmission} (h : LogsIn env c ts c') :
    AttendsAll env clientFlag c (ts.map (·, false)) c' := by
  induction h with
  | nil c => exact .nil c
  | cons hphase ht _ ih => exact .cons (ht.attends hphase) ih

/-- **A session with writes** from the greeting to its last round. -/
theorem Session.attends {s : Session} (hs : s.Attendable env) :
    ∃ c', AttendsAll env s.answer.clientFlag (.new .plain .plain ∅ none none) (s.attended env) c' ∧
      Serves s.answer.clientFlag c' := by
  obtain ⟨c₁, hlogsIn, hc₁⟩ := @Session.logsIn env _ hs.opens .plain .plain none
  obtain ⟨c', hrounds, hc'⟩ := rounds_served AttendsAll.nil .append (round_attends s.answer.protocol41) hc₁ hs.rounds
  exact ⟨c', .append hlogsIn.attends hrounds, hc'⟩

end

/-! ## The process -/

section
variable {κ : Type} [DecidableEq κ] {env : Env} {serde : Serde}

theorem processStep_unreplayed {p p' : Process κ} {event : ProcessEvent κ} {output : Output} (h : p.shared.replay = none)
    (hstep : processStep env serde p event = some (p', output)) : p'.shared.replay = none := by
  cases processStep_stepped hstep with
  | accepted _ | panicked | published | updateExpired => exact h
  | turned _ _ | ended _ _ => rw [turnShared_replay]; exact h
  | polled hreplay _ _ =>
    rw [h] at hreplay
    cases hreplay
  | responseExpired => simp [h]

/-- Where nothing is replayed, no turn finds a replay log. -/
theorem turnsOf_unreplayed {vars : String → Option String} {p₀ : Process κ} (hstart : Process.start κ vars = some p₀)
    (hreplay : vars "kafka_replay_response_enable" ≠ some "true") (events : List (ProcessEvent κ)) (k : κ) :
    ∀ turn ∈ turnsOf k (transcript (processStep env serde) p₀ events), turn.shared.replay = none :=
  turnsOf_invariant (I := (·.replay = none)) processStep_unreplayed (Process.start_idle hstart hreplay).2 events k

/-- What goes to the server of a script. -/
theorem AttendedAll.toServer {clientFlag : UInt32} {script : List ((Transmission × Bool) × List Turn)}
    {steps : List (Step Exchange Turn (Output × Shared))} (h : AttendedAll env clientFlag script steps) :
    steps.flatMap (·.output.1.toServer) =
      ((script.map (·.1)).filter fun t => t.1.sender = .client ∧ ¬ t.2).flatMap (·.1.bytes) := by
  induction h with
  | nil => rfl
  | @cons t here turns script steps later _ hattended _ ih =>
    rw [List.flatMap_append, ih, List.map_cons, List.filter_cons]
    cases hattended with
    | delivered hsender hdelivers =>
      have hserver : t.sender = .server := hsender
      rw [if_neg (by simp [hserver]), hdelivers.toServer, List.nil_append]
    | forwarded hsender hsent _ =>
      have hclient : t.sender = .client := hsender
      rw [if_pos (by simp [hclient]), hsent, List.flatMap_cons]
    | answered _ hsent => rw [if_neg (by simp), hsent, List.nil_append]

/-- **A process attends to sessions with writes.** A process replays nothing, and what one of its connections, which has
not ended, reads is a session, cut into any non-empty reads, those of other connections in between. Then the server gets
all that the client says, byte for byte, but for its writes; each of these is answered by an OK packet of one row; the
client gets each packet of the server, or a row of it rewritten or left out; and in the end the connection waits for the
client's next command. -/
theorem process_attends_session {vars : String → Option String} {p₀ p : Process κ} {events : List (ProcessEvent κ)}
    {outs : List Output} (hstart : Process.start κ vars = some p₀)
    (hreplay : vars "kafka_replay_response_enable" ≠ some "true")
    (hrun : run (processStep env serde) p₀ events = some (p, outs)) {k : κ} {x : Exchange} (hclient : p.client k = .connected x)
    {s : Session} (hs : s.Attendable env) {script : List ((Transmission × Bool) × List Turn)}
    (hscript : script.map (·.1) = s.attended env) (hbrings : ∀ e ∈ script, Brings e.2 e.1.1)
    (hturns : turnsOf k (transcript (processStep env serde) p₀ events) = script.flatMap (·.2)) :
    AttendedAll env s.answer.clientFlag script (exchangesOf k (transcript (processStep env serde) p₀ events)) ∧
      x.connection.phase = .command ∧ x.listening = .client ∧
      (outputsOf k (transcript (processStep env serde) p₀ events)).flatMap (·.toServer) = s.forwarded env := by
  have hunreplayed := @turnsOf_unreplayed κ _ env serde vars p₀ hstart hreplay events k
  obtain ⟨x₀, os, hinit, hran, hsteps⟩ := process_exchanges hstart hrun hclient
  rw [hturns] at hunreplayed hran hsteps
  obtain ⟨c', hattends, hc'⟩ := @Session.attends env s hs
  have hrests : RestsAlone x₀ (.new .plain .plain ∅ none none) := by
    obtain ⟨diff, replay, kafka, rfl⟩ := hinit
    exact ⟨rfl, rfl, rfl⟩
  obtain ⟨hattended, hx⟩ := all_attended hrests (hscript ▸ hattends) hbrings hunreplayed hran
  rw [← hsteps] at hattended
  have hphase : x.connection.phase = .command := (congrArg (·.phase) hx.own).trans hc'.phase
  refine ⟨hattended, hphase, by rw [hx.listening, hc'.phase]; rfl, ?_⟩
  rw [outputsOf_exchanges hrun (by rw [hclient]; simp), List.flatMap_map, hattended.toServer, hscript, Session.forwarded]

end

/-! ## An UPDATE, and a query -/

def sampleUpdateRound : Round := ⟨0, 0x03, asBytes "update t set a = 'b'", []⟩

def updatingSession : Session := { sampleSession with rounds := [sampleUpdateRound, sampleSelected] }

theorem updatingSession_attendable : updatingSession.Attendable updateEnv where
  opens := { sampleSession_wellFormed with rounds := by simp }
  rounds := by
    simp only [updatingSession, List.forall_mem_cons, List.not_mem_nil, false_implies, implies_true, and_true]
    exact ⟨⟨fun _ => ⟨rfl, by unfold Small; decide⟩, fun h => absurd h (by decide)⟩,
      ⟨fun h => absurd h (by decide), fun _ => sampleSelected_wellFormed⟩⟩

/-- Each transmission in two reads. -/
def inTwo (t : Transmission × Bool) : List Bytes := [t.1.bytes.take 5, t.1.bytes.drop 5]

theorem script_of_inTwo : ∀ {ts : List (Transmission × Bool)} {turns : List Turn}, (∀ t ∈ ts, 5 < t.1.bytes.length) →
    turns.map (·.read.chunk) = ts.flatMap inTwo →
    ∃ script : List ((Transmission × Bool) × List Turn), script.map (·.1) = ts ∧ (∀ e ∈ script, Brings e.2 e.1.1) ∧
      turns = script.flatMap (·.2)
  | [], turns, _, h => ⟨[], rfl, by simp, by simpa using h⟩
  | t :: ts, turns, hlong, h => by
    obtain ⟨ht, hlong⟩ := List.forall_mem_cons.1 hlong
    obtain ⟨turn, turn', turns, rfl⟩ : ∃ turn turn' turns', turns = turn :: turn' :: turns' := by
      rcases turns with _ | ⟨turn, _ | ⟨turn', turns⟩⟩
      · simp [inTwo] at h
      · simp [inTwo] at h
      · exact ⟨_, _, _, rfl⟩
    simp only [List.map_cons, List.flatMap_cons, inTwo, List.cons_append, List.nil_append, List.cons.injEq] at h
    obtain ⟨hfirst, hsecond, hrest⟩ := h
    obtain ⟨script, rfl, hbrings, rfl⟩ := script_of_inTwo hlong hrest
    refine ⟨(t, [turn, turn']) :: script, rfl, List.forall_mem_cons.2 ⟨⟨?_, ?_⟩, hbrings⟩, rfl⟩
    · simp [hfirst, hsecond]
    · intro e he
      rw [← List.length_pos_iff]
      simp only [List.mem_cons, List.not_mem_nil, or_false] at he
      rcases he with rfl | rfl
      · simp [hfirst]
        omega
      · simp [hsecond]
        omega

def updatingSessionEvents : List (ProcessEvent Bool) :=
  .accept true :: ((updatingSession.attended updateEnv).flatMap inTwo).map fun chunk => .turn true (.whole chunk)

/-- The process with the connection still up. -/
def updatingSessionRun : Option (Process Bool × Process Bool × List Output × Exchange) := do
  let p₀ ← Process.start Bool fun _ => none
  let (p, outs) ← run (processStep updateEnv sampleSerde) p₀ updatingSessionEvents
  match p.client true with
  | .connected x => some (p₀, p, outs, x)
  | _ => none

theorem updatingSession_reads : (updatingSessionRun.any fun r =>
    (turnsOf true (transcript (processStep updateEnv sampleSerde) r.1 updatingSessionEvents)).map (·.read.chunk) =
      (updatingSession.attended updateEnv).flatMap inTwo) = true := by
  decide +kernel

theorem process_attends_session_one : ∃ p₀ p outs, Process.start Bool (fun _ => none) = some p₀ ∧
    run (processStep updateEnv sampleSerde) p₀ updatingSessionEvents = some (p, outs) ∧
    (outputsOf true (transcript (processStep updateEnv sampleSerde) p₀ updatingSessionEvents)).flatMap (·.toServer) =
      updatingSession.forwarded updateEnv := by
  obtain ⟨⟨p₀, p, outs, x⟩, hran, hreads⟩ := (Option.any_eq_true ..).1 updatingSession_reads
  simp only [updatingSessionRun, Option.bind_eq_bind, Option.bind_eq_some_iff] at hran
  obtain ⟨_, hstart, ⟨_, _⟩, hrun, hran⟩ := hran
  split at hran
  · rename_i hclient
    cases hran
    obtain ⟨script, hscript, hbrings, hturns⟩ := script_of_inTwo (by decide) (of_decide_eq_true hreads)
    obtain ⟨-, -, -, hserver⟩ := process_attends_session hstart (by decide) hrun hclient updatingSession_attendable
      hscript hbrings hturns
    exact ⟨_, _, _, hstart, hrun, hserver⟩
  · cases hran

end MocksySql
