import MocksySql.AuthExchange
import MocksySql.ProcessTransparency
import MocksySql.Segmentation
/-!
# Dialogues through a relay

In a dialogue the peers speak by turns, each in packets that the connection consumes in the phase that waits for them.
How the packets come in is up to the network.

| here | there |
| --- | --- |
| `Consumes`      | the `for` loop of `process_incoming_frame` (`state_handler.rs:31-47`), over the frames of any number of reads |
| `nextListening` | where either loop of `exchange` leads (`connection_handler.rs:126`, `:171`) |
| `Connection.idle` | the connection of a process that neither intercepts nor replays |

* `transmission_relayed` — what one peer says.
* `dialogue_relayed` — a dialogue, over any reads.
-/

namespace MocksySql
open FieldDecode PartialRun ByteStream

/-! ## What is said -/

/-- What a peer sends before it waits for the other one. -/
structure Transmission where
  sender : Side
  frames : List Frame

def Transmission.bytes (t : Transmission) : Bytes := t.frames.flatMap Frame.toBytes

/-- The frames are consumed one by one, and the last one alone may lead out of the phase. -/
inductive Consumes (env : Env) : Connection → List Frame → Connection → Prop
  | last {c c' : Connection} {f : Frame} {p : Packet} {out : Option Packet} : f.toPacket c.phase = some p →
      consumePacket env c p = some (c', out) → Consumes env c [f] c'
  | more {c c₁ c' : Connection} {f : Frame} {fs : List Frame} {p : Packet} {out : Option Packet} :
      f.toPacket c.phase = some p → consumePacket env c p = some (c₁, out) → c₁.phase = c.phase →
      Consumes env c₁ fs c' → Consumes env c (f :: fs) c'

/-- The loop that a loop leads to, the connection being in this phase. -/
def nextListening : Side → Phase → Side
  | .server, phase => if phase ∈ serverTransitionPhases then .client else .server
  | .client, phase => if phase ∈ clientTransitionPhases then .server else .client

/-- The sender is the one that is waited for, and behind the last frame so is the next one. -/
structure Accepts (env : Env) (c : Connection) (t : Transmission) (c' : Connection) : Prop where
  speaks : t.sender = c.phase.speaker
  plain : c.phase ≠ .tlsExchange
  wellFormed : ∀ f ∈ t.frames, f.WellFormed
  inOrder : InOrder (t.frames.map (·.1))
  consumed : Consumes env c t.frames c'
  yields : nextListening t.sender c'.phase = c'.phase.speaker

inductive Dialogue (env : Env) : Connection → List Transmission → Connection → Prop
  | nil (c : Connection) : Dialogue env c [] c
  | cons {c c₁ c' : Connection} {t : Transmission} {ts : List Transmission} : Accepts env c t c₁ →
      Dialogue env c₁ ts c' → Dialogue env c (t :: ts) c'

theorem Dialogue.append {env : Env} {c c₁ c' : Connection} {ts us : List Transmission} (h : Dialogue env c ts c₁)
    (h' : Dialogue env c₁ us c') : Dialogue env c (ts ++ us) c' := by
  induction h with
  | nil => exact h'
  | cons ht _ ih => exact .cons ht (ih h')

/-- A phase keeps the loop that listens to its speaker. -/
theorem nextListening_stays (phase : Phase) : nextListening phase.speaker phase = phase.speaker := by
  cases phase <;> rfl

/-! ## Held bytes are not looked at -/

section
variable {env : Env} {c c' : Connection}

theorem accumulate_withResidual (packet : Packet) (residual : Bytes) :
    accumulate env packet (c.withResidual residual) = accumulate env packet c := by
  have hconsume : ∀ self : ResponseAccumulator,
      self.consume env packet (c.withResidual residual) = self.consume env packet c := by
    intro self
    rw [Connection.withResidual_eq]
    exact ResponseAccumulator.consume_congr (fun _ _ => rfl) self packet
  rw [accumulate, accumulate, Connection.withResidual_phase]
  have hresponse : (c.withResidual residual).queryResponse = c.queryResponse := by rw [Connection.withResidual_eq]
  rw [hresponse, hconsume]
  rw [Connection.withResidual_eq]
  rfl

theorem consumePacket_withResidual {packet : Packet} {out : Option Packet} (residual : Bytes)
    (h : consumePacket env c packet = some (c', out)) :
    consumePacket env (c.withResidual residual) packet = some (c'.withResidual residual, out) := by
  obtain ⟨⟨phase, packet', delta⟩, hacc, he⟩ := Option.map_eq_some_iff.1 h
  cases he
  rw [consumePacket, accumulate_withResidual, hacc, Option.map_some]
  simp only [Connection.withResidual_eq]
  rfl

theorem run_withResidual (residual : Bytes) {packets : List Packet} {outs : List (Option Packet)}
    (h : run (consumePacket env) c packets = some (c', outs)) :
    run (consumePacket env) (c.withResidual residual) packets = some (c'.withResidual residual, outs) :=
  run_map (f := (·.withResidual residual)) (consumePacket_withResidual residual) h

/-- The converse of `mapM_toPacket_cons`. -/
theorem cons_mapM_toPacket {phase : Phase} {f : Frame} {fs : List Frame} {p : Packet} {ps : List Packet}
    (hp : f.toPacket phase = some p) (hps : fs.mapM (Frame.toPacket phase) = some ps) :
    (f :: fs).mapM (Frame.toPacket phase) = some (p :: ps) := by
  simp [hp, hps]

namespace Consumes

theorem withResidual {fs : List Frame} (residual : Bytes) (h : Consumes env c fs c') :
    Consumes env (c.withResidual residual) fs (c'.withResidual residual) := by
  induction h with
  | last hp hstep =>
    exact .last (by rwa [Connection.withResidual_phase]) (consumePacket_withResidual residual hstep)
  | more hp hstep hphase _ ih =>
    exact .more (by rwa [Connection.withResidual_phase]) (consumePacket_withResidual residual hstep)
      (by rwa [Connection.withResidual_phase, Connection.withResidual_phase]) ih

theorem ne_nil {fs : List Frame} (h : Consumes env c fs c') : fs ≠ [] := by
  cases h <;> simp

/-- All frames, in the packets of one read. -/
theorem all {fs : List Frame} (h : Consumes env c fs c') :
    ∃ packets outs, fs.mapM (Frame.toPacket c.phase) = some packets ∧ run (consumePacket env) c packets = some (c', outs) := by
  induction h with
  | last hp hstep => exact ⟨[_], [_], cons_mapM_toPacket hp rfl, by rw [run_singleton, hstep]; rfl⟩
  | more hp hstep hphase _ ih =>
    obtain ⟨packets, outs, hpackets, hrun⟩ := ih
    rw [hphase] at hpackets
    exact ⟨_, _ :: outs, cons_mapM_toPacket hp hpackets, by rw [run_cons hstep, hrun]; rfl⟩

/-- Some of them. -/
theorem part {fs' : List Frame} (hmore : fs' ≠ []) : ∀ {fs : List Frame} {c : Connection}, Consumes env c (fs ++ fs') c' →
    ∃ packets outs c₁, fs.mapM (Frame.toPacket c.phase) = some packets ∧
      run (consumePacket env) c packets = some (c₁, outs) ∧ c₁.phase = c.phase ∧ Consumes env c₁ fs' c'
  | [], c, h => ⟨[], [], c, rfl, rfl, rfl, h⟩
  | f :: fs, c, h => by
    rw [List.cons_append] at h
    generalize hrest : fs ++ fs' = rest at h
    cases h with
    | last hp hstep => exact absurd (List.append_eq_nil_iff.1 hrest).2 hmore
    | more hp hstep hphase htail =>
      subst hrest
      obtain ⟨packets, outs, c₁, hpackets, hrun, hphase₁, hc₁⟩ := part hmore htail
      rw [hphase] at hpackets
      exact ⟨_, _ :: outs, c₁, cons_mapM_toPacket hp hpackets, by rw [run_cons hstep, hrun]; rfl,
        hphase₁.trans hphase, hc₁⟩

theorem partialBytes {fs : List Frame} (h : Consumes env c fs c') : c'.partialBytes = c.partialBytes := by
  induction h with
  | last _ hstep => exact (consumePacket_frame hstep).1
  | more _ hstep _ _ ih => exact ih.trans (consumePacket_frame hstep).1

theorem shared {fs : List Frame} (h : Consumes env c fs c') : c'.diff = c.diff ∧ c'.replay = c.replay := by
  induction h with
  | last _ hstep => exact ⟨(consumePacket_frame hstep).2, (consumePacket_replay hstep).1⟩
  | more _ hstep _ _ ih =>
    exact ⟨ih.1.trans (consumePacket_frame hstep).2, ih.2.trans (consumePacket_replay hstep).1⟩

end Consumes

/-! ## One read -/

/-- The frames a read completes, and those it does not. -/
theorem split_frames_part {fs : List Frame} (hfs : ∀ f ∈ fs, f.WellFormed) {xs ys : Bytes}
    (hstream : xs ++ ys = fs.flatMap Frame.toBytes) :
    ∃ fs', fs = (frames.split xs).1 ++ fs' ∧ (frames.split xs).2 ++ ys = fs'.flatMap Frame.toBytes := by
  have hall := split_frames fun f hf => ⟨(hfs f hf).size, (hfs f hf).encodable⟩
  rw [← hstream, frames.split_append] at hall
  obtain ⟨hfirst, hrest⟩ := Prod.mk.inj hall
  refine ⟨_, hfirst.symm, ?_⟩
  have hrender := render_frames ((frames.split xs).2 ++ ys)
  rw [hrest, List.append_nil] at hrender
  exact hrender.symm

theorem processIncomingFrame_of_split {r : SocketRead} {packets : List Packet} {outs : List (Option Packet)}
    (hfs : ∀ f ∈ (frames.split (c.partialBytes.getD [] ++ r.chunk)).1, f.WellFormed)
    (hpackets : (frames.split (c.partialBytes.getD [] ++ r.chunk)).1.mapM (Frame.toPacket c.phase) = some packets)
    (horder : InOrder ((frames.split (c.partialBytes.getD [] ++ r.chunk)).1.map (·.1)))
    (hrun : run (consumePacket env) c packets = some (c', outs)) :
    processIncomingFrame env r.buf c r.readBytes =
      some (c'.withResidual (frames.split (c.partialBytes.getD [] ++ r.chunk)).2, outs.filterMap id) := by
  obtain ⟨packets', hpackets', hheaders⟩ := mapM_toPacket c.phase fun f hf => (hfs f hf).nonempty
  cases hpackets.symm.trans hpackets'
  rw [processIncomingFrame, makePackets_eq, hpackets]
  simp only [Option.bind_eq_bind, Option.bind_some]
  rw [if_pos (by rw [hheaders]; exact horder), Option.bind_some,
    run_withResidual (frames.split (c.partialBytes.getD [] ++ r.chunk)).2 hrun]
  rfl

/-- The read with the last frame. -/
theorem processIncomingFrame_all {r : SocketRead} {fs : List Frame} (hfs : ∀ f ∈ fs, f.WellFormed)
    (horder : InOrder (fs.map (·.1))) (h : Consumes env c fs c')
    (hstream : c.partialBytes.getD [] ++ r.chunk = fs.flatMap Frame.toBytes) :
    ∃ packets, processIncomingFrame env r.buf c r.readBytes = some (c'.withResidual [], packets) := by
  obtain ⟨packets, outs, hpackets, hrun⟩ := h.all
  have hsplit := split_frames fun f hf => ⟨(hfs f hf).size, (hfs f hf).encodable⟩
  rw [← hstream] at hsplit
  have hframe := @processIncomingFrame_of_split env c c' r packets outs (by rwa [hsplit]) (by rwa [hsplit]) (by rwa [hsplit]) hrun
  rw [hsplit] at hframe
  exact ⟨_, hframe⟩

/-- A read with some of them, and the rest of the frames. -/
theorem processIncomingFrame_some_of {r : SocketRead} {fs : List Frame} {later : Bytes} (hfs : ∀ f ∈ fs, f.WellFormed)
    (horder : InOrder (fs.map (·.1))) (h : Consumes env c fs c')
    (hstream : c.partialBytes.getD [] ++ r.chunk ++ later = fs.flatMap Frame.toBytes) (hlater : later ≠ []) :
    ∃ c₁ packets residual fs', processIncomingFrame env r.buf c r.readBytes = some (c₁, packets) ∧ c₁.phase = c.phase ∧
      (∀ f ∈ fs', f.WellFormed) ∧ InOrder (fs'.map (·.1)) ∧ Consumes env c₁ fs' (c'.withResidual residual) ∧
      c₁.partialBytes.getD [] ++ later = fs'.flatMap Frame.toBytes := by
  obtain ⟨fs', hsplit, hrest⟩ := split_frames_part hfs hstream
  have hmore : fs' ≠ [] := by
    rintro rfl
    exact hlater (List.append_eq_nil_iff.1 hrest).2
  rw [hsplit, List.map_append] at horder
  rw [hsplit] at h
  obtain ⟨packets, outs, c₁, hpackets, hrun, hphase, hc₁⟩ := h.part hmore
  have hin : ∀ f ∈ (frames.split (c.partialBytes.getD [] ++ r.chunk)).1, f.WellFormed :=
    fun f hf => hfs f (by rw [hsplit]; exact List.mem_append_left _ hf)
  have hframe := processIncomingFrame_of_split hin hpackets (List.isChain_append.1 horder).1 hrun
  refine ⟨_, _, _, fs', hframe, by rw [Connection.withResidual_phase, hphase], fun f hf => hfs f ?_,
    (List.isChain_append.1 horder).2.1, hc₁.withResidual _, by rwa [Connection.withResidual_partialBytes]⟩
  rw [hsplit]
  exact List.mem_append_right _ hf

end

/-! ## One transmission -/

def Connection.idle (c : Connection) : Connection := { c with diff := ∅, replay := none }

theorem Connection.sharing_idle (c : Connection) {shared : Shared} (h : shared.Idle) : c.sharing shared = c.idle := by
  rw [sharing, h.1, h.2, idle]

theorem Connection.idle_of {c c' : Connection} (hdiff : c'.diff = c.idle.diff) (hreplay : c'.replay = c.idle.replay) :
    c'.idle = c' := by
  have hd : c'.diff = ∅ := hdiff
  have hr : c'.replay = none := hreplay
  rw [idle, ← hd, ← hr]

/-- These turns bring this transmission, in any number of reads. -/
structure Brings (turns : List Turn) (t : Transmission) : Prop where
  stream : turns.flatMap (·.read.chunk) = t.bytes
  nonempty : ∀ turn ∈ turns, turn.read.chunk ≠ []

/-- In these steps, which are these turns, a transmission is read from the peer that sends it, and written to the other. -/
structure Relayed (t : Transmission) (turns : List Turn) (steps : List (Step Exchange Turn (Output × Shared))) : Prop where
  inputs : steps.map (·.input) = turns
  written : steps.flatMap (·.output.1.written) = t.bytes
  across : ∀ e ∈ steps, e.before.listening = t.sender ∧
    (match t.sender with
      | .server => e.output.1.toServer = []
      | .client => e.output.1.toClient = [])

/-- These turns lead there, and relay a transmission. -/
structure Relays (env : Env) (x : Exchange) (t : Transmission) (turns : List Turn) (x' : Exchange) : Prop where
  runs : ∃ outs, run (exchangeStep env) x turns = some (x', outs)
  relayed : Relayed t turns (transcript (exchangeStep env) x turns)

section
variable {env : Env} {x : Exchange}

/-- A turn of a relay is its frame, and the loop it leads to. -/
theorem exchangeStep_idle (hin : ¬ env.interceptWrites) {turn : Turn} (hshared : turn.shared.Idle)
    (hread : turn.read.chunk ≠ []) (hplain : x.connection.phase ≠ .tlsExchange) {c' : Connection} {packets : List Packet}
    (hframe : processIncomingFrame env turn.read.buf x.connection.idle turn.read.readBytes = some (c', packets)) :
    ∃ x' out, exchangeStep env x turn = some (x', out) ∧ x'.connection = c' ∧
      x'.listening = nextListening x.listening c'.phase := by
  have hopen : turn.read.readBytes ≠ 0 := fun h => hread (by simp [SocketRead.chunk, h])
  have hidle := x.connection.sharing_idle hshared
  cases hlisten : x.listening with
  | server =>
    have hreceive := @receive_server env { x with connection := x.connection.idle } turn.read hlisten rfl
    rw [if_neg hopen] at hreceive
    unfold exchangeStep
    simp only [hidle, hreceive]
    exact ⟨_, _, by simp only [hlisten, serverTurn, hframe]; rfl, rfl, rfl⟩
  | client =>
    have hreceive : receive env { x with connection := x.connection.idle } turn.read =
        .bytes x.connection.idle turn.read .client := by
      unfold receive
      simp only [hlisten, if_neg hopen]
      rw [switchIfAgreed_of_ne (by exact hplain)]
    have hoff : ∀ drawn counter, interceptIfEnabled env c' packets drawn counter =
        some { connection := c', drawn, globalCounter := counter, response := none } :=
      fun drawn counter => if_neg hin
    unfold exchangeStep
    simp only [hidle, hreceive]
    refine ⟨afterClientFrame { x with connection := x.connection.idle } c', _,
      by simp only [hlisten, clientTurn, hframe, hoff, Option.bind_eq_bind, Option.bind_some, Option.map_some]; rfl,
      afterClientFrame_connection _ _, ?_⟩
    by_cases hnext : c'.phase ∈ clientTransitionPhases
    · rw [afterClientFrame, if_pos hnext, nextListening, if_pos hnext]
    · rw [afterClientFrame, if_neg hnext, nextListening, if_neg hnext]
      exact hlisten

theorem processIncomingFrame_idle {c c' : Connection} {r : SocketRead} {packets : List Packet}
    (h : processIncomingFrame env r.buf c.idle r.readBytes = some (c', packets)) : c'.idle = c' :=
  Connection.idle_of (processIncomingFrame_diff h) (processIncomingFrame_replay h).1

/-- **One transmission**, in any reads: the connection is as if it had come in one. -/
theorem transmission_relayed (hin : ¬ env.interceptWrites) : ∀ {turns : List Turn} {x : Exchange} {fs : List Frame}
    {c' : Connection}, Consumes env x.connection.idle fs c' → (∀ f ∈ fs, f.WellFormed) → InOrder (fs.map (·.1)) →
    x.connection.partialBytes.getD [] ++ turns.flatMap (·.read.chunk) = fs.flatMap Frame.toBytes →
    turns ≠ [] → (∀ turn ∈ turns, turn.read.chunk ≠ [] ∧ turn.shared.Idle) →
    x.connection.phase ≠ .tlsExchange → x.listening = x.connection.phase.speaker →
    ∃ x' outs, run (exchangeStep env) x turns = some (x', outs) ∧ x'.connection = c'.withResidual [] ∧
      x'.listening = nextListening x.listening c'.phase ∧
      ∀ e ∈ transcript (exchangeStep env) x turns, e.before.listening = x.listening
  | [], _, _, _, _, _, _, _, hne, _, _, _ => absurd rfl hne
  | turn :: turns, x, fs, c', hconsumes, hfs, horder, hstream, _, hturns, hplain, hlisten => by
    obtain ⟨⟨hread, hshared⟩, hrest⟩ := List.forall_mem_cons.1 hturns
    rw [List.flatMap_cons, ← List.append_assoc] at hstream
    by_cases hlater : turns.flatMap (·.read.chunk) = []
    · obtain rfl := (chunks_eq_nil fun t ht => (hrest t ht).1).1 hlater
      rw [List.flatMap_nil, List.append_nil] at hstream
      obtain ⟨packets, hframe⟩ := processIncomingFrame_all hfs horder hconsumes hstream
      obtain ⟨x', out, hstep, hconnection, hnext⟩ := exchangeStep_idle hin hshared hread hplain hframe
      rw [Connection.withResidual_phase] at hnext
      refine ⟨x', [out], by rw [run_singleton, hstep]; rfl, hconnection, hnext, ?_⟩
      rw [transcript_cons hstep]
      simp [transcript]
    · obtain ⟨c₁, packets, residual, fs', hframe, hphase, hfs', horder', hconsumes', hstream'⟩ :=
        processIncomingFrame_some_of hfs horder hconsumes hstream hlater
      obtain ⟨x₁, out, hstep, rfl, hnext⟩ := exchangeStep_idle hin hshared hread hplain hframe
      have hsame : x₁.connection.phase = x.connection.phase := hphase
      rw [hsame, hlisten, nextListening_stays, ← hlisten] at hnext
      rw [← processIncomingFrame_idle hframe] at hconsumes'
      obtain ⟨x', outs, hrun, hconnection, hnext', hlistens⟩ := transmission_relayed hin hconsumes' hfs' horder' hstream'
        (fun h => hlater (by rw [h]; rfl)) hrest (by rwa [hsame]) (by rw [hnext, hsame, hlisten])
      rw [Connection.withResidual_withResidual] at hconnection
      rw [Connection.withResidual_phase, hnext] at hnext'
      refine ⟨x', out :: outs, by rw [run_cons hstep, hrun]; rfl, hconnection, hnext', ?_⟩
      rw [transcript_cons hstep]
      intro e he
      rcases List.mem_cons.1 he with rfl | he
      · rfl
      · exact (hlistens e he).trans hnext

end

/-! ## Dialogues -/

/-- In these steps the transmissions of a script are relayed one after the other, each in its turns. -/
inductive RelayedAll : List (Transmission × List Turn) → List (Step Exchange Turn (Output × Shared)) → Prop
  | nil : RelayedAll [] []
  | cons {t : Transmission} {turns : List Turn} {script : List (Transmission × List Turn)}
      {steps later : List (Step Exchange Turn (Output × Shared))} : Relayed t turns steps → RelayedAll script later →
      RelayedAll ((t, turns) :: script) (steps ++ later)

theorem RelayedAll.written {script : List (Transmission × List Turn)} {steps : List (Step Exchange Turn (Output × Shared))}
    (h : RelayedAll script steps) : steps.flatMap (·.output.1.written) = script.flatMap (·.1.bytes) := by
  induction h with
  | nil => rfl
  | cons hrelayed _ ih => rw [List.flatMap_append, hrelayed.written, ih, List.flatMap_cons]

/-- Each transmission of a script is relayed in its turns. -/
def Converses (env : Env) : Exchange → List (Transmission × List Turn) → Exchange → Prop
  | x, [], x' => x' = x
  | x, (t, turns) :: script, x' => ∃ x₁, Relays env x t turns x₁ ∧ Converses env x₁ script x'

/-- Between two transmissions nothing is held, and the peer is listened to that the phase waits for. -/
structure Rests (x : Exchange) (c : Connection) : Prop where
  connection : x.connection.idle = c
  nothing : c.partialBytes = none
  unskipped : c.queryResponse.skippedPackets = 0
  listening : x.listening = c.phase.speaker

section
variable {env : Env} {x : Exchange} {c c' : Connection}

theorem Transmission.bytes_ne_nil {t : Transmission} (h : t.frames ≠ []) : t.bytes ≠ [] := by
  obtain ⟨f, fs, hf⟩ := List.exists_cons_of_ne_nil h
  rw [bytes, hf, List.flatMap_cons]
  exact List.append_ne_nil_of_left_ne_nil f.toBytes_ne_nil _

theorem accepted_relayed (hin : ¬ env.interceptWrites) {t : Transmission} {turns : List Turn} (hx : Rests x c)
    (ht : Accepts env c t c') (hturns : Brings turns t) (hidle : ∀ turn ∈ turns, turn.shared.Idle) : ∃ x', Relays env x t turns x' ∧ Rests x' c' := by
  obtain ⟨rfl, hnothing, hskip, hlisten⟩ := hx
  have hheld : x.connection.partialBytes = none := hnothing
  have hne : turns ≠ [] := by
    rintro rfl
    exact Transmission.bytes_ne_nil ht.consumed.ne_nil hturns.stream.symm
  obtain ⟨x', outs, hrun, hconnection, hnext, hlistens⟩ := transmission_relayed hin ht.consumed ht.wellFormed ht.inOrder
    (by rw [hheld]; exact hturns.stream) hne (fun turn h => ⟨hturns.nonempty turn h, hidle turn h⟩) ht.plain hlisten
  have hnothing' : c'.partialBytes = none := ht.consumed.partialBytes.trans hnothing
  rw [Connection.withResidual_nil hnothing'] at hconnection
  obtain ⟨hwritten, hskip'⟩ := run_transparent hin hskip hidle hrun
  have hsender : x.listening = t.sender := hlisten.trans ht.speaks.symm
  obtain ⟨hinputs, houtputs⟩ := transcript_of_run hrun
  refine ⟨x', ⟨⟨outs, hrun⟩, hinputs, ?_, fun e he => ⟨(hlistens e he).trans hsender, ?_⟩⟩, ?_, hnothing', ?_, ?_⟩
  · rw [hconnection, hnothing', hheld, Option.getD_none, List.append_nil, List.nil_append, hturns.stream] at hwritten
    rw [← hwritten, ← houtputs, List.flatMap_map]
  · have hacross := exchangeStep_across hin (transcript_step e he).2
    rwa [hlistens e he, hsender] at hacross
  · rw [hconnection]
    exact Connection.idle_of ht.consumed.shared.1 ht.consumed.shared.2
  · rwa [hconnection] at hskip'
  · rw [hnext, hsender, ht.yields]

/-- **A dialogue goes through**, whatever reads bring it. -/
theorem dialogue_relayed (hin : ¬ env.interceptWrites) {ts : List Transmission} (h : Dialogue env c ts c') :
    ∀ {x : Exchange} {script : List (Transmission × List Turn)}, Rests x c → script.map (·.1) = ts →
      (∀ e ∈ script, Brings e.2 e.1) → (∀ turn ∈ script.flatMap (·.2), turn.shared.Idle) → ∃ x', Converses env x script x' ∧ Rests x' c' := by
  induction h with
  | nil c =>
    intro x script hx hscript _ _
    rw [List.map_eq_nil_iff] at hscript
    subst hscript
    exact ⟨x, rfl, hx⟩
  | cons ht _ ih =>
    intro x script hx hscript hbrings hidle
    obtain ⟨⟨t, turns⟩, script, rfl, rfl, hrest⟩ := List.map_eq_cons_iff.1 hscript
    obtain ⟨hturns, hbrings⟩ := List.forall_mem_cons.1 hbrings
    rw [List.flatMap_cons, List.forall_mem_append] at hidle
    obtain ⟨x₁, hrelays, hx₁⟩ := accepted_relayed hin hx ht hturns hidle.1
    obtain ⟨x', hconverses, hx'⟩ := ih hx₁ hrest hbrings hidle.2
    exact ⟨x', ⟨x₁, hrelays, hconverses⟩, hx'⟩

/-- The turns of a script are one run. -/
theorem Converses.run : ∀ {script : List (Transmission × List Turn)} {x x' : Exchange}, Converses env x script x' →
    ∃ outs, PartialRun.run (exchangeStep env) x (script.flatMap (·.2)) = some (x', outs) ∧
      RelayedAll script (transcript (exchangeStep env) x (script.flatMap (·.2)))
  | [], x, x', h => by cases h; exact ⟨[], rfl, .nil⟩
  | (t, turns) :: script, x, x', h => by
    obtain ⟨x₁, ⟨⟨outs, hrun⟩, hrelayed⟩, hrest⟩ := h
    obtain ⟨outs', hrun', hall⟩ := Converses.run hrest
    refine ⟨outs ++ outs', run_append_some hrun hrun', ?_⟩
    rw [List.flatMap_cons, transcript_append hrun]
    exact .cons hrelayed hall

end

end MocksySql
