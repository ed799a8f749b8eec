import MocksySql.AuthGate
import MocksySql.Lib.Batch
import MocksySql.ResultSetRuns
/-!
# What is logged of a response

`push_to_kafka_if_logging_enabled` takes a response for complete when no bytes are held back, which is
so after every read that ends with a packet. A response is therefore logged in batches.

* `records_eq_batches` — the entries of a response are the batches of what is written to the client.
* `logged_iff` — there is one entry, with the whole response, exactly if no read before the last ends
  with a packet.
-/

namespace MocksySql
open FieldDecode PartialRun ByteStream Batching

/-- A command is sent, responses are logged, and nothing of its response has been read. -/
structure AwaitsResponse (x : Exchange) (command : Command) : Prop where
  phase : x.connection.phase = .pendingResponse
  command : x.connection.lastCommand = some command
  logging : x.connection.kafkaProducerConfig.isSome
  nothing : x.connection.partialBytes = none ∧ x.kafkaLogBuffer = []

/-- The server loop reads a response, from its first packet to its last. -/
structure ReadsResponse (env : Env) (x : Exchange) (turns : List Turn) (x' : Exchange) (outs : List (Output × Shared)) :
    Prop where
  ran : run (exchangeStep env) x turns = some (x', outs)
  /-- Every turn reads the server's socket. -/
  live : ∀ e ∈ transcript (exchangeStep env) x turns,
    receive env { e.before with connection := e.before.connection.sharing e.input.shared } e.input.read =
      .bytes (e.before.connection.sharing e.input.shared) e.input.read .server
  /-- Its packets are whole, and all are consumed as packets of the response. -/
  whole : (frames.split (turns.flatMap (·.read.chunk))).2 = []
  packets : ∀ e ∈ runEvents env x [] turns, e.step.before.phase = .pendingResponse
  complete : x'.connection.phase = .command

section
variable {env : Env} {command : Command}

/-- The entry made of a batch. -/
def replayLogEntry (env : Env) (command : Command) (batch : Bytes) : ReplayLogEntry :=
  { lastCommand := command.arg, output := env.base64Encode batch }

/-- Packets of a response leave the command alone. -/
theorem run_pending {packets : List Packet} : ∀ {c c' : Connection} {outs : List (Option Packet)},
    run (consumePacket env) c packets = some (c', outs) →
    (∀ e ∈ transcript (consumePacket env) c packets, e.before.phase = .pendingResponse) →
    c'.lastCommand = c.lastCommand ∧ c'.kafkaProducerConfig = c.kafkaProducerConfig ∧ c'.partialBytes = c.partialBytes := by
  induction packets with
  | nil => intro c c' outs h _; cases h; exact ⟨rfl, rfl, rfl⟩
  | cons p ps ih =>
    intro c c' outs h hphases
    obtain ⟨c₁, _, _, hp, hps, _⟩ := run_cons_some h
    rw [transcript_cons hp] at hphases
    have hphase : c.phase = .pendingResponse := hphases ⟨_, _, _, _⟩ (List.mem_cons_self ..)
    obtain ⟨hcommand, hconfig, hheld⟩ := ih hps fun e he => hphases e (List.mem_cons_of_mem _ he)
    have hfirst : c₁.lastCommand = c.lastCommand ∧ c₁.kafkaProducerConfig = c.kafkaProducerConfig := by
      cases consumePacket_consumed hp with
      | response => exact ⟨rfl, rfl⟩
      | handshake _ h => rw [hphase] at h; cases h
      | handshakeResponse _ _ h => rw [hphase] at h; cases h
      | auth _ h => rcases h with h | h | h <;> rw [hphase] at h <;> cases h
      | command _ _ h => rw [hphase] at h; cases h
    exact ⟨hcommand.trans hfirst.1, hconfig.trans hfirst.2, hheld.trans (consumePacket_frame hp).1⟩

/-- A turn of the server loop on the server's socket. -/
theorem exchangeStep_live {x x' : Exchange} {turn : Turn} {output : Output} {shared : Shared}
    (hlive : receive env { x with connection := x.connection.sharing turn.shared } turn.read =
      .bytes (x.connection.sharing turn.shared) turn.read .server)
    (hstep : exchangeStep env x turn = some (x', output, shared)) :
    ∃ packets, processIncomingFrame env turn.read.buf (x.connection.sharing turn.shared) turn.read.readBytes =
        some (x'.connection, packets) ∧
      pushToKafka env x'.connection output.toClient x.kafkaLogBuffer = (x'.kafkaLogBuffer, output.records) := by
  cases exchangeStep_turned hstep with
  | waiting hwait =>
    rw [hlive] at hwait
    cases hwait
  | server _ hreceive hframe hpush =>
    rw [hlive] at hreceive
    cases hreceive
    exact ⟨_, hframe, hpush⟩
  | answered hlisten hreceive _ _ _ | unanswered hlisten hreceive _ _ _ =>
    obtain ⟨-, -, horigin⟩ := receive_client hlive hlisten
    cases horigin

/-- **One turn** of a response: the residual decides whether a batch is flushed. -/
theorem exchangeStep_logged {x x' : Exchange} {turn : Turn} {output : Output} {shared : Shared} {origins : List Origin}
    (hcommand : x.connection.lastCommand = some command) (hlogging : x.connection.kafkaProducerConfig.isSome)
    (hlive : receive env { x with connection := x.connection.sharing turn.shared } turn.read =
      .bytes (x.connection.sharing turn.shared) turn.read .server)
    (hpackets : ∀ e ∈ (turnEvents env x origins turn).1, e.step.before.phase = .pendingResponse)
    (hstep : exchangeStep env x turn = some (x', output, shared)) :
    x'.connection.lastCommand = some command ∧ x'.connection.kafkaProducerConfig.isSome ∧
      x'.connection.partialBytes.getD [] = (frames.split (x.connection.partialBytes.getD [] ++ turn.read.chunk)).2 ∧
      (x'.kafkaLogBuffer, output.records) =
        if (frames.split (x.connection.partialBytes.getD [] ++ turn.read.chunk)).2 = [] then
          ([], [replayLogEntry env command (x.kafkaLogBuffer ++ output.toClient)])
        else (x.kafkaLogBuffer ++ output.toClient, []) := by
  obtain ⟨packets, hframe, hpush⟩ := exchangeStep_live hlive hstep
  obtain ⟨c₀, ps, outs, hmake, hrun, -⟩ := processIncomingFrame_some hframe
  rw [turnEvents, hlive] at hpackets
  simp only [frameEvents, hmake] at hpackets
  obtain ⟨rfl, -⟩ := makePackets_some hmake
  obtain ⟨hcommand', hlogging', hheld'⟩ := run_pending hrun fun step hstep => by
    rw [← traceBytes_steps (transcript _ _ _) (origins ++ List.replicate turn.read.chunk.length .server)] at hstep
    obtain ⟨e, he, rfl⟩ := List.mem_map.1 hstep
    exact hpackets e he
  have hheld : (x.connection.sharing turn.shared).partialBytes = x.connection.partialBytes := rfl
  rw [hheld, Connection.withResidual_eq] at hcommand' hlogging' hheld'
  replace hcommand' : x'.connection.lastCommand = some command := hcommand'.trans hcommand
  obtain ⟨topic, htopic⟩ := Option.isSome_iff_exists.1 hlogging
  replace hlogging' : x'.connection.kafkaProducerConfig = some topic := hlogging'.trans htopic
  refine ⟨hcommand', by rw [hlogging']; rfl, ?_, ?_⟩
  · rw [hheld']
    split_ifs with h
    · exact h.symm
    · rfl
  · rw [← hpush, pushToKafka, hcommand', hlogging', hheld']
    split_ifs <;> rfl

/-- What the turns of a response write to the client, each with a mark where a batch is flushed. -/
def logged (held : Bytes) (turns : List Turn) (outs : List (Output × Shared)) : List (Bytes × Bool) :=
  (outs.map (·.1.toClient)).zip ((frames.residuals held (turns.map (·.read.chunk))).map (· = []))

/-- **The entries of a response** are the batches of what is written to the client. -/
theorem records_eq_batches : ∀ {turns : List Turn} {x x' : Exchange} {outs : List (Output × Shared)} {origins : List Origin},
    x.connection.lastCommand = some command → x.connection.kafkaProducerConfig.isSome →
    run (exchangeStep env) x turns = some (x', outs) →
    (∀ e ∈ transcript (exchangeStep env) x turns,
      receive env { e.before with connection := e.before.connection.sharing e.input.shared } e.input.read =
        .bytes (e.before.connection.sharing e.input.shared) e.input.read .server) →
    (∀ e ∈ runEvents env x origins turns, e.step.before.phase = .pendingResponse) →
    outs.flatMap (·.1.records) =
      (batches x.kafkaLogBuffer (logged (x.connection.partialBytes.getD []) turns outs)).1.map (replayLogEntry env command)
  | [], x, x', outs, _, _, _, hrun, _, _ => by cases hrun; rfl
  | turn :: turns, x, x', outs, origins, hcommand, hlogging, hrun, hlive, hpackets => by
    obtain ⟨x₁, ⟨output, shared⟩, outs, hstep, hrest, rfl⟩ := run_cons_some hrun
    rw [transcript_cons hstep] at hlive
    rw [runEvents, hstep] at hpackets
    obtain ⟨hcommand₁, hlogging₁, hheld₁, hlog⟩ := exchangeStep_logged hcommand hlogging
      (hlive _ (List.mem_cons_self ..)) (fun e he => hpackets e (List.mem_append_left _ he)) hstep
    have ih := records_eq_batches hcommand₁ hlogging₁ hrest (fun e he => hlive e (List.mem_cons_of_mem _ he))
      fun e he => hpackets e (List.mem_append_right _ he)
    rw [List.flatMap_cons, ih, hheld₁]
    simp only [logged, List.map_cons, Splitter.residuals, List.zip_cons_cons]
    split_ifs at hlog with hflush
    · obtain ⟨hbuffer, hrecords⟩ := Prod.mk.inj hlog
      rw [hbuffer, hrecords, hflush]
      rfl
    · obtain ⟨hbuffer, hrecords⟩ := Prod.mk.inj hlog
      rw [hbuffer, hrecords, decide_eq_false hflush]
      rfl

/-- The last turn of a whole response has a mark. -/
theorem logged_last {turns : List Turn} {x x' : Exchange} {outs : List (Output × Shared)}
    (hrun : run (exchangeStep env) x turns = some (x', outs)) (hturns : turns ≠ [])
    (hwhole : (frames.split (turns.flatMap (·.read.chunk))).2 = []) :
    ∃ ms last, logged [] turns outs = ms ++ [(last, true)] ∧
      ((∀ m ∈ ms, m.2 = false) ↔
        ∀ residual ∈ (frames.residuals [] (turns.map (·.read.chunk))).dropLast, residual ≠ []) ∧
      outs.flatMap (·.1.toClient) = ms.flatMap (·.1) ++ last := by
  have hlast := frames.residuals_getLast? (turns.map (·.read.chunk)) frames.next_nil (by simpa using hturns)
  rw [List.nil_append, ← List.flatMap_def, hwhole] at hlast
  obtain ⟨residuals, hresiduals⟩ := List.getLast?_eq_some_iff.1 hlast
  have hlen := run_length hrun
  have hlen' := frames.residuals_length [] (turns.map (·.read.chunk))
  rw [hresiduals, List.length_append, List.length_map, ← hlen] at hlen'
  obtain rfl | ⟨outs, out, rfl⟩ := List.eq_nil_or_concat outs
  · simp at hlen'
  · have hlen : (outs.map (·.1.toClient)).length = (residuals.map fun r => decide (r = [])).length := by
      simpa using hlen'.symm
    have hfst := List.map_fst_zip (le_of_eq hlen)
    have hsnd := List.map_snd_zip (le_of_eq hlen.symm)
    refine ⟨(outs.map (·.1.toClient)).zip (residuals.map fun r => decide (r = [])), out.1.toClient, ?_, ?_, ?_⟩
    · rw [logged, hresiduals, List.concat_eq_append, List.map_append, List.map_append, List.zip_append hlen]
      rfl
    · rw [hresiduals, List.dropLast_concat]
      constructor
      · intro hms r hr hnil
        have hmem : true ∈ (residuals.map fun r => decide (r = [])) := List.mem_map.2 ⟨r, hr, by simp [hnil]⟩
        rw [← hsnd] at hmem
        obtain ⟨m, hm, htrue⟩ := List.mem_map.1 hmem
        simp [hms m hm] at htrue
      · intro hrs m hm
        have hmem : m.2 ∈ (residuals.map fun r => decide (r = [])) := hsnd ▸ List.mem_map_of_mem hm
        obtain ⟨r, hr, hr'⟩ := List.mem_map.1 hmem
        rw [← hr']
        exact decide_eq_false (hrs r hr)
    · rw [List.concat_eq_append, List.flatMap_append, List.flatMap_singleton, List.flatMap_def, List.flatMap_def, hfst]

/-- There is one entry for the command, it decodes to all that was written to the client, and whoever
consumes the topic keeps it as the command's response. -/
def LoggedOnce (env : Env) (command : Command) (outs : List (Output × Shared)) : Prop :=
  ∃ entry, outs.flatMap (·.1.records) = [entry] ∧ entry.lastCommand = command.arg ∧
    env.base64Decode entry.output = some (outs.flatMap (·.1.toClient)) ∧
    ∀ map, ((outs.flatMap (·.1.records)).foldl keepReplayLogEntry map).get command.arg = some entry.output

/-- **When a response is logged as one**: a whole response is logged in one entry exactly if no read of it
but the last leaves nothing for the next. -/
theorem logged_iff (hbase64 : ∀ bytes, env.base64Decode (env.base64Encode bytes) = some bytes) {x x' : Exchange}
    (hx : AwaitsResponse x command) {turns : List Turn} {outs : List (Output × Shared)}
    (h : ReadsResponse env x turns x' outs) :
    LoggedOnce env command outs ↔
      ∀ residual ∈ (frames.residuals [] (turns.map (·.read.chunk))).dropLast, residual ≠ [] := by
  have hrecords := records_eq_batches hx.command hx.logging h.ran h.live h.packets
  rw [hx.nothing.1, hx.nothing.2, Option.getD_none] at hrecords
  have hturns : turns ≠ [] := by
    rintro rfl
    cases h.ran
    have := hx.phase.symm.trans h.complete
    cases this
  -- the last turn has a mark, `ms` are the others
  obtain ⟨ms, last, hlogged, hmarks, hall⟩ := logged_last h.ran hturns h.whole
  rw [← hmarks, ← batches_eq_singleton, List.nil_append, ← hall, ← hlogged]
  constructor
  · rintro ⟨entry, hentry, -, hdecode, -⟩
    rw [hrecords] at hentry
    obtain ⟨batch, hbatch, rfl⟩ := List.map_eq_singleton_iff.1 hentry
    rw [replayLogEntry, hbase64] at hdecode
    rw [hbatch, Option.some.inj hdecode]
  · intro hone
    rw [hone] at hrecords
    refine ⟨_, hrecords, rfl, hbase64 _, fun map => ?_⟩
    rw [hrecords]
    exact TtlCache.get_insert_self map command.arg _

end

/-! ## With and without the condition -/

theorem sampleEnv_base64 (bytes : Bytes) : sampleEnv.base64Decode (sampleEnv.base64Encode bytes) = some bytes := by
  have hchar : ∀ b : UInt8, UInt8.ofNat (Char.ofNat b.toNat).toNat = b := by
    intro b
    have hb := b.toNat_lt
    have hvalid : b.toNat.isValidChar := .inl (by omega)
    rw [Char.ofNat, dif_pos hvalid]
    exact UInt8.ofNat_toNat
  simp [sampleEnv, latin1, Function.comp_def, hchar]

/-- The server loop, waiting for the response to a SELECT, with logging on. -/
def sampleLogging : Exchange where
  connection := { sampleAwaiting 0x01000200 with kafkaProducerConfig := some "log" }
  listening := .server
  kafkaLogBuffer := []

theorem sampleLogging_awaits : AwaitsResponse sampleLogging ⟨.comQuery, "select x from t", none⟩ :=
  ⟨rfl, rfl, rfl, rfl, rfl⟩

theorem split_frames {fs : List Frame} (h : ∀ f ∈ fs, f.2.length = f.1.size ∧ f.1.size < 256 ^ 3) :
    frames.split (fs.flatMap Frame.toBytes) = (fs, []) := by
  have hsplit := frames.split_render Frame.toBytes [] fs fun f hf rest => nextFrame_toBytes (h f hf).1 (h f hf).2 rest
  rwa [List.append_nil, frames.split_nil, List.append_nil] at hsplit

/-- A response in two reads, by computation. -/
theorem readsResponse_two {env : Env} {x x' : Exchange} {t₁ t₂ : Turn} {outs : List (Output × Shared)} {fs : List Frame}
    (hrun : run (exchangeStep env) x [t₁, t₂] = some (x', outs)) (hphase : x'.connection.phase = .command)
    (hlive : ∃ e₁ e₂, transcript (exchangeStep env) x [t₁, t₂] = [e₁, e₂] ∧
      receive env { e₁.before with connection := e₁.before.connection.sharing e₁.input.shared } e₁.input.read =
        .bytes (e₁.before.connection.sharing e₁.input.shared) e₁.input.read .server ∧
      receive env { e₂.before with connection := e₂.before.connection.sharing e₂.input.shared } e₂.input.read =
        .bytes (e₂.before.connection.sharing e₂.input.shared) e₂.input.read .server)
    (hbytes : t₁.read.chunk ++ (t₂.read.chunk ++ []) = fs.flatMap Frame.toBytes)
    (hfs : ∀ f ∈ fs, f.2.length = f.1.size ∧ f.1.size < 256 ^ 3)
    (hpackets : (runEvents env x [] [t₁, t₂]).all (·.step.before.phase == .pendingResponse)) :
    ReadsResponse env x [t₁, t₂] x' outs := by
  obtain ⟨e₁, e₂, htranscript, h₁, h₂⟩ := hlive
  refine ⟨hrun, ?_, ?_, by simpa using hpackets, hphase⟩
  · rw [htranscript]
    simpa using ⟨h₁, h₂⟩
  · rw [List.flatMap_cons, List.flatMap_cons, List.flatMap_nil, hbytes, split_frames hfs]

/-- An OK packet cut inside its body. -/
theorem logged_iff_ok : ∃ x' outs, run (exchangeStep sampleEnv) sampleLogging
      [sampleTurn [7, 0, 0, 2, 0x00], sampleTurn [0, 0, 2, 0, 0, 0]] = some (x', outs) ∧
    LoggedOnce sampleEnv ⟨.comQuery, "select x from t", none⟩ outs := by
  have hrun : ∃ x' outs, run (exchangeStep sampleEnv) sampleLogging
      [sampleTurn [7, 0, 0, 2, 0x00], sampleTurn [0, 0, 2, 0, 0, 0]] = some (x', outs) ∧
      x'.connection.phase = .command := ⟨_, _, rfl, rfl⟩
  obtain ⟨x', outs, hrun, hphase⟩ := hrun
  have hreads : ReadsResponse sampleEnv sampleLogging _ x' outs := @readsResponse_two _ _ _ _ _ _
    [({ size := 7, seq := 2 }, [0x00, 0, 0, 2, 0, 0, 0])] hrun hphase ⟨_, _, rfl, rfl, rfl⟩ rfl (by simp) rfl
  refine ⟨x', outs, hrun, (logged_iff sampleEnv_base64 sampleLogging_awaits hreads).2 ?_⟩
  have hcut : frames.next [7, 0, 0, 2, 0x00] = none := rfl
  simp [Splitter.residuals, sampleTurn, SocketRead.chunk, SocketRead.whole, frames.split_of_none hcut]

/-- A result set of one column and no rows, cut behind its first packet: two entries, and the one that is
kept is not the response. -/
theorem cut_between_packets : ∃ turns x' outs, AwaitsResponse sampleLogging ⟨.comQuery, "select x from t", none⟩ ∧
    ReadsResponse sampleEnv sampleLogging turns x' outs ∧
    ¬ LoggedOnce sampleEnv ⟨.comQuery, "select x from t", none⟩ outs ∧
    (((outs.flatMap (·.1.records)).foldl keepReplayLogEntry .new).get "select x from t").bind sampleEnv.base64Decode ≠
      some (outs.flatMap (·.1.toClient)) := by
  have hrun : ∃ x' outs, run (exchangeStep sampleEnv) sampleLogging [sampleTurn [1, 0, 0, 1, 1],
      sampleTurn ((samplePacket 2 sampleColumn.encode .other).toBytes ++ [7, 0, 0, 3, 0xfe, 0, 0, 2, 0, 0, 0])] =
        some (x', outs) ∧ x'.connection.phase = .command ∧ (outs.flatMap (·.1.records)).length = 2 ∧
      (((outs.flatMap (·.1.records)).foldl keepReplayLogEntry .new).get "select x from t").bind sampleEnv.base64Decode ≠
        some (outs.flatMap (·.1.toClient)) := ⟨_, _, rfl, rfl, rfl, by decide⟩
  obtain ⟨x', outs, hrun, hphase, htwo, hkept⟩ := hrun
  refine ⟨_, x', outs, sampleLogging_awaits, @readsResponse_two _ _ _ _ _ _
    [({ size := 1, seq := 1 }, [1]), ({ size := sampleColumn.encode.length, seq := 2 }, sampleColumn.encode),
      ({ size := 7, seq := 3 }, [0xfe, 0, 0, 2, 0, 0, 0])] hrun hphase ⟨_, _, rfl, rfl, rfl⟩ rfl ?_ rfl, ?_, hkept⟩
  · simp only [List.mem_cons, List.not_mem_nil, or_false]
    rintro f (rfl | rfl | rfl) <;> decide
  · rintro ⟨entry, hone, -⟩
    rw [hone] at htwo
    cases htwo

end MocksySql
