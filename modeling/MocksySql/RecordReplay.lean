import MocksySql.ChunkedReplay
import MocksySql.KafkaLog
import MocksySql.Session
/-!
# Recording a response and replaying it

What one process logs of a response is what another process answers the same command with: to the topic, and from it,
goes the response byte for byte.

| here | there |
| --- | --- |
| `ReplayTurn` | a round of the server loop that finds an entry (`connection_handler.rs:96`, `:249-286`) |

* `response_recorded`, `recorded_bytes` — the recording side.
* `exchangeStep_replays`, `response_recalled` — the replaying side.
* `record_replay` — both, over the topic.
-/

namespace MocksySql
open FieldDecode PartialRun ByteStream Batching

/-! ## Recording -/

section
variable {env : Env} {command : Command}

/-- The frames of a turn, beside the bytes held. -/
theorem processIncomingFrame_held {c c' : Connection} {r : SocketRead} {packets : List Packet}
    (h : processIncomingFrame env r.buf c r.readBytes = some (c', packets)) :
    c'.partialBytes.getD [] = (frames.split (c.partialBytes.getD [] ++ r.chunk)).2 := by
  obtain ⟨c₀, ps, outs, hmake, hrun, -⟩ := processIncomingFrame_some h
  obtain ⟨rfl, -⟩ := makePackets_some hmake
  have hsame : c'.partialBytes = (c.withResidual (frames.split (c.partialBytes.getD [] ++ r.chunk)).2).partialBytes :=
    run_invariant (I := fun s => s.partialBytes = (c.withResidual _).partialBytes)
      (fun s p _ s' o hs hp => (consumePacket_frame hp).1.trans hs) rfl hrun
  rw [hsame, Connection.withResidual_partialBytes]

theorem exchangeStep_live_quiet {x x' : Exchange} {turn : Turn} {o : Output × Shared}
    (hlive : receive env { x with connection := x.connection.sharing turn.shared } turn.read =
      .bytes (x.connection.sharing turn.shared) turn.read .server)
    (hdiff : turn.shared.diff = ∅) (hskip : x.connection.queryResponse.skippedPackets = 0)
    (hstep : exchangeStep env x turn = some (x', o)) :
    o.1.toClient ++ x'.connection.partialBytes.getD [] = x.connection.partialBytes.getD [] ++ turn.read.chunk ∧
      x'.connection.partialBytes.getD [] = (frames.split (x.connection.partialBytes.getD [] ++ turn.read.chunk)).2 ∧
      x'.connection.queryResponse.skippedPackets = 0 := by
  obtain ⟨output, shared⟩ := o
  cases exchangeStep_turned hstep with
  | waiting hwait =>
    rw [hlive] at hwait
    cases hwait
  | server _ hreceive hframe _ =>
    rw [hlive] at hreceive
    cases hreceive
    have hquiet : Quiet (x.connection.sharing turn.shared) := ⟨hdiff, hskip⟩
    obtain ⟨hbytes, hquiet'⟩ := processIncomingFrame_quiet hquiet hframe
    have hheld := @processIncomingFrame_held env (x.connection.sharing turn.shared) _ turn.read _ hframe
    exact ⟨hbytes, hheld, hquiet'.skipped⟩
  | answered hlisten _ _ _ _ | unanswered hlisten _ _ _ _ =>
    obtain ⟨-, -, horigin⟩ := receive_client hlive hlisten
    cases horigin

/-- With nothing to rewrite, what is written is what is read, but for the bytes held. -/
theorem run_live_quiet : ∀ {turns : List Turn} {x x' : Exchange} {outs : List (Output × Shared)},
    run (exchangeStep env) x turns = some (x', outs) →
    (∀ e ∈ transcript (exchangeStep env) x turns,
      receive env { e.before with connection := e.before.connection.sharing e.input.shared } e.input.read =
        .bytes (e.before.connection.sharing e.input.shared) e.input.read .server) →
    (∀ turn ∈ turns, turn.shared.diff = ∅) → x.connection.queryResponse.skippedPackets = 0 →
    frames.next (x.connection.partialBytes.getD []) = none →
    outs.flatMap (·.1.toClient) ++ x'.connection.partialBytes.getD [] =
        x.connection.partialBytes.getD [] ++ turns.flatMap (·.read.chunk) ∧
      x'.connection.partialBytes.getD [] =
        (frames.split (x.connection.partialBytes.getD [] ++ turns.flatMap (·.read.chunk))).2
  | [], x, _, _, hrun, _, _, _, hheld => by
    cases hrun
    simp [frames.split_of_none hheld]
  | turn :: turns, x, x', outs, hrun, hlive, hdiff, hskip, hheld => by
    obtain ⟨x₁, o, outs, hstep, hrest, rfl⟩ := run_cons_some hrun
    rw [transcript_cons hstep] at hlive
    obtain ⟨hbytes, hheld₁, hskip₁⟩ := exchangeStep_live_quiet (hlive _ (List.mem_cons_self ..))
      (hdiff _ (List.mem_cons_self ..)) hskip hstep
    obtain ⟨hwritten, hlast⟩ := run_live_quiet hrest (fun e he => hlive e (List.mem_cons_of_mem _ he))
      (fun t ht => hdiff t (List.mem_cons_of_mem _ ht)) hskip₁ (hheld₁ ▸ frames.next_residual _)
    constructor
    · rw [List.flatMap_cons, List.append_assoc, hwritten, ← List.append_assoc, hbytes, List.flatMap_cons, List.append_assoc]
    · rw [hlast, hheld₁, List.flatMap_cons, ← List.append_assoc, frames.split_append (_ ++ turn.read.chunk)]

/-- What is logged of a response no read of which ends with a packet but the last. -/
theorem response_recorded {x x' : Exchange} (hx : AwaitsResponse x command) {turns : List Turn}
    {outs : List (Output × Shared)} (h : ReadsResponse env x turns x' outs)
    (hcut : ∀ residual ∈ (frames.residuals [] (turns.map (·.read.chunk))).dropLast, residual ≠ []) :
    outs.flatMap (·.1.records) = [replayLogEntry env command (outs.flatMap (·.1.toClient))] := by
  have hrecords := records_eq_batches hx.command hx.logging h.ran h.live h.packets
  rw [hx.nothing.1, hx.nothing.2, Option.getD_none] at hrecords
  have hturns : turns ≠ [] := by
    rintro rfl
    cases h.ran
    have hphase := hx.phase.symm.trans h.complete
    cases hphase
  obtain ⟨ms, last, hlogged, hmarks, hall⟩ := logged_last h.ran hturns h.whole
  have hone := (@batches_eq_singleton _ [] last ms).2 (hmarks.2 hcut)
  rw [hrecords, hlogged, hone, List.nil_append, hall]
  rfl

/-- With nothing to rewrite that is the response. -/
theorem recorded_bytes {x x' : Exchange} (hx : AwaitsResponse x command) {turns : List Turn}
    {outs : List (Output × Shared)} (h : ReadsResponse env x turns x' outs)
    (hdiff : ∀ turn ∈ turns, turn.shared.diff = ∅) (hskip : x.connection.queryResponse.skippedPackets = 0) :
    outs.flatMap (·.1.toClient) = turns.flatMap (·.read.chunk) := by
  have hheld : x.connection.partialBytes.getD [] = [] := by rw [hx.nothing.1, Option.getD_none]
  obtain ⟨hwritten, hlast⟩ := run_live_quiet h.ran h.live hdiff hskip (by rw [hheld]; exact frames.next_nil)
  rw [hheld, List.nil_append] at hwritten hlast
  rwa [hlast, h.whole, List.append_nil] at hwritten

end

/-! ## Replaying -/

/-- The command is sent, and nothing of its response has come. -/
structure AwaitsReplay (y : Exchange) (command : Command) (clientFlag : UInt32) : Prop where
  listening : y.listening = .server
  phase : y.connection.phase = .pendingResponse
  command : y.connection.lastCommand = some command
  flags : y.connection.clientFlag = some clientFlag
  fresh : y.connection.queryResponse = .default
  nothing : y.connection.partialBytes = none ∧ y.connection.partialReplayBytes = none

/-- A round of the server loop with a buffer of `size` bytes: there is an entry for the command, and nothing to rewrite. -/
structure ReplayTurn (env : Env) (command : Command) (size : Nat) (turn : Turn) : Prop where
  buffer : turn.read.buf.length = size
  unrewritten : turn.shared.diff = ∅
  entry : ∃ map bytes, turn.shared.replay = some map ∧ (map.get command.arg).bind env.base64Decode = some bytes

/-- The connection without what it replays. -/
def Connection.detached (c : Connection) : Connection := { c with diff := ∅, replay := none, partialReplayBytes := none }

def Connection.replaying (c : Connection) (replay : ReplayLog) (rest : Option Bytes) : Connection :=
  { c with replay, partialReplayBytes := rest }

/-- The entry a round of the server loop finds for the command. -/
def Turn.found (env : Env) (command : Command) (turn : Turn) : Option Bytes := do
  let map ← turn.shared.replay
  env.base64Decode (← map.get command.arg)

/-- What a process shares that replays and has nothing to rewrite. -/
def Shared.Replays (shared : Shared) : Prop := shared.diff = ∅ ∧ shared.replay.isSome

/-- These rounds of the server loop, with a buffer of `size` bytes, find an entry as often as there are pieces of what is
left; the other ones wait for one. -/
structure Redelivers (env : Env) (command : Command) (size : Nat) (left : Bytes) (turns : List Turn) : Prop where
  rounds : ∀ turn ∈ turns, turn.read.buf.length = size ∧ turn.shared.Replays
  pieces : (turns.filterMap (Turn.found env command)).length = left.length ⌈/⌉ size
  last : ∀ turn ∈ turns.getLast?, (turn.found env command).isSome

/-- Behind what this peer says, the connection is `c'`, but for what it replays, with nothing held. -/
structure Through (side : Side) (y' : Exchange) (c' : Connection) : Prop where
  connection : y'.connection.detached = c'.detached.withResidual []
  delivered : y'.connection.partialReplayBytes = none
  unskipped : y'.connection.queryResponse.skippedPackets = 0
  listening : y'.listening = nextListening side c'.phase

section
variable {env : Env} {command : Command} {c c' : Connection}

theorem Connection.detached_withResidual (c : Connection) (residual : Bytes) :
    (c.withResidual residual).detached = c.detached.withResidual residual := by
  rw [withResidual_eq, withResidual_eq]
  rfl

theorem Through.of_withResidual {side : Side} {y' : Exchange} {residual : Bytes}
    (h : Through side y' (c'.withResidual residual)) : Through side y' c' where
  connection := by
    rw [h.connection, Connection.detached_withResidual, Connection.withResidual_withResidual]
  delivered := h.delivered
  unskipped := h.unskipped
  listening := by rw [h.listening, Connection.withResidual_phase]

/-! ### What is replayed does not matter to a packet -/

theorem accumulate_replaying (packet : Packet) (c : Connection) (replay : ReplayLog) (rest : Option Bytes) :
    accumulate env packet (c.replaying replay rest) = accumulate env packet c := by
  have hconsume : ∀ self : ResponseAccumulator,
      self.consume env packet (c.replaying replay rest) = self.consume env packet c :=
    fun self => ResponseAccumulator.consume_congr (fun _ _ => rfl) self packet
  rw [accumulate, accumulate, show (c.replaying replay rest).phase = c.phase from rfl,
    show (c.replaying replay rest).queryResponse = c.queryResponse from rfl, hconsume]
  rfl

theorem consumePacket_replaying {packet : Packet} {out : Option Packet} (replay : ReplayLog) (rest : Option Bytes)
    (h : consumePacket env c packet = some (c', out)) :
    consumePacket env (c.replaying replay rest) packet = some (c'.replaying replay rest, out) := by
  obtain ⟨⟨phase, packet', delta⟩, hacc, he⟩ := Option.map_eq_some_iff.1 h
  cases he
  rw [consumePacket, accumulate_replaying, hacc]
  rfl

theorem Consumes.replaying {fs : List Frame} (replay : ReplayLog) (rest : Option Bytes) (h : Consumes env c fs c') :
    Consumes env (c.replaying replay rest) fs (c'.replaying replay rest) := by
  induction h with
  | last hp hstep => exact .last hp (consumePacket_replaying replay rest hstep)
  | more hp hstep hphase _ ih => exact .more hp (consumePacket_replaying replay rest hstep) hphase ih

/-- Where no command is waited for, packets leave the last one alone. -/
theorem Consumes.lastCommand {fs : List Frame} (h : Consumes env c fs c') (hphase : c.phase ≠ .command) :
    c'.lastCommand = c.lastCommand := by
  induction h with
  | last _ hstep => exact consumePacket_lastCommand hphase hstep
  | more _ hstep hsame _ ih => exact (ih (by rwa [hsame])).trans (consumePacket_lastCommand hphase hstep)

/-! ### One piece -/

/-- A round that finds an entry writes the next piece of it to the client. -/
theorem exchangeStep_replays {y : Exchange} {turn : Turn} {size : Nat} {entry piece : Bytes} {packets : List Packet}
    (hlisten : y.listening = .server) (hkept : command.StaysBack) (hcommand : y.connection.lastCommand = some command)
    (hturn : ReplayTurn env command size turn) (hentry : cachedEntry env (y.connection.sharing turn.shared) = some entry)
    (hpiece : (y.connection.toTransmit entry).take size = piece) (hne : piece ≠ [])
    (hframe : processIncomingFrame env piece ((y.connection.sharing turn.shared).afterPiece entry size) piece.length =
      some (c', packets)) :
    ∃ y' records, exchangeStep env y turn = some (y', ⟨generateOutgoingFrame packets, [], records⟩, turn.shared) ∧
      y'.connection = c' ∧ y'.listening = nextListening .server c'.phase := by
  have hoff : sendCommandToServer (y.connection.sharing turn.shared) = false := by
    obtain ⟨map, _, hreplay, -⟩ := hturn.entry
    exact (sendCommandToServer_iff (c := y.connection.sharing turn.shared) (Option.isSome_iff_exists.2 ⟨map, hreplay⟩)
      hcommand).2 hkept
  have hreceive := @receive_entry env { y with connection := y.connection.sharing turn.shared } turn.read entry hlisten
    hoff hentry
  rw [hturn.buffer, show (y.connection.sharing turn.shared).toTransmit entry = y.connection.toTransmit entry from rfl,
    hpiece, if_neg hne] at hreceive
  have hstep : exchangeStep env y turn =
      (serverTurn env { y with connection := (y.connection.sharing turn.shared).afterPiece entry size } (.whole piece)).map
        fun r => (r.1, r.2, turn.shared) := by
    unfold exchangeStep
    simp only [hreceive]
    simp only [hlisten]
  rw [serverTurn_of_frame (by exact hframe), Option.map_some] at hstep
  exact ⟨_, _, hstep, rfl, rfl⟩

/-- A connection with nothing to rewrite, without what it replays. -/
theorem detached_of {c : Connection} (hdiff : c.diff = ∅) : c.detached = c.replaying none none := by
  rw [Connection.detached, ← hdiff]
  rfl

/-! ### A response -/

/-- Between two pieces: `left` of the entry is left, and with the bytes held it is the frames that are left. -/
structure Replaying (env : Env) (command : Command) (y : Exchange) (left : Bytes) (fs : List Frame) (c' : Connection) :
    Prop where
  listening : y.listening = .server
  phase : y.connection.phase = .pendingResponse
  command : y.connection.lastCommand = some command
  unskipped : y.connection.queryResponse.skippedPackets = 0
  consumes : Consumes env y.connection.detached fs c'
  wellFormed : ∀ f ∈ fs, f.WellFormed
  inOrder : InOrder (fs.map (·.1))
  stream : y.connection.partialBytes.getD [] ++ left = fs.flatMap Frame.toBytes

section
variable {y : Exchange} {turn : Turn} {size : Nat} {left entry : Bytes} {fs : List Frame}

theorem cachedEntry_found (hcommand : y.connection.lastCommand = some command) :
    cachedEntry env (y.connection.sharing turn.shared) = turn.found env command := by
  rw [cachedEntry, Connection.sharing, hcommand]
  rfl

theorem ReplayTurn.of_found (hbuffer : turn.read.buf.length = size) (hreplays : turn.shared.Replays)
    (hfound : turn.found env command = some entry) : ReplayTurn env command size turn where
  buffer := hbuffer
  unrewritten := hreplays.1
  entry := by
    obtain ⟨map, hreplay, hbytes⟩ := Option.bind_eq_some_iff.1 hfound
    exact ⟨map, entry, hreplay, hbytes⟩

theorem ReplayTurn.found (h : ReplayTurn env command size turn) : (turn.found env command).isSome := by
  obtain ⟨map, bytes, hreplay, hentry⟩ := h.entry
  exact Option.isSome_of_eq_some (Option.bind_eq_some_iff.2 ⟨map, hreplay, hentry⟩)

/-- What a piece is consumed by. -/
theorem Replaying.attached (h : Replaying env command y left fs c') (hturn : ReplayTurn env command size turn)
    (hleft : y.connection.toTransmit entry = left) :
    ∃ rest, rest = (if left.drop size = [] then none else some (left.drop size)) ∧
      (y.connection.sharing turn.shared).afterPiece entry size = y.connection.detached.replaying turn.shared.replay rest ∧
      Consumes env ((y.connection.sharing turn.shared).afterPiece entry size) fs (c'.replaying turn.shared.replay rest) ∧
      Quiet ((y.connection.sharing turn.shared).afterPiece entry size) := by
  have hafter : (y.connection.sharing turn.shared).afterPiece entry size = y.connection.detached.replaying turn.shared.replay
      (if left.drop size = [] then none else some (left.drop size)) := by
    rw [← hleft, Connection.afterPiece, Connection.sharing, hturn.unrewritten]
    rfl
  refine ⟨_, rfl, hafter, ?_, hturn.unrewritten, h.unskipped⟩
  rw [hafter]
  exact h.consumes.replaying _ _

/-- The last piece. -/
theorem Replaying.last (h : Replaying env command y left fs c') (hkept : command.StaysBack)
    (hturn : ReplayTurn env command size turn) (hentry : cachedEntry env (y.connection.sharing turn.shared) = some entry)
    (hleft : y.connection.toTransmit entry = left) (hne : left ≠ []) (hlast : left.length ≤ size) :
    ∃ y' o, exchangeStep env y turn = some (y', o) ∧ o.1.toServer = [] ∧
      o.1.toClient = y.connection.partialBytes.getD [] ++ left ∧ Through .server y' c' := by
  obtain ⟨rest, hrest, -, hconsumes, hquiet⟩ := h.attached hturn hleft
  rw [if_pos (List.drop_eq_nil_iff.2 hlast)] at hrest
  have hchunk := whole_chunk left
  obtain ⟨packets, hframe⟩ := @processIncomingFrame_all env _ _ (.whole left) _ h.wellFormed h.inOrder hconsumes
    (by rw [hchunk]; exact h.stream)
  obtain ⟨hbytes, hquiet'⟩ := processIncomingFrame_quiet hquiet hframe
  rw [Connection.withResidual_partialBytes, List.append_nil, hchunk] at hbytes
  obtain ⟨y', records, hstep, hconnection, hnext⟩ := exchangeStep_replays h.listening hkept h.command hturn hentry
    (by rw [hleft, List.take_of_length_le hlast]) hne hframe
  refine ⟨y', _, hstep, rfl, hbytes, ?_, ?_, ?_, ?_⟩
  · rw [hconnection, Connection.detached_withResidual]
    rfl
  · rw [hconnection, hrest, Connection.withResidual_eq]
    rfl
  · rw [hconnection]
    exact hquiet'.skipped
  · rw [hnext, Connection.withResidual_phase]
    rfl

/-- Another piece. -/
theorem Replaying.more (h : Replaying env command y left fs c') (hkept : command.StaysBack)
    (hturn : ReplayTurn env command size turn) (hentry : cachedEntry env (y.connection.sharing turn.shared) = some entry)
    (hleft : y.connection.toTransmit entry = left) (hsize : 0 < size) (hmore : size < left.length) :
    ∃ y₁ o fs' c₁, exchangeStep env y turn = some (y₁, o) ∧ o.1.toServer = [] ∧
      o.1.toClient ++ y₁.connection.partialBytes.getD [] = y.connection.partialBytes.getD [] ++ left.take size ∧
      y₁.connection.partialReplayBytes = some (left.drop size) ∧ (∀ y', Through .server y' c₁ → Through .server y' c') ∧
      Replaying env command y₁ (left.drop size) fs' c₁ := by
  have hdrop : left.drop size ≠ [] := by
    rw [ne_eq, List.drop_eq_nil_iff]
    omega
  have hpiece : left.take size ≠ [] := by
    rw [ne_eq, List.take_eq_nil_iff, not_or]
    exact ⟨hsize.ne', fun hnil => hdrop (by rw [hnil, List.drop_nil])⟩
  obtain ⟨rest, hrest, hafter, hconsumes, hquiet⟩ := h.attached hturn hleft
  rw [if_neg hdrop] at hrest
  have hchunk := whole_chunk (left.take size)
  obtain ⟨c₁, packets, residual, fs', hframe, hphase₁, hfs', horder', hconsumes₁, hstream₁⟩ :=
    @processIncomingFrame_some_of env _ _ (.whole (left.take size)) _ (left.drop size) h.wellFormed h.inOrder hconsumes
      (by rw [hchunk, List.append_assoc, List.take_append_drop]; exact h.stream) hdrop
  obtain ⟨hbytes, hquiet₁⟩ := processIncomingFrame_quiet hquiet hframe
  rw [hchunk] at hbytes
  obtain ⟨y₁, records, hstep, rfl, hnext⟩ := exchangeStep_replays h.listening hkept h.command hturn hentry
    (by rw [hleft]) hpiece hframe
  have hpending : y₁.connection.phase = .pendingResponse := hphase₁.trans h.phase
  have hcommand₁ : y₁.connection.lastCommand = some command := by
    rw [← h.command, ← hconsumes₁.lastCommand (by simp [hpending]), Connection.withResidual_eq]
    exact h.consumes.lastCommand (by simp [Connection.detached, h.phase])
  refine ⟨y₁, _, fs', _, hstep, rfl, hbytes, ?_, fun y' hy' => ?_, ?_, hpending, hcommand₁, hquiet₁.skipped,
    detached_of hquiet₁.diff ▸ hconsumes₁.replaying none none, hfs', horder', hstream₁⟩
  · rw [(processIncomingFrame_replay hframe).2, hafter, ← hrest]
    rfl
  · have hthrough : Through .server y' ((c'.replaying turn.shared.replay rest).withResidual residual) :=
      ⟨hy'.connection, hy'.delivered, hy'.unskipped, hy'.listening⟩
    have hattached := hthrough.of_withResidual
    exact ⟨hattached.connection, hattached.delivered, hattached.unskipped, hattached.listening⟩
  · rw [hnext, hpending]
    rfl

/-- Without an entry nothing happens. -/
theorem Replaying.waits (h : Replaying env command y left fs c') (hkept : command.StaysBack) (hreplays : turn.shared.Replays)
    (hnone : turn.found env command = none) :
    ∃ o, exchangeStep env y turn = some ({ y with connection := y.connection.sharing turn.shared }, o) ∧
      o.1.toServer = [] ∧ o.1.toClient = [] ∧
      Replaying env command { y with connection := y.connection.sharing turn.shared } left fs c' := by
  have hoff := (sendCommandToServer_iff (c := y.connection.sharing turn.shared) hreplays.2 h.command).2 hkept
  have hcache := @getResponseFromCache_kept env _ hoff turn.read.buf.length
  rw [cachedEntry_found h.command, hnone] at hcache
  have hreceive : receive env { y with connection := y.connection.sharing turn.shared } turn.read = .waiting := by
    unfold receive
    simp only [h.listening, hcache]
  have hstep : exchangeStep env y turn =
      some ({ y with connection := y.connection.sharing turn.shared }, ⟨[], [], []⟩, turn.shared) := by
    unfold exchangeStep
    simp only [hreceive]
  exact ⟨_, hstep, rfl, rfl, h.listening, h.phase, h.command, h.unskipped, h.consumes, h.wellFormed, h.inOrder, h.stream⟩

/-! ### Its rounds -/

theorem ceilDiv_pos (hsize : 0 < size) (hne : left ≠ []) : 0 < left.length ⌈/⌉ size := by
  rw [Nat.pos_iff_ne_zero, ne_eq, ← Nat.le_zero, ceilDiv_le_iff_le_mul hsize, Nat.mul_zero, Nat.le_zero, List.length_eq_zero_iff]
  exact hne

namespace Redelivers
variable {turns : List Turn}

/-- Every round finds one. -/
theorem of_all (hturns : ∀ turn ∈ turns, ReplayTurn env command size turn) (hlength : turns.length = left.length ⌈/⌉ size) :
    Redelivers env command size left turns where
  rounds turn hturn := by
    obtain ⟨hbuffer, hdiff, map, _, hreplay, -⟩ := hturns turn hturn
    exact ⟨hbuffer, hdiff, Option.isSome_of_eq_some hreplay⟩
  pieces := by rw [← hlength, List.filterMap_length_eq_length.2 fun turn hturn => (hturns turn hturn).found]
  last turn hturn := (hturns turn (List.mem_of_getLast? hturn)).found

theorem waited (h : Redelivers env command size left (turn :: turns)) (hnone : turn.found env command = none) :
    Redelivers env command size left turns := by
  obtain ⟨hturns, hpieces, hlast⟩ := h
  rw [List.filterMap_cons_none hnone] at hpieces
  refine ⟨(List.forall_mem_cons.1 hturns).2, hpieces, fun last hlast' => hlast last ?_⟩
  have hmany : turns ≠ [] := by
    rintro rfl
    cases hlast'
  rwa [List.getLast?_cons_of_ne_nil hmany]

theorem piece (hsize : 0 < size) (h : Redelivers env command size left (turn :: turns)) (hsome : turn.found env command = some entry)
    (hmore : size < left.length) : Redelivers env command size (left.drop size) turns := by
  obtain ⟨hturns, hpieces, hlast⟩ := h
  rw [List.filterMap_cons_some hsome, List.length_cons, ceilDiv_of_lt hsize hmore, Nat.add_right_cancel_iff,
    ← List.length_drop] at hpieces
  refine ⟨(List.forall_mem_cons.1 hturns).2, hpieces, fun last hlast' => hlast last ?_⟩
  have hmany : turns ≠ [] := by
    rintro rfl
    cases hlast'
  rwa [List.getLast?_cons_of_ne_nil hmany]

theorem only (h : Redelivers env command size left (turn :: turns)) (hsome : turn.found env command = some entry)
    (hne : left ≠ []) (hall : left.length ≤ size) : turns = [] := by
  obtain ⟨-, hpieces, hlast⟩ := h
  rw [List.filterMap_cons_some hsome, ceilDiv_of_le (List.length_pos_of_ne_nil hne) hall, List.length_cons, Nat.add_eq_right,
    List.length_eq_zero_iff] at hpieces
  by_contra hmany
  obtain ⟨last, hlast'⟩ := Option.isSome_iff_exists.1 (List.getLast?_isSome.2 hmany)
  obtain ⟨bytes, hbytes⟩ := Option.isSome_iff_exists.1 (hlast last (by rwa [List.getLast?_cons_of_ne_nil hmany]))
  have hmem : bytes ∈ turns.filterMap (Turn.found env command) :=
    List.mem_filterMap.2 ⟨last, List.mem_of_getLast? hlast', hbytes⟩
  rw [hpieces] at hmem
  cases hmem

end Redelivers

/-- **A response is recalled**, whatever the peers send meanwhile. -/
theorem response_recalled (hsize : 0 < size) (hkept : command.StaysBack) :
    ∀ {turns : List Turn} {y : Exchange} {fs : List Frame} {c' : Connection} {left : Bytes},
    Replaying env command y left fs c' → left ≠ [] → Redelivers env command size left turns →
    (∀ entry ∈ (turns.filterMap (Turn.found env command)).head?, y.connection.toTransmit entry = left) →
    ∃ y' outs, run (exchangeStep env) y turns = some (y', outs) ∧
      outs.flatMap (·.1.toClient) = y.connection.partialBytes.getD [] ++ left ∧ (∀ o ∈ outs, o.1.toServer = []) ∧
      Through .server y' c'
  | [], y, fs, c', left, _, hne, hturns, _ => by
    have hpos := ceilDiv_pos hsize hne
    rw [← hturns.pieces] at hpos
    cases hpos
  | turn :: turns, y, fs, c', left, h, hne, hturns, hfirst => by
    obtain ⟨hbuffer, hreplays⟩ := hturns.rounds turn (List.mem_cons_self ..)
    cases hfound : turn.found env command with
    | none =>
      obtain ⟨o, hstep, hserver, hclient, h₁⟩ := h.waits hkept hreplays hfound
      rw [List.filterMap_cons_none hfound] at hfirst
      obtain ⟨y', outs, hrun, hwritten, hservers, hthrough⟩ :=
        response_recalled hsize hkept h₁ hne (hturns.waited hfound) hfirst
      refine ⟨y', o :: outs, by rw [run_cons hstep, hrun]; rfl, ?_, List.forall_mem_cons.2 ⟨hserver, hservers⟩, hthrough⟩
      rw [List.flatMap_cons, hclient, hwritten]
      rfl
    | some entry =>
      have hturn := ReplayTurn.of_found hbuffer hreplays hfound
      have hentry := (cachedEntry_found h.command).trans hfound
      rw [List.filterMap_cons_some hfound] at hfirst
      have hleft := hfirst entry rfl
      by_cases hmore : size < left.length
      · obtain ⟨y₁, o, fs', c₁, hstep, hserver, hbytes, hheld, hback, h₁⟩ := h.more hkept hturn hentry hleft hsize hmore
        have hdrop : left.drop size ≠ [] := by
          rw [ne_eq, List.drop_eq_nil_iff]
          omega
        -- whatever entry the next round finds, it goes on with what is left
        have hnext : ∀ entry, y₁.connection.toTransmit entry = left.drop size := fun _ => by
          rw [Connection.toTransmit, hheld]
          rfl
        obtain ⟨y', outs, hrun, hwritten, hservers, hthrough⟩ :=
          response_recalled hsize hkept h₁ hdrop (hturns.piece hsize hfound hmore) fun entry _ => hnext entry
        refine ⟨y', o :: outs, by rw [run_cons hstep, hrun]; rfl, ?_, List.forall_mem_cons.2 ⟨hserver, hservers⟩,
          hback y' hthrough⟩
        rw [List.flatMap_cons, hwritten, ← List.append_assoc, hbytes, List.append_assoc, List.take_append_drop]
      · obtain rfl := hturns.only hfound hne (by omega)
        obtain ⟨y', o, hstep, hserver, hbytes, hthrough⟩ := h.last hkept hturn hentry hleft hne (by omega)
        exact ⟨y', [o], by rw [run_singleton, hstep]; rfl, by simpa using hbytes, by simpa using hserver, hthrough⟩

end

end

/-! ## Both -/

/-- A query's response, as the server sends it. -/
structure QueryResponse (clientFlag : UInt32) (ps : List Packet) : Prop where
  responds : RespondsWith clientFlag .comQuery ps
  protocol41 : hasFlag clientFlag .clientProtocol41
  packets : ∀ p ∈ ps, p.Responds
  inOrder : InOrder (ps.map (·.header))

def responseBytes (ps : List Packet) : Bytes := (ps.map Packet.frame).flatMap Frame.toBytes

/-- A response is read and logged, with nothing to rewrite; no read of it but the last ends with a packet. -/
structure RecordsResponse (env : Env) (command : Command) (ps : List Packet) (x : Exchange) (turns : List Turn)
    (x' : Exchange) (outs : List (Output × Shared)) : Prop where
  awaits : AwaitsResponse x command
  reads : ReadsResponse env x turns x' outs
  stream : turns.flatMap (·.read.chunk) = responseBytes ps
  unrewritten : (∀ turn ∈ turns, turn.shared.diff = ∅) ∧ x.connection.queryResponse.skippedPackets = 0
  cut : ∀ residual ∈ (frames.residuals [] (turns.map (·.read.chunk))).dropLast, residual ≠ []

section
variable {env : Env} {serde : Serde} {command : Command} {clientFlag : UInt32} {ps : List Packet}

/-- A response goes to the topic as one message, which whoever polls it keeps under the command. -/
theorem recorded_message {x x' : Exchange} {turns : List Turn} {outs : List (Output × Shared)}
    (hserde : ∀ entry ∈ outs.flatMap (·.1.records), (serde.toString entry).bind serde.fromStr = some entry)
    (h : RecordsResponse env command ps x turns x' outs) :
    outs.flatMap (·.1.toClient) = responseBytes ps ∧ ∃ message, messages serde (outs.flatMap (·.1.records)) = [message] ∧
      ∀ kept map, readMessage serde kept message = some map →
        map.get command.arg = some (env.base64Encode (responseBytes ps)) := by
  have hbytes : outs.flatMap (·.1.toClient) = responseBytes ps :=
    (recorded_bytes h.awaits h.reads h.unrewritten.1 h.unrewritten.2).trans h.stream
  have hrecords := response_recorded h.awaits h.reads h.cut
  rw [hbytes] at hrecords
  obtain ⟨s, hs, hread⟩ := Option.bind_eq_some_iff.1 (hserde _ (hrecords ▸ List.mem_singleton_self _))
  refine ⟨hbytes, asBytes s, by simp [hrecords, messages, hs], fun kept map hmap => ?_⟩
  rw [readMessage, fromUtf8_asBytes, Option.map_some] at hmap
  simp only [hread] at hmap
  cases hmap
  exact TtlCache.get_insert_self kept command.arg _

/-- **Recording and replaying.** A query's response that is recorded whole is one message; a connection that has sent the
same query, under the same capability flags, to a process that has polled it, is answered with the response byte for byte
and waits for its next command. Nothing goes to the server. -/
theorem record_replay (hresponse : QueryResponse clientFlag ps) (hkept : command.StaysBack) {x x' : Exchange}
    {turns : List Turn} {outs : List (Output × Shared)} (hrecords : RecordsResponse env command ps x turns x' outs)
    (hbase64 : env.base64Decode (env.base64Encode (responseBytes ps)) = some (responseBytes ps))
    (hserde : ∀ entry ∈ outs.flatMap (·.1.records), (serde.toString entry).bind serde.fromStr = some entry) :
    ∃ message, messages serde (outs.flatMap (·.1.records)) = [message] ∧
      ∀ {kept map : TtlCache String String} {size : Nat} {y : Exchange} {turns' : List Turn},
        readMessage serde kept message = some map → 0 < size → AwaitsReplay y command clientFlag →
        (∀ turn ∈ turns', ReplayTurn env command size turn) →
        (∀ turn ∈ turns'.head?, ∀ map', turn.shared.replay = some map' → map'.get command.arg = map.get command.arg) →
        turns'.length = (responseBytes ps).length ⌈/⌉ size →
        ∃ y' outs', run (exchangeStep env) y turns' = some (y', outs') ∧
          outs'.flatMap (·.1.toClient) = outs.flatMap (·.1.toClient) ∧ (∀ o ∈ outs', o.1.toServer = []) ∧
          y'.connection.phase = .command ∧ y'.listening = .client ∧ y'.connection.partialReplayBytes = none := by
  obtain ⟨hbytes, message, hmessage, hread⟩ := recorded_message hserde hrecords
  refine ⟨message, hmessage, ?_⟩
  intro kept map size y turns' hmap hsize hy hturns hfirst hlength
  have hne : ps ≠ [] := fun hnil => by simpa using hresponse.responds.eq_nil_iff.1 hnil
  obtain ⟨c', hconsumes, hphase'⟩ := @response_consumed env y.connection.detached clientFlag command ps hy.phase hy.flags
    hresponse.protocol41 hy.command hy.fresh rfl (hkept.1 ▸ hresponse.responds) hne hresponse.packets
  have hbytes_ne : responseBytes ps ≠ [] := by
    obtain ⟨p, ps, rfl⟩ := List.exists_cons_of_ne_nil hne
    simp [responseBytes, Frame.toBytes, PacketHeader.toBytes]
  have hfs : ∀ f ∈ ps.map Packet.frame, f.WellFormed := by
    intro f hf
    obtain ⟨p, hp, rfl⟩ := List.mem_map.1 hf
    exact (hresponse.packets p hp).wellFormed
  have horder : InOrder ((ps.map Packet.frame).map (·.1)) := by
    rw [List.map_map]
    exact hresponse.inOrder
  have hredelivers := Redelivers.of_all hturns hlength
  -- what the first round finds is the message
  have hfound : ∀ entry ∈ (turns'.filterMap (Turn.found env command)).head?,
      y.connection.toTransmit entry = responseBytes ps := by
    intro entry hentry
    rw [Connection.toTransmit, hy.nothing.2, Option.getD_none]
    rcases turns' with _ | ⟨turn, turns'⟩
    · cases hentry
    obtain ⟨bytes, hbytes⟩ := Option.isSome_iff_exists.1 (hturns turn (List.mem_cons_self ..)).found
    rw [List.filterMap_cons_some hbytes] at hentry
    obtain rfl : bytes = entry := Option.some.inj hentry
    obtain ⟨map', hreplay, hdecoded⟩ := Option.bind_eq_some_iff.1 hbytes
    rw [hfirst turn rfl map' hreplay, hread kept map hmap] at hdecoded
    exact Option.some.inj (hdecoded.symm.trans hbase64)
  have hreplaying : Replaying env command y (responseBytes ps) (ps.map Packet.frame) c' :=
    ⟨hy.listening, hy.phase, hy.command, by rw [hy.fresh]; rfl, hconsumes, hfs, horder, by rw [hy.nothing.1]; rfl⟩
  obtain ⟨y', outs', hrun, hwritten, hserver, hthrough⟩ := response_recalled hsize hkept hreplaying hbytes_ne hredelivers hfound
  have hphase : y'.connection.phase = .command := by
    rw [← hphase']
    exact (congrArg (·.phase) hthrough.connection).trans (Connection.withResidual_phase ..)
  refine ⟨y', outs', hrun, ?_, hserver, hphase, by rw [hthrough.listening, hphase']; rfl, hthrough.delivered⟩
  rw [hwritten, hy.nothing.1, hbytes]
  rfl

end

/-! ## An OK packet -/

def recordedOk : Packet := samplePacket 1 [0x00, 0, 0, 2, 0, 0, 0] .ok

def recordedCommand : Command := ⟨.comQuery, "select x from t", none⟩

def recordedEntry : ReplayLogEntry := ⟨"select x from t", "BwAAAQAAAAIAAAA="⟩

def recordEnv : Env := { sampleEnv with
  base64Encode := fun bytes => if bytes = recordedOk.toBytes then recordedEntry.output else latin1 bytes
  base64Decode := fun s => if s = recordedEntry.output then some recordedOk.toBytes else none }

def recordedMessage : String := "\x7b\"last_command\":\"select x from t\",\"output\":\"BwAAAQAAAAIAAAA=\"\x7d"

def recordSerde : Serde where
  toString entry := if entry = recordedEntry then some recordedMessage else none
  fromStr s := if s = recordedMessage then some recordedEntry else none

theorem recordedOk_response : QueryResponse 0x01000200 [recordedOk] where
  responds := .ok (by decide) (show _ = okBody 0 0 2 0 [] from rfl)
  protocol41 := by decide
  packets := by
    simp only [List.forall_mem_singleton]
    exact samplePacket_responds rfl (by unfold Small; decide)
  inOrder := by decide

/-- Read in two reads, cut inside the packet. -/
theorem recordedOk_records : ∃ x' outs, RecordsResponse recordEnv recordedCommand [recordedOk] sampleLogging
    [sampleTurn [7, 0, 0, 1, 0x00], sampleTurn [0, 0, 2, 0, 0, 0]] x' outs ∧
    outs.flatMap (·.1.records) = [recordedEntry] := by
  have hrun : ∃ x' outs, run (exchangeStep recordEnv) sampleLogging
      [sampleTurn [7, 0, 0, 1, 0x00], sampleTurn [0, 0, 2, 0, 0, 0]] = some (x', outs) ∧
      x'.connection.phase = .command ∧ outs.flatMap (·.1.records) = [recordedEntry] := ⟨_, _, rfl, rfl, by decide⟩
  obtain ⟨x', outs, hrun, hphase, hrecords⟩ := hrun
  have hreads : ReadsResponse recordEnv sampleLogging _ x' outs := @readsResponse_two _ _ _ _ _ _
    [({ size := 7, seq := 1 }, [0x00, 0, 0, 2, 0, 0, 0])] hrun hphase ⟨_, _, rfl, rfl, rfl⟩ rfl (by simp) rfl
  refine ⟨x', outs, ⟨sampleLogging_awaits, hreads, rfl, ⟨by simp [sampleTurn], rfl⟩, ?_⟩, hrecords⟩
  have hcut : frames.next [7, 0, 0, 1, 0x00] = none := rfl
  simp [Splitter.residuals, sampleTurn, SocketRead.chunk, SocketRead.whole, frames.split_of_none hcut]

/-- A round with a buffer of four bytes, and nothing on the socket. -/
def recordedTurn : Turn :=
  ⟨⟨∅, some (keepReplayLogEntry .new recordedEntry), 0, 100⟩, ⟨List.replicate 4 0, 0, Nat.zero_le _⟩⟩

theorem recordedTurn_replays : ReplayTurn recordEnv recordedCommand 4 recordedTurn where
  buffer := List.length_replicate
  unrewritten := rfl
  entry := ⟨_, recordedOk.toBytes, rfl, by
    rw [show (keepReplayLogEntry .new recordedEntry).get recordedCommand.arg = some recordedEntry.output from
      TtlCache.get_insert_self .new recordedEntry.lastCommand _]
    simp [recordEnv]⟩

/-- The packet is delivered in three pieces. -/
theorem record_replay_three : ∃ y' outs',
    run (exchangeStep recordEnv) sampleLogging (List.replicate 3 recordedTurn) = some (y', outs') ∧
      outs'.flatMap (·.1.toClient) = responseBytes [recordedOk] ∧ (∀ o ∈ outs', o.1.toServer = []) ∧
      y'.connection.phase = .command := by
  obtain ⟨x', outs, hrecords, hentry⟩ := recordedOk_records
  have hserde : ∀ entry ∈ outs.flatMap (·.1.records), (recordSerde.toString entry).bind recordSerde.fromStr = some entry := by
    simp [hentry, recordSerde]
  have hbytes := (recorded_message hserde hrecords).1
  obtain ⟨message, hmessage, hreplay⟩ := record_replay recordedOk_response
    (show recordedCommand.StaysBack from ⟨rfl, fun _ h => nomatch h⟩) hrecords (by rfl) hserde
  have hmessage : [asBytes recordedMessage] = [message] := by simpa [hentry, messages, recordSerde] using hmessage
  obtain ⟨y', outs', hrun, hwritten, hserver, hphase, -, -⟩ := @hreplay .new (keepReplayLogEntry .new recordedEntry) 4
    sampleLogging (List.replicate 3 recordedTurn)
    (by rw [← List.singleton_inj.1 hmessage, readMessage, fromUtf8_asBytes]; simp [recordSerde]) (by decide)
    ⟨rfl, rfl, rfl, rfl, rfl, rfl, rfl⟩ (fun turn hturn => List.eq_of_mem_replicate hturn ▸ recordedTurn_replays)
    (by simp [recordedTurn]) (by decide)
  exact ⟨y', outs', hrun, hwritten.trans hbytes, hserver, hphase⟩

end MocksySql
