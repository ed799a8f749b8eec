import MocksySql.Dialogue
import MocksySql.RowRewriting
/-!
# What connections do to each other

The connections of a process share the diff log, the counters and the replay log. This is what of it a connection is
made of: nothing, but for the replay log.

| here | there |
| --- | --- |
| `Connection.own`, `Exchange.own` | the fields of `Connection` that no other thread writes (`connection.rs:14-34`), and the locals of `exchange` but for `kafka_log_buffer` |
| `isolatedStep`    | a turn of `exchange` as far as it depends on those |
| `turnPackets`     | the packets of a turn, one by one |

* `exchangeStep_isolated` — a turn does to what a connection has of its own what it would do were it alone.
* `process_isolates` — two processes in which a connection reads the same: the same state in every turn, the same packets
  but for rows and the numbers behind them, and the same bytes to the server.
-/

namespace MocksySql
open FieldDecode PartialRun ByteStream

/-! ## What is its own -/

/-- The connection, had no UPDATE been recorded, no row been dropped, and were no response logged. -/
def Connection.bare (c : Connection) : Connection := { c.unrewritten with kafkaProducerConfig := none }

def Connection.own (c : Connection) : Connection := { c.bare with replay := none }

def Exchange.own (x : Exchange) : Exchange :=
  { connection := x.connection.own, listening := x.listening, kafkaLogBuffer := [] }

/-- What a turn is given: the bytes, and the replay log as it is then. -/
def Turn.given (turn : Turn) : ReplayLog × SocketRead := (turn.shared.replay, turn.read)

/-- The test of `intercept_command`, without the recording. -/
def answersHere (env : Env) (c : Connection) : List Packet → Bool
  | [packet] => env.interceptWrites && c.phase == .pendingResponse && c.lastCommand.any (isWriteText env · packet)
  | _ => false

/-- What becomes of a connection that is alone once its packets are through, and what it writes to the server. -/
def isolatedFrame (env : Env) (listening : Side) (c : Connection) (packets : List Packet) : Exchange × Bytes :=
  if listening = .client ∧ answersHere env c packets then
    ({ connection := { c with phase := .command }.own, listening, kafkaLogBuffer := [] }, [])
  else
    ({ connection := c.own, listening := nextListening listening c.phase, kafkaLogBuffer := [] },
      if listening = .client ∧ sendCommandToServer c then generateOutgoingFrame packets else [])

def isolatedStep (env : Env) (x : Exchange) (given : ReplayLog × SocketRead) : Option (Exchange × Bytes) :=
  match receive env { x with connection := { x.connection with replay := given.1 } } given.2 with
  | .closed => none
  | .waiting => some (x.own, [])
  | .bytes connection r _ =>
    (processIncomingFrame env r.buf connection r.readBytes).map fun (connection, packets) =>
      isolatedFrame env x.listening connection packets

section
variable {env : Env} {c c' : Connection}

theorem sharing_bare (c : Connection) (shared : Shared) :
    (c.sharing shared).bare = { c.own with replay := shared.replay } := rfl

/-! ## Packets -/

theorem accumulate_bare (packet : Packet) (c : Connection) : accumulate env packet c.bare = accumulate env packet c.unrewritten := by
  have hconsume : ∀ self : ResponseAccumulator, self.consume env packet c.bare = self.consume env packet c.unrewritten :=
    fun self => ResponseAccumulator.consume_congr (fun _ _ => rfl) self packet
  rw [accumulate, accumulate, show c.bare.phase = c.unrewritten.phase from rfl,
    show c.bare.queryResponse = c.unrewritten.queryResponse from rfl, hconsume]
  rfl

/-- A packet does to a connection what it would do were it alone. -/
theorem consumePacket_bare {packet : Packet} {out : Option Packet} (h : consumePacket env c packet = some (c', out)) :
    consumePacket env c.bare packet = some (c'.bare, if packet.skip then none else some packet) := by
  obtain ⟨r, hr, he⟩ := Option.map_eq_some_iff.1 (consumePacket_unrewritten h).1
  rw [consumePacket, accumulate_bare, hr, Option.map_some]
  obtain ⟨hc, hout⟩ := Prod.mk.inj he
  refine congrArg some (Prod.ext ?_ hout)
  exact congrArg (fun d : Connection => { d with kafkaProducerConfig := none }) hc

theorem run_bare : ∀ {packets : List Packet} {c : Connection} {outs : List (Option Packet)},
    (∀ p ∈ packets, p.skip = false) → run (consumePacket env) c packets = some (c', outs) →
    run (consumePacket env) c.bare packets = some (c'.bare, packets.map some)
  | [], _, _, _, h => by cases h; rfl
  | packet :: packets, c, outs, hfresh, h => by
    obtain ⟨c₁, out, outs, hstep, hrest, rfl⟩ := run_cons_some h
    have hone := consumePacket_bare hstep
    rw [hfresh packet (List.mem_cons_self ..)] at hone
    rw [run_cons hone, run_bare (fun p hp => hfresh p (List.mem_cons_of_mem _ hp)) hrest]
    rfl

/-- The packets of a read are the same, and so is what they are to the connection. -/
theorem frame_bare {r : SocketRead} {c₀ : Connection} {packets : List Packet} {outs : List (Option Packet)}
    (hmake : makePackets r.buf c r.readBytes = some (c₀, packets))
    (hrun : run (consumePacket env) c₀ packets = some (c', outs)) :
    makePackets r.buf c.bare r.readBytes = some (c₀.bare, packets) ∧
      processIncomingFrame env r.buf c.bare r.readBytes = some (c'.bare, packets) := by
  have hmake' : makePackets r.buf c.bare r.readBytes = some (c₀.bare, packets) := by
    rw [makePackets_eq] at hmake ⊢
    obtain ⟨packets', hps, h⟩ := Option.bind_eq_some_iff.1 hmake
    rw [show c.bare.partialBytes = c.partialBytes from rfl, show c.bare.phase = c.phase from rfl, hps, Option.bind_some]
    split_ifs at h ⊢
    obtain ⟨rfl, rfl⟩ := Prod.mk.inj (Option.some.inj h)
    rw [Connection.withResidual_eq, Connection.withResidual_eq]
    rfl
  refine ⟨hmake', ?_⟩
  have hfresh := (mapM_toPacket_toBytes (makePackets_some hmake).2).2
  simp [processIncomingFrame, hmake', run_bare hfresh hrun]

/-! ## Packets that are no rows -/

/-- A packet of another type keeps its number if no row has been dropped. -/
theorem consumeLoop_typed : ∀ {fuel : Nat} {self self' : ResponseAccumulator} {packet packet' : Packet} {phase : Phase},
    packet.pType ≠ .other → self.skippedPackets = 0 →
    ResponseAccumulator.consumeLoop env c fuel self packet = some (self', packet', phase) →
    packet' = packet ∧ self'.skippedPackets = 0
  | 0, _, _, _, _, _, _, _, h => by cases h
  | fuel + 1, self, self', packet, packet', phase, htype, hskip, h => by
    have hstep : ∀ {self₁ packet₁ flow}, self.consumeStep env packet c = some (self₁, packet₁, flow) →
        packet₁ = packet ∧ self₁.skippedPackets = 0 := by
      intro self₁ packet₁ flow hs
      rcases (ResponseAccumulator.consumeStep_cases hs).2 with ⟨rfl, hs'⟩ | ⟨_, self₂, packet₂, flags, seq, hrow, hseq, rfl, hs'⟩
      · exact ⟨rfl, hs'.trans hskip⟩
      · rcases (ResponseAccumulator.hydrateRow_cases hrow).2 with ⟨rfl, rfl⟩ | ⟨hother, _⟩
        · rw [hskip, ResponseAccumulator.subtractSkipped_zero] at hseq
          cases hseq
          exact ⟨rfl, hs'.trans hskip⟩
        · exact absurd hother htype
    rcases ResponseAccumulator.consumeLoop_some h with hs | ⟨self₁, packet₁, hs, hrest⟩
    · exact hstep hs
    · obtain ⟨rfl, hskip₁⟩ := hstep hs
      exact consumeLoop_typed htype hskip₁ hrest

theorem consumePacket_typed {packet : Packet} {out : Option Packet} (hp : packet.skip = false)
    (hrow : c.phase = .pendingResponse → packet.pType ≠ .other ∧ c.queryResponse.skippedPackets = 0)
    (h : consumePacket env c packet = some (c', out)) :
    out = some packet ∧ (c.phase = .command ∨ c.queryResponse.skippedPackets = 0 → c'.queryResponse.skippedPackets = 0) := by
  obtain ⟨⟨phase, packet', delta⟩, hacc, he⟩ := Option.map_eq_some_iff.1 h
  cases he
  rcases accumulate_cases hacc with ⟨rfl, hd⟩ | ⟨hphase, self', hd, hconsume⟩
  · refine ⟨by simp [hp], fun hcount => ?_⟩
    rcases hcount with hcommand | hzero
    · -- a new command, a new accumulator
      unfold accumulate at hacc
      simp only [hcommand] at hacc
      obtain ⟨_, _, he⟩ := Option.map_eq_some_iff.1 hacc
      cases he
      rfl
    · rcases hd with hd | hd <;> simp [syncConnectionState, hd, hzero, ResponseAccumulator.default]
  · obtain ⟨htype, hzero⟩ := hrow hphase
    obtain ⟨rfl, hs⟩ := consumeLoop_typed htype hzero hconsume
    exact ⟨by simp [hp], fun _ => by simp [syncConnectionState, hd, hs]⟩

/-- What is read in `Command` is no row, however much of it there is. -/
theorem run_typed : ∀ {packets : List Packet} {c : Connection} {outs : List (Option Packet)},
    (∀ p ∈ packets, p.skip = false ∧ p.pType ≠ .other) → c.phase = .command ∨ c.queryResponse.skippedPackets = 0 →
    run (consumePacket env) c packets = some (c', outs) → outs = packets.map some
  | [], _, _, _, _, h => by cases h; rfl
  | packet :: packets, c, outs, hall, hcount, h => by
    obtain ⟨c₁, out, outs, hstep, hrest, rfl⟩ := run_cons_some h
    obtain ⟨hfresh, htype⟩ := hall packet (List.mem_cons_self ..)
    have hrow : c.phase = .pendingResponse → packet.pType ≠ .other ∧ c.queryResponse.skippedPackets = 0 := by
      intro hpending
      exact ⟨htype, hcount.resolve_left fun hcommand => by rw [hcommand] at hpending; cases hpending⟩
    obtain ⟨rfl, hzero⟩ := consumePacket_typed hfresh hrow hstep
    rw [run_typed (fun p hp => hall p (List.mem_cons_of_mem _ hp)) (.inr (hzero hcount)) hrest, List.map_cons]

/-- Nor is what is not consumed as part of a response. -/
theorem run_unanswering : ∀ {packets : List Packet} {c : Connection} {outs : List (Option Packet)},
    (∀ p ∈ packets, p.skip = false) →
    (∀ s ∈ transcript (consumePacket env) c packets, s.before.phase ≠ .pendingResponse) →
    run (consumePacket env) c packets = some (c', outs) → outs = packets.map some
  | [], _, _, _, _, h => by cases h; rfl
  | packet :: packets, c, outs, hfresh, hphases, h => by
    obtain ⟨c₁, out, outs, hstep, hrest, rfl⟩ := run_cons_some h
    rw [transcript_cons hstep] at hphases
    have hphase := hphases _ (List.mem_cons_self ..)
    obtain ⟨rfl, -⟩ := consumePacket_typed (hfresh packet (List.mem_cons_self ..)) (fun hpending => absurd hpending hphase) hstep
    rw [run_unanswering (fun p hp => hfresh p (List.mem_cons_of_mem _ hp))
      (fun s hs => hphases s (List.mem_cons_of_mem _ hs)) hrest, List.map_cons]

theorem getPacketType_command {body : Bytes} {pType : PacketType} {phase : Phase} (h : getPacketType body phase = some pType) :
    (phase = .command → pType ≠ .other) ∧ (phase ≠ .command → pType ≠ .command) := by
  unfold getPacketType at h
  split at h
  · cases h
  · split_ifs at h <;> cases h <;> simp_all

/-- The packets of a read are typed in one phase. -/
theorem makePackets_typed {r : SocketRead} {c₀ : Connection} {packets : List Packet}
    (h : makePackets r.buf c r.readBytes = some (c₀, packets)) :
    c₀.phase = c.phase ∧ ∀ p ∈ packets,
      p.skip = false ∧ (c.phase = .command → p.pType ≠ .other) ∧ (c.phase ≠ .command → p.pType ≠ .command) := by
  obtain ⟨rfl, hps⟩ := makePackets_some h
  refine ⟨Connection.withResidual_phase .., ?_⟩
  clear h
  generalize (frames.split (c.partialBytes.getD [] ++ r.chunk)).1 = fs at hps
  induction fs generalizing packets with
  | nil => cases hps; simp
  | cons f fs ih =>
    obtain ⟨p, ps, hp, hrest, rfl⟩ := mapM_toPacket_cons hps
    obtain ⟨pType, htype, rfl⟩ := Option.map_eq_some_iff.1 hp
    intro q hq
    rcases List.mem_cons.1 hq with rfl | hq
    · exact ⟨rfl, getPacketType_command htype⟩
    · exact ih hrest q hq

/-! ## One turn -/

theorem getResponseFromCache_bare (c : Connection) (size : Nat) :
    getResponseFromCache env c.bare size =
      match getResponseFromCache env c size with
      | .cached c' bytes => .cached c'.bare bytes
      | .waiting => .waiting
      | .notReplayed => .notReplayed := by
  unfold getResponseFromCache
  rw [show sendCommandToServer c.bare = sendCommandToServer c from rfl, show c.bare.replay = c.replay from rfl,
    show c.bare.lastCommand = c.lastCommand from rfl]
  split
  · split <;> rfl
  · rfl

/-- The bytes of a turn are the same. -/
theorem receive_bare {x : Exchange} {read : SocketRead} :
    receive env { x with connection := x.connection.bare } read =
      match receive env x read with
      | .bytes c r origin => .bytes c.bare r origin
      | .waiting => .waiting
      | .closed => .closed := by
  unfold receive
  cases x.listening with
  | server =>
    dsimp only
    rw [getResponseFromCache_bare]
    cases getResponseFromCache env x.connection read.buf.length with
    | notReplayed => dsimp only; split_ifs <;> rfl
    | waiting => rfl
    | cached c bytes => dsimp only; split_ifs <;> rfl
  | client =>
    have hswitch : switchIfAgreed env x.connection.bare = (switchIfAgreed env x.connection).bare := by
      unfold switchIfAgreed
      rw [show x.connection.bare.phase = x.connection.phase from rfl]
      split_ifs <;> rfl
    dsimp only
    rw [hswitch]
    split_ifs <;> rfl

theorem answersHere_typed {packets : List Packet} (h : ∀ p ∈ packets, p.pType ≠ .command) :
    answersHere env c packets = false := by
  rcases packets with _ | ⟨packet, _ | ⟨_, _⟩⟩
  · rfl
  · have htype := h packet (List.mem_singleton_self _)
    cases hlast : c.lastCommand <;> simp [answersHere, isWriteText, hlast, htype]
  · rfl

/-- Whether the command is answered here does not depend on what rows have become. -/
theorem answersHere_kept {steps : List (Step Connection Packet (Option Packet))}
    (hkept : ∀ e ∈ steps, KeptButRows env e) (hfresh : ∀ e ∈ steps, e.input.skip = false)
    (htypes : (∀ e ∈ steps, e.input.pType ≠ .other) ∨ ∀ e ∈ steps, e.input.pType ≠ .command) :
    answersHere env c (steps.filterMap (·.output)) = answersHere env c (steps.map (·.input)) := by
  rcases htypes with hnone | hnone
  · -- none of them is a row
    have hsome : ∀ e ∈ steps, ∃ seq, e.output = some (e.input.withSeq seq) := by
      intro e he
      obtain ⟨seq, hseq⟩ := (hkept e he).resolve_right fun hrow => hnone e he hrow.1.1
      exact ⟨seq, by rw [hseq, hfresh e he]; rfl⟩
    rcases steps with _ | ⟨e, _ | ⟨d, steps⟩⟩
    · rfl
    · obtain ⟨seq, he⟩ := hsome e (List.mem_cons_self ..)
      simp [he, answersHere, isWriteText]
    · obtain ⟨seq, he⟩ := hsome e (List.mem_cons_self ..)
      obtain ⟨seq', hd⟩ := hsome d (List.mem_cons_of_mem _ (List.mem_cons_self ..))
      simp [he, hd, answersHere]
  · -- none of them is a command
    rw [answersHere_typed, answersHere_typed]
    · intro p hp
      obtain ⟨e, he, rfl⟩ := List.mem_map.1 hp
      exact hnone e he
    · intro q hq
      obtain ⟨e, he, hout⟩ := List.mem_filterMap.1 hq
      rcases hkept e he with ⟨seq, hseq⟩ | ⟨-, hother⟩
      · rw [hseq, hfresh e he] at hout
        cases hout
        exact hnone e he
      · rw [hother q hout]
        decide

theorem isWriteQuery_text {lastCommand : Option Command} {packet : Packet} {diff diff' : StateDiffLog} {drawn drawn' : Nat}
    {isWrite : Bool} (h : isWriteQuery env lastCommand packet diff drawn = some (isWrite, diff', drawn')) :
    isWrite = lastCommand.any (isWriteText env · packet) := by
  cases lastCommand with
  | none => cases h; rfl
  | some lastCommand =>
    obtain ⟨_, _, he⟩ := Option.map_eq_some_iff.1 h
    cases he
    rfl

/-- What the interception does to a connection that is alone. -/
theorem interceptIfEnabled_bare {packets : List Packet} {drawn : Nat} {counter : UInt8} {i : Intercepted}
    (h : interceptIfEnabled env c packets drawn counter = some i) :
    i.response.isSome = answersHere env c packets ∧
      i.connection.bare = (if answersHere env c packets then { c with phase := .command } else c).bare := by
  cases interceptIfEnabled_intercepts h with
  | idle hidle =>
    have hnot : answersHere env c packets = false := by
      rcases packets with _ | ⟨packet, _ | ⟨_, _⟩⟩
      · rfl
      · simp only [List.length_singleton, and_true, not_and] at hidle
        by_cases hin : env.interceptWrites
        · simp [answersHere, hidle hin]
        · simp [answersHere, hin]
      · rfl
    simp [hnot]
  | passed hin hphase hpackets hquery =>
    have htext := isWriteQuery_text hquery
    have hnot : answersHere env c packets = false := by
      rw [hpackets, answersHere, ← htext, Bool.and_false]
    simp only [hnot]
    exact ⟨rfl, rfl⟩
  | answered hin hphase hpackets hquery hcommand hflag hresponse =>
    have htext := isWriteQuery_text hquery
    have hyes : answersHere env c packets = true := by
      rw [hpackets, answersHere, ← htext]
      simp [hin, hphase]
    simp only [hyes]
    exact ⟨rfl, rfl⟩

end

/-- The packets of a turn. -/
def turnPackets (env : Env) (x : Exchange) (turn : Turn) : List (Step Connection Packet (Option Packet)) :=
  match receive env { x with connection := x.connection.sharing turn.shared } turn.read with
  | .bytes c r _ => frameSteps env c (c.diff, r)
  | _ => []

/-- Nothing of the turn can be a row: it is typed in `Command`, or is no part of a response. -/
def RowFree (env : Env) (x : Exchange) (turn : Turn) : Prop :=
  x.connection.phase = .command ∨ ∀ e ∈ turnPackets env x turn, e.before.phase ≠ .pendingResponse

section
variable {env : Env} {c c' : Connection}

/-- The packets of a frame, beside those it would have were the connection alone. -/
structure FrameIsolated (env : Env) (c : Connection) (r : SocketRead) (c' : Connection) (packets : List Packet)
    (steps : List (Step Connection Packet (Option Packet))) : Prop where
  alone : processIncomingFrame env r.buf c.bare r.readBytes = some (c'.bare, steps.map (·.input))
  outputs : packets = steps.filterMap (·.output)
  kept : ∀ e ∈ steps, KeptButRows env e
  fresh : ∀ e ∈ steps, e.input.skip = false
  types : (∀ e ∈ steps, e.input.pType ≠ .other) ∨ ∀ e ∈ steps, e.input.pType ≠ .command
  rowFree : c.phase = .command ∨ (∀ e ∈ steps, e.before.phase ≠ .pendingResponse) → packets = steps.map (·.input)

theorem frame_isolated {r : SocketRead} {packets : List Packet}
    (h : processIncomingFrame env r.buf c r.readBytes = some (c', packets)) :
    FrameIsolated env c r c' packets (frameSteps env c (c.diff, r)) := by
  obtain ⟨c₀, ins, outs, hmake, hrun, rfl⟩ := processIncomingFrame_some h
  have hsteps : frameSteps env c (c.diff, r) = transcript (consumePacket env) c₀ ins := by
    unfold frameSteps
    rw [show makePackets r.buf (c.withDiff c.diff) r.readBytes = _ from hmake]
  obtain ⟨hins, houts⟩ := transcript_of_run hrun
  obtain ⟨hphase, htyped⟩ := makePackets_typed hmake
  have hmem : ∀ e ∈ transcript (consumePacket env) c₀ ins, e.input ∈ ins := fun e he => (transcript_step e he).1
  rw [hsteps]
  refine ⟨by rw [hins]; exact (frame_bare hmake hrun).2, ?_, fun e he => (consumePacket_unrewritten (transcript_step e he).2).2,
    fun e he => (htyped _ (hmem e he)).1, ?_, ?_⟩
  · rw [← houts, List.filterMap_map]
    rfl
  · by_cases hcommand : c.phase = .command
    · exact .inl fun e he => (htyped _ (hmem e he)).2.1 hcommand
    · exact .inr fun e he => (htyped _ (hmem e he)).2.2 hcommand
  · intro hfree
    have hsame : outs = ins.map some := by
      rcases hfree with hcommand | hphases
      · exact run_typed (fun p hp => ⟨(htyped p hp).1, (htyped p hp).2.1 hcommand⟩) (.inl (hphase.trans hcommand)) hrun
      · exact run_unanswering (fun p hp => (htyped p hp).1) hphases hrun
    rw [hsame, hins]
    simp

/-- So does whether a command is answered here. -/
theorem FrameIsolated.answers {r : SocketRead} {packets : List Packet} {steps : List (Step Connection Packet (Option Packet))}
    (h : FrameIsolated env c r c' packets steps) :
    answersHere env c'.bare (steps.map (·.input)) = answersHere env c' packets := by
  rw [h.outputs]
  exact (answersHere_kept h.kept h.fresh h.types).symm

theorem isolatedStep_own (x : Exchange) (turn : Turn) :
    isolatedStep env x.own turn.given =
      match receive env { x with connection := x.connection.sharing turn.shared } turn.read with
      | .closed => none
      | .waiting => some (x.own, [])
      | .bytes c r _ =>
        (processIncomingFrame env r.buf c.bare r.readBytes).map fun (c, packets) => isolatedFrame env x.listening c packets := by
  have hreceive := @receive_bare env { x with connection := x.connection.sharing turn.shared } turn.read
  have hstep : isolatedStep env x.own turn.given =
      match receive env { x with connection := (x.connection.sharing turn.shared).bare } turn.read with
      | .closed => none
      | .waiting => some (x.own, [])
      | .bytes connection r _ =>
        (processIncomingFrame env r.buf connection r.readBytes).map fun (connection, packets) =>
          isolatedFrame env x.listening connection packets := rfl
  rw [hstep, hreceive]
  cases receive env { x with connection := x.connection.sharing turn.shared } turn.read <;> rfl

theorem turnPackets_bytes {x : Exchange} {turn : Turn} {r : SocketRead} {origin : Origin}
    (h : receive env { x with connection := x.connection.sharing turn.shared } turn.read = .bytes c r origin) :
    turnPackets env x turn = frameSteps env c (c.diff, r) := by
  rw [turnPackets, h]

/-- A command that is not answered here, the interception having left the connection as `d`. -/
theorem isolatedFrame_passes {x : Exchange} {d : Connection} {packets : List Packet} (hlisten : x.listening = .client)
    (hno : answersHere env c.bare packets = false) (hd : d.bare = c.bare) :
    isolatedFrame env x.listening c.bare packets =
      ((afterClientFrame x d).own, if sendCommandToServer d then generateOutgoingFrame packets else []) := by
  have hown : d.own = c.own := congrArg (fun d : Connection => ({ d with replay := none } : Connection)) hd
  have hphase : d.phase = c.phase := congrArg (·.phase) hd
  have hsend : sendCommandToServer d.bare = sendCommandToServer c.bare := congrArg sendCommandToServer hd
  have hnext : (afterClientFrame x d).own = ⟨c.own, nextListening .client c.phase, []⟩ := by
    rw [afterClientFrame, nextListening, hphase, ← hown]
    split_ifs
    · rfl
    · rw [Exchange.own, hlisten]
  rw [isolatedFrame, if_neg (by simp [hno]), hnext, hlisten, ← hsend]
  simp only [true_and]
  rfl

/-- **One turn** does to what a connection has of its own what it would do were the connection alone, and sends the
server the same if nothing of it can be a row. -/
theorem exchangeStep_isolated {x x' : Exchange} {turn : Turn} {output : Output} {shared : Shared}
    (h : exchangeStep env x turn = some (x', output, shared)) :
    ∃ toServer, isolatedStep env x.own turn.given = some (x'.own, toServer) ∧
      (RowFree env x turn → output.toServer = toServer) := by
  rw [isolatedStep_own]
  cases exchangeStep_turned h with
  | waiting hwait =>
    rw [hwait]
    exact ⟨[], rfl, fun _ => rfl⟩
  | server hlisten hread hframe hpush =>
    rw [hread]
    dsimp only
    rw [(frame_isolated hframe).alone, hlisten]
    exact ⟨[], rfl, fun _ => rfl⟩
  | @answered c c' r origin packets i response hlisten hread hframe hi hresponse =>
    have hisolated := frame_isolated hframe
    obtain ⟨hanswers, hconnection⟩ := interceptIfEnabled_bare hi
    have hyes : answersHere env c' packets = true := by rw [← hanswers, hresponse]; rfl
    have halone := hisolated.answers.trans hyes
    rw [if_pos hyes] at hconnection
    rw [hread]
    dsimp only
    rw [hisolated.alone, Option.map_some, isolatedFrame, if_pos ⟨hlisten, halone⟩]
    have hown : i.connection.own = ({ c' with phase := .command } : Connection).own :=
      congrArg (fun d : Connection => ({ d with replay := none } : Connection)) hconnection
    refine ⟨[], congrArg some (Prod.ext ?_ rfl), fun _ => rfl⟩
    rw [Exchange.own, hown]
    rfl
  | @unanswered c c' r origin packets i hlisten hread hframe hi hresponse =>
    have hisolated := frame_isolated hframe
    obtain ⟨hanswers, hconnection⟩ := interceptIfEnabled_bare hi
    have hno : answersHere env c' packets = false := by rw [← hanswers, hresponse]; rfl
    have halone := hisolated.answers.trans hno
    rw [hno] at hconnection
    rw [hread]
    dsimp only
    rw [hisolated.alone, Option.map_some, @isolatedFrame_passes _ c' { x with connection := c } i.connection _ hlisten halone hconnection]
    refine ⟨_, rfl, fun hfree => ?_⟩
    have hsame : packets = (frameSteps env c (c.diff, r)).map (·.input) := by
      refine hisolated.rowFree (hfree.imp (fun hcommand => ?_) fun hphases => ?_)
      · obtain ⟨rfl, -⟩ := receive_command hread hlisten hcommand
        exact hcommand
      · rwa [turnPackets_bytes hread] at hphases
    rw [← hsame]

/-- **What the client is written** in a round of the server loop is what comes out of its packets. -/
theorem exchangeStep_toClient {x x' : Exchange} {turn : Turn} {output : Output} {shared : Shared} (hlisten : x.listening = .server)
    (h : exchangeStep env x turn = some (x', output, shared)) :
    output.toClient = generateOutgoingFrame ((turnPackets env x turn).filterMap (·.output)) := by
  cases exchangeStep_turned h with
  | waiting hwait => rw [turnPackets, hwait]; rfl
  | server _ hread hframe _ => rw [turnPackets_bytes hread, ← (frame_isolated hframe).outputs]
  | answered hclient _ _ _ _ | unanswered hclient _ _ _ _ => rw [hlisten] at hclient; cases hclient

end

/-! ## Two runs -/

/-- One packet in two runs. -/
structure SamePacket (env : Env) (e d : Step Connection Packet (Option Packet)) : Prop where
  input : e.input = d.input
  before : e.before.own = d.before.own
  after : e.after.own = d.after.own
  kept : KeptButRows env e ∧ KeptButRows env d

/-- One turn in two runs. -/
structure SameTurn (env : Env) (e d : Step Exchange Turn (Output × Shared)) : Prop where
  before : e.before.own = d.before.own
  after : e.after.own = d.after.own
  packets : List.Forall₂ (SamePacket env) (turnPackets env e.before e.input) (turnPackets env d.before d.input)
  toServer : RowFree env e.before e.input → e.output.1.toServer = d.output.1.toServer

section
variable {env : Env} {c d : Connection}

theorem own_of_bare (h : c.bare = d.bare) : c.own = d.own :=
  congrArg (fun d : Connection => ({ d with replay := none } : Connection)) h

theorem samePacket_step (c : Connection) (p : Packet) (c' : Connection) (o : Option Packet) (d : Connection) (q : Packet)
    (d' : Connection) (o' : Option Packet) (hbare : c.bare = d.bare) (hinput : p = q)
    (hc : consumePacket env c p = some (c', o)) (hd : consumePacket env d q = some (d', o')) :
    c'.bare = d'.bare ∧ SamePacket env ⟨c, p, c', o⟩ ⟨d, q, d', o'⟩ := by
  subst hinput
  have hafter := consumePacket_bare hc
  rw [hbare, consumePacket_bare hd] at hafter
  obtain ⟨hafter, -⟩ := Prod.mk.inj (Option.some.inj hafter)
  exact ⟨hafter.symm, rfl, own_of_bare hbare, own_of_bare hafter.symm, (consumePacket_unrewritten hc).2,
    (consumePacket_unrewritten hd).2⟩

theorem frameSteps_isolated {r : SocketRead} {c' d' : Connection} {ps qs : List Packet} (hbare : c.bare = d.bare)
    (hc : processIncomingFrame env r.buf c r.readBytes = some (c', ps))
    (hd : processIncomingFrame env r.buf d r.readBytes = some (d', qs)) :
    List.Forall₂ (SamePacket env) (frameSteps env c (c.diff, r)) (frameSteps env d (d.diff, r)) := by
  obtain ⟨c₀, ins, outs, hmake, hrun, rfl⟩ := processIncomingFrame_some hc
  obtain ⟨d₀, ins', outs', hmake', hrun', rfl⟩ := processIncomingFrame_some hd
  have hsame := (frame_bare hmake hrun).1
  rw [hbare, (frame_bare hmake' hrun').1] at hsame
  obtain ⟨hstart, rfl⟩ := Prod.mk.inj (Option.some.inj hsame)
  have hlockstep := run_lockstep (R := fun c d => c.bare = d.bare) (Q := Eq) (P := SamePacket env)
    samePacket_step hstart.symm (List.forall₂_same.2 fun _ _ => rfl) hrun hrun'
  unfold frameSteps
  rw [show makePackets r.buf (c.withDiff c.diff) r.readBytes = _ from hmake,
    show makePackets r.buf (d.withDiff d.diff) r.readBytes = _ from hmake']
  exact hlockstep.2

theorem exchangeStep_frame {x x' : Exchange} {turn : Turn} {output : Output} {shared : Shared} {r : SocketRead} {origin : Origin}
    (h : exchangeStep env x turn = some (x', output, shared))
    (hread : receive env { x with connection := x.connection.sharing turn.shared } turn.read = .bytes c r origin) :
    ∃ c' packets, processIncomingFrame env r.buf c r.readBytes = some (c', packets) := by
  cases exchangeStep_turned h with
  | waiting hwait => rw [hread] at hwait; cases hwait
  | server _ hread' hframe _ | answered _ hread' hframe _ _ | unanswered _ hread' hframe _ _ =>
    rw [hread] at hread'
    cases hread'
    exact ⟨_, _, hframe⟩

theorem turnPackets_isolated {x x' y y' : Exchange} {t u : Turn} {o o' : Output × Shared} (hown : x.own = y.own)
    (hgiven : t.given = u.given) (hx : exchangeStep env x t = some (x', o)) (hy : exchangeStep env y u = some (y', o')) :
    List.Forall₂ (SamePacket env) (turnPackets env x t) (turnPackets env y u) := by
  have hconnection : x.connection.own = y.connection.own := congrArg (·.connection) hown
  have hlisten : x.listening = y.listening := congrArg (·.listening) hown
  obtain ⟨hreplay, hbytes⟩ := Prod.mk.inj hgiven
  have hbare : (x.connection.sharing t.shared).bare = (y.connection.sharing u.shared).bare := by
    rw [sharing_bare, sharing_bare, hconnection, hreplay]
  have hread : ∀ b, receive env { x with connection := (x.connection.sharing t.shared).bare } t.read =
      receive env ⟨(y.connection.sharing u.shared).bare, y.listening, b⟩ u.read := by
    intro b
    rw [hbare, hlisten, hbytes]
    rfl
  have hreceive := hread y.kafkaLogBuffer
  rw [show receive env { x with connection := (x.connection.sharing t.shared).bare } t.read = _ from
      @receive_bare env { x with connection := x.connection.sharing t.shared } t.read,
    show receive env ⟨(y.connection.sharing u.shared).bare, y.listening, y.kafkaLogBuffer⟩ u.read = _ from
      @receive_bare env { y with connection := y.connection.sharing u.shared } u.read] at hreceive
  unfold turnPackets
  cases hcx : receive env { x with connection := x.connection.sharing t.shared } t.read with
  | closed | waiting =>
    cases hcy : receive env { y with connection := y.connection.sharing u.shared } u.read with
    | closed | waiting => exact .nil
    | bytes => rw [hcx, hcy] at hreceive; cases hreceive
  | bytes c r origin =>
    cases hcy : receive env { y with connection := y.connection.sharing u.shared } u.read with
    | closed | waiting => rw [hcx, hcy] at hreceive; cases hreceive
    | bytes d r' origin' =>
      rw [hcx, hcy] at hreceive
      obtain ⟨hc, rfl, -⟩ := Received.bytes.inj hreceive
      obtain ⟨_, _, hframe⟩ := exchangeStep_frame hx hcx
      obtain ⟨_, _, hframe'⟩ := exchangeStep_frame hy hcy
      exact frameSteps_isolated hc hframe hframe'

theorem sameTurn_step (x : Exchange) (t : Turn) (x' : Exchange) (o : Output × Shared) (y : Exchange) (u : Turn)
    (y' : Exchange) (o' : Output × Shared) (hown : x.own = y.own) (hgiven : t.given = u.given)
    (hx : exchangeStep env x t = some (x', o)) (hy : exchangeStep env y u = some (y', o')) :
    x'.own = y'.own ∧ SameTurn env ⟨x, t, x', o⟩ ⟨y, u, y', o'⟩ := by
  have hpackets := turnPackets_isolated hown hgiven hx hy
  obtain ⟨toServer, hx', hsent⟩ := exchangeStep_isolated hx
  obtain ⟨toServer', hy', hsent'⟩ := exchangeStep_isolated hy
  rw [hown, hgiven, hy'] at hx'
  obtain ⟨hafter, rfl⟩ := Prod.mk.inj (Option.some.inj hx')
  have hfree : RowFree env x t → RowFree env y u := by
    have hphase : x.connection.phase = y.connection.phase := congrArg (·.connection.phase) hown
    refine Or.imp hphase.symm.trans fun hphases e he hpending => ?_
    have hsame : (turnPackets env x t).map (·.before.phase) = (turnPackets env y u).map (·.before.phase) := by
      rw [← List.forall₂_eq_eq_eq, List.forall₂_map_left_iff, List.forall₂_map_right_iff]
      exact hpackets.imp fun e d hed => congrArg (·.phase) hed.before
    have hmem : Phase.pendingResponse ∈ (turnPackets env x t).map (·.before.phase) :=
      hsame ▸ List.mem_map.2 ⟨e, he, hpending⟩
    obtain ⟨d, hd, hdphase⟩ := List.mem_map.1 hmem
    exact hphases d hd hdphase
  exact ⟨hafter.symm, hown, hafter.symm, hpackets, fun hx => (hsent hx).trans (hsent' (hfree hx)).symm⟩

/-- **Connections leave each other alone.** Two processes, with any other clients, in which a connection reads the same
and sees the same replay log, as long as it ends in neither: in every turn its state is the same but for what is shared,
its packets are, and each comes out under a number of its own, or else it is a row. Its server receives the same, but for
turns in which the client sends a response. -/
theorem process_isolates {κ κ' : Type} [DecidableEq κ] [DecidableEq κ'] {serde serde' : Serde}
    {vars vars' : String → Option String} {p₀ p : Process κ} {q₀ q : Process κ'} {events : List (ProcessEvent κ)}
    {events' : List (ProcessEvent κ')} {outs outs' : List Output} {k : κ} {k' : κ'} {x y : Exchange}
    (hstart : Process.start κ vars = some p₀) (hrun : run (processStep env serde) p₀ events = some (p, outs))
    (hclient : p.client k = .connected x)
    (hstart' : Process.start κ' vars' = some q₀) (hrun' : run (processStep env serde') q₀ events' = some (q, outs'))
    (hclient' : q.client k' = .connected y)
    (hgiven : (turnsOf k (transcript (processStep env serde) p₀ events)).map Turn.given =
      (turnsOf k' (transcript (processStep env serde') q₀ events')).map Turn.given) :
    x.own = y.own ∧ List.Forall₂ (SameTurn env) (exchangesOf k (transcript (processStep env serde) p₀ events))
      (exchangesOf k' (transcript (processStep env serde') q₀ events')) := by
  obtain ⟨x₀, os, ⟨_, _, _, rfl⟩, hx, hsteps⟩ := process_exchanges hstart hrun hclient
  obtain ⟨y₀, os', ⟨_, _, _, rfl⟩, hy, hsteps'⟩ := process_exchanges hstart' hrun' hclient'
  rw [hsteps, hsteps']
  refine run_lockstep (R := fun x y => x.own = y.own) (Q := fun t u => t.given = u.given) sameTurn_step rfl ?_ hx hy
  rw [← List.forall₂_eq_eq_eq, List.forall₂_map_left_iff, List.forall₂_map_right_iff] at hgiven
  exact hgiven

end

/-! ## A row that another client has rewritten -/

def askedColumn : ColumnDefinition := { sampleColumn with name := "a", orgName := "a" }

/-- A client asks for a row of `t`. -/
def askingEvents : List (ProcessEvent Bool) :=
  openingEvents true ++ [.turn true (.whole ([16, 0, 0, 0, 0x03] ++ asBytes "select a from t")),
    .turn true (.whole (generateOutgoingFrame [samplePacket 1 [1] .other, samplePacket 2 askedColumn.encode .other,
      samplePacket 3 [0xfe, 0, 0, 2, 0] .eof, samplePacket 4 [1, 0x31] .other, samplePacket 5 [0xfe, 0, 0, 2, 0, 0, 0] .eof]))]

/-- Another one updates it before. -/
def updatingFirst : List (ProcessEvent Bool) :=
  openingEvents false ++ [.turn false (updateTurn 21 "update t set a = 'b'").read]

theorem process_isolates_two : ∃ p₀ p q outs outs' x y, Process.start Bool (fun _ => none) = some p₀ ∧
    run (processStep updateEnv sampleSerde) p₀ askingEvents = some (p, outs) ∧ p.client true = .connected x ∧
    run (processStep updateEnv sampleSerde) p₀ (updatingFirst ++ askingEvents) = some (q, outs') ∧
    q.client true = .connected y ∧ x.own = y.own ∧
    (outputsOf true (transcript (processStep updateEnv sampleSerde) p₀ askingEvents)).flatMap (·.toClient) ≠
      (outputsOf true (transcript (processStep updateEnv sampleSerde) p₀ (updatingFirst ++ askingEvents))).flatMap (·.toClient) ∧
    List.Forall₂ (SameTurn updateEnv) (exchangesOf true (transcript (processStep updateEnv sampleSerde) p₀ askingEvents))
      (exchangesOf true (transcript (processStep updateEnv sampleSerde) p₀ (updatingFirst ++ askingEvents))) := by
  have hruns : ∃ p₀ p q outs outs' x y, Process.start Bool (fun _ => none) = some p₀ ∧
      run (processStep updateEnv sampleSerde) p₀ askingEvents = some (p, outs) ∧ p.client true = .connected x ∧
      run (processStep updateEnv sampleSerde) p₀ (updatingFirst ++ askingEvents) = some (q, outs') ∧
      q.client true = .connected y ∧
      (turnsOf true (transcript (processStep updateEnv sampleSerde) p₀ askingEvents)).map Turn.given =
        (turnsOf true (transcript (processStep updateEnv sampleSerde) p₀ (updatingFirst ++ askingEvents))).map Turn.given ∧
      (outputsOf true (transcript (processStep updateEnv sampleSerde) p₀ askingEvents)).flatMap (·.toClient) ≠
        (outputsOf true (transcript (processStep updateEnv sampleSerde) p₀ (updatingFirst ++ askingEvents))).flatMap
          (·.toClient) :=
    ⟨_, _, _, _, _, _, _, rfl, rfl, rfl, rfl, rfl, rfl, by decide⟩
  obtain ⟨p₀, p, q, outs, outs', x, y, hstart, hrun, hclient, hrun', hclient', hgiven, hdiffer⟩ := hruns
  obtain ⟨hown, hsame⟩ := process_isolates hstart hrun hclient hstart hrun' hclient' hgiven
  exact ⟨p₀, p, q, outs, outs', x, y, hstart, hrun, hclient, hrun', hclient', hown, hdiffer, hsame⟩

end MocksySql
