import MocksySql.Framing
import MocksySql.ResponseRound
/-!
# What the proxy changes of a stream

Only a row that `override_row` rewrites, and the sequence numbers behind a row it drops, differ from
what was read.

* `transparency` — with an empty diff log the bytes written, then the residual, are the residual and
  the bytes read; with any diff log every packet but a row is forwarded, in order, its body unchanged.
-/

namespace MocksySql
open FieldDecode PartialRun ByteStream

namespace ResponseAccumulator

/-! ## A call of `consume` -/

/-- Does some round of the loop take the packet for a row? -/
def hydrates (env : Env) (connection : Connection) : Nat → ResponseAccumulator → Packet → Bool
  | 0, _, _ => false
  | fuel + 1, self, packet =>
    self.state == .hydrateRows ||
      match self.consumeStep env packet connection with
      | some (self, packet, .consume) => hydrates env connection fuel self packet
      | _ => false

theorem consumeLoop_transparent {env : Env} {connection : Connection} (hdiff : connection.diff = ∅) :
    ∀ {fuel : Nat} {self self' : ResponseAccumulator} {packet packet' : Packet} {phase : Phase},
      self.skippedPackets = 0 → consumeLoop env connection fuel self packet = some (self', packet', phase) →
      packet' = packet ∧ self'.skippedPackets = 0
  | 0, _, _, _, _, _, _, h => by cases h
  | fuel + 1, self, self', packet, packet', phase, hskip, h => by
    have hstep : ∀ {self₁ packet₁ flow}, self.consumeStep env packet connection = some (self₁, packet₁, flow) →
        packet₁ = packet ∧ self₁.skippedPackets = 0 := by
      intro self₁ packet₁ flow hs
      rcases (consumeStep_cases hs).2 with ⟨rfl, hs'⟩ | ⟨_, self₂, packet₂, flags, seq, hrow, hseq, rfl, hs'⟩
      · exact ⟨rfl, hs'.trans hskip⟩
      · rcases (hydrateRow_cases hrow).2 with ⟨rfl, rfl⟩ | ⟨_, table, diff, hlookup, _⟩
        · rw [hskip, subtractSkipped] at hseq
          have hseq' : packet₂.header.seq = seq := by simpa using hseq
          exact ⟨by rw [← hseq'], hs'.trans hskip⟩
        · rw [hdiff] at hlookup; cases hlookup
    rcases consumeLoop_some h with hs | ⟨self₁, packet₁, hs, hrest⟩
    · exact hstep hs
    · obtain ⟨rfl, hskip₁⟩ := hstep hs
      exact consumeLoop_transparent hdiff hskip₁ hrest

theorem consumeLoop_body {env : Env} {connection : Connection} :
    ∀ {fuel : Nat} {self self' : ResponseAccumulator} {packet packet' : Packet} {phase : Phase},
      packet.pType ≠ .other ∨ hydrates env connection fuel self packet = false →
      consumeLoop env connection fuel self packet = some (self', packet', phase) →
      packet'.body = packet.body ∧ packet'.skip = packet.skip
  | 0, _, _, _, _, _, _, h => by cases h
  | fuel + 1, self, self', packet, packet', phase, hrow, h => by
    have hstep : ∀ {self₁ packet₁ flow}, self.consumeStep env packet connection = some (self₁, packet₁, flow) →
        packet₁.body = packet.body ∧ packet₁.skip = packet.skip ∧ packet₁.pType = packet.pType := by
      intro self₁ packet₁ flow hs
      rcases (consumeStep_cases hs).2 with ⟨rfl, _⟩ | ⟨hstate, self₂, packet₂, flags, seq, hr, _, rfl, _⟩
      · exact ⟨rfl, rfl, rfl⟩
      · rcases (hydrateRow_cases hr).2 with ⟨rfl, rfl⟩ | ⟨hother, _⟩
        · exact ⟨rfl, rfl, rfl⟩
        · rcases hrow with hne | hno
          · exact absurd hother hne
          · simp [hydrates, hstate] at hno
    rcases consumeLoop_some h with hs | ⟨self₁, packet₁, hs, hrest⟩
    · obtain ⟨hbody, hskip, -⟩ := hstep hs
      exact ⟨hbody, hskip⟩
    · obtain ⟨hbody, hskip, htype⟩ := hstep hs
      have hrow' : packet₁.pType ≠ .other ∨ hydrates env connection fuel self₁ packet₁ = false := by
        rcases hrow with hne | hno
        · exact .inl (htype ▸ hne)
        · rw [hydrates, hs] at hno
          exact .inr (Bool.or_eq_false_iff.1 hno).2
      obtain ⟨hb, hsk⟩ := consumeLoop_body hrow' hrest
      exact ⟨hb.trans hbody, hsk.trans hskip⟩

end ResponseAccumulator

/-! ## One packet -/

/-- The packet of this step is a row: typed `Other` and taken for a row by the response accumulator. -/
def ConsumedAsRow (env : Env) (e : Step Connection Packet (Option Packet)) : Prop :=
  e.input.pType = .other ∧ e.before.phase = .pendingResponse ∧
    ResponseAccumulator.hydrates env e.before ResponseAccumulator.consumeFuel e.before.queryResponse e.input

theorem accumulate_cases {env : Env} {packet packet' : Packet} {connection : Connection} {phase : Phase}
    {delta : AccumulationDelta} (h : accumulate env packet connection = some (phase, packet', delta)) :
    (packet' = packet ∧ (delta.response = none ∨ delta.response = some .default)) ∨
      (connection.phase = .pendingResponse ∧ ∃ self', delta.response = some self' ∧
        connection.queryResponse.consume env packet connection = some (self', packet', phase)) := by
  unfold accumulate at h
  split at h
  case h_9 hphase =>
    obtain ⟨⟨self', p, q⟩, hr, he⟩ := Option.map_eq_some_iff.1 h
    cases he
    exact .inr ⟨hphase, self', rfl, hr⟩
  case h_2 => cases h
  case h_6 => cases h
  all_goals
    obtain ⟨_, _, he⟩ := Option.map_eq_some_iff.1 h
    cases he
    exact .inl ⟨rfl, by simp [AccumulationDelta.empty]⟩

/-- Nothing to override, and no sequence number to shift. -/
structure Quiet (c : Connection) : Prop where
  diff : c.diff = ∅
  skipped : c.queryResponse.skippedPackets = 0

theorem consumePacket_quiet {env : Env} {c c' : Connection} {packet : Packet} {out : Option Packet}
    (hq : Quiet c) (hp : packet.skip = false) (h : consumePacket env c packet = some (c', out)) :
    out = some packet ∧ Quiet c' := by
  have hdiff := (consumePacket_frame h).2.trans hq.diff
  obtain ⟨⟨phase, packet', delta⟩, hacc, he⟩ := Option.map_eq_some_iff.1 h
  cases he
  rcases accumulate_cases hacc with ⟨rfl, hd⟩ | ⟨_, self', hd, hconsume⟩
  · refine ⟨by simp [hp], hdiff, ?_⟩
    rcases hd with hd | hd <;> simp [syncConnectionState, hd, hq.skipped, ResponseAccumulator.default]
  · obtain ⟨rfl, hs⟩ := ResponseAccumulator.consumeLoop_transparent hq.diff hq.skipped hconsume
    exact ⟨by simp [hp], hdiff, by simp [syncConnectionState, hd, hs]⟩

theorem consumePacket_body {env : Env} {e : Step Connection Packet (Option Packet)}
    (h : consumePacket env e.before e.input = some (e.after, e.output)) (hp : e.input.skip = false)
    (hrow : ¬ ConsumedAsRow env e) : ∃ p, e.output = some p ∧ p.body = e.input.body := by
  obtain ⟨⟨phase, packet', delta⟩, hacc, he⟩ := Option.map_eq_some_iff.1 h
  obtain ⟨_, hout⟩ := Prod.mk.inj he
  have hkept : packet'.body = e.input.body ∧ packet'.skip = e.input.skip := by
    rcases accumulate_cases hacc with ⟨rfl, _⟩ | ⟨hphase, self', _, hconsume⟩
    · exact ⟨rfl, rfl⟩
    · refine ResponseAccumulator.consumeLoop_body ?_ hconsume
      by_cases hother : e.input.pType = .other
      · exact .inr (Bool.eq_false_iff.2 fun hy => hrow ⟨hother, hphase, hy⟩)
      · exact .inl hother
  refine ⟨packet', ?_, hkept.1⟩
  rw [← hout, hkept.2, hp]
  rfl

/-! ## Frames -/

/-- The diff log as other connections have left it. -/
def Connection.withDiff (connection : Connection) (diff : StateDiffLog) : Connection := { connection with diff }

/-- `process_incoming_frame` on a read, under the diff log as it then is. -/
def frameStep (env : Env) (connection : Connection) (i : StateDiffLog × SocketRead) :
    Option (Connection × List Packet) :=
  processIncomingFrame env i.2.buf (connection.withDiff i.1) i.2.readBytes

/-- The packets of a read, one by one. -/
def frameSteps (env : Env) (connection : Connection) (i : StateDiffLog × SocketRead) :
    List (Step Connection Packet (Option Packet)) :=
  match makePackets i.2.buf (connection.withDiff i.1) i.2.readBytes with
  | none => []
  | some (connection, packets) => transcript (consumePacket env) connection packets

/-- The packets of all reads. -/
def packetSteps (env : Env) (connection : Connection) (reads : List (StateDiffLog × SocketRead)) :
    List (Step Connection Packet (Option Packet)) :=
  (transcript (frameStep env) connection reads).flatMap fun e => frameSteps env e.before e.input

theorem withResidual_quiet {c : Connection} (hq : Quiet c) (residual : Bytes) : Quiet (c.withResidual residual) := by
  rw [Connection.withResidual_eq]
  exact ⟨hq.diff, hq.skipped⟩

/-- **One frame.** The packets are the bytes held and read; what is forwarded is their outputs. -/
theorem frameStep_steps {env : Env} {c c' : Connection} {i : StateDiffLog × SocketRead} {out : List Packet}
    (h : frameStep env c i = some (c', out)) :
    (frameSteps env c i).flatMap (·.input.toBytes) ++ c'.partialBytes.getD [] =
        c.partialBytes.getD [] ++ i.2.chunk ∧
      out = (frameSteps env c i).filterMap (·.output) ∧
      (∀ e ∈ frameSteps env c i, ¬ ConsumedAsRow env e → ∃ p, e.output = some p ∧ p.body = e.input.body) ∧
      (Quiet (c.withDiff i.1) → Quiet c' ∧ ∀ e ∈ frameSteps env c i, e.output = some e.input) := by
  obtain ⟨c₀, packets, outs, hmake, hrun, rfl⟩ := processIncomingFrame_some h
  have hsteps : frameSteps env c i = transcript (consumePacket env) c₀ packets := by rw [frameSteps, hmake]
  obtain ⟨hins, houts⟩ := transcript_of_run hrun
  obtain ⟨hc₀, hps⟩ := makePackets_some hmake
  have hfresh : ∀ p ∈ packets, p.skip = false := (mapM_toPacket_toBytes hps).2
  rw [hsteps]
  refine ⟨?_, ?_, ?_, fun hquiet => ?_⟩
  · have hheld : c'.partialBytes = c₀.partialBytes :=
      run_invariant (I := fun s => s.partialBytes = c₀.partialBytes)
        (fun s p _ s' o hI hs => (consumePacket_frame hs).1.trans hI) rfl hrun
    have hbytes := makePackets_bytes hmake
    rwa [← hins, List.flatMap_map, ← hheld] at hbytes
  · rw [← houts, List.filterMap_map]; rfl
  · intro e he hrow
    obtain ⟨hi, hs⟩ := transcript_step e he
    exact consumePacket_body hs (hfresh _ hi) hrow
  · have hstart : Quiet c₀ := hc₀ ▸ withResidual_quiet hquiet _
    have hstep : ∀ s, ∀ p ∈ packets, ∀ s' o, Quiet s → consumePacket env s p = some (s', o) → Quiet s' :=
      fun s p hp s' o hI hs => (consumePacket_quiet hI (hfresh p hp) hs).2
    refine ⟨run_invariant hstep hstart hrun, fun e he => ?_⟩
    obtain ⟨hi, hs, hI, _⟩ := transcript_invariant hstep hstart e he
    exact (consumePacket_quiet hI (hfresh _ hi) hs).1

/-- **The proxy is transparent.** Over any reads that cause no panic:

* every packet but a row is forwarded, in order, with the body it came with, whatever the diff log
  holds at each read;
* while the diff log is empty, the bytes written and the last residual are the first residual and
  the bytes read. -/
theorem transparency {env : Env} {c c' : Connection} {reads : List (StateDiffLog × SocketRead)}
    {outs : List (List Packet)} (hrun : run (frameStep env) c reads = some (c', outs)) :
    ((packetSteps env c reads).flatMap (·.input.toBytes) ++ c'.partialBytes.getD [] =
        c.partialBytes.getD [] ++ reads.flatMap (·.2.chunk) ∧
      outs.flatten = (packetSteps env c reads).filterMap (·.output) ∧
      ∀ e ∈ packetSteps env c reads, ¬ ConsumedAsRow env e → ∃ p, e.output = some p ∧ p.body = e.input.body) ∧
    (c.queryResponse.skippedPackets = 0 → (∀ r ∈ reads, r.1 = ∅) →
      outs.flatMap generateOutgoingFrame ++ c'.partialBytes.getD [] =
        c.partialBytes.getD [] ++ reads.flatMap (·.2.chunk)) := by
  induction reads generalizing c outs with
  | nil => cases hrun; simp [packetSteps, transcript]
  | cons r reads ih =>
    obtain ⟨c₁, out, outs, hstep, hrest, rfl⟩ := run_cons_some hrun
    obtain ⟨hbytes, hout, hbody, hquiet⟩ := frameStep_steps hstep
    obtain ⟨⟨ihbytes, ihout, ihbody⟩, ihquiet⟩ := ih hrest
    have hsteps : packetSteps env c (r :: reads) = frameSteps env c r ++ packetSteps env c₁ reads := by
      rw [packetSteps, transcript_cons hstep]; rfl
    rw [hsteps]
    refine ⟨⟨?_, ?_, ?_⟩, fun hskip hdiff => ?_⟩
    · simp only [List.flatMap_append, List.flatMap_cons, List.append_assoc, ihbytes]
      rw [← List.append_assoc, hbytes, List.append_assoc]
    · rw [List.flatten_cons, List.filterMap_append, hout, ihout]
    · intro e he
      rcases List.mem_append.1 he with he | he
      · exact hbody e he
      · exact ihbody e he
    · obtain ⟨hq, hsame⟩ := hquiet ⟨hdiff r (by simp), hskip⟩
      have hwritten : generateOutgoingFrame out = (frameSteps env c r).flatMap (·.input.toBytes) := by
        rw [hout, List.filterMap_congr hsame, generateOutgoingFrame, List.filterMap_eq_map', List.flatMap_map]
      simp only [List.flatMap_cons, List.append_assoc, hwritten,
        ihquiet hq.skipped fun r' hr' => hdiff r' (List.mem_cons_of_mem _ hr')]
      rw [← List.append_assoc, hbytes, List.append_assoc]

/-- An auth switch response cut inside its header, and the start of what follows it. -/
theorem transparency_authSwitchResponse :
    ∃ c' outs, run (frameStep sampleEnv) { Connection.new .plain .plain ∅ none none with phase := .authSwitchResponse }
        [(∅, ⟨[2, 0, 0], 3, by decide⟩), (∅, ⟨[3, 7, 7, 9], 4, by decide⟩)] = some (c', outs) ∧
      c'.phase = .authComplete ∧
      outs.flatMap generateOutgoingFrame ++ c'.partialBytes.getD [] = [2, 0, 0, 3, 7, 7, 9] := by
  have hrun : run (frameStep sampleEnv)
      { Connection.new .plain .plain ∅ none none with phase := .authSwitchResponse }
      [(∅, ⟨[2, 0, 0], 3, by decide⟩), (∅, ⟨[3, 7, 7, 9], 4, by decide⟩)] = some (_, _) := rfl
  exact ⟨_, _, hrun, rfl, (transparency hrun).2 rfl (by simp)⟩

end MocksySql
