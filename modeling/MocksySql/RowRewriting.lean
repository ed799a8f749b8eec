import MocksySql.LegacyEof
import MocksySql.Transparency
/-!
# Row rewriting and the protocol

`override_row` changes the packet and the count of dropped rows in the middle of the transition that
decides the next phase. Neither is read by that transition: a call that returns does to everything else
what it would do had no UPDATE been recorded and no row been dropped (`Connection.unrewritten`). So two
runs under different diff logs follow the same run.

* `consumePacket_unrewritten` — one packet.
* `row_rewriting_keeps_protocol` — any two runs on the same packets.
-/

namespace MocksySql
open FieldDecode PartialRun

def Packet.withSeq (packet : Packet) (seq : UInt8) : Packet :=
  { packet with header := { packet.header with seq } }

@[simp] theorem Packet.withSeq_body (packet : Packet) (seq : UInt8) : (packet.withSeq seq).body = packet.body := rfl

@[simp] theorem Packet.withSeq_pType (packet : Packet) (seq : UInt8) : (packet.withSeq seq).pType = packet.pType := rfl

/-- The accumulator, had no row been dropped. -/
def ResponseAccumulator.uncounted (self : ResponseAccumulator) : ResponseAccumulator := { self with skippedPackets := 0 }

/-- The connection, had no UPDATE been recorded and no row been dropped. -/
def Connection.unrewritten (c : Connection) : Connection :=
  { c with diff := ∅, queryResponse := c.queryResponse.uncounted }

namespace ResponseAccumulator
variable {env : Env} {self self' : ResponseAccumulator} {p p' : Packet} {c : Connection} {phase : Phase} {flow : Flow}

/-! ## One round -/

/-- All that a round does to a packet: its number is shifted, or else it is a row, and the call ends. -/
def Rewrites (self : ResponseAccumulator) (p p' : Packet) (flow : Flow) : Prop :=
  (∃ seq, p' = p.withSeq seq) ∨
    (self.state = .hydrateRows ∧ p.pType = .other ∧ p'.pType = .other ∧ ∃ phase, flow = .done phase)

theorem readPrepareMetadata_uncounted (self : ResponseAccumulator) (p : Packet) (seq : UInt8) :
    self.uncounted.readPrepareMetadata (p.withSeq seq) = (self.readPrepareMetadata p).map uncounted := by
  unfold readPrepareMetadata
  by_cases hsize : p.header.size > 12
  · rw [if_pos hsize, if_pos (show (p.withSeq seq).header.size > 12 from hsize)]
    simp only [Option.bind_eq_bind, Option.map_bind, Function.comp_def, Option.map_some]
    rfl
  · rw [if_neg hsize, if_neg (show ¬ (p.withSeq seq).header.size > 12 from hsize)]
    rfl

theorem readPrepareOk_uncounted (self : ResponseAccumulator) (p : Packet) (c : Connection) (seq : UInt8) :
    self.uncounted.readPrepareOk (p.withSeq seq) c.unrewritten =
      (self.readPrepareOk p c).map fun r => (r.1.uncounted, r.2) := by
  simp only [readPrepareOk, Option.bind_eq_bind, Option.map_bind, Function.comp_def]
  refine Option.bind_congr fun _ _ => Option.bind_congr fun _ _ => Option.bind_congr fun statementId _ => ?_
  refine Option.bind_congr fun _ _ => Option.bind_congr fun columnCount _ => ?_
  refine Option.bind_congr fun _ _ => Option.bind_congr fun paramCount _ => Option.bind_congr fun _ _ => ?_
  have hread := readPrepareMetadata_uncounted
    { self with statementId := UInt32.ofNat statementId.result
                columnCount := columnCount.result
                paramCount := paramCount.result } p seq
  refine (congrArg (Option.bind · _) hread).trans ?_
  rw [Option.bind_map]
  refine Option.bind_congr fun a _ => ?_
  simp only [apply_ite (Option.map _), Option.map_some, Option.map_bind, Function.comp_def]
  rfl

theorem processStmtPrepare_uncounted (self : ResponseAccumulator) (p : Packet) (c : Connection) (phase : Phase)
    (seq : UInt8) :
    self.uncounted.processStmtPrepare (p.withSeq seq) c.unrewritten phase =
      (self.processStmtPrepare p c phase).map fun r => (r.1.uncounted, r.2.1.withSeq seq, r.2.2) := by
  unfold processStmtPrepare
  rw [show self.uncounted.state = self.state from rfl]
  cases self.state with
  | initiated =>
    simp only [readPrepareOk_uncounted, Option.bind_eq_bind, Option.map_bind, Option.bind_map, Function.comp_def]
    refine Option.bind_congr fun r _ => ?_
    simp only [apply_ite (Option.map _), Option.map_some]
    rfl
  | hydrateParams =>
    simp only [Option.bind_eq_bind, Option.map_bind, Function.comp_def]
    refine Option.bind_congr fun param _ => ?_
    simp only [apply_ite (Option.map _), Option.map_some]
    rfl
  | hydrateColumns =>
    simp only [Option.bind_eq_bind, Option.map_bind, Function.comp_def]
    refine Option.bind_congr fun column _ => ?_
    simp only [apply_ite (Option.map _), Option.map_some]
    rfl
  | _ => rfl

theorem overrideRow_uncounted {diff : StateDifference} (h : self.overrideRow p diff c = some (self', p')) :
    self'.uncounted = self.uncounted := by
  obtain ⟨_, _, _, _, _, _, _, _, _, _, _, rfl, rfl⟩ := overrideRow_cases h
  rfl

theorem hydrateRow_unrewritten {flags : Option UInt16} (seq : UInt8)
    (h : self.hydrateRow p c = some (self', p', flags)) :
    self.uncounted.hydrateRow (p.withSeq seq) c.unrewritten = some (self'.uncounted, p.withSeq seq, flags) ∧
      p'.pType = p.pType ∧ (p' = p ∨ p.pType = .other) := by
  unfold hydrateRow at h ⊢
  rw [Packet.withSeq_pType]
  cases htype : p.pType with
  | ok =>
    simp only [htype] at h ⊢
    obtain ⟨ok, hok, he⟩ := Option.map_eq_some_iff.1 h
    cases he
    exact ⟨Option.map_eq_some_iff.2 ⟨ok, hok, rfl⟩, htype, .inl rfl⟩
  | eof =>
    simp only [htype] at h ⊢
    obtain ⟨eof, heof, he⟩ := Option.map_eq_some_iff.1 h
    cases he
    exact ⟨Option.map_eq_some_iff.2 ⟨eof, heof, rfl⟩, htype, .inl rfl⟩
  | other =>
    simp only [htype] at h ⊢
    rw [show self.uncounted.columns = self.columns from rfl]
    cases hcolumn : self.columns.head? with
    | none => simp only [hcolumn] at h; cases h
    | some column =>
      simp only [hcolumn] at h ⊢
      rw [show c.unrewritten.diff.lookup column.orgTable = none from AList.lookup_empty _]
      cases hdiff : c.diff.lookup column.orgTable with
      | none =>
        simp only [hdiff] at h
        cases h
        exact ⟨rfl, htype, .inr trivial⟩
      | some diff =>
        simp only [hdiff] at h
        obtain ⟨⟨self₁, p₁⟩, hover, he⟩ := Option.map_eq_some_iff.1 h
        cases he
        exact ⟨by rw [overrideRow_uncounted hover], (overrideRow_keeps hover).2.trans htype, .inr trivial⟩
  | command | error => simp only [htype] at h; cases h

theorem subtractSkipped_zero (env : Env) (seq : UInt8) : subtractSkipped env seq 0 = some seq := by
  simp [subtractSkipped]

/-- Among the rows: the one state that rewrites and renumbers. -/
theorem processResultSet_rows_unrewritten (seq : UInt8) (hstate : self.state = .hydrateRows)
    (h : self.processResultSet env p c phase = some (self', p', flow)) :
    self.uncounted.processResultSet env (p.withSeq seq) c.unrewritten phase =
        some (self'.uncounted, p.withSeq seq, flow) ∧ Rewrites self p p' flow := by
  unfold processResultSet at h ⊢
  rw [show self.uncounted.state = .hydrateRows from hstate]
  simp only [hstate, Option.bind_eq_bind, Option.bind_eq_some_iff] at h
  obtain ⟨⟨self₁, p₁, flags⟩, hrow, seq₁, _, h⟩ := h
  obtain ⟨hrow', htype, hcase⟩ := hydrateRow_unrewritten seq hrow
  have hflags := (hydrateRow_cases hrow).1
  simp only [hrow', Option.bind_eq_bind, Option.bind_some]
  rw [show self₁.uncounted.skippedPackets = 0 from rfl, subtractSkipped_zero, Option.bind_some]
  by_cases hlast : p.pType = .error ∨ flags.isSome
  · rw [if_pos (by rwa [htype])] at h
    cases h
    refine ⟨by rw [if_pos (show (p.withSeq seq).pType = .error ∨ flags.isSome from hlast)]; rfl, .inl ?_⟩
    rcases hcase with rfl | hother
    · exact ⟨seq₁, rfl⟩
    · simp [hflags hother, hother] at hlast
  · rw [if_neg (by rwa [htype])] at h
    cases h
    refine ⟨by rw [if_neg (show ¬ ((p.withSeq seq).pType = .error ∨ flags.isSome) from hlast)], ?_⟩
    rcases hcase with rfl | hother
    · exact .inl ⟨seq₁, rfl⟩
    · exact .inr ⟨hstate, hother, htype.trans hother, _, rfl⟩

theorem processResultSet_unrewritten (seq : UInt8)
    (h : self.processResultSet env p c phase = some (self', p', flow)) :
    self.uncounted.processResultSet env (p.withSeq seq) c.unrewritten phase =
        some (self'.uncounted, p.withSeq seq, flow) ∧ Rewrites self p p' flow := by
  by_cases hrows : self.state = .hydrateRows
  · exact processResultSet_rows_unrewritten seq hrows h
  have hsame : ∃ seq, p = p.withSeq seq := ⟨p.header.seq, rfl⟩
  unfold processResultSet at h ⊢
  rw [show self.uncounted.state = self.state from rfl]
  cases hstate : self.state with
  | hydrateRows => exact absurd hstate hrows
  | initiated =>
    simp only [hstate, Option.bind_eq_bind, Option.bind_eq_some_iff] at h
    obtain ⟨lastCommand, hlast, h⟩ := h
    simp only [show c.unrewritten.lastCommand = some lastCommand from hlast, Option.bind_eq_bind, Option.bind_some]
    split_ifs at h ⊢
    · obtain ⟨clientFlag, hflag, h⟩ := Option.bind_eq_some_iff.1 h
      rw [show c.unrewritten.clientFlag = some clientFlag from hflag, Option.bind_some]
      split_ifs at h ⊢ <;> cases h <;> exact ⟨rfl, .inl hsame⟩
    · cases h; exact ⟨rfl, .inl hsame⟩
    · cases h; exact ⟨rfl, .inl hsame⟩
  | metaExchange =>
    simp only [hstate, Option.bind_eq_bind, Option.bind_eq_some_iff] at h
    obtain ⟨metadataFollows, hread, h⟩ := h
    cases h
    rw [Packet.withSeq_body, hread]
    exact ⟨rfl, .inl hsame⟩
  | columnCount =>
    simp only [hstate, Option.bind_eq_bind, Option.bind_eq_some_iff] at h
    obtain ⟨columnCount, hread, clientFlag, hflag, h⟩ := h
    cases h
    rw [Packet.withSeq_body, hread,
      show c.unrewritten.clientFlag = some clientFlag from hflag]
    exact ⟨rfl, .inl hsame⟩
  | hydrateColumns =>
    simp only [hstate, Option.bind_eq_bind, Option.bind_eq_some_iff] at h
    obtain ⟨lastCommand, hlast, h⟩ := h
    simp only [show c.unrewritten.lastCommand = some lastCommand from hlast, Option.bind_eq_bind, Option.bind_some]
    rw [Packet.withSeq_pType]
    split_ifs at h ⊢
    · cases h; exact ⟨rfl, .inl hsame⟩
    · obtain ⟨column, hcolumn, h⟩ := Option.bind_eq_some_iff.1 h
      cases h
      rw [show ColumnDefinition.fromPacket (p.withSeq seq) = some column from hcolumn, Option.bind_some]
      refine ⟨?_, .inl hsame⟩
      simp only [uncounted, hstate]
  | columnsHydrated =>
    simp only [hstate, Option.bind_eq_bind, Option.bind_eq_some_iff] at h
    obtain ⟨clientFlag, hflag, h⟩ := h
    simp only [show c.unrewritten.clientFlag = some clientFlag from hflag, Option.bind_eq_bind, Option.bind_some]
    rw [Packet.withSeq_pType]
    split_ifs at h ⊢ <;> cases h <;> exact ⟨rfl, .inl hsame⟩
  | complete =>
    simp only [hstate] at h
    cases h
    exact ⟨rfl, .inl hsame⟩
  | hydrateParams | paramsHydrated => simp only [hstate] at h; cases h

theorem completeOnErrorOrOk_unrewritten (seq : UInt8) (h : self.completeOnErrorOrOk p c = some self') :
    self.uncounted.completeOnErrorOrOk (p.withSeq seq) c.unrewritten = some self'.uncounted := by
  unfold completeOnErrorOrOk at h ⊢
  rw [Packet.withSeq_pType]
  split at h
  · obtain ⟨e, he, rfl⟩ := Option.map_eq_some_iff.1 h
    exact Option.map_eq_some_iff.2 ⟨e, he, rfl⟩
  · obtain ⟨ok, hok, rfl⟩ := Option.map_eq_some_iff.1 h
    exact Option.map_eq_some_iff.2 ⟨ok, hok, rfl⟩
  · cases h
    rfl

/-- **One round.** The number of a packet matters to a prepared statement's response alone, which is over in
one round. -/
theorem consumeStep_unrewritten {seq : UInt8}
    (hseq : seq = p.header.seq ∨ c.lastCommand.map (·.comCode) ≠ some .comStmtExecute)
    (h : self.consumeStep env p c = some (self', p', flow)) :
    self.uncounted.consumeStep env (p.withSeq seq) c.unrewritten = some (self'.uncounted, p.withSeq seq, flow) ∧
      Rewrites self p p' flow ∧ (flow = .consume → c.lastCommand.map (·.comCode) ≠ some .comStmtExecute) := by
  unfold consumeStep at h ⊢
  rw [show c.unrewritten.lastCommand = c.lastCommand from rfl]
  cases hlast : c.lastCommand with
  | none => rw [hlast] at h; cases h
  | some lastCommand =>
    simp only [hlast, Option.map_some, ne_eq, Option.some_inj] at h hseq ⊢
    split at h
    · rename_i hcode
      rw [hcode]
      have hprepare := processStmtPrepare_uncounted self p c c.phase seq
      rw [h] at hprepare
      obtain ⟨_, rfl, _⟩ := processStmtPrepare_keeps h
      exact ⟨hprepare, .inl ⟨p'.header.seq, rfl⟩, by simp⟩
    · rename_i hcode
      rw [hcode]
      cases h
      exact ⟨rfl, .inl ⟨p.header.seq, rfl⟩, by simp⟩
    · rename_i hprepare hreset
      simp only [Option.bind_eq_bind, Option.bind_eq_some_iff] at h
      obtain ⟨self₀, hself₀, h⟩ := h
      have hcomplete := (completeOnErrorOrOk_cases hself₀).2
      rw [completeOnErrorOrOk_unrewritten seq hself₀, Option.bind_eq_bind, Option.bind_some]
      by_cases hexecute : lastCommand.comCode = .comStmtExecute
      · rw [if_pos hexecute] at h ⊢
        have hp : p.withSeq seq = p := by rw [hseq.resolve_right (not_not.2 hexecute)]; rfl
        cases h
        exact ⟨by rw [hp]; rfl, .inl ⟨p.header.seq, rfl⟩, by simp⟩
      · rw [if_neg hexecute] at h ⊢
        obtain ⟨hround, hrewrites⟩ := processResultSet_unrewritten seq h
        refine ⟨hround, ?_, fun _ => hexecute⟩
        rcases hrewrites with hsame | ⟨hstate, hrow⟩
        · exact .inl hsame
        · rcases hcomplete with rfl | hcomplete
          · exact .inr ⟨hstate, hrow⟩
          · rw [hcomplete] at hstate; cases hstate

/-! ## One packet -/

theorem consumeLoop_unrewritten : ∀ {fuel : Nat} {self self' : ResponseAccumulator} {p p' : Packet} {phase : Phase}
    {seq : UInt8}, seq = p.header.seq ∨ c.lastCommand.map (·.comCode) ≠ some .comStmtExecute →
    consumeLoop env c fuel self p = some (self', p', phase) →
      consumeLoop env c.unrewritten fuel self.uncounted (p.withSeq seq) =
          some (self'.uncounted, p.withSeq seq, phase) ∧
        ((∃ seq, p' = p.withSeq seq) ∨ (p.pType = .other ∧ hydrates env c fuel self p ∧ p'.pType = .other))
  | 0, _, _, _, _, _, _, _, h => by cases h
  | fuel + 1, self, self', p, p', phase, seq, hseq, h => by
    rw [consumeLoop, hydrates]
    rcases consumeLoop_some h with hs | ⟨self₁, p₁, hs, hrest⟩
    · obtain ⟨hround, hrewrites, _⟩ := consumeStep_unrewritten hseq hs
      rw [hround]
      refine ⟨rfl, ?_⟩
      rcases hrewrites with hsame | ⟨hstate, hother, hother', _⟩
      · exact .inl hsame
      · exact .inr ⟨hother, by simp [hstate], hother'⟩
    · obtain ⟨hround, hrewrites, hcode⟩ := consumeStep_unrewritten hseq hs
      rcases hrewrites with ⟨seq₁, rfl⟩ | ⟨_, _, _, _, hdone⟩
      · obtain ⟨hloop, hkept⟩ := @consumeLoop_unrewritten fuel _ _ _ _ _ seq (.inr (hcode rfl)) hrest
        rw [hround]
        refine ⟨hloop, ?_⟩
        rcases hkept with ⟨seq₂, rfl⟩ | ⟨hother, hrow, hother'⟩
        · exact .inl ⟨seq₂, rfl⟩
        · exact .inr ⟨hother, by simp [hs, hrow], hother'⟩
      · cases hdone

end ResponseAccumulator

/-- What is put out for a packet is the packet under another number, or it is a row. -/
def KeptButRows (env : Env) (e : Step Connection Packet (Option Packet)) : Prop :=
  (∃ seq, e.output = if e.input.skip then none else some (e.input.withSeq seq)) ∨
    (ConsumedAsRow env e ∧ ∀ packet ∈ e.output, packet.pType = .other)

/-- **One packet** does what it would do had no UPDATE been recorded and no row been dropped. -/
theorem consumePacket_unrewritten {env : Env} {c c' : Connection} {p : Packet} {out : Option Packet}
    (h : consumePacket env c p = some (c', out)) :
    consumePacket env c.unrewritten p = some (c'.unrewritten, if p.skip then none else some p) ∧
      KeptButRows env ⟨c, p, c', out⟩ := by
  obtain ⟨⟨phase, p', delta⟩, hacc, he⟩ := Option.map_eq_some_iff.1 h
  cases he
  have hkept : p' = p → KeptButRows env
      ⟨c, p, syncConnectionState { c with phase } delta, if p'.skip then none else some p'⟩ := by
    rintro rfl
    exact .inl ⟨p'.header.seq, rfl⟩
  unfold consumePacket accumulate
  rw [show c.unrewritten.phase = c.phase from rfl]
  unfold accumulate at hacc
  cases hphase : c.phase with
  | pendingResponse =>
    rw [hphase] at hacc
    obtain ⟨⟨self', p₁, q⟩, hconsume, he⟩ := Option.map_eq_some_iff.1 hacc
    cases he
    obtain ⟨hloop, hrow⟩ := @ResponseAccumulator.consumeLoop_unrewritten env c _ _ _ _ _ _ p.header.seq (.inl rfl) hconsume
    refine ⟨?_, ?_⟩
    · exact Option.map_eq_some_iff.2 ⟨_, Option.map_eq_some_iff.2 ⟨_, hloop, rfl⟩, rfl⟩
    · rcases hrow with ⟨seq, rfl⟩ | ⟨hother, hrow, hother'⟩
      · exact .inl ⟨seq, rfl⟩
      · refine .inr ⟨⟨hother, hphase, hrow⟩, fun packet hpacket => ?_⟩
        split_ifs at hpacket
        · cases hpacket
        · cases hpacket; exact hother'
  | tlsExchange | authFailed => rw [hphase] at hacc; cases hacc
  | _ =>
    rw [hphase] at hacc
    obtain ⟨r, hr, he⟩ := Option.map_eq_some_iff.1 hacc
    cases he
    exact ⟨Option.map_eq_some_iff.2 ⟨_, Option.map_eq_some_iff.2 ⟨_, hr, rfl⟩, rfl⟩, hkept rfl⟩

/-! ## Runs -/

/-- One packet, under the diff log as it then is. -/
def packetStep (env : Env) (c : Connection) (i : StateDiffLog × Packet) : Option (Connection × Option Packet) :=
  consumePacket env (c.withDiff i.1) i.2

/-- What becomes of a connection with nothing to rewrite. -/
def bareStep (env : Env) (c : Connection) (packet : Packet) : Option Connection :=
  (consumePacket env c packet).map (·.1)

/-- Two steps on one packet that differ in no more than what a row becomes, the numbers behind it and
the count of dropped rows. -/
structure SameButRows (env : Env) (e d : Step Connection (StateDiffLog × Packet) (Option Packet)) : Prop where
  packet : e.input.2 = d.input.2
  phase : e.after.phase = d.after.phase
  state : e.after.queryResponse.state = d.after.queryResponse.state
  columns : e.after.queryResponse.columns = d.after.queryResponse.columns
  columnCount : e.after.queryResponse.columnCount = d.after.queryResponse.columnCount
  rest : e.after.unrewritten = d.after.unrewritten
  kept : ∀ s ∈ [e, d], KeptButRows env ⟨s.before.withDiff s.input.1, s.input.2, s.after, s.output⟩

/-- **Row rewriting does not disturb the protocol.** Two runs from one connection on the same packets,
under any diff logs, neither of which panics: after each packet they are in the same phase, with the same
state, columns and column count of the response accumulator, and what they put out for it differs, but for
its number, only if it is a row. -/
theorem row_rewriting_keeps_protocol {env : Env} {c c₁ c₂ : Connection} {is js : List (StateDiffLog × Packet)}
    {outs₁ outs₂ : List (Option Packet)} (hpackets : is.map (·.2) = js.map (·.2))
    (h₁ : run (packetStep env) c is = some (c₁, outs₁)) (h₂ : run (packetStep env) c js = some (c₂, outs₂)) :
    List.Forall₂ (SameButRows env) (transcript (packetStep env) c is) (transcript (packetStep env) c js) := by
  have hview : ∀ s i s' o, packetStep env s i = some (s', o) → bareStep env s.unrewritten i.2 = some s'.unrewritten := by
    intro s i s' o h
    have hstep : consumePacket env s.unrewritten i.2 = _ := (consumePacket_unrewritten h).1
    rw [bareStep, hstep]
    rfl
  have halike := transcript_view Connection.unrewritten Prod.snd (bareStep env) hview (Eq.refl c.unrewritten)
    hpackets h₁ h₂
  refine halike.imp ?_
  rintro e d ⟨hinput, hafter, he, hd⟩
  have hresponse : e.after.queryResponse.uncounted = d.after.queryResponse.uncounted :=
    congrArg (·.queryResponse) hafter
  refine ⟨hinput, congrArg (·.phase) hafter, congrArg (·.state) hresponse, congrArg (·.columns) hresponse,
    congrArg (·.columnCount) hresponse, hafter, ?_⟩
  intro s hs
  rcases List.mem_pair.1 hs with rfl | rfl
  · exact (consumePacket_unrewritten he).2
  · exact (consumePacket_unrewritten hd).2

/-- `UPDATE t SET x = 'a'` -/
def sampleRecorded : StateDiffLog := (∅ : StateDiffLog).insert "t" ⟨[("0", none, (∅ : Assignments).insert "x" (some "a"))]⟩

/-- The response of one row, and what comes out of it. -/
def sampleResponse : List Packet :=
  [samplePacket 1 [1] .other, samplePacket 2 sampleColumn.encode .other, samplePacket 3 [1, 0x31] .other,
    samplePacket 4 [0xfe, 0, 0, 2, 0, 0, 0] .eof]

/-- The row is rewritten in the second run alone. -/
theorem row_rewriting_keeps_protocol_one :
    ∃ c₁ c₂ outs₁ outs₂,
      run (packetStep sampleEnv) (sampleAwaiting 0x01000200) (sampleResponse.map (∅, ·)) = some (c₁, outs₁) ∧
      run (packetStep sampleEnv) (sampleAwaiting 0x01000200) (sampleResponse.map (sampleRecorded, ·)) = some (c₂, outs₂) ∧
      outs₁[2]? = some (some (samplePacket 3 [1, 0x31] .other)) ∧
      outs₂[2]? = some (some (samplePacket 3 [1, 0x61] .other)) ∧
      List.Forall₂ (SameButRows sampleEnv)
        (transcript (packetStep sampleEnv) (sampleAwaiting 0x01000200) (sampleResponse.map (∅, ·)))
        (transcript (packetStep sampleEnv) (sampleAwaiting 0x01000200) (sampleResponse.map (sampleRecorded, ·))) :=
  ⟨_, _, _, _, rfl, rfl, rfl, rfl, row_rewriting_keeps_protocol (by simp) rfl rfl⟩

end MocksySql
