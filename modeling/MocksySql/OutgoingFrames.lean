import MocksySql.AuthGate
import MocksySql.ReadYourWrites
import MocksySql.Transparency
/-!
# The bytes the proxy writes

`generate_outgoing_frame` (`state_handler.rs:157`) writes the packets of a read one behind the other, three bytes of the
size in the header (`packet.rs:41`). A row that `override_row` builds from recorded values is of any length.

* `framesBack_iff` — when the bytes can be told apart again.
* `emitted_frames_back` — over any run, unless a row has outgrown its header.
* `long_row_truncated` — such a row.
-/

namespace MocksySql
open FieldDecode PartialRun ByteStream ConditionalUpdate

/-- The header has the length of the body. -/
def Packet.Sized (packet : Packet) : Prop := packet.header.size = packet.body.length

/-- The bytes written for these packets, split by their headers, are their bodies and numbers in order. -/
def FramesBack (packets : List Packet) : Prop :=
  (frames.split (generateOutgoingFrame packets)).1.map (fun f => (f.1.seq, f.2)) =
      packets.map (fun p => (p.header.seq, p.body)) ∧
    (frames.split (generateOutgoingFrame packets)).2 = []

/-! ## Headers and bodies -/

/-- A frame that is split off has a body its header can announce. -/
theorem split_announced (bytes : Bytes) : ∀ f ∈ (frames.split bytes).1, f.2.length = f.1.size ∧ f.1.size < 2 ^ 24 :=
  frames.forall_mem_split (fun _ _ _ h => (nextFrame_eq_some h).2) bytes

theorem framesBack_iff {packets : List Packet} (hsized : ∀ p ∈ packets, p.Sized) :
    FramesBack packets ↔ ∀ p ∈ packets, p.body.length < 2 ^ 24 := by
  constructor
  · rintro ⟨hback, -⟩ p hp
    have hmem : (p.header.seq, p.body) ∈ packets.map fun p => (p.header.seq, p.body) := List.mem_map_of_mem hp
    rw [← hback] at hmem
    obtain ⟨f, hf, heq⟩ := List.mem_map.1 hmem
    obtain ⟨hlength, hsize⟩ := split_announced _ f hf
    rw [← (Prod.mk.inj heq).2, hlength]
    exact hsize
  · intro hshort
    have hbytes : generateOutgoingFrame packets =
        (packets.map fun p => ((p.header, p.body) : Frame)).flatMap Frame.toBytes ++ [] := by
      rw [List.append_nil, List.flatMap_map]
      rfl
    have hsplit := frames.split_render Frame.toBytes [] (packets.map fun p => ((p.header, p.body) : Frame)) (by
      intro f hf rest
      obtain ⟨p, hp, rfl⟩ := List.mem_map.1 hf
      exact nextFrame_toBytes (hsized p hp).symm ((hsized p hp).trans_lt (hshort p hp)) rest)
    rw [FramesBack, hbytes, hsplit, frames.split_nil]
    simp

/-! ## Packets on their way -/

namespace ResponseAccumulator
variable {env : Env} {self self' : ResponseAccumulator} {packet packet' : Packet} {connection : Connection}

/-- `override_row` gives the packet a new header. -/
theorem overrideRow_sized {diff : StateDifference} (h : self.overrideRow packet diff connection = some (self', packet')) :
    packet'.Sized := by
  obtain ⟨_, _, _, _, _, _, _, _, _, _, _, rfl, rfl⟩ := overrideRow_cases h
  exact rfl

theorem consumeStep_sized {flow : Flow} (h : self.consumeStep env packet connection = some (self', packet', flow))
    (hsized : packet.Sized) : packet'.Sized := by
  rcases (consumeStep_cases h).2 with ⟨rfl, -⟩ | ⟨-, self₁, packet₁, flags, seq, hrow, -, rfl, -⟩
  · exact hsized
  · rcases (hydrateRow_cases hrow).2 with ⟨-, rfl⟩ | ⟨-, table, diff, -, hover⟩
    · exact hsized
    · have hrow₁ : packet₁.Sized := overrideRow_sized hover
      exact hrow₁

theorem consumeLoop_sized : ∀ {fuel : Nat} {self self' : ResponseAccumulator} {packet packet' : Packet} {phase : Phase},
    consumeLoop env connection fuel self packet = some (self', packet', phase) → packet.Sized → packet'.Sized
  | 0, _, _, _, _, _, h, _ => by cases h
  | fuel + 1, self, self', packet, packet', phase, h, hsized => by
    rcases consumeLoop_some h with hs | ⟨self₁, packet₁, hs, hrest⟩
    · exact consumeStep_sized hs hsized
    · exact consumeLoop_sized hrest (consumeStep_sized hs hsized)

end ResponseAccumulator

section
variable {env : Env} {c c' : Connection}

theorem consumePacket_sized {packet : Packet} {out : Option Packet} (h : consumePacket env c packet = some (c', out))
    (hsized : packet.Sized) : ∀ p, out = some p → p.Sized := by
  obtain ⟨⟨phase, packet', delta⟩, hacc, he⟩ := Option.map_eq_some_iff.1 h
  have hkept : packet'.Sized := by
    rcases accumulate_cases hacc with ⟨rfl, -⟩ | ⟨-, self', -, hconsume⟩
    · exact hsized
    · exact ResponseAccumulator.consumeLoop_sized hconsume hsized
  intro p hp
  obtain ⟨-, rfl⟩ := Prod.mk.inj he
  split_ifs at hp
  cases hp
  exact hkept

theorem mem_mapM_toPacket {phase : Phase} {fs : List Frame} {packets : List Packet}
    (h : fs.mapM (Frame.toPacket phase) = some packets) : ∀ p ∈ packets, ∃ f ∈ fs, f.toPacket phase = some p := by
  induction fs generalizing packets with
  | nil =>
    cases h
    exact List.forall_mem_nil _
  | cons f fs ih =>
    obtain ⟨p, ps, hp, hps, rfl⟩ := mapM_toPacket_cons h
    rw [List.forall_mem_cons]
    refine ⟨⟨f, List.mem_cons_self .., hp⟩, fun q hq => ?_⟩
    obtain ⟨g, hg, hgq⟩ := ih hps q hq
    exact ⟨g, List.mem_cons_of_mem f hg, hgq⟩

/-- The packets of a read come with the length their header announces. -/
theorem frameSteps_input {i : StateDiffLog × SocketRead} : ∀ s ∈ frameSteps env c i,
    consumePacket env s.before s.input = some (s.after, s.output) ∧ s.input.Sized ∧ s.input.body.length < 2 ^ 24 := by
  intro s hs
  rw [frameSteps] at hs
  cases hmake : makePackets i.2.buf (c.withDiff i.1) i.2.readBytes with
  | none =>
    rw [hmake] at hs
    cases hs
  | some r =>
    rw [hmake] at hs
    obtain ⟨hmem, hstep⟩ := transcript_step s hs
    obtain ⟨f, hf, hpacket⟩ := mem_mapM_toPacket (makePackets_some hmake).2 _ hmem
    obtain ⟨hlength, hsize⟩ := split_announced _ f hf
    obtain ⟨pType, -, hinput⟩ := Option.map_eq_some_iff.1 hpacket
    rw [← hinput]
    exact ⟨by rw [hinput]; exact hstep, hlength.symm, hlength.trans_lt hsize⟩

/-- **What the proxy emits frames back to what it meant**, unless a row has outgrown its header. In every run, whatever
the diff log is at each read, the packets of a read have the sizes of their bodies in their headers, and the bytes written
for them are split into exactly these packets if and only if no row among them has 2 ^ 24 bytes. A packet that is no row
goes out with the body it came with, which is shorter. -/
theorem emitted_frames_back (env : Env) (c : Connection) (reads : List (StateDiffLog × SocketRead)) :
    ∀ e ∈ transcript (frameStep env) c reads,
      e.output = (frameSteps env e.before e.input).filterMap (·.output) ∧ (∀ p ∈ e.output, p.Sized) ∧
      (FramesBack e.output ↔ ∀ s ∈ frameSteps env e.before e.input, ConsumedAsRow env s →
        ∀ p, s.output = some p → p.body.length < 2 ^ 24) ∧
      ∀ s ∈ frameSteps env e.before e.input, ¬ ConsumedAsRow env s →
        ∃ p, s.output = some p ∧ p.body = s.input.body ∧ p.body.length < 2 ^ 24 := by
  intro e he
  obtain ⟨-, hstep⟩ := transcript_step e he
  obtain ⟨-, hout, hbody, -⟩ := frameStep_steps hstep
  have hmem : ∀ p, p ∈ e.output ↔ ∃ s ∈ frameSteps env e.before e.input, s.output = some p := by
    intro p
    rw [hout, List.mem_filterMap]
  have hsized : ∀ p ∈ e.output, p.Sized := by
    intro p hp
    obtain ⟨s, hs, hsp⟩ := (hmem p).1 hp
    obtain ⟨hconsume, hinput, -⟩ := frameSteps_input s hs
    exact consumePacket_sized hconsume hinput p hsp
  have hother : ∀ s ∈ frameSteps env e.before e.input, ¬ ConsumedAsRow env s →
      ∃ p, s.output = some p ∧ p.body = s.input.body ∧ p.body.length < 2 ^ 24 := by
    intro s hs hrow
    obtain ⟨p, hsp, hp⟩ := hbody s hs hrow
    refine ⟨p, hsp, hp, ?_⟩
    rw [hp]
    exact (frameSteps_input s hs).2.2
  refine ⟨hout, hsized, (framesBack_iff hsized).trans
    ⟨fun hshort s hs _ p hsp => hshort p ((hmem p).2 ⟨s, hs, hsp⟩), ?_⟩, hother⟩
  intro hrows p hp
  obtain ⟨s, hs, hsp⟩ := (hmem p).1 hp
  by_cases hrow : ConsumedAsRow env s
  · exact hrows s hs hrow p hsp
  · obtain ⟨q, hsq, -, hq⟩ := hother s hs hrow
    rw [hsp] at hsq
    cases hsq
    exact hq

end

/-! ## A short row, and a long one -/

/-- The parser on one SELECT. -/
def selectEnv : Env := { sampleEnv with
  parseSql := fun text =>
    if text = "select x, y from t" then some [.query (.select [.table ⟨[], ⟨"t", none⟩⟩] none [])] else none }

/-- Greeting, answer, OK, the SELECT, and the response up to its rows. -/
def selectReads : List (StateDiffLog × SocketRead) :=
  [sampleGreeting, sampleAnswer, sampleOk, [19, 0, 0, 0, 0x03] ++ asBytes "select x, y from t",
    generateOutgoingFrame [samplePacket 1 [2] .other, samplePacket 2 sampleColumn.encode .other,
      samplePacket 3 (ColumnDefinition.encode { sampleColumn with name := "y", orgName := "y" }) .other,
      samplePacket 4 [0xfe, 0, 0, 2, 0] .eof]].map fun bytes => (∅, .whole bytes)

/-- The connection waits for rows of `x` and `y`. -/
structure AwaitsRow (c : Connection) : Prop where
  text : AwaitsText c
  selection : ∃ command, c.lastCommand = some command ∧ command.selection = none
  state : c.queryResponse.state = .hydrateRows
  columns : c.queryResponse.columns = sampleRows.columns
  skipped : c.queryResponse.skippedPackets = 0
  whole : c.partialBytes = none

theorem selectReads_run : ∃ c outs,
    run (frameStep selectEnv) (.new .plain .plain ∅ none none) selectReads = some (c, outs) ∧ AwaitsRow c := by
  have hrun : ∃ c outs command, run (frameStep selectEnv) (.new .plain .plain ∅ none none) selectReads = some (c, outs) ∧
      c.phase = .pendingResponse ∧ c.lastCommand = some command ∧ command.comCode = .comQuery ∧ command.selection = none ∧
      c.queryResponse.state = .hydrateRows ∧ c.queryResponse.columns = sampleRows.columns ∧
      c.queryResponse.skippedPackets = 0 ∧ c.partialBytes = none :=
    ⟨_, _, _, rfl, rfl, rfl, rfl, rfl, rfl, rfl, rfl, rfl⟩
  obtain ⟨c, outs, command, hrun, hphase, hcommand, hquery, hselection, hstate, hcolumns, hskipped, hwhole⟩ := hrun
  exact ⟨c, outs, hrun, ⟨hphase, command, hcommand, by simp [hquery]⟩, ⟨command, hcommand, hselection⟩, hstate, hcolumns,
    hskipped, hwhole⟩

/-- `UPDATE t SET x = value`, recorded. -/
def recordedX (value : String) : StateDifference := ⟨[("0", none, (∅ : Assignments).insert "x" (some value))]⟩

/-- The row as it is read, as it is written. -/
def bodyOf (x y : String) : Bytes := ResponseAccumulator.encodeField (some x) ++ ResponseAccumulator.encodeField (some y)

def rowPacket (x y : String) : Packet := ⟨{ size := (bodyOf x y).length, seq := 5 }, bodyOf x y, .other, false⟩

def rowOf (x y : String) : Row := ((∅ : Row).insert "y" (some y)).insert "x" (some x)

theorem lookup_rowOf (x y : String) : (rowOf x y).lookup "x" = some (some x) ∧ (rowOf x y).lookup "y" = some (some y) := by
  refine ⟨AList.lookup_insert _, ?_⟩
  rw [rowOf, AList.lookup_insert_ne (by decide), AList.lookup_insert]

theorem encodeRow_rowOf (x y : String) : ResponseAccumulator.encodeRow sampleRows.columns (rowOf x y) = bodyOf x y := by
  simp [ResponseAccumulator.encodeRow, sampleRows, sampleColumn, lookup_rowOf x y, bodyOf]

theorem mem_rowOf (x y c : String) : c ∈ rowOf x y ↔ c ∈ sampleRows.columns.map (·.orgName) := by
  rw [rowOf, AList.mem_insert, AList.mem_insert]
  simp [sampleRows, sampleColumn]

theorem overrideRow_recordedX {self : ResponseAccumulator} {c : Connection} {command : Command} {value y : String}
    (hcolumns : self.columns = sampleRows.columns) (hcommand : c.lastCommand = some command)
    (hselection : command.selection = none) (hy : ResponseAccumulator.Sendable (some y)) :
    self.overrideRow (rowPacket "1" y) (recordedX value) c = some (self, rowPacket value y) := by
  have hnames : sampleRows.columns.map (·.orgName) = ["x", "y"] := rfl
  obtain ⟨hx, hy'⟩ := lookup_rowOf "1" y
  have hsend : ∀ column ∈ self.columns, ResponseAccumulator.Sendable (((rowOf "1" y).lookup column.orgName).getD none) := by
    rw [hcolumns]
    intro column hcolumn
    have hname : column.orgName ∈ sampleRows.columns.map (·.orgName) := List.mem_map_of_mem hcolumn
    rw [hnames, List.mem_cons, List.mem_singleton] at hname
    rcases hname with hname | hname
    · rw [hname, hx]
      decide
    · rw [hname, hy']
      exact hy
  have hwritten : ResponseAccumulator.encodeRow sampleRows.columns (rowRows.applyLast (rowOf "1" y)
      ([(none, (∅ : Assignments).insert "x" (some value))].map recordedUpdate)) = bodyOf value y := by
    rw [← encodeRow_rowOf value y]
    refine ResponseAccumulator.encodeRow_congr fun name hname => ?_
    obtain ⟨hvx, hvy⟩ := lookup_rowOf value y
    rw [hnames, List.mem_cons, List.mem_singleton] at hname
    rw [lookup_applyLast]
    rcases hname with rfl | rfl
    · rw [hx, hvx]
      rfl
    · rw [hy', hvy]
      rfl
  have hover := @ResponseAccumulator.overrideRow_eq self (rowPacket "1" y) (recordedX value) c command (rowOf "1" y)
    [(none, (∅ : Assignments).insert "x" (some value))]
    (by rw [hcolumns]; exact ⟨by decide, mem_rowOf "1" y⟩) hsend (by rw [hcolumns, encodeRow_rowOf]; rfl) rfl
    (by simp [Supported]) hcommand
  rw [← hcolumns] at hwritten
  rw [hover, hselection, hwritten]
  simp [ResponseAccumulator.deselect, rowPacket]

/-- A read with one row, rewritten on its way. -/
theorem frameStep_recordedX {env : Env} {c : Connection} {value y : String} (h : AwaitsRow c)
    (hy : ResponseAccumulator.Sendable (some y)) (hsize : (bodyOf "1" y).length < 2 ^ 24) :
    ∃ c', frameStep env c ((∅ : StateDiffLog).insert "t" (recordedX value), .whole (rowPacket "1" y).toBytes) =
      some (c', [rowPacket value y]) := by
  generalize hd : (∅ : StateDiffLog).insert "t" (recordedX value) = diff
  obtain ⟨command, hcommand, hselection⟩ := h.selection
  have hphase : (c.withDiff diff).phase = .pendingResponse := h.text.phase
  have hpacket : Frame.toPacket .pendingResponse ((rowPacket "1" y).header, bodyOf "1" y) = some (rowPacket "1" y) := by
    have hfirst : ResponseAccumulator.encodeField (some "1") = [0x01, 0x31] := by decide
    simp [Frame.toPacket, getPacketType, rowPacket, bodyOf, hfirst]
  have hnext : frames.next ((c.withDiff diff).partialBytes.getD [] ++ (SocketRead.whole (rowPacket "1" y).toBytes).chunk) =
      some (((rowPacket "1" y).header, bodyOf "1" y), []) := by
    have hframe := @nextFrame_toBytes ((rowPacket "1" y).header, bodyOf "1" y) rfl hsize []
    have hnone : (c.withDiff diff).partialBytes = none := h.whole
    rw [List.append_nil] at hframe
    rw [hnone, SocketRead.chunk, SocketRead.whole, List.take_length]
    exact hframe
  have hrow : c.queryResponse.hydrateRow (rowPacket "1" y) (c.withDiff diff) =
      some (c.queryResponse, rowPacket value y, none) := by
    have hother : (rowPacket "1" y).pType = .other := rfl
    have hcolumn : c.queryResponse.columns.head? = some sampleColumn := by rw [h.columns]; rfl
    have hlookup : (c.withDiff diff).diff.lookup sampleColumn.orgTable = some (recordedX value) := by
      rw [Connection.withDiff, ← hd]
      exact AList.lookup_insert _
    have hover := @overrideRow_recordedX c.queryResponse (c.withDiff diff) command value y h.columns hcommand hselection hy
    simp only [ResponseAccumulator.hydrateRow, hother, hcolumn, hlookup, hover, Option.map_some]
  have hseq : ResponseAccumulator.subtractSkipped env (rowPacket "1" y).header.seq c.queryResponse.skippedPackets =
      some (rowPacket "1" y).header.seq := by
    rw [h.skipped]
    simp [ResponseAccumulator.subtractSkipped]
  have hconsume := @ResponseAccumulator.consumeLoop_rewrite env (c.withDiff diff) c.queryResponse 15 (rowPacket "1" y)
    ⟨h.text.phase, h.text.command⟩ rfl h.state
  simp only [hrow, Option.bind_some, hseq, Option.map_some] at hconsume
  obtain ⟨c', hstep⟩ : ∃ c', consumePacket env (c.withDiff diff) (rowPacket "1" y) = some (c', some (rowPacket value y)) :=
    ⟨_, consumePacket_pending (c := c.withDiff diff) hphase hconsume⟩
  refine ⟨c', ?_⟩
  rw [frameStep, processIncomingFrame, makePackets_eq, frames.split_of_some hnext, frames.split_nil,
    Connection.withResidual_nil (show (c.withDiff diff).partialBytes = none from h.whole), hphase]
  simp [hpacket, InOrder, run_singleton, hstep]

/-- The run up to the row and the read with the row. -/
theorem recordedX_mem {value y : String} (hy : ResponseAccumulator.Sendable (some y)) (hsize : (bodyOf "1" y).length < 2 ^ 24) :
    ∃ e ∈ transcript (frameStep selectEnv) (.new .plain .plain ∅ none none)
        (selectReads ++ [((∅ : StateDiffLog).insert "t" (recordedX value), .whole (rowPacket "1" y).toBytes)]),
      e.output = [rowPacket value y] := by
  obtain ⟨c, outs, hrun, hawaits⟩ := selectReads_run
  obtain ⟨c', hstep⟩ := @frameStep_recordedX selectEnv c value y hawaits hy hsize
  rw [transcript_append hrun, transcript_cons hstep]
  exact ⟨_, List.mem_append_right _ (List.mem_cons_self ..), rfl⟩

/-- A row with a short value frames back. -/
theorem emitted_frames_back_one : ∃ reads, ∃ e ∈ transcript (frameStep selectEnv) (.new .plain .plain ∅ none none) reads,
    e.output = [rowPacket "a" "2"] ∧ FramesBack e.output := by
  obtain ⟨e, he, hout⟩ := @recordedX_mem "a" "2" (by decide) (by decide)
  refine ⟨_, e, he, hout, (emitted_frames_back _ _ _ e he).2.2.1.2 fun s hs _ p hp => ?_⟩
  obtain ⟨-, hsteps, -⟩ := frameStep_steps (transcript_step e he).2
  have hmem : p ∈ e.output := by
    rw [hsteps]
    exact List.mem_filterMap.2 ⟨s, hs, hp⟩
  rw [hout, List.mem_singleton] at hmem
  subst hmem
  decide

def longValue (n : Nat) : String := String.ofList (List.replicate n 'a')

theorem longValue_length (n : Nat) : (asBytes (longValue n)).length = n := by
  rw [longValue, asBytes_ofList]
  induction n with
  | zero => rfl
  | succ n ih =>
    rw [List.replicate_succ, List.flatMap_cons, List.length_append, ih]
    have ha : (String.utf8EncodeChar 'a').length = 1 := by decide
    omega

theorem longValue_sendable {n : Nat} (hn : n < 2 ^ 64) : ResponseAccumulator.Sendable (some (longValue n)) := by
  refine ⟨?_, ?_⟩
  · rintro _ ⟨⟩
    rwa [longValue_length]
  · rintro _ ⟨⟩ c hc
    rw [longValue, String.toList_ofList] at hc
    rw [List.eq_of_mem_replicate hc]
    decide

/-- A value of 2 ^ 23 bytes is recorded for `x`, and the row has one in `y`. -/
theorem long_row_truncated : ∃ value : String, (asBytes value).length = 2 ^ 23 ∧ (bodyOf "1" value).length < 2 ^ 24 ∧
    ∃ e ∈ transcript (frameStep selectEnv) (.new .plain .plain ∅ none none)
        (selectReads ++ [((∅ : StateDiffLog).insert "t" (recordedX value), .whole (rowPacket "1" value).toBytes)]),
      e.output = [rowPacket value value] ∧ 2 ^ 24 ≤ (bodyOf value value).length ∧ ¬ FramesBack e.output := by
  obtain ⟨value, hlength, hsendable⟩ : ∃ value, (asBytes value).length = 2 ^ 23 ∧ ResponseAccumulator.Sendable (some value) :=
    ⟨longValue (2 ^ 23), longValue_length _, longValue_sendable (by decide)⟩
  have hfield : (ResponseAccumulator.encodeField (some value)).length = 4 + 2 ^ 23 := by
    have hprefix : (IntLenEnc.encode (2 ^ 23)).length = 4 := by decide
    rw [ResponseAccumulator.encodeField, StringLenEnc.encode, List.length_append, hlength, hprefix]
  have hfirst : (ResponseAccumulator.encodeField (some "1")).length = 2 := by decide
  have hread : (bodyOf "1" value).length < 2 ^ 24 := by
    rw [bodyOf, List.length_append, hfield, hfirst]
    decide
  have hwritten : 2 ^ 24 ≤ (bodyOf value value).length := by
    rw [bodyOf, List.length_append, hfield]
    decide
  obtain ⟨e, he, hout⟩ := recordedX_mem hsendable hread
  refine ⟨value, hlength, hread, e, he, hout, hwritten, ?_⟩
  rw [hout, framesBack_iff (by simp [Packet.Sized, rowPacket])]
  intro hshort
  exact absurd (hshort _ (List.mem_singleton.2 rfl)) (Nat.not_lt.2 hwritten)

end MocksySql
