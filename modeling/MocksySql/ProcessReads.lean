import MocksySql.DiffLogHistory
import MocksySql.Isolation
/-!
# What clients read back

`ReadYourWrites` is about one row and the UPDATEs of its table. Here the UPDATEs are those that any client of a process
has been asked to record, and the row is one that any of them reads.

| here | there |
| --- | --- |
| `liveUpdates` | what `diff.iter()` goes through in `override_row` (`result_set.rs:122-141`) |
| `ReadsRow`    | `PacketType::Other` in `State::HydrateRows`, in the response to a COM_QUERY (`:351-362`) |
| `Delivered`   | the packet that `override_row` has rewritten, or has marked with `skip` (`:143-176`) |

* `overrideRow_reads` — one row, whatever its table's UPDATEs are, as long as nothing panics.
* `process_reads_writes` — every run of a process.
-/

namespace MocksySql
open FieldDecode PartialRun ConditionalUpdate

/-! ## One row -/

namespace ResponseAccumulator

/-- **A row that comes out** is the row as the last recorded UPDATE that matches it leaves it. -/
theorem overrideRow_reads {self self' : ResponseAccumulator} {packet packet' : Packet} {diff : StateDifference}
    {connection : Connection} {command : Command} {row : Row} (hrow : RowPacket self packet row)
    (hcommand : connection.lastCommand = some command)
    (h : self.overrideRow packet diff connection = some (self', packet')) :
    ∃ skipped, deselect (rowRows.applyLast row (diff.iter.map fun e => recordedUpdate e.2)) command.selection = some skipped ∧
      packet'.body = encodeRow self.columns (rowRows.applyLast row (diff.iter.map fun e => recordedUpdate e.2)) ∧
      packet'.skip = (packet.skip || skipped) := by
  obtain ⟨row₁, overrideState, row₂, newBody, command', skipped, hparse, hchoose, hrewrite, hcommand', hskipped, rfl, rfl⟩ :=
    overrideRow_cases h
  obtain rfl : command = command' := Option.some_inj.1 (hcommand.symm.trans hcommand')
  obtain ⟨row₁', hparse', hread, hlength⟩ := parseRow_encodeRow hrow.columns hrow.sendable hrow.body
  obtain rfl : row₁' = row₁ := Option.some_inj.1 (hparse'.symm.trans hparse)
  have hlast : Rows.lastMatch row (diff.iter.map fun e => recordedUpdate e.2) = overrideState := by
    rw [← (chooseOverride_eq_some_iff.1 hchoose).2, Option.or_none, List.map_map]
    refine Rows.lastMatch_congr fun u hu => ?_
    obtain ⟨e, -, rfl⟩ := List.mem_map.1 hu
    exact applies_congr fun _ _ c _ => (hread c).symm
  -- the row that was read back and the one that was sent are overridden alike
  have hoverride : ∀ c, (rowRows.override row₁' overrideState).lookup c =
      (rowRows.applyLast row (diff.iter.map fun e => recordedUpdate e.2)).lookup c := by
    intro c
    rw [Rows.applyLast, hlast, lookup_override, lookup_override, hread]
  obtain ⟨row₃, hall, hrow₃⟩ := rewriteFields_all overrideState (hrow.columns.congr hread)
  rw [hlength] at hrewrite
  obtain ⟨rfl, rfl⟩ := Prod.mk.inj (Option.some_inj.1 (hall.symm.trans hrewrite))
  refine ⟨skipped, ?_, encodeRow_congr fun c _ => hoverride c, rfl⟩
  rw [← hskipped]
  exact deselect_congr fun c => ((hrow₃ c).trans (hoverride c)).symm

/-- A row ends the call. -/
theorem consumeLoop_reads {env : Env} {fuel : Nat} {self self' : ResponseAccumulator} {packet packet' : Packet}
    {connection : Connection} {phase : Phase} {command : Command} (hcommand : connection.lastCommand = some command)
    (hquery : command.comCode = .comQuery) (htyped : packet.pType = .other) (hstate : self.state = .hydrateRows)
    (h : consumeLoop env connection (fuel + 1) self packet = some (self', packet', phase)) :
    ∃ packet₁ flags seq, self.hydrateRow packet connection = some (self', packet₁, flags) ∧ packet' = packet₁.withSeq seq := by
  have hround : self.consumeStep env packet connection = self.processResultSet env packet connection connection.phase := by
    simp [consumeStep, hcommand, hquery, completeOnErrorOrOk, htyped]
  have hdone : ∀ {self₁ packet₁ flow}, self.consumeStep env packet connection = some (self₁, packet₁, flow) →
      (∃ packet₂ flags seq, self.hydrateRow packet connection = some (self₁, packet₂, flags) ∧
        packet₁ = packet₂.withSeq seq) ∧ flow ≠ .consume := by
    intro self₁ packet₁ flow hs
    simp only [hround, processResultSet, hstate, Option.bind_eq_bind, Option.bind_eq_some_iff] at hs
    obtain ⟨⟨self₂, packet₂, flags⟩, hhydrate, seq, _, hs⟩ := hs
    obtain ⟨-, htype, -, rfl⟩ := hydrateRow_other htyped hhydrate
    rw [if_neg (by simp [htype])] at hs
    cases hs
    exact ⟨⟨packet₂, none, seq, hhydrate, rfl⟩, by simp⟩
  rcases consumeLoop_some h with hs | ⟨self₁, packet₁, hs, -⟩
  · exact (hdone hs).1
  · exact absurd rfl (hdone hs).2

end ResponseAccumulator

/-- The packet is consumed as a row of this table, in the response to this query. -/
structure ReadsRow (s : Step Connection Packet (Option Packet)) (tableName : String) (command : Command) (row : Row) :
    Prop where
  phase : s.before.phase = .pendingResponse
  state : s.before.queryResponse.state = .hydrateRows
  typed : s.input.pType = .other
  asked : s.before.lastCommand = some command
  query : command.comCode = .comQuery
  table : s.before.queryResponse.columns.head?.map (·.orgTable) = some tableName
  packet : RowPacket s.before.queryResponse s.input row

/-- What comes out of a row that has become this one: its packet, or nothing if the query's own WHERE is false of it. -/
inductive Delivered (s : Step Connection Packet (Option Packet)) (command : Command) (updates : List (Update Row Assignments))
    (row : Row) : Prop
  | left_out : ResponseAccumulator.deselect row command.selection = some true → s.output = none →
      Delivered s command updates row
  | sent {packet : Packet} : s.output = some packet →
      packet.body = ResponseAccumulator.encodeRow s.before.queryResponse.columns row →
      (updates ≠ [] → ResponseAccumulator.deselect row command.selection = some false) → Delivered s command updates row

theorem Delivered.congr {s : Step Connection Packet (Option Packet)} {command : Command}
    {updates : List (Update Row Assignments)} {row row' : Row} (hlookup : ∀ c, row.lookup c = row'.lookup c)
    (h : Delivered s command updates row) : Delivered s command updates row' := by
  have hdeselect : ResponseAccumulator.deselect row command.selection = ResponseAccumulator.deselect row' command.selection :=
    ResponseAccumulator.deselect_congr hlookup
  cases h with
  | left_out hskipped hout => exact .left_out (hdeselect ▸ hskipped) hout
  | sent hout hbody hkept =>
    exact .sent hout (hbody.trans (ResponseAccumulator.encodeRow_congr fun c _ => hlookup c)) fun hne => hdeselect ▸ hkept hne

section
variable {env : Env} {s : Step Connection Packet (Option Packet)} {tableName : String} {command : Command} {row : Row}

theorem ReadsRow.delivered (h : ReadsRow s tableName command row) (hfresh : s.input.skip = false)
    (hstep : consumePacket env s.before s.input = some (s.after, s.output)) :
    Delivered s command ((tableEntries s.before.diff tableName).map fun e => recordedUpdate e.2)
      (rowRows.applyLast row ((tableEntries s.before.diff tableName).map fun e => recordedUpdate e.2)) := by
  obtain ⟨self', packet', phase, hconsume, -⟩ := consumePacket_pending_cases h.phase hstep
  rw [consumePacket_pending h.phase hconsume] at hstep
  obtain ⟨-, hout⟩ := Prod.mk.inj (Option.some_inj.1 hstep)
  obtain ⟨packet₁, flags, seq, hhydrate, rfl⟩ :=
    ResponseAccumulator.consumeLoop_reads h.asked h.query h.typed h.state hconsume
  obtain ⟨first, hfirst, hcases⟩ := ResponseAccumulator.hydrateRow_table h.typed hhydrate
  obtain rfl : first.orgTable = tableName := by simpa [hfirst] using h.table
  rcases hcases with ⟨hdiff, -, hsame⟩ | ⟨diff, hdiff, hover⟩
  · -- nothing was ever recorded of the table
    have hnone : tableEntries s.before.diff first.orgTable = [] := by rw [tableEntries, hdiff]; rfl
    have hrow : Delivered s command [] row := by
      refine @Delivered.sent _ _ _ _ (packet₁.withSeq seq) ?_ ?_ fun hne => absurd rfl hne
      · rw [← hout, hsame]
        simp [Packet.withSeq, hfresh]
      · rw [Packet.withSeq_body, hsame]
        exact h.packet.body
    rw [hnone]
    refine hrow.congr fun c => ?_
    rw [lookup_applyLast]
    cases row.lookup c <;> rfl
  · have hentries : tableEntries s.before.diff first.orgTable = diff.iter := by rw [tableEntries, hdiff]; rfl
    rw [hentries]
    obtain ⟨skipped, hskipped, hbody, hskip⟩ := ResponseAccumulator.overrideRow_reads h.packet h.asked hover
    rw [hfresh, Bool.false_or] at hskip
    cases skipped with
    | true => exact .left_out hskipped (by rw [← hout]; simp [Packet.withSeq, hskip])
    | false =>
      exact @Delivered.sent _ _ _ _ (packet₁.withSeq seq) (by rw [← hout]; simp [Packet.withSeq, hskip]) hbody fun _ => hskipped

/-- Where the last matching UPDATE has the last word on every column, the row is as all of them leave it. -/
theorem ReadsRow.lastWord (h : ReadsRow s tableName command row) {updates : List (Update Row Assignments)}
    (hword : ∀ column ∈ s.before.queryResponse.columns, LastWord row updates column.orgName) (c : String) :
    (rowRows.applyLast row updates).lookup c = (rowRows.applyAll row updates).lookup c := by
  by_cases hc : c ∈ row
  · obtain ⟨column, hcolumn, rfl⟩ := List.mem_map.1 ((h.packet.columns.mem_iff c).1 hc)
    exact (lastWord_iff hc).1 (hword column hcolumn)
  · have hnone : row.lookup c = none := AList.lookup_eq_none.2 hc
    rw [lookup_applyLast, lookup_applyAll, hnone, Option.map_none, Option.map_none]

/-! ## One turn -/

variable {x x' : Exchange} {turn : Turn} {output : Output} {shared : Shared}

theorem receive_diff {read r : SocketRead} {c : Connection} {origin : Origin} (h : receive env x read = .bytes c r origin) :
    c.diff = x.connection.diff := by
  cases hlisten : x.listening with
  | client =>
    obtain ⟨rfl, -, -⟩ := receive_client h hlisten
    exact switchIfAgreed_diff env _
  | server =>
    unfold receive at h
    simp only [hlisten] at h
    cases hcache : getResponseFromCache env x.connection read.buf.length with
    | waiting => rw [hcache] at h; cases h
    | notReplayed =>
      simp only [hcache] at h
      split_ifs at h
      cases h
      rfl
    | cached c' bytes =>
      obtain ⟨rest, rfl⟩ := getResponseFromCache_cached hcache
      simp only [hcache] at h
      split_ifs at h
      cases h
      rfl

/-- The packets of a turn are consumed under one diff log, each fresh from the socket. -/
theorem turnPackets_step : ∀ s ∈ turnPackets env x turn, consumePacket env s.before s.input = some (s.after, s.output) ∧
    s.input.skip = false ∧ s.before.diff = turn.shared.diff := by
  intro s hs
  unfold turnPackets at hs
  split at hs
  · rename_i c r origin hreceive
    unfold frameSteps at hs
    split at hs
    · cases hs
    · rename_i c₀ packets hmake
      obtain ⟨hc₀, hpackets⟩ := makePackets_some hmake
      have hdiff : c₀.diff = turn.shared.diff := by
        rw [hc₀, Connection.withResidual_eq]
        exact receive_diff hreceive
      obtain ⟨hinput, hstep, hbefore, -⟩ := transcript_invariant (I := fun c => c.diff = turn.shared.diff)
        (fun c packet _ c' out hc h => (consumePacket_frame h).2.trans hc) hdiff s hs
      exact ⟨hstep, (mapM_toPacket_toBytes hpackets).2 _ hinput, hbefore⟩
  · cases hs

end

/-! ## Runs of the process -/

/-- The UPDATEs of a table, oldest first. -/
def liveUpdates (tableName : String) (log : List RecordedUpdate) : List (Update Row Assignments) :=
  (entriesOf tableName log).map fun e => recordedUpdate e.2

/-- **Clients read what clients have written.** In every run of a process: what a round of a connection's server loop
writes to its client is what comes out of the packets of the round, and a row among them comes out as the UPDATEs of its
table leave it that any client has been asked to record and that have not expired. That is as the last one that matches
leaves it, which is as all of them in turn do where the last one has the last word on every column. -/
theorem process_reads_writes {κ : Type} [DecidableEq κ] {env : Env} {serde : Serde} (huuid : Function.Injective env.uuid)
    {vars : String → Option String} {p₀ p p' : Process κ} {events : List (ProcessEvent κ)} {outs : List Output}
    (hstart : Process.start κ vars = some p₀) (hrun : run (processStep env serde) p₀ events = some (p, outs)) {k : κ}
    {x x' : Exchange} {read : SocketRead} {output : Output} (hclient : p.client k = .connected x)
    (hlisten : x.listening = .server) (hturn : processStep env serde p (.turn k read) = some (p', output))
    (hclient' : p'.client k = .connected x') :
    output.toClient = generateOutgoingFrame ((turnPackets env x ⟨p.shared, read⟩).filterMap (·.output)) ∧
    ∀ s ∈ turnPackets env x ⟨p.shared, read⟩, ∀ {tableName : String} {command : Command} {row : Row}
      {updates : List (Update Row Assignments)}, ReadsRow s tableName command row →
      updates = liveUpdates tableName (history env (transcript (processStep env serde) p₀ events)) →
      Delivered s command updates (rowRows.applyLast row updates) ∧
        ((∀ column ∈ s.before.queryResponse.columns, LastWord row updates column.orgName) →
          Delivered s command updates (rowRows.applyAll row updates)) := by
  have hstep : exchangeStep env x ⟨p.shared, read⟩ = some (x', output, turnShared env x ⟨p.shared, read⟩) := by
    cases processStep_stepped hturn with
    | turned hfound hstep =>
      rw [hclient] at hfound
      cases hfound
      cases (Function.update_self k _ p.client).symm.trans hclient'
      exact hstep
    | ended hfound _ => cases (Function.update_self k _ p.client).symm.trans hclient'
  refine ⟨exchangeStep_toClient hlisten hstep, ?_⟩
  intro s hs tableName command row updates hrow hupdates
  obtain ⟨hconsume, hfresh, hdiff⟩ := turnPackets_step s hs
  have hlive : (tableEntries s.before.diff tableName).map (fun e => recordedUpdate e.2) = updates := by
    rw [hupdates, liveUpdates, hdiff, (process_recalls huuid hstart hrun).entries tableName]
  have hdelivered := hrow.delivered hfresh hconsume
  rw [hlive] at hdelivered
  exact ⟨hdelivered, fun hword => hdelivered.congr (hrow.lastWord hword)⟩

/-! ## A row that another client has written -/

/-- A client updates `t`, and another one asks for a row of it. -/
def readingEvents : List (ProcessEvent Bool) :=
  updatingFirst ++ openingEvents true ++ [.turn true (.whole ([16, 0, 0, 0, 0x03] ++ asBytes "select a from t"))]

def readingResponse : SocketRead :=
  .whole (generateOutgoingFrame [samplePacket 1 [1] .other, samplePacket 2 askedColumn.encode .other,
    samplePacket 3 [0xfe, 0, 0, 2, 0] .eof, samplePacket 4 [1, 0x31] .other, samplePacket 5 [0xfe, 0, 0, 2, 0, 0, 0] .eof])

def readingRow : Row := (∅ : Row).insert "a" (some "1")

theorem mem_readingRow (c : String) : c ∈ readingRow ↔ c ∈ [askedColumn].map (·.orgName) := by
  rw [readingRow, AList.mem_insert]
  simp [askedColumn]

theorem readingRow_packet {self : ResponseAccumulator} (hcolumns : self.columns = [askedColumn]) :
    RowPacket self (samplePacket 4 [1, 0x31] .other) readingRow where
  columns := by
    rw [hcolumns]
    exact ⟨by decide, mem_readingRow⟩
  sendable := by
    rw [hcolumns]
    decide
  body := by
    rw [hcolumns]
    decide

/-- The row is sent on with what the other client has written. -/
theorem process_reads_writes_one : ∃ p₀ p p' x outs output s,
    Process.start Bool (fun _ => none) = some p₀ ∧
    run (processStep updateEnv sampleSerde) p₀ readingEvents = some (p, outs) ∧ p.client true = .connected x ∧
    processStep updateEnv sampleSerde p (.turn true readingResponse) = some (p', output) ∧
    output.toClient = generateOutgoingFrame ((turnPackets updateEnv x ⟨p.shared, readingResponse⟩).filterMap (·.output)) ∧
    s ∈ turnPackets updateEnv x ⟨p.shared, readingResponse⟩ ∧ s.input = samplePacket 4 [1, 0x31] .other ∧
    ∃ packet, s.output = some packet ∧ packet.body = [1, 0x62] := by
  have hruns : ∃ p₀ p p' x x' outs output s command,
      Process.start Bool (fun _ => none) = some p₀ ∧
      run (processStep updateEnv sampleSerde) p₀ readingEvents = some (p, outs) ∧ p.client true = .connected x ∧
      x.listening = .server ∧ processStep updateEnv sampleSerde p (.turn true readingResponse) = some (p', output) ∧
      p'.client true = .connected x' ∧ (turnPackets updateEnv x ⟨p.shared, readingResponse⟩)[3]? = some s ∧
      s.input = samplePacket 4 [1, 0x31] .other ∧ s.before.phase = .pendingResponse ∧
      s.before.queryResponse.state = .hydrateRows ∧ s.before.queryResponse.columns = [askedColumn] ∧
      s.before.lastCommand = some command ∧ command.comCode = .comQuery ∧ command.selection = none ∧
      liveUpdates "t" (history updateEnv (transcript (processStep updateEnv sampleSerde) p₀ readingEvents)) =
        [recordedUpdate (none, (∅ : Assignments).insert "a" (some "b"))] :=
    ⟨_, _, _, _, _, _, _, _, _, rfl, rfl, rfl, rfl, rfl, rfl, by rfl, rfl, rfl, rfl, rfl, rfl, rfl, rfl, rfl⟩
  obtain ⟨p₀, p, p', x, x', outs, output, s, command, hstart, hrun, hclient, hlisten, hturn, hclient', hs, hinput, hphase, hstate,
    hcolumns, hasked, hquery, hselection, hlive⟩ := hruns
  obtain ⟨hwritten, hreads⟩ := process_reads_writes (show Function.Injective updateEnv.uuid from sampleUuids_injective)
    hstart hrun hclient hlisten hturn hclient'
  have hmem := List.mem_of_getElem? hs
  have hrow : ReadsRow s "t" command readingRow :=
    ⟨hphase, hstate, by rw [hinput]; rfl, hasked, hquery, by rw [hcolumns]; rfl, by rw [hinput]; exact readingRow_packet hcolumns⟩
  obtain ⟨-, hall⟩ := hreads s hmem hrow hlive.symm
  refine ⟨p₀, p, p', x, outs, output, s, hstart, hrun, hclient, hturn, hwritten, hmem, hinput, ?_⟩
  cases hall (by rw [hcolumns]; decide) with
  | left_out hskipped _ => rw [hselection] at hskipped; cases hskipped
  | @sent packet hout hbody _ =>
    refine ⟨packet, hout, hbody.trans ?_⟩
    rw [hcolumns]
    decide

end MocksySql
