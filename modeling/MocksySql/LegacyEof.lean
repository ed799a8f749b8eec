import MocksySql.ResultSetRuns
/-!
# Result sets with legacy EOF packets

Without CLIENT_DEPRECATE_EOF a result set has a 5-byte EOF packet behind the definitions and another
behind the rows. The first is passed by its type alone, but `EofData::from_packet` has to decode the
second, and it asserts the length of the 7-byte OK packet of the new protocol (`packet.rs:357`).

* `legacy_never_completes` — no legacy result set gives the turn back to the client.
* `encodings_disagree` — so the two encodings of a result set never agree.
-/

namespace MocksySql
open FieldDecode PartialRun

section
variable {env : Env} {c : Connection} {clientFlag : UInt32} {p : Packet}

/-- An EOF packet of the old protocol. -/
def ShortEof (p : Packet) : Prop := p.pType = .eof ∧ p.body.length = 5

theorem EofData.fromPacket_five (hflag : c.clientFlag = some clientFlag) (hp : ShortEof p) :
    EofData.fromPacket p c =
      if hasFlag clientFlag .clientProtocol41 then none else some { statusFlags := none, warnings := none } := by
  obtain ⟨b0, b1, b2, b3, b4, hbody⟩ : ∃ b0 b1 b2 b3 b4, p.body = [b0, b1, b2, b3, b4] := by
    match hb : p.body, hp.2 with
    | [b0, b1, b2, b3, b4], _ => exact ⟨b0, b1, b2, b3, b4, rfl⟩
  rw [EofData.fromPacket, if_pos hp.1, hflag, hbody]
  simp only [Option.bind_eq_bind, Option.bind_some]
  split_ifs <;> rfl

namespace ResponseAccumulator
variable {self : ResponseAccumulator} {fuel : Nat}

/-- A packet among the rows that brings no status flags keeps the connection waiting. -/
theorem consumeLoop_hydrateRows {r : ResponseAccumulator × Packet × Phase} (h : AwaitsQuery c clientFlag)
    (hp : Ordinary p) (hstate : self.state = .hydrateRows) (hr : consumeLoop env c (fuel + 1) self p = some r) :
    ∃ self₁ p₁ flags, self.hydrateRow p c = some (self₁, p₁, flags) ∧
      (flags = none → p₁.pType ≠ .error → r.1 = self₁ ∧ r.2.2 = .pendingResponse) := by
  have hstep : self.consumeStep env p c = self.processResultSet env p c .pendingResponse := consumeStep_ordinary h hp
  cases hs : self.consumeStep env p c with
  | none => rw [consumeLoop, hs] at hr; cases hr
  | some s =>
    rw [consumeLoop, hs] at hr
    rw [hstep, processResultSet, hstate] at hs
    simp only [Option.bind_eq_bind, Option.bind_eq_some_iff] at hs
    obtain ⟨⟨self₁, p₁, flags⟩, hrow, seq, _, hs⟩ := hs
    refine ⟨self₁, p₁, flags, hrow, fun hflags hne => ?_⟩
    rw [if_neg (by simp [hflags, hne])] at hs
    cases hs
    cases hr
    exact ⟨rfl, rfl⟩

theorem consumeLoop_row_cases {r : ResponseAccumulator × Packet × Phase} (h : AwaitsQuery c clientFlag)
    (hp : p.pType = .other) (hstate : self.state = .hydrateRows) (hr : consumeLoop env c (fuel + 1) self p = some r) :
    r.1.state = .hydrateRows ∧ r.2.2 = .pendingResponse := by
  obtain ⟨self₁, p₁, flags, hrow, hwait⟩ := consumeLoop_hydrateRows h (by simp [Ordinary, hp]) hstate hr
  obtain ⟨hflags, hcases⟩ := hydrateRow_cases hrow
  have hkept : self₁.state = .hydrateRows ∧ p₁.pType = .other := by
    rcases hcases with ⟨rfl, rfl⟩ | ⟨_, _, diff, _, hover⟩
    · exact ⟨hstate, hp⟩
    · obtain ⟨hs', hp'⟩ := overrideRow_keeps hover
      exact ⟨hs'.trans hstate, hp'.trans hp⟩
  obtain ⟨hself, hphase⟩ := hwait (hflags hp) (by simp [hkept.2])
  exact ⟨hself ▸ hkept.1, hphase⟩

/-- The EOF packet behind the definitions is passed by its type. -/
theorem consumeLoop_legacyEof (h : AwaitsQuery c clientFlag) (hp : p.pType = .eof)
    (hdep : hasFlag clientFlag .clientDeprecateEof = false) (hstate : self.state = .columnsHydrated) :
    consumeLoop env c (fuel + 1) self p = some ({ self with state := .hydrateRows }, p, .pendingResponse) := by
  apply consumeLoop_done
  rw [consumeStep_ordinary h (by simp [Ordinary, hp])]
  simp [processResultSet, hstate, h.flags, lacksFlag_eq_not, hdep, hp]

/-- The EOF packet behind the rows: a failed assertion under CLIENT_PROTOCOL_41, and no status flags,
so no end, without. -/
theorem consumeLoop_shortEof {r : ResponseAccumulator × Packet × Phase} (h : AwaitsQuery c clientFlag)
    (hp : ShortEof p) (hstate : self.state = .hydrateRows) (hr : consumeLoop env c (fuel + 1) self p = some r) :
    r.2.2 = .pendingResponse := by
  obtain ⟨self₁, p₁, flags, hrow, hwait⟩ := consumeLoop_hydrateRows h (by simp [Ordinary, hp.1]) hstate hr
  have heof := EofData.fromPacket_five h.flags hp
  by_cases h41 : hasFlag clientFlag .clientProtocol41
  · rw [if_pos h41] at heof
    simp [hydrateRow, hp.1, heof] at hrow
  · rw [if_neg h41] at heof
    simp only [hydrateRow, hp.1, heof, Option.map_some] at hrow
    cases hrow
    exact (hwait rfl (by simp [hp.1])).2

/-- With CLIENT_OPTIONAL_RESULTSET_METADATA the very first packet panics (`result_set.rs:304`). -/
theorem consumeLoop_metadata (h : AwaitsQuery c clientFlag) (hp : Ordinary p)
    (hopt : hasFlag clientFlag .clientOptionalResultSetMetadata) :
    consumeLoop env c (fuel + 2) .default p = none := by
  obtain ⟨command, hc, hquery⟩ := h.command
  have hround : ResponseAccumulator.default.consumeStep env p c =
      some ({ ResponseAccumulator.default with state := .metaExchange }, p, .consume) := by
    rw [consumeStep_ordinary h hp]
    simp [processResultSet, ResponseAccumulator.default, hc, hquery, h.flags, hopt]
  have hpanic : ({ ResponseAccumulator.default with state := .metaExchange } : ResponseAccumulator).consumeStep env p c =
      none := by
    rw [consumeStep_ordinary h hp]
    simp [processResultSet, IntLenEnc.fromBytes]
  rw [consumeLoop_consume hround, consumeLoop, hpanic]

end ResponseAccumulator

/-! ## Runs -/

/-- With CLIENT_OPTIONAL_RESULTSET_METADATA the first packet panics, or is taken for the OK or ERR packet that ends a
response. -/
theorem first_packet_never_pends (h : AwaitsQuery c clientFlag)
    (hopt : hasFlag clientFlag .clientOptionalResultSetMetadata) (self' : ResponseAccumulator) :
    ¬ Pends env c .default p self' := by
  intro hp
  have hpanic := @ResponseAccumulator.consumeLoop_metadata env _ _ p 14 (h.holding .default) (hp.ordinary h) hopt
  obtain ⟨p', hconsume⟩ := (pends_iff h.phase).1 hp
  exact absurd (hpanic.symm.trans hconsume) (by simp)

theorem run_rows (h : AwaitsQuery c clientFlag) : ∀ {rows : List Packet} {self : ResponseAccumulator} {c' : Connection}
    {outs : List (Option Packet)}, (∀ row ∈ rows, row.pType = .other) → self.state = .hydrateRows →
    run (consumePacket env) (c.holding self) rows = some (c', outs) →
    ∃ self', c' = c.holding self' ∧ self'.state = .hydrateRows
  | [], self, _, _, _, hstate, hrun => by cases hrun; exact ⟨self, rfl, hstate⟩
  | row :: rows, self, c', outs, hrows, hstate, hrun => by
    obtain ⟨c₁, _, _, hrow, hrest, _⟩ := run_cons_some hrun
    obtain ⟨self₁, p₁, phase, hconsume, rfl⟩ := consumePacket_pending_cases (h.holding self).phase hrow
    obtain ⟨hstate₁, hphase⟩ :=
      ResponseAccumulator.consumeLoop_row_cases (h.holding self) (hrows row (by simp)) hstate hconsume
    simp only at hstate₁ hphase
    subst hphase
    have hc₁ : { c.holding self with phase := .pendingResponse, queryResponse := self₁ } = c.holding self₁ := by
      simp [Connection.holding, h.phase]
    rw [hc₁] at hrest
    exact run_rows h (fun r hr => hrows r (List.mem_cons_of_mem _ hr)) hstate₁ hrest

/-- **No legacy result set completes**: if its run does not panic, the connection still waits after
the last packet. -/
theorem legacy_never_completes (h : AwaitsQuery c clientFlag) (hfresh : c.queryResponse = .default)
    (hdep : hasFlag clientFlag .clientDeprecateEof = false) {columns : List ColumnDefinition} {count : Packet}
    {definitions rows : List Packet} (hps : ResultSetPackets columns count definitions rows) {eof₁ eof₂ : Packet}
    (h₁ : ShortEof eof₁) (h₂ : ShortEof eof₂) {c' : Connection} {outs : List (Option Packet)}
    (hrun : run (consumePacket env) c (count :: definitions ++ [eof₁] ++ rows ++ [eof₂]) = some (c', outs)) :
    c'.phase = .pendingResponse := by
  have hc : c = c.holding .default := Connection.holding_fresh hfresh
  by_cases hopt : hasFlag clientFlag .clientOptionalResultSetMetadata
  · have hord : Ordinary count := hps.count.1.ordinary_encode (List.length_pos_of_ne_nil hps.nonempty)
      (by rw [List.append_nil]; exact hps.count.2)
    obtain ⟨c₁, _, _, hcount, _⟩ := run_cons_some hrun
    obtain ⟨self₁, p₁, phase, hconsume, _⟩ := consumePacket_pending_cases h.phase hcount
    rw [hfresh, ResponseAccumulator.consume, ResponseAccumulator.consumeFuel,
      ResponseAccumulator.consumeLoop_metadata h hord hopt] at hconsume
    cases hconsume
  · obtain ⟨self₁, hheader, hstate₁, _⟩ := @pendsAll_header env _ _ h (by simpa using hopt) _ _ _
      hps.nonempty hps.countable hps.count hps.decoded
    have heof : PendsAll env c self₁ [eof₁] { self₁ with state := .hydrateRows } := .cons
      ((pends_iff h.phase).2 ⟨eof₁, @ResponseAccumulator.consumeLoop_legacyEof env _ _ eof₁ self₁ 15 (h.holding _) h₁.1
        hdep hstate₁⟩) (.nil _)
    obtain ⟨⟨outs₁, hrun₁⟩, _⟩ := (hheader.append heof).run h.phase
    rw [List.append_assoc, hc] at hrun
    obtain ⟨c₁, _, _, hfirst, hrest, _⟩ := run_append_split hrun
    rw [hrun₁] at hfirst
    cases hfirst
    obtain ⟨c₂, _, _, hrows, hlast, _⟩ := run_append_split hrest
    obtain ⟨self₂, rfl, hstate₂⟩ := run_rows h hps.rows rfl hrows
    obtain ⟨c₃, _, _, hshort, hnil, _⟩ := run_cons_some hlast
    cases hnil
    obtain ⟨self₃, p₃, phase, hconsume, rfl⟩ := consumePacket_pending_cases (h.holding self₂).phase hshort
    exact ResponseAccumulator.consumeLoop_shortEof (h.holding self₂) h₂ hstate₂ hconsume

end

/-! ## The two encodings -/

/-- The packets are consumed without a panic, and the last one, no earlier one, enters `Command`. -/
def EndsExactly (env : Env) (c : Connection) (packets : List Packet) (c' : Connection) (outs : List (Option Packet)) :
    Prop :=
  run (consumePacket env) c packets = some (c', outs) ∧ c'.phase = .command ∧
    phases env c packets = List.replicate (packets.length - 1) .pendingResponse ++ [.command]

/-- A result set with header packets `header` and rows `rows`, `rows'`, answered to one connection in the
legacy encoding and to another in the new one: both end exactly, with the same columns and the same
bodies emitted for the rows. -/
def EncodingsAgree (env : Env) (legacy new : Connection) (header rows rows' : List Packet) (eof₁ eof₂ eof : Packet) : Prop :=
  ∃ c₁ outs₁ c₂ outs₂,
    EndsExactly env legacy (header ++ [eof₁] ++ rows ++ [eof₂]) c₁ outs₁ ∧
    EndsExactly env new (header ++ rows' ++ [eof]) c₂ outs₂ ∧
    c₁.queryResponse.columns = c₂.queryResponse.columns ∧
    ((outs₁.drop (header.length + 1)).take rows.length).map (Option.map (·.body)) =
      ((outs₂.drop header.length).take rows'.length).map (Option.map (·.body))

/-- **The encodings never agree**: whatever the result set, the flags and the diff log, the legacy
encoding does not end. -/
theorem encodings_disagree (env : Env) {legacy new : Connection} {clientFlag : UInt32}
    (h : AwaitsQuery legacy clientFlag) (hfresh : legacy.queryResponse = .default)
    (hdep : hasFlag clientFlag .clientDeprecateEof = false) {columns : List ColumnDefinition} {count : Packet}
    {definitions rows : List Packet} (hps : ResultSetPackets columns count definitions rows) {eof₁ eof₂ : Packet}
    (h₁ : ShortEof eof₁) (h₂ : ShortEof eof₂) (rows' : List Packet) (eof : Packet) :
    ¬ EncodingsAgree env legacy new (count :: definitions) rows rows' eof₁ eof₂ eof := by
  rintro ⟨c₁, outs₁, _, _, ⟨hrun, hphase, _⟩, _⟩
  rw [legacy_never_completes h hfresh hdep hps h₁ h₂ hrun] at hphase
  cases hphase

theorem encodings_disagree_sample : ¬ EncodingsAgree sampleEnv (sampleAwaiting 0x200) (sampleAwaiting 0x01000200)
    [samplePacket 1 [1] .other, samplePacket 2 sampleColumn.encode .other] [samplePacket 4 [1, 0x31] .other]
    [samplePacket 3 [1, 0x31] .other] (samplePacket 3 [0xfe, 0, 0, 2, 0] .eof) (samplePacket 5 [0xfe, 0, 0, 2, 0] .eof)
    (samplePacket 4 [0xfe, 0, 0, 2, 0, 0, 0] .eof) :=
  encodings_disagree sampleEnv (sampleAwaiting_awaits _) rfl (by decide)
    { sampleColumn_packets with rows := by simp [samplePacket] } ⟨rfl, rfl⟩ ⟨rfl, rfl⟩ _ _

/-- One column, no rows: the second EOF packet panics. -/
theorem legacy_eof_panics : ¬ EncodingsAgree sampleEnv (sampleAwaiting 0x200) (sampleAwaiting 0x01000200)
    [samplePacket 1 [1] .other, samplePacket 2 sampleColumn.encode .other] [] []
    (samplePacket 3 [0xfe, 0, 0, 2, 0] .eof) (samplePacket 4 [0xfe, 0, 0, 2, 0] .eof)
    (samplePacket 3 [0xfe, 0, 0, 2, 0, 0, 0] .eof) := by
  have hpanic : run (consumePacket sampleEnv) (sampleAwaiting 0x200)
      [samplePacket 1 [1] .other, samplePacket 2 sampleColumn.encode .other,
        samplePacket 3 [0xfe, 0, 0, 2, 0] .eof, samplePacket 4 [0xfe, 0, 0, 2, 0] .eof] = none := rfl
  rintro ⟨c₁, outs₁, _, _, ⟨hrun, _⟩, _⟩
  rw [List.append_nil] at hrun
  exact absurd (hpanic.symm.trans hrun) (by simp)

end MocksySql
