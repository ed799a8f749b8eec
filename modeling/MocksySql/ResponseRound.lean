import MocksySql.StateHandler
/-!
# One round of a response accumulator

What each function called by `ResponseAccumulator::consume` can do to the packet, to the count of
skipped packets and to the phase. Only `HydrateRows` touches the packet, and only for a row of a table
with recorded UPDATEs.

* `consumeStep_cases` — one round of `consume`.
-/

namespace MocksySql

namespace ResponseAccumulator

/-- A round that ends leaves the phase as it was or gives the turn back to the client. -/
def Flow.EndsIn (phase : Phase) : Flow → Prop
  | .done p => p = phase ∨ p = .command
  | .consume => True

theorem completeOnErrorOrOk_cases {self self' : ResponseAccumulator} {packet : Packet} {connection : Connection}
    (h : self.completeOnErrorOrOk packet connection = some self') :
    self'.skippedPackets = self.skippedPackets ∧ (self' = self ∨ self'.state = .complete) := by
  unfold completeOnErrorOrOk at h
  split at h
  · obtain ⟨e, _, rfl⟩ := Option.map_eq_some_iff.1 h
    exact ⟨rfl, .inr rfl⟩
  · obtain ⟨ok, _, rfl⟩ := Option.map_eq_some_iff.1 h
    exact ⟨rfl, .inr rfl⟩
  · cases h
    exact ⟨rfl, .inl rfl⟩

/-- **A call of `override_row` that returns**: the row read from the packet, the UPDATE chosen for it, and the row
rewritten and tested. -/
theorem overrideRow_cases {self self' : ResponseAccumulator} {packet packet' : Packet} {diff : StateDifference}
    {connection : Connection} (h : self.overrideRow packet diff connection = some (self', packet')) :
    ∃ row overrideState row' newBody command skipped, self.parseRow packet = some row ∧
      chooseOverride row (diff.iter.map (·.2)) none = some overrideState ∧
      rewriteFields self.columns overrideState (List.range row.keys.length) row [] = some (row', newBody) ∧
      connection.lastCommand = some command ∧ deselect row' command.selection = some skipped ∧
      self' = { self with skippedPackets := self.skippedPackets + skipped.toNat } ∧
      packet' = { packet with
        header := { size := newBody.length, seq := packet.header.seq }
        body := newBody
        skip := packet.skip || skipped } := by
  simp only [overrideRow, Option.bind_eq_bind, Option.bind_eq_some_iff] at h
  obtain ⟨row, hrow, overrideState, hchoose, ⟨row', newBody⟩, hrewrite, command, hcommand, skipped, hskipped, he⟩ := h
  cases he
  exact ⟨row, overrideState, row', newBody, command, skipped, hrow, hchoose, hrewrite, hcommand, hskipped, rfl, rfl⟩

/-- `override_row` leaves the accumulator in its state, and the packet a packet of its type. -/
theorem overrideRow_keeps {self self' : ResponseAccumulator} {packet packet' : Packet} {diff : StateDifference}
    {connection : Connection} (h : self.overrideRow packet diff connection = some (self', packet')) :
    self'.state = self.state ∧ packet'.pType = packet.pType := by
  obtain ⟨_, _, _, _, _, _, _, _, _, _, _, rfl, rfl⟩ := overrideRow_cases h
  exact ⟨rfl, rfl⟩

theorem hydrateRow_cases {self self' : ResponseAccumulator} {packet packet' : Packet} {connection : Connection}
    {flags : Option UInt16} (h : self.hydrateRow packet connection = some (self', packet', flags)) :
    (packet.pType = .other → flags = none) ∧ ((self' = self ∧ packet' = packet) ∨
      (packet.pType = .other ∧ ∃ table diff, connection.diff.lookup table = some diff ∧
        self.overrideRow packet diff connection = some (self', packet'))) := by
  unfold hydrateRow at h
  split at h
  · rename_i hok
    obtain ⟨ok, _, hr⟩ := Option.map_eq_some_iff.1 h
    cases hr
    exact ⟨by simp [hok], .inl ⟨rfl, rfl⟩⟩
  · rename_i heof
    obtain ⟨eof, _, hr⟩ := Option.map_eq_some_iff.1 h
    cases hr
    exact ⟨by simp [heof], .inl ⟨rfl, rfl⟩⟩
  · rename_i hother
    split at h
    · cases h
    · split at h
      · rename_i column _ _ diff hdiff
        obtain ⟨r, hr, he⟩ := Option.map_eq_some_iff.1 h
        cases he
        exact ⟨fun _ => rfl, .inr ⟨hother, column.orgTable, diff, hdiff, hr⟩⟩
      · cases h
        exact ⟨fun _ => rfl, .inl ⟨rfl, rfl⟩⟩
  · cases h

/-- A row goes by the table of the first column. -/
theorem hydrateRow_table {self self' : ResponseAccumulator} {row row' : Packet} {connection : Connection}
    {flags : Option UInt16} (hp : row.pType = .other) (h : self.hydrateRow row connection = some (self', row', flags)) :
    ∃ first, self.columns.head? = some first ∧
      ((connection.diff.lookup first.orgTable = none ∧ self' = self ∧ row' = row) ∨
        ∃ diff, connection.diff.lookup first.orgTable = some diff ∧
          self.overrideRow row diff connection = some (self', row')) := by
  simp only [hydrateRow, hp] at h
  cases hfirst : self.columns.head? with
  | none => rw [hfirst] at h; cases h
  | some first =>
    refine ⟨first, rfl, ?_⟩
    simp only [hfirst] at h
    cases hdiff : connection.diff.lookup first.orgTable with
    | none =>
      simp only [hdiff] at h
      cases h
      exact .inl ⟨rfl, rfl, rfl⟩
    | some diff =>
      simp only [hdiff] at h
      obtain ⟨r, hover, he⟩ := Option.map_eq_some_iff.1 h
      cases he
      exact .inr ⟨diff, rfl, hover⟩

/-- The packet of a row is renumbered by its own number. -/
theorem hydrateRow_other {self self' : ResponseAccumulator} {row row' : Packet} {connection : Connection}
    {flags : Option UInt16} (hp : row.pType = .other) (h : self.hydrateRow row connection = some (self', row', flags)) :
    self'.state = self.state ∧ row'.pType = .other ∧ row'.header.seq = row.header.seq ∧ flags = none := by
  obtain ⟨hflags, ⟨rfl, rfl⟩ | ⟨_, _, diff, _, hover⟩⟩ := hydrateRow_cases h
  · exact ⟨rfl, hp, rfl, hflags hp⟩
  · obtain ⟨_, _, _, _, _, _, _, _, _, _, _, rfl, rfl⟩ := overrideRow_cases hover
    exact ⟨rfl, hp, rfl, hflags hp⟩

theorem readPrepareMetadata_skipped {self self' : ResponseAccumulator} {packet : Packet}
    (h : self.readPrepareMetadata packet = some self') : self'.skippedPackets = self.skippedPackets := by
  unfold readPrepareMetadata at h
  split_ifs at h
  · simp only [Option.bind_eq_bind, Option.bind_eq_some_iff] at h
    obtain ⟨_, _, _, _, _, _, _, _, he⟩ := h
    cases he; rfl
  · cases h; rfl

theorem readPrepareOk_skipped {self self' : ResponseAccumulator} {packet : Packet} {connection : Connection}
    {omitted : Bool} (h : self.readPrepareOk packet connection = some (self', omitted)) :
    self'.skippedPackets = self.skippedPackets := by
  simp only [readPrepareOk, Option.bind_eq_bind, Option.bind_eq_some_iff] at h
  obtain ⟨_, _, _, _, _, _, _, _, _, _, _, _, _, _, _, _, self₁, hself₁, h⟩ := h
  have hkeep := readPrepareMetadata_skipped hself₁
  split_ifs at h
  · cases h; exact hkeep
  · obtain ⟨_, _, he⟩ := Option.bind_eq_some_iff.1 h
    cases he; exact hkeep

theorem processStmtPrepare_keeps {self self' : ResponseAccumulator} {packet packet' : Packet}
    {connection : Connection} {phase : Phase} {flow : Flow}
    (h : self.processStmtPrepare packet connection phase = some (self', packet', flow)) :
    flow.EndsIn phase ∧ packet' = packet ∧ self'.skippedPackets = self.skippedPackets := by
  unfold processStmtPrepare at h
  split at h
  · simp only [Option.bind_eq_bind, Option.bind_eq_some_iff] at h
    obtain ⟨⟨self₁, omitted⟩, hread, h⟩ := h
    have := readPrepareOk_skipped hread
    split_ifs at h <;> cases h <;> exact ⟨by simp [Flow.EndsIn], rfl, this⟩
  · cases h
    exact ⟨by simp [Flow.EndsIn], rfl, rfl⟩
  · simp only [Option.bind_eq_bind, Option.bind_eq_some_iff] at h
    obtain ⟨param, _, h⟩ := h
    split_ifs at h <;> cases h <;> exact ⟨by simp [Flow.EndsIn], rfl, rfl⟩
  · simp only [Option.bind_eq_bind, Option.bind_eq_some_iff] at h
    obtain ⟨column, _, h⟩ := h
    split_ifs at h <;> cases h <;> exact ⟨by simp [Flow.EndsIn], rfl, rfl⟩
  · cases h
    exact ⟨by simp [Flow.EndsIn], rfl, rfl⟩
  · cases h

/-- `process_result_set` leaves the packet alone everywhere but in `HydrateRows`. -/
theorem processResultSet_cases {env : Env} {self self' : ResponseAccumulator} {packet packet' : Packet}
    {connection : Connection} {phase : Phase} {flow : Flow}
    (h : self.processResultSet env packet connection phase = some (self', packet', flow)) :
    flow.EndsIn phase ∧ ((packet' = packet ∧ self'.skippedPackets = self.skippedPackets) ∨
      (self.state = .hydrateRows ∧ ∃ self₁ packet₁ flags seq,
        self.hydrateRow packet connection = some (self₁, packet₁, flags) ∧
        subtractSkipped env packet₁.header.seq self₁.skippedPackets = some seq ∧
        packet' = { packet₁ with header := { packet₁.header with seq } } ∧
        self'.skippedPackets = self₁.skippedPackets)) := by
  unfold processResultSet at h
  split at h <;> try simp only [Option.bind_eq_bind, Option.bind_eq_some_iff] at h
  · obtain ⟨lastCommand, _, h⟩ := h
    split_ifs at h
    · obtain ⟨clientFlag, _, h⟩ := Option.bind_eq_some_iff.1 h
      split_ifs at h <;> cases h <;> exact ⟨by simp [Flow.EndsIn], .inl ⟨rfl, rfl⟩⟩
    · cases h; exact ⟨by simp [Flow.EndsIn], .inl ⟨rfl, rfl⟩⟩
    · cases h; exact ⟨by simp [Flow.EndsIn], .inl ⟨rfl, rfl⟩⟩
  · obtain ⟨_, _, h⟩ := h
    cases h; exact ⟨by simp [Flow.EndsIn], .inl ⟨rfl, rfl⟩⟩
  · obtain ⟨_, _, _, _, h⟩ := h
    cases h; exact ⟨by simp [Flow.EndsIn], .inl ⟨rfl, rfl⟩⟩
  · obtain ⟨_, _, h⟩ := h
    split_ifs at h
    · cases h; exact ⟨by simp [Flow.EndsIn], .inl ⟨rfl, rfl⟩⟩
    · obtain ⟨_, _, h⟩ := Option.bind_eq_some_iff.1 h
      cases h; exact ⟨by simp [Flow.EndsIn], .inl ⟨rfl, rfl⟩⟩
  · obtain ⟨_, _, h⟩ := h
    split_ifs at h <;> cases h <;> exact ⟨by simp [Flow.EndsIn], .inl ⟨rfl, rfl⟩⟩
  · rename_i hstate
    obtain ⟨⟨self₁, packet₁, flags⟩, hrow, seq, hseq, h⟩ := h
    split_ifs at h <;> cases h <;>
      exact ⟨by simp [Flow.EndsIn], .inr ⟨hstate, self₁, packet₁, flags, seq, hrow, hseq, rfl, rfl⟩⟩
  · cases h; exact ⟨by simp [Flow.EndsIn], .inl ⟨rfl, rfl⟩⟩
  · cases h

/-- **One round of `consume`**: the packet is handed on as it came, unless the state is
`HydrateRows`. -/
theorem consumeStep_cases {env : Env} {self self' : ResponseAccumulator} {packet packet' : Packet}
    {connection : Connection} {flow : Flow}
    (h : self.consumeStep env packet connection = some (self', packet', flow)) :
    flow.EndsIn connection.phase ∧ ((packet' = packet ∧ self'.skippedPackets = self.skippedPackets) ∨
      (self.state = .hydrateRows ∧ ∃ self₁ packet₁ flags seq,
        self.hydrateRow packet connection = some (self₁, packet₁, flags) ∧
        subtractSkipped env packet₁.header.seq self₁.skippedPackets = some seq ∧
        packet' = { packet₁ with header := { packet₁.header with seq } } ∧
        self'.skippedPackets = self₁.skippedPackets)) := by
  unfold consumeStep at h
  split at h
  · cases h
  · split at h
    · obtain ⟨hends, hkeeps⟩ := processStmtPrepare_keeps h
      exact ⟨hends, .inl hkeeps⟩
    · cases h; exact ⟨.inr rfl, .inl ⟨rfl, rfl⟩⟩
    · simp only [Option.bind_eq_bind, Option.bind_eq_some_iff] at h
      obtain ⟨self₀, hself₀, h⟩ := h
      obtain ⟨hskip, hcase⟩ := completeOnErrorOrOk_cases hself₀
      split_ifs at h
      · cases h
        refine ⟨?_, .inl ⟨rfl, hskip⟩⟩
        unfold processBinaryResultSet
        split_ifs <;> simp [Flow.EndsIn]
      · obtain ⟨hends, hcases⟩ := processResultSet_cases h
        refine ⟨hends, ?_⟩
        rcases hcases with ⟨rfl, hs⟩ | ⟨hstate, hrow⟩
        · exact .inl ⟨rfl, hs.trans hskip⟩
        · rcases hcase with rfl | hcomplete
          · exact .inr ⟨hstate, hrow⟩
          · rw [hcomplete] at hstate; cases hstate

/-- A call of `consume` that returns: its first round, and the rounds after it if that was not the last. -/
theorem consumeLoop_some {env : Env} {connection : Connection} {fuel : Nat} {self self' : ResponseAccumulator}
    {packet packet' : Packet} {phase : Phase}
    (h : consumeLoop env connection (fuel + 1) self packet = some (self', packet', phase)) :
    self.consumeStep env packet connection = some (self', packet', .done phase) ∨
      ∃ self₁ packet₁, self.consumeStep env packet connection = some (self₁, packet₁, .consume) ∧
        consumeLoop env connection fuel self₁ packet₁ = some (self', packet', phase) := by
  rw [consumeLoop] at h
  cases hs : self.consumeStep env packet connection with
  | none => rw [hs] at h; cases h
  | some r =>
    obtain ⟨self₁, packet₁, flow⟩ := r
    rw [hs] at h
    cases flow with
    | done p => cases h; exact .inl rfl
    | consume => exact .inr ⟨self₁, packet₁, rfl, h⟩

/-- A call of `consume` leaves the phase as it was or gives the turn back to the client. -/
theorem consumeLoop_phase {env : Env} {connection : Connection} :
    ∀ {fuel : Nat} {self self' : ResponseAccumulator} {packet packet' : Packet} {phase : Phase},
      consumeLoop env connection fuel self packet = some (self', packet', phase) →
      phase = connection.phase ∨ phase = .command
  | 0, _, _, _, _, _, h => by cases h
  | fuel + 1, self, self', packet, packet', phase, h => by
    rcases consumeLoop_some h with hs | ⟨self₁, packet₁, _, hrest⟩
    · exact (consumeStep_cases hs).1
    · exact consumeLoop_phase hrest

end ResponseAccumulator

end MocksySql
