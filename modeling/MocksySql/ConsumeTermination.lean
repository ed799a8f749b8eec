import MocksySql.ResultSetRuns
import MocksySql.Lib.Loop
/-!
# Does `consume` return?

`consume` calls itself on the packet it was given, in another state (`result_set.rs:229-390`). `consumeRound` is one
call up to the next.

* `consumeStep_consume` — the rounds that call `consume` again, as transitions of the state.
* `Reconsumes.roundsLeft_lt` — they count down, unless COM_FIELD_LIST goes round in circles.
* `consume_stops_iff` — a call returns or panics exactly then.
* `consume_eq_of_loop` — `consumeFuel` is enough.
-/

namespace MocksySql

open FieldDecode FuelLoop

namespace ResponseAccumulator

/-- One call of `consume`, up to the next. -/
def consumeRound (env : Env) (connection : Connection) (s : ResponseAccumulator × Packet) :
    Round (ResponseAccumulator × Packet) (ResponseAccumulator × Packet × Phase) :=
  match s.1.consumeStep env s.2 connection with
  | none => .crash
  | some (self, packet, .done phase) => .done (self, packet, phase)
  | some (self, packet, .consume) => .again (self, packet)

variable {env : Env} {c : Connection} {p p' : Packet} {self self' : ResponseAccumulator}

theorem consumeRound_again : consumeRound env c (self, p) = .again (self', p') ↔
    self.consumeStep env p c = some (self', p', .consume) := by
  simp only [consumeRound]
  rcases self.consumeStep env p c with _ | ⟨self₁, p₁, _ | _⟩ <;> simp

theorem consumeLoop_eq (fuel : Nat) :
    consumeLoop env c fuel self p = (loop (consumeRound env c) fuel (self, p)).join := by
  induction fuel generalizing self p with
  | zero => rfl
  | succ fuel ih =>
    rw [consumeLoop, loop]
    simp only [consumeRound]
    rcases self.consumeStep env p c with _ | ⟨self₁, p₁, _ | _⟩
    · rfl
    · rfl
    · exact ih

end ResponseAccumulator

/-! ## The transitions -/

/-- An EOF packet that announces another result set, to a client that has status flags in it. -/
structure MoreResults (c : Connection) (p : Packet) : Prop where
  flags : ∃ clientFlag ∈ c.clientFlag, hasFlag clientFlag .clientProtocol41
  pType : p.pType = .eof
  length : p.body.length = 7
  more : ¬ NoMoreResults p.body

/-- CLIENT_DEPRECATE_EOF. -/
def Connection.deprecatesEof (c : Connection) : Bool := c.clientFlag.any (hasFlag · .clientDeprecateEof)

/-- The rounds that call `consume` again: the state they start in, and the state they leave. -/
inductive Reconsumes (c : Connection) (p : Packet) (code : MySqlCommand) : State → State → Prop
  | prepared {s : State} : code = .comStmtPrepare → s ∈ [State.initiated, .hydrateParams, .hydrateColumns] →
      Reconsumes c p code s .complete
  | prepareParams {s' : State} : code = .comStmtPrepare → s' ∈ [State.hydrateParams, .paramsHydrated] →
      Reconsumes c p code .metaExchange s'
  | query {s' : State} : code = .comQuery → s' ∈ [State.metaExchange, .columnCount] → Reconsumes c p code .initiated s'
  | fieldList : code = .comFieldList → Reconsumes c p code .initiated .hydrateColumns
  | noColumns : code ∉ [MySqlCommand.comStmtPrepare, .comQuery, .comFieldList] →
      Reconsumes c p code .initiated .complete
  | columnsEnd : code = .comFieldList → p.pType = .eof → Reconsumes c p code .hydrateColumns .columnsHydrated
  | noEof : code ≠ .comStmtPrepare → c.deprecatesEof → Reconsumes c p code .columnsHydrated .hydrateRows
  | rowsEnd : code ≠ .comStmtPrepare → Reconsumes c p code .hydrateRows .complete
  | moreResults : code ≠ .comStmtPrepare → MoreResults c p → Reconsumes c p code .hydrateRows .initiated

section
variable {env : Env} {c : Connection} {p p' : Packet} {self self' : ResponseAccumulator}

theorem IntFixedLen.offset_eq {bytes : Bytes} {k : Nat} {r : DecodeResult Nat}
    (h : IntFixedLen.fromBytes bytes (some k) = some r) : r.offsetIncrement = k := by
  simp only [IntFixedLen.fromBytes, Option.bind_eq_bind, Option.bind_some, Option.bind_eq_some_iff] at h
  obtain ⟨part, -, h⟩ := h
  split_ifs at h
  cases h
  rfl

theorem EofData.fields_length {body : Bytes} {eof : EofData} (h : (EofData.fields body).run' 1 = some eof) :
    body.length = 7 := by
  obtain ⟨offset, h⟩ := run'_eq_some.1 h
  obtain ⟨warnings, offset₁, hwarnings, h⟩ := bind_eq_some.1 h
  obtain ⟨status, offset₂, hstatus, h⟩ := bind_eq_some.1 h
  obtain ⟨here, offset₃, hhere, h⟩ := bind_eq_some.1 h
  obtain ⟨_, _, hend, -⟩ := bind_eq_some.1 h
  have hfield : ∀ {start value next : Nat},
      field body (IntFixedLen.fromBytes · (some 2)) start = some (value, next) → next = start + 2 := by
    intro start value next hread
    simp only [field, Option.bind_eq_bind, Option.bind_eq_some_iff] at hread
    obtain ⟨rest, -, r, hr, he⟩ := hread
    cases he
    rw [IntFixedLen.offset_eq hr]
  have h₁ := hfield hwarnings
  have h₂ := hfield hstatus
  cases hhere
  have hlen := (require_eq_some.1 hend).1
  omega

/-- An EOF packet that has status flags has them in its fourth and fifth byte, and is seven bytes long. -/
theorem EofData.fromPacket_flags {eof : EofData} {flags : UInt16} (h : EofData.fromPacket p c = some eof)
    (hflags : eof.statusFlags = some flags) : (∃ clientFlag ∈ c.clientFlag, hasFlag clientFlag .clientProtocol41) ∧
      p.pType = .eof ∧ p.body.length = 7 ∧ flags = UInt16.ofNat (fromLe ((p.body.take 5).drop 3)) := by
  have hread := h
  simp only [EofData.fromPacket, Option.bind_eq_bind] at hread
  split_ifs at hread with htype
  obtain ⟨clientFlag, hclient, hread⟩ := Option.bind_eq_some_iff.1 hread
  split_ifs at hread with h41
  · have hlen := EofData.fields_length hread
    obtain ⟨eof', heof', hstatus⟩ := EofData.fromPacket_seven h41 hclient htype hlen
    cases h.symm.trans heof'
    exact ⟨⟨clientFlag, hclient, h41⟩, htype, hlen, Option.some.inj (hflags.symm.trans hstatus)⟩
  · cases hread
    cases hflags

namespace ResponseAccumulator

/-- Status flags are read in an OK or an EOF packet, and leave accumulator and packet alone. -/
theorem hydrateRow_flags {flags : UInt16} (hok : p.pType ≠ .ok)
    (h : self.hydrateRow p c = some (self', p', some flags)) : self' = self ∧ p' = p ∧
      ∃ eof, EofData.fromPacket p c = some eof ∧ eof.statusFlags = some flags := by
  unfold hydrateRow at h
  split at h
  · exact absurd ‹_› hok
  · obtain ⟨eof, heof, he⟩ := Option.map_eq_some_iff.1 h
    rw [Prod.mk.injEq, Prod.mk.injEq] at he
    obtain ⟨rfl, rfl, hflags⟩ := he
    exact ⟨rfl, rfl, eof, heof, hflags⟩
  · split at h
    · cases h
    · split at h
      · obtain ⟨r, -, he⟩ := Option.map_eq_some_iff.1 h
        cases he
      · cases h
  · cases h

/-- The packet of a round in `HydrateRows` that returns is no ERR packet. -/
theorem hydrateRow_pType_ne {flags : Option UInt16} (h : self.hydrateRow p c = some (self', p', flags)) :
    p'.pType ≠ .error := by
  have htype : p.pType ≠ .error := by
    intro herror
    simp [hydrateRow, herror] at h
  obtain ⟨-, ⟨-, rfl⟩ | ⟨-, _, diff, -, hover⟩⟩ := hydrateRow_cases h
  · exact htype
  · rw [(overrideRow_keeps hover).2]
    exact htype

/-- In a prepare response. -/
theorem processStmtPrepare_consume {phase : Phase}
    (h : self.processStmtPrepare p c phase = some (self', p', .consume)) :
    Reconsumes c p .comStmtPrepare self.state self'.state ∧ p' = p := by
  unfold processStmtPrepare at h
  cases hstate : self.state with simp only [hstate, Option.bind_eq_bind, Option.bind_eq_some_iff] at h
  | initiated =>
    obtain ⟨⟨self₁, omitted⟩, -, h⟩ := h
    split_ifs at h <;> cases h
    exact ⟨.prepared rfl (by simp), rfl⟩
  | metaExchange =>
    cases h
    refine ⟨.prepareParams rfl ?_, rfl⟩
    dsimp only
    split_ifs <;> simp
  | hydrateParams =>
    obtain ⟨param, -, h⟩ := h
    split_ifs at h <;> cases h
    exact ⟨.prepared rfl (by simp), rfl⟩
  | hydrateColumns =>
    obtain ⟨column, -, h⟩ := h
    split_ifs at h <;> cases h
    exact ⟨.prepared rfl (by simp), rfl⟩
  | _ => cases h

/-- In a result set, the packet being no OK packet. -/
theorem processResultSet_consume {phase : Phase} {command : Command} (hc : c.lastCommand = some command)
    (hprepare : command.comCode ≠ .comStmtPrepare) (hok : p.pType ≠ .ok)
    (h : self.processResultSet env p c phase = some (self', p', .consume)) :
    Reconsumes c p command.comCode self.state self'.state ∧ p'.pType = p.pType ∧ p'.body = p.body := by
  unfold processResultSet at h
  cases hstate : self.state with
    simp only [hstate, hc, Option.bind_eq_bind, Option.bind_eq_some_iff, Option.bind_some] at h
  | initiated =>
    split_ifs at h with hquery hlist
    · obtain ⟨clientFlag, -, h⟩ := Option.bind_eq_some_iff.1 h
      split_ifs at h <;> cases h <;> exact ⟨.query hquery (by simp), rfl, rfl⟩
    · cases h
      exact ⟨.fieldList hlist, rfl, rfl⟩
    · cases h
      exact ⟨.noColumns (by simp [hprepare, hquery, hlist]), rfl, rfl⟩
  | hydrateColumns =>
    split_ifs at h with heof
    · cases h
      exact ⟨.columnsEnd heof.1 heof.2, rfl, rfl⟩
    · obtain ⟨_, -, h⟩ := Option.bind_eq_some_iff.1 h
      cases h
  | columnsHydrated =>
    obtain ⟨clientFlag, hflag, h⟩ := h
    split_ifs at h with hlacks <;> cases h
    refine ⟨.noEof hprepare ?_, rfl, rfl⟩
    simpa [Connection.deprecatesEof, hflag, lacksFlag_eq_not] using hlacks
  | hydrateRows =>
    obtain ⟨⟨self₁, p₁, flags⟩, hrow, seq, -, h⟩ := h
    cases flags with
    | none =>
      have hnoerror := hydrateRow_pType_ne hrow
      simp only [hnoerror, Option.isSome_none, Bool.false_eq_true, or_self, if_false] at h
      cases h
    | some flags =>
      obtain ⟨rfl, rfl, eof, heof, hstatus⟩ := hydrateRow_flags hok hrow
      obtain ⟨h41, htype, hlen, hflags⟩ := EofData.fromPacket_flags heof hstatus
      simp only [Option.isSome_some, or_true, if_true, Option.any_some] at h
      cases h
      refine ⟨?_, rfl, rfl⟩
      by_cases hmore : flags &&& serverMoreResultsExist = 0
      · simpa [hmore] using .rowsEnd hprepare
      · simpa [hmore] using .moreResults hprepare ⟨h41, htype, hlen, fun hno => hmore (by rw [hflags]; exact hno)⟩
  | metaExchange | columnCount =>
    simp at h
  | _ => cases h

/-- **The rounds that call `consume` again**, and they do so with a packet of the same type and body. -/
theorem consumeStep_consume (h : self.consumeStep env p c = some (self', p', .consume)) :
    ∃ command, c.lastCommand = some command ∧ Reconsumes c p command.comCode self.state self'.state ∧
      p'.pType = p.pType ∧ p'.body = p.body := by
  unfold consumeStep at h
  cases hc : c.lastCommand with
  | none => simp [hc] at h
  | some command =>
    refine ⟨command, rfl, ?_⟩
    simp only [hc] at h
    split at h
    · rename_i hprepare
      obtain ⟨hstate, rfl⟩ := processStmtPrepare_consume h
      exact ⟨hprepare ▸ hstate, rfl, rfl⟩
    · cases h
    · rename_i hprepare _
      obtain ⟨self₀, hself₀, hset⟩ := Option.bind_eq_some_iff.1 h
      split_ifs at hset with hexecute
      · cases hset
      by_cases hord : Ordinary p
      · rw [completeOnErrorOrOk_ordinary hord] at hself₀
        cases hself₀
        exact processResultSet_consume hc hprepare hord.2 hset
      · simp [processResultSet, completeOnErrorOrOk_state hord hself₀] at hset

end ResponseAccumulator

/-! ## Counting down -/

/-- How often `consume` can still call itself on a prepare response, by the state. -/
def prepareRounds : State → Nat
  | .metaExchange => 2
  | .initiated => 1
  | .hydrateParams => 1
  | .hydrateColumns => 1
  | _ => 0

/-- On a response to COM_FIELD_LIST, when it does not go round in circles. -/
def fieldListRounds (deprecatesEof : Bool) : State → Nat
  | .initiated => if deprecatesEof then 4 else 2
  | .hydrateColumns => if deprecatesEof then 3 else 1
  | .columnsHydrated => if deprecatesEof then 2 else 0
  | .hydrateRows => if deprecatesEof then 1 else 3
  | _ => 0

/-- On any other response. -/
def resultSetRounds : State → Nat
  | .columnsHydrated => 3
  | .hydrateRows => 2
  | .initiated => 1
  | _ => 0

def roundsLeft (code : MySqlCommand) (deprecatesEof : Bool) (state : State) : Nat :=
  if code = .comStmtPrepare then prepareRounds state
  else if code = .comFieldList then fieldListRounds deprecatesEof state
  else resultSetRounds state

theorem roundsLeft_le (code : MySqlCommand) (deprecatesEof : Bool) (state : State) :
    roundsLeft code deprecatesEof state ≤ 4 := by
  unfold roundsLeft
  cases deprecatesEof <;> split_ifs <;> cases state <;> decide

/-- COM_FIELD_LIST goes round in circles on such a packet: the end of the columns is read as the end of the rows, and the
end of the rows as the end of the columns of the next result set. -/
structure Cycles (c : Connection) (p : Packet) : Prop where
  command : ∃ command ∈ c.lastCommand, command.comCode = .comFieldList
  deprecatesEof : c.deprecatesEof
  more : MoreResults c p

/-- **Every transition counts down**, unless it is one of a circle. -/
theorem Reconsumes.roundsLeft_lt {command : Command} {s s' : State} (hc : c.lastCommand = some command)
    (hcycle : ¬ Cycles c p) (h : Reconsumes c p command.comCode s s') :
    roundsLeft command.comCode c.deprecatesEof s' < roundsLeft command.comCode c.deprecatesEof s := by
  cases h with
  | prepared hprepare hs =>
    simp only [List.mem_cons, List.not_mem_nil, or_false] at hs
    rcases hs with rfl | rfl | rfl <;> simp [roundsLeft, hprepare, prepareRounds]
  | prepareParams hprepare hs =>
    simp only [List.mem_cons, List.not_mem_nil, or_false] at hs
    rcases hs with rfl | rfl <;> simp [roundsLeft, hprepare, prepareRounds]
  | query hquery hs =>
    simp only [List.mem_cons, List.not_mem_nil, or_false] at hs
    rcases hs with rfl | rfl <;> simp [roundsLeft, hquery, resultSetRounds]
  | fieldList hlist =>
    cases hdep : c.deprecatesEof <;> simp [roundsLeft, hlist, fieldListRounds]
  | noColumns hother =>
    simp only [List.mem_cons, List.not_mem_nil, or_false, not_or] at hother
    simp [roundsLeft, hother.1, hother.2.2, resultSetRounds]
  | columnsEnd hlist _ =>
    cases hdep : c.deprecatesEof <;> simp [roundsLeft, hlist, fieldListRounds]
  | noEof hprepare hdep =>
    by_cases hlist : command.comCode = .comFieldList <;>
      simp [roundsLeft, hprepare, hlist, hdep, fieldListRounds, resultSetRounds]
  | rowsEnd hprepare =>
    cases hdep : c.deprecatesEof <;> by_cases hlist : command.comCode = .comFieldList <;>
      simp [roundsLeft, hprepare, hlist, fieldListRounds, resultSetRounds]
  | moreResults hprepare hmore =>
    by_cases hlist : command.comCode = .comFieldList
    · have hdep : c.deprecatesEof = false := by
        by_contra hdep
        exact hcycle ⟨⟨command, hc, hlist⟩, by simpa using hdep, hmore⟩
      simp [roundsLeft, hlist, hdep, fieldListRounds]
    · simp [roundsLeft, hprepare, hlist, resultSetRounds]

theorem MoreResults.of_packet (h : MoreResults c p) (htype : p'.pType = p.pType) (hbody : p'.body = p.body) :
    MoreResults c p' := by
  obtain ⟨h41, heof, hlen, hmore⟩ := h
  exact ⟨h41, htype.trans heof, by rw [hbody]; exact hlen, by rw [hbody]; exact hmore⟩

theorem Cycles.of_packet (h : Cycles c p) (htype : p'.pType = p.pType) (hbody : p'.body = p.body) : Cycles c p' :=
  ⟨h.command, h.deprecatesEof, h.more.of_packet htype hbody⟩

/-! ## Going round in circles -/

/-- The states of the circle. -/
def circle : List State := [.initiated, .hydrateColumns, .columnsHydrated, .hydrateRows]

/-- The state behind each of them. -/
def nextOnCircle : State → State
  | .initiated => .hydrateColumns
  | .hydrateColumns => .columnsHydrated
  | .columnsHydrated => .hydrateRows
  | _ => .initiated

theorem nextOnCircle_mem (s : State) : nextOnCircle s ∈ circle := by cases s <;> decide

/-- **One round on the circle**: the next state, and in `HydrateRows` the packet renumbered. -/
theorem Cycles.round (h : Cycles c p) (hs : self.state ∈ circle) : self.consumeStep env p c =
    (if self.state = .hydrateRows then ResponseAccumulator.subtractSkipped env p.header.seq self.skippedPackets
      else some p.header.seq).map fun seq =>
        ({ self with state := nextOnCircle self.state }, { p with header := { p.header with seq } }, .consume) := by
  obtain ⟨⟨command, hc, hlist⟩, hdep, ⟨clientFlag, hclient, h41⟩, heof, hlen, hmore⟩ := h
  have hkeep := @ResponseAccumulator.completeOnErrorOrOk_ordinary c p self (by simp [Ordinary, heof])
  have hround : self.consumeStep env p c = self.processResultSet env p c c.phase := by
    simp [ResponseAccumulator.consumeStep, Option.mem_def.1 hc, hlist, hkeep]
  rw [hround, ResponseAccumulator.processResultSet]
  simp only [circle, List.mem_cons, List.not_mem_nil, or_false] at hs
  rcases hs with hs | hs | hs | hs
  · simp [hs, Option.mem_def.1 hc, hlist, nextOnCircle]
  · simp [hs, Option.mem_def.1 hc, hlist, heof, nextOnCircle]
    rw [← heof]
  · have hlacks : lacksFlag clientFlag .clientDeprecateEof = false := by
      rw [lacksFlag_eq_not]
      simpa [Connection.deprecatesEof, Option.mem_def.1 hclient] using hdep
    simp [hs, Option.mem_def.1 hclient, hlacks, nextOnCircle]
  · obtain ⟨eof, hread, hflags⟩ := EofData.fromPacket_seven h41 hclient heof hlen
    have hrow : self.hydrateRow p c = some (self, p, eof.statusFlags) := by
      simp [ResponseAccumulator.hydrateRow, heof, hread]
    have hmore' : UInt16.ofNat (fromLe ((p.body.take 5).drop 3)) &&& serverMoreResultsExist ≠ 0 := hmore
    simp only [hs, hrow, hflags, Option.bind_eq_bind, Option.bind_some, if_true, nextOnCircle]
    cases ResponseAccumulator.subtractSkipped env p.header.seq self.skippedPackets with
    | none => rfl
    | some seq => simp [hmore']

/-- The subtraction is unchecked, or takes nothing away: nothing stops the circle. -/
structure Spins (env : Env) (c : Connection) (self : ResponseAccumulator) (p : Packet) : Prop where
  cycles : Cycles c p
  state : self.state ∈ circle
  unchecked : env.overflowChecks → self.skippedPackets % 256 = 0

/-- A round on the circle that returns stays on it. -/
theorem Cycles.goes_round (h : Cycles c p) (hs : self.state ∈ circle) {seq : UInt8}
    (hseq : (if self.state = .hydrateRows then ResponseAccumulator.subtractSkipped env p.header.seq self.skippedPackets
      else some p.header.seq) = some seq) :
    ResponseAccumulator.consumeRound env c (self, p) =
      .again ({ self with state := nextOnCircle self.state }, { p with header := { p.header with seq } }) := by
  rw [ResponseAccumulator.consumeRound_again, h.round hs, hseq]
  rfl

theorem not_stops_of_spins (h : Spins env c self p) : ¬ Stops (ResponseAccumulator.consumeRound env c) (self, p) := by
  refine @not_stops _ _ _ (fun s => Spins env c s.1 s.2) ?_ _ h
  rintro ⟨self, p⟩ ⟨hcycles, hs, hunchecked⟩
  have hseq : ∃ seq, (if self.state = .hydrateRows then
      ResponseAccumulator.subtractSkipped env p.header.seq self.skippedPackets else some p.header.seq) = some seq := by
    split_ifs
    · refine ⟨_, if_neg ?_⟩
      rintro ⟨hchecks, hlt⟩
      have hzero : UInt8.ofNat self.skippedPackets = 0 := by
        apply UInt8.toNat_inj.1
        simpa using hunchecked hchecks
      rw [hzero] at hlt
      exact absurd hlt (by simp)
    · exact ⟨_, rfl⟩
  obtain ⟨seq, hseq⟩ := hseq
  exact ⟨_, hcycles.goes_round hs hseq, hcycles.of_packet rfl rfl, nextOnCircle_mem _, hunchecked⟩

/-- How many rounds of the circle are left in front of the subtraction. -/
def placeOnCircle : State → Nat
  | .initiated => 3
  | .hydrateColumns => 2
  | .columnsHydrated => 1
  | _ => 0

/-- With overflow checks a subtraction that takes something away can only be made so often. -/
theorem Cycles.stops_of_checked (h : Cycles c p) (hs : self.state ∈ circle) (hchecks : env.overflowChecks)
    (hskipped : self.skippedPackets % 256 ≠ 0) : Stops (ResponseAccumulator.consumeRound env c) (self, p) := by
  refine ⟨4 * p.header.seq.toNat + placeOnCircle self.state + 1, @isSome_loop _ _ _
    (fun s => Cycles c s.2 ∧ s.1.state ∈ circle ∧ s.1.skippedPackets % 256 ≠ 0)
    (fun s => 4 * s.2.header.seq.toNat + placeOnCircle s.1.state) ?_ _ _ ⟨h, hs, hskipped⟩ (Nat.lt_succ_self _)⟩
  rintro ⟨self, p⟩ ⟨self', p'⟩ ⟨hcycles, hs, hskipped⟩ hagain
  rw [ResponseAccumulator.consumeRound_again, hcycles.round hs] at hagain
  obtain ⟨seq, hseq, he⟩ := Option.map_eq_some_iff.1 hagain
  cases he
  refine ⟨⟨hcycles.of_packet rfl rfl, nextOnCircle_mem _, hskipped⟩, ?_⟩
  simp only
  by_cases hrows : self.state = .hydrateRows
  · rw [if_pos hrows] at hseq
    have hlt : seq.toNat < p.header.seq.toNat := by
      unfold ResponseAccumulator.subtractSkipped at hseq
      split_ifs at hseq with hoverflow
      cases hseq
      have hle : UInt8.ofNat self.skippedPackets ≤ p.header.seq := by
        by_contra hgt
        exact hoverflow ⟨hchecks, UInt8.not_le.1 hgt⟩
      have hpos : 0 < (UInt8.ofNat self.skippedPackets).toNat := by
        have hne : self.skippedPackets % 256 ≠ 0 := hskipped
        simp
        omega
      rw [UInt8.toNat_sub_of_le _ _ hle]
      have := UInt8.le_iff_toNat_le.1 hle
      omega
    simp only [hrows, nextOnCircle, placeOnCircle]
    omega
  · rw [if_neg hrows] at hseq
    cases hseq
    simp only [circle, List.mem_cons, List.not_mem_nil, or_false] at hs
    rcases hs with hs | hs | hs | hs
    · simp [hs, nextOnCircle, placeOnCircle]
    · simp [hs, nextOnCircle, placeOnCircle]
    · simp [hs, nextOnCircle, placeOnCircle]
    · exact absurd hs hrows

/-! ## The rounds of a call -/

/-- Off the circle, a call is over after five rounds. -/
theorem isSome_loop_five (h : ¬ (Cycles c p ∧ self.state ∈ circle)) :
    (loop (ResponseAccumulator.consumeRound env c) 5 (self, p)).isSome := by
  by_cases hcycles : Cycles c p
  · refine isSome_loop_last ?_ 4
    rintro ⟨self', p'⟩ hagain
    obtain ⟨command, hc, hstate, -⟩ :=
      ResponseAccumulator.consumeStep_consume (ResponseAccumulator.consumeRound_again.1 hagain)
    obtain ⟨command', hc', hlist⟩ := hcycles.command
    cases hc'.symm.trans hc
    have hs : self.state ∈ circle := by
      generalize self.state = s, self'.state = s' at hstate
      cases hstate <;> simp_all [circle]
    exact h ⟨hcycles, hs⟩
  · cases hc : c.lastCommand with
    | none =>
      refine isSome_loop_last ?_ 4
      rintro ⟨self', p'⟩ hagain
      obtain ⟨command, hc', -⟩ :=
        ResponseAccumulator.consumeStep_consume (ResponseAccumulator.consumeRound_again.1 hagain)
      rw [hc] at hc'
      cases hc'
    | some command =>
      refine @isSome_loop _ _ _ (fun s => ¬ Cycles c s.2)
        (fun s => roundsLeft command.comCode c.deprecatesEof s.1.state) ?_ _ _ hcycles
        (Nat.lt_succ_of_le (roundsLeft_le _ _ _))
      rintro ⟨self, p⟩ ⟨self', p'⟩ hcycles hagain
      obtain ⟨command', hc', hstate, htype, hbody⟩ :=
        ResponseAccumulator.consumeStep_consume (ResponseAccumulator.consumeRound_again.1 hagain)
      cases hc.symm.trans hc'
      exact ⟨fun hcycles' => hcycles (hcycles'.of_packet htype.symm hbody.symm), hstate.roundsLeft_lt hc hcycles⟩

/-- **A call of `consume` returns or panics**, unless it is COM_FIELD_LIST's and spins. -/
theorem consume_stops_iff :
    Stops (ResponseAccumulator.consumeRound env c) (self, p) ↔ ¬ Spins env c self p := by
  constructor
  · exact fun hstops hspins => not_stops_of_spins hspins hstops
  · intro hspins
    by_cases hcircle : Cycles c p ∧ self.state ∈ circle
    · obtain ⟨hcycles, hs⟩ := hcircle
      have hchecked : env.overflowChecks ∧ self.skippedPackets % 256 ≠ 0 := by
        by_contra hno
        exact hspins ⟨hcycles, hs, fun hchecks => by_contra fun hne => hno ⟨hchecks, hne⟩⟩
      exact hcycles.stops_of_checked hs hchecked.1 hchecked.2
    · exact ⟨5, isSome_loop_five hcircle⟩

/-- **The fuel of `consume` is enough**: whatever the rounds come to, it comes to. -/
theorem consume_eq_of_loop {fuel : Nat} {r : Option (ResponseAccumulator × Packet × Phase)}
    (h : loop (ResponseAccumulator.consumeRound env c) fuel (self, p) = some r) : self.consume env p c = r := by
  rw [ResponseAccumulator.consume, ResponseAccumulator.consumeLoop_eq]
  by_cases hcircle : Cycles c p ∧ self.state ∈ circle
  · have hnone : ∀ fuel r, loop (ResponseAccumulator.consumeRound env c) fuel (self, p) ≠ some (some r) := by
      intro fuel r
      refine @loop_ne_done _ _ _ (fun s => Cycles c s.2 ∧ s.1.state ∈ circle) ?_ _ _ _ hcircle
      rintro ⟨self, p⟩ ⟨hcycles, hs⟩
      cases hseq : (if self.state = .hydrateRows then
          ResponseAccumulator.subtractSkipped env p.header.seq self.skippedPackets else some p.header.seq) with
      | none =>
        left
        simp only [ResponseAccumulator.consumeRound, hcycles.round hs, hseq, Option.map_none]
      | some seq => exact .inr ⟨_, hcycles.goes_round hs hseq, hcycles.of_packet rfl rfl, nextOnCircle_mem _⟩
    cases r with
    | some r => exact absurd h (hnone fuel r)
    | none =>
      cases h16 : loop (ResponseAccumulator.consumeRound env c) ResponseAccumulator.consumeFuel (self, p) with
      | none => rfl
      | some r =>
        cases r with
        | none => rfl
        | some r => exact absurd h16 (hnone _ r)
  · obtain ⟨r', hr'⟩ := Option.isSome_iff_exists.1 (@isSome_loop_five env _ _ _ hcircle)
    have hsame : r' = r := by
      rcases Nat.le_total 5 fuel with hle | hle
      · exact Option.some.inj ((loop_mono hr' hle).symm.trans h)
      · exact Option.some.inj (hr'.symm.trans (loop_mono h hle))
    rw [loop_mono hr' (show 5 ≤ ResponseAccumulator.consumeFuel by decide), hsame]
    rfl

end

/-- A client that waits for the columns of a table. -/
def sampleFieldList : Connection :=
  { sampleAwaiting 0x01000200 with lastCommand := some ⟨.comFieldList, "t", none⟩ }

/-- The EOF packet behind the columns has SERVER_MORE_RESULTS_EXISTS set. -/
theorem field_list_spins : ¬ Stops (ResponseAccumulator.consumeRound sampleEnv sampleFieldList)
    (.default, samplePacket 1 [0xfe, 0, 0, 8, 0, 0, 0] .eof) :=
  not_stops_of_spins ⟨⟨⟨_, rfl, rfl⟩, by decide, ⟨_, rfl, by decide⟩, rfl, rfl, by decide⟩, by decide, fun _ => rfl⟩

end MocksySql
