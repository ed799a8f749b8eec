import Mathlib.Data.List.Chain
import MocksySql.ConsumeTermination
import MocksySql.RowFrame
/-!
# The numbers of the packets sent on

A row that is dropped leaves a gap, which `packet.header.seq -= self.skipped_packets as u8` closes for the packets
behind it (`result_set.rs:368`), among the rows. An ERR or OK packet completes the response before it gets there.

* `consume_query` — what a call of `consume` does to a packet's number.
* `Counted.step` — the packets sent on so far, the rows dropped so far and the next number.
* `numbers_kept_iff` — when the numbers have no gap and no subtraction overflows.
-/

namespace MocksySql

open FieldDecode PartialRun FuelLoop Relation

/-! ## One call of `consume` -/

namespace ResponseAccumulator

/-- The next row or terminator is read among the rows. -/
def AtRows (self : ResponseAccumulator) (c : Connection) : Prop :=
  self.state = .hydrateRows ∨ self.state = .columnsHydrated ∧ c.deprecatesEof

def amongRows (self : ResponseAccumulator) : ResponseAccumulator := { self with state := .hydrateRows }

theorem amongRows_eq {self : ResponseAccumulator} (h : self.state = .hydrateRows) : self.amongRows = self := by
  rw [amongRows, ← h]

/-- The states in which a response to a COM_QUERY goes on. -/
def querying : List State := [.initiated, .hydrateColumns, .columnsHydrated, .hydrateRows]

section
variable {env : Env} {c : Connection} {clientFlag : UInt32} {p p' : Packet} {self self' : ResponseAccumulator}
variable {phase : Phase} {fuel : Nat}

/-- `override_row` counts the rows it drops, and leaves the number to be shifted. -/
theorem hydrateRow_counts {acc : ResponseAccumulator} {flags : Option UInt16} (hskip : p.skip = false)
    (h : self.hydrateRow p c = some (acc, p', flags)) : acc.state = self.state ∧
      acc.skippedPackets = self.skippedPackets + p'.skip.toNat ∧ p'.header.seq = p.header.seq := by
  obtain ⟨-, ⟨rfl, rfl⟩ | ⟨-, _, diff, -, hover⟩⟩ := hydrateRow_cases h
  · exact ⟨rfl, by simp [hskip], rfl⟩
  · obtain ⟨_, _, _, _, _, skipped, _, _, _, _, _, rfl, rfl⟩ := overrideRow_cases hover
    exact ⟨rfl, by simp [hskip], rfl⟩

/-- Another result set cannot begin with the terminator of the one before: it is no column count (`result_set.rs:311`). -/
theorem consumeLoop_moreResults (h : AwaitsQuery c clientFlag) (hp : Typed p) (hmore : MoreResults c p)
    (hstate : self.state = .initiated) : consumeLoop env c fuel self p = none := by
  obtain ⟨command, hc, hquery⟩ := h.command
  have hord : Ordinary p := by simp [Ordinary, hmore.pType]
  cases fuel with
  | zero => rfl
  | succ fuel =>
    have hround : ∃ state, state ∈ [State.metaExchange, .columnCount] ∧
        self.consumeStep env p c = some ({ self with state }, p, .consume) := by
      rw [consumeStep_ordinary h hord, processResultSet, hstate]
      simp only [hc, hquery, h.flags, Option.bind_eq_bind, Option.bind_some, if_true]
      split_ifs
      · exact ⟨_, by simp, rfl⟩
      · exact ⟨_, by simp, rfl⟩
    obtain ⟨state, hmem, hround⟩ := hround
    have hpanic : ({ self with state } : ResponseAccumulator).consumeStep env p c = none := by
      rw [consumeStep_ordinary h hord]
      simp only [List.mem_cons, List.not_mem_nil, or_false] at hmem
      rcases hmem with rfl | rfl
      · simp [processResultSet, IntLenEnc.fromBytes]
      · have hslice : slice p.body 1 9 = none := by
          rw [slice, if_neg]
          rw [hmore.length]
          omega
        simp [processResultSet, IntLenEnc.fromBytes, hp.head_eof hmore.pType, leAfterMarker, hslice]
    rw [consumeLoop_consume hround]
    cases fuel with
    | zero => rfl
    | succ fuel => rw [consumeLoop, hpanic]

/-- **A packet among the rows**: it is renumbered by the rows dropped, itself included. -/
theorem consumeLoop_rows (h : AwaitsQuery c clientFlag) (hord : Ordinary p) (hp : Typed p)
    (hstate : self.state = .hydrateRows) (hr : consumeLoop env c (fuel + 1) self p = some (self', p', phase)) :
    ∃ acc p₁ flags, self.hydrateRow p c = some (acc, p₁, flags) ∧
      subtractSkipped env p₁.header.seq acc.skippedPackets = some p'.header.seq ∧ p'.skip = p₁.skip ∧
      self'.skippedPackets = acc.skippedPackets ∧ (phase = .pendingResponse → self'.state = acc.state) := by
  rcases consumeLoop_some hr with hs | ⟨self₁, p₁, hs, hrest⟩
  · rw [consumeStep_ordinary h hord, processResultSet, hstate] at hs
    simp only [Option.bind_eq_bind, Option.bind_eq_some_iff] at hs
    obtain ⟨⟨acc, p₁, flags⟩, hrow, seq, hseq, hs⟩ := hs
    refine ⟨acc, p₁, flags, hrow, ?_⟩
    split_ifs at hs <;> cases hs
    exact ⟨hseq, rfl, rfl, fun _ => rfl⟩
  · obtain ⟨command, hc, htransition, htype, hbody⟩ := consumeStep_consume hs
    rw [consumeStep_ordinary h hord, processResultSet, hstate] at hs
    simp only [Option.bind_eq_bind, Option.bind_eq_some_iff] at hs
    obtain ⟨⟨acc, p₂, flags⟩, hrow, seq, hseq, hs⟩ := hs
    refine ⟨acc, p₂, flags, hrow, ?_⟩
    have hkeeps : p₁.header.seq = seq ∧ p₁.skip = p₂.skip ∧ self₁.skippedPackets = acc.skippedPackets := by
      split_ifs at hs <;> cases hs <;> exact ⟨rfl, rfl, rfl⟩
    obtain ⟨rfl, hskip, hskipped⟩ := hkeeps
    have hend : self₁.state = .complete := by
      rw [hstate] at htransition
      generalize hnext : self₁.state = next at htransition
      cases htransition with
      | rowsEnd _ => rfl
      | moreResults _ hmore =>
        have hmore₁ : MoreResults c p₁ := hmore.of_packet htype hbody
        have hp₁ : Typed p₁ := by rw [Typed, hbody, htype]; exact hp
        rw [consumeLoop_moreResults h hp₁ hmore₁ hnext] at hrest
        cases hrest
      | prepared _ hs => simp at hs
    cases fuel with
    | zero => cases hrest
    | succ fuel =>
      have hord₁ : Ordinary p₁ := by rw [Ordinary, htype]; exact hord
      rw [consumeLoop_complete h hord₁ hend] at hrest
      cases hrest
      exact ⟨hseq, hskip, hskipped, fun hphase => by cases hphase⟩

/-- The packet that brings the column count. -/
theorem consumeLoop_initiated (h : AwaitsQuery c clientFlag) (hord : Ordinary p) (hstate : self.state = .initiated)
    (hr : consumeLoop env c (fuel + 1) self p = some (self', p', phase)) :
    p' = p ∧ self'.skippedPackets = self.skippedPackets ∧ self'.state ∈ querying.tail := by
  obtain ⟨command, hc, hquery⟩ := h.command
  rcases consumeLoop_some hr with hs | ⟨self₁, p₁, hs, hrest⟩
  · rw [consumeStep_ordinary h hord, processResultSet, hstate] at hs
    simp only [hc, hquery, h.flags, Option.bind_eq_bind, Option.bind_some, if_true] at hs
    split_ifs at hs <;> cases hs
  · rw [consumeStep_ordinary h hord, processResultSet, hstate] at hs
    simp only [hc, hquery, h.flags, Option.bind_eq_bind, Option.bind_some, if_true] at hs
    cases fuel with
    | zero => cases hrest
    | succ fuel =>
      rw [consumeLoop] at hrest
      split_ifs at hs <;> cases hs <;> rw [consumeStep_ordinary h hord, processResultSet] at hrest
      · simp [IntLenEnc.fromBytes] at hrest
      · cases hcount : IntLenEnc.fromBytes p.body none with
        | none => simp [hcount] at hrest
        | some count =>
          simp only [hcount, h.flags, Option.bind_eq_bind, Option.bind_some] at hrest
          cases hrest
          refine ⟨rfl, rfl, ?_⟩
          dsimp only
          split_ifs <;> simp [querying]

/-- **A packet in front of the rows** is sent on as it came. -/
theorem consumeLoop_header (h : AwaitsQuery c clientFlag) (hord : Ordinary p) (hstate : self.state ∈ querying)
    (hrows : ¬ self.AtRows c) (hr : consumeLoop env c (fuel + 1) self p = some (self', p', phase)) :
    p' = p ∧ self'.skippedPackets = self.skippedPackets ∧ self'.state ∈ querying.tail := by
  obtain ⟨command, hc, hquery⟩ := h.command
  simp only [querying, List.mem_cons, List.not_mem_nil, or_false] at hstate
  rcases hstate with hstate | hstate | hstate | hstate
  · exact consumeLoop_initiated h hord hstate hr
  · rw [consumeLoop, consumeStep_ordinary h hord, processResultSet, hstate] at hr
    simp only [hc, hquery, Option.bind_eq_bind, Option.bind_some] at hr
    cases hcolumn : ColumnDefinition.fromPacket p with
    | none => simp [hcolumn] at hr
    | some column =>
      simp [hcolumn] at hr
      obtain ⟨rfl, rfl, -⟩ := hr
      refine ⟨rfl, rfl, ?_⟩
      dsimp only
      split_ifs <;> simp [querying]
  · have hdep : lacksFlag clientFlag .clientDeprecateEof = true := by
      rw [lacksFlag_eq_not]
      by_contra hno
      exact hrows (.inr ⟨hstate, by simpa [Connection.deprecatesEof, h.flags] using hno⟩)
    rw [consumeLoop, consumeStep_ordinary h hord, processResultSet, hstate] at hr
    simp only [h.flags, hdep, Option.bind_eq_bind, Option.bind_some, if_true] at hr
    split_ifs at hr with heof
    cases hr
    exact ⟨rfl, rfl, by simp [querying]⟩
  · exact absurd (.inl hstate) hrows

/-- A call that goes on among the rows. -/
theorem consumeLoop_atRows (h : AwaitsQuery c clientFlag) (hord : Ordinary p) (hrows : self.AtRows c) :
    ∃ fuel, self.consume env p c = consumeLoop env c (fuel + 1) self.amongRows p := by
  rcases hrows with hstate | ⟨hstate, hdep⟩
  · exact ⟨15, by rw [amongRows_eq hstate]; rfl⟩
  · have hdep : hasFlag clientFlag .clientDeprecateEof := by simpa [Connection.deprecatesEof, h.flags] using hdep
    exact ⟨14, consumeLoop_columnsHydrated h hord hdep hstate⟩

/-- **A call of `consume`** on a packet that is neither ERR nor OK. -/
theorem consume_query (h : AwaitsQuery c clientFlag) (hord : Ordinary p) (hp : Typed p) (hstate : self.state ∈ querying)
    (hr : self.consume env p c = some (self', p', phase)) :
    (¬ self.AtRows c ∧ p' = p ∧ self'.skippedPackets = self.skippedPackets ∧ self'.state ∈ querying.tail) ∨
      (self.AtRows c ∧ ∃ acc p₁ flags, self.amongRows.hydrateRow p c = some (acc, p₁, flags) ∧
        subtractSkipped env p₁.header.seq acc.skippedPackets = some p'.header.seq ∧ p'.skip = p₁.skip ∧
        self'.skippedPackets = acc.skippedPackets ∧ (phase = .pendingResponse → self'.state = acc.state)) := by
  by_cases hrows : self.AtRows c
  · obtain ⟨fuel, hfuel⟩ := @consumeLoop_atRows env _ _ _ _ h hord hrows
    rw [hfuel] at hr
    exact .inr ⟨hrows, consumeLoop_rows h hord hp rfl hr⟩
  · exact .inl ⟨hrows, consumeLoop_header h hord hstate hrows hr⟩

theorem consumeStep_columnsHydrated (h : AwaitsQuery c clientFlag) (hord : Ordinary p) (hdep : c.deprecatesEof)
    (hstate : self.state = .columnsHydrated) : self.consumeStep env p c = some (self.amongRows, p, .consume) := by
  have hlacks : lacksFlag clientFlag .clientDeprecateEof = false := by
    rw [lacksFlag_eq_not]
    simpa [Connection.deprecatesEof, h.flags] using hdep
  rw [consumeStep_ordinary h hord]
  simp [processResultSet, hstate, h.flags, hlacks, amongRows]

end
end ResponseAccumulator

/-! ## Overflow -/

/-- The round subtracts more than the packet's number, which panics. -/
def SubtractsTooMuch (env : Env) (c : Connection) (s : ResponseAccumulator × Packet) : Prop :=
  ∃ self acc p flags, s.1.completeOnErrorOrOk s.2 c = some self ∧ self.state = .hydrateRows ∧
    self.hydrateRow s.2 c = some (acc, p, flags) ∧
      ResponseAccumulator.subtractSkipped env p.header.seq acc.skippedPackets = none

/-- A round of the call of `consume` on the packet does. -/
def Overflows (env : Env) (c : Connection) (p : Packet) : Prop :=
  ∃ s, ReflTransGen (fun s s' => ResponseAccumulator.consumeRound env c s = .again s') (c.queryResponse, p) s ∧
    SubtractsTooMuch env c s

section
variable {env : Env} {c : Connection} {clientFlag : UInt32} {p p' : Packet} {self : ResponseAccumulator}

theorem subtractsTooMuch_iff : SubtractsTooMuch env c (self, p) ↔ Ordinary p ∧ self.state = .hydrateRows ∧
    ∃ acc p₁ flags, self.hydrateRow p c = some (acc, p₁, flags) ∧
      ResponseAccumulator.subtractSkipped env p₁.header.seq acc.skippedPackets = none := by
  constructor
  · rintro ⟨self₀, acc, p₁, flags, hcomplete, hstate, hrow, hseq⟩
    have hord : Ordinary p := by
      by_contra hnot
      rw [ResponseAccumulator.completeOnErrorOrOk_state hnot hcomplete] at hstate
      cases hstate
    rw [ResponseAccumulator.completeOnErrorOrOk_ordinary hord] at hcomplete
    cases hcomplete
    exact ⟨hord, hstate, acc, p₁, flags, hrow, hseq⟩
  · rintro ⟨hord, hstate, acc, p₁, flags, hrow, hseq⟩
    exact ⟨self, acc, p₁, flags, ResponseAccumulator.completeOnErrorOrOk_ordinary hord, hstate, hrow, hseq⟩

/-- In a query's response nothing leads back to the rows. -/
theorem not_rows_of_reaches (h : AwaitsQuery c clientFlag) {s s' : ResponseAccumulator × Packet}
    (hs : s.1.state ≠ .columnsHydrated ∧ s.1.state ≠ .hydrateRows)
    (hreach : ReflTransGen (fun s s' => ResponseAccumulator.consumeRound env c s = .again s') s s') :
    s'.1.state ≠ .columnsHydrated ∧ s'.1.state ≠ .hydrateRows := by
  obtain ⟨command, hc, hquery⟩ := h.command
  induction hreach with
  | refl => exact hs
  | tail _ hstep ih =>
    obtain ⟨command', hc', htransition, -⟩ :=
      ResponseAccumulator.consumeStep_consume (ResponseAccumulator.consumeRound_again.1 hstep)
    cases hc.symm.trans hc'
    rename_i s₁ s₂ _
    generalize s₁.1.state = state₁, s₂.1.state = state₂ at htransition ih
    cases htransition with
    | query _ hnext =>
      simp only [List.mem_cons, List.not_mem_nil, or_false] at hnext
      rcases hnext with rfl | rfl <;> simp
    | _ => simp_all

/-- The rows are read in one round of a call. -/
theorem rows_once (h : AwaitsQuery c clientFlag) {s s' : ResponseAccumulator × Packet} (hs : s.1.state = .hydrateRows)
    (hs' : s'.1.state = .hydrateRows)
    (hreach : ReflTransGen (fun s s' => ResponseAccumulator.consumeRound env c s = .again s') s s') : s' = s := by
  rcases hreach.cases_head with rfl | ⟨s₁, hstep, hrest⟩
  · rfl
  · exfalso
    obtain ⟨command, -, htransition, -⟩ :=
      ResponseAccumulator.consumeStep_consume (ResponseAccumulator.consumeRound_again.1 hstep)
    rw [hs] at htransition
    have hs₁ : s₁.1.state ≠ .columnsHydrated ∧ s₁.1.state ≠ .hydrateRows := by
      generalize s₁.1.state = state at htransition
      cases htransition <;> simp_all
    exact (not_rows_of_reaches h hs₁ hrest).2 hs'

/-- **When a call overflows**: among the rows, the rows dropped are more than the packet's number. -/
theorem overflows_iff (h : AwaitsQuery c clientFlag) : Overflows env c p ↔
    Ordinary p ∧ c.queryResponse.AtRows c ∧ ∃ acc p₁ flags,
      c.queryResponse.amongRows.hydrateRow p c = some (acc, p₁, flags) ∧
        ResponseAccumulator.subtractSkipped env p₁.header.seq acc.skippedPackets = none := by
  constructor
  · rintro ⟨⟨self, q⟩, hreach, hover⟩
    obtain ⟨hord, hstate, hover⟩ := subtractsTooMuch_iff.1 hover
    by_cases hrows : c.queryResponse.state = .hydrateRows
    · obtain ⟨rfl, rfl⟩ := Prod.mk.inj (rows_once h hrows hstate hreach)
      exact ⟨hord, .inl hrows, by rwa [ResponseAccumulator.amongRows_eq hrows]⟩
    · by_cases hcolumns : c.queryResponse.state = .columnsHydrated
      · rcases hreach.cases_head with he | ⟨⟨self₁, p₁⟩, hstep, hrest⟩
        · rw [← (Prod.mk.inj he).1, hcolumns] at hstate
          cases hstate
        · have hround := ResponseAccumulator.consumeRound_again.1 hstep
          obtain ⟨command', hc', htransition, -⟩ := ResponseAccumulator.consumeStep_consume hround
          have hordp : Ordinary p := by
            by_contra hnot
            rw [ResponseAccumulator.consumeStep_completes h hnot] at hround
            obtain ⟨_, -, he⟩ := Option.map_eq_some_iff.1 hround
            cases he
          have hdep : c.deprecatesEof := by
            rw [hcolumns] at htransition
            generalize self₁.state = state at htransition
            cases htransition with
            | noEof _ hdep => exact hdep
            | prepared _ hs => simp at hs
          rw [ResponseAccumulator.consumeStep_columnsHydrated h hordp hdep hcolumns] at hround
          cases hround
          obtain ⟨rfl, rfl⟩ := Prod.mk.inj (rows_once h rfl hstate hrest)
          exact ⟨hord, .inr ⟨hcolumns, hdep⟩, hover⟩
      · exact absurd hstate (not_rows_of_reaches h ⟨hcolumns, hrows⟩ hreach).2
  · rintro ⟨hord, hrows | ⟨hcolumns, hdep⟩, hover⟩
    · rw [ResponseAccumulator.amongRows_eq hrows] at hover
      exact ⟨_, .refl, subtractsTooMuch_iff.2 ⟨hord, hrows, hover⟩⟩
    · refine ⟨(c.queryResponse.amongRows, p), .single ?_, subtractsTooMuch_iff.2 ⟨hord, rfl, hover⟩⟩
      rw [ResponseAccumulator.consumeRound_again]
      exact ResponseAccumulator.consumeStep_columnsHydrated h hord hdep hcolumns

end

/-! ## Runs -/

/-- The packets sent on. -/
def sentOn (outs : List (Option Packet)) : List Packet := outs.filterMap id

/-- The packet is reached, in this state and after these outputs. -/
def Reached (env : Env) (c : Connection) (ps : List Packet) (outs : List (Option Packet)) (c₁ : Connection)
    (p : Packet) : Prop :=
  ∃ pre post, ps = pre ++ p :: post ∧ run (consumePacket env) c pre = some (c₁, outs)

/-- Packets of one response, as `make_packets` hands them on: typed by their bodies, numbered consecutively, and none of
them dropped yet. -/
structure OneResponse (env : Env) (c : Connection) (ps : List Packet) : Prop where
  typed : ∀ p ∈ ps, Typed p ∧ p.skip = false
  numbers : InOrder (ps.map (·.header))
  waits : ∀ outs c₁ p, Reached env c ps outs c₁ p → c₁.phase = .pendingResponse

/-- The packets sent on are numbered consecutively, and no subtraction overflows. -/
structure NumbersKept (env : Env) (c : Connection) (ps : List Packet) : Prop where
  sent : InOrder ((sentOn ((transcript (consumePacket env) c ps).map (·.output))).map (·.header))
  subtraction : ∀ outs c₁ p, Reached env c ps outs c₁ p → ¬ Overflows env c₁ p

/-- Is the packet, read among the rows, one that `override_row` drops? -/
def dropsRow (c : Connection) (p : Packet) : Option Bool :=
  (c.queryResponse.amongRows.hydrateRow p c).map fun (_, packet, _) => packet.skip

/-- An ERR or OK packet comes when the rows dropped make up full turns of the counter, and the rows dropped are never
more than a row's number, both modulo 256. -/
structure NumberFits (env : Env) (dropped : Nat) (c : Connection) (p : Packet) : Prop where
  ending : ¬ Ordinary p → (c.queryResponse.completeOnErrorOrOk p c).isSome → dropped % 256 = 0
  counter : env.overflowChecks → Ordinary p → c.queryResponse.AtRows c → ∀ skipped ∈ dropsRow c p,
    (dropped + skipped.toNat) % 256 ≤ p.header.seq.toNat

theorem seqFollows_iff (a b : UInt8) : seqFollows a b ↔ b = a + 1 := by
  by_cases hb : b = 0
  · subst hb
    simp only [seqFollows, bne_self_eq_false, Bool.false_and, Bool.false_or, beq_self_eq_true, Bool.true_and,
      Bool.not_eq_true', bne_eq_false_iff_eq]
    grind
  · simp only [seqFollows, bne_iff_ne.2 hb, beq_eq_false_iff_ne.2 hb, Bool.true_and, Bool.false_and, Bool.or_false,
      Bool.not_eq_true', bne_eq_false_iff_eq]
    grind

theorem inOrder_append_singleton (ps : List Packet) (p : Packet) : InOrder ((ps ++ [p]).map (·.header)) ↔
    InOrder (ps.map (·.header)) ∧ ∀ q ∈ ps.getLast?, p.header.seq = q.header.seq + 1 := by
  simp only [InOrder, List.map_append, List.map_cons, List.map_nil, List.isChain_append, List.isChain_singleton,
    true_and, List.getLast?_map, List.head?_cons, Option.mem_def, Option.map_eq_some_iff, Option.some.injEq]
  refine and_congr_right fun _ => ⟨?_, ?_⟩
  · intro h q hq
    exact (seqFollows_iff _ _).1 (h _ ⟨q, hq, rfl⟩ _ rfl)
  · rintro h _ ⟨q, hq, rfl⟩ _ rfl
    exact (seqFollows_iff _ _).2 (h q hq)

@[simp] theorem sentOn_append (outs outs' : List (Option Packet)) :
    sentOn (outs ++ outs') = sentOn outs ++ sentOn outs' := List.filterMap_append

@[simp] theorem sentOn_some (p : Packet) : sentOn [some p] = [p] := rfl

@[simp] theorem sentOn_none : sentOn [none] = [] := rfl

/-- The packets sent on have no gap, and with the rows dropped behind the last of them the next number follows. -/
structure Numbered (outs : List (Option Packet)) (next : UInt8) : Prop where
  sent : InOrder ((sentOn outs).map (·.header))
  next : ∀ q ∈ (sentOn outs).getLast?, q.header.seq + 1 + UInt8.ofNat (outs.count none) = next

theorem Numbered.nil (next : UInt8) : Numbered [] next := ⟨.nil, by simp [sentOn]⟩

/-- A packet sent on closes the gap, and the number behind its own is next. -/
theorem Numbered.send {outs : List (Option Packet)} {next : UInt8} (h : Numbered outs next) {p : Packet}
    (hseq : p.header.seq + UInt8.ofNat (outs.count none) = next) : Numbered (outs ++ [some p]) (next + 1) where
  sent := by
    rw [sentOn_append, sentOn_some, inOrder_append_singleton]
    refine ⟨h.sent, fun q hq => ?_⟩
    have hnext := h.next q hq
    grind
  next := by
    intro q hq
    rw [sentOn_append, sentOn_some, List.getLast?_concat] at hq
    cases hq
    have hcount : (outs ++ [some p]).count none = outs.count none := by simp
    rw [hcount]
    grind

/-- A row that is dropped takes a number, and the gap grows. -/
theorem Numbered.drop {outs : List (Option Packet)} {next : UInt8} (h : Numbered outs next) :
    Numbered (outs ++ [none]) (next + 1) where
  sent := by simpa using h.sent
  next := by
    intro q hq
    rw [sentOn_append, sentOn_none, List.append_nil] at hq
    have hnext := h.next q hq
    have hcount : (outs ++ [none]).count none = outs.count none + 1 := by simp
    rw [hcount, UInt8.ofNat_add]
    grind

/-- What holds of a connection that waits for the packet of this number, after these outputs. -/
structure Counted (c : Connection) (clientFlag : UInt32) (outs : List (Option Packet)) (next : UInt8) : Prop where
  awaits : AwaitsQuery c clientFlag
  state : c.queryResponse.state ∈ ResponseAccumulator.querying
  dropped : c.queryResponse.skippedPackets = outs.count none
  rows : outs.count none ≠ 0 → c.queryResponse.state = .hydrateRows
  first : c.queryResponse.state ≠ .initiated → sentOn outs ≠ []
  numbered : Numbered outs next

section
variable {env : Env} {c c' : Connection} {clientFlag : UInt32} {p : Packet} {outs : List (Option Packet)}
variable {out : Option Packet}

/-- **A packet of the response** that is neither ERR nor OK is numbered right, and if the connection still waits all
this holds of it again. -/
theorem Counted.step (h : Counted c clientFlag outs p.header.seq) (hp : Typed p) (hskip : p.skip = false)
    (hord : Ordinary p) (hstep : consumePacket env c p = some (c', out)) :
    Numbered (outs ++ [out]) (p.header.seq + 1) ∧
      (c'.phase = .pendingResponse → Counted c' clientFlag (outs ++ [out]) (p.header.seq + 1)) := by
  obtain ⟨self', p', phase, hconsume, rfl⟩ := consumePacket_pending_cases h.awaits.phase hstep
  rw [consumePacket_pending h.awaits.phase hconsume] at hstep
  obtain ⟨-, rfl⟩ := Prod.mk.inj (Option.some.inj hstep)
  rcases ResponseAccumulator.consume_query h.awaits hord hp h.state hconsume with
    ⟨hheader, rfl, hskipped, hstate⟩ | ⟨hrows, acc, p₁, flags, hrow, hseq, hskip₁, hskipped, hstate⟩
  · have hnone : outs.count none = 0 := by
      by_contra hne
      exact hheader (.inl (h.rows hne))
    have hnumbered : Numbered (outs ++ [some p']) (p'.header.seq + 1) := h.numbered.send (by rw [hnone]; simp)
    simp only [hskip, Bool.false_eq_true, if_false]
    refine ⟨hnumbered, fun hphase => ⟨⟨hphase, h.awaits.command, h.awaits.flags⟩, ?_, ?_, ?_, ?_, hnumbered⟩⟩
    · exact List.mem_of_mem_tail hstate
    · simp [hskipped, h.dropped]
    · simp [hnone]
    · simp
  · obtain ⟨hacc, hcount, hseq₁⟩ := ResponseAccumulator.hydrateRow_counts hskip hrow
    have hnumber : p'.header.seq = p.header.seq - UInt8.ofNat acc.skippedPackets := by
      rw [hseq₁] at hseq
      unfold ResponseAccumulator.subtractSkipped at hseq
      split_ifs at hseq
      exact (Option.some.inj hseq).symm
    have hsome : sentOn outs ≠ [] := by
      refine h.first fun hinitiated => ?_
      rcases hrows with hrows | ⟨hrows, -⟩ <;> rw [hinitiated] at hrows <;> cases hrows
    have hdropped : acc.skippedPackets = outs.count none + p₁.skip.toNat := by rw [hcount, ← h.dropped]; rfl
    rw [hskip₁]
    have hnumbered : Numbered (outs ++ [if p₁.skip then none else some p']) (p.header.seq + 1) := by
      cases hdrops : p₁.skip with
      | false =>
        refine h.numbered.send ?_
        rw [hnumber, hdropped, hdrops]
        simp
      | true => exact h.numbered.drop
    refine ⟨hnumbered, fun hphase => ⟨⟨hphase, h.awaits.command, h.awaits.flags⟩, ?_, ?_, ?_, ?_, hnumbered⟩⟩
    · simp [hstate hphase, hacc, ResponseAccumulator.amongRows, ResponseAccumulator.querying]
    · cases hdrops : p₁.skip <;> simp [hskipped, hdropped, hdrops]
    · exact fun _ => (hstate hphase).trans hacc
    · intro _
      rw [sentOn_append]
      exact List.append_ne_nil_of_left_ne_nil hsome _

/-- An ERR or OK packet that can be read is sent on under its own number, and ends the response. -/
theorem Counted.completes (h : Counted c clientFlag outs p.header.seq) (hskip : p.skip = false)
    (hord : ¬ Ordinary p) : consumePacket env c p = (c.queryResponse.completeOnErrorOrOk p c).map fun acc =>
      ({ c with
          phase := .command
          queryResponse := { acc with status := some p.pType, accumulationComplete := true } }, some p) := by
  have hconsume := @ResponseAccumulator.consume_completes env c _ p c.queryResponse h.awaits hord
  cases hcomplete : c.queryResponse.completeOnErrorOrOk p c with
  | none =>
    rw [hcomplete] at hconsume
    cases hstep : consumePacket env c p with
    | none => rfl
    | some r =>
      obtain ⟨self', p', phase, hsome, -⟩ := consumePacket_pending_cases h.awaits.phase hstep
      rw [hconsume] at hsome
      cases hsome
  | some acc =>
    rw [hcomplete, Option.map_some] at hconsume
    rw [consumePacket_pending h.awaits.phase hconsume]
    simp [hskip]

/-- That number is the next one when the rows dropped make up full turns of the counter. -/
theorem Counted.ends_numbered (h : Counted c clientFlag outs p.header.seq) :
    InOrder ((sentOn (outs ++ [some p])).map (·.header)) ↔ outs.count none % 256 = 0 := by
  rw [sentOn_append, sentOn_some, inOrder_append_singleton]
  have hzero : UInt8.ofNat (outs.count none) = 0 ↔ outs.count none % 256 = 0 := by
    rw [← UInt8.toNat_inj]
    simp
  rw [← hzero]
  constructor
  · rintro ⟨-, hlast⟩
    by_cases hnone : outs.count none = 0
    · rw [hnone]; rfl
    · have hsome : sentOn outs ≠ [] := h.first (by rw [h.rows hnone]; simp)
      have hq := List.getLast?_eq_some_getLast hsome
      have hnext := h.numbered.next _ hq
      have hseq := hlast _ hq
      grind
  · intro hturns
    refine ⟨h.numbered.sent, fun q hq => ?_⟩
    have hnext := h.numbered.next q hq
    grind

theorem Counted.not_overflows_iff (h : Counted c clientFlag outs p.header.seq) (hskip : p.skip = false) :
    ¬ Overflows env c p ↔ (env.overflowChecks → Ordinary p → c.queryResponse.AtRows c → ∀ skipped ∈ dropsRow c p,
      (outs.count none + skipped.toNat) % 256 ≤ p.header.seq.toNat) := by
  rw [overflows_iff h.awaits]
  constructor
  · intro hnot hchecks hord hrows skipped hdrops
    obtain ⟨⟨acc, p₁, flags⟩, hrow, rfl⟩ := Option.map_eq_some_iff.1 hdrops
    obtain ⟨-, hcount, hseq⟩ := ResponseAccumulator.hydrateRow_counts hskip hrow
    by_contra hlt
    refine hnot ⟨hord, hrows, acc, p₁, flags, hrow, ResponseAccumulator.subtractSkipped_eq_none.2 ⟨hchecks, ?_⟩⟩
    rw [hcount, hseq, ← h.dropped] at *
    exact Nat.lt_of_not_le hlt
  · rintro hfits ⟨hord, hrows, acc, p₁, flags, hrow, hnone⟩
    obtain ⟨hchecks, hlt⟩ := ResponseAccumulator.subtractSkipped_eq_none.1 hnone
    obtain ⟨-, hcount, hseq⟩ := ResponseAccumulator.hydrateRow_counts hskip hrow
    have hle := hfits hchecks hord hrows p₁.skip (Option.map_eq_some_iff.2 ⟨_, hrow, rfl⟩)
    rw [← h.dropped] at hle
    rw [hcount, hseq] at hlt
    exact absurd hle (Nat.not_le_of_lt hlt)

/-! ## The whole response -/

variable {ps : List Packet}

theorem counted_of_reached (h : AwaitsQuery c clientFlag) (hfresh : c.queryResponse = .default)
    (hps : OneResponse env c ps) : ∀ {pre : List Packet} {c₁ : Connection} {outs : List (Option Packet)} {p : Packet}
      {post : List Packet}, ps = pre ++ p :: post → run (consumePacket env) c pre = some (c₁, outs) →
      Counted c₁ clientFlag outs p.header.seq := by
  intro pre
  induction pre using List.reverseRecOn with
  | nil =>
    intro c₁ outs p post _ hrun
    cases hrun
    refine ⟨h, ?_, ?_, ?_, ?_, .nil _⟩ <;> simp [hfresh, ResponseAccumulator.default, ResponseAccumulator.querying]
  | append_singleton pre q ih =>
    intro c₁ outs p post hsplit hrun
    have hwaits : c₁.phase = .pendingResponse := hps.waits outs c₁ p ⟨pre ++ [q], post, hsplit, hrun⟩
    rw [List.append_assoc, List.singleton_append] at hsplit
    obtain ⟨c₀, outs₀, out, hpre, hstep, rfl⟩ := run_concat_split hrun
    have hcounted := ih hsplit hpre
    obtain ⟨htyped, hskip⟩ := hps.typed q (by rw [hsplit]; simp)
    have hord : Ordinary q := by
      by_contra hord
      rw [hcounted.completes hskip hord] at hstep
      obtain ⟨acc, -, he⟩ := Option.map_eq_some_iff.1 hstep
      cases he
      cases hwaits
    have hnext : p.header.seq = q.header.seq + 1 := by
      have hnumbers := hps.numbers
      rw [hsplit, InOrder, List.map_append, List.map_cons, List.map_cons, List.isChain_append_cons_cons] at hnumbers
      exact (seqFollows_iff _ _).1 hnumbers.2.1
    rw [hnext]
    exact (hcounted.step htyped hskip hord hstep).2 hwaits

/-- **The numbers of a response**: they are consecutive, and no subtraction overflows, if and only if every packet that is
reached fits the rows dropped in front of it. -/
theorem numbers_kept_iff (h : AwaitsQuery c clientFlag) (hfresh : c.queryResponse = .default)
    (hps : OneResponse env c ps) : NumbersKept env c ps ↔
      ∀ outs c₁ p, Reached env c ps outs c₁ p → NumberFits env (outs.count none) c₁ p := by
  have hcounted : ∀ outs c₁ p, Reached env c ps outs c₁ p →
      Counted c₁ clientFlag outs p.header.seq ∧ Typed p ∧ p.skip = false := by
    rintro outs c₁ p ⟨pre, post, hsplit, hrun⟩
    exact ⟨counted_of_reached h hfresh hps hsplit hrun, hps.typed p (by rw [hsplit]; simp)⟩
  constructor
  · rintro ⟨hsent, hsubtraction⟩ outs c₁ p hreached
    obtain ⟨hc₁, -, hskip⟩ := hcounted outs c₁ p hreached
    refine ⟨fun hord hread => ?_, (hc₁.not_overflows_iff hskip).1 (hsubtraction outs c₁ p hreached)⟩
    obtain ⟨acc, hacc⟩ := Option.isSome_iff_exists.1 hread
    obtain ⟨pre, post, hsplit, hrun⟩ := hreached
    have hstep := @Counted.completes env _ _ _ _ hc₁ hskip hord
    rw [hacc, Option.map_some] at hstep
    have hrun' := run_concat_some hrun hstep
    have hlast : post = [] := by
      cases post with
      | nil => rfl
      | cons q post =>
        have hwaits := hps.waits _ _ q ⟨pre ++ [p], post, by simp [hsplit], hrun'⟩
        cases hwaits
    rw [hsplit, hlast, (transcript_of_run hrun').2] at hsent
    exact hc₁.ends_numbered.1 hsent
  · intro hfits
    refine ⟨?_, fun outs c₁ p hreached => ?_⟩
    · obtain ⟨pre, post, c₁, outs, hsplit, hrun, houts⟩ := @transcript_outputs _ _ _ (consumePacket env) c ps
      rw [houts]
      rcases List.eq_nil_or_concat pre with rfl | ⟨pre, p, rfl⟩
      · cases hrun
        exact .nil
      · rw [List.concat_eq_append] at hsplit hrun
        obtain ⟨c₀, outs₀, out, hpre, hstep, rfl⟩ := run_concat_split hrun
        have hreached : Reached env c ps outs₀ c₀ p := ⟨pre, post, by rw [hsplit]; simp, hpre⟩
        obtain ⟨hc₀, htyped, hskip⟩ := hcounted outs₀ c₀ p hreached
        by_cases hord : Ordinary p
        · exact (hc₀.step htyped hskip hord hstep).1.sent
        · rw [hc₀.completes hskip hord] at hstep
          obtain ⟨acc, hacc, he⟩ := Option.map_eq_some_iff.1 hstep
          cases he
          exact hc₀.ends_numbered.2 ((hfits outs₀ c₀ p hreached).ending hord (by rw [hacc]; rfl))
    · obtain ⟨hc₁, -, hskip⟩ := hcounted outs c₁ p hreached
      exact (hc₁.not_overflows_iff hskip).2 (hfits outs c₁ p hreached).counter

/-- Of a response that runs through, only the last packet may end the wait. -/
theorem waits_of_phases (hphase : c.phase = .pendingResponse) (hrun : (run (consumePacket env) c ps).isSome)
    (hphases : ∀ phase ∈ (phases env c ps).dropLast, phase = .pendingResponse) :
    ∀ outs c₁ p, Reached env c ps outs c₁ p → c₁.phase = .pendingResponse := by
  rintro outs c₁ p ⟨pre, post, rfl, hpre⟩
  rcases List.eq_nil_or_concat pre with rfl | ⟨pre, q, rfl⟩
  · cases hpre
    exact hphase
  · rw [List.concat_eq_append] at *
    obtain ⟨c₀, outs₀, out, hinit, hstep, rfl⟩ := run_concat_split hpre
    obtain ⟨⟨c', outs'⟩, hrun⟩ := Option.isSome_iff_exists.1 hrun
    obtain ⟨c₁', _, _, hpre', hrest, -⟩ := run_append_split hrun
    cases hpre.symm.trans hpre'
    obtain ⟨_, _, _, hnext, -, -⟩ := run_cons_some hrest
    apply hphases
    rw [phases, transcript_append hpre, transcript_append hinit, transcript_cons hstep, transcript_cons hnext]
    simp [transcript]

end

theorem sampleDropping_awaits : AwaitsQuery sampleDropping 0x01000200 := ⟨rfl, ⟨_, rfl, rfl⟩, rfl⟩

/-- A result set with the row 9, and its last packet. -/
def sampleNine (last : Packet) : List Packet :=
  [samplePacket 1 [1] .other, samplePacket 2 sampleColumn.encode .other, samplePacket 3 [1, 0x39] .other, last]

theorem sampleNine_typed {last : Packet} (h : Typed last) (hskip : last.skip = false) :
    ∀ p ∈ sampleNine last, Typed p ∧ p.skip = false := by
  intro p hp
  simp only [sampleNine, List.mem_cons, List.not_mem_nil, or_false] at hp
  rcases hp with rfl | rfl | rfl | rfl
  · exact ⟨rfl, rfl⟩
  · exact ⟨rfl, rfl⟩
  · exact ⟨rfl, rfl⟩
  · exact ⟨h, hskip⟩

theorem numbers_kept_eof :
    NumbersKept sampleEnv sampleDropping (sampleNine (samplePacket 4 [0xfe, 0, 0, 2, 0, 0, 0] .eof)) := by
  have hps : OneResponse sampleEnv sampleDropping (sampleNine (samplePacket 4 [0xfe, 0, 0, 2, 0, 0, 0] .eof)) :=
    ⟨sampleNine_typed rfl rfl, by decide, waits_of_phases rfl rfl (by decide)⟩
  refine (numbers_kept_iff sampleDropping_awaits rfl hps).2 ?_
  rintro outs c₁ p ⟨pre, post, hsplit, -⟩
  have hmem : p ∈ sampleNine (samplePacket 4 [0xfe, 0, 0, 2, 0, 0, 0] .eof) := by rw [hsplit]; simp
  have hord : Ordinary p := by
    simp only [sampleNine, List.mem_cons, List.not_mem_nil, or_false] at hmem
    rcases hmem with rfl | rfl | rfl | rfl <;> simp [Ordinary, samplePacket]
  exact ⟨fun hnot => absurd hord hnot, fun hchecks => by cases hchecks⟩

/-- The server breaks off with an error behind the row that is dropped: the client sees 1, 2 and 4. -/
theorem error_after_dropped_row :
    let ps := sampleNine (samplePacket 4 [0xff, 0x25, 5, 0x23, 0x37, 0x30, 0x31, 0x30, 0x30] .error)
    OneResponse sampleEnv sampleDropping ps ∧
      (sentOn ((transcript (consumePacket sampleEnv) sampleDropping ps).map (·.output))).map (·.header.seq) = [1, 2, 4] ∧
      ¬ NumbersKept sampleEnv sampleDropping ps := by
  refine ⟨⟨sampleNine_typed rfl rfl, by decide, waits_of_phases rfl rfl (by decide)⟩, rfl, fun h => ?_⟩
  have hsent := h.sent
  revert hsent
  decide

end MocksySql
