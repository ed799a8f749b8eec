import MocksySql.LegacyEof
import MocksySql.RowSafety
/-!
# Several results for one command

A server that answers a COM_QUERY with several results sets SERVER_MORE_RESULTS_EXISTS in each but the last. An OK packet
ends the response whatever it announces; a terminator that announces more is taken for the column count of the next result
set, and panics; and one of ten bytes or more is no EOF packet (`packet.rs:90`), and goes for another row.

* `pendsAll_rows_iff` — the rows of a result set keep the connection waiting exactly if they pass.
* `endsAtLast_terminator_iff` — the terminator ends it exactly if it has seven bytes.
* `response_ends_at_last_iff` — which responses end at their last packet.
* `second_result_lost` — an OK packet in front of a result set, and behind one.
-/

namespace MocksySql
open FieldDecode PartialRun

/-! ## Results -/

/-- A packet with a row of so many fields. -/
structure IsRow (n : Nat) (row : Packet) : Prop where
  typed : Typed row
  fields : ∃ values : List (Option Bytes), values.length = n ∧ row.body = values.flatMap fieldBytes

inductive QueryResult where
  | ok (packet : Packet)
  | resultSet (columns : List ColumnDefinition) (count : Packet) (definitions rows : List Packet) (terminator : Packet)

/-- These packets go through among the rows, some of them dropped. With overflow checks none has a number below the rows
dropped so far, itself included. -/
structure RowsPass (env : Env) (c : Connection) (columns : List ColumnDefinition) (skipped : Nat) (rows : List Packet)
    (dropped : List Bool) : Prop where
  types : ∀ row ∈ rows, row.pType = .other
  pass : List.Forall₂ (fun row d => PassesAsRow c columns row.body d) rows dropped
  numbers : env.overflowChecks → ∀ (i : Nat) (row : Packet), rows[i]? = some row →
    (skipped + (dropped.take (i + 1)).count true) % 256 ≤ row.header.seq.toNat

namespace QueryResult

def packets : QueryResult → List Packet
  | .ok packet => [packet]
  | .resultSet _ count definitions rows terminator => count :: definitions ++ rows ++ [terminator]

/-- The first packet of a result set; with CLIENT_OPTIONAL_RESULTSET_METADATA it says first that definitions follow. -/
def countBody (clientFlag : UInt32) (n : Nat) : Bytes :=
  (if hasFlag clientFlag .clientOptionalResultSetMetadata then [0x01] else []) ++ IntLenEnc.encode n

def announcesMore (statusFlags : UInt16) : Bool := statusFlags &&& serverMoreResultsExist != 0

/-- The packets of a text result set in front of the terminator, as a server sends them. -/
structure ResultSetSent (clientFlag : UInt32) (columns : List ColumnDefinition) (count : Packet)
    (definitions rows : List Packet) : Prop where
  nonempty : columns ≠ []
  countable : columns.length < 2 ^ 64
  sendable : ∀ column ∈ columns, column.Sendable
  count : Typed count ∧ count.body = countBody clientFlag columns.length
  definitions : List.Forall₂ (fun p column => Typed p ∧ p.body = ColumnDefinition.encode column) definitions columns
  rows : ∀ row ∈ rows, IsRow columns.length row

/-- The OK packet that took the place of EOF. -/
def IsTerminator (statusFlags : UInt16) (p : Packet) : Prop :=
  Typed p ∧ ∃ (affectedRows lastInsertId : UInt64) (warnings : UInt16) (info : Bytes),
    p.body = 0xfe :: (IntLenEnc.encode affectedRows.toNat ++ (IntLenEnc.encode lastInsertId.toNat ++
      (toLe 2 statusFlags.toNat ++ (toLe 2 warnings.toNat ++ info))))

def IsOk (statusFlags : UInt16) (p : Packet) : Prop :=
  Typed p ∧ ∃ affectedRows lastInsertId warnings info, p.body = okBody affectedRows lastInsertId statusFlags warnings info

/-- A result as a server sends it, its status flags announcing another one or not. -/
inductive Sent (clientFlag : UInt32) : Bool → QueryResult → Prop
  | ok {packet : Packet} {statusFlags : UInt16} : IsOk statusFlags packet →
      Sent clientFlag (announcesMore statusFlags) (.ok packet)
  | resultSet {columns : List ColumnDefinition} {count : Packet} {definitions rows : List Packet} {terminator : Packet}
      {statusFlags : UInt16} : ResultSetSent clientFlag columns count definitions rows →
      IsTerminator statusFlags terminator →
      Sent clientFlag (announcesMore statusFlags) (.resultSet columns count definitions rows terminator)

/-- A response of its own: an OK packet, or a result set whose metadata is sent as always, whose rows pass, and whose
terminator has seven bytes. -/
def StandsAlone (env : Env) (c : Connection) (clientFlag : UInt32) : QueryResult → Prop
  | .ok _ => True
  | .resultSet columns _ _ rows terminator =>
    hasFlag clientFlag .clientOptionalResultSetMetadata = false ∧ terminator.body.length = 7 ∧
      ∃ dropped, RowsPass env c (columns.map ColumnDefinition.asRead) 0 rows dropped ∧
        (env.overflowChecks → dropped.count true % 256 ≤ terminator.header.seq.toNat)

/-- A result set that is not seen to end: its terminator has more than nine bytes, and passes for another row. -/
def RunsOn (env : Env) (c : Connection) (clientFlag : UInt32) : QueryResult → Prop
  | .ok _ => False
  | .resultSet columns _ _ rows terminator =>
    hasFlag clientFlag .clientOptionalResultSetMetadata = false ∧ 9 < terminator.body.length ∧
      ∃ dropped, RowsPass env c (columns.map ColumnDefinition.asRead) 0 (rows ++ [terminator]) dropped

end QueryResult

/-- Every packet but the last leaves the connection waiting, and the last gives the turn back. -/
def EndsAtLast (env : Env) (c : Connection) (packets : List Packet) : Prop :=
  phases env c packets = List.replicate (packets.length - 1) .pendingResponse ++ [.command]

/-- Behind its column count and behind each of its definitions, the accumulator has the columns of a result set that have
come, and no others. -/
def ColumnsApart (env : Env) (c : Connection) (results : List QueryResult) : Prop :=
  ∀ earlier later columns count definitions rows terminator,
    results = earlier ++ .resultSet columns count definitions rows terminator :: later → ∀ k ≤ definitions.length,
      ∃ c' outs, run (consumePacket env) c (earlier.flatMap (·.packets) ++ count :: definitions.take k) = some (c', outs) ∧
        c'.queryResponse.columns = (columns.take k).map ColumnDefinition.asRead

section
variable {env : Env} {c : Connection} {clientFlag : UInt32} {p : Packet}

/-! ## Where a response ends -/

theorem endsAtLast_singleton :
    EndsAtLast env c [p] ↔ ∃ c' out, consumePacket env c p = some (c', out) ∧ c'.phase = .command := by
  unfold EndsAtLast phases
  cases hp : consumePacket env c p with
  | none => simp [transcript, hp]
  | some r =>
    obtain ⟨c', out⟩ := r
    rw [transcript_cons hp]
    simp [transcript]

theorem endsAtLast_singleton_iff (hphase : c.phase = .pendingResponse) {self : ResponseAccumulator} :
    EndsAtLast env (c.holding self) [p] ↔
      ∃ self' p', self.consume env p (c.holding self) = some (self', p', .command) := by
  rw [endsAtLast_singleton]
  constructor
  · rintro ⟨c', out, hstep, hcommand⟩
    obtain ⟨self', p', phase, hconsume, rfl⟩ := consumePacket_pending_cases (c := c.holding self) hphase hstep
    cases hcommand
    exact ⟨self', p', hconsume⟩
  · rintro ⟨self', p', hconsume⟩
    exact ⟨_, _, consumePacket_pending (c := c.holding self) hphase hconsume, rfl⟩

/-- A packet that leaves the connection waiting does not end a response. -/
theorem Pends.not_ends (hphase : c.phase = .pendingResponse) {self self' : ResponseAccumulator}
    (h : Pends env c self p self') : ¬ EndsAtLast env (c.holding self) [p] := by
  rw [endsAtLast_singleton_iff hphase]
  rintro ⟨_, _, hend⟩
  obtain ⟨_, hpend⟩ := (pends_iff hphase).1 h
  rw [hend] at hpend
  cases hpend

theorem endsAtLast_cons (hphase : c.phase = .pendingResponse) {self : ResponseAccumulator} {ps : List Packet}
    (hne : ps ≠ []) : EndsAtLast env (c.holding self) (p :: ps) ↔
      ∃ self', Pends env c self p self' ∧ EndsAtLast env (c.holding self') ps := by
  have hlen : (p :: ps).length - 1 = (ps.length - 1) + 1 := by
    have := List.length_pos_of_ne_nil hne
    simp only [List.length_cons]
    omega
  unfold EndsAtLast phases
  rw [hlen, List.replicate_succ, List.cons_append]
  constructor
  · intro h
    cases hp : consumePacket env (c.holding self) p with
    | none => simp [transcript, hp] at h
    | some r =>
      obtain ⟨c', out⟩ := r
      rw [transcript_cons hp, List.map_cons, List.cons.injEq] at h
      obtain ⟨self', p', phase, -, rfl⟩ := consumePacket_pending_cases (c := c.holding self) hphase hp
      obtain ⟨rfl, hrest⟩ := h
      have hc : ({ c.holding self with phase := .pendingResponse, queryResponse := self' } : Connection) =
          c.holding self' := by
        rw [← hphase]
        rfl
      rw [hc] at hrest hp
      exact ⟨self', ⟨out, hp⟩, hrest⟩
  · rintro ⟨self', ⟨out, hp⟩, hrest⟩
    rw [transcript_cons hp, List.map_cons, hrest]
    exact congrArg (· :: _) hphase

theorem endsAtLast_append (hphase : c.phase = .pendingResponse) {qs : List Packet} (hne : qs ≠ []) :
    ∀ {ps : List Packet} {self : ResponseAccumulator}, EndsAtLast env (c.holding self) (ps ++ qs) ↔
      ∃ self', PendsAll env c self ps self' ∧ EndsAtLast env (c.holding self') qs
  | [], self => by
    constructor
    · intro h
      exact ⟨self, .nil self, h⟩
    · rintro ⟨_, ⟨⟩, h⟩
      exact h
  | p :: ps, self => by
    rw [List.cons_append, endsAtLast_cons hphase (by simp [hne])]
    constructor
    · rintro ⟨self₁, hp, hrest⟩
      obtain ⟨self', hps, hqs⟩ := (endsAtLast_append hphase hne).1 hrest
      exact ⟨self', .cons hp hps, hqs⟩
    · rintro ⟨self', hps, hqs⟩
      cases hps with
      | cons hp hps => exact ⟨_, hp, (endsAtLast_append hphase hne).2 ⟨self', hps, hqs⟩⟩

theorem PendsAll.append_inv {self self' : ResponseAccumulator} : ∀ {ps qs : List Packet},
    PendsAll env c self (ps ++ qs) self' → ∃ self₁, PendsAll env c self ps self₁ ∧ PendsAll env c self₁ qs self'
  | [], _, h => ⟨self, .nil self, h⟩
  | _ :: _, _, .cons hp h => by
    obtain ⟨self₁, hps, hqs⟩ := PendsAll.append_inv h
    exact ⟨self₁, .cons hp hps, hqs⟩

theorem PendsAll.unique (hphase : c.phase = .pendingResponse) {self self₁ self₂ : ResponseAccumulator}
    {ps : List Packet} (h₁ : PendsAll env c self ps self₁) (h₂ : PendsAll env c self ps self₂) : self₁ = self₂ := by
  obtain ⟨⟨outs₁, hrun₁⟩, -⟩ := h₁.run hphase
  obtain ⟨⟨outs₂, hrun₂⟩, -⟩ := h₂.run hphase
  rw [hrun₁] at hrun₂
  exact congrArg Connection.queryResponse (Prod.mk.inj (Option.some.inj hrun₂)).1

/-! ## Rows -/

/-- Among the rows, with so many left out. -/
structure Reading (columns : List ColumnDefinition) (skipped : Nat) (acc : ResponseAccumulator) : Prop where
  state : acc.state = .columnsHydrated ∨ acc.state = .hydrateRows
  columns : acc.columns = columns
  skipped : acc.skippedPackets = skipped

variable (env) in
/-- Behind the definitions or a row, a packet is looked at in `HydrateRows`. -/
theorem ResponseAccumulator.consume_reading {self : ResponseAccumulator} {columns : List ColumnDefinition} {skipped : Nat}
    (h : AwaitsQuery c clientFlag) (hdep : hasFlag clientFlag .clientDeprecateEof) (hp : Ordinary p)
    (hself : Reading columns skipped self) :
    ∃ fuel, self.consume env p c = consumeLoop env c (fuel + 3) { self with state := .hydrateRows } p := by
  rcases hself.state with hstate | hstate
  · exact ⟨12, consumeLoop_columnsHydrated h hp hdep hstate⟩
  · have hsame : { self with state := State.hydrateRows } = self := by rw [← hstate]
    exact ⟨13, by rw [hsame]; rfl⟩

theorem subtractSkipped_isSome {seq : UInt8} {skipped : Nat} :
    (ResponseAccumulator.subtractSkipped env seq skipped).isSome ↔ (env.overflowChecks → skipped % 256 ≤ seq.toNat) := by
  rw [Option.isSome_iff_ne_none, Ne, ResponseAccumulator.subtractSkipped_eq_none, not_and, Nat.not_lt]

section
variable {columns : List ColumnDefinition} {skipped : Nat} {self self' : ResponseAccumulator}

/-- **A row** keeps the connection waiting if it passes and can be renumbered. -/
theorem pends_row_iff {row : Packet} (h : AwaitsQuery c clientFlag) (hdep : hasFlag clientFlag .clientDeprecateEof)
    (hp : row.pType = .other) (hself : Reading columns skipped self) :
    Pends env c self row self' ↔ ∃ dropped, PassesAsRow c columns row.body dropped ∧
      (env.overflowChecks → (skipped + dropped.toNat) % 256 ≤ row.header.seq.toNat) ∧
      self' = { self with state := .hydrateRows, skippedPackets := skipped + dropped.toNat } := by
  obtain ⟨command, hcommand, -⟩ := h.command
  obtain ⟨fuel, hconsume⟩ := ResponseAccumulator.consume_reading env (p := row) (h.holding self) hdep
    (by simp [Ordinary, hp]) hself
  have hrow : ∀ acc, (∃ row' flags, ({ self with state := .hydrateRows } : ResponseAccumulator).hydrateRow row
      (c.holding self) = some (acc, row', flags)) ↔ ∃ dropped, PassesAsRow (c.holding self) columns row.body dropped ∧
        acc = { self with state := .hydrateRows, skippedPackets := skipped + dropped.toNat } := by
    intro acc
    rw [hydrateRow_iff hp (c := c.holding self) hcommand]
    simp only [hself.columns, hself.skipped]
  simp only [passesAsRow_holding] at hrow
  rw [ResponseAccumulator.consumeLoop_rewrite (h.holding self).text hp rfl] at hconsume
  rw [pends_iff h.phase, hconsume]
  simp only [Option.bind_eq_some_iff, Option.map_eq_some_iff]
  constructor
  · rintro ⟨p', ⟨acc, row', flags⟩, hread, seq, hseq, he⟩
    cases he
    obtain ⟨dropped, hpass, rfl⟩ := (hrow _).1 ⟨row', flags, hread⟩
    exact ⟨dropped, hpass, subtractSkipped_isSome.1 (Option.isSome_of_eq_some hseq), rfl⟩
  · rintro ⟨dropped, hpass, hnumber, rfl⟩
    obtain ⟨row', flags, hread⟩ := (hrow _).2 ⟨dropped, hpass, rfl⟩
    obtain ⟨seq, hseq⟩ := Option.isSome_iff_exists.1 (subtractSkipped_isSome.2 hnumber)
    exact ⟨_, ⟨_, row', flags⟩, hread, seq, hseq, rfl⟩

/-! ## EOF packets -/

/-- An EOF packet is decoded if it has seven bytes. -/
theorem EofData.length_of_fromPacket {eof : EofData} (h41 : hasFlag clientFlag .clientProtocol41)
    (hflag : c.clientFlag = some clientFlag) (heof : EofData.fromPacket p c = some eof) : p.body.length = 7 := by
  have htake : ∀ {offset offset' : Nat} {n : Nat},
      field p.body (IntFixedLen.fromBytes · (some 2)) offset = some (n, offset') → offset' = offset + 2 := by
    intro offset offset' n hfield
    simp only [field, IntFixedLen.fromBytes, Option.bind_eq_bind, Option.bind_some, Option.bind_eq_some_iff] at hfield
    obtain ⟨rest, -, r, ⟨part, -, hr⟩, hn⟩ := hfield
    split_ifs at hr
    cases hr
    exact (congrArg Prod.snd (Option.some.inj hn)).symm
  rw [EofData.fromPacket] at heof
  split_ifs at heof
  simp only [hflag, Option.bind_eq_bind, Option.bind_some, if_pos h41, run'_eq_some] at heof
  obtain ⟨offset, heof⟩ := heof
  unfold EofData.fields at heof
  obtain ⟨warnings, o₁, h₁, heof⟩ := bind_eq_some.1 heof
  obtain ⟨statusFlags, o₂, h₂, heof⟩ := bind_eq_some.1 heof
  obtain ⟨o₃, o₄, h₃, heof⟩ := bind_eq_some.1 heof
  cases h₃
  obtain ⟨_, o₅, hrequire, -⟩ := bind_eq_some.1 heof
  rw [require_eq_some] at hrequire
  have := htake h₁
  have := htake h₂
  omega

variable (env) in
/-- What follows an EOF packet: the status flags are read where they are. -/
theorem consume_eof (h : AwaitsQuery c clientFlag) (h41 : hasFlag clientFlag .clientProtocol41)
    (hdep : hasFlag clientFlag .clientDeprecateEof) (hself : Reading columns skipped self) (hp : p.pType = .eof)
    (hlen : p.body.length = 7) :
    ∃ fuel, self.consume env p c = (ResponseAccumulator.subtractSkipped env p.header.seq skipped).bind fun seq =>
      ResponseAccumulator.consumeLoop env c (fuel + 2)
        { self with state := if QueryResult.announcesMore (UInt16.ofNat (fromLe ((p.body.take 5).drop 3))) then .initiated
          else .complete }
        { p with header := { p.header with seq } } := by
  have hord : Ordinary p := by simp [Ordinary, hp]
  obtain ⟨fuel, hconsume⟩ := ResponseAccumulator.consume_reading env h hdep hord hself
  obtain ⟨eof, heof, hflags⟩ := EofData.fromPacket_seven h41 h.flags hp hlen
  refine ⟨fuel, ?_⟩
  rw [hconsume, ResponseAccumulator.consumeLoop, ResponseAccumulator.consumeStep_ordinary h hord,
    ResponseAccumulator.processResultSet]
  simp only [ResponseAccumulator.hydrateRow, hp, heof, Option.map_some, Option.bind_eq_bind, Option.bind_some, hself.skipped,
    hflags]
  cases ResponseAccumulator.subtractSkipped env p.header.seq skipped with
  | none => rfl
  | some seq => simp [QueryResult.announcesMore]

/-- Any other EOF packet panics. -/
theorem consume_eof_length (h : AwaitsQuery c clientFlag) (h41 : hasFlag clientFlag .clientProtocol41)
    (hdep : hasFlag clientFlag .clientDeprecateEof) (hself : Reading columns skipped self) (hp : p.pType = .eof)
    (hlen : p.body.length ≠ 7) : self.consume env p c = none := by
  have hord : Ordinary p := by simp [Ordinary, hp]
  obtain ⟨fuel, hconsume⟩ := ResponseAccumulator.consume_reading env h hdep hord hself
  have heof : EofData.fromPacket p c = none := by
    by_contra hsome
    obtain ⟨eof, heof⟩ := Option.ne_none_iff_exists'.1 hsome
    exact hlen (EofData.length_of_fromPacket h41 h.flags heof)
  rw [hconsume, ResponseAccumulator.consumeLoop, ResponseAccumulator.consumeStep_ordinary h hord,
    ResponseAccumulator.processResultSet]
  simp only [ResponseAccumulator.hydrateRow, hp, heof, Option.map_none, Option.bind_eq_bind, Option.bind_none]

/-- One that announces more is taken for the column count of the next result set: it is too short for one. -/
theorem consume_eof_more (h : AwaitsQuery c clientFlag) (h41 : hasFlag clientFlag .clientProtocol41)
    (hdep : hasFlag clientFlag .clientDeprecateEof)
    (hopt : hasFlag clientFlag .clientOptionalResultSetMetadata = false) (hself : Reading columns skipped self)
    (hp : p.pType = .eof) (hhead : p.body.head? = some 0xfe) (hlen : p.body.length = 7)
    (hmore : QueryResult.announcesMore (UInt16.ofNat (fromLe ((p.body.take 5).drop 3))) = true) :
    self.consume env p c = none := by
  obtain ⟨fuel, hconsume⟩ := consume_eof env h h41 hdep hself hp hlen
  rw [hconsume, Option.bind_eq_none_iff]
  intro seq _
  have hord : Ordinary { p with header := { p.header with seq } } := by simp [Ordinary, hp]
  obtain ⟨command, hcommand, hquery⟩ := h.command
  have hinitiated : ({ self with state := .initiated } : ResponseAccumulator).consumeStep env
      { p with header := { p.header with seq } } c =
        some ({ self with state := .columnCount }, { p with header := { p.header with seq } }, .consume) := by
    rw [ResponseAccumulator.consumeStep_ordinary h hord]
    simp [ResponseAccumulator.processResultSet, hcommand, hquery, h.flags, hopt]
  have hcount : ({ self with state := .columnCount } : ResponseAccumulator).consumeStep env
      { p with header := { p.header with seq } } c = none := by
    have hshort : IntLenEnc.fromBytes p.body none = none := by
      have hslice : slice p.body 1 9 = none := by
        rw [slice, if_neg]
        omega
      simp [IntLenEnc.fromBytes, hhead, leAfterMarker, hslice]
    rw [ResponseAccumulator.consumeStep_ordinary h hord]
    simp [ResponseAccumulator.processResultSet, hshort]
  rw [hmore, if_pos rfl, ResponseAccumulator.consumeLoop_consume hinitiated, ResponseAccumulator.consumeLoop, hcount]

/-- One that announces no more ends the response, if it can be renumbered. -/
theorem consume_eof_last (h : AwaitsQuery c clientFlag) (h41 : hasFlag clientFlag .clientProtocol41)
    (hdep : hasFlag clientFlag .clientDeprecateEof) (hself : Reading columns skipped self) (hp : p.pType = .eof)
    (hlen : p.body.length = 7)
    (hlast : QueryResult.announcesMore (UInt16.ofNat (fromLe ((p.body.take 5).drop 3))) = false) :
    self.consume env p c = (ResponseAccumulator.subtractSkipped env p.header.seq skipped).map fun seq =>
      (self.completed .eof, { p with header := { p.header with seq } }, .command) := by
  obtain ⟨fuel, hconsume⟩ := consume_eof env h h41 hdep hself hp hlen
  rw [hconsume, hlast]
  cases ResponseAccumulator.subtractSkipped env p.header.seq skipped with
  | none => rfl
  | some seq =>
    have hord : Ordinary { p with header := { p.header with seq } } := by simp [Ordinary, hp]
    have hcomplete := @ResponseAccumulator.consumeLoop_complete env c clientFlag { p with header := { p.header with seq } }
      { self with state := .complete } (fuel + 1) h hord rfl
    refine hcomplete.trans ?_
    simp only [hp]
    rfl

/-- **No EOF packet** keeps the connection waiting. -/
theorem not_pends_eof (h : AwaitsQuery c clientFlag) (h41 : hasFlag clientFlag .clientProtocol41)
    (hdep : hasFlag clientFlag .clientDeprecateEof)
    (hopt : hasFlag clientFlag .clientOptionalResultSetMetadata = false) (hself : Reading columns skipped self)
    (hp : p.pType = .eof) (hhead : p.body.head? = some 0xfe) : ¬ Pends env c self p self' := by
  rw [pends_iff h.phase]
  rintro ⟨p', hconsume⟩
  by_cases hlen : p.body.length = 7
  · cases hmore : QueryResult.announcesMore (UInt16.ofNat (fromLe ((p.body.take 5).drop 3))) with
    | true =>
      rw [consume_eof_more (h.holding self) h41 hdep hopt hself hp hhead hlen hmore] at hconsume
      cases hconsume
    | false =>
      rw [consume_eof_last (h.holding self) h41 hdep hself hp hlen hmore] at hconsume
      obtain ⟨seq, -, he⟩ := Option.map_eq_some_iff.1 hconsume
      cases he
  · rw [consume_eof_length (h.holding self) h41 hdep hself hp hlen] at hconsume
    cases hconsume

/-! ## Packets among the rows -/

/-- **A packet among the rows** keeps the connection waiting exactly if it goes for a row, passes as one and can be
renumbered. -/
theorem pends_among_rows_iff (h : AwaitsQuery c clientFlag) (h41 : hasFlag clientFlag .clientProtocol41)
    (hdep : hasFlag clientFlag .clientDeprecateEof)
    (hopt : hasFlag clientFlag .clientOptionalResultSetMetadata = false) (hp : Typed p) (hself : Reading columns skipped self) :
    Pends env c self p self' ↔ p.pType = .other ∧ ∃ dropped, PassesAsRow c columns p.body dropped ∧
      (env.overflowChecks → (skipped + dropped.toNat) % 256 ≤ p.header.seq.toNat) ∧
      self' = { self with state := .hydrateRows, skippedPackets := skipped + dropped.toNat } := by
  constructor
  · intro hpends
    have hother : p.pType = .other := by
      rcases hp.other_or_eof (hpends.ordinary h) with hother | heof
      · exact hother
      · exact absurd hpends (not_pends_eof h h41 hdep hopt hself heof (hp.head_eof heof))
    exact ⟨hother, (pends_row_iff h hdep hother hself).1 hpends⟩
  · rintro ⟨hother, hpass⟩
    exact (pends_row_iff h hdep hother hself).2 hpass

theorem rowsPass_nil : RowsPass env c columns skipped [] [] := ⟨by simp, .nil, by simp⟩

/-- One more row: it counts if it is dropped. -/
theorem count_dropped (d : Bool) (dropped : List Bool) :
    skipped + (d :: dropped).count true = skipped + d.toNat + dropped.count true := by
  rw [List.count_cons]
  cases d
  · rfl
  · simp only [beq_self_eq_true, if_true, Bool.toNat_true]
    omega

theorem rowsPass_cons_iff {row : Packet} {rows : List Packet} {d : Bool} {dropped : List Bool} :
    RowsPass env c columns skipped (row :: rows) (d :: dropped) ↔ row.pType = .other ∧ PassesAsRow c columns row.body d ∧
      (env.overflowChecks → (skipped + d.toNat) % 256 ≤ row.header.seq.toNat) ∧
      RowsPass env c columns (skipped + d.toNat) rows dropped := by
  have hcount : ∀ n, skipped + ((d :: dropped).take (n + 1)).count true =
      skipped + d.toNat + (dropped.take n).count true := fun n => count_dropped d (dropped.take n)
  constructor
  · rintro ⟨htypes, hpass, hnumbers⟩
    rw [List.forall_mem_cons] at htypes
    rw [List.forall₂_cons] at hpass
    refine ⟨htypes.1, hpass.1, fun hchecks => ?_, htypes.2, hpass.2, fun hchecks i r hr => ?_⟩
    · have hfirst := hnumbers hchecks 0 row rfl
      rwa [hcount, List.take_zero, List.count_nil, Nat.add_zero] at hfirst
    · have hnext := hnumbers hchecks (i + 1) r hr
      rwa [hcount] at hnext
  · rintro ⟨htype, hpass, hnumber, htypes, hrest, hnumbers⟩
    refine ⟨List.forall_mem_cons.2 ⟨htype, htypes⟩, .cons hpass hrest, fun hchecks i r hr => ?_⟩
    rw [hcount]
    cases i with
    | zero =>
      cases hr
      exact hnumber hchecks
    | succ i => exact hnumbers hchecks i r hr

/-- **Packets among the rows** that keep the connection waiting pass. -/
theorem rowsPass_of_pendsAll (h : AwaitsQuery c clientFlag) (h41 : hasFlag clientFlag .clientProtocol41)
    (hdep : hasFlag clientFlag .clientDeprecateEof)
    (hopt : hasFlag clientFlag .clientOptionalResultSetMetadata = false) :
    ∀ {rows : List Packet} {skipped : Nat} {self self' : ResponseAccumulator}, (∀ row ∈ rows, Typed row) →
      Reading columns skipped self → PendsAll env c self rows self' →
      ∃ dropped, RowsPass env c columns skipped rows dropped ∧ Reading columns (skipped + dropped.count true) self'
  | [], skipped, _, _, _, hself, .nil _ => ⟨[], rowsPass_nil, hself⟩
  | row :: rows, skipped, self, self', htyped, hself, .cons hstep hrest => by
    rw [List.forall_mem_cons] at htyped
    obtain ⟨hother, d, hpass, hnumber, rfl⟩ := (pends_among_rows_iff h h41 hdep hopt htyped.1 hself).1 hstep
    have hnext : Reading columns (skipped + d.toNat)
        { self with state := .hydrateRows, skippedPackets := skipped + d.toNat } := ⟨.inr rfl, hself.columns, rfl⟩
    obtain ⟨dropped, hrows, hself'⟩ := rowsPass_of_pendsAll h h41 hdep hopt htyped.2 hnext hrest
    rw [← count_dropped] at hself'
    exact ⟨d :: dropped, rowsPass_cons_iff.2 ⟨hother, hpass, hnumber, hrows⟩, hself'⟩

/-- Packets that pass keep the connection waiting. -/
theorem pendsAll_of_rowsPass (h : AwaitsQuery c clientFlag) (hdep : hasFlag clientFlag .clientDeprecateEof) :
    ∀ {rows : List Packet} {dropped : List Bool} {skipped : Nat} {self : ResponseAccumulator}, Reading columns skipped self →
      RowsPass env c columns skipped rows dropped →
      ∃ self', PendsAll env c self rows self' ∧ Reading columns (skipped + dropped.count true) self'
  | [], [], skipped, self, hself, _ => ⟨self, .nil self, hself⟩
  | [], _ :: _, _, _, _, hrows => by cases hrows.pass
  | _ :: _, [], _, _, _, hrows => by cases hrows.pass
  | row :: rows, d :: dropped, skipped, self, hself, hrows => by
    obtain ⟨hother, hpass, hnumber, hrest⟩ := rowsPass_cons_iff.1 hrows
    have hstep := (pends_row_iff h hdep hother hself).2 ⟨d, hpass, hnumber, rfl⟩
    have hnext : Reading columns (skipped + d.toNat)
        { self with state := .hydrateRows, skippedPackets := skipped + d.toNat } := ⟨.inr rfl, hself.columns, rfl⟩
    obtain ⟨self', hpends, hself'⟩ := pendsAll_of_rowsPass h hdep hnext hrest
    rw [← count_dropped] at hself'
    exact ⟨self', .cons hstep hpends, hself'⟩

/-! ## Terminators -/

namespace QueryResult.IsTerminator
variable {statusFlags : UInt16}

theorem head (hp : IsTerminator statusFlags p) : p.body.head? = some 0xfe := by
  obtain ⟨-, _, _, _, _, hbody⟩ := hp
  rw [hbody]; rfl

/-- Where it has seven bytes, the status flags are behind the first three. -/
theorem statusFlags_eq (hp : IsTerminator statusFlags p) (hlen : p.body.length = 7) :
    UInt16.ofNat (fromLe ((p.body.take 5).drop 3)) = statusFlags := by
  obtain ⟨-, affectedRows, lastInsertId, warnings, info, hbody⟩ := hp
  obtain ⟨m, ms, hm, -⟩ := IntLenEnc.head_encode affectedRows.toNat
  obtain ⟨k, ks, hk, -⟩ := IntLenEnc.head_encode lastInsertId.toNat
  rw [hm, hk] at hbody
  have hlength := congrArg List.length hbody
  simp only [hlen, List.length_cons, List.length_append, toLe_length] at hlength
  obtain rfl : ms = [] := List.length_eq_zero_iff.1 (by omega)
  obtain rfl : ks = [] := List.length_eq_zero_iff.1 (by omega)
  have hslice : (p.body.take 5).drop 3 = toLe 2 statusFlags.toNat := by rw [hbody]; rfl
  rw [hslice, fromLe_toLe_of_lt statusFlags.toNat_lt, UInt16.ofNat_toNat]

/-- Of more than nine bytes it is no EOF packet. -/
theorem pType (hp : IsTerminator statusFlags p) : p.pType = if p.body.length ≤ 9 then .eof else .other := by
  rw [hp.1.pType_eq hp.head]
  simp

end QueryResult.IsTerminator

/-- **A terminator that announces no more** ends the response exactly if it has seven bytes and can be renumbered. -/
theorem endsAtLast_terminator_iff {statusFlags : UInt16} (h : AwaitsQuery c clientFlag)
    (h41 : hasFlag clientFlag .clientProtocol41) (hdep : hasFlag clientFlag .clientDeprecateEof)
    (hself : Reading columns skipped self) (hp : QueryResult.IsTerminator statusFlags p)
    (hlast : QueryResult.announcesMore statusFlags = false) :
    EndsAtLast env (c.holding self) [p] ↔
      p.body.length = 7 ∧ (env.overflowChecks → skipped % 256 ≤ p.header.seq.toNat) := by
  rw [endsAtLast_singleton_iff h.phase]
  have htype := hp.pType
  by_cases hlen : p.body.length = 7
  · rw [if_pos (by omega)] at htype
    rw [consume_eof_last (h.holding self) h41 hdep hself htype hlen (by rw [hp.statusFlags_eq hlen, hlast]),
      ← subtractSkipped_isSome]
    simp [hlen, Option.isSome_iff_exists]
  · refine iff_of_false ?_ fun hends => hlen hends.1
    rintro ⟨self', p', hconsume⟩
    by_cases hshort : p.body.length ≤ 9
    · rw [if_pos hshort] at htype
      rw [consume_eof_length (h.holding self) h41 hdep hself htype hlen] at hconsume
      cases hconsume
    · rw [if_neg hshort] at htype
      obtain ⟨fuel, hrow⟩ := ResponseAccumulator.consume_reading env (p := p) (h.holding self) hdep
        (by simp [Ordinary, htype]) hself
      rw [hrow, ResponseAccumulator.consumeLoop_rewrite (h.holding self).text htype rfl] at hconsume
      simp only [Option.bind_eq_some_iff, Option.map_eq_some_iff] at hconsume
      obtain ⟨_, _, _, _, he⟩ := hconsume
      cases he

theorem QueryResult.IsOk.pType {statusFlags : UInt16} (hp : IsOk statusFlags p) : p.pType = .ok := by
  obtain ⟨htyped, affectedRows, lastInsertId, warnings, info, hbody⟩ := hp
  rw [Typed, hbody, getPacketType_okBody] at htyped
  exact (Option.some.inj htyped).symm

/-- An OK packet ends the response, whatever it announces. -/
theorem endsAtLast_ok {statusFlags : UInt16} (h : AwaitsQuery c clientFlag) (h41 : hasFlag clientFlag .clientProtocol41)
    (hp : QueryResult.IsOk statusFlags p) : EndsAtLast env (c.holding self) [p] := by
  obtain ⟨-, affectedRows, lastInsertId, warnings, info, hbody⟩ := id hp
  have hdecoded := @OkData.fromPacket_okBody (c.holding self) clientFlag p affectedRows lastInsertId statusFlags
    warnings info h41 h.flags hp.pType hbody
  have hconsume := @ResponseAccumulator.consumeLoop_ok env (c.holding self) clientFlag p self 15 _
    (h.holding self) hp.pType hdecoded
  exact (endsAtLast_singleton_iff h.phase).2 ⟨_, _, hconsume⟩

/-! ## A result set -/

variable {count : Packet} {definitions rows ps : List Packet}

variable (env) in
theorem definitions_pend (h : AwaitsQuery c clientFlag)
    (hopt : hasFlag clientFlag .clientOptionalResultSetMetadata = false)
    (hsent : QueryResult.ResultSetSent clientFlag columns count definitions rows) (k : Nat) :
    PendsAll env c .default (count :: definitions.take k) { ResponseAccumulator.default with
      columnCount := columns.length
      columns := (columns.take k).map ColumnDefinition.asRead
      state := if columns.length ≤ k then .columnsHydrated else .hydrateColumns } := by
  have hcount : count.body = IntLenEnc.encode (columns.map ColumnDefinition.asRead).length := by
    rw [hsent.count.2, QueryResult.countBody, hopt, List.length_map]
    rfl
  have hpends := @pendsAll_definitions env c clientFlag h hopt (columns.map ColumnDefinition.asRead) count definitions
    (by simp [hsent.nonempty]) (by simpa using hsent.countable) ⟨hsent.count.1, hcount⟩
    (decoded_definitions hsent.sendable hsent.definitions) k
  rwa [List.length_map, ← List.map_take] at hpends

variable (env) in
theorem header_pends (h : AwaitsQuery c clientFlag)
    (hopt : hasFlag clientFlag .clientOptionalResultSetMetadata = false)
    (hsent : QueryResult.ResultSetSent clientFlag columns count definitions rows) :
    ∃ self', PendsAll env c .default (count :: definitions) self' ∧
      Reading (columns.map ColumnDefinition.asRead) 0 self' := by
  have hpends := definitions_pend env h hopt hsent definitions.length
  rw [List.take_length, hsent.definitions.length_eq, List.take_length, if_pos (Nat.le_refl _)] at hpends
  exact ⟨_, hpends, .inl rfl, rfl, rfl⟩

/-- **Packets behind the metadata** that keep the connection waiting pass, and the metadata is sent as always. -/
theorem resultSet_of_pends (h : AwaitsQuery c clientFlag) (h41 : hasFlag clientFlag .clientProtocol41)
    (hdep : hasFlag clientFlag .clientDeprecateEof)
    (hsent : QueryResult.ResultSetSent clientFlag columns count definitions rows) (hps : ∀ p ∈ ps, Typed p)
    (hpends : PendsAll env c .default (count :: definitions ++ ps) self') :
    hasFlag clientFlag .clientOptionalResultSetMetadata = false ∧
      ∃ dropped, RowsPass env c (columns.map ColumnDefinition.asRead) 0 ps dropped ∧
        Reading (columns.map ColumnDefinition.asRead) (dropped.count true) self' := by
  obtain ⟨self₁, hheader, hrows⟩ := hpends.append_inv
  have hopt : hasFlag clientFlag .clientOptionalResultSetMetadata = false := by
    by_contra hopt
    cases hheader with
    | cons hcount _ => exact first_packet_never_pends h (by simpa using hopt) _ hcount
  obtain ⟨self₂, hheader₂, hself₂⟩ := header_pends env h hopt hsent
  obtain rfl : self₁ = self₂ := hheader.unique h.phase hheader₂
  obtain ⟨dropped, hpass, hself'⟩ := rowsPass_of_pendsAll h h41 hdep hopt hps hself₂ hrows
  rw [Nat.zero_add] at hself'
  exact ⟨hopt, dropped, hpass, hself'⟩

theorem pends_of_resultSet {dropped : List Bool} (h : AwaitsQuery c clientFlag)
    (hdep : hasFlag clientFlag .clientDeprecateEof)
    (hopt : hasFlag clientFlag .clientOptionalResultSetMetadata = false)
    (hsent : QueryResult.ResultSetSent clientFlag columns count definitions rows)
    (hpass : RowsPass env c (columns.map ColumnDefinition.asRead) 0 ps dropped) :
    ∃ self', PendsAll env c .default (count :: definitions ++ ps) self' ∧
      Reading (columns.map ColumnDefinition.asRead) (dropped.count true) self' := by
  obtain ⟨self₁, hheader, hself₁⟩ := header_pends env h hopt hsent
  obtain ⟨self', hrows, hself'⟩ := pendsAll_of_rowsPass h hdep hself₁ hpass
  rw [Nat.zero_add] at hself'
  exact ⟨self', hheader.append hrows, hself'⟩

/-- While the definitions of a first result set come, the accumulator has those that have come. -/
theorem columnsApart_first {terminator : Packet} {later : List QueryResult} (h : AwaitsQuery c clientFlag)
    (hfresh : c.queryResponse = .default) (hopt : hasFlag clientFlag .clientOptionalResultSetMetadata = false)
    (hsent : QueryResult.ResultSetSent clientFlag columns count definitions rows)
    (hlater : ∀ r ∈ later, ∃ packet, r = .ok packet) :
    ColumnsApart env c (.resultSet columns count definitions rows terminator :: later) := by
  intro earlier later' columns' count' definitions' rows' terminator' hsplit k _
  have hfirst : earlier = [] := by
    cases earlier with
    | nil => rfl
    | cons r earlier =>
      have hrest := (List.cons.inj hsplit).2
      obtain ⟨packet, hpacket⟩ := hlater (.resultSet columns' count' definitions' rows' terminator') (by rw [hrest]; simp)
      cases hpacket
  subst hfirst
  cases hsplit
  obtain ⟨⟨outs, hrun⟩, -⟩ := (definitions_pend env h hopt hsent k).run h.phase
  rw [← Connection.holding_fresh hfresh] at hrun
  exact ⟨_, outs, hrun, rfl⟩

/-! ## A response -/

theorem QueryResult.packets_ne_nil (r : QueryResult) : r.packets ≠ [] := by
  cases r <;> simp [QueryResult.packets]

/-- **A result that announces another** and leaves the connection waiting is a result set that runs on. -/
theorem runsOn_of_pendsAll {r : QueryResult} (h : AwaitsQuery c clientFlag)
    (h41 : hasFlag clientFlag .clientProtocol41) (hdep : hasFlag clientFlag .clientDeprecateEof)
    (hsent : r.Sent clientFlag true) (hpends : PendsAll env c .default r.packets self') :
    r.RunsOn env c clientFlag ∧ hasFlag clientFlag .clientOptionalResultSetMetadata = false ∧
      ∃ columns skipped, columns ≠ [] ∧ Reading columns skipped self' := by
  generalize true = more at hsent
  cases hsent with
  | ok hok =>
    cases hpends with
    | cons hstep _ => exact absurd hok.pType (hstep.ordinary h).2
  | @resultSet columns count definitions rows terminator statusFlags hset hterminator =>
    have htyped : ∀ p ∈ rows ++ [terminator], Typed p := by
      intro p hp
      rcases List.mem_append.1 hp with hrow | hlast
      · exact (hset.rows p hrow).typed
      · rw [List.mem_singleton.1 hlast]
        exact hterminator.1
    rw [QueryResult.packets, List.append_assoc] at hpends
    obtain ⟨hopt, dropped, hpass, hself'⟩ := resultSet_of_pends h h41 hdep hset htyped hpends
    refine ⟨⟨hopt, ?_, dropped, hpass⟩, hopt, _, _, by simpa using hset.nonempty, hself'⟩
    have htype := hpass.types terminator (by simp)
    rw [hterminator.pType] at htype
    split_ifs at htype with hlen
    omega

/-- **One result** ends the response at its last packet exactly if it stands alone. -/
theorem endsAtLast_result_iff {r : QueryResult} (h : AwaitsQuery c clientFlag)
    (h41 : hasFlag clientFlag .clientProtocol41) (hdep : hasFlag clientFlag .clientDeprecateEof)
    (hsent : r.Sent clientFlag false) :
    EndsAtLast env (c.holding .default) r.packets ↔ r.StandsAlone env c clientFlag := by
  generalize hlast : false = more at hsent
  cases hsent with
  | ok hok => exact iff_of_true (endsAtLast_ok h h41 hok) trivial
  | @resultSet columns count definitions rows terminator statusFlags hset hterminator =>
    rw [QueryResult.packets, endsAtLast_append h.phase (by simp)]
    constructor
    · rintro ⟨self', hpends, hends⟩
      obtain ⟨hopt, dropped, hpass, hself'⟩ :=
        resultSet_of_pends h h41 hdep hset (fun row hrow => (hset.rows row hrow).typed) hpends
      obtain ⟨hlen, hnumber⟩ := (endsAtLast_terminator_iff h h41 hdep hself' hterminator hlast.symm).1 hends
      exact ⟨hopt, hlen, dropped, hpass, hnumber⟩
    · rintro ⟨hopt, hlen, dropped, hpass, hnumber⟩
      obtain ⟨self', hpends, hself'⟩ := pends_of_resultSet h hdep hopt hset hpass
      exact ⟨self', hpends, (endsAtLast_terminator_iff h h41 hdep hself' hterminator hlast.symm).2 ⟨hlen, hnumber⟩⟩

/-- **Behind a result set that runs on** an OK packet ends the response, and the column count of another result set leaves
the columns as they are. -/
theorem second_result {r r₂ : QueryResult} {later : List QueryResult} {more : Bool} (h : AwaitsQuery c clientFlag)
    (h41 : hasFlag clientFlag .clientProtocol41) (hdep : hasFlag clientFlag .clientDeprecateEof)
    (hfresh : c.queryResponse = .default) (hopt : hasFlag clientFlag .clientOptionalResultSetMetadata = false)
    (hne : columns ≠ []) (hself : Reading columns skipped self) (hpends : PendsAll env c .default r.packets self)
    (hsent : r₂.Sent clientFlag more) (hends : EndsAtLast env (c.holding self) ((r₂ :: later).flatMap (·.packets)))
    (hapart : ColumnsApart env c (r :: r₂ :: later)) : later = [] ∧ ∃ packet, r₂ = .ok packet := by
  rw [List.flatMap_cons] at hends
  cases hsent with
  | @ok packet statusFlags hok =>
    refine ⟨?_, packet, rfl⟩
    by_contra hlater
    obtain ⟨r₃, later, rfl⟩ := List.exists_cons_of_ne_nil hlater
    obtain ⟨_, hstep, -⟩ := (endsAtLast_cons h.phase (by simp [QueryResult.packets_ne_nil])).1 hends
    exact (hstep.ordinary h).2 hok.pType
  | @resultSet columns₂ count definitions rows terminator statusFlags hset _ =>
    exfalso
    obtain ⟨self', hstep, -⟩ := (endsAtLast_cons h.phase (by simp)).1 hends
    obtain ⟨c', outs, hrun, hcolumns⟩ := hapart [r] later _ _ _ _ _ rfl 0 (Nat.zero_le _)
    obtain ⟨⟨outs', hrun'⟩, -⟩ := (hpends.append (.cons hstep (.nil self'))).run h.phase
    rw [← Connection.holding_fresh hfresh] at hrun'
    rw [List.flatMap_singleton, List.take_zero, hrun'] at hrun
    cases hrun
    obtain ⟨-, dropped, -, -, rfl⟩ := (pends_among_rows_iff h h41 hdep hopt hset.count.1 hself).1 hstep
    exact hne (hself.columns.symm.trans hcolumns)

/-- A result set that runs on and an OK packet. -/
theorem endsAtLast_runsOn {r : QueryResult} {packet : Packet} (h : AwaitsQuery c clientFlag)
    (h41 : hasFlag clientFlag .clientProtocol41) (hdep : hasFlag clientFlag .clientDeprecateEof)
    (hfresh : c.queryResponse = .default) (hsent : r.Sent clientFlag true) (hok : (QueryResult.ok packet).Sent clientFlag false)
    (hruns : r.RunsOn env c clientFlag) :
    EndsAtLast env (c.holding .default) (r.packets ++ [packet]) ∧ ColumnsApart env c [r, .ok packet] := by
  generalize true = more at hsent
  generalize false = less at hok
  cases hok with
  | ok hok =>
    cases hsent with
    | ok => exact hruns.elim
    | resultSet hset _ =>
      obtain ⟨hopt, -, dropped, hpass⟩ := hruns
      obtain ⟨self', hpends, -⟩ := pends_of_resultSet h hdep hopt hset hpass
      rw [← List.append_assoc] at hpends
      exact ⟨(endsAtLast_append h.phase (by simp)).2 ⟨self', hpends, endsAtLast_ok h h41 hok⟩,
        columnsApart_first h hfresh hopt hset (by simp)⟩

/-- **A response ends at its last packet** exactly if it is one result, or a result set that runs on and an OK packet. For
every list of results, each but the last announcing another, the connection waits until the last packet and then gives the
turn back, each result set's columns being its own, if and only if the results are these. -/
theorem response_ends_at_last_iff (h : AwaitsQuery c clientFlag) (hfresh : c.queryResponse = .default)
    (h41 : hasFlag clientFlag .clientProtocol41) (hdep : hasFlag clientFlag .clientDeprecateEof)
    {before : List QueryResult} {last : QueryResult} (hbefore : ∀ r ∈ before, r.Sent clientFlag true)
    (hlast : last.Sent clientFlag false) :
    EndsAtLast env c ((before ++ [last]).flatMap (·.packets)) ∧ ColumnsApart env c (before ++ [last]) ↔
      (before = [] ∧ last.StandsAlone env c clientFlag) ∨
        ∃ r packet, before = [r] ∧ r.RunsOn env c clientFlag ∧ last = .ok packet := by
  have hc : c = c.holding .default := Connection.holding_fresh hfresh
  constructor
  · rintro ⟨hends, hapart⟩
    rw [hc] at hends
    cases before with
    | nil =>
      rw [List.nil_append, List.flatMap_singleton, endsAtLast_result_iff h h41 hdep hlast] at hends
      exact .inl ⟨rfl, hends⟩
    | cons r before =>
      rw [List.cons_append, List.flatMap_cons, endsAtLast_append h.phase (by simp [QueryResult.packets_ne_nil])] at hends
      obtain ⟨self, hpends, hends⟩ := hends
      obtain ⟨hruns, hopt, columns, skipped, hne, hself⟩ := runsOn_of_pendsAll h h41 hdep (hbefore r (by simp)) hpends
      obtain ⟨r₂, later, hlater, hsent⟩ : ∃ r₂ later, before ++ [last] = r₂ :: later ∧ ∃ more, r₂.Sent clientFlag more := by
        cases before with
        | nil => exact ⟨last, [], rfl, false, hlast⟩
        | cons r₂ before => exact ⟨r₂, before ++ [last], rfl, true, hbefore r₂ (by simp)⟩
      obtain ⟨more, hsent⟩ := hsent
      rw [List.cons_append, hlater] at hapart
      rw [hlater] at hends
      obtain ⟨rfl, packet, rfl⟩ := second_result h h41 hdep hfresh hopt hne hself hpends hsent hends hapart
      rcases List.append_eq_singleton_iff.1 hlater with ⟨rfl, hpacket⟩ | ⟨-, hnil⟩
      · exact .inr ⟨r, packet, rfl, hruns, List.singleton_inj.1 hpacket⟩
      · cases hnil
  · rintro (⟨rfl, halone⟩ | ⟨r, packet, rfl, hruns, rfl⟩)
    · refine ⟨?_, ?_⟩
      · rw [hc, List.nil_append, List.flatMap_singleton]
        exact (endsAtLast_result_iff h h41 hdep hlast).2 halone
      · generalize false = more at hlast
        cases hlast with
        | @ok packet =>
          intro earlier later columns count definitions rows terminator hsplit
          have hmem : QueryResult.resultSet columns count definitions rows terminator ∈ [QueryResult.ok packet] := by
            rw [← List.nil_append [QueryResult.ok packet], hsplit]
            simp
          simp at hmem
        | resultSet hset _ => exact columnsApart_first h hfresh halone.1 hset (by simp)
    · obtain ⟨hends, hapart⟩ := endsAtLast_runsOn h h41 hdep hfresh (hbefore r (by simp)) hlast hruns
      rw [← hc] at hends
      exact ⟨by simpa [QueryResult.packets] using hends, hapart⟩

end

end

/-! ## One result, and two -/

def sampleOkPacket (seq : UInt8) (statusFlags : UInt16) : Packet := samplePacket seq (okBody 0 0 statusFlags 0 []) .ok

theorem sampleOkPacket_isOk (seq : UInt8) (statusFlags : UInt16) :
    QueryResult.IsOk statusFlags (sampleOkPacket seq statusFlags) :=
  ⟨getPacketType_okBody .pendingResponse, 0, 0, 0, [], rfl⟩

def sampleTerminator (seq : UInt8) (statusFlags : UInt16) (info : Bytes) : Packet :=
  samplePacket seq (0xfe :: 0 :: 0 :: (toLe 2 statusFlags.toNat ++ (toLe 2 (0 : UInt16).toNat ++ info)))
    (if info.length ≤ 2 then .eof else .other)

theorem sampleTerminator_is (seq : UInt8) (statusFlags : UInt16) (info : Bytes) :
    QueryResult.IsTerminator statusFlags (sampleTerminator seq statusFlags info) := by
  refine ⟨?_, 0, 0, 0, info, rfl⟩
  by_cases hinfo : info.length ≤ 2
  · have hlen : 2 + (2 + info.length) + 1 + 1 + 1 ≤ 9 := by omega
    simp [Typed, sampleTerminator, samplePacket, getPacketType, hinfo, hlen]
  · have hlen : ¬ 2 + (2 + info.length) + 1 + 1 + 1 ≤ 9 := by omega
    simp [Typed, sampleTerminator, samplePacket, getPacketType, hinfo, hlen]

/-- `SELECT x FROM t`: one column and one row with a value of one byte, its packets numbered from here. -/
def sampleResult (seq : UInt8) (statusFlags : UInt16) (value : UInt8) (info : Bytes) : QueryResult :=
  .resultSet [sampleColumn] (samplePacket seq [1] .other) [samplePacket (seq + 1) sampleColumn.encode .other]
    [samplePacket (seq + 2) [1, value] .other] (sampleTerminator (seq + 3) statusFlags info)

theorem sampleResult_sent (seq : UInt8) (statusFlags : UInt16) (value : UInt8) (info : Bytes) :
    (sampleResult seq statusFlags value info).Sent 0x01000200 (QueryResult.announcesMore statusFlags) := by
  refine .resultSet ⟨by simp, by decide, by simpa using sampleColumn_wellFormed.sendable, ⟨rfl, rfl⟩,
    .cons ⟨rfl, rfl⟩ .nil, ?_⟩ (sampleTerminator_is (seq + 3) statusFlags info)
  simp only [List.mem_singleton, forall_eq]
  exact ⟨rfl, [some [value]], rfl, rfl⟩

def sampleChecked : Env := { sampleEnv with overflowChecks := true }

/-- The row 9 is dropped. -/
theorem sampleDropping_drops : PassesAsRow sampleDropping [sampleColumn] [1, 0x39] true := by
  have hfields : FieldsRead ([some [0x39]].flatMap fieldBytes) [some [0x39]] := fieldsRead_flatMap (by decide)
  have hrewritable : Rewritable [sampleColumn] [some [0x39]] (sampleFive "x" "b") (some belowTen) := by
    refine ⟨fun e he expr hexpr => ?_, ?_⟩
    · rw [TtlCache.iter, sampleFive, TtlCache.insert, TtlCache.new, List.filter_nil, List.nil_append,
        List.mem_singleton] at he
      subst he
      cases hexpr
      exact ⟨by decide, AList.lookup_isSome.1 rfl, fun _ => ⟨trivial, rfl⟩⟩
    · rintro expr ⟨⟩
      exact ⟨by decide, AList.lookup_isSome.1 rfl, fun _ => ⟨trivial, rfl⟩⟩
  exact @PassesAsRow.rewritten sampleDropping [sampleColumn] [1, 0x39] sampleColumn (sampleFive "x" "b") _ [some [0x39]]
    rfl rfl rfl hfields (Nat.le_refl _) hrewritable

/-- A response of one result set whose row is dropped, and one of a result set whose terminator has ten bytes, and an OK
packet. -/
theorem response_ends_at_last_iff_one :
    (EndsAtLast sampleChecked sampleDropping ([sampleResult 1 2 0x39 []].flatMap (·.packets)) ∧
      ColumnsApart sampleChecked sampleDropping [sampleResult 1 2 0x39 []]) ∧
    (EndsAtLast sampleEnv (sampleAwaiting 0x01000200)
        ([sampleResult 1 0x000a 0x31 [2, 0x6f, 0x6b], .ok (sampleOkPacket 5 2)].flatMap (·.packets)) ∧
      ColumnsApart sampleEnv (sampleAwaiting 0x01000200)
        [sampleResult 1 0x000a 0x31 [2, 0x6f, 0x6b], .ok (sampleOkPacket 5 2)]) := by
  constructor
  · refine (@response_ends_at_last_iff sampleChecked sampleDropping 0x01000200 ⟨rfl, ⟨_, rfl, rfl⟩, rfl⟩ rfl (by decide)
      (by decide) [] _ (List.forall_mem_nil _) (sampleResult_sent 1 2 0x39 [])).2 (.inl ⟨rfl, by decide, rfl, [true], ?_, by decide⟩)
    rw [List.map_singleton, sampleColumn_wellFormed.asRead_eq]
    exact rowsPass_cons_iff.2 ⟨rfl, sampleDropping_drops, by decide, rowsPass_nil⟩
  · refine (@response_ends_at_last_iff sampleEnv (sampleAwaiting 0x01000200) 0x01000200 (sampleAwaiting_awaits _) rfl (by decide)
      (by decide) [sampleResult 1 0x000a 0x31 [2, 0x6f, 0x6b]] (.ok (sampleOkPacket 5 2)) ?_
      (.ok (sampleOkPacket_isOk 5 2))).2 (.inr ⟨_, _, rfl, ⟨by decide, by decide, [false, false], ?_⟩, rfl⟩)
    · rw [List.forall_mem_singleton]
      exact sampleResult_sent 1 0x000a 0x31 [2, 0x6f, 0x6b]
    · rw [List.map_singleton, sampleColumn_wellFormed.asRead_eq]
      exact rowsPass_cons_iff.2 ⟨rfl, .unrecorded rfl rfl, by decide,
        rowsPass_cons_iff.2 ⟨rfl, .unrecorded rfl rfl, by decide, rowsPass_nil⟩⟩

/-- An OK packet that announces a result set ends the response, a result set that announces an OK packet never leaves its
terminator, and a terminator of nine bytes is not read either. -/
theorem second_result_lost :
    (QueryResult.Sent 0x01000200 true (.ok (sampleOkPacket 1 0x000a)) ∧ (sampleResult 2 2 0x31 []).Sent 0x01000200 false ∧
      consumePacket sampleEnv (sampleAwaiting 0x01000200) (sampleOkPacket 1 0x000a) =
        some ({ sampleAwaiting 0x01000200 with
          phase := .command, queryResponse := ResponseAccumulator.default.completed .ok }, some (sampleOkPacket 1 0x000a)) ∧
      ¬ EndsAtLast sampleEnv (sampleAwaiting 0x01000200)
        ([.ok (sampleOkPacket 1 0x000a), sampleResult 2 2 0x31 []].flatMap (·.packets))) ∧
    ((sampleResult 1 0x000a 0x31 []).Sent 0x01000200 true ∧ QueryResult.Sent 0x01000200 false (.ok (sampleOkPacket 5 2)) ∧
      phases sampleEnv (sampleAwaiting 0x01000200)
          ([sampleResult 1 0x000a 0x31 [], .ok (sampleOkPacket 5 2)].flatMap (·.packets)) =
        [.pendingResponse, .pendingResponse, .pendingResponse] ∧
      ¬ EndsAtLast sampleEnv (sampleAwaiting 0x01000200)
        ([sampleResult 1 0x000a 0x31 [], .ok (sampleOkPacket 5 2)].flatMap (·.packets))) ∧
    ((sampleResult 1 2 0x31 [1, 0x61]).Sent 0x01000200 false ∧
      phases sampleEnv (sampleAwaiting 0x01000200) ([sampleResult 1 2 0x31 [1, 0x61]].flatMap (·.packets)) =
        [.pendingResponse, .pendingResponse, .pendingResponse] ∧
      ¬ EndsAtLast sampleEnv (sampleAwaiting 0x01000200) ([sampleResult 1 2 0x31 [1, 0x61]].flatMap (·.packets))) := by
  refine ⟨⟨.ok (sampleOkPacket_isOk 1 0x000a), sampleResult_sent 2 2 0x31 [], rfl, fun h => ?_⟩,
    ⟨sampleResult_sent 1 0x000a 0x31 [], .ok (sampleOkPacket_isOk 5 2), rfl, fun h => ?_⟩,
    ⟨sampleResult_sent 1 2 0x31 [1, 0x61], rfl, fun h => ?_⟩⟩
  · have hfirst := congrArg List.head? h
    cases hfirst
  · have hlength := congrArg List.length h
    cases hlength
  · have hlength := congrArg List.length h
    cases hlength

end MocksySql
