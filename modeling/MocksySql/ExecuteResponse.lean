import MocksySql.LengthEncoding
import MocksySql.MultiResult
/-!
# Responses to COM_STMT_EXECUTE

`process_binary_result_set` (`result_set.rs:179`) looks at the type and the number of a packet and at nothing else: an EOF
packet ends the response, and so does an OK packet with number 1. A row of a binary result set starts with the byte of an
OK packet, and is decoded as one when it has seven bytes (`:57-61`).

| here | there |
| --- | --- |
| `intWidth`      | the arms of `IntLenEnc::from_bytes` (`types.rs:64-98`) |
| `okFlagsWidth`  | the flags `OkData::from_packet` reads (`packet.rs:233-260`) |

* `decodes_iff` — the bytes that `OkData::from_packet` decodes.
* `endsAtLast_execute` — a response packet by packet.
* `execute_exact_end_iff` — which responses end at their last packet.
-/

namespace MocksySql
open FieldDecode

/-- The connection waits for the response to a COM_STMT_EXECUTE under these capability flags. -/
structure AwaitsExecute (c : Connection) (clientFlag : UInt32) : Prop where
  phase : c.phase = .pendingResponse
  command : ∃ command, c.lastCommand = some command ∧ command.comCode = .comStmtExecute
  flags : c.clientFlag = some clientFlag

/-- How many bytes a length-encoded integer takes, by the first of them. -/
def intWidth (marker : UInt8) : Nat :=
  if marker = 0xFC then 3 else if marker = 0xFD then 4 else if marker = 0xFE then 9 else 1

def IsIntLenEnc (bytes : Bytes) : Prop := ∃ marker, bytes.head? = some marker ∧ bytes.length = intWidth marker

/-- How many bytes the status flags and the warnings of an OK packet take. -/
def okFlagsWidth (clientFlag : UInt32) : Nat :=
  if hasFlag clientFlag .clientProtocol41 then 4 else if hasFlag clientFlag .clientTransactions then 2 else 0

/-- Two length-encoded integers and the flags behind a zero byte, and anything behind these. -/
def OkShaped (clientFlag : UInt32) (body : Bytes) : Prop :=
  ∃ affectedRows lastInsertId rest, IsIntLenEnc affectedRows ∧ IsIntLenEnc lastInsertId ∧
    okFlagsWidth clientFlag ≤ rest.length ∧ body = 0x00 :: (affectedRows ++ (lastInsertId ++ rest))

inductive ExecuteResponse where
  | ok (packet : Packet)
  | error (packet : Packet)
  | resultSet (columns : List ColumnDefinition) (follows : Bool) (count : Packet) (definitions eofs rows : List Packet)
      (terminator : Packet)

namespace ExecuteResponse

def packets : ExecuteResponse → List Packet
  | .ok packet | .error packet => [packet]
  | .resultSet _ _ count definitions eofs rows terminator => count :: definitions ++ eofs ++ rows ++ [terminator]

/-- The first packet of a result set; with CLIENT_OPTIONAL_RESULTSET_METADATA it says first whether definitions follow. -/
def countBody (clientFlag : UInt32) (follows : Bool) (n : Nat) : Bytes :=
  (if hasFlag clientFlag .clientOptionalResultSetMetadata then [if follows then 0x01 else 0x00] else []) ++
    IntLenEnc.encode n

/-- A response as a server sends it: the columns are any, a row is a zero byte and any bytes behind it, and a result set
ends with an EOF packet, the OK packet that took its place, or an ERR packet. -/
inductive Sent (clientFlag : UInt32) : ExecuteResponse → Prop
  | ok {packet : Packet} : Typed packet → packet.header.seq = 1 → OkShaped clientFlag packet.body →
      Sent clientFlag (.ok packet)
  | error {packet : Packet} : Typed packet → packet.body.head? = some 0xff → Sent clientFlag (.error packet)
  | resultSet {columns : List ColumnDefinition} {follows : Bool} {count : Packet} {definitions eofs rows : List Packet}
      {terminator : Packet} : columns ≠ [] → columns.length < 2 ^ 64 → (∀ column ∈ columns, column.Sendable) → Typed count →
      count.header.seq = 1 → count.body = countBody clientFlag follows columns.length →
      List.Forall₂ (fun p column => Typed p ∧ p.body = ColumnDefinition.encode column) definitions
        (if follows ∨ hasFlag clientFlag .clientOptionalResultSetMetadata = false then columns else []) →
      (if hasFlag clientFlag .clientDeprecateEof then eofs = []
        else ∃ eof b0 b1 b2 b3, eofs = [eof] ∧ Typed eof ∧ eof.body = [0xfe, b0, b1, b2, b3]) →
      (∀ row ∈ rows, Typed row ∧ row.body.head? = some 0x00) → Typed terminator →
      terminator.body.head? = some 0xfe ∨ terminator.body.head? = some 0xff →
      Sent clientFlag (.resultSet columns follows count definitions eofs rows terminator)

/-- A row that can be told from the OK packet that ends a response: it has fewer than seven bytes, or can be decoded as an
OK packet, with another number than 1. -/
def RowFits (clientFlag : UInt32) (row : Packet) : Prop :=
  row.body.length < 7 ∨ OkShaped clientFlag row.body ∧ row.header.seq ≠ 1

def Fits (clientFlag : UInt32) : ExecuteResponse → Prop
  | .ok packet => 7 ≤ packet.body.length
  | .error _ => False
  | .resultSet columns follows _ _ _ rows terminator =>
    hasFlag clientFlag .clientDeprecateEof ∧
      (columns.length < 2 ^ 24 ∨ follows ∧ hasFlag clientFlag .clientOptionalResultSetMetadata) ∧
      (∀ row ∈ rows, RowFits clientFlag row) ∧ terminator.body.head? = some 0xfe ∧ terminator.body.length ≤ 9

end ExecuteResponse

/-! ## What can be decoded as an OK packet -/

/-- A length-encoded integer is decoded if its bytes are there, whatever they are. -/
theorem IntLenEnc.fromBytes_width (marker : UInt8) (more : Bytes) :
    (IntLenEnc.fromBytes (marker :: more) none).map (·.offsetIncrement) =
      if intWidth marker ≤ more.length + 1 then some (intWidth marker) else none := by
  simp only [IntLenEnc.fromBytes, Option.isSome_none, Bool.false_eq_true, if_false, List.head?_cons, leAfterMarker_eq,
    List.length_cons]
  unfold intWidth
  by_cases h2 : marker = 0xFC
  · simp only [h2, if_true]
    split_ifs <;> rfl
  by_cases h3 : marker = 0xFD
  · simp only [h3, if_true]
    split_ifs <;> rfl
  by_cases h8 : marker = 0xFE
  · simp only [h8, if_true]
    split_ifs <;> rfl
  · simp [h2, h3, h8]

/-- Its bytes are as many as the first one says. -/
theorem IntLenEnc.ReadAs.isIntLenEnc {enc : Bytes} {n : Nat} (h : IntLenEnc.ReadAs enc n) : IsIntLenEnc enc := by
  cases h with
  | @narrow m hnarrow =>
    simp only [wideForms, List.forall_mem_cons] at hnarrow
    exact ⟨m, rfl, by simp [intWidth, hnarrow]⟩
  | @wide form part hform hpart =>
    have hwidth : ∀ form ∈ wideForms, intWidth form.1 = 1 + form.2 := by decide
    exact ⟨form.1, rfl, by rw [List.length_cons, hpart, Nat.add_comm, hwidth form hform]⟩

theorem IsIntLenEnc.decodes {enc : Bytes} (h : IsIntLenEnc enc) (rest : Bytes) :
    ∃ n, IntLenEnc.fromBytes (enc ++ rest) none = some ⟨n, enc.length⟩ := by
  obtain ⟨marker, hhead, hlength⟩ := h
  obtain ⟨more, rfl⟩ := List.head?_eq_some_iff.1 hhead
  have hwidth := IntLenEnc.fromBytes_width marker (more ++ rest)
  rw [if_pos (by rw [← hlength]; simp)] at hwidth
  obtain ⟨⟨n, increment⟩, hr, hincrement⟩ := Option.map_eq_some_iff.1 hwidth
  exact ⟨n, by rw [List.cons_append, hr, hlength, ← hincrement]⟩

section
variable {α : Type} {body rest : Bytes} {offset : Nat} {f : Nat → Cursor α} {P : Bytes → Prop}

theorem At.intLenEnc_isSome (h : At body offset rest)
    (hf : ∀ n offset' rest', At body offset' rest' → ((f n offset').isSome ↔ P rest')) :
    ((field body (IntLenEnc.fromBytes · none) >>= f) offset).isSome ↔
      ∃ enc rest', IsIntLenEnc enc ∧ rest = enc ++ rest' ∧ P rest' := by
  rw [h.field_bind_isSome]
  constructor
  · rintro ⟨r, hr, hsome⟩
    obtain ⟨enc, rest', rfl, henc, hincrement⟩ := IntLenEnc.readAs_iff.1 hr
    rw [hincrement] at hsome
    exact ⟨enc, rest', henc.isIntLenEnc, rfl, (hf _ _ _ h.skip).1 hsome⟩
  · rintro ⟨enc, rest', henc, rfl, hP⟩
    obtain ⟨n, hr⟩ := henc.decodes rest'
    exact ⟨_, hr, (hf _ _ _ h.skip).2 hP⟩

theorem At.intFixedLen_isSome {k : Nat} (h : At body offset rest) (hk : k ≤ 8)
    (hf : ∀ n offset' rest', At body offset' rest' → ((f n offset').isSome ↔ P rest')) :
    ((field body (IntFixedLen.fromBytes · (some k)) >>= f) offset).isSome ↔ k ≤ rest.length ∧ P (rest.drop k) := by
  rw [h.field_bind_isSome]
  by_cases hle : k ≤ rest.length
  · have hlength : (rest.take k).length = k := by rw [List.length_take, Nat.min_eq_left hle]
    have hr : IntFixedLen.fromBytes rest (some k) = some ⟨fromLe (rest.take k), k⟩ := by
      have hreads := @IntFixedLen.reads_fromLe (rest.take k) (by omega) (rest.drop k)
      simp only [hlength, List.take_append_drop] at hreads
      exact hreads
    have hat : At body (offset + k) (rest.drop k) := by
      have hskip := @At.skip body (rest.take k) (rest.drop k) offset (by rwa [List.take_append_drop])
      rwa [hlength] at hskip
    simp [hr, hle, hf _ _ _ hat]
  · have hr : IntFixedLen.fromBytes rest (some k) = none := by simp [IntFixedLen.fromBytes, slice, hle]
    simp [hr, hle]

end

/-- The flags of an OK packet. -/
theorem OkData.flagFields_isSome {α : Type} {clientFlag : UInt32} {body rest : Bytes} {offset : Nat}
    {g : Option UInt16 × Option UInt16 → α} (h : At body offset rest) :
    ((OkData.flagFields body clientFlag >>= fun flags => pure (g flags)) offset).isSome ↔
      okFlagsWidth clientFlag ≤ rest.length := by
  have hpure : ∀ (a : α) offset', ((pure a : Cursor α) offset').isSome ↔ True := fun _ _ =>
    iff_of_true rfl trivial
  unfold OkData.flagFields okFlagsWidth
  split_ifs
  · simp only [bind_assoc, pure_bind]
    rw [At.intFixedLen_isSome h (by decide) (P := fun rest => 2 ≤ rest.length)]
    · rw [List.length_drop]
      omega
    · intro n offset' rest' hat
      rw [At.intFixedLen_isSome hat (by decide) fun _ _ _ _ => hpure _ _, and_true]
  · simp only [bind_assoc, pure_bind]
    rw [At.intFixedLen_isSome h (by decide) fun _ _ _ _ => hpure _ _, and_true]
  · simp only [pure_bind, hpure, Nat.zero_le]

/-- **The bytes that are decoded as an OK packet** behind a zero byte. -/
theorem decodes_iff {c : Connection} {clientFlag : UInt32} {p : Packet} (hflag : c.clientFlag = some clientFlag)
    (hp : p.pType = .ok) (hzero : p.body.head? = some 0x00) :
    (OkData.fromPacket p c).isSome ↔ OkShaped clientFlag p.body := by
  obtain ⟨tail, hbody⟩ := List.head?_eq_some_iff.1 hzero
  have hstart : At p.body 0 (toLe 1 0 ++ tail) := by
    rw [hbody]
    exact At.start _
  have hfields : (OkData.fields p.body clientFlag 0).isSome ↔ ∃ affectedRows rest, IsIntLenEnc affectedRows ∧
      tail = affectedRows ++ rest ∧ ∃ lastInsertId rest', IsIntLenEnc lastInsertId ∧ rest = lastInsertId ++ rest' ∧
        okFlagsWidth clientFlag ≤ rest'.length := by
    have hheader : IntFixedLen.fromBytes (toLe 1 0 ++ tail) (some 1) = some ⟨0, (toLe 1 0).length⟩ :=
      IntFixedLen.reads (by decide) (by decide) tail
    unfold OkData.fields
    rw [hstart.field_bind_isSome]
    simp only [hheader, Option.some.injEq, exists_eq_left']
    rw [require_bind (.inl rfl)]
    refine At.intLenEnc_isSome hstart.skip fun _ _ rest hat => ?_
    exact At.intLenEnc_isSome hat fun _ _ rest' hat' => OkData.flagFields_isSome hat'
  have hrun : (OkData.fromPacket p c).isSome ↔ (OkData.fields p.body clientFlag 0).isSome := by
    simp [OkData.fromPacket, hp, hflag, StateT.run', Option.map_eq_map]
  rw [hrun, hfields, hbody]
  constructor
  · rintro ⟨affectedRows, _, haffected, rfl, lastInsertId, rest, hinsert, rfl, hflags⟩
    exact ⟨affectedRows, lastInsertId, rest, haffected, hinsert, hflags, rfl⟩
  · rintro ⟨affectedRows, lastInsertId, rest, haffected, hinsert, hflags, heq⟩
    cases heq
    exact ⟨affectedRows, _, haffected, rfl, lastInsertId, rest, hinsert, rfl, hflags⟩

/-! ## One packet -/

section
variable {env : Env} {c : Connection} {clientFlag : UInt32} {p : Packet}

/-- The packet can be decoded, where it is decoded at all. -/
def Decodes (c : Connection) (p : Packet) : Prop :=
  (ResponseAccumulator.default.completeOnErrorOrOk p c).isSome

/-- The packet ends a response to a COM_STMT_EXECUTE. -/
def EndsExecute (p : Packet) : Prop := p.pType = .eof ∨ (p.header.seq = 1 ∧ p.pType = .ok)

namespace ResponseAccumulator
variable {self : ResponseAccumulator}

variable (self) in
theorem completeOnErrorOrOk_isSome : (self.completeOnErrorOrOk p c).isSome ↔ Decodes c p := by
  unfold Decodes completeOnErrorOrOk
  split <;> simp

/-- A packet is decoded, if it is an ERR or an OK packet, and the phase follows from its type and its number. -/
theorem consume_execute (h : AwaitsExecute c clientFlag) : self.consume env p c =
    (self.completeOnErrorOrOk p c).map fun acc => (acc, p, processBinaryResultSet p .pendingResponse) := by
  obtain ⟨command, hc, hexecute⟩ := h.command
  have hstep : self.consumeStep env p c = (self.completeOnErrorOrOk p c).map fun acc =>
      (acc, p, .done (processBinaryResultSet p .pendingResponse)) := by
    simp only [consumeStep, hc, hexecute, h.phase, if_true, Option.bind_eq_bind, Option.map_eq_bind]
    rfl
  rw [consume, consumeFuel, consumeLoop, hstep]
  cases self.completeOnErrorOrOk p c <;> rfl

end ResponseAccumulator

theorem processBinaryResultSet_cases (p : Packet) :
    (EndsExecute p ∧ ResponseAccumulator.processBinaryResultSet p .pendingResponse = .command) ∨
      (¬ EndsExecute p ∧ ResponseAccumulator.processBinaryResultSet p .pendingResponse = .pendingResponse) := by
  by_cases h : EndsExecute p
  · exact .inl ⟨h, if_pos h⟩
  · exact .inr ⟨h, if_neg h⟩

theorem AwaitsExecute.holding (h : AwaitsExecute c clientFlag) (self : ResponseAccumulator) :
    AwaitsExecute (c.holding self) clientFlag := ⟨h.phase, h.command, h.flags⟩

theorem consume_execute_iff (h : AwaitsExecute c clientFlag) {self : ResponseAccumulator} {phase : Phase} :
    (∃ self' p', self.consume env p (c.holding self) = some (self', p', phase)) ↔
      Decodes c p ∧ ResponseAccumulator.processBinaryResultSet p .pendingResponse = phase := by
  rw [ResponseAccumulator.consume_execute (h.holding self), ← ResponseAccumulator.completeOnErrorOrOk_isSome self,
    Option.isSome_iff_exists]
  constructor
  · rintro ⟨self', p', hsome⟩
    obtain ⟨acc, hacc, heq⟩ := Option.map_eq_some_iff.1 hsome
    cases heq
    exact ⟨⟨_, hacc⟩, rfl⟩
  · rintro ⟨⟨acc, hacc⟩, rfl⟩
    exact ⟨acc, p, Option.map_eq_some_iff.2 ⟨acc, hacc, rfl⟩⟩

/-- A packet that keeps the connection waiting. -/
theorem pends_execute_iff (h : AwaitsExecute c clientFlag) {self : ResponseAccumulator} :
    (∃ self', Pends env c self p self') ↔ Decodes c p ∧ ¬ EndsExecute p := by
  simp only [pends_iff h.phase, consume_execute_iff h]
  rcases processBinaryResultSet_cases p with ⟨hends, hphase⟩ | ⟨hends, hphase⟩ <;> simp [hends, hphase]

/-- A packet that gives the turn back. -/
theorem endsAtLast_execute_singleton (h : AwaitsExecute c clientFlag) {self : ResponseAccumulator} :
    EndsAtLast env (c.holding self) [p] ↔ Decodes c p ∧ EndsExecute p := by
  rw [endsAtLast_singleton_iff h.phase, consume_execute_iff h]
  rcases processBinaryResultSet_cases p with ⟨hends, hphase⟩ | ⟨hends, hphase⟩ <;> simp [hends, hphase]

/-- **A response packet by packet**: it ends at its last packet if all others keep the connection waiting and the last one
gives the turn back. -/
theorem endsAtLast_execute (h : AwaitsExecute c clientFlag) {last : Packet} : ∀ {ps : List Packet}
    {self : ResponseAccumulator}, EndsAtLast env (c.holding self) (ps ++ [last]) ↔
      (∀ p ∈ ps, Decodes c p ∧ ¬ EndsExecute p) ∧ Decodes c last ∧ EndsExecute last
  | [], self => by
    rw [List.nil_append, endsAtLast_execute_singleton h]
    simp
  | p :: ps, self => by
    rw [List.cons_append, endsAtLast_cons h.phase (by simp), List.forall_mem_cons, and_assoc,
      ← @pends_execute_iff env c clientFlag p h self]
    constructor
    · rintro ⟨self', hp, hrest⟩
      exact ⟨⟨self', hp⟩, (endsAtLast_execute h).1 hrest⟩
    · rintro ⟨⟨self', hp⟩, hrest⟩
      exact ⟨self', hp, (endsAtLast_execute h).2 hrest⟩

/-! ## What a packet is taken for -/

theorem decodes_of_ordinary (hp : Ordinary p) : Decodes c p := by
  rw [Decodes, ResponseAccumulator.completeOnErrorOrOk_ordinary hp]
  rfl

/-- A packet that starts with the byte of an OK packet is taken for one if it is long enough. -/
theorem Typed.zero (hp : Typed p) (hb : p.body.head? = some 0x00) :
    (7 ≤ p.body.length ∧ p.pType = .ok) ∨ (p.body.length < 7 ∧ p.pType = .other) := by
  have htype := hp.pType_eq hb
  by_cases hlen : 7 ≤ p.body.length
  · rw [if_pos ⟨hlen, rfl⟩] at htype
    exact .inl ⟨hlen, htype⟩
  · rw [if_neg (by omega), if_neg (by simp), if_neg (by simp)] at htype
    exact .inr ⟨by omega, htype⟩

theorem decodes_zero_iff (hflag : c.clientFlag = some clientFlag) (hp : Typed p) (hb : p.body.head? = some 0x00) :
    Decodes c p ↔ p.body.length < 7 ∨ OkShaped clientFlag p.body := by
  rcases hp.zero hb with ⟨hlen, htype⟩ | ⟨hlen, htype⟩
  · rw [or_iff_right (by omega), ← decodes_iff hflag htype hb]
    simp [Decodes, ResponseAccumulator.completeOnErrorOrOk, htype]
  · exact iff_of_true (decodes_of_ordinary (by simp [Ordinary, htype])) (.inl hlen)

theorem ends_zero_iff (hp : Typed p) (hb : p.body.head? = some 0x00) :
    EndsExecute p ↔ 7 ≤ p.body.length ∧ p.header.seq = 1 := by
  rcases hp.zero hb with ⟨hlen, htype⟩ | ⟨hlen, htype⟩
  · simp [EndsExecute, htype, hlen]
  · exact iff_of_false (by simp [EndsExecute, htype]) (by omega)

theorem waits_zero_iff (hflag : c.clientFlag = some clientFlag) (hp : Typed p) (hb : p.body.head? = some 0x00) :
    Decodes c p ∧ ¬ EndsExecute p ↔ ExecuteResponse.RowFits clientFlag p := by
  rw [decodes_zero_iff hflag hp hb, ends_zero_iff hp hb, ExecuteResponse.RowFits]
  by_cases hlen : p.body.length < 7
  · simp [hlen]
  · simp [hlen, Nat.not_lt.1 hlen]

/-- A packet that starts with the byte of an EOF packet. -/
theorem ends_eof_iff (hp : Typed p) (hb : p.body.head? = some 0xfe) :
    Decodes c p ∧ (EndsExecute p ↔ p.body.length ≤ 9) := by
  have htype := hp.pType_eq hb
  rw [if_neg (by simp)] at htype
  by_cases hlen : p.body.length ≤ 9
  · rw [if_pos ⟨hlen, rfl⟩] at htype
    exact ⟨decodes_of_ordinary (by simp [Ordinary, htype]), iff_of_true (.inl htype) hlen⟩
  · rw [if_neg (by omega), if_neg (by simp)] at htype
    exact ⟨decodes_of_ordinary (by simp [Ordinary, htype]), iff_of_false (by simp [EndsExecute, htype]) hlen⟩

theorem not_ends_error (hp : Typed p) (hb : p.body.head? = some 0xff) : ¬ EndsExecute p := by
  have htype := hp.pType_eq hb
  rw [if_neg (by simp), if_neg (by simp), if_pos rfl] at htype
  simp [EndsExecute, htype]

theorem waits_other {b : UInt8} (hp : Typed p) (hb : p.body.head? = some b) (h0 : b ≠ 0x00) (hfe : b ≠ 0xfe)
    (hff : b ≠ 0xff) : Decodes c p ∧ ¬ EndsExecute p := by
  have htype := hp.pType_eq hb
  rw [if_neg (by simp [h0]), if_neg (by simp [hfe]), if_neg hff] at htype
  exact ⟨decodes_of_ordinary (by simp [Ordinary, htype]), by simp [EndsExecute, htype]⟩

theorem IntLenEnc.encode_eq (n : Nat) : ∃ m more, IntLenEnc.encode n = m :: more ∧ (m = 0xfe ↔ 2 ^ 24 ≤ n) ∧
    (n < 2 ^ 24 → more.length < 4) ∧ (2 ^ 24 ≤ n → more.length = 8) := by
  unfold IntLenEnc.encode
  split_ifs with h1 h2 h3
  · have hm : UInt8.ofNat n ≠ 0xfe := by
      intro h
      have hn := congrArg UInt8.toNat h
      rw [UInt8.toNat_ofNat'] at hn
      simp at hn
      omega
    exact ⟨_, _, rfl, iff_of_false hm (by omega), by simp, by omega⟩
  · exact ⟨_, _, rfl, iff_of_false (by decide) (by omega), by simp, by omega⟩
  · exact ⟨_, _, rfl, iff_of_false (by decide) (by omega), by simp, by omega⟩
  · exact ⟨_, _, rfl, iff_of_true rfl (by omega), by omega, by simp⟩

/-- The first packet of a result set. -/
theorem waits_count_iff {follows : Bool} {n : Nat} (hflag : c.clientFlag = some clientFlag) (hn : 0 < n) (hp : Typed p)
    (hseq : p.header.seq = 1) (hbody : p.body = ExecuteResponse.countBody clientFlag follows n) :
    Decodes c p ∧ ¬ EndsExecute p ↔ n < 2 ^ 24 ∨ follows ∧ hasFlag clientFlag .clientOptionalResultSetMetadata := by
  obtain ⟨m, more, hm, hfe, hshort, hlong⟩ := IntLenEnc.encode_eq n
  obtain ⟨_, _, hm', -, hff, h0⟩ := IntLenEnc.head_encode n
  cases hm.symm.trans hm'
  rw [ExecuteResponse.countBody, hm] at hbody
  by_cases hopt : hasFlag clientFlag .clientOptionalResultSetMetadata
  · rw [if_pos hopt] at hbody
    cases follows with
    | true => exact iff_of_true (waits_other hp (by rw [hbody]; rfl) (by decide) (by decide) (by decide)) (.inr ⟨rfl, hopt⟩)
    | false =>
      rw [waits_zero_iff hflag hp (by rw [hbody]; rfl), ExecuteResponse.RowFits, hbody]
      simp only [hseq, ne_eq, not_true, and_false, or_false, Bool.false_eq_true, if_false, false_and,
        List.singleton_append, List.length_cons]
      omega
  · rw [if_neg hopt, List.nil_append] at hbody
    simp only [hopt, Bool.false_eq_true, and_false, or_false]
    have hhead : p.body.head? = some m := by rw [hbody]; rfl
    by_cases hlt : n < 2 ^ 24
    · exact iff_of_true (waits_other hp hhead (h0 hn) (fun h => by have := hfe.1 h; omega) hff) hlt
    · rw [hfe.2 (by omega)] at hhead
      refine iff_of_false (fun hwaits => hwaits.2 ((ends_eof_iff (c := c) hp hhead).2.2 ?_)) hlt
      rw [hbody, List.length_cons, hlong (by omega)]

/-- A definition starts with the length of `def`. -/
theorem waits_definition {column : ColumnDefinition} (hcolumn : column.Sendable) (hp : Typed p)
    (hbody : p.body = column.encode) : Decodes c p ∧ ¬ EndsExecute p := by
  have hcatalog : StringLenEnc.encode column.catalog = [0x03, 0x64, 0x65, 0x66] := by
    rw [hcolumn.catalog]
    decide
  rw [ColumnDefinition.encode, hcatalog] at hbody
  exact waits_other hp (by rw [hbody]; rfl) (by decide) (by decide) (by decide)

/-- What each of the definitions describes. -/
theorem forall₂_mem {R : Packet → ColumnDefinition → Prop} {ps : List Packet} {columns : List ColumnDefinition}
    (h : List.Forall₂ R ps columns) : ∀ p ∈ ps, ∃ column ∈ columns, R p column := by
  induction h with
  | nil => exact List.forall_mem_nil _
  | cons hp _ ih =>
    rw [List.forall_mem_cons]
    refine ⟨⟨_, List.mem_cons_self .., hp⟩, fun p hmem => ?_⟩
    obtain ⟨column, hcolumn, hR⟩ := ih p hmem
    exact ⟨column, List.mem_cons_of_mem _ hcolumn, hR⟩

/-- **A response to a COM_STMT_EXECUTE ends at its last packet** exactly if it is an OK packet, or a result set under
CLIENT_DEPRECATE_EOF whose rows can be told from OK packets or decoded as such, with a short OK packet behind them. -/
theorem execute_exact_end_iff (h : AwaitsExecute c clientFlag) {response : ExecuteResponse}
    (hsent : response.Sent clientFlag) : EndsAtLast env c response.packets ↔ response.Fits clientFlag := by
  have hc : c = c.holding c.queryResponse := rfl
  rw [hc]
  cases hsent with
  | @ok packet htyped hseq hshaped =>
    rw [ExecuteResponse.packets, endsAtLast_execute_singleton h, ExecuteResponse.Fits]
    obtain ⟨_, _, _, -, -, -, hbody⟩ := id hshaped
    have hhead : packet.body.head? = some 0x00 := by rw [hbody]; rfl
    rw [decodes_zero_iff h.flags htyped hhead, ends_zero_iff htyped hhead]
    simp [hshaped, hseq]
  | @error packet htyped hhead =>
    rw [ExecuteResponse.packets, endsAtLast_execute_singleton h]
    exact iff_of_false (fun hends => not_ends_error htyped hhead hends.2) id
  | @resultSet columns follows count definitions eofs rows terminator hne hcountable hsendable hcount hseq hbody hdefs heofs
      hrows hterminator hhead =>
    have hdefinitions : ∀ p ∈ definitions, Decodes c p ∧ ¬ EndsExecute p := by
      intro p hmem
      obtain ⟨column, hcolumn, htyped, hbody⟩ := forall₂_mem hdefs p hmem
      refine waits_definition (hsendable column ?_) htyped hbody
      split_ifs at hcolumn
      · exact hcolumn
      · cases hcolumn
    have heof : (∀ p ∈ eofs, Decodes c p ∧ ¬ EndsExecute p) ↔ hasFlag clientFlag .clientDeprecateEof := by
      split_ifs at heofs with hdep
      · simp [heofs, hdep]
      · obtain ⟨eof, b0, b1, b2, b3, rfl, htyped, hbody⟩ := heofs
        have hends := (ends_eof_iff (c := c) htyped (by rw [hbody]; rfl)).2.2 (by rw [hbody]; simp)
        simp [hdep, hends]
    have hlast : Decodes c terminator ∧ EndsExecute terminator ↔
        terminator.body.head? = some 0xfe ∧ terminator.body.length ≤ 9 := by
      rcases hhead with hhead | hhead
      · obtain ⟨hdecodes, hends⟩ := ends_eof_iff (c := c) hterminator hhead
        simp [hdecodes, hends, hhead]
      · simp [hhead, not_ends_error hterminator hhead]
    have hrow : (∀ p ∈ rows, Decodes c p ∧ ¬ EndsExecute p) ↔ ∀ row ∈ rows, ExecuteResponse.RowFits clientFlag row :=
      forall₂_congr fun row hmem => waits_zero_iff h.flags (hrows row hmem).1 (hrows row hmem).2
    rw [ExecuteResponse.packets, endsAtLast_execute h, List.cons_append, List.cons_append, List.forall_mem_cons,
      List.forall_mem_append, List.forall_mem_append, waits_count_iff h.flags (List.length_pos_of_ne_nil hne) hcount hseq hbody,
      heof, hrow, hlast, ExecuteResponse.Fits]
    constructor
    · rintro ⟨⟨hcounted, ⟨-, hdep⟩, hfits⟩, hends⟩
      exact ⟨hdep, hcounted, hfits, hends⟩
    · rintro ⟨hdep, hcounted, hfits, hends⟩
      exact ⟨⟨hcounted, ⟨hdefinitions, hdep⟩, hfits⟩, hends⟩

end

/-! ## A short row, and a long one -/

def sampleExecuting : Connection :=
  { sampleAwaiting 0x01000200 with lastCommand := some ⟨.comStmtExecute, "", none⟩ }

theorem sampleExecuting_awaits : AwaitsExecute sampleExecuting 0x01000200 := ⟨rfl, ⟨_, rfl, rfl⟩, rfl⟩

/-- One column and a row with this value. -/
def sampleBinaryRow (pType : PacketType) (value : Bytes) : ExecuteResponse :=
  .resultSet [sampleColumn] true (samplePacket 1 [1] .other) [samplePacket 2 sampleColumn.encode .other] []
    [samplePacket 3 ([0x00, 0x00] ++ value) pType] (samplePacket 4 [0xfe, 0, 0, 2, 0, 0, 0] .eof)

theorem sampleBinaryRow_sent {pType : PacketType} {value : Bytes}
    (htyped : Typed (samplePacket 3 ([0x00, 0x00] ++ value) pType)) :
    (sampleBinaryRow pType value).Sent 0x01000200 :=
  .resultSet (by simp) (by decide) (by simpa using sampleColumn_wellFormed.sendable) rfl rfl rfl
    (.cons ⟨rfl, rfl⟩ .nil) rfl (by simpa using ⟨htyped, rfl⟩) rfl (.inl rfl)

theorem execute_exact_end_iff_one : EndsAtLast sampleEnv sampleExecuting (sampleBinaryRow .other [0x01, 0x31]).packets :=
  (execute_exact_end_iff sampleExecuting_awaits (@sampleBinaryRow_sent .other [0x01, 0x31] rfl)).2
    ⟨by decide, .inl (by decide), by simpa using .inl (by decide), rfl, by decide⟩

/-- The BIGINT 254 panics, and an ERR packet never gives the turn back. -/
theorem bigint_row_panics :
    ((sampleBinaryRow .ok [0xfe, 0, 0, 0, 0, 0, 0, 0]).Sent 0x01000200 ∧
      phases sampleEnv sampleExecuting (sampleBinaryRow .ok [0xfe, 0, 0, 0, 0, 0, 0, 0]).packets =
        [.pendingResponse, .pendingResponse] ∧
      ¬ EndsAtLast sampleEnv sampleExecuting (sampleBinaryRow .ok [0xfe, 0, 0, 0, 0, 0, 0, 0]).packets) ∧
    ((ExecuteResponse.error (samplePacket 1 [0xff, 0x48, 0x04, 0x23, 0x48, 0x59, 0x30, 0x30, 0x30] .error)).Sent
        0x01000200 ∧
      phases sampleEnv sampleExecuting [samplePacket 1 [0xff, 0x48, 0x04, 0x23, 0x48, 0x59, 0x30, 0x30, 0x30] .error] =
        [.pendingResponse]) := by
  have hphases : phases sampleEnv sampleExecuting (sampleBinaryRow .ok [0xfe, 0, 0, 0, 0, 0, 0, 0]).packets =
      [.pendingResponse, .pendingResponse] := rfl
  refine ⟨⟨sampleBinaryRow_sent rfl, hphases, fun hends => ?_⟩, .error rfl rfl, rfl⟩
  rw [EndsAtLast, hphases] at hends
  exact absurd hends (by decide)

end MocksySql
