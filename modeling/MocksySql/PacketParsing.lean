import MocksySql.Framing
import MocksySql.ResultSetRuns
/-!
# Parsing packets

| here | there |
| --- | --- |
| `announcedSize` | the size field of a header, `PacketHeader::from_bytes` (`packet.rs:29`) |
| `ParsesExactly` | what `Packet::from_bytes` (`:50`) is for |
| `errBody`       | the body of an ERR packet of the 4.1 protocol, for `ErrorData::from_packet` (`:120`) |

* `fromBytes_complete`, `fromBytes_incomplete` — the parser, by what the buffer holds.
* `parses_exactly_iff` — the one kind of packet it cannot take.
* `ok_round_trip` — an OK packet is read back from its bytes.
* `errorData_round_trip_iff` — an ERR packet is read back with its text, but not with its code.
* `ColumnDefinition.fromPacket_append` — a column definition is read back, whatever follows it.
-/

namespace MocksySql
open FieldDecode

def announcedSize (bytes : Bytes) : Nat := fromLe (bytes.take 3)

/-- The buffer holds a packet: a header, and as many bytes as it announces. -/
def HoldsPacket (bytes : Bytes) : Prop := 4 ≤ bytes.length ∧ 4 + announcedSize bytes ≤ bytes.length

/-- The announced bytes. -/
def announcedBody (bytes : Bytes) : Bytes := (bytes.drop 4).take (announcedSize bytes)

/-- The parser returns, it finds a packet where there is one, and this packet has the announced bytes for its body,
whatever follows them. -/
structure ParsesExactly (phase : Phase) (bytes : Bytes) : Prop where
  returns : (Packet.fromBytes bytes phase).isSome
  ok_iff : (∃ packet, Packet.fromBytes bytes phase = some (.ok packet)) ↔ HoldsPacket bytes
  body : ∀ packet, Packet.fromBytes bytes phase = some (.ok packet) → packet.body = announcedBody bytes
  prefix_only : HoldsPacket bytes → ∀ rest,
    Packet.fromBytes (bytes.take (4 + announcedSize bytes) ++ rest) phase = Packet.fromBytes bytes phase

/-! ## The two outcomes -/

theorem HoldsPacket.cons_iff {b0 b1 b2 b3 : UInt8} {rest : Bytes} :
    HoldsPacket (b0 :: b1 :: b2 :: b3 :: rest) ↔ fromLe [b0, b1, b2] ≤ rest.length := by
  simp only [HoldsPacket, announcedSize, List.take, List.length_cons]
  omega

theorem fromBytes_complete {bytes : Bytes} {phase : Phase} (h : HoldsPacket bytes) :
    Packet.fromBytes bytes phase = (getPacketType (announcedBody bytes) phase).map fun pType =>
      .ok { header := ⟨announcedSize bytes, bytes.getD 3 0⟩, body := announcedBody bytes, pType, skip := false } := by
  obtain ⟨b0, b1, b2, b3, rest, rfl⟩ : ∃ b0 b1 b2 b3 rest, bytes = b0 :: b1 :: b2 :: b3 :: rest := by
    match bytes, h.1 with
    | b0 :: b1 :: b2 :: b3 :: rest, _ => exact ⟨b0, b1, b2, b3, rest, rfl⟩
  rw [HoldsPacket.cons_iff] at h
  have hsize : ¬ rest.length < (PacketHeader.fromBytes b0 b1 b2 b3).size := Nat.not_lt.2 h
  simp only [Packet.fromBytes, if_neg hsize]
  rfl

theorem fromBytes_incomplete {bytes : Bytes} {phase : Phase} (h : ¬ HoldsPacket bytes) :
    Packet.fromBytes bytes phase = some (.error ()) := by
  unfold Packet.fromBytes
  split
  · rw [HoldsPacket.cons_iff] at h
    exact if_pos (by simp only [PacketHeader.fromBytes]; omega)
  · rfl

theorem getPacketType_eq_none_iff {body : Bytes} {phase : Phase} : getPacketType body phase = none ↔ body = [] := by
  cases body with
  | nil => simp [getPacketType]
  | cons b0 body =>
    simp only [getPacketType, List.head?_cons, reduceCtorEq, iff_false]
    split_ifs <;> simp

theorem HoldsPacket.length_announcedBody {bytes : Bytes} (h : HoldsPacket bytes) :
    (announcedBody bytes).length = announcedSize bytes := by
  have := h.2
  rw [announcedBody, List.length_take, List.length_drop]
  omega

/-! ## Exactness -/

theorem announcedSize_take_append {bytes : Bytes} (h : HoldsPacket bytes) (rest : Bytes) :
    announcedSize (bytes.take (4 + announcedSize bytes) ++ rest) = announcedSize bytes := by
  have := h.2
  rw [announcedSize, List.take_append_of_le_length (by rw [List.length_take]; omega), List.take_take,
    Nat.min_eq_left (by omega)]
  rfl

theorem announcedBody_take_append {bytes : Bytes} (h : HoldsPacket bytes) (rest : Bytes) :
    announcedBody (bytes.take (4 + announcedSize bytes) ++ rest) = announcedBody bytes := by
  have := h.2
  rw [announcedBody, announcedSize_take_append h, List.drop_append_of_le_length (by rw [List.length_take]; omega),
    List.drop_take, Nat.add_sub_cancel_left, List.take_append_of_le_length, List.take_take, Nat.min_self]
  · rfl
  · rw [List.length_take, List.length_drop]
    omega

theorem fromBytes_take_append {bytes : Bytes} {phase : Phase} (h : HoldsPacket bytes) (rest : Bytes) :
    Packet.fromBytes (bytes.take (4 + announcedSize bytes) ++ rest) phase = Packet.fromBytes bytes phase := by
  have hholds : HoldsPacket (bytes.take (4 + announcedSize bytes) ++ rest) := by
    have := h.2
    rw [HoldsPacket, announcedSize_take_append h, List.length_append, List.length_take]
    omega
  have hseq : (bytes.take (4 + announcedSize bytes) ++ rest).getD 3 0 = bytes.getD 3 0 := by
    have := h.2
    rw [List.getD_append _ _ _ _ (by rw [List.length_take]; omega), List.getD_eq_getElem?_getD,
      List.getElem?_take_of_lt (by omega), ← List.getD_eq_getElem?_getD]
  rw [fromBytes_complete hholds, fromBytes_complete h, announcedSize_take_append h, announcedBody_take_append h, hseq]

/-- **Parsing is total and exact** but for the packets without a body, whose first byte is looked at all the same. -/
theorem parses_exactly_iff (phase : Phase) (bytes : Bytes) :
    ParsesExactly phase bytes ↔ ¬ (4 ≤ bytes.length ∧ announcedSize bytes = 0) := by
  constructor
  · rintro h ⟨hheader, hzero⟩
    have hholds : HoldsPacket bytes := ⟨hheader, by omega⟩
    have hempty : announcedBody bytes = [] := by rw [announcedBody, hzero, List.take_zero]
    have hreturns := h.returns
    rw [fromBytes_complete hholds, getPacketType_eq_none_iff.2 hempty] at hreturns
    cases hreturns
  · intro h
    by_cases hholds : HoldsPacket bytes
    · obtain ⟨pType, hpType⟩ : ∃ pType, getPacketType (announcedBody bytes) phase = some pType := by
        rw [← Option.ne_none_iff_exists', ne_eq, getPacketType_eq_none_iff, ← List.length_eq_zero_iff,
          hholds.length_announcedBody]
        exact fun hzero => h ⟨hholds.1, hzero⟩
      have hparsed := @fromBytes_complete bytes phase hholds
      rw [hpType] at hparsed
      refine ⟨by rw [hparsed]; rfl, ⟨fun _ => hholds, fun _ => ⟨_, hparsed⟩⟩, ?_,
        fun _ rest => fromBytes_take_append hholds rest⟩
      intro packet hpacket
      rw [hparsed] at hpacket
      cases hpacket
      rfl
    · have hparsed := @fromBytes_incomplete bytes phase hholds
      refine ⟨by rw [hparsed]; rfl, ⟨?_, fun hh => absurd hh hholds⟩, ?_, fun hh => absurd hh hholds⟩
      · rintro ⟨packet, hpacket⟩
        rw [hparsed] at hpacket
        cases hpacket
      · intro packet hpacket
        rw [hparsed] at hpacket
        cases hpacket

/-- An empty packet, as a plugin without data answers. -/
theorem empty_packet_panics : ¬ ParsesExactly .authInit [0, 0, 0, 3] := fun h => by cases h.returns

/-! ## OK packets -/

/-- A packet is read back from its bytes, whatever follows them. -/
theorem Packet.fromBytes_toBytes {p : Packet} (hsize : p.body.length = p.header.size) (hfits : p.header.size < 256 ^ 3)
    (rest : Bytes) (phase : Phase) : Packet.fromBytes (p.toBytes ++ rest) phase =
      (getPacketType p.body phase).map fun pType => .ok { header := p.header, body := p.body, pType, skip := false } := by
  have hnext := @nextFrame_toBytes (p.header, p.body) hsize hfits rest
  have hbytes : p.toBytes ++ rest = Frame.toBytes (p.header, p.body) ++ rest := rfl
  rw [fromBytes_eq, hbytes, hnext]
  simp only [Frame.toPacket, Option.map_map]
  rfl

section
variable {ok : OkData} {seq : UInt8} {clientFlag : UInt32}

/-- What is written of an OK packet. -/
theorem OkData.toPacket_eq (h41 : hasFlag clientFlag .clientProtocol41) (hheader : ok.header = 0x00) :
    ok.toPacket seq clientFlag = some
      { header := ⟨(okBody ok.affectedRows ok.lastInsertId (ok.statusFlags.getD 0) (ok.warnings.getD 0) []).length, seq⟩
        body := okBody ok.affectedRows ok.lastInsertId (ok.statusFlags.getD 0) (ok.warnings.getD 0) []
        pType := .ok, skip := false } := by
  simp [OkData.toPacket, if_pos h41, okBody, hheader]

/-- The two counts take at most nine bytes each. -/
theorem okBody_length_lt (affectedRows lastInsertId : UInt64) (statusFlags warnings : UInt16) :
    (okBody affectedRows lastInsertId statusFlags warnings []).length < 256 ^ 3 := by
  have hrows := IntLenEnc.encode_length_le affectedRows.toNat
  have hid := IntLenEnc.encode_length_le lastInsertId.toNat
  simp only [okBody, List.length_cons, List.length_append, toLe_length, List.length_nil]
  omega

/-- The bytes of an OK packet are read back as the packet, and this as what it was written from. -/
theorem OkData.toPacket_reads {c : Connection} (h41 : hasFlag clientFlag .clientProtocol41)
    (hflag : c.clientFlag = some clientFlag) (hheader : ok.header = 0x00) (phase : Phase) :
    ∃ packet, ok.toPacket seq clientFlag = some packet ∧ Packet.fromBytes packet.toBytes phase = some (.ok packet) ∧
      packet.header = ⟨packet.body.length, seq⟩ ∧ packet.pType = .ok ∧
      OkData.fromPacket packet c = some { ok with
        statusFlags := some (ok.statusFlags.getD 0)
        warnings := some (ok.warnings.getD 0) } := by
  refine ⟨_, OkData.toPacket_eq h41 hheader, ?_, rfl, rfl, ?_⟩
  · rw [← List.append_nil (Packet.toBytes _), Packet.fromBytes_toBytes rfl (okBody_length_lt ..), getPacketType_okBody phase]
    rfl
  · rw [OkData.fromPacket_okBody h41 hflag rfl rfl, hheader]

/-- **OK packets round-trip.** -/
theorem ok_round_trip {c : Connection} (h41 : hasFlag clientFlag .clientProtocol41) (hflag : c.clientFlag = some clientFlag)
    (hheader : ok.header = 0x00) (phase : Phase) :
    ∃ packet parsed, ok.toPacket seq clientFlag = some packet ∧
      Packet.fromBytes packet.toBytes phase = some (.ok parsed) ∧
      packet.toBytes.length = 4 + parsed.header.size ∧ parsed.header.seq = seq ∧ parsed.pType = .ok ∧
      OkData.fromPacket parsed c = some { ok with
        statusFlags := some (ok.statusFlags.getD 0)
        warnings := some (ok.warnings.getD 0) } := by
  obtain ⟨packet, hwritten, hread, hheader, hpType, hok⟩ :=
    @OkData.toPacket_reads ok seq clientFlag c h41 hflag hheader phase
  refine ⟨packet, packet, hwritten, hread, ?_, by rw [hheader], hpType, hok⟩
  rw [hheader]
  simp [Packet.toBytes]

end

theorem ok_round_trip_max :
    ∃ packet parsed, OkData.toPacket ⟨0, 251, 0xffffffffffffffff, some 2, none⟩ 7 0x00000200 = some packet ∧
      Packet.fromBytes packet.toBytes .pendingResponse = some (.ok parsed) ∧
      packet.toBytes.length = 4 + parsed.header.size ∧ parsed.header.seq = 7 ∧ parsed.pType = .ok ∧
      OkData.fromPacket parsed (sampleAwaiting 0x00000200) = some ⟨0, 251, 0xffffffffffffffff, some 2, some 0⟩ :=
  ok_round_trip (by decide) rfl rfl .pendingResponse

/-! ## ERR packets -/

def errBody (errorCode : UInt16) (state message : String) : Bytes :=
  0xff :: (toLe 2 errorCode.toNat ++ (asBytes "#" ++ (asBytes state ++ asBytes message)))

section
variable {c : Connection} {clientFlag : UInt32} {packet : Packet} {errorCode : UInt16} {state message : String}

/-- The marker of the packet is taken for the low byte of the code, and the low byte of the code for its high byte. -/
theorem ErrorData.fromPacket_errBody (h41 : hasFlag clientFlag .clientProtocol41) (hflag : c.clientFlag = some clientFlag)
    (hp : packet.pType = .error) (hascii : IsAscii state) (hlen : state.length = 5)
    (hbody : packet.body = errBody errorCode state message) :
    ErrorData.fromPacket packet c =
      some ⟨UInt16.ofNat (0xff + 256 * (errorCode.toNat % 256)), some ⟨"#", state⟩, message⟩ := by
  have hstate : (asBytes state).length = 5 := by rw [length_asBytes hascii, hlen]
  have hread := ErrorData.fromPacket_utf8 hflag h41 hp rfl hstate hbody
  rw [hread]
  congr 2

/-- **ERR packets round-trip, but for their code**: only the code that the marker gives is read back. -/
theorem errorData_round_trip_iff (h41 : hasFlag clientFlag .clientProtocol41) (hflag : c.clientFlag = some clientFlag)
    (hp : packet.pType = .error) (hascii : IsAscii state) (hlen : state.length = 5)
    (hbody : packet.body = errBody errorCode state message) :
    ErrorData.fromPacket packet c = some ⟨errorCode, some ⟨"#", state⟩, message⟩ ↔ errorCode = 0xffff := by
  rw [ErrorData.fromPacket_errBody h41 hflag hp hascii hlen hbody, Option.some.injEq, ErrorData.mk.injEq,
    and_iff_left (And.intro rfl rfl), ← UInt16.toNat_inj, ← UInt16.toNat_inj, UInt16.toNat_ofNat']
  have hlt := errorCode.toNat_lt
  simp only [UInt16.reduceToNat]
  omega

end

/-- Error 1045, access denied, is read as 5631. -/
theorem errorData_access_denied :
    ErrorData.fromPacket (samplePacket 2 (errBody 1045 "28000" "Access denied") .error) (sampleAwaiting 0x00000200) =
      some ⟨5631, some ⟨"#", "28000"⟩, "Access denied"⟩ ∧
    ErrorData.fromPacket (samplePacket 2 (errBody 1045 "28000" "Access denied") .error) (sampleAwaiting 0x00000200) ≠
      some ⟨1045, some ⟨"#", "28000"⟩, "Access denied"⟩ := by
  have hread := @ErrorData.fromPacket_errBody (sampleAwaiting 0x00000200) 0x00000200
    (samplePacket 2 (errBody 1045 "28000" "Access denied") .error) 1045 "28000" "Access denied" (by decide) rfl rfl
    (by decide) rfl rfl
  rw [hread]
  exact ⟨by decide, by decide⟩

/-- A code whose two bytes are the same. -/
theorem errorData_round_trip_max :
    ErrorData.fromPacket (samplePacket 2 (errBody 0xffff "HY000" "Unknown error") .error) (sampleAwaiting 0x00000200) =
      some ⟨0xffff, some ⟨"#", "HY000"⟩, "Unknown error"⟩ :=
  (@errorData_round_trip_iff (sampleAwaiting 0x00000200) 0x00000200
    (samplePacket 2 (errBody 0xffff "HY000" "Unknown error") .error)
    0xffff "HY000" "Unknown error" (by decide) rfl rfl (by decide) rfl rfl).2 rfl

/-! ## Column definitions -/

/-- **A column definition is read back field by field**, whatever follows it in the packet. -/
theorem ColumnDefinition.fromPacket_append {column : ColumnDefinition} {packet : Packet} {trailing : Bytes}
    (h : column.WellFormed) (hbody : packet.body = column.encode ++ trailing) :
    ColumnDefinition.fromPacket packet = some column := by
  rw [ColumnDefinition.fromPacket, hbody, ColumnDefinition.fields_append h.sendable, h.asRead_eq]

/-- A default value follows the definition. -/
theorem columnDefinition_with_default :
    ColumnDefinition.fromPacket (samplePacket 2 (sampleColumn.encode ++ [1, 0x30]) .other) = some sampleColumn :=
  ColumnDefinition.fromPacket_append sampleColumn_wellFormed rfl

end MocksySql
