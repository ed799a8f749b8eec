import MocksySql.Types
/-!
# Length-encoded integers and strings

| here | there |
| --- | --- |
| `IsRowMarker`   | the first bytes of a row that stand for NULL and for an error (`result_set.rs:107`, `packet.rs:95`) |
| `SurvivesRead`  | what a rewritten row takes for granted of `StringLenEnc` (`result_set.rs:100-150`) |
| `SurvivesWrite` | the same from the side of the text that is written |

* `IntLenEnc.readAs_iff` — what is read as an integer, in any of its forms.
* `IntLenEnc.prefix_code` — the integers are a minimal prefix code.
* `stringLenEnc_survives_iff` — the strings survive exactly where they are ASCII.
-/

namespace MocksySql
open FieldDecode

/-! ## Integers -/

/-- 0xFB is the NULL of a row, 0xFF begins an error packet. -/
def IsRowMarker (b : UInt8) : Prop := b = 0xFB ∨ b = 0xFF

instance (b : UInt8) : Decidable (IsRowMarker b) := inferInstanceAs (Decidable (_ ∨ _))

/-- The wide forms: the marker, and the number of bytes behind it. -/
def wideForms : List (UInt8 × Nat) := [(0xFC, 2), (0xFD, 3), (0xFE, 8)]

namespace IntLenEnc

/-- What is decoded is the first byte, or the bytes behind a marker. -/
theorem fromBytes_cases {bytes : Bytes} {r : DecodeResult Nat} (h : fromBytes bytes none = some r) :
    (∃ m rest, bytes = m :: rest ∧ (∀ form ∈ wideForms, m ≠ form.1) ∧ r = ⟨m.toNat, 1⟩) ∨
    ∃ form ∈ wideForms, ∃ part rest, bytes = form.1 :: (part ++ rest) ∧ part.length = form.2 ∧
      r = ⟨fromLe part, 1 + form.2⟩ := by
  have hwide : ∀ (m : UInt8) (k : Nat) (more : Bytes), (leAfterMarker (m :: more) k).map (⟨·, 1 + k⟩) = some r →
      ∃ part rest, m :: more = m :: (part ++ rest) ∧ part.length = k ∧ r = ⟨fromLe part, 1 + k⟩ := by
    intro m k more hk
    rw [leAfterMarker_eq, List.length_cons] at hk
    split_ifs at hk with hle
    · rw [Option.map_some, Nat.add_comm 1 k, List.take_succ_cons, List.drop_one, List.tail_cons] at hk
      refine ⟨more.take k, more.drop k, by rw [List.take_append_drop], ?_, ?_⟩
      · rw [List.length_take]
        omega
      · rw [Nat.add_comm 1 k]
        exact (Option.some.inj hk).symm
    · cases hk
  cases bytes with
  | nil => cases h
  | cons m more =>
    simp only [fromBytes, Option.isSome_none, Bool.false_eq_true, if_false, List.head?_cons] at h
    split_ifs at h with hFC hFD hFE
    · exact .inr ⟨(0xFC, 2), by decide, hFC ▸ hwide m 2 more h⟩
    · exact .inr ⟨(0xFD, 3), by decide, hFD ▸ hwide m 3 more h⟩
    · exact .inr ⟨(0xFE, 8), by decide, hFE ▸ hwide m 8 more h⟩
    · refine .inl ⟨m, more, rfl, ?_, (Option.some.inj h).symm⟩
      simp [wideForms, hFC, hFD, hFE]

/-- The bytes of an integer, in its shortest form or a longer one. -/
inductive ReadAs : Bytes → Nat → Prop
  | narrow {m : UInt8} : (∀ form ∈ wideForms, m ≠ form.1) → ReadAs [m] m.toNat
  | wide {form : UInt8 × Nat} {part : Bytes} : form ∈ wideForms → part.length = form.2 →
      ReadAs (form.1 :: part) (fromLe part)

theorem ReadAs.reads {enc : Bytes} {n : Nat} (h : ReadAs enc n) : Reads (fromBytes · none) enc n := by
  intro rest
  cases h with
  | @narrow m hnarrow =>
    simp only [wideForms, List.forall_mem_cons, List.not_mem_nil, false_implies, implies_true, and_true] at hnarrow
    simp [fromBytes, hnarrow]
  | @wide form part hform hpart =>
    have hbehind : leAfterMarker (form.1 :: (part ++ rest)) form.2 = some (fromLe part) := by
      rw [leAfterMarker_eq, if_pos (by simp [hpart]; omega), Nat.add_comm, ← hpart, List.take_succ_cons, List.take_left]
      rfl
    simp only [wideForms, List.mem_cons, List.not_mem_nil, or_false] at hform
    rcases hform with rfl | rfl | rfl <;> simp_all [fromBytes]

theorem ReadAs.ne_nil {enc : Bytes} {n : Nat} (h : ReadAs enc n) : enc ≠ [] := by
  cases h <;> exact List.cons_ne_nil _ _

/-- **What is read as an integer** stands in front of what follows it. -/
theorem readAs_iff {bytes : Bytes} {r : DecodeResult Nat} : fromBytes bytes none = some r ↔
    ∃ enc rest, bytes = enc ++ rest ∧ ReadAs enc r.result ∧ r.offsetIncrement = enc.length := by
  constructor
  · intro h
    rcases fromBytes_cases h with ⟨m, rest, rfl, hnarrow, rfl⟩ | ⟨form, hform, part, rest, rfl, hpart, rfl⟩
    · exact ⟨[m], rest, rfl, .narrow hnarrow, rfl⟩
    · exact ⟨form.1 :: part, rest, rfl, .wide hform hpart, by rw [List.length_cons, hpart, Nat.add_comm]⟩
  · rintro ⟨enc, rest, rfl, henc, hincrement⟩
    have hread := henc.reads rest
    rwa [← hincrement] at hread

theorem readAs_encode {n : Nat} (h : n < 2 ^ 64) : ReadAs (encode n) n := by
  have hread := IntLenEnc.reads h []
  obtain ⟨enc, rest, hbytes, henc, hincrement⟩ := readAs_iff.1 hread
  rw [List.append_nil] at hbytes
  have hwhole : enc = encode n := (hbytes ▸ List.prefix_append enc rest : enc <+: encode n).eq_of_length hincrement.symm
  rwa [hwhole] at henc

/-- A wide form is the encoding of its value, or the encoding is shorter. -/
theorem encode_fromLe {form : UInt8 × Nat} (h : form ∈ wideForms) {part : Bytes} (hpart : part.length = form.2) :
    encode (fromLe part) = form.1 :: part ∨ (encode (fromLe part)).length < 1 + form.2 := by
  have hlt := fromLe_lt part
  have hback := toLe_fromLe part
  rw [hpart] at hlt hback
  simp only [wideForms, List.mem_cons, List.not_mem_nil, or_false] at h
  unfold encode
  rcases h with rfl | rfl | rfl <;> simp only at hlt hback ⊢ <;> split_ifs <;>
    first
      | (right; simp only [List.length_cons, List.length_nil, toLe_length]; omega)
      | (left; rw [hback])

/-- A larger integer takes no fewer bytes. -/
theorem encode_length_mono {n m : Nat} (h : n ≤ m) : (encode n).length ≤ (encode m).length := by
  unfold encode
  split_ifs <;> simp only [List.length_cons, List.length_nil, toLe_length] <;> omega

/-- Every other way to write an integer is longer, but for those that begin like a NULL or an error. -/
theorem encode_shortest {bytes : Bytes} {v n : Nat} (h : fromBytes bytes none = some ⟨v, n⟩)
    (hmarker : ∀ m, bytes.head? = some m → ¬ IsRowMarker m) :
    bytes = encode v ∨ (encode v).length < bytes.length := by
  rcases fromBytes_cases h with ⟨m, rest, rfl, hnarrow, hr⟩ | ⟨form, hform, part, rest, rfl, hpart, hr⟩
  · cases hr
    have hm := hmarker m rfl
    simp only [IsRowMarker, not_or] at hm
    have hlt : m.toNat < 251 := by
      simp only [wideForms, List.mem_cons, List.not_mem_nil, or_false, forall_eq_or_imp, forall_eq] at hnarrow
      have hne : ∀ k : UInt8, m ≠ k → m.toNat ≠ k.toNat := fun k hk he => hk (UInt8.toNat_inj.1 he)
      have hFB := hne _ hm.1
      have hFC := hne _ hnarrow.1
      have hFD := hne _ hnarrow.2.1
      have hFE := hne _ hnarrow.2.2
      have hFF := hne _ hm.2
      have hbyte := m.toNat_lt
      simp only [UInt8.reduceToNat] at hFB hFC hFD hFE hFF
      omega
    rw [encode, if_pos hlt, UInt8.ofNat_toNat]
    cases rest with
    | nil => exact .inl rfl
    | cons b rest => exact .inr (by simp)
  · cases hr
    rcases encode_fromLe hform hpart with henc | hshort
    · cases rest with
      | nil => exact .inl (by rw [henc, List.append_nil])
      | cons b rest => exact .inr (by rw [henc]; simp)
    · right
      rw [List.length_cons, List.length_append, hpart]
      omega

/-- **Length-encoded integers are a minimal prefix code.** -/
theorem prefix_code (v : UInt64) :
    Reads (fromBytes · none) (encode v.toNat) v.toNat ∧
    (∃ m rest, encode v.toNat = m :: rest ∧ ¬ IsRowMarker m) ∧
    (∀ bytes n, fromBytes bytes none = some ⟨v.toNat, n⟩ → (∀ m, bytes.head? = some m → ¬ IsRowMarker m) →
      bytes = encode v.toNat ∨ (encode v.toNat).length < bytes.length) ∧
    ∀ w : UInt64, v ≠ w → ¬ encode v.toNat <+: encode w.toNat := by
  refine ⟨reads v.toNat_lt, ?_, fun bytes n => encode_shortest, fun w hne hle => ?_⟩
  · obtain ⟨m, rest, henc, hFB, hFF, -⟩ := head_encode v.toNat
    exact ⟨m, rest, henc, not_or.2 ⟨hFB, hFF⟩⟩
  · have hvalue := (reads v.toNat_lt).eq_of_isPrefix (reads w.toNat_lt) hle
    exact hne (UInt64.toNat_inj.1 hvalue)

/-- 251, the first value with a marker, with a byte behind it. -/
theorem prefix_code_251 :
    ([0xFC, 0xFB, 0x00, 0x07] = encode 251 ∨ (encode 251).length < 4) ∧ ¬ encode 251 <+: encode 0xFBFC :=
  ⟨(prefix_code 251).2.2.1 [0xFC, 0xFB, 0x00, 0x07] 3 (by decide) (by simp [IsRowMarker]),
    (prefix_code 251).2.2.2 0xFBFC (by decide)⟩

end IntLenEnc

/-! ## Strings -/

/-- Behind their length the bytes are taken whole, and what was read of them is written back as it came. -/
def SurvivesRead (bytes : Bytes) : Prop :=
  ∀ rest, ∃ value, StringLenEnc.fromBytes (IntLenEnc.encode bytes.length ++ bytes ++ rest) none =
      some ⟨value, (IntLenEnc.encode bytes.length ++ bytes).length⟩ ∧
    StringLenEnc.encode value = IntLenEnc.encode bytes.length ++ bytes

/-- What is written of the text is read back as the text. -/
def SurvivesWrite (s : String) : Prop := Reads (StringLenEnc.fromBytes · none) (StringLenEnc.encode s) s

theorem survivesRead_iff {bytes : Bytes} (hl : bytes.length < 2 ^ 64) :
    SurvivesRead bytes ↔ ∀ b ∈ bytes, b < 0x80 := by
  have hread := StringLenEnc.reads_bytes hl
  constructor
  · intro h
    obtain ⟨value, hvalue, henc⟩ := h []
    obtain rfl : latin1 bytes = value := congrArg DecodeResult.result (Option.some.inj ((hread []).symm.trans hvalue))
    have hlen := congrArg List.length henc
    rw [StringLenEnc.encode, List.length_append, List.length_append, length_asBytes_latin1] at hlen
    -- every byte that is not ASCII is written as two, and a longer text has no shorter length in front
    have hmono := @IntLenEnc.encode_length_mono bytes.length (bytes.length + bytes.countP (0x80 ≤ ·)) (by omega)
    have hcount : bytes.countP (0x80 ≤ ·) = 0 := by omega
    intro b hb
    simpa using List.countP_eq_zero.1 hcount b hb
  · intro h rest
    refine ⟨_, hread rest, ?_⟩
    rw [StringLenEnc.encode, asBytes_latin1_iff.2 h]

theorem survivesWrite_iff {s : String} (hl : (asBytes s).length < 2 ^ 64) : SurvivesWrite s ↔ IsAscii s := by
  have hread := StringLenEnc.reads_latin1 hl
  constructor
  · intro h
    exact latin1_asBytes_iff.1 (hread.eq_of_isPrefix h List.prefix_rfl)
  · intro h
    rwa [latin1_asBytes h] at hread

/-- **Length-encoded strings survive** reading and writing exactly if they are ASCII. -/
theorem stringLenEnc_survives_iff {bytes : Bytes} {s : String} (hbytes : bytes.length < 2 ^ 64)
    (hs : (asBytes s).length < 2 ^ 64) : (SurvivesRead bytes ↔ ∀ b ∈ bytes, b < 0x80) ∧ (SurvivesWrite s ↔ IsAscii s) :=
  ⟨survivesRead_iff hbytes, survivesWrite_iff hs⟩

/-- "é" is two bytes on the wire: they are read as "Ã©", and the text is read back so too. -/
theorem stringLenEnc_e_acute : ¬ SurvivesRead [0xC3, 0xA9] ∧ ¬ SurvivesWrite "é" := by
  have hread : StringLenEnc.fromBytes [2, 0xC3, 0xA9] none = some ⟨"Ã©", 3⟩ := by decide
  constructor
  · intro h
    obtain ⟨value, hvalue, henc⟩ := h []
    obtain rfl : "Ã©" = value := congrArg DecodeResult.result (Option.some.inj (hread.symm.trans hvalue))
    revert henc
    decide
  · intro h
    have hvalue := congrArg DecodeResult.result (Option.some.inj (hread.symm.trans (h [])))
    revert hvalue
    decide

theorem stringLenEnc_survives_name : SurvivesRead [0x69, 0x64] ∧ SurvivesWrite "id" := by
  have hiff := @stringLenEnc_survives_iff [0x69, 0x64] "id" (by decide) (by decide)
  exact ⟨hiff.1.2 (by simp), hiff.2.2 (by decide)⟩

end MocksySql
