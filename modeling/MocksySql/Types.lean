import Mathlib.Data.List.Infix
import MocksySql.Lib.Decode
/-!
# Wire types (`mysql/types.rs`)

| here | there |
| --- | --- |
| `asBytes`, `fromUtf8`         | `str::as_bytes`, `String::from_utf8` |
| `latin1`                      | the `result.push(*byte as char)` loop of `StringLenEnc::from_bytes` (`types.rs:131-135`) |
| `IntFixedLen`, `IntLenEnc`    | the integer converters (`types.rs:31`, `:59`) |
| `StringLenEnc`, `StringNullEnc`, `StringEOFEnc`, `StringFixedLen` | the string converters (`types.rs:129-198`) |

A `from_bytes` that panics (a slice or an index out of range, a missing or a forbidden `length`,
bytes that are not UTF-8) is `none`. A `u64` is a `Nat` below `2 ^ 64`. The sum
`offset + length.result as usize` cannot wrap to a valid range, so it is a sum of naturals.
-/

namespace MocksySql
open FieldDecode

/-! ## Rust strings -/

def asBytes (s : String) : Bytes := s.toUTF8.data.toList

def fromUtf8 (bytes : Bytes) : Option String := String.fromUTF8? ⟨bytes.toArray⟩

/-- Every byte read as the char of that number. -/
def latin1 (bytes : Bytes) : String := String.ofList (bytes.map fun b => Char.ofNat b.toNat)

/-- `str::starts_with` -/
def startsWith (s p : String) : Bool := p.toList.isPrefixOf s.toList

def IsAscii (s : String) : Prop := ∀ c ∈ s.toList, c.val < 128

-- by the list: there is an instance that goes through all chars
instance (s : String) : Decidable (IsAscii s) := @List.decidableBAll Char (fun c => c.val < 128) _ s.toList

theorem fromUtf8_asBytes (s : String) : fromUtf8 (asBytes s) = some s := by
  have h : (⟨(asBytes s).toArray⟩ : ByteArray) = s.toByteArray := by simp [asBytes]
  rw [fromUtf8, h, String.fromUTF8?, dif_pos s.isValidUTF8]
  congr 1

theorem asBytes_injective {s t : String} (h : asBytes s = asBytes t) : s = t := by
  have := fromUtf8_asBytes s
  rw [h, fromUtf8_asBytes] at this
  exact (Option.some.inj this).symm

theorem asBytes_ofList (cs : List Char) : asBytes (String.ofList cs) = cs.flatMap String.utf8EncodeChar := by
  simp [asBytes, List.utf8Encode]

/-- The bytes of an ASCII string, read back one char each, are the string. -/
theorem latin1_asBytes {s : String} (h : IsAscii s) : latin1 (asBytes s) = s := by
  obtain ⟨cs, rfl⟩ : ∃ cs, s = String.ofList cs := ⟨s.toList, by simp⟩
  have hcs : ∀ c ∈ cs, c.val < 128 := by simpa [IsAscii] using h
  rw [asBytes_ofList, latin1]
  congr 1
  clear h
  induction cs with
  | nil => rfl
  | cons c cs ih =>
    have hc := hcs c (by simp)
    have hlt : c.val.toNat < 128 := UInt32.lt_iff_toNat_lt.1 hc
    have hsize : c.utf8Size = 1 := Char.utf8Size_eq_one_iff.2 (UInt32.le_iff_toNat_le.2 (Nat.le_of_lt_succ hlt))
    have hchar : Char.ofNat c.val.toUInt8.toNat = c := by
      rw [UInt32.toNat_toUInt8, Nat.mod_eq_of_lt (Nat.lt_trans hlt (by decide))]
      exact Char.ofNat_toNat c
    rw [List.flatMap_cons, String.utf8EncodeChar_eq_singleton hsize, List.map_append,
      ih fun c' hc' => hcs c' (by simp [hc']), List.map_singleton, hchar]
    rfl

/-- An ASCII string has a byte for each char. -/
theorem length_asBytes {s : String} (h : IsAscii s) : (asBytes s).length = s.length := by
  have hchars := congrArg String.length (latin1_asBytes h)
  simpa [latin1] using hchars

theorem toNat_byteChar (b : UInt8) : (Char.ofNat b.toNat).val.toNat = b.toNat := by
  have hvalid : b.toNat.isValidChar := .inl (by have := b.toNat_lt; omega)
  rw [Char.ofNat, dif_pos hvalid]; rfl

/-- The char of a byte takes two bytes in UTF-8, unless it is ASCII. -/
theorem utf8Size_byteChar (b : UInt8) : (Char.ofNat b.toNat).utf8Size = if b < 0x80 then 1 else 2 := by
  have hlt := b.toNat_lt
  have hval := toNat_byteChar b
  split_ifs with hb
  · rw [Char.utf8Size_eq_one_iff, UInt32.le_iff_toNat_le, hval]
    exact Nat.le_of_lt_succ (UInt8.lt_iff_toNat_lt.1 hb)
  · rw [Char.utf8Size_eq_two_iff, UInt32.lt_iff_toNat_lt, UInt32.le_iff_toNat_le, hval]
    have hge : 128 ≤ b.toNat := UInt8.le_iff_toNat_le.1 (UInt8.not_lt.1 hb)
    have h7f : (127 : UInt32).toNat = 127 := rfl
    have h7ff : (0x7ff : UInt32).toNat = 0x7ff := rfl
    omega

theorem length_asBytes_latin1 (bytes : Bytes) :
    (asBytes (latin1 bytes)).length = bytes.length + bytes.countP (0x80 ≤ ·) := by
  rw [latin1, asBytes_ofList]
  induction bytes with
  | nil => rfl
  | cons b bytes ih =>
    rw [List.map_cons, List.flatMap_cons, List.length_append, ih, String.length_utf8EncodeChar, utf8Size_byteChar,
      List.countP_cons, List.length_cons]
    by_cases hb : b < 0x80
    · have hle : ¬ 0x80 ≤ b := UInt8.not_le.2 hb
      simp only [hb, hle, if_true, decide_false, Bool.false_eq_true, if_false]
      omega
    · have hle : 0x80 ≤ b := UInt8.not_lt.1 hb
      simp only [hb, hle, if_true, decide_true, if_false]
      omega

theorem utf8EncodeChar_byteChar {b : UInt8} (hb : b < 0x80) : String.utf8EncodeChar (Char.ofNat b.toNat) = [b] := by
  have hsize := utf8Size_byteChar b
  rw [if_pos hb] at hsize
  have hbyte : (Char.ofNat b.toNat).val.toUInt8 = b := by
    apply UInt8.toNat_inj.1
    rw [UInt32.toNat_toUInt8, toNat_byteChar, Nat.mod_eq_of_lt b.toNat_lt]
  rw [String.utf8EncodeChar_eq_singleton hsize, hbyte]

/-- **Bytes read one char each are written back as they were** exactly if they are ASCII. -/
theorem asBytes_latin1_iff {bytes : Bytes} : asBytes (latin1 bytes) = bytes ↔ ∀ b ∈ bytes, b < 0x80 := by
  constructor
  · intro h
    have hlen := length_asBytes_latin1 bytes
    rw [h] at hlen
    have hcount : bytes.countP (0x80 ≤ ·) = 0 := by omega
    intro b hb
    simpa using List.countP_eq_zero.1 hcount b hb
  · intro h
    rw [latin1, asBytes_ofList]
    induction bytes with
    | nil => rfl
    | cons b bytes ih =>
      rw [List.forall_mem_cons] at h
      rw [List.map_cons, List.flatMap_cons, ih h.2, utf8EncodeChar_byteChar h.1]
      rfl

theorem utf8Size_eq_one_iff_ascii (c : Char) : c.utf8Size = 1 ↔ c.val < 128 := by
  rw [Char.utf8Size_eq_one_iff, UInt32.le_iff_toNat_le, UInt32.lt_iff_toNat_lt]
  exact Nat.lt_succ_iff.symm

/-- The bytes of a char that is not ASCII are not ASCII. -/
theorem high_of_mem_utf8EncodeChar {c : Char} (h : ¬ c.val < 128) : ∀ b ∈ String.utf8EncodeChar c, 0x80 ≤ b := by
  have hor : ∀ x k : UInt8, 0x80 ≤ k → 0x80 ≤ x ||| k := by
    intro x k hk
    rw [UInt8.le_iff_toNat_le, UInt8.toNat_or]
    exact Nat.le_trans (UInt8.le_iff_toNat_le.1 hk) Nat.right_le_or
  rcases c.utf8Size_eq with hsize | hsize | hsize | hsize
  · exact absurd ((utf8Size_eq_one_iff_ascii c).1 hsize) h
  · rw [String.utf8EncodeChar_eq_cons_cons hsize]
    simp only [List.forall_mem_cons]
    exact ⟨hor _ _ (by decide), hor _ _ (by decide), by simp⟩
  · rw [String.utf8EncodeChar_eq_cons_cons_cons hsize]
    simp only [List.forall_mem_cons]
    exact ⟨hor _ _ (by decide), hor _ _ (by decide), hor _ _ (by decide), by simp⟩
  · rw [String.utf8EncodeChar_eq_cons_cons_cons_cons hsize]
    simp only [List.forall_mem_cons]
    exact ⟨hor _ _ (by decide), hor _ _ (by decide), hor _ _ (by decide), hor _ _ (by decide), by simp⟩

theorem utf8EncodeChar_eq_cons (c : Char) : ∃ b rest, String.utf8EncodeChar c = b :: rest := by
  apply List.exists_cons_of_ne_nil
  rw [ne_eq, ← List.length_eq_zero_iff, String.length_utf8EncodeChar]
  exact Nat.pos_iff_ne_zero.1 c.utf8Size_pos

theorem toList_latin1_asBytes (s : String) : (latin1 (asBytes s)).toList =
    s.toList.flatMap fun c => (String.utf8EncodeChar c).map fun b => Char.ofNat b.toNat := by
  rw [latin1, String.toList_ofList, ← List.map_flatMap, ← asBytes_ofList, String.ofList_toList]

/-- **A name is read as it is** exactly if it is ASCII. -/
theorem latin1_asBytes_iff {s : String} : latin1 (asBytes s) = s ↔ IsAscii s := by
  refine ⟨fun h c hc => ?_, latin1_asBytes⟩
  by_contra hhigh
  have hlow := asBytes_latin1_iff.1 (congrArg asBytes h)
  have hmem : ∀ b ∈ String.utf8EncodeChar c, b ∈ asBytes s := by
    intro b hb
    rw [← String.ofList_toList (s := s), asBytes_ofList]
    exact List.mem_flatMap.2 ⟨c, hc, hb⟩
  obtain ⟨b, rest, hbytes⟩ := utf8EncodeChar_eq_cons c
  have hb : b ∈ String.utf8EncodeChar c := by simp [hbytes]
  exact absurd (hlow b (hmem b hb)) (UInt8.not_lt.2 (high_of_mem_utf8EncodeChar hhigh b hb))

theorem fromUtf8_eq_some_iff {bytes : Bytes} {s : String} : fromUtf8 bytes = some s ↔ bytes = asBytes s := by
  refine ⟨fun h => ?_, fun h => h ▸ fromUtf8_asBytes s⟩
  rw [fromUtf8, String.fromUTF8?] at h
  split_ifs at h with hvalid
  cases h
  simp [asBytes, String.fromUTF8]

/-- An ASCII byte in front makes no difference to what is UTF-8. -/
theorem fromUtf8_cons_isSome {b : UInt8} (hb : b < 0x80) (bytes : Bytes) :
    (fromUtf8 (b :: bytes)).isSome ↔ (fromUtf8 bytes).isSome := by
  simp only [Option.isSome_iff_exists, fromUtf8_eq_some_iff]
  constructor
  · rintro ⟨s, hs⟩
    obtain ⟨cs, rfl⟩ : ∃ cs, s = String.ofList cs := ⟨s.toList, by simp⟩
    rw [asBytes_ofList] at hs
    cases cs with
    | nil => cases hs
    | cons c cs =>
      obtain ⟨b', rest, hbytes⟩ := utf8EncodeChar_eq_cons c
      have hascii : c.val < 128 := by
        by_contra hhigh
        have hb' := high_of_mem_utf8EncodeChar hhigh b' (by simp [hbytes])
        rw [List.flatMap_cons, hbytes, List.cons_append, List.cons.injEq] at hs
        exact absurd (hs.1 ▸ hb) (UInt8.not_lt.2 hb')
      rw [List.flatMap_cons, String.utf8EncodeChar_eq_singleton ((utf8Size_eq_one_iff_ascii c).2 hascii),
        List.singleton_append, List.cons.injEq] at hs
      exact ⟨String.ofList cs, by rw [asBytes_ofList, hs.2]⟩
  · rintro ⟨s, rfl⟩
    refine ⟨String.ofList (Char.ofNat b.toNat :: s.toList), ?_⟩
    rw [asBytes_ofList, List.flatMap_cons, utf8EncodeChar_byteChar hb, ← asBytes_ofList, String.ofList_toList]
    rfl

/-! ## Integers -/

/-- `bytes[1] + (bytes[2] << 8) + …`, `n` bytes from index 1 on. -/
def leAfterMarker (bytes : Bytes) (n : Nat) : Option Nat := (slice bytes 1 (1 + n)).map fromLe

/-- `IntFixedLen::from_bytes` (`types.rs:31`): `length` bytes copied into a `[u8; 8]`. -/
def IntFixedLen.fromBytes (bytes : Bytes) (length : Option Nat) : Option (DecodeResult Nat) := do
  let length ← length
  let part ← slice bytes 0 length
  if part.length ≤ 8 then some ⟨fromLe part, length⟩ else none

/-- `IntLenEnc::from_bytes` (`types.rs:59`). -/
def IntLenEnc.fromBytes (bytes : Bytes) (length : Option Nat) : Option (DecodeResult Nat) :=
  if length.isSome then none
  else match bytes.head? with
    | none => none
    | some marker =>
      if marker = 0xFC then (leAfterMarker bytes 2).map (⟨·, 3⟩)
      else if marker = 0xFD then (leAfterMarker bytes 3).map (⟨·, 4⟩)
      else if marker = 0xFE then (leAfterMarker bytes 8).map (⟨·, 9⟩)
      else some ⟨marker.toNat, 1⟩

/-- `IntLenEnc::encode` (`types.rs:102`), called with no `length` everywhere. -/
def IntLenEnc.encode (value : Nat) : Bytes :=
  if value < 251 then [UInt8.ofNat value]
  else if value ≤ 0xFFFF then 0xFC :: toLe 2 value
  else if value ≤ 0xFFFFFF then 0xFD :: toLe 3 value
  else 0xFE :: toLe 8 value

/-! ## Strings -/

/-- `StringLenEnc::from_bytes` (`types.rs:129`). -/
def StringLenEnc.fromBytes (bytes : Bytes) (_length : Option Nat) : Option (DecodeResult String) := do
  let length ← IntLenEnc.fromBytes bytes none
  let part ← slice bytes length.offsetIncrement (length.offsetIncrement + length.result)
  some ⟨latin1 part, length.offsetIncrement + length.result⟩

/-- `StringLenEnc::encode` (`types.rs:143`). -/
def StringLenEnc.encode (value : String) : Bytes :=
  IntLenEnc.encode (asBytes value).length ++ asBytes value

/-- `StringNullEnc::from_bytes` (`types.rs:153`). -/
def StringNullEnc.fromBytes (bytes : Bytes) (_length : Option Nat) : Option (DecodeResult String) := do
  let nullPosition ← bytes.findIdx? (· = 0x00)
  let part ← slice bytes 0 nullPosition
  let result ← fromUtf8 part
  some ⟨result, nullPosition + 1⟩

/-- `StringEOFEnc::from_bytes` (`types.rs:176`). -/
def StringEOFEnc.fromBytes (bytes : Bytes) (_length : Option Nat) : Option (DecodeResult String) := do
  let result ← fromUtf8 bytes
  some ⟨result, bytes.length⟩

/-- `StringFixedLen::from_bytes` (`types.rs:188`). -/
def StringFixedLen.fromBytes (bytes : Bytes) (length : Option Nat) : Option (DecodeResult String) := do
  let length ← length
  let part ← slice bytes 0 length
  let result ← fromUtf8 part
  some ⟨result, length⟩

/-! ## What the decoders read back -/

theorem IntFixedLen.reads_fromLe {part : Bytes} (h : part.length ≤ 8) :
    Reads (IntFixedLen.fromBytes · (some part.length)) part (fromLe part) := by
  intro rest
  simp [IntFixedLen.fromBytes, slice_append_left, h]

theorem IntFixedLen.reads {k n : Nat} (hk : k ≤ 8) (hn : n < 256 ^ k) :
    Reads (IntFixedLen.fromBytes · (some k)) (toLe k n) n := by
  have h := @IntFixedLen.reads_fromLe (toLe k n) (by simpa using hk)
  rwa [toLe_length, fromLe_toLe_of_lt hn] at h

theorem StringFixedLen.reads (s : String) :
    Reads (StringFixedLen.fromBytes · (some (asBytes s).length)) (asBytes s) s := by
  intro rest
  simp [StringFixedLen.fromBytes, slice_append_left, fromUtf8_asBytes]

/-- A name ends at its first zero byte. -/
theorem StringNullEnc.fromBytes_eq {name data : Bytes} (hname : (0x00 : UInt8) ∉ name) :
    StringNullEnc.fromBytes (name ++ 0x00 :: data) none = (fromUtf8 name).map (⟨·, name.length + 1⟩) := by
  have hindex : (name ++ 0x00 :: data).findIdx? (· = 0x00) = some name.length := by
    have hnone : name.findIdx? (· = 0x00) = none := by
      rw [List.findIdx?_eq_none_iff]
      intro b hb
      have hb : b ≠ 0x00 := fun h => hname (h ▸ hb)
      simpa using hb
    rw [List.findIdx?_append, hnone, List.findIdx?_cons]
    simp
  simp [StringNullEnc.fromBytes, hindex, slice_append_left, Option.map_eq_bind]

theorem leAfterMarker_eq (bytes : Bytes) (n : Nat) :
    leAfterMarker bytes n = if 1 + n ≤ bytes.length then some (fromLe ((bytes.take (1 + n)).drop 1)) else none := by
  simp only [leAfterMarker, slice, Nat.le_add_right, true_and]
  split_ifs <;> rfl

theorem leAfterMarker_toLe (m : UInt8) (k n : Nat) (rest : Bytes) (hn : n < 256 ^ k) :
    leAfterMarker (m :: (toLe k n ++ rest)) k = some n := by
  have hs := slice_append_mid [m] (toLe k n) rest
  simp only [toLe_length, List.length_singleton, List.singleton_append] at hs
  rw [leAfterMarker, hs, Option.map_some, fromLe_toLe_of_lt hn]

theorem IntLenEnc.reads {n : Nat} (hn : n < 2 ^ 64) : Reads (IntLenEnc.fromBytes · none) (IntLenEnc.encode n) n := by
  intro rest
  unfold IntLenEnc.encode
  split
  · rename_i h
    have hm : (UInt8.ofNat n).toNat = n := by rw [UInt8.toNat_ofNat']; omega
    have hne : ∀ m : UInt8, 251 ≤ m.toNat → UInt8.ofNat n ≠ m := fun m hm' he => by
      rw [← he, hm] at hm'; omega
    simp [IntLenEnc.fromBytes, hne 0xFC (by decide), hne 0xFD (by decide), hne 0xFE (by decide),
      Nat.mod_eq_of_lt (show n < 256 by omega)]
  · split
    · simp [IntLenEnc.fromBytes, leAfterMarker_toLe _ 2 n rest (by omega)]
    · split
      · simp [IntLenEnc.fromBytes, leAfterMarker_toLe _ 3 n rest (by omega)]
      · simp [IntLenEnc.fromBytes, leAfterMarker_toLe _ 8 n rest (by omega)]

theorem IntLenEnc.encode_length_le (n : Nat) : (IntLenEnc.encode n).length ≤ 9 := by
  unfold IntLenEnc.encode
  split_ifs <;> simp

/-- The first byte of an encoded integer is neither the NULL nor the error marker, and zero only for 0. -/
theorem IntLenEnc.head_encode (n : Nat) :
    ∃ m rest, IntLenEnc.encode n = m :: rest ∧ m ≠ 0xFB ∧ m ≠ 0xFF ∧ (0 < n → m ≠ 0x00) := by
  unfold IntLenEnc.encode
  split
  · rename_i h
    have hm : (UInt8.ofNat n).toNat = n := by rw [UInt8.toNat_ofNat']; omega
    have hne : ∀ m : UInt8, m.toNat ≠ n → UInt8.ofNat n ≠ m := fun m hm' he => hm' (by rw [← he, hm])
    exact ⟨_, _, rfl, hne _ (by simp; omega), hne _ (by simp; omega), fun hpos => hne _ (by simp; omega)⟩
  · split
    · exact ⟨_, _, rfl, by decide, by decide, fun _ => by decide⟩
    · split <;> exact ⟨_, _, rfl, by decide, by decide, fun _ => by decide⟩

/-- Bytes behind their length are read one char each. -/
theorem StringLenEnc.reads_bytes {bytes : Bytes} (hl : bytes.length < 2 ^ 64) :
    Reads (StringLenEnc.fromBytes · none) (IntLenEnc.encode bytes.length ++ bytes) (latin1 bytes) := by
  intro rest
  have hi := IntLenEnc.reads hl (bytes ++ rest)
  have hs := slice_append_mid (IntLenEnc.encode bytes.length) bytes rest
  simp only [StringLenEnc.fromBytes, List.append_assoc, hi, Option.bind_eq_bind, Option.bind_some, hs, List.length_append]

/-- A text is read back one char a byte. -/
theorem StringLenEnc.reads_latin1 {s : String} (hl : (asBytes s).length < 2 ^ 64) :
    Reads (StringLenEnc.fromBytes · none) (StringLenEnc.encode s) (latin1 (asBytes s)) := reads_bytes hl

theorem StringLenEnc.reads {s : String} (ha : IsAscii s) (hl : (asBytes s).length < 2 ^ 64) :
    Reads (StringLenEnc.fromBytes · none) (StringLenEnc.encode s) s := by
  have h := StringLenEnc.reads_latin1 hl
  rwa [latin1_asBytes ha] at h

end MocksySql
