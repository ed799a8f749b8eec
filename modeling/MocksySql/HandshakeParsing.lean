import Mathlib.Data.List.Flatten
import MocksySql.Handshake
/-!
# The packets of the handshake

| here | there |
| --- | --- |
| `HandshakeV10`        | what a server sends first, for `HandshakeAccumulator::consume` (`handshake.rs:31`) |
| `HandshakeResponse41` | what a client answers, for `HandshakeResponseAccumulator::consume` (`handshake_response.rs:31`) |

* `handshake_round_trip` — the server's handshake is read back, to its last byte.
* `readAttrs_encode` — which attributes the loop over them reads.
* `HandshakeResponse41.consume_encode` — what is kept of a response, or that it is refused.
* `handshakeResponse_stored_iff` — the responses that are kept as they were sent.
-/

namespace MocksySql
open FieldDecode

/-- A text with a zero byte behind it. -/
def nulTerminated (name : Bytes) : Bytes := name ++ [0x00]

theorem StringNullEnc.fromBytes_nulTerminated {name : Bytes} (h : (0x00 : UInt8) ∉ name) (rest : Bytes) :
    StringNullEnc.fromBytes (nulTerminated name ++ rest) none =
      (fromUtf8 name).map (⟨·, (nulTerminated name).length⟩) := by
  simp only [nulTerminated, List.append_assoc, List.singleton_append, StringNullEnc.fromBytes_eq h, List.length_append,
    List.length_singleton]

theorem StringNullEnc.reads {s : String} (h : (0x00 : UInt8) ∉ asBytes s) :
    Reads (StringNullEnc.fromBytes · none) (nulTerminated (asBytes s)) s := by
  intro rest
  have hread := StringNullEnc.fromBytes_nulTerminated h rest
  rwa [fromUtf8_asBytes, Option.map_some] at hread

theorem StringFixedLen.reads_length {s : String} {n : Nat} (h : (asBytes s).length = n) :
    Reads (StringFixedLen.fromBytes · (some n)) (asBytes s) s := h ▸ StringFixedLen.reads s

/-! ## The server's handshake -/

/-- What a server says of itself. The texts are UTF-8, their lengths are in bytes. -/
structure HandshakeV10 where
  serverVersion : String
  threadId : UInt32
  authPluginDataPart1 : String
  capabilityFlags : UInt32
  characterSet : UInt8
  statusFlags : UInt16
  authPluginDataLen : UInt8
  authPluginDataPart2 : String
  authPluginName : String
  serverVersion_nul : (0x00 : UInt8) ∉ asBytes serverVersion
  authPluginName_nul : (0x00 : UInt8) ∉ asBytes authPluginName
  part1_length : (asBytes authPluginDataPart1).length = 8
  part2_length : (asBytes authPluginDataPart2).length = max 13 (authPluginDataLen.toNat - 8)
  dataLen_zero : hasFlag capabilityFlags .clientPluginAuth = false → authPluginDataLen = 0

namespace HandshakeV10
variable (sent : HandshakeV10) {body : Bytes}

def encodePluginName : Bytes :=
  if hasFlag sent.capabilityFlags .clientPluginAuth then nulTerminated (asBytes sent.authPluginName) else []

def encode : Bytes :=
  toLe 1 0x0a ++ (nulTerminated (asBytes sent.serverVersion) ++ (toLe 4 sent.threadId.toNat ++
    (asBytes sent.authPluginDataPart1 ++ (toLe 1 0 ++ (toLe 2 (sent.capabilityFlags.toNat % 256 ^ 2) ++
      (toLe 1 sent.characterSet.toNat ++ (toLe 2 sent.statusFlags.toNat ++
        (toLe 2 (sent.capabilityFlags.toNat / 256 ^ 2) ++ (toLe 1 sent.authPluginDataLen.toNat ++
          (asBytes reservedString ++ (asBytes sent.authPluginDataPart2 ++ sent.encodePluginName)))))))))))

/-- The handshake as the accumulator keeps it. -/
def accumulated : HandshakeAccumulator where
  accumulationComplete := true
  protocolVersion := 0x0a
  serverVersion := sent.serverVersion
  threadId := UInt64.ofNat sent.threadId.toNat
  authPluginDataPart1 := sent.authPluginDataPart1
  filler := 0
  capabilityFlags1 := UInt16.ofNat (sent.capabilityFlags.toNat % 256 ^ 2)
  characterSet := sent.characterSet
  statusFlags := sent.statusFlags
  capabilityFlags2 := UInt16.ofNat (sent.capabilityFlags.toNat / 256 ^ 2)
  authPluginDataLen := sent.authPluginDataLen
  authPluginDataPart2 := sent.authPluginDataPart2
  authPluginName := if hasFlag sent.capabilityFlags .clientPluginAuth then some sent.authPluginName else none
  capabilityFlags := sent.capabilityFlags

/-- The flags are sent in two halves. -/
theorem halves (flags : UInt32) :
    (UInt32.ofNat (flags.toNat / 256 ^ 2) <<< 16) + UInt32.ofNat (flags.toNat % 256 ^ 2) = flags := by
  have hlt := flags.toNat_lt
  rw [← UInt32.toNat_inj, UInt32.toNat_add, UInt32.toNat_shiftLeft, UInt32.toNat_ofNat', UInt32.toNat_ofNat',
    Nat.shiftLeft_eq]
  simp only [UInt32.reduceToNat, Nat.reduceMod, Nat.reducePow]
  omega

theorem takes_pluginDataLen : Takes body (HandshakeAccumulator.readPluginDataLen body sent.capabilityFlags)
    (toLe 1 sent.authPluginDataLen.toNat) (some sent.authPluginDataLen.toNat) := by
  have hlen : Takes body (field body (IntFixedLen.fromBytes · (some 1))) (toLe 1 sent.authPluginDataLen.toNat)
      (some sent.authPluginDataLen.toNat) :=
    Takes.reads (IntFixedLen.reads (by decide) sent.authPluginDataLen.toNat_lt)
  unfold HandshakeAccumulator.readPluginDataLen
  rw [← List.append_nil (toLe 1 _)]
  refine hlen.bind_some ?_
  by_cases hflag : hasFlag sent.capabilityFlags .clientPluginAuth
  · simp only [hflag, if_true]
    exact Takes.pure _
  · have hzero : sent.authPluginDataLen.toNat = 0 := by simp [sent.dataLen_zero (by simpa using hflag)]
    have hcheck : Takes body (require (sent.authPluginDataLen.toNat = 0x00)) [] (some ()) := Takes.require hzero
    have hlast : Takes body (pure 0) [] (some sent.authPluginDataLen.toNat) := by
      rw [hzero]
      exact Takes.pure 0
    simp only [hflag, Bool.false_eq_true, if_false]
    exact hcheck.bind_some hlast

theorem takes_pluginName : Takes body (HandshakeAccumulator.readPluginName body sent.capabilityFlags)
    sent.encodePluginName (some sent.accumulated.authPluginName) := by
  have hname : sent.accumulated.authPluginName =
      if hasFlag sent.capabilityFlags .clientPluginAuth then some sent.authPluginName else none := rfl
  rw [hname, apply_ite some]
  exact Takes.ite (fun _ => (Takes.reads (StringNullEnc.reads sent.authPluginName_nul)).map) fun _ => Takes.pure _

theorem part2_length_read : (asBytes sent.authPluginDataPart2).length =
    max pluginDataMaxLength sent.authPluginDataLen.toNat - 8 := by
  rw [sent.part2_length, pluginDataMaxLength]
  omega

/-- The fields are read one after another, up to the end of the body. -/
theorem read_encode : HandshakeAccumulator.read sent.encode 0 = some (sent.accumulated, sent.encode.length) := by
  have hflags := sent.capabilityFlags.toNat_lt
  unfold HandshakeAccumulator.read
  refine (At.start sent.encode).field_bind (IntFixedLen.reads (by decide) (by decide)) fun _ hat => ?_
  rw [require_bind rfl]
  refine hat.field_bind (StringNullEnc.reads sent.serverVersion_nul) fun _ hat => ?_
  refine hat.field_bind (IntFixedLen.reads (by decide) sent.threadId.toNat_lt) fun _ hat => ?_
  refine hat.field_bind (StringFixedLen.reads_length sent.part1_length) fun _ hat => ?_
  refine hat.field_bind (IntFixedLen.reads (by decide) (by decide)) fun _ hat => ?_
  rw [require_bind rfl]
  refine hat.field_bind (IntFixedLen.reads (by decide) (Nat.mod_lt _ (by decide))) fun _ hat => ?_
  refine hat.field_bind (IntFixedLen.reads (by decide) sent.characterSet.toNat_lt) fun _ hat => ?_
  refine hat.field_bind (IntFixedLen.reads (by decide) sent.statusFlags.toNat_lt) fun _ hat => ?_
  refine hat.field_bind (IntFixedLen.reads (by decide) (by omega)) fun _ hat => ?_
  simp only [halves]
  refine hat.takes_bind sent.takes_pluginDataLen fun _ hat => ?_
  refine hat.field_bind (StringFixedLen.reads_length (by decide)) fun _ hat => ?_
  rw [require_bind rfl]
  refine hat.field_bind (StringFixedLen.reads_length sent.part2_length_read) fun _ hat => ?_
  rw [← List.append_nil sent.encodePluginName] at hat
  refine hat.takes_bind sent.takes_pluginName fun offset hat => ?_
  have hend : offset = sent.encode.length := hat.end_iff.2 rfl
  simp only [bind_eq_some, require_eq_some, pure_eq_some]
  refine ⟨_, _, rfl, _, _, ⟨hend, rfl⟩, ?_⟩
  simp only [hend, accumulated, UInt8.ofNat_toNat, UInt16.ofNat_toNat]
  rfl

end HandshakeV10

/-- **The server's handshake is read back**, to its last byte; the length of the second part of the
data is at least 13, so nothing is subtracted below zero. -/
theorem handshake_round_trip (sent : HandshakeV10) {packet : Packet} (hbody : packet.body = sent.encode) :
    HandshakeAccumulator.consume packet = some (sent.accumulated, .handshakeResponse) ∧
    HandshakeAccumulator.read packet.body 0 = some (sent.accumulated, packet.body.length) ∧
    8 ≤ max pluginDataMaxLength sent.authPluginDataLen.toNat := by
  have hread := sent.read_encode
  rw [← hbody] at hread
  refine ⟨?_, hread, le_max_of_le_left (by decide)⟩
  rw [HandshakeAccumulator.consume, run'_eq_some.2 ⟨_, hread⟩]
  rfl

/-- A server with CLIENT_PLUGIN_AUTH and 20 bytes of data, and a zero byte behind them. -/
def sampleHandshake : HandshakeV10 where
  serverVersion := "8.0.40"
  threadId := 11
  authPluginDataPart1 := "abcdefgh"
  capabilityFlags := 0xdfffffff
  characterSet := 255
  statusFlags := 2
  authPluginDataLen := 21
  authPluginDataPart2 := String.ofList (List.replicate 12 'x' ++ [Char.ofNat 0])
  authPluginName := "mysql_native_password"
  serverVersion_nul := by decide
  authPluginName_nul := by decide
  part1_length := by decide
  part2_length := by decide
  dataLen_zero := by decide

theorem handshake_round_trip_sample :
    HandshakeAccumulator.consume (⟨⟨sampleHandshake.encode.length, 0⟩, sampleHandshake.encode, .other, false⟩) =
      some (sampleHandshake.accumulated, .handshakeResponse) :=
  (handshake_round_trip sampleHandshake rfl).1

/-! ## Connection attributes -/

def encodeAttr (attr : String × String) : Bytes := StringLenEnc.encode attr.1 ++ StringLenEnc.encode attr.2

/-- The attributes that start within `n` bytes. -/
def attrsUpTo : Nat → List (String × String) → List (String × String)
  | _, [] => []
  | n, attr :: attrs => if n = 0 then [] else attr :: attrsUpTo (n - (encodeAttr attr).length) attrs

def insertAttrs (attrs : List (String × String)) (acc : AList fun _ : String => String) : AList fun _ : String => String :=
  attrs.foldl (fun acc attr => acc.insert attr.1 attr.2) acc

theorem StringLenEnc.length_lt_encode (s : String) : (asBytes s).length < (StringLenEnc.encode s).length := by
  obtain ⟨_, _, hlength, -⟩ := IntLenEnc.head_encode (asBytes s).length
  simp only [StringLenEnc.encode, hlength, List.length_append, List.length_cons]
  omega

theorem encodeAttr_length (attr : String × String) :
    (asBytes attr.1).length + (asBytes attr.2).length + 2 ≤ (encodeAttr attr).length := by
  have hkey := StringLenEnc.length_lt_encode attr.1
  have hvalue := StringLenEnc.length_lt_encode attr.2
  rw [encodeAttr, List.length_append]
  omega

theorem attrsUpTo_zero (attrs : List (String × String)) : attrsUpTo 0 attrs = [] := by
  cases attrs <;> simp [attrsUpTo]

theorem attrsUpTo_isPrefix (n : Nat) (attrs : List (String × String)) : attrsUpTo n attrs <+: attrs := by
  induction attrs generalizing n with
  | nil => exact List.nil_prefix
  | cons attr attrs ih =>
    unfold attrsUpTo
    split_ifs
    · exact List.nil_prefix
    · exact (List.prefix_cons_inj attr).2 (ih _)

/-- All of them do if the last one does. -/
theorem attrsUpTo_eq_self_iff {n : Nat} {attrs : List (String × String)} :
    attrsUpTo n attrs = attrs ↔ attrs = [] ∨ (attrs.dropLast.flatMap encodeAttr).length < n := by
  induction attrs generalizing n with
  | nil => simp [attrsUpTo]
  | cons attr attrs ih =>
    have hpos := encodeAttr_length attr
    unfold attrsUpTo
    by_cases hn : n = 0
    · simp [hn]
    · rw [if_neg hn, List.cons.injEq, and_iff_right rfl, ih]
      cases attrs with
      | nil => simp [Nat.pos_of_ne_zero hn]
      | cons attr' attrs =>
        rw [List.dropLast_cons_cons, List.flatMap_cons, List.length_append]
        simp only [reduceCtorEq, false_or]
        omega

/-- Distinct keys keep their values. -/
theorem lookup_insertAttrs {attrs : List (String × String)} (hkeys : (attrs.map Prod.fst).Nodup)
    (acc : AList fun _ : String => String) (key value : String) :
    (insertAttrs attrs acc).lookup key = some value ↔
      (key, value) ∈ attrs ∨ key ∉ attrs.map Prod.fst ∧ acc.lookup key = some value := by
  induction attrs generalizing acc with
  | nil => simp [insertAttrs]
  | cons attr attrs ih =>
    obtain ⟨key', value'⟩ := attr
    rw [List.map_cons, List.nodup_cons] at hkeys
    rw [show insertAttrs ((key', value') :: attrs) acc = insertAttrs attrs (acc.insert key' value') from rfl, ih hkeys.2]
    by_cases hkey : key = key'
    · subst hkey
      have hnot : ∀ v, (key, v) ∉ attrs := fun v hmem => hkeys.1 (List.mem_map.2 ⟨(key, v), hmem, rfl⟩)
      simp [hnot, eq_comm]
    · simp [hkey, AList.lookup_insert_ne hkey]

section
variable {body rest : Bytes} {stop offset fuel : Nat} {acc : AList fun _ : String => String}

theorem readAttrs_stop (h : ¬ offset < stop) :
    HandshakeResponseAccumulator.readAttrs body stop fuel acc offset = some (acc, offset) := by
  cases fuel <;> simp only [HandshakeResponseAccumulator.readAttrs, bind_eq_some, require_eq_some, pure_eq_some]
  · exact ⟨_, _, rfl, _, _, ⟨h, rfl⟩, rfl⟩
  · refine ⟨_, _, rfl, ?_⟩
    rw [if_neg h]
    rfl

/-- One round. -/
theorem readAttrs_attr {attr : String × String} (hascii : IsAscii attr.1 ∧ IsAscii attr.2)
    (hlt : (encodeAttr attr).length < 2 ^ 64) (hat : At body offset (encodeAttr attr ++ rest)) (h : offset < stop) :
    HandshakeResponseAccumulator.readAttrs body stop (fuel + 1) acc offset =
      HandshakeResponseAccumulator.readAttrs body stop fuel (acc.insert attr.1 attr.2)
        (offset + (encodeAttr attr).length) := by
  have hlength := encodeAttr_length attr
  have hnext := hat.skip
  rw [encodeAttr, List.append_assoc] at hat
  have hround : HandshakeResponseAccumulator.readAttrs body stop (fuel + 1) acc offset =
      (do let key ← field body (StringLenEnc.fromBytes · none)
          let value ← field body (StringLenEnc.fromBytes · none)
          HandshakeResponseAccumulator.readAttrs body stop fuel (acc.insert key value)) offset := by
    rw [HandshakeResponseAccumulator.readAttrs]
    exact congrFun (if_pos h) offset
  rw [hround]
  refine hat.field_bind (StringLenEnc.reads hascii.1 (by omega)) fun _ hat => ?_
  refine hat.field_bind (StringLenEnc.reads hascii.2 (by omega)) fun _ hat => ?_
  rw [hat.offset_eq, hnext.offset_eq]

/-- **The loop over the attributes** reads those that start in front of `stop`. -/
theorem readAttrs_encode {attrs : List (String × String)} (hascii : ∀ attr ∈ attrs, IsAscii attr.1 ∧ IsAscii attr.2)
    (hlt : (attrs.flatMap encodeAttr).length < 2 ^ 64) (hat : At body offset (attrs.flatMap encodeAttr ++ rest))
    (hstop : stop ≤ offset + (attrs.flatMap encodeAttr).length) (hfuel : stop ≤ offset + fuel) :
    (HandshakeResponseAccumulator.readAttrs body stop fuel acc offset).map Prod.fst =
      some (insertAttrs (attrsUpTo (stop - offset) attrs) acc) := by
  induction attrs generalizing offset fuel acc with
  | nil =>
    have hstop : ¬ offset < stop := by simpa using hstop
    rw [readAttrs_stop hstop]
    rfl
  | cons attr attrs ih =>
    by_cases hmore : offset < stop
    · obtain ⟨hattr, hattrs⟩ := List.forall_mem_cons.1 hascii
      rw [List.flatMap_cons, List.length_append] at hlt hstop
      rw [List.flatMap_cons, List.append_assoc] at hat
      have htwo := encodeAttr_length attr
      cases fuel with
      | zero => omega
      | succ fuel =>
        rw [readAttrs_attr hattr (by omega) hat hmore, ih hattrs (by omega) hat.skip (by omega) (by omega),
          attrsUpTo, if_neg (by omega), Nat.sub_add_eq]
        rfl
    · rw [readAttrs_stop hmore, Nat.sub_eq_zero_of_le (Nat.not_lt.1 hmore), attrsUpTo_zero]
      rfl

end

/-! ## The client's response -/

/-- The first 32 bytes of a response. -/
def encodePrelude (clientFlag maxPacketSize : UInt32) (characterSet : UInt8) : Bytes :=
  toLe 4 clientFlag.toNat ++ (toLe 4 maxPacketSize.toNat ++ (toLe 1 characterSet.toNat ++ (asBytes fillerString ++ [])))

/-- What is kept of them. -/
def preludeOf (clientFlag maxPacketSize : UInt32) (characterSet : UInt8) : HandshakeResponseAccumulator :=
  { HandshakeResponseAccumulator.default with
    accumulationComplete := true, clientFlag, maxPacketSize, characterSet, filler := fillerString }

theorem takes_prelude {body : Bytes} {clientFlag maxPacketSize : UInt32} {characterSet : UInt8}
    (h41 : hasFlag clientFlag .clientProtocol41) : Takes body (HandshakeResponseAccumulator.readPrelude body)
      (encodePrelude clientFlag maxPacketSize characterSet) (some (preludeOf clientFlag maxPacketSize characterSet)) := by
  have hflag : UInt32.ofNat clientFlag.toNat = clientFlag := UInt32.ofNat_toNat
  unfold HandshakeResponseAccumulator.readPrelude encodePrelude
  refine (Takes.reads (IntFixedLen.reads (by decide) clientFlag.toNat_lt)).bind_some ?_
  refine (Takes.require (by rw [hflag]; exact h41)).bind_some ?_
  refine (Takes.reads (IntFixedLen.reads (by decide) maxPacketSize.toNat_lt)).bind_some ?_
  refine (Takes.reads (IntFixedLen.reads (by decide) characterSet.toNat_lt)).bind_some ?_
  refine (Takes.reads (StringFixedLen.reads_length (by decide))).bind_some ?_
  refine (Takes.require rfl).bind_some ?_
  rw [hflag, UInt32.ofNat_toNat, UInt8.ofNat_toNat]
  exact Takes.pure _

/-- What a client answers in the 4.1 protocol, without TLS and without zstd compression. The names are
bytes: nothing says in which encoding they are. -/
structure HandshakeResponse41 where
  clientFlag : UInt32
  maxPacketSize : UInt32
  characterSet : UInt8
  username : Bytes
  authResponse : Bytes
  database : Bytes
  clientPluginName : Bytes
  connectionAttrs : List (String × String)
  protocol41 : hasFlag clientFlag .clientProtocol41
  noSsl : hasFlag clientFlag .clientSsl = false
  noZstd : hasFlag clientFlag .clientZSTDCompressionAlgorithm = false
  names_nul : ∀ name ∈ [username, database, clientPluginName], (0x00 : UInt8) ∉ name
  authResponse_length : authResponse.length ≤ 255
  keys_nodup : (connectionAttrs.map Prod.fst).Nodup
  attrs_ascii : ∀ attr ∈ connectionAttrs, IsAscii attr.1 ∧ IsAscii attr.2
  attrs_length : (connectionAttrs.flatMap encodeAttr).length < 2 ^ 64

namespace HandshakeResponse41
variable (sent : HandshakeResponse41) {body : Bytes}

/-- With a length-encoded or a one-byte length. -/
def encodeAuthResponse : Bytes :=
  (if hasFlag sent.clientFlag .clientPluginAuthLenEncClientData then IntLenEnc.encode sent.authResponse.length
    else toLe 1 sent.authResponse.length) ++ sent.authResponse

/-- A name that is sent only under `flag`. -/
def encodeName (flag : CapabilityFlags) (name : Bytes) : Bytes :=
  if hasFlag sent.clientFlag flag then nulTerminated name else []

/-- The attributes that are sent. -/
def sentAttrs : List (String × String) := if hasFlag sent.clientFlag .clientConnectAttrs then sent.connectionAttrs else []

/-- The number of bytes they take. -/
def attrsLength : Nat := (sent.sentAttrs.flatMap encodeAttr).length

def encodeAttrs : Bytes :=
  if hasFlag sent.clientFlag .clientConnectAttrs then
    IntLenEnc.encode sent.attrsLength ++ sent.sentAttrs.flatMap encodeAttr
  else []

def encode : Bytes :=
  encodePrelude sent.clientFlag sent.maxPacketSize sent.characterSet ++ (nulTerminated sent.username ++
    (sent.encodeAuthResponse ++ (sent.encodeName .clientConnectWithDB sent.database ++
      (sent.encodeName .clientPluginAuth sent.clientPluginName ++ sent.encodeAttrs))))

/-! ### What is kept of it -/

/-- One char a byte behind a length-encoded length, UTF-8 behind the other. -/
def keptAuthResponse : Option (Option UInt8 × Option String) :=
  if hasFlag sent.clientFlag .clientPluginAuthLenEncClientData then some (none, some (latin1 sent.authResponse))
  else (fromUtf8 sent.authResponse).map fun text => (some (UInt8.ofNat sent.authResponse.length), some text)

def keptName (flag : CapabilityFlags) (name : Bytes) : Option (Option String) :=
  if hasFlag sent.clientFlag flag then (fromUtf8 name).map some else some none

/-- The attributes that start within the low byte of their length. -/
def keptAttrs : AList fun _ : String => String :=
  insertAttrs (attrsUpTo (sent.attrsLength % 256) sent.sentAttrs) ∅

/-- What is kept of the response; `none` is a panic. -/
def kept : Option HandshakeResponseAccumulator :=
  (fromUtf8 sent.username).bind fun username =>
    sent.keptAuthResponse.bind fun auth =>
      (sent.keptName .clientConnectWithDB sent.database).bind fun database =>
        (sent.keptName .clientPluginAuth sent.clientPluginName).bind fun clientPluginName =>
          some { preludeOf sent.clientFlag sent.maxPacketSize sent.characterSet with
            username, authResponseLength := auth.1, authResponse := auth.2, database, clientPluginName
            connectionAttrsLength := UInt8.ofNat sent.attrsLength, connectionAttrs := sent.keptAttrs }

theorem takes_name {flag : CapabilityFlags} {name : Bytes} (h : (0x00 : UInt8) ∉ name) :
    Takes body (HandshakeResponseAccumulator.readOptionalString body sent.clientFlag flag) (sent.encodeName flag name)
      (sent.keptName flag name) := by
  exact Takes.ite (fun _ => Takes.map (Takes.field (StringNullEnc.fromBytes_nulTerminated h))) fun _ => Takes.pure _

theorem takes_authResponse : Takes body (HandshakeResponseAccumulator.readAuthResponse body sent.clientFlag)
    sent.encodeAuthResponse sent.keptAuthResponse := by
  have hlength := sent.authResponse_length
  unfold HandshakeResponseAccumulator.readAuthResponse encodeAuthResponse keptAuthResponse
  by_cases hflag : hasFlag sent.clientFlag .clientPluginAuthLenEncClientData
  · simp only [hflag, if_true]
    exact (Takes.reads (StringLenEnc.reads_bytes (by omega))).map
  · simp only [hflag, Bool.false_eq_true, if_false]
    refine (Takes.reads (IntFixedLen.reads (by decide) (by omega))).bind_some ?_
    refine Takes.map (Takes.field fun rest => ?_)
    simp [StringFixedLen.fromBytes, slice_append_left, Option.map_eq_bind]

theorem sentAttrs_sublist : sent.sentAttrs.Sublist sent.connectionAttrs := by
  unfold sentAttrs
  split_ifs
  · exact List.Sublist.refl _
  · exact List.nil_sublist _

theorem sentAttrs_nodup : (sent.sentAttrs.map Prod.fst).Nodup := (sent.sentAttrs_sublist.map _).nodup sent.keys_nodup

/-- Of the attributes a part may be left. -/
theorem answers_connectionAttrs : Answers body (HandshakeResponseAccumulator.readConnectionAttrs body sent.clientFlag)
    sent.encodeAttrs (some (UInt8.ofNat sent.attrsLength, sent.keptAttrs)) := by
  have hascii : ∀ attr ∈ sent.sentAttrs, IsAscii attr.1 ∧ IsAscii attr.2 := fun attr hattr =>
    sent.attrs_ascii attr (sent.sentAttrs_sublist.subset hattr)
  have hlt : sent.attrsLength < 2 ^ 64 :=
    Nat.lt_of_le_of_lt (sent.sentAttrs_sublist.flatMap encodeAttr).length_le sent.attrs_length
  unfold HandshakeResponseAccumulator.readConnectionAttrs encodeAttrs
  by_cases hflag : hasFlag sent.clientFlag .clientConnectAttrs
  · simp only [hflag, if_true]
    refine (Takes.reads (IntLenEnc.reads hlt)).bind_answers (g := fun _ => some _) fun length hlength => ?_
    cases hlength
    intro offset rest hat
    have hlow : (UInt8.ofNat sent.attrsLength).toNat = sent.attrsLength % 256 := UInt8.toNat_ofNat'
    have hle : sent.attrsLength % 256 ≤ sent.attrsLength := Nat.mod_le _ _
    have hread := @readAttrs_encode body rest (offset + sent.attrsLength % 256) offset (sent.attrsLength % 256) ∅
      sent.sentAttrs hascii hlt hat (Nat.add_le_add_left hle _) (Nat.le_refl _)
    rw [Nat.add_sub_cancel_left] at hread
    obtain ⟨⟨attrs, offset'⟩, hattrs, he⟩ := Option.map_eq_some_iff.1 hread
    cases he
    rw [Option.map_eq_some_iff]
    refine ⟨((UInt8.ofNat sent.attrsLength, sent.keptAttrs), offset'), ?_, rfl⟩
    simp only [bind_eq_some, pure_eq_some, hlow]
    exact ⟨_, _, rfl, _, _, hattrs, rfl⟩
  · have hnone : sent.sentAttrs = [] := by simp [sentAttrs, hflag]
    simp only [hflag, Bool.false_eq_true, if_false, keptAttrs, attrsLength, hnone]
    exact fun offset rest hat => rfl

theorem answers_rest : Answers body (HandshakeResponseAccumulator.readRest body
      (preludeOf sent.clientFlag sent.maxPacketSize sent.characterSet))
    (nulTerminated sent.username ++ (sent.encodeAuthResponse ++ (sent.encodeName .clientConnectWithDB sent.database ++
      (sent.encodeName .clientPluginAuth sent.clientPluginName ++ sent.encodeAttrs)))) sent.kept := by
  have hnames := sent.names_nul
  unfold HandshakeResponseAccumulator.readRest kept
  refine (Takes.field (StringNullEnc.fromBytes_nulTerminated (hnames _ (by simp)))).bind_answers fun username _ => ?_
  refine sent.takes_authResponse.bind_answers fun auth _ => ?_
  refine (sent.takes_name (hnames _ (by simp))).bind_answers fun database _ => ?_
  refine (sent.takes_name (hnames _ (by simp))).bind_answers fun clientPluginName _ => ?_
  refine sent.answers_connectionAttrs.bind_pure (g := fun _ => _) fun attrs hattrs => ?_
  cases hattrs
  simp only [HandshakeResponseAccumulator.readZstdLevel, preludeOf, sent.noZstd, Bool.false_eq_true, if_false, pure_bind]
  rfl

/-- **What is kept of a response.** -/
theorem consume_encode {packet : Packet} (hbody : packet.body = sent.encode) (c : Connection) :
    HandshakeResponseAccumulator.consume packet c = sent.kept.map (·, .authInit) := by
  rw [HandshakeResponseAccumulator.consume, hbody]
  have hread : Answers sent.encode (HandshakeResponseAccumulator.read sent.encode (c.clientConnection = .plain))
      sent.encode (sent.kept.map (·, Phase.authInit)) := by
    unfold HandshakeResponseAccumulator.read
    refine (takes_prelude sent.protocol41).bind_answers (g := fun _ => _) fun prelude hprelude => ?_
    cases hprelude
    have hflag : (preludeOf sent.clientFlag sent.maxPacketSize sent.characterSet).clientFlag = sent.clientFlag := rfl
    simp only [hflag, sent.noSsl, Bool.and_false, Bool.false_eq_true, if_false]
    exact sent.answers_rest.bind_pure fun _ _ => rfl
  exact hread.run'

/-! ### When a response is kept as it was sent -/

/-- A string keeps bytes as UTF-8 or, as it may any bytes, one char each. -/
def Keeps (text : String) (bytes : Bytes) : Prop := asBytes text = bytes ∨ text = latin1 bytes

/-- Every field is kept as it was sent. -/
structure StoredIn (acc : HandshakeResponseAccumulator) : Prop where
  clientFlag : acc.clientFlag = sent.clientFlag
  maxPacketSize : acc.maxPacketSize = sent.maxPacketSize
  characterSet : acc.characterSet = sent.characterSet
  username : asBytes acc.username = sent.username
  authResponseLength : acc.authResponseLength.map UInt8.toNat =
    if hasFlag sent.clientFlag .clientPluginAuthLenEncClientData then none else some sent.authResponse.length
  authResponse : ∃ text, acc.authResponse = some text ∧ Keeps text sent.authResponse
  database : acc.database.map asBytes = if hasFlag sent.clientFlag .clientConnectWithDB then some sent.database else none
  clientPluginName : acc.clientPluginName.map asBytes =
    if hasFlag sent.clientFlag .clientPluginAuth then some sent.clientPluginName else none
  connectionAttrs : ∀ key value, acc.connectionAttrs.lookup key = some value ↔ (key, value) ∈ sent.sentAttrs

/-- The names that are sent. -/
def sentNames : List Bytes :=
  sent.username :: ((if hasFlag sent.clientFlag .clientConnectWithDB then [sent.database] else []) ++
    (if hasFlag sent.clientFlag .clientPluginAuth then [sent.clientPluginName] else []))

/-- Every string is one that its reader takes, and the last attribute starts within the low byte of their length. -/
structure Readable : Prop where
  names : ∀ name ∈ sent.sentNames, (fromUtf8 name).isSome
  authResponse : hasFlag sent.clientFlag .clientPluginAuthLenEncClientData ∨ (fromUtf8 sent.authResponse).isSome
  attrs : sent.sentAttrs = [] ∨ (sent.sentAttrs.dropLast.flatMap encodeAttr).length < sent.attrsLength % 256

theorem lookup_keptAttrs (key value : String) : sent.keptAttrs.lookup key = some value ↔
    (key, value) ∈ attrsUpTo (sent.attrsLength % 256) sent.sentAttrs := by
  have hstart := attrsUpTo_isPrefix (sent.attrsLength % 256) sent.sentAttrs
  have hkeys := (hstart.sublist.map Prod.fst).nodup sent.sentAttrs_nodup
  rw [keptAttrs, lookup_insertAttrs hkeys]
  simp

/-- No attribute is lost exactly if they all start in time. -/
theorem keptAttrs_iff : (∀ key value, sent.keptAttrs.lookup key = some value ↔ (key, value) ∈ sent.sentAttrs) ↔
    attrsUpTo (sent.attrsLength % 256) sent.sentAttrs = sent.sentAttrs := by
  simp only [lookup_keptAttrs]
  constructor
  · intro h
    have hstart := attrsUpTo_isPrefix (sent.attrsLength % 256) sent.sentAttrs
    have hperm : (attrsUpTo (sent.attrsLength % 256) sent.sentAttrs).Perm sent.sentAttrs := by
      rw [List.perm_ext_iff_of_nodup (hstart.sublist.nodup sent.sentAttrs_nodup.of_map) sent.sentAttrs_nodup.of_map]
      exact fun attr => h attr.1 attr.2
    exact hstart.eq_of_length hperm.length_eq
  · intro h key value
    rw [h]

theorem keptName_eq_some {flag : CapabilityFlags} {name : Bytes} {kept : Option String}
    (h : sent.keptName flag name = some kept) :
    kept.map asBytes = if hasFlag sent.clientFlag flag then some name else none := by
  unfold keptName at h
  by_cases hflag : hasFlag sent.clientFlag flag
  · simp only [hflag, if_true, Option.map_eq_some_iff, fromUtf8_eq_some_iff] at h ⊢
    obtain ⟨text, htext, rfl⟩ := h
    exact ⟨text, rfl, htext.symm⟩
  · simp only [hflag, Bool.false_eq_true, if_false, Option.some.injEq] at h ⊢
    rw [← h]
    rfl

theorem keptName_isSome {flag : CapabilityFlags} {name : Bytes} :
    (sent.keptName flag name).isSome ↔ (hasFlag sent.clientFlag flag → (fromUtf8 name).isSome) := by
  unfold keptName
  by_cases hflag : hasFlag sent.clientFlag flag <;> simp [hflag]

theorem keptAuthResponse_eq_some {auth : Option UInt8 × Option String} (h : sent.keptAuthResponse = some auth) :
    auth.1.map UInt8.toNat =
      (if hasFlag sent.clientFlag .clientPluginAuthLenEncClientData then none else some sent.authResponse.length) ∧
    ∃ text, auth.2 = some text ∧ Keeps text sent.authResponse := by
  have hlength := sent.authResponse_length
  unfold keptAuthResponse at h
  by_cases hflag : hasFlag sent.clientFlag .clientPluginAuthLenEncClientData
  · simp only [hflag, if_true, Option.some.injEq] at h ⊢
    subst h
    exact ⟨rfl, _, rfl, .inr rfl⟩
  · simp only [hflag, Bool.false_eq_true, if_false, Option.map_eq_some_iff, fromUtf8_eq_some_iff] at h ⊢
    obtain ⟨text, htext, rfl⟩ := h
    refine ⟨?_, text, rfl, .inl htext.symm⟩
    refine ⟨_, rfl, ?_⟩
    rw [UInt8.toNat_ofNat', Nat.mod_eq_of_lt (by omega)]

theorem keptAuthResponse_isSome : sent.keptAuthResponse.isSome ↔
    hasFlag sent.clientFlag .clientPluginAuthLenEncClientData ∨ (fromUtf8 sent.authResponse).isSome := by
  unfold keptAuthResponse
  by_cases hflag : hasFlag sent.clientFlag .clientPluginAuthLenEncClientData <;> simp [hflag]

theorem forall_sentNames {p : Bytes → Prop} : (∀ name ∈ sent.sentNames, p name) ↔ p sent.username ∧
    (hasFlag sent.clientFlag .clientConnectWithDB → p sent.database) ∧
    (hasFlag sent.clientFlag .clientPluginAuth → p sent.clientPluginName) := by
  by_cases hdatabase : hasFlag sent.clientFlag .clientConnectWithDB <;>
    by_cases hplugin : hasFlag sent.clientFlag .clientPluginAuth <;> simp [sentNames, hdatabase, hplugin]

/-- Whether there is anything kept, is up to the strings. -/
theorem kept_isSome : sent.kept.isSome ↔ (∀ name ∈ sent.sentNames, (fromUtf8 name).isSome) ∧
    (hasFlag sent.clientFlag .clientPluginAuthLenEncClientData ∨ (fromUtf8 sent.authResponse).isSome) := by
  rw [forall_sentNames, ← keptName_isSome, ← keptName_isSome, ← keptAuthResponse_isSome]
  simp only [kept, Option.isSome_iff_exists, Option.bind_eq_some_iff]
  constructor
  · rintro ⟨_, username, husername, auth, hauth, database, hdatabase, plugin, hplugin, -⟩
    exact ⟨⟨⟨_, husername⟩, ⟨_, hdatabase⟩, ⟨_, hplugin⟩⟩, ⟨_, hauth⟩⟩
  · rintro ⟨⟨⟨_, husername⟩, ⟨_, hdatabase⟩, ⟨_, hplugin⟩⟩, ⟨_, hauth⟩⟩
    exact ⟨_, _, husername, _, hauth, _, hdatabase, _, hplugin, rfl⟩

/-- What is kept differs from what was sent in its attributes at most. -/
theorem storedIn_iff {acc : HandshakeResponseAccumulator} (h : sent.kept = some acc) :
    sent.StoredIn acc ↔ attrsUpTo (sent.attrsLength % 256) sent.sentAttrs = sent.sentAttrs := by
  simp only [kept, Option.bind_eq_some_iff, Option.some.injEq] at h
  obtain ⟨username, husername, auth, hauth, database, hdatabase, plugin, hplugin, rfl⟩ := h
  obtain ⟨hlength, hresponse⟩ := sent.keptAuthResponse_eq_some hauth
  constructor
  · intro hstored
    exact sent.keptAttrs_iff.1 hstored.connectionAttrs
  · intro hattrs
    exact {
      clientFlag := rfl
      maxPacketSize := rfl
      characterSet := rfl
      username := (fromUtf8_eq_some_iff.1 husername).symm
      authResponseLength := hlength
      authResponse := hresponse
      database := sent.keptName_eq_some hdatabase
      clientPluginName := sent.keptName_eq_some hplugin
      connectionAttrs := sent.keptAttrs_iff.2 hattrs }

end HandshakeResponse41

/-- **A handshake response is kept as it was sent** exactly if it is readable. -/
theorem handshakeResponse_stored_iff (sent : HandshakeResponse41) {packet : Packet} (hbody : packet.body = sent.encode)
    (c : Connection) : (∃ acc, HandshakeResponseAccumulator.consume packet c = some (acc, .authInit) ∧ sent.StoredIn acc) ↔
      sent.Readable := by
  rw [sent.consume_encode hbody c]
  constructor
  · rintro ⟨acc, hacc, hstored⟩
    obtain ⟨acc, hkept, he⟩ := Option.map_eq_some_iff.1 hacc
    cases he
    obtain ⟨hnames, hauth⟩ := sent.kept_isSome.1 (Option.isSome_of_eq_some hkept)
    exact ⟨hnames, hauth, attrsUpTo_eq_self_iff.1 ((sent.storedIn_iff hkept).1 hstored)⟩
  · rintro ⟨hnames, hauth, hattrs⟩
    obtain ⟨acc, hkept⟩ := Option.isSome_iff_exists.1 (sent.kept_isSome.2 ⟨hnames, hauth⟩)
    refine ⟨acc, by rw [hkept]; rfl, (sent.storedIn_iff hkept).2 (attrsUpTo_eq_self_iff.2 hattrs)⟩

/-- All sections are there; the authentication response is no UTF-8. -/
def sampleHandshakeResponse : HandshakeResponse41 where
  clientFlag := 0x00380208
  maxPacketSize := 0xffffff
  characterSet := 255
  username := [0x72, 0x6f, 0x6f, 0x74]
  authResponse := [0x80, 0x00]
  database := [0x64]
  clientPluginName := [0x70]
  connectionAttrs := [("_os", "Linux"), ("_pid", "1")]
  protocol41 := by decide
  noSsl := by decide
  noZstd := by decide
  names_nul := by decide
  authResponse_length := by decide
  keys_nodup := by decide
  attrs_ascii := by decide
  attrs_length := by decide

/-- The same with a one-byte length. -/
def binaryResponse : HandshakeResponse41 :=
  { sampleHandshakeResponse with
    clientFlag := 0x00180208
    protocol41 := by decide
    noSsl := by decide
    noZstd := by decide }

theorem isAscii_replicate (n : Nat) : IsAscii (String.ofList (List.replicate n 'v')) := by
  intro c hc
  rw [String.toList_ofList] at hc
  rw [List.eq_of_mem_replicate hc]
  decide

/-- One attribute, of 256 bytes. -/
def longAttribute : HandshakeResponse41 :=
  { sampleHandshakeResponse with
    connectionAttrs := [("k", String.ofList (List.replicate 251 'v'))]
    keys_nodup := by decide
    attrs_ascii := List.forall_mem_singleton.2 ⟨by decide, isAscii_replicate 251⟩
    attrs_length := by decide +kernel }

def responsePacket (sent : HandshakeResponse41) : Packet := ⟨⟨sent.encode.length, 1⟩, sent.encode, .other, false⟩

theorem handshakeResponse_stored_sample :
    ∃ acc, HandshakeResponseAccumulator.consume (responsePacket sampleHandshakeResponse) (.new .plain .plain ∅ none none) =
      some (acc, .authInit) ∧ sampleHandshakeResponse.StoredIn acc :=
  (handshakeResponse_stored_iff sampleHandshakeResponse rfl _).2 ⟨by decide, by decide, by decide⟩

/-- Behind a one-byte length the authentication response has to be UTF-8, and 256 bytes of attributes are none. -/
theorem handshakeResponse_lost :
    HandshakeResponseAccumulator.consume (responsePacket binaryResponse) (.new .plain .plain ∅ none none) = none ∧
    ∃ acc, HandshakeResponseAccumulator.consume (responsePacket longAttribute) (.new .plain .plain ∅ none none) =
      some (acc, .authInit) ∧ ¬ longAttribute.StoredIn acc := by
  constructor
  · rw [binaryResponse.consume_encode rfl]
    decide
  · have hlength : longAttribute.attrsLength % 256 = 0 := by decide +kernel
    obtain ⟨acc, hacc⟩ := Option.isSome_iff_exists.1 (longAttribute.kept_isSome.2 ⟨by decide, by decide⟩)
    refine ⟨acc, by rw [longAttribute.consume_encode rfl, hacc]; rfl, fun hstored => ?_⟩
    have hall := (longAttribute.storedIn_iff hacc).1 hstored
    rw [hlength, attrsUpTo_zero] at hall
    cases hall

end MocksySql
