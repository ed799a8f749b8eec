import Mathlib.Data.List.Chain
import MocksySql.ConnectionInvariant
import MocksySql.Framing
import MocksySql.HandshakeParsing
/-!
# What depends on how the client's stream is cut

`make_packets` compares the numbers of the packets of one read, and takes all the packets of a read
before the first of them is looked at.

* `order_check_iff` — whether a stream is refused is the same for all its cuts exactly if it is refused
  for none of them: its numbers go on without a break.
* `tls_hand_over_iff` — the TLS layer gets the client's stream from behind the SSLRequest exactly if the
  read that completes the SSLRequest ends with it.
-/

namespace MocksySql
open FieldDecode PartialRun ByteStream

/-- What a sender can put on the wire, its body not being empty. -/
structure Frame.WellFormed (f : Frame) : Prop where
  size : f.2.length = f.1.size
  encodable : f.1.size < 256 ^ 3
  nonempty : f.2 ≠ []

theorem Frame.WellFormed.next {f : Frame} (h : f.WellFormed) (rest : Bytes) :
    frames.next (f.toBytes ++ rest) = some (f, rest) := nextFrame_toBytes h.size h.encodable rest

/-! ## The order check -/

/-- These reads bring these frames. -/
structure Cuts (reads : List SocketRead) (fs : List Frame) : Prop where
  stream : (reads.map SocketRead.chunk).flatten = fs.flatMap Frame.toBytes
  nonempty : ∀ r ∈ reads, r.chunk ≠ []

theorem whole_chunk (bytes : Bytes) : (SocketRead.whole bytes).chunk = bytes := List.take_length

theorem Frame.toBytes_ne_nil (f : Frame) : f.toBytes ≠ [] := by
  intro h
  have hlen := congrArg List.length h
  simp [Frame.toBytes] at hlen

/-- One packet a read. -/
theorem Cuts.apart (fs : List Frame) : Cuts (fs.map fun f => .whole f.toBytes) fs := by
  refine ⟨by simp [Function.comp_def, whole_chunk, List.flatMap], ?_⟩
  intro r hr
  obtain ⟨f, _, rfl⟩ := List.mem_map.1 hr
  rw [whole_chunk]
  exact f.toBytes_ne_nil

/-- All packets in one read. -/
theorem Cuts.together {fs : List Frame} (hfs : fs ≠ []) : Cuts [.whole (fs.flatMap Frame.toBytes)] fs := by
  refine ⟨by simp [whole_chunk], ?_⟩
  intro r hr
  rw [List.mem_singleton.1 hr, whole_chunk]
  obtain ⟨f, gs, rfl⟩ := List.exists_cons_of_ne_nil hfs
  simp [f.toBytes_ne_nil]

/-- Over frames that are not empty `make_packets` panics if the frames some read completes are not in order. -/
theorem run_readPackets_none (c : Connection) : ∀ (reads : List SocketRead) (residual : Bytes),
    (∀ fs ∈ (frames.feed residual (reads.map SocketRead.chunk)).1, ∀ f ∈ fs, f.2 ≠ []) →
    (run readPackets (c.withResidual residual) reads = none ↔
      ¬ ∀ fs ∈ (frames.feed residual (reads.map SocketRead.chunk)).1, InOrder (fs.map (·.1)))
  | [], residual, _ => by simp [Splitter.feed]
  | r :: reads, residual, h => by
    simp only [List.map_cons, Splitter.feed, List.forall_mem_cons] at h ⊢
    obtain ⟨packets, hps, hheaders⟩ := mapM_toPacket c.phase h.1
    have hread : readPackets (c.withResidual residual) r =
        if InOrder (packets.map (·.header)) then
          some (c.withResidual (frames.split (residual ++ r.chunk)).2, packets) else none := by
      rw [readPackets, makePackets_eq]
      simp [hps]
    by_cases horder : InOrder (packets.map (·.header))
    · rw [if_pos horder] at hread
      rw [run_cons hread, Option.map_eq_none_iff, run_readPackets_none c reads _ h.2]
      rw [hheaders] at horder
      simp [horder]
    · rw [if_neg horder] at hread
      rw [hheaders] at horder
      simp [run, hread, horder]

/-- **The order check and the cut.** Over a stream of packets that are not empty, all ways of cutting it
agree on whether `make_packets` panics if and only if every packet carries the number behind that of the
packet before it. -/
theorem order_check_iff {c : Connection} (hc : c.partialBytes = none) {fs : List Frame}
    (hfs : ∀ f ∈ fs, f.WellFormed) :
    (∀ reads₁ reads₂, Cuts reads₁ fs → Cuts reads₂ fs →
        (run readPackets c reads₁ = none ↔ run readPackets c reads₂ = none)) ↔
      InOrder (fs.map (·.1)) := by
  have hnext : ∀ f ∈ fs, ∀ rest, frames.next (f.toBytes ++ rest) = some (f, rest) := fun f hf => (hfs f hf).next
  have hsplit : frames.split (fs.flatMap Frame.toBytes) = (fs, []) := by
    have h := frames.split_render Frame.toBytes [] fs hnext
    simpa using h
  have hitems : ∀ reads, Cuts reads fs → (frames.feed [] (reads.map SocketRead.chunk)).1.flatten = fs := by
    intro reads hreads
    have h := (frames.feed_eq_split (reads.map SocketRead.chunk) frames.next_nil).1
    rwa [List.nil_append, hreads.stream, hsplit] at h
  have hpanics : ∀ reads, Cuts reads fs → (run readPackets c reads = none ↔
      ¬ ∀ gs ∈ (frames.feed [] (reads.map SocketRead.chunk)).1, InOrder (gs.map (·.1))) := by
    intro reads hreads
    have h := run_readPackets_none c reads [] fun gs hgs f hf =>
      (hfs f (hitems reads hreads ▸ List.mem_flatten_of_mem hgs hf)).nonempty
    rwa [Connection.withResidual_nil hc] at h
  constructor
  · intro hall
    by_cases hnil : fs = []
    · subst hnil; simp [InOrder]
    -- one packet a read against all packets in one read
    have hiff := hall _ _ (Cuts.apart fs) (Cuts.together hnil)
    rw [hpanics _ (Cuts.apart fs), hpanics _ (Cuts.together hnil), not_iff_not] at hiff
    have hsingle := frames.feed_render Frame.toBytes fs hnext
    have hchunks : (fs.map fun f => SocketRead.whole f.toBytes).map SocketRead.chunk = fs.map Frame.toBytes := by
      simp [Function.comp_def, whole_chunk]
    rw [hchunks, hsingle] at hiff
    have hfirst := hiff.1 (by rintro gs hgs; obtain ⟨f, _, rfl⟩ := List.mem_map.1 hgs; simp [InOrder])
    simpa [Splitter.feed, whole_chunk, hsplit] using hfirst
  · intro horder reads₁ reads₂ h₁ h₂
    have hnever : ∀ reads, Cuts reads fs → run readPackets c reads ≠ none := by
      intro reads hreads
      rw [Ne, hpanics reads hreads, not_not]
      intro gs hgs
      have hpart : gs <:+: fs := hitems reads hreads ▸ List.infix_of_mem_flatten hgs
      exact horder.infix (hpart.map _)
    simp [hnever reads₁ h₁, hnever reads₂ h₂]

/-- COM_PING with this number. -/
def samplePing (seq : UInt8) : Frame := (⟨1, seq⟩, [0x0e])

theorem samplePing_wellFormed (seq : UInt8) : (samplePing seq).WellFormed := ⟨rfl, Nat.one_lt_pow (by decide) (by decide), by simp [samplePing]⟩

theorem order_check_iff_consecutive :
    InOrder ([samplePing 255, samplePing 0].map (·.1)) ∧
    ∀ reads₁ reads₂, Cuts reads₁ [samplePing 255, samplePing 0] → Cuts reads₂ [samplePing 255, samplePing 0] →
      (run readPackets (.new .plain .plain ∅ none none) reads₁ = none ↔
        run readPackets (.new .plain .plain ∅ none none) reads₂ = none) := by
  have hconsecutive : InOrder ([samplePing 255, samplePing 0].map (·.1)) := by decide
  exact ⟨hconsecutive, (order_check_iff rfl (by simp [samplePing_wellFormed])).2 hconsecutive⟩

/-- Two commands, each starting at number 0: accepted in two reads, refused in one. -/
theorem pipelined_refused :
    ¬ ∀ reads₁ reads₂, Cuts reads₁ [samplePing 0, samplePing 0] → Cuts reads₂ [samplePing 0, samplePing 0] →
      (run readPackets (.new .plain .plain ∅ none none) reads₁ = none ↔
        run readPackets (.new .plain .plain ∅ none none) reads₂ = none) := by
  intro h
  have hiff := h [.whole [1, 0, 0, 0, 0x0e], .whole [1, 0, 0, 0, 0x0e]] [.whole [1, 0, 0, 0, 0x0e, 1, 0, 0, 0, 0x0e]]
    ⟨rfl, by simp [whole_chunk]⟩ ⟨rfl, by simp [whole_chunk]⟩
  have hone : run readPackets (.new .plain .plain ∅ none none)
      [.whole [1, 0, 0, 0, 0x0e], .whole [1, 0, 0, 0, 0x0e]] = some (_, _) := rfl
  have hat : run readPackets (.new .plain .plain ∅ none none) [.whole [1, 0, 0, 0, 0x0e, 1, 0, 0, 0, 0x0e]] = none := rfl
  rw [hone, hat] at hiff
  exact absurd (hiff.2 rfl) (by simp)

/-! ## The TLS hand-over -/

/-- The packet with which a client asks for TLS: the first 32 bytes of a handshake response. -/
structure SslRequest (f : Frame) : Prop where
  size : f.1.size = 32
  body : ∃ (clientFlag maxPacketSize : UInt32) (characterSet : UInt8),
    hasFlag clientFlag .clientProtocol41 ∧ hasFlag clientFlag .clientSsl ∧
    f.2 = toLe 4 clientFlag.toNat ++ (toLe 4 maxPacketSize.toNat ++ (toLe 1 characterSet.toNat ++
      (asBytes fillerString ++ [])))

theorem asBytes_fillerString : asBytes fillerString = List.replicate 23 0 := by decide

theorem SslRequest.wellFormed {f : Frame} (h : SslRequest f) : f.WellFormed := by
  obtain ⟨clientFlag, maxPacketSize, characterSet, _, _, hbody⟩ := h.body
  have hlen : f.2.length = 32 := by simp [hbody, asBytes_fillerString]
  refine ⟨hlen.trans h.size.symm, ?_, fun hnil => ?_⟩
  · rw [h.size]; exact Nat.lt_of_lt_of_le (by decide : 32 < 256) (Nat.le_self_pow (by decide) 256)
  · rw [hnil] at hlen; cases hlen

theorem SslRequest.readPrelude {f : Frame} (h : SslRequest f) :
    ∃ prelude, HandshakeResponseAccumulator.readPrelude f.2 0 = some (prelude, f.2.length) ∧
      hasFlag prelude.clientFlag .clientSsl := by
  obtain ⟨clientFlag, maxPacketSize, characterSet, h41, hssl, hbody⟩ := h.body
  refine ⟨preludeOf clientFlag maxPacketSize characterSet, ?_, hssl⟩
  have hat : At f.2 0 (encodePrelude clientFlag maxPacketSize characterSet ++ []) := by
    rw [List.append_nil, encodePrelude, ← hbody]
    exact At.start f.2
  rw [takes_prelude h41 0 [] hat, hbody, Nat.zero_add]
  rfl

/-- On a plain connection it is answered by waiting for TLS. -/
theorem SslRequest.consume {f : Frame} (h : SslRequest f) {p : Packet} (hp : p.body = f.2) {c : Connection}
    (hc : c.clientConnection = .plain) :
    ∃ hr, HandshakeResponseAccumulator.consume p c = some (hr, .tlsExchange) := by
  obtain ⟨prelude, hprelude, hssl⟩ := h.readPrelude
  refine ⟨prelude, ?_⟩
  rw [HandshakeResponseAccumulator.consume, hp, run'_eq_some]
  refine ⟨f.2.length, ?_⟩
  rw [HandshakeResponseAccumulator.read, bind_eq_some]
  refine ⟨prelude, f.2.length, hprelude, ?_⟩
  rw [if_pos (by simp [hc, hssl])]
  simp only [bind_eq_some, require_eq_some, pure_eq_some]
  exact ⟨_, _, rfl, _, _, ⟨rfl, rfl⟩, rfl⟩

/-- The client's handshake response is awaited, in the clear. -/
structure AwaitsHandshakeResponse (c : Connection) : Prop where
  phase : c.phase = .handshakeResponse
  partialBytes : c.partialBytes = none
  client : c.clientConnection = .plain
  server : c.serverConnection = .plain

/-- `process_incoming_frame` on a read. -/
def readFrame (env : Env) (c : Connection) (r : SocketRead) : Option (Connection × List Packet) :=
  processIncomingFrame env r.buf c r.readBytes

/-- Of a stream that starts with frame `f`, `reads` are those up to the one that completes it; `unread` is what
the socket still has. -/
structure UpTo (reads : List SocketRead) (f : Frame) (rest unread : Bytes) : Prop where
  stream : (reads.map SocketRead.chunk).flatten ++ unread = f.toBytes ++ rest
  complete : f.toBytes.length ≤ (reads.map SocketRead.chunk).flatten.length
  first : (reads.dropLast.map SocketRead.chunk).flatten.length < f.toBytes.length

/-- After these reads the connection waits for TLS, nothing behind the SSLRequest has been framed, and the
TLS layer finds the stream where it starts. -/
def HandedOver (env : Env) (c : Connection) (ssl : Frame) (rest : Bytes) (reads : List SocketRead)
    (unread : Bytes) : Prop :=
  ∃ c' outs, run (readFrame env) c reads = some (c', outs) ∧ c'.phase = .tlsExchange ∧
    outs.flatten.map Packet.toBytes = [ssl.toBytes] ∧ c'.partialBytes = none ∧
    (switchToTls c').clientConnection = .clientTls ∧ (switchToTls c').serverConnection = .serverTls ∧ unread = rest

section
variable {env : Env} {c : Connection} {ssl : Frame}

/-- Reads that end inside the first frame are held back. -/
theorem run_readFrame_part {f : Frame} (hf : f.WellFormed) : ∀ {reads : List SocketRead} {held more : Bytes},
    held ++ (reads.map SocketRead.chunk).flatten ++ more = f.toBytes → more ≠ [] →
    ∃ outs, run (readFrame env) (c.withResidual held) reads =
        some (c.withResidual (held ++ (reads.map SocketRead.chunk).flatten), outs) ∧ outs.flatten = []
  | [], held, more, _, _ => ⟨[], by simp⟩
  | r :: reads, held, more, hstream, hmore => by
    simp only [List.map_cons, List.flatten_cons] at hstream ⊢
    obtain ⟨outs, hrun, houts⟩ := @run_readFrame_part f hf reads (held ++ r.chunk) more (by simpa using hstream) hmore
    have hpart : frames.split (held ++ r.chunk) = ([], held ++ r.chunk) := by
      have hnext := hf.next []
      rw [List.append_nil, ← hstream, show held ++ (r.chunk ++ (reads.map SocketRead.chunk).flatten) ++ more =
        (held ++ r.chunk) ++ ((reads.map SocketRead.chunk).flatten ++ more) by simp] at hnext
      exact frames.split_of_part hnext (by simp [List.length_pos_of_ne_nil hmore])
    have hread : readFrame env (c.withResidual held) r = some (c.withResidual (held ++ r.chunk), []) := by
      simp [readFrame, processIncomingFrame, makePackets_eq, hpart, InOrder]
    rw [run_cons hread, hrun]
    exact ⟨[] :: outs, by simp, by simpa using houts⟩

/-- The SSLRequest itself. -/
theorem consumePacket_sslRequest (hphase : c.phase = .handshakeResponse) (hplain : c.clientConnection = .plain)
    (hssl : SslRequest ssl) {p : Packet} (hbody : p.body = ssl.2) (hskip : p.skip = false) :
    ∃ hr, consumePacket env c p = some ({ c with phase := .tlsExchange, handshakeResponse := some hr }, some p) := by
  obtain ⟨hr, hconsume⟩ := hssl.consume hbody hplain
  refine ⟨hr, ?_⟩
  rw [consumePacket, accumulate, hphase]
  simp only [hconsume, Option.map_some, hskip]
  rfl

/-- The read that completes it: with whole packets behind it the connection panics, with a part of one it
keeps that part. -/
theorem readFrame_sslRequest (hc : AwaitsHandshakeResponse c) (hssl : SslRequest ssl) {held extra : Bytes}
    {r : SocketRead} (hread : held ++ r.chunk = ssl.toBytes ++ extra) :
    (extra ≠ [] → ∀ c' out, readFrame env (c.withResidual held) r = some (c', out) → c'.partialBytes = some extra) ∧
      (extra = [] → ∃ hr p, p.toBytes = ssl.toBytes ∧ readFrame env (c.withResidual held) r =
        some ({ c with phase := .tlsExchange, handshakeResponse := some hr }, [p])) := by
  have hsplit : frames.split (held ++ r.chunk) = (ssl :: (frames.split extra).1, (frames.split extra).2) := by
    rw [hread, frames.split_of_some (hssl.wellFormed.next extra)]
  have hconsumes : ∀ residual, ∀ p : Packet, p.body = ssl.2 → p.skip = false → ∃ hr,
      consumePacket env (c.withResidual residual) p =
        some ({ c.withResidual residual with phase := .tlsExchange, handshakeResponse := some hr }, some p) := by
    intro residual p hbody hskip
    exact consumePacket_sslRequest (by simp [hc.phase]) (by simp [Connection.withResidual_eq, hc.client]) hssl hbody hskip
  constructor
  · intro hextra c' out h
    obtain ⟨c₀, packets, outs, hmake, hrun, _⟩ := processIncomingFrame_some h
    obtain ⟨rfl, hps⟩ := makePackets_some hmake
    simp only [Connection.withResidual_partialBytes, Connection.withResidual_phase,
      Connection.withResidual_withResidual, hsplit] at hps hrun
    obtain ⟨p, ps, hp, htail, rfl⟩ := mapM_toPacket_cons hps
    obtain ⟨hbody, hskip⟩ := Frame.toPacket_fresh hp
    obtain ⟨hr, hstep⟩ := hconsumes (frames.split extra).2 p hbody hskip
    rw [run_cons hstep] at hrun
    obtain ⟨⟨c'', outs'⟩, hrest, he⟩ := Option.map_eq_some_iff.1 hrun
    cases he
    cases ps with
    | cons q qs =>
      -- `get_accumulator` has no accumulator for `TlsExchange`
      obtain ⟨_, _, _, hq, _⟩ := run_cons_some hrest
      cases hq
    | nil =>
      cases hrest
      have hnone : (frames.split extra).1 = [] := by
        cases hgs : (frames.split extra).1 with
        | nil => rfl
        | cons g gs =>
          rw [hgs] at htail
          obtain ⟨_, _, _, _, he⟩ := mapM_toPacket_cons htail
          cases he
      have hrender := render_frames extra
      rw [hnone, List.flatMap_nil, List.nil_append] at hrender
      simp [Connection.withResidual_eq, hrender, hextra]
  · rintro rfl
    rw [frames.split_nil] at hsplit
    obtain ⟨p, hp⟩ := Option.isSome_iff_exists.1
      ((Frame.toPacket_isSome c.phase).2 hssl.wellFormed.nonempty)
    obtain ⟨hbody, hskip⟩ := Frame.toPacket_fresh hp
    obtain ⟨hr, hstep⟩ := hconsumes [] p hbody hskip
    refine ⟨hr, p, Frame.toPacket_toBytes hp, ?_⟩
    have hmake : makePackets r.buf (c.withResidual held) r.readBytes = some (c.withResidual [], [p]) := by
      rw [makePackets_eq]
      simp [hsplit, hp, InOrder]
    rw [readFrame, processIncomingFrame, hmake]
    simp only [Option.bind_eq_bind, Option.bind_some, run_singleton, hstep, Option.map_some]
    simp [Connection.withResidual_eq, hc.partialBytes]

/-- The last of the reads brings the rest of the frame and, it may be, what is behind it. -/
theorem UpTo.last {reads : List SocketRead} {f : Frame} {rest unread : Bytes} (h : UpTo reads f rest unread) :
    ∃ before r extra more, reads = before ++ [r] ∧
      (before.map SocketRead.chunk).flatten ++ r.chunk = f.toBytes ++ extra ∧ rest = extra ++ unread ∧
      f.toBytes = (before.map SocketRead.chunk).flatten ++ more ∧ more ≠ [] := by
  have hpos : 0 < f.toBytes.length := by simp [Frame.toBytes]
  have hcomplete := h.complete
  have hne : reads ≠ [] := by
    rintro rfl
    rw [List.map_nil, List.flatten_nil, List.length_nil] at hcomplete
    omega
  obtain ⟨before, r, rfl⟩ : ∃ before r, reads = before ++ [r] :=
    ⟨reads.dropLast, reads.getLast hne, (List.dropLast_append_getLast hne).symm⟩
  have hfirst := h.first
  rw [List.dropLast_concat] at hfirst
  obtain ⟨extra, hextra, hunread⟩ : ∃ extra, ((before ++ [r]).map SocketRead.chunk).flatten = f.toBytes ++ extra ∧
      rest = extra ++ unread := by
    rcases List.append_eq_append_iff.1 h.stream with ⟨more, hmore, hrest⟩ | ⟨extra, hextra, hrest⟩
    · have hlen := congrArg List.length hmore
      rw [List.length_append] at hlen
      obtain rfl : more = [] := List.length_eq_zero_iff.1 (by omega)
      exact ⟨[], by simpa using hmore.symm, by simpa using hrest.symm⟩
    · exact ⟨extra, hextra, hrest⟩
  have hstream : (before.map SocketRead.chunk).flatten ++ r.chunk = f.toBytes ++ extra := by
    simpa using hextra
  obtain ⟨more, hmore⟩ : ∃ more, f.toBytes = (before.map SocketRead.chunk).flatten ++ more := by
    rcases List.append_eq_append_iff.1 hstream with ⟨more, hmore, _⟩ | ⟨more, hmore, _⟩
    · exact ⟨more, hmore⟩
    · have hlen := congrArg List.length hmore
      rw [List.length_append] at hlen
      omega
  refine ⟨before, r, extra, more, rfl, hstream, hunread, hmore, ?_⟩
  rintro rfl
  rw [hmore, List.append_nil] at hfirst
  omega

/-- **The TLS hand-over.** Of every SSLRequest, every stream behind it and every cut: the TLS layer is
handed all that follows the SSLRequest, and the framing has kept nothing of it, if and only if the read that
completes the SSLRequest ends with its last byte. -/
theorem tls_hand_over_iff (hc : AwaitsHandshakeResponse c) (hssl : SslRequest ssl) {rest unread : Bytes}
    {reads : List SocketRead} (hreads : UpTo reads ssl rest unread) :
    HandedOver env c ssl rest reads unread ↔ (reads.map SocketRead.chunk).flatten = ssl.toBytes := by
  obtain ⟨before, r, extra, more, rfl, hstream, hunread, hmore, hmore'⟩ := hreads.last
  have hextra : ((before ++ [r]).map SocketRead.chunk).flatten = ssl.toBytes ++ extra := by
    simpa using hstream
  obtain ⟨outs, hrun, houts⟩ := @run_readFrame_part env c ssl hssl.wellFormed before [] more
    (by simpa using hmore.symm) hmore'
  rw [List.nil_append, Connection.withResidual_nil hc.partialBytes] at hrun
  obtain ⟨hover, hexact⟩ := @readFrame_sslRequest env c ssl hc hssl _ extra r hstream
  rw [hextra]
  constructor
  · rintro ⟨c', outs', hall, _, _, hheld, _⟩
    obtain ⟨c₁, outs₁, outs₂, h₁, h₂, rfl⟩ := run_append_split hall
    rw [hrun] at h₁
    cases h₁
    obtain ⟨_, out, _, hlast, hnil, rfl⟩ := run_cons_some h₂
    cases hnil
    by_cases hextra' : extra = []
    · rw [hextra', List.append_nil]
    · rw [hover hextra' _ _ hlast] at hheld
      cases hheld
  · intro hends
    obtain rfl : extra = [] := by simpa using hends
    obtain ⟨hr, p, hp, hlast⟩ := hexact rfl
    refine ⟨{ c with phase := .tlsExchange, handshakeResponse := some hr }, outs ++ [[p]],
      run_concat_some hrun hlast, rfl, ?_, hc.partialBytes, ?_, ?_, hunread.symm⟩
    · rw [List.flatten_append, houts]
      simp [hp]
    · simp [switchToTls, hc.client, hc.server]
    · simp [switchToTls, hc.client, hc.server]

end

/-- CLIENT_PROTOCOL_41 and CLIENT_SSL. -/
def sampleSslRequest : Frame :=
  (⟨32, 1⟩, [0x00, 0x0a, 0, 0] ++ ([0, 0, 0, 1] ++ ([0x21] ++ (List.replicate 23 0 ++ []))))

theorem sampleSslRequest_sslRequest : SslRequest sampleSslRequest where
  size := rfl
  body := ⟨0x0a00, 0x01000000, 0x21, by decide, by decide, by rw [asBytes_fillerString]; decide⟩

/-- A new connection, the server's greeting having been sent. -/
def sampleGreeted : Connection := { Connection.new .plain .plain ∅ none none with phase := .handshakeResponse }

theorem sampleGreeted_awaits : AwaitsHandshakeResponse sampleGreeted := ⟨rfl, rfl, rfl, rfl⟩

/-- A ClientHello starts with `16 03 01`: in a read of its own it is left alone. -/
theorem tls_hand_over_iff_apart :
    HandedOver sampleEnv sampleGreeted sampleSslRequest [0x16, 3, 1] [.whole sampleSslRequest.toBytes] [0x16, 3, 1] :=
  (tls_hand_over_iff sampleGreeted_awaits sampleSslRequest_sslRequest
    ⟨by simp [whole_chunk], by simp [whole_chunk], by decide⟩).2 (by simp [whole_chunk])

/-- In the SSLRequest's read it is kept for the MySQL framing. -/
theorem tls_hand_over_coalesced :
    UpTo [.whole (sampleSslRequest.toBytes ++ [0x16, 3, 1])] sampleSslRequest [0x16, 3, 1] [] ∧
      ¬ HandedOver sampleEnv sampleGreeted sampleSslRequest [0x16, 3, 1]
        [.whole (sampleSslRequest.toBytes ++ [0x16, 3, 1])] [] := by
  refine ⟨⟨by simp [whole_chunk], by simp [whole_chunk], by decide⟩, ?_⟩
  rintro ⟨c', outs, hrun, _, _, hheld, _⟩
  have hkept : ∃ c' outs, run (readFrame sampleEnv) sampleGreeted
      [.whole (sampleSslRequest.toBytes ++ [0x16, 3, 1])] = some (c', outs) ∧ c'.partialBytes = some [0x16, 3, 1] :=
    ⟨_, _, rfl, rfl⟩
  obtain ⟨c'', outs', hrun', hheld'⟩ := hkept
  rw [hrun] at hrun'
  cases hrun'
  rw [hheld] at hheld'
  cases hheld'

end MocksySql
