import MocksySql.Lib.Stream
import MocksySql.StateHandler
/-!
# Framing: `make_packets` is a prefix-stable splitter

`nextFrame` takes one frame (header and body) off the front of a stream, `frames` packs it with the
two facts that make it a `ByteStream.Splitter`. `makePackets_eq` is the contract of `make_packets`:
it splits the residual and the read, types the frames in the current phase, and panics if one of
them is empty or the sequence numbers of this read do not follow each other.

* `makePackets_eq` — the contract above.
* `cut_independent` — the packets and the residual depend on the stream alone, not on its cut.
-/

namespace MocksySql
open FieldDecode PartialRun ByteStream

/-! ## Frames -/

abbrev Frame := PacketHeader × Bytes

/-- One whole frame and what follows it. -/
def nextFrame : Bytes → Option (Frame × Bytes)
  | b0 :: b1 :: b2 :: b3 :: rest =>
    let header := PacketHeader.fromBytes b0 b1 b2 b3
    if rest.length < header.size then none
    else some ((header, rest.take header.size), rest.drop header.size)
  | _ => none

def Frame.toBytes (f : Frame) : Bytes := f.1.toBytes ++ f.2

theorem nextFrame_eq_some {bytes rest : Bytes} {f : Frame} (h : nextFrame bytes = some (f, rest)) :
    bytes = f.toBytes ++ rest ∧ f.2.length = f.1.size ∧ f.1.size < 256 ^ 3 := by
  unfold nextFrame at h
  split at h
  · rename_i b0 b1 b2 b3 tail
    simp only at h
    split at h
    · cases h
    · rename_i hlen
      cases h
      refine ⟨?_, ?_, fromLe_lt [b0, b1, b2]⟩
      · simp only [Frame.toBytes, PacketHeader.toBytes_fromBytes, List.cons_append, List.nil_append,
          List.take_append_drop]
      · simp only [List.length_take]; omega
  · cases h

theorem nextFrame_toBytes {f : Frame} (hf : f.2.length = f.1.size) (hs : f.1.size < 256 ^ 3) (rest : Bytes) :
    nextFrame (f.toBytes ++ rest) = some (f, rest) := by
  obtain ⟨⟨size, seq⟩, body⟩ := f
  simp only at hf hs
  have hsize : fromLe (toLe 3 size) = size := fromLe_toLe_of_lt hs
  simp only [toLe] at hsize
  simp only [Frame.toBytes, PacketHeader.toBytes, toLe, List.cons_append, List.nil_append, nextFrame,
    PacketHeader.fromBytes, hsize]
  rw [if_neg (by simp; omega), ← hf, List.take_left, List.drop_left]

/-- `nextFrame` as a prefix-stable reader. -/
def frames : Splitter UInt8 Frame where
  next := nextFrame
  shorter h := by
    obtain ⟨rfl, _⟩ := nextFrame_eq_some h
    simp only [Frame.toBytes, List.length_append, PacketHeader.toBytes_length]
    omega
  stable ys h := by
    obtain ⟨rfl, hlen, hsize⟩ := nextFrame_eq_some h
    rw [List.append_assoc]
    exact nextFrame_toBytes hlen hsize _

/-- The frames taken off a stream and the residual, written back, are the stream. -/
theorem render_frames (bytes : Bytes) :
    (frames.split bytes).1.flatMap Frame.toBytes ++ (frames.split bytes).2 = bytes :=
  frames.render_split Frame.toBytes (fun _ _ _ h => (nextFrame_eq_some h).1) bytes

/-! ## `make_packets` -/

/-- A frame as the packet of a phase; `none` if the body is empty. -/
def Frame.toPacket (phase : Phase) (f : Frame) : Option Packet :=
  (getPacketType f.2 phase).map fun pType => { header := f.1, body := f.2, pType, skip := false }

theorem Frame.toPacket_isSome (phase : Phase) {f : Frame} : (f.toPacket phase).isSome ↔ f.2 ≠ [] := by
  unfold Frame.toPacket getPacketType
  cases f.2 with
  | nil => simp
  | cons b bs => simp only [List.head?_cons]; split_ifs <;> simp

theorem Frame.toPacket_toBytes {phase : Phase} {f : Frame} {p : Packet} (h : f.toPacket phase = some p) :
    p.toBytes = f.toBytes := by
  obtain ⟨_, _, rfl⟩ := Option.map_eq_some_iff.1 h
  rfl

theorem Frame.toPacket_fresh {phase : Phase} {f : Frame} {p : Packet} (h : f.toPacket phase = some p) :
    p.body = f.2 ∧ p.skip = false := by
  obtain ⟨_, _, rfl⟩ := Option.map_eq_some_iff.1 h
  exact ⟨rfl, rfl⟩

theorem mapM_toPacket_cons {phase : Phase} {f : Frame} {fs : List Frame} {packets : List Packet}
    (h : (f :: fs).mapM (Frame.toPacket phase) = some packets) :
    ∃ p ps, f.toPacket phase = some p ∧ fs.mapM (Frame.toPacket phase) = some ps ∧ packets = p :: ps := by
  simp only [List.mapM_cons, Option.pure_def, Option.bind_eq_bind, Option.bind_eq_some_iff] at h
  obtain ⟨p, hp, ps, hps, he⟩ := h
  exact ⟨p, ps, hp, hps, (Option.some.inj he).symm⟩

theorem fromBytes_eq (bytes : Bytes) (phase : Phase) :
    Packet.fromBytes bytes phase =
      match nextFrame bytes with
      | none => some (.error ())
      | some (f, _) => (f.toPacket phase).map .ok := by
  rcases bytes with _ | ⟨b0, _ | ⟨b1, _ | ⟨b2, _ | ⟨b3, rest⟩⟩⟩⟩
  iterate 4 rfl
  simp only [Packet.fromBytes, nextFrame]
  split_ifs
  · rfl
  · simp only [Frame.toPacket, Option.map_map]; rfl

/-- `parse_buffer` where `rest` is left of the buffer. -/
theorem parseBuffer_eq {buf rest : Bytes} {offset : Nat} (h : At buf offset rest) (phase : Phase) :
    parseBuffer buf offset phase =
      match nextFrame rest with
      | none => some (if rest = [] then .none else .partialData rest, offset)
      | some (f, _) => (f.toPacket phase).map fun p => (.packet p, offset + f.toBytes.length) := by
  unfold parseBuffer
  by_cases hr : rest = []
  · rw [if_pos (h.end_iff.2 hr), hr]; rfl
  · rw [if_neg (fun he => hr (h.end_iff.1 he)), h.sliceFrom, Option.bind_eq_bind, Option.bind_some, fromBytes_eq]
    cases hn : nextFrame rest with
    | none => simp [hr]
    | some r =>
      obtain ⟨f, rest'⟩ := r
      have hlen := (nextFrame_eq_some hn).2.1
      cases hp : f.toPacket phase with
      | none => simp [hp]
      | some p =>
        obtain ⟨_, _, rfl⟩ := Option.map_eq_some_iff.1 hp
        simp [hp, Frame.toBytes, hlen, Nat.add_assoc]

/-- The residual is kept for the next read; nothing is kept of a read that ends with a packet. -/
def Connection.withResidual (connection : Connection) (residual : Bytes) : Connection :=
  if residual = [] then connection.unsetPartialData else connection.setPartialData residual

theorem Connection.withResidual_eq (c : Connection) (residual : Bytes) :
    c.withResidual residual = { c with partialBytes := if residual = [] then none else some residual } := by
  unfold withResidual
  split_ifs <;> rfl

@[simp] theorem Connection.withResidual_partialBytes (c : Connection) (residual : Bytes) :
    (c.withResidual residual).partialBytes.getD [] = residual := by
  by_cases h : residual = [] <;> simp [withResidual_eq, h]

@[simp] theorem Connection.withResidual_phase (c : Connection) (residual : Bytes) :
    (c.withResidual residual).phase = c.phase := by
  rw [withResidual_eq]

@[simp] theorem Connection.withResidual_withResidual (c : Connection) (r r' : Bytes) :
    (c.withResidual r).withResidual r' = c.withResidual r' := by
  simp only [withResidual_eq]

/-- Between two packets nothing is held. -/
theorem Connection.withResidual_nil {c : Connection} (h : c.partialBytes = none) : c.withResidual [] = c := by
  rw [withResidual_eq, if_pos rfl, ← h]

/-- Do the packets of one read carry consecutive numbers? -/
def InOrder (headers : List PacketHeader) : Prop := headers.IsChain fun h h' => seqFollows h.seq h'.seq

instance (headers : List PacketHeader) : Decidable (InOrder headers) :=
  inferInstanceAs (Decidable (headers.IsChain fun h h' => seqFollows h.seq h'.seq))

theorem inOrder_last_cons (ret packets : List Packet) (p : Packet) :
    InOrder (ret.getLast?.toList.map (·.header) ++ p.header :: packets.map (·.header)) ↔
      verifyPacketOrder ret p ∧ InOrder (p.header :: packets.map (·.header)) := by
  unfold InOrder verifyPacketOrder
  cases ret.getLast? <;> simp

theorem makePacketsLoop_eq (chunk : Bytes) (connection : Connection) (rest : Bytes) :
    ∀ {fuel offset : Nat} {ret : List Packet}, rest.length < fuel →
      At (connection.partialBytes.getD [] ++ chunk) offset rest →
      makePacketsLoop chunk fuel connection offset ret =
        ((frames.split rest).1.mapM (Frame.toPacket connection.phase)).bind fun packets =>
          if InOrder ((ret.getLast?.toList ++ packets).map (·.header)) then
            some (connection.withResidual (frames.split rest).2, ret ++ packets) else none := by
  induction rest using frames.split_induction with
  | done rest h =>
    intro fuel offset ret hfuel hat
    obtain ⟨fuel, rfl⟩ : ∃ n, fuel = n + 1 := ⟨fuel - 1, by omega⟩
    have hn : nextFrame rest = none := h
    rw [makePacketsLoop, parseBuffer_eq hat, hn, frames.split_of_none h]
    have horder : InOrder (ret.getLast?.toList.map (·.header)) := by cases ret.getLast? <;> simp [InOrder]
    by_cases hr : rest = [] <;> simp [hr, horder, Connection.withResidual]
  | item rest f rest' h ih =>
    intro fuel offset ret hfuel hat
    obtain ⟨fuel, rfl⟩ : ∃ n, fuel = n + 1 := ⟨fuel - 1, by omega⟩
    have hn : nextFrame rest = some (f, rest') := h
    obtain ⟨rfl, _⟩ := nextFrame_eq_some hn
    have hshort := frames.shorter h
    rw [makePacketsLoop, parseBuffer_eq hat, hn, frames.split_of_some h]
    simp only [List.mapM_cons]
    cases hp : f.toPacket connection.phase with
    | none => rfl
    | some p =>
      have hnext := @ih fuel _ (ret ++ [p]) (by omega) hat.skip
      simp only [List.getLast?_append, List.getLast?_singleton, Option.some_or] at hnext
      by_cases hv : verifyPacketOrder ret p <;>
        simp [hv, hnext, inOrder_last_cons, Option.bind_assoc]

/-- **The contract of `make_packets`**: the residual and the read, split and typed; a panic if a
body is empty or the numbers are out of order. -/
theorem makePackets_eq (connection : Connection) (r : SocketRead) :
    makePackets r.buf connection r.readBytes =
      ((frames.split (connection.partialBytes.getD [] ++ r.chunk)).1.mapM (Frame.toPacket connection.phase)).bind
        fun packets =>
          if InOrder (packets.map (·.header)) then
            some (connection.withResidual (frames.split (connection.partialBytes.getD [] ++ r.chunk)).2, packets)
          else none := by
  rw [makePackets, r.slice_buf]
  exact makePacketsLoop_eq r.chunk connection _ (by simp) (At.start _)

theorem makePackets_some {connection c₀ : Connection} {r : SocketRead} {packets : List Packet}
    (h : makePackets r.buf connection r.readBytes = some (c₀, packets)) :
    c₀ = connection.withResidual (frames.split (connection.partialBytes.getD [] ++ r.chunk)).2 ∧
      (frames.split (connection.partialBytes.getD [] ++ r.chunk)).1.mapM (Frame.toPacket connection.phase) =
        some packets := by
  rw [makePackets_eq] at h
  obtain ⟨packets', hps, h⟩ := Option.bind_eq_some_iff.1 h
  split_ifs at h
  cases h
  exact ⟨rfl, hps⟩

theorem mapM_toPacket_toBytes {phase : Phase} {fs : List Frame} {packets : List Packet}
    (h : fs.mapM (Frame.toPacket phase) = some packets) :
    packets.flatMap Packet.toBytes = fs.flatMap Frame.toBytes ∧ ∀ p ∈ packets, p.skip = false := by
  induction fs generalizing packets with
  | nil => cases h; simp
  | cons f fs ih =>
    obtain ⟨p, ps, hp, hps, rfl⟩ := mapM_toPacket_cons h
    obtain ⟨hbytes, hskip⟩ := ih hps
    refine ⟨?_, ?_⟩
    · rw [List.flatMap_cons, List.flatMap_cons, hbytes, Frame.toPacket_toBytes hp]
    · intro q hq
      rcases List.mem_cons.1 hq with rfl | hq
      · exact (Frame.toPacket_fresh hp).2
      · exact hskip q hq

/-- The packets of a read, written back, then the residual, are the old residual and the read. -/
theorem makePackets_bytes {connection c₀ : Connection} {r : SocketRead} {packets : List Packet}
    (h : makePackets r.buf connection r.readBytes = some (c₀, packets)) :
    packets.flatMap Packet.toBytes ++ c₀.partialBytes.getD [] = connection.partialBytes.getD [] ++ r.chunk := by
  obtain ⟨rfl, hps⟩ := makePackets_some h
  rw [(mapM_toPacket_toBytes hps).1, connection.withResidual_partialBytes, render_frames]

/-! ## The cut does not matter -/

/-- One call of `make_packets`, on one read. -/
def readPackets (connection : Connection) (r : SocketRead) : Option (Connection × List Packet) :=
  makePackets r.buf connection r.readBytes

theorem mapM_toPacket (phase : Phase) {fs : List Frame} (h : ∀ f ∈ fs, f.2 ≠ []) :
    ∃ packets, fs.mapM (Frame.toPacket phase) = some packets ∧ packets.map (·.header) = fs.map (·.1) := by
  induction fs with
  | nil => exact ⟨[], rfl, rfl⟩
  | cons f fs ih =>
    obtain ⟨packets, hps, hh⟩ := ih fun g hg => h g (List.mem_cons_of_mem f hg)
    obtain ⟨p, hp⟩ := Option.isSome_iff_exists.1 ((Frame.toPacket_isSome phase).2 (h f (by simp)))
    have hheader : p.header = f.1 := by
      obtain ⟨_, _, rfl⟩ := Option.map_eq_some_iff.1 hp
      rfl
    refine ⟨p :: packets, ?_, by simp [hh, hheader]⟩
    simp [List.mapM_cons, hp, hps]

/-- Reads whose frames are in order, none of them empty, are fed to the splitter one by one. -/
theorem run_readPackets (connection : Connection) : ∀ (reads : List SocketRead) (residual : Bytes),
    (∀ fs ∈ (frames.feed residual (reads.map SocketRead.chunk)).1,
      (∀ f ∈ fs, f.2 ≠ []) ∧ InOrder (fs.map (·.1))) →
    ∃ outs, run readPackets (connection.withResidual residual) reads =
        some (connection.withResidual (frames.feed residual (reads.map SocketRead.chunk)).2, outs) ∧
      (frames.feed residual (reads.map SocketRead.chunk)).1.flatten.mapM (Frame.toPacket connection.phase) =
        some outs.flatten
  | [], residual, _ => ⟨[], rfl, rfl⟩
  | r :: reads, residual, h => by
    simp only [List.map_cons, Splitter.feed] at h ⊢
    obtain ⟨hne, horder⟩ := h _ (List.mem_cons_self ..)
    obtain ⟨packets, hps, hh⟩ := mapM_toPacket connection.phase hne
    obtain ⟨outs, hrun, houts⟩ :=
      run_readPackets connection reads _ fun fs hfs => h fs (List.mem_cons_of_mem _ hfs)
    have hstep : readPackets (connection.withResidual residual) r =
        some (connection.withResidual (frames.split (residual ++ r.chunk)).2, packets) := by
      rw [readPackets, makePackets_eq]
      simp [hps, hh, horder]
    refine ⟨packets :: outs, ?_, ?_⟩
    · rw [run_cons hstep, hrun]; rfl
    · rw [List.flatten_cons, List.flatten_cons, List.mapM_append, hps, houts]; rfl

/-- **Framing does not depend on how the stream is cut.** For a stream none of whose frames is
empty, every way of cutting it whose reads are in order gives the frames of the whole stream, typed
in the connection's phase, and leaves the residual of the whole stream. -/
theorem cut_independent (connection : Connection) (hnone : connection.partialBytes = none) (stream : Bytes)
    (hne : ∀ f ∈ (frames.split stream).1, f.2 ≠ []) :
    ∃ packets, (frames.split stream).1.mapM (Frame.toPacket connection.phase) = some packets ∧
      ∀ reads : List SocketRead, (reads.map SocketRead.chunk).flatten = stream →
        (∀ fs ∈ (frames.feed [] (reads.map SocketRead.chunk)).1, InOrder (fs.map (·.1))) →
        ∃ outs, run readPackets connection reads =
            some (connection.withResidual (frames.split stream).2, outs) ∧ outs.flatten = packets := by
  obtain ⟨packets, hps, _⟩ := mapM_toPacket connection.phase hne
  refine ⟨packets, hps, fun reads hstream horder => ?_⟩
  obtain ⟨hitems, hrest⟩ := frames.feed_eq_split (reads.map SocketRead.chunk) frames.next_nil
  rw [List.nil_append, hstream] at hitems hrest
  obtain ⟨outs, hrun, houts⟩ := run_readPackets connection reads [] fun fs hfs =>
    ⟨fun f hf => hne f (hitems ▸ List.mem_flatten_of_mem hfs hf), horder fs hfs⟩
  rw [Connection.withResidual_nil hnone, hrest] at hrun
  rw [hitems, hps] at houts
  exact ⟨outs, hrun, (Option.some.inj houts).symm⟩

/-- COM_PING, and a header cut short, in two reads. -/
theorem cut_independent_ping :
    ∃ outs, run readPackets (.new .plain .plain ∅ none none)
        [⟨[1, 0, 0], 3, by decide⟩, ⟨[0, 0x0e, 5, 0, 9], 4, by decide⟩] =
          some ((Connection.new .plain .plain ∅ none none).withResidual [5, 0], outs) ∧
      outs.flatten = [⟨⟨1, 0⟩, [0x0e], .other, false⟩] := by
  have hping : frames.next [1, 0, 0, 0, 0x0e, 5, 0] = some ((⟨1, 0⟩, [0x0e]), [5, 0]) := rfl
  have hrest : frames.next [5, 0] = none := rfl
  have hsplit : frames.split [1, 0, 0, 0, 0x0e, 5, 0] = ([(⟨1, 0⟩, [0x0e])], [5, 0]) := by
    rw [frames.split_of_some hping, frames.split_of_none hrest]
  obtain ⟨packets, hps, h⟩ := cut_independent (.new .plain .plain ∅ none none) rfl
    [1, 0, 0, 0, 0x0e, 5, 0] (by simp [hsplit])
  obtain ⟨outs, hrun, houts⟩ := h [⟨[1, 0, 0], 3, by decide⟩, ⟨[0, 0x0e, 5, 0, 9], 4, by decide⟩] rfl (by
    have hfirst : frames.split [1, 0, 0] = ([], [1, 0, 0]) := frames.split_of_none rfl
    simp [Splitter.feed, SocketRead.chunk, hfirst, hsplit, InOrder])
  rw [hsplit] at hps hrun
  exact ⟨outs, hrun, houts.trans (Option.some.inj hps).symm⟩

end MocksySql
