import Mathlib.Algebra.Order.Floor.Div
import MocksySql.Replay
/-!
# An entry in pieces

`get_response_from_cache_if_replay_enabled` (`connection_handler.rs:249`) copies what fits of a cached entry into its
caller's buffer and keeps the rest in `partial_replay_bytes`. The next calls go on with the rest, whatever the
cache has for the key by then.

* `cacheCall_kept` — one call.
* `delivered_of_toTransmit` — the calls that deliver what is left, by induction on its length.
* `chunked_replay_exact` — an entry is delivered as the first call found it.
-/

namespace MocksySql
open FieldDecode PartialRun

/-- One call with a buffer of `size` bytes; `none` where it returns nothing, or does not return. -/
def cacheCall (env : Env) (size : Nat) (c : Connection) (shared : Shared) : Option (Connection × Bytes) :=
  match getResponseFromCache env (c.sharing shared) size with
  | .cached c' bytes => some (c', bytes)
  | _ => none

/-- The steps of `n` calls; the `i`-th finds the process in the state `shared i`. -/
def cacheCalls (env : Env) (size : Nat) (c : Connection) (shared : Nat → Shared) (n : Nat) :
    List (Step Connection Shared Bytes) :=
  transcript (cacheCall env size) c ((List.range n).map shared)

/-- The `n`-th call is the first that leaves nothing over; the buffers returned are `bytes`, none of them empty. -/
structure DeliveredIn (env : Env) (size : Nat) (c : Connection) (shared : Nat → Shared) (bytes : Bytes) (n : Nat) :
    Prop where
  returns : ∃ c' pieces, run (cacheCall env size) c ((List.range n).map shared) = some (c', pieces) ∧
    c'.partialReplayBytes = none ∧ pieces.flatten = bytes ∧ ∀ piece ∈ pieces, 0 < piece.length ∧ piece.length ≤ size
  leftover : ∀ e ∈ (cacheCalls env size c shared n).dropLast, e.after.partialReplayBytes ≠ none

section
variable {env : Env} {size : Nat} {c c' : Connection} {shared : Nat → Shared} {piece rest : Bytes} {n : Nat}

theorem range_map_succ (shared : Nat → Shared) (n : Nat) :
    (List.range (n + 1)).map shared = shared 0 :: (List.range n).map fun i => shared (i + 1) := by
  rw [List.range_succ_eq_map, List.map_cons, List.map_map]
  rfl

theorem cacheCalls_succ (h : cacheCall env size c (shared 0) = some (c', piece)) (n : Nat) :
    cacheCalls env size c shared (n + 1) =
      ⟨c, shared 0, c', piece⟩ :: cacheCalls env size c' (fun i => shared (i + 1)) n := by
  rw [cacheCalls, range_map_succ, transcript_cons h]
  rfl

theorem DeliveredIn.last (h : cacheCall env size c (shared 0) = some (c', piece))
    (hpiece : 0 < piece.length ∧ piece.length ≤ size) (hnone : c'.partialReplayBytes = none) :
    DeliveredIn env size c shared piece 1 := by
  refine ⟨⟨c', [piece], ?_, hnone, by simp, by simpa using hpiece⟩, ?_⟩
  · rw [range_map_succ, run_cons h]
    rfl
  · rw [cacheCalls_succ h]
    intro e he
    cases he

theorem DeliveredIn.cons (h : cacheCall env size c (shared 0) = some (c', piece))
    (hpiece : 0 < piece.length ∧ piece.length ≤ size) (hsome : c'.partialReplayBytes ≠ none)
    (hrest : DeliveredIn env size c' (fun i => shared (i + 1)) rest n) :
    DeliveredIn env size c shared (piece ++ rest) (n + 1) := by
  obtain ⟨c'', pieces, hrun, hnone, hflatten, hpieces⟩ := hrest.returns
  refine ⟨⟨c'', piece :: pieces, ?_, hnone, by simp [hflatten], List.forall_mem_cons.2 ⟨hpiece, hpieces⟩⟩, ?_⟩
  · rw [range_map_succ, run_cons h, hrun]
    rfl
  · have htail : cacheCalls env size c' (fun i => shared (i + 1)) n ≠ [] := by
      intro hnil
      have hinputs := (transcript_of_run hrun).1
      rw [show transcript _ _ _ = [] from hnil] at hinputs
      rw [← hinputs] at hrun
      cases hrun
      exact hsome hnone
    rw [cacheCalls_succ h, List.dropLast_cons_of_ne_nil htail]
    exact List.forall_mem_cons.2 ⟨hsome, hrest.leftover⟩

/-! ## One call -/

theorem cachedEntry_replay (h : (cachedEntry env c).isSome) : c.replay.isSome := by
  cases hreplay : c.replay with
  | none => simp [cachedEntry, hreplay] at h
  | some _ => rfl

/-- With a replay log the last command decides. -/
theorem sendCommandToServer_congr (hreplay : c.replay.isSome) (hreplay' : c'.replay.isSome)
    (hcommand : c'.lastCommand = c.lastCommand) : sendCommandToServer c' = sendCommandToServer c := by
  obtain ⟨_, hreplay⟩ := Option.isSome_iff_exists.1 hreplay
  obtain ⟨_, hreplay'⟩ := Option.isSome_iff_exists.1 hreplay'
  simp only [sendCommandToServer, hreplay, hreplay', hcommand]
  cases c.lastCommand <;> rfl

theorem cacheCall_kept {entry : Bytes} {s : Shared} (hkept : sendCommandToServer (c.sharing s) = false)
    (hentry : cachedEntry env (c.sharing s) = some entry) : cacheCall env size c s =
      some ((c.sharing s).afterPiece entry size, (c.toTransmit entry).take size) := by
  rw [cacheCall, getResponseFromCache_kept hkept, hentry]
  rfl

/-! ## All calls -/

theorem ceilDiv_of_lt {a b : Nat} (hb : 0 < b) (h : b < a) : a ⌈/⌉ b = (a - b) ⌈/⌉ b + 1 := by
  rw [Nat.ceilDiv_eq_add_pred_div, Nat.ceilDiv_eq_add_pred_div, ← Nat.add_div_right _ hb]
  congr 1
  omega

theorem ceilDiv_of_le {a b : Nat} (ha : 0 < a) (h : a ≤ b) : a ⌈/⌉ b = 1 := by
  rw [Nat.ceilDiv_eq_add_pred_div]
  exact Nat.div_eq_of_lt_le (by omega) (by omega)

/-- What is left is delivered, whatever entries the calls after the first one find. -/
theorem delivered_of_toTransmit (hsize : 0 < size) {entry : Bytes}
    (hkept : ∀ i, sendCommandToServer (c.sharing (shared i)) = false)
    (hvalid : ∀ i, (cachedEntry env (c.sharing (shared i))).isSome)
    (hentry : cachedEntry env (c.sharing (shared 0)) = some entry) (hne : c.toTransmit entry ≠ []) :
    DeliveredIn env size c shared (c.toTransmit entry) ((c.toTransmit entry).length ⌈/⌉ size) := by
  induction hlength : (c.toTransmit entry).length using Nat.strong_induction_on generalizing c shared entry with
  | _ length ih =>
    have hpos : 0 < length := hlength ▸ List.length_pos_of_ne_nil hne
    have hcall := @cacheCall_kept env size c entry (shared 0) (hkept 0) hentry
    have hpiece : 0 < ((c.toTransmit entry).take size).length ∧ ((c.toTransmit entry).take size).length ≤ size := by
      rw [List.length_take, hlength]
      omega
    by_cases hmore : size < length
    · have hleft : (c.toTransmit entry).drop size ≠ [] := by
        rw [ne_eq, List.drop_eq_nil_iff]
        omega
      -- the next calls find the rest, and not the entry that is there by then
      have hheld : ((c.sharing (shared 0)).afterPiece entry size).partialReplayBytes =
          some ((c.toTransmit entry).drop size) := if_neg hleft
      have hnext : ∀ entry', ((c.sharing (shared 0)).afterPiece entry size).toTransmit entry' =
          (c.toTransmit entry).drop size := fun entry' => by rw [Connection.toTransmit, hheld]; rfl
      have hlength' : ((c.toTransmit entry).drop size).length = length - size := by rw [List.length_drop, hlength]
      obtain ⟨entry', hentry'⟩ := Option.isSome_iff_exists.1 (hvalid 1)
      have hrest := @ih (length - size) (by omega) ((c.sharing (shared 0)).afterPiece entry size)
        (fun i => shared (i + 1)) entry' (fun i => hkept (i + 1)) (fun i => hvalid (i + 1)) hentry'
        (by rw [hnext]; exact hleft) (by rw [hnext, hlength'])
      rw [hnext] at hrest
      have hall := DeliveredIn.cons hcall hpiece (by rw [hheld]; simp) hrest
      rwa [List.take_append_drop, ← ceilDiv_of_lt hsize hmore] at hall
    · have hall : (c.toTransmit entry).take size = c.toTransmit entry := List.take_of_length_le (by omega)
      have hnone : (c.toTransmit entry).drop size = [] := List.drop_eq_nil_of_le (by omega)
      have hlast := DeliveredIn.last hcall hpiece (if_pos hnone)
      rw [ceilDiv_of_le hpos (Nat.not_lt.1 hmore), ← hall]
      exact hlast

/-- **A cached entry is delivered exactly**, in pieces that fill the buffer but for the last, and as the first call
found it, though the entry may be another one at each of the others. -/
theorem chunked_replay_exact (hsize : 0 < size) {entry : Bytes} (hkept : sendCommandToServer (c.sharing (shared 0)) = false)
    (hvalid : ∀ i, (cachedEntry env (c.sharing (shared i))).isSome)
    (hentry : cachedEntry env (c.sharing (shared 0)) = some entry) (hne : entry ≠ [])
    (hnone : c.partialReplayBytes = none) : DeliveredIn env size c shared entry (entry.length ⌈/⌉ size) := by
  have hkept' : ∀ i, sendCommandToServer (c.sharing (shared i)) = false := fun i =>
    (sendCommandToServer_congr (cachedEntry_replay (hvalid 0)) (cachedEntry_replay (hvalid i)) rfl).trans hkept
  have hall : c.toTransmit entry = entry := by rw [Connection.toTransmit, hnone]; rfl
  have hdelivered := delivered_of_toTransmit hsize hkept' hvalid hentry (by rwa [hall])
  rwa [hall] at hdelivered

end

/-- The state at the `i`-th call: the entry of "do 2" is replaced behind the first one. -/
def refreshedShared : Nat → Shared
  | 0 => sampleShared
  | _ + 1 => { sampleShared with replay := some ⟨[("do 2", sampleEnv.base64Encode twoOks)]⟩ }

/-- Eleven bytes in a buffer of four. -/
theorem chunked_replay_refreshed : DeliveredIn sampleEnv 4
    { Connection.new .plain .plain ∅ (some sampleLog) none with lastCommand := some (queryCommand sampleEnv "do 2") }
    refreshedShared ownOk 3 :=
  chunked_replay_exact (by decide) (sampleShared_keeps rfl) (fun i => by cases i <;> rfl)
    (sampleLog_entry rfl rfl (by simp [sampleLog, TtlCache.get])) (by decide) rfl

end MocksySql
