import MocksySql.DiffLogHistory
import MocksySql.Lib.Threads
/-!
# The time to live

`get_cache_ttl` keeps what it makes of `DIFF_TTL` in a static. It reads the static under one lock and writes it under
another, and every connection that records an UPDATE calls it, in its own thread.

| here | there |
| --- | --- |
| `parseU64`               | `str::parse::<u64>` |
| `getDurationFromTtl`     | `get_duration_from_ttl` (`util/cache.rs:24`), in seconds |
| `TtlStage`, `getCacheTtl` | `get_cache_ttl` (`:7`), with a stage for each lock |

* `getCacheTtl_agrees` — all calls of all threads return the same.
* `history_eq` — which UPDATEs a history still has, by the steps at which they came and went.
* `live_updates_recent` — the diff log holds the UPDATEs of the last `DIFF_TTL` seconds.
-/

namespace MocksySql
open PartialRun Threads

/-! ## The static -/

def parseU64 (text : String) : Option UInt64 :=
  let digits := match text.toList with
    | '+' :: digits => digits
    | digits => digits
  let value := Nat.ofDigitChars 10 digits 0
  if digits ≠ [] ∧ digits.all Char.isDigit ∧ value < 2 ^ 64 then some (UInt64.ofNat value) else none

def getDurationFromTtl (ttl : UInt64) : UInt64 := if ttl = 0 then 10000000 else ttl

/-- What the environment says. -/
def configuredTtl (diffTtl : Option String) : UInt64 := getDurationFromTtl ((parseU64 (diffTtl.getD "0")).getD 0)

inductive TtlStage where
  | read
  | write (ttl : UInt64)

/-- A thread: how far its call is, and what its calls have returned. -/
structure TtlCaller where
  stage : TtlStage
  returned : List UInt64

def getCacheTtl (diffTtl : Option String) (caller : TtlCaller) (cacheTtl : Option UInt64) :
    Option (TtlCaller × Option UInt64) :=
  match caller.stage with
  | .read =>
    let ttl := match cacheTtl with
      | some ttlConfig => getDurationFromTtl ttlConfig
      | none => getDurationFromTtl ((parseU64 (diffTtl.getD "0")).getD 0)
    some ({ caller with stage := .write ttl }, cacheTtl)
  | .write ttl => some ({ stage := .read, returned := caller.returned ++ [ttl] }, some ttl)

def ttlStep (diffTtl : Option String) : Config ℕ (Option UInt64) TtlCaller → Label ℕ Empty →
    Option (Config ℕ (Option UInt64) TtlCaller × Unit) :=
  step (getCacheTtl diffTtl) fun e => nomatch e

/-- `CACHE_TTL` is `None`, and no thread has called. -/
def ttlStart : Config ℕ (Option UInt64) TtlCaller := ⟨none, fun _ => ⟨.read, []⟩⟩

/-- Some call returns this, in some interleaving of the threads. -/
def Returns (diffTtl : Option String) (ttl : UInt64) : Prop :=
  ∃ labels c outs i, run (ttlStep diffTtl) ttlStart labels = some (c, outs) ∧ ttl ∈ (c.threads i).returned

theorem getDurationFromTtl_ne_zero (ttl : UInt64) : getDurationFromTtl ttl ≠ 0 := by
  unfold getDurationFromTtl
  split_ifs with h
  · decide
  · exact h

theorem getDurationFromTtl_idem (ttl : UInt64) : getDurationFromTtl (getDurationFromTtl ttl) = getDurationFromTtl ttl :=
  if_neg (getDurationFromTtl_ne_zero ttl)

/-- Nothing else has been stored, is about to be, or has been returned. -/
structure Agrees (ttl : UInt64) (caller : TtlCaller) (cacheTtl : Option UInt64) : Prop where
  stored : ∀ v, cacheTtl = some v → v = ttl
  written : ∀ v, caller.stage = .write v → v = ttl
  returned : ∀ v ∈ caller.returned, v = ttl

theorem Agrees.step {diffTtl : Option String} {caller caller' : TtlCaller} {cacheTtl cacheTtl' : Option UInt64}
    (h : Agrees (configuredTtl diffTtl) caller cacheTtl) (hstep : getCacheTtl diffTtl caller cacheTtl = some (caller', cacheTtl')) :
    Agrees (configuredTtl diffTtl) caller' cacheTtl' := by
  obtain ⟨hstored, hwritten, hreturned⟩ := h
  unfold getCacheTtl at hstep
  split at hstep
  · cases hstep
    refine ⟨hstored, ?_, hreturned⟩
    intro v hv
    cases hv
    cases cacheTtl with
    | none => rfl
    | some ttl =>
      rw [hstored ttl rfl, configuredTtl]
      exact getDurationFromTtl_idem _
  · rename_i ttl hstage
    cases hstep
    obtain rfl := hwritten ttl hstage
    refine ⟨?_, ?_, ?_⟩
    · intro v hv
      cases hv
      rfl
    · intro v hv
      cases hv
    · intro v hv
      rcases List.mem_append.1 hv with hv | hv
      · exact hreturned v hv
      · exact List.mem_singleton.1 hv

/-- **All calls return the same**, however their threads interleave. -/
theorem getCacheTtl_agrees {diffTtl : Option String} {ttl : UInt64} (h : Returns diffTtl ttl) : ttl = configuredTtl diffTtl := by
  obtain ⟨labels, c, outs, i, hrun, hmem⟩ := h
  refine (outline (G := fun _ _ => True) (P := fun _ => Agrees (configuredTtl diffTtl)) ?_ ?_ ?_ ?_ ?_ hrun i).returned ttl hmem
  · intro i t s t' s' h _ hact
    exact h.step hact
  · intro i j t u s u' s' _ h hother _ hact
    exact ⟨(hother.step hact).stored, h.written, h.returned⟩
  · intro i t s e
    cases e
  · intro _ _ _ _
    trivial
  · intro i
    exact ⟨by simp [ttlStart], by simp [ttlStart], by simp [ttlStart]⟩

/-! ## Comings and goings -/

section
variable {κ : Type} {env : Env}

/-- The UPDATEs that a step records. -/
def stepUpdates (env : Env) (e : ProcessStep κ) : List RecordedUpdate :=
  match e.input with
  | .turn k read =>
    match e.before.client k with
    | .connected x => turnUpdates env x ⟨e.before.shared, read⟩
    | _ => []
  | _ => []

/-- The step is the expiry of this UPDATE. -/
def removes (e : ProcessStep κ) (r : RecordedUpdate) : Bool :=
  match e.input with
  | .expireUpdate tableName uuid => r.tableName = tableName ∧ r.uuid = uuid
  | _ => false

/-- All UPDATEs that have been recorded, each with the number of its step. -/
def recordings (env : Env) (steps : List (ProcessStep κ)) : List (ℕ × RecordedUpdate) :=
  steps.zipIdx.flatMap fun x => (stepUpdates env x.1).map (x.2, ·)

/-- A later step removes it. -/
def removedBy (steps : List (ProcessStep κ)) (r : ℕ × RecordedUpdate) : Prop :=
  ∃ x ∈ steps.zipIdx, r.1 < x.2 ∧ removes x.1 r.2

instance (steps : List (ProcessStep κ)) (r : ℕ × RecordedUpdate) : Decidable (removedBy steps r) :=
  inferInstanceAs (Decidable (∃ x ∈ steps.zipIdx, r.1 < x.2 ∧ removes x.1 r.2))

theorem historyStep_eq (log : List RecordedUpdate) (e : ProcessStep κ) :
    historyStep env log e = (log.filter fun r => ¬ removes e r) ++ stepUpdates env e := by
  obtain ⟨before, input, after, output⟩ := e
  cases input with
  | turn k read =>
    simp only [historyStep, stepUpdates, removes]
    cases before.client k <;> simp
  | expireUpdate tableName uuid => simp [historyStep, stepUpdates, removes]
  | accept | poll | publish | expireResponse => simp [historyStep, stepUpdates, removes]

theorem recordings_concat (steps : List (ProcessStep κ)) (e : ProcessStep κ) :
    recordings env (steps ++ [e]) = recordings env steps ++ (stepUpdates env e).map (steps.length, ·) := by
  simp [recordings, List.zipIdx_append]

theorem recordings_lt {steps : List (ProcessStep κ)} {r : ℕ × RecordedUpdate} (h : r ∈ recordings env steps) :
    r.1 < steps.length := by
  obtain ⟨x, hx, hr⟩ := List.mem_flatMap.1 h
  obtain ⟨_, _, rfl⟩ := List.mem_map.1 hr
  simpa using List.snd_lt_of_mem_zipIdx hx

theorem removedBy_concat {steps : List (ProcessStep κ)} {e : ProcessStep κ} {r : ℕ × RecordedUpdate} :
    removedBy (steps ++ [e]) r ↔ removedBy steps r ∨ r.1 < steps.length ∧ removes e r.2 := by
  simp [removedBy, List.zipIdx_append, or_and_right, exists_or]

theorem not_removedBy_last (steps : List (ProcessStep κ)) (r : RecordedUpdate) : ¬ removedBy steps (steps.length, r) := by
  rintro ⟨x, hx, hlt, -⟩
  have hbound := List.snd_lt_of_mem_zipIdx hx
  dsimp only at hlt
  omega

/-- **A history in closed form**: what was recorded and has not been removed since. -/
theorem history_eq (steps : List (ProcessStep κ)) :
    history env steps = ((recordings env steps).filter fun r => ¬ removedBy steps r).map (·.2) := by
  induction steps using List.reverseRecOn with
  | nil => rfl
  | append_singleton steps e ih =>
    rw [history, List.foldl_append]
    show historyStep env (history env steps) e = _
    rw [historyStep_eq, ih, recordings_concat, List.filter_append, List.map_append, List.filter_map, List.filter_filter]
    congr 1
    · congr 1
      refine List.filter_congr fun r hr => ?_
      simp [removedBy_concat, recordings_lt hr, Bool.and_comm]
    · rw [List.filter_eq_self.2, List.map_map]
      · simp [Function.comp_def]
      · intro r hr
        obtain ⟨_, _, rfl⟩ := List.mem_map.1 hr
        simp [removedBy_concat, not_removedBy_last]

theorem recordings_sorted (steps : List (ProcessStep κ)) : (recordings env steps).Pairwise fun r s => r.1 ≤ s.1 := by
  induction steps using List.reverseRecOn with
  | nil => exact .nil
  | append_singleton steps e ih =>
    rw [recordings_concat, List.pairwise_append]
    refine ⟨ih, List.pairwise_map.2 (List.pairwise_of_forall fun _ _ => le_rfl), ?_⟩
    intro r hr s hs
    obtain ⟨_, _, rfl⟩ := List.mem_map.1 hs
    exact (recordings_lt hr).le

theorem recordings_earlier (earlier later : List (ProcessStep κ)) :
    ∀ r ∈ recordings env earlier, r ∈ recordings env (earlier ++ later) := by
  intro r hr
  rw [recordings, List.zipIdx_append, List.flatMap_append]
  exact List.mem_append_left _ hr

/-! ## The last seconds -/

def isTurn (e : ProcessStep κ) : Bool :=
  match e.input with
  | .turn _ _ => true
  | _ => false

/-- `Duration::from_secs`, in nanoseconds. -/
def fromSecs (ttl : UInt64) : ℕ := 1000000000 * ttl.toNat

/-- What `ttl_cache` is for: an entry is there until its time to live is over, and nobody sees it later. Step `n` is at
time `clock n`, in nanoseconds, an `Instant` having seconds up to 2 ^ 63: an insert beyond panics, and nothing is
recorded. -/
structure OnTime (env : Env) (clock : ℕ → ℕ) (lifetime : RecordedUpdate → UInt64) (steps : List (ProcessStep κ)) : Prop where
  inRange : ∀ r ∈ recordings env steps, clock r.1 + fromSecs (lifetime r.2) < 1000000000 * 2 ^ 63
  notEarly : ∀ r ∈ recordings env steps, ∀ x ∈ steps.zipIdx, r.1 < x.2 → removes x.1 r.2 →
    clock r.1 + fromSecs (lifetime r.2) ≤ clock x.2
  notLate : ∀ r ∈ recordings env steps, ∀ x ∈ steps.zipIdx, r.1 < x.2 → isTurn x.1 →
    clock r.1 + fromSecs (lifetime r.2) ≤ clock x.2 → ∃ y ∈ steps.zipIdx, r.1 < y.2 ∧ y.2 < x.2 ∧ removes y.1 r.2

/-- What holds of all elements behind one that it holds of parts a list in two. -/
theorem eq_filter_append {α : Type} {p : α → Prop} [DecidablePred p] {l : List α} (h : l.Pairwise fun a b => p a → p b) :
    l = l.filter (fun a => ¬ p a) ++ l.filter fun a => p a := by
  induction l with
  | nil => rfl
  | cons a l ih =>
    obtain ⟨hall, h⟩ := List.pairwise_cons.1 h
    by_cases ha : p a
    · have hrest : l.filter (fun a => p a) = l := List.filter_eq_self.2 fun b hb => by simpa using hall b hb ha
      have hnone : l.filter (fun a => ¬ p a) = [] := List.filter_eq_nil_iff.2 fun b hb => by simpa using hall b hb ha
      rw [List.filter_cons_of_neg (by simpa using ha), List.filter_cons_of_pos (by simpa using ha), hrest, hnone, List.nil_append]
    · rw [List.filter_cons_of_pos (by simpa using ha), List.filter_cons_of_neg (by simpa using ha), List.cons_append, ← ih h]

/-- Who is still there when a turn is taken. -/
theorem OnTime.live {clock : ℕ → ℕ} {lifetime : RecordedUpdate → UInt64} {earlier later : List (ProcessStep κ)}
    {e : ProcessStep κ} (h : OnTime env clock lifetime (earlier ++ e :: later)) (hclock : Monotone clock) (hturn : isTurn e)
    {r : ℕ × RecordedUpdate} (hr : r ∈ recordings env earlier) :
    ¬ removedBy earlier r ↔ clock earlier.length < clock r.1 + fromSecs (lifetime r.2) := by
  have hmem := recordings_earlier earlier (e :: later) r hr
  rw [← not_le, not_iff_not]
  constructor
  · rintro ⟨x, hx, hlt, hremoves⟩
    have hbound := List.snd_lt_of_mem_zipIdx hx
    refine (h.notEarly r hmem x ?_ hlt hremoves).trans (hclock (by omega))
    rw [List.zipIdx_append]
    exact List.mem_append_left _ hx
  · intro hover
    have hnow : (e, earlier.length) ∈ (earlier ++ e :: later).zipIdx := by
      rw [List.mem_zipIdx_iff_getElem?]
      simp
    obtain ⟨y, hy, hlt, hbefore, hremoves⟩ := h.notLate r hmem (e, earlier.length) hnow (recordings_lt hr) hturn hover
    refine ⟨y, ?_, hlt, hremoves⟩
    rw [List.mem_zipIdx_iff_getElem?] at hy ⊢
    rwa [List.getElem?_append_left hbefore] at hy

/-- **The diff log is of the last seconds.** All calls of `get_cache_ttl` return what `DIFF_TTL` says. An entry of a TTL
cache is there until its time to live is over, which is what a call has returned to whoever has made it, and nobody sees
it later. Then in every turn of a process the entries of each table are the UPDATEs of it that were recorded less than
`DIFF_TTL` seconds ago, oldest first, and all that were recorded before these are gone. -/
theorem live_updates_recent [DecidableEq κ] {serde : Serde} (huuid : Function.Injective env.uuid)
    {vars : String → Option String} {p₀ : Process κ} {events : List (ProcessEvent κ)} (hstart : Process.start κ vars = some p₀)
    {clock : ℕ → ℕ} (hclock : Monotone clock) {lifetime : RecordedUpdate → UInt64}
    (hlifetime : ∀ r ∈ recordings env (transcript (processStep env serde) p₀ events), Returns (vars "DIFF_TTL") (lifetime r.2))
    (hontime : OnTime env clock lifetime (transcript (processStep env serde) p₀ events))
    {earlier later : List (ProcessStep κ)} {e : ProcessStep κ}
    (hsplit : transcript (processStep env serde) p₀ events = earlier ++ e :: later) (hturn : isTurn e) :
    (∀ ttl, Returns (vars "DIFF_TTL") ttl → ttl = configuredTtl (vars "DIFF_TTL") ∧ ttl ≠ 0) ∧
    ∃ old recent, recordings env earlier = old ++ recent ∧
      (∀ r ∈ old, clock r.1 + fromSecs (configuredTtl (vars "DIFF_TTL")) ≤ clock earlier.length) ∧
      (∀ r ∈ recent, clock earlier.length < clock r.1 + fromSecs (configuredTtl (vars "DIFF_TTL"))) ∧
      ∀ tableName, tableEntries e.before.shared.diff tableName = entriesOf tableName (recent.map (·.2)) := by
  obtain ⟨before, outs, hrun, hbefore, -⟩ := transcript_split hsplit
  have hrecalls := process_recalls huuid hstart hrun
  rw [hbefore] at hrecalls
  rw [hsplit] at hontime hlifetime
  have hlive : ∀ r ∈ recordings env earlier,
      (¬ removedBy earlier r ↔ clock earlier.length < clock r.1 + fromSecs (configuredTtl (vars "DIFF_TTL"))) := by
    intro r hr
    rw [← getCacheTtl_agrees (hlifetime r (recordings_earlier _ _ r hr))]
    exact hontime.live hclock hturn hr
  have hsorted : (recordings env earlier).Pairwise fun r s =>
      clock earlier.length < clock r.1 + fromSecs (configuredTtl (vars "DIFF_TTL")) →
        clock earlier.length < clock s.1 + fromSecs (configuredTtl (vars "DIFF_TTL")) := by
    refine (recordings_sorted earlier).imp fun {r s} hle hlt => ?_
    have := hclock hle
    omega
  refine ⟨fun ttl h => ?_, _, _, eq_filter_append hsorted, ?_, ?_, ?_⟩
  · rw [getCacheTtl_agrees h]
    exact ⟨rfl, getDurationFromTtl_ne_zero _⟩
  · intro r hr
    simpa using (List.mem_filter.1 hr).2
  · intro r hr
    simpa using (List.mem_filter.1 hr).2
  · intro tableName
    rw [hrecalls.entries, history_eq]
    congr 2
    exact List.filter_congr fun r hr => by simp [← hlive r hr]

end

/-! ## Three seconds -/

def threeSeconds (name : String) : Option String := if name = "DIFF_TTL" then some "3" else none

/-- An UPDATE, two seconds later another one, and a second later the first of them is gone. -/
def recentEvents : List (ProcessEvent Bool) :=
  openingEvents false ++ openingEvents true ++ [.turn true (updateTurn 21 "update t set a = 'b'").read, .publish [],
    .turn false (updateTurn 21 "update t set a = 'b'").read, .expireUpdate "t" (updateEnv.uuid 0)]

def recentTurn : ProcessEvent Bool := .turn true (updateTurn 21 "update t set a = 'b'").read

theorem threeSeconds_returns : Returns (threeSeconds "DIFF_TTL") 3 :=
  ⟨[.thread 0, .thread 1, .thread 0], _, _, 0, rfl, by decide⟩

theorem live_updates_recent_two : ∃ p₀ p p' outs output old recent, Process.start Bool threeSeconds = some p₀ ∧
    run (processStep updateEnv sampleSerde) p₀ recentEvents = some (p, outs) ∧
    processStep updateEnv sampleSerde p recentTurn = some (p', output) ∧
    recordings updateEnv (transcript (processStep updateEnv sampleSerde) p₀ recentEvents) = old ++ recent ∧
    tableEntries p.shared.diff "t" = entriesOf "t" (recent.map (·.2)) ∧
    tableEntries p.shared.diff "t" = [(updateEnv.uuid 1, none, (∅ : Assignments).insert "a" (some "b"))] := by
  have hruns : ∃ p₀ p p' outs output, Process.start Bool threeSeconds = some p₀ ∧
      run (processStep updateEnv sampleSerde) p₀ recentEvents = some (p, outs) ∧
      processStep updateEnv sampleSerde p recentTurn = some (p', output) ∧
      tableEntries p.shared.diff "t" = [(updateEnv.uuid 1, none, (∅ : Assignments).insert "a" (some "b"))] ∧
      OnTime updateEnv (1000000000 * ·) (fun _ => 3)
        (transcript (processStep updateEnv sampleSerde) p₀ (recentEvents ++ [recentTurn])) :=
    ⟨_, _, _, _, _, rfl, rfl, rfl, rfl, ⟨by decide +kernel, by decide +kernel, by decide +kernel⟩⟩
  obtain ⟨p₀, p, p', outs, output, hstart, hrun, hstep, hentries, hontime⟩ := hruns
  have hsplit : transcript (processStep updateEnv sampleSerde) p₀ (recentEvents ++ [recentTurn]) =
      transcript (processStep updateEnv sampleSerde) p₀ recentEvents ++ [⟨p, recentTurn, p', output⟩] := by
    rw [transcript_append hrun, transcript_cons hstep]
    rfl
  obtain ⟨-, old, recent, hrecordings, -, -, hlive⟩ := live_updates_recent
    (show Function.Injective updateEnv.uuid from sampleUuids_injective) hstart
    (fun m n hle => Nat.mul_le_mul_left _ hle) (fun _ _ => threeSeconds_returns) hontime hsplit rfl
  exact ⟨p₀, p, p', outs, output, old, recent, hstart, hrun, hstep, hrecordings, hlive "t", hentries⟩

end MocksySql
