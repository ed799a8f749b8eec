import MocksySql.DirectionSeparation
import MocksySql.DiffLogHistory
import MocksySql.Replay
/-!
# A process that neither intercepts nor replays

With `INTERCEPT_WRITES` off nothing is ever recorded, and without a replay log every byte comes from a socket. Then
the process is a relay.

* `run_transparent` — a run of the exchange loop writes what it reads, up to what it holds.
* `process_transparent` — so does every connection of a process, and each byte goes to the other peer.
-/

namespace MocksySql
open FieldDecode PartialRun

/-- What a turn writes, to whichever peer. -/
def Output.written (output : Output) : Bytes := output.toClient ++ output.toServer

/-- Nothing is recorded, and nothing replayed. -/
def Shared.Idle (shared : Shared) : Prop := shared.diff = ∅ ∧ shared.replay = none

/-! ## One turn -/

section
variable {env : Env} {x x' : Exchange} {turn : Turn} {output : Output} {shared : Shared}

/-- Without a replay log the server loop reads its socket. -/
theorem receive_server {read : SocketRead} (hlisten : x.listening = .server) (hreplay : x.connection.replay = none) :
    receive env x read = if read.readBytes = 0 then .closed else .bytes x.connection read .server := by
  have hsent : getResponseFromCache env x.connection read.buf.length = .notReplayed :=
    getResponseFromCache_sent (by simp [sendCommandToServer, hreplay]) _
  unfold receive
  simp only [hlisten, hsent]

/-- A frame of a quiet connection is written as it came. -/
theorem processIncomingFrame_quiet {c c' : Connection} {r : SocketRead} {packets : List Packet} (hc : Quiet c)
    (h : processIncomingFrame env r.buf c r.readBytes = some (c', packets)) :
    generateOutgoingFrame packets ++ c'.partialBytes.getD [] = c.partialBytes.getD [] ++ r.chunk ∧ Quiet c' := by
  have hframe : frameStep env c (c.diff, r) = some (c', packets) := h
  obtain ⟨hbytes, hout, -, hquiet⟩ := frameStep_steps hframe
  obtain ⟨hc', hsame⟩ := hquiet hc
  refine ⟨?_, hc'⟩
  rw [hout, List.filterMap_congr hsame, generateOutgoingFrame, List.filterMap_eq_map', List.flatMap_map]
  exact hbytes

/-- What is written goes to the peer that is not listened to. -/
theorem exchangeStep_across (hin : ¬ env.interceptWrites) (h : exchangeStep env x turn = some (x', output, shared)) :
    match x.listening with
    | .server => output.toServer = []
    | .client => output.toClient = [] := by
  cases exchangeStep_turned h with
  | waiting hwait =>
    have hlisten := receive_waiting hwait
    rw [show x.listening = .server from hlisten]
  | server hlisten _ _ _ => rw [hlisten]
  | answered hlisten hreceive hframe hi hresponse =>
    cases interceptIfEnabled_intercepts hi with
    | idle _ => cases hresponse
    | passed hon _ _ _ | answered hon _ _ _ _ _ _ => exact absurd hon hin
  | unanswered hlisten _ _ _ _ => rw [hlisten]

/-- **One turn** of a relay. -/
theorem exchangeStep_transparent (hin : ¬ env.interceptWrites) (hskip : x.connection.queryResponse.skippedPackets = 0)
    (hshared : turn.shared.Idle)
    (h : exchangeStep env x turn = some (x', output, shared)) :
    output.written ++ x'.connection.partialBytes.getD [] = x.connection.partialBytes.getD [] ++ turn.read.chunk ∧
      x'.connection.queryResponse.skippedPackets = 0 := by
  have hquiet : Quiet (x.connection.sharing turn.shared) := ⟨hshared.1, hskip⟩
  have hserver : x.listening = .server →
      receive env { x with connection := x.connection.sharing turn.shared } turn.read =
        if turn.read.readBytes = 0 then .closed else .bytes (x.connection.sharing turn.shared) turn.read .server :=
    fun hlisten => receive_server hlisten hshared.2
  cases exchangeStep_turned h with
  | waiting hwait =>
    have hlisten := receive_waiting hwait
    rw [hserver hlisten] at hwait
    split_ifs at hwait
  | server hlisten hreceive hframe hpush =>
    rw [hserver hlisten] at hreceive
    split_ifs at hreceive
    cases hreceive
    obtain ⟨hbytes, hc'⟩ := processIncomingFrame_quiet hquiet hframe
    rw [Output.written, List.append_nil]
    exact ⟨hbytes, hc'.skipped⟩
  | answered hlisten hreceive hframe hi hresponse =>
    cases interceptIfEnabled_intercepts hi with
    | idle _ => cases hresponse
    | passed hon _ _ _ | answered hon _ _ _ _ _ _ => exact absurd hon hin
  | @unanswered c c' _ _ _ _ hlisten hreceive hframe hi hnone =>
    cases interceptIfEnabled_intercepts hi with
    | passed hon _ _ _ | answered hon _ _ _ _ _ _ => exact absurd hon hin
    | idle _ =>
      obtain ⟨rfl, rfl, -⟩ := receive_client hreceive hlisten
      have hswitched : Quiet (switchIfAgreed env (x.connection.sharing turn.shared)) := by
        unfold switchIfAgreed
        split_ifs
        · exact ⟨hquiet.diff, hquiet.skipped⟩
        · exact hquiet
      obtain ⟨hbytes, hc'⟩ := processIncomingFrame_quiet hswitched hframe
      have hreplay : c'.replay = none := by
        rw [(processIncomingFrame_replay hframe).1, (switchIfAgreed_replay env _).1]
        exact hshared.2
      have hsend : sendCommandToServer c' = true := by simp [sendCommandToServer, hreplay]
      rw [switchIfAgreed_partialBytes] at hbytes
      rw [afterClientFrame_connection, Output.written, List.nil_append, hsend, if_pos rfl]
      exact ⟨hbytes, hc'.skipped⟩

/-- What a turn leaves held is no whole packet. -/
theorem exchangeStep_held (hheld : frames.next (x.connection.partialBytes.getD []) = none)
    (h : exchangeStep env x turn = some (x', output, shared)) : frames.next (x'.connection.partialBytes.getD []) = none := by
  rw [(@exchangeStep_leftover env x x' (List.replicate (x.connection.partialBytes.getD []).length .server) turn output
    shared h List.length_replicate).1]
  unfold leftover
  split
  · exact frames.next_residual _
  · exact hheld

/-! ## Runs -/

/-- **A run** writes the bytes it reads, in order, up to those of a packet that is not whole yet. -/
theorem run_transparent (hin : ¬ env.interceptWrites) {turns : List Turn} {x x' : Exchange} {outs : List (Output × Shared)}
    (hskip : x.connection.queryResponse.skippedPackets = 0)
    (hshared : ∀ t ∈ turns, t.shared.Idle)
    (hrun : run (exchangeStep env) x turns = some (x', outs)) :
    outs.flatMap (·.1.written) ++ x'.connection.partialBytes.getD [] =
        x.connection.partialBytes.getD [] ++ turns.flatMap (·.read.chunk) ∧
      x'.connection.queryResponse.skippedPackets = 0 := by
  induction turns generalizing x outs with
  | nil =>
    cases hrun
    simpa using hskip
  | cons turn turns ih =>
    obtain ⟨x₁, ⟨output, shared⟩, outs, hstep, hrest, rfl⟩ := run_cons_some hrun
    obtain ⟨hbytes, hskip₁⟩ := exchangeStep_transparent hin hskip (hshared turn (List.mem_cons_self ..)) hstep
    obtain ⟨hlater, hskip'⟩ := ih hskip₁ (fun t ht => hshared t (List.mem_cons_of_mem _ ht)) hrest
    refine ⟨?_, hskip'⟩
    rw [List.flatMap_cons, List.flatMap_cons, List.append_assoc, hlater, ← List.append_assoc, hbytes, List.append_assoc]

/-- A connection starts without held bytes. -/
theorem Initiated.transparent (hin : ¬ env.interceptWrites) {turns : List Turn} {x₀ x : Exchange}
    {outs : List (Output × Shared)} (hinit : Initiated x₀)
    (hshared : ∀ t ∈ turns, t.shared.Idle)
    (hrun : run (exchangeStep env) x₀ turns = some (x, outs)) :
    outs.flatMap (·.1.written) ++ x.connection.partialBytes.getD [] = turns.flatMap (·.read.chunk) ∧
      frames.next (x.connection.partialBytes.getD []) = none := by
  obtain ⟨diff, replay, kafka, rfl⟩ := hinit
  refine ⟨(run_transparent hin rfl hshared hrun).1, ?_⟩
  exact run_invariant (I := fun x => frames.next (x.connection.partialBytes.getD []) = none)
    (fun _ _ _ _ _ hheld hstep => exchangeStep_held hheld hstep) frames.next_nil hrun

end

/-! ## The process -/

theorem turnShared_off {env : Env} (hin : ¬ env.interceptWrites) (x : Exchange) (turn : Turn) :
    turnShared env x turn = turn.shared := by
  have hnone : askedAbout env x turn = none := by
    unfold askedAbout
    split
    · split
      · exact if_neg fun hasked => hin hasked.1
      · rfl
    · rfl
  rw [turnShared, hnone]

theorem Process.start_idle {κ : Type} {vars : String → Option String} {p₀ : Process κ} (hstart : Process.start κ vars = some p₀)
    (hreplay : vars "kafka_replay_response_enable" ≠ some "true") : p₀.shared.Idle := by
  simp only [Process.start, prepareAndRunKafkaConsumer, if_neg hreplay, Option.bind_eq_bind, Option.bind_eq_some_iff] at hstart
  obtain ⟨_, _, _, hnone, he⟩ := hstart
  cases hnone
  cases he
  exact ⟨rfl, rfl⟩

section
variable {κ : Type} [DecidableEq κ] {env : Env} {serde : Serde}

theorem processStep_idle (hin : ¬ env.interceptWrites) {p p' : Process κ} {event : ProcessEvent κ} {output : Output}
    (h : p.shared.Idle) (hstep : processStep env serde p event = some (p', output)) : p'.shared.Idle := by
  cases processStep_stepped hstep with
  | accepted _ | panicked | published => exact h
  | turned _ _ | ended _ _ =>
    rw [turnShared_off hin]
    exact h
  | polled hreplay _ _ =>
    rw [h.2] at hreplay
    cases hreplay
  | @updateExpired tableName uuid =>
    refine ⟨?_, h.2⟩
    simp [expireUpdate, h.1]
  | responseExpired =>
    refine ⟨h.1, ?_⟩
    simp [h.2]

/-- The turn of a connection that has not ended. -/
theorem ProcessStep.turnOf_stepped {k : κ} {e : ProcessStep κ} {turn : Turn} (hturn : ProcessStep.turnOf k e = some turn)
    (hstep : processStep env serde e.before e.input = some (e.after, e.output)) :
    turn.shared = e.before.shared ∧ ∃ x, e.before.client k = .connected x ∧
      ((∃ x' shared, exchangeStep env x turn = some (x', e.output, shared)) ∨ e.output = .none) := by
  obtain ⟨p, event, p', output⟩ := e
  cases event with
  | turn k' read =>
    dsimp only at hstep
    simp only [ProcessStep.turnOf] at hturn
    split_ifs at hturn with hk
    cases hturn
    subst hk
    cases processStep_stepped hstep with
    | turned hclient hexchange => exact ⟨rfl, _, hclient, .inl ⟨_, _, hexchange⟩⟩
    | ended hclient _ => exact ⟨rfl, _, hclient, .inr rfl⟩
  | _ => cases hturn

/-- What every step keeps of what is shared, every turn finds. -/
theorem turnsOf_invariant {I : Shared → Prop} (hstep : ∀ {p p' : Process κ} {event : ProcessEvent κ} {output : Output},
    I p.shared → processStep env serde p event = some (p', output) → I p'.shared) {p₀ : Process κ} (hstart : I p₀.shared)
    (events : List (ProcessEvent κ)) (k : κ) :
    ∀ turn ∈ turnsOf k (transcript (processStep env serde) p₀ events), I turn.shared := by
  intro turn hturn
  obtain ⟨e, he, hturn⟩ := List.mem_filterMap.1 hturn
  obtain ⟨-, hstep, hbefore, -⟩ := transcript_invariant (I := fun p => I p.shared) (fun _ _ _ _ _ h => hstep h) hstart e he
  rw [(ProcessStep.turnOf_stepped hturn hstep).1]
  exact hbefore

/-- What a turn of such a process finds. -/
theorem turnsOf_idle (hin : ¬ env.interceptWrites) {vars : String → Option String} {p₀ : Process κ}
    (hstart : Process.start κ vars = some p₀) (hreplay : vars "kafka_replay_response_enable" ≠ some "true")
    (events : List (ProcessEvent κ)) (k : κ) :
    ∀ turn ∈ turnsOf k (transcript (processStep env serde) p₀ events), turn.shared.Idle :=
  turnsOf_invariant (processStep_idle hin) (Process.start_idle hstart hreplay) events k

/-- **A process that neither intercepts nor replays is a relay.** In every run, with any number of connections taking
their turns in any order, what a connection has written is what it has read, byte for byte and in order, but for the
bytes of a packet that is not whole yet or, once it has ended, of these and of the read that ended it; and each turn
writes to the peer it does not listen to. -/
theorem process_transparent (hin : ¬ env.interceptWrites) {vars : String → Option String} {p₀ p : Process κ}
    {events : List (ProcessEvent κ)} {outs : List Output} (hstart : Process.start κ vars = some p₀)
    (hreplay : vars "kafka_replay_response_enable" ≠ some "true")
    (hrun : run (processStep env serde) p₀ events = some (p, outs)) (k : κ) :
    (∀ x, p.client k = .connected x →
      (outputsOf k (transcript (processStep env serde) p₀ events)).flatMap Output.written ++ x.connection.partialBytes.getD [] =
        (turnsOf k (transcript (processStep env serde) p₀ events)).flatMap (·.read.chunk) ∧
      frames.next (x.connection.partialBytes.getD []) = none) ∧
    (p.client k = .gone → ∃ earlier last held, turnsOf k (transcript (processStep env serde) p₀ events) = earlier ++ [last] ∧
      (outputsOf k (transcript (processStep env serde) p₀ events)).flatMap Output.written ++ held =
        earlier.flatMap (·.read.chunk) ∧ frames.next held = none) ∧
    ∀ e ∈ transcript (processStep env serde) p₀ events, ∀ x, e.before.client k = .connected x →
      (ProcessStep.turnOf k e).isSome →
      (match x.listening with
        | .server => e.output.toServer = []
        | .client => e.output.toClient = []) := by
  have hshared := @turnsOf_idle κ _ env serde hin vars p₀ hstart hreplay events k
  have hran := process_projects hstart hrun k
  refine ⟨fun x hclient => ?_, fun hgone => ?_, fun e he x hclient hturn => ?_⟩
  · rw [hclient] at hran
    generalize turnsOf k _ = turns, outputsOf k _ = outputs at hran hshared
    cases hran with
    | connected hinit hrun =>
      rw [List.flatMap_map]
      exact hinit.transparent hin hshared hrun
  · rw [hgone] at hran
    generalize turnsOf k _ = turns, outputsOf k _ = outputs at hran hshared
    cases hran with
    | @gone x₀ x earlier last outs hinit hrun hlast =>
      obtain ⟨hbytes, hheld⟩ := hinit.transparent hin (fun t ht => hshared t (List.mem_append_left _ ht)) hrun
      refine ⟨earlier, last, _, rfl, ?_, hheld⟩
      rw [← hbytes, List.flatMap_append, List.flatMap_map]
      simp [Output.none, Output.written]
  · obtain ⟨turn, hturn⟩ := Option.isSome_iff_exists.1 hturn
    obtain ⟨-, hstep⟩ := transcript_step e he
    obtain ⟨-, x', hclient', hexchange⟩ := ProcessStep.turnOf_stepped hturn hstep
    rw [hclient] at hclient'
    cases hclient'
    rcases hexchange with ⟨x', shared, hexchange⟩ | hnone
    · exact exchangeStep_across hin hexchange
    · rw [hnone]
      cases x.listening <;> rfl

end

def relayEnv : Env := { sampleEnv with interceptWrites := false }

/-- Two clients log in by turns, the first one with its answer in two pieces. -/
def relayedEvents : List (ProcessEvent Bool) :=
  [.accept false, .accept true, .turn false (.whole sampleGreeting), .turn true (.whole sampleGreeting),
    .turn false (.whole (sampleAnswer.take 9)), .turn true (.whole sampleAnswer), .turn false (.whole (sampleAnswer.drop 9)),
    .turn true (.whole sampleOk)]

theorem process_transparent_two : ∃ p₀ p outs x, Process.start Bool (fun _ => none) = some p₀ ∧
    run (processStep relayEnv sampleSerde) p₀ relayedEvents = some (p, outs) ∧ p.client false = .connected x ∧
    (outputsOf false (transcript (processStep relayEnv sampleSerde) p₀ relayedEvents)).flatMap Output.written ++
        x.connection.partialBytes.getD [] =
      (turnsOf false (transcript (processStep relayEnv sampleSerde) p₀ relayedEvents)).flatMap (·.read.chunk) ∧
    (outputsOf false (transcript (processStep relayEnv sampleSerde) p₀ relayedEvents)).flatMap Output.written =
      sampleGreeting ++ sampleAnswer := by
  have hrun : ∃ p₀ p outs x, Process.start Bool (fun _ => none) = some p₀ ∧
      run (processStep relayEnv sampleSerde) p₀ relayedEvents = some (p, outs) ∧ p.client false = .connected x ∧
      (outputsOf false (transcript (processStep relayEnv sampleSerde) p₀ relayedEvents)).flatMap Output.written =
        sampleGreeting ++ sampleAnswer :=
    ⟨_, _, _, _, rfl, rfl, rfl, rfl⟩
  obtain ⟨p₀, p, outs, x, hstart, hrun, hclient, hwritten⟩ := hrun
  have htransparent := (process_transparent (by decide) hstart (by decide) hrun false).1 x hclient
  exact ⟨p₀, p, outs, x, hstart, hrun, hclient, htransparent.1, hwritten⟩

end MocksySql
