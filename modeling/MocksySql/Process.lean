import MocksySql.UpdateRecording
/-!
# The process (`main.rs`)

`main` hands every client it accepts, and the diff log, the replay log and the producer that all of them share, to a
thread of its own; one more thread reads the Kafka topic. A step of the process is a step of one of them.

| here | there |
| --- | --- |
| `prepareKafkaProducerConfig`   | `prepare_kafka_producer_config` (`main.rs:106`) |
| `prepareAndRunKafkaConsumer`   | `prepare_and_run_kafka_consumer` (`:84`) |
| `Process.start`                | `main` up to its loop (`:37-50`), `GLOBAL_COUNTER` (`connection_handler.rs:37`) |
| `ProcessEvent.accept`          | a round of the loop over `listener.incoming()` (`main.rs:56-78`), and `initiate` (`connection_handler.rs:58`) |
| `ProcessEvent.turn`            | a turn of `exchange` of one connection |
| `ProcessEvent.poll`, `readMessage` | `spawn_kafka_read` on a message (`main.rs:134-146`) |
| `ProcessEvent.publish`         | another producer of the topic |
| `ProcessEvent.expireUpdate`, `expireResponse` | an entry's TTL runs out |
| `turnShared`                   | what a turn leaves of what is shared, also one that panics |

* `process_projects` — a connection of a process runs the exchange loop.
* `process_exchanges` — its steps are those of the run.

The topic is all that was ever sent to it; a message can be polled in any order, again, or never. A turn is one step:
`DiffLogRace` looks inside.
-/

namespace MocksySql
open FieldDecode PartialRun

/-! ## A turn and what is shared -/

/-- The connection and the packet that `is_write_query` is called with in a turn, if it is. -/
def askedAbout (env : Env) (x : Exchange) (turn : Turn) : Option (Connection × Packet) :=
  match x.listening, receive env { x with connection := x.connection.sharing turn.shared } turn.read with
  | .client, .bytes c r _ =>
    match processIncomingFrame env r.buf c r.readBytes with
    | some (c, [packet]) => if env.interceptWrites ∧ c.phase = .pendingResponse then some (c, packet) else none
    | _ => none
  | _, _ => none

/-- `is_write_query` records, and `get_write_response` draws its number, before anything can panic. -/
def turnShared (env : Env) (x : Exchange) (turn : Turn) : Shared :=
  match askedAbout env x turn with
  | none => turn.shared
  | some (c, packet) =>
    match isWriteQuery env c.lastCommand packet c.diff turn.shared.drawn with
    | none => turn.shared
    | some (isWrite, diff, drawn) =>
      { turn.shared with
        diff, drawn
        globalCounter := turn.shared.globalCounter + if isWrite ∧ c.clientFlag.isSome then 1 else 0 }

section
variable {env : Env} {x x' : Exchange} {turn : Turn} {output : Output} {shared : Shared}

theorem askedAbout_server (h : x.listening = .server) : askedAbout env x turn = none := by
  simp [askedAbout, h]

theorem switchIfAgreed_diff (env : Env) (c : Connection) : (switchIfAgreed env c).diff = c.diff := by
  unfold switchIfAgreed
  split_ifs <;> rfl

/-- In a round of the client loop: one packet, a pending response, and writes intercepted. -/
theorem askedAbout_client {c c' : Connection} {r : SocketRead} {origin : Origin} {packets : List Packet}
    (hlisten : x.listening = .client)
    (hreceive : receive env { x with connection := x.connection.sharing turn.shared } turn.read = .bytes c r origin)
    (hframe : processIncomingFrame env r.buf c r.readBytes = some (c', packets)) :
    askedAbout env x turn =
      if env.interceptWrites ∧ c'.phase = .pendingResponse then
        (match packets with
          | [packet] => some (c', packet)
          | _ => none)
      else none := by
  rw [hlisten] at hreceive
  simp only [askedAbout, hlisten, hreceive, hframe]
  rcases packets with _ | ⟨packet, _ | ⟨packet', packets⟩⟩ <;> simp

/-- **A turn that does not panic leaves the same.** -/
theorem exchangeStep_shared (h : exchangeStep env x turn = some (x', output, shared)) :
    shared = turnShared env x turn := by
  have hframed : ∀ {c c' : Connection} {r : SocketRead} {origin : Origin} {packets : List Packet} {i : Intercepted},
      x.listening = .client →
      receive env { x with connection := x.connection.sharing turn.shared } turn.read = .bytes c r origin →
      processIncomingFrame env r.buf c r.readBytes = some (c', packets) →
      interceptIfEnabled env c' packets turn.shared.drawn turn.shared.globalCounter = some i →
      { turn.shared with diff := i.connection.diff, drawn := i.drawn, globalCounter := i.globalCounter } =
        turnShared env x turn := by
    intro c c' r origin packets i hlisten hreceive hframe hi
    have hasked := askedAbout_client hlisten hreceive hframe
    cases interceptIfEnabled_intercepts hi with
    | idle hidle =>
      have hnone : askedAbout env x turn = none := by
        rw [hasked]
        rcases packets with _ | ⟨packet, _ | ⟨packet', packets⟩⟩
        · simp
        · exact if_neg fun hpending => hidle ⟨hpending.1, hpending.2, rfl⟩
        · simp
      have hdiff : c'.diff = turn.shared.diff := by
        rw [processIncomingFrame_diff hframe, (receive_client hreceive hlisten).1, switchIfAgreed_diff]
        rfl
      rw [turnShared, hnone, hdiff]
    | passed hin hphase hpackets hquery =>
      subst hpackets
      rw [if_pos ⟨hin, hphase⟩] at hasked
      simp [turnShared, hasked, hquery]
    | answered hin hphase hpackets hquery hcommand hflag hwritten =>
      subst hpackets
      rw [if_pos ⟨hin, hphase⟩] at hasked
      simp [turnShared, hasked, hquery, hflag]
  cases exchangeStep_turned h with
  | waiting hwait =>
    have hserver := receive_waiting hwait
    rw [turnShared, askedAbout_server (show x.listening = .server from hserver)]
  | server hserver _ _ _ => rw [turnShared, askedAbout_server hserver]
  | answered hlisten hreceive hframe hi _ | unanswered hlisten hreceive hframe hi _ =>
    exact hframed hlisten hreceive hframe hi

theorem turnShared_replay (env : Env) (x : Exchange) (turn : Turn) : (turnShared env x turn).replay = turn.shared.replay := by
  unfold turnShared
  split
  · rfl
  · split <;> rfl

end

/-! ## The topic -/

/-- `serde_json` on an entry. -/
structure Serde where
  toString : ReplayLogEntry → Option String
  fromStr : String → Option ReplayLogEntry

/-- The messages sent for a turn's entries (`connection_handler.rs:236-244`). -/
def messages (serde : Serde) (records : List ReplayLogEntry) : List Bytes :=
  records.filterMap fun entry => (serde.toString entry).map asBytes

/-- The replay log after a message; `none` is the `unwrap` of `String::from_utf8`. -/
def readMessage (serde : Serde) (map : TtlCache String String) (message : Bytes) : Option (TtlCache String String) :=
  (fromUtf8 message).map fun messageString =>
    match serde.fromStr messageString with
    | some entry => keepReplayLogEntry map entry
    | none => map

/-! ## The start -/

/-- The topic of the responses, if they are published; `none` is an `expect`. -/
def prepareKafkaProducerConfig (vars : String → Option String) : Option (Option String) :=
  if vars "kafka_replay_log_enable" = some "true" then do
    let _kafkaHost ← vars "KAFKA_HOST"
    let kafkaTopic ← vars "KAFKA_TOPIC"
    some (some kafkaTopic)
  else some none

def prepareAndRunKafkaConsumer (vars : String → Option String) : Option ReplayLog :=
  if vars "kafka_replay_response_enable" = some "true" then do
    let _kafkaHost ← vars "KAFKA_HOST"
    let _kafkaTopic ← vars "KAFKA_TOPIC"
    some (some .new)
  else some none

/-- A client of the process. -/
inductive Client where
  | waiting
  | connected (x : Exchange)
  | gone

structure Process (κ : Type) where
  client : κ → Client
  shared : Shared
  kafkaProducer : Option String
  topic : List Bytes
  /-- The consumer's thread has not panicked. -/
  consuming : Bool

def Process.start (κ : Type) (vars : String → Option String) : Option (Process κ) := do
  let kafkaProducer ← prepareKafkaProducerConfig vars
  let replay ← prepareAndRunKafkaConsumer vars
  some { client := fun _ => .waiting
         shared := { diff := ∅, replay, drawn := 0, globalCounter := 100 }
         kafkaProducer, topic := [], consuming := true }

/-! ## Steps -/

inductive ProcessEvent (κ : Type) where
  | accept (k : κ)
  | turn (k : κ) (read : SocketRead)
  | poll (message : Bytes)
  | publish (message : Bytes)
  | expireUpdate (tableName uuid : String)
  | expireResponse (command : String)

def Output.none : Output := { toClient := [], toServer := [], records := [] }

def TtlCache.expire {K V : Type} [DecidableEq K] (c : TtlCache K V) (k : K) : TtlCache K V := ⟨c.entries.filter (·.1 ≠ k)⟩

def expireUpdate (map : StateDiffLog) (tableName uuid : String) : StateDiffLog :=
  match map.lookup tableName with
  | none => map
  | some stateDifference => map.insert tableName (stateDifference.expire uuid)

/-- `Connection::new` on the sockets of a client and of the server, and `exchange` on it. -/
def Process.initiate {κ : Type} (p : Process κ) : Exchange :=
  .start (.new .plain .plain p.shared.diff p.shared.replay p.kafkaProducer)

/-- `none` where there is no such step: a client is accepted once, and the consumer polls what is in the topic. -/
def processStep {κ : Type} [DecidableEq κ] (env : Env) (serde : Serde) (p : Process κ) :
    ProcessEvent κ → Option (Process κ × Output)
  | .accept k =>
    match p.client k with
    | .waiting => some ({ p with client := Function.update p.client k (.connected p.initiate) }, .none)
    | _ => none
  | .turn k read =>
    match p.client k with
    | .connected x =>
      match exchangeStep env x ⟨p.shared, read⟩ with
      | some (x', output, shared) =>
        some ({ p with client := Function.update p.client k (.connected x'), shared
                       topic := p.topic ++ messages serde output.records }, output)
      | none =>
        some ({ p with client := Function.update p.client k .gone, shared := turnShared env x ⟨p.shared, read⟩ }, .none)
    | _ => none
  | .poll message =>
    match p.shared.replay with
    | some map =>
      if p.consuming ∧ message ∈ p.topic then
        match readMessage serde map message with
        | some map => some ({ p with shared := { p.shared with replay := some map } }, .none)
        | none => some ({ p with consuming := false }, .none)
      else none
    | none => none
  | .publish message => some ({ p with topic := p.topic ++ [message] }, .none)
  | .expireUpdate tableName uuid =>
    some ({ p with shared := { p.shared with diff := expireUpdate p.shared.diff tableName uuid } }, .none)
  | .expireResponse command =>
    some ({ p with shared := { p.shared with replay := p.shared.replay.map (·.expire command) } }, .none)

abbrev ProcessStep (κ : Type) := Step (Process κ) (ProcessEvent κ) Output

section
variable {κ : Type} [DecidableEq κ] {env : Env} {serde : Serde} {p p' : Process κ} {event : ProcessEvent κ} {output : Output}

/-- All that a step of the process can be. -/
inductive Stepped (env : Env) (serde : Serde) (p : Process κ) : ProcessEvent κ → Process κ → Output → Prop
  | accepted {k : κ} : p.client k = .waiting →
      Stepped env serde p (.accept k) { p with client := Function.update p.client k (.connected p.initiate) } .none
  | turned {k : κ} {read : SocketRead} {x x' : Exchange} {output : Output} : p.client k = .connected x →
      exchangeStep env x ⟨p.shared, read⟩ = some (x', output, turnShared env x ⟨p.shared, read⟩) →
      Stepped env serde p (.turn k read)
        { p with client := Function.update p.client k (.connected x'), shared := turnShared env x ⟨p.shared, read⟩
                 topic := p.topic ++ messages serde output.records } output
  | ended {k : κ} {read : SocketRead} {x : Exchange} : p.client k = .connected x →
      exchangeStep env x ⟨p.shared, read⟩ = none →
      Stepped env serde p (.turn k read)
        { p with client := Function.update p.client k .gone, shared := turnShared env x ⟨p.shared, read⟩ } .none
  | polled {message : Bytes} {map map' : TtlCache String String} : p.shared.replay = some map → message ∈ p.topic →
      readMessage serde map message = some map' →
      Stepped env serde p (.poll message) { p with shared := { p.shared with replay := some map' } } .none
  | panicked {message : Bytes} : Stepped env serde p (.poll message) { p with consuming := false } .none
  | published {message : Bytes} : Stepped env serde p (.publish message) { p with topic := p.topic ++ [message] } .none
  | updateExpired {tableName uuid : String} :
      Stepped env serde p (.expireUpdate tableName uuid)
        { p with shared := { p.shared with diff := expireUpdate p.shared.diff tableName uuid } } .none
  | responseExpired {command : String} :
      Stepped env serde p (.expireResponse command)
        { p with shared := { p.shared with replay := p.shared.replay.map (·.expire command) } } .none

theorem processStep_stepped (h : processStep env serde p event = some (p', output)) : Stepped env serde p event p' output := by
  cases event with
  | accept k =>
    rw [processStep] at h
    split at h
    · rename_i hclient; cases h; exact .accepted hclient
    · cases h
  | turn k read =>
    rw [processStep] at h
    split at h
    · rename_i x hclient
      split at h
      · rename_i hstep
        cases h
        obtain rfl := exchangeStep_shared hstep
        exact .turned hclient hstep
      · rename_i hstep; cases h; exact .ended hclient hstep
    · cases h
  | poll message =>
    rw [processStep] at h
    split at h
    · rename_i map hreplay
      split_ifs at h with hpoll
      split at h
      · rename_i hread; cases h; exact .polled hreplay hpoll.2 hread
      · cases h; exact .panicked
    · cases h
  | publish message => cases h; exact .published
  | expireUpdate tableName uuid => cases h; exact .updateExpired
  | expireResponse command => cases h; exact .responseExpired

end

/-! ## One connection of the process -/

/-- The turn that a step is of connection `k`, if it is one. -/
def ProcessStep.turnOf {κ : Type} [DecidableEq κ] (k : κ) (e : ProcessStep κ) : Option Turn :=
  match e.input with
  | .turn k' read => if k' = k then some ⟨e.before.shared, read⟩ else none
  | _ => none

def turnsOf {κ : Type} [DecidableEq κ] (k : κ) (steps : List (ProcessStep κ)) : List Turn :=
  steps.filterMap (ProcessStep.turnOf k)

/-- The turn of `k` that a step is, as a step of its exchange loop, if it does not end it. -/
def ProcessStep.exchangeOf {κ : Type} [DecidableEq κ] (k : κ) (e : ProcessStep κ) :
    Option (Step Exchange Turn (Output × Shared)) :=
  match ProcessStep.turnOf k e, e.before.client k, e.after.client k with
  | some turn, .connected x, .connected x' => some ⟨x, turn, x', e.output, e.after.shared⟩
  | _, _, _ => none

def exchangesOf {κ : Type} [DecidableEq κ] (k : κ) (steps : List (ProcessStep κ)) :
    List (Step Exchange Turn (Output × Shared)) :=
  steps.filterMap (ProcessStep.exchangeOf k)

/-- What the turns of `k` write and log. -/
def outputsOf {κ : Type} [DecidableEq κ] (k : κ) (steps : List (ProcessStep κ)) : List Output :=
  (steps.filter fun e => (ProcessStep.turnOf k e).isSome).map (·.output)

/-- The exchange loop as it starts on the two sockets, wherever the logs are by then. -/
def Initiated (x : Exchange) : Prop := ∃ diff replay kafka, x = .start (.new .plain .plain diff replay kafka)

/-- These turns of the exchange loop, with these outputs, made this of a client. -/
inductive Ran (env : Env) : Client → List Turn → List Output → Prop
  | waiting : Ran env .waiting [] []
  | connected {x₀ x : Exchange} {turns : List Turn} {outs : List (Output × Shared)} : Initiated x₀ →
      run (exchangeStep env) x₀ turns = some (x, outs) → Ran env (.connected x) turns (outs.map (·.1))
  | gone {x₀ x : Exchange} {turns : List Turn} {last : Turn} {outs : List (Output × Shared)} : Initiated x₀ →
      run (exchangeStep env) x₀ turns = some (x, outs) → exchangeStep env x last = none →
      Ran env .gone (turns ++ [last]) (outs.map (·.1) ++ [.none])

section
variable {κ : Type} [DecidableEq κ] {env : Env} {serde : Serde}

theorem turnsOf_concat (k : κ) (past : List (ProcessStep κ)) (e : ProcessStep κ) :
    turnsOf k (past ++ [e]) = turnsOf k past ++ (ProcessStep.turnOf k e).toList := by
  rw [turnsOf, List.filterMap_append]
  rfl

theorem outputsOf_concat (k : κ) (past : List (ProcessStep κ)) (e : ProcessStep κ) :
    outputsOf k (past ++ [e]) = outputsOf k past ++ if (ProcessStep.turnOf k e).isSome then [e.output] else [] := by
  rw [outputsOf, List.filter_append, List.map_append]
  congr 1
  by_cases h : (ProcessStep.turnOf k e).isSome <;> simp [h]

/-- A step of the process is a turn of a connection, or nothing to it. -/
theorem Ran.step {k : κ} {past : List (ProcessStep κ)} {p p' : Process κ} {event : ProcessEvent κ} {output : Output}
    (h : Ran env (p.client k) (turnsOf k past) (outputsOf k past))
    (hstep : processStep env serde p event = some (p', output)) :
    Ran env (p'.client k) (turnsOf k (past ++ [⟨p, event, p', output⟩])) (outputsOf k (past ++ [⟨p, event, p', output⟩])) := by
  rw [turnsOf_concat, outputsOf_concat]
  cases processStep_stepped hstep with
  | @accepted k' hwaiting =>
    by_cases hk : k = k'
    · subst hk
      rw [hwaiting] at h
      generalize turnsOf k past = turns, outputsOf k past = outs at h
      cases h
      have hstart : Ran env (.connected p.initiate) [] [] := @Ran.connected env _ _ [] [] ⟨_, _, _, rfl⟩ rfl
      simpa [ProcessStep.turnOf] using hstart
    · simpa [ProcessStep.turnOf, Function.update_of_ne hk] using h
  | @turned k' read x x' _ hclient hturn =>
    by_cases hk : k = k'
    · subst hk
      rw [hclient] at h
      generalize turnsOf k past = turns, outputsOf k past = outs at h
      cases h with
      | connected hinit hrun =>
        simpa [ProcessStep.turnOf] using Ran.connected hinit (run_concat_some hrun hturn)
    · simpa [ProcessStep.turnOf, Function.update_of_ne hk, Ne.symm hk] using h
  | @ended k' read x hclient hend =>
    by_cases hk : k = k'
    · subst hk
      rw [hclient] at h
      generalize turnsOf k past = turns, outputsOf k past = outs at h
      cases h with
      | connected hinit hrun => simpa [ProcessStep.turnOf] using Ran.gone hinit hrun hend
    · simpa [ProcessStep.turnOf, Function.update_of_ne hk, Ne.symm hk] using h
  | polled _ _ _ | panicked | published | updateExpired | responseExpired => simpa [ProcessStep.turnOf] using h

omit [DecidableEq κ] in
theorem start_client {vars : String → Option String} {p₀ : Process κ} (hstart : Process.start κ vars = some p₀) (k : κ) :
    p₀.client k = .waiting := by
  simp only [Process.start, Option.bind_eq_bind, Option.bind_eq_some_iff] at hstart
  obtain ⟨_, _, _, _, he⟩ := hstart
  cases he
  rfl

/-- **Every connection of a process runs the exchange loop**: whatever the others do in between, its turns, each with
what is shared as it is then, are a run from a new connection, and the last of them ends it if it has ended. -/
theorem process_projects {vars : String → Option String} {p₀ p : Process κ} {events : List (ProcessEvent κ)}
    {outs : List Output} (hstart : Process.start κ vars = some p₀)
    (hrun : run (processStep env serde) p₀ events = some (p, outs)) (k : κ) :
    Ran env (p.client k) (turnsOf k (transcript (processStep env serde) p₀ events))
      (outputsOf k (transcript (processStep env serde) p₀ events)) := by
  have hwaiting : Ran env (p₀.client k) (turnsOf k ([] : List (ProcessStep κ))) (outputsOf k ([] : List (ProcessStep κ))) := by
    rw [start_client hstart]
    exact .waiting
  exact run_history (J := fun past p => Ran env (p.client k) (turnsOf k past) (outputsOf k past)) (C := fun _ _ => True)
    (fun _ _ _ _ _ h hstep _ => h.step hstep) hwaiting (fun _ _ _ _ => trivial) hrun

/-! ### Its steps -/

theorem exchangesOf_concat (k : κ) (past : List (ProcessStep κ)) (e : ProcessStep κ) :
    exchangesOf k (past ++ [e]) = exchangesOf k past ++ (ProcessStep.exchangeOf k e).toList := by
  rw [exchangesOf, List.filterMap_append]
  rfl

/-- A step that is no turn of `k` is none of its exchange loop. -/
theorem exchangeOf_none {k : κ} {e : ProcessStep κ} (h : ProcessStep.turnOf k e = none) :
    ProcessStep.exchangeOf k e = none := by
  rw [ProcessStep.exchangeOf, h]

theorem exchangeOf_gone {k : κ} {e : ProcessStep κ} (h : e.after.client k = .gone) : ProcessStep.exchangeOf k e = none := by
  rw [ProcessStep.exchangeOf, h]
  split
  · rename_i hconnected
    cases hconnected
  · rfl

theorem exchangeOf_turn {k : κ} {read : SocketRead} {p p' : Process κ} {output : Output} {x x' : Exchange}
    (hclient : p.client k = .connected x) (hclient' : p'.client k = .connected x') :
    ProcessStep.exchangeOf k ⟨p, .turn k read, p', output⟩ =
      some ⟨x, ⟨p.shared, read⟩, x', output, p'.shared⟩ := by
  simp [ProcessStep.exchangeOf, ProcessStep.turnOf, hclient, hclient']

/-- These are the steps of a run from the start on; the turn that ends it is none of them. -/
inductive Followed (env : Env) : Client → List Turn → List (Step Exchange Turn (Output × Shared)) → Prop
  | waiting : Followed env .waiting [] []
  | connected {x₀ x : Exchange} {turns : List Turn} {outs : List (Output × Shared)} : Initiated x₀ →
      run (exchangeStep env) x₀ turns = some (x, outs) →
      Followed env (.connected x) turns (transcript (exchangeStep env) x₀ turns)
  | gone {x₀ : Exchange} {turns : List Turn} : Initiated x₀ →
      Followed env .gone turns (transcript (exchangeStep env) x₀ turns)

theorem Followed.step {k : κ} {past : List (ProcessStep κ)} {p p' : Process κ} {event : ProcessEvent κ} {output : Output}
    (h : Followed env (p.client k) (turnsOf k past) (exchangesOf k past))
    (hstep : processStep env serde p event = some (p', output)) :
    Followed env (p'.client k) (turnsOf k (past ++ [⟨p, event, p', output⟩]))
      (exchangesOf k (past ++ [⟨p, event, p', output⟩])) := by
  have haside : ProcessStep.turnOf k ⟨p, event, p', output⟩ = none → p'.client k = p.client k →
      Followed env (p'.client k) (turnsOf k (past ++ [⟨p, event, p', output⟩]))
        (exchangesOf k (past ++ [⟨p, event, p', output⟩])) := by
    intro hturn hclient
    rw [turnsOf_concat, exchangesOf_concat, exchangeOf_none hturn, hturn, hclient]
    simpa using h
  cases processStep_stepped hstep with
  | @accepted k' hwaiting =>
    by_cases hk : k = k'
    · subst hk
      rw [turnsOf_concat, exchangesOf_concat, exchangeOf_none rfl]
      rw [hwaiting] at h
      generalize turnsOf k past = turns, exchangesOf k past = steps at h
      cases h
      have hstart : Followed env (.connected p.initiate) [] [] := @Followed.connected env _ _ [] [] ⟨_, _, _, rfl⟩ rfl
      simpa [ProcessStep.turnOf] using hstart
    · exact haside rfl (Function.update_of_ne hk _ _)
  | @turned k' read x x' _ hclient hturn =>
    by_cases hk : k = k'
    · subst hk
      have hclient' := Function.update_self k (Client.connected x') p.client
      rw [turnsOf_concat, exchangesOf_concat, exchangeOf_turn hclient hclient']
      rw [hclient] at h
      generalize turnsOf k past = turns, exchangesOf k past = steps at h
      cases h with
      | connected hinit hrun =>
        have hnext := Followed.connected hinit (run_concat_some hrun hturn)
        rw [transcript_append hrun, transcript_cons hturn] at hnext
        simpa [ProcessStep.turnOf, transcript] using hnext
    · exact haside (by simp [ProcessStep.turnOf, Ne.symm hk]) (Function.update_of_ne hk _ _)
  | @ended k' read x hclient hend =>
    by_cases hk : k = k'
    · subst hk
      have hclient' := Function.update_self k Client.gone p.client
      rw [turnsOf_concat, exchangesOf_concat, exchangeOf_gone hclient']
      rw [hclient] at h
      generalize turnsOf k past = turns, exchangesOf k past = steps at h
      cases h with
      | @connected x₀ _ _ _ hinit hrun =>
        have hlast := @Followed.gone env x₀ (turns ++ [⟨p.shared, read⟩]) hinit
        rw [transcript_append hrun, show transcript (exchangeStep env) x [⟨p.shared, read⟩] = [] by rw [transcript, hend]] at hlast
        simpa [ProcessStep.turnOf] using hlast
    · exact haside (by simp [ProcessStep.turnOf, Ne.symm hk]) (Function.update_of_ne hk _ _)
  | polled _ _ _ | panicked | published | updateExpired | responseExpired => exact haside rfl rfl

theorem process_followed {vars : String → Option String} {p₀ p : Process κ} {events : List (ProcessEvent κ)}
    {outs : List Output} (hstart : Process.start κ vars = some p₀)
    (hrun : run (processStep env serde) p₀ events = some (p, outs)) (k : κ) :
    Followed env (p.client k) (turnsOf k (transcript (processStep env serde) p₀ events))
      (exchangesOf k (transcript (processStep env serde) p₀ events)) := by
  have hwaiting : Followed env (p₀.client k) (turnsOf k ([] : List (ProcessStep κ))) (exchangesOf k []) := by
    rw [start_client hstart]
    exact .waiting
  exact run_history (J := fun past p => Followed env (p.client k) (turnsOf k past) (exchangesOf k past))
    (C := fun _ _ => True) (fun _ _ _ _ _ h hstep _ => h.step hstep) hwaiting (fun _ _ _ _ => trivial) hrun

/-- The steps of a connection that has not ended are those of a run of the exchange loop on its turns. -/
theorem process_exchanges {vars : String → Option String} {p₀ p : Process κ} {events : List (ProcessEvent κ)}
    {outs : List Output} {k : κ} {x : Exchange} (hstart : Process.start κ vars = some p₀)
    (hrun : run (processStep env serde) p₀ events = some (p, outs)) (hclient : p.client k = .connected x) :
    ∃ x₀ os, Initiated x₀ ∧
      run (exchangeStep env) x₀ (turnsOf k (transcript (processStep env serde) p₀ events)) = some (x, os) ∧
      exchangesOf k (transcript (processStep env serde) p₀ events) =
        transcript (exchangeStep env) x₀ (turnsOf k (transcript (processStep env serde) p₀ events)) := by
  have hfollowed := process_followed hstart hrun k
  rw [hclient] at hfollowed
  generalize exchangesOf k (transcript (processStep env serde) p₀ events) = steps at hfollowed ⊢
  cases hfollowed with
  | connected hinit hrun => exact ⟨_, _, hinit, hrun, rfl⟩

/-- The steps of a connection have what its turns write and log, until it ends. -/
theorem exchangeOf_output {k : κ} {p p' : Process κ} {event : ProcessEvent κ} {output : Output}
    (hstep : processStep env serde p event = some (p', output)) (hgone : p'.client k ≠ .gone) :
    p.client k ≠ .gone ∧ (if (ProcessStep.turnOf k ⟨p, event, p', output⟩).isSome then [output] else []) =
      (ProcessStep.exchangeOf k ⟨p, event, p', output⟩).toList.map (·.output.1) := by
  have haside : ProcessStep.turnOf k ⟨p, event, p', output⟩ = none →
      (if (ProcessStep.turnOf k ⟨p, event, p', output⟩).isSome then [output] else []) =
        (ProcessStep.exchangeOf k ⟨p, event, p', output⟩).toList.map (·.output.1) := by
    intro hturn
    rw [exchangeOf_none hturn, hturn]
    rfl
  cases processStep_stepped hstep with
  | @accepted k' hwaiting =>
    refine ⟨fun hclient => ?_, haside rfl⟩
    by_cases hk : k = k'
    · subst hk
      cases hwaiting.symm.trans hclient
    · exact hgone ((Function.update_of_ne hk _ _).trans hclient)
  | @turned k' read x x' _ hclient hturn =>
    by_cases hk : k = k'
    · subst hk
      rw [exchangeOf_turn hclient (Function.update_self ..), hclient]
      simp [ProcessStep.turnOf]
    · exact ⟨fun hclient' => hgone ((Function.update_of_ne hk _ _).trans hclient'),
        haside (by simp [ProcessStep.turnOf, Ne.symm hk])⟩
  | @ended k' read x hclient hend =>
    by_cases hk : k = k'
    · subst hk
      exact absurd (Function.update_self ..) hgone
    · exact ⟨fun hclient' => hgone ((Function.update_of_ne hk _ _).trans hclient'),
        haside (by simp [ProcessStep.turnOf, Ne.symm hk])⟩
  | polled _ _ _ | panicked | published | updateExpired | responseExpired => exact ⟨hgone, haside rfl⟩

theorem outputsOf_exchanges {p₀ p : Process κ} {events : List (ProcessEvent κ)} {outs : List Output} {k : κ}
    (hrun : run (processStep env serde) p₀ events = some (p, outs)) (hgone : p.client k ≠ .gone) :
    outputsOf k (transcript (processStep env serde) p₀ events) =
      (exchangesOf k (transcript (processStep env serde) p₀ events)).map (·.output.1) := by
  have hempty : p₀.client k ≠ .gone →
      outputsOf k ([] : List (ProcessStep κ)) = (exchangesOf k ([] : List (ProcessStep κ))).map (·.output.1) := fun _ => rfl
  exact run_history (J := fun past p => p.client k ≠ .gone → outputsOf k past = (exchangesOf k past).map (·.output.1))
    (C := fun _ _ => True)
    (fun _ _ _ _ _ h hstep _ hgone => by
      obtain ⟨hbefore, hout⟩ := exchangeOf_output hstep hgone
      rw [outputsOf_concat, exchangesOf_concat, List.map_append, h hbefore, ← hout])
    hempty (fun _ _ _ _ => trivial) hrun hgone

/-- Whether it has ended or not, its steps are those of a new exchange loop on its turns. -/
theorem process_transcript {vars : String → Option String} {p₀ p : Process κ} {events : List (ProcessEvent κ)}
    {outs : List Output} (hstart : Process.start κ vars = some p₀)
    (hrun : run (processStep env serde) p₀ events = some (p, outs)) (k : κ) :
    ∃ x₀, Initiated x₀ ∧ exchangesOf k (transcript (processStep env serde) p₀ events) =
      transcript (exchangeStep env) x₀ (turnsOf k (transcript (processStep env serde) p₀ events)) := by
  have hfollowed := process_followed hstart hrun k
  generalize p.client k = client, turnsOf k (transcript (processStep env serde) p₀ events) = turns,
    exchangesOf k (transcript (processStep env serde) p₀ events) = steps at hfollowed ⊢
  cases hfollowed with
  | waiting => exact ⟨.start (.new .plain .plain ∅ none none), ⟨_, _, _, rfl⟩, rfl⟩
  | connected hinit _ | gone hinit => exact ⟨_, hinit, rfl⟩

end

/-- A client is accepted and logs in. -/
def openingEvents {κ : Type} (k : κ) : List (ProcessEvent κ) :=
  .accept k :: [sampleGreeting, sampleAnswer, sampleOk].map fun bytes => .turn k (.whole bytes)

def sampleSerde : Serde := ⟨fun entry => some entry.output, fun s => some ⟨s, s⟩⟩

end MocksySql
