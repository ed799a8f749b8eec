import MocksySql.DiffLogRace
import MocksySql.KafkaLog
import MocksySql.Process
/-!
# Where the replay log comes from

The server loop sends what it has written to its client to the topic, the consumer keeps what it polls from there, and
a response is replayed from what is kept.

| here | there |
| --- | --- |
| `Written`, `writtenOf` | what the turns of one connection write to its client, in order |
| `Buffered`  | `kafka_log_buffer` between two rounds of the server loop (`connection_handler.rs:90`) |
| `Sent`      | a message of the topic, from `handle.send` (`:241`) or another producer |

* `Buffered.step` — the buffer is what the last turns of the server loop have written, and so is what is sent.
* `replay_provenance` — nothing is kept that no server loop of the process has written to its client and nobody else
  has published.
-/

namespace MocksySql
open FieldDecode PartialRun

/-! ## One connection -/

/-- A turn: the loop it is in, what it writes to the client, and the last command behind it. -/
structure Written where
  listening : Side
  toClient : Bytes
  lastCommand : Option Command

/-- Responses of this connection are logged. -/
def Connection.Logs (c : Connection) : Prop := c.lastCommand.isSome ∧ c.kafkaProducerConfig.isSome

/-- The buffer holds what the last turns have written, all of them in the server loop. -/
def Buffered (ws : List Written) (x : Exchange) : Prop :=
  ∃ block, block <:+ ws ∧ (∀ w ∈ block, w.listening = .server) ∧ x.kafkaLogBuffer = block.flatMap (·.toClient) ∧
    (x.kafkaLogBuffer ≠ [] → x.connection.Logs)

/-- The entry has, under the last command, what turns of the server loop have written one after the other. -/
def Logged (env : Env) (ws : List Written) (entry : ReplayLogEntry) : Prop :=
  ∃ block last command, block ++ [last] <:+: ws ∧ (∀ w ∈ block ++ [last], w.listening = .server) ∧
    last.lastCommand = some command ∧ entry = replayLogEntry env command ((block ++ [last]).flatMap (·.toClient))

section
variable {env : Env} {x x' : Exchange} {turn : Turn} {output : Output} {shared : Shared}

theorem Logged.more {ws : List Written} {entry : ReplayLogEntry} (h : Logged env ws entry) (ws' : List Written) :
    Logged env (ws ++ ws') entry := by
  obtain ⟨block, last, command, hblock, hserver, hcommand, he⟩ := h
  exact ⟨block, last, command, hblock.trans (List.prefix_append ws ws').isInfix, hserver, hcommand, he⟩

/-- A connection that logs goes on logging. -/
theorem processIncomingFrame_logs {c c' : Connection} {r : SocketRead} {packets : List Packet}
    (h : processIncomingFrame env r.buf c r.readBytes = some (c', packets)) (hlogs : c.Logs) : c'.Logs := by
  obtain ⟨c₀, ps, outs, hmake, hrun, -⟩ := processIncomingFrame_some h
  obtain ⟨rfl, -⟩ := makePackets_some hmake
  refine run_invariant (I := Connection.Logs) ?_ ?_ hrun
  · intro s p _ s' o hs hp
    obtain ⟨⟨phase, p', delta⟩, -, he⟩ := Option.map_eq_some_iff.1 hp
    cases he
    refine ⟨?_, hs.2⟩
    show (delta.lastCommand.or s.lastCommand).isSome
    rw [Option.isSome_or, hs.1, Bool.or_true]
  · rw [Connection.withResidual_eq]
    exact hlogs

theorem receive_logs {read r : SocketRead} {c : Connection} {origin : Origin} (hlisten : x.listening = .server)
    (h : receive env x read = .bytes c r origin) (hlogs : x.connection.Logs) : c.Logs := by
  unfold receive at h
  simp only [hlisten] at h
  split at h
  · cases h
  · rename_i hcache
    obtain ⟨rest, rfl⟩ := getResponseFromCache_cached hcache
    split_ifs at h
    cases h
    exact hlogs
  · split_ifs at h
    cases h
    exact hlogs

/-- What `push_to_kafka_if_logging_enabled` can do. -/
theorem pushToKafka_cases {c : Connection} {bytes buffer buffer' : Bytes} {records : List ReplayLogEntry}
    (h : pushToKafka env c bytes buffer = (buffer', records)) :
    (¬ c.Logs ∧ buffer' = buffer ∧ records = []) ∨ (c.Logs ∧ buffer' = buffer ++ bytes ∧ records = []) ∨
      ∃ command, c.lastCommand = some command ∧ buffer' = [] ∧ records = [replayLogEntry env command (buffer ++ bytes)] := by
  unfold pushToKafka at h
  split at h
  · rename_i command topic hcommand hconfig
    split at h
    · cases h
      exact .inr (.inl ⟨⟨by simp [hcommand], by simp [hconfig]⟩, rfl, rfl⟩)
    · cases h
      exact .inr (.inr ⟨command, hcommand, rfl, rfl⟩)
  · rename_i hnone
    cases h
    refine .inl ⟨fun hlogs => ?_, rfl, rfl⟩
    obtain ⟨command, hcommand⟩ := Option.isSome_iff_exists.1 hlogs.1
    obtain ⟨topic, hconfig⟩ := Option.isSome_iff_exists.1 hlogs.2
    exact hnone command topic hcommand hconfig

theorem Buffered.nothing (ws : List Written) (h : x.kafkaLogBuffer = []) : Buffered ws x :=
  ⟨[], List.nil_suffix, by simp, by simpa using h, fun hne => absurd h hne⟩

/-- **One turn** keeps the buffer so, and sends such entries. -/
theorem Buffered.step {ws : List Written} (h : x.listening = .server → Buffered ws x)
    (hstep : exchangeStep env x turn = some (x', output, shared)) :
    (x'.listening = .server → Buffered (ws ++ [⟨x.listening, output.toClient, x'.connection.lastCommand⟩]) x') ∧
      ∀ entry ∈ output.records,
        Logged env (ws ++ [⟨x.listening, output.toClient, x'.connection.lastCommand⟩]) entry := by
  have hturned := exchangeStep_turned hstep
  cases hlisten : x.listening with
  | client =>
    cases hturned with
    | waiting hwait =>
      have hserver := receive_waiting hwait
      cases hlisten.symm.trans hserver
    | server hserver _ _ _ => cases hlisten.symm.trans hserver
    | answered => exact ⟨fun hserver => by simp [hlisten] at hserver, by simp⟩
    | unanswered =>
      refine ⟨fun hserver => Buffered.nothing _ ?_, by simp⟩
      unfold afterClientFrame at hserver ⊢
      split_ifs at hserver ⊢
      · rfl
      · cases hlisten.symm.trans hserver
  | server =>
    obtain ⟨block, hblock, hserver, hbuffer, hlogs⟩ := h hlisten
    -- the block and this turn
    have hmore : ∀ w : Written, w.listening = .server →
        block ++ [w] <:+ ws ++ [w] ∧ ∀ w' ∈ block ++ [w], w'.listening = .server := by
      intro w hw
      refine ⟨(List.suffix_append_inj_of_length_eq rfl).2 ⟨hblock, rfl⟩, fun w' hw' => ?_⟩
      rcases List.mem_append.1 hw' with hw' | hw'
      · exact hserver w' hw'
      · rwa [List.mem_singleton.1 hw']
    cases hturned with
    | waiting hwait =>
      refine ⟨fun _ => ?_, by simp⟩
      obtain ⟨hsuffix, hall⟩ := hmore ⟨.server, [], x.connection.lastCommand⟩ rfl
      exact ⟨_, hsuffix, hall, by simpa using hbuffer, hlogs⟩
    | @server c c' r origin packets buffer records _ hreceive hframe hpush =>
      have hlogs' : x.kafkaLogBuffer ≠ [] → c'.Logs := fun hne =>
        processIncomingFrame_logs hframe (receive_logs (by exact hlisten) hreceive (hlogs hne))
      obtain ⟨hsuffix, hall⟩ := hmore ⟨.server, generateOutgoingFrame packets, c'.lastCommand⟩ rfl
      have hbytes : x.kafkaLogBuffer ++ generateOutgoingFrame packets =
          (block ++ [Written.mk .server (generateOutgoingFrame packets) c'.lastCommand]).flatMap (·.toClient) := by
        simp [hbuffer]
      rcases pushToKafka_cases hpush with ⟨hnot, rfl, rfl⟩ | ⟨hlogging, rfl, rfl⟩ | ⟨command, hcommand, rfl, rfl⟩
      · refine ⟨fun _ => Buffered.nothing _ ?_, by simp⟩
        by_contra hne
        exact hnot (hlogs' hne)
      · exact ⟨fun _ => ⟨_, hsuffix, hall, hbytes, fun _ => hlogging⟩, by simp⟩
      · refine ⟨fun _ => Buffered.nothing _ rfl, fun entry hentry => ?_⟩
        rw [List.mem_singleton.1 hentry, hbytes]
        exact ⟨block, _, command, hsuffix.isInfix, hall, hcommand, rfl⟩
    | answered hclient _ _ _ _ | unanswered hclient _ _ _ _ => cases hclient.symm.trans hlisten

end

/-! ## The process -/

def writtenOf {κ : Type} [DecidableEq κ] (k : κ) (steps : List (ProcessStep κ)) : List Written :=
  (exchangesOf k steps).map fun e => ⟨e.before.listening, e.output.1.toClient, e.after.connection.lastCommand⟩

/-- What the consumer makes of a message. -/
def readEntry (serde : Serde) (message : Bytes) : Option ReplayLogEntry := (fromUtf8 message).bind serde.fromStr

/-- The message is from another producer, or from a turn. -/
def Sent {κ : Type} (serde : Serde) (steps : List (ProcessStep κ)) (message : Bytes) : Prop :=
  ∃ e ∈ steps, e.input = .publish message ∨ message ∈ messages serde e.output.records

/-- What the past has made of the connections, the topic and the replay log. -/
structure Traced {κ : Type} [DecidableEq κ] (env : Env) (serde : Serde) (past : List (ProcessStep κ)) (p : Process κ) :
    Prop where
  buffered : ∀ k x, p.client k = .connected x → x.listening = .server → Buffered (writtenOf k past) x
  logged : ∀ e ∈ past, ∀ entry ∈ e.output.records, ∃ k, Logged env (writtenOf k past) entry
  topic : ∀ message ∈ p.topic, Sent serde past message
  cached : ∀ map, p.shared.replay = some map → ∀ entry ∈ map.entries,
    ∃ message, Sent serde past message ∧ readEntry serde message = some ⟨entry.1, entry.2⟩

section
variable {κ : Type} [DecidableEq κ] {env : Env} {serde : Serde}

omit [DecidableEq κ] in
theorem Sent.more {steps : List (ProcessStep κ)} {message : Bytes} (h : Sent serde steps message) (e : ProcessStep κ) :
    Sent serde (steps ++ [e]) message := by
  obtain ⟨d, hd, hsent⟩ := h
  exact ⟨d, List.mem_append_left _ hd, hsent⟩

theorem readMessage_entries {map map' : TtlCache String String} {message : Bytes} {entry : String × String}
    (h : readMessage serde map message = some map') (hentry : entry ∈ map'.entries) :
    entry ∈ map.entries ∨ readEntry serde message = some ⟨entry.1, entry.2⟩ := by
  obtain ⟨s, hs, rfl⟩ := Option.map_eq_some_iff.1 h
  cases hread : serde.fromStr s with
  | none =>
    rw [hread] at hentry
    exact .inl hentry
  | some kept =>
    rw [hread] at hentry
    rcases TtlCache.mem_insert.1 hentry with ⟨hold, -⟩ | ⟨hcommand, houtput⟩
    · exact .inl hold
    · refine .inr ?_
      rw [readEntry, hs, Option.bind_some, hread, hcommand, houtput]

/-- A step that is no turn of `k` writes nothing for it. -/
theorem writtenOf_aside {k : κ} {e : ProcessStep κ} (past : List (ProcessStep κ)) (h : ProcessStep.turnOf k e = none) :
    writtenOf k (past ++ [e]) = writtenOf k past := by
  rw [writtenOf, exchangesOf_concat, exchangeOf_none h, Option.toList_none, List.append_nil, writtenOf]

theorem writtenOf_turn {k : κ} {read : SocketRead} {p p' : Process κ} {output : Output} {x x' : Exchange}
    (past : List (ProcessStep κ)) (hclient : p.client k = .connected x) (hclient' : p'.client k = .connected x') :
    writtenOf k (past ++ [⟨p, .turn k read, p', output⟩]) =
      writtenOf k past ++ [⟨x.listening, output.toClient, x'.connection.lastCommand⟩] := by
  rw [writtenOf, exchangesOf_concat, exchangeOf_turn hclient hclient', List.map_append]
  rfl

theorem writtenOf_more (k : κ) (past : List (ProcessStep κ)) (e : ProcessStep κ) :
    ∃ ws, writtenOf k (past ++ [e]) = writtenOf k past ++ ws := by
  rw [writtenOf, exchangesOf_concat, List.map_append]
  exact ⟨_, rfl⟩

/-- A step that is no turn of any connection and accepts none. -/
theorem Traced.aside {past : List (ProcessStep κ)} {p p' : Process κ} {event : ProcessEvent κ}
    (h : Traced env serde past p) (hclient : p'.client = p.client)
    (hturn : ∀ k, ProcessStep.turnOf k ⟨p, event, p', .none⟩ = none)
    (htopic : ∀ message ∈ p'.topic, message ∈ p.topic ∨ event = .publish message)
    (hcached : ∀ map', p'.shared.replay = some map' → ∃ map, p.shared.replay = some map ∧ ∀ entry ∈ map'.entries,
      entry ∈ map.entries ∨ ∃ message ∈ p.topic, readEntry serde message = some ⟨entry.1, entry.2⟩) :
    Traced env serde (past ++ [⟨p, event, p', .none⟩]) p' := by
  refine ⟨fun k x hx hlisten => ?_, fun e he entry hentry => ?_, fun message hmessage => ?_, fun map' hmap' entry hentry => ?_⟩
  · rw [writtenOf_aside past (hturn k)]
    exact h.buffered k x (by rwa [hclient] at hx) hlisten
  · rcases List.mem_append.1 he with he | he
    · obtain ⟨k, hlogged⟩ := h.logged e he entry hentry
      exact ⟨k, by rwa [writtenOf_aside past (hturn k)]⟩
    · rw [List.mem_singleton.1 he] at hentry
      cases hentry
  · rcases htopic message hmessage with hold | rfl
    · exact (h.topic message hold).more _
    · exact ⟨_, List.mem_append_right _ (List.mem_singleton_self _), .inl rfl⟩
  · obtain ⟨map, hmap, hentries⟩ := hcached map' hmap'
    rcases hentries entry hentry with hold | ⟨message, hmessage, hread⟩
    · obtain ⟨message, hsent, hread⟩ := h.cached map hmap entry hold
      exact ⟨message, hsent.more _, hread⟩
    · exact ⟨message, (h.topic message hmessage).more _, hread⟩

/-- A step of connection `k` alone. -/
theorem Traced.own {past : List (ProcessStep κ)} {p p' : Process κ} {event : ProcessEvent κ} {output : Output} {k : κ}
    (h : Traced env serde past p) (hother : ∀ j ≠ k, p'.client j = p.client j)
    (hturn : ∀ j ≠ k, ProcessStep.turnOf j ⟨p, event, p', output⟩ = none)
    (hbuffered : ∀ x, p'.client k = .connected x → x.listening = .server →
      Buffered (writtenOf k (past ++ [⟨p, event, p', output⟩])) x)
    (hlogged : ∀ entry ∈ output.records, Logged env (writtenOf k (past ++ [⟨p, event, p', output⟩])) entry)
    (htopic : p'.topic = p.topic ++ messages serde output.records) (hreplay : p'.shared.replay = p.shared.replay) :
    Traced env serde (past ++ [⟨p, event, p', output⟩]) p' := by
  refine ⟨fun j x hx hlisten => ?_, fun e he entry hentry => ?_, fun message hmessage => ?_, fun map hmap entry hentry => ?_⟩
  · by_cases hj : j = k
    · subst hj
      exact hbuffered x hx hlisten
    · rw [writtenOf_aside past (hturn j hj)]
      exact h.buffered j x (by rwa [hother j hj] at hx) hlisten
  · rcases List.mem_append.1 he with he | he
    · obtain ⟨j, hold⟩ := h.logged e he entry hentry
      obtain ⟨ws, hws⟩ := writtenOf_more j past ⟨p, event, p', output⟩
      exact ⟨j, hws ▸ hold.more ws⟩
    · rw [List.mem_singleton.1 he] at hentry
      exact ⟨k, hlogged entry hentry⟩
  · rw [htopic, List.mem_append] at hmessage
    rcases hmessage with hold | hnew
    · exact (h.topic message hold).more _
    · exact ⟨_, List.mem_append_right _ (List.mem_singleton_self _), .inr hnew⟩
  · obtain ⟨message, hsent, hread⟩ := h.cached map (by rwa [hreplay] at hmap) entry hentry
    exact ⟨message, hsent.more _, hread⟩

theorem Traced.step {past : List (ProcessStep κ)} {p p' : Process κ} {event : ProcessEvent κ} {output : Output}
    (h : Traced env serde past p) (hstep : processStep env serde p event = some (p', output)) :
    Traced env serde (past ++ [⟨p, event, p', output⟩]) p' := by
  cases processStep_stepped hstep with
  | @accepted k hwaiting =>
    refine h.own (k := k) (fun j hj => Function.update_of_ne hj _ _) (fun _ _ => rfl) (fun x hx _ => ?_) (by simp [Output.none])
      (by simp [Output.none, messages]) rfl
    have hx : (Function.update p.client k (.connected p.initiate)) k = .connected x := hx
    rw [Function.update_self] at hx
    cases hx
    exact Buffered.nothing _ rfl
  | @turned k read x x' _ hclient hexchange =>
    obtain ⟨hbuffered, hlogged⟩ := Buffered.step (h.buffered k x hclient) hexchange
    refine h.own (k := k) (fun j hj => Function.update_of_ne hj _ _) (fun j hj => by simp [ProcessStep.turnOf, Ne.symm hj])
      (fun y hy hlisten => ?_) (fun entry hentry => ?_) rfl (turnShared_replay env x _)
    · have hy : (Function.update p.client k (.connected x')) k = .connected y := hy
      rw [Function.update_self] at hy
      cases hy
      rw [writtenOf_turn past hclient (Function.update_self k _ _)]
      exact hbuffered hlisten
    · rw [writtenOf_turn past hclient (Function.update_self k _ _)]
      exact hlogged entry hentry
  | @ended k read x hclient hexchange =>
    refine h.own (k := k) (fun j hj => Function.update_of_ne hj _ _) (fun j hj => by simp [ProcessStep.turnOf, Ne.symm hj])
      (fun y hy _ => ?_) (by simp [Output.none]) (by simp [Output.none, messages]) (turnShared_replay env x _)
    have hy : (Function.update p.client k .gone) k = .connected y := hy
    rw [Function.update_self] at hy
    cases hy
  | @polled message map map' hmap hmessage hread =>
    refine h.aside rfl (fun _ => rfl) (fun m hm => .inl hm) fun map₁ hmap₁ => ⟨map, hmap, fun entry hentry => ?_⟩
    cases hmap₁
    rcases readMessage_entries hread hentry with hold | hnew
    · exact .inl hold
    · exact .inr ⟨message, hmessage, hnew⟩
  | panicked => exact h.aside rfl (fun _ => rfl) (fun m hm => .inl hm) fun map hmap => ⟨map, hmap, fun _ => .inl⟩
  | @published message =>
    refine h.aside rfl (fun _ => rfl) (fun m hm => ?_) fun map hmap => ⟨map, hmap, fun _ => .inl⟩
    rcases List.mem_append.1 hm with hm | hm
    · exact .inl hm
    · exact .inr (by rw [List.mem_singleton.1 hm])
  | updateExpired => exact h.aside rfl (fun _ => rfl) (fun m hm => .inl hm) fun map hmap => ⟨map, hmap, fun _ => .inl⟩
  | responseExpired =>
    refine h.aside rfl (fun _ => rfl) (fun m hm => .inl hm) fun map' hmap' => ?_
    obtain ⟨map, hmap, rfl⟩ := Option.map_eq_some_iff.1 hmap'
    exact ⟨map, hmap, fun entry hentry => .inl (List.mem_of_mem_filter hentry)⟩

theorem messages_toString {records : List ReplayLogEntry} {message : Bytes} (h : message ∈ messages serde records) :
    ∃ entry ∈ records, ∃ s, serde.toString entry = some s ∧ message = asBytes s := by
  obtain ⟨entry, hentry, hs⟩ := List.mem_filterMap.1 h
  obtain ⟨s, hs, hbytes⟩ := Option.map_eq_some_iff.1 hs
  exact ⟨entry, hentry, s, hs, hbytes.symm⟩

theorem Traced.start {vars : String → Option String} {p : Process κ} (h : Process.start κ vars = some p) :
    Traced env serde [] p := by
  simp only [Process.start, Option.bind_eq_bind, Option.bind_eq_some_iff] at h
  obtain ⟨kafkaProducer, -, replay, hreplay, he⟩ := h
  cases he
  refine ⟨fun k x hx => ?_, fun e he => (List.not_mem_nil he).elim, fun m hm => (List.not_mem_nil hm).elim, ?_⟩
  · cases hx
  intro map hmap entry hentry
  unfold prepareAndRunKafkaConsumer at hreplay
  split_ifs at hreplay
  · simp only [Option.bind_eq_bind, Option.bind_eq_some_iff] at hreplay
    obtain ⟨_, -, _, -, he⟩ := hreplay
    cases he
    cases hmap
    exact (List.not_mem_nil hentry).elim
  · cases hreplay
    cases hmap

/-- **Where a replayed response comes from.** Whatever is kept, another producer has published it, or it has under its
command what some connection's server loop wrote to its client with that command behind it, turn after turn. -/
theorem replay_provenance {vars : String → Option String} {p₀ p : Process κ} {events : List (ProcessEvent κ)}
    {outs : List Output} {map : TtlCache String String} {command response : String}
    (hserde : ∀ entry s, serde.toString entry = some s → serde.fromStr s = some entry)
    (hstart : Process.start κ vars = some p₀) (hrun : run (processStep env serde) p₀ events = some (p, outs))
    (hmap : p.shared.replay = some map) (hentry : (command, response) ∈ map.entries) :
    (∃ message, .publish message ∈ events ∧ readEntry serde message = some ⟨command, response⟩) ∨
      ∃ k, Logged env (writtenOf k (transcript (processStep env serde) p₀ events)) ⟨command, response⟩ := by
  have htraced : Traced env serde (transcript (processStep env serde) p₀ events) p :=
    run_history (J := Traced env serde) (C := fun _ _ => True) (fun _ _ _ _ _ h hstep _ => h.step hstep)
      (Traced.start hstart) (fun _ _ _ _ => trivial) hrun
  obtain ⟨message, ⟨e, he, hsent⟩, hread⟩ := htraced.cached map hmap _ hentry
  rcases hsent with hpublished | hrecorded
  · have hinput := (transcript_step e he).1
    rw [hpublished] at hinput
    exact .inl ⟨message, hinput, hread⟩
  · obtain ⟨entry, hrecord, s, hs, rfl⟩ := messages_toString hrecorded
    rw [readEntry, fromUtf8_asBytes, Option.bind_some, hserde entry s hs] at hread
    cases hread
    exact .inr (htraced.logged e he _ hrecord)

end

/-! ## A ping that is replayed -/

def pingedEntry : ReplayLogEntry := ⟨"\x0e", "BwAAAQAAAAIAAAA="⟩

def pingedMessage : String := "\x7b\"last_command\":\"\\u000e\",\"output\":\"BwAAAQAAAAIAAAA=\"\x7d"

def pingedSerde : Serde where
  toString entry := if entry = pingedEntry then some pingedMessage else none
  fromStr s := if s = pingedMessage then some pingedEntry else none

def pingedEnv : Env :=
  { sampleEnv with
    base64Encode := fun bytes => if bytes = [7, 0, 0, 1, 0, 0, 0, 2, 0, 0, 0] then pingedEntry.output else latin1 bytes }

def pings : List (ProcessEvent Bool) :=
  [.turn true (.whole [1, 0, 0, 0, 0x0e]), .turn true (.whole [7, 0, 0, 1, 0, 0, 0, 2, 0, 0, 0])]

def pingedEvents : List (ProcessEvent Bool) := (openingEvents true ++ pings) ++ [.poll (asBytes pingedMessage)]

theorem pingedSerde_reads (entry : ReplayLogEntry) (s : String) (h : pingedSerde.toString entry = some s) :
    pingedSerde.fromStr s = some entry := by
  unfold pingedSerde at h ⊢
  dsimp only at h ⊢
  split_ifs at h with hentry
  cases h
  rw [if_pos rfl, hentry]

/-- The consumer polls the answer to the ping. -/
theorem replay_provenance_pinged : ∃ p₀ p outs map, Process.start Bool (fun _ => some "true") = some p₀ ∧
    run (processStep pingedEnv pingedSerde) p₀ pingedEvents = some (p, outs) ∧
    p.shared.replay = some map ∧ (pingedEntry.lastCommand, pingedEntry.output) ∈ map.entries ∧
    ∃ k, Logged pingedEnv (writtenOf k (transcript (processStep pingedEnv pingedSerde) p₀ pingedEvents)) pingedEntry := by
  have hpinged : ∃ p₀ p outs, Process.start Bool (fun _ => some "true") = some p₀ ∧
      run (processStep pingedEnv pingedSerde) p₀ (openingEvents true ++ pings) = some (p, outs) ∧ p.consuming = true ∧
      p.shared.replay = some .new ∧ p.topic = messages pingedSerde [pingedEntry] :=
    ⟨_, _, _, rfl, rfl, rfl, rfl, rfl⟩
  obtain ⟨p₀, p, outs, hstart, hrun, hconsuming, hreplay, htopic⟩ := hpinged
  have hpoll : ∃ p', processStep pingedEnv pingedSerde p (.poll (asBytes pingedMessage)) = some (p', .none) ∧
      p'.shared.replay = some (keepReplayLogEntry .new pingedEntry) := by
    have hsent : asBytes pingedMessage ∈ p.topic := by simp [htopic, messages, pingedSerde]
    have hread : readMessage pingedSerde .new (asBytes pingedMessage) = some (keepReplayLogEntry .new pingedEntry) := by
      simp [readMessage, fromUtf8_asBytes, pingedSerde]
    refine ⟨{ p with shared := { p.shared with replay := some (keepReplayLogEntry .new pingedEntry) } }, ?_, rfl⟩
    simp [processStep, hreplay, hconsuming, hsent, hread]
  obtain ⟨p', hpoll, hmap⟩ := hpoll
  have hall : run (processStep pingedEnv pingedSerde) p₀ pingedEvents = some (p', outs ++ [.none]) :=
    run_concat_some hrun hpoll
  have hkept : (pingedEntry.lastCommand, pingedEntry.output) ∈ (keepReplayLogEntry .new pingedEntry).entries := by
    simp [keepReplayLogEntry, TtlCache.insert, TtlCache.new]
  refine ⟨p₀, p', _, _, hstart, hall, hmap, hkept, ?_⟩
  rcases replay_provenance pingedSerde_reads hstart hall hmap hkept with ⟨message, hpublish, -⟩ | hlogged
  · simp [pingedEvents, openingEvents, pings] at hpublish
  · exact hlogged

end MocksySql
