import MocksySql.PacketParsing
import MocksySql.Process
/-!
# The ids of intercepted inserts

All connections of a process, each in its own thread, share one `GLOBAL_COUNTER` of eight bits, and every
write that is answered draws a number from it, whatever its kind.

| here | there |
| --- | --- |
| `insertAnswer` | what `get_write_response` sends for a statement that begins with "insert " (`connection_handler.rs:361-378`) |
| `readInsertId` | `last_insert_id` of an OK packet (`packet.rs`), as its receiver reads it |

* `insert_ids_fresh` — while no insert is answered after the counter has wrapped, the ids are fresh.
* `insert_id_zero` — the write behind 156 others gets the id 0.
-/

namespace MocksySql
open FieldDecode PartialRun

/-- The connection and the answer, where a turn answers an intercepted statement that begins with "insert ". -/
def insertAnswer {κ : Type} (env : Env) (e : ProcessStep κ) : Option (Connection × Bytes) :=
  match e.input with
  | .turn k _ =>
    match e.before.client k, e.after.client k with
    | .connected x, .connected x' => do
      let lastCommand ← x'.connection.lastCommand
      if x.listening = .client ∧ e.output.toClient ≠ [] ∧ startsWith (env.toLowercase lastCommand.arg) "insert " then
        some (x'.connection, e.output.toClient)
      else none
    | _, _ => none
  | _ => none

def readInsertId (c : Connection) (response : Bytes) : Option UInt64 := do
  match ← Packet.fromBytes response .command with
  | .ok packet => (OkData.fromPacket packet c).map (·.lastInsertId)
  | .error _ => none

/-- What the answers to inserts carry, in their order. -/
def insertIds {κ : Type} (env : Env) (steps : List (ProcessStep κ)) : List (Option UInt64) :=
  (steps.filterMap (insertAnswer env)).map fun a => readInsertId a.1 a.2

/-- The answers to inserts all carry an id, never 0, and each a greater one than those before. -/
def FreshIds {κ : Type} (env : Env) (steps : List (ProcessStep κ)) : Prop :=
  ∃ ids : List UInt64, insertIds env steps = ids.map some ∧ ids.Pairwise (· < ·) ∧ 0 ∉ ids

/-- A turn takes the counter past 255. -/
def Wraps {κ : Type} (e : ProcessStep κ) : Prop :=
  e.before.shared.globalCounter = 255 ∧ e.after.shared.globalCounter = 0

/-! ## One turn -/

section
variable {env : Env} {x x' : Exchange} {turn : Turn} {output : Output} {shared : Shared}

/-- An intercepted write draws one number, and nothing else does. -/
theorem exchangeStep_counter (h : exchangeStep env x turn = some (x', output, shared)) :
    (shared.globalCounter = turn.shared.globalCounter ∧ (x.listening = .client → output.toClient = [])) ∨
      (shared.globalCounter = turn.shared.globalCounter + 1 ∧ x'.connection.phase = .command ∧
        ∃ lastCommand clientFlag seq, x'.connection.lastCommand = some lastCommand ∧
          x'.connection.clientFlag = some clientFlag ∧
          getWriteResponse env turn.shared.globalCounter lastCommand seq clientFlag = some output.toClient) := by
  cases exchangeStep_turned h with
  | waiting _ => exact .inl ⟨rfl, fun _ => rfl⟩
  | server hserver _ _ _ => exact .inl ⟨rfl, fun hclient => absurd (hserver.symm.trans hclient) (by decide)⟩
  | answered _ _ _ hi hresponse =>
    cases interceptIfEnabled_intercepts hi with
    | idle _ | passed _ _ _ _ => cases hresponse
    | answered _ _ _ _ hcommand hflag hwritten =>
      cases hresponse
      exact .inr ⟨rfl, rfl, _, _, _, hcommand, hflag, hwritten⟩
  | unanswered _ _ _ hi hnone =>
    cases interceptIfEnabled_intercepts hi with
    | idle _ | passed _ _ _ _ => exact .inl ⟨rfl, fun _ => rfl⟩
    | answered _ _ _ _ _ _ _ => cases hnone

/-- The response is an OK packet with the number drawn, for a statement that begins with "insert ". -/
theorem readInsertId_response {c : Connection} {clientFlag : UInt32} {count seq : UInt8} {command : Command}
    {response : Bytes} (hflag : c.clientFlag = some clientFlag) (h41 : hasFlag clientFlag .clientProtocol41)
    (h : getWriteResponse env count command seq clientFlag = some response) :
    readInsertId c response =
      some (if startsWith (env.toLowercase command.arg) "insert " then count.toUInt64 else 0) := by
  simp only [getWriteResponse, Option.bind_eq_bind, Option.bind_eq_some_iff] at h
  obtain ⟨-, -, packet, hwritten, he⟩ := h
  cases he
  obtain ⟨packet', hwritten', hread, -, -, hok⟩ := @OkData.toPacket_reads
    ⟨0x00, 1, if startsWith (env.toLowercase command.arg) "insert " then count.toUInt64 else 0, none, none⟩ (seq + 1)
    clientFlag c h41 hflag rfl .command
  obtain rfl : packet = packet' := Option.some.inj (hwritten.symm.trans hwritten')
  simp only [readInsertId, hread, Option.bind_eq_bind, Option.bind_some, hok, Option.map_some]

end

theorem turnShared_counter (env : Env) (x : Exchange) (turn : Turn) :
    (turnShared env x turn).globalCounter = turn.shared.globalCounter ∨
      (turnShared env x turn).globalCounter = turn.shared.globalCounter + 1 := by
  unfold turnShared
  split
  · exact .inl rfl
  · split
    · exact .inl rfl
    · dsimp only
      split_ifs
      · exact .inr rfl
      · exact .inl (by simp)

/-! ## Steps of the process -/

theorem UInt8.toNat_succ {n : UInt8} (h : n ≠ 255) : (n + 1).toNat = n.toNat + 1 := by
  have hlt := n.toNat_lt
  have hne : n.toNat ≠ 255 := fun he => h (UInt8.toNat_inj.1 he)
  rw [UInt8.toNat_add]
  show (n.toNat + 1) % 256 = n.toNat + 1
  omega

/-- Nothing but a wrap takes the counter down. -/
theorem counter_le_of_not_wraps {κ : Type} {e : ProcessStep κ} (hwraps : ¬ Wraps e)
    (h : e.after.shared.globalCounter = e.before.shared.globalCounter ∨
      e.after.shared.globalCounter = e.before.shared.globalCounter + 1) :
    e.before.shared.globalCounter.toNat ≤ e.after.shared.globalCounter.toNat ∧
      (e.after.shared.globalCounter = e.before.shared.globalCounter + 1 →
        e.after.shared.globalCounter.toNat = e.before.shared.globalCounter.toNat + 1) := by
  have hstep : e.after.shared.globalCounter = e.before.shared.globalCounter + 1 →
      e.after.shared.globalCounter.toNat = e.before.shared.globalCounter.toNat + 1 := by
    intro hdrawn
    have hne : e.before.shared.globalCounter ≠ 255 := fun h255 => hwraps ⟨h255, by rw [hdrawn, h255]; rfl⟩
    rw [hdrawn, UInt8.toNat_succ hne]
  refine ⟨?_, hstep⟩
  rcases h with h | h
  · rw [h]
  · have := hstep h; omega

section
variable {κ : Type} [DecidableEq κ] {env : Env} {serde : Serde} {p p' : Process κ} {event : ProcessEvent κ} {output : Output}

/-- Every connection that has not ended is in a reachable state. -/
def Process.Reachable (env : Env) (p : Process κ) : Prop :=
  ∀ k x, p.client k = .connected x → MocksySql.Reachable env (x.connection, [])

theorem processStep_reachable (hp : p.Reachable env) (h : processStep env serde p event = some (p', output)) :
    p'.Reachable env := by
  intro k y hy
  cases processStep_stepped h with
  | @accepted k' =>
    by_cases hk : k = k'
    · subst hk
      cases (Function.update_self k (Client.connected p.initiate) p.client).symm.trans hy
      exact start_reachable env .plain .plain _ _ _
    · exact hp k y (by simpa [Function.update_of_ne hk] using hy)
  | @turned k' _ x x' _ hclient hturn =>
    by_cases hk : k = k'
    · subst hk
      cases (Function.update_self k (Client.connected x') p.client).symm.trans hy
      obtain ⟨server, client, diff, replay, kafka, hsteps⟩ := hp k x hclient
      exact ⟨server, client, diff, replay, kafka, hsteps.trans (exchangeStep_steps hturn)⟩
    · exact hp k y (by simpa [Function.update_of_ne hk] using hy)
  | @ended k' =>
    by_cases hk : k = k'
    · subst hk
      cases (Function.update_self k Client.gone p.client).symm.trans hy
    · exact hp k y (by simpa [Function.update_of_ne hk] using hy)
  | polled _ _ _ | panicked | published | updateExpired | responseExpired => exact hp k y hy

omit [DecidableEq κ] in
/-- **One turn**: an answer to an insert has the number the turn draws. -/
theorem turn_counter {k : κ} {read : SocketRead} {x x' : Exchange} {shared : Shared} (hp' : p'.Reachable env)
    (hclient : p.client k = .connected x) (hclient' : p'.client k = .connected x') (hshared : p'.shared = shared)
    (hturn : exchangeStep env x ⟨p.shared, read⟩ = some (x', output, shared)) :
    insertAnswer env ⟨p, .turn k read, p', output⟩ = none ∨
      ∃ a, insertAnswer env ⟨p, .turn k read, p', output⟩ = some a ∧
        readInsertId a.1 a.2 = some p.shared.globalCounter.toUInt64 ∧
        p'.shared.globalCounter = p.shared.globalCounter + 1 := by
  rcases exchangeStep_counter hturn with ⟨-, hsilent⟩ | ⟨hcounter, hphase, command, clientFlag, seq, hcommand,
    hflag, hresponse⟩
  · left
    simp only [insertAnswer, hclient, hclient', Option.bind_eq_bind]
    cases x'.connection.lastCommand with
    | none => rfl
    | some command =>
      rw [Option.bind_some, if_neg]
      rintro ⟨hlisten, hne, -⟩
      exact hne (hsilent hlisten)
  · simp only [insertAnswer, hclient, hclient', hcommand, Option.bind_eq_bind, Option.bind_some]
    by_cases hinsert : x.listening = .client ∧ output.toClient ≠ [] ∧ startsWith (env.toLowercase command.arg) "insert "
    · right
      obtain ⟨hr, hhr, h41⟩ := (hp' k x' hclient').wf.negotiated (by simp [hphase]) (by simp [hphase])
      have hsame : hr.clientFlag = clientFlag := by
        rw [Connection.clientFlag, hhr] at hflag
        exact Option.some.inj hflag
      refine ⟨_, if_pos hinsert, ?_, by rw [hshared, hcounter]⟩
      rw [readInsertId_response hflag (hsame ▸ h41) hresponse, if_pos hinsert.2.2]
    · exact .inl (if_neg hinsert)

/-- **One step of the process** draws a number or none, and an answer to an insert has the number that is drawn. -/
theorem processStep_counter (hp : p.Reachable env) (h : processStep env serde p event = some (p', output)) :
    (p'.shared.globalCounter = p.shared.globalCounter ∨ p'.shared.globalCounter = p.shared.globalCounter + 1) ∧
      (insertAnswer env ⟨p, event, p', output⟩ = none ∨
        ∃ a, insertAnswer env ⟨p, event, p', output⟩ = some a ∧
          readInsertId a.1 a.2 = some p.shared.globalCounter.toUInt64 ∧
          p'.shared.globalCounter = p.shared.globalCounter + 1) := by
  have hp' := processStep_reachable hp h
  cases processStep_stepped h with
  | @turned k read x x' _ hclient hturn =>
    exact ⟨turnShared_counter env x ⟨p.shared, read⟩, turn_counter hp' hclient (Function.update_self ..) rfl hturn⟩
  | @ended k read x hclient _ =>
    refine ⟨turnShared_counter env x ⟨p.shared, read⟩, .inl ?_⟩
    simp only [insertAnswer, hclient, Function.update_self]
  | accepted _ | polled _ _ _ | panicked | published | updateExpired | responseExpired => exact ⟨.inl rfl, .inl rfl⟩

omit [DecidableEq κ] in
theorem start_counter {vars : String → Option String} {p₀ : Process κ} (hstart : Process.start κ vars = some p₀) :
    p₀.shared.globalCounter = 100 := by
  simp only [Process.start, Option.bind_eq_bind, Option.bind_eq_some_iff] at hstart
  obtain ⟨_, _, _, _, he⟩ := hstart
  cases he
  rfl

/-- The ids so far are in order, and below the counter unless it has wrapped. -/
structure Drawing (env : Env) (past : List (ProcessStep κ)) (p : Process κ) : Prop where
  reachable : p.Reachable env
  ids : ∃ ids : List UInt64, insertIds env past = ids.map some ∧ ids.Pairwise (· < ·) ∧ (∀ id ∈ ids, 100 ≤ id.toNat) ∧
    ((∀ d ∈ past, ¬ Wraps d) → ∀ id ∈ ids, id.toNat < p.shared.globalCounter.toNat)
  counter : (∀ d ∈ past, ¬ Wraps d) → 100 ≤ p.shared.globalCounter.toNat

theorem Drawing.step {past : List (ProcessStep κ)} (h : Drawing env past p)
    (hstep : processStep env serde p event = some (p', output))
    (hinsert : (insertAnswer env ⟨p, event, p', output⟩).isSome → ∀ d ∈ past, ¬ Wraps d) :
    Drawing env (past ++ [⟨p, event, p', output⟩]) p' := by
  obtain ⟨ids, hids, hsorted, hlow, hhigh⟩ := h.ids
  obtain ⟨hcounter, hanswer⟩ := processStep_counter h.reachable hstep
  have hsplit : (∀ d ∈ past ++ [(⟨p, event, p', output⟩ : ProcessStep κ)], ¬ Wraps d) →
      (∀ d ∈ past, ¬ Wraps d) ∧ ¬ Wraps (⟨p, event, p', output⟩ : ProcessStep κ) := fun hall =>
    ⟨fun d hd => hall d (List.mem_append_left _ hd), hall _ (by simp)⟩
  refine ⟨processStep_reachable h.reachable hstep, ?_, fun hall => ?_⟩
  · rcases hanswer with hnone | ⟨a, hanswer, hid, hdrawn⟩
    · refine ⟨ids, by simpa [insertIds, List.filterMap_append, hnone] using hids, hsorted, hlow, fun hall id hid => ?_⟩
      obtain ⟨hpast, hwraps⟩ := hsplit hall
      exact (hhigh hpast id hid).trans_le (counter_le_of_not_wraps hwraps hcounter).1
    · have hpast := hinsert (by rw [hanswer]; rfl)
      have hvalue : p.shared.globalCounter.toUInt64.toNat = p.shared.globalCounter.toNat := rfl
      refine ⟨ids ++ [p.shared.globalCounter.toUInt64], ?_, ?_, ?_, fun hall id hmem => ?_⟩
      · rw [insertIds] at hids ⊢
        rw [List.filterMap_append, List.map_append, hids, List.map_append]
        simp [hanswer, hid]
      · rw [List.pairwise_append]
        refine ⟨hsorted, List.pairwise_singleton _ _, fun id hmem id' hmem' => ?_⟩
        rw [List.mem_singleton] at hmem'
        rw [hmem', UInt64.lt_iff_toNat_lt, hvalue]
        exact hhigh hpast id hmem
      · intro id hmem
        rcases List.mem_append.1 hmem with hmem | hmem
        · exact hlow id hmem
        · rw [List.mem_singleton.1 hmem, hvalue]
          exact h.counter hpast
      · obtain ⟨-, hwraps⟩ := hsplit hall
        have hnext := (counter_le_of_not_wraps hwraps hcounter).2 hdrawn
        simp only at hnext
        rcases List.mem_append.1 hmem with hmem | hmem
        · have := hhigh hpast id hmem
          omega
        · rw [List.mem_singleton.1 hmem, hvalue]
          omega
  · obtain ⟨hpast, hwraps⟩ := hsplit hall
    exact (h.counter hpast).trans (counter_le_of_not_wraps hwraps hcounter).1

/-- **Ids are fresh while the counter lasts.** In every run of a process in which no insert is answered after the
counter has wrapped, for any number of connections and any writes, the ids in the answers to inserts are not
0 and strictly increasing. -/
theorem insert_ids_fresh {vars : String → Option String} {p₀ : Process κ} {events : List (ProcessEvent κ)}
    {outs : List Output} (hstart : Process.start κ vars = some p₀)
    (hrun : run (processStep env serde) p₀ events = some (p, outs))
    (hinsert : ∀ earlier e later, transcript (processStep env serde) p₀ events = earlier ++ e :: later →
      (insertAnswer env e).isSome → ∀ d ∈ earlier, ¬ Wraps d) :
    FreshIds env (transcript (processStep env serde) p₀ events) := by
  have hempty : Drawing env [] p₀ := by
    refine ⟨fun k x hx => ?_, ⟨[], rfl, .nil, by simp, by simp⟩, fun _ => ?_⟩
    · rw [start_client hstart] at hx
      cases hx
    · rw [start_counter hstart]
      exact Nat.le_refl 100
  have hdrawing := run_history (C := fun past e => (insertAnswer env e).isSome → ∀ d ∈ past, ¬ Wraps d)
    (fun _ _ _ _ _ h hstep hinsert => Drawing.step h hstep hinsert) hempty hinsert hrun
  obtain ⟨ids, hids, hsorted, hlow, -⟩ := hdrawing.ids
  refine ⟨ids, hids, hsorted, fun hzero => ?_⟩
  have := hlow 0 hzero
  cases this

end

/-! ## With and without the condition -/

/-- COM_QUERY "delete from t" -/
def deleteRead : SocketRead := .whole ([14, 0, 0, 0, 0x03] ++ asBytes "delete from t")

/-- COM_QUERY "insert into t values (1)" -/
def insertRead : SocketRead := .whole ([25, 0, 0, 0, 0x03] ++ asBytes "insert into t values (1)")

/-- Two clients insert, and delete in between. -/
def insertingEvents : List (ProcessEvent Bool) :=
  openingEvents false ++ openingEvents true ++ [.turn true insertRead, .turn false deleteRead, .turn false insertRead,
    .turn true deleteRead, .turn true deleteRead, .turn true insertRead]

/-- Their inserts get the numbers that the deletes have left. -/
theorem insert_ids_fresh_one : ∃ p₀, Process.start Bool (fun _ => none) = some p₀ ∧
    FreshIds sampleEnv (transcript (processStep sampleEnv sampleSerde) p₀ insertingEvents) ∧
    insertIds sampleEnv (transcript (processStep sampleEnv sampleSerde) p₀ insertingEvents) =
      [some 100, some 102, some 105] := by
  have hruns : ∃ p₀ p outs, Process.start Bool (fun _ => none) = some p₀ ∧
      run (processStep sampleEnv sampleSerde) p₀ insertingEvents = some (p, outs) ∧
      (transcript (processStep sampleEnv sampleSerde) p₀ insertingEvents).all
        (fun d => d.before.shared.globalCounter != 255) = true ∧
      insertIds sampleEnv (transcript (processStep sampleEnv sampleSerde) p₀ insertingEvents) =
        [some 100, some 102, some 105] :=
    ⟨_, _, _, rfl, rfl, rfl, rfl⟩
  obtain ⟨p₀, p, outs, hstart, hrun, hlasts, hids⟩ := hruns
  refine ⟨p₀, hstart, insert_ids_fresh hstart hrun fun earlier e later hsplit _ d hd hwraps => ?_, hids⟩
  have hlast := List.all_eq_true.1 hlasts d (by rw [hsplit]; exact List.mem_append_left _ hd)
  rw [hwraps.1] at hlast
  cases hlast

/-- Deletes draw numbers too. -/
theorem deletes_draw {x : Exchange} (hx : ∀ counter : UInt8, ∃ output, exchangeStep sampleEnv x
      ⟨⟨∅, none, 0, counter⟩, deleteRead⟩ = some (x, output, ⟨∅, none, 0, counter + 1⟩)) :
    ∀ (n : Nat) {p : Process Unit} {counter : UInt8}, p.client () = .connected x → p.shared = ⟨∅, none, 0, counter⟩ →
      ∃ p' outs, run (processStep sampleEnv sampleSerde) p (List.replicate n (.turn () deleteRead)) = some (p', outs) ∧
        p'.client () = .connected x ∧ p'.shared = ⟨∅, none, 0, counter + UInt8.ofNat n⟩
  | 0, p, counter, hclient, hshared => ⟨p, [], rfl, hclient, by simpa using hshared⟩
  | n + 1, p, counter, hclient, hshared => by
    obtain ⟨output, hstep⟩ := hx counter
    have hturn : processStep sampleEnv sampleSerde p (.turn () deleteRead) =
        some ({ p with client := Function.update p.client () (.connected x), shared := ⟨∅, none, 0, counter + 1⟩
                       topic := p.topic ++ messages sampleSerde output.records }, output) := by
      simp only [processStep, hclient, hshared, hstep]
    obtain ⟨p', outs, hrun, hclient', hshared'⟩ := @deletes_draw x hx n
      { p with client := Function.update p.client () (.connected x), shared := ⟨∅, none, 0, counter + 1⟩
               topic := p.topic ++ messages sampleSerde output.records } (counter + 1) (by simp) rfl
    refine ⟨p', output :: outs, ?_, hclient', ?_⟩
    · rw [List.replicate_succ, run_cons hturn, hrun]
      rfl
    · rw [hshared', UInt8.add_assoc]
      congr 2
      simp [UInt8.add_comm]

/-- 156 deletes, then an insert. -/
def wrappingEvents : List (ProcessEvent Unit) :=
  openingEvents () ++ (List.replicate 156 (.turn () deleteRead) ++ [.turn () insertRead])

/-- Its id is 0. -/
theorem insert_id_zero : ∃ p₀ p outs, Process.start Unit (fun _ => none) = some p₀ ∧
    run (processStep sampleEnv sampleSerde) p₀ wrappingEvents = some (p, outs) ∧
    ¬ FreshIds sampleEnv (transcript (processStep sampleEnv sampleSerde) p₀ wrappingEvents) := by
  have hopens : ∃ p₀ p outs x x' output, Process.start Unit (fun _ => none) = some p₀ ∧
      run (processStep sampleEnv sampleSerde) p₀ (openingEvents () ++ [.turn () deleteRead]) = some (p, outs) ∧
      p.client () = .connected x ∧ p.shared = ⟨∅, none, 0, 101⟩ ∧
      (∀ counter : UInt8, ∃ output, exchangeStep sampleEnv x ⟨⟨∅, none, 0, counter⟩, deleteRead⟩ =
        some (x, output, ⟨∅, none, 0, counter + 1⟩)) ∧
      exchangeStep sampleEnv x ⟨⟨∅, none, 0, 0⟩, insertRead⟩ = some (x', output, ⟨∅, none, 0, 1⟩) ∧
      (∀ p p' : Process Unit, p.client () = .connected x → p'.client () = .connected x' →
        insertAnswer sampleEnv ⟨p, .turn () insertRead, p', output⟩ = some (x'.connection, output.toClient)) ∧
      readInsertId x'.connection output.toClient = some 0 := by
    refine ⟨_, _, _, _, _, _, rfl, rfl, rfl, rfl, fun counter => ⟨_, rfl⟩, rfl, fun p p' hp hp' => ?_, rfl⟩
    simp only [insertAnswer, hp, hp', Option.bind_eq_bind]
    rfl
  obtain ⟨p₀, p₁, outs₁, x, x', output, hstart, hrun₁, hclient₁, hshared₁, hdelete, hinsert, hanswer, hid⟩ := hopens
  obtain ⟨p₂, outs₂, hrun₂, hclient₂, hshared₂⟩ := deletes_draw hdelete 155 hclient₁ hshared₁
  have hlast : ∃ p₃, processStep sampleEnv sampleSerde p₂ (.turn () insertRead) = some (p₃, output) ∧
      p₃.client () = .connected x' := by
    have hshared : p₂.shared = ⟨∅, none, 0, 0⟩ := hshared₂
    simp only [processStep, hclient₂, hshared, hinsert]
    exact ⟨_, rfl, by simp⟩
  obtain ⟨p₃, hlast, hclient₃⟩ := hlast
  have hevents : wrappingEvents =
      (openingEvents () ++ [.turn () deleteRead]) ++ (List.replicate 155 (.turn () deleteRead) ++ [.turn () insertRead]) := by
    rw [wrappingEvents, List.replicate_succ, List.cons_append, List.append_cons]
  refine ⟨p₀, _, _, hstart, by rw [hevents]; exact run_append_some hrun₁ (run_concat_some hrun₂ hlast), ?_⟩
  rintro ⟨ids, hids, -, hzero⟩
  rw [hevents, transcript_append hrun₁, transcript_append hrun₂, transcript_cons hlast] at hids
  have hmem : some 0 ∈ ids.map some := by
    rw [← hids, insertIds, List.mem_map]
    have hstep := List.mem_append_right (transcript (processStep sampleEnv sampleSerde) p₀ (openingEvents () ++ [.turn () deleteRead]))
      (List.mem_append_right (transcript (processStep sampleEnv sampleSerde) p₁ (List.replicate 155 (.turn () deleteRead)))
        (List.mem_cons_self (a := (⟨p₂, .turn () insertRead, p₃, output⟩ : ProcessStep Unit)) (l := [])))
    exact ⟨_, List.mem_filterMap.2 ⟨_, hstep, hanswer p₂ p₃ hclient₂ hclient₃⟩, hid⟩
  obtain ⟨id, hid, he⟩ := List.mem_map.1 hmem
  cases he
  exact hzero hid

end MocksySql
