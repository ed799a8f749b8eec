import MocksySql.Process
/-!
# The diff log is a history

The abstract log of a process is the list of the UPDATEs that its connections have been asked to record, each under its
table and with its UUID, without those that have expired since. The diff log is that list, table by table.

* `getDiffLoop_numbered` — one command: its supported UPDATEs, numbered as they are drawn.
* `diff_log_is_history` — every run of a process, with any number of connections in any order.
-/

namespace MocksySql
open FieldDecode PartialRun

/-! ## The abstract log -/

/-- An UPDATE of a history: its table, its UUID, and its WHERE clause and assignments. -/
structure RecordedUpdate where
  tableName : String
  uuid : String
  entry : Option Expr × Assignments
deriving DecidableEq

/-- UPDATEs in the order in which their UUIDs are drawn. -/
def numbered (env : Env) : Nat → List TableUpdate → List RecordedUpdate
  | _, [] => []
  | drawn, u :: us => ⟨env.identToString u.name.last, env.uuid drawn, u.entry⟩ :: numbered env (drawn + 1) us

/-- The UPDATEs of the command that a turn asks about, up to the first that is not supported. -/
def turnUpdates (env : Env) (x : Exchange) (turn : Turn) : List RecordedUpdate :=
  match askedAbout env x turn with
  | none => []
  | some (c, _) => numbered env turn.shared.drawn (supportedUpdates ((c.lastCommand.bind (·.ast)).getD []))

/-- What a step of the process makes of the abstract log. -/
def historyStep {κ : Type} (env : Env) (log : List RecordedUpdate) (e : ProcessStep κ) : List RecordedUpdate :=
  match e.input with
  | .turn k read =>
    match e.before.client k with
    | .connected x => log ++ turnUpdates env x ⟨e.before.shared, read⟩
    | _ => log
  | .expireUpdate tableName uuid => log.filter fun r => ¬ (r.tableName = tableName ∧ r.uuid = uuid)
  | _ => log

def history {κ : Type} (env : Env) (steps : List (ProcessStep κ)) : List RecordedUpdate := steps.foldl (historyStep env) []

/-- The entries of a table in the abstract log, oldest first. -/
def entriesOf (tableName : String) (log : List RecordedUpdate) : List (String × (Option Expr × Assignments)) :=
  (log.filter (·.tableName = tableName)).map fun r => (r.uuid, r.entry)

@[simp] theorem entriesOf_append (tableName : String) (log log' : List RecordedUpdate) :
    entriesOf tableName (log ++ log') = entriesOf tableName log ++ entriesOf tableName log' := by
  simp [entriesOf]

theorem entriesOf_cons (tableName : String) (r : RecordedUpdate) (log : List RecordedUpdate) :
    entriesOf tableName (r :: log) = (if r.tableName = tableName then [(r.uuid, r.entry)] else []) ++ entriesOf tableName log := by
  rw [entriesOf, List.filter_cons]
  by_cases h : r.tableName = tableName <;> simp [h, entriesOf]

/-! ## Recording -/

/-- **One command**: each table gets its UPDATEs behind its entries, with the UUIDs drawn for them. -/
theorem getDiffLoop_numbered {env : Env} (huuid : Function.Injective env.uuid) :
    ∀ {statements : List Statement} {map : StateDiffLog} {drawn : Nat},
      (∀ t, Drawn env drawn (tableEntries map t)) →
      ∃ map', getDiffLoop env map drawn statements = some (map', drawn + (supportedUpdates statements).length) ∧
        (∀ t, tableEntries map' t = tableEntries map t ++ entriesOf t (numbered env drawn (supportedUpdates statements))) ∧
        ∀ t, Drawn env (drawn + (supportedUpdates statements).length) (tableEntries map' t)
  | [], map, drawn, hdrawn => ⟨map, rfl, fun t => (List.append_nil _).symm, hdrawn⟩
  | statement :: rest, map, drawn, hdrawn => by
    cases hu : statement.tableUpdate? with
    | none =>
      rw [getDiffLoop_cons_none hu, supportedUpdates_cons_none hu]
      exact getDiffLoop_numbered huuid hdrawn
    | some u =>
      rw [supportedUpdates_cons_some hu]
      obtain rfl := Statement.tableUpdate?_eq_some hu
      by_cases hsupported : u.supported
      · obtain ⟨map₁, hupdate, hentries, hframe⟩ :=
          updateDiffLog_entries huuid (hdrawn (env.identToString u.name.last)) u.selection u.entry.2
        obtain ⟨map', hloop, hrecorded, hdrawn'⟩ :=
          @getDiffLoop_numbered env huuid rest map₁ (drawn + 1) (Drawn.append_table hdrawn hentries hframe)
        rw [if_pos hsupported, List.length_cons, ← Nat.succ_add_eq_add_succ]
        refine ⟨map', ?_, fun t => ?_, hdrawn'⟩
        · rw [TableUpdate.entry] at hupdate
          rw [getDiffLoop, processAssignments_supported hsupported]
          simp only [hupdate]
          exact hloop
        · rw [hrecorded, numbered, entriesOf_cons]
          by_cases ht : env.identToString u.name.last = t
          · subst ht
            rw [hentries, if_pos rfl, List.append_assoc]
            rfl
          · rw [hframe t (Ne.symm ht), if_neg ht, List.nil_append]
      · -- the rest of the list goes unread
        obtain ⟨e, he⟩ := processAssignments_unsupported hsupported ∅
        rw [if_neg hsupported]
        exact ⟨map, by rw [getDiffLoop, he]; rfl, fun t => (List.append_nil _).symm, hdrawn⟩

/-- The statements of a command, as far as there is one and it has been parsed. -/
theorem isWriteQuery_numbered {env : Env} (huuid : Function.Injective env.uuid) {map : StateDiffLog} {drawn : Nat}
    (hdrawn : ∀ t, Drawn env drawn (tableEntries map t)) (lastCommand : Option Command) (packet : Packet) :
    ∃ isWrite map' drawn', isWriteQuery env lastCommand packet map drawn = some (isWrite, map', drawn') ∧
      (∀ t, tableEntries map' t = tableEntries map t ++
        entriesOf t (numbered env drawn (supportedUpdates ((lastCommand.bind (·.ast)).getD [])))) ∧
      ∀ t, Drawn env drawn' (tableEntries map' t) := by
  have hsame : ∀ t, tableEntries map t = tableEntries map t ++ entriesOf t (numbered env drawn (supportedUpdates [])) :=
    fun t => (List.append_nil _).symm
  cases lastCommand with
  | none => exact ⟨false, map, drawn, rfl, hsame, hdrawn⟩
  | some lastCommand =>
    simp only [Option.bind_some, isWriteQuery]
    cases lastCommand.ast with
    | none => exact ⟨_, map, drawn, rfl, hsame, hdrawn⟩
    | some statements =>
      obtain ⟨map', hloop, hentries, hdrawn'⟩ := @getDiffLoop_numbered env huuid statements map drawn hdrawn
      exact ⟨_, map', _, by rw [getDiff, hloop]; rfl, hentries, hdrawn'⟩

theorem askedAbout_diff {env : Env} {x : Exchange} {turn : Turn} {c : Connection} {packet : Packet}
    (h : askedAbout env x turn = some (c, packet)) : c.diff = turn.shared.diff := by
  cases hlisten : x.listening with
  | server => rw [askedAbout_server hlisten] at h; cases h
  | client =>
    unfold askedAbout at h
    split at h
    · rename_i hreceive
      split at h
      · rename_i hframe
        split_ifs at h
        cases h
        rw [processIncomingFrame_diff hframe, (receive_client hreceive hlisten).1, switchIfAgreed_diff]
        rfl
      · cases h
    · cases h

/-- **One turn**: behind its entries each table gets the UPDATEs the turn records. -/
theorem turnShared_entries {env : Env} (huuid : Function.Injective env.uuid) {x : Exchange} {turn : Turn}
    (hdrawn : ∀ t, Drawn env turn.shared.drawn (tableEntries turn.shared.diff t)) :
    (∀ t, tableEntries (turnShared env x turn).diff t =
        tableEntries turn.shared.diff t ++ entriesOf t (turnUpdates env x turn)) ∧
      ∀ t, Drawn env (turnShared env x turn).drawn (tableEntries (turnShared env x turn).diff t) := by
  rw [turnShared, turnUpdates]
  cases hasked : askedAbout env x turn with
  | none => exact ⟨fun t => (List.append_nil _).symm, hdrawn⟩
  | some asked =>
    obtain ⟨c, packet⟩ := asked
    obtain ⟨isWrite, map', drawn', hquery, hentries, hdrawn'⟩ := isWriteQuery_numbered huuid hdrawn c.lastCommand packet
    simp only [askedAbout_diff hasked, hquery]
    exact ⟨hentries, hdrawn'⟩

/-! ## Expiry -/

theorem tableEntries_expireUpdate (map : StateDiffLog) (tableName uuid t : String) :
    tableEntries (expireUpdate map tableName uuid) t =
      (tableEntries map t).filter fun e => ¬ (t = tableName ∧ e.1 = uuid) := by
  have hkept : t ≠ tableName → (tableEntries map t).filter (fun e => ¬ (t = tableName ∧ e.1 = uuid)) = tableEntries map t := by
    intro ht
    simp [ht]
  unfold expireUpdate
  cases hlookup : map.lookup tableName with
  | none =>
    by_cases ht : t = tableName
    · subst ht
      simp [tableEntries, hlookup, TtlCache.new, TtlCache.iter]
    · exact (hkept ht).symm
  | some d =>
    by_cases ht : t = tableName
    · subst ht
      simp [tableEntries, hlookup, TtlCache.expire, TtlCache.iter]
    · rw [hkept ht, tableEntries, AList.lookup_insert_ne ht]
      rfl

theorem entriesOf_filter (tableName uuid t : String) (log : List RecordedUpdate) :
    entriesOf t (log.filter fun r => ¬ (r.tableName = tableName ∧ r.uuid = uuid)) =
      (entriesOf t log).filter fun e => ¬ (t = tableName ∧ e.1 = uuid) := by
  rw [entriesOf, entriesOf, List.filter_map, List.filter_filter, List.filter_filter]
  congr 1
  refine List.filter_congr fun r _ => ?_
  by_cases hr : r.tableName = t
  · subst hr
    simp
  · simp [hr]

/-! ## Runs of the process -/

section
variable {κ : Type} [DecidableEq κ] {env : Env} {serde : Serde}

/-- The diff log, as far as it has come. -/
structure Recalls (log : List RecordedUpdate) (env : Env) (p : Process κ) : Prop where
  entries : ∀ t, tableEntries p.shared.diff t = entriesOf t log
  drawn : ∀ t, Drawn env p.shared.drawn (tableEntries p.shared.diff t)

theorem Recalls.step (huuid : Function.Injective env.uuid) {log : List RecordedUpdate} {p p' : Process κ}
    {event : ProcessEvent κ} {output : Output} (h : Recalls log env p)
    (hstep : processStep env serde p event = some (p', output)) : Recalls (historyStep env log ⟨p, event, p', output⟩) env p' := by
  cases processStep_stepped hstep with
  | accepted _ | polled _ _ _ | panicked | published | responseExpired => exact ⟨h.entries, h.drawn⟩
  | @turned k read x _ _ hclient _ | @ended k read x hclient _ =>
    obtain ⟨hentries, hdrawn⟩ := @turnShared_entries env huuid x ⟨p.shared, read⟩ h.drawn
    refine ⟨fun t => ?_, hdrawn⟩
    simp only [historyStep, hclient, entriesOf_append, ← h.entries]
    exact hentries t
  | @updateExpired tableName uuid =>
    refine ⟨fun t => ?_, fun t e he => ?_⟩
    · rw [tableEntries_expireUpdate, h.entries]
      exact (entriesOf_filter tableName uuid t log).symm
    · rw [tableEntries_expireUpdate] at he
      exact h.drawn t e (List.mem_filter.1 he).1

theorem process_recalls (huuid : Function.Injective env.uuid) {vars : String → Option String} {p₀ p : Process κ}
    {events : List (ProcessEvent κ)} {outs : List Output} (hstart : Process.start κ vars = some p₀)
    (hrun : run (processStep env serde) p₀ events = some (p, outs)) :
    Recalls (history env (transcript (processStep env serde) p₀ events)) env p := by
  have hempty : Recalls (history env ([] : List (ProcessStep κ))) env p₀ := by
    simp only [Process.start, Option.bind_eq_bind, Option.bind_eq_some_iff] at hstart
    obtain ⟨_, _, _, _, he⟩ := hstart
    cases he
    exact ⟨fun t => rfl, fun t e he => by cases he⟩
  exact run_history (J := fun past p => Recalls (history env past) env p) (C := fun _ _ => True)
    (fun past p event p' output h hstep _ => by
      rw [history, List.foldl_append]
      exact Recalls.step huuid h hstep) hempty (fun _ _ _ _ => trivial) hrun

/-- **The diff log is a history.** In every run of a process, whatever its connections are sent and in whichever order
they take their turns, the entries of each table are the UPDATEs of it that were recorded and have not expired, in the
order in which they were recorded, each with its own UUID: none is lost, doubled, reordered or made up. -/
theorem diff_log_is_history (huuid : Function.Injective env.uuid) {vars : String → Option String} {p₀ p : Process κ}
    {events : List (ProcessEvent κ)} {outs : List Output} (hstart : Process.start κ vars = some p₀)
    (hrun : run (processStep env serde) p₀ events = some (p, outs)) (tableName : String) :
    tableEntries p.shared.diff tableName =
      entriesOf tableName (history env (transcript (processStep env serde) p₀ events)) :=
  (process_recalls huuid hstart hrun).entries tableName

end

/-- Two connections, an UPDATE from each, and the first of them expires. -/
def updatingEvents : List (ProcessEvent Bool) :=
  openingEvents false ++ openingEvents true ++
    [.turn true (updateTurn 21 "update t set a = 'b'").read, .turn false (updateTurn 21 "update t set a = 'b'").read,
      .expireUpdate "t" (updateEnv.uuid 0)]

/-- The one that is left was recorded for the connection accepted first. -/
theorem diff_log_is_history_two : ∃ p₀ p outs, Process.start Bool (fun _ => none) = some p₀ ∧
    run (processStep updateEnv sampleSerde) p₀ updatingEvents = some (p, outs) ∧
    tableEntries p.shared.diff "t" =
      entriesOf "t" (history updateEnv (transcript (processStep updateEnv sampleSerde) p₀ updatingEvents)) ∧
    tableEntries p.shared.diff "t" = [(updateEnv.uuid 1, none, (∅ : Assignments).insert "a" (some "b"))] := by
  have hrun : ∃ p₀ p outs, Process.start Bool (fun _ => none) = some p₀ ∧
      run (processStep updateEnv sampleSerde) p₀ updatingEvents = some (p, outs) ∧
      tableEntries p.shared.diff "t" = [(updateEnv.uuid 1, none, (∅ : Assignments).insert "a" (some "b"))] :=
    ⟨_, _, _, rfl, rfl, rfl⟩
  obtain ⟨p₀, p, outs, hstart, hrun, hentries⟩ := hrun
  exact ⟨p₀, p, outs, hstart, hrun,
    diff_log_is_history (show Function.Injective updateEnv.uuid from sampleUuids_injective) hstart hrun "t", hentries⟩

end MocksySql
