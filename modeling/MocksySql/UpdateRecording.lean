import Mathlib.Data.List.TakeWhile
import MocksySql.Intercept
import MocksySql.ReadYourWrites
/-!
# Which UPDATEs are recorded, and which commands are answered

`is_write_query` calls `get_diff` on its way, whatever it goes on to return, and `get_diff` leaves out
what it does not support.

* `update_applied_once` — an answered command has its UPDATEs recorded up to the first that is not supported;
  one that is not answered, and has none of them, leaves the log as it is.
* `update_answered_unrecorded` — an UPDATE that is answered and not recorded, and one that is recorded and
  forwarded.
-/

namespace MocksySql
open FieldDecode PartialRun ByteStream

/-! ## The UPDATEs of a list of statements -/

/-- `Statement::Update` of a table. -/
structure TableUpdate where
  name : ObjectName
  assignments : List Assignment
  selection : Option Expr
deriving DecidableEq

def Statement.tableUpdate? : Statement → Option TableUpdate
  | .update (.table name) assignments selection => some { name, assignments, selection }
  | _ => none

/-- The column and the literal, where an assignment is of a literal to a column. -/
def Assignment.literal? : Assignment → Option (ObjectName × Value)
  | { target := .columnName name, value := .value value } => some (name, value)
  | _ => none

namespace TableUpdate

def supported (u : TableUpdate) : Bool := u.assignments.all (·.literal?.isSome)

def assign (processed : Assignments) (a : ObjectName × Value) : Assignments :=
  processed.insert a.1.last.value a.2.intoString

/-- What there is to record of it; of two assignments to one column the later counts. -/
def entry (u : TableUpdate) : Option Expr × Assignments :=
  (u.selection, (u.assignments.filterMap (·.literal?)).foldl assign ∅)

end TableUpdate

/-- The UPDATEs of tables in front of the first one that assigns anything but literals to columns. -/
def supportedUpdates (statements : List Statement) : List TableUpdate :=
  (statements.filterMap (·.tableUpdate?)).takeWhile (·.supported)

/-- Each table has its entries from before, and behind them one for each of these UPDATEs of it, in order. -/
def Appended (env : Env) (before after : StateDiffLog) (us : List TableUpdate) : Prop :=
  ∀ tableName, ∃ new, tableEntries after tableName = tableEntries before tableName ++ new ∧
    new.map (·.2) = (us.filter fun u => env.identToString u.name.last = tableName).map (·.entry)

/-- Every UPDATE is of a table and assigns literals to columns. -/
def AllSupported (statements : List Statement) : Prop :=
  ∀ relation assignments selection, .update relation assignments selection ∈ statements →
    ∃ u, (Statement.update relation assignments selection).tableUpdate? = some u ∧ u.supported

theorem supportedUpdates_of_all {statements : List Statement} (h : AllSupported statements) :
    supportedUpdates statements = statements.filterMap (·.tableUpdate?) := by
  rw [supportedUpdates, List.takeWhile_eq_self_iff]
  intro u hu
  obtain ⟨s, hs, hsu⟩ := List.mem_filterMap.1 hu
  cases s with
  | update relation assignments selection =>
    obtain ⟨u', hu', hsupported⟩ := h relation assignments selection hs
    rw [hsu] at hu'
    cases hu'
    exact hsupported
  | _ => cases hsu

/-- One assignment is processed, or ends the processing. -/
theorem processAssignments_cons (a : Assignment) (assignments : List Assignment) (processed : Assignments) :
    (∀ u, a.literal? = some u →
      processAssignments (a :: assignments) processed = processAssignments assignments (TableUpdate.assign processed u)) ∧
    (a.literal? = none → ∃ e, processAssignments (a :: assignments) processed = .error e) := by
  obtain ⟨target, value⟩ := a
  cases value with
  | value value =>
    cases target with
    | columnName name =>
      refine ⟨fun u hu => ?_, fun hnone => ?_⟩
      · cases hu
        rfl
      · cases hnone
    | tuple names =>
      refine ⟨fun u hu => ?_, fun _ => ⟨_, rfl⟩⟩
      cases hu
  | _ => exact ⟨fun u hu => by simp [Assignment.literal?] at hu, fun _ => ⟨_, rfl⟩⟩

theorem processAssignments_supported {assignments : List Assignment} (h : assignments.all (·.literal?.isSome))
    (processed : Assignments) : processAssignments assignments processed =
      .ok ((assignments.filterMap (·.literal?)).foldl TableUpdate.assign processed) := by
  induction assignments generalizing processed with
  | nil => rfl
  | cons a assignments ih =>
    rw [List.all_cons, Bool.and_eq_true] at h
    obtain ⟨u, hu⟩ := Option.isSome_iff_exists.1 h.1
    rw [(processAssignments_cons a assignments processed).1 u hu, ih h.2, List.filterMap_cons_some hu, List.foldl_cons]

theorem processAssignments_unsupported {assignments : List Assignment} (h : ¬ assignments.all (·.literal?.isSome))
    (processed : Assignments) : ∃ e, processAssignments assignments processed = .error e := by
  induction assignments generalizing processed with
  | nil => exact absurd rfl h
  | cons a assignments ih =>
    have hcons := processAssignments_cons a assignments processed
    cases ha : a.literal? with
    | none => exact hcons.2 ha
    | some u =>
      rw [hcons.1 u ha]
      refine ih (fun hrest => h ?_) _
      rw [List.all_cons, ha, hrest]
      rfl

theorem Appended.refl (env : Env) (map : StateDiffLog) : Appended env map map [] :=
  fun _ => ⟨[], (List.append_nil _).symm, rfl⟩

/-- What is recorded first is in front. -/
theorem Appended.cons {env : Env} {map map₁ map' : StateDiffLog} {drawn : Nat} {u : TableUpdate} {us : List TableUpdate}
    (hentries : tableEntries map₁ (env.identToString u.name.last) =
      tableEntries map (env.identToString u.name.last) ++ [(env.uuid drawn, u.entry)])
    (hframe : ∀ t ≠ env.identToString u.name.last, tableEntries map₁ t = tableEntries map t)
    (h : Appended env map₁ map' us) : Appended env map map' (u :: us) := by
  intro t
  obtain ⟨new, hnew, hmap⟩ := h t
  by_cases ht : t = env.identToString u.name.last
  · subst ht
    refine ⟨(env.uuid drawn, u.entry) :: new, by rw [hnew, hentries, List.append_assoc]; rfl, ?_⟩
    rw [List.filter_cons_of_pos (by simp), List.map_cons, List.map_cons, hmap]
  · refine ⟨new, by rw [hnew, hframe t ht], ?_⟩
    rw [List.filter_cons_of_neg (by simpa using Ne.symm ht), hmap]

section
variable {env : Env} {statement : Statement} {rest : List Statement} {u : TableUpdate} {map map₁ : StateDiffLog} {drawn : Nat}

theorem Statement.tableUpdate?_eq_some (h : statement.tableUpdate? = some u) :
    statement = .update (.table u.name) u.assignments u.selection := by
  rcases statement with _ | _ | ⟨_ | _, _, _⟩ | _ | _
  case update.table => cases h; rfl
  all_goals cases h

theorem supportedUpdates_cons_none (h : statement.tableUpdate? = none) :
    supportedUpdates (statement :: rest) = supportedUpdates rest := by
  rw [supportedUpdates, List.filterMap_cons_none h]
  rfl

theorem supportedUpdates_cons_some (h : statement.tableUpdate? = some u) :
    supportedUpdates (statement :: rest) = if u.supported then u :: supportedUpdates rest else [] := by
  rw [supportedUpdates, List.filterMap_cons_some h, List.takeWhile_cons]
  rfl

/-- What is no UPDATE of a table is passed over. -/
theorem getDiffLoop_cons_none (h : statement.tableUpdate? = none) :
    getDiffLoop env map drawn (statement :: rest) = getDiffLoop env map drawn rest := by
  rcases statement with _ | _ | ⟨_ | _, _, _⟩ | _ | _
  case update.table => cases h
  all_goals rfl

/-- After one more entry the ids are still among those drawn, in every table. -/
theorem Drawn.append_table {tableName : String} {entry : Option Expr × Assignments}
    (hdrawn : ∀ t, Drawn env drawn (tableEntries map t))
    (hentries : tableEntries map₁ tableName = tableEntries map tableName ++ [(env.uuid drawn, entry)])
    (hframe : ∀ t ≠ tableName, tableEntries map₁ t = tableEntries map t) (t : String) :
    Drawn env (drawn + 1) (tableEntries map₁ t) := by
  by_cases ht : t = tableName
  · subst ht
    rw [hentries]
    exact (hdrawn _).append entry
  · rw [hframe t ht]
    intro e he
    obtain ⟨n, hn, hne⟩ := hdrawn t e he
    exact ⟨n, by omega, hne⟩

end

/-- **What `get_diff` records**: the UPDATEs in front of the first that is not supported. -/
theorem getDiffLoop_recorded {env : Env} (huuid : Function.Injective env.uuid) :
    ∀ {statements : List Statement} {map : StateDiffLog} {drawn : Nat},
      (∀ t, Drawn env drawn (tableEntries map t)) →
      ∃ map' drawn', getDiffLoop env map drawn statements = some (map', drawn') ∧
        Appended env map map' (supportedUpdates statements) ∧ (supportedUpdates statements = [] → map' = map)
  | [], map, drawn, _ => ⟨map, drawn, rfl, .refl env map, fun _ => rfl⟩
  | statement :: rest, map, drawn, hdrawn => by
    cases hu : statement.tableUpdate? with
    | none =>
      rw [getDiffLoop_cons_none hu, supportedUpdates_cons_none hu]
      exact getDiffLoop_recorded huuid hdrawn
    | some u =>
      rw [supportedUpdates_cons_some hu]
      obtain rfl := Statement.tableUpdate?_eq_some hu
      by_cases hsupported : u.supported
      · obtain ⟨map₁, hupdate, hentries, hframe⟩ :=
          updateDiffLog_entries huuid (hdrawn (env.identToString u.name.last)) u.selection u.entry.2
        obtain ⟨map', drawn', hloop, hrecorded, -⟩ :=
          @getDiffLoop_recorded env huuid rest map₁ (drawn + 1) (Drawn.append_table hdrawn hentries hframe)
        rw [if_pos hsupported]
        refine ⟨map', drawn', ?_, hrecorded.cons hentries hframe, fun h => by cases h⟩
        rw [TableUpdate.entry] at hupdate
        rw [getDiffLoop, processAssignments_supported hsupported]
        simp only [hupdate]
        exact hloop
      · -- the rest of the list goes unread
        obtain ⟨e, he⟩ := processAssignments_unsupported hsupported ∅
        rw [if_neg hsupported]
        exact ⟨map, drawn, by rw [getDiffLoop, he], .refl env map, fun _ => rfl⟩

/-- A new entry is a change. -/
theorem Appended.eq_nil {env : Env} {map : StateDiffLog} {us : List TableUpdate} (h : Appended env map map us) : us = [] := by
  by_contra hne
  obtain ⟨u, us', rfl⟩ := List.exists_cons_of_ne_nil hne
  obtain ⟨new, hnew, hmap⟩ := h (env.identToString u.name.last)
  rw [List.self_eq_append_right.1 hnew, List.filter_cons_of_pos (by simp)] at hmap
  cases hmap

/-- **`get_diff` records a prefix.** The log gets one entry for each UPDATE of a table in front of the first one with an
unsupported assignment, in order, and so one for each UPDATE where all are supported; it stays as it was exactly if there
is none in front of that. -/
theorem recorded_up_to_unsupported {env : Env} (huuid : Function.Injective env.uuid) {map : StateDiffLog} {drawn : Nat}
    (hdrawn : ∀ tableName, Drawn env drawn (tableEntries map tableName)) (ast : Option (List Statement)) :
    ∃ map' drawn', getDiff env map drawn ast = some (map', drawn') ∧
      Appended env map map' (supportedUpdates (ast.getD [])) ∧
      (map' = map ↔ supportedUpdates (ast.getD []) = []) ∧
      (AllSupported (ast.getD []) → Appended env map map' ((ast.getD []).filterMap (·.tableUpdate?))) := by
  have hloop : getDiff env map drawn ast = getDiffLoop env map drawn (ast.getD []) := by cases ast <;> rfl
  obtain ⟨map', drawn', hrun, hrecorded, hnone⟩ := @getDiffLoop_recorded env huuid (ast.getD []) map drawn hdrawn
  refine ⟨map', drawn', hloop.trans hrun, hrecorded, ⟨?_, hnone⟩, fun hall => ?_⟩
  · rintro rfl
    exact hrecorded.eq_nil
  · rw [← supportedUpdates_of_all hall]
    exact hrecorded

/-! ## The turn that completes a command -/

/-- The statements the proxy parses a command to. -/
def parsedStatements (env : Env) (c : Connection) (f : Frame) : List Statement :=
  (((f.toPacket c.phase).bind (CommandAccumulator.consume env · c)).bind (·.1.ast)).getD []

/-- The log as `intercept_command` leaves it; what may panic, making the answer, comes behind `is_write_query`. -/
def recordedBy (env : Env) (c : Connection) (packets : List Packet) (drawn : Nat) : StateDiffLog :=
  match packets with
  | [packet] =>
    if env.interceptWrites ∧ c.phase = .pendingResponse then
      ((isWriteQuery env c.lastCommand packet c.diff drawn).map (·.2.1)).getD c.diff
    else c.diff
  | _ => c.diff

/-- The shared log after a round of the client loop, also one that panics. -/
def logAfter (env : Env) (x : Exchange) (turn : Turn) : StateDiffLog :=
  match processIncomingFrame env turn.read.buf (x.connection.sharing turn.shared) turn.read.readBytes with
  | some (c, packets) => recordedBy env c packets turn.shared.drawn
  | none => turn.shared.diff

section
variable {env : Env} {x : Exchange} {turn : Turn} {clientFlag : UInt32} {f : Frame} {rest : Bytes}

theorem interceptIfEnabled_diff {c : Connection} {packets : List Packet} {drawn : Nat} {counter : UInt8} {i : Intercepted}
    (h : interceptIfEnabled env c packets drawn counter = some i) : i.connection.diff = recordedBy env c packets drawn := by
  cases interceptIfEnabled_intercepts h with
  | idle hidle =>
    rcases packets with _ | ⟨packet, _ | ⟨packet', packets⟩⟩
    · rfl
    · exact (if_neg fun hpending => hidle ⟨hpending.1, hpending.2, rfl⟩).symm
    · rfl
  | passed hin hphase hpackets hquery | answered hin hphase hpackets hquery _ _ _ =>
    rw [hpackets, recordedBy, if_pos ⟨hin, hphase⟩, hquery]
    rfl

/-- What a turn that does not panic leaves behind. -/
theorem exchangeStep_log (hphase : x.connection.phase = .command) (hlisten : x.listening = .client)
    {x' : Exchange} {output : Output} {shared : Shared}
    (hstep : exchangeStep env x turn = some (x', output, shared)) : shared.diff = logAfter env x turn := by
  have hframed : ∀ {c c' : Connection} {r : SocketRead} {origin : Origin} {packets : List Packet} {i : Intercepted},
      receive env { x with connection := x.connection.sharing turn.shared } turn.read = .bytes c r origin →
      processIncomingFrame env r.buf c r.readBytes = some (c', packets) →
      interceptIfEnabled env c' packets turn.shared.drawn turn.shared.globalCounter = some i →
      i.connection.diff = logAfter env x turn := by
    intro c c' r origin packets i hreceive hframe hi
    obtain ⟨(rfl : c = x.connection.sharing turn.shared), rfl⟩ := receive_command hreceive hlisten hphase
    simp only [logAfter, hframe]
    exact interceptIfEnabled_diff hi
  cases exchangeStep_turned hstep with
  | waiting hwait =>
    have hserver := receive_waiting hwait
    cases hlisten.symm.trans hserver
  | server hserver _ _ _ => cases hserver.symm.trans hlisten
  | answered _ hreceive hframe hi _ | unanswered _ hreceive hframe hi _ => exact hframed hreceive hframe hi

theorem processIncomingFrame_diff {c c' : Connection} {r : SocketRead} {packets : List Packet}
    (h : processIncomingFrame env r.buf c r.readBytes = some (c', packets)) : c'.diff = c.diff := by
  obtain ⟨c₀, ps, outs, hmake, hrun, -⟩ := processIncomingFrame_some h
  obtain ⟨rfl, -⟩ := makePackets_some hmake
  refine run_invariant (I := fun s => s.diff = c.diff) ?_ ?_ hrun
  · intro s p _ s' o hs hp
    exact (consumePacket_frame hp).2.trans hs
  · rw [Connection.withResidual_eq]

/-- A command that comes out of its read as the only packet: nothing whole was behind it. -/
theorem processIncomingFrame_alone {c c' : Connection} {r : SocketRead} {p : Packet} (h : AwaitsCommand c clientFlag)
    (hnext : frames.next (c.partialBytes.getD [] ++ r.chunk) = some (f, rest)) (hhead : f.2.head? = some 0x03)
    (hframe : processIncomingFrame env r.buf c r.readBytes = some (c', [p])) :
    frames.next rest = none ∧ c'.phase = .pendingResponse ∧
      ∃ command, c'.lastCommand = some command ∧ parsedStatements env c f = command.ast.getD [] := by
  obtain ⟨c₁, q, ps, outs, ⟨hawaits, hdefault, -, hq, command, next, hcommand, hlast⟩, hps, hrun, hpackets⟩ :=
    processIncomingFrame_first h hnext hhead hframe
  have hnone : frames.next rest = none := by
    by_contra hsome
    obtain ⟨⟨f₂, rest₂⟩, hnext₂⟩ := Option.ne_none_iff_exists'.1 hsome
    rw [frames.split_of_some hnext₂] at hps
    obtain ⟨p₂, ps₂, hp₂, -, rfl⟩ := mapM_toPacket_cons hps
    obtain ⟨c₂, out₂, outs₂, hsecond, -, rfl⟩ := run_cons_some hrun
    obtain ⟨p₂', rfl⟩ :=
      Option.isSome_iff_exists.1 (consumePacket_second hawaits hdefault (Frame.toPacket_fresh hp₂).2 hsecond)
    simp at hpackets
  rw [frames.split_of_none hnone] at hps
  cases hps
  cases hrun
  exact ⟨hnone, hawaits.phase, command, hlast, by simp [parsedStatements, hq, hcommand]⟩

theorem recordedBy_recorded {c : Connection} {p : Packet} {command : Command} {drawn : Nat} (hin : env.interceptWrites)
    (huuid : Function.Injective env.uuid) (hdrawn : ∀ t, Drawn env drawn (tableEntries c.diff t))
    (hphase : c.phase = .pendingResponse) (hcommand : c.lastCommand = some command) :
    Appended env c.diff (recordedBy env c [p] drawn) (supportedUpdates (command.ast.getD [])) ∧
      (supportedUpdates (command.ast.getD []) = [] → recordedBy env c [p] drawn = c.diff) := by
  cases hast : command.ast with
  | none =>
    have hsame : recordedBy env c [p] drawn = c.diff := by simp [recordedBy, isWriteQuery, hin, hphase, hcommand, hast, getDiff]
    rw [hsame]
    exact ⟨.refl env c.diff, fun _ => rfl⟩
  | some statements =>
    obtain ⟨map', drawn', hloop, hrecorded, hnone⟩ := @getDiffLoop_recorded env huuid statements c.diff drawn hdrawn
    have hlog : recordedBy env c [p] drawn = map' := by
      simp [recordedBy, isWriteQuery, hin, hphase, hcommand, hast, getDiff, hloop]
    rw [hlog]
    exact ⟨hrecorded, hnone⟩

/-- An answer is made of one packet of a pending command. -/
theorem answeredLocally_alone (hphase : x.connection.phase = .command) (hlisten : x.listening = .client)
    (h : AnsweredLocally env x [turn]) :
    ∃ c p, processIncomingFrame env turn.read.buf (x.connection.sharing turn.shared) turn.read.readBytes = some (c, [p]) := by
  obtain ⟨x', output, shared, hstep, -, -, hout⟩ := h
  rw [if_pos rfl] at hout
  cases exchangeStep_turned hstep with
  | waiting _ | unanswered _ _ _ _ _ => exact absurd rfl hout.1
  | server hserver _ _ _ => cases hserver.symm.trans hlisten
  | @answered c₀ c r origin packets i response _ hreceive hframe hi hresponse =>
    obtain ⟨(rfl : c₀ = x.connection.sharing turn.shared), rfl⟩ := receive_command hreceive hlisten hphase
    cases interceptIfEnabled_intercepts hi with
    | idle _ | passed _ _ _ _ => cases hresponse
    | @answered p _ _ _ _ _ _ _ hpackets _ _ _ _ => exact ⟨c, p, hpackets ▸ hframe⟩

end

/-- **An UPDATE is applied in one place.** A read completes a COM_QUERY, whatever else is in it. If the command is
answered, the log has the UPDATEs of its list up to the first that is not supported, each in one new entry of its
table, and so all of them where all are supported; if it is not, and none of them is there or another packet came
with it, the log is as before. -/
theorem update_applied_once {env : Env} (hin : env.interceptWrites) {x : Exchange}
    (hreach : Reachable env (x.connection, [])) (hphase : x.connection.phase = .command) (hlisten : x.listening = .client)
    {turn : Turn} (huuid : Function.Injective env.uuid)
    (hdrawn : ∀ tableName, Drawn env turn.shared.drawn (tableEntries turn.shared.diff tableName)) {f : Frame} {rest : Bytes}
    (hnext : frames.next (x.connection.partialBytes.getD [] ++ turn.read.chunk) = some (f, rest))
    (hquery : f.2.head? = some 0x03) :
    (∀ x' output shared, exchangeStep env x turn = some (x', output, shared) → shared.diff = logAfter env x turn) ∧
      (AnsweredLocally env x [turn] → Appended env turn.shared.diff (logAfter env x turn)
        (supportedUpdates (parsedStatements env x.connection f))) ∧
      (AnsweredLocally env x [turn] → AllSupported (parsedStatements env x.connection f) →
        Appended env turn.shared.diff (logAfter env x turn)
          ((parsedStatements env x.connection f).filterMap (·.tableUpdate?))) ∧
      (¬ AnsweredLocally env x [turn] →
        supportedUpdates (parsedStatements env x.connection f) = [] ∨ (frames.next rest).isSome →
          logAfter env x turn = turn.shared.diff) := by
  obtain ⟨hr, hhr, h41⟩ := hreach.wf.negotiated (by simp [hphase]) (by simp [hphase])
  have hawaits : AwaitsCommand x.connection hr.clientFlag := ⟨hphase, by rw [Connection.clientFlag, hhr]; rfl, h41⟩
  have halone : ∀ c p, processIncomingFrame env turn.read.buf (x.connection.sharing turn.shared) turn.read.readBytes =
      some (c, [p]) → frames.next rest = none ∧
        Appended env turn.shared.diff (logAfter env x turn) (supportedUpdates (parsedStatements env x.connection f)) ∧
        (supportedUpdates (parsedStatements env x.connection f) = [] → logAfter env x turn = turn.shared.diff) := by
    intro c p hframe
    obtain ⟨hnone, hpending, command, hcommand, hparsed⟩ :=
      processIncomingFrame_alone (hawaits.sharing turn.shared) hnext hquery hframe
    have hdiff : c.diff = turn.shared.diff := processIncomingFrame_diff hframe
    have hparsed' : parsedStatements env x.connection f = command.ast.getD [] := hparsed
    have hlog : logAfter env x turn = recordedBy env c [p] turn.shared.drawn := by simp only [logAfter, hframe]
    rw [hparsed', hlog, ← hdiff]
    exact ⟨hnone, recordedBy_recorded hin huuid (hdiff ▸ hdrawn) hpending hcommand⟩
  have hrecorded : AnsweredLocally env x [turn] → Appended env turn.shared.diff (logAfter env x turn)
      (supportedUpdates (parsedStatements env x.connection f)) := by
    intro hanswered
    obtain ⟨c, p, hframe⟩ := answeredLocally_alone hphase hlisten hanswered
    exact (halone c p hframe).2.1
  refine ⟨fun x' output shared hstep => exchangeStep_log hphase hlisten hstep, hrecorded, fun hanswered hall => ?_,
    fun _ hfew => ?_⟩
  · rw [← supportedUpdates_of_all hall]
    exact hrecorded hanswered
  · cases hframe : processIncomingFrame env turn.read.buf (x.connection.sharing turn.shared) turn.read.readBytes with
    | none => simp only [logAfter, hframe]
    | some r =>
      obtain ⟨c, packets⟩ := r
      rcases packets with _ | ⟨p, _ | ⟨p', packets⟩⟩
      · simp only [logAfter, hframe, recordedBy]
        exact processIncomingFrame_diff hframe
      · obtain ⟨hnone, -, hsame⟩ := halone c p hframe
        rcases hfew with hempty | hmore
        · exact hsame hempty
        · rw [hnone] at hmore
          cases hmore
      · simp only [logAfter, hframe, recordedBy]
        exact processIncomingFrame_diff hframe

/-! ## A supported UPDATE, and others -/

/-- `UPDATE t SET a = value` -/
def updateTo (value : Expr) : Statement :=
  .update (.table ⟨[], ⟨"t", none⟩⟩) [⟨.columnName ⟨[], ⟨"a", none⟩⟩, value⟩] none

/-- Texts that are one UPDATE. -/
def updateEnv : Env := { sampleUuids with
  parseSql := fun text =>
    if text = "update t set a = 'b'" ∨ text = "/* 1 */ update t set a = 'b'" then
      some [updateTo (.value (.string .singleQuoted "b"))]
    else if text = "update t set a = a + 1" then some [updateTo .other]
    else none }

theorem recorded_up_to_unsupported_two : ∃ map' drawn',
    getDiff sampleUuids ∅ 0 (some [updateTo (.value .null), updateTo .other]) = some (map', drawn') ∧ map' ≠ ∅ := by
  obtain ⟨map', drawn', hdiff, -, hunchanged, -⟩ := @recorded_up_to_unsupported sampleUuids sampleUuids_injective
    ∅ 0 (fun _ _ he => by cases he) (some [updateTo (.value .null), updateTo .other])
  exact ⟨map', drawn', hdiff, fun h => absurd (hunchanged.1 h) (by decide)⟩

/-- An unsupported UPDATE behind a supported one, and one of no table in front of it: the supported one is recorded. -/
theorem recorded_beside_unsupported :
    (¬ AllSupported [updateTo (.value .null), updateTo .other] ∧
      (getDiff sampleUuids ∅ 0 (some [updateTo (.value .null), updateTo .other])).map (tableEntries ·.1 "t") =
        some [("", none, (∅ : Assignments).insert "a" none)]) ∧
    (¬ AllSupported [.update .other [] none, updateTo (.value .null)] ∧
      (getDiff sampleUuids ∅ 0 (some [.update .other [] none, updateTo (.value .null)])).map (tableEntries ·.1 "t") =
        some [("", none, (∅ : Assignments).insert "a" none)]) := by
  refine ⟨⟨fun h => ?_, rfl⟩, fun h => ?_, rfl⟩
  · obtain ⟨u, hu, hsupported⟩ := h _ _ _ (List.mem_cons_of_mem _ (List.mem_singleton.2 rfl))
    cases hu
    cases hsupported
  · obtain ⟨u, hu, -⟩ := h _ _ _ (List.mem_cons_self ..)
    cases hu

/-- COM_QUERY, the payload of this size. -/
def updateTurn (size : UInt8) (text : String) : Turn := sampleTurn ([size, 0, 0, 0, 0x03] ++ asBytes text)

/-- `update t set a = 'b'` is answered and recorded. -/
theorem update_applied_once_literal : ∃ x turn,
    AnsweredLocally updateEnv x [turn] ∧
    Appended updateEnv ∅ (logAfter updateEnv x turn)
      [⟨⟨[], ⟨"t", none⟩⟩, [⟨.columnName ⟨[], ⟨"a", none⟩⟩, .value (.string .singleQuoted "b")⟩], none⟩] := by
  have hstart : ∃ x outs x' output shared f, run (exchangeStep updateEnv) (.start (.new .plain .plain ∅ none none))
      [sampleTurn sampleGreeting, sampleTurn sampleAnswer, sampleTurn sampleOk] = some (x, outs) ∧
      x.connection.phase = .command ∧ x.listening = .client ∧
      exchangeStep updateEnv x (updateTurn 21 "update t set a = 'b'") = some (x', output, shared) ∧
      x'.listening = .client ∧ output.toServer = [] ∧ output.toClient ≠ [] ∧ x'.connection.phase = .command ∧
      frames.next (x.connection.partialBytes.getD [] ++ (updateTurn 21 "update t set a = 'b'").read.chunk) = some (f, []) ∧
      f.2.head? = some 0x03 ∧
      parsedStatements updateEnv x.connection f = [updateTo (.value (.string .singleQuoted "b"))] :=
    ⟨_, _, _, _, _, _, rfl, rfl, rfl, rfl, rfl, rfl, by decide, rfl, rfl, rfl, rfl⟩
  obtain ⟨x, outs, x', output, shared, f, hrun, hphase, hlisten, hstep, hclient, hserver, hanswer, hdone, hnext, hquery,
    hparsed⟩ := hstart
  have hreach := run_reachable (start_reachable updateEnv .plain .plain ∅ none none) hrun
  have hanswered : AnsweredLocally updateEnv x [updateTurn 21 "update t set a = 'b'"] :=
    ⟨x', output, shared, hstep, hclient, hserver, by rw [if_pos rfl]; exact ⟨hanswer, hdone⟩⟩
  have hin : updateEnv.interceptWrites := by decide
  have h := (update_applied_once hin hreach hphase hlisten sampleUuids_injective
    (fun t e he => by cases he) hnext hquery).2.1 hanswered
  rw [hparsed] at h
  exact ⟨x, _, hanswered, h⟩

/-- An UPDATE that assigns an expression is answered and not recorded; one behind a comment is recorded and sent. -/
theorem update_answered_unrecorded :
    (∃ x, Reachable updateEnv (x.connection, []) ∧ x.connection.phase = .command ∧
      updateEnv.parseSql "update t set a = a + 1" = some [updateTo .other] ∧
      ∃ turn, turn.read.chunk = [23, 0, 0, 0, 0x03] ++ asBytes "update t set a = a + 1" ∧
        AnsweredLocally updateEnv x [turn] ∧ logAfter updateEnv x turn = turn.shared.diff) ∧
    (∃ x, Reachable updateEnv (x.connection, []) ∧ x.connection.phase = .command ∧
      updateEnv.parseSql "/* 1 */ update t set a = 'b'" = some [updateTo (.value (.string .singleQuoted "b"))] ∧
      ∃ turn x' output shared, turn.read.chunk = [29, 0, 0, 0, 0x03] ++ asBytes "/* 1 */ update t set a = 'b'" ∧
        exchangeStep updateEnv x turn = some (x', output, shared) ∧ output.toServer = turn.read.chunk ∧
        tableEntries turn.shared.diff "t" = [] ∧ tableEntries shared.diff "t" ≠ []) := by
  have hstart : ∃ x outs x₁ output₁ shared₁ x₂ output₂ shared₂, run (exchangeStep updateEnv)
      (.start (.new .plain .plain ∅ none none)) [sampleTurn sampleGreeting, sampleTurn sampleAnswer, sampleTurn sampleOk] =
        some (x, outs) ∧ x.connection.phase = .command ∧
      exchangeStep updateEnv x (updateTurn 23 "update t set a = a + 1") = some (x₁, output₁, shared₁) ∧
      (x₁.listening = .client ∧ output₁.toServer = [] ∧ output₁.toClient ≠ [] ∧ x₁.connection.phase = .command) ∧
      logAfter updateEnv x (updateTurn 23 "update t set a = a + 1") = ∅ ∧
      exchangeStep updateEnv x (updateTurn 29 "/* 1 */ update t set a = 'b'") = some (x₂, output₂, shared₂) ∧
      output₂.toServer = [29, 0, 0, 0, 0x03] ++ asBytes "/* 1 */ update t set a = 'b'" ∧
      tableEntries shared₂.diff "t" = [("", none, (∅ : Assignments).insert "a" (some "b"))] :=
    ⟨_, _, _, _, _, _, _, _, rfl, rfl, rfl, ⟨rfl, rfl, by decide, rfl⟩, rfl, rfl, rfl, rfl⟩
  obtain ⟨x, outs, x₁, output₁, shared₁, x₂, output₂, shared₂, hrun, hphase, hstep₁, ⟨hclient, hserver, hanswer, hdone⟩, hlog,
    hstep₂, hforwarded, hrecorded⟩ := hstart
  have hreach := run_reachable (start_reachable updateEnv .plain .plain ∅ none none) hrun
  refine ⟨⟨x, hreach, hphase, rfl, _, rfl, ?_, hlog⟩, x, hreach, hphase, rfl, _, x₂, output₂, shared₂, rfl, hstep₂,
    hforwarded, rfl, ?_⟩
  · exact ⟨x₁, output₁, shared₁, hstep₁, hclient, hserver, by rw [if_pos rfl]; exact ⟨hanswer, hdone⟩⟩
  · rw [hrecorded]
    exact List.cons_ne_nil _ _

end MocksySql
