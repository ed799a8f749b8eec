import MocksySql.Lib.Threads
import MocksySql.Materialization
/-!
# Connections sharing one diff log

`update_diff_log` is three calls of the `DashMap`, each atomic by itself: `contains_key`, `insert` of a fresh
table where there was none, and the insertion under the guard of `get_mut`.

| here | there |
| --- | --- |
| `Stage.containsKey` | `map.contains_key(table_name)` (`materialization/mod.rs:78`) |
| `Stage.insert`      | `map.insert(table_name.clone(), StateDifference::new(usize::MAX))` (`:79`) |
| `Stage.getMut`      | `map.get_mut(table_name).unwrap()` and the insertion under its guard (`:82-90`) |
| `Log.expire`        | an entry's TTL runs out |

* `alone` — a call that nothing comes between is `updateDiffLog`.
* `callStep_total` — the `unwrap` of `get_mut` never fails.
* `no_update_lost` — every recorded UPDATE stays, in every run in which no fresh table replaces one that is there.
* `update_lost` — two first UPDATEs of a table, one of them lost.
-/

namespace MocksySql
open PartialRun Threads

/-! ## Callers -/

/-- A call of `update_diff_log`, with the UUID it is going to draw. -/
structure UpdateCall where
  tableName : String
  uuid : String
  selection : Option Expr
  assignments : Assignments
deriving DecidableEq

inductive Stage where
  | containsKey | insert | getMut
deriving DecidableEq, Repr

/-- A connection: its calls still to be finished, and how far the first of them is. -/
structure Caller where
  stage : Stage
  calls : List UpdateCall
deriving DecidableEq

/-- The shared log, and the entries that have expired, by table and UUID. -/
structure Log where
  map : StateDiffLog
  expired : List (String × String)

def callStep (caller : Caller) (log : Log) : Option (Caller × Log) :=
  match caller.calls with
  | [] => none
  | call :: rest =>
    match caller.stage with
    | .containsKey =>
      some ({ caller with stage := if call.tableName ∈ log.map then .getMut else .insert }, log)
    | .insert => some ({ caller with stage := .getMut }, { log with map := log.map.insert call.tableName .new })
    | .getMut =>
      (insertUnderGuard log.map call.tableName call.uuid (call.selection, call.assignments)).map fun map =>
        ({ stage := .containsKey, calls := rest }, { log with map })

def Log.expire (entry : String × String) (log : Log) : Log where
  map :=
    match log.map.lookup entry.1 with
    | none => log.map
    | some stateDifference => log.map.insert entry.1 ⟨stateDifference.entries.filter (·.1 ≠ entry.2)⟩
  expired := entry :: log.expired

section
variable {ι : Type}

/-- A step of some connection, or an expiry. -/
abbrev logStep [DecidableEq ι] : Config ι Log Caller → Label ι (String × String) → Option (Config ι Log Caller × Unit) :=
  step callStep Log.expire

/-- Before any of the calls. -/
def startCalls (map : StateDiffLog) (calls : ι → List UpdateCall) : Config ι Log Caller where
  shared := { map, expired := [] }
  threads i := { stage := .containsKey, calls := calls i }

/-- **A call that nothing comes between** is `update_diff_log`. -/
theorem alone {map map' : StateDiffLog} {call : UpdateCall} {rest : List UpdateCall} {expired : List (String × String)}
    (h : updateDiffLog map call.uuid call.tableName call.selection call.assignments = some map') :
    ∃ n, (fun r => r.bind fun p => callStep p.1 p.2)^[n] (some (⟨.containsKey, call :: rest⟩, ⟨map, expired⟩)) =
      some (⟨.containsKey, rest⟩, ⟨map', expired⟩) := by
  rw [updateDiffLog] at h
  by_cases hmem : call.tableName ∈ map
  · refine ⟨2, ?_⟩
    rw [ensureTable, if_pos hmem] at h
    simp [callStep, hmem, h]
  · refine ⟨3, ?_⟩
    rw [ensureTable, if_neg hmem] at h
    simp [callStep, hmem, h]

/-! ## What is recorded stays -/

/-- The call's pair is in the log, under its table. -/
def Recorded (log : Log) (call : UpdateCall) : Prop :=
  ∃ stateDifference, log.map.lookup call.tableName = some stateDifference ∧
    (call.uuid, call.selection, call.assignments) ∈ stateDifference.entries

/-- The caller is not about to replace a table. -/
def Fresh (caller : Caller) (log : Log) : Prop :=
  caller.stage = .insert → ∀ call ∈ caller.calls.head?, call.tableName ∉ log.map

instance (caller : Caller) (log : Log) : Decidable (Fresh caller log) :=
  inferInstanceAs (Decidable (caller.stage = .insert → ∀ call ∈ caller.calls.head?, call.tableName ∉ log.map))

/-- All that a step of a call can do. -/
theorem callStep_cases {caller caller' : Caller} {log log' : Log} (h : callStep caller log = some (caller', log')) :
    ∃ call rest, caller.calls = call :: rest ∧
      ((caller.stage = .containsKey ∧ caller'.calls = caller.calls ∧ log' = log ∧
          (caller'.stage = .getMut → call.tableName ∈ log.map)) ∨
        (caller.stage = .insert ∧ caller'.calls = caller.calls ∧
          log' = { log with map := log.map.insert call.tableName .new }) ∨
        (caller.stage = .getMut ∧ caller' = ⟨.containsKey, rest⟩ ∧
          ∃ d, log.map.lookup call.tableName = some d ∧
            log' = { log with map := log.map.insert call.tableName (d.insert call.uuid (call.selection, call.assignments)) })) := by
  unfold callStep at h
  split at h
  · cases h
  · rename_i call rest hcalls
    refine ⟨call, rest, hcalls, ?_⟩
    split at h
    · rename_i hstage
      cases h
      refine .inl ⟨hstage, rfl, rfl, fun hnext => ?_⟩
      by_contra habsent
      rw [if_neg habsent] at hnext
      cases hnext
    · rename_i hstage
      cases h
      exact .inr (.inl ⟨hstage, rfl, rfl⟩)
    · rename_i hstage
      obtain ⟨map, hmap, he⟩ := Option.map_eq_some_iff.1 h
      cases he
      obtain ⟨d, hlookup, rfl⟩ := Option.map_eq_some_iff.1 hmap
      exact .inr (.inr ⟨hstage, rfl, d, hlookup, rfl⟩)

theorem TtlCache.mem_insert {K V : Type} [DecidableEq K] {c : TtlCache K V} {k k' : K} {v v' : V} :
    (k', v') ∈ (c.insert k v).entries ↔ ((k', v') ∈ c.entries ∧ k' ≠ k) ∨ (k' = k ∧ v' = v) := by
  simp [TtlCache.insert]

/-- A recorded pair stays, whoever takes the next step, unless a table is replaced or a UUID drawn twice. -/
theorem Recorded.kept {caller caller' : Caller} {log log' : Log} {call : UpdateCall} (hcall : Recorded log call)
    (hfresh : Fresh caller log) (huuid : ∀ c ∈ caller.calls.head?, c.uuid ≠ call.uuid)
    (h : callStep caller log = some (caller', log')) : Recorded log' call := by
  obtain ⟨d, hd, hmem⟩ := hcall
  obtain ⟨c, rest, hcalls, hcases⟩ := callStep_cases h
  have hhead : c ∈ caller.calls.head? := by rw [hcalls]; rfl
  rcases hcases with ⟨_, _, rfl, _⟩ | ⟨hstage, _, rfl⟩ | ⟨_, _, d', hd', rfl⟩
  · exact ⟨d, hd, hmem⟩
  · have hother : call.tableName ≠ c.tableName := by
      rintro he
      have hin : call.tableName ∈ log.map := AList.lookup_isSome.1 (by rw [hd]; rfl)
      exact hfresh hstage c hhead (he ▸ hin)
    exact ⟨d, by rw [AList.lookup_insert_ne hother, hd], hmem⟩
  · by_cases hsame : call.tableName = c.tableName
    · rw [← hsame, hd] at hd'
      cases hd'
      refine ⟨_, by rw [hsame, AList.lookup_insert], ?_⟩
      exact TtlCache.mem_insert.2 (.inl ⟨hmem, (huuid c hhead).symm⟩)
    · exact ⟨d, by rw [AList.lookup_insert_ne hsame, hd], hmem⟩

theorem Recorded.expire {log : Log} {call : UpdateCall} (hcall : Recorded log call) (entry : String × String) :
    Recorded (log.expire entry) call ∨ (call.tableName, call.uuid) ∈ (log.expire entry).expired := by
  obtain ⟨d, hd, hmem⟩ := hcall
  obtain ⟨t, u⟩ := entry
  by_cases htable : t = call.tableName
  · subst htable
    by_cases huuid : call.uuid = u
    · right
      rw [← huuid]
      exact List.mem_cons_self ..
    · left
      refine ⟨⟨d.entries.filter (·.1 ≠ u)⟩, ?_, List.mem_filter.2 ⟨hmem, by simpa using huuid⟩⟩
      simp only [Log.expire, hd, AList.lookup_insert]
  · left
    refine ⟨d, ?_, hmem⟩
    unfold Log.expire
    dsimp only
    split
    · exact hd
    · exact (AList.lookup_insert_ne (Ne.symm htable)).trans hd

/-- Of connection `i`: its calls are finished in order, and what is finished is recorded or has expired. -/
structure Outlined (calls : ι → List UpdateCall) (i : ι) (caller : Caller) (log : Log) : Prop where
  suffix : caller.calls <:+ calls i
  finished : ∀ call ∈ calls i, call ∈ caller.calls ∨ Recorded log call ∨ (call.tableName, call.uuid) ∈ log.expired

/-- No UUID is drawn twice. -/
structure DistinctUuids (calls : ι → List UpdateCall) : Prop where
  within : ∀ i, ((calls i).map (·.uuid)).Nodup
  between : ∀ i j, i ≠ j → ∀ c ∈ calls i, ∀ d ∈ calls j, c.uuid ≠ d.uuid

theorem callStep_expired {caller caller' : Caller} {log log' : Log} (h : callStep caller log = some (caller', log')) :
    log'.expired = log.expired := by
  obtain ⟨_, _, _, ⟨_, _, rfl, _⟩ | ⟨_, _, rfl⟩ | ⟨_, _, _, _, rfl⟩⟩ := callStep_cases h <;> rfl

theorem Outlined.own {calls : ι → List UpdateCall} (huuids : DistinctUuids calls) (i : ι) (caller : Caller) (log : Log)
    (caller' : Caller) (log' : Log) (h : Outlined calls i caller log) (hfresh : Fresh caller log)
    (hstep : callStep caller log = some (caller', log')) : Outlined calls i caller' log' := by
  obtain ⟨c, rest, hcalls, hcases⟩ := callStep_cases hstep
  have hexpired := callStep_expired hstep
  have hhead : ∀ d ∈ caller.calls.head?, d = c := by
    intro d hd
    rw [hcalls] at hd
    exact (Option.some.inj hd).symm
  have hc : c ∈ calls i := h.suffix.mem (hcalls ▸ List.mem_cons_self ..)
  -- a recorded call other than the current one stays recorded
  have hkept : ∀ call ∈ calls i, call ≠ c → Recorded log call → Recorded log' call := by
    intro call hcall hne hrec
    refine hrec.kept hfresh (fun d hd huuid => hne ?_) hstep
    rw [hhead d hd] at huuid
    exact (List.inj_on_of_nodup_map (huuids.within i) hc hcall huuid).symm
  have hothers : ∀ call ∈ calls i, call ≠ c →
      call ∈ rest ∨ Recorded log' call ∨ (call.tableName, call.uuid) ∈ log'.expired := by
    intro call hcall hne
    rcases h.finished call hcall with hleft | hrec | hexp
    · rw [hcalls, List.mem_cons] at hleft
      exact .inl (hleft.resolve_left hne)
    · exact .inr (.inl (hkept call hcall hne hrec))
    · exact .inr (.inr (hexpired ▸ hexp))
  have hgoing : caller'.calls = caller.calls → Outlined calls i caller' log' := by
    intro hsame
    refine ⟨hsame ▸ h.suffix, fun call hcall => ?_⟩
    rw [hsame, hcalls]
    by_cases hcurrent : call = c
    · exact .inl (hcurrent ▸ List.mem_cons_self ..)
    · exact (hothers call hcall hcurrent).imp_left (List.mem_cons_of_mem c)
  rcases hcases with ⟨_, hsame, _⟩ | ⟨_, hsame, _⟩ | ⟨_, rfl, d, _, rfl⟩
  · exact hgoing hsame
  · exact hgoing hsame
  · refine ⟨(List.suffix_cons c rest).trans (hcalls ▸ h.suffix), fun call hcall => ?_⟩
    by_cases hcurrent : call = c
    · subst hcurrent
      exact .inr (.inl ⟨_, AList.lookup_insert _, TtlCache.mem_insert.2 (.inr ⟨rfl, rfl⟩)⟩)
    · exact hothers call hcall hcurrent

theorem Outlined.other {calls : ι → List UpdateCall} (huuids : DistinctUuids calls) (i j : ι) (caller other : Caller)
    (log : Log) (other' : Caller) (log' : Log) (hij : i ≠ j) (h : Outlined calls i caller log) (ho : Outlined calls j other log)
    (hfresh : Fresh other log) (hstep : callStep other log = some (other', log')) : Outlined calls i caller log' := by
  refine ⟨h.suffix, fun call hcall => ?_⟩
  rcases h.finished call hcall with hleft | hrec | hexp
  · exact .inl hleft
  · refine .inr (.inl (hrec.kept hfresh (fun c hc => ?_) hstep))
    exact (huuids.between i j hij call hcall c (ho.suffix.mem (List.mem_of_mem_head? hc))).symm
  · exact .inr (.inr (callStep_expired hstep ▸ hexp))

theorem Outlined.expire {calls : ι → List UpdateCall} (i : ι) (caller : Caller) (log : Log) (entry : String × String)
    (h : Outlined calls i caller log) : Outlined calls i caller (log.expire entry) := by
  refine ⟨h.suffix, fun call hcall => ?_⟩
  rcases h.finished call hcall with hleft | hrec | hexp
  · exact .inl hleft
  · exact .inr (hrec.expire entry)
  · exact .inr (.inr (List.mem_cons_of_mem entry hexp))

/-- Past the check the table is there. -/
def Checked (caller : Caller) (log : Log) : Prop :=
  caller.stage = .getMut → ∀ call ∈ caller.calls.head?, call.tableName ∈ log.map

/-- No step takes a table away. -/
theorem callStep_tables {caller caller' : Caller} {log log' : Log} (h : callStep caller log = some (caller', log')) :
    ∀ t ∈ log.map, t ∈ log'.map := by
  intro t ht
  obtain ⟨_, _, _, ⟨_, _, rfl, _⟩ | ⟨_, _, rfl⟩ | ⟨_, _, _, _, rfl⟩⟩ := callStep_cases h
  · exact ht
  · exact (AList.mem_insert _).2 (.inr ht)
  · exact (AList.mem_insert _).2 (.inr ht)

theorem expire_tables (log : Log) (entry : String × String) : ∀ t ∈ log.map, t ∈ (log.expire entry).map := by
  intro t ht
  unfold Log.expire
  dsimp only
  split
  · exact ht
  · exact (AList.mem_insert _).2 (.inr ht)

theorem Checked.own {caller caller' : Caller} {log log' : Log} (h : callStep caller log = some (caller', log')) :
    Checked caller' log' := by
  intro hstage call hcall
  obtain ⟨c, rest, hcalls, ⟨_, hsame, rfl, htable⟩ | ⟨_, hsame, rfl⟩ | ⟨_, rfl, _⟩⟩ := callStep_cases h
  · rw [hsame, hcalls] at hcall
    cases hcall
    exact htable hstage
  · rw [hsame, hcalls] at hcall
    cases hcall
    exact (AList.mem_insert _).2 (.inl rfl)
  · cases hstage

/-- **The `unwrap` of `get_mut` never fails**: in every run, whatever comes between its steps, a call goes on
until it is finished. -/
theorem callStep_total [DecidableEq ι] {map : StateDiffLog} {calls : ι → List UpdateCall}
    {labels : List (Label ι (String × String))} {c : Config ι Log Caller} {outs : List Unit}
    (hrun : run logStep (startCalls map calls) labels = some (c, outs)) (i : ι) (hcalls : (c.threads i).calls ≠ []) :
    ∃ r, callStep (c.threads i) c.shared = some r := by
  have hchecked : Checked (c.threads i) c.shared := by
    refine outline (P := fun _ => Checked) (G := fun _ _ => True) (fun _ _ _ _ _ _ _ h => Checked.own h) ?_ ?_
      (fun _ _ _ _ => trivial) (fun j hstage => ?_) hrun i
    · intro _ _ _ _ _ _ _ _ h _ _ hstep hstage call hcall
      exact callStep_tables hstep _ (h hstage call hcall)
    · intro _ _ _ entry h hstage call hcall
      exact expire_tables _ entry _ (h hstage call hcall)
    · cases hstage
  obtain ⟨call, rest, hcons⟩ := List.exists_cons_of_ne_nil hcalls
  unfold callStep
  rw [hcons]
  cases hstage : (c.threads i).stage with
  | containsKey => exact ⟨_, rfl⟩
  | insert => exact ⟨_, rfl⟩
  | getMut =>
    have htable : call.tableName ∈ c.shared.map := hchecked hstage call (by rw [hcons]; rfl)
    obtain ⟨d, hd⟩ := Option.isSome_iff_exists.1 (AList.lookup_isSome.2 htable)
    simp [insertUnderGuard, hd]

/-- **No recorded UPDATE is lost**: in every run of any connections' calls, in any order, in which no call
puts a fresh table where there is one, the pair of every finished call is in the log under its table, or
has expired. -/
theorem no_update_lost [DecidableEq ι] {map : StateDiffLog} {calls : ι → List UpdateCall} (huuids : DistinctUuids calls)
    {labels : List (Label ι (String × String))} {c : Config ι Log Caller} {outs : List Unit}
    (hrun : run logStep (startCalls map calls) labels = some (c, outs))
    (hfresh : ∀ e ∈ transcript logStep (startCalls map calls) labels, ∀ i, e.input = .thread i →
      Fresh (e.before.threads i) e.before.shared) (i : ι) :
    ∀ call ∈ calls i, call ∈ (c.threads i).calls ∨ Recorded c.shared call ∨
      (call.tableName, call.uuid) ∈ c.shared.expired := by
  refine (outline (Outlined.own huuids) (Outlined.other huuids) Outlined.expire hfresh ?_ hrun i).finished
  intro j
  exact ⟨List.suffix_refl _, fun call hcall => .inl hcall⟩

end

/-! ## Two connections, one table -/

/-- `UPDATE t SET x = value` -/
def sampleUpdate (uuid value : String) : UpdateCall where
  tableName := "t"
  uuid := uuid
  selection := none
  assignments := (∅ : Assignments).insert "x" (some value)

def sampleCalls : Bool → List UpdateCall
  | false => [sampleUpdate "0" "a"]
  | true => [sampleUpdate "1" "b"]

theorem sampleCalls_distinct : DistinctUuids sampleCalls where
  within := by decide
  between := by decide

/-- One after the other. -/
theorem no_update_lost_sequential :
    ∃ c outs, run logStep (startCalls ∅ sampleCalls) [.thread false, .thread false, .thread false, .thread true,
        .thread true] = some (c, outs) ∧ ∀ i, ∀ call ∈ sampleCalls i, Recorded c.shared call := by
  have hrun : ∃ c outs, run logStep (startCalls ∅ sampleCalls) [.thread false, .thread false, .thread false,
      .thread true, .thread true] = some (c, outs) ∧ (∀ i, (c.threads i).calls = []) ∧ c.shared.expired = [] :=
    ⟨_, _, rfl, by decide, rfl⟩
  obtain ⟨c, outs, hrun, hdone, hexpired⟩ := hrun
  have hfresh : (transcript logStep (startCalls ∅ sampleCalls) [.thread false, .thread false, .thread false, .thread true,
      .thread true]).all (fun e => match e.input with
        | .thread i => decide (Fresh (e.before.threads i) e.before.shared)
        | .environment _ => true) = true := rfl
  refine ⟨c, outs, hrun, fun i call hcall => ?_⟩
  have := no_update_lost sampleCalls_distinct hrun (fun e he i hi => ?_) i call hcall
  · simpa [hdone, hexpired] using this
  · have hall := List.all_eq_true.1 hfresh e he
    rw [hi] at hall
    simpa using hall

/-- Both find no table, and the one that is second to create it replaces it with the first one's entry. -/
theorem update_lost :
    ∃ c outs, run logStep (startCalls ∅ sampleCalls) [.thread false, .thread true, .thread false, .thread false,
        .thread true, .thread true] = some (c, outs) ∧ (∀ i, (c.threads i).calls = []) ∧ c.shared.expired = [] ∧
      ∃ call ∈ sampleCalls false, ¬ Recorded c.shared call := by
  have hrun : ∃ c outs d, run logStep (startCalls ∅ sampleCalls) [.thread false, .thread true, .thread false,
      .thread false, .thread true, .thread true] = some (c, outs) ∧ (∀ i, (c.threads i).calls = []) ∧
      c.shared.expired = [] ∧ c.shared.map.lookup "t" = some d ∧ d.entries.map (·.1) = ["1"] :=
    ⟨_, _, _, rfl, by decide, rfl, rfl, rfl⟩
  obtain ⟨c, outs, d, hrun, hdone, hexpired, hlookup, hentries⟩ := hrun
  refine ⟨c, outs, hrun, hdone, hexpired, sampleUpdate "0" "a", List.mem_cons_self .., ?_⟩
  rintro ⟨d', hlookup', hmem⟩
  rw [show (sampleUpdate "0" "a").tableName = "t" from rfl, hlookup] at hlookup'
  cases hlookup'
  have := List.mem_map_of_mem (f := (·.1)) hmem
  rw [hentries] at this
  simp [sampleUpdate] at this

end MocksySql
