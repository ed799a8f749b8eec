import MocksySql.Connection
/-!
# Recording UPDATEs (`materialization/mod.rs`)

| here | there |
| --- | --- |
| `processAssignments` | `process_assignments` (`mod.rs:93`), `Err` and its text included |
| `updateDiffLog`      | `update_diff_log` (`:72`): check, create, then insert under the guard |
| `getDiff`            | `get_diff` (`:32`): an unsupported assignment ends it, a relation that is not a table is skipped |

* `updateDiffLog_spec`, `getDiff_total` — recording never panics.
* `recordAll_entries` — a table's entries are those of its UPDATEs, in order.

`drawn` counts the UUIDs the process has drawn; `panic_on_unsupported_behaviour` only logs. The time to live of an entry
is left out (`CacheTtl` has it), and with it the panic of an insert whose expiry `Instant` cannot hold.
-/

namespace MocksySql

def processAssignments : List Assignment → Assignments → Except String Assignments
  | [], processed => .ok processed
  | assignment :: rest, processed =>
    match assignment.value with
    | .value value =>
      match assignment.target with
      | .tuple _ => .error "Tuple assignment targets are not supported!"
      | .columnName name => processAssignments rest (processed.insert name.last.value value.intoString)
    | _ => .error "Non-value based assignment in update statement!"

/-- `if !map.contains_key(table_name) { map.insert(table_name, StateDifference::new(..)) }` -/
def ensureTable (map : StateDiffLog) (tableName : String) : StateDiffLog :=
  if tableName ∈ map then map else map.insert tableName .new

/-- `map.get_mut(table_name).unwrap().insert(uuid, (selection, assignments), ttl)` -/
def insertUnderGuard (map : StateDiffLog) (tableName uuid : String) (entry : Option Expr × Assignments) :
    Option StateDiffLog :=
  (map.lookup tableName).map fun stateDifference => map.insert tableName (stateDifference.insert uuid entry)

def updateDiffLog (map : StateDiffLog) (uuid tableName : String) (selection : Option Expr)
    (processedAssignments : Assignments) : Option StateDiffLog :=
  insertUnderGuard (ensureTable map tableName) tableName uuid (selection, processedAssignments)

def getDiffLoop (env : Env) : StateDiffLog → Nat → List Statement → Option (StateDiffLog × Nat)
  | map, drawn, [] => some (map, drawn)
  | map, drawn, .update (.table name) assignments selection :: rest =>
    match processAssignments assignments ∅ with
    | .error _ => some (map, drawn)
    | .ok processedAssignments =>
      match updateDiffLog map (env.uuid drawn) (env.identToString name.last) selection processedAssignments with
      | none => none
      | some map' => getDiffLoop env map' (drawn + 1) rest
  | map, drawn, _ :: rest => getDiffLoop env map drawn rest

def getDiff (env : Env) (map : StateDiffLog) (drawn : Nat) (ast : Option (List Statement)) :
    Option (StateDiffLog × Nat) :=
  match ast with
  | none => some (map, drawn)
  | some statements => getDiffLoop env map drawn statements

/-! ## One call -/

theorem lookup_ensureTable (map : StateDiffLog) (tableName : String) :
    (ensureTable map tableName).lookup tableName = some ((map.lookup tableName).getD .new) := by
  unfold ensureTable; split
  · rename_i h
    obtain ⟨d, hd⟩ := Option.isSome_iff_exists.1 (AList.lookup_isSome.2 h)
    rw [hd]; rfl
  · rename_i h; rw [AList.lookup_insert, AList.lookup_eq_none.2 h]; rfl

theorem lookup_ensureTable_ne {tableName t : String} (map : StateDiffLog) (h : t ≠ tableName) :
    (ensureTable map tableName).lookup t = map.lookup t := by
  unfold ensureTable; split
  · rfl
  · exact AList.lookup_insert_ne h

/-- **`update_diff_log` always succeeds**: its own `get_mut(..).unwrap()` finds the table, and the
log afterwards has the new entry under it and is unchanged elsewhere. -/
theorem updateDiffLog_spec (map : StateDiffLog) (uuid tableName : String) (selection : Option Expr)
    (a : Assignments) : ∃ map', updateDiffLog map uuid tableName selection a = some map' ∧
      map'.lookup tableName = some (((map.lookup tableName).getD .new).insert uuid (selection, a)) ∧
      ∀ t ≠ tableName, map'.lookup t = map.lookup t := by
  refine ⟨_, by rw [updateDiffLog, insertUnderGuard, lookup_ensureTable]; rfl, AList.lookup_insert _, ?_⟩
  intro t ht
  rw [AList.lookup_insert_ne ht, lookup_ensureTable_ne map ht]

/-- **Recording never panics.** -/
theorem getDiff_total (env : Env) (map : StateDiffLog) (drawn : Nat) (ast : Option (List Statement)) :
    ∃ r, getDiff env map drawn ast = some r := by
  cases ast with
  | none => exact ⟨_, rfl⟩
  | some statements =>
    rw [getDiff]
    fun_induction getDiffLoop env map drawn statements with
    | case1 => exact ⟨_, rfl⟩
    | case2 => exact ⟨_, rfl⟩
    | case3 map drawn name assignments selection rest a _ h =>
      obtain ⟨map', h', _⟩ := updateDiffLog_spec map (env.uuid drawn) (env.identToString name.last) selection a
      rw [h'] at h; cases h
    | case4 _ _ _ _ _ _ _ _ _ _ ih => exact ih
    | case5 _ _ _ _ _ ih => exact ih

/-! ## UPDATEs that assign literals -/

/-- An UPDATE of a table whose SET assigns string literals and NULL. -/
structure LiteralUpdate where
  name : ObjectName
  set : List (ObjectName × Option (StringLiteral × String))
  selection : Option Expr
deriving DecidableEq

namespace LiteralUpdate

def value : Option (StringLiteral × String) → Value
  | some (form, s) => .string form s
  | none => .null

def toStatement (u : LiteralUpdate) : Statement :=
  .update (.table u.name) (u.set.map fun a => ⟨.columnName a.1, .value (value a.2)⟩) u.selection

def assign (processed : Assignments) (a : ObjectName × Option (StringLiteral × String)) : Assignments :=
  processed.insert a.1.last.value (a.2.map (·.2))

/-- What its SET assigns; of two assignments to one column the later counts. -/
def assignments (u : LiteralUpdate) : Assignments := u.set.foldl assign ∅

/-- What is recorded of it. -/
def entry (u : LiteralUpdate) : Option Expr × Assignments := (u.selection, u.assignments)

theorem intoString_value (v : Option (StringLiteral × String)) : (value v).intoString = v.map (·.2) := by
  cases v <;> rfl

theorem processAssignments_set (set : List (ObjectName × Option (StringLiteral × String))) (processed : Assignments) :
    processAssignments (set.map fun a => ⟨.columnName a.1, .value (value a.2)⟩) processed =
      .ok (set.foldl assign processed) := by
  induction set generalizing processed with
  | nil => rfl
  | cons a set ih =>
    show processAssignments (set.map _) (processed.insert a.1.last.value (value a.2).intoString) = _
    rw [ih, intoString_value]; rfl

theorem lookup_foldl_assign {c : String} {v : Option String} :
    ∀ {set : List (ObjectName × Option (StringLiteral × String))} {processed : Assignments},
      (set.foldl assign processed).lookup c = some v → (∃ a ∈ set, a.2.map (·.2) = v) ∨ processed.lookup c = some v
  | [], _, h => .inr h
  | a :: set, processed, h => by
    rcases @lookup_foldl_assign _ _ set (assign processed a) h with ⟨a', ha', hv⟩ | h
    · exact .inl ⟨a', List.mem_cons_of_mem a ha', hv⟩
    · by_cases hc : c = a.1.last.value
      · subst hc
        rw [assign, AList.lookup_insert] at h
        exact .inl ⟨a, List.mem_cons_self .., Option.some.inj h⟩
      · rw [assign, AList.lookup_insert_ne hc] at h
        exact .inr h

/-- A value it assigns is one of its SET. -/
theorem lookup_assignments {u : LiteralUpdate} {c : String} {v : Option String} (h : u.assignments.lookup c = some v) :
    ∃ a ∈ u.set, a.2.map (·.2) = v := by
  rcases lookup_foldl_assign h with ha | h
  · exact ha
  · cases h

end LiteralUpdate

/-- The entries of a table, oldest first. -/
def tableEntries (map : StateDiffLog) (tableName : String) : List (String × (Option Expr × Assignments)) :=
  ((map.lookup tableName).getD .new).iter

/-- The UUIDs of the entries have been drawn. -/
def Drawn (env : Env) (drawn : Nat) (entries : List (String × (Option Expr × Assignments))) : Prop :=
  ∀ e ∈ entries, ∃ n < drawn, e.1 = env.uuid n

/-- One call of `update_diff_log`: a new entry, behind the others of its table. -/
theorem updateDiffLog_entries {env : Env} {map : StateDiffLog} {drawn : Nat} {tableName : String}
    (huuid : Function.Injective env.uuid) (hdrawn : Drawn env drawn (tableEntries map tableName))
    (selection : Option Expr) (a : Assignments) :
    ∃ map', updateDiffLog map (env.uuid drawn) tableName selection a = some map' ∧
      tableEntries map' tableName = tableEntries map tableName ++ [(env.uuid drawn, (selection, a))] ∧
      ∀ t ≠ tableName, tableEntries map' t = tableEntries map t := by
  obtain ⟨map', hupdate, hlookup, hframe⟩ := updateDiffLog_spec map (env.uuid drawn) tableName selection a
  refine ⟨map', hupdate, ?_, fun t ht => by rw [tableEntries, hframe t ht]; rfl⟩
  have hfresh : ∀ e ∈ ((map.lookup tableName).getD .new).entries, e.1 ≠ env.uuid drawn := by
    intro e he heq
    obtain ⟨n, hn, hne⟩ := hdrawn e he
    have hdrawn : n = drawn := huuid (hne.symm.trans heq)
    omega
  rw [tableEntries, hlookup]
  exact TtlCache.entries_insert_of_fresh _ hfresh

theorem Drawn.append {env : Env} {drawn : Nat} {entries : List (String × (Option Expr × Assignments))}
    (h : Drawn env drawn entries) (entry : Option Expr × Assignments) :
    Drawn env (drawn + 1) (entries ++ [(env.uuid drawn, entry)]) := by
  intro e he
  rw [List.mem_append, List.mem_singleton] at he
  rcases he with he | rfl
  · obtain ⟨n, hn, hne⟩ := h e he
    exact ⟨n, by omega, hne⟩
  · exact ⟨drawn, by omega, rfl⟩

theorem getDiffLoop_update {env : Env} {map : StateDiffLog} {drawn : Nat} {u : LiteralUpdate} {rest : List Statement}
    {tableName : String} (huuid : Function.Injective env.uuid) (htable : env.identToString u.name.last = tableName)
    (hdrawn : Drawn env drawn (tableEntries map tableName)) :
    ∃ map', getDiffLoop env map drawn (u.toStatement :: rest) = getDiffLoop env map' (drawn + 1) rest ∧
      tableEntries map' tableName = tableEntries map tableName ++ [(env.uuid drawn, u.entry)] := by
  obtain ⟨map', hupdate, hentries, -⟩ := updateDiffLog_entries huuid hdrawn u.selection u.assignments
  refine ⟨map', ?_, hentries⟩
  rw [LiteralUpdate.toStatement, getDiffLoop, LiteralUpdate.processAssignments_set, htable]
  show (match updateDiffLog map (env.uuid drawn) tableName u.selection u.assignments with
    | none => none
    | some map' => getDiffLoop env map' (drawn + 1) rest) = _
  rw [hupdate]

theorem getDiffLoop_updates {env : Env} {tableName : String} (huuid : Function.Injective env.uuid) :
    ∀ {us : List LiteralUpdate} {map : StateDiffLog} {drawn : Nat},
      (∀ u ∈ us, env.identToString u.name.last = tableName) → Drawn env drawn (tableEntries map tableName) →
      ∃ map' drawn', getDiffLoop env map drawn (us.map (·.toStatement)) = some (map', drawn') ∧
        Drawn env drawn' (tableEntries map' tableName) ∧
        (tableEntries map' tableName).map (·.2) = (tableEntries map tableName).map (·.2) ++ us.map (·.entry)
  | [], map, drawn, _, hdrawn => ⟨map, drawn, rfl, hdrawn, by simp⟩
  | u :: us, map, drawn, htable, hdrawn => by
    rw [List.forall_mem_cons] at htable
    obtain ⟨map₁, hloop, hentries⟩ := @getDiffLoop_update env map drawn u (us.map (·.toStatement)) tableName huuid
      htable.1 hdrawn
    have hdrawn₁ : Drawn env (drawn + 1) (tableEntries map₁ tableName) := by
      rw [hentries]
      exact hdrawn.append u.entry
    obtain ⟨map', drawn', hrest, hdrawn', hentries'⟩ := getDiffLoop_updates huuid htable.2 hdrawn₁
    refine ⟨map', drawn', ?_, hdrawn', ?_⟩
    · rw [List.map_cons, hloop, hrest]
    · rw [hentries', hentries]; simp

/-- One call of `get_diff` after the other. -/
def recordAll (env : Env) : StateDiffLog → Nat → List (List LiteralUpdate) → Option (StateDiffLog × Nat)
  | map, drawn, [] => some (map, drawn)
  | map, drawn, call :: calls =>
    (getDiff env map drawn (some (call.map (·.toStatement)))).bind fun r => recordAll env r.1 r.2 calls

/-- **UPDATEs are recorded in order**: the table's entries are those of its UPDATEs. -/
theorem recordAll_entries {env : Env} {tableName : String} (huuid : Function.Injective env.uuid) :
    ∀ {calls : List (List LiteralUpdate)} {map map' : StateDiffLog} {drawn drawn' : Nat},
      (∀ u ∈ calls.flatten, env.identToString u.name.last = tableName) → Drawn env drawn (tableEntries map tableName) →
      recordAll env map drawn calls = some (map', drawn') →
      (tableEntries map' tableName).map (·.2) = (tableEntries map tableName).map (·.2) ++ calls.flatten.map (·.entry)
  | [], map, _, _, _, _, _, h => by
    cases h
    simp
  | call :: calls, map, map', drawn, drawn', htable, hdrawn, h => by
    rw [List.flatten_cons, List.forall_mem_append] at htable
    obtain ⟨map₁, drawn₁, hcall, hdrawn₁, hentries⟩ := getDiffLoop_updates huuid htable.1 hdrawn
    rw [recordAll, getDiff, hcall, Option.bind_some] at h
    rw [recordAll_entries huuid htable.2 hdrawn₁ h, hentries]
    simp

end MocksySql
