import MocksySql.MultiResult
/-!
# Responses to COM_STMT_PREPARE

A server answers with an OK packet that counts the parameters and the columns of the statement, a definition for each
parameter and a definition for each column, or with an ERR packet. Without CLIENT_DEPRECATE_EOF an EOF packet stands
behind the definitions of each kind.

| here | there |
| --- | --- |
| `prepareOkBody`      | what `State::Initiated` reads (`result_set.rs:201-236`) |
| `PrepareResponse`    | the responses `process_stmt_prepare` (`:193`) is for |

* `consumeLoop_param`, `consumeLoop_preparedColumn` — one definition.
* `prepare_exact_end_iff` — which responses are taken in whole.
-/

namespace MocksySql
open FieldDecode PartialRun

/-- The connection waits for the response to a COM_STMT_PREPARE under these capability flags. -/
structure AwaitsPrepare (c : Connection) (clientFlag : UInt32) : Prop where
  phase : c.phase = .pendingResponse
  command : ∃ command, c.lastCommand = some command ∧ command.comCode = .comStmtPrepare
  flags : c.clientFlag = some clientFlag

def prepareOkBody (statementId : UInt32) (columnCount paramCount : Nat) (warnings : UInt16) : Bytes :=
  0x00 :: (toLe 4 statementId.toNat ++ (toLe 2 columnCount ++ (toLe 2 paramCount ++
    (0x00 :: toLe 2 warnings.toNat))))

/-- The definitions of one kind, and the EOF packet behind them, where there is one. -/
inductive DefinitionGroup (clientFlag : UInt32) : List ColumnDefinition → List Packet → Prop
  | empty : DefinitionGroup clientFlag [] []
  | alone {columns : List ColumnDefinition} {definitions : List Packet} : columns ≠ [] →
      hasFlag clientFlag .clientDeprecateEof → List.Forall₂ (fun p column => p.body = column.encode) definitions columns →
      DefinitionGroup clientFlag columns definitions
  | withEof {columns : List ColumnDefinition} {definitions : List Packet} {eof : Packet} {b0 b1 b2 b3 : UInt8} :
      columns ≠ [] → hasFlag clientFlag .clientDeprecateEof = false →
      List.Forall₂ (fun p column => p.body = column.encode) definitions columns → eof.body = [0xfe, b0, b1, b2, b3] →
      DefinitionGroup clientFlag columns (definitions ++ [eof])

/-- The packets of a response: an ERR packet, or the OK packet, the parameters and the columns of the statement. -/
inductive PrepareResponse (clientFlag : UInt32) : Option (List ColumnDefinition × List ColumnDefinition) →
    List Packet → Prop
  | error {p : Packet} : p.body.head? = some 0xff → PrepareResponse clientFlag none [p]
  | prepared {params columns : List ColumnDefinition} {first : Packet} {ps cs : List Packet} (statementId : UInt32)
      (warnings : UInt16) : params.length < 2 ^ 16 → columns.length < 2 ^ 16 →
      (∀ column ∈ params ++ columns, column.Sendable) → first.header.size = first.body.length →
      first.body = prepareOkBody statementId columns.length params.length warnings →
      DefinitionGroup clientFlag params ps → DefinitionGroup clientFlag columns cs →
      PrepareResponse clientFlag (some (params, columns)) (first :: (ps ++ cs))

/-- The response ends exactly at its last packet, with the definitions that were sent. -/
structure PrepareTaken (env : Env) (c : Connection) (sent : Option (List ColumnDefinition × List ColumnDefinition))
    (packets : List Packet) : Prop where
  ends : EndsAtLast env c packets
  collected : ∀ params columns, sent = some (params, columns) →
    ∃ c' outs, run (consumePacket env) c packets = some (c', outs) ∧
      c'.queryResponse.params = params.map ColumnDefinition.asRead ∧
      c'.queryResponse.columns = columns.map ColumnDefinition.asRead

section
variable {env : Env} {c : Connection} {clientFlag : UInt32} {p : Packet}

theorem AwaitsPrepare.holding (h : AwaitsPrepare c clientFlag) (self : ResponseAccumulator) :
    AwaitsPrepare (c.holding self) clientFlag := ⟨h.phase, h.command, h.flags⟩

namespace ResponseAccumulator
variable {self : ResponseAccumulator} {fuel : Nat}

theorem consumeStep_prepare (h : AwaitsPrepare c clientFlag) :
    self.consumeStep env p c = self.processStmtPrepare p c .pendingResponse := by
  obtain ⟨command, hc, hprepare⟩ := h.command
  simp [consumeStep, hc, hprepare, h.phase]

/-- Behind the OK packet. -/
def prepared (statementId : UInt32) (columnCount paramCount : Nat) : ResponseAccumulator :=
  { ResponseAccumulator.default with state := .metaExchange, statementId, columnCount, paramCount }

/-- The fields of the OK packet. -/
theorem slices_prepareOkBody (statementId : UInt32) (columnCount paramCount : Nat) (warnings : UInt16) :
    slice (prepareOkBody statementId columnCount paramCount warnings) 1 5 = some (toLe 4 statementId.toNat) ∧
      slice (prepareOkBody statementId columnCount paramCount warnings) 5 7 = some (toLe 2 columnCount) ∧
      slice (prepareOkBody statementId columnCount paramCount warnings) 7 9 = some (toLe 2 paramCount) := by
  refine ⟨slice_append_mid [0x00] (toLe 4 statementId.toNat) _,
    slice_append_mid (0x00 :: toLe 4 statementId.toNat) (toLe 2 columnCount) _, ?_⟩
  have hfront : prepareOkBody statementId columnCount paramCount warnings =
      (0x00 :: (toLe 4 statementId.toNat ++ toLe 2 columnCount)) ++ (toLe 2 paramCount ++ (0x00 :: toLe 2 warnings.toNat)) := by
    simp [prepareOkBody]
  rw [hfront]
  exact slice_append_mid (0x00 :: (toLe 4 statementId.toNat ++ toLe 2 columnCount)) (toLe 2 paramCount) _

theorem fixedLen_toLe {k n : Nat} (hk : k ≤ 8) (hn : n < 256 ^ k) :
    IntFixedLen.fromBytes (toLe k n) (some k) = some ⟨n, k⟩ := by
  have hread := IntFixedLen.reads hk hn []
  rwa [List.append_nil, toLe_length] at hread

theorem consumeLoop_prepareOk {statementId : UInt32} {columnCount paramCount : Nat} {warnings : UInt16}
    (h : AwaitsPrepare c clientFlag) (hopt : hasFlag clientFlag .clientOptionalResultSetMetadata = false)
    (hcolumns : columnCount < 2 ^ 16) (hparams : paramCount < 2 ^ 16) (hsize : p.header.size = p.body.length)
    (hbody : p.body = prepareOkBody statementId columnCount paramCount warnings) :
    consumeLoop env c (fuel + 1) .default p =
      some (prepared statementId columnCount paramCount, p, .pendingResponse) := by
  obtain ⟨hid, hcolumn, hparam⟩ := slices_prepareOkBody statementId columnCount paramCount warnings
  have hshort : ¬ p.header.size > 12 := by rw [hsize, hbody]; simp [prepareOkBody]
  have hmetadata : ∀ self : ResponseAccumulator, self.readPrepareMetadata p = some self := fun self => if_neg hshort
  have hread : ResponseAccumulator.default.readPrepareOk p c =
      some ({ ResponseAccumulator.default with statementId, columnCount, paramCount }, false) := by
    have hfirst : (prepareOkBody statementId columnCount paramCount warnings)[0]? = some 0x00 := rfl
    have hfiller : (prepareOkBody statementId columnCount paramCount warnings)[9]? = some 0x00 := rfl
    simp only [readPrepareOk, hbody, hfirst, hfiller, hid, hcolumn, hparam, guard, if_true, Option.bind_eq_bind,
      Option.bind_some, Option.pure_def, fixedLen_toLe (by decide : 4 ≤ 8) statementId.toNat_lt,
      fixedLen_toLe (by decide : 2 ≤ 8) hcolumns, fixedLen_toLe (by decide : 2 ≤ 8) hparams, hmetadata, h.flags,
      UInt32.ofNat_toNat]
    simp [hopt, ResponseAccumulator.default]
  have hinitiated : ResponseAccumulator.default.state = .initiated := rfl
  apply consumeLoop_done
  rw [consumeStep_prepare h]
  simp only [processStmtPrepare, hinitiated, hread, Option.bind_eq_bind, Option.bind_some]
  rfl

/-- Anything else panics. -/
theorem consumeLoop_prepareError (h : AwaitsPrepare c clientFlag) (hbody : p.body.head? = some 0xff) :
    consumeLoop env c (fuel + 1) .default p = none := by
  have hfirst : ¬ p.body[0]? = some 0x00 := by
    rw [← List.head?_eq_getElem?, hbody]
    decide
  have hread : ResponseAccumulator.default.readPrepareOk p c = none := by
    simp [readPrepareOk, hfirst]
  have hinitiated : ResponseAccumulator.default.state = .initiated := rfl
  rw [consumeLoop, consumeStep_prepare h]
  simp [processStmtPrepare, hinitiated, hread]

/-- The packet behind the OK packet is a parameter, and where there is none, the state has no branch. -/
theorem consumeLoop_metaExchange (h : AwaitsPrepare c clientFlag) (hstate : self.state = .metaExchange) :
    consumeLoop env c (fuel + 2) self p =
      if 0 < self.paramCount then consumeLoop env c (fuel + 1) { self with state := .hydrateParams } p else none := by
  have hround : self.consumeStep env p c =
      some ({ self with state := if 0 < self.paramCount then .hydrateParams else .paramsHydrated }, p, .consume) := by
    rw [consumeStep_prepare h]
    simp [processStmtPrepare, hstate]
  rw [consumeLoop_consume hround]
  split_ifs
  · rfl
  · rw [consumeLoop, consumeStep_prepare h]
    rfl

theorem consumeLoop_prepareComplete (h : AwaitsPrepare c clientFlag) :
    consumeLoop env c (fuel + 1) { self with state := .complete } p = some (self.completed p.pType, p, .command) := by
  apply consumeLoop_done
  rw [consumeStep_prepare h]
  rfl

/-- The accumulator with these parameters. -/
def withParams (self : ResponseAccumulator) (params : List ColumnDefinition) : ResponseAccumulator :=
  { self with state := .hydrateParams, params }

/-- The accumulator with these columns. -/
def withColumns (self : ResponseAccumulator) (columns : List ColumnDefinition) : ResponseAccumulator :=
  { self with state := .hydrateColumns, columns }

/-- Behind the OK packet, with these parameters read. -/
def collecting (self : ResponseAccumulator) (params : List ColumnDefinition) : ResponseAccumulator :=
  if params = [] then self else self.withParams params

/-- A parameter: the last one ends the response of a statement without columns. -/
theorem consumeLoop_param {params : List ColumnDefinition} {param : ColumnDefinition} (h : AwaitsPrepare c clientFlag)
    (hparam : ColumnDefinition.fromPacket p = some param) :
    consumeLoop env c (fuel + 2) (self.withParams params) p =
      if (params ++ [param]).length = self.paramCount then
        if 0 < self.columnCount then
          some ((self.withParams (params ++ [param])).withColumns self.columns, p, .pendingResponse)
        else some ((self.withParams (params ++ [param])).completed p.pType, p, .command)
      else some (self.withParams (params ++ [param]), p, .pendingResponse) := by
  have hstep : (self.withParams params).consumeStep env p c =
      if (params ++ [param]).length = self.paramCount then
        if 0 < self.columnCount then
          some ((self.withParams (params ++ [param])).withColumns self.columns, p, .done .pendingResponse)
        else some ({ self.withParams (params ++ [param]) with state := .complete }, p, .consume)
      else some (self.withParams (params ++ [param]), p, .done .pendingResponse) := by
    rw [consumeStep_prepare h]
    simp only [processStmtPrepare, withParams, hparam, Option.bind_eq_bind, Option.bind_some]
    rfl
  split_ifs at hstep ⊢
  · exact consumeLoop_done hstep
  · rw [consumeLoop_consume hstep, consumeLoop_prepareComplete h]
  · exact consumeLoop_done hstep

theorem consumeLoop_preparedColumn {columns : List ColumnDefinition} {column : ColumnDefinition}
    (h : AwaitsPrepare c clientFlag) (hcolumn : ColumnDefinition.fromPacket p = some column) :
    consumeLoop env c (fuel + 2) (self.withColumns columns) p =
      if (columns ++ [column]).length = self.columnCount then
        some ((self.withColumns (columns ++ [column])).completed p.pType, p, .command)
      else some (self.withColumns (columns ++ [column]), p, .pendingResponse) := by
  have hstep : (self.withColumns columns).consumeStep env p c =
      if (columns ++ [column]).length = self.columnCount then
        some ({ self.withColumns (columns ++ [column]) with state := .complete }, p, .consume)
      else some (self.withColumns (columns ++ [column]), p, .done .pendingResponse) := by
    rw [consumeStep_prepare h]
    simp only [processStmtPrepare, withColumns, hcolumn, Option.bind_eq_bind, Option.bind_some]
    rfl
  split_ifs at hstep ⊢ with hlast
  · rw [consumeLoop_consume hstep, consumeLoop_prepareComplete h]
  · exact consumeLoop_done hstep

end ResponseAccumulator

/-! ## Runs -/

/-- Definitions that are collected one by one, the last one left out. -/
theorem pendsAll_collect {collected : List ColumnDefinition → ResponseAccumulator} {n : Nat}
    (hstep : ∀ read column p, ColumnDefinition.fromPacket p = some column → (read ++ [column]).length < n →
      Pends env c (collected read) p (collected (read ++ [column]))) {ps : List Packet} {columns : List ColumnDefinition}
    (hps : List.Forall₂ (fun p column => ColumnDefinition.fromPacket p = some column) ps columns) :
    ∀ read : List ColumnDefinition, (read ++ columns).length < n →
      PendsAll env c (collected read) ps (collected (read ++ columns)) := by
  induction hps with
  | nil =>
    intro read _
    rw [List.append_nil]
    exact .nil _
  | @cons p column ps columns hp _ ih =>
    intro read hlength
    have happend : read ++ column :: columns = read ++ [column] ++ columns := by simp
    rw [happend] at hlength ⊢
    refine .cons (hstep read column p hp ?_) (ih _ hlength)
    rw [List.length_append] at hlength
    omega

/-- The last of the packets gives the turn back, and none before it. -/
def TurnsBack (env : Env) (c : Connection) (self : ResponseAccumulator) (packets : List Packet)
    (self' : ResponseAccumulator) : Prop :=
  ∃ init last self₁ p', packets = init ++ [last] ∧ PendsAll env c self init self₁ ∧
    self₁.consume env last (c.holding self₁) = some (self', p', .command)

theorem TurnsBack.prepend {self self₁ self' : ResponseAccumulator} {ps qs : List Packet} (hps : PendsAll env c self ps self₁)
    (hqs : TurnsBack env c self₁ qs self') : TurnsBack env c self (ps ++ qs) self' := by
  obtain ⟨init, last, self₂, p', rfl, hinit, hlast⟩ := hqs
  exact ⟨ps ++ init, last, self₂, p', (List.append_assoc ..).symm, hps.append hinit, hlast⟩

theorem TurnsBack.ends (hphase : c.phase = .pendingResponse) {self self' : ResponseAccumulator} {packets : List Packet}
    (h : TurnsBack env c self packets self') : EndsAtLast env (c.holding self) packets ∧
      ∃ c' outs, run (consumePacket env) (c.holding self) packets = some (c', outs) ∧ c'.queryResponse = self' := by
  obtain ⟨init, last, self₁, p', rfl, hinit, hlast⟩ := h
  have hstep := consumePacket_pending (c := c.holding self₁) hphase hlast
  refine ⟨(endsAtLast_append hphase (by simp)).2 ⟨self₁, hinit, endsAtLast_singleton.2 ⟨_, _, hstep, rfl⟩⟩, ?_⟩
  obtain ⟨⟨outs, hrun⟩, -⟩ := hinit.run hphase
  exact ⟨_, _, run_concat_some hrun hstep, rfl⟩

/-- With packets behind it the turn comes back too early. -/
theorem TurnsBack.early (hphase : c.phase = .pendingResponse) {self self' : ResponseAccumulator} {packets more : List Packet}
    (h : TurnsBack env c self packets self') (hmore : more ≠ []) : ¬ EndsAtLast env (c.holding self) (packets ++ more) := by
  obtain ⟨init, last, self₁, p', rfl, hinit, hlast⟩ := h
  intro hends
  obtain ⟨self₂, hpends, -⟩ := (endsAtLast_append hphase hmore).1 hends
  obtain ⟨self₃, hinit', hlast'⟩ := hpends.append_inv
  cases hinit.unique hphase hinit'
  cases hlast' with
  | cons hp _ =>
    obtain ⟨_, hconsume⟩ := (pends_iff hphase).1 hp
    rw [hlast] at hconsume
    cases hconsume

/-- The first packet of a response that ends is consumed. -/
theorem EndsAtLast.consumes (hphase : c.phase = .pendingResponse) {self : ResponseAccumulator} {ps : List Packet}
    (h : EndsAtLast env (c.holding self) (p :: ps)) : ∃ r, self.consume env p (c.holding self) = some r := by
  have hstep : ∃ r, consumePacket env (c.holding self) p = some r := by
    rw [EndsAtLast, phases] at h
    rw [← Option.ne_none_iff_exists']
    intro hnone
    rw [transcript, hnone] at h
    exact absurd h.symm (by simp)
  obtain ⟨r, hr⟩ := hstep
  obtain ⟨self', p', phase, hconsume, -⟩ := consumePacket_pending_cases (c := c.holding self) hphase hr
  exact ⟨_, hconsume⟩

theorem decoded_bodies {columns : List ColumnDefinition} {ps : List Packet} (hsendable : ∀ column ∈ columns, column.Sendable)
    (hps : List.Forall₂ (fun p column => p.body = ColumnDefinition.encode column) ps columns) :
    List.Forall₂ (fun p column => ColumnDefinition.fromPacket p = some column) ps (columns.map ColumnDefinition.asRead) :=
  forall₂_asRead (fun _ _ hcolumn hp => ColumnDefinition.fromPacket_sent hcolumn hp) hsendable hps

/-- The last of the definitions. -/
theorem forall₂_concat {R : Packet → ColumnDefinition → Prop} {ps : List Packet} {columns : List ColumnDefinition}
    (h : List.Forall₂ R ps columns) (hne : columns ≠ []) :
    ∃ init last columns' column, ps = init ++ [last] ∧ columns = columns' ++ [column] ∧
      List.Forall₂ R init columns' ∧ R last column := by
  obtain rfl | ⟨columns', column, rfl⟩ := columns.eq_nil_or_concat
  · exact absurd rfl hne
  · rw [List.concat_eq_append] at h ⊢
    have hinit := List.forall₂_take_append ps columns' [column] h
    obtain ⟨last, rest, hlast, hrest, hdrop⟩ := List.forall₂_cons_right_iff.1 (List.forall₂_drop_append ps columns' [column] h)
    cases hrest
    exact ⟨_, last, columns', column, by rw [← hdrop, List.take_append_drop], rfl, hinit, hlast⟩

/-! ## Parameters and columns -/

section
variable {statementId : UInt32} {columnCount paramCount : Nat} {ps : List Packet} {columns : List ColumnDefinition}

/-- The first parameter, or one behind others. -/
theorem consume_param {read : List ColumnDefinition} {param : ColumnDefinition} (h : AwaitsPrepare c clientFlag)
    (hpos : 0 < paramCount) (hparam : ColumnDefinition.fromPacket p = some param) :
    ((ResponseAccumulator.prepared statementId columnCount paramCount).collecting read).consume env p c =
      if (read ++ [param]).length = paramCount then
        if 0 < columnCount then
          some (((ResponseAccumulator.prepared statementId columnCount paramCount).withParams (read ++ [param])).withColumns [],
            p, .pendingResponse)
        else
          some (((ResponseAccumulator.prepared statementId columnCount paramCount).withParams (read ++ [param])).completed
            p.pType, p, .command)
      else
        some ((ResponseAccumulator.prepared statementId columnCount paramCount).withParams (read ++ [param]), p,
          .pendingResponse) := by
  have hstep := fun fuel => @ResponseAccumulator.consumeLoop_param env c clientFlag p
    (ResponseAccumulator.prepared statementId columnCount paramCount) fuel read param h hparam
  rw [ResponseAccumulator.consume, ResponseAccumulator.consumeFuel, ResponseAccumulator.collecting]
  by_cases hread : read = []
  · subst hread
    rw [if_pos rfl, ResponseAccumulator.consumeLoop_metaExchange h rfl]
    exact (if_pos hpos).trans (hstep 13)
  · rw [if_neg hread]
    exact hstep 14

theorem collecting_concat (self : ResponseAccumulator) (read : List ColumnDefinition) (column : ColumnDefinition) :
    self.collecting (read ++ [column]) = self.withParams (read ++ [column]) := if_neg (by simp)

/-- All parameters but the last. -/
theorem pendsAll_params (h : AwaitsPrepare c clientFlag) {n : Nat} (hn : n ≤ paramCount)
    (hps : List.Forall₂ (fun p column => ColumnDefinition.fromPacket p = some column) ps columns) (hlength : columns.length < n) :
    PendsAll env c (ResponseAccumulator.prepared statementId columnCount paramCount) ps
      ((ResponseAccumulator.prepared statementId columnCount paramCount).collecting columns) := by
  refine @pendsAll_collect env c (ResponseAccumulator.prepared statementId columnCount paramCount).collecting n ?_ _ _ hps []
    hlength
  intro read column p hp hread
  refine (pends_iff h.phase).2 ⟨p, ?_⟩
  rw [consume_param (h.holding _) (by omega) hp, if_neg (by omega), collecting_concat]

theorem turnsBack_params (h : AwaitsPrepare c clientFlag) (hne : columns ≠ [])
    (hps : List.Forall₂ (fun p column => ColumnDefinition.fromPacket p = some column) ps columns) :
    ∃ self', TurnsBack env c (ResponseAccumulator.prepared statementId 0 columns.length) ps self' ∧
      self'.params = columns ∧ self'.columns = [] := by
  obtain ⟨init, last, columns', column, rfl, rfl, hinit, hlast⟩ := forall₂_concat hps hne
  refine ⟨((ResponseAccumulator.prepared statementId 0 (columns' ++ [column]).length).withParams
    (columns' ++ [column])).completed last.pType, ⟨init, last, _, last, rfl, pendsAll_params h le_rfl hinit (by simp), ?_⟩,
    rfl, rfl⟩
  exact (consume_param (h.holding _) (by simp) hlast).trans (if_pos rfl)

theorem pendsAll_allParams (h : AwaitsPrepare c clientFlag) (hne : columns ≠ []) (hpos : 0 < columnCount)
    (hps : List.Forall₂ (fun p column => ColumnDefinition.fromPacket p = some column) ps columns) :
    PendsAll env c (ResponseAccumulator.prepared statementId columnCount columns.length) ps
      (((ResponseAccumulator.prepared statementId columnCount columns.length).withParams columns).withColumns []) := by
  obtain ⟨init, last, columns', column, rfl, rfl, hinit, hlast⟩ := forall₂_concat hps hne
  refine (pendsAll_params h le_rfl hinit (by simp)).append (.cons ((pends_iff h.phase).2 ⟨last, ?_⟩) (.nil _))
  exact (consume_param (h.holding _) (by simp) hlast).trans ((if_pos rfl).trans (if_pos hpos))

theorem turnsBack_columns (h : AwaitsPrepare c clientFlag) {self : ResponseAccumulator} (hne : columns ≠ [])
    (hcount : self.columnCount = columns.length)
    (hps : List.Forall₂ (fun p column => ColumnDefinition.fromPacket p = some column) ps columns) :
    ∃ self', TurnsBack env c (self.withColumns []) ps self' ∧ self'.params = self.params ∧ self'.columns = columns := by
  obtain ⟨init, last, columns', column, rfl, rfl, hinit, hlast⟩ := forall₂_concat hps hne
  have hstep := fun read column p hp fuel => @ResponseAccumulator.consumeLoop_preparedColumn env _ clientFlag p self fuel
    read column (h.holding (self.withColumns read)) hp
  have hpends : PendsAll env c (self.withColumns []) init (self.withColumns columns') := by
    refine @pendsAll_collect env c self.withColumns self.columnCount ?_ _ _ hinit [] (by rw [hcount]; simp)
    intro read column p hp hread
    exact (pends_iff h.phase).2 ⟨p, (hstep read column p hp 14).trans (if_neg (by omega))⟩
  exact ⟨(self.withColumns (columns' ++ [column])).completed last.pType,
    ⟨init, last, _, last, rfl, hpends, (hstep columns' column last hlast 14).trans (if_pos hcount.symm)⟩, rfl, rfl⟩

/-! ## Whole responses -/

/-- Without parameters the packet behind the OK packet panics, and where there is none, the turn never comes back. -/
theorem not_ends_prepared (h : AwaitsPrepare c clientFlag) (hne : ps ≠ []) :
    ¬ EndsAtLast env (c.holding (ResponseAccumulator.prepared statementId columnCount 0)) ps := by
  intro hends
  obtain ⟨p, rest, rfl⟩ := List.exists_cons_of_ne_nil hne
  obtain ⟨r, hr⟩ := EndsAtLast.consumes h.phase hends
  rw [ResponseAccumulator.consume, ResponseAccumulator.consumeFuel,
    ResponseAccumulator.consumeLoop_metaExchange (h.holding _) rfl] at hr
  cases hr

/-- A legacy EOF packet is no definition. -/
theorem fromPacket_legacyEof {b0 b1 b2 b3 : UInt8} (hbody : p.body = [0xfe, b0, b1, b2, b3]) :
    ColumnDefinition.fromPacket p = none := by
  rw [ColumnDefinition.fromPacket, hbody]
  rfl

/-- Without CLIENT_DEPRECATE_EOF the EOF packet behind the parameters comes after the end, or is read as a column. -/
theorem not_ends_legacy (h : AwaitsPrepare c clientFlag) (hne : columns ≠ []) {eof : Packet} {b0 b1 b2 b3 : UInt8}
    (heof : eof.body = [0xfe, b0, b1, b2, b3])
    (hps : List.Forall₂ (fun p column => ColumnDefinition.fromPacket p = some column) ps columns) (cs : List Packet) :
    ¬ EndsAtLast env (c.holding (ResponseAccumulator.prepared statementId columnCount columns.length))
      (ps ++ (eof :: cs)) := by
  rcases Nat.eq_zero_or_pos columnCount with rfl | hpos
  · obtain ⟨self', hturn, -⟩ := @turnsBack_params env _ _ statementId _ _ h hne hps
    exact hturn.early h.phase (by simp)
  · intro hends
    obtain ⟨self', hpends, hrest⟩ := (endsAtLast_append h.phase (by simp)).1 hends
    cases hpends.unique h.phase (pendsAll_allParams h hne hpos hps)
    obtain ⟨r, hr⟩ := EndsAtLast.consumes h.phase hrest
    have hpanic : ∀ self : ResponseAccumulator, (self.withColumns []).consumeStep env eof (c.holding (self.withColumns [])) =
        none := by
      intro self
      rw [ResponseAccumulator.consumeStep_prepare (h.holding _)]
      simp [ResponseAccumulator.processStmtPrepare, ResponseAccumulator.withColumns, fromPacket_legacyEof heof]
    rw [ResponseAccumulator.consume, ResponseAccumulator.consumeFuel, ResponseAccumulator.consumeLoop, hpanic] at hr
    cases hr

/-- With parameters and CLIENT_DEPRECATE_EOF the definitions are collected up to the last packet. -/
theorem turnsBack_prepared (h : AwaitsPrepare c clientFlag) {params : List ColumnDefinition} {cs : List Packet}
    (hne : params ≠ []) (hps : List.Forall₂ (fun p column => ColumnDefinition.fromPacket p = some column) ps params)
    (hcs : List.Forall₂ (fun p column => ColumnDefinition.fromPacket p = some column) cs columns) :
    ∃ self', TurnsBack env c (ResponseAccumulator.prepared statementId columns.length params.length) (ps ++ cs) self' ∧
      self'.params = params ∧ self'.columns = columns := by
  by_cases hcolumns : columns = []
  · subst hcolumns
    cases hcs
    rw [List.append_nil]
    exact turnsBack_params h hne hps
  · have hpends := @pendsAll_allParams env _ _ statementId _ _ _ h hne (List.length_pos_of_ne_nil hcolumns) hps
    obtain ⟨self', hturn, hparams, hread⟩ := @turnsBack_columns env _ _ _ _ h
      ((ResponseAccumulator.prepared statementId columns.length params.length).withParams params) hcolumns rfl hcs
    exact ⟨self', hturn.prepend hpends, hparams, hread⟩

/-- Definitions behind the OK packet that end the response at their last packet. -/
theorem groups_of_ends (h : AwaitsPrepare c clientFlag) {params : List ColumnDefinition} {cs : List Packet}
    (hparams : DefinitionGroup clientFlag params ps) (hsendable : ∀ column ∈ params, column.Sendable) (hne : ps ++ cs ≠ [])
    (hends : EndsAtLast env (c.holding (ResponseAccumulator.prepared statementId columns.length params.length)) (ps ++ cs)) :
    params ≠ [] ∧ hasFlag clientFlag .clientDeprecateEof := by
  cases hparams with
  | empty => exact absurd hends (not_ends_prepared h hne)
  | alone hne hdep _ => exact ⟨hne, hdep⟩
  | withEof hsome _ hps heof =>
    have hlegacy := @not_ends_legacy env _ _ statementId columns.length _ _ h (by simpa using hsome) _ _ _ _ _ heof
      (decoded_bodies hsendable hps) cs
    rw [List.length_map] at hlegacy
    rw [List.append_assoc] at hends
    exact absurd hends hlegacy

/-- **A response to a COM_STMT_PREPARE is taken in whole** exactly if it is no ERR packet, the statement has parameters and
CLIENT_DEPRECATE_EOF is set. -/
theorem prepare_exact_end_iff (h : AwaitsPrepare c clientFlag) (hfresh : c.queryResponse = .default)
    (hopt : hasFlag clientFlag .clientOptionalResultSetMetadata = false)
    {sent : Option (List ColumnDefinition × List ColumnDefinition)} {packets : List Packet}
    (hps : PrepareResponse clientFlag sent packets) :
    PrepareTaken env c sent packets ↔
      ∃ params columns, sent = some (params, columns) ∧ params ≠ [] ∧ hasFlag clientFlag .clientDeprecateEof := by
  have hc : c = c.holding .default := Connection.holding_fresh hfresh
  cases hps with
  | @error p hbody =>
    refine ⟨fun ht => ?_, by rintro ⟨_, _, hsome, -⟩; cases hsome⟩
    have hends := ht.ends
    rw [hc] at hends
    obtain ⟨r, hr⟩ := EndsAtLast.consumes h.phase hends
    exact absurd ((ResponseAccumulator.consumeLoop_prepareError (h.holding _) hbody).symm.trans hr) (by simp)
  | @prepared params columns first ps cs statementId warnings hparams hcolumns hsendable hsize hbody hgroupParams hgroupColumns =>
    have hpends : Pends env c .default first
        (ResponseAccumulator.prepared statementId columns.length params.length) :=
      (pends_iff h.phase).2 ⟨first, ResponseAccumulator.consumeLoop_prepareOk (h.holding _) hopt hcolumns hparams
        hsize hbody⟩
    have hfirst : PendsAll env c .default [first] _ := .cons hpends (.nil _)
    constructor
    · intro ht
      have hends := ht.ends
      rw [hc] at hends
      have hmore : ps ++ cs ≠ [] := by
        intro hnone
        rw [hnone] at hends
        exact hpends.not_ends h.phase hends
      obtain ⟨self', hpends', hrest⟩ := (endsAtLast_cons h.phase hmore).1 hends
      cases PendsAll.unique h.phase hfirst (.cons hpends' (.nil _))
      obtain ⟨hne, hdep⟩ := groups_of_ends h hgroupParams (fun column hmem => hsendable column (by simp [hmem])) hmore hrest
      exact ⟨params, columns, rfl, hne, hdep⟩
    · rintro ⟨_, _, ⟨⟩, hne, hdep⟩
      have hgroup : ∀ {columns : List ColumnDefinition} {ps : List Packet}, DefinitionGroup clientFlag columns ps →
          List.Forall₂ (fun p column => p.body = ColumnDefinition.encode column) ps columns := by
        intro columns ps hgroup
        cases hgroup with
        | empty => exact .nil
        | alone _ _ hps => exact hps
        | withEof _ hlegacy => exact absurd hdep (by simp [hlegacy])
      obtain ⟨self', hturn, hreadParams, hreadColumns⟩ := @turnsBack_prepared env _ _ statementId _ _ h _ _
        (by simpa using hne : params.map ColumnDefinition.asRead ≠ [])
        (decoded_bodies (fun column hmem => hsendable column (by simp [hmem])) (hgroup hgroupParams))
        (decoded_bodies (fun column hmem => hsendable column (by simp [hmem])) (hgroup hgroupColumns))
      rw [List.length_map, List.length_map] at hturn
      obtain ⟨hends, c', outs, hrun, hread⟩ := (hturn.prepend hfirst).ends h.phase
      rw [← hc] at hends hrun
      subst hread
      refine ⟨hends, ?_⟩
      rintro _ _ ⟨⟩
      exact ⟨c', outs, hrun, hreadParams, hreadColumns⟩

end
end

/-! ## A statement with a parameter, and one without -/

def samplePreparing : Connection :=
  { sampleAwaiting 0x01000200 with lastCommand := some ⟨.comStmtPrepare, "select x from t", none⟩ }

theorem samplePreparing_awaits : AwaitsPrepare samplePreparing 0x01000200 := ⟨rfl, ⟨_, rfl, rfl⟩, rfl⟩

/-- The OK packet, parameters and columns, all of them like `sampleColumn`. -/
def samplePrepared (paramCount columnCount : Nat) : List Packet :=
  samplePacket 1 (prepareOkBody 1 columnCount paramCount 0) .ok ::
    (List.replicate paramCount (samplePacket 2 sampleColumn.encode .other) ++
      List.replicate columnCount (samplePacket 3 sampleColumn.encode .other))

theorem samplePrepared_sent (paramCount columnCount : Nat) (hparams : paramCount < 2 ^ 16) (hcolumns : columnCount < 2 ^ 16) :
    PrepareResponse 0x01000200 (some (List.replicate paramCount sampleColumn, List.replicate columnCount sampleColumn))
      (samplePrepared paramCount columnCount) := by
  have hgroup : ∀ (seq : UInt8) (n : Nat), DefinitionGroup 0x01000200 (List.replicate n sampleColumn)
      (List.replicate n (samplePacket seq sampleColumn.encode .other)) := by
    intro seq n
    cases n with
    | zero => exact .empty
    | succ n =>
      refine .alone (by simp) (by decide) (List.forall₂_iff_get.2 ⟨by simp, fun i h₁ h₂ => ?_⟩)
      simp [samplePacket]
  refine .prepared 1 0 (by simpa using hparams) (by simpa using hcolumns) ?_ rfl (by simp [samplePacket]) (hgroup 2 _)
    (hgroup 3 _)
  intro column hmem
  rw [List.replicate_append_replicate] at hmem
  rw [List.eq_of_mem_replicate hmem]
  exact sampleColumn_wellFormed.sendable

theorem prepare_exact_end_iff_one :
    PrepareTaken sampleEnv samplePreparing (some ([sampleColumn], [sampleColumn])) (samplePrepared 1 1) :=
  (prepare_exact_end_iff samplePreparing_awaits rfl (by decide)
    (samplePrepared_sent 1 1 (by decide) (by decide))).2
    ⟨[sampleColumn], [sampleColumn], rfl, by simp, by decide⟩

/-- `SELECT x FROM t` has no parameters: its column panics. -/
theorem no_parameters_panics :
    PrepareResponse 0x01000200 (some ([], [sampleColumn])) (samplePrepared 0 1) ∧
      phases sampleEnv samplePreparing (samplePrepared 0 1) = [.pendingResponse] ∧
      PartialRun.run (consumePacket sampleEnv) samplePreparing (samplePrepared 0 1) = none ∧
      ¬ PrepareTaken sampleEnv samplePreparing (some ([], [sampleColumn])) (samplePrepared 0 1) := by
  have hphases : phases sampleEnv samplePreparing (samplePrepared 0 1) = [.pendingResponse] := rfl
  refine ⟨samplePrepared_sent 0 1 (by decide) (by decide), hphases, rfl, fun h => ?_⟩
  have hends := h.ends
  rw [EndsAtLast, hphases] at hends
  exact absurd hends (by decide)

end MocksySql
