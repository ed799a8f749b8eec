import MocksySql.ExecuteResponse
import MocksySql.PrepareResponse
/-!
# Prepared statements

The responses to COM_STMT_PREPARE and COM_STMT_EXECUTE that give the turn back with their last packet, and not before.

* `turnsBack_prepareResponse` — a statement that has parameters.
* `turnsBack_executeResponse` — an OK packet, or rows that can be told from one.
-/

namespace MocksySql
open FieldDecode

section
variable {env : Env} {c : Connection} {clientFlag : UInt32}

theorem DefinitionGroup.definitions {columns : List ColumnDefinition} {ps : List Packet} (h : DefinitionGroup clientFlag columns ps)
    (hdep : hasFlag clientFlag .clientDeprecateEof) :
    List.Forall₂ (fun p column => p.body = ColumnDefinition.encode column) ps columns := by
  cases h with
  | empty => exact .nil
  | alone _ _ hps => exact hps
  | withEof _ hlegacy => simp [hlegacy] at hdep

/-- The OK packet, then the definitions. -/
theorem turnsBack_prepareResponse (h : AwaitsPrepare c clientFlag) (hdep : hasFlag clientFlag .clientDeprecateEof)
    (hopt : hasFlag clientFlag .clientOptionalResultSetMetadata = false) {params columns : List ColumnDefinition}
    {packets : List Packet} (hne : params ≠ []) (hsent : PrepareResponse clientFlag (some (params, columns)) packets) :
    ∃ self', TurnsBack env c .default packets self' := by
  cases hsent with
  | @prepared _ _ first ps cs statementId _ hparams hcolumns hsendable hsize hbody hgroup hgroup' =>
    rw [List.forall_mem_append] at hsendable
    have hfirst : Pends env c .default first (ResponseAccumulator.prepared statementId columns.length params.length) :=
      (pends_iff h.phase).2 ⟨first, ResponseAccumulator.consumeLoop_prepareOk (h.holding _) hopt hcolumns hparams hsize hbody⟩
    obtain ⟨self', hturn, -⟩ := @turnsBack_prepared env _ _ statementId _ _ h _ _
      (by simpa using hne : params.map ColumnDefinition.asRead ≠ []) (decoded_bodies hsendable.1 (hgroup.definitions hdep))
      (decoded_bodies hsendable.2 (hgroup'.definitions hdep))
    rw [List.length_map, List.length_map] at hturn
    exact ⟨self', hturn.prepend (.cons hfirst (.nil _))⟩

theorem turnsBack_execute (h : AwaitsExecute c clientFlag) {ps : List Packet} {last : Packet}
    (hps : ∀ p ∈ ps, Decodes c p ∧ ¬ EndsExecute p) (hlast : Decodes c last ∧ EndsExecute last) (self : ResponseAccumulator) :
    ∃ self', TurnsBack env c self (ps ++ [last]) self' := by
  obtain ⟨self₁, hpends, hend⟩ := (endsAtLast_append h.phase (by simp)).1
    ((@endsAtLast_execute env c clientFlag h last ps self).2 ⟨hps, hlast⟩)
  obtain ⟨self', p', hconsume⟩ := (endsAtLast_singleton_iff h.phase).1 hend
  exact ⟨self', ps, last, self₁, p', rfl, hpends, hconsume⟩

/-- An OK packet, or a count, definitions, rows and the OK packet that took the place of EOF. -/
theorem turnsBack_executeResponse (h : AwaitsExecute c clientFlag) {response : ExecuteResponse}
    (hsent : response.Sent clientFlag) (hfits : response.Fits clientFlag) (self : ResponseAccumulator) :
    ∃ self', TurnsBack env c self response.packets self' := by
  cases hsent with
  | @ok packet htyped hseq hshaped =>
    have hhead : packet.body.head? = some 0x00 := by
      obtain ⟨_, _, _, -, -, -, hbody⟩ := hshaped
      rw [hbody]
      rfl
    exact turnsBack_execute h (List.forall_mem_nil _) ⟨(decodes_zero_iff h.flags htyped hhead).2 (.inr hshaped),
      (ends_zero_iff htyped hhead).2 ⟨hfits, hseq⟩⟩ self
  | error => exact hfits.elim
  | @resultSet columns follows count definitions eofs rows terminator hne _ hsendable hcount hseq hbody hdefinitions heofs hrows
      hterminator =>
    obtain ⟨hdep, hfew, hrowsFit, hhead, hshort⟩ := hfits
    rw [if_pos hdep] at heofs
    subst heofs
    obtain ⟨hdecodes, hends⟩ := ends_eof_iff (c := c) hterminator hhead
    rw [ExecuteResponse.packets, List.append_nil]
    refine turnsBack_execute h ?_ ⟨hdecodes, hends.2 hshort⟩ self
    rw [List.forall_mem_append, List.forall_mem_cons]
    refine ⟨⟨(waits_count_iff h.flags (List.length_pos_of_ne_nil hne) hcount hseq hbody).2 hfew, ?_⟩, ?_⟩
    · intro p hp
      obtain ⟨column, hcolumn, htyped, hencoded⟩ := forall₂_mem hdefinitions p hp
      refine waits_definition (hsendable column ?_) htyped hencoded
      split_ifs at hcolumn
      · exact hcolumn
      · cases hcolumn
    · intro row hrow
      exact (waits_zero_iff h.flags (hrows row hrow).1 (hrows row hrow).2).2 (hrowsFit row hrow)

end

end MocksySql
