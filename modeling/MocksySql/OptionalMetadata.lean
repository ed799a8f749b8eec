import MocksySql.MultiResult
/-!
# Result sets with optional metadata

Under CLIENT_OPTIONAL_RESULTSET_METADATA a result set starts with a byte that says whether its definitions follow.
`MetaExchange` reads it by `IntLenEnc::from_bytes(.., Some(1))` (`result_set.rs:304`), which panics whenever it is given a
length (`types.rs:60`).

* `optional_metadata_never_ends` — no such result set is consumed.
-/

namespace MocksySql
open FieldDecode

/-- A result set as a server sends it under CLIENT_OPTIONAL_RESULTSET_METADATA, with its definitions or without; `eofs`
is the EOF packet behind these, where there is one. -/
inductive OptionalResultSet (follows : Bool) (columns : List ColumnDefinition) : List Packet → Prop
  | intro {first terminator : Packet} {definitions eofs rows : List Packet} : columns ≠ [] → columns.length < 2 ^ 64 →
      (∀ column ∈ columns, column.Sendable) → Typed first →
      first.body = (if follows then 0x01 else 0x00) :: IntLenEnc.encode columns.length →
      List.Forall₂ (fun p column => Typed p ∧ p.body = ColumnDefinition.encode column) definitions
        (if follows then columns else []) →
      eofs.length ≤ 1 → (∀ eof ∈ eofs, eof.pType = .eof) → (∀ row ∈ rows, row.pType = .other) →
      EndsResultSet terminator →
      OptionalResultSet follows columns (first :: (definitions ++ eofs ++ rows ++ [terminator]))

section
variable {env : Env} {c : Connection} {clientFlag : UInt32} {p : Packet}

/-- **No result set with optional metadata is consumed**, whether its definitions follow or not. -/
theorem optional_metadata_never_ends (h : AwaitsQuery c clientFlag) (hfresh : c.queryResponse = .default)
    (hopt : hasFlag clientFlag .clientOptionalResultSetMetadata) {follows : Bool} {columns : List ColumnDefinition}
    {packets : List Packet} (hps : OptionalResultSet follows columns packets) : ¬ EndsAtLast env c packets := by
  have hc : c = c.holding .default := Connection.holding_fresh hfresh
  intro hlast
  cases hps with
  | intro =>
    rw [hc, endsAtLast_cons h.phase (by simp)] at hlast
    obtain ⟨self', hpends, -⟩ := hlast
    exact first_packet_never_pends h hopt self' hpends

end

theorem optional_metadata_never_ends_one :
    ¬ EndsAtLast sampleEnv (sampleAwaiting 0x03000200) [samplePacket 1 [1, 1] .other,
      samplePacket 2 sampleColumn.encode .other, samplePacket 3 [1, 0x31] .other,
      samplePacket 4 [0xfe, 0, 0, 2, 0, 0, 0] .eof] :=
  @optional_metadata_never_ends _ _ _ (sampleAwaiting_awaits _) rfl (by decide) true [sampleColumn] _
    (@OptionalResultSet.intro true [sampleColumn] (samplePacket 1 [1, 1] .other) _
      [samplePacket 2 sampleColumn.encode .other] [] [samplePacket 3 [1, 0x31] .other] (by simp) (by decide)
      (by simpa using sampleColumn_wellFormed.sendable) rfl rfl (.cons ⟨rfl, rfl⟩ .nil) (by simp) (by simp)
      (by simp [samplePacket]) (.eof rfl rfl (by decide)))

/-- One column, no definitions: the first packet panics. -/
theorem metadata_byte_panics : consumePacket sampleEnv (sampleAwaiting 0x03000200) (samplePacket 1 [0, 1] .other) = none ∧
    ¬ EndsAtLast sampleEnv (sampleAwaiting 0x03000200) [samplePacket 1 [0, 1] .other,
      samplePacket 2 [1, 0x31] .other, samplePacket 3 [0xfe, 0, 0, 2, 0, 0, 0] .eof] := by
  have hpanic : consumePacket sampleEnv (sampleAwaiting 0x03000200) (samplePacket 1 [0, 1] .other) = none := rfl
  refine ⟨hpanic, fun h => ?_⟩
  rw [EndsAtLast, phases, PartialRun.transcript, hpanic] at h
  cases h

end MocksySql
