import MocksySql.Materialization
import MocksySql.ResultSetRuns
/-!
# The table an UPDATE is recorded under

`get_diff` records an UPDATE under the last part of its table's name, printed (`mod.rs:54`); `HydrateRows` looks for it
under the `org_table` of the first column (`result_set.rs:356`), read one char a byte.

* `countP_latin1_asBytes` — what reading a name one char a byte keeps.
* `keys_agree_iff` — which names the two agree on.
-/

namespace MocksySql
open FieldDecode

/-- `Display` of an identifier: its name, between its quotes if it has them; a quote inside is escaped. -/
structure PrintsQuotes (identToString : Ident → String) : Prop where
  bare : ∀ value, identToString ⟨value, none⟩ = value
  quoted : ∀ value, ∃ escaped, value.toList.Sublist escaped ∧
    (identToString ⟨value, some '`'⟩).toList = '`' :: (escaped ++ ['`'])

/-- An UPDATE of the table is found, once recorded, under this key. -/
def FoundUnder (env : Env) (name : ObjectName) (key : String) : Prop :=
  ∀ map drawn assignments selection a, processAssignments assignments ∅ = .ok a →
    ∃ map' drawn', getDiff env map drawn (some [.update (.table name) assignments selection]) = some (map', drawn') ∧
      map'.lookup key = some (((map.lookup key).getD .new).insert (env.uuid drawn) (selection, a))

/-- The key of an UPDATE of the table is the `org_table` of its columns, under which the UPDATE is found. -/
def KeysAgree (env : Env) (name : ObjectName) : Prop :=
  ∀ sent : ColumnDefinition, sent.Sendable → sent.orgTable = name.last.value →
    ∀ packet : Packet, packet.body = sent.encode →
      ∃ column, ColumnDefinition.fromPacket packet = some column ∧
        column.orgTable = env.identToString name.last ∧ FoundUnder env name column.orgTable

/-! ## Names, read one char a byte -/

/-- Reading one char a byte neither makes nor loses ASCII chars. -/
theorem countP_latin1_asBytes (s : String) :
    (latin1 (asBytes s)).toList.countP (fun c => c.val < 128) = s.toList.countP (fun c => c.val < 128) := by
  rw [toList_latin1_asBytes]
  induction s.toList with
  | nil => rfl
  | cons c cs ih =>
    rw [List.flatMap_cons, List.countP_append, ih, ← List.singleton_append, List.countP_append]
    congr 1
    by_cases hc : c.val < 128
    · have hself := congrArg String.toList (latin1_asBytes (s := String.ofList [c]) (by simpa [IsAscii] using hc))
      rw [toList_latin1_asBytes, String.toList_ofList, List.flatMap_singleton] at hself
      rw [hself]
    · have hnone : ((String.utf8EncodeChar c).map fun b => Char.ofNat b.toNat).countP (fun c => c.val < 128) = 0 := by
        rw [List.countP_eq_zero]
        intro c' hc'
        obtain ⟨b, hb, rfl⟩ := List.mem_map.1 hc'
        have hhigh := UInt8.le_iff_toNat_le.1 (high_of_mem_utf8EncodeChar hc b hb)
        rw [decide_eq_true_eq, UInt32.lt_iff_toNat_lt, toNat_byteChar]
        exact Nat.not_lt.2 hhigh
      rw [hnone]
      simp [hc]

/-! ## The two keys -/

theorem foundUnder_key (env : Env) (name : ObjectName) : FoundUnder env name (env.identToString name.last) := by
  intro map drawn assignments selection a ha
  obtain ⟨map', hupdate, hentry, -⟩ :=
    updateDiffLog_spec map (env.uuid drawn) (env.identToString name.last) selection a
  refine ⟨map', drawn + 1, ?_, hentry⟩
  rw [getDiff, getDiffLoop, ha]
  simp only [hupdate]
  rfl

/-- A quoted name has two ASCII chars more than the name it is read as. -/
theorem quoted_ne {identToString : Ident → String} (h : PrintsQuotes identToString) (value : String) :
    latin1 (asBytes value) ≠ identToString ⟨value, some '`'⟩ := by
  intro heq
  obtain ⟨escaped, hsub, hquoted⟩ := h.quoted value
  have hcount := countP_latin1_asBytes value
  rw [heq, hquoted, List.countP_cons, List.countP_append, List.countP_cons] at hcount
  have hle := hsub.countP_le (p := fun c => c.val < 128)
  have hquote : decide (('`' : Char).val < 128) = true := by decide
  rw [if_pos hquote] at hcount
  omega

/-- **Writer and reader agree on the key** of a table exactly if its name is ASCII and written without quotes. -/
theorem keys_agree_iff {env : Env} {name : ObjectName} (hdisplay : PrintsQuotes env.identToString)
    (hquote : name.last.quoteStyle = none ∨ name.last.quoteStyle = some '`')
    (hlength : (asBytes name.last.value).length < 2 ^ 64) :
    KeysAgree env name ↔ name.last.quoteStyle = none ∧ IsAscii name.last.value := by
  obtain ⟨qualifier, value, quoteStyle⟩ := name
  simp only at hquote hlength
  have hread : ∀ {sent : ColumnDefinition}, sent.orgTable = value → sent.asRead.orgTable = latin1 (asBytes value) := by
    rintro sent rfl
    rfl
  constructor
  · intro h
    have hsendable : ({ sampleColumn with orgTable := value } : ColumnDefinition).Sendable := by
      refine ⟨rfl, ?_⟩
      simp only [List.forall_mem_cons]
      exact ⟨by decide, by decide, hlength, by decide, by decide, by simp⟩
    obtain ⟨column, hcolumn, hkey, -⟩ := h _ hsendable rfl ⟨⟨0, 0⟩, _, .other, false⟩ rfl
    rw [ColumnDefinition.fromPacket_sent hsendable rfl] at hcolumn
    cases hcolumn
    rw [hread rfl] at hkey
    rcases hquote with rfl | rfl
    · rw [hdisplay.bare] at hkey
      exact ⟨rfl, latin1_asBytes_iff.1 hkey⟩
    · exact absurd hkey (quoted_ne hdisplay value)
  · rintro ⟨rfl, hascii⟩ sent hsent hvalue packet hbody
    have hkey : sent.asRead.orgTable = env.identToString ⟨value, none⟩ := by
      rw [hread hvalue, latin1_asBytes hascii, hdisplay.bare]
    exact ⟨sent.asRead, ColumnDefinition.fromPacket_sent hsent hbody, hkey, hkey ▸ foundUnder_key env _⟩

/-- An identifier as it is printed, for names without quotes in them. -/
def sampleQuoted (ident : Ident) : String :=
  match ident.quoteStyle with
  | none => ident.value
  | some q => String.ofList (q :: (ident.value.toList ++ [q]))

theorem sampleQuoted_prints : PrintsQuotes sampleQuoted where
  bare _ := rfl
  quoted value := ⟨value.toList, List.Sublist.refl _, by simp [sampleQuoted]⟩

theorem keys_agree_bare : KeysAgree { sampleEnv with identToString := sampleQuoted } ⟨[⟨"s", none⟩], ⟨"t", none⟩⟩ :=
  (@keys_agree_iff { sampleEnv with identToString := sampleQuoted } ⟨[⟨"s", none⟩], ⟨"t", none⟩⟩
    sampleQuoted_prints (.inl rfl) (by decide)).2 ⟨rfl, by decide⟩

/-- An UPDATE of a table in back-quotes is recorded under a name with back-quotes. -/
theorem quoted_key_differs :
    ¬ KeysAgree { sampleEnv with identToString := sampleQuoted } ⟨[], ⟨"t", some '`'⟩⟩ := by
  intro h
  obtain ⟨column, hcolumn, hkey, -⟩ := h sampleColumn sampleColumn_wellFormed.sendable rfl
    (samplePacket 2 sampleColumn.encode .other) rfl
  rw [ColumnDefinition.fromPacket_encode sampleColumn_wellFormed rfl] at hcolumn
  cases hcolumn
  exact absurd hkey (by decide)

end MocksySql
