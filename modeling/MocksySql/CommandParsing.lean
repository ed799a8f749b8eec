import MocksySql.Handshake
/-!
# Which commands are accepted

The argument of a command is made a `String` (`command.rs:17`), whatever the command, but for COM_STMT_EXECUTE.

| here | there |
| --- | --- |
| `commandBody` | a command as a client sends it: without parameters, for a COM_QUERY under CLIENT_QUERY_ATTRIBUTES |
| `argument`    | `&packet.body[offset..]` (`accumulator/command.rs:77`): the command byte too, but for a COM_QUERY |

* `argOffset_commandBody` — where the argument starts.
* `accepted_iff` — a command is accepted exactly if its argument is UTF-8, or nobody looks at it.
-/

namespace MocksySql
open FieldDecode

/-- The parameter count and the parameter set count in front of the text of a COM_QUERY. -/
def queryPrefix (clientFlag : UInt32) (code : UInt8) : Bytes :=
  if code = 0x03 ∧ hasFlag clientFlag .clientQueryAttributes then [0x00, 0x01] else []

def commandBody (clientFlag : UInt32) (code : UInt8) (arg : Bytes) : Bytes :=
  code :: (queryPrefix clientFlag code ++ arg)

def argument (code : UInt8) (arg : Bytes) : Bytes := if code = 0x03 then arg else code :: arg

section
variable {env : Env} {c : Connection} {clientFlag : UInt32} {b : UInt8} {code : MySqlCommand} {arg : Bytes} {packet : Packet}

theorem readQueryAttributes_none (text : Bytes) :
    CommandAccumulator.readQueryAttributes (0x03 :: 0x00 :: 0x01 :: text) 1 = some ((), 3) := by
  simp [CommandAccumulator.readQueryAttributes, bind, StateT.bind, field, sliceFrom, IntLenEnc.fromBytes, require]

theorem argOffset_commandBody (hflag : c.clientFlag = some clientFlag) (b : UInt8) (arg : Bytes) :
    ∃ offset, CommandAccumulator.argOffset (commandBody clientFlag b arg) c = some offset ∧
      sliceFrom (commandBody clientFlag b arg) offset = some (argument b arg) := by
  by_cases hquery : b = 0x03
  · subst hquery
    by_cases hattr : hasFlag clientFlag .clientQueryAttributes
    · refine ⟨3, ?_, by simp [commandBody, queryPrefix, hattr, argument, sliceFrom]⟩
      simp [CommandAccumulator.argOffset, commandBody, queryPrefix, hflag, hattr, StateT.run, readQueryAttributes_none]
    · refine ⟨1, ?_, by simp [commandBody, queryPrefix, hattr, argument, sliceFrom]⟩
      simp [CommandAccumulator.argOffset, commandBody, queryPrefix, hflag, hattr]
  · exact ⟨0, by simp [CommandAccumulator.argOffset, commandBody, hquery],
      by simp [commandBody, queryPrefix, hquery, argument, sliceFrom]⟩

/-- The command is made of the code and the argument, and the phase goes by the code. -/
theorem consume_commandBody (hflag : c.clientFlag = some clientFlag) (hcode : MySqlCommand.fromByte b = some code)
    (hbody : packet.body = commandBody clientFlag b arg) :
    CommandAccumulator.consume env packet c = (Command.fromBytes env code (argument b arg)).map fun command =>
      (command, if command.comCode = .comStmtClose then .command else .pendingResponse) := by
  obtain ⟨offset, hoffset, hslice⟩ := argOffset_commandBody hflag b arg
  have hhead : (commandBody clientFlag b arg).head? = some b := rfl
  simp only [CommandAccumulator.consume, hbody, hoffset, hhead, hslice, hcode, Option.bind_eq_bind, Option.bind_some]
  cases Command.fromBytes env code (argument b arg) <;> rfl

/-- The codes of commands are ASCII. -/
theorem fromByte_ascii (hcode : MySqlCommand.fromByte b = some code) : b < 0x80 := by
  unfold MySqlCommand.fromByte at hcode
  split at hcode
  all_goals first | decide | cases hcode

theorem argument_utf8_iff (hcode : MySqlCommand.fromByte b = some code) :
    (fromUtf8 (argument b arg)).isSome ↔ (fromUtf8 arg).isSome := by
  rw [argument]
  split_ifs
  · rfl
  · exact fromUtf8_cons_isSome (fromByte_ascii hcode) arg

/-- The command is accepted, and of a COM_QUERY the text is recorded as it is. -/
structure Accepted (env : Env) (c : Connection) (packet : Packet) (b : UInt8) (arg : Bytes) : Prop where
  returns : (CommandAccumulator.consume env packet c).isSome
  text : b = 0x03 → ∀ text, arg = asBytes text →
    ∃ command phase, CommandAccumulator.consume env packet c = some (command, phase) ∧ command.arg = text

/-- **A command is accepted** exactly if its argument is UTF-8, or it is a COM_STMT_EXECUTE. -/
theorem accepted_iff (hflag : c.clientFlag = some clientFlag) (hcode : MySqlCommand.fromByte b = some code)
    (hbody : packet.body = commandBody clientFlag b arg) :
    Accepted env c packet b arg ↔ code = .comStmtExecute ∨ (fromUtf8 arg).isSome := by
  have hconsume := @consume_commandBody env c clientFlag b code arg packet hflag hcode hbody
  have hreturns : (CommandAccumulator.consume env packet c).isSome ↔ code = .comStmtExecute ∨ (fromUtf8 arg).isSome := by
    rw [hconsume, Option.isSome_map, ← argument_utf8_iff hcode, Command.fromBytes]
    by_cases hexecute : code = .comStmtExecute
    · simp [hexecute]
    · rw [if_neg hexecute]
      cases fromUtf8 (argument b arg) <;> simp [hexecute]
  refine ⟨fun h => hreturns.1 h.returns, fun h => ⟨hreturns.2 h, ?_⟩⟩
  rintro rfl text rfl
  cases hcode
  rw [hconsume, Command.fromBytes, if_neg (by decide), argument, if_pos rfl, fromUtf8_asBytes]
  exact ⟨_, _, rfl, rfl⟩

end

def sampleClient (clientFlag : UInt32) : Connection :=
  { Connection.new .plain .plain ∅ none none with
    phase := .command
    handshakeResponse := some { HandshakeResponseAccumulator.default with clientFlag } }

theorem accepted_query : Accepted sampleEnv (sampleClient 0x08000200)
    ⟨⟨6, 0⟩, [0x03, 0x00, 0x01, 0x64, 0x6f, 0x20], .command, false⟩ 0x03 [0x64, 0x6f, 0x20] :=
  (@accepted_iff sampleEnv (sampleClient 0x08000200) 0x08000200 0x03 .comQuery [0x64, 0x6f, 0x20] _ rfl rfl rfl).2
    (.inr (by decide))

/-- COM_STMT_CLOSE of the statement 128. -/
theorem close_statement_panics : MySqlCommand.fromByte 0x19 = some .comStmtClose ∧
    ¬ Accepted sampleEnv (sampleClient 0x00000200)
      ⟨⟨5, 0⟩, commandBody 0x00000200 0x19 [0x80, 0, 0, 0], .command, false⟩ 0x19 [0x80, 0, 0, 0] := by
  refine ⟨rfl, fun h => ?_⟩
  have hreturns := h.returns
  revert hreturns
  decide

end MocksySql
