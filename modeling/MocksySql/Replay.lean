import Mathlib.Data.List.DropRight
import MocksySql.Intercept
import MocksySql.KafkaLog
/-!
# What replay sends upstream and what it delivers

In replay mode `send_command_to_server` decides, in the client loop whether a query goes to the server,
and in the server loop where its answer is read. The answer is delivered in pieces of a buffer's size,
and `partial_replay_bytes` has what is left of it.

* `kept_off_iff` — a query with a statement that is no plain SELECT is kept off the server exactly if one of its
  statements is a query and no SELECT, or a SELECT with a FROM of its own.
* `insert_forwarded` — an INSERT goes to the server.
* `replay_isolated` — where every entry is delivered to its end before the server loop is left, a command is
  answered from the start of its own entry.
* `leftover_delivered` — where it is not, the rest answers the next command.
-/

namespace MocksySql
open FieldDecode PartialRun ByteStream

/-- One turn of a run, with what the process shares afterwards. -/
abbrev TurnStep := Step Exchange Turn (Output × Shared)

/-- Where the bytes of a turn come from, its connection sharing what the turn finds. -/
def TurnStep.received (env : Env) (e : TurnStep) : Received :=
  receive env { e.before with connection := e.before.connection.sharing e.input.shared } e.input.read

/-! ## What is kept -/

section
variable {env : Env} {c : Connection}

theorem consumePacket_replay {c' : Connection} {packet : Packet} {out : Option Packet}
    (h : consumePacket env c packet = some (c', out)) :
    c'.replay = c.replay ∧ c'.partialReplayBytes = c.partialReplayBytes := by
  obtain ⟨_, _, he⟩ := Option.map_eq_some_iff.1 h
  cases he
  exact ⟨rfl, rfl⟩

theorem processIncomingFrame_replay {c' : Connection} {r : SocketRead} {packets : List Packet}
    (h : processIncomingFrame env r.buf c r.readBytes = some (c', packets)) :
    c'.replay = c.replay ∧ c'.partialReplayBytes = c.partialReplayBytes := by
  obtain ⟨c₀, ps, outs, hmake, hrun, -⟩ := processIncomingFrame_some h
  obtain ⟨rfl, -⟩ := makePackets_some hmake
  refine run_invariant (I := fun s => s.replay = c.replay ∧ s.partialReplayBytes = c.partialReplayBytes) ?_ ?_ hrun
  · intro s p _ s' o hs hp
    obtain ⟨hreplay, hrest⟩ := consumePacket_replay hp
    exact ⟨hreplay.trans hs.1, hrest.trans hs.2⟩
  · rw [Connection.withResidual_eq]
    exact ⟨rfl, rfl⟩

theorem switchIfAgreed_replay (env : Env) (c : Connection) :
    (switchIfAgreed env c).replay = c.replay ∧ (switchIfAgreed env c).partialReplayBytes = c.partialReplayBytes := by
  unfold switchIfAgreed
  split_ifs <;> exact ⟨rfl, rfl⟩

theorem interceptIfEnabled_replay {packets : List Packet} {drawn : Nat} {counter : UInt8} {i : Intercepted}
    (h : interceptIfEnabled env c packets drawn counter = some i) :
    i.connection.replay = c.replay ∧ i.connection.partialReplayBytes = c.partialReplayBytes := by
  cases interceptIfEnabled_intercepts h <;> exact ⟨rfl, rfl⟩

/-- **A turn of the client loop** leaves the replay bytes alone, and sends what it has read only if
`send_command_to_server` says so of the connection it leaves. -/
theorem exchangeStep_fromClient {x x' : Exchange} {turn : Turn} {output : Output} {shared : Shared}
    (hlisten : x.listening = .client) (h : exchangeStep env x turn = some (x', output, shared)) :
    x'.connection.replay = turn.shared.replay ∧ x'.connection.partialReplayBytes = x.connection.partialReplayBytes ∧
      (output.toServer ≠ [] → sendCommandToServer x'.connection) := by
  have hkept : ∀ {c c' : Connection} {r : SocketRead} {origin : Origin} {packets : List Packet} {i : Intercepted},
      receive env { x with connection := x.connection.sharing turn.shared } turn.read = .bytes c r origin →
      processIncomingFrame env r.buf c r.readBytes = some (c', packets) →
      interceptIfEnabled env c' packets turn.shared.drawn turn.shared.globalCounter = some i →
      i.connection.replay = turn.shared.replay ∧ i.connection.partialReplayBytes = x.connection.partialReplayBytes := by
    intro c c' r origin packets i hreceive hframe hi
    obtain ⟨rfl, -, -⟩ := receive_client hreceive hlisten
    have hswitch := switchIfAgreed_replay env (x.connection.sharing turn.shared)
    have hframe' := processIncomingFrame_replay hframe
    have hi' := interceptIfEnabled_replay hi
    exact ⟨hi'.1.trans (hframe'.1.trans hswitch.1), hi'.2.trans (hframe'.2.trans hswitch.2)⟩
  cases exchangeStep_turned h with
  | waiting hwait =>
    have hserver := receive_waiting hwait
    cases hlisten.symm.trans hserver
  | server hserver _ _ _ => cases hserver.symm.trans hlisten
  | answered _ hreceive hframe hi _ =>
    obtain ⟨hreplay, hrest⟩ := hkept hreceive hframe hi
    exact ⟨hreplay, hrest, fun hsent => absurd rfl hsent⟩
  | unanswered _ hreceive hframe hi _ =>
    obtain ⟨hreplay, hrest⟩ := hkept hreceive hframe hi
    rw [afterClientFrame_connection]
    refine ⟨hreplay, hrest, fun hsent => ?_⟩
    by_contra hsend
    exact hsent (if_neg hsend)

/-- The entry of the connection's last command, decoded. -/
def cachedEntry (env : Env) (c : Connection) : Option Bytes := do
  let lastCommand ← c.lastCommand
  let replayLogs ← c.replay
  env.base64Decode (← replayLogs.get lastCommand.arg)

/-- What is left to deliver of `entry`. -/
def Connection.toTransmit (c : Connection) (entry : Bytes) : Bytes := c.partialReplayBytes.getD entry

theorem sendCommandToServer_eq_false (h : sendCommandToServer c = false) :
    ∃ replayLogs lastCommand, c.replay = some replayLogs ∧ c.lastCommand = some lastCommand := by
  unfold sendCommandToServer at h
  split at h
  · rename_i hreplay hcommand
    exact ⟨_, _, hreplay, hcommand⟩
  · cases h

/-- The connection behind the delivery of a piece of `size` bytes. -/
def Connection.afterPiece (c : Connection) (entry : Bytes) (size : Nat) : Connection :=
  { c with partialReplayBytes :=
      if (c.toTransmit entry).drop size = [] then none else some ((c.toTransmit entry).drop size) }

theorem getResponseFromCache_kept (h : sendCommandToServer c = false) (size : Nat) :
    getResponseFromCache env c size =
      match cachedEntry env c with
      | none => .waiting
      | some entry => .cached (c.afterPiece entry size) ((c.toTransmit entry).take size) := by
  obtain ⟨replayLogs, lastCommand, hreplay, hcommand⟩ := sendCommandToServer_eq_false h
  have hentry : cachedEntry env c = (replayLogs.get lastCommand.arg).bind env.base64Decode := by
    simp only [cachedEntry, hreplay, hcommand, Option.bind_eq_bind, Option.bind_some]
  rw [hentry]
  unfold getResponseFromCache
  split
  · rename_i hreplay' hcommand'
    cases hreplay.symm.trans hreplay'
    cases hcommand.symm.trans hcommand'
    cases (replayLogs.get lastCommand.arg).bind env.base64Decode <;> rfl
  · rename_i hno
    exact (hno _ _ h hreplay hcommand).elim

theorem getResponseFromCache_sent (h : sendCommandToServer c) (size : Nat) :
    getResponseFromCache env c size = .notReplayed := by
  simp [getResponseFromCache, h]

/-- A command that is kept off the server is answered from its entry. -/
theorem receive_entry {x : Exchange} {read : SocketRead} {entry : Bytes} (hlisten : x.listening = .server)
    (hkept : sendCommandToServer x.connection = false) (hentry : cachedEntry env x.connection = some entry) :
    receive env x read = if (x.connection.toTransmit entry).take read.buf.length = [] then .closed
      else .bytes (x.connection.afterPiece entry read.buf.length)
        (.whole ((x.connection.toTransmit entry).take read.buf.length)) .replayLog := by
  have hcache := @getResponseFromCache_kept env _ hkept read.buf.length
  rw [hentry] at hcache
  unfold receive
  simp only [hlisten, hcache]

/-- Without an entry it waits. -/
theorem receive_kept {x : Exchange} {read : SocketRead} (hlisten : x.listening = .server)
    (hkept : sendCommandToServer x.connection = false) (hopen : receive env x read ≠ .closed) :
    (cachedEntry env x.connection = none ∧ receive env x read = .waiting) ∨
      ∃ entry, cachedEntry env x.connection = some entry ∧
        receive env x read = .bytes (x.connection.afterPiece entry read.buf.length)
          (.whole ((x.connection.toTransmit entry).take read.buf.length)) .replayLog := by
  cases hentry : cachedEntry env x.connection with
  | none =>
    have hcache := @getResponseFromCache_kept env _ hkept read.buf.length
    rw [hentry] at hcache
    refine .inl ⟨rfl, ?_⟩
    unfold receive
    simp only [hlisten, hcache]
  | some entry =>
    have hreceive := @receive_entry env x read entry hlisten hkept hentry
    by_cases hnil : (x.connection.toTransmit entry).take read.buf.length = []
    · rw [if_pos hnil] at hreceive
      exact absurd hreceive hopen
    · rw [if_neg hnil] at hreceive
      exact .inr ⟨entry, rfl, hreceive⟩

/-- A command that is not is answered by the server. -/
theorem receive_sent {x : Exchange} {read r : SocketRead} {c' : Connection} {origin : Origin}
    (hlisten : x.listening = .server) (hsend : sendCommandToServer x.connection)
    (h : receive env x read = .bytes c' r origin) : c' = x.connection ∧ origin = .server := by
  unfold receive at h
  simp only [hlisten, getResponseFromCache_sent hsend] at h
  split_ifs at h
  cases h
  exact ⟨rfl, rfl⟩

/-- **A turn of the server loop** sends nothing to the server; it waits, or delivers what is there of an entry,
or reads the server's socket. -/
theorem exchangeStep_fromServer {x x' : Exchange} {turn : Turn} {output : Output} {shared : Shared}
    (hlisten : x.listening = .server) (h : exchangeStep env x turn = some (x', output, shared)) :
    output.toServer = [] ∧
      ((TurnStep.received env ⟨x, turn, x', (output, shared)⟩ = .waiting ∧ x' = { x with connection := x.connection.sharing turn.shared }) ∨
        ∃ c r origin, TurnStep.received env ⟨x, turn, x', (output, shared)⟩ = .bytes c r origin ∧
          x'.connection.partialReplayBytes = c.partialReplayBytes) := by
  cases exchangeStep_turned h with
  | waiting hwait => exact ⟨rfl, .inl ⟨hwait, rfl⟩⟩
  | server _ hreceive hframe _ => exact ⟨rfl, .inr ⟨_, _, _, hreceive, (processIncomingFrame_replay hframe).2⟩⟩
  | answered hclient _ _ _ _ | unanswered hclient _ _ _ _ => cases hclient.symm.trans hlisten

/-! ## What goes upstream -/

/-- A SELECT without a FROM of its own. -/
def Statement.WithoutFrom (s : Statement) : Prop := ∃ selection nested, s = .query (.select [] selection nested)

def Statement.IsQuery (s : Statement) : Prop := ∃ body, s = .query body

theorem passesThrough_iff (s : Statement) : passesThrough s ↔ s.WithoutFrom ∨ ¬ s.IsQuery := by
  unfold passesThrough Statement.WithoutFrom Statement.IsQuery
  split
  · rename_i from_ selection nested
    cases from_ <;> simp
  · simp
  · rename_i hselect hother
    refine iff_of_true rfl (.inr ?_)
    rintro ⟨_ | _, rfl⟩
    · exact hselect _ _ _ rfl
    · exact hother rfl

/-- A COM_QUERY that is not parsed, or one of whose statements is a query and no SELECT without a FROM of its own. -/
def Command.StaysBack (command : Command) : Prop :=
  command.comCode = .comQuery ∧ ∀ ast ∈ command.ast, ∃ s ∈ ast, s.IsQuery ∧ ¬ s.WithoutFrom

/-- `send_command_to_server`, where a replay log is configured. -/
theorem sendCommandToServer_iff {command : Command} (hreplay : c.replay.isSome) (hcommand : c.lastCommand = some command) :
    sendCommandToServer c = false ↔ command.StaysBack := by
  obtain ⟨replayLogs, hreplay⟩ := Option.isSome_iff_exists.1 hreplay
  have hkept : ∀ s : Statement, s.IsQuery ∧ ¬ s.WithoutFrom ↔ passesThrough s = false := by
    intro s
    rw [← Bool.not_eq_true, passesThrough_iff, not_or, not_not, and_comm]
  simp only [sendCommandToServer, hreplay, hcommand, Command.StaysBack, hkept]
  by_cases hquery : command.comCode = .comQuery
  · rw [if_pos hquery]
    cases command.ast with
    | none => simp [hquery]
    | some ast => simp [hquery]
  · simp [hquery]

/-! ### The commands of a turn -/

theorem consumePacket_lastCommand {c' : Connection} {packet : Packet} {out : Option Packet} (hphase : c.phase ≠ .command)
    (h : consumePacket env c packet = some (c', out)) : c'.lastCommand = c.lastCommand := by
  cases consumePacket_consumed h with
  | command _ _ hcommand => exact absurd hcommand hphase
  | handshake | handshakeResponse | auth | response => rfl

end

/-! ## What is delivered -/

section
variable {env : Env}

/-- The entry of the command a turn finds. -/
def TurnStep.entry (env : Env) (e : TurnStep) : Option Bytes :=
  cachedEntry env (e.before.connection.sharing e.input.shared)

/-- What a turn delivers from the replay log. -/
def TurnStep.piece (env : Env) (e : TurnStep) : Option Bytes :=
  match e.received env with
  | .bytes _ r .replayLog => some r.chunk
  | _ => none

/-- The turn delivers the first bytes of `entry`, which is its command's own. -/
structure TurnStep.Begins (env : Env) (e : TurnStep) (entry : Bytes) : Prop where
  own : e.entry env = some entry
  first : e.piece env = some (entry.take e.input.read.buf.length)

/-- The turns of the server loop since the client loop was left. -/
def stay (past : List TurnStep) : List TurnStep := past.rtakeWhile (·.before.listening = .server)

/-- What a turn of the server loop leaves undelivered, by what it finds. -/
def TurnStep.undelivered (env : Env) (e : TurnStep) : Bytes :=
  let c := e.before.connection.sharing e.input.shared
  if sendCommandToServer c then c.partialReplayBytes.getD []
  else ((e.entry env).map fun entry => (c.toTransmit entry).drop e.input.read.buf.length).getD []

/-- A turn that leaves the server loop, or takes another command out of what it delivers, has delivered all
there is. -/
def EndsWithEntry (env : Env) (e : TurnStep) : Prop :=
  e.before.listening = .server →
    e.after.listening = .client ∨ e.after.connection.lastCommand ≠ e.before.connection.lastCommand →
    e.undelivered env = []

/-- What `partial_replay_bytes` holds is the rest of an entry begun in the same stay, for the same command. -/
structure Owed (env : Env) (past : List TurnStep) (x : Exchange) : Prop where
  none_of_client : x.listening = .client → x.connection.partialReplayBytes = none
  begun : ∀ rest, x.connection.partialReplayBytes = some rest → rest ≠ [] ∧ ∃ d ∈ stay past, ∃ entry,
    d.Begins env entry ∧ d.before.connection.lastCommand = x.connection.lastCommand ∧ rest <:+ entry

theorem stay_concat_server {past : List TurnStep} {e : TurnStep} (h : e.before.listening = .server) :
    stay (past ++ [e]) = stay past ++ [e] :=
  List.rtakeWhile_concat_pos _ _ _ (by simpa using h)

theorem stay_concat_client {past : List TurnStep} {e : TurnStep} (h : e.before.listening = .client) :
    stay (past ++ [e]) = [] :=
  List.rtakeWhile_concat_neg _ _ _ (by simp [h])

/-- The two sources of a turn of the server loop. -/
theorem TurnStep.received_cases {e : TurnStep} {c : Connection} {r : SocketRead} {origin : Origin}
    (hlisten : e.before.listening = .server) (h : e.received env = .bytes c r origin) :
    (sendCommandToServer (e.before.connection.sharing e.input.shared) ∧
      c = e.before.connection.sharing e.input.shared ∧ origin = .server) ∨
    (sendCommandToServer (e.before.connection.sharing e.input.shared) = false ∧ ∃ entry, e.entry env = some entry ∧
      c = (e.before.connection.sharing e.input.shared).afterPiece entry e.input.read.buf.length ∧
      r = .whole (((e.before.connection.sharing e.input.shared).toTransmit entry).take e.input.read.buf.length) ∧
      origin = .replayLog) := by
  cases hsend : sendCommandToServer (e.before.connection.sharing e.input.shared) with
  | true =>
    exact .inl ⟨rfl, receive_sent
      (x := { e.before with connection := e.before.connection.sharing e.input.shared }) hlisten hsend h⟩
  | false =>
    right
    rcases receive_kept (x := { e.before with connection := e.before.connection.sharing e.input.shared })
      hlisten hsend (by rw [TurnStep.received] at h; rw [h]; simp) with ⟨-, hwait⟩ | ⟨entry, hentry, hbytes⟩
    · rw [TurnStep.received, hwait] at h; cases h
    · rw [TurnStep.received, hbytes] at h
      cases h
      exact ⟨rfl, entry, hentry, rfl, rfl, rfl⟩

/-- What is left to deliver of an entry is the entry, or the rest of one begun before in the same stay. -/
theorem Owed.toTransmit_of {past : List TurnStep} {e : TurnStep} {entry : Bytes} (h : Owed env past e.before)
    (hentry : e.entry env = some entry)
    (hpiece : e.piece env =
      some (((e.before.connection.sharing e.input.shared).toTransmit entry).take e.input.read.buf.length)) :
    ∃ d ∈ stay past ++ [e], ∃ entry', d.Begins env entry' ∧
      d.before.connection.lastCommand = e.before.connection.lastCommand ∧
      (e.before.connection.sharing e.input.shared).toTransmit entry <:+ entry' := by
  cases hheld : e.before.connection.partialReplayBytes with
  | none =>
    have hall : (e.before.connection.sharing e.input.shared).toTransmit entry = entry := by
      simp [Connection.toTransmit, Connection.sharing, hheld]
    rw [hall] at hpiece ⊢
    exact ⟨e, by simp, entry, ⟨hentry, hpiece⟩, rfl, List.suffix_refl _⟩
  | some rest =>
    have hrest : (e.before.connection.sharing e.input.shared).toTransmit entry = rest := by
      simp [Connection.toTransmit, Connection.sharing, hheld]
    obtain ⟨-, d, hd, entry', hbegins, hcommand, hsuffix⟩ := h.begun rest hheld
    exact ⟨d, List.mem_append_left _ hd, entry', hbegins, hcommand, hrest ▸ hsuffix⟩

theorem TurnStep.piece_of_received {e : TurnStep} {c : Connection} {bytes : Bytes}
    (h : e.received env = .bytes c (.whole bytes) .replayLog) : e.piece env = some bytes := by
  rw [TurnStep.piece, h]
  simp [SocketRead.whole, SocketRead.chunk]

/-- Only turns of the server loop deliver from the replay log. -/
theorem TurnStep.piece_some {e : TurnStep} {piece : Bytes} (h : e.piece env = some piece) :
    e.before.listening = .server ∧ ∃ c r, e.received env = .bytes c r .replayLog ∧ piece = r.chunk := by
  unfold TurnStep.piece at h
  split at h
  · rename_i c r hreceived
    cases h
    refine ⟨?_, c, r, hreceived, rfl⟩
    cases hlisten : e.before.listening with
    | server => rfl
    | client =>
      simp only [TurnStep.received, receive, hlisten] at hreceived
      split_ifs at hreceived
      cases hreceived
  · cases h

/-- What a turn of the server loop leaves is undelivered, of an entry begun in the same stay. -/
theorem Owed.left {past : List TurnStep} {e : TurnStep} {c : Connection} {r : SocketRead} {origin : Origin}
    {rest : Bytes} (h : Owed env past e.before) (hlisten : e.before.listening = .server)
    (hreceived : e.received env = .bytes c r origin) (hrest : c.partialReplayBytes = some rest) :
    e.undelivered env = rest ∧ rest ≠ [] ∧ ∃ d ∈ stay past ++ [e], ∃ entry, d.Begins env entry ∧
      d.before.connection.lastCommand = e.before.connection.lastCommand ∧ rest <:+ entry := by
  rcases TurnStep.received_cases hlisten hreceived with ⟨hsend, rfl, -⟩ | ⟨hsend, entry, hentry, rfl, rfl, rfl⟩
  · obtain ⟨hne, d, hd, hbegun⟩ := h.begun rest hrest
    exact ⟨by simp [TurnStep.undelivered, hsend, hrest], hne, d, List.mem_append_left _ hd, hbegun⟩
  · obtain ⟨d, hd, entry', hbegins, hcommand, hsuffix⟩ := h.toTransmit_of hentry (TurnStep.piece_of_received hreceived)
    simp only [Connection.afterPiece] at hrest
    split_ifs at hrest with hnil
    cases hrest
    refine ⟨by simp [TurnStep.undelivered, hsend, hentry], hnil, d, hd, entry', hbegins, hcommand, ?_⟩
    exact (List.drop_suffix _ _).trans hsuffix

/-- **One turn**, in either loop. -/
theorem Owed.step {past : List TurnStep} {x x' : Exchange} {turn : Turn} {o : Output × Shared} (h : Owed env past x)
    (hstep : exchangeStep env x turn = some (x', o)) (hends : EndsWithEntry env ⟨x, turn, x', o⟩) :
    Owed env (past ++ [⟨x, turn, x', o⟩]) x' := by
  cases hlisten : x.listening with
  | client =>
    have hnone : x'.connection.partialReplayBytes = none :=
      (exchangeStep_fromClient hlisten hstep).2.1.trans (h.none_of_client hlisten)
    exact ⟨fun _ => hnone, fun rest hrest => by rw [hnone] at hrest; cases hrest⟩
  | server =>
    have hstay : stay (past ++ [⟨x, turn, x', o⟩]) = stay past ++ [⟨x, turn, x', o⟩] := stay_concat_server hlisten
    rcases (exchangeStep_fromServer hlisten hstep).2 with ⟨-, rfl⟩ | ⟨c, r, origin, hreceived, hheld⟩
    · refine ⟨fun hclient => absurd (hlisten.symm.trans hclient) (by decide), fun rest hrest => ?_⟩
      obtain ⟨hne, d, hd, hbegun⟩ := h.begun rest hrest
      exact ⟨hne, d, hstay ▸ List.mem_append_left _ hd, hbegun⟩
    · refine ⟨fun hclient => ?_, fun rest hrest => ?_⟩
      · cases hrest : x'.connection.partialReplayBytes with
        | none => rfl
        | some rest =>
          obtain ⟨hleft, hne, -⟩ := Owed.left (e := ⟨x, turn, x', o⟩) h hlisten hreceived (hheld ▸ hrest)
          exact absurd (hleft.symm.trans (hends hlisten (.inl hclient))) hne
      · obtain ⟨hleft, hne, d, hd, entry, hbegins, hcommand, hsuffix⟩ :=
          Owed.left (e := ⟨x, turn, x', o⟩) h hlisten hreceived (hheld ▸ hrest)
        have hsame : x'.connection.lastCommand = x.connection.lastCommand := by
          by_contra hother
          exact hne (hleft.symm.trans (hends hlisten (.inr hother)))
        exact ⟨hne, d, hstay ▸ hd, entry, hbegins, hcommand.trans hsame.symm, hsuffix⟩

/-- **Answers from the replay log do not mix.** Whenever the server loop is left, or another command is taken out
of what it delivers, the entry has been delivered to its end. Then every piece delivered from the replay log is
of the entry of the connection's command, begun at its first byte since the client loop handed over; and
the first piece for a command is the start of its own entry. -/
theorem replay_isolated (env : Env) (server client : SwitchableConnection) (diff : StateDiffLog) (replay : ReplayLog)
    (kafka : Option String) (turns : List Turn)
    (hends : ∀ e ∈ transcript (exchangeStep env) (.start (.new server client diff replay kafka)) turns, EndsWithEntry env e)
    {earlier later : List TurnStep} {e : TurnStep}
    (hrun : transcript (exchangeStep env) (.start (.new server client diff replay kafka)) turns = earlier ++ e :: later)
    {piece : Bytes} (hpiece : e.piece env = some piece) :
    (∃ d ∈ stay earlier ++ [e], ∃ entry, d.Begins env entry ∧
      d.before.connection.lastCommand = e.before.connection.lastCommand ∧ piece <:+: entry) ∧
    ((∀ d ∈ stay earlier, d.before.connection.lastCommand = e.before.connection.lastCommand → d.piece env = none) →
      ∃ entry, e.entry env = some entry ∧ piece = entry.take e.input.read.buf.length) := by
  obtain ⟨turns₁, outs, hrun₁, hearlier, -⟩ := transcript_split hrun
  have hstart : Owed env [] (.start (.new server client diff replay kafka)) := ⟨fun _ => rfl, fun _ h => by cases h⟩
  have howed := run_history (C := fun _ e => EndsWithEntry env e)
    (fun _ _ _ _ _ h hstep hends => Owed.step h hstep hends) hstart
    (fun earlier' d later' h => hends d (by rw [hrun, ← hearlier, h]; simp)) hrun₁
  rw [List.nil_append, hearlier] at howed
  have hof : ∃ d ∈ stay earlier ++ [e], ∃ entry, d.Begins env entry ∧
      d.before.connection.lastCommand = e.before.connection.lastCommand ∧ piece <:+: entry := by
    obtain ⟨hlisten, c, r, hreceived, rfl⟩ := TurnStep.piece_some hpiece
    rcases TurnStep.received_cases hlisten hreceived with ⟨-, -, horigin⟩ | ⟨-, entry, hentry, -, rfl, -⟩
    · cases horigin
    · have htake := TurnStep.piece_of_received hreceived
      obtain ⟨d, hd, entry', hbegins, hcommand, hsuffix⟩ := howed.toTransmit_of hentry htake
      refine ⟨d, hd, entry', hbegins, hcommand, ?_⟩
      rw [Option.some.inj (hpiece.symm.trans htake)]
      exact (List.take_prefix _ _).isInfix.trans hsuffix.isInfix
  refine ⟨hof, fun hfirst => ?_⟩
  obtain ⟨d, hd, entry, hbegins, hcommand, -⟩ := hof
  rcases List.mem_append.1 hd with hd | hd
  · have hnone := (hfirst d hd hcommand).symm.trans hbegins.first
    cases hnone
  · cases List.mem_singleton.1 hd
    exact ⟨entry, hbegins.own, Option.some.inj (hpiece.symm.trans hbegins.first)⟩

/-- An OK packet, alone in its read, ends the response. -/
theorem processIncomingFrame_ok {c : Connection} {clientFlag : UInt32} {r : SocketRead} {seq : UInt8} {body : Bytes}
    {affectedRows lastInsertId : UInt64} {statusFlags warnings : UInt16} {info : Bytes} (h : AwaitsQuery c clientFlag)
    (h41 : hasFlag clientFlag .clientProtocol41) (hnone : c.partialBytes = none)
    (hbody : body = okBody affectedRows lastInsertId statusFlags warnings info) (hsize : body.length < 256 ^ 3)
    (hchunk : r.chunk = Frame.toBytes ({ size := body.length, seq }, body)) :
    processIncomingFrame env r.buf c r.readBytes =
      some ({ c with phase := .command, queryResponse := c.queryResponse.completed .ok },
        [⟨{ size := body.length, seq }, body, .ok, false⟩]) := by
  have hok : getPacketType body c.phase = some .ok := hbody ▸ getPacketType_okBody c.phase
  have hnext : frames.next (c.partialBytes.getD [] ++ r.chunk) = some (({ size := body.length, seq }, body), []) := by
    have := @nextFrame_toBytes ({ size := body.length, seq }, body) rfl hsize []
    rw [hnone, hchunk]
    rwa [List.append_nil] at this
  have hsame : c.withResidual [] = c := Connection.withResidual_nil hnone
  have hconsume := @consumePacket_pending env c ⟨{ size := body.length, seq }, body, .ok, false⟩ _ _ _ h.phase
    (@ResponseAccumulator.consumeLoop_ok env c clientFlag _ c.queryResponse 15 _ h rfl
      (OkData.fromPacket_okBody h41 h.flags rfl hbody))
  rw [processIncomingFrame, makePackets_eq, frames.split_of_some hnext]
  simp [Frame.toPacket, hok, InOrder, run_singleton, hsame, hconsume]

theorem serverTurn_of_frame {x : Exchange} {r : SocketRead} {c : Connection} {packets : List Packet}
    (h : processIncomingFrame env r.buf x.connection r.readBytes = some (c, packets)) :
    serverTurn env x r = some
      ({ connection := c
         listening := if c.phase ∈ serverTransitionPhases then .client else .server
         kafkaLogBuffer := (pushToKafka env c (generateOutgoingFrame packets) x.kafkaLogBuffer).1 },
       { toClient := generateOutgoingFrame packets, toServer := [],
         records := (pushToKafka env c (generateOutgoingFrame packets) x.kafkaLogBuffer).2 }) := by
  simp only [serverTurn, h, Option.bind_eq_bind, Option.bind_some]

/-- A turn that delivers an OK packet, the rest of the entry being kept. -/
theorem exchangeStep_piece {x : Exchange} {turn : Turn} {clientFlag : UInt32} {seq : UInt8} {entry body : Bytes}
    {affectedRows lastInsertId : UInt64} {statusFlags warnings : UInt16} {info : Bytes} (hlisten : x.listening = .server)
    (h : AwaitsQuery x.connection clientFlag) (h41 : hasFlag clientFlag .clientProtocol41)
    (hnone : x.connection.partialBytes = none)
    (hkept : sendCommandToServer (x.connection.sharing turn.shared) = false)
    (hentry : cachedEntry env (x.connection.sharing turn.shared) = some entry)
    (hbody : body = okBody affectedRows lastInsertId statusFlags warnings info) (hsize : body.length < 256 ^ 3)
    (hpiece : ((x.connection.sharing turn.shared).toTransmit entry).take turn.read.buf.length =
      Frame.toBytes ({ size := body.length, seq }, body)) :
    ∃ buffer o, exchangeStep env x turn = some
        ({ connection := { (x.connection.sharing turn.shared).afterPiece entry turn.read.buf.length with
             phase := .command, queryResponse := x.connection.queryResponse.completed .ok }
           listening := .client
           kafkaLogBuffer := buffer }, o) ∧
      ∀ x', TurnStep.piece env ⟨x, turn, x', o⟩ = some (Frame.toBytes ({ size := body.length, seq }, body)) := by
  have hne : Frame.toBytes ({ size := body.length, seq }, body) ≠ [] := by simp [Frame.toBytes, PacketHeader.toBytes]
  have hreceive := @receive_entry env { x with connection := x.connection.sharing turn.shared } turn.read entry hlisten
    hkept hentry
  rw [hpiece, if_neg hne] at hreceive
  have hframe := @processIncomingFrame_ok env ((x.connection.sharing turn.shared).afterPiece entry turn.read.buf.length)
    clientFlag (.whole (Frame.toBytes ({ size := body.length, seq }, body))) seq body _ _ _ _ _
    ⟨h.phase, h.command, h.flags⟩ h41 hnone hbody hsize (by simp [SocketRead.whole, SocketRead.chunk])
  have hstep : exchangeStep env x turn =
      (serverTurn env
        { x with connection := (x.connection.sharing turn.shared).afterPiece entry turn.read.buf.length }
        (.whole (Frame.toBytes ({ size := body.length, seq }, body)))).map fun r => (r.1, r.2, turn.shared) := by
    unfold exchangeStep
    simp only [hreceive]
    simp only [hlisten]
  rw [serverTurn_of_frame (by exact hframe), Option.map_some] at hstep
  refine ⟨_, _, hstep, fun x' => ?_⟩
  exact TurnStep.piece_of_received (e := ⟨x, turn, x', _⟩) hreceive

end

/-- The last packet of a response, and the whole of another. -/
def secondOk : Bytes := Frame.toBytes ({ size := 7, seq := 2 }, okBody 0 0 2 0 [])

def ownOk : Bytes := Frame.toBytes ({ size := 7, seq := 1 }, okBody 1 0 2 0 [])

def otherOk : Bytes := Frame.toBytes ({ size := 7, seq := 1 }, okBody 2 0 2 0 [])

/-- Two results; the first, with a long text, fills the buffer. -/
def twoOks : Bytes := Frame.toBytes ({ size := 4092, seq := 1 }, okBody 0 0 0x000a 0 (List.replicate 4085 0x20)) ++ secondOk

def sampleLog : TtlCache String String :=
  ⟨[("do 1", sampleEnv.base64Encode twoOks), ("do 2", sampleEnv.base64Encode ownOk),
    ("do 3", sampleEnv.base64Encode otherOk)]⟩

def sampleShared : Shared := ⟨∅, some sampleLog, 0, 100⟩

/-- A turn on these bytes, with this log. -/
def loggedTurn (bytes : Bytes) : Turn := ⟨sampleShared, .whole bytes⟩

/-- A turn of the server loop that reads nothing from the socket. -/
def cacheTurn : Turn := ⟨sampleShared, ⟨List.replicate 4096 0, 0, Nat.zero_le _⟩⟩

/-- A connection is opened and sends "do 1". -/
def askingTurns : List Turn :=
  [loggedTurn sampleGreeting, loggedTurn sampleAnswer, loggedTurn sampleOk,
    loggedTurn ([5, 0, 0, 0, 0x03] ++ asBytes "do 1")]

theorem cacheTurn_length : cacheTurn.read.buf.length = 4096 := List.length_replicate

theorem sampleLog_entry {c : Connection} (hreplay : c.replay = some sampleLog) {text : String} {bytes : Bytes}
    (hcommand : c.lastCommand = some (queryCommand sampleEnv text))
    (hget : sampleLog.get text = some (sampleEnv.base64Encode bytes)) : cachedEntry sampleEnv c = some bytes := by
  simp only [cachedEntry, hcommand, hreplay, queryCommand, hget, Option.bind_eq_bind, Option.bind_some]
  exact sampleEnv_base64 bytes

/-- A connection is opened, and sends "do 2" and "do 3", each answered to its end. -/
def answeredTurns : List Turn :=
  [loggedTurn sampleGreeting, loggedTurn sampleAnswer, loggedTurn sampleOk,
    loggedTurn ([5, 0, 0, 0, 0x03] ++ asBytes "do 2"), loggedTurn (List.replicate 16 0),
    loggedTurn ([5, 0, 0, 0, 0x03] ++ asBytes "do 3"), loggedTurn (List.replicate 16 0)]

/-- Two commands, each answered from its own entry. -/
theorem replay_isolated_one : ∃ (earlier : List TurnStep) (d asks e : TurnStep),
    transcript (exchangeStep sampleEnv) (.start (.new .plain .plain ∅ (some sampleLog) none)) answeredTurns =
      earlier ++ [d, asks, e] ∧
    (∃ entry, d.entry sampleEnv = some entry ∧ ownOk = entry.take 16) ∧
    ∃ entry, e.entry sampleEnv = some entry ∧ otherOk = entry.take 16 := by
  have hrun : ∃ e₁ e₂ e₃ e₄ e₅ e₆ e₇ : TurnStep,
      transcript (exchangeStep sampleEnv) (.start (.new .plain .plain ∅ (some sampleLog) none)) answeredTurns =
        [e₁, e₂, e₃, e₄, e₅, e₆, e₇] ∧
      e₁.undelivered sampleEnv = [] ∧ e₂.before.listening = .client ∧ e₃.undelivered sampleEnv = [] ∧
      e₄.before.listening = .client ∧ e₅.undelivered sampleEnv = [] ∧ e₆.before.listening = .client ∧
      e₇.undelivered sampleEnv = [] ∧ e₅.piece sampleEnv = some ownOk ∧ e₇.piece sampleEnv = some otherOk ∧
      e₅.input.read.buf.length = 16 ∧ e₇.input.read.buf.length = 16 :=
    ⟨_, _, _, _, _, _, _, rfl, rfl, rfl, rfl, rfl, rfl, rfl, rfl, rfl, rfl, rfl, rfl⟩
  obtain ⟨e₁, e₂, e₃, e₄, e₅, e₆, e₇, htranscript, h₁, h₂, h₃, h₄, h₅, h₆, h₇, hown, hother, hsize, hsize'⟩ := hrun
  have hends : ∀ e ∈ [e₁, e₂, e₃, e₄, e₅, e₆, e₇], EndsWithEntry sampleEnv e := by
    simp only [List.mem_cons, List.not_mem_nil, or_false]
    rintro e (rfl | rfl | rfl | rfl | rfl | rfl | rfl) hserver -
    · exact h₁
    · rw [h₂] at hserver; cases hserver
    · exact h₃
    · rw [h₄] at hserver; cases hserver
    · exact h₅
    · rw [h₆] at hserver; cases hserver
    · exact h₇
  have hfirst : stay [e₁, e₂, e₃, e₄] = [] := @stay_concat_client [e₁, e₂, e₃] _ h₄
  have hsecond : stay [e₁, e₂, e₃, e₄, e₅, e₆] = [] := @stay_concat_client [e₁, e₂, e₃, e₄, e₅] _ h₆
  have hpiece := (@replay_isolated sampleEnv .plain .plain ∅ (some sampleLog) none _ (htranscript ▸ hends)
    [e₁, e₂, e₃, e₄] [e₆, e₇] e₅ htranscript _ hown).2 (by rw [hfirst]; exact fun _ h => by cases h)
  have hpiece' := (@replay_isolated sampleEnv .plain .plain ∅ (some sampleLog) none _ (htranscript ▸ hends)
    [e₁, e₂, e₃, e₄, e₅, e₆] [] e₇ htranscript _ hother).2 (by rw [hsecond]; exact fun _ h => by cases h)
  rw [hsize] at hpiece
  rw [hsize'] at hpiece'
  exact ⟨[e₁, e₂, e₃, e₄], e₅, e₆, e₇, htranscript, hpiece, hpiece'⟩

theorem sampleShared_keeps {c : Connection} {text : String} (hcommand : c.lastCommand = some (queryCommand sampleEnv text)) :
    sendCommandToServer (c.sharing sampleShared) = false := by
  simp [sendCommandToServer, Connection.sharing, sampleShared, hcommand, queryCommand, sampleEnv]

/-- A text that is not parsed and does not start as a write is not answered. -/
theorem interceptIfEnabled_unparsed {env : Env} {c : Connection} {clientFlag : UInt32} {seq : UInt8} {text : String}
    {drawn : Nat} {counter : UInt8} (hcommand : c.lastCommand = some (queryCommand env text))
    (hparse : env.parseSql text = none) (hwrite : ¬ StartsAsWrite env text) :
    interceptIfEnabled env c [queryPacket seq clientFlag text] drawn counter = some ⟨c, drawn, counter, none⟩ := by
  have htext : isWriteText env (queryCommand env text) (queryPacket seq clientFlag text) = false :=
    Bool.eq_false_iff.2 fun h => hwrite (isWriteText_query.1 h)
  have hast : (queryCommand env text).ast = none := hparse
  unfold interceptIfEnabled interceptCommand
  split_ifs
  · rfl
  · simp [isWriteQuery, hcommand, getDiff, hast, htext]
    rw [← hcommand]
  · rfl

/-- What is left of the entry of "do 1" is the answer to "do 2". -/
theorem leftover_delivered : ∃ earlier e,
    transcript (exchangeStep sampleEnv) (.start (.new .plain .plain ∅ (some sampleLog) none))
      (askingTurns ++ [cacheTurn, loggedTurn ([5, 0, 0, 0, 0x03] ++ asBytes "do 2"), cacheTurn]) = earlier ++ [e] ∧
    stay earlier = [] ∧ e.before.connection.lastCommand = some (queryCommand sampleEnv "do 2") ∧
    e.entry sampleEnv = some ownOk ∧ e.piece sampleEnv = some secondOk ∧ ¬ secondOk <+: ownOk := by
  have hstart : ∃ x outs, run (exchangeStep sampleEnv) (.start (.new .plain .plain ∅ (some sampleLog) none))
      askingTurns = some (x, outs) ∧ x.listening = .server ∧
      x.connection.phase = .pendingResponse ∧ x.connection.lastCommand = some (queryCommand sampleEnv "do 1") ∧
      x.connection.clientFlag = some 0x200 ∧ x.connection.partialBytes = none ∧ x.connection.partialReplayBytes = none :=
    ⟨_, _, rfl, rfl, rfl, rfl, rfl, rfl, rfl⟩
  obtain ⟨x, outs, hrun, hlisten, hphase, hcommand, hflag, hnone, hfresh⟩ := hstart
  have h41 : hasFlag 0x200 .clientProtocol41 := by decide
  have hlen : (okBody 0 0 0x000a 0 (List.replicate 4085 0x20)).length = 4092 := by
    simp [okBody, IntLenEnc.encode, -List.reduceReplicate]
  have hheader : (PacketHeader.toBytes { size := 4092, seq := 1 }).length = 4 := PacketHeader.toBytes_length _
  have htake : twoOks.take 4096 =
      Frame.toBytes ({ size := 4092, seq := 1 }, okBody 0 0 0x000a 0 (List.replicate 4085 0x20)) :=
    List.take_left' (by rw [Frame.toBytes, List.length_append, hheader, hlen])
  have hdrop : twoOks.drop 4096 = secondOk :=
    List.drop_left' (by rw [Frame.toBytes, List.length_append, hheader, hlen])
  -- the first entry, up to the end of its first packet
  have hall : (x.connection.sharing cacheTurn.shared).toTransmit twoOks = twoOks := by
    simp [Connection.toTransmit, Connection.sharing, hfresh]
  obtain ⟨buffer, o, hfirst, -⟩ := @exchangeStep_piece sampleEnv x cacheTurn 0x200 1 twoOks
    (okBody 0 0 0x000a 0 (List.replicate 4085 0x20)) 0 0 0x000a 0 _ hlisten ⟨hphase, ⟨_, hcommand, rfl⟩, hflag⟩ h41 hnone
    (sampleShared_keeps hcommand) (sampleLog_entry rfl hcommand (by simp [sampleLog, TtlCache.get])) rfl
    (by rw [hlen]; decide) (by rw [cacheTurn_length, hall, htake, hlen])
  -- the second command
  have hleft : ((x.connection.sharing cacheTurn.shared).afterPiece twoOks cacheTurn.read.buf.length).partialReplayBytes =
      some secondOk := by
    rw [Connection.afterPiece, hall, cacheTurn_length, hdrop]
    rfl
  generalize hx₂ : Exchange.mk _ Side.client buffer = x₂ at hfirst
  have hnone₂ : x₂.connection.partialBytes = none := by rw [← hx₂]; exact hnone
  have hawaits : AwaitsCommand x₂.connection 0x200 := by rw [← hx₂]; exact ⟨rfl, hflag, h41⟩
  have hleft₂ : x₂.connection.partialReplayBytes = some secondOk := by rw [← hx₂]; dsimp only; exact hleft
  have hlisten₂ : x₂.listening = .client := by rw [← hx₂]
  have hsecond := @exchangeStep_query sampleEnv x₂ (loggedTurn ([5, 0, 0, 0, 0x03] ++ asBytes "do 2")) 0x200 0 "do 2"
    hawaits hlisten₂ (by decide) (by rw [hnone₂]; rfl)
  rw [interceptIfEnabled_unparsed rfl rfl (by unfold StartsAsWrite; decide), Option.map_some] at hsecond
  -- the answer
  generalize hx₃ : afterQuery x₂ _ _ _ = r₃ at hsecond
  obtain ⟨x₃, o₃⟩ := r₃
  have hcommand₃ : x₃.connection.lastCommand = some (queryCommand sampleEnv "do 2") := by
    rw [← (Prod.mk.inj hx₃).1]; rfl
  have hawaits₃ : AwaitsQuery x₃.connection 0x200 := by
    rw [← (Prod.mk.inj hx₃).1]
    exact ⟨rfl, ⟨_, rfl, rfl⟩, hawaits.flags⟩
  have hrest₃ : x₃.connection.partialReplayBytes = some secondOk := by
    rw [← (Prod.mk.inj hx₃).1]
    exact hleft₂
  have hall₃ : (x₃.connection.sharing cacheTurn.shared).toTransmit ownOk = secondOk := by
    simp [Connection.toTransmit, Connection.sharing, hrest₃]
  obtain ⟨buffer', o', hthird, hpiece⟩ := @exchangeStep_piece sampleEnv x₃ cacheTurn 0x200 2 ownOk (okBody 0 0 2 0 [])
    0 0 2 0 [] (by rw [← (Prod.mk.inj hx₃).1]) hawaits₃ h41 (by rw [← (Prod.mk.inj hx₃).1]; rfl)
    (sampleShared_keeps hcommand₃) (sampleLog_entry rfl hcommand₃ (by simp [sampleLog, TtlCache.get])) rfl (by decide)
    (by rw [cacheTurn_length, hall₃]; exact List.take_of_length_le (by decide))
  generalize Exchange.mk _ Side.client buffer' = x₄ at hthird
  refine ⟨transcript (exchangeStep sampleEnv) (.start (.new .plain .plain ∅ (some sampleLog) none)) askingTurns ++
      [⟨x, cacheTurn, x₂, o⟩] ++ [⟨x₂, loggedTurn ([5, 0, 0, 0, 0x03] ++ asBytes "do 2"), x₃, o₃⟩],
    ⟨x₃, cacheTurn, x₄, o'⟩, ?_, stay_concat_client hlisten₂, hcommand₃, sampleLog_entry rfl hcommand₃ (by simp [sampleLog, TtlCache.get]),
    hpiece _, by decide⟩
  rw [transcript_append hrun, transcript_cons hfirst, transcript_cons hsecond, transcript_cons hthird, transcript]
  simp only [List.append_assoc, List.cons_append, List.nil_append]

end MocksySql
