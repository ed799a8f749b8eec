import MocksySql.AuthGate
/-!
# Whose bytes a frame is made of

`partial_bytes` is one buffer for both directions, and the loops are left on the phase alone. `runTrace`
records for each turn the side listened at and the origins of all the bytes that are framed in it.

* `direction_separation` — in a run the two streams stay apart exactly if no turn that makes the loop
  change sides, with something read behind it, ends inside a frame.
* `direction_mixed` — three bytes that a client sends ahead become the header of the server's response.
-/

namespace MocksySql
open FieldDecode PartialRun ByteStream

/-! ## Turns with their bytes -/

/-- A cached response stands for the server's. -/
def Side.Owns : Side → Origin → Prop
  | .client, origin => origin = .client
  | .server, origin => origin ≠ .client

/-- What is written to the other peer. -/
def Output.forwarded (output : Output) : Side → Bytes
  | .client => output.toServer
  | .server => output.toClient

structure TurnTrace where
  side : Side
  /-- Of `partial_bytes` and of the bytes read, framed together. -/
  buffer : List Origin
  events : List Event
  /-- `none` if the turn panics. -/
  output : Option Output

/-- The origins of all the bytes that are framed in a turn: those held and those read, if it reads any. -/
def turnBuffer (env : Env) (x : Exchange) (held : List Origin) (turn : Turn) : List Origin :=
  match receive env { x with connection := x.connection.sharing turn.shared } turn.read with
  | .bytes _ r origin => held ++ List.replicate r.chunk.length origin
  | _ => []

/-- The turns of a run, the one that ends it included; `held` are the origins of `partial_bytes`. -/
def runTrace (env : Env) : Exchange → List Origin → List Turn → List TurnTrace
  | _, _, [] => []
  | x, held, turn :: turns =>
    { side := x.listening, buffer := turnBuffer env x held turn, events := (turnEvents env x held turn).1,
      output := (exchangeStep env x turn).map (·.2.1) } ::
      match exchangeStep env x turn with
      | none => []
      | some (x', _) => runTrace env x' (turnEvents env x held turn).2 turns

/-- Nothing of the other peer is framed, parsed or forwarded. -/
structure TurnTrace.Separated (t : TurnTrace) : Prop where
  framed : ∀ origin ∈ t.buffer, t.side.Owns origin
  parsed : ∀ e ∈ t.events, ∀ origin ∈ e.origins, t.side.Owns origin
  forwarded : ∀ output ∈ t.output, output.forwarded t.side = [] ∨
    output.forwarded t.side = generateOutgoingFrame (t.events.filterMap (·.step.output))

/-- The incomplete frame at the end of the bytes held and read. -/
def leftover (env : Env) (x : Exchange) (turn : Turn) : Bytes :=
  match receive env { x with connection := x.connection.sharing turn.shared } turn.read with
  | .bytes connection r _ => (frames.split (connection.partialBytes.getD [] ++ r.chunk)).2
  | _ => x.connection.partialBytes.getD []

/-- The run reads something, and does not only wait for the replay log or end. -/
def ReadsMore (env : Env) : Exchange → List Turn → Prop
  | _, [] => False
  | x, turn :: turns =>
    match receive env { x with connection := x.connection.sharing turn.shared } turn.read with
    | .bytes _ _ _ => True
    | .waiting => ReadsMore env { x with connection := x.connection.sharing turn.shared } turns
    | .closed => False

/-- A turn that makes the loop change sides, another one that reads something following, ends between two frames. -/
def SwitchesBetweenFrames (env : Env) : Exchange → List Turn → Prop
  | _, [] => True
  | x, turn :: turns =>
    match exchangeStep env x turn with
    | none => True
    | some (x', _) =>
      (x'.listening ≠ x.listening → ReadsMore env x' turns → leftover env x turn = []) ∧ SwitchesBetweenFrames env x' turns

/-! ## One turn -/

theorem Side.Owns.side_eq {s s' : Side} {origin : Origin} (h : s.Owns origin) (h' : s'.Owns origin) : s = s' := by
  cases s <;> cases s'
  · rfl
  · exact absurd h h'
  · exact absurd h' h
  · rfl

theorem traceBytes_origins (steps : List (Step Connection Packet (Option Packet))) :
    ∀ {origins : List Origin}, ∀ e ∈ traceBytes steps origins, ∀ o ∈ e.origins, o ∈ origins := by
  induction steps with
  | nil => intro _ e he; cases he
  | cons step steps ih =>
    intro origins e he o ho
    rcases List.mem_cons.1 he with rfl | he
    · exact List.mem_of_mem_take ho
    · exact List.mem_of_mem_drop (ih e he o ho)

theorem frameEvents_origins (env : Env) (c : Connection) (r : SocketRead) (origins : List Origin) :
    (∀ e ∈ (frameEvents env c r origins).1, ∀ o ∈ e.origins, o ∈ origins) ∧
      ∀ o ∈ (frameEvents env c r origins).2, o ∈ origins := by
  unfold frameEvents
  split
  · simp
  · exact ⟨traceBytes_origins _, fun o ho => List.mem_of_mem_drop ho⟩

/-- A turn works on the bytes of its buffer, and holds back some of them or what was held. -/
theorem turnEvents_origins (env : Env) (x : Exchange) (held : List Origin) (turn : Turn) :
    (∀ e ∈ (turnEvents env x held turn).1, ∀ o ∈ e.origins, o ∈ turnBuffer env x held turn) ∧
      ∀ o ∈ (turnEvents env x held turn).2, o ∈ turnBuffer env x held turn ∨ o ∈ held := by
  unfold turnEvents turnBuffer
  cases receive env { x with connection := x.connection.sharing turn.shared } turn.read with
  | bytes c r origin =>
    obtain ⟨hevents, hrest⟩ := frameEvents_origins env c r (held ++ List.replicate r.chunk.length origin)
    exact ⟨hevents, fun o ho => .inl (hrest o ho)⟩
  | closed | waiting => exact ⟨fun _ he => absurd he List.not_mem_nil, fun _ ho => .inr ho⟩

theorem switchIfAgreed_partialBytes (env : Env) (c : Connection) :
    (switchIfAgreed env c).partialBytes = c.partialBytes := by
  unfold switchIfAgreed
  split_ifs <;> rfl

/-- Either loop reads its own peer's socket, or the replay log in the server's place. -/
theorem receive_owned {env : Env} {x : Exchange} {read r : SocketRead} {c : Connection} {origin : Origin}
    (h : receive env x read = .bytes c r origin) :
    x.listening.Owns origin ∧ c.partialBytes = x.connection.partialBytes := by
  unfold receive at h
  split at h
  case h_1 hside =>
    rw [hside]
    split at h
    · cases h
    · rename_i hcache
      obtain ⟨_, rfl⟩ := getResponseFromCache_cached hcache
      split_ifs at h
      cases h
      exact ⟨by simp [Side.Owns], rfl⟩
    · split_ifs at h
      cases h
      exact ⟨by simp [Side.Owns], rfl⟩
  case h_2 hside =>
    rw [hside]
    split_ifs at h
    cases h
    exact ⟨rfl, switchIfAgreed_partialBytes env _⟩

theorem turnBuffer_owned {env : Env} {x : Exchange} {held : List Origin} (turn : Turn)
    (hheld : ∀ o ∈ held, x.listening.Owns o) : ∀ o ∈ turnBuffer env x held turn, x.listening.Owns o := by
  unfold turnBuffer
  split
  · rename_i hreceive
    intro o ho
    rcases List.mem_append.1 ho with ho | ho
    · exact hheld o ho
    · rw [List.eq_of_mem_replicate ho]
      exact (receive_owned hreceive).1
  · exact fun _ ho => absurd ho List.not_mem_nil

theorem interceptIfEnabled_partialBytes {env : Env} {c : Connection} {packets : List Packet} {drawn : Nat}
    {counter : UInt8} {i : Intercepted} (h : interceptIfEnabled env c packets drawn counter = some i) :
    i.connection.partialBytes = c.partialBytes := by
  cases interceptIfEnabled_intercepts h <;> rfl

/-- What a turn holds back, with its origins. -/
theorem exchangeStep_leftover {env : Env} {x x' : Exchange} {held : List Origin} {turn : Turn}
    {output : Output} {shared : Shared} (h : exchangeStep env x turn = some (x', output, shared))
    (hheld : held.length = (x.connection.partialBytes.getD []).length) :
    x'.connection.partialBytes.getD [] = leftover env x turn ∧
      (turnEvents env x held turn).2.length = (leftover env x turn).length := by
  rcases exchangeStep_cases h with ⟨hwait, hx'⟩ | ⟨c, r, origin, c', packets, hreceive, hframe, hx'⟩
  · rw [hx', leftover, turnEvents, hwait]
    exact ⟨rfl, hheld⟩
  · obtain ⟨c₀, ps, outs, hmake, hrun, _⟩ := processIncomingFrame_some hframe
    have hc : c.partialBytes = x.connection.partialBytes := (receive_owned hreceive).2
    have hbytes := congrArg List.length (makePackets_bytes hmake)
    obtain ⟨rfl, _⟩ := makePackets_some hmake
    have hc' : c'.partialBytes = (c.withResidual (leftover env x turn)).partialBytes := by
      rw [leftover, hreceive]
      exact run_invariant (I := fun s => s.partialBytes = (c.withResidual _).partialBytes)
        (fun s p _ s' o hI hs => (consumePacket_frame hs).1.trans hI) rfl hrun
    have hx'c : x'.connection.partialBytes = c'.partialBytes := by
      rcases hx' with hx' | ⟨i, hx', hi⟩
      · rw [hx']
      · rw [hx', interceptIfEnabled_partialBytes hi]
    refine ⟨by rw [hx'c, hc', Connection.withResidual_partialBytes], ?_⟩
    rw [turnEvents, leftover, hreceive]
    simp only [frameEvents, hmake, List.length_drop, List.length_append, List.length_replicate, hheld]
    simp only [Connection.withResidual_partialBytes, List.length_append, hc] at hbytes
    rw [hc]
    omega

theorem frameEvents_outputs {env : Env} {c c' : Connection} {r : SocketRead} {packets : List Packet}
    (origins : List Origin) (h : processIncomingFrame env r.buf c r.readBytes = some (c', packets)) :
    (frameEvents env c r origins).1.filterMap (·.step.output) = packets := by
  obtain ⟨c₀, ps, outs, hmake, hrun, rfl⟩ := processIncomingFrame_some h
  have hsteps := traceBytes_steps (transcript (consumePacket env) c₀ ps) origins
  have houts := (transcript_of_run hrun).2
  simp only [frameEvents, hmake]
  rw [← houts, ← hsteps, List.map_map, List.filterMap_map]
  simp only [hsteps]
  rfl

/-- What a turn forwards are the packets that its events put out. -/
theorem exchangeStep_forwarded {env : Env} {x x' : Exchange} {turn : Turn} {output : Output} {shared : Shared}
    (held : List Origin) (h : exchangeStep env x turn = some (x', output, shared)) :
    output.forwarded x.listening = [] ∨ output.forwarded x.listening =
      generateOutgoingFrame ((turnEvents env x held turn).1.filterMap (·.step.output)) := by
  cases exchangeStep_turned h with
  | waiting _ =>
    left
    cases x.listening <;> rfl
  | @server c c' r origin packets buffer records hlisten hreceive hframe _ =>
    right
    rw [turnEvents, hreceive, hlisten]
    simp only
    rw [frameEvents_outputs _ hframe]
    rfl
  | answered hlisten _ _ _ _ =>
    left
    rw [hlisten]
    rfl
  | @unanswered c c' r origin packets i hlisten hreceive hframe _ _ =>
    rw [turnEvents, hreceive, hlisten]
    simp only
    rw [frameEvents_outputs _ hframe]
    by_cases hsend : sendCommandToServer i.connection
    · right; simp [Output.forwarded, hsend]
    · left; simp [Output.forwarded, hsend]

/-! ## Runs -/

theorem exchangeStep_waiting {env : Env} {x : Exchange} {turn : Turn}
    (h : receive env { x with connection := x.connection.sharing turn.shared } turn.read = .waiting) :
    exchangeStep env x turn = some ({ x with connection := x.connection.sharing turn.shared },
      { toClient := [], toServer := [], records := [] }, turn.shared) := by
  unfold exchangeStep
  simp only [h]

theorem exchangeStep_closed {env : Env} {x : Exchange} {turn : Turn}
    (h : receive env { x with connection := x.connection.sharing turn.shared } turn.read = .closed) :
    exchangeStep env x turn = none := by
  unfold exchangeStep
  simp only [h]

/-- Where nothing is read nothing is framed. -/
theorem runTrace_unread {env : Env} : ∀ {turns : List Turn} {x : Exchange} {held : List Origin}, ¬ ReadsMore env x turns →
    (∀ t ∈ runTrace env x held turns, t.Separated) ∧ SwitchesBetweenFrames env x turns
  | [], _, _, _ => ⟨fun _ ht => absurd ht List.not_mem_nil, trivial⟩
  | turn :: turns, x, held, h => by
    rw [ReadsMore] at h
    rw [runTrace, SwitchesBetweenFrames, List.forall_mem_cons]
    cases hreceive : receive env { x with connection := x.connection.sharing turn.shared } turn.read with
    | bytes c r origin =>
      rw [hreceive] at h
      exact absurd trivial h
    | closed =>
      rw [exchangeStep_closed hreceive]
      refine ⟨⟨⟨?_, ?_, ?_⟩, fun _ ht => absurd ht List.not_mem_nil⟩, trivial⟩ <;> simp [turnBuffer, turnEvents, hreceive]
    | waiting =>
      rw [hreceive] at h
      rw [exchangeStep_waiting hreceive]
      obtain ⟨htail, hswitches⟩ := @runTrace_unread env turns { x with connection := x.connection.sharing turn.shared }
        (turnEvents env x held turn).2 h
      refine ⟨⟨⟨?_, ?_, ?_⟩, htail⟩, fun hne => absurd rfl hne, hswitches⟩
      · simp [turnBuffer, hreceive]
      · simp [turnEvents, hreceive]
      · rintro _ ⟨⟩
        exact .inl (by cases x.listening <;> rfl)

/-- What is held is framed with what is read next. -/
theorem runTrace_reads {env : Env} : ∀ {turns : List Turn} {x : Exchange} {held : List Origin}, ReadsMore env x turns →
    (∀ t ∈ runTrace env x held turns, t.Separated) → ∀ o ∈ held, x.listening.Owns o
  | [], _, _, h, _ => h.elim
  | turn :: turns, x, held, h, hseparated => by
    intro o ho
    rw [ReadsMore] at h
    rw [runTrace, List.forall_mem_cons] at hseparated
    obtain ⟨hhead, htail⟩ := hseparated
    cases hreceive : receive env { x with connection := x.connection.sharing turn.shared } turn.read with
    | bytes c r origin =>
      refine hhead.framed o ?_
      simp only [turnBuffer, hreceive]
      exact List.mem_append_left _ ho
    | closed =>
      rw [hreceive] at h
      exact h.elim
    | waiting =>
      rw [hreceive] at h
      rw [exchangeStep_waiting hreceive] at htail
      refine @runTrace_reads env turns { x with connection := x.connection.sharing turn.shared } held h ?_ o ho
      simpa [turnEvents, hreceive] using htail

/-- The induction of `direction_separation`: the invariant is that what is held is of the side
listened at. -/
theorem runTrace_separated {env : Env} : ∀ {turns : List Turn} {x : Exchange} {held : List Origin},
    held.length = (x.connection.partialBytes.getD []).length → (∀ o ∈ held, x.listening.Owns o) →
    ((∀ t ∈ runTrace env x held turns, t.Separated) ↔ SwitchesBetweenFrames env x turns)
  | [], _, _, _, _ => by simp [runTrace, SwitchesBetweenFrames]
  | turn :: turns, x, held, hlen, howned => by
    have hbuffer := @turnBuffer_owned env x held turn howned
    obtain ⟨hevents, hrest⟩ := turnEvents_origins env x held turn
    have hkept : ∀ o ∈ (turnEvents env x held turn).2, x.listening.Owns o := fun o ho =>
      (hrest o ho).elim (hbuffer o) (howned o)
    rw [runTrace, SwitchesBetweenFrames, List.forall_mem_cons]
    cases hstep : exchangeStep env x turn with
    | none =>
      refine ⟨fun _ => trivial, fun _ => ⟨⟨hbuffer, fun e he o ho => hbuffer o (hevents e he o ho), ?_⟩, by simp⟩⟩
      simp
    | some res =>
      obtain ⟨x', output, shared⟩ := res
      obtain ⟨hheld, hlen'⟩ := exchangeStep_leftover hstep hlen
      have hhead : TurnTrace.Separated
          { side := x.listening, buffer := turnBuffer env x held turn, events := (turnEvents env x held turn).1,
            output := some output } := by
        refine ⟨hbuffer, fun e he o ho => hbuffer o (hevents e he o ho), ?_⟩
        rintro _ ⟨⟩
        exact exchangeStep_forwarded held hstep
      by_cases hreads : ReadsMore env x' turns
      · -- A switch inside a frame hands the next read what is not its own.
        have hswitch : (∀ t ∈ runTrace env x' (turnEvents env x held turn).2 turns, t.Separated) →
            x'.listening ≠ x.listening → leftover env x turn = [] := by
          intro htail hne
          have hnext := runTrace_reads hreads htail
          rw [← List.length_eq_zero_iff, ← hlen', List.length_eq_zero_iff, List.eq_nil_iff_forall_not_mem]
          intro o ho
          exact hne (Side.Owns.side_eq (hnext o ho) (hkept o ho))
        have howned' : (x'.listening ≠ x.listening → leftover env x turn = []) →
            ∀ o ∈ (turnEvents env x held turn).2, x'.listening.Owns o := by
          intro hleft
          by_cases hsame : x'.listening = x.listening
          · rw [hsame]; exact hkept
          · rw [hleft hsame, List.length_nil, List.length_eq_zero_iff] at hlen'
            simp [hlen']
        have hlater := @runTrace_separated env turns x' (turnEvents env x held turn).2 (by rw [hlen', hheld])
        constructor
        · rintro ⟨_, htail⟩
          exact ⟨fun hne _ => hswitch htail hne, (hlater (howned' (hswitch htail))).1 htail⟩
        · rintro ⟨hleft, htail⟩
          exact ⟨hhead, (hlater (howned' fun hne => hleft hne hreads)).2 htail⟩
      · obtain ⟨htail, hswitches⟩ := @runTrace_unread env turns x' (turnEvents env x held turn).2 hreads
        exact ⟨fun _ => ⟨fun _ hr => absurd hr hreads, hswitches⟩, fun _ => ⟨hhead, htail⟩⟩

/-- **Direction separation.** In a run from a new connection nothing of one peer is framed, parsed or
forwarded as the other's data, if and only if no turn that makes the loop change sides, with something read
behind it, ends inside a frame. -/
theorem direction_separation (env : Env) (server client : SwitchableConnection) (diff : StateDiffLog)
    (replay : ReplayLog) (kafka : Option String) (turns : List Turn) :
    (∀ t ∈ runTrace env (.start (.new server client diff replay kafka)) [] turns, t.Separated) ↔
      SwitchesBetweenFrames env (.start (.new server client diff replay kafka)) turns :=
  runTrace_separated rfl (by simp)

/-- A client that sends the first three bytes of a second COM_PING behind its first. -/
def samplePipelined : List Turn :=
  [sampleTurn sampleGreeting, sampleTurn sampleAnswer, sampleTurn sampleOk, sampleTurn [1, 0, 0, 0, 0x0e, 1, 0, 0],
    sampleTurn [7, 0, 0, 1, 0x00, 0, 0, 2, 0, 0, 0]]

/-- They become the header of the server's OK packet: a frame of both peers is consumed as the
response and forwarded to the client. -/
theorem direction_mixed :
    ¬ ∀ t ∈ runTrace sampleEnv (.start (.new .plain .plain ∅ none none)) [] samplePipelined, t.Separated := by
  have htrace : ∃ t₁ t₂ t₃ t₄ t₅ e, runTrace sampleEnv (.start (.new .plain .plain ∅ none none)) []
        samplePipelined = [t₁, t₂, t₃, t₄, t₅] ∧ t₅.side = .server ∧ t₅.events = [e] ∧
      e.origins = [.client, .client, .client, .server, .server] ∧
      t₅.output.map (·.toClient) = some [1, 0, 0, 7, 0] :=
    ⟨_, _, _, _, _, _, rfl, rfl, rfl, rfl, rfl⟩
  obtain ⟨t₁, t₂, t₃, t₄, t₅, e, htrace, hside, hevents, horigins, _⟩ := htrace
  rw [htrace]
  intro h
  have hparsed := (h t₅ (by simp)).parsed e (by simp [hevents]) .client (by simp [horigins])
  rw [hside] at hparsed
  exact hparsed rfl

end MocksySql
