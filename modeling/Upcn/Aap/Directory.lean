import Mathlib.Data.List.Infix
import Upcn.Aap.Registration

/-!
# The list of the agents is a directory

`Registered` says that the list holds the agents of the node and, for every connection that is
registered, one with the string of this connection.  With it no function reads a string that was
freed, and each leaves a list that stands for the directory it should.
-/

namespace Upcn.Agents

open Upcn.Aap (Message MessageType)

variable {strings : Strings} {agents : List (Agent Recipient)} {ids : Nat → Option Nat}
  {i address : Nat} {sink : Sink} {s s' : State} {c : Connection} {localEid : List UInt8}

/-- The directory of a list, where a connection is registered with the string at this address. -/
def directoryOf (strings : Strings) (agents : List (Agent Recipient)) (ids : Nat → Option Nat) :
    Directory where
  own := {sink | ∃ agent ∈ agents, agent.callback = some .internal ∧ strings.nameOf agent = sink}
  sinkOf i := (ids i).bind fun address => strings[address]?.join

/-- The agents are those of the node, and one for every connection that is registered. -/
structure Registered (strings : Strings) (agents : List (Agent Recipient))
    (ids : Nat → Option Nat) : Prop where
  consistent : Consistent strings agents
  listed : ∀ i address, ids i = some address → ⟨address, some (.connection i)⟩ ∈ agents
  owned : ∀ agent ∈ agents, agent.callback = some .internal ∨
    ∃ i, agent.callback = some (.connection i) ∧ ids i = some agent.sinkIdentifier

namespace Registered

/-- A connection is registered for the string of its agent. -/
theorem sinkOf_eq (h : Registered strings agents ids) :
    (directoryOf strings agents ids).sinkOf i = some sink ↔
      ∃ agent ∈ agents, agent.callback = some (.connection i) ∧ strings.nameOf agent = sink := by
  constructor
  · intro hsink
    obtain ⟨address, hid, hread⟩ := Option.bind_eq_some_iff.mp hsink
    refine ⟨_, h.listed i address hid, rfl, ?_⟩
    rw [Strings.nameOf, hread]
    rfl
  · rintro ⟨agent, hagent, hcallback, hname⟩
    obtain ⟨name, hlive⟩ := h.consistent.live agent hagent
    rcases h.owned agent hagent with hinternal | ⟨j, hj, hid⟩
    · rw [hcallback] at hinternal
      cases hinternal
    · rw [hcallback] at hj
      obtain rfl := Recipient.connection.inj (Option.some.inj hj)
      rw [nameOf_of_some hlive] at hname
      show (ids i).bind _ = _
      rw [hid, Option.bind_some, hlive, hname]
      rfl

/-- The sinks of the agents are those that are not free. -/
theorem mem_names (h : Registered strings agents ids) :
    sink ∈ agents.map strings.nameOf ↔ ¬ (directoryOf strings agents ids).Free sink := by
  constructor
  · intro hmem hfree
    obtain ⟨agent, hagent, hname⟩ := List.mem_map.mp hmem
    rcases h.owned agent hagent with hinternal | ⟨i, hi, -⟩
    · exact hfree.1 ⟨agent, hagent, hinternal, hname⟩
    · exact hfree.2 i (h.sinkOf_eq.mpr ⟨agent, hagent, hi, hname⟩)
  · intro hnot
    by_contra hmem
    refine hnot ⟨?_, fun i hi => ?_⟩
    · rintro ⟨agent, hagent, -, hname⟩
      exact hmem (List.mem_map.mpr ⟨agent, hagent, hname⟩)
    · obtain ⟨agent, hagent, -, hname⟩ := h.sinkOf_eq.mp hi
      exact hmem (List.mem_map.mpr ⟨agent, hagent, hname⟩)

/-- No sink is registered twice. -/
theorem exclusive (h : Registered strings agents ids) :
    (directoryOf strings agents ids).Exclusive where
  own i sink hi := by
    rintro ⟨other, hother, hinternal, hname'⟩
    obtain ⟨agent, hagent, hcallback, hname⟩ := h.sinkOf_eq.mp hi
    have hsame := List.inj_on_of_nodup_map h.consistent.nodup hagent hother
      (hname.trans hname'.symm)
    rw [hsame, hinternal] at hcallback
    cases hcallback
  single i j sink hi hj := by
    obtain ⟨agent, hagent, hcallback, hname⟩ := h.sinkOf_eq.mp hi
    obtain ⟨other, hother, hcallback', hname'⟩ := h.sinkOf_eq.mp hj
    have hsame := List.inj_on_of_nodup_map h.consistent.nodup hagent hother
      (hname.trans hname'.symm)
    rw [hsame, hcallback'] at hcallback
    exact (Recipient.connection.inj (Option.some.inj hcallback)).symm

/-- The callback of the agent that is found. -/
theorem hands (h : Registered strings agents ids) (sink : Sink) :
    (directoryOf strings agents ids).Hands sink
      ((agentOf strings agents sink).bind (·.callback)) := by
  cases hfound : agentOf strings agents sink with
  | none =>
    refine .dropped ?_
    by_contra hnot
    exact agentOf_eq_none.mp hfound (h.mem_names.mpr hnot)
  | some agent =>
    obtain ⟨hagent, hname⟩ := (agentOf_eq_some h.consistent).mp hfound
    show Directory.Hands _ _ agent.callback
    rcases h.owned agent hagent with hinternal | ⟨i, hi, -⟩
    · rw [hinternal]
      exact .own ⟨agent, hagent, hinternal, hname⟩
    · rw [hi]
      exact .connection (h.sinkOf_eq.mpr ⟨agent, hagent, hi, hname⟩)

/-! ## What changes the list -/

/-- The strings of the agents stay. -/
theorem congr (h : Registered strings agents ids) {later : Strings}
    (hsame : ∀ agent ∈ agents, later[agent.sinkIdentifier]? = strings[agent.sinkIdentifier]?) :
    Registered later agents ids ∧
      directoryOf later agents ids = directoryOf strings agents ids := by
  have hlater : Registered later agents ids := ⟨h.consistent.congr hsame, h.listed, h.owned⟩
  have hname : ∀ agent ∈ agents, later.nameOf agent = strings.nameOf agent := by
    intro agent hagent
    rw [Strings.nameOf, Strings.nameOf, hsame agent hagent]
  refine ⟨hlater, ?_⟩
  unfold directoryOf
  congr 1
  · ext sink
    constructor
    · rintro ⟨agent, hagent, hinternal, rfl⟩
      exact ⟨agent, hagent, hinternal, (hname agent hagent).symm⟩
    · rintro ⟨agent, hagent, hinternal, rfl⟩
      exact ⟨agent, hagent, hinternal, hname agent hagent⟩
  · funext i
    cases hid : ids i with
    | none => rfl
    | some address =>
      have hagent := hsame _ (h.listed i address hid)
      rw [Option.bind_some, Option.bind_some, hagent]

/-- A string that no agent has. -/
theorem fresh (h : Registered strings agents ids) :
    ∀ agent ∈ agents, agent.sinkIdentifier < strings.length := by
  intro agent hagent
  obtain ⟨name, hlive⟩ := h.consistent.live agent hagent
  exact (List.getElem?_eq_some_iff.mp hlive).1

theorem allocate (h : Registered strings agents ids) (string : Sink) :
    Registered (strings ++ [some string]) agents ids ∧
      directoryOf (strings ++ [some string]) agents ids = directoryOf strings agents ids :=
  h.congr fun agent hagent => List.getElem?_append_left (h.fresh agent hagent)

theorem free (h : Registered strings agents ids)
    (hunused : ∀ agent ∈ agents, agent.sinkIdentifier ≠ address) :
    Registered (strings.set address none) agents ids ∧
      directoryOf (strings.set address none) agents ids = directoryOf strings agents ids :=
  h.congr fun agent hagent => List.getElem?_set_ne (hunused agent hagent).symm

/-- The agent of a connection is removed, and its string freed. -/
theorem release (h : Registered strings agents ids) (hid : ids i = some address) :
    Registered (strings.set address none) (agents.erase ⟨address, some (.connection i)⟩)
        (Function.update ids i none) ∧
      directoryOf (strings.set address none) (agents.erase ⟨address, some (.connection i)⟩)
        (Function.update ids i none) = (directoryOf strings agents ids).assign i none := by
  have hmem := h.listed i address hid
  have hnodup := h.consistent.nodup_agents
  have hunused : ∀ agent ∈ agents.erase ⟨address, some (.connection i)⟩,
      agent.sinkIdentifier ≠ address := by
    intro agent hagent hsame
    have hne := (hnodup.mem_erase_iff.mp hagent).1
    exact hne (h.consistent.eq_of_address (List.mem_of_mem_erase hagent) hmem hsame)
  have hstrings : ∀ agent ∈ agents.erase ⟨address, some (.connection i)⟩,
      (strings.set address none)[agent.sinkIdentifier]? = strings[agent.sinkIdentifier]? :=
    fun agent hagent => List.getElem?_set_ne (hunused agent hagent).symm
  have hother : ∀ j, j ≠ i → ∀ b, ids j = some b →
      ⟨b, some (.connection j)⟩ ∈ agents.erase ⟨address, some (.connection i)⟩ := by
    intro j hj b hb
    refine hnodup.mem_erase_iff.mpr ⟨fun hsame => hj ?_, h.listed j b hb⟩
    exact Recipient.connection.inj (Option.some.inj (congrArg Agent.callback hsame))
  refine ⟨⟨(h.consistent.erase _).congr hstrings, fun j b hj => ?_, fun agent hagent => ?_⟩, ?_⟩
  · by_cases hji : j = i
    · rw [hji, Function.update_self] at hj
      cases hj
    · rw [Function.update_of_ne hji] at hj
      exact hother j hji b hj
  · rcases h.owned agent (List.mem_of_mem_erase hagent) with hinternal | ⟨j, hj, hjd⟩
    · exact .inl hinternal
    · refine .inr ⟨j, hj, ?_⟩
      have hji : j ≠ i := by
        rintro rfl
        rw [hid] at hjd
        exact hunused agent hagent (Option.some.inj hjd).symm
      rw [Function.update_of_ne hji, hjd]
  · unfold directoryOf Directory.assign
    congr 1
    · ext sink
      constructor
      · rintro ⟨agent, hagent, hinternal, rfl⟩
        refine ⟨agent, List.mem_of_mem_erase hagent, hinternal, ?_⟩
        rw [Strings.nameOf, Strings.nameOf, hstrings agent hagent]
      · rintro ⟨agent, hagent, hinternal, rfl⟩
        have herase : agent ∈ agents.erase ⟨address, some (.connection i)⟩ := by
          refine hnodup.mem_erase_iff.mpr ⟨fun hsame => ?_, hagent⟩
          rw [hsame] at hinternal
          cases hinternal
        refine ⟨agent, herase, hinternal, ?_⟩
        rw [Strings.nameOf, Strings.nameOf, hstrings agent herase]
    · funext j
      by_cases hji : j = i
      · rw [hji, Function.update_self, Function.update_self]
        rfl
      · rw [Function.update_of_ne hji, Function.update_of_ne hji]
        show (ids j).bind _ = (ids j).bind _
        cases hj : ids j with
        | none => rfl
        | some b =>
          have hb := hstrings _ (hother j hji b hj)
          rw [Option.bind_some, Option.bind_some, hb]

/-- A connection that is not registered is registered for a sink that is free. -/
theorem register (h : Registered strings agents ids) (hid : ids i = none)
    (haddress : strings[address]? = some (some sink))
    (hfree : sink ∉ agents.map strings.nameOf) :
    Registered strings (agents ++ [⟨address, some (.connection i)⟩])
        (Function.update ids i (some address)) ∧
      directoryOf strings (agents ++ [⟨address, some (.connection i)⟩])
        (Function.update ids i (some address)) =
          (directoryOf strings agents ids).assign i (some sink) := by
  refine ⟨⟨h.consistent.register haddress hfree _, fun j b hj => ?_, fun agent hagent => ?_⟩, ?_⟩
  · by_cases hji : j = i
    · rw [hji, Function.update_self] at hj
      rw [hji, ← Option.some.inj hj]
      exact List.mem_append_right _ (List.mem_singleton_self _)
    · rw [Function.update_of_ne hji] at hj
      exact List.mem_append_left _ (h.listed j b hj)
  · rcases List.mem_append.mp hagent with hold | hnew
    · rcases h.owned agent hold with hinternal | ⟨j, hj, hjd⟩
      · exact .inl hinternal
      · refine .inr ⟨j, hj, ?_⟩
        have hji : j ≠ i := by
          rintro rfl
          rw [hid] at hjd
          cases hjd
        rw [Function.update_of_ne hji, hjd]
    · rw [List.mem_singleton.mp hnew]
      exact .inr ⟨i, rfl, Function.update_self ..⟩
  · unfold directoryOf Directory.assign
    congr 1
    · ext name
      constructor
      · rintro ⟨agent, hagent, hinternal, hname⟩
        rcases List.mem_append.mp hagent with hold | hnew
        · exact ⟨agent, hold, hinternal, hname⟩
        · rw [List.mem_singleton.mp hnew] at hinternal
          cases hinternal
      · rintro ⟨agent, hagent, hinternal, hname⟩
        exact ⟨agent, List.mem_append_left _ hagent, hinternal, hname⟩
    · funext j
      by_cases hji : j = i
      · rw [hji, Function.update_self, Function.update_self, Option.bind_some, haddress]
        rfl
      · rw [Function.update_of_ne hji, Function.update_of_ne hji]

end Registered

/-! ## The functions -/

/-- The address of the string that a connection is registered with. -/
def State.idOf (s : State) (i : Nat) : Option Nat := s.connections[i]?.bind (·.registeredAgentId)

/-- The directory that the list stands for. -/
def State.directory (s : State) : Directory := directoryOf s.strings s.agents s.idOf

/-- The list holds what the connections are registered for. -/
def State.InOrder (s : State) : Prop := Registered s.strings s.agents s.idOf

theorem idOf_of_get (hc : s.connections[i]? = some c) : s.idOf i = c.registeredAgentId := by
  rw [State.idOf, hc]
  rfl

theorem idOf_of_set (hc : s.connections[i]? = some c) {c' : Connection}
    (hset : s'.connections = s.connections.set i c') :
    s'.idOf = Function.update s.idOf i c'.registeredAgentId := by
  have hbound := (List.getElem?_eq_some_iff.mp hc).1
  funext j
  unfold State.idOf
  rw [hset]
  by_cases hji : j = i
  · rw [hji, Function.update_self, List.getElem?_set_self hbound]
    rfl
  · rw [Function.update_of_ne hji, List.getElem?_set_ne (Ne.symm hji)]

/-- The answers to a connection. -/
def answersTo (i : Nat) (outputs : List Output) : List Message :=
  outputs.filterMap fun output =>
    match output with
    | .answer j message => if j = i then some message else none
    | _ => none

/-- The bundles that were handed to a connection. -/
def handedTo (i : Nat) (outputs : List Output) : List Adu :=
  outputs.filterMap fun output =>
    match output with
    | .handed adu (some (.connection j)) => if j = i then some adu else none
    | _ => none

@[simp] theorem answersTo_append (i : Nat) (outputs more : List Output) :
    answersTo i (outputs ++ more) = answersTo i outputs ++ answersTo i more :=
  List.filterMap_append

@[simp] theorem handedTo_append (i : Nat) (outputs more : List Output) :
    handedTo i (outputs ++ more) = handedTo i outputs ++ handedTo i more :=
  List.filterMap_append

/-- What the functions of a connection leave of it: the answers are sent, and the pipe stays. -/
structure Answered (s : State) (i : Nat) (c : Connection) (outputs : List Output) (s' : State) :
    Prop where
  inOrder : s'.InOrder
  log : s'.outputs = s.outputs ++ outputs
  connection : ∃ id, s'.connections = s.connections.set i { c with
    registeredAgentId := id
    sent := c.sent ++ answersTo i outputs }
  handed : ∀ j, handedTo j outputs = []
  others : ∀ j, j ≠ i → answersTo j outputs = []
  plain : ∀ message ∈ answersTo i outputs, message.type ≠ .recvbundle

/-- `deregister_sink` does not fail. -/
theorem deregisterSink_spec (h : s.InOrder) (hc : s.connections[i]? = some c) :
    ∃ later, s.deregisterSink c = .ok (later, { c with registeredAgentId := none }) ∧
      later.connections = s.connections ∧ later.outputs = s.outputs ∧
      Registered later.strings later.agents (Function.update s.idOf i none) ∧
      directoryOf later.strings later.agents (Function.update s.idOf i none) =
        s.directory.assign i none ∧
      (∀ agent ∈ later.agents, agent ∈ s.agents) ∧
      ∀ b, (∀ agent ∈ s.agents, agent.sinkIdentifier ≠ b) →
        later.strings[b]? = s.strings[b]? := by
  have hid := idOf_of_get hc
  cases hregistered : c.registeredAgentId with
  | none =>
    rw [hregistered] at hid
    have hids : Function.update s.idOf i none = s.idOf := by
      rw [← hid, Function.update_eq_self]
    have hsinks : s.directory.assign i none = s.directory := by
      have hnone : s.directory.sinkOf i = none := by
        show (s.idOf i).bind _ = none
        rw [hid]
        rfl
      unfold Directory.assign
      rw [← hnone, Function.update_eq_self]
    have hsame : { c with registeredAgentId := none } = c := by
      rw [← hregistered]
    refine ⟨s, ?_, rfl, rfl, ?_, ?_, fun _ hagent => hagent, fun _ _ => rfl⟩
    · rw [State.deregisterSink, hregistered, hsame]
    · rw [hids]
      exact h
    · rw [hids, hsinks]
      rfl
  | some address =>
    rw [hregistered] at hid
    have hmem := h.listed i address hid
    obtain ⟨hreleased, hdirectory⟩ := h.release hid
    refine ⟨{ s with
      agents := s.agents.erase ⟨address, some (.connection i)⟩
      strings := s.strings.set address none }, ?_, rfl, rfl, hreleased, hdirectory,
      fun agent hagent => List.mem_of_mem_erase hagent, fun b hb => ?_⟩
    · rw [State.deregisterSink, hregistered]
      show (do
        let agents ← agentDeregister s.strings s.agents address
        return _) = _
      have hremoved := agentDeregister_spec h.consistent hmem
      dsimp only at hremoved
      rw [hremoved]
      rfl
    · exact List.getElem?_set_ne (hb _ hmem)

/-- Behind the functions, the buffer is cleared, if it is not that of an agent. -/
theorem clear_spec (msg : Message) {eid : Nat} (h : s.InOrder)
    (hunused : ∀ agent ∈ s.agents, agent.sinkIdentifier ≠ eid) :
    (s.clear msg eid).InOrder ∧ (s.clear msg eid).directory = s.directory ∧
      (s.clear msg eid).connections = s.connections ∧ (s.clear msg eid).outputs = s.outputs := by
  unfold State.clear
  cases msg.eid with
  | none => exact ⟨h, rfl, rfl, rfl⟩
  | some string =>
    obtain ⟨hfree, hdirectory⟩ := Registered.free h hunused
    exact ⟨hfree, hdirectory, rfl, rfl⟩

theorem receive_spec (msg : Message) (h : s.InOrder) :
    (s.receive msg).InOrder ∧ (s.receive msg).directory = s.directory ∧
      (s.receive msg).connections = s.connections ∧ (s.receive msg).outputs = s.outputs ∧
      (s.receive msg).agents = s.agents ∧
      ∀ eid, msg.eid = some eid →
        (s.receive msg).strings[s.strings.length]? = some (some (sinkOfMessage msg)) := by
  unfold State.receive
  cases hmsg : msg.eid with
  | none => exact ⟨h, rfl, rfl, rfl, rfl, fun _ heid => by cases heid⟩
  | some string =>
    obtain ⟨hallocate, hdirectory⟩ := Registered.allocate h (cString string)
    refine ⟨hallocate, hdirectory, rfl, rfl, rfl, fun eid heid => ?_⟩
    show (s.strings ++ [some (cString string)])[s.strings.length]? = _
    rw [List.getElem?_append_right (Nat.le_refl _), Nat.sub_self, sinkOfMessage, hmsg]
    rfl

/-- The connection is answered. -/
theorem respond_spec {later : State} {id : Option Nat} (message : Message)
    (hplain : message.type ≠ .recvbundle) (hc : s.connections[i]? = some c)
    (hconnections : later.connections = s.connections)
    (houtputs : later.outputs = s.outputs)
    (h : Registered later.strings later.agents (Function.update s.idOf i id)) :
    Answered s i c [.answer i message]
        (later.respond i { c with registeredAgentId := id } message) ∧
      (later.respond i { c with registeredAgentId := id } message).directory =
        directoryOf later.strings later.agents (Function.update s.idOf i id) := by
  have hanswers : answersTo i [.answer i message] = [message] := by
    simp [answersTo]
  have hset : (later.respond i { c with registeredAgentId := id } message).connections =
      s.connections.set i { c with
        registeredAgentId := id
        sent := c.sent ++ answersTo i [.answer i message] } := by
    rw [hanswers, ← hconnections]
    rfl
  have hids := idOf_of_set hc hset
  refine ⟨⟨?_, ?_, ⟨id, hset⟩, fun _ => rfl, fun j hji => ?_, fun other hother => ?_⟩, ?_⟩
  · unfold State.InOrder
    rw [hids]
    exact h
  · show later.outputs ++ _ = _
    rw [houtputs]
  · simp [answersTo, Ne.symm hji]
  · rw [hanswers] at hother
    rw [List.mem_singleton.mp hother]
    exact hplain
  · rw [State.directory, hids]
    rfl

/-- The buffer is cleared behind the answer. -/
theorem Answered.clear {outputs : List Output} (h : Answered s i c outputs s') (msg : Message)
    {eid : Nat} (hunused : ∀ agent ∈ s'.agents, agent.sinkIdentifier ≠ eid) :
    Answered s i c outputs (s'.clear msg eid) ∧ (s'.clear msg eid).directory = s'.directory := by
  obtain ⟨hcleared, hdirectory, hconnections, houtputs⟩ := clear_spec msg h.inOrder hunused
  refine ⟨⟨hcleared, houtputs.trans h.log, ?_, h.handed, h.others, h.plain⟩, hdirectory⟩
  obtain ⟨id, hset⟩ := h.connection
  exact ⟨id, hconnections.trans hset⟩

/-- A valid message with an EID has it as a string of its length. -/
theorem eid_of_valid {msg : Message} (hvalid : msg.aapMessageIsValid = true)
    (htype : msg.type = .register) :
    ∃ eid, msg.eid = some eid ∧ (msg.eidLength = 0 ↔ sinkOfMessage msg = []) := by
  have hwrong : msg.eidIsWrong = false := by
    unfold Message.aapMessageIsValid at hvalid
    rw [htype] at hvalid
    cases hwrong : msg.eidIsWrong with
    | false => rfl
    | true => simp [hwrong, MessageType.hasEid] at hvalid
  unfold Message.eidIsWrong at hwrong
  cases heid : msg.eid with
  | none =>
    rw [heid] at hwrong
    cases hwrong
  | some eid =>
    rw [heid] at hwrong
    have hlength : Message.strlen eid = msg.eidLength := by
      have hboth := Bool.or_eq_false_iff.mp hwrong
      simpa using hboth.2
    refine ⟨eid, rfl, ?_⟩
    rw [sinkOfMessage, heid, ← hlength]
    exact List.length_eq_zero_iff

/-- `case AAP_MESSAGE_REGISTER:`. -/
theorem processRegister_spec {msg : Message} {eid : Nat} {stored : Option Nat} (h : s.InOrder)
    (hc : s.connections[i]? = some c) (hvalid : msg.aapMessageIsValid = true)
    (htype : msg.type = .register)
    (hstring : s.strings[eid]? = some (some (sinkOfMessage msg)))
    (hunused : ∀ agent ∈ s.agents, agent.sinkIdentifier ≠ eid) :
    ∃ s' outputs, s.processRegister i c msg eid = .ok s' ∧ Answered s i c outputs s' ∧
      Directory.Answers localEid stored i msg s.directory outputs s'.directory := by
  obtain ⟨string, hmsg, hempty⟩ := eid_of_valid hvalid htype
  obtain ⟨later, hderegister, hconnections, houtputs, hregistered, hdirectory, hagents, hstrings⟩ :=
    deregisterSink_spec h hc
  have hunused' : ∀ agent ∈ later.agents, agent.sinkIdentifier ≠ eid :=
    fun agent hagent => hunused agent (hagents agent hagent)
  have hstring' : later.strings[eid]? = some (some (sinkOfMessage msg)) := by
    rw [hstrings eid hunused, hstring]
  rw [State.processRegister, hderegister]
  show ∃ s' outputs, (if msg.eid = none ∨ msg.eidLength = 0 then _ else _) = Except.ok s' ∧ _
  by_cases hnone : sinkOfMessage msg = []
  · rw [if_pos (.inr (hempty.mpr hnone))]
    obtain ⟨hanswered, hafter⟩ := @respond_spec i s c later none (.cleared .ack)
      MessageType.noConfusion hc hconnections houtputs hregistered
    obtain ⟨hcleared, hsame⟩ := hanswered.clear msg hunused'
    refine ⟨_, _, rfl, hcleared, ?_⟩
    rw [hsame, hafter, hdirectory]
    exact .released htype hnone
  have hsome : ¬ (msg.eid = none ∨ msg.eidLength = 0) := by
    rw [hmsg, hempty]
    simp [hnone]
  rw [if_neg hsome, agentRegister_spec hregistered.consistent hstring']
  have hnames := @Registered.mem_names _ _ _ (sinkOfMessage msg) hregistered
  rw [hdirectory] at hnames
  by_cases hmem : sinkOfMessage msg ∈ later.agents.map later.strings.nameOf
  · rw [if_pos hmem]
    obtain ⟨hanswered, hafter⟩ := @respond_spec i s c later none (.cleared .nack)
      MessageType.noConfusion hc hconnections houtputs hregistered
    obtain ⟨hcleared, hsame⟩ := hanswered.clear msg hunused'
    refine ⟨_, _, rfl, hcleared, ?_⟩
    rw [hsame, hafter, hdirectory]
    exact .refused htype hnone (hnames.mp hmem)
  · rw [if_neg hmem]
    obtain ⟨hnow, hgranted⟩ := hregistered.register (Function.update_self ..) hstring' hmem
    rw [Function.update_idem] at hnow hgranted
    obtain ⟨hanswered, hafter⟩ := @respond_spec i s c
      { later with agents := later.agents ++ [⟨eid, some (.connection i)⟩] } (some eid)
      (.cleared .ack) MessageType.noConfusion hc hconnections houtputs hnow
    refine ⟨_, _, rfl, hanswered, ?_⟩
    rw [hafter, hgranted, hdirectory]
    have hassign : (s.directory.assign i none).assign i (some (sinkOfMessage msg)) =
        s.directory.assign i (some (sinkOfMessage msg)) := by
      unfold Directory.assign
      dsimp only
      rw [Function.update_idem]
    rw [hassign]
    exact .granted htype hnone (not_not.mp (hnames.not.mp hmem))

/-- Nothing is answered. -/
theorem Answered.refl (h : s.InOrder) (hc : s.connections[i]? = some c) :
    Answered s i c [] s := by
  have hset : s.connections.set i { c with
      registeredAgentId := c.registeredAgentId
      sent := c.sent ++ answersTo i [] } = s.connections := by
    obtain ⟨hbound, hget⟩ := List.getElem?_eq_some_iff.mp hc
    show s.connections.set i { c with sent := c.sent ++ [] } = s.connections
    rw [List.append_nil, ← hget, List.set_getElem_self]
  exact ⟨h, (List.append_nil _).symm, ⟨_, hset.symm⟩, fun _ => rfl, fun _ _ => rfl,
    fun _ hmem => by cases hmem⟩

/-- What was done before. -/
theorem Answered.of_before {before : State} {outputs front : List Output}
    (h : Answered s i c outputs s') (hconnections : s.connections = before.connections)
    (houtputs : s.outputs = before.outputs ++ front) (hanswers : ∀ j, answersTo j front = [])
    (hhanded : ∀ j, handedTo j front = []) : Answered before i c (front ++ outputs) s' := by
  refine ⟨h.inOrder, ?_, ?_, fun j => ?_, fun j hji => ?_, fun message hmem => ?_⟩
  · rw [h.log, houtputs, List.append_assoc]
  · obtain ⟨id, hset⟩ := h.connection
    refine ⟨id, ?_⟩
    rw [hset, hconnections, answersTo_append, hanswers i, List.nil_append]
  · rw [handedTo_append, hhanded j, h.handed j]
    rfl
  · rw [answersTo_append, hanswers j, h.others j hji]
    rfl
  · rw [answersTo_append, hanswers i] at hmem
    exact h.plain message hmem

/-- The connection is answered, and what it is registered for stays. -/
theorem answer_spec (h : s.InOrder) (hc : s.connections[i]? = some c) (message : Message)
    (hplain : message.type ≠ .recvbundle) :
    Answered s i c [.answer i message] (s.respond i c message) ∧
      (s.respond i c message).directory = s.directory := by
  have hids : Function.update s.idOf i c.registeredAgentId = s.idOf := by
    rw [← idOf_of_get hc, Function.update_eq_self]
  have hregistered : Registered s.strings s.agents
      (Function.update s.idOf i c.registeredAgentId) := by
    rw [hids]
    exact h
  obtain ⟨hanswered, hdirectory⟩ := respond_spec message hplain hc rfl rfl hregistered
  rw [hids] at hdirectory
  exact ⟨hanswered, hdirectory⟩

/-- `case AAP_MESSAGE_SENDBUNDLE:`. -/
theorem processSendbundle_spec {msg : Message} {eid : Nat} {stored : Option Nat} (h : s.InOrder)
    (hc : s.connections[i]? = some c) (htype : msg.type = .sendbundle)
    (hunused : ∀ agent ∈ s.agents, agent.sinkIdentifier ≠ eid) :
    ∃ s' outputs, s.processSendbundle localEid stored i c msg eid = .ok s' ∧
      Answered s i c outputs s' ∧
      Directory.Answers localEid stored i msg s.directory outputs s'.directory := by
  have hid := idOf_of_get hc
  cases hregistered : c.registeredAgentId with
  | none =>
    obtain ⟨hcleared, hsame⟩ := (Answered.refl h hc).clear msg hunused
    refine ⟨s.clear msg eid, [], ?_, hcleared, ?_⟩
    · rw [State.processSendbundle, hregistered]
    · rw [hsame]
      refine .unregistered htype ?_
      show (s.idOf i).bind _ = none
      rw [hid, hregistered]
      rfl
  | some address =>
    rw [hregistered] at hid
    have hmem := h.listed i address hid
    have hread := h.consistent.read hmem
    have hsink := (Registered.sinkOf_eq h).mpr ⟨_, hmem, rfl, rfl⟩
    dsimp only at hread
    cases stored with
    | none =>
      obtain ⟨hanswered, hdirectory⟩ := answer_spec h hc (.cleared .nack)
        MessageType.noConfusion
      obtain ⟨hcleared, hsame⟩ := hanswered.clear msg hunused
      refine ⟨_, _, ?_, hcleared, ?_⟩
      · rw [State.processSendbundle, hregistered]
        dsimp only
        rw [hread]
        rfl
      · rw [hsame, hdirectory]
        exact .notStored htype hsink rfl
    | some id =>
      let created : Output := .bundle i
        (localEid ++ 47 :: s.strings.nameOf (⟨address, some (.connection i)⟩ : Agent Recipient))
        (sinkOfMessage msg) msg.payloadBytes id
      have hcreated : State.InOrder { s with outputs := s.outputs ++ [created] } := h
      obtain ⟨hanswered, hdirectory⟩ := answer_spec hcreated hc
        { Message.cleared .sendconfirm with bundleId := id } MessageType.noConfusion
      obtain ⟨hcleared, hsame⟩ := hanswered.clear msg hunused
      have hbundle : ∀ {outputs : List Output} {s' : State},
          Answered { s with outputs := s.outputs ++ [created] } i c outputs s' →
            Answered s i c ([created] ++ outputs) s' := fun hanswered =>
        hanswered.of_before rfl rfl (fun _ => rfl) fun _ => rfl
      have hboth := hbundle hcleared
      refine ⟨_, _, ?_, hboth, ?_⟩
      · rw [State.processSendbundle, hregistered]
        dsimp only
        rw [hread]
        rfl
      · rw [hsame, hdirectory]
        exact .created htype hsink rfl

/-- `process_aap_message` does not fail. -/
theorem processAapMessage_spec {stored : Option Nat} (h : s.InOrder)
    (hc : s.connections[i]? = some c) (msg : Message) :
    ∃ s' outputs, s.processAapMessage localEid stored i c msg = .ok s' ∧
      Answered s i c outputs s' ∧
      Directory.Step localEid s.directory (.message i msg stored) outputs s'.directory := by
  obtain ⟨hreceived, hdirectory, hconnections, houtputs, hagents, hstring⟩ := receive_spec msg h
  have hunused : ∀ agent ∈ (s.receive msg).agents, agent.sinkIdentifier ≠ s.strings.length := by
    rw [hagents]
    exact fun agent hagent => Nat.ne_of_lt (Registered.fresh h agent hagent)
  have hc' : (s.receive msg).connections[i]? = some c := by
    rw [hconnections]
    exact hc
  have hbefore : ∀ {outputs : List Output} {s' : State},
      Answered (s.receive msg) i c outputs s' → Answered s i c outputs s' := by
    intro outputs s' hanswered
    have hnil : (s.receive msg).outputs = s.outputs ++ [] := by
      rw [houtputs, List.append_nil]
    exact hanswered.of_before hconnections hnil (fun _ => rfl) fun _ => rfl
  unfold State.processAapMessage
  dsimp only
  rw [← hdirectory]
  cases hvalid : msg.aapMessageIsValid with
  | false => exact ⟨_, [], rfl, hbefore (.refl hreceived hc'), .invalid hvalid⟩
  | true =>
    rw [if_neg (by decide)]
    have hcleared := (Answered.refl hreceived hc').clear msg hunused
    have hanswer : ∀ message : Message, message.type ≠ .recvbundle → ∃ s' outputs,
        Except.ok (((s.receive msg).respond i c message).clear msg s.strings.length) =
          (Except.ok s' : Except Fault State) ∧ Answered s i c outputs s' ∧
        outputs = [.answer i message] ∧ s'.directory = (s.receive msg).directory := by
      intro message hplain
      obtain ⟨hanswered, hsame⟩ := answer_spec hreceived hc' message hplain
      obtain ⟨hclear, hsame'⟩ := hanswered.clear msg hunused
      exact ⟨_, _, rfl, hbefore hclear, rfl, hsame'.trans hsame⟩
    cases htype : msg.type with
    | register =>
      obtain ⟨string, hmsg, -⟩ := eid_of_valid hvalid htype
      obtain ⟨s', outputs, hprocess, hanswered, hanswers⟩ := @processRegister_spec i _ c localEid
        msg _ stored hreceived hc' hvalid htype (hstring string hmsg) hunused
      exact ⟨s', outputs, hprocess, hbefore hanswered, .message hvalid hanswers⟩
    | sendbundle =>
      obtain ⟨s', outputs, hprocess, hanswered, hanswers⟩ := @processSendbundle_spec i _ c localEid
        msg _ stored hreceived hc' htype hunused
      exact ⟨s', outputs, hprocess, hbefore hanswered, .message hvalid hanswers⟩
    | cancelbundle =>
      obtain ⟨s', outputs, hprocess, hanswered, rfl, hsame⟩ := hanswer (.cleared .nack)
        MessageType.noConfusion
      refine ⟨s', _, hprocess, hanswered, ?_⟩
      rw [hsame]
      exact .message hvalid (.cancel htype)
    | ping =>
      obtain ⟨s', outputs, hprocess, hanswered, rfl, hsame⟩ := hanswer (.cleared .ack)
        MessageType.noConfusion
      refine ⟨s', _, hprocess, hanswered, ?_⟩
      rw [hsame]
      exact .message hvalid (.ping htype)
    | _ =>
      refine ⟨_, [], rfl, hbefore hcleared.1, ?_⟩
      rw [hcleared.2]
      exact .message hvalid (.other (by simp [htype]))

/-! ## The other tasks -/

theorem agentForward_spec (h : s.InOrder) (sink : Sink) :
    agentForward s.strings s.agents sink =
      .ok ((agentOf s.strings s.agents sink).bind (·.callback)) := by
  rw [agentForward, agentSearch_spec h.consistent]
  cases agentOf s.strings s.agents sink <;> rfl

/-- A step that changes only the connection, but not what it is registered for. -/
theorem inOrder_of_set (h : s.InOrder) (hc : s.connections[i]? = some c) {c' : Connection}
    (hsame : c'.registeredAgentId = c.registeredAgentId) :
    State.InOrder { s with connections := s.connections.set i c' } ∧
      State.directory { s with connections := s.connections.set i c' } = s.directory := by
  have hids : State.idOf { s with connections := s.connections.set i c' } = s.idOf := by
    have hset : State.connections { s with connections := s.connections.set i c' } =
        s.connections.set i c' := rfl
    rw [idOf_of_set hc hset, hsame, ← idOf_of_get hc, Function.update_eq_self]
  unfold State.InOrder State.directory
  rw [hids]
  exact ⟨h, rfl⟩

/-- What a connection has after a callback: the bundle is in the pipe of the one that is called, if
that is open. -/
structure Received (s : State) (adu : Adu) (recipient : Option Recipient) (s' : State) : Prop where
  inOrder : s'.InOrder
  directory : s'.directory = s.directory
  log : s'.outputs = s.outputs ++ [.handed adu recipient]
  connections : ∀ i, s'.connections[i]? = s.connections[i]?.map fun c =>
    if recipient = some (.connection i) ∧ c.phase = .running then
      { c with bundlePipe := c.bundlePipe ++ [adu] }
    else c

/-- `agent_forward` does not fail. -/
theorem forward_spec (h : s.InOrder) (sink : Sink) (adu : Adu) :
    ∃ s' recipient, s.forward sink adu = .ok s' ∧ Received s adu recipient s' ∧
      s.directory.Hands sink recipient := by
  have hforward : s.forward sink adu =
      .ok (((agentOf s.strings s.agents sink).bind (·.callback)).elim
        { s with outputs := s.outputs ++ [.handed adu none] } fun recipient =>
          State.agentMsgRecv { s with outputs := s.outputs ++ [.handed adu (some recipient)] }
            adu recipient) := by
    rw [State.forward, agentForward_spec h]
    cases hfound : (agentOf s.strings s.agents sink).bind (·.callback) with
    | none => simp [bind, Except.bind, pure, Except.pure]
    | some recipient => simp [bind, Except.bind, pure, Except.pure]
  have hhands := Registered.hands h sink
  rw [hforward]
  generalize (agentOf s.strings s.agents sink).bind (·.callback) = recipient at hhands ⊢
  -- no pipe is written to
  have hkept : ∀ recipient, (∀ i c, s.connections[i]? = some c →
      ¬ (recipient = some (.connection i) ∧ c.phase = .running)) →
      Received s adu recipient { s with outputs := s.outputs ++ [.handed adu recipient] } := by
    intro recipient hnot
    refine ⟨h, rfl, rfl, fun i => ?_⟩
    show s.connections[i]? = _
    cases hc : s.connections[i]? with
    | none => rfl
    | some c => rw [Option.map_some, if_neg (hnot i c hc)]
  cases recipient with
  | none =>
    refine ⟨_, none, rfl, hkept none fun _ _ _ hsame => ?_, hhands⟩
    cases hsame.1
  | some recipient =>
    refine ⟨_, some recipient, rfl, ?_, hhands⟩
    cases recipient with
    | internal =>
      refine hkept _ fun _ _ _ hsame => ?_
      cases hsame.1
    | connection i =>
      rw [Option.elim_some, State.agentMsgRecv]
      dsimp only
      cases hc : s.connections[i]? with
      | none =>
        refine hkept _ fun j c hj hsame => ?_
        obtain rfl := Recipient.connection.inj (Option.some.inj hsame.1)
        rw [hc] at hj
        cases hj
      | some c =>
        dsimp only
        by_cases hphase : c.phase = .running
        · rw [if_pos hphase]
          have hset := @inOrder_of_set i s c h hc
            { c with bundlePipe := c.bundlePipe ++ [adu] } rfl
          refine ⟨hset.1, hset.2, rfl, fun j => ?_⟩
          show (s.connections.set i _)[j]? = _
          by_cases hji : j = i
          · subst hji
            rw [List.getElem?_set_self (List.getElem?_eq_some_iff.mp hc).1, hc, Option.map_some,
              if_pos ⟨rfl, hphase⟩]
          · rw [List.getElem?_set_ne (Ne.symm hji)]
            cases hj : s.connections[j]? with
            | none => rfl
            | some other =>
              have hne : ¬ ((some (Recipient.connection i) = some (.connection j)) ∧
                  other.phase = .running) := fun hsame =>
                hji (Recipient.connection.inj (Option.some.inj hsame.1)).symm
              rw [Option.map_some, if_neg hne]
        · rw [if_neg hphase]
          refine hkept _ fun j other hj hsame => ?_
          obtain rfl := Recipient.connection.inj (Option.some.inj hsame.1)
          rw [hc] at hj
          obtain rfl := Option.some.inj hj
          exact hphase hsame.2

/-- A task that ends. -/
theorem leave_spec (h : s.InOrder) (hc : s.connections[i]? = some c) :
    ∃ s', s.leave i c = .ok s' ∧ s'.InOrder ∧ s'.directory = s.directory.assign i none ∧
      s'.outputs = s.outputs ∧
      s'.connections = s.connections.set i { c with registeredAgentId := none, phase := .ended } := by
  obtain ⟨later, hderegister, hconnections, houtputs, hregistered, hdirectory, -, -⟩ :=
    deregisterSink_spec h hc
  have hset : State.connections { later with
      connections := later.connections.set i
        ({ c with registeredAgentId := none, phase := .ended }) } =
      s.connections.set i { c with registeredAgentId := none, phase := .ended } := by
    rw [← hconnections]
  have hids := idOf_of_set hc hset
  refine ⟨{ later with
    connections := later.connections.set i
      ({ c with registeredAgentId := none, phase := .ended }) }, ?_, ?_, ?_, houtputs, hset⟩
  · rw [State.leave, hderegister]
    rfl
  · unfold State.InOrder
    rw [hids]
    exact hregistered
  · rw [State.directory, hids]
    exact hdirectory

end Upcn.Agents
