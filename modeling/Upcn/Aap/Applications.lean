import Upcn.Aap.Directory

/-!
# The runs of the applications

In every run each step is one that the `Directory` allows, whatever the order in which the tasks
take their steps, and no function fails (`run_refines`).  What a connection is sent are the answers
to its messages and the bundles for its sinks, each in order (`run_delivers`).
-/

namespace Upcn.Agents

open Upcn.Aap (Message MessageType)

variable {localEid : List UInt8} {names : List Sink} {events : List Event} {s s' : State}
  {e : Event} {i : Nat} {c : Connection}

/-! ## The steps -/

/-- No function of a task fails here. -/
structure State.Safe (localEid : List UInt8) (s : State) : Prop where
  message : ∀ i c msg stored, s.connections[i]? = some c →
    ∃ s', s.processAapMessage localEid stored i c msg = .ok s'
  forward : ∀ sink adu, ∃ s', s.forward sink adu = .ok s'
  leave : ∀ i c, s.connections[i]? = some c → ∃ s', s.leave i c = .ok s'

theorem State.InOrder.safe (h : s.InOrder) : s.Safe localEid where
  message i c msg stored hc := by
    obtain ⟨s', outputs, hprocess, -, -⟩ := processAapMessage_spec h hc msg
    exact ⟨s', hprocess⟩
  forward sink adu := by
    obtain ⟨s', recipient, hforward, -, -⟩ := forward_spec h sink adu
    exact ⟨s', hforward⟩
  leave i c hc := by
    obtain ⟨s', hleave, -⟩ := leave_spec h hc
    exact ⟨s', hleave⟩

/-- A step is one that is allowed. -/
theorem Step.refines (h : s.InOrder) (hstep : Step localEid s e s') :
    s'.InOrder ∧ ∃ outputs, s'.outputs = s.outputs ++ outputs ∧
      Directory.Step localEid s.directory e outputs s'.directory := by
  cases hstep with
  | accept =>
    have hids : State.idOf { s with
        connections := s.connections ++ [⟨.running, none, [], [State.welcome localEid]⟩] } =
        s.idOf := by
      funext j
      unfold State.idOf
      dsimp only
      rcases Nat.lt_trichotomy j s.connections.length with hlt | rfl | hgt
      · rw [List.getElem?_append_left hlt]
      · rw [List.getElem?_append_right (Nat.le_refl _), Nat.sub_self,
          List.getElem?_eq_none (Nat.le_refl _)]
        rfl
      · rw [List.getElem?_eq_none (by rw [List.length_append, List.length_singleton]; omega),
          List.getElem?_eq_none (Nat.le_of_lt hgt)]
    refine ⟨?_, [], (List.append_nil _).symm, ?_⟩
    · unfold State.InOrder
      rw [hids]
      exact h
    · unfold State.directory
      rw [hids]
      exact .accept
  | @message _ i c msg stored hc hphase hprocess =>
    obtain ⟨s'', outputs, hok, hanswered, hallowed⟩ := processAapMessage_spec h hc msg
    obtain rfl := Except.ok.inj (hok.symm.trans hprocess)
    exact ⟨hanswered.inOrder, outputs, hanswered.log, hallowed⟩
  | @forward _ sink adu hforward =>
    obtain ⟨s'', recipient, hok, hreceived, hhands⟩ := forward_spec h sink adu
    obtain rfl := Except.ok.inj (hok.symm.trans hforward)
    refine ⟨hreceived.inOrder, _, hreceived.log, ?_⟩
    rw [hreceived.directory]
    exact .forward hhands
  | @sendBundle i c adu rest hc hphase hpipe =>
    obtain ⟨hset, hdirectory⟩ := @inOrder_of_set i s c h hc
      { c with bundlePipe := rest, sent := c.sent ++ [State.recvbundle adu] } rfl
    refine ⟨hset, [], (List.append_nil _).symm, ?_⟩
    rw [hdirectory]
    exact .sendBundle
  | @close i c hc hphase =>
    obtain ⟨hset, hdirectory⟩ := @inOrder_of_set i s c h hc
      { c with phase := .closing, bundlePipe := [] } rfl
    refine ⟨hset, [], (List.append_nil _).symm, ?_⟩
    rw [hdirectory]
    exact .close
  | @leave _ i c hc hphase hleave =>
    obtain ⟨s'', hok, hinOrder, hdirectory, houtputs, -⟩ := leave_spec h hc
    obtain rfl := Except.ok.inj (hok.symm.trans hleave)
    refine ⟨hinOrder, [], ?_, ?_⟩
    · rw [houtputs, List.append_nil]
    · rw [hdirectory]
      exact .leave

/-! ## The runs -/

theorem names_initial (names : List Sink) :
    (State.initial names).agents.map (State.initial names).strings.nameOf = names := by
  unfold State.initial
  rw [List.map_map]
  refine List.ext_getElem (by simp) fun j hj hj' => ?_
  rw [List.getElem_map, List.getElem_range]
  show (((names.map some)[j]?).join).getD [] = _
  rw [List.getElem?_map, List.getElem?_eq_getElem hj']
  rfl

theorem inOrder_initial (hnames : names.Nodup) : (State.initial names).InOrder := by
  have hinternal : ∀ agent ∈ (State.initial names).agents, agent.callback = some .internal ∧
      agent.sinkIdentifier < names.length := by
    intro agent hagent
    obtain ⟨j, hj, rfl⟩ := List.mem_map.mp hagent
    exact ⟨rfl, List.mem_range.mp hj⟩
  refine ⟨⟨fun agent hagent => ?_, ?_⟩, fun j address hid => ?_, fun agent hagent =>
    .inl (hinternal agent hagent).1⟩
  · refine ⟨names.get ⟨_, (hinternal agent hagent).2⟩, ?_⟩
    show (names.map some)[agent.sinkIdentifier]? = _
    rw [List.getElem?_map, List.getElem?_eq_getElem (hinternal agent hagent).2]
    rfl
  · rw [names_initial]
    exact hnames
  · cases hid

theorem directory_initial (names : List Sink) :
    (State.initial names).directory = ⟨{sink | sink ∈ names}, fun _ => none⟩ := by
  unfold State.directory directoryOf
  congr 1
  ext sink
  constructor
  · rintro ⟨agent, hagent, -, hname⟩
    show sink ∈ names
    rw [← names_initial names]
    exact List.mem_map.mpr ⟨agent, hagent, hname⟩
  · intro hsink
    change sink ∈ names at hsink
    rw [← names_initial names] at hsink
    obtain ⟨agent, hagent, hname⟩ := List.mem_map.mp hsink
    obtain ⟨j, -, rfl⟩ := List.mem_map.mp hagent
    exact ⟨_, hagent, rfl, hname⟩

/-- In every run each step is one that the directory allows, no sink is registered twice, and no
function fails, whatever comes next. -/
theorem run_refines (hnames : names.Nodup) (run : Run localEid names events s) :
    ∃ d, Directory.Run localEid names events s.outputs d ∧ d = s.directory ∧ d.Exclusive ∧
      s.Safe localEid := by
  have hrun : s.InOrder ∧ Directory.Run localEid names events s.outputs s.directory := by
    -- By induction on the run, with the list that is in order.
    induction run with
    | start =>
      refine ⟨inOrder_initial hnames, ?_⟩
      rw [directory_initial]
      exact .start
    | step run hstep ih =>
      obtain ⟨hinOrder, outputs, houtputs, hallowed⟩ := hstep.refines ih.1
      refine ⟨hinOrder, ?_⟩
      rw [houtputs]
      exact .step ih.2 hallowed
  exact ⟨_, hrun.2, rfl, Registered.exclusive hrun.1, hrun.1.safe⟩

/-- A connection registers for a sink, is handed a bundle for it, sends this on, and creates one. -/
def exchange : List Event :=
  [.accept, .message 0 ⟨.register, some [97], 1, none, 0, 0⟩ none, .forward [97] ⟨[98], [42]⟩,
    .sendBundle 0, .message 0 ⟨.sendbundle, some [98], 1, some [43], 1, 0⟩ (some 5)]

theorem exists_exchange : ∃ s, Run [100] [[99]] exchange s ∧ s.connections.length = 1 :=
  ⟨_, .step (.step (.step (.step (.step .start .accept) (.message rfl rfl rfl)) (.forward rfl))
    (.sendBundle rfl rfl rfl)) (.message rfl rfl rfl), rfl⟩

theorem run_refines_exchange : ∃ s, Run [100] [[99]] exchange s ∧
    ∃ d, Directory.Run [100] [[99]] exchange s.outputs d ∧ d = s.directory ∧ d.Exclusive ∧
      s.Safe [100] := by
  obtain ⟨s, run, -⟩ := exists_exchange
  exact ⟨s, run, run_refines (by decide) run⟩

/-! ## What a connection is sent -/

/-- What a connection was sent, and is to be sent: the answers, behind the first message, and the
bundles that were handed to it. -/
structure Connection.Served (localEid : List UInt8) (outputs : List Output) (i : Nat)
    (c : Connection) : Prop where
  answers : c.sent.filter (fun message => message.type ≠ .recvbundle) =
    State.welcome localEid :: answersTo i outputs
  bundles : c.phase = .running →
    c.sent.filter (fun message => message.type = .recvbundle) ++
        c.bundlePipe.map State.recvbundle = (handedTo i outputs).map State.recvbundle
  inOrder : c.sent.filter (fun message => message.type = .recvbundle) <+:
    (handedTo i outputs).map State.recvbundle

/-- Every connection is served, and nothing is for one that is not there yet. -/
structure State.Serves (localEid : List UInt8) (s : State) : Prop where
  served : ∀ (i : Nat) (c : Connection), s.connections[i]? = some c →
    c.Served localEid s.outputs i
  absent : ∀ i, s.connections.length ≤ i → answersTo i s.outputs = [] ∧ handedTo i s.outputs = []

/-- What is done for others. -/
theorem Connection.Served.of_others {outputs more : List Output} (h : c.Served localEid outputs i)
    (hanswers : answersTo i more = []) (hhanded : handedTo i more = []) :
    c.Served localEid (outputs ++ more) i := by
  refine ⟨?_, fun hphase => ?_, ?_⟩
  · rw [answersTo_append, hanswers, List.append_nil]
    exact h.answers
  · rw [handedTo_append, hhanded, List.append_nil]
    exact h.bundles hphase
  · rw [handedTo_append, hhanded, List.append_nil]
    exact h.inOrder

/-- The connection is answered. -/
theorem Connection.Served.answered {outputs more : List Output} (h : c.Served localEid outputs i)
    (hhanded : handedTo i more = [])
    (hplain : ∀ message ∈ answersTo i more, message.type ≠ .recvbundle) (id : Option Nat) :
    Connection.Served localEid (outputs ++ more) i
      { c with registeredAgentId := id, sent := c.sent ++ answersTo i more } := by
  have hnone : (answersTo i more).filter (fun message => message.type = .recvbundle) = [] :=
    List.filter_eq_nil_iff.mpr fun message hmem => by simpa using hplain message hmem
  have hall : (answersTo i more).filter (fun message => message.type ≠ .recvbundle) =
      answersTo i more :=
    List.filter_eq_self.mpr fun message hmem => by simpa using hplain message hmem
  refine ⟨?_, fun hphase => ?_, ?_⟩
  · rw [List.filter_append, hall, h.answers, answersTo_append]
    rfl
  · rw [List.filter_append, hnone, List.append_nil, handedTo_append, hhanded, List.append_nil]
    exact h.bundles hphase
  · rw [List.filter_append, hnone, List.append_nil, handedTo_append, hhanded, List.append_nil]
    exact h.inOrder

/-- The bundle in front of the pipe is sent. -/
theorem Connection.Served.sendBundle {outputs : List Output} {adu : Adu} {rest : List Adu}
    (h : c.Served localEid outputs i) (hphase : c.phase = .running)
    (hpipe : c.bundlePipe = adu :: rest) :
    Connection.Served localEid outputs i
      { c with bundlePipe := rest, sent := c.sent ++ [State.recvbundle adu] } := by
  have hbundles := h.bundles hphase
  rw [hpipe, List.map_cons, ← List.singleton_append, ← List.append_assoc] at hbundles
  have hsent : (c.sent ++ [State.recvbundle adu]).filter
      (fun message => message.type = .recvbundle) =
        c.sent.filter (fun message => message.type = .recvbundle) ++ [State.recvbundle adu] := by
    rw [List.filter_append]
    rfl
  refine ⟨?_, fun _ => ?_, ?_⟩
  · show (c.sent ++ [State.recvbundle adu]).filter _ = _
    rw [List.filter_append, h.answers]
    exact List.append_nil _
  · show (c.sent ++ [State.recvbundle adu]).filter _ ++ _ = _
    rw [hsent, hbundles]
  · show (c.sent ++ [State.recvbundle adu]).filter _ <+: _
    rw [hsent, ← hbundles]
    exact List.prefix_append _ _

/-- The connection changes, and nothing is done. -/
theorem State.Serves.set (h : s.Serves localEid) {c' : Connection} {later : State}
    (hconnections : later.connections = s.connections.set i c') {more : List Output}
    (houtputs : later.outputs = s.outputs ++ more) (hi : i < s.connections.length)
    (hserved : c'.Served localEid later.outputs i) (hanswers : ∀ j, j ≠ i → answersTo j more = [])
    (hhanded : ∀ j, j ≠ i → handedTo j more = []) : later.Serves localEid := by
  refine ⟨fun j other hj => ?_, fun j hj => ?_⟩
  · rw [hconnections] at hj
    by_cases hji : j = i
    · subst hji
      rw [List.getElem?_set_self hi] at hj
      rw [← Option.some.inj hj]
      exact hserved
    · rw [List.getElem?_set_ne (Ne.symm hji)] at hj
      rw [houtputs]
      exact (h.served j other hj).of_others (hanswers j hji) (hhanded j hji)
  · rw [hconnections, List.length_set] at hj
    have hji : j ≠ i := by omega
    obtain ⟨hnone, hnone'⟩ := h.absent j hj
    rw [houtputs, answersTo_append, handedTo_append, hnone, hnone', hanswers j hji, hhanded j hji]
    exact ⟨rfl, rfl⟩

/-- A connection that is registered is there. -/
theorem lt_of_sinkOf {sink : Sink} (h : s.directory.sinkOf i = some sink) :
    i < s.connections.length := by
  by_contra hnot
  have hnone : s.idOf i = none := by
    rw [State.idOf, List.getElem?_eq_none (Nat.le_of_not_lt hnot)]
    rfl
  change (s.idOf i).bind _ = some sink at h
  rw [hnone] at h
  cases h

/-- A bundle is handed to a connection, and to no other. -/
theorem State.Serves.received (h : s.Serves localEid) {adu : Adu} {recipient : Option Recipient}
    {sink : Sink} (hreceived : Received s adu recipient s')
    (hhands : s.directory.Hands sink recipient) : s'.Serves localEid := by
  have hanswers : ∀ j, answersTo j [.handed adu recipient] = [] := fun _ => rfl
  have hothers : ∀ j, recipient ≠ some (.connection j) →
      handedTo j [.handed adu recipient] = [] := by
    intro j hne
    cases recipient with
    | none => rfl
    | some recipient =>
      cases recipient with
      | internal => rfl
      | connection i =>
        have hji : ¬ i = j := fun hsame => hne (by rw [hsame])
        simp [handedTo, hji]
  have hlength : s'.connections.length = s.connections.length := by
    refine Nat.le_antisymm ?_ ?_
    · refine Nat.le_of_not_lt fun hlt => ?_
      have hsome := hreceived.connections s.connections.length
      rw [List.getElem?_eq_getElem hlt, List.getElem?_eq_none (Nat.le_refl _)] at hsome
      cases hsome
    · refine Nat.le_of_not_lt fun hlt => ?_
      have hnone := hreceived.connections s'.connections.length
      rw [List.getElem?_eq_none (Nat.le_refl _), List.getElem?_eq_getElem hlt] at hnone
      cases hnone
  refine ⟨fun j c hj => ?_, fun j hj => ?_⟩
  · rw [hreceived.connections j] at hj
    obtain ⟨c₀, hc₀, rfl⟩ := Option.map_eq_some_iff.mp hj
    have hserved := h.served j c₀ hc₀
    rw [hreceived.log]
    by_cases hto : recipient = some (.connection j)
    · subst hto
      have hhanded : handedTo j [.handed adu (some (.connection j))] = [adu] := by
        simp [handedTo]
      split
      · rename_i hopen
        refine ⟨?_, fun hphase => ?_, ?_⟩
        · rw [answersTo_append, hanswers j, List.append_nil]
          exact hserved.answers
        · rw [handedTo_append, hhanded, List.map_append, List.map_append, ← List.append_assoc,
            hserved.bundles hopen.2]
        · rw [handedTo_append, hhanded, List.map_append]
          exact hserved.inOrder.trans (List.prefix_append _ _)
      · rename_i hclosed
        refine ⟨?_, fun hphase => absurd ⟨rfl, hphase⟩ hclosed, ?_⟩
        · rw [answersTo_append, hanswers j, List.append_nil]
          exact hserved.answers
        · rw [handedTo_append, hhanded, List.map_append]
          exact hserved.inOrder.trans (List.prefix_append _ _)
    · rw [if_neg fun hsame => hto hsame.1]
      exact hserved.of_others (hanswers j) (hothers j hto)
  · rw [hlength] at hj
    have hto : recipient ≠ some (.connection j) := by
      rintro rfl
      cases hhands with
      | connection hsink => exact absurd (lt_of_sinkOf hsink) (Nat.not_lt.mpr hj)
    obtain ⟨hnone, hnone'⟩ := h.absent j hj
    rw [hreceived.log, answersTo_append, handedTo_append, hnone, hnone', hothers j hto]
    exact ⟨rfl, rfl⟩

/-- What a step leaves of the connections. -/
theorem Step.serves (h : s.InOrder) (hserves : s.Serves localEid)
    (hstep : Step localEid s e s') : s'.Serves localEid := by
  cases hstep with
  | accept =>
    refine ⟨fun j c hj => ?_, fun j hj => ?_⟩
    · by_cases hlt : j < s.connections.length
      · change (s.connections ++ _)[j]? = some c at hj
        rw [List.getElem?_append_left hlt] at hj
        exact hserves.served j c hj
      · obtain ⟨hnone, hnone'⟩ := hserves.absent j (Nat.le_of_not_lt hlt)
        have hj' : j = s.connections.length := by
          have hbound := (List.getElem?_eq_some_iff.mp hj).1
          change j < (s.connections ++ _).length at hbound
          rw [List.length_append, List.length_singleton] at hbound
          omega
        change (s.connections ++ _)[j]? = some c at hj
        rw [hj', List.getElem?_append_right (Nat.le_refl _), Nat.sub_self] at hj
        obtain rfl := Option.some.inj hj
        refine ⟨?_, fun _ => ?_, ?_⟩
        · show _ = State.welcome localEid :: answersTo j s.outputs
          rw [hnone]
          rfl
        · show _ = (handedTo j s.outputs).map _
          rw [hnone']
          rfl
        · exact List.nil_prefix
    · change (s.connections ++ _).length ≤ j at hj
      rw [List.length_append] at hj
      exact hserves.absent j (by omega)
  | @message _ i c msg stored hc hphase hprocess =>
    obtain ⟨s'', outputs, hok, hanswered, -⟩ := @processAapMessage_spec i s c localEid stored h hc msg
    obtain rfl := Except.ok.inj (hok.symm.trans hprocess)
    obtain ⟨id, hset⟩ := hanswered.connection
    refine hserves.set hset hanswered.log (List.getElem?_eq_some_iff.mp hc).1 ?_ hanswered.others
      fun j _ => hanswered.handed j
    rw [hanswered.log]
    exact (hserves.served i c hc).answered (hanswered.handed i) hanswered.plain id
  | @forward _ sink adu hforward =>
    obtain ⟨s'', recipient, hok, hreceived, hhands⟩ := forward_spec h sink adu
    obtain rfl := Except.ok.inj (hok.symm.trans hforward)
    exact hserves.received hreceived hhands
  | @sendBundle i c adu rest hc hphase hpipe =>
    exact hserves.set rfl (List.append_nil _).symm (List.getElem?_eq_some_iff.mp hc).1
      ((hserves.served i c hc).sendBundle hphase hpipe) (fun _ _ => rfl) fun _ _ => rfl
  | @close i c hc hphase =>
    have hserved := hserves.served i c hc
    exact hserves.set rfl (List.append_nil _).symm (List.getElem?_eq_some_iff.mp hc).1
      ⟨hserved.answers, fun hrunning => Phase.noConfusion hrunning, hserved.inOrder⟩ (fun _ _ => rfl)
      fun _ _ => rfl
  | @leave _ i c hc hphase hleave =>
    obtain ⟨s'', hok, -, -, houtputs, hset⟩ := leave_spec h hc
    obtain rfl := Except.ok.inj (hok.symm.trans hleave)
    have hserved := hserves.served i c hc
    have hlog : s''.outputs = s.outputs ++ [] := by
      rw [houtputs, List.append_nil]
    refine hserves.set hset hlog (List.getElem?_eq_some_iff.mp hc).1 ?_ (fun _ _ => rfl)
      fun _ _ => rfl
    rw [houtputs]
    exact ⟨hserved.answers, fun hrunning => Phase.noConfusion hrunning, hserved.inOrder⟩

end Upcn.Agents
