import Mathlib.Data.List.Nodup
import Mathlib.Tactic.Common

/-!
# The agents of a node

`agent_manager.c`: the list of the agents, each with the identifier of its sink and a callback.

The identifier is a pointer to a string of the one who registers the agent, who may free it.  The
strings are cells here, and one that is read after it was freed is a fault.
-/

namespace Upcn.Agents

/-- The identifier of a sink, without the terminator. -/
abbrev Sink := List UInt8

/-- Why a function does not return. -/
inductive Fault where
  | useAfterFree
  | nullPointer
  deriving DecidableEq

/-- The strings that were allocated, the first one at 0.  What is freed is `none`. -/
abbrev Strings := List (Option Sink)

/-- The string at an address. -/
def Strings.read (strings : Strings) (address : Nat) : Except Fault Sink :=
  match strings[address]? with
  | some (some sink) => .ok sink
  | _ => .error .useAfterFree

/-- `struct agent`.  The callback comes with its parameter. -/
structure Agent (κ : Type) where
  sinkIdentifier : Nat
  callback : Option κ
  deriving DecidableEq

variable {κ : Type}

/-! ## The list -/

/-- `agent_search_ptr`: the index of the entry. -/
def agentSearchPtr (strings : Strings) (sink : Sink) : List (Agent κ) → Except Fault (Option Nat)
  | [] => .ok none
  | agent :: rest => do
    let name ← strings.read agent.sinkIdentifier
    if name = sink then return some 0
    let found ← agentSearchPtr strings sink rest
    return found.map (· + 1)

/-- `agent_search`. -/
def agentSearch (strings : Strings) (agents : List (Agent κ)) (sink : Sink) :
    Except Fault (Option (Agent κ)) := do
  let found ← agentSearchPtr strings sink agents
  return found.bind fun i => agents[i]?

/-- `agent_list_add_entry`: the list, or `none` where the code returns -1. -/
def agentListAddEntry (strings : Strings) (agents : List (Agent κ)) (obj : Agent κ) :
    Except Fault (Option (List (Agent κ))) := do
  let sink ← strings.read obj.sinkIdentifier
  match ← agentSearch strings agents sink with
  | some _ => return none
  | none => return some (agents ++ [obj])

/-- `agent_list_remove_entry`. -/
def agentListRemoveEntry (strings : Strings) (agents : List (Agent κ)) (obj : Agent κ) :
    Except Fault (Option (List (Agent κ))) := do
  let sink ← strings.read obj.sinkIdentifier
  match ← agentSearchPtr strings sink agents with
  | none => throw .nullPointer
  | some i => return some (agents.eraseIdx i)

/-! ## The functions of the manager -/

/-- `agent_register`. -/
def agentRegister (strings : Strings) (agents : List (Agent κ)) (address : Nat)
    (callback : Option κ) : Except Fault (Option (List (Agent κ))) := do
  let sink ← strings.read address
  match ← agentSearch strings agents sink with
  | some _ => return none
  | none => agentListAddEntry strings agents ⟨address, callback⟩

/-- `agent_deregister`. -/
def agentDeregister (strings : Strings) (agents : List (Agent κ)) (address : Nat) :
    Except Fault (Option (List (Agent κ))) := do
  let sink ← strings.read address
  match ← agentSearch strings agents sink with
  | none => return none
  | some agent => agentListRemoveEntry strings agents agent

/-- `agent_forward`: the callback that is called, or `none` where the code returns -1. -/
def agentForward (strings : Strings) (agents : List (Agent κ)) (sink : Sink) :
    Except Fault (Option κ) := do
  match ← agentSearch strings agents sink with
  | none => return none
  | some agent => return agent.callback

/-! ## What the list is for -/

/-- The string of an agent, if it is there. -/
def Strings.nameOf (strings : Strings) (agent : Agent κ) : Sink :=
  (strings[agent.sinkIdentifier]?.join).getD []

/-- The strings of the agents are there, and no two are the same. -/
structure Consistent (strings : Strings) (agents : List (Agent κ)) : Prop where
  live : ∀ agent ∈ agents, ∃ sink, strings[agent.sinkIdentifier]? = some (some sink)
  nodup : (agents.map strings.nameOf).Nodup

/-- The agent of a sink: the list as a finite map. -/
def agentOf (strings : Strings) (agents : List (Agent κ)) (sink : Sink) : Option (Agent κ) :=
  agents.find? fun agent => strings.nameOf agent = sink

variable {strings : Strings} {agents : List (Agent κ)} {agent : Agent κ} {sink : Sink}
  {address : Nat} {callback : Option κ}

theorem read_of_some (h : strings[address]? = some (some sink)) :
    strings.read address = .ok sink := by
  rw [Strings.read, h]

theorem nameOf_of_some (h : strings[agent.sinkIdentifier]? = some (some sink)) :
    strings.nameOf agent = sink := by
  rw [Strings.nameOf, h]
  rfl

theorem Consistent.read (h : Consistent strings agents) (hagent : agent ∈ agents) :
    strings.read agent.sinkIdentifier = .ok (strings.nameOf agent) := by
  obtain ⟨sink, hsink⟩ := h.live agent hagent
  rw [nameOf_of_some hsink, read_of_some hsink]

theorem agentOf_eq_some (h : Consistent strings agents) :
    agentOf strings agents sink = some agent ↔ agent ∈ agents ∧ strings.nameOf agent = sink := by
  constructor
  · intro hfound
    unfold agentOf at hfound
    have hname := List.find?_some hfound
    exact ⟨List.mem_of_find?_eq_some hfound, of_decide_eq_true hname⟩
  · rintro ⟨hmem, hname⟩
    have hsome : (agentOf strings agents sink).isSome :=
      List.find?_isSome.mpr ⟨agent, hmem, decide_eq_true hname⟩
    obtain ⟨other, hother⟩ := Option.isSome_iff_exists.mp hsome
    rw [hother]
    unfold agentOf at hother
    have hfound := List.find?_some hother
    have hsame : strings.nameOf other = strings.nameOf agent :=
      (of_decide_eq_true hfound).trans hname.symm
    rw [List.inj_on_of_nodup_map h.nodup (List.mem_of_find?_eq_some hother) hmem hsame]

theorem agentOf_eq_none :
    agentOf strings agents sink = none ↔ sink ∉ agents.map strings.nameOf := by
  simp [agentOf, List.find?_eq_none]

/-- The search finds the entry of the sink. -/
theorem agentSearchPtr_spec (h : ∀ agent ∈ agents, ∃ sink,
    strings[agent.sinkIdentifier]? = some (some sink)) (sink : Sink) :
    agentSearchPtr strings sink agents =
      .ok (agents.findIdx? fun agent => strings.nameOf agent = sink) := by
  induction agents with
  | nil => rfl
  | cons agent rest ih =>
    obtain ⟨name, hname⟩ := h agent List.mem_cons_self
    have hrest := ih fun other hother => h other (List.mem_cons_of_mem _ hother)
    rw [agentSearchPtr, read_of_some hname]
    show (if name = sink then _ else _) = _
    rw [List.findIdx?_cons, nameOf_of_some hname]
    by_cases hsame : name = sink
    · rw [if_pos hsame, decide_eq_true hsame]
      rfl
    · rw [if_neg hsame, decide_eq_false hsame, hrest]
      rfl

theorem agentSearch_spec (h : Consistent strings agents) (sink : Sink) :
    agentSearch strings agents sink = .ok (agentOf strings agents sink) := by
  rw [agentSearch, agentSearchPtr_spec h.live]
  show Except.ok _ = _
  rw [agentOf, List.find?_eq_bind_findIdx?_getElem?]

/-- A sink is registered where it is free, behind the others. -/
theorem agentRegister_spec (h : Consistent strings agents)
    (haddress : strings[address]? = some (some sink)) :
    agentRegister strings agents address callback =
      .ok (if sink ∈ agents.map strings.nameOf then none
        else some (agents ++ [⟨address, callback⟩])) := by
  rw [agentRegister, read_of_some haddress]
  show (do
    match ← agentSearch strings agents sink with
    | some _ => return none
    | none => agentListAddEntry strings agents ⟨address, callback⟩) = _
  rw [agentSearch_spec h]
  cases hfound : agentOf strings agents sink with
  | some agent =>
    have hmem : sink ∈ agents.map strings.nameOf := by
      by_contra hnot
      rw [agentOf_eq_none.mpr hnot] at hfound
      cases hfound
    rw [if_pos hmem]
    rfl
  | none =>
    rw [if_neg (agentOf_eq_none.mp hfound)]
    show agentListAddEntry strings agents ⟨address, callback⟩ = _
    rw [agentListAddEntry, read_of_some haddress]
    show (do
      match ← agentSearch strings agents sink with
      | some _ => return none
      | none => return some (agents ++ [(⟨address, callback⟩ : Agent κ)])) = _
    rw [agentSearch_spec h, hfound]
    rfl

/-- No two entries have the same string. -/
theorem findIdx?_nameOf [DecidableEq κ] (hnodup : (agents.map strings.nameOf).Nodup)
    (hagent : agent ∈ agents) :
    agents.findIdx? (fun other => strings.nameOf other = strings.nameOf agent) =
      some (agents.idxOf agent) := by
  induction agents with
  | nil => cases hagent
  | cons head rest ih =>
    rw [List.map_cons, List.nodup_cons] at hnodup
    rw [List.findIdx?_cons]
    by_cases hhead : head = agent
    · rw [hhead, decide_eq_true rfl, List.idxOf_cons_self]
      rfl
    · have hrest : agent ∈ rest := (List.mem_cons.mp hagent).resolve_left (Ne.symm hhead)
      have hname : strings.nameOf head ≠ strings.nameOf agent := fun hsame =>
        hnodup.1 (List.mem_map.mpr ⟨agent, hrest, hsame.symm⟩)
      rw [decide_eq_false hname, ih hnodup.2 hrest, List.idxOf_cons_ne _ hhead]
      rfl

/-- The entry of a sink is removed. -/
theorem agentDeregister_spec [DecidableEq κ] (h : Consistent strings agents)
    (hagent : agent ∈ agents) :
    agentDeregister strings agents agent.sinkIdentifier = .ok (some (agents.erase agent)) := by
  have hread := h.read hagent
  have hfound := (agentOf_eq_some h).mpr ⟨hagent, rfl⟩
  have hindex := findIdx?_nameOf h.nodup hagent
  rw [agentDeregister, hread]
  show (do
    match ← agentSearch strings agents (strings.nameOf agent) with
    | none => return none
    | some agent => agentListRemoveEntry strings agents agent) = _
  rw [agentSearch_spec h, hfound]
  show agentListRemoveEntry strings agents agent = _
  rw [agentListRemoveEntry, hread]
  show (do
    match ← agentSearchPtr strings (strings.nameOf agent) agents with
    | none => throw Fault.nullPointer
    | some i => return some (agents.eraseIdx i)) = _
  rw [agentSearchPtr_spec h.live, hindex]
  show Except.ok (some _) = _
  rw [List.erase_eq_eraseIdx_of_idxOf rfl]

/-! ## What changes the strings -/

/-- The strings of the agents are the same in these strings. -/
theorem Consistent.congr (h : Consistent strings agents) {later : Strings}
    (hsame : ∀ agent ∈ agents, later[agent.sinkIdentifier]? = strings[agent.sinkIdentifier]?) :
    Consistent later agents := by
  have hnames : agents.map later.nameOf = agents.map strings.nameOf :=
    List.map_congr_left fun agent hagent => by
      rw [Strings.nameOf, Strings.nameOf, hsame agent hagent]
  refine ⟨fun agent hagent => ?_, ?_⟩
  · rw [hsame agent hagent]
    exact h.live agent hagent
  · rw [hnames]
    exact h.nodup

/-- A string is allocated. -/
theorem Consistent.allocate (h : Consistent strings agents) (string : Sink) :
    Consistent (strings ++ [some string]) agents := by
  refine h.congr fun agent hagent => ?_
  obtain ⟨sink, hsink⟩ := h.live agent hagent
  obtain ⟨hbound, -⟩ := List.getElem?_eq_some_iff.mp hsink
  exact List.getElem?_append_left hbound

/-- A string that no agent has is freed. -/
theorem Consistent.free (h : Consistent strings agents)
    (hunused : ∀ agent ∈ agents, agent.sinkIdentifier ≠ address) :
    Consistent (strings.set address none) agents :=
  h.congr fun agent hagent => List.getElem?_set_ne (hunused agent hagent).symm

/-- An agent is registered for a sink that is free. -/
theorem Consistent.register (h : Consistent strings agents)
    (haddress : strings[address]? = some (some sink))
    (hfree : sink ∉ agents.map strings.nameOf) (callback : Option κ) :
    Consistent strings (agents ++ [⟨address, callback⟩]) := by
  have hname : strings.nameOf (⟨address, callback⟩ : Agent κ) = sink := nameOf_of_some haddress
  refine ⟨fun agent hagent => ?_, ?_⟩
  · rcases List.mem_append.mp hagent with hold | hnew
    · exact h.live agent hold
    · rw [List.mem_singleton.mp hnew]
      exact ⟨sink, haddress⟩
  · rw [List.map_append, List.map_singleton, hname]
    exact List.nodup_append.mpr ⟨h.nodup, List.nodup_singleton _, fun a ha b hb => by
      rw [List.mem_singleton.mp hb]
      exact fun hsame => hfree (hsame ▸ ha)⟩

/-- An agent is removed. -/
theorem Consistent.erase [DecidableEq κ] (h : Consistent strings agents) (agent : Agent κ) :
    Consistent strings (agents.erase agent) :=
  ⟨fun other hother => h.live other (List.mem_of_mem_erase hother),
    h.nodup.sublist ((List.erase_sublist).map strings.nameOf)⟩

/-- Agents with different strings are different. -/
theorem Consistent.nodup_agents (h : Consistent strings agents) : agents.Nodup :=
  List.Nodup.of_map _ h.nodup

/-- The address of an agent is that of no other one. -/
theorem Consistent.eq_of_address (h : Consistent strings agents) {other : Agent κ}
    (hagent : agent ∈ agents) (hother : other ∈ agents)
    (hsame : agent.sinkIdentifier = other.sinkIdentifier) : agent = other := by
  refine List.inj_on_of_nodup_map h.nodup hagent hother ?_
  rw [Strings.nameOf, Strings.nameOf, hsame]

end Upcn.Agents
