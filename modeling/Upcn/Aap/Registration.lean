import Mathlib.Data.Set.Basic
import Mathlib.Logic.Function.Basic
import Upcn.Aap.Agents
import Upcn.Aap.Message

/-!
# The applications of a node

`process_aap_message` and the tasks of the connections in `application_agent.c`, over the list of
the agents.  A connection registers for a sink, sends bundles from it, and is given the bundles
that come for it.

* `State` is the list of the agents with the strings it points to, and the connections.  A step is
  what one of the tasks does, or a call of `agent_forward` by the bundle processor.
* `Directory` is what this is for: which sink every connection is registered for.

A message, and a call of `agent_forward`, is one step: `agent_manager.c` has no lock, and two tasks
that are inside it at once are left out.  So is `malloc` that fails, which `agent_register` and
`agent_list_add_entry` do not check.
-/

namespace Upcn.Agents

open Upcn.Aap (Message MessageType)

/-- A callback with its parameter: that of an agent of the node itself, or `agent_msg_recv` for a
connection. -/
inductive Recipient where
  | internal
  | connection (i : Nat)
  deriving DecidableEq

/-- What `send_bundle` reads of `struct bundle_adu`. -/
structure Adu where
  source : List UInt8
  payload : List UInt8
  deriving DecidableEq

/-- The task of a connection: it is in its loop, it has closed the pipe, or it has ended. -/
inductive Phase where
  | running
  | closing
  | ended
  deriving DecidableEq

/-- `struct application_agent_comm_config`, with what is in the pipe, and what was sent. -/
structure Connection where
  phase : Phase
  registeredAgentId : Option Nat
  bundlePipe : List Adu
  sent : List Message

/-- What a step does but for the registration: an answer to a connection, a bundle that is created,
with its source, destination, payload and identifier, or a call of `agent_forward`. -/
inductive Output where
  | answer (i : Nat) (message : Message)
  | bundle (i : Nat) (source destination payload : List UInt8) (id : Nat)
  | handed (adu : Adu) (recipient : Option Recipient)

/-- The agents and the connections, and what was done so far. -/
structure State where
  strings : Strings
  agents : List (Agent Recipient)
  connections : List Connection
  outputs : List Output

/-- `strlen` ends a string at a zero. -/
def cString (bytes : List UInt8) : Sink := bytes.takeWhile (· ≠ 0)

/-- The identifier that a message has. -/
def sinkOfMessage (msg : Message) : Sink := cString (msg.eid.getD [])

namespace State

variable (s : State)

/-- The agents when the connections are not accepted yet: those of the node itself, whose
identifiers are never freed. -/
def initial (names : List Sink) : State where
  strings := names.map some
  agents := (List.range names.length).map fun i => ⟨i, some .internal⟩
  connections := []
  outputs := []

/-! ## The messages -/

/-- `deregister_sink`. -/
def deregisterSink (c : Connection) : Except Fault (State × Connection) :=
  match c.registeredAgentId with
  | none => .ok (s, c)
  | some address => do
    let agents ← agentDeregister s.strings s.agents address
    return ({ s with
      agents := agents.getD s.agents
      strings := s.strings.set address none }, { c with registeredAgentId := none })

/-- The buffer that the parser has allocated for the EID of a message. -/
def receive (msg : Message) : State :=
  match msg.eid with
  | none => s
  | some eid => { s with strings := s.strings ++ [some (cString eid)] }

/-- `aap_message_clear`. -/
def clear (msg : Message) (eid : Nat) : State :=
  match msg.eid with
  | none => s
  | some _ => { s with strings := s.strings.set eid none }

/-- `send_message`, of a response. -/
def respond (i : Nat) (c : Connection) (message : Message) : State :=
  { s with
    connections := s.connections.set i { c with sent := c.sent ++ [message] }
    outputs := s.outputs ++ [.answer i message] }

/-- `case AAP_MESSAGE_REGISTER:`, where the EID of the message is at `eid`. -/
def processRegister (i : Nat) (c : Connection) (msg : Message) (eid : Nat) :
    Except Fault State := do
  let (s, c) ← s.deregisterSink c
  if msg.eid = none ∨ msg.eidLength = 0 then
    return (s.respond i c (.cleared .ack)).clear msg eid
  match ← agentRegister s.strings s.agents eid (some (.connection i)) with
  | none => return (s.respond i c (.cleared .nack)).clear msg eid
  | some agents =>
    -- the buffer stays with the connection
    return { s with agents := agents }.respond i { c with registeredAgentId := some eid }
      (.cleared .ack)

/-- `case AAP_MESSAGE_SENDBUNDLE:`.  `stored` is what `create_forward_bundle` returns, and `none`
if that is `BUNDLE_INVALID_ID`. -/
def processSendbundle (localEid : List UInt8) (stored : Option Nat) (i : Nat) (c : Connection)
    (msg : Message) (eid : Nat) : Except Fault State :=
  match c.registeredAgentId with
  | none => .ok (s.clear msg eid)
  | some address => do
    let sink ← s.strings.read address
    match stored with
    | none => return (s.respond i c (.cleared .nack)).clear msg eid
    | some id =>
      let created : Output :=
        .bundle i (localEid ++ 47 :: sink) (sinkOfMessage msg) msg.payloadBytes id
      let s : State := { s with outputs := s.outputs ++ [created] }
      return (s.respond i c { Message.cleared .sendconfirm with bundleId := id }).clear msg eid

/-- `process_aap_message`.  A message that is not valid is not cleared. -/
def processAapMessage (localEid : List UInt8) (stored : Option Nat) (i : Nat) (c : Connection)
    (msg : Message) : Except Fault State :=
  let eid := s.strings.length
  let s := s.receive msg
  if !msg.aapMessageIsValid then .ok s
  else
    match msg.type with
    | .register => s.processRegister i c msg eid
    | .sendbundle => s.processSendbundle localEid stored i c msg eid
    | .cancelbundle => .ok ((s.respond i c (.cleared .nack)).clear msg eid)
    | .ping => .ok ((s.respond i c (.cleared .ack)).clear msg eid)
    | _ => .ok (s.clear msg eid)

/-! ## The bundles -/

/-- `agent_msg_recv`, and the callbacks of the node itself.  A write to a pipe that is closed
fails: no other connection has got its descriptor until `deregister_sink`. -/
def agentMsgRecv (adu : Adu) : Recipient → State
  | .internal => s
  | .connection i =>
    match s.connections[i]? with
    | none => s
    | some c =>
      if c.phase = .running then
        { s with connections := s.connections.set i { c with bundlePipe := c.bundlePipe ++ [adu] } }
      else s

/-- `agent_forward`. -/
def forward (sink : Sink) (adu : Adu) : Except Fault State := do
  let recipient ← agentForward s.strings s.agents sink
  let s : State := { s with outputs := s.outputs ++ [.handed adu recipient] }
  match recipient with
  | none => return s
  | some recipient => return s.agentMsgRecv adu recipient

/-- The message of `send_bundle`. -/
def recvbundle (adu : Adu) : Message :=
  ⟨.recvbundle, some adu.source, Message.strlen adu.source, some adu.payload, adu.payload.length, 0⟩

/-- The message that a connection begins with. -/
def welcome (localEid : List UInt8) : Message :=
  ⟨.welcome, some localEid, Message.strlen localEid, none, 0, 0⟩

/-- The last lines of `application_agent_comm_task`. -/
def leave (i : Nat) (c : Connection) : Except Fault State := do
  let (s, c) ← s.deregisterSink c
  return { s with connections := s.connections.set i { c with phase := .ended } }

end State

/-! ## The steps -/

/-- What happens: a connection is accepted, a message of it is processed, the bundle processor has
something for a sink, the task of a connection sends the next bundle of its pipe, leaves its loop
and closes the pipe, or ends. -/
inductive Event where
  | accept
  | message (i : Nat) (msg : Message) (stored : Option Nat)
  | forward (sink : Sink) (adu : Adu)
  | sendBundle (i : Nat)
  | close (i : Nat)
  | leave (i : Nat)

/-- A step of one of the tasks. -/
inductive Step (localEid : List UInt8) : State → Event → State → Prop where
  | accept {s : State} :
    Step localEid s .accept
      { s with connections := s.connections ++ [⟨.running, none, [], [State.welcome localEid]⟩] }
  | message {s s' : State} {i : Nat} {c : Connection} {msg : Message} {stored : Option Nat}
    (hc : s.connections[i]? = some c) (hphase : c.phase = .running)
    (h : s.processAapMessage localEid stored i c msg = .ok s') :
    Step localEid s (.message i msg stored) s'
  | forward {s s' : State} {sink : Sink} {adu : Adu} (h : s.forward sink adu = .ok s') :
    Step localEid s (.forward sink adu) s'
  | sendBundle {s : State} {i : Nat} {c : Connection} {adu : Adu} {rest : List Adu}
    (hc : s.connections[i]? = some c) (hphase : c.phase = .running)
    (hpipe : c.bundlePipe = adu :: rest) :
    Step localEid s (.sendBundle i) { s with
      connections := s.connections.set i { c with
        bundlePipe := rest
        sent := c.sent ++ [State.recvbundle adu] } }
  | close {s : State} {i : Nat} {c : Connection} (hc : s.connections[i]? = some c)
    (hphase : c.phase = .running) :
    Step localEid s (.close i) { s with
      connections := s.connections.set i { c with phase := .closing, bundlePipe := [] } }
  | leave {s s' : State} {i : Nat} {c : Connection} (hc : s.connections[i]? = some c)
    (hphase : c.phase = .closing) (h : s.leave i c = .ok s') :
    Step localEid s (.leave i) s'

/-- What happened so far, and the state. -/
inductive Run (localEid : List UInt8) (names : List Sink) : List Event → State → Prop where
  | start : Run localEid names [] (.initial names)
  | step {events : List Event} {s s' : State} {e : Event} (run : Run localEid names events s)
    (h : Step localEid s e s') : Run localEid names (events ++ [e]) s'

/-! ## What they are for -/

/-- Which sinks are the node's own, and which one each connection is registered for. -/
structure Directory where
  own : Set Sink
  sinkOf : Nat → Option Sink

namespace Directory

/-- The sink is registered by no one. -/
def Free (d : Directory) (sink : Sink) : Prop := sink ∉ d.own ∧ ∀ i, d.sinkOf i ≠ some sink

/-- The connection is registered for this sink, or for none. -/
def assign (d : Directory) (i : Nat) (sink : Option Sink) : Directory :=
  { d with sinkOf := Function.update d.sinkOf i sink }

/-- No sink is registered twice. -/
structure Exclusive (d : Directory) : Prop where
  own : ∀ i sink, d.sinkOf i = some sink → sink ∉ d.own
  single : ∀ i j sink, d.sinkOf i = some sink → d.sinkOf j = some sink → i = j

/-- What a valid message of a connection does.  A registration ends the one before, also when it is
refused. -/
inductive Answers (localEid : List UInt8) (stored : Option Nat) (i : Nat) (msg : Message) :
    Directory → List Output → Directory → Prop where
  | released {d : Directory} (htype : msg.type = .register) (hsink : sinkOfMessage msg = []) :
    Answers localEid stored i msg d [.answer i (.cleared .ack)] (d.assign i none)
  | granted {d : Directory} (htype : msg.type = .register) (hsink : sinkOfMessage msg ≠ [])
    (hfree : (d.assign i none).Free (sinkOfMessage msg)) :
    Answers localEid stored i msg d [.answer i (.cleared .ack)]
      (d.assign i (some (sinkOfMessage msg)))
  | refused {d : Directory} (htype : msg.type = .register) (hsink : sinkOfMessage msg ≠ [])
    (hfree : ¬ (d.assign i none).Free (sinkOfMessage msg)) :
    Answers localEid stored i msg d [.answer i (.cleared .nack)] (d.assign i none)
  | unregistered {d : Directory} (htype : msg.type = .sendbundle) (hsink : d.sinkOf i = none) :
    Answers localEid stored i msg d [] d
  | notStored {d : Directory} {sink : Sink} (htype : msg.type = .sendbundle)
    (hsink : d.sinkOf i = some sink) (hstored : stored = none) :
    Answers localEid stored i msg d [.answer i (.cleared .nack)] d
  | created {d : Directory} {sink : Sink} {id : Nat} (htype : msg.type = .sendbundle)
    (hsink : d.sinkOf i = some sink) (hstored : stored = some id) :
    Answers localEid stored i msg d
      [.bundle i (localEid ++ 47 :: sink) (sinkOfMessage msg) msg.payloadBytes id,
        .answer i { Message.cleared .sendconfirm with bundleId := id }] d
  | cancel {d : Directory} (htype : msg.type = .cancelbundle) :
    Answers localEid stored i msg d [.answer i (.cleared .nack)] d
  | ping {d : Directory} (htype : msg.type = .ping) :
    Answers localEid stored i msg d [.answer i (.cleared .ack)] d
  | other {d : Directory} (htype : msg.type ≠ .register ∧ msg.type ≠ .sendbundle ∧
      msg.type ≠ .cancelbundle ∧ msg.type ≠ .ping) :
    Answers localEid stored i msg d [] d

/-- Whose callback is called for a sink. -/
inductive Hands (d : Directory) (sink : Sink) : Option Recipient → Prop where
  | own (h : sink ∈ d.own) : Hands d sink (some .internal)
  | connection {i : Nat} (h : d.sinkOf i = some sink) : Hands d sink (some (.connection i))
  | dropped (h : d.Free sink) : Hands d sink none

/-- What is allowed to happen. -/
inductive Step (localEid : List UInt8) : Directory → Event → List Output → Directory → Prop where
  | accept {d : Directory} : Step localEid d .accept [] d
  | message {d d' : Directory} {i : Nat} {msg : Message} {stored : Option Nat}
    {outputs : List Output} (hvalid : msg.aapMessageIsValid = true)
    (h : Answers localEid stored i msg d outputs d') :
    Step localEid d (.message i msg stored) outputs d'
  | invalid {d : Directory} {i : Nat} {msg : Message} {stored : Option Nat}
    (hvalid : msg.aapMessageIsValid = false) : Step localEid d (.message i msg stored) [] d
  | forward {d : Directory} {sink : Sink} {adu : Adu} {recipient : Option Recipient}
    (h : Hands d sink recipient) : Step localEid d (.forward sink adu) [.handed adu recipient] d
  | sendBundle {d : Directory} {i : Nat} : Step localEid d (.sendBundle i) [] d
  | close {d : Directory} {i : Nat} : Step localEid d (.close i) [] d
  | leave {d : Directory} {i : Nat} : Step localEid d (.leave i) [] (d.assign i none)

/-- The directory behind these events, and what was done. -/
inductive Run (localEid : List UInt8) (names : List Sink) :
    List Event → List Output → Directory → Prop where
  | start : Run localEid names [] [] ⟨{sink | sink ∈ names}, fun _ => none⟩
  | step {events : List Event} {outputs more : List Output} {d d' : Directory} {e : Event}
    (run : Run localEid names events outputs d) (h : Step localEid d e more d') :
    Run localEid names (events ++ [e]) (outputs ++ more) d'

end Directory

end Upcn.Agents
