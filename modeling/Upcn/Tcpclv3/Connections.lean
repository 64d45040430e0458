import Upcn.Lib.Outcome
import Upcn.Platform.Simplehtab

/-!
# The connections of the TCPCLv3 CLA

`cla_tcpclv3.c`: the parameters of the connections, the table that finds them by
the EID of the peer, and their management tasks.

* `Tcpclv3Config` is the table `param_htab` and the memory that holds the
  parameters.  The semaphore does not show: what a task does while it holds it is
  one step.
* `MgmtPoint` is where the management task of a connection stands.  `advance`
  does its next step, from the top of the loop until it frees the parameters.
* `Launch` and `Found` are what the code meets: memory, sockets, what the peer
  sends.
* An access to parameters that are not there is a fault, and so is an `ASSERT`.

Left out are the parser and the link of a connection, beside `active`.
-/

namespace Upcn

open Outcome

/-! ## EIDs -/

/-- `isspace`. -/
def isSpace (c : Char) : Bool :=
  c = ' ' || ('\t' ≤ c && c ≤ '\r')

/-- The text behind a number that `sscanf` reads with `%lu`. -/
def scanNumber (text : List Char) : Option (List Char) :=
  let digits := match text.dropWhile isSpace with
    | '+' :: rest => rest
    | '-' :: rest => rest
    | rest => rest
  if (digits.head?.map Char.isDigit).getD false then
    some (digits.dropWhile Char.isDigit)
  else none

/-- `sscanf` reads two numbers with `ipn:%lu.%lu`. -/
def scansIpn (eid : Eid) : Bool :=
  match scanNumber (eid.drop 4) with
  | some ('.' :: rest) => (scanNumber rest).isSome
  | _ => false

/-- `validate_eid`. -/
def validateEid (eid : Eid) : Bool :=
  if eid.idxOf ':' = 3 ∧ 3 < eid.length then
    (eid.take 3 = ['d', 't', 'n'] && eid.drop 4 ≠ []) ||
      (eid.take 3 = ['i', 'p', 'n'] && scansIpn eid)
  else false

/-- The string that is read from a buffer. -/
def cString (buffer : List Char) : List Char := buffer.takeWhile (· ≠ '\x00')

namespace Tcpclv3

/-! ## The parameters -/

/-- `enum TCPCLV3_STATE`. -/
inductive State where
  | inactive
  | connecting
  | connected
  | established
  deriving DecidableEq

/-- Where a management task stands. -/
inductive MgmtPoint where
  /-- At the top of the loop. -/
  | loop
  /-- In `cla_tcp_connect_to_cla_addr`. -/
  | connect
  /-- In `cla_tcpclv3_perform_handshake`. -/
  | handshake
  /-- At the beginning of `handle_established_connection`. -/
  | handle
  /-- In `cla_tcp_link_init`. -/
  | linkInit
  /-- In `cla_link_wait_cleanup`. -/
  | waitCleanup
  /-- Behind the handshake and the link. -/
  | again
  /-- Behind the loop. -/
  | leaving
  /-- Behind the removal of the entry. -/
  | freeing
  deriving DecidableEq

/-- A pointer to the parameters of a connection. -/
abbrev ParamPtr := Nat

/-- `struct tcpclv3_contact_parameters`. -/
structure ContactParameters where
  eid : Option Eid
  claAddr : Option (List Char)
  connectAttempt : Nat
  socket : Int
  state : State
  opportunistic : Bool
  /-- `link.base.active`. -/
  active : Bool
  /-- What `management_task` does. -/
  point : MgmtPoint
  deriving DecidableEq

/-- `struct tcpclv3_config`, and the parameters in the memory. -/
structure Tcpclv3Config where
  paramHtab : Htab ParamPtr
  params : ParamPtr → Option ContactParameters

/-- Why a step does not end. -/
inductive ConnectionFault where
  /-- Parameters that are not there are accessed. -/
  | wildPointer
  | assertion
  /-- The task waits. -/
  | blocks
  deriving DecidableEq

/-- What `launch_connection_management_task` finds. -/
structure Launch where
  /-- `malloc` of the parameters. -/
  memory : Option ParamPtr
  /-- The EID can be copied. -/
  eid : Bool
  /-- `cla_get_connect_addr`. -/
  claAddr : Option (List Char)
  /-- `tcpclv3_parser_init`. -/
  parser : Bool
  /-- `hal_task_create`. -/
  task : Bool
  /-- What the memory holds at `link.base.active`. -/
  active : Bool

/-- What a management task finds. -/
structure Found where
  /-- `cla_tcp_connect_to_cla_addr`. -/
  socket : Int
  /-- The EID in the header of the peer, if the header can be read. -/
  peerEid : Option (List Char)
  /-- `cla_tcp_link_init`. -/
  link : Bool

/-- `CLA_TCP_MAX_RETRY_ATTEMPTS`. -/
def maxRetryAttempts : Nat := 10

/-- `CLA_TCP_PARAM_HTAB_SLOT_COUNT`. -/
def paramHtabSlotCount : Nat := 32

/-- `cla_tcpclv3_perform_handshake`. -/
def performHandshake (param : ContactParameters) (found : Found) :
    Option ContactParameters :=
  match found.peerEid with
  | none => none
  | some buffer =>
    if validateEid (cString buffer) then
      some { param with eid := some (cString buffer) }
    else none

namespace Tcpclv3Config

/-- The parameters are read. -/
def load (s : Tcpclv3Config) (p : ParamPtr) :
    Except ConnectionFault ContactParameters :=
  match s.params p with
  | none => .error .wildPointer
  | some c => .ok c

/-- The memory at `p` holds parameters, or is free. -/
def setParams (s : Tcpclv3Config) (p : ParamPtr) (c : Option ContactParameters) :
    Tcpclv3Config :=
  { s with params := fun q => if q = p then c else s.params q }

/-- The parameters are written. -/
def modify (s : Tcpclv3Config) (p : ParamPtr)
    (f : ContactParameters → ContactParameters) :
    Except ConnectionFault Tcpclv3Config := do
  let c ← s.load p
  return s.setParams p (some (f c))

/-- The task of `p` goes on at `point`. -/
def goTo (s : Tcpclv3Config) (p : ParamPtr) (point : MgmtPoint) :
    Except ConnectionFault Tcpclv3Config :=
  s.modify p fun c => { c with point := point }

/-- The address of a connection becomes that of another one. -/
def moveAddr (s : Tcpclv3Config) (p q : ParamPtr) :
    Except ConnectionFault Tcpclv3Config := do
  let giver ← s.load p
  let s ← s.modify q fun c => { c with claAddr := giver.claAddr }
  s.modify p fun c => { c with claAddr := none }

/-- The address is moved if there is none yet. -/
def moveAddrIfNone (s : Tcpclv3Config) (p q : ParamPtr) :
    Except ConnectionFault Tcpclv3Config := do
  let taker ← s.load q
  if taker.claAddr = none then s.moveAddr p q else .ok s

/-- Take over the planned status. -/
def takeOver (s : Tcpclv3Config) (param other : ParamPtr) :
    Except ConnectionFault Tcpclv3Config := do
  let s ← s.modify other fun c => { c with opportunistic := true }
  let s ← s.modify param fun c => { c with opportunistic := false }
  s.moveAddrIfNone other param

/-- Give over the planned status. -/
def giveOver (s : Tcpclv3Config) (param other : ParamPtr) :
    Except ConnectionFault Tcpclv3Config := do
  let s ← s.modify other fun c => { c with opportunistic := false }
  let s ← s.modify param fun c => { c with opportunistic := true }
  s.moveAddrIfNone param other

section
variable (hash : List Char → Nat)

/-- The table without `eid`. -/
def removeEntry (s : Tcpclv3Config) (eid : Eid) : Tcpclv3Config :=
  { s with paramHtab := (s.paramHtab.htabRemove hash eid).2 }

/-- The table with `eid`, if it is not there yet. -/
def addEntry (s : Tcpclv3Config) (eid : Eid) (p : ParamPtr) : Tcpclv3Config :=
  { s with paramHtab := (s.paramHtab.htabAdd hash eid p).2 }

/-- What `handle_established_connection` does about another connection with the
EID. -/
def meetOther (s : Tcpclv3Config) (param : ParamPtr) (eid : Eid) :
    Except ConnectionFault Tcpclv3Config :=
  match s.paramHtab.htabGet hash eid with
  | none => .ok s
  | some other => do
    let c ← s.load other
    if c.state ≠ .established ∨ c.active = false then
      if c.opportunistic then .ok (s.removeEntry hash eid)
      else (s.removeEntry hash eid).takeOver param other
    else do
      let own ← s.load param
      if own.opportunistic then .ok s else s.giveOver param other

/-- `handle_established_connection`, while the semaphore is held. -/
def handleEstablishedConnection (s : Tcpclv3Config) (param : ParamPtr) :
    Except ConnectionFault Tcpclv3Config := do
  let c ← s.load param
  match c.eid with
  | none => .error .wildPointer
  | some eid =>
    let s ← s.meetOther hash param eid
    (s.addEntry hash eid param).modify param fun c =>
      { c with state := .established, point := .linkInit }

/-- Behind the loop: the entry is removed if it is that of this connection. -/
def removeOwnEntry (s : Tcpclv3Config) (param : ParamPtr) (c : ContactParameters) :
    Tcpclv3Config :=
  match c.eid with
  | none => s
  | some eid =>
    if s.paramHtab.htabGet hash eid = some param then s.removeEntry hash eid else s

/-- The next step of `tcpclv3_link_management_task`. -/
def advance (s : Tcpclv3Config) (param : ParamPtr) (found : Found) :
    Except ConnectionFault Tcpclv3Config := do
  let c ← s.load param
  match c.point with
  | .loop =>
    match c.state with
    | .connecting =>
      if c.opportunistic ∨ c.claAddr = none then s.goTo param .leaving
      else s.goTo param .connect
    | .connected =>
      if 0 < c.socket then s.goTo param .handshake else .error .assertion
    | _ => .error .assertion
  | .connect =>
    if found.socket < 0 then
      s.modify param fun c => { c with
        socket := found.socket
        connectAttempt := c.connectAttempt + 1
        point := if maxRetryAttempts < c.connectAttempt + 1 then .leaving else .loop }
    else
      s.modify param fun c =>
        { c with socket := found.socket, state := .connected, point := .loop }
  | .handshake =>
    match performHandshake c found with
    | none => s.goTo param .again
    | some c' => .ok (s.setParams param (some { c' with point := .handle }))
  | .handle => s.handleEstablishedConnection hash param
  | .linkInit =>
    if found.link then
      s.modify param fun c => { c with active := true, point := .waitCleanup }
    else
      s.modify param fun c =>
        { c with active := true, state := .connecting, point := .again }
  | .waitCleanup =>
    if c.active then .error .blocks
    else s.modify param fun c => { c with state := .connecting, point := .again }
  | .again =>
    if c.opportunistic ∨ c.claAddr = none then s.goTo param .leaving
    else s.modify param fun c =>
      { c with state := .connecting, connectAttempt := 0, point := .loop }
  | .leaving => (s.removeOwnEntry hash param c).goTo param .freeing
  | .freeing => .ok (s.setParams param none)

/-- The parameters that `launch_connection_management_task` fills in. -/
def initialParameters (sock : Int) (eid : Option Eid) (found : Launch) :
    Option ContactParameters :=
  if sock < 0 then
    if found.eid = false ∨ found.claAddr = none then none
    else some ⟨eid, found.claAddr, 0, -1, .connecting, false, found.active, .loop⟩
  else some ⟨none, none, 0, sock, .connected, true, found.active, .loop⟩

/-- `hal_task_create`, behind the entry of a planned connection. -/
def createTask (s : Tcpclv3Config) (p : ParamPtr) (c : ContactParameters)
    (found : Launch) : Except ConnectionFault Tcpclv3Config :=
  if found.task then .ok (s.setParams p (some c))
  else
    match c.eid with
    | none => .ok s
    | some eid =>
      if (s.paramHtab.htabRemove hash eid).1 = some p then
        .ok (s.removeEntry hash eid)
      else .error .assertion

/-- `launch_connection_management_task`. -/
def launch (s : Tcpclv3Config) (sock : Int) (eid : Option Eid) (found : Launch) :
    Except ConnectionFault Tcpclv3Config :=
  match found.memory, initialParameters sock eid found with
  | some p, some c =>
    if found.parser then
      match c.eid with
      | none => s.createTask hash p c found
      | some eid =>
        match (s.paramHtab.htabAdd hash eid p).1 with
        | none => .ok s
        | some _ => (s.addEntry hash eid p).createTask hash p c found
    else .ok s
  | _, _ => .ok s

/-- `tcpclv3_start_scheduled_contact`. -/
def startScheduledContact (s : Tcpclv3Config) (eid : Eid) (found : Launch) :
    Except ConnectionFault Tcpclv3Config :=
  match s.paramHtab.htabGet hash eid with
  | some p =>
    s.modify p fun c => { c with opportunistic := false, claAddr := found.claAddr }
  | none => s.launch hash (-1) (some eid) found

/-- `tcpclv3_end_scheduled_contact`. -/
def endScheduledContact (s : Tcpclv3Config) (eid : Eid) :
    Except ConnectionFault Tcpclv3Config :=
  match s.paramHtab.htabGet hash eid with
  | none => .ok s
  | some p => s.modify p fun c => { c with opportunistic := true }

end

/-- `tcpclv3_init`: nobody is connected. -/
def initial : Tcpclv3Config :=
  ⟨Htab.htabInit paramHtabSlotCount, fun _ => none⟩

end Tcpclv3Config

/-! ## Runs -/

/-- What happens next. -/
inductive ConnectionEvent where
  | startContact (eid : Eid) (found : Launch)
  | endContact (eid : Eid)
  /-- The listener accepts a connection. -/
  | accept (sock : Nat) (found : Launch)
  /-- A management task goes on. -/
  | advance (param : ParamPtr) (found : Found)
  /-- `cla_generic_disconnect_handler`. -/
  | linkLost (param : ParamPtr)

namespace Tcpclv3Config
section
variable (hash : List Char → Nat)

/-- One event. -/
def handle (s : Tcpclv3Config) : ConnectionEvent → Except ConnectionFault Tcpclv3Config
  | .startContact eid found => s.startScheduledContact hash eid found
  | .endContact eid => s.endScheduledContact hash eid
  | .accept sock found => s.launch hash sock none found
  | .advance param found => s.advance hash param found
  | .linkLost param => s.modify param fun c => { c with active := false }

/-- The memory that `malloc` returns is not in use. -/
def Allocates (s : Tcpclv3Config) : ConnectionEvent → Prop
  | .startContact _ found | .accept _ found =>
    ∀ p, found.memory = some p → s.params p = none
  | _ => True

/-- Runs whose steps meet a condition. -/
inductive Run (cond : Tcpclv3Config → ConnectionEvent → Prop) :
    Tcpclv3Config → Prop where
  | start : Run cond initial
  | step {s s' : Tcpclv3Config} {e : ConnectionEvent} (h : Run cond s)
      (hmemory : s.Allocates e) (hcond : cond s e) (hstep : s.handle hash e = .ok s') :
      Run cond s'

end
end Tcpclv3Config

end Tcpclv3

end Upcn
