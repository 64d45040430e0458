import Mathlib.Algebra.GroupWithZero.Nat
import Mathlib.Algebra.Ring.Int.Defs
import Mathlib.Data.List.ModifyLast
import Mathlib.Tactic.Common

/-!
# The parser of configuration commands

`config_parser.c`: the machine that reads a router command byte by byte.

* `ConfigParser` is the stage, the command that is filled in, the digits of the
  integer that is read, and the list whose last EID is read.
* `readCommand` is one byte.  A status that is not good ends the machine: the
  command is sent, or the parser is reset.
* `ConfigParser.read` are the commands that are sent for a text.

Strings are bytes.  A reliability is counted in thousandths, as it is read.
`strtoul` and `strtoull` are those of a machine with `long` of 64 bits, and
memory is there.
-/

namespace Upcn.Config

/-- A string of bytes. -/
abbrev Str := List UInt8

/-! ## Commands -/

/-- `enum router_command_type`. -/
inductive RouterCommandType where
  | undefined
  | add
  | update
  | delete
  | query
  deriving DecidableEq

/-- `struct contact`, as far as the parser fills it in. -/
structure ContactData where
  fromTime : Nat
  toTime : Nat
  bitrate : Nat
  contactEndpoints : List Str
  deriving DecidableEq

/-- `contact_create`. -/
def contactCreate : ContactData := ⟨0, 0, 0, []⟩

/-- `struct node`, as far as the parser fills it in. -/
structure NodeData where
  eid : Option Str
  claAddr : Option Str
  reliability : Nat
  endpoints : List Str
  contacts : List ContactData
  deriving DecidableEq

/-- `node_create` without an EID. -/
def nodeCreate : NodeData := ⟨none, none, 1000, [], []⟩

/-- `struct router_command`. -/
structure RouterCommand where
  type : RouterCommandType
  data : NodeData
  deriving DecidableEq

/-! ## Characters -/

def eidStartDelimiter : UInt8 := '('.toUInt8
def eidEndDelimiter : UInt8 := ')'.toUInt8
def claAddrStartDelimiter : UInt8 := '('.toUInt8
def claAddrEndDelimiter : UInt8 := ')'.toUInt8
def nodeConfReliabilitySeparator : UInt8 := ','.toUInt8
def nodeConfClaAddrSeparator : UInt8 := ':'.toUInt8
def claAddrNodesSeparator : UInt8 := ':'.toUInt8
def listStartDelimiter : UInt8 := '['.toUInt8
def listEndDelimiter : UInt8 := ']'.toUInt8
def listElementSeparator : UInt8 := ','.toUInt8
def objectStartDelimiter : UInt8 := '{'.toUInt8
def objectEndDelimiter : UInt8 := '}'.toUInt8
def objectElementSeparator : UInt8 := ','.toUInt8
def nodesContactsSeparator : UInt8 := ':'.toUInt8
def commandEndMarker : UInt8 := ';'.toUInt8

/-- The characters that `read_eid` takes. -/
def isEidByte (byte : UInt8) : Bool :=
  (0x21 ≤ byte && byte ≤ 0x5F) || (0x61 ≤ byte && byte ≤ 0x7A) || byte = 0x7E

/-- The characters that `read_cla_addr` takes. -/
def isClaAddrByte (byte : UInt8) : Bool :=
  (0x30 ≤ byte && byte ≤ 0x39) || (0x41 ≤ byte && byte ≤ 0x5A) ||
    (0x61 ≤ byte && byte ≤ 0x7A) || byte = ':'.toUInt8 || byte = '.'.toUInt8 ||
    byte = '['.toUInt8 || byte = ']'.toUInt8

/-- The characters that `read_integer` takes. -/
def isDigitByte (byte : UInt8) : Bool := 0x30 ≤ byte && byte ≤ 0x39

/-- The type of a command. -/
def commandType (byte : UInt8) : Option RouterCommandType :=
  if byte = 0x31 then some .add
  else if byte = 0x32 then some .update
  else if byte = 0x33 then some .delete
  else if byte = 0x34 then some .query
  else none

/-! ## Integers -/

/-- The number that some digits are. -/
def number (digits : Str) : Nat :=
  digits.foldl (fun n d => 10 * n + (d.toNat - 0x30)) 0

/-- `end_read_uint64`: `strtoull` stays at the largest number. -/
def endReadUint64 (digits : Str) : Nat := min (number digits) (2 ^ 64 - 1)

/-- `end_read_uint32`: what `strtoul` returns is cut off. -/
def endReadUint32 (digits : Str) : Nat := min (number digits) (2 ^ 64 - 1) % 2 ^ 32

/-- `end_read_uint16`: `atoi` is `strtol`, and what it returns is cut off. -/
def endReadUint16 (digits : Str) : Nat := min (number digits) (2 ^ 63 - 1) % 2 ^ 16

/-! ## The machine -/

/-- `enum config_parser_stage`. -/
inductive Stage where
  | commandType
  | nodeConfStartDelimiter
  | nodeConfEid
  | nodeConfReliabilitySeparator
  | nodeConfReliability
  | nodeConfClaAddrSeparator
  | claAddrStartDelimiter
  | claAddr
  | claAddrNodesSeparator
  | nodeListStartDelimiter
  | nodeStartDelimiter
  | nodeEid
  | nodeSeparator
  | nodesContactsSeparator
  | contactListStartDelimiter
  | contactStartDelimiter
  | contactStartTime
  | contactEndTime
  | contactBitrate
  | contactNodeListStartDelimiter
  | contactNodeStartDelimiter
  | contactNodeEid
  | contactNodeSeparator
  | contactEndDelimiter
  | contactSeparator
  | commandEndMarker
  deriving DecidableEq

/-- A list of EIDs that is filled in. -/
inductive EidList where
  /-- The endpoints of the node. -/
  | node
  /-- The endpoints of the contact that is read. -/
  | contact
  deriving DecidableEq

/-- `struct config_parser`, while its status is good. -/
structure ConfigParser where
  stage : Stage
  routerCommand : RouterCommand
  /-- `current_int_data`, as far as it is filled. -/
  currentIntData : Str
  /-- The list of which `current_eid` is the last entry. -/
  currentEid : Option EidList
  deriving DecidableEq

/-- What a byte leads to. -/
inductive Next where
  /-- The status is still good. -/
  | good (p : ConfigParser)
  | done (p : ConfigParser)
  | error
  deriving DecidableEq

namespace ConfigParser

/-- `config_parser_reset`. -/
def reset : ConfigParser := ⟨.commandType, ⟨.undefined, nodeCreate⟩, [], none⟩

/-- The node is changed. -/
def modifyData (p : ConfigParser) (f : NodeData → NodeData) : ConfigParser :=
  { p with routerCommand := { p.routerCommand with data := f p.routerCommand.data } }

/-- The contact that is read is changed. -/
def modifyContact (p : ConfigParser) (f : ContactData → ContactData) : ConfigParser :=
  p.modifyData fun n => { n with contacts := n.contacts.modifyLast f }

/-- A list of EIDs is changed. -/
def modifyEids (p : ConfigParser) (list : EidList) (f : List Str → List Str) :
    ConfigParser :=
  match list with
  | .node => p.modifyData fun n => { n with endpoints := f n.endpoints }
  | .contact => p.modifyContact fun k => { k with contactEndpoints := f k.contactEndpoints }

/-- `begin_read_data_eid`. -/
def beginReadDataEid (p : ConfigParser) (target : EidList) : ConfigParser :=
  match p.currentEid with
  | none => { p.modifyEids target (fun _ => [[]]) with currentEid := some target }
  | some list => p.modifyEids list (· ++ [[]])

/-- `read_eid` into the last entry of a list. -/
def readDataEid (p : ConfigParser) (byte : UInt8) : ConfigParser :=
  match p.currentEid with
  | none => p
  | some list => p.modifyEids list (List.modifyLast (· ++ [byte]))

/-- `begin_read_contact`. -/
def beginReadContact (p : ConfigParser) : ConfigParser :=
  { p.modifyData (fun n => { n with contacts := n.contacts ++ [contactCreate] }) with
    currentEid := none }

/-- `begin_read_integer`, and the end of reading one. -/
def clearInteger (p : ConfigParser) : ConfigParser := { p with currentIntData := [] }

/-- The next stage. -/
def goTo (p : ConfigParser) (stage : Stage) : ConfigParser := { p with stage := stage }

/-- `read_integer`. -/
def readInteger (p : ConfigParser) (byte : UInt8) : Next :=
  if isDigitByte byte then
    .good { p with currentIntData := p.currentIntData ++ [byte] }
  else .error

/-- `read_command`. -/
def readCommand (now : Nat) (p : ConfigParser) (byte : UInt8) : Next :=
  match p.stage with
  | .commandType => .error
  | .nodeConfStartDelimiter =>
    if byte = eidStartDelimiter then
      .good ((p.modifyData fun n => { n with eid := some [] }).goTo .nodeConfEid)
    else .error
  | .nodeConfEid =>
    if byte = eidEndDelimiter then .good (p.goTo .nodeConfReliabilitySeparator)
    else if isEidByte byte then
      .good (p.modifyData fun n => { n with eid := n.eid.map (· ++ [byte]) })
    else .error
  | .nodeConfReliabilitySeparator =>
    if byte = nodeConfReliabilitySeparator then
      .good (p.clearInteger.goTo .nodeConfReliability)
    else if byte = nodeConfClaAddrSeparator then .good (p.goTo .claAddrStartDelimiter)
    else if byte = Config.commandEndMarker then .done p
    else .error
  | .nodeConfReliability =>
    if byte = nodeConfClaAddrSeparator ∨ byte = Config.commandEndMarker then
      let tmp := endReadUint16 p.currentIntData
      if tmp < 100 ∨ 1000 < tmp then .error
      else
        let p := (p.clearInteger.modifyData fun n =>
          { n with reliability := tmp }).goTo .claAddrStartDelimiter
        if byte = Config.commandEndMarker then .done p else .good p
    else p.readInteger byte
  | .nodeConfClaAddrSeparator =>
    if byte = nodeConfClaAddrSeparator then .good (p.goTo .claAddrStartDelimiter)
    else if byte = Config.commandEndMarker then .done p
    else .error
  | .claAddrStartDelimiter =>
    if byte = Config.claAddrStartDelimiter then
      .good ((p.modifyData fun n => { n with claAddr := some [] }).goTo .claAddr)
    else if byte = Config.claAddrNodesSeparator then .good (p.goTo .nodeListStartDelimiter)
    else if byte = Config.commandEndMarker then .done p
    else .error
  | .claAddr =>
    if byte = claAddrEndDelimiter then .good (p.goTo .claAddrNodesSeparator)
    else if isClaAddrByte byte then
      .good (p.modifyData fun n => { n with claAddr := n.claAddr.map (· ++ [byte]) })
    else .error
  | .claAddrNodesSeparator =>
    if byte = Config.claAddrNodesSeparator then .good (p.goTo .nodeListStartDelimiter)
    else if byte = Config.commandEndMarker then .done p
    else .error
  | .nodeListStartDelimiter =>
    if byte = listStartDelimiter then .good (p.goTo .nodeStartDelimiter)
    else if byte = Config.nodesContactsSeparator then
      .good (p.goTo .contactListStartDelimiter)
    else if byte = Config.commandEndMarker then .done p
    else .error
  | .nodeStartDelimiter =>
    if byte = eidStartDelimiter then .good ((p.beginReadDataEid .node).goTo .nodeEid)
    else if byte = listEndDelimiter then .good (p.goTo .nodesContactsSeparator)
    else .error
  | .nodeEid =>
    if byte = eidEndDelimiter then .good (p.goTo .nodeSeparator)
    else if isEidByte byte then .good (p.readDataEid byte)
    else .error
  | .nodeSeparator =>
    if byte = listElementSeparator then .good (p.goTo .nodeStartDelimiter)
    else if byte = listEndDelimiter then .good (p.goTo .nodesContactsSeparator)
    else .error
  | .nodesContactsSeparator =>
    if byte = Config.nodesContactsSeparator then
      .good (p.goTo .contactListStartDelimiter)
    else if byte = Config.commandEndMarker then .done p
    else .error
  | .contactListStartDelimiter =>
    if byte = listStartDelimiter then .good (p.goTo .contactStartDelimiter)
    else if byte = Config.commandEndMarker then .done p
    else .error
  | .contactStartDelimiter =>
    if byte = objectStartDelimiter then
      .good (p.beginReadContact.clearInteger.goTo .contactStartTime)
    else if byte = listEndDelimiter then .good (p.goTo .commandEndMarker)
    else .error
  | .contactStartTime =>
    if byte = objectElementSeparator then
      .good (((p.modifyContact fun k =>
        { k with fromTime := endReadUint64 p.currentIntData }).clearInteger).goTo
          .contactEndTime)
    else p.readInteger byte
  | .contactEndTime =>
    if byte = objectElementSeparator then
      let p := p.modifyContact fun k =>
        { k with toTime := endReadUint64 p.currentIntData }
      match p.routerCommand.data.contacts.getLast? with
      | none => .error -- there is the contact that is read
      | some k =>
        if k.fromTime < k.toTime ∧ now < k.toTime then
          .good (p.clearInteger.goTo .contactBitrate)
        else .error
    else p.readInteger byte
  | .contactBitrate =>
    if byte = objectElementSeparator then
      .good (((p.modifyContact fun k =>
        { k with bitrate := endReadUint32 p.currentIntData }).clearInteger).goTo
          .contactNodeListStartDelimiter)
    else if byte = objectEndDelimiter then
      .good (((p.modifyContact fun k =>
        { k with bitrate := endReadUint32 p.currentIntData }).clearInteger).goTo
          .contactSeparator)
    else p.readInteger byte
  | .contactNodeListStartDelimiter =>
    if byte = listStartDelimiter then .good (p.goTo .contactNodeStartDelimiter)
    else .error
  | .contactNodeStartDelimiter =>
    if byte = eidStartDelimiter then
      .good ((p.beginReadDataEid .contact).goTo .contactNodeEid)
    else if byte = listEndDelimiter then .good (p.goTo .contactEndDelimiter)
    else .error
  | .contactNodeEid =>
    if byte = eidEndDelimiter then .good (p.goTo .contactNodeSeparator)
    else if isEidByte byte then .good (p.readDataEid byte)
    else .error
  | .contactNodeSeparator =>
    if byte = listElementSeparator then .good (p.goTo .contactNodeStartDelimiter)
    else if byte = listEndDelimiter then .good (p.goTo .contactEndDelimiter)
    else .error
  | .contactEndDelimiter =>
    if byte = objectEndDelimiter then .good (p.goTo .contactSeparator)
    else .error
  | .contactSeparator =>
    if byte = listElementSeparator then .good (p.goTo .contactStartDelimiter)
    else if byte = listEndDelimiter then .good (p.goTo .commandEndMarker)
    else .error
  | .commandEndMarker =>
    if byte = Config.commandEndMarker then .done p else .error

/-- `config_parser_read_byte`, while the status is good. -/
def readByte (now : Nat) (p : ConfigParser) (byte : UInt8) : Next :=
  if p.stage = .commandType then
    match commandType byte with
    | none => .error
    | some type =>
      .good { p with
        stage := .nodeConfStartDelimiter
        routerCommand := { p.routerCommand with type := type } }
  else p.readCommand now byte

/-- `config_parser_read`: the commands that are sent for a text.  After a command
the rest of the text is not looked at, and after an error it is dropped. -/
def read (now : Nat) : ConfigParser → Str → List RouterCommand
  | _, [] => []
  | p, byte :: rest =>
    match p.readByte now byte with
    | .good p => p.read now rest
    | .done p => [p.routerCommand]
    | .error => []

end ConfigParser

end Upcn.Config
