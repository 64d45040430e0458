import Upcn.Config.Parser

/-!
# The language of configuration commands

The grammar that the stages of `config_parser.c` lay out.

* `Sentence text k` says that `text` is written as a command with the parts `k`.
  The integers of `k` are digits.
* `CommandText.Passes` and `CommandText.converted` are the checks and the command
  with the integers as the code converts them.
-/

namespace Upcn.Config

/-! ## The grammar -/

/-- What is behind the start of a list: elements, and a last comma or not. -/
inductive Elements {α : Type} (item : Str → α → Prop) : Str → List α → Prop where
  | none : Elements item [listEndDelimiter] []
  | last {t : Str} {x : α} (h : item t x) : Elements item (t ++ [listEndDelimiter]) [x]
  | more {t ts : Str} {x : α} {xs : List α} (h : item t x) (hrest : Elements item ts xs) :
    Elements item (t ++ listElementSeparator :: ts) (x :: xs)

/-- The characters of an EID. -/
def EidBytes (eid : Str) : Prop := ∀ b ∈ eid, isEidByte b ∧ b ≠ eidEndDelimiter

/-- The characters of an address. -/
def ClaAddrBytes (addr : Str) : Prop := ∀ b ∈ addr, isClaAddrByte b

/-- The digits of an integer. -/
def Digits (digits : Str) : Prop := ∀ b ∈ digits, isDigitByte b

/-- An EID in parentheses. -/
def EidText (t eid : Str) : Prop :=
  EidBytes eid ∧ t = eidStartDelimiter :: (eid ++ [eidEndDelimiter])

/-- The parts of a contact. -/
structure ContactText where
  fromTime : Str
  toTime : Str
  bitrate : Str
  endpoints : List Str

/-- The integers are digits. -/
structure ContactText.Written (k : ContactText) : Prop where
  fromTime : Digits k.fromTime
  toTime : Digits k.toTime
  bitrate : Digits k.bitrate

/-- The text of a contact up to its bitrate. -/
def ContactText.times (k : ContactText) : Str :=
  objectStartDelimiter :: (k.fromTime ++ objectElementSeparator ::
    (k.toTime ++ objectElementSeparator :: k.bitrate))

/-- A contact. -/
inductive ContactSentence : Str → ContactText → Prop where
  | short {k : ContactText} (h : k.Written) (hnone : k.endpoints = []) :
    ContactSentence (k.times ++ [objectEndDelimiter]) k
  | long {k : ContactText} {t : Str} (h : k.Written) (ht : Elements EidText t k.endpoints) :
    ContactSentence (k.times ++ objectElementSeparator :: listStartDelimiter ::
      (t ++ [objectEndDelimiter])) k

/-- Behind the separator in front of the contacts. -/
inductive ContactsPart : Str → List ContactText → Prop where
  | none : ContactsPart [commandEndMarker] []
  | list {t : Str} {ks : List ContactText} (h : Elements ContactSentence t ks) :
    ContactsPart (listStartDelimiter :: (t ++ [commandEndMarker])) ks

/-- Behind the endpoints. -/
inductive BehindEndpoints : Str → List ContactText → Prop where
  | none : BehindEndpoints [commandEndMarker] []
  | contacts {t : Str} {ks : List ContactText} (h : ContactsPart t ks) :
    BehindEndpoints (nodesContactsSeparator :: t) ks

/-- Behind the separator in front of the endpoints. -/
inductive EndpointsPart : Str → List Str → List ContactText → Prop where
  | none : EndpointsPart [commandEndMarker] [] []
  | contacts {t : Str} {ks : List ContactText} (h : ContactsPart t ks) :
    EndpointsPart (nodesContactsSeparator :: t) [] ks
  | list {t u : Str} {eids : List Str} {ks : List ContactText}
    (ht : Elements EidText t eids) (hu : BehindEndpoints u ks) :
    EndpointsPart (listStartDelimiter :: (t ++ u)) eids ks

/-- Behind the address. -/
inductive BehindClaAddr : Str → List Str → List ContactText → Prop where
  | none : BehindClaAddr [commandEndMarker] [] []
  | endpoints {t : Str} {eids : List Str} {ks : List ContactText}
    (h : EndpointsPart t eids ks) : BehindClaAddr (claAddrNodesSeparator :: t) eids ks

/-- Behind the separator in front of the address. -/
inductive ClaAddrPart : Str → Option Str → List Str → List ContactText → Prop where
  | none : ClaAddrPart [commandEndMarker] Option.none [] []
  | endpoints {t : Str} {eids : List Str} {ks : List ContactText}
    (h : EndpointsPart t eids ks) :
    ClaAddrPart (claAddrNodesSeparator :: t) Option.none eids ks
  | addr {addr t : Str} {eids : List Str} {ks : List ContactText}
    (haddr : ClaAddrBytes addr) (h : BehindClaAddr t eids ks) :
    ClaAddrPart (claAddrStartDelimiter :: (addr ++ claAddrEndDelimiter :: t))
      (some addr) eids ks

/-- The parts of a command. -/
structure CommandText where
  type : RouterCommandType
  eid : Str
  reliability : Option Str
  claAddr : Option Str
  endpoints : List Str
  contacts : List ContactText

/-- Behind the EID of the node. -/
inductive BehindEid : Str → CommandText → Prop where
  | none {type : RouterCommandType} {eid : Str} :
    BehindEid [commandEndMarker] ⟨type, eid, Option.none, Option.none, [], []⟩
  | claAddr {type : RouterCommandType} {eid t : Str} {addr : Option Str}
    {eids : List Str} {ks : List ContactText} (h : ClaAddrPart t addr eids ks) :
    BehindEid (nodeConfClaAddrSeparator :: t) ⟨type, eid, Option.none, addr, eids, ks⟩
  | reliability {type : RouterCommandType} {eid digits : Str} (h : Digits digits) :
    BehindEid (nodeConfReliabilitySeparator :: (digits ++ [commandEndMarker]))
      ⟨type, eid, some digits, Option.none, [], []⟩
  | both {type : RouterCommandType} {eid digits t : Str} {addr : Option Str}
    {eids : List Str} {ks : List ContactText} (hdigits : Digits digits)
    (h : ClaAddrPart t addr eids ks) :
    BehindEid (nodeConfReliabilitySeparator :: (digits ++ nodeConfClaAddrSeparator :: t))
      ⟨type, eid, some digits, addr, eids, ks⟩

/-- A command. -/
inductive Sentence : Str → CommandText → Prop where
  | command {byte : UInt8} {t u : Str} {k : CommandText}
    (htype : commandType byte = some k.type) (heid : EidText t k.eid)
    (h : BehindEid u k) : Sentence (byte :: (t ++ u)) k

/-! ## What the machine makes of it -/

/-- The checks of a contact. -/
def ContactText.Passes (now : Nat) (k : ContactText) : Prop :=
  endReadUint64 k.fromTime < endReadUint64 k.toTime ∧ now < endReadUint64 k.toTime

/-- The contact that is filled in. -/
def ContactText.converted (k : ContactText) : ContactData :=
  ⟨endReadUint64 k.fromTime, endReadUint64 k.toTime, endReadUint32 k.bitrate, k.endpoints⟩

/-- The check of a reliability. -/
def ReliabilityPasses (digits : Str) : Prop :=
  100 ≤ endReadUint16 digits ∧ endReadUint16 digits ≤ 1000

/-- The checks of a command. -/
structure CommandText.Passes (now : Nat) (k : CommandText) : Prop where
  reliability : ∀ digits, k.reliability = some digits → ReliabilityPasses digits
  contacts : ∀ x ∈ k.contacts, x.Passes now

/-- The command that is filled in. -/
def CommandText.converted (k : CommandText) : RouterCommand where
  type := k.type
  data :=
    { eid := some k.eid
      claAddr := k.claAddr
      reliability := match k.reliability with
        | none => nodeCreate.reliability
        | some digits => endReadUint16 digits
      endpoints := k.endpoints
      contacts := k.contacts.map ContactText.converted }

end Upcn.Config
