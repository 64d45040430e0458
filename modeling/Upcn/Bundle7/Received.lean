import Mathlib.Logic.Relation
import Upcn.Bundle7.RoundTrip

/-!
# A BPv7 bundle that arrives in pieces

`Feeds` is what the caller of `bundle7_parser_read` does: it receives bytes into a buffer, calls the
parser with what it has, keeps what was not parsed, and reads data in bulk where it is asked to.

In every run over the bytes of a bundle nothing is delivered but this bundle, with its last byte, and
from every state of a run it can be delivered (`bundle_received`).
-/

namespace Upcn.Bundle7.Parser

open Cbor
open Relation (ReflTransGen)
open Upcn.Bundle7Parser (Loop Round)

variable {cbor : DataDecoder} {s : Parser}

/-! ## What is delivered -/

theorem delivered_parseNumber {record : UInt64 → Nat → Parser → Parser × Option CborError}
    (hrecord : ∀ value count s, (record value count s).1.delivered = s.delivered)
    (it : cbor.Value) : (parseNumber cbor record s it).1.delivered = s.delivered := by
  unfold parseNumber
  split
  · rfl
  · dsimp only
    have hsame := hrecord (cbor.getUint64 it)
      (cbor.nextByte (cbor.advanceFixed it).2 - cbor.nextByte it) s
    split
    all_goals
      rename_i hresult
      rw [hresult] at hsame
      exact hsame

theorem delivered_behindNumbers (count : Nat) (s : Parser) :
    (s.behindNumbers count).delivered = s.delivered := by
  unfold behindNumbers
  split <;> rfl

theorem delivered_crcType (type : UInt64) (count : Nat) (s : Parser) :
    (crcType type count s).1.delivered = s.delivered := by
  unfold crcType
  split <;> rfl

theorem delivered_lifetime (value : UInt64) (count : Nat) (s : Parser) :
    (lifetime value count s).1.delivered = s.delivered := by
  unfold lifetime
  dsimp only
  split
  · rfl
  · exact delivered_behindNumbers ..

theorem delivered_parseEid (set : Bundle → List UInt8 → Bundle) (next : Bundle7Parser.Stage)
    (it : cbor.Value) : (parseEid cbor set next s it).1.delivered = s.delivered := by
  unfold parseEid
  split <;> rfl

theorem delivered_primaryBlockCrc (it : cbor.Value) :
    (primaryBlockCrc cbor s it).1.delivered = s.delivered := by
  unfold primaryBlockCrc
  split
  · rfl
  · split
    · rfl
    · dsimp only
      split <;> rfl

theorem delivered_blockCrc (it : cbor.Value) :
    (blockCrc cbor s it).1.delivered = s.delivered := by
  unfold blockCrc
  split
  · rfl
  · dsimp only
    split
    · rfl
    · split <;> rfl

theorem delivered_blockData (it : cbor.Value) :
    (blockData cbor s it).1.delivered = s.delivered := by
  unfold blockData
  split
  · rfl
  · split <;> rfl

/-- A parse function delivers nothing, or it is the one of the end of the bundle. -/
theorem delivered_parseStage (s : Parser) (it : cbor.Value) :
    (parseStage cbor s it).1.delivered = s.delivered ∨
      (parseStage cbor s it).1.status = .done := by
  unfold parseStage
  split
  case h_1 =>
    left
    unfold bundleStart
    split <;> rfl
  case h_2 =>
    left
    unfold primaryBlockStart
    split <;> rfl
  case h_5 => exact .inl (delivered_parseNumber delivered_crcType it)
  case h_6 => exact .inl (delivered_parseEid _ _ it)
  case h_7 => exact .inl (delivered_parseEid _ _ it)
  case h_8 => exact .inl (delivered_parseEid _ _ it)
  case h_9 =>
    left
    unfold creationTimestamp
    split <;> rfl
  case h_10 => exact .inl (delivered_parseNumber delivered_lifetime it)
  case h_12 => exact .inl (delivered_parseNumber (fun _ _ _ => delivered_behindNumbers ..) it)
  case h_13 => exact .inl (delivered_primaryBlockCrc it)
  case h_14 =>
    left
    unfold blockStart
    split <;> rfl
  case h_19 => exact .inl (delivered_blockCrc it)
  case h_20 => exact .inl (delivered_blockData it)
  case h_21 => exact .inl rfl
  case h_22 =>
    unfold bundleEnd
    split
    · exact .inl rfl
    · exact .inr rfl
  all_goals exact .inl (delivered_parseNumber (fun _ _ _ => rfl) it)

theorem delivered_bulkDone (s : Parser) (data : List UInt8) :
    (s.bulkDone data).delivered = s.delivered := by
  unfold bulkDone
  dsimp only
  split <;> rfl

/-- The transition to the next stage delivers nothing, and it does not take up a parser that is
done. -/
theorem behind_spec (bytes : List UInt8) (s : Parser) : (s.behind bytes).delivered = s.delivered ∧
    ((s.behind bytes).status = .good → s.status = .good) := by
  unfold behind fail
  dsimp only
  split
  · exact ⟨rfl, fun h => by cases h⟩
  · exact ⟨rfl, id⟩

theorem failed_spec (err : CborError) (s : Parser) : (s.failed err).delivered = s.delivered ∧
    ((s.failed err).status = .good → s.status = .good) := by
  unfold failed fail
  split
  · exact ⟨rfl, id⟩
  · exact ⟨rfl, fun h => by cases h⟩

theorem delivered_transition {s' : Parser} {r : Except CborError cbor.Value}
    (l : Loop cbor.toDecoder) (hparsed : s'.delivered = s.delivered ∨ s'.status = .done)
    (hgood : (transition cbor l (s', r)).1.status = .good) :
    (transition cbor l (s', r)).1.delivered = s.delivered := by
  have hsame : s'.status = .good → s'.delivered = s.delivered := by
    intro hstatus
    rcases hparsed with hsame | hdone
    · exact hsame
    · rw [hdone] at hstatus
      cases hstatus
  cases r with
  | error err =>
    obtain ⟨hkept, hbefore⟩ := failed_spec err s'
    exact hkept.trans (hsame (hbefore hgood))
  | ok it =>
    obtain ⟨hkept, hbefore⟩ :=
      behind_spec ((l.buffer.drop l.parsed).take (cbor.nextByte it - l.parsed)) s'
    have hresult : (transition cbor l (s', .ok it)).1 =
        s'.behind ((l.buffer.drop l.parsed).take (cbor.nextByte it - l.parsed)) := by
      unfold transition
      dsimp only
      split <;> rfl
    rw [hresult] at hgood ⊢
    exact hkept.trans (hsame (hbefore hgood))

/-- A round in which the parser goes on delivers nothing. -/
theorem delivered_round (s : Parser) (l : Loop cbor.toDecoder) :
    (readRound cbor s l).1.status = .good → (readRound cbor s l).1.delivered = s.delivered := by
  unfold readRound
  split
  · exact fun _ => rfl
  · split
    · exact fun _ => (failed_spec _ s).1
    · rename_i it _
      split
      · split
        · exact fun _ => rfl
        · exact fun _ => delivered_bulkDone ..
      · exact delivered_transition l (delivered_parseStage s it)

/-- A parser that does not go on is left as it is. -/
theorem readLoop_of_not_good (rounds : Nat) (l : Loop cbor.toDecoder) (h : s.status ≠ .good) :
    (readLoop cbor rounds s l).1 = s := by
  cases rounds with
  | zero => rfl
  | succ rounds => rw [readLoop, readRound, if_pos fun hgoes => h hgoes.2]

/-- A call after which the parser goes on has delivered nothing, by induction on its rounds. -/
theorem delivered_readLoop (rounds : Nat) (l : Loop cbor.toDecoder)
    (hgood : (readLoop cbor rounds s l).1.status = .good) :
    (readLoop cbor rounds s l).1.delivered = s.delivered := by
  induction rounds generalizing s l with
  | zero => rfl
  | succ rounds ih =>
    have hround := delivered_round s l
    rw [readLoop] at hgood ⊢
    generalize readRound cbor s l = r at hround hgood ⊢
    obtain ⟨s', again | parsed⟩ := r
    · dsimp only at hround hgood ⊢
      have hstatus : s'.status = .good := by
        by_contra hnot
        rw [readLoop_of_not_good rounds _ hnot] at hgood
        exact hnot hgood
      exact (ih _ hgood).trans (hround hstatus)
    · exact hround hgood

theorem delivered_read (input : List UInt8)
    (hgood : (bundle7ParserRead cbor s input).1.status = .good) :
    (bundle7ParserRead cbor s input).1.delivered = s.delivered :=
  delivered_readLoop _ _ hgood

/-! ## The caller -/

/-- A parser with the buffer of its caller, and the stream that is to come. -/
structure Feed where
  parser : Parser
  buffer : List UInt8
  stream : List UInt8

/-- What a caller does whose buffer has room for so many bytes.  A bulk is read from the buffer and
the stream at once. -/
inductive Feeds (cbor : DataDecoder) (room : Nat) : Feed → Feed → Prop where
  | receive {s : Parser} {buffer piece rest : List UInt8}
    (hroom : buffer.length + piece.length ≤ room) :
    Feeds cbor room ⟨s, buffer, piece ++ rest⟩ ⟨s, buffer ++ piece, rest⟩
  | parse {s : Parser} {buffer stream : List UInt8} (hgood : s.status = .good) :
    Feeds cbor room ⟨s, buffer, stream⟩ ⟨(bundle7ParserRead cbor s buffer).1,
      buffer.drop (bundle7ParserRead cbor s buffer).2, stream⟩
  | bulk {s : Parser} {buffer stream data rest : List UInt8} (hgood : s.status = .good)
    (hbulk : s.bulkRead = true) (hdata : data.length = s.nextBytes)
    (heq : buffer ++ stream = data ++ rest) :
    Feeds cbor room ⟨s, buffer, stream⟩ ⟨s.bulkDone data, buffer.drop data.length,
      stream.drop (data.length - buffer.length)⟩

/-- The parser has delivered this bundle and nothing else, and these bytes are left. -/
structure Feed.Delivered (b : Bundle) (after : List UInt8) (x : Feed) : Prop where
  status : x.parser.status = .done
  delivered : x.parser.delivered = [b]
  unread : x.buffer ++ x.stream = after

/-- The parser goes on, and has not delivered anything. -/
structure Feed.Waiting (x : Feed) : Prop where
  status : x.parser.status = .good
  delivered : x.parser.delivered = []

variable {At : cbor.Value → Place → Prop} {room quota : Nat} {b sent : Bundle}
  {bytes unread after : List UInt8} {x y : Feed}

/-- The parser stands in the bundle. -/
structure Feed.Inside (At : cbor.Value → Place → Prop) (room : Nat) (b : Bundle)
    (after unread : List UInt8) (x : Feed) : Prop where
  path : Path At room b x.parser unread
  delivered : x.parser.delivered = []
  buffer : x.buffer.length ≤ room
  unread : x.buffer ++ x.stream = unread ++ after

/-- The parser stands in the bundle, or has delivered it. -/
def Feed.Receiving (At : cbor.Value → Place → Prop) (room : Nat) (b : Bundle)
    (after : List UInt8) (x : Feed) : Prop :=
  (∃ unread, x.Inside At room b after unread) ∨ x.Delivered b after

theorem Feed.Inside.waiting (h : x.Inside At room b after unread) : x.Waiting :=
  ⟨h.path.good, h.delivered⟩

/-- What is left behind a call. -/
theorem drop_unread {buffer stream : List UInt8} {taken : Nat} (hbuffer : taken ≤ buffer.length)
    (hunread : taken ≤ unread.length) (heq : buffer ++ stream = unread ++ after) :
    buffer.drop taken ++ stream = unread.drop taken ++ after := by
  rw [← List.drop_append_of_le_length hbuffer, heq, List.drop_append_of_le_length hunread]

/-- A call in the bundle: where it takes nothing, there is no bulk to be read, and there is room for
more. -/
theorem inside_parse (hfollows : cbor.Follows At) {s : Parser} {buffer stream : List UInt8}
    (h : Feed.Inside At room b after unread ⟨s, buffer, stream⟩) :
    (⟨(bundle7ParserRead cbor s buffer).1, buffer.drop (bundle7ParserRead cbor s buffer).2,
        stream⟩ : Feed).Delivered b after ∨
      ((⟨(bundle7ParserRead cbor s buffer).1, buffer.drop (bundle7ParserRead cbor s buffer).2,
          stream⟩ : Feed).Inside At room b after
          (unread.drop (bundle7ParserRead cbor s buffer).2) ∧
        (bundle7ParserRead cbor s buffer).2 ≤ unread.length ∧
        ((bundle7ParserRead cbor s buffer).2 = 0 → s.bulkRead = false →
          buffer.length < room ∧ stream ≠ [])) := by
  obtain ⟨hafter, hbulk⟩ := read_path hfollows h.path h.unread
  have hdelivered : (bundle7ParserRead cbor s buffer).1.status = .good →
      (bundle7ParserRead cbor s buffer).1.delivered = s.delivered := delivered_read buffer
  generalize bundle7ParserRead cbor s buffer = r at hafter hbulk hdelivered ⊢
  obtain ⟨s', taken⟩ := r
  cases hafter with
  | done hstatus hdone hall hle =>
    refine .inl ⟨hstatus, hdone, ?_⟩
    show buffer.drop taken ++ stream = after
    rw [drop_unread hle (Nat.le_of_eq hall) h.unread, show taken = unread.length from hall,
      List.drop_length, List.nil_append]
  | on hpath hle hle' hrest =>
    refine .inr ⟨⟨hpath, ?_, ?_, drop_unread hle hle' h.unread⟩, hle', fun hzero hnone => ?_⟩
    · rw [hdelivered hpath.good]
      exact h.delivered
    · have hbuffer : buffer.length ≤ room := h.buffer
      show (buffer.drop taken).length ≤ room
      rw [List.length_drop]
      omega
    · dsimp only at hzero hrest hbulk
      subst hzero
      rcases hrest with hagain | ⟨hnot, hlt⟩
      · rw [hbulk rfl hnone] at hagain
        cases hagain
      · refine ⟨by omega, ?_⟩
        rintro rfl
        apply hnot
        have heq : buffer ++ [] = unread ++ after := h.unread
        rw [List.append_nil] at heq
        exact ⟨after, heq.symm⟩

/-- A bulk in the bundle. -/
theorem inside_bulk {s : Parser} {buffer stream data rest : List UInt8}
    (h : Feed.Inside At room b after unread ⟨s, buffer, stream⟩) (hbulk : s.bulkRead = true)
    (hdata : data.length = s.nextBytes) (heq : buffer ++ stream = data ++ rest) :
    data.length ≤ unread.length ∧
      (⟨s.bulkDone data, buffer.drop data.length, stream.drop (data.length - buffer.length)⟩ :
        Feed).Inside At room b after (unread.drop data.length) := by
  have hunread : buffer ++ stream = unread ++ after := h.unread
  obtain ⟨hle, hpath⟩ := bulk_path h.path hbulk
  dsimp only at hle hpath
  rw [← hdata] at hle hpath
  have hprefixes : unread.take data.length = data := by
    rw [← List.take_append_of_le_length hle, ← hunread, heq, List.take_left]
  rw [hprefixes] at hpath
  refine ⟨hle, hpath, (delivered_bulkDone s data).trans h.delivered, ?_, ?_⟩
  · have hbuffer : buffer.length ≤ room := h.buffer
    show (buffer.drop data.length).length ≤ room
    rw [List.length_drop]
    omega
  · show buffer.drop data.length ++ stream.drop (data.length - buffer.length) = _
    rw [← List.drop_append, hunread, List.drop_append_of_le_length hle]

theorem receiving_step (hfollows : cbor.Follows At) (hx : x.Receiving At room b after)
    (hstep : Feeds cbor room x y) : y.Receiving At room b after := by
  rcases hx with ⟨unread, hinside⟩ | hdone
  · cases hstep with
    | @receive s buffer piece rest hroom =>
      refine .inl ⟨unread, hinside.path, hinside.delivered, ?_, ?_⟩
      · rw [List.length_append]
        exact hroom
      · rw [List.append_assoc]
        exact hinside.unread
    | parse hgood =>
      rcases inside_parse hfollows hinside with hdone | ⟨hlater, -⟩
      · exact .inr hdone
      · exact .inl ⟨_, hlater⟩
    | bulk hgood hbulk hdata heq => exact .inl ⟨_, (inside_bulk hinside hbulk hdata heq).2⟩
  · obtain ⟨hstatus, hdelivered, hunread⟩ := hdone
    cases hstep with
    | receive hroom =>
      refine .inr ⟨hstatus, hdelivered, ?_⟩
      rw [List.append_assoc]
      exact hunread
    | parse hgood =>
      rw [hgood] at hstatus
      cases hstatus
    | bulk hgood =>
      rw [hgood] at hstatus
      cases hstatus

/-- What is left to be done: bytes are parsed, and a bulk is read. -/
def Feed.left (unread : List UInt8) (x : Feed) : Nat :=
  2 * unread.length + if x.parser.bulkRead then 1 else 0

/-- In the bundle there is something to do. -/
theorem inside_progress (hfollows : cbor.Follows At) (hx : x.Inside At room b after unread) :
    ∃ y, ReflTransGen (Feeds cbor room) x y ∧ (y.Delivered b after ∨
      ∃ unread', y.Inside At room b after unread' ∧ y.left unread' < x.left unread) := by
  obtain ⟨s, buffer, stream⟩ := x
  have hunread : buffer ++ stream = unread ++ after := hx.unread
  have hbuffer : buffer.length ≤ room := hx.buffer
  cases hbulk : s.bulkRead with
  | true =>
    obtain ⟨hle, -⟩ := bulk_path hx.path hbulk
    dsimp only at hle
    have hdata : (unread.take s.nextBytes).length = s.nextBytes := by
      rw [List.length_take]
      omega
    have heq : buffer ++ stream = unread.take s.nextBytes ++ (unread.drop s.nextBytes ++ after) := by
      rw [← List.append_assoc, List.take_append_drop]
      exact hunread
    obtain ⟨hle', hlater⟩ := inside_bulk hx hbulk hdata heq
    refine ⟨_, .single (.bulk hx.path.good hbulk hdata heq), .inr ⟨_, hlater, ?_⟩⟩
    unfold Feed.left
    dsimp only
    rw [bulkRead_bulkDone, hbulk, List.length_drop]
    simp only [if_true, Bool.false_eq_true, if_false]
    omega
  | false =>
    -- the buffer is filled, and the parser called
    generalize hpiece : stream.take (room - buffer.length) = piece
    generalize hrest : stream.drop (room - buffer.length) = rest
    have hstream : piece ++ rest = stream := by
      rw [← hpiece, ← hrest, List.take_append_drop]
    have hroom : buffer.length + piece.length ≤ room := by
      rw [← hpiece, List.length_take]
      omega
    have hfill : Feeds cbor room ⟨s, buffer, stream⟩ ⟨s, buffer ++ piece, rest⟩ := by
      rw [← hstream]
      exact .receive hroom
    have hfilled : Feed.Inside At room b after unread ⟨s, buffer ++ piece, rest⟩ := by
      refine ⟨hx.path, hx.delivered, ?_, ?_⟩
      · rw [List.length_append]
        exact hroom
      · rw [List.append_assoc, hstream]
        exact hunread
    have hrun := (ReflTransGen.single hfill).tail (.parse hx.path.good)
    rcases inside_parse hfollows hfilled with hdone | ⟨hlater, hle, hwaits⟩
    · exact ⟨_, hrun, .inl hdone⟩
    · refine ⟨_, hrun, .inr ⟨_, hlater, ?_⟩⟩
      have htaken : 0 < (bundle7ParserRead cbor s (buffer ++ piece)).2 := by
        by_contra hzero
        obtain ⟨hshort, hmore⟩ := hwaits (by omega) hbulk
        apply hmore
        rw [← hrest]
        apply List.drop_eq_nil_of_le
        have hlength := congrArg List.length hpiece
        rw [List.length_take] at hlength
        rw [List.length_append] at hshort
        omega
      unfold Feed.left
      dsimp only
      rw [hbulk, List.length_drop]
      split <;> simp only [Bool.false_eq_true, if_false] <;> omega

/-- From everywhere in the bundle it can be delivered, by induction on what is left to be done. -/
theorem exists_delivered (hfollows : cbor.Follows At) {n : Nat} (hleft : x.left unread ≤ n)
    (hx : x.Inside At room b after unread) :
    ∃ y, ReflTransGen (Feeds cbor room) x y ∧ y.Delivered b after := by
  induction n generalizing x unread with
  | zero =>
    obtain ⟨y, hrun, hdone | ⟨unread', -, hless⟩⟩ := inside_progress hfollows hx
    · exact ⟨y, hrun, hdone⟩
    · omega
  | succ n ih =>
    obtain ⟨y, hrun, hdone | ⟨unread', hinside, hless⟩⟩ := inside_progress hfollows hx
    · exact ⟨y, hrun, hdone⟩
    · obtain ⟨z, hrest, hdone⟩ := ih (Nat.le_of_lt_succ (Nat.lt_of_lt_of_le hless hleft)) hinside
      exact ⟨z, hrun.trans hrest, hdone⟩

/-- The bytes that `bundle7_serialize` writes are received as the bundle: in every run of a caller
the parser goes on and has delivered nothing, or it has delivered the bundle, once and with its last
byte; and a buffer of this size is enough to come to that. -/
theorem bundle_received (hfollows : cbor.Follows At) (hroom : 28 ≤ room) (h : sent.Sendable room)
    (hserialize : bundle7Serialize checksums sent = some bytes) (hquota : bytes.length ≤ quota)
    (hrun : ReflTransGen (Feeds cbor room) ⟨init quota, [], bytes ++ after⟩ x) :
    (x.Waiting ∨ x.Delivered sent.received after) ∧
      ∃ y, ReflTransGen (Feeds cbor room) x y ∧ y.Delivered sent.received after := by
  have hpath : Path At room sent.received (init quota) bytes :=
    path_bundle hfollows hroom h hserialize hquota
  have hx : x.Receiving At room sent.received after := by
    induction hrun with
    | refl => exact .inl ⟨bytes, hpath, rfl, Nat.zero_le _, rfl⟩
    | tail _ hstep ih => exact receiving_step hfollows ih hstep
  rcases hx with ⟨unread, hinside⟩ | hdone
  · exact ⟨.inl hinside.waiting, exists_delivered hfollows (Nat.le_refl _) hinside⟩
  · exact ⟨.inr hdone, x, .refl, hdone⟩

/-- A fragment with CRCs and an extension block, of which five bytes have arrived, and the first byte
of another bundle behind it. -/
theorem bundle_received_crcBundle : ∃ bytes, bundle7Serialize checksums crcBundle = some bytes ∧
    ∃ y, ReflTransGen (Feeds dataParser 64) ⟨init 100, bytes.take 5, bytes.drop 5 ++ [0x9f]⟩ y ∧
      y.Delivered crcBundle [0x9f] := by
  have hlength : (bundle7Serialize checksums crcBundle).map List.length = some 62 := by
    decide +kernel
  obtain ⟨bytes, hserialize, hbytes⟩ := Option.map_eq_some_iff.mp hlength
  have hfive : 0 + (bytes.take 5).length ≤ 64 := by
    rw [List.length_take]
    omega
  have hrun : ReflTransGen (Feeds dataParser 64) ⟨init 100, [], bytes ++ [0x9f]⟩
      ⟨init 100, bytes.take 5, bytes.drop 5 ++ [0x9f]⟩ := by
    have hstep := @Feeds.receive dataParser 64 (init 100) [] (bytes.take 5) (bytes.drop 5 ++ [0x9f])
      hfive
    rw [← List.append_assoc, List.take_append_drop] at hstep
    exact .single hstep
  have hsendable : crcBundle.Sendable 64 := by
    refine ⟨by decide, by decide, by decide, by decide, by decide, by decide, by decide, ?_,
      [_], _, rfl, rfl, by simp⟩
    intro block hblock
    rcases List.mem_pair.mp hblock with rfl | rfl
    · exact ⟨by decide, by decide, by decide, rfl, by decide, by decide⟩
    · exact ⟨by decide, by decide, by decide, rfl, by decide, by decide⟩
  have hreceived : crcBundle.received = crcBundle := by decide +kernel
  have h := (bundle_received dataParser_follows (by decide) hsendable hserialize (by omega) hrun).2
  rw [hreceived] at h
  exact ⟨bytes, hserialize, h⟩

end Upcn.Bundle7.Parser
