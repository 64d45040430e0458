import Upcn.Bundle7.Reading
import Upcn.Lib.CborReads

/-!
# The way of the BPv7 parser through a bundle

`Path At room b s unread` says that the parser `s` stands before the bytes `unread` of a bundle,
which is then delivered as `b`.  It is a way of items, and of data that are read in bulk.  An item
has its place in a buffer of size `room`, together with the head of the next one.

A call with a buffer that holds any part of these bytes is a part of this way (`read_path`): the
parser is at its end, or it stands before what it did not take.
-/

namespace Upcn.Bundle7.Parser

open Cbor
open Upcn.Bundle7Parser (Stage Loop)

variable {cbor : DataDecoder}

/-! ## Parse functions -/

/-- What is left in its container where a parse function is called with an iterator. -/
def Usable (stage : Stage) (left : Option Nat) : Prop :=
  left ≠ some 0 ∧ (left = none → stage = .primaryBlockStart)

/-- The iterator goes with the stage: it is at the end of its container, or the next parse function
can be called with it. -/
def Fits (At : cbor.Value → Place → Prop) (stage : Stage) (v : cbor.Value) (rest : List UInt8)
    (pos : Nat) : Prop :=
  cbor.atEnd v = true ∨ ∃ left, At v ⟨rest, pos, left⟩ ∧ Usable stage left ∧
    stage ≠ .blockCrc ∧ stage ≠ .bundleEnd

/-- What comes of a parse function that is called before these bytes: the parser is `q` behind
them, or the buffer ends too early, and the function can be called again. -/
inductive Outcome (At : cbor.Value → Place → Prop) (again : Parser → Prop) (q : Parser)
    (bytes : List UInt8) (p : Place) : Parsed cbor → Prop where
  | moved {s : Parser} {v : cbor.Value} (hbytes : bytes <+: p.rest) (hq : s.behind bytes = q)
    (hpos : cbor.nextByte v = p.pos + bytes.length)
    (hfits : Fits At q.parse v (p.rest.drop bytes.length) (p.pos + bytes.length)) :
    Outcome At again q bytes p (s, .ok v)
  | waits {s : Parser} (hagain : again s)
    (hshort : ¬ (bytes <+: p.rest ∧ WholeHead (p.rest.drop bytes.length))) :
    Outcome At again q bytes p (s, .error .unexpectedEOF)

/-- The parse function takes these bytes, before the head of another item, and leads to `q`. -/
structure Takes (At : cbor.Value → Place → Prop) (again : Parser → Prop) (bytes : List UInt8)
    (q : Parser) : Prop where
  good : ∀ s, again s → s.status = .good ∧ s.bulkRead = false
  begins : Begins bytes
  outcome : ∀ s v p later more, again s → At v p → Usable s.parse p.left →
    p.rest ++ later = bytes ++ more → WholeHead more →
    Outcome At again q bytes p (parseStage cbor s v)

/-- The same with an iterator for one item. -/
structure TakesLast (At : cbor.Value → Place → Prop) (again : Parser → Prop)
    (bytes : List UInt8) (q : Parser) : Prop where
  good : ∀ s, again s → s.status = .good ∧ s.bulkRead = false ∧ s.parse = .blockCrc
  begins : Begins bytes
  moves : ∀ s v p, again s → At v p → p.left = some 1 → bytes <+: p.rest →
    ∃ s' v', parseStage cbor s v = (s', .ok v') ∧ s'.behind bytes = q ∧
      cbor.nextByte v' = p.pos + bytes.length ∧ cbor.atEnd v' = true
  waits : ∀ s v p later more, again s → At v p → p.left = some 1 →
    p.rest ++ later = bytes ++ more → ¬ bytes <+: p.rest →
    ∃ s', parseStage cbor s v = (s', .error .unexpectedEOF) ∧ again s'

/-- The parse function takes the head of a byte string, which is then read in bulk. -/
structure TakesHead (At : cbor.Value → Place → Prop) (s : Parser) (bytes : List UInt8)
    (q : Parser) : Prop where
  good : s.status = .good ∧ s.bulkRead = false
  begins : Begins bytes
  outcome : ∀ v p later more, At v p → Usable s.parse p.left → p.rest ++ later = bytes ++ more →
    bytes <+: p.rest ∧ ∃ s' v', parseStage cbor s v = (s', .ok v') ∧ s'.behind bytes = q ∧
      cbor.nextByte v' = p.pos + bytes.length

/-- The parser stands in a bundle, before these bytes of it. -/
inductive Path (At : cbor.Value → Place → Prop) (room : Nat) (b : Bundle) :
    Parser → List UInt8 → Prop where
  | item {s q : Parser} {again : Parser → Prop} {bytes rest : List UInt8}
    {count : Nat} (htakes : Takes At again bytes q) (hs : again s) (hheaded : Headed count rest)
    (hroom : bytes.length + count ≤ room) (hnext : Path At room b q rest) :
    Path At room b s (bytes ++ rest)
  | head {s q : Parser} {bytes rest : List UInt8} (htakes : TakesHead At s bytes q)
    (hbulk : q.bulkRead = true) (hroom : bytes.length ≤ room) (hnext : Path At room b q rest) :
    Path At room b s (bytes ++ rest)
  | bulk {s : Parser} {data rest : List UInt8} (hgood : s.status = .good)
    (hbulk : s.bulkRead = true) (hlength : s.nextBytes = data.length)
    (hclear : ∀ after, noHead (data ++ (rest ++ after)) = false)
    (hnext : Path At room b (s.bulkDone data) rest) : Path At room b s (data ++ rest)
  | last {s q : Parser} {again : Parser → Prop} {bytes rest : List UInt8}
    (htakes : TakesLast At again bytes q) (hs : again s) (hroom : bytes.length ≤ room)
    (hnext : Path At room b q rest) : Path At room b s (bytes ++ rest)
  | stop {s : Parser} (hgood : s.status = .good) (hbulk : s.bulkRead = false)
    (hstage : s.parse = .bundleEnd) (hcrc : s.crcInvalid = false) (hbundle : s.bundle = b)
    (hdelivered : s.delivered = []) (hsize : s.bundleSize < s.bundleQuota) (hroom : 1 ≤ room) :
    Path At room b s [0xff]

variable {At : cbor.Value → Place → Prop} {room : Nat} {b : Bundle} {s q : Parser}
  {unread bytes later after input : List UInt8} {l : Loop cbor.toDecoder}

theorem Path.good (h : Path At room b s unread) : s.status = .good := by
  cases h with
  | item htakes hs => exact (htakes.good s hs).1
  | head htakes => exact htakes.good.1
  | bulk hgood => exact hgood
  | last htakes hs => exact (htakes.good s hs).1
  | stop hgood => exact hgood

/-- What no item begins with is seen in its first bytes. -/
theorem noHead_append (h : noHead (input ++ later) = false) : noHead input = false := by
  cases input with
  | nil => rfl
  | cons byte rest =>
    cases rest with
    | nil =>
      simp only [List.cons_append, List.nil_append, noHead, Bool.or_eq_false_iff] at h ⊢
      refine ⟨h.1, ?_⟩
      simp
    | cons next rest => exact h

/-! ## A call -/

/-- An iterator that is kept from one round to the next. -/
def Kept (At : cbor.Value → Place → Prop) (s : Parser) (l : Loop cbor.toDecoder) : Prop :=
  s.bulkRead = true ∨ ∀ v, l.it = some v → ∃ left,
    At v ⟨l.buffer.drop l.parsed, l.parsed, left⟩ ∧ Usable s.parse left ∧
      s.parse ≠ .blockCrc ∧ s.parse ≠ .bundleEnd

/-- What a call leaves: the bundle is delivered with its last byte, or the parser stands before what
it did not take.  But for a bulk, that is not all there, and there is room for more of it. -/
inductive After (At : cbor.Value → Place → Prop) (room : Nat) (b : Bundle)
    (input unread : List UInt8) (taken : Nat) (s : Parser) : Prop where
  | done (hstatus : s.status = .done) (hdelivered : s.delivered = [b])
    (hall : taken = unread.length) (hle : taken ≤ input.length)
  | on (hpath : Path At room b s (unread.drop taken)) (hle : taken ≤ input.length)
    (hle' : taken ≤ unread.length)
    (hrest : s.bulkRead = true ∨
      ¬ unread.drop taken <+: input.drop taken ∧ input.length < taken + room)

/-- What is left behind some bytes. -/
theorem After.behind {input rest : List UInt8} {taken : Nat} (hle : bytes.length ≤ input.length)
    (h : After At room b (input.drop bytes.length) rest taken s) :
    After At room b input (bytes ++ rest) (bytes.length + taken) s := by
  have hdrop : (bytes ++ rest).drop (bytes.length + taken) = rest.drop taken :=
    List.drop_length_add_append taken
  cases h with
  | done hstatus hdelivered hall hle₁ =>
    rw [List.length_drop] at hle₁
    refine .done hstatus hdelivered ?_ (by omega)
    rw [hall, List.length_append]
  | on hpath hle₁ hle₂ hrest =>
    rw [List.length_drop] at hle₁ hrest
    refine .on ?_ (by omega) ?_ ?_
    · rwa [hdrop]
    · rw [List.length_append]
      omega
    · rw [hdrop, ← List.drop_drop]
      exact hrest.imp_right fun ⟨hnot, hlt⟩ => ⟨hnot, by omega⟩

/-- Nothing is taken. -/
theorem After.stays (hpath : Path At room b s unread)
    (hrest : s.bulkRead = true ∨ ¬ unread <+: input ∧ input.length < room) :
    After At room b input unread 0 s :=
  .on hpath (Nat.zero_le _) (Nat.zero_le _) (by simpa using hrest)

/-- What is not all there is shorter. -/
theorem length_lt (heq : input ++ later = bytes ++ after) (hnot : ¬ bytes <+: input) :
    input.length < bytes.length := by
  by_contra hle
  exact hnot (List.prefix_of_prefix_length_le ⟨after, heq.symm⟩ (List.prefix_append input later)
    (Nat.le_of_not_lt hle))

/-- The iterator of a round, before the head of an item. -/
theorem iterator_spec (hfollows : cbor.Follows At) (hbegins : Begins bytes)
    (heq : l.buffer.drop l.parsed ++ later = bytes ++ after) (hkept : Kept At s l)
    (hbulk : s.bulkRead = false) :
    (l.iterator = .error .unexpectedEOF ∧ CutHead (l.buffer.drop l.parsed)) ∨
      ∃ v left, l.iterator = .ok v ∧ At v ⟨l.buffer.drop l.parsed, l.parsed, left⟩ ∧
        Usable s.parse left ∧ (l.it = none → left = some 1) := by
  unfold Loop.iterator
  cases hit : l.it with
  | some v =>
    rcases hkept with h | h
    · simp [hbulk] at h
    · obtain ⟨left, hat, husable, -⟩ := h v hit
      exact .inr ⟨v, left, rfl, hat, husable, fun h => nomatch h⟩
  | none =>
    have hwhole := hbegins after
    rw [← heq] at hwhole
    rcases hwhole.front with hhead | hcut
    · obtain ⟨v, hinit, hat⟩ := hfollows.init _ l.parsed hhead
      exact .inr ⟨v, some 1, by simp [hinit], hat, ⟨by simp, by simp⟩, fun _ => rfl⟩
    · left
      have hend := hfollows.init_cut _ l.parsed hcut
      refine ⟨?_, hcut⟩
      generalize cbor.init (l.buffer.drop l.parsed) l.parsed = r at hend ⊢
      obtain ⟨err, v⟩ := r
      obtain rfl : err = some .unexpectedEOF := hend
      rfl

/-- A parse function that moves the iterator behind these bytes. -/
theorem transition_moved {v : cbor.Value} (hq : s.behind bytes = q) (hgood : q.status ≠ .error)
    (hpos : cbor.nextByte v = l.parsed + bytes.length)
    (hbytes : bytes <+: l.buffer.drop l.parsed) :
    transition cbor l (s, .ok v) = (q, .again { l with
      parsed := l.parsed + bytes.length
      it := if cbor.atEnd v then none else some v }) := by
  have htake : (l.buffer.drop l.parsed).take (cbor.nextByte v - l.parsed) = bytes := by
    rw [hpos, Nat.add_sub_cancel_left]
    exact (List.prefix_iff_eq_take.mp hbytes).symm
  unfold transition
  dsimp only
  rw [htake, hq, if_neg hgood, hpos]

/-- A round that is not the last one. -/
theorem readRound_of_iterator {v : cbor.Value} (hlt : l.parsed < l.buffer.length)
    (hgood : s.status = .good) (hbulk : s.bulkRead = false) (hiterator : l.iterator = .ok v) :
    readRound cbor s l = transition cbor l (parseStage cbor s v) := by
  unfold readRound
  rw [if_neg (not_not.mpr ⟨hlt, hgood⟩), hiterator]
  dsimp only
  rw [hbulk]
  rfl

/-- A round in which the end of the buffer is reported. -/
theorem readRound_of_end (hiterator : l.iterator = .error .unexpectedEOF) :
    readRound cbor s l = (s, .returned l.parsed) := by
  unfold readRound
  split
  · rfl
  · rw [hiterator]
    rfl

/-- The buffer is used up. -/
theorem readRound_of_empty (h : ¬ l.parsed < l.buffer.length) :
    readRound cbor s l = (s, .returned l.parsed) := by
  unfold readRound
  rw [if_pos fun hnot => h hnot.1]

/-- The iterator of a round in which data are read in bulk. -/
theorem iterator_clear (hfollows : cbor.Follows At)
    (hclear : noHead (l.buffer.drop l.parsed) = false) :
    l.iterator = .error .unexpectedEOF ∨ ∃ v, l.iterator = .ok v := by
  unfold Loop.iterator
  cases l.it with
  | some v => exact .inr ⟨v, rfl⟩
  | none =>
    have hinit := hfollows.init_readable _ l.parsed hclear
    generalize cbor.init (l.buffer.drop l.parsed) l.parsed = r at hinit ⊢
    obtain ⟨err, v⟩ := r
    rcases hinit with h | h | h
    · obtain rfl : err = none := h
      exact .inr ⟨v, rfl⟩
    · obtain rfl : err = some .unexpectedEOF := h
      exact .inl rfl
    · obtain rfl : err = some .unexpectedBreak := h
      exact .inr ⟨v, rfl⟩

/-- No iterator is kept for what is read with one of its own. -/
theorem it_of_kept (hkept : Kept At s l) (hbulk : s.bulkRead = false)
    (hstage : s.parse = .blockCrc ∨ s.parse = .bundleEnd) : l.it = none := by
  rcases hkept with h | h
  · simp [hbulk] at h
  · cases hit : l.it with
    | none => rfl
    | some v =>
      obtain ⟨-, -, -, hcrc, hend⟩ := h v hit
      rcases hstage with h | h
      · exact absurd h hcrc
      · exact absurd h hend

@[simp] theorem bulkRead_bulkDone (s : Parser) (data : List UInt8) :
    (s.bulkDone data).bulkRead = false := by
  unfold bulkDone
  dsimp only
  split <;> rfl

/-- Behind the last byte of a bundle. -/
theorem behind_done (hsize : s.bundleSize < s.bundleQuota) :
    (behind [0xff] { s with status := .done, delivered := [b] }).status = .done ∧
      (behind [0xff] { s with status := .done, delivered := [b] }).delivered = [b] := by
  unfold behind
  dsimp only [List.length_singleton]
  rw [if_neg (Nat.not_lt.mpr hsize)]
  exact ⟨rfl, rfl⟩

/-- The buffer is used up. -/
theorem drop_eq_nil (h : ¬ l.parsed < l.buffer.length) : l.buffer.drop l.parsed = [] :=
  List.drop_eq_nil_of_le (Nat.le_of_not_lt h)

/-- What a call comes to that goes on from here.  One that takes nothing does not begin a bulk. -/
structure Called (At : cbor.Value → Place → Prop) (room : Nat) (b : Bundle)
    (l : Loop cbor.toDecoder) (unread : List UInt8) (bulkRead : Bool) (taken : Nat)
    (result : Parser × Nat) : Prop where
  parsed : result.2 = l.parsed + taken
  after : After At room b (l.buffer.drop l.parsed) unread taken result.1
  begins : taken = 0 → bulkRead = false → result.1.bulkRead = false

/-- The rounds that are needed for the rest of the buffer: a round takes bytes, or it ends a
bulk. -/
def roundsLeft (l : Loop cbor.toDecoder) (s : Parser) : Nat :=
  2 * (l.buffer.length - l.parsed) + if s.bulkRead then 1 else 0

/-- So many rounds are enough from everywhere on the way. -/
def Loops (At : cbor.Value → Place → Prop) (room : Nat) (b : Bundle) (rounds : Nat) : Prop :=
  ∀ s unread l later after, Path At room b s unread → l.parsed ≤ l.buffer.length →
    l.buffer.drop l.parsed ++ later = unread ++ after → Kept At s l → roundsLeft l s < rounds →
    ∃ taken, Called At room b l unread s.bulkRead taken (readLoop cbor rounds s l)

variable {rounds : Nat}

/-- The last round of a call. -/
theorem called_stays {s' : Parser} (hround : readRound cbor s l = (s', .returned l.parsed))
    (hafter : After At room b (l.buffer.drop l.parsed) unread 0 s')
    (hbulk : s.bulkRead = false → s'.bulkRead = false) :
    ∃ taken, Called At room b l unread s.bulkRead taken (readLoop cbor (rounds + 1) s l) := by
  rw [readLoop, hround]
  exact ⟨0, rfl, hafter, fun _ => hbulk⟩

/-- A round in which bytes are taken. -/
theorem called_moves (hloops : Loops At room b rounds) {it : Option cbor.Value}
    (heq : l.buffer.drop l.parsed ++ later = bytes ++ (unread ++ after))
    (hbytes : bytes <+: l.buffer.drop l.parsed) (hparsed : l.parsed ≤ l.buffer.length)
    (hround : readRound cbor s l = (q, .again { l with parsed := l.parsed + bytes.length, it }))
    (hnext : Path At room b q unread)
    (hkept : Kept At q { l with parsed := l.parsed + bytes.length, it })
    (hless : roundsLeft { l with parsed := l.parsed + bytes.length, it } q < rounds)
    (hpos : s.bulkRead = false → 0 < bytes.length) :
    ∃ taken, Called At room b l (bytes ++ unread) s.bulkRead taken
      (readLoop cbor (rounds + 1) s l) := by
  have hle := hbytes.length_le
  have hle' : l.parsed + bytes.length ≤ l.buffer.length := by
    rw [List.length_drop] at hle
    omega
  have hrest : l.buffer.drop (l.parsed + bytes.length) ++ later = unread ++ after := by
    rw [← List.drop_drop]
    obtain ⟨tail, htail⟩ := hbytes
    rw [← htail, List.append_assoc] at heq
    rw [← htail, List.drop_left]
    exact List.append_cancel_left heq
  obtain ⟨taken, hcalled⟩ := hloops q unread _ later after hnext hle' hrest hkept hless
  rw [readLoop, hround]
  refine ⟨bytes.length + taken, ?_, ?_, fun hzero hbulk => ?_⟩
  · have htaken := hcalled.parsed
    dsimp only at htaken ⊢
    omega
  · apply After.behind hle
    rw [List.drop_drop]
    exact hcalled.after
  · have hpositive := hpos hbulk
    omega

/-- Where the buffer is used up. -/
theorem called_empty (hpath : Path At room b s unread) (hroom : 0 < room) (hne : unread ≠ [])
    (hempty : ¬ l.parsed < l.buffer.length) :
    ∃ taken, Called At room b l unread s.bulkRead taken (readLoop cbor (rounds + 1) s l) := by
  have hnil := drop_eq_nil hempty
  refine called_stays (readRound_of_empty hempty) (.stays hpath (.inr ⟨fun hfront => hne ?_, ?_⟩)) id
  · rw [hnil] at hfront
    exact List.prefix_nil.mp hfront
  · rw [hnil]
    exact hroom

/-- Where the head of an item is cut. -/
theorem called_cut (hpath : Path At room b s (bytes ++ unread)) (hroom : bytes.length ≤ room)
    (heq : l.buffer.drop l.parsed ++ later = bytes ++ after) (hbegins : Begins bytes)
    (hend : l.iterator = .error .unexpectedEOF) (hcut : CutHead (l.buffer.drop l.parsed)) :
    ∃ taken, Called At room b l (bytes ++ unread) s.bulkRead taken
      (readLoop cbor (rounds + 1) s l) := by
  refine called_stays (readRound_of_end hend) (.stays hpath (.inr
    ⟨(hbegins.append unread).not_isPrefix hcut, ?_⟩)) id
  have hlt := length_lt heq (hbegins.not_isPrefix hcut)
  omega

/-- A call before an item. -/
theorem called_item (hfollows : cbor.Follows At) (hloops : Loops At room b rounds)
    {again : Parser → Prop} {count : Nat} (htakes : Takes At again bytes q) (hs : again s)
    (hheaded : Headed count unread) (hroom : bytes.length + count ≤ room)
    (hnext : Path At room b q unread) (hparsed : l.parsed ≤ l.buffer.length)
    (heq : l.buffer.drop l.parsed ++ later = bytes ++ (unread ++ after)) (hkept : Kept At s l)
    (hrounds : roundsLeft l s < rounds + 1) :
    ∃ taken, Called At room b l (bytes ++ unread) s.bulkRead taken
      (readLoop cbor (rounds + 1) s l) := by
  obtain ⟨hgood, hbulk⟩ := htakes.good s hs
  have hpos := htakes.begins.length_pos
  have hpath : Path At room b s (bytes ++ unread) := .item htakes hs hheaded hroom hnext
  by_cases hlt : l.parsed < l.buffer.length
  swap
  · exact called_empty hpath (by omega) (htakes.begins.append unread).ne_nil hlt
  rcases iterator_spec hfollows htakes.begins heq hkept hbulk with
    ⟨hend, hcut⟩ | ⟨v, left, hiterator, hat, husable, -⟩
  · exact called_cut hpath (by omega) heq htakes.begins hend hcut
  have hround := readRound_of_iterator hlt hgood hbulk hiterator
  have houtcome := htakes.outcome s v _ later _ hs hat husable heq (hheaded.begins after)
  generalize parseStage cbor s v = r at houtcome hround
  cases houtcome with
  | @moved s' v' hbytes hq hnextByte hfits =>
    rw [transition_moved hq (by simp [hnext.good]) hnextByte hbytes] at hround
    have hle := hbytes.length_le
    refine called_moves hloops heq hbytes hparsed hround hnext (.inr fun w hw => ?_) ?_
      fun _ => hpos
    · rcases hfits with hatEnd | ⟨left', hat', husable', hne⟩
      · simp [hatEnd] at hw
      · dsimp only at hw hat'
        split at hw
        · cases hw
        · obtain rfl := Option.some.inj hw
          rw [List.drop_drop] at hat'
          exact ⟨left', hat', husable', hne⟩
    · unfold roundsLeft at hrounds ⊢
      rw [List.length_drop] at hle
      rw [hbulk] at hrounds
      dsimp only
      split <;> simp at hrounds <;> omega
  | @waits s' hagain' hshort =>
    have hbulk' := (htakes.good s' hagain').2
    refine called_stays hround (.stays (.item htakes hagain' hheaded hroom hnext)
      (.inr ⟨fun hfront => hshort ?_, ?_⟩)) fun _ => hbulk'
    · obtain ⟨tail, htail⟩ := hfront
      rw [← htail, List.append_assoc, List.drop_left]
      exact ⟨List.prefix_append _ _, hheaded.begins tail⟩
    · by_contra hfull
      apply hshort
      have hbytes : bytes <+: l.buffer.drop l.parsed := by
        by_contra hnot
        have hlength := length_lt heq hnot
        omega
      have hlong : count ≤ ((l.buffer.drop l.parsed).drop bytes.length).length := by
        rw [List.length_drop]
        omega
      exact ⟨hbytes, hheaded.whole (drop_append hbytes heq) hlong⟩

/-- A call before the head of a byte string that is read in bulk. -/
theorem called_head (hfollows : cbor.Follows At) (hloops : Loops At room b rounds)
    (htakes : TakesHead At s bytes q) (hbulk' : q.bulkRead = true) (hroom : bytes.length ≤ room)
    (hnext : Path At room b q unread) (hparsed : l.parsed ≤ l.buffer.length)
    (heq : l.buffer.drop l.parsed ++ later = bytes ++ (unread ++ after)) (hkept : Kept At s l)
    (hrounds : roundsLeft l s < rounds + 1) :
    ∃ taken, Called At room b l (bytes ++ unread) s.bulkRead taken
      (readLoop cbor (rounds + 1) s l) := by
  obtain ⟨hgood, hbulk⟩ := htakes.good
  have hpos := htakes.begins.length_pos
  have hpath : Path At room b s (bytes ++ unread) := .head htakes hbulk' hroom hnext
  by_cases hlt : l.parsed < l.buffer.length
  swap
  · exact called_empty hpath (by omega) (htakes.begins.append unread).ne_nil hlt
  rcases iterator_spec hfollows htakes.begins heq hkept hbulk with
    ⟨hend, hcut⟩ | ⟨v, left, hiterator, hat, husable, -⟩
  · exact called_cut hpath hroom heq htakes.begins hend hcut
  have hround := readRound_of_iterator hlt hgood hbulk hiterator
  obtain ⟨hbytes, s', v', hstage, hq, hnextByte⟩ := htakes.outcome v _ later _ hat husable heq
  rw [hstage, transition_moved hq (by simp [hnext.good]) hnextByte hbytes] at hround
  have hle := hbytes.length_le
  refine called_moves hloops heq hbytes hparsed hround hnext (.inl hbulk') ?_ fun _ => hpos
  unfold roundsLeft at hrounds ⊢
  rw [List.length_drop] at hle
  rw [hbulk] at hrounds
  rw [hbulk']
  simp at hrounds ⊢
  omega

/-- A call before data that are read in bulk. -/
theorem called_bulk (hfollows : cbor.Follows At) (hloops : Loops At room b rounds)
    {data : List UInt8} (hgood : s.status = .good) (hbulk : s.bulkRead = true)
    (hlength : s.nextBytes = data.length)
    (hclear : ∀ after, noHead (data ++ (unread ++ after)) = false)
    (hnext : Path At room b (s.bulkDone data) unread) (hparsed : l.parsed ≤ l.buffer.length)
    (heq : l.buffer.drop l.parsed ++ later = data ++ (unread ++ after))
    (hrounds : roundsLeft l s < rounds + 1) :
    ∃ taken, Called At room b l (data ++ unread) s.bulkRead taken
      (readLoop cbor (rounds + 1) s l) := by
  have hwaits : After At room b (l.buffer.drop l.parsed) (data ++ unread) 0 s :=
    .stays (.bulk hgood hbulk hlength hclear hnext) (.inl hbulk)
  by_cases hlt : l.parsed < l.buffer.length
  swap
  · exact called_stays (readRound_of_empty hlt) hwaits id
  have hhead : noHead (l.buffer.drop l.parsed) = false := by
    apply noHead_append
    rw [heq]
    exact hclear after
  rcases iterator_clear hfollows hhead with hend | ⟨v, hiterator⟩
  · exact called_stays (readRound_of_end hend) hwaits id
  have hround : readRound cbor s l =
      if l.buffer.length < l.parsed + s.nextBytes then (s, .returned l.parsed)
      else (s.bulkDone ((l.buffer.drop l.parsed).take s.nextBytes),
        .again { l with parsed := l.parsed + s.nextBytes, it := none }) := by
    unfold readRound
    rw [if_neg (not_not.mpr ⟨hlt, hgood⟩), hiterator]
    show (if s.bulkRead then _ else _) = _
    rw [if_pos hbulk]
  by_cases hshort : l.buffer.length < l.parsed + s.nextBytes
  · rw [if_pos hshort] at hround
    exact called_stays hround hwaits id
  · have hdata : data <+: l.buffer.drop l.parsed := by
      by_contra hnot
      have hlt' := length_lt heq hnot
      rw [List.length_drop] at hlt'
      omega
    rw [if_neg hshort, hlength, ← List.prefix_iff_eq_take.mp hdata] at hround
    refine called_moves hloops heq hdata hparsed hround hnext (.inr fun w hw => nomatch hw) ?_
      fun hnot => ?_
    · unfold roundsLeft at hrounds ⊢
      rw [bulkRead_bulkDone]
      rw [hbulk] at hrounds
      simp at hrounds ⊢
      omega
    · rw [hbulk] at hnot
      cases hnot

/-- A call before what is read with an iterator for one item. -/
theorem called_last (hfollows : cbor.Follows At) (hloops : Loops At room b rounds)
    {again : Parser → Prop} (htakes : TakesLast At again bytes q) (hs : again s)
    (hroom : bytes.length ≤ room) (hnext : Path At room b q unread)
    (hparsed : l.parsed ≤ l.buffer.length)
    (heq : l.buffer.drop l.parsed ++ later = bytes ++ (unread ++ after)) (hkept : Kept At s l)
    (hrounds : roundsLeft l s < rounds + 1) :
    ∃ taken, Called At room b l (bytes ++ unread) s.bulkRead taken
      (readLoop cbor (rounds + 1) s l) := by
  obtain ⟨hgood, hbulk, hstage⟩ := htakes.good s hs
  have hpos := htakes.begins.length_pos
  have hpath : Path At room b s (bytes ++ unread) := .last htakes hs hroom hnext
  by_cases hlt : l.parsed < l.buffer.length
  swap
  · exact called_empty hpath (by omega) (htakes.begins.append unread).ne_nil hlt
  have hfresh := it_of_kept hkept hbulk (.inl hstage)
  rcases iterator_spec hfollows htakes.begins heq hkept hbulk with
    ⟨hend, hcut⟩ | ⟨v, left, hiterator, hat, -, hone⟩
  · exact called_cut hpath hroom heq htakes.begins hend hcut
  have hround := readRound_of_iterator hlt hgood hbulk hiterator
  by_cases hbytes : bytes <+: l.buffer.drop l.parsed
  · obtain ⟨s', v', hparse, hq, hnextByte, hatEnd⟩ :=
      htakes.moves s v _ hs hat (hone hfresh) hbytes
    rw [hparse, transition_moved hq (by simp [hnext.good]) hnextByte hbytes, hatEnd] at hround
    have hle := hbytes.length_le
    refine called_moves hloops heq hbytes hparsed hround hnext (.inr fun w hw => nomatch hw) ?_
      fun _ => hpos
    unfold roundsLeft at hrounds ⊢
    rw [List.length_drop] at hle
    rw [hbulk] at hrounds
    dsimp only
    split <;> simp at hrounds <;> omega
  · obtain ⟨s', hparse, hagain'⟩ := htakes.waits s v _ later _ hs hat (hone hfresh) heq hbytes
    rw [hparse] at hround
    have hlength := length_lt heq hbytes
    exact called_stays hround (.stays (.last htakes hagain' hroom hnext)
      (.inr ⟨fun hfront => hbytes ((List.prefix_append _ _).trans hfront), by omega⟩))
      fun _ => (htakes.good s' hagain').2.1

/-- A call before the end of the bundle. -/
theorem called_stop (hfollows : cbor.Follows At) (hpath : Path At room b s [0xff])
    (hgood : s.status = .good) (hbulk : s.bulkRead = false) (hstage : s.parse = .bundleEnd)
    (hcrc : s.crcInvalid = false) (hbundle : s.bundle = b) (hdelivered : s.delivered = [])
    (hsize : s.bundleSize < s.bundleQuota) (hroom : 1 ≤ room)
    (heq : l.buffer.drop l.parsed ++ later = [0xff] ++ after) (hkept : Kept At s l)
    (hrounds : roundsLeft l s < rounds + 1) :
    ∃ taken, Called At room b l [0xff] s.bulkRead taken (readLoop cbor (rounds + 1) s l) := by
  by_cases hlt : l.parsed < l.buffer.length
  swap
  · exact called_empty hpath hroom (by simp) hlt
  have hfresh := it_of_kept hkept hbulk (.inr hstage)
  obtain ⟨tail, hrest⟩ : ∃ tail, l.buffer.drop l.parsed = 0xff :: tail := by
    cases hdrop : l.buffer.drop l.parsed with
    | nil =>
      have hnil := congrArg List.length hdrop
      rw [List.length_drop, List.length_nil] at hnil
      omega
    | cons byte tail =>
      rw [hdrop] at heq
      exact ⟨tail, by rw [(List.cons.inj heq).1]⟩
  obtain ⟨v, hinit, hbyte, hnextByte⟩ := hfollows.init_break tail l.parsed
  have hiterator : l.iterator = .ok v := by
    unfold Loop.iterator
    rw [hfresh, hrest]
    dsimp only
    rw [hinit]
  have hparse : parseStage cbor s v =
      ({ s with status := .done, delivered := [b] }, .ok (cbor.skipByte v)) := by
    rw [parseStage, hstage]
    simp [bundleEnd, hbyte, hcrc, hbundle, hdelivered, hstage]
  obtain ⟨hdone, hdelivers⟩ := behind_done (s := s) (b := b) hsize
  have hround := readRound_of_iterator hlt hgood hbulk hiterator
  have hmark : [0xff] <+: l.buffer.drop l.parsed := ⟨tail, hrest.symm⟩
  rw [hparse, transition_moved rfl (by rw [hdone]; decide) hnextByte hmark] at hround
  rw [readLoop, hround]
  obtain ⟨rounds, rfl⟩ : ∃ n, rounds = n + 1 := ⟨rounds - 1, by
    unfold roundsLeft at hrounds
    omega⟩
  show ∃ taken, Called At room b l [0xff] s.bulkRead taken (readLoop cbor (rounds + 1) _ _)
  rw [readLoop, readRound, if_pos fun h => by rw [hdone] at h; cases h.2]
  exact ⟨1, rfl, .done hdone hdelivers rfl hmark.length_le, fun h => by cases h⟩

/-- By induction on the rounds that are left: a call that stands in a bundle is a part of its
way. -/
theorem loops (hfollows : cbor.Follows At) (rounds : Nat) : Loops At room b rounds := by
  induction rounds with
  | zero => exact fun _ _ _ _ _ _ _ _ _ hrounds => absurd hrounds (Nat.not_lt_zero _)
  | succ rounds ih =>
    intro s unread l later after hpath hparsed heq hkept hrounds
    cases hpath with
    | item htakes hs hheaded hroom hnext =>
      rw [List.append_assoc] at heq
      exact called_item hfollows ih htakes hs hheaded hroom hnext hparsed heq hkept hrounds
    | head htakes hbulk hroom hnext =>
      rw [List.append_assoc] at heq
      exact called_head hfollows ih htakes hbulk hroom hnext hparsed heq hkept hrounds
    | bulk hgood hbulk hlength hclear hnext =>
      rw [List.append_assoc] at heq
      exact called_bulk hfollows ih hgood hbulk hlength hclear hnext hparsed heq hrounds
    | last htakes hs hroom hnext =>
      rw [List.append_assoc] at heq
      exact called_last hfollows ih htakes hs hroom hnext hparsed heq hkept hrounds
    | stop hgood hbulk hstage hcrc hbundle hdelivered hsize hroom =>
      exact called_stop hfollows
        (.stop hgood hbulk hstage hcrc hbundle hdelivered hsize hroom) hgood hbulk hstage hcrc
        hbundle hdelivered hsize hroom heq hkept hrounds

/-- A call in a bundle, with a buffer that holds any part of what is unread. -/
theorem read_path (hfollows : cbor.Follows At) (hpath : Path At room b s unread)
    (heq : input ++ later = unread ++ after) :
    After At room b input unread (bundle7ParserRead cbor s input).2
        (bundle7ParserRead cbor s input).1 ∧
      ((bundle7ParserRead cbor s input).2 = 0 → s.bulkRead = false →
        (bundle7ParserRead cbor s input).1.bulkRead = false) := by
  obtain ⟨taken, hcalled⟩ := loops hfollows (2 * input.length + 2) s unread ⟨input, 0, none⟩ later
    after hpath (Nat.zero_le _) heq (.inr fun v hv => nomatch hv) (by
      unfold roundsLeft
      dsimp only
      split <;> omega)
  have htaken : (bundle7ParserRead cbor s input).2 = taken := by
    have hparsed := hcalled.parsed
    rw [Nat.zero_add] at hparsed
    exact hparsed
  rw [htaken]
  exact ⟨hcalled.after, hcalled.begins⟩

/-- A bulk that was read by the caller. -/
theorem bulk_path (hpath : Path At room b s unread) (hbulk : s.bulkRead = true) :
    s.nextBytes ≤ unread.length ∧
      Path At room b (s.bulkDone (unread.take s.nextBytes)) (unread.drop s.nextBytes) := by
  cases hpath with
  | item htakes hs => simp [(htakes.good s hs).2] at hbulk
  | head htakes => simp [htakes.good.2] at hbulk
  | @bulk _ data rest _ _ hlength _ hnext =>
    rw [hlength, List.take_left, List.drop_left, List.length_append]
    exact ⟨Nat.le_add_right _ _, hnext⟩
  | last htakes hs => simp [(htakes.good s hs).2.1] at hbulk
  | stop _ hnot => simp [hnot] at hbulk

end Upcn.Bundle7.Parser
