import Upcn.Bundle6.Sdnv
import Upcn.Tcpclv3.Link
import Mathlib.Logic.Relation

/-!
# Segments one after the other

A stream of data segments, and where the link stands in it.  `Follows` and `Clean` say what
a bundle parser has to make of the content of a segment, so that the frame parser finds
the next one: it comes to an end with the last byte, or leaves only bytes that do not look
like the beginning of a segment.
-/

namespace Upcn.Tcpclv3

open Upcn.Bundle6 (ParserStatus SdnvState sdnvReadU32)

variable {σ β : Type} {P : Version → BundleParser σ β}

/-! ## Segments -/

/-- The value of the bytes of an SDNV. -/
def sdnvValue (bytes : List UInt8) : Nat :=
  bytes.foldl (fun value byte => value * 2 ^ 7 + byte.toNat % 2 ^ 7) 0

/-- The bytes are an SDNV of a number of 32 bits. -/
structure IsSdnv (bytes : List UInt8) (value : Nat) : Prop where
  shape : ∃ init last, bytes = init ++ [last] ∧ (∀ byte ∈ init, 2 ^ 7 ≤ byte.toNat) ∧
    last.toNat < 2 ^ 7
  length : bytes.length ≤ 5
  eq : sdnvValue bytes = value
  lt : value < 2 ^ 32

/-- A data segment. -/
structure Segment where
  typeByte : UInt8
  size : List UInt8
  content : List UInt8
  deriving DecidableEq

/-- The segment is correctly framed. -/
structure Segment.WellFramed (seg : Segment) : Prop where
  typeByte : startsSegment seg.typeByte = true
  size : IsSdnv seg.size seg.content.length

/-- The bytes of the segment. -/
def Segment.bytes (seg : Segment) : List UInt8 := seg.typeByte :: (seg.size ++ seg.content)

/-- The bytes of the segments. -/
def stream (segs : List Segment) : List UInt8 := segs.flatMap Segment.bytes

/-! ## What a bundle parser makes of a content -/

/-- No byte of the list begins a segment. -/
def Skipped (bytes : List UInt8) : Prop := ∀ byte ∈ bytes, startsSegment byte = false

/-- What may come of a call: `unread` were the bytes of the content before it, of which
`fragment_size` counts `slack` too many, and `out` are the bundles to be delivered from
them.  `R` holds of the states from which the parser goes on. -/
inductive Outcome (p : BundleParser σ β) (R : σ → List UInt8 → Nat → List β → Prop)
    (unread : List UInt8) (slack : Nat) (out : List β) (length : Nat)
    (result : ParserResult σ β) : Prop where
  | finished (hconsumed : result.consumed ≤ unread.length)
      (hend : p.status result.parser ≠ .good ∨ slack = 0 ∧ result.consumed = unread.length)
      (hskip : Skipped (unread.drop result.consumed)) (hout : out = result.delivered)
  | goesOn (later : List β) (hout : out = result.delivered ++ later)
      (hafter : R result.parser (unread.drop result.consumed) slack later)
      (hbulk : ∀ n, p.bulkRead result.parser = some n →
        length < result.consumed + n ∨ result.consumed = length)

/-- `R` describes how the parser goes through the rest of a content. -/
structure Follows (p : BundleParser σ β) (R : σ → List UInt8 → Nat → List β → Prop) :
    Prop where
  good : ∀ {s unread slack out}, R s unread slack out → p.status s = .good
  unread : ∀ {s unread slack out}, R s unread slack out → unread ≠ []
  /-- A call with any piece of what is not read. -/
  read : ∀ {s unread slack out}, R s unread slack out → p.bulkRead s = none →
    ∀ piece rest after, piece ≠ [] → piece ++ rest = unread ++ after →
      piece.length ≤ unread.length + slack →
      (p.read s piece).consumed ≤ piece.length ∧
      Outcome p R unread slack out piece.length (p.read s piece) ∧
      (claRxBufferSize ≤ piece.length ∨ unread.length ≤ piece.length →
        0 < (p.read s piece).consumed)
  /-- A bulk that is in the content. -/
  bulk : ∀ {s unread slack out n}, R s unread slack out → p.bulkRead s = some n →
    n ≤ unread.length ∧
    (p.status (p.readBulk s (unread.take n)).parser ≠ .good ∧ Skipped (unread.drop n) ∧
      out = (p.readBulk s (unread.take n)).delivered ∨
    ∃ later, out = (p.readBulk s (unread.take n)).delivered ++ later ∧
      R (p.readBulk s (unread.take n)).parser (unread.drop n) (slack + n) later ∧
      p.bulkRead (p.readBulk s (unread.take n)).parser = none)

/-- The first call gets more than the byte that a BPv7 bundle begins with. -/
def Enough (piece content : List UInt8) : Prop :=
  content.head? = some 0x9f → content.length ≠ 1 → piece.length ≠ 1

/-- A parser that was reset goes through the content, and delivers these bundles from
it. -/
def Clean (P : Version → BundleParser σ β) (content : List UInt8) (out : List β) : Prop :=
  content ≠ [] ∧ ∃ v R, content.head?.bind Link.versionOf = some v ∧ Follows (P v) R ∧
    ∀ s piece rest, piece ≠ [] → piece ++ rest = content → Enough piece content →
      ((P v).read ((P v).reset s) piece).consumed ≤ piece.length ∧
      0 < ((P v).read ((P v).reset s) piece).consumed ∧
      Outcome (P v) R content 0 out piece.length ((P v).read ((P v).reset s) piece)

/-- What is not received yet does not begin right behind the first byte of a BPv7
bundle. -/
def NotCut (segs : List Segment) (unreceived : List UInt8) : Prop :=
  ∀ done seg todo, segs = done ++ seg :: todo → seg.content.head? = some 0x9f →
    seg.content.length ≠ 1 → unreceived ≠ seg.content.tail ++ stream todo

/-! ## Where the link stands -/

/-- Nothing of a bundle is parsed yet. -/
structure Link.Fresh (P : Version → BundleParser σ β) (l : Link σ β) : Prop where
  status : l.status = .good
  payloadType : l.payloadType = none
  curParser : l.curParser = none
  parsers : ∀ v, ∃ s, l.parsers v = (P v).reset s

/-- The link stands in the stream: so much is not parsed, and these bundles are to be
delivered from it. -/
inductive At (P : Version → BundleParser σ β) (segs : List Segment) (outs : Segment → List β) :
    Link σ β → List UInt8 → List β → Prop where
  | idle {l : Link σ β} (done todo : List Segment) {skip : List UInt8}
      (hsegs : segs = done ++ todo) (hskip : Skipped skip) (hfresh : l.Fresh P)
      (hstage : l.stage = .expectTypeFlags) (hsdnv : l.sdnvState = .reset) :
      At P segs outs l (skip ++ stream todo) (todo.flatMap outs)
  | size {l : Link σ β} (done : List Segment) (seg : Segment) (todo : List Segment)
      {pre post : List UInt8} (hsegs : segs = done ++ seg :: todo) (hfresh : l.Fresh P)
      (hstage : l.stage = .getSize) (htype : l.type = .dataSegment)
      (hsize : seg.size = pre ++ post) (hpost : post ≠ [])
      (hsdnv : l.sdnvState = ⟨.inProgress, pre.length⟩)
      (hvalue : pre ≠ [] → l.fragmentSize = sdnvValue pre) :
      At P segs outs l (post ++ (seg.content ++ stream todo)) ((seg :: todo).flatMap outs)
  | start {l : Link σ β} (done : List Segment) (seg : Segment) (todo : List Segment)
      (hsegs : segs = done ++ seg :: todo) (hfresh : l.Fresh P)
      (hstage : l.stage = .forwardBundle) (hsdnv : l.sdnvState = .reset)
      (hvalue : l.fragmentSize = seg.content.length) :
      At P segs outs l (seg.content ++ stream todo) ((seg :: todo).flatMap outs)
  | inside {l : Link σ β} (done todo : List Segment) {v : Version}
      {R : σ → List UInt8 → Nat → List β → Prop} {unread : List UInt8} {slack : Nat}
      {out : List β} (hsegs : segs = done ++ todo) (hfollows : Follows (P v) R)
      (hreads : R (l.parsers v) unread slack out) (hstage : l.stage = .forwardBundle)
      (hsdnv : l.sdnvState = .reset) (hpayload : l.payloadType = some v)
      (hcur : l.curParser = some v) (hvalue : l.fragmentSize = unread.length + slack) :
      At P segs outs l (unread ++ stream todo) (out ++ todo.flatMap outs)

/-! ## Reading a frame header -/

theorem sdnvValue_append (bytes : List UInt8) (byte : UInt8) :
    sdnvValue (bytes ++ [byte]) = sdnvValue bytes * 2 ^ 7 + byte.toNat % 2 ^ 7 := by
  simp [sdnvValue]

theorem sdnvValue_le_append (pre post : List UInt8) :
    sdnvValue pre ≤ sdnvValue (pre ++ post) := by
  induction post generalizing pre with
  | nil => exact Nat.le_of_eq (congrArg sdnvValue (List.append_nil pre).symm)
  | cons byte post ih =>
    have hrest := ih (pre ++ [byte])
    rw [sdnvValue_append, List.append_assoc, List.singleton_append] at hrest
    omega

variable {segs : List Segment} {outs : Segment → List β} {l : Link σ β} {seg : Segment}
  {byte : UInt8} {pre post unread : List UInt8} {out : List β}

/-- A byte of the size is read. -/
theorem sdnvRead_size {value size : Nat} (hsize : IsSdnv (pre ++ byte :: post) size)
    (hvalue : pre ≠ [] → value = sdnvValue pre) :
    sdnvReadU32 ⟨.inProgress, pre.length⟩ value byte =
      (⟨if byte.toNat < 2 ^ 7 then .done else .inProgress, pre.length + 1⟩,
        sdnvValue (pre ++ [byte])) := by
  have hlength := hsize.length
  rw [List.length_append, List.length_cons] at hlength
  have hle := sdnvValue_le_append (pre ++ [byte]) post
  rw [List.append_assoc, List.singleton_append, hsize.eq, sdnvValue_append] at hle
  have hlt := hsize.lt
  have hzero : pre.length = 0 → sdnvValue pre = 0 := fun h => by
    rw [List.eq_nil_of_length_eq_zero h]
    rfl
  have hmultiple : pre.length ≠ 0 → value = sdnvValue pre := fun h =>
    hvalue fun hnil => h (by rw [hnil]; rfl)
  rw [sdnvReadU32, Bundle6.sdnvReadGeneric_of_fits, sdnvValue_append]
  · by_cases h : pre.length = 0
    · rw [if_pos h, hzero h, Nat.zero_mul]
    · rw [if_neg h, hmultiple h]
  · by_cases h : pre.length = 0
    · left
      omega
    · have := hmultiple h
      omega
  · intro h
    have := hmultiple h
    omega

/-- The bytes of a size that is not at its end have the top bit. -/
theorem IsSdnv.topBit {value : Nat} (hsize : IsSdnv (pre ++ byte :: post) value) :
    (post ≠ [] → ¬ byte.toNat < 2 ^ 7) ∧ (post = [] → byte.toNat < 2 ^ 7) := by
  obtain ⟨init, last, hsplit, hinit, hlast⟩ := hsize.shape
  constructor
  · intro hpost
    have hmem : byte ∈ init := by
      have hdrop := congrArg List.dropLast hsplit
      rw [List.dropLast_concat, List.dropLast_append_of_ne_nil (by simp),
        List.dropLast_cons_of_ne_nil hpost] at hdrop
      rw [← hdrop]
      simp
    have hge := hinit byte hmem
    omega
  · rintro rfl
    obtain ⟨-, hbyte⟩ := List.append_inj' hsplit rfl
    obtain ⟨rfl, -⟩ := List.cons.inj hbyte
    exact hlast

/-- One byte of a header. -/
theorem At.readByte (hframed : ∀ seg ∈ segs, seg.WellFramed)
    (h : At P segs outs l (byte :: unread) out) (hstage : l.stage ≠ .forwardBundle) :
    At P segs outs (l.tcpclv3ParserReadByte byte) unread out ∧
      (l.tcpclv3ParserReadByte byte).Fresh P ∧
      (l.tcpclv3ParserReadByte byte).delivered = l.delivered := by
  generalize hbytes : byte :: unread = bytes at h
  cases h with
  | start done seg todo hsegs hfresh hforward => exact absurd hforward hstage
  | inside done todo hsegs hfollows hreads hforward => exact absurd hforward hstage
  | @idle done todo skip hsegs hskip hfresh htype hsdnv =>
    cases skip with
    | cons first skip =>
      -- the byte is skipped, and the parser reset
      obtain ⟨rfl, rfl⟩ := List.cons.inj hbytes
      have hfirst := hskip byte List.mem_cons_self
      have hread : l.tcpclv3ParserReadByte byte = { l with status := .error }.tcpclv3ParserReset := by
        rw [Link.tcpclv3ParserReadByte, htype]
        simp [hfirst]
      have hfresh' : { l with status := .error }.tcpclv3ParserReset.Fresh P :=
        ⟨rfl, hfresh.payloadType, hfresh.curParser, hfresh.parsers⟩
      rw [hread]
      exact ⟨.idle done todo hsegs (fun b hb => hskip b (List.mem_cons_of_mem _ hb)) hfresh' rfl
        hsdnv, hfresh', rfl⟩
    | nil =>
      cases todo with
      | nil => cases hbytes
      | cons seg todo =>
        obtain ⟨rfl, rfl⟩ := List.cons.inj hbytes
        have hseg := hframed seg (by rw [hsegs]; simp)
        have hread : l.tcpclv3ParserReadByte seg.typeByte =
            { l with type := .dataSegment, stage := .getSize } := by
          rw [Link.tcpclv3ParserReadByte, htype]
          simp [hseg.typeByte]
        have hne : seg.size ≠ [] := by
          obtain ⟨init, last, hsplit, -⟩ := hseg.size.shape
          rw [hsplit]
          simp
        have hfresh' : { l with type := .dataSegment, stage := .getSize }.Fresh P :=
          ⟨hfresh.status, hfresh.payloadType, hfresh.curParser, hfresh.parsers⟩
        rw [hread]
        refine ⟨?_, hfresh', rfl⟩
        show At P segs outs { l with type := .dataSegment, stage := .getSize }
          ((seg.size ++ seg.content) ++ stream todo) ((seg :: todo).flatMap outs)
        rw [List.append_assoc]
        exact .size done seg todo hsegs hfresh' rfl rfl (List.nil_append _).symm hne hsdnv
          fun h => absurd rfl h
  | @size done seg todo pre post hsegs hfresh hget htype hsize hpost hsdnv hvalue =>
    have hseg := hframed seg (by rw [hsegs]; simp)
    cases post with
    | nil => exact absurd rfl hpost
    | cons first post =>
      obtain ⟨rfl, rfl⟩ := List.cons.inj hbytes
      have hsdnvSize := hseg.size
      rw [hsize] at hsdnvSize
      have hvalue' := sdnvRead_size hsdnvSize hvalue
      obtain ⟨hinit, hlast⟩ := hsdnvSize.topBit
      by_cases hend : post = []
      · -- the last byte of the size
        subst hend
        rw [if_pos (hlast rfl)] at hvalue'
        have hread : l.tcpclv3ParserReadByte byte =
            { l with
              sdnvState := .reset
              fragmentSize := sdnvValue (pre ++ [byte])
              stage := .forwardBundle } := by
          rw [Link.tcpclv3ParserReadByte, hget, hsdnv, hvalue']
          simp [htype]
        have hfresh' : (l.tcpclv3ParserReadByte byte).Fresh P := by
          rw [hread]
          exact ⟨hfresh.status, hfresh.payloadType, hfresh.curParser, hfresh.parsers⟩
        refine ⟨.start done seg todo hsegs hfresh' ?_ ?_ ?_, hfresh', ?_⟩
        all_goals rw [hread]
        exact hsdnvSize.eq
      · rw [if_neg (hinit hend)] at hvalue'
        have hread : l.tcpclv3ParserReadByte byte =
            { l with
              sdnvState := ⟨.inProgress, pre.length + 1⟩
              fragmentSize := sdnvValue (pre ++ [byte]) } := by
          rw [Link.tcpclv3ParserReadByte, hget, hsdnv, hvalue']
        have hsplit : seg.size = (pre ++ [byte]) ++ post := by
          rw [hsize, List.append_assoc]
          rfl
        have hfresh' : (l.tcpclv3ParserReadByte byte).Fresh P := by
          rw [hread]
          exact ⟨hfresh.status, hfresh.payloadType, hfresh.curParser, hfresh.parsers⟩
        refine ⟨.size done seg todo hsegs hfresh' ?_ ?_ hsplit hend ?_ fun _ => ?_, hfresh', ?_⟩
        all_goals rw [hread]
        · exact hget
        · exact htype
        · rw [List.length_append]
          rfl

/-- A link that reads a header, or is at its end, has parsed nothing of a bundle. -/
theorem At.fresh (h : At P segs outs l unread out) (hstage : l.stage ≠ .forwardBundle) :
    l.Fresh P := by
  cases h with
  | idle done todo hsegs hskip hfresh => exact hfresh
  | size done seg todo hsegs hfresh => exact hfresh
  | start done seg todo hsegs hfresh => exact hfresh
  | inside done todo hsegs hfollows hreads hforward => exact absurd hforward hstage

theorem Link.tcpclv3ParserRead_forward (hstage : l.stage = .forwardBundle)
    (input : List UInt8) : l.tcpclv3ParserRead input = (l, 0) := by
  cases input with
  | nil => rfl
  | cons byte input => rw [Link.tcpclv3ParserRead, if_neg fun h => h.2 hstage]

/-- A call of the frame parser takes the link on, by a byte at least. -/
theorem At.readHeader (hframed : ∀ seg ∈ segs, seg.WellFramed) {input rest : List UInt8}
    (h : At P segs outs l (input ++ rest) out) (hstage : l.stage ≠ .forwardBundle) :
    ∃ l' n, l.tcpclv3ParserRead input = (l', n) ∧ n ≤ input.length ∧ (input ≠ [] → 0 < n) ∧
      At P segs outs l' (input.drop n ++ rest) out ∧ l'.Fresh P ∧
      l'.delivered = l.delivered := by
  induction input generalizing l with
  | nil => exact ⟨l, 0, rfl, Nat.le_refl 0, fun hne => absurd rfl hne, h, h.fresh hstage, rfl⟩
  | cons byte input ih =>
    have hfresh := h.fresh hstage
    obtain ⟨hat, hfresh', hdelivered⟩ := At.readByte hframed h hstage
    rw [Link.tcpclv3ParserRead, if_pos ⟨hfresh.status, hstage⟩]
    by_cases hforward : (l.tcpclv3ParserReadByte byte).stage = .forwardBundle
    · rw [Link.tcpclv3ParserRead_forward hforward]
      exact ⟨_, 1, rfl, Nat.succ_pos _, fun _ => Nat.one_pos, hat, hfresh', hdelivered⟩
    · obtain ⟨l', n, hread, hn, -, hat', hfresh'', hdelivered'⟩ := ih hat hforward
      rw [hread]
      exact ⟨l', n + 1, rfl, Nat.succ_le_succ hn, fun _ => Nat.succ_pos n, hat', hfresh'',
        hdelivered'.trans hdelivered⟩

/-! ## Forwarding -/

theorem Link.resetParsers_fresh (P : Version → BundleParser σ β) (l : Link σ β) :
    (l.resetParsers P).Fresh P := ⟨rfl, rfl, rfl, fun v => ⟨l.parsers v, rfl⟩⟩

theorem Link.Fresh.curStatus (h : l.Fresh P) : l.curStatus P = .good := by
  rw [Link.curStatus, h.curParser]
  exact h.status

theorem Link.Fresh.curBulk (h : l.Fresh P) : l.curBulk P = none := by
  rw [Link.curBulk, h.curParser]

/-- After a reset, the link looks for the next segment. -/
theorem at_resetParsers {done todo : List Segment} {skip : List UInt8}
    (hsegs : segs = done ++ todo) (hskip : Skipped skip) (hsdnv : l.sdnvState = .reset) :
    At P segs outs (l.resetParsers P) (skip ++ stream todo) (todo.flatMap outs) :=
  .idle done todo hsegs hskip (l.resetParsers_fresh P) rfl hsdnv

/-- What a call leaves: the parser has finished, and the task will reset the parsers, or
the link stands where it goes on. -/
def Stands (P : Version → BundleParser σ β) (segs : List Segment) (outs : Segment → List β)
    (l : Link σ β) (left rest : List UInt8) (later : List β) : Prop :=
  (l.curStatus P ≠ .good ∧ l.stage = .forwardBundle ∧
    At P segs outs (l.resetParsers P) (left ++ rest) later) ∨
  (l.curStatus P = .good ∧ At P segs outs l (left ++ rest) later ∧
    ∀ n, l.curBulk P = some n → left.length < n ∨ left = [])

theorem drop_append_eq {input rest after : List UInt8} {n : Nat}
    (heq : input ++ rest = unread ++ after) (hinput : n ≤ input.length)
    (hunread : n ≤ unread.length) : input.drop n ++ rest = unread.drop n ++ after := by
  rw [← List.drop_append_of_le_length hinput, heq, List.drop_append_of_le_length hunread]

/-- A call of a bundle parser, in the middle of a segment. -/
theorem stands_countDown {done todo : List Segment} {v : Version}
    {R : σ → List UInt8 → Nat → List β → Prop} {slack length : Nat} {o : List β}
    {input rest : List UInt8} {result : ParserResult σ β} (hsegs : segs = done ++ todo)
    (hfollows : Follows (P v) R) (hstage : l.stage = .forwardBundle)
    (hsdnv : l.sdnvState = .reset) (hpayload : l.payloadType = some v)
    (hvalue : l.fragmentSize = unread.length + slack)
    (heq : input ++ rest = unread ++ stream todo)
    (hlength : length = min (unread.length + slack) input.length)
    (hconsumed : result.consumed ≤ length)
    (houtcome : Outcome (P v) R unread slack o length result) :
    ∃ new later, o ++ todo.flatMap outs = new ++ later ∧
      ((l.withResult v result).countDown P result.consumed).delivered = l.delivered ++ new ∧
      Stands P segs outs ((l.withResult v result).countDown P result.consumed)
        (input.drop result.consumed) rest later := by
  cases houtcome with
  | finished hle hend hskip hout =>
    have hdrop := drop_append_eq heq (n := result.consumed) (by omega) hle
    refine ⟨o, todo.flatMap outs, rfl, ?_, ?_⟩
    · rw [Link.countDown, hout]
      split <;> rfl
    · rw [Stands, hdrop, Link.countDown]
      by_cases hzero : (l.withResult v result).fragmentSize - result.consumed = 0
      · rw [if_pos hzero]
        have hfresh := Link.resetParsers_fresh P { l.withResult v result with
          fragmentSize := (l.withResult v result).fragmentSize - result.consumed }
        refine .inr ⟨hfresh.curStatus, at_resetParsers hsegs hskip hsdnv, fun n hn => ?_⟩
        rw [hfresh.curBulk] at hn
        cases hn
      · rw [if_neg hzero]
        have hnot : (P v).status result.parser ≠ .good := by
          refine hend.resolve_right fun hall => hzero ?_
          show l.fragmentSize - result.consumed = 0
          omega
        refine .inl ⟨?_, hstage, at_resetParsers hsegs hskip hsdnv⟩
        show (P v).status (Function.update l.parsers v result.parser v) ≠ .good
        rwa [Function.update_self]
  | goesOn later hout hafter hbulk =>
    have hne := hfollows.unread hafter
    have hlt : result.consumed < unread.length := by
      by_contra hge
      exact hne (List.drop_of_length_le (by omega))
    have hdrop := drop_append_eq heq (n := result.consumed) (by omega) (by omega)
    have hcount : (l.withResult v result).countDown P result.consumed =
        { l.withResult v result with
          fragmentSize := l.fragmentSize - result.consumed } := by
      rw [Link.countDown, if_neg]
      · rfl
      · show l.fragmentSize - result.consumed ≠ 0
        omega
    have hparser : Function.update l.parsers v result.parser v = result.parser :=
      Function.update_self ..
    refine ⟨result.delivered, later ++ todo.flatMap outs, ?_, ?_, ?_⟩
    · rw [hout, List.append_assoc]
    · rw [hcount]
      rfl
    · rw [Stands, hdrop, hcount]
      refine .inr ⟨?_, ?_, fun n hn => ?_⟩
      · show (P v).status (Function.update l.parsers v result.parser v) = .good
        rw [hparser]
        exact hfollows.good hafter
      · have hreads : R (Function.update l.parsers v result.parser v)
            (unread.drop result.consumed) slack later := by
          rw [hparser]
          exact hafter
        refine .inside done todo hsegs hfollows hreads hstage hsdnv hpayload rfl ?_
        show l.fragmentSize - result.consumed = _
        rw [List.length_drop]
        omega
      · change (P v).bulkRead (Function.update l.parsers v result.parser v) = some n at hn
        rw [hparser] at hn
        obtain ⟨hle, -⟩ := hfollows.bulk hafter hn
        rw [List.length_drop] at hle
        have hpending := hbulk n hn
        by_cases hall : input.drop result.consumed = []
        · exact .inr hall
        · left
          have hpos := List.length_pos_iff.mpr hall
          rw [List.length_drop] at hpos ⊢
          omega

/-- A piece of a content is a piece of what is before the parser. -/
theorem exists_take_append {input rest after : List UInt8}
    (heq : input ++ rest = unread ++ after) (size : Nat) :
    ∃ behind, input.take size ++ behind = unread ++ after := by
  refine ⟨input.drop size ++ rest, ?_⟩
  rw [← List.append_assoc, List.take_append_drop, heq]

/-- The first call for a content selects the parser. -/
theorem Link.select_of_clean {v : Version} {content piece : List UInt8} (P)
    (l : Link σ β) (hversion : content.head?.bind Link.versionOf = some v) (hne : piece ≠ [])
    (hinitial : piece <+: content) :
    l.selectBundleParserVersion P piece =
      Link.callParser P { l with payloadType := some v } v piece := by
  obtain ⟨rest, rfl⟩ := hinitial
  cases piece with
  | nil => exact absurd rfl hne
  | cons byte piece =>
    have hbyte : Link.versionOf byte = some v := hversion
    rw [Link.selectBundleParserVersion, hbyte]

/-- A call of the bundle parser at the start of a segment. -/
theorem callParser_start (hclean : ∀ seg ∈ segs, Clean P seg.content (outs seg))
    {input rest : List UInt8} (hcut : NotCut segs rest) (hinput : input ≠ [])
    {done todo : List Segment} (hsegs : segs = done ++ seg :: todo) (hfresh : l.Fresh P)
    (hstage : l.stage = .forwardBundle) (hsdnv : l.sdnvState = .reset)
    (hvalue : l.fragmentSize = seg.content.length)
    (hunread : input ++ rest = seg.content ++ stream todo) :
    ∃ l' n new later, l.forwardToSpecificParser P input = (l', n) ∧ n ≤ input.length ∧
      (seg :: todo).flatMap outs = new ++ later ∧ l'.delivered = l.delivered ++ new ∧
      Stands P segs outs l' (input.drop n) rest later ∧
      0 < n := by
  obtain ⟨hne, v, R, hversion, hfollows, hread⟩ := hclean seg (by rw [hsegs]; simp)
  obtain ⟨s, hs⟩ := hfresh.parsers v
  have hpiece : input.take seg.content.length ≠ [] := by
    rw [Ne, List.take_eq_nil_iff, not_or]
    exact ⟨fun h => hne (List.eq_nil_of_length_eq_zero h), hinput⟩
  have hinitial : input.take seg.content.length <+: seg.content := by
    have htake := congrArg (List.take seg.content.length) hunread
    rw [List.take_left, List.take_append] at htake
    exact ⟨_, htake⟩
  obtain ⟨behind, hbehind⟩ := hinitial
  have henough : Enough (input.take seg.content.length) seg.content := by
    intro hseven hlong hone
    refine hcut done seg todo hsegs hseven hlong ?_
    have hpos := List.length_pos_iff.mpr hne
    rw [List.length_take] at hone
    obtain ⟨byte, rfl⟩ := List.length_eq_one_iff.mp (show input.length = 1 by omega)
    cases hcontent : seg.content with
    | nil => exact absurd hcontent hne
    | cons first content =>
      rw [hcontent] at hunread
      exact (List.cons.inj hunread).2
  obtain ⟨hconsumed, hpos, houtcome⟩ := hread s _ behind hpiece hbehind henough
  rw [← hs] at hconsumed hpos houtcome
  rw [List.length_take] at houtcome hconsumed
  have hselect := l.select_of_clean P hversion hpiece ⟨behind, hbehind⟩
  have hforward' : l.forwardToSpecificParser P input =
      (({ l with payloadType := some v }.withResult v
          ((P v).read (l.parsers v) (input.take seg.content.length))).countDown P
          ((P v).read (l.parsers v) (input.take seg.content.length)).consumed,
        ((P v).read (l.parsers v) (input.take seg.content.length)).consumed) := by
    have htake : input.take l.fragmentSize = input.take seg.content.length := by
      rw [hvalue]
    rw [Link.forwardToSpecificParser, if_neg fun hne => hne hstage, htake,
      hfresh.payloadType]
    dsimp only
    rw [hselect, Link.callParser]
    dsimp only
    rw [if_neg (Nat.ne_of_gt hpos)]
  have hsegs' : segs = (done ++ [seg]) ++ todo := by
    rw [hsegs, List.append_assoc]
    rfl
  obtain ⟨new, later, hout, hdelivered, hstands⟩ :=
    stands_countDown (l := { l with payloadType := some v }) hsegs' hfollows hstage hsdnv rfl
      hvalue hunread rfl hconsumed houtcome
  refine ⟨_, _, new, later, hforward', by omega, ?_, hdelivered, hstands, hpos⟩
  rw [← hout, List.flatMap_cons]

/-- A call of the bundle parser inside of a segment. -/
theorem callParser_inside {input rest : List UInt8} (hinput : input ≠ [])
    {done todo : List Segment} {v : Version} {R : σ → List UInt8 → Nat → List β → Prop}
    {slack : Nat} (hsegs : segs = done ++ todo) (hfollows : Follows (P v) R)
    (hreads : R (l.parsers v) unread slack out) (hstage : l.stage = .forwardBundle)
    (hsdnv : l.sdnvState = .reset) (hpayload : l.payloadType = some v)
    (hcur : l.curParser = some v) (hvalue : l.fragmentSize = unread.length + slack)
    (hunread : input ++ rest = unread ++ stream todo) (hbulk : l.curBulk P = none) :
    ∃ l' n new later, l.forwardToSpecificParser P input = (l', n) ∧ n ≤ input.length ∧
      out ++ todo.flatMap outs = new ++ later ∧ l'.delivered = l.delivered ++ new ∧
      Stands P segs outs l' (input.drop n) rest later ∧
      (claRxBufferSize ≤ input.length ∨ rest = [] → 0 < n) := by
  have hnone : (P v).bulkRead (l.parsers v) = none := by
    rw [Link.curBulk, hcur] at hbulk
    exact hbulk
  obtain ⟨behind, hbehind⟩ := exists_take_append hunread l.fragmentSize
  have hne := hfollows.unread hreads
  have hunreadPos := List.length_pos_iff.mpr hne
  have hpiece : input.take l.fragmentSize ≠ [] := by
    rw [Ne, List.take_eq_nil_iff, not_or]
    exact ⟨by omega, hinput⟩
  obtain ⟨hconsumed, houtcome, hprogress⟩ := hfollows.read hreads hnone _ behind _ hpiece
    hbehind (by rw [List.length_take, hvalue]; exact Nat.min_le_left ..)
  rw [List.length_take, hvalue] at houtcome hconsumed hprogress
  have hforward' : l.forwardToSpecificParser P input =
      ((l.withResult v ((P v).read (l.parsers v)
          (input.take (unread.length + slack)))).countDown P
          ((P v).read (l.parsers v) (input.take (unread.length + slack))).consumed,
        ((P v).read (l.parsers v) (input.take (unread.length + slack))).consumed) := by
    rw [Link.forwardToSpecificParser, if_neg fun hne => hne hstage, hvalue, hpayload]
    rfl
  obtain ⟨new, later, hout, hdelivered, hstands⟩ :=
    stands_countDown hsegs hfollows hstage hsdnv hpayload hvalue hunread rfl hconsumed
      houtcome
  refine ⟨_, _, new, later, hforward', by omega, hout, hdelivered, hstands, fun hall => ?_⟩
  have hlength := congrArg List.length hunread
  rw [List.length_append, List.length_append] at hlength
  refine hprogress ?_
  rcases hall with hall | hall
  · omega
  · rw [hall, List.length_nil] at hlength
    omega

/-- A call from the loop of `chunk_read`. -/
theorem At.forward (hframed : ∀ seg ∈ segs, seg.WellFramed)
    (hclean : ∀ seg ∈ segs, Clean P seg.content (outs seg)) {input rest : List UInt8}
    (hcut : NotCut segs rest) (hinput : input ≠ []) (h : At P segs outs l (input ++ rest) out)
    (hbulk : l.curBulk P = none) :
    ∃ l' n new later, l.forwardToSpecificParser P input = (l', n) ∧ n ≤ input.length ∧
      out = new ++ later ∧ l'.delivered = l.delivered ++ new ∧
      Stands P segs outs l' (input.drop n) rest later ∧
      (l.stage ≠ .forwardBundle ∨ claRxBufferSize ≤ input.length ∨ rest = [] → 0 < n) := by
  by_cases hstage : l.stage = .forwardBundle
  · generalize hunread : input ++ rest = bytes at h
    cases h with
    | idle done todo hsegs hskip hfresh htype hsdnv =>
      rw [hstage] at htype
      cases htype
    | size done seg todo hsegs hfresh hget =>
      rw [hstage] at hget
      cases hget
    | start done seg todo hsegs hfresh hforward hsdnv hvalue =>
      obtain ⟨l', n, new, later, hcall, hn, hout, hdelivered, hstands, hpos⟩ :=
        callParser_start hclean hcut hinput hsegs hfresh hstage hsdnv hvalue hunread
      exact ⟨l', n, new, later, hcall, hn, hout, hdelivered, hstands, fun _ => hpos⟩
    | inside done todo hsegs hfollows hreads hforward hsdnv hpayload hcur hvalue =>
      obtain ⟨l', n, new, later, hcall, hn, hout, hdelivered, hstands, hpos⟩ :=
        callParser_inside hinput hsegs hfollows hreads hstage hsdnv hpayload hcur hvalue hunread hbulk
      exact ⟨l', n, new, later, hcall, hn, hout, hdelivered, hstands, fun hall =>
        hpos (hall.resolve_left fun hne => hne hstage)⟩
  · obtain ⟨l', n, hread, hn, hpos, hat, hfresh, hdelivered⟩ := h.readHeader hframed hstage
    refine ⟨l', n, [], out, ?_, hn, rfl, ?_, .inr ⟨hfresh.curStatus, hat, fun n hn => ?_⟩,
      fun _ => hpos hinput⟩
    · rw [Link.forwardToSpecificParser, if_pos hstage, hread]
    · rw [hdelivered, List.append_nil]
    · rw [hfresh.curBulk] at hn
      cases hn

/-! ## Turns -/

/-- The turns that the loop of `chunk_read` may still need: a call consumes a byte, or
takes the link from a bundle to the next header. -/
def turnsLeft (l : Link σ β) (input : List UInt8) : Nat :=
  2 * input.length + if l.stage = .forwardBundle then 1 else 0

/-- The loop of `chunk_read`. -/
theorem At.chunkLoop (hframed : ∀ seg ∈ segs, seg.WellFramed)
    (hclean : ∀ seg ∈ segs, Clean P seg.content (outs seg)) {input rest : List UInt8}
    (hcut : NotCut segs rest) {turns : Nat} (hturns : turnsLeft l input ≤ turns)
    (hroom : input.length ≤ claRxBufferSize)
    (h : At P segs outs l (input ++ rest) out) (hbulk : l.curBulk P = none) :
    ∃ l' left new later, Link.chunkLoop P turns l input = (l', left) ∧
      left.length < claRxBufferSize ∧ out = new ++ later ∧
      l'.delivered = l.delivered ++ new ∧ At P segs outs l' (left ++ rest) later ∧
      (∀ n, l'.curBulk P = some n → left.length < n ∨ left = []) ∧
      (rest = [] → l'.curBulk P = none → left = []) := by
  induction turns generalizing l input out with
  | zero =>
    rw [turnsLeft] at hturns
    obtain rfl := List.eq_nil_of_length_eq_zero (show input.length = 0 by omega)
    exact ⟨l, [], [], out, rfl, by decide, rfl, (List.append_nil _).symm, h, fun _ _ => .inr rfl,
      fun _ _ => rfl⟩
  | succ turns ih =>
    by_cases hinput : input = []
    · subst hinput
      exact ⟨l, [], [], out, if_pos rfl, by decide, rfl, (List.append_nil _).symm, h,
        fun _ _ => .inr rfl, fun _ _ => rfl⟩
    obtain ⟨l', n, new, later, hforward, hn, hout, hdelivered, hstands, hprogress⟩ :=
      h.forward hframed hclean hcut hinput hbulk
    have hdrop : (input.drop n).length = input.length - n := List.length_drop
    have hshort : (claRxBufferSize ≤ input.length → 0 < n) →
        (input.drop n).length < claRxBufferSize := by
      intro hpos
      by_contra hge
      have := hpos (by omega)
      omega
    have hstep : Link.chunkLoop P (turns + 1) l input =
        if l'.curStatus P ≠ .good then
          Link.chunkLoop P turns (l'.resetParsers P) (input.drop n)
        else if (l'.curBulk P).isSome then (l', input.drop n)
        else if n = 0 then (l', input.drop n)
        else Link.chunkLoop P turns l' (input.drop n) := by
      rw [Link.chunkLoop, if_neg hinput, hforward]
    rw [turnsLeft] at hturns
    have hpos := List.length_pos_iff.mpr hinput
    rcases hstands with ⟨hstatus, -, hat⟩ | ⟨hstatus, hat, hpending⟩
    · -- the bundle is over, and the parsers are reset
      have hturns' : turnsLeft (l'.resetParsers P) (input.drop n) ≤ turns := by
        have hstage : (l'.resetParsers P).stage ≠ .forwardBundle := Stage.noConfusion
        rw [turnsLeft, if_neg hstage, hdrop]
        by_cases hheader : l.stage = .forwardBundle
        · rw [if_pos hheader] at hturns
          omega
        · have := hprogress (.inl hheader)
          omega
      obtain ⟨l'', left, new', later', hloop, hleft, hout', hdelivered', hafter⟩ :=
        ih hturns' (by omega) hat (l'.resetParsers_fresh P).curBulk
      refine ⟨l'', left, new ++ new', later', ?_, hleft, ?_, ?_, hafter⟩
      · rw [hstep, if_pos hstatus, hloop]
      · rw [hout, hout', List.append_assoc]
      · rw [hdelivered', ← List.append_assoc, ← hdelivered]
        rfl
    · rw [if_neg fun hne => hne hstatus] at hstep
      by_cases hsome : (l'.curBulk P).isSome = true
      · rw [if_pos hsome] at hstep
        refine ⟨l', _, new, later, hstep, hshort fun hfull => hprogress (.inr (.inl hfull)), hout,
          hdelivered, hat, hpending, fun _ hnone => ?_⟩
        rw [hnone] at hsome
        cases hsome
      · rw [if_neg hsome] at hstep
        by_cases hzero : n = 0
        · rw [if_pos hzero] at hstep
          refine ⟨l', _, new, later, hstep, hshort fun hfull => hprogress (.inr (.inl hfull)),
            hout, hdelivered, hat, hpending, fun hend => ?_⟩
          have := hprogress (.inr (.inr hend))
          omega
        · rw [if_neg hzero] at hstep
          have hturns' : turnsLeft l' (input.drop n) ≤ turns := by
            rw [turnsLeft, hdrop]
            split <;> omega
          have hnone : l'.curBulk P = none := by simpa using hsome
          obtain ⟨l'', left, new', later', hloop, hleft, hout', hdelivered', hafter⟩ :=
            ih hturns' (by omega) hat hnone
          refine ⟨l'', left, new ++ new', later', by rw [hstep, hloop], hleft, ?_, ?_, hafter⟩
          · rw [hout, hout', List.append_assoc]
          · rw [hdelivered', hdelivered, List.append_assoc]

/-- What holds between the turns: the link stands in the stream, a bulk is not in the
buffer, and when everything is received, nothing is left. -/
structure Between (P : Version → BundleParser σ β) (segs : List Segment)
    (outs : Segment → List β) (l : Link σ β) (unreceived : List UInt8) : Prop where
  stands : ∃ later, l.delivered ++ later = segs.flatMap outs ∧
    At P segs outs l (l.buffer ++ unreceived) later
  pending : ∀ n, l.curBulk P = some n → l.buffer.length < n ∨ l.buffer = []
  room : l.buffer.length ≤ claRxBufferSize
  drained : unreceived = [] → l.curBulk P = none → l.buffer = []

theorem Link.Fresh.withBuffer (h : l.Fresh P) (buffer : List UInt8) :
    { l with buffer := buffer }.Fresh P := ⟨h.status, h.payloadType, h.curParser, h.parsers⟩

theorem At.withBuffer (h : At P segs outs l unread out) (buffer : List UInt8) :
    At P segs outs { l with buffer := buffer } unread out := by
  cases h with
  | idle done todo hsegs hskip hfresh hstage hsdnv =>
    exact .idle done todo hsegs hskip (hfresh.withBuffer buffer) hstage hsdnv
  | size done seg todo hsegs hfresh hstage htype hsize hpost hsdnv hvalue =>
    exact .size done seg todo hsegs (hfresh.withBuffer buffer) hstage htype hsize hpost hsdnv
      hvalue
  | start done seg todo hsegs hfresh hstage hsdnv hvalue =>
    exact .start done seg todo hsegs (hfresh.withBuffer buffer) hstage hsdnv hvalue
  | inside done todo hsegs hfollows hreads hstage hsdnv hpayload hcur hvalue =>
    exact .inside done todo hsegs hfollows hreads hstage hsdnv hpayload hcur hvalue

theorem Link.shift_of_lt {left : List UInt8} (P : Version → BundleParser σ β) (l : Link σ β)
    (h : left.length < claRxBufferSize) : l.shift P left = { l with buffer := left } :=
  if_neg (Nat.ne_of_lt h)

theorem Between.chunk (hframed : ∀ seg ∈ segs, seg.WellFramed)
    (hclean : ∀ seg ∈ segs, Clean P seg.content (outs seg)) {piece rest : List UInt8}
    (hcut : NotCut segs rest) (h : Between P segs outs l (piece ++ rest))
    (hbulk : l.curBulk P = none) (hroom : piece.length ≤ claRxBufferSize - l.buffer.length) :
    Between P segs outs (l.chunkRead P piece) rest := by
  obtain ⟨later, hout, hat⟩ := h.stands
  have hbuffer := h.room
  rw [← List.append_assoc] at hat
  have hturns : turnsLeft l (l.buffer ++ piece) ≤ 2 * (l.buffer ++ piece).length + 1 := by
    rw [turnsLeft]
    split <;> omega
  obtain ⟨l', left, new, later', hloop, hleft, hlater, hdelivered, hat', hpending, hdrained⟩ :=
    hat.chunkLoop hframed hclean hcut hturns (by rw [List.length_append]; omega) hbulk
  have hread : l.chunkRead P piece = { l' with buffer := left } := by
    rw [Link.chunkRead, hloop]
    exact l'.shift_of_lt P hleft
  rw [hread]
  refine ⟨⟨later', ?_, hat'.withBuffer left⟩, hpending, Nat.le_of_lt hleft, hdrained⟩
  show l'.delivered ++ later' = _
  rw [hdelivered, List.append_assoc, ← hlater, hout]

/-- Only a bundle parser requests a bulk. -/
theorem At.of_bulk {n : Nat} (h : At P segs outs l unread out) (hbulk : l.curBulk P = some n) :
    ∃ done todo v R bytes slack o, segs = done ++ todo ∧ Follows (P v) R ∧
      R (l.parsers v) bytes slack o ∧ l.stage = .forwardBundle ∧ l.sdnvState = .reset ∧
      l.payloadType = some v ∧ (P v).bulkRead (l.parsers v) = some n ∧
      l.fragmentSize = bytes.length + slack ∧ unread = bytes ++ stream todo ∧
      out = o ++ todo.flatMap outs := by
  cases h with
  | idle done todo hsegs hskip hfresh =>
    rw [hfresh.curBulk] at hbulk
    cases hbulk
  | size done seg todo hsegs hfresh =>
    rw [hfresh.curBulk] at hbulk
    cases hbulk
  | start done seg todo hsegs hfresh =>
    rw [hfresh.curBulk] at hbulk
    cases hbulk
  | inside done todo hsegs hfollows hreads hstage hsdnv hpayload hcur hvalue =>
    rw [Link.curBulk, hcur] at hbulk
    exact ⟨done, todo, _, _, _, _, _, hsegs, hfollows, hreads, hstage, hsdnv, hpayload, hbulk,
      hvalue, rfl, rfl⟩

theorem Between.bulk {piece rest : List UInt8} {n : Nat}
    (h : Between P segs outs l (piece ++ rest)) (hbulk : l.curBulk P = some n)
    (hpiece : piece.length = n - l.buffer.length) :
    Between P segs outs (l.bulkRead P n piece) rest := by
  obtain ⟨later, hout, hat⟩ := h.stands
  obtain ⟨done, todo, v, R, bytes, slack, o, hsegs, hfollows, hreads, hstage, hsdnv, hpayload,
    hnext, hvalue, hunread, rfl⟩ := hat.of_bulk hbulk
  obtain ⟨hle, hresult⟩ := hfollows.bulk hreads hnext
  have hlength : (l.buffer ++ piece).length = n := by
    rw [List.length_append]
    rcases h.pending n hbulk with hlt | hnil
    · omega
    · rw [hnil, List.length_nil] at hpiece ⊢
      omega
  -- the bulk is the next bytes of the content
  rw [← List.append_assoc] at hunread
  have htake : l.buffer ++ piece = bytes.take n := by
    have := congrArg (List.take n) hunread
    rwa [List.take_append_of_le_length (Nat.le_of_eq hlength.symm),
      List.take_of_length_le (Nat.le_of_eq hlength), List.take_append_of_le_length hle] at this
  have hrest : rest = bytes.drop n ++ stream todo := by
    have := drop_append_eq hunread (Nat.le_of_eq hlength.symm) hle
    rwa [List.drop_of_length_le (Nat.le_of_eq hlength), List.nil_append] at this
  have hdrop : l.buffer.drop n = [] := by
    rw [List.length_append] at hlength
    exact List.drop_of_length_le (by omega)
  have hne := List.length_pos_iff.mpr (hfollows.unread hreads)
  have hforward : l.forwardBulk P ((l.buffer ++ piece).take n) =
      l.withResult v ((P v).readBulk (l.parsers v) (bytes.take n)) := by
    rw [Link.forwardBulk, if_neg fun h => h hstage, hpayload,
      List.take_of_length_le (Nat.le_of_eq hlength), htake]
    dsimp only
    rw [Link.countDown, if_neg]
    · rfl
    · show l.fragmentSize - 0 ≠ 0
      omega
  generalize hparsed : (P v).readBulk (l.parsers v) (bytes.take n) = result at hresult hforward
  have hparser : Function.update l.parsers v result.parser v = result.parser :=
    Function.update_self ..
  have hstatus : (l.withResult v result).curStatus P = (P v).status result.parser :=
    congrArg (P v).status hparser
  have hzero : (l.buffer.drop n).length < claRxBufferSize := by
    rw [hdrop]
    decide
  rw [Link.bulkRead, hforward, Link.shift_of_lt P _ hzero, hdrop, hstatus, hrest]
  rcases hresult with ⟨hbad, hskip, hdelivered⟩ | ⟨later', hlater, hafter, hnone⟩
  · rw [if_pos hbad]
    have hfresh := ((l.withResult v result).resetParsers_fresh P).withBuffer []
    have hat' : At P segs outs ((l.withResult v result).resetParsers P)
        (bytes.drop n ++ stream todo) (todo.flatMap outs) := at_resetParsers hsegs hskip hsdnv
    refine ⟨⟨_, ?_, hat'.withBuffer []⟩, fun k hk => ?_, Nat.zero_le _, fun _ _ => rfl⟩
    · show (l.delivered ++ result.delivered) ++ _ = _
      rw [List.append_assoc, ← hdelivered, hout]
    · rw [hfresh.curBulk] at hk
      cases hk
  · have hgood := hfollows.good hafter
    rw [if_neg fun hbad => hbad hgood]
    have hreads' : R ((l.withResult v result).parsers v) (bytes.drop n) (slack + n) later' := by
      show R (Function.update l.parsers v result.parser v) _ _ _
      rw [hparser]
      exact hafter
    have hvalue' : l.fragmentSize = (bytes.drop n).length + (slack + n) := by
      rw [List.length_drop]
      omega
    have hat' : At P segs outs (l.withResult v result) (bytes.drop n ++ stream todo)
        (later' ++ todo.flatMap outs) :=
      .inside done todo hsegs hfollows hreads' hstage hsdnv hpayload rfl hvalue'
    refine ⟨⟨_, ?_, hat'.withBuffer []⟩, fun k hk => ?_, Nat.zero_le _, fun _ _ => rfl⟩
    · show (l.delivered ++ result.delivered) ++ _ = _
      rw [List.append_assoc, ← List.append_assoc result.delivered, ← hlater, hout]
    · change (P v).bulkRead (Function.update l.parsers v result.parser v) = some k at hk
      rw [hparser, hnone] at hk
      cases hk

/-! ## The result -/

/-- A turn that does not leave the first byte of a BPv7 bundle alone in the buffer. -/
def Proceeds (P : Version → BundleParser σ β) (segs : List Segment)
    (x y : Link σ β × List UInt8) : Prop := Turn P x y ∧ NotCut segs y.2

open Relation (ReflTransGen)

theorem between_of_run (hframed : ∀ seg ∈ segs, seg.WellFramed)
    (hclean : ∀ seg ∈ segs, Clean P seg.content (outs seg)) {parsers : Version → σ}
    (hready : ∀ v, ∃ s, parsers v = (P v).reset s) {x : Link σ β × List UInt8}
    (run : ReflTransGen (Proceeds P segs) (.initial parsers, stream segs) x) :
    Between P segs outs x.1 x.2 := by
  induction run with
  | refl =>
    refine ⟨⟨segs.flatMap outs, rfl, ?_⟩, fun n hn => (by cases hn), Nat.zero_le _,
      fun _ _ => rfl⟩
    show At P segs outs _ ([] ++ stream segs) _
    exact .idle [] segs rfl (fun b hb => (by cases hb)) ⟨rfl, rfl, rfl, hready⟩ rfl rfl
  | tail _ hstep ih =>
    obtain ⟨hturn, hcut⟩ := hstep
    cases hturn with
    | chunk hbulk hpiece hroom => exact ih.chunk hframed hclean hcut hbulk hroom
    | bulk hbulk hpiece => exact ih.bulk hbulk hpiece

/-- When the stream is received, what was delivered is what its segments deliver, one
after the other. -/
theorem Between.delivered (hclean : ∀ seg ∈ segs, Clean P seg.content (outs seg))
    (h : Between P segs outs l []) (hbulk : l.curBulk P = none) :
    l.delivered = segs.flatMap outs := by
  obtain ⟨later, hout, hat⟩ := h.stands
  rw [h.drained rfl hbulk, List.append_nil] at hat
  have hlater : later = [] := by
    generalize hnil : ([] : List UInt8) = bytes at hat
    cases hat with
    | idle done todo =>
      cases todo with
      | nil => rfl
      | cons seg todo =>
        obtain ⟨-, hstream⟩ := List.append_eq_nil_iff.mp hnil.symm
        cases hstream
    | size done seg todo hsegs hfresh hstage htype hsize hpost =>
      exact absurd (List.append_eq_nil_iff.mp hnil.symm).1 hpost
    | start done seg todo hsegs =>
      obtain ⟨hne, -⟩ := hclean seg (by rw [hsegs]; simp)
      exact absurd (List.append_eq_nil_iff.mp hnil.symm).1 hne
    | inside done todo hsegs hfollows hreads =>
      exact absurd (List.append_eq_nil_iff.mp hnil.symm).1 (hfollows.unread hreads)
  rw [← hout, hlater, List.append_nil]

/-- Whatever the segment between `front` and `back` holds, as long as its parser goes
through it: the same bundles are delivered from `back`. -/
theorem delivered_after (P : Version → BundleParser σ β) (outs : Segment → List β)
    (front back : List Segment) (seg seg' : Segment) (parsers : Version → σ) (l l' : Link σ β)
    (hready : ∀ v, ∃ s, parsers v = (P v).reset s)
    (hframed : ∀ s ∈ front ++ seg :: back, s.WellFramed)
    (hframed' : ∀ s ∈ front ++ seg' :: back, s.WellFramed)
    (hclean : ∀ s ∈ front ++ seg :: back, Clean P s.content (outs s))
    (hclean' : ∀ s ∈ front ++ seg' :: back, Clean P s.content (outs s))
    (run : ReflTransGen (Proceeds P (front ++ seg :: back))
      (.initial parsers, stream (front ++ seg :: back)) (l, []))
    (run' : ReflTransGen (Proceeds P (front ++ seg' :: back))
      (.initial parsers, stream (front ++ seg' :: back)) (l', []))
    (hbulk : l.curBulk P = none) (hbulk' : l'.curBulk P = none) :
    l.delivered = (front ++ [seg]).flatMap outs ++ back.flatMap outs ∧
      l'.delivered = (front ++ [seg']).flatMap outs ++ back.flatMap outs := by
  have hlink : Between P (front ++ seg :: back) outs l [] :=
    between_of_run hframed hclean hready run
  have hlink' : Between P (front ++ seg' :: back) outs l' [] :=
    between_of_run hframed' hclean' hready run'
  rw [hlink.delivered hclean hbulk, hlink'.delivered hclean' hbulk']
  simp only [List.flatMap_append, List.flatMap_cons, List.flatMap_nil, List.append_nil,
    List.append_assoc, and_self]

/-! ## With the BPv6 parser -/

/-- The BPv6 parser as it is seen from the link.  In a run it is reset in the states in
which `bundle6_parser_reset` does something, or in the one that it leaves. -/
def bundle6Parser (env : Bundle6.ParserEnv) (usage : Nat) :
    BundleParser Bundle6.Parser Bundle6.Bundle where
  status s := s.status
  bulkRead s := if s.bulkRead then some s.nextBytes else none
  reset _ := .init usage
  read s buffer :=
    let result := s.bundle6ParserRead env buffer
    ⟨result.1, buffer.length - result.2.length, result.1.delivered.drop s.delivered.length⟩
  readBulk s data :=
    let result := s.completeBulk env data
    ⟨result, 0, result.delivered.drop s.delivered.length⟩

/-- Both parsers of the runs below, in which there is no BPv7 bundle. -/
def examplePair : Version → BundleParser Bundle6.Parser Bundle6.Bundle :=
  fun _ => bundle6Parser ⟨fun _ => true, 2 ^ 30⟩ 0

/-- A bundle between null endpoints with one byte of payload. -/
def nullBundle : Segment :=
  ⟨0x13, [28], [6, 0, 21, 0, 4, 0, 4, 0, 4, 0, 4, 0, 0, 0, 9,
    100, 116, 110, 0, 110, 111, 110, 101, 0, 1, 8, 1, 42]⟩

/-- The beginning of a bundle. -/
def cutBundle : Segment := ⟨0x13, [1], [6]⟩

/-- A bundle whose flags are no SDNV, with the beginning of a segment behind the error. -/
def badBundle : Segment := ⟨0x13, [10], [6, 128, 128, 128, 128, 128, 128, 0x13, 127, 6]⟩

/-- The link when the task of the runs begins. -/
def exampleLink : Link Bundle6.Parser Bundle6.Bundle := .initial fun _ => .init 0

theorem single_chunk {piece : List UInt8} (hpiece : piece ≠ [])
    (hroom : piece.length ≤ claRxBufferSize) :
    Turn examplePair (exampleLink, piece) (exampleLink.chunkRead examplePair piece, []) := by
  have hturn : Turn examplePair (exampleLink, piece ++ [])
      (exampleLink.chunkRead examplePair piece, []) := .chunk rfl hpiece hroom
  rwa [List.append_nil] at hturn

/-- The bundle of the second segment is delivered behind the beginning of a bundle, and lost
behind a bundle that is rejected. -/
theorem delivered_after_badBundle :
    (∀ s ∈ [cutBundle, badBundle, nullBundle], s.WellFramed) ∧
    ∃ l l', ReflTransGen (Turn examplePair)
        (exampleLink, stream [cutBundle, nullBundle]) (l, []) ∧
      ReflTransGen (Turn examplePair) (exampleLink, stream [badBundle, nullBundle]) (l', []) ∧
      l.curBulk examplePair = none ∧ l'.curBulk examplePair = none ∧
      l.buffer = [] ∧ l'.buffer = [] ∧ l.delivered.length = 1 ∧ l'.delivered = [] := by
  refine ⟨?_, _, _, .single (single_chunk (by decide) (by decide)),
    .single (single_chunk (by decide) (by decide)), by decide +kernel, by decide +kernel,
    by decide +kernel, by decide +kernel, by decide +kernel, by decide +kernel⟩
  simp only [List.mem_cons, List.not_mem_nil, or_false, forall_eq_or_imp, forall_eq]
  refine ⟨⟨by decide, ⟨[], 1, rfl, by simp, by decide⟩, by decide, by decide, by decide⟩,
    ⟨by decide, ⟨[], 10, rfl, by simp, by decide⟩, by decide, by decide, by decide⟩,
    ⟨by decide, ⟨[], 28, rfl, by simp, by decide⟩, by decide, by decide, by decide⟩⟩

/-- A longer beginning of a bundle. -/
def longerCut : Segment := ⟨0x13, [2], [6, 0]⟩

/-- The parser behind the first byte of a bundle. -/
def behindVersion : Bundle6.Parser :=
  ((examplePair .bundle6).read ((examplePair .bundle6).reset (.init 0)) [6]).parser

/-- The parser is behind the first byte of a bundle, with one byte to come. -/
def OneByteLeft (s : Bundle6.Parser) (unread : List UInt8) (slack : Nat)
    (out : List Bundle6.Bundle) : Prop :=
  s = behindVersion ∧ unread = [0] ∧ slack = 0 ∧ out = []

theorem follows_oneByteLeft : Follows (examplePair .bundle6) OneByteLeft where
  good := by
    rintro s unread slack out ⟨rfl, rfl, rfl, rfl⟩
    decide +kernel
  unread := by
    rintro s unread slack out ⟨rfl, rfl, rfl, rfl⟩
    decide
  read := by
    rintro s unread slack out ⟨rfl, rfl, rfl, rfl⟩ hbulk piece rest after hpiece heq hlength
    obtain ⟨byte, more, rfl⟩ := List.exists_cons_of_ne_nil hpiece
    obtain rfl : more = [] := List.eq_nil_of_length_eq_zero (by simpa using hlength)
    obtain rfl : byte = 0 := (List.cons.inj heq).1
    have hconsumed : ((examplePair .bundle6).read behindVersion [0]).consumed = 1 := by
      decide +kernel
    refine ⟨Nat.le_of_eq hconsumed, .finished (Nat.le_of_eq hconsumed) (.inr ⟨rfl, hconsumed⟩) ?_
      (by decide +kernel), fun _ => by rw [hconsumed]; exact Nat.one_pos⟩
    rw [hconsumed]
    exact fun b hb => by cases hb
  bulk := by
    rintro s unread slack out n ⟨rfl, rfl, rfl, rfl⟩ hbulk
    have hnone : (examplePair .bundle6).bulkRead behindVersion = none := by decide +kernel
    rw [hnone] at hbulk
    cases hbulk

theorem clean_cutBundle : Clean examplePair cutBundle.content [] := by
  refine ⟨by decide, .bundle6, OneByteLeft, rfl, follows_oneByteLeft, ?_⟩
  intro s piece rest hpiece heq henough
  obtain ⟨byte, more, rfl⟩ := List.exists_cons_of_ne_nil hpiece
  obtain ⟨rfl, hrest⟩ := List.cons.inj heq
  obtain ⟨rfl, -⟩ := List.append_eq_nil_iff.mp hrest
  have hconsumed : ((examplePair .bundle6).read (.init 0) [6]).consumed = 1 := by
    decide +kernel
  have hdelivered : [] = ((examplePair .bundle6).read (.init 0) [6]).delivered := by
    decide +kernel
  refine ⟨Nat.le_of_eq hconsumed, Nat.lt_of_lt_of_eq Nat.one_pos hconsumed.symm,
    .finished (Nat.le_of_eq hconsumed) (.inr ⟨rfl, hconsumed⟩) ?_ hdelivered⟩
  exact fun b hb => by cases hb

theorem clean_longerCut : Clean examplePair longerCut.content [] := by
  refine ⟨by decide, .bundle6, OneByteLeft, rfl, follows_oneByteLeft, ?_⟩
  intro s piece rest hpiece heq henough
  obtain ⟨byte, more, rfl⟩ := List.exists_cons_of_ne_nil hpiece
  obtain ⟨rfl, hmore⟩ := List.cons.inj heq
  cases more with
  | nil =>
    -- the other byte comes with the next piece
    have hconsumed : ((examplePair .bundle6).read (.init 0) [6]).consumed = 1 := by
      decide +kernel
    have hdelivered : [] = ((examplePair .bundle6).read (.init 0) [6]).delivered ++ [] := by
      decide +kernel
    have hnone : (examplePair .bundle6).bulkRead behindVersion = none := by decide +kernel
    refine ⟨Nat.le_of_eq hconsumed, Nat.lt_of_lt_of_eq Nat.one_pos hconsumed.symm,
      .goesOn [] hdelivered ⟨rfl, rfl, rfl, rfl⟩ fun n hn => ?_⟩
    exact absurd (hnone.symm.trans hn) fun h => by cases h
  | cons other more =>
    obtain ⟨rfl, hrest⟩ := List.cons.inj hmore
    obtain ⟨rfl, -⟩ := List.append_eq_nil_iff.mp hrest
    have hconsumed : ((examplePair .bundle6).read (.init 0) [6, 0]).consumed = 2 := by
      decide +kernel
    have hdelivered : [] = ((examplePair .bundle6).read (.init 0) [6, 0]).delivered := by
      decide +kernel
    refine ⟨Nat.le_of_eq hconsumed, Nat.lt_of_lt_of_eq Nat.two_pos hconsumed.symm,
      .finished (Nat.le_of_eq hconsumed) (.inr ⟨rfl, hconsumed⟩) ?_ hdelivered⟩
    exact fun b hb => by cases hb

end Upcn.Tcpclv3
