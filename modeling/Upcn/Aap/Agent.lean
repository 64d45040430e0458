import Upcn.Aap.RoundTrip
import Mathlib.Data.List.Forall2

/-!
# Receiving from the socket

`receive_from_socket` of `application_agent.c`.  One call receives once, parses at
most one message, and keeps what is left for the next call.
-/

namespace Upcn.Aap

open Upcn.Bundle6 (ParserStatus)

/-- `APPLICATION_AGENT_RX_BUFFER_SIZE`. -/
def rxBufferSize : Nat := 512

/-- The connection: its parser, the bytes available in `rx_buffer`, and the messages
that were passed to `process_aap_message`. -/
structure Connection where
  parser : Parser
  buffer : List UInt8
  processed : List Message
  deriving DecidableEq

/-- Why there is no connection after a call: the process was aborted, or `recv` has
received nothing, and the task ends. -/
inductive Fault where
  | aborted
  | closed
  deriving DecidableEq

namespace Connection

/-- The connection when its task starts. -/
def initial : Connection := ⟨.aapParserInit, [], []⟩

/-- A parser that is not `GOOD` has come to the end of a message, or has failed. -/
def finish (c : Connection) : Connection :=
  if c.parser.status ≠ .good then
    if c.parser.status = .done then
      let extracted := c.parser.aapParserExtractMessage
      { c with
        processed := c.processed ++ [extracted.1]
        parser := extracted.2.aapParserReset }
    else { c with parser := c.parser.aapParserReset }
  else c

/-- `receive_from_socket`, where `recv` receives `piece`. -/
def receiveFromSocket (mem : Nat → Bool) (c : Connection) (piece : List UInt8) :
    Except Fault Connection :=
  if piece = [] then .error .closed
  else
    match c.parser.parseAap mem (c.buffer ++ piece) with
    | none => .error .aborted
    | some (parser, left) => .ok { finish { c with parser := parser } with buffer := left }

theorem finish_good {c : Connection} (h : c.parser.status = .good) : c.finish = c :=
  if_neg fun hne => hne h

/-- A call processes at most one message. -/
theorem length_processed_finish (c : Connection) :
    c.finish.processed.length ≤ c.processed.length + 1 := by
  unfold finish
  split_ifs <;> simp

theorem length_processed {mem : Nat → Bool} {c d : Connection} {piece : List UInt8}
    (h : c.receiveFromSocket mem piece = .ok d) :
    d.processed.length ≤ c.processed.length + 1 := by
  unfold receiveFromSocket at h
  split at h
  · cases h
  · split at h
    · cases h
    · rename_i parser left _
      obtain rfl := Except.ok.inj h
      exact length_processed_finish { c with parser := parser }

end Connection

/-! ## Runs -/

/-- The bytes of the messages, one after the other. -/
def stream (ms : List Message) : List UInt8 := ms.flatMap Message.aapSerialize

/-- The messages whose last byte is among the first so many bytes of the stream. -/
def completed : List Message → Nat → List Message
  | [], _ => []
  | m :: ms, n =>
    if m.aapSerialize.length ≤ n then m :: completed ms (n - m.aapSerialize.length) else []

/-- The pieces that were received of the stream, the connection, and the bytes that are
still to come.  `recv` receives at most what the buffer has room for. -/
inductive Run (mem : Nat → Bool) (ms : List Message) :
    List (List UInt8) → Connection → List UInt8 → Prop where
  | start : Run mem ms [] .initial (stream ms)
  | receive {pieces : List (List UInt8)} {c d : Connection} {piece rest : List UInt8}
      (run : Run mem ms pieces c (piece ++ rest)) (hpiece : piece ≠ [])
      (hroom : piece.length ≤ rxBufferSize - c.buffer.length)
      (hcall : c.receiveFromSocket mem piece = .ok d) : Run mem ms (pieces ++ [piece]) d rest

/-- The messages that were processed are those whose last byte has been received, there
is room for more, and the next call succeeds, whatever it receives. -/
structure InStep (mem : Nat → Bool) (ms : List Message) (pieces : List (List UInt8))
    (c : Connection) (unreceived : List UInt8) : Prop where
  processed : c.processed.Forall₂ Message.Same (completed ms pieces.flatten.length)
  available : c.buffer.length ≤ rxBufferSize
  room : unreceived ≠ [] → c.buffer.length < rxBufferSize
  calls : ∀ piece rest, unreceived = piece ++ rest → piece ≠ [] →
    piece.length ≤ rxBufferSize - c.buffer.length →
    ∃ d, c.receiveFromSocket mem piece = .ok d

/-- The piece completes at most one message. -/
def Separate (ms : List Message) (pieces : List (List UInt8)) (piece : List UInt8) : Prop :=
  (completed ms (pieces ++ [piece]).flatten.length).length ≤
    (completed ms pieces.flatten.length).length + 1

/-- The messages are messages of a C program, and fit the receive buffer. -/
structure Acceptable (m : Message) : Prop where
  valid : m.aapMessageIsValid = true
  sized : m.Sized
  fits : m.aapSerialize.length ≤ rxBufferSize

variable {mem : Nat → Bool} {m : Message} {ms more processed : List Message}
  {pieces : List (List UInt8)} {c d : Connection} {piece rest unread : List UInt8}

@[simp] theorem stream_nil : stream [] = [] := rfl

@[simp] theorem stream_cons (m : Message) (ms : List Message) :
    stream (m :: ms) = m.aapSerialize ++ stream ms := rfl

@[simp] theorem stream_append (done ms : List Message) :
    stream (done ++ ms) = stream done ++ stream ms := List.flatMap_append

@[simp] theorem completed_nil (n : Nat) : completed [] n = [] := rfl

/-- Before the next message is complete, no more are. -/
theorem completed_append (done : List Message) {n : Nat}
    (hle : (stream done).length ≤ n)
    (hlt : ∀ m more, ms = m :: more →
      n < (stream done).length + m.aapSerialize.length) :
    completed (done ++ ms) n = done := by
  induction done generalizing n with
  | nil =>
    cases ms with
    | nil => rfl
    | cons m more =>
      have hshort := hlt m more rfl
      rw [stream_nil, List.length_nil, Nat.zero_add] at hshort
      exact if_neg (by omega)
  | cons first done ih =>
    rw [stream_cons, List.length_append] at hle hlt
    rw [List.cons_append, completed, if_pos (by omega)]
    congr 1
    refine ih (by omega) fun m more heq => ?_
    have hshort := hlt m more heq
    omega

/-- Enough bytes for a message more complete it. -/
theorem le_length_completed (done : List Message) {n : Nat}
    (hle : (stream done).length ≤ n) :
    done.length ≤ (completed (done ++ ms) n).length := by
  induction done generalizing n with
  | nil => exact Nat.zero_le _
  | cons first done ih =>
    rw [stream_cons, List.length_append] at hle
    rw [List.cons_append, completed, if_pos (by omega)]
    exact Nat.succ_le_succ (ih (by omega))

/-! ## The invariant -/

/-- The parser waits for the first byte of a message. -/
def Parser.Fresh (p : Parser) : Prop :=
  ∃ consumed remaining, p = ⟨.good, 0, .type, .cleared .invalid, consumed, remaining⟩

/-- Where the connection stands in a message: so much of it is not parsed, and some of
that is not received. -/
structure Within (m : Message) (more : List Message) (c : Connection)
    (unread unreceived : List UInt8) : Prop where
  parser : At m c.parser unread
  split : unread ++ stream more = c.buffer ++ unreceived
  waits : c.buffer.length < unread.length
  le : unread.length ≤ m.aapSerialize.length

/-- Where the connection stands in the stream. -/
structure Between (done todo : List Message) (c : Connection) (unreceived : List UInt8) :
    Prop where
  processed : c.processed.Forall₂ Message.Same done
  idle : todo = [] → c.buffer = [] ∧ unreceived = []
  busy : ∀ m more, todo = m :: more → ∃ unread, Within m more c unread unreceived

theorem Run.length (run : Run mem ms pieces c rest) :
    pieces.flatten.length + rest.length = (stream ms).length := by
  induction run with
  | start => simp
  | receive _ _ _ _ ih =>
    rw [List.length_append] at ih
    rw [List.flatten_append, List.length_append, List.flatten_cons, List.flatten_nil,
      List.append_nil]
    omega

theorem Within.length (h : Within m more c unread rest) :
    unread.length + (stream more).length = c.buffer.length + rest.length := by
  have hlength := congrArg List.length h.split
  rwa [List.length_append, List.length_append] at hlength

/-- The messages that are complete are those before the one that is read. -/
theorem Between.completed_eq {done todo : List Message} (h : Between done todo c rest)
    {n : Nat} (hn : n + rest.length = (stream (done ++ todo)).length) :
    completed (done ++ todo) n = done := by
  rw [stream_append, List.length_append] at hn
  cases todo with
  | nil =>
    obtain ⟨-, rfl⟩ := h.idle rfl
    rw [stream_nil, List.length_nil] at hn
    exact completed_append done (by omega) fun m more heq => by cases heq
  | cons m more =>
    obtain ⟨unread, hwithin⟩ := h.busy m more rfl
    have hlength := hwithin.length
    have hwaits := hwithin.waits
    have hle := hwithin.le
    rw [stream_cons, List.length_append] at hn
    refine completed_append done (by omega) fun m' more' heq => ?_
    obtain ⟨rfl, rfl⟩ := List.cons.inj heq
    omega

theorem aapParserReset_fresh {p : Parser} (hmax : p.maxPayloadLength = 0) :
    p.aapParserReset.Fresh := by
  refine ⟨p.consumed, p.remaining, ?_⟩
  rw [Parser.aapParserReset, hmax]
  rfl

/-- A connection that is ready for the next message stands at its beginning. -/
theorem between_of_fresh {done todo : List Message} {p : Parser} {buffer : List UInt8}
    (hprocessed : processed.Forall₂ Message.Same done) (hfresh : p.Fresh)
    (hsplit : stream todo = buffer ++ rest)
    (hwaits : ∀ m more, todo = m :: more → buffer.length < m.aapSerialize.length) :
    Between done todo ⟨p, buffer, processed⟩ rest := by
  refine ⟨hprocessed, fun hnil => ?_, fun m more heq => ?_⟩
  · rw [hnil, stream_nil] at hsplit
    exact List.append_eq_nil_iff.mp hsplit.symm
  · obtain ⟨consumed, remaining, rfl⟩ := hfresh
    refine ⟨m.aapSerialize, .type consumed remaining, ?_, hwaits m more heq, Nat.le_refl _⟩
    rw [← stream_cons, ← heq]
    exact hsplit

/-- One call, in the middle of a message: the parser goes on by so many bytes. -/
theorem Within.call (h : Within m more c unread (piece ++ rest)) (hm : Acceptable m)
    (hcompletes : Completes mem m) (hpiece : piece ≠ []) :
    ∃ q n, c.receiveFromSocket mem piece = .ok
        { Connection.finish { c with parser := q } with
          buffer := (c.buffer ++ piece).drop n } ∧
      n ≤ c.buffer.length + piece.length ∧ n ≤ unread.length ∧ At m q (unread.drop n) ∧
      (unread.length ≤ c.buffer.length + piece.length → n = unread.length) := by
  have hvalid := Message.valid_of_isValid hm.valid
  have heq : (c.buffer ++ piece) ++ rest = unread ++ stream more := by
    rw [List.append_assoc, h.split]
  obtain ⟨q, n, hloop, hn, hn', hat, hend⟩ :=
    h.parser.parseLoop hvalid hm.sized hcompletes heq (Nat.lt_succ_self _)
  rw [List.length_append] at hend hn
  refine ⟨q, n, ?_, hn, hn', hat, hend⟩
  rw [Connection.receiveFromSocket, if_neg hpiece, Parser.parseAap, hloop]

/-- After the call, the connection stands in the message, or behind it, if the piece does
not complete the next message as well. -/
theorem Within.receive {done : List Message} (h : Within m more c unread (piece ++ rest))
    (hprocessed : c.processed.Forall₂ Message.Same done) (hm : Acceptable m)
    (hcompletes : Completes mem m) (hpiece : piece ≠ [])
    (hseparate : ∀ next later, more = next :: later →
      c.buffer.length + piece.length < unread.length + next.aapSerialize.length) :
    ∃ d, c.receiveFromSocket mem piece = .ok d ∧
      (Between done (m :: more) d rest ∨ Between (done ++ [m]) more d rest) := by
  obtain ⟨q, n, hcall, hn, hn', hat, hend⟩ := h.call hm hcompletes hpiece
  have hleft : (c.buffer ++ piece).drop n ++ rest = unread.drop n ++ stream more := by
    rw [← List.drop_append_of_le_length (by rwa [List.length_append]), List.append_assoc,
      ← h.split, List.drop_append_of_le_length hn']
  refine ⟨_, hcall, ?_⟩
  by_cases hall : unread.length ≤ c.buffer.length + piece.length
  · -- the message is complete, and the parser is reset
    obtain rfl := hend hall
    rw [List.drop_length] at hat hleft
    have hdone : q.status = .done := hat.status.2.mpr rfl
    obtain ⟨hsame, hmax⟩ := hat.same hdone
    have hfinish : Connection.finish { c with parser := q } =
        { c with
          processed := c.processed ++ [q.message]
          parser := q.aapParserExtractMessage.2.aapParserReset } := by
      rw [Connection.finish, if_pos (by rw [hdone]; decide), if_pos hdone,
        Parser.aapParserExtractMessage, if_neg fun hne => hne hdone]
    rw [hfinish]
    refine .inr (between_of_fresh ?_ (aapParserReset_fresh hmax) hleft.symm fun m' more' heq' => ?_)
    · exact List.rel_append hprocessed (.cons hsame .nil)
    · have hshort := hseparate m' more' heq'
      rw [List.length_drop, List.length_append]
      omega
  · -- the parser has taken what it can
    have hgood : q.status = .good := by
      cases hstatus : q.status with
      | good => rfl
      | error => exact absurd hstatus hat.status.1
      | done =>
        have hnil := congrArg List.length (hat.status.2.mp hstatus)
        rw [List.length_drop, List.length_nil] at hnil
        omega
    have hstatus : ({ c with parser := q } : Connection).parser.status = .good := hgood
    rw [Connection.finish_good hstatus]
    refine .inl ⟨hprocessed, fun hnil => (by cases hnil), fun m' more' heq' => ?_⟩
    obtain ⟨rfl, rfl⟩ := List.cons.inj heq'
    refine ⟨unread.drop n, hat, hleft.symm, ?_, ?_⟩
    · show ((c.buffer ++ piece).drop n).length < _
      rw [List.length_drop, List.length_append, List.length_drop]
      omega
    · have hle := h.le
      rw [List.length_drop]
      omega

theorem Connection.initial_fresh : initial.parser.Fresh := ⟨0, 0, rfl⟩

/-- A piece that completes at most one message ends before the end of the next one. -/
theorem Run.lt_of_separate {done later : List Message} {next : Message}
    (run : Run mem (done ++ m :: more) pieces c (piece ++ rest))
    (hbetween : Between done (m :: more) c (piece ++ rest))
    (hwithin : Within m more c unread (piece ++ rest)) (hmore : more = next :: later)
    (hseparate : Separate (done ++ m :: more) pieces piece) :
    c.buffer.length + piece.length < unread.length + next.aapSerialize.length := by
  subst hmore
  have hrun := run.length
  have hlength := hwithin.length
  rw [Separate, hbetween.completed_eq hrun] at hseparate
  simp only [stream_append, stream_cons, List.length_append] at hrun hlength
  by_contra hge
  have hcompleted := @le_length_completed later (done ++ [m, next])
    (pieces ++ [piece]).flatten.length (by
      simp only [stream_append, stream_cons, stream_nil, List.flatten_append,
        List.flatten_cons, List.flatten_nil, List.length_append, List.length_nil]
      omega)
  rw [List.append_assoc] at hcompleted
  simp only [List.cons_append, List.nil_append, List.length_append, List.length_cons,
    List.length_nil] at hcompleted hseparate
  omega

/-- The run stands somewhere in the stream, as long as no piece completes more than one
message. -/
theorem Run.between (hms : ∀ m ∈ ms, Acceptable m) (hcompletes : ∀ m ∈ ms, Completes mem m)
    (run : Run mem ms pieces c rest)
    (hseparate : ∀ pre piece, pre ++ [piece] <+: pieces → Separate ms pre piece) :
    ∃ done todo, ms = done ++ todo ∧ Between done todo c rest := by
  induction run with
  | start =>
    refine ⟨[], ms, rfl, between_of_fresh .nil Connection.initial_fresh rfl fun m more _ => ?_⟩
    exact Nat.succ_pos _
  | @receive pieces c d piece rest run hpiece hroom hcall ih =>
    obtain ⟨done, todo, rfl, hbetween⟩ := ih fun pre piece' hpre =>
      hseparate pre piece' (hpre.trans (List.prefix_append _ _))
    cases todo with
    | nil =>
      obtain ⟨-, hnil⟩ := hbetween.idle rfl
      exact absurd (List.append_eq_nil_iff.mp hnil).1 hpiece
    | cons m more =>
      obtain ⟨unread, hwithin⟩ := hbetween.busy m more rfl
      have hmem : m ∈ done ++ m :: more := List.mem_append_right _ List.mem_cons_self
      have hshort : ∀ next later, more = next :: later →
          c.buffer.length + piece.length < unread.length + next.aapSerialize.length :=
        fun next later hmore => run.lt_of_separate hbetween hwithin hmore
          (hseparate pieces piece (List.prefix_refl _))
      obtain ⟨d', hcall', hnext⟩ := hwithin.receive hbetween.processed (hms m hmem)
        (hcompletes m hmem) hpiece hshort
      obtain rfl := Except.ok.inj (hcall.symm.trans hcall')
      cases hnext with
      | inl hnext => exact ⟨done, m :: more, rfl, hnext⟩
      | inr hnext => exact ⟨done ++ [m], more, by simp, hnext⟩

/-- A run comes by every piece that it has received. -/
theorem Run.of_prefix (run : Run mem ms pieces c rest) {pre : List (List UInt8)}
    (hpre : pre ++ [piece] <+: pieces) :
    ∃ c' d' rest', Run mem ms pre c' (piece ++ rest') ∧
      c'.receiveFromSocket mem piece = .ok d' ∧ Run mem ms (pre ++ [piece]) d' rest' := by
  induction run with
  | start => simp at hpre
  | @receive pieces c d last rest run hlast hroom hcall ih =>
    cases List.prefix_concat_iff.mp hpre with
    | inl heq =>
      obtain ⟨rfl, hpiece⟩ := List.append_inj' heq rfl
      obtain ⟨rfl, -⟩ := List.cons.inj hpiece
      exact ⟨c, d, rest, run, hcall, .receive run hlast hroom hcall⟩
    | inr hpre => exact ih hpre

theorem Between.inStep {done todo : List Message} (h : Between done todo c rest)
    (hms : ∀ m ∈ todo, Acceptable m) (hcompletes : ∀ m ∈ todo, Completes mem m)
    (run : Run mem (done ++ todo) pieces c rest) :
    InStep mem (done ++ todo) pieces c rest := by
  have hcompleted := h.completed_eq run.length
  cases todo with
  | nil =>
    obtain ⟨hbuffer, rfl⟩ := h.idle rfl
    refine ⟨?_, ?_, fun hne => absurd rfl hne, fun piece rest heq hpiece => ?_⟩
    · rw [hcompleted]
      exact h.processed
    · rw [hbuffer]
      exact Nat.zero_le _
    · exact absurd (List.append_eq_nil_iff.mp heq.symm).1 hpiece
  | cons m more =>
    obtain ⟨unread, hwithin⟩ := h.busy m more rfl
    have hm := hms m List.mem_cons_self
    have hlt : c.buffer.length < rxBufferSize :=
      Nat.lt_of_lt_of_le hwithin.waits (Nat.le_trans hwithin.le hm.fits)
    refine ⟨?_, Nat.le_of_lt hlt, fun _ => hlt, fun piece rest heq hpiece _ => ?_⟩
    · rw [hcompleted]
      exact h.processed
    · subst heq
      obtain ⟨q, n, hcall, -⟩ := hwithin.call hm (hcompletes m List.mem_cons_self) hpiece
      exact ⟨_, hcall⟩

/-! ## The result -/

/-- The messages that were processed are in step with those that were received, after each
call, exactly if no piece completes more than one message. -/
theorem inStep_iff (mem : Nat → Bool) (ms : List Message) (pieces : List (List UInt8))
    (c : Connection) (rest : List UInt8) (hms : ∀ m ∈ ms, Acceptable m)
    (hcompletes : ∀ m ∈ ms, Completes mem m) (run : Run mem ms pieces c rest) :
    (∀ pre c' rest', pre <+: pieces → Run mem ms pre c' rest' → InStep mem ms pre c' rest') ↔
      ∀ pre piece, pre ++ [piece] <+: pieces → Separate ms pre piece := by
  constructor
  · intro hinStep pre piece hpre
    obtain ⟨c', d', rest', before, hcall, after⟩ := run.of_prefix hpre
    have hbefore := hinStep pre c' _ ((List.prefix_append _ _).trans hpre) before
    have hafter := hinStep _ d' _ hpre after
    rw [Separate, ← hafter.processed.length_eq, ← hbefore.processed.length_eq]
    exact Connection.length_processed hcall
  · intro hseparate pre c' rest' hpre run'
    obtain ⟨done, todo, rfl, hbetween⟩ := run'.between hms hcompletes fun pre' piece hpre' =>
      hseparate pre' piece (hpre'.trans hpre)
    exact hbetween.inStep (fun m hm => hms m (List.mem_append_right _ hm))
      (fun m hm => hcompletes m (List.mem_append_right _ hm)) run'

/-- `PING`. -/
def ping : Message := ⟨.ping, none, 0, none, 0, 0⟩

theorem ping_acceptable : Acceptable ping :=
  ⟨by decide, ⟨fun payload h => (by cases h), by decide, by decide⟩, by decide⟩

/-- Of two messages in one piece, the second one is left in the buffer. -/
theorem ping_twice : (∀ m ∈ [ping, ping], Acceptable m) ∧
    ∃ c, Run (fun _ => true) [ping, ping] [[24, 24]] c [] ∧ c.buffer = [24] ∧
      ¬ InStep (fun _ => true) [ping, ping] [[24, 24]] c [] := by
  refine ⟨by simp [ping_acceptable], ⟨.aapParserInit, [24], [ping]⟩, ?_, rfl, fun h => ?_⟩
  · exact Run.receive (show Run _ _ [] _ _ from .start) (by decide) (by decide) (by decide)
  · have hlength := h.processed.length_eq
    revert hlength
    decide

/-- `REGISTER` of `sink`. -/
def registerSink : Message := ⟨.register, some [115, 105, 110, 107], 4, none, 0, 0⟩

/-- The bytes of `twoBytes` and `registerSink`: the first piece ends in the EID of the first
message, the second one in the length of the EID of the other. -/
def threePieces : List (List UInt8) :=
  [[0x13, 0, 5, 100, 116], [110, 58, 98, 0, 0, 0, 0, 0, 0, 0, 2, 104, 105, 0x12, 0],
    [4, 115, 105, 110, 107]]

theorem threePieces_acceptable : ∀ m ∈ [twoBytes, registerSink], Acceptable m := by
  simp only [List.mem_cons, List.not_mem_nil, or_false, forall_eq_or_imp, forall_eq]
  exact ⟨⟨by decide, twoBytes_sized, by decide⟩,
    ⟨by decide, ⟨fun payload h => (by cases h), by decide, by decide⟩, by decide⟩⟩

theorem run_threePieces : ∃ c, Run (fun _ => true) [twoBytes, registerSink] threePieces c [] ∧
    c.processed = [twoBytes, registerSink] ∧ c.buffer = [] :=
  ⟨_, .receive (.receive (.receive (show Run _ _ [] _ _ from .start) (by decide) (by decide) rfl)
    (by decide) (by decide) rfl) (by decide) (by decide) rfl, rfl, rfl⟩

theorem inStep_iff_threePieces : ∃ c, c.processed = [twoBytes, registerSink] ∧
    InStep (fun _ => true) [twoBytes, registerSink] threePieces c [] := by
  obtain ⟨c, hrun, hprocessed, -⟩ := run_threePieces
  refine ⟨c, hprocessed, (inStep_iff _ _ _ _ _ threePieces_acceptable ?_ hrun).mpr ?_ _ _ _
    (List.prefix_refl _) hrun⟩
  · simp only [List.mem_cons, List.not_mem_nil, or_false, forall_eq_or_imp, forall_eq]
    exact ⟨⟨fun _ => rfl, fun _ => ⟨by decide, rfl⟩⟩, fun _ => rfl, fun h => (by cases h)⟩
  · intro pre piece hpre
    obtain ⟨rest, heq⟩ := hpre
    have hlength := congrArg List.length heq
    unfold Separate
    rcases pre with _ | ⟨p₁, _ | ⟨p₂, _ | ⟨p₃, more⟩⟩⟩
    all_goals
      simp only [threePieces, List.cons_append, List.nil_append, List.cons.injEq] at heq
    · obtain ⟨rfl, -⟩ := heq
      decide
    · obtain ⟨rfl, rfl, -⟩ := heq
      decide
    · obtain ⟨rfl, rfl, rfl, -⟩ := heq
      decide
    · simp [threePieces] at hlength

end Upcn.Aap
