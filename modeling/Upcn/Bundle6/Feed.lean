import Upcn.Bundle6.Stream
import Upcn.Bundle6.Sdnv

/-!
# Feeding the parser

`Reaches` says what the parser does with bytes, whatever comes after them.  The
stages that read an SDNV are `Field`s; `Field.feed` is what they do with an SDNV
that was written.
-/

namespace Upcn.Bundle6

open Machine

namespace Parser

variable {env : ParserEnv} {s t : Parser} {byte : UInt8} {bytes more : List UInt8}

/-- The parser takes the bytes, and is in this state behind them. -/
def Reaches (env : ParserEnv) (s : Parser) (bytes : List UInt8) (t : Parser) : Prop :=
  ∀ rest, Steps (reader env).step (s, bytes ++ rest) (t, rest)

/-- The parser fails in the bytes. -/
def Rejects (env : ParserEnv) (s : Parser) (bytes : List UInt8) : Prop :=
  ∀ rest, ∃ t left, Steps (reader env).step (s, bytes ++ rest) (t, left) ∧
    t.status = .error

theorem Reaches.refl (s : Parser) : Reaches env s [] s := fun _ => .refl

theorem Reaches.append {u : Parser} (h : Reaches env s bytes t)
    (hmore : Reaches env t more u) : Reaches env s (bytes ++ more) u := by
  intro rest
  have hfirst := h (more ++ rest)
  rw [← List.append_assoc] at hfirst
  exact hfirst.trans (hmore rest)

theorem Reaches.rejects (h : Reaches env s bytes t) (hmore : Rejects env t more) :
    Rejects env s (bytes ++ more) := by
  intro rest
  obtain ⟨u, left, hsteps, herror⟩ := hmore rest
  have hfirst := h (more ++ rest)
  rw [← List.append_assoc] at hfirst
  exact ⟨u, left, hfirst.trans hsteps, herror⟩

theorem Rejects.append (h : Rejects env s bytes) (more : List UInt8) :
    Rejects env s (bytes ++ more) := by
  intro rest
  rw [List.append_assoc]
  exact h (more ++ rest)

/-- The parser is waiting for a byte. -/
structure Open (s : Parser) : Prop where
  status : s.status = .good
  bulkRead : s.bulkRead = false

theorem Open.reaches_byte (hs : s.Open) :
    Reaches env s [byte] (s.bundle6ParserReadByte env byte) := by
  intro rest
  refine Relation.ReflTransGen.single (Reader.step_item ?_ ?_)
  · simp [reader, hs.status]
  · simp [reader, hs.bulkRead]

theorem Open.rejects_byte (hs : s.Open)
    (h : (s.bundle6ParserReadByte env byte).status = .error) :
    Rejects env s [byte] :=
  fun rest => ⟨_, rest, hs.reaches_byte rest, h⟩

/-- A requested bulk. -/
theorem reaches_bulk (hstatus : s.status = .good) (hbulk : s.bulkRead = true)
    (hlength : bytes.length = s.nextBytes) :
    Reaches env s bytes (s.completeBulk env bytes) := by
  intro rest
  refine Relation.ReflTransGen.single ?_
  have hle : s.nextBytes ≤ (bytes ++ rest).length := by
    rw [List.length_append]
    omega
  have hstep := Reader.step_of_pending (R := reader env) (s := s) (n := s.nextBytes)
    (by simp [reader, hstatus]) (by simp [reader, hbulk]) hle
  rw [List.take_append_of_le_length (Nat.le_of_eq hlength.symm),
    List.drop_append_of_le_length (Nat.le_of_eq hlength.symm),
    List.take_of_length_le (Nat.le_of_eq hlength),
    List.drop_of_length_le (Nat.le_of_eq hlength)] at hstep
  exact hstep

/-! ## The end of a call -/

/-- Bytes that end a run decide what a call with them comes to. -/
theorem Reaches.read (h : Reaches env s bytes t) (hs : s.Valid) (ht : t.status ≠ .good) :
    (s.bundle6ParserRead env bytes).1.completeEmptyBulk env = t ∧
      (s.bundle6ParserRead env bytes).2 = [] := by
  have hrun := h []
  rw [List.append_nil] at hrun
  have hend : (reader env).step (t, []) = none := by
    rw [Reader.step_eq_none_iff]
    intro hgood
    exact absurd (by simpa [reader] using hgood) ht
  obtain ⟨hread, hnone⟩ := Reader.read_complete (reader_lawful env) hs bytes
  have heq := hrun.unique hend hread hnone
  rw [← complete_eq]
  exact ⟨congrArg Prod.fst heq, congrArg Prod.snd heq⟩

theorem Rejects.read (h : Rejects env s bytes) (hs : s.Valid) :
    ((s.bundle6ParserRead env bytes).1.completeEmptyBulk env).status = .error := by
  obtain ⟨t, left, hrun, herror⟩ := h []
  rw [List.append_nil] at hrun
  have hend : (reader env).step (t, left) = none := by
    rw [Reader.step_eq_none_iff]
    intro hgood
    have : t.status = .good := by simpa [reader] using hgood
    rw [herror] at this
    cases this
  obtain ⟨hread, hnone⟩ := Reader.read_complete (reader_lawful env) hs bytes
  have heq := hrun.unique hend hread hnone
  rw [← complete_eq, ← herror]
  exact congrArg (fun x : Parser × List UInt8 => x.1.status) heq

/-! ## The primary block counts its bytes -/

/-- `primary_bytes_remaining` after so many bytes. -/
def remainingAfter (s : Parser) (n : Nat) : Nat :=
  if s.currentBlock = .primary then
    (s.primaryBytesRemaining + n * (2 ^ 16 - 1)) % 2 ^ 16
  else s.primaryBytesRemaining

/-- So many bytes are left to the primary block, where its length is known. -/
def HasLeft (s : Parser) (n : Nat) : Prop :=
  s.primaryBytesRemaining < 2 ^ 16 ∧
    (s.currentBlock = .primary → s.lengthKnown = true → n ≤ s.primaryBytesRemaining)

/-- The state with this count of remaining bytes. -/
def withRemaining (s : Parser) (remaining : Nat) : Parser :=
  { s with primaryBytesRemaining := remaining }

/-- The end of `bundle6_parser_read_byte`. -/
def settle (env : ParserEnv) (s : Parser) : Parser :=
  if s.currentStage ≠ s.nextStage ∧ s.status ≠ .error then s.bundle6ParserNext env else s

theorem settle_of_ne (hstage : s.currentStage ≠ s.nextStage) (hstatus : s.status ≠ .error) :
    s.settle env = s.bundle6ParserNext env :=
  if_pos ⟨hstage, hstatus⟩

theorem readByte_eq (h : s.HasLeft 1) :
    s.bundle6ParserReadByte env byte =
      ((s.withRemaining (s.remainingAfter 1)).readStage env byte).settle env := by
  unfold bundle6ParserReadByte settle withRemaining
  rw [if_neg]
  · unfold remainingAfter
    by_cases hprimary : s.currentBlock = .primary
    · simp only [if_pos hprimary, Nat.one_mul]
    · simp only [if_neg hprimary]
  · rintro ⟨hprimary, hknown, hzero⟩
    have := h.2 hprimary hknown
    omega

/-! ## Fields -/

end Parser

/-- A stage that reads an SDNV. -/
structure Field where
  stage : Stage
  /-- The width of the reader, and its limits. -/
  width : Nat
  maxBytes : Nat
  maxValue : Nat
  get : Parser → Nat
  set : Parser → Nat → Parser
  /-- What the stage does when the number is read. -/
  finish : ParserEnv → Parser → Parser

namespace Field

open Upcn.Bundle6.Parser

variable {env : ParserEnv} {f : Field} {s : Parser} {value size : Nat}

/-- The state with some bytes of the number read. -/
def reading (f : Field) (s : Parser) (value : Nat) (state : SdnvState)
    (remaining : Nat) : Parser :=
  { f.set s value with sdnvState := state, primaryBytesRemaining := remaining }

/-- What the stage does with the number read so far. -/
def afterSdnv (f : Field) (env : ParserEnv) (s : Parser) (read : SdnvState × Nat) :
    Parser :=
  let s := f.reading s read.2 read.1 s.primaryBytesRemaining
  match read.1.status with
  | .inProgress => s
  | .done => f.finish env s
  | .error => { s with status := .error, error := .sdnvFailure }

/-- The field is one of the parser. -/
structure Lawful (f : Field) : Prop where
  fits : SdnvFits f.width f.maxBytes f.maxValue
  readStage : ∀ env s byte, s.currentStage = f.stage →
    s.readStage env byte = f.afterSdnv env s
      (sdnvReadGeneric f.width f.maxBytes f.maxValue s.sdnvState (f.get s) byte)
  get_reading : ∀ s v st r, f.get (f.reading s v st r) = v
  reading_reading : ∀ s v st r v' st' r',
    f.reading (f.reading s v st r) v' st' r' = f.reading s v' st' r'
  get_withRemaining : ∀ s r, f.get (s.withRemaining r) = f.get s
  reading_withRemaining : ∀ s r v st r',
    f.reading (s.withRemaining r) v st r' = f.reading s v st r'
  status : ∀ s v, (f.set s v).status = s.status
  bulkRead : ∀ s v, (f.set s v).bulkRead = s.bulkRead
  currentStage : ∀ s v, (f.set s v).currentStage = s.currentStage
  nextStage : ∀ s v, (f.set s v).nextStage = s.nextStage
  currentBlock : ∀ s v, (f.set s v).currentBlock = s.currentBlock

/-- The parser stands at the beginning of the field. -/
structure At (f : Field) (s : Parser) : Prop extends s.Open where
  currentStage : s.currentStage = f.stage
  nextStage : s.nextStage = f.stage
  sdnvState : s.sdnvState = .reset

/-- The parser behind the field. -/
def accept (f : Field) (env : ParserEnv) (s : Parser) (value size : Nat) : Parser :=
  (f.finish env (f.reading s value ⟨.done, size⟩ (s.remainingAfter size))).settle env

/-- What holds when the parser that began the field in `s` has read `k` groups of
the number, with the value `u`, and is in `t`. -/
structure Started (f : Field) (s : Parser) (u k : Nat) (t : Parser) : Prop
    extends t.Open where
  currentStage : t.currentStage = f.stage
  nextStage : t.nextStage = f.stage
  currentBlock : t.currentBlock = s.currentBlock
  sdnvState : t.sdnvState = ⟨.inProgress, k⟩
  get : k ≠ 0 → f.get t = u
  reading : ∀ v st r, f.reading t v st r = f.reading s v st r
  remaining : t.primaryBytesRemaining = s.remainingAfter k

theorem At.started (h : f.At s) (hleft : s.HasLeft size) : f.Started s 0 0 s where
  toOpen := h.toOpen
  currentStage := h.currentStage
  nextStage := h.nextStage
  currentBlock := rfl
  sdnvState := h.sdnvState
  get hne := absurd rfl hne
  reading _ _ _ := rfl
  remaining := by
    unfold remainingAfter
    split
    · rw [Nat.zero_mul, Nat.add_zero, Nat.mod_eq_of_lt hleft.1]
    · rfl

variable {t : Parser} {u k : Nat} {byte : UInt8}

theorem Started.hasLeft (h : f.Started s u k t) (hs : f.At s) (hleft : s.HasLeft size)
    (hk : k < size) : t.HasLeft 1 := by
  have hknown : t.lengthKnown = s.lengthKnown := by
    unfold lengthKnown
    rw [h.currentStage, hs.currentStage]
  obtain ⟨hlt, hle⟩ := hleft
  refine ⟨?_, fun hprimary hlength => ?_⟩
  · rw [h.remaining, remainingAfter]
    split <;> omega
  · rw [h.currentBlock] at hprimary
    have := hle hprimary (hknown ▸ hlength)
    rw [h.remaining, remainingAfter, if_pos hprimary]
    omega

theorem Started.remainingAfter (h : f.Started s u k t) :
    t.remainingAfter 1 = s.remainingAfter (k + 1) := by
  unfold Parser.remainingAfter
  rw [h.currentBlock, h.remaining]
  unfold Parser.remainingAfter
  split <;> omega

/-- One more byte of a number that fits. -/
theorem Started.step (h : f.Started s u k t) (hf : f.Lawful) (hs : f.At s)
    (hleft : s.HasLeft size) (hk : k < size)
    (hfits : k < f.maxBytes ∨ k = f.maxBytes ∧ u ≤ f.maxValue)
    (hshift : u * 2 ^ 7 < 2 ^ f.width) :
    t.bundle6ParserReadByte env byte =
      let value := (if k = 0 then 0 else u * 2 ^ 7) + byte.toNat % 2 ^ 7
      if byte.toNat < 2 ^ 7 then f.accept env s value (k + 1)
      else f.reading s value ⟨.inProgress, k + 1⟩ (s.remainingAfter (k + 1)) := by
  have hread : sdnvReadGeneric f.width f.maxBytes f.maxValue ⟨.inProgress, k⟩ (f.get t)
      byte = (⟨if byte.toNat < 2 ^ 7 then .done else .inProgress, k + 1⟩,
        (if k = 0 then 0 else u * 2 ^ 7) + byte.toNat % 2 ^ 7) := by
    by_cases hzero : k = 0
    · subst hzero
      have hpos := hf.fits.bytes
      rw [sdnvReadGeneric_of_fits (.inl hpos) (fun hne => absurd rfl hne)]
      simp
    · rw [h.get hzero, sdnvReadGeneric_of_fits hfits fun _ => hshift]
  have hstage : (t.withRemaining (t.remainingAfter 1)).readStage env byte =
      f.afterSdnv env (t.withRemaining (t.remainingAfter 1))
        (sdnvReadGeneric f.width f.maxBytes f.maxValue ⟨.inProgress, k⟩ (f.get t) byte) := by
    have hread := hf.readStage env (t.withRemaining (t.remainingAfter 1)) byte
      h.currentStage
    rwa [hf.get_withRemaining, show (t.withRemaining (t.remainingAfter 1)).sdnvState =
      ⟨.inProgress, k⟩ from h.sdnvState] at hread
  have hremaining : (t.withRemaining (t.remainingAfter 1)).primaryBytesRemaining =
      s.remainingAfter (k + 1) := h.remainingAfter
  rw [readByte_eq (h.hasLeft hs hleft hk), hstage, hread, afterSdnv,
    hf.reading_withRemaining, h.reading, hremaining]
  dsimp only
  by_cases hlast : byte.toNat < 2 ^ 7
  · rw [if_pos hlast, if_pos hlast]
    rfl
  · rw [if_neg hlast, if_neg hlast]
    refine if_neg fun hne => hne.1 ?_
    show (f.set s _).currentStage = (f.set s _).nextStage
    rw [hf.currentStage, hf.nextStage, hs.currentStage, hs.nextStage]

theorem Started.more (hf : f.Lawful) (hs : f.At s) (u k : Nat) :
    f.Started s u k (f.reading s u ⟨.inProgress, k⟩ (s.remainingAfter k)) where
  status := (hf.status s u).trans hs.status
  bulkRead := (hf.bulkRead s u).trans hs.bulkRead
  currentStage := (hf.currentStage s u).trans hs.currentStage
  nextStage := (hf.nextStage s u).trans hs.nextStage
  currentBlock := hf.currentBlock s u
  sdnvState := rfl
  get _ := hf.get_reading ..
  reading _ _ _ := hf.reading_reading ..
  remaining := rfl

/-- The groups of a number that fits. -/
theorem feed_groups (env : ParserEnv) (hf : f.Lawful) (hs : f.At s)
    (hleft : s.HasLeft size) (hk : k ≤ f.maxBytes) (hsize : k ≤ size)
    (hvalue : u * 2 ^ 7 < 2 ^ f.width) (hgroups : u < 2 ^ (7 * k)) :
    ∃ t, Reaches env s (sdnvGroups k u) t ∧ f.Started s u k t := by
  induction k generalizing u with
  | zero =>
    obtain rfl : u = 0 := by simpa using hgroups
    exact ⟨s, Reaches.refl s, hs.started hleft⟩
  | succ k ih =>
    have hle : u / 2 ^ 7 * 2 ^ 7 ≤ u := Nat.div_mul_le_self u (2 ^ 7)
    have hdiv : u / 2 ^ 7 < 2 ^ (7 * k) := by
      rw [Nat.div_lt_iff_lt_mul (by omega), ← Nat.pow_add]
      exact hgroups
    obtain ⟨t, hreaches, ht⟩ := ih (by omega) (by omega) (by omega) hdiv
    have hbyte : (UInt8.ofNat (u % 2 ^ 7 + 2 ^ 7)).toNat = u % 2 ^ 7 + 2 ^ 7 := by
      rw [UInt8.toNat_ofNat']
      omega
    have hstep := @Started.step env f s size t (u / 2 ^ 7) k
      (UInt8.ofNat (u % 2 ^ 7 + 2 ^ 7)) ht hf hs hleft (by omega) (.inl (by omega)) (by omega)
    have hnew : (if k = 0 then 0 else u / 2 ^ 7 * 2 ^ 7) +
        (u % 2 ^ 7 + 2 ^ 7) % 2 ^ 7 = u := by
      split
      · rename_i hzero
        subst hzero
        omega
      · omega
    rw [hbyte, if_neg (by omega), hnew] at hstep
    refine ⟨_, ?_, Started.more hf hs u (k + 1)⟩
    rw [sdnvGroups_succ, ← hstep]
    exact hreaches.append ht.toOpen.reaches_byte

/-- An SDNV that was written, and that fits. -/
theorem feed (env : ParserEnv) (hf : f.Lawful) (hs : f.At s) (hleft : s.HasLeft size)
    (hpos : 0 < size) (hsize : size ≤ f.maxBytes + 1) (hvalue : value < 2 ^ f.width)
    (hgroups : value < 2 ^ (7 * size)) :
    Reaches env s (sdnvWriteGeneric size value) (f.accept env s value size) := by
  obtain ⟨k, rfl⟩ : ∃ k, size = k + 1 := ⟨size - 1, by omega⟩
  obtain ⟨haccepts, hshift⟩ := hf.fits.accepts hvalue (k := k) (by omega)
  have hdiv : value / 2 ^ 7 < 2 ^ (7 * k) := by
    rw [Nat.div_lt_iff_lt_mul (by omega), ← Nat.pow_add]
    exact hgroups
  obtain ⟨t, hreaches, ht⟩ := feed_groups env hf hs hleft (by omega) (Nat.le_succ k)
    hshift hdiv
  have hbyte : (UInt8.ofNat (value % 2 ^ 7)).toNat = value % 2 ^ 7 := by
    rw [UInt8.toNat_ofNat']
    omega
  have hstep := @Started.step env f s (k + 1) t (value / 2 ^ 7) k
    (UInt8.ofNat (value % 2 ^ 7)) ht hf hs hleft (Nat.lt_succ_self k) haccepts hshift
  have hnew : (if k = 0 then 0 else value / 2 ^ 7 * 2 ^ 7) + value % 2 ^ 7 % 2 ^ 7 =
      value := by
    split
    · rename_i hzero
      subst hzero
      omega
    · omega
  rw [hbyte, if_pos (by omega), hnew] at hstep
  rw [sdnvWriteGeneric_succ, ← hstep]
  exact hreaches.append ht.toOpen.reaches_byte

/-- The groups that are written begin with the groups of a smaller number. -/
theorem sdnvGroups_append (k j u : Nat) :
    ∃ more, sdnvGroups (k + j) u = sdnvGroups k (u / 2 ^ (7 * j)) ++ more ∧
      more.length = j := by
  induction j generalizing u with
  | zero => exact ⟨[], by simp, rfl⟩
  | succ j ih =>
    obtain ⟨more, hmore, hlength⟩ := ih (u / 2 ^ 7)
    refine ⟨more ++ [UInt8.ofNat (u % 2 ^ 7 + 2 ^ 7)], ?_, by simp [hlength]⟩
    rw [← Nat.add_assoc, sdnvGroups_succ, hmore, Nat.div_div_eq_div_mul, ← Nat.pow_add,
      List.append_assoc, Nat.mul_succ, Nat.add_comm 7]

/-- Where no byte of the primary block is left, the next byte is rejected. -/
theorem rejects_exhausted {bytes : List UInt8} (hs : s.Open) (hprimary : s.currentBlock = .primary)
    (hknown : s.lengthKnown = true) (hzero : s.primaryBytesRemaining = 0) (hne : bytes ≠ []) :
    Rejects env s bytes := by
  obtain ⟨byte, bytes, rfl⟩ := List.exists_cons_of_ne_nil hne
  have hread : (s.bundle6ParserReadByte env byte).status = .error := by
    rw [bundle6ParserReadByte, if_pos ⟨hprimary, hknown, hzero⟩]
  exact (hs.rejects_byte hread).append bytes

/-- An SDNV that does not fit into what is left of the primary block. -/
theorem rejects (env : ParserEnv) (hf : f.Lawful) (hs : f.At s)
    (hprimary : s.currentBlock = .primary) (hknown : s.lengthKnown = true)
    (hlt : s.primaryBytesRemaining < 2 ^ 16) (hless : s.primaryBytesRemaining < size)
    (hsize : size ≤ f.maxBytes + 1) (hvalue : value < 2 ^ f.width)
    (hgroups : value < 2 ^ (7 * size)) : Rejects env s (sdnvWriteGeneric size value) := by
  generalize hk : s.primaryBytesRemaining = k at hlt hless
  obtain ⟨j, rfl⟩ : ∃ j, size = k + j + 1 := ⟨size - k - 1, by omega⟩
  obtain ⟨more, hmore, -⟩ := sdnvGroups_append k j (value / 2 ^ 7)
  rw [Nat.div_div_eq_div_mul, ← Nat.pow_add] at hmore
  generalize hu : value / 2 ^ (7 + 7 * j) = u at hmore
  have hdiv : u * 2 ^ (7 + 7 * j) ≤ value := hu ▸ Nat.div_mul_le_self _ _
  have hpow : 2 ^ 7 ≤ 2 ^ (7 + 7 * j) := Nat.pow_le_pow_right (by omega) (by omega)
  have hshift : u * 2 ^ 7 < 2 ^ f.width :=
    Nat.lt_of_le_of_lt (Nat.le_trans (Nat.mul_le_mul_left u hpow) hdiv) hvalue
  have hsmall : u < 2 ^ (7 * k) := by
    rw [← hu, Nat.div_lt_iff_lt_mul (Nat.two_pow_pos _), ← Nat.pow_add]
    rwa [show 7 * k + (7 + 7 * j) = 7 * (k + j + 1) by omega]
  have hleft : s.HasLeft k := ⟨hk ▸ hlt, fun _ _ => Nat.le_of_eq hk.symm⟩
  obtain ⟨t, hreaches, ht⟩ := feed_groups env hf hs hleft (by omega) (Nat.le_refl k) hshift hsmall
  have hzero : t.primaryBytesRemaining = 0 := by
    rw [ht.remaining, Parser.remainingAfter, if_pos hprimary, hk]
    omega
  have hknown' : t.lengthKnown = true := by
    rw [← hknown]
    unfold lengthKnown
    rw [ht.currentStage, hs.currentStage]
  rw [sdnvWriteGeneric_succ, hmore, List.append_assoc]
  exact hreaches.rejects (rejects_exhausted ht.toOpen (ht.currentBlock.trans hprimary) hknown' hzero
    (by simp))

/-! ## Fields that only store their number -/

/-- A field that stores the number, and goes on to the next stage. -/
def plain (stage : Stage) (width maxBytes maxValue : Nat) (get : Parser → Nat)
    (set : Parser → Nat → Parser) (next : Stage) : Field where
  stage := stage
  width := width
  maxBytes := maxBytes
  maxValue := maxValue
  get := get
  set := set
  finish _ s := { s with nextStage := next }

/-- `get` and `set` access one field of the state. -/
structure Accessor (get : Parser → Nat) (set : Parser → Nat → Parser) : Prop where
  get_set : ∀ s v st r,
    get { set s v with sdnvState := st, primaryBytesRemaining := r } = v
  set_set : ∀ s v st r v',
    set { set s v with sdnvState := st, primaryBytesRemaining := r } v' =
      { set s v' with sdnvState := st, primaryBytesRemaining := r }
  get_withRemaining : ∀ s r, get (s.withRemaining r) = get s
  set_withRemaining : ∀ s r v, set (s.withRemaining r) v = (set s v).withRemaining r
  status : ∀ s v, (set s v).status = s.status
  bulkRead : ∀ s v, (set s v).bulkRead = s.bulkRead
  currentStage : ∀ s v, (set s v).currentStage = s.currentStage
  nextStage : ∀ s v, (set s v).nextStage = s.nextStage
  currentBlock : ∀ s v, (set s v).currentBlock = s.currentBlock
  remaining : ∀ s v, (set s v).primaryBytesRemaining = s.primaryBytesRemaining

theorem Accessor.lawful (hset : Accessor f.get f.set)
    (hfits : SdnvFits f.width f.maxBytes f.maxValue)
    (hread : ∀ env s byte, s.currentStage = f.stage →
      s.readStage env byte = f.afterSdnv env s
        (sdnvReadGeneric f.width f.maxBytes f.maxValue s.sdnvState (f.get s) byte)) :
    f.Lawful where
  fits := hfits
  readStage := hread
  get_reading := hset.get_set
  reading_reading s v st r v' st' r' := by
    unfold reading
    rw [hset.set_set]
  get_withRemaining := hset.get_withRemaining
  reading_withRemaining s r v st r' := by
    unfold reading
    rw [hset.set_withRemaining]
    rfl
  status := hset.status
  bulkRead := hset.bulkRead
  currentStage := hset.currentStage
  nextStage := hset.nextStage
  currentBlock := hset.currentBlock

/-- What `readSdnv` does, before the stage goes on with the number. -/
theorem readSdnv_eq {get : Parser → Nat} {set : Parser → Nat → Parser}
    (hset : Accessor get set) (s : Parser) (byte : UInt8) {width maxBytes maxValue : Nat}
    (stage next : Stage) (env : ParserEnv) :
    (s.readSdnv (sdnvReadGeneric width maxBytes maxValue) get set byte next).2 =
      (plain stage width maxBytes maxValue get set next).afterSdnv env s
        (sdnvReadGeneric width maxBytes maxValue s.sdnvState (get s) byte) := by
  unfold readSdnv afterSdnv
  generalize sdnvReadGeneric width maxBytes maxValue s.sdnvState (get s) byte = read
  obtain ⟨⟨status, k⟩, value⟩ := read
  have hreading : (plain stage width maxBytes maxValue get set next).reading s value
      ⟨status, k⟩ s.primaryBytesRemaining = { set s value with sdnvState := ⟨status, k⟩ } := by
    unfold reading
    rw [← hset.remaining s value]
    rfl
  dsimp only
  rw [hreading]
  cases status <;> rfl

theorem plain_lawful {stage next : Stage} {width maxBytes maxValue : Nat}
    {get : Parser → Nat} {set : Parser → Nat → Parser}
    (hfits : SdnvFits width maxBytes maxValue) (hset : Accessor get set)
    (hread : ∀ (env : ParserEnv) (s : Parser) byte, s.currentStage = stage →
      s.readStage env byte =
        (s.readSdnv (sdnvReadGeneric width maxBytes maxValue) get set byte next).2) :
    (plain stage width maxBytes maxValue get set next).Lawful :=
  Accessor.lawful (f := plain stage width maxBytes maxValue get set next) hset hfits
    fun env s byte hs => (hread env s byte hs).trans (readSdnv_eq hset s byte stage next env)

/-- The parser behind a field that only stores its number, when the next stage
only resets the SDNV. -/
def advance (f : Field) (next : Stage) (s : Parser) (value size : Nat) : Parser :=
  { f.reading s value .reset (s.remainingAfter size) with
    nextStage := next
    currentStage := next }

/-- To enter the stage is to reset the SDNV. -/
def Simple (next : Stage) : Prop :=
  next ≠ .done ∧ ∀ (env : ParserEnv) (s : Parser), s.nextStage = next →
    s.enterStage env = { s with sdnvState := .reset }

/-- The field only stores its number. -/
def GoesTo (f : Field) (next : Stage) : Prop :=
  f.stage ≠ next ∧ ∀ env s, f.finish env s = { s with nextStage := next }

variable {next : Stage}

theorem accept_eq (hf : f.Lawful) (hs : f.At s) (hnext : f.GoesTo next) :
    f.accept env s value size =
      ({ f.reading s value ⟨.done, size⟩ (s.remainingAfter size) with
        nextStage := next }).bundle6ParserNext env := by
  unfold accept
  rw [hnext.2]
  refine if_pos ⟨?_, ?_⟩
  · show (f.set s value).currentStage ≠ next
    rw [hf.currentStage, hs.currentStage]
    exact hnext.1
  · show (f.set s value).status ≠ .error
    rw [hf.status, hs.status]
    exact fun h => by cases h

theorem accept_simple (hf : f.Lawful) (hs : f.At s) (hnext : f.GoesTo next)
    (hsimple : Simple next) :
    f.accept env s value size = f.advance next s value size := by
  rw [accept_eq hf hs hnext]
  unfold bundle6ParserNext
  rw [hsimple.2 env _ rfl]
  exact if_neg hsimple.1

/-- The parser stands at the next field. -/
theorem advance_at {g : Field} (hf : f.Lawful) (hs : f.At s) (hg : g.stage = next) :
    g.At (f.advance next s value size) where
  status := (hf.status s value).trans hs.status
  bulkRead := (hf.bulkRead s value).trans hs.bulkRead
  currentStage := hg.symm
  nextStage := hg.symm
  sdnvState := rfl

end Field

/-! ## A row of fields -/

/-- A field, the stage behind it, and the number in it. -/
structure Entry where
  field : Field
  next : Stage
  value : Nat
  size : Nat

namespace Entry

open Upcn.Bundle6.Parser

/-- The bytes of the number. -/
def bytes (e : Entry) : List UInt8 := sdnvWriteGeneric e.size e.value

/-- The parser behind the field. -/
def run (s : Parser) (e : Entry) : Parser := e.field.advance e.next s e.value e.size

/-- The number fits into the field. -/
structure Fits (e : Entry) : Prop where
  lawful : e.field.Lawful
  goesTo : e.field.GoesTo e.next
  pos : 0 < e.size
  size : e.size ≤ e.field.maxBytes + 1
  value : e.value < 2 ^ e.field.width
  groups : e.value < 2 ^ (7 * e.size)

/-- The stages of the entries follow one another, from the first stage to the
last. -/
def Chained : Stage → List Entry → Stage → Prop
  | first, [], last => first = last
  | first, e :: entries, last => e.field.stage = first ∧ Chained e.next entries last

/-- The bytes that the entries take. -/
def totalSize (entries : List Entry) : Nat := (entries.map (·.size)).sum

variable {env : ParserEnv} {s : Parser} {e : Entry} {entries : List Entry}
  {first last : Stage}

theorem Fits.feed (env : ParserEnv) (he : e.Fits) (hat : e.field.At s)
    (hleft : s.HasLeft e.size) :
    Reaches env s e.bytes
      ({ e.field.reading s e.value ⟨.done, e.size⟩ (s.remainingAfter e.size) with
        nextStage := e.next }.bundle6ParserNext env) := by
  have hreaches := e.field.feed env he.lawful hat hleft he.pos he.size he.value he.groups
  rwa [Field.accept_eq he.lawful hat he.goesTo] at hreaches

/-- A row of fields in the primary block. -/
theorem feed_entries (env : ParserEnv) (hfits : ∀ e ∈ entries, e.Fits ∧ Field.Simple e.next)
    (hchain : Chained first entries last) (hs : s.Open)
    (hcurrent : s.currentStage = first) (hnext : s.nextStage = first)
    (hsdnv : s.sdnvState = .reset) (hprimary : s.currentBlock = .primary)
    (hlt : s.primaryBytesRemaining < 2 ^ 16)
    (hleft : totalSize entries ≤ s.primaryBytesRemaining) :
    Reaches env s (entries.flatMap bytes) (entries.foldl run s) ∧
      (entries.foldl run s).primaryBytesRemaining =
        s.primaryBytesRemaining - totalSize entries := by
  induction entries generalizing s first with
  | nil => exact ⟨Reaches.refl s, rfl⟩
  | cons e entries ih =>
    obtain ⟨hstage, hchain⟩ := hchain
    obtain ⟨he, hsimple⟩ := hfits e (List.mem_cons_self ..)
    have hat : e.field.At s := ⟨hs, hcurrent.trans hstage.symm, hnext.trans hstage.symm,
      hsdnv⟩
    have htotal : totalSize (e :: entries) = e.size + totalSize entries := by
      simp [totalSize]
    have hreaches := e.field.feed env he.lawful hat ⟨hlt, fun _ _ => by omega⟩ he.pos
      he.size he.value he.groups
    rw [Field.accept_simple he.lawful hat he.goesTo hsimple] at hreaches
    have hremaining : (run s e).primaryBytesRemaining =
        s.primaryBytesRemaining - e.size := by
      show s.remainingAfter e.size = _
      rw [remainingAfter, if_pos hprimary]
      omega
    obtain ⟨hrest, hend⟩ := ih (s := run s e) (fun e he => hfits e (List.mem_cons_of_mem _ he))
      hchain ⟨(he.lawful.status s _).trans hs.status,
        (he.lawful.bulkRead s _).trans hs.bulkRead⟩ rfl rfl rfl
      ((he.lawful.currentBlock s _).trans hprimary) (by omega) (by omega)
    refine ⟨hreaches.append hrest, ?_⟩
    rw [List.foldl_cons, hend, hremaining, htotal]
    omega

/-- A row of fields that is longer than what is left of the primary block. -/
theorem reject_entries (env : ParserEnv) (hfits : ∀ e ∈ entries, e.Fits ∧ Field.Simple e.next)
    (hknown : ∀ (s : Parser) (e : Entry), e ∈ entries → s.currentStage = e.field.stage →
      s.lengthKnown = true)
    (hchain : Chained first entries last) (hs : s.Open)
    (hcurrent : s.currentStage = first) (hnext : s.nextStage = first)
    (hsdnv : s.sdnvState = .reset) (hprimary : s.currentBlock = .primary)
    (hlt : s.primaryBytesRemaining < 2 ^ 16)
    (hless : s.primaryBytesRemaining < totalSize entries) :
    Rejects env s (entries.flatMap bytes) := by
  induction entries generalizing s first with
  | nil => exact absurd hless (Nat.not_lt_zero _)
  | cons e entries ih =>
    obtain ⟨hstage, hchain⟩ := hchain
    obtain ⟨he, hsimple⟩ := hfits e List.mem_cons_self
    have hat : e.field.At s := ⟨hs, hcurrent.trans hstage.symm, hnext.trans hstage.symm, hsdnv⟩
    have htotal : totalSize (e :: entries) = e.size + totalSize entries := by
      simp [totalSize]
    rw [List.flatMap_cons]
    rcases Nat.lt_or_ge s.primaryBytesRemaining e.size with hshort | henough
    · exact (e.field.rejects env he.lawful hat hprimary
        (hknown s e List.mem_cons_self hat.currentStage) hlt hshort he.size he.value
        he.groups).append _
    · have hreaches := he.feed env hat ⟨hlt, fun _ _ => henough⟩
      rw [← Field.accept_eq he.lawful hat he.goesTo,
        Field.accept_simple he.lawful hat he.goesTo hsimple] at hreaches
      have hremaining : (run s e).primaryBytesRemaining = s.primaryBytesRemaining - e.size := by
        show s.remainingAfter e.size = _
        rw [remainingAfter, if_pos hprimary]
        omega
      exact hreaches.rejects (ih (s := run s e) (fun x hx => hfits x (List.mem_cons_of_mem _ hx))
        (fun t x hx => hknown t x (List.mem_cons_of_mem _ hx)) hchain
        ⟨(he.lawful.status s _).trans hs.status, (he.lawful.bulkRead s _).trans hs.bulkRead⟩
        rfl rfl rfl ((he.lawful.currentBlock s _).trans hprimary) (by omega) (by omega))

end Entry

end Upcn.Bundle6
