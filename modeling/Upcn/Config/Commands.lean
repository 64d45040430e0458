import Upcn.Config.Language

/-!
# Commands and their integers

The parser of configuration commands speaks its grammar as long as the integers of
a command fit their fields.  A reliability of 65636 is read as 100, a bitrate of
2^32 as 0, an end time of 2^64 as 2^64 - 1, and no digits at all as 0: such a
command is sent, although it should not be.

* `CommandText.Valid` and `CommandText.command` are the checks and the command with
  the numbers that are written.
* `Sentence.unique` says that a text begins with one sentence at most.
-/

namespace Upcn.Config

/-! ## What is asked for -/

/-- An integer has digits and fits. -/
def FitsField (digits : Str) (bits : Nat) : Prop := digits ≠ [] ∧ number digits < 2 ^ bits

/-- The integers of a contact fit their fields. -/
structure ContactText.Fits (k : ContactText) : Prop where
  fromTime : FitsField k.fromTime 64
  toTime : FitsField k.toTime 64
  bitrate : FitsField k.bitrate 32

/-- The integers of a command fit their fields. -/
structure CommandText.Fits (k : CommandText) : Prop where
  reliability : ∀ digits, k.reliability = some digits → FitsField digits 16
  contacts : ∀ x ∈ k.contacts, x.Fits

/-- The checks of the numbers that are written. -/
structure CommandText.Valid (now : Nat) (k : CommandText) : Prop where
  fits : k.Fits
  reliability : ∀ digits, k.reliability = some digits →
    100 ≤ number digits ∧ number digits ≤ 1000
  times : ∀ x ∈ k.contacts,
    number x.fromTime < number x.toTime ∧ now < number x.toTime

/-- The command with the numbers that are written. -/
def CommandText.command (k : CommandText) : RouterCommand where
  type := k.type
  data :=
    { eid := some k.eid
      claAddr := k.claAddr
      reliability := (k.reliability.map number).getD nodeCreate.reliability
      endpoints := k.endpoints
      contacts := k.contacts.map fun x =>
        ⟨number x.fromTime, number x.toTime, number x.bitrate, x.endpoints⟩ }

/-- A freshly reset parser sends the commands that are written, and no others. -/
def SpeaksGrammar (now : Nat) (bytes : Str) : Prop :=
  ∀ c, ConfigParser.reset.read now bytes = [c] ↔
    ∃ t k rest, bytes = t ++ rest ∧ Sentence t k ∧ k.Valid now ∧ c = k.command

/-- A sentence at the beginning of the text that is not rejected has integers that
fit. -/
def IntegersFit (now : Nat) (bytes : Str) : Prop :=
  ∀ t k rest, bytes = t ++ rest → Sentence t k → k.Passes now → k.Fits

/-! ## Conversions -/

variable {now : Nat} {digits : Str} {k : CommandText}

theorem endReadUint64_of_fits (h : FitsField digits 64) :
    endReadUint64 digits = number digits := by
  have hlt := h.2
  unfold endReadUint64
  omega

theorem endReadUint32_of_fits (h : FitsField digits 32) :
    endReadUint32 digits = number digits := by
  have hlt := h.2
  unfold endReadUint32
  omega

theorem endReadUint16_of_fits (h : FitsField digits 16) :
    endReadUint16 digits = number digits := by
  have hlt := h.2
  unfold endReadUint16
  omega

theorem CommandText.Fits.passes_iff (h : k.Fits) : k.Passes now ↔ k.Valid now := by
  constructor
  · intro hpass
    refine ⟨h, fun digits hdigits => ?_, fun x hx => ?_⟩
    · have hr := hpass.reliability digits hdigits
      rw [ReliabilityPasses, endReadUint16_of_fits (h.reliability digits hdigits)] at hr
      exact hr
    · have hc := hpass.contacts x hx
      have hfits := h.contacts x hx
      rw [ContactText.Passes, endReadUint64_of_fits hfits.fromTime,
        endReadUint64_of_fits hfits.toTime] at hc
      exact hc
  · intro hvalid
    refine ⟨fun digits hdigits => ?_, fun x hx => ?_⟩
    · rw [ReliabilityPasses, endReadUint16_of_fits (h.reliability digits hdigits)]
      exact hvalid.reliability digits hdigits
    · have hfits := h.contacts x hx
      rw [ContactText.Passes, endReadUint64_of_fits hfits.fromTime,
        endReadUint64_of_fits hfits.toTime]
      exact hvalid.times x hx

theorem CommandText.Fits.converted_eq (h : k.Fits) : k.converted = k.command := by
  have hcontacts : k.contacts.map ContactText.converted = k.contacts.map fun x =>
      ⟨number x.fromTime, number x.toTime, number x.bitrate, x.endpoints⟩ := by
    refine List.map_congr_left fun x hx => ?_
    have hfits := h.contacts x hx
    rw [ContactText.converted, endReadUint64_of_fits hfits.fromTime,
      endReadUint64_of_fits hfits.toTime, endReadUint32_of_fits hfits.bitrate]
  unfold CommandText.converted CommandText.command
  rw [hcontacts]
  cases hreliability : k.reliability with
  | none => rfl
  | some digits =>
    have hfits := endReadUint16_of_fits (h.reliability digits hreliability)
    simp only [hfits, Option.map_some, Option.getD_some]

/-! ## A text begins with one sentence -/

/-- What may be read of a text in one way only. -/
def Unambiguous {α : Type} (item : Str → α → Prop) : Prop :=
  ∀ {t t' x x' r r'}, item t x → item t' x' → t ++ r = t' ++ r' → t = t' ∧ x = x'

variable {r r' : Str}

/-- A row of characters ends where another one follows. -/
theorem row_unique {allowed : UInt8 → Prop} {a a' : Str} {d d' : UInt8}
    (ha : ∀ x ∈ a, allowed x) (ha' : ∀ x ∈ a', allowed x) (hd : ¬ allowed d)
    (hd' : ¬ allowed d') (h : a ++ d :: r = a' ++ d' :: r') : a = a' ∧ d = d' ∧ r = r' := by
  induction a generalizing a' with
  | nil =>
    cases a' with
    | nil =>
      cases h
      exact ⟨rfl, rfl, rfl⟩
    | cons x a' =>
      cases h
      exact absurd (ha' d List.mem_cons_self) hd
  | cons x a ih =>
    cases a' with
    | nil =>
      cases h
      exact absurd (ha d' List.mem_cons_self) hd'
    | cons x' a' =>
      obtain ⟨rfl, htail⟩ := List.cons.inj h
      obtain ⟨rfl, hrest⟩ := ih (fun x hx => ha x (List.mem_cons_of_mem _ hx))
        (fun x hx => ha' x (List.mem_cons_of_mem _ hx)) htail
      exact ⟨rfl, hrest⟩

theorem EidText.unique : Unambiguous EidText := by
  intro t t' eid eid' r r' h h' heq
  obtain ⟨hbytes, rfl⟩ := h
  obtain ⟨hbytes', rfl⟩ := h'
  simp only [List.cons_append, List.append_assoc, List.cons.injEq, true_and] at heq
  obtain ⟨rfl, _⟩ := row_unique (fun x hx => (hbytes x hx).2)
    (fun x hx => (hbytes' x hx).2) (fun h => h rfl) (fun h => h rfl) heq
  exact ⟨rfl, rfl⟩

/-- A list of which the elements begin with a certain character. -/
theorem Elements.unique {α : Type} {item : Str → α → Prop} {d : UInt8}
    (hd : d ≠ listEndDelimiter) (hitem : ∀ t x, item t x → ∃ t', t = d :: t')
    (hunique : Unambiguous item) : Unambiguous (Elements item) := by
  intro t t' xs xs' r r' h h' heq
  have hcomma : listElementSeparator ≠ listEndDelimiter := by decide
  induction h generalizing t' xs' with
  | none =>
    cases h' with
    | none => exact ⟨rfl, rfl⟩
    | last hx | more hx _ =>
      obtain ⟨t', rfl⟩ := hitem _ _ hx
      cases heq
      exact absurd rfl hd
  | last hx =>
    cases h' with
    | none =>
      obtain ⟨t', rfl⟩ := hitem _ _ hx
      cases heq
      exact absurd rfl hd
    | last hx' =>
      rw [List.append_assoc, List.append_assoc] at heq
      obtain ⟨rfl, rfl⟩ := hunique hx hx' heq
      exact ⟨rfl, rfl⟩
    | more hx' _ =>
      rw [List.append_assoc, List.append_assoc] at heq
      obtain ⟨rfl, rfl⟩ := hunique hx hx' heq
      cases List.append_cancel_left heq
  | more hx _ ih =>
    cases h' with
    | none =>
      obtain ⟨t', rfl⟩ := hitem _ _ hx
      cases heq
      exact absurd rfl hd
    | last hx' =>
      rw [List.append_assoc, List.append_assoc] at heq
      obtain ⟨rfl, rfl⟩ := hunique hx hx' heq
      cases List.append_cancel_left heq
    | more hx' hrest' =>
      rw [List.append_assoc, List.append_assoc] at heq
      obtain ⟨rfl, rfl⟩ := hunique hx hx' heq
      obtain ⟨rfl, rfl⟩ := ih hrest' (List.cons.inj (List.append_cancel_left heq)).2
      exact ⟨rfl, rfl⟩

theorem eids_unique : Unambiguous (Elements EidText) :=
  Elements.unique (show eidStartDelimiter ≠ listEndDelimiter by decide)
    (fun _ _ h => ⟨_, h.2⟩) EidText.unique

/-- The integers of a contact. -/
theorem times_unique {x x' : ContactText} {d d' : UInt8} (hx : x.Written)
    (hx' : x'.Written) (hd : isDigitByte d = false) (hd' : isDigitByte d' = false)
    (h : x.times ++ d :: r = x'.times ++ d' :: r') :
    (x.fromTime = x'.fromTime ∧ x.toTime = x'.toTime ∧ x.bitrate = x'.bitrate) ∧
      d = d' ∧ r = r' := by
  have hcomma : ¬ isDigitByte objectElementSeparator := by decide
  have hnot : ∀ {b}, isDigitByte b = false → ¬ isDigitByte b := fun hb h => by
    rw [hb] at h
    cases h
  simp only [ContactText.times, List.cons_append, List.append_assoc, List.cons.injEq,
    true_and] at h
  obtain ⟨hfrom, _, hrest⟩ := row_unique hx.fromTime hx'.fromTime hcomma hcomma h
  obtain ⟨hto, _, hrest⟩ := row_unique hx.toTime hx'.toTime hcomma hcomma hrest
  obtain ⟨hbitrate, hend⟩ := row_unique hx.bitrate hx'.bitrate (hnot hd) (hnot hd') hrest
  exact ⟨⟨hfrom, hto, hbitrate⟩, hend⟩

theorem ContactText.eq_of {x x' : ContactText}
    (htimes : x.fromTime = x'.fromTime ∧ x.toTime = x'.toTime ∧ x.bitrate = x'.bitrate)
    (hendpoints : x.endpoints = x'.endpoints) : x = x' := by
  cases x
  cases x'
  obtain ⟨rfl, rfl, rfl⟩ := htimes
  cases hendpoints
  rfl

theorem ContactSentence.unique : Unambiguous ContactSentence := by
  intro t t' x x' r r' h h' heq
  have hcomma : isDigitByte objectElementSeparator = false := by decide
  have hbrace : isDigitByte objectEndDelimiter = false := by decide
  have hne : objectEndDelimiter ≠ objectElementSeparator := by decide
  cases h with
  | short hx hnone =>
    cases h' with
    | short hx' hnone' =>
      simp only [List.append_assoc, List.cons_append] at heq
      obtain ⟨htimes, _⟩ := times_unique hx hx' hbrace hbrace heq
      have hsame := ContactText.eq_of htimes (hnone.trans hnone'.symm)
      subst hsame
      exact ⟨rfl, rfl⟩
    | long hx' _ =>
      simp only [List.append_assoc, List.cons_append] at heq
      obtain ⟨_, hd, _⟩ := times_unique hx hx' hbrace hcomma heq
      exact absurd hd hne
  | long hx heids =>
    cases h' with
    | short hx' _ =>
      simp only [List.append_assoc, List.cons_append] at heq
      obtain ⟨_, hd, _⟩ := times_unique hx hx' hcomma hbrace heq
      exact absurd hd.symm hne
    | long hx' heids' =>
      simp only [List.append_assoc, List.cons_append] at heq
      obtain ⟨htimes, _, hrest⟩ := times_unique hx hx' hcomma hcomma heq
      obtain ⟨rfl, hendpoints⟩ := eids_unique heids heids' (List.cons.inj hrest).2
      have hsame := ContactText.eq_of htimes hendpoints
      subst hsame
      exact ⟨rfl, rfl⟩

theorem contacts_unique : Unambiguous (Elements ContactSentence) :=
  Elements.unique (show objectStartDelimiter ≠ listEndDelimiter by decide)
    (fun _ _ h => h.eq_cons) ContactSentence.unique

/-! ### The parts of a command -/

theorem ContactsPart.unique : Unambiguous ContactsPart := by
  intro t t' ks ks' r r' h h' heq
  cases h with
  | none =>
    cases h' with
    | none => exact ⟨rfl, rfl⟩
    | list h' => cases heq
  | list h =>
    cases h' with
    | none => cases heq
    | list h' =>
      simp only [List.cons_append, List.append_assoc, List.cons.injEq, true_and] at heq
      obtain ⟨rfl, rfl⟩ := contacts_unique h h' heq
      exact ⟨rfl, rfl⟩

theorem BehindEndpoints.unique : Unambiguous BehindEndpoints := by
  intro t t' ks ks' r r' h h' heq
  cases h with
  | none =>
    cases h' with
    | none => exact ⟨rfl, rfl⟩
    | contacts h' => cases heq
  | contacts h =>
    cases h' with
    | none => cases heq
    | contacts h' =>
      obtain ⟨rfl, rfl⟩ := ContactsPart.unique h h' (List.cons.inj heq).2
      exact ⟨rfl, rfl⟩

theorem EndpointsPart.unique {t t' : Str} {eids eids' : List Str}
    {ks ks' : List ContactText} (h : EndpointsPart t eids ks) (h' : EndpointsPart t' eids' ks')
    (heq : t ++ r = t' ++ r') : t = t' ∧ eids = eids' ∧ ks = ks' := by
  cases h with
  | none =>
    cases h' with
    | none => exact ⟨rfl, rfl, rfl⟩
    | contacts h' => cases heq
    | list ht' hu' => cases heq
  | contacts h =>
    cases h' with
    | none => cases heq
    | contacts h' =>
      obtain ⟨rfl, rfl⟩ := ContactsPart.unique h h' (List.cons.inj heq).2
      exact ⟨rfl, rfl, rfl⟩
    | list ht' hu' => cases heq
  | list ht hu =>
    cases h' with
    | none => cases heq
    | contacts h' => cases heq
    | list ht' hu' =>
      simp only [List.cons_append, List.append_assoc, List.cons.injEq, true_and] at heq
      obtain ⟨rfl, rfl⟩ := eids_unique ht ht' heq
      obtain ⟨rfl, rfl⟩ := BehindEndpoints.unique hu hu' (List.append_cancel_left heq)
      exact ⟨rfl, rfl, rfl⟩

theorem BehindClaAddr.unique {t t' : Str} {eids eids' : List Str}
    {ks ks' : List ContactText} (h : BehindClaAddr t eids ks) (h' : BehindClaAddr t' eids' ks')
    (heq : t ++ r = t' ++ r') : t = t' ∧ eids = eids' ∧ ks = ks' := by
  cases h with
  | none =>
    cases h' with
    | none => exact ⟨rfl, rfl, rfl⟩
    | endpoints h' => cases heq
  | endpoints h =>
    cases h' with
    | none => cases heq
    | endpoints h' =>
      obtain ⟨rfl, hparts⟩ := EndpointsPart.unique h h' (List.cons.inj heq).2
      exact ⟨rfl, hparts⟩

theorem ClaAddrPart.unique {t t' : Str} {addr addr' : Option Str} {eids eids' : List Str}
    {ks ks' : List ContactText} (h : ClaAddrPart t addr eids ks)
    (h' : ClaAddrPart t' addr' eids' ks') (heq : t ++ r = t' ++ r') :
    t = t' ∧ addr = addr' ∧ eids = eids' ∧ ks = ks' := by
  have hdelimiter : ¬ isClaAddrByte claAddrEndDelimiter := by decide
  cases h with
  | none =>
    cases h' with
    | none => exact ⟨rfl, rfl, rfl, rfl⟩
    | endpoints h' => cases heq
    | addr haddr' h' => cases heq
  | endpoints h =>
    cases h' with
    | none => cases heq
    | endpoints h' =>
      obtain ⟨rfl, rfl, rfl⟩ := EndpointsPart.unique h h' (List.cons.inj heq).2
      exact ⟨rfl, rfl, rfl, rfl⟩
    | addr haddr' h' => cases heq
  | addr haddr h =>
    cases h' with
    | none => cases heq
    | endpoints h' => cases heq
    | addr haddr' h' =>
      simp only [List.cons_append, List.append_assoc, List.cons.injEq, true_and] at heq
      obtain ⟨rfl, _, hrest⟩ := row_unique haddr haddr' hdelimiter hdelimiter heq
      obtain ⟨rfl, rfl, rfl⟩ := BehindClaAddr.unique h h' hrest
      exact ⟨rfl, rfl, rfl, rfl⟩

theorem BehindEid.unique (type : RouterCommandType) (eid : Str) :
    Unambiguous fun t (k : CommandText) => BehindEid t k ∧ k.type = type ∧ k.eid = eid := by
  intro t t' k k' r r' h h' heq
  have hcolon : ¬ isDigitByte nodeConfClaAddrSeparator := by decide
  have hend : ¬ isDigitByte commandEndMarker := by decide
  obtain ⟨h, rfl, rfl⟩ := h
  obtain ⟨h', htype, heid⟩ := h'
  cases h with
  | none =>
    cases h' with
    | none =>
      cases htype
      cases heid
      exact ⟨rfl, rfl⟩
    | claAddr h' => cases heq
    | reliability hdigits' => cases heq
    | both hdigits' h' => cases heq
  | claAddr h =>
    cases h' with
    | none => cases heq
    | claAddr h' =>
      cases htype
      cases heid
      obtain ⟨rfl, rfl, rfl, rfl⟩ := ClaAddrPart.unique h h' (List.cons.inj heq).2
      exact ⟨rfl, rfl⟩
    | reliability hdigits' => cases heq
    | both hdigits' h' => cases heq
  | reliability hdigits =>
    cases h' with
    | none => cases heq
    | claAddr h' => cases heq
    | reliability hdigits' =>
      cases htype
      cases heid
      simp only [List.cons_append, List.append_assoc, List.cons.injEq, true_and] at heq
      obtain ⟨rfl, _⟩ := row_unique hdigits hdigits' hend hend heq
      exact ⟨rfl, rfl⟩
    | both hdigits' h' =>
      simp only [List.cons_append, List.append_assoc, List.cons.injEq, true_and] at heq
      obtain ⟨_, hd, _⟩ := row_unique hdigits hdigits' hend hcolon heq
      cases hd
  | both hdigits h =>
    cases h' with
    | none => cases heq
    | claAddr h' => cases heq
    | reliability hdigits' =>
      simp only [List.cons_append, List.append_assoc, List.cons.injEq, true_and] at heq
      obtain ⟨_, hd, _⟩ := row_unique hdigits hdigits' hcolon hend heq
      cases hd
    | both hdigits' h' =>
      cases htype
      cases heid
      simp only [List.cons_append, List.append_assoc, List.cons.injEq, true_and] at heq
      obtain ⟨rfl, _, hrest⟩ := row_unique hdigits hdigits' hcolon hcolon heq
      obtain ⟨rfl, rfl, rfl, rfl⟩ := ClaAddrPart.unique h h' hrest
      exact ⟨rfl, rfl⟩

theorem Sentence.unique : Unambiguous Sentence := by
  intro t t' k k' r r' h h' heq
  cases h with
  | command htype heid h =>
    cases h' with
    | command htype' heid' h' =>
      simp only [List.cons_append, List.append_assoc, List.cons.injEq] at heq
      obtain ⟨rfl, hrest⟩ := heq
      have hsame := Option.some.inj (htype'.symm.trans htype)
      obtain ⟨rfl, heids⟩ := EidText.unique heid heid' hrest
      obtain ⟨rfl, rfl⟩ := BehindEid.unique k.type k.eid ⟨h, rfl, rfl⟩
        ⟨h', hsame, heids.symm⟩ (List.append_cancel_left hrest)
      exact ⟨rfl, rfl⟩

/-! ## The result -/

/-- The parser speaks its grammar exactly for the texts with integers that fit. -/
theorem speaksGrammar_iff (now : Nat) (bytes : Str) :
    SpeaksGrammar now bytes ↔ IntegersFit now bytes := by
  constructor
  · intro h t k rest hbytes hk hpass
    have hread : k.converted ∈ ConfigParser.reset.read now bytes :=
      mem_read_iff.mpr ⟨t, k, rest, hbytes, hk, hpass, rfl⟩
    obtain ⟨t', k', rest', hbytes', hk', hvalid, _⟩ := (h _).mp (read_eq_singleton.mpr hread)
    obtain ⟨_, rfl⟩ := Sentence.unique hk hk' (hbytes.symm.trans hbytes')
    exact hvalid.fits
  · intro h c
    rw [read_eq_singleton, mem_read_iff]
    constructor
    · intro hread
      obtain ⟨t, k, rest, hbytes, hk, hpass, rfl⟩ := hread
      have hfits := h t k rest hbytes hk hpass
      exact ⟨t, k, rest, hbytes, hk, hfits.passes_iff.mp hpass, hfits.converted_eq⟩
    · intro hread
      obtain ⟨t, k, rest, hbytes, hk, hvalid, rfl⟩ := hread
      have hpass := hvalid.fits.passes_iff.mpr hvalid
      exact ⟨t, k, rest, hbytes, hk, hpass, hvalid.fits.converted_eq.symm⟩

/-- A string of characters. -/
def ofChars (chars : List Char) : Str := chars.map Char.toUInt8

/-- The parts of `1(dtn:a),65636;`. -/
def wrappedParts : CommandText :=
  ⟨.add, ofChars ['d', 't', 'n', ':', 'a'], some (ofChars ['6', '5', '6', '3', '6']), none,
    [], []⟩

/-- `1(dtn:a),65636;`. -/
def wrappedReliability : Str :=
  ofChars ['1', '(', 'd', 't', 'n', ':', 'a', ')', ',', '6', '5', '6', '3', '6', ';']

theorem sentence_wrapped : Sentence wrappedReliability wrappedParts := by
  have heidBytes : wrappedParts.eid.all
      (fun b => decide (isEidByte b ∧ b ≠ eidEndDelimiter)) = true := by decide
  have hdigits : (ofChars ['6', '5', '6', '3', '6']).all isDigitByte = true := by decide
  have heid : EidText _ wrappedParts.eid :=
    ⟨fun b hb => of_decide_eq_true (List.all_eq_true.mp heidBytes b hb), rfl⟩
  have hbehind : BehindEid _ wrappedParts := .reliability (List.all_eq_true.mp hdigits)
  exact @Sentence.command 0x31 _ _ _ rfl heid hbehind

/-- A command with a reliability of 65636 is sent, with 100. -/
theorem reliability_wraps :
    ConfigParser.reset.read 0 wrappedReliability
        = [⟨.add, ⟨some wrappedParts.eid, none, 100, [], []⟩⟩] ∧
      ¬ SpeaksGrammar 0 wrappedReliability := by
  have hread : ConfigParser.reset.read 0 wrappedReliability
      = [⟨.add, ⟨some wrappedParts.eid, none, 100, [], []⟩⟩] := by decide
  refine ⟨hread, fun h => ?_⟩
  obtain ⟨t, k, rest, hbytes, hk, hvalid, _⟩ := (h _).mp hread
  obtain ⟨_, rfl⟩ := Sentence.unique sentence_wrapped hk
    ((List.append_nil wrappedReliability).trans hbytes)
  have hrange := hvalid.reliability _ rfl
  exact absurd hrange.2 (by decide)

end Upcn.Config
