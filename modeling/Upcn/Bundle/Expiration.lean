import Upcn.Bundle6.Parser
import Upcn.Processor.Forward

/-!
# The expiration time of a bundle

`bundle_get_expiration_time` of a bundle whose lifetime was stated in seconds or in
microseconds.

* `Origin` is where the bundle comes from, with what becomes of the stated lifetime there.
* `trueExpiration` is the sum of integers that the function stands for.
* `expiresRight_iff` says up to which stated lifetime it is that sum.
-/

namespace Upcn

/-- Where the lifetime of a bundle was stated. -/
inductive Origin where
  /-- In a primary block of RFC 5050, in seconds. -/
  | bundle6
  /-- In a primary block of BPv7, in microseconds. -/
  | bundle7
  /-- In a call of `bundle6_create_local` or `bundle7_create_local`, in seconds. -/
  | created
  deriving DecidableEq

namespace Origin

/-- `bundle->lifetime`. -/
def lifetime (stated : UInt64) : Origin → UInt64
  | bundle6 => stated * 1000000
  | bundle7 => stated
  | created => stated * 1000000

/-- The microseconds that are stated. -/
def microseconds (stated : Nat) : Origin → Nat
  | bundle6 => stated * 1000000
  | bundle7 => stated
  | created => stated * 1000000

end Origin

namespace Bundle

variable (b : Bundle) (origin : Origin) (now : UInt64)

/-- The bundle with this lifetime. -/
def stating (stated : UInt64) : Bundle := { b with lifetime := origin.lifetime stated }

/-- The creation time, or the current time when there is none. -/
def baseTime : UInt64 := if b.creationTimestamp ≠ 0 then b.creationTimestamp else now

/-- The base time plus the stated lifetime, which is rounded to the nearest second. -/
def trueExpiration (stated : Nat) : Nat :=
  (b.baseTime now).toNat + (origin.microseconds stated + 500000) / 1000000

/-- The check in `bundle_receive`. -/
def ExpiredOnReceipt (receiveTime : UInt64) : Prop :=
  b.creationTimestamp ≠ 0 ∧ b.bundleGetExpirationTime 0 < receiveTime

/-- What the expiration time is for, with a lifetime up to `limit`: it is the true one, or the
greatest number of 64 bits in its place, it does not get earlier, and no bundle is deleted before
it. -/
structure ExpiresRight (limit : UInt64) : Prop where
  exact : ∀ stated ≤ limit, ((b.stating origin stated).bundleGetExpirationTime now).toNat =
    min (b.trueExpiration origin now stated.toNat) (2 ^ 64 - 1)
  monotone : ∀ stated later, stated ≤ later → later ≤ limit →
    (b.stating origin stated).bundleGetExpirationTime now ≤
      (b.stating origin later).bundleGetExpirationTime now
  deleted : ∀ stated ≤ limit, ∀ receiveTime,
    (b.stating origin stated).ExpiredOnReceipt receiveTime →
    b.trueExpiration origin now stated.toNat < receiveTime.toNat

/-- Nothing wraps: not the microseconds with half a second more, and not the sum. -/
def LifetimeFits (stated : Nat) : Prop :=
  origin.microseconds stated + 500000 < 2 ^ 64 ∧ b.trueExpiration origin now stated < 2 ^ 64

/-! ## What becomes of the stated lifetime -/

/-- When the parser has read the lifetime. -/
theorem lifetime_enterStage (env : Bundle6.ParserEnv) {s : Bundle6.Parser} {stated : UInt64}
    (hstage : s.nextStage = .dictLength) (hlifetime : s.bundle.lifetime = stated.toNat) :
    (s.enterStage env).bundle.lifetime = (Origin.bundle6.lifetime stated).toNat := by
  rw [Bundle6.Parser.enterStage, hstage]
  show s.bundle.lifetime * 1000000 % 2 ^ 64 = _
  rw [hlifetime]
  exact (UInt64.toNat_mul stated 1000000).symm

theorem lifetime_createLocal (version : UInt8) (procFlags : UInt32) (ret : RetConstraints)
    (destination source : Eid) (r : ReportInput) (stated : UInt64) (payload : Payload) :
    (BundleProcessor.createLocal version procFlags ret destination source r stated
      payload).lifetime = Origin.created.lifetime stated := rfl

/-! ## The sum -/

variable {b origin now} {limit : UInt64}

theorem toNat_lifetime (origin : Origin) (stated : UInt64) :
    (origin.lifetime stated).toNat = origin.microseconds stated.toNat % 2 ^ 64 := by
  cases origin with
  | bundle6 => exact UInt64.toNat_mul stated 1000000
  | bundle7 => exact (Nat.mod_eq_of_lt stated.toNat_lt).symm
  | created => exact UInt64.toNat_mul stated 1000000

/-- The function, in numbers. -/
theorem toNat_bundleGetExpirationTime (b : Bundle) (origin : Origin) (now stated : UInt64) :
    ((b.stating origin stated).bundleGetExpirationTime now).toNat = ((b.baseTime now).toNat +
      (500000 + origin.microseconds stated.toNat % 2 ^ 64) % 2 ^ 64 / 1000000) % 2 ^ 64 := by
  have hsum : (b.stating origin stated).bundleGetExpirationTime now =
      b.baseTime now + (500000 + origin.lifetime stated) / 1000000 := rfl
  rw [hsum, UInt64.toNat_add, UInt64.toNat_div, UInt64.toNat_add, toNat_lifetime]
  rfl

theorem microseconds_mono (origin : Origin) {stated later : Nat} (h : stated ≤ later) :
    origin.microseconds stated ≤ origin.microseconds later := by
  cases origin <;> simp only [Origin.microseconds] <;> omega

theorem trueExpiration_mono (b : Bundle) (origin : Origin) (now : UInt64) {stated later : Nat}
    (h : stated ≤ later) : b.trueExpiration origin now stated ≤ b.trueExpiration origin now later :=
  Nat.add_le_add_left (Nat.div_le_div_right (Nat.add_le_add_right (microseconds_mono origin h) _)) _

theorem LifetimeFits.mono {stated later : Nat} (hle : stated ≤ later)
    (h : b.LifetimeFits origin now later) : b.LifetimeFits origin now stated :=
  ⟨Nat.lt_of_le_of_lt (Nat.add_le_add_right (microseconds_mono origin hle) _) h.1,
    Nat.lt_of_le_of_lt (trueExpiration_mono b origin now hle) h.2⟩

/-- A sum that does not wrap. -/
theorem LifetimeFits.exact {stated : UInt64} (h : b.LifetimeFits origin now stated.toNat) :
    ((b.stating origin stated).bundleGetExpirationTime now).toNat =
      b.trueExpiration origin now stated.toNat := by
  obtain ⟨hmicroseconds, hsum⟩ := h
  rw [trueExpiration] at hsum
  rw [toNat_bundleGetExpirationTime, trueExpiration,
    Nat.mod_eq_of_lt (show origin.microseconds stated.toNat < 2 ^ 64 by omega),
    Nat.add_comm 500000, Nat.mod_eq_of_lt hmicroseconds, Nat.mod_eq_of_lt hsum]

/-- The first lifetime that does not fit is not right. -/
theorem fits_succ {stated : UInt64} {n : Nat} (hstated : stated.toNat = n + 1)
    (h : b.LifetimeFits origin now n)
    (hexact : ((b.stating origin stated).bundleGetExpirationTime now).toNat =
      min (b.trueExpiration origin now stated.toNat) (2 ^ 64 - 1)) :
    b.LifetimeFits origin now (n + 1) := by
  have hbase := (b.baseTime now).toNat_lt
  obtain ⟨hmicroseconds, hsum⟩ := h
  rw [toNat_bundleGetExpirationTime, hstated] at hexact
  rw [LifetimeFits]
  rw [trueExpiration] at hexact hsum ⊢
  have hlow : origin.microseconds n ≤ origin.microseconds (n + 1) :=
    microseconds_mono origin (Nat.le_succ n)
  have hstep : origin.microseconds (n + 1) ≤ origin.microseconds n + 1000000 := by
    cases origin <;> simp only [Origin.microseconds] <;> omega
  generalize origin.microseconds (n + 1) = later at *
  generalize origin.microseconds n = earlier at *
  generalize (b.baseTime now).toNat = base at *
  have hfirst : later + 500000 < 2 ^ 64 := by
    by_contra hwraps
    -- The microseconds start again, and with them the sum.
    have hzero : (500000 + later % 2 ^ 64) % 2 ^ 64 / 1000000 = 0 := by omega
    rw [hzero, Nat.add_zero, Nat.mod_eq_of_lt hbase] at hexact
    omega
  refine ⟨hfirst, ?_⟩
  by_contra hwraps
  have hover : base + (later + 500000) / 1000000 = 2 ^ 64 := by omega
  have hlater : (500000 + later % 2 ^ 64) % 2 ^ 64 = later + 500000 := by omega
  rw [hlater, hover] at hexact
  exact absurd hexact (by decide)

/-- Up to which stated lifetime the expiration time is right. -/
theorem expiresRight_iff (b : Bundle) (origin : Origin) (now limit : UInt64) :
    b.ExpiresRight origin now limit ↔ b.LifetimeFits origin now limit.toNat := by
  constructor
  · intro h
    have hall : ∀ n ≤ limit.toNat, b.LifetimeFits origin now n := by
      intro n
      induction n with
      | zero =>
        intro _
        have hzero : origin.microseconds 0 = 0 := by cases origin <;> rfl
        rw [LifetimeFits, trueExpiration, hzero]
        exact ⟨by decide, (b.baseTime now).toNat_lt⟩
      | succ n ih =>
        intro hle
        have hnat : (UInt64.ofNat (n + 1)).toNat = n + 1 :=
          UInt64.toNat_ofNat_of_lt' (Nat.lt_of_le_of_lt hle limit.toNat_lt)
        have hlimit : UInt64.ofNat (n + 1) ≤ limit := UInt64.le_iff_toNat_le.mpr (by omega)
        exact fits_succ hnat (ih (by omega)) (h.exact _ hlimit)
    exact hall _ (Nat.le_refl _)
  · intro h
    have hexact : ∀ stated ≤ limit, ((b.stating origin stated).bundleGetExpirationTime now).toNat =
        b.trueExpiration origin now stated.toNat :=
      fun stated hle => (h.mono (UInt64.le_iff_toNat_le.mp hle)).exact
    refine ⟨fun stated hle => ?_, fun stated later hle hlater => ?_,
      fun stated hle receiveTime hexpired => ?_⟩
    · have hlt := ((b.stating origin stated).bundleGetExpirationTime now).toNat_lt
      rw [hexact stated hle] at hlt ⊢
      exact (Nat.min_eq_left (by omega)).symm
    · rw [UInt64.le_iff_toNat_le, hexact stated (UInt64.le_trans hle hlater), hexact later hlater]
      exact trueExpiration_mono b origin now (UInt64.le_iff_toNat_le.mp hle)
    · obtain ⟨hstamp, hlt⟩ := hexpired
      -- The clock makes no difference to a bundle with a creation time.
      have hclock : (b.stating origin stated).bundleGetExpirationTime 0 =
          (b.stating origin stated).bundleGetExpirationTime now := by
        rw [bundleGetExpirationTime, bundleGetExpirationTime, if_pos hstamp, if_pos hstamp]
      rw [hclock, UInt64.lt_iff_toNat_lt, hexact stated hle] at hlt
      exact hlt

/-- A bundle of RFC 5050 that was created at the first second. -/
def early : Bundle where
  id := 0
  protocolVersion := 6
  procFlags := 0
  retConstraints := .none
  destination := "dtn:a".toList
  source := "dtn:b".toList
  reportTo := dtnNone
  currentCustodian := dtnNone
  creationTimestamp := 1
  sequenceNumber := 1
  lifetime := 0
  fragmentOffset := 0
  totalAduLength := 0
  blocks := [.payload]
  payload := Payload.empty

/-- With a lifetime of more than `2 ^ 64` microseconds it is deleted one second later. -/
theorem not_expiresRight_long :
    (early.stating .bundle6 18446744073710).ExpiredOnReceipt 2 ∧
      early.trueExpiration .bundle6 2 18446744073710 = 18446744073711 ∧
      ¬early.ExpiresRight .bundle6 2 18446744073710 := by
  have hexpired : (early.stating .bundle6 18446744073710).ExpiredOnReceipt 2 :=
    ⟨by decide, by decide⟩
  refine ⟨hexpired, by decide, fun h => ?_⟩
  exact absurd (h.deleted _ (UInt64.le_refl _) 2 hexpired) (by decide)

end Bundle

end Upcn
