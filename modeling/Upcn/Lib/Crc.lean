import Mathlib.Algebra.GroupWithZero.Nat
import Mathlib.Algebra.Ring.Int.Defs
import Mathlib.Tactic.Common

/-!
# Cyclic redundancy checks

The bit-by-bit CRC with its parameters, and what a byte makes of the register in one step.

* `Parameters.checksum` is the CRC: the register is shifted to the left for every bit of the
  input, and the polynomial is added when the bit that is shifted out differs from it.
* `foldl_step_byte` and `foldl_stepReflected_byte` are the step for a byte with a table, for
  the register as it is and for the reflected register.
-/

namespace Crc

variable {w : Nat}

/-- The parameters of a CRC, with a register of `w` bits. -/
structure Parameters (w : Nat) where
  polynomial : BitVec w
  init : BitVec w
  xorOut : BitVec w
  reflectInput : Bool
  reflectOutput : Bool

/-- What a bit of the input makes of the register. -/
def step (polynomial r : BitVec w) (bit : Bool) : BitVec w :=
  if (r.msb ^^ bit) = true then (r <<< 1) ^^^ polynomial else r <<< 1

/-- The bits of a byte, from the lowest one when the input is reflected. -/
def inputBits (reflect : Bool) (byte : BitVec 8) : List Bool :=
  if reflect then (List.range 8).map byte.getLsbD else (List.range 8).map byte.getMsbD

/-- The register behind the bytes. -/
def Parameters.register (p : Parameters w) (bytes : List UInt8) : BitVec w :=
  (bytes.flatMap fun byte => inputBits p.reflectInput byte.toBitVec).foldl (step p.polynomial)
    p.init

/-- The CRC of the bytes. -/
def Parameters.checksum (p : Parameters w) (bytes : List UInt8) : BitVec w :=
  (if p.reflectOutput then (p.register bytes).reverse else p.register bytes) ^^^ p.xorOut

/-- What a bit of the input makes of the reflected register. -/
def stepReflected (polynomial r : BitVec w) (bit : Bool) : BitVec w :=
  if (r.getLsbD 0 ^^ bit) = true then (r >>> 1) ^^^ polynomial else r >>> 1

/-! ## The reflected register -/

theorem reverse_xor (r s : BitVec w) : (r ^^^ s).reverse = r.reverse ^^^ s.reverse := by
  apply BitVec.eq_of_getLsbD_eq
  intro i hi
  simp only [BitVec.getLsbD_reverse, BitVec.getMsbD_xor, BitVec.getLsbD_xor]

theorem reverse_shiftLeft_one (r : BitVec w) : (r <<< 1).reverse = r.reverse >>> 1 := by
  apply BitVec.eq_of_getLsbD_eq
  intro i hi
  simp only [BitVec.getLsbD_reverse, BitVec.getMsbD_shiftLeft, BitVec.getLsbD_ushiftRight]
  rw [Nat.add_comm]

theorem reverse_step (polynomial r : BitVec w) (bit : Bool) :
    (step polynomial r bit).reverse = stepReflected polynomial.reverse r.reverse bit := by
  unfold step stepReflected
  rw [BitVec.getLsbD_reverse, ← BitVec.msb_eq_getMsbD_zero]
  split
  · rw [reverse_xor, reverse_shiftLeft_one]
  · exact reverse_shiftLeft_one r

theorem reverse_foldl_step (polynomial r : BitVec w) (bits : List Bool) :
    (bits.foldl (step polynomial) r).reverse =
      bits.foldl (stepReflected polynomial.reverse) r.reverse := by
  induction bits generalizing r with
  | nil => rfl
  | cons bit bits ih => rw [List.foldl_cons, List.foldl_cons, ih, reverse_step]

/-! ## A byte in one step -/

/-- The register and the bit add up. -/
def Linear (f : BitVec w → Bool → BitVec w) : Prop :=
  ∀ r s x y, f (r ^^^ s) (x ^^ y) = f r x ^^^ f s y

theorem xor_step_cases {a b : BitVec w} {polynomial : BitVec w} (x y : Bool) :
    (if (x ^^ y) = true then (a ^^^ b) ^^^ polynomial else a ^^^ b) =
      (if x = true then a ^^^ polynomial else a) ^^^
        (if y = true then b ^^^ polynomial else b) := by
  have hcancel : (a ^^^ polynomial) ^^^ (b ^^^ polynomial) = a ^^^ b := by
    rw [BitVec.xor_comm b, BitVec.xor_assoc, ← BitVec.xor_assoc polynomial, BitVec.xor_self,
      BitVec.zero_xor]
  cases x <;> cases y
  · rfl
  · exact BitVec.xor_assoc a b polynomial
  · show (a ^^^ b) ^^^ polynomial = (a ^^^ polynomial) ^^^ b
    rw [BitVec.xor_assoc, BitVec.xor_comm b, BitVec.xor_assoc]
  · exact hcancel.symm

theorem xor_xor_xor_comm (a b x y : Bool) : ((a ^^ b) ^^ (x ^^ y)) = ((a ^^ x) ^^ (b ^^ y)) := by
  cases a <;> cases b <;> cases x <;> cases y <;> rfl

theorem linear_step (polynomial : BitVec w) : Linear (step polynomial) := by
  intro r s x y
  unfold step
  rw [BitVec.msb_xor, BitVec.shiftLeft_xor_distrib, xor_xor_xor_comm]
  exact xor_step_cases _ _

theorem linear_stepReflected (polynomial : BitVec w) : Linear (stepReflected polynomial) := by
  intro r s x y
  unfold stepReflected
  rw [BitVec.getLsbD_xor, BitVec.ushiftRight_xor_distrib, xor_xor_xor_comm]
  exact xor_step_cases _ _

/-- Two inputs of one length add up. -/
theorem Linear.foldl {f : BitVec w → Bool → BitVec w} (hf : Linear f) (x y : Nat → Bool)
    (indices : List Nat) (r s : BitVec w) :
    (indices.map fun i => (x i ^^ y i)).foldl f (r ^^^ s) =
      (indices.map x).foldl f r ^^^ (indices.map y).foldl f s := by
  induction indices generalizing r s with
  | nil => rfl
  | cons i indices ih =>
    simp only [List.map_cons, List.foldl_cons]
    rw [hf, ih]

/-- A register that is fed with the bits it shifts out is shifted only. -/
theorem foldl_stepReflected_self (polynomial r : BitVec w) (n : Nat) :
    ((List.range n).map r.getLsbD).foldl (stepReflected polynomial) r = r >>> n := by
  induction n generalizing r with
  | zero => simp
  | succ n ih =>
    have hstep : stepReflected polynomial r (r.getLsbD 0) = r >>> 1 := by
      rw [stepReflected, Bool.xor_self, if_neg Bool.false_ne_true]
    have hbits : (List.range n).map (r.getLsbD ∘ Nat.succ) =
        (List.range n).map (r >>> 1).getLsbD := by
      refine List.map_congr_left fun i _ => ?_
      rw [Function.comp_apply, BitVec.getLsbD_ushiftRight, Nat.succ_eq_add_one, Nat.add_comm]
    rw [List.range_succ_eq_map, List.map_cons, List.map_map, List.foldl_cons, hstep, hbits, ih,
      ← BitVec.shiftRight_add, Nat.add_comm]

theorem foldl_step_self (polynomial r : BitVec w) (n : Nat) :
    ((List.range n).map r.getMsbD).foldl (step polynomial) r = r <<< n := by
  induction n generalizing r with
  | zero => simp
  | succ n ih =>
    have hstep : step polynomial r (r.getMsbD 0) = r <<< 1 := by
      rw [step, BitVec.msb_eq_getMsbD_zero, Bool.xor_self, if_neg Bool.false_ne_true]
    have hbits : (List.range n).map (r.getMsbD ∘ Nat.succ) =
        (List.range n).map (r <<< 1).getMsbD := by
      refine List.map_congr_left fun i _ => ?_
      rw [Function.comp_apply, BitVec.getMsbD_shiftLeft]
    rw [List.range_succ_eq_map, List.map_cons, List.map_map, List.foldl_cons, hstep, hbits, ih,
      ← BitVec.shiftLeft_add, Nat.add_comm]

/-- The entry of the table for a byte, with the register reflected. -/
def entryReflected (polynomial : BitVec w) (byte : BitVec 8) : BitVec w :=
  (inputBits true byte).foldl (stepReflected polynomial) 0#w

/-- The entry of the table for a byte. -/
def entry (polynomial : BitVec w) (byte : BitVec 8) : BitVec w :=
  (inputBits false byte).foldl (step polynomial) 0#w

/-- What a byte makes of the reflected register. -/
theorem foldl_stepReflected_byte (polynomial r : BitVec w) (byte : BitVec 8) :
    (inputBits true byte).foldl (stepReflected polynomial) r =
      (r >>> 8) ^^^ entryReflected polynomial (r.setWidth 8 ^^^ byte) := by
  -- The byte is what the register shifts out, and the index.
  have hbits : inputBits true byte =
      (List.range 8).map fun i => (r.getLsbD i ^^ (r.setWidth 8 ^^^ byte).getLsbD i) := by
    refine List.map_congr_left fun i hi => ?_
    rw [BitVec.getLsbD_xor, BitVec.getLsbD_setWidth, decide_eq_true (List.mem_range.mp hi),
      Bool.true_and, ← Bool.xor_assoc, Bool.xor_self, Bool.false_xor]
  have hfold := (linear_stepReflected polynomial).foldl r.getLsbD
    (r.setWidth 8 ^^^ byte).getLsbD (List.range 8) r 0#w
  rw [BitVec.xor_zero, foldl_stepReflected_self] at hfold
  rw [hbits, hfold]
  rfl

/-- What a byte makes of the register, whose highest bits are `top`. -/
theorem foldl_step_byte (polynomial r : BitVec w) {top : BitVec 8}
    (htop : ∀ i < 8, top.getMsbD i = r.getMsbD i) (byte : BitVec 8) :
    (inputBits false byte).foldl (step polynomial) r =
      (r <<< 8) ^^^ entry polynomial (top ^^^ byte) := by
  have hbits : inputBits false byte =
      (List.range 8).map fun i => (r.getMsbD i ^^ (top ^^^ byte).getMsbD i) := by
    refine List.map_congr_left fun i hi => ?_
    rw [BitVec.getMsbD_xor, htop i (List.mem_range.mp hi), ← Bool.xor_assoc, Bool.xor_self,
      Bool.false_xor]
  have hfold := (linear_step polynomial).foldl r.getMsbD (top ^^^ byte).getMsbD (List.range 8) r 0#w
  rw [BitVec.xor_zero, foldl_step_self] at hfold
  rw [hbits, hfold]
  rfl

end Crc
