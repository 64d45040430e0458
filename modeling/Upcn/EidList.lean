import Mathlib.Algebra.GroupWithZero.Nat
import Mathlib.Algebra.Ring.Int.Defs
import Mathlib.Data.List.Basic
import Mathlib.Data.List.GetD
import Mathlib.Tactic.Common

/-!
# Lists of EIDs in a buffer

`eid_list.c`: a byte with the number of EIDs, and the EIDs one behind the other with their
terminators.

* A byte that is read outside of the array, or written outside of what was allocated, is a
  `Fault`, and so is an index that leaves its type.
* `encoding` is the format.  The encoder counts the characters of an EID with 8 bits, and
  the decoder does not compare the number of EIDs with the first byte until it has stored
  them all.
* `decodeLoop_spec` is the invariant of the decoder's loop.
-/

namespace Upcn.EidList

/-- A string of C. -/
abbrev Str := { s : List UInt8 // 0 ∉ s }

/-- The memory of a string. -/
def Str.bytes (s : Str) : List UInt8 := s.val ++ [0]

/-- The number of EIDs, and the EIDs. -/
def encoding (eids : List Str) : List UInt8 :=
  .ofNat eids.length :: eids.flatMap Str.bytes

/-- What must not happen. -/
inductive Fault where
  | readOutside
  | writeOutside
  deriving DecidableEq

/-! ## The encoder -/

/-- The inner loop of `eidlist_encode`, with the counter `j`, into a buffer of so many bytes.
`out_index` is the number of bytes that are written, and is an `int`. -/
def encodeString (capacity : Nat) (s : Str) (j : UInt8) (written : List UInt8) :
    Except Fault (List UInt8) :=
  if written.length < capacity ∧ written.length < 2 ^ 31 then
    let byte := s.bytes.getD j.toNat 0
    if byte ≠ 0 then encodeString capacity s (j + 1) (written ++ [byte])
    else .ok (written ++ [byte])
  else .error .writeOutside
  termination_by 2 ^ 31 - written.length
  decreasing_by
    rw [List.length_append, List.length_singleton]
    omega

/-- The outer loop. -/
def encodeStrings (capacity : Nat) : List Str → List UInt8 → Except Fault (List UInt8)
  | [], written => .ok written
  | s :: eids, written => do
    let written ← encodeString capacity s 0 written
    encodeStrings capacity eids written

/-- The sum of the lengths, in an `int`. -/
def encodedLength (eids : List Str) : Int :=
  eids.foldl (fun length s => (length + (s.val.length + 1 : Nat)).bmod (2 ^ 32)) 1

/-- `eidlist_encode`, with what it writes to `*res_len`.  `count` is the length of the list;
`mem` says whether the buffer can be allocated. -/
def eidlistEncode (mem : Bool) (eids : List Str) : Except Fault (Option (List UInt8) × Int) :=
  let resLen := encodedLength eids
  let capacity := (resLen % 2 ^ 64).toNat
  if mem = false then .ok (none, -1)
  else if capacity = 0 then .error .writeOutside
  else do
    let res ← encodeStrings capacity eids [.ofNat eids.length]
    return (some res, resLen)

/-! ## The decoder -/

/-- `ptr[j]`. -/
def readByte (ptr : List UInt8) (j : Nat) : Except Fault UInt8 :=
  match ptr[j]? with
  | some byte => .ok byte
  | none => .error .readOutside

/-- The search for a terminator from `i` on, with the counter `j`: the length of the EID. -/
def findEnd (ptr : List UInt8) (i j : Nat) : Except Fault (Option Nat) :=
  if j < ptr.length then
    match readByte ptr j with
    | .error fault => .error fault
    | .ok byte => if byte = 0 then .ok (some (j - i)) else findEnd ptr i (j + 1)
  else .ok none
  termination_by ptr.length - j

/-- The loop that copies so many bytes from `i` on. -/
def copyEid (ptr : List UInt8) : Nat → Nat → Except Fault (List UInt8)
  | _, 0 => .ok []
  | i, count + 1 => do
    let byte ← readByte ptr i
    let rest ← copyEid ptr (i + 1) count
    return byte :: rest

/-- The loop of `eidlist_decode`.  `result` has a slot for each EID that is announced, and
`mem` says which of the allocations succeed. -/
def decodeLoop (mem : Nat → Bool) (ptr : List UInt8) (i : Nat) (eidIndex : UInt8)
    (result : List (Option (List UInt8))) : Except Fault (Option (List (Option (List UInt8)))) :=
  if i < ptr.length then
    match findEnd ptr i i with
    | .error fault => .error fault
    | .ok none => .ok none
    | .ok (some eidLength) =>
      if result.length ≤ eidIndex.toNat then .error .writeOutside
      else if mem (eidIndex.toNat + 1) = false then .ok none
      else
        match copyEid ptr i (eidLength + 1) with
        | .error fault => .error fault
        | .ok eid =>
          decodeLoop mem ptr (i + (eidLength + 1)) (eidIndex + 1)
            (result.set eidIndex.toNat (some eid))
  else
    match readByte ptr 0 with
    | .error fault => .error fault
    | .ok count => if eidIndex ≠ count then .ok none else .ok (some result)
  termination_by ptr.length - i

/-- `eidlist_decode`, for an array of `length` bytes: `NULL` or the slots. -/
def eidlistDecode (mem : Nat → Bool) (ptr : List UInt8) :
    Except Fault (Option (List (Option (List UInt8)))) :=
  if ptr.length ≤ 1 then .ok none
  else
    match readByte ptr 0 with
    | .error fault => .error fault
    | .ok count =>
      if mem 0 = false then .ok none
      else decodeLoop mem ptr 1 0 (List.replicate count.toNat none)

/-! ## What the two functions should do -/

/-- With memory, the EIDs are encoded in a buffer of the length that is reported, and decoded
unless there are none. -/
def RoundTrips (eids : List Str) : Prop :=
  ∃ bytes, eidlistEncode true eids = .ok (some bytes, bytes.length) ∧
    (eids ≠ [] → eidlistDecode (fun _ => true) bytes =
      .ok (some (eids.map fun s => some s.bytes)))

/-- Whatever can be allocated, the decoder stays in its memory, and a list that it returns is
the one that is encoded. -/
def DecodesSafely (ptr : List UInt8) : Prop :=
  ∀ mem, ∃ result, eidlistDecode mem ptr = .ok result ∧ ∀ list ∈ result,
    ∃ eids : List Str, list = eids.map (fun s => some s.bytes) ∧ ptr = encoding eids

/-- There are no more terminators than EIDs are announced. -/
def Announced : List UInt8 → Prop
  | [] => True
  | count :: rest => rest.count 0 ≤ count.toNat ∨ rest = []

instance (ptr : List UInt8) : Decidable (Announced ptr) := by
  cases ptr <;> unfold Announced <;> infer_instance

variable {ptr rest written : List UInt8} {i j k capacity : Nat} {s : Str} {eids strs : List Str}
  {eidIndex byte : UInt8} {result : List (Option (List UInt8))} {mem : Nat → Bool}

theorem length_bytes (s : Str) : s.bytes.length = s.val.length + 1 := by
  rw [Str.bytes, List.length_append, List.length_singleton]

/-- The characters before the terminator are none. -/
theorem getD_bytes_ne (hk : k < s.val.length) : s.bytes.getD k 0 ≠ 0 := by
  rw [Str.bytes, List.getD_append _ _ _ _ hk, List.getD_eq_getElem _ _ hk]
  intro hzero
  have hmem := List.getElem_mem hk
  rw [hzero] at hmem
  exact s.property hmem

/-! ## Encoding -/

theorem encodeString_short {k : Nat} {written : List UInt8} (hs : s.val.length < 256)
    (hk : k ≤ s.val.length)
    (hroom : written.length + (s.val.length - k) < capacity)
    (hint : written.length + (s.val.length - k) < 2 ^ 31) :
    encodeString capacity s (.ofNat k) written = .ok (written ++ s.bytes.drop k) := by
  have hj : (UInt8.ofNat k).toNat = k := by
    rw [UInt8.toNat_ofNat']
    omega
  have hget : s.bytes.drop k = s.bytes.getD k 0 :: s.bytes.drop (k + 1) := by
    have hlt : k < s.bytes.length := by
      rw [length_bytes]
      omega
    rw [List.getD_eq_getElem _ _ hlt, List.drop_eq_getElem_cons hlt]
  rw [encodeString, if_pos ⟨by omega, by omega⟩, hj]
  dsimp only
  by_cases hend : k = s.val.length
  · have hzero : s.bytes.getD k 0 = 0 := by simp [Str.bytes, hend]
    have hnil : s.bytes.drop (k + 1) = [] := by
      rw [List.drop_eq_nil_iff, length_bytes]
      omega
    rw [hget, hzero, if_neg (by simp), hnil]
  · have hlt : k < s.val.length := by omega
    have hnext : UInt8.ofNat k + 1 = .ofNat (k + 1) := by
      rw [UInt8.ofNat_add]
      rfl
    rw [if_pos (getD_bytes_ne hlt), hnext, encodeString_short hs (by omega),
      List.append_assoc, List.singleton_append, ← hget]
    · rw [List.length_append, List.length_singleton]
      omega
    · rw [List.length_append, List.length_singleton]
      omega
  termination_by s.val.length - k

/-- The counter never gets to the terminator of a long string. -/
theorem encodeString_long (hs : 256 ≤ s.val.length) (j : UInt8) (written : List UInt8) :
    encodeString capacity s j written = .error .writeOutside := by
  have hlt : j.toNat < s.val.length := Nat.lt_of_lt_of_le j.toNat_lt hs
  rw [encodeString]
  split
  · rw [if_pos (getD_bytes_ne hlt)]
    exact encodeString_long hs (j + 1) _
  · rfl
  termination_by 2 ^ 31 - written.length
  decreasing_by
    rw [List.length_append, List.length_singleton]
    omega

theorem encodeStrings_short (hs : ∀ s ∈ eids, s.val.length < 256)
    (hroom : written.length + (eids.flatMap Str.bytes).length ≤ capacity)
    (hint : written.length + (eids.flatMap Str.bytes).length ≤ 2 ^ 31) :
    encodeStrings capacity eids written = .ok (written ++ eids.flatMap Str.bytes) := by
  induction eids generalizing written with
  | nil => rw [List.flatMap_nil, List.append_nil]; rfl
  | cons s eids ih =>
    rw [List.flatMap_cons, List.length_append, length_bytes] at hroom hint
    have hfirst : encodeString capacity s 0 written = .ok (written ++ s.bytes) :=
      encodeString_short (k := 0) (hs s List.mem_cons_self) (Nat.zero_le _) (by omega) (by omega)
    have hrest := @ih (written ++ s.bytes) (fun s hs' => hs s (List.mem_cons_of_mem _ hs'))
      (by rw [List.length_append, length_bytes]; omega)
      (by rw [List.length_append, length_bytes]; omega)
    rw [encodeStrings, hfirst, List.flatMap_cons, ← List.append_assoc]
    exact hrest

variable (capacity) in
theorem encodeStrings_long (hs : ∃ s ∈ eids, 256 ≤ s.val.length) (written res : List UInt8) :
    encodeStrings capacity eids written ≠ .ok res := by
  induction eids generalizing written with
  | nil =>
    obtain ⟨s, hmem, -⟩ := hs
    cases hmem
  | cons s eids ih =>
    rw [encodeStrings]
    by_cases hlong : 256 ≤ s.val.length
    · rw [encodeString_long hlong]
      exact fun h => nomatch h
    · cases encodeString capacity s 0 written with
      | error fault => exact fun h => nomatch h
      | ok written =>
        obtain ⟨s', hmem, hlong'⟩ := hs
        rcases List.mem_cons.mp hmem with rfl | hmem
        · exact absurd hlong' hlong
        · exact ih ⟨s', hmem, hlong'⟩ written

/-- The sum does not leave its type. -/
theorem foldl_length (start : Nat)
    (h : start + (eids.flatMap Str.bytes).length < 2 ^ 31) :
    eids.foldl (fun (length : Int) s => (length + (s.val.length + 1 : Nat)).bmod (2 ^ 32)) start =
      ((start + (eids.flatMap Str.bytes).length : Nat) : Int) := by
  induction eids generalizing start with
  | nil => rfl
  | cons s eids ih =>
    rw [List.flatMap_cons, List.length_append, length_bytes] at h ⊢
    have hmod : ((start : Int) + (s.val.length + 1 : Nat)).bmod (2 ^ 32) =
        ((start + (s.val.length + 1) : Nat) : Int) := by
      rw [← Int.natCast_add]
      exact Int.bmod_eq_of_le (by omega) (by omega)
    rw [List.foldl_cons, hmod, ih _ (by omega), Nat.add_assoc]

theorem length_flatMap_bytes (hs : ∀ s ∈ eids, s.val.length < 256) :
    (eids.flatMap Str.bytes).length ≤ 256 * eids.length := by
  induction eids with
  | nil => simp
  | cons s eids ih =>
    have hfirst := hs s List.mem_cons_self
    have hrest := ih fun s hs' => hs s (List.mem_cons_of_mem _ hs')
    rw [List.flatMap_cons, List.length_append, length_bytes, List.length_cons]
    omega

theorem eidlistEncode_short (hcount : eids.length < 256) (hs : ∀ s ∈ eids, s.val.length < 256) :
    eidlistEncode true eids = .ok (some (encoding eids), (encoding eids).length) := by
  have hbytes := length_flatMap_bytes hs
  have hlength : (encoding eids).length = 1 + (eids.flatMap Str.bytes).length := by
    rw [encoding, List.length_cons, Nat.add_comm]
  have hres : encodedLength eids = ((encoding eids).length : Int) := by
    rw [hlength]
    exact foldl_length 1 (by omega)
  have hcapacity : (((encoding eids).length : Int) % 2 ^ 64).toNat = (encoding eids).length := by
    omega
  have hsingle : ([UInt8.ofNat eids.length] : List UInt8).length = 1 := rfl
  have hstrings := @encodeStrings_short [.ofNat eids.length] (encoding eids).length eids hs
    (by omega) (by omega)
  simp only [eidlistEncode, hres, hcapacity, Bool.true_eq_false, if_false]
  rw [if_neg (by omega), hstrings]
  rfl

theorem eidlistEncode_long (hs : ∃ s ∈ eids, 256 ≤ s.val.length) (res : Option (List UInt8))
    (length : Int) : eidlistEncode true eids ≠ .ok (res, length) := by
  have hstrings := fun capacity => encodeStrings_long capacity hs
    [.ofNat eids.length]
  simp only [eidlistEncode, Bool.true_eq_false, if_false]
  split_ifs
  · exact fun h => nomatch h
  · cases hcase : encodeStrings ((encodedLength eids % 2 ^ 64).toNat) eids
        [.ofNat eids.length] with
    | error fault => exact fun h => nomatch h
    | ok written => exact absurd hcase (hstrings _ written)

/-! ## Decoding -/

theorem readByte_of_drop (h : ptr.drop j = byte :: rest) :
    readByte ptr j = .ok byte ∧ ptr.drop (j + 1) = rest ∧ j < ptr.length := by
  have hlt : j < ptr.length := by
    by_contra hge
    rw [List.drop_eq_nil_of_le (Nat.not_lt.mp hge)] at h
    cases h
  rw [List.drop_eq_getElem_cons hlt] at h
  obtain ⟨hbyte, hrest⟩ := List.cons.inj h
  refine ⟨?_, hrest, hlt⟩
  rw [readByte, List.getElem?_eq_getElem hlt, hbyte]

theorem findEnd_of_drop {text : List UInt8} (htext : 0 ∉ text) (hle : i ≤ j)
    (h : ptr.drop j = text ++ 0 :: rest) : findEnd ptr i j = .ok (some (j + text.length - i)) := by
  induction text generalizing j with
  | nil =>
    obtain ⟨hread, -, hlt⟩ := readByte_of_drop h
    rw [findEnd, if_pos hlt, hread]
    rfl
  | cons c text ih =>
    obtain ⟨hread, hrest, hlt⟩ := readByte_of_drop h
    have hc : c ≠ 0 := fun hzero => htext (hzero ▸ List.mem_cons_self)
    rw [findEnd, if_pos hlt, hread]
    dsimp only
    rw [if_neg hc, ih (fun hmem => htext (List.mem_cons_of_mem _ hmem)) (by omega) hrest,
      List.length_cons]
    congr 2
    omega

theorem findEnd_open (h : 0 ∉ ptr.drop j) : findEnd ptr i j = .ok none := by
  generalize hrest : ptr.drop j = rest at h
  induction rest generalizing j with
  | nil =>
    rw [findEnd, if_neg (Nat.not_lt.mpr (List.drop_eq_nil_iff.mp hrest))]
  | cons c rest ih =>
    obtain ⟨hread, hnext, hlt⟩ := readByte_of_drop hrest
    have hc : c ≠ 0 := fun hzero => h (hzero ▸ List.mem_cons_self)
    rw [findEnd, if_pos hlt, hread]
    dsimp only
    rw [if_neg hc, ih hnext fun hmem => h (List.mem_cons_of_mem _ hmem)]

theorem copyEid_of_drop {text : List UInt8} (h : ptr.drop i = text ++ rest) :
    copyEid ptr i text.length = .ok text := by
  induction text generalizing i with
  | nil => rfl
  | cons c text ih =>
    obtain ⟨hread, hnext, -⟩ := readByte_of_drop h
    rw [List.length_cons, copyEid, hread]
    show (do let rest ← copyEid ptr (i + 1) text.length; pure (c :: rest)) = _
    rw [ih hnext]
    rfl

/-- One turn of the loop, before the slot is written. -/
theorem decodeLoop_eid (h : ptr.drop i = s.bytes ++ rest) :
    decodeLoop mem ptr i eidIndex result =
      if result.length ≤ eidIndex.toNat then .error .writeOutside
      else if mem (eidIndex.toNat + 1) = false then .ok none
      else decodeLoop mem ptr (i + (s.val.length + 1)) (eidIndex + 1)
        (result.set eidIndex.toNat (some s.bytes)) := by
  have hlt : i < ptr.length := by
    by_contra hge
    rw [List.drop_eq_nil_of_le (Nat.not_lt.mp hge)] at h
    simp [Str.bytes] at h
  have hfind : findEnd ptr i i = .ok (some s.val.length) := by
    have hdrop : ptr.drop i = s.val ++ 0 :: rest := by
      rw [h, Str.bytes, List.append_assoc]
      rfl
    rw [findEnd_of_drop s.property (Nat.le_refl i) hdrop, Nat.add_sub_cancel_left]
  have hcopy := copyEid_of_drop h
  rw [length_bytes] at hcopy
  rw [decodeLoop, if_pos hlt, hfind]
  dsimp only
  rw [hcopy]

theorem decodeLoop_open (hne : ptr.drop i ≠ []) (h : 0 ∉ ptr.drop i) :
    decodeLoop mem ptr i eidIndex result = .ok none := by
  have hlt : i < ptr.length := by
    by_contra hge
    exact hne (List.drop_eq_nil_of_le (Nat.not_lt.mp hge))
  rw [decodeLoop, if_pos hlt, findEnd_open h]

/-- The slots that are written, those that are left, and the index of the next one. -/
structure Stored (ptr : List UInt8) (strs : List Str) (k : Nat) (eidIndex : UInt8)
    (result : List (Option (List UInt8))) : Prop where
  count : ∃ count, readByte ptr 0 = .ok count ∧ count.toNat = strs.length + k
  index : eidIndex.toNat = strs.length
  slots : result = strs.map (fun s => some s.bytes) ++ List.replicate k none

namespace Stored

variable (h : Stored ptr strs k eidIndex result)
include h

theorem length_slots : result.length = strs.length + k := by
  rw [h.slots, List.length_append, List.length_map, List.length_replicate]

theorem decodeLoop_end (hend : ptr.drop i = []) :
    decodeLoop mem ptr i eidIndex result = .ok (if k = 0 then some result else none) := by
  obtain ⟨count, hread, hcount⟩ := h.count
  have hindex := h.index
  rw [decodeLoop, if_neg (Nat.not_lt.mpr (List.drop_eq_nil_iff.mp hend)), hread]
  dsimp only
  by_cases hk : k = 0
  · have heq : eidIndex = count := UInt8.toNat_inj.mp (by omega)
    rw [if_neg (by simp [heq]), if_pos hk]
  · have hne : eidIndex ≠ count := fun heq => hk (by rw [heq] at hindex; omega)
    rw [if_pos hne, if_neg hk]

end Stored

/-- A slot is written. -/
theorem Stored.store (h : Stored ptr strs (k + 1) eidIndex result) (s : Str) :
    Stored ptr (strs ++ [s]) k (eidIndex + 1)
      (result.set eidIndex.toNat (some s.bytes)) where
  count := by
    obtain ⟨count, hread, hcount⟩ := h.count
    refine ⟨count, hread, ?_⟩
    rw [List.length_append, List.length_singleton]
    omega
  index := by
    obtain ⟨count, -, hcount⟩ := h.count
    have hlt := count.toNat_lt
    have hindex := h.index
    have hone : (1 : UInt8).toNat = 1 := rfl
    rw [UInt8.toNat_add, hone, List.length_append, List.length_singleton]
    omega
  slots := by
    rw [h.index, h.slots, List.set_append_right _ _ (by simp)]
    simp [List.replicate_succ]

theorem exists_bytes_of_mem (h : 0 ∈ rest) : ∃ (s : Str) (rest' : List UInt8),
    rest = s.bytes ++ rest' ∧ rest.count 0 = rest'.count 0 + 1 := by
  obtain ⟨text, rest', rfl, htext⟩ := List.eq_append_cons_of_mem h
  refine ⟨⟨text, htext⟩, rest', by simp [Str.bytes], ?_⟩
  rw [List.count_append, List.count_eq_zero_of_not_mem htext, List.count_cons_self, Nat.zero_add]

theorem drop_of_bytes (h : ptr.drop i = s.bytes ++ rest) :
    ptr.drop (i + (s.val.length + 1)) = rest := by
  rw [← List.drop_drop, h, ← length_bytes, List.drop_left]

variable (mem) in
/-- With a slot for each terminator the loop stays in its memory. -/
theorem decodeLoop_spec (h : Stored ptr strs k eidIndex result) (hdrop : ptr.drop i = rest)
    (hroom : rest.count 0 ≤ k) :
    ∃ res, decodeLoop mem ptr i eidIndex result = .ok res ∧ ∀ list ∈ res,
      ∃ more : List Str, list = (strs ++ more).map (fun s => some s.bytes) ∧
        rest = more.flatMap Str.bytes ∧ k = more.length := by
  induction hcount : rest.count 0 generalizing rest i k strs eidIndex result with
  | zero =>
    by_cases hnil : rest = []
    · subst hnil
      refine ⟨_, h.decodeLoop_end hdrop, fun list hlist => ?_⟩
      split_ifs at hlist with hk
      · subst hk
        obtain rfl := Option.some.inj hlist
        refine ⟨[], ?_, rfl, rfl⟩
        rw [h.slots, List.replicate_zero, List.append_nil, List.append_nil]
      · cases hlist
    · refine ⟨none, decodeLoop_open (hdrop ▸ hnil) ?_, fun list hlist => nomatch hlist⟩
      rw [hdrop]
      exact List.count_eq_zero.mp hcount
  | succ count ih =>
    have hpos : 0 < rest.count 0 := by omega
    obtain ⟨s, rest', rfl, hless⟩ := exists_bytes_of_mem (List.count_pos_iff.mp hpos)
    obtain ⟨k, rfl⟩ : ∃ k', k = k' + 1 := ⟨k - 1, by omega⟩
    have hslots := h.length_slots
    have hindex := h.index
    rw [decodeLoop_eid hdrop, if_neg (by omega)]
    split
    · exact ⟨none, rfl, fun list hlist => nomatch hlist⟩
    · obtain ⟨res, hres, hlists⟩ :=
        ih (h.store s) (drop_of_bytes hdrop) (by omega) (by omega)
      refine ⟨res, hres, fun list hlist => ?_⟩
      obtain ⟨more, hlist, hrest, hk⟩ := hlists list hlist
      refine ⟨s :: more, ?_, ?_, ?_⟩
      · rw [hlist, List.append_assoc, List.singleton_append]
      · rw [hrest, List.flatMap_cons]
      · rw [hk, List.length_cons]

/-- With fewer slots than terminators it does not, if there is memory. -/
theorem decodeLoop_overflows (h : Stored ptr strs k eidIndex result) (hdrop : ptr.drop i = rest)
    (hroom : k < rest.count 0) :
    decodeLoop (fun _ => true) ptr i eidIndex result = .error .writeOutside := by
  induction k generalizing rest i strs eidIndex result with
  | zero =>
    obtain ⟨s, rest', rfl, -⟩ := exists_bytes_of_mem (List.count_pos_iff.mp hroom)
    have hslots := h.length_slots
    have hindex := h.index
    rw [decodeLoop_eid hdrop, if_pos (by omega)]
  | succ k ih =>
    have hpos : 0 < rest.count 0 := by omega
    obtain ⟨s, rest', rfl, hless⟩ := exists_bytes_of_mem (List.count_pos_iff.mp hpos)
    have hslots := h.length_slots
    have hindex := h.index
    rw [decodeLoop_eid hdrop, if_neg (by omega), if_neg (by simp)]
    exact ih (h.store s) (drop_of_bytes hdrop) (by omega)

/-- What is encoded is decoded. -/
theorem decodeLoop_encoded (h : Stored ptr strs k eidIndex result)
    (hdrop : ptr.drop i = eids.flatMap Str.bytes) (hk : k = eids.length) :
    decodeLoop (fun _ => true) ptr i eidIndex result =
      .ok (some ((strs ++ eids).map fun s => some s.bytes)) := by
  induction eids generalizing i strs k eidIndex result with
  | nil =>
    rw [List.length_nil] at hk
    subst hk
    rw [h.decodeLoop_end hdrop, if_pos rfl, h.slots, List.replicate_zero, List.append_nil,
      List.append_nil]
  | cons s eids ih =>
    subst hk
    rw [List.flatMap_cons] at hdrop
    have hslots := h.length_slots
    have hindex := h.index
    rw [List.length_cons] at h hslots
    rw [decodeLoop_eid hdrop, if_neg (by omega), if_neg (by simp),
      ih (h.store s) (drop_of_bytes hdrop) rfl, List.append_assoc, List.singleton_append]

/-! ## The codec -/

theorem stored_start (count : UInt8) (rest : List UInt8) :
    Stored (count :: rest) [] count.toNat 0 (List.replicate count.toNat none) where
  count := ⟨count, rfl, (Nat.zero_add _).symm⟩
  index := rfl
  slots := rfl

theorem roundTrips_iff_short (hcount : eids.length < 256) :
    RoundTrips eids ↔ ∀ s ∈ eids, s.val.length < 256 := by
  constructor
  · rintro ⟨bytes, hencode, -⟩ s hs
    by_contra hlong
    exact eidlistEncode_long ⟨s, hs, Nat.not_lt.mp hlong⟩ _ _ hencode
  · intro hshort
    refine ⟨encoding eids, eidlistEncode_short hcount hshort, fun hne => ?_⟩
    obtain ⟨s, more, rfl⟩ := List.exists_cons_of_ne_nil hne
    have hlength : ¬ (encoding (s :: more)).length ≤ 1 := by
      rw [encoding, List.length_cons, List.flatMap_cons, List.length_append, length_bytes]
      omega
    have hindex : (UInt8.ofNat (s :: more).length).toNat = (s :: more).length := by
      rw [UInt8.toNat_ofNat']
      omega
    rw [eidlistDecode, if_neg hlength]
    exact decodeLoop_encoded (stored_start _ _) rfl hindex

theorem decodesSafely_iff (ptr : List UInt8) : DecodesSafely ptr ↔ Announced ptr := by
  cases ptr with
  | nil =>
    exact iff_of_true (fun mem => ⟨none, rfl, fun list hlist => nomatch hlist⟩) trivial
  | cons count rest =>
    by_cases hnil : rest = []
    · subst hnil
      exact iff_of_true (fun mem => ⟨none, rfl, fun list hlist => nomatch hlist⟩) (.inr rfl)
    have hlength : ¬ (count :: rest).length ≤ 1 := by
      have := List.length_pos_iff.mpr hnil
      rw [List.length_cons]
      omega
    have hdecode (mem : Nat → Bool) : eidlistDecode mem (count :: rest) =
        if mem 0 = false then .ok none
        else decodeLoop mem (count :: rest) 1 0 (List.replicate count.toNat none) := by
      rw [eidlistDecode, if_neg hlength]
      rfl
    constructor
    · intro hsafe
      by_contra hmany
      rw [Announced, not_or, Nat.not_le] at hmany
      obtain ⟨res, hres, -⟩ := hsafe fun _ => true
      rw [hdecode, if_neg (by simp),
        decodeLoop_overflows (i := 1) (stored_start count rest) rfl hmany.1] at hres
      cases hres
    · intro hannounced mem
      rw [hdecode]
      split
      · exact ⟨none, rfl, fun list hlist => nomatch hlist⟩
      · obtain ⟨res, hres, hlists⟩ := decodeLoop_spec mem (i := 1)
          (stored_start count rest) rfl (hannounced.resolve_right hnil)
        refine ⟨res, hres, fun list hlist => ?_⟩
        obtain ⟨more, hlist, hrest, hk⟩ := hlists list hlist
        refine ⟨more, hlist, ?_⟩
        have hrest' : rest = more.flatMap Str.bytes := hrest
        rw [encoding, ← hk, ← hrest', UInt8.ofNat_toNat]

/-- When the EIDs are encoded and decoded, and when a decoder is safe. -/
theorem codec_iff (eids : List Str) (hcount : eids.length < 256) (ptr : List UInt8) :
    (RoundTrips eids ↔ ∀ s ∈ eids, s.val.length < 256) ∧ (DecodesSafely ptr ↔ Announced ptr) :=
  ⟨roundTrips_iff_short hcount, decodesSafely_iff ptr⟩

/-- `dtn:a` and `ipn:1.2`. -/
def twoEids : List Str :=
  [⟨[100, 116, 110, 58, 97], by decide⟩, ⟨[105, 112, 110, 58, 49, 46, 50], by decide⟩]

theorem codec_iff_two : RoundTrips twoEids ∧
    DecodesSafely [2, 100, 116, 110, 58, 97, 0, 105, 112, 110, 58, 49, 46, 50, 0] := by
  obtain ⟨hround, hsafe⟩ := codec_iff twoEids (by decide)
    [2, 100, 116, 110, 58, 97, 0, 105, 112, 110, 58, 49, 46, 50, 0]
  exact ⟨hround.mpr (by decide), hsafe.mpr (by decide)⟩

/-- An EID of so many characters. -/
def longStr (count : Nat) : Str := ⟨List.replicate count 97, by simp⟩

/-- The encoder does not end in its buffer, and the decoder stores an EID that was not
announced. -/
theorem not_codec : ¬ RoundTrips [longStr 256] ∧ ¬ DecodesSafely [0, 97, 0] := by
  refine ⟨?_, fun hsafe => ?_⟩
  · rintro ⟨bytes, hencode, -⟩
    refine eidlistEncode_long ⟨longStr 256, List.mem_singleton_self _, ?_⟩ _ _ hencode
    exact Nat.le_of_eq List.length_replicate.symm
  · exact absurd ((decodesSafely_iff _).mp hsafe) (by decide)

end Upcn.EidList
