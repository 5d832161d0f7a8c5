import Mathlib.Algebra.Group.Nat.Defs
import Mathlib.Data.List.GetD
import Mathlib.Logic.Function.Iterate

/-!
# Reflected cyclic redundancy checks

The register of a reflected check of width `w` shifts right, and takes the polynomial in when the
bit that falls out differs from the bit of the message; the bits of the message come with the least
significant one of a byte first.

The bits of the message may be added to the register before it shifts (`crcBits_eq`), which is what
table-driven implementations do a byte at a time.  When the polynomial has its highest bit, which in
this order stands for the constant term, no shift loses anything, and two messages that differ in a
burst of at most `w` bits have different checks (`crcBits_ne_of_burst`).
-/

namespace ReflectedCrc

variable {w : ℕ} {poly : BitVec w}

/-- A shift of the register. -/
def shift (poly crc : BitVec w) : BitVec w :=
  (crc >>> 1) ^^^ (if crc.getLsbD 0 then poly else 0)

/-- A bit of the message. -/
def crcBit (poly crc : BitVec w) (bit : Bool) : BitVec w :=
  (crc >>> 1) ^^^ (if crc.getLsbD 0 ^^ bit then poly else 0)

/-- The bits of a message, one after the other. -/
def crcBits (poly crc : BitVec w) (bits : List Bool) : BitVec w := bits.foldl (crcBit poly) crc

/-- The bits as a word, the first one as the least significant one. -/
def word (w : ℕ) : List Bool → BitVec w
  | [] => 0
  | bit :: bits => (BitVec.ofBool bit).setWidth w ^^^ (word w bits <<< 1)

/-! ## Bits that are added to the register -/

/-- Shifts are linear. -/
lemma shift_xor (crc crc' : BitVec w) :
    shift poly (crc ^^^ crc') = shift poly crc ^^^ shift poly crc' := by
  refine BitVec.eq_of_getLsbD_eq fun i _ => ?_
  simp only [shift, BitVec.getLsbD_xor, BitVec.getLsbD_ushiftRight]
  cases crc.getLsbD 0 <;> cases crc'.getLsbD 0 <;> cases hbit : poly.getLsbD i <;> simp [hbit]

/-- A bit may be added to the register before it shifts. -/
lemma crcBit_eq (hw : 0 < w) (crc : BitVec w) (bit : Bool) :
    crcBit poly crc bit = shift poly (crc ^^^ (BitVec.ofBool bit).setWidth w) := by
  have hlost : (BitVec.ofBool bit).setWidth w >>> 1 = 0 := by
    refine BitVec.eq_of_getLsbD_eq fun i _ => ?_
    simp
  have hbit : ((BitVec.ofBool bit).setWidth w).getLsbD 0 = bit := by simp [hw]
  unfold crcBit shift
  rw [BitVec.ushiftRight_xor_distrib, hlost, BitVec.getLsbD_xor, hbit]
  simp

/-- A shift takes back a shift to the left that loses nothing. -/
lemma shift_shiftLeft (hw : 0 < w) {crc : BitVec w} (hmsb : crc.getLsbD (w - 1) = false) :
    shift poly (crc <<< 1) = crc := by
  have hback : crc <<< 1 >>> 1 = crc := by
    refine BitVec.eq_of_getLsbD_eq fun i hi => ?_
    rw [BitVec.getLsbD_ushiftRight, BitVec.getLsbD_shiftLeft]
    rcases Nat.lt_or_ge (1 + i) w with h | h
    · simp [h]
    · obtain rfl : i = w - 1 := by omega
      simp [hmsb]
  unfold shift
  rw [hback]
  simp

/-- The bits of a word. -/
lemma getLsbD_word (bits : List Bool) {i : ℕ} (hi : i < w) :
    (word w bits).getLsbD i = bits.getD i false := by
  induction bits generalizing i with
  | nil => simp [word]
  | cons bit bits ih =>
    rw [word, BitVec.getLsbD_xor, BitVec.getLsbD_shiftLeft, BitVec.getLsbD_setWidth]
    cases i with
    | zero => simp [hi]
    | succ i => simp [hi, ih (Nat.lt_of_succ_lt hi)]

/-- At most `w` bits may be added to the register before it shifts. -/
theorem crcBits_eq (crc : BitVec w) {bits : List Bool} (hlength : bits.length ≤ w) :
    crcBits poly crc bits = (shift poly)^[bits.length] (crc ^^^ word w bits) := by
  induction bits generalizing crc with
  | nil => simp [crcBits, word]
  | cons bit bits ih =>
    have hw : 0 < w := Nat.lt_of_lt_of_le (Nat.succ_pos _) hlength
    have hmsb : (word w bits).getLsbD (w - 1) = false := by
      rw [getLsbD_word _ (by omega), List.getD_eq_default]
      rw [List.length_cons] at hlength
      omega
    calc crcBits poly crc (bit :: bits)
        = crcBits poly (crcBit poly crc bit) bits := rfl
      _ = (shift poly)^[bits.length] (crcBit poly crc bit ^^^ word w bits) :=
          ih _ (Nat.le_of_succ_le hlength)
      _ = (shift poly)^[bits.length] (shift poly (crc ^^^ word w (bit :: bits))) := by
          rw [crcBit_eq hw, word, ← BitVec.xor_assoc, shift_xor _ (word w bits <<< 1),
            shift_shiftLeft hw hmsb]
      _ = (shift poly)^[(bit :: bits).length] (crc ^^^ word w (bit :: bits)) := rfl

/-! ## Tables -/

/-- The lowest bits of a word. -/
def low (n : ℕ) (crc : BitVec w) : BitVec w := crc &&& BitVec.ofNat w (2 ^ n - 1)

/-- Shifts are linear. -/
lemma iterate_shift_xor (n : ℕ) (crc crc' : BitVec w) :
    (shift poly)^[n] (crc ^^^ crc') = (shift poly)^[n] crc ^^^ (shift poly)^[n] crc' := by
  induction n generalizing crc crc' with
  | zero => rfl
  | succ n ih => rw [Function.iterate_succ_apply, shift_xor, ih]; rfl

/-- Shifts take back a shift to the left that loses nothing. -/
lemma iterate_shift_shiftLeft (n : ℕ) {crc : BitVec w}
    (htop : ∀ i, w ≤ i + n → crc.getLsbD i = false) : (shift poly)^[n] (crc <<< n) = crc := by
  induction n generalizing crc with
  | zero => simp
  | succ n ih =>
    rcases Nat.eq_zero_or_pos w with rfl | hw
    · exact Subsingleton.elim _ _
    have hmsb : (crc <<< n).getLsbD (w - 1) = false := by
      rw [BitVec.getLsbD_shiftLeft]
      rcases Nat.lt_or_ge (w - 1) n with h | h
      · simp [h]
      · rw [htop _ (by omega), Bool.and_false]
    rw [Function.iterate_succ_apply, BitVec.shiftLeft_add, shift_shiftLeft hw hmsb]
    exact ih fun i hi => htop i (by omega)

/-- `n` shifts, from a table of what they do to the `n` lowest bits. -/
theorem iterate_shift_eq (n : ℕ) (crc : BitVec w) :
    (shift poly)^[n] crc = (crc >>> n) ^^^ (shift poly)^[n] (low n crc) := by
  have hsplit : crc = (crc >>> n <<< n) ^^^ low n crc := by
    refine BitVec.eq_of_getLsbD_eq fun i hi => ?_
    rw [BitVec.getLsbD_xor, BitVec.getLsbD_shiftLeft, BitVec.getLsbD_ushiftRight, low,
      BitVec.getLsbD_and, BitVec.getLsbD_ofNat, Nat.testBit_two_pow_sub_one]
    rcases Nat.lt_or_ge i n with h | h
    · simp [h, hi]
    · simp [hi, Nat.not_lt.mpr h, Nat.add_sub_cancel' h]
  have hback : (shift poly)^[n] (crc >>> n <<< n) = crc >>> n := by
    refine iterate_shift_shiftLeft n fun i hi => ?_
    rw [BitVec.getLsbD_ushiftRight]
    exact BitVec.getLsbD_of_ge _ _ (by omega)
  have hshift := congrArg (shift poly)^[n] hsplit
  rwa [iterate_shift_xor, hback] at hshift

/-! ## Bursts -/

/-- When the polynomial has its highest bit, no shift loses anything. -/
lemma shift_injective (hpoly : poly.getLsbD (w - 1) = true) :
    Function.Injective (shift poly) := by
  intro crc crc' heq
  have hbits := fun i => congrArg (fun word : BitVec w => word.getLsbD i) heq
  simp only [shift, BitVec.getLsbD_xor, BitVec.getLsbD_ushiftRight] at hbits
  have hout : ∀ word : BitVec w, word.getLsbD (1 + (w - 1)) = false := fun word =>
    BitVec.getLsbD_of_ge _ _ (by omega)
  -- The highest bit says which bit fell out.
  have hlsb : crc.getLsbD 0 = crc'.getLsbD 0 := by
    have hmsb := hbits (w - 1)
    rw [hout, hout] at hmsb
    cases h : crc.getLsbD 0 <;> cases h' : crc'.getLsbD 0 <;> simp [h, h', hpoly] at hmsb ⊢
  refine BitVec.eq_of_getLsbD_eq fun i _ => ?_
  cases i with
  | zero => exact hlsb
  | succ i =>
    have hbit := hbits i
    rw [hlsb] at hbit
    rw [Nat.add_comm i 1]
    exact Bool.xor_left_inj.mp hbit

/-- Registers that differ go on to differ. -/
lemma crcBits_injective (hpoly : poly.getLsbD (w - 1) = true) (bits : List Bool) :
    Function.Injective fun crc => crcBits poly crc bits := by
  have hw : 0 < w := Nat.pos_of_ne_zero fun h => by
    subst h
    simp at hpoly
  induction bits with
  | nil => exact fun _ _ heq => heq
  | cons bit bits ih =>
    intro crc crc' heq
    have hbit : crcBit poly crc bit = crcBit poly crc' bit := ih heq
    rw [crcBit_eq hw, crcBit_eq hw] at hbit
    exact (BitVec.xor_left_inj _).mp (shift_injective hpoly hbit)

/-- Words of the same bits are words of the same list. -/
lemma word_injective {bits bits' : List Bool} (hlength : bits.length = bits'.length)
    (hle : bits.length ≤ w) (heq : word w bits = word w bits') : bits = bits' := by
  refine List.ext_getElem hlength fun i hi hi' => ?_
  have hbit := congrArg (fun word : BitVec w => word.getLsbD i) heq
  simp only [getLsbD_word _ (Nat.lt_of_lt_of_le hi hle)] at hbit
  rwa [List.getD_eq_getElem _ _ hi, List.getD_eq_getElem _ _ hi'] at hbit

/-- Two messages that differ in a burst of at most `w` bits have different checks. -/
theorem crcBits_ne_of_burst (hpoly : poly.getLsbD (w - 1) = true) (crc : BitVec w)
    {before burst burst' after : List Bool} (hlength : burst.length = burst'.length)
    (hle : burst.length ≤ w) (hne : burst ≠ burst') :
    crcBits poly crc (before ++ burst ++ after) ≠ crcBits poly crc (before ++ burst' ++ after) := by
  intro heq
  have hle' : burst'.length ≤ w := by rwa [← hlength]
  unfold crcBits at heq
  rw [List.foldl_append, List.foldl_append, List.foldl_append, List.foldl_append] at heq
  replace heq := crcBits_injective hpoly after heq
  have hburst : crcBits poly (crcBits poly crc before) burst =
      crcBits poly (crcBits poly crc before) burst' := heq
  generalize crcBits poly crc before = crc at hburst
  rw [crcBits_eq crc hle, crcBits_eq crc hle', ← hlength] at hburst
  have hword := (shift_injective hpoly).iterate burst.length hburst
  exact hne (word_injective hlength hle ((BitVec.xor_right_inj _).mp hword))

end ReflectedCrc
