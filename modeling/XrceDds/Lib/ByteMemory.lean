import Mathlib.Data.List.Basic
import Mathlib.Data.List.GetD
import Mathlib.Tactic.Ring

/-!
# Byte-addressed memory

A memory maps addresses to bytes.  `write` copies a list of bytes to an address, `read`
copies a range out.  The frame lemmas say that a write changes nothing outside the
addresses it covers; `AgreeOff` is the same statement for a whole computation that
stays inside a range of addresses.

`encodeLE` and `decodeLE` are the little-endian images of a natural number.
-/

namespace ByteMemory

/-- A byte-addressed memory. -/
abbrev Memory := ℕ → UInt8

/-- Copy the bytes `bs` to the address `a`. -/
def write (m : Memory) (a : ℕ) (bs : List UInt8) : Memory :=
  fun x => if a ≤ x then bs.getD (x - a) (m x) else m x

/-- The `n` bytes from the address `a` on. -/
def read (m : Memory) (a n : ℕ) : List UInt8 :=
  (List.range n).map fun i => m (a + i)

/-- The memories `m` and `m'` agree outside the addresses `[lo, hi)`. -/
def AgreeOff (m m' : Memory) (lo hi : ℕ) : Prop :=
  ∀ x, x < lo ∨ hi ≤ x → m' x = m x

/-! ## Single addresses -/

/-- A write leaves the addresses below it alone. -/
lemma write_apply_of_lt (m : Memory) {a x : ℕ} (bs : List UInt8) (h : x < a) :
    write m a bs x = m x := by
  simp [write, Nat.not_le.mpr h]

/-- A write leaves the addresses beyond its last byte alone. -/
lemma write_apply_of_le (m : Memory) {a x : ℕ} {bs : List UInt8} (h : a + bs.length ≤ x) :
    write m a bs x = m x := by
  have hlen : bs.length ≤ x - a := by omega
  unfold write
  split
  · exact List.getD_eq_default _ _ hlen
  · rfl

/-- The `i`-th address of a write holds the `i`-th byte. -/
lemma write_apply_add (m : Memory) (a : ℕ) {bs : List UInt8} {i : ℕ} (h : i < bs.length) :
    write m a bs (a + i) = bs[i] := by
  simp [write, List.getD_eq_getElem?_getD, h]

/-- Writing no byte changes nothing. -/
@[simp] lemma write_nil (m : Memory) (a : ℕ) : write m a [] = m := by
  funext x
  simp [write]

/-- Writing a list is writing its first byte and then the rest behind it. -/
lemma write_cons (m : Memory) (a : ℕ) (b : UInt8) (bs : List UInt8) :
    write m a (b :: bs) = write (write m a [b]) (a + 1) bs := by
  funext x
  rcases lt_trichotomy x a with h | rfl | h
  · rw [write_apply_of_lt _ _ h, write_apply_of_lt _ _ (by omega), write_apply_of_lt _ _ h]
  · rw [write_apply_of_lt _ bs (Nat.lt_succ_self x)]
    simp [write]
  · have hx : x - a = x - (a + 1) + 1 := by omega
    have hone : write m a [b] x = m x := write_apply_of_le m (by simp; omega)
    unfold write at hone ⊢
    rw [if_pos (show a ≤ x by omega), if_pos (show a + 1 ≤ x by omega), hone, hx]
    simp

/-- Writing a list in two pieces, one behind the other. -/
lemma write_append (m : Memory) (a : ℕ) (bs cs : List UInt8) :
    write (write m a bs) (a + bs.length) cs = write m a (bs ++ cs) := by
  induction bs generalizing m a with
  | nil => simp
  | cons b bs ih =>
    rw [write_cons m a b bs, List.cons_append, write_cons m a b (bs ++ cs), ← ih,
      List.length_cons, Nat.add_assoc a 1, Nat.add_comm 1]

/-! ## Reading -/

/-- A read returns as many bytes as it is asked for. -/
@[simp] lemma length_read (m : Memory) (a n : ℕ) : (read m a n).length = n := by
  simp [read]

/-- Reading nothing returns nothing. -/
@[simp] lemma read_zero (m : Memory) (a : ℕ) : read m a 0 = [] := rfl

/-- The `i`-th byte of a read. -/
lemma getElem_read (m : Memory) (a : ℕ) {n i : ℕ} (h : i < (read m a n).length) :
    (read m a n)[i] = m (a + i) := by
  simp [read]

/-- Memories that agree on the addresses of a read give the same read. -/
lemma read_congr {m m' : Memory} {a n : ℕ} (h : ∀ i < n, m' (a + i) = m (a + i)) :
    read m' a n = read m a n := by
  unfold read
  exact List.map_congr_left fun i hi => h i (List.mem_range.mp hi)

/-- Writing what is there changes nothing. -/
lemma write_read (m : Memory) (a n : ℕ) : write m a (read m a n) = m := by
  funext x
  rcases Nat.lt_or_ge x a with hlt | hge
  · exact write_apply_of_lt m _ hlt
  · obtain ⟨i, rfl⟩ := Nat.exists_eq_add_of_le hge
    rcases Nat.lt_or_ge i n with hi | hi
    · have hlen : i < (read m a n).length := by rwa [length_read]
      rw [write_apply_add m a hlen, getElem_read]
    · exact write_apply_of_le m (by rw [length_read]; omega)

/-- A long read is a read followed by the read behind it. -/
lemma read_add (m : Memory) (a n k : ℕ) :
    read m a (n + k) = read m a n ++ read m (a + n) k := by
  unfold read
  rw [List.range_add, List.map_append, List.map_map]
  congr 1
  exact List.map_congr_left fun i _ => by simp [Nat.add_assoc]

/-- Reading back what was just written. -/
@[simp] lemma read_write (m : Memory) (a : ℕ) (bs : List UInt8) :
    read (write m a bs) a bs.length = bs := by
  apply List.ext_getElem
  · simp
  · intro i h₁ h₂
    rw [getElem_read, write_apply_add m a h₂]

/-- Reading back what was just written, the length being known otherwise. -/
lemma read_write_of_length (m : Memory) (a : ℕ) {bs : List UInt8} {n : ℕ} (h : bs.length = n) :
    read (write m a bs) a n = bs := by
  subst h
  exact read_write m a bs

/-- A write does not change a read of other addresses. -/
lemma read_write_of_disjoint (m : Memory) {a n b : ℕ} {bs : List UInt8}
    (h : a + n ≤ b ∨ b + bs.length ≤ a) : read (write m b bs) a n = read m a n := by
  apply read_congr
  intro i hi
  rcases h with h | h
  · exact write_apply_of_lt m bs (by omega)
  · exact write_apply_of_le m (by omega)

/-! ## Agreement outside a range -/

/-- A memory agrees with itself. -/
lemma AgreeOff.refl (m : Memory) (lo hi : ℕ) : AgreeOff m m lo hi := fun _ _ => rfl

/-- Computations that stay in a range compose. -/
lemma AgreeOff.trans {m₁ m₂ m₃ : Memory} {lo hi : ℕ} (h₁ : AgreeOff m₁ m₂ lo hi)
    (h₂ : AgreeOff m₂ m₃ lo hi) : AgreeOff m₁ m₃ lo hi :=
  fun x hx => (h₂ x hx).trans (h₁ x hx)

/-- Agreement outside a range gives agreement outside a larger one. -/
lemma AgreeOff.mono {m m' : Memory} {lo hi lo' hi' : ℕ} (h : AgreeOff m m' lo hi)
    (hlo : lo' ≤ lo) (hhi : hi ≤ hi') : AgreeOff m m' lo' hi' :=
  fun x hx => h x (by omega)

/-- A write stays in the range it covers. -/
lemma agreeOff_write (m : Memory) {a lo hi : ℕ} {bs : List UInt8} (hlo : lo ≤ a)
    (hhi : a + bs.length ≤ hi) : AgreeOff m (write m a bs) lo hi := by
  rintro x (hx | hx)
  · exact write_apply_of_lt m bs (by omega)
  · exact write_apply_of_le m (by omega)

/-- A read outside the range of agreement is unchanged. -/
lemma AgreeOff.read_eq {m m' : Memory} {lo hi a n : ℕ} (h : AgreeOff m m' lo hi)
    (hd : a + n ≤ lo ∨ hi ≤ a) : read m' a n = read m a n :=
  read_congr fun i _ => h (a + i) (by omega)

/-! ## Little-endian numbers -/

/-- The `w` little-endian bytes of `n`. -/
def encodeLE : ℕ → ℕ → List UInt8
  | 0, _ => []
  | w + 1, n => UInt8.ofNat n :: encodeLE w (n / 256)

/-- The number whose little-endian bytes are given. -/
def decodeLE : List UInt8 → ℕ
  | [] => 0
  | b :: bs => b.toNat + 256 * decodeLE bs

/-- The image of a number has the width asked for. -/
@[simp] lemma length_encodeLE (w n : ℕ) : (encodeLE w n).length = w := by
  induction w generalizing n with
  | zero => rfl
  | succ w ih => simp [encodeLE, ih]

/-- Decoding the image of a number gives its residue. -/
theorem decodeLE_encodeLE (w n : ℕ) : decodeLE (encodeLE w n) = n % 256 ^ w := by
  induction w generalizing n with
  | zero => simp [encodeLE, decodeLE, Nat.mod_one]
  | succ w ih =>
    have hb : (UInt8.ofNat n).toNat = n % 256 := by simp
    rw [encodeLE, decodeLE, ih, hb, pow_succ', Nat.mod_mul]

/-- A number that fits is decoded as itself. -/
lemma decodeLE_encodeLE_of_lt {w n : ℕ} (h : n < 256 ^ w) : decodeLE (encodeLE w n) = n := by
  rw [decodeLE_encodeLE, Nat.mod_eq_of_lt h]

/-- `w` bytes hold a number below `256 ^ w`. -/
lemma decodeLE_lt (bs : List UInt8) : decodeLE bs < 256 ^ bs.length := by
  induction bs with
  | nil => simp [decodeLE]
  | cons b bs ih =>
    have hb : b.toNat < 256 := b.toNat_lt
    rw [decodeLE, List.length_cons, pow_succ']
    omega

end ByteMemory
