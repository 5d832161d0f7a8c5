import Mathlib.Data.List.Forall2
import XrceDds.Lib.ByteMemory

/-!
# Aligned codecs

Values are written one behind the other, and a number of `n` bytes stands at a multiple of `n`.
What is written therefore depends on where it starts, and the bytes that are skipped keep what they
held: a `Layout` gives the bytes from a position on, with `none` for those.

A `Reader` takes bytes at a position.  `Reads w r a` says that `r` gives `a` for all bytes that are
laid out as `w` says, at whatever position and before whatever rest, and takes exactly these bytes;
`Rejects` that it gives nothing.  Both are put together field by field. -/

namespace AlignedCodec

open ByteMemory

/-! ## Layouts -/

/-- The bytes from a position on, of which some are left as they are. -/
def Layout := ℕ → List (Option UInt8)

namespace Layout

/-- Nothing. -/
def nil : Layout := fun _ => []

/-- One layout behind the other. -/
def append (w v : Layout) : Layout := fun p => w p ++ v (p + (w p).length)

instance : Append Layout := ⟨append⟩

/-- Bytes without alignment. -/
def bytes (bs : List UInt8) : Layout := fun _ => bs.map some

/-- The number of bytes up to the next multiple of `n`. -/
def gap (n p : ℕ) : ℕ := (n - p % n) % n

/-- The bytes of a number. -/
def image (little : Bool) (n value : ℕ) : List UInt8 :=
  if little then encodeLE n value else (encodeLE n value).reverse

/-- A number of `n` bytes, at a multiple of `n`. -/
def number (little : Bool) (n value : ℕ) : Layout :=
  fun p => List.replicate (gap n p) none ++ (image little n value).map some

/-- One layout behind the other, for every element of a list. -/
def flatMap {α : Type} (w : α → Layout) : List α → Layout
  | [] => nil
  | a :: as => w a ++ flatMap w as

/-- Octets, with their number before them. -/
def sequenceOctets (little : Bool) (bs : List UInt8) : Layout :=
  number little 4 bs.length ++ bytes bs

/-- A string of characters, with a zero behind it. -/
def string (little : Bool) (s : List UInt8) : Layout := sequenceOctets little (s ++ [0])

/-- Elements, with their number before them. -/
def sequence {α : Type} (little : Bool) (w : α → Layout) (as : List α) : Layout :=
  number little 4 as.length ++ flatMap w as

/-- A value that may be missing, with a byte before it that says so. -/
def optional {α : Type} (w : α → Layout) (member : Option α) : Layout :=
  bytes [if member.isSome then 1 else 0] ++
    match member with
    | some a => w a
    | none => nil

@[simp] lemma append_apply (w v : Layout) (p : ℕ) : (w ++ v) p = w p ++ v (p + (w p).length) := rfl

@[simp] lemma length_image (little : Bool) (n value : ℕ) : (image little n value).length = n := by
  unfold image
  split
  · exact length_encodeLE n value
  · rw [List.length_reverse, length_encodeLE]

@[simp] lemma length_number (little : Bool) (n value p : ℕ) :
    (number little n value p).length = gap n p + n := by
  simp [number]

@[simp] lemma length_bytes (bs : List UInt8) (p : ℕ) : (bytes bs p).length = bs.length :=
  List.length_map _

/-- It does not matter how pieces are put together. -/
lemma append_assoc (w v u : Layout) : w ++ v ++ u = w ++ (v ++ u) := by
  funext p
  simp only [append_apply, List.append_assoc, List.length_append, Nat.add_assoc]

/-- Nothing behind a layout. -/
lemma append_nil (w : Layout) : w ++ nil = w := by
  funext p
  exact List.append_nil (w p)

/-- Bytes behind bytes. -/
lemma bytes_append (bs cs : List UInt8) : bytes bs ++ bytes cs = bytes (bs ++ cs) := by
  funext p
  exact List.map_append.symm

/-- Elements behind other elements. -/
lemma flatMap_append {α : Type} (w : α → Layout) (as bs : List α) :
    flatMap w (as ++ bs) = flatMap w as ++ flatMap w bs := by
  induction as with
  | nil =>
    funext p
    rfl
  | cons a as ih =>
    change w a ++ flatMap w (as ++ bs) = w a ++ flatMap w as ++ flatMap w bs
    rw [ih, append_assoc]

/-- A number ends at a multiple of its size. -/
lemma dvd_add_gap {n : ℕ} (hn : 0 < n) (p : ℕ) : n ∣ p + gap n p := by
  unfold gap
  rcases Nat.eq_zero_or_pos (p % n) with hzero | hpos
  · rw [hzero, Nat.sub_zero, Nat.mod_self]
    exact Nat.dvd_of_mod_eq_zero hzero
  · have hlt := Nat.mod_lt p hn
    rw [Nat.mod_eq_of_lt (by omega)]
    exact ⟨p / n + 1, by rw [Nat.mul_add, Nat.mul_one]; have := Nat.div_add_mod p n; omega⟩

/-- At a multiple of its size a number needs no alignment. -/
lemma gap_of_dvd {n p : ℕ} (h : n ∣ p) : gap n p = 0 := by
  rw [gap, Nat.mod_eq_zero_of_dvd h, Nat.sub_zero, Nat.mod_self]

end Layout

/-- Bytes that stand where a layout says. -/
def Matches (layout : List (Option UInt8)) (bytes : List UInt8) : Prop :=
  List.Forall₂ (fun c b => ∀ x ∈ c, x = b) layout bytes

namespace Matches

variable {l l' : List (Option UInt8)} {bs cs : List UInt8}

/-- There are as many bytes as the layout has. -/
lemma length_eq (h : Matches l bs) : bs.length = l.length := (List.Forall₂.length_eq h).symm

/-- One piece behind the other. -/
lemma append (h : Matches l bs) (h' : Matches l' cs) : Matches (l ++ l') (bs ++ cs) :=
  List.rel_append h h'

/-- The bytes of a layout that is made of two. -/
lemma of_append (h : Matches (l ++ l') bs) :
    ∃ bs₁ bs₂, bs = bs₁ ++ bs₂ ∧ Matches l bs₁ ∧ Matches l' bs₂ := by
  induction l generalizing bs with
  | nil => exact ⟨[], bs, rfl, .nil, h⟩
  | cons c l ih =>
    obtain ⟨b, bs', hb, hbs, rfl⟩ := List.forall₂_cons_left_iff.mp h
    obtain ⟨bs₁, bs₂, rfl, h₁, h₂⟩ := ih hbs
    exact ⟨b :: bs₁, bs₂, rfl, .cons hb h₁, h₂⟩

/-- Bytes that are all given. -/
lemma map_some (bs : List UInt8) : Matches (bs.map some) bs := by
  induction bs with
  | nil => exact .nil
  | cons b bs ih => exact .cons (fun x hx => (Option.some.inj hx).symm) ih

/-- Bytes that are all given are these. -/
lemma eq_of_map_some (h : Matches (bs.map some) cs) : cs = bs := by
  induction bs generalizing cs with
  | nil => exact List.forall₂_nil_left_iff.mp h
  | cons b bs ih =>
    obtain ⟨c, cs', hb, hcs, rfl⟩ := List.forall₂_cons_left_iff.mp h
    rw [ih hcs, hb b rfl]

/-- Bytes of which none is given. -/
lemma replicate_none (bs : List UInt8) : Matches (List.replicate bs.length none) bs := by
  induction bs with
  | nil => exact .nil
  | cons b bs ih => exact .cons (fun x hx => nomatch hx) ih

end Matches

/-! ## Readers -/

/-- Where a reader stands, and what is behind it. -/
structure Cursor where
  position : ℕ
  rest : List UInt8
  deriving DecidableEq, Repr

/-- A reader takes bytes, or fails. -/
abbrev Reader := StateT Cursor Option

namespace Reader

/-- The next `n` bytes. -/
def take (n : ℕ) : Reader (List UInt8) := fun c =>
  if n ≤ c.rest.length then some (c.rest.take n, ⟨c.position + n, c.rest.drop n⟩) else none

/-- The next byte. -/
def byte : Reader UInt8 := fun c =>
  match c.rest with
  | b :: rest => some (b, ⟨c.position + 1, rest⟩)
  | [] => none

/-- An array of `n` octets. -/
def octets (n : ℕ) : Reader {bs : List UInt8 // bs.length = n} := fun c =>
  if h : n ≤ c.rest.length then
    some (⟨c.rest.take n, List.length_take_of_le h⟩, ⟨c.position + n, c.rest.drop n⟩)
  else none

/-- The number that bytes stand for. -/
def value (little : Bool) (bs : List UInt8) : ℕ :=
  decodeLE (if little then bs else bs.reverse)

/-- A number of `n` bytes, at a multiple of `n`. -/
def number (little : Bool) (n : ℕ) : Reader ℕ := do
  let c ← get
  let _ ← take (Layout.gap n c.position)
  let bs ← take n
  pure (value little bs)

/-- A number of 16 bits. -/
def uint16 (little : Bool) : Reader UInt16 := do
  let value ← number little 2
  pure (.ofNat value)

/-- A number of 16 bits with a sign. -/
def int16 (little : Bool) : Reader Int16 := do
  let value ← uint16 little
  pure value.toInt16

/-- A number of 32 bits. -/
def uint32 (little : Bool) : Reader UInt32 := do
  let value ← number little 4
  pure (.ofNat value)

/-- A number of 32 bits with a sign. -/
def int32 (little : Bool) : Reader Int32 := do
  let value ← uint32 little
  pure value.toInt32

/-- One value behind the other. -/
def times {α : Type} (r : Reader α) : ℕ → Reader (List α)
  | 0 => pure []
  | n + 1 => do
    let a ← r
    let as ← times r n
    pure (a :: as)

/-- Octets, with their number before them. -/
def sequenceOctets (little : Bool) : Reader (List UInt8) := do
  let n ← number little 4
  take n

/-- Elements, with their number before them. -/
def sequence {α : Type} (little : Bool) (r : Reader α) : Reader (List α) := do
  let n ← number little 4
  times r n

/-- Nothing is read unless the condition holds. -/
def require (p : Prop) [Decidable p] : Reader Unit := if p then pure () else failure

/-- The number of an image is the number. -/
lemma value_image (little : Bool) {n v : ℕ} (h : v < 256 ^ n) :
    value little (Layout.image little n v) = v := by
  cases little
  · simpa [value, Layout.image] using decodeLE_encodeLE_of_lt h
  · simpa [value, Layout.image] using decodeLE_encodeLE_of_lt h

end Reader

/-! ## What is written is read -/

/-- The reader gives `a` for what is laid out as `w` says, and takes exactly that. -/
def Reads {α : Type} (w : Layout) (r : Reader α) (a : α) : Prop :=
  ∀ p bs rest, Matches (w p) bs → r.run ⟨p, bs ++ rest⟩ = some (a, ⟨p + bs.length, rest⟩)

/-- The reader gives nothing for what is laid out as `w` says. -/
def Rejects {α : Type} (w : Layout) (r : Reader α) : Prop :=
  ∀ p bs rest, Matches (w p) bs → r.run ⟨p, bs ++ rest⟩ = none

section

variable {α β : Type} {w v : Layout} {r : Reader α} {f : α → Reader β} {a : α} {b : β}

namespace Reads

/-- A value that takes no bytes. -/
lemma pure (a : α) : Reads .nil (pure a) a := by
  rintro p bs rest h
  obtain rfl := List.forall₂_nil_left_iff.mp h
  rfl

/-- A reader that goes on with what was read. -/
lemma bind (h : Reads w r a) (h' : Reads v (f a) b) : Reads (w ++ v) (r >>= f) b := by
  intro p bs rest hbs
  obtain ⟨bs₁, bs₂, rfl, h₁, h₂⟩ := hbs.of_append
  rw [← h₁.length_eq] at h₂
  rw [StateT.run_bind, List.append_assoc, h p bs₁ _ h₁]
  change (f a).run ⟨p + bs₁.length, bs₂ ++ rest⟩ = _
  rw [h' _ bs₂ rest h₂, List.length_append, Nat.add_assoc]

/-- A last reader, of which the result is changed. -/
lemma map (h : Reads w r a) (g : α → β) : Reads w (g <$> r) (g a) := by
  intro p bs rest hbs
  rw [StateT.run_map, h p bs rest hbs]
  rfl

/-- Bytes without alignment. -/
lemma take (bs : List UInt8) : Reads (.bytes bs) (Reader.take bs.length) bs := by
  rintro p cs rest h
  obtain rfl := h.eq_of_map_some
  have hlen : cs.length ≤ (cs ++ rest).length := by
    rw [List.length_append]
    exact Nat.le_add_right _ _
  change (if cs.length ≤ (cs ++ rest).length then _ else _) = _
  rw [if_pos hlen, List.take_left, List.drop_left]

/-- A byte. -/
lemma byte (b : UInt8) : Reads (.bytes [b]) Reader.byte b := by
  rintro p bs rest h
  obtain rfl := h.eq_of_map_some
  rfl

/-- An array of octets. -/
lemma octets {n : ℕ} (a : {bs : List UInt8 // bs.length = n}) :
    Reads (.bytes a.1) (Reader.octets n) a := by
  obtain ⟨bs, rfl⟩ := a
  rintro p cs rest h
  obtain rfl := h.eq_of_map_some
  have hlen : cs.length ≤ (cs ++ rest).length := by
    rw [List.length_append]
    exact Nat.le_add_right _ _
  change (if h : cs.length ≤ (cs ++ rest).length then _ else _) = _
  simp only [dif_pos hlen, List.take_left, List.drop_left]

/-- Skipped bytes may hold anything. -/
lemma skip (n : ℕ) (p : ℕ) {cs : List UInt8} (rest : List UInt8)
    (h : Matches (List.replicate n none) cs) :
    (Reader.take n).run ⟨p, cs ++ rest⟩ = some (cs, ⟨p + cs.length, rest⟩) := by
  have hlen : cs.length = n := by rw [h.length_eq, List.length_replicate]
  subst hlen
  exact take cs p cs rest (Matches.map_some cs)

/-- A number that fits. -/
lemma number (little : Bool) {n m : ℕ} (h : m < 256 ^ n) :
    Reads (.number little n m) (Reader.number little n) m := by
  intro p bs rest hbs
  obtain ⟨bs₁, bs₂, rfl, h₁, h₂⟩ := Matches.of_append hbs
  obtain rfl := h₂.eq_of_map_some
  have hskip := skip _ p (Layout.image little n m ++ rest) h₁
  have htake := take (Layout.image little n m) (p + bs₁.length) _ rest (Matches.map_some _)
  rw [Layout.length_image] at htake
  unfold Reader.number
  rw [StateT.run_bind, StateT.run_get]
  change ((Reader.take (Layout.gap n p)).run ⟨p, bs₁ ++ Layout.image little n m ++ rest⟩ >>= _) = _
  rw [List.append_assoc, hskip]
  change ((Reader.take n).run _ >>= _) = _
  rw [htake]
  change some (Reader.value little (Layout.image little n m), _) = _
  rw [Reader.value_image little h, List.length_append, Layout.length_image, Nat.add_assoc]

/-- The last part of a value that is put together. -/
lemma last (h : Reads w r a) (g : α → β) : Reads w (r >>= fun x => Pure.pure (g x)) (g a) := by
  rw [bind_pure_comp]
  exact h.map g

/-- Numbers of 16 bits. -/
lemma uint16 (little : Bool) (value : UInt16) :
    Reads (.number little 2 value.toNat) (Reader.uint16 little) value := by
  have h : Reads _ (Reader.uint16 little) _ :=
    (number (n := 2) little value.toNat_lt).last UInt16.ofNat
  rwa [UInt16.ofNat_toNat] at h

/-- Numbers of 16 bits with a sign. -/
lemma int16 (little : Bool) (value : Int16) :
    Reads (.number little 2 value.toUInt16.toNat) (Reader.int16 little) value := by
  have h : Reads _ (Reader.int16 little) _ := (uint16 little value.toUInt16).last UInt16.toInt16
  rwa [Int16.toInt16_toUInt16] at h

/-- Numbers of 32 bits. -/
lemma uint32 (little : Bool) (value : UInt32) :
    Reads (.number little 4 value.toNat) (Reader.uint32 little) value := by
  have h : Reads _ (Reader.uint32 little) _ :=
    (number (n := 4) little value.toNat_lt).last UInt32.ofNat
  rwa [UInt32.ofNat_toNat] at h

/-- Numbers of 32 bits with a sign. -/
lemma int32 (little : Bool) (value : Int32) :
    Reads (.number little 4 value.toUInt32.toNat) (Reader.int32 little) value := by
  have h : Reads _ (Reader.int32 little) _ := (uint32 little value.toUInt32).last UInt32.toInt32
  rwa [Int32.toInt32_toUInt32] at h

/-- Octets, with their number before them. -/
lemma sequenceOctets (little : Bool) {bs : List UInt8} (h : bs.length < 4294967296) :
    Reads (.sequenceOctets little bs) (Reader.sequenceOctets little) bs :=
  (number little h).bind (take bs)

/-- A condition that holds. -/
lemma require {p : Prop} [Decidable p] (hp : p) {f : Unit → Reader β} (h : Reads w (f ()) b) :
    Reads w (Reader.require p >>= f) b := by
  unfold Reader.require
  rw [if_pos hp, pure_bind]
  exact h

/-- One value behind the other. -/
lemma times {γ : Type} (w : γ → Layout) (r : Reader α) (g : γ → α) (as : List γ)
    (h : ∀ a ∈ as, Reads (w a) r (g a)) :
    Reads (.flatMap w as) (Reader.times r as.length) (as.map g) := by
  induction as with
  | nil => exact pure []
  | cons a as ih =>
    have htail := ih fun x hx => h x (List.mem_cons_of_mem a hx)
    exact (h a List.mem_cons_self).bind (htail.map (List.cons (g a)))

/-- Elements, with their number before them. -/
lemma sequence {γ : Type} (little : Bool) {w : γ → Layout} {r : Reader α} {g : γ → α}
    {as : List γ} (hlength : as.length < 4294967296) (h : ∀ a ∈ as, Reads (w a) r (g a)) :
    Reads (.sequence little w as) (Reader.sequence little r) (as.map g) :=
  (number little hlength).bind (times w r g as h)

end Reads

namespace Rejects

/-- What is rejected behind something that is read is rejected. -/
lemma bind_right (h : Reads w r a) (h' : Rejects v (f a)) : Rejects (w ++ v) (r >>= f) := by
  intro p bs rest hbs
  obtain ⟨bs₁, bs₂, rfl, h₁, h₂⟩ := hbs.of_append
  rw [← h₁.length_eq] at h₂
  rw [StateT.run_bind, List.append_assoc, h p bs₁ _ h₁]
  exact h' _ bs₂ rest h₂

/-- The result of a last reader is changed. -/
lemma map (h : Rejects w r) (g : α → β) : Rejects w (g <$> r) := by
  intro p bs rest hbs
  rw [StateT.run_map, h p bs rest hbs]
  rfl

/-- The last part of a value that is put together. -/
lemma last (h : Rejects w r) (g : α → β) : Rejects w (r >>= fun x => Pure.pure (g x)) := by
  rw [bind_pure_comp]
  exact h.map g

/-- A condition that does not hold, whatever is laid out. -/
lemma require {p : Prop} [Decidable p] (hp : ¬p) (f : Unit → Reader β) :
    Rejects w (Reader.require p >>= f) := by
  intro q bs rest _
  unfold Reader.require
  rw [if_neg hp]
  rfl

end Rejects

end

end AlignedCodec
