import XrceDds.Client.FragmentPayload
import XrceDds.Client.SerializeRequests
import XrceDds.Lib.AlignedWindows

/-!
# Where a submessage is serialized to

A submessage is serialized to the slot it was reserved in or, when it is fragmented, to the payloads
of its FRAGMENTs: when Micro-CDR asks for the next window, `on_full_output_buffer` hands out that of
the next FRAGMENT, with its origin where the buffer stood.  Alignment starts anew there.

`FragmentWindows` keeps the sizes of these windows and nothing of what is written to them.  `Lands f
ns` says that a function writes numbers of the sizes `ns`, each where `Standing.number` has it, and
that the buffer fails, or something is written behind the end of a window, when one of them has no
place. -/

namespace XrceDds

open AlignedCodec AlignedWindows XrceTypes

/-- The windows of a submessage: the sizes of those behind the current one, the end of that, and
whether something was written behind the end of one. -/
structure FragmentWindows where
  behind : List ℕ
  final : ℕ
  outside : Bool
  deriving DecidableEq, Repr

instance : UcdrMemory FragmentWindows where
  store st address bytes :=
    { st with outside := st.outside || decide (st.final < address + bytes.length) }

/-- `on_full_output_buffer`, over the FRAGMENTs that were announced; every window is counted from
its own beginning, and has the size and the origin that it has in the slots
(`FragmentSlots.onFullOutputBuffer_announced`).  A window that was not announced is not part of the
submessage. -/
def nextWindow : OnFullBuffer FragmentWindows := fun st ub =>
  match st.behind with
  | [] => (st, ub, true)
  | size :: sizes =>
    ({ behind := sizes, final := size, outside := st.outside },
      ucdrSetOnFullBufferCallback (ucdrInitBufferOrigin 0 size ub.offset), false)

/-- Something could not be written, or was written behind the end of a window. -/
def Failed (x : FragmentWindows × UcdrBuffer) : Prop := x.2.error = true ∨ x.1.outside = true

instance (x : FragmentWindows × UcdrBuffer) : Decidable (Failed x) := by
  unfold Failed; infer_instance

/-- A buffer stands where `s` says. -/
structure StandsAt (s : Standing) (x : FragmentWindows × UcdrBuffer) : Prop where
  noError : x.2.error = false
  inside : x.1.outside = false
  final_eq : x.1.final = x.2.final
  behind_eq : x.1.behind = s.windows
  callback : x.2.onFullBuffer = false → s.windows = []
  origin_le : x.2.origin ≤ x.2.offset
  place_eq : x.2.place = s.place
  room_eq : x.2.iterator + s.room = x.2.final
  final_lt : x.2.final < 18446744073709551616
  aligned : ∀ k, 2 ^ k ≤ x.2.lastDataSize → 2 ^ k ∣ s.place
  windows_pos : ∀ w ∈ s.windows, 0 < w ∧ w < 18446744073709551616

/-- A buffer stands where writing numbers of these sizes ends, or has failed. -/
def EndsAt : Option Standing → FragmentWindows × UcdrBuffer → Prop
  | some s, x => StandsAt s x
  | none, x => Failed x

/-- What is written are numbers of these sizes. -/
structure Lands (f : UcdrSerializer FragmentWindows Unit) (ns : List ℕ) : Prop where
  ends : ∀ {s x}, StandsAt s x → EndsAt (s.numbers ns) (f x).2
  fails : ∀ {x}, Failed x → Failed (f x).2

/-- A buffer that stands somewhere has not failed. -/
lemma StandsAt.not_failed {s : Standing} {x : FragmentWindows × UcdrBuffer} (h : StandsAt s x) :
    ¬ Failed x := by
  rintro (herr | hout)
  · rw [h.noError] at herr
    cases herr
  · rw [h.inside] at hout
    cases hout

/-- What the buffer has left. -/
lemma StandsAt.left_eq {s : Standing} {x : FragmentWindows × UcdrBuffer} (h : StandsAt s x) :
    x.2.final - x.2.iterator + x.1.behind.sum = s.left := by
  have hroom := h.room_eq
  rw [h.behind_eq, Standing.left]
  omega

/-! ## Basic types -/

/-- The next window, from its beginning. -/
lemma standsAt_next {s : Standing} {st : FragmentWindows} {ub : UcdrBuffer} {w : ℕ} {ws : List ℕ}
    (h : StandsAt s (st, ub)) (hwindows : s.windows = w :: ws) (place : ℕ) :
    StandsAt ⟨0, w, ws⟩ ({ behind := ws, final := w, outside := st.outside },
      ucdrSetOnFullBufferCallback (ucdrInitBufferOrigin 0 w place)) where
  noError := rfl
  inside := h.inside
  final_eq := (Nat.zero_add w).symm
  behind_eq := rfl
  callback := nofun
  origin_le := Nat.le_refl place
  place_eq := Nat.sub_self place
  room_eq := rfl
  final_lt := by
    have := (h.windows_pos w (hwindows ▸ List.mem_cons_self)).2
    change 0 + w < _
    omega
  aligned k hk := absurd hk (Nat.not_le.mpr (Nat.two_pow_pos k))
  windows_pos v hv := h.windows_pos v (hwindows ▸ List.mem_cons_of_mem w hv)

/-- Where the window is too short a basic type is written to the one that the callback hands out. -/
lemma serializeBasic_of_callback {σ : Type} [UcdrMemory σ] {cb : OnFullBuffer σ} {st st' : σ}
    {ub ub' : UcdrBuffer} {bytes : List UInt8} (herr : ub.error = false)
    (hcallback : ub.onFullBuffer = true) (hfull : ub.final < ub.iterator + bytes.length)
    (hnext : cb st ub = (st', ub', false)) (herr' : ub'.error = false) :
    serializeBasic cb st ub bytes =
      (UcdrMemory.store st' ub'.iterator bytes, ub'.advance bytes.length bytes.length) := by
  have hub : ({ ub' with error := false } : UcdrBuffer) = ub' := by
    cases ub'
    simp_all
  have hcheck : ucdrCheckFinalBufferBehavior cb st ub bytes.length = (st', ub', true) := by
    unfold ucdrCheckFinalBufferBehavior
    rw [if_neg (by simp [herr]), if_neg (Nat.not_le.mpr hfull), if_pos hcallback, hnext]
    dsimp only
    rw [hub]
    rfl
  unfold serializeBasic
  rw [hcheck]
  rfl

/-- A window that the callback refuses is an error. -/
lemma serializeBasic_of_refused {σ : Type} [UcdrMemory σ] {cb : OnFullBuffer σ} {st : σ}
    {ub : UcdrBuffer} {bytes : List UInt8} (hfull : ub.final < ub.iterator + bytes.length)
    (hrefused : (cb st ub).2.2 = true) : (serializeBasic cb st ub bytes).2.error = true := by
  have hcheck : (ucdrCheckFinalBufferBehavior cb st ub bytes.length).2.1.error = true ∧
      (ucdrCheckFinalBufferBehavior cb st ub bytes.length).2.2 = false := by
    unfold ucdrCheckFinalBufferBehavior
    rw [if_neg (Nat.not_le.mpr hfull)]
    split
    · next herr => exact ⟨herr, rfl⟩
    · split
      · exact ⟨hrefused, by simp [hrefused]⟩
      · exact ⟨rfl, rfl⟩
  unfold serializeBasic
  dsimp only
  rw [hcheck.2]
  exact hcheck.1

/-- A number where there is room for it: the buffer moves behind it. -/
lemma standsAt_advance {s : Standing} {st : FragmentWindows} {ub : UcdrBuffer} {j : ℕ}
    (h : StandsAt s (st, ub)) (hroom : Layout.gap (2 ^ j) s.place + 2 ^ j ≤ s.room)
    {bytes : List UInt8} (hlen : bytes.length = 2 ^ j) :
    StandsAt ⟨s.place + (Layout.gap (2 ^ j) s.place + 2 ^ j),
        s.room - (Layout.gap (2 ^ j) s.place + 2 ^ j), s.windows⟩
      (UcdrMemory.store st (ub.skip (Layout.gap (2 ^ j) s.place)).iterator bytes,
        (ub.skip (Layout.gap (2 ^ j) s.place)).advance bytes.length bytes.length) := by
  have hle : ub.origin ≤ ub.offset := h.origin_le
  have hplace : ub.offset - ub.origin = s.place := h.place_eq
  have hend : ub.iterator + s.room = ub.final := h.room_eq
  have hfinal : st.final = ub.final := h.final_eq
  rw [hlen]
  refine ⟨h.noError, ?_, h.final_eq, h.behind_eq, h.callback, ?_, ?_, ?_, h.final_lt, ?_,
    h.windows_pos⟩
  · change (st.outside || decide (st.final < ub.iterator + _ + bytes.length)) = false
    rw [show st.outside = false from h.inside, Bool.false_or, hlen]
    exact decide_eq_false (by omega)
  · change ub.origin ≤ ub.offset + _ + 2 ^ j
    omega
  · change ub.offset + Layout.gap (2 ^ j) s.place + 2 ^ j - ub.origin =
      s.place + (Layout.gap (2 ^ j) s.place + 2 ^ j)
    omega
  · change ub.iterator + Layout.gap (2 ^ j) s.place + 2 ^ j +
      (s.room - (Layout.gap (2 ^ j) s.place + 2 ^ j)) = ub.final
    omega
  · intro k hk
    have hpow : 2 ^ k ∣ 2 ^ j := Nat.pow_dvd_pow 2 ((Nat.pow_le_pow_iff_right (by decide)).mp hk)
    dsimp only
    rw [← Nat.add_assoc]
    exact Nat.dvd_add (hpow.trans (Layout.dvd_add_gap (Nat.two_pow_pos j) s.place)) hpow

/-- A byte where there is room for it. -/
lemma standsAt_byte {s : Standing} {st : FragmentWindows} {ub : UcdrBuffer}
    (h : StandsAt s (st, ub))
    (hroom : 0 < s.room) (b : UInt8) :
    StandsAt ⟨s.place + 1, s.room - 1, s.windows⟩
      (UcdrMemory.store st ub.iterator [b], ub.advance 1 1) := by
  have hgap : Layout.gap (2 ^ 0) s.place = 0 := Nat.mod_one _
  have hadvance := standsAt_advance (j := 0) h (by rw [hgap]; omega)
    (show [b].length = 2 ^ 0 from rfl)
  rw [hgap] at hadvance
  exact hadvance

/-- A buffer that remembers what it wrote last aligns as it would without that. -/
lemma StandsAt.alignment_eq {s : Standing} {x : FragmentWindows × UcdrBuffer} (h : StandsAt s x)
    (j : ℕ) : ucdrBufferAlignment x.2 (2 ^ j) = Layout.gap (2 ^ j) s.place := by
  unfold ucdrBufferAlignment
  split
  · next hle => rw [Layout.gap_of_dvd (h.aligned j hle)]
  · rw [← h.place_eq]
    rfl

/-- A buffer with a window behind it has a callback. -/
lemma StandsAt.callback_of_cons {s : Standing} {x : FragmentWindows × UcdrBuffer} {w : ℕ}
    {ws : List ℕ} (h : StandsAt s x) (hwindows : s.windows = w :: ws) :
    x.2.onFullBuffer = true := by
  by_contra hno
  have hnil := h.callback (by simpa using hno)
  rw [hwindows] at hnil
  cases hnil

/-- A buffer that has failed stays so. -/
lemma failed_serializeBasic {st : FragmentWindows} {ub : UcdrBuffer} (bytes : List UInt8)
    (h : Failed (st, ub)) : Failed (serializeBasic nextWindow st ub bytes) := by
  rcases h with herr | hout
  · left
    rw [serializeBasic_of_error nextWindow st bytes herr]
    exact herr
  · right
    have hcheck :
        (ucdrCheckFinalBufferBehavior nextWindow st ub bytes.length).1.outside = true := by
      unfold ucdrCheckFinalBufferBehavior nextWindow
      split_ifs
      · exact hout
      · exact hout
      · dsimp only
        split <;> exact hout
      · exact hout
    unfold serializeBasic
    dsimp only
    split
    · exact Bool.or_eq_true_iff.mpr (.inl hcheck)
    · exact hcheck

namespace Lands

variable {f g : UcdrSerializer FragmentWindows Unit} {ns ks : List ℕ}

/-- The image of a number, behind its padding. -/
lemma basic {j : ℕ} (image : FragmentWindows × UcdrBuffer → List UInt8)
    (himage : ∀ x, (image x).length = 2 ^ j) :
    Lands (fun x => ((), serializeBasic nextWindow x.1
      (x.2.skip (ucdrBufferAlignment x.2 (2 ^ j))) (image x))) [2 ^ j] where
  ends {s x} h := by
    obtain ⟨st, ub⟩ := x
    have hlen := himage (st, ub)
    have hend : ub.iterator + s.room = ub.final := h.room_eq
    have herr : ub.error = false := h.noError
    have hbehind : st.behind = s.windows := h.behind_eq
    rw [Standing.numbers_singleton]
    dsimp only
    rw [h.alignment_eq]
    by_cases hroom : Layout.gap (2 ^ j) s.place + 2 ^ j ≤ s.room
    · rw [serializeBasic_of_room nextWindow st (ub.skip (Layout.gap (2 ^ j) s.place)) _ herr,
        Standing.number_of_room hroom]
      · exact standsAt_advance h hroom hlen
      · change ub.iterator + Layout.gap (2 ^ j) s.place + (image (st, ub)).length ≤ ub.final
        omega
    · -- the number goes to the next window
      have hfull : (ub.skip (Layout.gap (2 ^ j) s.place)).final <
          (ub.skip (Layout.gap (2 ^ j) s.place)).iterator + (image (st, ub)).length := by
        change ub.final < ub.iterator + Layout.gap (2 ^ j) s.place + (image (st, ub)).length
        omega
      unfold Standing.number
      rw [if_neg hroom]
      cases hwindows : s.windows with
      | nil =>
        left
        apply serializeBasic_of_refused hfull
        unfold nextWindow
        rw [hbehind, hwindows]
      | cons w ws =>
        have hnext := standsAt_next h hwindows (ub.skip (Layout.gap (2 ^ j) s.place)).offset
        have hgap : Layout.gap (2 ^ j) 0 = 0 := Layout.gap_of_dvd (Nat.dvd_zero _)
        rw [serializeBasic_of_callback
          (show (ub.skip (Layout.gap (2 ^ j) s.place)).error = false from herr)
          (h.callback_of_cons hwindows) hfull
          (by unfold nextWindow; rw [hbehind, hwindows]) rfl]
        dsimp only
        by_cases hle : 2 ^ j ≤ w
        · rw [if_pos hle]
          have hlands := standsAt_advance (j := j) hnext (by rw [hgap, Nat.zero_add]; exact hle)
            hlen
          rw [hgap, Nat.zero_add, Nat.zero_add] at hlands
          exact hlands
        · rw [if_neg hle]
          right
          change (st.outside || decide (w < 0 + (image (st, ub)).length)) = true
          rw [hlen, Nat.zero_add, decide_eq_true (Nat.lt_of_not_le hle), Bool.or_true]
  fails {x} h := failed_serializeBasic _ h

/-- A byte. -/
lemma uint8 (value : UInt8) : Lands (ucdrWriteUint8 nextWindow value) [1] := by
  have hbasic := basic (j := 0) (fun _ => [value]) fun _ => rfl
  refine ⟨fun {s x} h => ?_, fun {x} h => failed_serializeBasic _ h⟩
  have hends := hbasic.ends h
  have hgap : ucdrBufferAlignment x.2 (2 ^ 0) = 0 := (h.alignment_eq 0).trans (Nat.mod_one _)
  dsimp only at hends
  rw [hgap] at hends
  exact hends

/-- A number, in the endianness of the buffer. -/
lemma number (j value : ℕ) : Lands (ucdrWriteNumber nextWindow (2 ^ j) value) [2 ^ j] :=
  basic _ fun _ => Layout.length_image _ _ _

/-! ## One behind the other -/

/-- Nothing is written. -/
lemma pure : Lands (pure ()) [] := ⟨fun h => h, fun h => h⟩

/-- One function after the other. -/
lemma bind (hf : Lands f ns) (hg : Lands g ks) : Lands (f >>= fun _ => g) (ns ++ ks) where
  ends {s x} h := by
    have hfirst := hf.ends h
    change EndsAt _ (g (f x).2).2
    rw [Standing.numbers_append]
    cases hs : s.numbers ns with
    | none =>
      rw [hs] at hfirst
      exact hg.fails hfirst
    | some t =>
      rw [hs] at hfirst
      exact hg.ends hfirst
  fails h := hg.fails (hf.fails h)

/-- A function that is called only while the buffer has not failed. -/
lemma ifRet (hf : Lands f ns) : Lands (ifRet f) ns where
  ends {s x} h := by
    have heq : XrceDds.ifRet f x = f x := if_neg (by simp [h.noError])
    rw [heq]
    exact hf.ends h
  fails {x} h := by
    unfold XrceDds.ifRet
    split
    · exact h
    · exact hf.fails h

/-! ## Arrays -/

/-- Without a window behind it the copy loop fails. -/
lemma failed_arrayToBuffer_of_nil {s : Standing} {x : FragmentWindows × UcdrBuffer}
    (h : StandsAt s x)
    (hroom : s.room = 0) (hwindows : s.windows = []) (b : UInt8) (bs : List UInt8) :
    Failed (ucdrArrayToBuffer nextWindow (b :: bs) x.1 x.2) := by
  have hend := h.room_eq
  have hcheck : (ucdrCheckFinalBufferBehaviorArray nextWindow x.1 x.2 (bs.length + 1)).2.2 = 0 ∧
      (ucdrCheckFinalBufferBehaviorArray nextWindow x.1 x.2 (bs.length + 1)).2.1.error = true := by
    unfold ucdrCheckFinalBufferBehaviorArray nextWindow
    rw [if_neg (by simp [h.noError]), if_pos ⟨by omega, Nat.succ_ne_zero _⟩, h.behind_eq, hwindows]
    split <;> exact ⟨rfl, rfl⟩
  left
  unfold ucdrArrayToBuffer
  dsimp only
  rw [if_pos hcheck.1]
  exact hcheck.2

/-- Behind a window that is full the copy loop goes on in the next one. -/
lemma arrayToBuffer_next {s : Standing} {x : FragmentWindows × UcdrBuffer} {w : ℕ} {ws : List ℕ}
    (h : StandsAt s x) (hroom : s.room = 0) (hwindows : s.windows = w :: ws) {bs : List UInt8}
    (hne : bs ≠ []) :
    ∃ y, StandsAt ⟨0, w, ws⟩ y ∧
      ucdrArrayToBuffer nextWindow bs x.1 x.2 = ucdrArrayToBuffer nextWindow bs y.1 y.2 := by
  have hend := h.room_eq
  have hw := h.windows_pos w (hwindows ▸ List.mem_cons_self)
  rw [hroom, Nat.add_zero] at hend
  refine ⟨_, standsAt_next h hwindows x.2.offset, ?_⟩
  apply ucdrArrayToBuffer_full nextWindow x.1 x.2 h.noError (h.callback_of_cons hwindows)
    hend _ _ hne
  · unfold nextWindow
    rw [h.behind_eq, hwindows]
  · exact ⟨rfl, show 0 + 0 < 0 + w by omega, show 0 + w < 0 + 0 + _ by omega⟩

/-- The copy loop stores byte by byte, in one window after the other. -/
lemma ends_arrayToBuffer (bs : List UInt8) {s : Standing} {x : FragmentWindows × UcdrBuffer}
    (h : StandsAt s x) :
    EndsAt (s.numbers (List.replicate bs.length 1)) (ucdrArrayToBuffer nextWindow bs x.1 x.2) := by
  induction bs generalizing s x with
  | nil => exact h
  | cons b bs ih =>
    -- a byte where there is room for it, and the others behind it
    have hbyte : ∀ {t y}, StandsAt t y → 0 < t.room →
        EndsAt (t.numbers (List.replicate (bs.length + 1) 1))
          (ucdrArrayToBuffer nextWindow (b :: bs) y.1 y.2) := by
      intro t y ht hroom
      have hend := ht.room_eq
      have hfinal := ht.final_lt
      have hready : y.2.Ready := ⟨ht.noError, by omega, by omega⟩
      rw [List.replicate_succ, Standing.numbers, Standing.number_one_of_room hroom,
        Option.bind_some, ucdrArrayToBuffer_cons nextWindow y.1 hready]
      exact ih (standsAt_byte ht hroom b)
    rcases Nat.eq_zero_or_pos s.room with hzero | hroom
    · cases hwindows : s.windows with
      | nil =>
        rw [List.length_cons, List.replicate_succ, Standing.numbers,
          Standing.number_of_nil (by omega) hwindows]
        exact failed_arrayToBuffer_of_nil h hzero hwindows b bs
      | cons w ws =>
        have hw := (h.windows_pos w (hwindows ▸ List.mem_cons_self)).1
        obtain ⟨y, hy, heq⟩ := arrayToBuffer_next h hzero hwindows (List.cons_ne_nil b bs)
        have hends := hbyte hy hw
        rw [List.replicate_succ, Standing.numbers, Standing.number_one_of_room hw] at hends
        rw [heq, List.length_cons, List.replicate_succ, Standing.numbers,
          Standing.number_one_of_full hzero hwindows hw]
        rwa [Nat.zero_add] at hends
    · exact hbyte h hroom

/-- A buffer that has failed stays so in the copy loop. -/
lemma failed_arrayToBuffer (bs : List UInt8) {x : FragmentWindows × UcdrBuffer} (h : Failed x) :
    Failed (ucdrArrayToBuffer nextWindow bs x.1 x.2) := by
  rcases h with herr | hout
  · rw [ucdrArrayToBuffer_of_error nextWindow bs x.1 herr]
    exact .inl herr
  · right
    induction bs generalizing x with
    | nil => exact hout
    | cons b bs ih =>
      have hcheck : (ucdrCheckFinalBufferBehaviorArray nextWindow x.1 x.2
          (bs.length + 1)).1.outside = true := by
        unfold ucdrCheckFinalBufferBehaviorArray nextWindow
        split_ifs
        all_goals first
          | exact hout
          | (dsimp only; split <;> exact hout)
      unfold ucdrArrayToBuffer
      dsimp only
      split
      · exact hcheck
      · exact ih (x := (_, _)) (Bool.or_eq_true_iff.mpr (.inl hcheck))

/-- An array of bytes. -/
lemma arrayUint8 (bs : List UInt8) :
    Lands (ucdrWriteArrayUint8 nextWindow bs) (List.replicate bs.length 1) where
  ends {s x} h := by
    have hends := ends_arrayToBuffer bs h
    change EndsAt _ ((ucdrArrayToBuffer nextWindow bs x.1 x.2).1,
      { (ucdrArrayToBuffer nextWindow bs x.1 x.2).2 with lastDataSize := 1 })
    cases hs : s.numbers (List.replicate bs.length 1) with
    | none =>
      rw [hs] at hends
      exact hends
    | some t =>
      rw [hs] at hends
      obtain ⟨h₁, h₂, h₃, h₄, h₅, h₆, h₇, h₈, h₉, -, h₁₀⟩ := hends
      refine ⟨h₁, h₂, h₃, h₄, h₅, h₆, h₇, h₈, h₉, fun k hk => ?_, h₁₀⟩
      rw [Nat.le_antisymm hk (Nat.two_pow_pos k)]
      exact Nat.one_dvd _
  fails h := failed_arrayToBuffer bs h

/-- A string, with its length before it and a zero behind it. -/
lemma string (string : List UInt8) :
    Lands (ucdrWriteString nextWindow string) ([4] ++ List.replicate (string.length + 1) 1) := by
  have harray := arrayUint8 (string ++ [0])
  rw [List.length_append] at harray
  exact (number 2 _).bind harray

/-! ## Requests -/

/-- Octets. -/
lemma octets {n : ℕ} (input : Octets n) :
    Lands (uxrSerializeOctets nextWindow input) (List.replicate n 1) := by
  have harray := arrayUint8 input.1
  rw [input.2] at harray
  exact harray

/-- The object that a request is about. -/
lemma baseObjectRequest (base : XrceTypes.BaseObjectRequest) :
    Lands (uxrSerializeBaseObjectRequest nextWindow base)
      (List.replicate 2 1 ++ List.replicate 2 1) :=
  (octets base.requestId).bind (octets base.objectId)

/-- A number where two octets are skipped first. -/
lemma littleUint16 (value : ℕ) :
    Lands (fun x => ((), ucdrSerializeLittleUint16 nextWindow x.1 x.2 value)) [2] :=
  basic (j := 1) _ fun _ => rfl

end Lands

/-! ## The beginning of a submessage -/

/-- A buffer that was handed out for a submessage. -/
structure StartsAt (s : Standing) (x : FragmentWindows × UcdrBuffer) : Prop where
  noError : x.2.error = false
  inside : x.1.outside = false
  final_eq : x.1.final = x.2.final
  behind_eq : x.1.behind = s.windows
  callback : x.2.onFullBuffer = false → s.windows = []
  origin_le : x.2.origin ≤ x.2.offset
  place_eq : x.2.place = s.place
  room_eq : s.room = x.2.final - x.2.iterator
  final_lt : x.2.final < 18446744073709551616
  lastDataSize_eq : x.2.lastDataSize = 0
  windows_pos : ∀ w ∈ s.windows, 0 < w ∧ w < 18446744073709551616

/-- `uxr_buffer_submessage_header`, into the windows. -/
def writeSubmessageHeader (submessageId : UInt8) (length : ℕ) (flags : UInt8) :
    UcdrSerializer FragmentWindows Unit := fun x =>
  let r := uxrBufferSubmessageHeader nextWindow x.1 x.2 submessageId length flags
  ((), r.1, r.2.1)

/-- The buffer moves to a multiple of four. -/
lemma StartsAt.align {s : Standing} {x : FragmentWindows × UcdrBuffer} (h : StartsAt s x) :
    StandsAt (s.align 4)
      (x.1, { ucdrAlignTo x.2 4 with endianness := ucdrMachineEndianness }) := by
  have hle := h.origin_le
  have hplace : x.2.offset - x.2.origin = s.place := h.place_eq
  have hroom := h.room_eq
  have hgap : ucdrBufferAlignment x.2 4 = Layout.gap 4 s.place := by
    unfold ucdrBufferAlignment
    rw [h.lastDataSize_eq, if_neg (by decide), hplace]
    rfl
  refine ⟨h.noError, h.inside, h.final_eq, h.behind_eq, h.callback, ?_, ?_, ?_, h.final_lt, ?_,
    h.windows_pos⟩
  · change x.2.origin ≤ x.2.offset + ucdrBufferAlignment x.2 4
    omega
  · change x.2.offset + ucdrBufferAlignment x.2 4 - x.2.origin = s.place + Layout.gap 4 s.place
    omega
  · change min (x.2.iterator + ucdrBufferAlignment x.2 4) x.2.final +
      (s.room - Layout.gap 4 s.place) = x.2.final
    omega
  · intro k hk
    have hpow : 2 ^ k ∣ 2 ^ 2 := Nat.pow_dvd_pow 2 ((Nat.pow_le_pow_iff_right (by decide)).mp hk)
    exact hpow.trans (Layout.dvd_add_gap (Nat.two_pow_pos 2) s.place)

/-- A header takes four bytes at a multiple of four, one of two bytes behind two of one. -/
lemma StartsAt.header {s : Standing} {x : FragmentWindows × UcdrBuffer} (h : StartsAt s x)
    (submessageId : UInt8) (length : ℕ) (flags : UInt8) :
    EndsAt ((s.align 4).numbers [1, 1, 2]) (writeSubmessageHeader submessageId length
      flags x).2 := by
  have hflags := Lands.uint8 (flags ||| ucdrMachineEndianness.toUInt8)
  have hends := ((Lands.uint8 submessageId).bind (hflags.bind (Lands.littleUint16 length))).ends
    h.align
  unfold writeSubmessageHeader uxrBufferSubmessageHeader uxrSerializeSubmessageHeader
  dsimp only
  exact hends

/-! ## How much is written -/

/-- The bytes that are left in the windows. -/
def bytesLeft (x : FragmentWindows × UcdrBuffer) : ℕ :=
  x.2.final - x.2.iterator + x.1.behind.sum

/-- What is left when a function has written all that it writes. -/
def ran (f : UcdrSerializer FragmentWindows Unit) (x : FragmentWindows × UcdrBuffer) :
    Option (FragmentWindows × UcdrBuffer) :=
  if Failed (f x).2 then none else some (f x).2

/-- A function has written what it writes when all its numbers have a place. -/
lemma ran_of_endsAt {f : UcdrSerializer FragmentWindows Unit} {x : FragmentWindows × UcdrBuffer}
    {o : Option Standing} (h : EndsAt o (f x).2) :
    (∃ t y, o = some t ∧ ran f x = some y ∧ StandsAt t y) ∨ (o = none ∧ ran f x = none) := by
  cases o with
  | none => exact .inr ⟨rfl, if_pos h⟩
  | some t => exact .inl ⟨t, _, rfl, if_neg (StandsAt.not_failed h), h⟩

/-! ## The windows that are handed out -/

/-- The sizes that the complete blocks of a fragmented write are announced with. -/
def completeBlockSizes (availableBlockSize : ℕ) : ℕ → ℕ → List ℕ
  | 0, _ => []
  | n + 1, fragmentSize =>
    fragmentSize :: completeBlockSizes availableBlockSize n availableBlockSize

/-- The sizes that the fragments of a fragmented write are announced with. -/
def announcedFragments (stream : OutputReliableStream) (length : ℕ) : List ℕ :=
  completeBlockSizes (availableBlockSize stream) (necessaryCompleteBlocks stream length)
    (firstFragmentSize stream) ++ [lastFragmentSize stream length]

/-- All complete blocks but the first have one size. -/
lemma completeBlockSizes_succ (availableBlockSize n fragmentSize : ℕ) :
    completeBlockSizes availableBlockSize (n + 1) fragmentSize =
      fragmentSize :: List.replicate n availableBlockSize := by
  induction n generalizing fragmentSize with
  | zero => rfl
  | succ n ih => rw [completeBlockSizes, ih, List.replicate_succ]

/-- There is one fragment more than complete blocks, and each has its size. -/
lemma getElem?_announcedFragments (stream : OutputReliableStream) (length : ℕ) {k : ℕ}
    (hk : k ≤ necessaryCompleteBlocks stream length) :
    (announcedFragments stream length)[k]? = some (announcedSize stream length k) := by
  unfold announcedFragments announcedSize
  cases hn : necessaryCompleteBlocks stream length with
  | zero =>
    rw [hn, Nat.le_zero] at hk
    rw [hk]
    rw [if_pos rfl, completeBlockSizes, List.nil_append, List.getElem?_cons_zero]
  | succ n =>
    rw [hn] at hk
    rw [completeBlockSizes_succ]
    cases k with
    | zero => rfl
    | succ k =>
      rw [List.cons_append, List.getElem?_cons_succ, List.getElem?_append, List.length_replicate]
      by_cases hlast : k = n
      · rw [if_neg (by omega), if_pos (by omega), hlast, Nat.sub_self]
        rfl
      · rw [if_pos (by omega), if_neg (by omega), if_neg (Nat.succ_ne_zero k),
          List.getElem?_replicate_of_lt (by omega)]

/-- In the slots of a fragmented write `on_full_output_buffer` hands out, behind every FRAGMENT, the
payload of the next one, as long as it was announced and with its origin where the buffer stood. -/
lemma FragmentSlots.onFullOutputBuffer_announced {stream : OutputReliableStream} {length : ℕ}
    (h : FragmentSlots stream length) (hlength : LengthFits stream length)
    (htakes : TakesFragments stream length) {k : ℕ}
    (hk : k < necessaryCompleteBlocks stream length) {ub : UcdrBuffer}
    (hlo : uxrGetReliableBuffer (layFragments stream length).base
      (seqOf ((firstFragmentSeqNum stream).val + k)) ≤ ub.init)
    (hhi : ub.init < uxrGetReliableBuffer (layFragments stream length).base
      (seqOf ((firstFragmentSeqNum stream).val + k)) +
        uxrGetReliableBufferCapacity (layFragments stream length).base) :
    ∃ ub' size, onFullOutputBuffer (layFragments stream length) ub =
        (layFragments stream length, ub', false) ∧
      WindowAt (layFragments stream length).base ub' ((firstFragmentSeqNum stream).val + k + 1)
        (stream.offset + subheaderSize) size ∧
      ub'.origin = ub.offset ∧ ub'.offset = ub.offset ∧
      (announcedFragments stream length)[k + 1]? = some size := by
  have hF : firstFragmentSeqNum stream = seqOf (firstFragmentSeqNum stream).val :=
    (seqOf_self _).symm
  have honly := layFragments_onlySlots hF h.ready
  have hoffset := layFragments_offset stream length
  have hsize := h.layFragments_bufferSize hlength htakes (k := k + 1) hk
  have hbounds := h.announcedSize_bounds hlength htakes (k + 1)
  have hnext := h.consecutive k hk
  rw [heldSize, if_neg (Nat.succ_ne_zero k), ← hoffset] at hsize hbounds
  refine ⟨_, announcedSize stream length (k + 1),
    onFullOutputBuffer_eq (layFragments stream length) ub hlo hhi ?_, ?_, rfl, rfl,
    getElem?_announcedFragments stream length hk⟩
  · rw [honly.history_eq]
    exact hnext
  · rw [← hoffset]
    exact windowAt_next (layFragments stream length) ub.offset hsize
      (by rw [honly.capacity_eq]; exact hbounds.2)

end XrceDds
