import XrceDds.Lib.ReflectedCrc
import XrceDds.Lib.Transition
import XrceDds.Transport.FramedRead

/-!
# The checksum of the framing protocol

Both programs compute the checksum of a payload an octet at a time, from a table of 256 entries.
It is the reflected check of width 16 with the polynomial `0x8005`, whose bits come with the least
significant one of an octet first, as a serial line sends them.  So the two programs agree, and
payloads that differ in a burst of at most 16 bits have different checksums.

The machine that reads a frame compares the checksum of what it has put into the buffer with the one
that it has read (`Checked`), whatever the calls are over which the frame is spread.
-/

namespace XrceDds

open ReflectedCrc ByteMemory

/-- The polynomial `0x8005`, reflected. -/
def crcPolynomial : BitVec 16 := (0x8005#16).reverse

example : crcPolynomial = 0xA001#16 := by decide

/-- The bits of an octet, the least significant one first. -/
def octetBits (octet : UInt8) : List Bool := (List.range 8).map octet.toBitVec.getLsbD

/-- The reflected check of a payload, bit by bit. -/
def reflectedCrc (buf : List UInt8) : BitVec 16 := crcBits crcPolynomial 0 (buf.flatMap octetBits)

/-- Payloads of the same length differ in at most 16 consecutive bits. -/
def Burst (buf buf' : List UInt8) : Prop :=
  ∃ before burst burst' after : List Bool, buf.flatMap octetBits = before ++ burst ++ after ∧
    buf'.flatMap octetBits = before ++ burst' ++ after ∧ burst.length = burst'.length ∧
    burst.length ≤ 16 ∧ burst ≠ burst'

/-! ## The tables -/

/-- The entries of the table are what eight shifts do to the lowest octet. -/
lemma crc16Table_eq : ∀ index : Fin 256, (crc16Table.getD index 0).toBitVec =
    (shift crcPolynomial)^[8] (BitVec.ofNat 16 index) := by
  decide +kernel

/-- The Agent's copy of the table. -/
lemma framingIOCrc16Table_eq : framingIOCrc16Table = crc16Table := rfl

/-- The Agent's step is that of the client. -/
lemma framingIOUpdateCrc_eq : framingIOUpdateCrc = updateCrc := by
  unfold framingIOUpdateCrc updateCrc
  rw [framingIOCrc16Table_eq]

/-- The bits of an octet as a word. -/
lemma word_octetBits (octet : UInt8) : word 16 (octetBits octet) = octet.toUInt16.toBitVec := by
  refine BitVec.eq_of_getLsbD_eq fun i hi => ?_
  rw [getLsbD_word _ hi, UInt8.toBitVec_toUInt16, BitVec.getLsbD_setWidth, octetBits]
  rcases Nat.lt_or_ge i 8 with h | h
  · rw [List.getD_eq_getElem _ _ (by simpa using h)]
    simp [hi]
  · rw [List.getD_eq_default _ _ (by simpa using h), BitVec.getLsbD_of_ge _ _ h, Bool.and_false]

/-- The step of an octet is that of its bits. -/
lemma updateCrc_toBitVec (crc : UInt16) (data : UInt8) :
    (updateCrc crc data).toBitVec = crcBits crcPolynomial crc.toBitVec (octetBits data) := by
  have hlength : (octetBits data).length ≤ 16 := by simp [octetBits]
  have hindex : ((crc ^^^ data.toUInt16) &&& 0xFF).toNat < 256 := by
    rw [UInt16.toNat_and]
    exact Nat.lt_succ_of_le Nat.and_le_right
  have htable := crc16Table_eq ⟨_, hindex⟩
  have hlow : BitVec.ofNat 16 ((crc ^^^ data.toUInt16) &&& 0xFF).toNat =
      low 8 (crc.toBitVec ^^^ data.toUInt16.toBitVec) := by
    rw [← UInt16.toNat_toBitVec, BitVec.ofNat_toNat, BitVec.setWidth_eq]
    rfl
  have hlost : data.toUInt16.toBitVec >>> 8 = 0#16 := by
    refine BitVec.eq_of_getLsbD_eq fun i _ => ?_
    rw [BitVec.getLsbD_ushiftRight, UInt8.toBitVec_toUInt16, BitVec.getLsbD_setWidth,
      BitVec.getLsbD_of_ge data.toBitVec _ (by omega), Bool.and_false]
    simp
  calc (updateCrc crc data).toBitVec
      = (crc.toBitVec >>> 8) ^^^
          (crc16Table.getD ((crc ^^^ data.toUInt16) &&& 0xFF).toNat 0).toBitVec := rfl
    _ = ((crc.toBitVec ^^^ data.toUInt16.toBitVec) >>> 8) ^^^
          (shift crcPolynomial)^[8] (low 8 (crc.toBitVec ^^^ data.toUInt16.toBitVec)) := by
        rw [htable, hlow, BitVec.ushiftRight_xor_distrib, hlost, BitVec.xor_zero]
    _ = (shift crcPolynomial)^[8] (crc.toBitVec ^^^ data.toUInt16.toBitVec) :=
        (iterate_shift_eq 8 _).symm
    _ = crcBits crcPolynomial crc.toBitVec (octetBits data) := by
        rw [crcBits_eq _ hlength, word_octetBits]
        rfl

/-- The checksum of a payload is the reflected check. -/
lemma foldl_updateCrc (crc : UInt16) (buf : List UInt8) :
    (buf.foldl updateCrc crc).toBitVec =
      crcBits crcPolynomial crc.toBitVec (buf.flatMap octetBits) := by
  induction buf generalizing crc with
  | nil => rfl
  | cons octet buf ih =>
    rw [List.foldl_cons, ih, updateCrc_toBitVec, List.flatMap_cons]
    unfold crcBits
    rw [List.foldl_append]

/-- A burst changes the checksum. -/
lemma foldl_updateCrc_ne {buf buf' : List UInt8} (h : Burst buf buf') :
    buf.foldl updateCrc 0 ≠ buf'.foldl updateCrc 0 := by
  obtain ⟨before, burst, burst', after, hbits, hbits', hlength, hle, hne⟩ := h
  intro heq
  have hcrc := congrArg UInt16.toBitVec heq
  rw [foldl_updateCrc, foldl_updateCrc, hbits, hbits'] at hcrc
  exact crcBits_ne_of_burst (by decide) _ hlength hle hne hcrc

/-! ## The machine -/

/-- The machine has read this much of a frame. -/
structure FramingIO.SameFrame (io io' : FramingIO) : Prop where
  state : io'.state = io.state
  msgLen : io'.msgLen = io.msgLen
  msgPos : io'.msgPos = io.msgPos
  msgCrc : io'.msgCrc = io.msgCrc
  cmpCrc : io'.cmpCrc = io.cmpCrc

/-- While a payload is read, `cmp_crc` is the checksum of what is in the buffer of it, and behind it
that of the whole payload. -/
structure Checked (updateCrc : UInt16 → UInt8 → UInt16) (io : FramingIO) (buf : Memory) : Prop where
  payload : io.state = .readingPayload → io.msgPos ≤ io.msgLen ∧
    io.cmpCrc = (read buf 0 io.msgPos.toNat).foldl updateCrc 0
  crc : io.state = .readingCrcLsb ∨ io.state = .readingCrcMsb →
    io.cmpCrc = (read buf 0 io.msgLen.toNat).foldl updateCrc 0

/-- What is returned has the checksum that was read behind it. -/
structure FramedRead.Sound (framing : Framing) (s : FramedRead) : Prop where
  checked : Checked framing.updateCrc s.io s.buf
  returned : s.rv ≠ 0 → s.exitCond = true ∧
    (read s.buf 0 s.rv).foldl framing.updateCrc 0 = s.io.msgCrc

/-- An octet is taken from the ring. -/
lemma FramingIO.getNextOctet_sameFrame (io : FramingIO) :
    io.SameFrame io.getNextOctet.2.2 := by
  unfold FramingIO.getNextOctet
  split
  · split
    · exact ⟨rfl, rfl, rfl, rfl, rfl⟩
    · dsimp only
      split
      · split
        · exact ⟨rfl, rfl, rfl, rfl, rfl⟩
        · exact ⟨rfl, rfl, rfl, rfl, rfl⟩
      · exact ⟨rfl, rfl, rfl, rfl, rfl⟩
  · exact ⟨rfl, rfl, rfl, rfl, rfl⟩

namespace FramedRead

variable {framing : Framing} {s : FramedRead}

/-- A read of the transport changes the ring alone. -/
lemma readTransport_frame (framing : Framing) (s : FramedRead) :
    s.io.SameFrame (s.readTransport framing).1.io ∧ (s.readTransport framing).1.buf = s.buf ∧
      (s.readTransport framing).1.rv = s.rv := by
  have havailable : s.io.SameFrame s.io.availableLength.1 := by
    unfold FramingIO.availableLength
    split
    · exact ⟨rfl, rfl, rfl, rfl, rfl⟩
    · split
      · split
        · exact ⟨rfl, rfl, rfl, rfl, rfl⟩
        · exact ⟨rfl, rfl, rfl, rfl, rfl⟩
      · exact ⟨rfl, rfl, rfl, rfl, rfl⟩
  obtain ⟨hstate, hlen, hpos, hcrc, hcmp⟩ := havailable
  unfold readTransport readPieces readCb FramingIO.store
  dsimp only
  split
  · split
    · exact ⟨⟨hstate, hlen, hpos, hcrc, hcmp⟩, rfl, rfl⟩
    · exact ⟨⟨hstate, hlen, hpos, hcrc, hcmp⟩, rfl, rfl⟩
  · exact ⟨⟨hstate, hlen, hpos, hcrc, hcmp⟩, rfl, rfl⟩

end FramedRead

namespace Checked

variable {step : UInt16 → UInt8 → UInt16} {io io' : FramingIO} {buf : Memory}

/-- What is checked does not depend on the ring. -/
lemma of_sameFrame (h : Checked step io buf) (hsame : io.SameFrame io') : Checked step io' buf := by
  refine ⟨fun hstate => ?_, fun hstate => ?_⟩
  · rw [hsame.msgPos, hsame.msgLen, hsame.cmpCrc]
    exact h.payload (hsame.state ▸ hstate)
  · rw [hsame.msgLen, hsame.cmpCrc]
    exact h.crc (hsame.state ▸ hstate)

/-- Between the frames, and in a header, nothing is checked. -/
lemma of_header (hpayload : io.state ≠ .readingPayload) (hlsb : io.state ≠ .readingCrcLsb)
    (hmsb : io.state ≠ .readingCrcMsb) : Checked step io buf :=
  ⟨fun hstate => absurd hstate hpayload, fun hstate => hstate.elim (absurd · hlsb) (absurd · hmsb)⟩

/-- An octet of the payload. -/
lemma octet (h : Checked step io buf) (hstate : io.state = .readingPayload)
    (hlt : io.msgPos < io.msgLen) (octet : UInt8) :
    Checked step { io with msgPos := io.msgPos + 1, cmpCrc := step io.cmpCrc octet }
      (write buf io.msgPos.toNat [octet]) := by
  obtain ⟨-, hcrc⟩ := h.payload hstate
  have hnat : io.msgPos.toNat < io.msgLen.toNat := UInt16.lt_iff_toNat_lt.mp hlt
  have hpos : (io.msgPos + 1).toNat = io.msgPos.toNat + 1 := by
    have hmax := io.msgLen.toNat_lt
    rw [UInt16.toNat_add]
    exact Nat.mod_eq_of_lt (by simpa using Nat.lt_of_le_of_lt hnat hmax)
  have hread : read (write buf io.msgPos.toNat [octet]) 0 (io.msgPos.toNat + 1) =
      read buf 0 io.msgPos.toNat ++ [octet] := by
    rw [read_add, Nat.zero_add, read_write_of_disjoint _ (.inl (Nat.zero_add _).le)]
    exact congrArg _ (read_write_of_length buf io.msgPos.toNat rfl)
  refine ⟨fun _ => ⟨?_, ?_⟩, fun hcrc => ?_⟩
  · rw [UInt16.le_iff_toNat_le, hpos]
    exact hnat
  · dsimp only
    rw [hpos, hread, List.foldl_append, ← hcrc]
    rfl
  · rw [hstate] at hcrc
    rcases hcrc with hcrc | hcrc
    · cases hcrc
    · cases hcrc

end Checked

namespace FramedRead

variable {framing : Framing} {s : FramedRead}

/-- A read of the transport checks nothing and returns nothing. -/
lemma checked_readTransport (h : Checked framing.updateCrc s.io s.buf) :
    Checked framing.updateCrc (s.readTransport framing).1.io (s.readTransport framing).1.buf ∧
      (s.readTransport framing).1.rv = s.rv := by
  obtain ⟨hsame, hbuf, hrv⟩ := readTransport_frame framing s
  rw [hbuf]
  exact ⟨h.of_sameFrame hsame, hrv⟩

/-- A state that needs the next octet is sound when it is so with each octet. -/
lemma sound_withOctet (h : Checked framing.updateCrc s.io s.buf) (hrv : s.rv = 0)
    {f : UInt8 → FramingIO → FramedRead}
    (hf : ∀ octet io, s.io.SameFrame io → (f octet io).Sound framing) :
    (s.withOctet f).Sound framing := by
  have hsame := s.io.getNextOctet_sameFrame
  unfold withOctet
  split
  · next octet io hnext =>
    rw [hnext] at hsame
    exact hf octet io hsame
  · next octet io hnext =>
    rw [hnext] at hsame
    split
    · exact ⟨.of_header nofun nofun nofun, fun hreturned => absurd hrv hreturned⟩
    · exact ⟨h.of_sameFrame hsame, fun hreturned => absurd hrv hreturned⟩

/-- A turn in a payload is sound. -/
lemma sound_turn_payload (h : Checked framing.updateCrc s.io s.buf) (hrv : s.rv = 0)
    (hstate : s.io.state = .readingPayload) (len : ℕ) : (s.turn framing len).Sound framing := by
  have hnone : s.rv ≠ 0 → ∀ {p : Prop}, p := fun hreturned => absurd hrv hreturned
  unfold turn
  rw [hstate]
  dsimp only
  have hnext : (if s.io.msgPos < s.io.msgLen then s.io.getNextOctet else (false, 0, s.io)).1 =
        true → s.io.msgPos < s.io.msgLen := by
    split
    · next hlt => exact fun _ => hlt
    · exact nofun
  have hsame : s.io.SameFrame
      (if s.io.msgPos < s.io.msgLen then s.io.getNextOctet else (false, 0, s.io)).2.2 := by
    split
    · exact s.io.getNextOctet_sameFrame
    · exact ⟨rfl, rfl, rfl, rfl, rfl⟩
  generalize (if s.io.msgPos < s.io.msgLen then s.io.getNextOctet else (false, 0, s.io)) = next
    at hnext hsame ⊢
  obtain ⟨found, octet, io⟩ := next
  have hio := h.of_sameFrame hsame
  have hpayload : io.state = .readingPayload := hsame.state.trans hstate
  cases found with
  | true =>
    have hlt : io.msgPos < io.msgLen := by
      rw [hsame.msgPos, hsame.msgLen]
      exact hnext rfl
    exact ⟨hio.octet hpayload hlt octet, fun hreturned => hnone hreturned⟩
  | false =>
    dsimp only
    split
    · next hend =>
      refine ⟨⟨nofun, fun _ => ?_⟩, fun hreturned => hnone hreturned⟩
      have hcrc := (hio.payload hpayload).2
      rwa [hend] at hcrc
    · split
      · exact ⟨.of_header nofun nofun nofun, fun hreturned => hnone hreturned⟩
      · have hchecked : Checked framing.updateCrc ({ s with io := io } : FramedRead).io s.buf := hio
        obtain ⟨hafter, hzero⟩ := checked_readTransport (s := { s with io := io }) hchecked
        split
        · exact ⟨hafter, fun hreturned => absurd (hzero.trans hrv) hreturned⟩
        · exact ⟨hafter, fun hreturned => absurd (hzero.trans hrv) hreturned⟩

/-- A turn of the machine is sound. -/
lemma sound_turn (h : Checked framing.updateCrc s.io s.buf) (hrv : s.rv = 0) (len : ℕ) :
    (s.turn framing len).Sound framing := by
  have hnone : s.rv ≠ 0 → ∀ {p : Prop}, p := fun hreturned => absurd hrv hreturned
  have hsame := s.io.getNextOctet_sameFrame
  cases hstate : s.io.state with
  | readingPayload => exact sound_turn_payload h hrv hstate len
  | uninitialized =>
    unfold turn
    rw [hstate]
    dsimp only
    split
    · split
      · exact ⟨.of_header nofun nofun nofun, fun hreturned => hnone hreturned⟩
      · exact ⟨h.of_sameFrame ⟨rfl, rfl, rfl, rfl, rfl⟩, fun hreturned => hnone hreturned⟩
    · exact ⟨h, fun hreturned => hnone hreturned⟩
  | readingSrcAddr =>
    unfold turn
    rw [hstate]
    dsimp only
    split
    · exact ⟨.of_header nofun nofun nofun, fun hreturned => hnone hreturned⟩
    · next octet io hnext =>
      rw [hnext] at hsame
      obtain ⟨hsrc, hlen, hpos, hcrc, hcmp⟩ := hsame
      exact ⟨h.of_sameFrame ⟨hsrc, hlen, hpos, hcrc, hcmp⟩, fun hreturned => hnone hreturned⟩
  | readingDstAddr =>
    unfold turn
    rw [hstate]
    refine sound_withOctet h hrv fun octet io _ => ⟨?_, fun hreturned => hnone hreturned⟩
    unfold goto
    split
    · exact .of_header nofun nofun nofun
    · exact .of_header nofun nofun nofun
  | readingLenLsb =>
    unfold turn
    rw [hstate]
    exact sound_withOctet h hrv fun octet io _ =>
      ⟨.of_header nofun nofun nofun, fun hreturned => hnone hreturned⟩
  | readingLenMsb =>
    unfold turn
    rw [hstate]
    refine sound_withOctet h hrv fun octet io _ => ?_
    dsimp only
    split
    · exact ⟨.of_header nofun nofun nofun, fun hreturned => hnone hreturned⟩
    · refine ⟨⟨fun _ => ⟨UInt16.le_iff_toNat_le.mpr (Nat.zero_le _), rfl⟩, ?_⟩,
        fun hreturned => hnone hreturned⟩
      rintro (hcrc | hcrc)
      · cases hcrc
      · cases hcrc
  | readingCrcLsb =>
    unfold turn
    rw [hstate]
    refine sound_withOctet h hrv fun octet io hio => ⟨⟨nofun, fun _ => ?_⟩, fun hreturned =>
      hnone hreturned⟩
    show io.cmpCrc = (read s.buf 0 io.msgLen.toNat).foldl framing.updateCrc 0
    rw [hio.cmpCrc, hio.msgLen]
    exact h.crc (.inl hstate)
  | readingCrcMsb =>
    unfold turn
    rw [hstate]
    refine sound_withOctet h hrv fun octet io hio => ?_
    dsimp only
    split
    · next heq =>
      refine ⟨.of_header nofun nofun nofun, fun _ => ⟨rfl, ?_⟩⟩
      show (read s.buf 0 io.msgLen.toNat).foldl framing.updateCrc 0 =
        io.msgCrc + (octet.toUInt16 <<< 8)
      have hcrc := h.crc (.inr hstate)
      rw [← hio.cmpCrc, ← hio.msgLen] at hcrc
      exact hcrc.symm.trans heq
    · exact ⟨.of_header nofun nofun nofun, fun hreturned => hnone hreturned⟩

/-- A step of the machine is sound. -/
lemma Sound.step (h : s.Sound framing) (len : ℕ) : (s.step framing len).Sound framing := by
  unfold FramedRead.step
  split
  · exact h
  · next hexit =>
    refine sound_turn h.checked ?_ len
    by_contra hreturned
    exact hexit (h.returned hreturned).1

end FramedRead

/-- A call is sound when what it finds is checked. -/
lemma sound_readFramedMsg {framing : Framing} {call : FramedCall}
    (h : Checked framing.updateCrc call.io call.buf) (turns : ℕ) :
    (readFramedMsg framing call turns).Sound framing := by
  unfold readFramedMsg
  induction turns with
  | zero =>
    unfold FramedRead.enter
    dsimp only [Function.iterate_zero, id]
    generalize hstart : (⟨call.io, call.buf, call.remoteAddr, call.timeout, 0, false, call.callback,
      call.clock, []⟩ : FramedRead) = start
    have hchecked : Checked framing.updateCrc start.io start.buf := hstart ▸ h
    have hzero : start.rv = 0 := hstart ▸ rfl
    obtain ⟨hafter, hrv⟩ := FramedRead.checked_readTransport hchecked
    split
    · exact ⟨hafter, fun hreturned => absurd (hrv.trans hzero) hreturned⟩
    · exact ⟨hafter, fun hreturned => absurd (hrv.trans hzero) hreturned⟩
  | succ turns ih =>
    rw [Function.iterate_succ_apply']
    exact ih.step call.len

/-! ## Calls -/

/-- A receiver between calls: what it keeps, and the buffer. -/
structure Receiver where
  io : FramingIO
  buf : Memory

/-- A call of a receiver, which has returned after `turns` turns. -/
structure ReceiverCall where
  len : ℕ
  remoteAddr : UInt8
  timeout : ℤ
  callback : ReadCallback
  clock : ℕ
  turns : ℕ

namespace Receiver

/-- What a call leads to. -/
def call (framing : Framing) (receiver : Receiver) (e : ReceiverCall) : FramedRead :=
  readFramedMsg framing
    ⟨receiver.io, receiver.buf, e.len, e.remoteAddr, e.timeout, e.callback, e.clock⟩ e.turns

/-- The receiver behind a call. -/
def step (framing : Framing) (receiver : Receiver) (e : ReceiverCall) : Receiver :=
  ⟨(receiver.call framing e).io, (receiver.call framing e).buf⟩

/-- The call returns. -/
def Returns (framing : Framing) (receiver : Receiver) (e : ReceiverCall) : Prop :=
  (receiver.call framing e).exitCond = true

/-- The receiver behind `uxr_init_framing_io`, or the constructor of `FramingIO`. -/
def Initialised (receiver : Receiver) : Prop := receiver.io.state = .uninitialized

/-- A payload that a call returns: its octets, and the checksum that was read behind them. -/
def Returned (framing : Framing) (receiver : Receiver) (e : ReceiverCall) (payload : List UInt8)
    (crc : UInt16) : Prop :=
  (receiver.call framing e).rv ≠ 0 ∧
    payload = read (receiver.call framing e).buf 0 (receiver.call framing e).rv ∧
    crc = (receiver.call framing e).io.msgCrc

/-- The payloads that a receiver returns have the checksum that was read behind them. -/
lemma returned_crc {framing : Framing} {receiver : Receiver}
    (h : Transition.Reaches Initialised (step framing) (Returns framing) receiver)
    {e : ReceiverCall} {payload : List UInt8} {crc : UInt16}
    (hreturned : receiver.Returned framing e payload crc) :
    payload.foldl framing.updateCrc 0 = crc := by
  have hchecked : Checked framing.updateCrc receiver.io receiver.buf := by
    refine Transition.Reaches.invariant (I := fun receiver =>
      Checked framing.updateCrc receiver.io receiver.buf) ?_ ?_ h
    · intro start hstart
      have hstate : start.io.state = .uninitialized := hstart
      refine .of_header ?_ ?_ ?_ <;> rw [hstate] <;> exact nofun
    · exact fun _ _ hbefore _ => (sound_readFramedMsg hbefore _).checked
  obtain ⟨hrv, rfl, rfl⟩ := hreturned
  exact ((sound_readFramedMsg hchecked _).returned hrv).2

end Receiver

/-- The checksums of both programs are the reflected check with the polynomial `0x8005`; so they
agree, differ for payloads that differ in a burst of at most 16 bits, and no run of either receiver
returns a payload in which such a burst was corrupted. -/
theorem framing_crc :
    (∀ buf : List UInt8, (buf.foldl updateCrc 0).toBitVec = reflectedCrc buf ∧
      (buf.foldl framingIOUpdateCrc 0).toBitVec = reflectedCrc buf ∧
      buf.foldl updateCrc 0 = buf.foldl framingIOUpdateCrc 0) ∧
    (∀ buf buf' : List UInt8, Burst buf buf' → buf.foldl updateCrc 0 ≠ buf'.foldl updateCrc 0) ∧
    ∀ framing, framing = clientFraming ∨ framing = agentFraming → ∀ receiver,
      Transition.Reaches Receiver.Initialised (Receiver.step framing) (Receiver.Returns framing)
        receiver →
      ∀ e sent payload, Burst sent payload →
        ¬ receiver.Returned framing e payload (sent.foldl updateCrc 0) := by
  refine ⟨fun buf => ?_, fun _ _ => foldl_updateCrc_ne, ?_⟩
  · rw [framingIOUpdateCrc_eq]
    exact ⟨foldl_updateCrc 0 buf, foldl_updateCrc 0 buf, rfl⟩
  · intro framing hframing receiver hreaches e sent payload hburst hreturned
    have hupdate : framing.updateCrc = updateCrc := by
      rcases hframing with rfl | rfl
      · rfl
      · exact framingIOUpdateCrc_eq
    have hcrc := Receiver.returned_crc hreaches hreturned
    rw [hupdate] at hcrc
    exact foldl_updateCrc_ne hburst hcrc.symm

/-- A receiver that is initialised, and that is sent the payload `[1, 2]` with one bit flipped. -/
def flippedReceiver : Receiver := ⟨⟨.uninitialized, 0, fun _ => 0, 0, 0, 0, 0, 0, 0, 0⟩, fun _ => 0⟩

/-- The frame with the flipped bit, and the checksum of the payload that was sent. -/
def flippedCall : ReceiverCall where
  len := 512
  remoteAddr := 0
  timeout := 10
  callback _ := ⟨[0x7E, 1, 0, 2, 0, 3, 2] ++ tmpCrc ([1, 2].foldl updateCrc 0), 0⟩
  clock := 0
  turns := 20

/-- The checksums differ, and the client does not return the payload. -/
theorem framing_crc_flipped :
    [1, 2].foldl updateCrc 0 ≠ [3, 2].foldl updateCrc 0 ∧
      ¬ flippedReceiver.Returned clientFraming flippedCall [3, 2] ([1, 2].foldl updateCrc 0) := by
  have hburst : Burst [1, 2] [3, 2] :=
    ⟨[true], [false], [true], [false, false, false, false, false, false] ++ octetBits 2,
      by decide, by decide, rfl, by decide, by decide⟩
  exact ⟨framing_crc.2.1 _ _ hburst,
    framing_crc.2.2 clientFraming (.inl rfl) flippedReceiver (.start rfl) flippedCall _ _ hburst⟩

end XrceDds
