import XrceDds.Transport.FrameDecoder
import XrceDds.Transport.FramingCrc
import XrceDds.Transport.FramingRing

/-!
# The framing codec

A receiver reads frames over many calls, through a ring of 42 bytes that the transport fills with
whatever has arrived.  Each turn of its machine takes bytes at the front of the ring as `FrameScan`
does (`turned_step`), so what it has returned is what is decoded from the bytes that it has taken.
Hence both receivers return the message of every frame on the line, whatever is between the frames
and however the bytes arrive (`framed_line_received`).
-/

namespace XrceDds

open ByteMemory StreamDecoder

/-! ## Deliveries -/

namespace FramedRead

/-- The bytes that are delivered in a step, if it reads the transport. -/
def stepDelivered (framing : Framing) (len : ℕ) (s : FramedRead) : List UInt8 :=
  if (s.step framing len).reads.length = s.reads.length then [] else s.delivered

/-- The message of a call that has returned one. -/
def message (s : FramedRead) : Option FrameMessage :=
  if s.rv = 0 then none else some ⟨s.remoteAddr, read s.buf 0 s.rv⟩

end FramedRead

/-- A call before it reads the transport. -/
def FramedCall.start (call : FramedCall) : FramedRead :=
  ⟨call.io, call.buf, call.remoteAddr, call.timeout, 0, false, call.callback, call.clock, []⟩

/-- The bytes that are delivered in a call. -/
def FramedCall.delivered (framing : Framing) (call : FramedCall) (turns : ℕ) : List UInt8 :=
  call.start.delivered ++ (List.range turns).flatMap fun n =>
    (readFramedMsg framing call n).stepDelivered framing call.len

/-- From the call `n` on, the read callback delivers nothing. -/
def ReadCallback.Calm (callback : ReadCallback) (n : ℕ) : Prop := ∀ i,
    n ≤ i → (callback i).bytes = []

/-! ## The machine and the decoder -/

/-- The machine has read as much of a frame as the decoder. -/
def FrameScan.Mirrors (io : FramingIO) (buf : Memory) : FrameScan → Prop
  | .hunt => io.state = .uninitialized
  | .srcAddr => io.state = .readingSrcAddr
  | .dstAddr src => io.state = .readingDstAddr ∧ io.srcAddr = src
  | .lenLsb src => io.state = .readingLenLsb ∧ io.srcAddr = src
  | .lenMsb src lsb => io.state = .readingLenMsb ∧ io.srcAddr = src ∧ io.msgLen = lsb.toUInt16
  | .payload src msgLen octets => io.srcAddr = src ∧ io.msgLen = msgLen ∧
      octets.length ≤ msgLen.toNat ∧ read buf 0 octets.length = octets ∧
      io.cmpCrc = octets.foldl updateCrc 0 ∧
      (io.state = .readingPayload ∧ io.msgPos.toNat = octets.length ∨
        io.state = .readingCrcLsb ∧ msgLen.toNat = octets.length)
  | .crcMsb src octets lsb => io.state = .readingCrcMsb ∧ io.srcAddr = src ∧
      io.msgLen.toNat = octets.length ∧ read buf 0 octets.length = octets ∧
      io.cmpCrc = octets.foldl updateCrc 0 ∧ io.msgCrc = lsb.toUInt16

/-- The machine follows the decoder, with a queue in the ring. -/
structure Follows (localAddr : UInt8) (s : FramedRead) (scan : FrameScan) (queue : List UInt8) :
    Prop where
  holds : s.io.Queue queue
  localAddr_eq : s.io.localAddr = localAddr
  mirrors : scan.Mirrors s.io s.buf

/-- What is left to do in a call: bytes to come, bytes in the ring, and the step to the checksum. -/
def rank (n : ℕ) (s : FramedRead) (queue : List UInt8) : ℕ :=
  86 * n + 2 * queue.length + if s.io.state = .readingPayload then 1 else 0

/-- Bytes were taken as the decoder takes them: what was decoded is returned, what was not taken is
in the ring, and a call that returns without taking anything leaves no octet. -/
structure Takes (localAddr : UInt8) (len : ℕ) (scan : FrameScan) (bytes : List UInt8)
    (s' : FramedRead) (taken queue' : List UInt8) (scan' : FrameScan) : Prop where
  bytes_eq : bytes = taken ++ queue'
  decodes : Decodes (FrameScan.feed localAddr len) (scan, false) taken (scan', false)
    s'.message.toList
  follows : Follows localAddr s' scan' queue'
  exits : s'.rv ≠ 0 → s'.exitCond = true
  idle : s'.exitCond = true → taken = [] → queue' = [] ∨ queue' = [framingEscFlag]

/-- A turn takes bytes, and if it does not return, there is less to do. -/
structure Turned (localAddr : UInt8) (len : ℕ) (s : FramedRead) (scan : FrameScan)
    (queue delivered : List UInt8) (s' : FramedRead) (taken queue' : List UInt8)
    (scan' : FrameScan) :
    Prop extends Takes localAddr len scan (queue ++ delivered) s' taken queue' scan' where
  ends : ∀ n, s.callback.Calm n → s'.exitCond = true ∨
    ∃ n', s'.callback.Calm n' ∧ rank n' s' queue' < rank n s queue

/-- The next octet of a queue, for the decoder. -/
inductive NextOctet (localAddr : UInt8) (len : ℕ) (queue : List UInt8) : Prop
  | octet (octet : UInt8) (n : ℕ) : nextOctet queue = (true, octet, n) → 0 < n → n ≤ queue.length →
      (∀ scan : FrameScan, scan ≠ .hunt → Decodes (FrameScan.feed localAddr len) (scan, false)
        (queue.take n) ((scan.octet localAddr len octet).1, false)
          (scan.octet localAddr len octet).2.toList) → NextOctet localAddr len queue
  | beginFlag (n : ℕ) : nextOctet queue = (false, framingBeginFlag, n) → 0 < n → n ≤ queue.length →
      (∀ scan : FrameScan, scan ≠ .hunt → Decodes (FrameScan.feed localAddr len) (scan, false)
        (queue.take n) (.srcAddr, false) []) → NextOctet localAddr len queue
  | nothing : nextOctet queue = (false, 0, 0) → queue = [] ∨ queue = [framingEscFlag] →
      NextOctet localAddr len queue

/-- A queue starts with an octet, with a begin flag, or with neither. -/
lemma nextOctet_cases (localAddr : UInt8) (len : ℕ) (queue : List UInt8) :
    NextOctet localAddr len queue := by
  have hbegin := FrameScan.feed_begin localAddr len
  cases queue with
  | nil => exact .nothing rfl (.inl rfl)
  | cons byte rest =>
    by_cases hesc : framingEscFlag = byte
    · subst hesc
      cases rest with
      | nil => exact .nothing rfl (.inr rfl)
      | cons octet rest =>
        have hle : 2 ≤ (framingEscFlag :: octet :: rest).length := by simp
        by_cases hflag : framingBeginFlag = octet
        · subst hflag
          refine .beginFlag 2 (by rw [nextOctet_esc, if_neg (not_not.mpr rfl)]) (by decide) hle ?_
          exact fun scan hscan => (Decodes.single (FrameScan.feed_esc hscan)).append
            (.single (hbegin (scan, true)))
        · refine .octet _ 2 (by rw [nextOctet_esc, if_pos hflag]) (by decide) hle ?_
          exact fun scan hscan => (Decodes.single (FrameScan.feed_esc hscan)).append
            (.single (FrameScan.feed_escaped hscan (Ne.symm hflag)))
    · have hnext := nextOctet_of_ne rest hesc
      have hle : 1 ≤ (byte :: rest).length := by simp
      by_cases hflag : framingBeginFlag = byte
      · subst hflag
        refine .beginFlag 1 (by rw [hnext]; rfl) (by decide) hle ?_
        exact fun scan _ => .single (hbegin (scan, false))
      · refine .octet byte 1 (by rw [hnext, decide_eq_true hflag]) (by decide) hle ?_
        exact fun scan hscan => .single (FrameScan.feed_plain hscan (Ne.symm hflag) (Ne.symm hesc))

/-- A state with the same ring holds the same queue. -/
lemma FramingIO.Queue.of_sameRing {io io' : FramingIO} {queue : List UInt8} (h : io.Queue queue)
    (hsame : io.SameRing io') : io'.Queue queue := by
  obtain ⟨hrb, hhead, htail⟩ := hsame
  unfold FramingIO.Queue
  rw [hrb, hhead, htail]
  exact h

/-- The machine copies an octet of the payload. -/
def FramedRead.copyOctet (framing : Framing) (s : FramedRead) (tail octet : UInt8) : FramedRead :=
  { s with
    io := { s.io with
      rbTail := tail
      msgPos := s.io.msgPos + 1
      cmpCrc := framing.updateCrc s.io.cmpCrc octet }
    buf := write s.buf s.io.msgPos.toNat [octet] }

/-- What an octet leads to, taken from a ring that is `io` then. -/
structure TakesOctet (localAddr : UInt8) (len : ℕ) (s : FramedRead) (scan : FrameScan)
    (octet : UInt8) (io : FramingIO) (s' : FramedRead) : Prop where
  ring : io.SameRing s'.io
  localAddr_eq : s'.io.localAddr = localAddr
  mirrors : (scan.octet localAddr len octet).1.Mirrors s'.io s'.buf
  message_eq : s'.message = (scan.octet localAddr len octet).2
  exits : s'.rv ≠ 0 → s'.exitCond = true
  callback_eq : s'.callback = s.callback
  reads_eq : s'.reads = s.reads

section Turns

variable {framing : Framing} {localAddr : UInt8} {len : ℕ} {s s' : FramedRead}
    {scan scan' : FrameScan}
  {queue : List UInt8}

/-- Nothing is returned. -/
lemma message_of_rv {s : FramedRead} (hrv : s.rv = 0) : s.message = none := if_pos hrv

/-- A turn that takes bytes from the ring. -/
lemma turned_take (out : Option FrameMessage) (h : Follows localAddr s scan queue) {n : ℕ}
    (hpos : 0 < n) (hle : n ≤ queue.length)
    (hdecodes : Decodes (FrameScan.feed localAddr len) (scan, false) (queue.take n) (scan', false)
      out.toList)
    (hring : FramingIO.SameRing { s.io with rbTail := FramingIO.advance s.io.rbTail n } s'.io)
    (haddr : s'.io.localAddr = localAddr) (hmirrors : scan'.Mirrors s'.io s'.buf)
    (hmessage : s'.message = out) (hexits : s'.rv ≠ 0 → s'.exitCond = true)
    (hcallback : s'.callback = s.callback) :
    Turned localAddr len s scan queue [] s' (queue.take n) (queue.drop n) scan' where
  bytes_eq := by rw [List.append_nil, List.take_append_drop]
  decodes := hmessage ▸ hdecodes
  follows := ⟨(h.holds.drop hle).of_sameRing hring, haddr, hmirrors⟩
  exits := hexits
  idle _ hnil := by
    rw [List.take_eq_nil_iff] at hnil
    rcases hnil with hzero | hnil
    · omega
    · rw [hnil, List.length_nil] at hle
      omega
  ends k hcalm := by
    refine .inr ⟨k, hcallback ▸ hcalm, ?_⟩
    unfold rank
    rw [List.length_drop]
    split <;> omega

/-- A turn that finds no octet. -/
lemma turned_stop (h : Follows localAddr s scan queue)
    (hidle : queue = [] ∨ queue = [framingEscFlag]) (hring : s.io.SameRing s'.io)
    (haddr : s'.io.localAddr = localAddr) (hmirrors : scan.Mirrors s'.io s'.buf)
    (hrv : s'.rv = 0) (hexit : s'.exitCond = true) :
    Turned localAddr len s scan queue [] s' [] queue scan where
  bytes_eq := List.append_nil queue
  decodes := by
    rw [message_of_rv hrv]
    exact .nil _
  follows := ⟨h.holds.of_sameRing hring, haddr, hmirrors⟩
  exits _ := hexit
  idle _ _ := hidle
  ends _ _ := .inl hexit

/-- A turn that needs the next octet. -/
lemma turned_withOctet (h : Follows localAddr s scan queue) (hscan : scan ≠ .hunt) (hrv : s.rv = 0)
    {f : UInt8 → FramingIO → FramedRead}
    (hf : ∀ octet tail, TakesOctet localAddr len s scan octet { s.io with rbTail := tail }
      (f octet { s.io with rbTail := tail })) :
    (s.withOctet f).reads = s.reads ∧
      ∃ taken queue' scan', Turned localAddr len s scan queue [] (s.withOctet f) taken queue'
        scan' := by
  have hnext := h.holds.getNextOctet_eq
  unfold FramedRead.withOctet
  rw [hnext]
  cases nextOctet_cases localAddr len queue with
  | octet octet n heq hpos hle hdecodes =>
    rw [heq]
    have htakes := hf octet ( FramingIO.advance s.io.rbTail n)
    exact ⟨htakes.reads_eq, _, _, _, turned_take _ h hpos hle (hdecodes scan hscan) htakes.ring
      htakes.localAddr_eq htakes.mirrors htakes.message_eq htakes.exits htakes.callback_eq⟩
  | beginFlag n heq hpos hle hdecodes =>
    rw [heq]
    dsimp only
    rw [if_pos rfl]
    have hmirrors : FrameScan.srcAddr.Mirrors (s.goto { s.io with
        rbTail := FramingIO.advance s.io.rbTail n } .readingSrcAddr).io s.buf := rfl
    exact ⟨rfl, _, _, _, turned_take _ h hpos hle (hdecodes scan hscan) ⟨rfl, rfl, rfl⟩
      h.localAddr_eq hmirrors (message_of_rv hrv) (fun hne => absurd hrv hne) rfl⟩
  | nothing heq hidle =>
    rw [heq]
    dsimp only
    rw [if_neg (by decide), h.holds.drop_zero]
    exact ⟨rfl, _, _, _, turned_stop h hidle ⟨rfl, rfl, rfl⟩ h.localAddr_eq h.mirrors hrv rfl⟩

/-- The search for a begin flag. -/
lemma turned_hunt (h : Follows localAddr s .hunt queue) (hrv : s.rv = 0) :
    (s.turn framing len).reads = s.reads ∧ ∃ taken queue' scan',
      Turned localAddr len s .hunt queue [] (s.turn framing len) taken queue' scan' := by
  have hstate : s.io.state = .uninitialized := h.mirrors
  have hempty := h.holds.head_eq_tail_iff
  unfold FramedRead.turn
  rw [hstate]
  dsimp only
  cases queue with
  | nil =>
    rw [if_neg (not_not.mpr (hempty.mpr rfl))]
    exact ⟨rfl, _, _, _, turned_stop h (.inl rfl) ⟨rfl, rfl, rfl⟩ h.localAddr_eq h.mirrors hrv rfl⟩
  | cons byte rest =>
    rw [if_pos (fun heq => List.cons_ne_nil _ _ (hempty.mp heq)), h.holds.byte_eq]
    have hle : 1 ≤ (byte :: rest).length := by simp
    by_cases hflag : framingBeginFlag = byte
    · rw [if_pos hflag]
      have hmirrors : FrameScan.srcAddr.Mirrors (s.goto { s.io with
          rbTail := FramingIO.advance s.io.rbTail 1 } .readingSrcAddr).io s.buf := rfl
      refine ⟨rfl, _, _, _, turned_take none h Nat.one_pos hle (.single ?_) ⟨rfl, rfl, rfl⟩
        h.localAddr_eq hmirrors (message_of_rv hrv) (fun hne => absurd hrv hne) rfl⟩
      rw [FrameScan.feed, if_pos hflag.symm]
    · rw [if_neg hflag]
      have hmirrors : FrameScan.hunt.Mirrors { s.io with
          rbTail := FramingIO.advance s.io.rbTail 1 } s.buf := hstate
      refine ⟨rfl, _, _, _, turned_take none h Nat.one_pos hle (.single ?_) ⟨rfl, rfl, rfl⟩
        h.localAddr_eq hmirrors (message_of_rv hrv) (fun hne => absurd hrv hne) rfl⟩
      rw [FrameScan.feed, if_neg (Ne.symm hflag)]

/-- The source address. -/
lemma turned_srcAddr (h : Follows localAddr s .srcAddr queue) (hrv : s.rv = 0) :
    (s.turn framing len).reads = s.reads ∧ ∃ taken queue' scan',
      Turned localAddr len s .srcAddr queue [] (s.turn framing len) taken queue' scan' := by
  have hstate : s.io.state = .readingSrcAddr := h.mirrors
  have hnext := h.holds.getNextOctet_eq
  unfold FramedRead.turn
  rw [hstate]
  dsimp only
  rw [hnext]
  cases nextOctet_cases localAddr len queue with
  | octet octet n heq hpos hle hdecodes =>
    rw [heq]
    have hmirrors : (FrameScan.dstAddr octet).Mirrors (s.goto { s.io with
        rbTail := FramingIO.advance s.io.rbTail n, srcAddr := octet } .readingDstAddr).io s.buf :=
      ⟨rfl, rfl⟩
    exact ⟨rfl, _, _, _, turned_take _ h hpos hle (hdecodes _ nofun) ⟨rfl, rfl, rfl⟩ h.localAddr_eq
      hmirrors (message_of_rv hrv) (fun hne => absurd hrv hne) rfl⟩
  | beginFlag n heq hpos hle hdecodes =>
    rw [heq]
    have hmirrors : FrameScan.srcAddr.Mirrors { s.io with
        rbTail := FramingIO.advance s.io.rbTail n, srcAddr := framingBeginFlag } s.buf := hstate
    exact ⟨rfl, _, _, _, turned_take none h hpos hle (hdecodes _ nofun) ⟨rfl, rfl, rfl⟩
      h.localAddr_eq hmirrors (message_of_rv hrv) (fun hne => absurd hrv hne) rfl⟩
  | nothing heq hidle =>
    rw [heq]
    have hmirrors : FrameScan.srcAddr.Mirrors { s.io with
        rbTail := FramingIO.advance s.io.rbTail 0, srcAddr := 0 } s.buf := hstate
    have htail : FramingIO.advance s.io.rbTail 0 = s.io.rbTail :=
      congrArg FramingIO.rbTail h.holds.drop_zero
    have hring : s.io.SameRing
        { s.io with rbTail := FramingIO.advance s.io.rbTail 0, srcAddr := 0 } :=
      ⟨rfl, rfl, htail⟩
    exact ⟨rfl, _, _, _, turned_stop h hidle hring h.localAddr_eq hmirrors hrv rfl⟩

/-- The destination address. -/
lemma turned_dstAddr {src : UInt8} (h : Follows localAddr s (.dstAddr src) queue) (hrv : s.rv = 0) :
    (s.turn framing len).reads = s.reads ∧ ∃ taken queue' scan',
      Turned localAddr len s (.dstAddr src) queue [] (s.turn framing len) taken queue' scan' := by
  obtain ⟨hstate, hsrc⟩ := h.mirrors
  unfold FramedRead.turn
  rw [hstate]
  refine turned_withOctet h nofun hrv fun octet tail => ⟨⟨rfl, rfl, rfl⟩, h.localAddr_eq, ?_,
    message_of_rv hrv, fun hne => absurd hrv hne, rfl, rfl⟩
  unfold FramedRead.goto
  dsimp only
  rw [h.localAddr_eq, FrameScan.octet]
  by_cases heq : octet = localAddr
  · rw [if_pos heq, if_pos heq]
    exact ⟨rfl, hsrc⟩
  · rw [if_neg heq, if_neg heq]
    exact rfl

/-- The first octet of the length. -/
lemma turned_lenLsb {src : UInt8} (h : Follows localAddr s (.lenLsb src) queue) (hrv : s.rv = 0) :
    (s.turn framing len).reads = s.reads ∧ ∃ taken queue' scan',
      Turned localAddr len s (.lenLsb src) queue [] (s.turn framing len) taken queue' scan' := by
  obtain ⟨hstate, hsrc⟩ := h.mirrors
  unfold FramedRead.turn
  rw [hstate]
  exact turned_withOctet h nofun hrv fun octet tail => ⟨⟨rfl, rfl, rfl⟩, h.localAddr_eq,
    ⟨rfl, hsrc, rfl⟩, message_of_rv hrv, fun hne => absurd hrv hne, rfl, rfl⟩

/-- The second octet of the length. -/
lemma turned_lenMsb {src lsb : UInt8} (h : Follows localAddr s (.lenMsb src lsb) queue)
    (hrv : s.rv = 0) : (s.turn framing len).reads = s.reads ∧ ∃ taken queue' scan',
      Turned localAddr len s (.lenMsb src lsb) queue [] (s.turn framing len) taken queue'
        scan' := by
  obtain ⟨hstate, hsrc, hmsgLen⟩ := h.mirrors
  unfold FramedRead.turn
  rw [hstate]
  refine turned_withOctet h nofun hrv fun octet tail => ?_
  dsimp only
  have htwo : s.io.msgLen + (octet.toUInt16 <<< 8) = twoOctets lsb octet := by
    rw [hmsgLen, twoOctets]
  rw [htwo]
  by_cases hlt : len < (twoOctets lsb octet).toNat
  · rw [if_pos hlt]
    refine ⟨⟨rfl, rfl, rfl⟩, h.localAddr_eq, ?_, message_of_rv hrv, fun _ => rfl, rfl, rfl⟩
    rw [FrameScan.octet, if_pos hlt]
    exact rfl
  · rw [if_neg hlt]
    refine ⟨⟨rfl, rfl, rfl⟩, h.localAddr_eq, ?_, message_of_rv hrv, fun hne => absurd hrv hne, rfl,
      rfl⟩
    rw [FrameScan.octet, if_neg hlt]
    exact ⟨hsrc, rfl, Nat.zero_le _, rfl, rfl, .inl ⟨rfl, rfl⟩⟩

/-- The first octet of the checksum. -/
lemma turned_crcLsb {src : UInt8} {msgLen : UInt16} {octets : List UInt8}
    (h : Follows localAddr s (.payload src msgLen octets) queue) (hrv : s.rv = 0)
    (hstate : s.io.state = .readingCrcLsb) : (s.turn framing len).reads = s.reads ∧
      ∃ taken queue' scan', Turned localAddr len s (.payload src msgLen octets) queue []
        (s.turn framing len) taken queue' scan' := by
  obtain ⟨hsrc, hmsgLen, -, hbuf, hcrc, hread⟩ := h.mirrors
  have hlength : msgLen.toNat = octets.length := by
    rcases hread with ⟨hpayload, -⟩ | ⟨-, hlength⟩
    · rw [hstate] at hpayload
      cases hpayload
    · exact hlength
  unfold FramedRead.turn
  rw [hstate]
  refine turned_withOctet h nofun hrv fun octet tail => ⟨⟨rfl, rfl, rfl⟩, h.localAddr_eq, ?_,
    message_of_rv hrv |>.trans ?_, fun hne => absurd hrv hne, rfl, rfl⟩
  · rw [FrameScan.octet, if_neg (by omega)]
    exact ⟨rfl, hsrc, (congrArg UInt16.toNat hmsgLen).trans hlength, hbuf, hcrc, rfl⟩
  · rfl

/-- The second octet of the checksum. -/
lemma turned_crcMsb {src crcLsb : UInt8} {octets : List UInt8}
    (h : Follows localAddr s (.crcMsb src octets crcLsb) queue) (hrv : s.rv = 0) :
    (s.turn framing len).reads = s.reads ∧ ∃ taken queue' scan',
      Turned localAddr len s (.crcMsb src octets crcLsb) queue [] (s.turn framing len) taken queue'
        scan' := by
  obtain ⟨hstate, hsrc, hlength, hbuf, hcrc, hmsgCrc⟩ := h.mirrors
  unfold FramedRead.turn
  rw [hstate]
  refine turned_withOctet h nofun hrv fun octet tail => ?_
  dsimp only
  have htwo : s.io.msgCrc + (octet.toUInt16 <<< 8) = twoOctets crcLsb octet := by
    rw [hmsgCrc, twoOctets]
  rw [htwo, hcrc]
  by_cases heq : octets.foldl updateCrc 0 = twoOctets crcLsb octet
  · rw [if_pos heq]
    refine ⟨⟨rfl, rfl, rfl⟩, h.localAddr_eq, rfl, ?_, fun _ => rfl, rfl, rfl⟩
    rw [FrameScan.octet]
    unfold FramedRead.message FramedRead.goto
    dsimp only
    rw [hlength, hbuf, hsrc]
    by_cases hnil : octets = []
    · rw [if_pos (List.length_eq_zero_iff.mpr hnil), if_neg fun hboth => hboth.2 hnil]
    · rw [if_neg (mt List.length_eq_zero_iff.mp hnil), if_pos ⟨heq, hnil⟩]
  · rw [if_neg heq]
    refine ⟨⟨rfl, rfl, rfl⟩, h.localAddr_eq, rfl, ?_, fun _ => rfl, rfl, rfl⟩
    rw [FrameScan.octet, if_neg fun hboth => heq hboth.1]
    exact message_of_rv hrv

/-! ## Reads of the transport -/

/-- A read of the transport changes the ring alone, and none of the rest of a call. -/
lemma readTransport_keeps (framing : Framing) (s : FramedRead) :
    (s.readTransport framing).1.io.localAddr = s.io.localAddr ∧
      (s.readTransport framing).1.io.srcAddr = s.io.srcAddr ∧
      (s.readTransport framing).1.exitCond = s.exitCond := by
  have havailable : s.io.availableLength.1.localAddr = s.io.localAddr ∧
      s.io.availableLength.1.srcAddr = s.io.srcAddr := by
    unfold FramingIO.availableLength
    split
    · exact ⟨rfl, rfl⟩
    · split
      · split <;> exact ⟨rfl, rfl⟩
      · exact ⟨rfl, rfl⟩
  unfold FramedRead.readTransport FramedRead.readPieces FramedRead.readCb FramingIO.store
  dsimp only
  split
  · split <;> exact ⟨havailable.1, havailable.2, rfl⟩
  · exact ⟨havailable.1, havailable.2, rfl⟩

/-- Where the ring is full, nothing is delivered. -/
lemma delivered_of_full (hfull : ¬ 0 < s.io.availableLength.2.1) : s.delivered = [] := by
  have hzero : s.io.availableLength.2.1.toNat = 0 := by
    have hle := mt UInt8.lt_iff_toNat_lt.mpr hfull
    exact Nat.eq_zero_of_not_pos hle
  unfold FramedRead.delivered FramedRead.deliveredTo
  dsimp only
  rw [hzero, List.take_zero, if_neg fun hpos => absurd hpos.1 (by simp)]

/-- A read of the transport that is not noted delivers nothing. -/
lemma delivered_of_reads (h : (s.readTransport framing).1.reads.length = s.reads.length) :
    s.delivered = [] := by
  unfold FramedRead.readTransport FramedRead.readPieces FramedRead.readCb at h
  dsimp only at h
  split at h
  · split at h
    · rw [List.length_append] at h
      exact absurd h (Nat.succ_ne_self _)
    · rw [List.length_append] at h
      exact absurd h (Nat.succ_ne_self _)
  · next hfull => exact delivered_of_full hfull

/-- A callback that delivers something now, and nothing from a call on. -/
lemma calm_readTransport {n : ℕ} (h : s.callback.Calm n) (hne : s.delivered ≠ [])
    (framing : Framing) : 0 < n ∧ (s.readTransport framing).1.callback.Calm (n - 1) := by
  have hnext : s.callback.next.Calm (n - 1) := fun i hi => h (i + 1) (by omega)
  have hnext' : s.callback.next.next.Calm (n - 1) := fun i hi => h (i + 2) (by omega)
  refine ⟨Nat.pos_of_ne_zero fun hzero => hne ?_, ?_⟩
  · have hfirst : (s.callback 0).bytes = [] := h 0 (by omega)
    unfold FramedRead.delivered FramedRead.deliveredTo
    rw [hfirst, List.take_nil]
    exact if_neg fun hpos => absurd hpos.1 (by simp)
  · unfold FramedRead.readTransport FramedRead.readPieces FramedRead.readCb
    dsimp only
    split
    · split
      · exact hnext'
      · exact hnext
    · next hfull => exact absurd (delivered_of_full hfull) hne

/-- A callback that delivers nothing from a call on goes on so. -/
lemma calm_readTransport_self {n : ℕ} (h : s.callback.Calm n) (framing : Framing) :
    (s.readTransport framing).1.callback.Calm n := by
  have hnext : s.callback.next.Calm n := fun i hi => h (i + 1) (Nat.le_succ_of_le hi)
  unfold FramedRead.readTransport FramedRead.readPieces FramedRead.readCb
  dsimp only
  split
  · split
    · exact fun i hi => hnext (i + 1) (Nat.le_succ_of_le hi)
    · exact hnext
  · exact h

/-- What mirrors the decoder does not depend on the ring. -/
lemma FrameScan.Mirrors.of_sameFrame {io io' : FramingIO} {buf : Memory}
    (h : scan.Mirrors io buf) (hsame : io.SameFrame io') (hsrc : io'.srcAddr = io.srcAddr) :
    scan.Mirrors io' buf := by
  obtain ⟨hstate, hmsgLen, hmsgPos, hmsgCrc, hcmpCrc⟩ := hsame
  cases scan <;> simp only [FrameScan.Mirrors, hstate, hmsgLen, hmsgPos, hmsgCrc, hcmpCrc,
    hsrc] at h ⊢
    <;> exact h

/-- A read of the transport appends what it delivers. -/
lemma follows_readTransport (h : Follows localAddr s scan queue) (framing : Framing) :
    Follows localAddr (s.readTransport framing).1 scan (queue ++ s.delivered) := by
  obtain ⟨hsame, hbuf, -⟩ := FramedRead.readTransport_frame framing s
  obtain ⟨haddr, hsrc, -⟩ := readTransport_keeps framing s
  refine ⟨(FramedRead.queue_readTransport framing h.holds).1, haddr.trans h.localAddr_eq, ?_⟩
  rw [hbuf]
  exact h.mirrors.of_sameFrame hsame hsrc

/-! ## The payload -/

/-- A payload that is complete. -/
lemma turned_complete {src : UInt8} {msgLen : UInt16} {octets : List UInt8}
    (h : Follows localAddr s (.payload src msgLen octets) queue) (hrv : s.rv = 0)
    (hexit : s.exitCond = false) (hstate : s.io.state = .readingPayload)
    (hpos : s.io.msgPos = s.io.msgLen) : (s.turn framing len).reads =
      s.reads ∧ ∃ taken queue' scan',
      Turned localAddr len s (.payload src msgLen octets) queue [] (s.turn framing len) taken queue'
        scan' := by
  obtain ⟨hsrc, hmsgLen, hle, hbuf, hcrc, hread⟩ := h.mirrors
  have hturn : s.turn framing len = s.goto s.io .readingCrcLsb := by
    unfold FramedRead.turn
    rw [hstate]
    dsimp only
    rw [if_neg (by rw [hpos]; exact UInt16.lt_irrefl _)]
    exact if_pos hpos
  have hlength : msgLen.toNat = octets.length := by
    rcases hread with ⟨-, hread⟩ | ⟨hother, -⟩
    · rw [← hread, hpos, hmsgLen]
    · rw [hstate] at hother
      cases hother
  rw [hturn]
  refine ⟨rfl, [], queue, .payload src msgLen octets, ⟨List.append_nil queue, ?_, ?_, ?_, ?_⟩, ?_⟩
  · rw [message_of_rv (s := s.goto s.io .readingCrcLsb) hrv]
    exact .nil _
  · exact ⟨h.holds.of_sameRing ⟨rfl, rfl, rfl⟩, h.localAddr_eq,
      hsrc, hmsgLen, hle, hbuf, hcrc, .inr ⟨rfl, hlength⟩⟩
  · exact fun hne => absurd hrv hne
  · exact fun hexit' => absurd (hexit.symm.trans hexit') Bool.false_ne_true
  · intro n hcalm
    refine .inr ⟨n, hcalm, ?_⟩
    unfold rank
    rw [if_pos hstate, if_neg (by exact nofun)]
    exact Nat.lt_succ_self _

/-- An octet of a payload. -/
lemma takes_payload (len : ℕ) {src : UInt8} {msgLen : UInt16} {octets : List UInt8}
    (hcrc16 : framing.updateCrc = updateCrc)
    (h : Follows localAddr s (.payload src msgLen octets) queue) (hrv : s.rv = 0)
    (hstate : s.io.state = .readingPayload) (hlt : s.io.msgPos < s.io.msgLen) (octet tail : UInt8) :
    TakesOctet localAddr len s (.payload src msgLen octets) octet { s.io with rbTail := tail }
      (s.copyOctet framing tail octet) := by
  obtain ⟨hsrc, hmsgLen, hle, hbuf, hcrc, hread⟩ := h.mirrors
  have hpos : s.io.msgPos.toNat = octets.length := by
    rcases hread with ⟨-, hpos⟩ | ⟨hother, -⟩
    · exact hpos
    · rw [hstate] at hother
      cases hother
  have hnat : octets.length < msgLen.toNat := by
    rw [← hpos, ← hmsgLen]
    exact UInt16.lt_iff_toNat_lt.mp hlt
  have hnext : (s.io.msgPos + 1).toNat = octets.length + 1 := by
    have hmax := msgLen.toNat_lt
    rw [UInt16.toNat_add, hpos]
    exact Nat.mod_eq_of_lt (by simpa using Nat.lt_of_le_of_lt hnat hmax)
  refine ⟨⟨rfl, rfl, rfl⟩, h.localAddr_eq, ?_, ?_, fun hne => absurd hrv hne, rfl, rfl⟩
  · unfold FramedRead.copyOctet
    rw [FrameScan.octet, if_pos hnat]
    refine ⟨hsrc, hmsgLen, ?_, ?_, ?_, .inl ⟨hstate, ?_⟩⟩
    · rw [List.length_append]
      exact hnat
    · dsimp only
      rw [List.length_append, List.length_singleton, read_add, Nat.zero_add, hpos,
        read_write_of_disjoint _ (.inl (Nat.zero_add _).le), hbuf]
      exact congrArg _ (read_write_of_length s.buf octets.length rfl)
    · dsimp only
      rw [List.foldl_append, ← hcrc, hcrc16]
      rfl
    · dsimp only
      rw [hnext, List.length_append]
      rfl
  · rw [FrameScan.octet]
    exact message_of_rv hrv

/-- A turn that finds no octet, and reads the transport. -/
lemma turned_read (framing : Framing) (h : Follows localAddr s scan queue) (hrv : s.rv = 0)
    (hexit : s.exitCond = false)
    (hidle : queue = [] ∨ queue = [framingEscFlag]) {s' : FramedRead}
    (hs' : s' = if 0 < (s.readTransport framing).2 then (s.readTransport framing).1
      else { (s.readTransport framing).1 with exitCond := true }) :
    ∃ taken queue' scan', Turned localAddr len s scan queue
      (if s'.reads.length = s.reads.length then [] else s.delivered) s' taken queue' scan' := by
  obtain ⟨hsame, -, hrv'⟩ := FramedRead.readTransport_frame framing s
  obtain ⟨-, -, hexit'⟩ := readTransport_keeps framing s
  have hfollows := follows_readTransport h framing
  have hcount := (FramedRead.queue_readTransport framing h.holds).2
  have hreads : s'.reads = (s.readTransport framing).1.reads := by
    rw [hs']
    split <;> rfl
  have hdelivered : (if s'.reads.length = s.reads.length then [] else s.delivered) =
    s.delivered := by
    rw [hreads]
    split
    · next hlength => exact (delivered_of_reads hlength).symm
    · rfl
  rw [hdelivered]
  refine ⟨[], queue ++ s.delivered, scan, ?_⟩
  have hrv'' : s'.rv = 0 := by
    rw [hs']
    split <;> exact hrv'.trans hrv
  refine ⟨⟨rfl, ?_, ?_, fun hne => absurd hrv'' hne, ?_⟩, ?_⟩
  · rw [message_of_rv hrv'']
    exact .nil _
  · rw [hs']
    split
    · exact hfollows
    · exact ⟨hfollows.holds, hfollows.localAddr_eq, hfollows.mirrors⟩
  · intro hexit'' _
    -- it returns only when nothing was delivered
    have hnone : s.delivered = [] := by
      rw [hs'] at hexit''
      split at hexit''
      · rw [hexit', hexit] at hexit''
        cases hexit''
      · next hzero =>
        rw [hcount] at hzero
        exact List.length_eq_zero_iff.mp (Nat.eq_zero_of_not_pos hzero)
    rwa [hnone, List.append_nil]
  · intro n hcalm
    by_cases hnone : s.delivered = []
    · refine .inl ?_
      rw [hs', if_neg (by rw [hcount, hnone]; exact Nat.lt_irrefl 0)]
    · obtain ⟨hpos, hcalm'⟩ := calm_readTransport hcalm hnone framing
      have hlt := hfollows.holds.length_lt
      refine .inr ⟨n - 1, ?_, ?_⟩
      · rw [hs', if_pos (by rw [hcount]; exact List.length_pos_iff.mpr hnone)]
        exact hcalm'
      · unfold rank
        unfold framingBufferSize at hlt
        split <;> omega

/-- A payload that is not complete reads the transport when there is no octet. -/
lemma turned_payload {src : UInt8} {msgLen : UInt16} {octets : List UInt8}
    (hcrc16 : framing.updateCrc = updateCrc)
    (h : Follows localAddr s (.payload src msgLen octets) queue) (hrv : s.rv = 0)
    (hexit : s.exitCond = false) (hstate : s.io.state = .readingPayload)
    (hlt : s.io.msgPos < s.io.msgLen) : ∃ taken queue' scan',
      Turned localAddr len s (.payload src msgLen octets) queue (s.stepDelivered framing len)
        (s.turn framing len) taken queue' scan' := by
  have hstep : s.step framing len = s.turn framing len :=
    if_neg (by rw [hexit]; exact Bool.false_ne_true)
  have hne : s.io.msgPos ≠ s.io.msgLen := fun heq => by
    rw [heq] at hlt
    exact UInt16.lt_irrefl _ hlt
  have hnext := h.holds.getNextOctet_eq
  have hturn : ∀ {found octet n}, nextOctet queue = (found, octet, n) →
      s.io.getNextOctet = (found, octet,
        { s.io with rbTail := FramingIO.advance s.io.rbTail n }) := by
    intro found octet n heq
    rw [hnext, heq]
  unfold FramedRead.stepDelivered
  rw [hstep]
  cases nextOctet_cases localAddr len queue with
  | octet octet n heq hpos hle hdecodes =>
    have htakes := takes_payload len hcrc16 h hrv hstate hlt octet
      ( FramingIO.advance s.io.rbTail n)
    have hs' : s.turn framing len =
        s.copyOctet framing ( FramingIO.advance s.io.rbTail n) octet := by
      unfold FramedRead.turn
      rw [hstate]
      dsimp only
      rw [if_pos hlt, hturn heq]
      rfl
    rw [hs', htakes.reads_eq, if_pos rfl]
    exact ⟨_, _, _, turned_take _ h hpos hle (hdecodes _ nofun) htakes.ring htakes.localAddr_eq
      htakes.mirrors htakes.message_eq htakes.exits htakes.callback_eq⟩
  | beginFlag n heq hpos hle hdecodes =>
    have hs' : s.turn framing len =
        s.goto { s.io with rbTail := FramingIO.advance s.io.rbTail n } .readingSrcAddr := by
      unfold FramedRead.turn
      rw [hstate]
      dsimp only
      rw [if_pos hlt, hturn heq]
      dsimp only
      rw [if_neg hne, if_pos rfl]
    have hmirrors : FrameScan.srcAddr.Mirrors (s.goto { s.io with
        rbTail := FramingIO.advance s.io.rbTail n } .readingSrcAddr).io s.buf := rfl
    have hreads : (s.goto { s.io with
        rbTail := FramingIO.advance s.io.rbTail n } .readingSrcAddr).reads = s.reads := rfl
    rw [hs', hreads, if_pos rfl]
    exact ⟨_, _, _, turned_take none h hpos hle (hdecodes _ nofun) ⟨rfl, rfl, rfl⟩
      h.localAddr_eq hmirrors (message_of_rv hrv) (fun hne => absurd hrv hne) rfl⟩
  | nothing heq hidle =>
    refine turned_read framing h hrv hexit hidle ?_
    unfold FramedRead.turn
    rw [hstate]
    dsimp only
    rw [if_pos hlt, hturn heq]
    dsimp only
    rw [if_neg hne, if_neg (by decide), h.holds.drop_zero]

/-! ## Calls -/

/-- A step of a call takes bytes as the decoder does. -/
theorem turned_step (len : ℕ) (hcrc16 : framing.updateCrc = updateCrc)
    (h : Follows localAddr s scan queue)
    (hrv : s.rv = 0) (hexit : s.exitCond = false) : ∃ taken queue' scan',
      Turned localAddr len s scan queue (s.stepDelivered framing len) (s.step framing len)
        taken queue'
        scan' := by
  have hstep : s.step framing len = s.turn framing len :=
    if_neg (by rw [hexit]; exact Bool.false_ne_true)
  have hsilent : ((s.turn framing len).reads = s.reads ∧ ∃ taken queue' scan',
      Turned localAddr len s scan queue [] (s.turn framing len) taken queue' scan') →
      ∃ taken queue' scan', Turned localAddr len s scan queue (s.stepDelivered framing len)
        (s.step framing len) taken queue' scan' := by
    rintro ⟨hreads, hturned⟩
    rwa [FramedRead.stepDelivered, hstep, hreads, if_pos rfl]
  cases scan with
  | hunt => exact hsilent (turned_hunt h hrv)
  | srcAddr => exact hsilent (turned_srcAddr h hrv)
  | dstAddr src => exact hsilent (turned_dstAddr h hrv)
  | lenLsb src => exact hsilent (turned_lenLsb h hrv)
  | lenMsb src lsb => exact hsilent (turned_lenMsb h hrv)
  | crcMsb src octets lsb => exact hsilent (turned_crcMsb h hrv)
  | payload src msgLen octets =>
    obtain ⟨-, hmsgLen, hle, -, -, hread⟩ := h.mirrors
    rcases hread with ⟨hstate, hpos⟩ | ⟨hstate, -⟩
    · by_cases hlt : s.io.msgPos < s.io.msgLen
      · rw [hstep]
        exact turned_payload hcrc16 h hrv hexit hstate hlt
      · have hend : s.io.msgPos = s.io.msgLen := by
          rw [UInt16.lt_iff_toNat_lt, hpos, hmsgLen] at hlt
          apply UInt16.toNat_inj.mp
          rw [hpos, hmsgLen]
          omega
        exact hsilent (turned_complete h hrv hexit hstate hend)
    · exact hsilent (turned_crcLsb h hrv hstate)

/-- A call takes bytes as the decoder does. -/
theorem takes_call (hcrc16 : framing.updateCrc = updateCrc) {call : FramedCall}
    (h : Follows localAddr call.start scan queue) (turns : ℕ) : ∃ taken queue' scan',
      Takes localAddr call.len scan (queue ++ call.delivered framing turns)
        (readFramedMsg framing call turns) taken queue' scan' := by
  induction turns with
  | zero =>
    have hfollows := follows_readTransport h framing
    obtain ⟨-, -, hrv⟩ := FramedRead.readTransport_frame framing call.start
    obtain ⟨-, -, hexit⟩ := readTransport_keeps framing call.start
    have hbytes : queue ++ call.delivered framing 0 = [] ++ (queue ++ call.start.delivered) := by
      rw [FramedCall.delivered, List.range_zero, List.flatMap_nil, List.append_nil, List.nil_append]
    have henter : readFramedMsg framing call 0 = FramedRead.enter framing call.start := rfl
    have hnone : (call.start.readTransport framing).1.rv = 0 := hrv
    refine ⟨[], queue ++ call.start.delivered, scan, ?_⟩
    rw [henter]
    unfold FramedRead.enter
    dsimp only
    split
    · refine ⟨hbytes, ?_, hfollows, fun hne => absurd hnone hne, fun hexit' => ?_⟩
      · rw [message_of_rv hnone]
        exact .nil _
      · rw [hexit] at hexit'
        cases hexit'
    · next hstop =>
      have hempty := hfollows.holds.head_eq_tail_iff.mp (not_not.mp (not_or.mp hstop).2).symm
      refine ⟨hbytes, ?_, ⟨hfollows.holds, hfollows.localAddr_eq, hfollows.mirrors⟩, fun _ => rfl,
        fun _ _ => .inl hempty⟩
      rw [message_of_rv (by exact hnone)]
      exact .nil _
  | succ turns ih =>
    obtain ⟨taken, queue', scan', htakes⟩ := ih
    have hnext : readFramedMsg framing call (turns + 1) =
        (readFramedMsg framing call turns).step framing call.len :=
      Function.iterate_succ_apply' _ _ _
    have hdelivered : call.delivered framing (turns + 1) = call.delivered framing turns ++
        (readFramedMsg framing call turns).stepDelivered framing call.len := by
      rw [FramedCall.delivered, FramedCall.delivered, List.range_succ, List.flatMap_append,
        List.append_assoc, List.flatMap_singleton]
    rw [hnext, hdelivered]
    by_cases hexit : (readFramedMsg framing call turns).exitCond = true
    · have hstep : (readFramedMsg framing call turns).step framing call.len =
          readFramedMsg framing call turns := if_pos hexit
      rw [FramedRead.stepDelivered, hstep, if_pos rfl, List.append_nil]
      exact ⟨taken, queue', scan', htakes⟩
    · -- the call goes on, and what the step takes is taken behind the rest
      have hrv : (readFramedMsg framing call turns).rv = 0 := by
        by_contra hne
        exact hexit (htakes.exits hne)
      have hdecodes := htakes.decodes
      rw [message_of_rv hrv, Option.toList_none] at hdecodes
      obtain ⟨taken₂, queue₂, scan₂, hturned⟩ := turned_step call.len hcrc16 htakes.follows
        hrv (Bool.eq_false_iff.mpr hexit)
      refine ⟨taken ++ taken₂, queue₂, scan₂, ?_, hdecodes.append hturned.decodes, hturned.follows,
        hturned.exits, fun hexit' hnil => ?_⟩
      · rw [← List.append_assoc, htakes.bytes_eq, List.append_assoc, hturned.bytes_eq,
          List.append_assoc]
      · exact hturned.idle hexit' (List.append_eq_nil_iff.mp hnil).2

/-- A call returns when there is less and less to do. -/
lemma exits_of_rank (hcrc16 : framing.updateCrc = updateCrc) (len bound : ℕ) {n : ℕ}
    (h : Follows localAddr s scan queue) (hrv : s.rv = 0) (hexit : s.exitCond = false)
    (hcalm : s.callback.Calm n) (hbound : rank n s queue ≤ bound) :
    ∃ turns, ((FramedRead.step framing len)^[turns] s).exitCond = true := by
  induction bound generalizing s scan queue n with
  | zero =>
    obtain ⟨taken, queue', scan', hturned⟩ := turned_step len hcrc16 h hrv hexit
    rcases hturned.ends n hcalm with hend | ⟨n', -, hlt⟩
    · exact ⟨1, hend⟩
    · omega
  | succ bound ih =>
    obtain ⟨taken, queue', scan', hturned⟩ := turned_step len hcrc16 h hrv hexit
    by_cases hexit' : (s.step framing len).exitCond = true
    · exact ⟨1, hexit'⟩
    · obtain ⟨n', hcalm', hlt⟩ := (hturned.ends n hcalm).resolve_left hexit'
      have hrv' : (s.step framing len).rv = 0 := by
        by_contra hne
        exact hexit' (hturned.exits hne)
      obtain ⟨turns, hend⟩ := ih hturned.follows hrv' (Bool.eq_false_iff.mpr hexit')
        hcalm' (by omega)
      exact ⟨turns + 1, hend⟩

/-- A call returns if its callback delivers nothing from some call on. -/
theorem call_returns (hcrc16 : framing.updateCrc = updateCrc) {call : FramedCall}
    (h : Follows localAddr call.start scan queue) {n : ℕ} (hcalm : call.callback.Calm n) :
    ∃ turns, (readFramedMsg framing call turns).exitCond = true := by
  have hfollows := follows_readTransport h framing
  obtain ⟨-, -, hrv⟩ := FramedRead.readTransport_frame framing call.start
  obtain ⟨-, -, hexit⟩ := readTransport_keeps framing call.start
  have henter : readFramedMsg framing call 0 = FramedRead.enter framing call.start := rfl
  unfold FramedRead.enter at henter
  dsimp only at henter
  split at henter
  · obtain ⟨turns, hend⟩ := exits_of_rank hcrc16 call.len _ hfollows hrv hexit
      (calm_readTransport_self hcalm framing) le_rfl
    refine ⟨turns, ?_⟩
    unfold readFramedMsg at henter ⊢
    rw [Function.iterate_zero, id] at henter
    rw [henter]
    exact hend
  · exact ⟨0, by rw [henter]⟩

end Turns

/-! ## Runs -/

/-- The call of a receiver. -/
def Receiver.framedCall (receiver : Receiver) (e : ReceiverCall) : FramedCall :=
  ⟨receiver.io, receiver.buf, e.len, e.remoteAddr, e.timeout, e.callback, e.clock⟩

/-- A receiver, with the bytes that were delivered to it and the messages that it has returned. -/
structure FramedRun where
  receiver : Receiver
  delivered : List UInt8
  returned : List FrameMessage

namespace FramedRun

/-- The receiver was initialised, and nothing has arrived. -/
def Init (localAddr : UInt8) (r : FramedRun) : Prop :=
  ∃ io buf, r = ⟨⟨ uxrInitFramingIO io localAddr, buf⟩, [], []⟩ ∨
    r = ⟨⟨framingIOCreate localAddr, buf⟩, [], []⟩

/-- A call. -/
def step (framing : Framing) (r : FramedRun) (e : ReceiverCall) : FramedRun where
  receiver := r.receiver.step framing e
  delivered := r.delivered ++ (r.receiver.framedCall e).delivered framing e.turns
  returned := r.returned ++ (r.receiver.call framing e).message.toList

/-- Calls are made with the same buffer, and return. -/
def Admitted (framing : Framing) (len : ℕ) (r : FramedRun) (e : ReceiverCall) : Prop :=
  e.len = len ∧ r.receiver.Returns framing e

/-- What was delivered and not read yet. -/
def unread (r : FramedRun) : List UInt8 := r.receiver.io.contents

/-- A line is received: what was returned is the start of what is received of it; when all of it has
arrived and no octet is left, that is all; a call takes bytes as long as an octet is left; and it
returns if the line falls silent. -/
structure LineReceived (framing : Framing) (localAddr : UInt8) (len : ℕ) (noise : List UInt8)
    (sent : List (FrameMessage × List UInt8)) (r : FramedRun) : Prop where
  prefixed : ∃ more, ReceivedFrames localAddr noise sent (r.returned ++ more)
  complete : r.delivered = wire localAddr noise sent → r.unread = [] ∨ r.unread = [framingEscFlag] →
    ReceivedFrames localAddr noise sent r.returned
  advances : ∀ e, Admitted framing len r e →
    (step framing r e).unread = [] ∨ (step framing r e).unread = [framingEscFlag] ∨
      (step framing r e).unread.length <
        (r.unread ++ (r.receiver.framedCall e).delivered framing e.turns).length
  returns : ∀ (e : ReceiverCall) n, e.callback.Calm n →
    ∃ turns, r.receiver.Returns framing { e with turns := turns }

/-- From where the decoder started, what was delivered was taken as it takes it, or is in the
ring. -/
structure Invariant (localAddr : UInt8) (len : ℕ) (start : FrameScan) (r : FramedRun)
    (taken : List UInt8) (scan : FrameScan) : Prop where
  delivered_eq : r.delivered = taken ++ r.unread
  decodes : Decodes (FrameScan.feed localAddr len) (start, false) taken (scan, false) r.returned
  holds : r.receiver.io.Queue r.unread
  localAddr_eq : r.receiver.io.localAddr = localAddr
  mirrors : scan.Mirrors r.receiver.io r.receiver.buf

/-- A run, with bytes that were delivered before it. -/
def behind (before : List UInt8) (r : FramedRun) : FramedRun :=
  { r with delivered := before ++ r.delivered }

variable {framing : Framing} {localAddr : UInt8} {len : ℕ} {r : FramedRun} {taken : List UInt8}
  {start scan : FrameScan}

namespace Invariant

/-- At the start of a call the machine follows the decoder. -/
lemma follows_start (h : Invariant localAddr len start r taken scan) (e : ReceiverCall) :
    Follows localAddr (r.receiver.framedCall e).start scan r.unread :=
  ⟨h.holds, h.localAddr_eq, h.mirrors⟩

/-- A call takes bytes, and leaves the rest in the ring. -/
lemma call (hcrc16 : framing.updateCrc = updateCrc) (h : Invariant localAddr len start r taken scan)
    {e : ReceiverCall} (hadmitted : Admitted framing len r e) : ∃ taken' scan',
      r.unread ++ (r.receiver.framedCall e).delivered framing e.turns =
          taken' ++ (FramedRun.step framing r e).unread ∧
        (taken' = [] → (FramedRun.step framing r e).unread = [] ∨
          (FramedRun.step framing r e).unread = [framingEscFlag]) ∧
        Invariant localAddr len start (FramedRun.step framing r e) (taken ++ taken') scan' := by
  obtain ⟨rfl, hreturns⟩ := hadmitted
  obtain ⟨taken', queue', scan', htakes⟩ := takes_call hcrc16 (h.follows_start e) e.turns
  have hunread : (FramedRun.step framing r e).unread = queue' := htakes.follows.holds.contents_eq
  refine ⟨taken', scan', ?_, fun hnil => ?_, ?_⟩
  · rw [htakes.bytes_eq, hunread]
  · rw [hunread]
    exact htakes.idle hreturns hnil
  · refine ⟨?_, h.decodes.append htakes.decodes, hunread ▸ htakes.follows.holds,
      htakes.follows.localAddr_eq, htakes.follows.mirrors⟩
    have hdelivered : (FramedRun.step framing r e).delivered =
        r.delivered ++ (r.receiver.framedCall e).delivered framing e.turns := rfl
    rw [hdelivered, h.delivered_eq, List.append_assoc, htakes.bytes_eq, hunread, List.append_assoc]

/-- A line that is delivered to a decoder that was reading a frame is received, with what it had
read of the frame before it. -/
lemma lineReceived (hcrc16 : framing.updateCrc = updateCrc)
    (h : Invariant localAddr len start r taken scan) {begun : List UInt8}
    (hbegun : FrameScan.Behind localAddr (start, false) begun) {noise : List UInt8}
    {sent : List (FrameMessage × List UInt8)} (hfits : ∀ x ∈ sent, x.1.Fits len)
    (hline : r.delivered <+: wire localAddr noise sent) :
    (r.behind begun).LineReceived framing localAddr len (begun ++ noise) sent := by
  have hall : ReceivedFrames localAddr (begun ++ noise) sent
      (messages (FrameScan.feed localAddr len) (start, false) (wire localAddr noise sent)) :=
    FrameScan.received_wire hfits hbegun noise
  have htaken : taken <+: wire localAddr noise sent :=
    (h.delivered_eq ▸ List.prefix_append taken r.unread : taken <+: r.delivered).trans hline
  refine ⟨?_, fun hwhole hidle => ?_, fun e hadmitted => ?_, fun e n hcalm => ?_⟩
  · have hprefix : messages (FrameScan.feed localAddr len) _ _ <+: _ :=
      messages_prefix (start, false) htaken
    rw [h.decodes.messages_eq] at hprefix
    obtain ⟨more, hmore⟩ := hprefix
    exact ⟨more, hmore ▸ hall⟩
  · have hdelivered : r.delivered = wire localAddr noise sent := by
      have hcut : begun ++ r.delivered = begun ++ wire localAddr noise sent :=
        hwhole.trans (List.append_assoc _ _ _)
      exact List.append_cancel_left hcut
    -- an escape flag alone says nothing
    have hrest : messages (FrameScan.feed localAddr len) (scan, false) r.unread = [] := by
      rcases hidle with hnil | hesc
      · have hunread : r.unread = [] := hnil
        rw [hunread, messages_nil]
      · have hunread : r.unread = [framingEscFlag] := hesc
        rw [hunread]
        by_cases hscan : scan = .hunt
        · rw [hscan]
          rfl
        · exact (Decodes.single (FrameScan.feed_esc hscan)).messages_eq
    rw [← hdelivered, h.delivered_eq, messages_append, h.decodes.messages_eq, h.decodes.after_eq,
      hrest, List.append_nil] at hall
    exact hall
  · obtain ⟨taken', scan', hbytes, hidle, -⟩ := h.call hcrc16 hadmitted
    by_cases hnil : taken' = []
    · exact (hidle hnil).imp_right .inl
    · refine .inr (.inr ?_)
      have hpos := List.length_pos_iff.mpr hnil
      change (FramedRun.step framing r e).unread.length <
        (r.unread ++ (r.receiver.framedCall e).delivered framing e.turns).length
      rw [hbytes, List.length_append]
      omega
  · have hcalm' : (r.receiver.framedCall e).callback.Calm n := hcalm
    obtain ⟨turns, hend⟩ := call_returns hcrc16 (h.follows_start e) hcalm'
    exact ⟨turns, hend⟩

end Invariant

/-- The invariant holds in every state that is reached. -/
lemma invariant_of_reaches (hcrc16 : framing.updateCrc = updateCrc)
    (hrun : Transition.Reaches (Init localAddr) (step framing) (Admitted framing len) r) :
    ∃ taken scan, Invariant localAddr len .hunt r taken scan := by
  refine hrun.invariant (I := fun r => ∃ taken scan, Invariant localAddr len .hunt r taken scan)
    ?_ ?_
  · rintro _ ⟨io, buf, rfl | rfl⟩
    · have hqueue := FramingIO.queue_start
        { io with localAddr := localAddr, state := .uninitialized }
      have hunread : unread ⟨⟨ uxrInitFramingIO io localAddr, buf⟩, [], []⟩ =
        [] := hqueue.contents_eq
      exact ⟨[], .hunt, by rw [hunread]; rfl, .nil _, by rw [hunread]; exact hqueue, rfl, rfl⟩
    · have hqueue := FramingIO.queue_start (framingIOCreate localAddr)
      have hunread : unread ⟨⟨framingIOCreate localAddr, buf⟩, [], []⟩ = [] := hqueue.contents_eq
      exact ⟨[], .hunt, by rw [hunread]; rfl, .nil _, by rw [hunread]; exact hqueue, rfl, rfl⟩
  · rintro s e ⟨taken, scan, h⟩ hadmitted
    obtain ⟨taken', scan', -, -, h'⟩ := h.call hcrc16 hadmitted
    exact ⟨_, _, h'⟩

end FramedRun

/-- Both receivers receive every line of frames and noise, whatever the pieces are in which it
arrives: the message of every frame is returned once, unaltered, in order and with its source
address, and what is returned besides lies in the noise, with a checksum that is right. -/
theorem framed_line_received {framing : Framing}
    (hframing : framing = clientFraming ∨ framing = agentFraming) {localAddr : UInt8} {len : ℕ}
    {r : FramedRun} (hrun : Transition.Reaches (FramedRun.Init localAddr) (FramedRun.step framing)
      (FramedRun.Admitted framing len) r)
    {noise : List UInt8} {sent : List (FrameMessage × List UInt8)}
    (hfits : ∀ x ∈ sent, x.1.Fits len) (hline : r.delivered <+: wire localAddr noise sent) :
    r.LineReceived framing localAddr len noise sent := by
  have hcrc16 : framing.updateCrc = updateCrc := by
    rcases hframing with rfl | rfl
    · rfl
    · exact framingIOUpdateCrc_eq
  obtain ⟨taken, scan, h⟩ := FramedRun.invariant_of_reaches hcrc16 hrun
  have hbegun : FrameScan.Behind localAddr (.hunt, false) [] := .inl rfl
  exact h.lineReceived hcrc16 hbegun hfits hline

/-- A message with a begin flag, from an address that is an escape flag. -/
def escapedMessage : FrameMessage := ⟨framingEscFlag, [framingBeginFlag, 5]⟩

/-- A call to which bytes are delivered, and then nothing. -/
def lineCall (bytes : List UInt8) : ReceiverCall where
  len := 4
  remoteAddr := 0
  timeout := 10
  callback i := ⟨if i = 0 then bytes else [], 0⟩
  clock := 0
  turns := 13

/-- The message between two escape flags. -/
def escapedLine : List UInt8 :=
  wire framingBeginFlag [framingEscFlag] [(escapedMessage, [framingEscFlag])]

/-- The line arrives in two pieces. -/
def escapedRun : FramedRun :=
  [lineCall (escapedLine.take 7), lineCall (escapedLine.drop 7)].foldl
    (FramedRun.step clientFraming) ⟨⟨framingIOCreate framingBeginFlag, fun _ => 0⟩, [], []⟩

/-- The message is received. -/
theorem framed_line_received_escaped :
    ReceivedFrames framingBeginFlag [framingEscFlag] [(escapedMessage, [framingEscFlag])]
      escapedRun.returned := by
  have hstart : Transition.Reaches (FramedRun.Init framingBeginFlag) (FramedRun.step clientFraming)
      (FramedRun.Admitted clientFraming 4)
      ⟨⟨framingIOCreate framingBeginFlag, fun _ => 0⟩, [], []⟩ :=
    .start ⟨framingIOCreate 0, _, .inr rfl⟩
  have hdelivered : escapedRun.delivered = escapedLine := by decide
  have hfits : ∀ x ∈ [(escapedMessage, [framingEscFlag])], x.1.Fits 4 := by
    intro x hx
    obtain rfl := List.mem_singleton.mp hx
    exact ⟨by decide, by decide, by decide⟩
  refine (framed_line_received (.inl rfl)
    ((hstart.next (e := lineCall (escapedLine.take 7)) ⟨rfl, ?_⟩).next
      (e := lineCall (escapedLine.drop 7)) ⟨rfl, ?_⟩)
    hfits (hdelivered ▸ List.prefix_rfl)).complete hdelivered (.inr ?_)
  · unfold Receiver.Returns
    decide
  · unfold Receiver.Returns
    decide
  · decide

end XrceDds
