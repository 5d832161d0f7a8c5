import XrceDds.Lib.RingBuffer
import XrceDds.Lib.Transition
import XrceDds.Transport.FramedRead

/-!
# The ring of framed reading

The 42 bytes of `rb` are a queue: a read of the transport appends what the read callback delivers,
and `uxr_get_next_octet` and the search for a begin flag drop bytes at its front.  A run is any
sequence of these steps; it remembers the bytes that were delivered and how far the tail has moved,
and the ring always holds the rest (`framingRing_fifo`).

The state machine that reads a message makes no other steps (`ringReached_readFramedMsg`).
-/

namespace XrceDds

open ByteMemory RingBuffer Transition

/-- `uxr_init_framing_io`. -/
def uxrInitFramingIO (io : FramingIO) (localAddr : UInt8) : FramingIO :=
  { io with localAddr := localAddr, state := .uninitialized, rbHead := 0, rbTail := 0 }

/-- `FramingIO::FramingIO`. -/
def framingIOCreate (localAddr : UInt8) : FramingIO :=
  ⟨.uninitialized, localAddr, fun _ => 0, 0, 0, 0, 0, 0, 0, 0⟩

namespace FramingIO

/-- One round of the search for a begin flag, which takes bytes as they are. -/
def scanOctet (io : FramingIO) : FramingIO :=
  if io.rbHead ≠ io.rbTail then { io with rbTail := advance io.rbTail 1 } else io

/-- The bytes between the tail and the head. -/
def contents (io : FramingIO) : List UInt8 :=
  cellsFrom framingBufferSize io.rb io.rbTail.toNat
    ((io.rbHead.toNat + framingBufferSize - io.rbTail.toNat) % framingBufferSize)

/-- How far the tail moves from one state to another. -/
def taken (io io' : FramingIO) : ℕ :=
  (io'.rbTail.toNat + framingBufferSize - io.rbTail.toNat) % framingBufferSize

/-- Two states with the same ring. -/
def SameRing (io io' : FramingIO) : Prop :=
  io'.rb = io.rb ∧ io'.rbHead = io.rbHead ∧ io'.rbTail = io.rbTail

/-- The ring holds a queue. -/
def Queue (io : FramingIO) (queue : List UInt8) : Prop :=
  RingBuffer.Holds framingBufferSize io.rb io.rbHead.toNat io.rbTail.toNat queue

end FramingIO

/-- The next octet of a queue of bytes: whether there is one, the octet, and the number of bytes
that it takes. -/
def nextOctet : List UInt8 → Bool × UInt8 × ℕ
  | [] => (false, 0, 0)
  | byte :: rest =>
    if framingEscFlag ≠ byte then (decide (framingBeginFlag ≠ byte), byte, 1)
    else
      match rest with
      | [] => (false, 0, 0)
      | octet :: _ =>
        if framingBeginFlag ≠ octet then (true, octet ^^^ framingXorFlag, 2) else (false, octet, 2)

/-- The bytes that the read callback delivers to two free pieces of the ring. -/
def FramedRead.deliveredTo (s : FramedRead) (available available' : UInt8) : List UInt8 :=
  let first := (s.callback 0).bytes.take available.toNat
  if 0 < first.length ∧ first.length = available.toNat ∧ 0 < available' then
    first ++ (s.callback 1).bytes.take available'.toNat
  else first

/-- The ring has room for the two pieces, one behind the head and, when that one reaches the end of
the ring, another from its start on. -/
structure FramingIO.Offers (io : FramingIO) (queue : List UInt8) (available available' : UInt8) :
    Prop where
  holds : io.Queue queue
  piece_le : io.rbHead.toNat + available.toNat ≤ 42
  free : queue.length + available.toNat < 42
  around : 0 < available' → io.rbHead.toNat + available.toNat = 42
  free_around : queue.length + available.toNat + available'.toNat < 42

/-- The bytes that the read callback delivers to a read of the transport. -/
def FramedRead.delivered (s : FramedRead) : List UInt8 :=
  s.deliveredTo s.io.availableLength.2.1 s.io.availableLength.2.2

/-! ## The next octet of a queue -/

/-- A byte that is not escaped. -/
lemma nextOctet_of_ne {byte : UInt8} (rest : List UInt8) (hesc : framingEscFlag ≠ byte) :
    nextOctet (byte :: rest) = (decide (framingBeginFlag ≠ byte), byte, 1) := by
  unfold nextOctet
  exact if_pos hesc

/-- An escaped byte. -/
lemma nextOctet_esc (octet : UInt8) (rest : List UInt8) :
    nextOctet (framingEscFlag :: octet :: rest) =
      if framingBeginFlag ≠ octet then (true, octet ^^^ framingXorFlag, 2)
      else (false, octet, 2) := rfl

/-- An octet takes bytes that are there, and at most two. -/
lemma nextOctet_taken_le (queue : List UInt8) :
    (nextOctet queue).2.2 ≤ queue.length ∧ (nextOctet queue).2.2 ≤ 2 := by
  fun_cases nextOctet queue <;> simp

/-- Without an octet nothing is taken, unless a begin flag was met. -/
lemma nextOctet_taken_of_false {queue : List UInt8} (hfalse : (nextOctet queue).1 = false)
    (hflag : framingBeginFlag ≠ (nextOctet queue).2.1) : (nextOctet queue).2.2 = 0 := by
  revert hfalse hflag
  fun_cases nextOctet queue <;> simp_all

/-! ## The indices -/

namespace FramingIO

/-- An index goes round the end of the ring. -/
@[simp] lemma toNat_advance (index : UInt8) (n : ℕ) :
    (advance index n).toNat = (index.toNat + n) % framingBufferSize := by
  have hlt : (index.toNat + n) % framingBufferSize < 42 := Nat.mod_lt _ (by decide)
  exact UInt8.toNat_ofNat_of_lt (Nat.lt_trans hlt (by decide))

variable {io io' : FramingIO} {queue : List UInt8}

/-- A queue is what lies between the tail and the head. -/
lemma Queue.contents_eq (h : io.Queue queue) : io.contents = queue := by
  unfold contents
  rw [← h.length_eq]
  exact h.queue_eq.symm

/-- A ring with equal indices holds nothing. -/
lemma Queue.head_eq_tail_iff (h : io.Queue queue) : io.rbHead = io.rbTail ↔ queue = [] := by
  rw [← UInt8.toNat_inj]
  exact RingBuffer.Holds.head_eq_tail_iff h

/-- The tail moves over bytes of the queue. -/
lemma Queue.drop (h : io.Queue queue) {n : ℕ} (hn : n ≤ queue.length) :
    Queue { io with rbTail := advance io.rbTail n } (queue.drop n) := by
  unfold Queue
  rw [toNat_advance]
  exact RingBuffer.Holds.drop h hn

/-- The tail has moved as far as it was moved. -/
lemma taken_advance (io : FramingIO) {n : ℕ} (htail : io.rbTail.toNat < 42) (hn : n < 42) :
    io.taken { io with rbTail := advance io.rbTail n } = n := by
  unfold taken
  rw [toNat_advance]
  unfold framingBufferSize
  omega

/-- Bytes are stored behind the head. -/
lemma Queue.store (h : io.Queue queue) {bytes : List UInt8}
    (hpiece : io.rbHead.toNat + bytes.length ≤ 42) (hfree : queue.length + bytes.length < 42) :
    (io.store bytes).Queue (queue ++ bytes) := by
  unfold Queue FramingIO.store
  rw [toNat_advance]
  refine RingBuffer.Holds.append h hpiece hfree (fun x hx => ?_)
    (fun i hi => write_apply_add _ _ hi)
  rcases hx with hlt | hge
  · exact write_apply_of_lt _ _ hlt
  · exact write_apply_of_le _ hge

/-! ## The next octet -/

/-- The byte at the tail is the first of the queue. -/
lemma Queue.byte_eq {byte : UInt8} {rest : List UInt8} (h : io.Queue (byte :: rest)) :
    io.rb io.rbTail.toNat = byte := by
  have hcell := RingBuffer.Holds.cell_eq h (i := 0) (Nat.succ_pos _)
  rwa [Nat.add_zero, Nat.mod_eq_of_lt h.tail_lt] at hcell

/-- The byte behind the tail is the second of the queue. -/
lemma Queue.second_eq {byte octet : UInt8} {rest : List UInt8}
    (h : io.Queue (byte :: octet :: rest)) :
    io.rb (advance io.rbTail 1).toNat = octet := by
  rw [toNat_advance]
  exact RingBuffer.Holds.cell_eq h (i := 1) (by simp)

/-- Moving the tail by nothing. -/
lemma Queue.drop_zero (h : io.Queue queue) :
    { io with rbTail := advance io.rbTail 0 } = io := by
  have htail : advance io.rbTail 0 = io.rbTail := by
    rw [← UInt8.toNat_inj, toNat_advance]
    exact Nat.mod_eq_of_lt h.tail_lt
  rw [htail]

/-- The search for a begin flag takes a byte, if there is one. -/
lemma Queue.scanOctet_eq (h : io.Queue queue) :
    io.scanOctet = { io with rbTail := advance io.rbTail (queue.take 1).length } := by
  have hempty := h.head_eq_tail_iff
  unfold scanOctet
  match queue with
  | [] =>
    rw [if_neg (not_not.mpr (hempty.mpr rfl))]
    exact h.drop_zero.symm
  | byte :: rest =>
    rw [if_pos (fun heq => List.cons_ne_nil _ _ (hempty.mp heq))]
    rfl

/-- The byte behind the tail is not there when the first is the only one. -/
lemma Queue.tempTail_eq_head_iff {byte : UInt8} {rest : List UInt8} (h : io.Queue (byte :: rest)) :
    advance io.rbTail 1 = io.rbHead ↔ rest = [] := by
  have hdrop := h.drop (n := 1) (by simp)
  exact eq_comm.trans hdrop.head_eq_tail_iff

/-- `uxr_get_next_octet` decodes the front of the queue. -/
theorem Queue.getNextOctet_eq (h : io.Queue queue) :
    io.getNextOctet = ((nextOctet queue).1, (nextOctet queue).2.1,
      { io with rbTail := advance io.rbTail (nextOctet queue).2.2 }) := by
  have hempty := h.head_eq_tail_iff
  match queue with
  | [] =>
    unfold getNextOctet
    rw [if_neg (not_not.mpr (hempty.mpr rfl))]
    exact congrArg (fun io => (false, 0, io)) h.drop_zero.symm
  | byte :: rest =>
    have hbyte := h.byte_eq
    have htemp := h.tempTail_eq_head_iff
    unfold getNextOctet
    rw [if_pos (fun heq => List.cons_ne_nil _ _ (hempty.mp heq)), hbyte]
    rcases eq_or_ne framingEscFlag byte with rfl | hesc
    · match rest with
      | [] =>
        dsimp only
        rw [if_neg (not_not.mpr rfl), if_neg (not_not.mpr (htemp.mpr rfl))]
        exact congrArg (fun io => (false, 0, io)) h.drop_zero.symm
      | octet :: _ =>
        have hoctet := h.second_eq
        dsimp only
        rw [if_neg (not_not.mpr rfl), if_pos (fun heq => List.cons_ne_nil _ _ (htemp.mp heq)),
          hoctet, nextOctet_esc]
        split <;> rfl
    · rw [if_pos hesc, nextOctet_of_ne rest hesc]

end FramingIO

/-! ## Reads of the transport -/

namespace FramingIO

variable {io : FramingIO} {queue : List UInt8}

/-- The difference of two lengths. -/
lemma toNat_sub_of_toNat_le {a b : UInt8} (h : b.toNat ≤ a.toNat) :
    (a - b).toNat = a.toNat - b.toNat :=
  UInt8.toNat_sub_of_le a b (UInt8.le_iff_toNat_le.mpr h)

/-- A single piece. -/
lemma Queue.offers_single (h : io.Queue queue) {available : UInt8}
    (hpiece : io.rbHead.toNat + available.toNat ≤ 42)
    (hfree : queue.length + available.toNat < 42) : io.Offers queue available 0 where
  holds := h
  piece_le := hpiece
  free := hfree
  around hlt := absurd hlt (by decide)
  free_around := hfree

/-- An empty ring starts anew. -/
lemma queue_start (io : FramingIO) : Queue { io with rbHead := 0, rbTail := 0 } [] :=
  RingBuffer.Holds.empty io.rb (show 0 < framingBufferSize by decide)

/-- The pieces that are offered are free. -/
theorem Queue.availableLength (h : io.Queue queue) :
    io.availableLength.1.Offers queue io.availableLength.2.1 io.availableLength.2.2 := by
  have hempty := h.head_eq_tail_iff
  have hcases := RingBuffer.Holds.head_cases h
  have htail : io.rbTail.toNat < 42 := h.tail_lt
  have hhead : io.rbHead.toNat < 42 := RingBuffer.Holds.head_lt h
  have hlength : queue.length < 42 := h.length_lt
  have hsize : (UInt8.ofNat framingBufferSize).toNat = 42 := rfl
  have hone : (1 : UInt8).toNat = 1 := rfl
  have hzero : (0 : UInt8).toNat = 0 := rfl
  unfold framingBufferSize at hcases
  unfold FramingIO.availableLength
  split
  · next heq =>
    have hnil := hempty.mp heq
    subst hnil
    exact (queue_start io).offers_single (show 41 ≤ 42 by decide) (show 41 < 42 by decide)
  · next hne =>
    have hne' := mt UInt8.toNat_inj.mp hne
    have hend : (UInt8.ofNat framingBufferSize - io.rbHead).toNat = 42 - io.rbHead.toNat :=
      toNat_sub_of_toNat_le (by omega)
    split
    · next hlt =>
      have hlt' := UInt8.lt_iff_toNat_lt.mp hlt
      split
      · next hpos =>
        have hpos' := UInt8.lt_iff_toNat_lt.mp hpos
        have hstart : (io.rbTail - 1).toNat = io.rbTail.toNat - 1 :=
          toNat_sub_of_toNat_le (by omega)
        exact ⟨h, by dsimp only; omega, by dsimp only; omega, fun _ => by dsimp only; omega,
          by dsimp only; omega⟩
      · next hnot =>
        have hnot' := mt UInt8.lt_iff_toNat_lt.mpr hnot
        have hless : (UInt8.ofNat framingBufferSize - io.rbHead - 1).toNat
            = 42 - io.rbHead.toNat - 1 := by
          rw [toNat_sub_of_toNat_le (by omega), hend, hone]
        exact h.offers_single (by dsimp only; omega) (by dsimp only; omega)
    · next hge =>
      have hge' := mt UInt8.lt_iff_toNat_lt.mpr hge
      have hgap : (io.rbTail - io.rbHead).toNat = io.rbTail.toNat - io.rbHead.toNat :=
        toNat_sub_of_toNat_le (by omega)
      have hless : (io.rbTail - io.rbHead - 1).toNat = io.rbTail.toNat - io.rbHead.toNat - 1 := by
        rw [toNat_sub_of_toNat_le (by omega), hgap, hone]
      exact h.offers_single (by dsimp only; omega) (by dsimp only; omega)

end FramingIO

namespace FramedRead

variable {s : FramedRead} {queue : List UInt8} {available available' : UInt8}

/-- A call of the read callback appends what it delivers. -/
lemma queue_readCb (h : s.io.Queue queue) (hpiece : s.io.rbHead.toNat + available.toNat ≤ 42)
    (hfree : queue.length + available.toNat < 42) (timeout : ℤ) :
    (s.readCb available timeout).1.io.Queue
      (queue ++ (s.callback 0).bytes.take available.toNat) := by
  have hlength := List.length_take_le available.toNat (s.callback 0).bytes
  exact h.store (by omega) (by omega)

/-- The second call goes on at the start of the ring. -/
lemma queue_readCb_around (h : s.io.Offers queue available available') (hlt : 0 < available')
    (hfull : ((s.callback 0).bytes.take available.toNat).length = available.toNat) (timeout : ℤ) :
    ((s.readCb available timeout).1.readCb available' 0).1.io.Queue
      (queue ++ ((s.callback 0).bytes.take available.toNat ++
        (s.callback 1).bytes.take available'.toNat)) := by
  have haround := h.around hlt
  have hfree := h.free_around
  have hfirst := queue_readCb h.holds h.piece_le h.free timeout
  have hhead : (s.readCb available timeout).1.io.rbHead.toNat = 0 := by
    have hstore : (s.readCb available timeout).1.io.rbHead.toNat =
        (s.io.rbHead.toNat + ((s.callback 0).bytes.take available.toNat).length) % 42 :=
      FramingIO.toNat_advance _ _
    rw [hstore, hfull, haround]
  rw [← List.append_assoc]
  refine queue_readCb (s := (s.readCb available timeout).1) hfirst ?_ ?_ 0
  · omega
  · rw [List.length_append, hfull]
    exact hfree

/-- The calls of the read callback append what they deliver. -/
theorem queue_readPieces (h : s.io.Offers queue available available') :
    (s.readPieces available available').1.io.Queue (queue ++ s.deliveredTo available available') ∧
      (s.readPieces available available').2 = (s.deliveredTo available available').length := by
  have hfirst := queue_readCb h.holds h.piece_le h.free s.timeout
  have hcount : (s.readCb available s.timeout).2.2 =
      ((s.callback 0).bytes.take available.toNat).length := rfl
  unfold readPieces deliveredTo
  dsimp only
  rw [hcount]
  split
  · split
    · next hfull => exact ⟨queue_readCb_around h hfull.2.2 hfull.2.1 _, List.length_append.symm⟩
    · exact ⟨hfirst, rfl⟩
  · next hnot =>
    -- Nothing is offered, and so nothing is delivered.
    have hzero : available.toNat = 0 := by
      have hle := mt UInt8.lt_iff_toNat_lt.mpr hnot
      exact Nat.eq_zero_of_not_pos hle
    rw [hzero, List.take_zero, if_neg (fun hpos => absurd hpos.1 (by simp)), List.append_nil]
    exact ⟨h.holds, rfl⟩

/-- A read of the transport appends what the read callback delivers. -/
theorem queue_readTransport (framing : Framing) (h : s.io.Queue queue) :
    (s.readTransport framing).1.io.Queue (queue ++ s.delivered) ∧
      (s.readTransport framing).2 = s.delivered.length :=
  queue_readPieces (s := { s with io := s.io.availableLength.1 }) h.availableLength

end FramedRead

/-! ## Runs -/

/-- A ring, with the bytes that were delivered to it and the number of them that were consumed. -/
structure RingRun where
  io : FramingIO
  delivered : List UInt8
  consumed : ℕ

/-- What happens to a ring: a call that reads the transport, with its locals and the callback; an
octet that is taken; a round of the search for a begin flag; and assignments to the fields that are
not of the ring. -/
inductive RingEvent where
  | readTransport (caller : FramedRead)
  | getNextOctet
  | scanOctet
  | assign (io : FramingIO)

namespace RingRun

/-- The ring is initialized. -/
def Init (s : RingRun) : Prop :=
  (∃ io localAddr, s.io = uxrInitFramingIO io localAddr ∨ s.io = framingIOCreate localAddr) ∧
    s.delivered = [] ∧ s.consumed = 0

/-- The assigned fields leave the ring as it is. -/
def Admitted (s : RingRun) : RingEvent → Prop
  | .assign io => s.io.SameRing io
  | _ => True

/-- The tail moves. -/
def moveTail (s : RingRun) (io : FramingIO) : RingRun :=
  { s with io := io, consumed := s.consumed + s.io.taken io }

/-- An event. -/
def step (framing : Framing) (s : RingRun) : RingEvent → RingRun
  | .readTransport caller =>
    let call := { caller with io := s.io }
    { s with io := (call.readTransport framing).1.io, delivered := s.delivered ++ call.delivered }
  | .getNextOctet => s.moveTail s.io.getNextOctet.2.2
  | .scanOctet => s.moveTail s.io.scanOctet
  | .assign io => { s with io := io }

/-- The ring is a queue of what was delivered and not consumed: what it holds, what its indices say,
what a read of the transport adds, and what an octet is made of and takes. -/
structure Fifo (framing : Framing) (s : RingRun) : Prop where
  contents : s.io.contents = s.delivered.drop s.consumed
  consumed_le : s.consumed ≤ s.delivered.length
  head_lt : s.io.rbHead.toNat < framingBufferSize
  tail_lt : s.io.rbTail.toNat < framingBufferSize
  head_eq_tail_iff : s.io.rbHead = s.io.rbTail ↔ s.consumed = s.delivered.length
  read : ∀ caller : FramedRead,
    (({ caller with io := s.io } : FramedRead).readTransport framing).1.io.contents =
      s.io.contents ++ ({ caller with io := s.io } : FramedRead).delivered
  read_length : ∀ caller : FramedRead,
    (({ caller with io := s.io } : FramedRead).readTransport framing).2 =
      ({ caller with io := s.io } : FramedRead).delivered.length
  octet : s.io.getNextOctet.1 = (nextOctet s.io.contents).1 ∧
    s.io.getNextOctet.2.1 = (nextOctet s.io.contents).2.1
  octet_contents : s.io.getNextOctet.2.2.contents =
    s.io.contents.drop (nextOctet s.io.contents).2.2
  scan_contents : s.io.scanOctet.contents = s.io.contents.drop 1
  octet_failed : s.io.getNextOctet.1 = false → framingBeginFlag ≠ s.io.getNextOctet.2.1 →
    s.io.getNextOctet.2.2 = s.io

/-- The ring holds what was delivered and not consumed. -/
structure Invariant (s : RingRun) : Prop where
  queue : s.io.Queue (s.delivered.drop s.consumed)
  consumed_le : s.consumed ≤ s.delivered.length

variable {framing : Framing} {s : RingRun}

/-- An initialized ring is empty. -/
lemma Init.invariant (h : s.Init) : s.Invariant := by
  obtain ⟨⟨io, localAddr, hio⟩, hdelivered, hconsumed⟩ := h
  have hqueue : s.io.Queue [] := by
    rcases hio with hio | hio <;> rw [hio]
    · exact RingBuffer.Holds.empty io.rb (show 0 < framingBufferSize by decide)
    · exact RingBuffer.Holds.empty _ (show 0 < framingBufferSize by decide)
  refine ⟨?_, by rw [hconsumed]; exact Nat.zero_le _⟩
  rw [hdelivered, List.drop_nil]
  exact hqueue

/-- The tail moves over some of the bytes. -/
lemma Invariant.moveTail (h : s.Invariant) {n : ℕ} (hn : n < 42)
    (hle : n ≤ (s.delivered.drop s.consumed).length) :
    (s.moveTail { s.io with rbTail := FramingIO.advance s.io.rbTail n }).Invariant := by
  have htaken := FramingIO.taken_advance s.io h.queue.tail_lt hn
  have hconsumed := h.consumed_le
  rw [List.length_drop] at hle
  refine ⟨?_, ?_⟩
  · unfold RingRun.moveTail
    dsimp only
    rw [htaken, ← List.drop_drop]
    exact h.queue.drop (by rw [List.length_drop]; exact hle)
  · unfold RingRun.moveTail
    dsimp only
    rw [htaken]
    omega

/-- No event loses or invents a byte. -/
theorem Invariant.step (h : s.Invariant) (framing : Framing) {e : RingEvent} (he : s.Admitted e) :
    (s.step framing e).Invariant := by
  cases e with
  | readTransport caller =>
    have hread := FramedRead.queue_readTransport (s := { caller with io := s.io }) framing h.queue
    refine ⟨?_, ?_⟩
    · unfold RingRun.step
      dsimp only
      rw [List.drop_append_of_le_length h.consumed_le]
      exact hread.1
    · unfold RingRun.step
      dsimp only
      rw [List.length_append]
      exact Nat.le_add_right_of_le h.consumed_le
  | getNextOctet =>
    have htaken := nextOctet_taken_le (s.delivered.drop s.consumed)
    unfold RingRun.step
    dsimp only
    rw [h.queue.getNextOctet_eq]
    exact h.moveTail (by omega) htaken.1
  | scanOctet =>
    have htaken := List.length_take_le 1 (s.delivered.drop s.consumed)
    unfold RingRun.step
    dsimp only
    rw [h.queue.scanOctet_eq]
    exact h.moveTail (by omega) (List.length_take_le' 1 _)
  | assign io =>
    obtain ⟨hrb, hhead, htail⟩ := he
    refine ⟨?_, h.consumed_le⟩
    unfold RingRun.step FramingIO.Queue
    dsimp only
    rw [hrb, hhead, htail]
    exact h.queue

/-- The queue of the invariant is a faithful one. -/
lemma Invariant.fifo (h : s.Invariant) (framing : Framing) : s.Fifo framing := by
  have hcontents := h.queue.contents_eq
  have hoctet := h.queue.getNextOctet_eq
  have htaken := nextOctet_taken_le (s.delivered.drop s.consumed)
  refine
    { contents := hcontents
      consumed_le := h.consumed_le
      head_lt := RingBuffer.Holds.head_lt h.queue
      tail_lt := h.queue.tail_lt
      head_eq_tail_iff := ?_
      read := fun caller => ?_
      read_length := fun caller => ?_
      octet := ?_
      octet_contents := ?_
      scan_contents := ?_
      octet_failed := ?_ }
  · rw [h.queue.head_eq_tail_iff, List.drop_eq_nil_iff]
    exact ⟨fun hle => Nat.le_antisymm h.consumed_le hle, fun heq => Nat.le_of_eq heq.symm⟩
  · rw [hcontents]
    exact (FramedRead.queue_readTransport (s := { caller with io := s.io }) framing
      h.queue).1.contents_eq
  · exact (FramedRead.queue_readTransport (s := { caller with io := s.io }) framing h.queue).2
  · rw [hcontents, hoctet]
    exact ⟨rfl, rfl⟩
  · rw [hcontents, hoctet]
    exact (h.queue.drop htaken.1).contents_eq
  · rw [hcontents, h.queue.scanOctet_eq, (h.queue.drop (List.length_take_le' 1 _)).contents_eq]
    cases s.delivered.drop s.consumed <;> rfl
  · rw [hoctet]
    intro hfalse hflag
    dsimp only
    rw [nextOctet_taken_of_false hfalse hflag]
    exact h.queue.drop_zero

end RingRun

/-- The ring of both programs is a faithful queue along every run. -/
theorem framingRing_fifo (framing : Framing) {s : RingRun}
    (hrun : Reaches RingRun.Init (RingRun.step framing) RingRun.Admitted s) : s.Fifo framing :=
  (hrun.invariant (I := RingRun.Invariant) (fun _ hs => hs.invariant)
    (fun _ _ hs he => hs.step framing he)).fifo framing

/-- A callback that delivers as many bytes as it is offered. -/
def plenty : FramedRead where
  io := framingIOCreate 0
  buf := fun _ => 0
  remoteAddr := 0
  timeout := 0
  rv := 0
  exitCond := false
  callback := fun _ => ⟨List.replicate 41 framingEscFlag, 0⟩
  clock := 0
  reads := []

/-- The ring is filled, three octets and a byte are taken, and it is filled again around its
end. -/
theorem framingRing_fifo_plenty :
    ∃ s : RingRun, s.io.rbHead = 6 ∧ s.io.rbTail = 7 ∧ s.consumed = 7 ∧ s.Fifo clientFraming :=
  have hstart : Reaches RingRun.Init (RingRun.step clientFraming) RingRun.Admitted
      ⟨framingIOCreate 0, [], 0⟩ := .start ⟨⟨framingIOCreate 0, 0, .inr rfl⟩, rfl, rfl⟩
  ⟨_, by decide, by decide, by decide, framingRing_fifo clientFraming
    (hstart.foldl [.readTransport plenty, .getNextOctet, .getNextOctet, .getNextOctet, .scanOctet,
      .readTransport plenty] ⟨trivial, trivial, trivial, trivial, trivial, trivial, trivial⟩)⟩

/-! ## The state machine -/

/-- A state of the ring that a run leads to. -/
def RingReached (framing : Framing) (io : FramingIO) : Prop :=
  ∃ r : RingRun, Reaches RingRun.Init (RingRun.step framing) RingRun.Admitted r ∧ r.io = io

namespace RingReached

variable {framing : Framing} {io io' : FramingIO} {s : FramedRead}

/-- Other fields are assigned. -/
lemma assign (h : RingReached framing io) (hsame : io.SameRing io') : RingReached framing io' := by
  obtain ⟨r, hrun, rfl⟩ := h
  have hassign : r.Admitted (.assign io') := hsame
  exact ⟨_, hrun.next hassign, rfl⟩

/-- An octet is taken. -/
lemma getNextOctet (h : RingReached framing io) : RingReached framing io.getNextOctet.2.2 := by
  obtain ⟨r, hrun, rfl⟩ := h
  have hoctet : r.Admitted .getNextOctet := trivial
  exact ⟨_, hrun.next hoctet, rfl⟩

/-- A begin flag is searched for. -/
lemma scanOctet (h : RingReached framing io) : RingReached framing io.scanOctet := by
  obtain ⟨r, hrun, rfl⟩ := h
  have hscan : r.Admitted .scanOctet := trivial
  exact ⟨_, hrun.next hscan, rfl⟩

/-- The transport is read. -/
lemma readTransport (h : RingReached framing s.io) :
    RingReached framing (s.readTransport framing).1.io := by
  obtain ⟨r, hrun, hio⟩ := h
  have hread : r.Admitted (.readTransport s) := trivial
  refine ⟨_, hrun.next hread, ?_⟩
  unfold RingRun.step
  dsimp only
  rw [hio]

/-- The machine goes on. -/
lemma goto (h : RingReached framing io) (state : FramingInputState) :
    RingReached framing (s.goto io state).io := h.assign ⟨rfl, rfl, rfl⟩

/-- A state that needs the next octet. -/
lemma withOctet (h : RingReached framing s.io) {f : UInt8 → FramingIO → FramedRead}
    (hf : ∀ octet io, RingReached framing io → RingReached framing (f octet io).io) :
    RingReached framing (s.withOctet f).io := by
  have hoctet := h.getNextOctet
  unfold FramedRead.withOctet
  split
  · next heq =>
    rw [heq] at hoctet
    exact hf _ _ hoctet
  · next heq =>
    rw [heq] at hoctet
    split
    · exact hoctet.goto _
    · exact hoctet

/-- A turn of the machine makes steps of a run. -/
theorem turn (h : RingReached framing s.io) (len : ℕ) :
    RingReached framing (s.turn framing len).io := by
  have hoctet := h.getNextOctet
  unfold FramedRead.turn
  split
  · -- `uninitialized`
    split
    · next hne =>
      have hscan := h.scanOctet
      unfold FramingIO.scanOctet at hscan
      rw [if_pos hne] at hscan
      dsimp only
      split
      · exact hscan.goto _
      · exact hscan
    · exact h
  · -- `readingSrcAddr`
    split
    · next heq =>
      rw [heq] at hoctet
      exact hoctet.assign ⟨rfl, rfl, rfl⟩
    · next heq =>
      rw [heq] at hoctet
      exact hoctet.assign ⟨rfl, rfl, rfl⟩
  · exact h.withOctet fun _ _ hio => hio.goto _
  · exact h.withOctet fun _ _ hio => hio.assign ⟨rfl, rfl, rfl⟩
  · -- `readingLenMsb`
    refine h.withOctet fun _ _ hio => ?_
    dsimp only
    split
    · exact hio.assign ⟨rfl, rfl, rfl⟩
    · exact hio.assign ⟨rfl, rfl, rfl⟩
  · -- `readingPayload`
    have hnext : RingReached framing
        (if s.io.msgPos < s.io.msgLen then s.io.getNextOctet else (false, 0, s.io)).2.2 := by
      split
      · exact hoctet
      · exact h
    split
    · next heq =>
      rw [heq] at hnext
      exact hnext.assign ⟨rfl, rfl, rfl⟩
    · next io heq =>
      rw [heq] at hnext
      split
      · exact hnext.goto _
      · split
        · exact hnext.goto _
        · have hread : RingReached framing ({ s with io := io } : FramedRead).io := hnext
          dsimp only
          split
          · exact hread.readTransport
          · exact hread.readTransport
  · exact h.withOctet fun _ _ hio => hio.assign ⟨rfl, rfl, rfl⟩
  · -- `readingCrcMsb`
    refine h.withOctet fun _ _ hio => ?_
    dsimp only
    split
    · exact hio.assign ⟨rfl, rfl, rfl⟩
    · exact hio.assign ⟨rfl, rfl, rfl⟩

end RingReached

/-- Along a call that reads a message, the ring is that of a run. -/
theorem ringReached_readFramedMsg {framing : Framing} {call : FramedCall}
    (h : RingReached framing call.io) (turns : ℕ) :
    RingReached framing (readFramedMsg framing call turns).io := by
  unfold readFramedMsg
  induction turns with
  | zero =>
    have hstart : RingReached framing (FramedRead.io ⟨call.io, call.buf, call.remoteAddr,
        call.timeout, 0, false, call.callback, call.clock, []⟩) := h
    unfold FramedRead.enter
    dsimp only [Function.iterate_zero, id]
    split
    · exact hstart.readTransport
    · exact hstart.readTransport
  | succ turns ih =>
    rw [Function.iterate_succ_apply']
    unfold FramedRead.step
    split
    · exact ih
    · exact ih.turn call.len

end XrceDds
