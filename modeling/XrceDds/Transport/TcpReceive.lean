import Mathlib.Data.List.Infix
import XrceDds.Transport.TcpSend

/-!
# Receiving messages over TCP

`read_tcp_data` of the client and `TCPServerBase::read_data` of the Agent go through the same
five states.  They differ in the buffer: the Agent resizes it to the announced length
(`tcpServerBase`), and the client has an array of `UXR_CONFIG_TCP_TRANSPORT_MTU` bytes, with
which it never compares the announced length (`tcpTransport`).

What was read so far is always a number of whole messages and the beginning of one more, which
the state describes (`TcpInput.unfinished`), and the non-empty ones among the whole messages were
returned (`Received`).
-/

namespace XrceDds

/-- What the receive calls yield: a number of bytes, or what is asked for or what is there when
that is less.  Zero is a call without data. -/
abbrev RecvAnswers := ℕ → ℕ

/-- The answers behind the first one. -/
def RecvAnswers.next (answers : RecvAnswers) : RecvAnswers := fun i => answers (i + 1)

/-- `uxrTCPInputBufferState` and `TCPInputBufferState`. -/
inductive TcpInputBufferState where
  | bufferEmpty
  | sizeIncomplete
  | sizeRead
  | messageIncomplete
  | messageAvailable
  deriving DecidableEq, Repr

/-- The input buffer of a connection, with the bytes that are still to be received and the
answers of the receive calls. -/
structure TcpInput where
  buffer : List UInt8
  position : ℕ
  state : TcpInputBufferState
  msgSize : ℕ
  rest : List UInt8
  answers : RecvAnswers

/-- What a receive call yields when it asks for `len` bytes. -/
def TcpInput.received (c : TcpInput) (len : ℕ) : List UInt8 :=
  c.rest.take (min (c.answers 0) len)

/-- The connection behind a receive call that asks for `len` bytes. -/
def TcpInput.afterRecv (c : TcpInput) (len : ℕ) : TcpInput :=
  { c with rest := c.rest.drop (min (c.answers 0) len), answers := c.answers.next }

/-- What the two programs do with the buffer: its resizing for a message of a length, and the
number of bytes that they ask for, of the buffer and the length. -/
structure TcpReader where
  resize : List UInt8 → ℕ → List UInt8
  size : List UInt8 → ℕ → ℕ

/-- The client's `read_tcp_data`. -/
def tcpTransport : TcpReader where
  resize buffer _ := buffer
  size _ msgSize := msgSize

/-- The Agent's `TCPServerBase::read_data`. -/
def tcpServerBase : TcpReader where
  resize buffer msgSize := buffer.take msgSize ++ List.replicate (msgSize - buffer.length) 0
  size buffer _ := buffer.length

/-- A store of bytes in a buffer, unless it goes beyond the end. -/
def storeBytes (buffer : List UInt8) (pos : ℕ) (bytes : List UInt8) : Option (List UInt8) :=
  if pos + bytes.length ≤ buffer.length then
    some (buffer.take pos ++ bytes ++ buffer.drop (pos + bytes.length))
  else none

/-- Why a call has no result: a store beyond the end of the buffer, or a loop that did not end
within the steps it was given. -/
inductive TcpFault where
  | beyond
  | unfinished
  deriving DecidableEq, Repr

/-- What a round of the loop leads to: another round, or the end of the call with a result. -/
inductive TcpRound where
  | again (c : TcpInput)
  | exit (rv : ℕ) (c : TcpInput)

/-- The state behind a length. -/
def stateOfSize (msgSize : ℕ) : TcpInputBufferState :=
  if msgSize ≠ 0 then .sizeRead else .bufferEmpty

/-- A round of the loop. -/
def tcpRound (r : TcpReader) (c : TcpInput) : Except TcpFault TcpRound :=
  match c.state with
  | .bufferEmpty =>
    let c' := { c.afterRecv 2 with position := 0 }
    match c.received 2 with
    | [] => .ok (.exit 0 c')
    | [lsb] => .ok (.again { c' with msgSize := lsb.toNat, state := .sizeIncomplete })
    | lsb :: msb :: _ =>
      let msgSize := msb.toNat * 256 + lsb.toNat
      .ok (.again { c' with msgSize := msgSize, state := stateOfSize msgSize })
  | .sizeIncomplete =>
    let c' := c.afterRecv 1
    match c.received 1 with
    | [] => .ok (.exit 0 c')
    | msb :: _ =>
      let msgSize := msb.toNat * 256 + c.msgSize
      .ok (.again { c' with msgSize := msgSize, state := stateOfSize msgSize })
  | .sizeRead =>
    let buffer := r.resize c.buffer c.msgSize
    let len := r.size buffer c.msgSize
    let bytes := c.received len
    let c' := { c.afterRecv len with buffer := buffer }
    if bytes = [] then .ok (.exit 0 c')
    else
      match storeBytes buffer 0 bytes with
      | none => .error .beyond
      | some buffer =>
        if bytes.length = c.msgSize then
          .ok (.again { c' with buffer := buffer, state := .messageAvailable })
        else
          .ok (.exit 0
            { c' with buffer := buffer, position := bytes.length, state := .messageIncomplete })
  | .messageIncomplete =>
    let len := r.size c.buffer c.msgSize - c.position
    let bytes := c.received len
    let c' := c.afterRecv len
    if bytes = [] then .ok (.exit 0 c')
    else
      match storeBytes c.buffer c.position bytes with
      | none => .error .beyond
      | some buffer =>
        let position := c.position + bytes.length
        if position = c.msgSize then
          .ok (.again
            { c' with buffer := buffer, position := position, state := .messageAvailable })
        else .ok (.exit 0 { c' with buffer := buffer, position := position })
  | .messageAvailable => .ok (.exit c.msgSize { c with state := .bufferEmpty })

/-- The loop of a call, for at most `fuel` rounds: its result and the connection behind it. -/
def tcpLoop (r : TcpReader) : ℕ → TcpInput → Except TcpFault (ℕ × TcpInput)
  | 0, _ => .error .unfinished
  | fuel + 1, c =>
    match tcpRound r c with
    | .error e => .error e
    | .ok (.again c) => tcpLoop r fuel c
    | .ok (.exit rv c) => .ok (rv, c)

/-- `read_tcp_data` and `TCPServerBase::read_data`.  Every round but the last reads a byte. -/
def readData (r : TcpReader) (c : TcpInput) : Except TcpFault (ℕ × TcpInput) :=
  tcpLoop r (c.rest.length + 1) c

/-- The message that a call hands over: `recv_tcp_msg` and `recv_message` take the buffer when
the result is not zero. -/
def handedOver (rv : ℕ) (c : TcpInput) : List (List UInt8) :=
  if 0 < rv then [c.buffer.take rv] else []

/-- Successive calls: the messages that they hand over, and the connection behind them. -/
def readAll (r : TcpReader) : ℕ → TcpInput → Except TcpFault (List (List UInt8) × TcpInput)
  | 0, c => .ok ([], c)
  | n + 1, c =>
    match readData r c with
    | .error e => .error e
    | .ok (rv, c) =>
      match readAll r n c with
      | .error e => .error e
      | .ok (out, c') => .ok (handedOver rv c ++ out, c')

/-- A new connection. -/
def TcpInput.init (buffer stream : List UInt8) (answers : RecvAnswers) : TcpInput where
  buffer := buffer
  position := 0
  state := .bufferEmpty
  msgSize := 0
  rest := stream
  answers := answers

/-! ## Streams of messages -/

/-- A message that the two bytes of the length can announce. -/
abbrev TcpMessage := { msg : List UInt8 // msg.length ≤ 65535 }

/-- A message behind its length. -/
def tcpFramed (msg : TcpMessage) : List UInt8 := msgSizeBuf msg.1.length ++ msg.1

/-- Messages one after another. -/
def tcpStream (msgs : List TcpMessage) : List UInt8 := msgs.flatMap tcpFramed

/-- The messages that are not empty. -/
def nonEmpty (msgs : List TcpMessage) : List (List UInt8) :=
  (msgs.map Subtype.val).filter (· ≠ [])

/-- There is always another call with data. -/
def RecvAnswers.Fair (answers : RecvAnswers) : Prop := ∀ k, ∃ i, k ≤ i ∧ 0 < answers i

/-- The messages are handed over in order, all of them once the stream is read, and the stream is
read when there is always another call with data. -/
structure ReceivesExactly (r : TcpReader) (buffer : List UInt8) (msgs : List TcpMessage)
    (answers : RecvAnswers) : Prop where
  inOrder : ∀ n, ∃ out c, readAll r n (.init buffer (tcpStream msgs) answers) = .ok (out, c) ∧
    out <+: nonEmpty msgs ∧ (c.rest = [] → out = nonEmpty msgs)
  all : answers.Fair → ∃ n c,
    readAll r n (.init buffer (tcpStream msgs) answers) = .ok (nonEmpty msgs, c) ∧ c.rest = []

/-- However much of a message is there, it fits in the buffer, whose length is `bufferLength` of
the announced one. -/
def FitsBuffer (bufferLength : ℕ → ℕ) (bytes : List UInt8) : Prop :=
  ∀ (msgs : List TcpMessage) (lsb msb : UInt8) (rest : List UInt8),
    bytes = tcpStream msgs ++ lsb :: msb :: rest →
      min (msb.toNat * 256 + lsb.toNat) rest.length ≤
        bufferLength (msb.toNat * 256 + lsb.toNat)

/-! ## Streams -/

theorem msgSizeBuf_of_bytes (lsb msb : UInt8) :
    msgSizeBuf (msb.toNat * 256 + lsb.toNat) = [lsb, msb] := by
  have hlsb := lsb.toNat_lt
  have hmsb := msb.toNat_lt
  unfold msgSizeBuf
  congr 1
  · apply UInt8.toNat_inj.1
    rw [UInt8.toNat_ofNat']
    omega
  · congr 1
    apply UInt8.toNat_inj.1
    rw [UInt8.toNat_ofNat']
    omega

/-- The two bytes of a length are those that a reader puts together. -/
theorem exists_bytes_of_size {n : ℕ} (hn : n ≤ 65535) :
    ∃ lsb msb : UInt8, msgSizeBuf n = [lsb, msb] ∧ msb.toNat * 256 + lsb.toNat = n := by
  refine ⟨UInt8.ofNat n, UInt8.ofNat (n / 256), rfl, ?_⟩
  rw [UInt8.toNat_ofNat', UInt8.toNat_ofNat']
  omega

@[simp]
theorem tcpStream_nil : tcpStream [] = [] := rfl

theorem tcpStream_cons (msg : TcpMessage) (msgs : List TcpMessage) :
    tcpStream (msg :: msgs) = msgSizeBuf msg.1.length ++ (msg.1 ++ tcpStream msgs) := by
  rw [tcpStream, List.flatMap_cons, tcpFramed, List.append_assoc]
  rfl

theorem tcpStream_append (msgs msgs' : List TcpMessage) :
    tcpStream (msgs ++ msgs') = tcpStream msgs ++ tcpStream msgs' := List.flatMap_append

theorem nonEmpty_append (msgs msgs' : List TcpMessage) :
    nonEmpty (msgs ++ msgs') = nonEmpty msgs ++ nonEmpty msgs' := by
  rw [nonEmpty, List.map_append, List.filter_append]
  rfl

theorem nonEmpty_singleton {msg : TcpMessage} (h : msg.1 ≠ []) : nonEmpty [msg] = [msg.1] := by
  simp [nonEmpty, h]

/-- Two streams that begin with a message begin with the same one. -/
theorem tcpStream_cons_inj {msg msg' : TcpMessage} {bytes bytes' : List UInt8}
    (h : msgSizeBuf msg.1.length ++ (msg.1 ++ bytes) =
      msgSizeBuf msg'.1.length ++ (msg'.1 ++ bytes')) : msg = msg' ∧ bytes = bytes' := by
  obtain ⟨lsb, msb, hbuf, hsize⟩ := exists_bytes_of_size msg.2
  obtain ⟨lsb', msb', hbuf', hsize'⟩ := exists_bytes_of_size msg'.2
  rw [hbuf, hbuf'] at h
  simp only [List.cons_append, List.nil_append, List.cons.injEq] at h
  obtain ⟨rfl, rfl, h⟩ := h
  obtain ⟨hmsg, hbytes⟩ := List.append_inj h (hsize.symm.trans hsize')
  exact ⟨Subtype.ext hmsg, hbytes⟩

/-- The beginning of a message that is not there as a whole. -/
def Unfinished (bytes : List UInt8) : Prop :=
  ∀ lsb msb rest, bytes = lsb :: msb :: rest → rest.length < msb.toNat * 256 + lsb.toNat

theorem not_unfinished_cons (msg : TcpMessage) (msgs : List TcpMessage) (bytes : List UInt8) :
    ¬ Unfinished (tcpStream (msg :: msgs) ++ bytes) := by
  intro h
  obtain ⟨lsb, msb, hbuf, hsize⟩ := exists_bytes_of_size msg.2
  rw [tcpStream_cons, hbuf] at h
  have hlt := h lsb msb (msg.1 ++ tcpStream msgs ++ bytes) rfl
  rw [List.append_assoc, List.length_append] at hlt
  omega

/-- The messages at the beginning of a stream are the first ones of it. -/
theorem tcpStream_prefix {msgs msgs' : List TcpMessage} {bytes : List UInt8}
    (h : tcpStream msgs ++ bytes = tcpStream msgs') :
    ∃ msgs₁, msgs' = msgs ++ msgs₁ ∧ bytes = tcpStream msgs₁ := by
  induction msgs generalizing msgs' with
  | nil => exact ⟨msgs', rfl, h⟩
  | cons msg msgs ih =>
    cases msgs' with
    | nil => rw [tcpStream_cons] at h; cases h
    | cons msg' msgs' =>
      rw [tcpStream_cons, tcpStream_cons, List.append_assoc, List.append_assoc] at h
      obtain ⟨rfl, h'⟩ := tcpStream_cons_inj h
      obtain ⟨msgs₁, rfl, hbytes⟩ := ih h'
      exact ⟨msgs₁, rfl, hbytes⟩

/-- Whole messages that fit, and an unfinished one that fits, are a stream that fits. -/
theorem fitsBuffer_of_messages {bufferLength : ℕ → ℕ} {msgs : List TcpMessage}
    {bytes : List UInt8} (hmsgs : ∀ msg ∈ msgs, msg.1.length ≤ bufferLength msg.1.length)
    (hunf : Unfinished bytes)
    (hbytes : ∀ lsb msb rest, bytes = lsb :: msb :: rest →
      rest.length ≤ bufferLength (msb.toNat * 256 + lsb.toNat)) :
    FitsBuffer bufferLength (tcpStream msgs ++ bytes) := by
  intro msgs' lsb msb rest h
  induction msgs' generalizing msgs with
  | nil =>
    cases msgs with
    | nil => exact (Nat.min_le_right _ _).trans (hbytes lsb msb rest h)
    | cons msg msgs =>
      obtain ⟨lsb', msb', hbuf, hsize⟩ := exists_bytes_of_size msg.2
      rw [tcpStream_cons, hbuf] at h
      simp only [List.cons_append, List.nil_append, tcpStream_nil, List.cons.injEq] at h
      obtain ⟨rfl, rfl, -⟩ := h
      have hle := hmsgs msg List.mem_cons_self
      rw [← hsize] at hle
      exact (Nat.min_le_left _ _).trans hle
  | cons msg' msgs' ih =>
    cases msgs with
    | nil =>
      rw [tcpStream_nil, List.nil_append] at h
      rw [h] at hunf
      exact (not_unfinished_cons msg' msgs' _ hunf).elim
    | cons msg msgs =>
      rw [tcpStream_cons, tcpStream_cons, List.append_assoc, List.append_assoc,
        List.append_assoc, List.append_assoc] at h
      obtain ⟨rfl, h'⟩ := tcpStream_cons_inj h
      exact ih (fun msg hmem => hmsgs msg (List.mem_cons_of_mem _ hmem)) h'

theorem fitsBuffer_tcpStream_iff {bufferLength : ℕ → ℕ} {msgs : List TcpMessage} :
    FitsBuffer bufferLength (tcpStream msgs) ↔
      ∀ msg ∈ msgs, msg.1.length ≤ bufferLength msg.1.length := by
  constructor
  · intro h msg hmem
    obtain ⟨before, after, rfl⟩ := List.append_of_mem hmem
    obtain ⟨lsb, msb, hbuf, hsize⟩ := exists_bytes_of_size msg.2
    have hle := h before lsb msb (msg.1 ++ tcpStream after)
      (by rw [tcpStream_append, tcpStream_cons, hbuf]; rfl)
    rw [hsize, List.length_append, Nat.min_eq_left (Nat.le_add_right _ _)] at hle
    exact hle
  · intro h
    rw [← List.append_nil (tcpStream msgs)]
    refine fitsBuffer_of_messages h ?_ ?_
    · intro lsb msb rest hnil
      cases hnil
    · intro lsb msb rest hnil
      cases hnil

/-! ## The state of a connection -/

/-- What was read of the message that is not complete. -/
def TcpInput.unfinished (c : TcpInput) : List UInt8 :=
  match c.state with
  | .bufferEmpty => []
  | .sizeIncomplete => [UInt8.ofNat c.msgSize]
  | .sizeRead => msgSizeBuf c.msgSize
  | .messageIncomplete => msgSizeBuf c.msgSize ++ c.buffer.take c.position
  | .messageAvailable => msgSizeBuf c.msgSize ++ c.buffer.take c.msgSize

/-- The size and the position fit the state. -/
def TcpInput.WellFormed (bufferLength : ℕ → ℕ) (c : TcpInput) : Prop :=
  match c.state with
  | .bufferEmpty => True
  | .sizeIncomplete => c.msgSize < 256
  | .sizeRead => 0 < c.msgSize ∧ c.msgSize ≤ 65535
  | .messageIncomplete =>
    c.msgSize ≤ 65535 ∧ c.position < c.msgSize ∧ c.position ≤ c.buffer.length ∧
      c.buffer.length = bufferLength c.msgSize
  | .messageAvailable =>
    0 < c.msgSize ∧ c.msgSize ≤ 65535 ∧ c.msgSize ≤ c.buffer.length ∧
      c.buffer.length = bufferLength c.msgSize

/-- A reader whose buffer has a length that depends on that of the message. -/
structure TcpReader.Lawful (r : TcpReader) (bufferLength : ℕ → ℕ) : Prop where
  keeps : ∀ (buffer : List UInt8) (n : ℕ), buffer.length = bufferLength n →
    ∀ k, (r.resize buffer k).length = bufferLength k
  size : ∀ (buffer : List UInt8) (n : ℕ), buffer.length = bufferLength n → r.size buffer n = n

/-- The bytes that were received and those to come are the bytes `bytes`, and `out` was handed
over. -/
structure Received (r : TcpReader) (bufferLength : ℕ → ℕ) (bytes : List UInt8)
    (out : List (List UInt8)) (c : TcpInput) : Prop where
  messages : ∃ msgs, out = nonEmpty msgs ∧
    (∀ msg ∈ msgs, msg.1.length ≤ bufferLength msg.1.length) ∧
    bytes = tcpStream msgs ++ (c.unfinished ++ c.rest)
  wellFormed : c.WellFormed bufferLength
  resizes : ∀ n, (r.resize c.buffer n).length = bufferLength n

theorem TcpInput.received_append (c : TcpInput) (len : ℕ) :
    c.received len ++ (c.afterRecv len).rest = c.rest := List.take_append_drop _ _

theorem TcpInput.length_received_le (c : TcpInput) (len : ℕ) : (c.received len).length ≤ len := by
  rw [TcpInput.received, List.length_take]
  omega

theorem TcpInput.length_received (c : TcpInput) (len : ℕ) :
    (c.afterRecv len).rest.length + (c.received len).length = c.rest.length := by
  have h := congrArg List.length (c.received_append len)
  rw [List.length_append] at h
  omega

theorem TcpInput.answers_pos {c : TcpInput} {len : ℕ} (h : c.received len ≠ []) :
    0 < c.answers 0 := by
  by_contra hzero
  have heq : c.answers 0 = 0 := by omega
  exact h (by rw [TcpInput.received, heq, Nat.zero_min, List.take_zero])

theorem TcpInput.received_ne_nil {c : TcpInput} {len : ℕ} (hlen : 0 < len)
    (hpos : 0 < c.answers 0) (hrest : c.rest ≠ []) : c.received len ≠ [] := by
  have hrest' := List.length_pos_iff.2 hrest
  apply List.length_pos_iff.1
  rw [TcpInput.received, List.length_take]
  omega

theorem storeBytes_some {buffer bytes buffer' : List UInt8} {pos : ℕ}
    (h : storeBytes buffer pos bytes = some buffer') :
    pos + bytes.length ≤ buffer.length ∧ buffer'.length = buffer.length ∧
      buffer'.take (pos + bytes.length) = buffer.take pos ++ bytes := by
  unfold storeBytes at h
  split at h
  · rename_i hle
    obtain rfl := Option.some.inj h
    have hlen : (buffer.take pos ++ bytes).length = pos + bytes.length := by
      rw [List.length_append, List.length_take]
      omega
    refine ⟨hle, ?_, ?_⟩
    · rw [List.length_append, hlen, List.length_drop]
      omega
    · rw [← hlen, List.take_left]
  · cases h

theorem storeBytes_none {buffer bytes : List UInt8} {pos : ℕ}
    (h : storeBytes buffer pos bytes = none) : buffer.length < pos + bytes.length := by
  unfold storeBytes at h
  split at h
  · cases h
  · omega

/-! ## A round -/

section round

variable {r : TcpReader} {bufferLength : ℕ → ℕ} {bytes : List UInt8} {out : List (List UInt8)}
  {c : TcpInput}

/-- A step that moves bytes into the message that is not complete. -/
theorem Received.move (h : Received r bufferLength bytes out c) {c' : TcpInput}
    (hmove : c'.unfinished ++ c'.rest = c.unfinished ++ c.rest)
    (hwf : c'.WellFormed bufferLength)
    (hres : ∀ n, (r.resize c'.buffer n).length = bufferLength n) :
    Received r bufferLength bytes out c' := by
  obtain ⟨msgs, hout, hfit, hbytes⟩ := h.messages
  exact ⟨⟨msgs, hout, hfit, by rw [hmove]; exact hbytes⟩, hwf, hres⟩

/-- A message is complete. -/
theorem Received.complete (h : Received r bufferLength bytes out c) {c' : TcpInput}
    (msg : TcpMessage) (hfits : msg.1.length ≤ bufferLength msg.1.length)
    (hstate : c'.state = .bufferEmpty)
    (hmove : msgSizeBuf msg.1.length ++ (msg.1 ++ c'.rest) = c.unfinished ++ c.rest)
    (hres : ∀ n, (r.resize c'.buffer n).length = bufferLength n) :
    Received r bufferLength bytes (out ++ nonEmpty [msg]) c' := by
  obtain ⟨msgs, hout, hfit, hbytes⟩ := h.messages
  refine ⟨⟨msgs ++ [msg], ?_, ?_, ?_⟩, ?_, hres⟩
  · rw [nonEmpty_append, hout]
  · intro msg' hmem
    cases List.mem_append.1 hmem with
    | inl hmem => exact hfit msg' hmem
    | inr hmem => rw [List.mem_singleton.1 hmem]; exact hfits
  · have hunf : c'.unfinished = [] := by rw [TcpInput.unfinished, hstate]
    rw [tcpStream_append, tcpStream_cons, tcpStream_nil, hunf, List.append_nil, List.nil_append,
      hbytes, ← hmove, List.append_assoc, List.append_assoc]
  · rw [TcpInput.WellFormed, hstate]
    trivial

/-- The two bytes of a length are there. -/
theorem Received.size (h : Received r bufferLength bytes out c) {c' : TcpInput} {n : ℕ}
    (hn : n ≤ 65535) (hstate : c'.state = stateOfSize n) (hsize : c'.msgSize = n)
    (hmove : msgSizeBuf n ++ c'.rest = c.unfinished ++ c.rest)
    (hres : ∀ n, (r.resize c'.buffer n).length = bufferLength n) :
    Received r bufferLength bytes out c' := by
  unfold stateOfSize at hstate
  split at hstate
  · refine h.move ?_ ?_ hres
    · rw [TcpInput.unfinished, hstate, hsize]
      exact hmove
    · rw [TcpInput.WellFormed, hstate, hsize]
      exact ⟨by omega, hn⟩
  · rename_i hzero
    obtain rfl : n = 0 := not_not.1 hzero
    have hcomplete := h.complete ⟨[], Nat.zero_le _⟩ (Nat.zero_le _) hstate hmove hres
    rwa [show nonEmpty [⟨[], Nat.zero_le _⟩] = [] from rfl, List.append_nil] at hcomplete

/-- What a round can lead to. -/
inductive RoundOutcome (r : TcpReader) (bufferLength : ℕ → ℕ) (bytes : List UInt8)
    (out : List (List UInt8)) (c : TcpInput) : Except TcpFault TcpRound → Prop
  | beyond : ¬ FitsBuffer bufferLength bytes → RoundOutcome r bufferLength bytes out c
      (.error .beyond)
  | again {c' : TcpInput} : Received r bufferLength bytes out c' → 0 < c.answers 0 →
      c'.answers = c.answers.next → c'.rest.length < c.rest.length →
      RoundOutcome r bufferLength bytes out c (.ok (.again c'))
  | waits {c' : TcpInput} : Received r bufferLength bytes out c' →
      c'.state ≠ .messageAvailable → c'.answers = c.answers.next →
      c'.rest.length ≤ c.rest.length →
      (0 < c.answers 0 → c.rest ≠ [] → c'.rest.length < c.rest.length) →
      RoundOutcome r bufferLength bytes out c (.ok (.exit 0 c'))
  | message {rv : ℕ} {c' : TcpInput} :
      Received r bufferLength bytes (out ++ handedOver rv c') c' →
      c.state = .messageAvailable → c'.state ≠ .messageAvailable → c'.rest = c.rest →
      c'.answers = c.answers → RoundOutcome r bufferLength bytes out c (.ok (.exit rv c'))

/-- A receive call without data. -/
theorem RoundOutcome.of_nil (h : Received r bufferLength bytes out c) {c' : TcpInput} {len : ℕ}
    (hlen : 0 < len) (hnil : c.received len = []) (hrest : c'.rest = (c.afterRecv len).rest)
    (hunf : c'.unfinished = c.unfinished) (hwf : c'.WellFormed bufferLength)
    (hanswers : c'.answers = c.answers.next) (hstate : c'.state ≠ .messageAvailable)
    (hres : ∀ n, (r.resize c'.buffer n).length = bufferLength n) :
    RoundOutcome r bufferLength bytes out c (.ok (.exit 0 c')) := by
  have hsame : c'.rest = c.rest := by
    rw [hrest, ← c.received_append len, hnil]
    rfl
  refine .waits (h.move (by rw [hunf, hsame]) hwf hres) hstate hanswers (by rw [hsame]) ?_
  intro hpos hne
  exact (TcpInput.received_ne_nil hlen hpos hne hnil).elim

theorem tcpRound_bufferEmpty (h : Received r bufferLength bytes out c)
    (hstate : c.state = .bufferEmpty) :
    RoundOutcome r bufferLength bytes out c (tcpRound r c) := by
  have hunf : c.unfinished = [] := by rw [TcpInput.unfinished, hstate]
  have happ := c.received_append 2
  have hle := c.length_received_le 2
  have hlen := c.length_received 2
  rw [tcpRound, hstate]
  dsimp only
  cases hrec : c.received 2 with
  | nil =>
    refine .of_nil h Nat.two_pos hrec rfl ?_ ?_ rfl ?_ h.resizes
    · rw [hunf, TcpInput.unfinished]
      simp only [TcpInput.afterRecv, hstate]
    · rw [TcpInput.WellFormed]
      simp only [TcpInput.afterRecv, hstate]
    · simp only [TcpInput.afterRecv, hstate]
      exact TcpInputBufferState.noConfusion
  | cons lsb tail =>
    have hpos := TcpInput.answers_pos
      (show c.received 2 ≠ [] by rw [hrec]; exact List.cons_ne_nil _ _)
    rw [hrec] at happ hle hlen
    cases tail with
    | nil =>
      refine .again (h.move ?_ ?_ h.resizes) hpos rfl ?_
      · rw [hunf, TcpInput.unfinished, ← happ]
        simp only [UInt8.ofNat_toNat]
        rfl
      · exact lsb.toNat_lt
      · rw [List.length_singleton] at hlen
        exact Nat.lt_of_succ_le (Nat.le_of_eq hlen)
    | cons msb tail =>
      obtain rfl : tail = [] := by
        apply List.length_eq_zero_iff.1
        simp only [List.length_cons] at hle
        omega
      have hlsb := lsb.toNat_lt
      have hmsb := msb.toNat_lt
      refine .again (h.size (n := msb.toNat * 256 + lsb.toNat) (by omega) rfl rfl ?_ h.resizes)
        hpos rfl ?_
      · rw [hunf, msgSizeBuf_of_bytes, ← happ]
        rfl
      · simp only [List.length_cons, List.length_nil] at hlen
        show (c.afterRecv 2).rest.length < c.rest.length
        omega

theorem tcpRound_sizeIncomplete (h : Received r bufferLength bytes out c)
    (hstate : c.state = .sizeIncomplete) :
    RoundOutcome r bufferLength bytes out c (tcpRound r c) := by
  have hunf : c.unfinished = [UInt8.ofNat c.msgSize] := by rw [TcpInput.unfinished, hstate]
  have hwf : c.msgSize < 256 := by
    have hwf := h.wellFormed
    rwa [TcpInput.WellFormed, hstate] at hwf
  have happ := c.received_append 1
  have hle := c.length_received_le 1
  have hlen := c.length_received 1
  rw [tcpRound, hstate]
  dsimp only
  cases hrec : c.received 1 with
  | nil =>
    refine .of_nil h Nat.one_pos hrec rfl rfl ?_ rfl ?_ h.resizes
    · exact h.wellFormed
    · show c.state ≠ _
      rw [hstate]
      exact TcpInputBufferState.noConfusion
  | cons msb tail =>
    have hpos := TcpInput.answers_pos
      (show c.received 1 ≠ [] by rw [hrec]; exact List.cons_ne_nil _ _)
    rw [hrec] at happ hle hlen
    obtain rfl : tail = [] := by
      apply List.length_eq_zero_iff.1
      simp only [List.length_cons] at hle
      omega
    have hmsb := msb.toNat_lt
    refine .again (h.size (n := msb.toNat * 256 + c.msgSize) (by omega) rfl rfl ?_ h.resizes)
      hpos rfl ?_
    · have hbuf := msgSizeBuf_of_bytes (UInt8.ofNat c.msgSize) msb
      rw [UInt8.toNat_ofNat', Nat.mod_eq_of_lt hwf] at hbuf
      rw [hbuf, hunf, ← happ]
      rfl
    · rw [List.length_singleton] at hlen
      exact Nat.lt_of_succ_le (Nat.le_of_eq hlen)

/-- A part of a message that does not fit. -/
theorem not_fitsBuffer (h : Received r bufferLength bytes out c) {n : ℕ} {part : List UInt8}
    (hn : n ≤ 65535) (hunf : c.unfinished = msgSizeBuf n ++ part)
    (hbeyond : bufferLength n < min n (part ++ c.rest).length) :
    ¬ FitsBuffer bufferLength bytes := by
  intro hfits
  obtain ⟨msgs, -, -, hbytes⟩ := h.messages
  obtain ⟨lsb, msb, hbuf, hsize⟩ := exists_bytes_of_size hn
  have hle := hfits msgs lsb msb (part ++ c.rest)
    (by rw [hbytes, hunf, hbuf, List.append_assoc]; rfl)
  rw [hsize] at hle
  omega

theorem tcpRound_sizeRead (hr : r.Lawful bufferLength)
    (h : Received r bufferLength bytes out c) (hstate : c.state = .sizeRead) :
    RoundOutcome r bufferLength bytes out c (tcpRound r c) := by
  have hunf : c.unfinished = msgSizeBuf c.msgSize := by rw [TcpInput.unfinished, hstate]
  obtain ⟨hpos, hsize⟩ : 0 < c.msgSize ∧ c.msgSize ≤ 65535 := by
    have hwf := h.wellFormed
    rwa [TcpInput.WellFormed, hstate] at hwf
  have hbuffer := h.resizes c.msgSize
  have hres := hr.keeps _ _ hbuffer
  rw [tcpRound, hstate]
  dsimp only
  rw [hr.size _ _ hbuffer]
  generalize r.resize c.buffer c.msgSize = buffer at hbuffer hres
  have happ := c.received_append c.msgSize
  have hle := c.length_received_le c.msgSize
  have hlen := c.length_received c.msgSize
  split
  · rename_i hnil
    refine .of_nil h hpos hnil rfl ?_ ?_ rfl ?_ hres
    · rw [hunf, TcpInput.unfinished]
      simp only [TcpInput.afterRecv, hstate]
    · rw [TcpInput.WellFormed]
      simp only [TcpInput.afterRecv, hstate]
      exact ⟨hpos, hsize⟩
    · show c.state ≠ _
      rw [hstate]
      exact TcpInputBufferState.noConfusion
  · rename_i hne
    have hanswers := TcpInput.answers_pos hne
    have hlt := List.length_pos_iff.2 hne
    cases hstore : storeBytes buffer 0 (c.received c.msgSize) with
    | none =>
      have hbeyond := storeBytes_none hstore
      refine .beyond (not_fitsBuffer h hsize
        (show c.unfinished = msgSizeBuf c.msgSize ++ [] by rw [hunf, List.append_nil]) ?_)
      rw [List.nil_append]
      omega
    | some buffer' =>
      obtain ⟨hroom, hlength, htake⟩ := storeBytes_some hstore
      rw [Nat.zero_add, List.take_zero, List.nil_append] at htake
      rw [Nat.zero_add] at hroom
      dsimp only
      have hres' := hr.keeps buffer' c.msgSize (hlength.trans hbuffer)
      split
      · rename_i hfull
        refine .again (h.move ?_ ?_ hres') hanswers rfl ?_
        · rw [hunf, ← happ, TcpInput.unfinished]
          simp only [TcpInput.afterRecv]
          rw [List.append_assoc, ← hfull, htake, hfull]
        · rw [TcpInput.WellFormed]
          simp only [TcpInput.afterRecv]
          exact ⟨hpos, hsize, by omega, by omega⟩
        · show (c.afterRecv c.msgSize).rest.length < c.rest.length
          omega
      · rename_i hpart
        refine .waits (h.move ?_ ?_ hres') TcpInputBufferState.noConfusion rfl ?_ ?_
        · rw [hunf, ← happ, TcpInput.unfinished]
          simp only [TcpInput.afterRecv]
          rw [List.append_assoc, htake]
        · rw [TcpInput.WellFormed]
          simp only [TcpInput.afterRecv]
          exact ⟨hsize, by omega, by omega, by omega⟩
        · show (c.afterRecv c.msgSize).rest.length ≤ c.rest.length
          omega
        · intro _ _
          show (c.afterRecv c.msgSize).rest.length < c.rest.length
          omega

theorem tcpRound_messageIncomplete (hr : r.Lawful bufferLength)
    (h : Received r bufferLength bytes out c) (hstate : c.state = .messageIncomplete) :
    RoundOutcome r bufferLength bytes out c (tcpRound r c) := by
  have hunf : c.unfinished = msgSizeBuf c.msgSize ++ c.buffer.take c.position := by
    rw [TcpInput.unfinished, hstate]
  obtain ⟨hsize, hpos, hposle, hbuffer⟩ : c.msgSize ≤ 65535 ∧ c.position < c.msgSize ∧
      c.position ≤ c.buffer.length ∧ c.buffer.length = bufferLength c.msgSize := by
    have hwf := h.wellFormed
    rwa [TcpInput.WellFormed, hstate] at hwf
  rw [tcpRound, hstate]
  dsimp only
  rw [hr.size _ _ hbuffer]
  obtain ⟨len, hlen⟩ : ∃ len, len = c.msgSize - c.position := ⟨_, rfl⟩
  rw [← hlen]
  have happ := c.received_append len
  have hle := c.length_received_le len
  have hrest := c.length_received len
  split
  · rename_i hnil
    refine .of_nil h (by omega) hnil rfl rfl h.wellFormed rfl ?_ h.resizes
    show c.state ≠ _
    rw [hstate]
    exact TcpInputBufferState.noConfusion
  · rename_i hne
    have hanswers := TcpInput.answers_pos hne
    have hlt := List.length_pos_iff.2 hne
    cases hstore : storeBytes c.buffer c.position (c.received len) with
    | none =>
      have hbeyond := storeBytes_none hstore
      refine .beyond (not_fitsBuffer h hsize hunf ?_)
      rw [List.length_append, List.length_take]
      omega
    | some buffer' =>
      obtain ⟨hroom, hlength, htake⟩ := storeBytes_some hstore
      dsimp only
      have hres' := hr.keeps buffer' c.msgSize (hlength.trans hbuffer)
      split
      · rename_i hfull
        refine .again (h.move ?_ ?_ hres') hanswers rfl ?_
        · rw [hunf, ← happ, TcpInput.unfinished]
          simp only [TcpInput.afterRecv]
          rw [← hfull, htake]
          simp only [List.append_assoc]
        · rw [TcpInput.WellFormed]
          simp only [TcpInput.afterRecv]
          exact ⟨by omega, hsize, by omega, by omega⟩
        · show (c.afterRecv len).rest.length < c.rest.length
          omega
      · rename_i hpart
        refine .waits (h.move ?_ ?_ hres') ?_ rfl ?_ ?_
        · rw [hunf, ← happ, TcpInput.unfinished]
          simp only [TcpInput.afterRecv, hstate]
          rw [htake]
          simp only [List.append_assoc]
        · rw [TcpInput.WellFormed]
          simp only [TcpInput.afterRecv, hstate]
          exact ⟨hsize, by omega, by omega, by omega⟩
        · show c.state ≠ _
          rw [hstate]
          exact TcpInputBufferState.noConfusion
        · show (c.afterRecv len).rest.length ≤ c.rest.length
          omega
        · intro _ _
          show (c.afterRecv len).rest.length < c.rest.length
          omega

theorem tcpRound_messageAvailable (h : Received r bufferLength bytes out c)
    (hstate : c.state = .messageAvailable) :
    RoundOutcome r bufferLength bytes out c (tcpRound r c) := by
  obtain ⟨hpos, hsize, hle, hbuffer⟩ : 0 < c.msgSize ∧ c.msgSize ≤ 65535 ∧
      c.msgSize ≤ c.buffer.length ∧ c.buffer.length = bufferLength c.msgSize := by
    have hwf := h.wellFormed
    rwa [TcpInput.WellFormed, hstate] at hwf
  have hlen : (c.buffer.take c.msgSize).length = c.msgSize := by
    rw [List.length_take]
    omega
  rw [tcpRound, hstate]
  refine .message ?_ hstate TcpInputBufferState.noConfusion rfl rfl
  have hcomplete : Received r bufferLength bytes
      (out ++ nonEmpty [⟨c.buffer.take c.msgSize, by omega⟩])
      { c with state := .bufferEmpty } := h.complete _ (by dsimp only; rw [hlen]; omega) rfl
    (by
      rw [TcpInput.unfinished, hstate]
      dsimp only
      rw [hlen, List.append_assoc]) h.resizes
  have hne : c.buffer.take c.msgSize ≠ [] := by
    apply List.length_pos_iff.1
    omega
  rw [handedOver, if_pos hpos]
  rwa [nonEmpty_singleton hne] at hcomplete

theorem tcpRound_outcome (hr : r.Lawful bufferLength)
    (h : Received r bufferLength bytes out c) :
    RoundOutcome r bufferLength bytes out c (tcpRound r c) := by
  cases hstate : c.state with
  | bufferEmpty => exact tcpRound_bufferEmpty h hstate
  | sizeIncomplete => exact tcpRound_sizeIncomplete h hstate
  | sizeRead => exact tcpRound_sizeRead hr h hstate
  | messageIncomplete => exact tcpRound_messageIncomplete hr h hstate
  | messageAvailable => exact tcpRound_messageAvailable h hstate

/-! ## A call -/

/-- What a call can lead to. -/
inductive CallOutcome (r : TcpReader) (bufferLength : ℕ → ℕ) (bytes : List UInt8)
    (out : List (List UInt8)) (c : TcpInput) : Except TcpFault (ℕ × TcpInput) → Prop
  | beyond : ¬ FitsBuffer bufferLength bytes → CallOutcome r bufferLength bytes out c
      (.error .beyond)
  | returns {rv : ℕ} {c' : TcpInput} :
      Received r bufferLength bytes (out ++ handedOver rv c') c' →
      c'.state ≠ .messageAvailable → (∃ k, ∀ i, c'.answers i = c.answers (i + k)) →
      c'.rest.length ≤ c.rest.length →
      (c.state ≠ .messageAvailable → 0 < c.answers 0 → c.rest ≠ [] →
        c'.rest.length < c.rest.length) →
      (c.state ≠ .messageAvailable → c.answers 0 = 0 → c'.answers = c.answers.next) →
      CallOutcome r bufferLength bytes out c (.ok (rv, c'))

theorem tcpLoop_outcome (hr : r.Lawful bufferLength) (h : Received r bufferLength bytes out c)
    {fuel : ℕ} (hfuel : c.rest.length < fuel) :
    CallOutcome r bufferLength bytes out c (tcpLoop r fuel c) := by
  induction fuel generalizing c with
  | zero => omega
  | succ fuel ih =>
    have hround := tcpRound_outcome hr h
    rw [tcpLoop]
    generalize tcpRound r c = result at hround
    cases hround with
    | beyond hfit => exact .beyond hfit
    | @again c' hc' hpos hanswers hrest =>
      have hloop := ih hc' (by omega)
      dsimp only
      generalize tcpLoop r fuel c' = result at hloop
      cases hloop with
      | beyond hfit => exact .beyond hfit
      | returns hc'' hstate hshift hrest' _ _ =>
        obtain ⟨k, hk⟩ := hshift
        refine .returns hc'' hstate ⟨k + 1, fun i => ?_⟩ (by omega) (fun _ _ _ => by omega)
          (fun _ hzero => by omega)
        rw [hk, hanswers]
        rfl
    | waits hc' hstate hanswers hrest hless =>
      refine .returns ?_ hstate ⟨1, fun i => by rw [hanswers]; rfl⟩ hrest (fun _ => hless)
        (fun _ _ => hanswers)
      rwa [handedOver, if_neg (Nat.lt_irrefl 0), List.append_nil]
    | message hc' hstate hstate' hrest hanswers =>
      refine .returns hc' hstate' ⟨0, fun i => by rw [hanswers]; rfl⟩ (Nat.le_of_eq (by rw [hrest]))
        (fun hne => (hne hstate).elim) (fun hne => (hne hstate).elim)

theorem readData_outcome (hr : r.Lawful bufferLength)
    (h : Received r bufferLength bytes out c) :
    CallOutcome r bufferLength bytes out c (readData r c) :=
  tcpLoop_outcome hr h (Nat.lt_succ_self _)

/-! ## Successive calls -/

theorem readAll_succ {rv n : ℕ} {c₁ c₂ : TcpInput} {out' : List (List UInt8)}
    (h₁ : readData r c = .ok (rv, c₁)) (h₂ : readAll r n c₁ = .ok (out', c₂)) :
    readAll r (n + 1) c = .ok (handedOver rv c₁ ++ out', c₂) := by
  rw [readAll, h₁]
  dsimp only
  rw [h₂]

/-- However many calls there are, they hand over the messages that were received. -/
theorem readAll_received (hr : r.Lawful bufferLength) (hfits : FitsBuffer bufferLength bytes)
    (h : Received r bufferLength bytes out c) (hstate : c.state ≠ .messageAvailable) (n : ℕ) :
    ∃ out' c', readAll r n c = .ok (out', c') ∧
      Received r bufferLength bytes (out ++ out') c' ∧ c'.state ≠ .messageAvailable := by
  induction n generalizing c out with
  | zero => exact ⟨[], c, rfl, by rwa [List.append_nil], hstate⟩
  | succ n ih =>
    generalize hcall : readData r c = result
    have houtcome := readData_outcome hr h
    rw [hcall] at houtcome
    cases houtcome with
    | beyond hfit => exact (hfit hfits).elim
    | returns hc₁ hstate₁ _ _ _ _ =>
      obtain ⟨out', c', hall, hc', hstate'⟩ := ih hc₁ hstate₁
      exact ⟨_, c', readAll_succ hcall hall, by rwa [← List.append_assoc], hstate'⟩

/-- A call that returns, with what it leaves to the calls behind it. -/
theorem readData_of_readAll (hr : r.Lawful bufferLength)
    (h : Received r bufferLength bytes out c) (hstate : c.state ≠ .messageAvailable)
    (hfair : c.answers.Fair) (hok : ∀ n, ∃ x, readAll r n c = .ok x) :
    ∃ rv c₁, readData r c = .ok (rv, c₁) ∧
      Received r bufferLength bytes (out ++ handedOver rv c₁) c₁ ∧
      c₁.state ≠ .messageAvailable ∧ c₁.answers.Fair ∧ (∀ n, ∃ x, readAll r n c₁ = .ok x) ∧
      c₁.rest.length ≤ c.rest.length ∧
      (0 < c.answers 0 → c.rest ≠ [] → c₁.rest.length < c.rest.length) ∧
      (c.answers 0 = 0 → c₁.answers = c.answers.next) := by
  obtain ⟨x, hone⟩ := hok 1
  generalize hcall : readData r c = result
  have houtcome := readData_outcome hr h
  rw [hcall] at houtcome
  cases houtcome with
  | beyond hfit => rw [readAll, hcall] at hone; cases hone
  | @returns rv c₁ hc₁ hstate₁ hshift hle hless hwait =>
    obtain ⟨j, hj⟩ := hshift
    refine ⟨rv, c₁, rfl, hc₁, hstate₁, fun k => ?_, fun n => ?_, hle, hless hstate, hwait hstate⟩
    · obtain ⟨i, hi, hpos⟩ := hfair (k + j)
      refine ⟨i - j, by omega, ?_⟩
      rw [hj, Nat.sub_add_cancel (by omega)]
      exact hpos
    · obtain ⟨y, hy⟩ := hok (n + 1)
      rw [readAll, hcall] at hy
      dsimp only at hy
      cases htail : readAll r n c₁ with
      | error e => rw [htail] at hy; cases hy
      | ok z => exact ⟨z, rfl⟩

/-- When there is always another call with data, and no call stores beyond the end of the
buffer, the bytes are all read. -/
theorem exists_readAll (hr : r.Lawful bufferLength)
    (h : Received r bufferLength bytes out c) (hstate : c.state ≠ .messageAvailable)
    (hfair : c.answers.Fair) (hok : ∀ n, ∃ x, readAll r n c = .ok x) :
    ∃ n out' c', readAll r n c = .ok (out', c') ∧
      Received r bufferLength bytes (out ++ out') c' ∧ c'.state ≠ .messageAvailable ∧
      c'.rest = [] := by
  -- the outer induction is on what is to be read, the inner one on the calls without data
  obtain ⟨m, hm⟩ : ∃ m, c.rest.length ≤ m := ⟨_, Nat.le_refl _⟩
  induction m generalizing c out with
  | zero =>
    exact ⟨0, [], c, rfl, by rwa [List.append_nil], hstate,
      List.length_eq_zero_iff.1 (Nat.le_zero.1 hm)⟩
  | succ m ih =>
    obtain ⟨k, -, hk⟩ := hfair 0
    induction k generalizing c out with
    | zero =>
      by_cases hnil : c.rest = []
      · exact ⟨0, [], c, rfl, by rwa [List.append_nil], hstate, hnil⟩
      · obtain ⟨rv, c₁, hcall, hc₁, hstate₁, hfair₁, hok₁, -, hless, -⟩ :=
          readData_of_readAll hr h hstate hfair hok
        have hlt := hless hk hnil
        obtain ⟨n, out', c', hall, hc', hrest⟩ := ih hc₁ hstate₁ hfair₁ hok₁ (by omega)
        exact ⟨n + 1, _, c', readAll_succ hcall hall, by rwa [← List.append_assoc], hrest⟩
    | succ k ihk =>
      by_cases hnil : c.rest = []
      · exact ⟨0, [], c, rfl, by rwa [List.append_nil], hstate, hnil⟩
      · obtain ⟨rv, c₁, hcall, hc₁, hstate₁, hfair₁, hok₁, hle, hless, hwait⟩ :=
          readData_of_readAll hr h hstate hfair hok
        have hrun : ∃ n out' c', readAll r n c₁ = .ok (out', c') ∧
            Received r bufferLength bytes (out ++ handedOver rv c₁ ++ out') c' ∧
            c'.state ≠ .messageAvailable ∧ c'.rest = [] := by
          by_cases hzero : c.answers 0 = 0
          · have hnext := hwait hzero
            exact ihk hc₁ hstate₁ hfair₁ hok₁ (by omega) (by rw [hnext]; exact hk)
          · have hlt := hless (Nat.pos_of_ne_zero hzero) hnil
            exact ih hc₁ hstate₁ hfair₁ hok₁ (by omega)
        obtain ⟨n, out', c', hall, hc', hrest⟩ := hrun
        exact ⟨n + 1, _, c', readAll_succ hcall hall, by rwa [← List.append_assoc], hrest⟩

/-! ## Streams of messages -/

/-- A connection between two calls holds the beginning of one message. -/
theorem Received.unfinished_of_state (h : Received r bufferLength bytes out c)
    (hstate : c.state ≠ .messageAvailable) : Unfinished c.unfinished := by
  intro lsb msb rest heq
  have hwf := h.wellFormed
  rw [TcpInput.WellFormed] at hwf
  rw [TcpInput.unfinished] at heq
  cases hs : c.state with
  | bufferEmpty => rw [hs] at heq; cases heq
  | sizeIncomplete => rw [hs] at heq; cases heq
  | sizeRead =>
    rw [hs] at heq hwf
    obtain ⟨lsb', msb', hbuf, hsize⟩ := exists_bytes_of_size hwf.2
    dsimp only at heq hwf
    rw [hbuf] at heq
    simp only [List.cons.injEq] at heq
    obtain ⟨rfl, rfl, rfl⟩ := heq
    rw [hsize]
    exact hwf.1
  | messageIncomplete =>
    rw [hs] at heq hwf
    obtain ⟨lsb', msb', hbuf, hsize⟩ := exists_bytes_of_size hwf.1
    dsimp only at heq hwf
    rw [hbuf] at heq
    simp only [List.cons_append, List.nil_append, List.cons.injEq] at heq
    obtain ⟨rfl, rfl, rfl⟩ := heq
    rw [hsize, List.length_take]
    omega
  | messageAvailable => exact (hstate hs).elim

/-- What was read of a message is in the buffer. -/
theorem Received.fitsBuffer (h : Received r bufferLength bytes out c)
    (hstate : c.state ≠ .messageAvailable) (hrest : c.rest = []) :
    FitsBuffer bufferLength bytes := by
  obtain ⟨msgs, -, hfit, rfl⟩ := h.messages
  rw [hrest, List.append_nil]
  refine fitsBuffer_of_messages hfit (h.unfinished_of_state hstate) ?_
  intro lsb msb rest heq
  have hwf := h.wellFormed
  rw [TcpInput.WellFormed] at hwf
  rw [TcpInput.unfinished] at heq
  cases hs : c.state with
  | bufferEmpty => rw [hs] at heq; cases heq
  | sizeIncomplete => rw [hs] at heq; cases heq
  | sizeRead =>
    rw [hs] at heq
    cases heq
    exact Nat.zero_le _
  | messageIncomplete =>
    rw [hs] at heq hwf
    obtain ⟨lsb', msb', hbuf, hsize⟩ := exists_bytes_of_size hwf.1
    dsimp only at heq hwf
    rw [hbuf] at heq
    simp only [List.cons_append, List.nil_append, List.cons.injEq] at heq
    obtain ⟨rfl, rfl, rfl⟩ := heq
    rw [hsize, List.length_take]
    omega
  | messageAvailable => exact (hstate hs).elim

/-- Of a stream of messages, the first ones were handed over. -/
theorem Received.prefix_nonEmpty {msgs : List TcpMessage}
    (h : Received r bufferLength (tcpStream msgs) out c)
    (hstate : c.state ≠ .messageAvailable) :
    out <+: nonEmpty msgs ∧ (c.rest = [] → out = nonEmpty msgs) := by
  obtain ⟨msgs', rfl, -, hbytes⟩ := h.messages
  obtain ⟨msgs₁, rfl, htail⟩ := tcpStream_prefix hbytes.symm
  rw [nonEmpty_append]
  refine ⟨List.prefix_append _ _, fun hrest => ?_⟩
  rw [hrest, List.append_nil] at htail
  cases msgs₁ with
  | nil => exact (List.append_nil _).symm
  | cons msg msgs₁ =>
    have hunf := h.unfinished_of_state hstate
    rw [htail, ← List.append_nil (tcpStream _)] at hunf
    exact (not_unfinished_cons msg msgs₁ [] hunf).elim

end round

/-- A new connection. -/
theorem received_init {r : TcpReader} {bufferLength : ℕ → ℕ} {buffer : List UInt8}
    (hres : ∀ n, (r.resize buffer n).length = bufferLength n) (bytes : List UInt8)
    (answers : RecvAnswers) :
    Received r bufferLength bytes [] (.init buffer bytes answers) :=
  ⟨⟨[], rfl, by simp, rfl⟩, trivial, hres⟩

section reader

variable {r : TcpReader} {bufferLength : ℕ → ℕ} {buffer : List UInt8}

/-- A stream of messages that fit is received exactly. -/
theorem receivesExactly_of_fitsBuffer (hr : r.Lawful bufferLength)
    (hres : ∀ n, (r.resize buffer n).length = bufferLength n) {msgs : List TcpMessage}
    (hfits : ∀ msg ∈ msgs, msg.1.length ≤ bufferLength msg.1.length) (answers : RecvAnswers) :
    ReceivesExactly r buffer msgs answers := by
  have hinit := received_init hres (tcpStream msgs) answers
  have hall := readAll_received hr (fitsBuffer_tcpStream_iff.2 hfits) hinit
    TcpInputBufferState.noConfusion
  constructor
  · intro n
    obtain ⟨out, c, hout, hc, hstate⟩ := hall n
    exact ⟨out, c, hout, hc.prefix_nonEmpty hstate⟩
  · intro hfair
    obtain ⟨n, out, c, hout, hc, hstate, hrest⟩ := exists_readAll hr hinit
      TcpInputBufferState.noConfusion hfair (fun n => by
        obtain ⟨out, c, hout, -⟩ := hall n
        exact ⟨_, hout⟩)
    have heq : out = nonEmpty msgs := (hc.prefix_nonEmpty hstate).2 hrest
    exact ⟨n, c, by rw [hout, heq], hrest⟩

/-- No call stores beyond the end of the buffer when the bytes fit. -/
theorem readAll_ok_iff (hr : r.Lawful bufferLength)
    (hres : ∀ n, (r.resize buffer n).length = bufferLength n) (bytes : List UInt8) :
    (∀ answers n, ∃ x, readAll r n (.init buffer bytes answers) = .ok x) ↔
      FitsBuffer bufferLength bytes := by
  constructor
  · intro h
    -- calls that always yield what is asked for read the bytes to their end
    obtain ⟨n, out, c, -, hc, hstate, hrest⟩ := exists_readAll hr
      (received_init hres bytes fun _ => 65535) TcpInputBufferState.noConfusion
      (fun k => ⟨k, Nat.le_refl k, Nat.succ_pos 65534⟩) (h _)
    exact hc.fitsBuffer hstate hrest
  · intro hfits answers n
    obtain ⟨out, c, hout, -⟩ := readAll_received hr hfits (received_init hres bytes answers)
      TcpInputBufferState.noConfusion n
    exact ⟨_, hout⟩

end reader

theorem tcpTransport_lawful (mtu : ℕ) : tcpTransport.Lawful fun _ => mtu :=
  ⟨fun _ _ h _ => h, fun _ _ _ => rfl⟩

theorem tcpServerBase_resize (buffer : List UInt8) (n : ℕ) :
    (tcpServerBase.resize buffer n).length = n := by
  simp only [tcpServerBase, List.length_append, List.length_take, List.length_replicate]
  omega

theorem tcpServerBase_lawful : tcpServerBase.Lawful fun n => n :=
  ⟨fun buffer _ _ k => tcpServerBase_resize buffer k, fun _ _ h => h⟩

/-- The Agent receives every stream of messages exactly.  The client receives a stream of
messages exactly, whatever the receive calls do, when each message fits in its buffer, and it
stores nothing beyond the end of the buffer when no announced message does. -/
theorem tcpReceive_exact_iff (buffer : List UInt8) :
    (∀ (buffer' : List UInt8) (msgs : List TcpMessage) (answers : RecvAnswers),
      ReceivesExactly tcpServerBase buffer' msgs answers) ∧
    (∀ msgs : List TcpMessage,
      (∀ answers, ReceivesExactly tcpTransport buffer msgs answers) ↔
        ∀ msg ∈ msgs, msg.1.length ≤ buffer.length) ∧
    (∀ bytes : List UInt8,
      (∀ answers n, ∃ x, readAll tcpTransport n (.init buffer bytes answers) = .ok x) ↔
        FitsBuffer (fun _ => buffer.length) bytes) := by
  have hclient := tcpTransport_lawful buffer.length
  have hres : ∀ n, (tcpTransport.resize buffer n).length = buffer.length := fun _ => rfl
  refine ⟨fun buffer' msgs answers => ?_, fun msgs => ⟨fun h => ?_, fun h answers => ?_⟩,
    fun bytes => readAll_ok_iff hclient hres bytes⟩
  · exact receivesExactly_of_fitsBuffer tcpServerBase_lawful (tcpServerBase_resize buffer')
      (fun _ _ => Nat.le_refl _) answers
  · refine fitsBuffer_tcpStream_iff.1 ((readAll_ok_iff hclient hres _).1 fun answers n => ?_)
    obtain ⟨out, c, hout, -⟩ := (h answers).inOrder n
    exact ⟨_, hout⟩
  · exact receivesExactly_of_fitsBuffer hclient hres h answers

/-- A message of one byte more than the default `UXR_CONFIG_TCP_TRANSPORT_MTU`. -/
theorem tcpReceive_exact_fails :
    ¬ ∀ answers n, ∃ x, readAll tcpTransport n
      (.init (List.replicate 512 0) (1 :: 2 :: List.replicate 513 7) answers) = .ok x := by
  intro h
  have hfits := (readAll_ok_iff (tcpTransport_lawful 512)
    (fun _ => List.length_replicate) _).1 h [] 1 2 (List.replicate 513 7) rfl
  rw [List.length_replicate] at hfits
  exact absurd hfits (by decide)

end XrceDds
