import XrceDds.Lib.ByteMemory
import XrceDds.Transport.FramedWrite
import Mathlib.Logic.Function.Iterate

/-!
# Reading a framed message

`uxr_read_framed_msg` of the client and `FramingIO::read_framed_msg` of the Agent are one state
machine over a ring of 42 bytes.  The ring is filled by the read callback, once at the start of a
call and again whenever it runs empty in the middle of a payload; the time that a read took is taken
off the timeout of the next one.  The two programs do that differently, and each has its own copy of
the checksum (`Framing`).

One turn of the machine reads one octet.  The loops over the octets before a begin flag, and over
those of a payload, turn with it.
-/

namespace XrceDds

open ByteMemory

/-- `crc16_table` of `FramingIO`. -/
def framingIOCrc16Table : List UInt16 := [
  0x0000, 0xC0C1, 0xC181, 0x0140, 0xC301, 0x03C0, 0x0280, 0xC241,
  0xC601, 0x06C0, 0x0780, 0xC741, 0x0500, 0xC5C1, 0xC481, 0x0440,
  0xCC01, 0x0CC0, 0x0D80, 0xCD41, 0x0F00, 0xCFC1, 0xCE81, 0x0E40,
  0x0A00, 0xCAC1, 0xCB81, 0x0B40, 0xC901, 0x09C0, 0x0880, 0xC841,
  0xD801, 0x18C0, 0x1980, 0xD941, 0x1B00, 0xDBC1, 0xDA81, 0x1A40,
  0x1E00, 0xDEC1, 0xDF81, 0x1F40, 0xDD01, 0x1DC0, 0x1C80, 0xDC41,
  0x1400, 0xD4C1, 0xD581, 0x1540, 0xD701, 0x17C0, 0x1680, 0xD641,
  0xD201, 0x12C0, 0x1380, 0xD341, 0x1100, 0xD1C1, 0xD081, 0x1040,
  0xF001, 0x30C0, 0x3180, 0xF141, 0x3300, 0xF3C1, 0xF281, 0x3240,
  0x3600, 0xF6C1, 0xF781, 0x3740, 0xF501, 0x35C0, 0x3480, 0xF441,
  0x3C00, 0xFCC1, 0xFD81, 0x3D40, 0xFF01, 0x3FC0, 0x3E80, 0xFE41,
  0xFA01, 0x3AC0, 0x3B80, 0xFB41, 0x3900, 0xF9C1, 0xF881, 0x3840,
  0x2800, 0xE8C1, 0xE981, 0x2940, 0xEB01, 0x2BC0, 0x2A80, 0xEA41,
  0xEE01, 0x2EC0, 0x2F80, 0xEF41, 0x2D00, 0xEDC1, 0xEC81, 0x2C40,
  0xE401, 0x24C0, 0x2580, 0xE541, 0x2700, 0xE7C1, 0xE681, 0x2640,
  0x2200, 0xE2C1, 0xE381, 0x2340, 0xE101, 0x21C0, 0x2080, 0xE041,
  0xA001, 0x60C0, 0x6180, 0xA141, 0x6300, 0xA3C1, 0xA281, 0x6240,
  0x6600, 0xA6C1, 0xA781, 0x6740, 0xA501, 0x65C0, 0x6480, 0xA441,
  0x6C00, 0xACC1, 0xAD81, 0x6D40, 0xAF01, 0x6FC0, 0x6E80, 0xAE41,
  0xAA01, 0x6AC0, 0x6B80, 0xAB41, 0x6900, 0xA9C1, 0xA881, 0x6840,
  0x7800, 0xB8C1, 0xB981, 0x7940, 0xBB01, 0x7BC0, 0x7A80, 0xBA41,
  0xBE01, 0x7EC0, 0x7F80, 0xBF41, 0x7D00, 0xBDC1, 0xBC81, 0x7C40,
  0xB401, 0x74C0, 0x7580, 0xB541, 0x7700, 0xB7C1, 0xB681, 0x7640,
  0x7200, 0xB2C1, 0xB381, 0x7340, 0xB101, 0x71C0, 0x7080, 0xB041,
  0x5000, 0x90C1, 0x9181, 0x5140, 0x9301, 0x53C0, 0x5280, 0x9241,
  0x9601, 0x56C0, 0x5780, 0x9741, 0x5500, 0x95C1, 0x9481, 0x5440,
  0x9C01, 0x5CC0, 0x5D80, 0x9D41, 0x5F00, 0x9FC1, 0x9E81, 0x5E40,
  0x5A00, 0x9AC1, 0x9B81, 0x5B40, 0x9901, 0x59C0, 0x5880, 0x9841,
  0x8801, 0x48C0, 0x4980, 0x8941, 0x4B00, 0x8BC1, 0x8A81, 0x4A40,
  0x4E00, 0x8EC1, 0x8F81, 0x4F40, 0x8D01, 0x4DC0, 0x4C80, 0x8C41,
  0x4400, 0x84C1, 0x8581, 0x4540, 0x8701, 0x47C0, 0x4680, 0x8641,
  0x8201, 0x42C0, 0x4380, 0x8341, 0x4100, 0x81C1, 0x8081, 0x4040]

/-- `FramingIO::update_crc`. -/
def framingIOUpdateCrc (crc : UInt16) (data : UInt8) : UInt16 :=
  (crc >>> 8) ^^^ framingIOCrc16Table.getD ((crc ^^^ data.toUInt16) &&& 0xFF).toNat 0

/-! ## The ring -/

/-- `uxrFramingInputState`, and `FramingIO::InputState`. -/
inductive FramingInputState where
  | uninitialized
  | readingSrcAddr
  | readingDstAddr
  | readingLenLsb
  | readingLenMsb
  | readingPayload
  | readingCrcLsb
  | readingCrcMsb
  deriving DecidableEq

/-- What `uxrFramingIO` and `FramingIO` keep for reading.  The source address is called
`remote_addr_` by the Agent. -/
structure FramingIO where
  state : FramingInputState
  localAddr : UInt8
  rb : Memory
  rbHead : UInt8
  rbTail : UInt8
  srcAddr : UInt8
  msgLen : UInt16
  msgPos : UInt16
  msgCrc : UInt16
  cmpCrc : UInt16

namespace FramingIO

/-- `(uint8_t)((size_t)(index + n) % sizeof(framing_io->rb))`. -/
def advance (index : UInt8) (n : ℕ) : UInt8 :=
  UInt8.ofNat ((index.toNat + n) % framingBufferSize)

/-- `uxr_get_next_octet`: its result, the octet, and the state behind it. -/
def getNextOctet (io : FramingIO) : Bool × UInt8 × FramingIO :=
  if io.rbHead ≠ io.rbTail then
    if framingEscFlag ≠ io.rb io.rbTail.toNat then
      let octet := io.rb io.rbTail.toNat
      (decide (framingBeginFlag ≠ octet), octet, { io with rbTail := advance io.rbTail 1 })
    else
      let tempTail := advance io.rbTail 1
      if tempTail ≠ io.rbHead then
        let octet := io.rb tempTail.toNat
        let io := { io with rbTail := advance io.rbTail 2 }
        if framingBeginFlag ≠ octet then (true, octet ^^^ framingXorFlag, io)
        else (false, octet, io)
      else (false, 0, io)
  else (false, 0, io)

/-- The start of `uxr_framing_read_transport`: the ring, and the lengths of its two free pieces. -/
def availableLength (io : FramingIO) : FramingIO × UInt8 × UInt8 :=
  if io.rbHead = io.rbTail then
    ({ io with rbHead := 0, rbTail := 0 }, UInt8.ofNat framingBufferSize - 1, 0)
  else if io.rbTail < io.rbHead then
    if 0 < io.rbTail then (io, UInt8.ofNat framingBufferSize - io.rbHead, io.rbTail - 1)
    else (io, UInt8.ofNat framingBufferSize - io.rbHead - 1, 0)
  else (io, io.rbTail - io.rbHead - 1, 0)

/-- Bytes are written behind the head. -/
def store (io : FramingIO) (bytes : List UInt8) : FramingIO :=
  { io with
    rb := write io.rb io.rbHead.toNat bytes
    rbHead := advance io.rbHead bytes.length }

end FramingIO

/-! ## The transport -/

/-- What a call of the read callback leads to: bytes, of which it reads as many as it is offered,
and the time that it takes in nanoseconds.  Errors read nothing. -/
structure ReadOutcome where
  bytes : List UInt8
  duration : ℕ

/-- What the calls of the read callback lead to. -/
abbrev ReadCallback := ℕ → ReadOutcome

/-- The calls behind the first one. -/
def ReadCallback.next (callback : ReadCallback) : ReadCallback := fun i => callback (i + 1)

/-- A call of the read callback: the timeout that it was given, and the clock before and after. -/
structure ReadOffer where
  timeout : ℤ
  start : ℕ
  stop : ℕ

/-- The calls for the two free pieces of the ring. -/
structure TransportRead where
  first : ReadOffer
  second : Option ReadOffer

/-- The state of a call that reads a framed message: what it keeps between calls and where it
copies the payload, its locals, the calls of the transport that follow with the clock in
nanoseconds, and the reads so far. -/
structure FramedRead where
  io : FramingIO
  buf : Memory
  remoteAddr : UInt8
  timeout : ℤ
  rv : ℕ
  exitCond : Bool
  callback : ReadCallback
  clock : ℕ
  reads : List TransportRead

/-- What the two programs do differently: the checksum, and the timeout that remains behind a read
that started and ended at these times. -/
structure Framing where
  updateCrc : UInt16 → UInt8 → UInt16
  remaining : ℤ → ℕ → ℕ → ℤ

/-- `(int)`. -/
def intCast (z : ℤ) : ℤ := Int.bmod z 4294967296

/-- What fits is cast to itself. -/
lemma intCast_of_range {z : ℤ} (hle : -2147483648 ≤ z) (hlt : z < 2147483648) : intCast z = z :=
  Int.bmod_eq_of_le hle hlt

/-- `uxr_millis`, of `uxr_nanos`. -/
def uxrMillis (clock : ℕ) : ℤ := clock / 1000000

/-- `uxr_framing_read_transport` takes the milliseconds off, and clamps what remains. -/
def clientRemaining (timeout : ℤ) (timeInit now : ℕ) : ℤ :=
  let timeout := intCast (timeout - intCast (uxrMillis now - uxrMillis timeInit))
  if 0 > timeout then 0 else timeout

/-- `FramingIO::transport_read` takes off the milliseconds of the start less the end. -/
def agentRemaining (timeout : ℤ) (timeInit now : ℕ) : ℤ :=
  intCast (timeout - intCast ((timeInit - now : ℤ).tdiv 1000000))

/-- The client. -/
def clientFraming : Framing := ⟨updateCrc, clientRemaining⟩

/-- The Agent. -/
def agentFraming : Framing := ⟨framingIOUpdateCrc, agentRemaining⟩

namespace FramedRead

/-- A call of the read callback: the state behind it, the call, and the number of bytes. -/
def readCb (s : FramedRead) (available : UInt8) (timeout : ℤ) : FramedRead × ReadOffer × ℕ :=
  let bytes := (s.callback 0).bytes.take available.toNat
  let stop := s.clock + (s.callback 0).duration
  ({ s with io := s.io.store bytes, callback := s.callback.next, clock := stop },
    ⟨timeout, s.clock, stop⟩, bytes.length)

/-- The calls of the read callback for the free pieces of the ring. -/
def readPieces (s : FramedRead) (available available' : UInt8) : FramedRead × ℕ :=
  if 0 < available then
    let r := s.readCb available s.timeout
    if 0 < r.2.2 ∧ r.2.2 = available.toNat ∧ 0 < available' then
      let r' := r.1.readCb available' 0
      ({ r'.1 with reads := r'.1.reads ++ [⟨r.2.1, some r'.2.1⟩] }, r.2.2 + r'.2.2)
    else ({ r.1 with reads := r.1.reads ++ [⟨r.2.1, none⟩] }, r.2.2)
  else (s, 0)

/-- `uxr_framing_read_transport`, and `FramingIO::transport_read`. -/
def readTransport (framing : Framing) (s : FramedRead) : FramedRead × ℕ :=
  let available := s.io.availableLength
  let r := { s with io := available.1 }.readPieces available.2.1 available.2.2
  ({ r.1 with timeout := framing.remaining r.1.timeout s.clock r.1.clock }, r.2)

/-! ## The state machine -/

/-- The machine goes on with the ring as it is. -/
def goto (s : FramedRead) (io : FramingIO) (state : FramingInputState) : FramedRead :=
  { s with io := { io with state := state } }

/-- A state that needs the next octet.  A begin flag starts a frame, and without an octet the call
ends. -/
def withOctet (s : FramedRead) (f : UInt8 → FramingIO → FramedRead) : FramedRead :=
  match s.io.getNextOctet with
  | (true, octet, io) => f octet io
  | (false, octet, io) =>
    if framingBeginFlag = octet then s.goto io .readingSrcAddr
    else { s with io := io, exitCond := true }

/-- One turn of the machine. -/
def turn (framing : Framing) (len : ℕ) (s : FramedRead) : FramedRead :=
  match s.io.state with
  | .uninitialized =>
    if s.io.rbHead ≠ s.io.rbTail then
      let octet := s.io.rb s.io.rbTail.toNat
      let io := { s.io with rbTail := FramingIO.advance s.io.rbTail 1 }
      if framingBeginFlag = octet then s.goto io .readingSrcAddr else { s with io := io }
    else { s with exitCond := true }
  | .readingSrcAddr =>
    match s.io.getNextOctet with
    | (true, octet, io) => s.goto { io with srcAddr := octet } .readingDstAddr
    | (false, octet, io) =>
      { s with io := { io with srcAddr := octet }, exitCond := decide (framingBeginFlag ≠ octet) }
  | .readingDstAddr => s.withOctet fun octet io =>
    s.goto io (if octet = io.localAddr then .readingLenLsb else .uninitialized)
  | .readingLenLsb => s.withOctet fun octet io =>
    s.goto { io with msgLen := octet.toUInt16 } .readingLenMsb
  | .readingLenMsb => s.withOctet fun octet io =>
    let msgLen := io.msgLen + (octet.toUInt16 <<< 8)
    let io := { io with msgLen := msgLen, msgPos := 0, cmpCrc := 0 }
    if len < msgLen.toNat then { s.goto io .uninitialized with exitCond := true }
    else s.goto io .readingPayload
  | .readingPayload =>
    match if s.io.msgPos < s.io.msgLen then s.io.getNextOctet else (false, 0, s.io) with
    | (true, octet, io) =>
      { s with
        io := { io with msgPos := io.msgPos + 1, cmpCrc := framing.updateCrc io.cmpCrc octet }
        buf := write s.buf io.msgPos.toNat [octet] }
    | (false, octet, io) =>
      if io.msgPos = io.msgLen then s.goto io .readingCrcLsb
      else if framingBeginFlag = octet then s.goto io .readingSrcAddr
      else
        let r := { s with io := io }.readTransport framing
        if 0 < r.2 then r.1 else { r.1 with exitCond := true }
  | .readingCrcLsb => s.withOctet fun octet io =>
    s.goto { io with msgCrc := octet.toUInt16 } .readingCrcMsb
  | .readingCrcMsb => s.withOctet fun octet io =>
    let msgCrc := io.msgCrc + (octet.toUInt16 <<< 8)
    let s := s.goto { io with msgCrc := msgCrc } .uninitialized
    if io.cmpCrc = msgCrc then
      { s with remoteAddr := io.srcAddr, rv := io.msgLen.toNat, exitCond := true }
    else { s with exitCond := true }

/-- The loop of the machine, which turns until `exit_cond`. -/
def step (framing : Framing) (len : ℕ) (s : FramedRead) : FramedRead :=
  if s.exitCond then s else s.turn framing len

/-- The state before the first turn. -/
def enter (framing : Framing) (s : FramedRead) : FramedRead :=
  let r := s.readTransport framing
  if 0 < r.2 ∨ r.1.io.rbTail ≠ r.1.io.rbHead then r.1 else { r.1 with exitCond := true }

end FramedRead

/-- The arguments of a call that reads a framed message, with what the ring and the buffer hold and
what the transport does. -/
structure FramedCall where
  io : FramingIO
  buf : Memory
  len : ℕ
  remoteAddr : UInt8
  timeout : ℤ
  callback : ReadCallback
  clock : ℕ

/-- A call, after `turns` turns of its machine.  It returns in the first state with `exitCond`. -/
def readFramedMsg (framing : Framing) (call : FramedCall) (turns : ℕ) : FramedRead :=
  (FramedRead.step framing call.len)^[turns]
    (FramedRead.enter framing
      ⟨call.io, call.buf, call.remoteAddr, call.timeout, 0, false, call.callback, call.clock, []⟩)

/-- `uxr_read_framed_msg`. -/
def uxrReadFramedMsg : FramedCall → ℕ → FramedRead := readFramedMsg clientFraming

/-- `FramingIO::read_framed_msg`. -/
def framingIOReadFramedMsg : FramedCall → ℕ → FramedRead := readFramedMsg agentFraming

end XrceDds
