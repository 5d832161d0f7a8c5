import Mathlib.Data.List.Forall2
import Mathlib.Data.Nat.Notation

/-!
# Writing a framed message

`uxr_write_framed_msg` of the client and `FramingIO::write_framed_msg` of the Agent encode a
message into a buffer of 42 bytes, which they flush whenever the next octet does not fit.  A
flush calls the transport until it has accepted as many bytes as there are.  The client goes on
behind what was accepted, and the Agent offers the buffer from its start every time.

Both go through the same pieces (`framedPieces`), so that everything is said about a flush of
one piece after another (`flushPieces`), and then of a message.
-/

namespace XrceDds

/-! ## The encoding -/

/-- `UXR_FRAMING_BEGIN_FLAG`. -/
def framingBeginFlag : UInt8 := 0x7E

/-- `UXR_FRAMING_ESC_FLAG`. -/
def framingEscFlag : UInt8 := 0x7D

/-- `UXR_FRAMING_XOR_FLAG`. -/
def framingXorFlag : UInt8 := 0x20

/-- The size of the write buffer. -/
def framingBufferSize : ℕ := 42

/-- `crc16_table`, for the polynomial `0x8005`.  Both programs hold the same one. -/
def crc16Table : List UInt16 := [
  0x0000, 0xC0C1, 0xC181, 0x0140, 0xC301, 0x03C0, 0x0280, 0xC241,
  0xC601, 0x06C0, 0x0780, 0xC741, 0x0500, 0xC5C1, 0xC481, 0x0440,
  0xCC01, 0x0CC0, 0x0D80, 0xCD41, 0x0F00, 0xCFC1, 0xCE81, 0x0E40,
  0x0A00, 0xCAC1, 0xCB81, 0x0B40, 0xC901, 0x09C0, 0x0880, 0xC841,
  0xD801, 0x18C0, 0x1980, 0xD941, 0x1B00, 0xDBC1, 0xDA81, 0x1A40,
  0x1E00, 0xDEC1, 0xDF81, 0x1F40, 0xDD01, 0x1DC0, 0x1C80, 0xDC41,
  0x1400, 0xD4C1, 0xD581, 0x1540, 0xD701, 0x17C0, 0x1680, 0xD641,
  0xD201, 0x12C0, 0x1380, 0xD341, 0x1100, 0xD1C1, 0xD081, 0x1040,
  0xF001, 0x30C0, 0x3180, 0xF141, 0x3300, 0xF3C1, 0xF281, 0x3240,
  0x3600, 0xF6C1, 0xF781, 0x3740, 0xF501, 0x35C0, 0x3480, 0xF441,
  0x3C00, 0xFCC1, 0xFD81, 0x3D40, 0xFF01, 0x3FC0, 0x3E80, 0xFE41,
  0xFA01, 0x3AC0, 0x3B80, 0xFB41, 0x3900, 0xF9C1, 0xF881, 0x3840,
  0x2800, 0xE8C1, 0xE981, 0x2940, 0xEB01, 0x2BC0, 0x2A80, 0xEA41,
  0xEE01, 0x2EC0, 0x2F80, 0xEF41, 0x2D00, 0xEDC1, 0xEC81, 0x2C40,
  0xE401, 0x24C0, 0x2580, 0xE541, 0x2700, 0xE7C1, 0xE681, 0x2640,
  0x2200, 0xE2C1, 0xE381, 0x2340, 0xE101, 0x21C0, 0x2080, 0xE041,
  0xA001, 0x60C0, 0x6180, 0xA141, 0x6300, 0xA3C1, 0xA281, 0x6240,
  0x6600, 0xA6C1, 0xA781, 0x6740, 0xA501, 0x65C0, 0x6480, 0xA441,
  0x6C00, 0xACC1, 0xAD81, 0x6D40, 0xAF01, 0x6FC0, 0x6E80, 0xAE41,
  0xAA01, 0x6AC0, 0x6B80, 0xAB41, 0x6900, 0xA9C1, 0xA881, 0x6840,
  0x7800, 0xB8C1, 0xB981, 0x7940, 0xBB01, 0x7BC0, 0x7A80, 0xBA41,
  0xBE01, 0x7EC0, 0x7F80, 0xBF41, 0x7D00, 0xBDC1, 0xBC81, 0x7C40,
  0xB401, 0x74C0, 0x7580, 0xB541, 0x7700, 0xB7C1, 0xB681, 0x7640,
  0x7200, 0xB2C1, 0xB381, 0x7340, 0xB101, 0x71C0, 0x7080, 0xB041,
  0x5000, 0x90C1, 0x9181, 0x5140, 0x9301, 0x53C0, 0x5280, 0x9241,
  0x9601, 0x56C0, 0x5780, 0x9741, 0x5500, 0x95C1, 0x9481, 0x5440,
  0x9C01, 0x5CC0, 0x5D80, 0x9D41, 0x5F00, 0x9FC1, 0x9E81, 0x5E40,
  0x5A00, 0x9AC1, 0x9B81, 0x5B40, 0x9901, 0x59C0, 0x5880, 0x9841,
  0x8801, 0x48C0, 0x4980, 0x8941, 0x4B00, 0x8BC1, 0x8A81, 0x4A40,
  0x4E00, 0x8EC1, 0x8F81, 0x4F40, 0x8D01, 0x4DC0, 0x4C80, 0x8C41,
  0x4400, 0x84C1, 0x8581, 0x4540, 0x8701, 0x47C0, 0x4680, 0x8641,
  0x8201, 0x42C0, 0x4380, 0x8341, 0x4100, 0x81C1, 0x8081, 0x4040]

/-- `uxr_update_crc`. -/
def updateCrc (crc : UInt16) (data : UInt8) : UInt16 :=
  (crc >>> 8) ^^^ crc16Table.getD ((crc ^^^ data.toUInt16) &&& 0xFF).toNat 0

/-- `uxr_add_next_octet`, on the bytes that wait in the write buffer. -/
def addNextOctet (wb : List UInt8) (octet : UInt8) : Option (List UInt8) :=
  if octet = framingBeginFlag ∨ octet = framingEscFlag then
    if wb.length + 1 < framingBufferSize then
      some (wb ++ [framingEscFlag, octet ^^^ framingXorFlag])
    else none
  else if wb.length < framingBufferSize then some (wb ++ [octet])
  else none

/-! ## The transport -/

/-- What the calls of the write callback accept: a number of bytes, or all that are offered when
they are fewer. -/
abbrev WriteCallback := ℕ → ℕ

/-- The calls behind the first one. -/
def WriteCallback.next (callback : WriteCallback) : WriteCallback := fun i => callback (i + 1)

/-- What a flush leads to: its result, the bytes that were accepted, and the calls that
follow. -/
structure FlushResult where
  rv : Bool
  accepted : List UInt8
  callback : WriteCallback

/-- Bytes were accepted before. -/
def FlushResult.after (accepted : List UInt8) (r : FlushResult) : FlushResult :=
  { r with accepted := accepted ++ r.accepted }

/-- The loop of a flush of `wbPos` bytes, of which `bytesWritten` are counted as written, for at
most `fuel` calls.  `offer` is what a call offers. -/
def flushLoop (offer : ℕ → List UInt8) (wbPos : ℕ) :
    ℕ → ℕ → WriteCallback → Option FlushResult
  | 0, _, _ => none
  | fuel + 1, bytesWritten, callback =>
    let lastWritten := min (callback 0) (offer bytesWritten).length
    let accepted := (offer bytesWritten).take lastWritten
    let bytesWritten := bytesWritten + lastWritten
    if bytesWritten < wbPos ∧ 0 < lastWritten then
      (flushLoop offer wbPos fuel bytesWritten callback.next).map (FlushResult.after accepted)
    else some ⟨bytesWritten = wbPos, accepted, callback.next⟩

/-- `uxr_framing_write_transport`, which goes on behind what was accepted. -/
def framingWriteTransport (wb : List UInt8) (callback : WriteCallback) : Option FlushResult :=
  flushLoop wb.drop wb.length (wb.length + 1) 0 callback

/-- `FramingIO::transport_write`, which offers the whole buffer every time. -/
def transportWrite (wb : List UInt8) (callback : WriteCallback) : Option FlushResult :=
  flushLoop (fun _ => wb) wb.length (wb.length + 1) 0 callback

/-! ## A message -/

/-- The state of a call: the write buffer, the checksum, the calls of the transport that follow,
and what it has accepted. -/
structure FramedWrite where
  wb : List UInt8
  crc : UInt16
  callback : WriteCallback
  accepted : List UInt8

/-- The state behind a flush of the write buffer. -/
def FramedWrite.flushed (s : FramedWrite) (r : FlushResult) : FramedWrite :=
  { s with
    wb := if r.rv then [] else s.wb
    callback := r.callback
    accepted := s.accepted ++ r.accepted }

/-- A loop over octets, of which `writtenLen` are written, for at most `fuel` steps: its `cond`
and the state behind it. -/
def writeOctets (flush : List UInt8 → WriteCallback → Option FlushResult) (buf : List UInt8) :
    ℕ → ℕ → FramedWrite → Option (Bool × FramedWrite)
  | 0, _, _ => none
  | fuel + 1, writtenLen, s =>
    if writtenLen < buf.length then
      let octet := buf.getD writtenLen 0
      match addNextOctet s.wb octet with
      | some wb =>
        -- `written_len` is a `uint16_t`
        writeOctets flush buf fuel ((writtenLen + 1) % 65536)
          { s with wb := wb, crc := updateCrc s.crc octet }
      | none =>
        match flush s.wb s.callback with
        | none => none
        | some r =>
          if r.rv then writeOctets flush buf fuel writtenLen (s.flushed r)
          else some (false, s.flushed r)
    else some (true, s)

/-- The write buffer with the begin flag and the header. -/
def framedHeader (localAddr remoteAddr : UInt8) (len : ℕ) : List UInt8 :=
  [localAddr, remoteAddr, UInt8.ofNat len, UInt8.ofNat (len / 256)].foldl
    (fun wb octet => (addNextOctet wb octet).getD wb) [framingBeginFlag]

/-- `tmp_crc`. -/
def tmpCrc (crc : UInt16) : List UInt8 := [crc.toUInt8, (crc >>> 8).toUInt8]

/-- What a call leads to: the length that it reports, and the bytes that were accepted. -/
structure FramedMsg where
  rv : ℕ
  accepted : List UInt8
  deriving DecidableEq, Repr

/-- The end of a call: what is left in the write buffer is flushed. -/
def flushRest (flush : List UInt8 → WriteCallback → Option FlushResult) (len : ℕ)
    (s : FramedWrite) : Option FramedMsg :=
  if 0 < s.wb.length then
    (flush s.wb s.callback).map fun r =>
      ⟨if r.rv then len else 0, s.accepted ++ r.accepted⟩
  else some ⟨len, s.accepted⟩

/-- A call that writes a framed message and reports `len`.  Each loop takes at most `fuel`
steps. -/
def writeFramedMsg (flush : List UInt8 → WriteCallback → Option FlushResult) (len : ℕ)
    (localAddr remoteAddr : UInt8) (buf : List UInt8) (fuel : ℕ) (callback : WriteCallback) :
    Option FramedMsg :=
  match writeOctets flush buf fuel 0 ⟨framedHeader localAddr remoteAddr buf.length, 0, callback, []⟩
    with
  | none => none
  | some (false, s) => some ⟨0, s.accepted⟩
  | some (true, s) =>
    match writeOctets flush (tmpCrc s.crc) fuel 0 s with
    | none => none
    | some (false, s) => some ⟨0, s.accepted⟩
    | some (true, s) => flushRest flush len s

/-- `uxr_write_framed_msg`, which reports `(uint16_t)(len)`. -/
def uxrWriteFramedMsg (localAddr remoteAddr : UInt8) (buf : List UInt8) (fuel : ℕ)
    (callback : WriteCallback) : Option FramedMsg :=
  writeFramedMsg framingWriteTransport (buf.length % 65536) localAddr remoteAddr buf fuel callback

/-- `FramingIO::write_framed_msg`. -/
def framingIOWriteFramedMsg (localAddr remoteAddr : UInt8) (buf : List UInt8) (fuel : ℕ)
    (callback : WriteCallback) : Option FramedMsg :=
  writeFramedMsg transportWrite buf.length localAddr remoteAddr buf fuel callback

/-! ## The frame -/

/-- An octet of a frame. -/
def stuff (octet : UInt8) : List UInt8 :=
  if octet = framingBeginFlag ∨ octet = framingEscFlag then
    [framingEscFlag, octet ^^^ framingXorFlag]
  else [octet]

/-- The octets of a frame behind the header. -/
def framedOctets (buf : List UInt8) : List UInt8 := buf ++ tmpCrc (buf.foldl updateCrc 0)

/-- Begin flag, stuffed header, stuffed payload and stuffed checksum. -/
def frame (localAddr remoteAddr : UInt8) (buf : List UInt8) : List UInt8 :=
  framingBeginFlag ::
    ([localAddr, remoteAddr, UInt8.ofNat buf.length, UInt8.ofNat (buf.length / 256)] ++
      framedOctets buf).flatMap stuff

/-- A call is exact when a success means that the frame was accepted, and a payload of at most
65535 bytes needs a bounded number of steps. -/
structure FramedExact (localAddr remoteAddr : UInt8) (buf : List UInt8)
    (call : ℕ → Option FramedMsg) : Prop where
  success : ∀ fuel r, call fuel = some r → r.rv ≠ 0 →
    r.accepted = frame localAddr remoteAddr buf
  terminates : buf.length ≤ 65535 → ∃ n, ∀ fuel, n ≤ fuel → (call fuel).isSome = true

/-- The pieces that a loop over octets flushes, and what is left in the write buffer. -/
def fillOctets : List UInt8 → List UInt8 → List (List UInt8) × List UInt8
  | wb, [] => ([], wb)
  | wb, octet :: octets =>
    match addNextOctet wb octet with
    | some wb => fillOctets wb octets
    | none =>
      (wb :: (fillOctets (stuff octet) octets).1, (fillOctets (stuff octet) octets).2)

/-- The pieces that a message is flushed in. -/
def framedPieces (localAddr remoteAddr : UInt8) (buf : List UInt8) : List (List UInt8) :=
  let filled := fillOctets (framedHeader localAddr remoteAddr buf.length) (framedOctets buf)
  filled.1 ++ [filled.2]

/-- The calls for a piece of `len` bytes, of which `b` are counted, accept the numbers of bytes
`ms`, each positive, that make up the rest of it, and the calls `rest` follow. -/
inductive Fills (len : ℕ) : ℕ → WriteCallback → List ℕ → WriteCallback → Prop
  | last {b : ℕ} {callback : WriteCallback} :
      b + min (callback 0) len = len → Fills len b callback [min (callback 0) len] callback.next
  | more {b : ℕ} {callback rest : WriteCallback} {ms : List ℕ} :
      0 < min (callback 0) len → b + min (callback 0) len < len →
      Fills len (b + min (callback 0) len) callback.next ms rest →
      Fills len b callback (min (callback 0) len :: ms) rest

/-- The same of one piece after another. -/
inductive FillsAll : List (List UInt8) → WriteCallback → List (List ℕ) → WriteCallback → Prop
  | nil {callback : WriteCallback} : FillsAll [] callback [] callback
  | cons {piece : List UInt8} {pieces : List (List UInt8)} {callback next rest : WriteCallback}
      {ms : List ℕ} {mss : List (List ℕ)} :
      Fills piece.length 0 callback ms next → FillsAll pieces next mss rest →
      FillsAll (piece :: pieces) callback (ms :: mss) rest

/-! ## Octets and pieces -/

theorem stuff_ne_nil (octet : UInt8) : stuff octet ≠ [] := by
  unfold stuff
  split <;> exact List.cons_ne_nil _ _

theorem length_stuff_le (octet : UInt8) : (stuff octet).length ≤ 2 := by
  unfold stuff
  split <;> simp

/-- An octet is added when it fits. -/
theorem addNextOctet_eq (wb : List UInt8) (octet : UInt8) :
    addNextOctet wb octet =
      if wb.length + (stuff octet).length ≤ framingBufferSize then some (wb ++ stuff octet)
      else none := by
  unfold addNextOctet stuff
  split
  · exact if_congr Iff.rfl rfl rfl
  · exact if_congr Iff.rfl rfl rfl

theorem addNextOctet_some {wb wb' : List UInt8} {octet : UInt8}
    (h : addNextOctet wb octet = some wb') : wb' = wb ++ stuff octet := by
  rw [addNextOctet_eq] at h
  split at h
  · exact (Option.some.inj h).symm
  · cases h

/-- An empty buffer has room for every octet. -/
theorem addNextOctet_nil (octet : UInt8) : addNextOctet [] octet = some (stuff octet) := by
  have hle := length_stuff_le octet
  rw [addNextOctet_eq, if_pos (by simp only [List.length_nil, framingBufferSize]; omega),
    List.nil_append]

/-- The header always fits. -/
theorem framedHeader_eq (localAddr remoteAddr : UInt8) (len : ℕ) :
    framedHeader localAddr remoteAddr len =
      framingBeginFlag ::
        [localAddr, remoteAddr, UInt8.ofNat len, UInt8.ofNat (len / 256)].flatMap stuff := by
  have step : ∀ (octets wb : List UInt8), wb.length + 2 * octets.length ≤ framingBufferSize →
      octets.foldl (fun wb octet => (addNextOctet wb octet).getD wb) wb =
        wb ++ octets.flatMap stuff := by
    intro octets
    induction octets with
    | nil => intro wb _; simp
    | cons octet octets ih =>
      intro wb hle
      have hstuff := length_stuff_le octet
      rw [List.length_cons] at hle
      rw [List.foldl_cons, addNextOctet_eq, if_pos (by omega), Option.getD_some,
        ih _ (by rw [List.length_append]; omega), List.flatMap_cons, List.append_assoc]
  exact step _ _ (by simp [framingBufferSize])

theorem fillOctets_append (wb octets octets' : List UInt8) :
    fillOctets wb (octets ++ octets') =
      ((fillOctets wb octets).1 ++ (fillOctets (fillOctets wb octets).2 octets').1,
        (fillOctets (fillOctets wb octets).2 octets').2) := by
  induction octets generalizing wb with
  | nil => rfl
  | cons octet octets ih =>
    rw [List.cons_append, fillOctets, fillOctets]
    cases addNextOctet wb octet with
    | none => simp only [ih, List.cons_append]
    | some wb' => exact ih wb'

/-- What is flushed and what is left are the octets. -/
theorem flatten_fillOctets (wb octets : List UInt8) :
    (fillOctets wb octets).1.flatten ++ (fillOctets wb octets).2 =
      wb ++ octets.flatMap stuff := by
  induction octets generalizing wb with
  | nil => simp [fillOctets]
  | cons octet octets ih =>
    rw [fillOctets, List.flatMap_cons]
    cases h : addNextOctet wb octet with
    | none =>
      dsimp only
      rw [List.flatten_cons, List.append_assoc, ih]
    | some wb' =>
      dsimp only
      rw [ih, addNextOctet_some h, List.append_assoc]

/-- No empty buffer is flushed, and none is left. -/
theorem fillOctets_ne_nil {wb : List UInt8} (hwb : wb ≠ []) (octets : List UInt8) :
    (fillOctets wb octets).2 ≠ [] ∧ ∀ piece ∈ (fillOctets wb octets).1, piece ≠ [] := by
  induction octets generalizing wb with
  | nil => exact ⟨hwb, by simp [fillOctets]⟩
  | cons octet octets ih =>
    rw [fillOctets]
    cases h : addNextOctet wb octet with
    | none =>
      obtain ⟨hrest, hpieces⟩ := ih (stuff_ne_nil octet)
      refine ⟨hrest, fun piece hpiece => ?_⟩
      cases List.mem_cons.1 hpiece with
      | inl heq => rw [heq]; exact hwb
      | inr hmem => exact hpieces piece hmem
    | some wb' =>
      apply ih
      rw [addNextOctet_some h]
      exact List.append_ne_nil_of_left_ne_nil hwb _

/-- The pieces of a message are its frame. -/
theorem flatten_framedPieces (localAddr remoteAddr : UInt8) (buf : List UInt8) :
    (framedPieces localAddr remoteAddr buf).flatten = frame localAddr remoteAddr buf := by
  unfold framedPieces frame
  dsimp only
  rw [List.flatten_append, List.flatten_singleton, flatten_fillOctets, framedHeader_eq,
    List.cons_append, ← List.flatMap_append]

/-! ## One flush -/

section flushLoop

variable {offer : ℕ → List UInt8} {len fuel b : ℕ} {callback : WriteCallback}

variable (offer callback) in
/-- Every call that does not end the loop accepts a byte. -/
theorem flushLoop_isSome (hb : b ≤ len) (hfuel : len < b + fuel) :
    ∃ r, flushLoop offer len fuel b callback = some r := by
  induction fuel generalizing b callback with
  | zero => omega
  | succ fuel ih =>
    rw [flushLoop]
    split
    · rename_i hgo
      obtain ⟨r, hr⟩ := ih (b := b + min (callback 0) (offer b).length) callback.next
        (by omega) (by omega)
      exact ⟨_, by rw [hr]; rfl⟩
    · exact ⟨_, rfl⟩

end flushLoop

/-- A flush of the client accepts the buffer. -/
theorem accepted_of_flushLoop_drop {wb : List UInt8} {fuel b : ℕ} {callback : WriteCallback}
    {r : FlushResult} (h : flushLoop wb.drop wb.length fuel b callback = some r)
    (hb : b ≤ wb.length) (hrv : r.rv = true) : r.accepted = wb.drop b := by
  induction fuel generalizing b callback r with
  | zero => cases h
  | succ fuel ih =>
    rw [flushLoop] at h
    have hlen : (wb.drop b).length = wb.length - b := List.length_drop
    split at h
    · obtain ⟨r', hr', rfl⟩ := Option.map_eq_some_iff.1 h
      have hacc := ih hr' (by omega) hrv
      rw [FlushResult.after, hacc, ← List.drop_drop, List.take_append_drop]
    · obtain rfl := Option.some.inj h
      have heq := of_decide_eq_true hrv
      exact List.take_of_length_le (by omega)

theorem framingWriteTransport_accepted {wb : List UInt8} {callback : WriteCallback}
    {r : FlushResult} (h : framingWriteTransport wb callback = some r) (hrv : r.rv = true) :
    r.accepted = wb := by
  rw [accepted_of_flushLoop_drop h (Nat.zero_le _) hrv, List.drop_zero]

/-- A flush of the Agent that succeeds accepts starts of the buffer. -/
theorem fills_of_flushLoop {wb : List UInt8} {fuel b : ℕ} {callback : WriteCallback}
    {r : FlushResult} (h : flushLoop (fun _ => wb) wb.length fuel b callback = some r)
    (hrv : r.rv = true) :
    ∃ ms, Fills wb.length b callback ms r.callback ∧ r.accepted = ms.flatMap (wb.take ·) := by
  induction fuel generalizing b callback r with
  | zero => cases h
  | succ fuel ih =>
    rw [flushLoop] at h
    split at h
    · rename_i hgo
      obtain ⟨r', hr', rfl⟩ := Option.map_eq_some_iff.1 h
      obtain ⟨ms, hms, hacc⟩ := ih hr' hrv
      exact ⟨_, .more hgo.2 hgo.1 hms, by rw [FlushResult.after, hacc, List.flatMap_cons]⟩
    · obtain rfl := Option.some.inj h
      exact ⟨_, .last (of_decide_eq_true hrv), by simp⟩

theorem flushLoop_of_fills {wb : List UInt8} {fuel b : ℕ} {callback rest : WriteCallback}
    {ms : List ℕ} (h : Fills wb.length b callback ms rest) (hfuel : wb.length < b + fuel) :
    b ≤ wb.length → flushLoop (fun _ => wb) wb.length fuel b callback =
      some ⟨true, ms.flatMap (wb.take ·), rest⟩ := by
  induction h generalizing fuel with
  | @last b callback hlast =>
    intro hb
    obtain ⟨fuel, rfl⟩ : ∃ f, fuel = f + 1 := ⟨fuel - 1, by omega⟩
    rw [flushLoop]
    rw [if_neg (by omega), hlast]
    simp
  | @more b callback rest ms hpos hlt _ ih =>
    intro hb
    obtain ⟨fuel, rfl⟩ : ∃ f, fuel = f + 1 := ⟨fuel - 1, by omega⟩
    rw [flushLoop]
    rw [if_pos ⟨hlt, hpos⟩, ih (by omega) (by omega), List.flatMap_cons]
    rfl

theorem transportWrite_iff (wb : List UInt8) (callback : WriteCallback) :
    ∃ r, transportWrite wb callback = some r ∧
      ∀ acc rest, (r = ⟨true, acc, rest⟩ ↔
        ∃ ms, Fills wb.length 0 callback ms rest ∧ acc = ms.flatMap (wb.take ·)) := by
  obtain ⟨r, hr⟩ := flushLoop_isSome (fun _ => wb) callback (Nat.zero_le wb.length)
    (show wb.length < 0 + (wb.length + 1) by omega)
  refine ⟨r, hr, fun acc rest => ⟨?_, ?_⟩⟩
  · rintro rfl
    exact fills_of_flushLoop hr rfl
  · rintro ⟨ms, hms, rfl⟩
    have h := flushLoop_of_fills hms (show wb.length < 0 + (wb.length + 1) by omega)
      (Nat.zero_le _)
    exact Option.some.inj (hr.symm.trans h)

/-! ## One piece after another -/

/-- Flushes of one piece after another, until one fails. -/
def flushPieces (flush : List UInt8 → WriteCallback → Option FlushResult) :
    List (List UInt8) → WriteCallback → Option FlushResult
  | [], callback => some ⟨true, [], callback⟩
  | piece :: pieces, callback =>
    match flush piece callback with
    | none => none
    | some r =>
      if r.rv then (flushPieces flush pieces r.callback).map (FlushResult.after r.accepted)
      else some r

/-- A flush that always ends. -/
def FlushEnds (flush : List UInt8 → WriteCallback → Option FlushResult) : Prop :=
  ∀ piece callback, ∃ r, flush piece callback = some r

section flushPieces

variable {flush : List UInt8 → WriteCallback → Option FlushResult} {callback : WriteCallback}

theorem flushPieces_isSome (hends : FlushEnds flush) (pieces : List (List UInt8))
    (callback : WriteCallback) : ∃ r, flushPieces flush pieces callback = some r := by
  induction pieces generalizing callback with
  | nil => exact ⟨_, rfl⟩
  | cons piece pieces ih =>
    obtain ⟨r, hr⟩ := hends piece callback
    obtain ⟨r', hr'⟩ := ih r.callback
    rw [flushPieces, hr]
    dsimp only
    rw [hr']
    split <;> exact ⟨_, rfl⟩

/-- A failure ends the flushes. -/
theorem flushPieces_append_false {pieces pieces' : List (List UInt8)} {r : FlushResult}
    (h : flushPieces flush pieces callback = some r) (hrv : r.rv = false) :
    flushPieces flush (pieces ++ pieces') callback = some r := by
  induction pieces generalizing callback r with
  | nil =>
    obtain rfl := Option.some.inj h
    cases hrv
  | cons piece pieces ih =>
    rw [List.cons_append, flushPieces]
    rw [flushPieces] at h
    cases hp : flush piece callback with
    | none => rw [hp] at h; cases h
    | some q =>
      rw [hp] at h
      dsimp only at h ⊢
      split at h
      · rename_i hq
        obtain ⟨r', hr', rfl⟩ := Option.map_eq_some_iff.1 h
        rw [if_pos hq, ih hr' hrv]
        rfl
      · rename_i hq
        rw [if_neg hq, h]

/-- Behind pieces that are flushed the others follow. -/
theorem flushPieces_append_true {pieces pieces' : List (List UInt8)} {r : FlushResult}
    (h : flushPieces flush pieces callback = some r) (hrv : r.rv = true) :
    flushPieces flush (pieces ++ pieces') callback =
      (flushPieces flush pieces' r.callback).map (FlushResult.after r.accepted) := by
  induction pieces generalizing callback r with
  | nil =>
    obtain rfl := Option.some.inj h
    exact Option.map_id'.symm
  | cons piece pieces ih =>
    rw [List.cons_append, flushPieces]
    rw [flushPieces] at h
    cases hp : flush piece callback with
    | none => rw [hp] at h; cases h
    | some q =>
      rw [hp] at h
      dsimp only at h ⊢
      split at h
      · rename_i hq
        obtain ⟨r', hr', rfl⟩ := Option.map_eq_some_iff.1 h
        rw [if_pos hq, ih hr' hrv, Option.map_map]
        congr 1
        funext x
        simp only [Function.comp_apply, FlushResult.after, List.append_assoc]
      · obtain rfl := Option.some.inj h
        contradiction

/-- The step of `writeOctets` for an octet that fits. -/
theorem writeOctets_add {buf wb : List UInt8} {fuel w : ℕ} {s : FramedWrite}
    (hw : w < buf.length) (hbuf : buf.length < 65536)
    (h : addNextOctet s.wb (buf.getD w 0) = some wb) :
    writeOctets flush buf (fuel + 1) w s =
      writeOctets flush buf fuel (w + 1)
        { s with wb := wb, crc := updateCrc s.crc (buf.getD w 0) } := by
  rw [writeOctets, if_pos hw]
  dsimp only
  rw [h]
  dsimp only
  rw [Nat.mod_eq_of_lt (by omega)]

/-- The step of `writeOctets` for an octet that does not fit. -/
theorem writeOctets_flush {buf : List UInt8} {fuel w : ℕ} {s : FramedWrite} {r : FlushResult}
    (hw : w < buf.length) (h : addNextOctet s.wb (buf.getD w 0) = none)
    (hr : flush s.wb s.callback = some r) :
    writeOctets flush buf (fuel + 1) w s =
      if r.rv then writeOctets flush buf fuel w (s.flushed r) else some (false, s.flushed r) := by
  rw [writeOctets, if_pos hw]
  dsimp only
  rw [h]
  dsimp only
  rw [hr]

/-- A loop over octets flushes its pieces. -/
theorem writeOctets_of_flushPieces {buf octets : List UInt8} {fuel w : ℕ} {s : FramedWrite}
    {r : FlushResult} (hbuf : buf.length < 65536) (hw : buf.drop w = octets)
    (hfuel : 2 * octets.length < fuel)
    (h : flushPieces flush (fillOctets s.wb octets).1 s.callback = some r) :
    ∃ s', writeOctets flush buf fuel w s = some (r.rv, s') ∧
      s'.accepted = s.accepted ++ r.accepted ∧
      (r.rv = true → s'.wb = (fillOctets s.wb octets).2 ∧ s'.callback = r.callback ∧
        s'.crc = octets.foldl updateCrc s.crc) := by
  induction octets generalizing fuel w s r with
  | nil =>
    obtain ⟨fuel, rfl⟩ : ∃ f, fuel = f + 1 := ⟨fuel - 1, by omega⟩
    obtain rfl := Option.some.inj h
    rw [writeOctets, if_neg (Nat.not_lt.2 (List.drop_eq_nil_iff.1 hw))]
    exact ⟨s, rfl, (List.append_nil _).symm, fun _ => ⟨rfl, rfl, rfl⟩⟩
  | cons octet octets ih =>
    rw [List.length_cons] at hfuel
    obtain ⟨fuel, rfl⟩ : ∃ f, fuel = f + 2 := ⟨fuel - 2, by omega⟩
    have hlt : w < buf.length := by
      have hlen := congrArg List.length hw
      rw [List.length_drop, List.length_cons] at hlen
      omega
    have hcons := List.drop_eq_getElem_cons hlt
    rw [hw] at hcons
    obtain ⟨hoctet, hrest⟩ := List.cons.inj hcons
    have hget : buf.getD w 0 = octet := by
      rw [hoctet, List.getD_eq_getElem?_getD, List.getElem?_eq_getElem hlt, Option.getD_some]
    rw [fillOctets] at h ⊢
    cases hadd : addNextOctet s.wb octet with
    | some wb =>
      rw [hadd] at h
      rw [writeOctets_add hlt hbuf (by rw [hget]; exact hadd), hget]
      exact ih hrest.symm (by omega) h
    | none =>
      rw [hadd] at h
      dsimp only at h ⊢
      rw [flushPieces] at h
      cases hp : flush s.wb s.callback with
      | none => rw [hp] at h; cases h
      | some q =>
        rw [hp] at h
        dsimp only at h
        rw [writeOctets_flush hlt (by rw [hget]; exact hadd) hp]
        split at h
        · rename_i hq
          obtain ⟨r', hr', rfl⟩ := Option.map_eq_some_iff.1 h
          have hempty : (s.flushed q).wb = [] := if_pos hq
          rw [if_pos hq, writeOctets_add hlt hbuf (show addNextOctet (s.flushed q).wb
            (buf.getD w 0) = some (stuff octet) by rw [hget, hempty]; exact addNextOctet_nil octet),
            hget]
          obtain ⟨s', hs', hacc, hstate⟩ := ih
            (s := { s.flushed q with
              wb := stuff octet, crc := updateCrc (s.flushed q).crc octet })
            hrest.symm (show 2 * octets.length < fuel by omega) hr'
          refine ⟨s', hs', ?_, hstate⟩
          rw [hacc]
          exact List.append_assoc _ _ _
        · rename_i hq
          obtain rfl := Option.some.inj h
          rw [if_neg hq]
          have hfalse : q.rv = false := Bool.eq_false_iff.2 hq
          exact ⟨_, by rw [hfalse], rfl, fun htrue => absurd htrue hq⟩

end flushPieces

/-! ## A whole message -/

section writeFramedMsg

variable {flush : List UInt8 → WriteCallback → Option FlushResult} {len : ℕ}
  {localAddr remoteAddr : UInt8} {buf : List UInt8} {fuel : ℕ} {callback : WriteCallback}

variable (len localAddr remoteAddr callback) in
/-- With enough steps, a call flushes the pieces of the message. -/
theorem writeFramedMsg_eq (hends : FlushEnds flush) (hbuf : buf.length < 65536)
    (hfuel : 2 * buf.length + 5 ≤ fuel) :
    ∃ r, flushPieces flush (framedPieces localAddr remoteAddr buf) callback = some r ∧
      writeFramedMsg flush len localAddr remoteAddr buf fuel callback =
        some ⟨if r.rv then len else 0, r.accepted⟩ := by
  have hheader : framedHeader localAddr remoteAddr buf.length ≠ [] := by
    rw [framedHeader_eq]; exact List.cons_ne_nil _ _
  generalize hh : framedHeader localAddr remoteAddr buf.length = header at hheader
  obtain ⟨r₁, hr₁⟩ := flushPieces_isSome hends (fillOctets header buf).1 callback
  obtain ⟨s₁, hs₁, hacc₁, hstate₁⟩ := writeOctets_of_flushPieces (w := 0)
    (s := ⟨header, 0, callback, []⟩) hbuf List.drop_zero (show 2 * buf.length < fuel by omega) hr₁
  rw [List.nil_append] at hacc₁
  unfold framedPieces writeFramedMsg
  rw [hh, framedOctets, fillOctets_append, hs₁]
  dsimp only
  rw [List.append_assoc]
  cases hrv₁ : r₁.rv with
  | false =>
    refine ⟨r₁, flushPieces_append_false hr₁ hrv₁, ?_⟩
    rw [hrv₁]
    dsimp only
    rw [hacc₁]
    rfl
  | true =>
    obtain ⟨hwb₁, hcb₁, hcrc₁⟩ := hstate₁ hrv₁
    rw [flushPieces_append_true hr₁ hrv₁]
    dsimp only
    rw [hcrc₁, ← hcb₁, ← hwb₁]
    generalize buf.foldl updateCrc 0 = crc
    obtain ⟨r₂, hr₂⟩ := flushPieces_isSome hends (fillOctets s₁.wb (tmpCrc crc)).1 s₁.callback
    have hlen : (tmpCrc crc).length = 2 := rfl
    obtain ⟨s₂, hs₂, hacc₂, hstate₂⟩ := writeOctets_of_flushPieces (w := 0)
      (s := s₁) (by omega) List.drop_zero (show 2 * (tmpCrc crc).length < fuel by omega) hr₂
    rw [hs₂]
    cases hrv₂ : r₂.rv with
    | false =>
      refine ⟨_, by rw [flushPieces_append_false hr₂ hrv₂]; rfl, ?_⟩
      rw [FlushResult.after, hrv₂]
      dsimp only
      rw [hacc₂, hacc₁]
      rfl
    | true =>
      obtain ⟨hwb₂, hcb₂, -⟩ := hstate₂ hrv₂
      rw [flushPieces_append_true hr₂ hrv₂]
      dsimp only
      rw [← hwb₂, ← hcb₂]
      have hne : s₂.wb ≠ [] := by
        rw [hwb₂]
        refine (fillOctets_ne_nil ?_ _).1
        rw [hwb₁]
        exact (fillOctets_ne_nil hheader _).1
      obtain ⟨r₃, hr₃⟩ := hends s₂.wb s₂.callback
      rw [flushRest, if_pos (List.length_pos_iff.2 hne), hr₃, flushPieces, hr₃]
      dsimp only [flushPieces]
      cases hrv₃ : r₃.rv with
      | false =>
        refine ⟨_, rfl, ?_⟩
        simp [FlushResult.after, hrv₃, hacc₂, hacc₁]
      | true =>
        refine ⟨_, rfl, ?_⟩
        simp [FlushResult.after, hrv₃, hacc₂, hacc₁]

/-- More steps change nothing. -/
theorem writeOctets_mono {octets : List UInt8} {w k : ℕ} {s : FramedWrite}
    {x : Bool × FramedWrite} (h : writeOctets flush octets fuel w s = some x) :
    writeOctets flush octets (fuel + k) w s = some x := by
  induction fuel generalizing w s with
  | zero => cases h
  | succ fuel ih =>
    rw [Nat.add_right_comm, writeOctets]
    rw [writeOctets] at h
    split at h
    · rename_i hw
      rw [if_pos hw]
      dsimp only at h ⊢
      cases hadd : addNextOctet s.wb (octets.getD w 0) with
      | some wb =>
        rw [hadd] at h
        exact ih h
      | none =>
        rw [hadd] at h
        dsimp only at h ⊢
        cases hp : flush s.wb s.callback with
        | none => rw [hp] at h; cases h
        | some r =>
          rw [hp] at h
          dsimp only at h ⊢
          split at h
          · rename_i hr
            rw [if_pos hr]
            exact ih h
          · rename_i hr
            rw [if_neg hr]
            exact h
    · rename_i hw
      rw [if_neg hw]
      exact h

theorem writeFramedMsg_mono {k : ℕ} {x : FramedMsg}
    (h : writeFramedMsg flush len localAddr remoteAddr buf fuel callback = some x) :
    writeFramedMsg flush len localAddr remoteAddr buf (fuel + k) callback = some x := by
  unfold writeFramedMsg at h ⊢
  cases h₁ : writeOctets flush buf fuel 0
      ⟨framedHeader localAddr remoteAddr buf.length, 0, callback, []⟩ with
  | none => rw [h₁] at h; cases h
  | some x₁ =>
    rw [h₁] at h
    rw [writeOctets_mono h₁]
    obtain ⟨cond₁, s₁⟩ := x₁
    cases cond₁ with
    | false => exact h
    | true =>
      dsimp only at h ⊢
      cases h₂ : writeOctets flush (tmpCrc s₁.crc) fuel 0 s₁ with
      | none => rw [h₂] at h; cases h
      | some x₂ =>
        rw [h₂] at h
        rw [writeOctets_mono h₂]
        exact h

/-- `written_len` never reaches a length that it cannot hold. -/
theorem writeOctets_of_large {w : ℕ} {s : FramedWrite} {x : Bool × FramedWrite}
    (hbuf : 65536 ≤ buf.length) (hw : w < 65536)
    (h : writeOctets flush buf fuel w s = some x) : x.1 = false := by
  induction fuel generalizing w s with
  | zero => cases h
  | succ fuel ih =>
    rw [writeOctets, if_pos (by omega)] at h
    dsimp only at h
    cases hadd : addNextOctet s.wb (buf.getD w 0) with
    | some wb =>
      rw [hadd] at h
      exact ih (Nat.mod_lt _ (by decide)) h
    | none =>
      rw [hadd] at h
      dsimp only at h
      cases hp : flush s.wb s.callback with
      | none => rw [hp] at h; cases h
      | some r =>
        rw [hp] at h
        dsimp only at h
        split at h
        · exact ih hw h
        · rw [← Option.some.inj h]

theorem writeFramedMsg_of_large {x : FramedMsg} (hbuf : 65536 ≤ buf.length)
    (h : writeFramedMsg flush len localAddr remoteAddr buf fuel callback = some x) :
    x.rv = 0 := by
  unfold writeFramedMsg at h
  cases h₁ : writeOctets flush buf fuel 0
      ⟨framedHeader localAddr remoteAddr buf.length, 0, callback, []⟩ with
  | none => rw [h₁] at h; cases h
  | some x₁ =>
    have hcond := writeOctets_of_large hbuf (by decide) h₁
    obtain ⟨cond₁, s₁⟩ := x₁
    obtain rfl : cond₁ = false := hcond
    rw [h₁] at h
    rw [← Option.some.inj h]

/-- A call is exact when its flushes are. -/
theorem framedExact_iff (hends : FlushEnds flush) (hlen : buf.length < 65536 → len = buf.length) :
    FramedExact localAddr remoteAddr buf
        (fun fuel => writeFramedMsg flush len localAddr remoteAddr buf fuel callback) ↔
      (0 < buf.length → buf.length ≤ 65535 → ∀ r,
        flushPieces flush (framedPieces localAddr remoteAddr buf) callback = some r →
          r.rv = true → r.accepted = frame localAddr remoteAddr buf) := by
  constructor
  · intro h hpos hle r hr hrv
    obtain ⟨r', hr', hcall⟩ := writeFramedMsg_eq len localAddr remoteAddr callback hends
      (Nat.lt_succ_of_le hle) (Nat.le_refl _)
    obtain rfl := Option.some.inj (hr.symm.trans hr')
    refine h.success _ _ hcall ?_
    dsimp only
    rw [hrv, if_pos rfl, hlen (Nat.lt_succ_of_le hle)]
    omega
  · intro h
    constructor
    · intro fuel x hx hrv
      by_cases hle : buf.length ≤ 65535
      · obtain ⟨r, hr, hcall⟩ := writeFramedMsg_eq len localAddr remoteAddr callback hends
          (Nat.lt_succ_of_le hle)
          (Nat.le_add_left (2 * buf.length + 5) fuel)
        obtain rfl := Option.some.inj ((writeFramedMsg_mono hx).symm.trans hcall)
        dsimp only at hrv ⊢
        split at hrv
        · rename_i htrue
          rw [hlen (Nat.lt_succ_of_le hle)] at hrv
          exact h (Nat.pos_of_ne_zero hrv) hle r hr htrue
        · contradiction
      · exact absurd (writeFramedMsg_of_large (by omega) hx) hrv
    · intro hle
      refine ⟨2 * buf.length + 5, fun fuel hfuel => ?_⟩
      obtain ⟨r, -, hcall⟩ := writeFramedMsg_eq len localAddr remoteAddr callback hends
        (Nat.lt_succ_of_le hle) hfuel
      rw [hcall]
      rfl

end writeFramedMsg

/-! ## The two programs -/

theorem framingWriteTransport_ends : FlushEnds framingWriteTransport :=
  fun _ _ => flushLoop_isSome _ _ (Nat.zero_le _) (by omega)

theorem transportWrite_ends : FlushEnds transportWrite :=
  fun _ _ => flushLoop_isSome _ _ (Nat.zero_le _) (by omega)

/-- The client's flushes accept the pieces. -/
theorem flushPieces_framingWriteTransport {pieces : List (List UInt8)} {callback : WriteCallback}
    {r : FlushResult} (h : flushPieces framingWriteTransport pieces callback = some r)
    (hrv : r.rv = true) : r.accepted = pieces.flatten := by
  induction pieces generalizing callback r with
  | nil =>
    obtain rfl := Option.some.inj h
    rfl
  | cons piece pieces ih =>
    rw [flushPieces] at h
    cases hp : framingWriteTransport piece callback with
    | none => rw [hp] at h; cases h
    | some q =>
      rw [hp] at h
      dsimp only at h
      split at h
      · rename_i hq
        obtain ⟨r', hr', rfl⟩ := Option.map_eq_some_iff.1 h
        rw [FlushResult.after, ih hr' hrv, framingWriteTransport_accepted hp hq,
          List.flatten_cons]
      · obtain rfl := Option.some.inj h
        contradiction

/-- The Agent's flushes accept starts of the pieces. -/
theorem flushPieces_transportWrite_iff {pieces : List (List UInt8)} {callback rest : WriteCallback}
    {acc : List UInt8} :
    flushPieces transportWrite pieces callback = some ⟨true, acc, rest⟩ ↔
      ∃ mss, FillsAll pieces callback mss rest ∧
        acc = (pieces.zipWith (fun piece ms => ms.flatMap (piece.take ·)) mss).flatten := by
  induction pieces generalizing callback acc with
  | nil =>
    constructor
    · intro h
      obtain ⟨-, rfl, rfl⟩ := FlushResult.mk.inj (Option.some.inj h)
      exact ⟨[], .nil, rfl⟩
    · rintro ⟨mss, ⟨⟩, rfl⟩
      rfl
  | cons piece pieces ih =>
    obtain ⟨q, hq, hiff⟩ := transportWrite_iff piece callback
    rw [flushPieces, hq]
    dsimp only
    constructor
    · intro h
      split at h
      · rename_i hrv
        obtain ⟨r', hr', heq⟩ := Option.map_eq_some_iff.1 h
        obtain ⟨qrv, qacc, qcb⟩ := q
        obtain rfl : qrv = true := hrv
        obtain ⟨ms, hms, rfl⟩ := (hiff qacc qcb).1 rfl
        obtain ⟨rv', acc', cb'⟩ := r'
        obtain ⟨rfl, rfl, rfl⟩ := FlushResult.mk.inj heq
        obtain ⟨mss, hmss, rfl⟩ := ih.1 hr'
        exact ⟨ms :: mss, .cons hms hmss, rfl⟩
      · rename_i hrv
        rw [Option.some.inj h] at hrv
        exact absurd rfl hrv
    · rintro ⟨mss, hfills, rfl⟩
      cases hfills with
      | @cons _ _ _ next _ ms mss hms hmss =>
        obtain rfl := (hiff _ next).2 ⟨ms, hms, rfl⟩
        rw [if_pos rfl, ih.2 ⟨mss, hmss, rfl⟩]
        rfl

theorem Fills.length_eq {piece : List UInt8} {b : ℕ} {callback rest : WriteCallback}
    {ms : List ℕ} (h : Fills piece.length b callback ms rest) :
    b + (ms.flatMap (piece.take ·)).length = piece.length := by
  induction h with
  | @last b callback hlast =>
    rw [List.flatMap_singleton, List.length_take]
    omega
  | @more b callback rest ms _ _ _ ih =>
    rw [List.flatMap_cons, List.length_append, List.length_take]
    omega

/-- Starts that are as long as the pieces are the pieces together when each are their piece. -/
theorem FillsAll.flatten_eq_iff {pieces : List (List UInt8)} {callback rest : WriteCallback}
    {mss : List (List ℕ)} (h : FillsAll pieces callback mss rest) :
    (pieces.zipWith (fun piece ms => ms.flatMap (piece.take ·)) mss).flatten = pieces.flatten ↔
      List.Forall₂ (fun piece ms => ms.flatMap (piece.take ·) = piece) pieces mss := by
  induction h with
  | nil => exact ⟨fun _ => .nil, fun _ => rfl⟩
  | @cons piece pieces callback next rest ms mss hms _ ih =>
    have hlen := hms.length_eq
    rw [Nat.zero_add] at hlen
    rw [List.forall₂_cons, ← ih, List.zipWith_cons_cons, List.flatten_cons, List.flatten_cons]
    constructor
    · exact fun heq => List.append_inj heq hlen
    · rintro ⟨hpiece, hrest⟩
      rw [hpiece, hrest]

/-- The client's call is exact.  The Agent's is exact when the starts of each piece that the
calls accept one after another are the piece. -/
theorem framedWrite_exact_iff (localAddr remoteAddr : UInt8) (buf : List UInt8)
    (callback callback' : WriteCallback) :
    FramedExact localAddr remoteAddr buf
        (fun fuel => uxrWriteFramedMsg localAddr remoteAddr buf fuel callback) ∧
    (FramedExact localAddr remoteAddr buf
        (fun fuel => framingIOWriteFramedMsg localAddr remoteAddr buf fuel callback') ↔
      (0 < buf.length → buf.length ≤ 65535 → ∀ mss rest,
        FillsAll (framedPieces localAddr remoteAddr buf) callback' mss rest →
          List.Forall₂ (fun piece ms => ms.flatMap (piece.take ·) = piece)
            (framedPieces localAddr remoteAddr buf) mss)) := by
  constructor
  · refine (framedExact_iff framingWriteTransport_ends (fun h => Nat.mod_eq_of_lt h)).2 ?_
    intro _ _ r hr hrv
    rw [flushPieces_framingWriteTransport hr hrv, flatten_framedPieces]
  · refine (framedExact_iff transportWrite_ends (fun _ => rfl)).trans ?_
    refine forall_congr' fun _ => forall_congr' fun _ => ?_
    rw [← flatten_framedPieces]
    constructor
    · intro h mss rest hmss
      exact hmss.flatten_eq_iff.1 (h _ (flushPieces_transportWrite_iff.2 ⟨mss, hmss, rfl⟩) rfl)
    · rintro h ⟨rv, acc, rest⟩ hr hrv
      obtain rfl : rv = true := hrv
      obtain ⟨mss, hmss, rfl⟩ := flushPieces_transportWrite_iff.1 hr
      exact hmss.flatten_eq_iff.2 (h mss rest hmss)

/-- The Agent repeats the start of a frame that is accepted in two halves. -/
theorem framedWrite_exact_fails :
    ¬ FramedExact 0 1 [5]
      (fun fuel => framingIOWriteFramedMsg 0 1 [5] fuel fun _ => 4) := by
  intro h
  have hcall : framingIOWriteFramedMsg 0 1 [5] 7 (fun _ => 4) =
      some ⟨1, [0x7E, 0, 1, 1, 0x7E, 0, 1, 1]⟩ := by decide
  exact absurd (h.success 7 _ hcall (by decide)) (by decide)

end XrceDds
