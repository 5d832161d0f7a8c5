import XrceDds.Client.CounterWindow
import XrceDds.Client.FragmentPayload

/-!
# Slots as messages

A slot is read by a walk over its submessages: align to four bytes, read a header, skip the
length that it announces.  `walkMessage` is that walk, and `Parses` says what it yields.
`Parses.snoc` is the lemma behind everything: a submessage that is written at the next multiple
of four is read behind all others, as long as the room behind its payload is shorter than the
step to the next multiple of four.

The second half is about what is written: a header and a payload into the room of one slot
(`serialize_reserved`), or over the slots of a fragmented write (`serialize_fragments`).
-/

namespace XrceDds

open ByteMemory

/-! ## Reading -/

/-- `FLAG_ENDIANNESS`. -/
def flagEndianness : UInt8 := 1

/-- The flags of a header without the one that gives the endianness of the submessage. -/
def withoutEndianness (flags : UInt8) : UInt8 := flags &&& ~~~(flags &&& flagEndianness)

/-- The flag that a header adds is the one that its reader takes off. -/
lemma withoutEndianness_or (flags : UInt8) :
    withoutEndianness (flags ||| 1) = withoutEndianness flags := by
  unfold withoutEndianness flagEndianness
  apply UInt8.toBitVec_inj.mp
  ext i hi
  simp
  grind

/-- How far a position is from the next multiple of four. -/
def alignmentGap (position : ℕ) : ℕ := (4 - position % 4) % 4

/-- The position of a reader of a message after `ucdr_align_to(ub, 4)`. -/
def alignedPosition (message : List UInt8) (position : ℕ) : ℕ :=
  min (position + alignmentGap position) message.length

/-- `uxr_read_submessage_header`, at a position of a message: the id, the flags, the length, and
the position behind the header, when there is one. -/
def uxrReadSubmessageHeader (message : List UInt8) (position : ℕ) :
    Option (UInt8 × UInt8 × ℕ × ℕ) :=
  match message.drop (alignedPosition message position) with
  | id :: flags :: lo :: hi :: _ =>
    some (id, withoutEndianness flags, lo.toNat + 256 * hi.toNat,
      alignedPosition message position + subheaderSize)
  | _ => none

/-- A submessage that was read. -/
structure ReadSubmessage where
  id : UInt8
  flags : UInt8
  body : List UInt8
  deriving DecidableEq

/-- The submessages of a message from a position on: none when one of them is longer than the
message, or when the last of them does not end where the message does. -/
def walkSubmessages (message : List UInt8) : ℕ → ℕ → Option (List ReadSubmessage)
  | 0, _ => none
  | n + 1, position =>
    match uxrReadSubmessageHeader message position with
    | some (id, flags, length, start) =>
      if start + length ≤ message.length then
        (walkSubmessages message n (start + length)).map
          (⟨id, flags, (message.drop start).take length⟩ :: ·)
      else none
    | none => if alignedPosition message position = message.length then some [] else none

/-- The submessages behind the session header of a message. -/
def walkMessage (message : List UInt8) (offset : ℕ) : Option (List ReadSubmessage) :=
  walkSubmessages message (message.length + 1) offset

/-- A message holds the submessages of a list from a position on, and ends with them. -/
def Parses (message : List UInt8) : ℕ → List ReadSubmessage → Prop
  | position, [] => alignedPosition message position = message.length
  | position, submessage :: rest =>
    ∃ start, uxrReadSubmessageHeader message position =
        some (submessage.id, submessage.flags, submessage.body.length, start) ∧
      (message.drop start).take submessage.body.length = submessage.body ∧
      start + submessage.body.length ≤ message.length ∧
      Parses message (start + submessage.body.length) rest

section Reading

variable {message : List UInt8} {position : ℕ}

/-- A header that is read lies inside the message. -/
lemma uxrReadSubmessageHeader_eq_some {id flags : UInt8} {length start : ℕ}
    (h : uxrReadSubmessageHeader message position = some (id, flags, length, start)) :
    start = alignedPosition message position + 4 ∧ start ≤ message.length := by
  unfold uxrReadSubmessageHeader at h
  split at h
  · next hdrop =>
    have hlength := congrArg List.length hdrop
    simp only [List.length_drop, List.length_cons] at hlength
    simp only [Option.some.injEq, Prod.mk.injEq, subheaderSize] at h
    omega
  · cases h

/-- Bytes behind a message do not change the headers inside it. -/
lemma uxrReadSubmessageHeader_append {r : UInt8 × UInt8 × ℕ × ℕ}
    (h : uxrReadSubmessageHeader message position = some r) (tail : List UInt8) :
    uxrReadSubmessageHeader (message ++ tail) position = some r := by
  obtain ⟨id, flags, length, start⟩ := r
  obtain ⟨hstart, hle⟩ := uxrReadSubmessageHeader_eq_some h
  have haligned : alignedPosition (message ++ tail) position =
    alignedPosition message position := by
    unfold alignedPosition at *
    rw [List.length_append]
    omega
  unfold uxrReadSubmessageHeader at h ⊢
  rw [haligned, List.drop_append_of_le_length (by omega)]
  split at h
  · next hdrop => simpa only [hdrop, List.cons_append] using h
  · cases h

/-- What a message holds is what the walk yields. -/
theorem Parses.walkSubmessages {submessages : List ReadSubmessage} {n : ℕ}
    (h : Parses message position submessages) (hn : submessages.length < n) :
    walkSubmessages message n position = some submessages := by
  induction submessages generalizing position n with
  | nil =>
    obtain ⟨n, rfl⟩ := Nat.exists_eq_succ_of_ne_zero (Nat.ne_of_gt hn)
    have hend : message.drop (alignedPosition message position) = [] :=
      List.drop_eq_nil_of_le (Nat.le_of_eq (Eq.symm h))
    have hread : uxrReadSubmessageHeader message position = none := by
      unfold uxrReadSubmessageHeader
      rw [hend]
    rw [XrceDds.walkSubmessages, hread]
    exact if_pos h
  | cons submessage rest ih =>
    obtain ⟨n, rfl⟩ := Nat.exists_eq_succ_of_ne_zero (Nat.ne_of_gt (Nat.zero_lt_of_lt hn))
    obtain ⟨start, hread, hbody, hle, hrest⟩ := h
    rw [XrceDds.walkSubmessages, hread]
    dsimp only
    rw [if_pos hle, ih hrest (Nat.lt_of_succ_lt_succ hn), hbody]
    rfl

/-- A message is longer than the number of its submessages. -/
lemma Parses.length_le {submessages : List ReadSubmessage}
    (h : Parses message position submessages) :
    position ≤ message.length → position + submessages.length ≤ message.length := by
  induction submessages generalizing position with
  | nil => exact id
  | cons submessage rest ih =>
    intro hposition
    obtain ⟨start, hread, -, hle, hrest⟩ := h
    obtain ⟨hstart, -⟩ := uxrReadSubmessageHeader_eq_some hread
    have := ih hrest hle
    unfold alignedPosition at hstart
    rw [List.length_cons]
    omega

/-- The walk over a message yields what it holds. -/
theorem Parses.walkMessage {submessages : List ReadSubmessage} {offset : ℕ}
    (h : Parses message offset submessages) (hle : offset ≤ message.length) :
    walkMessage message offset = some submessages :=
  h.walkSubmessages (by
    have := h.length_le hle
    omega)

/-- A message without submessages. -/
lemma parses_nil : Parses [] 0 [] := rfl

/-- The header that was written is read. -/
lemma uxrReadSubmessageHeader_here {gap tail : List UInt8} {id flags : UInt8} {length : ℕ}
    (hposition : position ≤ message.length)
    (hend : message.length ≤ position + alignmentGap position)
    (hgap : gap.length = alignmentGap message.length) (hlength : length < 65536) :
    uxrReadSubmessageHeader (message ++ gap ++ submessageHeader id flags length ++ tail) position =
      some (id, withoutEndianness flags, length, (message ++ gap).length + 4) := by
  have haligned : alignedPosition (message ++ gap ++ submessageHeader id flags length ++ tail)
      position = (message ++ gap).length := by
    unfold alignedPosition alignmentGap at *
    simp only [List.length_append, submessageHeader, List.length_cons]
    omega
  unfold uxrReadSubmessageHeader
  rw [haligned, List.append_assoc (message ++ gap), List.drop_left]
  simp only [submessageHeader, List.cons_append, subheaderSize, UInt8.toNat_ofNat']
  congr 3
  have : (UInt8.ofNat length).toNat + 256 * (UInt8.ofNat (length / 256)).toNat = length := by
    simp only [UInt8.toNat_ofNat']
    omega
  simp only [UInt8.toNat_ofNat'] at this
  rw [this]

/-- A submessage that is written at the next multiple of four is read behind the others. -/
theorem Parses.snoc {submessages : List ReadSubmessage} {gap body trail : List UInt8}
    {id flags : UInt8} (h : Parses message position submessages)
    (hposition : position ≤ message.length) (hgap : gap.length = alignmentGap message.length)
    (hbody : body.length < 65536) (htrail : trail.length ≤ alignmentGap body.length) :
    Parses (message ++ gap ++ submessageHeader id flags body.length ++ (body ++ trail)) position
      (submessages ++ [⟨id, withoutEndianness flags, body⟩]) := by
  induction submessages generalizing position with
  | nil =>
    have hend : message.length ≤ position + alignmentGap position := by
      change alignedPosition message position = message.length at h
      unfold alignedPosition at h
      omega
    refine ⟨_, uxrReadSubmessageHeader_here hposition hend hgap hbody, ?_, ?_, ?_⟩
    · have hlength : (message ++ gap ++ submessageHeader id flags body.length).length =
          (message ++ gap).length + 4 := by
        rw [List.length_append]
        rfl
      rw [← hlength, List.drop_left, List.take_left]
    · simp only [List.length_append, submessageHeader, List.length_cons, List.length_nil]
      omega
    · change alignedPosition _ _ = _
      unfold alignedPosition alignmentGap at *
      simp only [List.length_append, submessageHeader, List.length_cons, List.length_nil]
      omega
  | cons submessage rest ih =>
    obtain ⟨start, hread, hslice, hle, hrest⟩ := h
    rw [List.append_assoc message gap, List.append_assoc message]
    refine ⟨start, uxrReadSubmessageHeader_append hread _, ?_, ?_, ?_⟩
    · rw [List.drop_append_of_le_length (by omega), List.take_append_of_le_length, hslice]
      rw [List.length_drop]
      omega
    · rw [List.length_append]
      omega
    · have := ih hrest hle
      rwa [List.append_assoc message gap, List.append_assoc message] at this

/-- Bytes before a message that are a multiple of four do not matter. -/
theorem Parses.prepend {submessages : List ReadSubmessage} {head : List UInt8}
    (h : Parses message position submessages) (hhead : head.length % 4 = 0) :
    Parses (head ++ message) (head.length + position) submessages := by
  have haligned : ∀ p, alignedPosition (head ++ message) (head.length + p) =
      head.length + alignedPosition message p := by
    intro p
    unfold alignedPosition alignmentGap
    rw [List.length_append]
    omega
  induction submessages generalizing position with
  | nil =>
    change alignedPosition _ _ = _
    rw [haligned, List.length_append]
    exact congrArg _ h
  | cons submessage rest ih =>
    obtain ⟨start, hread, hslice, hle, hrest⟩ := h
    refine ⟨head.length + start, ?_, ?_, ?_, ?_⟩
    · unfold uxrReadSubmessageHeader at hread ⊢
      rw [haligned, List.drop_append]
      split at hread
      · next hdrop =>
        simp only [List.drop_eq_nil_of_le (Nat.le_add_right _ _), Nat.add_sub_cancel_left,
          List.nil_append, hdrop]
        simp only [Option.some.injEq, Prod.mk.injEq] at hread ⊢
        obtain ⟨hid, hflags, hlength, hstart⟩ := hread
        exact ⟨hid, hflags, hlength, by omega⟩
      · cases hread
    · rw [List.drop_append, List.drop_eq_nil_of_le (Nat.le_add_right _ _),
        Nat.add_sub_cancel_left, List.nil_append, hslice]
    · rw [List.length_append]
      omega
    · have := ih hrest
      rwa [← Nat.add_assoc] at this

end Reading

/-! ## Writing into one window -/

section Window

variable {σ : Type} [UcdrMemory σ] [LawfulUcdrMemory σ] (cb : OnFullBuffer σ) (st : σ)
  (ub : UcdrBuffer)

/-- A header and a payload for which the window has room go to the next multiple of four. -/
theorem serialize_window (id mode : UInt8) (length : ℕ) (payload : List UInt8)
    (herror : ub.error = false) (hlast : ub.lastDataSize = 0) (horigin : ub.origin ≤ ub.offset)
    (hfits : ub.iterator + alignmentGap (ub.offset - ub.origin) + 4 + payload.length ≤ ub.final)
    (hwindow : ub.final < ub.iterator + 18446744073709551616) :
    (ucdrSerializeArrayUint8 cb (uxrBufferSubmessageHeader cb st ub id length mode).1
        (uxrBufferSubmessageHeader cb st ub id length mode).2.1 payload).1 =
      UcdrMemory.store st (ub.iterator + alignmentGap (ub.offset - ub.origin))
        (submessageHeader id (mode ||| 1) length ++ payload) := by
  obtain ⟨gap, hgap⟩ : ∃ gap, gap = alignmentGap (ub.offset - ub.origin) := ⟨_, rfl⟩
  have halign : ucdrBufferAlignment ub 4 = gap := by
    rw [hgap]
    unfold ucdrBufferAlignment
    rw [if_neg (by omega)]
    rfl
  rw [← hgap] at hfits ⊢
  have hub : ({ ucdrAlignTo ub 4 with endianness := ucdrMachineEndianness } : UcdrBuffer) =
      { ub.skip gap with lastDataSize := 4, endianness := ucdrMachineEndianness } := by
    simp only [ucdrAlignTo, halign, Nat.min_eq_left (show ub.iterator + gap ≤ ub.final by omega)]
    rfl
  have hheader := uxrSerializeSubmessageHeader_of_room cb st
    { ub.skip gap with lastDataSize := 4, endianness := ucdrMachineEndianness } id (mode ||| 1)
    length herror
    (show (ub.offset + gap - ub.origin) % 2 = 0 by
      rw [hgap]
      unfold alignmentGap
      omega)
    (show ub.origin ≤ ub.offset + gap by omega) (show ub.iterator + gap + 4 ≤ ub.final by omega)
  unfold uxrBufferSubmessageHeader
  rw [hub]
  simp only [show ucdrMachineEndianness.toUInt8 = 1 from rfl, hheader]
  unfold ucdrSerializeArrayUint8
  dsimp only
  rcases eq_or_ne payload [] with rfl | hne
  · rw [List.append_nil]
    rfl
  · rw [← List.append_nil payload, ucdrArrayToBuffer_window cb _ ?_ hne ?_]
    · rw [List.append_nil]
      exact LawfulUcdrMemory.store_append st (ub.iterator + gap) _ payload
    · have hpos := List.length_pos_of_ne_nil hne
      exact ⟨herror, show ub.iterator + gap + 4 < ub.final by omega,
        show ub.final < ub.iterator + gap + 4 + 18446744073709551616 by omega⟩
    · exact show ub.iterator + gap + 4 + payload.length ≤ ub.final by omega

end Window

/-! ## Writing over several windows -/

section Windows

variable {stream : OutputReliableStream} {ub : UcdrBuffer}

/-- A buffer whose window is not exhausted takes as many bytes as there is room for. -/
lemma ucdrCheckFinalBufferBehaviorArray_of_room (stream : OutputReliableStream) {ub : UcdrBuffer}
    (herror : ub.error = false) (hroom : ¬ ub.final < ub.iterator + 1) (n : ℕ) :
    ucdrCheckFinalBufferBehaviorArray onFullOutputBuffer stream ub n =
      (stream, ub, min n (ucdrBufferRemaining ub)) := by
  unfold ucdrCheckFinalBufferBehaviorArray
  rw [if_neg (by simp [herror]), if_neg fun h => hroom h.1]

/-- A buffer whose window is exhausted asks for the next one. -/
lemma ucdrCheckFinalBufferBehaviorArray_of_callback (stream : OutputReliableStream)
    {ub : UcdrBuffer} (herror : ub.error = false) (hfull : ub.final < ub.iterator + 1)
    (hcallback : ub.onFullBuffer = true) (n : ℕ) :
    ucdrCheckFinalBufferBehaviorArray onFullOutputBuffer stream ub (n + 1) =
      (stream, (onFullOutputBuffer stream ub).2.1,
        min (n + 1) (ucdrBufferRemaining (onFullOutputBuffer stream ub).2.1)) := by
  unfold ucdrCheckFinalBufferBehaviorArray
  rw [if_neg (by simp [herror]), if_pos ⟨hfull, Nat.succ_ne_zero n⟩, if_pos hcallback]
  rfl

/-- Where an array goes depends neither on the last basic type nor on the endianness. -/
lemma ucdrArrayToBuffer_congr (bytes : List UInt8) (stream : OutputReliableStream)
    (ub : UcdrBuffer) (lastDataSize : ℕ) (endianness : UcdrEndianness) :
    (ucdrArrayToBuffer onFullOutputBuffer bytes stream
        { ub with lastDataSize := lastDataSize, endianness := endianness }).1 =
      (ucdrArrayToBuffer onFullOutputBuffer bytes stream ub).1 := by
  induction bytes generalizing stream ub lastDataSize endianness with
  | nil => rfl
  | cons b bytes ih =>
    obtain ⟨ub', hub'⟩ : ∃ ub' : UcdrBuffer,
      ub' = { ub with lastDataSize := lastDataSize, endianness := endianness } := ⟨_, rfl⟩
    have hnext : onFullOutputBuffer stream ub' = onFullOutputBuffer stream ub := by
      rw [hub']
      rfl
    have hrest : (ucdrArrayToBuffer onFullOutputBuffer bytes
        (UcdrMemory.store stream ub'.iterator [b]) (ub'.advance 1 1)).1 =
          (ucdrArrayToBuffer onFullOutputBuffer bytes
            (UcdrMemory.store stream ub.iterator [b]) (ub.advance 1 1)).1 := by
      rw [hub']
      exact ih _ (ub.advance 1 1) 1 endianness
    have hremaining : ucdrBufferRemaining ub' = ucdrBufferRemaining ub := by
      rw [hub']
      rfl
    have herror' : ub'.error = ub.error := by rw [hub']
    have hfull' : ub'.final < ub'.iterator + 1 ↔ ub.final < ub.iterator + 1 := by rw [hub']
    have hcallback' : ub'.onFullBuffer = ub.onFullBuffer := by rw [hub']
    rw [← hub']
    by_cases herror : ub.error
    · rw [ucdrArrayToBuffer_of_error _ _ _ (herror'.trans herror),
        ucdrArrayToBuffer_of_error _ _ _ herror]
    rw [Bool.not_eq_true] at herror
    rw [ucdrArrayToBuffer, ucdrArrayToBuffer]
    by_cases hfull : ub.final < ub.iterator + 1
    · by_cases hcallback : ub.onFullBuffer
      · rw [ucdrCheckFinalBufferBehaviorArray_of_callback stream herror hfull hcallback,
          ucdrCheckFinalBufferBehaviorArray_of_callback stream (herror'.trans herror)
            (hfull'.mpr hfull) (hcallback'.trans hcallback), hnext]
      · rw [Bool.not_eq_true] at hcallback
        rw [ucdrCheckFinalBufferBehaviorArray_of_full _ _ hcallback (Nat.le_of_lt_succ hfull),
          ucdrCheckFinalBufferBehaviorArray_of_full _ _ (hcallback'.trans hcallback)
            (Nat.le_of_lt_succ (hfull'.mpr hfull))]
        rfl
    · rw [ucdrCheckFinalBufferBehaviorArray_of_room stream herror hfull,
        ucdrCheckFinalBufferBehaviorArray_of_room stream (herror'.trans herror)
          (hfull'.not.mpr hfull), hremaining]
      dsimp only
      split
      · rfl
      · exact hrest

/-- How many bytes are to come decides only how many of them a window takes. -/
lemma ucdrCheckFinalBufferBehaviorArray_succ (stream : OutputReliableStream) (ub : UcdrBuffer) :
    ∃ ub' m, ∀ k, ∃ m', (m' = 0 ↔ m = 0) ∧
      ucdrCheckFinalBufferBehaviorArray onFullOutputBuffer stream ub (k + 1) =
        (stream, ub', m') := by
  by_cases herror : ub.error
  · refine ⟨ub, 0, fun k => ⟨0, Iff.rfl, ?_⟩⟩
    unfold ucdrCheckFinalBufferBehaviorArray
    rw [if_pos herror]
  rw [Bool.not_eq_true] at herror
  by_cases hfull : ub.final < ub.iterator + 1
  · by_cases hcallback : ub.onFullBuffer
    · exact ⟨_, ucdrBufferRemaining (onFullOutputBuffer stream ub).2.1, fun k => ⟨_, by omega,
        ucdrCheckFinalBufferBehaviorArray_of_callback stream herror hfull hcallback k⟩⟩
    · rw [Bool.not_eq_true] at hcallback
      exact ⟨_, 0, fun k => ⟨0, Iff.rfl, ucdrCheckFinalBufferBehaviorArray_of_full _ _ hcallback
        (Nat.le_of_lt_succ hfull) k⟩⟩
  · exact ⟨_, ucdrBufferRemaining ub, fun k => ⟨_, by omega,
      ucdrCheckFinalBufferBehaviorArray_of_room stream herror hfull (k + 1)⟩⟩

/-- The bytes that a user leaves out are as if he had written what is there already. -/
lemma exists_trail (bytes : List UInt8) (n : ℕ) (stream : OutputReliableStream)
    (ub : UcdrBuffer) :
    ∃ trail, trail.length = n ∧
      (ucdrArrayToBuffer onFullOutputBuffer (bytes ++ trail) stream ub).1 =
        (ucdrArrayToBuffer onFullOutputBuffer bytes stream ub).1 := by
  induction bytes generalizing stream ub with
  | nil =>
    induction n generalizing ub with
    | zero => exact ⟨[], rfl, rfl⟩
    | succ n ih =>
      obtain ⟨ub', m, hcheck⟩ := ucdrCheckFinalBufferBehaviorArray_succ stream ub
      obtain ⟨trail, htrail, heq⟩ := ih (ub'.advance 1 1)
      -- the next byte is the one in place
      refine ⟨read stream.base.buffer ub'.iterator 1 ++ trail, ?_, ?_⟩
      · rw [List.length_append, length_read, htrail, Nat.add_comm]
      · have hsame : UcdrMemory.store stream ub'.iterator
            (read stream.base.buffer ub'.iterator 1) = stream := by
          simp only [UcdrMemory.store, ReliableStream.store, write_read]
        obtain ⟨m', -, hm'⟩ := hcheck trail.length
        change (ucdrArrayToBuffer onFullOutputBuffer
          (stream.base.buffer (ub'.iterator + 0) :: trail) stream ub).1 = stream
        rw [ucdrArrayToBuffer, hm']
        dsimp only
        split
        · rfl
        · exact (congrArg (fun st => (ucdrArrayToBuffer onFullOutputBuffer trail st
            (ub'.advance 1 1)).1) hsame).trans heq
  | cons b bytes ih =>
    obtain ⟨ub', m, hcheck⟩ := ucdrCheckFinalBufferBehaviorArray_succ stream ub
    obtain ⟨trail, htrail, heq⟩ :=
      ih (UcdrMemory.store stream ub'.iterator [b]) (ub'.advance 1 1)
    refine ⟨trail, htrail, ?_⟩
    obtain ⟨m₁, h₁, hcheck₁⟩ := hcheck (bytes ++ trail).length
    obtain ⟨m₂, h₂, hcheck₂⟩ := hcheck bytes.length
    rw [List.cons_append, ucdrArrayToBuffer, ucdrArrayToBuffer, hcheck₁, hcheck₂]
    dsimp only
    by_cases hzero : m = 0
    · rw [if_pos (h₁.mpr hzero), if_pos (h₂.mpr hzero)]
    · rw [if_neg fun h => hzero (h₁.mp h), if_neg fun h => hzero (h₂.mp h)]
      exact heq

/-- A basic type for which there is no room asks for the next window. -/
lemma ucdrCheckFinalBufferBehavior_of_callback (stream : OutputReliableStream) {ub : UcdrBuffer}
    {bytes : ℕ} (herror : ub.error = false) (hfull : ¬ ub.iterator + bytes ≤ ub.final)
    (hcallback : ub.onFullBuffer = true) :
    ucdrCheckFinalBufferBehavior onFullOutputBuffer stream ub bytes =
      (stream, (onFullOutputBuffer stream ub).2.1, true) := by
  unfold ucdrCheckFinalBufferBehavior
  rw [if_neg (by simp [herror]), if_neg hfull, if_pos hcallback]
  rfl

/-- What a header of two bytes and a window of two bytes leave for the next window. -/
structure SplitsHeader (stream : OutputReliableStream) (ub : UcdrBuffer) (id flags : UInt8) :
    Prop where
  window : ub.iterator + 2 = ub.final
  ready : (onFullOutputBuffer (UcdrMemory.store stream ub.iterator [id, flags])
    (ub.advance 2 1)).2.1.Ready
  room : (onFullOutputBuffer (UcdrMemory.store stream ub.iterator [id, flags])
      (ub.advance 2 1)).2.1.iterator + 2 ≤
    (onFullOutputBuffer (UcdrMemory.store stream ub.iterator [id, flags])
      (ub.advance 2 1)).2.1.final

/-- A header whose length starts the next window goes where an array would go. -/
lemma uxrSerializeSubmessageHeader_split (stream : OutputReliableStream) {ub : UcdrBuffer}
    {id flags : UInt8} (length : ℕ) (herror : ub.error = false)
    (hcallback : ub.onFullBuffer = true) (haligned : (ub.offset - ub.origin) % 2 = 0)
    (horigin : ub.origin ≤ ub.offset) (hsplit : SplitsHeader stream ub id flags) :
    let next := onFullOutputBuffer (UcdrMemory.store stream ub.iterator [id, flags])
      (ub.advance 2 1)
    uxrSerializeSubmessageHeader onFullOutputBuffer stream ub id flags length =
      (UcdrMemory.store (UcdrMemory.store stream ub.iterator [id, flags]) next.2.1.iterator
          [UInt8.ofNat length, UInt8.ofNat (length / 256)], next.2.1.advance 2 2) := by
  have hwindow := hsplit.window
  intro next
  have h₁ : serializeBasic onFullOutputBuffer stream ub [id] =
      (UcdrMemory.store stream ub.iterator [id], ub.advance 1 1) :=
    serializeBasic_of_room _ stream ub [id] herror (show ub.iterator + 1 ≤ ub.final by omega)
  have h₂ : serializeBasic onFullOutputBuffer (UcdrMemory.store stream ub.iterator [id])
      (ub.advance 1 1) [flags] =
        (UcdrMemory.store stream ub.iterator [id, flags], ub.advance 2 1) := by
    rw [serializeBasic_of_room _ _ (ub.advance 1 1) [flags] herror
      (show ub.iterator + 1 + 1 ≤ ub.final by omega)]
    exact Prod.ext (LawfulUcdrMemory.store_append stream ub.iterator [id] [flags]) rfl
  have hpad : ucdrBufferAlignment (ub.advance 2 1) 2 = 0 :=
    ucdrBufferAlignment_of_aligned (show (ub.offset + 2 - ub.origin) % 2 = 0 by omega)
  have hcheck : ucdrCheckFinalBufferBehavior onFullOutputBuffer
      (UcdrMemory.store stream ub.iterator [id, flags]) ((ub.advance 2 1).skip 0) 2 =
        (UcdrMemory.store stream ub.iterator [id, flags], next.2.1, true) :=
    ucdrCheckFinalBufferBehavior_of_callback _ herror
      (show ¬ ub.iterator + 2 + 0 + 2 ≤ ub.final by omega) hcallback
  simp only [uxrSerializeSubmessageHeader, ucdrSerializeUint8, ucdrSerializeLittleUint16, h₁, h₂,
    hpad]
  unfold serializeBasic
  simp only [List.length_cons, List.length_nil, Nat.zero_add, hcheck, if_true]

/-- A header and a payload go where an array of both would go, when the first window takes the
header, or the first half of it. -/
theorem serialize_windows (stream : OutputReliableStream) {ub : UcdrBuffer} (id mode : UInt8)
    (length : ℕ) (payload : List UInt8) (hready : ub.Ready) (hcallback : ub.onFullBuffer = true)
    (haligned : (ub.offset - ub.origin) % 4 = 0) (horigin : ub.origin ≤ ub.offset)
    (hroom : ub.iterator + 4 ≤ ub.final ∨ SplitsHeader stream ub id (mode ||| 1)) :
    (ucdrSerializeArrayUint8 onFullOutputBuffer
        (uxrBufferSubmessageHeader onFullOutputBuffer stream ub id length mode).1
        (uxrBufferSubmessageHeader onFullOutputBuffer stream ub id length mode).2.1 payload).1 =
      (ucdrArrayToBuffer onFullOutputBuffer (submessageHeader id (mode ||| 1) length ++ payload)
        stream ub).1 := by
  have hwindow := hready.window_lt
  rcases hroom with hroom | hsplit
  · have hheader := uxrBufferSubmessageHeader_of_room onFullOutputBuffer stream ub id mode length
      hready.noError haligned horigin hroom
    have hwhole : ucdrArrayToBuffer onFullOutputBuffer
        (submessageHeader id (mode ||| 1) length ++ payload) stream ub =
          ucdrArrayToBuffer onFullOutputBuffer payload (UcdrMemory.store stream ub.iterator
            (submessageHeader id (mode ||| 1) length)) (ub.advance 4 1) := by
      have hne : submessageHeader id (mode ||| 1) length ≠ [] := List.cons_ne_nil _ _
      exact ucdrArrayToBuffer_window _ _ hready hne hroom payload
    rw [hheader, hwhole]
    exact ucdrArrayToBuffer_congr payload _ (ub.advance 4 1) 2 ucdrMachineEndianness
  · have hlt := hready.lt_final
    have hwindow := hsplit.window
    have hpad : ucdrBufferAlignment ub 4 = 0 := ucdrBufferAlignment_of_aligned haligned
    have hub : ({ ucdrAlignTo ub 4 with endianness := ucdrMachineEndianness } : UcdrBuffer) =
        { ub with endianness := ucdrMachineEndianness, lastDataSize := 4 } := by
      simp only [ucdrAlignTo, hpad, Nat.add_zero, Nat.min_eq_left hlt.le]
    obtain ⟨opened, hopened⟩ : ∃ opened,
      opened = UcdrMemory.store stream ub.iterator [id, mode ||| 1] := ⟨_, rfl⟩
    obtain ⟨next, hnext⟩ : ∃ next, next = (onFullOutputBuffer opened (ub.advance 2 1)).2.1 :=
      ⟨_, rfl⟩
    have hheader : uxrSerializeSubmessageHeader onFullOutputBuffer stream
        { ub with endianness := ucdrMachineEndianness, lastDataSize := 4 } id (mode ||| 1) length =
          (UcdrMemory.store opened next.iterator [UInt8.ofNat length, UInt8.ofNat (length / 256)],
            next.advance 2 2) := by
      rw [hnext, hopened]
      exact uxrSerializeSubmessageHeader_split stream length hready.noError hcallback
        (show (ub.offset - ub.origin) % 2 = 0 by omega) horigin
        ⟨hsplit.window, hsplit.ready, hsplit.room⟩
    have hnextReady := hsplit.ready
    have hnextRoom := hsplit.room
    rw [← hopened, ← hnext] at hnextReady hnextRoom
    -- an array opens the next window at the same place
    have hfirst : ucdrArrayToBuffer onFullOutputBuffer
        (submessageHeader id (mode ||| 1) length ++ payload) stream ub =
          ucdrArrayToBuffer onFullOutputBuffer
            ([UInt8.ofNat length, UInt8.ofNat (length / 256)] ++ payload) opened
            (ub.advance 2 1) := by
      rw [hopened]
      exact ucdrArrayToBuffer_window onFullOutputBuffer stream hready
        (List.cons_ne_nil id [mode ||| 1]) hsplit.window.le
        ([UInt8.ofNat length, UInt8.ofNat (length / 256)] ++ payload)
    have hsecond : ucdrArrayToBuffer onFullOutputBuffer
        ([UInt8.ofNat length, UInt8.ofNat (length / 256)] ++ payload) opened (ub.advance 2 1) =
          ucdrArrayToBuffer onFullOutputBuffer payload
            (UcdrMemory.store opened next.iterator
              [UInt8.ofNat length, UInt8.ofNat (length / 256)]) (next.advance 2 1) := by
      have hne : [UInt8.ofNat length, UInt8.ofNat (length / 256)] ++ payload ≠ [] :=
        List.cons_ne_nil _ _
      rw [ucdrArrayToBuffer_full onFullOutputBuffer opened (ub.advance 2 1) hready.noError hcallback
        hsplit.window (by rw [hnext]; rfl) hnextReady hne]
      have hne' : [UInt8.ofNat length, UInt8.ofNat (length / 256)] ≠ [] := List.cons_ne_nil _ _
      exact ucdrArrayToBuffer_window onFullOutputBuffer opened hnextReady hne' hnextRoom payload
    unfold uxrBufferSubmessageHeader
    rw [hub]
    simp only [show ucdrMachineEndianness.toUInt8 = 1 from rfl, hheader]
    rw [hfirst, hsecond]
    exact ucdrArrayToBuffer_congr payload _ (next.advance 2 1) 2 next.endianness

/-- Where the first window of a fragmented write has room for two bytes, the next one has room
for two more. -/
lemma FragmentSlots.splitsHeader {length : ℕ} (h : FragmentSlots stream length)
    (hlength : LengthFits stream length) (htakes : TakesFragments stream length)
    (hfirst : firstFragmentSize stream = 2) (hmin : 4 ≤ length)
    (hwindow : WindowAt (layFragments stream length).base ub (firstFragmentSeqNum stream).val
      (heldSize stream 0 + subheaderSize) (firstFragmentSize stream)) (id flags : UInt8) :
    SplitsHeader (layFragments stream length) ub id flags := by
  have hF : firstFragmentSeqNum stream = seqOf (firstFragmentSeqNum stream).val :=
    (seqOf_self _).symm
  have honly := layFragments_onlySlots hF h.ready
  have hiterator := hwindow.iterator_eq
  have hfinal := hwindow.final_eq
  obtain ⟨hfirst', hblock, -, -, hpos, hsum⟩ := h.sizes hlength htakes
  have hsize := h.layFragments_bufferSize hlength htakes (k := 1) (by omega)
  have hbounds := h.announcedSize_bounds hlength htakes 1
  have hle : stream.offset ≤ firstFragmentBufferSize stream := by
    rcases h.first with heq | ⟨-, hlt⟩
    · exact heq.ge
    · exact hlt.le
  have hannounced : 2 ≤ announcedSize stream length 1 := by
    unfold announcedSize
    split
    · next heq =>
      rw [← heq, Nat.sub_self, Nat.zero_mul] at hsum
      omega
    · rw [if_neg (by omega)]
      omega
  have hheld : heldSize stream 1 = stream.offset := if_neg (by omega)
  have hstart : heldSize stream 0 = firstFragmentBufferSize stream := if_pos rfl
  rw [hheld] at hsize hbounds
  have hconsecutive := h.consecutive 0 hpos
  rw [Nat.add_zero] at hconsecutive
  have hoffset := layFragments_offset stream length
  rw [← hoffset, ← honly.capacity_eq] at hbounds
  rw [← hoffset] at hsize
  rw [hstart] at hwindow
  rw [← honly.capacity_eq] at hfirst'
  generalize layFragments stream length = laid at *
  -- the first half of the header is in its slot
  have hframe : SlotFrame laid.base (laid.base.store (uxrGetReliableBuffer laid.base
      (seqOf (firstFragmentSeqNum stream).val) +
        (firstFragmentBufferSize stream + subheaderSize)) [id, flags])
      (seqOf (firstFragmentSeqNum stream).val)
      (firstFragmentBufferSize stream + subheaderSize) := by
    refine store_slotFrame ?_
    simp only [List.length_cons, List.length_nil]
    omega
  have hopened : UcdrMemory.store laid ub.iterator [id, flags] =
      { laid with
        base := laid.base.store (uxrGetReliableBuffer laid.base
          (seqOf (firstFragmentSeqNum stream).val) +
            (firstFragmentBufferSize stream + subheaderSize)) [id, flags] } := by
    rw [hiterator, hwindow.init_eq]
    rfl
  generalize laid.base.store (uxrGetReliableBuffer laid.base
    (seqOf (firstFragmentSeqNum stream).val) +
      (firstFragmentBufferSize stream + subheaderSize)) [id, flags] = base at hframe hopened
  rw [← hframe.capacity_eq] at hbounds
  rw [← hframe.bufferSize_eq] at hsize
  have hnext := onFullOutputBuffer_eq { laid with base := base } (ub.advance 2 1)
    (X := (firstFragmentSeqNum stream).val)
    (by
      change uxrGetReliableBuffer base _ ≤ ub.init
      rw [hframe.buffer_eq, hwindow.init_eq]
      exact Nat.le_add_right _ _)
    (by
      change ub.init < uxrGetReliableBuffer base _ + uxrGetReliableBufferCapacity base
      rw [hframe.buffer_eq, hframe.capacity_eq, hwindow.init_eq]
      omega)
    (by
      change slotOf base.history _ = (slotOf base.history _ + 1) % base.history
      rw [hframe.history_eq, honly.history_eq]
      exact hconsecutive)
  obtain ⟨next, heq⟩ : ∃ next,
      next = (onFullOutputBuffer { laid with base := base } (ub.advance 2 1)).2.1 := ⟨_, rfl⟩
  have hwindow' : WindowAt base next ((firstFragmentSeqNum stream).val + 1)
      (laid.offset + subheaderSize) (announcedSize stream length 1) := by
    rw [heq, hnext]
    exact windowAt_next { laid with base := base } (ub.advance 2 1).offset hsize hbounds.2
  have hready' : next.Ready :=
    (show WindowAt ({ laid with base := base } : OutputReliableStream).base next _ _ _ from
      hwindow').ready hbounds.1 hbounds.2
  have hiterator' := hwindow'.iterator_eq
  have hfinal' := hwindow'.final_eq
  refine ⟨by omega, ?_, ?_⟩ <;> rw [hopened, ← heq]
  · exact hready'
  · omega

/-- A submessage that needs several slots goes to them with whatever stands behind it. -/
theorem serialize_fragments (payload : List UInt8) (id mode : UInt8)
    (h : FragmentSlots stream (submessageSize payload.length))
    (hlength : LengthFits stream (submessageSize payload.length))
    (htakes : TakesFragments stream (submessageSize payload.length))
    (hsplit : firstFragmentSize stream ≠ 1 ∧ firstFragmentSize stream ≠ 3) (length : ℕ)
    (ub : UcdrBuffer) :
    ∃ ub' bytes, uxrPrepareReliableBufferToWrite stream (submessageSize payload.length) ub =
        some ⟨true, ub', layFragments stream (submessageSize payload.length)⟩ ∧
      bytes.length = submessageSize payload.length ∧
      submessageHeader id (mode ||| 1) length ++ payload <+: bytes ∧
      (ucdrSerializeArrayUint8 onFullOutputBuffer
          (uxrBufferSubmessageHeader onFullOutputBuffer
            (layFragments stream (submessageSize payload.length)) ub' id length mode).1
          (uxrBufferSubmessageHeader onFullOutputBuffer
            (layFragments stream (submessageSize payload.length)) ub' id length mode).2.1
          payload).1 =
        { layFragments stream bytes.length with
          base := storeChunks (stream.offset + subheaderSize)
            (layFragments stream bytes.length).base (firstFragmentSeqNum stream).val
            (heldSize stream 0 + subheaderSize) (cutPayloads stream bytes) } := by
  have hF : firstFragmentSeqNum stream = seqOf (firstFragmentSeqNum stream).val :=
    (seqOf_self _).symm
  obtain ⟨ub', hprepare, hwindow, horigin⟩ := h.prepare_eq hlength htakes ub
  obtain ⟨hfirst, -⟩ := h.sizes hlength htakes
  have hlt := h.first_lt
  have hiterator := hwindow.iterator_eq
  have hfinal := hwindow.final_eq
  have hready := hwindow.ready (by omega) (by
    rw [(layFragments_onlySlots hF h.ready).capacity_eq]
    exact hfirst.le)
  have hmin := submessageSize_pos payload.length
  obtain ⟨trail, htrail, hsame⟩ := exists_trail
    (submessageHeader id (mode ||| 1) length ++ payload) (uxrSubmessagePadding payload.length)
    (layFragments stream (submessageSize payload.length)) ub'
  have hbytes : (submessageHeader id (mode ||| 1) length ++ payload ++ trail).length =
      submessageSize payload.length := by
    rw [List.length_append, List.length_append, htrail]
    rfl
  refine ⟨ub', _, hprepare, hbytes, List.prefix_append _ trail, ?_⟩
  rw [serialize_windows _ id mode length payload hready hwindow.callback (by omega) (by omega),
    ← hsame]
  · rw [← hbytes] at h hlength htakes hwindow ⊢
    exact h.stored_eq hlength htakes hwindow
  · rcases Nat.lt_or_ge (firstFragmentSize stream) 4 with hlt | hge
    · exact .inr (h.splitsHeader hlength htakes (by omega) hmin hwindow id (mode ||| 1))
    · exact .inl (by omega)

end Windows

end XrceDds
