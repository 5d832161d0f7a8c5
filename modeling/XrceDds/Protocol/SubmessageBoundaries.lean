import XrceDds.Agent.SubmessageRow
import XrceDds.Client.ReadHandlers
import XrceDds.Client.SlotWindows

/-!
# Submessage boundaries

A message is a row of submessages, and bytes behind it that are too few for a header.  Reading it
respects the boundaries when `read_submessage` is called once for every submessage, in order, with
the buffer behind its header and with its id, flags and length (`dispatches`).
-/

namespace XrceDds

open ByteMemory

namespace SubmessageList

/-- What is announced of a submessage. -/
def announced (submessage : Submessage) : Header :=
  ⟨submessage.submessageId, withoutEndianness submessage.flags, submessage.payload.length⟩

/-- How far it is from the end of the header of a submessage to the next header. -/
def paddedLength (submessage : Submessage) : ℕ :=
  submessage.payload.length + submessage.padding.length

/-- The calls for a row of submessages that starts at the position `h` of a message, whose bytes are
at the given addresses. -/
def dispatches (address : ℕ → ℕ) : ℕ → List Submessage → List Dispatch
  | _, [] => []
  | h, submessage :: submessages =>
    ⟨address h + subheaderSize, announced submessage⟩ ::
      dispatches address (h + subheaderSize + paddedLength submessage) submessages

/-- Reading ends, and calls are made as given. -/
def Reads (reader : Reader) (header : Header) (stream : InputReliableStream) (ub : UcdrBuffer)
    (calls : List Dispatch) : Prop :=
  ∃ n r, readSubmessageList reader n header stream ub = some r ∧ r.2.2 = calls

section Reads

variable {reader : Reader} {header header' : Header} {stream stream' : InputReliableStream}
  {ub ub' : UcdrBuffer} {calls : List Dispatch}

/-- Without a header the list ends. -/
lemma readSubmessageList_of_end (reader : Reader)
    (hend : uxrReadSubmessageHeader header stream ub = (stream', ub', header', false)) (n : ℕ) :
    readSubmessageList reader (n + 1) header stream ub = some (stream', ub', []) := by
  rw [readSubmessageList, hend]
  rfl

/-- Behind a header the handler is called. -/
lemma readSubmessageList_of_header
    (hheader : uxrReadSubmessageHeader header stream ub = (stream', ub', header', true)) (n : ℕ) :
    readSubmessageList reader (n + 1) header stream ub =
      (readSubmessageList reader n header' (readSubmessage reader header' stream' ub').1
        (readSubmessage reader header' stream' ub').2).map fun s =>
          (s.1, s.2.1, ⟨ub'.iterator, header'⟩ :: s.2.2) := by
  rw [readSubmessageList, hheader]
  rfl

/-- More headers do not change what was read. -/
lemma readSubmessageList_mono {n : ℕ} {r : InputReliableStream × UcdrBuffer × List Dispatch}
    (heq : readSubmessageList reader n header stream ub = some r) (k : ℕ) :
    readSubmessageList reader (n + k) header stream ub = some r := by
  induction n generalizing header stream ub r with
  | zero => cases heq
  | succ n ih =>
    rw [Nat.add_right_comm]
    rcases hheader : uxrReadSubmessageHeader header stream ub with ⟨stream', ub', header', ready⟩
    cases ready with
    | true =>
      rw [readSubmessageList_of_header hheader] at heq ⊢
      obtain ⟨s, hs, rfl⟩ := Option.map_eq_some_iff.mp heq
      rw [ih hs, Option.map_some]
    | false =>
      rw [readSubmessageList_of_end reader hheader] at heq ⊢
      exact heq

/-- A list is read in one way. -/
lemma readSubmessageList_unique {n m : ℕ} {r s : InputReliableStream × UcdrBuffer × List Dispatch}
    (hn : readSubmessageList reader n header stream ub = some r)
    (hm : readSubmessageList reader m header stream ub = some s) : r = s := by
  have hn' := readSubmessageList_mono hn m
  rw [Nat.add_comm, readSubmessageList_mono hm n] at hn'
  exact (Option.some.inj hn').symm

/-- Without a header no call is made. -/
lemma reads_of_end
    (hend : uxrReadSubmessageHeader header stream ub = (stream', ub', header', false)) :
    Reads reader header stream ub calls ↔ calls = [] := by
  constructor
  · rintro ⟨n, r, heq, rfl⟩
    cases n with
    | zero => cases heq
    | succ n =>
      rw [readSubmessageList_of_end reader hend] at heq
      rw [← Option.some.inj heq]
  · rintro rfl
    exact ⟨0 + 1, _, readSubmessageList_of_end reader hend 0, rfl⟩

/-- Behind a header the handler is called, and then reading goes on. -/
lemma reads_of_header
    (hheader : uxrReadSubmessageHeader header stream ub = (stream', ub', header', true)) :
    Reads reader header stream ub calls ↔ ∃ rest, calls = ⟨ub'.iterator, header'⟩ :: rest ∧
      Reads reader header' (readSubmessage reader header' stream' ub').1
        (readSubmessage reader header' stream' ub').2 rest := by
  constructor
  · rintro ⟨n, r, heq, rfl⟩
    cases n with
    | zero => cases heq
    | succ n =>
      rw [readSubmessageList_of_header hheader] at heq
      obtain ⟨s, hs, rfl⟩ := Option.map_eq_some_iff.mp heq
      exact ⟨s.2.2, rfl, n, s, hs, rfl⟩
  · rintro ⟨rest, rfl, n, s, heq, rfl⟩
    refine ⟨n + 1, (s.1, s.2.1, ⟨ub'.iterator, header'⟩ :: s.2.2), ?_, rfl⟩
    rw [readSubmessageList_of_header hheader, heq, Option.map_some]

end Reads

/-- The bytes of a header. -/
lemma subheader_bytes (submessage : Submessage) :
    submessage.subheader.serialize = [submessage.submessageId, submessage.flags,
      UInt8.ofNat submessage.payload.length, UInt8.ofNat (submessage.payload.length / 256)] := rfl

/-- The length that is announced. -/
lemma length_of_bytes (submessage : Submessage) :
    (UInt8.ofNat submessage.payload.length).toNat +
        256 * (UInt8.ofNat (submessage.payload.length / 256)).toNat =
      submessage.payload.length := by
  have hlt := submessage.payload_length
  have hdecode := decodeLE_encodeLE_of_lt (w := 2) hlt
  simpa [encodeLE, decodeLE] using hdecode

/-- Behind a padded payload the row goes on. -/
lemma drop_paddedLength (submessage next : Submessage) (submessages : List Submessage)
    (tail : List UInt8) :
    (submessage.payload ++ submessage.behindPayload (next :: submessages) ++ tail).drop
        (paddedLength submessage) =
      Submessage.row (next :: submessages) ++ tail := by
  rw [Submessage.behindPayload, paddedLength, ← List.append_assoc, List.append_assoc,
    ← List.length_append, List.drop_left]

/-! ## A message in one piece -/

/-- A buffer holds a message in one piece: it has no callback, and stands where a header may. -/
structure HoldsMessage (stream : InputReliableStream) (ub : UcdrBuffer) (body : List UInt8) :
    Prop where
  error_eq : ub.error = false
  callback_eq : ub.onFullBuffer = false
  final_eq : ub.final = ub.iterator + body.length
  length_lt : body.length < 18446744073709551616
  bytes_eq : read stream.base.buffer ub.iterator body.length = body
  origin_le : ub.origin ≤ ub.offset
  aligned : (ub.offset - ub.origin) % 4 = 0

/-- Every handler but the last one reads as far as to the next header, and the last one leaves no
room for one. -/
def LandsOnHeaders (reader : Reader) (tail : List UInt8) : List Submessage → Prop
  | [] => True
  | [submessage] =>
    submessage.payload.length + tail.length <
      lands reader (announced submessage) (submessage.payload ++ tail) + subheaderSize
  | submessage :: next :: submessages =>
    lands reader (announced submessage)
        (submessage.payload ++ submessage.behindPayload (next :: submessages) ++ tail) =
      paddedLength submessage ∧ LandsOnHeaders reader tail (next :: submessages)

instance decidableLandsOnHeaders (reader : Reader) (tail : List UInt8) :
    ∀ submessages, Decidable (LandsOnHeaders reader tail submessages)
  | [] => .isTrue trivial
  | [_] => inferInstanceAs (Decidable (_ < _))
  | _ :: next :: submessages =>
    have := decidableLandsOnHeaders reader tail (next :: submessages)
    inferInstanceAs (Decidable (_ = _ ∧ LandsOnHeaders reader tail (next :: submessages)))

/-- There are no other windows. -/
def wholeSource : WindowSource where
  Behind _ windows _ := windows = []
  Crosses _ := True
  behind_flag _ h := h
  crosses_flag _ := trivial
  cross h _ := by cases h

lemma HoldsMessage.cursor {stream : InputReliableStream} {ub : UcdrBuffer} {body : List UInt8}
    (h : HoldsMessage stream ub body) : Cursor wholeSource stream ub body [] :=
  ⟨h.error_eq, h.final_eq, h.length_lt, h.bytes_eq, h.origin_le, rfl, fun hne => (hne rfl).elim,
    fun _ hwindow => (List.not_mem_nil hwindow).elim, fun _ => h.aligned⟩

end SubmessageList

namespace Cursor

open SubmessageList

variable {source : WindowSource} {stream : InputReliableStream} {ub : UcdrBuffer}
  {bytes : List UInt8} {windows : List Window} {reader : Reader}

/-- Where there is room for a header one is read. -/
lemma readHeader_of_le (h : Cursor source stream ub bytes windows)
    (hroom : alignmentGap ub.phase + subheaderSize ≤ bytes.length) (header : Header) :
    ∃ ub' header', SubmessageList.uxrReadSubmessageHeader header stream ub =
      (stream, ub', header', true) ∧
      ub'.iterator = ub.iterator + alignmentGap ub.phase + subheaderSize := by
  have hlength : 4 ≤ (bytes.drop (alignmentGap ub.phase)).length := by
    rw [List.length_drop]
    unfold subheaderSize at hroom
    omega
  match hbytes : bytes.drop (alignmentGap ub.phase), hlength with
  | id :: flags :: lo :: hi :: rest, _ =>
    obtain ⟨ub', hheader, -, -, hiterator, -⟩ := h.readHeader (p := 0) (by omega) hbytes header
    exact ⟨ub', _, hheader, hiterator⟩

/-- The first call is made behind the first header, if there is one. -/
lemma reads_cons (h : Cursor source stream ub bytes windows) {header : Header} {call : Dispatch}
    {calls : List Dispatch} (hreads : Reads reader header stream ub (call :: calls)) :
    call.address = ub.iterator + alignmentGap ub.phase + subheaderSize := by
  by_cases hroom : bytes.length < alignmentGap ub.phase + subheaderSize
  · rw [reads_of_end (h.readHeader_of_lt hroom header)] at hreads
    cases hreads
  · obtain ⟨ub', header', hheader, hiterator⟩ :=
      h.readHeader_of_le (Nat.le_of_not_lt hroom) header
    rw [reads_of_header hheader] at hreads
    obtain ⟨rest, heq, -⟩ := hreads
    obtain ⟨rfl, rfl⟩ := List.cons.inj heq
    exact hiterator

/-- Where there is room for a header a call is made. -/
lemma not_reads_nil (h : Cursor source stream ub bytes windows) {header : Header}
    (hroom : alignmentGap ub.phase + subheaderSize ≤ bytes.length) :
    ¬ Reads reader header stream ub [] := by
  obtain ⟨ub', header', hheader, -⟩ := h.readHeader_of_le hroom header
  rw [reads_of_header hheader]
  rintro ⟨rest, heq, -⟩
  cases heq

/-- The header of a submessage is read. -/
lemma readHeader_submessage (h : Cursor source stream ub bytes windows) {submessage : Submessage}
    {left : List UInt8}
    (hbytes : bytes.drop (alignmentGap ub.phase) = submessage.subheader.serialize ++ left)
    (hgap : alignmentGap ub.phase ≤ bytes.length) (p : ℕ) (header : Header) :
    ∃ ub', SubmessageList.uxrReadSubmessageHeader header stream ub =
        (stream, ub', announced submessage, true) ∧
      Moved source p (alignmentGap ub.phase + 4) stream ub bytes windows stream ub' left
        windows ∧
      ub'.phase % 4 = 0 ∧ ub'.iterator = ub.iterator + alignmentGap ub.phase + 4 ∧
      ub'.onFullBuffer = ub.onFullBuffer := by
  rw [subheader_bytes] at hbytes
  obtain ⟨ub', hheader, hmoved⟩ := h.readHeader (p := p) hgap hbytes header
  rw [length_of_bytes] at hheader
  exact ⟨ub', hheader, hmoved⟩

/-- A row of submessages in one piece is read submessage for submessage exactly when every handler
lands on the next header. -/
lemma reads_iff (submessages : List Submessage) {tail : List UInt8} {position start : ℕ}
    (h : Cursor source stream ub bytes []) (hcallback : ub.onFullBuffer = false)
    (hgap : alignmentGap ub.phase ≤ bytes.length)
    (hbytes : bytes.drop (alignmentGap ub.phase) = Submessage.row submessages ++ tail)
    (htail : tail.length < subheaderSize)
    (hplace : ub.iterator + alignmentGap ub.phase = start + position) (header : Header) :
    Reads reader header stream ub (dispatches (start + ·) position submessages) ↔
      LandsOnHeaders reader tail submessages := by
  induction submessages generalizing stream ub bytes position header with
  | nil =>
    have hlength := congrArg List.length hbytes
    rw [List.length_drop, Submessage.row, List.nil_append] at hlength
    rw [reads_of_end (h.readHeader_of_lt (by omega) header)]
    exact iff_of_true rfl trivial
  | cons submessage submessages ih =>
    obtain ⟨left, hleft⟩ : ∃ left, left =
        submessage.payload ++ submessage.behindPayload submessages ++ tail := ⟨_, rfl⟩
    rw [Submessage.row_cons, List.append_assoc, ← hleft] at hbytes
    obtain ⟨ub', hheader, hmoved, hphase, hiterator, hcallback'⟩ :=
      h.readHeader_submessage hbytes hgap 0 header
    obtain ⟨stream₂, ub₂, heq, hcallback₂, hor⟩ := hmoved.cursor.readSubmessage_whole
      (hcallback'.trans hcallback) reader (announced submessage) hphase
    have hreads : ∀ calls, Reads reader header stream ub
        (⟨ub.iterator + alignmentGap ub.phase + 4, announced submessage⟩ :: calls) ↔
          Reads reader (announced submessage) stream₂ ub₂ calls := by
      intro calls
      rw [reads_of_header hheader, hiterator, heq]
      constructor
      · rintro ⟨rest, hcalls, hrest⟩
        rwa [(List.cons.inj hcalls).2]
      · exact fun hrest => ⟨calls, rfl, hrest⟩
    rw [dispatches, ← hplace, show subheaderSize = 4 from rfl, hreads]
    cases submessages with
    | nil =>
      have hlast : left = submessage.payload ++ tail := by
        rw [hleft, Submessage.behindPayload, List.append_nil]
      have hlength : left.length = submessage.payload.length + tail.length := by
        rw [hlast, List.length_append]
      rw [dispatches, LandsOnHeaders, ← hlast, ← hlength]
      rcases hor with ⟨k, hk, hcursor, hlands, -⟩ | ⟨hended, hlt⟩
      · by_cases hroom : (left.drop k).length < alignmentGap ub₂.phase + subheaderSize
        · rw [reads_of_end (hcursor.readHeader_of_lt hroom _)]
          rw [List.length_drop] at hroom
          exact iff_of_true rfl (by omega)
        · refine iff_of_false (fun hnil => ?_) ?_
          · exact hcursor.not_reads_nil (Nat.le_of_not_lt hroom) hnil
          · rw [List.length_drop] at hroom
            omega
      · rw [reads_of_end (hended.readHeader _ _)]
        exact iff_of_true rfl (by omega)
    | cons next submessages =>
      have hpadded : left.drop (paddedLength submessage) =
          Submessage.row (next :: submessages) ++ tail := by
        rw [hleft, drop_paddedLength]
      have hroom : paddedLength submessage + 4 ≤ left.length := by
        have hlength := congrArg List.length hpadded
        rw [List.length_drop, List.length_append, Submessage.row_cons, List.length_append,
          subheader_bytes] at hlength
        simp only [List.length_cons, List.length_nil] at hlength
        omega
      rw [LandsOnHeaders, ← hleft]
      rcases hor with ⟨k, hk, hcursor, hlands, hiterator₂⟩ | ⟨hended, hlt⟩
      · by_cases hon : lands reader (announced submessage) left = paddedLength submessage
        · rw [and_iff_right hon]
          refine ih hcursor hcallback₂ (by rw [List.length_drop]; omega) ?_ (by omega) _
          rw [List.drop_drop, hlands, hon, hpadded]
        · refine iff_of_false (fun hreads₂ => hon ?_) fun hand => hon hand.1
          have haddress := hcursor.reads_cons hreads₂
          dsimp only at haddress
          omega
      · rw [reads_of_end (hended.readHeader _ _)]
        exact iff_of_false (List.cons_ne_nil _ _) fun hand => by omega

end Cursor

namespace SubmessageList

/-- A message in one piece is read submessage for submessage exactly when every handler lands on the
next header. -/
theorem reads_message_iff (reader : Reader) {stream : InputReliableStream} {ub : UcdrBuffer}
    (submessages : List Submessage) (tail : List UInt8) (htail : tail.length < subheaderSize)
    (h : HoldsMessage stream ub (Submessage.row submessages ++ tail)) (header : Header) :
    Reads reader header stream ub (dispatches (ub.iterator + ·) 0 submessages) ↔
      LandsOnHeaders reader tail submessages := by
  have hgap : alignmentGap ub.phase = 0 := by
    have haligned := h.aligned
    unfold UcdrBuffer.phase alignmentGap
    omega
  refine h.cursor.reads_iff submessages h.callback_eq (by omega) ?_ htail (by omega) header
  rw [hgap, List.drop_zero]

/-- A stream of two slots of 16 bytes with the given bytes in its buffer. -/
def receivedBytes (bytes : List UInt8) : InputReliableStream where
  base := { twoSlots 16 sixteen_lt with buffer := fun i => bytes.getD i 0 }
  lastHandled := seqNumMax
  lastAnnounced := seqNumMax
  cleanupFlag := false

/-- A buffer of the bytes. -/
lemma receivedBytes_holds {bytes : List UInt8} (hlt : bytes.length < 18446744073709551616) :
    HoldsMessage (receivedBytes bytes) (ucdrInitBuffer 0 bytes.length) bytes where
  error_eq := rfl
  callback_eq := rfl
  final_eq := rfl
  length_lt := hlt
  bytes_eq := by
    refine List.ext_getElem (length_read _ _ _) fun i hi hi' => ?_
    rw [getElem_read]
    simp [receivedBytes, ucdrInitBuffer, ucdrInitBufferOrigin, ucdrInitBufferOriginOffset, hi']
  origin_le := le_rfl
  aligned := rfl

/-- A reader of a session without callbacks, in a stream. -/
def plainReader : Reader := ⟨false, ⟨none, none, none⟩, 0⟩

/-- A HEARTBEAT. -/
def heartbeatSubmessage : Submessage :=
  ⟨submessageIdHeartbeat, 1, [1, 0, 1, 0, 128], [0, 0, 0], by decide, rfl⟩

/-- A submessage of a kind that the client does not read. -/
def infoSubmessage : Submessage := ⟨6, 1, [0, 0, 0, 0], [], by decide, rfl⟩

/-- A HEARTBEAT is followed by what comes behind it; the payload of the INFO is taken for the header
of another submessage. -/
theorem reads_message_iff_heartbeat :
    Reads plainReader ⟨0, 0, 0⟩
        (receivedBytes (Submessage.row [heartbeatSubmessage, heartbeatSubmessage] ++ [0, 0, 0]))
        (ucdrInitBuffer 0 24)
        [⟨4, ⟨11, 0, 5⟩⟩, ⟨16, ⟨11, 0, 5⟩⟩] ∧
      ¬ Reads plainReader ⟨0, 0, 0⟩ (receivedBytes (Submessage.row [infoSubmessage] ++ []))
        (ucdrInitBuffer 0 8) [⟨4, ⟨6, 0, 4⟩⟩] :=
  ⟨(reads_message_iff plainReader [heartbeatSubmessage, heartbeatSubmessage] [0, 0, 0] (by decide)
      (receivedBytes_holds (by decide)) ⟨0, 0, 0⟩).mpr (by decide),
    fun hreads => absurd ((reads_message_iff plainReader [infoSubmessage] [] (by decide)
      (receivedBytes_holds (by decide)) ⟨0, 0, 0⟩).mp hreads) (by decide)⟩

end SubmessageList

/-! ## A message in fragments -/

namespace SubmessageList

/-- Windows that end at the given positions of a message do not disturb the handler of a submessage
with its header at `h`: none ends in the header, those that end in what the handler reads end at
multiples of four, and nothing is read beyond the message or passed over. -/
structure HandlerFits (reader : Reader) (ends : List ℕ) (h : ℕ) (header : Header)
    (left : List UInt8) : Prop where
  skips_eq : skips reader header left = 0
  takes_le : takes reader header ≤ left.length
  room : ∀ e ∈ ends, h ≤ e → h + subheaderSize ≤ e
  aligned : ∀ e ∈ ends, h + subheaderSize ≤ e →
    e < h + subheaderSize + takes reader header → e % 4 = 0

instance (reader : Reader) (ends : List ℕ) (h : ℕ) (header : Header) (left : List UInt8) :
    Decidable (HandlerFits reader ends h header left) :=
  decidable_of_iff (skips reader header left = 0 ∧ takes reader header ≤ left.length ∧
      (∀ e ∈ ends, h ≤ e → h + subheaderSize ≤ e) ∧
      ∀ e ∈ ends, h + subheaderSize ≤ e → e < h + subheaderSize + takes reader header → e % 4 = 0)
    ⟨fun ⟨h₁, h₂, h₃, h₄⟩ => ⟨h₁, h₂, h₃, h₄⟩, fun ⟨h₁, h₂, h₃, h₄⟩ => ⟨h₁, h₂, h₃, h₄⟩⟩

/-- Windows fit all submessages of a row, and none ends in the padding between two of them. -/
def EndsFit (reader : Reader) (tail : List UInt8) (ends : List ℕ) : ℕ → List Submessage → Prop
  | _, [] => True
  | h, submessage :: submessages =>
    HandlerFits reader ends h (announced submessage)
        (submessage.payload ++ submessage.behindPayload submessages ++ tail) ∧
      (submessages = [] ∨ ∀ e ∈ ends,
        h + subheaderSize + takes reader (announced submessage) ≤ e →
          h + subheaderSize + paddedLength submessage ≤ e) ∧
      EndsFit reader tail ends (h + subheaderSize + paddedLength submessage) submessages

instance decidableEndsFit (reader : Reader) (tail : List UInt8) (ends : List ℕ) :
    ∀ h submessages, Decidable (EndsFit reader tail ends h submessages)
  | _, [] => .isTrue trivial
  | h, submessage :: submessages =>
    have := decidableEndsFit reader tail ends (h + subheaderSize + paddedLength submessage)
      submessages
    inferInstanceAs (Decidable (_ ∧ (_ ∨ _) ∧ EndsFit reader tail ends _ submessages))

/-- Windows that end in what a handler reads end in data, behind the request. -/
def InData (reader : Reader) (ends : List ℕ) : ℕ → List Submessage → Prop
  | _, [] => True
  | h, submessage :: submessages =>
    ((∀ e ∈ ends, h + subheaderSize ≤ e →
        h + subheaderSize + takes reader (announced submessage) ≤ e) ∨
      (HasData (announced submessage) ∧
        ∀ e ∈ ends, h + subheaderSize ≤ e → h + subheaderSize + baseObjectRequestSize ≤ e)) ∧
      InData reader ends (h + subheaderSize + paddedLength submessage) submessages

instance decidableInData (reader : Reader) (ends : List ℕ) :
    ∀ h submessages, Decidable (InData reader ends h submessages)
  | _, [] => .isTrue trivial
  | h, submessage :: submessages =>
    have := decidableInData reader ends (h + subheaderSize + paddedLength submessage) submessages
    inferInstanceAs (Decidable ((_ ∨ _) ∧ InData reader ends _ submessages))

/-- Where the last handler of a row ends. -/
def lastRead (reader : Reader) : ℕ → List Submessage → ℕ
  | h, [] => h
  | h, [submessage] => h + subheaderSize + takes reader (announced submessage)
  | h, submessage :: next :: submessages =>
    lastRead reader (h + subheaderSize + paddedLength submessage) (next :: submessages)

end SubmessageList

namespace Cursor

open SubmessageList

variable {source : WindowSource} {stream : InputReliableStream} {ub : UcdrBuffer}
  {bytes : List UInt8} {windows : List Window} {reader : Reader}

/-- A window that ends behind a header holds it. -/
lemma length_of_ends (windows : List Window) (p : ℕ) {n : ℕ}
    (hlength : n ≤ (leftBytes bytes windows).length)
    (hends : ∀ e ∈ windowEnds p bytes windows, p + n ≤ e) : n ≤ bytes.length := by
  cases windows with
  | nil => simpa [leftBytes] using hlength
  | cons window windows =>
    have := hends _ List.mem_cons_self
    omega

/-- A row of submessages in windows that fit it is read submessage for submessage, and the stream
stands where the last handler left it. -/
lemma reads_fit (reader : Reader) (ends : List ℕ) (address : ℕ → ℕ)
    (submessages : List Submessage) {tail : List UInt8} {p h : ℕ}
    (hcursor : Cursor source stream ub bytes windows)
    (hcrosses : source.Crosses stream ∨ InData reader ends h submessages)
    (hne : submessages ≠ [])
    (hsub : ∀ e ∈ windowEnds p bytes windows, e ∈ ends)
    (hplace : ∀ q, place ((ub.iterator, bytes) :: windows) q = address (p + q))
    (hphase : ub.phase % 4 = p % 4) (hh : h = p + alignmentGap p)
    (hclear : ∀ e ∈ ends, p ≤ e → h ≤ e)
    (hleft : (leftBytes bytes windows).drop (alignmentGap p) = Submessage.row submessages ++ tail)
    (hlands : LandsOnHeaders reader tail submessages)
    (hfit : EndsFit reader tail ends h submessages) (header : Header) :
    ∃ n stream' ub' bytes' windows', readSubmessageList reader n header stream ub =
        some (stream', ub', dispatches address h submessages) ∧
      source.Behind ub'.init windows' stream' ∧
      ∀ e ∈ windowEnds (lastRead reader h submessages) bytes' windows', e ∈ ends := by
  induction submessages generalizing stream ub bytes windows p h header with
  | nil => exact (hne rfl).elim
  | cons submessage submessages ih =>
    obtain ⟨hhandler, hpadding, hfit'⟩ := hfit
    obtain ⟨left, hleft'⟩ : ∃ left, left =
        submessage.payload ++ submessage.behindPayload submessages ++ tail := ⟨_, rfl⟩
    rw [Submessage.row_cons, List.append_assoc, ← hleft'] at hleft
    rw [← hleft'] at hhandler
    have hgap : alignmentGap ub.phase = alignmentGap p := by
      unfold alignmentGap
      rw [hphase]
    -- the header is in the window where the buffer stands
    have hlength := congrArg List.length hleft
    rw [subheader_bytes, List.length_drop, List.length_append] at hlength
    simp only [List.length_cons, List.length_nil] at hlength
    have hroom : alignmentGap p + 4 ≤ bytes.length := by
      refine length_of_ends windows p (by omega) fun e he => ?_
      have := hhandler.room e (hsub e he)
        (hclear e (hsub e he) ((Nat.le_add_right _ _).trans (le_of_mem_windowEnds he)))
      unfold subheaderSize at this
      omega
    have hbytes : bytes.drop (alignmentGap ub.phase) =
        submessage.subheader.serialize ++ bytes.drop (alignmentGap p + 4) := by
      have htake := congrArg (List.take 4) hleft
      unfold leftBytes at htake
      rw [List.drop_append_of_le_length (by omega), List.take_append_of_le_length
        (by rw [List.length_drop]; omega), List.take_left' (subheader_bytes submessage ▸ rfl)]
        at htake
      rw [hgap, ← htake, ← List.drop_drop, List.take_append_drop]
    obtain ⟨ub', hheader, hmoved, hphase', hiterator, -⟩ :=
      hcursor.readHeader_submessage hbytes (by omega) p header
    rw [hgap] at hmoved hiterator
    have hstart : p + (alignmentGap p + 4) = h + 4 := by omega
    have hmod : (h + 4) % 4 = 0 := by
      rw [hh]
      unfold alignmentGap
      omega
    have hfour : subheaderSize = 4 := rfl
    have hends : ∀ e ∈ windowEnds (h + 4) (bytes.drop (alignmentGap p + 4)) windows, e ∈ ends := by
      intro e he
      rw [← hstart] at he
      exact hsub e (hmoved.ends_subset e he)
    have hleft₁ : leftBytes (bytes.drop (alignmentGap p + 4)) windows = left := by
      rw [hmoved.left_eq, ← List.drop_drop, hleft,
        List.drop_left' (subheader_bytes submessage ▸ rfl)]
    have haddress : ub.iterator + alignmentGap p = address h := by
      rw [hh, ← hplace]
      cases windows with
      | nil => rfl
      | cons window windows => rw [place, if_pos (by dsimp only; omega)]
    obtain ⟨stream₂, ub₂, bytes₂, windows₂, heq, hmoved₂⟩ := hmoved.cursor.readSubmessage
      (p := h + 4) reader (announced submessage) (by omega) hmod
      (by rw [hleft₁]; exact hhandler.skips_eq) (by rw [hleft₁]; exact hhandler.takes_le)
      (.inr fun e he hlt =>
        hhandler.aligned e (hends e he) ((Nat.le_add_right _ _).trans (le_of_mem_windowEnds he))
          hlt)
      (by
        rcases hcrosses with hcrosses | ⟨hall | ⟨hdata, hbehind⟩, -⟩
        · exact .inr (.inr (hmoved.crosses hcrosses))
        · exact .inl fun e he =>
            hall e (hends e he) ((Nat.le_add_right _ _).trans (le_of_mem_windowEnds he))
        · exact .inr (.inl ⟨hdata, fun e he =>
            hbehind e (hends e he) ((Nat.le_add_right _ _).trans (le_of_mem_windowEnds he))⟩))
    have hphase₂ : ub₂.phase % 4 = (h + 4 + takes reader (announced submessage)) % 4 :=
      hmoved₂.phase_mod (fun e he hlt =>
        hhandler.aligned e (hends e he) ((Nat.le_add_right _ _).trans (le_of_mem_windowEnds he))
          hlt)
        (by omega)
    have hends₂ : ∀ e ∈ windowEnds (h + 4 + takes reader (announced submessage)) bytes₂ windows₂,
        e ∈ ends := fun e he => hends e (hmoved₂.ends_subset e he)
    have hleft₂ := hmoved₂.left_eq
    rw [hleft₁] at hleft₂
    have hgap₂ : alignmentGap (h + 4 + takes reader (announced submessage)) =
        alignmentGap (takes reader (announced submessage)) := by
      unfold alignmentGap
      omega
    cases submessages with
    | nil =>
      have hlast : left = submessage.payload ++ tail := by
        rw [hleft', Submessage.behindPayload, List.append_nil]
      have hend : bytes₂.length < alignmentGap ub₂.phase + subheaderSize := by
        have hle := congrArg List.length hleft₂
        rw [LandsOnHeaders, ← List.length_append, ← hlast] at hlands
        unfold lands at hlands
        rw [hhandler.skips_eq] at hlands
        unfold leftBytes at hle
        rw [List.length_append, List.length_drop] at hle
        unfold alignmentGap at hgap₂ hlands ⊢
        omega
      have hlist := readSubmessageList_of_end reader
        (hmoved₂.cursor.readHeader_of_lt hend (announced submessage)) 0
      refine ⟨0 + 1 + 1, stream₂, ucdrAlignTo ub₂ 4, bytes₂, windows₂, ?_, hmoved₂.cursor.behind,
        hends₂⟩
      rw [readSubmessageList_of_header hheader, heq, hlist, Option.map_some, dispatches, dispatches,
        hiterator, haddress]
      rfl
    | cons next submessages =>
      rw [LandsOnHeaders, ← hleft'] at hlands
      obtain ⟨hlands, hlands'⟩ := hlands
      unfold lands at hlands
      rw [hhandler.skips_eq, Nat.add_zero] at hlands
      have hclear₂ := hpadding.resolve_left (List.cons_ne_nil _ _)
      have hdrop : left.drop (paddedLength submessage) =
          Submessage.row (next :: submessages) ++ tail := by
        rw [hleft', drop_paddedLength]
      obtain ⟨n, stream', ub'', bytes', windows', hlist, hbehind, hends'⟩ := ih
        (p := h + 4 + takes reader (announced submessage))
        (h := h + subheaderSize + paddedLength submessage) hmoved₂.cursor
        (hcrosses.imp (fun hcrosses => hmoved₂.crosses (hmoved.crosses hcrosses)) And.right)
        (List.cons_ne_nil _ _) hends₂
        (fun q => by
          rw [hmoved₂.place_eq, hmoved.place_eq, hplace]
          congr 1
          omega)
        hphase₂ (by omega) (fun e he hle => hclear₂ e he hle)
        (by rw [hleft₂, List.drop_drop, hgap₂, hlands, hdrop]) hlands' hfit' (announced submessage)
      refine ⟨n + 1, stream', ub'', bytes', windows', ?_, hbehind, hends'⟩
      rw [readSubmessageList_of_header hheader, heq, hlist, Option.map_some, dispatches, hiterator,
        haddress]
      rfl

end Cursor

namespace SubmessageList

/-- A stream holds the FRAGMENTs of the message that is next, from the position `X` on. -/
structure HoldsFragmented (stream : InputReliableStream) (X : ℕ) (first : List UInt8)
    (fragments : List (List UInt8)) : Prop where
  lastHandled_eq : stream.lastHandled = seqOf (65535 + X)
  dvd : stream.base.history ∣ 65536
  length_lt : fragments.length < stream.base.history
  capacity_gt : subheaderSize < uxrGetReliableBufferCapacity stream.base
  nonempty : ∀ fragment ∈ fragments, fragment ≠ []
  fits : ∀ fragment ∈ first :: fragments,
    subheaderSize + fragment.length ≤ uxrGetReliableBufferCapacity stream.base
  slot : ∀ j (hj : j < (first :: fragments).length),
    uxrGetReliableBufferSize stream.base (seqOf (X + j)) =
        subheaderSize + (first :: fragments)[j].length ∧
      slotBytes stream.base (seqOf (X + j)) subheaderSize (first :: fragments)[j].length =
        (first :: fragments)[j] ∧
      onGetFragmentationInfo (slotHeader stream.base (seqOf (X + j))) =
        if j = fragments.length then .lastFragment else .intermediateFragment

/-- The buffer for the first FRAGMENT of a message. -/
def firstWindow (stream : InputReliableStream) (X : ℕ) (first : List UInt8) : UcdrBuffer :=
  ucdrSetOnFullBufferCallback (ucdrInitBuffer
    (uxrGetReliableBuffer stream.base (seqOf X) + subheaderSize) first.length)

namespace HoldsFragmented

variable {stream : InputReliableStream} {X : ℕ} {first : List UInt8}
  {fragments : List (List UInt8)}

/-- The last FRAGMENT is found. -/
lemma checkLastFragment_eq (h : HoldsFragmented stream X first fragments) :
    checkLastFragment stream = some (some (seqOf (X + fragments.length))) := by
  have hloop : ∀ n j, j ≤ fragments.length → fragments.length < n + j →
      checkLastFragmentLoop stream.base n (seqOf (65535 + X + j)) =
        some (some (seqOf (X + fragments.length))) := by
    intro n
    induction n with
    | zero => intro j hj hn; omega
    | succ n ih =>
      intro j hj hn
      obtain ⟨hsize, -, hinfo⟩ := h.slot j (Nat.lt_succ_of_le hj)
      have hnumber : uxrSeqNumAdd (seqOf (65535 + X + j)) 1 = seqOf (X + j) := by
        rw [uxrSeqNumAdd_seqOf, ← seqOf_turn_add (X + j)]
        congr 1
        omega
      rw [checkLastFragmentLoop, hnumber, hsize, hinfo, if_neg (by unfold subheaderSize; omega)]
      by_cases hlast : j = fragments.length
      · rw [if_pos hlast, hlast]
      · rw [if_neg hlast]
        have hnext := ih (j + 1) (by omega) (by omega)
        rw [show 65535 + X + (j + 1) = 65536 + (X + j) by omega, seqOf_turn_add] at hnext
        exact hnext
  have hlt := stream.base.history_lt
  have hlength := h.length_lt
  unfold checkLastFragment
  rw [h.lastHandled_eq]
  exact hloop 65536 0 (Nat.zero_le _) (by omega)

/-- The message is handed over FRAGMENT by FRAGMENT. -/
lemma next_eq (h : HoldsFragmented stream X first fragments) :
    uxrNextInputReliableBufferAvailable stream subheaderSize =
      some ({ stream with
        base := uxrSetReliableBufferSize stream.base (seqOf X) 0
        lastHandled := seqOf (X + fragments.length) }, some (firstWindow stream X first)) := by
  obtain ⟨hsize, -, hinfo⟩ := h.slot 0 (Nat.succ_pos _)
  have hnumber : uxrSeqNumAdd stream.lastHandled 1 = seqOf X := by
    rw [h.lastHandled_eq, uxrSeqNumAdd_seqOf, ← seqOf_turn_add X]
    congr 1
    omega
  rw [Nat.add_zero] at hsize hinfo
  unfold uxrNextInputReliableBufferAvailable
  dsimp only
  rw [hnumber, hsize, hinfo, h.checkLastFragment_eq, if_pos (by unfold subheaderSize; omega),
    if_neg (by split <;> decide), Nat.add_sub_cancel_left]
  rfl

/-- Behind the first slot, which is empty now, the other FRAGMENTs are windows. -/
lemma holdsBehind (h : HoldsFragmented stream X first fragments) :
    HoldsBehind (uxrSetReliableBufferSize stream.base (seqOf X) 0) X fragments where
  dvd := h.dvd
  length_lt := h.length_lt
  capacity_gt := h.capacity_gt
  nonempty := h.nonempty
  fits fragment hmem := h.fits fragment (List.mem_cons_of_mem _ hmem)
  slot j hj := by
    obtain ⟨hsize, hbytes, -⟩ := h.slot (j + 1) (Nat.succ_lt_succ hj)
    rw [show X + (j + 1) = X + 1 + j by omega, List.getElem_cons_succ] at hsize hbytes
    have hlt := h.length_lt
    have hfits := h.fits _ (List.mem_cons_of_mem _ (List.getElem_mem hj))
    refine ⟨?_, ?_⟩
    · rw [uxrGetReliableBufferSize_setSize_of_ne _ (seqOf_mod_ne (n := X) h.dvd le_rfl (by omega)
        (by omega) (by omega) (by omega)), hsize]
    · rw [slotBytes_setSize _ hfits, hbytes]

/-- The windows of a message that is handed over are read submessage for submessage, if they fit its
submessages. -/
lemma exists_reads (h : HoldsFragmented stream X first fragments)
    (reader : Reader) (clean : Prop)
    {submessages : List Submessage} {tail : List UInt8} {ends : List ℕ}
    (hends : ends = windowEnds 0 first (slotWindows stream.base (X + 1) fragments))
    (hne : submessages ≠ [])
    (hbody : first ++ fragments.flatten = Submessage.row submessages ++ tail)
    (hlands : LandsOnHeaders reader tail submessages)
    (hfit : EndsFit reader tail ends 0 submessages)
    (hclean : clean → stream.cleanupFlag = true ∨ InData reader ends 0 submessages)
    (header : Header) {stream₁ : InputReliableStream}
    (hstream₁ : stream₁ = { stream with
      base := uxrSetReliableBufferSize stream.base (seqOf X) 0
      lastHandled := seqOf (X + fragments.length) }) :
    ∃ n stream' ub', readSubmessageList reader n header stream₁ (firstWindow stream X first) =
        some (stream', ub',
          dispatches (place (slotWindows stream.base X (first :: fragments))) 0 submessages) ∧
      ∃ k ≤ fragments.length, Crossed stream₁ X k clean stream' ∧
        ((∀ e ∈ ends, e < lastRead reader 0 submessages) → k = fragments.length) := by
  have hbase : stream₁.base = uxrSetReliableBufferSize stream.base (seqOf X) 0 := by rw [hstream₁]
  have hflag : stream₁.cleanupFlag = stream.cleanupFlag := by rw [hstream₁]
  have hbehind : HoldsBehind stream₁.base X fragments := hbase ▸ h.holdsBehind
  have hwindows : ∀ k fragments, slotWindows stream₁.base k fragments =
      slotWindows stream.base k fragments := by
    intro k fragments
    exact slotWindows_congr (by rw [hbase]; rfl) (by rw [hbase]; rfl) k fragments
  have hfirst := h.fits first List.mem_cons_self
  have hcursor : Cursor (slotSource hbehind clean) stream₁ (firstWindow stream X first) first
      (slotWindows stream.base (X + 1) fragments) := by
    refine ⟨rfl, rfl, ?_, ?_, le_rfl, ⟨0, Nat.zero_le _, ?_, ?_, ?_⟩, fun _ => rfl, ?_, ?_⟩
    · have := capacity_lt stream.base
      omega
    · have hbytes : slotBytes (uxrSetReliableBufferSize stream.base (seqOf X) 0) (seqOf X)
          subheaderSize first.length = slotBytes stream.base (seqOf X) subheaderSize first.length :=
        slotBytes_setSize stream.base hfirst
      obtain ⟨-, hslot, -⟩ := h.slot 0 (Nat.succ_pos _)
      rw [Nat.add_zero, List.getElem_cons_zero] at hslot
      rw [hslot] at hbytes
      rw [hbase]
      exact hbytes
    · rw [hbase]
      rfl
    · rw [hwindows]
      rfl
    · refine ⟨.refl _, rfl, rfl, fun _ _ _ => rfl, fun _ j hj => ?_⟩
      obtain rfl := Nat.le_zero.mp hj
      rw [hbase]
      exact uxrGetReliableBufferSize_setSize_same _ (by decide)
    · intro window hwindow
      refine h.nonempty _ ?_
      rw [← map_slotWindows stream.base (X + 1) fragments]
      exact List.mem_map_of_mem hwindow
    · exact fun hfour => absurd (show 4 ≤ 0 from hfour) (by decide)
  have hleft : leftBytes first (slotWindows stream.base (X + 1) fragments) =
      Submessage.row submessages ++ tail := by
    rw [← hbody, leftBytes, List.flatMap_def, map_slotWindows]
  obtain ⟨n, stream', ub', bytes', windows', hlist, ⟨k, hk, -, hwindows', hcrossed⟩, hends'⟩ :=
    hcursor.reads_fit (p := 0) (h := 0) reader ends
      (place (slotWindows stream.base X (first :: fragments))) submessages
      (by
        by_cases hasked : clean
        · exact (hclean hasked).imp_left fun hset _ => hflag.trans hset
        · exact .inl fun hasked' => (hasked hasked').elim)
      hne (fun e he => hends ▸ he) (fun q => by rw [Nat.zero_add]; rfl) rfl rfl
      (fun e _ hle => hle) hleft hlands hfit header
  refine ⟨n, stream', ub', hlist, k, hk, hcrossed, fun hall => ?_⟩
  -- a window that is left would end behind the last handler
  cases windows' with
  | nil =>
    have hdrop := congrArg (List.map Prod.snd) hwindows'
    rw [map_slotWindows, List.map_nil] at hdrop
    have hlength := List.drop_eq_nil_iff.mp hdrop.symm
    omega
  | cons window windows' =>
    have hlt := hall _ (hends' _ List.mem_cons_self)
    omega

/-- A message in FRAGMENTs that fit its submessages is read submessage for submessage.  The slots up
to the one that is reached are left, and empty where `cleanup_flag` was set all the time. -/
theorem reads_fragments (h : HoldsFragmented stream X first fragments)
    (reader : Reader) (clean : Prop)
    {submessages : List Submessage} {tail : List UInt8} {ends : List ℕ}
    (hends : ends = windowEnds 0 first (slotWindows stream.base (X + 1) fragments))
    (hne : submessages ≠ [])
    (hbody : first ++ fragments.flatten = Submessage.row submessages ++ tail)
    (hlands : LandsOnHeaders reader tail submessages)
    (hfit : EndsFit reader tail ends 0 submessages)
    (hclean : clean → stream.cleanupFlag = true ∨ InData reader ends 0 submessages)
    (header : Header) :
    ∃ stream₁ ub n stream' ub', uxrNextInputReliableBufferAvailable stream subheaderSize =
        some (stream₁, some ub) ∧
      readSubmessageList reader n header stream₁ ub = some (stream', ub',
        dispatches (place (slotWindows stream.base X (first :: fragments))) 0 submessages) ∧
      ∃ k ≤ fragments.length, Crossed stream₁ X k clean stream' ∧
        ((∀ e ∈ ends, e < lastRead reader 0 submessages) → k = fragments.length) := by
  obtain ⟨n, stream', ub', hlist, hcrossed⟩ := h.exists_reads reader clean hends hne hbody hlands
    hfit hclean header rfl
  exact ⟨_, _, n, stream', ub', h.next_eq, hlist, hcrossed⟩

end HoldsFragmented

/-- A DATA with a request for a datareader and twelve bytes behind it. -/
def dataSubmessage : Submessage :=
  ⟨submessageIdData, 1, [0, 9, 0, 22, 1, 2, 3, 4, 5, 6, 7, 8, 9, 10, 11, 12], [], by decide, rfl⟩

/-- The first twelve bytes of the DATA in a FRAGMENT. -/
def firstFragment : List UInt8 := (Submessage.row [dataSubmessage]).take 12

/-- The last bytes of the DATA. -/
def lastFragment : List UInt8 := (Submessage.row [dataSubmessage]).drop 12

/-- A stream that received both. -/
def fragmentedStream : InputReliableStream :=
  receivedBytes ([16, 0, 0, 0, 13, 1, 12, 0] ++ firstFragment ++ [12, 0, 0, 0, 13, 3, 8, 0] ++
    lastFragment)

lemma fragmentedStream_holds :
    HoldsFragmented fragmentedStream 0 firstFragment [lastFragment] where
  lastHandled_eq := rfl
  dvd := by decide
  length_lt := by decide
  capacity_gt := by decide
  nonempty := by decide
  fits := by decide
  slot := by decide

/-- The DATA is read from both FRAGMENTs, and both slots are empty afterwards. -/
theorem reads_fragments_data : ∃ stream₁ ub n stream' ub',
    uxrNextInputReliableBufferAvailable fragmentedStream subheaderSize = some (stream₁, some ub) ∧
      readSubmessageList plainReader n ⟨0, 0, 0⟩ stream₁ ub =
        some (stream', ub', [⟨12, ⟨9, 0, 16⟩⟩]) ∧
      uxrGetReliableBufferSize stream'.base 0 = 0 ∧
      uxrGetReliableBufferSize stream'.base 1 = 0 := by
  obtain ⟨stream₁, ub, n, stream', ub', hnext, hlist, k, -, hcrossed, hall⟩ :=
    fragmentedStream_holds.reads_fragments plainReader True (show [12] = _ from rfl)
      (List.cons_ne_nil dataSubmessage []) (show _ = Submessage.row [dataSubmessage] ++ [] from rfl)
      (by decide) (by decide) (fun _ => .inr (by decide)) ⟨0, 0, 0⟩
  obtain rfl := hall (by decide)
  exact ⟨stream₁, ub, n, stream', ub', hnext, hlist, hcrossed.entered trivial 0 (by decide),
    hcrossed.entered trivial 1 (by decide)⟩

end SubmessageList

end XrceDds
