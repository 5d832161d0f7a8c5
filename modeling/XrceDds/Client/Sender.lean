import XrceDds.Client.PlainWindow

/-!
# What a stream puts on the wire

An output reliable stream with plain writes, beside it the submessages that it accepted and
the messages that it sent.  A message stays in its slot until it is acknowledged, so what is
sent again is what was sent before (`Sender.InOrder.resent`), and the bodies of the messages
are the submessages in the order in which they were accepted (`Sender.InOrder.bodies`).
-/

namespace XrceDds

/-- An output reliable stream, the submessages that it accepted, each with the number of its
message, and the messages that it sent, oldest first. -/
structure Sender where
  stream : OutputReliableStream
  accepted : List (ℕ × List UInt8)
  sent : List (List UInt8)

/-- The submessages of one message, one behind the other. -/
def submessagesIn (accepted : List (ℕ × List UInt8)) (n : ℕ) : List UInt8 :=
  ((accepted.filter (·.1 = n)).map Prod.snd).flatten

/-- A submessage in another message does not matter. -/
lemma submessagesIn_append_of_ne (accepted : List (ℕ × List UInt8)) {e : ℕ × List UInt8} {n : ℕ}
    (h : e.1 ≠ n) : submessagesIn (accepted ++ [e]) n = submessagesIn accepted n := by
  simp [submessagesIn, h]

/-- A submessage goes behind those of its message. -/
lemma submessagesIn_append_self (accepted : List (ℕ × List UInt8)) (n : ℕ) (bytes : List UInt8) :
    submessagesIn (accepted ++ [(n, bytes)]) n = submessagesIn accepted n ++ bytes := by
  simp [submessagesIn]

/-- A message that nothing was accepted for is empty. -/
lemma submessagesIn_eq_nil {accepted : List (ℕ × List UInt8)} {n : ℕ}
    (h : ∀ e ∈ accepted, e.1 ≠ n) : submessagesIn accepted n = [] := by
  unfold submessagesIn
  rw [List.filter_eq_nil_iff.mpr fun e he => by simpa using h e he]
  rfl

/-- In the order of the messages, those of one more message go behind the others. -/
lemma filter_lt_succ {accepted : List (ℕ × List UInt8)}
    (h : (accepted.map Prod.fst).Pairwise (· ≤ ·)) (n : ℕ) :
    accepted.filter (·.1 < n + 1) = accepted.filter (·.1 < n) ++ accepted.filter (·.1 = n) := by
  induction accepted with
  | nil => rfl
  | cons e accepted ih =>
    rw [List.map_cons, List.pairwise_cons] at h
    have hlater : ∀ e' ∈ accepted, e.1 ≤ e'.1 := fun e' he' => h.1 _ (List.mem_map_of_mem he')
    rcases Nat.lt_trichotomy e.1 n with hlt | heq | hgt
    · rw [List.filter_cons_of_pos (by simp only [decide_eq_true_eq]; omega),
        List.filter_cons_of_pos (by simpa using hlt),
        List.filter_cons_of_neg (by simpa using hlt.ne), ih h.2, List.cons_append]
    · have hnone : accepted.filter (·.1 < n) = [] :=
        List.filter_eq_nil_iff.mpr fun e' he' => by
          have := hlater e' he'
          simp only [decide_eq_true_eq]
          omega
      rw [List.filter_cons_of_pos (by simp only [decide_eq_true_eq]; omega),
        List.filter_cons_of_neg (by simpa using heq.ge),
        List.filter_cons_of_pos (by simpa using heq), ih h.2, hnone, List.nil_append,
        List.nil_append]
    · have hnone : ∀ e' ∈ e :: accepted, n < e'.1 := by
        intro e' he'
        rcases List.mem_cons.mp he' with rfl | he'
        · exact hgt
        · exact hgt.trans_le (hlater e' he')
      rw [List.filter_eq_nil_iff.mpr, List.filter_eq_nil_iff.mpr, List.filter_eq_nil_iff.mpr,
        List.append_nil]
      all_goals
        intro e' he'
        have := hnone e' he'
        simp only [decide_eq_true_eq]
        omega

/-- In the order of the messages, those of the first messages are the first ones. -/
lemma filter_lt_eq_take {accepted : List (ℕ × List UInt8)}
    (h : (accepted.map Prod.fst).Pairwise (· ≤ ·)) (n : ℕ) :
    ∃ j, (∀ i e, accepted[i]? = some e → (i < j ↔ e.1 < n)) ∧
      accepted.filter (·.1 < n) = accepted.take j := by
  induction accepted with
  | nil => exact ⟨0, fun i e he => absurd he (by simp), rfl⟩
  | cons e accepted ih =>
    rw [List.map_cons, List.pairwise_cons] at h
    rcases Nat.lt_or_ge e.1 n with hlt | hge
    · obtain ⟨j, hj, htake⟩ := ih h.2
      refine ⟨j + 1, fun i e' he' => ?_, ?_⟩
      · cases i with
        | zero =>
          obtain rfl := Option.some.inj he'
          exact iff_of_true (Nat.succ_pos j) hlt
        | succ i => exact Nat.succ_lt_succ_iff.trans (hj i e' he')
      · rw [List.filter_cons_of_pos (by simpa using hlt), htake, List.take_succ_cons]
    · have hlater : ∀ e' ∈ e :: accepted, n ≤ e'.1 := by
        intro e' he'
        rcases List.mem_cons.mp he' with rfl | he'
        · exact hge
        · exact hge.trans (h.1 _ (List.mem_map_of_mem he'))
      refine ⟨0, fun i e' he' => ?_, ?_⟩
      · have := hlater e' (List.mem_of_getElem? he')
        omega
      · rw [List.take_zero, List.filter_eq_nil_iff.mpr fun e' he' => by
          simpa using hlater e' he']

/-- The submessages of the first messages are the first submessages. -/
theorem flatten_submessagesIn {accepted : List (ℕ × List UInt8)}
    (h : (accepted.map Prod.fst).Pairwise (· ≤ ·)) (n : ℕ) :
    ∃ j, (∀ i e, accepted[i]? = some e → (i < j ↔ e.1 < n)) ∧
      ((List.range n).map (submessagesIn accepted)).flatten =
        ((accepted.take j).map Prod.snd).flatten := by
  obtain ⟨j, hj, htake⟩ := filter_lt_eq_take h n
  refine ⟨j, hj, ?_⟩
  rw [← htake]
  clear htake hj
  induction n with
  | zero => simp
  | succ n ih =>
    rw [List.range_succ, List.map_append, List.flatten_append, ih, filter_lt_succ h,
      List.map_append,
      List.flatten_append, List.map_singleton, List.flatten_singleton]
    rfl

namespace Sender

/-- The client writes a submessage: it prepares the stream for it, and serializes the payload
behind the header.  The padding is what the slot held before. -/
def write (t : Sender) (ub : UcdrBuffer) (submessageId mode : UInt8) (payload : List UInt8) :
    Sender :=
  match uxrPrepareStreamToWriteSubmessage t.stream payload.length ub submessageId mode with
  | some r =>
    if r.availableToWrite then
      let base := r.stream.base.store r.ub.iterator payload
      { t with
        stream := { r.stream with base := base }
        accepted := t.accepted ++
          [(t.sent.length + seqSteps (uxrSeqNumAdd t.stream.lastSent 1) r.stream.lastWritten,
            submessageHeader submessageId (mode ||| 1) (payload.length % 65536) ++ payload ++
              ByteMemory.read base.buffer (r.ub.iterator + payload.length)
                (uxrSubmessagePadding payload.length))] }
    else { t with stream := r.stream }
  | none => t

/-- The stream is flashed. -/
def flash (t : Sender) (info : UxrSessionInfo) (streamIdRaw : UInt8) : Sender :=
  let r := uxrFlashOutputStreams info streamIdRaw t.stream
  { t with
    stream := r.1
    sent := t.sent ++ r.2 }

/-- An ACKNACK is read. -/
def acknack (t : Sender) (bitmap : ℕ) (firstUnackedSeqNum : UxrSeqNum) : Sender :=
  { t with stream := (readSubmessageAcknack t.stream bitmap firstUnackedSeqNum).1 }

/-- The heartbeat timer is updated. -/
def heartbeat (t : Sender) (timestamp : ℤ) : Sender :=
  { t with stream := (uxrUpdateOutputStreamHeartbeatTimestamp t.stream timestamp).1 }

/-- The submessages that were accepted lie in messages of the window that were sent or are
being filled, and those of an unsent message are what its slot holds. -/
structure Pending (t : Sender) (a w : ℕ) : Prop where
  body : ∀ n, t.sent.length ≤ n → 65536 + n ≤ w →
    65536 + n ≤ 65535 + a + t.stream.base.history →
    slotBytes t.stream.base (seqOf (65536 + n)) t.stream.offset
      (uxrGetReliableBufferSize t.stream.base (seqOf (65536 + n)) - t.stream.offset) =
        submessagesIn t.accepted n
  inWindow : ∀ e ∈ t.accepted, 65536 + e.1 ≤ w ∧
    65536 + e.1 ≤ 65535 + a + t.stream.base.history

/-- A stream of which `a` messages are acknowledged agrees with what it accepted and sent. -/
structure InOrder (info : UxrSessionInfo) (streamIdRaw : UInt8) (history : ℕ) (t : Sender)
    (a : ℕ) : Prop where
  offset_eq : t.stream.offset = uxrSessionHeaderOffset info
  history_eq : t.stream.base.history = history
  window : ∃ w, PlainWindow t.stream (65535 + a) (65535 + t.sent.length) w ∧ t.Pending a w
  held : ∀ n m, a ≤ n → t.sent[n]? = some m → m = slotBytes t.stream.base (seqOf (65536 + n)) 0
    (uxrGetReliableBufferSize t.stream.base (seqOf (65536 + n)))
  header : ∀ n m, t.sent[n]? = some m →
    m.take (uxrSessionHeaderOffset info) = messageHeader info streamIdRaw (seqOf (65536 + n))
  bodies : ∀ n m, t.sent[n]? = some m →
    m.drop (uxrSessionHeaderOffset info) = submessagesIn t.accepted n
  ordered : (t.accepted.map Prod.fst).Pairwise (· ≤ ·)

variable {info : UxrSessionInfo} {streamIdRaw : UInt8} {history : ℕ} {t : Sender} {a : ℕ}

/-- A stream begins in order. -/
theorem InOrder.start (base : ReliableStream) (hdvd : base.history ∣ 65536) :
    InOrder info streamIdRaw base.history
      ⟨uxrInitOutputReliableStream base (uxrSessionHeaderOffset info), [], []⟩ 0 where
  offset_eq := rfl
  history_eq := (OutputWindow.setAllSizes_frame (uxrSessionHeaderOffset info) base.history base).2
  window := by
    have haligned := uxrSessionHeaderOffset_aligned info
    have hlt : uxrSessionHeaderOffset info < 4294967296 := by
      unfold uxrSessionHeaderOffset
      split <;> decide
    unfold uxrInitOutputReliableStream
    refine ⟨65536, PlainWindow.reset _ hdvd hlt haligned, ⟨fun n _ _ _ => ?_,
      fun e he => by simp at he⟩⟩
    dsimp only
    rw [PlainWindow.reset_bufferSize _ hlt]
    exact congrArg _ (Nat.sub_self _)
  held n m _ hm := by simp at hm
  header n m hm := by simp at hm
  bodies n m hm := by simp at hm
  ordered := by simp

/-- The heartbeat timer does not matter. -/
theorem InOrder.heartbeat (h : InOrder info streamIdRaw history t a) (timestamp : ℤ) :
    InOrder info streamIdRaw history (t.heartbeat timestamp) a := by
  obtain ⟨w, hw, hpending⟩ := h.window
  obtain ⟨next, tries, heq⟩ := heartbeat_stream t.stream timestamp
  unfold Sender.heartbeat
  rw [heq]
  exact ⟨h.offset_eq, h.history_eq, ⟨w, hw.congr rfl rfl rfl rfl rfl,
    ⟨hpending.body, hpending.inWindow⟩⟩, h.held, h.header, h.bodies, h.ordered⟩

/-- Flashing sends what was accepted. -/
theorem InOrder.flash (h : InOrder info streamIdRaw history t a) :
    InOrder info streamIdRaw history (t.flash info streamIdRaw) a := by
  obtain ⟨w, hw, hpending⟩ := h.window
  obtain ⟨w', hle, hflashed, -⟩ := hw.flashLoop info streamIdRaw h.offset_eq 65536
  unfold Sender.flash uxrFlashOutputStreams
  generalize flashLoop info streamIdRaw 65536 t.stream = r at hflashed
  have hcount : 65535 + t.sent.length + r.2.length = 65535 + (t.sent ++ r.2).length := by
    rw [List.length_append, Nat.add_assoc]
  have hwindow := hflashed.window
  rw [hcount] at hwindow
  have hreach := hwindow.sent_le
  rw [hflashed.sameLayout.history_eq] at hreach
  have hnone : ∀ {n : ℕ}, w < 65536 + n → submessagesIn t.accepted n = [] := fun hlt =>
    submessagesIn_eq_nil fun e he heq => by
      have := (hpending.inWindow e he).1
      omega
  have hold : ∀ {n : ℕ} {m : List UInt8}, n < t.sent.length → (t.sent ++ r.2)[n]? = some m →
      t.sent[n]? = some m := by
    intro n m hlt hm
    rwa [List.getElem?_append_left hlt] at hm
  have hnew : ∀ {n : ℕ} {m : List UInt8}, t.sent.length ≤ n → (t.sent ++ r.2)[n]? = some m →
      t.stream.offset < uxrGetReliableBufferSize t.stream.base (seqOf (65536 + n)) ∧
        m = slotBytes r.1.base (seqOf (65536 + n)) 0
          (uxrGetReliableBufferSize t.stream.base (seqOf (65536 + n))) ∧
        m.take t.stream.offset = messageHeader info streamIdRaw (seqOf (65536 + n)) := by
    intro n m hge hm
    rw [List.getElem?_append_right hge] at hm
    have := hflashed.messages _ m hm
    rwa [show 65535 + t.sent.length + 1 + (n - t.sent.length) = 65536 + n by omega] at this
  constructor
  case offset_eq => exact hflashed.sameLayout.offset_eq.trans h.offset_eq
  case history_eq => exact hflashed.sameLayout.history_eq.trans h.history_eq
  case window =>
    refine ⟨w', hwindow, ⟨fun n hn hnw hin => ?_, fun e he => ?_⟩⟩
    · dsimp only at hin ⊢
      rw [hflashed.sameLayout.history_eq] at hin
      rw [hflashed.sameLayout.offset_eq, hflashed.body hw]
      rw [List.length_append] at hn
      rcases Nat.lt_or_ge w (65536 + n) with hlt | hge
      · rw [slotBytes_empty _ _ (hw.empty _ hlt hin), hnone hlt]
      · exact hpending.body n (by omega) hge hin
    · have hin := hpending.inWindow e he
      refine ⟨hin.1.trans hle, ?_⟩
      dsimp only
      rw [hflashed.sameLayout.history_eq]
      exact hin.2
  case held =>
    intro n m hn hm
    dsimp only at hm ⊢
    rw [hflashed.sizes]
    rcases Nat.lt_or_ge n t.sent.length with hlt | hge
    · have hsent := hw.sent_lt
      have hused := hw.used_bounds (X := 65536 + n) (by omega) (by omega)
      rw [hflashed.older (65536 + n) (by omega) (by omega) 0 _ (by omega)]
      exact h.held n m hn (hold hlt hm)
    · exact (hnew hge hm).2.1
  case header =>
    intro n m hm
    rcases Nat.lt_or_ge n t.sent.length with hlt | hge
    · exact h.header n m (hold hlt hm)
    · rw [← h.offset_eq]
      exact (hnew hge hm).2.2
  case bodies =>
    intro n m hm
    rcases Nat.lt_or_ge n t.sent.length with hlt | hge
    · exact h.bodies n m (hold hlt hm)
    · obtain ⟨hused, hslot, -⟩ := hnew hge hm
      have hlt : n < (t.sent ++ r.2).length := (List.getElem?_eq_some_iff.mp hm).1
      have hin : 65536 + n ≤ 65535 + a + t.stream.base.history := by omega
      rw [← h.offset_eq, hslot, slotBytes_drop _ _ hused.le, ← hflashed.sizes, hflashed.body hw]
      exact hpending.body n hge (hw.le_written hin hused.ne') hin
  case ordered => exact h.ordered

/-- The slots of `base` with `header` and `payload` behind the first `o` bytes of the slot of
`i`. -/
def stored (base : ReliableStream) (i o : ℕ) (header payload : List UInt8) : ReliableStream :=
  let base := base.store (uxrGetReliableBuffer base i + o) header
  base.store (uxrGetReliableBuffer base i + (o + header.length)) payload

/-- The history stays what it is. -/
lemma stored_history (base : ReliableStream) (i o : ℕ) (header payload : List UInt8) :
    (stored base i o header payload).history = base.history := by
  unfold stored
  dsimp only
  rw [store_history, store_history]

section Stored

variable (base : ReliableStream) {i o : ℕ} {header payload : List UInt8}
  (hroom : o + header.length + payload.length ≤ uxrGetReliableBufferCapacity base)

include hroom in
/-- Both lie in the body of the slot. -/
lemma stored_bounds :
    uxrGetReliableBuffer base i + o + header.length ≤
        uxrGetReliableBuffer base i + uxrGetReliableBufferCapacity base ∧
      uxrGetReliableBuffer base i + (o + header.length) + payload.length ≤
        uxrGetReliableBuffer base i + uxrGetReliableBufferCapacity base := by
  omega

include hroom in
/-- The sizes stay what they are. -/
lemma stored_bufferSize (j : ℕ) :
    uxrGetReliableBufferSize (stored base i o header payload) j =
      uxrGetReliableBufferSize base j := by
  obtain ⟨hheader, hpayload⟩ := stored_bounds base (i := i) hroom
  unfold stored
  dsimp only
  rw [uxrGetReliableBufferSize_store (base.store (uxrGetReliableBuffer base i + o) header) (i := i)
      (Nat.le_add_right _ _) hpayload,
    uxrGetReliableBufferSize_store base (i := i) (Nat.le_add_right _ _) hheader]

include hroom in
/-- Other slots stay what they are. -/
lemma stored_of_ne {j p n : ℕ} (hj : i % base.history ≠ j % base.history)
    (hn : p + n ≤ uxrGetReliableBufferCapacity base) :
    slotBytes (stored base i o header payload) j p n = slotBytes base j p n := by
  obtain ⟨hheader, hpayload⟩ := stored_bounds base (i := i) hroom
  unfold stored
  dsimp only
  rw [slotBytes_store_of_ne (base.store (uxrGetReliableBuffer base i + o) header) (i := i)
      (Nat.le_add_right _ _) hpayload hj hn,
    slotBytes_store_of_ne base (i := i) (Nat.le_add_right _ _) hheader hj hn]

/-- What the slot held before stays there. -/
lemma stored_before {p n : ℕ} (hn : p + n ≤ o) :
    slotBytes (stored base i o header payload) i p n = slotBytes base i p n := by
  unfold stored
  dsimp only
  rw [slotBytes_store_of_disjoint _ (.inl (by omega)), slotBytes_store_of_disjoint _ (.inl hn)]

/-- Header, payload and padding lie behind it. -/
lemma stored_submessage (padding : ℕ) :
    slotBytes (stored base i o header payload) i o (header.length + payload.length + padding) =
      header ++ payload ++ slotBytes (stored base i o header payload) i
        (o + (header.length + payload.length)) padding := by
  have hheader : slotBytes (stored base i o header payload) i o header.length = header := by
    unfold stored
    dsimp only
    rw [slotBytes_store_of_disjoint _ (.inl le_rfl), slotBytes_store_same _ rfl]
  have hpayload : slotBytes (stored base i o header payload) i (o + header.length)
      payload.length = payload := by
    unfold stored
    dsimp only
    rw [slotBytes_store_same _ rfl]
  rw [slotBytes_add, slotBytes_add, hheader, hpayload]

end Stored

/-- The room of a submessage, as the client fills it. -/
lemma submessageIn_store (stream : OutputReliableStream) (X : ℕ) (submessageId mode : UInt8)
    (payload : List UInt8) :
    (PlainWindow.submessageIn stream X payload.length submessageId mode).stream.base.store
        (PlainWindow.submessageIn stream X payload.length submessageId mode).ub.iterator payload =
      stored (PlainWindow.reservedIn stream X (submessageSize payload.length)).stream.base (seqOf X)
        (uxrGetReliableBufferSize stream.base (seqOf X))
        (submessageHeader submessageId (mode ||| 1) (payload.length % 65536)) payload := by
  rw [PlainWindow.submessageIn_iterator]
  have hlength : (submessageHeader submessageId (mode ||| 1) (payload.length % 65536)).length = 4 :=
    rfl
  unfold PlainWindow.submessageIn stored
  dsimp only
  rw [PlainWindow.reservedIn_iterator, hlength, uxrGetReliableBuffer_store,
    PlainWindow.reservedIn_buffer]

/-- What an accepted write does to the slots of a window that begins behind `X = a`: one
submessage goes behind what the slot of the position `w'` holds. -/
structure Placed (base base' : ReliableStream) (a w' : ℕ) (submessage : List UInt8) : Prop where
  history_eq : base'.history = base.history
  size_eq : uxrGetReliableBufferSize base' (seqOf w') =
    uxrGetReliableBufferSize base (seqOf w') + submessage.length
  sizes : ∀ X, a < X → X ≤ a + base.history → X ≠ w' →
    uxrGetReliableBufferSize base' (seqOf X) = uxrGetReliableBufferSize base (seqOf X)
  others : ∀ X o n, a < X → X ≤ a + base.history → X ≠ w' →
    o + n ≤ uxrGetReliableBufferCapacity base →
    slotBytes base' (seqOf X) o n = slotBytes base (seqOf X) o n
  before : ∀ o n, o + n ≤ uxrGetReliableBufferSize base (seqOf w') →
    slotBytes base' (seqOf w') o n = slotBytes base (seqOf w') o n
  behind : slotBytes base' (seqOf w') (uxrGetReliableBufferSize base (seqOf w'))
    submessage.length = submessage

/-- The body of the slot is what it was with the submessage behind it. -/
lemma Placed.body {base base' : ReliableStream} {a w' : ℕ} {submessage : List UInt8}
    (h : Placed base base' a w' submessage) {offset : ℕ}
    (hoffset : offset ≤ uxrGetReliableBufferSize base (seqOf w')) :
    slotBytes base' (seqOf w') offset (uxrGetReliableBufferSize base' (seqOf w') - offset) =
      slotBytes base (seqOf w') offset (uxrGetReliableBufferSize base (seqOf w') - offset) ++
        submessage := by
  rw [h.size_eq, Nat.sub_add_comm hoffset, slotBytes_add, Nat.add_sub_cancel' hoffset, h.behind,
    h.before _ _ (by omega)]

/-- A submessage in the room reserved for it is placed. -/
lemma placed_submessageIn {stream : OutputReliableStream} {a s w w' : ℕ}
    (hw : PlainWindow stream a s w) (hopens : PlainWindow.Opens stream a w w')
    {payload : List UInt8}
    (hroom : uxrGetReliableBufferSize stream.base (seqOf w') + submessageSize payload.length ≤
      uxrGetReliableBufferCapacity stream.base) (submessageId mode : UInt8)
    {base' : ReliableStream}
    (hbase : base' = stored
      (PlainWindow.reservedIn stream w' (submessageSize payload.length)).stream.base (seqOf w')
      (uxrGetReliableBufferSize stream.base (seqOf w'))
      (submessageHeader submessageId (mode ||| 1) (payload.length % 65536)) payload) :
    Placed stream.base base' a w'
      (submessageHeader submessageId (mode ||| 1) (payload.length % 65536) ++ payload ++
        slotBytes base' (seqOf w')
          (uxrGetReliableBufferSize stream.base (seqOf w') + (4 + payload.length))
          (uxrSubmessagePadding payload.length)) := by
  have hcap := capacity_lt stream.base
  have hacknown := hw.acknown_le
  have hsent := hw.sent_lt
  have hlo := hopens.le
  have hlength : (submessageHeader submessageId (mode ||| 1) (payload.length % 65536)).length = 4 :=
    rfl
  have hsum : submessageSize payload.length =
      4 + payload.length + uxrSubmessagePadding payload.length := rfl
  obtain ⟨reserved, hreserved⟩ : ∃ reserved, reserved =
      (PlainWindow.reservedIn stream w' (submessageSize payload.length)).stream.base := ⟨_, rfl⟩
  rw [← hreserved] at hbase
  have hhistory : reserved.history = stream.base.history := by rw [hreserved]; rfl
  have hcapacity : uxrGetReliableBufferCapacity reserved =
      uxrGetReliableBufferCapacity stream.base := by
    rw [hreserved]
    rfl
  have hwithin : uxrGetReliableBufferSize stream.base (seqOf w') +
      (submessageHeader submessageId (mode ||| 1) (payload.length % 65536)).length +
        payload.length ≤ uxrGetReliableBufferCapacity reserved := by
    omega
  have hbytes : ∀ j o n, o + n ≤ uxrGetReliableBufferCapacity stream.base →
      slotBytes reserved j o n = slotBytes stream.base j o n := by
    intro j o n hn
    rw [hreserved]
    exact slotBytes_setSize stream.base hn
  have hne : ∀ X, a < X → X ≤ a + stream.base.history → X ≠ w' →
      (seqOf w').val % stream.base.history ≠ (seqOf X).val % stream.base.history :=
    fun X hX hX' hX'' => hw.slot_ne (by omega) hopens.inWindow hX hX' hX''.symm
  have hsizes : ∀ j, uxrGetReliableBufferSize base' j =
      if (seqOf w').val % stream.base.history = j % stream.base.history then
        uxrGetReliableBufferSize stream.base (seqOf w') + submessageSize payload.length
      else uxrGetReliableBufferSize stream.base j := by
    intro j
    rw [hbase, stored_bufferSize _ hwithin, hreserved]
    exact uxrGetReliableBufferSize_setSize _ (by omega)
  constructor
  case history_eq => rw [hbase, stored_history, hhistory]
  case size_eq =>
    rw [hsizes, if_pos rfl, List.length_append, List.length_append, length_slotBytes, hlength, hsum]
  case sizes => exact fun X hX hX' hX'' => by rw [hsizes, if_neg (hne X hX hX' hX'')]
  case others =>
    intro X o n hX hX' hX'' hn
    have hslot := hne X hX hX' hX''
    rw [← hhistory] at hslot
    rw [hbase, stored_of_ne _ hwithin hslot (by omega), hbytes _ _ _ hn]
  case before =>
    intro o n hn
    rw [hbase, stored_before _ hn, hbytes _ _ _ (by omega)]
  case behind =>
    rw [List.length_append, List.length_append, length_slotBytes, hbase]
    exact stored_submessage _ _

/-- What is accepted stays pending when another submessage goes behind it. -/
lemma Pending.write {w index : ℕ} {submessage : List UInt8} {stream : OutputReliableStream}
    (hpending : t.Pending a w) (hw : PlainWindow t.stream (65535 + a) (65535 + t.sent.length) w)
    (hopens : PlainWindow.Opens t.stream (65535 + a) w (65536 + index))
    (hplaced : Placed t.stream.base stream.base (65535 + a) (65536 + index) submessage)
    (hoffset : stream.offset = t.stream.offset) :
    Pending { t with stream := stream, accepted := t.accepted ++ [(index, submessage)] } a
      (65536 + index) := by
  have hacknown := hw.acknown_le
  have hin := hopens.inWindow
  refine ⟨fun n hn hnw hnin => ?_, fun e he => ?_⟩
  · dsimp only at hn hnin ⊢
    rw [hplaced.history_eq] at hnin
    rw [hoffset]
    rcases eq_or_ne n index with rfl | hne
    · rw [hplaced.body (hw.offset_le _), submessagesIn_append_self]
      congr 1
      rcases Nat.lt_or_ge w (65536 + n) with hlt | hge
      · -- the slot that the write opens was empty
        rw [slotBytes_empty _ _ (hw.empty _ hlt hin), submessagesIn_eq_nil fun e he heq => by
          have := (hpending.inWindow e he).1
          omega]
      · exact hpending.body n hn hge hnin
    · have hnw' : 65536 + n ≤ w := by
        have := hopens.le_succ
        omega
      have hused : uxrGetReliableBufferSize t.stream.base (seqOf (65536 + n)) ≠
          t.stream.offset := by
        rcases Nat.lt_or_ge (65536 + n) w with hlt | hge
        · exact hw.used _ (by omega) hlt
        · obtain rfl : w = 65536 + n := by omega
          exact hopens.used (by omega)
      have hsize := (hw.sound (seqOf (65536 + n))).resolve_left hused
      rw [hplaced.sizes _ (by omega) hnin (by omega), submessagesIn_append_of_ne _ hne.symm,
        ← hpending.body n hn hnw' hnin]
      exact hplaced.others _ _ _ (by omega) hnin (by omega) (by omega)
  · dsimp only
    rw [hplaced.history_eq]
    rcases List.mem_append.mp he with he | he
    · exact ⟨(hpending.inWindow e he).1.trans hopens.le, (hpending.inWindow e he).2⟩
    · obtain rfl := List.mem_singleton.mp he
      exact ⟨le_rfl, hin⟩

/-- A written submessage goes behind those that were accepted before. -/
theorem InOrder.write (h : InOrder info streamIdRaw history t a) (ub : UcdrBuffer)
    (submessageId mode : UInt8) {payload : List UInt8}
    (hfits : FitsSlot t.stream (submessageSize payload.length)) :
    InOrder info streamIdRaw history (t.write ub submessageId mode payload) a := by
  obtain ⟨w, hw, hpending⟩ := h.window
  obtain ⟨r, hr, hcases⟩ := hw.prepareStream ub submessageId mode hfits
  unfold Sender.write
  rw [hr]
  rcases hcases with rfl | ⟨w', hopens, hroom, rfl⟩
  · exact h
  · have havailable : (PlainWindow.submessageIn t.stream w' payload.length submessageId
        mode).availableToWrite = true := rfl
    have hturn := t.stream.base.history_lt
    have hacknown := hw.acknown_le
    have hsent := hw.sent_lt
    have hlo := hopens.le
    have hin := hopens.inWindow
    obtain ⟨index, rfl⟩ : ∃ index, w' = 65536 + index := ⟨w' - 65536, by omega⟩
    have hindex : t.sent.length + seqSteps (uxrSeqNumAdd t.stream.lastSent 1)
        (PlainWindow.submessageIn t.stream (65536 + index) payload.length submessageId
          mode).stream.lastWritten = index := by
      rw [PlainWindow.submessageIn_lastWritten, hw.lastSent_eq, uxrSeqNumAdd_seqOf,
        show 65536 + index = 65535 + t.sent.length + 1 + (index - t.sent.length) by omega,
        seqSteps_seqOf _ (by omega)]
      omega
    have hfilled := hw.submessageIn_payload hopens hroom submessageId mode
    have hplaced := placed_submessageIn hw hopens hroom submessageId mode
      (submessageIn_store t.stream (65536 + index) submessageId mode payload)
    have hpadding : ∀ base' : ReliableStream,
        base' = (PlainWindow.submessageIn t.stream (65536 + index) payload.length submessageId
          mode).stream.base.store (PlainWindow.submessageIn t.stream (65536 + index) payload.length
            submessageId
            mode).ub.iterator payload →
        ByteMemory.read base'.buffer
          ((PlainWindow.submessageIn t.stream (65536 + index) payload.length
            submessageId mode).ub.iterator + payload.length)
          (uxrSubmessagePadding payload.length) =
        slotBytes base' (seqOf (65536 + index)) (uxrGetReliableBufferSize t.stream.base
          (seqOf (65536 + index)) +
          (4 + payload.length)) (uxrSubmessagePadding payload.length) := by
      rintro _ rfl
      rw [PlainWindow.submessageIn_iterator]
      unfold slotBytes
      congr 1
      rw [uxrGetReliableBuffer_store, PlainWindow.submessageIn_buffer]
      omega
    dsimp only
    rw [if_pos havailable, hpadding _ rfl, hindex]
    generalize (PlainWindow.submessageIn t.stream (65536 + index) payload.length submessageId
      mode).stream.base.store (PlainWindow.submessageIn t.stream (65536 + index) payload.length
        submessageId
        mode).ub.iterator payload = base' at hfilled hplaced ⊢
    generalize submessageHeader submessageId (mode ||| 1) (payload.length % 65536) ++ payload ++
      slotBytes base' (seqOf (65536 + index)) (uxrGetReliableBufferSize t.stream.base
        (seqOf (65536 + index)) +
        (4 + payload.length)) (uxrSubmessagePadding payload.length) = submessage at hplaced ⊢
    have hoffset := PlainWindow.submessageIn_offset t.stream (65536 + index) payload.length
      submessageId mode
    constructor
    case offset_eq => exact hoffset.trans h.offset_eq
    case history_eq => exact hplaced.history_eq.trans h.history_eq
    case window => exact ⟨65536 + index, hfilled, hpending.write hw hopens hplaced hoffset⟩
    case held =>
      intro n m hn (hm : t.sent[n]? = some m)
      have hlt := (List.getElem?_eq_some_iff.mp hm).1
      have hused := hw.used_bounds (X := 65536 + n) (by omega) (by omega)
      have hsentLe := hw.sent_le
      dsimp only
      rw [hplaced.sizes _ (by omega) (by omega) (by omega),
        hplaced.others _ _ _ (by omega) (by omega) (by omega) (by omega)]
      exact h.held n m hn hm
    case header => exact h.header
    case bodies =>
      intro n m (hm : t.sent[n]? = some m)
      have hlt := (List.getElem?_eq_some_iff.mp hm).1
      rw [submessagesIn_append_of_ne _ (by dsimp only; omega)]
      exact h.bodies n m hm
    case ordered =>
      rw [List.map_append, List.pairwise_append]
      refine ⟨h.ordered, List.pairwise_singleton _ _, ?_⟩
      intro n hn k hk
      obtain ⟨e, he, rfl⟩ := List.mem_map.mp hn
      obtain rfl := List.mem_singleton.mp hk
      have := (hpending.inWindow e he).1
      omega

/-- An ACKNACK that acknowledges `k` messages, not fewer than before and all of them sent. -/
theorem InOrder.acknack (h : InOrder info streamIdRaw history t a) (bitmap : ℕ) {k : ℕ} (hk : a ≤ k)
    (hsent : k ≤ t.sent.length) : InOrder info streamIdRaw history
    (t.acknack bitmap (seqOf k)) k := by
  obtain ⟨w, hw, hpending⟩ := h.window
  obtain ⟨d, rfl⟩ := Nat.exists_eq_add_of_le hk
  have hd : 65535 + a + d ≤ 65535 + t.sent.length := by omega
  have hf : seqOf (a + d) = seqOf (65535 + a + d + 1) := by
    rw [← seqOf_turn_add]
    congr 1
    omega
  have hacknown := hw.acknown_le
  have hreach := hw.sent_le
  have hwritten := hw.written_le
  obtain ⟨hwindow, hoffset, hbase⟩ := hw.readSubmessageAcknack bitmap hd
  obtain ⟨-, hhistory, -, -⟩ := OutputWindow.cleanBuffers_frame d t.stream
  rw [← hf] at hwindow hoffset hbase
  rw [Nat.add_assoc 65535] at hwindow
  unfold Sender.acknack
  generalize (readSubmessageAcknack t.stream bitmap (seqOf (a + d))).1 = stream at *
  have hhistory' : stream.base.history = t.stream.base.history := by rw [hbase, hhistory]
  constructor
  case offset_eq => exact hoffset.trans h.offset_eq
  case history_eq => exact hhistory'.trans h.history_eq
  case window =>
    refine ⟨w, hwindow, ⟨fun n (hn : t.sent.length ≤ n) hnw hin => ?_, fun e he => ?_⟩⟩
    · dsimp only at hin ⊢
      rw [hhistory'] at hin
      rw [hoffset, hbase]
      rcases Nat.lt_or_ge (65535 + a + t.stream.base.history) (65536 + n) with hlt | hge
      · -- a position that was behind the window, where nothing was accepted
        rw [slotBytes_empty _ _ (hw.cleanBuffers_empty hlt (by omega)),
          submessagesIn_eq_nil fun e he heq => by
            have := (hpending.inWindow e he).2
            omega]
      · rw [hw.cleanBuffers_keeps (by omega) hge]
        have hbody := hpending.body n hn hnw hge
        rcases hw.sound (seqOf (65536 + n)) with hempty | ⟨hused, hfits⟩
        · rw [slotBytes_empty _ _ hempty] at hbody ⊢
          exact hbody
        · rwa [PlainWindow.cleanBuffers_slotBytes _ _ _ (by omega)]
    · have hin := hpending.inWindow e he
      refine ⟨hin.1, ?_⟩
      dsimp only
      rw [hhistory']
      omega
  case held =>
    intro n m hn hm
    have hlt := (List.getElem?_eq_some_iff.mp hm).1
    have hused := hw.used_bounds (X := 65536 + n) (by omega) (by
      have := hw.sent_lt
      dsimp only at hlt
      omega)
    dsimp only at hlt ⊢
    rw [hbase, hw.cleanBuffers_keeps (by omega) (by omega),
      PlainWindow.cleanBuffers_slotBytes _ _ _ (by omega)]
    exact h.held n m (by omega) hm
  case header => exact h.header
  case bodies => exact h.bodies
  case ordered => exact h.ordered

/-- What is sent again is what was sent before, and is not acknowledged. -/
theorem InOrder.resent (h : InOrder info streamIdRaw history t a) (bitmap : ℕ) {k : ℕ} (hk : a ≤ k)
    (hsent : k ≤ t.sent.length) {m : List UInt8}
    (hm : m ∈ (readSubmessageAcknack t.stream bitmap (seqOf k)).2) :
    ∃ n, k ≤ n ∧ t.sent[n]? = some m := by
  obtain ⟨w, hw, -⟩ := h.window
  have hafter := h.acknack bitmap hk hsent
  obtain ⟨d, rfl⟩ := Nat.exists_eq_add_of_le hk
  have hf : seqOf (a + d) = seqOf (65535 + a + d + 1) := by
    rw [← seqOf_turn_add]
    congr 1
    omega
  rw [hf] at hm
  obtain ⟨X, hlo, hhi, rfl⟩ := hw.mem_readSubmessageAcknack bitmap (by omega) hm
  rw [← hf]
  obtain ⟨n, rfl⟩ : ∃ n, X = 65536 + n := ⟨X - 65536, by omega⟩
  have hlt : n < t.sent.length := by omega
  refine ⟨n, by omega, ?_⟩
  rw [List.getElem?_eq_getElem hlt]
  exact congrArg some (hafter.held n _ (by omega) (List.getElem?_eq_getElem hlt))

end Sender

end XrceDds
