import XrceDds.Client.OutputDrain
import XrceDds.Client.OutputSafety
import XrceDds.Client.RunSession

/-!
# Confirmed delivery

When `uxr_run_session_until_confirm_delivery` returns true, every submessage that was
accepted before the call was sent and reached the Agent.  The test behind it compares
`last_sent` with `last_acknown` only.  It suffices because flashing leaves nothing unsent
that was accepted (`StreamHistory.InOrder.flash`): the window accepts no position that it
would not send, and a slot that is sent while it is being filled is not filled on.
-/

namespace XrceDds

open Transition

/-! ## What holds of a stream along a run -/

/-- A submessage that waits to be sent lies in the slot of a position of the window. -/
structure Waits (stream : OutputReliableStream) (a w : ℕ) (e : Reservation) : Prop where
  le_written : 65536 + e.index ≤ w
  inWindow : 65536 + e.index ≤ a + stream.base.history
  offset_le : stream.offset ≤ e.start
  length_pos : 0 < e.length
  within : e.start + e.length ≤ uxrGetReliableBufferSize stream.base (seqOf (65536 + e.index))

/-- A waiting submessage waits on when the window opens and its slot keeps what it holds. -/
lemma Waits.mono {stream stream' : OutputReliableStream} {a a' w w' : ℕ} {e : Reservation}
    (h : Waits stream a w e) (ha : a ≤ a') (hw : w ≤ w')
    (hhistory : stream'.base.history = stream.base.history)
    (hoffset : stream'.offset = stream.offset)
    (hsize : uxrGetReliableBufferSize stream.base (seqOf (65536 + e.index)) ≤
      uxrGetReliableBufferSize stream'.base (seqOf (65536 + e.index))) :
    Waits stream' a' w' e where
  le_written := h.le_written.trans hw
  inWindow := by rw [hhistory]; exact h.inWindow.trans (Nat.add_le_add_right ha _)
  offset_le := hoffset ▸ h.offset_le
  length_pos := h.length_pos
  within := h.within.trans hsize

namespace StreamHistory

/-- A stream and its history agree: the submessages that wait lie in the window, those that
were sent lie in their messages, the Agent received what was sent, and what it acknowledged
it received. -/
structure InOrder (info : UxrSessionInfo) (t : StreamHistory) : Prop where
  offset_eq : t.stream.offset = uxrSessionHeaderOffset info
  window : ∃ w, PlainWindow t.stream (65535 + t.acknowledged) (65535 + t.sent.length) w ∧
    ∀ e ∈ t.accepted, t.sent.length ≤ e.index → Waits t.stream (65535 + t.acknowledged) w e
  carried : ∀ e ∈ t.accepted, ∀ m, t.sent[e.index]? = some m → e.start + e.length ≤ m.length
  arrived : ∀ index ∈ t.received, index < t.sent.length
  honest : ∀ index < t.acknowledged, index ∈ t.received

/-- What was accepted, sent and received stays so. -/
structure Later (t t' : StreamHistory) : Prop where
  sent : t.sent <+: t'.sent
  received : ∀ index ∈ t.received, index ∈ t'.received

/-- Nothing happens. -/
lemma Later.refl (t : StreamHistory) : Later t t := ⟨List.prefix_rfl, fun _ h => h⟩

/-- One thing happens after the other. -/
lemma Later.trans {t₁ t₂ t₃ : StreamHistory} (h₁ : Later t₁ t₂) (h₂ : Later t₂ t₃) :
    Later t₁ t₃ :=
  ⟨h₁.sent.trans h₂.sent, fun index h => h₂.received index (h₁.received index h)⟩

variable {info : UxrSessionInfo} {t : StreamHistory}

/-- The history of a stream begins in order. -/
theorem InOrder.start (stream : OutputReliableStream) (hdvd : stream.base.history ∣ 65536)
    (hoffset : stream.offset = uxrSessionHeaderOffset info) :
    InOrder info (.start (uxrResetOutputReliableStream stream)) where
  offset_eq := hoffset
  window := by
    have hheader := uxrSessionHeaderOffset_eq info
    refine ⟨65536, PlainWindow.reset stream hdvd (by omega) (by omega), fun e he => ?_⟩
    simp [StreamHistory.start] at he
  carried e he := by simp [StreamHistory.start] at he
  arrived index h := by simp [StreamHistory.start] at h
  honest index h := by simp [StreamHistory.start] at h

/-- A stream may change where neither its window nor its sizes do. -/
lemma InOrder.withStream (h : InOrder info t) {stream : OutputReliableStream}
    (hoffset : stream.offset = t.stream.offset)
    (hhistory : stream.base.history = t.stream.base.history)
    (hsizes : ∀ j, uxrGetReliableBufferSize stream.base j =
      uxrGetReliableBufferSize t.stream.base j)
    (hwindow : ∀ a s w, PlainWindow t.stream a s w → PlainWindow stream a s w) :
    InOrder info { t with stream := stream } := by
  obtain ⟨w, hw, hwaits⟩ := h.window
  exact { offset_eq := hoffset.trans h.offset_eq
          window := ⟨w, hwindow _ _ _ hw, fun e he hi =>
            (hwaits e he hi).mono le_rfl le_rfl hhistory hoffset (hsizes _).ge⟩
          carried := h.carried
          arrived := h.arrived
          honest := h.honest }

/-- Serializing keeps a stream in order. -/
theorem InOrder.serialize (h : InOrder info t) (seqNum : UxrSeqNum) {o : ℕ} {bytes : List UInt8}
    (hbody : o + bytes.length ≤ uxrGetReliableBufferCapacity t.stream.base) :
    InOrder info (t.serialize seqNum o bytes) := by
  have hlo := Nat.le_add_right (uxrGetReliableBuffer t.stream.base seqNum) o
  have hhi : uxrGetReliableBuffer t.stream.base seqNum + o + bytes.length ≤
      uxrGetReliableBuffer t.stream.base seqNum + uxrGetReliableBufferCapacity t.stream.base := by
    omega
  exact h.withStream rfl rfl (fun j => uxrGetReliableBufferSize_store t.stream.base hlo hhi)
    fun a s w hw => hw.store hlo hhi

/-- The heartbeat timer does not matter. -/
theorem InOrder.heartbeat (h : InOrder info t) (timestamp : ℤ) :
    InOrder info (t.heartbeat timestamp) := by
  obtain ⟨next, tries, heq⟩ := heartbeat_stream t.stream timestamp
  unfold StreamHistory.heartbeat
  rw [heq]
  exact h.withStream rfl rfl (fun _ => rfl) fun a s w hw => hw.congr rfl rfl rfl rfl rfl

/-- A message that was sent reaches the Agent. -/
theorem InOrder.arrive (h : InOrder info t) {index : ℕ} (hindex : index < t.sent.length) :
    InOrder info (t.arrive index) where
  offset_eq := h.offset_eq
  window := h.window
  carried := h.carried
  arrived i hi := by
    rcases List.mem_cons.mp hi with rfl | hi
    · exact hindex
    · exact h.arrived i hi
  honest i hi := List.mem_cons_of_mem _ (h.honest i hi)

/-- An honest ACKNACK that is not reordered keeps a stream in order. -/
theorem InOrder.acknack (h : InOrder info t) (bitmap : ℕ) {f : UxrSeqNum} (hf : t.Honest f) :
    InOrder info (t.acknack bitmap f) := by
  obtain ⟨w, hw, hwaits⟩ := h.window
  obtain ⟨n, rfl, hle, hreceived⟩ := hf
  -- the Agent received no more than was sent
  have hsent : n ≤ t.sent.length := by
    rcases n with _ | n
    · exact Nat.zero_le _
    · exact h.arrived n (hreceived n (Nat.lt_succ_self n))
  have hturn := t.stream.base.history_lt
  have hreach := hw.sent_le
  obtain ⟨d, rfl⟩ := Nat.exists_eq_add_of_le hle
  have hd : 65535 + t.acknowledged + d ≤ 65535 + t.sent.length := by omega
  have hf : seqOf (t.acknowledged + d) = seqOf (65535 + t.acknowledged + d + 1) := by
    rw [← seqOf_turn_add]
    congr 1
    omega
  have hsteps :
      seqSteps t.stream.lastAcknown (uxrSeqNumSub (seqOf (t.acknowledged + d)) 1) = d := by
    rw [hw.lastAcknown_eq, hf, uxrSeqNumSub_one, seqSteps_seqOf _ (by omega)]
  obtain ⟨hwindow, hoffset, hbase⟩ := hw.readSubmessageAcknack bitmap hd
  unfold StreamHistory.acknack
  rw [hsteps, hf]
  rw [Nat.add_assoc 65535] at hwindow hoffset hbase ⊢
  refine ⟨hoffset.trans h.offset_eq, ⟨w, hwindow, fun e he (hi : t.sent.length ≤ e.index) => ?_⟩,
    h.carried, h.arrived, hreceived⟩
  have hwait := hwaits e he hi
  refine hwait.mono (by dsimp only; omega) le_rfl ?_ hoffset ?_
  · rw [hbase]
    exact (OutputWindow.cleanBuffers_frame d t.stream).2.1
  · rw [hbase, hw.cleanBuffers_keeps (by omega) hwait.inWindow]

/-- An accepted submessage waits in the window. -/
theorem InOrder.submit (h : InOrder info t) {payloadSize : ℕ}
    (hfits : FitsSlot t.stream (submessageSize payloadSize)) (ub : UcdrBuffer)
    (submessageId mode : UInt8) : InOrder info (t.submit payloadSize ub submessageId mode) := by
  obtain ⟨w, hw, hwaits⟩ := h.window
  obtain ⟨r, hr, hcases⟩ := hw.prepareStream ub submessageId mode hfits
  unfold StreamHistory.submit
  rw [hr]
  rcases hcases with rfl | ⟨w', hopens, hroom, rfl⟩
  · exact h
  · have hwindow := hw.submessageIn_window hopens hroom submessageId mode
    have hpos := submessageSize_pos payloadSize
    have hturn := t.stream.base.history_lt
    have hcap := capacity_lt t.stream.base
    have hacknown := hw.acknown_le
    have hsent := hw.sent_lt
    have hlo := hopens.le
    have hin := hopens.inWindow
    have hsizes := PlainWindow.submessageIn_sizes hroom submessageId mode
    have hgrow := fun j => PlainWindow.size_le_reserve (j := j) hroom
    -- the room is in the message that the position `w'` becomes
    have hindex : 65536 + (t.sent.length + seqSteps (uxrSeqNumAdd t.stream.lastSent 1)
        (PlainWindow.submessageIn t.stream w' payloadSize submessageId mode).stream.lastWritten) =
        w' := by
      rw [PlainWindow.submessageIn_lastWritten, hw.lastSent_eq, uxrSeqNumAdd_seqOf,
        show w' = 65535 + t.sent.length + 1 + (w' - (65536 + t.sent.length)) by omega,
        seqSteps_seqOf _ (by omega)]
      omega
    have hoffset := PlainWindow.submessageIn_offset t.stream w' payloadSize submessageId mode
    have hhistory := PlainWindow.submessageIn_history t.stream w' payloadSize submessageId mode
    refine ⟨hoffset.trans h.offset_eq, ⟨w', hwindow, fun e he hi => ?_⟩, fun e he m hm => ?_,
      h.arrived, h.honest⟩
    · rcases List.mem_append.mp he with he | he
      · exact (hwaits e he hi).mono le_rfl hlo hhistory hoffset ((hgrow _).trans (hsizes _).ge)
      · obtain rfl := List.mem_singleton.mp he
        have hsame := uxrGetReliableBufferSize_setSize_same t.stream.base (i := seqOf w')
          (show uxrGetReliableBufferSize t.stream.base (seqOf w') + submessageSize payloadSize <
            4294967296 by omega)
        have hstart : (PlainWindow.submessageIn t.stream w' payloadSize submessageId
          mode).ub.final -
            (PlainWindow.submessageIn t.stream w' payloadSize submessageId mode).ub.init -
              submessageSize payloadSize =
            uxrGetReliableBufferSize t.stream.base (seqOf w') := by
          simp only [PlainWindow.submessageIn, PlainWindow.reservedIn, ucdrInitBufferOriginOffset,
            UcdrBuffer.advance]
          omega
        constructor
        case le_written => exact hindex.le
        case inWindow =>
          dsimp only
          rw [hhistory]
          exact hindex.le.trans hin
        case offset_le =>
          dsimp only
          rw [hoffset, hstart]
          exact hw.offset_le _
        case length_pos => exact Nat.lt_of_lt_of_le (by decide) hpos
        case within =>
          dsimp only
          rw [hindex, hsizes, hstart]
          exact hsame.ge
    · rcases List.mem_append.mp he with he | he
      · exact h.carried e he m hm
      · obtain rfl := List.mem_singleton.mp he
        have hlt := (List.getElem?_eq_some_iff.mp hm).1
        dsimp only at hlt
        omega

/-- Flashing keeps a stream in order and leaves nothing that was accepted unsent. -/
theorem InOrder.flash (h : InOrder info t) (streamIdRaw : UInt8) :
    InOrder info (t.flash info streamIdRaw) ∧
      ∀ e ∈ t.accepted, e.index < (t.flash info streamIdRaw).sent.length ∧
        (t.flash info streamIdRaw).submessage e = t.submessage e := by
  obtain ⟨w, hw, hwaits⟩ := h.window
  have hturn := t.stream.base.history_lt
  have hacknown := hw.acknown_le
  obtain ⟨w', -, hflashed, hstop⟩ := hw.flashLoop info streamIdRaw h.offset_eq 65536
  unfold StreamHistory.flash uxrFlashOutputStreams
  generalize flashLoop info streamIdRaw 65536 t.stream = r at hflashed hstop
  have hwindow := hflashed.window
  have hcount : 65535 + t.sent.length + r.2.length = 65535 + (t.sent ++ r.2).length := by
    rw [List.length_append, Nat.add_assoc]
  rw [hcount] at hwindow hstop
  -- a position that waits holds a message, so flashing does not stop before it
  have hall : ∀ e ∈ t.accepted, e.index < (t.sent ++ r.2).length := by
    intro e he
    by_contra hunsent
    have hwait := hwaits e he (by rw [List.length_append] at hunsent; omega)
    have hused := hwait.within
    have hin := hwait.inWindow
    have := hwait.offset_le
    have := hwait.length_pos
    have hsize := hflashed.sizes (seqOf (65536 + e.index))
    rcases hstop (by omega) with hfull | ⟨hlast, hempty⟩
    · omega
    · rcases Nat.lt_or_ge w' (65536 + e.index) with hlt | hge
      · have := hwindow.empty _ hlt (by rw [hflashed.sameLayout.history_eq]; exact hin)
        rw [hsize, hflashed.sameLayout.offset_eq] at this
        omega
      · obtain rfl : w' = 65536 + e.index := by omega
        omega
  have hnew : ∀ e ∈ t.accepted, t.sent.length ≤ e.index → ∀ m, (t.sent ++ r.2)[e.index]? = some m →
      e.start + e.length ≤ m.length ∧ (m.drop e.start).take e.length =
        slotBytes t.stream.base (seqOf e.index) e.start e.length := by
    intro e he hi m hm
    have hwait := hwaits e he hi
    rw [List.getElem?_append_right hi] at hm
    obtain ⟨hused, hslot, -⟩ := hflashed.messages _ m hm
    rw [show 65535 + t.sent.length + 1 + (e.index - t.sent.length) = 65536 + e.index by omega]
      at hused hslot
    have hfit := hwait.within.trans (hw.size_le hused)
    rw [hslot, length_slotBytes, slotBytes_slice _ _ hwait.within,
      hflashed.bodies _ _ _ hwait.offset_le hfit]
    refine ⟨hwait.within, ?_⟩
    rw [seqOf_turn_add]
  have hold : ∀ {index : ℕ} {m : List UInt8}, index < t.sent.length →
      (t.sent ++ r.2)[index]? = some m → t.sent[index]? = some m := by
    intro index m hlt hm
    rwa [List.getElem?_append_left hlt] at hm
  refine ⟨⟨hflashed.sameLayout.offset_eq.trans h.offset_eq, ⟨w', hwindow, fun e he hi => ?_⟩, ?_,
    ?_,
    h.honest⟩, fun e he => ⟨hall e he, ?_⟩⟩
  · exact absurd (hall e he) (Nat.not_lt.mpr hi)
  · intro e he m hm
    rcases Nat.lt_or_ge e.index t.sent.length with hlt | hge
    · exact h.carried e he m (hold hlt hm)
    · exact (hnew e he hge m hm).1
  · intro index hindex
    have := h.arrived index hindex
    rw [List.length_append]
    omega
  · obtain ⟨m, hm⟩ : ∃ m, (t.sent ++ r.2)[e.index]? = some m :=
      ⟨_, List.getElem?_eq_getElem (hall e he)⟩
    unfold submessage
    dsimp only
    rw [hm]
    rcases Nat.lt_or_ge e.index t.sent.length with hlt | hge
    · rw [hold hlt hm]
    · rw [List.getElem?_eq_none hge]
      exact (hnew e he hge m hm).2

/-- A stream that is up to date, as flashing left it or later, has all its messages received. -/
theorem InOrder.received_of_upToDate (h : InOrder info t)
    (hupdate : uxrIsOutputUpToDate t.stream = true) {index : ℕ} (hindex : index < t.sent.length) :
    index ∈ t.received := by
  obtain ⟨w, hw, -⟩ := h.window
  have hturn := t.stream.base.history_lt
  have hreach := hw.sent_le
  have hacknown := hw.acknown_le
  have heq := (uxrSeqNumCmp_eq_zero_iff _ _).mp (of_decide_eq_true hupdate).symm
  rw [hw.lastAcknown_eq, hw.lastSent_eq, Fin.ext_iff] at heq
  have hall := (SerialNumber.mod_eq_mod_iff (by omega) (by omega)).mp heq
  exact h.honest index (by omega)

/-- What was sent is delivered once the stream is up to date. -/
theorem InOrder.delivered (h : InOrder info t) {info' : UxrSessionInfo} {t' : StreamHistory}
    (h' : InOrder info' t')
    (hlater : t.Later t') (hupdate : uxrIsOutputUpToDate t'.stream = true) {e : Reservation}
    (he : e ∈ t.accepted) (hindex : e.index < t.sent.length) :
    t'.Delivered e (t.submessage e) := by
  obtain ⟨m, hm⟩ : ∃ m, t.sent[e.index]? = some m := ⟨_, List.getElem?_eq_getElem hindex⟩
  obtain ⟨tail, htail⟩ := hlater.sent
  have hm' : t'.sent[e.index]? = some m := by rw [← htail, List.getElem?_append_left hindex, hm]
  refine ⟨h'.received_of_upToDate hupdate (List.getElem?_eq_some_iff.mp hm').1, m, hm',
    h.carried e he m hm, ?_⟩
  unfold submessage
  rw [hm]

end StreamHistory

/-! ## Sessions in order -/

namespace SessionEvent

variable {info : UxrSessionInfo} {i : ℕ} {t : StreamHistory}

/-- An event keeps the streams in order that it is allowed for. -/
theorem effect_inOrder (e : SessionEvent) (h : t.InOrder info) (hallowed : e.Allowed i t) :
    (e.effect info i t).InOrder info := by
  cases e with
  | createOutputReliableStream base => exact h
  | createSession =>
    obtain ⟨w, hw, -⟩ := h.window
    exact .start t.stream hw.dvd h.offset_eq
  | submit j payloadSize ub submessageId mode =>
    simp only [effect]
    split
    · next hi => exact h.submit (hallowed hi) ub submessageId mode
    · exact h
  | serialize j seqNum o bytes =>
    simp only [effect]
    split
    · next hi => exact h.serialize seqNum (hallowed hi)
    · exact h
  | flash => exact (h.flash _).1
  | heartbeat timestamp => exact h.heartbeat timestamp
  | arrive j index =>
    simp only [effect]
    split
    · next hi => exact h.arrive (hallowed hi)
    · exact h
  | acknack streamIdRaw bitmap f =>
    simp only [effect]
    split
    · next hi => exact h.acknack bitmap (hallowed hi)
    · exact h

/-- Unless the session is created anew, what was sent and received stays so. -/
theorem effect_later (info : UxrSessionInfo) (i : ℕ) {e : SessionEvent} (he : e ≠ .createSession)
    (t : StreamHistory) : t.Later (e.effect info i t) := by
  cases e with
  | createOutputReliableStream base => exact .refl t
  | createSession => exact absurd rfl he
  | submit j payloadSize ub submessageId mode =>
    simp only [effect, StreamHistory.submit]
    split
    · split
      · exact ⟨List.prefix_rfl, fun _ h => h⟩
      · exact .refl t
    · exact .refl t
  | serialize j seqNum o bytes =>
    simp only [effect]
    split
    · exact ⟨List.prefix_rfl, fun _ h => h⟩
    · exact .refl t
  | flash => exact ⟨List.prefix_append _ _, fun _ h => h⟩
  | heartbeat timestamp => exact ⟨List.prefix_rfl, fun _ h => h⟩
  | arrive j index =>
    simp only [effect]
    split
    · exact ⟨List.prefix_rfl, fun _ h => List.mem_cons_of_mem _ h⟩
    · exact .refl t
  | acknack streamIdRaw bitmap f =>
    simp only [effect]
    split
    · exact ⟨List.prefix_rfl, fun _ h => h⟩
    · exact .refl t

/-- A stream is created in order. -/
lemma created_inOrder {e : SessionEvent} (ht : t ∈ e.created info)
    (hdvd : t.stream.base.history ∣ 65536) : t.InOrder info := by
  cases e with
  | createOutputReliableStream base =>
    obtain rfl := List.mem_singleton.mp ht
    have hhistory := (OutputWindow.setAllSizes_frame (uxrSessionHeaderOffset info) base.history
      base).2
    exact .start _ (hhistory ▸ hdvd) rfl
  | _ => simp [created] at ht

end SessionEvent

namespace ClientSession

variable {info : UxrSessionInfo} {st st' : ClientSession}

/-- The streams of a session are in order. -/
def InOrder (st : ClientSession) : Prop :=
  ∀ (i : ℕ) (t : StreamHistory), st.streams[i]? = some t → t.InOrder st.info

/-- Every stream of `st` goes on in `st'`. -/
def Continues (st st' : ClientSession) : Prop :=
  ∀ (i : ℕ) (t : StreamHistory), st.streams[i]? = some t →
    ∃ t', st'.streams[i]? = some t' ∧ t.Later t'

/-- A stream after an event is one of those before it, or was just created. -/
lemma step_getElem? (st : ClientSession) (e : SessionEvent) {i : ℕ} {t : StreamHistory}
    (h : (st.step e).streams[i]? = some t) :
    (∃ t₀, st.streams[i]? = some t₀ ∧ t = e.effect st.info i t₀) ∨ t ∈ e.created st.info := by
  unfold step at h
  dsimp only at h
  rw [List.getElem?_append] at h
  split at h
  · rw [List.getElem?_mapIdx, Option.map_eq_some_iff] at h
    obtain ⟨t₀, ht₀, rfl⟩ := h
    exact .inl ⟨t₀, ht₀, rfl⟩
  · exact .inr (List.mem_of_getElem? h)

/-- What an event does to a stream of the session. -/
lemma step_getElem?_of_some (e : SessionEvent) {i : ℕ} {t : StreamHistory}
    (h : st.streams[i]? = some t) :
    (st.step e).streams[i]? = some (e.effect st.info i t) := by
  have hlt := (List.getElem?_eq_some_iff.mp h).1
  unfold step
  dsimp only
  rw [List.getElem?_append_left (by rwa [List.length_mapIdx]), List.getElem?_mapIdx, h]
  rfl

/-- An admitted event keeps a session in order. -/
theorem step_inOrder (h : st.InOrder) {e : SessionEvent} (he : st.Admitted e) :
    (st.step e).InOrder := by
  intro i t ht
  rcases step_getElem? st e ht with ⟨t₀, ht₀, rfl⟩ | hcreated
  · exact e.effect_inOrder (h i t₀ ht₀) (he.1 i t₀ ht₀)
  · exact SessionEvent.created_inOrder hcreated (he.2 t hcreated)

/-- Unless the session is created anew, its streams go on. -/
lemma step_continues (st : ClientSession) {e : SessionEvent} (he : e ≠ .createSession) :
    st.Continues (st.step e) := fun i t ht =>
  ⟨_, step_getElem?_of_some e ht, SessionEvent.effect_later st.info i he t⟩

/-- Admitted runs keep a session in order. -/
theorem Reachable.inOrder (h : Reachable info st) : st.info = info ∧ st.InOrder := by
  refine Reaches.invariant (I := fun st => st.info = info ∧ st.InOrder) ?_ ?_ h
  · rintro st rfl
    exact ⟨rfl, fun i t ht => by simp at ht⟩
  · exact fun st e hst he => ⟨hst.1, step_inOrder hst.2 he⟩

/-- Several events keep a session in order, and its streams go on. -/
theorem run_inOrder (h : st.InOrder) {es : List SessionEvent} (hes : st.AdmittedAll es)
    (hcreate : .createSession ∉ es) : (st.run es).InOrder ∧ st.Continues (st.run es) := by
  induction es generalizing st with
  | nil => exact ⟨h, fun i t ht => ⟨t, ht, .refl t⟩⟩
  | cons e es ih =>
    rw [List.mem_cons, not_or] at hcreate
    obtain ⟨horder, hcontinues⟩ := ih (step_inOrder h hes.1) hes.2 hcreate.2
    refine ⟨horder, fun i t ht => ?_⟩
    obtain ⟨t₁, ht₁, hlater₁⟩ := step_continues st (Ne.symm hcreate.1) i t ht
    obtain ⟨t₂, ht₂, hlater₂⟩ := hcontinues i t₁ ht₁
    exact ⟨t₂, ht₂, hlater₁.trans hlater₂⟩

/-- The first events of an admitted run are admitted. -/
lemma AdmittedAll.of_append {es es' : List SessionEvent} (h : st.AdmittedAll (es ++ es')) :
    st.AdmittedAll es := by
  induction es generalizing st with
  | nil => trivial
  | cons e es ih => exact ⟨h.1, ih h.2⟩

/-- Rounds of listening are events one after the other. -/
lemma run_append (st : ClientSession) (es es' : List SessionEvent) :
    st.run (es ++ es') = (st.run es).run es' := List.foldl_append

end ClientSession

/-! ## The call -/

section Call

variable {st st' : ClientSession} {polls rest : List Poll}

/-- Listening takes some of the rounds, and what happens in them happens. -/
lemma listenMessageReliably_eq_run {poll : ℤ} {received : Bool}
    (h : listenMessageReliably polls poll st = some (received, st', rest)) :
    ∃ taken, polls = taken ++ rest ∧ st' = st.run (taken.flatMap Poll.happenings) := by
  induction polls generalizing poll st with
  | nil => simp [listenMessageReliably] at h
  | cons p polls ih =>
    have hround : (st.step (.heartbeat p.timestamp)).run p.events = st.run p.happenings := rfl
    unfold listenMessageReliably at h
    dsimp only at h
    rw [hround] at h
    split at h
    · obtain ⟨-, rfl, rfl⟩ := by simpa using h
      exact ⟨[p], rfl, by simp⟩
    · split at h
      · obtain ⟨taken, rfl, rfl⟩ := ih h
        exact ⟨p :: taken, rfl, by rw [List.flatMap_cons, ClientSession.run_append]⟩
      · obtain ⟨-, rfl, rfl⟩ := by simpa using h
        exact ⟨[p], rfl, by simp⟩

/-- The loop returns true in a state of the run where all streams are up to date. -/
lemma confirmLoop_eq_run {timeoutMs : ℤ} {n : ℕ}
    (h : confirmLoop timeoutMs n polls st = some (true, st', rest)) :
    st'.uxrOutputStreamsConfirmed = true ∧
      ∃ taken, polls = taken ++ rest ∧ st' = st.run (taken.flatMap Poll.happenings) := by
  induction n generalizing polls st with
  | zero => simp [confirmLoop] at h
  | succ n ih =>
    unfold confirmLoop at h
    split at h
    · next hconfirmed =>
      obtain ⟨rfl, rfl⟩ := by simpa using h
      exact ⟨hconfirmed, [], rfl, rfl⟩
    · split at h
      · next hlisten =>
        obtain ⟨taken, rfl, rfl⟩ := listenMessageReliably_eq_run hlisten
        obtain ⟨hconfirmed, taken', rfl, rfl⟩ := ih h
        refine ⟨hconfirmed, taken ++ taken', (List.append_assoc _ _ _).symm, ?_⟩
        rw [List.flatMap_append, ClientSession.run_append]
      · next hlisten =>
        obtain ⟨hconfirmed, rfl, rfl⟩ := by simpa using h
        exact ⟨hconfirmed, listenMessageReliably_eq_run hlisten⟩
      · simp at h

end Call

/-- When the call returns true, the submessages that were accepted before it on any output
reliable stream have been sent, each with the bytes it had then, and have reached the Agent.
After a flash no submessage that was accepted is left unsent, so that where `last_acknown`
equals `last_sent` all of them have reached the Agent. -/
theorem confirm_delivery_delivers {info : UxrSessionInfo} {st : ClientSession}
    (h : ClientSession.Reachable info st) :
    (∀ (timeoutMs : ℤ) (polls rest : List Poll) (st' : ClientSession),
      (st.step .flash).AdmittedAll (polls.flatMap Poll.happenings) →
      .createSession ∉ polls.flatMap Poll.happenings →
      uxrRunSessionUntilConfirmDelivery timeoutMs polls st = some (true, st', rest) →
      ∀ (i : ℕ) (t : StreamHistory), st.streams[i]? = some t →
        ∃ t', st'.streams[i]? = some t' ∧ ∀ e ∈ t.accepted, t'.Delivered e (t.submessage e)) ∧
    ∀ (i : ℕ) (t : StreamHistory), (st.step .flash).streams[i]? = some t →
      ∀ e ∈ t.accepted, e.index < t.sent.length ∧
        (t.stream.lastAcknown = t.stream.lastSent → t.Delivered e (t.submessage e)) := by
  obtain ⟨hinfo, horder⟩ := h.inOrder
  have hflash : (st.step .flash).InOrder :=
    ClientSession.step_inOrder horder ⟨fun _ _ _ => trivial, fun t ht => by
      simp [SessionEvent.created] at ht⟩
  constructor
  · intro timeoutMs polls rest st' hpolls hcreate hrun i t ht
    obtain ⟨hconfirmed, taken, rfl, rfl⟩ := confirmLoop_eq_run hrun
    rw [List.flatMap_append] at hpolls hcreate
    obtain ⟨horder', hcontinues⟩ := ClientSession.run_inOrder hflash hpolls.of_append
      fun hmem => hcreate (List.mem_append_left _ hmem)
    have hsent := ((horder i t ht).flash (uxrStreamIdRaw i)).2
    obtain ⟨t', ht', hlater⟩ := hcontinues i _ (ClientSession.step_getElem?_of_some .flash ht)
    refine ⟨t', ht', fun e he => ?_⟩
    obtain ⟨hindex, hbytes⟩ := hsent e he
    have hupdate := List.all_eq_true.mp hconfirmed t' (List.mem_of_getElem? ht')
    rw [← hbytes]
    exact (hflash i _ (ClientSession.step_getElem?_of_some .flash ht)).delivered
      (horder' i t' ht') hlater hupdate he hindex
  · intro i t ht e he
    have hin := hflash i t ht
    rcases ClientSession.step_getElem? st .flash ht with ⟨t₀, ht₀, rfl⟩ | hcreated
    · have hindex := (((horder i t₀ ht₀).flash (uxrStreamIdRaw i)).2 e he).1
      refine ⟨hindex, fun heq => hin.delivered hin (.refl _) ?_ he hindex⟩
      exact decide_eq_true ((uxrSeqNumCmp_eq_zero_iff _ _).mpr heq).symm
    · simp [SessionEvent.created] at hcreated

/-- A session with one stream of two slots, in which a submessage of four bytes was
accepted. -/
def acceptedSession : ClientSession :=
  ClientSession.run ⟨keylessSession, []⟩
    [.createOutputReliableStream (twoSlots 16 sixteen_lt),
      .submit 0 4 (ucdrInitBuffer 0 0) submessageIdWriteData 0]

/-- The message reaches the Agent, and its ACKNACK the client. -/
def confirmingPoll : Poll := ⟨0, [.arrive 0 0, .acknack 128 0 1], true⟩

/-- The events of that session are admitted. -/
lemma acceptedSession_reachable : ClientSession.Reachable keylessSession acceptedSession := by
  have hcreate : ClientSession.Admitted ⟨keylessSession, []⟩
      (.createOutputReliableStream (twoSlots 16 sixteen_lt)) := by
    refine ⟨fun i t ht => by simp at ht, fun t ht => ?_⟩
    obtain rfl := List.mem_singleton.mp ht
    decide
  have hsubmit : (ClientSession.step ⟨keylessSession, []⟩
      (.createOutputReliableStream (twoSlots 16 sixteen_lt))).Admitted
        (.submit 0 4 (ucdrInitBuffer 0 0) submessageIdWriteData 0) := by
    refine ⟨?_, fun t ht => by simp [SessionEvent.created] at ht⟩
    rintro (_ | i) t ht
    · obtain rfl := Option.some.inj ht
      exact fun _ => by decide
    · exact fun hi => absurd hi (Nat.succ_ne_zero i)
  have hstart : ClientSession.Reachable keylessSession ⟨keylessSession, []⟩ := .start rfl
  exact Reaches.next (Reaches.next hstart hcreate) hsubmit

/-- What the client then reads is honest. -/
lemma confirmingPoll_admitted :
    (acceptedSession.step .flash).AdmittedAll ([confirmingPoll].flatMap Poll.happenings) := by
  refine ⟨⟨fun _ _ _ => trivial, fun t ht => ?_⟩, ⟨?_, fun t ht => ?_⟩,
    ⟨?_, fun t ht => ?_⟩, trivial⟩
  · simp [SessionEvent.created] at ht
  · rintro (_ | i) t ht
    · obtain rfl := Option.some.inj ht
      exact fun _ => by decide
    · exact fun hi => absurd hi (Nat.succ_ne_zero i)
  · simp [SessionEvent.created] at ht
  · rintro (_ | i) t ht
    · obtain rfl := Option.some.inj ht
      refine fun _ => ⟨1, rfl, by decide, fun index hindex => ?_⟩
      obtain rfl : index = 0 := by omega
      decide
    · exact fun hi => absurd hi (Nat.succ_ne_zero i)
  · simp [SessionEvent.created] at ht

/-- The submessage of four bytes is delivered when the ACKNACK has been read. -/
theorem confirm_delivery_delivers_acceptedSession :
    ∃ st' rest,
      uxrRunSessionUntilConfirmDelivery 10 [confirmingPoll] acceptedSession =
        some (true, st', rest) ∧
      ∀ (i : ℕ) (t : StreamHistory), acceptedSession.streams[i]? = some t →
        ∃ t', st'.streams[i]? = some t' ∧ ∀ e ∈ t.accepted, t'.Delivered e (t.submessage e) := by
  have hreturn : (uxrRunSessionUntilConfirmDelivery 10 [confirmingPoll] acceptedSession).map
      Prod.fst = some true := by decide
  obtain ⟨⟨returned, st', rest⟩, hrun, heq⟩ := Option.map_eq_some_iff.mp hreturn
  obtain rfl : returned = true := heq
  exact ⟨st', rest, hrun, (confirm_delivery_delivers acceptedSession_reachable).1 10 _ rest st'
    confirmingPoll_admitted (by simp [Poll.happenings, confirmingPoll]) hrun⟩

end XrceDds
