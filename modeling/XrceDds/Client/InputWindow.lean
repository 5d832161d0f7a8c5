import XrceDds.Client.InputReliableStream
import XrceDds.Client.OutputWindow

/-!
# The window of an input reliable stream

The messages of a sender are given by their bodies, numbered from zero; `InputWindow` says
that a stream has handed over the first `n` of them, that it knows of `announced`, and that
the slots of the window behind `n` are empty or hold the body of their number.  The slot of
the next message is empty whenever `read_stream` returns: a message that fills it is handed
over at once, with those that were waiting for it (`InputWindow.readStream`).

All of this is about messages that are no FRAGMENTs (`PlainBody`).
-/

namespace XrceDds

/-- A message body that is no FRAGMENT and fits a slot. -/
structure PlainBody (capacity : ℕ) (body : List UInt8) : Prop where
  header_le : subheaderSize ≤ body.length
  length_le : body.length ≤ capacity
  plain : onGetFragmentationInfo (body.take subheaderSize) = .noFragmented

/-- What tells a FRAGMENT from other submessages lies in the header. -/
lemma onGetFragmentationInfo_take (body : List UInt8) :
    onGetFragmentationInfo (body.take subheaderSize) = onGetFragmentationInfo body := by
  match body with
  | [] => rfl
  | [_] => rfl
  | _ :: _ :: _ => rfl

/-- A stream that was announced some of the messages with the bodies `bodies` has handed over the
first `n`, and holds others of its window. -/
structure InputWindow (bodies : List (List UInt8)) (stream : InputReliableStream)
    (n announced : ℕ) : Prop where
  lastHandled_eq : stream.lastHandled = seqOf (65535 + n)
  lastAnnounced_eq : stream.lastAnnounced = seqOf (65535 + announced)
  handled_le : n ≤ announced
  announced_le : announced ≤ bodies.length
  dvd : stream.base.history ∣ 65536
  plain : ∀ body ∈ bodies, PlainBody (uxrGetReliableBufferCapacity stream.base) body
  slots : ∀ k, n ≤ k → k < n + stream.base.history →
    uxrGetReliableBufferSize stream.base (seqOf k) = 0 ∨
      k < announced ∧ ∃ body, bodies[k]? = some body ∧
        uxrGetReliableBufferSize stream.base (seqOf k) = body.length ∧
        slotBytes stream.base (seqOf k) 0 body.length = body

/-- Announcing a number looks at what is announced only. -/
lemma announce_withLastHandled (stream : InputReliableStream) (lastHandled seqNum : UxrSeqNum) :
    announce { stream with lastHandled := lastHandled } seqNum =
      { announce stream seqNum with lastHandled := lastHandled } := by
  unfold announce
  dsimp only
  split <;> rfl

/-- Announcing a number does not look at the slots. -/
lemma announce_withBase (stream : InputReliableStream) (base : ReliableStream)
    (seqNum : UxrSeqNum) :
    announce { stream with base := base } seqNum =
      { announce stream seqNum with base := base } := by
  unfold announce
  dsimp only
  split <;> rfl

namespace InputWindow

variable {bodies : List (List UInt8)} {stream : InputReliableStream} {n announced : ℕ}

/-- The numbers of the window have different slots. -/
lemma slot_ne (h : InputWindow bodies stream n announced) {j k : ℕ} (hj : n ≤ j)
    (hj' : j < n + stream.base.history) (hk : n ≤ k) (hk' : k < n + stream.base.history)
    (hne : j ≠ k) : (seqOf j).val % stream.base.history ≠ (seqOf k).val % stream.base.history := by
  intro heq
  change slotOf stream.base.history j = slotOf stream.base.history k at heq
  rw [slotOf_of_dvd h.dvd, slotOf_of_dvd h.dvd] at heq
  exact hne ((SerialNumber.mod_eq_mod_iff (by omega) (by omega)).mp heq)

/-- A number and the one a history further share a slot. -/
lemma slot_turn (h : InputWindow bodies stream n announced) (k : ℕ) :
    (seqOf k).val % stream.base.history =
      (seqOf (k + stream.base.history)).val % stream.base.history := by
  change slotOf stream.base.history k = slotOf stream.base.history (k + stream.base.history)
  rw [slotOf_of_dvd h.dvd, slotOf_of_dvd h.dvd, Nat.add_mod_right]

/-- The next number. -/
lemma next_eq (h : InputWindow bodies stream n announced) :
    uxrSeqNumAdd stream.lastHandled 1 = seqOf n := by
  rw [h.lastHandled_eq, uxrSeqNumAdd_seqOf, Nat.add_right_comm, seqOf_turn_add]

/-- A heartbeat or a message announces a number. -/
lemma announce (h : InputWindow bodies stream n announced) {k : ℕ} (hk : k ≤ bodies.length)
    (hahead : bodies.length < n + 32768) (hlate : bodies.length < k + 32768) :
    InputWindow bodies (announce stream (seqOf (65535 + k))) n (max announced k) ∧
      (XrceDds.announce stream (seqOf (65535 + k))).base = stream.base := by
  have hle := h.handled_le
  have hlength := h.announced_le
  have hcmp := uxrSeqNumCmp_seqOf_neg (X := 65535 + announced) (Y := 65535 + k)
    (by omega) (by omega)
  have hslots : ∀ i, n ≤ i → i < n + stream.base.history →
      uxrGetReliableBufferSize stream.base (seqOf i) = 0 ∨
        i < max announced k ∧ ∃ body, bodies[i]? = some body ∧
          uxrGetReliableBufferSize stream.base (seqOf i) = body.length ∧
          slotBytes stream.base (seqOf i) 0 body.length = body := fun i hi hi' =>
    (h.slots i hi hi').imp_right fun ⟨hlt, hheld⟩ => ⟨lt_max_of_lt_left hlt, hheld⟩
  unfold XrceDds.announce
  rw [h.lastAnnounced_eq]
  split
  · next hgt =>
    refine ⟨{ h with
      lastAnnounced_eq := ?_, handled_le := le_max_of_le_left hle, announced_le := ?_,
      slots := hslots }, rfl⟩
    · rw [max_eq_right (by omega)]
    · exact max_le hlength hk
  · next hgt =>
    refine ⟨{ h with
      lastAnnounced_eq := ?_, handled_le := le_max_of_le_left hle, announced_le := ?_,
      slots := hslots }, rfl⟩
    · rw [max_eq_left (by omega), h.lastAnnounced_eq]
    · exact max_le hlength hk

/-- The next message is handed over. -/
lemma handle {base' : ReliableStream} (h : InputWindow bodies stream n announced)
    (hn : n < announced) (hhistory : base'.history = stream.base.history)
    (hcapacity : uxrGetReliableBufferCapacity base' = uxrGetReliableBufferCapacity stream.base)
    (hempty : uxrGetReliableBufferSize base' (seqOf n) = 0)
    (hsizes : ∀ k, n < k → k < n + stream.base.history →
      uxrGetReliableBufferSize base' (seqOf k) = uxrGetReliableBufferSize stream.base (seqOf k))
    (hbytes : ∀ j p, p ≤ uxrGetReliableBufferCapacity stream.base →
      slotBytes base' j 0 p = slotBytes stream.base j 0 p) :
    InputWindow bodies { stream with
      base := base'
      lastHandled := seqOf n } (n + 1) announced where
  lastHandled_eq := (seqOf_pred_turn n).symm
  lastAnnounced_eq := h.lastAnnounced_eq
  handled_le := hn
  announced_le := h.announced_le
  dvd := by
    rw [hhistory]
    exact h.dvd
  plain := by
    rw [hcapacity]
    exact h.plain
  slots := by
    intro k hk hk'
    dsimp only at hk' ⊢
    rw [hhistory] at hk'
    rcases Nat.lt_or_ge k (n + stream.base.history) with hlt | hge
    · rw [hsizes k hk hlt]
      refine (h.slots k (by omega) hlt).imp_right ?_
      rintro ⟨hannounced, body, hbody, hsize, hheld⟩
      have hfits := (h.plain body (List.mem_of_getElem? hbody)).length_le
      exact ⟨hannounced, body, hbody, hsize, by rw [hbytes _ _ hfits, hheld]⟩
    · -- the slot of the message that was handed over is that of the end of the window
      left
      obtain rfl : k = n + stream.base.history := by omega
      rw [← hempty]
      refine uxrGetReliableBufferSize_congr ?_
      rw [hhistory]
      exact (h.slot_turn n).symm

/-- Where the next slot is empty there is nothing to read. -/
lemma available_of_empty (h : InputWindow bodies stream n announced)
    (hempty : uxrGetReliableBufferSize stream.base (seqOf n) = 0) (o : ℕ) :
    uxrNextInputReliableBufferAvailable stream o = some (stream, none) := by
  unfold uxrNextInputReliableBufferAvailable
  rw [h.next_eq]
  dsimp only
  rw [hempty]
  rfl

/-- What the next slot holds is handed over. -/
lemma available_of_held (h : InputWindow bodies stream n announced)
    (hheld : uxrGetReliableBufferSize stream.base (seqOf n) ≠ 0) (o : ℕ) :
    ∃ body, bodies[n]? = some body ∧
      uxrNextInputReliableBufferAvailable stream o = some
        ({ stream with
          base := uxrSetReliableBufferSize stream.base (seqOf n) 0
          lastHandled := seqOf n },
          some (ucdrInitBuffer (uxrGetReliableBuffer stream.base (seqOf n)) body.length)) ∧
      slotBytes (uxrSetReliableBufferSize stream.base (seqOf n) 0) (seqOf n) 0 body.length = body ∧
      InputWindow bodies { stream with
        base := uxrSetReliableBufferSize stream.base (seqOf n) 0
        lastHandled := seqOf n } (n + 1) announced := by
  have hpos := stream.base.history_pos
  obtain ⟨hlt, body, hbody, hsize, hbytes⟩ := (h.slots n le_rfl (by omega)).resolve_left hheld
  have hplain := h.plain body (List.mem_of_getElem? hbody)
  have hheader : slotHeader stream.base (seqOf n) = body.take subheaderSize := by
    obtain ⟨d, hd⟩ := Nat.exists_eq_add_of_le hplain.header_le
    unfold slotHeader
    conv_rhs => rw [← hbytes, hd, slotBytes_add]
    rw [List.take_left' (length_slotBytes _ _ _ _)]
  refine ⟨body, hbody, ?_, ?_, ?_⟩
  · unfold uxrNextInputReliableBufferAvailable
    rw [h.next_eq]
    dsimp only
    rw [if_pos hheld.symm, hheader, if_pos hplain.plain, hsize]
  · rw [slotBytes_setSize stream.base (by simpa using hplain.length_le), hbytes]
  · refine h.handle hlt rfl rfl (uxrGetReliableBufferSize_setSize_same _ (by decide)) ?_ ?_
    · intro k hk hk'
      exact uxrGetReliableBufferSize_setSize_of_ne _
        (h.slot_ne le_rfl (by omega) (by omega) hk' (by omega))
    · intro j p hp
      exact slotBytes_setSize stream.base (by omega)

/-- The loop of `read_stream` hands over the messages that wait without a gap. -/
theorem drain {fuel : ℕ} (h : InputWindow bodies stream n announced) {e : ℕ} (hn : n ≤ e)
    (hwindow : e < n + stream.base.history) (hfuel : e < n + fuel)
    (hempty : uxrGetReliableBufferSize stream.base (seqOf e) = 0) :
    ∃ stream' n', n ≤ n' ∧
      XrceDds.drain fuel stream = some (stream', (bodies.take n').drop n) ∧
      InputWindow bodies stream' n' announced ∧
      uxrGetReliableBufferSize stream'.base (seqOf n') = 0 ∧
      stream'.base.history = stream.base.history := by
  induction fuel generalizing stream n with
  | zero => omega
  | succ fuel ih =>
    unfold XrceDds.drain
    by_cases hheld : uxrGetReliableBufferSize stream.base (seqOf n) = 0
    · rw [h.available_of_empty hheld]
      refine ⟨stream, n, le_rfl, ?_, h, hheld, rfl⟩
      rw [List.drop_eq_nil_of_le (List.length_take_le _ _)]
    · obtain ⟨body, hbody, havailable, hbytes, hnext⟩ := h.available_of_held hheld subheaderSize
      have hne : n ≠ e := fun heq => hheld (heq ▸ hempty)
      have hempty' : uxrGetReliableBufferSize (uxrSetReliableBufferSize stream.base (seqOf n) 0)
          (seqOf e) = 0 := by
        have hpos := stream.base.history_pos
        rw [uxrGetReliableBufferSize_setSize_of_ne _
          (h.slot_ne le_rfl (by omega) hn hwindow hne), hempty]
      obtain ⟨stream', n', hle, hdrain, hwindow', hlast, hhistory⟩ := ih hnext (by omega)
        (show e < n + 1 + stream.base.history by omega) (by omega) hempty'
      refine ⟨stream', n', by omega, ?_, hwindow', hlast, hhistory⟩
      have hread : ByteMemory.read (uxrSetReliableBufferSize stream.base (seqOf n) 0).buffer
          (ucdrInitBuffer (uxrGetReliableBuffer stream.base (seqOf n)) body.length).iterator
          ((ucdrInitBuffer (uxrGetReliableBuffer stream.base (seqOf n)) body.length).final -
            (ucdrInitBuffer (uxrGetReliableBuffer stream.base (seqOf n)) body.length).iterator) =
          body := by
        simp only [ucdrInitBuffer, ucdrInitBufferOrigin, ucdrInitBufferOriginOffset, Nat.add_zero,
          Nat.add_sub_cancel_left]
        exact hbytes
      obtain ⟨hlt, heq⟩ := List.getElem?_eq_some_iff.mp hbody
      have hcons : (bodies.take n').drop n = body :: (bodies.take n').drop (n + 1) := by
        rw [List.drop_eq_getElem_cons (by rw [List.length_take]; omega), List.getElem_take, heq]
      rw [havailable]
      dsimp only
      rw [hdrain, Option.map_some, hread, hcons]

/-- A message that is no FRAGMENT and arrives ahead of its turn is stored. -/
lemma store (h : InputWindow bodies stream n announced) {k : ℕ} {body : List UInt8}
    (hbody : bodies[k]? = some body) (hk : n ≤ k) (hwindow : k < n + stream.base.history)
    (hannounced : k < announced) :
    InputWindow bodies { stream with
      base := uxrSetReliableBufferSize
        (stream.base.store (uxrGetReliableBuffer stream.base (seqOf k)) body) (seqOf k)
          body.length } n announced ∧
    ∀ j, n ≤ j → j < n + stream.base.history → j ≠ k →
      uxrGetReliableBufferSize (uxrSetReliableBufferSize
        (stream.base.store (uxrGetReliableBuffer stream.base (seqOf k)) body) (seqOf k)
          body.length) (seqOf j) = uxrGetReliableBufferSize stream.base (seqOf j) := by
  have hfits := (h.plain body (List.mem_of_getElem? hbody)).length_le
  have hcap := capacity_lt stream.base
  obtain ⟨base, hbase⟩ : ∃ base, base =
      stream.base.store (uxrGetReliableBuffer stream.base (seqOf k)) body := ⟨_, rfl⟩
  rw [← hbase]
  have hhistory : base.history = stream.base.history := by rw [hbase, store_history]
  have hcapacity : uxrGetReliableBufferCapacity base =
    uxrGetReliableBufferCapacity stream.base := by
    rw [hbase, uxrGetReliableBufferCapacity_store]
  have hothers : ∀ j, n ≤ j → j < n + stream.base.history → j ≠ k →
      uxrGetReliableBufferSize (uxrSetReliableBufferSize base (seqOf k) body.length) (seqOf j) =
        uxrGetReliableBufferSize stream.base (seqOf j) := by
    intro j hj hj' hne
    have hslot := h.slot_ne hk hwindow hj hj' hne.symm
    rw [uxrGetReliableBufferSize_setSize_of_ne _ (by rwa [hhistory]), hbase]
    exact uxrGetReliableBufferSize_store stream.base (i := seqOf k) le_rfl (by omega)
  refine ⟨{ h with dvd := ?_, plain := ?_, slots := ?_ }, hothers⟩
  · rw [uxrSetReliableBufferSize_history, hhistory]
    exact h.dvd
  · rw [uxrGetReliableBufferCapacity_setSize, hcapacity]
    exact h.plain
  · intro j hj hj'
    dsimp only at hj' ⊢
    rw [uxrSetReliableBufferSize_history, hhistory] at hj'
    rcases eq_or_ne j k with rfl | hne
    · refine .inr ⟨hannounced, body, hbody,
        uxrGetReliableBufferSize_setSize_same _ (by omega), ?_⟩
      rw [slotBytes_setSize base (by omega), hbase]
      exact slotBytes_store_same (p := 0) stream.base rfl
    · rw [hothers j hj hj' hne]
      refine (h.slots j hj hj').imp_right ?_
      rintro ⟨hlt, other, hother, hsize, hheld⟩
      have hle := (h.plain other (List.mem_of_getElem? hother)).length_le
      refine ⟨hlt, other, hother, hsize, ?_⟩
      rw [slotBytes_setSize base (by omega), hbase,
        slotBytes_store_of_ne stream.base (i := seqOf k) le_rfl (by omega)
          (h.slot_ne hk hwindow hj hj' hne.symm) (by omega), hheld]

/-- Whether a number is in the window. -/
lemma inWindow_iff (h : InputWindow bodies stream n announced) {k : ℕ} (hk : k < bodies.length)
    (hahead : bodies.length < n + 32768)
    (hlate : bodies.length + stream.base.history ≤ k + 32768) :
    (0 > uxrSeqNumCmp stream.lastHandled (seqOf k) ∧
      0 ≤ uxrSeqNumCmp (uxrSeqNumAdd stream.lastHandled stream.base.history) (seqOf k)) ↔
    n ≤ k ∧ k < n + stream.base.history := by
  have hle := h.handled_le
  have hlength := h.announced_le
  rw [h.lastHandled_eq, uxrSeqNumAdd_seqOf, ← seqOf_turn_add k,
    uxrSeqNumCmp_seqOf_neg (by omega) (by omega), uxrSeqNumCmp_seqOf_nonneg (by omega) (by omega)]
  omega

section Receive

variable (h : InputWindow bodies stream n announced) {k : ℕ} {body : List UInt8}
  (hbody : bodies[k]? = some body) (hahead : bodies.length < n + 32768)
  (hlate : bodies.length + stream.base.history ≤ k + 32768)

include h hbody hahead hlate

/-- What `uxr_receive_reliable_message` does with a message that is no FRAGMENT. -/
lemma receive_eq : uxrReceiveReliableMessage stream (seqOf k) body =
    if n ≤ k ∧ k < n + stream.base.history then
      if k = n then
        some ⟨true, false, XrceDds.announce { stream with lastHandled := seqOf n } (seqOf k)⟩
      else if 0 = uxrGetReliableBufferSize stream.base (seqOf k) then
        some ⟨false, true, XrceDds.announce { stream with
          base := uxrSetReliableBufferSize
            (stream.base.store (uxrGetReliableBuffer stream.base (seqOf k)) body) (seqOf k)
              body.length } (seqOf k)⟩
      else some ⟨false, false, XrceDds.announce stream (seqOf k)⟩
    else some ⟨false, false, XrceDds.announce stream (seqOf k)⟩ := by
  have hk := (List.getElem?_eq_some_iff.mp hbody).1
  have hlt := stream.base.history_lt
  have hplain := (h.plain body (List.mem_of_getElem? hbody)).plain
  have hin := h.inWindow_iff hk hahead hlate
  rw [onGetFragmentationInfo_take] at hplain
  unfold uxrReceiveReliableMessage
  dsimp only
  rw [hplain, h.next_eq]
  by_cases hwindow : n ≤ k ∧ k < n + stream.base.history
  · have hnext : seqOf k = seqOf n ↔ k = n := by
      rw [Fin.ext_iff, seqOf_val, seqOf_val]
      omega
    rw [if_pos (hin.mpr hwindow), if_pos hwindow]
    by_cases hkn : k = n
    · rw [if_pos ⟨rfl, hnext.mpr hkn⟩, if_pos hkn]
    · rw [if_neg fun hboth => hkn (hnext.mp hboth.2), if_neg hkn]
      rfl
  · rw [if_neg fun hboth => hwindow (hin.mp hboth), if_neg hwindow]

/-- The message is announced. -/
lemma announce_message : InputWindow bodies (XrceDds.announce stream (seqOf k)) n
      (max announced (k + 1)) ∧
    (XrceDds.announce stream (seqOf k)).base = stream.base := by
  have hk := (List.getElem?_eq_some_iff.mp hbody).1
  rw [← seqOf_pred_turn k]
  exact h.announce hk hahead (by omega)

end Receive

/-- Reading a message: it is handed over with those that waited for it, stored or dropped, and
what is handed over are the next messages. -/
theorem readStream (h : InputWindow bodies stream n announced)
    (hempty : uxrGetReliableBufferSize stream.base (seqOf n) = 0) {k : ℕ} {body : List UInt8}
    (hbody : bodies[k]? = some body) (hahead : bodies.length < n + 32768)
    (hlate : bodies.length + stream.base.history ≤ k + 32768) :
    ∃ stream' n' announced', n ≤ n' ∧
      XrceDds.readStream stream (seqOf k) body = some (stream', (bodies.take n').drop n) ∧
      InputWindow bodies stream' n' announced' ∧
      uxrGetReliableBufferSize stream'.base (seqOf n') = 0 ∧
      stream'.base.history = stream.base.history := by
  have hpos := stream.base.history_pos
  have hnone : (bodies.take n).drop n = [] := List.drop_eq_nil_of_le (List.length_take_le _ _)
  obtain ⟨hannounced, hbase⟩ := h.announce_message hbody hahead hlate
  have hreceive := h.receive_eq hbody hahead hlate
  unfold XrceDds.readStream
  by_cases hwindow : n ≤ k ∧ k < n + stream.base.history
  · rw [if_pos hwindow] at hreceive
    by_cases hkn : k = n
    · subst hkn
      rw [if_pos rfl, announce_withLastHandled] at hreceive
      have hwindow' : InputWindow bodies
          { XrceDds.announce stream (seqOf k) with lastHandled := seqOf k } (k + 1) _ :=
        hannounced.handle (lt_max_of_lt_right (Nat.lt_succ_self k)) rfl rfl (by rw [hbase, hempty])
          (fun _ _ _ => rfl) (fun _ _ _ => rfl)
      have hend : uxrGetReliableBufferSize (XrceDds.announce stream (seqOf k)).base
          (seqOf (k + stream.base.history)) = 0 := by
        rw [hbase, ← hempty]
        exact (uxrGetReliableBufferSize_congr (h.slot_turn k)).symm
      have hsame : ({ XrceDds.announce stream (seqOf k) with
          lastHandled := seqOf k } : InputReliableStream).base = stream.base := hbase
      obtain ⟨stream', n', hle, hdrain, hlast, hempty', hhistory'⟩ := hwindow'.drain
        (e := k + stream.base.history) (by omega) (by rw [hsame]; omega)
        (show k + stream.base.history <
          k + 1 + ((XrceDds.announce stream (seqOf k)).base.history + 1) by rw [hbase]; omega) hend
      obtain ⟨hlt, heq⟩ := List.getElem?_eq_some_iff.mp hbody
      have hcons : (bodies.take n').drop k = body :: (bodies.take n').drop (k + 1) := by
        rw [List.drop_eq_getElem_cons (by rw [List.length_take]; omega), List.getElem_take, heq]
      refine ⟨stream', n', _, by omega, ?_, hlast, hempty', hhistory'.trans (by rw [hsame])⟩
      rw [hreceive]
      dsimp only at hdrain ⊢
      rw [if_pos rfl, hdrain, Option.map_some, hcons]
      rfl
    · rw [if_neg hkn] at hreceive
      by_cases hfree : 0 = uxrGetReliableBufferSize stream.base (seqOf k)
      · rw [if_pos hfree, announce_withBase] at hreceive
        obtain ⟨hstored, hothers⟩ := hannounced.store hbody hwindow.1
          (by rw [hbase]; exact hwindow.2)
          (lt_max_of_lt_right (Nat.lt_succ_self k))
        rw [hbase] at hstored hothers
        rw [hreceive]
        refine ⟨_, n, _, le_rfl, by rw [hnone]; rfl, hstored, ?_, rfl⟩
        exact (hothers n le_rfl (by omega) (Ne.symm hkn)).trans hempty
      · rw [if_neg hfree] at hreceive
        rw [hreceive]
        exact ⟨_, n, _, le_rfl, by rw [hnone]; rfl, hannounced, by rw [hbase, hempty],
          by rw [hbase]⟩
  · rw [if_neg hwindow] at hreceive
    rw [hreceive]
    exact ⟨_, n, _, le_rfl, by rw [hnone]; rfl, hannounced, by rw [hbase, hempty], by rw [hbase]⟩

/-- A new stream has handed over nothing. -/
lemma start {base : ReliableStream} (hdvd : base.history ∣ 65536) :
    InputWindow [] (uxrInitInputReliableStream base) 0 0 ∧
      uxrGetReliableBufferSize (uxrInitInputReliableStream base).base (seqOf 0) = 0 := by
  have hhistory : (uxrInitInputReliableStream base).base.history = base.history :=
    (OutputWindow.setAllSizes_frame 0 base.history base).2
  have hsizes : ∀ j, uxrGetReliableBufferSize (uxrInitInputReliableStream base).base j = 0 :=
    fun j => OutputWindow.setAllSizes_bufferSize (by decide) base le_rfl
      (Nat.mod_lt _ base.history_pos)
  refine ⟨⟨seqNumMax_eq, seqNumMax_eq, le_rfl, le_rfl, by rw [hhistory]; exact hdvd,
    fun body hbody => absurd hbody (by simp), fun k _ _ => .inl (hsizes _)⟩, hsizes _⟩

/-- The sender pushes one more message. -/
lemma append (h : InputWindow bodies stream n announced) {body : List UInt8}
    (hbody : PlainBody (uxrGetReliableBufferCapacity stream.base) body) :
    InputWindow (bodies ++ [body]) stream n announced where
  lastHandled_eq := h.lastHandled_eq
  lastAnnounced_eq := h.lastAnnounced_eq
  handled_le := h.handled_le
  announced_le := by
    rw [List.length_append]
    exact Nat.le_add_right_of_le h.announced_le
  dvd := h.dvd
  plain := by
    intro other hother
    rcases List.mem_append.mp hother with hold | hnew
    · exact h.plain other hold
    · exact List.mem_singleton.mp hnew ▸ hbody
  slots := by
    intro k hk hk'
    refine (h.slots k hk hk').imp_right ?_
    rintro ⟨hlt, other, hother, hheld⟩
    refine ⟨hlt, other, ?_, hheld⟩
    rw [List.getElem?_append_left (List.getElem?_eq_some_iff.mp hother).1, hother]

/-- The next message is the first one that is not acknowledged. -/
lemma firstUnacked_eq (h : InputWindow bodies stream n announced)
    (hempty : uxrGetReliableBufferSize stream.base (seqOf n) = 0) :
    uxrGetFirstUnacked stream = seqOf n := by
  obtain ⟨history, hhistory⟩ := Nat.exists_eq_succ_of_ne_zero stream.base.history_pos.ne'
  unfold uxrGetFirstUnacked
  rw [hhistory, firstUnackedLoop, h.next_eq, hempty]
  rfl

end InputWindow

end XrceDds
