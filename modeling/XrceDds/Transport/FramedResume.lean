import XrceDds.Transport.FramedCodec

/-!
# Frames between the two implementations

A receiver may be in the middle of a frame when the bytes of a line reach it.  It goes on with that
frame, so what it returns first may begin in what it held (`Unfinished`).  Behind that it receives
the line as a new receiver does, and every frame on it that either of the two writers has put there
(`framed_line_resumed`).
-/

namespace XrceDds

open StreamDecoder

/-- A call that reports success has put a frame for the address on the line: a call of the client
with any write callback, or one of the Agent whose write callback takes each flush as a whole. -/
inductive WrittenFrame (localAddr : UInt8) (m : FrameMessage) : List UInt8 → Prop
  | client {fuel : ℕ} {callback : WriteCallback} {r : FramedMsg} :
      uxrWriteFramedMsg m.remoteAddr localAddr m.payload fuel callback = some r → r.rv ≠ 0 →
        WrittenFrame localAddr m r.accepted
  | agent {fuel : ℕ} {callback : WriteCallback} {r : FramedMsg} :
      (∀ i, framingBufferSize ≤ callback i) →
      framingIOWriteFramedMsg m.remoteAddr localAddr m.payload fuel callback = some r → r.rv ≠ 0 →
        WrittenFrame localAddr m r.accepted

/-- A message that was sent, the bytes that its writer put on the line, and the noise behind. -/
structure WrittenMessage where
  message : FrameMessage
  bytes : List UInt8
  noise : List UInt8

/-- A line of written frames: noise, and the bytes of every frame with noise behind. -/
def writtenLine (noise : List UInt8) (written : List WrittenMessage) : List UInt8 :=
  noise ++ written.flatMap fun x => x.bytes ++ x.noise

/-- The messages of a line of written frames, with the noise behind each. -/
def lineMessages (written : List WrittenMessage) : List (FrameMessage × List UInt8) :=
  written.map fun x => (x.message, x.noise)

/-! ## Writers -/

/-- No piece is longer than the write buffer. -/
lemma length_fillOctets {wb : List UInt8} (hwb : wb.length ≤ framingBufferSize)
    (octets : List UInt8) : (fillOctets wb octets).2.length ≤ framingBufferSize ∧
      ∀ piece ∈ (fillOctets wb octets).1, piece.length ≤ framingBufferSize := by
  induction octets generalizing wb with
  | nil => exact ⟨hwb, fun piece hpiece => (List.not_mem_nil hpiece).elim⟩
  | cons octet octets ih =>
    rw [fillOctets]
    cases hadd : addNextOctet wb octet with
    | some wb' =>
      refine ih ?_
      rw [addNextOctet_eq] at hadd
      split at hadd
      · next hle =>
        obtain rfl := Option.some.inj hadd
        rwa [List.length_append]
      · cases hadd
    | none =>
      have hstuff : (stuff octet).length ≤ framingBufferSize :=
        (length_stuff_le octet).trans (by decide)
      refine ⟨(ih hstuff).1, fun piece hpiece => ?_⟩
      rcases List.mem_cons.mp hpiece with rfl | hpiece
      · exact hwb
      · exact (ih hstuff).2 piece hpiece

/-- No piece of a message is longer than the write buffer. -/
lemma length_framedPieces {localAddr remoteAddr : UInt8} {buf : List UInt8} :
    ∀ piece ∈ framedPieces localAddr remoteAddr buf, piece.length ≤ framingBufferSize := by
  have hheader : (framedHeader localAddr remoteAddr buf.length).length ≤ framingBufferSize := by
    rw [framedHeader_eq]
    have hle := length_stuff_le
    simp only [List.flatMap_cons, List.flatMap_nil, List.length_cons, List.length_append,
      List.length_nil]
    have h₁ := hle localAddr
    have h₂ := hle remoteAddr
    have h₃ := hle ( UInt8.ofNat buf.length)
    have h₄ := hle ( UInt8.ofNat (buf.length / 256))
    unfold framingBufferSize
    omega
  obtain ⟨hrest, hpieces⟩ := length_fillOctets hheader (framedOctets buf)
  intro piece hpiece
  unfold framedPieces at hpiece
  rcases List.mem_append.mp hpiece with hpiece | hpiece
  · exact hpieces piece hpiece
  · obtain rfl := List.mem_singleton.mp hpiece
    exact hrest

/-- A flush that is taken as a whole. -/
lemma transportWrite_whole {wb : List UInt8} {callback : WriteCallback}
    (hwhole : wb.length ≤ callback 0) :
    transportWrite wb callback = some ⟨true, wb, callback.next⟩ := by
  have htaken : min (callback 0) wb.length = wb.length := Nat.min_eq_right hwhole
  unfold transportWrite
  rw [flushLoop, htaken, Nat.zero_add, if_neg (fun h => Nat.lt_irrefl _ h.1), List.take_length,
    decide_eq_true rfl]

/-- Flushes that are each taken as a whole accept the pieces. -/
lemma accepted_of_whole {pieces : List (List UInt8)} {callback : WriteCallback} {r : FlushResult}
    (hpieces : ∀ piece ∈ pieces, piece.length ≤ framingBufferSize)
    (hwhole : ∀ i, framingBufferSize ≤ callback i)
    (h : flushPieces transportWrite pieces callback = some r) : r.accepted = pieces.flatten := by
  induction pieces generalizing callback r with
  | nil =>
    obtain rfl := Option.some.inj h
    rfl
  | cons piece pieces ih =>
    have hpiece := (hpieces piece List.mem_cons_self).trans (hwhole 0)
    rw [flushPieces, transportWrite_whole hpiece] at h
    dsimp only at h
    rw [if_pos rfl] at h
    obtain ⟨r', hr', rfl⟩ := Option.map_eq_some_iff.mp h
    have hrest := ih (fun piece hpiece => hpieces piece (List.mem_cons_of_mem _ hpiece))
      (fun i => hwhole (i + 1)) hr'
    rw [FlushResult.after, hrest, List.flatten_cons]

/-- What a writer puts on the line is the frame of the message. -/
lemma WrittenFrame.bytes_eq {localAddr : UInt8} {m : FrameMessage} {bytes : List UInt8}
    (h : WrittenFrame localAddr m bytes) : bytes = frame m.remoteAddr localAddr m.payload := by
  cases h with
  | client hcall hrv =>
    refine ((framedExact_iff framingWriteTransport_ends Nat.mod_eq_of_lt).mpr ?_).success _ _ hcall
      hrv
    intro _ _ r hr hrv'
    rw [flushPieces_framingWriteTransport hr hrv', flatten_framedPieces]
  | agent hwhole hcall hrv =>
    refine ((framedExact_iff transportWrite_ends fun _ => rfl).mpr ?_).success _ _ hcall hrv
    intro _ _ r hr _
    rw [accepted_of_whole length_framedPieces hwhole hr, flatten_framedPieces]

/-- A line of written frames is one of noise and frames. -/
lemma writtenLine_eq {localAddr : UInt8} {written : List WrittenMessage}
    (hwritten : ∀ x ∈ written, WrittenFrame localAddr x.message x.bytes) (noise : List UInt8) :
    writtenLine noise written = wire localAddr noise (lineMessages written) := by
  unfold writtenLine wire lineMessages
  rw [List.flatMap_map]
  congr 1
  exact List.flatMap_congr fun x hx => by rw [(hwritten x hx).bytes_eq]

/-! ## What a receiver holds -/

namespace FramedRun

/-- What a receiver holds of what was delivered: the start of a frame that it was reading, if any,
and what it has not read. -/
structure Unfinished (r : FramedRun) (held : List UInt8) : Prop where
  suffix : held <:+ r.delivered
  start : held = r.unread ∨
    ∃ within, framingBeginFlag ∉ within ∧ held = framingBeginFlag :: within ++ r.unread

/-- The receiver of a run, to which nothing was delivered and which has returned nothing since. -/
def Resumes (r s : FramedRun) : Prop := s = ⟨r.receiver, [], []⟩

end FramedRun

/-- Bytes that stand for octets have no begin flag. -/
lemma Unstuffs.not_mem {bytes octets : List UInt8} (h : Unstuffs bytes octets) :
    framingBeginFlag ∉ bytes := by
  induction h with
  | nil => exact List.not_mem_nil
  | plain _ hbegin _ ih =>
    rw [List.mem_append, List.mem_singleton]
    exact not_or.mpr ⟨ih, Ne.symm hbegin⟩
  | escaped _ hbegin ih =>
    rw [List.mem_append, List.mem_cons, List.mem_singleton]
    exact not_or.mpr ⟨ih, not_or.mpr ⟨by decide, Ne.symm hbegin⟩⟩

/-- What was taken of a frame that is read is its start. -/
lemma FrameScan.Behind.begun {localAddr : UInt8} {scan : FrameScan} {fed : List UInt8}
    (h : FrameScan.Behind localAddr (scan, false) fed) : ∃ begun, begun <:+ fed ∧
      FrameScan.Behind localAddr (scan, false) begun ∧
      (begun = [] ∨ ∃ within, framingBeginFlag ∉ within ∧ begun = framingBeginFlag :: within) := by
  rcases h with hhunt | ⟨before, within, octets, hunstuffs, hshows, rfl⟩
  · exact ⟨[], List.nil_suffix, .inl hhunt, .inl rfl⟩
  · rw [if_neg Bool.false_ne_true, List.append_nil]
    refine ⟨framingBeginFlag :: within, List.suffix_append _ _, ?_,
      .inr ⟨within, hunstuffs.not_mem, rfl⟩⟩
    refine .inr ⟨[], within, octets, hunstuffs, hshows, ?_⟩
    rw [if_neg Bool.false_ne_true, List.append_nil, List.nil_append]

namespace FramedRun

variable {framing : Framing} {localAddr : UInt8} {len : ℕ} {r s : FramedRun}

/-- A call takes no notice of what was delivered before the run. -/
lemma behind_step (before : List UInt8) (e : ReceiverCall) :
    (s.step framing e).behind before = (s.behind before).step framing e := by
  unfold step behind
  dsimp only
  rw [List.append_assoc]

/-- Bytes before a run, and bytes before these. -/
lemma behind_behind (before before' : List UInt8) :
    (s.behind before').behind before = s.behind (before ++ before') := by
  unfold behind
  dsimp only
  rw [List.append_assoc]

/-- What was taken of a line says what was read of a frame. -/
lemma Invariant.behind_taken {taken : List UInt8} {scan : FrameScan}
    (h : Invariant localAddr len .hunt r taken scan) :
    FrameScan.Behind localAddr (scan, false) taken := by
  have htraces : Traces (FrameScan.feed localAddr len) (FrameScan.Behind localAddr) _ :=
    FrameScan.traces_feed
  have hstart : FrameScan.Behind localAddr (.hunt, false) [] := .inl rfl
  have hfed := htraces.after hstart taken
  rwa [h.decodes.after_eq, List.nil_append] at hfed

/-- A run goes on from what its receiver had read. -/
lemma Invariant.resume (hcrc16 : framing.updateCrc = updateCrc) {taken : List UInt8}
    {start scan : FrameScan} (h : Invariant localAddr len start r taken scan)
    (hresumed : Transition.Reaches r.Resumes (step framing) (Admitted framing len) s) :
    ∃ taken' scan', Invariant localAddr len scan (s.behind r.unread) taken' scan' := by
  refine hresumed.invariant
    (I := fun s => ∃ taken' scan', Invariant localAddr len scan (s.behind r.unread) taken' scan')
    ?_ ?_
  · rintro _ rfl
    exact ⟨[], scan, List.append_nil _, .nil _, h.holds, h.localAddr_eq, h.mirrors⟩
  · rintro s e ⟨taken', scan', h'⟩ hadmitted
    obtain ⟨taken'', scan'', -, -, hnext⟩ := h'.call hcrc16 (e := e) hadmitted
    rw [behind_step]
    exact ⟨_, _, hnext⟩

end FramedRun

/-- Wherever a receiver stands when a line of noise and written frames reaches it, and whatever the
pieces are in which it arrives: the message of every frame is returned once, unaltered, in order and
with its source address, and what is returned besides lies in the noise, of which what the receiver
held is the beginning. -/
theorem framed_line_resumed {framing : Framing}
    (hframing : framing = clientFraming ∨ framing = agentFraming) {localAddr : UInt8} {len : ℕ}
    {r : FramedRun} (hrun : Transition.Reaches (FramedRun.Init localAddr) (FramedRun.step framing)
      (FramedRun.Admitted framing len) r) :
    ∃ held, r.Unfinished held ∧ ∀ {s : FramedRun}, Transition.Reaches r.Resumes
      (FramedRun.step framing) (FramedRun.Admitted framing len) s →
        ∀ {noise : List UInt8} {written : List WrittenMessage},
          (∀ x ∈ written, WrittenFrame localAddr x.message x.bytes) →
          (∀ x ∈ written, x.message.Fits len) → s.delivered <+: writtenLine noise written →
            (s.behind held).LineReceived framing localAddr len (held ++ noise)
              (lineMessages written) := by
  have hcrc16 : framing.updateCrc = updateCrc := by
    rcases hframing with rfl | rfl
    · rfl
    · exact framingIOUpdateCrc_eq
  obtain ⟨taken, scan, h⟩ := FramedRun.invariant_of_reaches hcrc16 hrun
  obtain ⟨begun, hsuffix, hbegun, hstart⟩ := h.behind_taken.begun
  refine ⟨begun ++ r.unread, ⟨?_, ?_⟩, fun {s} hresumed noise written hwritten hfits hline => ?_⟩
  · rw [h.delivered_eq]
    obtain ⟨before, rfl⟩ := hsuffix
    exact ⟨before, (List.append_assoc _ _ _).symm⟩
  · rcases hstart with rfl | ⟨within, hflag, rfl⟩
    · exact .inl rfl
    · exact .inr ⟨within, hflag, rfl⟩
  · obtain ⟨taken', scan', h'⟩ := h.resume hcrc16 hresumed
    have hsent : ∀ x ∈ lineMessages written, x.1.Fits len := by
      intro x hx
      obtain ⟨y, hy, rfl⟩ := List.mem_map.mp hx
      exact hfits y hy
    have hwhole : (s.behind r.unread).delivered <+:
        wire localAddr (r.unread ++ noise) (lineMessages written) := by
      have hfront := (List.prefix_append_right_inj r.unread).mpr hline
      rw [writtenLine_eq hwritten] at hfront
      unfold wire at hfront ⊢
      rw [List.append_assoc]
      exact hfront
    have hreceived := h'.lineReceived hcrc16 hbegun hsent hwhole
    rw [FramedRun.behind_behind, ← List.append_assoc] at hreceived
    exact hreceived

/-- A receiver that has read the first half of a frame. -/
def begunRun : FramedRun :=
  FramedRun.step clientFraming ⟨⟨framingIOCreate framingBeginFlag, fun _ => 0⟩, [], []⟩
    (lineCall (escapedLine.take 7))

lemma begunRun_reaches : Transition.Reaches (FramedRun.Init framingBeginFlag)
    (FramedRun.step clientFraming) (FramedRun.Admitted clientFraming 4) begunRun := by
  refine Transition.Reaches.next (.start ⟨framingIOCreate 0, _, .inr rfl⟩) ⟨rfl, ?_⟩
  unfold Receiver.Returns
  decide

/-- A message of one byte. -/
def shortMessage : FrameMessage := ⟨3, [1]⟩

/-- A frame that the client has written with calls that take three bytes each, and one that the
Agent has written. -/
def writtenMessages : List WrittenMessage :=
  [⟨escapedMessage, [126, 125, 93, 125, 94, 2, 0, 125, 94, 5, 225, 163], []⟩,
    ⟨shortMessage, [126, 3, 125, 94, 1, 0, 1, 193, 192], [framingEscFlag]⟩]

lemma writtenMessages_written :
    ∀ x ∈ writtenMessages, WrittenFrame framingBeginFlag x.message x.bytes := by
  have hclient : uxrWriteFramedMsg escapedMessage.remoteAddr framingBeginFlag
      escapedMessage.payload 9 (fun _ => 3) =
        some ⟨2, [126, 125, 93, 125, 94, 2, 0, 125, 94, 5, 225, 163]⟩ := by decide
  have hagent : framingIOWriteFramedMsg shortMessage.remoteAddr framingBeginFlag
      shortMessage.payload 7 (fun _ => framingBufferSize) =
        some ⟨1, [126, 3, 125, 94, 1, 0, 1, 193, 192]⟩ := by decide
  intro x hx
  unfold writtenMessages at hx
  rcases List.mem_cons.mp hx with rfl | hx
  · have hrv : (2 : ℕ) ≠ 0 := by decide
    exact WrittenFrame.client hclient hrv
  · obtain rfl := List.mem_singleton.mp hx
    have hrv : (1 : ℕ) ≠ 0 := by decide
    exact WrittenFrame.agent (fun _ => le_rfl) hagent hrv

/-- The rest of the frame, and two frames behind it. -/
def resumedRun : FramedRun :=
  [lineCall (writtenLine (escapedLine.drop 7) writtenMessages), lineCall [], lineCall []].foldl
    (FramedRun.step clientFraming) ⟨begunRun.receiver, [], []⟩

/-- Both messages are received behind the one that was begun. -/
theorem framed_line_resumed_begun : ∃ held, begunRun.Unfinished held ∧
    ReceivedFrames framingBeginFlag (held ++ escapedLine.drop 7)
      [(escapedMessage, []), (shortMessage, [framingEscFlag])] resumedRun.returned := by
  obtain ⟨held, hheld, hresumed⟩ := framed_line_resumed (.inl rfl) begunRun_reaches
  have hrun : Transition.Reaches begunRun.Resumes (FramedRun.step clientFraming)
      (FramedRun.Admitted clientFraming 4) resumedRun := by
    have hstart : Transition.Reaches begunRun.Resumes (FramedRun.step clientFraming)
        (FramedRun.Admitted clientFraming 4) ⟨begunRun.receiver, [], []⟩ := .start rfl
    refine ((hstart.next (e := lineCall (writtenLine (escapedLine.drop 7) writtenMessages))
      ⟨rfl, ?_⟩).next (e := lineCall []) ⟨rfl, ?_⟩).next (e := lineCall []) ⟨rfl, ?_⟩
    all_goals
      unfold Receiver.Returns
      decide
  have hfits : ∀ x ∈ writtenMessages, x.message.Fits 4 := by
    intro x hx
    unfold writtenMessages at hx
    rcases List.mem_cons.mp hx with rfl | hx
    · exact ⟨by decide, by decide, by decide⟩
    · obtain rfl := List.mem_singleton.mp hx
      exact ⟨by decide, by decide, by decide⟩
  have hdelivered : resumedRun.delivered = writtenLine (escapedLine.drop 7) writtenMessages := by
    decide
  have hwire : writtenLine (escapedLine.drop 7) writtenMessages =
      wire framingBeginFlag (escapedLine.drop 7) (lineMessages writtenMessages) :=
    writtenLine_eq writtenMessages_written _
  have hprefix : resumedRun.delivered <+: writtenLine (escapedLine.drop 7) writtenMessages := by
    rw [hdelivered]
  have hline := hresumed hrun writtenMessages_written hfits hprefix
  have hunread : resumedRun.unread = [framingEscFlag] := by decide
  refine ⟨held, hheld, hline.complete ?_ (.inr hunread)⟩
  unfold FramedRun.behind
  dsimp only
  rw [hdelivered, hwire]
  exact (List.append_assoc _ _ _).symm

/-- The rest of the frame alone. -/
def restRun : FramedRun :=
  FramedRun.step clientFraming ⟨begunRun.receiver, [], []⟩ (lineCall (escapedLine.drop 7))

/-- The message that was begun before is returned, and does not lie in what is delivered since. -/
theorem framed_line_resumed_fails :
    Transition.Reaches (FramedRun.Init framingBeginFlag) (FramedRun.step clientFraming)
      (FramedRun.Admitted clientFraming 4) begunRun ∧
    Transition.Reaches begunRun.Resumes (FramedRun.step clientFraming)
      (FramedRun.Admitted clientFraming 4) restRun ∧
    restRun.delivered = writtenLine (escapedLine.drop 7) [] ∧
    ¬ ∃ more, ReceivedFrames framingBeginFlag (escapedLine.drop 7) []
      (restRun.returned ++ more) := by
  refine ⟨begunRun_reaches, ?_, by decide, ?_⟩
  · refine Transition.Reaches.next (.start rfl) ⟨rfl, ?_⟩
    unfold Receiver.Returns
    decide
  · rintro ⟨more, hmore⟩
    have hreturned : restRun.returned = [escapedMessage] := by decide
    have hlies := hmore escapedMessage (by rw [hreturned]; exact List.mem_cons_self)
    obtain ⟨-, before, within, behind, lsb, msb, hbytes, -⟩ := hlies
    have hflag : framingBeginFlag ∈ escapedLine.drop 7 := by
      rw [hbytes]
      simp
    exact absurd hflag (by decide)

end XrceDds
