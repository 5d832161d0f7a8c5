import XrceDds.Client.MessageWindows

/-!
# What a handler reads of a submessage

Every handler reads a payload of fixed size (`takes`), whatever length is announced, but for data,
which are advanced over by the length; and those of a reply twice (`skips`).  Where the bytes are
there, the buffer is moved by so much (`Cursor.readSubmessage`).  A message in one piece is never
read beyond its end (`Cursor.readSubmessage_whole`).
-/

namespace XrceDds

open ByteMemory

namespace SubmessageList

/-- The type of the object of a DATA, of the bytes behind the header. -/
def objectType (unset : UInt8) (left : List UInt8) : UInt8 := left.getD 3 unset &&& 15

/-- The submessage is data in a format that is read. -/
def HasData (header : Header) : Prop :=
  header.id = submessageIdData ∧ header.flags &&& formatMask = formatData

instance (header : Header) : Decidable (HasData header) :=
  inferInstanceAs (Decidable (_ ∧ _))

/-- The payload has numbers of more than one byte. -/
def HasNumbers (header : Header) : Prop :=
  header.id = submessageIdHeartbeat ∨ header.id = submessageIdAcknack ∨
    header.id = submessageIdTimestampReply

instance (header : Header) : Decidable (HasNumbers header) :=
  inferInstanceAs (Decidable (_ ∨ _ ∨ _))

/-- How many bytes the handler of a submessage reads. -/
def takes (reader : Reader) (header : Header) : ℕ :=
  if header.id = submessageIdStatusAgent then if reader.noneStream then 11 else 0
  else if header.id = submessageIdStatus then 6
  else if header.id = submessageIdData then
    4 + if header.flags &&& formatMask = formatData then u16Sub header.length 4 else 0
  else if header.id = submessageIdHeartbeat then 5
  else if header.id = submessageIdAcknack then 5
  else if header.id = submessageIdTimestampReply then 24
  else 0

/-- How far the iterator is moved besides: for a reply by the length of its data. -/
def skips (reader : Reader) (header : Header) (left : List UInt8) : ℕ :=
  if HasData header ∧ objectType reader.unset left = uxrRequesterId then u16Sub header.length 4
  else 0

/-- The padding that is taken behind so many bytes, and the bytes: how far from the end of a header
the next one is looked for. -/
def lands (reader : Reader) (header : Header) (left : List UInt8) : ℕ :=
  takes reader header + alignmentGap (takes reader header) + skips reader header left

/-- Of data the request is read, and as many bytes as are announced behind it. -/
lemma takes_of_hasData (reader : Reader) {header : Header} (hdata : HasData header) :
    takes reader header = 4 + u16Sub header.length 4 := by
  unfold takes
  rw [hdata.1, if_pos hdata.2]
  rfl

/-! ## The temporary buffer -/

section Temporary

variable {stream : InputReliableStream} {ub : UcdrBuffer}

/-- With `cleanup_flag` unset, reading leaves the stream as it is. -/
lemma ucdrDeserialize_frame (size : ℕ)
    (hflag : ub.onFullBuffer = true → stream.cleanupFlag = false) :
    (ucdrDeserialize size stream ub).1 = stream ∧
      (ucdrDeserialize size stream ub).2.1.onFullBuffer = ub.onFullBuffer := by
  have hcall : ∀ ub : UcdrBuffer, stream.cleanupFlag = false → ub.onFullBuffer = true →
      (onFullInputBuffer stream ub).1 = stream ∧
        (onFullInputBuffer stream ub).2.1.onFullBuffer = true := by
    intro ub hunset hcallback
    unfold onFullInputBuffer
    dsimp only
    rw [hunset]
    split
    · exact ⟨rfl, hcallback⟩
    · exact ⟨rfl, rfl⟩
  obtain ⟨ub₀, hub₀⟩ : ∃ ub₀, ub₀ = ub.skip (ucdrBufferAlignment ub size) := ⟨_, rfl⟩
  have hcallback₀ : ub₀.onFullBuffer = ub.onFullBuffer := by
    rw [hub₀]
    rfl
  have hcheck : (ucdrCheckFinalBufferBehavior onFullInputBuffer stream ub₀ size).1 = stream ∧
      (ucdrCheckFinalBufferBehavior onFullInputBuffer stream ub₀ size).2.1.onFullBuffer =
        ub.onFullBuffer := by
    unfold ucdrCheckFinalBufferBehavior
    split
    · exact ⟨rfl, hcallback₀⟩
    · split
      · exact ⟨rfl, hcallback₀⟩
      · split
        · next hset =>
          rw [hcallback₀] at hset
          obtain ⟨hstream, hub⟩ := hcall ub₀ (hflag hset) (hcallback₀.trans hset)
          exact ⟨hstream, hub.trans hset.symm⟩
        · exact ⟨rfl, hcallback₀⟩
  unfold ucdrDeserialize
  dsimp only
  rw [← hub₀]
  split
  · exact hcheck
  · exact hcheck

lemma ucdrDeserializeAll_frame (sizes : List ℕ)
    (hflag : ub.onFullBuffer = true → stream.cleanupFlag = false) :
    (ucdrDeserializeAll sizes stream ub).1 = stream ∧
      (ucdrDeserializeAll sizes stream ub).2.1.onFullBuffer = ub.onFullBuffer := by
  induction sizes generalizing stream ub with
  | nil => exact ⟨rfl, rfl⟩
  | cons size sizes ih =>
    obtain ⟨hstream, hub⟩ := ucdrDeserialize_frame size hflag
    have hflag' : (ucdrDeserialize size stream ub).2.1.onFullBuffer = true →
        (ucdrDeserialize size stream ub).1.cleanupFlag = false := by
      rw [hstream, hub]
      exact hflag
    obtain ⟨hstream', hub'⟩ := ih hflag'
    exact ⟨hstream'.trans hstream, hub'.trans hub⟩

/-- What a callback reads changes nothing. -/
lemma callBack_eq (sizes : Option (List ℕ)) (part : List ℕ)
    (hflag : ub.onFullBuffer = true → stream.cleanupFlag = false) :
    callBack sizes part stream ub = stream := by
  obtain ⟨hstream, hub⟩ := ucdrDeserializeAll_frame part hflag
  unfold callBack
  split
  · dsimp only
    split
    · rw [hstream]
      refine (ucdrDeserializeAll_frame _ fun hcallback => hflag ?_).1
      rwa [← hub]
    · exact hstream
  · rfl

/-- The callbacks aside, the buffer is advanced with `cleanup_flag` set. -/
lemma readFormatData_eq (callbacks : DataCallbacks) (type : UInt8) (length : ℕ) :
    readFormatData callbacks type length stream ub =
      ucdrAdvanceBuffer length (setCleanupFlag true ub stream)
        (if type = uxrRequesterId then { ub with iterator := ub.iterator + length } else ub) := by
  have hflag : (tempBuffer ub).onFullBuffer = true →
      (setCleanupFlag false ub stream).cleanupFlag = false := by
    intro hcallback
    unfold setCleanupFlag
    rw [if_pos (show ub.onFullBuffer = true from hcallback)]
  have hset : setCleanupFlag true ub (setCleanupFlag false ub stream) =
      setCleanupFlag true ub stream := by
    unfold setCleanupFlag
    split
    · rfl
    · rfl
  unfold readFormatData
  simp only [callBack_eq _ _ hflag]
  by_cases hrequester : type = uxrRequesterId
  · have hne : type ≠ uxrDatareaderId ∧ type ≠ uxrReplierId := by
      rw [hrequester]
      decide
    rw [if_neg hne.1, if_neg hne.2, if_pos hrequester, if_pos hrequester, hset]
  · rw [if_neg hrequester, if_neg hrequester]
    split
    · rw [hset]
    · split
      · rw [hset]
      · rw [hset]

end Temporary

/-- The payloads of fixed size: numbers, and bytes behind them. -/
lemma readSubmessage_payload (reader : Reader) {header : Header}
    (hdata : header.id ≠ submessageIdData) :
    ∃ size count rest, size ∣ 4 ∧ takes reader header = count * size + rest ∧
      (¬ HasNumbers header → count = 0) ∧ ∀ stream ub,
        readSubmessage reader header stream ub =
          readPayload (List.replicate count size ++ List.replicate rest 1) stream ub := by
  unfold takes readSubmessage
  simp only [if_neg hdata]
  split
  · split
    · exact ⟨1, 0, 11, by decide, rfl, fun _ => rfl, fun _ _ => rfl⟩
    · exact ⟨1, 0, 0, by decide, rfl, fun _ => rfl, fun _ _ => rfl⟩
  · split
    · exact ⟨1, 0, 6, by decide, rfl, fun _ => rfl, fun _ _ => rfl⟩
    · split
      · next hid =>
        exact ⟨2, 2, 1, by decide, rfl, fun hnot => (hnot (.inl hid)).elim, fun _ _ => rfl⟩
      · split
        · next hid =>
          exact ⟨2, 1, 3, by decide, rfl, fun hnot => (hnot (.inr (.inl hid))).elim,
            fun _ _ => rfl⟩
        · split
          · next hid =>
            exact ⟨4, 6, 0, by decide, rfl, fun hnot => (hnot (.inr (.inr hid))).elim,
              fun _ _ => rfl⟩
          · exact ⟨1, 0, 0, by decide, rfl, fun _ => rfl, fun _ _ => rfl⟩

end SubmessageList

namespace Cursor

open SubmessageList

variable {source : WindowSource} {stream : InputReliableStream} {ub : UcdrBuffer}
  {bytes : List UInt8} {windows : List Window} {p : ℕ}

/-- The request that data begin with, and the type of its object. -/
lemma readSubmessageData (h : Cursor source stream ub bytes windows)
    (hle : 4 ≤ (leftBytes bytes windows).length)
    (hcrosses : (∀ e ∈ windowEnds p bytes windows, p + 4 ≤ e) ∨ source.Crosses stream) :
    ∃ stream' ub' bytes' windows',
      Moved source p 4 stream ub bytes windows stream' ub' bytes' windows' ∧
      ∀ callbacks unset length format,
        SubmessageList.readSubmessageData callbacks unset length format stream ub =
          if format = formatData then
            SubmessageList.readFormatData callbacks (objectType unset (leftBytes bytes windows))
              (u16Sub length baseObjectRequestSize) stream' ub'
          else (stream', ub') := by
  obtain ⟨stream₁, ub₁, bytes₁, windows₁, heq₁, hmoved₁⟩ := h.byteArray (p := p) 3 (by omega)
    (hcrosses.imp_left fun hge e he => by have := hge e he; omega)
  obtain ⟨stream₂, ub₂, bytes₂, windows₂, heq₂, hmoved₂, -⟩ := hmoved₁.cursor.deserialize
    (p := p + 3) Nat.one_pos (by decide) (ucdrBufferAlignment_of_aligned (Nat.mod_one _))
    (by rw [hmoved₁.left_eq, List.length_drop]; omega)
    (fun e he => by have := le_of_mem_windowEnds he; omega)
    (hcrosses.imp (fun hge e he => by have := hge e (hmoved₁.ends_subset e he); omega)
      hmoved₁.crosses)
  refine ⟨stream₂, ub₂, bytes₂, windows₂, hmoved₁.trans hmoved₂,
    fun callbacks unset length format =>
    ?_⟩
  have htype : (((leftBytes bytes windows).drop 3).take 1).headD unset &&& 15 =
      objectType unset (leftBytes bytes windows) := by
    unfold objectType
    rw [List.headD_eq_head?_getD, List.head?_take, List.head?_drop,
      List.getD_eq_getElem?_getD]
    rfl
  unfold SubmessageList.readSubmessageData
  rw [show [1, 1, 1] = List.replicate 3 1 from rfl, heq₁]
  dsimp only
  rw [heq₂]
  dsimp only [Option.getD_some]
  rw [hmoved₁.left_eq, htype]

/-- Data are advanced over, with `cleanup_flag` set. -/
lemma advanceBuffer (h : Cursor source stream ub bytes windows) (length : ℕ)
    (hle : length ≤ (leftBytes bytes windows).length) :
    ∃ stream' ub' bytes' windows',
      ucdrAdvanceBuffer length (setCleanupFlag true ub stream) ub = (stream', ub') ∧
      Moved source p length stream ub bytes windows stream' ub' bytes' windows' := by
  have hset : Cursor source (setCleanupFlag true ub stream) ub bytes windows ∧
      ((∀ e ∈ windowEnds p bytes windows, p + length ≤ e) ∨
        source.Crosses (setCleanupFlag true ub stream)) := by
    unfold setCleanupFlag
    cases windows with
    | nil =>
      refine ⟨?_, .inl fun e he => by cases he⟩
      split
      · exact h.flag true
      · exact h
    | cons window windows =>
      rw [if_pos (h.callback (List.cons_ne_nil _ _))]
      exact ⟨h.flag true, .inr (source.crosses_flag h.behind)⟩
  obtain ⟨stream', ub', bytes', windows', heq, hmoved⟩ := hset.1.byteArray (p := p)
    length hle hset.2
  refine ⟨stream', { ub' with lastDataSize := 1 }, bytes', windows', ?_, ?_⟩
  · unfold ucdrAdvanceBuffer
    rw [heq]
  · have hcursor := hmoved.cursor
    refine ⟨⟨hcursor.error_eq, hcursor.final_eq, hcursor.length_lt, hcursor.bytes_eq,
      hcursor.origin_le, hcursor.behind, hcursor.callback, hcursor.nonempty, fun hfour =>
        absurd (show 4 ≤ 1 from hfour) (by decide)⟩, hmoved.left_eq, hmoved.ends_subset,
      hmoved.place_eq, fun hcrosses => hmoved.crosses ?_, hmoved.suffix, hmoved.callback_eq,
      hmoved.phase_mod⟩
    unfold setCleanupFlag
    split
    · exact source.crosses_flag h.behind
    · exact hcrosses

/-- Where the bytes are there, a handler moves the buffer over those that it reads. -/
lemma readSubmessage (h : Cursor source stream ub bytes windows) (reader : Reader)
    (header : Header) (hphase : ub.phase % 4 = p % 4) (hp : p % 4 = 0)
    (hskips : skips reader header (leftBytes bytes windows) = 0)
    (hle : takes reader header ≤ (leftBytes bytes windows).length)
    (hcut : ¬ HasNumbers header ∨
      ∀ e ∈ windowEnds p bytes windows, e < p + takes reader header → e % 4 = 0)
    (hcrosses : (∀ e ∈ windowEnds p bytes windows, p + takes reader header ≤ e) ∨
      (HasData header ∧ ∀ e ∈ windowEnds p bytes windows, p + 4 ≤ e) ∨ source.Crosses stream) :
    ∃ stream' ub' bytes' windows',
      SubmessageList.readSubmessage reader header stream ub = (stream', ub') ∧
      Moved source p (takes reader header) stream ub bytes windows stream' ub' bytes' windows' := by
  by_cases hdata : header.id = submessageIdData
  · have hreader : SubmessageList.readSubmessage reader header stream ub =
        SubmessageList.readSubmessageData reader.callbacks reader.unset header.length
          (header.flags &&& formatMask) stream ub := by
      unfold SubmessageList.readSubmessage
      rw [hdata]
      rfl
    have htakes : takes reader header =
        4 + if header.flags &&& formatMask = formatData then u16Sub header.length 4 else 0 := by
      unfold takes
      rw [hdata]
      rfl
    obtain ⟨stream₁, ub₁, bytes₁, windows₁, hmoved₁, heq₁⟩ := h.readSubmessageData (p := p)
      (by omega) (by
        rcases hcrosses with hge | ⟨-, hge⟩ | hcrosses
        · exact .inl fun e he => by have := hge e he; omega
        · exact .inl hge
        · exact .inr hcrosses)
    rw [hreader, heq₁]
    by_cases hformat : header.flags &&& formatMask = formatData
    · rw [if_pos hformat] at htakes ⊢
      obtain ⟨stream₂, ub₂, bytes₂, windows₂, heq₂, hmoved₂⟩ :=
        hmoved₁.cursor.advanceBuffer (p := p + 4) (u16Sub header.length 4)
          (by rw [hmoved₁.left_eq, List.length_drop]; omega)
      refine ⟨stream₂, ub₂, bytes₂, windows₂, ?_, htakes ▸ hmoved₁.trans hmoved₂⟩
      have hstay : (if objectType reader.unset (leftBytes bytes windows) = uxrRequesterId then
          { ub₁ with iterator := ub₁.iterator + u16Sub header.length 4 } else ub₁) = ub₁ := by
        split
        · next hrequester =>
          unfold skips at hskips
          rw [if_pos ⟨⟨hdata, hformat⟩, hrequester⟩] at hskips
          rw [hskips]
          rfl
        · rfl
      rw [readFormatData_eq, show baseObjectRequestSize = 4 from rfl, hstay, heq₂]
    · rw [if_neg hformat] at htakes ⊢
      exact ⟨stream₁, ub₁, bytes₁, windows₁, rfl, htakes ▸ hmoved₁⟩
  · obtain ⟨size, count, rest, hdvd, htakes, hnumbers, heq⟩ :=
      readSubmessage_payload reader hdata
    rw [htakes] at hle hcut hcrosses ⊢
    obtain ⟨stream', ub', bytes', windows', hall, hmoved⟩ := h.payload (p := p) hdvd count rest
      hphase hp hle (hcut.imp_left hnumbers) (hcrosses.imp_right fun hor =>
        hor.resolve_left fun hhas => hdata hhas.1.1)
    refine ⟨stream', ub', bytes', windows', ?_, hmoved⟩
    rw [heq]
    unfold readPayload
    rw [hall]

end Cursor

/-! ## The end of a message in one piece -/

namespace SubmessageList

/-- A buffer without a callback is left behind. -/
structure Forward (ub ub' : UcdrBuffer) : Prop where
  callback_eq : ub'.onFullBuffer = false
  final_eq : ub'.final = ub.final
  le_iterator : ub.iterator ≤ ub'.iterator

/-- A buffer without a callback has no room for a header any more. -/
structure Ended (ub : UcdrBuffer) : Prop where
  callback_eq : ub.onFullBuffer = false
  final_lt : ub.final < ub.iterator + 4

variable {stream : InputReliableStream} {ub ub₁ ub₂ : UcdrBuffer}

lemma Forward.trans (h₁ : Forward ub ub₁) (h₂ : Forward ub₁ ub₂) : Forward ub ub₂ :=
  ⟨h₂.callback_eq, h₂.final_eq.trans h₁.final_eq, h₁.le_iterator.trans h₂.le_iterator⟩

lemma Ended.forward (h : Ended ub) (hforward : Forward ub ub₁) : Ended ub₁ := by
  refine ⟨hforward.callback_eq, ?_⟩
  rw [hforward.final_eq]
  exact h.final_lt.trans_le (Nat.add_le_add_right hforward.le_iterator 4)

/-- Without a callback, deserializing stays in the buffer and does not go back. -/
lemma ucdrDeserialize_forward (size : ℕ) (stream : InputReliableStream)
    (hcallback : ub.onFullBuffer = false) :
    Forward ub (ucdrDeserialize size stream ub).2.1 := by
  obtain ⟨ub₀, hub₀⟩ : ∃ ub₀, ub₀ = ub.skip (ucdrBufferAlignment ub size) := ⟨_, rfl⟩
  have hforward₀ : Forward ub ub₀ := by
    rw [hub₀]
    exact ⟨hcallback, rfl, Nat.le_add_right _ _⟩
  have hcheck : Forward ub
      (ucdrCheckFinalBufferBehavior onFullInputBuffer stream ub₀ size).2.1 := by
    unfold ucdrCheckFinalBufferBehavior
    rw [hforward₀.callback_eq]
    split
    · exact hforward₀
    · split
      · exact hforward₀
      · rw [if_neg Bool.false_ne_true]
        exact ⟨rfl, hforward₀.final_eq, hforward₀.le_iterator⟩
  unfold ucdrDeserialize
  dsimp only
  rw [← hub₀]
  split
  · exact hcheck.trans ⟨hcheck.callback_eq, rfl, Nat.le_add_right _ _⟩
  · exact hcheck

lemma ucdrDeserializeAll_forward (sizes : List ℕ) (stream : InputReliableStream)
    (hcallback : ub.onFullBuffer = false) :
    Forward ub (ucdrDeserializeAll sizes stream ub).2.1 := by
  induction sizes generalizing stream ub with
  | nil => exact ⟨hcallback, rfl, le_rfl⟩
  | cons size sizes ih =>
    have hfirst := ucdrDeserialize_forward size stream hcallback
    exact hfirst.trans (ih _ hfirst.callback_eq)

lemma readFormatData_forward (callbacks : DataCallbacks) (type : UInt8) (length : ℕ)
    (stream : InputReliableStream) (hcallback : ub.onFullBuffer = false) :
    Forward ub (readFormatData callbacks type length stream ub).2 := by
  have hjump : Forward ub (if type = uxrRequesterId then
      { ub with iterator := ub.iterator + length } else ub) := by
    split
    · exact ⟨hcallback, rfl, Nat.le_add_right _ _⟩
    · exact ⟨hcallback, rfl, le_rfl⟩
  rw [readFormatData_eq]
  have hadvance := ucdrDeserializeAll_forward (List.replicate length 1)
    (setCleanupFlag true ub stream) hjump.callback_eq
  exact hjump.trans ⟨hadvance.callback_eq, hadvance.final_eq, hadvance.le_iterator⟩

/-- So does every handler. -/
lemma readSubmessage_forward (reader : Reader) (header : Header) (stream : InputReliableStream)
    (hcallback : ub.onFullBuffer = false) :
    Forward ub (readSubmessage reader header stream ub).2 := by
  by_cases hdata : header.id = submessageIdData
  · unfold readSubmessage
    rw [hdata]
    change Forward ub (readSubmessageData _ _ _ _ stream ub).2
    unfold readSubmessageData
    have h₁ := ucdrDeserializeAll_forward [1, 1, 1] stream hcallback
    have h₂ := h₁.trans (ucdrDeserialize_forward 1 (ucdrDeserializeAll [1, 1, 1] stream ub).1
      h₁.callback_eq)
    dsimp only
    split
    · exact h₂.trans (readFormatData_forward _ _ _ _ h₂.callback_eq)
    · exact h₂
  · obtain ⟨size, count, rest, -, -, -, heq⟩ := readSubmessage_payload reader hdata
    rw [heq]
    exact ucdrDeserializeAll_forward _ stream hcallback

/-- Without a callback nothing leads back to the stream. -/
lemma setCleanupFlag_of_not_callback (flag : Bool) (stream : InputReliableStream)
    (hcallback : ub.onFullBuffer = false) : setCleanupFlag flag ub stream = stream := by
  unfold setCleanupFlag
  rw [hcallback]
  rfl

/-- So no handler changes the stream. -/
lemma readSubmessage_frame (reader : Reader) (header : Header) (stream : InputReliableStream)
    (hcallback : ub.onFullBuffer = false) :
    ∃ ub', readSubmessage reader header stream ub = (stream, ub') := by
  have hnone : ∀ {ub : UcdrBuffer}, ub.onFullBuffer = false →
      ub.onFullBuffer = true → stream.cleanupFlag = false := by
    intro ub hfalse htrue
    rw [hfalse] at htrue
    cases htrue
  by_cases hdata : header.id = submessageIdData
  · have hreader : readSubmessage reader header stream ub =
        readSubmessageData reader.callbacks reader.unset header.length
          (header.flags &&& formatMask) stream ub := by
      unfold readSubmessage
      rw [hdata]
      rfl
    obtain ⟨h₁, hub₁⟩ := ucdrDeserializeAll_frame [1, 1, 1] (hnone hcallback)
    obtain ⟨h₂, hub₂⟩ := ucdrDeserialize_frame 1 (hnone (hub₁.trans hcallback))
    have hcallback₂ := hub₂.trans (hub₁.trans hcallback)
    rw [hreader]
    unfold readSubmessageData
    dsimp only
    rw [h₁, h₂]
    split
    · rw [readFormatData_eq, setCleanupFlag_of_not_callback true stream hcallback₂]
      unfold ucdrAdvanceBuffer
      dsimp only
      rw [(ucdrDeserializeAll_frame _ (hnone ?_)).1]
      · exact ⟨_, rfl⟩
      · split
        · exact hcallback₂
        · exact hcallback₂
    · exact ⟨_, rfl⟩
  · obtain ⟨size, count, rest, -, -, -, heq⟩ := readSubmessage_payload reader hdata
    rw [heq]
    unfold readPayload
    dsimp only
    rw [(ucdrDeserializeAll_frame _ (hnone hcallback)).1]
    exact ⟨_, rfl⟩

/-- Nor does the reading of a header, which leaves the buffer without a callback. -/
lemma uxrReadSubmessageHeader_frame (header : Header) (stream : InputReliableStream)
    (hcallback : ub.onFullBuffer = false) :
    ∃ ub' header' ready, uxrReadSubmessageHeader header stream ub =
      (stream, ub', header', ready) ∧ ub'.onFullBuffer = false := by
  by_cases hroom : ucdrBufferRemaining (ucdrAlignTo ub 4) < subheaderSize
  · exact ⟨_, _, _, uxrReadSubmessageHeader_of_lt header stream hroom, hcallback⟩
  · have hnone : ∀ {ub : UcdrBuffer}, ub.onFullBuffer = false →
        ub.onFullBuffer = true → stream.cleanupFlag = false := by
      intro ub hfalse htrue
      rw [hfalse] at htrue
      cases htrue
    obtain ⟨ub₀, hub₀⟩ : ∃ ub₀, ub₀ = ucdrAlignTo ub 4 := ⟨_, rfl⟩
    have hcallback₀ : ub₀.onFullBuffer = false := by
      rw [hub₀, ucdrAlignTo]
      exact hcallback
    rw [← hub₀] at hroom
    obtain ⟨h₁, hub₁⟩ := ucdrDeserialize_frame 1 (hnone hcallback₀)
    have hcallback₁ := hub₁.trans hcallback₀
    obtain ⟨h₂, hub₂⟩ := ucdrDeserialize_frame 1 (hnone hcallback₁)
    have hcallback₂ := hub₂.trans hcallback₁
    obtain ⟨h₃, hub₃⟩ := ucdrDeserialize_frame 2 (hnone hcallback₂)
    have hcallback₃ := hub₃.trans hcallback₂
    unfold uxrReadSubmessageHeader
    dsimp only
    rw [← hub₀, if_pos (Nat.le_of_not_lt hroom), h₁, h₂, h₃]
    exact ⟨_, _, _, rfl, hcallback₃⟩

/-- Reading a message without a callback changes the stream in no way. -/
lemma readSubmessageList_frame (reader : Reader) (n : ℕ) (header : Header)
    (stream : InputReliableStream) (hcallback : ub.onFullBuffer = false)
    {r : InputReliableStream × UcdrBuffer × List Dispatch}
    (heq : readSubmessageList reader n header stream ub = some r) : r.1 = stream := by
  induction n generalizing header ub r with
  | zero => cases heq
  | succ n ih =>
    obtain ⟨ub', header', ready, hheader, hcallback'⟩ :=
      uxrReadSubmessageHeader_frame header stream hcallback
    rw [readSubmessageList, hheader] at heq
    dsimp only at heq
    cases ready with
    | true =>
      rw [if_pos rfl] at heq
      obtain ⟨s, hs, hr⟩ := Option.map_eq_some_iff.mp heq
      obtain ⟨ub'', hread⟩ := readSubmessage_frame reader header' stream hcallback'
      have hforward := readSubmessage_forward reader header' stream hcallback'
      rw [hread] at hs hforward
      have hstream := ih _ hforward.callback_eq hs
      rw [← hr]
      exact hstream
    | false =>
      rw [if_neg Bool.false_ne_true] at heq
      rw [← Option.some.inj heq]

/-- Behind its end no header is read. -/
lemma Ended.readHeader (h : Ended ub) (header : Header) (stream : InputReliableStream) :
    uxrReadSubmessageHeader header stream ub = (stream, ucdrAlignTo ub 4, header, false) := by
  have hlt := h.final_lt
  refine uxrReadSubmessageHeader_of_lt header stream ?_
  unfold ucdrBufferRemaining ucdrAlignTo subheaderSize
  dsimp only
  omega

end SubmessageList

namespace Cursor

open SubmessageList

variable {source : WindowSource} {stream : InputReliableStream} {ub : UcdrBuffer}
  {bytes : List UInt8} {p : ℕ}

/-- Numbers that are not all there leave no room for a header. -/
lemma numbers_short (h : Cursor source stream ub bytes []) (hcallback : ub.onFullBuffer = false)
    {size : ℕ} (hsize : size ≤ 4) (count : ℕ) (hphase : ub.phase % size = 0)
    (hlt : bytes.length < count * size) :
    Ended (ucdrDeserializeAll (List.replicate count size) stream ub).2.1 := by
  induction count generalizing stream ub bytes with
  | zero => omega
  | succ count ih =>
    rw [Nat.succ_mul] at hlt
    by_cases hroom : size ≤ bytes.length
    · obtain ⟨heq, hmoved, hphase'⟩ := h.deserialize_window (p := 0) size hsize
        (ucdrBufferAlignment_of_aligned hphase) hroom
      rw [List.replicate_succ, ucdrDeserializeAll, heq]
      exact ih hmoved.cursor (hmoved.callback_eq.trans hcallback)
        (by rw [hphase', Nat.add_mod_right, hphase]) (by rw [List.length_drop]; omega)
    · have hended : Ended ub := ⟨hcallback, by rw [h.final_eq]; omega⟩
      exact hended.forward (ucdrDeserializeAll_forward _ stream hcallback)

/-- Nor do numbers with bytes behind them. -/
lemma payload_short (h : Cursor source stream ub bytes []) (hcallback : ub.onFullBuffer = false)
    {size : ℕ} (hdvd : size ∣ 4) (count rest : ℕ) (hphase : ub.phase % 4 = 0)
    (hlt : bytes.length < count * size + rest) :
    Ended (ucdrDeserializeAll (List.replicate count size ++ List.replicate rest 1) stream
      ub).2.1 := by
  have hpos : 0 < size := Nat.pos_of_dvd_of_pos hdvd (by decide)
  have hsize : size ≤ 4 := Nat.le_of_dvd (by decide) hdvd
  have haligned : ub.phase % size = 0 :=
    Nat.mod_eq_zero_of_dvd (hdvd.trans (Nat.dvd_of_mod_eq_zero hphase))
  rw [ucdrDeserializeAll_append]
  dsimp only
  by_cases hroom : count * size ≤ bytes.length
  · obtain ⟨stream', ub', bytes', windows', heq, hmoved, -⟩ := h.numbers (p := 0) hpos hsize count
      haligned (by simpa [leftBytes] using hroom) (fun e he => by cases he)
      (.inl fun e he => by cases he)
    obtain rfl := List.suffix_nil.mp hmoved.suffix
    have hleft : bytes' = bytes.drop (count * size) := by
      simpa [leftBytes] using hmoved.left_eq
    rw [heq]
    refine hmoved.cursor.numbers_short (hmoved.callback_eq.trans hcallback) (by decide) rest
      (Nat.mod_one _) ?_
    rw [hleft, List.length_drop]
    omega
  · have hended := h.numbers_short hcallback hsize count haligned (by omega)
    exact hended.forward (ucdrDeserializeAll_forward _ _ hended.callback_eq)

/-- Data that are not all there leave no room for a header. -/
lemma advanceBuffer_short (h : Cursor source stream ub bytes [])
    (hcallback : ub.onFullBuffer = false) (length : ℕ) (hlt : bytes.length < length) :
    Ended (ucdrAdvanceBuffer length stream ub).2 := by
  have hended := h.numbers_short hcallback (by decide : 1 ≤ 4) length (Nat.mod_one _) (by omega)
  exact ⟨hended.callback_eq, hended.final_lt⟩

/-- What the handler of data does in a message in one piece, behind the request. -/
lemma readData_whole (h : Cursor source stream ub bytes []) (hcallback : ub.onFullBuffer = false)
    (reader : Reader) {header : Header} (hdata : HasData header) (hphase : ub.phase % 4 = 0)
    (hfour : 4 ≤ bytes.length) :
    ∃ stream' ub', Cursor source stream' ub' (bytes.drop 4) [] ∧ ub'.onFullBuffer = false ∧
      ub'.phase % 4 = 0 ∧ ub'.iterator = ub.iterator + 4 ∧
      SubmessageList.readSubmessage reader header stream ub =
        ucdrAdvanceBuffer (u16Sub header.length 4) stream'
          (if objectType reader.unset bytes = uxrRequesterId then
            { ub' with iterator := ub'.iterator + u16Sub header.length 4 } else ub') := by
  obtain ⟨stream₁, ub₁, bytes₁, windows₁, hmoved, heq⟩ := h.readSubmessageData (p := 0)
    (by simpa [leftBytes] using hfour) (.inl fun e he => by cases he)
  obtain rfl := List.suffix_nil.mp hmoved.suffix
  have hbytes : bytes₁ = bytes.drop 4 := by simpa [leftBytes] using hmoved.left_eq
  have hplace := hmoved.place_eq 0
  have hcallback₁ := hmoved.callback_eq.trans hcallback
  refine ⟨stream₁, ub₁, hbytes ▸ hmoved.cursor, hcallback₁,
    hmoved.phase_mod (fun e he => by cases he) (by rw [hphase]), by simpa [place] using hplace, ?_⟩
  have hset : setCleanupFlag true ub₁ stream₁ = stream₁ := by
    unfold setCleanupFlag
    rw [hcallback₁]
    rfl
  have hleft : leftBytes bytes [] = bytes := by simp [leftBytes]
  unfold SubmessageList.readSubmessage
  rw [hdata.1]
  change SubmessageList.readSubmessageData _ _ _ _ _ _ = _
  rw [heq, if_pos hdata.2, readFormatData_eq, hset, hleft]
  rfl

/-- A reply in one piece: its data are passed over once without the offset, and then again. -/
lemma readReply_whole (h : Cursor source stream ub bytes []) (hcallback : ub.onFullBuffer = false)
    (hphase : ub.phase % 4 = 0) (length : ℕ) :
    Ended (ucdrAdvanceBuffer length stream { ub with iterator := ub.iterator + length }).2 ∧
        bytes.length < length + length ∨
      ∃ stream' ub', ucdrAdvanceBuffer length stream { ub with iterator := ub.iterator + length } =
          (stream', ub') ∧
        length + length ≤ bytes.length ∧
        Cursor source stream' ub' (bytes.drop (length + length)) [] ∧
        ub'.phase % 4 = length % 4 ∧ ub'.iterator = ub.iterator + (length + length) := by
  by_cases hle : length ≤ bytes.length
  · -- the phase is that of the buffer before it was moved
    have hjump : Cursor source stream { ub with iterator := ub.iterator + length }
        (bytes.drop length) [] := by
      refine ⟨h.error_eq, ?_, ?_, ?_, h.origin_le, h.behind, h.callback, h.nonempty, h.aligned⟩
      · rw [List.length_drop]
        dsimp only
        rw [h.final_eq]
        omega
      · rw [List.length_drop]
        exact lt_of_le_of_lt (Nat.sub_le _ _) h.length_lt
      · rw [List.length_drop]
        exact (h.read_split hle).2
    by_cases htwice : length + length ≤ bytes.length
    · refine .inr ?_
      obtain ⟨stream', ub', bytes', windows', heq, hmoved⟩ := hjump.advanceBuffer (p := 0) length
        (by rw [leftBytes, List.flatMap_nil, List.append_nil, List.length_drop]; omega)
      obtain rfl := List.suffix_nil.mp hmoved.suffix
      have hbytes : bytes' = bytes.drop (length + length) := by
        simpa [leftBytes] using hmoved.left_eq
      have hplace := hmoved.place_eq 0
      have hmod := hmoved.phase_mod (fun e he => by cases he)
        (show ub.phase % 4 = 0 % 4 by rw [hphase])
      have hset : setCleanupFlag true { ub with iterator := ub.iterator + length } stream =
          stream := by
        unfold setCleanupFlag
        rw [show UcdrBuffer.onFullBuffer { ub with iterator := ub.iterator + length } = false
          from hcallback]
        rfl
      rw [hset] at heq
      refine ⟨stream', ub', heq, htwice, hbytes ▸ hmoved.cursor, by rw [hmod, Nat.zero_add], ?_⟩
      simpa [place, Nat.add_assoc] using hplace
    · refine .inl ⟨hjump.advanceBuffer_short hcallback _ ?_, by omega⟩
      rw [List.length_drop]
      omega
  · have hended : Ended { ub with iterator := ub.iterator + length } := by
      refine ⟨hcallback, ?_⟩
      dsimp only
      rw [h.final_eq]
      omega
    have hforward := ucdrDeserializeAll_forward (List.replicate length 1) stream hended.callback_eq
    have hended' := hended.forward hforward
    exact .inl ⟨⟨hended'.callback_eq, hended'.final_lt⟩, by omega⟩

/-- A message in one piece: the buffer stands so that the next header is looked for where the
handler lands, or that is behind the end of the message. -/
lemma readSubmessage_whole (h : Cursor source stream ub bytes [])
    (hcallback : ub.onFullBuffer = false) (reader : Reader) (header : Header)
    (hphase : ub.phase % 4 = 0) :
    ∃ stream' ub', SubmessageList.readSubmessage reader header stream ub = (stream', ub') ∧
      ub'.onFullBuffer = false ∧
      ((∃ k ≤ bytes.length, Cursor source stream' ub' (bytes.drop k) [] ∧
          k + alignmentGap ub'.phase = lands reader header bytes ∧
          ub'.iterator = ub.iterator + k) ∨
        (Ended ub' ∧ bytes.length < lands reader header bytes)) := by
  have hforward := readSubmessage_forward reader header stream hcallback
  obtain ⟨stream', ub', heq⟩ : ∃ stream' ub',
      SubmessageList.readSubmessage reader header stream ub = (stream', ub') := ⟨_, _, rfl⟩
  rw [heq] at hforward
  refine ⟨stream', ub', heq, hforward.callback_eq, ?_⟩
  have hleft : leftBytes bytes [] = bytes := by simp [leftBytes]
  by_cases hfour : bytes.length < 4 ∧ bytes.length < takes reader header
  · refine .inr ⟨Ended.forward ⟨hcallback, by rw [h.final_eq]; omega⟩ hforward, ?_⟩
    unfold lands
    omega
  by_cases hskips : skips reader header bytes = 0
  · by_cases hle : takes reader header ≤ bytes.length
    · -- everything is there
      obtain ⟨stream₁, ub₁, bytes₁, windows₁, heq₁, hmoved⟩ := h.readSubmessage (p := 0)
        reader header
        (by rw [hphase]) rfl (by rwa [hleft]) (by rwa [hleft]) (.inr fun e he => by cases he)
        (.inl fun e he => by cases he)
      rw [heq] at heq₁
      obtain ⟨rfl, rfl⟩ := Prod.mk.inj heq₁
      obtain rfl := List.suffix_nil.mp hmoved.suffix
      have hbytes : bytes₁ = bytes.drop (takes reader header) := by
        simpa [leftBytes] using hmoved.left_eq
      have hmod := hmoved.phase_mod (fun e he => by cases he) (by rw [hphase])
      have hplace := hmoved.place_eq 0
      refine .inl ⟨takes reader header, hle, hbytes ▸ hmoved.cursor, ?_, ?_⟩
      · unfold lands alignmentGap
        omega
      · simpa [place] using hplace
    · refine .inr ⟨?_, by unfold lands; omega⟩
      by_cases hdata : HasData header
      · obtain ⟨stream₁, ub₁, hcursor, hcallback₁, -, -, heq₁⟩ :=
          h.readData_whole hcallback reader hdata hphase (by omega)
        have hstay : (if objectType reader.unset bytes = uxrRequesterId then
            { ub₁ with iterator := ub₁.iterator + u16Sub header.length 4 } else ub₁) = ub₁ := by
          split
          · next hrequester =>
            unfold skips at hskips
            rw [if_pos ⟨hdata, hrequester⟩] at hskips
            rw [hskips]
            rfl
          · rfl
        rw [hstay, heq] at heq₁
        have hshort := hcursor.advanceBuffer_short hcallback₁ (u16Sub header.length 4) (by
          have htakes := takes_of_hasData reader hdata
          rw [List.length_drop]
          omega)
        rwa [← heq₁] at hshort
      · have hid : header.id ≠ submessageIdData := by
          intro hid
          have htakes : takes reader header = 4 := by
            unfold takes
            rw [hid, if_neg fun hformat => hdata ⟨hid, hformat⟩]
            rfl
          omega
        obtain ⟨size, count, rest, hdvd, htakes, -, hread⟩ := readSubmessage_payload reader hid
        have hshort := h.payload_short hcallback hdvd count rest hphase (by omega)
        rw [hread] at heq
        unfold readPayload at heq
        rwa [← (Prod.mk.inj heq).2]
  · have hreply : HasData header ∧ objectType reader.unset bytes = uxrRequesterId := by
      by_contra hnot
      exact hskips (if_neg hnot)
    have hskips_eq : skips reader header bytes = u16Sub header.length 4 := if_pos hreply
    have htakes := takes_of_hasData reader hreply.1
    obtain ⟨stream₁, ub₁, hcursor, hcallback₁, hphase₁, hiterator, heq₁⟩ :=
      h.readData_whole hcallback reader hreply.1 hphase (by omega)
    rw [if_pos hreply.2, heq] at heq₁
    rcases hcursor.readReply_whole hcallback₁ hphase₁ (u16Sub header.length 4) with
      ⟨hended, hlt⟩ | ⟨stream₂, ub₂, heq₂, hle, hcursor₂, hmod, hiterator₂⟩
    · rw [← heq₁] at hended
      refine .inr ⟨hended, ?_⟩
      rw [List.length_drop] at hlt
      unfold lands
      omega
    · rw [← heq₁] at heq₂
      obtain ⟨rfl, rfl⟩ := Prod.mk.inj heq₂
      rw [List.length_drop] at hle
      rw [List.drop_drop] at hcursor₂
      refine .inl ⟨_, by omega, hcursor₂, ?_, by rw [hiterator₂, hiterator]; omega⟩
      unfold lands alignmentGap
      omega

end Cursor

end XrceDds
