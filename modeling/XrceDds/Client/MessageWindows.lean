import XrceDds.Client.SubmessageList

/-!
# Messages in windows

A buffer holds a part of a message, and behind it there may be others, which the callback of the
buffer goes on to (`WindowSource`).  `Cursor` says which bytes are left in the part where the buffer
stands and which parts are left behind it.  Reading moves the cursor as if the bytes were in one
piece, as long as no part ends inside a number (`Cursor.numbers`).
-/

namespace XrceDds

open ByteMemory

/-- A part of a message that a buffer holds at a time: where it starts, and its bytes. -/
abbrev Window := ℕ × List UInt8

/-- How a buffer gets from a window to those behind it: `Behind init windows stream` says that the
windows follow the one that starts at `init`, and `Crosses stream` that the stream allows to go on.
-/
structure WindowSource where
  Behind : ℕ → List Window → InputReliableStream → Prop
  Crosses : InputReliableStream → Prop
  behind_flag : ∀ {init windows stream} (flag : Bool), Behind init windows stream →
    Behind init windows { stream with cleanupFlag := flag }
  crosses_flag : ∀ {init windows stream}, Behind init windows stream →
    Crosses { stream with cleanupFlag := true }
  cross : ∀ {ub : UcdrBuffer} {window windows stream}, Behind ub.init (window :: windows) stream →
    Crosses stream → ∃ stream', onFullInputBuffer stream ub =
        (stream', ucdrSetOnFullBufferCallback
          (ucdrInitBufferOrigin window.1 window.2.length ub.offset), false) ∧
      Behind window.1 windows stream' ∧ Crosses stream' ∧
      window.2.length < 18446744073709551616 ∧
      read stream'.base.buffer window.1 window.2.length = window.2

/-- The bytes that are left of a message. -/
def leftBytes (bytes : List UInt8) (windows : List Window) : List UInt8 :=
  bytes ++ windows.flatMap Prod.snd

/-- Where the windows end that others follow, for a message that is read up to the position `p`. -/
def windowEnds : ℕ → List UInt8 → List Window → List ℕ
  | _, _, [] => []
  | p, bytes, window :: windows =>
    (p + bytes.length) :: windowEnds (p + bytes.length) window.2 windows

/-- Where the byte `q` behind the position of a message is, when the first window starts at that
position. -/
def place : List Window → ℕ → ℕ
  | [], q => q
  | [window], q => window.1 + q
  | window :: next :: windows, q =>
    if q < window.2.length then window.1 + q
    else place (next :: windows) (q - window.2.length)

/-- How far a buffer stands from where its alignment is counted. -/
def UcdrBuffer.phase (ub : UcdrBuffer) : ℕ := ub.offset - ub.origin

/-- A buffer stands before `bytes` of its window, and the windows that are left. -/
structure Cursor (source : WindowSource) (stream : InputReliableStream) (ub : UcdrBuffer)
    (bytes : List UInt8) (windows : List Window) : Prop where
  error_eq : ub.error = false
  final_eq : ub.final = ub.iterator + bytes.length
  length_lt : bytes.length < 18446744073709551616
  bytes_eq : read stream.base.buffer ub.iterator bytes.length = bytes
  origin_le : ub.origin ≤ ub.offset
  behind : source.Behind ub.init windows stream
  callback : windows ≠ [] → ub.onFullBuffer = true
  nonempty : ∀ window ∈ windows, window.2 ≠ []
  aligned : 4 ≤ ub.lastDataSize → ub.phase % 4 = 0

/-- A cursor was moved over `n` bytes from the position `p`. -/
structure Moved (source : WindowSource) (p n : ℕ) (stream : InputReliableStream) (ub : UcdrBuffer)
    (bytes : List UInt8) (windows : List Window) (stream' : InputReliableStream)
    (ub' : UcdrBuffer) (bytes' : List UInt8) (windows' : List Window) : Prop where
  cursor : Cursor source stream' ub' bytes' windows'
  left_eq : leftBytes bytes' windows' = (leftBytes bytes windows).drop n
  ends_subset : ∀ e ∈ windowEnds (p + n) bytes' windows', e ∈ windowEnds p bytes windows
  place_eq : ∀ q, place ((ub'.iterator, bytes') :: windows') q =
    place ((ub.iterator, bytes) :: windows) (n + q)
  crosses : source.Crosses stream → source.Crosses stream'
  suffix : windows' <:+ windows
  callback_eq : ub'.onFullBuffer = ub.onFullBuffer
  phase_mod : (∀ e ∈ windowEnds p bytes windows, e < p + n → e % 4 = 0) →
    ub.phase % 4 = p % 4 → ub'.phase % 4 = (p + n) % 4

variable {source : WindowSource} {stream : InputReliableStream} {ub : UcdrBuffer}
  {bytes : List UInt8} {windows : List Window} {p n : ℕ}

/-- No window ends before the position that is reached. -/
lemma le_of_mem_windowEnds {e : ℕ} (he : e ∈ windowEnds p bytes windows) :
    p + bytes.length ≤ e := by
  induction windows generalizing p bytes with
  | nil => cases he
  | cons window windows ih =>
    rcases List.mem_cons.mp he with rfl | he
    · exact le_rfl
    · exact (Nat.le_add_right _ _).trans (ih he)

/-- The ends depend on where the first window ends. -/
lemma windowEnds_drop (hn : n ≤ bytes.length) :
    windowEnds (p + n) (bytes.drop n) windows = windowEnds p bytes windows := by
  cases windows with
  | nil => rfl
  | cons window windows =>
    have hend : p + n + (bytes.drop n).length = p + bytes.length := by
      rw [List.length_drop]
      omega
    rw [windowEnds, windowEnds, hend]

/-- Places are those of the bytes that are left. -/
lemma place_drop (a q : ℕ) (hn : n ≤ bytes.length) :
    place ((a + n, bytes.drop n) :: windows) q = place ((a, bytes) :: windows) (n + q) := by
  cases windows with
  | nil => simp only [place, Nat.add_assoc]
  | cons window windows =>
    simp only [place, List.length_drop]
    by_cases hlt : q < bytes.length - n
    · rw [if_pos hlt, if_pos (by omega), Nat.add_assoc]
    · rw [if_neg hlt, if_neg (by omega)]
      congr 1
      omega

/-- Reading one type after another. -/
lemma ucdrDeserializeAll_append (sizes sizes' : List ℕ) (stream : InputReliableStream)
    (ub : UcdrBuffer) :
    ucdrDeserializeAll (sizes ++ sizes') stream ub =
      (let r := ucdrDeserializeAll sizes stream ub
       let s := ucdrDeserializeAll sizes' r.1 r.2.1
       (s.1, s.2.1, r.2.2 && s.2.2)) := by
  induction sizes generalizing stream ub with
  | nil => simp [ucdrDeserializeAll]
  | cons size sizes ih =>
    rw [List.cons_append, ucdrDeserializeAll, ih]
    simp [ucdrDeserializeAll, Bool.and_assoc]

/-- A cursor that stays where it is. -/
lemma Moved.refl (h : Cursor source stream ub bytes windows) :
    Moved source p 0 stream ub bytes windows stream ub bytes windows :=
  ⟨h, rfl, fun _ he => he, fun q => by rw [Nat.zero_add], id, List.suffix_refl _, rfl,
    fun _ hmod => hmod⟩

/-- One move after another. -/
lemma Moved.trans {m : ℕ} {stream₁ stream₂ : InputReliableStream} {ub₁ ub₂ : UcdrBuffer}
    {bytes₁ bytes₂ : List UInt8} {windows₁ windows₂ : List Window}
    (h₁ : Moved source p m stream ub bytes windows stream₁ ub₁ bytes₁ windows₁)
    (h₂ : Moved source (p + m) n stream₁ ub₁ bytes₁ windows₁ stream₂ ub₂ bytes₂ windows₂) :
    Moved source p (m + n) stream ub bytes windows stream₂ ub₂ bytes₂ windows₂ where
  cursor := h₂.cursor
  left_eq := by rw [h₂.left_eq, h₁.left_eq, List.drop_drop]
  ends_subset e he := h₁.ends_subset e (h₂.ends_subset e (by rwa [Nat.add_assoc]))
  place_eq q := by rw [h₂.place_eq, h₁.place_eq, Nat.add_assoc]
  crosses := h₂.crosses ∘ h₁.crosses
  suffix := h₂.suffix.trans h₁.suffix
  callback_eq := h₂.callback_eq.trans h₁.callback_eq
  phase_mod hends hmod := by
    rw [← Nat.add_assoc]
    refine h₂.phase_mod (fun e he hlt => hends e (h₁.ends_subset e he) (by omega)) ?_
    exact h₁.phase_mod (fun e he hlt => hends e he (by omega)) hmod

/-- Without room for a header there is none. -/
lemma SubmessageList.uxrReadSubmessageHeader_of_lt (header : SubmessageList.Header)
    (stream : InputReliableStream)
    (hlt : ucdrBufferRemaining (ucdrAlignTo ub 4) < subheaderSize) :
    SubmessageList.uxrReadSubmessageHeader header stream ub =
      (stream, ucdrAlignTo ub 4, header, false) := by
  unfold SubmessageList.uxrReadSubmessageHeader
  dsimp only
  rw [if_neg (Nat.not_le.mpr hlt)]

namespace Cursor

/-- What is left in the window. -/
lemma remaining (h : Cursor source stream ub bytes windows) :
    ucdrBufferRemaining ub = bytes.length := by
  have hlt := h.length_lt
  unfold ucdrBufferRemaining
  rw [h.final_eq]
  omega

/-- The flag of the stream does not matter for where a buffer stands. -/
lemma flag (h : Cursor source stream ub bytes windows) (flag : Bool) :
    Cursor source { stream with cleanupFlag := flag } ub bytes windows :=
  { h with behind := source.behind_flag flag h.behind }

/-- Where a number of four bytes needs no padding, the buffer stands at a multiple of four. -/
lemma phase_of_alignment (h : Cursor source stream ub bytes windows)
    (haligned : ucdrBufferAlignment ub 4 = 0) : ub.phase % 4 = 0 := by
  unfold ucdrBufferAlignment at haligned
  split at haligned
  · next hlast => exact h.aligned hlast
  · unfold UcdrBuffer.phase
    omega

/-- The bytes of the window in two parts. -/
lemma read_split (h : Cursor source stream ub bytes windows) (hn : n ≤ bytes.length) :
    read stream.base.buffer ub.iterator n = bytes.take n ∧
      read stream.base.buffer (ub.iterator + n) (bytes.length - n) = bytes.drop n := by
  have hsplit : read stream.base.buffer ub.iterator bytes.length =
      read stream.base.buffer ub.iterator n ++
        read stream.base.buffer (ub.iterator + n) (bytes.length - n) := by
    rw [← read_add, Nat.add_sub_cancel' hn]
  rw [h.bytes_eq] at hsplit
  constructor
  · conv_rhs => rw [hsplit, List.take_left' (length_read _ _ _)]
  · conv_rhs => rw [hsplit, List.drop_left' (length_read _ _ _)]

/-- A buffer moves within its window. -/
lemma advance (h : Cursor source stream ub bytes windows) (hn : n ≤ bytes.length) (dataSize : ℕ)
    (haligned : 4 ≤ dataSize → (ub.phase + n) % 4 = 0) :
    Moved source p n stream ub bytes windows stream (ub.advance n dataSize) (bytes.drop n)
        windows ∧
      (ub.advance n dataSize).phase = ub.phase + n := by
  have hphase : (ub.advance n dataSize).phase = ub.phase + n := by
    have := h.origin_le
    simp only [UcdrBuffer.phase, UcdrBuffer.advance]
    omega
  refine ⟨⟨⟨h.error_eq, ?_, ?_, ?_, ?_, h.behind, h.callback, h.nonempty, ?_⟩, ?_, ?_,
    fun q => place_drop _ _ hn, id, List.suffix_refl _, rfl, ?_⟩, hphase⟩
  · simp only [UcdrBuffer.advance, List.length_drop]
    rw [h.final_eq]
    omega
  · rw [List.length_drop]
    exact lt_of_le_of_lt (Nat.sub_le _ _) h.length_lt
  · rw [List.length_drop]
    exact (h.read_split hn).2
  · exact h.origin_le.trans (Nat.le_add_right _ _)
  · rw [hphase]
    exact haligned
  · unfold leftBytes
    rw [List.drop_append_of_le_length hn]
  · rw [windowEnds_drop hn]
    exact fun _ he => he
  · intro _ hmod
    rw [hphase]
    omega

/-- A basic type that is in the window is read there. -/
lemma deserialize_window (h : Cursor source stream ub bytes windows) (size : ℕ)
    (hsize : size ≤ 4) (haligned : ucdrBufferAlignment ub size = 0) (hle : size ≤ bytes.length) :
    ucdrDeserialize size stream ub =
        (stream, ub.advance size size, some (bytes.take size)) ∧
      Moved source p size stream ub bytes windows stream (ub.advance size size)
        (bytes.drop size) windows ∧
      (ub.advance size size).phase = ub.phase + size := by
  have hcheck : ucdrCheckFinalBufferBehavior onFullInputBuffer stream ub size =
      (stream, ub, true) :=
    ucdrCheckFinalBufferBehavior_of_room _ _ _ h.error_eq (by rw [h.final_eq]; omega)
  have hskip : ub.skip 0 = ub := rfl
  refine ⟨?_, h.advance hle size fun hfour => ?_⟩
  · unfold ucdrDeserialize
    rw [haligned, hskip, hcheck, ← (h.read_split hle).1]
    rfl
  · obtain rfl : size = 4 := Nat.le_antisymm hsize hfour
    rw [Nat.add_mod_right, h.phase_of_alignment haligned]

/-- At the end of its window a buffer goes on to the next one. -/
lemma cross {window : Window} (h : Cursor source stream ub [] (window :: windows))
    (hcrosses : source.Crosses stream) :
    ∃ stream' ub', Cursor source stream' ub' window.2 windows ∧ source.Crosses stream' ∧
      ub'.phase = 0 ∧ ub'.iterator = window.1 ∧ ub'.onFullBuffer = true ∧ ∀ size,
        0 < size → size ≤ window.2.length →
        ucdrBufferAlignment ub size = 0 →
          ucdrDeserialize size stream ub = ucdrDeserialize size stream' ub' := by
  obtain ⟨stream', hcall, hbehind, hcrosses', hlt, hread⟩ := source.cross h.behind hcrosses
  obtain ⟨ub', hub'⟩ : ∃ ub', ub' = ucdrSetOnFullBufferCallback
      (ucdrInitBufferOrigin window.1 window.2.length ub.offset) := ⟨_, rfl⟩
  have hcursor : Cursor source stream' ub' window.2 windows := by
    subst hub'
    exact ⟨rfl, rfl, hlt, hread, Nat.le_add_right _ _, hbehind, fun _ => rfl,
      fun next hnext => h.nonempty next (List.mem_cons_of_mem _ hnext), fun hfour => by
        exact absurd (show 4 ≤ 0 from hfour) (by decide)⟩
  refine ⟨stream', ub', hcursor, hcrosses', ?_, ?_, ?_, fun size hpos hle haligned => ?_⟩
  · subst hub'
    exact Nat.sub_self _
  · subst hub'
    rfl
  · subst hub'
    rfl
  · have hphase : ub'.offset - ub'.origin = 0 := by
      subst hub'
      exact Nat.sub_self _
    have hcheck : ucdrCheckFinalBufferBehavior onFullInputBuffer stream ub size =
        (stream', ub', true) := by
      have hfinal : ¬ ub.iterator + size ≤ ub.final := by
        rw [h.final_eq, List.length_nil]
        omega
      rw [ucdrCheckFinalBufferBehavior, if_neg (by simp [h.error_eq]), if_neg hfinal,
        if_pos (h.callback (List.cons_ne_nil _ _)), hcall, hub']
      rfl
    have hcheck' : ucdrCheckFinalBufferBehavior onFullInputBuffer stream' ub' size =
        (stream', ub', true) :=
      ucdrCheckFinalBufferBehavior_of_room _ _ _ hcursor.error_eq (by rw [hcursor.final_eq]; omega)
    unfold ucdrDeserialize
    rw [haligned, ucdrBufferAlignment_of_aligned (by rw [hphase, Nat.zero_mod])]
    change (if (ucdrCheckFinalBufferBehavior onFullInputBuffer stream ub size).2.2 then _ else _) =
      (if (ucdrCheckFinalBufferBehavior onFullInputBuffer stream' ub' size).2.2 then _ else _)
    rw [show ub.skip 0 = ub from rfl, show ub'.skip 0 = ub' from rfl, hcheck, hcheck']

/-- A basic type that no window cuts is read where the buffer stands. -/
lemma deserialize (h : Cursor source stream ub bytes windows) {size : ℕ} (hpos : 0 < size)
    (hsize : size ≤ 4) (haligned : ucdrBufferAlignment ub size = 0)
    (hle : size ≤ (leftBytes bytes windows).length)
    (hcut : ∀ e ∈ windowEnds p bytes windows, e = p ∨ p + size ≤ e)
    (hcrosses : (∀ e ∈ windowEnds p bytes windows, p < e) ∨ source.Crosses stream) :
    ∃ stream' ub' bytes' windows', ucdrDeserialize size stream ub =
        (stream', ub', some ((leftBytes bytes windows).take size)) ∧
      Moved source p size stream ub bytes windows stream' ub' bytes' windows' ∧
      (ub'.phase = ub.phase + size ∨ ub'.phase = size) := by
  by_cases hroom : size ≤ bytes.length
  · obtain ⟨heq, hmoved, hphase⟩ := h.deserialize_window (p := p) size hsize haligned hroom
    refine ⟨_, _, _, _, ?_, hmoved, .inl hphase⟩
    unfold leftBytes
    rw [heq, List.take_append_of_le_length hroom]
  · cases windows with
    | nil => simp [leftBytes] at hle; omega
    | cons window windows =>
      -- the window ends before the type does, so it has ended
      obtain rfl : bytes = [] := by
        have := hcut (p + bytes.length) List.mem_cons_self
        exact List.length_eq_zero_iff.mp (by omega)
      have hcrosses' := hcrosses.resolve_left fun hlt =>
        absurd (hlt _ List.mem_cons_self) (Nat.lt_irrefl p)
      obtain ⟨stream', ub', hcursor, hcross, hphase, hiterator, hcallback, heq⟩ := h.cross hcrosses'
      have hwindow : size ≤ window.2.length := by
        cases windows with
        | nil => simpa [leftBytes] using hle
        | cons next windows =>
          have hne := List.length_pos_of_ne_nil (h.nonempty window List.mem_cons_self)
          have := hcut (p + window.2.length)
            (List.mem_cons_of_mem _ (by simp [windowEnds]))
          omega
      obtain ⟨heq', hmoved, hphase'⟩ := hcursor.deserialize_window (p := p) size hsize
        (ucdrBufferAlignment_of_aligned (by
          rw [show ub'.offset - ub'.origin = 0 from hphase, Nat.zero_mod])) hwindow
      refine ⟨_, _, _, _, ?_,
        ⟨hmoved.cursor, ?_, ?_, fun q => ?_, fun _ => hmoved.crosses hcross, ?_, ?_, ?_⟩, .inr ?_⟩
      · rw [heq size hpos hwindow haligned, heq']
        simp [leftBytes, List.take_append_of_le_length hwindow]
      · rw [hmoved.left_eq]
        simp [leftBytes]
      · exact fun e he => List.mem_cons_of_mem _ (by simpa using hmoved.ends_subset e he)
      · rw [hmoved.place_eq, hiterator]
        simp [place]
      · exact hmoved.suffix.trans (List.suffix_cons _ _)
      · rw [hmoved.callback_eq, hcallback, h.callback (List.cons_ne_nil _ _)]
      · intro hends hmod
        have hp := hends p (by simp [windowEnds]) (by omega)
        rw [hphase', hphase]
        omega
      · rw [hphase', hphase, Nat.zero_add]

/-- Numbers of one size that no window cuts are read where the buffer stands. -/
lemma numbers (h : Cursor source stream ub bytes windows) {size : ℕ} (hpos : 0 < size)
    (hsize : size ≤ 4) (count : ℕ) (hphase : ub.phase % size = 0)
    (hle : count * size ≤ (leftBytes bytes windows).length)
    (hcut : ∀ e ∈ windowEnds p bytes windows, e < p + count * size → size ∣ e - p)
    (hcrosses : (∀ e ∈ windowEnds p bytes windows, p + count * size ≤ e) ∨
      source.Crosses stream) :
    ∃ stream' ub' bytes' windows',
      ucdrDeserializeAll (List.replicate count size) stream ub = (stream', ub', true) ∧
      Moved source p (count * size) stream ub bytes windows stream' ub' bytes' windows' ∧
      ub'.phase % size = 0 := by
  induction count generalizing stream ub bytes windows p with
  | zero =>
    refine ⟨stream, ub, bytes, windows, rfl, ?_, hphase⟩
    rw [Nat.zero_mul]
    exact .refl h
  | succ count ih =>
    rw [Nat.succ_mul] at hle hcut hcrosses
    obtain ⟨stream₁, ub₁, bytes₁, windows₁, heq, hmoved, hphase₁⟩ :=
      h.deserialize (p := p) hpos hsize
      (ucdrBufferAlignment_of_aligned hphase) (by omega)
      (fun e he => by
        have hge := le_of_mem_windowEnds he
        by_cases hlt : e < p + (count * size + size)
        · obtain ⟨k, hk⟩ := hcut e he hlt
          rcases Nat.eq_zero_or_pos k with rfl | hk'
          · exact .inl (by omega)
          · have := Nat.mul_le_mul_left size hk'
            exact .inr (by omega)
        · exact .inr (by omega))
      (hcrosses.imp_left fun hge e he => by have := hge e he; omega)
    have hphase₁' : ub₁.phase % size = 0 := by
      rcases hphase₁ with hadd | hsame
      · rw [hadd, Nat.add_mod_right, hphase]
      · rw [hsame, Nat.mod_self]
    obtain ⟨stream₂, ub₂, bytes₂, windows₂, heq₂, hmoved₂, hphase₂⟩ := ih (p := p + size)
      hmoved.cursor hphase₁'
      (by rw [hmoved.left_eq, List.length_drop]; omega)
      (fun e he hlt => by
        have hge := le_of_mem_windowEnds he
        have hdvd := hcut e (hmoved.ends_subset e he) (by omega)
        rw [← Nat.sub_sub]
        exact Nat.dvd_sub hdvd (dvd_refl size))
      (hcrosses.imp (fun hge e he => by have := hge e (hmoved.ends_subset e he); omega)
        hmoved.crosses)
    refine ⟨stream₂, ub₂, bytes₂, windows₂, ?_, ?_, hphase₂⟩
    · rw [List.replicate_succ, ucdrDeserializeAll, heq]
      dsimp only
      rw [heq₂]
      rfl
    · rw [Nat.succ_mul, Nat.add_comm]
      exact hmoved.trans hmoved₂

/-- Bytes are read whatever the windows are. -/
lemma byteArray (h : Cursor source stream ub bytes windows) (count : ℕ)
    (hle : count ≤ (leftBytes bytes windows).length)
    (hcrosses : (∀ e ∈ windowEnds p bytes windows, p + count ≤ e) ∨ source.Crosses stream) :
    ∃ stream' ub' bytes' windows',
      ucdrDeserializeAll (List.replicate count 1) stream ub = (stream', ub', true) ∧
      Moved source p count stream ub bytes windows stream' ub' bytes' windows' := by
  obtain ⟨stream', ub', bytes', windows', heq, hmoved, -⟩ := h.numbers (p := p) Nat.one_pos
    (by decide) count
    (Nat.mod_one _) (by rwa [Nat.mul_one]) (fun e _ _ => one_dvd _) (by rwa [Nat.mul_one])
  rw [Nat.mul_one] at hmoved
  exact ⟨stream', ub', bytes', windows', heq, hmoved⟩

/-- Numbers of one size and bytes behind them are read where the buffer stands, at a multiple of
four, when the windows end at multiples of four. -/
lemma payload (h : Cursor source stream ub bytes windows) {size : ℕ} (hdvd : size ∣ 4)
    (count rest : ℕ) (hphase : ub.phase % 4 = p % 4) (hp : p % 4 = 0)
    (hle : count * size + rest ≤ (leftBytes bytes windows).length)
    (hcut : count = 0 ∨ ∀ e ∈ windowEnds p bytes windows, e < p + (count * size + rest) → e % 4 = 0)
    (hcrosses : (∀ e ∈ windowEnds p bytes windows, p + (count * size + rest) ≤ e) ∨
      source.Crosses stream) :
    ∃ stream' ub' bytes' windows',
      ucdrDeserializeAll (List.replicate count size ++ List.replicate rest 1) stream ub =
        (stream', ub', true) ∧
      Moved source p (count * size + rest) stream ub bytes windows stream' ub' bytes'
        windows' := by
  have hpos : 0 < size := Nat.pos_of_dvd_of_pos hdvd (by decide)
  obtain ⟨stream₁, ub₁, bytes₁, windows₁, heq₁, hmoved₁, -⟩ := h.numbers (p := p) hpos
    (Nat.le_of_dvd (by decide) hdvd) count
    (Nat.mod_eq_zero_of_dvd (hdvd.trans (Nat.dvd_of_mod_eq_zero (hphase.trans hp)))) (by omega)
    (fun e he hlt => by
      rcases hcut with rfl | hcut
      · have := le_of_mem_windowEnds he
        omega
      · have hmod := hcut e he (by omega)
        exact hdvd.trans (Nat.dvd_of_mod_eq_zero (by omega)))
    (hcrosses.imp_left fun hge e he => by have := hge e he; omega)
  obtain ⟨stream₂, ub₂, bytes₂, windows₂, heq₂, hmoved₂⟩ := hmoved₁.cursor.byteArray
    (p := p + count * size) rest (by rw [hmoved₁.left_eq, List.length_drop]; omega)
    (hcrosses.imp (fun hge e he => by have := hge e (hmoved₁.ends_subset e he); omega)
      hmoved₁.crosses)
  refine ⟨stream₂, ub₂, bytes₂, windows₂, ?_, hmoved₁.trans hmoved₂⟩
  rw [ucdrDeserializeAll_append, heq₁]
  dsimp only
  rw [heq₂]
  rfl

/-! ## Headers -/

/-- The padding before a header. -/
lemma alignment_eq (h : Cursor source stream ub bytes windows) :
    ucdrBufferAlignment ub 4 = alignmentGap ub.phase := by
  unfold ucdrBufferAlignment
  split
  · next hlast =>
    have := h.aligned hlast
    unfold alignmentGap
    omega
  · rfl

/-- Padding that is in the window is passed over. -/
lemma alignTo (h : Cursor source stream ub bytes windows)
    (hgap : alignmentGap ub.phase ≤ bytes.length) :
    ucdrAlignTo ub 4 = ub.advance (alignmentGap ub.phase) 4 ∧
      Moved source p (alignmentGap ub.phase) stream ub bytes windows stream (ucdrAlignTo ub 4)
        (bytes.drop (alignmentGap ub.phase)) windows ∧
      (ucdrAlignTo ub 4).phase % 4 = 0 := by
  have hmod : (ub.phase + alignmentGap ub.phase) % 4 = 0 := by
    unfold alignmentGap
    omega
  have heq : ucdrAlignTo ub 4 = ub.advance (alignmentGap ub.phase) 4 := by
    unfold ucdrAlignTo UcdrBuffer.advance
    rw [h.alignment_eq, Nat.min_eq_left (by rw [h.final_eq]; omega)]
  obtain ⟨hmoved, hphase⟩ := h.advance (p := p) hgap 4 fun _ => hmod
  rw [heq]
  exact ⟨rfl, hmoved, by rw [hphase, hmod]⟩

/-- A buffer without room for a header behind its padding ends the list. -/
lemma readHeader_of_lt (h : Cursor source stream ub bytes windows)
    (hlt : bytes.length < alignmentGap ub.phase + subheaderSize) (header : SubmessageList.Header) :
    SubmessageList.uxrReadSubmessageHeader header stream ub =
      (stream, ucdrAlignTo ub 4, header, false) := by
  have hlength := h.length_lt
  refine SubmessageList.uxrReadSubmessageHeader_of_lt header stream ?_
  unfold ucdrBufferRemaining ucdrAlignTo
  rw [h.alignment_eq, h.final_eq]
  unfold subheaderSize at hlt ⊢
  dsimp only
  omega

/-- A header that is in the window is read. -/
lemma readHeader (h : Cursor source stream ub bytes windows) {id flags lo hi : UInt8}
    {rest : List UInt8} (hgap : alignmentGap ub.phase ≤ bytes.length)
    (hbytes : bytes.drop (alignmentGap ub.phase) = id :: flags :: lo :: hi :: rest)
    (header : SubmessageList.Header) :
    ∃ ub', SubmessageList.uxrReadSubmessageHeader header stream ub =
        (stream, ub', ⟨id, withoutEndianness flags, lo.toNat + 256 * hi.toNat⟩, true) ∧
      Moved source p (alignmentGap ub.phase + 4) stream ub bytes windows stream ub' rest windows ∧
      ub'.phase % 4 = 0 ∧ ub'.iterator = ub.iterator + alignmentGap ub.phase + 4 ∧
      ub'.onFullBuffer = ub.onFullBuffer := by
  obtain ⟨heq, hmoved₀, hphase₀⟩ := h.alignTo (p := p) hgap
  obtain ⟨ub₀, hub₀⟩ : ∃ ub₀, ub₀ = ucdrAlignTo ub 4 := ⟨_, rfl⟩
  rw [hbytes, ← hub₀] at hmoved₀
  rw [← hub₀] at hphase₀
  have hremaining : ucdrBufferRemaining ub₀ ≥ subheaderSize := by
    rw [hmoved₀.cursor.remaining]
    simp [subheaderSize]
  obtain ⟨hid, hmoved₁, hphase₁⟩ := hmoved₀.cursor.deserialize_window
    (p := p + alignmentGap ub.phase) 1 (by decide)
    (ucdrBufferAlignment_of_aligned (Nat.mod_one _)) (by simp)
  obtain ⟨hflags, hmoved₂, hphase₂⟩ := hmoved₁.cursor.deserialize_window
    (p := p + alignmentGap ub.phase + 1) 1 (by decide)
    (ucdrBufferAlignment_of_aligned (Nat.mod_one _)) (by simp)
  obtain ⟨hlength, hmoved₃, hphase₃⟩ := hmoved₂.cursor.deserialize_window
    (p := p + alignmentGap ub.phase + 1 + 1) 2 (by decide)
    (ucdrBufferAlignment_of_aligned (by
      change (((ub₀.advance 1 1).advance 1 1).phase) % 2 = 0
      rw [hphase₂, hphase₁]
      omega)) (by simp)
  have hmoved := ((hmoved₀.trans hmoved₁).trans hmoved₂).trans hmoved₃
  refine ⟨{ ((ub₀.advance 1 1).advance 1 1).advance 2 2 with
    endianness := if flags &&& flagEndianness = 0 then .big else .little }, ?_, ?_, ?_, ?_, ?_⟩
  · unfold SubmessageList.uxrReadSubmessageHeader
    dsimp only
    rw [← hub₀, if_pos hremaining, hid]
    dsimp only
    rw [hflags]
    dsimp only
    rw [hlength]
    simp [decodeLE]
  · exact ⟨⟨hmoved.cursor.1, hmoved.cursor.2, hmoved.cursor.3, hmoved.cursor.4, hmoved.cursor.5,
      hmoved.cursor.6, hmoved.cursor.7, hmoved.cursor.8, hmoved.cursor.9⟩, hmoved.left_eq,
      hmoved.ends_subset, hmoved.place_eq, hmoved.crosses, hmoved.suffix, hmoved.callback_eq,
      hmoved.phase_mod⟩
  · change (((ub₀.advance 1 1).advance 1 1).advance 2 2).phase % 4 = 0
    rw [hphase₃, hphase₂, hphase₁]
    omega
  · change ub₀.iterator + 1 + 1 + 2 = _
    rw [hub₀, heq]
    rfl
  · change ub₀.onFullBuffer = _
    rw [hub₀]
    rfl

end Cursor

end XrceDds
