import XrceDds.Agent.SeqNum
import XrceDds.Lib.Transition

/-!
# The topics of the CED middleware

A `CedGlobalTopic` keeps the last sixteen samples in a ring.  Every reader has its own cursor
`last_read_`.  `read` moves a cursor that was overrun before it reads, but a reader that waits
takes one sample at the cursor whenever it is woken, whatever was written in between.

As long as no more than sixteen writes go by until a waiting reader is woken, every reader is
given the samples in the order of the writes (`read_inOrder`).  A reader that is overrun while
it waits is given a sample that it is given again later (`read_inOrder_fails`).
-/

namespace XrceDds

/-- `TopicSource`. -/
inductive TopicSource where
  | internal
  | external
  deriving DecidableEq, Repr

/-- `WriteAccess` and `ReadAccess`. -/
inductive TopicAccess where
  | none
  | internal
  | external
  | complete
  deriving DecidableEq, Repr

/-- A sample of a topic. -/
structure CedSample where
  data : List UInt8
  topicSrc : TopicSource
  deriving DecidableEq, Repr

/-- `CedGlobalTopic`. -/
structure CedGlobalTopic where
  lastWrite : SeqNum
  history : ℕ → List UInt8
  srcs : ℕ → TopicSource

namespace CedGlobalTopic

/-- `history_.size()`. -/
def historySize : ℕ := 16

/-- The comparison of `check_write_access` and of `check_read_access`. -/
def Permits : TopicAccess → TopicSource → Prop
  | .none, _ => False
  | .internal, src => src = .internal
  | .external, src => src = .external
  | .complete, _ => True

instance (access : TopicAccess) (src : TopicSource) : Decidable (Permits access src) := by
  unfold Permits; split <;> infer_instance

/-- `check_write_access`. -/
def checkWriteAccess (writeAccess : TopicAccess) (topicSrc : TopicSource) : Prop :=
  Permits writeAccess topicSrc

instance (writeAccess : TopicAccess) (topicSrc : TopicSource) :
    Decidable (checkWriteAccess writeAccess topicSrc) := by
  unfold checkWriteAccess; infer_instance

/-- `check_read_access`. -/
def checkReadAccess (topic : CedGlobalTopic) (readAccess : TopicAccess) (index : ℕ) : Prop :=
  Permits readAccess (topic.srcs index)

instance (topic : CedGlobalTopic) (readAccess : TopicAccess) (index : ℕ) :
    Decidable (topic.checkReadAccess readAccess index) := by
  unfold checkReadAccess; infer_instance

/-- The constructor.  The sources are not initialised. -/
def new (srcs : ℕ → TopicSource) : CedGlobalTopic := ⟨⟨65535, seqNumMax_lt⟩, fun _ => [], srcs⟩

/-- `write`: the topic, and whether the sample was accepted. -/
def write (topic : CedGlobalTopic) (data : List UInt8) (writeAccess : TopicAccess)
    (topicSrc : TopicSource) : CedGlobalTopic × Bool :=
  if checkWriteAccess writeAccess topicSrc then
    let index := (topic.lastWrite.val + 1) % 65536 % historySize
    ({ lastWrite := SeqNum.addInt topic.lastWrite 1
       history := Function.update topic.history index data
       srcs := Function.update topic.srcs index topicSrc }, true)
  else (topic, false)

section Read

variable (topic : CedGlobalTopic) (readAccess : TopicAccess)

/-- `get_data`: the cursor, and the sample when it may be read. -/
def getData (lastRead : SeqNum) : SeqNum × Option CedSample :=
  let lastRead := SeqNum.addInt lastRead 1
  let index := lastRead.val % historySize
  (lastRead,
    if topic.checkReadAccess readAccess index then
      some ⟨topic.history index, topic.srcs index⟩
    else none)

/-- The correction of the cursor at the start of `read`. -/
def fixLastRead (lastRead : SeqNum) : SeqNum :=
  if SeqNum.Le lastRead (SeqNum.subInt topic.lastWrite historySize) ∨
      SeqNum.Gt lastRead topic.lastWrite then
    SeqNum.subInt topic.lastWrite historySize
  else lastRead

/-- The `do` loop of `read`. -/
def readLoop : ℕ → SeqNum → SeqNum × Option CedSample
  | 0, lastRead => (lastRead, none)
  | n + 1, lastRead =>
    match topic.getData readAccess lastRead with
    | (lastRead, some sample) => (lastRead, some sample)
    | (lastRead, none) =>
      if lastRead ≠ topic.lastWrite then readLoop n lastRead else (lastRead, none)

/-- `read` up to the wait.  The cursor meets `last_write_` within a turn. -/
def readPending (lastRead : SeqNum) : SeqNum × Option CedSample :=
  if lastRead ≠ topic.lastWrite then topic.readLoop readAccess 65536 (topic.fixLastRead lastRead)
  else (lastRead, none)

/-- The predicate of `wait_until`, which is evaluated whenever the reader is woken and when the
time is up. -/
def waitPredicate (lastRead : SeqNum) : SeqNum × Option CedSample :=
  if lastRead ≠ topic.lastWrite then topic.getData readAccess lastRead else (lastRead, none)

end Read

end CedGlobalTopic

open CedGlobalTopic

/-! ## Writers and readers -/

/-- A reader: its cursor, and whether it waits.  Beside them stand the number of accepted writes
that the cursor has passed, those it passed with the number of writes accepted by then, and
the samples it was given. -/
structure CedReader where
  lastRead : SeqNum
  waiting : Bool
  reached : ℕ
  passed : List (ℕ × ℕ)
  obtained : List (ℕ × CedSample)

/-- A reader whose cursor moves to `lastRead`, and who is given `sample`. -/
def CedReader.move (reader : CedReader) (writes : ℕ) (lastWrite : SeqNum)
    (r : SeqNum × Option CedSample) (waiting : Bool) : CedReader :=
  let reached := writes - seqSteps r.1 lastWrite
  { lastRead := r.1
    waiting := waiting
    reached := reached
    passed := reader.passed ++ ((List.range reached).drop reader.reached).map fun i => (i, writes)
    obtained := reader.obtained ++ r.2.toList.map fun sample => (reached - 1, sample) }

/-- A topic with the samples that were accepted, and its readers. -/
structure CedCloud where
  topic : CedGlobalTopic
  accepted : List CedSample
  readers : ℕ → CedReader

namespace CedCloud

/-- What a writer or the reader `r` does.  A reader that waits is woken by a write or for no
reason, or its time is up. -/
inductive Event where
  | write (data : List UInt8) (writeAccess : TopicAccess) (topicSrc : TopicSource)
  | read (r : ℕ)
  | wake (r : ℕ)
  | timeout (r : ℕ)

/-- The reader `r` evaluates `f`. -/
def take (s : CedCloud) (r : ℕ) (f : SeqNum → SeqNum × Option CedSample)
    (waiting : Option CedSample → Bool) : CedCloud :=
  let result := f (s.readers r).lastRead
  { s with
    readers := Function.update s.readers r
      (CedReader.move (s.readers r) s.accepted.length s.topic.lastWrite result (waiting result.2)) }

variable (access : ℕ → TopicAccess)

/-- What happens. -/
def step (s : CedCloud) : Event → CedCloud
  | .write data writeAccess topicSrc =>
    let r := s.topic.write data writeAccess topicSrc
    { s with
      topic := r.1
      accepted := if r.2 then s.accepted ++ [⟨data, topicSrc⟩] else s.accepted }
  | .read r =>
    if (s.readers r).waiting then s
    else s.take r (s.topic.readPending (access r)) Option.isNone
  | .wake r =>
    if (s.readers r).waiting then s.take r (s.topic.waitPredicate (access r)) Option.isNone else s
  | .timeout r =>
    if (s.readers r).waiting then s.take r (s.topic.waitPredicate (access r)) fun _ => false else s

/-- The topic and the readers are new.  A reader that is created later is one that does nothing
until then. -/
def Starts (s : CedCloud) : Prop :=
  ∃ srcs, s = ⟨.new srcs, [], fun _ => ⟨⟨65535, seqNumMax_lt⟩, false, 0, [], []⟩⟩

/-- The reader is fewer than `n` writes behind. -/
def Within (s : CedCloud) (r n : ℕ) : Prop := s.accepted.length < (s.readers r).reached + n

/-- No reader has fallen half a turn of writes behind when it reads. -/
def NotFarBehind (s : CedCloud) : Event → Prop
  | .write _ _ _ => True
  | .read r => s.Within r 32768
  | .wake r => s.Within r 32768
  | .timeout r => s.Within r 32768

/-- No reader that waits is overrun before it is woken. -/
def NotOverrun (s : CedCloud) : Event → Prop
  | .write _ _ _ => True
  | .read _ => True
  | .wake r => s.Within r 17
  | .timeout r => s.Within r 17

/-- What a reader with the access right `access` was given: samples in the order of the writes,
each once; it may read them; and the writes that the cursor has passed without giving a
sample that may be read were sixteen or more behind. -/
structure InOrder (accepted : List CedSample) (access : TopicAccess) (reader : CedReader) :
    Prop where
  subsequence : (reader.obtained.map Prod.snd).Sublist accepted
  permitted : ∀ e ∈ reader.obtained, Permits access e.2.topicSrc
  skipped : ∀ e ∈ reader.passed, ∀ sample, accepted[e.1]? = some sample →
    Permits access sample.topicSrc → (e.1, sample) ∈ reader.obtained ∨ e.1 + historySize < e.2
  passed : ∀ i < reader.reached, ∃ n, (i, n) ∈ reader.passed

/-! ## The ring -/

/-- The ring holds the last sixteen samples that were accepted. -/
structure Holds (topic : CedGlobalTopic) (accepted : List CedSample) : Prop where
  lastWrite_eq : topic.lastWrite = seqOf (65535 + accepted.length)
  ring : ∀ i sample, accepted[i]? = some sample → accepted.length ≤ i + historySize →
    sample = ⟨topic.history (i % historySize), topic.srcs (i % historySize)⟩

variable {topic : CedGlobalTopic} {accepted : List CedSample}

/-- The ring of a new topic holds nothing. -/
lemma Holds.new (srcs : ℕ → TopicSource) : Holds (.new srcs) [] where
  lastWrite_eq := rfl
  ring i sample h := absurd h (by simp)

/-- The place of a number in the ring. -/
lemma index_eq (n : ℕ) : (seqOf n).val % historySize = n % historySize :=
  Nat.mod_mod_of_dvd n (by decide)

/-- An accepted sample takes the place of the one sixteen writes before. -/
lemma Holds.write (h : Holds topic accepted) (data : List UInt8) (writeAccess : TopicAccess)
    (topicSrc : TopicSource) :
    Holds (topic.write data writeAccess topicSrc).1
      (if (topic.write data writeAccess topicSrc).2 then accepted ++ [⟨data, topicSrc⟩]
        else accepted) := by
  unfold CedGlobalTopic.write
  split
  · have hindex : (topic.lastWrite.val + 1) % 65536 % historySize =
        accepted.length % historySize := by
      rw [h.lastWrite_eq, seqOf_val, Nat.mod_mod_of_dvd _ (by decide)]
      unfold historySize
      omega
    dsimp only
    rw [if_pos rfl, hindex]
    refine ⟨?_, fun i sample hi hle => ?_⟩
    · rw [h.lastWrite_eq, SeqNum.addInt_seqOf _ (by decide), List.length_append]
      rfl
    · rw [List.length_append, List.length_singleton] at hle
      dsimp only
      rcases Nat.lt_trichotomy i accepted.length with hlt | rfl | hgt
      · have hne : i % historySize ≠ accepted.length % historySize := by
          unfold historySize at hle ⊢
          omega
        rw [Function.update_of_ne hne, Function.update_of_ne hne]
        rw [List.getElem?_append_left hlt] at hi
        exact h.ring i sample hi (by omega)
      · rw [Function.update_self, Function.update_self]
        rw [List.getElem?_append_right le_rfl, Nat.sub_self] at hi
        exact (Option.some.inj hi).symm
      · rw [List.getElem?_eq_none (by rwa [List.length_append])] at hi
        exact absurd hi (by simp)
  · exact h

/-- The sample at a cursor that was not overrun. -/
lemma Holds.getData (h : Holds topic accepted) (readAccess : TopicAccess) {n : ℕ}
    (hn : n < accepted.length) (hring : accepted.length ≤ n + historySize) :
    topic.getData readAccess (seqOf (65535 + n)) = (seqOf (65535 + (n + 1)),
      if Permits readAccess (accepted[n]).topicSrc then some accepted[n] else none) := by
  have hsample := h.ring n _ (List.getElem?_eq_getElem hn) hring
  have hpermits : topic.checkReadAccess readAccess (n % historySize) ↔
      Permits readAccess accepted[n].topicSrc := by
    rw [hsample]
    rfl
  have hindex : (seqOf (65535 + (n + 1))).val % historySize = n % historySize := by
    rw [seqOf_pred_turn, index_eq]
  unfold CedGlobalTopic.getData
  rw [SeqNum.addInt_seqOf _ (by decide), Nat.add_assoc]
  dsimp only
  rw [hindex, ← hsample, if_congr hpermits rfl rfl]

/-- The `do` loop gives the first sample from the cursor on that may be read. -/
lemma Holds.readLoop (h : Holds topic accepted) (readAccess : TopicAccess) {n : ℕ} (fuel : ℕ)
    (hn : n < accepted.length) (hring : accepted.length ≤ n + historySize)
    (hfuel : accepted.length ≤ n + fuel) :
    ∃ m, n ≤ m ∧
      (∀ i (hi : i < accepted.length), n ≤ i → i < m → ¬ Permits readAccess accepted[i].topicSrc) ∧
      ((∃ hm : m < accepted.length, Permits readAccess accepted[m].topicSrc ∧
          topic.readLoop readAccess fuel (seqOf (65535 + n)) =
            (seqOf (65535 + (m + 1)), some accepted[m])) ∨
        m = accepted.length ∧
          topic.readLoop readAccess fuel (seqOf (65535 + n)) = (seqOf (65535 + m), none)) := by
  induction fuel generalizing n with
  | zero => omega
  | succ fuel ih =>
    rw [CedGlobalTopic.readLoop, h.getData readAccess hn hring]
    by_cases hpermits : Permits readAccess accepted[n].topicSrc
    · rw [if_pos hpermits]
      exact ⟨n, le_rfl, fun i _ hi hi' => by omega, .inl ⟨hn, hpermits, rfl⟩⟩
    · rw [if_neg hpermits]
      dsimp only
      by_cases hlast : n + 1 = accepted.length
      · have heq : seqOf (65535 + (n + 1)) = topic.lastWrite := by rw [h.lastWrite_eq, hlast]
        rw [if_neg (not_not.mpr heq)]
        refine ⟨n + 1, Nat.le_succ n, fun i hi hle hlt => ?_, .inr ⟨hlast, rfl⟩⟩
        obtain rfl : i = n := by omega
        exact hpermits
      · have hne : seqOf (65535 + (n + 1)) ≠ topic.lastWrite := by
          rw [h.lastWrite_eq, ne_eq, Fin.ext_iff, seqOf_val, seqOf_val]
          unfold historySize at hring
          omega
        rw [if_pos hne]
        obtain ⟨m, hm, hskipped, hresult⟩ := ih (show n + 1 < accepted.length by omega) (by omega)
          (by omega)
        refine ⟨m, by omega, fun i hi hle hlt => ?_, hresult⟩
        rcases Nat.eq_or_lt_of_le hle with rfl | hlt'
        · exact hpermits
        · exact hskipped i hi hlt' hlt

/-- What the reads of a reader lead to: a cursor that has passed `m` writes, and the sample of
the last of them if one is given. -/
lemma Holds.readPending (h : Holds topic accepted) (readAccess : TopicAccess) {n : ℕ}
    (hn : n ≤ accepted.length) (hbehind : accepted.length < n + 32768) :
    ∃ m, n ≤ m ∧
      (∀ i (hi : i < accepted.length), n ≤ i → i < m → Permits readAccess accepted[i].topicSrc →
        i + historySize < accepted.length) ∧
      ((∃ hm : m < accepted.length, Permits readAccess accepted[m].topicSrc ∧
          topic.readPending readAccess (seqOf (65535 + n)) =
            (seqOf (65535 + (m + 1)), some accepted[m])) ∨
        m = accepted.length ∧
          topic.readPending readAccess (seqOf (65535 + n)) = (seqOf (65535 + m), none)) := by
  have hsub : SeqNum.subInt topic.lastWrite historySize =
      seqOf (65535 + accepted.length - historySize) := by
    have := SeqNum.subInt_seqOf_add (65535 + accepted.length - historySize)
      (show historySize < 65536 by decide)
    rwa [Nat.sub_add_cancel (show historySize ≤ 65535 + accepted.length by
      unfold historySize; omega), ← h.lastWrite_eq] at this
  unfold CedGlobalTopic.readPending
  by_cases hnone : n = accepted.length
  · have heq : seqOf (65535 + n) = topic.lastWrite := by rw [h.lastWrite_eq, hnone]
    rw [if_neg (not_not.mpr heq)]
    exact ⟨n, le_rfl, fun i _ hle hlt => by omega, .inr ⟨hnone, rfl⟩⟩
  · have hne : seqOf (65535 + n) ≠ topic.lastWrite := by
      rw [h.lastWrite_eq, ne_eq, Fin.ext_iff, seqOf_val, seqOf_val]
      omega
    have hfix : topic.fixLastRead (seqOf (65535 + n)) =
        seqOf (65535 + max n (accepted.length - historySize)) := by
      have hle : SeqNum.Le (seqOf (65535 + n)) (SeqNum.subInt topic.lastWrite historySize) ↔
          n + historySize ≤ accepted.length := by
        rw [hsub, SeqNum.le_seqOf (by unfold historySize; omega) (by unfold historySize; omega)]
        unfold historySize
        omega
      have hgt : ¬ SeqNum.Gt (seqOf (65535 + n)) topic.lastWrite := by
        rw [h.lastWrite_eq, SeqNum.gt_seqOf (by omega) (by omega)]
        omega
      unfold CedGlobalTopic.fixLastRead
      split
      · next hover =>
        have := hle.mp (hover.resolve_right hgt)
        rw [hsub]
        congr 1
        unfold historySize at this ⊢
        omega
      · next hover =>
        have hring : ¬ n + historySize ≤ accepted.length := fun hle' => hover (.inl (hle.mpr hle'))
        congr 1
        unfold historySize at hring ⊢
        omega
    rw [if_pos hne, hfix]
    obtain ⟨m, hm, hskipped, hresult⟩ := h.readLoop readAccess
      (n := max n (accepted.length - historySize)) 65536
      (by unfold historySize; omega) (by unfold historySize; omega) (by omega)
    refine ⟨m, by omega, fun i hi hle hlt hpermits => ?_, hresult⟩
    by_contra hover
    exact hskipped i hi (by omega) hlt hpermits

/-- What a reader that is woken takes. -/
lemma Holds.waitPredicate (h : Holds topic accepted) (readAccess : TopicAccess) {n : ℕ}
    (hn : n ≤ accepted.length) (hring : accepted.length ≤ n + historySize) :
    (topic.waitPredicate readAccess (seqOf (65535 + n)) = (seqOf (65535 + n), none)) ∨
      ∃ hn : n < accepted.length,
        topic.waitPredicate readAccess (seqOf (65535 + n)) = (seqOf (65535 + (n + 1)),
          if Permits readAccess accepted[n].topicSrc then some accepted[n] else none) := by
  unfold CedGlobalTopic.waitPredicate
  split
  · next hne =>
    have hlt : n < accepted.length := by
      refine Nat.lt_of_le_of_ne hn fun heq => hne ?_
      rw [h.lastWrite_eq, heq]
    exact .inr ⟨hlt, h.getData readAccess hlt hring⟩
  · exact .inl rfl

/-! ## Readers -/

/-- A reader whose cursor has passed `reached` writes, and who was given what it may. -/
structure Reads (accepted : List CedSample) (access : TopicAccess) (reader : CedReader) : Prop where
  lastRead_eq : reader.lastRead = seqOf (65535 + reader.reached)
  reached_le : reader.reached ≤ accepted.length
  subsequence : (reader.obtained.map Prod.snd).Sublist (accepted.take reader.reached)
  permitted : ∀ e ∈ reader.obtained, Permits access e.2.topicSrc
  skipped : ∀ e ∈ reader.passed, e.1 < reader.reached ∧
    ∀ sample, accepted[e.1]? = some sample → Permits access sample.topicSrc →
      (e.1, sample) ∈ reader.obtained ∨ e.1 + historySize < e.2
  passed : ∀ i < reader.reached, ∃ n, (i, n) ∈ reader.passed

variable {access : TopicAccess} {reader : CedReader}

/-- A new reader. -/
lemma Reads.new (accepted : List CedSample) (access : TopicAccess) :
    Reads accepted access ⟨⟨65535, seqNumMax_lt⟩, false, 0, [], []⟩ where
  lastRead_eq := rfl
  reached_le := Nat.zero_le _
  subsequence := List.nil_sublist _
  permitted e he := absurd he (by simp)
  skipped e he := absurd he (by simp)
  passed i hi := absurd hi (Nat.not_lt_zero i)

/-- Writes do not concern a reader. -/
lemma Reads.append (h : Reads accepted access reader) (sample : CedSample) :
    Reads (accepted ++ [sample]) access reader where
  lastRead_eq := h.lastRead_eq
  reached_le := by
    rw [List.length_append]
    exact Nat.le_add_right_of_le h.reached_le
  subsequence := by
    rw [List.take_append_of_le_length h.reached_le]
    exact h.subsequence
  permitted := h.permitted
  skipped e he := by
    obtain ⟨hlt, hskipped⟩ := h.skipped e he
    refine ⟨hlt, fun other hother => hskipped other ?_⟩
    rwa [List.getElem?_append_left (hlt.trans_le h.reached_le)] at hother
  passed := h.passed

/-- The cursor passes writes, and gives a sample or none. -/
lemma Reads.move (h : Reads accepted access reader) {lastWrite : SeqNum}
    (hlastWrite : lastWrite = seqOf (65535 + accepted.length)) {n : ℕ} {sample : Option CedSample}
    (hle : reader.reached ≤ n) (hn : n ≤ accepted.length) (hnear : accepted.length < n + 65536)
    (hsample : ∀ x ∈ sample, reader.reached < n ∧ accepted[n - 1]? = some x ∧
      Permits access x.topicSrc)
    (hskipped : ∀ i x, reader.reached ≤ i → i < n → accepted[i]? = some x →
      Permits access x.topicSrc → (i = n - 1 ∧ sample = some x) ∨
        i + historySize < accepted.length) (waiting : Bool) :
    Reads accepted access
      (reader.move accepted.length lastWrite (seqOf (65535 + n), sample) waiting) := by
  have hreached : accepted.length - seqSteps (seqOf (65535 + n)) lastWrite = n := by
    rw [hlastWrite, show 65535 + accepted.length = 65535 + n + (accepted.length - n) by omega,
      seqSteps_seqOf _ (by omega)]
    omega
  unfold CedReader.move
  dsimp only
  rw [hreached]
  have hpassed : ∀ e ∈ ((List.range n).drop reader.reached).map fun i => (i, accepted.length),
      reader.reached ≤ e.1 ∧ e.1 < n ∧ e.2 = accepted.length := by
    intro e he
    obtain ⟨i, hi, rfl⟩ := List.mem_map.mp he
    obtain ⟨k, hk, rfl⟩ := List.mem_iff_getElem.mp hi
    rw [List.length_drop, List.length_range] at hk
    rw [List.getElem_drop, List.getElem_range]
    exact ⟨Nat.le_add_right _ _, by omega, rfl⟩
  refine ⟨rfl, hn, ?_, ?_, ?_, ?_⟩
  · dsimp only
    cases sample with
    | none =>
      rw [Option.toList_none, List.map_nil, List.append_nil]
      exact h.subsequence.trans (List.take_sublist_take_left hle)
    | some x =>
      obtain ⟨hlt, hx, -⟩ := hsample x rfl
      have htake : accepted.take n = accepted.take (n - 1) ++ [x] := by
        obtain ⟨m, rfl⟩ := Nat.exists_eq_add_of_lt hlt
        rw [List.take_add_one, show reader.reached + m = reader.reached + m + 1 - 1 by omega, hx]
        rfl
      rw [Option.toList_some, List.map_singleton, List.map_append, List.map_singleton, htake]
      exact (h.subsequence.trans (List.take_sublist_take_left (by omega))).append
        (List.Sublist.refl _)
  · intro e he
    rcases List.mem_append.mp he with hold | hnew
    · exact h.permitted e hold
    · obtain ⟨x, hx, rfl⟩ := List.mem_map.mp hnew
      exact (hsample x (Option.mem_toList.mp hx)).2.2
  · intro e he
    rcases List.mem_append.mp he with hold | hnew
    · obtain ⟨hlt, hold⟩ := h.skipped e hold
      refine ⟨hlt.trans_le hle, fun x hx hpermits => ?_⟩
      exact (hold x hx hpermits).imp_left fun hmem => List.mem_append_left _ hmem
    · obtain ⟨hge, hlt, hwrites⟩ := hpassed e hnew
      refine ⟨hlt, fun x hx hpermits => ?_⟩
      rw [hwrites]
      refine (hskipped e.1 x hge hlt hx hpermits).imp_left ?_
      rintro ⟨hlast, rfl⟩
      refine List.mem_append_right _ ?_
      rw [hlast]
      exact List.mem_singleton_self _
  · intro i hi
    rcases Nat.lt_or_ge i reader.reached with hold | hnew
    · obtain ⟨m, hm⟩ := h.passed i hold
      exact ⟨m, List.mem_append_left _ hm⟩
    · refine ⟨accepted.length, List.mem_append_right _ (List.mem_map.mpr ⟨i, ?_, rfl⟩)⟩
      obtain ⟨k, rfl⟩ := Nat.exists_eq_add_of_le hnew
      refine List.mem_iff_getElem.mpr ⟨k, ?_, ?_⟩
      · rw [List.length_drop, List.length_range]
        dsimp only at hi
        omega
      · rw [List.getElem_drop, List.getElem_range]

/-- The topic and its readers. -/
structure Sound (access : ℕ → TopicAccess) (s : CedCloud) : Prop where
  topic : Holds s.topic s.accepted
  readers : ∀ r, Reads s.accepted (access r) (s.readers r)

section Runs

variable {access : ℕ → TopicAccess} {s : CedCloud}

/-- New readers have read nothing. -/
lemma Starts.sound (h : s.Starts) : Sound access s := by
  obtain ⟨srcs, rfl⟩ := h
  exact ⟨.new srcs, fun r => .new [] (access r)⟩

/-- A reader evaluates something that moves its cursor as it should. -/
lemma Sound.take (h : Sound access s) {r : ℕ} {f : SeqNum → SeqNum × Option CedSample}
    (hf : ∀ waiting, Reads s.accepted (access r) ((s.readers r).move s.accepted.length
      s.topic.lastWrite (f (s.readers r).lastRead) waiting)) (waiting : Option CedSample → Bool) :
    Sound access (s.take r f waiting) := by
  refine ⟨h.topic, fun r' => ?_⟩
  unfold CedCloud.take
  dsimp only
  rcases eq_or_ne r' r with rfl | hne
  · rw [Function.update_self]
    exact hf _
  · rw [Function.update_of_ne hne]
    exact h.readers r'

/-- A call of `read` up to the wait. -/
lemma Sound.readPending (h : Sound access s) {r : ℕ} (hr : s.Within r 32768) (waiting : Bool) :
    Reads s.accepted (access r) ((s.readers r).move s.accepted.length s.topic.lastWrite
      (s.topic.readPending (access r) (s.readers r).lastRead) waiting) := by
  have hreads := h.readers r
  unfold Within at hr
  obtain ⟨m, hm, hskipped, ⟨hlt, hpermits, hresult⟩ | ⟨hlast, hresult⟩⟩ :=
    h.topic.readPending (access r) hreads.reached_le hr
  · rw [hreads.lastRead_eq, hresult]
    refine hreads.move h.topic.lastWrite_eq (Nat.le_succ_of_le hm) hlt (by omega) ?_ ?_ waiting
    · intro x hx
      obtain rfl := Option.some.inj hx
      exact ⟨Nat.lt_succ_of_le hm, List.getElem?_eq_getElem hlt, hpermits⟩
    · intro i x hi hi' hx hpermits'
      obtain ⟨hlt', rfl⟩ := List.getElem?_eq_some_iff.mp hx
      rcases Nat.lt_succ_iff_lt_or_eq.mp hi' with hbefore | rfl
      · exact .inr (hskipped i hlt' hi hbefore hpermits')
      · exact .inl ⟨rfl, rfl⟩
  · rw [hreads.lastRead_eq, hresult]
    refine hreads.move h.topic.lastWrite_eq hm hlast.le (by omega) ?_ ?_ waiting
    · exact fun x hx => absurd hx (by simp)
    · intro i x hi hi' hx hpermits'
      obtain ⟨hlt', rfl⟩ := List.getElem?_eq_some_iff.mp hx
      exact .inr (hskipped i hlt' hi hi' hpermits')

/-- A reader that waits is woken before it is overrun. -/
lemma Sound.waitPredicate (h : Sound access s) {r : ℕ} (hr : s.Within r 17) (waiting : Bool) :
    Reads s.accepted (access r) ((s.readers r).move s.accepted.length s.topic.lastWrite
      (s.topic.waitPredicate (access r) (s.readers r).lastRead) waiting) := by
  have hreads := h.readers r
  unfold Within at hr
  rcases h.topic.waitPredicate (access r) hreads.reached_le (Nat.le_of_lt_succ hr) with
    hresult | ⟨hlt, hresult⟩
  · rw [hreads.lastRead_eq, hresult]
    refine hreads.move h.topic.lastWrite_eq le_rfl hreads.reached_le (by omega) ?_ ?_ waiting
    · exact fun x hx => absurd hx (by simp)
    · exact fun i x hi hi' => absurd hi (Nat.not_le.mpr hi')
  · rw [hreads.lastRead_eq, hresult]
    refine hreads.move h.topic.lastWrite_eq (Nat.le_succ _) hlt (by omega) ?_ ?_ waiting
    · intro x hx
      rw [Option.mem_def, Option.ite_none_right_eq_some] at hx
      obtain ⟨hpermits, hx⟩ := hx
      obtain rfl := Option.some.inj hx
      exact ⟨Nat.lt_succ_self _, List.getElem?_eq_getElem hlt, hpermits⟩
    · intro i x hi hi' hx hpermits
      obtain rfl : i = (s.readers r).reached := by omega
      obtain ⟨_, rfl⟩ := List.getElem?_eq_some_iff.mp hx
      exact .inl ⟨rfl, if_pos hpermits⟩

/-- What happens keeps what the readers were given. -/
lemma Sound.step (h : Sound access s) {e : Event} (hfar : s.NotFarBehind e)
    (hoverrun : s.NotOverrun e) : Sound access (s.step access e) := by
  cases e with
  | write data writeAccess topicSrc =>
    refine ⟨h.topic.write data writeAccess topicSrc, fun r => ?_⟩
    unfold CedCloud.step
    dsimp only
    split
    · exact (h.readers r).append _
    · exact h.readers r
  | read r =>
    unfold CedCloud.step
    dsimp only
    split
    · exact h
    · exact h.take (h.readPending hfar) _
  | wake r =>
    unfold CedCloud.step
    dsimp only
    split
    · exact h.take (h.waitPredicate hoverrun) _
    · exact h
  | timeout r =>
    unfold CedCloud.step
    dsimp only
    split
    · exact h.take (h.waitPredicate hoverrun) _
    · exact h

/-- Along every run in which no waiting reader is overrun, every reader is given the samples it
may read in the order of the writes, and misses none but those that were overwritten. -/
theorem read_inOrder (hrun : Transition.Reaches Starts (step access)
      (fun s e => s.NotFarBehind e ∧ s.NotOverrun e) s) (r : ℕ) :
    InOrder s.accepted (access r) (s.readers r) := by
  have h := hrun.invariant (I := Sound access) (fun _ hs => Starts.sound hs)
    fun _ _ h he => h.step he.1 he.2
  have hreads := h.readers r
  exact ⟨hreads.subsequence.trans (List.take_sublist _ _), hreads.permitted,
    fun e he => (hreads.skipped e he).2, hreads.passed⟩

end Runs

/-- A reader for each access right. -/
def rights : ℕ → TopicAccess
  | 0 => .complete
  | 1 => .internal
  | 2 => .external
  | _ => .none

/-- A topic with these readers, after some events. -/
def after (events : List Event) : CedCloud :=
  events.foldl (step rights)
    ⟨.new fun _ => .internal, [], fun _ => ⟨⟨65535, seqNumMax_lt⟩, false, 0, [], []⟩⟩

/-- The `n`-th sample is written. -/
def writeOf (n : ℕ) : Event := .write [UInt8.ofNat n] .complete .internal

instance (s : CedCloud) (e : Event) : Decidable (s.NotFarBehind e) := by
  unfold NotFarBehind Within; split <;> infer_instance

instance (s : CedCloud) (e : Event) : Decidable (s.NotOverrun e) := by
  unfold NotOverrun Within; split <;> infer_instance

/-- Two samples of the Agent itself and one of another Agent are written, while two readers wait;
a writer without the right to it writes nothing. -/
def mixedWrites : List Event :=
  [.read 0, .read 2, writeOf 0, .wake 2, .write [7] .external .external, .write [8] .none .internal,
    .wake 0, .wake 2, writeOf 1, .read 0, .read 1, .read 1, .read 3, .read 0]

/-- Every reader is given what it may read. -/
theorem read_inOrder_after :
    ([0, 1, 2, 3].map fun r => ((after mixedWrites).readers r).obtained.map Prod.snd) =
      [[⟨[0], .internal⟩, ⟨[7], .external⟩, ⟨[1], .internal⟩],
        [⟨[0], .internal⟩, ⟨[1], .internal⟩], [⟨[7], .external⟩], []] ∧
    ∀ r, InOrder (after mixedWrites).accepted (rights r) ((after mixedWrites).readers r) := by
  have hstart : Transition.Reaches Starts (step rights)
      (fun s e => s.NotFarBehind e ∧ s.NotOverrun e) (after []) := .start ⟨_, rfl⟩
  exact ⟨by decide, read_inOrder (hstart.foldl mixedWrites (by decide))⟩

/-- A reader that waits while seventeen samples are written is given the last of them, and then
the second. -/
theorem read_inOrder_fails : ¬ ∀ (access : ℕ → TopicAccess) (s : CedCloud),
    Transition.Reaches Starts (step access) NotFarBehind s →
      ∀ r, InOrder s.accepted (access r) (s.readers r) := by
  intro h
  have hstart : Transition.Reaches Starts (step rights) NotFarBehind (after []) := .start ⟨_, rfl⟩
  have hrun := hstart.foldl (.read 0 :: (List.range 17).map writeOf ++ [.wake 0, .read 0])
    (by decide)
  exact absurd (h _ _ hrun 0).subsequence (by decide)

end CedCloud

end XrceDds
