import XrceDds.Agent.OutputStream

/-!
# What a pushed submessage becomes

`push_submessage` should end, and either leave the stream alone or append messages with
consecutive numbers that carry the submessage (`PushMeets`).  It does so exactly when
`PushFits`: the submessage fits one message, or the MTU leaves room for at least one byte
behind the headers of a FRAGMENT and the submessage is shorter than the counter of the loop
can count, and no message is left under the numbers that the new ones take.
-/

namespace XrceDds

open ByteMemory

namespace ReliableOutputStream

/-! ## Appended messages -/

/-- `stream'` is `stream` with `messages` appended under the numbers behind
`lastUnacked`. -/
structure Appends (stream stream' : ReliableOutputStream) (messages : List (List UInt8)) :
    Prop where
  lastUnacked_eq : stream'.lastUnacked = seqOf (stream.lastUnacked.val + messages.length)
  lastSent_eq : stream'.lastSent = stream.lastSent
  firstUnacked_eq : stream'.firstUnacked = stream.firstUnacked
  fresh : ∀ k < messages.length,
    stream.messages (seqOf (stream.lastUnacked.val + 1 + k)) = none
  stored : ∀ k (hk : k < messages.length),
    stream'.messages (seqOf (stream.lastUnacked.val + 1 + k)) = some messages[k]
  others : ∀ key, (∀ k < messages.length, key ≠ seqOf (stream.lastUnacked.val + 1 + k)) →
    stream'.messages key = stream.messages key

/-- Pushing messages one after the other. -/
def appendAll (stream : ReliableOutputStream) : List (List UInt8) → ReliableOutputStream
  | [] => stream
  | message :: messages => appendAll (stream.nextUnacked.insert message) messages

@[simp] lemma insert_lastUnacked (stream : ReliableOutputStream) (message : List UInt8) :
    (stream.insert message).lastUnacked = stream.lastUnacked := rfl

/-- Counting up moves `lastUnacked` by one. -/
@[simp] lemma nextUnacked_lastUnacked (stream : ReliableOutputStream) :
    stream.nextUnacked.lastUnacked = seqOf (stream.lastUnacked.val + 1) := by
  have h := SeqNum.addInt_seqOf stream.lastUnacked.val (d := 1) (by decide)
  rwa [seqOf_self] at h

/-- The position behind a position is behind its number. -/
lemma seqOf_val_add (X n : ℕ) : seqOf ((seqOf X).val + n) = seqOf (X + n) :=
  Fin.ext (by simp only [seqOf_val, Nat.mod_add_mod])

/-- Every message that is pushed counts. -/
lemma appendAll_lastUnacked (stream : ReliableOutputStream) (messages : List (List UInt8)) :
    (stream.appendAll messages).lastUnacked =
      seqOf (stream.lastUnacked.val + messages.length) := by
  induction messages generalizing stream with
  | nil => simp [appendAll]
  | cons message messages ih =>
    rw [appendAll, ih, insert_lastUnacked, nextUnacked_lastUnacked, seqOf_val_add,
      List.length_cons, Nat.add_assoc, Nat.add_comm 1]

/-- A message is inserted under a number that is free. -/
lemma insert_messages {stream : ReliableOutputStream} {message : List UInt8}
    (h : stream.messages stream.lastUnacked = none) :
    (stream.insert message).messages =
      Function.update stream.messages stream.lastUnacked (some message) := if_pos h

/-- A message that is there stays. -/
lemma insert_messages_of_some {stream : ReliableOutputStream} {message other : List UInt8}
    {key : SeqNum} (h : stream.messages key = some other) :
    (stream.insert message).messages key = some other := by
  unfold insert
  dsimp only
  split
  · next hnone =>
    rw [Function.update_of_ne]
    · exact h
    · rintro rfl
      exact absurd (h.symm.trans hnone) (by simp)
  · exact h

/-- Messages that find their numbers free are appended. -/
theorem appendAll_appends (stream : ReliableOutputStream) (messages : List (List UInt8))
    (hlength : messages.length ≤ 65536)
    (hfresh : ∀ k < messages.length,
      stream.messages (seqOf (stream.lastUnacked.val + 1 + k)) = none) :
    Appends stream (stream.appendAll messages) messages := by
  induction messages generalizing stream with
  | nil =>
    exact ⟨by simp [appendAll], rfl, rfl, hfresh, fun k hk => absurd hk (Nat.not_lt_zero k),
      fun key _ => rfl⟩
  | cons message messages ih =>
    rw [List.length_cons] at hlength
    have hnext : stream.nextUnacked.lastUnacked = seqOf (stream.lastUnacked.val + 1) := by simp
    have hfree : stream.nextUnacked.messages stream.nextUnacked.lastUnacked = none := by
      rw [hnext]
      exact hfresh 0 (Nat.succ_pos _)
    have hinsert : (stream.nextUnacked.insert message).messages =
        Function.update stream.messages (seqOf (stream.lastUnacked.val + 1)) (some message) := by
      rw [insert_messages hfree, hnext]
      rfl
    have hkey : ∀ k, seqOf ((stream.nextUnacked.insert message).lastUnacked.val + 1 + k) =
        seqOf (stream.lastUnacked.val + 1 + (k + 1)) := by
      intro k
      rw [insert_lastUnacked, hnext, Nat.add_assoc, seqOf_val_add, Nat.add_comm 1 k]
    have hne : ∀ k < messages.length, seqOf (stream.lastUnacked.val + 1 + (k + 1)) ≠
        seqOf (stream.lastUnacked.val + 1) := by
      intro k hk heq
      rw [Fin.ext_iff, seqOf_val, seqOf_val] at heq
      omega
    obtain ⟨hlast, hsent, hfirst, -, hstored, hothers⟩ :=
      ih (stream.nextUnacked.insert message) (by omega) fun k hk => by
        rw [hkey, hinsert, Function.update_of_ne (hne k hk)]
        exact hfresh (k + 1) (Nat.succ_lt_succ hk)
    rw [appendAll]
    refine ⟨?_, hsent, hfirst, hfresh, ?_, ?_⟩
    · rw [hlast, insert_lastUnacked, hnext, seqOf_val_add, List.length_cons, Nat.add_assoc,
        Nat.add_comm 1]
    · intro k hk
      cases k with
      | zero =>
        rw [Nat.add_zero, hothers, hinsert]
        · simp
        · intro k hk
          rw [hkey]
          exact (hne k hk).symm
      | succ k =>
        rw [← hkey]
        exact hstored k (Nat.lt_of_succ_lt_succ hk)
    · intro key hout
      rw [hothers, hinsert, Function.update_of_ne]
      · exact hout 0 (Nat.succ_pos _)
      · intro k hk
        rw [hkey]
        exact hout (k + 1) (Nat.succ_lt_succ hk)

/-! ## What the messages carry -/

section Push

variable (sessionInfo : SessionInfo) (streamId : UInt8)

/-- Messages behind the number `last` that carry a submessage: one message with the
submessage in it, or FRAGMENTs of which the last only says that it is the last and whose
payloads make up the submessage, header included. -/
structure Carries (submessageId : UInt8) (submessage : List UInt8) (last : SeqNum)
    (messages : List (List UInt8)) : Prop where
  size_le : ∀ message ∈ messages, message.length ≤ sessionInfo.mtu
  content :
    messages = [(messageHeader sessionInfo streamId (seqOf (last.val + 1))).serialize ++
      (submessageHeader submessageId submessage).serialize ++ submessage] ∨
    ∃ payloads : List (List UInt8), payloads.length = messages.length ∧
      payloads.flatten = (submessageHeader submessageId submessage).serialize ++ submessage ∧
      ∀ k (hk : k < messages.length) (hk' : k < payloads.length), payloads[k].length < 65536 ∧
        messages[k] = (messageHeader sessionInfo streamId (seqOf (last.val + 1 + k))).serialize ++
          (SubmessageHeader.mk fragmentId
            (if k + 1 = messages.length then flagLittleEndianness ||| agentFlagLastFragment
              else flagLittleEndianness) payloads[k].length).serialize ++ payloads[k]

/-- What `push_submessage` should do: end, and if it returns true append messages that
carry the submessage, else leave the stream as it is. -/
def PushMeets (submessageId : UInt8) (submessage : List UInt8) (stream : ReliableOutputStream) :
    Prop :=
  ∃ fuel rv stream',
    pushSubmessage sessionInfo streamId submessageId submessage fuel stream =
        some (.returned rv stream') ∧
      (rv = true → ∃ messages, Appends stream stream' messages ∧
        Carries sessionInfo streamId submessageId submessage stream.lastUnacked messages) ∧
      (rv = false → stream' = stream)

/-- The number of messages that a submessage with `n` bytes, header included, takes. -/
def messageCount (n : ℕ) : ℕ :=
  if headerSize sessionInfo streamId + n ≤ sessionInfo.mtu then 1
  else (n + (sessionInfo.mtu - headerSize sessionInfo streamId - 4) - 1) /
    (sessionInfo.mtu - headerSize sessionInfo streamId - 4)

/-- When `push_submessage` does what it should. -/
structure PushFits (submessage : List UInt8) (stream : ReliableOutputStream) : Prop where
  size : headerSize sessionInfo streamId + (4 + submessage.length) ≤ sessionInfo.mtu ∨
    (headerSize sessionInfo streamId + 4 < sessionInfo.mtu ∧ 4 + submessage.length < 65536)
  fresh : ∀ k < messageCount sessionInfo streamId (4 + submessage.length),
    stream.messages (seqOf (stream.lastUnacked.val + 1 + k)) = none

/-- FRAGMENTs with the given payloads behind the number `last`. -/
def fragmentMessages : SeqNum → List (List UInt8) → List (List UInt8)
  | _, [] => []
  | last, payload :: payloads =>
    ((messageHeader sessionInfo streamId (seqOf (last.val + 1))).serialize ++
        (SubmessageHeader.mk fragmentId
          (if payloads = [] then flagLittleEndianness ||| agentFlagLastFragment
            else flagLittleEndianness) payload.length).serialize ++ payload) ::
      fragmentMessages (seqOf (last.val + 1)) payloads

@[simp] lemma length_fragmentMessages (last : SeqNum) (payloads : List (List UInt8)) :
    (fragmentMessages sessionInfo streamId last payloads).length = payloads.length := by
  induction payloads generalizing last with
  | nil => rfl
  | cons payload payloads ih => simp [fragmentMessages, ih]

/-- The messages one by one. -/
lemma getElem_fragmentMessages (last : SeqNum) (payloads : List (List UInt8)) {k : ℕ}
    (hk : k < (fragmentMessages sessionInfo streamId last payloads).length)
    (hk' : k < payloads.length) :
    (fragmentMessages sessionInfo streamId last payloads)[k] =
      (messageHeader sessionInfo streamId (seqOf (last.val + 1 + k))).serialize ++
        (SubmessageHeader.mk fragmentId
          (if k + 1 = payloads.length then flagLittleEndianness ||| agentFlagLastFragment
            else flagLittleEndianness) payloads[k].length).serialize ++ payloads[k] := by
  induction payloads generalizing last k with
  | nil => exact absurd hk' (Nat.not_lt_zero k)
  | cons payload payloads ih =>
    cases k with
    | zero =>
      have hlast : payloads = [] ↔ 0 + 1 = (payload :: payloads).length := by
        rw [List.length_cons, ← List.length_eq_zero_iff]
        omega
      simp only [fragmentMessages, List.getElem_cons_zero, hlast, Nat.add_zero]
    | succ k =>
      have hrec := ih (seqOf (last.val + 1))
        (by simpa using Nat.lt_of_succ_lt_succ hk') (Nat.lt_of_succ_lt_succ hk')
      simp only [fragmentMessages, List.getElem_cons_succ, hrec, List.length_cons,
        Nat.add_right_cancel_iff]
      rw [Nat.add_assoc, seqOf_val_add, Nat.add_comm 1 k]

/-! ## The loop -/

variable {sessionInfo streamId}

/-- One turn of the loop, when the bytes of the fragment are there. -/
lemma fragmentLoop_succ {flags flags' : UInt8} (fuel : ℕ) (stream : ReliableOutputStream)
    {done chunk rest : List UInt8}
    (hfragment : nextFragment sessionInfo streamId (done ++ (chunk ++ rest)).length done.length
      flags = (chunk.length, flags')) :
    fragmentLoop sessionInfo streamId (done ++ (chunk ++ rest)) (fuel + 1) stream done.length
        flags =
      if (done.length + chunk.length) % 65536 < (done ++ (chunk ++ rest)).length then
        fragmentLoop sessionInfo streamId (done ++ (chunk ++ rest)) fuel
          (stream.nextUnacked.insert
            ((messageHeader sessionInfo streamId (seqOf (stream.lastUnacked.val + 1))).serialize ++
              (SubmessageHeader.mk fragmentId flags' chunk.length).serialize ++ chunk))
          ((done.length + chunk.length) % 65536) flags'
      else some (.returned ((done.length + chunk.length) % 65536 =
          (done ++ (chunk ++ rest)).length)
        (stream.nextUnacked.insert
          ((messageHeader sessionInfo streamId (seqOf (stream.lastUnacked.val + 1))).serialize ++
            (SubmessageHeader.mk fragmentId flags' chunk.length).serialize ++ chunk))) := by
  have happend : (OutputMessage.new
      (messageHeader sessionInfo streamId (seqOf (stream.lastUnacked.val + 1)))
      (headerSize sessionInfo streamId + 4 + chunk.length)).appendFragment
      ⟨fragmentId, flags', chunk.length⟩ chunk = _ := OutputMessage.appendFragment_new _ _ _
  have hchunk : ((done ++ (chunk ++ rest)).drop done.length).take chunk.length = chunk := by
    rw [List.drop_left, List.take_left]
  rw [fragmentLoop, hfragment]
  dsimp only
  rw [if_neg (by simp), hchunk, nextUnacked_lastUnacked, happend]

/-- A loop that returns has sent all bytes, which are fewer than it can count, and has kept
every message that was there. -/
theorem fragmentLoop_returned {buf : List UInt8} {fuel : ℕ} {stream stream' : ReliableOutputStream}
    {s : ℕ} {flags : UInt8} {rv : Bool} (hs : s < buf.length)
    (h : fragmentLoop sessionInfo streamId buf fuel stream s flags = some (.returned rv stream')) :
    rv = true ∧ buf.length < 65536 ∧
      ∀ key message, stream.messages key = some message → stream'.messages key = some message := by
  induction fuel generalizing stream s flags with
  | zero => exact absurd h nofun
  | succ fuel ih =>
    by_cases hbound : buf.length <
        s + (nextFragment sessionInfo streamId buf.length s flags).1
    · rw [fragmentLoop] at h
      dsimp only at h
      rw [if_pos hbound] at h
      exact absurd h (by simp)
    · obtain ⟨done, tail, rfl, rfl⟩ : ∃ done tail, buf = done ++ tail ∧ s = done.length :=
        ⟨buf.take s, buf.drop s, (List.take_append_drop s buf).symm, by
          rw [List.length_take]
          omega⟩
      obtain ⟨⟨size, flags'⟩, hfragment⟩ :
          ∃ f, nextFragment sessionInfo streamId (done ++ tail).length done.length flags = f :=
        ⟨_, rfl⟩
      rw [hfragment, List.length_append] at hbound
      obtain ⟨chunk, rest, rfl, rfl⟩ : ∃ chunk rest, tail = chunk ++ rest ∧ size = chunk.length :=
        ⟨tail.take size, tail.drop size, (List.take_append_drop size tail).symm, by
          rw [List.length_take]
          omega⟩
      rw [fragmentLoop_succ fuel stream hfragment] at h
      have hkeep : ∀ (message : List UInt8) key other, stream.messages key = some other →
          (stream.nextUnacked.insert message).messages key = some other :=
        fun message key other hother => insert_messages_of_some hother
      split at h
      · next hlt =>
        obtain ⟨hrv, hlen, hmono⟩ := ih hlt h
        exact ⟨hrv, hlen, fun key other hother => hmono key other (hkeep _ key other hother)⟩
      · next hge =>
        simp only [Option.some.injEq, PushResult.returned.injEq] at h
        obtain ⟨hrv, rfl⟩ := h
        have hmod : (done.length + chunk.length) % 65536 < 65536 := Nat.mod_lt _ (by decide)
        have hmodle := Nat.mod_le (done.length + chunk.length) 65536
        simp only [List.length_append] at hge hrv hs ⊢
        refine ⟨?_, by omega, hkeep _⟩
        rw [← hrv]
        exact decide_eq_true (by omega)

/-- Where the MTU leaves room behind the headers of a FRAGMENT, the loop sends the bytes in
as many fragments as they need. -/
theorem fragmentLoop_total {m : ℕ}
    (hm : sessionInfo.mtu = headerSize sessionInfo streamId + 4 + m) (hpos : 0 < m)
    (hlt : m < 65536) (n : ℕ) (done rest : List UInt8) (stream : ReliableOutputStream)
    (hn : rest.length ≤ n) (hrest : rest ≠ []) (hsize : (done ++ rest).length < 65536) :
    ∃ fuel payloads, payloads.flatten = rest ∧ (∀ p ∈ payloads, p.length ≤ m) ∧
      payloads.length = (rest.length + m - 1) / m ∧
      fragmentLoop sessionInfo streamId (done ++ rest) fuel stream done.length
          flagLittleEndianness =
        some (.returned true (stream.appendAll
          (fragmentMessages sessionInfo streamId stream.lastUnacked payloads))) := by
  induction n generalizing done rest stream with
  | zero => exact absurd (List.eq_nil_of_length_eq_zero (by omega)) hrest
  | succ n ih =>
    have hrestpos := List.length_pos_of_ne_nil hrest
    have hmax : maxFragmentSize sessionInfo streamId = m := by
      unfold maxFragmentSize
      omega
    rw [List.length_append] at hsize
    rcases Nat.lt_or_ge m rest.length with hmore | hlast
    · -- a whole fragment, and more behind it
      obtain ⟨chunk, rest, rfl, rfl⟩ : ∃ chunk rest', rest = chunk ++ rest' ∧ m = chunk.length :=
        ⟨rest.take m, rest.drop m, (List.take_append_drop m rest).symm, by
          rw [List.length_take]
          omega⟩
      rw [List.length_append] at hsize hmore hn
      have hne : rest ≠ [] := List.ne_nil_of_length_pos (by omega)
      have hfragment :
        nextFragment sessionInfo streamId (done ++ (chunk ++ rest)).length done.length
          flagLittleEndianness = (chunk.length, flagLittleEndianness) := by
        unfold nextFragment
        rw [if_pos (by simp only [List.length_append]; omega), hmax, Nat.mod_eq_of_lt hlt]
      obtain ⟨fuel, payloads, hflatten, hle, hcount, hloop⟩ := ih (done ++ chunk) rest
        (stream.nextUnacked.insert
          ((messageHeader sessionInfo streamId (seqOf (stream.lastUnacked.val + 1))).serialize ++
            (SubmessageHeader.mk fragmentId flagLittleEndianness chunk.length).serialize ++ chunk))
        (by omega) hne (by simp only [List.length_append]; omega)
      have hpayloads : payloads ≠ [] := by
        rintro rfl
        exact hne hflatten.symm
      refine ⟨fuel + 1, chunk :: payloads, by rw [List.flatten_cons, hflatten], ?_, ?_, ?_⟩
      · intro p hp
        rcases List.mem_cons.mp hp with rfl | hp
        · exact le_rfl
        · exact hle p hp
      · rw [List.length_cons, hcount, List.length_append,
          show chunk.length + rest.length + chunk.length - 1 =
            rest.length + chunk.length - 1 + chunk.length by omega, Nat.add_div_right _ hpos]
      · rw [fragmentLoop_succ fuel stream hfragment,
          if_pos (by simp only [List.length_append]; omega),
          Nat.mod_eq_of_lt (by omega), ← List.append_assoc, ← List.length_append, hloop]
        simp only [fragmentMessages, appendAll, if_neg hpayloads, insert_lastUnacked,
          nextUnacked_lastUnacked]
    · -- the last fragment
      refine ⟨1, [rest], by simp, by simpa using hlast, ?_, ?_⟩
      · rw [List.length_singleton]
        exact (Nat.div_eq_of_lt_le (by omega) (by omega)).symm
      · have hfragment : nextFragment sessionInfo streamId (done ++ (rest ++ [])).length done.length
            flagLittleEndianness =
              (rest.length, flagLittleEndianness ||| agentFlagLastFragment) := by
          unfold nextFragment
          rw [if_neg (by simp only [List.append_nil, List.length_append]; omega)]
          simp only [List.append_nil, List.length_append, Nat.add_sub_cancel_left]
          rw [Nat.mod_eq_of_lt (by omega)]
        have hstep := fragmentLoop_succ 0 stream hfragment
        rw [List.append_nil] at hstep
        rw [hstep, if_neg (by rw [List.length_append]; omega)]
        rw [List.length_append, Nat.mod_eq_of_lt (by omega)]
        simp [fragmentMessages, appendAll]

/-- More fuel does not change what the loop comes to. -/
lemma fragmentLoop_succ_fuel {buf : List UInt8} {fuel : ℕ} {stream : ReliableOutputStream} {s : ℕ}
    {flags : UInt8} {r : PushResult}
    (h : fragmentLoop sessionInfo streamId buf fuel stream s flags = some r) :
    fragmentLoop sessionInfo streamId buf (fuel + 1) stream s flags = some r := by
  induction fuel generalizing stream s flags with
  | zero => exact absurd h nofun
  | succ fuel ih =>
    rw [fragmentLoop] at h ⊢
    dsimp only at h ⊢
    split
    · next hbound =>
      rw [if_pos hbound] at h
      exact h
    · next hbound =>
      rw [if_neg hbound] at h
      split
      · next message hmessage =>
        rw [hmessage] at h
        dsimp only at h
        split
        · next hlt =>
          rw [if_pos hlt] at h
          exact ih h
        · next hge =>
          rw [if_neg hge] at h
          exact h
      · next hmessage =>
        rw [hmessage] at h
        exact h

/-- What the loop comes to does not depend on the fuel. -/
lemma fragmentLoop_deterministic {buf : List UInt8} {fuel fuel' : ℕ}
    {stream : ReliableOutputStream} {s : ℕ} {flags : UInt8} {r r' : PushResult}
    (h : fragmentLoop sessionInfo streamId buf fuel stream s flags = some r)
    (h' : fragmentLoop sessionInfo streamId buf fuel' stream s flags = some r') : r = r' := by
  have hmore : ∀ {n : ℕ} {x : PushResult} (k : ℕ),
      fragmentLoop sessionInfo streamId buf n stream s flags = some x →
        fragmentLoop sessionInfo streamId buf (n + k) stream s flags = some x := by
    intro n x k hx
    induction k with
    | zero => exact hx
    | succ k ih => exact fragmentLoop_succ_fuel ih
  have := (hmore fuel' h).symm.trans (Nat.add_comm fuel fuel' ▸ hmore fuel h')
  exact Option.some.inj this

/-! ## The three kinds of calls -/

variable {submessageId : UInt8} {submessage : List UInt8} {stream : ReliableOutputStream}

/-- The length of a header does not depend on the sequence number. -/
lemma length_messageHeader (sequenceNr : SeqNum) :
    (messageHeader sessionInfo streamId sequenceNr).serialize.length =
      headerSize sessionInfo streamId := MessageHeader.length_serialize _

/-- A submessage that fits is pushed as one message. -/
lemma pushSubmessage_fits (hroom : stream.HasRoom)
    (hfits : headerSize sessionInfo streamId + (4 + submessage.length) ≤ sessionInfo.mtu)
    (hmtu : sessionInfo.mtu < 65536) (fuel : ℕ) :
    pushSubmessage sessionInfo streamId submessageId submessage fuel stream =
      some (.returned true (stream.appendAll
        [(messageHeader sessionInfo streamId (seqOf (stream.lastUnacked.val + 1))).serialize ++
          (submessageHeader submessageId submessage).serialize ++ submessage])) := by
  have happend : (OutputMessage.new
      (messageHeader sessionInfo streamId (seqOf (stream.lastUnacked.val + 1)))
      (headerSize sessionInfo streamId + (4 + submessage.length))).appendSubmessage
      submessageId submessage flagLittleEndianness = _ := OutputMessage.appendSubmessage_new _ _ _ _
  unfold pushSubmessage
  dsimp only
  rw [if_pos hroom, if_pos hfits, nextUnacked_lastUnacked, happend]
  simp only [appendAll, submessageHeader,
    Nat.mod_eq_of_lt (show submessage.length < 65536 by omega)]

/-- The serialized submessage, header included. -/
lemma length_buf : ((submessageHeader submessageId submessage).serialize ++ submessage).length =
    4 + submessage.length := by
  rw [List.length_append, SubmessageHeader.length_serialize]

/-- A submessage that does not fit goes through the loop. -/
lemma pushSubmessage_fragments (hroom : stream.HasRoom)
    (hfits : ¬ headerSize sessionInfo streamId + (4 + submessage.length) ≤ sessionInfo.mtu)
    (fuel : ℕ) :
    pushSubmessage sessionInfo streamId submessageId submessage fuel stream =
      fragmentLoop sessionInfo streamId
        ((submessageHeader submessageId submessage).serialize ++ submessage) fuel stream 0
        flagLittleEndianness := by
  unfold pushSubmessage
  rw [if_pos hroom, if_neg hfits]

/-- What a call comes to does not depend on the fuel. -/
lemma pushSubmessage_deterministic {fuel fuel' : ℕ} {r r' : PushResult}
    (h : pushSubmessage sessionInfo streamId submessageId submessage fuel stream = some r)
    (h' : pushSubmessage sessionInfo streamId submessageId submessage fuel' stream = some r') :
    r = r' := by
  unfold pushSubmessage at h h'
  dsimp only at h h'
  split at h
  · next hroom =>
    rw [if_pos hroom] at h'
    split at h
    · next hfits =>
      rw [if_pos hfits] at h'
      exact Option.some.inj (h.symm.trans h')
    · next hfits =>
      rw [if_neg hfits] at h'
      exact fragmentLoop_deterministic h h'
  · next hroom =>
    rw [if_neg hroom] at h'
    exact Option.some.inj (h.symm.trans h')

/-- A submessage that does not fit, with room behind the headers of a FRAGMENT, is pushed
in fragments. -/
lemma pushSubmessage_total (submessageId : UInt8) (hroom : stream.HasRoom)
    (hfits : ¬ headerSize sessionInfo streamId + (4 + submessage.length) ≤ sessionInfo.mtu)
    (hspace : headerSize sessionInfo streamId + 4 < sessionInfo.mtu)
    (hsize : 4 + submessage.length < 65536) :
    ∃ fuel payloads,
      payloads.flatten = (submessageHeader submessageId submessage).serialize ++ submessage ∧
      (∀ p ∈ payloads, headerSize sessionInfo streamId + 4 + p.length ≤ sessionInfo.mtu) ∧
      payloads.length = messageCount sessionInfo streamId (4 + submessage.length) ∧
      pushSubmessage sessionInfo streamId submessageId submessage fuel stream =
        some (.returned true (stream.appendAll
          (fragmentMessages sessionInfo streamId stream.lastUnacked payloads))) := by
  obtain ⟨fuel, payloads, hflatten, hle, hcount, hloop⟩ :=
    fragmentLoop_total (show sessionInfo.mtu = headerSize sessionInfo streamId + 4 +
      (sessionInfo.mtu - headerSize sessionInfo streamId - 4) by omega) (by omega) (by omega) _ []
      ((submessageHeader submessageId submessage).serialize ++ submessage) stream le_rfl
      (List.ne_nil_of_length_pos (by rw [length_buf]; omega))
      (by rw [List.nil_append, length_buf]; exact hsize)
  refine ⟨fuel, payloads, hflatten, fun p hp => ?_, ?_, ?_⟩
  · have := hle p hp
    omega
  · rw [hcount, length_buf, messageCount, if_neg hfits]
  · rw [pushSubmessage_fragments hroom hfits]
    exact hloop

/-- Where the MTU has room for the headers of a FRAGMENT and no more, the loop does not
end. -/
lemma fragmentLoop_diverges (hmtu : sessionInfo.mtu = headerSize sessionInfo streamId + 4)
    {buf : List UInt8} (hbuf : buf ≠ []) (fuel : ℕ) :
    fragmentLoop sessionInfo streamId buf fuel stream 0 flagLittleEndianness = none := by
  have hpos := List.length_pos_of_ne_nil hbuf
  have hfragment : nextFragment sessionInfo streamId ([] ++ ([] ++ buf)).length
      ([] : List UInt8).length flagLittleEndianness =
        (([] : List UInt8).length, flagLittleEndianness) := by
    unfold nextFragment maxFragmentSize
    rw [if_pos (by simp only [List.nil_append, List.length_nil]; omega), Prod.mk.injEq]
    exact ⟨by simp only [List.length_nil]; omega, rfl⟩
  induction fuel generalizing stream with
  | zero => rfl
  | succ fuel ih =>
    have hstep := fragmentLoop_succ fuel stream hfragment
    rw [if_pos (by simpa using hpos)] at hstep
    exact hstep.trans ih

/-- Where the MTU has no room for the headers of a FRAGMENT, a loop that returns has pushed
a message that is longer than the MTU. -/
lemma fragmentLoop_underflow (hmtu : sessionInfo.mtu < headerSize sessionInfo streamId + 4)
    {buf : List UInt8} {fuel : ℕ} {rv : Bool} {stream' : ReliableOutputStream}
    (h : fragmentLoop sessionInfo streamId buf fuel stream 0 flagLittleEndianness =
      some (.returned rv stream'))
    (hfresh : stream.messages (seqOf (stream.lastUnacked.val + 1)) = none) :
    ∃ message, stream'.messages (seqOf (stream.lastUnacked.val + 1)) = some message ∧
      sessionInfo.mtu < message.length := by
  cases fuel with
  | zero => exact absurd h nofun
  | succ fuel =>
    have hheader : headerSize sessionInfo streamId = 8 ∨ headerSize sessionInfo streamId = 4 :=
      MessageHeader.getCdrSerializedSize_cases _
    obtain ⟨size, hsize, hlarge⟩ : ∃ size, maxFragmentSize sessionInfo streamId % 65536 = size ∧
        headerSize sessionInfo streamId + 4 + size = sessionInfo.mtu + 65536 := by
      refine ⟨_, rfl, ?_⟩
      unfold maxFragmentSize
      omega
    have hfragment : nextFragment sessionInfo streamId buf.length 0 flagLittleEndianness =
        (size, flagLittleEndianness) := by
      unfold nextFragment
      rw [if_pos (by omega), hsize]
    by_cases hbound : buf.length < size
    · rw [fragmentLoop, hfragment] at h
      dsimp only at h
      rw [if_pos (by omega)] at h
      exact absurd h (by simp)
    · obtain ⟨chunk, rest, rfl, rfl⟩ : ∃ chunk rest, buf = chunk ++ rest ∧ size = chunk.length :=
        ⟨buf.take size, buf.drop size, (List.take_append_drop size buf).symm, by
          rw [List.length_take]
          omega⟩
      have hfragment' : nextFragment sessionInfo streamId ([] ++ (chunk ++ rest)).length
          ([] : List UInt8).length flagLittleEndianness = (chunk.length, flagLittleEndianness) :=
        hfragment
      have hstep := fragmentLoop_succ fuel stream hfragment'
      obtain ⟨message, hmessage⟩ : ∃ message, message =
          (messageHeader sessionInfo streamId (seqOf (stream.lastUnacked.val + 1))).serialize ++
            (SubmessageHeader.mk fragmentId flagLittleEndianness chunk.length).serialize ++ chunk :=
        ⟨_, rfl⟩
      have hlong : sessionInfo.mtu < message.length := by
        rw [hmessage, List.length_append, List.length_append, length_messageHeader,
          SubmessageHeader.length_serialize]
        omega
      have hstored : (stream.nextUnacked.insert message).messages
          (seqOf (stream.lastUnacked.val + 1)) = some message := by
        rw [insert_messages (by rw [nextUnacked_lastUnacked]; exact hfresh),
          nextUnacked_lastUnacked, Function.update_self]
      rw [← hmessage] at hstep
      refine ⟨message, ?_, hlong⟩
      change fragmentLoop sessionInfo streamId (chunk ++ rest) _ _ 0 _ = _ at hstep
      rw [hstep] at h
      split at h
      · next hlt => exact (fragmentLoop_returned hlt h).2.2 _ _ hstored
      · simp only [Option.some.injEq, PushResult.returned.injEq] at h
        rw [← h.2]
        exact hstored

/-! ## The result -/

/-- A submessage is carried by one message at least. -/
lemma Carries.length_pos {last : SeqNum} {messages : List (List UInt8)}
    (h : Carries sessionInfo streamId submessageId submessage last messages) :
    0 < messages.length := by
  rcases h.content with rfl | ⟨payloads, hlength, hflatten, -⟩
  · exact Nat.one_pos
  · rw [← hlength]
    refine List.length_pos_of_ne_nil ?_
    rintro rfl
    have := congrArg List.length hflatten
    rw [length_buf, List.flatten_nil, List.length_nil] at this
    omega

/-- FRAGMENTs that fit the MTU carry the submessage they are cut from. -/
lemma carries_fragmentMessages (hmtu : sessionInfo.mtu < 65536) (last : SeqNum)
    {payloads : List (List UInt8)}
    (hflatten : payloads.flatten =
      (submessageHeader submessageId submessage).serialize ++ submessage)
    (hle : ∀ p ∈ payloads, headerSize sessionInfo streamId + 4 + p.length ≤ sessionInfo.mtu) :
    Carries sessionInfo streamId submessageId submessage last
      (fragmentMessages sessionInfo streamId last payloads) := by
  have hlength := length_fragmentMessages sessionInfo streamId last payloads
  constructor
  · intro message hmessage
    obtain ⟨k, hk, rfl⟩ := List.getElem_of_mem hmessage
    have := hle _ (List.getElem_mem (hlength ▸ hk))
    rw [getElem_fragmentMessages sessionInfo streamId last payloads hk (hlength ▸ hk),
      List.length_append, List.length_append, length_messageHeader,
      SubmessageHeader.length_serialize]
    exact this
  · refine .inr ⟨payloads, hlength.symm, hflatten, fun k hk hk' => ⟨?_, ?_⟩⟩
    · have := hle _ (List.getElem_mem hk')
      omega
    · rw [getElem_fragmentMessages sessionInfo streamId last payloads hk hk', hlength]

/-- A submessage is at most 65535 messages. -/
lemma messageCount_lt (hsize : 4 + submessage.length < 65536) :
    messageCount sessionInfo streamId (4 + submessage.length) < 65536 := by
  unfold messageCount
  split
  · decide
  · generalize sessionInfo.mtu - headerSize sessionInfo streamId - 4 = m
    rcases Nat.eq_zero_or_pos m with rfl | hpos
    · simp
    · exact Nat.div_lt_of_lt_mul (by omega)

/-- Messages that were pushed before others are behind the numbers before theirs. -/
lemma Appends.fresh_of_lastUnacked {stream' : ReliableOutputStream}
    {messages : List (List UInt8)} (h : Appends stream stream' messages) {n : ℕ} (hn : n < 65536)
    (hlast : stream'.lastUnacked = seqOf (stream.lastUnacked.val + n)) :
    ∀ k < n, stream.messages (seqOf (stream.lastUnacked.val + 1 + k)) = none := by
  intro k hk
  refine h.fresh k ?_
  have heq := h.lastUnacked_eq.symm.trans hlast
  rw [Fin.ext_iff, seqOf_val, seqOf_val] at heq
  omega

/-- With room in the window, and for every MTU that fits in 16 bits, `push_submessage` does
what it should if and only if the submessage fits. -/
theorem push_meets_iff (hroom : stream.HasRoom) (hmtu : sessionInfo.mtu < 65536)
    (submessageId : UInt8) (submessage : List UInt8) :
    PushMeets sessionInfo streamId submessageId submessage stream ↔
      PushFits sessionInfo streamId submessage stream := by
  constructor
  · rintro ⟨fuel, rv, stream', hpush, htrue, -⟩
    by_cases hfits : headerSize sessionInfo streamId + (4 + submessage.length) ≤ sessionInfo.mtu
    · rw [pushSubmessage_fits hroom hfits hmtu] at hpush
      simp only [Option.some.injEq, PushResult.returned.injEq] at hpush
      obtain ⟨rfl, rfl⟩ := hpush
      obtain ⟨messages, happends, -⟩ := htrue rfl
      refine ⟨.inl hfits, ?_⟩
      rw [messageCount, if_pos hfits]
      exact happends.fresh_of_lastUnacked (by decide) (appendAll_lastUnacked _ _)
    · have hloop := hpush
      rw [pushSubmessage_fragments hroom hfits] at hloop
      obtain ⟨rfl, hsize, -⟩ := fragmentLoop_returned (by rw [length_buf]; omega) hloop
      rw [length_buf] at hsize
      obtain ⟨messages, happends, hcarries⟩ := htrue rfl
      rcases Nat.lt_trichotomy sessionInfo.mtu (headerSize sessionInfo streamId + 4) with
        hlt | heq | hgt
      · have hpos := hcarries.length_pos
        obtain ⟨message, hstored, hlong⟩ :=
          fragmentLoop_underflow hlt hloop (happends.fresh 0 hpos)
        have hfirst := (happends.stored 0 hpos).symm.trans hstored
        rw [Option.some.injEq] at hfirst
        have hsmall := hcarries.size_le _ (List.getElem_mem hpos)
        rw [hfirst] at hsmall
        omega
      · rw [fragmentLoop_diverges heq (List.ne_nil_of_length_pos (by rw [length_buf]; omega))]
          at hloop
        exact absurd hloop (by simp)
      · obtain ⟨fuel', payloads, -, -, hcount, hpush'⟩ :=
          pushSubmessage_total submessageId hroom hfits hgt hsize
        have hsame := pushSubmessage_deterministic hpush hpush'
        simp only [PushResult.returned.injEq, true_and] at hsame
        refine ⟨.inr ⟨hgt, hsize⟩, happends.fresh_of_lastUnacked (messageCount_lt hsize) ?_⟩
        rw [hsame, appendAll_lastUnacked, length_fragmentMessages, hcount]
  · rintro ⟨hsize, hfresh⟩
    by_cases hfits : headerSize sessionInfo streamId + (4 + submessage.length) ≤ sessionInfo.mtu
    · rw [messageCount, if_pos hfits] at hfresh
      refine ⟨0, true, _, pushSubmessage_fits hroom hfits hmtu 0, fun _ =>
        ⟨_, appendAll_appends stream _ (by simp) hfresh, ?_, .inl rfl⟩, fun h => absurd h (by simp)⟩
      intro message hmessage
      rw [List.mem_singleton.mp hmessage, List.length_append, List.length_append,
        length_messageHeader, SubmessageHeader.length_serialize]
      omega
    · obtain ⟨hspace, hsize⟩ := hsize.resolve_left hfits
      obtain ⟨fuel, payloads, hflatten, hle, hcount, hpush⟩ :=
        pushSubmessage_total submessageId hroom hfits hspace hsize
      have hlt : messageCount sessionInfo streamId (4 + submessage.length) < 65536 :=
        messageCount_lt hsize
      refine ⟨fuel, true, _, hpush, fun _ => ⟨_, appendAll_appends stream _ ?_ ?_,
        carries_fragmentMessages hmtu _ hflatten hle⟩, fun h => absurd h (by simp)⟩
      · rw [length_fragmentMessages]
        omega
      · rw [length_fragmentMessages, hcount]
        exact hfresh

end Push

/-- A session without a client key and with the given MTU. -/
def sessionOfMtu (mtu : ℕ) : SessionInfo := ⟨[0, 0, 0, 0], 128, mtu, clientkeyInvalid_length⟩

/-- Five bytes are pushed in five fragments where the MTU leaves room for two bytes
each. -/
theorem push_meets_iff_reset :
    PushMeets (sessionOfMtu 10) 128 5 [1, 2, 3, 4, 5] reset :=
  (push_meets_iff (show reset.HasRoom by decide) (show (sessionOfMtu 10).mtu < 65536 by decide) 5
    [1, 2, 3, 4, 5]).mpr ⟨.inr (by decide), fun _ _ => rfl⟩

/-- Where the MTU has room for the headers of a FRAGMENT and no more, pushing does not end. -/
theorem push_diverges :
    reset.HasRoom ∧ ¬ PushMeets (sessionOfMtu 8) 128 5 [1, 2, 3, 4, 5] reset := by
  refine ⟨by decide, ?_⟩
  rintro ⟨fuel, rv, stream', hpush, -⟩
  rw [pushSubmessage_fragments (by decide) (by decide),
    fragmentLoop_diverges (by decide) (by decide)] at hpush
  exact absurd hpush nofun

end ReliableOutputStream

end XrceDds
