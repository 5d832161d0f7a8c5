import XrceDds.Agent.Root
import XrceDds.Client.InfoPayload
import XrceDds.Transport.FramedRead

/-!
# The ping of an Agent

`uxr_ping_agent_attempts` sends a GET_INFO without a client key, and takes a datagram for the answer
when `uxr_acknack_pong` accepts what is behind twelve bytes.  These are the bytes of the headers of
a message with a client key; without one the payload begins four bytes before.  What kind of
submessage it is, and an activity of what kind, does not matter; and every call of the transport is
given the whole timeout.

The Agent replies to a ping with the session header of its request, so without a client key.
`ping_kept_iff` says of which datagrams and times a ping succeeds exactly on the INFO of an Agent
that is available.
-/

namespace XrceDds

/-! ## The reply of the Agent -/

/-- `EPROSIMA_VENDOR_ID`. -/
def eprosimaVendorId : List UInt8 := [0x01, 0x0F]

/-- The message of `Processor::process_get_info_packet` for a request with this session header, of
four or eight bytes, and these ids: the configuration of `Root::get_info`, and an activity without
addresses. -/
def processGetInfoPacket (header requestId objectId : List UInt8) : List UInt8 :=
  let config := xrceCookie ++ [xrceVersionMajor, 0x00] ++ eprosimaVendorId ++ [0]
  let availability : List UInt8 := [1, 0]
  header ++ [submessageIdInfo, flagEndianness, 28, 0] ++ requestId ++ objectId ++ [0, 0] ++
    [1, ddsXrceObjkAgent] ++ config ++ [1, ddsXrceObjkAgent, 0] ++ availability ++ [0, 0] ++
    [0, 0, 0, 0]

namespace Ping

/-! ## A datagram -/

/-- The memory of an `INFO_Payload`. -/
structure PingMemory where
  objectInfo : ObjectInfoMemory
  kind : UInt8
  availability : List UInt8

/-- `uxr_acknack_pong`. -/
def uxrAcknackPong (reader : InfoReader) (unset : PingMemory) (ub : ReadBuffer) : Bool :=
  let start := deserializeInfoStart reader reader.machineLittle unset.objectInfo ub
  if start.optionalActivity then
    let kind := start.ub.deserializeByte
    let success := start.ret && kind.2.isSome
    if success && kind.2.getD unset.kind == ddsXrceObjkAgent then
      let availability := kind.1.deserializeNumber 2
      success && availability.2.isSome &&
        (availability.2.getD unset.availability).any (· != 0)
    else success
  else false

/-- `advance_len`. -/
def advanceLen : ℕ := 1 + 1 + 2 + 4 + 1 + 1 + 2

/-- What is behind `ucdr_advance_buffer`. -/
def advanced (datagram : List UInt8) : ReadBuffer :=
  ((ReadBuffer.mk datagram 0).deserialize advanceLen).1

/-- What is received, and what is then in the memory of an `INFO_Payload`. -/
abbrev PingOutcome := DatagramOutcome PingMemory

/-- `listen_info_message`. -/
def listenInfoMessage (reader : InfoReader) (outcome : PingOutcome) : Bool :=
  match outcome.datagram with
  | none => false
  | some datagram => uxrAcknackPong reader outcome.unset (advanced datagram)

/-! ## The attempts -/

/-- A call of `listen_info_message`: the timeout that it was given, the milliseconds since the
request before and after, what was received, and whether that is a pong. -/
structure PingListen where
  timeout : ℤ
  start : ℕ
  stop : ℕ
  datagram : Option (List UInt8)
  pong : Bool

/-- How an attempt ends: with a pong, or with its poll; or it still listens. -/
inductive PingEnding where
  | pong | expired | waiting
  deriving DecidableEq

/-- The calls of an attempt, and how it ends. -/
structure PingAttempt where
  listens : List PingListen
  ending : PingEnding

/-- The inner loop of `uxr_ping_agent_attempts`, over what is received, with what is received behind
it. -/
def listenLoop (reader : InfoReader) (timeout poll : ℤ) (elapsed : ℕ) :
    List PingOutcome → PingAttempt × List PingOutcome
  | [] => (⟨[], if 0 < poll then .waiting else .expired⟩, [])
  | outcome :: outcomes =>
    if 0 < poll then
      let stop := elapsed + outcome.duration
      let pong := listenInfoMessage reader outcome
      let listen : PingListen := ⟨timeout, elapsed, stop, outcome.datagram, pong⟩
      if pong then (⟨[listen], .pong⟩, outcomes)
      else
        let rest :=
          listenLoop reader timeout (intCast (poll - intCast outcome.duration)) stop outcomes
        (⟨listen :: rest.1.listens, rest.1.ending⟩, rest.2)
    else (⟨[], .expired⟩, outcome :: outcomes)

/-- `uxr_ping_agent_attempts`, over what is received.  Where that ends, an attempt still listens. -/
def uxrPingAgentAttempts (reader : InfoReader) (timeout : ℤ) :
    ℕ → List PingOutcome → List PingAttempt
  | 0, _ => []
  | attempts + 1, outcomes =>
    let r := listenLoop reader timeout timeout 0 outcomes
    if r.1.ending = .expired then r.1 :: uxrPingAgentAttempts reader timeout attempts r.2
    else [r.1]

/-- The result of `uxr_ping_agent_attempts`. -/
def agentPong (run : List PingAttempt) : Bool :=
  run.any fun attempt => attempt.ending = .pong

/-! ## What the ping is for -/

/-- A buffer at an availability that is not zero. -/
def available (ub : ReadBuffer) : Bool :=
  (ub.deserializeNumber 2).2.any fun availability => availability.any (· != 0)

/-- A datagram is the INFO of an Agent that is available. -/
def announcesAgent (reader : InfoReader) (datagram : List UInt8) : Bool :=
  match readInfoHeaders datagram with
  | none => false
  | some (id, little, ub) =>
    id == submessageIdInfo && (infoActivity reader little ub).any fun activity =>
      activity.1 == ddsXrceObjkAgent && available activity.2

/-- The INFO of an Agent that is available was received. -/
def PingListen.IsPong (reader : InfoReader) (listen : PingListen) : Prop :=
  ∃ datagram ∈ listen.datagram, announcesAgent reader datagram = true

/-- A call returns in the time of the attempt, and a millisecond. -/
def PingListen.InTime (timeout : ℤ) (listen : PingListen) : Prop := (listen.stop : ℤ) ≤ timeout + 1

/-- The ping succeeds when an INFO of an available Agent was received in time, nothing else counts,
and no call may wait for longer than the attempt. -/
structure PingKept (reader : InfoReader) (timeout : ℤ) (run : List PingAttempt) : Prop where
  returns : agentPong run = true ↔ ∃ attempt ∈ run, ∃ listen ∈ attempt.listens,
    listen.InTime timeout ∧ listen.IsPong reader
  counts : ∀ attempt ∈ run, ∀ listen ∈ attempt.listens, listen.pong = true → listen.IsPong reader
  waits : ∀ attempt ∈ run, ∀ listen ∈ attempt.listens, listen.start + listen.timeout ≤ timeout

/-- A call returns when its timeout is over, at most a millisecond late. -/
def PingListen.Punctual (listen : PingListen) : Prop :=
  (listen.stop : ℤ) ≤ listen.start + listen.timeout + 1

instance : DecidablePred PingListen.Punctual := fun listen =>
  inferInstanceAs (Decidable ((listen.stop : ℤ) ≤ listen.start + listen.timeout + 1))

/-- What is read of a datagram behind twelve bytes counts as a pong: an activity, and if it is that
of an Agent, one that is available. -/
def countsAsPong (reader : InfoReader) (datagram : List UInt8) : Bool :=
  (infoActivity reader reader.machineLittle (advanced datagram)).any fun activity =>
    activity.1 != ddsXrceObjkAgent || available activity.2

/-- What counts as a pong in a message with a client key and the numbers of the machine is an INFO
with the activity of an Agent.  Another message counts exactly if it is the INFO of an Agent that is
available, although what is read is not its payload, or not in its order. -/
def DatagramFits (reader : InfoReader) (datagram : List UInt8) : Prop :=
  match readInfoHeaders datagram with
  | none => True
  | some (id, little, ub) =>
    if ub.offset = advanceLen ∧ little = reader.machineLittle then
      countsAsPong reader datagram = true →
        id = submessageIdInfo ∧
          (infoActivity reader little ub).map Prod.fst = some ddsXrceObjkAgent
    else countsAsPong reader datagram = announcesAgent reader datagram

/-- A call begins in the millisecond of the request, and what it receives fits. -/
structure PingListen.Fits (reader : InfoReader) (listen : PingListen) : Prop where
  atOnce : listen.start = 0
  datagram : ∀ datagram ∈ listen.datagram, DatagramFits reader datagram

/-! ## What counts -/

variable {reader : InfoReader}

/-- What was in the memory does not matter for a pong. -/
lemma uxrAcknackPong_advanced (unset : PingMemory) (datagram : List UInt8) :
    uxrAcknackPong reader unset (advanced datagram) = countsAsPong reader datagram := by
  unfold uxrAcknackPong countsAsPong infoActivity
  dsimp only
  obtain ⟨hret, heq⟩ := deserializeInfoStart_unset reader reader.machineLittle unset.objectInfo
    ⟨false, false⟩ (advanced datagram)
  cases hstart : (deserializeInfoStart reader reader.machineLittle unset.objectInfo
      (advanced datagram)).ret with
  | false =>
    rw [← hret, hstart]
    simp
  | true =>
    rw [← heq hstart, hstart]
    generalize deserializeInfoStart reader reader.machineLittle unset.objectInfo
      (advanced datagram) = start
    cases start.optionalActivity with
    | false => rfl
    | true =>
      cases start.ub.deserializeByte.2 with
      | none => rfl
      | some kind =>
        simp only [available, Option.isSome_some, Option.getD_some, Bool.and_true, Bool.true_and,
          if_true, Option.map_some, Option.any_some]
        by_cases hkind : kind = ddsXrceObjkAgent
        · cases (start.ub.deserializeByte.1.deserializeNumber 2).2 <;> simp [hkind]
        · simp [hkind]

/-- Nothing is behind twelve bytes where there are no headers. -/
lemma countsAsPong_of_none {datagram : List UInt8} (h : readInfoHeaders datagram = none) :
    countsAsPong reader datagram = false := by
  have hadvanced : (advanced datagram).bytes = [] := by
    have hlength : datagram.length < advanceLen := length_lt_of_readInfoHeaders h
    unfold advanced
    rw [ReadBuffer.deserialize_of_lt _ hlength]
  have hret := deserializeInfoStart_ret_of_nil reader reader.machineLittle ⟨false, false⟩ hadvanced
  unfold countsAsPong infoActivity
  dsimp only
  rw [hret]
  rfl

/-- With a client key the payload is behind twelve bytes. -/
lemma advanced_eq {datagram : List UInt8} {id : UInt8} {little : Bool} {ub : ReadBuffer}
    (h : readInfoHeaders datagram = some (id, little, ub)) (hoffset : ub.offset = advanceLen) :
    advanced datagram = ub := by
  obtain ⟨hle, heq⟩ := readInfoHeaders_eq_some h
  rw [hoffset] at hle heq
  unfold advanced
  rw [ReadBuffer.deserialize_of_le _ hle, Nat.zero_add]
  exact heq.symm

/-- A datagram fits exactly if it counts as what it is. -/
lemma datagramFits_iff (datagram : List UInt8) : DatagramFits reader datagram ↔
    countsAsPong reader datagram = announcesAgent reader datagram := by
  unfold DatagramFits announcesAgent
  split
  · next hread => exact ⟨fun _ => countsAsPong_of_none hread, fun _ => trivial⟩
  · next id little ub hread =>
    split
    · next hkey =>
      obtain ⟨hoffset, rfl⟩ := hkey
      unfold countsAsPong
      rw [advanced_eq hread hoffset]
      cases infoActivity reader reader.machineLittle ub with
      | none => simp
      | some activity =>
        by_cases hkind : activity.1 = ddsXrceObjkAgent
        · by_cases hid : id = submessageIdInfo <;> simp [hid, hkind]
        · simp [hkind, bne, beq_eq_false_iff_ne.mpr hkind]
    · exact Iff.rfl

instance : DecidablePred (DatagramFits reader) := fun datagram =>
  decidable_of_iff _ (datagramFits_iff datagram).symm

instance : DecidablePred (PingListen.Fits reader) := fun listen =>
  decidable_of_iff (listen.start = 0 ∧ ∀ datagram ∈ listen.datagram, DatagramFits reader datagram)
    ⟨fun h => ⟨h.1, h.2⟩, fun h => ⟨h.atOnce, h.datagram⟩⟩

/-- The Agent's reply to a ping counts as a pong when `ucdr_deserialize_bool` takes the third byte
of the cookie, or else the fourth one, for true: four bytes behind the payload the version stands
where the activity is read. -/
theorem countsAsPong_processGetInfoPacket (sessionId streamId lo hi : UInt8) (r₀ r₁ o₀ o₁ : UInt8)
    (hother : ∀ ub, reader.otherObject reader.machineLittle 0x45 ub = (ub, true)) :
    countsAsPong reader (processGetInfoPacket [sessionId, streamId, lo, hi] [r₀, r₁] [o₀, o₁]) =
      if reader.ucdrBool 0x43 then reader.ucdrBool 0x01 else reader.ucdrBool 0x45 := by
  have hadvanced : advanced (processGetInfoPacket [sessionId, streamId, lo, hi] [r₀, r₁] [o₀, o₁]) =
      ⟨[0, 0, 1, 0x0D, 0x58, 0x52, 0x43, 0x45, 1, 0, 1, 0x0F, 0, 1, 0x0D, 0, 1, 0, 0, 0,
        0, 0, 0, 0],
        12⟩ := rfl
  unfold countsAsPong
  rw [hadvanced]
  unfold infoActivity deserializeInfoStart uxrDeserializeObjectVariant
  simp only [ReadBuffer.deserializeByte, ReadBuffer.deserialize]
  cases hcookie : reader.ucdrBool 0x43 with
  | true =>
    by_cases hactivity : reader.ucdrBool 0x01 <;>
      simp [baseObjectReplySize, ddsXrceObjkAgent, hcookie, hother, hactivity]
  | false =>
    by_cases hactivity : reader.ucdrBool 0x45 <;>
      simp [baseObjectReplySize, ddsXrceObjkAgent, hcookie, hactivity]

/-! ## One attempt -/

/-- What is kept of a call. -/
def PingListen.Recorded (reader : InfoReader) (timeout : ℤ) (listen : PingListen) : Prop :=
  listen.timeout = timeout ∧
    (listen.pong = true ↔ ∃ datagram ∈ listen.datagram, countsAsPong reader datagram = true)

namespace PingListen.Recorded

variable {timeout : ℤ} {listen : PingListen}

/-- What a call receives fits exactly if it is a pong only of what it should be. -/
lemma fits_iff (h : listen.Recorded reader timeout) :
    (∀ datagram ∈ listen.datagram, DatagramFits reader datagram) ↔
      (listen.pong = true ↔ listen.IsPong reader) := by
  rw [h.2, PingListen.IsPong]
  simp only [datagramFits_iff]
  cases listen.datagram with
  | none => simp
  | some datagram =>
    simp only [Option.mem_def, Option.some.injEq, forall_eq', exists_eq_left']
    exact Bool.eq_iff_iff

/-- A call that begins at once returns in time. -/
lemma inTime (h : listen.Recorded reader timeout) (hpunctual : listen.Punctual)
    (hstart : listen.start = 0) : listen.InTime timeout := by
  unfold PingListen.Punctual at hpunctual
  unfold PingListen.InTime
  rw [h.1, hstart] at hpunctual
  omega

end PingListen.Recorded

/-- The calls of an attempt. -/
inductive Listens (reader : InfoReader) (timeout : ℤ) : PingAttempt → Prop
  | ended {ending : PingEnding} : ending ≠ .pong → Listens reader timeout ⟨[], ending⟩
  | pong {listen : PingListen} : listen.Recorded reader timeout → listen.pong = true →
      Listens reader timeout ⟨[listen], .pong⟩
  | next {listen : PingListen} {attempt : PingAttempt} : listen.Recorded reader timeout →
      listen.pong = false → Listens reader timeout attempt →
      Listens reader timeout ⟨listen :: attempt.listens, attempt.ending⟩

/-- A call takes for a pong what counts as one. -/
lemma listenInfoMessage_iff (outcome : PingOutcome) : listenInfoMessage reader outcome = true ↔
    ∃ datagram ∈ outcome.datagram, countsAsPong reader datagram = true := by
  unfold listenInfoMessage
  split
  · next hnone => simp [hnone]
  · next datagram hsome => simp [hsome, uxrAcknackPong_advanced]

/-- The calls of the inner loop. -/
lemma listens_listenLoop (reader : InfoReader) (timeout poll : ℤ) (elapsed : ℕ)
    (outcomes : List PingOutcome) :
    Listens reader timeout (listenLoop reader timeout poll elapsed outcomes).1 := by
  induction outcomes generalizing poll elapsed with
  | nil =>
    refine .ended ?_
    split <;> simp
  | cons outcome outcomes ih =>
    unfold listenLoop
    dsimp only
    split
    · split
      · next hpong => exact .pong ⟨rfl, listenInfoMessage_iff outcome⟩ hpong
      · next hpong =>
        exact .next ⟨rfl, listenInfoMessage_iff outcome⟩ (Bool.not_eq_true _ ▸ hpong) (ih _ _)
    · exact .ended (by simp)

/-- Of what is received a part leads to the same calls, as far as it goes. -/
lemma listenLoop_take (timeout poll : ℤ) (elapsed : ℕ) (outcomes : List PingOutcome) (k : ℕ) :
    let whole := listenLoop reader timeout poll elapsed outcomes
    listenLoop reader timeout poll elapsed (outcomes.take k) =
      if k < whole.1.listens.length then (⟨whole.1.listens.take k, .waiting⟩, [])
      else (whole.1, whole.2.take (k - whole.1.listens.length)) := by
  induction outcomes generalizing poll elapsed k with
  | nil => simp [listenLoop]
  | cons outcome outcomes ih =>
    by_cases hpoll : 0 < poll
    · cases k with
      | zero =>
        have hlength : 0 < (listenLoop reader timeout poll elapsed
            (outcome :: outcomes)).1.listens.length := by
          simp only [listenLoop, if_pos hpoll]
          split <;> simp
        dsimp only
        rw [if_pos hlength, List.take_zero, List.take_zero]
        simp [listenLoop, hpoll]
      | succ k =>
        rw [List.take_succ_cons]
        simp only [listenLoop, if_pos hpoll]
        split
        · simp
        · simp only [ih, List.length_cons, Nat.add_lt_add_iff_right]
          split <;> simp
    · cases k with
      | zero => simp [listenLoop, hpoll]
      | succ k => simp [listenLoop, hpoll]

namespace Listens

variable {timeout : ℤ} {attempt : PingAttempt}

/-- What is kept of every call. -/
lemma recorded (h : Listens reader timeout attempt) :
    ∀ listen ∈ attempt.listens, listen.Recorded reader timeout := by
  induction h with
  | ended _ => simp
  | pong hrecorded _ => exact List.forall_mem_singleton.mpr hrecorded
  | next hrecorded _ _ ih => exact List.forall_mem_cons.mpr ⟨hrecorded, ih⟩

/-- An attempt ends with a pong if there is one. -/
lemma ending_eq_pong (h : Listens reader timeout attempt) :
    attempt.ending = .pong ↔ ∃ listen ∈ attempt.listens, listen.pong = true := by
  induction h with
  | ended hending => simpa using hending
  | pong _ hpong => simpa using hpong
  | next _ hpong _ ih => simpa [hpong] using ih

/-- Nothing is behind a pong. -/
lemma pairwise (h : Listens reader timeout attempt) :
    attempt.listens.Pairwise fun listen _ => listen.pong = false := by
  induction h with
  | ended _ => exact .nil
  | pong _ _ => exact List.pairwise_singleton _ _
  | next _ hpong _ ih => exact List.pairwise_cons.mpr ⟨fun _ _ => hpong, ih⟩

end Listens

/-! ## All attempts -/

/-- The calls of a run. -/
def pingListens (run : List PingAttempt) : List PingListen := run.flatMap (·.listens)

section Run

variable (reader : InfoReader) (timeout : ℤ) (attempts : ℕ) (outcomes : List PingOutcome)

/-- The calls of every attempt. -/
lemma listens_uxrPingAgentAttempts :
    ∀ attempt ∈ uxrPingAgentAttempts reader timeout attempts outcomes,
      Listens reader timeout attempt := by
  induction attempts generalizing outcomes with
  | zero => simp [uxrPingAgentAttempts]
  | succ attempts ih =>
    have hfirst := listens_listenLoop reader timeout timeout 0 outcomes
    unfold uxrPingAgentAttempts
    dsimp only
    split
    · exact List.forall_mem_cons.mpr ⟨hfirst, ih _⟩
    · exact List.forall_mem_singleton.mpr hfirst

/-- Of what is received a part leads to the same calls, as far as it goes. -/
lemma pingListens_take (k : ℕ) :
    pingListens (uxrPingAgentAttempts reader timeout attempts (outcomes.take k)) =
      (pingListens (uxrPingAgentAttempts reader timeout attempts outcomes)).take k := by
  induction attempts generalizing outcomes k with
  | zero => simp [uxrPingAgentAttempts, pingListens]
  | succ attempts ih =>
    unfold uxrPingAgentAttempts
    dsimp only
    rw [listenLoop_take]
    generalize listenLoop reader timeout timeout 0 outcomes = whole
    by_cases hk : k < whole.1.listens.length
    · -- The loop of the first attempt ends before its calls do.
      rw [if_pos hk, if_neg (by simp)]
      split <;> simp [pingListens, List.take_append_of_le_length hk.le]
    · rw [if_neg hk]
      dsimp only
      split
      · have hrest := ih whole.2 (k - whole.1.listens.length)
        unfold pingListens at hrest ⊢
        rw [List.flatMap_cons, List.flatMap_cons, List.take_append, hrest,
          List.take_of_length_le (Nat.not_lt.mp hk)]
      · simp [pingListens, List.take_of_length_le (Nat.not_lt.mp hk)]

/-- Nothing is behind a pong. -/
lemma pairwise_pingListens :
    (pingListens (uxrPingAgentAttempts reader timeout attempts outcomes)).Pairwise
      fun listen _ => listen.pong = false := by
  induction attempts generalizing outcomes with
  | zero => exact .nil
  | succ attempts ih =>
    have hfirst := listens_listenLoop reader timeout timeout 0 outcomes
    unfold uxrPingAgentAttempts pingListens
    dsimp only
    split
    · next hexpired =>
      rw [List.flatMap_cons]
      refine List.pairwise_append.mpr ⟨hfirst.pairwise, ih _, fun listen hlisten _ _ => ?_⟩
      by_contra hpong
      have hending := hfirst.ending_eq_pong.mpr ⟨listen, hlisten,
        Bool.eq_true_of_not_eq_false hpong⟩
      rw [hexpired] at hending
      cases hending
    · rw [List.flatMap_singleton]
      exact hfirst.pairwise

/-- The result is that of some call. -/
lemma agentPong_iff : agentPong (uxrPingAgentAttempts reader timeout attempts outcomes) = true ↔
    ∃ listen ∈ pingListens (uxrPingAgentAttempts reader timeout attempts outcomes),
      listen.pong = true := by
  have hlistens := listens_uxrPingAgentAttempts reader timeout attempts outcomes
  unfold agentPong pingListens
  simp only [List.any_eq_true, decide_eq_true_eq, List.mem_flatMap]
  constructor
  · rintro ⟨attempt, hattempt, hending⟩
    obtain ⟨listen, hlisten, hpong⟩ := (hlistens attempt hattempt).ending_eq_pong.mp hending
    exact ⟨listen, ⟨attempt, hattempt, hlisten⟩, hpong⟩
  · rintro ⟨listen, ⟨attempt, hattempt, hlisten⟩, hpong⟩
    exact ⟨attempt, hattempt, (hlistens attempt hattempt).ending_eq_pong.mpr
      ⟨listen, hlisten, hpong⟩⟩

/-- What a ping keeps is about its calls. -/
lemma pingKept_iff :
    PingKept reader timeout (uxrPingAgentAttempts reader timeout attempts outcomes) ↔
      let listens := pingListens (uxrPingAgentAttempts reader timeout attempts outcomes)
      ((∃ listen ∈ listens, listen.pong = true) ↔
          ∃ listen ∈ listens, listen.InTime timeout ∧ listen.IsPong reader) ∧
        (∀ listen ∈ listens, listen.pong = true → listen.IsPong reader) ∧
        ∀ listen ∈ listens, listen.start + listen.timeout ≤ timeout := by
  have hmem : ∀ p : PingListen → Prop,
      (∃ attempt ∈ uxrPingAgentAttempts reader timeout attempts outcomes,
        ∃ listen ∈ attempt.listens, p listen) ↔
      ∃ listen ∈ pingListens (uxrPingAgentAttempts reader timeout attempts outcomes), p listen := by
    intro p
    unfold pingListens
    simp only [List.mem_flatMap]
    grind
  have hall : ∀ p : PingListen → Prop,
      (∀ attempt ∈ uxrPingAgentAttempts reader timeout attempts outcomes,
        ∀ listen ∈ attempt.listens, p listen) ↔
      ∀ listen ∈ pingListens (uxrPingAgentAttempts reader timeout attempts outcomes), p listen := by
    intro p
    exact List.forall_mem_flatMap.symm
  dsimp only
  rw [← agentPong_iff, ← hmem, ← hall, ← hall]
  exact ⟨fun h => ⟨h.returns, h.counts, h.waits⟩, fun h => ⟨h.1, h.2.1, h.2.2⟩⟩

end Run

/-- A ping, and with it everything of it that a part of what is received leads to, is kept exactly
when every call begins at once and every datagram fits. -/
theorem ping_kept_iff (reader : InfoReader) (timeout : ℤ) (attempts : ℕ)
    (outcomes : List PingOutcome)
    (hpunctual : ∀ attempt ∈ uxrPingAgentAttempts reader timeout attempts outcomes,
      ∀ listen ∈ attempt.listens, listen.Punctual) :
    (∀ k, PingKept reader timeout (uxrPingAgentAttempts reader timeout attempts
    (outcomes.take k))) ↔
      ∀ attempt ∈ uxrPingAgentAttempts reader timeout attempts outcomes,
        ∀ listen ∈ attempt.listens, listen.Fits reader := by
  have hrecorded : ∀ listen ∈ pingListens (uxrPingAgentAttempts reader timeout attempts outcomes),
      listen.Recorded reader timeout := List.forall_mem_flatMap.mpr fun attempt hattempt =>
    (listens_uxrPingAgentAttempts reader timeout attempts outcomes attempt hattempt).recorded
  have hpairwise := pairwise_pingListens reader timeout attempts outcomes
  simp only [pingKept_iff, pingListens_take]
  rw [← List.forall_mem_flatMap] at hpunctual ⊢
  change ∀ listen ∈ pingListens _, _ at hpunctual
  change _ ↔ ∀ listen ∈ pingListens _, _
  generalize pingListens (uxrPingAgentAttempts reader timeout attempts outcomes) = listens at *
  constructor
  · intro h listen hlisten
    have hstart : ∀ other ∈ listens, other.start = 0 := by
      intro other hother
      have hwaits := (h listens.length).2.2 other (List.take_length ▸ hother)
      rw [(hrecorded other hother).1] at hwaits
      omega
    have hinTime : ∀ other ∈ listens, other.InTime timeout := fun other hother =>
      (hrecorded other hother).inTime (hpunctual other hother) (hstart other hother)
    refine ⟨hstart listen hlisten, (hrecorded listen hlisten).fits_iff.mpr ?_⟩
    obtain ⟨before, after, rfl⟩ := List.append_of_mem hlisten
    -- No call before this one is a pong, so that none of them received one.
    have hpongs : ∀ other ∈ before, other.pong = false := fun other hother =>
      (List.pairwise_append.mp hpairwise).2.2 other hother listen (.head _)
    have hbefore := (h before.length).1
    have hupto := (h (before.length + 1)).1
    rw [List.take_left] at hbefore
    rw [List.take_length_add_append, List.take_succ_cons, List.take_zero] at hupto
    have hothers : ∀ other ∈ before, ¬(other.InTime timeout ∧ other.IsPong reader) := by
      intro other hother hpong
      obtain ⟨first, hfirst, htrue⟩ := hbefore.mpr ⟨other, hother, hpong⟩
      exact absurd (hpongs first hfirst) (by simp [htrue])
    constructor
    · intro hpong
      obtain ⟨other, hother, hkept⟩ := hupto.mp ⟨listen, by simp, hpong⟩
      rcases List.mem_append.mp hother with hmem | hmem
      · exact absurd hkept (hothers other hmem)
      · exact List.mem_singleton.mp hmem ▸ hkept.2
    · intro hpong
      obtain ⟨other, hother, htrue⟩ := hupto.mpr ⟨listen, by simp, hinTime listen hlisten, hpong⟩
      rcases List.mem_append.mp hother with hmem | hmem
      · exact absurd (hpongs other hmem) (by simp [htrue])
      · exact List.mem_singleton.mp hmem ▸ htrue
  · intro h k
    have hmem : ∀ listen ∈ listens.take k, listen ∈ listens := fun _ => List.mem_of_mem_take
    have hpong : ∀ listen ∈ listens, listen.pong = true ↔ listen.IsPong reader :=
      fun listen hlisten => (hrecorded listen hlisten).fits_iff.mp (h listen hlisten).datagram
    refine ⟨⟨?_, ?_⟩, fun listen hlisten => (hpong listen (hmem listen hlisten)).mp,
      fun listen hlisten => ?_⟩
    · rintro ⟨listen, hlisten, htrue⟩
      have hin := hmem listen hlisten
      exact ⟨listen, hlisten, (hrecorded listen hin).inTime (hpunctual listen hin)
        (h listen hin).atOnce,
        (hpong listen hin).mp htrue⟩
    · rintro ⟨listen, hlisten, -, hkept⟩
      exact ⟨listen, hlisten, (hpong listen (hmem listen hlisten)).mpr hkept⟩
    · have hin := hmem listen hlisten
      rw [(hrecorded listen hin).1, (h listen hin).atOnce]
      omega

/-- A reader of messages without other objects. -/
def plainReader : InfoReader := ⟨(· != 0), fun _ _ ub => (ub, true), true⟩

/-- A memory of zeros. -/
def zeroMemory : PingMemory := ⟨⟨false, false⟩, 0, [0, 0]⟩

/-- An attempt without an answer, and one with the reply to a request with a client key. -/
theorem ping_kept_iff_keyed : PingKept plainReader 1000 (uxrPingAgentAttempts plainReader 1000 2
    [⟨none, 1000, zeroMemory⟩,
      ⟨some (processGetInfoPacket [1, 0, 0, 0, 1, 2, 3, 4] [0, 9] [0xFF, 0xFD]), 3, zeroMemory⟩]) :=
  (ping_kept_iff plainReader 1000 2
    [⟨none, 1000, zeroMemory⟩,
      ⟨some (processGetInfoPacket [1, 0, 0, 0, 1, 2, 3, 4] [0, 9] [0xFF, 0xFD]), 3, zeroMemory⟩]
    (by decide)).mpr (by decide) 2

/-- A sample of nine bytes behind the headers of a DATA without a client key is a pong. -/
theorem ping_kept_fails : ¬ PingKept plainReader 1000
    (uxrPingAgentAttempts plainReader 1000 1
      [⟨some ([0x81, 0x80, 0, 0] ++ [9, 1, 13, 0] ++ [0, 1, 0, 0x16] ++
        [0, 0, 0, 0, 0, 0, 0, 1, 5]),
        10, zeroMemory⟩]) := by
  intro h
  obtain ⟨datagram, hdatagram, hannounces⟩ := h.counts _ (.head _) _ (.head _) rfl
  cases hdatagram
  exact absurd hannounces (by decide)

end Ping

end XrceDds
