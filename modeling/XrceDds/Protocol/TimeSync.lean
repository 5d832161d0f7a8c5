import Mathlib.Tactic.Linarith
import XrceDds.Lib.Transition
import XrceDds.Protocol.XrceTypes

/-!
# Synchronizing the time of a session

`uxr_sync_session` of the client, the Agent that answers its TIMESTAMPs, and what is on the way
between them.  The channels keep every message that was sent: any of them may arrive at any time,
as often as it likes or never, also one of an earlier call.

Both sides read a clock of their own.  The clocks only go forward, and the client's is ahead of the
Agent's by `low` at least and by `high` at most; where both run equally fast the two are the same.
A reply carries the reading of the client's clock that the TIMESTAMP was sent with, so that it does
not matter which TIMESTAMP it answers: the offset that the four times of the reply give is off by
half the time between that TIMESTAMP and the reading of the reply at most.  Without a callback for
the time it becomes `session->time_offset`; a callback is given the four times, and the offset is
what it leaves there (`uxrSyncSession_bounds`).
-/

namespace XrceDds

open Transition XrceTypes

namespace TimeSync

/-! ## Times on the wire -/

/-- `uxr_convert_to_nanos`. -/
def uxrConvertToNanos (sec : Int32) (nsec : UInt32) : ℤ := sec.toInt * 1000000000 + nsec.toNat

/-- The nanoseconds of a time. -/
def nanos (t : TimeT) : ℤ := uxrConvertToNanos t.seconds t.nanoseconds

/-- `time::get_epoch_time` of the Agent at a reading of its clock, and what the client writes for a
reading of its own. -/
def getEpochTime (reading : ℤ) : TimeT :=
  ⟨Int32.ofInt (reading.tdiv 1000000000), UInt32.ofInt (reading.tmod 1000000000)⟩

/-- A reading of a clock whose seconds are an `int32_t`. -/
def InEpoch (reading : ℤ) : Prop := 0 ≤ reading ∧ reading < 2147483648000000000

instance (reading : ℤ) : Decidable (InEpoch reading) := inferInstanceAs (Decidable (_ ∧ _))

/-- A reading of a clock is read back from the wire. -/
@[simp]
lemma nanos_getEpochTime {reading : ℤ} (h : InEpoch reading) :
    nanos (getEpochTime reading) = reading := by
  obtain ⟨hnonneg, hlt⟩ := h
  have hdiv : reading.tdiv 1000000000 = reading / 1000000000 := Int.tdiv_eq_ediv_of_nonneg hnonneg
  have hmod : reading.tmod 1000000000 = reading % 1000000000 := Int.tmod_eq_emod_of_nonneg hnonneg
  have hseconds : (Int32.ofInt (reading / 1000000000)).toInt = reading / 1000000000 :=
    Int32.toInt_ofInt_of_le (by omega) (by omega)
  have hnanoseconds :
      ((UInt32.ofInt (reading % 1000000000)).toNat : ℤ) = reading % 1000000000 := by
    rw [UInt32.ofInt, UInt32.toNat_ofNat']
    omega
  unfold nanos uxrConvertToNanos getEpochTime
  rw [hdiv, hmod, hseconds, hnanoseconds]
  omega

/-- The nanoseconds of any time stay far inside an `int64_t`. -/
lemma nanos_bounds (t : TimeT) : -2147483648000000000 ≤ nanos t ∧
    nanos t < 2147483652000000000 := by
  have hlow : -2147483648 ≤ t.seconds.toInt := Int32.le_toInt t.seconds
  have hhigh : t.seconds.toInt < 2147483648 := Int32.toInt_lt t.seconds
  have hnanoseconds : t.nanoseconds.toNat < 4294967296 := t.nanoseconds.toNat_lt
  unfold nanos uxrConvertToNanos
  omega

/-! ## The client and the Agent -/

/-- `TIMESTAMP_REPLY_Payload`. -/
structure TimestampReply where
  transmitTimestamp : TimeT
  receiveTimestamp : TimeT
  originateTimestamp : TimeT
  deriving DecidableEq

/-- The fields of a session that the synchronization works on. -/
structure SessionTime where
  timeOffset : ℤ
  synchronized : Bool
  deriving DecidableEq

/-- What a session starts with. -/
def uxrInitSession : SessionTime := ⟨0, false⟩

/-- `uxrOnTimeFunc`: what a callback for the time makes of the session, given what the clock reads
and the three times of the reply. -/
abbrev OnTime := ℤ → ℤ → ℤ → ℤ → SessionTime → SessionTime

/-- `process_timestamp_reply`, where the clock reads `reading`.  The sums need no bound: what they
give fits in an `int64_t` (`sums_fit`). -/
def processTimestampReply (onTime : Option OnTime) (reading : ℤ) (timestamp : TimestampReply)
    (session : SessionTime) : SessionTime :=
  let session' := match onTime with
    | some onTime =>
      onTime reading (nanos timestamp.receiveTimestamp) (nanos timestamp.transmitTimestamp)
        (nanos timestamp.originateTimestamp) session
    | none =>
      let t3 := reading
      let t0 := nanos timestamp.originateTimestamp
      let t1 := nanos timestamp.receiveTimestamp
      let t2 := nanos timestamp.transmitTimestamp
      { session with timeOffset := ((t0 + t3) - (t1 + t2)).tdiv 2 }
  { session' with synchronized := true }

/-- The offset that the four times of a reply give. -/
def measuredOffset (reading : ℤ) (timestamp : TimestampReply) : ℤ :=
  ((nanos timestamp.originateTimestamp + reading) -
    (nanos timestamp.receiveTimestamp + nanos timestamp.transmitTimestamp)).tdiv 2

/-- Without a callback the offset is the measured one. -/
@[simp]
lemma processTimestampReply_none (reading : ℤ) (timestamp : TimestampReply)
    (session : SessionTime) :
    processTimestampReply none reading timestamp session =
      ⟨measuredOffset reading timestamp, true⟩ := rfl

/-- A reply synchronizes the session, whatever a callback does. -/
@[simp]
lemma processTimestampReply_synchronized (onTime : Option OnTime) (reading : ℤ)
    (timestamp : TimestampReply) (session : SessionTime) :
    (processTimestampReply onTime reading timestamp session).synchronized = true := rfl

/-- `uxr_epoch_nanos`. -/
def uxrEpochNanos (reading : ℤ) (session : SessionTime) : ℤ := reading - session.timeOffset

/-- `uxr_epoch_millis`. -/
def uxrEpochMillis (reading : ℤ) (session : SessionTime) : ℤ :=
  (uxrEpochNanos reading session).tdiv 1000000

/-- No reply, whatever it carries, makes the sums of `process_timestamp_reply` leave an `int64_t`.
-/
lemma sums_fit {reading : ℤ} (h : InEpoch reading) (timestamp : TimestampReply) :
    |(nanos timestamp.originateTimestamp + reading) -
      (nanos timestamp.receiveTimestamp + nanos timestamp.transmitTimestamp)| <
        9223372036854775808 := by
  have horiginate := nanos_bounds timestamp.originateTimestamp
  have hreceive := nanos_bounds timestamp.receiveTimestamp
  have htransmit := nanos_bounds timestamp.transmitTimestamp
  obtain ⟨hnonneg, hlt⟩ := h
  rw [abs_lt]
  constructor <;> linarith

/-- `process_timestamp_submessage` of the Agent, whose clock reads `received` when it takes up the
TIMESTAMP and `transmitted` when it answers. -/
def processTimestampSubmessage (received transmitted : ℤ) (timestamp : TimeT) : TimestampReply where
  transmitTimestamp := getEpochTime transmitted
  receiveTimestamp := getEpochTime received
  originateTimestamp := timestamp

/-! ## The system -/

/-- A reply that the client has read: what its clock read then, the callback that was set and the
session as it was before. -/
structure Read where
  reply : TimestampReply
  readAt : ℤ
  onTime : Option OnTime
  before : SessionTime

/-- A client and an Agent: what their clocks read, the TIMESTAMPs that were sent (the last one
first), those that the Agent has taken up, with what its clock read then, and the replies that were
sent.  `reads` records the replies that the client has read, the last one first. -/
structure System where
  client : ℤ
  agent : ℤ
  requests : List TimeT
  taken : List (TimeT × ℤ)
  replies : List TimestampReply
  onTime : Option OnTime
  session : SessionTime
  reads : List Read

/-- What happens: time passes, the client sends a TIMESTAMP and waits, the Agent takes up a
TIMESTAMP or answers one that it took up, the client sets the callback for the time
(`uxr_set_time_callback`) or reads a reply. -/
inductive Event where
  | pass (client agent : ℕ)
  | send
  | take (index : ℕ)
  | answer (index : ℕ)
  | setTimeCallback (onTime : Option OnTime)
  | read (index : ℕ)

/-- What an event does. -/
def step (st : System) : Event → System
  | .pass client agent => { st with client := st.client + client, agent := st.agent + agent }
  | .send =>
    { st with
      requests := getEpochTime st.client :: st.requests
      session := { st.session with synchronized := false } }
  | .take index =>
    match st.requests[index]? with
    | some timestamp => { st with taken := (timestamp, st.agent) :: st.taken }
    | none => st
  | .answer index =>
    match st.taken[index]? with
    | some (timestamp, received) =>
      { st with
        replies := processTimestampSubmessage received st.agent timestamp :: st.replies }
    | none => st
  | .setTimeCallback onTime => { st with onTime := onTime }
  | .read index =>
    match st.replies[index]? with
    | some reply =>
      { st with
        session := processTimestampReply st.onTime st.client reply st.session
        reads := ⟨reply, st.client, st.onTime, st.session⟩ :: st.reads }
    | none => st

/-- The client's clock is ahead of the Agent's by `low` at least and by `high` at most. -/
structure Clocks (low high client agent : ℤ) : Prop where
  client_inEpoch : InEpoch client
  agent_inEpoch : InEpoch agent
  low_le : low ≤ client - agent
  le_high : client - agent ≤ high

instance (low high client agent : ℤ) : Decidable (Clocks low high client agent) :=
  decidable_of_iff (InEpoch client ∧ InEpoch agent ∧ low ≤ client - agent ∧ client - agent ≤ high)
    ⟨fun h => ⟨h.1, h.2.1, h.2.2.1, h.2.2.2⟩, fun h => ⟨h.1, h.2, h.3, h.4⟩⟩

/-- The system starts with nothing sent and no callback. -/
def Starts (low high : ℤ) (st : System) : Prop :=
  Clocks low high st.client st.agent ∧
    st = ⟨st.client, st.agent, [], [], [], none, uxrInitSession, []⟩

/-- Time passes while the clocks stay where they may be; everything else may happen at any time. -/
def Admitted (low high : ℤ) (st : System) : Event → Prop
  | .pass client agent => Clocks low high (st.client + client) (st.agent + agent)
  | _ => True

instance (low high : ℤ) (st : System) (e : Event) : Decidable (Admitted low high st e) := by
  cases e <;> unfold Admitted <;> infer_instance

/-- The states that a run reaches. -/
def Reachable (low high : ℤ) (st : System) : Prop :=
  Reaches (Starts low high) step (Admitted low high) st

/-- What happens during a call of `listen_message_reliably`, and whether it received a message. -/
structure Listen where
  events : List Event
  received : Bool

/-- `run_session_until_sync`: it gives nothing as long as it waits. -/
def runSessionUntilSync : List Listen → System → System × Option Bool
  | [], st => (st, none)
  | listen :: listens, st =>
    let st' := listen.events.foldl step st
    if listen.received && !st'.session.synchronized then runSessionUntilSync listens st'
    else (st', some st'.session.synchronized)

/-- `uxr_sync_session`. -/
def uxrSyncSession (listens : List Listen) (st : System) : System × Option Bool :=
  runSessionUntilSync listens (step st .send)

/-! ## What is on the way -/

/-- A TIMESTAMP that was taken up when the Agent's clock read `taken.2`. -/
structure Taken (low high : ℤ) (requests : List TimeT) (client : ℤ) (taken : TimeT × ℤ) :
    Prop where
  mem : taken.1 ∈ requests
  reading : ∃ at₁, nanos taken.1 ≤ at₁ ∧ at₁ ≤ client ∧ Clocks low high at₁ taken.2

/-- A reply to a TIMESTAMP, with what the Agent's clock read after it was sent. -/
structure Answered (low high : ℤ) (requests : List TimeT) (client : ℤ) (reply : TimestampReply) :
    Prop where
  mem : reply.originateTimestamp ∈ requests
  reading : ∃ at₁ at₂, nanos reply.originateTimestamp ≤ at₁ ∧ at₁ ≤ at₂ ∧ at₂ ≤ client ∧
    Clocks low high at₁ (nanos reply.receiveTimestamp) ∧
    Clocks low high at₂ (nanos reply.transmitTimestamp)

/-- An offset that is off by half the time from `sentAt` to `readAt` at most, and by the rounding.
-/
structure Near (low high sentAt readAt timeOffset : ℤ) : Prop where
  low_le : 2 * low - (readAt - sentAt) - 1 ≤ 2 * timeOffset
  le_high : 2 * timeOffset ≤ 2 * high + (readAt - sentAt) + 1

/-- Half of a number, rounded towards zero. -/
lemma tdiv_two_bounds (x : ℤ) : x - 1 ≤ 2 * x.tdiv 2 ∧ 2 * x.tdiv 2 ≤ x + 1 := by
  have hsplit : 2 * x.tdiv 2 + x.tmod 2 = x := Int.mul_tdiv_add_tmod x 2
  have hlow : -2 < x.tmod 2 := Int.lt_tmod_of_pos x (by decide)
  have hhigh : x.tmod 2 < 2 := Int.tmod_lt_of_pos x (by decide)
  omega

/-- A reply that was read: its TIMESTAMP was sent, the offset that its times give is near, and
`timeOffset` is what reading it made of the offset. -/
structure Settled (low high : ℤ) (requests : List TimeT) (client timeOffset : ℤ)
    (read : Read) : Prop where
  mem : read.reply.originateTimestamp ∈ requests
  sent_le : nanos read.reply.originateTimestamp ≤ read.readAt
  read_le : read.readAt ≤ client
  near : Near low high (nanos read.reply.originateTimestamp) read.readAt
    (measuredOffset read.readAt read.reply)
  timeOffset_eq : timeOffset =
    (processTimestampReply read.onTime read.readAt read.reply read.before).timeOffset

section

variable {low high client client' timeOffset : ℤ} {requests requests' : List TimeT}

lemma Taken.mono {taken : TimeT × ℤ} (h : Taken low high requests client taken)
    (hrequests : requests ⊆ requests') (hclient : client ≤ client') :
    Taken low high requests' client' taken := by
  obtain ⟨at₁, hsent, hle, hclocks⟩ := h.reading
  exact ⟨hrequests h.mem, at₁, hsent, hle.trans hclient, hclocks⟩

lemma Answered.mono {reply : TimestampReply} (h : Answered low high requests client reply)
    (hrequests : requests ⊆ requests') (hclient : client ≤ client') :
    Answered low high requests' client' reply := by
  obtain ⟨at₁, at₂, hsent, hle, hle', hreceived, htransmitted⟩ := h.reading
  exact ⟨hrequests h.mem, at₁, at₂, hsent, hle, hle'.trans hclient, hreceived, htransmitted⟩

lemma Settled.mono {read : Read} (h : Settled low high requests client timeOffset read)
    (hrequests : requests ⊆ requests') (hclient : client ≤ client') :
    Settled low high requests' client' timeOffset read where
  mem := hrequests h.mem
  sent_le := h.sent_le
  read_le := h.read_le.trans hclient
  near := h.near
  timeOffset_eq := h.timeOffset_eq

/-- The Agent answers a TIMESTAMP that it took up. -/
lemma Taken.answered {timestamp : TimeT} {received transmitted : ℤ}
    (h : Taken low high requests client (timestamp, received))
    (hclocks : Clocks low high client transmitted) :
    Answered low high requests client
      (processTimestampSubmessage received transmitted timestamp) := by
  obtain ⟨at₁, hsent, hle, hreceived⟩ := h.reading
  refine ⟨h.mem, at₁, client, hsent, hle, le_rfl, ?_, ?_⟩
  · rw [processTimestampSubmessage, nanos_getEpochTime hreceived.agent_inEpoch]
    exact hreceived
  · rw [processTimestampSubmessage, nanos_getEpochTime hclocks.agent_inEpoch]
    exact hclocks

/-- The client reads a reply. -/
lemma Answered.settled {reply : TimestampReply} (h : Answered low high requests client reply)
    (onTime : Option OnTime) (session : SessionTime) :
    Settled low high requests client
      (processTimestampReply onTime client reply session).timeOffset
      ⟨reply, client, onTime, session⟩ := by
  obtain ⟨at₁, at₂, hsent, hle, hle', hreceived, htransmitted⟩ := h.reading
  have hlow₁ := hreceived.low_le
  have hlow₂ := htransmitted.low_le
  have hhigh₁ := hreceived.le_high
  have hhigh₂ := htransmitted.le_high
  obtain ⟨hhalf, hhalf'⟩ := tdiv_two_bounds ((nanos reply.originateTimestamp + client) -
    (nanos reply.receiveTimestamp + nanos reply.transmitTimestamp))
  refine ⟨h.mem, hsent.trans (hle.trans hle'), le_rfl, ⟨?_, ?_⟩, rfl⟩
  · rw [measuredOffset]
    linarith
  · rw [measuredOffset]
    linarith

end

/-- What a run keeps. -/
structure Invariant (low high : ℤ) (st : System) : Prop where
  clocks : Clocks low high st.client st.agent
  requests : ∀ t ∈ st.requests, nanos t ≤ st.client
  taken : ∀ p ∈ st.taken, Taken low high st.requests st.client p
  replies : ∀ reply ∈ st.replies, Answered low high st.requests st.client reply
  reads : ∀ p ∈ st.reads.head?,
    Settled low high st.requests st.client st.session.timeOffset p

section

variable {low high : ℤ} {st st' : System}

lemma Starts.invariant (h : Starts low high st) : Invariant low high st := by
  obtain ⟨hclocks, heq⟩ := h
  rw [heq]
  exact ⟨hclocks, by simp, by simp, by simp, by simp⟩

/-- Every event keeps the invariant. -/
lemma Invariant.step (h : Invariant low high st) {e : Event} (he : Admitted low high st e) :
    Invariant low high (step st e) := by
  cases e with
  | pass client agent =>
    have hle : st.client ≤ st.client + client := by omega
    exact ⟨he, fun t ht => (h.requests t ht).trans hle,
      fun p hp => (h.taken p hp).mono (List.Subset.refl _) hle,
      fun reply hreply => (h.replies reply hreply).mono (List.Subset.refl _) hle,
      fun p hp => (h.reads p hp).mono (List.Subset.refl _) hle⟩
  | send =>
    have hsubset : st.requests ⊆ getEpochTime st.client :: st.requests :=
      List.subset_cons_self _ _
    refine ⟨h.clocks, ?_, fun p hp => (h.taken p hp).mono hsubset le_rfl,
      fun reply hreply => (h.replies reply hreply).mono hsubset le_rfl,
      fun p hp => (h.reads p hp).mono hsubset le_rfl⟩
    intro t ht
    rcases List.mem_cons.1 ht with rfl | ht
    · rw [nanos_getEpochTime h.clocks.client_inEpoch]
      exact le_rfl
    · exact h.requests t ht
  | take index =>
    simp only [TimeSync.step]
    split
    case h_2 => exact h
    case h_1 timestamp hget =>
      have hmem := List.mem_of_getElem? hget
      refine ⟨h.clocks, h.requests, ?_, h.replies, h.reads⟩
      intro p hp
      rcases List.mem_cons.1 hp with rfl | hp
      · exact ⟨hmem, st.client, h.requests _ hmem, le_rfl, h.clocks⟩
      · exact h.taken p hp
  | answer index =>
    simp only [TimeSync.step]
    split
    case h_2 => exact h
    case h_1 timestamp received hget =>
      refine ⟨h.clocks, h.requests, h.taken, ?_, h.reads⟩
      intro reply hreply
      rcases List.mem_cons.1 hreply with rfl | hreply
      · exact (h.taken _ (List.mem_of_getElem? hget)).answered h.clocks
      · exact h.replies reply hreply
  | setTimeCallback onTime => exact ⟨h.clocks, h.requests, h.taken, h.replies, h.reads⟩
  | read index =>
    simp only [TimeSync.step]
    split
    case h_2 => exact h
    case h_1 reply hget =>
      refine ⟨h.clocks, h.requests, h.taken, h.replies, ?_⟩
      intro p hp
      obtain rfl : ⟨reply, st.client, st.onTime, st.session⟩ = p := by simpa using hp
      exact (h.replies reply (List.mem_of_getElem? hget)).settled st.onTime st.session

/-- The invariant holds along every run. -/
lemma Reachable.invariant (h : Reachable low high st) : Invariant low high st :=
  Reaches.invariant (I := Invariant low high) (fun _ hs => Starts.invariant hs)
    (fun _ _ hs he => hs.step he) h

/-! ## A call -/

/-- The client's clock does not go back. -/
lemma client_le_step (st : System) (e : Event) : st.client ≤ (step st e).client := by
  cases e with
  | pass client agent => exact le_add_of_nonneg_right (Int.natCast_nonneg client)
  | send | setTimeCallback => exact le_rfl
  | take index | answer index | read index =>
    simp only [TimeSync.step]
    split <;> exact le_rfl

/-- Only a reply changes the offset. -/
lemma step_of_ne_read (st : System) {e : Event} (h : ∀ index, e ≠ .read index) :
    (step st e).session.timeOffset = st.session.timeOffset ∧ (step st e).reads = st.reads := by
  cases e with
  | pass client agent | send | setTimeCallback => exact ⟨rfl, rfl⟩
  | take index | answer index =>
    simp only [TimeSync.step]
    split <;> exact ⟨rfl, rfl⟩
  | read index => exact absurd rfl (h index)

lemma foldl_of_read_notMem (st : System) (es : List Event) (h : ∀ index, .read index ∉ es) :
    (es.foldl step st).session.timeOffset = st.session.timeOffset ∧
      (es.foldl step st).reads = st.reads := by
  induction es generalizing st with
  | nil => exact ⟨rfl, rfl⟩
  | cons e es ih =>
    have he : ∀ index, e ≠ .read index := fun index heq => h index (by simp [heq])
    obtain ⟨hoffset, hreads⟩ := step_of_ne_read st he
    obtain ⟨hoffset', hreads'⟩ := ih (step st e) fun index hmem => h index (by simp [hmem])
    exact ⟨hoffset'.trans hoffset, hreads'.trans hreads⟩

/-- A client that waits since `before`: as long as it is not synchronized it has read no reply, and
then it has read one since. -/
structure Waits (before st : System) : Prop where
  client_le : before.client ≤ st.client
  unread : st.session.synchronized = false →
    st.session.timeOffset = before.session.timeOffset ∧ st.reads = before.reads
  read : st.session.synchronized = true → ∃ p, st.reads.head? = some p ∧
    before.client ≤ p.readAt

lemma Waits.send (st : System) : Waits st (step st .send) where
  client_le := le_rfl
  unread := fun _ => ⟨rfl, rfl⟩
  read := fun h => absurd h (by simp [TimeSync.step])

lemma Waits.step {before : System} (h : Waits before st) {e : Event} (he : e ≠ .send) :
    Waits before (step st e) := by
  cases e with
  | send => exact absurd rfl he
  | pass client agent =>
    exact ⟨h.client_le.trans (client_le_step st (.pass client agent)), h.unread, h.read⟩
  | setTimeCallback onTime => exact ⟨h.client_le, h.unread, h.read⟩
  | take index | answer index =>
    simp only [TimeSync.step]
    split <;> exact ⟨h.client_le, h.unread, h.read⟩
  | read index =>
    simp only [TimeSync.step]
    split
    case h_2 => exact h
    case h_1 reply hget =>
      exact ⟨h.client_le, fun hsync => absurd hsync (by simp),
        fun _ => ⟨_, rfl, h.client_le⟩⟩

lemma Waits.foldl {before : System} {es : List Event} (h : Waits before st)
    (hes : .send ∉ es) : Waits before (es.foldl TimeSync.step st) := by
  induction es generalizing st with
  | nil => exact h
  | cons e es ih =>
    obtain ⟨hne, hes⟩ : .send ≠ e ∧ .send ∉ es := by simpa using hes
    exact ih (h.step (Ne.symm hne)) hes

/-- The call ends in a state that the events lead to, and gives what the flag says there. -/
lemma Waits.runSessionUntilSync {before : System} {listens : List Listen} {synchronized : Bool}
    (h : Waits before st) (hreach : Reachable low high st)
    (hsend : ∀ listen ∈ listens, .send ∉ listen.events)
    (hadmitted : AdmittedAll TimeSync.step (Admitted low high) st
      (listens.flatMap Listen.events))
    (hcall : TimeSync.runSessionUntilSync listens st = (st', some synchronized)) :
    Waits before st' ∧ Reachable low high st' ∧ st'.session.synchronized = synchronized := by
  induction listens generalizing st with
  | nil => simp [TimeSync.runSessionUntilSync] at hcall
  | cons listen listens ih =>
    rw [List.flatMap_cons, admittedAll_append] at hadmitted
    have hwaits := h.foldl (hsend listen (by simp))
    have hreach' := Reaches.foldl hreach listen.events hadmitted.1
    rw [TimeSync.runSessionUntilSync] at hcall
    split at hcall
    · exact ih hwaits hreach' (fun l hl => hsend l (by simp [hl])) hadmitted.2 hcall
    · obtain ⟨rfl, heq⟩ := Prod.mk.injEq .. ▸ hcall
      exact ⟨hwaits, hreach', by simpa using heq⟩

/-- What the client takes for the Agent's time, in nanoseconds and in milliseconds, is off by half
of `span` at most, beside the rounding. -/
structure TimeWithin (span : ℤ) (st : System) : Prop where
  nanos_le : 2 * |uxrEpochNanos st.client st.session - st.agent| ≤ span + 1
  millis_le : 2 * |1000000 * uxrEpochMillis st.client st.session - st.agent| ≤ span + 1999999

/-- Where the offset is near, so is the time. -/
lemma Near.timeWithin {sentAt readAt : ℤ} (h : Near low high sentAt readAt st.session.timeOffset)
    (hclocks : Clocks low high st.client st.agent) :
    TimeWithin (2 * (high - low) + (readAt - sentAt)) st := by
  have hlow := h.low_le
  have hhigh := h.le_high
  have hlow' := hclocks.low_le
  have hhigh' := hclocks.le_high
  have hnanos : 2 * |uxrEpochNanos st.client st.session - st.agent| ≤
      2 * (high - low) + (readAt - sentAt) + 1 := by
    unfold uxrEpochNanos
    rcases abs_choice (st.client - st.session.timeOffset - st.agent) with habs | habs
    · rw [habs]
      linarith
    · rw [habs]
      linarith
  have hsplit : 1000000 * uxrEpochMillis st.client st.session +
      (uxrEpochNanos st.client st.session).tmod 1000000 = uxrEpochNanos st.client st.session :=
    Int.mul_tdiv_add_tmod _ _
  have hmillis : |1000000 * uxrEpochMillis st.client st.session -
      uxrEpochNanos st.client st.session| ≤ 999999 := by
    have hlow := Int.lt_tmod_of_pos (uxrEpochNanos st.client st.session) (b := 1000000) (by decide)
    have hhigh :=
      Int.tmod_lt_of_pos (uxrEpochNanos st.client st.session) (b := 1000000) (by decide)
    rw [abs_le]
    constructor <;> omega
  have htriangle := abs_sub_le (1000000 * uxrEpochMillis st.client st.session)
    (uxrEpochNanos st.client st.session) st.agent
  exact ⟨hnanos, by linarith⟩

/-- However TIMESTAMPs and replies are lost, repeated, delayed and reordered, also those of earlier
calls, and whatever callback for the time is set: where `uxr_sync_session` gives true, a reply was
read during the call, the offset that its times give is off by half the time between the sending of
its TIMESTAMP and its reading at most, beside the drift of the clocks and the rounding, and
`time_offset` is what `process_timestamp_reply` makes of it: without a callback, that offset.  As
long as `time_offset` is that offset the client's time for the Agent is off by no more, until
another reply is read.  Where it gives false, no reply was read and `time_offset` is what it was. -/
theorem uxrSyncSession_bounds {listens : List Listen} {synchronized : Bool}
    (hreach : Reachable low high st) (hsend : ∀ listen ∈ listens, .send ∉ listen.events)
    (hadmitted : AdmittedAll TimeSync.step (Admitted low high) (step st .send)
      (listens.flatMap Listen.events))
    (hcall : uxrSyncSession listens st = (st', some synchronized)) :
    (synchronized = true → ∃ read sentAt, st'.reads.head? = some read ∧
      read.reply.originateTimestamp ∈ st'.requests ∧
      sentAt = nanos read.reply.originateTimestamp ∧ sentAt ≤ read.readAt ∧
      st.client ≤ read.readAt ∧ read.readAt ≤ st'.client ∧
      Near low high sentAt read.readAt (measuredOffset read.readAt read.reply) ∧
      st'.session.timeOffset =
        (processTimestampReply read.onTime read.readAt read.reply read.before).timeOffset ∧
      (read.onTime = none → st'.session.timeOffset = measuredOffset read.readAt read.reply) ∧
      (st'.session.timeOffset = measuredOffset read.readAt read.reply →
        ∀ es, (∀ index, .read index ∉ es) →
          AdmittedAll TimeSync.step (Admitted low high) st' es →
          TimeWithin (2 * (high - low) + (read.readAt - sentAt)) (es.foldl TimeSync.step st'))) ∧
      (synchronized = false → st'.reads = st.reads ∧
        st'.session.timeOffset = st.session.timeOffset) := by
  obtain ⟨hwaits, hreach', hflag⟩ :=
    (Waits.send st).runSessionUntilSync (hreach.next trivial) hsend hadmitted hcall
  constructor
  · intro htrue
    obtain ⟨read, hhead, hbefore⟩ := hwaits.read (hflag.trans htrue)
    have hsettled := hreach'.invariant.reads _ hhead
    refine ⟨read, _, hhead, hsettled.mem, rfl, hsettled.sent_le, hbefore, hsettled.read_le,
      hsettled.near, hsettled.timeOffset_eq, ?_, ?_⟩
    · intro hnone
      rw [hsettled.timeOffset_eq, hnone, processTimestampReply_none]
    · intro hmeasured es hes hadmitted'
      have hclocks := (Reachable.invariant (Reaches.foldl hreach' es hadmitted')).clocks
      have hnear := hsettled.near
      rw [← hmeasured, ← (foldl_of_read_notMem st' es hes).1] at hnear
      exact hnear.timeWithin hclocks
  · intro hfalse
    exact (hwaits.unread (hflag.trans hfalse)).symm

end

/-- A client that is ahead of the Agent by five nanoseconds. -/
def aheadByFive : System := ⟨1000000, 999995, [], [], [], none, uxrInitSession, []⟩

/-- The Agent takes up the TIMESTAMP after ten nanoseconds and answers four later; the client reads
the reply six after that. -/
def answeredListen : Listen :=
  ⟨[.pass 10 10, .take 0, .pass 4 4, .answer 0, .pass 6 6, .read 0], true⟩

/-- The state that the call leaves. -/
def afterAnswer : System := (uxrSyncSession [answeredListen] aheadByFive).1

/-- A call in which a reply is read. -/
theorem uxrSyncSession_bounds_answered :
    (uxrSyncSession [answeredListen] aheadByFive).2 = some true ∧
      ∃ read sentAt, afterAnswer.reads.head? = some read ∧
        read.reply.originateTimestamp ∈ afterAnswer.requests ∧
        sentAt = nanos read.reply.originateTimestamp ∧ sentAt ≤ read.readAt ∧
        1000000 ≤ read.readAt ∧ read.readAt ≤ 1000020 ∧
        Near 5 5 sentAt read.readAt (measuredOffset read.readAt read.reply) ∧
        afterAnswer.session.timeOffset =
          (processTimestampReply read.onTime read.readAt read.reply read.before).timeOffset ∧
        (read.onTime = none →
          afterAnswer.session.timeOffset = measuredOffset read.readAt read.reply) ∧
        (afterAnswer.session.timeOffset = measuredOffset read.readAt read.reply →
          ∀ es, (∀ index, .read index ∉ es) →
            AdmittedAll step (Admitted 5 5) afterAnswer es →
            TimeWithin (2 * (5 - 5) + (read.readAt - sentAt)) (es.foldl step afterAnswer)) :=
  have hcall : (uxrSyncSession [answeredListen] aheadByFive).2 = some true := by decide +kernel
  ⟨hcall,
    (@uxrSyncSession_bounds 5 5 aheadByFive afterAnswer [answeredListen] true
      (.start ⟨by decide, rfl⟩) (by simp [answeredListen]) (by decide +kernel)
      (Prod.ext rfl hcall)).1 rfl⟩

end TimeSync

end XrceDds
