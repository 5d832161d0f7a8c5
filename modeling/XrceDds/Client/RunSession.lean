import XrceDds.Client.PlainWindow

/-!
# Waiting for the confirmation of all deliveries

`uxr_run_session_until_confirm_delivery` sends what waits to be sent, listens until
`last_acknown` equals `last_sent` on every output reliable stream, and then says that
everything was delivered.  It never looks at `last_written`.

The model keeps beside every stream what happened to it since the session was created: the
room that was reserved for submessages, the messages that were sent, which of them reached
the Agent and how many it acknowledged.  None of this is read by the code.
-/

namespace XrceDds

open Transition

/-! ## The functions of the client -/

/-- The `raw` field that `uxr_stream_id` gives to an output reliable stream. -/
def uxrStreamIdRaw (index : ℕ) : UInt8 := UInt8.ofNat (index + 128)

/-- The `index` field of `uxr_stream_id_from_raw`. -/
def uxrStreamIndexFromRaw (streamIdRaw : UInt8) : ℕ :=
  if 1 > streamIdRaw.toNat then streamIdRaw.toNat
  else if 128 > streamIdRaw.toNat then streamIdRaw.toNat - 1
  else streamIdRaw.toNat - 128

/-- `uxr_is_output_up_to_date`. -/
def uxrIsOutputUpToDate (stream : OutputReliableStream) : Bool :=
  decide (0 = uxrSeqNumCmp stream.lastAcknown stream.lastSent)

/-! ## The history of a stream -/

/-- Room that was reserved for a submessage: in which of the messages of the stream, counted
from zero, and where. -/
structure Reservation where
  index : ℕ
  start : ℕ
  length : ℕ

/-- An output reliable stream and what happened to it since the session was created. -/
structure StreamHistory where
  stream : OutputReliableStream
  /-- The submessages that were accepted. -/
  accepted : List Reservation
  /-- The messages that were sent, oldest first. -/
  sent : List (List UInt8)
  /-- The messages that reached the Agent. -/
  received : List ℕ
  /-- How many messages the last ACKNACK acknowledged. -/
  acknowledged : ℕ

namespace StreamHistory

/-- Nothing happened yet. -/
def start (stream : OutputReliableStream) : StreamHistory := ⟨stream, [], [], [], 0⟩

/-- The application asks for the room of a submessage. -/
def submit (t : StreamHistory) (payloadSize : ℕ) (ub : UcdrBuffer) (submessageId mode : UInt8) :
    StreamHistory :=
  match uxrPrepareStreamToWriteSubmessage t.stream payloadSize ub submessageId mode with
  | some r =>
    { t with
      stream := r.stream
      accepted :=
        if r.availableToWrite then
          t.accepted ++
            [{ index := t.sent.length +
                seqSteps (uxrSeqNumAdd t.stream.lastSent 1) r.stream.lastWritten
               start := r.ub.final - r.ub.init - submessageSize payloadSize
               length := submessageSize payloadSize }]
        else t.accepted }
  | none => t

/-- The application writes into the body of a slot. -/
def serialize (t : StreamHistory) (seqNum : UxrSeqNum) (o : ℕ) (bytes : List UInt8) :
    StreamHistory :=
  { t with
    stream := { t.stream with
      base := t.stream.base.store (uxrGetReliableBuffer t.stream.base seqNum + o) bytes } }

/-- The stream is flashed. -/
def flash (info : UxrSessionInfo) (streamIdRaw : UInt8) (t : StreamHistory) : StreamHistory :=
  let r := uxrFlashOutputStreams info streamIdRaw t.stream
  { t with
    stream := r.1
    sent := t.sent ++ r.2 }

/-- The heartbeat timer of the stream is updated. -/
def heartbeat (t : StreamHistory) (timestamp : ℤ) : StreamHistory :=
  { t with stream := (uxrUpdateOutputStreamHeartbeatTimestamp t.stream timestamp).1 }

/-- A message that was sent, or sent again, reaches the Agent. -/
def arrive (t : StreamHistory) (index : ℕ) : StreamHistory :=
  { t with received := index :: t.received }

/-- An ACKNACK is read. -/
def acknack (t : StreamHistory) (bitmap : ℕ) (firstUnackedSeqNum : UxrSeqNum) : StreamHistory :=
  { t with
    stream := (readSubmessageAcknack t.stream bitmap firstUnackedSeqNum).1
    acknowledged := t.acknowledged +
      seqSteps t.stream.lastAcknown (uxrSeqNumSub firstUnackedSeqNum 1) }

/-- An ACKNACK acknowledges the first messages of the stream that reached the Agent, and not
fewer of them than the one before. -/
def Honest (t : StreamHistory) (firstUnackedSeqNum : UxrSeqNum) : Prop :=
  ∃ n, firstUnackedSeqNum = seqOf n ∧ t.acknowledged ≤ n ∧ ∀ index < n, index ∈ t.received

/-- The bytes of a submessage: those of the message that carried it or, while it waits to be
sent, those in its slot. -/
def submessage (t : StreamHistory) (e : Reservation) : List UInt8 :=
  match t.sent[e.index]? with
  | some m => (m.drop e.start).take e.length
  | none => slotBytes t.stream.base (seqOf e.index) e.start e.length

/-- A submessage was sent, whole and with the given bytes, and reached the Agent. -/
def Delivered (t : StreamHistory) (e : Reservation) (bytes : List UInt8) : Prop :=
  e.index ∈ t.received ∧
    ∃ m, t.sent[e.index]? = some m ∧ e.start + e.length ≤ m.length ∧
      (m.drop e.start).take e.length = bytes

end StreamHistory

/-! ## Sessions -/

/-- What happens in a session, as far as its output reliable streams are concerned. -/
inductive SessionEvent where
  | createOutputReliableStream (base : ReliableStream)
  | createSession
  | submit (i payloadSize : ℕ) (ub : UcdrBuffer) (submessageId mode : UInt8)
  | serialize (i : ℕ) (seqNum : UxrSeqNum) (o : ℕ) (bytes : List UInt8)
  | flash
  | heartbeat (timestamp : ℤ)
  | arrive (i index : ℕ)
  | acknack (streamIdRaw : UInt8) (bitmap : ℕ) (firstUnackedSeqNum : UxrSeqNum)

/-- The output reliable streams of a `uxrSession`, each with its history. -/
structure ClientSession where
  info : UxrSessionInfo
  streams : List StreamHistory

namespace SessionEvent

/-- What an event does to the stream `i`. -/
def effect (info : UxrSessionInfo) (i : ℕ) : SessionEvent → StreamHistory → StreamHistory
  | .createOutputReliableStream _, t => t
  | .createSession, t => .start (uxrResetOutputReliableStream t.stream)
  | .submit j payloadSize ub submessageId mode, t =>
    if i = j then t.submit payloadSize ub submessageId mode else t
  | .serialize j seqNum o bytes, t => if i = j then t.serialize seqNum o bytes else t
  | .flash, t => t.flash info (uxrStreamIdRaw i)
  | .heartbeat timestamp, t => t.heartbeat timestamp
  | .arrive j index, t => if i = j then t.arrive index else t
  | .acknack streamIdRaw bitmap firstUnackedSeqNum, t =>
    if i = uxrStreamIndexFromRaw streamIdRaw then t.acknack bitmap firstUnackedSeqNum else t

/-- The streams that an event creates. -/
def created (info : UxrSessionInfo) : SessionEvent → List StreamHistory
  | .createOutputReliableStream base =>
    [.start (uxrInitOutputReliableStream base (uxrSessionHeaderOffset info))]
  | _ => []

/-- What is asked of an event that concerns the stream `i`: that writes fit a slot and
serializing stays in its body, that only what was sent reaches the Agent, and that ACKNACKs
are honest and not reordered. -/
def Allowed (i : ℕ) : SessionEvent → StreamHistory → Prop
  | .submit j payloadSize _ _ _, t => i = j → FitsSlot t.stream (submessageSize payloadSize)
  | .serialize j _ o bytes, t =>
    i = j → o + bytes.length ≤ uxrGetReliableBufferCapacity t.stream.base
  | .arrive j index, t => i = j → index < t.sent.length
  | .acknack streamIdRaw _ firstUnackedSeqNum, t =>
    i = uxrStreamIndexFromRaw streamIdRaw → t.Honest firstUnackedSeqNum
  | .createOutputReliableStream _, _ => True
  | .createSession, _ => True
  | .flash, _ => True
  | .heartbeat _, _ => True

end SessionEvent

namespace ClientSession

/-- The session after an event. -/
def step (st : ClientSession) (e : SessionEvent) : ClientSession :=
  { st with streams := st.streams.mapIdx (fun i t => e.effect st.info i t) ++ e.created st.info }

/-- The events that are admitted.  A stream is created with a history that is a power of
two, as its documentation asks for. -/
def Admitted (st : ClientSession) (e : SessionEvent) : Prop :=
  (∀ i t, st.streams[i]? = some t → e.Allowed i t) ∧
    ∀ t ∈ e.created st.info, t.stream.base.history ∣ 65536

/-- The sessions that admitted runs reach from one that was just initialised. -/
def Reachable (info : UxrSessionInfo) (st : ClientSession) : Prop :=
  Reaches (· = ⟨info, []⟩) step Admitted st

/-- The session after some events. -/
def run (st : ClientSession) (es : List SessionEvent) : ClientSession := es.foldl step st

/-- Events that are admitted one after the other. -/
def AdmittedAll : ClientSession → List SessionEvent → Prop
  | _, [] => True
  | st, e :: es => st.Admitted e ∧ AdmittedAll (st.step e) es

/-- `uxr_output_streams_confirmed`. -/
def uxrOutputStreamsConfirmed (st : ClientSession) : Bool :=
  st.streams.all fun t => uxrIsOutputUpToDate t.stream

end ClientSession

/-! ## Listening -/

/-- One round of `listen_message_reliably`: when it starts, what happens until `recv_msg`
returns and the message it returned is read, and whether there was one.  What a message does
is what its ACKNACKs and the callbacks of its other submessages do. -/
structure Poll where
  timestamp : ℤ
  events : List SessionEvent
  received : Bool

/-- What happens in a round: the heartbeat timers are updated first. -/
def Poll.happenings (p : Poll) : List SessionEvent := .heartbeat p.timestamp :: p.events

/-- `INT32_MAX`. -/
def int32Max : ℤ := 2147483647

/-- `next_heartbeat_timestamp` behind the loop over the streams. -/
def nextHeartbeatTimestamp (streams : List StreamHistory) : ℤ :=
  streams.foldl (fun next t =>
    if t.stream.nextHeartbeatTimestamp < next then t.stream.nextHeartbeatTimestamp else next)
    int64Max

/-- `poll_chosen`. -/
def pollChosen (poll nextHeartbeat timestamp : ℤ) : ℤ :=
  let pollToNextHeartbeat :=
    if nextHeartbeat ≠ int64Max then Int.bmod (nextHeartbeat - timestamp) 4294967296 else poll
  let pollToNextHeartbeat := if 0 = pollToNextHeartbeat then 1 else pollToNextHeartbeat
  if pollToNextHeartbeat < poll then pollToNextHeartbeat else poll

/-- `listen_message_reliably`, with `poll` milliseconds left: whether a message was received,
and the rounds that are still to come.  Without a round it goes on waiting. -/
def listenMessageReliably : List Poll → ℤ → ClientSession →
    Option (Bool × ClientSession × List Poll)
  | [], _, _ => none
  | p :: polls, poll, st =>
    let timed := st.step (.heartbeat p.timestamp)
    let chosen := pollChosen poll (nextHeartbeatTimestamp timed.streams) p.timestamp
    let st := timed.run p.events
    if p.received then some (true, st, polls)
    else if poll - chosen > 0 then listenMessageReliably polls (poll - chosen) st
    else some (false, st, polls)

/-- The loop of `uxr_run_session_until_confirm_delivery`.  Every turn takes a round, so there
are no more turns than rounds. -/
def confirmLoop (timeoutMs : ℤ) : ℕ → List Poll → ClientSession →
    Option (Bool × ClientSession × List Poll)
  | 0, _, _ => none
  | n + 1, polls, st =>
    if st.uxrOutputStreamsConfirmed then some (true, st, polls)
    else
      match listenMessageReliably polls (if timeoutMs ≥ 0 then timeoutMs else int32Max) st with
      | some (true, st, polls) => confirmLoop timeoutMs n polls st
      | some (false, st, polls) => some (st.uxrOutputStreamsConfirmed, st, polls)
      | none => none

/-- `uxr_run_session_until_confirm_delivery`. -/
def uxrRunSessionUntilConfirmDelivery (timeoutMs : ℤ) (polls : List Poll) (st : ClientSession) :
    Option (Bool × ClientSession × List Poll) :=
  confirmLoop timeoutMs (polls.length + 1) polls (st.step .flash)

end XrceDds
