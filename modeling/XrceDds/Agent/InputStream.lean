import XrceDds.Agent.InputMessage
import XrceDds.Agent.OutputStream

/-!
# The input streams of the Agent

The three kinds of input streams of a session, over an arbitrary type of messages.
`ReliableInputStream` keeps the messages that arrived ahead of their turn in a map from
sequence numbers, and puts FRAGMENTs together in `fragmentMsg`.
-/

namespace XrceDds

variable {Msg : Type}

/-! ## None and best-effort streams -/

/-- `NoneInputStream`. -/
structure NoneInputStream (Msg : Type) where
  messages : List Msg

namespace NoneInputStream

/-- The constructor of `NoneInputStream`, and its `reset`. -/
def reset : NoneInputStream Msg := ⟨[]⟩

/-- `push_message`. -/
def pushMessage (stream : NoneInputStream Msg) (message : Msg) : NoneInputStream Msg × Bool :=
  if stream.messages.length < bestEffortStreamDepth then (⟨stream.messages ++ [message]⟩, true)
  else (stream, false)

/-- `pop_message`. -/
def popMessage (stream : NoneInputStream Msg) : NoneInputStream Msg × Option Msg :=
  match stream.messages with
  | [] => (stream, none)
  | message :: messages => (⟨messages⟩, some message)

end NoneInputStream

/-- `BestEffortInputStream`. -/
structure BestEffortInputStream (Msg : Type) where
  messages : List Msg
  lastReceived : SeqNum

namespace BestEffortInputStream

/-- The constructor of `BestEffortInputStream`, and its `reset`. -/
def reset : BestEffortInputStream Msg := ⟨[], ⟨65535, seqNumMax_lt⟩⟩

/-- `push_message`. -/
def pushMessage (stream : BestEffortInputStream Msg) (seqNum : SeqNum) (message : Msg) :
    BestEffortInputStream Msg × Bool :=
  if SeqNum.Gt seqNum stream.lastReceived ∧ stream.messages.length < bestEffortStreamDepth then
    (⟨stream.messages ++ [message], seqNum⟩, true)
  else (stream, false)

/-- `pop_message`. -/
def popMessage (stream : BestEffortInputStream Msg) : BestEffortInputStream Msg × Option Msg :=
  match stream.messages with
  | [] => (stream, none)
  | message :: messages => ({ stream with messages := messages }, some message)

end BestEffortInputStream

/-! ## Reliable streams -/

/-- `ReliableInputStream`. -/
structure ReliableInputStream (Msg : Type) where
  lastHandled : SeqNum
  lastAnnounced : SeqNum
  messages : SeqNum → Option Msg
  fragmentMsg : List UInt8
  fragmentMessageAvailable : Bool

namespace ReliableInputStream

/-- The constructor of `ReliableInputStream`. -/
def new : ReliableInputStream Msg where
  lastHandled := ⟨65535, seqNumMax_lt⟩
  lastAnnounced := ⟨65535, seqNumMax_lt⟩
  messages := fun _ => none
  fragmentMsg := []
  fragmentMessageAvailable := false

/-- The number is within the window of `push_message`. -/
def InWindow (stream : ReliableInputStream Msg) (seqNum : SeqNum) : Prop :=
  SeqNum.Gt seqNum stream.lastHandled ∧
    SeqNum.Le seqNum (SeqNum.add stream.lastHandled (seqOf reliableStreamDepth))

instance (stream : ReliableInputStream Msg) (seqNum : SeqNum) :
    Decidable (stream.InWindow seqNum) := by
  unfold InWindow; infer_instance

/-- `messages_.emplace`: a message that is there stays. -/
def emplace (stream : ReliableInputStream Msg) (seqNum : SeqNum) (message : Msg) :
    ReliableInputStream Msg :=
  match stream.messages seqNum with
  | none => { stream with messages := Function.update stream.messages seqNum (some message) }
  | some _ => stream

/-- `push_message`. -/
def pushMessage (stream : ReliableInputStream Msg) (seqNum : SeqNum) (message : Msg) :
    ReliableInputStream Msg × Bool :=
  if stream.InWindow seqNum then
    if SeqNum.Gt seqNum stream.lastAnnounced then
      (emplace { stream with lastAnnounced := seqNum } seqNum message, true)
    else
      match stream.messages seqNum with
      | none => (stream.emplace seqNum message, true)
      | some _ => (stream, false)
  else (stream, false)

/-- `emplace_message`, with the message that is built from its arguments. -/
def emplaceMessage (stream : ReliableInputStream Msg) (seqNum : SeqNum) (message : Msg) :
    ReliableInputStream Msg × Bool := stream.pushMessage seqNum message

/-- `pop_message`. -/
def popMessage (stream : ReliableInputStream Msg) : ReliableInputStream Msg × Option Msg :=
  match stream.messages (SeqNum.addInt stream.lastHandled 1) with
  | none => (stream, none)
  | some message =>
    let lastHandled := SeqNum.addInt stream.lastHandled 1
    ({ stream with
      lastHandled := lastHandled
      messages := Function.update stream.messages lastHandled none }, some message)

/-- `update_from_heartbeat`. -/
def updateFromHeartbeat (stream : ReliableInputStream Msg) (firstUnacked lastUnacked : SeqNum) :
    ReliableInputStream Msg :=
  { stream with
    lastHandled :=
      if SeqNum.Lt (SeqNum.addInt stream.lastHandled 1) firstUnacked then
        SeqNum.subInt firstUnacked 1
      else stream.lastHandled
    lastAnnounced :=
      if SeqNum.Lt stream.lastAnnounced lastUnacked then lastUnacked else stream.lastAnnounced }

/-- Whether `fill_acknack` sets the bit of the message `i + 1` behind the last one handled. -/
def nacks (stream : ReliableInputStream Msg) (i : ℕ) : Bool :=
  SeqNum.Lt (SeqNum.add stream.lastHandled (seqOf i)) stream.lastAnnounced ∧
    (stream.messages (SeqNum.add stream.lastHandled (seqOf (i + 1)))).isNone

/-- One byte of the bitmap: the eight messages from `i` on. -/
def nackByte (stream : ReliableInputStream Msg) (i : ℕ) : UInt8 :=
  (List.range 8).foldl
    (fun byte k => if stream.nacks (i + k) then byte ||| (1 <<< UInt8.ofNat k) else byte) 0

/-- `fill_acknack`: `first_unacked_seq_num` and the two bytes of `nack_bitmap`. -/
def fillAcknack (stream : ReliableInputStream Msg) : SeqNum × UInt8 × UInt8 :=
  (SeqNum.addInt stream.lastHandled 1, stream.nackByte 8, stream.nackByte 0)

/-- `reset`. -/
def reset (stream : ReliableInputStream Msg) : ReliableInputStream Msg :=
  { stream with
    lastHandled := ⟨65535, seqNumMax_lt⟩
    lastAnnounced := ⟨65535, seqNumMax_lt⟩
    messages := fun _ => none }

/-- `push_fragment`.  The accumulator is resized to the announced length before the bytes are
copied, and the result of the copy is ignored. -/
def pushFragment [FastCdr] (stream : ReliableInputStream Msg) (message : InputMessage) :
    ReliableInputStream Msg × InputMessage :=
  let fragmentMsg := if stream.fragmentMsg = [] then message.getRawHeader else stream.fragmentMsg
  let fragmentSize := message.subheader.submessageLength
  let available := (agentFlagLastFragment &&& message.subheader.flags) ≠ 0
  match message.getRawPayload fragmentSize with
  | some (payload, message) =>
    ({ stream with
      fragmentMsg := fragmentMsg ++ payload, fragmentMessageAvailable := available }, message)
  | none =>
    ({ stream with
      fragmentMsg := fragmentMsg ++ List.replicate fragmentSize 0
      fragmentMessageAvailable := available }, message)

/-- `pop_fragment_message`: the bytes of the message. -/
def popFragmentMessage (stream : ReliableInputStream Msg) :
    ReliableInputStream Msg × Option (List UInt8) :=
  if stream.fragmentMessageAvailable then
    ({ stream with fragmentMsg := [], fragmentMessageAvailable := false }, some stream.fragmentMsg)
  else (stream, none)

end ReliableInputStream

end XrceDds
