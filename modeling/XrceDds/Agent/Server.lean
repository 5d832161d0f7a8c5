import XrceDds.Agent.FCFSScheduler

/-!
# The threads of the server

`Server` runs a thread that receives packets, one that processes them and one that sends what is to
be sent, with a scheduler on each way.  A packet that could not be sent for an error of the server
is put back in front of what waits; between these two the other threads push.

In every order of their steps, what was processed is what was received and what was sent is what was
pushed, in the same order and without repetition, but for what a full queue evicts and for what is
given up on another error (`server_in_order`).  One packet more than the size of a queue may wait to
be sent.
-/

namespace XrceDds

/-- `TransportRc`. -/
inductive TransportRc where
  | ok
  | serverError
  | timeoutError
  | connectionError
  deriving DecidableEq

/-- `OutputPacket`, whose pointer to a message may be null. -/
structure OutputPacket (EndPoint Message : Type) where
  destination : EndPoint
  message : Option Message
  deriving DecidableEq

/-- What `sender_loop` has in its hands: nothing, a packet that is being sent, or one that waits for
`error_mtx_` to be put back. -/
inductive SenderLoop (Packet : Type) where
  | idle
  | sending (packet : Packet)
  | puttingBack (packet : Packet)
  deriving DecidableEq

/-- The packet that is not in the queue. -/
def SenderLoop.inHand {Packet : Type} : SenderLoop Packet → List Packet
  | .idle => []
  | .sending packet | .puttingBack packet => [packet]

lemma SenderLoop.length_inHand_le {Packet : Type} (sender : SenderLoop Packet) :
    sender.inHand.length ≤ 1 := by
  cases sender with
  | idle => exact Nat.zero_le 1
  | sending packet | puttingBack packet => exact Nat.le_refl 1

/-- `Server`: the two schedulers and the thread that sends.  The lists record what went in and what
came out, and the numbers what was evicted or given up. -/
structure Server (Input EndPoint Message : Type) where
  inputScheduler : FCFSScheduler Input
  outputScheduler : FCFSScheduler (OutputPacket EndPoint Message)
  sender : SenderLoop (OutputPacket EndPoint Message)
  received : List Input
  processed : List Input
  inputEvicted : ℕ
  pushed : List (OutputPacket EndPoint Message)
  sent : List (OutputPacket EndPoint Message)
  outputEvicted : ℕ
  givenUp : ℕ

namespace Server

variable {Input EndPoint Message : Type}

/-- The constructor, with queues of a size. -/
def new (maxSize : ℕ) : Server Input EndPoint Message where
  inputScheduler := .new maxSize
  outputScheduler := .new maxSize
  sender := .idle
  received := []
  processed := []
  inputEvicted := 0
  pushed := []
  sent := []
  outputEvicted := 0
  givenUp := 0

/-- Whether `push` evicts. -/
def evicted {α : Type} (scheduler : FCFSScheduler α) : ℕ :=
  if scheduler.maxSize ≤ scheduler.deque.length then 1 else 0

/-- `receiver_loop`, where `recv_message` returned a packet. -/
def receiverLoop (server : Server Input EndPoint Message) (packet : Input) :
    Server Input EndPoint Message :=
  { server with
    inputScheduler := server.inputScheduler.push packet
    received := server.received ++ [packet]
    inputEvicted := server.inputEvicted + evicted server.inputScheduler }

/-- `processing_loop`.  It does nothing as long as `pop` waits, and when it returns `false`. -/
def processingLoop (server : Server Input EndPoint Message) : Server Input EndPoint Message :=
  match server.inputScheduler.pop with
  | some (some packet, scheduler) =>
    { server with
      inputScheduler := scheduler
      processed := server.processed ++ [packet] }
  | _ => server

/-- `push_output_packet`, which any thread calls. -/
def pushOutputPacket (server : Server Input EndPoint Message)
    (packet : OutputPacket EndPoint Message) : Server Input EndPoint Message :=
  if packet.message.isSome then
    { server with
      outputScheduler := server.outputScheduler.push packet
      pushed := server.pushed ++ [packet]
      outputEvicted := server.outputEvicted + evicted server.outputScheduler }
  else
    server

/-- `sender_loop` calls `pop`. -/
def senderPop (server : Server Input EndPoint Message) : Server Input EndPoint Message :=
  match server.sender, server.outputScheduler.pop with
  | .idle, some (some packet, scheduler) =>
    { server with outputScheduler := scheduler, sender := .sending packet }
  | _, _ => server

/-- `send_message` returns to `sender_loop`, which drops the packet on any other error than
`server_error`. -/
def senderSent (server : Server Input EndPoint Message) (rv : Bool) (transportRc : TransportRc) :
    Server Input EndPoint Message :=
  match server.sender with
  | .sending packet =>
    if rv then { server with sender := .idle, sent := server.sent ++ [packet] }
    else if transportRc = .serverError then { server with sender := .puttingBack packet }
    else { server with sender := .idle, givenUp := server.givenUp + 1 }
  | _ => server

/-- `sender_loop` holds `error_mtx_` and puts the packet back. -/
def senderPutBack (server : Server Input EndPoint Message) : Server Input EndPoint Message :=
  match server.sender with
  | .puttingBack packet =>
    { server with
      outputScheduler := server.outputScheduler.pushFront packet
      sender := .idle }
  | _ => server

/-- What `start` and `stop` do with the schedulers: `init` and `deinit`. -/
def setRunning (server : Server Input EndPoint Message) (running : Bool) :
    Server Input EndPoint Message :=
  { server with
    inputScheduler := { server.inputScheduler with runningCond := running }
    outputScheduler := { server.outputScheduler with runningCond := running } }

/-- The steps of the threads.  They look at `running_cond_` between two packets only, so that one
that was begun may end after `stop`. -/
inductive Event (Input EndPoint Message : Type) where
  | start
  | stop
  | receiverLoop (packet : Input)
  | processingLoop
  | pushOutputPacket (packet : OutputPacket EndPoint Message)
  | senderPop
  | senderSent (rv : Bool) (transportRc : TransportRc)
  | senderPutBack

/-- What a step does. -/
def step (server : Server Input EndPoint Message) :
    Event Input EndPoint Message → Server Input EndPoint Message
  | .start => server.setRunning true
  | .stop => server.setRunning false
  | .receiverLoop packet => server.receiverLoop packet
  | .processingLoop => server.processingLoop
  | .pushOutputPacket packet => server.pushOutputPacket packet
  | .senderPop => server.senderPop
  | .senderSent rv transportRc => server.senderSent rv transportRc
  | .senderPutBack => server.senderPutBack

/-- The states that a run reaches, in any order of the steps. -/
def Reachable (maxSize : ℕ) (server : Server Input EndPoint Message) : Prop :=
  Transition.Reaches (· = new maxSize) step (fun _ _ => True) server

/-! ## One queue -/

/-- What went in and what is still there or came out: the same, in the same order, but for what was
lost. -/
structure Passes {α : Type} (before now : List α) (lost : ℕ) : Prop where
  sublist : now.Sublist before
  length_eq : now.length + lost = before.length

/-- A packet is pushed behind what waits. -/
lemma Passes.push {α : Type} {before out : List α} {scheduler : FCFSScheduler α} {lost : ℕ}
    (h : Passes before (out ++ scheduler.deque) lost) (hmax : 1 ≤ scheduler.maxSize) (packet : α) :
    Passes (before ++ [packet]) (out ++ (scheduler.push packet).deque)
      (lost + evicted scheduler) := by
  unfold FCFSScheduler.push evicted
  dsimp only
  split
  · next hfull =>
    have hlength := h.length_eq
    refine ⟨?_, ?_⟩
    · rw [← List.append_assoc]
      exact (((List.tail_sublist _).append_left out).trans h.sublist).append_right [packet]
    · simp only [List.length_append, List.length_tail, List.length_singleton] at hlength ⊢
      omega
  · have hlength := h.length_eq
    refine ⟨?_, ?_⟩
    · rw [← List.append_assoc]
      exact h.sublist.append_right [packet]
    · simp only [List.length_append, List.length_singleton] at hlength ⊢
      omega

/-- What waits after a push. -/
lemma length_push_le {α : Type} {scheduler : FCFSScheduler α} (hmax : 1 ≤ scheduler.maxSize)
    (packet : α) {n : ℕ} (hn : scheduler.maxSize ≤ n) (h : scheduler.deque.length ≤ n) :
    (scheduler.push packet).deque.length ≤ n := by
  unfold FCFSScheduler.push
  dsimp only
  rw [List.length_append, List.length_singleton]
  split
  · rw [List.length_tail]
    omega
  · omega

/-- What `pop` gives was in front of what waits. -/
lemma deque_of_pop {α : Type} {scheduler scheduler' : FCFSScheduler α} {packet : α}
    (h : scheduler.pop = some (some packet, scheduler')) :
    scheduler.deque = packet :: scheduler'.deque ∧ scheduler'.maxSize = scheduler.maxSize := by
  unfold FCFSScheduler.pop at h
  split at h
  · cases h
  · next hdeque =>
    cases h
    exact ⟨hdeque, rfl⟩
  · cases h

/-! ## The server -/

/-- What a run keeps. -/
structure Invariant (maxSize : ℕ) (server : Server Input EndPoint Message) : Prop where
  inputMax : server.inputScheduler.maxSize = maxSize
  outputMax : server.outputScheduler.maxSize = maxSize
  input : Passes server.received (server.processed ++ server.inputScheduler.deque)
    server.inputEvicted
  inputLength : server.inputScheduler.deque.length ≤ maxSize
  output : Passes server.pushed
    (server.sent ++ server.sender.inHand ++ server.outputScheduler.deque)
    (server.outputEvicted + server.givenUp)
  outputLength : server.outputScheduler.deque.length + server.sender.inHand.length ≤ maxSize + 1

variable {maxSize : ℕ} {server : Server Input EndPoint Message}

lemma invariant_new : Invariant maxSize (new maxSize : Server Input EndPoint Message) where
  inputMax := rfl
  outputMax := rfl
  input := ⟨List.Sublist.refl _, rfl⟩
  inputLength := Nat.zero_le _
  output := ⟨List.Sublist.refl _, rfl⟩
  outputLength := Nat.zero_le _

namespace Invariant

lemma receiverLoop (h : Invariant maxSize server) (hmax : 1 ≤ maxSize) (packet : Input) :
    Invariant maxSize (server.receiverLoop packet) := by
  have hinputMax : 1 ≤ server.inputScheduler.maxSize := h.inputMax.symm ▸ hmax
  exact { h with
    input := h.input.push hinputMax packet
    inputLength := length_push_le hinputMax packet (Nat.le_of_eq h.inputMax) h.inputLength }

lemma processingLoop (h : Invariant maxSize server) :
    Invariant maxSize server.processingLoop := by
  unfold Server.processingLoop
  split
  case h_2 => exact h
  case h_1 packet scheduler hpop =>
    obtain ⟨hdeque, hsize⟩ := deque_of_pop hpop
    have hlength := h.inputLength
    have hinput := h.input
    rw [hdeque] at hlength hinput
    exact { h with
      inputMax := hsize.trans h.inputMax
      input := by simpa using hinput
      inputLength := Nat.le_of_succ_le hlength }

/-- While a packet is being sent, `max_size_` others may wait. -/
lemma pushOutputPacket (h : Invariant maxSize server) (hmax : 1 ≤ maxSize)
    (packet : OutputPacket EndPoint Message) :
    Invariant maxSize (server.pushOutputPacket packet) := by
  unfold Server.pushOutputPacket
  split
  case isFalse => exact h
  case isTrue =>
    have houtputMax : 1 ≤ server.outputScheduler.maxSize := h.outputMax.symm ▸ hmax
    have hlost : server.outputEvicted + server.givenUp + evicted server.outputScheduler =
        server.outputEvicted + evicted server.outputScheduler + server.givenUp :=
      Nat.add_right_comm _ _ _
    have hhand := server.sender.length_inHand_le
    have hroom : server.outputScheduler.maxSize ≤ maxSize + 1 - server.sender.inHand.length := by
      rw [h.outputMax]
      exact Nat.le_sub_of_add_le (Nat.add_le_add_left hhand maxSize)
    have hpush := length_push_le houtputMax packet hroom (Nat.le_sub_of_add_le h.outputLength)
    refine { h with output := ?_, outputLength := ?_ }
    · exact hlost ▸ h.output.push houtputMax packet
    · exact Nat.add_le_of_le_sub (Nat.le_trans hhand (Nat.le_add_left 1 maxSize)) hpush

lemma senderPop (h : Invariant maxSize server) : Invariant maxSize server.senderPop := by
  unfold Server.senderPop
  split
  case h_2 => exact h
  case h_1 packet scheduler hidle hpop =>
    obtain ⟨hdeque, hsize⟩ := deque_of_pop hpop
    have hlength := h.outputLength
    have houtput := h.output
    rw [hidle, hdeque] at hlength houtput
    exact { h with
      outputMax := hsize.trans h.outputMax
      output := by simpa [SenderLoop.inHand] using houtput
      outputLength := by simpa [SenderLoop.inHand] using hlength }

/-- The packet was sent, will be put back, or is lost. -/
lemma senderSent (h : Invariant maxSize server) (rv : Bool) (transportRc : TransportRc) :
    Invariant maxSize (server.senderSent rv transportRc) := by
  unfold Server.senderSent
  split
  case h_2 => exact h
  case h_1 packet hsending =>
    have hlength := h.outputLength
    have houtput := h.output
    rw [hsending] at hlength houtput
    split
    · exact { h with
        output := by simpa [SenderLoop.inHand] using houtput
        outputLength := Nat.le_of_succ_le hlength }
    · split
      · exact { h with output := houtput, outputLength := hlength }
      · refine { h with output := ⟨?_, ?_⟩, outputLength := Nat.le_of_succ_le hlength }
        · refine List.Sublist.trans (List.Sublist.append_right ?_ _) houtput.sublist
          exact (List.nil_sublist _).append_left server.sent
        · have heq := houtput.length_eq
          simp only [SenderLoop.inHand, List.length_append, List.length_singleton,
            List.length_nil] at heq ⊢
          omega

/-- It is put back where it was, behind nothing that was pushed before it. -/
lemma senderPutBack (h : Invariant maxSize server) :
    Invariant maxSize server.senderPutBack := by
  unfold Server.senderPutBack
  split
  case h_2 => exact h
  case h_1 packet hback =>
    have hlength := h.outputLength
    have houtput := h.output
    rw [hback] at hlength houtput
    exact { h with
      output := by simpa [SenderLoop.inHand, FCFSScheduler.pushFront] using houtput
      outputLength := by simpa [SenderLoop.inHand, FCFSScheduler.pushFront] using hlength }

/-- Every step keeps the invariant. -/
lemma step (h : Invariant maxSize server) (hmax : 1 ≤ maxSize)
    (e : Event Input EndPoint Message) : Invariant maxSize (server.step e) := by
  cases e with
  | start => exact ⟨h.inputMax, h.outputMax, h.input, h.inputLength, h.output, h.outputLength⟩
  | stop => exact ⟨h.inputMax, h.outputMax, h.input, h.inputLength, h.output, h.outputLength⟩
  | receiverLoop packet => exact h.receiverLoop hmax packet
  | processingLoop => exact h.processingLoop
  | pushOutputPacket packet => exact h.pushOutputPacket hmax packet
  | senderPop => exact h.senderPop
  | senderSent rv transportRc => exact h.senderSent rv transportRc
  | senderPutBack => exact h.senderPutBack

end Invariant

/-- In every order of the steps of its threads, a server processes the packets that it received and
sends those that were pushed in the order in which they came, and none of them twice.  What is
missing is still there, was evicted from a full queue, or was given up when it was sent; and no more
than one packet waits beyond the size of a queue, where one was put back. -/
theorem server_in_order (hmax : 1 ≤ maxSize) (h : Reachable maxSize server) :
    Passes server.received (server.processed ++ server.inputScheduler.deque)
      server.inputEvicted ∧
    server.inputScheduler.deque.length ≤ maxSize ∧
    Passes server.pushed (server.sent ++ server.sender.inHand ++ server.outputScheduler.deque)
      (server.outputEvicted + server.givenUp) ∧
    server.outputScheduler.deque.length + server.sender.inHand.length ≤ maxSize + 1 := by
  have hinvariant : Invariant maxSize server := by
    refine Transition.Reaches.invariant (I := Invariant maxSize) ?_ ?_ h
    · rintro _ rfl
      exact invariant_new
    · intro before e hbefore _
      exact hbefore.step hmax e
  exact ⟨hinvariant.input, hinvariant.inputLength, hinvariant.output, hinvariant.outputLength⟩

/-- A packet to an end point, by its number. -/
def packet (number : ℕ) : OutputPacket ℕ ℕ := ⟨0, some number⟩

/-- A packet cannot be sent, two others fill the queue meanwhile, and it is put back and sent. -/
def retriedRun : List (Event ℕ ℕ ℕ) :=
  [.start, .pushOutputPacket (packet 1), .senderPop, .senderSent false .serverError,
    .pushOutputPacket (packet 2), .pushOutputPacket (packet 3), .senderPutBack, .senderPop,
    .senderSent true .ok]

/-- The packets after it still wait, in their order. -/
theorem server_in_order_retried :
    Passes ([] : List ℕ) ([] ++ []) 0 ∧ 0 ≤ 2 ∧
      Passes [packet 1, packet 2, packet 3] ([packet 1] ++ [] ++ [packet 2, packet 3]) (0 + 0) ∧
      [packet 2, packet 3].length + 0 ≤ 2 + 1 := by
  have hstart : Reachable 2 (new 2 : Server ℕ ℕ ℕ) := .start rfl
  exact server_in_order (by decide) (hstart.foldl retriedRun (by simp [retriedRun,
    Transition.AdmittedAll]))

end Server

end XrceDds
