import Mathlib.Data.List.Basic
import Mathlib.Data.Nat.Notation

/-!
# Sending a message over TCP

`send_tcp_msg` of the client and `TCPv4Agent::send_message` send the two bytes of the length
and then the payload, each in a loop of at most sixteen attempts.  The loop over the payload
goes on behind what was accepted.  The loop over the length offers both bytes every time, so
that a socket that takes them one by one is given the first byte twice.

The client disconnects whenever it fails.  The Agent closes the connection after an error of
the socket only, and not when its attempts run out.  Nothing else can go wrong
(`tcpSend_exact_iff`).
-/

namespace XrceDds

/-- What the calls of `send` do: `none` is an error, and `some n` accepts `n` bytes, or all that
are offered when they are fewer. -/
abbrev Socket := ℕ → Option ℕ

/-- The calls behind the first one. -/
def Socket.next (socket : Socket) : Socket := fun i => socket (i + 1)

/-- `UXR_MAX_WRITE_TCP_ATTEMPS` and `max_attemps`. -/
def maxAttemps : ℕ := 16

/-- How a loop of attempts ends: the bytes are sent, the socket fails, or the attempts run
out. -/
inductive SendOutcome where
  | sent
  | failed
  | exhausted
  deriving DecidableEq, Repr

/-- What a loop of attempts leads to: its end, the bytes that the socket accepted, and the calls
that follow. -/
structure SendResult where
  outcome : SendOutcome
  accepted : List UInt8
  socket : Socket

/-- Bytes were accepted before. -/
def SendResult.after (accepted : List UInt8) (r : SendResult) : SendResult :=
  { r with accepted := accepted ++ r.accepted }

/-- A loop of attempts to send `len` bytes, of which `bytesSent` are counted as sent.  `offer`
is what a call offers, and `count` the conversion to the type of `bytes_sent`. -/
def sendLoop (offer : ℕ → List UInt8) (count : ℕ → ℕ) (len : ℕ) :
    ℕ → ℕ → Socket → SendResult
  | 0, _, socket => ⟨.exhausted, [], socket⟩
  | n + 1, bytesSent, socket =>
    match socket 0 with
    | none => ⟨.failed, [], socket.next⟩
    | some m =>
      let accepted := (offer bytesSent).take m
      let bytesSent := count (bytesSent + accepted.length)
      if 0 < accepted.length ∧ bytesSent = len then ⟨.sent, accepted, socket.next⟩
      else (sendLoop offer count len n bytesSent socket.next).after accepted

/-- `msg_size_buf`. -/
def msgSizeBuf (len : ℕ) : List UInt8 := [UInt8.ofNat len, UInt8.ofNat (len / 256)]

/-- The loop over the two bytes of the length, which offers both every time. -/
def sizeLoop (count : ℕ → ℕ) (len : ℕ) : ℕ → ℕ → Socket → SendResult :=
  sendLoop (fun _ => msgSizeBuf len) count 2

/-- The loop over the payload, which offers what is not sent yet. -/
def payloadLoop (count : ℕ → ℕ) (buf : List UInt8) : ℕ → ℕ → Socket → SendResult :=
  sendLoop buf.drop count (count buf.length)

/-- What a call leads to: its result, the bytes that the socket accepted, and whether the
connection is closed. -/
structure SendMessage where
  rv : Bool
  accepted : List UInt8
  closed : Bool
  deriving DecidableEq, Repr

/-- The length and then the payload.  `closes` is what ends of a loop close the connection. -/
def sendMessage (count : ℕ → ℕ) (closes : SendOutcome → Bool) (buf : List UInt8)
    (socket : Socket) : SendMessage :=
  let size := sizeLoop count buf.length maxAttemps 0 socket
  if size.outcome = .sent then
    let payload := payloadLoop count buf maxAttemps 0 size.socket
    { rv := payload.outcome = .sent
      accepted := size.accepted ++ payload.accepted
      closed := closes payload.outcome }
  else
    { rv := false
      accepted := size.accepted
      closed := closes size.outcome }

/-- `send_tcp_msg`. -/
def sendTcpMsg (buf : List UInt8) (socket : Socket) : SendMessage :=
  sendMessage (fun n => n % 18446744073709551616) (fun outcome => outcome ≠ .sent) buf socket

/-- `TCPv4Agent::send_message`, to an endpoint with a connection.  An error of the socket is
`TransportRc::connection_error`. -/
def tcpv4AgentSendMessage (buf : List UInt8) (socket : Socket) : SendMessage :=
  sendMessage (fun n => n % 65536) (fun outcome => outcome = .failed) buf socket

/-- A message is sent exactly, or the connection is closed. -/
structure SendExact (buf : List UInt8) (r : SendMessage) : Prop where
  success : r.rv = true → r.accepted = msgSizeBuf buf.length ++ buf
  failure : r.rv = false → r.accepted ≠ [] → r.closed = true

/-! ## What the socket does -/

/-- Within `n` calls the socket accepts one byte of the two that are offered, and the calls
`rest` follow. -/
inductive OneByte : ℕ → Socket → Socket → Prop
  | skip {n : ℕ} {socket rest : Socket} :
      socket 0 = some 0 → OneByte n socket.next rest → OneByte (n + 1) socket rest
  | one {n : ℕ} {socket : Socket} : socket 0 = some 1 → OneByte (n + 1) socket socket.next

/-- Within `n` calls the socket accepts two bytes one by one. -/
inductive Split : ℕ → Socket → Socket → Prop
  | skip {n : ℕ} {socket rest : Socket} :
      socket 0 = some 0 → Split n socket.next rest → Split (n + 1) socket rest
  | one {n : ℕ} {socket rest : Socket} :
      socket 0 = some 1 → OneByte n socket.next rest → Split (n + 1) socket rest

/-- Within `n` calls the socket accepts two bytes at once. -/
inductive Whole : ℕ → Socket → Socket → Prop
  | skip {n : ℕ} {socket rest : Socket} :
      socket 0 = some 0 → Whole n socket.next rest → Whole (n + 1) socket rest
  | two {n m : ℕ} {socket : Socket} : socket 0 = some m → 2 ≤ m → Whole (n + 1) socket socket.next

/-- None of the first `n` calls fails. -/
def NoError (n : ℕ) (socket : Socket) : Prop := ∀ i < n, socket i ≠ none

/-- What the first `n` calls accept at most. -/
def acceptedIn (socket : Socket) : ℕ → ℕ
  | 0 => 0
  | n + 1 => (socket 0).getD 0 + acceptedIn socket.next n

/-- The calls accept a payload of `len` bytes before their number runs out. -/
def Completes (len : ℕ) (socket : Socket) : Prop :=
  ∃ n ≤ maxAttemps, NoError n socket ∧ len ≤ acceptedIn socket n

/-- The calls for a payload run out before it is accepted. -/
def RunsOut (len : ℕ) (socket : Socket) : Prop :=
  NoError maxAttemps socket ∧ acceptedIn socket maxAttemps < len

/-- The calls for the length run out when they have accepted something, but not two bytes. -/
def SizeRunsOut (socket : Socket) : Prop :=
  NoError maxAttemps socket ∧ 0 < acceptedIn socket maxAttemps ∧
    (∀ rest, ¬ Split maxAttemps socket rest) ∧ ∀ rest, ¬ Whole maxAttemps socket rest

theorem noError_succ (n : ℕ) (socket : Socket) :
    NoError (n + 1) socket ↔ socket 0 ≠ none ∧ NoError n socket.next := by
  constructor
  · intro h
    exact ⟨h 0 (by omega), fun i hi => h (i + 1) (by omega)⟩
  · rintro ⟨h0, h⟩ i hi
    cases i with
    | zero => exact h0
    | succ i => exact h i (by omega)

theorem acceptedIn_mono (socket : Socket) {n k : ℕ} (h : n ≤ k) :
    acceptedIn socket n ≤ acceptedIn socket k := by
  induction n generalizing socket k with
  | zero => exact Nat.zero_le _
  | succ n ih =>
    obtain ⟨k, rfl⟩ : ∃ k', k = k' + 1 := ⟨k - 1, by omega⟩
    exact Nat.add_le_add_left (ih socket.next (by omega)) _

/-! ## A loop of attempts -/

@[simp]
theorem SendResult.after_outcome (accepted : List UInt8) (r : SendResult) :
    (r.after accepted).outcome = r.outcome := rfl

@[simp]
theorem SendResult.after_accepted (accepted : List UInt8) (r : SendResult) :
    (r.after accepted).accepted = accepted ++ r.accepted := rfl

theorem SendResult.after_nil (r : SendResult) : r.after [] = r := rfl

section sendLoop

variable {offer : ℕ → List UInt8} {count : ℕ → ℕ} {len n m b : ℕ} {socket : Socket}

theorem sendLoop_none (h : socket 0 = none) :
    sendLoop offer count len (n + 1) b socket = ⟨.failed, [], socket.next⟩ := by
  rw [sendLoop, h]

/-- An attempt that does not end the loop. -/
theorem sendLoop_next (h : socket 0 = some m)
    (hb : ((offer b).take m).length = 0 ∨ count (b + ((offer b).take m).length) ≠ len) :
    sendLoop offer count len (n + 1) b socket =
      (sendLoop offer count len n (count (b + ((offer b).take m).length)) socket.next).after
        ((offer b).take m) := by
  rw [sendLoop, h]
  dsimp only
  rw [if_neg]
  rintro ⟨hpos, heq⟩
  cases hb with
  | inl hb => omega
  | inr hb => exact hb heq

/-- An attempt that ends the loop. -/
theorem sendLoop_last (h : socket 0 = some m) (hpos : 0 < ((offer b).take m).length)
    (hb : count (b + ((offer b).take m).length) = len) :
    sendLoop offer count len (n + 1) b socket =
      ⟨.sent, (offer b).take m, socket.next⟩ := by
  rw [sendLoop, h]
  dsimp only
  rw [if_pos ⟨hpos, hb⟩]

/-- The loop fails only with the socket. -/
theorem not_noError_of_failed
    (h : (sendLoop offer count len n b socket).outcome = .failed) : ¬ NoError n socket := by
  induction n generalizing b socket with
  | zero => cases h
  | succ n ih =>
    rw [noError_succ]
    rintro ⟨h0, hne⟩
    obtain ⟨m, hm⟩ := Option.ne_none_iff_exists'.1 h0
    rw [sendLoop, hm] at h
    dsimp only at h
    split at h
    · cases h
    · exact ih h hne

/-- The attempts run out only without a failure. -/
theorem noError_of_exhausted
    (h : (sendLoop offer count len n b socket).outcome = .exhausted) : NoError n socket := by
  induction n generalizing b socket with
  | zero => intro i hi; omega
  | succ n ih =>
    rw [noError_succ]
    cases hm : socket 0 with
    | none => rw [sendLoop_none hm] at h; cases h
    | some m =>
      rw [sendLoop, hm] at h
      dsimp only at h
      split at h
      · cases h
      · exact ⟨by simp, ih h⟩

/-- While a call offers something, nothing is accepted only when the socket accepts nothing. -/
theorem accepted_ne_nil_iff (hoffer : ∀ b, offer b ≠ [])
    (h : (sendLoop offer count len n b socket).outcome = .exhausted) :
    (sendLoop offer count len n b socket).accepted ≠ [] ↔ 0 < acceptedIn socket n := by
  induction n generalizing b socket with
  | zero => simp [sendLoop, acceptedIn]
  | succ n ih =>
    cases hm : socket 0 with
    | none => rw [sendLoop_none hm] at h; cases h
    | some m =>
      rw [acceptedIn, hm, Option.getD_some]
      rw [sendLoop, hm] at h ⊢
      dsimp only at h ⊢
      split at h
      · cases h
      · rename_i hgo
        rw [if_neg hgo, SendResult.after_accepted]
        rw [SendResult.after_outcome] at h
        cases m with
        | zero => rw [List.take_zero, List.nil_append, Nat.zero_add]; exact ih h
        | succ m =>
          obtain ⟨x, xs, hx⟩ := List.exists_cons_of_ne_nil (hoffer b)
          rw [hx, List.take_succ_cons]
          exact ⟨fun _ => by omega, fun _ => by simp⟩

end sendLoop

/-! ## The loop over the length -/

/-- A conversion to the type of `bytes_sent` that keeps the numbers below `2 ^ 16`. -/
def Counts (count : ℕ → ℕ) : Prop := ∀ n < 65536, count n = n

theorem counts_mod {w : ℕ} (h : 65536 ≤ w) : Counts fun n => n % w :=
  fun _ hn => Nat.mod_eq_of_lt (by omega)

theorem length_take_msgSizeBuf (len m : ℕ) : ((msgSizeBuf len).take m).length = min m 2 := by
  rw [List.length_take]; rfl

section sizeLoop

variable {count : ℕ → ℕ} (len : ℕ) {n : ℕ} {socket rest : Socket}

theorem sizeLoop_zero (hc : Counts count) {b : ℕ} (hb : b < 2) (h : socket 0 = some 0) :
    sizeLoop count len (n + 1) b socket = sizeLoop count len n b socket.next := by
  rw [sizeLoop, sendLoop_next h (Or.inl (by simp))]
  simp only [List.take_zero, List.length_nil, Nat.add_zero]
  rw [hc b (by omega), SendResult.after_nil]

theorem sizeLoop_of_oneByte (hc : Counts count) (h : OneByte n socket rest) :
    sizeLoop count len n 1 socket = ⟨.sent, [UInt8.ofNat len], rest⟩ := by
  induction h with
  | skip h0 _ ih => rw [sizeLoop_zero _ hc (by omega) h0, ih]
  | one h0 => exact sendLoop_last h0 Nat.one_pos (hc 2 (by omega))

/-- The byte that is accepted second is the first one again. -/
theorem sizeLoop_of_split (hc : Counts count) (h : Split n socket rest) :
    sizeLoop count len n 0 socket =
      ⟨.sent, [UInt8.ofNat len, UInt8.ofNat len], rest⟩ := by
  induction h with
  | skip h0 _ ih => rw [sizeLoop_zero _ hc (by omega) h0, ih]
  | @one n socket rest h0 hone =>
    have hcount : count (0 + ((msgSizeBuf len).take 1).length) = 1 := hc 1 (by omega)
    rw [sizeLoop, sendLoop_next h0 (Or.inr (by rw [hcount]; decide)), hcount]
    exact congrArg (SendResult.after _) (sizeLoop_of_oneByte _ hc hone)

theorem sizeLoop_of_whole (hc : Counts count) (h : Whole n socket rest) :
    sizeLoop count len n 0 socket = ⟨.sent, msgSizeBuf len, rest⟩ := by
  induction h with
  | skip h0 _ ih => rw [sizeLoop_zero _ hc (by omega) h0, ih]
  | @two n m socket h0 hm =>
    have htake : (msgSizeBuf len).take m = msgSizeBuf len := List.take_of_length_le hm
    rw [sizeLoop, sendLoop_last h0 (by rw [htake]; exact Nat.two_pos)
      (by rw [htake]; exact hc 2 (by omega)), htake]

/-- A counter that has passed two never comes back to it. -/
theorem sizeLoop_ne_sent (hc : Counts count) {b : ℕ} (hb : 2 < b) (hn : b + 2 * n < 65536) :
    (sizeLoop count len n b socket).outcome ≠ .sent := by
  induction n generalizing b socket with
  | zero => exact SendOutcome.noConfusion
  | succ n ih =>
    cases hm : socket 0 with
    | none => rw [sizeLoop, sendLoop_none hm]; exact SendOutcome.noConfusion
    | some m =>
      have hlen := length_take_msgSizeBuf len m
      have hcount : count (b + ((msgSizeBuf len).take m).length) =
          b + ((msgSizeBuf len).take m).length := hc _ (by omega)
      rw [sizeLoop, sendLoop_next hm (Or.inr (by rw [hcount]; omega)), hcount,
        SendResult.after_outcome]
      exact ih (by omega) (by omega)

theorem oneByte_of_sent (hc : Counts count) (hn : 2 * n < 65500)
    (h : (sizeLoop count len n 1 socket).outcome = .sent) : ∃ rest, OneByte n socket rest := by
  induction n generalizing socket with
  | zero => cases h
  | succ n ih =>
    cases hm : socket 0 with
    | none => rw [sizeLoop, sendLoop_none hm] at h; cases h
    | some m =>
      obtain rfl | rfl | hm2 : m = 0 ∨ m = 1 ∨ 2 ≤ m := by omega
      · rw [sizeLoop_zero _ hc (by omega) hm] at h
        obtain ⟨rest, hrest⟩ := ih (by omega) h
        exact ⟨rest, .skip hm hrest⟩
      · exact ⟨socket.next, .one hm⟩
      · exfalso
        have hlen := length_take_msgSizeBuf len m
        have hcount : count (1 + ((msgSizeBuf len).take m).length) = 3 := by
          rw [hlen, Nat.min_eq_right hm2]; exact hc 3 (by omega)
        rw [sizeLoop, sendLoop_next hm (Or.inr (by rw [hcount]; decide)), hcount,
          SendResult.after_outcome] at h
        exact sizeLoop_ne_sent _ hc (by omega) (by omega) h

theorem split_or_whole_of_sent (hc : Counts count) (hn : 2 * n < 65500)
    (h : (sizeLoop count len n 0 socket).outcome = .sent) :
    ∃ rest, Split n socket rest ∨ Whole n socket rest := by
  induction n generalizing socket with
  | zero => cases h
  | succ n ih =>
    cases hm : socket 0 with
    | none => rw [sizeLoop, sendLoop_none hm] at h; cases h
    | some m =>
      obtain rfl | rfl | hm2 : m = 0 ∨ m = 1 ∨ 2 ≤ m := by omega
      · rw [sizeLoop_zero _ hc (by omega) hm] at h
        obtain ⟨rest, hrest | hrest⟩ := ih (by omega) h
        · exact ⟨rest, Or.inl (.skip hm hrest)⟩
        · exact ⟨rest, Or.inr (.skip hm hrest)⟩
      · have hcount : count (0 + ((msgSizeBuf len).take 1).length) = 1 := hc 1 (by omega)
        rw [sizeLoop, sendLoop_next hm (Or.inr (by rw [hcount]; decide)), hcount,
          SendResult.after_outcome] at h
        obtain ⟨rest, hrest⟩ := oneByte_of_sent _ hc (by omega) h
        exact ⟨rest, Or.inl (.one hm hrest)⟩
      · exact ⟨socket.next, Or.inr (.two hm hm2)⟩

/-- The attempts for the length run out with something accepted. -/
theorem sizeRunsOut_iff (hc : Counts count) :
    SizeRunsOut socket ↔ (sizeLoop count len maxAttemps 0 socket).outcome = .exhausted ∧
      (sizeLoop count len maxAttemps 0 socket).accepted ≠ [] := by
  have hoffer : ∀ b : ℕ, (fun _ => msgSizeBuf len) b ≠ [] := fun _ => List.cons_ne_nil _ _
  constructor
  · rintro ⟨hne, hpos, hsplit, hwhole⟩
    have hex : (sizeLoop count len maxAttemps 0 socket).outcome = .exhausted := by
      cases hout : (sizeLoop count len maxAttemps 0 socket).outcome with
      | sent =>
        obtain ⟨rest, hrest | hrest⟩ := split_or_whole_of_sent _ hc (by decide) hout
        · exact (hsplit rest hrest).elim
        · exact (hwhole rest hrest).elim
      | failed => exact (not_noError_of_failed hout hne).elim
      | exhausted => rfl
    exact ⟨hex, (accepted_ne_nil_iff hoffer hex).2 hpos⟩
  · rintro ⟨hex, hne⟩
    refine ⟨noError_of_exhausted hex, (accepted_ne_nil_iff hoffer hex).1 hne, ?_, ?_⟩
    · intro rest hrest
      rw [sizeLoop_of_split _ hc hrest] at hex
      cases hex
    · intro rest hrest
      rw [sizeLoop_of_whole _ hc hrest] at hex
      cases hex

end sizeLoop

/-! ## The loop over the payload -/

section payloadLoop

variable {count : ℕ → ℕ} {buf : List UInt8} {n b : ℕ} {socket : Socket}

/-- The loop goes on behind what was accepted. -/
theorem payloadLoop_sent (hc : Counts count) (hlen : buf.length < 65536) (hb : b < buf.length)
    (h : (payloadLoop count buf n b socket).outcome = .sent) :
    (payloadLoop count buf n b socket).accepted = buf.drop b ∧
      ∃ k ≤ n, NoError k socket ∧ buf.length ≤ b + acceptedIn socket k := by
  induction n generalizing b socket with
  | zero => cases h
  | succ n ih =>
    cases hm : socket 0 with
    | none => rw [payloadLoop, sendLoop_none hm] at h; cases h
    | some m =>
      have htake : ((buf.drop b).take m).length = min m (buf.length - b) := by
        rw [List.length_take, List.length_drop]
      have hcount : count (b + ((buf.drop b).take m).length) =
          b + ((buf.drop b).take m).length := hc _ (by omega)
      have hcl : count buf.length = buf.length := hc _ hlen
      by_cases hfin : buf.length - b ≤ m
      · have hall : (buf.drop b).take m = buf.drop b :=
          List.take_of_length_le (by rw [List.length_drop]; omega)
        rw [payloadLoop, sendLoop_last hm (by omega) (by rw [hcount, hcl]; omega)]
        refine ⟨hall, 1, by omega, ?_, ?_⟩
        · intro i hi
          rw [show i = 0 by omega, hm]
          simp
        · rw [acceptedIn, acceptedIn, hm, Option.getD_some]
          omega
      · rw [payloadLoop, sendLoop_next hm (Or.inr (by rw [hcount, hcl]; omega)), hcount] at h ⊢
        rw [SendResult.after_outcome] at h
        have hmin : ((buf.drop b).take m).length = m := by omega
        rw [hmin] at h ⊢
        obtain ⟨hacc, k, hk, hne, hle⟩ := ih (by omega) h
        refine ⟨?_, k + 1, by omega, ?_, ?_⟩
        · refine (congrArg ((buf.drop b).take m ++ ·) hacc).trans ?_
          rw [← List.drop_drop, List.take_append_drop]
        · rw [noError_succ, hm]
          exact ⟨by simp, hne⟩
        · rw [acceptedIn, hm, Option.getD_some]
          omega

theorem payloadLoop_exhausted (hc : Counts count) (hlen : buf.length < 65536)
    (hb : b < buf.length)
    (h : (payloadLoop count buf n b socket).outcome = .exhausted) :
    b + acceptedIn socket n < buf.length := by
  induction n generalizing b socket with
  | zero => exact hb
  | succ n ih =>
    cases hm : socket 0 with
    | none => rw [payloadLoop, sendLoop_none hm] at h; cases h
    | some m =>
      have htake : ((buf.drop b).take m).length = min m (buf.length - b) := by
        rw [List.length_take, List.length_drop]
      have hcount : count (b + ((buf.drop b).take m).length) =
          b + ((buf.drop b).take m).length := hc _ (by omega)
      have hcl : count buf.length = buf.length := hc _ hlen
      by_cases hfin : buf.length - b ≤ m
      · rw [payloadLoop, sendLoop_last hm (by omega) (by rw [hcount, hcl]; omega)] at h
        cases h
      · rw [payloadLoop, sendLoop_next hm (Or.inr (by rw [hcount, hcl]; omega)), hcount,
          SendResult.after_outcome] at h
        have hle := ih (by omega) h
        rw [acceptedIn, hm, Option.getD_some]
        omega

theorem payloadLoop_failed (hc : Counts count) (hlen : buf.length < 65536)
    (hb : b < buf.length)
    (h : (payloadLoop count buf n b socket).outcome = .failed) :
    ∀ k ≤ n, NoError k socket → b + acceptedIn socket k < buf.length := by
  induction n generalizing b socket with
  | zero => cases h
  | succ n ih =>
    intro k hk hne
    cases k with
    | zero => exact hb
    | succ k =>
      rw [noError_succ] at hne
      obtain ⟨m, hm⟩ := Option.ne_none_iff_exists'.1 hne.1
      have htake : ((buf.drop b).take m).length = min m (buf.length - b) := by
        rw [List.length_take, List.length_drop]
      have hcount : count (b + ((buf.drop b).take m).length) =
          b + ((buf.drop b).take m).length := hc _ (by omega)
      have hcl : count buf.length = buf.length := hc _ hlen
      by_cases hfin : buf.length - b ≤ m
      · rw [payloadLoop, sendLoop_last hm (by omega) (by rw [hcount, hcl]; omega)] at h
        cases h
      · rw [payloadLoop, sendLoop_next hm (Or.inr (by rw [hcount, hcl]; omega)), hcount,
          SendResult.after_outcome] at h
        have hle := ih (by omega) h k (by omega) hne.2
        rw [acceptedIn, hm, Option.getD_some]
        omega

/-- The payload is sent when the calls accept it in time. -/
theorem payloadLoop_sent_iff (hc : Counts count) (hlen : buf.length < 65536)
    (hpos : 0 < buf.length) :
    (payloadLoop count buf maxAttemps 0 socket).outcome = .sent ↔
      Completes buf.length socket := by
  constructor
  · intro h
    obtain ⟨_, k, hk, hne, hle⟩ := payloadLoop_sent hc hlen hpos h
    exact ⟨k, hk, hne, by omega⟩
  · rintro ⟨k, hk, hne, hle⟩
    cases hout : (payloadLoop count buf maxAttemps 0 socket).outcome with
    | sent => rfl
    | failed =>
      have hlt := payloadLoop_failed hc hlen hpos hout k hk hne
      omega
    | exhausted =>
      have hlt := payloadLoop_exhausted hc hlen hpos hout
      have hmono := acceptedIn_mono socket hk
      omega

theorem payloadLoop_exhausted_iff (hc : Counts count) (hlen : buf.length < 65536)
    (hpos : 0 < buf.length) :
    (payloadLoop count buf maxAttemps 0 socket).outcome = .exhausted ↔
      RunsOut buf.length socket := by
  constructor
  · intro h
    have hlt := payloadLoop_exhausted hc hlen hpos h
    exact ⟨noError_of_exhausted h, by omega⟩
  · rintro ⟨hne, hlt⟩
    cases hout : (payloadLoop count buf maxAttemps 0 socket).outcome with
    | sent =>
      obtain ⟨_, k, hk, _, hle⟩ := payloadLoop_sent hc hlen hpos hout
      have hmono := acceptedIn_mono socket hk
      omega
    | failed => exact (not_noError_of_failed hout hne).elim
    | exhausted => rfl

end payloadLoop

/-! ## A whole message -/

section sendMessage

variable {count : ℕ → ℕ} {closes : SendOutcome → Bool} {buf : List UInt8} {socket rest : Socket}

theorem msgSizeBuf_eq_iff (len : ℕ) :
    [UInt8.ofNat len, UInt8.ofNat len] = msgSizeBuf len ↔
      UInt8.ofNat len = UInt8.ofNat (len / 256) := by
  simp [msgSizeBuf]

/-- The calls that follow the length are determined. -/
theorem rest_eq_of_size {size : List UInt8} {rest' : Socket}
    (h : sizeLoop count buf.length maxAttemps 0 socket = ⟨.sent, size, rest⟩)
    (hc : Counts count)
    (h' : Split maxAttemps socket rest' ∨ Whole maxAttemps socket rest') : rest' = rest := by
  cases h' with
  | inl h' =>
    rw [sizeLoop_of_split _ hc h'] at h
    exact congrArg SendResult.socket h
  | inr h' =>
    rw [sizeLoop_of_whole _ hc h'] at h
    exact congrArg SendResult.socket h

theorem no_rest_of_ne_sent (len : ℕ) (hc : Counts count)
    (h : (sizeLoop count len maxAttemps 0 socket).outcome ≠ .sent) (rest : Socket) :
    ¬ (Split maxAttemps socket rest ∨ Whole maxAttemps socket rest) := by
  rintro (hrest | hrest)
  · rw [sizeLoop_of_split _ hc hrest] at h
    exact h rfl
  · rw [sizeLoop_of_whole _ hc hrest] at h
    exact h rfl

/-- A call whose length is sent. -/
theorem sendMessage_of_size {size : List UInt8}
    (h : sizeLoop count buf.length maxAttemps 0 socket = ⟨.sent, size, rest⟩) :
    sendMessage count closes buf socket =
      { rv := (payloadLoop count buf maxAttemps 0 rest).outcome = .sent
        accepted := size ++ (payloadLoop count buf maxAttemps 0 rest).accepted
        closed := closes (payloadLoop count buf maxAttemps 0 rest).outcome } := by
  unfold sendMessage
  dsimp only
  rw [h, if_pos rfl]

/-- A call whose length is not sent. -/
theorem sendMessage_of_ne_sent
    (h : (sizeLoop count buf.length maxAttemps 0 socket).outcome ≠ .sent) :
    sendMessage count closes buf socket =
      { rv := false
        accepted := (sizeLoop count buf.length maxAttemps 0 socket).accepted
        closed := closes (sizeLoop count buf.length maxAttemps 0 socket).outcome } := by
  unfold sendMessage
  dsimp only
  rw [if_neg h]

/-- A call whose length is sent as `size` is exact when a success means the right length, and the
attempts for the payload run out only with the connection closed. -/
theorem sendExact_of_size_iff (hc : Counts count) (hlen : buf.length < 65536)
    (hpos : 0 < buf.length) (hfailed : closes .failed = true) {size : List UInt8}
    (hne : size ≠ [])
    (h : sizeLoop count buf.length maxAttemps 0 socket = ⟨.sent, size, rest⟩) :
    SendExact buf (sendMessage count closes buf socket) ↔
      (Completes buf.length rest → size = msgSizeBuf buf.length) ∧
        (RunsOut buf.length rest → closes .exhausted = true) := by
  rw [sendMessage_of_size h, ← payloadLoop_sent_iff hc hlen hpos,
    ← payloadLoop_exhausted_iff hc hlen hpos]
  cases hout : (payloadLoop count buf maxAttemps 0 rest).outcome with
  | sent =>
    have hacc : (payloadLoop count buf maxAttemps 0 rest).accepted = buf :=
      (payloadLoop_sent hc hlen hpos hout).1
    constructor
    · intro hexact
      have hsucc := hexact.success (by simp)
      dsimp only at hsucc
      rw [hacc] at hsucc
      exact ⟨fun _ => List.append_cancel_right hsucc, by simp⟩
    · rintro ⟨hsize, -⟩
      refine ⟨fun _ => ?_, by simp⟩
      dsimp only
      rw [hacc, hsize rfl]
  | failed =>
    refine ⟨fun _ => ⟨by simp, by simp⟩, fun _ => ⟨by simp, fun _ _ => hfailed⟩⟩
  | exhausted =>
    constructor
    · intro hexact
      refine ⟨by simp, fun _ => hexact.failure (by simp) ?_⟩
      dsimp only
      exact List.append_ne_nil_of_left_ne_nil hne _
    · rintro ⟨-, hclose⟩
      exact ⟨by simp, fun _ _ => hclose rfl⟩

/-- When a call is exact. -/
theorem sendExact_sendMessage_iff (hc : Counts count) (hlen : buf.length < 65536)
    (hpos : 0 < buf.length) (hfailed : closes .failed = true) :
    SendExact buf (sendMessage count closes buf socket) ↔
      (∀ rest, Split maxAttemps socket rest → Completes buf.length rest →
        UInt8.ofNat buf.length = UInt8.ofNat (buf.length / 256)) ∧
      ((SizeRunsOut socket ∨ ∃ rest,
        (Split maxAttemps socket rest ∨ Whole maxAttemps socket rest) ∧
          RunsOut buf.length rest) → closes .exhausted = true) := by
  rw [sizeRunsOut_iff buf.length hc]
  cases hout : (sizeLoop count buf.length maxAttemps 0 socket).outcome with
  | sent =>
    obtain ⟨rest, hrest | hrest⟩ := split_or_whole_of_sent _ hc (by decide) hout
    · have heq := sizeLoop_of_split buf.length hc hrest
      rw [sendExact_of_size_iff hc hlen hpos hfailed (List.cons_ne_nil _ _) heq,
        msgSizeBuf_eq_iff]
      constructor
      · rintro ⟨hsize, hclose⟩
        refine ⟨fun rest' hrest' => ?_, ?_⟩
        · rw [rest_eq_of_size heq hc (Or.inl hrest')]
          exact hsize
        · rintro (⟨hex, -⟩ | ⟨rest', hrest', hout'⟩)
          · cases hex
          · rw [rest_eq_of_size heq hc hrest'] at hout'
            exact hclose hout'
      · rintro ⟨hsize, hclose⟩
        exact ⟨hsize rest hrest, fun hout' => hclose (Or.inr ⟨rest, Or.inl hrest, hout'⟩)⟩
    · have heq := sizeLoop_of_whole buf.length hc hrest
      rw [sendExact_of_size_iff hc hlen hpos hfailed (List.cons_ne_nil _ _) heq]
      constructor
      · rintro ⟨-, hclose⟩
        refine ⟨fun rest' hrest' _ => ?_, ?_⟩
        · have hsplit := sizeLoop_of_split buf.length hc hrest'
          rw [heq] at hsplit
          exact (msgSizeBuf_eq_iff _).1 (congrArg SendResult.accepted hsplit).symm
        · rintro (⟨hex, -⟩ | ⟨rest', hrest', hout'⟩)
          · cases hex
          · rw [rest_eq_of_size heq hc hrest'] at hout'
            exact hclose hout'
      · rintro ⟨-, hclose⟩
        exact ⟨fun _ => rfl, fun hout' => hclose (Or.inr ⟨rest, Or.inr hrest, hout'⟩)⟩
  | failed =>
    rw [sendMessage_of_ne_sent (by rw [hout]; exact SendOutcome.noConfusion), hout]
    have hno := no_rest_of_ne_sent buf.length hc
      (by rw [hout]; exact SendOutcome.noConfusion)
    refine ⟨fun _ => ⟨fun rest hrest => (hno rest (Or.inl hrest)).elim, ?_⟩,
      fun _ => ⟨by simp, fun _ _ => hfailed⟩⟩
    rintro (⟨hex, -⟩ | ⟨rest, hrest, -⟩)
    · cases hex
    · exact (hno rest hrest).elim
  | exhausted =>
    rw [sendMessage_of_ne_sent (by rw [hout]; exact SendOutcome.noConfusion), hout]
    have hno := no_rest_of_ne_sent buf.length hc
      (by rw [hout]; exact SendOutcome.noConfusion)
    constructor
    · intro hexact
      refine ⟨fun rest hrest => (hno rest (Or.inl hrest)).elim, ?_⟩
      rintro (⟨-, hne⟩ | ⟨rest, hrest, -⟩)
      · exact hexact.failure rfl hne
      · exact (hno rest hrest).elim
    · rintro ⟨-, hclose⟩
      exact ⟨by simp, fun _ hne => hclose (Or.inl ⟨rfl, hne⟩)⟩

end sendMessage

/-- The client's call is exact unless the length is accepted in two pieces, has two different
bytes, and the payload follows.  The Agent's call is exact when in addition no loop runs out of
attempts after bytes were accepted. -/
theorem tcpSend_exact_iff (buf : List UInt8) (hpos : 0 < buf.length) (hlen : buf.length ≤ 65535)
    (socket socket' : Socket) :
    (SendExact buf (sendTcpMsg buf socket) ↔
      ∀ rest, Split maxAttemps socket rest → Completes buf.length rest →
        UInt8.ofNat buf.length = UInt8.ofNat (buf.length / 256)) ∧
    (SendExact buf (tcpv4AgentSendMessage buf socket') ↔
      (∀ rest, Split maxAttemps socket' rest → Completes buf.length rest →
        UInt8.ofNat buf.length = UInt8.ofNat (buf.length / 256)) ∧
      ¬ SizeRunsOut socket' ∧
      ∀ rest, Split maxAttemps socket' rest ∨ Whole maxAttemps socket' rest →
        ¬ RunsOut buf.length rest) := by
  constructor
  · rw [sendTcpMsg, sendExact_sendMessage_iff (counts_mod (by decide)) (by omega) hpos (by decide)]
    exact ⟨fun h => h.1, fun h => ⟨h, fun _ => by decide⟩⟩
  · rw [tcpv4AgentSendMessage, sendExact_sendMessage_iff (counts_mod (by decide)) (by omega) hpos
      (by decide)]
    refine and_congr_right fun _ => ⟨fun h => ⟨fun hsize => ?_, fun rest hrest hout => ?_⟩, ?_⟩
    · exact absurd (h (Or.inl hsize)) (by decide)
    · exact absurd (h (Or.inr ⟨rest, hrest, hout⟩)) (by decide)
    · rintro ⟨hsize, hpayload⟩ (h | ⟨rest, hrest, hout⟩)
      · exact (hsize h).elim
      · exact (hpayload rest hrest hout).elim

/-- Sockets that accept two bytes at a time: the length at once, and five bytes in three pieces. -/
theorem tcpSend_exact_whole :
    SendExact [7, 8, 9, 10, 11] (sendTcpMsg [7, 8, 9, 10, 11] fun _ => some 2) ∧
      SendExact [7, 8, 9, 10, 11] (tcpv4AgentSendMessage [7, 8, 9, 10, 11] fun _ => some 2) := by
  have hsplit : ∀ n rest, ¬ Split n (fun _ => some 2) rest := by
    rintro n rest (⟨h, -⟩ | ⟨h, -⟩)
    · cases h
    · cases h
  have hout : ∀ rest, Split maxAttemps (fun _ => some 2) rest ∨
      Whole maxAttemps (fun _ => some 2) rest → ¬ RunsOut 5 rest := by
    rintro rest (h | h)
    · exact (hsplit _ _ h).elim
    · rcases h with ⟨h, -⟩ | ⟨-, -⟩
      · cases h
      · exact fun hrest => absurd hrest.2 (by decide)
  have h := tcpSend_exact_iff [7, 8, 9, 10, 11] (by decide) (by decide) (fun _ => some 2)
    (fun _ => some 2)
  refine ⟨h.1.2 fun rest hrest => (hsplit _ _ hrest).elim,
    h.2.2 ⟨fun rest hrest => (hsplit _ _ hrest).elim, ?_, hout⟩⟩
  exact fun hsize => hsize.2.2.2 _ (.two rfl (Nat.le_refl 2))

/-- A socket that accepts single bytes gets the first byte of the length twice, and the Agent
keeps a connection that stops accepting bytes behind the length. -/
theorem tcpSend_exact_fails :
    ¬ SendExact [7] (sendTcpMsg [7] fun _ => some 1) ∧
      ¬ SendExact [7] (tcpv4AgentSendMessage [7] fun _ => some 1) ∧
      ¬ SendExact [7] (tcpv4AgentSendMessage [7] fun i => some (if i = 0 then 2 else 0)) :=
  ⟨fun h => absurd (h.success (by decide)) (by decide),
    fun h => absurd (h.success (by decide)) (by decide),
    fun h => absurd (h.failure (by decide) (by decide)) (by decide)⟩

end XrceDds
