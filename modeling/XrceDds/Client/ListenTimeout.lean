import XrceDds.Client.ConfirmDelivery

/-!
# The time that `listen_message_reliably` waits

Every round of the loop offers a part of what remains of the poll to `listen_message`: the time
until the next heartbeat, when that comes first.  The time is the difference of two 64-bit
timestamps cast to 32 bits.  As long as the cast gives back a time that is not negative, the
rounds share the poll between them (`listen_respectsTimeout_iff`).  A deadline that the back-off
moved `2 ^ 31` milliseconds ahead is cast to a negative timeout.
-/

namespace XrceDds

open Transition

/-- One round of `listen_message_reliably`: what remained of the poll, the earliest deadline of
a heartbeat, the clock, and the timeout that was passed to `listen_message`. -/
structure ListenRound where
  poll : ℤ
  nextHeartbeat : ℤ
  timestamp : ℤ
  pollChosen : ℤ

/-- The rounds of `listen_message_reliably`. -/
def listenRounds : List Poll → ℤ → ClientSession → List ListenRound
  | [], _, _ => []
  | p :: polls, poll, st =>
    let timed := st.step (.heartbeat p.timestamp)
    let next := nextHeartbeatTimestamp timed.streams
    let chosen := pollChosen poll next p.timestamp
    ⟨poll, next, p.timestamp, chosen⟩ ::
      if p.received then []
      else if poll - chosen > 0 then listenRounds polls (poll - chosen) (timed.run p.events)
      else []

/-- The timeouts that were offered. -/
def offeredTime (rounds : List ListenRound) : ℤ := (rounds.map ListenRound.pollChosen).sum

/-- A round offers no more than remains, and something as long as something remains. -/
def ListenRound.Respects (round : ListenRound) : Prop :=
  0 ≤ round.pollChosen ∧ round.pollChosen ≤ round.poll ∧
    (0 < round.poll → 1 ≤ round.pollChosen)

/-- The cast to `int32_t` of the time until the next heartbeat is not negative. -/
def ListenRound.DeadlineFits (round : ListenRound) : Prop :=
  round.nextHeartbeat = int64Max ∨
    (round.nextHeartbeat - round.timestamp) % 4294967296 < 2147483648

/-- A call respects its timeout: every round does, there are no more rounds than milliseconds, so
that the call returns, and the timeouts sum to at most `pollMs`, and to all of it when the call
returns `false`. -/
structure RespectsTimeout (polls : List Poll) (pollMs : ℤ) (st : ClientSession) : Prop where
  rounds : ∀ round ∈ listenRounds polls pollMs st, round.Respects
  length_le : (listenRounds polls pollMs st).length ≤ max 1 pollMs.toNat
  returns : max 1 pollMs.toNat ≤ polls.length → (listenMessageReliably polls pollMs st).isSome
  sum_le : offeredTime (listenRounds polls pollMs st) ≤ pollMs
  expired : ∀ st' rest, listenMessageReliably polls pollMs st = some (false, st', rest) →
    offeredTime (listenRounds polls pollMs st) = pollMs

/-! ## One round -/

/-- The cast keeps the sign of what fits. -/
lemma bmod_nonneg_iff (v : ℤ) : 0 ≤ Int.bmod v 4294967296 ↔ v % 4294967296 < 2147483648 := by
  unfold Int.bmod
  dsimp only
  split <;> omega

/-- A timeout lies between zero and what remains, and is positive with it, exactly when the cast
is not negative. -/
lemma pollChosen_respects_iff {poll : ℤ} (hpoll : 0 ≤ poll) (next timestamp : ℤ) :
    (0 ≤ pollChosen poll next timestamp ∧ pollChosen poll next timestamp ≤ poll ∧
        (0 < poll → 1 ≤ pollChosen poll next timestamp)) ↔
      next = int64Max ∨ (next - timestamp) % 4294967296 < 2147483648 := by
  rw [← bmod_nonneg_iff]
  unfold pollChosen
  by_cases hmax : next = int64Max
  · simp only [hmax, ne_eq, not_true, if_false, true_or, iff_true]
    split_ifs <;> omega
  · simp only [hmax, ne_eq, not_false_iff, if_true, false_or]
    split_ifs <;> omega

/-! ## All rounds -/

/-- What remains of the poll is never negative, as long as the casts are not. -/
lemma listenRounds_respects_iff (polls : List Poll) {poll : ℤ} (hpoll : 0 ≤ poll)
    (st : ClientSession) :
    (∀ round ∈ listenRounds polls poll st, round.Respects) ↔
      ∀ round ∈ listenRounds polls poll st, round.DeadlineFits := by
  induction polls generalizing poll st with
  | nil => simp [listenRounds]
  | cons p polls ih =>
    unfold listenRounds
    dsimp only
    rw [List.forall_mem_cons, List.forall_mem_cons]
    refine and_congr (pollChosen_respects_iff hpoll _ _) ?_
    split_ifs with hreceived hleft
    · simp
    · exact ih hleft.le _
    · simp

/-- Rounds that respect what remains share the poll between them. -/
lemma respectsTimeout_of_rounds (polls : List Poll) {poll : ℤ} (hpoll : 0 ≤ poll)
    (st : ClientSession) (h : ∀ round ∈ listenRounds polls poll st, round.Respects) :
    RespectsTimeout polls poll st := by
  induction polls generalizing poll st with
  | nil =>
    constructor
    case rounds => exact h
    case length_le => exact Nat.zero_le _
    case returns => exact fun hlen => absurd ((le_max_left 1 _).trans hlen) (by decide)
    case sum_le => exact hpoll
    case expired => exact fun st' rest hfalse => by simp [listenMessageReliably] at hfalse
  | cons p polls ih =>
    have hrounds := h
    unfold listenRounds at h
    dsimp only at h
    obtain ⟨⟨hchosen, hle, hpos⟩, hrest⟩ := List.forall_mem_cons.mp h
    dsimp only at hchosen hle hpos
    by_cases hreceived : p.received = true
    · constructor
      case rounds => exact hrounds
      all_goals
        simp only [listenRounds, listenMessageReliably, hreceived, if_true, offeredTime]
      case length_le => simp
      case returns => simp
      case sum_le => simpa using hle
      case expired => simp
    rw [if_neg hreceived] at hrest
    obtain ⟨chosen, hc⟩ : ∃ chosen, chosen = pollChosen poll
        (nextHeartbeatTimestamp (st.step (.heartbeat p.timestamp)).streams) p.timestamp :=
      ⟨_, rfl⟩
    rw [← hc] at hchosen hle hpos hrest
    by_cases hleft : poll - chosen > 0
    · rw [if_pos hleft] at hrest
      have htail := ih hleft.le _ hrest
      have hlength := htail.length_le
      have hreturns := htail.returns
      have hsum := htail.sum_le
      have hexpired := htail.expired
      have hstep := hpos (by omega)
      constructor
      case rounds => exact hrounds
      all_goals
        simp only [listenRounds, listenMessageReliably, hreceived, ← hc, if_pos hleft, offeredTime,
          List.length_cons, List.map_cons, List.sum_cons, Bool.false_eq_true, if_false]
      all_goals unfold offeredTime at hsum hexpired
      case length_le => omega
      case returns => exact fun hlen => hreturns (by omega)
      case sum_le => omega
      case expired =>
        intro st' rest hfalse
        have hall := hexpired st' rest hfalse
        omega
    · constructor
      case rounds => exact hrounds
      all_goals
        simp only [listenRounds, listenMessageReliably, hreceived, ← hc, if_neg hleft, offeredTime,
          Bool.false_eq_true, if_false]
      case length_le => simp
      case returns => simp
      case sum_le => simpa using hle
      case expired =>
        intro st' rest _
        simp only [List.map_cons, List.map_nil, List.sum_cons, List.sum_nil]
        omega

/-- For every session, whatever its streams, their retries and the clock, every poll and every
pattern of what is received: a call respects its timeout exactly when in each of its rounds the
time until the earliest heartbeat, if there is one, is not negative when it is cast to 32 bits. -/
theorem listen_respectsTimeout_iff (st : ClientSession) (pollMs : ℕ) (polls : List Poll) :
    RespectsTimeout polls pollMs st ↔
      ∀ round ∈ listenRounds polls pollMs st, round.DeadlineFits := by
  have hpoll : (0 : ℤ) ≤ pollMs := Int.natCast_nonneg pollMs
  rw [← listenRounds_respects_iff polls hpoll st]
  exact ⟨fun h => h.rounds, respectsTimeout_of_rounds polls hpoll st⟩

/-! ## A deadline that does not fit -/

/-- A session whose only message is sent, and never acknowledged: every heartbeat is due when the
timer is looked at, up to the one that moves the deadline `2 ^ 31` milliseconds ahead. -/
def unansweredSession : ℕ → ClientSession
  | 0 => (acceptedSession.step .flash).step (.heartbeat 0)
  | n + 1 => (unansweredSession n).step (.heartbeat (2 ^ (n + 1) - 1))

/-- The runs that lead there. -/
lemma unansweredSession_reachable (n : ℕ) :
    ClientSession.Reachable keylessSession (unansweredSession n) := by
  have hsilent : ∀ (st : ClientSession) (timestamp : ℤ), st.Admitted (.heartbeat timestamp) :=
    fun st timestamp => ⟨fun _ _ _ => trivial, fun t ht => by simp [SessionEvent.created] at ht⟩
  induction n with
  | zero =>
    have hflash : acceptedSession.Admitted .flash :=
      ⟨fun _ _ _ => trivial, fun t ht => by simp [SessionEvent.created] at ht⟩
    exact Reaches.next (Reaches.next acceptedSession_reachable hflash) (hsilent _ _)
  | succ n ih => exact ih.next (hsilent _ _)

/-- After thirty heartbeats without an answer, the next one moves the deadline `2 ^ 31`
milliseconds ahead of the clock, and a negative timeout is passed to `listen_message`. -/
theorem listen_respectsTimeout_fails :
    ¬ ∀ (info : UxrSessionInfo) (st : ClientSession) (pollMs : ℕ) (polls : List Poll),
      ClientSession.Reachable info st → RespectsTimeout polls pollMs st := by
  intro h
  have hrounds := (h keylessSession (unansweredSession 30) 1000 [⟨2 ^ 31 - 1, [], false⟩]
    (unansweredSession_reachable 30)).rounds
  have hround := hrounds _ List.mem_cons_self
  exact absurd hround.1 (by decide +kernel)

end XrceDds
