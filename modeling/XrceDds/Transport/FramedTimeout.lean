import XrceDds.Transport.FramedRead
import Mathlib.Algebra.Order.Group.Unbundled.Int
import Mathlib.Data.Int.Init

/-!
# The time that a framed read waits

A call gives the read callback its timeout, and what remains of it when it reads again.  Both
programs take the duration of each read off, cast to `int`: the client the end less the start, and
the Agent the start less the end, so that its timeout grows.

The timeouts of a call depend on its reads only by the times at which they start and end
(`Threads`).  `framed_read_waits_iff` says for both programs of which times a call waits no longer
than it was asked to.
-/

namespace XrceDds

/-! ## Calls that wait as long as they were asked to -/

/-- The calls of the read callback. -/
def TransportRead.offers (read : TransportRead) : List ReadOffer :=
  read.first :: read.second.toList

/-- The end of a read. -/
def TransportRead.stop (read : TransportRead) : ℕ := (read.second.getD read.first).stop

/-- A call of the read callback takes its timeout in milliseconds and at most `overrun` more, and
no time at all when it is given none. -/
def ReadOffer.TakesAtMost (overrun : ℕ) (offer : ReadOffer) : Prop :=
  if offer.timeout ≤ 0 then offer.stop = offer.start
  else offer.stop ≤ offer.start + (offer.timeout.toNat + overrun) * 1000000

/-- No timeout exceeds what is left of the one of the call, where `spent` is the time since the
call, and none is negative. -/
def Respect (timeout : ℤ) (spent : ℕ → ℤ) (reads : List TransportRead) : Prop :=
  ∀ read ∈ reads, ∀ offer ∈ read.offers,
    0 ≤ offer.timeout ∧ offer.timeout ≤ max 0 (timeout - spent offer.start)

/-- The timeouts respect what is left, so that the call takes no longer than it was asked to, and
one overrun. -/
structure WaitsWithin (timeout : ℤ) (spent : ℕ → ℤ) (s : FramedRead) : Prop where
  offers : Respect timeout spent s.reads
  total : ∀ overrun : ℕ, (∀ read ∈ s.reads, ∀ offer ∈ read.offers, offer.TakesAtMost overrun) →
    spent s.clock ≤ timeout + overrun

/-- The milliseconds since the call, on the clock of the client. -/
def clientSpent (clock now : ℕ) : ℤ := uxrMillis now - uxrMillis clock

/-- The milliseconds since the call, of which the Agent's clock shows the nanoseconds. -/
def agentSpent (clock now : ℕ) : ℤ := ((now - clock) / 1000000 : ℕ)

/-- A read takes less than `2 ^ 31` milliseconds, or so many that the difference of what was left
and them is not positive when it is cast to `int`. -/
def ClientFits (timeout : ℤ) (clock start stop : ℕ) : Prop :=
  uxrMillis stop - uxrMillis start < 2147483648 ∨
    intCast (max 0 (timeout - clientSpent clock start) - (uxrMillis stop - uxrMillis start)) ≤ 0

/-- The milliseconds that reads took, each rounded down. -/
def wholeMillis (reads : List TransportRead) : ℕ :=
  (reads.map fun read => (read.stop - read.first.start) / 1000000).sum

/-- A read starts in the first millisecond of the call, or at the end of its time when, with the
reads before it, that has become a multiple of `2 ^ 32`. -/
def AgentFits (timeout : ℤ) (clock : ℕ) (before : List TransportRead) (start : ℕ) : Prop :=
  agentSpent clock start = 0 ∨
    timeout ≤ agentSpent clock start ∧ 4294967296 ∣ timeout + wholeMillis before

/-! ## The times of a call -/

/-- The calls of the read callback follow each other, and the second one is given no time. -/
structure TransportRead.Timed (read : TransportRead) : Prop where
  first_le : read.first.start ≤ read.first.stop
  second_timeout : ∀ offer ∈ read.second, offer.timeout = 0
  second_start : ∀ offer ∈ read.second, offer.start = read.first.stop
  second_le : ∀ offer ∈ read.second, offer.start ≤ offer.stop

/-- Reads from a time on, each of which is given the timeout that the ones before it left; and
what is left behind them, and the time. -/
inductive Threads (framing : Framing) (timeout : ℤ) (clock : ℕ) :
    List TransportRead → ℤ → ℕ → Prop
  | nil : Threads framing timeout clock [] timeout clock
  | idle {reads : List TransportRead} {left : ℤ} {now : ℕ} :
      Threads framing timeout clock reads left now →
      Threads framing timeout clock reads (framing.remaining left now now) now
  | snoc {reads : List TransportRead} {left : ℤ} {now : ℕ} {read : TransportRead} :
      Threads framing timeout clock reads left now → read.Timed → read.first.timeout = left →
      read.first.start = now →
      Threads framing timeout clock (reads ++ [read])
        (framing.remaining left now read.stop) read.stop

/-- The times of a state. -/
def FramedRead.Threads (framing : Framing) (timeout : ℤ) (clock : ℕ) (s : FramedRead) : Prop :=
  XrceDds.Threads framing timeout clock s.reads s.timeout s.clock

namespace FramedRead

variable {framing : Framing} {timeout : ℤ} {clock : ℕ} {s : FramedRead}

/-- A read of the transport goes on from the times before it. -/
lemma Threads.readTransport (h : s.Threads framing timeout clock) :
    (s.readTransport framing).1.Threads framing timeout clock := by
  unfold FramedRead.readTransport readPieces readCb
  dsimp only
  split
  · split
    · refine XrceDds.Threads.snoc h ⟨?_, ?_, ?_, ?_⟩ rfl rfl
      · exact Nat.le_add_right _ _
      · rintro _ ⟨⟩
        rfl
      · rintro _ ⟨⟩
        rfl
      · rintro _ ⟨⟩
        exact Nat.le_add_right _ _
    · exact XrceDds.Threads.snoc h ⟨Nat.le_add_right _ _, nofun, nofun, nofun⟩ rfl rfl
  · exact XrceDds.Threads.idle h

/-- An octet takes no time. -/
lemma Threads.withOctet (h : s.Threads framing timeout clock) {f : UInt8 → FramingIO → FramedRead}
    (hf : ∀ octet io, (f octet io).Threads framing timeout clock) :
    (s.withOctet f).Threads framing timeout clock := by
  unfold FramedRead.withOctet
  split
  · exact hf _ _
  · split
    · exact h
    · exact h

/-- A turn goes on from the times before it. -/
lemma Threads.turn (h : s.Threads framing timeout clock) (len : ℕ) :
    (s.turn framing len).Threads framing timeout clock := by
  unfold FramedRead.turn
  split
  · split
    · dsimp only
      split
      · exact h
      · exact h
    · exact h
  · split
    · exact h
    · exact h
  · exact h.withOctet fun _ _ => h
  · exact h.withOctet fun _ _ => h
  · refine h.withOctet fun _ _ => ?_
    dsimp only
    split
    · exact h
    · exact h
  · split
    · exact h
    · split
      · exact h
      · split
        · exact h
        · next io _ _ _ =>
          have hread : ({ s with io := io } : FramedRead).Threads framing timeout clock := h
          dsimp only
          split
          · exact hread.readTransport
          · exact hread.readTransport
  · exact h.withOctet fun _ _ => h
  · refine h.withOctet fun _ _ => ?_
    dsimp only
    split
    · exact h
    · exact h

end FramedRead

/-- The times of a call. -/
lemma threads_readFramedMsg (framing : Framing) (call : FramedCall) (turns : ℕ) :
    (readFramedMsg framing call turns).Threads framing call.timeout call.clock := by
  unfold readFramedMsg
  induction turns with
  | zero =>
    have hstart : FramedRead.Threads framing call.timeout call.clock
        ⟨call.io, call.buf, call.remoteAddr, call.timeout, 0, false, call.callback, call.clock,
          []⟩ := .nil
    unfold FramedRead.enter
    dsimp only [Function.iterate_zero, id]
    split
    · exact hstart.readTransport
    · exact hstart.readTransport
  | succ turns ih =>
    rw [Function.iterate_succ_apply']
    unfold FramedRead.step
    split
    · exact ih
    · exact ih.turn call.len

/-! ## The time of a call -/

/-- When no timeout exceeds what is left, the call ends with the one overrun of the callback that
was given the last of the time. -/
lemma Threads.total {framing : Framing} {timeout left : ℤ} {clock now : ℕ}
    {reads : List TransportRead} {spent : ℕ → ℤ} (hzero : spent clock = 0)
    (hspent : ∀ start stop millis : ℕ, stop ≤ start + millis * 1000000 →
      spent stop ≤ spent start + millis)
    (hnonneg : 0 ≤ timeout) (h : Threads framing timeout clock reads left now)
    (hoffers : Respect timeout spent reads) {overrun : ℕ} (htakes : ∀ read ∈ reads,
      ∀ offer ∈ read.offers, offer.TakesAtMost overrun) :
    spent now ≤ timeout + overrun := by
  induction h with
  | nil => omega
  | idle _ ih => exact ih hoffers htakes
  | @snoc reads left now read _ htimed _ hstart ih =>
    have hlast : read ∈ reads ++ [read] := List.mem_append_right _ (.head _)
    have hbefore := ih (fun other hother => hoffers other (List.mem_append_left _ hother))
      fun other hother => htakes other (List.mem_append_left _ hother)
    have hfirst : spent read.first.stop ≤ timeout + overrun := by
      have hle := (hoffers read hlast read.first (.head _)).2
      have htake := htakes read hlast read.first (.head _)
      unfold ReadOffer.TakesAtMost at htake
      split at htake
      · rw [htake, hstart]
        exact hbefore
      · have hmillis := hspent _ _ _ htake
        omega
    unfold TransportRead.stop
    cases hsecond : read.second with
    | none => exact hfirst
    | some offer =>
      have hmem : offer ∈ read.offers := by
        unfold TransportRead.offers
        rw [hsecond]
        exact .tail _ (.head _)
      have htake := htakes read hlast offer hmem
      unfold ReadOffer.TakesAtMost at htake
      rw [if_pos (htimed.second_timeout offer hsecond).le] at htake
      rw [Option.getD_some, htake, htimed.second_start offer hsecond]
      exact hfirst

/-- A read takes time. -/
lemma TransportRead.Timed.le_stop {read : TransportRead} (h : read.Timed) :
    read.first.start ≤ read.stop := by
  unfold TransportRead.stop
  cases hsecond : read.second with
  | none => exact h.first_le
  | some offer =>
    exact h.first_le.trans ((h.second_start offer hsecond).ge.trans (h.second_le offer hsecond))

/-- The second callback of a read is given no time, so that only the first one matters. -/
lemma respect_append {timeout : ℤ} {spent : ℕ → ℤ} {reads : List TransportRead}
    {read : TransportRead} (h : read.Timed) :
    Respect timeout spent (reads ++ [read]) ↔ Respect timeout spent reads ∧
      0 ≤ read.first.timeout ∧ read.first.timeout ≤ max 0 (timeout - spent read.first.start) := by
  constructor
  · intro hall
    refine ⟨fun other hother => hall other (List.mem_append_left _ hother), ?_⟩
    exact hall read (List.mem_append_right _ (.head _)) read.first (.head _)
  · rintro ⟨hbefore, hfirst⟩ other hother offer hoffer
    rcases List.mem_append.mp hother with hother | hother
    · exact hbefore other hother offer hoffer
    obtain rfl := List.mem_singleton.mp hother
    rcases List.mem_cons.mp hoffer with rfl | hsecond
    · exact hfirst
    · rw [h.second_timeout offer (Option.mem_toList.mp hsecond)]
      exact ⟨le_rfl, le_max_left _ _⟩

/-! ## What remains -/

/-- The milliseconds since the call are those at the start of a read and those that it took. -/
lemma clientSpent_add (clock start stop : ℕ) :
    clientSpent clock stop = clientSpent clock start + (uxrMillis stop - uxrMillis start) := by
  unfold clientSpent
  omega

/-- The client's clock does not go back. -/
lemma uxrMillis_mono {start stop : ℕ} (h : start ≤ stop) : uxrMillis start ≤ uxrMillis stop := by
  unfold uxrMillis
  omega

/-- What the client leaves. -/
lemma clientRemaining_cast (left : ℤ) (start stop : ℕ) :
    clientRemaining left start stop =
      max 0 (intCast (left - (uxrMillis stop - uxrMillis start))) := by
  have hcast : intCast (left - intCast (uxrMillis stop - uxrMillis start)) =
      intCast (left - (uxrMillis stop - uxrMillis start)) := Int.sub_bmod_bmod
  unfold clientRemaining
  dsimp only
  rw [hcast]
  split
  · omega
  · omega

/-- Of a read that was given what was left, the client leaves what is left if the read fits. -/
lemma clientRemaining_eq {timeout : ℤ} {clock start stop : ℕ} (hint : timeout < 2147483648)
    (hclock : clock ≤ start) (hle : start ≤ stop) (hfits : ClientFits timeout clock start stop) :
    clientRemaining (max 0 (timeout - clientSpent clock start)) start stop =
      max 0 (timeout - clientSpent clock stop) := by
  have hspent : 0 ≤ clientSpent clock start := Int.sub_nonneg.mpr (uxrMillis_mono hclock)
  have hduration := Int.sub_nonneg.mpr (uxrMillis_mono hle)
  have hadd := clientSpent_add clock start stop
  unfold ClientFits at hfits
  rw [clientRemaining_cast]
  generalize uxrMillis stop - uxrMillis start = duration at *
  by_cases hlt : duration < 2147483648
  · rw [intCast_of_range (by omega) (by omega)]
    omega
  · have hcast := hfits.resolve_left hlt
    omega

/-- And only then. -/
lemma clientFits_of_remaining {timeout : ℤ} {clock start stop : ℕ} (hint : timeout < 2147483648)
    (hclock : clock ≤ start)
    (hremaining : clientRemaining (max 0 (timeout - clientSpent clock start)) start stop ≤
      max 0 (timeout - clientSpent clock stop)) : ClientFits timeout clock start stop := by
  have hspent : 0 ≤ clientSpent clock start := Int.sub_nonneg.mpr (uxrMillis_mono hclock)
  have hadd := clientSpent_add clock start stop
  unfold ClientFits
  rw [clientRemaining_cast] at hremaining
  generalize uxrMillis stop - uxrMillis start = duration at *
  refine or_iff_not_imp_left.mpr fun hlong => ?_
  omega

/-- What the Agent leaves. -/
lemma agentRemaining_eq (left : ℤ) {start stop : ℕ} (hle : start ≤ stop) :
    agentRemaining left start stop = intCast (left + ((stop - start) / 1000000 : ℕ)) := by
  have hmillis : (start - stop : ℤ).tdiv 1000000 = -(((stop - start) / 1000000 : ℕ) : ℤ) := by
    rw [← Int.neg_sub, ← Int.ofNat_sub hle, Int.neg_tdiv]
    rfl
  unfold agentRemaining
  rw [hmillis]
  unfold intCast
  rw [Int.sub_bmod_bmod, Int.sub_neg]

/-- A further read takes its milliseconds. -/
lemma wholeMillis_append (reads : List TransportRead) (read : TransportRead) :
    wholeMillis (reads ++ [read]) =
      wholeMillis reads + (read.stop - read.first.start) / 1000000 := by
  unfold wholeMillis
  rw [List.map_append, List.sum_append, List.map_singleton, List.sum_singleton]

/-- A timeout that has grown respects what is left exactly when nothing was spent, or when it has
become zero. -/
lemma agentFits_iff {timeout : ℤ} {clock now : ℕ} {before : List TransportRead} (h0 : 0 ≤ timeout)
    (hint : timeout < 2147483648) (hle : wholeMillis before ≤ (now - clock) / 1000000) :
    0 ≤ intCast (timeout + wholeMillis before) ∧
      intCast (timeout + wholeMillis before) ≤ max 0 (timeout - agentSpent clock now) ↔
      AgentFits timeout clock before now := by
  unfold AgentFits agentSpent intCast Int.bmod
  generalize wholeMillis before = whole at *
  generalize (now - clock) / 1000000 = spent at *
  dsimp only
  split
  · omega
  · omega

namespace Threads

variable {timeout left : ℤ} {clock now : ℕ} {reads : List TransportRead}

/-- Time goes on. -/
lemma clock_le {framing : Framing} (h : Threads framing timeout clock reads left now) :
    clock ≤ now := by
  induction h with
  | nil => exact le_rfl
  | idle _ ih => exact ih
  | snoc _ htimed _ hstart ih => exact (ih.trans hstart.ge).trans htimed.le_stop

/-- The client leaves what is left as long as its reads fit. -/
lemma client_left (h0 : 0 ≤ timeout) (hint : timeout < 2147483648)
    (h : Threads clientFraming timeout clock reads left now)
    (hfits : ∀ read ∈ reads, ClientFits timeout clock read.first.start read.stop) :
    left = max 0 (timeout - clientSpent clock now) := by
  induction h with
  | nil =>
    unfold clientSpent
    omega
  | @idle reads left now h ih =>
    rw [ih hfits]
    have hself : uxrMillis now - uxrMillis now < 2147483648 := by omega
    exact clientRemaining_eq hint h.clock_le le_rfl (.inl hself)
  | @snoc reads left now read h htimed hfirst hstart ih =>
    rw [ih fun other hother => hfits other (List.mem_append_left _ hother)]
    have hread := hfits read (List.mem_append_right _ (.head _))
    rw [hstart] at hread
    exact clientRemaining_eq hint h.clock_le (hstart ▸ htimed.le_stop) hread

/-- What the client leaves is an `int` that is not negative. -/
lemma client_range (h0 : 0 ≤ timeout) (hint : timeout < 2147483648)
    (h : Threads clientFraming timeout clock reads left now) :
    0 ≤ left ∧ left < 2147483648 := by
  have hrange : ∀ left start stop, 0 ≤ clientRemaining left start stop ∧
      clientRemaining left start stop < 2147483648 := by
    intro left start stop
    have hlt : intCast (left - (uxrMillis stop - uxrMillis start)) < 2147483648 :=
      Int.bmod_lt (by decide)
    rw [clientRemaining_cast]
    omega
  cases h with
  | nil => exact ⟨h0, hint⟩
  | idle _ => exact hrange _ _ _
  | snoc _ _ _ _ => exact hrange _ _ _

/-- The timeouts of the client, and what it leaves, respect what is left exactly as long as its
reads fit. -/
lemma client_iff (h0 : 0 ≤ timeout) (hint : timeout < 2147483648)
    (h : Threads clientFraming timeout clock reads left now) :
    Respect timeout (clientSpent clock) reads ∧ left ≤ max 0 (timeout - clientSpent clock now) ↔
      ∀ read ∈ reads, ClientFits timeout clock read.first.start read.stop := by
  refine ⟨?_, fun hfits => ?_⟩
  · rintro ⟨hrespect, hleft⟩
    induction h with
    | nil => exact nofun
    | @idle reads left now h ih =>
      refine ih hrespect (le_trans ?_ hleft)
      have hrange := h.client_range h0 hint
      show left ≤ clientRemaining left now now
      rw [clientRemaining_cast, intCast_of_range (by omega) (by omega)]
      omega
    | @snoc reads left now read h htimed hfirst hstart ih =>
      obtain ⟨hbefore, -, hle⟩ := (respect_append htimed).mp hrespect
      rw [hfirst, hstart] at hle
      have hfits := ih hbefore hle
      rw [h.client_left h0 hint hfits] at hleft
      intro other hother
      rcases List.mem_append.mp hother with hother | hother
      · exact hfits other hother
      · rw [List.mem_singleton.mp hother, hstart]
        exact clientFits_of_remaining hint h.clock_le hleft
  · refine ⟨?_, (h.client_left h0 hint hfits).le⟩
    induction h with
    | nil => exact nofun
    | idle _ ih => exact ih hfits
    | @snoc reads left now read h htimed hfirst hstart ih =>
      have hbefore := fun other hother => hfits other (List.mem_append_left _ hother)
      refine (respect_append htimed).mpr ⟨ih hbefore, ?_⟩
      rw [hfirst, hstart, h.client_left h0 hint hbefore]
      exact ⟨le_max_left _ _, le_rfl⟩

/-- The timeouts of the client respect what is left exactly as long as its reads but the last one
fit. -/
lemma client_respect_iff (h0 : 0 ≤ timeout) (hint : timeout < 2147483648)
    (h : Threads clientFraming timeout clock reads left now) :
    Respect timeout (clientSpent clock) reads ↔
      ∀ read ∈ reads.dropLast, ClientFits timeout clock read.first.start read.stop := by
  induction h with
  | nil => exact iff_of_true nofun nofun
  | idle _ ih => exact ih
  | @snoc reads left now read h htimed hfirst hstart _ =>
    rw [List.dropLast_concat, ← h.client_iff h0 hint, respect_append htimed, hfirst, hstart]
    exact and_congr_right fun _ => and_iff_right (h.client_range h0 hint).1

/-! ## The Agent -/

/-- What the Agent leaves has grown by the time of the reads. -/
lemma agent_left (h0 : 0 ≤ timeout) (hint : timeout < 2147483648)
    (h : Threads agentFraming timeout clock reads left now) :
    left = intCast (timeout + wholeMillis reads) := by
  have hcast : ∀ total millis : ℤ, intCast (intCast total + millis) = intCast (total + millis) :=
    fun _ _ => Int.bmod_add_bmod
  induction h with
  | nil =>
    show timeout = intCast (timeout + (0 : ℕ))
    rw [intCast_of_range (by omega) (by omega)]
    omega
  | @idle reads left now h ih =>
    show agentRemaining left now now = _
    rw [agentRemaining_eq _ le_rfl, Nat.sub_self, Nat.zero_div, ih, hcast, Nat.cast_zero, add_zero]
  | @snoc reads left now read h htimed hfirst hstart ih =>
    show agentRemaining left now read.stop = _
    rw [agentRemaining_eq _ (hstart ▸ htimed.le_stop), ih, hcast, wholeMillis_append, hstart,
      Nat.cast_add, add_assoc]

/-- The whole milliseconds of the reads are no more than those of the call. -/
lemma wholeMillis_le {framing : Framing} (h : Threads framing timeout clock reads left now) :
    wholeMillis reads ≤ (now - clock) / 1000000 := by
  induction h with
  | nil => exact Nat.zero_le _
  | idle _ ih => exact ih
  | @snoc reads left now read h htimed hfirst hstart ih =>
    have hle := htimed.le_stop
    have hclock := h.clock_le
    rw [wholeMillis_append]
    omega

/-- The timeouts of the Agent respect what is left exactly as long as its reads fit. -/
lemma agent_respect_iff (h0 : 0 ≤ timeout) (hint : timeout < 2147483648)
    (h : Threads agentFraming timeout clock reads left now) :
    Respect timeout (agentSpent clock) reads ↔ ∀ before read after,
      reads = before ++ read :: after → AgentFits timeout clock before read.first.start := by
  induction h with
  | nil =>
    refine iff_of_true nofun fun before read after heq => ?_
    exact absurd heq.symm (List.append_ne_nil_of_right_ne_nil _ (List.cons_ne_nil _ _))
  | idle _ ih => exact ih
  | @snoc reads left now read h htimed hfirst hstart ih =>
    have hlast : 0 ≤ left ∧ left ≤ max 0 (timeout - agentSpent clock now) ↔
        AgentFits timeout clock reads now := by
      have hle := h.wholeMillis_le
      rw [h.agent_left h0 hint]
      exact agentFits_iff h0 hint hle
    rw [respect_append htimed, hfirst, hstart, hlast, ih]
    constructor
    · rintro ⟨hbefore, hfits⟩ before other after heq
      rcases List.eq_nil_or_concat after with rfl | ⟨init, last, rfl⟩
      · obtain ⟨rfl, hother⟩ := List.append_inj' heq rfl
        obtain rfl := (List.cons.inj hother).1
        rwa [hstart]
      · rw [List.concat_eq_append, ← List.cons_append, ← List.append_assoc] at heq
        exact hbefore before other init (List.append_inj' heq rfl).1
    · intro hall
      refine ⟨fun before other after heq => ?_, ?_⟩
      · refine hall before other (after ++ [read]) ?_
        rw [heq, List.append_assoc, List.cons_append]
      · exact hstart ▸ hall reads read [] rfl

end Threads

/-! ## Both programs -/

/-- A call waits within its timeout exactly when its timeouts respect what is left. -/
lemma waitsWithin_iff {framing : Framing} {timeout : ℤ} {clock : ℕ} {s : FramedRead}
    {spent : ℕ → ℤ} (h0 : 0 ≤ timeout) (hzero : spent clock = 0)
    (hspent : ∀ start stop millis : ℕ, stop ≤ start + millis * 1000000 →
      spent stop ≤ spent start + millis) (h : s.Threads framing timeout clock) :
    WaitsWithin timeout spent s ↔ Respect timeout spent s.reads :=
  ⟨WaitsWithin.offers, fun hrespect =>
    ⟨hrespect, fun _ htakes => Threads.total hzero hspent h0 h hrespect htakes⟩⟩

/-- The client waits within its timeout exactly when its reads but the last one fit, and the Agent
exactly when each of its reads does. -/
theorem framed_read_waits_iff (call : FramedCall) (h0 : 0 ≤ call.timeout)
    (hint : call.timeout < 2147483648) (turns : ℕ) :
    (WaitsWithin call.timeout (clientSpent call.clock) (uxrReadFramedMsg call turns) ↔
      ∀ read ∈ (uxrReadFramedMsg call turns).reads.dropLast,
        ClientFits call.timeout call.clock read.first.start read.stop) ∧
    (WaitsWithin call.timeout (agentSpent call.clock) (framingIOReadFramedMsg call turns) ↔
      ∀ before read after,
        (framingIOReadFramedMsg call turns).reads = before ++ read :: after →
          AgentFits call.timeout call.clock before read.first.start) := by
  constructor
  · have h := threads_readFramedMsg clientFraming call turns
    refine (waitsWithin_iff h0 ?_ (fun start stop millis hstop => ?_) h).trans
      (Threads.client_respect_iff h0 hint h)
    · exact Int.sub_self _
    · unfold clientSpent uxrMillis
      omega
  · have h := threads_readFramedMsg agentFraming call turns
    refine (waitsWithin_iff h0 ?_ (fun start stop millis hstop => ?_) h).trans
      (Threads.agent_respect_iff h0 hint h)
    · unfold agentSpent
      rw [Nat.sub_self]
      rfl
    · unfold agentSpent
      omega

/-- A call with ten milliseconds, in which the first octets of a frame take four. -/
def trickled : FramedCall where
  io := ⟨.uninitialized, 0, fun _ => 0, 0, 0, 0, 0, 0, 0, 0⟩
  buf := fun _ => 0
  len := 512
  remoteAddr := 0
  timeout := 10
  callback i := if i = 0 then ⟨[0x7E, 1, 0, 2, 0, 5], 4000000⟩ else ⟨[], 14000000⟩
  clock := 0

/-- Of its two reads the first one takes no more than the call has. -/
theorem framed_read_waits_iff_trickled :
    (WaitsWithin 10 (clientSpent 0) (uxrReadFramedMsg trickled 7) ↔
      ∀ read ∈ (uxrReadFramedMsg trickled 7).reads.dropLast,
        ClientFits 10 0 read.first.start read.stop) ∧
    (WaitsWithin 10 (agentSpent 0) (framingIOReadFramedMsg trickled 7) ↔
      ∀ before read after, (framingIOReadFramedMsg trickled 7).reads = before ++ read :: after →
        AgentFits 10 0 before read.first.start) :=
  framed_read_waits_iff trickled (by decide) (by decide) 7

/-- The Agent gives its second read fourteen milliseconds. -/
theorem framed_read_waits_fails :
    ¬ ∀ (call : FramedCall) (turns : ℕ), 0 ≤ call.timeout → call.timeout < 2147483648 →
      WaitsWithin call.timeout (agentSpent call.clock) (framingIOReadFramedMsg call turns) := by
  intro h
  have hoffers := (h trickled 7 (by decide) (by decide)).offers
  have hreads : (framingIOReadFramedMsg trickled 7).reads =
      [⟨⟨10, 0, 4000000⟩, none⟩, ⟨⟨14, 4000000, 18000000⟩, none⟩] := by rfl
  rw [hreads] at hoffers
  have hle := (hoffers _ (.tail _ (.head _)) _ (.head _)).2
  revert hle
  decide

end XrceDds
