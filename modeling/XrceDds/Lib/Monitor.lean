import XrceDds.Lib.Transition
import Mathlib.Data.Fintype.Defs
import Mathlib.Logic.Function.Basic

/-!
# Monitors

Threads that share data under a mutex and wait on one condition variable.  An operation locks the
mutex, waits until its condition holds, updates the data, notifies those that wait, and unlocks the
mutex.  Notified threads do not get the mutex at once: they compete for it and test their condition
again, and they may wake up without being notified.

A program says what its operations are; every interleaving of the steps of any number of threads is
a run.  `Sound` is what the mutex gives: one thread is inside, and an update finds its condition
true, and an invariant of the updates holds.

A wake-up is lost when a thread waits although its condition holds and nothing is going to make it
look again.  `Wakes` are the conditions under which `notify_one` is enough for some of the
operations, the competing ones: they wait for one condition, which makes the conditions of all
others true, and each of them makes it false again. -/

namespace Monitor

open Transition

/-- How many of those that wait are notified. -/
inductive Notification where
  | none
  | one
  | all
  deriving DecidableEq

/-- Where a thread is.  Between `testing` and `leaving` it has the mutex. -/
inductive Point (Op : Type) where
  | outside
  | entering (op : Op)
  | testing (op : Op)
  | waiting (op : Op)
  | woken (op : Op)
  | updating (op : Op)
  | notifying (op : Op)
  | leaving
  deriving DecidableEq

/-- An operation: the check of the caller before it enters, the condition that is waited for, the
update, and the notification in the data behind it. -/
structure Operation (σ : Type) where
  calls : σ → Bool
  condition : σ → Bool
  update : σ → σ
  notification : σ → Notification

/-- The operations that each thread can call. -/
structure Program (Tid Op σ : Type) where
  operation : Tid → Op → Operation σ

namespace Program

variable {Tid Op σ : Type} (P : Program Tid Op σ) (t : Tid) (op : Op)

/-- The check of the caller. -/
def calls : σ → Bool := (P.operation t op).calls

/-- The condition that is waited for. -/
def condition : σ → Bool := (P.operation t op).condition

/-- The update. -/
def update : σ → σ := (P.operation t op).update

/-- The notification behind the update. -/
def notification : σ → Notification := (P.operation t op).notification

end Program

/-- The data, who has the mutex, and where the threads are. -/
structure State (Tid Op σ : Type) where
  data : σ
  mutex : Option Tid
  point : Tid → Point Op

/-- A thread calls an operation; it makes its next step, in which `notify_one` chooses a thread; it
wakes up without a notification. -/
inductive Event (Tid Op : Type) where
  | call (t : Tid) (op : Op)
  | run (t : Tid) (choice : Option Tid)
  | wake (t : Tid)

/-- What a notification does to a thread. -/
def Point.wake {Op : Type} : Point Op → Point Op
  | .waiting op => .woken op
  | point => point

/-- The thread waits. -/
def Point.isWaiting {Op : Type} : Point Op → Bool
  | .waiting _ => true
  | _ => false

/-- The thread has the mutex. -/
def Point.Inside {Op : Type} : Point Op → Prop
  | .testing _ | .updating _ | .notifying _ | .leaving => True
  | _ => False

/-- The thread is in an operation, before its update. -/
def Point.Before {Op : Type} (op : Op) : Point Op → Prop
  | .entering op' | .testing op' | .waiting op' | .woken op' | .updating op' => op' = op
  | _ => False

variable {Tid Op σ : Type} [DecidableEq Tid] {P : Program Tid Op σ} {s s' : State Tid Op σ}

namespace State

/-- The thread goes to a point. -/
def goto (s : State Tid Op σ) (t : Tid) (point : Point Op) : State Tid Op σ :=
  { s with point := Function.update s.point t point }

/-- The mutex is locked when it is free. -/
def lock (s : State Tid Op σ) (t : Tid) (op : Op) : State Tid Op σ :=
  if s.mutex.isNone then { s.goto t (.testing op) with mutex := some t } else s

/-- Threads that wait are notified. -/
def notify (s : State Tid Op σ) (choice : Option Tid) : Notification → State Tid Op σ
  | .none => s
  | .one =>
    match choice with
    | some w => s.goto w (s.point w).wake
    | none => s
  | .all => { s with point := fun u => (s.point u).wake }

/-- `notify_one` notifies a thread that waits, if there is one. -/
def NotifiesOne (s : State Tid Op σ) : Option Tid → Prop
  | some w => (s.point w).isWaiting
  | none => ∀ u, ¬ (s.point u).isWaiting

instance [Fintype Tid] (s : State Tid Op σ) (choice : Option Tid) :
    Decidable (s.NotifiesOne choice) := by
  unfold NotifiesOne
  split <;> infer_instance

end State

namespace Program

/-- The next step of a thread. -/
def run (P : Program Tid Op σ) (s : State Tid Op σ) (t : Tid) (choice : Option Tid) :
    State Tid Op σ :=
  match s.point t with
  | .outside => s
  | .entering op => s.lock t op
  | .testing op =>
    if P.condition t op s.data then s.goto t (.updating op)
    else { s.goto t (.waiting op) with mutex := none }
  | .waiting _ => s
  | .woken op => s.lock t op
  | .updating op => { s.goto t (.notifying op) with data := P.update t op s.data }
  | .notifying op => (s.notify choice (P.notification t op s.data)).goto t .leaving
  | .leaving => { s.goto t .outside with mutex := none }

/-- An event. -/
def step (P : Program Tid Op σ) (s : State Tid Op σ) : Event Tid Op → State Tid Op σ
  | .call t op => if P.calls t op s.data then s.goto t (.entering op) else s
  | .run t choice => P.run s t choice
  | .wake t => s.goto t (s.point t).wake

/-- The next step of the thread is `notify_one`. -/
def notifiesOne (P : Program Tid Op σ) (s : State Tid Op σ) (t : Tid) : Bool :=
  match s.point t with
  | .notifying op => decide (P.notification t op s.data = .one)
  | _ => false

/-- Threads call from outside, and `notify_one` makes a choice that it has. -/
def Admitted (P : Program Tid Op σ) (s : State Tid Op σ) : Event Tid Op → Prop
  | .call t _ => s.point t = .outside
  | .run t choice => P.notifiesOne s t → s.NotifiesOne choice
  | .wake _ => True

instance [Fintype Tid] [DecidableEq Op] (P : Program Tid Op σ) (s : State Tid Op σ) :
    ∀ e, Decidable (P.Admitted s e)
  | .call t _ => inferInstanceAs (Decidable (s.point t = .outside))
  | .run t choice => inferInstanceAs (Decidable (P.notifiesOne s t → s.NotifiesOne choice))
  | .wake _ => .isTrue trivial

/-- All threads are outside. -/
def Init (data : σ) (s : State Tid Op σ) : Prop :=
  s.data = data ∧ s.mutex = none ∧ ∀ t, s.point t = .outside

/-- The states that a run reaches. -/
def Reached (P : Program Tid Op σ) (data : σ) : State Tid Op σ → Prop :=
  Reaches (Init data) P.step P.Admitted

end Program

/-! ## What an event can do -/

/-- The moves of the threads. -/
inductive Moves (P : Program Tid Op σ) (s : State Tid Op σ) : State Tid Op σ → Prop
  | stay : Moves P s s
  | call {t op} : s.point t = .outside → P.calls t op s.data → Moves P s (s.goto t (.entering op))
  | lock {t op} : s.mutex = none → s.point t = .entering op ∨ s.point t = .woken op →
      Moves P s { s.goto t (.testing op) with mutex := some t }
  | pass {t op} : s.point t = .testing op → P.condition t op s.data →
      Moves P s (s.goto t (.updating op))
  | wait {t op} : s.point t = .testing op → P.condition t op s.data = false →
      Moves P s { s.goto t (.waiting op) with mutex := none }
  | update {t op} : s.point t = .updating op →
      Moves P s { s.goto t (.notifying op) with data := P.update t op s.data }
  | notifyNone {t op} : s.point t = .notifying op → P.notification t op s.data = .none →
      Moves P s (s.goto t .leaving)
  | notifyOne {t op w op'} : s.point t = .notifying op → P.notification t op s.data = .one →
      s.point w = .waiting op' → Moves P s ((s.goto w (.woken op')).goto t .leaving)
  | notifyNobody {t op} : s.point t = .notifying op → (∀ u op', s.point u ≠ .waiting op') →
      Moves P s (s.goto t .leaving)
  | notifyAll {t op} : s.point t = .notifying op → P.notification t op s.data = .all →
      Moves P s ({ s with point := fun u => (s.point u).wake }.goto t .leaving)
  | leave {t} : s.point t = .leaving → Moves P s { s.goto t .outside with mutex := none }
  | wake {t op} : s.point t = .waiting op → Moves P s (s.goto t (.woken op))

/-- Going where one is. -/
lemma State.goto_self (s : State Tid Op σ) (t : Tid) : s.goto t (s.point t) = s := by
  unfold State.goto
  rw [Function.update_eq_self]

/-- Who waits, waits for an operation. -/
lemma Point.isWaiting_iff {p : Point Op} : p.isWaiting ↔ ∃ op, p = .waiting op := by
  cases p <;> simp [Point.isWaiting]

/-- Only a thread that waits is woken. -/
lemma Point.wake_of_not_waiting {p : Point Op} (h : ∀ op, p ≠ .waiting op) : p.wake = p := by
  cases p with
  | waiting op => exact absurd rfl (h op)
  | _ => rfl

/-- The mutex is locked or not. -/
lemma moves_lock {t : Tid} {op : Op} (h : s.point t = .entering op ∨ s.point t = .woken op) :
    Moves P s (s.lock t op) := by
  unfold State.lock
  split
  · next hfree => exact .lock (Option.isNone_iff_eq_none.mp hfree) h
  · exact .stay

/-- A notification is one of the moves. -/
lemma moves_notify {t : Tid} {op : Op} {choice : Option Tid} (h : s.point t = .notifying op)
    (hone : P.notification t op s.data = .one → s.NotifiesOne choice) :
    Moves P s ((s.notify choice (P.notification t op s.data)).goto t .leaving) := by
  cases hnotification : P.notification t op s.data with
  | none => exact .notifyNone h hnotification
  | one =>
    cases choice with
    | none =>
      exact .notifyNobody h fun u op' hu => hone hnotification u (Point.isWaiting_iff.mpr ⟨op', hu⟩)
    | some w =>
      obtain ⟨op', hw⟩ := Point.isWaiting_iff.mp (hone hnotification)
      have hmove := Moves.notifyOne h hnotification hw
      unfold State.notify
      dsimp only
      rw [hw]
      exact hmove
  | all => exact .notifyAll h hnotification

/-- An admitted event is one of the moves. -/
theorem moves_step {e : Event Tid Op} (he : P.Admitted s e) : Moves P s (P.step s e) := by
  cases e with
  | call t op =>
    unfold Program.step
    dsimp only
    split
    · next hcalls => exact .call he hcalls
    · exact .stay
  | run t choice =>
    unfold Program.step Program.run
    dsimp only
    split
    · exact .stay
    · next h => exact moves_lock (.inl h)
    · next h =>
      split
      · next hcondition => exact .pass h hcondition
      · next hcondition => exact .wait h (eq_false_of_ne_true hcondition)
    · exact .stay
    · next h => exact moves_lock (.inr h)
    · next h => exact .update h
    · next op h =>
      refine moves_notify h fun hone => he ?_
      unfold Program.notifiesOne
      rw [h]
      exact decide_eq_true hone
    · next h => exact .leave h
  | wake t =>
    unfold Program.step
    dsimp only
    by_cases hwaiting : ∃ op, s.point t = .waiting op
    · obtain ⟨op, hop⟩ := hwaiting
      rw [hop]
      exact .wake hop
    · rw [Point.wake_of_not_waiting fun op hop => hwaiting ⟨op, hop⟩, State.goto_self]
      exact .stay

/-! ## The mutex -/

/-- What the mutex gives, with an invariant of the data. -/
structure Sound (P : Program Tid Op σ) (J : σ → Prop) (s : State Tid Op σ) : Prop where
  mutex_iff : ∀ t, s.mutex = some t ↔ (s.point t).Inside
  calls : ∀ t op, (s.point t).Before op → P.calls t op s.data
  condition : ∀ t op, s.point t = .updating op → P.condition t op s.data
  data : J s.data

/-- The invariant of the data is one of the updates, which leave alone what the callers of other
threads check. -/
structure Keeps (P : Program Tid Op σ) (J : σ → Prop) : Prop where
  calls_update : ∀ t t' op op' d, t ≠ t' → P.calls t op (P.update t' op' d) = P.calls t op d
  update : ∀ t op d, J d → P.calls t op d → P.condition t op d → J (P.update t op d)

/-- Where the thread that went is. -/
@[simp] lemma State.point_goto_self (s : State Tid Op σ) (t : Tid) (p : Point Op) :
    (s.goto t p).point t = p := by
  unfold State.goto
  exact Function.update_self ..

/-- Where the others are. -/
lemma State.point_goto_of_ne (s : State Tid Op σ) {t u : Tid} (p : Point Op) (h : u ≠ t) :
    (s.goto t p).point u = s.point u := by
  unfold State.goto
  exact Function.update_of_ne h ..

section Wake

variable (p : Point Op)

/-- Waking lets nobody in. -/
@[simp] lemma Point.inside_wake : p.wake.Inside ↔ p.Inside := by
  cases p <;> exact Iff.rfl

/-- Waking ends no operation. -/
@[simp] lemma Point.before_wake (op : Op) : p.wake.Before op ↔ p.Before op := by
  cases p <;> exact Iff.rfl

/-- Waking starts no update. -/
@[simp] lemma Point.wake_eq_updating_iff (op : Op) : p.wake = .updating op ↔ p = .updating op := by
  cases p <;> simp [Point.wake]

/-- Nobody waits when woken. -/
lemma Point.wake_ne_waiting (op : Op) : p.wake ≠ .waiting op := by
  cases p <;> simp [Point.wake]

end Wake

namespace Sound

variable {J : σ → Prop} {t u : Tid} {op : Op}

omit [DecidableEq Tid] in
/-- One thread is inside. -/
lemma eq_of_inside (h : Sound P J s) (ht : (s.point t).Inside) (hu : (s.point u).Inside) :
    t = u := Option.some_inj.mp (((h.mutex_iff t).mpr ht).symm.trans ((h.mutex_iff u).mpr hu))

/-- A thread goes on, inside or outside as before. -/
lemma goto (h : Sound P J s) {p : Point Op} (hinside : p.Inside ↔ (s.point t).Inside)
    (hcalls : ∀ op, p.Before op → P.calls t op s.data)
    (hcondition : ∀ op, p = .updating op → P.condition t op s.data) : Sound P J (s.goto t p) where
  mutex_iff u := by
    rcases eq_or_ne u t with rfl | hne
    · rw [State.point_goto_self, hinside]
      exact h.mutex_iff u
    · rw [State.point_goto_of_ne s p hne]
      exact h.mutex_iff u
  calls u op hbefore := by
    rcases eq_or_ne u t with rfl | hne
    · rw [State.point_goto_self] at hbefore
      exact hcalls op hbefore
    · rw [State.point_goto_of_ne s p hne] at hbefore
      exact h.calls u op hbefore
  condition u op hupdating := by
    rcases eq_or_ne u t with rfl | hne
    · rw [State.point_goto_self] at hupdating
      exact hcondition op hupdating
    · rw [State.point_goto_of_ne s p hne] at hupdating
      exact h.condition u op hupdating
  data := h.data

/-- A thread locks the mutex. -/
lemma lock (h : Sound P J s) (hfree : s.mutex = none) (hbefore : (s.point t).Before op) :
    Sound P J { s.goto t (.testing op) with mutex := some t } where
  mutex_iff u := by
    rcases eq_or_ne u t with rfl | hne
    · simp [Point.Inside]
    · have hmutex := h.mutex_iff u
      rw [hfree] at hmutex
      dsimp only
      rw [State.point_goto_of_ne s _ hne, ← hmutex]
      simp [hne.symm]
  calls u op' hbefore' := by
    rcases eq_or_ne u t with rfl | hne
    · rw [State.point_goto_self] at hbefore'
      obtain rfl : op = op' := hbefore'
      exact h.calls u op hbefore
    · rw [State.point_goto_of_ne s _ hne] at hbefore'
      exact h.calls u op' hbefore'
  condition u op' hupdating := by
    rcases eq_or_ne u t with rfl | hne
    · rw [State.point_goto_self] at hupdating
      exact absurd hupdating nofun
    · rw [State.point_goto_of_ne s _ hne] at hupdating
      exact h.condition u op' hupdating
  data := h.data

/-- The thread that has the mutex unlocks it. -/
lemma unlock (h : Sound P J s) {p : Point Op} (hinside : (s.point t).Inside) (hout : ¬ p.Inside)
    (hcalls : ∀ op, p.Before op → P.calls t op s.data) :
    Sound P J { s.goto t p with mutex := none } where
  mutex_iff u := by
    rcases eq_or_ne u t with rfl | hne
    · simp [hout]
    · dsimp only
      rw [State.point_goto_of_ne s p hne]
      exact ⟨nofun, fun hu => absurd (h.eq_of_inside hu hinside) hne⟩
  calls u op hbefore := by
    rcases eq_or_ne u t with rfl | hne
    · rw [State.point_goto_self] at hbefore
      exact hcalls op hbefore
    · rw [State.point_goto_of_ne s p hne] at hbefore
      exact h.calls u op hbefore
  condition u op hupdating := by
    rcases eq_or_ne u t with rfl | hne
    · rw [State.point_goto_self] at hupdating
      exact absurd (hupdating ▸ trivial) hout
    · rw [State.point_goto_of_ne s p hne] at hupdating
      exact h.condition u op hupdating
  data := h.data

/-- The data are updated. -/
lemma update (h : Sound P J s) (hkeeps : Keeps P J) (hupdating : s.point t = .updating op) :
    Sound P J { s.goto t (.notifying op) with data := P.update t op s.data } where
  mutex_iff u := by
    rcases eq_or_ne u t with rfl | hne
    · have hmutex := h.mutex_iff u
      rw [hupdating] at hmutex
      rw [State.point_goto_self]
      exact hmutex
    · rw [State.point_goto_of_ne s _ hne]
      exact h.mutex_iff u
  calls u op' hbefore := by
    rcases eq_or_ne u t with rfl | hne
    · rw [State.point_goto_self] at hbefore
      exact absurd hbefore nofun
    · rw [State.point_goto_of_ne s _ hne] at hbefore
      rw [hkeeps.calls_update _ _ _ _ _ hne]
      exact h.calls u op' hbefore
  condition u op' hupdating' := by
    rcases eq_or_ne u t with rfl | hne
    · rw [State.point_goto_self] at hupdating'
      exact absurd hupdating' nofun
    · -- Two threads would be inside.
      rw [State.point_goto_of_ne s _ hne] at hupdating'
      exact absurd (h.eq_of_inside (hupdating' ▸ trivial) (hupdating ▸ trivial)) hne
  data := hkeeps.update t op s.data h.data (h.calls t op (hupdating ▸ rfl))
    (h.condition t op hupdating)

omit [DecidableEq Tid] in
/-- All threads that wait are woken. -/
lemma wakeAll (h : Sound P J s) : Sound P J { s with point := fun u => (s.point u).wake } where
  mutex_iff u := (h.mutex_iff u).trans (Point.inside_wake _).symm
  calls u op hbefore := h.calls u op ((Point.before_wake _ _).mp hbefore)
  condition u op hupdating := h.condition u op ((Point.wake_eq_updating_iff _ _).mp hupdating)
  data := h.data

/-- A move keeps what the mutex gives. -/
theorem moves (h : Sound P J s) (hkeeps : Keeps P J) (hmove : Moves P s s') : Sound P J s' := by
  cases hmove with
  | stay => exact h
  | call hpoint hcalls =>
    refine h.goto (by simp [hpoint, Point.Inside]) (fun op' hbefore => ?_) nofun
    obtain rfl : _ = op' := hbefore
    exact hcalls
  | lock hfree hpoint =>
    refine h.lock hfree ?_
    rcases hpoint with hpoint | hpoint <;> rw [hpoint] <;> rfl
  | pass hpoint hcondition =>
    refine h.goto (by simp [hpoint, Point.Inside]) (fun op' hbefore => ?_) (fun op' hop => ?_)
    · obtain rfl : _ = op' := hbefore
      exact h.calls _ _ (hpoint ▸ rfl)
    · obtain rfl := Point.updating.inj hop
      exact hcondition
  | wait hpoint _ =>
    refine h.unlock (hpoint ▸ trivial) nofun (fun op' hbefore => ?_)
    obtain rfl : _ = op' := hbefore
    exact h.calls _ _ (hpoint ▸ rfl)
  | update hpoint => exact h.update hkeeps hpoint
  | notifyNone hpoint _ => exact h.goto (by simp [hpoint, Point.Inside]) nofun nofun
  | @notifyOne t _ w op' hpoint _ hw =>
    have hne : t ≠ w := fun heq => by simp [← heq, hpoint] at hw
    have hwoken : Sound P J (s.goto w (.woken op')) := by
      refine h.goto (by simp [hw, Point.Inside]) (fun op'' hbefore => ?_) nofun
      obtain rfl : op' = op'' := hbefore
      exact h.calls _ _ (hw ▸ rfl)
    refine hwoken.goto ?_ nofun nofun
    rw [State.point_goto_of_ne s _ hne, hpoint]
    exact Iff.rfl
  | notifyNobody hpoint _ => exact h.goto (by simp [hpoint, Point.Inside]) nofun nofun
  | notifyAll hpoint _ =>
    refine h.wakeAll.goto ?_ nofun nofun
    dsimp only
    rw [hpoint]
    exact Iff.rfl
  | leave hpoint => exact h.unlock (hpoint ▸ trivial) nofun nofun
  | wake hpoint =>
    refine h.goto (by simp [hpoint, Point.Inside]) (fun op' hbefore => ?_) nofun
    obtain rfl : _ = op' := hbefore
    exact h.calls _ _ (hpoint ▸ rfl)

omit [DecidableEq Tid] in
/-- All threads are outside. -/
lemma init {data : σ} (hdata : J data) (h : Program.Init data s) : Sound P J s := by
  obtain ⟨rfl, hmutex, houtside⟩ := h
  exact
    { mutex_iff := fun t => by simp [hmutex, houtside t, Point.Inside]
      calls := fun t op hbefore => by
        rw [houtside t] at hbefore
        exact absurd hbefore nofun
      condition := fun t op hupdating => by
        rw [houtside t] at hupdating
        exact absurd hupdating nofun
      data := hdata }

/-- The mutex gives the same along every run. -/
theorem of_reached {data : σ} (hkeeps : Keeps P J) (hdata : J data) (hrun : P.Reached data s) :
    Sound P J s :=
  hrun.invariant (I := Sound P J) (fun _ hinit => .init hdata hinit)
    (fun _ _ h he => h.moves hkeeps (moves_step he))

end Sound

/-! ## Wake-ups -/

/-- One notification is enough for those that compete: they wait for `C`, which makes the condition
of all others true, and each of them makes it false.  When the condition of another becomes true all
are notified, and when `C` does at least one is. -/
structure Wakes (P : Program Tid Op σ) (J : σ → Prop) (Competes : Op → Prop) (C : σ → Prop) :
    Prop where
  competing : ∀ t op d, Competes op → (P.condition t op d ↔ C d)
  others : ∀ t op d, ¬ Competes op → C d → P.condition t op d
  update_competing : ∀ t op d, Competes op → ¬ C (P.update t op d)
  notifies_all : ∀ t u op op' d, J d → P.calls t op d → P.condition t op d → u ≠ t →
    ¬ Competes op' → ¬ P.condition u op' d → P.condition u op' (P.update t op d) →
      P.notification t op (P.update t op d) = .all
  notifies : ∀ t op d, J d → P.calls t op d → P.condition t op d → ¬ C d →
    C (P.update t op d) → P.notification t op (P.update t op d) ≠ .none

/-- The thread is awake and competes. -/
def Point.Running {Op : Type} (Competes : Op → Prop) : Point Op → Prop
  | .testing op | .woken op | .updating op => Competes op
  | _ => False

/-- A thread is about to notify in one of some ways. -/
def Pending (P : Program Tid Op σ) (ways : Notification → Prop) (data : σ)
    (point : Tid → Point Op) : Prop :=
  ∃ t op, point t = .notifying op ∧ ways (P.notification t op data)

/-- Who waits although its condition holds is going to be notified or, if it competes, another that
competes is awake. -/
structure Awake (P : Program Tid Op σ) (Competes : Op → Prop) (C : σ → Prop) (data : σ)
    (point : Tid → Point Op) : Prop where
  others : ∀ t op, ¬ Competes op → point t = .waiting op → P.condition t op data →
    Pending P (· = .all) data point
  competing : ∀ t op, Competes op → point t = .waiting op → C data →
    (∃ u, (point u).Running Competes) ∨ Pending P (· ≠ .none) data point

namespace Awake

variable {J : σ → Prop} {Competes : Op → Prop} {C : σ → Prop} {t : Tid} {op : Op}

omit [DecidableEq Tid] in
/-- Threads move while the data stay.  Those that begin to wait do not find their condition true,
and whoever was going to wake the others still is. -/
lemma of_moved (h : Awake P Competes C s.data s.point) (hwakes : Wakes P J Competes C)
    {point : Tid → Point Op}
    (hwaiting : ∀ u op, point u = .waiting op →
      s.point u = .waiting op ∨ ¬ P.condition u op s.data)
    (hall : Pending P (· = .all) s.data s.point → Pending P (· = .all) s.data point)
    (hawake : C s.data → (∃ u, (s.point u).Running Competes) ∨ Pending P (· ≠ .none)
      s.data s.point →
      (∃ u, (point u).Running Competes) ∨ Pending P (· ≠ .none) s.data point) :
    Awake P Competes C s.data point where
  others u op hother hu hcondition := by
    rcases hwaiting u op hu with hu | hnot
    · exact hall (h.others u op hother hu hcondition)
    · exact absurd hcondition hnot
  competing u op hcompetes hu hC := by
    rcases hwaiting u op hu with hu | hnot
    · exact hawake hC (h.competing u op hcompetes hu hC)
    · exact absurd ((hwakes.competing u op _ hcompetes).mpr hC) hnot

/-- A notification that is pending stays so when others move. -/
lemma pending_goto {p : Point Op} {ways : Notification → Prop}
    (hpoint : ∀ op, s.point t = .notifying op → ¬ ways (P.notification t op s.data))
    (hpending : Pending P ways s.data s.point) : Pending P ways s.data (s.goto t p).point := by
  obtain ⟨u, op, hu, hways⟩ := hpending
  have hne : u ≠ t := by
    rintro rfl
    exact hpoint op hu hways
  exact ⟨u, op, by rw [State.point_goto_of_ne s p hne, hu], hways⟩

/-- A thread that runs goes on running when others move. -/
lemma running_goto {p : Point Op} (hpoint : (s.point t).Running Competes → p.Running Competes)
    (hrunning : ∃ u, (s.point u).Running Competes) :
    ∃ u, ((s.goto t p).point u).Running Competes := by
  obtain ⟨u, hu⟩ := hrunning
  refine ⟨u, ?_⟩
  rcases eq_or_ne u t with rfl | hne
  · rw [State.point_goto_self]
    exact hpoint hu
  · rwa [State.point_goto_of_ne s p hne]

/-- Who waits when a thread has moved. -/
lemma waiting_goto {p : Point Op} {u : Tid} {op : Op}
    (hu : (s.goto t p).point u = .waiting op) : u ≠ t ∧ s.point u = .waiting op ∨
      u = t ∧ p = .waiting op := by
  rcases eq_or_ne u t with rfl | hne
  · rw [State.point_goto_self] at hu
    exact .inr ⟨rfl, hu⟩
  · rw [State.point_goto_of_ne s p hne] at hu
    exact .inl ⟨hne, hu⟩

/-- A thread goes on that is not about to notify, and does not begin to wait. -/
lemma goto (h : Awake P Competes C s.data s.point) (hwakes : Wakes P J Competes C) {p : Point Op}
    (hpoint : ∀ op, s.point t ≠ .notifying op) (hwaiting : ∀ op, p ≠ .waiting op)
    (hrunning : (s.point t).Running Competes → p.Running Competes) :
    Awake P Competes C s.data (s.goto t p).point := by
  refine h.of_moved hwakes (fun u op hu => ?_) (pending_goto fun op hop => absurd hop (hpoint op))
    (fun _ => Or.imp (running_goto hrunning) (pending_goto fun op hop => absurd hop (hpoint op)))
  rcases waiting_goto hu with hold | hnew
  · exact .inl hold.2
  · exact absurd hnew.2 (hwaiting op)

/-- A thread waits, as its condition does not hold. -/
lemma wait (h : Awake P Competes C s.data s.point) (hwakes : Wakes P J Competes C)
    (hpoint : s.point t = .testing op) (hcondition : P.condition t op s.data = false) :
    Awake P Competes C s.data (s.goto t (.waiting op)).point := by
  refine h.of_moved hwakes (fun u op' hu => ?_) (pending_goto (by simp [hpoint]))
    (fun hC => Or.imp (running_goto fun hrunning => ?_) (pending_goto (by simp [hpoint])))
  · rcases waiting_goto hu with hold | ⟨rfl, hnew⟩
    · exact .inl hold.2
    · obtain rfl := Point.waiting.inj hnew
      exact .inr (by simp [hcondition])
  · -- Had it competed, its condition would be `C`.
    rw [hpoint] at hrunning
    have hholds := (hwakes.competing t op _ hrunning).mpr hC
    rw [hcondition] at hholds
    exact absurd hholds nofun

/-- The data are updated. -/
lemma update (h : Awake P Competes C s.data s.point) (hwakes : Wakes P J Competes C)
    (hsound : Sound P J s) (hpoint : s.point t = .updating op) :
    Awake P Competes C (P.update t op s.data) (s.goto t (.notifying op)).point := by
  have hcalls := hsound.calls t op (hpoint ▸ rfl)
  have hcondition := hsound.condition t op hpoint
  have hnotifying : (s.goto t (.notifying op)).point t = .notifying op := s.point_goto_self t _
  -- Nobody else has the mutex, so nobody was about to notify.
  have hnone : ∀ u op', s.point u ≠ .notifying op' := by
    intro u op' hu
    have heq := hsound.eq_of_inside (t := u) (u := t) (hu ▸ trivial) (hpoint ▸ trivial)
    rw [heq, hpoint] at hu
    exact absurd hu nofun
  refine ⟨fun u op' hother hu hholds => ?_, fun u op' hcompetes hu hC => ?_⟩
  · rcases waiting_goto hu with ⟨hne, hu⟩ | ⟨_, hnew⟩
    · by_cases hbefore : P.condition u op' s.data
      · obtain ⟨v, op'', hv, _⟩ := h.others u op' hother hu hbefore
        exact absurd hv (hnone v op'')
      · exact ⟨t, op, hnotifying, hwakes.notifies_all t u op op' s.data hsound.data
          hcalls hcondition
          hne hother hbefore hholds⟩
    · exact absurd hnew nofun
  · rcases waiting_goto hu with ⟨_, hu⟩ | ⟨_, hnew⟩
    · by_cases hbefore : C s.data
      · rcases h.competing u op' hcompetes hu hbefore with hrunning | ⟨v, op'', hv, _⟩
        · refine .inl (running_goto (fun hrunning => ?_) hrunning)
          rw [hpoint] at hrunning
          exact absurd hC (hwakes.update_competing t op s.data hrunning)
        · exact absurd hv (hnone v op'')
      · exact .inr ⟨t, op, hnotifying, hwakes.notifies t op s.data hsound.data hcalls hcondition
          hbefore hC⟩
    · exact absurd hnew nofun

omit [DecidableEq Tid] in
/-- Nobody waits. -/
lemma of_nobody {data : σ} {point : Tid → Point Op} (h : ∀ u op, point u ≠ .waiting op) :
    Awake P Competes C data point :=
  ⟨fun u op _ hu => absurd hu (h u op), fun u op _ hu => absurd hu (h u op)⟩

omit [DecidableEq Tid] in
/-- What is pending is what the thread inside is about to do. -/
lemma ways_of_pending (hsound : Sound P J s) (hpoint : s.point t = .notifying op)
    {ways : Notification → Prop} (hpending : Pending P ways s.data s.point) :
    ways (P.notification t op s.data) := by
  obtain ⟨u, op', hu, hways⟩ := hpending
  obtain rfl := hsound.eq_of_inside (t := u) (u := t) (hu ▸ trivial) (hpoint ▸ trivial)
  obtain rfl := Point.notifying.inj (hu.symm.trans hpoint)
  exact hways

/-- Nobody is notified. -/
lemma notifyNone (h : Awake P Competes C s.data s.point) (hwakes : Wakes P J Competes C)
    (hsound : Sound P J s) (hpoint : s.point t = .notifying op)
    (hnotification : P.notification t op s.data = .none) :
    Awake P Competes C s.data (s.goto t .leaving).point := by
  refine h.of_moved hwakes (fun u op' hu => ?_) (fun hall => ?_) (fun _ hawake => ?_)
  · rcases waiting_goto hu with hold | hnew
    · exact .inl hold.2
    · exact absurd hnew.2 nofun
  · have hways := ways_of_pending hsound hpoint hall
    rw [hnotification] at hways
    exact absurd hways nofun
  · rcases hawake with hrunning | hpending
    · exact .inl (running_goto (by simp [hpoint, Point.Running]) hrunning)
    · exact absurd hnotification (ways_of_pending hsound hpoint hpending)

/-- One of those that wait is woken.  When the others would find their condition true too, it
competes. -/
lemma notifyOne (h : Awake P Competes C s.data s.point) (hwakes : Wakes P J Competes C)
    (hsound : Sound P J s) (hpoint : s.point t = .notifying op)
    (hnotification : P.notification t op s.data = .one) {w : Tid} {op' : Op}
    (hw : s.point w = .waiting op') :
    Awake P Competes C s.data ((s.goto w (.woken op')).goto t .leaving).point := by
  have hnotAll : ¬ Pending P (· = .all) s.data s.point := fun hall => by
    have hways := ways_of_pending hsound hpoint hall
    rw [hnotification] at hways
    exact absurd hways nofun
  have hne : t ≠ w := fun heq => by simp [← heq, hpoint] at hw
  have hnotifying : (s.goto w (.woken op')).point t = .notifying op := by
    rw [State.point_goto_of_ne s _ hne, hpoint]
  refine h.of_moved hwakes (fun u op'' hu => ?_) (fun hall => absurd hall hnotAll)
    (fun hC hawake => .inl (running_goto (by simp [hnotifying, Point.Running]) ?_))
  · rcases waiting_goto hu with ⟨_, hu⟩ | ⟨_, hnew⟩
    · rcases waiting_goto hu with ⟨_, hu⟩ | ⟨_, hnew⟩
      · exact .inl hu
      · exact absurd hnew nofun
    · exact absurd hnew nofun
  · rcases hawake with hrunning | _
    · exact running_goto (by simp [hw, Point.Running]) hrunning
    · refine ⟨w, ?_⟩
      rw [State.point_goto_self]
      by_contra hother
      exact hnotAll (h.others w op' hother hw (hwakes.others w op' s.data hother hC))

/-- A move loses no wake-up. -/
theorem moves (h : Awake P Competes C s.data s.point) (hwakes : Wakes P J Competes C)
    (hsound : Sound P J s) (hmove : Moves P s s') : Awake P Competes C s'.data s'.point := by
  cases hmove with
  | stay => exact h
  | call hpoint _ =>
    exact h.goto hwakes (by simp [hpoint]) nofun (by simp [hpoint, Point.Running])
  | lock _ hpoint =>
    refine h.goto hwakes ?_ nofun ?_ <;> rcases hpoint with hpoint | hpoint <;>
      simp [hpoint, Point.Running]
  | pass hpoint _ =>
    exact h.goto hwakes (by simp [hpoint]) nofun (by simp [hpoint, Point.Running])
  | wait hpoint hcondition => exact h.wait hwakes hpoint hcondition
  | update hpoint => exact h.update hwakes hsound hpoint
  | notifyNone hpoint hnotification => exact h.notifyNone hwakes hsound hpoint hnotification
  | notifyOne hpoint hnotification hw => exact h.notifyOne hwakes hsound hpoint hnotification hw
  | notifyNobody _ hnobody =>
    refine of_nobody fun u op hu => ?_
    rcases waiting_goto hu with ⟨_, hu⟩ | ⟨_, hnew⟩
    · exact hnobody u op hu
    · exact absurd hnew nofun
  | notifyAll _ _ =>
    refine of_nobody fun u op hu => ?_
    rcases waiting_goto hu with ⟨_, hu⟩ | ⟨_, hnew⟩
    · exact Point.wake_ne_waiting _ op hu
    · exact absurd hnew nofun
  | leave hpoint =>
    exact h.goto hwakes (by simp [hpoint]) nofun (by simp [hpoint, Point.Running])
  | wake hpoint =>
    exact h.goto hwakes (by simp [hpoint]) nofun (by simp [hpoint, Point.Running])

/-- No wake-up is lost along any run. -/
theorem of_reached {data : σ} (hwakes : Wakes P J Competes C) (hkeeps : Keeps P J)
    (hdata : J data) (hrun : P.Reached data s) : Awake P Competes C s.data s.point := by
  have hboth := hrun.invariant
    (I := fun s => Sound P J s ∧ Awake P Competes C s.data s.point)
    (fun s hinit => ⟨.init hdata hinit, of_nobody fun u op hu => ?_⟩)
    (fun s e h he => ⟨h.1.moves hkeeps (moves_step he), h.2.moves hwakes h.1 (moves_step he)⟩)
  · exact hboth.2
  · rw [hinit.2.2 u] at hu
    exact absurd hu nofun

end Awake

end Monitor
