import XrceDds.Lib.Monitor
import Mathlib.Algebra.Group.Nat.Defs
import Mathlib.Data.Finset.Card
import Mathlib.Data.Fintype.Basic

/-!
# The shared mutex

`SharedMutex` guards the output streams of a session: those that use a stream share it, and the one
that makes a new stream has it alone.  `SharedLock` and `ExclusiveLock` are the objects that lock
it.  The thread that has the exclusive lock may lock its shared one again, which
`Session::get_reliable_output_stream` does.

The objects' `lock` and `unlock` are the operations of a monitor, with `mtx_` as its mutex and `cv_`
as its condition variable.  One notification is enough for those that wait for the exclusive lock,
as each takes it from the others.
-/

namespace XrceDds

open Monitor

/-- `SharedMutex`, with the lock objects whose `locked_` is set.  The object `(t, i)` is the `i`-th
of the thread `t`; only that thread looks at its `locked_`, which is written together with the
counter or the flag.  Every object that is counted lies in memory, so that the `size_t` does not
overflow. -/
structure SharedMutex (Tid : Type) where
  sharedCounter : ℕ
  exclusivelyLocked : Bool
  exclusiveThreadId : Option Tid
  sharedLocks : Finset (Tid × ℕ)
  exclusiveLocks : Finset (Tid × ℕ)

/-- `SharedMutex::SharedMutex`; the default `std::thread::id` is of no thread. -/
def SharedMutex.init {Tid : Type} : SharedMutex Tid := ⟨0, false, none, ∅, ∅⟩

/-- `--` of a `size_t`. -/
def sizeDecrement (n : ℕ) : ℕ := if n = 0 then 2 ^ 64 - 1 else n - 1

variable {Tid : Type} [DecidableEq Tid]

/-- `SharedLock::lock`. -/
def sharedLockLock (t : Tid) (i : ℕ) : Operation (SharedMutex Tid) where
  calls d := (t, i) ∉ d.sharedLocks
  condition d := !d.exclusivelyLocked || some t = d.exclusiveThreadId
  update d :=
    { d with sharedCounter := d.sharedCounter + 1, sharedLocks := insert (t, i) d.sharedLocks }
  notification _ := .none

/-- `SharedLock::unlock`. -/
def sharedLockUnlock (t : Tid) (i : ℕ) : Operation (SharedMutex Tid) where
  calls d := (t, i) ∈ d.sharedLocks
  condition _ := true
  update d :=
    { d with
      sharedCounter := sizeDecrement d.sharedCounter
      sharedLocks := d.sharedLocks.erase (t, i) }
  notification d := if 0 = d.sharedCounter then .one else .none

/-- `ExclusiveLock::lock`. -/
def exclusiveLockLock (t : Tid) (i : ℕ) : Operation (SharedMutex Tid) where
  calls d := (t, i) ∉ d.exclusiveLocks
  condition d := 0 = d.sharedCounter && !d.exclusivelyLocked
  update d :=
    { d with
      exclusivelyLocked := true
      exclusiveThreadId := some t
      exclusiveLocks := insert (t, i) d.exclusiveLocks }
  notification _ := .none

/-- `ExclusiveLock::unlock`. -/
def exclusiveLockUnlock (t : Tid) (i : ℕ) : Operation (SharedMutex Tid) where
  calls d := (t, i) ∈ d.exclusiveLocks
  condition _ := true
  update d :=
    { d with exclusivelyLocked := false, exclusiveLocks := d.exclusiveLocks.erase (t, i) }
  notification _ := .all

/-- The calls that a thread makes on its lock objects.  The constructors lock, and the destructors
unlock. -/
inductive LockOp where
  | sharedLock (i : ℕ)
  | sharedUnlock (i : ℕ)
  | exclusiveLock (i : ℕ)
  | exclusiveUnlock (i : ℕ)
  deriving DecidableEq

/-- The call locks an `ExclusiveLock`. -/
def LockOp.IsExclusiveLock : LockOp → Prop
  | .exclusiveLock _ => True
  | _ => False

/-- The threads that use a `SharedMutex`. -/
def sharedMutexProgram : Program Tid LockOp (SharedMutex Tid) where
  operation t
    | .sharedLock i => sharedLockLock t i
    | .sharedUnlock i => sharedLockUnlock t i
    | .exclusiveLock i => exclusiveLockLock t i
    | .exclusiveUnlock i => exclusiveLockUnlock t i

/-- The calls of `Session::get_reliable_output_stream` on the shared lock object `i` that it is
given, when the stream is there and when it makes it. -/
def getReliableOutputStreamCalls (i : ℕ) (found : Bool) : List LockOp :=
  if found then [.sharedLock i]
  else [.sharedLock i, .sharedUnlock i, .exclusiveLock 0, .sharedLock i, .exclusiveUnlock 0]

/-- The states of the threads. -/
abbrev SharedMutexState (Tid : Type) := State Tid LockOp (SharedMutex Tid)

namespace SharedMutex

/-- The locks of the objects are those of the mutex. -/
structure Invariant (d : SharedMutex Tid) : Prop where
  counter : d.sharedCounter = d.sharedLocks.card
  locked_iff : d.exclusivelyLocked ↔ d.exclusiveLocks.Nonempty
  subsingleton : ∀ l ∈ d.exclusiveLocks, ∀ l' ∈ d.exclusiveLocks, l = l'
  owner : ∀ l ∈ d.exclusiveLocks, d.exclusiveThreadId = some l.1
  shared : ∀ l ∈ d.exclusiveLocks, ∀ l' ∈ d.sharedLocks, l'.1 = l.1

/-- What the locks are for: one thread has the exclusive lock, and then no other has a shared one;
the counter counts the shared locks, and is not decremented at zero; and a thread that waits
although its condition holds is about to be notified or, when it waits for the exclusive lock, has
another one awake that is after it. -/
structure Safe (s : SharedMutexState Tid) : Prop where
  exclusive : ∀ l ∈ s.data.exclusiveLocks, ∀ l' ∈ s.data.exclusiveLocks, l.1 = l'.1
  shared : ∀ l ∈ s.data.exclusiveLocks, ∀ l' ∈ s.data.sharedLocks, l'.1 = l.1
  counter : s.data.sharedCounter = s.data.sharedLocks.card
  counter_pos : ∀ t i, s.point t = .updating (.sharedUnlock i) → 0 < s.data.sharedCounter
  waiting_shared : ∀ t op, ¬ op.IsExclusiveLock → s.point t = .waiting op →
    sharedMutexProgram.condition t op s.data →
      Pending sharedMutexProgram (· = .all) s.data s.point
  waiting_exclusive : ∀ t op, op.IsExclusiveLock → s.point t = .waiting op →
    sharedMutexProgram.condition t op s.data →
      (∃ u, (s.point u).Running LockOp.IsExclusiveLock) ∨
        Pending sharedMutexProgram (· ≠ .none) s.data s.point

/-- Nobody has a lock. -/
def Free (d : SharedMutex Tid) : Prop := d.sharedCounter = 0 ∧ d.exclusivelyLocked = false

/-! ## The locks -/

variable {d : SharedMutex Tid} {t : Tid} {i : ℕ}

omit [DecidableEq Tid] in
/-- At first nobody has a lock. -/
lemma invariant_init : Invariant (init : SharedMutex Tid) where
  counter := rfl
  locked_iff := by simp [init]
  subsingleton := by simp [init]
  owner := by simp [init]
  shared := by simp [init]

/-- A shared lock is taken when the exclusive one is free, or is the thread's own. -/
lemma Invariant.sharedLock (h : d.Invariant) (hcalls : (sharedLockLock t i).calls d)
    (hcondition : (sharedLockLock t i).condition d) :
    ((sharedLockLock t i).update d).Invariant where
  counter := by
    have hnot : (t, i) ∉ d.sharedLocks := of_decide_eq_true hcalls
    exact (congrArg (· + 1) h.counter).trans (Finset.card_insert_of_notMem hnot).symm
  locked_iff := h.locked_iff
  subsingleton := h.subsingleton
  owner := h.owner
  shared l hl l' hl' := by
    rcases Finset.mem_insert.mp hl' with rfl | hold
    · have hlocked := h.locked_iff.mpr ⟨l, hl⟩
      have howner := h.owner l hl
      simp only [sharedLockLock, hlocked, howner, Bool.not_true, Bool.false_or,
        decide_eq_true_eq, Option.some_inj] at hcondition
      exact hcondition
    · exact h.shared l hl l' hold

/-- A shared lock is released. -/
lemma Invariant.sharedUnlock (h : d.Invariant) (hcalls : (sharedLockUnlock t i).calls d) :
    ((sharedLockUnlock t i).update d).Invariant where
  counter := by
    have hmem : (t, i) ∈ d.sharedLocks := of_decide_eq_true hcalls
    have hpos : 0 < d.sharedLocks.card := Finset.card_pos.mpr ⟨_, hmem⟩
    have hcard := Finset.card_erase_of_mem hmem
    have hcounter := h.counter
    simp only [sharedLockUnlock, sizeDecrement]
    rw [if_neg (by omega)]
    omega
  locked_iff := h.locked_iff
  subsingleton := h.subsingleton
  owner := h.owner
  shared l hl l' hl' := h.shared l hl l' (Finset.mem_of_mem_erase hl')

/-- The exclusive lock is taken when nobody has a lock. -/
lemma Invariant.exclusiveLock (h : d.Invariant)
    (hcondition : (exclusiveLockLock t i).condition d) :
    ((exclusiveLockLock t i).update d).Invariant := by
  simp only [exclusiveLockLock, Bool.and_eq_true, decide_eq_true_eq,
    Bool.not_eq_true'] at hcondition
  obtain ⟨hcounter, hfree⟩ := hcondition
  have hshared : d.sharedLocks = ∅ := Finset.card_eq_zero.mp (by rw [← h.counter, ← hcounter])
  have hexclusive : d.exclusiveLocks = ∅ := by
    rw [← Finset.not_nonempty_iff_eq_empty, ← h.locked_iff, hfree]
    exact nofun
  exact
    { counter := h.counter
      locked_iff := by simp [exclusiveLockLock]
      subsingleton := by simp [exclusiveLockLock, hexclusive]
      owner := by simp [exclusiveLockLock, hexclusive]
      shared := by simp [exclusiveLockLock, hshared] }

/-- The exclusive lock is released. -/
lemma Invariant.exclusiveUnlock (h : d.Invariant) (hcalls : (exclusiveLockUnlock t i).calls d) :
    ((exclusiveLockUnlock t i).update d).Invariant := by
  have hmem : (t, i) ∈ d.exclusiveLocks := of_decide_eq_true hcalls
  have hempty : d.exclusiveLocks.erase (t, i) = ∅ := by
    refine Finset.eq_empty_of_forall_notMem fun l hl => ?_
    exact Finset.ne_of_mem_erase hl (h.subsingleton l (Finset.mem_of_mem_erase hl) _ hmem)
  exact
    { counter := h.counter
      locked_iff := by simp [exclusiveLockUnlock, hempty]
      subsingleton := by simp [exclusiveLockUnlock, hempty]
      owner := by simp [exclusiveLockUnlock, hempty]
      shared := by simp [exclusiveLockUnlock, hempty] }

/-- The operations keep the invariant, and the lock objects of other threads. -/
lemma keeps_invariant : Keeps (@sharedMutexProgram Tid _) Invariant where
  calls_update t t' op op' d hne := by
    cases op <;> cases op' <;>
      simp [Program.calls, Program.update, sharedMutexProgram, sharedLockLock, sharedLockUnlock,
        exclusiveLockLock, exclusiveLockUnlock, hne]
  update t op d h hcalls hcondition := by
    cases op with
    | sharedLock i => exact h.sharedLock hcalls hcondition
    | sharedUnlock i => exact h.sharedUnlock hcalls
    | exclusiveLock i => exact h.exclusiveLock hcondition
    | exclusiveUnlock i => exact h.exclusiveUnlock hcalls

/-! ## The notifications -/

/-- Who waits for the exclusive lock waits until nobody has a lock. -/
lemma condition_exclusiveLock (t : Tid) (i : ℕ) (d : SharedMutex Tid) :
    sharedMutexProgram.condition t (.exclusiveLock i) d ↔ d.Free := by
  simp only [Program.condition, sharedMutexProgram, exclusiveLockLock, Free, Bool.and_eq_true,
    decide_eq_true_eq, Bool.not_eq_true']
  exact and_congr_left' eq_comm

/-- Who waits for a shared lock waits until the exclusive one is free or its own. -/
lemma condition_sharedLock (t : Tid) (i : ℕ) (d : SharedMutex Tid) :
    sharedMutexProgram.condition t (.sharedLock i) d ↔
      d.exclusivelyLocked = false ∨ d.exclusiveThreadId = some t := by
  simp only [Program.condition, sharedMutexProgram, sharedLockLock, Bool.or_eq_true,
    decide_eq_true_eq, Bool.not_eq_true']
  exact or_congr_right eq_comm

/-- One notification is enough for those that wait for the exclusive lock. -/
lemma wakes : Wakes (@sharedMutexProgram Tid _) Invariant LockOp.IsExclusiveLock Free where
  competing t op d hop := by
    cases op with
    | exclusiveLock i => exact condition_exclusiveLock t i d
    | _ => exact absurd hop nofun
  others t op d hop hfree := by
    cases op with
    | sharedLock i => exact (condition_sharedLock t i d).mpr (.inl hfree.2)
    | exclusiveLock i => exact absurd trivial hop
    | sharedUnlock i => rfl
    | exclusiveUnlock i => rfl
  update_competing t op d hop := by
    cases op with
    | exclusiveLock i => exact fun hfree => absurd hfree.2 nofun
    | _ => exact absurd hop nofun
  notifies_all t u op op' d _ _ hcondition _ hop' hbefore hafter := by
    cases op' with
    | sharedLock i =>
      rw [condition_sharedLock] at hbefore hafter
      cases op with
      | sharedLock j => exact absurd hafter hbefore
      | sharedUnlock j => exact absurd hafter hbefore
      | exclusiveLock j =>
        -- Nobody was kept from a shared lock.
        exact absurd (.inl ((condition_exclusiveLock t j d).mp hcondition).2) hbefore
      | exclusiveUnlock j => rfl
    | exclusiveLock i => exact absurd trivial hop'
    | sharedUnlock i => exact absurd rfl hbefore
    | exclusiveUnlock i => exact absurd rfl hbefore
  notifies t op d _ _ _ hbefore hafter := by
    cases op with
    | sharedLock i => exact absurd hafter.1 (Nat.succ_ne_zero _)
    | sharedUnlock i =>
      have hzero : 0 = (sharedMutexProgram.update t (.sharedUnlock i) d).sharedCounter :=
        hafter.1.symm
      have hone : sharedMutexProgram.notification t (.sharedUnlock i)
          (sharedMutexProgram.update t (.sharedUnlock i) d) = .one := if_pos hzero
      rw [hone]
      exact nofun
    | exclusiveLock i => exact absurd hafter.2 nofun
    | exclusiveUnlock i => exact nofun

/-! ## Runs -/

/-- The state of the threads in a run. -/
def Reached (s : SharedMutexState Tid) : Prop := sharedMutexProgram.Reached init s

/-- The locks are safe along every run, and no wake-up is lost. -/
theorem safe_of_reached {s : SharedMutexState Tid} (hrun : Reached s) : Safe s := by
  have hsound := Sound.of_reached keeps_invariant invariant_init hrun
  have hawake := Awake.of_reached wakes keeps_invariant invariant_init hrun
  exact
    { exclusive := fun l hl l' hl' => congrArg Prod.fst (hsound.data.subsingleton l hl l' hl')
      shared := hsound.data.shared
      counter := hsound.data.counter
      counter_pos := fun t i hpoint => by
        have hcalls := hsound.calls t _ (hpoint ▸ rfl : (s.point t).Before (.sharedUnlock i))
        have hmem : (t, i) ∈ s.data.sharedLocks := of_decide_eq_true hcalls
        rw [hsound.data.counter]
        exact Finset.card_pos.mpr ⟨_, hmem⟩
      waiting_shared := hawake.others
      waiting_exclusive := fun t op hop hpoint hcondition =>
        hawake.competing t op hop hpoint ((wakes.competing t op _ hop).mp hcondition) }

/-- A call of the first thread without a wait. -/
def completes (op : LockOp) : List (Event (Fin 2) LockOp) :=
  .call 0 op :: List.replicate 5 (.run 0 none)

/-- The first thread makes a stream.  When it has the exclusive lock the second one wants a shared
one, and waits; the first then takes its own again. -/
def contention : List (Event (Fin 2) LockOp) :=
  ((getReliableOutputStreamCalls 0 false).take 3).flatMap completes ++
    [.call 1 (.sharedLock 0), .run 1 none, .run 1 none] ++
      (((getReliableOutputStreamCalls 0 false).drop 3).take 1).flatMap completes

/-- The locks of the two threads. -/
theorem safe_of_reached_contention :
    ∃ s : SharedMutexState (Fin 2), s.data.exclusiveLocks = {(0, 0)} ∧
      s.data.sharedLocks = {(0, 0)} ∧ s.point 1 = .waiting (.sharedLock 0) ∧ Safe s :=
  have hstart : Reached (⟨init, none, fun _ => .outside⟩ : SharedMutexState (Fin 2)) :=
    .start ⟨rfl, rfl, fun _ => rfl⟩
  ⟨_, by decide, by decide, by decide, safe_of_reached (hstart.foldl contention (by decide))⟩

/-- The thread that has the exclusive lock need not wait for a shared one. -/
theorem condition_sharedLock_of_exclusive {s : SharedMutexState Tid} (hrun : Reached s) {t : Tid}
    {i : ℕ} (hmem : (t, i) ∈ s.data.exclusiveLocks) (j : ℕ) :
    sharedMutexProgram.condition t (.sharedLock j) s.data := by
  have hsound := Sound.of_reached keeps_invariant invariant_init hrun
  exact (condition_sharedLock t j s.data).mpr (.inr (hsound.data.owner _ hmem))

end SharedMutex

end XrceDds
