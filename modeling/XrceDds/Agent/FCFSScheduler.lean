import XrceDds.Lib.Transition
import Mathlib.Data.List.Perm.Basic

/-!
# The scheduler of the server

`FCFSScheduler` is the queue between the threads of a server.  `push` evicts the oldest element
when the queue is full; `push_front`, with which `sender_loop` puts a packet back that could not be
sent, evicts nothing and does not look at `max_size_`.

A run numbers the elements as they are pushed and keeps those that were popped or evicted.
`scheduler_ordered` says that the queue is bounded and first come, first served as long as what is
put back finds room and is older than what waits, and `lastPopped_fits` that the second is so when
the elements put back are the last ones popped.
-/

namespace XrceDds

/-- `FCFSScheduler`. -/
structure FCFSScheduler (α : Type) where
  deque : List α
  runningCond : Bool
  maxSize : ℕ

namespace FCFSScheduler

variable {α : Type}

/-- The constructor. -/
def new (maxSize : ℕ) : FCFSScheduler α := ⟨[], false, maxSize⟩

/-- `init`. -/
def init (scheduler : FCFSScheduler α) : FCFSScheduler α :=
  { scheduler with runningCond := true }

/-- `push`. -/
def push (scheduler : FCFSScheduler α) (element : α) : FCFSScheduler α :=
  let deque :=
    if scheduler.maxSize ≤ scheduler.deque.length then scheduler.deque.tail else scheduler.deque
  { scheduler with deque := deque ++ [element] }

/-- `push_front`. -/
def pushFront (scheduler : FCFSScheduler α) (element : α) : FCFSScheduler α :=
  { scheduler with deque := element :: scheduler.deque }

/-- `pop`: the element, if it returns `true`; `none` as long as it waits. -/
def pop (scheduler : FCFSScheduler α) : Option (Option α × FCFSScheduler α) :=
  match scheduler.runningCond, scheduler.deque with
  | true, [] => none
  | true, element :: deque => some (some element, { scheduler with deque := deque })
  | false, _ => some (none, scheduler)

end FCFSScheduler

/-! ## Runs -/

/-- A scheduler whose elements are numbered as they are pushed, with the elements that were popped
and not put back, the last one first, and those that were evicted. -/
structure SchedulerRun (α : Type) where
  scheduler : FCFSScheduler (ℕ × α)
  pushed : ℕ
  popped : List (ℕ × α)
  evicted : List (ℕ × α)

namespace SchedulerRun

variable {α : Type}

/-- What a thread does with the scheduler. -/
inductive Event (α : Type) where
  | push (element : α)
  | pop
  | putBack (element : ℕ × α)

/-- A scheduler that was constructed and initialised. -/
def start (maxSize : ℕ) : SchedulerRun α := ⟨(FCFSScheduler.new maxSize).init, 0, [], []⟩

/-- The element of this number was pushed, and neither popped nor evicted. -/
def Pending (run : SchedulerRun α) (number : ℕ) : Prop :=
  number < run.pushed ∧ number ∉ run.popped.map Prod.fst ∧ number ∉ run.evicted.map Prod.fst

/-- The oldest element that was neither popped nor evicted. -/
def Oldest (run : SchedulerRun α) (number : ℕ) : Prop :=
  run.Pending number ∧ ∀ other, run.Pending other → number ≤ other

/-- The queue holds at most `max_size_` elements, in the order in which they were pushed, and every
element that was pushed is waiting, popped or evicted, and only one of these. -/
structure Ordered (run : SchedulerRun α) : Prop where
  positive : 1 ≤ run.scheduler.maxSize
  running : run.scheduler.runningCond = true
  bound : run.scheduler.deque.length ≤ run.scheduler.maxSize
  sorted : run.scheduler.deque.Pairwise fun element later => element.1 < later.1
  accounted : List.Perm
    ((run.scheduler.deque ++ (run.popped ++ run.evicted)).map Prod.fst) (List.range run.pushed)

/-- What is put back finds room, and is older than what waits. -/
def Fits (run : SchedulerRun α) : Event α → Prop
  | .push _ => True
  | .pop => True
  | .putBack element => run.scheduler.deque.length < run.scheduler.maxSize ∧
      ∀ later ∈ run.scheduler.deque, element.1 < later.1

variable {run : SchedulerRun α}

/-- A scheduler that was initialised is ordered. -/
lemma ordered_start {maxSize : ℕ} (hmax : 1 ≤ maxSize) : (start maxSize : SchedulerRun α).Ordered
    where
  positive := hmax
  running := rfl
  bound := Nat.zero_le _
  sorted := .nil
  accounted := .nil

namespace Ordered

/-- The elements in the queue are those that were neither popped nor evicted. -/
lemma pending_iff (h : run.Ordered) (number : ℕ) :
    run.Pending number ↔ number ∈ run.scheduler.deque.map Prod.fst := by
  have hmem := h.accounted.mem_iff (a := number)
  have hnodup := h.accounted.nodup_iff.mpr List.nodup_range
  rw [List.map_append, List.map_append] at hmem hnodup
  rw [List.mem_append, List.mem_append, List.mem_range] at hmem
  have hdisjoint := (List.nodup_append.mp hnodup).2.2
  constructor
  · rintro ⟨hlt, hpopped, hevicted⟩
    exact (hmem.mpr hlt).resolve_right (not_or_intro hpopped hevicted)
  · intro hin
    refine ⟨hmem.mp (.inl hin), fun hpopped => ?_, fun hevicted => ?_⟩
    · exact hdisjoint number hin number (List.mem_append_left _ hpopped) rfl
    · exact hdisjoint number hin number (List.mem_append_right _ hevicted) rfl

/-- The first element of the queue is the oldest one. -/
lemma oldest_head (h : run.Ordered) {element : ℕ × α} {deque : List (ℕ × α)}
    (hdeque : run.scheduler.deque = element :: deque) : run.Oldest element.1 := by
  have hsorted := h.sorted
  rw [hdeque, List.pairwise_cons] at hsorted
  refine ⟨(h.pending_iff _).mpr ?_, fun other hother => ?_⟩
  · rw [hdeque]
    exact .head _
  · have hin := (h.pending_iff other).mp hother
    rw [hdeque, List.map_cons, List.mem_cons] at hin
    rcases hin with rfl | hin
    · exact Nat.le_refl _
    · obtain ⟨later, hlater, rfl⟩ := List.mem_map.mp hin
      exact Nat.le_of_lt (hsorted.1 later hlater)

/-- The numbers are numbers that were given. -/
lemma lt_pushed (h : run.Ordered) {element : ℕ × α}
    (hin : element ∈ run.scheduler.deque ∨ element ∈ run.popped) : element.1 < run.pushed := by
  refine List.mem_range.mp (h.accounted.mem_iff.mp (List.mem_map_of_mem ?_))
  rw [List.mem_append, List.mem_append]
  exact hin.imp_right .inl

end Ordered

/-! ## Events -/

variable [DecidableEq α]

/-- What an event does.  A call of `pop` that waits does nothing. -/
def step (run : SchedulerRun α) : Event α → SchedulerRun α
  | .push element =>
    { scheduler := run.scheduler.push (run.pushed, element)
      pushed := run.pushed + 1
      popped := run.popped
      evicted := if run.scheduler.maxSize ≤ run.scheduler.deque.length
        then run.scheduler.deque.take 1 ++ run.evicted else run.evicted }
  | .pop =>
    match run.scheduler.pop with
    | some (some element, scheduler) =>
      { run with scheduler := scheduler, popped := element :: run.popped }
    | _ => run
  | .putBack element =>
    { run with
      scheduler := run.scheduler.pushFront element
      popped := run.popped.erase element }

/-- Only what was popped is put back. -/
def Admitted (run : SchedulerRun α) : Event α → Prop
  | .push _ => True
  | .pop => True
  | .putBack element => element ∈ run.popped

instance (run : SchedulerRun α) : ∀ event, Decidable (run.Admitted event)
  | .push _ => .isTrue trivial
  | .pop => .isTrue trivial
  | .putBack element => inferInstanceAs (Decidable (element ∈ run.popped))

/-- A pop returns the oldest element, and waits only when there is none.  A push evicts nothing, or
finds `max_size_` elements and evicts the oldest one. -/
def Meets (run : SchedulerRun α) : Event α → Prop
  | .push element => (run.step (.push element)).evicted = run.evicted ∨
      run.scheduler.deque.length = run.scheduler.maxSize ∧ ∃ oldest, run.Oldest oldest.1 ∧
        (run.step (.push element)).evicted = oldest :: run.evicted
  | .pop => match run.scheduler.pop with
    | some (some element, _) => run.Oldest element.1
    | some (none, _) => False
    | none => ∀ number, ¬ run.Pending number
  | .putBack _ => True

namespace Ordered

/-- A push keeps the order, whether it evicts an element or not. -/
lemma push (h : run.Ordered) (element : α) : (run.step (.push element)).Ordered := by
  have hlength : (if run.scheduler.maxSize ≤ run.scheduler.deque.length
      then run.scheduler.deque.tail else run.scheduler.deque).length + 1 ≤
      run.scheduler.maxSize := by
    have hbound := h.bound
    have hpositive := h.positive
    split
    · rw [List.length_tail]
      omega
    · omega
  have hsub : (if run.scheduler.maxSize ≤ run.scheduler.deque.length
      then run.scheduler.deque.tail else run.scheduler.deque).Sublist run.scheduler.deque := by
    split
    · exact List.tail_sublist _
    · exact .refl _
  constructor
  case positive => exact h.positive
  case running => exact h.running
  case bound =>
    unfold step FCFSScheduler.push
    dsimp only
    rw [List.length_append]
    exact hlength
  case sorted =>
    unfold step FCFSScheduler.push
    refine List.pairwise_append.mpr ⟨h.sorted.sublist hsub, List.pairwise_singleton _ _, ?_⟩
    rintro earlier hin _ (_ | ⟨_, ⟨⟩⟩)
    exact h.lt_pushed (.inl (hsub.subset hin))
  case accounted =>
    unfold step FCFSScheduler.push
    dsimp only
    rw [List.range_succ]
    refine List.Perm.trans ?_ (h.accounted.append_right [run.pushed])
    rw [← List.map_singleton (f := Prod.fst) (a := (run.pushed, element)), ← List.map_append]
    refine List.Perm.map _ (List.perm_iff_count.mpr fun other => ?_)
    -- What is evicted goes from the one list to the other.
    have hsplit := congrArg (List.count other) (List.take_append_drop 1 run.scheduler.deque)
    rw [List.count_append, List.drop_one] at hsplit
    split
    · simp only [List.count_append]
      omega
    · simp only [List.count_append]
      omega

/-- A push evicts the oldest element of a full queue, and nothing else. -/
lemma push_meets (h : run.Ordered) (element : α) : run.Meets (.push element) := by
  unfold Meets step
  dsimp only
  split
  · next hfull =>
    have hpositive := h.positive
    cases hdeque : run.scheduler.deque with
    | nil =>
      rw [hdeque] at hfull
      exact absurd hfull (Nat.not_le_of_lt hpositive)
    | cons oldest deque =>
      refine .inr ⟨?_, oldest, h.oldest_head hdeque, rfl⟩
      rw [← hdeque]
      exact Nat.le_antisymm h.bound hfull
  · exact .inl rfl

/-- A pop takes the first element, or waits. -/
lemma step_pop (h : run.Ordered) :
    run.scheduler.deque = [] ∧ run.step .pop = run ∨
      ∃ element deque, run.scheduler.deque = element :: deque ∧
        run.step .pop =
          { run with
            scheduler := { run.scheduler with deque := deque }
            popped := element :: run.popped } := by
  cases hdeque : run.scheduler.deque with
  | nil =>
    have hpop : run.scheduler.pop = none := by
      unfold FCFSScheduler.pop
      rw [h.running, hdeque]
    refine .inl ⟨rfl, ?_⟩
    simp only [SchedulerRun.step, hpop]
  | cons element deque =>
    have hpop : run.scheduler.pop =
        some (some element, { run.scheduler with deque := deque }) := by
      simp only [FCFSScheduler.pop, h.running, hdeque]
    refine .inr ⟨element, deque, rfl, ?_⟩
    simp only [SchedulerRun.step, hpop]

/-- A pop keeps the order. -/
lemma pop (h : run.Ordered) : (run.step .pop).Ordered := by
  rcases h.step_pop with ⟨-, hstep⟩ | ⟨element, deque, hdeque, hstep⟩
  · rw [hstep]
    exact h
  · have hbound := h.bound
    have hsorted := h.sorted
    have haccounted := h.accounted
    rw [hdeque] at hbound hsorted haccounted
    rw [hstep]
    constructor
    case positive => exact h.positive
    case running => exact h.running
    case bound => exact Nat.le_of_succ_le hbound
    case sorted => exact hsorted.of_cons
    case accounted => exact (List.perm_middle.map _).trans haccounted

/-- A pop returns the oldest element. -/
lemma pop_meets (h : run.Ordered) : run.Meets .pop := by
  unfold Meets FCFSScheduler.pop
  rw [h.running]
  cases hdeque : run.scheduler.deque with
  | nil =>
    intro number hpending
    have hin := (h.pending_iff number).mp hpending
    rw [hdeque] at hin
    cases hin
  | cons element deque => exact h.oldest_head hdeque

/-- Putting an element back keeps the order exactly when it finds room and is older than what
waits. -/
lemma putBack_iff (h : run.Ordered) {element : ℕ × α} (hpopped : element ∈ run.popped) :
    (run.step (.putBack element)).Ordered ↔ run.Fits (.putBack element) := by
  constructor
  · intro hafter
    exact ⟨hafter.bound, (List.pairwise_cons.mp hafter.sorted).1⟩
  · rintro ⟨hroom, holder⟩
    constructor
    case positive => exact h.positive
    case running => exact h.running
    case bound => exact hroom
    case sorted => exact List.pairwise_cons.mpr ⟨holder, h.sorted⟩
    case accounted =>
      refine (List.Perm.map _ ?_).trans h.accounted
      have herase := (List.perm_cons_erase hpopped).append_right run.evicted
      exact List.perm_middle.symm.trans (herase.symm.append_left run.scheduler.deque)

/-- Of an event that is admitted, the condition is exact. -/
lemma step_iff (h : run.Ordered) {event : Event α} (hadmitted : run.Admitted event) :
    run.Meets event ∧ (run.step event).Ordered ↔ run.Fits event := by
  cases event with
  | push element => exact iff_of_true ⟨h.push_meets element, h.push element⟩ trivial
  | pop => exact iff_of_true ⟨h.pop_meets, h.pop⟩ trivial
  | putBack element => exact (and_iff_right trivial).trans (h.putBack_iff hadmitted)

end Ordered

/-- As long as what is put back finds room and is older than what waits, the queue is bounded and
ordered, every pop returns the oldest element and every push evicts the oldest one of a full queue
or none; and of the next event the condition is exact. -/
theorem scheduler_ordered {maxSize : ℕ} (hmax : 1 ≤ maxSize)
    (h : Transition.Reaches (· = start maxSize) step
      (fun run event => run.Admitted event ∧ run.Fits event) run) :
    run.Ordered ∧ ∀ event, run.Admitted event →
      (run.Meets event ∧ (run.step event).Ordered ↔ run.Fits event) := by
  have hordered : run.Ordered := Transition.Reaches.invariant
    (fun _ hstart => hstart ▸ ordered_start hmax)
    (fun _ _ hbefore hevent => ((hbefore.step_iff hevent.1).mpr hevent.2).2) h
  exact ⟨hordered, fun _ hadmitted => hordered.step_iff hadmitted⟩

/-- An element waits, one is popped and put back, and both are popped. -/
def putBackRun : SchedulerRun Unit :=
  [.push (), .push (), .pop, .putBack (0, ()), .pop, .pop].foldl step (start 2)

/-- It is ordered. -/
theorem scheduler_ordered_putBackRun :
    putBackRun.Ordered ∧ ∀ event, putBackRun.Admitted event →
      (putBackRun.Meets event ∧ (putBackRun.step event).Ordered ↔ putBackRun.Fits event) := by
  have hstart : Transition.Reaches (· = (start 2 : SchedulerRun Unit)) step
    (fun run event => run.Admitted event ∧ run.Fits event) (start 2) := .start rfl
  refine scheduler_ordered (by decide) (hstart.foldl _ ?_)
  refine ⟨⟨trivial, trivial⟩, ⟨trivial, trivial⟩, ⟨trivial, trivial⟩, ⟨by decide, ?_⟩,
    ⟨trivial, trivial⟩, ⟨trivial, trivial⟩, trivial⟩
  exact ⟨by decide, by decide⟩

/-- An element is popped, another one takes the only place, and the first one is put back. -/
theorem scheduler_ordered_fails :
    ¬ ∀ events : List (Event Unit),
      Transition.AdmittedAll step Admitted (start 1) events →
        (events.foldl step (start 1)).scheduler.deque.length ≤ 1 := by
  intro h
  exact absurd (h [.push (), .pop, .push (), .putBack (0, ())] (by decide)) (by decide)

/-! ## One consumer -/

/-- What is put back is the element that was popped last, as in `sender_loop`, and finds room. -/
def LastPopped (run : SchedulerRun α) : Event α → Prop
  | .push _ => True
  | .pop => True
  | .putBack element => run.popped.head? = some element ∧
      run.scheduler.deque.length < run.scheduler.maxSize

/-- Later pops return later elements, and what waits is later than all of them. -/
structure InSequence (run : SchedulerRun α) : Prop where
  ordered : run.Ordered
  popped_sorted : run.popped.Pairwise fun element earlier => earlier.1 < element.1
  popped_lt : ∀ element ∈ run.popped, ∀ later ∈ run.scheduler.deque, element.1 < later.1

namespace InSequence

omit [DecidableEq α] in
/-- The element that was popped last is older than what waits. -/
lemma fits (h : run.InSequence) {event : Event α} (hlast : run.LastPopped event) :
    run.Admitted event ∧ run.Fits event := by
  cases event with
  | push element => exact ⟨trivial, trivial⟩
  | pop => exact ⟨trivial, trivial⟩
  | putBack element =>
    have hmem : element ∈ run.popped := List.mem_of_head? hlast.1
    exact ⟨hmem, hlast.2, h.popped_lt element hmem⟩

/-- An event of one consumer keeps the sequence. -/
lemma step (h : run.InSequence) {event : Event α} (hlast : run.LastPopped event) :
    (run.step event).InSequence := by
  have hordered : (run.step event).Ordered :=
    ((h.ordered.step_iff (h.fits hlast).1).mpr (h.fits hlast).2).2
  cases event with
  | push element =>
    refine ⟨hordered, h.popped_sorted, fun popped hpopped later hlater => ?_⟩
    rcases List.mem_append.mp hlater with hlater | hlater
    · split at hlater
      · exact h.popped_lt popped hpopped later (List.mem_of_mem_tail hlater)
      · exact h.popped_lt popped hpopped later hlater
    · rw [List.mem_singleton.mp hlater]
      exact h.ordered.lt_pushed (.inr hpopped)
  | pop =>
    rcases h.ordered.step_pop with ⟨-, hstep⟩ | ⟨element, deque, hdeque, hstep⟩
    · rw [hstep]
      exact h
    · have hlt := h.popped_lt
      have hsorted := h.ordered.sorted
      rw [hdeque] at hlt hsorted
      rw [hstep] at hordered ⊢
      refine ⟨hordered, List.pairwise_cons.mpr ⟨fun earlier hearlier => ?_, h.popped_sorted⟩, ?_⟩
      · exact hlt earlier hearlier element (.head _)
      · intro popped hpopped later hlater
        rcases List.mem_cons.mp hpopped with rfl | hpopped
        · exact (List.pairwise_cons.mp hsorted).1 later hlater
        · exact hlt popped hpopped later (.tail _ hlater)
  | putBack element =>
    obtain ⟨hhead, -⟩ := hlast
    cases hpopped : run.popped with
    | nil =>
      rw [hpopped] at hhead
      cases hhead
    | cons last earlier =>
      rw [hpopped] at hhead
      obtain rfl := Option.some.inj hhead
      have hsorted := h.popped_sorted
      have hlt := h.popped_lt
      rw [hpopped] at hsorted hlt
      have herase : run.popped.erase last = earlier := by
        rw [hpopped, List.erase_cons_head]
      refine ⟨hordered, ?_, fun popped hin later hlater => ?_⟩
      · show (run.popped.erase last).Pairwise _
        rw [herase]
        exact hsorted.of_cons
      · replace hin : popped ∈ earlier := herase ▸ hin
        rcases List.mem_cons.mp hlater with rfl | hlater
        · exact (List.pairwise_cons.mp hsorted).1 popped hin
        · exact hlt popped (.tail _ hin) later hlater

end InSequence

/-- When the elements put back are the last ones popped, they are older than what waits. -/
theorem lastPopped_fits {maxSize : ℕ} (hmax : 1 ≤ maxSize)
    (h : Transition.Reaches (· = start maxSize) step LastPopped run) {event : Event α}
    (hlast : run.LastPopped event) : run.Admitted event ∧ run.Fits event := by
  have hsequence : run.InSequence := Transition.Reaches.invariant
    (fun _ hstart => hstart ▸ ⟨ordered_start hmax, .nil, nofun⟩)
    (fun _ _ hbefore hevent => hbefore.step hevent) h
  exact hsequence.fits hlast

end SchedulerRun

end XrceDds
