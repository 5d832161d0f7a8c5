import Mathlib.Data.Int.Notation
import Mathlib.Data.Prod.Lex
import Mathlib.Data.String.Basic
import XrceDds.Lib.NodeMap
import XrceDds.Lib.Transition

/-!
# What the internal client has still to create

Other Agents' domains and topics are announced to an `InternalClient` by callbacks, which put
them into `domains_` and `topics_`.  Its thread copies a set, releases the mutex, creates the
entities of every element of the copy, and takes out of the copy those it could not create.
Then it goes over the live set, not over the copy, and erases the element that its iterator stands
on before it moves the iterator: what happens then is undefined (`eraseAll_eq_none_iff`).

The live set is never empty there.  So nothing that was announced is lost as long as no pass comes
to its end (`announced_kept`), whatever fails to be created and whenever announcements arrive.
-/

namespace XrceDds

/-! ## One set -/

/-- The operations of one pass that create the entities of an element: whether the two local
entities were created, whether both requests were answered, and with which statuses. -/
structure CreateResult where
  localParent : Bool
  localChild : Bool
  answered : Bool
  status : Bool × Bool
  deriving DecidableEq, Repr

/-- `entities_created`. -/
def CreateResult.entitiesCreated (result : CreateResult) : Bool :=
  if result.localParent && result.localChild then
    result.answered && (result.status.1 && result.status.2)
  else false

/-- `domains_` or `topics_`: a set, with what was ever announced and what was created, locally and
remotely. -/
structure AnnouncedSet (α : Type) [LinearOrder α] where
  queue : NodeMap α Unit
  announced : List α
  created : List α

/-- A pass over the copy of a set: what is still to be looked at, and what is kept in the copy. -/
structure CreationPass (α : Type) where
  remaining : List α
  createdSet : List α

namespace AnnouncedSet

variable {α : Type} [LinearOrder α]

/-- Nothing was announced. -/
def empty : AnnouncedSet α := ⟨.empty, [], []⟩

/-- The element waits in the live set. -/
def Queued (s : AnnouncedSet α) (x : α) : Prop := ∃ e ∈ s.queue.entries, e.key = x

/-- What was announced is created, or it is still queued. -/
def Kept (s : AnnouncedSet α) : Prop := ∀ x ∈ s.announced, x ∈ s.created ∨ s.Queued x

/-- What was queued before and is no longer has been created. -/
def RemovesCreated (s s' : AnnouncedSet α) : Prop :=
  ∀ x, s.Queued x → ¬ s'.Queued x → x ∈ s'.created

/-- Doing nothing removes nothing. -/
lemma RemovesCreated.refl (s : AnnouncedSet α) : s.RemovesCreated s :=
  fun _ hx hnot => absurd hx hnot

/-! ### The operations -/

/-- `insert` and `emplace`, by a callback. -/
def announce (s : AnnouncedSet α) (x : α) : AnnouncedSet α :=
  { s with queue := s.queue.emplace x (), announced := s.announced.insert x }

/-- The copy that a pass works on. -/
def snapshot (s : AnnouncedSet α) : CreationPass α :=
  ⟨s.queue.entries.map MapNode.key, s.queue.entries.map MapNode.key⟩

/-- The entities of one element of the copy are created, or the element leaves the copy. -/
def create (s : AnnouncedSet α) (pass : CreationPass α) (x : α) (result : CreateResult) :
    AnnouncedSet α × CreationPass α :=
  if result.entitiesCreated then
    ({ s with created := s.created.insert x }, { pass with remaining := pass.remaining.erase x })
  else (s, ⟨pass.remaining.erase x, pass.createdSet.erase x⟩)

/-- The loop at the end of a pass, with its iterator into the live set: the element is erased, and
then the iterator is moved.  There is no result when it designates no element any more. -/
def eraseFrom (queue : NodeMap α Unit) (it : Option ℕ) : Option (NodeMap α Unit) :=
  match it with
  | none => some queue
  | some node =>
    match _hderef : queue.deref node with
    | none => none
    | some element =>
      let erased := queue.erase element.key
      match erased.deref node with
      | none => none
      | some _ => eraseFrom erased (erased.next node)
termination_by queue.entries.length
decreasing_by exact NodeMap.length_erase_lt (NodeMap.deref_eq_some_iff.mp _hderef).1

/-- The loop at the end of a pass. -/
def eraseAll (queue : NodeMap α Unit) : Option (NodeMap α Unit) := eraseFrom queue queue.first

/-- The end of a pass. -/
def finish (s : AnnouncedSet α) : Option (AnnouncedSet α) :=
  (eraseAll s.queue).map fun queue => { s with queue := queue }

/-! ### What the operations keep -/

variable {s : AnnouncedSet α}

/-- The loop at the end of a pass goes wrong at its first element. -/
lemma eraseAll_eq_none_iff (queue : NodeMap α Unit) : eraseAll queue =
    none ↔ queue.entries ≠ [] := by
  unfold eraseAll NodeMap.first
  cases hentries : queue.entries with
  | nil =>
    rw [List.head?_nil, Option.map_none, eraseFrom]
    exact iff_of_false (Option.some_ne_none _) fun hne => hne rfl
  | cons element rest =>
    have hmem : element ∈ queue.entries := hentries ▸ List.mem_cons_self
    have hderef : queue.deref element.node = some element :=
      NodeMap.deref_eq_some_iff.mpr ⟨hmem, rfl⟩
    have herased : (queue.erase element.key).deref element.node = none :=
      NodeMap.deref_erase_self hmem
    refine iff_of_true ?_ (List.cons_ne_nil _ _)
    rw [List.head?_cons, Option.map_some, eraseFrom]
    dsimp only
    split
    · rfl
    · next found hfound =>
      rw [hderef] at hfound
      cases hfound
      rw [herased]

/-- Over a set with elements a pass has no end. -/
lemma finish_eq_none (h : s.queue.entries ≠ []) : s.finish = none := by
  unfold finish
  rw [(eraseAll_eq_none_iff s.queue).mpr h, Option.map_none]

/-- An announcement is queued. -/
lemma Kept.announce (h : s.Kept) (x : α) :
    (s.announce x).Kept ∧ s.RemovesCreated (s.announce x) := by
  constructor
  · intro y hy
    rcases List.mem_insert_iff.mp hy with rfl | hold
    · exact .inr (NodeMap.exists_key_emplace.mpr (.inr rfl))
    · exact (h y hold).imp_right fun hqueued => NodeMap.exists_key_emplace.mpr (.inl hqueued)
  · exact fun y hy hnot => absurd (NodeMap.exists_key_emplace.mpr (.inl hy)) hnot

/-- What is queued stays queued when something is announced. -/
lemma queue_announce_ne_nil (h : s.queue.entries ≠ []) (x : α) :
    (s.announce x).queue.entries ≠ [] := by
  obtain ⟨e, he⟩ := List.exists_mem_of_ne_nil _ h
  exact List.ne_nil_of_mem (NodeMap.mem_emplace_iff.mpr (.inl he))

/-- A creation leaves the live set alone. -/
lemma queue_create (s : AnnouncedSet α) (pass : CreationPass α) (x : α) (result : CreateResult) :
    (s.create pass x result).1.queue = s.queue := by
  unfold create
  split <;> rfl

/-- A creation takes nothing from the live set, whether it succeeds or not. -/
lemma Kept.create (h : s.Kept) (pass : CreationPass α) (x : α) (result : CreateResult) :
    (s.create pass x result).1.Kept ∧ s.RemovesCreated (s.create pass x result).1 := by
  unfold AnnouncedSet.create
  split
  · refine ⟨fun y hy => (h y hy).imp_left List.mem_insert_of_mem, fun y hy hnot => absurd hy hnot⟩
  · exact ⟨h, .refl s⟩

end AnnouncedSet

/-! ## The client -/

/-- `std::pair<int16_t, std::string>`, in the order of pairs. -/
abbrev TopicKey := ℤ ×ₗ String

/-- Where the thread of the client stands in `loop`.  Nothing is known of it after something
undefined. -/
inductive InternalClientPhase where
  | domains
  | creatingDomains (pass : CreationPass ℤ)
  | topics
  | creatingTopics (pass : CreationPass TopicKey)
  | session
  | undefined

/-- `InternalClient`, as far as it creates entities. -/
structure InternalClient where
  domains : AnnouncedSet ℤ
  topics : AnnouncedSet TopicKey
  topicCounter : ℕ
  phase : InternalClientPhase

namespace InternalClient

/-- A client that has just been created. -/
def start : InternalClient := ⟨.empty, .empty, 0, .domains⟩

/-- What happens: a callback, or a part of `loop` between two releases of the mutex. -/
inductive Event where
  | onNewDomain (domainId : ℤ)
  | onNewTopic (domainId : ℤ) (topicName : String)
  | beginDomains
  | createDomain (domainId : ℤ) (result : CreateResult)
  | finishDomains
  | beginTopics
  | createTopic (topic : TopicKey) (result : CreateResult)
  | finishTopics
  | runSession

/-- The client after an event. -/
def step (c : InternalClient) (e : Event) : InternalClient :=
  match e, c.phase with
  | .onNewDomain domainId, _ => { c with domains := c.domains.announce domainId }
  | .onNewTopic domainId topicName, _ =>
    { c with topics := c.topics.announce (toLex (domainId, topicName)) }
  | .beginDomains, .domains =>
    { c with
      phase :=
        if c.domains.queue.entries ≠ [] then .creatingDomains c.domains.snapshot else .topics }
  | .createDomain domainId result, .creatingDomains pass =>
    let r := c.domains.create pass domainId result
    { c with domains := r.1, phase := .creatingDomains r.2 }
  | .finishDomains, .creatingDomains _ =>
    match c.domains.finish with
    | some domains => { c with domains := domains, phase := .topics }
    | none => { c with phase := .undefined }
  | .beginTopics, .topics =>
    { c with
      phase :=
        if c.topics.queue.entries ≠ [] then .creatingTopics c.topics.snapshot else .session }
  | .createTopic topic result, .creatingTopics pass =>
    let r := c.topics.create pass topic result
    { c with
      topics := r.1
      topicCounter :=
        if result.entitiesCreated then (c.topicCounter + 1) % 65536 else c.topicCounter
      phase := .creatingTopics r.2 }
  | .finishTopics, .creatingTopics _ =>
    match c.topics.finish with
    | some topics => { c with topics := topics, phase := .session }
    | none => { c with phase := .undefined }
  | .runSession, .session => { c with phase := .domains }
  | _, _ => c

/-- The order of the events: callbacks may come at any time; a pass ends when it has looked at
the whole of its copy, in whatever order. -/
def Enabled (c : InternalClient) (e : Event) : Prop :=
  match e, c.phase with
  | .onNewDomain _, _ => True
  | .onNewTopic _ _, _ => True
  | .beginDomains, .domains => True
  | .createDomain domainId _, .creatingDomains pass => domainId ∈ pass.remaining
  | .finishDomains, .creatingDomains pass => pass.remaining = []
  | .beginTopics, .topics => True
  | .createTopic topic _, .creatingTopics pass => topic ∈ pass.remaining
  | .finishTopics, .creatingTopics pass => pass.remaining = []
  | .runSession, .session => True
  | _, _ => False

/-- The event is the end of a pass, with the loop that erases. -/
def EndsPass : Event → Prop
  | .finishDomains | .finishTopics => True
  | _ => False

/-- The events at which nothing is lost. -/
def Admitted (c : InternalClient) (e : Event) : Prop := c.Enabled e ∧ ¬ EndsPass e

/-- Nothing undefined has happened, and nothing that was announced is lost. -/
structure AnnouncedKept (c : InternalClient) : Prop where
  defined : c.phase ≠ .undefined
  domains : c.domains.Kept
  topics : c.topics.Kept

/-- Nothing is removed that was not created. -/
structure RemovesCreated (c c' : InternalClient) : Prop where
  domains : c.domains.RemovesCreated c'.domains
  topics : c.topics.RemovesCreated c'.topics

/-- A pass is only made over a set in which something is queued, and nothing leaves the set before
the pass ends. -/
structure PassesQueued (c : InternalClient) : Prop where
  domains : ∀ pass, c.phase = .creatingDomains pass → c.domains.queue.entries ≠ []
  topics : ∀ pass, c.phase = .creatingTopics pass → c.topics.queue.entries ≠ []

variable {c : InternalClient}

/-- Every event that is not the end of a pass keeps what was announced, and what a pass is made
over. -/
lemma AnnouncedKept.step (h : c.AnnouncedKept) (hpasses : c.PassesQueued) {e : Event}
    (henabled : c.Enabled e) (hends : ¬ EndsPass e) :
    (c.step e).AnnouncedKept ∧ RemovesCreated c (c.step e) ∧ (c.step e).PassesQueued := by
  obtain ⟨domains, topics, counter, phase⟩ := c
  obtain ⟨hdefined, hdomains, htopics⟩ := h
  obtain ⟨hpassDomains, hpassTopics⟩ := hpasses
  dsimp only at hdefined hdomains htopics hpassDomains hpassTopics
  have hidleDomains := AnnouncedSet.RemovesCreated.refl domains
  have hidleTopics := AnnouncedSet.RemovesCreated.refl topics
  cases e with
  | onNewDomain domainId =>
    obtain ⟨hkept, hremoves⟩ := hdomains.announce domainId
    exact ⟨⟨hdefined, hkept, htopics⟩, ⟨hremoves, hidleTopics⟩,
      ⟨fun pass hphase => AnnouncedSet.queue_announce_ne_nil (hpassDomains pass hphase) domainId,
        hpassTopics⟩⟩
  | onNewTopic domainId topicName =>
    obtain ⟨hkept, hremoves⟩ := htopics.announce (toLex (domainId, topicName))
    exact ⟨⟨hdefined, hdomains, hkept⟩, ⟨hidleDomains, hremoves⟩,
      ⟨hpassDomains, fun pass hphase => AnnouncedSet.queue_announce_ne_nil (hpassTopics pass hphase)
        (toLex (domainId, topicName))⟩⟩
  | createDomain domainId result =>
    cases phase with
    | creatingDomains pass =>
      obtain ⟨hkept, hremoves⟩ := hdomains.create pass domainId result
      refine ⟨⟨nofun, hkept, htopics⟩, ⟨hremoves, hidleTopics⟩, ⟨fun _ _ => ?_, nofun⟩⟩
      exact AnnouncedSet.queue_create domains pass domainId result ▸ hpassDomains pass rfl
    | _ => exact absurd henabled id
  | createTopic topic result =>
    cases phase with
    | creatingTopics pass =>
      obtain ⟨hkept, hremoves⟩ := htopics.create pass topic result
      refine ⟨⟨nofun, hdomains, hkept⟩, ⟨hidleDomains, hremoves⟩, ⟨nofun, fun _ _ => ?_⟩⟩
      exact AnnouncedSet.queue_create topics pass topic result ▸ hpassTopics pass rfl
    | _ => exact absurd henabled id
  | finishDomains | finishTopics => exact absurd trivial hends
  | beginDomains =>
    cases phase with
    | domains =>
      unfold InternalClient.step
      dsimp only
      split
      · next hqueued =>
        exact ⟨⟨nofun, hdomains, htopics⟩, ⟨hidleDomains, hidleTopics⟩,
          ⟨fun _ _ => hqueued, nofun⟩⟩
      · exact ⟨⟨nofun, hdomains, htopics⟩, ⟨hidleDomains, hidleTopics⟩, ⟨nofun, nofun⟩⟩
    | _ => exact absurd henabled id
  | beginTopics =>
    cases phase with
    | topics =>
      unfold InternalClient.step
      dsimp only
      split
      · next hqueued =>
        exact ⟨⟨nofun, hdomains, htopics⟩, ⟨hidleDomains, hidleTopics⟩,
          ⟨nofun, fun _ _ => hqueued⟩⟩
      · exact ⟨⟨nofun, hdomains, htopics⟩, ⟨hidleDomains, hidleTopics⟩, ⟨nofun, nofun⟩⟩
    | _ => exact absurd henabled id
  | runSession =>
    cases phase with
    | session =>
      exact ⟨⟨nofun, hdomains, htopics⟩, ⟨hidleDomains, hidleTopics⟩, ⟨nofun, nofun⟩⟩
    | _ => exact absurd henabled id

/-- What happens at the end of a pass is undefined. -/
lemma PassesQueued.step_undefined (hpasses : c.PassesQueued) {e : Event} (henabled : c.Enabled e)
    (hends : EndsPass e) : (c.step e).phase = .undefined := by
  obtain ⟨domains, topics, counter, phase⟩ := c
  cases e with
  | finishDomains =>
    cases phase with
    | creatingDomains pass =>
      unfold InternalClient.step
      dsimp only
      rw [AnnouncedSet.finish_eq_none (hpasses.domains pass rfl)]
    | _ => exact absurd henabled id
  | finishTopics =>
    cases phase with
    | creatingTopics pass =>
      unfold InternalClient.step
      dsimp only
      rw [AnnouncedSet.finish_eq_none (hpasses.topics pass rfl)]
    | _ => exact absurd henabled id
  | _ => exact absurd hends id

/-- Along every interleaving of callbacks and passes, whatever fails to be created: as long as no
pass has come to its end, everything that was announced is created or queued; and one more event
keeps this, and removes only what was created, exactly when it is not the end of a pass. -/
theorem announced_kept (h : Transition.Reaches (· = start) step Admitted c) :
    c.AnnouncedKept ∧ ∀ e, c.Enabled e →
      ((c.step e).AnnouncedKept ∧ RemovesCreated c (c.step e) ↔ ¬ EndsPass e) := by
  have hinvariant : c.AnnouncedKept ∧ c.PassesQueued := by
    refine h.invariant (I := fun c => c.AnnouncedKept ∧ c.PassesQueued) ?_ fun c e hc he => ?_
    · rintro c rfl
      exact ⟨⟨nofun, fun x hx => absurd hx List.not_mem_nil,
        fun x hx => absurd hx List.not_mem_nil⟩, ⟨nofun, nofun⟩⟩
    · obtain ⟨hkept, -, hpasses⟩ := hc.1.step hc.2 he.1 he.2
      exact ⟨hkept, hpasses⟩
  obtain ⟨hkept, hpasses⟩ := hinvariant
  refine ⟨hkept, fun e henabled => ⟨fun hnext hends => ?_, fun hends => ?_⟩⟩
  · exact hnext.1.defined (hpasses.step_undefined henabled hends)
  · obtain ⟨hnext, hremoves, -⟩ := hkept.step hpasses henabled hends
    exact ⟨hnext, hremoves⟩

/-- Every operation of a creation succeeds. -/
def createdResult : CreateResult := ⟨true, true, true, (true, true)⟩

/-- The requests for the remote entities are not answered. -/
def unansweredResult : CreateResult := ⟨true, true, false, (false, false)⟩

/-- Two domains are announced, and a third one and a topic during the pass, in which the entities of
one domain are created and those of the other are not. -/
def firstPass : List Event :=
  [.onNewDomain 0, .onNewDomain 1, .beginDomains, .createDomain 0 createdResult, .onNewDomain 2,
    .onNewTopic 0 "topic", .createDomain 1 unansweredResult]

/-- This pass has lost nothing before its end, another announcement loses nothing, and the end of
the pass does. -/
theorem announced_kept_firstPass :
    (firstPass.foldl step start).AnnouncedKept ∧
      ((firstPass.foldl step start).step (.onNewDomain 3)).AnnouncedKept ∧
      ¬ (((firstPass.foldl step start).step .finishDomains).AnnouncedKept ∧
        RemovesCreated (firstPass.foldl step start)
          ((firstPass.foldl step start).step .finishDomains)) := by
  have hadmitted : Transition.AdmittedAll step Admitted start firstPass :=
    ⟨⟨trivial, id⟩, ⟨trivial, id⟩, ⟨trivial, id⟩, ⟨(by decide : (0 : ℤ) ∈ [0, 1]), id⟩,
      ⟨trivial, id⟩, ⟨trivial, id⟩, ⟨(by decide : (1 : ℤ) ∈ [1]), id⟩, trivial⟩
  have hstart : Transition.Reaches (· = start) step Admitted start := .start rfl
  obtain ⟨hkept, hnext⟩ := announced_kept (hstart.foldl _ hadmitted)
  exact ⟨hkept, ((hnext (.onNewDomain 3) trivial).mpr id).1,
    fun hend => (hnext .finishDomains rfl).mp hend trivial⟩

/-- A domain is announced and its entities are created; what happens at the end of the pass is
undefined. -/
theorem announced_kept_fails :
    ¬ ∀ c, Transition.Reaches (· = start) step Enabled c → c.AnnouncedKept := by
  intro h
  obtain ⟨events, hevents⟩ : ∃ events : List Event,
      events = [.onNewDomain 0, .beginDomains, .createDomain 0 createdResult] := ⟨_, rfl⟩
  have henabled : Transition.AdmittedAll step Enabled start (events ++ [.finishDomains]) := by
    rw [hevents]
    exact ⟨trivial, trivial, List.mem_singleton_self 0, rfl, trivial⟩
  have hpasses : (events.foldl step start).PassesQueued := by
    rw [hevents]
    exact ⟨fun _ _ => List.cons_ne_nil _ _, nofun⟩
  have hends := hpasses.step_undefined (e := .finishDomains) (by rw [hevents]; rfl) trivial
  have hstart : Transition.Reaches (· = start) step Enabled start := .start rfl
  have hkept := h _ (hstart.foldl _ henabled)
  rw [List.foldl_concat] at hkept
  exact hkept.defined hends

end InternalClient

end XrceDds
