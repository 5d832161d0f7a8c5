import Mathlib.Data.List.AList
import XrceDds.Lib.Transition

/-!
# The topics that the CED middleware shares

`CedTopicManager` maps a domain and a name to a weak reference.  `register_topic` hands out the
topic that is there, or makes one; the destructor of a topic removes its entry.  Between the
release of the last reference and the lock that the destructor takes, the entry is there and
dead.

Along every interleaving the topics of a name that are alive are one object, and entries go away
with their topics.  A registration that comes into the gap returns `true` and no topic, and that
is the only one that does (`registerTopic_shared`).
-/

namespace XrceDds

/-- A `CedGlobalTopic`, as far as it is shared: `name_`, `domain_id_`, the number of its shared
references, and whether its destructor has run. -/
structure SharedTopic where
  name : String
  domainId : ℤ
  refs : ℕ
  destroyed : Bool
  deriving DecidableEq, Repr

/-- `CedTopicManager`, and the topics that it ever made, which are known by their position. -/
structure CedTopicManager where
  topics : AList fun _ : ℤ => AList fun _ : String => ℕ
  objects : List SharedTopic

namespace CedTopicManager

/-- Nothing is registered. -/
def empty : CedTopicManager := ⟨∅, []⟩

/-- The references that keep a topic alive. -/
def useCount (m : CedTopicManager) (topic : ℕ) : ℕ := (m.objects[topic]?).elim 0 SharedTopic.refs

/-- The entry of a name. -/
def find (m : CedTopicManager) (domainId : ℤ) (topicName : String) : Option ℕ :=
  (m.topics.lookup domainId).bind fun domain => domain.lookup topicName

/-- One reference more. -/
def acquire (m : CedTopicManager) (topic : ℕ) : CedTopicManager :=
  { m with objects := m.objects.modify topic fun o => { o with refs := o.refs + 1 } }

/-- One reference less. -/
def release (m : CedTopicManager) (topic : ℕ) : CedTopicManager :=
  { m with objects := m.objects.modify topic fun o => { o with refs := o.refs - 1 } }

/-- `lock`. -/
def lock (m : CedTopicManager) (topic : ℕ) : CedTopicManager × Option ℕ :=
  if m.useCount topic = 0 then (m, none) else (m.acquire topic, some topic)

/-- `register_topic`: what it returns, and the topic that it hands out. -/
def registerTopic (m : CedTopicManager) (topicName : String) (domainId : ℤ) :
    CedTopicManager × Bool × Option ℕ :=
  let domain := (m.topics.lookup domainId).getD ∅
  match domain.lookup topicName with
  | none =>
    let topic := m.objects.length
    ({ topics := m.topics.insert domainId (domain.insert topicName topic)
       objects := m.objects ++ [⟨topicName, domainId, 1, false⟩] }, true, some topic)
  | some topic =>
    let r := m.lock topic
    (r.1, true, r.2)

/-- `unregister_topic`. -/
def unregisterTopic (m : CedTopicManager) (topicName : String) (domainId : ℤ) :
    CedTopicManager × Bool :=
  match m.topics.lookup domainId with
  | none => (m, false)
  | some domain =>
    match domain.lookup topicName with
    | none => (m, false)
    | some topic =>
      if m.useCount topic = 0 then
        let domain := domain.erase topicName
        ({ m with
           topics :=
             if domain.entries = [] then m.topics.erase domainId
             else m.topics.insert domainId domain }, true)
      else (m, false)

/-- The destructor of a topic. -/
def destroy (m : CedTopicManager) (topic : ℕ) : CedTopicManager :=
  match m.objects[topic]? with
  | none => m
  | some o =>
    { (m.unregisterTopic o.name o.domainId).1 with
      objects := m.objects.modify topic fun o => { o with destroyed := true } }

/-! ## Runs -/

/-- What happens to the manager and its topics. -/
inductive Event where
  | register (topicName : String) (domainId : ℤ)
  | copy (topic : ℕ)
  | release (topic : ℕ)
  | destroy (topic : ℕ)

/-- The manager after an event. -/
def step (m : CedTopicManager) : Event → CedTopicManager
  | .register topicName domainId => (m.registerTopic topicName domainId).1
  | .copy topic => m.acquire topic
  | .release topic => m.release topic
  | .destroy topic => m.destroy topic

/-- References are copied and released by those that hold them, and the destructor of a topic runs
once, at some time after its last reference was released. -/
def Admitted (m : CedTopicManager) : Event → Prop
  | .register _ _ => True
  | .copy topic => 0 < m.useCount topic
  | .release topic => 0 < m.useCount topic
  | .destroy topic => ∃ o, m.objects[topic]? = some o ∧ o.refs = 0 ∧ o.destroyed = false

/-- The managers that runs reach. -/
def Reached (m : CedTopicManager) : Prop := Transition.Reaches (· = empty) step Admitted m

/-! ## What holds along every run -/

/-- The topics that are alive are shared, and the entries are those of topics that are not gone. -/
structure SharesTopics (m : CedTopicManager) : Prop where
  same : ∀ (i j : ℕ) (a b : SharedTopic), m.objects[i]? = some a → m.objects[j]? = some b →
    0 < a.refs → 0 < b.refs → a.name = b.name → a.domainId = b.domainId → i = j
  kept : ∀ topicName domainId topic, m.find domainId topicName = some topic →
    0 < m.useCount topic → m.unregisterTopic topicName domainId = (m, false)
  entry_gone : ∀ topicName domainId,
    (∀ o ∈ m.objects, o.name = topicName → o.domainId = domainId → o.destroyed = true) →
    m.find domainId topicName = none
  domain_gone : ∀ domainId, (∀ o ∈ m.objects, o.domainId = domainId → o.destroyed = true) →
    m.topics.lookup domainId = none

/-- The entry of a name is there, and its topic is dead. -/
def Expired (m : CedTopicManager) (topicName : String) (domainId : ℤ) : Prop :=
  ∃ topic, m.find domainId topicName = some topic ∧ m.useCount topic = 0

/-- The entries are those of the topics whose destructor has not run. -/
structure Entries (m : CedTopicManager) : Prop where
  sound : ∀ domainId topicName topic, m.find domainId topicName = some topic →
    ∃ o, m.objects[topic]? = some o ∧ o.name = topicName ∧ o.domainId = domainId ∧
      o.destroyed = false
  complete : ∀ (topic : ℕ) o, m.objects[topic]? = some o → o.destroyed = false →
    m.find o.domainId o.name = some topic
  dead : ∀ (topic : ℕ) o, m.objects[topic]? = some o → o.destroyed = true → o.refs = 0
  inhabited : ∀ domainId domain, m.topics.lookup domainId = some domain → domain.entries ≠ []

variable {m : CedTopicManager}

/-! ### Finding entries -/

/-- The entries of a domain that is not there are none. -/
lemma lookup_getD (m : CedTopicManager) (domainId : ℤ) (topicName : String) :
    ((m.topics.lookup domainId).getD ∅).lookup topicName = m.find domainId topicName := by
  unfold find
  cases m.topics.lookup domainId with
  | none => rfl
  | some domain => rfl

/-- One domain is replaced. -/
lemma find_insert (topics : AList fun _ : ℤ => AList fun _ : String => ℕ)
    (objects objects' : List SharedTopic) (domainId d : ℤ)
    (domain : AList fun _ : String => ℕ) (topicName : String) :
    find ⟨topics.insert domainId domain, objects'⟩ d topicName =
      if d = domainId then domain.lookup topicName
      else find ⟨topics, objects⟩ d topicName := by
  unfold find
  split
  · next heq =>
    rw [heq, AList.lookup_insert]
    rfl
  · next hne => rw [AList.lookup_insert_ne hne]

/-- A topic is registered. -/
lemma find_register (m : CedTopicManager) (objects : List SharedTopic) (domainId d : ℤ)
    (topicName n : String) (topic : ℕ) :
    find ⟨m.topics.insert domainId (((m.topics.lookup domainId).getD ∅).insert topicName topic),
        objects⟩ d n =
      if d = domainId ∧ n = topicName then some topic else m.find d n := by
  rw [find_insert m.topics m.objects]
  by_cases hd : d = domainId
  · by_cases hn : n = topicName
    · rw [if_pos hd, if_pos ⟨hd, hn⟩, hn, AList.lookup_insert]
    · rw [if_pos hd, if_neg (fun h => hn h.2), AList.lookup_insert_ne hn, lookup_getD, hd]
  · rw [if_neg hd, if_neg (fun h => hd h.1)]

/-- A topic is unregistered. -/
lemma find_erase (m : CedTopicManager) (objects : List SharedTopic) {domainId : ℤ}
    {domain : AList fun _ : String => ℕ} (hdomain : m.topics.lookup domainId = some domain)
    (topicName : String) (d : ℤ) (n : String) :
    find ⟨if (domain.erase topicName).entries = [] then m.topics.erase domainId
        else m.topics.insert domainId (domain.erase topicName), objects⟩ d n =
      if d = domainId ∧ n = topicName then none else m.find d n := by
  have hrest : (domain.erase topicName).lookup n =
      if n = topicName then none else domain.lookup n := by
    split
    · next heq => rw [heq, AList.lookup_erase]
    · next hne => rw [AList.lookup_erase_ne hne]
  split
  · next hempty =>
    by_cases hd : d = domainId
    · have hnone : (domain.erase topicName).lookup n = none := by
        change List.dlookup n (domain.erase topicName).entries = none
        rw [hempty]
        rfl
      rw [hnone] at hrest
      unfold find
      rw [hd, AList.lookup_erase, hdomain]
      simpa using hrest
    · rw [if_neg (fun h => hd h.1)]
      unfold find
      rw [AList.lookup_erase_ne hd]
  · rw [find_insert m.topics m.objects]
    by_cases hd : d = domainId
    · rw [if_pos hd, hrest, hd]
      unfold find
      rw [hdomain]
      simp
    · rw [if_neg hd, if_neg (fun h => hd h.1)]

/-- A topic with references is counted so. -/
lemma useCount_eq {topic : ℕ} {o : SharedTopic} (ho : m.objects[topic]? = some o) :
    m.useCount topic = o.refs := by
  unfold useCount
  rw [ho]
  rfl

namespace Entries

/-- Nothing is registered at first. -/
lemma empty : Entries empty where
  sound _ _ _ h := by cases h
  complete topic o h := by cases h
  dead topic o h := by cases h
  inhabited _ _ h := by cases h

/-- References to a topic that is alive come and go. -/
lemma modify (h : Entries m) {topic : ℕ} (hpos : 0 < m.useCount topic)
    (f : SharedTopic → SharedTopic)
    (hf : ∀ o, (f o).name = o.name ∧ (f o).domainId = o.domainId ∧ (f o).destroyed = o.destroyed) :
    Entries { m with objects := m.objects.modify topic f } := by
  have hsame : ∀ i o, (if topic = i then f o else o).name = o.name ∧
      (if topic = i then f o else o).domainId = o.domainId ∧
      (if topic = i then f o else o).destroyed = o.destroyed := by
    intro i o
    split
    · exact hf o
    · exact ⟨rfl, rfl, rfl⟩
  constructor
  case sound =>
    intro d n i hi
    obtain ⟨o, ho, hname, hdomain, hlive⟩ := h.sound d n i hi
    obtain ⟨hname', hdomain', hlive'⟩ := hsame i o
    refine ⟨if topic = i then f o else o, ?_, hname'.trans hname, hdomain'.trans hdomain,
      hlive'.trans hlive⟩
    rw [List.getElem?_modify, ho]
    rfl
  case complete =>
    intro i o ho hlive
    rw [List.getElem?_modify] at ho
    obtain ⟨o₀, ho₀, rfl⟩ := Option.map_eq_some_iff.mp ho
    obtain ⟨hname', hdomain', hlive'⟩ := hsame i o₀
    rw [hname', hdomain']
    exact h.complete i o₀ ho₀ (hlive'.symm.trans hlive)
  case dead =>
    intro i o ho hdead
    rw [List.getElem?_modify] at ho
    obtain ⟨o₀, ho₀, rfl⟩ := Option.map_eq_some_iff.mp ho
    have hdead₀ := h.dead i o₀ ho₀ ((hsame i o₀).2.2.symm.trans hdead)
    by_cases heq : topic = i
    · rw [heq, useCount_eq ho₀, hdead₀] at hpos
      exact absurd hpos (Nat.lt_irrefl 0)
    · rw [if_neg heq]
      exact hdead₀
  case inhabited => exact h.inhabited

/-- A registration keeps the entries. -/
lemma registerTopic (h : Entries m) (topicName : String) (domainId : ℤ) :
    Entries (m.registerTopic topicName domainId).1 := by
  unfold CedTopicManager.registerTopic
  dsimp only
  rw [lookup_getD]
  split
  · next hnone =>
    have hfind := fun d n => find_register m (m.objects ++ [⟨topicName, domainId, 1, false⟩])
      domainId d topicName n m.objects.length
    have hold : ∀ i < m.objects.length,
        (m.objects ++ [⟨topicName, domainId, 1, false⟩])[i]? = m.objects[i]? :=
      fun i hi => List.getElem?_append_left hi
    have hcases : ∀ i o, (m.objects ++ [⟨topicName, domainId, 1, false⟩])[i]? = some o →
        m.objects[i]? = some o ∨ i = m.objects.length ∧ o = ⟨topicName, domainId, 1, false⟩ := by
      intro i o ho
      rcases Nat.lt_trichotomy i m.objects.length with hlt | rfl | hgt
      · exact .inl ((hold i hlt).symm.trans ho)
      · rw [List.getElem?_concat_length] at ho
        exact .inr ⟨rfl, (Option.some.inj ho).symm⟩
      · rw [List.getElem?_eq_none (by simp; omega)] at ho
        cases ho
    constructor
    case sound =>
      intro d n i hi
      rw [hfind] at hi
      split at hi
      · next hkey =>
        rw [← Option.some.inj hi]
        exact ⟨_, List.getElem?_concat_length, hkey.2.symm, hkey.1.symm, rfl⟩
      · obtain ⟨o, ho, hrest⟩ := h.sound d n i hi
        exact ⟨o, (hold i (List.getElem?_eq_some_iff.mp ho).1).trans ho, hrest⟩
    case complete =>
      intro i o ho hlive
      rw [hfind]
      rcases hcases i o ho with hbefore | ⟨rfl, rfl⟩
      · have hfound := h.complete i o hbefore hlive
        have hkey : ¬ (o.domainId = domainId ∧ o.name = topicName) := by
          rintro ⟨hd, hn⟩
          rw [hd, hn, hnone] at hfound
          cases hfound
        rw [if_neg hkey, hfound]
      · exact if_pos ⟨rfl, rfl⟩
    case dead =>
      intro i o ho hdead
      rcases hcases i o ho with hbefore | ⟨-, rfl⟩
      · exact h.dead i o hbefore hdead
      · cases hdead
    case inhabited =>
      intro d domain hd hempty
      dsimp only at hd
      by_cases heq : d = domainId
      · rw [heq, AList.lookup_insert] at hd
        rw [← Option.some.inj hd, AList.entries_insert] at hempty
        exact absurd hempty (List.cons_ne_nil _ _)
      · rw [AList.lookup_insert_ne heq] at hd
        exact h.inhabited d domain hd hempty
  · next topic hfound =>
    unfold CedTopicManager.lock
    split
    · exact h
    · next halive => exact h.modify (Nat.pos_of_ne_zero halive) _ fun _ => ⟨rfl, rfl, rfl⟩

/-- A destructor keeps the entries. -/
lemma destroy (h : Entries m) {topic : ℕ} {o : SharedTopic} (ho : m.objects[topic]? = some o)
    (hrefs : o.refs = 0) (hlive : o.destroyed = false) : Entries (m.destroy topic) := by
  have hfound := h.complete topic o ho hlive
  obtain ⟨domain, hdomain, htopic⟩ := Option.bind_eq_some_iff.mp hfound
  unfold CedTopicManager.destroy CedTopicManager.unregisterTopic
  simp only [ho, hdomain, htopic, useCount_eq ho, hrefs, if_true]
  have hfind := find_erase m (m.objects.modify topic fun o => { o with destroyed := true }) hdomain
    o.name
  constructor
  case sound =>
    intro d n i hi
    rw [hfind] at hi
    split at hi
    · cases hi
    · next hkey =>
      obtain ⟨o', ho', hname, hdomain', hlive'⟩ := h.sound d n i hi
      have hne : topic ≠ i := by
        rintro rfl
        obtain rfl := Option.some.inj (ho.symm.trans ho')
        exact hkey ⟨hdomain'.symm, hname.symm⟩
      refine ⟨o', ?_, hname, hdomain', hlive'⟩
      rw [List.getElem?_modify, ho', Option.map_eq_map, Option.map_some, if_neg hne]
  case complete =>
    intro i o' ho' hlive'
    rw [List.getElem?_modify] at ho'
    obtain ⟨o₀, ho₀, rfl⟩ := Option.map_eq_some_iff.mp ho'
    by_cases heq : topic = i
    · rw [if_pos heq] at hlive'
      cases hlive'
    · rw [if_neg heq] at hlive' ⊢
      have hfound' := h.complete i o₀ ho₀ hlive'
      have hkey : ¬ (o₀.domainId = o.domainId ∧ o₀.name = o.name) := by
        rintro ⟨hd, hn⟩
        rw [hd, hn, hfound] at hfound'
        exact heq (Option.some.inj hfound')
      rw [hfind, if_neg hkey, hfound']
  case dead =>
    intro i o' ho' hdead
    rw [List.getElem?_modify] at ho'
    obtain ⟨o₀, ho₀, rfl⟩ := Option.map_eq_some_iff.mp ho'
    by_cases heq : topic = i
    · rw [if_pos heq]
      rw [heq, ho₀] at ho
      rw [Option.some.inj ho]
      exact hrefs
    · rw [if_neg heq] at hdead ⊢
      exact h.dead i o₀ ho₀ hdead
  case inhabited =>
    intro d domain' hd hempty
    dsimp only at hd
    split at hd
    · next hlast =>
      by_cases heq : d = o.domainId
      · rw [heq, AList.lookup_erase] at hd
        cases hd
      · rw [AList.lookup_erase_ne heq] at hd
        exact h.inhabited d domain' hd hempty
    · next hmore =>
      by_cases heq : d = o.domainId
      · rw [heq, AList.lookup_insert] at hd
        rw [← Option.some.inj hd] at hempty
        exact hmore hempty
      · rw [AList.lookup_insert_ne heq] at hd
        exact h.inhabited d domain' hd hempty

/-- Live topics of one name are one, and entries go with their topics. -/
lemma sharesTopics (h : Entries m) : SharesTopics m := by
  have hlive : ∀ (i : ℕ) o, m.objects[i]? = some o → 0 < o.refs → o.destroyed = false := by
    intro i o ho hpos
    rw [Bool.eq_false_iff]
    exact fun hdead => absurd (h.dead i o ho hdead) (Nat.ne_of_gt hpos)
  constructor
  case same =>
    intro i j a b ha hb hposa hposb hname hdomain
    have hi := h.complete i a ha (hlive i a ha hposa)
    have hj := h.complete j b hb (hlive j b hb hposb)
    rw [hname, hdomain, hj] at hi
    exact (Option.some.inj hi).symm
  case kept =>
    intro topicName domainId topic hfound halive
    obtain ⟨domain, hdomain, htopic⟩ := Option.bind_eq_some_iff.mp hfound
    unfold unregisterTopic
    simp only [hdomain, htopic]
    exact if_neg (Nat.ne_of_gt halive)
  case entry_gone =>
    intro topicName domainId hgone
    rw [Option.eq_none_iff_forall_ne_some]
    intro topic hfound
    obtain ⟨o, ho, hname, hdomain, hnot⟩ := h.sound domainId topicName topic hfound
    rw [hgone o (List.mem_of_getElem? ho) hname hdomain] at hnot
    cases hnot
  case domain_gone =>
    intro domainId hgone
    rw [Option.eq_none_iff_forall_ne_some]
    intro domain hdomain
    obtain ⟨⟨topicName, topic⟩, hentry⟩ :=
      List.exists_mem_of_ne_nil _ (h.inhabited domainId domain hdomain)
    have hfound : m.find domainId topicName = some topic := by
      unfold find
      rw [hdomain]
      exact AList.mem_lookup_iff.mpr hentry
    obtain ⟨o, ho, -, hd, hnot⟩ := h.sound domainId topicName topic hfound
    rw [hgone o (List.mem_of_getElem? ho) hd] at hnot
    cases hnot

/-- What `register_topic` hands out has the name and the domain, and a reference to it; nothing
is handed out only where the entry is dead. -/
lemma registerTopic_hands (h : Entries m) (topicName : String) (domainId : ℤ) :
    (m.registerTopic topicName domainId).2.1 = true ∧
    (∀ topic, (m.registerTopic topicName domainId).2.2 = some topic →
      ∃ o, (m.registerTopic topicName domainId).1.objects[topic]? = some o ∧
        o.name = topicName ∧ o.domainId = domainId ∧ 0 < o.refs) ∧
    ((m.registerTopic topicName domainId).2.2 ≠ none ↔ ¬ m.Expired topicName domainId) := by
  unfold CedTopicManager.registerTopic Expired
  dsimp only
  rw [lookup_getD]
  split
  · next hnone =>
    refine ⟨rfl, fun topic htopic => ?_, iff_of_true (fun hnot => by cases hnot) ?_⟩
    · rw [← Option.some.inj htopic]
      exact ⟨_, List.getElem?_concat_length, rfl, rfl, Nat.one_pos⟩
    · rintro ⟨topic, hfound, -⟩
      rw [hnone] at hfound
      cases hfound
  · next topic hfound =>
    obtain ⟨o, ho, hname, hdomain, -⟩ := h.sound domainId topicName topic hfound
    unfold lock
    split
    · next hdead =>
      refine ⟨rfl, fun topic' htopic' => (by cases htopic'), ?_⟩
      exact iff_of_false (fun hsome => hsome rfl) (fun hnot => hnot ⟨topic, hfound, hdead⟩)
    · next halive =>
      refine ⟨rfl, fun topic' htopic' => ?_, iff_of_true (fun hnot => by cases hnot) ?_⟩
      · obtain rfl := Option.some.inj htopic'
        refine ⟨{ o with refs := o.refs + 1 }, ?_, hname, hdomain, Nat.succ_pos _⟩
        unfold acquire
        rw [List.getElem?_modify, ho, Option.map_eq_map, Option.map_some, if_pos rfl]
      · rintro ⟨topic', hfound', hdead⟩
        rw [hfound] at hfound'
        rw [← Option.some.inj hfound'] at hdead
        exact halive hdead

end Entries

/-- The entries are kept along every run. -/
lemma Reached.entries (h : Reached m) : Entries m := by
  refine h.invariant (I := Entries) ?_ ?_
  · rintro m rfl
    exact Entries.empty
  · intro m e hentries hadmitted
    cases e with
    | register topicName domainId => exact hentries.registerTopic topicName domainId
    | copy topic => exact hentries.modify hadmitted _ fun _ => ⟨rfl, rfl, rfl⟩
    | release topic => exact hentries.modify hadmitted _ fun _ => ⟨rfl, rfl, rfl⟩
    | destroy topic =>
      obtain ⟨o, ho, hrefs, hlive⟩ := hadmitted
      exact hentries.destroy ho hrefs hlive

/-- Along every interleaving of registrations with the releases and the destructors of topics:
topics of one name that are alive are one object, no entry of a topic that is alive is removed,
and no entry and no domain outlives its topics.  A registration returns `true`, and hands out a
topic of the name exactly when the entry is not one that is there and dead. -/
theorem registerTopic_shared (h : Reached m) (topicName : String) (domainId : ℤ) :
    SharesTopics m ∧
    (m.registerTopic topicName domainId).2.1 = true ∧
    (∀ topic, (m.registerTopic topicName domainId).2.2 = some topic →
      ∃ o, (m.registerTopic topicName domainId).1.objects[topic]? = some o ∧
        o.name = topicName ∧ o.domainId = domainId ∧ 0 < o.refs) ∧
    ((m.registerTopic topicName domainId).2.2 ≠ none ↔ ¬ m.Expired topicName domainId) :=
  ⟨h.entries.sharesTopics, h.entries.registerTopic_hands topicName domainId⟩

/-- The manager after a topic was registered. -/
def registered : CedTopicManager := empty.step (.register "topic" 0)

lemma registered_reached : Reached registered :=
  Transition.Reaches.next (e := Event.register "topic" 0) (.start rfl) trivial

/-- A second registration is given the same topic. -/
theorem registerTopic_shared_registered :
    SharesTopics registered ∧
    (registered.registerTopic "topic" 0).2.1 = true ∧
    (∀ topic, (registered.registerTopic "topic" 0).2.2 = some topic →
      ∃ o, (registered.registerTopic "topic" 0).1.objects[topic]? = some o ∧
        o.name = "topic" ∧ o.domainId = 0 ∧ 0 < o.refs) ∧
    ((registered.registerTopic "topic" 0).2.2 ≠ none ↔ ¬ registered.Expired "topic" 0) :=
  registerTopic_shared registered_reached "topic" 0

/-- The last reference is released, and the topic is registered again before the destructor has
removed the entry: `true` is returned, and no topic. -/
theorem registerTopic_shared_fails :
    ¬ ∀ (m : CedTopicManager) (topicName : String) (domainId : ℤ), Reached m →
      (m.registerTopic topicName domainId).2.1 = true →
      (m.registerTopic topicName domainId).2.2 ≠ none := by
  intro h
  have hreleased := registered_reached.next (e := Event.release 0) (show 0 < 1 by decide)
  exact h _ "topic" 0 hreleased rfl rfl

end CedTopicManager

end XrceDds
