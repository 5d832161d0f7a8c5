import XrceDds.Agent.CedMiddleware

/-!
# Which writers and readers the CED middleware connects

A topic that was created for a reference keeps its participant and its name, and is found under
this name as long as it is held.  So a writer and a reader whose references are cut to the names
of two such topics are connected exactly when the names are the same.
`connects_iff_cleanNames` says for which names this is what their references promise: neither
may contain the suffix of a topic, nor that of its own kind of endpoint.
-/

namespace XrceDds

namespace CedTopicManager

variable {m m' : CedTopicManager}

/-! ## The names of the shared topics -/

/-- The entries are those of topics of their names. -/
def EntryNames (m : CedTopicManager) : Prop :=
  ∀ domainId topicName topic, m.find domainId topicName = some topic →
    m.nameOf topic = some topicName

/-- Topics keep their names, and entries those of their topics. -/
structure NamesKept (m m' : CedTopicManager) : Prop where
  nameOf : ∀ topic name, m.nameOf topic = some name → m'.nameOf topic = some name
  entries : m.EntryNames → m'.EntryNames

lemma NamesKept.refl (m : CedTopicManager) : NamesKept m m := ⟨fun _ _ h => h, id⟩

lemma NamesKept.trans {m₁ m₂ m₃ : CedTopicManager} (h : NamesKept m₁ m₂) (h' : NamesKept m₂ m₃) :
    NamesKept m₁ m₃ :=
  ⟨fun topic name hn => h'.nameOf topic name (h.nameOf topic name hn),
    fun he => h'.entries (h.entries he)⟩

/-- A change of a topic that is not its name. -/
lemma nameOf_modify (m : CedTopicManager) (topic : ℕ) {f : SharedTopic → SharedTopic}
    (hf : ∀ o, (f o).name = o.name) (other : ℕ) :
    nameOf { m with objects := m.objects.modify topic f } other = m.nameOf other := by
  unfold nameOf
  rw [List.getElem?_modify]
  cases m.objects[other]? with
  | none => rfl
  | some o =>
    rw [Option.map_eq_map, Option.map_some, Option.map_some, Option.map_some]
    split
    · rw [hf o]
    · rfl

/-- A change of a topic that is not its name keeps the names. -/
lemma NamesKept.modify (m : CedTopicManager) (topic : ℕ) {f : SharedTopic → SharedTopic}
    (hf : ∀ o, (f o).name = o.name) :
    NamesKept m { m with objects := m.objects.modify topic f } := by
  refine ⟨fun other name h => (nameOf_modify m topic hf other).trans h, fun h => ?_⟩
  intro domainId topicName other hfound
  rw [nameOf_modify m topic hf]
  exact h domainId topicName other hfound

/-- The manager after a topic of a new name was registered. -/
def withTopic (m : CedTopicManager) (topicName : String) (domainId : ℤ) : CedTopicManager :=
  ⟨m.topics.insert domainId
    (((m.topics.lookup domainId).getD ∅).insert topicName m.objects.length),
    m.objects ++ [⟨topicName, domainId, 1, false⟩]⟩

/-- A name that is not there is registered. -/
lemma registerTopic_of_none {topicName : String} {domainId : ℤ}
    (h : m.find domainId topicName = none) :
    m.registerTopic topicName domainId =
      (m.withTopic topicName domainId, true, some m.objects.length) := by
  unfold registerTopic
  simp only [lookup_getD, h]
  rfl

/-- A name that is there is locked. -/
lemma registerTopic_of_some {topicName : String} {domainId : ℤ} {topic : ℕ}
    (h : m.find domainId topicName = some topic) :
    m.registerTopic topicName domainId = ((m.lock topic).1, true, (m.lock topic).2) := by
  unfold registerTopic
  simp only [lookup_getD, h]

/-- The new topic has its name, and the others keep theirs. -/
lemma nameOf_withTopic (m : CedTopicManager) (topicName : String) (domainId : ℤ) :
    (m.withTopic topicName domainId).nameOf m.objects.length = some topicName ∧
      ∀ topic name, m.nameOf topic = some name →
        (m.withTopic topicName domainId).nameOf topic = some name := by
  unfold nameOf withTopic
  dsimp only
  constructor
  · rw [List.getElem?_concat_length]
    rfl
  · intro topic name hname
    obtain ⟨o, ho, rfl⟩ := Option.map_eq_some_iff.mp hname
    rw [List.getElem?_append_left (List.getElem?_eq_some_iff.mp ho).1, ho]
    rfl

/-- Locking keeps the names. -/
lemma NamesKept.lock (m : CedTopicManager) (topic : ℕ) : NamesKept m (m.lock topic).1 := by
  unfold CedTopicManager.lock
  split
  · exact .refl m
  · exact .modify m topic fun _ => rfl

/-- A registration keeps the names. -/
lemma NamesKept.registerTopic (m : CedTopicManager) (topicName : String) (domainId : ℤ) :
    NamesKept m (m.registerTopic topicName domainId).1 := by
  cases hfind : m.find domainId topicName with
  | none =>
    rw [registerTopic_of_none hfind]
    obtain ⟨hnew, hold⟩ := nameOf_withTopic m topicName domainId
    refine ⟨hold, fun hentries d n topic hfound => ?_⟩
    unfold withTopic at hfound
    rw [find_register] at hfound
    split at hfound
    · next hkey =>
      rw [← Option.some.inj hfound, hkey.2]
      exact hnew
    · exact hold topic n (hentries d n topic hfound)
  | some topic =>
    rw [registerTopic_of_some hfind]
    exact .lock m topic

/-- What a registration hands out has the name that was asked for. -/
lemma registerTopic_nameOf (h : m.EntryNames) {topicName : String} {domainId : ℤ} {topic : ℕ}
    (htopic : (m.registerTopic topicName domainId).2.2 = some topic) :
    (m.registerTopic topicName domainId).1.nameOf topic = some topicName := by
  cases hfind : m.find domainId topicName with
  | none =>
    rw [registerTopic_of_none hfind] at htopic ⊢
    rw [← Option.some.inj htopic]
    exact (nameOf_withTopic m topicName domainId).1
  | some found =>
    rw [registerTopic_of_some hfind] at htopic ⊢
    have hsame : found = topic := by
      unfold lock at htopic
      split at htopic
      · cases htopic
      · exact Option.some.inj htopic
    exact (NamesKept.lock m found).nameOf topic topicName
      (hsame ▸ h domainId topicName found hfind)

/-- Removing an entry keeps the names. -/
lemma NamesKept.unregisterTopic (m : CedTopicManager) (topicName : String) (domainId : ℤ) :
    NamesKept m (m.unregisterTopic topicName domainId).1 := by
  unfold CedTopicManager.unregisterTopic
  split
  · exact .refl m
  · next domain hdomain =>
    split
    · exact .refl m
    · split
      · refine ⟨fun _ _ h => h, fun hentries d n topic hfound => ?_⟩
        dsimp only at hfound
        rw [find_erase m m.objects hdomain] at hfound
        split at hfound
        · cases hfound
        · exact hentries d n topic hfound
      · exact .refl m

/-- A destructor keeps the names. -/
lemma NamesKept.destroy (m : CedTopicManager) (topic : ℕ) : NamesKept m (m.destroy topic) := by
  unfold CedTopicManager.destroy
  split
  · exact .refl m
  · next o ho =>
    have hobjects : (m.unregisterTopic o.name o.domainId).1.objects = m.objects := by
      unfold CedTopicManager.unregisterTopic
      split
      · rfl
      · split
        · rfl
        · split <;> rfl
    rw [← hobjects]
    exact (NamesKept.unregisterTopic m o.name o.domainId).trans (.modify _ topic fun _ => rfl)

/-- The last reference may go. -/
lemma NamesKept.drop (m : CedTopicManager) (topic : ℕ) : NamesKept m (m.drop topic) := by
  have hrelease : NamesKept m (m.release topic) := .modify m topic fun _ => rfl
  unfold CedTopicManager.drop
  split
  · exact hrelease.trans (.destroy _ topic)
  · exact hrelease

/-- Whatever happens to the manager keeps the names. -/
lemma NamesKept.step (m : CedTopicManager) (e : Event) : NamesKept m (m.step e) := by
  cases e with
  | register topicName domainId => exact .registerTopic m topicName domainId
  | copy topic => exact .modify m topic fun _ => rfl
  | release topic => exact .modify m topic fun _ => rfl
  | destroy topic => exact .destroy m topic

end CedTopicManager

/-! ## What the middleware keeps -/

/-- What holds an entry is found by some identifier. -/
lemma mem_holders_iff (entities : AList fun _ : ℕ => ℕ) (topic : ℕ) :
    topic ∈ holders entities ↔ ∃ id, entities.lookup id = some topic := by
  unfold holders
  rw [List.mem_map]
  constructor
  · rintro ⟨⟨id, held⟩, hentry, rfl⟩
    exact ⟨id, AList.mem_lookup_iff.mpr hentry⟩
  · rintro ⟨id, hid⟩
    exact ⟨⟨id, topic⟩, AList.mem_lookup_iff.mp hid, rfl⟩

/-- A new entry holds one topic more. -/
lemma holders_insert {entities : AList fun _ : ℕ => ℕ} {id topic other : ℕ}
    (h : other ∈ holders (entities.insert id topic)) : other =
      topic ∨ other ∈ holders entities := by
  obtain ⟨id', hid'⟩ := (mem_holders_iff _ _).mp h
  by_cases heq : id' = id
  · rw [heq, AList.lookup_insert] at hid'
    exact .inl (Option.some.inj hid').symm
  · rw [AList.lookup_insert_ne heq] at hid'
    exact .inr ((mem_holders_iff _ _).mpr ⟨id', hid'⟩)

/-- Without an entry no other topic is held. -/
lemma holders_erase {entities : AList fun _ : ℕ => ℕ} {id other : ℕ}
    (h : other ∈ holders (entities.erase id)) : other ∈ holders entities := by
  obtain ⟨id', hid'⟩ := (mem_holders_iff _ _).mp h
  by_cases heq : id' = id
  · rw [heq, AList.lookup_erase] at hid'
    cases hid'
  · rw [AList.lookup_erase_ne heq] at hid'
    exact (mem_holders_iff _ _).mpr ⟨id', hid'⟩

namespace CedMiddleware

/-- The topic has this participant and this name. -/
def IsTopic (s : CedMiddleware) (topic participant : ℕ) (name : String) : Prop :=
  ∃ globalTopic, s.topicObjects[topic]? = some ⟨participant, globalTopic⟩ ∧
    s.manager.nameOf globalTopic = some name

/-- What the register of a participant has under a name. -/
def registered (s : CedMiddleware) (participant : ℕ) (name : String) : Option ℕ :=
  (s.participantObjects[participant]?).bind fun p => p.topicRegister.lookup name

/-- The objects are in order: every topic has a name, the registers have the topics of their names,
and every topic that is held is registered. -/
structure Sound (s : CedMiddleware) : Prop where
  entryNames : s.manager.EntryNames
  named : ∀ (topic : ℕ) o, s.topicObjects[topic]? = some o →
    ∃ name, s.manager.nameOf o.globalTopic = some name
  register_sound : ∀ participant name topic, s.registered participant name = some topic →
    s.IsTopic topic participant name
  held_registered : ∀ topic participant name, s.Held topic → s.IsTopic topic participant name →
    s.registered participant name = some topic
  held_topic : ∀ topic, s.Held topic → ∃ participant name, s.IsTopic topic participant name

/-- Topics keep their participants and their names. -/
def TopicsKept (s s' : CedMiddleware) : Prop :=
  ∀ topic participant name, s.IsTopic topic participant name → s'.IsTopic topic participant name

variable {s : CedMiddleware}

/-- A topic has one participant and one name. -/
lemma IsTopic.unique {topic participant participant' : ℕ} {name name' : String}
    (h : s.IsTopic topic participant name) (h' : s.IsTopic topic participant' name') :
    participant = participant' ∧ name = name' := by
  obtain ⟨g, hg, hname⟩ := h
  obtain ⟨g', hg', hname'⟩ := h'
  rw [hg] at hg'
  obtain ⟨rfl, rfl⟩ := CedTopic.mk.inj (Option.some.inj hg')
  exact ⟨rfl, Option.some.inj (hname.symm.trans hname')⟩

/-- The name of a topic. -/
lemma IsTopic.topicName_eq {topic participant : ℕ} {name : String}
    (h : s.IsTopic topic participant name) : s.topicName topic = some name := by
  obtain ⟨g, hg, hname⟩ := h
  unfold topicName
  rw [hg]
  exact hname

/-- What is found is registered and held. -/
lemma findTopic_eq_some_iff {participant topic : ℕ} {name : String} :
    s.findTopic participant name = some topic ↔
      s.registered participant name = some topic ∧ s.Held topic := by
  unfold findTopic registered
  split
  · next hnone =>
    rw [hnone]
    exact iff_of_false (fun h => by cases h) (fun h => by cases h.1)
  · next found hfound =>
    rw [hfound]
    split
    · next hheld =>
      constructor
      · rintro h
        obtain rfl := Option.some.inj h
        exact ⟨rfl, hheld⟩
      · exact fun h => h.1
    · next hnot =>
      refine iff_of_false (fun h => by cases h) (fun h => ?_)
      rw [Option.some.inj h.1] at hnot
      exact hnot h.2

namespace Sound

/-- The maps may hold other topics, as long as they are registered. -/
lemma maps (h : Sound s) {s' : CedMiddleware}
    (hparticipants : s'.participantObjects = s.participantObjects)
    (htopics : s'.topicObjects = s.topicObjects) (hmanager : s'.manager = s.manager)
    (hheld : ∀ topic, s'.Held topic → s.Held topic ∨
      ∃ participant name, s.registered participant name = some topic) : Sound s' := by
  have histopic : ∀ topic participant name,
      s'.IsTopic topic participant name ↔ s.IsTopic topic participant name := by
    intro topic participant name
    unfold IsTopic
    rw [htopics, hmanager]
  have hregistered : ∀ participant name, s'.registered participant name =
      s.registered participant name := by
    intro participant name
    unfold registered
    rw [hparticipants]
  constructor
  case entryNames =>
    rw [hmanager]
    exact h.entryNames
  case named =>
    rw [htopics, hmanager]
    exact h.named
  case register_sound =>
    intro participant name topic hfound
    rw [hregistered] at hfound
    exact (histopic _ _ _).mpr (h.register_sound participant name topic hfound)
  case held_registered =>
    intro topic participant name hhold htopic
    rw [histopic] at htopic
    rw [hregistered]
    rcases hheld topic hhold with hold | ⟨participant', name', hfound⟩
    · exact h.held_registered topic participant name hold htopic
    · obtain ⟨rfl, rfl⟩ := htopic.unique (h.register_sound participant' name' topic hfound)
      exact hfound
  case held_topic =>
    intro topic hhold
    rcases hheld topic hhold with hold | ⟨participant, name, hfound⟩
    · obtain ⟨participant, name, htopic⟩ := h.held_topic topic hold
      exact ⟨participant, name, (histopic _ _ _).mpr htopic⟩
    · exact ⟨participant, name, (histopic _ _ _).mpr (h.register_sound _ _ _ hfound)⟩

/-- The manager may change, as long as names are kept. -/
lemma withManager (h : Sound s) {m : CedTopicManager}
    (hkept : CedTopicManager.NamesKept s.manager m) : Sound { s with manager := m } := by
  have histopic : ∀ topic participant name,
      IsTopic { s with manager := m } topic participant name ↔
        s.IsTopic topic participant name := by
    intro topic participant name
    constructor
    · rintro ⟨g, hg, hname⟩
      obtain ⟨name', hname'⟩ := h.named topic _ hg
      have hsame := hkept.nameOf g name' hname'
      dsimp only at hname hsame
      rw [hname] at hsame
      exact ⟨g, hg, hname'.trans hsame.symm⟩
    · rintro ⟨g, hg, hname⟩
      exact ⟨g, hg, hkept.nameOf g name hname⟩
  constructor
  case entryNames => exact hkept.entries h.entryNames
  case named =>
    intro topic o ho
    obtain ⟨name, hname⟩ := h.named topic o ho
    exact ⟨name, hkept.nameOf _ name hname⟩
  case register_sound =>
    intro participant name topic hfound
    exact (histopic _ _ _).mpr (h.register_sound participant name topic hfound)
  case held_registered =>
    intro topic participant name hheld htopic
    exact h.held_registered topic participant name hheld ((histopic _ _ _).mp htopic)
  case held_topic =>
    intro topic hheld
    obtain ⟨participant, name, htopic⟩ := h.held_topic topic hheld
    exact ⟨participant, name, (histopic _ _ _).mpr htopic⟩

/-- One register is changed under one name, that of no topic that is held. -/
lemma withRegister (h : Sound s) {objects : List CedParticipant} {participant : ℕ} {name : String}
    {entry : Option ℕ}
    (hregistered : ∀ p n, registered { s with participantObjects := objects } p n =
      if p = participant ∧ n = name then entry else s.registered p n)
    (hentry : ∀ topic, entry = some topic → s.IsTopic topic participant name)
    (hheld : ∀ topic, s.Held topic → s.IsTopic topic participant name → False) :
    Sound { s with participantObjects := objects } := by
  constructor
  case entryNames => exact h.entryNames
  case named => exact h.named
  case register_sound =>
    intro p n topic hfound
    rw [hregistered] at hfound
    split at hfound
    · next hkey =>
      rw [hkey.1, hkey.2]
      exact hentry topic hfound
    · exact h.register_sound p n topic hfound
  case held_registered =>
    intro topic p n hhold htopic
    rw [hregistered]
    split
    · next hkey =>
      rw [hkey.1, hkey.2] at htopic
      exact (hheld topic hhold htopic).elim
    · exact h.held_registered topic p n hhold htopic
  case held_topic => exact h.held_topic

end Sound

/-- A name is taken out of a register. -/
lemma registered_unregisterTopic (s : CedMiddleware) (participant p : ℕ) (name n : String) :
    (s.unregisterTopic participant name).registered p n =
      if p = participant ∧ n = name then none else s.registered p n := by
  unfold registered unregisterTopic
  dsimp only
  rw [List.getElem?_modify]
  cases s.participantObjects[p]? with
  | none => simp
  | some o =>
    rw [Option.map_eq_map, Option.map_some, Option.bind_some, Option.bind_some]
    by_cases hp : participant = p
    · rw [if_pos hp]
      by_cases hn : n = name
      · rw [if_pos ⟨hp.symm, hn⟩, hn, AList.lookup_erase]
      · rw [if_neg (fun h => hn h.2), AList.lookup_erase_ne hn]
    · rw [if_neg hp, if_neg (fun h => hp h.1.symm)]

/-- A name is put into a register. -/
lemma registered_set {p : CedParticipant} {participant : ℕ}
    (hp : s.participantObjects[participant]? = some p) (name : String) (topic q : ℕ) (n : String) :
    registered { s with
        participantObjects := s.participantObjects.set participant
          { p with topicRegister := p.topicRegister.insert name topic } } q n =
      if q = participant ∧ n = name then some topic else s.registered q n := by
  unfold registered
  dsimp only
  by_cases hq : q = participant
  · rw [hq, List.getElem?_set_self (List.getElem?_eq_some_iff.mp hp).1, hp, Option.bind_some,
      Option.bind_some]
    by_cases hn : n = name
    · rw [if_pos ⟨rfl, hn⟩, hn, AList.lookup_insert]
    · rw [if_neg (fun h => hn h.2), AList.lookup_insert_ne hn]
  · rw [List.getElem?_set_ne (Ne.symm hq), if_neg (fun h => hq h.1)]

/-- The last holder of a topic goes away. -/
lemma Sound.dropTopic (h : Sound s) (topic : ℕ)
    (honly : ∀ participant name other, s.IsTopic topic participant name → s.Held other →
      s.IsTopic other participant name → other = topic) :
    Sound (s.dropTopic topic) ∧ s.TopicsKept (s.dropTopic topic) ∧
      ∀ participant name found, (s.dropTopic topic).registered participant name = some found →
        s.registered participant name = some found := by
  unfold CedMiddleware.dropTopic
  split
  · exact ⟨h, fun _ _ _ htopic => htopic, fun _ _ _ hfound => hfound⟩
  · next hnot =>
    split
    · next o name ho hname =>
      have htopic : s.IsTopic topic o.participant name := by
        unfold topicName at hname
        rw [ho] at hname
        exact ⟨o.globalTopic, ho, hname⟩
      have hregistered := fun p n => registered_unregisterTopic s o.participant p name n
      have hunregistered : Sound (s.unregisterTopic o.participant name) := by
        refine h.withRegister hregistered (fun _ hnone => ?_) ?_
        · cases hnone
        · intro other hheld hother
          rw [honly o.participant name other htopic hheld hother] at hheld
          exact hnot hheld
      have hdrop := CedTopicManager.NamesKept.drop s.manager o.globalTopic
      refine ⟨hunregistered.withManager hdrop, ?_, ?_⟩
      · rintro other p n ⟨g, hg, hn⟩
        exact ⟨g, hg, hdrop.nameOf g n hn⟩
      · intro p n found hfound
        have hkept := hregistered p n
        rw [show (s.unregisterTopic o.participant name).registered p n = some found from hfound]
          at hkept
        split at hkept
        · cases hkept
        · exact hkept.symm
    · exact ⟨h, fun _ _ _ htopic => htopic, fun _ _ _ hfound => hfound⟩

/-- The maps are those of `s`. -/
structure SameMaps (s s' : CedMiddleware) : Prop where
  participants : s'.participants = s.participants
  topics : s'.topics = s.topics
  publishers : s'.publishers = s.publishers
  subscribers : s'.subscribers = s.subscribers
  datawriters : s'.datawriters = s.datawriters
  datareaders : s'.datareaders = s.datareaders

/-- The destructor of a topic leaves the maps alone. -/
lemma SameMaps.dropTopic (s : CedMiddleware) (topic : ℕ) : SameMaps s (s.dropTopic topic) := by
  unfold CedMiddleware.dropTopic
  split
  · exact ⟨rfl, rfl, rfl, rfl, rfl, rfl⟩
  · split <;> exact ⟨rfl, rfl, rfl, rfl, rfl, rfl⟩

/-- What `create_topic` does for a participant and a name. -/
structure TopicMade (s : CedMiddleware) (participant : ℕ) (name : String)
    (r : CedMiddleware × Option ℕ) : Prop where
  sound : Sound r.1
  sameMaps : SameMaps s r.1
  kept : s.TopicsKept r.1
  made : ∀ topic, r.2 = some topic → r.1.registered participant name = some topic
  registers : ∀ p n topic, r.1.registered p n = some topic →
    s.registered p n = some topic ∨ p = participant ∧ n = name ∧ r.2 = some topic

/-- A topic that has just been made has its participant and its name, and is not held. -/
lemma Sound.made (h : Sound s) {m : CedTopicManager} {participant globalTopic : ℕ} {name : String}
    (hkept : CedTopicManager.NamesKept s.manager m) (hname : m.nameOf globalTopic = some name) :
    Sound { s with
      manager := m, topicObjects := s.topicObjects ++ [⟨participant, globalTopic⟩] } ∧
    s.TopicsKept { s with
      manager := m, topicObjects := s.topicObjects ++ [⟨participant, globalTopic⟩] } ∧
    IsTopic { s with
      manager := m, topicObjects := s.topicObjects ++ [⟨participant, globalTopic⟩] }
      s.topicObjects.length participant name := by
  have hold : s.TopicsKept { s with
      manager := m, topicObjects := s.topicObjects ++ [⟨participant, globalTopic⟩] } := by
    rintro topic p n ⟨g, hg, hn⟩
    exact ⟨g, (List.getElem?_append_left (List.getElem?_eq_some_iff.mp hg).1).trans hg,
      hkept.nameOf g n hn⟩
  refine ⟨?_, hold, globalTopic, List.getElem?_concat_length, hname⟩
  constructor
  case entryNames => exact hkept.entries h.entryNames
  case named =>
    intro topic o ho
    rcases Nat.lt_or_ge topic s.topicObjects.length with hlt | hge
    · rw [List.getElem?_append_left hlt] at ho
      obtain ⟨n, hn⟩ := h.named topic o ho
      exact ⟨n, hkept.nameOf _ n hn⟩
    · rw [List.getElem?_append_right hge] at ho
      obtain rfl : (⟨participant, globalTopic⟩ : CedTopic) = o := by
        have hmem := List.mem_of_getElem? ho
        exact (List.mem_singleton.mp hmem).symm
      exact ⟨name, hname⟩
  case register_sound =>
    intro p n topic hfound
    exact hold topic p n (h.register_sound p n topic hfound)
  case held_registered =>
    intro topic p n hheld htopic
    obtain ⟨p', n', htopic'⟩ := h.held_topic topic hheld
    obtain ⟨rfl, rfl⟩ := htopic.unique (hold topic p' n' htopic')
    exact h.held_registered topic _ _ hheld htopic'
  case held_topic =>
    intro topic hheld
    obtain ⟨p, n, htopic⟩ := h.held_topic topic hheld
    exact ⟨p, n, hold topic p n htopic⟩

/-- `create_topic` keeps the objects in order, and makes a topic that is registered. -/
lemma Sound.createTopic (h : Sound s) (participant : ℕ) (name : String) :
    TopicMade s participant name (s.createTopic participant name) := by
  have hsame : SameMaps s s := ⟨rfl, rfl, rfl, rfl, rfl, rfl⟩
  unfold CedMiddleware.createTopic
  split
  · next topic hfound =>
    refine ⟨h, hsame, fun _ _ _ h => h, fun t ht => ?_, fun p n t ht => .inl ht⟩
    rw [← Option.some.inj ht]
    exact (findTopic_eq_some_iff.mp hfound).1
  · exact ⟨h, hsame, fun _ _ _ h => h, fun t ht => (by cases ht), fun p n t ht => .inl ht⟩
  · next p hnone hp =>
    have hmanager := CedTopicManager.NamesKept.registerTopic s.manager name p.domainId
    dsimp only
    split
    · refine ⟨h.withManager hmanager, ⟨rfl, rfl, rfl, rfl, rfl, rfl⟩, ?_,
        fun t ht => (by cases ht), fun p n t ht => .inl ht⟩
      rintro topic q n ⟨g, hg, hn⟩
      exact ⟨g, hg, hmanager.nameOf g n hn⟩
    · next globalTopic hglobal =>
      obtain ⟨hsound, hkept, htopic⟩ := @Sound.made s h _ participant _ _ hmanager
        (CedTopicManager.registerTopic_nameOf h.entryNames hglobal)
      have hother : ∀ other, s.Held other → IsTopic { s with
          manager := (s.manager.registerTopic name p.domainId).1
          topicObjects := s.topicObjects ++ [⟨participant, globalTopic⟩] } other participant name →
          False := by
        intro other hheld hother
        have hregistered := hsound.held_registered other participant name hheld hother
        have hfind := findTopic_eq_some_iff.mpr ⟨hregistered, hheld⟩
        rw [show s.findTopic participant name = some other from hfind] at hnone
        cases hnone
      unfold CedMiddleware.registerTopic
      rw [htopic.topicName_eq]
      dsimp only
      rw [hp]
      dsimp only
      have hfree := fun q n => registered_set (s := { s with
        manager := (s.manager.registerTopic name p.domainId).1
        topicObjects := s.topicObjects ++ [⟨participant, globalTopic⟩] }) hp name
        s.topicObjects.length q n
      rcases Option.eq_none_or_eq_some (p.topicRegister.lookup name) with hlookup | ⟨stale, hlookup⟩
      · simp only [hlookup, if_true]
        refine ⟨hsound.withRegister hfree (fun t ht => ?_) hother, ⟨rfl, rfl, rfl, rfl, rfl, rfl⟩,
          hkept, fun t ht => ?_, fun q n t ht => ?_⟩
        · rw [← Option.some.inj ht]
          exact htopic
        · exact (hfree participant name).trans ((if_pos ⟨rfl, rfl⟩).trans ht)
        · have hcases := (hfree q n).symm.trans ht
          split at hcases
          · next hkey => exact .inr ⟨hkey.1, hkey.2, hcases⟩
          · exact .inl hcases
      · -- the name is registered for a topic that nothing holds
        simp only [hlookup, Bool.false_eq_true, if_false]
        obtain ⟨hdropped, hkept', hregisters⟩ := hsound.dropTopic s.topicObjects.length
          (by
            intro q n other htopic' hheld hother'
            obtain ⟨rfl, rfl⟩ := htopic.unique htopic'
            exact (hother other hheld hother').elim)
        obtain ⟨h₁, h₂, h₃, h₄, h₅, h₆⟩ := SameMaps.dropTopic { s with
          manager := (s.manager.registerTopic name p.domainId).1
          topicObjects := s.topicObjects ++ [⟨participant, globalTopic⟩] } s.topicObjects.length
        exact ⟨hdropped, ⟨h₁, h₂, h₃, h₄, h₅, h₆⟩, fun t q n ht => hkept' t q n (hkept t q n ht),
          fun t ht => (by cases ht), fun q n t ht => .inl (hregisters q n t ht)⟩

/-! ## Runs -/

/-- What happens to the middleware of a client, and to the topics that it shares with others. -/
inductive Event where
  | createParticipant (participantId : ℕ) (domainId : ℤ)
  | createTopic (topicId participantId : ℕ) (ref : String)
  | createPublisher (publisherId participantId : ℕ)
  | createSubscriber (subscriberId participantId : ℕ)
  | createDatawriter (datawriterId publisherId : ℕ) (ref : String)
  | createDatareader (datareaderId subscriberId : ℕ) (ref : String)
  | deleteParticipant (participantId : ℕ)
  | deleteTopic (topicId : ℕ)
  | deletePublisher (publisherId : ℕ)
  | deleteSubscriber (subscriberId : ℕ)
  | deleteDatawriter (datawriterId : ℕ)
  | deleteDatareader (datareaderId : ℕ)
  | others (e : CedTopicManager.Event)

/-- The middleware after an event. -/
def step (s : CedMiddleware) : Event → CedMiddleware
  | .createParticipant participantId domainId => (s.createParticipantByRef participantId domainId).1
  | .createTopic topicId participantId ref => (s.createTopicByRef topicId participantId ref).1
  | .createPublisher publisherId participantId =>
    (s.createPublisherByXml publisherId participantId).1
  | .createSubscriber subscriberId participantId =>
    (s.createSubscriberByXml subscriberId participantId).1
  | .createDatawriter datawriterId publisherId ref =>
    (s.createDatawriterByRef datawriterId publisherId ref).1
  | .createDatareader datareaderId subscriberId ref =>
    (s.createDatareaderByRef datareaderId subscriberId ref).1
  | .deleteParticipant participantId => (s.deleteParticipant participantId).1
  | .deleteTopic topicId => (s.deleteTopic topicId).1
  | .deletePublisher publisherId => (s.deletePublisher publisherId).1
  | .deleteSubscriber subscriberId => (s.deleteSubscriber subscriberId).1
  | .deleteDatawriter datawriterId => (s.deleteDatawriter datawriterId).1
  | .deleteDatareader datareaderId => (s.deleteDatareader datareaderId).1
  | .others e => { s with manager := s.manager.step e }

/-- A subscriber keeps a reference to the pointer that the map of participants holds, so it is not
used any more once its participant was deleted. -/
def Admitted (s : CedMiddleware) : Event → Prop
  | .createDatareader _ subscriberId _ =>
    ∀ participant, s.subscribers.lookup subscriberId = some participant →
      participant ∈ holders s.participants
  | _ => True

/-- A middleware, and the topics that `create_topic_by_ref` was asked for: which topic it gave
to the identifier, of which participant, and for which reference. -/
structure Run where
  middleware : CedMiddleware
  created : List (ℕ × ℕ × String)

/-- What one event adds to `created`. -/
def createdBy (s : CedMiddleware) : Event → List (ℕ × ℕ × String)
  | .createTopic topicId participantId ref =>
    match s.createTopicByRef topicId participantId ref, s.participants.lookup participantId with
    | (s', true), some participant =>
      (s'.topics.lookup topicId).toList.map fun topic => (topic, participant, ref)
    | _, _ => []
  | _ => []

/-- The run after an event. -/
def Run.step (r : Run) (e : Event) : Run :=
  ⟨r.middleware.step e, r.created ++ r.middleware.createdBy e⟩

/-- The runs from a new middleware and a new topic manager. -/
def Run.Reached (r : Run) : Prop :=
  Transition.Reaches (· = ⟨empty, []⟩) Run.step (fun r e => r.middleware.Admitted e) r

/-- The objects are in order, the topics have the names that were asked for, and the registers have
no others. -/
structure Run.Sound (r : Run) : Prop where
  sound : r.middleware.Sound
  created : ∀ topic participant ref, (topic, participant, ref) ∈ r.created →
    r.middleware.IsTopic topic participant (removeSuffixFormTopicRef ref)
  registers : ∀ participant name topic, r.middleware.registered participant name = some topic →
    ∃ ref, (topic, participant, ref) ∈ r.created ∧ removeSuffixFormTopicRef ref = name

/-- What an event does to the objects, where `topics` are those that it gave out. -/
structure Keeps (s s' : CedMiddleware) (topics : List (ℕ × ℕ × String)) : Prop where
  sound : s'.Sound
  kept : s.TopicsKept s'
  created : ∀ topic participant ref, (topic, participant, ref) ∈ topics →
    s'.IsTopic topic participant (removeSuffixFormTopicRef ref)
  registers : ∀ participant name topic, s'.registered participant name = some topic →
    s.registered participant name = some topic ∨
      ∃ ref, (topic, participant, ref) ∈ topics ∧ removeSuffixFormTopicRef ref = name

/-- Nothing happens. -/
lemma Keeps.refl (h : Sound s) : Keeps s s [] :=
  ⟨h, fun _ _ _ htopic => htopic, fun _ _ _ hmem => (by cases hmem),
    fun _ _ _ hfound => .inl hfound⟩

/-- The maps may hold other topics, as long as they are registered. -/
lemma Keeps.maps (h : Sound s) {s' : CedMiddleware}
    (hparticipants : s'.participantObjects = s.participantObjects)
    (htopics : s'.topicObjects = s.topicObjects) (hmanager : s'.manager = s.manager)
    (hheld : ∀ topic, s'.Held topic → s.Held topic ∨
      ∃ participant name, s.registered participant name = some topic) : Keeps s s' [] := by
  refine ⟨h.maps hparticipants htopics hmanager hheld, ?_, fun _ _ _ hmem => (by cases hmem), ?_⟩
  · rintro topic participant name ⟨g, hg, hname⟩
    exact ⟨g, by rw [htopics, hg], by rw [hmanager, hname]⟩
  · intro participant name topic hfound
    unfold registered at hfound ⊢
    rw [hparticipants] at hfound
    exact .inl hfound

/-- An entry goes away, and with the last one its topic. -/
lemma Keeps.delete (h : Sound s) {s' : CedMiddleware} {topic : ℕ}
    (hparticipants : s'.participantObjects = s.participantObjects)
    (htopics : s'.topicObjects = s.topicObjects) (hmanager : s'.manager = s.manager)
    (hheld : ∀ other, s'.Held other → s.Held other) (htopic : s.Held topic) :
    Keeps s (s'.dropTopic topic) [] := by
  have hmaps := Keeps.maps h hparticipants htopics hmanager fun other hother =>
    .inl (hheld other hother)
  obtain ⟨hsound, hkept, hregisters⟩ := hmaps.sound.dropTopic topic (by
    -- both are registered under the same name
    intro participant name other htopic' hother hother'
    obtain ⟨q, n, hold⟩ := h.held_topic topic htopic
    obtain ⟨rfl, rfl⟩ := (hmaps.kept topic q n hold).unique htopic'
    obtain ⟨q', n', hold'⟩ := h.held_topic other (hheld other hother)
    obtain ⟨rfl, rfl⟩ := (hmaps.kept other q' n' hold').unique hother'
    have hfound := h.held_registered topic _ _ htopic hold
    rw [h.held_registered other _ _ (hheld other hother) hold'] at hfound
    exact Option.some.inj hfound)
  refine ⟨hsound, fun t p n ht => hkept t p n (hmaps.kept t p n ht),
    fun _ _ _ hmem => (by cases hmem),
    fun p n t ht => hmaps.registers p n t (hregisters p n t ht)⟩

/-- A new participant has an empty register. -/
lemma Keeps.createParticipant (h : Sound s) (participantId : ℕ) (domainId : ℤ) :
    Keeps s (s.createParticipantByRef participantId domainId).1 [] := by
  unfold createParticipantByRef
  split
  · exact .refl h
  · have hregistered : ∀ p n, registered { s with
        participants := s.participants.insert participantId s.participantObjects.length
        participantObjects := s.participantObjects ++ [⟨domainId, ∅⟩] } p n = s.registered p n := by
      intro p n
      unfold registered
      dsimp only
      rcases Nat.lt_trichotomy p s.participantObjects.length with hlt | heq | hgt
      · rw [List.getElem?_append_left hlt]
      · rw [heq, List.getElem?_concat_length, List.getElem?_eq_none (Nat.le_refl _)]
        rfl
      · rw [List.getElem?_eq_none (Nat.le_of_lt hgt), List.getElem?_eq_none (by
          rw [List.length_append]
          exact hgt)]
    refine ⟨?_, fun _ _ _ htopic => htopic, fun _ _ _ hmem => (by cases hmem), ?_⟩
    · constructor
      case entryNames => exact h.entryNames
      case named => exact h.named
      case register_sound =>
        intro p n topic hfound
        rw [hregistered] at hfound
        exact h.register_sound p n topic hfound
      case held_registered =>
        intro topic p n hheld htopic
        rw [hregistered]
        exact h.held_registered topic p n hheld htopic
      case held_topic => exact h.held_topic
    · intro p n topic hfound
      rw [hregistered] at hfound
      exact .inl hfound

/-- A topic that is created for a reference is registered under its name. -/
lemma Keeps.createTopic (h : Sound s) (topicId participantId : ℕ) (ref : String) :
    Keeps s (s.createTopicByRef topicId participantId ref).1
      (s.createdBy (.createTopic topicId participantId ref)) := by
  unfold createdBy
  dsimp only
  unfold createTopicByRef
  rcases Option.eq_none_or_eq_some (s.participants.lookup participantId) with hp | ⟨p, hp⟩
  · simp only [hp]
    exact .refl h
  rcases Option.eq_none_or_eq_some (s.topics.lookup topicId) with ht | ⟨t, ht⟩
  · have hmade := h.createTopic p (removeSuffixFormTopicRef ref)
    obtain ⟨⟨s', found⟩, hs'⟩ : ∃ r, r = s.createTopic p (removeSuffixFormTopicRef ref) := ⟨_, rfl⟩
    rw [← hs'] at hmade
    simp only [hp, ht, ← hs']
    cases found with
    | none =>
      refine ⟨hmade.sound, hmade.kept, fun _ _ _ hmem => (by cases hmem), fun q n t hq => ?_⟩
      rcases hmade.registers q n t hq with hold | ⟨_, _, hnew⟩
      · exact .inl hold
      · cases hnew
    | some topic =>
      have hregistered := hmade.made topic rfl
      have hmaps : Keeps s' { s' with topics := s'.topics.insert topicId topic } [] := by
        refine .maps hmade.sound rfl rfl rfl fun other hother => ?_
        rcases hother with hother | hother
        · rcases holders_insert hother with rfl | hold
          · exact .inr ⟨p, _, hregistered⟩
          · exact .inl (.inl hold)
        · exact .inl (.inr hother)
      simp only [AList.lookup_insert, Option.toList_some, List.map_cons, List.map_nil]
      refine ⟨hmaps.sound, fun t q n hq => hmaps.kept t q n (hmade.kept t q n hq), ?_, ?_⟩
      · intro t q ref' hmem
        obtain ⟨rfl, rfl, rfl⟩ : t = topic ∧ q = p ∧ ref' = ref := by
          simpa only [List.mem_singleton, Prod.mk.injEq] using hmem
        exact hmaps.kept t q _ (hmade.sound.register_sound q _ t hregistered)
      · intro q n t hq
        rcases hmade.registers q n t hq with hold | ⟨rfl, rfl, hnew⟩
        · exact .inl hold
        · exact .inr ⟨ref, by rw [← Option.some.inj hnew]; exact List.mem_singleton_self _, rfl⟩
  · simp only [hp, ht]
    exact .refl h

/-- What a writer or a reader is created on is registered. -/
lemma Keeps.createDatawriter (h : Sound s) (datawriterId publisherId : ℕ) (ref : String) :
    Keeps s (s.createDatawriterByRef datawriterId publisherId ref).1 [] := by
  unfold createDatawriterByRef
  split
  · next participant _ _ =>
    split
    · next topic hfound =>
      refine .maps h rfl rfl rfl fun other hother => ?_
      rcases hother with hother | hother | hother
      · exact .inl (.inl hother)
      · rcases holders_insert hother with rfl | hold
        · exact .inr ⟨participant, _, (findTopic_eq_some_iff.mp hfound).1⟩
        · exact .inl (.inr (.inl hold))
      · exact .inl (.inr (.inr hother))
    · exact .refl h
  · exact .refl h

lemma Keeps.createDatareader (h : Sound s) (datareaderId subscriberId : ℕ) (ref : String) :
    Keeps s (s.createDatareaderByRef datareaderId subscriberId ref).1 [] := by
  unfold createDatareaderByRef
  split
  · next participant _ _ =>
    split
    · next topic hfound =>
      refine .maps h rfl rfl rfl fun other hother => ?_
      rcases hother with hother | hother | hother
      · exact .inl (.inl hother)
      · exact .inl (.inr (.inl hother))
      · rcases holders_insert hother with rfl | hold
        · exact .inr ⟨participant, _, (findTopic_eq_some_iff.mp hfound).1⟩
        · exact .inl (.inr (.inr hold))
    · exact .refl h
  · exact .refl h

/-- Whatever happens keeps the objects in order. -/
lemma Sound.step (h : Sound s) (e : Event) : Keeps s (s.step e) (s.createdBy e) := by
  cases e with
  | createParticipant participantId domainId => exact .createParticipant h participantId domainId
  | createTopic topicId participantId ref => exact .createTopic h topicId participantId ref
  | createPublisher publisherId participantId =>
    change Keeps s (s.createPublisherByXml publisherId participantId).1 []
    unfold createPublisherByXml
    split
    · exact .maps h rfl rfl rfl fun _ hheld => .inl hheld
    · exact .refl h
  | createSubscriber subscriberId participantId =>
    change Keeps s (s.createSubscriberByXml subscriberId participantId).1 []
    unfold createSubscriberByXml
    split
    · exact .maps h rfl rfl rfl fun _ hheld => .inl hheld
    · exact .refl h
  | createDatawriter datawriterId publisherId ref =>
    exact .createDatawriter h datawriterId publisherId ref
  | createDatareader datareaderId subscriberId ref =>
    exact .createDatareader h datareaderId subscriberId ref
  | deleteParticipant participantId => exact .maps h rfl rfl rfl fun _ hheld => .inl hheld
  | deletePublisher publisherId => exact .maps h rfl rfl rfl fun _ hheld => .inl hheld
  | deleteSubscriber subscriberId => exact .maps h rfl rfl rfl fun _ hheld => .inl hheld
  | deleteTopic topicId =>
    change Keeps s (s.deleteTopic topicId).1 []
    unfold deleteTopic
    split
    · exact .refl h
    · next topic htopic =>
      exact .delete h rfl rfl rfl (fun other hother => hother.imp_left holders_erase)
        (.inl ((mem_holders_iff _ _).mpr ⟨topicId, htopic⟩))
  | deleteDatawriter datawriterId =>
    change Keeps s (s.deleteDatawriter datawriterId).1 []
    unfold deleteDatawriter
    split
    · exact .refl h
    · next topic htopic =>
      exact .delete h rfl rfl rfl
        (fun other hother => hother.imp_right fun hother => hother.imp_left holders_erase)
        (.inr (.inl ((mem_holders_iff _ _).mpr ⟨datawriterId, htopic⟩)))
  | deleteDatareader datareaderId =>
    change Keeps s (s.deleteDatareader datareaderId).1 []
    unfold deleteDatareader
    split
    · exact .refl h
    · next topic htopic =>
      exact .delete h rfl rfl rfl
        (fun other hother => hother.imp_right fun hother => hother.imp_right holders_erase)
        (.inr (.inr ((mem_holders_iff _ _).mpr ⟨datareaderId, htopic⟩)))
  | others e =>
    have hkept := CedTopicManager.NamesKept.step s.manager e
    refine ⟨h.withManager hkept, ?_, fun _ _ _ hmem => (by cases hmem),
      fun _ _ _ hfound => .inl hfound⟩
    rintro topic participant name ⟨g, hg, hname⟩
    exact ⟨g, hg, hkept.nameOf g name hname⟩

/-- An event keeps a run in order. -/
lemma Run.Sound.step {r : Run} (h : r.Sound) (e : Event) : (r.step e).Sound := by
  have hkeeps := h.sound.step e
  refine ⟨hkeeps.sound, fun topic participant ref hmem => ?_,
    fun participant name topic hfound => ?_⟩
  · rcases List.mem_append.mp hmem with hold | hnew
    · exact hkeeps.kept _ _ _ (h.created topic participant ref hold)
    · exact hkeeps.created topic participant ref hnew
  · rcases hkeeps.registers participant name topic hfound with hold | ⟨ref, hmem, hname⟩
    · obtain ⟨ref, hmem, hname⟩ := h.registers participant name topic hold
      exact ⟨ref, List.mem_append_left _ hmem, hname⟩
    · exact ⟨ref, List.mem_append_right _ hmem, hname⟩

/-- Every run is in order. -/
theorem Run.Reached.sound {r : Run} (h : r.Reached) : r.Sound := by
  refine Transition.Reaches.invariant ?_ (fun r e hr _ => hr.step e) h
  rintro r rfl
  refine ⟨?_, fun _ _ _ hmem => (by cases hmem), fun _ _ _ hfound => (by cases hfound)⟩
  constructor
  case entryNames => intro d n t hfound; cases hfound
  case named => intro t o ho; cases ho
  case register_sound => intro p n t hfound; cases hfound
  case held_registered => rintro t p n (h | h | h) <;> cases h
  case held_topic => rintro t (h | h | h) <;> cases h

/-! ## Writers and readers -/

/-- The global topic of a writer. -/
def datawriterGlobalTopic (s : CedMiddleware) (datawriterId : ℕ) : Option ℕ :=
  (s.datawriters.lookup datawriterId).bind s.globalTopicOf

/-- The global topic of a reader. -/
def datareaderGlobalTopic (s : CedMiddleware) (datareaderId : ℕ) : Option ℕ :=
  (s.datareaders.lookup datareaderId).bind s.globalTopicOf

/-- A writer and a reader are on topics of these names. -/
structure Linked (s : CedMiddleware) (datawriterId datareaderId participant : ℕ)
    (name₁ name₂ : String) : Prop where
  sound : s.Sound
  writer : ∃ topic, s.datawriters.lookup datawriterId = some topic ∧
    s.IsTopic topic participant name₁
  reader : ∃ topic, s.datareaders.lookup datareaderId = some topic ∧
    s.IsTopic topic participant name₂

section

variable {datawriterId datareaderId participant : ℕ} {name₁ name₂ : String}

/-- They are on the same global topic exactly when the names are the same. -/
lemma Linked.globalTopic_iff (h : Linked s datawriterId datareaderId participant name₁ name₂) :
    s.datawriterGlobalTopic datawriterId = s.datareaderGlobalTopic datareaderId ↔
      name₁ = name₂ := by
  obtain ⟨topic₁, hwriter, htopic₁⟩ := h.writer
  obtain ⟨topic₂, hreader, htopic₂⟩ := h.reader
  unfold datawriterGlobalTopic datareaderGlobalTopic
  rw [hwriter, hreader, Option.bind_some, Option.bind_some]
  constructor
  · intro heq
    obtain ⟨g₁, hg₁, hname₁⟩ := htopic₁
    obtain ⟨g₂, hg₂, hname₂⟩ := htopic₂
    unfold globalTopicOf at heq
    rw [hg₁, hg₂] at heq
    obtain rfl : g₁ = g₂ := Option.some.inj heq
    exact Option.some.inj (hname₁.symm.trans hname₂)
  · rintro rfl
    have hheld₁ : s.Held topic₁ := .inr (.inl ((mem_holders_iff _ _).mpr ⟨datawriterId, hwriter⟩))
    have hheld₂ : s.Held topic₂ := .inr (.inr ((mem_holders_iff _ _).mpr ⟨datareaderId, hreader⟩))
    have hsame := h.sound.held_registered topic₁ participant name₁ hheld₁ htopic₁
    rw [h.sound.held_registered topic₂ participant name₁ hheld₂ htopic₂] at hsame
    rw [Option.some.inj hsame]

/-- Writers and readers stay on their topics, unless the event deletes them. -/
structure EndpointsKept (s s' : CedMiddleware) (e : Event) : Prop where
  datawriters : ∀ id topic, s.datawriters.lookup id = some topic → e ≠ .deleteDatawriter id →
    s'.datawriters.lookup id = some topic
  datareaders : ∀ id topic, s.datareaders.lookup id = some topic → e ≠ .deleteDatareader id →
    s'.datareaders.lookup id = some topic

/-- The maps of the writers and the readers are the same. -/
lemma EndpointsKept.of_eq {s' : CedMiddleware} (e : Event)
    (hdatawriters : s'.datawriters = s.datawriters)
    (hdatareaders : s'.datareaders = s.datareaders) : EndpointsKept s s' e :=
  ⟨fun _ _ h _ => by rw [hdatawriters, h], fun _ _ h _ => by rw [hdatareaders, h]⟩

/-- An identifier that is taken is not given to another entity. -/
lemma lookup_insert_of_free {entities : AList fun _ : ℕ => ℕ} {id id' topic topic' : ℕ}
    (hfree : entities.lookup id' = none) (h : entities.lookup id = some topic) :
    (entities.insert id' topic').lookup id = some topic := by
  have hne : id ≠ id' := by
    rintro rfl
    rw [hfree] at h
    cases h
  exact (AList.lookup_insert_ne hne).trans h

/-- Writers and readers stay on their topics until they are deleted. -/
lemma Sound.endpointsKept (h : Sound s) (e : Event) : EndpointsKept s (s.step e) e := by
  cases e with
  | createParticipant participantId domainId =>
    change EndpointsKept s (s.createParticipantByRef participantId domainId).1 _
    unfold createParticipantByRef
    split <;> exact .of_eq _ rfl rfl
  | createTopic topicId participantId ref =>
    change EndpointsKept s (s.createTopicByRef topicId participantId ref).1 _
    unfold createTopicByRef
    split
    · next p _ _ =>
      have hsame := (h.createTopic p (removeSuffixFormTopicRef ref)).sameMaps
      split
      all_goals
        next heq =>
        rw [heq] at hsame
        exact .of_eq _ hsame.datawriters hsame.datareaders
    · exact .of_eq _ rfl rfl
  | createPublisher publisherId participantId =>
    change EndpointsKept s (s.createPublisherByXml publisherId participantId).1 _
    unfold createPublisherByXml
    split <;> exact .of_eq _ rfl rfl
  | createSubscriber subscriberId participantId =>
    change EndpointsKept s (s.createSubscriberByXml subscriberId participantId).1 _
    unfold createSubscriberByXml
    split <;> exact .of_eq _ rfl rfl
  | createDatawriter datawriterId publisherId ref =>
    change EndpointsKept s (s.createDatawriterByRef datawriterId publisherId ref).1 _
    unfold createDatawriterByRef
    split
    · next hfree =>
      split
      · exact ⟨fun _ _ hid _ => lookup_insert_of_free hfree hid, fun _ _ hid _ => hid⟩
      · exact .of_eq _ rfl rfl
    · exact .of_eq _ rfl rfl
  | createDatareader datareaderId subscriberId ref =>
    change EndpointsKept s (s.createDatareaderByRef datareaderId subscriberId ref).1 _
    unfold createDatareaderByRef
    split
    · next hfree =>
      split
      · exact ⟨fun _ _ hid _ => hid, fun _ _ hid _ => lookup_insert_of_free hfree hid⟩
      · exact .of_eq _ rfl rfl
    · exact .of_eq _ rfl rfl
  | deleteParticipant participantId => exact .of_eq _ rfl rfl
  | deletePublisher publisherId => exact .of_eq _ rfl rfl
  | deleteSubscriber subscriberId => exact .of_eq _ rfl rfl
  | deleteTopic topicId =>
    change EndpointsKept s (s.deleteTopic topicId).1 _
    unfold deleteTopic
    split
    · exact .of_eq _ rfl rfl
    · exact .of_eq _ (SameMaps.dropTopic _ _).datawriters (SameMaps.dropTopic _ _).datareaders
  | deleteDatawriter datawriterId =>
    change EndpointsKept s (s.deleteDatawriter datawriterId).1 _
    unfold deleteDatawriter
    split
    · exact .of_eq _ rfl rfl
    · refine ⟨fun id topic hid hne => ?_, fun id topic hid _ => ?_⟩
      · rw [(SameMaps.dropTopic _ _).datawriters]
        exact (AList.lookup_erase_ne fun heq => hne (by rw [heq])).trans hid
      · rw [(SameMaps.dropTopic _ _).datareaders]
        exact hid
  | deleteDatareader datareaderId =>
    change EndpointsKept s (s.deleteDatareader datareaderId).1 _
    unfold deleteDatareader
    split
    · exact .of_eq _ rfl rfl
    · refine ⟨fun id topic hid _ => ?_, fun id topic hid hne => ?_⟩
      · rw [(SameMaps.dropTopic _ _).datawriters]
        exact hid
      · rw [(SameMaps.dropTopic _ _).datareaders]
        exact (AList.lookup_erase_ne fun heq => hne (by rw [heq])).trans hid
  | others e => exact .of_eq _ rfl rfl

/-- They stay linked until one of them is deleted. -/
lemma Linked.foldl (h : Linked s datawriterId datareaderId participant name₁ name₂)
    (es : List Event) (hes : ∀ e ∈ es, e ≠ .deleteDatawriter datawriterId ∧
      e ≠ .deleteDatareader datareaderId) :
    Linked (es.foldl step s) datawriterId datareaderId participant name₁ name₂ ∧
      s.TopicsKept (es.foldl step s) := by
  induction es generalizing s with
  | nil => exact ⟨h, fun _ _ _ htopic => htopic⟩
  | cons e es ih =>
    obtain ⟨topic₁, hwriter, htopic₁⟩ := h.writer
    obtain ⟨topic₂, hreader, htopic₂⟩ := h.reader
    have hkeeps := h.sound.step e
    have hendpoints := h.sound.endpointsKept e
    have he := hes e List.mem_cons_self
    have hnext : Linked (s.step e) datawriterId datareaderId participant name₁ name₂ :=
      ⟨hkeeps.sound,
        ⟨topic₁, hendpoints.datawriters _ _ hwriter he.1, hkeeps.kept _ _ _ htopic₁⟩,
        ⟨topic₂, hendpoints.datareaders _ _ hreader he.2, hkeeps.kept _ _ _ htopic₂⟩⟩
    obtain ⟨hlinked, hkept⟩ := ih hnext fun e' he' => hes e' (List.mem_cons_of_mem _ he')
    exact ⟨hlinked, fun t p n ht => hkept t p n (hkeeps.kept t p n ht)⟩

/-! ## Creating a writer and a reader -/

/-- A writer of a free identifier is created on the topic that its reference finds. -/
lemma createDatawriterByRef_of_found {publisherId topic : ℕ} {ref : String}
    (hpublisher : s.publishers.lookup publisherId = some participant)
    (hfree : s.datawriters.lookup datawriterId = none)
    (hfound : s.findTopic participant (removeSuffixFormDatawriterRef ref) = some topic) :
    s.createDatawriterByRef datawriterId publisherId ref =
      ({ s with datawriters := s.datawriters.insert datawriterId topic }, true) := by
  unfold createDatawriterByRef
  simp only [hpublisher, hfree, hfound]

/-- A writer that is created has a topic that its reference finds. -/
lemma findTopic_of_createDatawriterByRef {publisherId : ℕ} {ref : String}
    (hpublisher : s.publishers.lookup publisherId = some participant)
    (h : (s.createDatawriterByRef datawriterId publisherId ref).2 = true) :
    ∃ topic, s.findTopic participant (removeSuffixFormDatawriterRef ref) = some topic := by
  unfold createDatawriterByRef at h
  split at h
  · next p _ hp _ =>
    rw [hpublisher] at hp
    obtain rfl := Option.some.inj hp
    split at h
    · next topic htopic => exact ⟨topic, htopic⟩
    · cases h
  · cases h

/-- A reader of a free identifier is created on the topic that its reference finds. -/
lemma createDatareaderByRef_of_found {subscriberId topic : ℕ} {ref : String}
    (hsubscriber : s.subscribers.lookup subscriberId = some participant)
    (hfree : s.datareaders.lookup datareaderId = none)
    (hfound : s.findTopic participant (removeSuffixFormDatareaderRef ref) = some topic) :
    s.createDatareaderByRef datareaderId subscriberId ref =
      ({ s with datareaders := s.datareaders.insert datareaderId topic }, true) := by
  unfold createDatareaderByRef
  simp only [hsubscriber, hfree, hfound]

/-- A reader that is created has a topic that its reference finds. -/
lemma findTopic_of_createDatareaderByRef {subscriberId : ℕ} {ref : String}
    (hsubscriber : s.subscribers.lookup subscriberId = some participant)
    (h : (s.createDatareaderByRef datareaderId subscriberId ref).2 = true) :
    ∃ topic, s.findTopic participant (removeSuffixFormDatareaderRef ref) = some topic := by
  unfold createDatareaderByRef at h
  split at h
  · next p _ hp _ =>
    rw [hsubscriber] at hp
    obtain rfl := Option.some.inj hp
    split at h
    · next topic htopic => exact ⟨topic, htopic⟩
    · cases h
  · cases h

/-- A new writer on a topic that is held does not change which topics are found. -/
lemma findTopic_withDatawriter {topic : ℕ} (hfree : s.datawriters.lookup datawriterId = none)
    (hheld : s.Held topic) (p : ℕ) (n : String) :
    findTopic { s with datawriters := s.datawriters.insert datawriterId topic } p n =
      s.findTopic p n := by
  ext found
  rw [findTopic_eq_some_iff, findTopic_eq_some_iff]
  refine and_congr_right fun _ => ⟨?_, ?_⟩
  · rintro (h | h | h)
    · exact .inl h
    · rcases holders_insert h with rfl | hold
      · exact hheld
      · exact .inr (.inl hold)
    · exact .inr (.inr h)
  · rintro (h | h | h)
    · exact .inl h
    · obtain ⟨id, hid⟩ := (mem_holders_iff _ _).mp h
      exact .inr (.inl ((mem_holders_iff _ _).mpr ⟨id, lookup_insert_of_free hfree hid⟩))
    · exact .inr (.inr h)

/-- Both are created when their references find topics, and are then linked. -/
lemma Sound.linked (h : Sound s) {publisherId subscriberId topic₁ topic₂ : ℕ} {ref₁ ref₂ : String}
    (hpublisher : s.publishers.lookup publisherId = some participant)
    (hsubscriber : s.subscribers.lookup subscriberId = some participant)
    (hwriter : s.datawriters.lookup datawriterId = none)
    (hreader : s.datareaders.lookup datareaderId = none)
    (htopic₁ : s.findTopic participant (removeSuffixFormDatawriterRef ref₁) = some topic₁)
    (htopic₂ : s.findTopic participant (removeSuffixFormDatareaderRef ref₂) = some topic₂) :
    let w := s.createDatawriterByRef datawriterId publisherId ref₁
    let r := w.1.createDatareaderByRef datareaderId subscriberId ref₂
    w.2 = true ∧ r.2 = true ∧ s.TopicsKept r.1 ∧ Linked r.1 datawriterId datareaderId participant
      (removeSuffixFormDatawriterRef ref₁) (removeSuffixFormDatareaderRef ref₂) := by
  intro w r
  have hkeeps₁ := Keeps.createDatawriter h datawriterId publisherId ref₁
  have hkeeps₂ := Keeps.createDatareader hkeeps₁.sound datareaderId subscriberId ref₂
  have hw : w = _ := createDatawriterByRef_of_found hpublisher hwriter htopic₁
  have hfound₁ := findTopic_eq_some_iff.mp htopic₁
  have hfound₂ := findTopic_eq_some_iff.mp htopic₂
  have hkept : s.TopicsKept r.1 := fun t p n ht => hkeeps₂.kept t p n (hkeeps₁.kept t p n ht)
  have hr : r = _ := createDatareaderByRef_of_found (s := w.1)
    (by rw [hw]; exact hsubscriber) (by rw [hw]; exact hreader)
    (by rw [hw]; exact (findTopic_withDatawriter hwriter hfound₁.2 _ _).trans htopic₂)
  refine ⟨by rw [hw], by rw [hr], hkept, hkeeps₂.sound, ⟨topic₁, ?_, ?_⟩, ⟨topic₂, ?_, ?_⟩⟩
  · rw [hr, hw]
    exact AList.lookup_insert _
  · exact hkept _ _ _ (h.register_sound _ _ _ hfound₁.1)
  · rw [hr]
    exact AList.lookup_insert _
  · exact hkept _ _ _ (h.register_sound _ _ _ hfound₂.1)

end

/-! ## Which references connect -/

/-- The references of a writer and a reader match, those of the topics that were created do, and
both are on the same global topic exactly when the names are the same. -/
def Connected (s : CedMiddleware) (datawriterId datareaderId topic₁ topic₂ : ℕ)
    (n₁ n₂ : String) : Prop :=
  s.matchedDatawriterFromRef datawriterId (n₁ ++ "__dw") = true ∧
    s.matchedDatareaderFromRef datareaderId (n₂ ++ "__dr") = true ∧
    (∀ topicId, s.topics.lookup topicId = some topic₁ →
      s.matchedTopicFromRef topicId (n₁ ++ "__t") = true) ∧
    (∀ topicId, s.topics.lookup topicId = some topic₂ →
      s.matchedTopicFromRef topicId (n₂ ++ "__t") = true) ∧
    (s.datawriterGlobalTopic datawriterId = s.datareaderGlobalTopic datareaderId ↔ n₁ = n₂)

/-- Once both topics were created on a participant, a writer and a reader of these names can be
created there, and are connected as long as they are not deleted. -/
def Run.Connects (r : Run) (n₁ n₂ : String) : Prop :=
  ∀ (participantId participant topic₁ topic₂ publisherId subscriberId datawriterId
    datareaderId : ℕ),
    r.middleware.participants.lookup participantId = some participant →
    (topic₁, participant, n₁ ++ "__t") ∈ r.created →
    (topic₂, participant, n₂ ++ "__t") ∈ r.created →
    r.middleware.Held topic₁ → r.middleware.Held topic₂ →
    r.middleware.publishers.lookup publisherId = some participant →
    r.middleware.subscribers.lookup subscriberId = some participant →
    r.middleware.datawriters.lookup datawriterId = none →
    r.middleware.datareaders.lookup datareaderId = none →
    let w := r.middleware.createDatawriterByRef datawriterId publisherId (n₁ ++ "__dw")
    let d := w.1.createDatareaderByRef datareaderId subscriberId (n₂ ++ "__dr")
    w.2 = true ∧ d.2 = true ∧ ∀ es : List Event,
      Transition.AdmittedAll CedMiddleware.step Admitted d.1 es →
      (∀ e ∈ es, e ≠ .deleteDatawriter datawriterId ∧ e ≠ .deleteDatareader datareaderId) →
      (es.foldl CedMiddleware.step d.1).Connected datawriterId datareaderId topic₁ topic₂ n₁ n₂

/-- The references of a name, as the middleware cuts them. -/
lemma refs_eq (n : String) :
    removeSuffixFormTopicRef (n ++ "__t") = String.ofList (CutAt.cutAt topicSuffix n.toList) ∧
    removeSuffixFormDatawriterRef (n ++ "__dw") =
      String.ofList (CutAt.cutAt datawriterSuffix n.toList) ∧
    removeSuffixFormDatareaderRef (n ++ "__dr") =
      String.ofList (CutAt.cutAt datareaderSuffix n.toList) :=
  ⟨removeSuffix_append (show topicSuffix ∈ _ by decide) n,
    removeSuffix_append (show datawriterSuffix ∈ _ by decide) n,
    removeSuffix_append (show datareaderSuffix ∈ _ by decide) n⟩

/-- Clean names, by what their references are cut to. -/
lemma cleanNames_iff_refs (n₁ n₂ : String) :
    CleanNames n₁ n₂ ↔
      (removeSuffixFormDatawriterRef (n₁ ++ "__dw") = removeSuffixFormTopicRef (n₁ ++ "__t") ∨
        removeSuffixFormDatawriterRef (n₁ ++ "__dw") = removeSuffixFormTopicRef (n₂ ++ "__t")) ∧
      (removeSuffixFormDatareaderRef (n₂ ++ "__dr") = removeSuffixFormTopicRef (n₁ ++ "__t") ∨
        removeSuffixFormDatareaderRef (n₂ ++ "__dr") = removeSuffixFormTopicRef (n₂ ++ "__t")) ∧
      (removeSuffixFormDatawriterRef (n₁ ++ "__dw") = removeSuffixFormDatareaderRef (n₂ ++ "__dr") ↔
        n₁ = n₂) := by
  rw [cleanNames_iff, (refs_eq n₁).1, (refs_eq n₁).2.1, (refs_eq n₂).1, (refs_eq n₂).2.2,
    String.ofList_inj, String.ofList_inj, String.ofList_inj, String.ofList_inj, String.ofList_inj]

/-- The names that clean references are cut to. -/
lemma refs_of_cleanNames {n₁ n₂ : String} (h : CleanNames n₁ n₂) :
    removeSuffixFormDatawriterRef (n₁ ++ "__dw") = removeSuffixFormTopicRef (n₁ ++ "__t") ∧
      removeSuffixFormDatareaderRef (n₂ ++ "__dr") = removeSuffixFormTopicRef (n₂ ++ "__t") := by
  rw [(refs_eq n₁).1, (refs_eq n₁).2.1, (refs_eq n₂).1, (refs_eq n₂).2.2, String.ofList_inj,
    String.ofList_inj, cutAt_endpoint_eq_iff (by decide), cutAt_endpoint_eq_iff (by decide)]
  exact ⟨⟨h.1, h.2.1⟩, h.2.2⟩

/-- A reference matches the topic of its name. -/
lemma IsTopic.matchedTopicFromRef {topicId topic participant : ℕ} {ref : String}
    (h : s.IsTopic topic participant (removeSuffixFormTopicRef ref))
    (hid : s.topics.lookup topicId = some topic) : s.matchedTopicFromRef topicId ref = true := by
  unfold CedMiddleware.matchedTopicFromRef
  simp only [hid, h.topicName_eq, decide_true]

lemma IsTopic.matchedDatawriterFromRef {datawriterId topic participant : ℕ} {ref : String}
    (h : s.IsTopic topic participant (removeSuffixFormDatawriterRef ref))
    (hid : s.datawriters.lookup datawriterId = some topic) :
    s.matchedDatawriterFromRef datawriterId ref = true := by
  unfold CedMiddleware.matchedDatawriterFromRef
  simp only [hid, h.topicName_eq, decide_true]

lemma IsTopic.matchedDatareaderFromRef {datareaderId topic participant : ℕ} {ref : String}
    (h : s.IsTopic topic participant (removeSuffixFormDatareaderRef ref))
    (hid : s.datareaders.lookup datareaderId = some topic) :
    s.matchedDatareaderFromRef datareaderId ref = true := by
  unfold CedMiddleware.matchedDatareaderFromRef
  simp only [hid, h.topicName_eq, decide_true]

/-- Clean names connect. -/
lemma Run.Sound.connects {r : Run} (h : r.Sound) {n₁ n₂ : String} (hclean : CleanNames n₁ n₂) :
    r.Connects n₁ n₂ := by
  intro participantId participant topic₁ topic₂ publisherId subscriberId datawriterId datareaderId
    _ hcreated₁ hcreated₂ hheld₁ hheld₂ hpublisher hsubscriber hwriter hreader w d
  obtain ⟨hw, hr⟩ := refs_of_cleanNames hclean
  have htopic₁ := h.created topic₁ participant _ hcreated₁
  have htopic₂ := h.created topic₂ participant _ hcreated₂
  have hfound₁ := findTopic_eq_some_iff.mpr
    ⟨h.sound.held_registered topic₁ participant _ hheld₁ htopic₁, hheld₁⟩
  have hfound₂ := findTopic_eq_some_iff.mpr
    ⟨h.sound.held_registered topic₂ participant _ hheld₂ htopic₂, hheld₂⟩
  rw [← hw] at hfound₁
  rw [← hr] at hfound₂
  obtain ⟨hw2, hd2, hkept, hlinked⟩ :=
    h.sound.linked hpublisher hsubscriber hwriter hreader hfound₁ hfound₂
  refine ⟨hw2, hd2, fun es _ hes => ?_⟩
  obtain ⟨hfinal, hkept'⟩ := hlinked.foldl es hes
  have hend₁ := hkept' _ _ _ (hkept _ _ _ htopic₁)
  have hend₂ := hkept' _ _ _ (hkept _ _ _ htopic₂)
  obtain ⟨t₁, ht₁, hname₁⟩ := hfinal.writer
  obtain ⟨t₂, ht₂, hname₂⟩ := hfinal.reader
  refine ⟨?_, ?_, fun topicId hid => ?_, fun topicId hid => ?_, ?_⟩
  · exact hname₁.matchedDatawriterFromRef ht₁
  · exact hname₂.matchedDatareaderFromRef ht₂
  · exact hend₁.matchedTopicFromRef hid
  · exact hend₂.matchedTopicFromRef hid
  · exact hfinal.globalTopic_iff.trans ((cleanNames_iff_refs n₁ n₂).mp hclean).2.2

/-! ## A run that creates both topics -/

/-- A name that is neither registered nor with the manager gets a new topic. -/
lemma createTopic_of_fresh {p : CedParticipant} {participant : ℕ} {name : String}
    (hp : s.participantObjects[participant]? = some p) (hname : p.topicRegister.lookup name = none)
    (hfind : s.manager.find p.domainId name = none) :
    s.createTopic participant name =
      ({ s with
         participantObjects := s.participantObjects.set participant
           { p with topicRegister := p.topicRegister.insert name s.topicObjects.length }
         topicObjects := s.topicObjects ++ [⟨participant, s.manager.objects.length⟩]
         manager := s.manager.withTopic name p.domainId }, some s.topicObjects.length) := by
  have hnone : s.findTopic participant name = none := by
    unfold findTopic
    simp only [hp, Option.bind_some, hname]
  have hnew : topicName { s with
      manager := s.manager.withTopic name p.domainId
      topicObjects := s.topicObjects ++ [⟨participant, s.manager.objects.length⟩] }
      s.topicObjects.length = some name := by
    unfold topicName
    dsimp only
    rw [List.getElem?_concat_length]
    exact (CedTopicManager.nameOf_withTopic s.manager name p.domainId).1
  unfold createTopic
  simp only [hnone, hp, CedTopicManager.registerTopic_of_none hfind]
  unfold registerTopic
  simp only [hnew, hp, hname, if_true]

/-- A new topic is given to a free identifier. -/
lemma createTopicByRef_of_some (topicId participantId : ℕ) (ref : String) {participant topic : ℕ}
    {s' : CedMiddleware} (hp : s.participants.lookup participantId = some participant)
    (ht : s.topics.lookup topicId = none)
    (hmade : s.createTopic participant (removeSuffixFormTopicRef ref) = (s', some topic)) :
    s.createTopicByRef topicId participantId ref =
        ({ s' with topics := s'.topics.insert topicId topic }, true) ∧
      s.createdBy (.createTopic topicId participantId ref) = [(topic, participant, ref)] := by
  have heq : s.createTopicByRef topicId participantId ref =
      ({ s' with topics := s'.topics.insert topicId topic }, true) := by
    unfold createTopicByRef
    simp only [hp, ht, hmade]
  refine ⟨heq, ?_⟩
  unfold createdBy
  simp only [heq, hp, AList.lookup_insert, Option.toList_some, List.map_cons, List.map_nil]

/-- A run that did nothing but create a participant and two topics on it, and a publisher and a
subscriber of the participant. -/
structure Run.TwoTopics (r : Run) (topic₁ topic₂ : ℕ) (ref₁ ref₂ : String) : Prop where
  reached : r.Reached
  created : r.created = [(topic₁, 0, ref₁), (topic₂, 0, ref₂)]
  participant : r.middleware.participants.lookup 0 = some 0
  held₁ : r.middleware.Held topic₁
  held₂ : r.middleware.Held topic₂
  publisher : r.middleware.publishers.lookup 3 = some 0
  subscriber : r.middleware.subscribers.lookup 4 = some 0
  datawriters : r.middleware.datawriters = ∅
  datareaders : r.middleware.datareaders = ∅

/-- The middleware after its first topic was created. -/
def afterFirst (name : String) : CedMiddleware where
  participants := (∅ : AList fun _ : ℕ => ℕ).insert 0 0
  topics := (∅ : AList fun _ : ℕ => ℕ).insert 1 0
  publishers := ∅
  subscribers := ∅
  datawriters := ∅
  datareaders := ∅
  participantObjects := [⟨0, (∅ : AList fun _ : String => ℕ).insert name 0⟩]
  topicObjects := [⟨0, 0⟩]
  manager := CedTopicManager.empty.withTopic name 0

/-- The first topic is created. -/
lemma run_afterFirst (ref : String) :
    [Event.createParticipant 0 0, .createTopic 1 0 ref].foldl Run.step ⟨empty, []⟩ =
      ⟨afterFirst (removeSuffixFormTopicRef ref), [(0, 0, ref)]⟩ := by
  have hfresh : (empty.createParticipantByRef 0 0).1.createTopic 0 (removeSuffixFormTopicRef ref) =
      _ := createTopic_of_fresh (p := ⟨0, ∅⟩) rfl rfl rfl
  obtain ⟨hmade, hcreated⟩ := createTopicByRef_of_some 1 0 ref rfl rfl hfresh
  change Run.mk ((empty.createParticipantByRef 0 0).1.createTopicByRef 1 0 ref).1
    ([] ++ (empty.createParticipantByRef 0 0).1.createdBy (.createTopic 1 0 ref)) = _
  rw [hmade, hcreated]
  rfl

/-- The second topic is created, unless it is the first. -/
lemma exists_createTopic_afterFirst (name₁ name₂ : String) :
    ∃ s' topic, (afterFirst name₁).createTopic 0 name₂ = (s', some topic) ∧
      SameMaps (afterFirst name₁) s' := by
  by_cases heq : name₂ = name₁
  · have hfound : (afterFirst name₁).findTopic 0 name₂ = some 0 := by
      rw [findTopic_eq_some_iff, heq]
      exact ⟨AList.lookup_insert _, .inl ((mem_holders_iff _ _).mpr ⟨1, AList.lookup_insert _⟩)⟩
    refine ⟨afterFirst name₁, 0, ?_, ⟨rfl, rfl, rfl, rfl, rfl, rfl⟩⟩
    unfold createTopic
    simp only [hfound]
  · have hname : ((∅ : AList fun _ : String => ℕ).insert name₁ 0).lookup name₂ = none := by
      rw [AList.lookup_insert_ne heq]
      rfl
    have hfind : (afterFirst name₁).manager.find 0 name₂ = none := by
      change (CedTopicManager.empty.withTopic name₁ 0).find 0 name₂ = none
      unfold CedTopicManager.withTopic
      rw [CedTopicManager.find_register, if_neg fun h => heq h.2]
      rfl
    exact ⟨_, _, createTopic_of_fresh (s := afterFirst name₁) rfl hname hfind,
      ⟨rfl, rfl, rfl, rfl, rfl, rfl⟩⟩

/-- There is such a run for every two references. -/
lemma exists_twoTopics (ref₁ ref₂ : String) :
    ∃ (r : Run) (topic₁ topic₂ : ℕ), r.TwoTopics topic₁ topic₂ ref₁ ref₂ := by
  obtain ⟨s', topic₂, hmade, hsame⟩ := exists_createTopic_afterFirst
    (removeSuffixFormTopicRef ref₁) (removeSuffixFormTopicRef ref₂)
  have hstart : Transition.Reaches (· = ⟨empty, []⟩) Run.step
      (fun r e => r.middleware.Admitted e) ⟨empty, []⟩ := .start rfl
  have hfirst := hstart.foldl [.createParticipant 0 0, .createTopic 1 0 ref₁]
    ⟨trivial, trivial, trivial⟩
  rw [run_afterFirst] at hfirst
  have hlast := hfirst.foldl [.createTopic 2 0 ref₂, .createPublisher 3 0, .createSubscriber 4 0]
    ⟨trivial, trivial, trivial, trivial⟩
  obtain ⟨hsecond, hcreated⟩ := createTopicByRef_of_some (s := afterFirst _) 2 0 ref₂ rfl rfl
    hmade
  have hstep : Run.step ⟨afterFirst (removeSuffixFormTopicRef ref₁), [(0, 0, ref₁)]⟩
      (.createTopic 2 0 ref₂) =
      ⟨{ s' with topics := s'.topics.insert 2 topic₂ }, [(0, 0, ref₁), (topic₂, 0, ref₂)]⟩ := by
    change Run.mk ((afterFirst _).createTopicByRef 2 0 ref₂).1
      ([(0, 0, ref₁)] ++ (afterFirst _).createdBy (.createTopic 2 0 ref₂)) = _
    rw [hsecond, hcreated]
    rfl
  have hpublisher : createPublisherByXml { s' with topics := s'.topics.insert 2 topic₂ } 3 0 =
      ({ s' with topics := s'.topics.insert 2 topic₂, publishers := s'.publishers.insert 3 0 },
        true) := by
    unfold createPublisherByXml
    have hp : s'.participants.lookup 0 = some 0 := by rw [hsame.participants]; rfl
    have hfree : s'.publishers.lookup 3 = none := by rw [hsame.publishers]; rfl
    simp only [hp, hfree]
  have hsubscriber : createSubscriberByXml
      { s' with topics := s'.topics.insert 2 topic₂, publishers := s'.publishers.insert 3 0 } 4 0 =
      ({ s' with
         topics := s'.topics.insert 2 topic₂
         publishers := s'.publishers.insert 3 0
         subscribers := s'.subscribers.insert 4 0 }, true) := by
    unfold createSubscriberByXml
    have hp : s'.participants.lookup 0 = some 0 := by rw [hsame.participants]; rfl
    have hfree : s'.subscribers.lookup 4 = none := by rw [hsame.subscribers]; rfl
    simp only [hp, hfree]
  have hfinal : [Event.createTopic 2 0 ref₂, .createPublisher 3 0, .createSubscriber 4 0].foldl
      Run.step ⟨afterFirst (removeSuffixFormTopicRef ref₁), [(0, 0, ref₁)]⟩ =
      ⟨{ s' with
         topics := s'.topics.insert 2 topic₂
         publishers := s'.publishers.insert 3 0
         subscribers := s'.subscribers.insert 4 0 }, [(0, 0, ref₁), (topic₂, 0, ref₂)]⟩ := by
    rw [List.foldl_cons, hstep]
    change Run.mk (createSubscriberByXml (createPublisherByXml _ 3 0).1 4 0).1 _ = _
    rw [hpublisher, hsubscriber]
    rfl
  rw [hfinal] at hlast
  refine ⟨_, 0, topic₂, hlast, rfl, ?_, ?_, ?_, AList.lookup_insert _,
    AList.lookup_insert _, ?_, ?_⟩
  · rw [hsame.participants]
    rfl
  · refine .inl ((mem_holders_iff _ _).mpr ⟨1, ?_⟩)
    rw [hsame.topics, AList.lookup_insert_ne (by decide)]
    rfl
  · exact .inl ((mem_holders_iff _ _).mpr ⟨2, AList.lookup_insert _⟩)
  · exact hsame.datawriters
  · exact hsame.datareaders

/-- Names that connect are clean. -/
lemma cleanNames_of_connects {n₁ n₂ : String} (h : ∀ r : Run, r.Reached → r.Connects n₁ n₂) :
    CleanNames n₁ n₂ := by
  obtain ⟨r, topic₁, topic₂, hr⟩ := exists_twoTopics (n₁ ++ "__t") (n₂ ++ "__t")
  have hsound := hr.reached.sound
  have hwriter : r.middleware.datawriters.lookup 5 = none := by rw [hr.datawriters]; rfl
  have hreader : r.middleware.datareaders.lookup 6 = none := by rw [hr.datareaders]; rfl
  obtain ⟨hw, hd, hconnected⟩ := h r hr.reached 0 0 topic₁ topic₂ 3 4 5 6 hr.participant
    (by rw [hr.created]; exact List.mem_cons_self)
    (by rw [hr.created]; exact List.mem_cons_of_mem _ List.mem_cons_self)
    hr.held₁ hr.held₂ hr.publisher hr.subscriber hwriter hreader
  obtain ⟨_, _, _, _, hglobal⟩ := hconnected [] trivial fun e he => by cases he
  obtain ⟨found₁, hfound₁⟩ := findTopic_of_createDatawriterByRef hr.publisher hw
  have hkeeps := Keeps.createDatawriter hsound.sound 5 3 (n₁ ++ "__dw")
  -- the reader finds its topic in the state before, too
  have hheld₁ := (findTopic_eq_some_iff.mp hfound₁).2
  have hweq := createDatawriterByRef_of_found hr.publisher hwriter hfound₁
  rw [hweq] at hd
  have hsubscriber : AList.lookup 4 ({ r.middleware with
      datawriters := r.middleware.datawriters.insert 5 found₁ } : CedMiddleware).subscribers =
      some 0 := hr.subscriber
  obtain ⟨found₂, hfound₂⟩ := findTopic_of_createDatareaderByRef hsubscriber hd
  rw [findTopic_withDatawriter hwriter hheld₁] at hfound₂
  obtain ⟨_, _, _, hlinked⟩ :=
    hsound.sound.linked hr.publisher hr.subscriber hwriter hreader hfound₁ hfound₂
  have hnames := hlinked.globalTopic_iff.symm.trans hglobal
  have hamong : ∀ name found, r.middleware.findTopic 0 name = some found →
      name = removeSuffixFormTopicRef (n₁ ++ "__t") ∨
        name = removeSuffixFormTopicRef (n₂ ++ "__t") := by
    intro name found hfound
    obtain ⟨ref, hmem, hname⟩ :=
      hsound.registers 0 name found (findTopic_eq_some_iff.mp hfound).1
    rw [hr.created] at hmem
    rw [List.mem_cons, List.mem_singleton, Prod.mk.injEq, Prod.mk.injEq, Prod.mk.injEq,
      Prod.mk.injEq] at hmem
    rcases hmem with ⟨_, _, rfl⟩ | ⟨_, _, rfl⟩
    · exact .inl hname.symm
    · exact .inr hname.symm
  exact (cleanNames_iff_refs n₁ n₂).mpr
    ⟨hamong _ _ hfound₁, hamong _ _ hfound₂, hnames⟩

/-- A participant that has the topics of two names connects the writers and readers of these names
exactly when they are clean. -/
theorem connects_iff_cleanNames (n₁ n₂ : String) :
    (∀ r : Run, r.Reached → r.Connects n₁ n₂) ↔ CleanNames n₁ n₂ :=
  ⟨cleanNames_of_connects, fun hclean _ hr => hr.sound.connects hclean⟩

/-- A topic whose name contains the suffix of writers is not found by its writer. -/
theorem connects_fails : ¬ ∀ r : Run, r.Reached → r.Connects "a__dwb" "a__dwb" := by
  intro h
  have hcontained : Contains datawriterSuffix "a__dwb" := by decide
  exact (cleanNames_of_connects h).2.1 hcontained

end CedMiddleware

end XrceDds
