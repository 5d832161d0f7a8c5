import XrceDds.Agent.Object
import Mathlib.Data.Set.Defs
import Mathlib.Logic.Function.Basic

/-!
# The objects of a client

`create_object` of `ProxyClient`, with its table of creation modes, the dispatch on the kind and
the functions that build the objects of each kind.  What a class does with the middleware is a
parameter (`ObjectFactory`), so that all constructors may succeed or fail.

A call should tell the truth about the object it was to build or to match, and should change
nothing when it fails (`Truthful`).  It does if and only if a new object is of a kind that is
supported and an object that is to be replaced can be built again (`truthful_iff`): the old
one is deleted before.
-/

namespace XrceDds

/-- The results of `create_object`. -/
inductive ObjectStatus where
  | ok | okMatched | ddsError | mismatch | alreadyExists | unknownReference | resources
  deriving DecidableEq

/-- `STATUS_OK` or `STATUS_OK_MATCHED`. -/
def ObjectStatus.IsOk (status : ObjectStatus) : Prop := status = .ok ∨ status = .okMatched

instance (status : ObjectStatus) : Decidable status.IsOk := by
  unfold ObjectStatus.IsOk; infer_instance

/-- `dds::xrce::CreationMode`. -/
structure CreationMode where
  reuse : Bool
  replace : Bool

/-- What the classes of objects do with the middleware: `create` of the class for the kind of the
variant, given the raw identifier of the object that it belongs to; the destructor; and `matched`,
which is `none` when an exception is thrown. -/
structure ObjectFactory (μ : Type) where
  create : μ → ObjectId → ℕ → ObjectVariant → μ × Bool
  delete : μ → XRCEObject → μ
  matched : μ → XRCEObject → ObjectVariant → Option Bool

/-- `ProxyClient`: its objects and the middleware; with the number of objects that were built. -/
structure ProxyClient (μ : Type) where
  objects : ObjectId → Option XRCEObject
  middleware : μ
  count : ℕ

namespace ProxyClient

variable {μ : Type} (factory : ObjectFactory μ)

/-- A new client. -/
def new (middleware : μ) : ProxyClient μ := ⟨fun _ => none, middleware, 0⟩

/-- What the functions that build an object do once it is known where it belongs. -/
def build (client : ProxyClient μ) (objectId : ObjectId) (parentId : ℕ) (variant : ObjectVariant)
    (result : ObjectStatus) : ProxyClient μ × ObjectStatus :=
  let created := factory.create client.middleware objectId parentId variant
  if created.2 then
    let object : XRCEObject := ⟨objectId, variant, client.count⟩
    match client.objects objectId with
    | none => (⟨Function.update client.objects objectId (some object), created.1,
        client.count + 1⟩, result)
    | some _ => ({ client with middleware := factory.delete created.1 object }, .resources)
  else ({ client with middleware := created.1 }, .ddsError)

/-- The functions that build an object which belongs to one of the kind `parentKind`. -/
def createChild (parentKind : ObjectKind) (client : ProxyClient μ) (objectId : ObjectId)
    (variant : ObjectVariant) (result : ObjectStatus) : ProxyClient μ × ObjectStatus :=
  let parentId := variant.member.parentId.withKind parentKind
  match client.objects parentId with
  | some _ => client.build factory objectId (objectidToRaw parentId) variant result
  | none => (client, .unknownReference)

/-- `create_participant`. -/
def createParticipant (client : ProxyClient μ) (objectId : ObjectId) (variant : ObjectVariant)
    (result : ObjectStatus) : ProxyClient μ × ObjectStatus :=
  client.build factory objectId 0 variant result

/-- `create_topic`. -/
def createTopic : ProxyClient μ → ObjectId → ObjectVariant → ObjectStatus →
    ProxyClient μ × ObjectStatus := createChild factory .participant

/-- `create_publisher`. -/
def createPublisher : ProxyClient μ → ObjectId → ObjectVariant → ObjectStatus →
    ProxyClient μ × ObjectStatus := createChild factory .participant

/-- `create_subscriber`. -/
def createSubscriber : ProxyClient μ → ObjectId → ObjectVariant → ObjectStatus →
    ProxyClient μ × ObjectStatus := createChild factory .participant

/-- `create_datawriter`. -/
def createDatawriter : ProxyClient μ → ObjectId → ObjectVariant → ObjectStatus →
    ProxyClient μ × ObjectStatus := createChild factory .publisher

/-- `create_datareader`. -/
def createDatareader : ProxyClient μ → ObjectId → ObjectVariant → ObjectStatus →
    ProxyClient μ × ObjectStatus := createChild factory .subscriber

/-- `create_requester`. -/
def createRequester : ProxyClient μ → ObjectId → ObjectVariant → ObjectStatus →
    ProxyClient μ × ObjectStatus := createChild factory .participant

/-- `create_replier`. -/
def createReplier : ProxyClient μ → ObjectId → ObjectVariant → ObjectStatus →
    ProxyClient μ × ObjectStatus := createChild factory .participant

/-- `create_object`, the dispatch on the kind: APPLICATION, QOSPROFILE, TYPE and all others fall
through. -/
def createObjectOfKind (client : ProxyClient μ) (objectId : ObjectId) (variant : ObjectVariant)
    (result : ObjectStatus) : ProxyClient μ × ObjectStatus :=
  if variant.d = .participant then client.createParticipant factory objectId variant result
  else if variant.d = .topic then client.createTopic factory objectId variant result
  else if variant.d = .publisher then client.createPublisher factory objectId variant result
  else if variant.d = .subscriber then client.createSubscriber factory objectId variant result
  else if variant.d = .dataWriter then client.createDatawriter factory objectId variant result
  else if variant.d = .dataReader then client.createDatareader factory objectId variant result
  else if variant.d = .requester then client.createRequester factory objectId variant result
  else if variant.d = .replier then client.createReplier factory objectId variant result
  else (client, result)

/-- `delete_object_unlock`.  The object is destroyed with its entry. -/
def deleteObjectUnlock (client : ProxyClient μ) (objectId : ObjectId) : ProxyClient μ × Bool :=
  match client.objects objectId with
  | some object => ({ client with
      objects := Function.update client.objects objectId none
      middleware := factory.delete client.middleware object }, true)
  | none => (client, false)

/-- `delete_object`. -/
def deleteObject (client : ProxyClient μ) (objectId : ObjectId) : ProxyClient μ × ObjectStatus :=
  let deleted := client.deleteObjectUnlock factory objectId
  (deleted.1, if deleted.2 then .ok else .unknownReference)

/-- `create_object`.  An exception of `matched` is not caught. -/
def createObject (client : ProxyClient μ) (mode : CreationMode) (objectPrefix : ObjectId)
    (variant : ObjectVariant) : Option (ProxyClient μ × ObjectStatus) :=
  let objectId := objectPrefix.withKind variant.d
  match client.objects objectId with
  | none => some (client.createObjectOfKind factory objectId variant .ok)
  | some object =>
    if !mode.reuse then
      if !mode.replace then some (client, .alreadyExists)
      else
        let client := (client.deleteObjectUnlock factory objectId).1
        some (client.createObjectOfKind factory objectId variant .ok)
    else if !mode.replace then
      match factory.matched client.middleware object variant with
      | none => none
      | some true => some (client, .okMatched)
      | some false => some (client, .mismatch)
    else
      match factory.matched client.middleware object variant with
      | none => none
      | some true => some (client, .okMatched)
      | some false =>
        let client := (client.deleteObjectUnlock factory objectId).1
        some (client.createObjectOfKind factory objectId variant .ok)

/-- The clients that are reached, each call finding classes that behave as one of `factories`. -/
inductive Reached (factories : Set (ObjectFactory μ)) (middleware : μ) : ProxyClient μ → Prop
  | new : Reached factories middleware (new middleware)
  | create {client client' : ProxyClient μ} {factory : ObjectFactory μ} {mode : CreationMode}
      {objectPrefix : ObjectId} {variant : ObjectVariant} {status : ObjectStatus} :
      Reached factories middleware client → factory ∈ factories →
      client.createObject factory mode objectPrefix variant = some (client', status) →
      Reached factories middleware client'
  | delete {client : ProxyClient μ} {factory : ObjectFactory μ} {objectId : ObjectId} :
      Reached factories middleware client → factory ∈ factories →
      Reached factories middleware (client.deleteObject factory objectId).1

/-! ## What a call does -/

/-- The kinds that the dispatch knows. -/
def Supported (kind : ObjectKind) : Prop :=
  kind ∈ [ObjectKind.participant, .topic, .publisher, .subscriber, .dataWriter, .dataReader,
    .requester, .replier]

instance (kind : ObjectKind) : Decidable (Supported kind) := by
  unfold Supported; infer_instance

/-- The kind of the objects that an object of the kind belongs to. -/
def parentKind (kind : ObjectKind) : ObjectKind :=
  if kind = .dataWriter then .publisher
  else if kind = .dataReader then .subscriber
  else .participant

/-- The raw identifier of the object that an object with the representation would belong to, if it
is there. -/
def parentOf (client : ProxyClient μ) (variant : ObjectVariant) : Option ℕ :=
  if variant.d = .participant then some 0
  else
    (client.objects (variant.member.parentId.withKind (parentKind variant.d))).map fun _ =>
      objectidToRaw (variant.member.parentId.withKind (parentKind variant.d))

/-- The representation is of a kind that is supported, what the object would belong to is there, and
the middleware constructs it. -/
def CanBuild (client : ProxyClient μ) (objectId : ObjectId) (variant : ObjectVariant) : Prop :=
  Supported variant.d ∧ ∃ parentId, client.parentOf variant = some parentId ∧
    (factory.create client.middleware objectId parentId variant).2 = true

/-- The dispatch, for a kind that is supported. -/
lemma createObjectOfKind_eq (client : ProxyClient μ) (objectId : ObjectId)
    {variant : ObjectVariant} (hkind : Supported variant.d) (result : ObjectStatus) :
    client.createObjectOfKind factory objectId variant result =
      match client.parentOf variant with
      | some parentId => client.build factory objectId parentId variant result
      | none => (client, .unknownReference) := by
  obtain ⟨d, member⟩ := variant
  have hchild (kind parent : ObjectKind) (hne : kind ≠ .participant)
    (hparent : parentKind kind = parent) :
      client.createChild factory parent objectId ⟨kind, member⟩ result =
        match client.parentOf ⟨kind, member⟩ with
        | some parentId => client.build factory objectId parentId ⟨kind, member⟩ result
        | none => (client, .unknownReference) := by
    unfold createChild parentOf
    dsimp only
    rw [if_neg hne, hparent]
    cases client.objects (member.parentId.withKind parent) <;> rfl
  simp only [Supported, List.mem_cons, List.not_mem_nil, or_false] at hkind
  rcases hkind with rfl | rfl | rfl | rfl | rfl | rfl | rfl | rfl
  · rfl
  · exact hchild _ _ (by decide) rfl
  · exact hchild _ _ (by decide) rfl
  · exact hchild _ _ (by decide) rfl
  · exact hchild _ _ (by decide) rfl
  · exact hchild _ _ (by decide) rfl
  · exact hchild _ _ (by decide) rfl
  · exact hchild _ _ (by decide) rfl

/-- Kinds that are not supported fall through. -/
lemma createObjectOfKind_of_not_supported (client : ProxyClient μ) (objectId : ObjectId)
    {variant : ObjectVariant} (hkind : ¬ Supported variant.d) (result : ObjectStatus) :
    client.createObjectOfKind factory objectId variant result = (client, result) := by
  simp only [Supported, List.mem_cons, List.not_mem_nil, or_false, not_or] at hkind
  obtain ⟨h₁, h₂, h₃, h₄, h₅, h₆, h₇, h₈⟩ := hkind
  unfold createObjectOfKind
  rw [if_neg h₁, if_neg h₂, if_neg h₃, if_neg h₄, if_neg h₅, if_neg h₆, if_neg h₇, if_neg h₈]

variable {factory} {client : ProxyClient μ} {objectId : ObjectId} {variant : ObjectVariant}

/-- What the dispatch does where there is no object.  Either it builds one, or the objects stay as
they are, and this is called a success if the kind is not supported. -/
lemma createObjectOfKind_cases {after : ProxyClient μ} {status : ObjectStatus}
    (hfree : client.objects objectId = none)
    (h : client.createObjectOfKind factory objectId variant .ok = (after, status)) :
    (client.CanBuild factory objectId variant ∧ status = .ok ∧ after.count = client.count + 1 ∧
      after.objects =
        Function.update client.objects objectId (some ⟨objectId, variant, client.count⟩)) ∨
    (¬ client.CanBuild factory objectId variant ∧ (status.IsOk ↔ ¬ Supported variant.d) ∧
      after.count = client.count ∧ after.objects = client.objects) := by
  by_cases hkind : Supported variant.d
  · rw [createObjectOfKind_eq factory client objectId hkind] at h
    cases hparent : client.parentOf variant with
    | none =>
      rw [hparent] at h
      cases h
      refine .inr ⟨?_, ?_, rfl, rfl⟩
      · rintro ⟨-, parentId, hsome, -⟩
        rw [hparent] at hsome
        cases hsome
      · exact ⟨fun hok => absurd hok (by decide), fun hnot => absurd hkind hnot⟩
    | some parentId =>
      rw [hparent] at h
      cases hcreated : (factory.create client.middleware objectId parentId variant).2 with
      | true =>
        simp only [build, hcreated, if_true, hfree] at h
        cases h
        exact .inl ⟨⟨hkind, parentId, hparent, hcreated⟩, rfl, rfl, rfl⟩
      | false =>
        simp only [build, hcreated, Bool.false_eq_true, if_false] at h
        cases h
        refine .inr ⟨?_, ?_, rfl, rfl⟩
        · rintro ⟨-, other, hsome, htrue⟩
          rw [hparent] at hsome
          cases hsome
          rw [hcreated] at htrue
          cases htrue
        · exact ⟨fun hok => absurd hok (by decide), fun hnot => absurd hkind hnot⟩
  · rw [createObjectOfKind_of_not_supported factory client objectId hkind] at h
    cases h
    exact .inr ⟨fun hbuild => hkind hbuild.1, ⟨fun _ => hkind, fun _ => .inl rfl⟩, rfl, rfl⟩

variable (factory client) in
/-- The object is there, and the mode and the representation ask for another one in its place. -/
def Replaces (mode : CreationMode) (object : XRCEObject) (variant : ObjectVariant) : Prop :=
  mode.replace = true ∧
    (mode.reuse = true → factory.matched client.middleware object variant = some false)

variable (factory client objectId) in
/-- The client without the object. -/
def without : ProxyClient μ := (client.deleteObjectUnlock factory objectId).1

lemma without_objects {object : XRCEObject} (h : client.objects objectId = some object) :
    (client.without factory objectId).objects = Function.update client.objects objectId none := by
  simp only [without, deleteObjectUnlock, h]

lemma without_objects_self {object : XRCEObject} (h : client.objects objectId = some object) :
    (client.without factory objectId).objects objectId = none := by
  rw [without_objects h, Function.update_self]

lemma without_count : (client.without factory objectId).count = client.count := by
  unfold without deleteObjectUnlock
  split <;> rfl

/-- Everything that a call can do. -/
lemma createObject_cases {mode : CreationMode} {objectPrefix : ObjectId} {after : ProxyClient μ}
    {status : ObjectStatus}
    (h : client.createObject factory mode objectPrefix variant = some (after, status)) :
    (client.objects (objectPrefix.withKind variant.d) = none ∧
      client.createObjectOfKind factory (objectPrefix.withKind variant.d) variant .ok =
        (after, status)) ∨
    ∃ object, client.objects (objectPrefix.withKind variant.d) = some object ∧
      ((after = client ∧ status = .okMatched ∧ mode.reuse = true ∧
          factory.matched client.middleware object variant = some true) ∨
        (after = client ∧ ¬ status.IsOk ∧ (mode.reuse = true →
          factory.matched client.middleware object variant = some false) ∧ mode.replace = false) ∨
        (client.Replaces factory mode object variant ∧
          (client.without factory (objectPrefix.withKind variant.d)).createObjectOfKind factory
            (objectPrefix.withKind variant.d) variant .ok = (after, status))) := by
  obtain ⟨reuse, replace⟩ := mode
  unfold createObject at h
  dsimp only at h
  split at h
  · next hnone => exact .inl ⟨hnone, Option.some.inj h⟩
  · next object hsome =>
    refine .inr ⟨object, hsome, ?_⟩
    cases reuse with
    | false =>
      cases replace with
      | false =>
        cases h
        exact .inr (.inl ⟨rfl, by decide, Bool.noConfusion, rfl⟩)
      | true => exact .inr (.inr ⟨⟨rfl, Bool.noConfusion⟩, Option.some.inj h⟩)
    | true =>
      cases replace with
      | false =>
        simp only [Bool.not_true, Bool.false_eq_true, if_false, Bool.not_false, if_true] at h
        split at h
        · cases h
        · next hmatched =>
          cases h
          exact .inl ⟨rfl, rfl, rfl, hmatched⟩
        · next hmatched =>
          cases h
          exact .inr (.inl ⟨rfl, by decide, fun _ => hmatched, rfl⟩)
      | true =>
        simp only [Bool.not_true, Bool.false_eq_true, if_false] at h
        split at h
        · cases h
        · next hmatched =>
          cases h
          exact .inl ⟨rfl, rfl, rfl, hmatched⟩
        · next hmatched => exact .inr (.inr ⟨⟨rfl, fun _ => hmatched⟩, Option.some.inj h⟩)

/-- A call that finds no object builds one. -/
lemma createObject_of_none {objectPrefix : ObjectId}
    (h : client.objects (objectPrefix.withKind variant.d) = none) (factory : ObjectFactory μ)
    (mode : CreationMode) :
    client.createObject factory mode objectPrefix variant =
      some (client.createObjectOfKind factory (objectPrefix.withKind variant.d) variant .ok) := by
  simp only [createObject, h]

/-- A call that is to replace an object deletes it and builds another one. -/
lemma createObject_of_replaces {mode : CreationMode} {objectPrefix : ObjectId} {object : XRCEObject}
    (h : client.objects (objectPrefix.withKind variant.d) = some object)
    (hreplaces : client.Replaces factory mode object variant) :
    ∃ after status,
      (client.without factory (objectPrefix.withKind variant.d)).createObjectOfKind factory
        (objectPrefix.withKind variant.d) variant .ok = (after, status) ∧
      client.createObject factory mode objectPrefix variant = some (after, status) := by
  obtain ⟨reuse, replace⟩ := mode
  obtain ⟨hreplace, hmatched⟩ := hreplaces
  dsimp only at hreplace hmatched
  subst hreplace
  refine ⟨_, _, rfl, ?_⟩
  cases reuse with
  | false =>
    simp only [createObject, h]
    rfl
  | true =>
    simp only [createObject, h, hmatched rfl]
    rfl

/-! ## Truth and atomicity -/

variable (factory client) in
/-- A call reports the truth, changes nothing when it fails, and leaves the other objects alone.
The object that it reports was built by this call, or was there and matched. -/
structure Truthful (mode : CreationMode) (objectPrefix : ObjectId) (variant : ObjectVariant) :
    Prop where
  reports : ∀ after status,
    client.createObject factory mode objectPrefix variant = some (after, status) →
      (status.IsOk ↔ ∃ object, after.objects (objectPrefix.withKind variant.d) = some object ∧
        ((object.built = variant ∧ object.number = client.count) ∨
          (client.objects (objectPrefix.withKind variant.d) = some object ∧ mode.reuse = true ∧
            factory.matched client.middleware object variant = some true)))
  atomic : ∀ after status,
    client.createObject factory mode objectPrefix variant = some (after, status) →
      ¬ status.IsOk → after.objects = client.objects
  frame : ∀ after status,
    client.createObject factory mode objectPrefix variant = some (after, status) →
      ∀ other, other ≠ objectPrefix.withKind variant.d → after.objects other = client.objects other

variable (factory client) in
/-- A new object is of a kind that is supported, and an object that is to be replaced can be built.
-/
def Creatable (mode : CreationMode) (objectPrefix : ObjectId) (variant : ObjectVariant) : Prop :=
  (client.objects (objectPrefix.withKind variant.d) = none → Supported variant.d) ∧
    ∀ object, client.objects (objectPrefix.withKind variant.d) = some object →
      client.Replaces factory mode object variant →
        (client.without factory (objectPrefix.withKind variant.d)).CanBuild factory
          (objectPrefix.withKind variant.d) variant

/-- The objects of a client were built by earlier calls. -/
def Numbered (client : ProxyClient μ) : Prop :=
  ∀ objectId object, client.objects objectId = some object → object.number < client.count

lemma Numbered.without (h : client.Numbered) : (client.without factory objectId).Numbered := by
  intro other object hother
  rw [without_count]
  cases hobject : client.objects objectId with
  | none =>
    simp only [ProxyClient.without, deleteObjectUnlock, hobject] at hother
    exact h other object hother
  | some _ =>
    rw [without_objects hobject] at hother
    by_cases heq : other = objectId
    · rw [heq, Function.update_self] at hother
      cases hother
    · rw [Function.update_of_ne heq] at hother
      exact h other object hother

lemma Numbered.createObjectOfKind {after : ProxyClient μ} {status : ObjectStatus}
    (h : client.Numbered) (hfree : client.objects objectId = none)
    (hdispatch : client.createObjectOfKind factory objectId variant .ok = (after, status)) :
    after.Numbered := by
  intro other object hother
  rcases createObjectOfKind_cases hfree hdispatch with
    ⟨-, -, hcount, hobjects⟩ | ⟨-, -, hcount, hobjects⟩
  · rw [hobjects] at hother
    rw [hcount]
    by_cases heq : other = objectId
    · rw [heq, Function.update_self] at hother
      cases hother
      exact Nat.lt_succ_self _
    · rw [Function.update_of_ne heq] at hother
      exact Nat.lt_succ_of_lt (h other object hother)
  · rw [hobjects] at hother
    rw [hcount]
    exact h other object hother

/-- Along every run the objects were built by earlier calls. -/
lemma Reached.numbered {factories : Set (ObjectFactory μ)} {middleware : μ}
    (h : Reached factories middleware client) : client.Numbered := by
  induction h with
  | new => exact fun _ _ h => absurd h (by simp [ProxyClient.new])
  | create _ _ hcreate ih =>
    rcases createObject_cases hcreate with ⟨hfree, hdispatch⟩ | ⟨object, hobject, hcases⟩
    · exact ih.createObjectOfKind hfree hdispatch
    · rcases hcases with ⟨rfl, -⟩ | ⟨rfl, -⟩ | ⟨-, hdispatch⟩
      · exact ih
      · exact ih
      · exact ih.without.createObjectOfKind (without_objects_self hobject) hdispatch
  | delete _ _ ih => exact ih.without

/-- What one result has to say. -/
lemma Creatable.truthful {mode : CreationMode} {objectPrefix : ObjectId} {after : ProxyClient μ}
    {status : ObjectStatus} (h : client.Creatable factory mode objectPrefix variant)
    (hnumbered : client.Numbered)
    (hcall : client.createObject factory mode objectPrefix variant = some (after, status)) :
    (status.IsOk ↔ ∃ object, after.objects (objectPrefix.withKind variant.d) = some object ∧
      ((object.built = variant ∧ object.number = client.count) ∨
        (client.objects (objectPrefix.withKind variant.d) = some object ∧ mode.reuse = true ∧
          factory.matched client.middleware object variant = some true))) ∧
      (¬ status.IsOk → after.objects = client.objects) ∧
      ∀ other, other ≠ objectPrefix.withKind variant.d →
        after.objects other = client.objects other := by
  rcases createObject_cases hcall with ⟨hfree, hdispatch⟩ | ⟨object, hobject, hcases⟩
  · rcases createObjectOfKind_cases hfree hdispatch with
      ⟨-, rfl, -, hobjects⟩ | ⟨-, hok, -, hobjects⟩
    · -- a new object
      rw [hobjects]
      refine ⟨⟨fun _ => ⟨_, Function.update_self _ _ _, .inl ⟨rfl, rfl⟩⟩, fun _ => .inl rfl⟩,
        fun hnot => absurd (.inl rfl) hnot, fun other hne => Function.update_of_ne hne _ _⟩
    · -- nothing was built, and the kind is supported
      have hfailed : ¬ status.IsOk := fun hstatus => hok.mp hstatus (h.1 hfree)
      rw [hobjects]
      refine ⟨⟨fun hstatus => absurd hstatus hfailed, ?_⟩, fun _ => rfl, fun _ _ => rfl⟩
      rintro ⟨object, hobject, -⟩
      rw [hfree] at hobject
      cases hobject
  · rcases hcases with ⟨rfl, rfl, hreuse, hmatched⟩ | ⟨rfl, hfailed, hmismatch, -⟩ |
      ⟨hreplaces, hdispatch⟩
    · exact ⟨⟨fun _ => ⟨object, hobject, .inr ⟨hobject, hreuse, hmatched⟩⟩, fun _ => .inr rfl⟩,
        fun hnot => absurd (.inr rfl) hnot, fun _ _ => rfl⟩
    · -- refused: the object was built earlier, and does not match
      refine ⟨⟨fun hstatus => absurd hstatus hfailed, ?_⟩, fun _ => rfl, fun _ _ => rfl⟩
      rintro ⟨other, hother, ⟨-, hnumber⟩ | ⟨hsame, hreuse, hmatched⟩⟩
      · exact absurd hnumber (Nat.ne_of_lt (hnumbered _ _ hother))
      · rw [hobject] at hsame
        cases hsame
        rw [hmismatch hreuse] at hmatched
        cases hmatched
    · rcases createObjectOfKind_cases (without_objects_self hobject) hdispatch with
        ⟨-, rfl, -, hobjects⟩ | ⟨hbuild, -⟩
      · -- another object in its place
        rw [without_objects hobject, Function.update_idem, without_count] at hobjects
        rw [hobjects]
        refine ⟨⟨fun _ => ⟨_, Function.update_self _ _ _, .inl ⟨rfl, rfl⟩⟩, fun _ => .inl rfl⟩,
          fun hnot => absurd (.inl rfl) hnot, fun other hne => Function.update_of_ne hne _ _⟩
      · exact absurd (h.2 object hobject hreplaces) hbuild

/-- Along every run of a client and whatever the middleware does, a call is truthful and atomic if
and only if a new object is of a kind that is supported, and an object that is to be replaced can be
built. -/
theorem truthful_iff {factories : Set (ObjectFactory μ)} {middleware : μ}
    (hrun : Reached factories middleware client) (mode : CreationMode) (objectPrefix : ObjectId)
    (variant : ObjectVariant) :
    client.Truthful factory mode objectPrefix variant ↔
      client.Creatable factory mode objectPrefix variant := by
  constructor
  · intro htruthful
    refine ⟨fun hfree => ?_, fun object hobject hreplaces => ?_⟩
    · -- a kind that is not supported is called a success
      by_contra hkind
      have hcall := createObject_of_none hfree factory mode
      rw [createObjectOfKind_of_not_supported factory client _ hkind] at hcall
      obtain ⟨object, hobject, -⟩ := (htruthful.reports _ _ hcall).mp (.inl rfl)
      rw [hfree] at hobject
      cases hobject
    · -- what cannot be built is gone
      by_contra hbuild
      obtain ⟨after, status, hdispatch, hcall⟩ := createObject_of_replaces hobject hreplaces
      rcases createObjectOfKind_cases (without_objects_self hobject) hdispatch with
        ⟨hcan, -⟩ | ⟨-, -, -, hobjects⟩
      · exact hbuild hcan
      · have hgone : after.objects (objectPrefix.withKind variant.d) = none := by
          rw [hobjects, without_objects_self hobject]
        by_cases hok : status.IsOk
        · obtain ⟨other, hother, -⟩ := (htruthful.reports _ _ hcall).mp hok
          rw [hgone] at hother
          cases hother
        · rw [htruthful.atomic _ _ hcall hok, hobject] at hgone
          cases hgone
  · intro hcreatable
    exact ⟨fun _ _ hcall => (hcreatable.truthful hrun.numbered hcall).1,
      fun _ _ hcall => (hcreatable.truthful hrun.numbered hcall).2.1,
      fun _ _ hcall => (hcreatable.truthful hrun.numbered hcall).2.2⟩

/-- Classes that build everything that is given as an XML string, and that match everything. -/
def xmlFactory : ObjectFactory Unit where
  create := fun _ _ _ variant => ((), variant.member.representation.xmlStringRepresentation.isSome)
  delete := fun _ _ => ()
  matched := fun _ _ _ => some true

/-- A participant with this representation. -/
def participantOf (representation : Representation) : ObjectVariant :=
  ⟨.participant, ⟨(0, 0), 0, representation⟩⟩

/-- The client with the participant `0x001`. -/
def clientWithParticipant : ProxyClient Unit :=
  ⟨Function.update (fun _ => none) (0, 0x11) (some ⟨(0, 0x11), participantOf (.asXmlString ""), 0⟩),
    (), 1⟩

lemma reached_clientWithParticipant :
    Reached {xmlFactory} () clientWithParticipant := by
  have hcreate : (new ()).createObject xmlFactory ⟨false, false⟩ (0, 0x10)
      (participantOf (.asXmlString "")) = some (clientWithParticipant, .ok) := rfl
  exact .create .new rfl hcreate

/-- The participant is replaced by another one. -/
theorem truthful_iff_replace : clientWithParticipant.Truthful xmlFactory ⟨false, true⟩ (0, 0x10)
    (participantOf (.asXmlString "other")) := by
  refine (truthful_iff reached_clientWithParticipant ⟨false, true⟩ (0, 0x10) _).mpr
    ⟨fun _ => by decide, fun _ _ _ => ⟨by decide, 0, rfl, rfl⟩⟩

/-- A participant that cannot be replaced is gone; and an application is reported that was never
built. -/
theorem failed_replace_deletes :
    Reached {xmlFactory} () clientWithParticipant ∧
      ¬ clientWithParticipant.Truthful xmlFactory ⟨false, true⟩ (0, 0x10)
        (participantOf (.byReference "other")) ∧
      ¬ clientWithParticipant.Truthful xmlFactory ⟨false, false⟩ (0, 0x10)
        ⟨0x0C, ⟨(0, 0), 0, .asXmlString ""⟩⟩ := by
  refine ⟨reached_clientWithParticipant, fun htruthful => ?_, fun htruthful => ?_⟩
  · have hkept := htruthful.atomic _ _ rfl (by decide)
    have hgone := congrFun hkept (0, 0x11)
    exact absurd hgone (by decide)
  · obtain ⟨object, hobject, -⟩ := (htruthful.reports _ _ rfl).mp (by decide)
    have hnone : clientWithParticipant.objects (0, 0x1C) = none := rfl
    exact absurd (hnone.symm.trans hobject) (Option.some_ne_none _).symm

end ProxyClient

end XrceDds
