import XrceDds.Agent.Root

/-!
# Clients that are created again

A client that is created with the key of another one, in another session, should be as on an
empty `Root`, and the objects of the old client should be released.  The code passes no properties
on, and does not call `release`: as every object holds its client, a client with objects stays,
with all of them.  `client_recreated_iff` says that there is no other difference.
-/

namespace XrceDds

open RootRun

variable {μ : Type} (middleware : MiddlewareClass μ)

/-- A representation that is not refused. -/
structure ClientAccepted (representation : ClientRepresentation) : Prop where
  clientKey_ne : representation.clientKey ≠ clientkeyInvalid
  cookie_eq : representation.xrceCookie = xrceCookie
  version_eq : representation.xrceVersion.1 = xrceVersionMajor

/-- The new client is as on an empty `Root`, nothing is left of the objects of the old one, and no
other client is affected. -/
structure Recreated (root : Root μ) (representation : ClientRepresentation) (kind : MiddlewareKind)
    (now : ℤ) : Prop where
  configured :
    (root.createClient middleware representation kind now).1.storedClient
        representation.clientKey =
      ((Root.new : Root μ).createClient middleware representation kind now).1.storedClient
        representation.clientKey
  released : ∀ number client, root.getClient representation.clientKey = some number →
    (root.createClient middleware representation kind now).1.proxies[number]? = some client →
    client.Released
  others : ∀ key ≠ representation.clientKey,
    (root.createClient middleware representation kind now).1.getClient key = root.getClient key ∧
      (root.createClient middleware representation kind now).1.storedClient key =
        root.storedClient key

variable {middleware} {root : Root μ} {representation : ClientRepresentation}
  {kind : MiddlewareKind} {now : ℤ}

/-- The client that is created on an empty `Root`. -/
lemma storedClient_new (haccepted : ClientAccepted representation) :
    ((Root.new : Root μ).createClient middleware representation kind now).1.storedClient
        representation.clientKey =
      some (.new middleware representation kind (clientProperties representation) now) := by
  have hroot : ((Root.new : Root μ).createClient middleware representation kind now).1 =
      { (Root.new : Root μ) with
        clients := NodeMap.empty.emplace representation.clientKey 0
        proxies := [.new middleware representation kind (clientProperties representation) now]
          } := by
    unfold Root.createClient
    rw [if_neg haccepted.clientKey_ne, if_pos haccepted.cookie_eq, if_pos haccepted.version_eq]
    rfl
  have hstored : (NodeMap.empty.emplace representation.clientKey 0).find
      representation.clientKey = some ⟨representation.clientKey, 0, 0⟩ :=
    NodeMap.find_eq_some_iff.mpr ⟨NodeMap.mem_emplace_iff.mpr (.inr ⟨rfl, rfl⟩), rfl⟩
  rw [hroot]
  unfold Root.storedClient Root.getClient
  rw [hstored]
  rfl

/-- A client of another session takes the place of the one that is stored. -/
lemma createClient_of_stored (haccepted : ClientAccepted representation) {number : ℕ}
    {client : ClientRecord μ} (hnumber : root.getClient representation.clientKey = some number)
    (hclient : root.proxies[number]? = some client)
    (hsession : representation.sessionId ≠ client.representation.sessionId) :
    (root.createClient middleware representation kind now).1 =
      { root with
        clients := root.clients.assign representation.clientKey root.proxies.length
        proxies := root.proxies ++ [.new middleware representation kind (fun _ => none) now] } := by
  unfold Root.createClient
  rw [if_neg haccepted.clientKey_ne, if_pos haccepted.cookie_eq, if_pos haccepted.version_eq]
  dsimp only
  rw [hnumber]
  dsimp only
  rw [hclient, Option.map_some, if_pos fun heq => hsession (Option.some.inj heq).symm]

/-- The entries after an assignment, for the key of it. -/
lemma getClient_assign_self {number m : ℕ} {key : ClientKey} {proxies : List (ClientRecord μ)}
    (h : root.getClient key = some number) :
    Root.getClient ⟨root.clients.assign key m, root.currentClient, proxies⟩ key = some m := by
  obtain ⟨e, he, hkey, -⟩ := getClient_eq_some_iff.mp h
  refine getClient_eq_some_iff.mpr ⟨{ e with value := m }, ?_, hkey, rfl⟩
  exact NodeMap.mem_assign_iff.mpr ⟨e, he, (if_pos hkey).symm⟩

/-- The entries after an assignment, for other keys. -/
lemma getClient_assign_of_ne {m : ℕ} {key key' : ClientKey} {proxies : List (ClientRecord μ)}
    (hne : key' ≠ key) :
    Root.getClient ⟨root.clients.assign key m, root.currentClient, proxies⟩ key' =
      root.getClient key' := by
  refine Option.ext fun number => ?_
  rw [getClient_eq_some_iff, getClient_eq_some_iff]
  constructor
  · rintro ⟨e, he, hkey, hvalue⟩
    obtain ⟨x, hx, rfl⟩ := NodeMap.mem_assign_iff.mp he
    by_cases hxkey : x.key = key
    · rw [if_pos hxkey] at hkey
      exact absurd (hkey.symm.trans hxkey) hne
    · rw [if_neg hxkey] at hkey hvalue
      exact ⟨x, hx, hkey, hvalue⟩
  · rintro ⟨e, he, hkey, hvalue⟩
    refine ⟨e, NodeMap.mem_assign_iff.mpr ⟨e, he, ?_⟩, hkey, hvalue⟩
    rw [if_neg fun heq => hne (hkey.symm.trans heq)]

/-- A client is the same without its properties exactly when there are none. -/
lemma new_eq_new_iff :
    (ClientRecord.new middleware representation kind (fun _ => none) now : ClientRecord μ) =
        .new middleware representation kind (clientProperties representation) now ↔
      representation.properties.getD [] = [] := by
  constructor
  · intro heq
    have hproperties : (fun _ => none) = clientProperties representation :=
      congrArg ClientRecord.properties heq
    cases hlist : representation.properties.getD [] with
    | nil => rfl
    | cons property properties =>
      have hfirst := congrFun hproperties property.1
      unfold clientProperties at hfirst
      rw [hlist, List.lookup_cons, beq_self_eq_true] at hfirst
      cases hfirst
  · intro hnone
    have hproperties : clientProperties representation = fun _ => none := by
      funext name
      unfold clientProperties
      rw [hnone]
      rfl
    rw [hproperties]

/-- A client is created again as it should be exactly when it has no properties, and the old one has
no objects. -/
theorem client_recreated_iff {run : RootRun μ} (hrun : run.Reached middleware)
    (haccepted : ClientAccepted representation) {client : ClientRecord μ}
    (hstored : run.root.storedClient representation.clientKey = some client)
    (hsession : representation.sessionId ≠ client.representation.sessionId)
    (kind : MiddlewareKind) (now : ℤ) :
    Recreated middleware run.root representation kind now ↔
      representation.properties.getD [] = [] ∧ client.Released := by
  obtain ⟨number, hnumber, hclient⟩ := Option.bind_eq_some_iff.mp hstored
  have hroot : (run.root.createClient middleware representation kind now).1 = _ :=
    createClient_of_stored haccepted hnumber hclient hsession
  have hlt : number < run.root.proxies.length := (List.getElem?_eq_some_iff.mp hclient).1
  have hconfigured :
      (run.root.createClient middleware representation kind now).1.storedClient
        representation.clientKey =
      some (.new middleware representation kind (fun _ => none) now) := by
    rw [hroot]
    unfold Root.storedClient
    rw [getClient_assign_self hnumber, Option.bind_some, List.getElem?_concat_length]
  have hold : (run.root.createClient middleware representation kind now).1.proxies[number]? =
      some client := by
    rw [hroot]
    exact (List.getElem?_append_left hlt).trans hclient
  have hothers : ∀ key ≠ representation.clientKey,
      (run.root.createClient middleware representation kind now).1.getClient key =
          run.root.getClient key ∧
        (run.root.createClient middleware representation kind now).1.storedClient key =
          run.root.storedClient key := by
    intro key hkey
    have hget : Root.getClient ⟨run.root.clients.assign representation.clientKey
        run.root.proxies.length, run.root.currentClient, run.root.proxies ++
          [.new middleware representation kind (fun _ => none) now]⟩ key =
        run.root.getClient key := getClient_assign_of_ne hkey
    rw [hroot]
    refine ⟨hget, ?_⟩
    unfold Root.storedClient
    rw [hget]
    cases hother : run.root.getClient key with
    | none => rfl
    | some other =>
      obtain ⟨e, he, -, rfl⟩ := getClient_eq_some_iff.mp hother
      exact List.getElem?_append_left (lt_of_keyOf (hrun.sound.keyed e he))
  constructor
  · intro h
    have hsame := h.configured
    rw [hconfigured, storedClient_new haccepted] at hsame
    exact ⟨new_eq_new_iff.mp (Option.some.inj hsame), h.released number client hnumber hold⟩
  · rintro ⟨hproperties, hreleased⟩
    refine ⟨?_, fun m other hm hother => ?_, hothers⟩
    · rw [hconfigured, storedClient_new haccepted, new_eq_new_iff.mpr hproperties]
    · rw [hnumber] at hm
      rw [← Option.some.inj hm, hold] at hother
      exact Option.some.inj hother ▸ hreleased

/-! ## Examples -/

/-- A middleware that only knows how it was constructed. -/
def namedMiddleware : MiddlewareClass MiddlewareConfig := ⟨id, fun state _ => state⟩

/-- A client, with a session and with properties. -/
def namedClient (sessionId : UInt8) (properties : Option (List (String × String))) :
    ClientRepresentation :=
  ⟨xrceCookie, (1, 0), 1, sessionId, properties, 512⟩

/-- A client was created. -/
def firstClientRun : RootRun MiddlewareConfig :=
  RootRun.new.step namedMiddleware (.create (namedClient 1 none) .fastdds 0)

/-- Then it has built a participant. -/
def participantRun : RootRun MiddlewareConfig :=
  firstClientRun.step namedMiddleware (.change 0
    ((ProxyClient.new (.fastdds false)).createParticipant
      ⟨fun state _ _ _ => (state, true), fun state _ => state, fun _ _ _ => some true⟩ (0, 17)
      ⟨.participant, ⟨(0, 0), 0, .byReference "participant"⟩⟩ .ok).1
    (.new ⟨[0, 0, 0, 1], 1, 512, rfl⟩) .alive 1)

/-- The first run. -/
lemma firstClientRun_reached : firstClientRun.Reached namedMiddleware :=
  (reached_new namedMiddleware).next trivial

/-- The second run. -/
lemma participantRun_reached : participantRun.Reached namedMiddleware :=
  firstClientRun_reached.next trivial

/-- No client of these is refused. -/
lemma clientAccepted_namedClient (sessionId : UInt8)
    (properties : Option (List (String × String))) :
    ClientAccepted (namedClient sessionId properties) where
  clientKey_ne := by simp [namedClient, clientkeyInvalid]
  cookie_eq := rfl
  version_eq := rfl

/-- A client without properties is created again, and the old one has no objects. -/
theorem client_recreated_firstClientRun :
    Recreated namedMiddleware firstClientRun.root (namedClient 2 none) .fastdds 5 ↔
      (namedClient 2 none).properties.getD [] = [] ∧
        (ClientRecord.new namedMiddleware (namedClient 1 none) .fastdds (clientProperties
          (namedClient 1 none)) 0 : ClientRecord MiddlewareConfig).Released :=
  client_recreated_iff firstClientRun_reached (clientAccepted_namedClient 2 none) rfl (by decide)
    .fastdds 5

/-- A client with properties is created again without them; and a participant of the old client is
not released. -/
theorem client_recreated_fails :
    (¬ ∀ (run : RootRun MiddlewareConfig) (representation : ClientRepresentation)
      (client : ClientRecord MiddlewareConfig), run.Reached namedMiddleware →
      ClientAccepted representation →
      run.root.storedClient representation.clientKey = some client →
      representation.sessionId ≠ client.representation.sessionId →
      (run.root.createClient namedMiddleware representation .fastdds 5).1.storedClient
          representation.clientKey =
        (Root.new.createClient namedMiddleware representation .fastdds 5).1.storedClient
          representation.clientKey) ∧
    ¬ ∀ (run : RootRun MiddlewareConfig) (representation : ClientRepresentation)
      (client : ClientRecord MiddlewareConfig), run.Reached namedMiddleware →
      ClientAccepted representation →
      run.root.storedClient representation.clientKey = some client →
      representation.sessionId ≠ client.representation.sessionId →
      Recreated namedMiddleware run.root representation .fastdds 5 := by
  constructor
  · intro h
    have hsame := h firstClientRun (namedClient 2 (some [("uxr_sm", "1")])) _
      firstClientRun_reached (clientAccepted_namedClient 2 _) rfl (by decide)
    have hmiddleware := congrArg (Option.map fun client => client.proxy.middleware) hsame
    exact absurd hmiddleware (by decide)
  · intro h
    have hrecreated := h participantRun (namedClient 2 none) _ participantRun_reached
      (clientAccepted_namedClient 2 none) rfl (by decide)
    have hreleased := hrecreated.released 0 _ rfl rfl (0, 17)
    cases hreleased

end XrceDds
