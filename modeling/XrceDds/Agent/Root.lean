import XrceDds.Agent.ProxyClient
import XrceDds.Agent.Session
import XrceDds.Lib.NodeMap
import XrceDds.Lib.Transition
import Mathlib.Order.Fin.Basic

/-!
# The clients of an Agent

`Root` keeps the clients of an Agent in a map from client keys, with an iterator for the sweep of
the heartbeats.  A client that is created with the key of another one takes the place of that one,
when their sessions are different.

All of this is done under one lock, but for `delete_client`, which looks the client up before it
takes the lock again: the two halves are events of their own.

The new client should be as on an empty `Root`, and the objects of the old one released
(`Recreated`).  `client_recreated_iff` says when this is so: the properties are not passed on, and
`release` is not called.
-/

namespace XrceDds

/-- `dds::xrce::ClientKey`, as `clientkey_to_raw` has it.  The order of the numbers is that of the
arrays. -/
abbrev ClientKey := Fin 4294967296

/-- There are client keys; literals of their type rest on this one fact. -/
instance (priority := high) instNeZeroClientKey : NeZero 4294967296 := ⟨by decide⟩

/-- `raw_to_clientkey`. -/
def ClientKey.bytes (key : ClientKey) : List UInt8 :=
  [.ofNat (key.val >>> 24), .ofNat (key.val >>> 16), .ofNat (key.val >>> 8), .ofNat key.val]

/-- `CLIENTKEY_INVALID`. -/
def clientkeyInvalid : ClientKey := 0

/-- `XRCE_COOKIE`. -/
def xrceCookie : List UInt8 := [0x58, 0x52, 0x43, 0x45]

/-- `XRCE_VERSION_MAJOR`. -/
def xrceVersionMajor : UInt8 := 1

/-- `dds::xrce::CLIENT_Representation`. -/
structure ClientRepresentation where
  xrceCookie : List UInt8
  xrceVersion : UInt8 × UInt8
  clientKey : ClientKey
  sessionId : UInt8
  properties : Option (List (String × String))
  mtu : UInt16
  deriving DecidableEq

/-- `Middleware::Kind`. -/
inductive MiddlewareKind where
  | none | fastrtps | fastdds | ced
  deriving DecidableEq

/-- The constructors of the middlewares, with their arguments. -/
inductive MiddlewareConfig where
  | fast
  | fastdds (intraprocessEnabled : Bool)
  | ced (clientKey : ClientKey)
  deriving DecidableEq

/-- What the middlewares do: they are constructed, and the objects of a client are destroyed. -/
structure MiddlewareClass (μ : Type) where
  make : MiddlewareConfig → μ
  clear : μ → (ObjectId → Option XRCEObject) → μ

/-- `ProxyClient::State`. -/
inductive ClientState where
  | alive | dead
  deriving DecidableEq

/-- The results of `Root`. -/
inductive ClientStatus where
  | ok | invalidData | incompatible | resources | unknownReference
  deriving DecidableEq

/-- `ProxyClient` with all its members.  The properties are what `find` gives. -/
structure ClientRecord (μ : Type) where
  representation : ClientRepresentation
  proxy : ProxyClient μ
  session : Session
  state : ClientState
  timestamp : ℤ
  properties : String → Option String

namespace ClientRecord

variable {μ : Type} (middleware : MiddlewareClass μ)

/-- The middleware that the constructor of `ProxyClient` builds.  Where none is selected, the case
goes on into the one below it. -/
def middlewareConfig (representation : ClientRepresentation) (properties : String → Option String) :
    MiddlewareKind → MiddlewareConfig
  | .none | .fastrtps => .fast
  | .fastdds => .fastdds (properties "uxr_sm" = some "1")
  | .ced => .ced representation.clientKey

/-- The constructor of `ProxyClient`. -/
def new (representation : ClientRepresentation) (kind : MiddlewareKind)
    (properties : String → Option String) (now : ℤ) : ClientRecord μ where
  representation := representation
  proxy := .new (middleware.make (middlewareConfig representation properties kind))
  session := .new ⟨representation.clientKey.bytes, representation.sessionId,
    representation.mtu.toNat, rfl⟩
  state := .alive
  timestamp := now
  properties := properties

/-- `release`. -/
def release (client : ClientRecord μ) : ClientRecord μ :=
  { client with
    proxy := { client.proxy with
      objects := fun _ => none
      middleware := middleware.clear client.proxy.middleware client.proxy.objects } }

/-- No object is left. -/
def Released (client : ClientRecord μ) : Prop := ∀ objectId, client.proxy.objects objectId = none

end ClientRecord

/-- The properties that are inserted one after the other: those that come first stay. -/
def clientProperties (representation : ClientRepresentation) (name : String) : Option String :=
  (representation.properties.getD []).lookup name

/-- `Root`: the map holds numbers of clients, of which `proxies` are all that were ever made.  A
client with objects lives on without its entry, as the objects hold it. -/
structure Root (μ : Type) where
  clients : NodeMap ClientKey ℕ
  currentClient : Option ℕ
  proxies : List (ClientRecord μ)

namespace Root

variable {μ : Type} (middleware : MiddlewareClass μ)

/-- The constructor of `Root`. -/
def new : Root μ := ⟨.empty, none, []⟩

/-- `get_client`. -/
def getClient (root : Root μ) (key : ClientKey) : Option ℕ := (root.clients.find key).map (·.value)

/-- The client that is stored under a key. -/
def storedClient (root : Root μ) (key : ClientKey) : Option (ClientRecord μ) :=
  (root.getClient key).bind fun number => root.proxies[number]?

/-- `create_client`. -/
def createClient (root : Root μ) (representation : ClientRepresentation) (kind : MiddlewareKind)
    (now : ℤ) : Root μ × ClientStatus :=
  if representation.clientKey = clientkeyInvalid then (root, .invalidData)
  else if representation.xrceCookie = xrceCookie then
    if representation.xrceVersion.1 = xrceVersionMajor then
      match root.getClient representation.clientKey with
      | none =>
        let client := .new middleware representation kind (clientProperties representation) now
        ({ root with
          clients := root.clients.emplace representation.clientKey root.proxies.length
          proxies := root.proxies ++ [client] }, .ok)
      | some number =>
        if (root.proxies[number]?).map (·.representation.sessionId) ≠
            some representation.sessionId then
          -- No properties are passed, and the old client is not released.
          let client := .new middleware representation kind (fun _ => none) now
          ({ root with
            clients := root.clients.assign representation.clientKey root.proxies.length
            proxies := root.proxies ++ [client] }, .ok)
        else
          ({ root with
            proxies := root.proxies.modify number fun client =>
              { client with session := client.session.reset } }, .ok)
    else (root, .incompatible)
  else (root, .invalidData)

/-- `delete_client`, behind the call of `get_client` that has found `found`. -/
def deleteClient (root : Root μ) (key : ClientKey) (found : Option ℕ) : Root μ × ClientStatus :=
  match found with
  | some number =>
    let currentClient :=
      match root.currentClient with
      | some node =>
        if (root.clients.deref node).map (·.key) = some key then root.clients.next node
        else some node
      | none => none
    ({ clients := root.clients.erase key
       currentClient := currentClient
       proxies := root.proxies.modify number (.release middleware) }, .ok)
  | none => (root, .unknownReference)

/-- `get_next_client`.  There is no client when the result is false. -/
def getNextClient (root : Root μ) : Root μ × Option ℕ :=
  match root.currentClient with
  | some node =>
    ({ root with currentClient := root.clients.next node },
      (root.clients.deref node).map (·.value))
  | none => ({ root with currentClient := root.clients.first }, none)

end Root

/-! ## Runs -/

/-- What happens to a `Root`: a client is created; the two halves of `delete_client` in a thread;
`get_next_client`; or a client is changed in what may change. -/
inductive RootEvent (μ : Type) where
  | create (representation : ClientRepresentation) (kind : MiddlewareKind) (now : ℤ)
  | lookup (thread : ℕ) (key : ClientKey)
  | erase (thread : ℕ)
  | next
  | change (number : ℕ) (proxy : ProxyClient μ) (session : Session) (state : ClientState)
      (timestamp : ℤ)

/-- A run of a `Root`, with the calls of `delete_client` that are between their halves and what
`get_client` gave them, and the clients that were deleted. -/
structure RootRun (μ : Type) where
  root : Root μ
  found : ℕ → Option (ClientKey × Option ℕ)
  deleted : List ℕ

namespace RootRun

variable {μ : Type} (middleware : MiddlewareClass μ)

/-- What an event does.  A call of `delete_client` deletes the client that it has found, and the
one that is under the key by then. -/
def step (run : RootRun μ) : RootEvent μ → RootRun μ
  | .create representation kind now =>
    { run with root := (run.root.createClient middleware representation kind now).1 }
  | .lookup thread key =>
    { run with found := Function.update run.found thread (some (key, run.root.getClient key)) }
  | .erase thread =>
    match run.found thread with
    | some (key, found) =>
      { root := (run.root.deleteClient middleware key found).1
        found := Function.update run.found thread none
        deleted := match found with
          | some number => number :: ((run.root.getClient key).toList ++ run.deleted)
          | none => run.deleted }
    | none => run
  | .next => { run with root := run.root.getNextClient.1 }
  | .change number proxy session state timestamp =>
    { run with root := { run.root with
        proxies := run.root.proxies.modify number fun client =>
          { client with proxy := proxy, session := session, state := state
                        timestamp := timestamp } } }

/-- A thread makes one call at a time. -/
def Admitted (run : RootRun μ) : RootEvent μ → Prop
  | .lookup thread _ => run.found thread = none
  | _ => True

/-- A `Root` that was just constructed. -/
def new : RootRun μ := ⟨.new, fun _ => none, []⟩

/-- The runs. -/
def Reached (run : RootRun μ) : Prop :=
  Transition.Reaches (· = new) (step middleware) Admitted run

/-- The run that has just started. -/
lemma reached_new : Reached middleware (new : RootRun μ) := .start rfl

/-- The key of a client. -/
def keyOf (proxies : List (ClientRecord μ)) (number : ℕ) : Option ClientKey :=
  (proxies[number]?).map (·.representation.clientKey)

/-- The entries are of clients with their keys, none of which was deleted, and the iterator of the
sweep designates one of them or the end. -/
structure Sound (run : RootRun μ) : Prop where
  keyed : ∀ e ∈ run.root.clients.entries, keyOf run.root.proxies e.value = some e.key
  valid : run.root.clients.Valid run.root.currentClient
  found_keyed : ∀ thread key number, run.found thread = some (key, some number) →
    keyOf run.root.proxies number = some key
  deleted_lt : ∀ number ∈ run.deleted, number < run.root.proxies.length
  not_deleted : ∀ e ∈ run.root.clients.entries, e.value ∉ run.deleted

/-! ### What the operations do -/

variable {middleware} {run : RootRun μ}

/-- A client that is there has a number. -/
lemma lt_of_keyOf {proxies : List (ClientRecord μ)} {number : ℕ} {key : ClientKey}
    (h : keyOf proxies number = some key) : number < proxies.length := by
  obtain ⟨client, hclient, -⟩ := Option.map_eq_some_iff.mp h
  exact (List.getElem?_eq_some_iff.mp hclient).1

/-- Keys stay when a client is made. -/
lemma keyOf_append {proxies : List (ClientRecord μ)} {number : ℕ} {key : ClientKey}
    (h : keyOf proxies number = some key) (client : ClientRecord μ) :
    keyOf (proxies ++ [client]) number = some key := by
  unfold keyOf
  rw [List.getElem?_append_left (lt_of_keyOf h)]
  exact h

/-- The key of the client that is made. -/
lemma keyOf_append_self (proxies : List (ClientRecord μ)) (client : ClientRecord μ) :
    keyOf (proxies ++ [client]) proxies.length = some client.representation.clientKey := by
  unfold keyOf
  rw [List.getElem?_concat_length]
  rfl

/-- Keys stay when a client changes. -/
lemma keyOf_modify (proxies : List (ClientRecord μ)) (number m : ℕ)
    {f : ClientRecord μ → ClientRecord μ} (hf : ∀ c, (f c).representation = c.representation) :
    keyOf (proxies.modify m f) number = keyOf proxies number := by
  unfold keyOf
  rw [List.getElem?_modify]
  cases proxies[number]? with
  | none => rfl
  | some client =>
    by_cases h : m = number
    · simp [h, hf]
    · simp [h]

/-- What `create_client` does to the map and to the clients. -/
lemma createClient_cases (middleware : MiddlewareClass μ) (root : Root μ)
    (representation : ClientRepresentation) (kind : MiddlewareKind) (now : ℤ) :
    (root.createClient middleware representation kind now).1 = root ∨
    (root.getClient representation.clientKey = none ∧
      (root.createClient middleware representation kind now).1 =
        { root with
          clients := root.clients.emplace representation.clientKey root.proxies.length
          proxies := root.proxies ++ [.new middleware representation kind
            (clientProperties representation) now] }) ∨
    (∃ number, root.getClient representation.clientKey = some number ∧
      (root.createClient middleware representation kind now).1 =
        { root with
          clients := root.clients.assign representation.clientKey root.proxies.length
          proxies := root.proxies ++ [.new middleware representation kind (fun _ => none) now] }) ∨
    (∃ number, (root.createClient middleware representation kind now).1 =
        { root with
          proxies := root.proxies.modify number fun client =>
            { client with session := client.session.reset } }) := by
  unfold Root.createClient
  split
  · exact .inl rfl
  · split
    · split
      · split
        · next hfound => exact .inr (.inl ⟨hfound, rfl⟩)
        · next number hfound =>
          split
          · exact .inr (.inr (.inl ⟨number, hfound, rfl⟩))
          · exact .inr (.inr (.inr ⟨number, rfl⟩))
      · exact .inl rfl
    · exact .inl rfl

/-- The number that `get_client` gives is that of an entry. -/
lemma getClient_eq_some_iff {root : Root μ} {key : ClientKey} {number : ℕ} :
    root.getClient key = some number ↔
      ∃ e ∈ root.clients.entries, e.key = key ∧ e.value = number := by
  unfold Root.getClient
  rw [Option.map_eq_some_iff]
  constructor
  · rintro ⟨e, he, hvalue⟩
    obtain ⟨hmem, hkey⟩ := NodeMap.find_eq_some_iff.mp he
    exact ⟨e, hmem, hkey, hvalue⟩
  · rintro ⟨e, hmem, hkey, hvalue⟩
    exact ⟨e, NodeMap.find_eq_some_iff.mpr ⟨hmem, hkey⟩, hvalue⟩

/-! ### What every run keeps -/

namespace Sound

/-- A new `Root` has no entries. -/
lemma start : Sound (new : RootRun μ) where
  keyed _ he := by cases he
  valid _ h := by cases h
  found_keyed _ _ _ h := by cases h
  deleted_lt _ h := by cases h
  not_deleted _ he := by cases he

/-- Clients that change, but not in what they were created from. -/
lemma modify (h : Sound run) (number : ℕ) {f : ClientRecord μ → ClientRecord μ}
    (hf : ∀ c, (f c).representation = c.representation) :
    Sound { run with root := { run.root with proxies := run.root.proxies.modify number f } } where
  keyed e he := (keyOf_modify _ _ _ hf).trans (h.keyed e he)
  valid := h.valid
  found_keyed thread key m hfound := (keyOf_modify _ _ _ hf).trans
    (h.found_keyed thread key m hfound)
  deleted_lt m hm := by
    rw [List.length_modify]
    exact h.deleted_lt m hm
  not_deleted := h.not_deleted

/-- A client that is made was not deleted. -/
lemma length_notMem_deleted (h : Sound run) : run.root.proxies.length ∉ run.deleted :=
  fun hmem => Nat.lt_irrefl _ (h.deleted_lt _ hmem)

/-- A client is made for an entry of its own. -/
lemma emplace (h : Sound run) (client : ClientRecord μ) :
    Sound { run with root := { run.root with
      clients := run.root.clients.emplace client.representation.clientKey run.root.proxies.length
      proxies := run.root.proxies ++ [client] } } where
  keyed e he := by
    rcases NodeMap.mem_emplace_iff.mp he with he | ⟨-, rfl⟩
    · exact keyOf_append (h.keyed e he) client
    · exact keyOf_append_self _ _
  valid node hnode := by
    obtain ⟨e, he, heq⟩ := h.valid node hnode
    exact ⟨e, NodeMap.mem_emplace_iff.mpr (.inl he), heq⟩
  found_keyed thread key m hfound := keyOf_append (h.found_keyed thread key m hfound) client
  deleted_lt m hm := by
    rw [List.length_append]
    exact (h.deleted_lt m hm).trans_le (Nat.le_add_right _ _)
  not_deleted e he := by
    rcases NodeMap.mem_emplace_iff.mp he with he | ⟨-, rfl⟩
    · exact h.not_deleted e he
    · exact h.length_notMem_deleted

/-- A client is made and takes the place of another one. -/
lemma assign (h : Sound run) (client : ClientRecord μ) :
    Sound { run with root := { run.root with
      clients := run.root.clients.assign client.representation.clientKey run.root.proxies.length
      proxies := run.root.proxies ++ [client] } } where
  keyed e he := by
    obtain ⟨x, hx, rfl⟩ := NodeMap.mem_assign_iff.mp he
    split
    · next hkey =>
      rw [hkey]
      exact keyOf_append_self _ _
    · exact keyOf_append (h.keyed x hx) client
  valid node hnode := by
    obtain ⟨e, he, heq⟩ := h.valid node hnode
    refine ⟨_, NodeMap.mem_assign_iff.mpr ⟨e, he, rfl⟩, ?_⟩
    split <;> exact heq
  found_keyed thread key m hfound := keyOf_append (h.found_keyed thread key m hfound) client
  deleted_lt m hm := by
    rw [List.length_append]
    exact (h.deleted_lt m hm).trans_le (Nat.le_add_right _ _)
  not_deleted e he := by
    obtain ⟨x, hx, rfl⟩ := NodeMap.mem_assign_iff.mp he
    split
    · exact h.length_notMem_deleted
    · exact h.not_deleted x hx

/-- `create_client`. -/
lemma createClient (h : Sound run) (representation : ClientRepresentation) (kind : MiddlewareKind)
    (now : ℤ) :
    Sound { run with root := (run.root.createClient middleware representation kind now).1 } := by
  rcases createClient_cases middleware run.root representation kind now with heq |
    ⟨-, heq⟩ | ⟨number, -, heq⟩ | ⟨number, heq⟩
  · rw [heq]
    exact h
  · rw [heq]
    exact h.emplace (.new middleware representation kind (clientProperties representation) now)
  · rw [heq]
    exact h.assign (.new middleware representation kind (fun _ => none) now)
  · rw [heq]
    exact h.modify number fun _ => rfl

/-- The iterator after `delete_client`: it designates an entry that stays. -/
lemma valid_deleteClient (h : Sound run) (middleware : MiddlewareClass μ) (key : ClientKey)
    (number : ℕ) :
    (run.root.clients.erase key).Valid
      (run.root.deleteClient middleware key (some number)).1.currentClient := by
  unfold Root.deleteClient
  dsimp only
  split
  · next node hcurrent =>
    obtain ⟨e, he, rfl⟩ := h.valid node hcurrent
    rw [NodeMap.deref_eq_some_iff.mpr ⟨he, rfl⟩, Option.map_some]
    by_cases hkey : e.key = key
    · rw [if_pos (congrArg some hkey), ← hkey]
      exact NodeMap.valid_erase_next he
    · rw [if_neg fun heq => hkey (Option.some.inj heq)]
      exact NodeMap.valid_erase he hkey
  · exact fun _ hnone => by cases hnone

/-- The second half of `delete_client`. -/
lemma deleteClient (h : Sound run) {thread : ℕ} {key : ClientKey} {number : ℕ}
    (hfound : run.found thread = some (key, some number)) :
    Sound
      { root := (run.root.deleteClient middleware key (some number)).1
        found := Function.update run.found thread none
        deleted := number :: ((run.root.getClient key).toList ++ run.deleted) } where
  keyed e he := (keyOf_modify _ _ number (f := .release middleware) fun _ => rfl).trans
    (h.keyed e (NodeMap.mem_erase_iff.mp he).1)
  valid := h.valid_deleteClient middleware key number
  found_keyed other key' m hother := by
    dsimp only at hother
    rw [Function.update_apply] at hother
    split at hother
    · cases hother
    · exact (keyOf_modify _ _ number (f := .release middleware) fun _ => rfl).trans
        (h.found_keyed other key' m hother)
  deleted_lt m hm := by
    change m < (run.root.proxies.modify number _).length
    rw [List.length_modify]
    rcases List.mem_cons.mp hm with rfl | hm
    · exact lt_of_keyOf (h.found_keyed thread key m hfound)
    · rcases List.mem_append.mp hm with hm | hm
      · obtain ⟨e, he, -, rfl⟩ := getClient_eq_some_iff.mp (Option.mem_toList.mp hm)
        exact lt_of_keyOf (h.keyed e he)
      · exact h.deleted_lt m hm
  not_deleted e he hmem := by
    obtain ⟨he, hne⟩ := NodeMap.mem_erase_iff.mp he
    rcases List.mem_cons.mp hmem with heq | hmem
    · have hkey := h.found_keyed thread key number hfound
      rw [← heq, h.keyed e he] at hkey
      exact hne (Option.some.inj hkey)
    · rcases List.mem_append.mp hmem with hmem | hmem
      · obtain ⟨x, hx, hkey, hvalue⟩ := getClient_eq_some_iff.mp (Option.mem_toList.mp hmem)
        have hsame := h.keyed x hx
        rw [hvalue, h.keyed e he] at hsame
        exact hne ((Option.some.inj hsame).trans hkey)
      · exact h.not_deleted e he hmem

/-- `get_next_client`. -/
lemma getNextClient (h : Sound run) : Sound { run with root := run.root.getNextClient.1 } := by
  unfold Root.getNextClient
  cases hcurrent : run.root.currentClient with
  | none => exact { h with valid := NodeMap.valid_first }
  | some node =>
    obtain ⟨e, he, rfl⟩ := h.valid node hcurrent
    exact { h with valid := NodeMap.valid_next he }

/-- Every event keeps all of this. -/
lemma step (h : Sound run) (e : RootEvent μ) : Sound (run.step middleware e) := by
  cases e with
  | create representation kind now => exact h.createClient representation kind now
  | lookup thread key =>
    refine { h with found_keyed := fun other key' number hother => ?_ }
    dsimp only [RootRun.step] at hother
    rw [Function.update_apply] at hother
    split at hother
    · obtain ⟨rfl, hnumber⟩ := Prod.mk.inj (Option.some.inj hother)
      obtain ⟨x, hx, rfl, rfl⟩ := getClient_eq_some_iff.mp hnumber
      exact h.keyed x hx
    · exact h.found_keyed other key' number hother
  | erase thread =>
    unfold RootRun.step
    dsimp only
    cases hfound : run.found thread with
    | none => exact h
    | some call =>
      obtain ⟨key, found⟩ := call
      cases found with
      | some number => exact h.deleteClient hfound
      | none =>
        refine { h with found_keyed := fun other key' number hother => ?_ }
        dsimp only at hother
        rw [Function.update_apply] at hother
        split at hother
        · cases hother
        · exact h.found_keyed other key' number hother
  | next => exact h.getNextClient
  | change number proxy session state timestamp => exact h.modify number fun _ => rfl

end Sound

/-- Every run keeps all of this. -/
lemma Reached.sound (h : run.Reached middleware) : Sound run :=
  Transition.Reaches.invariant (fun _ hnew => hnew ▸ Sound.start)
    (fun _ e hsound _ => hsound.step e)
    h

end RootRun

end XrceDds
