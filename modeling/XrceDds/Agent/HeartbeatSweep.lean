import XrceDds.Agent.Root

/-!
# The sweep of the heartbeats

`check_heartbeats` calls `get_next_client` until it returns false.  The iterator is kept in the
`Root`, and clients are created and deleted by other threads between two calls: `delete_client`
moves the iterator when it is at the client that is deleted.

From one false result to the next, the keys of the clients that are returned grow
(`sweep_keys`), and a client that is there all the time stays ahead of the iterator until it is
returned (`mem_results`).
-/

namespace XrceDds

namespace RootRun

variable {μ : Type} (middleware : MiddlewareClass μ)

/-- The results of `get_next_client` along the events. -/
def results (run : RootRun μ) : List (RootEvent μ) → List (Option ℕ)
  | [] => []
  | .next :: es => run.root.getNextClient.2 :: results (run.step middleware .next) es
  | e :: es => results (run.step middleware e) es

/-- From a false result of `get_next_client` to the next one: the events in between, and the clients
that are returned. -/
structure Sweep (run : RootRun μ) (es : List (RootEvent μ)) (numbers : List ℕ) : Prop where
  starts : run.root.getNextClient.2 = none
  admitted : Transition.AdmittedAll (step middleware) Admitted (run.step middleware .next) es
  returns : results middleware (run.step middleware .next) es = numbers.map some
  ends : (es.foldl (step middleware) (run.step middleware .next)).root.getNextClient.2 = none

/-- A client is there all the time. -/
def Stays (run : RootRun μ) (es : List (RootEvent μ)) (key : ClientKey) (number : ℕ) : Prop :=
  ∀ n ≤ es.length, ((es.take n).foldl (step middleware) run).root.getClient key = some number

/-- The clients that are not yet behind the iterator. -/
def Ahead (run : RootRun μ) (key : ClientKey) : Prop :=
  run.root.clients.Ahead run.root.currentClient key

variable {middleware} {run : RootRun μ} {es : List (RootEvent μ)} {key : ClientKey} {number : ℕ}

/-- A client that stays is there now. -/
lemma Stays.getClient (h : Stays middleware run es key number) :
    run.root.getClient key = some number := h 0 (Nat.zero_le _)

/-- A client that stays is there after the first event, and stays. -/
lemma Stays.tail {e : RootEvent μ} (h : Stays middleware run (e :: es) key number) :
    Stays middleware (run.step middleware e) es key number := fun n hn =>
  h (n + 1) (Nat.succ_le_succ hn)

/-- What `get_next_client` returns is at the iterator. -/
lemma Sound.getNextClient_eq_some (h : Sound run) (middleware : MiddlewareClass μ)
    (hnext : run.root.getNextClient.2 = some number) :
    ∃ e ∈ run.root.clients.entries, run.root.currentClient = some e.node ∧ e.value = number ∧
      (run.step middleware .next).root.currentClient = run.root.clients.next e.node := by
  unfold RootRun.step
  unfold Root.getNextClient at hnext ⊢
  cases hcurrent : run.root.currentClient with
  | none =>
    rw [hcurrent] at hnext
    cases hnext
  | some node =>
    obtain ⟨e, he, rfl⟩ := h.valid node hcurrent
    rw [hcurrent] at hnext
    dsimp only at hnext
    rw [NodeMap.deref_eq_some_iff.mpr ⟨he, rfl⟩] at hnext
    exact ⟨e, he, rfl, Option.some.inj hnext, rfl⟩

/-- When the result is false, the iterator was at the end and is at the first client. -/
lemma Sound.getNextClient_eq_none (h : Sound run) (middleware : MiddlewareClass μ)
    (hnext : run.root.getNextClient.2 = none) :
    run.root.currentClient = none ∧
      (run.step middleware .next).root.currentClient = run.root.clients.first := by
  unfold RootRun.step
  unfold Root.getNextClient at hnext ⊢
  cases hcurrent : run.root.currentClient with
  | none => exact ⟨rfl, rfl⟩
  | some node =>
    obtain ⟨e, he, rfl⟩ := h.valid node hcurrent
    rw [hcurrent] at hnext
    dsimp only at hnext
    rw [NodeMap.deref_eq_some_iff.mpr ⟨he, rfl⟩] at hnext
    cases hnext

/-- `get_next_client` leaves the map alone. -/
lemma clients_next (run : RootRun μ) :
    (run.step middleware .next).root.clients = run.root.clients := by
  unfold step Root.getNextClient
  dsimp only
  split <;> rfl

/-- A client that is there has an entry. -/
lemma exists_entry {root : Root μ} (h : root.getClient key = some number) :
    ∃ e ∈ root.clients.entries, e.key = key ∧ e.value = number := getClient_eq_some_iff.mp h

/-- Creating a client changes nothing of what is ahead. -/
lemma Sound.ahead_create (h : Sound run) (middleware : MiddlewareClass μ)
    (representation : ClientRepresentation) (kind : MiddlewareKind) (now : ℤ)
    (k : ClientKey) :
    (run.step middleware (.create representation kind now)).Ahead k ↔ run.Ahead k := by
  unfold RootRun.step Ahead
  dsimp only
  rcases createClient_cases middleware run.root representation kind now with heq |
    ⟨-, heq⟩ | ⟨m, -, heq⟩ | ⟨m, heq⟩
  · rw [heq]
  · rw [heq]
    exact NodeMap.ahead_emplace_iff h.valid
  · rw [heq]
    exact NodeMap.ahead_assign_iff
  · rw [heq]

/-- Deleting a client leaves what else is ahead. -/
lemma Sound.ahead_deleteClient (h : Sound run) (key : ClientKey) (found : Option ℕ)
    (k : ClientKey) :
    let root := (run.root.deleteClient middleware key found).1
    (root.clients.Ahead root.currentClient k → run.Ahead k) ∧
      (root.getClient k ≠ none → run.Ahead k → root.clients.Ahead root.currentClient k) := by
  cases found with
  | none => exact ⟨id, fun _ => id⟩
  | some number =>
    unfold Root.deleteClient Ahead
    cases hcurrent : run.root.currentClient with
    | none =>
      exact ⟨fun hahead => (NodeMap.not_ahead_none hahead).elim,
        fun _ hahead => (NodeMap.not_ahead_none hahead).elim⟩
    | some node =>
      obtain ⟨e, he, rfl⟩ := h.valid node hcurrent
      dsimp only
      rw [NodeMap.deref_eq_some_iff.mpr ⟨he, rfl⟩, Option.map_some]
      by_cases hkey : e.key = key
      · rw [if_pos (congrArg some hkey), ← hkey]
        refine ⟨fun hahead => ?_, fun hstays hahead => ?_⟩
        · exact ⟨e, he, rfl, (NodeMap.lt_of_ahead_next he hahead.of_erase).le⟩
        · obtain ⟨m, hm⟩ := Option.ne_none_iff_exists'.mp hstays
          obtain ⟨x, hx, rfl, -⟩ := exists_entry hm
          obtain ⟨hx, hne⟩ := NodeMap.mem_erase_iff.mp hx
          exact NodeMap.ahead_erase_next he hx hne hahead
      · rw [if_neg fun heq => hkey (Option.some.inj heq)]
        exact ⟨fun hahead => hahead.of_erase, fun _ hahead => NodeMap.ahead_erase he hkey hahead⟩

/-- An event between two calls of `get_next_client` puts nothing ahead, and leaves what stays. -/
lemma Sound.ahead_step (h : Sound run) {e : RootEvent μ} (hnext : e ≠ .next) (k : ClientKey) :
    ((run.step middleware e).Ahead k → run.Ahead k) ∧
      ((run.step middleware e).root.getClient k ≠ none → run.Ahead k →
        (run.step middleware e).Ahead k) := by
  cases e with
  | create representation kind now =>
    have hsame := h.ahead_create middleware representation kind now k
    exact ⟨hsame.mp, fun _ => hsame.mpr⟩
  | lookup thread key => exact ⟨id, fun _ => id⟩
  | erase thread =>
    unfold RootRun.step
    dsimp only
    cases run.found thread with
    | none => exact ⟨id, fun _ => id⟩
    | some call => exact h.ahead_deleteClient call.1 call.2 k
  | next => exact absurd rfl hnext
  | change number proxy session state timestamp => exact ⟨id, fun _ => id⟩

/-- The results are those of the calls of `get_next_client`. -/
lemma results_cons_of_ne {e : RootEvent μ} (hnext : e ≠ .next) :
    results middleware run (e :: es) = results middleware (run.step middleware e) es := by
  cases e with
  | next => exact absurd rfl hnext
  | create => rfl
  | lookup => rfl
  | erase => rfl
  | change => rfl

/-- A client that stays and is ahead is returned before the iterator is at the end. -/
lemma mem_results (h : Sound run) {numbers : List ℕ}
    (hadmitted : Transition.AdmittedAll (step middleware) Admitted run es)
    (hreturns : results middleware run es = numbers.map some)
    (hends : (es.foldl (step middleware) run).root.getNextClient.2 = none)
    (hstays : Stays middleware run es key number) (hahead : run.Ahead key) : number ∈ numbers := by
  induction es generalizing run numbers with
  | nil =>
    obtain ⟨hend, -⟩ := h.getNextClient_eq_none middleware hends
    unfold Ahead at hahead
    rw [hend] at hahead
    exact (NodeMap.not_ahead_none hahead).elim
  | cons e es ih =>
    by_cases hnext : e = .next
    · subst hnext
      cases numbers with
      | nil => cases hreturns
      | cons m numbers =>
        obtain ⟨hm, htail⟩ := List.cons.inj hreturns
        obtain ⟨x, hx, hnode, rfl, hmoved⟩ :=
          h.getNextClient_eq_some middleware hm
        obtain ⟨y, hy, rfl, rfl⟩ := exists_entry hstays.getClient
        by_cases hkey : y.key = x.key
        · rw [NodeMap.eq_of_key hy hx hkey]
          exact .head _
        · refine .tail _ (ih (h.step _) hadmitted.2 htail hends hstays.tail ?_)
          unfold Ahead at hahead ⊢
          rw [hnode] at hahead
          rw [clients_next, hmoved]
          exact NodeMap.ahead_next hx hy hkey hahead
    · rw [results_cons_of_ne hnext] at hreturns
      refine ih (h.step e) hadmitted.2 hreturns hends hstays.tail ?_
      refine (h.ahead_step hnext key).2 ?_ hahead
      rw [hstays.tail.getClient]
      exact Option.some_ne_none _

/-- The key of a client stays what it is. -/
lemma keyOf_step (run : RootRun μ) (e : RootEvent μ)
    (h : keyOf run.root.proxies number = some key) :
    keyOf (run.step middleware e).root.proxies number = some key := by
  cases e with
  | create representation kind now =>
    unfold step
    dsimp only
    rcases createClient_cases middleware run.root representation kind now with heq |
      ⟨-, heq⟩ | ⟨m, -, heq⟩ | ⟨m, heq⟩
    · rw [heq]
      exact h
    · rw [heq]
      exact keyOf_append h _
    · rw [heq]
      exact keyOf_append h _
    · rw [heq]
      refine (keyOf_modify _ _ m ?_).trans h
      exact fun _ => rfl
  | lookup thread key => exact h
  | erase thread =>
    unfold step
    dsimp only
    cases run.found thread with
    | none => exact h
    | some call =>
      cases hfound : call.2 with
      | none =>
        simp only [hfound, Root.deleteClient]
        exact h
      | some m =>
        simp only [hfound, Root.deleteClient]
        refine (keyOf_modify _ _ m ?_).trans h
        exact fun _ => rfl
  | next =>
    unfold step Root.getNextClient
    dsimp only
    split <;> exact h
  | change m proxy session state timestamp =>
    refine (keyOf_modify _ _ m ?_).trans h
    exact fun _ => rfl

/-- So it does along a run. -/
lemma keyOf_foldl (run : RootRun μ) (es : List (RootEvent μ))
    (h : keyOf run.root.proxies number = some key) :
    keyOf (es.foldl (step middleware) run).root.proxies number = some key := by
  induction es generalizing run with
  | nil => exact h
  | cons e es ih => exact ih _ (keyOf_step run e h)

/-- The clients that are returned were ahead, and their keys grow. -/
lemma results_keys (h : Sound run) {numbers : List ℕ}
    (hreturns : results middleware run es = numbers.map some) :
    (∀ m ∈ numbers, ∃ k,
        keyOf (es.foldl (step middleware) run).root.proxies m = some k ∧ run.Ahead k) ∧
      (numbers.map (keyOf (es.foldl (step middleware) run).root.proxies)).Nodup := by
  induction es generalizing run numbers with
  | nil =>
    obtain rfl : numbers = [] := List.map_eq_nil_iff.mp hreturns.symm
    exact ⟨by simp, .nil⟩
  | cons e es ih =>
    by_cases hnext : e = .next
    · subst hnext
      cases numbers with
      | nil => cases hreturns
      | cons m numbers =>
        obtain ⟨hm, htail⟩ := List.cons.inj hreturns
        obtain ⟨x, hx, hnode, rfl, hmoved⟩ :=
          h.getNextClient_eq_some middleware hm
        obtain ⟨habove, hnodup⟩ := ih (h.step .next) htail
        have hkey : keyOf (es.foldl (step middleware)
            (run.step middleware .next)).root.proxies x.value = some x.key :=
          keyOf_foldl _ es (keyOf_step run .next (h.keyed x hx))
        -- the iterator is behind the client that was returned
        have hlt : ∀ k, (run.step middleware .next).Ahead k → x.key < k := by
          intro k hk
          unfold Ahead at hk
          rw [clients_next, hmoved] at hk
          exact NodeMap.lt_of_ahead_next hx hk
        refine ⟨fun m hmem => ?_, List.nodup_cons.mpr ⟨fun hmem => ?_, hnodup⟩⟩
        · rcases List.mem_cons.mp hmem with rfl | hmem
          · exact ⟨x.key, hkey, x, hx, hnode, le_rfl⟩
          · obtain ⟨k, hk, hahead⟩ := habove m hmem
            exact ⟨k, hk, x, hx, hnode, (hlt k hahead).le⟩
        · obtain ⟨m, hmem, heq⟩ := List.mem_map.mp hmem
          obtain ⟨k, hk, hahead⟩ := habove m hmem
          have hsame : some k = some x.key := hk.symm.trans (heq.trans hkey)
          exact (hlt k hahead).ne' (Option.some.inj hsame)
    · rw [results_cons_of_ne hnext] at hreturns
      obtain ⟨habove, hnodup⟩ := ih (h.step e) hreturns
      refine ⟨fun m hmem => ?_, hnodup⟩
      obtain ⟨k, hk, hahead⟩ := habove m hmem
      exact ⟨k, hk, (h.ahead_step hnext k).1 hahead⟩

/-- What a sweep should do: the iterator designates an entry or the end, no client that was deleted
is returned, and from one false result to the next no key is returned twice, and every client
that stays exactly once. -/
structure Sweeps (middleware : MiddlewareClass μ) (run : RootRun μ) : Prop where
  valid : run.root.clients.Valid run.root.currentClient
  not_deleted : ∀ number, run.root.getNextClient.2 = some number → number ∉ run.deleted
  nodup : ∀ es numbers, Sweep middleware run es numbers →
    (numbers.map (keyOf (es.foldl (step middleware)
      (run.step middleware .next)).root.proxies)).Nodup
  count : ∀ es numbers key number, Sweep middleware run es numbers →
    Stays middleware (run.step middleware .next) es key number → numbers.count number = 1

/-- In every reachable state the sweep misses nobody. -/
theorem sweep_misses_nobody (hrun : run.Reached middleware) : run.Sweeps middleware where
  valid := hrun.sound.valid
  not_deleted number hnext := by
    obtain ⟨e, he, -, rfl, -⟩ := hrun.sound.getNextClient_eq_some middleware hnext
    exact hrun.sound.not_deleted e he
  nodup es numbers hsweep := (results_keys (hrun.sound.step .next) hsweep.returns).2
  count es numbers key number hsweep hstays := by
    have hsound := hrun.sound
    obtain ⟨-, hfirst⟩ := hsound.getNextClient_eq_none middleware hsweep.starts
    obtain ⟨e, he, rfl, rfl⟩ := exists_entry hstays.getClient
    have hahead : (run.step middleware .next).Ahead e.key := by
      unfold Ahead
      rw [clients_next] at he ⊢
      rw [hfirst]
      exact NodeMap.ahead_first he
    have hmem := mem_results (hsound.step .next) hsweep.admitted hsweep.returns hsweep.ends hstays
      hahead
    have hnodup := (results_keys (hsound.step .next) hsweep.returns).2.of_map
    exact List.count_eq_one_of_mem hnodup hmem

/-- Two clients, of which the first one was returned, and the second one is to be deleted. -/
def twoClientsRun : RootRun Unit :=
  [.create ⟨xrceCookie, (1, 0), 7, 1, none, 512⟩ .ced 0,
    .create ⟨xrceCookie, (1, 0), 9, 1, none, 512⟩ .ced 0, .next, .next, .lookup 3 9].foldl
    (step ⟨fun _ => (), fun _ _ => ()⟩) .new

/-- In this run. -/
theorem sweep_misses_nobody_twoClientsRun :
    twoClientsRun.Sweeps ⟨fun _ => (), fun _ _ => ()⟩ :=
  sweep_misses_nobody ((reached_new _).foldl _ ⟨trivial, trivial, trivial, trivial, rfl, trivial⟩)

end RootRun

end XrceDds
