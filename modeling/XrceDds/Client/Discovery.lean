import XrceDds.Client.InfoPayload
import XrceDds.Transport.FramedRead

/-!
# The discovery of agents

`uxr_discovery_agents` sends its request and then listens as long as its poll is positive.  After
every datagram it takes off the poll all the time since the request, so that the time before the
previous datagram is taken off again.  An INFO is accepted when the callback of the application
accepts its last locator, whatever it said of the others.  `discovery_kept_iff` says when neither
matters.

How a locator is read is left open.
-/

namespace XrceDds

/-! ## A datagram -/

/-- `DDS_XRCE_XRCE_VERSION`. -/
def ddsXrceXrceVersion : List UInt8 := [0x01, 0x00]

/-- `UXR_TRANSPORT_LOCATOR_SEQUENCE_MAX`. -/
def uxrTransportLocatorSequenceMax : ℕ := 4

/-- The fields of an `INFO_Payload` that the discovery uses. -/
structure DiscoveryInfo (Locator : Type) where
  xrceVersion : List UInt8
  locators : List Locator

/-- The memory of an `INFO_Payload`. -/
structure DiscoveryMemory (Locator : Type) where
  objectInfo : ObjectInfoMemory
  payload : DiscoveryInfo Locator

/-- What is received, and what is then in the memory of an `INFO_Payload`. -/
abbrev DiscoveryOutcome (Locator : Type) := DatagramOutcome (DiscoveryMemory Locator)

/-- How a locator is read, by whether numbers are little endian; and the callback of the
application, which may depend on the locators that it was given before. -/
structure DiscoveryReader (Locator : Type) where
  info : InfoReader
  locator : Bool → ReadBuffer → ReadBuffer × Option Locator
  onAgent : List Locator → Locator → Bool

/-- What a datagram leads to: the id of its submessage, the results of the callback, whether it is
accepted, and the locators that the callback was given so far. -/
structure InfoResult (Locator : Type) where
  id : Option UInt8
  results : List Bool
  isSucceed : Bool
  seen : List Locator

variable {Locator : Type}

/-- The value of the bytes of a number. -/
def numberOf (little : Bool) (bytes : List UInt8) : ℕ :=
  (if little then bytes else bytes.reverse).foldr (fun byte n => byte.toNat + 256 * n) 0

/-- The loop over the locators of `uxr_deserialize_discovery_INFO_Payload`. -/
def deserializeLocators (reader : DiscoveryReader Locator) (little : Bool) :
    ℕ → ReadBuffer → Option (List Locator)
  | 0, _ => some []
  | n + 1, ub =>
    match reader.locator little ub with
    | (ub, some locator) => (deserializeLocators reader little n ub).map (locator :: ·)
    | (_, none) => none

/-- `uxr_deserialize_discovery_INFO_Payload`.  The version of another object than an Agent, and the
locators where there is no activity, are what is in the memory. -/
def uxrDeserializeDiscoveryInfoPayload (reader : DiscoveryReader Locator) (little : Bool)
    (unset : DiscoveryMemory Locator) (ub : ReadBuffer) : Option (DiscoveryInfo Locator) :=
  let start := deserializeInfoStart reader.info little unset.objectInfo ub
  let version := start.version.getD unset.payload.xrceVersion
  if start.optionalActivity then
    let kind := start.ub.deserializeByte
    if start.ret && kind.2 == some ddsXrceObjkAgent then
      let availability := kind.1.deserializeNumber 2
      let size := availability.1.deserializeNumber 4
      match availability.2, size.2 with
      | some _, some bytes =>
        let n := min (numberOf little bytes) uxrTransportLocatorSequenceMax
        (deserializeLocators reader little n size.1).map (⟨version, ·⟩)
      | _, _ => none
    else none
  else if start.ret then some ⟨version, unset.payload.locators⟩
  else none

/-- The loop of `read_info_message`, with the results of the callback. -/
def readLocators (onAgent : List Locator → Locator → Bool) (version : List UInt8) :
    List Locator → List Bool → Bool → List Locator → List Bool × Bool × List Locator
  | [], results, isSucceed, seen => (results, isSucceed, seen)
  | locator :: locators, results, isSucceed, seen =>
    if version = ddsXrceXrceVersion then
      let isSucceed := onAgent seen locator
      readLocators onAgent version locators (results ++ [isSucceed]) isSucceed (seen ++ [locator])
    else readLocators onAgent version locators results isSucceed seen

/-- `listen_info_message`. -/
def listenInfoMessage (reader : DiscoveryReader Locator) (seen : List Locator)
    (outcome : DiscoveryOutcome Locator) : InfoResult Locator :=
  match outcome.datagram with
  | none => ⟨none, [], false, seen⟩
  | some bytes =>
    match readInfoHeaders bytes with
    | none => ⟨none, [], false, seen⟩
    | some (id, little, ub) =>
      match uxrDeserializeDiscoveryInfoPayload reader little outcome.unset ub with
      | none => ⟨some id, [], false, seen⟩
      | some info =>
        let r := readLocators reader.onAgent info.xrceVersion info.locators [] false seen
        ⟨some id, r.1, r.2.1, r.2.2⟩

/-! ## The search -/

/-- A call of `listen_info_message`: the poll that it was given, the milliseconds since the request
before and after, and what the datagram led to. -/
structure DiscoveryListen where
  poll : ℤ
  start : ℕ
  stop : ℕ
  id : Option UInt8
  results : List Bool
  found : Bool

/-- How an attempt ends, with the milliseconds since the request: an agent was found, the poll was
used up, or it still listens with this poll. -/
inductive DiscoveryEnding where
  | found (elapsed : ℕ)
  | expired (elapsed : ℕ)
  | waiting (poll : ℤ) (elapsed : ℕ)

/-- The milliseconds since the request. -/
def DiscoveryEnding.elapsed : DiscoveryEnding → ℕ
  | .found elapsed => elapsed
  | .expired elapsed => elapsed
  | .waiting _ elapsed => elapsed

/-- The calls of an attempt, and how it ends. -/
structure DiscoveryAttempt where
  listens : List DiscoveryListen
  ending : DiscoveryEnding

/-- The inner loop of `uxr_discovery_agents`, over what is received, with what is received behind
it. -/
def listenLoop (reader : DiscoveryReader Locator) (poll : ℤ) (elapsed : ℕ) (seen : List Locator) :
    List (DiscoveryOutcome Locator) →
      DiscoveryAttempt × List (DiscoveryOutcome Locator) × List Locator
  | [] => (⟨[], if 0 < poll then .waiting poll elapsed else .expired elapsed⟩, [], seen)
  | outcome :: outcomes =>
    if 0 < poll then
      let r := listenInfoMessage reader seen outcome
      let stop := elapsed + outcome.duration
      let listen : DiscoveryListen := ⟨poll, elapsed, stop, r.id, r.results, r.isSucceed⟩
      if r.isSucceed then (⟨[listen], .found stop⟩, outcomes, r.seen)
      else
        -- The time since the request is taken off, not the time of this call.
        let rest := listenLoop reader (intCast (poll - intCast stop)) stop r.seen outcomes
        ({ rest.1 with listens := listen :: rest.1.listens }, rest.2)
    else (⟨[], .expired elapsed⟩, outcome :: outcomes, seen)

/-- `uxr_discovery_agents`, over what is received.  Where that ends, an attempt still listens. -/
def uxrDiscoveryAgents (reader : DiscoveryReader Locator) (period : ℤ) :
    ℕ → List Locator → List (DiscoveryOutcome Locator) → List DiscoveryAttempt
  | 0, _, _ => []
  | attempts + 1, seen, outcomes =>
    let r := listenLoop reader period 0 seen outcomes
    match r.1.ending with
    | .expired _ => r.1 :: uxrDiscoveryAgents reader period attempts r.2.2 r.2.1
    | _ => [r.1]

/-! ## What the discovery is for -/

/-- A received INFO has a locator that the callback accepted. -/
def DiscoveryListen.Accepted (listen : DiscoveryListen) : Prop :=
  listen.id = some submessageIdInfo ∧ true ∈ listen.results

/-- Every poll is the time that is left of the period, and the attempt expires with it. -/
structure DiscoveryAttempt.Keeps (period : ℤ) (attempt : DiscoveryAttempt) : Prop where
  polls : ∀ listen ∈ attempt.listens, listen.poll = period - listen.start
  waits : ∀ poll elapsed, attempt.ending = .waiting poll elapsed → poll = period - elapsed
  expires : ∀ elapsed, attempt.ending = .expired elapsed → period ≤ elapsed

/-- The attempts listen for the whole period; an attempt, and with it the search, ends with the
first INFO that is accepted, and goes on with the next attempt otherwise; and the search takes no
longer than its periods, with a millisecond for each. -/
structure DiscoveryKept (period : ℤ) (attempts : ℕ) (search : List DiscoveryAttempt) : Prop where
  keeps : ∀ attempt ∈ search, attempt.Keeps period
  stops : ∀ attempt ∈ search, ∀ before listen after,
    attempt.listens = before ++ listen :: after →
      (listen.Accepted ↔ after = [] ∧ ∃ elapsed, attempt.ending = .found elapsed)
  expires : ∀ before attempt after, search = before ++ attempt :: after → after ≠ [] →
    ∃ elapsed, attempt.ending = .expired elapsed
  goesOn : (∀ attempt ∈ search, ∃ elapsed, attempt.ending = .expired elapsed) →
    search.length = attempts
  total : ((search.map fun attempt => attempt.ending.elapsed).sum : ℤ) ≤
    attempts * max 0 period + attempts

instance : DecidablePred DiscoveryListen.Accepted := fun listen =>
  inferInstanceAs (Decidable (listen.id = some submessageIdInfo ∧ true ∈ listen.results))

/-- A call returns when its poll is over, at most a millisecond late. -/
def DiscoveryListen.Punctual (listen : DiscoveryListen) : Prop :=
  (listen.stop : ℤ) ≤ listen.start + listen.poll + 1

instance : DecidablePred DiscoveryListen.Punctual := fun listen =>
  inferInstanceAs (Decidable ((listen.stop : ℤ) ≤ listen.start + listen.poll + 1))

/-- Nothing that is not accepted comes before the period is over, but for what comes at once and
what comes next; and of an INFO the last locator is accepted if one is, and of another message it is
not. -/
structure DiscoveryListen.Fits (period : ℤ) (listen : DiscoveryListen) : Prop where
  atOnce : listen.results.getLast? ≠ some true → (listen.stop : ℤ) < period → listen.start = 0
  lastDecides : listen.Accepted ↔ listen.results.getLast? = some true

instance (period : ℤ) : DecidablePred (DiscoveryListen.Fits period) := fun listen =>
  decidable_of_iff
    ((listen.results.getLast? ≠ some true → (listen.stop : ℤ) < period → listen.start = 0) ∧
      (listen.Accepted ↔ listen.results.getLast? = some true))
    ⟨fun h => ⟨h.1, h.2⟩, fun h => ⟨h.atOnce, h.lastDecides⟩⟩

/-! ## One attempt -/

/-- The last result decides. -/
lemma readLocators_isSucceed (onAgent : List Locator → Locator → Bool) (version : List UInt8)
    (locators : List Locator) {results : List Bool} {isSucceed : Bool}
    (h : isSucceed = true ↔ results.getLast? = some true) (seen : List Locator) :
    (readLocators onAgent version locators results isSucceed seen).2.1 = true ↔
      (readLocators onAgent version locators results isSucceed seen).1.getLast? = some true := by
  induction locators generalizing results isSucceed seen with
  | nil => exact h
  | cons locator locators ih =>
    unfold readLocators
    split
    · refine ih ?_ _
      rw [List.getLast?_concat, Option.some.injEq]
    · exact ih h _

/-- A datagram is accepted when the last result is. -/
lemma listenInfoMessage_isSucceed (reader : DiscoveryReader Locator) (seen : List Locator)
    (outcome : DiscoveryOutcome Locator) :
    (listenInfoMessage reader seen outcome).isSucceed = true ↔
      (listenInfoMessage reader seen outcome).results.getLast? = some true := by
  have hnone : (false = true) ↔ ([] : List Bool).getLast? = some true := by simp
  unfold listenInfoMessage
  split
  · exact hnone
  · split
    · exact hnone
    · split
      · exact hnone
      · exact readLocators_isSucceed _ _ _ hnone _

/-- What a punctual call leaves of the poll. -/
lemma poll_sub {period poll : ℤ} {start stop : ℕ} (hperiod : period < 2147483648)
    (hpoll : 0 < poll) (hle : poll ≤ period - start)
    (hpunctual : (stop : ℤ) ≤ start + poll + 1) (hstop : start ≤ stop) :
    intCast (poll - intCast stop) = poll - stop := by
  have hcast : intCast (poll - intCast stop) = intCast (poll - stop) := Int.sub_bmod_bmod
  rw [hcast, intCast_of_range (by omega) (by omega)]

/-- The calls of an attempt that begins with this poll, so long after the request. -/
inductive Listens : ℤ → ℕ → DiscoveryAttempt → Prop
  | expired {poll : ℤ} {elapsed : ℕ} : poll ≤ 0 → Listens poll elapsed ⟨[], .expired elapsed⟩
  | waiting {poll : ℤ} {elapsed : ℕ} : 0 < poll → Listens poll elapsed ⟨[], .waiting poll elapsed⟩
  | found {listen : DiscoveryListen} : 0 < listen.poll → listen.start ≤ listen.stop →
      listen.results.getLast? = some true →
      Listens listen.poll listen.start ⟨[listen], .found listen.stop⟩
  | next {listen : DiscoveryListen} {attempt : DiscoveryAttempt} : 0 < listen.poll →
      listen.start ≤ listen.stop → listen.results.getLast? ≠ some true →
      Listens (intCast (listen.poll - intCast listen.stop)) listen.stop attempt →
      Listens listen.poll listen.start { attempt with listens := listen :: attempt.listens }

/-- The calls of the inner loop. -/
lemma listens_listenLoop (reader : DiscoveryReader Locator) (poll : ℤ) (elapsed : ℕ)
    (seen : List Locator) (outcomes : List (DiscoveryOutcome Locator)) :
    Listens poll elapsed (listenLoop reader poll elapsed seen outcomes).1 := by
  induction outcomes generalizing poll elapsed seen with
  | nil =>
    unfold listenLoop
    split
    · next hpoll => exact .waiting hpoll
    · next hpoll => exact .expired (Int.not_lt.mp hpoll)
  | cons outcome outcomes ih =>
    have hsucceed := listenInfoMessage_isSucceed reader seen outcome
    unfold listenLoop
    dsimp only
    split
    · next hpoll =>
      split
      · next hfound =>
        exact @Listens.found ⟨poll, elapsed, _, _, _, _⟩ hpoll (Nat.le_add_right _ _)
          (hsucceed.mp hfound)
      · next hfound =>
        exact @Listens.next ⟨poll, elapsed, _, _, _, _⟩ _ hpoll (Nat.le_add_right _ _)
          (mt hsucceed.mpr hfound) (ih _ _ _)
    · next hpoll => exact .expired (Int.not_lt.mp hpoll)

namespace Listens

variable {period poll : ℤ} {elapsed : ℕ} {attempt : DiscoveryAttempt}

/-- What is found is listened for. -/
lemma listens_ne_nil (h : Listens poll elapsed attempt) {stop : ℕ}
    (hending : attempt.ending = .found stop) : attempt.listens ≠ [] := by
  induction h with
  | expired _ => exact absurd hending (by simp)
  | waiting _ => exact absurd hending (by simp)
  | found _ _ _ => exact List.cons_ne_nil _ _
  | next _ _ _ _ _ => exact List.cons_ne_nil _ _

/-- No poll that is over is listened with. -/
lemma of_nonpos (h : Listens poll elapsed attempt) (hpoll : poll ≤ 0) :
    attempt = ⟨[], .expired elapsed⟩ := by
  induction h with
  | expired _ => rfl
  | waiting hpos => exact absurd hpoll (Int.not_le.mpr hpos)
  | found hpos _ _ => exact absurd hpoll (Int.not_le.mpr hpos)
  | next hpos _ _ _ _ => exact absurd hpoll (Int.not_le.mpr hpos)

/-- The attempt ends with what is found. -/
lemma stops (h : Listens poll elapsed attempt) {before after : List DiscoveryListen}
    {listen : DiscoveryListen} (hlistens : attempt.listens = before ++ listen :: after) :
    listen.results.getLast? = some true ↔
      after = [] ∧ ∃ elapsed', attempt.ending = .found elapsed' := by
  induction h generalizing before with
  | expired _ => exact absurd hlistens.symm (List.append_ne_nil_of_right_ne_nil _ (by simp))
  | waiting _ => exact absurd hlistens.symm (List.append_ne_nil_of_right_ne_nil _ (by simp))
  | found _ _ hlast =>
    cases before with
    | nil =>
      obtain ⟨rfl, rfl⟩ := List.cons.inj hlistens
      exact ⟨fun _ => ⟨rfl, _, rfl⟩, fun _ => hlast⟩
    | cons _ before =>
      exact absurd (List.cons.inj hlistens).2.symm
        (List.append_ne_nil_of_right_ne_nil _ (by simp))
  | next _ _ hlast hrest ih =>
    cases before with
    | nil =>
      obtain ⟨rfl, rfl⟩ := List.cons.inj hlistens
      refine ⟨fun hfound => absurd hfound hlast, ?_⟩
      rintro ⟨hnil, _, hending⟩
      exact absurd hnil (hrest.listens_ne_nil hending)
    | cons _ before => exact ih (List.cons.inj hlistens).2

/-- The first poll is kept as well. -/
lemma keeps_head (h : Listens poll elapsed attempt) (hkeeps : attempt.Keeps period) :
    if 0 < poll then poll = period - elapsed else period ≤ elapsed := by
  cases h with
  | expired hpoll =>
    rw [if_neg (Int.not_lt.mpr hpoll)]
    exact hkeeps.expires _ rfl
  | waiting hpoll =>
    rw [if_pos hpoll]
    exact hkeeps.waits _ _ rfl
  | found hpoll _ _ =>
    rw [if_pos hpoll]
    exact hkeeps.polls _ (.head _)
  | next hpoll _ _ _ =>
    rw [if_pos hpoll]
    exact hkeeps.polls _ (.head _)

/-- Of an attempt that begins with what is left, the polls are kept exactly when nothing comes
behind something that took time. -/
lemma keeps_iff (hperiod : period < 2147483648) (h : Listens poll elapsed attempt)
    (hpoll : poll = period - elapsed)
    (hpunctual : ∀ listen ∈ attempt.listens, listen.Punctual) :
    attempt.Keeps period ↔ ∀ listen ∈ attempt.listens,
      listen.results.getLast? ≠ some true → (listen.stop : ℤ) < period → listen.start = 0 := by
  induction h with
  | @expired poll elapsed hend =>
    refine ⟨fun _ => by simp, fun _ => ⟨by simp, by simp, ?_⟩⟩
    rintro _ ⟨⟩
    omega
  | @waiting poll elapsed hpos =>
    refine ⟨fun _ => by simp, fun _ => ⟨by simp, ?_, by simp⟩⟩
    rintro _ _ ⟨⟩
    exact hpoll
  | @found listen hpos hstop hlast =>
    refine ⟨fun _ => ?_, fun _ => ⟨?_, by simp, by simp⟩⟩
    · rw [List.forall_mem_singleton]
      exact fun hno => absurd hlast hno
    · rw [List.forall_mem_singleton]
      exact hpoll
  | @next listen attempt hpos hstop hlast hrest ih =>
    have hin := hpunctual listen (.head _)
    have hleft := poll_sub hperiod hpos (by omega) hin hstop
    have hothers : ∀ other ∈ attempt.listens, other.Punctual := fun other hother =>
      hpunctual other (.tail _ hother)
    have hkeeps : DiscoveryAttempt.Keeps period
        { attempt with listens := listen :: attempt.listens } ↔ attempt.Keeps period :=
      ⟨fun h => ⟨fun other hother => h.polls other (.tail _ hother), h.waits, h.expires⟩,
        fun h => ⟨List.forall_mem_cons.mpr ⟨hpoll, h.polls⟩, h.waits, h.expires⟩⟩
    rw [hkeeps, List.forall_mem_cons]
    rcases Int.lt_or_le listen.stop period with hlt | hge
    · by_cases hstart : listen.start = 0
      · rw [ih (by omega) hothers]
        exact ⟨fun h => ⟨fun _ _ => hstart, h⟩, fun h => h.2⟩
      · refine ⟨fun h => ?_, fun h => absurd (h.1 hlast hlt) hstart⟩
        -- The time before the call was taken off twice.
        have hhead := hrest.keeps_head h
        rw [hleft] at hhead
        split at hhead <;> omega
    · obtain rfl := hrest.of_nonpos (by omega)
      refine ⟨fun _ => ⟨fun _ h => absurd h (by omega), by simp⟩, fun _ => ⟨by simp, by simp, ?_⟩⟩
      rintro _ ⟨⟩
      exact hge

/-- An attempt takes no longer than its period, and a millisecond. -/
lemma elapsed_le (hperiod : period < 2147483648) (h : Listens poll elapsed attempt)
    (hpoll : poll ≤ period - elapsed) (helapsed : (elapsed : ℤ) ≤ max 0 period + 1)
    (hpunctual : ∀ listen ∈ attempt.listens, listen.Punctual) :
    (attempt.ending.elapsed : ℤ) ≤ max 0 period + 1 := by
  induction h with
  | expired _ => exact helapsed
  | waiting _ => exact helapsed
  | @found listen hpos hstop _ =>
    have hin := hpunctual listen (.head _)
    unfold DiscoveryListen.Punctual at hin
    show (listen.stop : ℤ) ≤ _
    omega
  | @next listen attempt hpos hstop _ _ ih =>
    have hin := hpunctual listen (.head _)
    have hleft := poll_sub hperiod hpos hpoll hin hstop
    unfold DiscoveryListen.Punctual at hin
    refine ih ?_ ?_ fun other hother => hpunctual other (.tail _ hother)
    · omega
    · omega

end Listens

/-! ## The whole search -/

variable {reader : DiscoveryReader Locator} {period : ℤ}

/-- The attempts of a search listen one after the other, and each but the last one expires. -/
inductive Searches (period : ℤ) : ℕ → List DiscoveryAttempt → Prop
  | none : Searches period 0 []
  | last {attempts : ℕ} {attempt : DiscoveryAttempt} : Listens period 0 attempt →
      (∀ elapsed, attempt.ending ≠ .expired elapsed) →
      Searches period (attempts + 1) [attempt]
  | next {attempts elapsed : ℕ} {attempt : DiscoveryAttempt} {search : List DiscoveryAttempt} :
      Listens period 0 attempt → attempt.ending = .expired elapsed →
      Searches period attempts search → Searches period (attempts + 1) (attempt :: search)

/-- The attempts of `uxr_discovery_agents`. -/
lemma searches_uxrDiscoveryAgents (reader : DiscoveryReader Locator) (period : ℤ) (attempts : ℕ)
    (seen : List Locator) (outcomes : List (DiscoveryOutcome Locator)) :
    Searches period attempts (uxrDiscoveryAgents reader period attempts seen outcomes) := by
  induction attempts generalizing seen outcomes with
  | zero => exact .none
  | succ attempts ih =>
    have hlistens := listens_listenLoop reader period 0 seen outcomes
    unfold uxrDiscoveryAgents
    dsimp only
    split
    · next hending => exact .next hlistens hending (ih _ _)
    · next hending => exact .last hlistens hending

namespace Searches

variable {attempts : ℕ} {search : List DiscoveryAttempt}

/-- Every attempt begins with the period. -/
lemma listens (h : Searches period attempts search) {attempt : DiscoveryAttempt}
    (hattempt : attempt ∈ search) : Listens period 0 attempt := by
  induction h with
  | none => exact absurd hattempt (List.not_mem_nil)
  | last hlistens _ => exact List.mem_singleton.mp hattempt ▸ hlistens
  | next hlistens _ _ ih =>
    rcases List.mem_cons.mp hattempt with rfl | htail
    · exact hlistens
    · exact ih htail

/-- Only the last attempt may find an agent. -/
lemma expires (h : Searches period attempts search) {before after : List DiscoveryAttempt}
    {attempt : DiscoveryAttempt} (hsearch : search = before ++ attempt :: after)
    (hafter : after ≠ []) : ∃ elapsed, attempt.ending = .expired elapsed := by
  induction h generalizing before with
  | none => exact absurd hsearch.symm (List.append_ne_nil_of_right_ne_nil _ (by simp))
  | last _ _ =>
    cases before with
    | nil => exact absurd (List.cons.inj hsearch).2.symm hafter
    | cons _ before =>
      exact absurd (List.cons.inj hsearch).2.symm
        (List.append_ne_nil_of_right_ne_nil _ (by simp))
  | next _ hending _ ih =>
    cases before with
    | nil => exact ⟨_, (List.cons.inj hsearch).1 ▸ hending⟩
    | cons _ before => exact ih (List.cons.inj hsearch).2

/-- A search that finds no agent makes all its attempts. -/
lemma goesOn (h : Searches period attempts search)
    (hexpired : ∀ attempt ∈ search, ∃ elapsed, attempt.ending = .expired elapsed) :
    search.length = attempts := by
  induction h with
  | none => rfl
  | last _ hending =>
    obtain ⟨elapsed, helapsed⟩ := hexpired _ (.head _)
    exact absurd helapsed (hending elapsed)
  | next _ _ _ ih =>
    rw [List.length_cons, ih fun attempt hattempt => hexpired attempt (.tail _ hattempt)]

/-- A search takes no longer than its periods, with a millisecond for each. -/
lemma total_le (hperiod : period < 2147483648) (h : Searches period attempts search)
    (hpunctual : ∀ attempt ∈ search, ∀ listen ∈ attempt.listens, listen.Punctual) :
    ((search.map fun attempt => attempt.ending.elapsed).sum : ℤ) ≤
      attempts * (max 0 period + 1) := by
  have hone : ∀ attempt, Listens period 0 attempt →
      (∀ listen ∈ attempt.listens, listen.Punctual) →
      (attempt.ending.elapsed : ℤ) ≤ max 0 period + 1 := fun attempt hlistens hin =>
    hlistens.elapsed_le hperiod (by omega) (by omega) hin
  induction h with
  | none => simp
  | @last attempts attempt hlistens _ =>
    have hle := hone attempt hlistens (hpunctual _ (.head _))
    have hrest : (0 : ℤ) ≤ attempts * (max 0 period + 1) :=
      Int.mul_nonneg (by omega) (by omega)
    rw [List.map_singleton, List.sum_singleton, Int.natCast_add, Int.add_mul]
    omega
  | @next attempts elapsed attempt search hlistens _ _ ih =>
    have hle := hone attempt hlistens (hpunctual _ (.head _))
    have hrest := ih fun other hother => hpunctual other (.tail _ hother)
    rw [List.map_cons, List.sum_cons, Int.natCast_add, Int.add_mul]
    omega

end Searches

/-- A discovery is kept exactly when nothing that is not accepted comes before the period is over,
but for what comes at once and what comes next, and the last locator of an INFO decides. -/
theorem discovery_kept_iff (reader : DiscoveryReader Locator) (hperiod : period < 2147483648)
    (attempts : ℕ) (seen : List Locator) (outcomes : List (DiscoveryOutcome Locator))
    (hpunctual : ∀ attempt ∈ uxrDiscoveryAgents reader period attempts seen outcomes,
      ∀ listen ∈ attempt.listens, listen.Punctual) :
    DiscoveryKept period attempts (uxrDiscoveryAgents reader period attempts seen outcomes) ↔
      ∀ attempt ∈ uxrDiscoveryAgents reader period attempts seen outcomes,
        ∀ listen ∈ attempt.listens, listen.Fits period := by
  have hsearches := searches_uxrDiscoveryAgents reader period attempts seen outcomes
  generalize uxrDiscoveryAgents reader period attempts seen outcomes = search at *
  have hkeeps : ∀ attempt ∈ search, (attempt.Keeps period ↔ ∀ listen ∈ attempt.listens,
      listen.results.getLast? ≠ some true → (listen.stop : ℤ) < period → listen.start = 0) :=
    fun attempt hattempt =>
      (hsearches.listens hattempt).keeps_iff hperiod (by omega) (hpunctual attempt hattempt)
  constructor
  · intro h attempt hattempt listen hlisten
    refine ⟨(hkeeps attempt hattempt).mp (h.keeps attempt hattempt) listen hlisten, ?_⟩
    obtain ⟨before, after, hlistens⟩ := List.append_of_mem hlisten
    rw [h.stops attempt hattempt before listen after hlistens,
      (hsearches.listens hattempt).stops hlistens]
  · intro h
    refine ⟨fun attempt hattempt => ?_, fun attempt hattempt before listen after hlistens => ?_,
      fun before attempt after hsearch hafter => hsearches.expires hsearch hafter,
      hsearches.goesOn, ?_⟩
    · exact (hkeeps attempt hattempt).mpr fun listen hlisten =>
        (h attempt hattempt listen hlisten).atOnce
    · have hlisten : listen ∈ attempt.listens := by simp [hlistens]
      rw [(h attempt hattempt listen hlisten).lastDecides,
        (hsearches.listens hattempt).stops hlistens]
    · have htotal := hsearches.total_le hperiod hpunctual
      rwa [Int.mul_add, Int.mul_one] at htotal

/-- A reader of locators of the medium format, with a callback that accepts the ones with these
ports. -/
def mediumReader (ports : List ℕ) : DiscoveryReader (List UInt8 × ℕ) where
  info := ⟨(· ≠ 0), fun _ _ ub => (ub, true), true⟩
  locator little ub :=
    match ub.deserializeByte with
    | (ub, some 1) =>
      let address := ub.deserialize 4
      let port := address.1.deserializeNumber 2
      (port.1, address.2.bind fun a => port.2.map fun p => (a, numberOf little p))
    | (ub, _) => (ub, none)
  onAgent _ locator := ports.contains locator.2

/-- An INFO of an Agent with locators at these ports of an address. -/
def infoOfPorts (ports : List UInt8) : List UInt8 :=
  [0x80, 0, 0, 0, submessageIdInfo, 1, 28, 0, 0, 9, 0xFF, 0xFD, 0, 0,
    1, ddsXrceObjkAgent, 0x58, 0x52, 0x43, 0x45, 1, 0, 1, 0x0F, 0,
    1, ddsXrceObjkAgent, 0, 1, 0, 0, 0, .ofNat ports.length, 0, 0, 0] ++
    ports.flatMap fun port => [1, 127, 0, 0, 1, 0, port, 0]

/-- A memory of zeros. -/
def zeroMemory : DiscoveryMemory (List UInt8 × ℕ) := ⟨⟨false, false⟩, ⟨[0, 0], []⟩⟩

/-- An attempt without an answer, and one with an INFO of two locators of which the second is
accepted. -/
theorem discovery_kept_iff_second : DiscoveryKept 1000 2
    (uxrDiscoveryAgents (mediumReader [9]) 1000 2 []
      [⟨none, 1000, zeroMemory⟩, ⟨some (infoOfPorts [7, 9]), 20, zeroMemory⟩]) :=
  (discovery_kept_iff (mediumReader [9]) (by decide) 2 [] _ (by decide)).mpr (by decide)

/-- After two short datagrams 400 milliseconds are left of a second, of which the poll has 100. -/
theorem discovery_kept_fails : ¬ DiscoveryKept 1000 1
    (uxrDiscoveryAgents (mediumReader [9]) 1000 1 []
      [⟨some [0x80, 0, 0, 0], 300, zeroMemory⟩, ⟨some [0x80, 0, 0, 0], 300, zeroMemory⟩]) := by
  intro h
  have hpoll := (h.keeps _ (.head _)).waits 100 600 rfl
  exact absurd hpoll (by decide)

end XrceDds
