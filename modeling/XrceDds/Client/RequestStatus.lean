import Mathlib.Data.List.Basic
import Mathlib.Data.List.Induction
import XrceDds.Client.WriteAccess

/-!
# Waiting for the statuses of requests

`uxr_run_session_until_all_status` and `uxr_run_session_until_one_status`.  Both listen until the
statuses that were heard are enough, or until nothing is heard in time; each message may carry any
number of statuses, of any requests.

A status goes to the first place of its request in the list of requests, over what was there.  A
request that is listed twice is never confirmed at its second place.  A request that is not valid
counts as confirmed, though it has no status.  A STATUS may carry the octet `UXR_STATUS_NONE`: it
takes back what was heard of its request before.
-/

namespace XrceDds

/-- `UXR_STATUS_OK`. -/
def uxrStatusOk : UInt8 := 0x00

/-- `UXR_STATUS_OK_MATCHED`. -/
def uxrStatusOkMatched : UInt8 := 0x01

/-- `UXR_STATUS_NONE`. -/
def uxrStatusNone : UInt8 := 0xFF

namespace RequestStatus

/-- The submessages of a stream that carry a status: a STATUS, and a DATA, which answers its request
with `UXR_STATUS_OK`. -/
inductive Submessage where
  | status (requestId : UInt16) (status : UInt8)
  | data (requestId : UInt16)
  deriving DecidableEq

/-- What `read_submessage_status` and `read_submessage_data` hand to `process_status`. -/
def Submessage.heard : Submessage → UInt16 × UInt8
  | .status requestId octet => (requestId, octet)
  | .data requestId => (requestId, uxrStatusOk)

/-- `process_status`, what it does to the list of statuses. -/
def processStatus (requestId : UInt16) (status : UInt8) : List UInt16 → List UInt8 → List UInt8
  | request :: requestList, s :: statusList =>
    if requestId = request then status :: statusList
    else s :: processStatus requestId status requestList statusList
  | _, statusList => statusList

/-- A call of `listen_message_reliably`: the submessages with a status that it has read, and whether
it received a message. -/
structure Listen where
  submessages : List Submessage
  received : Bool
  deriving DecidableEq

section

variable (requestList : List UInt16)

/-- What a call of `listen_message_reliably` does to the list of statuses. -/
def listenMessage (statusList : List UInt8) (listen : Listen) : List UInt8 :=
  listen.submessages.foldl
    (fun statusList m => processStatus m.heard.1 m.heard.2 requestList statusList) statusList

/-- A place of the lists that is confirmed. -/
def confirmed (request : UInt16) (status : UInt8) : Bool :=
  status != uxrStatusNone || request == uxrInvalidRequestId

/-- The loop of both functions, which gives the statuses when it ends. -/
def statusLoop (enough : List UInt8 → Bool) : List Listen → List UInt8 → Option (List UInt8)
  | [], _ => none
  | listen :: listens, statusList =>
    let statusList := listenMessage requestList statusList listen
    if listen.received && !enough statusList then statusLoop enough listens statusList
    else some statusList

/-- All places are confirmed. -/
def allConfirmed (statusList : List UInt8) : Bool :=
  (requestList.zip statusList).all fun p => confirmed p.1 p.2

/-- Some place is confirmed. -/
def oneConfirmed (statusList : List UInt8) : Bool :=
  (requestList.zip statusList).any fun p => confirmed p.1 p.2

/-- `uxr_run_session_until_all_status`. -/
def uxrRunSessionUntilAllStatus (listens : List Listen) : Option (List UInt8 × Bool) :=
  (statusLoop requestList (allConfirmed requestList) listens
    (List.replicate requestList.length uxrStatusNone)).map fun statusList =>
      (statusList, statusList.all fun s => s == uxrStatusOk || s == uxrStatusOkMatched)

/-- `uxr_run_session_until_one_status`. -/
def uxrRunSessionUntilOneStatus (listens : List Listen) : Option (List UInt8 × Bool) :=
  (statusLoop requestList (oneConfirmed requestList) listens
    (List.replicate requestList.length uxrStatusNone)).map fun statusList =>
      (statusList, oneConfirmed requestList statusList)

end

/-! ## The list of statuses -/

/-- The status that was heard last for a request. -/
def lastStatus (heard : List (UInt16 × UInt8)) (request : UInt16) : UInt8 :=
  heard.foldl (fun s h => if h.1 = request then h.2 else s) uxrStatusNone

/-- What is heard in the first `n` calls. -/
def heardIn (listens : List Listen) (n : ℕ) : List (UInt16 × UInt8) :=
  (listens.take n).flatMap fun listen => listen.submessages.map Submessage.heard

/-- A status goes to the first place of its request. -/
lemma getElem?_processStatus (requestId : UInt16) (status : UInt8) (requestList : List UInt16)
    (statusList : List UInt8) (i : ℕ) :
    (processStatus requestId status requestList statusList)[i]? =
      if requestList[i]? = some requestId ∧ requestId ∉ requestList.take i then
        statusList[i]?.map fun _ => status
      else statusList[i]? := by
  induction requestList generalizing statusList i with
  | nil => simp [processStatus]
  | cons request requestList ih =>
    cases statusList with
    | nil => simp [processStatus]
    | cons s statusList =>
      unfold processStatus
      cases i with
      | zero =>
        by_cases heq : requestId = request
        · simp [heq]
        · simp [heq, Ne.symm heq]
      | succ i =>
        by_cases heq : requestId = request
        · simp [heq]
        · simp [heq, ih]

/-- The statuses after what was heard. -/
def statusesOf (requestList : List UInt16) (heard : List (UInt16 × UInt8)) : List UInt8 :=
  heard.foldl (fun statusList h => processStatus h.1 h.2 requestList statusList)
    (List.replicate requestList.length uxrStatusNone)

/-- At the first place of a request stands what was heard last for it, and nothing elsewhere. -/
lemma getElem?_statusesOf (requestList : List UInt16) (heard : List (UInt16 × UInt8)) (i : ℕ) :
    (statusesOf requestList heard)[i]? = requestList[i]?.map fun request =>
      if request ∈ requestList.take i then uxrStatusNone else lastStatus heard request := by
  induction heard using List.reverseRecOn with
  | nil =>
    simp only [statusesOf, lastStatus, List.foldl_nil, ite_self, List.getElem?_replicate]
    split
    · next hlt => rw [List.getElem?_eq_getElem hlt, Option.map_some]
    · next hle => rw [List.getElem?_eq_none (Nat.not_lt.mp hle), Option.map_none]
  | append_singleton heard h ih =>
    rw [statusesOf, List.foldl_append, List.foldl_cons, List.foldl_nil, getElem?_processStatus]
    rw [statusesOf] at ih
    rw [ih]
    cases hrequest : requestList[i]? with
    | none => simp
    | some request =>
      simp only [lastStatus, List.foldl_append, List.foldl_cons, List.foldl_nil, Option.map_some,
        Option.some.injEq]
      by_cases hseen : request ∈ requestList.take i
      · rw [if_neg (fun hboth => hboth.2 (hboth.1 ▸ hseen)), if_pos hseen, if_pos hseen]
      · by_cases heq : h.1 = request
        · rw [if_pos ⟨heq.symm, heq ▸ hseen⟩, if_neg hseen, if_pos heq]
        · rw [if_neg (fun hboth => heq hboth.1.symm), if_neg hseen, if_neg hseen, if_neg heq]

lemma length_statusesOf (requestList : List UInt16) (heard : List (UInt16 × UInt8)) :
    (statusesOf requestList heard).length = requestList.length := by
  apply Nat.le_antisymm
  · rw [← List.getElem?_eq_none_iff, getElem?_statusesOf, List.getElem?_eq_none (Nat.le_refl _)]
    rfl
  · rw [← List.getElem?_eq_none_iff]
    have h := getElem?_statusesOf requestList heard (statusesOf requestList heard).length
    rw [List.getElem?_eq_none (Nat.le_refl _)] at h
    exact Option.map_eq_none_iff.mp h.symm

/-! ## When the loops end -/

/-- What a call reads is heard behind what was heard before. -/
lemma listenMessage_statusesOf (requestList : List UInt16) (heard : List (UInt16 × UInt8))
    (listen : Listen) :
    listenMessage requestList (statusesOf requestList heard) listen =
      statusesOf requestList (heard ++ listen.submessages.map Submessage.heard) := by
  rw [statusesOf, statusesOf, List.foldl_append, List.foldl_map]
  rfl

/-- The call `n` ends the loop: those before it received a message that was not enough, and it times
out or is enough. -/
structure EndsAt (enough : List UInt8 → Bool) (requestList : List UInt16) (listens : List Listen)
    (heard : List (UInt16 × UInt8)) (n : ℕ) : Prop where
  goes_on : ∀ k < n, (listens[k]?).map Listen.received = some true ∧
    enough (statusesOf requestList (heard ++ heardIn listens (k + 1))) = false
  ends : (listens[n]?).map Listen.received = some false ∨ (n < listens.length ∧
    enough (statusesOf requestList (heard ++ heardIn listens (n + 1))) = true)

lemma heardIn_cons (listen : Listen) (listens : List Listen) (n : ℕ) :
    heardIn (listen :: listens) (n + 1) =
      listen.submessages.map Submessage.heard ++ heardIn listens n := rfl

lemma statusLoop_eq_some {enough : List UInt8 → Bool} {requestList : List UInt16}
    {listens : List Listen} {statusList : List UInt8} (heard : List (UInt16 × UInt8))
    (h : statusLoop requestList enough listens (statusesOf requestList heard) = some statusList) :
    ∃ n, EndsAt enough requestList listens heard n ∧
      statusList = statusesOf requestList (heard ++ heardIn listens (n + 1)) := by
  induction listens generalizing heard with
  | nil => cases h
  | cons listen listens ih =>
    rw [statusLoop, listenMessage_statusesOf] at h
    have hfirst : heardIn (listen :: listens) 1 = listen.submessages.map Submessage.heard :=
      (heardIn_cons listen listens 0).trans (List.append_nil _)
    split at h
    · next hgoes =>
      obtain ⟨hreceived, hnot⟩ := Bool.and_eq_true_iff.mp hgoes
      obtain ⟨n, hends, rfl⟩ := ih _ h
      refine ⟨n + 1, ⟨?_, ?_⟩, ?_⟩
      · intro k hk
        cases k with
        | zero => exact ⟨congrArg some hreceived, by rw [hfirst]; simpa using hnot⟩
        | succ k =>
          rw [heardIn_cons, ← List.append_assoc]
          exact hends.goes_on k (Nat.lt_of_succ_lt_succ hk)
      · rw [heardIn_cons, ← List.append_assoc]
        exact hends.ends.imp id fun hlast => ⟨Nat.succ_lt_succ hlast.1, hlast.2⟩
      · rw [heardIn_cons, ← List.append_assoc]
    · next hends =>
      obtain rfl := Option.some.inj h
      refine ⟨0, ⟨fun k hk => absurd hk (Nat.not_lt_zero k), ?_⟩, by rw [hfirst]⟩
      rw [hfirst]
      cases hreceived : listen.received with
      | false => exact .inl (congrArg some hreceived)
      | true =>
        rw [hreceived, Bool.true_and] at hends
        exact .inr ⟨Nat.succ_pos _, by simpa using hends⟩

/-- A loop that does not end has read messages in all calls, and never heard enough. -/
lemma statusLoop_eq_none {enough : List UInt8 → Bool} {requestList : List UInt16}
    {listens : List Listen} (heard : List (UInt16 × UInt8))
    (h : statusLoop requestList enough listens (statusesOf requestList heard) = none) {n : ℕ}
    {listen : Listen} (hlisten : listens[n]? = some listen) :
    listen.received = true ∧
      enough (statusesOf requestList (heard ++ heardIn listens (n + 1))) = false := by
  induction listens generalizing heard n with
  | nil => cases hlisten
  | cons first listens ih =>
    rw [statusLoop, listenMessage_statusesOf] at h
    split at h
    · next hgoes =>
      obtain ⟨hreceived, hnot⟩ := Bool.and_eq_true_iff.mp hgoes
      cases n with
      | zero =>
        obtain rfl := Option.some.inj hlisten
        have hfirst : heardIn (first :: listens) 1 = first.submessages.map Submessage.heard :=
          (heardIn_cons first listens 0).trans (List.append_nil _)
        rw [hfirst]
        exact ⟨hreceived, by simpa using hnot⟩
      | succ n =>
        rw [heardIn_cons, ← List.append_assoc]
        exact ih _ h hlisten
    · cases h

/-! ## What the lists say -/

/-- No place of the request has another one before it. -/
def Once (requestList : List UInt16) (request : UInt16) : Prop :=
  ∀ i, requestList[i]? = some request → request ∉ requestList.take i

/-- All requests are confirmed: those that are valid are listed once, and have a status. -/
def AllConfirmed (requestList : List UInt16) (heard : List (UInt16 × UInt8)) : Prop :=
  ∀ request ∈ requestList, request = uxrInvalidRequestId ∨
    (Once requestList request ∧ lastStatus heard request ≠ uxrStatusNone)

/-- Some request is confirmed: it is not valid, or has a status. -/
def SomeConfirmed (requestList : List UInt16) (heard : List (UInt16 × UInt8)) : Prop :=
  ∃ request ∈ requestList, request = uxrInvalidRequestId ∨
    lastStatus heard request ≠ uxrStatusNone

/-- All requests went well: each is listed once, and the status that was heard last says so. -/
def AllOk (requestList : List UInt16) (heard : List (UInt16 × UInt8)) : Prop :=
  ∀ request ∈ requestList, Once requestList request ∧
    (lastStatus heard request = uxrStatusOk ∨ lastStatus heard request = uxrStatusOkMatched)

/-- A request that is there has a first place. -/
lemma exists_first {requestList : List UInt16} {request : UInt16} (h : request ∈ requestList) :
    ∃ i, requestList[i]? = some request ∧ request ∉ requestList.take i := by
  induction requestList with
  | nil => cases h
  | cons first requestList ih =>
    by_cases heq : request = first
    · exact ⟨0, by rw [heq]; rfl, List.not_mem_nil⟩
    · obtain ⟨i, hi, hseen⟩ := ih ((List.mem_cons.mp h).resolve_left heq)
      refine ⟨i + 1, hi, ?_⟩
      rw [List.take_succ_cons, List.mem_cons, not_or]
      exact ⟨heq, hseen⟩

/-- What stands at a place. -/
lemma statusesOf_of_place {requestList : List UInt16} {i : ℕ} {request : UInt16}
    (h : requestList[i]? = some request) (heard : List (UInt16 × UInt8)) :
    (statusesOf requestList heard)[i]? = some
      (if request ∈ requestList.take i then uxrStatusNone else lastStatus heard request) := by
  rw [getElem?_statusesOf, h, Option.map_some]

/-- A pair of the two lists is a request with what stands at one of its places. -/
lemma mem_zip_statusesOf {requestList : List UInt16} {heard : List (UInt16 × UInt8)}
    {p : UInt16 × UInt8} :
    p ∈ requestList.zip (statusesOf requestList heard) ↔
      ∃ i, requestList[i]? = some p.1 ∧
        p.2 = if p.1 ∈ requestList.take i then uxrStatusNone else lastStatus heard p.1 := by
  rw [List.mem_iff_getElem?]
  constructor
  · rintro ⟨i, hi⟩
    obtain ⟨hrequest, hstatus⟩ := List.getElem?_zip_eq_some.mp hi
    rw [statusesOf_of_place hrequest, Option.some.injEq] at hstatus
    exact ⟨i, hrequest, hstatus.symm⟩
  · rintro ⟨i, hrequest, hstatus⟩
    refine ⟨i, List.getElem?_zip_eq_some.mpr ⟨hrequest, ?_⟩⟩
    rw [statusesOf_of_place hrequest, hstatus]

lemma place_mem_zip {requestList : List UInt16} {i : ℕ} {request : UInt16}
    (h : requestList[i]? = some request) (heard : List (UInt16 × UInt8)) :
    (request, if request ∈ requestList.take i then uxrStatusNone else lastStatus heard request) ∈
      requestList.zip (statusesOf requestList heard) :=
  mem_zip_statusesOf.mpr ⟨i, h, rfl⟩

lemma confirmed_iff {request : UInt16} {status : UInt8} :
    confirmed request status = true ↔ status ≠ uxrStatusNone ∨ request = uxrInvalidRequestId := by
  simp [confirmed]

lemma allConfirmed_iff {requestList : List UInt16} {heard : List (UInt16 × UInt8)} :
    allConfirmed requestList (statusesOf requestList heard) = true ↔
      AllConfirmed requestList heard := by
  rw [allConfirmed, List.all_eq_true]
  constructor
  · intro h request hmem
    by_cases hinvalid : request = uxrInvalidRequestId
    · exact .inl hinvalid
    · have hplace : ∀ i, requestList[i]? = some request →
          request ∉ requestList.take i ∧ lastStatus heard request ≠ uxrStatusNone := by
        intro i hi
        have hne := (confirmed_iff.mp (h _ (place_mem_zip hi heard))).resolve_right hinvalid
        split at hne
        · exact absurd rfl hne
        · next hseen => exact ⟨hseen, hne⟩
      obtain ⟨i, hi, -⟩ := exists_first hmem
      exact .inr ⟨fun j hj => (hplace j hj).1, (hplace i hi).2⟩
  · intro h p hp
    obtain ⟨i, hi, hstatus⟩ := mem_zip_statusesOf.mp hp
    rw [confirmed_iff]
    rcases h p.1 (List.mem_of_getElem? hi) with hinvalid | ⟨honce, hheard⟩
    · exact .inr hinvalid
    · left
      rw [hstatus, if_neg (honce i hi)]
      exact hheard

lemma oneConfirmed_iff {requestList : List UInt16} {heard : List (UInt16 × UInt8)} :
    oneConfirmed requestList (statusesOf requestList heard) = true ↔
      SomeConfirmed requestList heard := by
  rw [oneConfirmed, List.any_eq_true]
  constructor
  · rintro ⟨p, hp, hconfirmed⟩
    obtain ⟨i, hi, hstatus⟩ := mem_zip_statusesOf.mp hp
    refine ⟨p.1, List.mem_of_getElem? hi, ?_⟩
    rcases confirmed_iff.mp hconfirmed with hne | hinvalid
    · rw [hstatus] at hne
      split at hne
      · exact absurd rfl hne
      · exact .inr hne
    · exact .inl hinvalid
  · rintro ⟨request, hmem, hrequest⟩
    obtain ⟨i, hi, hseen⟩ := exists_first hmem
    refine ⟨_, place_mem_zip hi heard, ?_⟩
    rw [confirmed_iff, if_neg hseen]
    exact hrequest.symm

lemma allOk_iff {requestList : List UInt16} {heard : List (UInt16 × UInt8)} :
    ((statusesOf requestList heard).all fun s => s == uxrStatusOk || s == uxrStatusOkMatched) =
        true ↔ AllOk requestList heard := by
  rw [List.all_eq_true]
  constructor
  · intro h request hmem
    have hplace : ∀ i, requestList[i]? = some request → request ∉ requestList.take i ∧
        (lastStatus heard request = uxrStatusOk ∨
          lastStatus heard request = uxrStatusOkMatched) := by
      intro i hi
      have hstatus := h _ (List.mem_of_getElem? (statusesOf_of_place hi heard))
      split at hstatus
      · exact absurd hstatus (by decide)
      · next hseen => exact ⟨hseen, by simpa using hstatus⟩
    obtain ⟨i, hi, -⟩ := exists_first hmem
    exact ⟨fun j hj => (hplace j hj).1, (hplace i hi).2⟩
  · intro h s hs
    obtain ⟨i, hi⟩ := List.mem_iff_getElem?.mp hs
    rw [getElem?_statusesOf] at hi
    obtain ⟨request, hrequest, rfl⟩ := Option.map_eq_some_iff.mp hi
    obtain ⟨honce, hgood⟩ := h request (List.mem_of_getElem? hrequest)
    rw [if_neg (honce i hrequest)]
    simpa using hgood

/-- The call `n` ends a wait: it receives nothing, or enough has been heard behind it. -/
def EndsWait (Enough : List (UInt16 × UInt8) → Prop) (listens : List Listen) (n : ℕ) : Prop :=
  (listens[n]?).map Listen.received = some false ∨
    (n < listens.length ∧ Enough (heardIn listens (n + 1)))

/-- A wait that ended with the call `n`: those before it received messages, but had not heard
enough, and it received none or has heard enough.  At the first place of each request stands what
was heard last for it, and no status stands elsewhere. -/
structure Waited (Enough : List (UInt16 × UInt8) → Prop) (requestList : List UInt16)
    (listens : List Listen) (statusList : List UInt8) (n : ℕ) : Prop where
  goes_on : ∀ k < n, (listens[k]?).map Listen.received = some true ∧
    ¬ Enough (heardIn listens (k + 1))
  ends : EndsWait Enough listens n
  length_eq : statusList.length = requestList.length
  places : ∀ i request, requestList[i]? = some request → statusList[i]? = some
    (if request ∈ requestList.take i then uxrStatusNone
      else lastStatus (heardIn listens (n + 1)) request)

lemma Waited.of_statusLoop {enough : List UInt8 → Bool} {Enough : List (UInt16 × UInt8) → Prop}
    {requestList : List UInt16} {listens : List Listen} {statusList : List UInt8}
    (henough : ∀ heard, enough (statusesOf requestList heard) = true ↔ Enough heard)
    (h : statusLoop requestList enough listens
      (List.replicate requestList.length uxrStatusNone) = some statusList) :
    ∃ n, Waited Enough requestList listens statusList n ∧
      statusList = statusesOf requestList (heardIn listens (n + 1)) := by
  obtain ⟨n, hends, rfl⟩ := statusLoop_eq_some [] h
  refine ⟨n, ⟨?_, ?_, length_statusesOf _ _, ?_⟩, rfl⟩
  · intro k hk
    obtain ⟨hreceived, hnot⟩ := hends.goes_on k hk
    refine ⟨hreceived, fun hheard => ?_⟩
    rw [List.nil_append, (henough _).mpr hheard] at hnot
    cases hnot
  · exact hends.ends.imp id fun hlast => ⟨hlast.1, (henough _).mp hlast.2⟩
  · intro i request hi
    exact statusesOf_of_place hi _

/-- The loop ends where some call ends the wait. -/
lemma isSome_statusLoop {enough : List UInt8 → Bool} {Enough : List (UInt16 × UInt8) → Prop}
    {requestList : List UInt16} {listens : List Listen}
    (henough : ∀ heard, enough (statusesOf requestList heard) = true ↔ Enough heard) :
    (statusLoop requestList enough listens
        (List.replicate requestList.length uxrStatusNone)).isSome = true ↔
      ∃ n, EndsWait Enough listens n := by
  constructor
  · intro h
    obtain ⟨statusList, hloop⟩ := Option.isSome_iff_exists.mp h
    obtain ⟨n, hwaited, -⟩ := Waited.of_statusLoop henough hloop
    exact ⟨n, hwaited.ends⟩
  · rintro ⟨n, hends⟩
    rw [Option.isSome_iff_ne_none]
    intro hnone
    rcases hends with hsilent | ⟨hlt, hheard⟩
    · obtain ⟨listen, hlisten, hsilent⟩ := Option.map_eq_some_iff.mp hsilent
      have hreceived := (statusLoop_eq_none [] hnone hlisten).1
      rw [hsilent] at hreceived
      cases hreceived
    · have hnot := (statusLoop_eq_none [] hnone (List.getElem?_eq_getElem hlt)).2
      rw [List.nil_append, (henough _).mpr hheard] at hnot
      cases hnot

/-- Whatever messages arrive, with whatever statuses of whatever requests: both functions return if
and only if some call receives nothing or has heard enough, they stop at the first such call, and
then the list of statuses is what was heard.  The one that waits for all gives true when every
request is listed once and went well by the status heard last; the one that waits for one gives true
when some request has a status other than `UXR_STATUS_NONE`, or is not valid. -/
theorem untilStatus_waits (requestList : List UInt16) (listens : List Listen) :
    (((uxrRunSessionUntilAllStatus requestList listens).isSome = true ↔
        ∃ n, EndsWait (AllConfirmed requestList) listens n) ∧
      ∀ statusList result,
        uxrRunSessionUntilAllStatus requestList listens = some (statusList, result) →
        ∃ n, Waited (AllConfirmed requestList) requestList listens statusList n ∧
          (result = true ↔ AllOk requestList (heardIn listens (n + 1)))) ∧
    (((uxrRunSessionUntilOneStatus requestList listens).isSome = true ↔
        ∃ n, EndsWait (SomeConfirmed requestList) listens n) ∧
      ∀ statusList result,
        uxrRunSessionUntilOneStatus requestList listens = some (statusList, result) →
        ∃ n, Waited (SomeConfirmed requestList) requestList listens statusList n ∧
          (result = true ↔ SomeConfirmed requestList (heardIn listens (n + 1)))) := by
  refine ⟨⟨?_, ?_⟩, ?_, ?_⟩
  · rw [uxrRunSessionUntilAllStatus, Option.isSome_map]
    exact isSome_statusLoop fun _ => allConfirmed_iff
  · intro statusList result h
    obtain ⟨_, hloop, heq⟩ := Option.map_eq_some_iff.mp h
    obtain ⟨rfl, rfl⟩ := Prod.mk.inj heq
    obtain ⟨n, hwaited, rfl⟩ := Waited.of_statusLoop (fun _ => allConfirmed_iff) hloop
    exact ⟨n, hwaited, allOk_iff⟩
  · rw [uxrRunSessionUntilOneStatus, Option.isSome_map]
    exact isSome_statusLoop fun _ => oneConfirmed_iff
  · intro statusList result h
    obtain ⟨_, hloop, heq⟩ := Option.map_eq_some_iff.mp h
    obtain ⟨rfl, rfl⟩ := Prod.mk.inj heq
    obtain ⟨n, hwaited, rfl⟩ := Waited.of_statusLoop (fun _ => oneConfirmed_iff) hloop
    exact ⟨n, hwaited, oneConfirmed_iff⟩

/-- A message with two statuses of the request 10, and then one with data for the request 11. -/
def twoMessages : List Listen :=
  [⟨[.status 10 0x84, .status 10 0x01], true⟩, ⟨[.data 11], true⟩]

theorem untilStatus_waits_twoMessages :
    (∃ n, Waited (AllConfirmed [10, 11]) [10, 11] twoMessages [0x01, 0x00] n ∧
      (true = true ↔ AllOk [10, 11] (heardIn twoMessages (n + 1)))) ∧
    ∃ n, Waited (SomeConfirmed [10, 11]) [10, 11] twoMessages [0x01, 0xFF] n ∧
      (true = true ↔ SomeConfirmed [10, 11] (heardIn twoMessages (n + 1))) :=
  ⟨(untilStatus_waits [10, 11] twoMessages).1.2 _ _ (by decide),
    (untilStatus_waits [10, 11] twoMessages).2.2 _ _ (by decide)⟩

-- A STATUS with the octet of `UXR_STATUS_NONE` ends neither wait.
example : uxrRunSessionUntilOneStatus [10] [⟨[.status 10 0xFF], true⟩, ⟨[], false⟩] =
    some ([0xFF], false) := by
  decide

-- A request that is listed twice is not confirmed, though it was answered.
example : uxrRunSessionUntilAllStatus [10, 10] [⟨[.status 10 0x00], true⟩, ⟨[], false⟩] =
    some ([0x00, 0xFF], false) := by
  decide

end RequestStatus

end XrceDds
