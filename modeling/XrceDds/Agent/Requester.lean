import XrceDds.Agent.Object
import XrceDds.Lib.Transition
import Mathlib.Algebra.Group.Int.Defs
import Mathlib.Data.List.Nodup
import Mathlib.Logic.Function.Basic
import Mathlib.Data.Int.Notation
import Mathlib.Data.Nat.Notation

/-!
# Requests and replies of a FastDDS requester

The thread that processes the messages of a client writes a request and then records the sequence
number that the write got (`FastDDSRequester::write`).  The thread that reads takes a reply
and then looks its sequence number up (`FastDDSRequester::read`).  These four steps are
interleaved in every way (`Exchange.step`), with replies of any origin, in any order and
number.

A reply that is looked up before its request is recorded is dropped, and a sample is taken only
once.  All else that is expected of the correlation holds along every run, and so replies
are correlated if and only if every accepted request with a reply has one that was looked
up after the request was recorded (`correlates_iff`).
-/

namespace XrceDds

/-- `SequenceNumber_t`. -/
structure SequenceNumber where
  high : Int32
  low : UInt32
  deriving DecidableEq

/-- The `int64_t` that `FastDDSRequester` makes of a sequence number. -/
def SequenceNumber.sequence (number : SequenceNumber) : ℤ :=
  number.high.toInt * 2 ^ 32 + number.low.toNat

/-- Different sequence numbers make different keys. -/
lemma SequenceNumber.sequence_injective {a b : SequenceNumber} (h : a.sequence = b.sequence) :
    a = b := by
  obtain ⟨high, low⟩ := a
  obtain ⟨high', low'⟩ := b
  unfold sequence at h
  dsimp only at h
  have hlow := low.toNat_lt
  have hlow' := low'.toNat_lt
  have hhigh : high = high' := Int32.toInt_inj.mp (by omega)
  have heq : low = low' := UInt32.toNat_inj.mp (by omega)
  rw [hhigh, heq]

variable {Guid : Type}

/-- `SampleIdentity`. -/
structure SampleIdentity (Guid : Type) where
  writerGuid : Guid
  sequenceNumber : SequenceNumber

/-- A sample of the reply topic, with the identity of the request that it is related to. -/
structure Reply (Guid : Type) where
  relatedSampleIdentity : SampleIdentity Guid
  data : List UInt8

namespace Requester

/-- The `sequence_number` of `Requester::write`. -/
def sequenceNumber (objectId : ObjectId) (requestId : UInt8 × UInt8) : ℕ :=
  ((objectidToRaw objectId <<< 16) + (requestId.1.toNat <<< 8) + requestId.2.toNat) % 2 ^ 32

/-- The `request_id` of `Requester::read_fn`. -/
def requestId (sequenceNumber : ℕ) : UInt8 × UInt8 :=
  (UInt8.ofNat ((sequenceNumber >>> 8) &&& 255), UInt8.ofNat (sequenceNumber &&& 255))

/-- The `data` of `Requester::read_fn`: the identifiers of the request and of the requester, and
what was read. -/
def readFn (objectId : ObjectId) (sequenceNumber : ℕ) (tempData : List UInt8) : List UInt8 :=
  [(requestId sequenceNumber).1, (requestId sequenceNumber).2, objectId.1, objectId.2] ++ tempData

/-- The request identifier comes out of the number as it went in. -/
@[simp] lemma requestId_sequenceNumber (objectId : ObjectId) (rid : UInt8 × UInt8) :
    requestId (sequenceNumber objectId rid) = rid := by
  obtain ⟨first, second⟩ := rid
  have hfirst := first.toNat_lt
  have hsecond := second.toNat_lt
  have hmask (n : ℕ) : n &&& 255 = n % 256 := Nat.and_two_pow_sub_one_eq_mod n 8
  unfold requestId sequenceNumber
  simp only [Nat.shiftLeft_eq, Nat.shiftRight_eq_div_pow, hmask]
  refine Prod.ext (UInt8.toNat_inj.mp ?_) (UInt8.toNat_inj.mp ?_)
  · rw [UInt8.toNat_ofNat']
    change _ = first.toNat
    omega
  · rw [UInt8.toNat_ofNat']
    change _ = second.toNat
    omega

end Requester

/-- The table `sequence_to_sequence_` of `FastDDSRequester`. -/
abbrev SequenceTable := ℤ → Option ℕ

namespace FastDDSRequester

/-- `write`, after the write of DDS: the sequence number is recorded. -/
def record (table : SequenceTable) (number : SequenceNumber) (sequenceNumber : ℕ) :
    SequenceTable :=
  match table number.sequence with
  | none => Function.update table number.sequence (some sequenceNumber)
  | some _ => table

/-- `read`, after a sample was taken: its `sequence_number`, if it is delivered. -/
def lookup [DecidableEq Guid] (guid : Guid) (table : SequenceTable) (info : SampleIdentity Guid) :
    SequenceTable × Option ℕ :=
  if info.writerGuid = guid then
    match table info.sequenceNumber.sequence with
    | some sequenceNumber =>
      (Function.update table info.sequenceNumber.sequence none, some sequenceNumber)
    | none => (table, none)
  else (table, none)

end FastDDSRequester

/-- A request: its identifier, and the sequence number that DDS gave to the sample. -/
structure Request where
  requestId : UInt8 × UInt8
  number : SequenceNumber

/-- A requester with the two threads that use it.  `writing` is a request between the write of DDS
and the recording, `reading` a reply between taking and looking up.  Kept beside: the requests that
are visible in DDS, those that were accepted, the replies that were looked up, each with the
requests accepted until then, and what was delivered. -/
structure Exchange (Guid : Type) where
  table : SequenceTable
  writing : Option Request
  reading : Option (Reply Guid)
  visible : List Request
  accepted : List Request
  lookups : List (Reply Guid × List Request)
  deliveries : List (Reply Guid × List UInt8)

/-- What the two threads do. -/
inductive ExchangeEvent (Guid : Type) where
  | write (request : Request)
  | record
  | take (reply : Reply Guid)
  | lookup

/-- The reply is one to the request, of the writer with this identifier. -/
def Reply.Answers (guid : Guid) (reply : Reply Guid) (request : Request) : Prop :=
  reply.relatedSampleIdentity.writerGuid = guid ∧
    reply.relatedSampleIdentity.sequenceNumber = request.number

namespace Exchange

variable [DecidableEq Guid] (objectId : ObjectId) (guid : Guid)

/-- A requester that was just created. -/
def start : Exchange Guid := ⟨fun _ => none, none, none, [], [], [], []⟩

/-- One step of a thread. -/
def step (exchange : Exchange Guid) : ExchangeEvent Guid → Exchange Guid
  | .write request =>
    { exchange with writing := some request, visible := exchange.visible ++ [request] }
  | .record =>
    match exchange.writing with
    | none => exchange
    | some request =>
      { exchange with
        table := FastDDSRequester.record exchange.table request.number
          (Requester.sequenceNumber objectId request.requestId)
        writing := none
        accepted := exchange.accepted ++ [request] }
  | .take reply => { exchange with reading := some reply }
  | .lookup =>
    match exchange.reading with
    | none => exchange
    | some reply =>
      let result := FastDDSRequester.lookup guid exchange.table reply.relatedSampleIdentity
      { exchange with
        table := result.1
        reading := none
        lookups := exchange.lookups ++ [(reply, exchange.accepted)]
        deliveries := exchange.deliveries ++ (result.2.map fun sequenceNumber =>
          (reply, Requester.readFn objectId sequenceNumber reply.data)).toList }

/-- What DDS and the two threads admit: a thread ends one call before it begins the next, each write
gets a new sequence number, and a reply to this writer is one to a visible request. -/
def Admitted (exchange : Exchange Guid) : ExchangeEvent Guid → Prop
  | .write request =>
    exchange.writing = none ∧ ∀ other ∈ exchange.visible, other.number ≠ request.number
  | .record => exchange.writing ≠ none
  | .take reply => exchange.reading = none ∧
      (reply.relatedSampleIdentity.writerGuid = guid →
        ∃ request ∈ exchange.visible, reply.Answers guid request)
  | .lookup => exchange.reading ≠ none

/-- The run reaches the exchange. -/
def Reached (exchange : Exchange Guid) : Prop :=
  Transition.Reaches (· = start) (step objectId guid) (Admitted guid) exchange

variable {objectId guid} in
lemma Reached.next {exchange : Exchange Guid} (h : Reached objectId guid exchange)
    (event : ExchangeEvent Guid) (hadmitted : exchange.Admitted guid event) :
    Reached objectId guid (exchange.step objectId guid event) :=
  Transition.Reaches.next h hadmitted

lemma Reached.start : Reached objectId guid Exchange.start := Transition.Reaches.start rfl

/-- Replies are correlated with requests. -/
structure Correlates (exchange : Exchange Guid) : Prop where
  /-- A delivered reply is one to this writer. -/
  own : ∀ delivery ∈ exchange.deliveries, delivery.1.relatedSampleIdentity.writerGuid = guid
  /-- It answers a request, and carries the identifiers of the request that it answers. -/
  answers : ∀ delivery ∈ exchange.deliveries,
    (∃ request ∈ exchange.visible, delivery.1.Answers guid request) ∧
      ∀ request ∈ exchange.visible, delivery.1.Answers guid request →
        delivery.2 = [request.requestId.1, request.requestId.2, objectId.1, objectId.2] ++
          delivery.1.data
  /-- No request is answered twice. -/
  once : (exchange.deliveries.map fun delivery =>
    delivery.1.relatedSampleIdentity.sequenceNumber).Nodup
  /-- An accepted request is answered if a reply to it reached the reader. -/
  answered : ∀ request ∈ exchange.accepted,
    (∃ lookup ∈ exchange.lookups, lookup.1.Answers guid request) →
      ∃ delivery ∈ exchange.deliveries, delivery.1.Answers guid request

/-- Of the replies to an accepted request that reached the reader, one was looked up after the
request was recorded. -/
def Punctual (exchange : Exchange Guid) : Prop :=
  ∀ request ∈ exchange.accepted,
    (∃ lookup ∈ exchange.lookups, lookup.1.Answers guid request) →
      ∃ lookup ∈ exchange.lookups, lookup.1.Answers guid request ∧ request ∈ lookup.2

/-- What is known of an exchange after every step. -/
structure Tracks (exchange : Exchange Guid) : Prop where
  /-- Visible requests have different numbers. -/
  injective : ∀ request ∈ exchange.visible, ∀ other ∈ exchange.visible,
    request.number = other.number → request = other
  /-- A visible request is accepted, or its number is about to be recorded. -/
  visible : ∀ request, request ∈ exchange.visible ↔
    request ∈ exchange.accepted ∨ exchange.writing = some request
  writing : ∀ request, exchange.writing = some request → request ∉ exchange.accepted
  reading : ∀ reply, exchange.reading = some reply →
    reply.relatedSampleIdentity.writerGuid = guid →
      ∃ request ∈ exchange.visible, reply.Answers guid request
  /-- The table holds the accepted requests that are not answered. -/
  table : ∀ number sequenceNumber, exchange.table number.sequence = some sequenceNumber ↔
    ∃ request ∈ exchange.accepted, request.number = number ∧
      sequenceNumber = Requester.sequenceNumber objectId request.requestId ∧
      ∀ delivery ∈ exchange.deliveries,
        delivery.1.relatedSampleIdentity.sequenceNumber ≠ number
  delivered : ∀ delivery ∈ exchange.deliveries,
    ∃ request ∈ exchange.accepted, delivery.1.Answers guid request ∧
      delivery.2 = Requester.readFn objectId
        (Requester.sequenceNumber objectId request.requestId) delivery.1.data
  once : (exchange.deliveries.map fun delivery =>
    delivery.1.relatedSampleIdentity.sequenceNumber).Nodup
  known : ∀ lookup ∈ exchange.lookups, ∀ request ∈ lookup.2, request ∈ exchange.accepted
  /-- The answered requests are those with a reply that was looked up in time. -/
  late : ∀ request ∈ exchange.accepted,
    (∃ lookup ∈ exchange.lookups, lookup.1.Answers guid request ∧ request ∈ lookup.2) ↔
      ∃ delivery ∈ exchange.deliveries, delivery.1.Answers guid request

namespace Tracks

variable {objectId guid} {exchange : Exchange Guid}

omit [DecidableEq Guid] in
lemma start : Tracks objectId guid (start : Exchange Guid) where
  injective := by simp [Exchange.start]
  visible := by simp [Exchange.start]
  writing := by simp [Exchange.start]
  reading := by simp [Exchange.start]
  table := by simp [Exchange.start]
  delivered := by simp [Exchange.start]
  once := by simp [Exchange.start]
  known := by simp [Exchange.start]
  late := by simp [Exchange.start]

/-- The write of DDS. -/
lemma write (h : Tracks objectId guid exchange) {request : Request}
    (hidle : exchange.writing = none)
    (hnew : ∀ other ∈ exchange.visible, other.number ≠ request.number) :
    Tracks objectId guid (exchange.step objectId guid (.write request)) where
  injective := by
    intro first hfirst second hsecond heq
    rcases List.mem_append.mp hfirst with hfirst | hfirst <;>
      rcases List.mem_append.mp hsecond with hsecond | hsecond
    · exact h.injective first hfirst second hsecond heq
    · rw [List.mem_singleton.mp hsecond] at heq
      exact absurd heq (hnew first hfirst)
    · rw [List.mem_singleton.mp hfirst] at heq
      exact absurd heq.symm (hnew second hsecond)
    · rw [List.mem_singleton.mp hfirst, List.mem_singleton.mp hsecond]
  visible := by
    intro other
    have hold := h.visible other
    rw [hidle] at hold
    simp only [step, List.mem_append, List.mem_singleton, hold, Option.some.injEq, reduceCtorEq,
      or_false, eq_comm]
  writing := by
    intro other hother haccepted
    cases hother
    exact hnew request ((h.visible request).mpr (.inl haccepted)) rfl
  reading := by
    intro reply hreply hguid
    obtain ⟨other, hmem, hanswers⟩ := h.reading reply hreply hguid
    exact ⟨other, List.mem_append_left _ hmem, hanswers⟩
  table := h.table
  delivered := h.delivered
  once := h.once
  known := h.known
  late := h.late

/-- The recording of a sequence number. -/
lemma record (h : Tracks objectId guid exchange) {request : Request}
    (hwriting : exchange.writing = some request) :
    Tracks objectId guid (exchange.step objectId guid .record) := by
  have hvisible : request ∈ exchange.visible := (h.visible request).mpr (.inr hwriting)
  -- no accepted request has the number
  have hother : ∀ other ∈ exchange.accepted, other.number ≠ request.number := by
    intro other hmem heq
    have hsame := h.injective other ((h.visible other).mpr (.inl hmem)) request hvisible heq
    exact h.writing request hwriting (hsame ▸ hmem)
  have hundelivered : ∀ delivery ∈ exchange.deliveries,
      delivery.1.relatedSampleIdentity.sequenceNumber ≠ request.number := by
    intro delivery hmem heq
    obtain ⟨other, haccepted, hanswers, -⟩ := h.delivered delivery hmem
    exact hother other haccepted (hanswers.2.symm.trans heq)
  have hfree : exchange.table request.number.sequence = none := by
    cases hfound : exchange.table request.number.sequence with
    | none => rfl
    | some sequenceNumber =>
      obtain ⟨other, haccepted, heq, -⟩ := (h.table _ _).mp hfound
      exact absurd heq (hother other haccepted)
  have hstep : exchange.step objectId guid .record =
      { exchange with
        table := Function.update exchange.table request.number.sequence
          (some (Requester.sequenceNumber objectId request.requestId))
        writing := none
        accepted := exchange.accepted ++ [request] } := by
    simp only [step, hwriting, FastDDSRequester.record, hfree]
  rw [hstep]
  refine ⟨h.injective, ?_, ?_, h.reading, ?_, ?_, h.once, ?_, ?_⟩
  · intro other
    simp only [List.mem_append, List.mem_singleton, h.visible other, hwriting, Option.some.injEq,
      reduceCtorEq, or_false, eq_comm]
  · exact fun _ hnone => absurd hnone (by simp)
  · intro number sequenceNumber
    by_cases hnumber : number = request.number
    · subst hnumber
      simp only [Function.update_self, Option.some.injEq]
      constructor
      · rintro rfl
        exact ⟨request, List.mem_append_right _ List.mem_cons_self, rfl, rfl, hundelivered⟩
      · rintro ⟨other, hmem, heq, hvalue, -⟩
        rcases List.mem_append.mp hmem with hmem | hmem
        · exact absurd heq (hother other hmem)
        · rw [hvalue, List.mem_singleton.mp hmem]
    · have hkey : number.sequence ≠ request.number.sequence :=
        fun hkey => hnumber (SequenceNumber.sequence_injective hkey)
      simp only [Function.update_of_ne hkey, h.table number sequenceNumber]
      constructor
      · rintro ⟨other, hmem, hrest⟩
        exact ⟨other, List.mem_append_left _ hmem, hrest⟩
      · rintro ⟨other, hmem, heq, hrest⟩
        rcases List.mem_append.mp hmem with hmem | hmem
        · exact ⟨other, hmem, heq, hrest⟩
        · rw [List.mem_singleton.mp hmem] at heq
          exact absurd heq.symm hnumber
  · intro delivery hmem
    obtain ⟨other, haccepted, hrest⟩ := h.delivered delivery hmem
    exact ⟨other, List.mem_append_left _ haccepted, hrest⟩
  · exact fun lookup hlookup other hmem => List.mem_append_left _ (h.known lookup hlookup
      other hmem)
  · intro other hmem
    rcases List.mem_append.mp hmem with hmem | hmem
    · exact h.late other hmem
    · rw [List.mem_singleton.mp hmem]
      constructor
      · rintro ⟨lookup, hlookup, -, hknown⟩
        exact absurd (h.known lookup hlookup request hknown) (h.writing request hwriting)
      · rintro ⟨delivery, hdelivery, hanswers⟩
        exact absurd hanswers.2 (hundelivered delivery hdelivery)

/-- The taking of a sample. -/
lemma take (h : Tracks objectId guid exchange) {reply : Reply Guid}
    (hreply : reply.relatedSampleIdentity.writerGuid = guid →
      ∃ request ∈ exchange.visible, reply.Answers guid request) :
    Tracks objectId guid (exchange.step objectId guid (.take reply)) :=
  { h with
    reading := by
      intro other hother
      cases hother
      exact hreply }

omit [DecidableEq Guid] in
/-- A reply that is looked up and not delivered: if it answers an accepted request, that request has
been answered. -/
lemma drop (h : Tracks objectId guid exchange) {reply : Reply Guid}
    (hanswered : ∀ request ∈ exchange.accepted, reply.Answers guid request →
      ∃ delivery ∈ exchange.deliveries, delivery.1.Answers guid request) :
    Tracks objectId guid { exchange with
      reading := none
      lookups := exchange.lookups ++ [(reply, exchange.accepted)] } := by
  refine { h with
    reading := fun _ hnone => absurd hnone (by simp)
    known := ?_
    late := ?_ }
  · intro lookup hlookup request hmem
    rcases List.mem_append.mp hlookup with hlookup | hlookup
    · exact h.known lookup hlookup request hmem
    · rw [List.mem_singleton.mp hlookup] at hmem
      exact hmem
  · intro request haccepted
    refine Iff.trans ⟨?_, ?_⟩ (h.late request haccepted)
    · rintro ⟨lookup, hlookup, hanswers, hmem⟩
      rcases List.mem_append.mp hlookup with hlookup | hlookup
      · exact ⟨lookup, hlookup, hanswers, hmem⟩
      · rw [List.mem_singleton.mp hlookup] at hanswers
        exact (h.late request haccepted).mpr (hanswered request haccepted hanswers)
    · rintro ⟨lookup, hlookup, hrest⟩
      exact ⟨lookup, List.mem_append_left _ hlookup, hrest⟩

omit [DecidableEq Guid] in
/-- A reply that is delivered. -/
lemma deliver (h : Tracks objectId guid exchange) {reply : Reply Guid} {request : Request}
    (hguid : reply.relatedSampleIdentity.writerGuid = guid)
    (haccepted : request ∈ exchange.accepted)
    (hnumber : request.number = reply.relatedSampleIdentity.sequenceNumber)
    (hfirst : ∀ delivery ∈ exchange.deliveries,
      delivery.1.relatedSampleIdentity.sequenceNumber ≠
        reply.relatedSampleIdentity.sequenceNumber) :
    Tracks objectId guid { exchange with
      table := Function.update exchange.table
        reply.relatedSampleIdentity.sequenceNumber.sequence none
      reading := none
      lookups := exchange.lookups ++ [(reply, exchange.accepted)]
      deliveries := exchange.deliveries ++ [(reply, Requester.readFn objectId
        (Requester.sequenceNumber objectId request.requestId) reply.data)] } := by
  refine ⟨h.injective, h.visible, h.writing, fun _ hnone => absurd hnone (by simp), ?_, ?_, ?_, ?_,
    ?_⟩
  · intro number sequenceNumber
    by_cases hsame : number = reply.relatedSampleIdentity.sequenceNumber
    · subst hsame
      simp only [Function.update_self, reduceCtorEq, false_iff]
      rintro ⟨-, -, -, -, hnone⟩
      exact hnone _ (List.mem_append_right _ List.mem_cons_self) rfl
    · have hkey : number.sequence ≠ reply.relatedSampleIdentity.sequenceNumber.sequence :=
        fun hkey => hsame (SequenceNumber.sequence_injective hkey)
      simp only [Function.update_of_ne hkey, h.table number sequenceNumber, List.mem_append,
        List.mem_singleton]
      constructor
      · rintro ⟨other, hmem, heq, hvalue, hnone⟩
        refine ⟨other, hmem, heq, hvalue, ?_⟩
        rintro delivery (hmem | rfl)
        · exact hnone delivery hmem
        · exact fun hdelivered => hsame hdelivered.symm
      · rintro ⟨other, hmem, heq, hvalue, hnone⟩
        exact ⟨other, hmem, heq, hvalue, fun delivery hmem => hnone delivery (.inl hmem)⟩
  · intro delivery hmem
    rcases List.mem_append.mp hmem with hmem | hmem
    · exact h.delivered delivery hmem
    · rw [List.mem_singleton.mp hmem]
      exact ⟨request, haccepted, ⟨hguid, hnumber.symm⟩, rfl⟩
  · rw [List.map_append, List.nodup_append]
    refine ⟨h.once, List.nodup_singleton _, ?_⟩
    intro first hfirst' second hsecond
    obtain ⟨delivery, hmem, rfl⟩ := List.mem_map.mp hfirst'
    rw [List.mem_singleton.mp hsecond]
    exact hfirst delivery hmem
  · intro lookup hlookup other hmem
    rcases List.mem_append.mp hlookup with hlookup | hlookup
    · exact h.known lookup hlookup other hmem
    · rw [List.mem_singleton.mp hlookup] at hmem
      exact hmem
  · intro other hother
    have hold := h.late other hother
    simp only [List.mem_append, List.mem_singleton, or_and_right, exists_or, exists_eq_left]
    exact ⟨fun hleft => hleft.elim (fun hlate => .inl (hold.mp hlate)) fun hnew => .inr hnew.1,
      fun hright => hright.elim (fun hlate => .inl (hold.mpr hlate)) fun hnew =>
        .inr ⟨hnew, hother⟩⟩

/-- The looking up of a reply. -/
lemma lookup (h : Tracks objectId guid exchange) {reply : Reply Guid}
    (hreading : exchange.reading = some reply) :
    Tracks objectId guid (exchange.step objectId guid .lookup) := by
  unfold step
  simp only [hreading]
  unfold FastDDSRequester.lookup
  by_cases hguid : reply.relatedSampleIdentity.writerGuid = guid
  · rw [if_pos hguid]
    cases hfound : exchange.table reply.relatedSampleIdentity.sequenceNumber.sequence with
    | some sequenceNumber =>
      obtain ⟨request, haccepted, hnumber, rfl, hfirst⟩ := (h.table _ _).mp hfound
      exact h.deliver hguid haccepted hnumber hfirst
    | none =>
      -- a request that is not in the table was answered
      have hanswered : ∀ request ∈ exchange.accepted, reply.Answers guid request →
          ∃ delivery ∈ exchange.deliveries, delivery.1.Answers guid request := by
        intro request haccepted hanswers
        by_contra hnone
        refine absurd ((h.table request.number _).mpr
          ⟨request, haccepted, rfl, rfl, fun delivery hmem heq => hnone ⟨delivery, hmem, ?_⟩⟩) ?_
        · obtain ⟨other, hother, hown, -⟩ := h.delivered delivery hmem
          exact ⟨hown.1, heq⟩
        · rw [← hanswers.2, hfound]
          exact (Option.some_ne_none _).symm
      simpa using h.drop hanswered
  · rw [if_neg hguid]
    have hanswered : ∀ request ∈ exchange.accepted, reply.Answers guid request →
        ∃ delivery ∈ exchange.deliveries, delivery.1.Answers guid request :=
      fun _ _ hanswers => absurd hanswers.1 hguid
    simpa using h.drop hanswered

/-- Every step that is admitted. -/
lemma step (h : Tracks objectId guid exchange) {event : ExchangeEvent Guid}
    (hadmitted : exchange.Admitted guid event) :
    Tracks objectId guid (exchange.step objectId guid event) := by
  cases event with
  | write request => exact h.write hadmitted.1 hadmitted.2
  | record =>
    obtain ⟨request, hwriting⟩ := Option.ne_none_iff_exists'.mp hadmitted
    exact h.record hwriting
  | take reply => exact h.take hadmitted.2
  | lookup =>
    obtain ⟨reply, hreading⟩ := Option.ne_none_iff_exists'.mp hadmitted
    exact h.lookup hreading

omit [DecidableEq Guid] in
/-- Replies are correlated as long as every answer comes in time, and only so. -/
lemma correlates_iff_punctual (h : Tracks objectId guid exchange) :
    exchange.Correlates objectId guid ↔ exchange.Punctual guid := by
  constructor
  · intro hcorrelates request haccepted hreached
    exact (h.late request haccepted).mpr (hcorrelates.answered request haccepted hreached)
  · intro hpunctual
    refine ⟨?_, ?_, h.once, ?_⟩
    · intro delivery hmem
      obtain ⟨request, haccepted, hanswers, -⟩ := h.delivered delivery hmem
      exact hanswers.1
    · intro delivery hmem
      obtain ⟨request, haccepted, hanswers, hdata⟩ := h.delivered delivery hmem
      have hvisible := (h.visible request).mpr (.inl haccepted)
      refine ⟨⟨request, hvisible, hanswers⟩, ?_⟩
      intro other hother hsame
      rw [h.injective other hother request hvisible (hsame.2.symm.trans hanswers.2), hdata,
        Requester.readFn, Requester.requestId_sequenceNumber]
    · intro request haccepted hreached
      exact (h.late request haccepted).mp (hpunctual request haccepted hreached)

end Tracks

/-- Along every run, replies are correlated with requests if and only if every accepted request of
which a reply reached the reader has one that was looked up after the request was recorded. -/
theorem correlates_iff (exchange : Exchange Guid) (hrun : Reached objectId guid exchange) :
    exchange.Correlates objectId guid ↔ exchange.Punctual guid := by
  have htracks : Tracks objectId guid exchange := by
    refine hrun.invariant ?_ ?_
    · rintro _ rfl
      exact .start
    · exact fun _ _ h hadmitted => h.step hadmitted
  exact htracks.correlates_iff_punctual

/-- The first request of a client. -/
def firstRequest : Request := ⟨(0, 10), ⟨0, 1⟩⟩

/-- The reply to it. -/
def firstReply (guid : Guid) : Reply Guid := ⟨⟨guid, ⟨0, 1⟩⟩, [1, 2]⟩

/-- A request is written, recorded and answered. -/
def answeredInTime : Exchange ℕ :=
  [.write firstRequest, .record, .take (firstReply 7), .lookup].foldl (step (0, 22) 7) start

/-- A request is written, a reply taken and looked up, and the request recorded. -/
def answeredEarly : Exchange ℕ :=
  [.write firstRequest, .take (firstReply 7), .lookup, .record].foldl (step (0, 22) 7) start

/-- The reply that is looked up after the recording is delivered. -/
theorem correlates_iff_in_time : answeredInTime.Correlates (0, 22) 7 := by
  have hwrite := (Reached.start (0, 22) 7).next (.write firstRequest) ⟨rfl, by simp [start]⟩
  have hrecord := hwrite.next .record (Option.some_ne_none _)
  have htake := hrecord.next (.take (firstReply 7)) ⟨rfl, fun _ =>
    ⟨firstRequest, List.mem_singleton_self _, rfl, rfl⟩⟩
  have hlookup := htake.next .lookup (Option.some_ne_none _)
  refine (correlates_iff (0, 22) 7 answeredInTime hlookup).mpr fun request haccepted _ => ?_
  have hfirst : request = firstRequest := List.mem_singleton.mp haccepted
  exact ⟨(firstReply 7, [firstRequest]), List.mem_singleton_self _,
    by rw [hfirst]; exact ⟨rfl, rfl⟩,
    haccepted⟩

/-- The reply that is looked up before the recording is lost. -/
theorem early_reply_lost :
    Reached (0, 22) 7 answeredEarly ∧ ¬ answeredEarly.Correlates (0, 22) 7 := by
  have hwrite := (Reached.start (0, 22) 7).next (.write firstRequest) ⟨rfl, by simp [start]⟩
  have htake := hwrite.next (.take (firstReply 7)) ⟨rfl, fun _ =>
    ⟨firstRequest, List.mem_singleton_self _, rfl, rfl⟩⟩
  have hlookup := htake.next .lookup (Option.some_ne_none _)
  have hrecord := hlookup.next .record (Option.some_ne_none _)
  refine ⟨hrecord, fun hcorrelates => ?_⟩
  obtain ⟨delivery, hmem, -⟩ := hcorrelates.answered firstRequest (List.mem_singleton_self _)
    ⟨(firstReply 7, []), List.mem_singleton_self _, rfl, rfl⟩
  exact absurd hmem List.not_mem_nil

end Exchange

end XrceDds
