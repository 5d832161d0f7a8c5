import XrceDds.Agent.InputStream
import Mathlib.Logic.Relation

/-!
# Reassembly of FRAGMENTs

`process_input_message` walks over the submessages of a message; at a FRAGMENT it adds the
payload to the accumulator of the stream, and when that was the last one of its run walks over
the message that was put together before it goes on with the first one.  `Walk` follows this
with the stack of messages that are being walked over.  What the other handlers do is left
open, except that none of them touches the accumulator.

Every message that is produced should be the header of the first message of its run and
behind it the payloads of the FRAGMENTs of the run; a run with a FRAGMENT that announces more
bytes than are there should not produce a message.  This holds if and only if every run that
ended is of FRAGMENTs with all their bytes (`reassembly_exact_iff`).
-/

namespace XrceDds

/-- A FRAGMENT as it is met: the header of the message that it is in, the length that it
announces, the bytes that are left behind its header, and whether it is the last one. -/
structure Fragment where
  header : List UInt8
  announced : ℕ
  present : List UInt8
  last : Bool
  deriving DecidableEq

namespace Fragment

/-- All the bytes that are announced are there. -/
def Whole (fragment : Fragment) : Prop := fragment.announced ≤ fragment.present.length

instance (fragment : Fragment) : Decidable fragment.Whole := by
  unfold Whole; infer_instance

/-- The bytes of the payload. -/
def payload (fragment : Fragment) : List UInt8 := fragment.present.take fragment.announced

/-- What `push_fragment` adds. -/
def contribution (fragment : Fragment) : List UInt8 :=
  if fragment.Whole then fragment.payload else List.replicate fragment.announced 0

/-- The FRAGMENT that the deserializer of a message stands behind the header of. -/
def ofMessage (message : InputMessage) : Fragment where
  header := message.getRawHeader
  announced := message.subheader.submessageLength
  present := message.rest
  last := (agentFlagLastFragment &&& message.subheader.flags) ≠ 0

end Fragment

/-- The header of the first message of a run, and one part of each FRAGMENT behind it. -/
def assemble (part : Fragment → List UInt8) : List Fragment → List UInt8
  | [] => []
  | fragment :: run => fragment.header ++ ((fragment :: run).map part).flatten

/-- The runs of FRAGMENTs that ended, and the one that has not. -/
structure FragmentRuns where
  completed : List (List Fragment)
  current : List Fragment

/-- The next FRAGMENT goes to the current run, and ends it if it says so. -/
def FragmentRuns.add (runs : FragmentRuns) (fragment : Fragment) : FragmentRuns :=
  if fragment.last then ⟨runs.completed ++ [runs.current ++ [fragment]], []⟩
  else ⟨runs.completed, runs.current ++ [fragment]⟩

/-- `process_input_message` on its way: the messages that are being walked over, the innermost
one first, and the stream; with what `pop_fragment_message` has produced and the FRAGMENTs
that were met. -/
structure Walk where
  messages : List InputMessage
  stream : ReliableInputStream InputMessage
  produced : List (List UInt8)
  runs : FragmentRuns

namespace Walk

/-- A new stream, and no message. -/
def start : Walk := ⟨[], .new, [], ⟨[], []⟩⟩

section

variable [FastCdr]

/-- `process_fragment_submessage`, for the FRAGMENT that the message stands at. -/
def processFragmentSubmessage (walk : Walk) (message : InputMessage)
    (messages : List InputMessage) : Walk :=
  let pushed := walk.stream.pushFragment message
  let popped := pushed.1.popFragmentMessage
  { messages := (popped.2.map InputMessage.new).toList ++ pushed.2 :: messages
    stream := popped.1
    produced := walk.produced ++ popped.2.toList
    runs := walk.runs.add (.ofMessage message) }

/-- One step of the walk. -/
inductive Step : Walk → Walk → Prop
  /-- The next message is popped, or a message of another session or stream changes what the
  stream holds. -/
  | deliver {walk : Walk} {message : InputMessage} {stream : ReliableInputStream InputMessage} :
      walk.messages = [] → stream.fragmentMsg = walk.stream.fragmentMsg →
      stream.fragmentMessageAvailable = walk.stream.fragmentMessageAvailable →
      Step walk { walk with messages := [message], stream := stream }
  /-- The message has no further submessage. -/
  | finish {walk : Walk} {message message' : InputMessage} {messages : List InputMessage} :
      walk.messages = message :: messages → message.prepareNextSubmessage = (message', false) →
      Step walk { walk with messages := messages }
  /-- The submessage is a FRAGMENT. -/
  | fragment {walk : Walk} {message message' : InputMessage} {messages : List InputMessage} :
      walk.messages = message :: messages → message.prepareNextSubmessage = (message', true) →
      message'.subheader.submessageId = fragmentId →
      Step walk (walk.processFragmentSubmessage message' messages)
  /-- The handler of another submessage takes some bytes, and the walk goes on or stops. -/
  | other {walk : Walk} {message message' : InputMessage} {messages : List InputMessage}
      {position : ℕ} {stream : ReliableInputStream InputMessage} {rv : Bool} :
      walk.messages = message :: messages → message.prepareNextSubmessage = (message', true) →
      message'.subheader.submessageId ≠ fragmentId →
      stream.fragmentMsg = walk.stream.fragmentMsg →
      stream.fragmentMessageAvailable = walk.stream.fragmentMessageAvailable →
      Step walk { walk with
        messages := if rv then { message' with position := position } :: messages else messages
        stream := stream }

end

end Walk

section

variable [FastCdr]

/-- A message that has a submessage has bytes. -/
lemma InputMessage.prepareNextSubmessage_buf {message message' : InputMessage}
    (h : message.prepareNextSubmessage = (message', true)) : message'.buf ≠ [] := by
  have halign : message.alignSubmessage.buf = message.buf := by
    rw [alignSubmessage_eq]
    split <;> rfl
  unfold prepareNextSubmessage at h
  dsimp only at h
  split at h
  · next hlt =>
    have hne : message.buf ≠ [] := by
      rintro hnil
      rw [halign, hnil] at hlt
      exact absurd hlt (Nat.not_lt_zero _)
    unfold deserializeSubheader at h
    split at h
    · exact absurd (congrArg Prod.snd h) (by simp)
    · next _ submessageId m₁ h₁ =>
      have e₁ : m₁.buf = message.buf := (deserializeArray_buf h₁).trans halign
      dsimp only at h
      split at h
      · exact absurd (congrArg Prod.snd h) (by simp)
      · next _ flags m₂ h₂ =>
        have e₂ : m₂.buf = message.buf := (deserializeArray_buf h₂).trans e₁
        split at h
        · exact absurd (congrArg Prod.snd h) (by simp)
        · next _ submessageLength m₃ h₃ =>
          have e₃ : m₃.buf = message.buf := (deserializeArray_buf h₃).trans e₂
          rw [← (Prod.mk.inj h).1]
          exact e₃ ▸ hne
  · exact absurd (congrArg Prod.snd h) (by simp)

omit [FastCdr] in
/-- The header of a message with bytes has bytes. -/
lemma InputMessage.getRawHeader_ne_nil {message : InputMessage} (h : message.buf ≠ []) :
    message.getRawHeader ≠ [] := by
  unfold getRawHeader
  split <;> simpa using h

/-- What `push_fragment` adds to the accumulator is the contribution of the FRAGMENT. -/
lemma ReliableInputStream.pushFragment_fragmentMsg (stream : ReliableInputStream InputMessage)
    (message : InputMessage) :
    (stream.pushFragment message).1.fragmentMsg =
      (if stream.fragmentMsg = [] then message.getRawHeader else stream.fragmentMsg) ++
        (Fragment.ofMessage message).contribution := by
  unfold pushFragment InputMessage.getRawPayload
  dsimp only
  rw [if_pos le_rfl, InputMessage.deserializeArray_eq]
  by_cases hwhole : message.subheader.submessageLength ≤ message.rest.length
  · have hpart : (Fragment.ofMessage message).contribution =
        (Fragment.ofMessage message).payload := if_pos hwhole
    rw [if_pos hwhole, hpart]
    rfl
  · have hpart : (Fragment.ofMessage message).contribution =
        List.replicate message.subheader.submessageLength 0 := if_neg hwhole
    rw [if_neg hwhole, hpart]

/-- Whether a message is there after `push_fragment` depends on the FRAGMENT alone. -/
lemma ReliableInputStream.pushFragment_available (stream : ReliableInputStream InputMessage)
    (message : InputMessage) :
    (stream.pushFragment message).1.fragmentMessageAvailable =
      (Fragment.ofMessage message).last := by
  unfold pushFragment
  dsimp only
  split <;> rfl

end

/-- A run with one more FRAGMENT. -/
lemma assemble_concat (part : Fragment → List UInt8) (run : List Fragment) (fragment : Fragment) :
    assemble part (run ++ [fragment]) =
      (if run = [] then fragment.header else assemble part run) ++ part fragment := by
  cases run with
  | nil => simp [assemble]
  | cons first run => simp [assemble]

namespace Walk

/-- The accumulator holds the current run, and what was produced are the runs that ended. -/
structure Follows (walk : Walk) : Prop where
  available : walk.stream.fragmentMessageAvailable = false
  fragmentMsg : walk.stream.fragmentMsg = assemble Fragment.contribution walk.runs.current
  nonempty : walk.runs.current ≠ [] → walk.stream.fragmentMsg ≠ []
  produced : walk.produced = walk.runs.completed.map (assemble Fragment.contribution)

section

variable [FastCdr]

/-- A FRAGMENT is added to the current run, and the message is produced when it ends. -/
lemma Follows.processFragmentSubmessage {walk : Walk} (h : walk.Follows) {message : InputMessage}
    (messages : List InputMessage) (hbuf : message.buf ≠ []) :
    (walk.processFragmentSubmessage message messages).Follows := by
  have hmsg : (walk.stream.pushFragment message).1.fragmentMsg =
      assemble Fragment.contribution (walk.runs.current ++ [.ofMessage message]) := by
    rw [ReliableInputStream.pushFragment_fragmentMsg, assemble_concat]
    by_cases hcurrent : walk.runs.current = []
    · have hnil : walk.stream.fragmentMsg = [] := by rw [h.fragmentMsg, hcurrent]; rfl
      rw [if_pos hnil, if_pos hcurrent]
      rfl
    · rw [if_neg (h.nonempty hcurrent), if_neg hcurrent, h.fragmentMsg]
  have hne : (walk.stream.pushFragment message).1.fragmentMsg ≠ [] := by
    rw [ReliableInputStream.pushFragment_fragmentMsg]
    refine List.append_ne_nil_of_left_ne_nil ?_ _
    split
    · exact InputMessage.getRawHeader_ne_nil hbuf
    · assumption
  have havailable := ReliableInputStream.pushFragment_available walk.stream message
  unfold Walk.processFragmentSubmessage ReliableInputStream.popFragmentMessage FragmentRuns.add
  dsimp only
  generalize (walk.stream.pushFragment message).1 = stream at *
  cases hlast : (Fragment.ofMessage message).last with
  | true =>
    rw [havailable, hlast, if_pos rfl, if_pos rfl]
    refine ⟨rfl, rfl, fun hcontra => absurd rfl hcontra, ?_⟩
    dsimp only
    rw [h.produced, List.map_append, hmsg]
    rfl
  | false =>
    rw [if_neg (by rw [havailable, hlast]; exact Bool.false_ne_true), if_neg Bool.false_ne_true]
    refine ⟨havailable.trans hlast, hmsg, fun _ => hne, ?_⟩
    dsimp only
    rw [Option.toList_none, List.append_nil]
    exact h.produced

/-- Every step keeps this. -/
lemma Follows.step {walk walk' : Walk} (h : walk.Follows) (hstep : Step walk walk') :
    walk'.Follows := by
  cases hstep with
  | deliver _ hmsg havailable =>
    exact ⟨havailable.trans h.available, hmsg.trans h.fragmentMsg,
      fun hne => hmsg ▸ h.nonempty hne, h.produced⟩
  | finish => exact ⟨h.available, h.fragmentMsg, h.nonempty, h.produced⟩
  | fragment _ hprepare _ =>
    exact h.processFragmentSubmessage _ (InputMessage.prepareNextSubmessage_buf hprepare)
  | other _ _ _ hmsg havailable =>
    exact ⟨havailable.trans h.available, hmsg.trans h.fragmentMsg,
      fun hne => hmsg ▸ h.nonempty hne, h.produced⟩

/-- Along every walk the accumulator follows the FRAGMENTs. -/
lemma follows_of_run {walk : Walk} (hrun : Relation.ReflTransGen Step start walk) :
    walk.Follows := by
  induction hrun with
  | refl => exact ⟨rfl, rfl, fun hne => absurd rfl hne, rfl⟩
  | tail _ hstep ih => exact ih.step hstep

end

/-- A run whose FRAGMENTs have all their bytes. -/
def WholeRun (run : List Fragment) : Prop := ∀ fragment ∈ run, fragment.Whole

instance (run : List Fragment) : Decidable (WholeRun run) := by
  unfold WholeRun; infer_instance

/-- What was produced is, for every run that ended with all its bytes, the header of the first
message and the payloads behind it, and nothing for the other runs. -/
def ReassemblyExact (walk : Walk) : Prop :=
  walk.produced =
    (walk.runs.completed.filter fun run => WholeRun run).map (assemble Fragment.payload)

instance (walk : Walk) : Decidable walk.ReassemblyExact := by
  unfold ReassemblyExact; infer_instance

/-- From FRAGMENTs with all their bytes, the payloads are taken. -/
lemma assemble_contribution {run : List Fragment} (h : WholeRun run) :
    assemble Fragment.contribution run = assemble Fragment.payload run := by
  have hmap : run.map Fragment.contribution = run.map Fragment.payload :=
    List.map_congr_left fun fragment hmem => if_pos (h fragment hmem)
  cases run with
  | nil => rfl
  | cons fragment run => rw [assemble, assemble, hmap]

/-- If every run that ended has all its bytes, reassembly is exact, and conversely. -/
lemma Follows.exact_iff {walk : Walk} (h : walk.Follows) :
    walk.ReassemblyExact ↔ ∀ run ∈ walk.runs.completed, WholeRun run := by
  unfold ReassemblyExact
  rw [h.produced]
  constructor
  · intro heq run hmem
    have hlength := congrArg List.length heq
    rw [List.length_map, List.length_map] at hlength
    have := List.length_filter_eq_length_iff.mp hlength.symm run hmem
    exact of_decide_eq_true this
  · intro hall
    rw [List.filter_eq_self.mpr fun run hmem => decide_eq_true (hall run hmem)]
    exact List.map_congr_left fun run hmem => assemble_contribution (hall run hmem)

section

variable [FastCdr]

/-- Along every walk, reassembly is exact if and only if every run of FRAGMENTs that ended has
all the bytes that it announced. -/
theorem reassembly_exact_iff {walk : Walk} (hrun : Relation.ReflTransGen Step start walk) :
    walk.ReassemblyExact ↔ ∀ run ∈ walk.runs.completed, WholeRun run :=
  (follows_of_run hrun).exact_iff

/-- The walk over a message with a FRAGMENT, after the FRAGMENT. -/
def afterFragment (walk : Walk) (bytes : List UInt8) : Walk :=
  { walk with messages := [.new bytes] }.processFragmentSubmessage
    (InputMessage.new bytes).prepareNextSubmessage.1 []

/-- When no message is left, one whose first submessage is a FRAGMENT may be walked over. -/
lemma run_afterFragment {walk : Walk} (hrun : Relation.ReflTransGen Step start walk)
    (hmessages : walk.messages = []) {bytes : List UInt8}
    (hprepare : (InputMessage.new bytes).prepareNextSubmessage.2 = true)
    (hid : (InputMessage.new bytes).prepareNextSubmessage.1.subheader.submessageId = fragmentId) :
    Relation.ReflTransGen Step start (walk.afterFragment bytes) :=
  have hdeliver : Step walk { walk with messages := [.new bytes] } := .deliver hmessages rfl rfl
  .tail (.tail hrun hdeliver) (.fragment rfl (Prod.ext rfl hprepare) hid)

end

/-- Two messages with a FRAGMENT of one run each. -/
def afterTwoFragments : Walk :=
  let first := start.afterFragment [129, 128, 0, 0, 13, 1, 4, 0, 1, 2, 3, 4]
  { first with messages := [] }.afterFragment [129, 128, 1, 0, 13, 3, 3, 0, 5, 6, 7]

/-- Two FRAGMENTs with all their bytes make a message, behind the header of the first one. -/
theorem reassembly_exact_iff_whole :
    afterTwoFragments.produced = [[129, 128, 0, 0, 1, 2, 3, 4, 5, 6, 7]] ∧
      afterTwoFragments.ReassemblyExact := by
  have hfirst : Relation.ReflTransGen Step start
      (start.afterFragment [129, 128, 0, 0, 13, 1, 4, 0, 1, 2, 3, 4]) :=
    run_afterFragment .refl rfl (by decide) (by decide)
  have hfinish := hfirst.tail (.finish rfl (Prod.ext rfl (by decide)))
  have hrun : Relation.ReflTransGen Step start afterTwoFragments :=
    run_afterFragment hfinish rfl (by decide) (by decide)
  exact ⟨by decide, (reassembly_exact_iff hrun).mpr (by decide)⟩

/-- A FRAGMENT that announces five bytes, of which one is there, makes a message with five bytes
that nobody sent. -/
theorem reassembly_pads :
    Relation.ReflTransGen Step start (start.afterFragment [129, 128, 0, 0, 13, 3, 5, 0, 1]) ∧
      ¬ (start.afterFragment [129, 128, 0, 0, 13, 3, 5, 0, 1]).ReassemblyExact :=
  ⟨run_afterFragment .refl rfl (by decide) (by decide), by decide⟩

end Walk

end XrceDds
