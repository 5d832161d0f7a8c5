import XrceDds.Client.Discovery
import XrceDds.Protocol.XrceTypes

/-!
# Reading locators

`uxr_deserialize_TransportLocator` of the client.  The string of a locator is read into an array of
fixed size, and a longer one is refused; what the application sees of the array ends at its first
zero. -/

namespace XrceDds

open AlignedCodec

namespace XrceTypes

/-- `UXR_STRING_SIZE_MAX`. -/
def uxrStringSizeMax : ℕ := 512

section

variable (little : Bool)

/-- `ucdr_deserialize_string`, into an array with room for `capacity` characters. -/
def ucdrReadString (capacity : ℕ) : Reader (List UInt8) := do
  let length ← Reader.number little 4
  Reader.require (length ≤ capacity)
  let characters ← Reader.take length
  pure (characters.takeWhile (· ≠ 0))

/-- The member of a `TransportLocator` that the format selects: the `deserialize` functions of
`TransportLocatorSmall`, `TransportLocatorMedium`, `TransportLocatorLarge` and
`TransportLocatorString`. -/
def uxrLocatorMember (format : UInt8) : Reader TransportLocator :=
  if format = 0 then do
    let address ← Reader.octets 2
    let locatorPort ← Reader.byte
    pure (.small address locatorPort)
  else if format = 1 then do
    let address ← Reader.octets 4
    let locatorPort ← Reader.uint16 little
    pure (.medium address locatorPort)
  else if format = 2 then do
    let address ← Reader.octets 16
    let locatorPort ← Reader.uint32 little
    pure (.large address locatorPort)
  else if format = 3 then do
    let value ← ucdrReadString little uxrStringSizeMax
    pure (.string value)
  else pure (.other format)

/-- `uxr_deserialize_TransportLocator`. -/
def uxrDeserializeTransportLocator : Reader TransportLocator := do
  let format ← Reader.byte
  uxrLocatorMember little format

end

/-- A locator whose string the client has room for. -/
def TransportLocator.Fits : TransportLocator → Prop
  | .string value => value.length + 1 ≤ uxrStringSizeMax
  | _ => True

instance : DecidablePred TransportLocator.Fits := fun locator => by
  cases locator <;> unfold TransportLocator.Fits <;> infer_instance

/-- What was written of a string is read up to the zero behind it. -/
lemma takeWhile_append_zero {s : List UInt8} (h : 0 ∉ s) :
    (s ++ [0]).takeWhile (· ≠ 0) = s := by
  rw [List.takeWhile_append_of_pos]
  · exact List.append_nil s
  · intro b hb
    apply decide_eq_true
    rintro rfl
    exact h hb

/-- A string that fits is read. -/
lemma ucdrReadString_reads (little : Bool) {capacity : ℕ} {s : List UInt8} (h : ValidString s)
    (hfits : s.length + 1 ≤ capacity) :
    Reads (.string little s) (ucdrReadString little capacity) s := by
  have hlength : (s ++ [0]).length = s.length + 1 := List.length_append
  have hread := (Reads.take (s ++ [0])).last (·.takeWhile (· ≠ 0))
  rw [hlength, takeWhile_append_zero h.1] at hread
  unfold Layout.string Layout.sequenceOctets
  rw [hlength]
  apply (Reads.number little h.2).bind
  exact Reads.require hfits hread

/-- A string that does not fit is refused. -/
lemma ucdrReadString_rejects (little : Bool) {capacity : ℕ} {s : List UInt8} (h : ValidString s)
    (hfits : ¬s.length + 1 ≤ capacity) :
    Rejects (.string little s) (ucdrReadString little capacity) := by
  have hlength : (s ++ [0]).length = s.length + 1 := List.length_append
  unfold Layout.string Layout.sequenceOctets
  rw [hlength]
  apply Rejects.bind_right (Reads.number little h.2)
  exact Rejects.require hfits _

/-- A locator that fits is read. -/
lemma uxrDeserializeTransportLocator_reads (little : Bool) {locator : TransportLocator}
    (h : locator.Valid) (hfits : locator.Fits) :
    Reads (locator.layout little) (uxrDeserializeTransportLocator little) locator := by
  apply (Reads.byte _).bind
  cases locator with
  | small address locatorPort =>
    exact (Reads.octets address).bind ((Reads.byte locatorPort).last _)
  | medium address locatorPort =>
    exact (Reads.octets address).bind ((Reads.uint16 little locatorPort).last _)
  | large address locatorPort =>
    exact (Reads.octets address).bind ((Reads.uint32 little locatorPort).last _)
  | string value => exact (ucdrReadString_reads little h hfits).last _
  | other d =>
    obtain ⟨h₀, h₁, h₂, h₃⟩ : d ≠ 0 ∧ d ≠ 1 ∧ d ≠ 2 ∧ d ≠ 3 := by
      simpa [TransportLocator.Valid] using h
    change Reads .nil (uxrLocatorMember little d) _
    unfold uxrLocatorMember
    rw [if_neg h₀, if_neg h₁, if_neg h₂, if_neg h₃]
    exact .pure _

/-- One that does not is refused. -/
lemma uxrDeserializeTransportLocator_rejects (little : Bool) {locator : TransportLocator}
    (h : locator.Valid) (hfits : ¬locator.Fits) :
    Rejects (locator.layout little) (uxrDeserializeTransportLocator little) := by
  apply Rejects.bind_right (Reads.byte _)
  cases locator with
  | string value => exact (ucdrReadString_rejects little h hfits).last _
  | small | medium | large | other => exact absurd trivial hfits

/-! ## In a buffer -/

/-- A reader on a buffer of the client.  Nothing is read behind a failure. -/
def onBuffer {α : Type} (r : Reader α) (ub : ReadBuffer) : ReadBuffer × Option α :=
  match r.run ⟨ub.offset, ub.bytes⟩ with
  | some (a, c) => (⟨c.rest, c.position⟩, some a)
  | none => (ub, none)

/-- How the discovery reads locators. -/
def locatorReader (little : Bool) : ReadBuffer → ReadBuffer × Option TransportLocator :=
  onBuffer (uxrDeserializeTransportLocator little)

section

variable {reader : DiscoveryReader TransportLocator} {little : Bool}

/-- Locators that fit are read one behind the other. -/
lemma deserializeLocators_eq_some (hlocator : reader.locator = locatorReader)
    {address : List TransportLocator} (hvalid : ∀ a ∈ address, a.Valid)
    (hfits : ∀ a ∈ address, a.Fits) {bs : List UInt8} {p : ℕ}
    (h : Matches (Layout.flatMap (TransportLocator.layout little) address p) bs)
    (rest : List UInt8) :
    deserializeLocators reader little address.length ⟨bs ++ rest, p⟩ = some address := by
  induction address generalizing bs p with
  | nil => rfl
  | cons locator address ih =>
    obtain ⟨bs₁, bs₂, rfl, h₁, h₂⟩ := h.of_append
    rw [← h₁.length_eq] at h₂
    have hread := uxrDeserializeTransportLocator_reads little (hvalid _ List.mem_cons_self)
      (hfits _ List.mem_cons_self) p bs₁ (bs₂ ++ rest) h₁
    have hrest := ih (fun a ha => hvalid a (List.mem_cons_of_mem _ ha))
      (fun a ha => hfits a (List.mem_cons_of_mem _ ha)) h₂
    rw [List.length_cons, deserializeLocators, hlocator]
    unfold locatorReader onBuffer
    dsimp only
    rw [List.append_assoc, hread]
    dsimp only
    rw [hrest]
    rfl

/-- One that does not fit among them is refused, and all of them with it. -/
lemma deserializeLocators_eq_none (hlocator : reader.locator = locatorReader)
    {address : List TransportLocator} (hvalid : ∀ a ∈ address, a.Valid)
    (hfits : ¬∀ a ∈ address, a.Fits) {bs : List UInt8} {p : ℕ}
    (h : Matches (Layout.flatMap (TransportLocator.layout little) address p) bs)
    (rest : List UInt8) :
    deserializeLocators reader little address.length ⟨bs ++ rest, p⟩ = none := by
  induction address generalizing bs p with
  | nil => exact absurd (fun a ha => absurd ha List.not_mem_nil) hfits
  | cons locator address ih =>
    obtain ⟨bs₁, bs₂, rfl, h₁, h₂⟩ := h.of_append
    rw [← h₁.length_eq] at h₂
    have hhead := hvalid locator List.mem_cons_self
    rw [List.length_cons, deserializeLocators, hlocator]
    unfold locatorReader onBuffer
    dsimp only
    rw [List.append_assoc]
    by_cases hfit : locator.Fits
    · have hnot : ¬∀ a ∈ address,
        a.Fits := fun hall => hfits (List.forall_mem_cons.mpr ⟨hfit, hall⟩)
      have hrest := ih (fun a ha => hvalid a (List.mem_cons_of_mem _ ha)) hnot h₂
      rw [uxrDeserializeTransportLocator_reads little hhead hfit p bs₁ (bs₂ ++ rest) h₁]
      dsimp only
      rw [hrest]
      rfl
    · rw [uxrDeserializeTransportLocator_rejects little hhead hfit p bs₁ (bs₂ ++ rest) h₁]

end

end XrceTypes

end XrceDds
