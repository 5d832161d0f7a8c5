import Mathlib.Algebra.Group.Nat.Defs
import Mathlib.Data.Int.Notation
import Mathlib.Data.Nat.Notation

/-!
# Identifiers and representations of objects

What a client sends to name an object and to say what it should be.
-/

namespace XrceDds

/-- `dds::xrce::ObjectId`, and `ObjectPrefix`. -/
abbrev ObjectId := UInt8 × UInt8

/-- `objectid_to_raw`. -/
def objectidToRaw (objectId : ObjectId) : ℕ :=
  ((objectId.2.toNat >>> 4) + (objectId.1.toNat <<< 4)) % 2 ^ 16

/-- The identifier with the prefix of `objectId` and the kind `kind`. -/
def ObjectId.withKind (objectId : ObjectId) (kind : UInt8) : ObjectId :=
  (objectId.1, (objectId.2 &&& 0xF0) ||| kind)

/-- `dds::xrce::ObjectKind`. -/
abbrev ObjectKind := UInt8

namespace ObjectKind

def participant : ObjectKind := 1
def topic : ObjectKind := 2
def publisher : ObjectKind := 3
def subscriber : ObjectKind := 4
def dataWriter : ObjectKind := 5
def dataReader : ObjectKind := 6
def requester : ObjectKind := 7
def replier : ObjectKind := 8

end ObjectKind

/-- The unions of representation formats. -/
inductive Representation where
  | byReference (ref : String)
  | asXmlString (xml : String)
  | inBinary (binary : List UInt8)
  deriving DecidableEq

/-- `object_reference`, of a union: another member is not to be read. -/
def Representation.objectReference : Representation → Option String
  | .byReference ref => some ref
  | .asXmlString _ | .inBinary _ => none

/-- `xml_string_representation`, or `string_representation`. -/
def Representation.xmlStringRepresentation : Representation → Option String
  | .asXmlString xml => some xml
  | .byReference _ | .inBinary _ => none

/-- What the members of `ObjectVariant` are made of: the object that the object belongs to
(`participant_id`, `publisher_id` or `subscriber_id`), the domain of a participant, and the
representation. -/
structure ObjectMember where
  parentId : ObjectId
  domainId : ℤ
  representation : Representation
  deriving DecidableEq

/-- `dds::xrce::ObjectVariant`: a discriminator and the member that it selects. -/
structure ObjectVariant where
  d : ObjectKind
  member : ObjectMember
  deriving DecidableEq

namespace ObjectVariant

/-- Reading a member throws, unless the discriminator selects it. -/
def select (kind : ObjectKind) (variant : ObjectVariant) : Option ObjectMember :=
  if variant.d = kind then some variant.member else none

def participant : ObjectVariant → Option ObjectMember := select .participant
def topic : ObjectVariant → Option ObjectMember := select .topic
def dataWriter : ObjectVariant → Option ObjectMember := select .dataWriter
def dataReader : ObjectVariant → Option ObjectMember := select .dataReader
def requester : ObjectVariant → Option ObjectMember := select .requester
def replier : ObjectVariant → Option ObjectMember := select .replier

end ObjectVariant

/-- `XRCEObject`, with the representation that it was built from and the number of objects that were
built before it.  The class of an object is that of the kind of its representation. -/
structure XRCEObject where
  id : ObjectId
  built : ObjectVariant
  number : ℕ
  deriving DecidableEq

end XrceDds
