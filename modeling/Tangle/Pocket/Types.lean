import Tangle.Lib.Except
import Tangle.Groups.Config
import Tangle.Pocket.Event

/-!
# The Pocket library's types, as the relay calls them

The relay builds a tag section, signs an event and verifies it with functions of the Pocket library
and a Schnorr key. They are not part of the relay, so they are parameters: `PocketTypes` names the
functions and `PocketTypes.Lawful` states what the relay relies on.

A tag section takes a fixed number of bytes, a fixed number for each tag and each value, and the
bytes of the values (`TagCodec.size`); Pocket takes a section of at most 65535 bytes.
-/

namespace Tangle

/-- What a tag section takes besides the bytes of its values. -/
structure TagCodec where
  header : Nat
  perTag : Nat
  perValue : Nat

def TagValue.byteLen : TagValue → Nat
  | .text value => value.byteLen
  | .raw bytes => bytes.length

namespace TagCodec

variable (codec : TagCodec)

def tagSize (tag : List TagValue) : Nat :=
  codec.perTag + (tag.map fun value => codec.perValue + value.byteLen).sum

/-- The bytes of a tag section. -/
def size (tags : List (List TagValue)) : Nat :=
  codec.header + (tags.map codec.tagSize).sum

end TagCodec

/-- The largest tag section: its length is kept in 16 bits. -/
def maxTagSectionBytes : Nat := 65535

/-- Values as they stand in the tags of an event. -/
def toTagValues (tags : List (List Text)) : List (List TagValue) :=
  tags.map fun tag => tag.map .text

/-- The functions of the Pocket library and of the signing key. -/
structure PocketTypes where
  /-- `OwnedTags::new`: whether the tags form a tag section. -/
  ownedTags : List (List Text) → Except String Unit
  /-- The public key of a secret (`RelaySigner::from_secret_hex`). -/
  publicKey : RelaySecret → Except String PublicKeyHex
  /-- `OwnedEvent::sign_new`. -/
  signNew : RelaySecret → UInt16 → List (List Text) → UnixTimestamp → Text →
    Except String PocketEvent
  /-- `Event::verify`. -/
  verify : PocketEvent → Except String Unit

namespace PocketTypes

/-- What the relay relies on. -/
structure Lawful (pocket : PocketTypes) (codec : TagCodec) : Prop where
  /-- A tag section is accepted when its length fits its 16 bits, and only then. -/
  ownedTags_iff : ∀ tags, (pocket.ownedTags tags).Succeeds ↔
    codec.size (toTagValues tags) ≤ maxTagSectionBytes
  /-- Signing a well-formed event with a usable secret yields the event with those fields, which
  verifies. -/
  signNew_ok : ∀ {secret pubkey kind tags createdAt content},
    pocket.publicKey secret = .ok pubkey → (pocket.ownedTags tags).Succeeds →
      ∃ id, pocket.signNew secret kind tags createdAt content =
          .ok ⟨id, pubkey, kind, createdAt, toTagValues tags, content⟩ ∧
        (pocket.verify ⟨id, pubkey, kind, createdAt, toTagValues tags, content⟩).Succeeds

end PocketTypes

/-- An event that exists in Pocket's format: its tag section fits. -/
def PocketEvent.Fits (codec : TagCodec) (event : PocketEvent) : Prop :=
  codec.size event.tags ≤ maxTagSectionBytes

end Tangle
