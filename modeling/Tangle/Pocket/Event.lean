import Tangle.Protocol.Scalars

/-!
# Pocket events

An event as the Pocket library holds it. Its id and author are 32 bytes each, which the program
only ever reads as hexadecimal digits; its kind has 16 bits; its tags are lists of byte strings, of
which those that are UTF-8 are kept as text and the others as bytes.
-/

namespace Tangle

/-- A value of a tag. -/
inductive TagValue where
  | text (value : Text)
  /-- Bytes that are not UTF-8. -/
  | raw (bytes : List UInt8)
deriving DecidableEq

/-- An event in the store's format. -/
structure PocketEvent where
  id : EventId
  pubkey : PublicKeyHex
  kind : UInt16
  createdAt : UnixTimestamp
  tags : List (List TagValue)
  content : Text
deriving DecidableEq

/-- An event without content whose tags are all text. -/
def PocketEvent.ofTexts (id : EventId) (pubkey : PublicKeyHex) (kind : UInt16)
    (createdAt : UnixTimestamp) (tags : List (List Text)) : PocketEvent where
  id := id
  pubkey := pubkey
  kind := kind
  createdAt := createdAt
  tags := tags.map fun tag => tag.map .text
  content := []

/-- Where an event lies in the store's event map. -/
abbrev StoreOffset : Type := Nat

/-- An event of the store with its place. -/
structure StoredEvent where
  event : PocketEvent
  storeOffset : StoreOffset
deriving DecidableEq

end Tangle
