import HunkScope.Data.Decoder

/-!
# Record types

A record type has keys, and decodes from a record or from a list. What is read is kept in a draft,
which has room for each key, and the draft is finished when all is read.

In a record, the keys that are there are read in the order of their bytes, and the keys that are
missing are reported afterwards, in the order of declaration; keys that are not declared are not
looked at. In a list the elements are read in the order of declaration, and there has to be one for
each key. A type with defaults goes on with its default where an element is missing.

Premises: this is the decoder that is derived for a structure with named fields, with or without
defaults for the whole structure (`serde`), and records are read in the order of the bytes of their
keys, as an ordered map lists them (`serde_json`).

* `Decode.keyBytes`, `Decode.sortByKey`: the order in which records are read.
* `Key`: a key with what it holds and where a draft keeps it.
* `RecordType`: the keys with the draft before and after; `RecordType.decode` reads a value by them.
* `RecordType.ofWords`: a record type of two words.
-/

namespace HunkScope

namespace Decode

/-- The bytes of a key. -/
def keyBytes (key : String) : List UInt8 := key.toUTF8.data.toList

/-- Things that have keys, in the order of the bytes of their keys. -/
def sortByKey {κ : Type _} (key : κ → String) (things : List κ) : List κ :=
  things.mergeSort fun x y => decide (keyBytes (key x) ≤ keyBytes (key y))

end Decode

open Decode

/-- A key of a record type whose drafts are `δ`. -/
structure Key (δ : Type) where
  name : String
  /-- What the key holds. -/
  Held : Type
  read : Decoder Held
  /-- Keeps in a draft what the key holds, if there was something. -/
  keep : Option Held → δ → δ

/-- Two keys leave the same draft, whichever is read first. -/
def Key.Apart {δ : Type} (k l : Key δ) : Prop :=
  ∀ x y d, k.keep x (l.keep y d) = l.keep y (k.keep x d)

/-- How things decode by their keys. -/
structure RecordType (δ α : Type) where
  name : String
  /-- The keys in the order of declaration. -/
  keys : List (Key δ)
  /-- The draft before anything is read. -/
  blank : δ
  /-- What a draft amounts to, if it lacks no key. -/
  finish : δ → Except DecodeError α
  /-- What a list does not say is as it is in the blank draft. -/
  hasDefaults : Bool
  distinct : (keys.map Key.name).Nodup
  apart : keys.Pairwise Key.Apart

namespace RecordType

variable {δ α : Type}

/-- Reads keys of a record into a draft, one after the other. -/
def readKeys (fields : List (String × Value)) : List (Key δ) → δ → Except DecodeError δ
  | [], draft => .ok draft
  | k :: keys, draft => do
    let x ← key? fields k.name k.read
    readKeys fields keys (k.keep x draft)

variable (r : RecordType δ α)

/-- The name and the keys. -/
def shape : Shape := ⟨r.name, r.keys.map Key.name⟩

/-- A thing from a record. -/
def ofFields (fields : List (String × Value)) : Except DecodeError α := do
  let draft ← readKeys fields (sortByKey Key.name r.keys) r.blank
  r.finish draft

/-- Reads an element of a list, if it has to be there. -/
def element? {β : Type} (items : List Value) (i : Nat) (read : Decoder β) :
    Except DecodeError (Option β) :=
  match items[i]? with
  | some v => (read v).map some
  | none => if r.hasDefaults then .ok none else .error (.tooShort i r.shape)

/-- Reads elements of a list into a draft, one for each key, from the `i`-th on. -/
def readItems (items : List Value) : List (Key δ) → Nat → δ → Except DecodeError δ
  | [], _, draft => .ok draft
  | k :: keys, i, draft => do
    let x ← r.element? items i k.read
    readItems items keys (i + 1) (k.keep x draft)

/-- A thing from a list, which has no more elements than there are keys. -/
def ofItems (items : List Value) : Except DecodeError α := do
  let draft ← r.readItems items r.keys 0 r.blank
  let x ← r.finish draft
  if items.length ≤ r.keys.length then return x else .error (.tooLong items.length)

/-- A thing from a value. -/
def decode : Decoder α
  | .record fields => r.ofFields fields
  | .list items => r.ofItems items
  | v => mismatch v (.shape r.shape)

/-- A record type of two words. -/
def ofWords (name first second : String) (hne : first ≠ second) (make : UInt32 → UInt32 → α) :
    RecordType (Option UInt32 × Option UInt32) α where
  name := name
  keys := [⟨first, UInt32, word, fun x d => (x, d.2)⟩, ⟨second, UInt32, word, fun y d => (d.1, y)⟩]
  blank := (none, none)
  finish d := do return make (← require first d.1) (← require second d.2)
  hasDefaults := false
  distinct := by simp [hne]
  apart := by simp [Key.Apart]

end RecordType

end HunkScope
