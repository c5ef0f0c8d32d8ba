import HunkScope.Data.DecodeError

/-!
# Decoders

How the parts of a record decode: words, texts, booleans, null, and things that have names. Each
decoder takes one form of a value, or a few, and fails on all others with an error that says what it
found.

Premise: this is how the decoders that are derived for scalars, options and enumerations without
contents read structured data (`serde` and `serde_json`).

* `Decode.word`, `Decode.text`, `Decode.bool`, `Decode.unit`, `Decode.nullable`: scalars.
* `Decode.named`: a name decodes from a text, or from a record whose only key it is, with null as
  its value.
* `Decode.key?`, `Decode.require`: a key of a record, if it is there and if it has to be.
-/

namespace HunkScope

/-- A way to read values of a type. -/
abbrev Decoder (α : Type) := Value → Except DecodeError α

namespace Decode

variable {α : Type}

/-! ## Scalars -/

/-- A value of another type than expected. -/
def mismatch (v : Value) (e : Expected) : Except DecodeError α := .error (.wrongType v.found e)

/-- A 32-bit word. -/
def word : Decoder UInt32
  | .int i =>
    if 0 ≤ i ∧ i.toNat < UInt32.size then .ok (UInt32.ofNat i.toNat) else .error (.outOfRange i)
  | v => mismatch v .word

/-- A word decodes from its integer. -/
theorem word_word (w : UInt32) : word (.word w) = .ok w := by
  have h : (w.toNat : Int).toNat < UInt32.size := w.toNat_lt
  rw [Value.word, word, if_pos ⟨by omega, h⟩, Int.toNat_natCast, UInt32.ofNat_toNat]

/-- A text. -/
def text : Decoder String
  | .text s => .ok s
  | v => mismatch v .text

/-- A boolean. -/
def bool : Decoder Bool
  | .bool b => .ok b
  | v => mismatch v .bool

/-- Null. -/
def unit : Decoder Unit
  | .null => .ok ()
  | v => mismatch v .unit

/-- Null, or a record without keys. -/
def unitOrEmpty : Decoder Unit
  | .record [] => .ok ()
  | v => unit v

/-- Null for nothing, or a value. -/
def nullable (read : Decoder α) : Decoder (Option α)
  | .null => .ok none
  | v => (read v).map some

/-- One of several named things: its name, or a record with its name as the only key. The name is
looked at before the value of the key. -/
def named (known : List (String × α)) (content : Decoder Unit) : Decoder α
  | .text s => find s
  | .record [(s, v)] => do
    let x ← find s
    content v
    return x
  | .record _ => .error .notSingle
  | v => mismatch v .variant
where
  /-- The thing of a name. -/
  find (s : String) : Except DecodeError α :=
    match known.lookup s with
    | some x => .ok x
    | none => .error (.unknownName s (known.map (·.1)))

/-! ## Keys -/

/-- Reads a key if the record has it. -/
def key? (fields : List (String × Value)) (key : String) (read : Decoder α) :
    Except DecodeError (Option α) :=
  match Value.lookup? fields key with
  | some v => (read v).map some
  | none => .ok none

/-- Insists on a key that was looked for. -/
def require (key : String) : Option α → Except DecodeError α
  | some x => .ok x
  | none => .error (.missing key)

end Decode

end HunkScope
