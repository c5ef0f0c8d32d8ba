import HunkScope.Data.Value
import HunkScope.Decimal.Layout
import HunkScope.Text.Quoted

/-!
# Decoding errors

A `DecodeError` says why a value does not decode: what was found where something else was
expected, a number or a list of the wrong size, a name that is not known, a key that is missing.
`DecodeError.message` is the wording of each.

Premise: these are the errors of derived decoders and their texts (`serde` and `serde_json`).
-/

namespace HunkScope

/-- What an error says of the value it was found on: a scalar in full, others by their kind. -/
inductive Found where
  | null
  | bool (b : Bool)
  | int (i : Int)
  | float (x : Float)
  | text (s : String)
  | list
  | record

/-- What an error says of a value. -/
def Value.found : Value → Found
  | .null => .null
  | .bool b => .bool b
  | .int i => .int i
  | .float x => .float x
  | .text s => .text s
  | .list _ => .list
  | .record _ => .record

namespace Found

/-- Floating-point numbers are written out in full from `10 ^ (-5)` to `10 ^ 15`; others have an
exponent, which is signed. -/
def floatLayout : Decimal.Layout := ⟨-5, 15, "e", "+"⟩

/-- How a found value is worded. -/
def message : Found → String
  | null => "null"
  | bool b => "boolean `" ++ (if b then "true" else "false") ++ "`"
  | int i => "integer `" ++ toString i ++ "`"
  | float x => "floating point `" ++ floatLayout.ofFloat x ++ "`"
  | text s => "string " ++ Text.quoted s
  | list => "sequence"
  | record => "map"

end Found

/-- The name of a type of records and its keys in the order of declaration. -/
structure Shape where
  name : String
  keys : List String
deriving DecidableEq, Repr

/-- What was expected of a value. -/
inductive Expected where
  | word
  | text
  | bool
  | unit
  /-- One of several names, alone or as the only key of a record. -/
  | variant
  | shape (s : Shape)
deriving DecidableEq, Repr

/-- How an expectation is worded. -/
def Expected.message : Expected → String
  | word => "u32"
  | text => "a string"
  | bool => "a boolean"
  | unit => "unit"
  | variant => "string or map"
  | shape s => "struct " ++ s.name

/-- Why a value does not decode. -/
inductive DecodeError where
  | wrongType (found : Found) (expected : Expected)
  /-- An integer that is no 32-bit word. -/
  | outOfRange (i : Int)
  | unknownName (name : String) (known : List String)
  /-- A record that should have one key has none, or several. -/
  | notSingle
  | missing (key : String)
  /-- A list ends where an element of a record is due. -/
  | tooShort (length : Nat) (shape : Shape)
  | tooLong (length : Nat)

namespace DecodeError

/-- Names between backquotes, as alternatives. -/
def alternatives (names : List String) : String :=
  match names.map fun n => "`" ++ n ++ "`" with
  | [one] => one
  | [one, other] => one ++ " or " ++ other
  | several => "one of " ++ String.intercalate ", " several

/-- How a decoding error is worded. -/
def message : DecodeError → String
  | wrongType f e => "invalid type: " ++ f.message ++ ", expected " ++ e.message
  | outOfRange i => "invalid value: " ++ (Found.int i).message ++ ", expected " ++
      Expected.word.message
  | unknownName name known => "unknown variant `" ++ name ++ "`, expected " ++ alternatives known
  | notSingle => "invalid value: map, expected map with a single key"
  | missing key => "missing field `" ++ key ++ "`"
  | tooShort length shape => "invalid length " ++ toString length ++ ", expected " ++
      (Expected.shape shape).message ++ " with " ++ toString shape.keys.length ++ " elements"
  | tooLong length => "invalid length " ++ toString length ++ ", expected fewer elements in array"

end DecodeError

end HunkScope
