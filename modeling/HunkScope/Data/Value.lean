/-!
# Values

The data a caller hands over or gets back, as `serde_json` has it: null, booleans, numbers, texts,
lists and records. Integers and floating-point numbers are told apart by how they were written. The
keys of a record are distinct; `Value.lookup?` reads one of them.
-/

namespace HunkScope

/-- A piece of structured data. -/
inductive Value where
  | null
  | bool (b : Bool)
  | int (i : Int)
  | float (x : Float)
  | text (s : String)
  | list (items : List Value)
  | record (fields : List (String × Value))

namespace Value

/-- A word as an integer. -/
def word (w : UInt32) : Value := .int w.toNat

/-- What a record holds at a key. -/
def lookup? (fields : List (String × Value)) (key : String) : Option Value := fields.lookup key

/-- A value that may be absent, as null. -/
def orNull : Option Value → Value
  | some v => v
  | none => .null

end Value

end HunkScope
