import HunkScope.Data.Decode

/-!
# Schemas

The nine types that are encoded and decoded, by name, and the canonical form of a value of each: the
encoding of what the value decodes to.
-/

namespace HunkScope

/-- A type that can be asked for by name. -/
inductive Schema where
  | hunk
  | point
  | faultSite
  | construct
  | scope
  | loopRule
  | options
  | config
  | verdict
deriving DecidableEq, Repr

namespace Schema

/-- Every schema. -/
def all : List Schema :=
  [hunk, point, faultSite, construct, scope, loopRule, options, config, verdict]

/-- The name and the declared keys of a schema. What is a name itself has no keys. -/
def shape : Schema → Shape
  | hunk => Hunk.recordType.shape
  | point => Point.recordType.shape
  | faultSite => FaultSite.recordType.shape
  | construct => ⟨"ConstructKind", []⟩
  | scope => Scope.recordType.shape
  | loopRule => ⟨"ForIterableRule", []⟩
  | options => (Options.recordType LoopRule.decode).shape
  | config => Config.shape
  | verdict => Verdict.recordType.shape

/-- The name of a schema. -/
def name (t : Schema) : String := t.shape.name

/-- The schema of a name. -/
def ofName? (s : String) : Option Schema := all.find? fun t => t.name == s

/-- The encoding of what a value decodes to. -/
def canonical (v : Value) : Schema → Except DecodeError Value
  | hunk => (Hunk.decode v).map Hunk.encode
  | point => (Point.decode v).map Point.encode
  | faultSite => (FaultSite.decode v).map FaultSite.encode
  | construct => (Construct.decode v).map Construct.encode
  | scope => (Scope.decode v).map Scope.encode
  | loopRule => (LoopRule.decode v).map LoopRule.encode
  | options => (Options.decode v).map Options.encode
  | config => (Config.decode v).map Config.encode
  | verdict => (Verdict.decode v).map Verdict.encode

end Schema

end HunkScope
