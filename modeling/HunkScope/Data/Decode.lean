import HunkScope.Config
import HunkScope.Data.Encode
import HunkScope.Data.RecordType

/-!
# Decoding

Each type that callers see decodes from a value, or fails with the first error in a fixed order. The
types are those for which a decoder is derived: `LineRange`, `Position`, `ErrorPosition`,
`ConstructKind`, `EnclosingContext`, `ValidityResult`, `ForIterableRule`, `ResolverOptions` and
`AnalyzerConfig`.

All but the last are record types or names. A configuration decodes from a record only: it reads the
language, and then its options from the same record, where it takes an empty record for the null of
a loop rule.

Premise: this is the decoder that is derived for a structure with another one flattened into it
(`serde`).
-/

namespace HunkScope

open Decode

/-! ## Hunks, points and fault sites -/

namespace Hunk

/-- A hunk by its ends. -/
def recordType : RecordType (Option UInt32 × Option UInt32) Hunk :=
  .ofWords "LineRange" "start" "end" (by decide) Hunk.mk

/-- A hunk from a value. -/
def decode : Decoder Hunk := recordType.decode

end Hunk

namespace Point

/-- A point by its row and column. -/
def recordType : RecordType (Option UInt32 × Option UInt32) Point :=
  .ofWords "Position" "row" "column" (by decide) Point.mk

/-- A point from a value. -/
def decode : Decoder Point := recordType.decode

end Point

namespace FaultSite

/-- A fault site by its line and column. -/
def recordType : RecordType (Option UInt32 × Option UInt32) FaultSite :=
  .ofWords "ErrorPosition" "line" "column" (by decide) FaultSite.mk

/-- A fault site from a value. -/
def decode : Decoder FaultSite := recordType.decode

end FaultSite

/-! ## Constructs and scopes -/

/-- A construct from the kind of node that marks it. -/
def Construct.decode : Decoder Construct := named (Construct.all.map fun c => (c.kind, c)) unit

namespace Scope

/-- The parts of a scope that were read. -/
structure Draft where
  construct : Option Construct
  name : Option String
  firstLine : Option UInt32
  lastLine : Option UInt32

/-- A scope by its construct, name and lines. -/
def recordType : RecordType Draft Scope where
  name := "EnclosingContext"
  keys := [
    ⟨"type", Construct, Construct.decode, fun x d => { d with construct := x }⟩,
    ⟨"name", String, text, fun x d => { d with name := x }⟩,
    ⟨"startLine", UInt32, word, fun x d => { d with firstLine := x }⟩,
    ⟨"endLine", UInt32, word, fun x d => { d with lastLine := x }⟩]
  blank := ⟨none, none, none, none⟩
  finish d := do
    return ⟨← require "type" d.construct, ← require "name" d.name,
      ← require "startLine" d.firstLine, ← require "endLine" d.lastLine⟩
  hasDefaults := false
  distinct := by decide
  apart := by simp [Key.Apart]

/-- A scope from a value. -/
def decode : Decoder Scope := recordType.decode

end Scope

/-! ## Verdicts -/

namespace Verdict

/-- The parts of a verdict that were read; the site may have been null. -/
structure Draft where
  valid : Option Bool
  reason : Option String
  site : Option (Option FaultSite)

/-- A verdict by its outcome, reason and site. The site may be missing from a record. -/
def recordType : RecordType Draft Verdict where
  name := "ValidityResult"
  keys := [
    ⟨"valid", Bool, bool, fun x d => { d with valid := x }⟩,
    ⟨"error", String, text, fun x d => { d with reason := x }⟩,
    ⟨"errorPosition", Option FaultSite, nullable FaultSite.decode,
      fun x d => { d with site := x }⟩]
  blank := ⟨none, none, none⟩
  finish d := do
    return ⟨← require "valid" d.valid, ← require "error" d.reason, d.site.join⟩
  hasDefaults := false
  distinct := by decide
  apart := by simp [Key.Apart]

/-- A verdict from a value. -/
def decode : Decoder Verdict := recordType.decode

end Verdict

/-! ## Options and configurations -/

namespace LoopRule

/-- The rules by name. -/
def byName : List (String × LoopRule) := [rowOfIn, byField].map fun r => (r.name, r)

/-- A loop rule from its name. -/
def decode : Decoder LoopRule := named byName unit

/-- A loop rule from its name; the record that holds only the name may hold an empty record. -/
def decodeLoosely : Decoder LoopRule := named byName unitOrEmpty

end LoopRule

namespace Options

/-- Options by the loop rule, which is read one way or another. What is missing is standard. -/
def recordType (rule : Decoder LoopRule) : RecordType Options Options where
  name := "ResolverOptions"
  keys := [⟨"forIterable", LoopRule, rule, fun x o => ⟨x.getD o.rule⟩⟩]
  blank := .standard
  finish := .ok
  hasDefaults := true
  distinct := by simp
  apart := by simp

/-- Options from a value. -/
def decode : Decoder Options := (recordType LoopRule.decode).decode

end Options

namespace Config

/-- The keys of a configuration, those of its options among them. -/
def shape : Shape :=
  ⟨"AnalyzerConfig", "language" :: (Options.recordType LoopRule.decodeLoosely).shape.keys⟩

/-- A configuration from a record: first the language and then the options are read, and what is
missing is standard. -/
def ofFields (fields : List (String × Value)) : Except DecodeError Config := do
  let language ← key? fields "language" text
  let options ← (Options.recordType LoopRule.decodeLoosely).ofFields fields
  return ⟨language.getD Config.standard.language, options.rule⟩

/-- A configuration from a value. -/
def decode : Decoder Config
  | .record fields => ofFields fields
  | v => mismatch v (.shape shape)

end Config

end HunkScope
