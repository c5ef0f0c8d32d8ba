import HunkScope.Data.Decode
import HunkScope.Inspector

/-!
# Endpoints

The model of the bindings at the root of the package: `find_enclosing_context`, `dry_run` and
`PythonParserBinding`. What a caller outside the library can ask for, with values for answers. A
free endpoint sets up an inspector for every question, by the label of a language if there is one
(`analyzer_for`); a `Handle` keeps an inspector that was set up with options. A set-up that fails is
refused with a status and a reason.

Premise: an error made of a reason alone has the status `GenericFailure` (`Error::from_reason` of
the host interface).

Out of scope: how the host turns values of its own into those decoded here, and a value that fails
to encode, which none of the types here does.
-/

namespace HunkScope

/-- What a caller is told instead of an answer. -/
structure Refusal where
  status : String
  reason : String
deriving DecidableEq, Repr

/-- The refusal for a reason, which has no status of its own. -/
def Refusal.ofReason (reason : String) : Refusal := ⟨"GenericFailure", reason⟩

/-- The answer to a question for one scope. -/
def Scope.envelope (s : Option Scope) : Value := .record [("enclosingContext", Scope.encode? s)]

namespace Endpoint

/-- What a caller hands in, decoded; `what` says what it was handed in for. -/
def input {α : Type} (read : Decoder α) (what : String) (v : Value) : Except Refusal α :=
  (read v).mapError fun e => .ofReason ("Invalid " ++ what ++ ": " ++ e.message)

/-- The inspector of a configuration, or the refusal of its language. -/
def inspectorOf (c : Config) : Except Refusal Inspector :=
  (Inspector.ofConfig c).mapError fun e => .ofReason e.message

/-- The inspector for a label; the standard one when there is none. -/
def inspectorFor : Option String → Except Refusal Inspector
  | none => .ok .standard
  | some label => inspectorOf { Config.standard with language := label }

/-- The scope of a hunk. -/
def find (f : SourceFile) (label : Option String) (h : Hunk) : Except Refusal Value :=
  (inspectorFor label).map fun i => Scope.envelope (i.find f h)

/-- The verdict on a file. -/
def verdict (f : SourceFile) (label : Option String) : Except Refusal Value :=
  (inspectorFor label).map fun i => (i.verdict f).encode

end Endpoint

/-- An inspector that a caller holds on to. -/
structure Handle where
  inspector : Inspector
deriving DecidableEq, Repr

namespace Handle

/-- Options from a value; standard when there is none. -/
def optionsOf : Option Value → Except Refusal Options
  | none => .ok .standard
  | some v => Endpoint.input Options.decode "parser options" v

/-- A handle set up with options, for the standard language. -/
def ofOptions (options : Option Value) : Except Refusal Handle := do
  let chosen ← optionsOf options
  let inspector ← Endpoint.inspectorOf { Config.standard with rule := chosen.rule }
  return ⟨inspector⟩

/-- The scope of a hunk. -/
def find (p : Handle) (f : SourceFile) (h : Hunk) : Value :=
  Scope.envelope (p.inspector.find f h)

/-- The scope of each hunk. -/
def findAll (p : Handle) (f : SourceFile) (hs : List Hunk) : Value :=
  .list ((p.inspector.findAll f hs).map Scope.encode?)

/-- The verdict on a file. -/
def verdict (p : Handle) (f : SourceFile) : Value := (p.inspector.verdict f).encode

end Handle

end HunkScope
