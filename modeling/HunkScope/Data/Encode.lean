import HunkScope.Config
import HunkScope.Data.Value
import HunkScope.Event

/-!
# Encoding

The value of each type that callers see, and of the events of an inspection. Records have their
keys in the order of declaration; a verdict without a site has no key for it.

Premise: this is the encoder that is derived for these types (`serde`), under the names they give
their fields and alternatives.
-/

namespace HunkScope

/-- A hunk by its ends. -/
def Hunk.encode (h : Hunk) : Value :=
  .record [("start", .word h.first), ("end", .word h.last)]

/-- A point by its row and column. -/
def Point.encode (p : Point) : Value :=
  .record [("row", .word p.row), ("column", .word p.column)]

/-- A fault site by its line and column. -/
def FaultSite.encode (s : FaultSite) : Value :=
  .record [("line", .word s.line), ("column", .word s.column)]

/-- A construct by the kind of node that marks it. -/
def Construct.encode (c : Construct) : Value := .text c.kind

/-- A scope by its construct, name and lines. -/
def Scope.encode (s : Scope) : Value :=
  .record [("type", s.construct.encode), ("name", .text s.name),
    ("startLine", .word s.firstLine), ("endLine", .word s.lastLine)]

/-- A scope, or null when there is none. -/
def Scope.encode? (s : Option Scope) : Value := .orNull (s.map Scope.encode)

/-- The name of a loop rule. -/
def LoopRule.name : LoopRule → String
  | rowOfIn => "sameRowAsIn"
  | byField => "structural"

/-- A loop rule by its name. -/
def LoopRule.encode (r : LoopRule) : Value := .text r.name

/-- Options by the loop rule. -/
def Options.encode (o : Options) : Value := .record [("forIterable", o.rule.encode)]

/-- A configuration by the language and the loop rule. -/
def Config.encode (c : Config) : Value :=
  .record [("language", .text c.language), ("forIterable", c.rule.encode)]

/-- A verdict by its outcome, its reason and, if there is one, its site. -/
def Verdict.encode (v : Verdict) : Value :=
  .record <| [("valid", .bool v.valid), ("error", .text v.reason)] ++
    match v.site with
    | some s => [("errorPosition", s.encode)]
    | none => []

/-- An event by its level, its message and what it is about. The node is left out. -/
def Event.encode : Event → Value
  | accepted _ s =>
    .record [("level", .text "DEBUG"), ("message", .text "enclosing context candidate accepted"),
      ("kind", s.construct.encode), ("name", .text s.name),
      ("start_line", .word s.firstLine), ("end_line", .word s.lastLine)]
  | pruned _ kind =>
    .record [("level", .text "TRACE"), ("message", .text "pruned non-overlapping subtree"),
      ("kind", .text kind)]
  | fault _ s =>
    .record [("level", .text "DEBUG"), ("message", .text "syntax error found"),
      ("line", .word s.line), ("column", .word s.column)]

end HunkScope
