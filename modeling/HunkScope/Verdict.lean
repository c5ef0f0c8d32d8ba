import HunkScope.Arena.Walk

/-!
# Verdicts

The model of `ValidityResult`, `ErrorPosition` and `check_tree` of `ast::validity`. A `Verdict` says
whether a text is free of mistakes, and if not, why and where. A parsed text is
sound when no node the root reaches is flagged; otherwise the first flagged node in the order of a
walk is reported, by the line and the column it starts at.

* `Verdict.sound`, `Verdict.faulty` (`valid`, `invalid`): the two outcomes.
* `Arena.firstFault?`, `Arena.verdict` (`check_tree`): the verdict on a parsed text.
-/

namespace HunkScope

/-- Where a mistake was found: the line counted from one, the column from zero. -/
structure FaultSite where
  line : UInt32
  column : UInt32
deriving DecidableEq, Repr

/-- Whether a text is free of mistakes; if not, why and, where that is known, the place. -/
structure Verdict where
  valid : Bool
  reason : String
  site : Option FaultSite
deriving DecidableEq, Repr

namespace Verdict

/-- A text free of mistakes. -/
def sound : Verdict := ⟨true, "", none⟩

/-- A text with a mistake. -/
def faulty (reason : String) (site : Option FaultSite) : Verdict := ⟨false, reason, site⟩

/-- The reason given for a mistake in the text itself. -/
def textReason : String := "Syntax errors detected"

end Verdict

/-- Where a node starts. -/
def NodeInfo.site (n : NodeInfo) : FaultSite := ⟨n.start.line, n.start.column⟩

namespace Arena

/-- The first flagged node that a walk from the root meets, with its place. -/
def firstFault? (a : Arena) : Option (Nat × FaultSite) := do
  let id ← a.firstFlagged? rootId
  let n ← a.node? id
  return (id, n.site)

/-- The verdict on a parsed text. -/
def verdict (a : Arena) : Verdict :=
  match a.firstFault? with
  | some fault => .faulty Verdict.textReason (some fault.2)
  | none => .sound

end Arena

end HunkScope
