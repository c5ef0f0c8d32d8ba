import HunkScope.Scope
import HunkScope.Verdict

/-!
# Events

The model of the events that `ast::context` and `ast::validity` log on the way to an answer. What an
inspection notes down on its way: the contenders it took, the subtrees it passed over, and
the mistake it ended on. Every event names the node it is about.

Out of scope: what is logged of a text that could not be parsed.
-/

namespace HunkScope

/-- A note of an inspection. -/
inductive Event where
  /-- A contender took the place of the best scope. -/
  | accepted (node : Nat) (scope : Scope)
  /-- A node is clear of the hunk, so what lies below it was passed over. -/
  | pruned (node : Nat) (kind : String)
  /-- A node is flagged. -/
  | fault (node : Nat) (site : FaultSite)
deriving DecidableEq, Repr

end HunkScope
