import HunkScope.Construct
import HunkScope.Arena.Basic

/-!
# Hunks and scopes

The model of `LineRange` at the root of the package, and of `EnclosingContext` and `ForIterableRule`
of `ast::context`. A `Hunk` is a range of lines of a text, as a diff reports it; a `Scope` is a
named construct of the text with the lines it covers. Lines are counted from one and both ends
belong to the range.

Nothing orders the ends of a hunk. A hunk that runs backwards is inside a node, or clear of it,
when its ends pass the same two comparisons, those of `resolve` (`NodeInfo.clearOf`,
`NodeInfo.covers`).
-/

namespace HunkScope

/-- A range of lines, both ends included. -/
structure Hunk where
  first : UInt32
  last : UInt32
deriving DecidableEq, Repr

/-- A construct that encloses lines: what it is, how it is called, and the lines it covers. -/
structure Scope where
  construct : Construct
  name : String
  firstLine : UInt32
  lastLine : UInt32
deriving DecidableEq, Repr

/-- The number of lines a scope covers past its first; none when its lines run backwards. -/
def Scope.extent (s : Scope) : Nat := s.lastLine.toNat - s.firstLine.toNat

/-- How the variable and the iterable of a `for` loop are found. -/
inductive LoopRule where
  /-- The first identifier, and the first call that starts on the row where `in` ends. -/
  | rowOfIn
  /-- What fills the two fields of the loop, whatever the iterable is. -/
  | byField
deriving DecidableEq, Repr

/-- The rule taken when none is asked for. -/
def LoopRule.standard : LoopRule := .rowOfIn

/-- The lines of a hunk all lie before a node or all after it. -/
def NodeInfo.clearOf (n : NodeInfo) (h : Hunk) : Bool :=
  decide (h.last < n.firstLine) || decide (n.lastLine < h.first)

/-- A node covers both ends of a hunk. -/
def NodeInfo.covers (n : NodeInfo) (h : Hunk) : Bool :=
  decide (n.firstLine ≤ h.first) && decide (h.last ≤ n.lastLine)

theorem NodeInfo.clearOf_iff {n : NodeInfo} {h : Hunk} :
    n.clearOf h = true ↔ h.last < n.firstLine ∨ n.lastLine < h.first := by
  simp [clearOf]

theorem NodeInfo.covers_iff {n : NodeInfo} {h : Hunk} :
    n.covers h = true ↔ n.firstLine ≤ h.first ∧ h.last ≤ n.lastLine := by
  simp [covers]

end HunkScope
