/-!
# Points of a source text

The model of `Position` of `ast::tree`. A `Point` is a row and a column, both counted from zero, the
column in bytes. People count lines from one: `Point.line` is the line a point lies on (`start_line`
and `end_line` of a node). Rows, columns and lines are 32-bit words.

Premise: words are added as a release build adds them, without a check for overflow.
-/

namespace HunkScope

/-- A place in a text: row and column, both counted from zero; columns count bytes. -/
structure Point where
  row : UInt32
  column : UInt32
deriving DecidableEq, Repr, Inhabited

/-- The line a point lies on, counted from one. The addition wraps round: past the last row comes
line 0, as in a release build. A build that checks for overflow stops there instead. -/
def Point.line (p : Point) : UInt32 := p.row + 1

/-- Below the last row, the line is the row plus one. -/
theorem Point.toNat_line {p : Point} (h : p.row.toNat + 1 < UInt32.size) :
    p.line.toNat = p.row.toNat + 1 := by
  unfold Point.line
  rw [UInt32.toNat_add]
  exact Nat.mod_eq_of_lt h

end HunkScope
