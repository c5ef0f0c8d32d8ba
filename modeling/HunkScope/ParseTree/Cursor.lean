import HunkScope.ParseTree

/-!
# Cursors

A `Cursor` stands on a node of a parse tree and moves to neighbours: the first child, the next
sibling, the parent. It never leaves the tree it was placed on, and a move that has nowhere to go
gives nothing. The tree around the focus is kept as crumbs, innermost first.

It stands for the cursor of the grammar runtime (`TreeCursor`). Premise: `goto_first_child`,
`goto_next_sibling` and `goto_parent` move exactly when there is such a node, and never above the
node the cursor was placed on; `node` is the node it stands on, and `field_name` the field which
that node fills.

Headlines: `parent?_firstChild?` and `parent?_nextSibling?`: climbing undoes a descent, and a step
to the side stays under the same parent.
-/

namespace HunkScope

/-- What a cursor passed on its way down from a node: what the parser reports of that node, the
subtrees to the left of the way, nearest first, and those to the right. -/
structure Crumb where
  report : NodeReport
  left : List ParseTree
  right : List ParseTree

/-- A place in a tree: the subtree there, and the crumbs up to the root. -/
structure Cursor where
  focus : ParseTree
  crumbs : List Crumb

namespace Cursor

/-- The cursor on the root of a tree. -/
def ofTree (t : ParseTree) : Cursor := ⟨t, []⟩

/-- The field that the focus fills. -/
def field? (c : Cursor) : Option String := c.focus.report.field

/-- The number of nodes above the focus. -/
def depth (c : Cursor) : Nat := c.crumbs.length

/-- Down to the first child. -/
def firstChild? (c : Cursor) : Option Cursor :=
  match c.focus with
  | .node _ [] => none
  | .node r (t :: ts) => some ⟨t, ⟨r, [], ts⟩ :: c.crumbs⟩

/-- Over to the next sibling. -/
def nextSibling? (c : Cursor) : Option Cursor :=
  match c.crumbs with
  | ⟨r, left, t :: right⟩ :: above => some ⟨t, ⟨r, c.focus :: left, right⟩ :: above⟩
  | _ => none

/-- Up to the parent. -/
def parent? (c : Cursor) : Option Cursor :=
  match c.crumbs with
  | ⟨r, left, right⟩ :: above => some ⟨.node r (left.reverse ++ c.focus :: right), above⟩
  | [] => none

/-- The number of nodes to the right of the way from the root to the focus. -/
def ahead (c : Cursor) : Nat :=
  c.crumbs.foldr (fun k n => ParseTree.forestCount k.right + n) 0

/-! ## Moves -/

/-- Climbing undoes a descent. -/
theorem parent?_firstChild? {c d : Cursor} (h : c.firstChild? = some d) : d.parent? = some c := by
  obtain ⟨⟨r, cs⟩, crumbs⟩ := c
  cases cs with
  | nil => simp [firstChild?] at h
  | cons t ts =>
    obtain rfl := Option.some.inj h
    rfl

/-- A step to the side stays under the same parent. -/
theorem parent?_nextSibling? {c d : Cursor} (h : c.nextSibling? = some d) :
    d.parent? = c.parent? := by
  obtain ⟨t, _ | ⟨⟨r, left, _ | ⟨u, right⟩⟩, above⟩⟩ := c
  · simp [nextSibling?] at h
  · simp [nextSibling?] at h
  · obtain rfl := Option.some.inj h
    simp [parent?]

theorem ahead_firstChild? {c d : Cursor} (h : c.firstChild? = some d) :
    d.ahead + d.focus.count = c.ahead + ParseTree.forestCount c.focus.children := by
  obtain ⟨⟨r, cs⟩, crumbs⟩ := c
  cases cs with
  | nil => simp [firstChild?] at h
  | cons t ts =>
    obtain rfl := Option.some.inj h
    simp only [ahead, List.foldr_cons, ParseTree.children, ParseTree.forestCount_cons]
    omega

theorem ahead_nextSibling? {c d : Cursor} (h : c.nextSibling? = some d) :
    d.ahead + d.focus.count = c.ahead := by
  obtain ⟨t, _ | ⟨⟨r, left, _ | ⟨u, right⟩⟩, above⟩⟩ := c
  · simp [nextSibling?] at h
  · simp [nextSibling?] at h
  · obtain rfl := Option.some.inj h
    simp only [ahead, List.foldr_cons, ParseTree.forestCount_cons]
    omega

/-- A cursor without a next sibling climbs to a node with as many nodes ahead. -/
theorem ahead_parent? {c d : Cursor} (h : c.parent? = some d) (hs : c.nextSibling? = none) :
    d.ahead = c.ahead ∧ d.depth + 1 = c.depth := by
  obtain ⟨t, _ | ⟨⟨r, left, _ | ⟨u, right⟩⟩, above⟩⟩ := c
  · simp [parent?] at h
  · obtain rfl := Option.some.inj h
    simp [ahead, depth, ParseTree.forestCount]
  · simp [nextSibling?] at hs

end Cursor

end HunkScope
