import HunkScope.Proofs.Arena.Matching
import HunkScope.Scope

/-!
# Arenas further down

A text that stands `k` lines further down has the same nodes with `k` added to their rows
(`Arena.shift`). Lines are words of 32 bits, so this keeps the order of lines only where there is
room for it (`Room`): no line may pass the last word.

* `WordRoom`: a word can be raised by `k` without a wrap.
* `node?_shift`: the nodes of a shifted arena.

Headlines:
* `Built.shift`: a shifted arena is built as the arena was.
* `matches_shift`: its nodes match those of the arena, id by id.
* `NodeInfo.clearOf_shift`, `NodeInfo.covers_shift`: where there is room, a shifted node lies to a
  shifted hunk as the node to the hunk.
-/

namespace HunkScope

variable {k : UInt32}

/-! ## Words -/

/-- A word can be raised by `k` without a wrap. -/
def WordRoom (k x : UInt32) : Prop := x.toNat + k.toNat < UInt32.size

instance (k x : UInt32) : Decidable (WordRoom k x) :=
  inferInstanceAs (Decidable (x.toNat + k.toNat < UInt32.size))

theorem WordRoom.toNat_add {x : UInt32} (hx : WordRoom k x) :
    (x + k).toNat = x.toNat + k.toNat := by
  rw [UInt32.toNat_add]
  exact Nat.mod_eq_of_lt hx

theorem WordRoom.add_lt_add_iff {x y : UInt32} (hx : WordRoom k x) (hy : WordRoom k y) :
    x + k < y + k ↔ x < y := by
  rw [UInt32.lt_iff_toNat_lt, UInt32.lt_iff_toNat_lt, hx.toNat_add, hy.toNat_add]
  omega

theorem WordRoom.add_le_add_iff {x y : UInt32} (hx : WordRoom k x) (hy : WordRoom k y) :
    x + k ≤ y + k ↔ x ≤ y := by
  rw [UInt32.le_iff_toNat_le, UInt32.le_iff_toNat_le, hx.toNat_add, hy.toNat_add]
  omega

/-! ## Nodes and hunks -/

/-- The point `k` rows further down. -/
def Point.shift (k : UInt32) (p : Point) : Point := { p with row := p.row + k }

/-- The line of a shifted point is as many lines further down, wrap or not. -/
theorem Point.line_shift (k : UInt32) (p : Point) : (p.shift k).line = p.line + k := by
  rw [line, line, shift, UInt32.add_assoc, UInt32.add_assoc, UInt32.add_comm k]

/-- The node `k` rows further down. -/
def NodeInfo.shift (k : UInt32) (n : NodeInfo) : NodeInfo :=
  { n with start := n.start.shift k, stop := n.stop.shift k }

/-- The node of an arena `k` rows further down, with its links. -/
def Node.shift (k : UInt32) (n : Node) : Node := { n with toNodeInfo := n.toNodeInfo.shift k }

/-- The hunk `k` lines further down. -/
def Hunk.shift (k : UInt32) (h : Hunk) : Hunk := ⟨h.first + k, h.last + k⟩

/-- Both lines of a node can be raised by `k`. -/
structure NodeInfo.Room (k : UInt32) (n : NodeInfo) : Prop where
  start : n.start.row.toNat + k.toNat + 1 < UInt32.size
  stop : n.stop.row.toNat + k.toNat + 1 < UInt32.size

/-- Both ends of a hunk can be raised by `k`. -/
structure Hunk.Room (k : UInt32) (h : Hunk) : Prop where
  first : WordRoom k h.first
  last : WordRoom k h.last

namespace NodeInfo

variable {n : NodeInfo} {h : Hunk}

theorem firstLine_shift (k : UInt32) (n : NodeInfo) : (n.shift k).firstLine = n.firstLine + k :=
  Point.line_shift k n.start

theorem lastLine_shift (k : UInt32) (n : NodeInfo) : (n.shift k).lastLine = n.lastLine + k :=
  Point.line_shift k n.stop

theorem Room.firstLine (hn : n.Room k) : WordRoom k n.firstLine := by
  have hstart := hn.start
  rw [WordRoom, NodeInfo.firstLine, Point.toNat_line (by omega)]
  omega

theorem Room.lastLine (hn : n.Room k) : WordRoom k n.lastLine := by
  have hstop := hn.stop
  rw [WordRoom, NodeInfo.lastLine, Point.toNat_line (by omega)]
  omega

/-- **A shifted node is clear of a shifted hunk** when the node is clear of the hunk. -/
theorem clearOf_shift (hn : n.Room k) (hh : h.Room k) :
    (n.shift k).clearOf (h.shift k) = n.clearOf h := by
  rw [Bool.eq_iff_iff, clearOf_iff, clearOf_iff, firstLine_shift, lastLine_shift]
  exact or_congr (hh.last.add_lt_add_iff hn.firstLine) (hn.lastLine.add_lt_add_iff hh.first)

/-- **A shifted node covers a shifted hunk** when the node covers the hunk. -/
theorem covers_shift (hn : n.Room k) (hh : h.Room k) :
    (n.shift k).covers (h.shift k) = n.covers h := by
  rw [Bool.eq_iff_iff, covers_iff, covers_iff, firstLine_shift, lastLine_shift]
  exact and_congr (hn.firstLine.add_le_add_iff hh.first) (hh.last.add_le_add_iff hn.lastLine)

end NodeInfo

/-! ## Arenas -/

namespace Arena

/-- The arena with all its nodes `k` rows further down. -/
def shift (k : UInt32) (a : Arena) : Arena := { a with nodes := a.nodes.map (Node.shift k) }

/-- The lines of every node can be raised by `k`. -/
def Room (k : UInt32) (a : Arena) : Prop :=
  ∀ id n, a.node? id = some n → NodeInfo.Room k n.toNodeInfo

variable {a : Arena}

theorem node?_shift (k : UInt32) (a : Arena) (id : Nat) :
    (a.shift k).node? id = (a.node? id).map (Node.shift k) := by
  simp only [node?, shift, Array.getElem?_map]

theorem size_shift (k : UInt32) (a : Arena) : (a.shift k).size = a.size := by
  simp only [size, shift, Array.size_map]

theorem infoOf?_shift (k : UInt32) (a : Arena) (id : Nat) :
    (a.shift k).infoOf? id = (a.infoOf? id).map (NodeInfo.shift k) := by
  rw [infoOf?, infoOf?, node?_shift, Option.map_map, Option.map_map]
  rfl

theorem parentOf?_shift (k : UInt32) (a : Arena) (id : Nat) :
    (a.shift k).parentOf? id = a.parentOf? id := by
  rw [parentOf?, parentOf?, node?_shift, Option.bind_map]
  rfl

theorem childrenOf_shift (k : UInt32) (a : Arena) (id : Nat) :
    (a.shift k).childrenOf id = a.childrenOf id := by
  simp only [childrenOf, node?_shift]
  cases a.node? id <;> rfl

theorem kindOf?_shift (k : UInt32) (a : Arena) (id : Nat) :
    (a.shift k).kindOf? id = a.kindOf? id := by
  rw [kindOf?, kindOf?, node?_shift, Option.map_map]
  rfl

theorem textOf_shift (k : UInt32) (a : Arena) (id : Nat) :
    (a.shift k).textOf id = a.textOf id := by
  simp only [textOf, node?_shift]
  cases a.node? id <;> rfl

theorem shift_single (k : UInt32) (source : String) (root : NodeInfo) :
    (single source root).shift k = single source (root.shift k) := by
  simp only [single, shift, List.map_toArray, List.map_cons, List.map_nil, Node.shift]

/-- Shifting and attaching go together. -/
theorem shift_attach (k : UInt32) (a : Arena) (parent : Nat) (info : NodeInfo) :
    (a.attach parent info).shift k = (a.shift k).attach parent (info.shift k) := by
  have hnodes : ((a.attach parent info).shift k).nodes =
      ((a.shift k).attach parent (info.shift k)).nodes := by
    refine Array.ext_getElem? fun id => ?_
    change ((a.attach parent info).shift k).node? id =
      ((a.shift k).attach parent (info.shift k)).node? id
    rw [node?_shift, node?_attach, node?_attach, size_shift, node?_shift]
    by_cases hid : id = a.size
    · simp only [if_pos hid, Option.map_some]
      split <;> rfl
    · simp only [if_neg hid, Option.map_map]
      refine congrArg (Option.map · (a.node? id)) (funext fun n => ?_)
      simp only [Function.comp_apply]
      split <;> rfl
  exact congrArg (Arena.mk a.source) hnodes

/-- **A shifted arena is built as the arena was.** -/
theorem Built.shift (ha : a.Built) (k : UInt32) : (a.shift k).Built := by
  induction ha with
  | single source root =>
    rw [shift_single]
    exact Built.single source (root.shift k)
  | @push a b parent info _ hb ih =>
    obtain ⟨hp, rfl⟩ := push_eq_ok_iff.mp hb
    rw [shift_attach]
    exact ih.attach (by rwa [size_shift]) _

/-- The nodes of a shifted arena match those of the arena, id by id. -/
theorem matches_shift (k : UInt32) (a : Arena) : Matches (fun id => id) a (a.shift k) where
  root := rfl
  children := fun id _ => by rw [childrenOf_shift, List.map_id']

end Arena

end HunkScope
