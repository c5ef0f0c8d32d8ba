import HunkScope.Proofs.Arena.Copy
import HunkScope.Proofs.Arena.Flagged
import HunkScope.Proofs.Arena.Growth
import HunkScope.Verdict

/-!
# The first fault

A verdict reports one mistake even where there are several. The walk that looks for it is another
one than that of a search: it keeps a stack of its own and ends on the first flagged node. It still
takes the nodes in pre-order, whatever the order they were pushed in, so the node it ends on is the
first flagged one of that order. Nodes that the root does not reach play no part. In the arena of a
parse tree ids are in pre-order, and the node is the flagged one with the smallest id.

Headlines:
* `verdict_cases`: a verdict is sound or reports the node that the walk ended on.
* `verdict_eq_sound_iff`: it is sound exactly when no node that the root reaches is flagged.
* `firstFlagged?_ofTree`: in the arena of a tree the node is the first flagged one by its id.
* **`firstFlagged?_exact`**: what the walk finds from any node, and what the verdict makes of it.
-/

namespace HunkScope

namespace Arena

variable {a : Arena}

/-! ## What a verdict reports -/

/-- **A verdict is sound or reports the node that the walk ended on**, by the place it starts at. -/
theorem verdict_cases (ha : a.Linked) :
    (a.firstFlagged? rootId = none ∧ a.verdict = .sound) ∨
      ∃ id n, a.firstFlagged? rootId = some id ∧ a.node? id = some n ∧
        a.verdict = .faulty Verdict.textReason (some n.site) := by
  cases hfirst : a.firstFlagged? rootId with
  | none =>
    refine Or.inl ⟨rfl, ?_⟩
    simp only [verdict, firstFault?, hfirst, Option.bind_eq_bind, Option.bind_none]
  | some id =>
    have hreach := reaches_of_firstFlagged? ha ha.grounded_root hfirst
    obtain ⟨n, hn⟩ := (ha.grounded_of_reaches hreach).exists_node
    refine Or.inr ⟨id, n, rfl, hn, ?_⟩
    simp only [verdict, firstFault?, hfirst, hn, Option.bind_eq_bind, Option.bind_some,
      Option.pure_def]

/-- **A verdict is sound exactly when no node that the root reaches is flagged.** -/
theorem verdict_eq_sound_iff (ha : a.Linked) :
    a.verdict = .sound ↔ ∀ j, a.Reaches rootId j → a.flagged j = false := by
  rw [← firstFlagged?_eq_none_iff ha ha.grounded_root]
  rcases verdict_cases ha with ⟨hnone, hsound⟩ | ⟨id, n, hsome, -, hfaulty⟩
  · exact iff_of_true hsound hnone
  · rw [hfaulty, hsome]
    exact iff_of_false (fun h => by cases h) (fun h => by cases h)

/-- Where a flagged node is reached, the verdict reports the one that the walk ended on. -/
theorem verdict_of_flagged (ha : a.Linked) {j : Nat} (hj : a.Reaches rootId j)
    (hflag : a.flagged j = true) : ∃ id n, a.firstFlagged? rootId = some id ∧
      a.node? id = some n ∧ a.verdict = .faulty Verdict.textReason (some n.site) := by
  refine (verdict_cases ha).resolve_left fun ⟨hnone, _⟩ => ?_
  rw [(firstFlagged?_eq_none_iff ha ha.grounded_root).mp hnone j hj] at hflag
  cases hflag

/-! ## In the arena of a tree -/

theorem lt_size_of_flagged {id : Nat} (h : a.flagged id = true) : id < a.size := by
  obtain ⟨n, hn, -⟩ := (Option.any_eq_true _ _).mp h
  exact (node?_eq_some_iff.mp hn).1

/-- **In the arena of a tree the walk ends on the flagged node with the smallest id.** -/
theorem firstFlagged?_ofTree (source : String) (t : ParseTree) {id : Nat} :
    (ofTree source t).firstFlagged? rootId = some id ↔ (ofTree source t).flagged id = true ∧
      ∀ j < id, (ofTree source t).flagged j = false := by
  rw [firstFlagged?_root_eq_find? (built_ofTree source t).linked, preorder_ofTree,
    List.find?_range_eq_some]
  simp only [Bool.not_eq_true', List.mem_range]
  constructor
  · rintro ⟨hflag, -, hbefore⟩
    exact ⟨hflag, hbefore⟩
  · rintro ⟨hflag, hbefore⟩
    have hlt := lt_size_of_flagged hflag
    rw [size_ofTree] at hlt
    exact ⟨hflag, hlt, hbefore⟩

/-- **The check for mistakes is exact.** From a node that is not its own parent the walk is over
after as many rounds as the arena has nodes; it has found the first flagged node of the ids from
that node on, in pre-order, and nothing when none of them is flagged. From the root these are the
ids in the order of a walk that enters every node. The verdict is sound when no node that the root
reaches is flagged, and otherwise reports the line and the column at which the node that was found
starts. In the arena of a tree that is the flagged node with the smallest id. -/
theorem firstFlagged?_exact (ha : a.Built) :
    (∀ id, a.Grounded id →
      (∀ rounds, a.size ≤ rounds →
        Walk.run a seekFlagged rounds ⟨[id], none⟩ = ⟨[], a.firstFlagged? id⟩) ∧
      a.subtree id = id :: (a.childrenOf id).flatMap a.subtree ∧
      a.firstFlagged? id = (a.subtree id).find? a.flagged ∧
      (a.firstFlagged? id = none ↔ ∀ j, a.Reaches id j → a.flagged j = false)) ∧
    a.firstFlagged? rootId = a.preorder.find? a.flagged ∧
    (a.verdict = ⟨true, "", none⟩ ↔ ∀ j, a.Reaches rootId j → a.flagged j = false) ∧
    (∀ j, a.Reaches rootId j → a.flagged j = true →
      ∃ id n site, a.firstFlagged? rootId = some id ∧ a.node? id = some n ∧
        a.verdict = ⟨false, "Syntax errors detected", some site⟩ ∧
        (n.start.row.toNat + 1 < UInt32.size → site.line.toNat = n.start.row.toNat + 1) ∧
        site.column = n.start.column) ∧
    ∀ source t id, (ofTree source t).firstFlagged? rootId = some id ↔
      (ofTree source t).flagged id = true ∧ ∀ j < id, (ofTree source t).flagged j = false := by
  have hl := ha.linked
  refine ⟨fun id hid => ⟨fun rounds h => run_eq_walkFrom hl _ hid _ h, subtree_eq hid hl,
    firstFlagged?_eq_find? hl hid, firstFlagged?_eq_none_iff hl hid⟩,
    firstFlagged?_root_eq_find? hl, verdict_eq_sound_iff hl, fun j hj hflag => ?_,
    fun source t id => firstFlagged?_ofTree source t⟩
  obtain ⟨id, n, hfirst, hn, hverdict⟩ := verdict_of_flagged hl hj hflag
  exact ⟨id, n, n.site, hfirst, hn, hverdict, Point.toNat_line, rfl⟩

end Arena

/-! ## A sample -/

namespace Sample

/-- A node of a kind between two points. -/
def between (kind : String) (start stop : Point) : NodeInfo :=
  { bare kind with start := start, stop := stop }

/-- A mistake between two points. -/
def mistake (start stop : Point) : NodeInfo :=
  { between "ERROR" start stop with isError := true }

/-- A block that lacks its last token and, on the line where it ends, a mistake that holds another.
The second node is a mistake below itself. -/
def mistakes : Arena :=
  grown "" (between "module" ⟨0, 0⟩ ⟨9, 0⟩)
    [(0, between "block" ⟨1, 4⟩ ⟨4, 7⟩),
      (2, mistake ⟨0, 0⟩ ⟨0, 0⟩),
      (0, mistake ⟨4, 7⟩ ⟨8, 0⟩),
      (1, { between "end" ⟨4, 7⟩ ⟨4, 7⟩ with isMissing := true }),
      (3, mistake ⟨6, 2⟩ ⟨7, 1⟩)]

end Sample

namespace Arena

/-- The token that the block lacks is reported, though the mistake after the block and the one below
itself were pushed before it. -/
theorem firstFlagged?_exact_sample :
    (Sample.mistakes.subtree 3).find? Sample.mistakes.flagged = some 3 ∧
      Sample.mistakes.preorder.find? Sample.mistakes.flagged = some 4 ∧
      ∃ site, Sample.mistakes.verdict = ⟨false, "Syntax errors detected", some site⟩ ∧
        site.line.toNat = 5 ∧ site.column = 7 := by
  have hbuilt : Sample.mistakes.Built := Sample.built_grown _ _ _
  obtain ⟨hbelow, hroot, -, hfaulty, -⟩ := firstFlagged?_exact hbuilt
  have hfour : Sample.mistakes.firstFlagged? rootId = some 4 := by decide
  obtain ⟨-, -, hfind, -⟩ := hbelow 3 ⟨by decide, by decide⟩
  refine ⟨hfind.symm.trans (by decide), hroot.symm.trans hfour, ?_⟩
  obtain ⟨id, n, site, hid, hn, hverdict, hline, hcolumn⟩ := hfaulty 3
    (Relation.ReflTransGen.single (show 3 ∈ Sample.mistakes.childrenOf 0 by decide)) (by decide)
  obtain rfl := Option.some.inj (hid.symm.trans hfour)
  have hstart : (Sample.mistakes.node? 4).map (·.start) = some ⟨4, 7⟩ := by decide
  rw [hn, Option.map_some, Option.some.injEq] at hstart
  rw [hstart] at hline hcolumn
  exact ⟨site, hverdict, hline (by decide), hcolumn⟩

end Arena

end HunkScope
