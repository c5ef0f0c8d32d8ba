import HunkScope.Proofs.Arena.Preorder

/-!
# The first flagged node

A walk that ends on the first flagged node it meets finds the first flagged node of the listing.

* **`firstFlagged?_eq_find?`**: it does so from any grounded node.
* `firstFlagged?_eq_none_iff`: it finds nothing exactly where nothing is flagged.
* `reaches_of_firstFlagged?`: what it finds is reached from where it started.
-/

namespace HunkScope.Arena

/-- The node of an id is flagged. -/
def flagged (a : Arena) (id : Nat) : Bool := (a.node? id).any (·.isFlagged)

/-- A search that has come to an end on a node, or goes on without one. -/
def sought : Option Nat → Except (Option Nat) (Option Nat)
  | some id => .error (some id)
  | none => .ok none

variable {a : Arena} {id : Nat}

theorem flagged_of_node {n : Node} (hn : a.node? id = some n) : a.flagged id = n.isFlagged := by
  rw [flagged, hn, Option.any_some]

theorem tours_seekFlagged (ha : a.Linked) : ∀ ids : List Nat, (∀ i ∈ ids, a.Grounded i) →
    ids.foldlM (fun s i => a.tour seekFlagged i s) none =
      sought ((ids.flatMap a.subtree).find? a.flagged) := by
  refine ha.forestInduction rfl fun id rest hid ihbelow ihrest => ?_
  obtain ⟨n, hn⟩ := hid.exists_node
  have hflag := flagged_of_node hn
  rw [List.foldlM_cons, tour_eq hid ha hn, List.flatMap_cons, subtree_eq hid ha,
    List.find?_append, seekFlagged]
  by_cases hf : n.isFlagged = true
  · rw [List.find?_cons_of_pos (hflag.trans hf)]
    simp only [if_pos hf]
    rfl
  · rw [List.find?_cons_of_neg (by rwa [hflag])]
    simp only [if_neg hf]
    rw [ihbelow]
    cases ((a.childrenOf id).flatMap a.subtree).find? a.flagged with
    | none => exact ihrest
    | some j => rfl

/-- **A walk that ends on a flagged node finds the first of the listing.** -/
theorem firstFlagged?_eq_find? (ha : a.Linked) (hid : a.Grounded id) :
    a.firstFlagged? id = (a.subtree id).find? a.flagged := by
  rw [firstFlagged?, walkFrom_eq_tour ha seekFlagged hid, ← tours_singleton,
    tours_seekFlagged ha [id] (List.forall_mem_singleton.mpr hid), List.flatMap_singleton]
  cases (a.subtree id).find? a.flagged <;> rfl

/-- From the root it finds the first of the ids in the order of a walk. -/
theorem firstFlagged?_root_eq_find? (ha : a.Linked) :
    a.firstFlagged? rootId = a.preorder.find? a.flagged := by
  rw [preorder_eq_subtree ha, firstFlagged?_eq_find? ha ha.grounded_root]

/-- **It finds nothing exactly where nothing is flagged.** -/
theorem firstFlagged?_eq_none_iff (ha : a.Linked) (hid : a.Grounded id) :
    a.firstFlagged? id = none ↔ ∀ j, a.Reaches id j → a.flagged j = false := by
  rw [firstFlagged?_eq_find? ha hid, List.find?_eq_none]
  refine forall_congr' fun j => ?_
  rw [mem_subtree_iff ha hid, Bool.not_eq_true]

/-- What is found is flagged. -/
theorem flagged_of_firstFlagged? (ha : a.Linked) (hid : a.Grounded id) {j : Nat}
    (h : a.firstFlagged? id = some j) : a.flagged j = true := by
  rw [firstFlagged?_eq_find? ha hid] at h
  exact List.find?_some h

/-- What is found is reached from where the walk started. -/
theorem reaches_of_firstFlagged? (ha : a.Linked) (hid : a.Grounded id) {j : Nat}
    (h : a.firstFlagged? id = some j) : a.Reaches id j := by
  rw [firstFlagged?_eq_find? ha hid] at h
  exact (mem_subtree_iff ha hid).mp (List.mem_of_find?_eq_some h)

end HunkScope.Arena
