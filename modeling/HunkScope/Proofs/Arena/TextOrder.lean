import HunkScope.Proofs.Arena.Preorder
import Mathlib.Data.List.Chain

/-!
# Arenas in the order of the text

Points of a text are compared by row, then by column. An arena is in the order of its text
(`TextOrdered`) when no node ends before it starts, every child lies within its parent, and of
the children of a node each ends before the next one starts, or where it starts. Nodes of no width
are welcome, and so are nodes that start at the same point.

Two nodes then start in the order in which a walk comes to them. Either one is above the other and
starts no later, or they lie below two children of one node, and the whole of the first child lies
before the second.

Headlines:
* `Point.le_trans`: points are ordered.
* `TextOrdered.within`: what lies below a node lies within it.
* `TextOrdered.pairwise_childrenOf`: any two children of a node are apart, not only neighbours.
* **`TextOrdered.pairwise_subtree`**: in pre-order no node starts before an earlier one.
-/

namespace HunkScope

/-! ## Points in order -/

/-- Points are compared by row, then by column. -/
instance : LE Point := ⟨fun p q => p.row < q.row ∨ (p.row = q.row ∧ p.column ≤ q.column)⟩

theorem Point.le_iff {p q : Point} :
    p ≤ q ↔ p.row < q.row ∨ (p.row = q.row ∧ p.column ≤ q.column) := Iff.rfl

instance (p q : Point) : Decidable (p ≤ q) := decidable_of_iff _ Point.le_iff.symm

theorem Point.le_refl (p : Point) : p ≤ p := Or.inr ⟨rfl, UInt32.le_refl _⟩

theorem Point.le_trans {p q r : Point} (hpq : p ≤ q) (hqr : q ≤ r) : p ≤ r := by
  simp only [Point.le_iff, UInt32.lt_iff_toNat_lt, UInt32.le_iff_toNat_le,
    ← UInt32.toNat_inj] at *
  omega

instance : Trans (LE.le : Point → Point → Prop) LE.le LE.le := ⟨Point.le_trans⟩

namespace Arena

/-- The node of one id ends before that of another starts, or where it starts. -/
def Precedes (a : Arena) (i j : Nat) : Prop := ∀ m ∈ a.node? i, ∀ n ∈ a.node? j, m.stop ≤ n.start

instance (a : Arena) (i j : Nat) : Decidable (a.Precedes i j) :=
  inferInstanceAs (Decidable (∀ m ∈ a.node? i, ∀ n ∈ a.node? j, m.stop ≤ n.start))

/-- The node of one id starts no later than that of another. -/
def StartsBy (a : Arena) (i j : Nat) : Prop := ∀ m ∈ a.node? i, ∀ n ∈ a.node? j, m.start ≤ n.start

/-- The nodes that the root reaches stand in the order of the text. -/
structure TextOrdered (a : Arena) : Prop where
  /-- No node ends before it starts. -/
  forward : ∀ id, a.Reaches rootId id → ∀ n ∈ a.node? id, n.start ≤ n.stop
  /-- Every child lies within its parent. -/
  child : ∀ p c, a.Reaches rootId p → c ∈ a.childrenOf p → ∀ m ∈ a.node? p, ∀ n ∈ a.node? c,
    m.start ≤ n.start ∧ n.stop ≤ m.stop
  /-- Each child of a node precedes the next one. -/
  next : ∀ p, a.Reaches rootId p → (a.childrenOf p).IsChain a.Precedes

variable {a : Arena}

namespace TextOrdered

/-- **What lies below a node lies within it.** -/
theorem within (ht : a.TextOrdered) (ha : a.Linked) {i j : Nat} {m n : Node}
    (hi : a.Reaches rootId i) (hij : a.Reaches i j) (hm : a.node? i = some m)
    (hn : a.node? j = some n) : m.start ≤ n.start ∧ n.stop ≤ m.stop := by
  refine ha.rel_of_reaches (R := fun m n => m.start ≤ n.start ∧ n.stop ≤ m.stop)
    (fun n => ⟨Point.le_refl _, Point.le_refl _⟩) (fun l m n hlm hmn => ?_) ht.child hi hij hm hn
  exact ⟨Point.le_trans hlm.1 hmn.1, Point.le_trans hmn.2 hlm.2⟩

/-- **Any two children of a node are apart**: what precedes a node precedes whatever that node
precedes, since the node between them does not end before it starts. -/
theorem pairwise_childrenOf (ht : a.TextOrdered) (ha : a.Linked) {p : Nat}
    (hp : a.Reaches rootId p) : (a.childrenOf p).Pairwise a.Precedes := by
  -- The node on the right is there and runs forwards; with this said, the relation is transitive.
  let Apart (i j : Nat) : Prop :=
    a.Precedes i j ∧ ∃ n, a.node? j = some n ∧ n.start ≤ n.stop
  have : Trans Apart Apart Apart := ⟨fun {i j k} hij hjk => by
    obtain ⟨n, hn, hforward⟩ := hij.2
    refine ⟨fun m hm l hl => ?_, hjk.2⟩
    exact Point.le_trans (hij.1 m hm n hn) (Point.le_trans hforward (hjk.1 n hn l hl))⟩
  have hchain : (a.childrenOf p).IsChain Apart := by
    refine (List.IsChain.iff_mem.mp (ht.next p hp)).imp fun i j hij => ⟨hij.2.2, ?_⟩
    have hj := hp.tail hij.2.1
    obtain ⟨n, hn⟩ := (ha.grounded_of_reaches hj).exists_node
    exact ⟨n, hn, ht.forward j hj n hn⟩
  exact hchain.pairwise.imp fun hij => hij.1

/-- What lies below a node starts no later than what lies below a node that it precedes. -/
theorem startsBy_of_precedes (ht : a.TextOrdered) (ha : a.Linked) {c d i j : Nat}
    (hc : a.Reaches rootId c) (hd : a.Reaches rootId d) (hcd : a.Precedes c d)
    (hci : a.Reaches c i) (hdj : a.Reaches d j) : a.StartsBy i j := by
  intro m hm n hn
  obtain ⟨k, hk⟩ := (ha.grounded_of_reaches hc).exists_node
  obtain ⟨l, hl⟩ := (ha.grounded_of_reaches hd).exists_node
  calc m.start ≤ m.stop := ht.forward i (hc.trans hci) m hm
    _ ≤ k.stop := (ht.within ha hc hci hk hm).2
    _ ≤ l.start := hcd k hk l hl
    _ ≤ n.start := (ht.within ha hd hdj hl hn).1

/-- **In pre-order no node starts before an earlier one.** -/
theorem pairwise_subtree (ht : a.TextOrdered) (ha : a.Linked) {id : Nat}
    (hid : a.Reaches rootId id) : (a.subtree id).Pairwise a.StartsBy := by
  refine ha.groundedInduction (P := fun id => a.Reaches rootId id →
    (a.subtree id).Pairwise a.StartsBy) (fun id hg ih hid => ?_) id
    (ha.grounded_of_reaches hid) hid
  have below : ∀ {c j}, c ∈ a.childrenOf id → j ∈ a.subtree c → a.Reaches c j :=
    fun hc hj => (mem_subtree_iff ha (hg.child ha hc).2).mp hj
  rw [subtree_eq hg ha]
  refine List.pairwise_cons.mpr ⟨fun j hj m hm n hn => ?_, List.pairwise_flatMap.mpr
    ⟨fun c hc => ih c hc (hid.tail hc), ?_⟩⟩
  · obtain ⟨c, hc, hj⟩ := List.mem_flatMap.mp hj
    exact (ht.within ha hid (Relation.ReflTransGen.head hc (below hc hj)) hm hn).1
  · refine (ht.pairwise_childrenOf ha hid).imp_of_mem fun hc hd hcd i hi j hj => ?_
    exact ht.startsBy_of_precedes ha (hid.tail hc) (hid.tail hd) hcd (below hc hi) (below hd hj)

end TextOrdered

end Arena

end HunkScope
