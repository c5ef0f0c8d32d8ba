import HunkScope.Proofs.Scope.RunningBest

/-!
# Pruning on nested arenas

A search does not go below a node that is clear of the hunk. Where every child lies within its
parent by lines (`LineNested`), nothing it passes over could have been offered: what lies below a
clear node is within it, and no node within a clear node covers a hunk whose ends are in order. So
the search finds the scope that a search through every node finds.

A hunk that runs backwards is offered the nodes that cover it and are not clear of it, and these are
the nodes that cover it with its ends in order (`Hunk.ordered`).

* `everyNode`: all ids the root reaches, in pre-order.
* `allOffers`: the offers of all of them.

Headlines:
* `NodeInfo.covers_ordered_iff`, `offers_eq_filterMap_visited`: what a hunk is offered hangs on the
  hunk in order.
* `LineNested.within`: nesting holds over any number of steps.
* `offers_eq_allOffers_ordered`: on a nested arena nothing is lost, whichever way the hunk runs.
* `filterMap_listing_eq`: a test may hide a node when nothing from that node on counts.
* **`scopeOf?_eq_contendAll`**: pruning never changes the scope of a hunk on a nested arena.
-/

namespace HunkScope

/-- The hunk with its ends in order. -/
def Hunk.ordered (h : Hunk) : Hunk := if h.last < h.first then ⟨h.last, h.first⟩ else h

theorem Hunk.ordered_of_le {h : Hunk} (hh : h.first ≤ h.last) : h.ordered = h :=
  if_neg (UInt32.not_lt.mpr hh)

/-- **Not to be clear of a hunk that a node covers** is to cover it with its ends in order. -/
theorem NodeInfo.covers_ordered_iff {n : NodeInfo} {h : Hunk} :
    n.covers h.ordered = true ↔ n.covers h = true ∧ ¬ n.clearOf h = true := by
  unfold Hunk.ordered
  split <;>
    · simp only [covers_iff, clearOf_iff, UInt32.le_iff_toNat_le, UInt32.lt_iff_toNat_lt] at *
      omega

end HunkScope

namespace HunkScope.Arena

/-- Every child of a node the root reaches lies within that node by lines. -/
def LineNested (a : Arena) : Prop :=
  ∀ p c, a.Reaches rootId p → c ∈ a.childrenOf p → ∀ m ∈ a.node? p, ∀ n ∈ a.node? c,
    m.firstLine ≤ n.firstLine ∧ n.lastLine ≤ m.lastLine

/-- The ids the root reaches, each before those below it and children in order. -/
def everyNode (a : Arena) : List Nat := a.listing (fun _ => true) rootId

/-- The offers of all nodes the root reaches, in pre-order. -/
def allOffers (a : Arena) (rule : LoopRule) (h : Hunk) : List Offer :=
  a.everyNode.filterMap (a.offer? rule h)

variable {a : Arena} {rule : LoopRule} {h : Hunk}

theorem mem_everyNode_iff (ha : a.Linked) {id : Nat} :
    id ∈ a.everyNode ↔ a.Reaches rootId id :=
  mem_listing_iff ha ha.grounded_root

/-- **Nesting holds over any number of steps.** -/
theorem LineNested.within (hn : a.LineNested) (ha : a.Linked) {i j : Nat} {m n : Node}
    (hi : a.Reaches rootId i) (hij : a.Reaches i j) (hm : a.node? i = some m)
    (hnj : a.node? j = some n) : m.firstLine ≤ n.firstLine ∧ n.lastLine ≤ m.lastLine := by
  refine ha.rel_of_reaches (R := fun m n => m.firstLine ≤ n.firstLine ∧ n.lastLine ≤ m.lastLine)
    (fun n => ⟨UInt32.le_refl _, UInt32.le_refl _⟩) (fun l m n hlm hmn => ?_) hn hi hij hm hnj
  exact ⟨UInt32.le_trans hlm.1 hmn.1, UInt32.le_trans hmn.2 hlm.2⟩

/-- A node around one that covers a hunk in order is not clear of it. -/
theorem not_clearOf_of_covers {m n : NodeInfo} (hf : m.firstLine ≤ n.firstLine)
    (hl : n.lastLine ≤ m.lastLine) (hcov : n.covers h.ordered = true) : ¬ m.clearOf h = true := by
  rw [NodeInfo.covers_iff] at hcov
  refine (NodeInfo.covers_ordered_iff.mp (NodeInfo.covers_iff.mpr ⟨?_, ?_⟩)).2
  · exact UInt32.le_trans hf hcov.1
  · exact UInt32.le_trans hcov.2 hl

/-- **Nothing from a clear node on makes an offer.** -/
theorem LineNested.offer?_eq_none (hn : a.LineNested) (ha : a.Linked) {i j : Nat} {m : Node}
    (hi : a.Reaches rootId i) (hm : a.node? i = some m) (hc : m.clearOf h = true)
    (hij : a.Reaches i j) : a.offer? rule h.ordered j = none := by
  by_contra hne
  obtain ⟨o, ho⟩ := Option.ne_none_iff_exists'.mp hne
  obtain ⟨⟨n, hnj, hcov⟩, -⟩ := offer?_eq_some_iff.mp ho
  obtain ⟨h1, h2⟩ := hn.within ha hi hij hm hnj
  exact not_clearOf_of_covers h1 h2 hcov hc

/-- **A test may hide what lies below a node when nothing from that node on counts.** -/
theorem filterMap_listing_eq {β : Type} {f : Nat → Option β} {enter : Node → Bool}
    (ha : a.Linked) (hskip : ∀ i j n, a.Reaches rootId i → a.node? i = some n →
      enter n = false → a.Reaches i j → f j = none) {id : Nat} (hid : a.Reaches rootId id) :
    (a.listing enter id).filterMap f = (a.listing (fun _ => true) id).filterMap f := by
  refine ha.groundedInduction (P := fun id => a.Reaches rootId id →
    (a.listing enter id).filterMap f = (a.listing (fun _ => true) id).filterMap f)
    (fun id hg ih hid => ?_) id (ha.grounded_of_reaches hid) hid
  obtain ⟨n, hn⟩ := hg.exists_node
  by_cases he : enter n = true
  · rw [listing_eq hg ha hn, listing_eq hg ha hn, if_pos he, if_pos rfl, List.filterMap_cons,
      List.filterMap_cons, List.filterMap_flatMap, List.filterMap_flatMap,
      List.flatMap_congr fun c hc => ih c hc (hid.tail hc)]
  · have hnone : ∀ j, a.Reaches id j → f j = none := fun j hj =>
      hskip id j n hid hn (by simpa using he) hj
    rw [List.filterMap_eq_nil_iff.mpr fun j hj => hnone j (reaches_of_mem_listing ha enter hg hj),
      List.filterMap_eq_nil_iff.mpr fun j hj => hnone j (reaches_of_mem_listing ha _ hg hj)]

/-- The offer of a node that is not passed over is its offer to the hunk in order. -/
theorem offer?_ordered (a : Arena) (rule : LoopRule) (h : Hunk) (id : Nat) :
    a.offer? rule h.ordered id = if a.overlaps h id then a.offer? rule h id else none := by
  unfold offer? overlaps
  cases a.node? id with
  | none => rfl
  | some n =>
    simp only [Option.any_some, NodeInfo.covers_ordered_iff]
    by_cases hclear : n.clearOf h = true
    · simp [hclear]
    · simp [hclear]

/-- **The offers of a search** are those that the visited nodes make to the hunk in order. -/
theorem offers_eq_filterMap_visited (a : Arena) (rule : LoopRule) (h : Hunk) :
    a.offers rule h = (a.visited h).filterMap (a.offer? rule h.ordered) := by
  rw [offers, List.filterMap_filter]
  exact List.filterMap_congr fun id _ => (offer?_ordered a rule h id).symm

/-- **On a nested arena a search is made all the offers there are** to the hunk in order. -/
theorem offers_eq_allOffers_ordered (hn : a.LineNested) (ha : a.Linked) :
    a.offers rule h = a.allOffers rule h.ordered := by
  rw [offers_eq_filterMap_visited, visited_eq_listing ha, allOffers, everyNode]
  refine filterMap_listing_eq ha (fun i j n hi hnode he hij => ?_) Relation.ReflTransGen.refl
  exact hn.offer?_eq_none ha hi hnode (by simpa using he) hij

theorem offers_eq_allOffers (hn : a.LineNested) (ha : a.Linked) (hh : h.first ≤ h.last) :
    a.offers rule h = a.allOffers rule h := by
  rw [offers_eq_allOffers_ordered hn ha, Hunk.ordered_of_le hh]

/-- **Pruning never changes the scope of a hunk on a nested arena**: the search finds the running
best over the offers of all nodes that the root reaches, in pre-order. -/
theorem scopeOf?_eq_contendAll (ha : a.Built) (hn : a.LineNested) (rule : LoopRule) {h : Hunk}
    (hh : h.first ≤ h.last) :
    (∀ id, id ∈ a.everyNode ↔ a.Reaches rootId id) ∧
      a.scopeOf? rule h = contendAll none (a.everyNode.filterMap (a.offer? rule h)) := by
  refine ⟨fun id => mem_everyNode_iff ha.linked, ?_⟩
  rw [best_search ha.linked, offers_eq_allOffers hn ha.linked hh, allOffers]

/-- The sample is nested. -/
theorem lineNested_sample : Sample.arena.LineNested := by
  have hall : ∀ p < Sample.arena.size, ∀ c ∈ Sample.arena.childrenOf p,
      ∀ m ∈ Sample.arena.node? p, ∀ n ∈ Sample.arena.node? c,
        m.firstLine ≤ n.firstLine ∧ n.lastLine ≤ m.lastLine := by decide
  intro p c _ hc m hm
  exact hall p (node?_eq_some_iff.mp hm).1 c hc m hm

/-- At line 3 of the sample a search passes over the class on line 12. -/
theorem scopeOf?_eq_contendAll_sample :
    contendAll none (Sample.arena.everyNode.filterMap
      (Sample.arena.offer? .rowOfIn ⟨3, 3⟩)) = some ⟨.branch, "if x>1", 3, 5⟩ :=
  (scopeOf?_eq_contendAll (a := Sample.arena) (Sample.built_grown _ _ _) lineNested_sample .rowOfIn
    (show (3 : UInt32) ≤ 3 by decide)).2.symm.trans (by decide)

end HunkScope.Arena
