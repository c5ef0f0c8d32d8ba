import HunkScope.Proofs.Scope.Nested

/-!
# Hunks that run backwards

Nothing orders the ends of a hunk. Of a hunk that runs backwards more nodes are clear, and more
cover it, so a search for it visits fewer nodes and asks less of each. The two make up for each
other: a node that is offered holds both ends of the hunk, whichever comes first. Its lines
therefore run forwards, and its extent is the true difference of the two.

On a nested arena nothing is lost below the nodes that are passed over. There the hunk with its ends
swapped (`Hunk.reverse`) is made the very same offers.

* `Scope.Encloses`: the lines of a scope hold both ends of a hunk.

Headlines:
* `Hunk.ordered_eq`, `Hunk.ordered_reverse`: the hunk in order, and that it is the same both ways.
* `encloses_of_mem_offers`: whoever is offered encloses the hunk.
* `offers_reverse`: on a nested arena the offers are the same both ways.
* **`scopeOf?_reverse`**: so is the scope.
-/

namespace HunkScope

namespace Hunk

/-- The hunk with its ends swapped. -/
def reverse (h : Hunk) : Hunk := ⟨h.last, h.first⟩

/-- The hunk in order runs from the smaller of its ends to the larger. -/
theorem ordered_eq (h : Hunk) : h.ordered = ⟨min h.first h.last, max h.first h.last⟩ := by
  have hmin : min h.first h.last = if h.first ≤ h.last then h.first else h.last := rfl
  have hmax : max h.first h.last = if h.first ≤ h.last then h.last else h.first := rfl
  rw [ordered, hmin, hmax]
  by_cases hlt : h.last < h.first
  · rw [if_pos hlt, if_neg (UInt32.not_le.mpr hlt), if_neg (UInt32.not_le.mpr hlt)]
  · rw [if_neg hlt, if_pos (UInt32.not_lt.mp hlt), if_pos (UInt32.not_lt.mp hlt)]

theorem ordered_first_le_last (h : Hunk) : h.ordered.first ≤ h.ordered.last := by
  unfold ordered
  split
  · rename_i hlt
    exact UInt32.le_of_lt hlt
  · rename_i hlt
    exact UInt32.not_lt.mp hlt

/-- **A hunk and its reverse are one hunk in order.** -/
theorem ordered_reverse (h : Hunk) : h.reverse.ordered = h.ordered := by
  obtain ⟨first, last⟩ := h
  show (if first < last then (⟨first, last⟩ : Hunk) else ⟨last, first⟩) =
    if last < first then ⟨last, first⟩ else ⟨first, last⟩
  by_cases hlt : last < first
  · rw [if_pos hlt, if_neg (UInt32.lt_asymm hlt)]
  · by_cases hgt : first < last
    · rw [if_neg hlt, if_pos hgt]
    · obtain rfl := UInt32.le_antisymm (UInt32.not_lt.mp hlt) (UInt32.not_lt.mp hgt)
      rfl

end Hunk

/-- Both ends of a hunk lie within the lines of a scope, whichever comes first, and no line is lost
when the extent is taken. -/
structure Scope.Encloses (s : Scope) (h : Hunk) : Prop where
  first : s.firstLine ≤ min h.first h.last
  last : max h.first h.last ≤ s.lastLine
  /-- The extent is the true difference of the lines. -/
  extent : s.extent + s.firstLine.toNat = s.lastLine.toNat

/-- The lines of a node that covers the hunk in order enclose it. -/
theorem Scope.encloses_of_covers {s : Scope} {n : NodeInfo} {h : Hunk}
    (hfirst : s.firstLine = n.firstLine) (hlast : s.lastLine = n.lastLine)
    (hcov : n.covers h.ordered = true) : s.Encloses h := by
  rw [NodeInfo.covers_iff, ← hfirst, ← hlast] at hcov
  have hforward : s.firstLine ≤ s.lastLine :=
    UInt32.le_trans hcov.1 (UInt32.le_trans h.ordered_first_le_last hcov.2)
  rw [Hunk.ordered_eq] at hcov
  exact ⟨hcov.1, hcov.2, Nat.sub_add_cancel hforward⟩

namespace Arena

variable {a : Arena} {rule : LoopRule} {h : Hunk}

/-- **Whoever is offered encloses the hunk**, with the lines of its node. -/
theorem encloses_of_mem_offers {o : Offer} (ho : o ∈ a.offers rule h) :
    ∃ n, a.node? o.node = some n ∧ o.scope.firstLine = n.firstLine ∧
      o.scope.lastLine = n.lastLine ∧ o.scope.Encloses h := by
  rw [offers_eq_filterMap_visited] at ho
  obtain ⟨id, -, hoffer⟩ := List.mem_filterMap.mp ho
  obtain rfl := node_of_offer? hoffer
  obtain ⟨n, hn, hcov, hfirst, hlast⟩ := exists_node_of_offer? hoffer
  exact ⟨n, hn, hfirst, hlast, Scope.encloses_of_covers hfirst hlast hcov⟩

/-- **On a nested arena a hunk is made the same offers both ways.** -/
theorem offers_reverse (hn : a.LineNested) (ha : a.Linked) (rule : LoopRule) (h : Hunk) :
    a.offers rule h.reverse = a.offers rule h := by
  rw [offers_eq_allOffers_ordered hn ha, offers_eq_allOffers_ordered hn ha, Hunk.ordered_reverse]

/-- **Hunks that run backwards do no harm.** The scope of a hunk is the running best over its
offers. Each of these has the lines of its node and encloses the hunk, so the scope does. On a
nested arena the reverse of the hunk has the same scope. -/
theorem scopeOf?_reverse (ha : a.Built) (rule : LoopRule) (h : Hunk) :
    a.scopeOf? rule h = contendAll none (a.offers rule h) ∧
      (∀ o ∈ a.offers rule h, ∃ n, a.node? o.node = some n ∧ o.scope.firstLine = n.firstLine ∧
        o.scope.lastLine = n.lastLine ∧ o.scope.Encloses h) ∧
      (∀ s, a.scopeOf? rule h = some s → s.Encloses h) ∧
      (a.LineNested → a.scopeOf? rule h.reverse = a.scopeOf? rule h) := by
  refine ⟨best_search ha.linked rule h, fun o ho => encloses_of_mem_offers ho, fun s hs => ?_,
    fun hn => ?_⟩
  · rw [scopeOf?_eq_pick_offers ha.linked] at hs
    obtain ⟨w, hw, rfl⟩ := Option.map_eq_some_iff.mp hs
    obtain ⟨n, -, -, -, hencloses⟩ := encloses_of_mem_offers (mem_of_pick_sinceLast hw)
    exact hencloses
  · rw [best_search ha.linked, best_search ha.linked, offers_reverse hn ha.linked]

/-- Lines 4 to 5 of the sample lie in a branch that the lines 5 to 4 lie in as well, though a search
for these passes over nodes on either of the two lines. -/
theorem scopeOf?_reverse_sample :
    Sample.arena.scopeOf? .rowOfIn ⟨5, 4⟩ = some ⟨.branch, "if x>1", 3, 5⟩ ∧
      (Scope.mk .branch "if x>1" 3 5).Encloses ⟨4, 5⟩ := by
  obtain ⟨-, -, hencloses, hreverse⟩ :=
    scopeOf?_reverse (a := Sample.arena) (Sample.built_grown _ _ _) .rowOfIn ⟨4, 5⟩
  have hs : Sample.arena.scopeOf? .rowOfIn ⟨4, 5⟩ = some ⟨.branch, "if x>1", 3, 5⟩ := by decide
  exact ⟨(hreverse lineNested_sample).trans hs, hencloses _ hs⟩

end Arena

end HunkScope
