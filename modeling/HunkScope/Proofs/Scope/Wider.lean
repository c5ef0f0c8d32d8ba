import HunkScope.Proofs.Scope.Fewer
import HunkScope.Proofs.Scope.Smallest

/-!
# Wider hunks

A wider hunk is covered by fewer nodes. On a nested arena it is therefore made fewer offers, those
that cover it, in the same order. The offer that won for the narrow hunk may be one of them. It then
still contends, so the wider hunk has a scope too, and a scope no larger. Which one it is may change
all the same: without the last local function the offers reach further back. Where the rivals stand
one above the other it cannot change.

The widest hunk that a scope covers is its own lines (`Scope.lines`). A scope no larger that covers
them has these lines.

* `Hunk.Within`: one hunk lies within another.
* `Offer.covers`: the lines of an offer hold the ends of a hunk.

Headlines:
* `allOffers_wider`: a wider hunk is made those of the offers that cover it.
* `exists_pick_wider`, `Chained.pick_wider`: who is picked for a wider hunk that the pick covers.
* **`scopeOf?_lines`**: the lines of a scope have a scope with these lines, and rivals in a chain
  make it the same scope.
-/

namespace HunkScope

/-- A hunk lies within another one. -/
def Hunk.Within (h k : Hunk) : Prop := k.first ≤ h.first ∧ h.last ≤ k.last

/-- The lines of a scope. -/
def Scope.lines (s : Scope) : Hunk := ⟨s.firstLine, s.lastLine⟩

namespace Offer

/-- The lines of an offer hold both ends of a hunk. -/
def covers (k : Hunk) (o : Offer) : Bool :=
  decide (o.scope.firstLine ≤ k.first) && decide (k.last ≤ o.scope.lastLine)

variable {h k : Hunk} {o : Offer}

theorem covers_iff : o.covers k = true ↔ k.Within o.scope.lines := by
  simp only [covers, Hunk.Within, Scope.lines, Bool.and_eq_true, decide_eq_true_eq]

theorem covers_of_within (hk : h.Within k) (ho : o.covers k = true) : o.covers h = true := by
  rw [covers_iff] at ho ⊢
  exact ⟨UInt32.le_trans ho.1 hk.1, UInt32.le_trans hk.2 ho.2⟩

/-- **An offer that covers the lines of a scope and is no larger has these lines.** -/
theorem lines_eq_of_covers {s : Scope} (hs : s.firstLine ≤ s.lastLine)
    (ho : o.covers s.lines = true) (hle : o.extent ≤ s.extent) : o.scope.lines = s.lines := by
  obtain ⟨hfirst, hlast⟩ := covers_iff.mp ho
  simp only [Scope.lines, UInt32.le_iff_toNat_le] at hfirst hlast hs
  simp only [extent, Scope.extent] at hle
  rw [Scope.lines, Scope.lines, Hunk.mk.injEq, ← UInt32.toNat_inj, ← UInt32.toNat_inj]
  omega

end Offer

namespace Arena

variable {a : Arena} {rule : LoopRule} {h k : Hunk}

/-! ## The offers to a wider hunk -/

/-- A node makes an offer that covers the hunk, or none. -/
theorem offer?_eq_some_iff_covers {id : Nat} {o : Offer} :
    a.offer? rule h id = some o ↔
      (∃ c, a.contender? rule id = some c ∧ o = ⟨id, c⟩) ∧ o.covers h = true := by
  rw [offer?_eq_some_iff, and_comm]
  refine and_congr_right fun ⟨c, hc, hoc⟩ => ?_
  obtain ⟨n, construct, name, hn, -, -, rfl⟩ := contender?_eq_some_iff.mp hc
  subst hoc
  constructor
  · rintro ⟨m, hm, hcov⟩
    obtain rfl := Option.some.inj (hn.symm.trans hm)
    exact hcov
  · intro hcov
    exact ⟨n, hn, hcov⟩

theorem offer?_wider (hk : h.Within k) (id : Nat) :
    a.offer? rule k id = (a.offer? rule h id).filter (Offer.covers k) := by
  ext o
  rw [Option.filter_eq_some_iff, offer?_eq_some_iff_covers, offer?_eq_some_iff_covers, and_assoc]
  refine and_congr_right fun _ => ?_
  exact ⟨fun ho => ⟨Offer.covers_of_within hk ho, ho⟩, And.right⟩

/-- **A wider hunk is made those of the offers that cover it.** -/
theorem allOffers_wider (hk : h.Within k) :
    a.allOffers rule k = (a.allOffers rule h).filter (Offer.covers k) := by
  rw [allOffers, allOffers, List.filter_filterMap]
  exact List.filterMap_congr fun id _ => offer?_wider hk id

/-- The rivals for a wider hunk are those of the rivals that cover it. -/
theorem rival_wider_iff (hk : h.Within k) {o : Offer} :
    a.Rival rule k o ↔ a.Rival rule h o ∧ o.covers k = true := by
  rw [Rival, Rival, offer?_wider hk, Option.filter_eq_some_iff, and_assoc]

theorem Chained.wider (hc : a.Chained rule h) (hk : h.Within k) : a.Chained rule k :=
  fun o p ho hp => hc o p ((rival_wider_iff hk).mp ho).1 ((rival_wider_iff hk).mp hp).1

/-- Rivals that stand above each other are the same. -/
theorem Rival.eq_of_reaches {o p : Offer} (ho : a.Rival rule h o) (hp : a.Rival rule h p)
    (ha : a.Linked) (hop : a.Reaches o.node p.node) (hpo : a.Reaches p.node o.node) : o = p := by
  have hle := ((ha.grounded_of_reaches ho.1).reaches ha hop).1
  have hge := ((ha.grounded_of_reaches hp.1).reaches ha hpo).1
  refine Option.some.inj (ho.2.symm.trans ?_)
  rw [Nat.le_antisymm hle hge]
  exact hp.2

/-! ## The scope of a wider hunk -/

/-- **When the pick for a hunk covers a wider one, there is a pick for that**: a rival no larger. -/
theorem exists_pick_wider (ha : a.Linked) (hk : h.Within k) {w : Offer}
    (hw : pick (sinceLast (Offer.isLocal a) (a.allOffers rule h)) = some w)
    (hcov : w.covers k = true) :
    ∃ r, pick (sinceLast (Offer.isLocal a) (a.allOffers rule k)) = some r ∧
      a.Rival rule k r ∧ r.extent ≤ w.extent := by
  obtain ⟨r, hr, hmem, hrk, hle⟩ := exists_pick_filter hw hcov
  rw [← allOffers_wider hk] at hr
  exact ⟨r, hr, (rival_wider_iff hk).mpr ⟨(mem_allOffers_iff ha).mp hmem, hrk⟩, hle⟩

/-- **Among rivals in a chain the pick stays the pick** for a wider hunk that it covers. -/
theorem Chained.pick_wider (hc : a.Chained rule h) (ha : a.Linked) (hn : a.LineNested)
    (hk : h.Within k) {w : Offer}
    (hw : pick (sinceLast (Offer.isLocal a) (a.allOffers rule h)) = some w)
    (hcov : w.covers k = true) :
    pick (sinceLast (Offer.isLocal a) (a.allOffers rule k)) = some w := by
  obtain ⟨r, hr, hrival, hle⟩ := exists_pick_wider ha hk hw hcov
  obtain ⟨hwh, hmin, hwties⟩ := hc.pick_spec ha hn hw
  obtain ⟨-, -, hrties⟩ := (hc.wider hk).pick_spec ha hn hr
  have hrh : a.Rival rule h r := ((rival_wider_iff hk).mp hrival).1
  have hwk : a.Rival rule k w := (rival_wider_iff hk).mpr ⟨hwh, hcov⟩
  have heq : r.extent = w.extent := Nat.le_antisymm hle (hmin r hrh)
  -- Each of the two is as small as the other, so each is the last or the first of the ties.
  have hboth : a.Reaches w.node r.node ∧ a.Reaches r.node w.node := by
    rcases hwties with ⟨hwf, hwlast⟩ | ⟨hnone, hwfirst⟩
    · rcases hrties with ⟨hrf, hrlast⟩ | ⟨hnone, -⟩
      · exact ⟨hrlast w hwk heq.symm hwf, hwlast r hrh heq hrf⟩
      · exact absurd hwf (hnone w hwk heq.symm)
    · rcases hrties with ⟨hrf, -⟩ | ⟨-, hrfirst⟩
      · exact absurd hrf (hnone r hrh heq)
      · exact ⟨hwfirst r hrh heq, hrfirst w hwk heq.symm⟩
  rw [hr, hwh.eq_of_reaches hrh ha hboth.1 hboth.2]

/-- **The lines of a scope have a scope with these lines**, on a nested arena. It is the same scope
when the nodes with a contender that cover both ends of the hunk stand one above the other. -/
theorem scopeOf?_lines (ha : a.Built) (hn : a.LineNested) {s : Scope}
    (hs : a.scopeOf? rule h = some s) :
    (∃ t, a.scopeOf? rule s.lines = some t ∧ t.firstLine = s.firstLine ∧
      t.lastLine = s.lastLine) ∧
      (a.Chained rule h.ordered → a.scopeOf? rule s.lines = some s) := by
  have hle := firstLine_le_lastLine_of_scopeOf? ha.linked hs
  rw [scopeOf?_eq_pick_ordered ha.linked hn] at hs
  obtain ⟨w, hw, rfl⟩ := Option.map_eq_some_iff.mp hs
  have hk : h.ordered.Within w.scope.lines := by
    have hmem := (mem_allOffers_iff ha.linked).mp (mem_of_pick_sinceLast hw)
    exact Offer.covers_iff.mp (offer?_eq_some_iff_covers.mp hmem.2).2
  have hcov : w.covers w.scope.lines = true :=
    Offer.covers_iff.mpr ⟨UInt32.le_refl _, UInt32.le_refl _⟩
  rw [scopeOf?_eq_pick_allOffers ha.linked hn hle]
  constructor
  · obtain ⟨r, hr, hrival, hext⟩ := exists_pick_wider ha.linked hk hw hcov
    have hlines := Offer.lines_eq_of_covers hle (offer?_eq_some_iff_covers.mp hrival.2).2 hext
    refine ⟨r.scope, by rw [hr, Option.map_some], ?_⟩
    exact ⟨congrArg Hunk.first hlines, congrArg Hunk.last hlines⟩
  · intro hc
    rw [hc.pick_wider ha.linked hn hk hw hcov, Option.map_some]

/-- On lines 5 to 4 of the sample there are three rivals: a function, a local function in it, and a
branch in that. -/
theorem chained_reversed_sample : Sample.arena.Chained .rowOfIn (Hunk.ordered ⟨5, 4⟩) := by
  have h5 : Sample.arena.Reaches 1 5 :=
    (Relation.ReflTransGen.single (show 3 ∈ Sample.arena.childrenOf 1 by decide)).tail
      (show 5 ∈ Sample.arena.childrenOf 3 by decide)
  have h13 : Sample.arena.Reaches 5 13 :=
    (Relation.ReflTransGen.single (show 12 ∈ Sample.arena.childrenOf 5 by decide)).tail
      (show 13 ∈ Sample.arena.childrenOf 12 by decide)
  have h1 : Sample.arena.Reaches 1 13 := h5.trans h13
  exact chained_of_pairwise [1, 5, 13] (by simp [h5, h13, h1]) (by decide)

/-- The branch found for lines 5 to 4 of the sample is found for its own lines too. -/
theorem scopeOf?_lines_sample :
    Sample.arena.scopeOf? .rowOfIn ⟨5, 4⟩ = some ⟨.branch, "if x>1", 3, 5⟩ ∧
      Sample.arena.scopeOf? .rowOfIn ⟨3, 5⟩ = some ⟨.branch, "if x>1", 3, 5⟩ := by
  have hs : Sample.arena.scopeOf? .rowOfIn ⟨5, 4⟩ = some ⟨.branch, "if x>1", 3, 5⟩ := by decide
  obtain ⟨-, hordered⟩ :=
    scopeOf?_lines (a := Sample.arena) (Sample.built_grown _ _ _) lineNested_sample hs
  exact ⟨hs, hordered chained_reversed_sample⟩

end Arena

end HunkScope
