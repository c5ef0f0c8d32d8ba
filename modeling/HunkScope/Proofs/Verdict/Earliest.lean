import HunkScope.Proofs.Arena.TextOrder
import HunkScope.Proofs.Verdict.FirstFault

/-!
# The earliest fault

The check for mistakes never looks at a position: it reports the flagged node that a walk comes to
first. In an arena in the order of its text no node starts before one that the walk came to earlier,
so the mistake reported is also the one that starts first. Where several start at the same point,
for one of no width or for one that holds another, they are reported by the same place, and it does
not matter which of them was found.

Headlines:
* `NodeInfo.site_le_site`: places are in the order of the points they stand for, as long as no line
  number wraps around.
* `TextOrdered.startsBy_of_firstFlagged?`: the node that is found starts no later than any other
  flagged one.
* **`verdict_site_earliest`**: the place reported comes before that of every mistake.
-/

namespace HunkScope

/-! ## Places in order -/

/-- Places are compared by line, then by column. -/
instance : LE FaultSite := ⟨fun s t => s.line < t.line ∨ (s.line = t.line ∧ s.column ≤ t.column)⟩

theorem FaultSite.le_iff {s t : FaultSite} :
    s ≤ t ↔ s.line < t.line ∨ (s.line = t.line ∧ s.column ≤ t.column) := Iff.rfl

instance (s t : FaultSite) : Decidable (s ≤ t) := decidable_of_iff _ FaultSite.le_iff.symm

/-- **Places are in the order of the points they stand for.** On the last row that there can be the
line number wraps around, so the rows are bounded. -/
theorem NodeInfo.site_le_site {m n : NodeInfo} (h : m.start ≤ n.start)
    (hm : m.start.row.toNat + 1 < UInt32.size) (hn : n.start.row.toNat + 1 < UInt32.size) :
    m.site ≤ n.site := by
  have hmline : m.site.line.toNat = m.start.row.toNat + 1 := Point.toNat_line hm
  have hnline : n.site.line.toNat = n.start.row.toNat + 1 := Point.toNat_line hn
  rw [FaultSite.le_iff, UInt32.lt_iff_toNat_lt, ← UInt32.toNat_inj, hmline, hnline]
  rcases h with hlt | ⟨heq, hcolumn⟩
  · exact Or.inl (Nat.add_lt_add_right (UInt32.lt_iff_toNat_lt.mp hlt) 1)
  · exact Or.inr ⟨congrArg (fun row => row.toNat + 1) heq, hcolumn⟩

/-! ## The first of a list in order -/

/-- In a list in order, what is found comes before whatever else could have been. -/
theorem eq_or_rel_of_find? {α : Type} {R : α → α → Prop} {p : α → Bool} {l : List α} {x y : α}
    (hl : l.Pairwise R) (hx : l.find? p = some x) (hy : y ∈ l) (hp : p y = true) :
    x = y ∨ R x y := by
  obtain ⟨-, before, after, rfl, hbefore⟩ := List.find?_eq_some_iff_append.mp hx
  rcases List.mem_append.mp hy with hy | hy
  · have hnot := hbefore y hy
    rw [hp] at hnot
    cases hnot
  · rcases List.mem_cons.mp hy with rfl | hy
    · exact Or.inl rfl
    · exact Or.inr ((List.pairwise_cons.mp (List.pairwise_append.mp hl).2.1).1 y hy)

namespace Arena

variable {a : Arena}

/-- **The node that is found starts no later than any other flagged one** that is reached from where
the walk started. -/
theorem TextOrdered.startsBy_of_firstFlagged? (ht : a.TextOrdered) (ha : a.Linked) {i id j : Nat}
    (hi : a.Reaches rootId i) (hfirst : a.firstFlagged? i = some id) (hj : a.Reaches i j)
    (hflag : a.flagged j = true) : a.StartsBy id j := by
  have hg := ha.grounded_of_reaches hi
  rw [firstFlagged?_eq_find? ha hg] at hfirst
  have hmem : j ∈ a.subtree i := (mem_subtree_iff ha hg).mpr hj
  rcases eq_or_rel_of_find? (ht.pairwise_subtree ha hi) hfirst hmem hflag with rfl | hstarts
  · intro m hm n hn
    obtain rfl := Option.some.inj (hm.symm.trans hn)
    exact Point.le_refl _
  · exact hstarts

/-- **The mistake that is reported is the earliest one.** In an arena in the order of its text whose
line numbers do not wrap around, the place reported is that of a flagged node that the root reaches,
and comes before the places of all other such nodes, or is the same. -/
theorem verdict_site_earliest (ha : a.Built) (ht : a.TextOrdered)
    (hrows : ∀ id, a.Reaches rootId id → ∀ n ∈ a.node? id, n.start.row.toNat + 1 < UInt32.size)
    {site : FaultSite} (hsite : a.verdict.site = some site) :
    (∃ id n, a.Reaches rootId id ∧ a.node? id = some n ∧ n.isFlagged = true ∧ site = n.site) ∧
      ∀ j n, a.Reaches rootId j → a.node? j = some n → n.isFlagged = true →
        site ≤ n.site ∧ n.site.line.toNat = n.start.row.toNat + 1 := by
  have hl := ha.linked
  rcases verdict_cases hl with ⟨-, hsound⟩ | ⟨id, m, hfirst, hm, hfaulty⟩
  · rw [hsound] at hsite
    cases hsite
  rw [hfaulty] at hsite
  obtain rfl := Option.some.inj hsite
  have hid := reaches_of_firstFlagged? hl hl.grounded_root hfirst
  refine ⟨⟨id, m, hid, hm, ?_, rfl⟩, fun j n hj hn hflag => ?_⟩
  · rw [← flagged_of_node hm]
    exact flagged_of_firstFlagged? hl hl.grounded_root hfirst
  · rw [← flagged_of_node hn] at hflag
    have hstart := ht.startsBy_of_firstFlagged? hl .refl hfirst hj hflag m hm n hn
    exact ⟨NodeInfo.site_le_site hstart (hrows id hid m hm) (hrows j hj n hn),
      Point.toNat_line (hrows j hj n hn)⟩

/-! ## The sample of mistakes -/

/-- The sample of mistakes is in the order of its text: the token of no width and the mistake after
it start at the same point. -/
theorem textOrdered_mistakes : Sample.mistakes.TextOrdered where
  forward := by
    have hall : ∀ id < Sample.mistakes.size, ∀ n ∈ Sample.mistakes.node? id, n.start ≤ n.stop := by
      decide
    exact fun id _ n hn => hall id (node?_eq_some_iff.mp hn).1 n hn
  child := by
    have hall : ∀ p < Sample.mistakes.size, ∀ c ∈ Sample.mistakes.childrenOf p,
        ∀ m ∈ Sample.mistakes.node? p, ∀ n ∈ Sample.mistakes.node? c,
          m.start ≤ n.start ∧ n.stop ≤ m.stop := by decide
    exact fun p c _ hc m hm => hall p (node?_eq_some_iff.mp hm).1 c hc m hm
  next := by
    have hall : ∀ p < Sample.mistakes.size,
        (Sample.mistakes.childrenOf p).IsChain Sample.mistakes.Precedes := by decide
    intro p hp
    exact hall p ((Sample.built_grown _ _ _).linked.grounded_of_reaches hp).1

/-- The token that the block lacks is reported where it should be, on line 5. The mistake after the
block starts at the same place, and the one that this holds starts later. -/
theorem verdict_site_earliest_sample :
    Sample.mistakes.verdict.site = some ⟨5, 7⟩ ∧
      (∃ n, Sample.mistakes.node? 3 = some n ∧ (⟨5, 7⟩ : FaultSite) ≤ n.site) ∧
      ∃ n, Sample.mistakes.node? 5 = some n ∧ (⟨5, 7⟩ : FaultSite) ≤ n.site := by
  have hsite : Sample.mistakes.verdict.site = some ⟨5, 7⟩ := by decide
  have hrows : ∀ id < Sample.mistakes.size, ∀ n ∈ Sample.mistakes.node? id,
      n.start.row.toNat + 1 < UInt32.size := by decide
  obtain ⟨-, hleast⟩ := verdict_site_earliest (Sample.built_grown _ _ _) textOrdered_mistakes
    (fun id _ n hn => hrows id (node?_eq_some_iff.mp hn).1 n hn) hsite
  have hthree : Sample.mistakes.Reaches rootId 3 :=
    .single (show 3 ∈ Sample.mistakes.childrenOf 0 by decide)
  have hfive : Sample.mistakes.Reaches rootId 5 :=
    hthree.tail (show 5 ∈ Sample.mistakes.childrenOf 3 by decide)
  exact ⟨hsite, ⟨_, rfl, (hleast 3 _ hthree rfl rfl).1⟩, ⟨_, rfl, (hleast 5 _ hfive rfl rfl).1⟩⟩

end Arena

end HunkScope
