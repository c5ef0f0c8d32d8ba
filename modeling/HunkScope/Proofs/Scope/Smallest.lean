import HunkScope.Proofs.Scope.Nested
import Mathlib.Data.List.Pairwise

/-!
# The smallest enclosing construct

A hunk is meant to get the smallest construct around it. On a nested arena it does, as soon as the
rivals, the nodes that cover the hunk and have a contender, stand one above the other: a local
function then never displaces a rival smaller than itself, since every rival that is offered later
lies within it. Ties are settled by depth: the innermost of the smallest rivals that is a branch or
a local function wins, and where there is none of these, the outermost.

Headlines:
* `pick_of_shrinking`: who is picked of offers that never grow from one to the next.
* `mem_allOffers_iff`, `Chained.pairwise_allOffers`: the offers are those of the rivals; rivals in a
  chain are offered outermost first, and never grow.
* `chained_of_pairwise`: rivals whose nodes stand on one way down are in a chain.
* `scopeOf?_eq_pick_ordered`: the scope is picked among the offers of all rivals.
* `Chained.pick_spec`: who is picked of rivals in a chain.
* **`scopeOf?_smallest`**: the scope of a hunk is that of its smallest rival, ties settled by depth.
-/

namespace HunkScope

/-- An offer that wins ties: a branch or a local function. -/
def Offer.Favoured (a : Arena) (o : Offer) : Prop := o.isBranch = true ∨ o.isLocal a = true

theorem Offer.not_favoured {a : Arena} {o : Offer} (hb : o.isBranch = false)
    (hl : o.isLocal a = false) : ¬ o.Favoured a := by
  simp [Favoured, hb, hl]

/-! ## Offers that never grow -/

section Shrinking

variable {a : Arena} {os older : List Offer} {w : Offer}

/-- Offers that are no smaller in front of some others add those as small to the smallest. -/
theorem smallest_append (hw : w ∈ smallest os) (hold : ∀ p ∈ older, w.extent ≤ p.extent) :
    smallest (older ++ os) = (older.filter fun p => p.extent == w.extent) ++ smallest os := by
  obtain ⟨hmem, hmin⟩ := mem_smallest_iff.mp hw
  have hw' : w ∈ smallest (older ++ os) :=
    mem_smallest_iff.mpr ⟨List.mem_append_right _ hmem, fun p hp =>
      (List.mem_append.mp hp).elim (hold p) (hmin p)⟩
  rw [smallest_eq_filter hw', smallest_eq_filter hw, List.filter_append]

/-- Of the offers since the last local function, those after one of the smallest are no local
functions. -/
theorem isLocal_eq_false_of_after {before after : List Offer} {p : Offer}
    (hs : smallest (sinceLast (Offer.isLocal a) os) = before ++ w :: after) (hp : p ∈ after) :
    p.isLocal a = false := by
  obtain ⟨-, -, htail, -⟩ := exists_append_sinceLast (Offer.isLocal a) os
  have hsub : (w :: after).Sublist (sinceLast (Offer.isLocal a) os) := by
    refine (List.sublist_append_right before (w :: after)).trans ?_
    rw [← hs]
    exact List.filter_sublist
  exact htail p (hsub.tail.subset hp)

/-- A first of the smallest offers is as small as the very first offer, if that one is smallest. -/
theorem eq_head_of_smallest {x : Offer} {rest after : List Offer}
    (hs : smallest (x :: rest) = w :: after) (hx : x.extent ≤ w.extent) : x = w := by
  have hw : w ∈ smallest (x :: rest) := hs ▸ List.mem_cons_self
  have hwx := (mem_smallest_iff.mp hw).2 x List.mem_cons_self
  rw [smallest_eq_filter hw, List.filter_cons_of_pos (by simpa using Nat.le_antisymm hx hwx)] at hs
  exact (List.cons.inj hs).1

/-- **Who is picked of offers that never grow.** The pick is one of the smallest of all, and none
of the smallest after it is favoured. It is favoured itself, or the first of the smallest. -/
theorem pick_of_shrinking (hext : os.Pairwise fun o p => p.extent ≤ o.extent)
    (hw : pick (sinceLast (Offer.isLocal a) os) = some w) :
    ∃ before after, smallest os = before ++ w :: after ∧ (∀ p ∈ after, ¬ p.Favoured a) ∧
      (w.Favoured a ∨ before = []) := by
  obtain ⟨older, hos, -, hhead⟩ := exists_append_sinceLast (Offer.isLocal a) os
  have hws := mem_smallest_of_pick hw
  rw [hos] at hext
  have hcross := (List.pairwise_append.mp hext).2.2
  have hall : smallest os = (older.filter fun p => p.extent == w.extent) ++
      smallest (sinceLast (Offer.isLocal a) os) := by
    conv_lhs => rw [hos]
    exact smallest_append hws fun p hp => hcross p hp w (mem_smallest_iff.mp hws).1
  rcases pick_spec hw with ⟨hbr, before, after, hs, hafter⟩ | ⟨hnobr, after, hs⟩
  · -- The pick is the last branch; a local function after it would have come later.
    refine ⟨_, after, by rw [hall, hs, ← List.append_assoc], fun p hp => ?_, Or.inl (Or.inl hbr)⟩
    exact Offer.not_favoured (hafter p hp) (isLocal_eq_false_of_after hs hp)
  · refine ⟨_, after, by rw [hall, hs], fun p hp => ?_, ?_⟩
    · exact Offer.not_favoured (hnobr p (hs ▸ List.mem_cons_of_mem w hp))
        (isLocal_eq_false_of_after (hs.trans (List.nil_append _).symm) hp)
    · -- Were an older offer as small, the local function since then would be the pick.
      by_cases hl : w.isLocal a = true
      · exact Or.inl (Or.inr hl)
      · refine Or.inr (List.filter_eq_nil_iff.mpr fun p hp hpw => ?_)
        rcases hhead with rfl | ⟨x, hx, hlx⟩
        · exact List.not_mem_nil hp
        · obtain ⟨rest, hrest⟩ := List.head?_eq_some_iff.mp hx
          have hxp := hcross p hp x (hrest ▸ List.mem_cons_self)
          rw [hrest] at hs
          rw [eq_head_of_smallest hs (by rw [beq_iff_eq] at hpw; omega)] at hlx
          exact hl hlx

end Shrinking

namespace Arena

/-- A node the root reaches makes the offer. -/
def Rival (a : Arena) (rule : LoopRule) (h : Hunk) (o : Offer) : Prop :=
  a.Reaches rootId o.node ∧ a.offer? rule h o.node = some o

/-- Of any two rivals one stands above the other. -/
def Chained (a : Arena) (rule : LoopRule) (h : Hunk) : Prop :=
  ∀ o p, a.Rival rule h o → a.Rival rule h p → a.Reaches o.node p.node ∨ a.Reaches p.node o.node

variable {a : Arena} {rule : LoopRule} {h : Hunk}

/-- Rivals are chained when their nodes stand on one way down. -/
theorem chained_of_pairwise (ids : List Nat) (hids : ids.Pairwise a.Reaches)
    (hrivals : ∀ id < a.size, (a.offer? rule h id).isSome → id ∈ ids) : a.Chained rule h := by
  have hmem : ∀ o, a.Rival rule h o → o.node ∈ ids := by
    intro o ho
    obtain ⟨⟨n, hn, -⟩, -⟩ := offer?_eq_some_iff.mp ho.2
    exact hrivals _ (node?_eq_some_iff.mp hn).1 (by rw [ho.2]; rfl)
  have hsymm : Std.Symm fun i j => a.Reaches i j ∨ a.Reaches j i := ⟨fun _ _ => Or.symm⟩
  intro o p ho hp
  exact List.Pairwise.forall_of_forall (R := fun i j => a.Reaches i j ∨ a.Reaches j i)
    (fun i _ => Or.inl Relation.ReflTransGen.refl) (hids.imp fun hij => Or.inl hij) (hmem o ho)
    (hmem p hp)

/-! ## The offers of rivals in a chain -/

/-- **The offers are those of the rivals.** -/
theorem mem_allOffers_iff (ha : a.Linked) {o : Offer} :
    o ∈ a.allOffers rule h ↔ a.Rival rule h o := by
  rw [allOffers, List.mem_filterMap]
  constructor
  · rintro ⟨id, hid, ho⟩
    obtain rfl := node_of_offer? ho
    exact ⟨(mem_everyNode_iff ha).mp hid, ho⟩
  · rintro ⟨hreach, ho⟩
    exact ⟨o.node, (mem_everyNode_iff ha).mpr hreach, ho⟩

/-- A rival below another lies within it by lines. -/
theorem Rival.within {o p : Offer} (ho : a.Rival rule h o) (hp : a.Rival rule h p)
    (ha : a.Linked) (hn : a.LineNested) (hop : a.Reaches o.node p.node) :
    o.scope.firstLine ≤ p.scope.firstLine ∧ p.scope.lastLine ≤ o.scope.lastLine := by
  obtain ⟨m, hm, -, hofirst, holast⟩ := exists_node_of_offer? ho.2
  obtain ⟨n, hnode, -, hpfirst, hplast⟩ := exists_node_of_offer? hp.2
  rw [hofirst, holast, hpfirst, hplast]
  exact hn.within ha ho.1 hop hm hnode

/-- A rival below another is no larger. -/
theorem Rival.extent_le {o p : Offer} (ho : a.Rival rule h o) (hp : a.Rival rule h p)
    (ha : a.Linked) (hn : a.LineNested) (hop : a.Reaches o.node p.node) :
    p.extent ≤ o.extent := by
  obtain ⟨hfirst, hlast⟩ := ho.within hp ha hn hop
  simp only [UInt32.le_iff_toNat_le] at hfirst hlast
  simp only [Offer.extent, Scope.extent]
  omega

/-- **Rivals in a chain are offered outermost first.** -/
theorem Chained.pairwise_allOffers (hc : a.Chained rule h) (ha : a.Linked) :
    (a.allOffers rule h).Pairwise fun o p => a.Reaches o.node p.node := by
  have hpre := pairwise_listing ha (fun _ => true) ha.grounded_root
  refine List.pairwise_filterMap.mpr (hpre.imp_of_mem fun {i j} hi hj hij o ho p hp => ?_)
  obtain rfl := node_of_offer? ho
  obtain rfl := node_of_offer? hp
  exact (hc o p ⟨(mem_everyNode_iff ha).mp hi, ho⟩ ⟨(mem_everyNode_iff ha).mp hj, hp⟩).resolve_right
    hij

/-- On a nested arena rivals in a chain never grow from one to the next. -/
theorem Chained.pairwise_extent (hc : a.Chained rule h) (ha : a.Linked) (hn : a.LineNested) :
    (a.allOffers rule h).Pairwise fun o p => p.extent ≤ o.extent :=
  (hc.pairwise_allOffers ha).imp_of_mem fun ho hp hop =>
    ((mem_allOffers_iff ha).mp ho).extent_le ((mem_allOffers_iff ha).mp hp) ha hn hop

/-- On a nested arena the scope of a hunk is the pick among the offers of all rivals for the hunk in
order. -/
theorem scopeOf?_eq_pick_ordered (ha : a.Linked) (hn : a.LineNested) :
    a.scopeOf? rule h =
      (pick (sinceLast (Offer.isLocal a) (a.allOffers rule h.ordered))).map Offer.scope := by
  rw [scopeOf?_eq_pick_offers ha, offers_eq_allOffers_ordered hn ha]

theorem scopeOf?_eq_pick_allOffers (ha : a.Linked) (hn : a.LineNested) (hh : h.first ≤ h.last) :
    a.scopeOf? rule h =
      (pick (sinceLast (Offer.isLocal a) (a.allOffers rule h))).map Offer.scope := by
  rw [scopeOf?_eq_pick_ordered ha hn, Hunk.ordered_of_le hh]

/-- **The pick among rivals in a chain** is the innermost favoured one of the smallest, or, when
none of these is favoured, the outermost of them. -/
theorem Chained.pick_spec (hc : a.Chained rule h) (ha : a.Linked) (hn : a.LineNested) {w : Offer}
    (hw : pick (sinceLast (Offer.isLocal a) (a.allOffers rule h)) = some w) :
    a.Rival rule h w ∧ (∀ p, a.Rival rule h p → w.extent ≤ p.extent) ∧
      ((w.Favoured a ∧ ∀ p, a.Rival rule h p → p.extent = w.extent → p.Favoured a →
          a.Reaches p.node w.node) ∨
        ((∀ p, a.Rival rule h p → p.extent = w.extent → ¬ p.Favoured a) ∧
          ∀ p, a.Rival rule h p → p.extent = w.extent → a.Reaches w.node p.node)) := by
  have hrival : ∀ o, o ∈ a.allOffers rule h ↔ a.Rival rule h o := fun o => mem_allOffers_iff ha
  obtain ⟨before, after, hsm, hafter, hfirst⟩ := pick_of_shrinking (hc.pairwise_extent ha hn) hw
  have hws : w ∈ smallest (a.allOffers rule h) :=
    hsm ▸ List.mem_append_right before List.mem_cons_self
  obtain ⟨hmem, hmin⟩ := mem_smallest_iff.mp hws
  -- The smallest rivals, outermost first: those before the pick, the pick, those after it.
  have hdepth : (before ++ w :: after).Pairwise fun o p => a.Reaches o.node p.node :=
    hsm ▸ (hc.pairwise_allOffers ha).sublist List.filter_sublist
  have hsame : ∀ p, a.Rival rule h p → p.extent = w.extent → p ∈ before ++ w :: after :=
    fun p hp hpw => hsm ▸ mem_smallest_iff.mpr ⟨(hrival p).mpr hp, fun q hq => hpw ▸ hmin q hq⟩
  refine ⟨(hrival w).mp hmem, fun p hp => hmin p ((hrival p).mpr hp), ?_⟩
  by_cases hfav : w.Favoured a
  · refine Or.inl ⟨hfav, fun p hp hpw hpf => ?_⟩
    rcases List.mem_append.mp (hsame p hp hpw) with hb | hb
    · exact (List.pairwise_append.mp hdepth).2.2 p hb w List.mem_cons_self
    · rcases List.mem_cons.mp hb with rfl | hb
      · exact Relation.ReflTransGen.refl
      · exact absurd hpf (hafter p hb)
  · obtain rfl := hfirst.resolve_left hfav
    refine Or.inr ⟨fun p hp hpw hpf => ?_, fun p hp hpw => ?_⟩
    · rcases List.mem_cons.mp (hsame p hp hpw) with rfl | hb
      · exact hfav hpf
      · exact hafter p hb hpf
    · rcases List.mem_cons.mp (hsame p hp hpw) with rfl | hb
      · exact Relation.ReflTransGen.refl
      · exact (List.pairwise_cons.mp hdepth).1 p hb

/-- **The scope of a hunk is that of its smallest rival**, on a nested arena where the rivals stand
one above the other. There is one as soon as there is a rival. Of the smallest rivals it is the
innermost favoured one, or, when none of them is favoured, the outermost. -/
theorem scopeOf?_smallest (ha : a.Built) (hn : a.LineNested) (hh : h.first ≤ h.last)
    (hc : a.Chained rule h) :
    (a.scopeOf? rule h = none ↔ ∀ o, ¬ a.Rival rule h o) ∧
      ∀ s, a.scopeOf? rule h = some s → ∃ w, a.Rival rule h w ∧ w.scope = s ∧
        (∀ p, a.Rival rule h p → w.extent ≤ p.extent) ∧
        ((w.Favoured a ∧ ∀ p, a.Rival rule h p → p.extent = w.extent → p.Favoured a →
            a.Reaches p.node w.node) ∨
          ((∀ p, a.Rival rule h p → p.extent = w.extent → ¬ p.Favoured a) ∧
            ∀ p, a.Rival rule h p → p.extent = w.extent → a.Reaches w.node p.node)) := by
  rw [scopeOf?_eq_pick_allOffers ha.linked hn hh]
  constructor
  · rw [Option.map_eq_none_iff, pick_eq_none_iff, sinceLast_eq_nil_iff,
      List.eq_nil_iff_forall_not_mem]
    exact forall_congr' fun o => not_congr (mem_allOffers_iff ha.linked)
  · intro s hs
    obtain ⟨w, hw, hws⟩ := Option.map_eq_some_iff.mp hs
    obtain ⟨hrival, hmin, hties⟩ := hc.pick_spec ha.linked hn hw
    exact ⟨w, hrival, hws, hmin, hties⟩

/-- On line 12 of the sample there are three rivals: a function, a class in it, and a branch in
the class. -/
theorem chained_sample : Sample.arena.Chained .rowOfIn ⟨12, 12⟩ := by
  have h6 : Sample.arena.Reaches 1 6 :=
    (Relation.ReflTransGen.single (show 3 ∈ Sample.arena.childrenOf 1 by decide)).tail
      (show 6 ∈ Sample.arena.childrenOf 3 by decide)
  have h17 : Sample.arena.Reaches 6 17 :=
    (Relation.ReflTransGen.single (show 16 ∈ Sample.arena.childrenOf 6 by decide)).tail
      (show 17 ∈ Sample.arena.childrenOf 16 by decide)
  have h1 : Sample.arena.Reaches 1 17 := h6.trans h17
  exact chained_of_pairwise [1, 6, 17] (by simp [h6, h17, h1]) (by decide)

/-- The class and the branch on line 12 are as small as each other, and the branch is within. -/
theorem scopeOf?_smallest_sample :
    ∃ w, Sample.arena.Rival .rowOfIn ⟨12, 12⟩ w ∧
      w.scope = ⟨.branch, "if x>1", 12, 12⟩ ∧
      ∀ p, Sample.arena.Rival .rowOfIn ⟨12, 12⟩ p → w.extent ≤ p.extent := by
  obtain ⟨w, hw, hs, hmin, -⟩ :=
    (scopeOf?_smallest (a := Sample.arena) (Sample.built_grown _ _ _) lineNested_sample
      (show (12 : UInt32) ≤ 12 by decide) chained_sample).2 _
      (show Sample.arena.scopeOf? .rowOfIn ⟨12, 12⟩ = some ⟨.branch, "if x>1", 12, 12⟩ by decide)
  exact ⟨w, hw, hs, hmin⟩

end Arena

end HunkScope
