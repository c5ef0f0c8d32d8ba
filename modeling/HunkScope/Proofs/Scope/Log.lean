import HunkScope.Proofs.Scope.RunningBest
import Mathlib.Data.List.Chain

/-!
# What the log of a search tells

A search notes the contenders it takes and the nodes it passes over, as it comes to them. The two
kinds of events are read apart here: the contenders taken, each with its node (`Arena.accepted`),
and the nodes passed over (`Arena.pruned`).

* `takers`: of some offers those that take the place of the best scope, in turn.
* `Supersedes`: why one scope takes the place of another.

Headlines:
* `after_of_clear`, `after_of_overlaps`: what one visit does to a search.
* `contendAll_eq_getLast?`: the running best is the last taker, if there is one.
* `isChain_takers`: every taker supersedes the one before.
* `accepted_eq_takers`, `pruned_eq_filter`: the log notes the takers among the offers, and the
  visited nodes that are clear of the hunk.
* **`scopeLog_explains`**: the log explains the answer, and shows what was not looked at.
-/

namespace HunkScope

/-- The node and the scope of a contender that was taken. -/
def Event.accepted? : Event → Option (Nat × Scope)
  | accepted node scope => some (node, scope)
  | pruned _ _ => none
  | fault _ _ => none

/-- The node that was passed over. -/
def Event.pruned? : Event → Option Nat
  | accepted _ _ => none
  | pruned node _ => some node
  | fault _ _ => none

namespace Search

/-- The contenders that a search has taken up to now, each with its node. -/
def acceptances (s : Search) : List (Nat × Scope) := s.log.toList.filterMap Event.accepted?

/-- The nodes that a search has passed over up to now. -/
def prunings (s : Search) : List Nat := s.log.toList.filterMap Event.pruned?

theorem acceptances_weigh (s : Search) (node : Nat) (c : Contender) :
    (s.weigh node c).acceptances =
      s.acceptances ++ if c.beats s.best then [(node, c.scope)] else [] := by
  unfold weigh acceptances
  by_cases hb : c.beats s.best = true
  · rw [if_pos hb, if_pos hb, Array.toList_push, List.filterMap_append]
    rfl
  · rw [if_neg hb, if_neg hb, List.append_nil]

theorem prunings_weigh (s : Search) (node : Nat) (c : Contender) :
    (s.weigh node c).prunings = s.prunings := by
  unfold weigh prunings
  split
  · rw [Array.toList_push, List.filterMap_append]
    exact List.append_nil _
  · rfl

theorem acceptances_pass (s : Search) (node : Nat) (kind : String) :
    (s.pass node kind).acceptances = s.acceptances := by
  rw [acceptances, pass, Array.toList_push, List.filterMap_append]
  exact List.append_nil _

theorem prunings_pass (s : Search) (node : Nat) (kind : String) :
    (s.pass node kind).prunings = s.prunings ++ [node] := by
  rw [prunings, pass, Array.toList_push, List.filterMap_append]
  rfl

end Search

namespace Arena

/-- The contenders that a search for the scope of a hunk takes, in order, each with its node. -/
def accepted (a : Arena) (rule : LoopRule) (h : Hunk) : List (Nat × Scope) :=
  (a.scopeLog rule h).filterMap Event.accepted?

/-- The nodes that a search for the scope of a hunk passes over, in order. -/
def pruned (a : Arena) (rule : LoopRule) (h : Hunk) : List Nat :=
  (a.scopeLog rule h).filterMap Event.pruned?

/-- The node of an id is clear of a hunk. -/
def isClear (a : Arena) (h : Hunk) (id : Nat) : Bool := (a.node? id).any fun n => n.clearOf h

end Arena

/-- The node and the scope of an offer, as the log notes them. -/
def Offer.entry (o : Offer) : Nat × Scope := (o.node, o.scope)

/-! ## Who takes the place of the best scope -/

/-- The offers that take the place of the best scope, in turn. -/
def takers (best : Option Scope) : List Offer → List Offer
  | [] => []
  | o :: os => if o.contender.beats best then o :: takers (some o.scope) os else takers best os

/-- A scope, found at a node, takes the place of another: it is smaller, a branch as small, or a
function defined in the body of another. -/
def Supersedes (a : Arena) (older : Scope) (newer : Nat × Scope) : Prop :=
  newer.2.extent < older.extent ∨
    (newer.2.construct = .branch ∧ newer.2.extent = older.extent) ∨
    (newer.2.construct = .function ∧ a.isLocalFunction newer.1 = true)

/-- **The running best is the last taker**, or what it was when there is none. -/
theorem contendAll_eq_getLast? (os : List Offer) (best : Option Scope) :
    contendAll best os = ((takers best os).getLast?.map Offer.scope).or best := by
  induction os generalizing best with
  | nil => rfl
  | cons o os ih =>
    rw [contendAll, List.foldl_cons, Contender.contend, takers, ← contendAll, ih]
    by_cases hb : o.contender.beats best = true
    · rw [if_pos hb, if_pos hb, List.getLast?_cons, ← Offer.scope]
      cases (takers (some o.scope) os).getLast? <;> rfl
    · rw [if_neg hb, if_neg hb]

theorem mem_of_mem_takers {os : List Offer} {best : Option Scope} {o : Offer}
    (ho : o ∈ takers best os) : o ∈ os := by
  induction os generalizing best with
  | nil => exact ho
  | cons p os ih =>
    rw [takers] at ho
    split at ho
    · rcases List.mem_cons.mp ho with rfl | ho
      · exact List.mem_cons_self
      · exact List.mem_cons_of_mem p (ih ho)
    · exact List.mem_cons_of_mem p (ih ho)

variable {a : Arena} {rule : LoopRule} {h : Hunk}

/-- An offer that beats a scope supersedes it. -/
theorem Offer.Ranked.supersedes {o : Offer} (ho : o.Ranked a) {best : Scope}
    (hb : o.contender.beats (some best) = true) : Supersedes a best o.entry := by
  rcases (ho.beats_iff best).mp hb with hl | hlt | ⟨hbr, hle⟩
  · rw [Offer.isLocal, Bool.and_eq_true, beq_iff_eq] at hl
    exact Or.inr (Or.inr hl)
  · exact Or.inl hlt
  · rw [Offer.isBranch, beq_iff_eq] at hbr
    rcases Nat.lt_or_eq_of_le hle with hlt | heq
    · exact Or.inl hlt
    · exact Or.inr (Or.inl ⟨hbr, heq⟩)

/-- **Every taker supersedes the one before**, and the first the scope that was best before. -/
theorem isChain_takers {os : List Offer} (hos : ∀ o ∈ os, o.Ranked a) (best : Option Scope) :
    (∀ s, best = some s → ∀ o ∈ (takers best os).head?, Supersedes a s o.entry) ∧
      (takers best os).IsChain fun o p => Supersedes a o.scope p.entry := by
  induction os generalizing best with
  | nil => exact ⟨fun _ _ _ ho => absurd ho (Option.not_mem_none _), List.isChain_nil⟩
  | cons o os ih =>
    have hrest := fun best => ih (fun p hp => hos p (List.mem_cons_of_mem o hp)) best
    rw [takers]
    by_cases hb : o.contender.beats best = true
    · rw [if_pos hb]
      refine ⟨fun s hs p hp => ?_, List.isChain_cons.mpr ?_⟩
      · obtain rfl := Option.some.inj hp
        exact (hos o List.mem_cons_self).supersedes (hs ▸ hb)
      · exact ⟨(hrest (some o.scope)).1 o.scope rfl, (hrest (some o.scope)).2⟩
    · rw [if_neg hb]
      exact hrest best

/-! ## What the visits note -/

namespace Arena

theorem after_of_clear {id : Nat} {n : Node} (hn : a.node? id = some n)
    (hc : n.clearOf h = true) (s : Search) :
    a.after (Search.visit a rule h) s id = s.pass id n.kind := by
  simp only [after, hn, Search.visit, if_pos hc]

/-- **A visit to a node that is not clear of the hunk** weighs its offer, if it makes one. -/
theorem after_of_overlaps {id : Nat} (hov : a.overlaps h id = true) (s : Search) :
    a.after (Search.visit a rule h) s id =
      match a.offer? rule h id with
      | some o => s.weigh o.node o.contender
      | none => s := by
  obtain ⟨n, hn, hclear⟩ := (Option.any_eq_true _ _).mp hov
  rw [Bool.not_eq_true'] at hclear
  simp only [after, hn, Search.visit, Search.consider, offer?, hclear, Option.any_some,
    Bool.false_eq_true, if_false]
  by_cases hcov : n.covers h = true
  · rw [if_pos hcov, if_pos hcov]
    cases a.contender? rule id <;> rfl
  · rw [if_neg hcov, if_neg hcov]

theorem overlaps_or_isClear {id : Nat} {n : Node} (hn : a.node? id = some n) :
    (a.overlaps h id = true ∧ a.isClear h id = false) ∨
      (a.overlaps h id = false ∧ a.isClear h id = true ∧ n.clearOf h = true) := by
  simp only [overlaps, isClear, hn, Option.any_some]
  cases n.clearOf h <;> simp

/-- **The visits note the takers** among the offers of the nodes that are not clear of the hunk. -/
theorem acceptances_foldl_after (ids : List Nat) (s : Search) :
    (ids.foldl (a.after (Search.visit a rule h)) s).acceptances =
      s.acceptances ++
        (takers s.best ((ids.filter (a.overlaps h)).filterMap (a.offer? rule h))).map
          Offer.entry := by
  induction ids generalizing s with
  | nil => exact (List.append_nil _).symm
  | cons id ids ih =>
    rw [List.foldl_cons, ih, List.filter_cons]
    cases hn : a.node? id with
    | none => simp [after, overlaps, hn]
    | some n =>
      rcases overlaps_or_isClear (h := h) hn with ⟨hov, -⟩ | ⟨hov, -, hclear⟩
      · rw [if_pos hov, after_of_overlaps hov, List.filterMap_cons]
        cases a.offer? rule h id with
        | none => rfl
        | some o =>
          simp only [takers, Search.acceptances_weigh, Search.best_weigh, Contender.contend]
          by_cases hb : o.contender.beats s.best = true
          · simp only [if_pos hb, List.append_assoc]
            rfl
          · simp only [if_neg hb, List.append_nil]
      · rw [hov, after_of_clear hn hclear, Search.acceptances_pass, Search.best_pass]
        rfl

/-- **The visits note the nodes that are clear of the hunk.** -/
theorem prunings_foldl_after (ids : List Nat) (s : Search) :
    (ids.foldl (a.after (Search.visit a rule h)) s).prunings =
      s.prunings ++ ids.filter (a.isClear h) := by
  induction ids generalizing s with
  | nil => exact (List.append_nil _).symm
  | cons id ids ih =>
    rw [List.foldl_cons, ih, List.filter_cons]
    cases hn : a.node? id with
    | none => simp [after, isClear, hn]
    | some n =>
      rcases overlaps_or_isClear (h := h) hn with ⟨hov, hclear⟩ | ⟨-, hclear, hnode⟩
      · rw [hclear, after_of_overlaps hov]
        cases a.offer? rule h id with
        | none => rfl
        | some o =>
          rw [Search.prunings_weigh]
          rfl
      · rw [if_pos hclear, after_of_clear hn hnode, Search.prunings_pass, List.append_assoc,
          List.singleton_append]

/-- The log notes the takers among the offers. -/
theorem accepted_eq_takers (ha : a.Linked) (rule : LoopRule) (h : Hunk) :
    a.accepted rule h = (takers none (a.offers rule h)).map Offer.entry := by
  have hsearch : a.accepted rule h = (a.search rule h).acceptances := rfl
  rw [hsearch, search, walk, walkFrom_eq_foldl ha (entersBy_visit a rule h) ha.grounded_root,
    ← visited_eq_listing ha]
  exact acceptances_foldl_after (a.visited h) Search.start

/-- The log notes the visited nodes that are clear of the hunk. -/
theorem pruned_eq_filter (ha : a.Linked) (rule : LoopRule) (h : Hunk) :
    a.pruned rule h = (a.visited h).filter (a.isClear h) := by
  have hsearch : a.pruned rule h = (a.search rule h).prunings := rfl
  rw [hsearch, search, walk, walkFrom_eq_foldl ha (entersBy_visit a rule h) ha.grounded_root,
    ← visited_eq_listing ha]
  exact prunings_foldl_after (a.visited h) Search.start

/-! ## What was looked at -/

theorem mem_visited_iff (ha : a.Linked) {id : Nat} :
    id ∈ a.visited h ↔ a.Reaches rootId id ∧
      ∀ i, a.Reaches rootId i → a.Reaches i id → i ≠ id → a.overlaps h i = true := by
  rw [visited_eq_listing ha, mem_listing_iff_enters ha ha.grounded_root]
  simp only [overlaps, Option.any_eq_true]

/-- The scope of a search is that of the last contender it took. -/
theorem scopeOf?_eq_getLast?_accepted (ha : a.Linked) (rule : LoopRule) (h : Hunk) :
    a.scopeOf? rule h = (a.accepted rule h).getLast?.map Prod.snd := by
  rw [best_search ha, contendAll_eq_getLast?, accepted_eq_takers ha, List.getLast?_map,
    Option.map_map, Option.or_none]
  rfl

/-- The contenders a search takes are offers it is made. -/
theorem exists_offer_of_mem_accepted (ha : a.Linked) {x : Nat × Scope}
    (hx : x ∈ a.accepted rule h) : ∃ o ∈ a.offers rule h, o.entry = x := by
  rw [accepted_eq_takers ha] at hx
  obtain ⟨o, ho, rfl⟩ := List.mem_map.mp hx
  exact ⟨o, mem_of_mem_takers ho, rfl⟩

/-- **A contender that was taken is the contender of its node.** -/
theorem exists_contender_of_mem_accepted (ha : a.Linked) {x : Nat × Scope}
    (hx : x ∈ a.accepted rule h) : ∃ c, a.contender? rule x.1 = some c ∧ c.scope = x.2 := by
  obtain ⟨o, ho, rfl⟩ := exists_offer_of_mem_accepted ha hx
  obtain ⟨id, -, hoffer⟩ := List.mem_filterMap.mp ho
  obtain ⟨-, c, hc, rfl⟩ := offer?_eq_some_iff.mp hoffer
  exact ⟨c, hc, rfl⟩

/-- What a log tells of a search for the scope of a hunk. -/
structure LogExplains (a : Arena) (rule : LoopRule) (h : Hunk) : Prop where
  /-- There is no scope exactly when no contender was taken. -/
  none_iff : a.scopeOf? rule h = none ↔ a.accepted rule h = []
  /-- The scope is that of the last contender taken. -/
  last : a.scopeOf? rule h = (a.accepted rule h).getLast?.map Prod.snd
  /-- Every contender taken superseded the one before. -/
  chain : (a.accepted rule h).IsChain fun x y => Supersedes a x.2 y
  /-- Each was the contender of its node, with its lines in order. -/
  contended : ∀ x ∈ a.accepted rule h,
    (∃ c, a.contender? rule x.1 = some c ∧ c.scope = x.2) ∧ x.2.firstLine ≤ x.2.lastLine
  /-- The nodes passed over come in the order of a walk. -/
  ordered : (a.pruned rule h).Sublist a.preorder
  /-- They are those clear of the hunk with no node above that is clear of it. -/
  mem_pruned_iff : ∀ id, id ∈ a.pruned rule h ↔ a.Reaches rootId id ∧
    (∃ n, a.node? id = some n ∧ (h.last < n.firstLine ∨ n.lastLine < h.first)) ∧
    ∀ i, a.Reaches rootId i → a.Reaches i id → i ≠ id →
      ∃ n, a.node? i = some n ∧ ¬ (h.last < n.firstLine ∨ n.lastLine < h.first)
  /-- No contender was taken at one of them or below. -/
  apart : ∀ p ∈ a.pruned rule h, ∀ id, a.Reaches p id → ∀ x ∈ a.accepted rule h, x.1 ≠ id

theorem isClear_iff {id : Nat} : a.isClear h id = true ↔
    ∃ n, a.node? id = some n ∧ (h.last < n.firstLine ∨ n.lastLine < h.first) := by
  simp only [isClear, Option.any_eq_true, NodeInfo.clearOf_iff]

theorem overlaps_iff {id : Nat} : a.overlaps h id = true ↔
    ∃ n, a.node? id = some n ∧ ¬ (h.last < n.firstLine ∨ n.lastLine < h.first) := by
  simp only [overlaps, Option.any_eq_true, Bool.not_eq_true', ← Bool.not_eq_true,
    NodeInfo.clearOf_iff]

/-- **The log explains the answer.** The scope is that of the last contender taken; each taken
contender was smaller than the one before, a branch as small, or a local function; and the nodes
passed over are exactly the topmost ones clear of the hunk, below which nothing was taken. -/
theorem scopeLog_explains (ha : a.Built) (rule : LoopRule) (h : Hunk) : a.LogExplains rule h where
  none_iff := by
    rw [scopeOf?_eq_getLast?_accepted ha.linked, Option.map_eq_none_iff,
      List.getLast?_eq_none_iff]
  last := scopeOf?_eq_getLast?_accepted ha.linked rule h
  chain := by
    rw [accepted_eq_takers ha.linked, List.isChain_map]
    exact (isChain_takers (fun o ho => ranked_of_mem_filterMap ho) none).2
  contended := by
    intro x hx
    refine ⟨exists_contender_of_mem_accepted ha.linked hx, ?_⟩
    obtain ⟨o, ho, rfl⟩ := exists_offer_of_mem_accepted ha.linked hx
    obtain ⟨hfirst, hlast⟩ := within_of_mem_offers ho
    exact UInt32.le_trans hfirst.1 hlast.1
  ordered := by
    rw [pruned_eq_filter ha.linked, visited_eq_listing ha.linked, preorder_eq_subtree ha.linked]
    exact List.filter_sublist.trans (listing_sublist ha.linked _ ha.linked.grounded_root)
  mem_pruned_iff := by
    intro id
    rw [pruned_eq_filter ha.linked, List.mem_filter, mem_visited_iff ha.linked, isClear_iff]
    simp only [overlaps_iff]
    exact ⟨fun ⟨⟨hreach, habove⟩, hclear⟩ => ⟨hreach, hclear, habove⟩,
      fun ⟨hreach, hclear, habove⟩ => ⟨⟨hreach, habove⟩, hclear⟩⟩
  apart := by
    intro p hp id hpid x hx hxid
    obtain ⟨o, ho, rfl⟩ := exists_offer_of_mem_accepted ha.linked hx
    obtain ⟨j, hj, hoffer⟩ := List.mem_filterMap.mp ho
    obtain rfl : j = id := (node_of_offer? hoffer).symm.trans hxid
    rw [pruned_eq_filter ha.linked, List.mem_filter] at hp
    obtain ⟨hj, hov⟩ := List.mem_filter.mp hj
    -- The search goes below every node above `j`, and it does not pass over `j`.
    have hovp : a.overlaps h p = true := by
      by_cases hpj : p = j
      · rwa [hpj]
      · have hreach : a.Reaches rootId p := ((mem_visited_iff ha.linked).mp hp.1).1
        exact ((mem_visited_iff ha.linked).mp hj).2 p hreach hpid hpj
    obtain ⟨n, hn, hclear⟩ := isClear_iff.mp hp.2
    obtain ⟨m, hm, hnot⟩ := overlaps_iff.mp hovp
    obtain rfl := Option.some.inj (hn.symm.trans hm)
    exact hnot hclear

/-- At line 3 of the sample the local function `nested` supersedes the smaller method `inner`, and
the branch in `nested` comes last. The class on line 12 is passed over, so the branch in it, which
has id 17, is never taken. -/
theorem scopeLog_explains_sample :
    (Sample.arena.accepted .rowOfIn ⟨3, 3⟩).map Prod.fst = [1, 4, 9, 5, 13] ∧
      Sample.arena.scopeOf? .rowOfIn ⟨3, 3⟩ = some ⟨.branch, "if x>1", 3, 5⟩ ∧
      Sample.arena.pruned .rowOfIn ⟨3, 3⟩ = [2, 7, 11, 6] ∧
      ∀ x ∈ Sample.arena.accepted .rowOfIn ⟨3, 3⟩, x.1 ≠ 17 := by
  have hlog := scopeLog_explains (a := Sample.arena) (Sample.built_grown _ _ _) .rowOfIn ⟨3, 3⟩
  refine ⟨by decide, hlog.last.trans (by decide), by decide, hlog.apart 6 (by decide) 17 ?_⟩
  exact Relation.ReflTransGen.head (b := 16) (by decide) (Relation.ReflTransGen.single (by decide))

end Arena

end HunkScope
