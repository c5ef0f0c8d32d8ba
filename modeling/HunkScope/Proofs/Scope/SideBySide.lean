import HunkScope.Proofs.Arena.Flagged
import HunkScope.Proofs.Arena.Matching
import HunkScope.Scope.Selection

/-!
# Two searches side by side

Searches of matching arenas visit matching nodes. At each of them a search does one of three things:
it passes over the node, it weighs the contender of the node, or it goes on as it was. So a relation
between two searches holds all along when passing and weighing keep it, provided that matching nodes
lie to the hunks in the same way and have related contenders.

In the relations that come up, one search is the other with its scopes and events changed
(`Search.image`). Such a relation is kept when contenders win before and after the change alike.

Searches for mistakes ask less of a node: they end at matching nodes when the same are flagged.

Headlines:
* `Search.image_pass`, `Search.image_weigh`: what a changed search passes over and weighs.
* **`Arena.Matches.search_keeps`**: searches side by side stay related.
* `Arena.Matches.firstFault?_eq`: faults match.
-/

namespace HunkScope

/-! ## Searches with other answers -/

namespace Search

/-- The search with its scopes and its events changed. -/
def image (scope : Scope → Scope) (event : Event → Event) (s : Search) : Search :=
  ⟨s.best.map scope, s.log.map event⟩

variable {scope : Scope → Scope} {event : Event → Event} {node node' : Nat}

theorem image_start : start.image scope event = start := by
  simp only [image, start, Option.map_none, List.map_toArray, List.map_nil]

theorem image_pass {kind : String} (hevent : event (.pruned node kind) = .pruned node' kind)
    (s : Search) :
    (s.image scope event).pass node' kind = (s.pass node kind).image scope event := by
  simp only [image, pass, Array.map_push, hevent]

/-- **A changed search weighs a changed contender** as the search weighs the contender, when the one
wins as the other does. -/
theorem image_weigh {c d : Contender} {s : Search} (hscope : scope c.scope = d.scope)
    (hevent : event (.accepted node c.scope) = .accepted node' d.scope)
    (hbeats : d.beats (s.best.map scope) = c.beats s.best) :
    (s.image scope event).weigh node' d = (s.weigh node c).image scope event := by
  have hbeats' : d.beats (s.image scope event).best = c.beats s.best := hbeats
  unfold weigh
  rw [hbeats']
  by_cases hb : c.beats s.best = true
  · simp only [if_pos hb, image, Array.map_push, Option.map_some, hscope, hevent]
  · simp only [if_neg hb]

end Search

/-! ## Side by side -/

/-- Contenders are related when the second is made of the first, and so related to it. -/
theorem Contender.rel_of_eq_map {x y : Option Contender} {g : Contender → Contender}
    {Q : Contender → Contender → Prop} (hy : y = x.map g)
    (hg : ∀ c, x = some c → Q c (g c)) : Option.Rel Q x y := by
  subst hy
  cases x with
  | none => exact .none
  | some c => exact .some (hg c rfl)

theorem Contender.rel_of_eq {x y : Option Contender} (hxy : y = x) :
    Option.Rel (fun c d => d = c) x y :=
  rel_of_eq_map (g := id) (by rw [hxy, Option.map_id, id]) fun _ _ => rfl

/-- **Searches side by side stay related**, when passing over a node and weighing contenders keep
the relation. -/
theorem Arena.Matches.search_keeps {f : Nat → Nat} {a b : Arena} (hf : Matches f a b)
    (ha : a.Linked) (hb : b.Linked) {rule : LoopRule} {h h' : Hunk}
    {Q : Contender → Contender → Prop} {R : Search → Search → Prop}
    (hnode : ∀ i n m, a.Reaches rootId i → a.node? i = some n → b.node? (f i) = some m →
      m.kind = n.kind ∧ m.clearOf h' = n.clearOf h ∧ m.covers h' = n.covers h)
    (hcontender : ∀ i, a.Reaches rootId i →
      Option.Rel Q (a.contender? rule i) (b.contender? rule (f i)))
    (hstart : R .start .start)
    (hpass : ∀ i kind s t, R s t → R (s.pass i kind) (t.pass (f i) kind))
    (hweigh : ∀ i c d s t, Q c d → R s t → R (s.weigh i c) (t.weigh (f i) d)) :
    R (a.search rule h) (b.search rule h') := by
  refine hf.walk_keeps ha hb (fun i n m s t hi hn hm hst => ?_) hstart
  obtain ⟨hkind, hclear, hcovers⟩ := hnode i n m hi hn hm
  have hrel := hcontender i hi
  simp only [Search.visit, Search.consider, hkind, hclear, hcovers]
  by_cases hc : n.clearOf h = true
  · simp only [if_pos hc, true_and]
    exact hpass i n.kind s t hst
  simp only [if_neg hc, true_and]
  by_cases hcov : n.covers h = true
  · simp only [if_pos hcov]
    generalize a.contender? rule i = x, b.contender? rule (f i) = y at hrel
    cases hrel with
    | none => exact hst
    | some hq => exact hweigh i _ _ s t hq hst
  · simp only [if_neg hcov]
    exact hst

/-- **Faults match**, when matching nodes are flagged alike and start at places that match. -/
theorem Arena.Matches.firstFault?_eq {f : Nat → Nat} {a b : Arena} (hf : Matches f a b)
    (ha : a.Linked) (hb : b.Linked) {g : FaultSite → FaultSite}
    (hnode : ∀ i n m, a.Reaches rootId i → a.node? i = some n → b.node? (f i) = some m →
      m.isFlagged = n.isFlagged ∧ m.site = g n.site) :
    b.firstFault? = a.firstFault?.map fun fault => (f fault.1, g fault.2) := by
  have hv : Follows f (Option.map f) a b seekFlagged seekFlagged := by
    intro i n m s hi hn hm
    simp only [seekFlagged, (hnode i n m hi hn hm).1]
    by_cases hflag : n.isFlagged = true
    · simp only [if_pos hflag, Option.map_some]
    · simp only [if_neg hflag]
  have hfirst : b.firstFlagged? rootId = (a.firstFlagged? rootId).map f := hf.walk_eq ha hb hv none
  rw [firstFault?, firstFault?, hfirst]
  cases hfound : a.firstFlagged? rootId with
  | none => rfl
  | some i =>
    have hi := reaches_of_firstFlagged? ha ha.grounded_root hfound
    obtain ⟨n, hn⟩ := (ha.grounded_of_reaches hi).exists_node
    obtain ⟨m, hm⟩ := (hb.grounded_of_reaches (hf.reaches hi)).exists_node
    simp only [Option.map_some, Option.bind_eq_bind, Option.bind_some, hn, hm, Option.pure_def,
      (hnode i n m hi hn hm).2]

end HunkScope
