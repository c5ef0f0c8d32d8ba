import HunkScope.Proofs.Arena.Growth
import HunkScope.Proofs.Arena.Preorder
import HunkScope.Scope.Selection
import Mathlib.Data.List.Induction

/-!
# Who wins a search

A search sets one contender after the other against the best scope so far. Three rules meet there:
a function in the body of another always wins, a branch wins ties, anything else must be smaller.
Who is left at the end can be said without the running best.

An `Offer` is a contender with its node. `Arena.offers` lists the offers of a search in the order of
the walk: those of the nodes that it goes below and that cover the hunk. Only the offers since the
last local function count (`sinceLast`). Among the smallest of these the last branch wins, or, when
none is a branch, the first of all (`pick`).

Headlines:
* `best_search`: the best scope of a search is the running best over its offers.
* `foldl_contend_eq_pick`: the running best over any offers is what `pick` says of the offers since
  the last local function.
* **`scopeOf?_eq_pick`**: so the scope of a hunk is.
-/

namespace HunkScope

open Contender (contend)

/-- A contender and the node it stands for. -/
structure Offer where
  node : Nat
  contender : Contender
deriving DecidableEq, Repr

namespace Offer

/-- The scope a hunk has when the offer wins. -/
def scope (o : Offer) : Scope := o.contender.scope

/-- The number of lines of an offer past its first. -/
def extent (o : Offer) : Nat := o.scope.extent

/-- The offer is a branch. -/
def isBranch (o : Offer) : Bool := o.scope.construct == .branch

/-- The offer is a function defined in the body of another. -/
def isLocal (a : Arena) (o : Offer) : Bool :=
  o.scope.construct == .function && a.isLocalFunction o.node

end Offer

/-- The part of a list from the last element that passes a test on; all of it when none does. -/
def sinceLast {α : Type} (test : α → Bool) : List α → List α
  | [] => []
  | x :: xs => if xs.any test then sinceLast test xs else x :: xs

/-- The offers no larger than any of the others. -/
def smallest (os : List Offer) : List Offer :=
  os.filter fun o => os.all fun p => decide (o.extent ≤ p.extent)

/-- Of the smallest offers the last branch, or the first of all when none is a branch. -/
def pick (os : List Offer) : Option Offer :=
  ((smallest os).filter (·.isBranch)).getLast?.or (smallest os).head?

namespace Arena

/-- The node of an id is not clear of a hunk. -/
def overlaps (a : Arena) (h : Hunk) (id : Nat) : Bool := (a.node? id).any fun n => !n.clearOf h

/-- The offer of a node: its contender, when the node covers the hunk and has one. -/
def offer? (a : Arena) (rule : LoopRule) (h : Hunk) (id : Nat) : Option Offer :=
  if (a.node? id).any (·.covers h) then (a.contender? rule id).map (Offer.mk id) else none

/-- The ids a search for the scope of a hunk visits, in its order: it goes below the nodes that are
not clear of the hunk. -/
def visited (a : Arena) (h : Hunk) : List Nat := a.preorderWhere fun n => !n.clearOf h

/-- The offers of a search in its order: those of the visited nodes it does not pass over. -/
def offers (a : Arena) (rule : LoopRule) (h : Hunk) : List Offer :=
  ((a.visited h).filter (a.overlaps h)).filterMap (a.offer? rule h)

end Arena

/-! ## The part since the last one -/

section SinceLast

variable {α : Type} {test : α → Bool}

theorem sinceLast_append_singleton (xs : List α) (x : α) :
    sinceLast test (xs ++ [x]) = if test x then [x] else sinceLast test xs ++ [x] := by
  induction xs with
  | nil => simp [sinceLast]
  | cons y ys ih =>
    simp only [List.cons_append, sinceLast, List.any_append, List.any_cons, List.any_nil,
      Bool.or_false, ih]
    by_cases hx : test x = true
    · simp [hx]
    · by_cases hy : ys.any test = true <;> simp [hx, hy]

theorem sinceLast_eq_nil_iff {xs : List α} : sinceLast test xs = [] ↔ xs = [] := by
  induction xs with
  | nil => simp [sinceLast]
  | cons y ys ih =>
    simp only [sinceLast]
    by_cases hy : ys.any test = true
    · have hne : ys ≠ [] := by rintro rfl; simp at hy
      simp [hy, ih, hne]
    · simp [hy]

/-- What was left out ends where an element passes the test, and no later element passes it. -/
theorem exists_append_sinceLast (test : α → Bool) (xs : List α) :
    ∃ older, xs = older ++ sinceLast test xs ∧ (∀ x ∈ (sinceLast test xs).tail, test x = false) ∧
      (older = [] ∨ ∃ x ∈ (sinceLast test xs).head?, test x = true) := by
  induction xs with
  | nil => exact ⟨[], rfl, by simp [sinceLast], Or.inl rfl⟩
  | cons y ys ih =>
    obtain ⟨older, hys, htail, hhead⟩ := ih
    by_cases hy : ys.any test = true
    · refine ⟨y :: older, ?_, ?_, Or.inr ?_⟩
      · rw [sinceLast, if_pos hy, List.cons_append, ← hys]
      · rwa [sinceLast, if_pos hy]
      · rw [sinceLast, if_pos hy]
        rcases hhead with rfl | h
        · -- Nothing was left out of `ys`, so its one passing element is its first.
          rw [List.nil_append] at hys
          rw [← hys] at htail ⊢
          cases ys with
          | nil => simp at hy
          | cons z zs =>
            refine ⟨z, rfl, ?_⟩
            obtain ⟨x, hx, hpx⟩ := List.any_eq_true.mp hy
            rcases List.mem_cons.mp hx with rfl | hx
            · exact hpx
            · rw [htail x hx] at hpx
              cases hpx
        · exact h
    · refine ⟨[], by rw [sinceLast, if_neg hy, List.nil_append], fun x hx => ?_, Or.inl rfl⟩
      rw [sinceLast, if_neg hy] at hx
      by_contra hpx
      exact hy (List.any_eq_true.mpr ⟨x, hx, by simpa using hpx⟩)

end SinceLast

/-! ## The pick among some offers -/

theorem mem_smallest_iff {os : List Offer} {o : Offer} :
    o ∈ smallest os ↔ o ∈ os ∧ ∀ p ∈ os, o.extent ≤ p.extent := by
  simp only [smallest, List.mem_filter, List.all_eq_true, decide_eq_true_eq]

/-- The smallest offers are those as small as one of them. -/
theorem smallest_eq_filter {os : List Offer} {b : Offer} (hb : b ∈ smallest os) :
    smallest os = os.filter fun o => o.extent == b.extent := by
  obtain ⟨hbm, hmin⟩ := mem_smallest_iff.mp hb
  refine List.filter_congr fun o ho => ?_
  rw [Bool.eq_iff_iff, List.all_eq_true, beq_iff_eq]
  simp only [decide_eq_true_eq]
  constructor
  · intro h
    exact Nat.le_antisymm (h b hbm) (hmin o ho)
  · intro h p hp
    rw [h]
    exact hmin p hp

/-- One more offer leaves only itself, joins the smallest ones, or changes nothing of them. -/
theorem smallest_append_singleton {os : List Offer} {b : Offer} (hb : b ∈ smallest os)
    (o : Offer) :
    smallest (os ++ [o]) =
      if o.extent < b.extent then [o]
      else smallest os ++ if o.extent = b.extent then [o] else [] := by
  obtain ⟨hbm, hmin⟩ := mem_smallest_iff.mp hb
  by_cases hlt : o.extent < b.extent
  · have ho : o ∈ smallest (os ++ [o]) := by
      refine mem_smallest_iff.mpr ⟨by simp, fun p hp => ?_⟩
      rcases List.mem_append.mp hp with hp | hp
      · have := hmin p hp
        omega
      · obtain rfl := List.mem_singleton.mp hp
        exact Nat.le_refl _
    rw [if_pos hlt, smallest_eq_filter ho, List.filter_append, List.filter_eq_nil_iff.mpr ?_]
    · simp
    · intro p hp
      have := hmin p hp
      rw [beq_iff_eq]
      omega
  · have hb' : b ∈ smallest (os ++ [o]) := by
      refine mem_smallest_iff.mpr ⟨List.mem_append_left _ hbm, fun p hp => ?_⟩
      rcases List.mem_append.mp hp with hp | hp
      · exact hmin p hp
      · rw [List.mem_singleton.mp hp]
        omega
    rw [if_neg hlt, smallest_eq_filter hb', smallest_eq_filter hb, List.filter_append]
    by_cases heq : o.extent = b.extent <;> simp [heq]

/-- There is a smallest offer among any. -/
theorem smallest_ne_nil {os : List Offer} (h : os ≠ []) : smallest os ≠ [] := by
  induction os using List.reverseRecOn with
  | nil => exact absurd rfl h
  | append_singleton os o ih =>
    by_cases hos : os = []
    · simp [hos, smallest]
    · obtain ⟨b, hb⟩ := List.exists_mem_of_ne_nil _ (ih hos)
      rw [smallest_append_singleton hb]
      split
      · exact List.cons_ne_nil o []
      · exact List.append_ne_nil_of_left_ne_nil (ih hos) _

theorem pick_nil : pick [] = none := rfl

theorem pick_singleton (o : Offer) : pick [o] = some o := by
  by_cases hbr : o.isBranch = true <;> simp [pick, smallest, hbr]

/-- **The pick is one of the smallest offers**: a branch with no branch after it among them, or,
when they hold no branch, their first. -/
theorem pick_spec {os : List Offer} {o : Offer} (h : pick os = some o) :
    (o.isBranch = true ∧ ∃ before after, smallest os = before ++ o :: after ∧
        ∀ p ∈ after, p.isBranch = false) ∨
      ((∀ p ∈ smallest os, p.isBranch = false) ∧ ∃ after, smallest os = o :: after) := by
  unfold pick at h
  cases hlast : ((smallest os).filter (·.isBranch)).getLast? with
  | some b =>
    rw [hlast, Option.some_or, Option.some.injEq] at h
    subst h
    obtain ⟨init, hinit⟩ := List.getLast?_eq_some_iff.mp hlast
    obtain ⟨before, after, hsplit, hbefore, hafter⟩ := List.filter_eq_append_iff.mp hinit
    obtain ⟨gap, rest, rfl, hgap, hb, hrest⟩ := List.filter_eq_cons_iff.mp hafter
    refine Or.inl ⟨hb, before ++ gap, rest, by rw [hsplit, List.append_assoc], fun p hp => ?_⟩
    simpa using List.filter_eq_nil_iff.mp hrest p hp
  | none =>
    rw [hlast, Option.none_or] at h
    refine Or.inr ⟨fun p hp => ?_, List.head?_eq_some_iff.mp h⟩
    simpa using List.filter_eq_nil_iff.mp (List.getLast?_eq_none_iff.mp hlast) p hp

theorem mem_smallest_of_pick {os : List Offer} {o : Offer} (h : pick os = some o) :
    o ∈ smallest os := by
  rcases pick_spec h with ⟨-, before, after, hs, -⟩ | ⟨-, after, hs⟩
  · rw [hs]
    exact List.mem_append_right before List.mem_cons_self
  · rw [hs]
    exact List.mem_cons_self

/-- Whoever is picked was offered. -/
theorem mem_of_pick_sinceLast {test : Offer → Bool} {os : List Offer} {w : Offer}
    (hw : pick (sinceLast test os) = some w) : w ∈ os := by
  obtain ⟨older, hos, -, -⟩ := exists_append_sinceLast test os
  rw [hos]
  exact List.mem_append_right older (mem_smallest_iff.mp (mem_smallest_of_pick hw)).1

theorem pick_eq_none_iff {os : List Offer} : pick os = none ↔ os = [] := by
  refine ⟨fun h => ?_, fun h => by rw [h, pick_nil]⟩
  rw [pick, Option.or_eq_none_iff, List.head?_eq_none_iff] at h
  by_contra hos
  exact smallest_ne_nil hos h.2

/-- **One more offer is picked when it is smaller than the pick, or a branch no larger.** -/
theorem pick_append_singleton {os : List Offer} {b : Offer} (hb : pick os = some b) (o : Offer) :
    pick (os ++ [o]) =
      if o.extent < b.extent ∨ (o.isBranch = true ∧ o.extent ≤ b.extent) then some o
      else some b := by
  have hmem := mem_smallest_of_pick hb
  rw [pick, smallest_append_singleton hmem]
  by_cases hlt : o.extent < b.extent
  · rw [if_pos hlt, if_pos (Or.inl hlt)]
    by_cases hbr : o.isBranch = true <;> simp [hbr]
  · rw [if_neg hlt]
    by_cases heq : o.extent = b.extent
    · rw [if_pos heq, List.filter_append]
      by_cases hbr : o.isBranch = true
      · rw [if_pos (Or.inr ⟨hbr, Nat.le_of_eq heq⟩)]
        simp [hbr]
      · rw [if_neg (by tauto), ← hb, pick]
        have hne : smallest os ≠ [] := List.ne_nil_of_mem hmem
        rw [List.filter_cons_of_neg hbr, List.filter_nil, List.append_nil,
          List.head?_append_of_ne_nil _ hne]
    · rw [if_neg heq, List.append_nil, if_neg (by omega)]
      exact hb

/-! ## The running best is the pick -/

/-- The best scope after some offers are set against it in turn. -/
def contendAll (best : Option Scope) (os : List Offer) : Option Scope :=
  os.foldl (fun best o => contend best o.contender) best

/-- An offer takes its turn the way its node and construct say. -/
def Offer.Ranked (a : Arena) (o : Offer) : Prop :=
  o.contender.precedence = a.precedenceOf o.node o.scope.construct

variable {a : Arena} {rule : LoopRule} {h : Hunk}

theorem Offer.Ranked.beats_iff {o : Offer} (ho : o.Ranked a) (best : Scope) :
    o.contender.beats (some best) = true ↔ o.isLocal a = true ∨
      o.extent < best.extent ∨ (o.isBranch = true ∧ o.extent ≤ best.extent) := by
  unfold Offer.Ranked at ho
  simp only [Contender.beats, ho, Arena.precedenceOf, Offer.isLocal, Offer.isBranch, Offer.extent]
  -- The construct says which of the three rules applies; only a function asks for its place.
  cases o.scope.construct with
  | function => cases a.isLocalFunction o.node <;> simp [Offer.scope]
  | branch => simp [Offer.scope]; omega
  | classBody => simp [Offer.scope]
  | forLoop => simp [Offer.scope]
  | whileLoop => simp [Offer.scope]

/-- **The running best is the pick among the offers since the last local function.** -/
theorem foldl_contend_eq_pick {os : List Offer} (hos : ∀ o ∈ os, o.Ranked a) :
    contendAll none os = (pick (sinceLast (Offer.isLocal a) os)).map Offer.scope := by
  induction os using List.reverseRecOn with
  | nil => rfl
  | append_singleton os o ih =>
    have ho : o.Ranked a := hos o (by simp)
    have hb := ih fun p hp => hos p (List.mem_append_left _ hp)
    rw [contendAll] at hb ⊢
    rw [List.foldl_append, List.foldl_cons, List.foldl_nil, hb, sinceLast_append_singleton, contend]
    cases hp : pick (sinceLast (Offer.isLocal a) os) with
    | none =>
      -- Nothing was offered before, so the offer is the only one.
      rw [Option.map_none, Contender.beats_none, if_pos rfl, pick_eq_none_iff.mp hp,
        List.nil_append, ite_self, pick_singleton]
      rfl
    | some b =>
      rw [Option.map_some]
      by_cases hl : o.isLocal a = true
      · rw [if_pos hl, if_pos ((ho.beats_iff b.scope).mpr (Or.inl hl)), pick_singleton]
        rfl
      · have hiff : o.contender.beats (some b.scope) = true ↔
            o.extent < b.extent ∨ (o.isBranch = true ∧ o.extent ≤ b.extent) :=
          (ho.beats_iff b.scope).trans (or_iff_right hl)
        rw [if_neg hl, pick_append_singleton hp]
        by_cases hbt : o.contender.beats (some b.scope) = true
        · rw [if_pos hbt, if_pos (hiff.mp hbt)]
          rfl
        · rw [if_neg hbt, if_neg fun hlt => hbt (hiff.mpr hlt)]
          rfl

/-! ## A search is the running best over its offers -/

namespace Arena

theorem offer?_eq_some_iff {id : Nat} {o : Offer} :
    a.offer? rule h id = some o ↔ (∃ n, a.node? id = some n ∧ n.covers h = true) ∧
      ∃ c, a.contender? rule id = some c ∧ o = ⟨id, c⟩ := by
  unfold offer?
  by_cases hc : (a.node? id).any (·.covers h) = true
  · rw [if_pos hc, Option.map_eq_some_iff]
    refine ⟨fun ⟨c, hcont, ho⟩ => ⟨?_, c, hcont, ho.symm⟩, fun ⟨_, c, hcont, ho⟩ =>
      ⟨c, hcont, ho.symm⟩⟩
    exact (Option.any_eq_true _ _).mp hc
  · rw [if_neg hc]
    simp only [reduceCtorEq, false_iff]
    exact fun hn => hc ((Option.any_eq_true _ _).mpr hn.1)

theorem node_of_offer? {id : Nat} {o : Offer} (ho : a.offer? rule h id = some o) :
    o.node = id := by
  obtain ⟨-, c, -, rfl⟩ := offer?_eq_some_iff.mp ho
  rfl

/-- **An offer has the lines of its node**, and the node covers the hunk. -/
theorem exists_node_of_offer? {id : Nat} {o : Offer} (ho : a.offer? rule h id = some o) :
    ∃ n, a.node? id = some n ∧ n.covers h = true ∧ o.scope.firstLine = n.firstLine ∧
      o.scope.lastLine = n.lastLine := by
  obtain ⟨⟨n, hn, hcov⟩, c, hc, rfl⟩ := offer?_eq_some_iff.mp ho
  obtain ⟨m, construct, name, hm, -, -, rfl⟩ := contender?_eq_some_iff.mp hc
  obtain rfl := Option.some.inj (hn.symm.trans hm)
  exact ⟨n, hn, hcov, rfl, rfl⟩

/-- **An offer takes its turn the way its node says.** -/
theorem ranked_of_offer? {id : Nat} {o : Offer} (ho : a.offer? rule h id = some o) :
    o.Ranked a := by
  obtain ⟨-, c, hc, rfl⟩ := offer?_eq_some_iff.mp ho
  obtain ⟨n, k, name, -, -, -, rfl⟩ := contender?_eq_some_iff.mp hc
  rfl

theorem ranked_of_mem_filterMap {ids : List Nat} {o : Offer}
    (ho : o ∈ ids.filterMap (a.offer? rule h)) : o.Ranked a := by
  obtain ⟨id, -, ho⟩ := List.mem_filterMap.mp ho
  exact ranked_of_offer? ho

/-- **An offer has both ends of the hunk within its lines**, in whatever order they are. -/
theorem within_of_mem_offers {o : Offer} (ho : o ∈ a.offers rule h) :
    (o.scope.firstLine ≤ h.first ∧ o.scope.firstLine ≤ h.last) ∧
      h.first ≤ o.scope.lastLine ∧ h.last ≤ o.scope.lastLine := by
  obtain ⟨id, hid, hoffer⟩ := List.mem_filterMap.mp ho
  obtain ⟨n, hn, hcovers, hfirst, hlast⟩ := exists_node_of_offer? hoffer
  have hclear := (List.mem_filter.mp hid).2
  rw [overlaps, hn, Option.any_some, Bool.not_eq_true', ← Bool.not_eq_true, NodeInfo.clearOf_iff,
    not_or, UInt32.not_lt, UInt32.not_lt] at hclear
  rw [NodeInfo.covers_iff] at hcovers
  rw [hfirst, hlast]
  exact ⟨⟨hcovers.1, hclear.1⟩, hclear.2, hcovers.2⟩

theorem entersBy_visit (a : Arena) (rule : LoopRule) (h : Hunk) :
    EntersBy (Search.visit a rule h) fun n => !n.clearOf h := by
  intro id n s
  unfold Search.visit
  by_cases hc : n.clearOf h = true <;> simp [hc]

theorem visited_eq_listing (ha : a.Linked) (h : Hunk) :
    a.visited h = a.listing (fun n => !n.clearOf h) rootId :=
  preorderWhere_eq_listing ha _

/-- What a visit does to the best scope. -/
theorem best_after (a : Arena) (rule : LoopRule) (h : Hunk) (s : Search) (id : Nat) :
    (a.after (Search.visit a rule h) s id).best =
      if a.overlaps h id then contendAll s.best (a.offer? rule h id).toList else s.best := by
  unfold after overlaps offer?
  cases a.node? id with
  | none => rfl
  | some n =>
    unfold Search.visit Search.consider
    by_cases hc : n.clearOf h = true
    · simp [hc, Search.best_pass]
    · by_cases hcov : n.covers h = true
      · cases a.contender? rule id <;> simp [hc, hcov, contendAll, Search.best_weigh]
      · simp [hc, hcov, contendAll]

/-- **The best scope of a search is the running best over its offers.** -/
theorem best_foldl_after (ids : List Nat) (s : Search) :
    (ids.foldl (a.after (Search.visit a rule h)) s).best =
      contendAll s.best ((ids.filter (a.overlaps h)).filterMap (a.offer? rule h)) := by
  induction ids generalizing s with
  | nil => rfl
  | cons id ids ih =>
    rw [List.foldl_cons, ih, best_after, List.filter_cons]
    by_cases hov : a.overlaps h id = true
    · rw [if_pos hov, if_pos hov, List.filterMap_cons]
      cases a.offer? rule h id <;> rfl
    · rw [if_neg hov, if_neg hov]

theorem best_search (ha : a.Linked) (rule : LoopRule) (h : Hunk) :
    a.scopeOf? rule h = contendAll none (a.offers rule h) := by
  rw [scopeOf?, search, walk, walkFrom_eq_foldl ha (entersBy_visit a rule h) ha.grounded_root,
    ← visited_eq_listing ha]
  exact best_foldl_after (a.visited h) Search.start

/-- In a linked arena the scope of a hunk is the pick among its offers. -/
theorem scopeOf?_eq_pick_offers (ha : a.Linked) (rule : LoopRule) (h : Hunk) :
    a.scopeOf? rule h = (pick (sinceLast (Offer.isLocal a) (a.offers rule h))).map Offer.scope := by
  rw [best_search ha rule h]
  exact foldl_contend_eq_pick fun o ho => ranked_of_mem_filterMap ho

/-- The lines of a scope that a search finds are in order. -/
theorem firstLine_le_lastLine_of_scopeOf? (ha : a.Linked) {s : Scope}
    (hs : a.scopeOf? rule h = some s) : s.firstLine ≤ s.lastLine := by
  rw [scopeOf?_eq_pick_offers ha] at hs
  obtain ⟨o, ho, rfl⟩ := Option.map_eq_some_iff.mp hs
  obtain ⟨hfirst, hlast⟩ := within_of_mem_offers (mem_of_pick_sinceLast ho)
  exact UInt32.le_trans hfirst.1 hlast.1

/-- **Who wins a search**: there is a scope as soon as there is an offer. Of the smallest offers
since the last local function the last branch wins, or, when they hold no branch, the first. -/
theorem scopeOf?_eq_pick (ha : a.Built) (rule : LoopRule) (h : Hunk) :
    (a.scopeOf? rule h = none ↔ a.offers rule h = []) ∧
      a.scopeOf? rule h =
        (pick (sinceLast (Offer.isLocal a) (a.offers rule h))).map Offer.scope := by
  refine ⟨?_, scopeOf?_eq_pick_offers ha.linked rule h⟩
  rw [scopeOf?_eq_pick_offers ha.linked, Option.map_eq_none_iff, pick_eq_none_iff,
    sinceLast_eq_nil_iff]

end Arena

/-! ## A sample -/

namespace Sample

/-- A node that starts and ends at the first column of two rows. -/
def info (kind : String) (field : Option String) (first last : UInt32) (bytes : ByteSpan) :
    NodeInfo :=
  ⟨kind, field, ⟨first, 0⟩, ⟨last, 0⟩, bytes, false, false⟩

/-- The source of the sample: the names in it, one after the other. -/
def source : String := "outerSmallinnernestedx>1"

/-- A function `outer` that holds a class `Small` with a method `inner`, a local function `nested`
with a branch, and a class with a branch on one line. The last node is its own parent. -/
def rows : List (Nat × NodeInfo) :=
  [(0, info "function_definition" none 0 20 ⟨0, 0⟩),
    (1, info "identifier" (some "name") 0 0 ⟨0, 5⟩),
    (1, info "block" (some "body") 1 20 ⟨0, 0⟩),
    (3, info "class_definition" none 1 3 ⟨0, 0⟩),
    (3, info "function_definition" none 1 9 ⟨0, 0⟩),
    (3, info "class_definition" none 11 11 ⟨0, 0⟩),
    (4, info "identifier" (some "name") 1 1 ⟨5, 10⟩),
    (4, info "block" (some "body") 2 3 ⟨0, 0⟩),
    (8, info "function_definition" none 2 3 ⟨0, 0⟩),
    (9, info "identifier" (some "name") 2 2 ⟨10, 15⟩),
    (5, info "identifier" (some "name") 1 1 ⟨15, 21⟩),
    (5, info "block" (some "body") 2 9 ⟨0, 0⟩),
    (12, info "if_statement" none 2 4 ⟨0, 0⟩),
    (13, info "comparison_operator" none 2 2 ⟨21, 24⟩),
    (6, info "identifier" (some "name") 11 11 ⟨5, 10⟩),
    (6, info "block" (some "body") 11 11 ⟨0, 0⟩),
    (16, info "if_statement" none 11 11 ⟨0, 0⟩),
    (17, info "comparison_operator" none 11 11 ⟨21, 24⟩),
    (19, info "block" none 2 9 ⟨0, 0⟩)]

/-- The arena of the sample. -/
def arena : Arena := grown source (info "module" none 0 20 ⟨0, 24⟩) rows

end Sample

namespace Arena

/-- At line 3 of the sample the method `inner` is the smallest offer, but the local function
`nested` comes after it, and the branch in `nested` is smaller than that. -/
theorem scopeOf?_eq_pick_sample :
    (pick (sinceLast (Offer.isLocal Sample.arena) (Sample.arena.offers .rowOfIn ⟨3, 3⟩))).map
      Offer.scope = some ⟨.branch, "if x>1", 3, 5⟩ :=
  (scopeOf?_eq_pick (a := Sample.arena) (Sample.built_grown _ _ _) .rowOfIn ⟨3, 3⟩).2.symm.trans
    (by decide)

end Arena

end HunkScope
