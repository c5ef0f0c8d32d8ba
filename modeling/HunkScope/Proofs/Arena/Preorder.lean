import HunkScope.Arena.Walk
import HunkScope.Proofs.Arena.Linked
import Mathlib.Data.List.Basic

/-!
# Walks are recursive pre-orders

A walk keeps the ids still to visit on a stack. Here the same order is given by recursion:

* `listing`: the ids from a node on, each before those below it and children in order, going only
  below nodes that pass a test;
* `tour`: the visits themselves, with the visitor's state passed along and any visit free to end
  the whole.

Both follow only links to later nodes (`later`), so they end on any array of nodes. In a linked
arena no other link is met below a grounded node, and the recursion is over all children
(`listing_eq`, `tour_eq`).

Headlines:
* `mem_listing_iff`: a listing that goes below every node (`subtree`) holds exactly what the node
  reaches; `mem_listing_iff_enters`: any other holds what is reached through nodes it goes below,
  in the same order (`listing_sublist`).
* `pairwise_listing`: nothing in a listing comes before a node above it; `nodup_listing`.
* **`run_eq_tours`**: so many rounds as there are ids listed below the stack end the walk, and
  leave what the recursion leaves.
* `walkFrom_eq_tour`, `walkFrom_eq_foldl`: the walk of an arena is the recursion, and for a visitor
  that enters by a test on the node alone it is a fold over the listing.
* `preorderWhere_eq_listing`: the ids such a walk visits are the listing.
-/

namespace HunkScope.Arena

/-- The children of a node that are later than it. -/
def later (a : Arena) (id : Nat) : List Nat := (a.childrenOf id).filter (id < ·)

variable {σ : Type} {a : Arena}

theorem size_sub_lt_of_mem_later {id c : Nat} (h : c ∈ a.later id) :
    a.size - c < a.size - id := by
  obtain ⟨hc, hlt⟩ := List.mem_filter.mp h
  have hid : id < a.size := by
    rw [← Nat.not_le, ← node?_eq_none_iff]
    intro hn
    simp [childrenOf, hn] at hc
  have := of_decide_eq_true hlt
  omega

/-- The ids from a node on: the node, then, if it passes the test, those from each of its children
in turn. -/
def listing (a : Arena) (enter : Node → Bool) (id : Nat) : List Nat :=
  match a.node? id with
  | none => []
  | some n => id :: if enter n then (a.later id).attach.flatMap fun c => listing a enter c.1 else []
termination_by a.size - id
decreasing_by exact size_sub_lt_of_mem_later c.2

/-- The visits from a node on: to the node, then, if the visitor goes below it, from each of its
children in turn. The visitor's state is an error once it has ended the tour. -/
def tour (a : Arena) (visit : Visitor σ) (id : Nat) (s : σ) : Except σ σ :=
  match a.node? id with
  | none => .ok s
  | some n =>
    let after := visit id n s
    match after.1 with
    | .descend => (a.later id).attach.foldlM (fun s c => tour a visit c.1 s) after.2
    | .skip => .ok after.2
    | .stop => .error after.2
termination_by a.size - id
decreasing_by exact size_sub_lt_of_mem_later c.2

/-- The state a tour leaves, whether it was ended or not. -/
def outcome : Except σ σ → σ
  | .ok s => s
  | .error s => s

/-! ## The recursion below a grounded node -/

theorem Grounded.later_eq {id : Nat} (hg : a.Grounded id) (ha : a.Linked) :
    a.later id = a.childrenOf id :=
  List.filter_eq_self.mpr fun _ hc => decide_eq_true (hg.child ha hc).1

theorem Grounded.exists_node {id : Nat} (hg : a.Grounded id) : ∃ n, a.node? id = some n :=
  exists_node_of_lt hg.1

/-- The listing from a node, on any array of nodes. -/
theorem listing_of_node {id : Nat} {n : Node} (hn : a.node? id = some n) (enter : Node → Bool) :
    a.listing enter id = id :: if enter n then (a.later id).flatMap (a.listing enter) else [] := by
  rw [listing]
  simp only [hn]
  rw [← List.flatMap_map, List.attach_map_subtype_val]

theorem listing_eq {id : Nat} {n : Node} (hg : a.Grounded id) (ha : a.Linked)
    (hn : a.node? id = some n) (enter : Node → Bool) :
    a.listing enter id =
      id :: if enter n then (a.childrenOf id).flatMap (a.listing enter) else [] := by
  rw [listing_of_node hn, hg.later_eq ha]

theorem tour_eq {id : Nat} {n : Node} (hg : a.Grounded id) (ha : a.Linked)
    (hn : a.node? id = some n) (visit : Visitor σ) (s : σ) :
    a.tour visit id s =
      match (visit id n s).1 with
      | .descend =>
        (a.childrenOf id).foldlM (fun s c => a.tour visit c s) (visit id n s).2
      | .skip => .ok (visit id n s).2
      | .stop => .error (visit id n s).2 := by
  have unattach : ∀ s', (a.later id).attach.foldlM (fun s c => a.tour visit c.1 s) s' =
      (a.childrenOf id).foldlM (fun s c => a.tour visit c s) s' := by
    intro s'
    conv_rhs => rw [← hg.later_eq ha, ← List.attach_map_subtype_val (a.later id)]
    exact (List.foldlM_map (f := Subtype.val) (g := fun s c => a.tour visit c s)).symm
  rw [tour]
  simp only [hn, unattach]

theorem tours_singleton (a : Arena) (visit : Visitor σ) (id : Nat) (s : σ) :
    [id].foldlM (fun s i => a.tour visit i s) s = a.tour visit id s := by
  rw [List.foldlM_cons]
  exact bind_pure _

/-! ## What a listing holds -/

theorem mem_listing_self {id : Nat} (hg : a.Grounded id) (ha : a.Linked) (enter : Node → Bool) :
    id ∈ a.listing enter id := by
  obtain ⟨n, hn⟩ := hg.exists_node
  rw [listing_eq hg ha hn]
  exact List.mem_cons_self

/-- A listing holds only what its first node reaches. -/
theorem reaches_of_mem_listing (ha : a.Linked) (enter : Node → Bool) {i j : Nat}
    (hi : a.Grounded i) (hj : j ∈ a.listing enter i) : a.Reaches i j := by
  revert j
  refine ha.groundedInduction (P := fun i => ∀ {j}, j ∈ a.listing enter i → a.Reaches i j)
    (fun id hg ih j hj => ?_) i hi
  obtain ⟨n, hn⟩ := hg.exists_node
  rw [listing_eq hg ha hn] at hj
  rcases List.mem_cons.mp hj with rfl | hj
  · exact Relation.ReflTransGen.refl
  · split at hj
    · obtain ⟨c, hc, hj⟩ := List.mem_flatMap.mp hj
      exact Relation.ReflTransGen.head hc (ih c hc hj)
    · exact absurd hj List.not_mem_nil

/-- **A listing that goes below every node holds exactly what its first node reaches.** -/
theorem mem_listing_iff (ha : a.Linked) {i j : Nat} (hi : a.Grounded i) :
    j ∈ a.listing (fun _ => true) i ↔ a.Reaches i j := by
  refine ⟨reaches_of_mem_listing ha _ hi, fun h => ?_⟩
  revert hi
  refine Relation.ReflTransGen.head_induction_on h (fun hj => mem_listing_self hj ha _) ?_
  intro p c hc _ ih hp
  obtain ⟨n, hn⟩ := hp.exists_node
  rw [listing_eq hp ha hn, if_pos rfl]
  exact List.mem_cons_of_mem p (List.mem_flatMap.mpr ⟨c, hc, ih (hp.child ha hc).2⟩)

/-- A listing goes below every node above one it holds. -/
theorem enters_of_mem_listing (ha : a.Linked) {enter : Node → Bool} {i j : Nat}
    (hi : a.Grounded i) (hj : j ∈ a.listing enter i) {k : Nat} (hik : a.Reaches i k)
    (hkj : a.Reaches k j) (hne : k ≠ j) : ∃ n, a.node? k = some n ∧ enter n = true := by
  revert j k
  refine ha.groundedInduction (P := fun i => ∀ {j}, j ∈ a.listing enter i → ∀ {k},
    a.Reaches i k → a.Reaches k j → k ≠ j → ∃ n, a.node? k = some n ∧ enter n = true)
    (fun id hg ih j hj k hik hkj hne => ?_) i hi
  obtain ⟨n, hn⟩ := hg.exists_node
  have hle := (hg.reaches ha hik).1
  rw [listing_eq hg ha hn] at hj
  rcases List.mem_cons.mp hj with rfl | hj
  · have := ((hg.reaches ha hik).2.reaches ha hkj).1
    omega
  · by_cases he : enter n = true
    · rw [if_pos he] at hj
      obtain ⟨c, hc, hj⟩ := List.mem_flatMap.mp hj
      have hgc := (hg.child ha hc).2
      -- `k` and the child `c` both lie above `j`, so one lies above the other.
      rcases ha.reaches_or_reaches (reaches_of_mem_listing ha enter hgc hj) hkj with hck | hkc
      · exact ih c hc hj hck hkj hne
      · rcases Relation.ReflTransGen.cases_tail hkc with rfl | ⟨q, hkq, hqc⟩
        · exact ih c hc hj Relation.ReflTransGen.refl hkj hne
        · obtain rfl : q = id :=
            Option.some.inj ((ha.mem_childrenOf.mp hqc).symm.trans (ha.mem_childrenOf.mp hc))
          have := ((hg.reaches ha hik).2.reaches ha hkq).1
          obtain rfl : k = q := by omega
          exact ⟨n, hn, he⟩
    · rw [if_neg he] at hj
      exact absurd hj List.not_mem_nil

/-- **A listing holds exactly what its first node reaches through nodes it goes below.** -/
theorem mem_listing_iff_enters (ha : a.Linked) {enter : Node → Bool} {i j : Nat}
    (hi : a.Grounded i) : j ∈ a.listing enter i ↔ a.Reaches i j ∧
      ∀ k, a.Reaches i k → a.Reaches k j → k ≠ j → ∃ n, a.node? k = some n ∧ enter n = true := by
  refine ⟨fun hj => ⟨reaches_of_mem_listing ha enter hi hj, fun k hik hkj hne =>
    enters_of_mem_listing ha hi hj hik hkj hne⟩, fun ⟨hij, habove⟩ => ?_⟩
  revert hi habove
  refine Relation.ReflTransGen.head_induction_on hij (fun hj _ => mem_listing_self hj ha enter) ?_
  intro p c hc hcj ih hp habove
  obtain ⟨hlt, hgc⟩ := hp.child ha hc
  have hle := (hgc.reaches ha hcj).1
  obtain ⟨n, hn, he⟩ :=
    habove p Relation.ReflTransGen.refl (Relation.ReflTransGen.head hc hcj) (by omega)
  rw [listing_eq hp ha hn, if_pos he]
  refine List.mem_cons_of_mem p (List.mem_flatMap.mpr ⟨c, hc, ih hgc fun k hck => ?_⟩)
  exact habove k (Relation.ReflTransGen.head hc hck)

/-- A listing is part of the one that goes below every node, in the same order. -/
theorem listing_sublist (ha : a.Linked) (enter : Node → Bool) {id : Nat} (hg : a.Grounded id) :
    (a.listing enter id).Sublist (a.listing (fun _ => true) id) := by
  have forest : ∀ ids : List Nat, (∀ i ∈ ids, a.Grounded i) →
      (ids.flatMap (a.listing enter)).Sublist (ids.flatMap (a.listing fun _ => true)) := by
    refine ha.forestInduction (List.Sublist.refl _) fun id rest hid ihbelow ihrest => ?_
    obtain ⟨n, hn⟩ := hid.exists_node
    rw [List.flatMap_cons, List.flatMap_cons, listing_eq hid ha hn, listing_eq hid ha hn,
      if_pos rfl]
    refine List.Sublist.append (List.Sublist.cons_cons id ?_) ihrest
    by_cases he : enter n = true
    · rwa [if_pos he]
    · rw [if_neg he]
      exact List.nil_sublist _
  simpa only [List.flatMap_singleton] using forest [id] (List.forall_mem_singleton.mpr hg)

/-- **Nothing in a listing comes before a node above it.** -/
theorem pairwise_listing (ha : a.Linked) (enter : Node → Bool) {id : Nat} (hg : a.Grounded id) :
    (a.listing enter id).Pairwise fun i j => ¬ a.Reaches j i := by
  refine ha.groundedInduction (P := fun id => (a.listing enter id).Pairwise fun i j =>
    ¬ a.Reaches j i) (fun id hg ih => ?_) id hg
  obtain ⟨n, hn⟩ := hg.exists_node
  have below : ∀ {c j}, c ∈ a.childrenOf id → j ∈ a.listing enter c → a.Reaches c j :=
    fun hc hj => reaches_of_mem_listing ha enter (hg.child ha hc).2 hj
  rw [listing_eq hg ha hn]
  split
  · refine List.pairwise_cons.mpr ⟨fun j hj h => ?_, List.pairwise_flatMap.mpr ⟨ih, ?_⟩⟩
    · obtain ⟨c, hc, hj⟩ := List.mem_flatMap.mp hj
      obtain ⟨hlt, hgc⟩ := hg.child ha hc
      obtain ⟨hle, hgj⟩ := hgc.reaches ha (below hc hj)
      have := (hgj.reaches ha h).1
      omega
    · refine (ha.nodup_childrenOf id).imp_of_mem fun {c d} hc hd hcd i hi j hj h => ?_
      exact hg.not_reaches_of_siblings ha hc hd hcd (below hc hi) ((below hd hj).trans h)
  · exact List.pairwise_singleton _ _

theorem nodup_listing (ha : a.Linked) (enter : Node → Bool) {id : Nat} (hg : a.Grounded id) :
    (a.listing enter id).Nodup :=
  (pairwise_listing ha enter hg).imp fun h heq => h (by rw [heq]; exact Relation.ReflTransGen.refl)

/-- A listing names no more ids than the arena has nodes. -/
theorem length_listing_le (ha : a.Linked) (enter : Node → Bool) {id : Nat} (hg : a.Grounded id) :
    (a.listing enter id).length ≤ a.size := by
  have hsub : a.listing enter id ⊆ List.range a.size := fun j hj =>
    List.mem_range.mpr (hg.reaches ha (reaches_of_mem_listing ha enter hg hj)).2.1
  have h := (nodup_listing ha enter hg).length_le_of_subset hsub
  rwa [List.length_range] at h

/-- The ids from a node on: the node, then those from each of its children in turn. -/
def subtree (a : Arena) (id : Nat) : List Nat := a.listing (fun _ => true) id

theorem subtree_eq {id : Nat} (hg : a.Grounded id) (ha : a.Linked) :
    a.subtree id = id :: (a.childrenOf id).flatMap a.subtree := by
  obtain ⟨n, hn⟩ := hg.exists_node
  rw [subtree, listing_eq hg ha hn, if_pos rfl]
  rfl

theorem mem_subtree_iff (ha : a.Linked) {i j : Nat} (hi : a.Grounded i) :
    j ∈ a.subtree i ↔ a.Reaches i j := mem_listing_iff ha hi

/-! ## The stack does what the recursion does -/

/-- **A walk is the tours of the ids on its stack, in turn**, given as many rounds as there are ids
listed below the stack. -/
theorem run_eq_tours (ha : a.Linked) (visit : Visitor σ) :
    ∀ (rounds : Nat) (stack : List Nat) (s : σ), (∀ id ∈ stack, a.Grounded id) →
      (stack.flatMap (a.listing fun _ => true)).length ≤ rounds →
      Walk.run a visit rounds ⟨stack, s⟩ =
        ⟨[], outcome (stack.foldlM (fun s id => a.tour visit id s) s)⟩
  | rounds, [], s, _, _ => Walk.run_nil a visit s rounds
  | rounds, id :: rest, s, hstack, hload => by
    obtain ⟨hg, hrest⟩ := List.forall_mem_cons.mp hstack
    obtain ⟨n, hn⟩ := hg.exists_node
    rw [List.flatMap_cons, listing_eq hg ha hn, if_pos rfl, List.cons_append,
      List.length_cons, ← List.flatMap_append] at hload
    obtain ⟨m, rfl⟩ : ∃ m, rounds = m + 1 := ⟨rounds - 1, by omega⟩
    rw [Walk.run_cons, Walk.step_cons hn, List.foldlM_cons, tour_eq hg ha hn]
    -- One visit puts the children on the stack, drops the node, or empties the stack.
    cases (visit id n s).1 with
    | descend =>
      have hnext : ∀ i ∈ a.childrenOf id ++ rest, a.Grounded i :=
        List.forall_mem_append.mpr ⟨fun c hc => (hg.child ha hc).2, hrest⟩
      rw [Walk.stackAfter, ← childrenOf_of_node hn, run_eq_tours ha visit m _ _ hnext (by omega),
        List.foldlM_append]
    | skip =>
      rw [List.flatMap_append, List.length_append] at hload
      exact run_eq_tours ha visit m rest _ hrest (by omega)
    | stop => exact Walk.run_nil a visit _ m

/-- A walk from a grounded node is over after as many rounds as the arena has nodes. -/
theorem run_eq_tour (ha : a.Linked) (visit : Visitor σ) {id : Nat} (hg : a.Grounded id) (s : σ)
    {rounds : Nat} (h : a.size ≤ rounds) :
    Walk.run a visit rounds ⟨[id], s⟩ = ⟨[], outcome (a.tour visit id s)⟩ := by
  have hrun := run_eq_tours ha visit rounds [id] s
    (List.forall_mem_singleton.mpr hg)
    (by simpa using Nat.le_trans (length_listing_le ha (fun _ => true) hg) h)
  rw [hrun, tours_singleton]

/-- **The walk from a grounded node is the tour from it**, with no visit cut off. -/
theorem walkFrom_eq_tour (ha : a.Linked) (visit : Visitor σ) {id : Nat} (hg : a.Grounded id)
    (s : σ) : a.walkFrom visit id s = outcome (a.tour visit id s) := by
  rw [walkFrom, run_eq_tour ha visit hg s (Nat.le_refl _)]

theorem run_eq_walkFrom (ha : a.Linked) (visit : Visitor σ) {id : Nat} (hg : a.Grounded id) (s : σ)
    {rounds : Nat} (h : a.size ≤ rounds) :
    Walk.run a visit rounds ⟨[id], s⟩ = ⟨[], a.walkFrom visit id s⟩ := by
  rw [run_eq_tour ha visit hg s h, walkFrom_eq_tour ha visit hg]

/-! ## Visitors that enter by a test -/

/-- The visitor's state after a visit to an id. -/
def after (a : Arena) (visit : Visitor σ) (s : σ) (id : Nat) : σ :=
  match a.node? id with
  | some n => (visit id n s).2
  | none => s

/-- The visitor never ends a walk, and goes below a node exactly when the node passes the test. -/
def EntersBy (visit : Visitor σ) (enter : Node → Bool) : Prop :=
  ∀ id n s, (visit id n s).1 = if enter n then .descend else .skip

theorem tours_eq_foldl (ha : a.Linked) {visit : Visitor σ} {enter : Node → Bool}
    (hv : EntersBy visit enter) : ∀ ids : List Nat, (∀ i ∈ ids, a.Grounded i) → ∀ s,
      ids.foldlM (fun s i => a.tour visit i s) s =
        .ok ((ids.flatMap (a.listing enter)).foldl (a.after visit) s) := by
  refine ha.forestInduction (fun s => rfl) fun id rest hg ihbelow ihrest s => ?_
  obtain ⟨n, hn⟩ := hg.exists_node
  have hafter : a.after visit s id = (visit id n s).2 := by simp only [after, hn]
  rw [List.foldlM_cons, tour_eq hg ha hn, List.flatMap_cons, listing_eq hg ha hn,
    List.foldl_append, List.foldl_cons, hafter, hv]
  by_cases he : enter n = true
  · simp only [if_pos he]
    rw [ihbelow]
    exact ihrest _
  · simp only [if_neg he]
    exact ihrest _

/-- **A walk that enters by a test folds the visits over the listing by that test.** -/
theorem walkFrom_eq_foldl (ha : a.Linked) {visit : Visitor σ} {enter : Node → Bool}
    (hv : EntersBy visit enter) {id : Nat} (hg : a.Grounded id) (s : σ) :
    a.walkFrom visit id s = (a.listing enter id).foldl (a.after visit) s := by
  rw [walkFrom_eq_tour ha visit hg, ← tours_singleton,
    tours_eq_foldl ha hv [id] (List.forall_mem_singleton.mpr hg), List.flatMap_singleton]
  rfl

/-- **A walk that enters by a test visits the ids of the listing by that test.** -/
theorem preorderWhere_eq_listing (ha : a.Linked) (enter : Node → Bool) :
    a.preorderWhere enter = a.listing enter rootId := by
  have hv : EntersBy (collect enter) enter := fun _ _ _ => rfl
  have notes : ∀ (ids : List Nat) (seen : Array Nat), (∀ id ∈ ids, id < a.size) →
      (ids.foldl (a.after (collect enter)) seen).toList = seen.toList ++ ids := by
    intro ids
    induction ids with
    | nil => exact fun seen _ => (List.append_nil _).symm
    | cons id ids ih =>
      intro seen hids
      obtain ⟨n, hn⟩ := exists_node_of_lt (hids id List.mem_cons_self)
      have hafter : a.after (collect enter) seen id = seen.push id := by
        simp only [after, hn, collect]
      rw [List.foldl_cons, hafter, ih _ fun i hi => hids i (List.mem_cons_of_mem _ hi),
        Array.toList_push, List.append_assoc, List.singleton_append]
  have hbound : ∀ id ∈ a.listing enter rootId, id < a.size := fun id hid =>
    (ha.grounded_of_reaches (reaches_of_mem_listing ha enter ha.grounded_root hid)).1
  rw [preorderWhere, walk, walkFrom_eq_foldl ha hv ha.grounded_root, notes _ _ hbound]
  rfl

/-- A walk that enters every node visits the ids from the root on. -/
theorem preorder_eq_subtree (ha : a.Linked) : a.preorder = a.subtree rootId :=
  preorderWhere_eq_listing ha _

end HunkScope.Arena
