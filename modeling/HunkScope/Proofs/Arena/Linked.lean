import HunkScope.Arena.Build
import Mathlib.Logic.Relation

/-!
# The links of built arenas

An arena is *built* when it comes of a root and any pushes that were not refused. In a built arena
the two directions of the links tell one story (`Linked`): every node but the root has a parent
that is no later than itself, and the children of a node are exactly the nodes it is the parent of,
in the order of their ids. A push keeps this, whichever parent it names.

The parent may be the node itself. Such a node is a child of nothing else, so no other node reaches
it: from a *grounded* node, one that is not its own parent, child links lead to later grounded
nodes only. Everything that follows links downwards rests on this.

Headlines:
* `Built.linked`: every built arena is linked.
* `Grounded.child`: below a grounded node the ids grow, and every node is grounded.
* `Linked.groundedInduction`: induction over what lies below a grounded node, children first;
  `Linked.forestInduction`: the same for the nodes of a list and what lies below them.
* `rel_of_reaches`: what holds between a node and each child holds all the way down.
* `reaches_or_reaches`: two nodes above one node are one above the other.
-/

namespace HunkScope.Arena

/-- The arenas that come of a root and pushes that are not refused. -/
inductive Built : Arena → Prop
  | single (source : String) (root : NodeInfo) : Built (single source root)
  | push {a b : Arena} {parent : Nat} {info : NodeInfo} (ha : Built a)
      (hb : a.push parent info = .ok b) : Built b

/-- The two directions of the links agree, and no parent is later than its children. -/
structure Linked (a : Arena) : Prop where
  /-- There is a root, and it has no parent. -/
  root : ∃ n, a.node? rootId = some n ∧ n.parent = none
  /-- Every other node has a parent, no later than itself. -/
  parent : ∀ id, 0 < id → id < a.size → ∃ p ≤ id, a.parentOf? id = some p
  /-- The children of a node are the nodes it is the parent of, in the order of their ids. -/
  children : ∀ id, a.childrenOf id = (List.range a.size).filter fun c => a.parentOf? c == some id

/-- A node that is not its own parent. -/
def Grounded (a : Arena) (id : Nat) : Prop := id < a.size ∧ a.parentOf? id ≠ some id

/-- A node is reached from another by links to children, in any number of steps. -/
def Reaches (a : Arena) : Nat → Nat → Prop :=
  Relation.ReflTransGen fun p c => c ∈ a.childrenOf p

variable {a : Arena}

theorem pushAll_cons (a : Arena) (row : Nat × NodeInfo) (rows : List (Nat × NodeInfo)) :
    a.pushAll (row :: rows) = (a.push row.1 row.2).bind fun b => b.pushAll rows := rfl

theorem Built.pushAll : ∀ {rows : List (Nat × NodeInfo)} {a b : Arena}, a.Built →
    a.pushAll rows = .ok b → b.Built
  | [], a, b, ha, h => by
    obtain rfl := Except.ok.inj h
    exact ha
  | row :: rows, a, b, ha, h => by
    rw [pushAll_cons] at h
    cases hp : a.push row.1 row.2 with
    | error e => rw [hp] at h; cases h
    | ok c =>
      rw [hp] at h
      exact Built.pushAll (Built.push ha hp) h

/-- What `build` returns is built. -/
theorem built_of_build {source : String} {root : NodeInfo} {rows : List (Nat × NodeInfo)}
    (h : build source root rows = .ok a) : a.Built :=
  (Built.single source root).pushAll h

/-! ## A push keeps the links -/

theorem Built.attach (ha : a.Built) {parent : Nat} (hp : parent ≤ a.size) (info : NodeInfo) :
    (a.attach parent info).Built :=
  ha.push (push_eq_ok_iff.mpr ⟨hp, rfl⟩)

theorem node?_eq_none_iff {id : Nat} : a.node? id = none ↔ a.size ≤ id :=
  Array.getElem?_eq_none_iff

theorem exists_node_of_lt {id : Nat} (h : id < a.size) : ∃ n, a.node? id = some n :=
  Option.isSome_iff_exists.mp (node?_isSome_iff.mpr h)

theorem parentOf?_attach (a : Arena) (parent : Nat) (info : NodeInfo) (id : Nat) :
    (a.attach parent info).parentOf? id = if id = a.size then some parent else a.parentOf? id := by
  simp only [parentOf?, node?_attach]
  by_cases h : id = a.size
  · simp only [if_pos h]
    by_cases hp : parent = id <;> simp [hp]
  · simp only [if_neg h]
    cases a.node? id with
    | none => rfl
    | some n => by_cases hp : parent = id <;> simp [hp]

theorem childrenOf_attach {parent : Nat} (info : NodeInfo) (hp : parent ≤ a.size) (id : Nat) :
    (a.attach parent info).childrenOf id =
      a.childrenOf id ++ if parent = id then [a.size] else [] := by
  simp only [childrenOf, node?_attach]
  by_cases h : id = a.size
  · have hn : a.node? id = none := node?_eq_none_iff.mpr (Nat.le_of_eq h.symm)
    simp only [if_pos h, hn, Option.map_some]
    by_cases hpi : parent = id <;> simp [hpi]
  · simp only [if_neg h]
    by_cases hpi : parent = id
    · obtain ⟨n, hn⟩ := exists_node_of_lt (show id < a.size by omega)
      simp [hn, hpi]
    · cases hn : a.node? id <;> simp [hpi]

theorem Linked.root_lt (ha : a.Linked) : rootId < a.size := by
  obtain ⟨n, hn, -⟩ := ha.root
  exact (node?_eq_some_iff.mp hn).1

theorem Linked.parentOf?_root (ha : a.Linked) : a.parentOf? rootId = none := by
  obtain ⟨n, hn, hp⟩ := ha.root
  simp only [parentOf?, hn, Option.bind_some, hp]

theorem lt_size_of_parentOf? {id p : Nat} (h : a.parentOf? id = some p) : id < a.size := by
  obtain ⟨n, hn, -⟩ := Option.bind_eq_some_iff.mp h
  exact (node?_eq_some_iff.mp hn).1

/-- No parent is later than its child. -/
theorem Linked.parent_le (ha : a.Linked) {id p : Nat} (h : a.parentOf? id = some p) : p ≤ id := by
  have hlt := lt_size_of_parentOf? h
  by_cases h0 : id = rootId
  · rw [h0, ha.parentOf?_root] at h
    cases h
  · obtain ⟨q, hq, hpq⟩ := ha.parent id (Nat.pos_of_ne_zero h0) hlt
    obtain rfl := Option.some.inj (h.symm.trans hpq)
    exact hq

theorem linked_single (source : String) (root : NodeInfo) : (single source root).Linked where
  root := ⟨_, rfl, rfl⟩
  parent := fun id h0 hlt => by
    rw [size_single] at hlt
    omega
  children := fun id => by
    cases id <;> rfl

/-- **An attachment under a node that exists by then keeps the links.** -/
theorem Linked.attach (ha : a.Linked) {parent : Nat} (hp : parent ≤ a.size) (info : NodeInfo) :
    (a.attach parent info).Linked := by
  have hpos := ha.root_lt
  refine ⟨?_, fun id h0 hlt => ?_, fun id => ?_⟩
  · obtain ⟨n, hn, hnp⟩ := ha.root
    rw [node?_attach, if_neg (by omega), hn, Option.map_some]
    refine ⟨_, rfl, ?_⟩
    split <;> exact hnp
  · rw [parentOf?_attach]
    by_cases h : id = a.size
    · exact ⟨parent, by omega, if_pos h⟩
    · rw [size_attach] at hlt
      rw [if_neg h]
      exact ha.parent id h0 (by omega)
  · rw [childrenOf_attach info hp, size_attach, List.range_succ, List.filter_append]
    congr 1
    · rw [ha.children id]
      refine List.filter_congr fun c hc => ?_
      rw [parentOf?_attach, if_neg (Nat.ne_of_lt (List.mem_range.mp hc))]
    · by_cases h : parent = id <;> simp [parentOf?_attach, h]

/-- **Every built arena is linked.** -/
theorem Built.linked (ha : a.Built) : a.Linked := by
  induction ha with
  | single source root => exact linked_single source root
  | push _ hb ih =>
    obtain ⟨hp, rfl⟩ := push_eq_ok_iff.mp hb
    exact ih.attach hp _

/-! ## Below a grounded node -/

/-- The children of a node are the nodes it is the parent of. -/
theorem Linked.mem_childrenOf (ha : a.Linked) {p c : Nat} :
    c ∈ a.childrenOf p ↔ a.parentOf? c = some p := by
  rw [ha.children, List.mem_filter, List.mem_range, beq_iff_eq]
  exact ⟨fun h => h.2, fun h => ⟨lt_size_of_parentOf? h, h⟩⟩

theorem Linked.nodup_childrenOf (ha : a.Linked) (id : Nat) : (a.childrenOf id).Nodup := by
  rw [ha.children]
  exact List.nodup_range.filter _

theorem Linked.grounded_root (ha : a.Linked) : a.Grounded rootId :=
  ⟨ha.root_lt, by rw [ha.parentOf?_root]; nofun⟩

/-- **Below a grounded node the ids grow, and every node is grounded.** -/
theorem Grounded.child {p c : Nat} (hp : a.Grounded p) (ha : a.Linked)
    (hc : c ∈ a.childrenOf p) : p < c ∧ a.Grounded c := by
  have hcp := ha.mem_childrenOf.mp hc
  have hne : p ≠ c := fun h => hp.2 (by rw [h] at hcp ⊢; exact hcp)
  refine ⟨Nat.lt_of_le_of_ne (ha.parent_le hcp) hne, lt_size_of_parentOf? hcp, ?_⟩
  rw [hcp]
  exact fun h => hne (Option.some.inj h)

theorem Grounded.reaches {i j : Nat} (hi : a.Grounded i) (ha : a.Linked) (h : a.Reaches i j) :
    i ≤ j ∧ a.Grounded j := by
  induction h with
  | refl => exact ⟨Nat.le_refl i, hi⟩
  | tail _ hc ih =>
    obtain ⟨hlt, hg⟩ := ih.2.child ha hc
    exact ⟨by omega, hg⟩

/-- What the root reaches is grounded. -/
theorem Linked.grounded_of_reaches (ha : a.Linked) {i : Nat} (h : a.Reaches rootId i) :
    a.Grounded i := (ha.grounded_root.reaches ha h).2

/-- **Induction over what lies below a grounded node**, children first. -/
theorem Linked.groundedInduction (ha : a.Linked) {P : Nat → Prop}
    (step : ∀ id, a.Grounded id → (∀ c ∈ a.childrenOf id, P c) → P id) :
    ∀ id, a.Grounded id → P id := by
  -- Ids grow on the way down and stay below the size, so what is left above an id shrinks.
  have main : ∀ m id, a.size - id ≤ m → a.Grounded id → P id := by
    intro m
    induction m with
    | zero =>
      intro id hm hg
      have := hg.1
      omega
    | succ m ih =>
      intro id hm hg
      refine step id hg fun c hc => ?_
      obtain ⟨hlt, hgc⟩ := hg.child ha hc
      exact ih c (by omega) hgc
  exact fun id hg => main _ id (Nat.le_refl _) hg

/-- **Induction over grounded nodes in a list**: what holds of the children of the first node and of
the rest of the list holds of the list. -/
theorem Linked.forestInduction (ha : a.Linked) {P : List Nat → Prop} (nil : P [])
    (cons : ∀ id rest, a.Grounded id → P (a.childrenOf id) → P rest → P (id :: rest)) :
    ∀ ids, (∀ i ∈ ids, a.Grounded i) → P ids := by
  have prepend : ∀ id, a.Grounded id → ∀ rest, P rest → P (id :: rest) := by
    refine ha.groundedInduction fun id hid ih rest hrest => cons id rest hid ?_ hrest
    have below : ∀ ids, (∀ c ∈ ids, c ∈ a.childrenOf id) → P ids := by
      intro ids
      induction ids with
      | nil => exact fun _ => nil
      | cons c ids ihids =>
        intro hids
        exact ih c (hids c List.mem_cons_self) ids
          (ihids fun d hd => hids d (List.mem_cons_of_mem c hd))
    exact below _ fun c hc => hc
  intro ids
  induction ids with
  | nil => exact fun _ => nil
  | cons id ids ihids =>
    intro hids
    exact prepend id (hids id List.mem_cons_self) ids
      (ihids fun i hi => hids i (List.mem_cons_of_mem id hi))

/-- **What holds between a node and each child holds all the way down**, below the root, when it is
reflexive and transitive. -/
theorem Linked.rel_of_reaches (ha : a.Linked) {R : Node → Node → Prop} (hrefl : ∀ n, R n n)
    (htrans : ∀ l m n, R l m → R m n → R l n)
    (hchild : ∀ p c, a.Reaches rootId p → c ∈ a.childrenOf p → ∀ m ∈ a.node? p, ∀ n ∈ a.node? c,
      R m n) {i j : Nat} {m n : Node} (hi : a.Reaches rootId i) (hij : a.Reaches i j)
    (hm : a.node? i = some m) (hn : a.node? j = some n) : R m n := by
  induction hij generalizing n with
  | refl =>
    obtain rfl := Option.some.inj (hm.symm.trans hn)
    exact hrefl m
  | @tail p c hip hc ih =>
    obtain ⟨k, hk⟩ := exists_node_of_lt (ha.grounded_of_reaches (hi.trans hip)).1
    exact htrans m k n (ih hk) (hchild p c (hi.trans hip) hc k hk n hn)

/-- **Two nodes above one node are one above the other**: a node has one parent. -/
theorem Linked.reaches_or_reaches (ha : a.Linked) {i j k : Nat} (hi : a.Reaches i k)
    (hj : a.Reaches j k) : a.Reaches i j ∨ a.Reaches j i := by
  have unique : Relator.RightUnique (Function.swap fun p c => c ∈ a.childrenOf p) := by
    intro c p q hp hq
    exact Option.some.inj ((ha.mem_childrenOf.mp hp).symm.trans (ha.mem_childrenOf.mp hq))
  have h := Relation.ReflTransGen.total_of_right_unique unique
    (Relation.reflTransGen_swap.mpr hi) (Relation.reflTransGen_swap.mpr hj)
  rcases h with h | h
  · exact Or.inr (Relation.reflTransGen_swap.mp h)
  · exact Or.inl (Relation.reflTransGen_swap.mp h)

/-- What lies below two children of one node is apart: a node reached from both would put one of
them above the other. -/
theorem Grounded.not_reaches_of_siblings {p c d x : Nat} (hp : a.Grounded p) (ha : a.Linked)
    (hc : c ∈ a.childrenOf p) (hd : d ∈ a.childrenOf p) (hcd : c ≠ d) (hcx : a.Reaches c x) :
    ¬ a.Reaches d x := by
  -- A child that reaches its sibling reaches their parent on the way, and ids only grow.
  have apart : ∀ {c d : Nat}, c ∈ a.childrenOf p → d ∈ a.childrenOf p → c ≠ d →
      ¬ a.Reaches c d := by
    intro c d hc hd hcd h
    rcases Relation.ReflTransGen.cases_tail h with heq | ⟨q, hq, hqd⟩
    · exact hcd heq.symm
    · obtain ⟨hlt, hgc⟩ := hp.child ha hc
      have hqp : q = p := Option.some.inj
        ((ha.mem_childrenOf.mp hqd).symm.trans (ha.mem_childrenOf.mp hd))
      have := (hgc.reaches ha hq).1
      omega
  intro hdx
  rcases ha.reaches_or_reaches hcx hdx with h | h
  · exact apart hc hd hcd h
  · exact apart hd hc (Ne.symm hcd) h

end HunkScope.Arena
