import HunkScope.Proofs.Arena.Rounds

/-!
# The calls of a walk

A *guide* is a visitor that never ends a walk: at every node it says whether the walk goes below the
node, and it may hang on the node, on its id and on a state of its own. What a walk under a guide
does is given here as a relation, `Visits`: a node is visited, then, if the guide says so, the
children from the first to the last, each with everything below it, and the guide's state is handed
from one call to the next. Nothing in it speaks of stacks or of rounds.

* `Guide.noting`: the guide that notes its calls; `Arena.calls`: the calls of a walk from the root.
* `Visits`: the recursive pre-order of some nodes, with its calls and the state it ends in.

Headlines:
* `Visits.unique`, `exists_visits`: from grounded nodes there is one such order.
* `visits_calls`: the calls of a walk are in that order, and the walk ends in its state.
* `run_stack_grounded`: a walk from the root never has an id on its stack that names no node.
* **`walk_eq_visits`**: a walk ends, is the recursive pre-order, visits no node twice, and visits
  a node iff it goes below every node above it.
-/

namespace HunkScope

/-- A visitor that never ends a walk: whether the walk goes below the node, and the state after. -/
abbrev Guide (σ : Type) := Nat → Node → σ → Bool × σ

/-- A call of a guide: the node it is called on, the state it is given, and whether the walk goes
below the node. -/
structure Call (σ : Type) where
  node : Nat
  state : σ
  enters : Bool

namespace Guide

variable {σ : Type}

/-- The visitor of a guide. -/
def visitor (g : Guide σ) : Visitor σ := fun id n s =>
  (if (g id n s).1 then .descend else .skip, (g id n s).2)

/-- The guide that notes its calls and does otherwise as before. -/
def noting (g : Guide σ) : Guide (σ × List (Call σ)) := fun id n s =>
  ((g id n s.1).1, (g id n s.1).2, s.2 ++ [⟨id, s.1, (g id n s.1).1⟩])

end Guide

namespace Arena

variable {σ : Type} {a : Arena} {g : Guide σ}

/-- The calls of a guide on a walk from the root, in order. -/
def calls (a : Arena) (g : Guide σ) (s : σ) : List (Call σ) :=
  (a.walk g.noting.visitor (s, [])).2

/-- **The recursive pre-order**: the nodes are visited in turn from a state on, each with what lies
below it if the guide goes there; these are the calls, and this is the state in the end. -/
inductive Visits (a : Arena) (g : Guide σ) : List Nat → σ → List (Call σ) → σ → Prop
  | nil (s : σ) : Visits a g [] s [] s
  | enter {id : Nat} {n : Node} {ids : List Nat} {s s₁ s₂ s₃ : σ} {below beside : List (Call σ)}
      (hn : a.node? id = some n) (hg : g id n s = (true, s₁))
      (hbelow : Visits a g (a.childrenOf id) s₁ below s₂) (hbeside : Visits a g ids s₂ beside s₃) :
      Visits a g (id :: ids) s (⟨id, s, true⟩ :: (below ++ beside)) s₃
  | skip {id : Nat} {n : Node} {ids : List Nat} {s s₁ s₂ : σ} {beside : List (Call σ)}
      (hn : a.node? id = some n) (hg : g id n s = (false, s₁))
      (hbeside : Visits a g ids s₁ beside s₂) :
      Visits a g (id :: ids) s (⟨id, s, false⟩ :: beside) s₂

namespace Visits

variable {ids : List Nat} {s s' s'' : σ} {cs cs' : List (Call σ)}

/-! ## There is one recursive pre-order -/

/-- The calls and the state in the end are settled by the nodes and the state before. -/
theorem unique (h : Visits a g ids s cs s') (h' : Visits a g ids s cs' s'') :
    cs' = cs ∧ s'' = s' := by
  induction h generalizing cs' s'' with
  | nil s =>
    cases h'
    exact ⟨rfl, rfl⟩
  | enter hn hg _ _ ihbelow ihbeside =>
    cases h' with
    | enter hn' hg' hbelow' hbeside' =>
      obtain rfl := Option.some.inj (hn.symm.trans hn')
      obtain rfl := (Prod.mk.inj (hg.symm.trans hg')).2
      obtain ⟨rfl, rfl⟩ := ihbelow hbelow'
      obtain ⟨rfl, rfl⟩ := ihbeside hbeside'
      exact ⟨rfl, rfl⟩
    | skip hn' hg' _ =>
      obtain rfl := Option.some.inj (hn.symm.trans hn')
      cases hg.symm.trans hg'
  | skip hn hg _ ihbeside =>
    cases h' with
    | enter hn' hg' _ _ =>
      obtain rfl := Option.some.inj (hn.symm.trans hn')
      cases hg.symm.trans hg'
    | skip hn' hg' hbeside' =>
      obtain rfl := Option.some.inj (hn.symm.trans hn')
      obtain rfl := (Prod.mk.inj (hg.symm.trans hg')).2
      obtain ⟨rfl, rfl⟩ := ihbeside hbeside'
      exact ⟨rfl, rfl⟩

/-- A guide that notes its calls makes them in the same order. -/
theorem noting (h : Visits a g ids s cs s') (log : List (Call σ)) :
    ∃ cs', Visits a g.noting ids (s, log) cs' (s', log ++ cs) := by
  induction h generalizing log with
  | nil s => exact ⟨[], by rw [List.append_nil]; exact nil _⟩
  | @enter id n ids s s₁ s₂ s₃ below beside hn hg _ _ ihbelow ihbeside =>
    obtain ⟨below', hbelow⟩ := ihbelow (log ++ [⟨id, s, true⟩])
    obtain ⟨beside', hbeside⟩ := ihbeside (log ++ [⟨id, s, true⟩] ++ below)
    rw [List.append_cons, ← List.append_assoc]
    exact ⟨_, enter hn (by simp only [Guide.noting, hg]) hbelow hbeside⟩
  | @skip id n ids s s₁ s₂ beside hn hg _ ihbeside =>
    obtain ⟨beside', hbeside⟩ := ihbeside (log ++ [⟨id, s, false⟩])
    rw [List.append_cons]
    exact ⟨_, skip hn (by simp only [Guide.noting, hg]) hbeside⟩

/-! ## Who is visited -/

theorem mem_of_mem_ids (h : Visits a g ids s cs s') {id : Nat} (hid : id ∈ ids) :
    id ∈ cs.map Call.node := by
  induction h with
  | nil s => exact hid
  | enter _ _ _ _ _ ih =>
    rw [List.map_cons, List.map_append]
    rcases List.mem_cons.mp hid with rfl | hid
    · exact List.mem_cons_self
    · exact List.mem_cons_of_mem _ (List.mem_append_right _ (ih hid))
  | skip _ _ _ ih =>
    rcases List.mem_cons.mp hid with rfl | hid
    · exact List.mem_cons_self
    · exact List.mem_cons_of_mem _ (ih hid)

/-- Every child of a node that the guide goes below is visited. -/
theorem mem_of_enters (h : Visits a g ids s cs s') {c : Call σ} {child : Nat} (hc : c ∈ cs)
    (henters : c.enters = true) (hchild : child ∈ a.childrenOf c.node) :
    child ∈ cs.map Call.node := by
  induction h with
  | nil s => exact absurd hc List.not_mem_nil
  | enter hn _ hbelow _ ihbelow ihbeside =>
    rw [List.map_cons, List.map_append]
    refine List.mem_cons_of_mem _ ?_
    rcases List.mem_cons.mp hc with rfl | hc
    · exact List.mem_append_left _ (hbelow.mem_of_mem_ids hchild)
    · rcases List.mem_append.mp hc with hc | hc
      · exact List.mem_append_left _ (ihbelow hc)
      · exact List.mem_append_right _ (ihbeside hc)
  | skip _ _ _ ihbeside =>
    rcases List.mem_cons.mp hc with rfl | hc
    · cases henters
    · exact List.mem_cons_of_mem _ (ihbeside hc)

/-- A node is visited as one of the first, or as a child of a node that the guide goes below. -/
theorem mem_ids_or_enters (h : Visits a g ids s cs s') {id : Nat}
    (hid : id ∈ cs.map Call.node) :
    id ∈ ids ∨ ∃ c ∈ cs, c.enters = true ∧ id ∈ a.childrenOf c.node := by
  induction h with
  | nil s => exact absurd hid List.not_mem_nil
  | @enter top n ids s s₁ s₂ s₃ below beside _ _ _ _ ihbelow ihbeside =>
    rw [List.map_cons, List.map_append] at hid
    rcases List.mem_cons.mp hid with rfl | hid
    · exact Or.inl List.mem_cons_self
    · rcases List.mem_append.mp hid with hid | hid
      · refine Or.inr ?_
        rcases ihbelow hid with hchild | ⟨c, hc, henters, hchild⟩
        · exact ⟨⟨top, s, true⟩, List.mem_cons_self, rfl, hchild⟩
        · exact ⟨c, List.mem_cons_of_mem _ (List.mem_append_left _ hc), henters, hchild⟩
      · rcases ihbeside hid with hfirst | ⟨c, hc, henters, hchild⟩
        · exact Or.inl (List.mem_cons_of_mem _ hfirst)
        · exact Or.inr ⟨c, List.mem_cons_of_mem _ (List.mem_append_right _ hc), henters, hchild⟩
  | skip _ _ _ ihbeside =>
    rcases List.mem_cons.mp hid with rfl | hid
    · exact Or.inl List.mem_cons_self
    · rcases ihbeside hid with hfirst | ⟨c, hc, henters, hchild⟩
      · exact Or.inl (List.mem_cons_of_mem _ hfirst)
      · exact Or.inr ⟨c, List.mem_cons_of_mem _ hc, henters, hchild⟩

/-- The visited nodes are some of those listed below the first ones, in the same order. -/
theorem sublist (h : Visits a g ids s cs s') (ha : a.Linked) (hids : ∀ id ∈ ids, a.Grounded id) :
    (cs.map Call.node).Sublist (ids.flatMap (a.listing fun _ => true)) := by
  induction h with
  | nil s => exact List.Sublist.refl _
  | enter hn _ _ _ ihbelow ihbeside =>
    have hg := hids _ List.mem_cons_self
    rw [List.flatMap_cons, listing_eq hg ha hn, if_pos rfl, List.map_cons, List.map_append,
      List.cons_append]
    refine ((ihbelow fun c hc => ?_).append (ihbeside fun i hi => ?_)).cons_cons _
    · exact (hg.child ha hc).2
    · exact hids i (List.mem_cons_of_mem _ hi)
  | skip hn _ _ ihbeside =>
    rw [List.flatMap_cons, listing_eq (hids _ List.mem_cons_self) ha hn, List.map_cons,
      List.cons_append]
    refine (List.Sublist.trans ?_ (List.sublist_append_right _ _)).cons_cons _
    exact ihbeside fun i hi => hids i (List.mem_cons_of_mem _ hi)

end Visits

/-! ## Walks are recursive pre-orders -/

/-- From grounded nodes there is a recursive pre-order. -/
theorem exists_visits (ha : a.Linked) (g : Guide σ) :
    ∀ ids : List Nat, (∀ i ∈ ids, a.Grounded i) → ∀ s, ∃ cs s', Visits a g ids s cs s' := by
  refine ha.forestInduction (fun s => ⟨[], s, .nil s⟩) fun id rest hid ihbelow ihrest s => ?_
  obtain ⟨n, hn⟩ := hid.exists_node
  cases hg : (g id n s).1 with
  | true =>
    obtain ⟨below, s₂, hbelow⟩ := ihbelow (g id n s).2
    obtain ⟨beside, s₃, hbeside⟩ := ihrest s₂
    exact ⟨_, s₃, .enter hn (Prod.ext hg rfl) hbelow hbeside⟩
  | false =>
    obtain ⟨beside, s₂, hbeside⟩ := ihrest (g id n s).2
    exact ⟨_, s₂, .skip hn (Prod.ext hg rfl) hbeside⟩

/-- The tours of the nodes of a recursive pre-order, in turn, leave the state it ends in. -/
theorem Visits.tours {ids : List Nat} {s s' : σ} {cs : List (Call σ)} (h : Visits a g ids s cs s')
    (ha : a.Linked) (hids : ∀ id ∈ ids, a.Grounded id) :
    ids.foldlM (fun s id => a.tour g.visitor id s) s = .ok s' := by
  induction h with
  | nil s => rfl
  | enter hn hg _ _ ihbelow ihbeside =>
    have hid := hids _ List.mem_cons_self
    have hbelow := ihbelow fun c hc => (hid.child ha hc).2
    rw [List.foldlM_cons, tour_eq hid ha hn]
    simp only [Guide.visitor, hg, if_true] at hbelow ⊢
    rw [hbelow]
    exact ihbeside fun i hi => hids i (List.mem_cons_of_mem _ hi)
  | skip hn hg _ ihbeside =>
    rw [List.foldlM_cons, tour_eq (hids _ List.mem_cons_self) ha hn]
    simp only [Guide.visitor, hg, Bool.false_eq_true, if_false]
    exact ihbeside fun i hi => hids i (List.mem_cons_of_mem _ hi)

theorem Visits.walk_eq {s s' : σ} {cs : List (Call σ)} (h : Visits a g [rootId] s cs s')
    (ha : a.Linked) : a.walk g.visitor s = s' := by
  have htours := h.tours ha (List.forall_mem_singleton.mpr ha.grounded_root)
  rw [walk, walkFrom_eq_tour ha _ ha.grounded_root]
  rw [tours_singleton] at htours
  rw [htours]
  rfl

/-- **The calls of a walk are those of the recursive pre-order**, and the walk ends in its state. -/
theorem visits_calls (ha : a.Linked) (g : Guide σ) (s : σ) :
    Visits a g [rootId] s (a.calls g s) (a.walk g.visitor s) := by
  obtain ⟨cs, s', h⟩ := exists_visits ha g [rootId]
    (List.forall_mem_singleton.mpr ha.grounded_root) s
  obtain ⟨cs', hnoting⟩ := h.noting []
  have hcalls : a.calls g s = cs := by rw [calls, hnoting.walk_eq ha, List.nil_append]
  rw [hcalls, h.walk_eq ha]
  exact h

/-! ## The stack -/

/-- **A walk from grounded nodes never has an id on its stack that names no node.** -/
theorem run_stack_grounded (ha : a.Linked) (visit : Visitor σ) :
    ∀ (rounds : Nat) {w : Walk σ}, (∀ id ∈ w.stack, a.Grounded id) →
      ∀ id ∈ (Walk.run a visit rounds w).stack, a.Grounded id :=
  run_stack_forall (fun _ hp _ hc => (hp.child ha hc).2) visit

/-- A walk from the root is over after as many rounds as the arena has nodes. -/
theorem run_root_eq (ha : a.Linked) (visit : Visitor σ) (s : σ) {rounds : Nat}
    (h : a.size ≤ rounds) : Walk.run a visit rounds ⟨[rootId], s⟩ = ⟨[], a.walk visit s⟩ :=
  run_eq_walkFrom ha visit ha.grounded_root s h

/-! ## Who is above a visited node -/

/-- **A walk goes below every node above a visited one.** -/
theorem Visits.enters_above {s s' : σ} {cs : List (Call σ)} (h : Visits a g [rootId] s cs s')
    (ha : a.Linked) {i j : Nat} (hij : a.Reaches i j) (hne : i ≠ j) (hj : j ∈ cs.map Call.node) :
    ∃ c ∈ cs, c.node = i ∧ c.enters = true := by
  induction hij with
  | refl => exact absurd rfl hne
  | @tail p j hip hpj ih =>
    -- The one parent of `j` is the node through which the walk came to it.
    have hparent := ha.mem_childrenOf.mp hpj
    rcases h.mem_ids_or_enters hj with hroot | ⟨c, hc, henters, hchild⟩
    · obtain rfl := List.mem_singleton.mp hroot
      rw [ha.parentOf?_root] at hparent
      cases hparent
    · obtain rfl : c.node = p :=
        Option.some.inj ((ha.mem_childrenOf.mp hchild).symm.trans hparent)
      by_cases hic : i = c.node
      · exact ⟨c, hc, hic.symm, henters⟩
      · exact ih hic (List.mem_map_of_mem hc)

/-- **A walk visits what it can get to**: a node that the root reaches, when the walk goes below
every node above it. -/
theorem Visits.mem_of_enters_above {s s' : σ} {cs : List (Call σ)}
    (h : Visits a g [rootId] s cs s') (ha : a.Linked) {j : Nat} (hj : a.Reaches rootId j)
    (habove : ∀ i, a.Reaches i j → i ≠ j → ∃ c ∈ cs, c.node = i ∧ c.enters = true) :
    j ∈ cs.map Call.node := by
  rcases Relation.ReflTransGen.cases_tail hj with rfl | ⟨p, hp, hpj⟩
  · exact h.mem_of_mem_ids List.mem_cons_self
  · have hlt := ((ha.grounded_of_reaches hp).child ha hpj).1
    obtain ⟨c, hc, rfl, henters⟩ := habove p (Relation.ReflTransGen.single hpj) (by omega)
    exact h.mem_of_enters hc henters hpj

/-- **A walk is the recursive pre-order.** Under any guide it is over after as many rounds as the
arena has nodes, and never asks for a node that is not there. Its calls and the state it leaves are
those of the recursive pre-order from the root, and of no other. It visits no node twice, and visits
a node iff the root reaches it and the guide goes below every node above it. -/
theorem walk_eq_visits (ha : a.Built) (g : Guide σ) (s : σ) :
    (∀ rounds, a.size ≤ rounds →
        Walk.run a g.visitor rounds ⟨[rootId], s⟩ = ⟨[], a.walk g.visitor s⟩) ∧
      (∀ rounds, ∀ id ∈ (Walk.run a g.visitor rounds ⟨[rootId], s⟩).stack, id < a.size) ∧
      (∀ cs s', Visits a g [rootId] s cs s' ↔ cs = a.calls g s ∧ s' = a.walk g.visitor s) ∧
      ((a.calls g s).map Call.node).Nodup ∧
      ∀ id, id ∈ (a.calls g s).map Call.node ↔ a.Reaches rootId id ∧
        ∀ i, a.Reaches i id → i ≠ id → ∃ c ∈ a.calls g s, c.node = i ∧ c.enters = true := by
  have hl := ha.linked
  have hroot : ∀ id ∈ [rootId], a.Grounded id := List.forall_mem_singleton.mpr hl.grounded_root
  have hvisits := visits_calls hl g s
  have hsub : ((a.calls g s).map Call.node).Sublist (a.listing (fun _ => true) rootId) := by
    simpa using hvisits.sublist hl hroot
  refine ⟨fun rounds h => run_root_eq hl _ s h, fun rounds id hid => ?_, fun cs s' => ?_, ?_,
    fun id => ⟨fun hid => ⟨?_, fun i hi hne => ?_⟩, fun ⟨hreach, habove⟩ => ?_⟩⟩
  · exact (run_stack_grounded hl _ rounds hroot id hid).1
  · exact ⟨hvisits.unique, fun ⟨hcs, hs⟩ => hcs ▸ hs ▸ hvisits⟩
  · exact (nodup_listing hl _ hl.grounded_root).sublist hsub
  · exact reaches_of_mem_listing hl _ hl.grounded_root (hsub.subset hid)
  · exact hvisits.enters_above hl hi hne hid
  · exact hvisits.mem_of_enters_above hl hreach habove

end Arena

/-! ## A sample -/

/-- Counts the nodes, and goes below the first two of them. -/
def Sample.firstTwo : Guide Nat := fun _ _ s => (decide (s < 2), s + 1)

namespace Arena

/-- The guide meets four of the five nodes of the sample, not the one below itself, and goes below
the block that the third of them lies in. -/
theorem walk_eq_visits_sample :
    Visits Sample.few Sample.firstTwo [rootId] 0 (Sample.few.calls Sample.firstTwo 0) 4 ∧
      (Sample.few.calls Sample.firstTwo 0).map Call.node = [0, 1, 3, 4] ∧
      ∃ c ∈ Sample.few.calls Sample.firstTwo 0, c.node = 1 ∧ c.enters = true := by
  obtain ⟨-, -, hvisits, -, hmem⟩ :=
    walk_eq_visits (a := Sample.few) (Sample.built_grown _ _ _) Sample.firstTwo 0
  have hnodes : (Sample.few.calls Sample.firstTwo 0).map Call.node = [0, 1, 3, 4] := by decide
  refine ⟨(hvisits _ _).mpr ⟨rfl, by decide⟩, hnodes, ?_⟩
  exact ((hmem 3).mp (by rw [hnodes]; decide)).2 1
    (Relation.ReflTransGen.single (by decide)) (by decide)

end Arena

end HunkScope
