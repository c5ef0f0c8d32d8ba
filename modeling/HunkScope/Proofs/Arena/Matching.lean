import HunkScope.Proofs.Arena.Visits
import Mathlib.Data.List.Nodup
import Mathlib.Data.Set.Function

/-!
# Matching arenas

Two arenas may hold the same ordered tree under different ids: filled in another order, or with
nodes that the root does not reach. `Matches f a b` says that `f` takes the root to the root and the
children of each node, in order, to the children of its image. Ids that the root does not reach are
of no concern. Walks from the root are then step by step the same: visitors that keep a relation
between their states at matching nodes (`Keeps`) leave related states, and visitors that do the same
there (`Follows`) leave the same.

Headlines:
* `Matches.bijOn`: the nodes that the roots reach are matched one to one.
* `Matches.parentOf?`: parents match as well.
* **`Matches.walk_keeps`**: visitors that keep a relation between their states leave related states.
* `Matches.walk_eq`: visitors that do the same at matching nodes leave the same.
* `Matches.calls_eq`: guides that do the same at matching nodes are called on matching nodes, in the
  same order.
-/

namespace HunkScope

/-- The call with its node renamed. -/
def Call.relabel {σ : Type} (f : Nat → Nat) (c : Call σ) : Call σ := { c with node := f c.node }

namespace Arena

/-- The root is taken to the root, and the children of every node that the root reaches are taken,
in order, to the children of its image. -/
structure Matches (f : Nat → Nat) (a b : Arena) : Prop where
  root : f rootId = rootId
  children : ∀ id, a.Reaches rootId id → b.childrenOf (f id) = (a.childrenOf id).map f

variable {σ τ : Type} {f : Nat → Nat} {a b : Arena} {i j : Nat}

namespace Matches

theorem reaches (hf : Matches f a b) (hi : a.Reaches rootId i) : b.Reaches rootId (f i) := by
  induction hi with
  | refl =>
    rw [hf.root]
    exact Relation.ReflTransGen.refl
  | tail hp hi ih =>
    refine ih.tail ?_
    rw [hf.children _ hp]
    exact List.mem_map_of_mem hi

theorem exists_reaches (hf : Matches f a b) (hj : b.Reaches rootId j) :
    ∃ i, a.Reaches rootId i ∧ f i = j := by
  induction hj with
  | refl => exact ⟨rootId, Relation.ReflTransGen.refl, hf.root⟩
  | tail _ hj ih =>
    obtain ⟨p, hp, rfl⟩ := ih
    rw [hf.children p hp] at hj
    obtain ⟨i, hi, rfl⟩ := List.mem_map.mp hj
    exact ⟨i, hp.tail hi, rfl⟩

/-- **Parents match.** -/
theorem parentOf? (hf : Matches f a b) (ha : a.Linked) (hb : b.Linked)
    (hi : a.Reaches rootId i) : b.parentOf? (f i) = (a.parentOf? i).map f := by
  rcases Relation.ReflTransGen.cases_tail hi with rfl | ⟨p, hp, hpi⟩
  · rw [hf.root, hb.parentOf?_root, ha.parentOf?_root, Option.map_none]
  · rw [ha.mem_childrenOf.mp hpi, Option.map_some, ← hb.mem_childrenOf, hf.children p hp]
    exact List.mem_map_of_mem hpi

/-- No two nodes match the same one: their parents would, and an image has each child once. -/
theorem eq_of_eq (hf : Matches f a b) (ha : a.Linked) (hb : b.Linked) (hi : a.Reaches rootId i)
    (hj : a.Reaches rootId j) (h : f i = f j) : i = j := by
  induction hi generalizing j with
  | refl =>
    rcases Relation.ReflTransGen.cases_tail hj with rfl | ⟨q, hq, hqj⟩
    · rfl
    · have hparent := hf.parentOf? ha hb hj
      rw [← h, hf.root, hb.parentOf?_root, ha.mem_childrenOf.mp hqj] at hparent
      cases hparent
  | @tail p i hp hpi ih =>
    have hparent := hf.parentOf? ha hb hj
    rw [← h, hf.parentOf? ha hb (hp.tail hpi), ha.mem_childrenOf.mp hpi, Option.map_some] at hparent
    obtain ⟨q, hq, hpq⟩ := Option.map_eq_some_iff.mp hparent.symm
    rcases Relation.ReflTransGen.cases_tail hj with rfl | ⟨q', hq', hqj⟩
    · rw [ha.parentOf?_root] at hq
      cases hq
    · obtain rfl : q' = q := Option.some.inj ((ha.mem_childrenOf.mp hqj).symm.trans hq)
      obtain rfl := ih hq' hpq.symm
      have hnodup := hb.nodup_childrenOf (f p)
      rw [hf.children p hp] at hnodup
      exact List.inj_on_of_nodup_map hnodup hpi hqj h

/-- **The nodes that the roots reach are matched one to one.** -/
theorem bijOn (hf : Matches f a b) (ha : a.Linked) (hb : b.Linked) :
    Set.BijOn f {i | a.Reaches rootId i} {j | b.Reaches rootId j} :=
  ⟨fun _ hi => hf.reaches hi, fun _ hi _ hj h => hf.eq_of_eq ha hb hi hj h,
    fun _ hj => hf.exists_reaches hj⟩

end Matches

/-! ## Walks of matching arenas -/

/-- At matching nodes, from related states, the second visitor goes on as the first does, and leaves
a related state. -/
def Keeps (f : Nat → Nat) (R : σ → τ → Prop) (a b : Arena) (v : Visitor σ) (w : Visitor τ) : Prop :=
  ∀ i n m s t, a.Reaches rootId i → a.node? i = some n → b.node? (f i) = some m → R s t →
    (w (f i) m t).1 = (v i n s).1 ∧ R (v i n s).2 (w (f i) m t).2

/-- At matching nodes the second visitor does what the first does, with states read by `F`. -/
def Follows (f : Nat → Nat) (F : σ → τ) (a b : Arena) (v : Visitor σ) (w : Visitor τ) : Prop :=
  ∀ i n m s, a.Reaches rootId i → a.node? i = some n → b.node? (f i) = some m →
    w (f i) m (F s) = ((v i n s).1, F (v i n s).2)

/-- Both tours are over or both are ended, in related states. -/
def Ends (R : σ → τ → Prop) : Except σ σ → Except τ τ → Prop
  | .ok s, .ok t => R s t
  | .error s, .error t => R s t
  | .ok _, .error _ => False
  | .error _, .ok _ => False

theorem Ends.outcome {R : σ → τ → Prop} {e : Except σ σ} {e' : Except τ τ} (h : Ends R e e') :
    R (outcome e) (Arena.outcome e') := by
  cases e with
  | ok s =>
    cases e' with
    | ok t => exact h
    | error t => exact h.elim
  | error s =>
    cases e' with
    | ok t => exact h.elim
    | error t => exact h

/-- What comes after tours that are over has related ends too. -/
theorem Ends.bind {R : σ → τ → Prop} {e : Except σ σ} {e' : Except τ τ} (h : Ends R e e')
    {g : σ → Except σ σ} {k : τ → Except τ τ} (hgk : ∀ s t, R s t → Ends R (g s) (k t)) :
    Ends R (e >>= g) (e' >>= k) := by
  cases e with
  | ok s =>
    cases e' with
    | ok t => exact hgk s t h
    | error t => exact h.elim
  | error s =>
    cases e' with
    | ok t => exact h.elim
    | error t => exact h

theorem Matches.tours_keep (hf : Matches f a b) (ha : a.Linked) (hb : b.Linked)
    {R : σ → τ → Prop} {v : Visitor σ} {w : Visitor τ} (hv : Keeps f R a b v w) :
    ∀ ids : List Nat, (∀ i ∈ ids, a.Grounded i) → (∀ i ∈ ids, a.Reaches rootId i) → ∀ s t,
      R s t → Ends R (ids.foldlM (fun s i => a.tour v i s) s)
        ((ids.map f).foldlM (fun t i => b.tour w i t) t) := by
  refine ha.forestInduction (fun _ s t hst => hst) fun i rest hg ihbelow ihrest hreach s t hst => ?_
  have hi := hreach i List.mem_cons_self
  have hrest := ihrest fun j hj => hreach j (List.mem_cons_of_mem i hj)
  have hgb := hb.grounded_of_reaches (hf.reaches hi)
  obtain ⟨n, hn⟩ := hg.exists_node
  obtain ⟨m, hm⟩ := hgb.exists_node
  obtain ⟨hreaction, hstate⟩ := hv i n m s t hi hn hm hst
  rw [List.map_cons, List.foldlM_cons, List.foldlM_cons, tour_eq hg ha hn, tour_eq hgb hb hm,
    hreaction, hf.children i hi]
  cases (v i n s).1 with
  | descend => exact (ihbelow (fun c hc => hi.tail hc) _ _ hstate).bind hrest
  | skip => exact hrest _ _ hstate
  | stop => exact hstate

/-- **Visitors that keep a relation between their states leave related states.** -/
theorem Matches.walk_keeps (hf : Matches f a b) (ha : a.Linked) (hb : b.Linked)
    {R : σ → τ → Prop} {v : Visitor σ} {w : Visitor τ} (hv : Keeps f R a b v w) {s : σ} {t : τ}
    (hst : R s t) : R (a.walk v s) (b.walk w t) := by
  have h := hf.tours_keep ha hb hv [rootId] (List.forall_mem_singleton.mpr ha.grounded_root)
    (List.forall_mem_singleton.mpr Relation.ReflTransGen.refl) s t hst
  rw [List.map_singleton, hf.root, tours_singleton, tours_singleton] at h
  rw [walk, walk, walkFrom_eq_tour ha v ha.grounded_root, walkFrom_eq_tour hb w hb.grounded_root]
  exact h.outcome

/-- **Visitors that do the same at matching nodes leave the same.** -/
theorem Matches.walk_eq (hf : Matches f a b) (ha : a.Linked) (hb : b.Linked) {F : σ → τ}
    {v : Visitor σ} {w : Visitor τ} (hv : Follows f F a b v w) (s : σ) :
    b.walk w (F s) = F (a.walk v s) := by
  refine hf.walk_keeps ha hb (R := fun s t => t = F s) ?_ rfl
  rintro i n m s _ hi hn hm rfl
  rw [hv i n m s hi hn hm]
  exact ⟨rfl, rfl⟩

/-- **Guides that do the same at matching nodes are called on matching nodes**, in the same order
and with the same states. -/
theorem Matches.calls_eq (hf : Matches f a b) (ha : a.Linked) (hb : b.Linked) {g k : Guide σ}
    (hg : ∀ i n m s, a.Reaches rootId i → a.node? i = some n → b.node? (f i) = some m →
      k (f i) m s = g i n s) (s : σ) :
    b.calls k s = (a.calls g s).map (Call.relabel f) := by
  have hv : Follows f (fun st : σ × List (Call σ) => (st.1, st.2.map (Call.relabel f))) a b
      g.noting.visitor k.noting.visitor := by
    intro i n m s hi hn hm
    unfold Guide.visitor Guide.noting
    rw [hg i n m s.1 hi hn hm]
    simp only [List.map_append, List.map_cons, List.map_nil, Call.relabel]
  exact congrArg Prod.snd (hf.walk_eq ha hb hv (s, []))

end Arena

end HunkScope
