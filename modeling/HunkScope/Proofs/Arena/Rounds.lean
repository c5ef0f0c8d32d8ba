import HunkScope.Proofs.Arena.Growth
import HunkScope.Proofs.Arena.Preorder

/-!
# The rounds of a walk

`Walk.run` makes so many rounds and no more. Here a walk goes on for as long as there is anything on
its stack: it *ends* when some number of rounds empties the stack, and then leaves one state. From a
grounded node it always ends. A node below itself is the first of its own children, so a visitor
that goes below it finds it on top of the stack again, over a stack that has only grown, and that
walk goes on for ever.

* `Walk.EndsIn`: a walk ends and leaves a state.
* `Walk.popped`: the ids that so many rounds take off the stack.

Headlines:
* `run_stack_forall`: what children have from their parents holds of every id on the stack.
* `nodup_popped`: from a grounded node no id is taken off the stack twice, whatever the visitor
  does.
* **`not_endsIn_below_itself`**: a walk that goes below a node below itself does not end.
-/

namespace HunkScope

namespace Walk

variable {σ : Type} {a : Arena} {visit : Visitor σ}

/-- The walk ends, after some number of rounds, and leaves a state. -/
def EndsIn (a : Arena) (visit : Visitor σ) (w : Walk σ) (s : σ) : Prop :=
  ∃ rounds, run a visit rounds w = ⟨[], s⟩

/-- The ids that so many rounds take off the stack, in order. -/
def popped (a : Arena) (visit : Visitor σ) : Nat → Walk σ → List Nat
  | 0, _ => []
  | rounds + 1, w =>
    match w.stack with
    | [] => []
    | id :: _ => id :: popped a visit rounds (w.step a visit)

theorem popped_nil (s : σ) : ∀ rounds, popped a visit rounds ⟨[], s⟩ = []
  | 0 => rfl
  | _ + 1 => rfl

theorem popped_cons (rounds id : Nat) (rest : List Nat) (s : σ) :
    popped a visit (rounds + 1) ⟨id :: rest, s⟩ =
      id :: popped a visit rounds ((Walk.mk (id :: rest) s).step a visit) := rfl

/-- A walk leaves one state: rounds after the end change nothing. -/
theorem EndsIn.unique {w : Walk σ} {s s' : σ} (h : EndsIn a visit w s)
    (h' : EndsIn a visit w s') : s = s' := by
  obtain ⟨m, hm⟩ := h
  obtain ⟨n, hn⟩ := h'
  have hmn : run a visit (m + n) w = ⟨[], s⟩ := by rw [run_add, hm, run_nil]
  have hnm : run a visit (n + m) w = ⟨[], s'⟩ := by rw [run_add, hn, run_nil]
  rw [Nat.add_comm, hmn] at hnm
  exact congrArg Walk.state hnm

end Walk

namespace Arena

variable {σ : Type} {a : Arena} {visit : Visitor σ} {id : Nat}

/-! ## What is on the stack -/

theorem step_stack_forall {P : Nat → Prop} (hP : ∀ p, P p → ∀ c ∈ a.childrenOf p, P c)
    (visit : Visitor σ) {w : Walk σ} (hw : ∀ i ∈ w.stack, P i) :
    ∀ i ∈ (w.step a visit).stack, P i := by
  obtain ⟨_ | ⟨top, rest⟩, s⟩ := w
  · exact hw
  · obtain ⟨htop, hrest⟩ := List.forall_mem_cons.mp hw
    cases hn : a.node? top with
    | none => simpa only [Walk.step, hn] using hrest
    | some n =>
      have hchildren : ∀ c ∈ n.children.toList, P c := childrenOf_of_node hn ▸ hP top htop
      rw [Walk.step_cons hn]
      cases (visit top n s).1 with
      | descend => exact List.forall_mem_append.mpr ⟨hchildren, hrest⟩
      | skip => exact hrest
      | stop => exact fun i hi => absurd hi List.not_mem_nil

/-- **What children have from their parents holds of every id on the stack**, when it does at the
start. -/
theorem run_stack_forall {P : Nat → Prop} (hP : ∀ p, P p → ∀ c ∈ a.childrenOf p, P c)
    (visit : Visitor σ) : ∀ (rounds : Nat) {w : Walk σ}, (∀ i ∈ w.stack, P i) →
      ∀ i ∈ (Walk.run a visit rounds w).stack, P i
  | 0, _, hw => hw
  | _ + 1, ⟨[], _⟩, hw => hw
  | rounds + 1, ⟨id :: rest, s⟩, hw => by
    rw [Walk.run_cons]
    exact run_stack_forall hP visit rounds (step_stack_forall hP visit hw)

/-- A walk from a node never has an id on its stack that names no node. -/
theorem run_stack_lt (ha : a.Linked) (visit : Visitor σ) (hid : id < a.size) (s : σ)
    (rounds : Nat) : ∀ i ∈ (Walk.run a visit rounds ⟨[id], s⟩).stack, i < a.size :=
  run_stack_forall (P := (· < a.size)) (fun _ _ _ hc => (ha.bounds_of_mem_childrenOf hc).2) visit
    rounds (List.forall_mem_singleton.mpr hid)

/-! ## What is taken off the stack -/

/-- From grounded nodes on, the ids taken off the stack are some of those listed from these nodes
on, in the same order. -/
theorem popped_sublist (ha : a.Linked) (visit : Visitor σ) :
    ∀ (rounds : Nat) (stack : List Nat) (s : σ), (∀ i ∈ stack, a.Grounded i) →
      (Walk.popped a visit rounds ⟨stack, s⟩).Sublist (stack.flatMap a.subtree)
  | 0, _, _, _ => List.nil_sublist _
  | _ + 1, [], _, _ => List.nil_sublist _
  | rounds + 1, id :: rest, s, hstack => by
    obtain ⟨hg, hrest⟩ := List.forall_mem_cons.mp hstack
    obtain ⟨n, hn⟩ := hg.exists_node
    rw [Walk.popped_cons, Walk.step_cons hn, List.flatMap_cons, subtree_eq hg ha,
      List.cons_append]
    refine List.Sublist.cons_cons id ?_
    cases (visit id n s).1 with
    | descend =>
      rw [Walk.stackAfter, ← childrenOf_of_node hn, ← List.flatMap_append]
      exact popped_sublist ha visit rounds _ _
        (List.forall_mem_append.mpr ⟨fun c hc => (hg.child ha hc).2, hrest⟩)
    | skip =>
      exact (popped_sublist ha visit rounds rest _ hrest).trans (List.sublist_append_right _ _)
    | stop =>
      rw [Walk.stackAfter, Walk.popped_nil]
      exact List.nil_sublist _

/-- **From a grounded node no id is taken off the stack twice.** -/
theorem nodup_popped (ha : a.Linked) (visit : Visitor σ) (hg : a.Grounded id) (s : σ)
    (rounds : Nat) : (Walk.popped a visit rounds ⟨[id], s⟩).Nodup := by
  have hsub := popped_sublist ha visit rounds [id] s (List.forall_mem_singleton.mpr hg)
  rw [List.flatMap_singleton] at hsub
  exact (nodup_listing ha _ hg).sublist hsub

/-! ## Nodes below themselves -/

/-- **A node below itself is the first of its own children**: none of them is earlier than it. -/
theorem Linked.childrenOf_below_itself (ha : a.Linked) (hself : a.parentOf? id = some id) :
    ∃ later, a.childrenOf id = id :: later := by
  have hmem : id ∈ a.childrenOf id := ha.mem_childrenOf.mpr hself
  have hsorted := ha.pairwise_childrenOf id
  cases hc : a.childrenOf id with
  | nil =>
    rw [hc] at hmem
    cases hmem
  | cons c later =>
    have hle : id ≤ c := ha.parent_le (ha.mem_childrenOf.mp (hc ▸ List.mem_cons_self))
    rw [hc] at hmem hsorted
    rcases List.mem_cons.mp hmem with rfl | hlater
    · exact ⟨later, rfl⟩
    · have := (List.pairwise_cons.mp hsorted).1 id hlater
      omega

/-- A walk that goes below a node below itself has that node on top of its stack after any number of
rounds. -/
theorem run_below_itself (ha : a.Linked) {n : Node} (hself : a.parentOf? id = some id)
    (hn : a.node? id = some n) (hdescend : ∀ s, (visit id n s).1 = .descend) :
    ∀ (rounds : Nat) (rest : List Nat) (s : σ), ∃ rest' s',
      Walk.run a visit rounds ⟨id :: rest, s⟩ = ⟨id :: rest', s'⟩
  | 0, rest, s => ⟨rest, s, rfl⟩
  | rounds + 1, rest, s => by
    obtain ⟨later, hlater⟩ := ha.childrenOf_below_itself hself
    rw [Walk.run_cons, Walk.step_cons hn, hdescend, Walk.stackAfter, ← childrenOf_of_node hn,
      hlater, List.cons_append]
    exact run_below_itself ha hself hn hdescend rounds _ _

/-- **A walk that goes below a node below itself does not end.** -/
theorem not_endsIn_below_itself (ha : a.Linked) {n : Node} (hself : a.parentOf? id = some id)
    (hn : a.node? id = some n) (hdescend : ∀ s, (visit id n s).1 = .descend) (s s' : σ) :
    ¬ Walk.EndsIn a visit ⟨[id], s⟩ s' := by
  rintro ⟨rounds, hend⟩
  obtain ⟨rest, t, htop⟩ := run_below_itself ha hself hn hdescend rounds [] s
  rw [htop] at hend
  exact List.cons_ne_nil _ _ (congrArg Walk.stack hend)

end Arena

end HunkScope
