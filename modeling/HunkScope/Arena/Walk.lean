import HunkScope.Arena.Basic

/-!
# Walks

The model of `walk_pre_order` and `first_error` of `ast::tree`, which are one loop. A walk visits
nodes from a starting node on, parents before children and children in order. The ids still to visit
wait on a stack. A visitor sees each node with a state of its own, changes the state, and says how
the walk goes on.

* `Walk.step`: one visit, a turn of the loop. `Walk.run`: so many visits.
* `Arena.walkFrom`: a walk of as many visits as the arena has nodes. A walk that meets no node
  twice needs no more; a walk from a node linked under itself meets that node again and again and
  is cut off there.
* `Arena.walk` (`walk_pre_order`): the walk from the root.
* `Arena.preorderWhere`: the ids visited by a walk that passes over what lies below some nodes.
* `Arena.firstFlagged?` (`first_error`): the first node with a mistake, found by a walk that ends on
  it.
-/

namespace HunkScope

/-- How a walk goes on after a visit. -/
inductive Reaction where
  /-- The children are next. -/
  | descend
  /-- What lies below the node is passed over. -/
  | skip
  /-- The walk ends. -/
  | stop
deriving DecidableEq, Repr

/-- A visitor: given a node and its own state, how the walk goes on and the state after. -/
abbrev Visitor (σ : Type) := Nat → Node → σ → Reaction × σ

/-- A walk under way: the ids still to visit, next first, and the visitor's state. -/
structure Walk (σ : Type) where
  stack : List Nat
  state : σ

namespace Walk

variable {σ : Type}

/-- The stack after a visit to a node. -/
def stackAfter (n : Node) (rest : List Nat) : Reaction → List Nat
  | .descend => n.children.toList ++ rest
  | .skip => rest
  | .stop => []

/-- Visits the id on top of the stack. An id of no node is dropped. -/
def step (a : Arena) (visit : Visitor σ) (w : Walk σ) : Walk σ :=
  match w.stack with
  | [] => w
  | id :: rest =>
    match a.node? id with
    | none => { w with stack := rest }
    | some n =>
      let after := visit id n w.state
      ⟨stackAfter n rest after.1, after.2⟩

/-- Visits until the stack is empty, at most so many times. -/
def run (a : Arena) (visit : Visitor σ) : Nat → Walk σ → Walk σ
  | 0, w => w
  | rounds + 1, w =>
    match w.stack with
    | [] => w
    | _ :: _ => run a visit rounds (w.step a visit)

/-! ## Steps -/

theorem step_cons {a : Arena} {id : Nat} {n : Node} (h : a.node? id = some n)
    (visit : Visitor σ) (rest : List Nat) (s : σ) :
    (Walk.mk (id :: rest) s).step a visit =
      ⟨stackAfter n rest (visit id n s).1, (visit id n s).2⟩ := by
  simp only [step, h]

theorem run_nil (a : Arena) (visit : Visitor σ) (s : σ) :
    ∀ rounds, run a visit rounds ⟨[], s⟩ = ⟨[], s⟩
  | 0 => rfl
  | _ + 1 => rfl

theorem run_cons (a : Arena) (visit : Visitor σ) (rounds : Nat) (id : Nat)
    (rest : List Nat) (s : σ) :
    run a visit (rounds + 1) ⟨id :: rest, s⟩ =
      run a visit rounds ((Walk.mk (id :: rest) s).step a visit) := rfl

/-- Rounds add up. -/
theorem run_add (a : Arena) (visit : Visitor σ) :
    ∀ (m n : Nat) (w : Walk σ), run a visit (m + n) w = run a visit n (run a visit m w)
  | 0, n, w => by rw [Nat.zero_add]; rfl
  | m + 1, n, ⟨[], s⟩ => by rw [run_nil, run_nil, run_nil]
  | m + 1, n, ⟨id :: rest, s⟩ => by
    rw [show m + 1 + n = (m + n) + 1 by omega, run_cons, run_cons, run_add a visit m n]

end Walk

namespace Arena

/-- The visitor's state after a walk from a node. -/
def walkFrom {σ : Type} (a : Arena) (visit : Visitor σ) (id : Nat) (s : σ) : σ :=
  (Walk.run a visit a.size ⟨[id], s⟩).state

/-- The visitor's state after a walk from the root. -/
def walk {σ : Type} (a : Arena) (visit : Visitor σ) (s : σ) : σ :=
  a.walkFrom visit rootId s

/-- Notes every node, and goes below those that pass a test. -/
def collect (enter : Node → Bool) : Visitor (Array Nat) := fun id n seen =>
  (if enter n then .descend else .skip, seen.push id)

/-- The ids a walk from the root visits when it goes only below nodes that pass a test. -/
def preorderWhere (a : Arena) (enter : Node → Bool) : List Nat :=
  (a.walk (collect enter) #[]).toList

/-- The ids a walk from the root visits. -/
def preorder (a : Arena) : List Nat := a.preorderWhere fun _ => true

/-- Ends the walk on a node with a mistake, and remembers it. -/
def seekFlagged : Visitor (Option Nat) := fun id n found =>
  if n.isFlagged then (.stop, some id) else (.descend, found)

/-- The first node with a mistake, in the order of a walk from `id`. -/
def firstFlagged? (a : Arena) (id : Nat) : Option Nat :=
  a.walkFrom seekFlagged id none

end Arena

end HunkScope
