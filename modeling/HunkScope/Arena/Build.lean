import HunkScope.Arena.Basic

/-!
# Building arenas

The model of `SyntaxTreeBuilder` of `ast::tree`. An arena starts as a lone root and grows a node at
a time, each under a parent named by its id. The new node is stored first and linked second, so the
parent may be any node up to and including the new one; a node linked under itself is its own only
way in, and the root does not reach it.

* `Arena.single` (`new`): the arena of a root.
* `Arena.attach` (`insert`): one node more; `Arena.push` (`push`) refuses a parent past the new
  node.
* `Arena.build`: a root and a list of pushes.
* `Arena.place`, `Arena.placeAll`: pushes that say the ids of the new nodes.

Headlines:
* `size_attach`, `node?_attach`: an attachment adds one node, the last, and changes nothing of the
  others but the parent's list of children.
* `push_isOk_iff`: a push is refused exactly for a parent past the new node.
-/

namespace HunkScope.Arena

/-- The arena of a root alone. -/
def single (source : String) (root : NodeInfo) : Arena :=
  ⟨source, #[{ toNodeInfo := root, parent := none, children := #[] }]⟩

/-- Stores a node at the end of the array and adds it to its parent's children. -/
def attach (a : Arena) (parent : Nat) (info : NodeInfo) : Arena :=
  { a with
    nodes := (a.nodes.push { toNodeInfo := info, parent := some parent, children := #[] }).modify
      parent fun n => { n with children := n.children.push a.size } }

/-- Attaches a node under a parent that exists once the node is stored. -/
def push (a : Arena) (parent : Nat) (info : NodeInfo) : Except BadIndex Arena :=
  if parent ≤ a.size then .ok (a.attach parent info) else .error ⟨a.size + 1, parent⟩

/-- Pushes nodes in order, each with its parent. -/
def pushAll (a : Arena) (rows : List (Nat × NodeInfo)) : Except BadIndex Arena :=
  rows.foldlM (fun a row => a.push row.1 row.2) a

/-- The arena of a root and the nodes pushed after it. -/
def build (source : String) (root : NodeInfo) (rows : List (Nat × NodeInfo)) :
    Except BadIndex Arena :=
  (single source root).pushAll rows

/-- Pushes a node and says its id, the number of nodes before it. -/
def place (a : Arena) (parent : Nat) (info : NodeInfo) : Except BadIndex (Nat × Arena) :=
  (a.push parent info).map fun b => (a.size, b)

/-- Pushes nodes in order, each with its parent, and says their ids in that order. -/
def placeAll (a : Arena) : List (Nat × NodeInfo) → Except BadIndex (List Nat × Arena)
  | [] => .ok ([], a)
  | row :: rows => do
    let (id, b) ← a.place row.1 row.2
    let (ids, c) ← b.placeAll rows
    return (id :: ids, c)

/-! ## What an attachment does -/

theorem size_single (source : String) (root : NodeInfo) : (single source root).size = 1 := rfl

theorem size_attach (a : Arena) (parent : Nat) (info : NodeInfo) :
    (a.attach parent info).size = a.size + 1 := by
  simp [attach, size]

theorem source_attach (a : Arena) (parent : Nat) (info : NodeInfo) :
    (a.attach parent info).source = a.source := rfl

/-- **An attachment changes one list of children and adds one node.** -/
theorem node?_attach (a : Arena) (parent : Nat) (info : NodeInfo) (id : Nat) :
    (a.attach parent info).node? id =
      (if id = a.size then
          some { toNodeInfo := info, parent := some parent, children := #[] }
        else a.node? id).map
        fun n => if parent = id then { n with children := n.children.push a.size } else n := by
  simp only [node?, attach, Array.getElem?_modify, Array.getElem?_push, size]
  by_cases h : parent = id
  · simp [h]
  · simp only [if_neg h, Option.map_id_fun', id_eq]
    rfl

/-- A push that is not refused is an attachment. -/
theorem push_eq_ok_iff {a b : Arena} {parent : Nat} {info : NodeInfo} :
    a.push parent info = .ok b ↔ parent ≤ a.size ∧ b = a.attach parent info := by
  unfold push
  by_cases h : parent ≤ a.size <;> simp [h, eq_comm]

/-- **A push is refused exactly for a parent past the new node.** -/
theorem push_isOk_iff {a : Arena} {parent : Nat} {info : NodeInfo} :
    (∃ b, a.push parent info = .ok b) ↔ parent ≤ a.size := by
  simp only [push_eq_ok_iff, exists_and_left, exists_eq, and_true]

/-- The id of a pushed node is the number of nodes before it. -/
theorem place_eq_ok_iff {a b : Arena} {parent id : Nat} {info : NodeInfo} :
    a.place parent info = .ok (id, b) ↔
      parent ≤ a.size ∧ id = a.size ∧ b = a.attach parent info := by
  unfold place push
  by_cases h : parent ≤ a.size <;> simp [h, Except.map, eq_comm]

theorem place_of_le {a : Arena} {parent : Nat} (h : parent ≤ a.size) (info : NodeInfo) :
    a.place parent info = .ok (a.size, a.attach parent info) :=
  place_eq_ok_iff.mpr ⟨h, rfl, rfl⟩

end HunkScope.Arena
