import HunkScope.Point
import HunkScope.Text.Slice

/-!
# The arena of a parsed text

The model of `SyntaxTree`, `SyntaxNode` and `NodeInit` of `ast::tree`. An `Arena` holds one parse of
one source text: its nodes in an array, linked by their positions. A node's position is its id
(`NodeId`), and the root is node 0. Links go both ways: every node names its parent, and lists its
children in the order they were added.

The data are plain. `Arena.Build` makes arenas and keeps the two directions of the links in step;
everything here reads any array of nodes, and an id that names no node reads as a node with no
kind, no links and no text. `Arena.within` refuses such an id where a caller supplies it.

* `Arena.node?`, `Arena.parentOf?`, `Arena.kindOf?`, `Arena.childrenOf` (`node`, `parent`, `kind`,
  `children`): what is stored of a node.
* `Arena.childByField?`, `Arena.childByKind?` (`child_by_field_name`, `child_of_kind`): the first
  child that fits.
* `Arena.textOf` (`text`): the part of the source that a node covers.

Premise: an array read past its end stops the program with a message (`BadIndex`), and offsets into
a text count bytes.
-/

namespace HunkScope

/-- A range of bytes of the source, from `first` up to `last`. -/
structure ByteSpan where
  first : Nat
  last : Nat
deriving DecidableEq, Repr, Inhabited

/-- What a parser says of one node: its kind, the field of the parent it fills, where it stands,
and whether the text was wrong there. -/
structure NodeInfo where
  kind : String
  field : Option String
  start : Point
  stop : Point
  bytes : ByteSpan
  /-- The node covers text that fits no rule. -/
  isError : Bool
  /-- The node stands for a token the text lacks. -/
  isMissing : Bool
deriving DecidableEq, Repr, Inhabited

/-- The first line of a node, counted from one. -/
def NodeInfo.firstLine (n : NodeInfo) : UInt32 := n.start.line

/-- The last line of a node, counted from one. -/
def NodeInfo.lastLine (n : NodeInfo) : UInt32 := n.stop.line

/-- The parser found a mistake at the node. -/
def NodeInfo.isFlagged (n : NodeInfo) : Bool := n.isError || n.isMissing

/-- A node of an arena: what the parser says of it, and its links. -/
structure Node extends NodeInfo where
  parent : Option Nat
  children : Array Nat
deriving DecidableEq, Repr, Inhabited

/-- One parse of one source text. -/
structure Arena where
  source : String
  nodes : Array Node
deriving DecidableEq, Repr, Inhabited

/-- An id that names no node of an arena of `size` nodes. -/
structure BadIndex where
  size : Nat
  index : Nat
deriving DecidableEq, Repr

/-- How a bad index is reported. -/
def BadIndex.message (e : BadIndex) : String :=
  s!"index out of bounds: the len is {e.size} but the index is {e.index}"

namespace Arena

/-- The id of the root. -/
def rootId : Nat := 0

/-- The number of nodes. -/
def size (a : Arena) : Nat := a.nodes.size

/-- The node of an id. -/
def node? (a : Arena) (id : Nat) : Option Node := a.nodes[id]?

/-- Answers a question about a node, or refuses an id that names none. -/
def within {α : Type} (a : Arena) (id : Nat) (ask : Node → α) : Except BadIndex α :=
  match a.node? id with
  | some n => .ok (ask n)
  | none => .error ⟨a.size, id⟩

/-- The kind of a node. -/
def kindOf? (a : Arena) (id : Nat) : Option String := (a.node? id).map (·.kind)

/-- The parent of a node; the root has none. -/
def parentOf? (a : Arena) (id : Nat) : Option Nat := (a.node? id).bind (·.parent)

/-- The children of a node, in order. -/
def childrenOf (a : Arena) (id : Nat) : List Nat :=
  match a.node? id with
  | some n => n.children.toList
  | none => []

/-- The first child whose node passes a test. -/
def childWhere? (a : Arena) (id : Nat) (test : Node → Bool) : Option Nat :=
  (a.childrenOf id).find? fun c => (a.node? c).any test

/-- The first child that fills a field. -/
def childByField? (a : Arena) (id : Nat) (field : String) : Option Nat :=
  a.childWhere? id fun n => n.field == some field

/-- The first child of a kind. -/
def childByKind? (a : Arena) (id : Nat) (kind : String) : Option Nat :=
  a.childWhere? id fun n => n.kind == kind

/-- The text of a span: empty unless both of its ends are boundaries of characters, in order. -/
def spanText (a : Arena) (span : ByteSpan) : String :=
  String.ofList ((Text.slice span.first span.last a.source.toList).getD [])

/-- The text of a node. -/
def textOf (a : Arena) (id : Nat) : String :=
  match a.node? id with
  | some n => a.spanText n.bytes
  | none => ""

/-! ## Reading lemmas -/

theorem node?_eq_some_iff {a : Arena} {id : Nat} {n : Node} :
    a.node? id = some n ↔ ∃ h : id < a.size, a.nodes[id] = n :=
  Array.getElem?_eq_some_iff

theorem node?_isSome_iff {a : Arena} {id : Nat} : (a.node? id).isSome ↔ id < a.size := by
  rw [Option.isSome_iff_exists]
  simp only [node?_eq_some_iff]
  exact ⟨fun ⟨_, h, _⟩ => h, fun h => ⟨_, h, rfl⟩⟩

theorem childrenOf_of_node {a : Arena} {id : Nat} {n : Node} (h : a.node? id = some n) :
    a.childrenOf id = n.children.toList := by
  simp only [childrenOf, h]

/-- A question is refused exactly for an id past the end. -/
theorem within_eq_error_iff {α : Type} {a : Arena} {id : Nat} {ask : Node → α} {e : BadIndex} :
    a.within id ask = .error e ↔ a.size ≤ id ∧ e = ⟨a.size, id⟩ := by
  unfold within
  cases h : a.node? id with
  | some n =>
    have := (node?_eq_some_iff.mp h).1
    simp only [reduceCtorEq, false_iff, not_and]
    omega
  | none =>
    have : ¬ id < a.size := by rw [← node?_isSome_iff, h]; simp
    simp only [Except.error.injEq]
    exact ⟨fun he => ⟨by omega, he.symm⟩, fun he => he.2.symm⟩

/-- A child that passes a test is a child, and its node passes the test. -/
theorem childWhere?_eq_some {a : Arena} {id c : Nat} {test : Node → Bool}
    (h : a.childWhere? id test = some c) :
    c ∈ a.childrenOf id ∧ ∃ n, a.node? c = some n ∧ test n = true := by
  have htest := List.find?_some (p := fun c => (a.node? c).any test) h
  exact ⟨List.mem_of_find?_eq_some h, (Option.any_eq_true _ _).mp htest⟩

end Arena

end HunkScope
