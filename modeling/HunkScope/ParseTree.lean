import HunkScope.Arena.Basic

/-!
# Parse trees

A `ParseTree` is what a parser returns: a finite ordered tree of nodes. It stands for the tree that
the grammar runtime hands over (`Tree`, `Node`), as far as it is read: the kind of a node, the field
of its parent that it fills, where it stands, and whether the text was wrong there.

The runtime counts rows and columns in words of the machine, which an arena is too narrow for. Here
they are numbers of any size.

Premise: the tree is finite and ordered, and a node fills one field at most.
-/

namespace HunkScope

/-- A place in a text as a parser reports it: row and column, both counted from zero; columns count
bytes. -/
structure Place where
  row : Nat
  column : Nat
deriving DecidableEq, Repr, Inhabited

/-- What a parser reports of one node. -/
structure NodeReport where
  kind : String
  /-- The field of the parent that the node fills. -/
  field : Option String
  start : Place
  stop : Place
  bytes : ByteSpan
  /-- The node covers text that fits no rule. -/
  isError : Bool
  /-- The node stands for a token the text lacks. -/
  isMissing : Bool
deriving DecidableEq, Repr, Inhabited

/-- A finite ordered tree of what a parser reports of each node. -/
inductive ParseTree where
  | node (report : NodeReport) (children : List ParseTree)
deriving Inhabited

namespace ParseTree

/-- What the parser reports of the root. -/
def report : ParseTree → NodeReport
  | node r _ => r

/-- The subtrees below the root, in order. -/
def children : ParseTree → List ParseTree
  | node _ cs => cs

mutual

/-- The number of nodes of a tree. -/
def count : ParseTree → Nat
  | node _ cs => forestCount cs + 1

/-- The number of nodes of a list of trees. -/
def forestCount : List ParseTree → Nat
  | [] => 0
  | t :: ts => count t + forestCount ts

end

theorem count_eq (t : ParseTree) : t.count = forestCount t.children + 1 := by
  cases t with
  | node r cs => rfl

theorem forestCount_cons (t : ParseTree) (ts : List ParseTree) :
    forestCount (t :: ts) = t.count + forestCount ts := rfl

end ParseTree

end HunkScope
