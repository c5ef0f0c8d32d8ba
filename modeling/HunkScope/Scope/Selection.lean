import HunkScope.Arena.Walk
import HunkScope.Event
import HunkScope.Scope.Contender

/-!
# Selecting the scope of a hunk

The model of `resolve` and `resolve_many` of `EnclosingContextResolver` in `ast::context`, and of
the events they and `check_tree` note down. The search walks the nodes from the root. It passes over
whatever lies below a node that is clear of the hunk; at a node that covers the hunk it sets the
node's contender, if there is one, against the best scope so far. The scope left at the end is the
answer, and the log tells how it came to be.

* `Search.visit`: one visit, the closure that `resolve` hands to `walk_pre_order`.
* `Search.weigh` (`Best::offer`): a contender against the best scope, with the event if it is taken.
* `Arena.search`, `Arena.scopeOf?` (`resolve`): the search from the root, and the scope of a hunk.
* `Arena.scopesOf` (`resolve_many`): the scope of each of several hunks.

Premise: what a parallel map collects stands in the order of what it was asked for
(`collectInOrder`).
-/

namespace HunkScope

/-- A search under way: the best scope so far, and the events up to now. -/
structure Search where
  best : Option Scope
  log : Array Event
deriving DecidableEq, Repr

namespace Search

/-- A search that has seen nothing. -/
def start : Search := ⟨none, #[]⟩

/-- Sets the contender of a node against the best scope so far (`Best::offer`). -/
def weigh (s : Search) (node : Nat) (c : Contender) : Search :=
  if c.beats s.best then ⟨some c.scope, s.log.push (.accepted node c.scope)⟩ else s

/-- Notes a subtree that is passed over. -/
def pass (s : Search) (node : Nat) (kind : String) : Search :=
  { s with log := s.log.push (.pruned node kind) }

/-- Weighs the contender of a node that covers the hunk, if there is one. -/
def consider (a : Arena) (rule : LoopRule) (h : Hunk) (id : Nat) (n : Node) (s : Search) :
    Search :=
  if n.covers h then
    match a.contender? rule id with
    | some c => s.weigh id c
    | none => s
  else s

/-- Passes over a node clear of the hunk, considers any other and goes below it (the closure of
`resolve`). -/
def visit (a : Arena) (rule : LoopRule) (h : Hunk) : Visitor Search := fun id n s =>
  if n.clearOf h then (.skip, s.pass id n.kind) else (.descend, consider a rule h id n s)

theorem best_weigh (s : Search) (node : Nat) (c : Contender) :
    (s.weigh node c).best = Contender.contend s.best c := by
  unfold weigh Contender.contend
  split <;> rfl

theorem best_pass (s : Search) (node : Nat) (kind : String) : (s.pass node kind).best = s.best :=
  rfl

end Search

/-- What a parallel map collects. **Premise**: the results stand in the order of the items, in
whatever order they are computed, so this is the map. -/
def collectInOrder {α β : Type} (ask : α → β) (items : List α) : List β := items.map ask

namespace Arena

/-- The search for the scope of a hunk. -/
def search (a : Arena) (rule : LoopRule) (h : Hunk) : Search :=
  a.walk (Search.visit a rule h) .start

/-- The scope of a hunk, if any construct encloses it. -/
def scopeOf? (a : Arena) (rule : LoopRule) (h : Hunk) : Option Scope := (a.search rule h).best

/-- The events of the search for the scope of a hunk. -/
def scopeLog (a : Arena) (rule : LoopRule) (h : Hunk) : List Event := (a.search rule h).log.toList

/-- The scope of each hunk, in the order of the hunks. -/
def scopesOf (a : Arena) (rule : LoopRule) (hs : List Hunk) : List (Option Scope) :=
  collectInOrder (a.scopeOf? rule) hs

/-- The events of a verdict: the fault it reports, if it reports one. -/
def verdictLog (a : Arena) : List Event :=
  match a.firstFault? with
  | some fault => [.fault fault.1 fault.2]
  | none => []

end Arena

end HunkScope
