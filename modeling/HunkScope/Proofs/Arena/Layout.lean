import HunkScope.Arena.Copy
import HunkScope.Proofs.Arena.Preorder

/-!
# Parse trees laid out as arenas

The nodes of a tree, in pre-order, are numbered from an id on. What each node of an arena must then
hold is settled by the tree alone: what the parser reports of the node, the number of the node above
it, and the numbers of its children in order.

A parser counts rows and columns by numbers of any size and an arena by words, so a node tells what
the parser reports as long as the rows and columns fit (`NodeReport.Fits`).

* `ParseTree.reports`: what the parser reports of the nodes, in pre-order.
* `ParseTree.rootIds`: the numbers of the roots of trees numbered one after the other.
* `ParseTree.links`: the numbers of the nodes above and below each node, in pre-order.
* `ParseTree.layout`: the nodes of the arena, in pre-order.
* `NodeInfo.Tells`: a node says what the parser reports.

Headlines:
* `NodeReport.Fits.tells`: what an arena keeps of a report that fits tells the report.
* `length_layout`, `map_layout`, `links_layout`: there is one node for each of the tree, and the
  nodes hold its reports and its links.
* `listing_layout`: the ids from the root of a tree on are, in order, the numbers of its nodes.
-/

namespace HunkScope

/-! ## Reports that fit -/

/-- The row and the column fit words. -/
def Place.Fits (p : Place) : Prop := p.row < UInt32.size ∧ p.column < UInt32.size

/-- Both ends of a node fit words. -/
def NodeReport.Fits (r : NodeReport) : Prop := r.start.Fits ∧ r.stop.Fits

/-- A node says what the parser reports, but for the field. -/
structure NodeInfo.Tells (n : NodeInfo) (r : NodeReport) : Prop where
  kind : n.kind = r.kind
  startRow : n.start.row.toNat = r.start.row
  startColumn : n.start.column.toNat = r.start.column
  stopRow : n.stop.row.toNat = r.stop.row
  stopColumn : n.stop.column.toNat = r.stop.column
  bytes : n.bytes = r.bytes
  isError : n.isError = r.isError
  isMissing : n.isMissing = r.isMissing

/-- **What an arena keeps of a report that fits** tells the report. -/
theorem NodeReport.Fits.tells {r : NodeReport} (h : r.Fits) (field : Option String) :
    (NodeInfo.ofReport r field).Tells r where
  kind := rfl
  startRow := UInt32.toNat_ofNat_of_lt' h.1.1
  startColumn := UInt32.toNat_ofNat_of_lt' h.1.2
  stopRow := UInt32.toNat_ofNat_of_lt' h.2.1
  stopColumn := UInt32.toNat_ofNat_of_lt' h.2.2
  bytes := rfl
  isError := rfl
  isMissing := rfl

namespace ParseTree

/-! ## Trees in pre-order -/

mutual

/-- What the parser reports of the nodes of a tree, in pre-order. -/
def reports : ParseTree → List NodeReport
  | node r cs => r :: forestReports cs

/-- What the parser reports of the nodes of a list of trees, tree after tree. -/
def forestReports : List ParseTree → List NodeReport
  | [] => []
  | t :: ts => reports t ++ forestReports ts

end

/-- All rows and columns of a tree fit words. -/
def Fits (t : ParseTree) : Prop := ∀ r ∈ t.reports, r.Fits

/-- The numbers of the roots when the nodes of trees are numbered from `id` on, tree after tree. -/
def rootIds (id : Nat) : List ParseTree → List Nat
  | [] => []
  | t :: ts => id :: rootIds (id + t.count) ts

mutual

/-- The links of the nodes of a tree numbered from `id` on, given the number of the node above: the
number of the node above each node, and the numbers of its children in order. -/
def links (parent : Option Nat) (id : Nat) : ParseTree → List (Option Nat × List Nat)
  | node _ cs => (parent, rootIds (id + 1) cs) :: forestLinks id (id + 1) cs

/-- The same for a list of trees below one node. -/
def forestLinks (parent id : Nat) : List ParseTree → List (Option Nat × List Nat)
  | [] => []
  | t :: ts => links (some parent) id t ++ forestLinks parent (id + t.count) ts

end

mutual

/-- The nodes of the arena of a tree numbered from `id` on, given the number of the node above and
the field that the root fills. -/
def layout (parent : Option Nat) (field : Option String) (id : Nat) : ParseTree → List Node
  | node r cs =>
    ⟨.ofReport r field, parent, (rootIds (id + 1) cs).toArray⟩ :: forestLayout id (id + 1) cs

/-- The same for a list of trees below one node. -/
def forestLayout (parent id : Nat) : List ParseTree → List Node
  | [] => []
  | t :: ts =>
    layout (some parent) t.report.field id t ++ forestLayout parent (id + t.count) ts

end

mutual

/-- There is one report for each node of a tree. -/
theorem length_reports : ∀ t : ParseTree, t.reports.length = t.count
  | node r cs => by
    rw [reports, List.length_cons, length_forestReports cs, count]

theorem length_forestReports : ∀ ts : List ParseTree, (forestReports ts).length = forestCount ts
  | [] => rfl
  | t :: ts => by
    rw [forestReports, List.length_append, length_reports t, length_forestReports ts, forestCount]

end

mutual

/-- There is one node for each of the tree. -/
theorem length_layout (parent : Option Nat) (field : Option String) (id : Nat) :
    ∀ t : ParseTree, (t.layout parent field id).length = t.count
  | node r cs => by
    rw [layout, List.length_cons, length_forestLayout id (id + 1) cs, count]

theorem length_forestLayout (parent id : Nat) :
    ∀ ts : List ParseTree, (forestLayout parent id ts).length = forestCount ts
  | [] => rfl
  | t :: ts => by
    rw [forestLayout, List.length_append, length_layout (some parent) t.report.field id t,
      length_forestLayout parent (id + t.count) ts, forestCount]

end

mutual

/-- **The nodes hold what the parser reports of them**, the root with the field it is given. -/
theorem map_layout (parent : Option Nat) (field : Option String) (id : Nat) :
    ∀ t : ParseTree, (t.layout parent field id).map (·.toNodeInfo) =
      .ofReport t.report field :: (forestReports t.children).map fun r => .ofReport r r.field
  | node r cs => by
    rw [layout, List.map_cons, map_forestLayout id (id + 1) cs, report, children]

theorem map_forestLayout (parent id : Nat) :
    ∀ ts : List ParseTree, (forestLayout parent id ts).map (·.toNodeInfo) =
      (forestReports ts).map fun r => .ofReport r r.field
  | [] => rfl
  | t :: ts => by
    have hreports : t.reports = t.report :: forestReports t.children := by
      cases t with
      | node r cs => rw [reports, report, children]
    rw [forestLayout, List.map_append, map_layout (some parent) t.report.field id t,
      map_forestLayout parent (id + t.count) ts, forestReports, List.map_append, hreports,
      List.map_cons]

end

mutual

/-- **The nodes hold the links of the tree.** -/
theorem links_layout (parent : Option Nat) (field : Option String) (id : Nat) :
    ∀ t : ParseTree, (t.layout parent field id).map (fun n => (n.parent, n.children.toList)) =
      t.links parent id
  | node r cs => by
    rw [layout, List.map_cons, links_forestLayout id (id + 1) cs, links]

theorem links_forestLayout (parent id : Nat) : ∀ ts : List ParseTree,
    (forestLayout parent id ts).map (fun n => (n.parent, n.children.toList)) =
      forestLinks parent id ts
  | [] => rfl
  | t :: ts => by
    rw [forestLayout, List.map_append, links_layout (some parent) t.report.field id t,
      links_forestLayout parent (id + t.count) ts, forestLinks]

end

/-- Trees are numbered from their first number on. -/
theorem le_of_mem_rootIds {c : Nat} : ∀ {ts : List ParseTree} {id : Nat}, c ∈ rootIds id ts → id ≤ c
  | t :: ts, id, h => by
    rcases List.mem_cons.mp h with rfl | h
    · exact Nat.le_refl c
    · have := le_of_mem_rootIds h
      omega

/-! ## Walks over a layout -/

variable {a : Arena}

mutual

/-- **From the root of a tree on, the ids are the numbers of its nodes.** -/
theorem listing_layout {parent : Option Nat} {field : Option String} :
    ∀ (t : ParseTree) (before rest : List Node),
      a.nodes.toList = before ++ (t.layout parent field before.length ++ rest) →
        a.listing (fun _ => true) before.length = List.range' before.length t.count
  | node r cs, before, rest, h => by
    rw [layout, List.cons_append] at h
    -- The root stands first; its children are laid out right after it.
    have hn : a.node? before.length =
        some ⟨.ofReport r field, parent, (rootIds (before.length + 1) cs).toArray⟩ := by
      rw [Arena.node?, ← Array.getElem?_toList, h, List.getElem?_append_right (Nat.le_refl _),
        Nat.sub_self, List.getElem?_cons_zero]
    have hlater : a.later before.length = rootIds (before.length + 1) cs := by
      rw [Arena.later, Arena.childrenOf, hn]
      exact List.filter_eq_self.mpr fun c hc => decide_eq_true (le_of_mem_rootIds hc)
    have hbelow := flatMap_listing_layout cs (before ++ [_]) rest (by
      rw [h, List.append_assoc, List.length_append, List.length_singleton, List.singleton_append])
    rw [List.length_append, List.length_singleton] at hbelow
    rw [Arena.listing_of_node hn, if_pos rfl, hlater, hbelow, count, List.range'_succ]

theorem flatMap_listing_layout {parent : Nat} :
    ∀ (ts : List ParseTree) (before rest : List Node),
      a.nodes.toList = before ++ (forestLayout parent before.length ts ++ rest) →
        (rootIds before.length ts).flatMap (a.listing fun _ => true) =
          List.range' before.length (forestCount ts)
  | [], _, _, _ => rfl
  | t :: ts, before, rest, h => by
    rw [forestLayout, List.append_assoc] at h
    have hlen : (before ++ t.layout (some parent) t.report.field before.length).length =
        before.length + t.count := by
      rw [List.length_append, length_layout]
    have hothers := flatMap_listing_layout ts
      (before ++ t.layout (some parent) t.report.field before.length) rest
      (by rw [h, List.append_assoc, hlen])
    rw [hlen] at hothers
    rw [rootIds, List.flatMap_cons, listing_layout t before _ h, hothers, forestCount,
      List.range'_append_1]

end

end ParseTree

end HunkScope
