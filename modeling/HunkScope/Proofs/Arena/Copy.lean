import HunkScope.Proofs.Arena.Layout

/-!
# The copy of a parse tree

A copy moves a cursor and keeps a path of ids beside it. What the moves do to the arena is also
said by recursion over the tree (`Arena.graft`), and what the recursion leaves is the tree's layout
(`nodes_graftForest`): it pushes nodes in pre-order, so a node's id is its place in that order.

The cursor and the recursion are tied by two statements, proved together by recursion on the tree
(`moves_below`, `moves_beside`): from the first visit of a node a copy comes to the climb from it,
with everything below it grafted and the path unchanged; and from a climb it comes to the climb
from the parent, with the siblings to the right grafted.

* `Arena.Copies`: an arena holds a tree in pre-order.

Headlines:
* `graftForest_keeps`: what an attachment keeps, a graft keeps.
* `nodes_graftForest`: grafted trees stand at the end of the array, laid out, and their roots at the
  end of the list of children above them.
* `moves_to_end`: every copy comes to an end.
* `Aligned.step`: the path holds an id for the cursor's node and for each node above it, so no
  move pushes a node below the end of an empty path.
* **`ofTree_faithful`**: the arena of a tree is a copy of the tree in pre-order.
-/

namespace HunkScope

open ParseTree

/-- A node with more children at the end of its list. -/
def Node.adopt (ids : List Nat) (n : Node) : Node :=
  { n with children := n.children ++ ids.toArray }

theorem Node.adopt_nil (n : Node) : n.adopt [] = n := by
  simp [adopt]

theorem Node.adopt_adopt (n : Node) (ids more : List Nat) :
    (n.adopt ids).adopt more = n.adopt (ids ++ more) := by
  simp [adopt]

/-- What an arena keeps of the root of a tree that stands below another node. -/
def ParseTree.info (t : ParseTree) : NodeInfo := .ofReport t.report t.report.field

namespace Arena

mutual

/-- Attaches a tree under a node, each node after those before it in pre-order. -/
def graft (a : Arena) (parent : Nat) : ParseTree → Arena
  | .node r cs => graftForest (a.attach parent (.ofReport r r.field)) a.size cs

/-- Attaches trees under a node, one after the other. -/
def graftForest (a : Arena) (parent : Nat) : List ParseTree → Arena
  | [] => a
  | t :: ts => graftForest (graft a parent t) parent ts

end

theorem graft_eq (a : Arena) (parent : Nat) (t : ParseTree) :
    a.graft parent t = (a.attach parent t.info).graftForest a.size t.children := by
  cases t with
  | node r cs => rw [graft, ParseTree.info, ParseTree.report, ParseTree.children]

mutual

theorem size_graft (a : Arena) (parent : Nat) :
    ∀ t : ParseTree, (a.graft parent t).size = a.size + t.count
  | .node r cs => by
    rw [graft, size_graftForest _ a.size cs, size_attach, count]
    omega

theorem size_graftForest (a : Arena) (parent : Nat) :
    ∀ ts : List ParseTree, (a.graftForest parent ts).size = a.size + forestCount ts
  | [] => rfl
  | t :: ts => by
    rw [graftForest, size_graftForest (a.graft parent t) parent ts, size_graft a parent t,
      forestCount]
    omega

end

mutual

/-- **What an attachment under a standing node keeps, a graft keeps.** -/
theorem graft_keeps {P : Arena → Prop}
    (keeps : ∀ b p i, p < b.size → P b → P (b.attach p i)) {a : Arena} (ha : P a) {parent : Nat}
    (hp : parent < a.size) : ∀ t : ParseTree, P (a.graft parent t)
  | .node r cs => by
    rw [graft]
    exact graftForest_keeps keeps (keeps a parent _ hp ha) (by rw [size_attach]; omega) cs

theorem graftForest_keeps {P : Arena → Prop}
    (keeps : ∀ b p i, p < b.size → P b → P (b.attach p i)) {a : Arena} (ha : P a) {parent : Nat}
    (hp : parent < a.size) : ∀ ts : List ParseTree, P (a.graftForest parent ts)
  | [] => by rwa [graftForest]
  | t :: ts => by
    rw [graftForest]
    exact graftForest_keeps keeps (graft_keeps keeps ha hp t) (by rw [size_graft]; omega) ts

end

/-! ## Grafts are layouts -/

/-- A change to a node of the first of two lists leaves the second alone. -/
theorem modify_append_of_lt {i : Nat} {ms : List Node} (hi : i < ms.length) (ns : List Node)
    (f : Node → Node) : (ms ++ ns).modify i f = ms.modify i f ++ ns := by
  rw [List.modify_eq_take_cons_drop hi,
    List.modify_eq_take_cons_drop (by rw [List.length_append]; omega),
    List.take_append_of_le_length (Nat.le_of_lt hi), List.drop_append_of_le_length hi,
    List.getElem_append_left hi, List.append_assoc, List.cons_append]

/-- A change to the first node of the second of two lists. -/
theorem modify_append_length {i : Nat} {ms : List Node} (hi : ms.length = i) (n : Node)
    (f : Node → Node) : (ms ++ [n]).modify i f = ms ++ [f n] := by
  rw [← hi]
  exact List.modifyTailIdx_add _ 0 ms [n]

/-- An attachment under a node that stands already. -/
theorem nodes_attach {a : Arena} {parent : Nat} (hp : parent < a.size) (info : NodeInfo) :
    (a.attach parent info).nodes.toList =
      a.nodes.toList.modify parent (Node.adopt [a.size]) ++ [⟨info, some parent, #[]⟩] := by
  rw [← modify_append_of_lt (by simpa [size] using hp), ← Array.toList_push, ← Array.toList_modify]
  congr 2

mutual

/-- **A tree is grafted as its layout**, and its root becomes the last child of the parent. -/
theorem nodes_graft {a : Arena} {parent : Nat} (hp : parent < a.size) :
    ∀ t : ParseTree, (a.graft parent t).nodes.toList =
      a.nodes.toList.modify parent (Node.adopt [a.size]) ++
        t.layout (some parent) t.report.field a.size
  | .node r cs => by
    have hlen : (a.nodes.toList.modify parent (Node.adopt [a.size])).length = a.size := by
      rw [List.length_modify, Array.length_toList, size]
    have hroot : Node.adopt (rootIds (a.size + 1) cs) ⟨.ofReport r r.field, some parent, #[]⟩ =
        ⟨.ofReport r r.field, some parent, (rootIds (a.size + 1) cs).toArray⟩ := by
      simp [Node.adopt]
    -- The root is the last node when its children come, and theirs is the only list that changes.
    rw [graft, nodes_graftForest (by rw [size_attach]; omega) cs, nodes_attach hp, size_attach,
      modify_append_length hlen, hroot, layout, ParseTree.report, List.append_assoc,
      List.singleton_append]

theorem nodes_graftForest {a : Arena} {parent : Nat} (hp : parent < a.size) :
    ∀ ts : List ParseTree, (a.graftForest parent ts).nodes.toList =
      a.nodes.toList.modify parent (Node.adopt (rootIds a.size ts)) ++
        forestLayout parent a.size ts
  | [] => by
    have hid : Node.adopt [] = id := funext Node.adopt_nil
    rw [graftForest, rootIds, forestLayout, List.append_nil, hid, List.modify_id]
  | t :: ts => by
    have hlt : parent < (a.nodes.toList.modify parent (Node.adopt [a.size])).length := by
      rwa [List.length_modify, Array.length_toList]
    have hadopt : Node.adopt (rootIds (a.size + t.count) ts) ∘ Node.adopt [a.size] =
        Node.adopt (rootIds a.size (t :: ts)) :=
      funext fun n => n.adopt_adopt [a.size] (rootIds (a.size + t.count) ts)
    rw [graftForest, nodes_graftForest (by rw [size_graft]; omega) ts, nodes_graft hp t,
      size_graft, modify_append_of_lt hlt, List.modify_modify_eq, hadopt, forestLayout,
      List.append_assoc]

end

end Arena

/-! ## The moves of a copy -/

namespace Copy

/-- Some moves lead from one copy to the other. -/
def Moves : Copy → Copy → Prop := Relation.ReflTransGen fun c d => c.step = .ok (some d)

/-- A copy and what some moves make of it have one outcome. -/
theorem Moves.run_eq {c d : Copy} (h : Moves c d) : c.run = d.run := by
  induction h with
  | refl => rfl
  | tail _ hde ih => rw [ih, run_of_step hde]

/-- A sound copy moves to sound copies only. -/
theorem Moves.sound {c d : Copy} (hc : c.Sound) (h : Moves c d) : d.Sound := by
  induction h with
  | refl => exact hc
  | @tail d e _ hde ih =>
    obtain ⟨next, hstep, hnext⟩ := ih.step
    exact hnext e (Except.ok.inj (hstep.symm.trans hde))

/-- Going down to a first child pushes it below the node the cursor stood on. -/
theorem step_down {r : NodeReport} {t : ParseTree} {ts : List ParseTree} {crumbs : List Crumb}
    {id : Nat} {path : List Nat} {a : Arena} (hid : id < a.size) :
    (Copy.mk .descend ⟨.node r (t :: ts), crumbs⟩ (id :: path) a).step =
      .ok (some ⟨.descend, ⟨t, ⟨r, [], ts⟩ :: crumbs⟩, a.size :: id :: path,
        a.attach id t.info⟩) := by
  rw [step, Cursor.firstChild?]
  simp only [enter, List.head?_cons, Option.getD_some, Arena.place_of_le (Nat.le_of_lt hid)]
  rfl

/-- Going over to a sibling pushes it below the node above both. -/
theorem step_over {r : NodeReport} {u t : ParseTree} {left ts : List ParseTree}
    {crumbs : List Crumb} {last id : Nat} {path : List Nat} {a : Arena} (hid : id < a.size) :
    (Copy.mk .climb ⟨u, ⟨r, left, t :: ts⟩ :: crumbs⟩ (last :: id :: path) a).step =
      .ok (some ⟨.descend, ⟨t, ⟨r, u :: left, ts⟩ :: crumbs⟩, a.size :: id :: path,
        a.attach id t.info⟩) := by
  rw [step, Cursor.nextSibling?]
  simp only [enter, List.tail_cons, List.head?_cons, Option.getD_some,
    Arena.place_of_le (Nat.le_of_lt hid)]
  rfl

mutual

/-- **From the first visit of a node a copy comes to the climb from it**, with everything below
the node grafted and the path unchanged. -/
theorem moves_below : ∀ (t : ParseTree) (crumbs : List Crumb) (id : Nat) (path : List Nat)
    (a : Arena), id < a.size → Moves ⟨.descend, ⟨t, crumbs⟩, id :: path, a⟩
      ⟨.climb, ⟨t, crumbs⟩, id :: path, a.graftForest id t.children⟩
  | .node r [], crumbs, id, path, a, _ => by
    rw [ParseTree.children, Arena.graftForest]
    exact Relation.ReflTransGen.single rfl
  | .node r (t :: ts), crumbs, id, path, a, hid => by
    have hfirst := moves_below t (⟨r, [], ts⟩ :: crumbs) a.size (id :: path) (a.attach id t.info)
      (by rw [Arena.size_attach]; omega)
    rw [← Arena.graft_eq] at hfirst
    have hothers := moves_beside ts t r [] crumbs a.size id path (a.graft id t)
      (by rw [Arena.size_graft]; omega)
    rw [ParseTree.children, Arena.graftForest]
    exact Relation.ReflTransGen.head (step_down hid) (hfirst.trans hothers)

/-- **From the climb from a node a copy comes to the climb from its parent**, with the siblings to
the right grafted under the parent. -/
theorem moves_beside : ∀ (ts : List ParseTree) (u : ParseTree) (r : NodeReport)
    (left : List ParseTree) (crumbs : List Crumb) (last id : Nat) (path : List Nat) (a : Arena),
    id < a.size → Moves ⟨.climb, ⟨u, ⟨r, left, ts⟩ :: crumbs⟩, last :: id :: path, a⟩
      ⟨.climb, ⟨.node r (left.reverse ++ u :: ts), crumbs⟩, id :: path, a.graftForest id ts⟩
  | [], u, r, left, crumbs, last, id, path, a, _ => by
    rw [Arena.graftForest]
    exact Relation.ReflTransGen.single rfl
  | t :: ts, u, r, left, crumbs, last, id, path, a, hid => by
    have hnext := moves_below t (⟨r, u :: left, ts⟩ :: crumbs) a.size (id :: path)
      (a.attach id t.info) (by rw [Arena.size_attach]; omega)
    rw [← Arena.graft_eq] at hnext
    have hothers := moves_beside ts t r (u :: left) crumbs a.size id path (a.graft id t)
      (by rw [Arena.size_graft]; omega)
    rw [List.reverse_cons, List.append_assoc, List.singleton_append] at hothers
    rw [Arena.graftForest]
    exact Relation.ReflTransGen.head (step_over hid) (hnext.trans hothers)

end

/-- The copy of a tree when nothing is left to do. -/
def finish (source : String) (t : ParseTree) : Copy where
  phase := .climb
  cursor := .ofTree t
  path := [Arena.rootId]
  arena := (Arena.single source (.ofReport t.report none)).graftForest Arena.rootId t.children

/-- **Every copy comes to an end.** -/
theorem moves_to_end (source : String) (t : ParseTree) :
    Moves (start source t) (finish source t) ∧ (finish source t).step = .ok none :=
  ⟨moves_below t [] Arena.rootId [] _ Nat.one_pos, rfl⟩

/-! ## The path beside the cursor -/

/-- The path holds an id for the cursor's node and for each node above it. -/
def Aligned (c : Copy) : Prop := c.path.length = c.cursor.depth + 1

/-- The second copy has a node more than the first, pushed below the top of the path. -/
def PushedBelowTop (c d : Copy) : Prop :=
  ∃ parent above, d.path = c.arena.size :: parent :: above ∧
    c.arena.place parent (.ofReport d.cursor.focus.report d.cursor.field?) =
      .ok (c.arena.size, d.arena)

/-- A push beside a path that is as long as the cursor is deep is one below the top of the path. -/
theorem aligned_of_enter {c d : Copy} {cursor : Cursor} {path : List Nat}
    (h : (enter c.arena path cursor).map some = .ok (some d)) (hpath : path.length = cursor.depth)
    (hdepth : 0 < cursor.depth) : d.Aligned ∧ PushedBelowTop c d := by
  obtain ⟨parent, above, rfl⟩ := List.exists_cons_of_length_pos (hpath ▸ hdepth)
  obtain ⟨hle, rfl⟩ := of_enter h
  exact ⟨congrArg (· + 1) hpath, parent, above, rfl, Arena.place_of_le hle _⟩

/-- **A move keeps the path in step with the cursor**, and pushes a node only below the top of a
path. -/
theorem Aligned.step {c d : Copy} (hc : c.Aligned) (h : c.step = .ok (some d)) :
    d.Aligned ∧ (d.arena = c.arena ∨ PushedBelowTop c d) := by
  obtain ⟨phase, ⟨⟨r, cs⟩, crumbs⟩, path, a⟩ := c
  have hlength : path.tail.length = crumbs.length := by
    rw [List.length_tail, show path.length = crumbs.length + 1 from hc, Nat.add_sub_cancel]
  cases phase with
  | descend =>
    cases cs with
    | nil =>
      obtain rfl := Option.some.inj (Except.ok.inj h)
      exact ⟨hc, Or.inl rfl⟩
    | cons t ts =>
      exact (aligned_of_enter h hc (Nat.succ_pos _)).imp_right Or.inr
  | climb =>
    cases crumbs with
    | nil => cases h
    | cons crumb crumbs =>
      obtain ⟨j, left, right⟩ := crumb
      cases right with
      | nil =>
        obtain rfl := Option.some.inj (Except.ok.inj h)
        exact ⟨hlength, Or.inl rfl⟩
      | cons t ts =>
        exact (aligned_of_enter h hlength (Nat.succ_pos _)).imp_right Or.inr

theorem Aligned.moves {c d : Copy} (hc : c.Aligned) (h : Moves c d) : d.Aligned := by
  induction h with
  | refl => exact hc
  | tail _ hde ih => exact (ih.step hde).1

end Copy

/-! ## The arena of a tree -/

namespace Arena

variable (source : String) (t : ParseTree)

theorem ofTree_eq : ofTree source t = (Copy.finish source t).arena := by
  obtain ⟨hmoves, hend⟩ := Copy.moves_to_end source t
  have hrun := Copy.run_start source t
  rw [hmoves.run_eq, Copy.run_of_end hend] at hrun
  exact (Except.ok.inj hrun).symm

theorem source_ofTree : (ofTree source t).source = source := by
  rw [ofTree_eq]
  exact graftForest_keeps (P := fun b => b.source = source) (fun _ _ _ _ hb => hb) rfl
    Nat.one_pos t.children

theorem built_ofTree : (ofTree source t).Built := by
  rw [ofTree_eq]
  exact graftForest_keeps (fun _ _ i hp hb => hb.attach (Nat.le_of_lt hp) i) (Built.single _ _)
    Nat.one_pos t.children

theorem nodes_ofTree : (ofTree source t).nodes.toList = t.layout none none rootId := by
  cases t with
  | node r cs =>
    rw [ofTree_eq, Copy.finish, nodes_graftForest Nat.one_pos]
    simp [single, size, layout, rootId, Node.adopt, ParseTree.report, ParseTree.children]

theorem size_ofTree : (ofTree source t).size = t.count := by
  rw [size, ← Array.length_toList, nodes_ofTree, length_layout]

/-- A walk over the arena of a tree visits the ids as they were given. -/
theorem preorder_ofTree : (ofTree source t).preorder = List.range t.count := by
  have h := listing_layout t [] [] (a := ofTree source t)
    (by rw [nodes_ofTree, List.append_nil]; rfl)
  rw [preorder, preorderWhere_eq_listing (built_ofTree source t).linked, List.range_eq_range']
  exact h

/-- The node of an id keeps the report at the same place in pre-order, the root without a field. -/
theorem node?_ofTree {k : Nat} {r : NodeReport} (hr : t.reports[k]? = some r) :
    ∃ n, (ofTree source t).node? k = some n ∧
      n.toNodeInfo = .ofReport r (if k = rootId then none else r.field) := by
  have hinfo : ((ofTree source t).nodes.toList.map (·.toNodeInfo))[k]? =
      some (.ofReport r (if k = rootId then none else r.field)) := by
    rw [nodes_ofTree, map_layout]
    obtain ⟨root, cs⟩ := t
    cases k with
    | zero =>
      obtain rfl := Option.some.inj hr
      rfl
    | succ k =>
      have hbelow : (forestReports cs)[k]? = some r := hr
      rw [List.getElem?_cons_succ, List.getElem?_map, children, hbelow]
      rfl
  rw [List.getElem?_map, Array.getElem?_toList, Option.map_eq_some_iff] at hinfo
  exact hinfo

/-- An arena holds a tree in pre-order. -/
structure Copies (a : Arena) (source : String) (t : ParseTree) : Prop where
  source : a.source = source
  /-- There is one node for each of the tree. -/
  size : a.size = t.reports.length
  /-- The node of an id tells what the parser reports of the node at that place in pre-order. The
  root fills no field, the other nodes fill theirs. -/
  told : ∀ k r, t.reports[k]? = some r → ∃ n, a.node? k = some n ∧ n.Tells r ∧
    n.field = if k = 0 then none else r.field
  /-- Every node names the node above it, and lists the nodes right below it in order. -/
  linked : a.nodes.toList.map (fun n => (n.parent, n.children.toList)) = t.links none 0
  /-- A walk visits the ids as they were given. -/
  walked : a.preorder = List.range t.reports.length

/-- **The arena of a tree is a copy of the tree in pre-order**, when the rows and columns of the
tree fit words. The moves come to an end, no push is refused, and every push is made below the top
of a path that is not empty. The node of an id says what the parser reports of the node at that
place in pre-order, the links are those of the tree, and a walk visits the nodes in the order of
their ids. -/
theorem ofTree_faithful (hfits : t.Fits) :
    (Copy.start source t).run = .ok (ofTree source t) ∧
    (∃ c, Copy.Moves (Copy.start source t) c ∧ c.step = .ok none ∧ c.arena = ofTree source t) ∧
    (∀ c, Copy.Moves (Copy.start source t) c → ∃ next, c.step = .ok next ∧
      ∀ d, next = some d → d.arena = c.arena ∨ Copy.PushedBelowTop c d) ∧
    (ofTree source t).Copies source t := by
  obtain ⟨hmoves, hend⟩ := Copy.moves_to_end source t
  have haligned : (Copy.start source t).Aligned := rfl
  refine ⟨Copy.run_start source t, ⟨_, hmoves, hend, (ofTree_eq source t).symm⟩, fun c hc => ?_, ?_⟩
  · obtain ⟨next, hnext, -⟩ := (hc.sound (Copy.sound_start source t)).step
    refine ⟨next, hnext, ?_⟩
    rintro d rfl
    exact ((haligned.moves hc).step hnext).2
  constructor
  case source => exact source_ofTree source t
  case size => rw [size_ofTree, length_reports]
  case told =>
    intro k r hr
    obtain ⟨n, hn, hinfo⟩ := node?_ofTree source t hr
    refine ⟨n, hn, ?_, ?_⟩
    · rw [hinfo]
      exact (hfits r (List.mem_of_getElem? hr)).tells _
    · rw [hinfo]
      rfl
  case linked => rw [nodes_ofTree, links_layout, rootId]
  case walked => rw [preorder_ofTree, length_reports]

end Arena

/-! ## A sample -/

/-- A function `f` in the first column of the last two rows that a word can count, and its name. -/
def Sample.lateTree : ParseTree :=
  .node ⟨"module", some "body", ⟨0, 0⟩, ⟨4294967295, 0⟩, ⟨0, 1⟩, false, false⟩
    [.node ⟨"comment", none, ⟨0, 0⟩, ⟨0, 3⟩, ⟨0, 0⟩, false, false⟩ [],
      .node ⟨"function_definition", none, ⟨4294967294, 0⟩, ⟨4294967295, 0⟩, ⟨0, 1⟩, false, false⟩
        [.node ⟨"identifier", some "name", ⟨4294967294, 4⟩, ⟨4294967294, 5⟩, ⟨0, 1⟩, false, true⟩
          []]]

/-- The name is the fourth node, in its row and with its field; the module fills no field. -/
theorem Arena.ofTree_faithful_sample :
    Sample.lateTree.Fits ∧
      (∃ n, (ofTree "f" Sample.lateTree).node? 3 = some n ∧ n.kind = "identifier" ∧
        n.field = some "name" ∧ n.start.row.toNat = 4294967294 ∧ n.isMissing = true ∧
        n.parent = some 2) ∧
      ∃ n, (ofTree "f" Sample.lateTree).node? 0 = some n ∧ n.field = none := by
  have hfits : Sample.lateTree.Fits := by
    unfold ParseTree.Fits NodeReport.Fits Place.Fits
    decide
  obtain ⟨-, -, -, hcopy⟩ := ofTree_faithful "f" Sample.lateTree hfits
  obtain ⟨n, hn, htold, hfield⟩ := hcopy.told 3 _ rfl
  obtain ⟨root, hroot, -, hnone⟩ := hcopy.told 0 _ rfl
  have hlinks := congrArg (fun l => l[3]?) hcopy.linked
  simp only [List.getElem?_map, Array.getElem?_toList] at hlinks
  rw [show (ofTree "f" Sample.lateTree).nodes[3]? = some n from hn] at hlinks
  have hparent : n.parent = some 2 := congrArg Prod.fst (Option.some.inj hlinks)
  exact ⟨hfits, ⟨n, hn, htold.kind, hfield, htold.startRow, htold.isMissing, hparent⟩,
    root, hroot, hnone⟩

end HunkScope
