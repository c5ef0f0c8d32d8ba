import HunkScope.Proofs.Scope.Naming
import HunkScope.Proofs.Scope.RunningBest
import Mathlib.Data.List.Basic

/-!
# What lies below a clear node is hidden

A search passes over whatever lies below a node that is clear of the hunk. So nodes that are pushed
below such a node, or below one another there, change neither the scope nor the log, whatever they
are: they may cover the hunk, be local functions, or bear names. No other node lists them among its
children, so none is named by them, and none is below a parent that was not there before.

* `GrownBelow`: an arena grown below one node.

Headlines:
* `grownBelow_of_placeAll`: pushes below a node, or below one another, grow an arena below it.
* `GrownBelow.contender?`: any other older node has the contender it had.
* `GrownBelow.listing_eq`: a listing that does not go below the node holds the ids it held.
* **`scopeOf?_placeAll_below_clear`**: pushes below a clear node change no answer and no event.
-/

namespace HunkScope.Arena

/-- `b` is `a` with nodes added that lie below `p`: of the older nodes only `p` may have new
children. -/
structure GrownBelow (p : Nat) (a b : Arena) : Prop where
  source : b.source = a.source
  size : a.size ≤ b.size
  /-- Older nodes say what they said, under the parents they had. -/
  kept : ∀ id < a.size, b.infoOf? id = a.infoOf? id ∧ b.parentOf? id = a.parentOf? id
  children : ∀ id < a.size, id ≠ p → b.childrenOf id = a.childrenOf id

variable {a b : Arena} {p : Nat} {rule : LoopRule} {h : Hunk}

/-- **Pushes below a node, or below one another, grow an arena below that node.** -/
theorem grownBelow_of_placeAll (ha : a.Built) {rows : List (Nat × NodeInfo)} {ids : List Nat}
    (hb : a.placeAll rows = .ok (ids, b)) (hrows : ∀ row ∈ rows, row.1 = p ∨ row.1 ∈ ids) :
    GrownBelow p a b := by
  have hg := grows_of_placeAll hb
  refine ⟨hg.source, by rw [hg.size]; omega, hg.kept, fun id hid hne => ?_⟩
  have holder : ∀ c < a.size, (b.parentOf? c == some id) = (a.parentOf? c == some id) := by
    intro c hc
    rw [(hg.kept c hc).2]
  -- The parent of a new node is `p` or new itself, and `id` is neither.
  have hnewer : ∀ c ∈ List.range' a.size rows.length, ¬ (b.parentOf? c == some id) = true := by
    intro c hc hparent
    obtain ⟨k, hk, rfl⟩ := List.mem_range'.mp hc
    have hrow := (hg.added k rows[k] (List.getElem?_eq_getElem hk)).2.1
    rw [Nat.one_mul, hrow, beq_iff_eq, Option.some.injEq] at hparent
    rcases hrows _ (List.getElem_mem hk) with hp | hnew
    · exact hne (hparent.symm.trans hp)
    · rw [hparent, hg.ids] at hnew
      obtain ⟨j, -, hj⟩ := List.mem_range'.mp hnew
      omega
  rw [(ha.placeAll hb).linked.children, ha.linked.children, hg.size, List.range_eq_range',
    List.range_eq_range', ← List.range'_append_1, List.filter_append, Nat.zero_add,
    List.filter_eq_nil_iff.mpr hnewer, List.append_nil]
  refine List.filter_congr fun c hc => holder c ?_
  rw [← List.range_eq_range'] at hc
  exact List.mem_range.mp hc

namespace GrownBelow

/-! ## Older nodes -/

theorem exists_nodes (hg : GrownBelow p a b) {id : Nat} (hid : id < a.size) :
    ∃ n m, a.node? id = some n ∧ b.node? id = some m ∧ m.toNodeInfo = n.toNodeInfo := by
  obtain ⟨n, hn⟩ := exists_node_of_lt hid
  have hinfo : b.infoOf? id = some n.toNodeInfo := by
    rw [(hg.kept id hid).1, infoOf?_of_node hn]
  obtain ⟨m, hm, hmn⟩ := Option.map_eq_some_iff.mp hinfo
  exact ⟨n, m, hn, hm, hmn⟩

theorem kindOf? (hg : GrownBelow p a b) {id : Nat} (hid : id < a.size) :
    b.kindOf? id = a.kindOf? id := by
  rw [kindOf?_eq_map_infoOf?, kindOf?_eq_map_infoOf?, (hg.kept id hid).1]

/-- Any older node but `p` is alike in the two arenas. -/
theorem alike (hg : GrownBelow p a b) (ha : a.Linked) {id : Nat} (hid : id < a.size)
    (hne : id ≠ p) : Alike (fun i => i) a b id where
  source := hg.source
  info := (hg.kept id hid).1
  children := by rw [hg.children id hid hne, List.map_id']
  below := fun c hc => (hg.kept c (lt_size_of_parentOf? (ha.mem_childrenOf.mp hc))).1

theorem isLocalFunction (hg : GrownBelow p a b) (ha : a.Linked) {id : Nat} (hid : id < a.size) :
    b.isLocalFunction id = a.isLocalFunction id := by
  have hparent : ∀ {i q}, i < a.size → a.parentOf? i = some q → q < a.size := fun hi hq =>
    Nat.lt_of_le_of_lt (ha.parent_le hq) hi
  rw [Arena.isLocalFunction, Arena.isLocalFunction, (hg.kept id hid).2]
  cases hblock : a.parentOf? id with
  | none => rfl
  | some block =>
    have hlt := hparent hid hblock
    simp only [Option.any_some, hg.kindOf? hlt, (hg.kept block hlt).2]
    cases howner : a.parentOf? block with
    | none => rfl
    | some owner => simp only [Option.any_some, hg.kindOf? (hparent hlt howner)]

/-- **Any older node but `p` has the contender it had.** -/
theorem contender? (hg : GrownBelow p a b) (ha : a.Linked) {id : Nat} (hid : id < a.size)
    (hne : id ≠ p) (rule : LoopRule) : b.contender? rule id = a.contender? rule id :=
  (hg.alike ha hid hne).contender? (hg.isLocalFunction ha hid) rule

theorem grounded (hg : GrownBelow p a b) {id : Nat} (hid : a.Grounded id) : b.Grounded id :=
  ⟨Nat.lt_of_lt_of_le hid.1 hg.size, by rw [(hg.kept id hid.1).2]; exact hid.2⟩

/-! ## Walks that do not go below `p` -/

/-- **A listing that does not go below `p` holds the ids it held.** -/
theorem listing_eq (hg : GrownBelow p a b) (ha : a.Linked) (hb : b.Linked)
    (enter : NodeInfo → Bool) (hp : ∀ n, a.infoOf? p = some n → enter n = false) :
    ∀ id, a.Grounded id → b.listing (fun n => enter n.toNodeInfo) id =
      a.listing (fun n => enter n.toNodeInfo) id := by
  refine ha.groundedInduction fun id hid ih => ?_
  obtain ⟨n, m, hn, hm, hinfo⟩ := hg.exists_nodes hid.1
  rw [Arena.listing_eq hid ha hn, Arena.listing_eq (hg.grounded hid) hb hm, hinfo]
  by_cases hne : id = p
  · have hskip : enter n.toNodeInfo = false := hp _ (hne ▸ infoOf?_of_node hn)
    rw [hskip, if_neg Bool.false_ne_true, if_neg Bool.false_ne_true]
  · rw [hg.children id hid.1 hne, List.flatMap_congr ih]

/-- A visit to an older node does what it did when `p` is clear of the hunk. -/
theorem after_eq (hg : GrownBelow p a b) (ha : a.Linked)
    (hp : ∀ n, a.infoOf? p = some n → n.clearOf h = true) {id : Nat} (hid : id < a.size)
    (s : Search) :
    b.after (Search.visit b rule h) s id = a.after (Search.visit a rule h) s id := by
  obtain ⟨n, m, hn, hm, hinfo⟩ := hg.exists_nodes hid
  simp only [after, hn, hm, Search.visit, Search.consider, hinfo]
  by_cases hclear : n.clearOf h = true
  · rw [if_pos hclear, if_pos hclear]
  · have hne : id ≠ p := fun heq => hclear (hp _ (heq ▸ infoOf?_of_node hn))
    rw [hg.contender? ha hid hne]

/-- **Searches of the two arenas are the same** when `p` is clear of the hunk. -/
theorem search_eq (hg : GrownBelow p a b) (ha : a.Linked) (hb : b.Linked)
    (hp : ∀ n, a.infoOf? p = some n → n.clearOf h = true) (rule : LoopRule) :
    b.search rule h = a.search rule h := by
  have hroot := ha.grounded_root
  have hlist := hg.listing_eq ha hb (fun n => !n.clearOf h)
    (fun n hn => by rw [hp n hn]; rfl) rootId hroot
  rw [search, search, walk, walk, walkFrom_eq_foldl ha (entersBy_visit a rule h) hroot,
    walkFrom_eq_foldl hb (entersBy_visit b rule h) hb.grounded_root, hlist]
  refine List.foldl_ext _ _ _ fun s id hid => hg.after_eq ha hp ?_ s
  exact (hroot.reaches ha (reaches_of_mem_listing ha _ hroot hid)).2.1

end GrownBelow

/-- **What lies below a clear node is hidden.** However many nodes are pushed below a node that is
clear of a hunk, or below one another there, the hunk keeps its scope, and the search its events. -/
theorem scopeOf?_placeAll_below_clear (ha : a.Built) {n : Node} (hn : a.node? p = some n)
    (hclear : h.last < n.firstLine ∨ n.lastLine < h.first) {rows : List (Nat × NodeInfo)}
    {ids : List Nat} (hb : a.placeAll rows = .ok (ids, b))
    (hrows : ∀ row ∈ rows, row.1 = p ∨ row.1 ∈ ids) (rule : LoopRule) :
    b.scopeOf? rule h = a.scopeOf? rule h ∧ b.scopeLog rule h = a.scopeLog rule h := by
  have hp : ∀ m, a.infoOf? p = some m → m.clearOf h = true := by
    intro m hm
    rw [infoOf?, hn, Option.map_some, Option.some.injEq] at hm
    exact hm ▸ NodeInfo.clearOf_iff.mpr hclear
  have hsearch := (grownBelow_of_placeAll ha hb hrows).search_eq ha.linked (ha.placeAll hb).linked
    hp rule
  rw [scopeOf?, scopeOf?, scopeLog, scopeLog, hsearch]
  exact ⟨rfl, rfl⟩

end HunkScope.Arena

/-! ## A sample -/

namespace HunkScope

namespace Sample

/-- A local function over the whole text below the class on line 12, with its name and a body, a
branch in the body, one more name of the class, and a node below itself. -/
def hiddenRows : List (Nat × NodeInfo) :=
  [(6, info "block" none 0 20 ⟨0, 0⟩),
    (20, info "function_definition" none 0 20 ⟨0, 0⟩),
    (21, info "identifier" (some "name") 0 0 ⟨0, 5⟩),
    (21, info "block" (some "body") 0 20 ⟨0, 0⟩),
    (23, info "if_statement" none 2 2 ⟨0, 0⟩),
    (24, info "comparison_operator" none 2 2 ⟨21, 24⟩),
    (6, info "identifier" (some "name") 2 2 ⟨0, 5⟩),
    (27, info "if_statement" none 2 2 ⟨0, 0⟩)]

end Sample

/-- On line 3, which the class on line 12 is clear of, none of the new nodes is seen, though one of
the branches among them stands on that line alone. -/
theorem Arena.scopeOf?_placeAll_below_clear_sample :
    ∃ ids b, Sample.arena.placeAll Sample.hiddenRows = .ok (ids, b) ∧
      b.scopeOf? .rowOfIn ⟨3, 3⟩ = some ⟨.branch, "if x>1", 3, 5⟩ ∧
      b.scopeLog .rowOfIn ⟨3, 3⟩ = Sample.arena.scopeLog .rowOfIn ⟨3, 3⟩ := by
  have hparents : ∀ k row, Sample.hiddenRows[k]? = some row → row.1 ≤ Sample.arena.size + k := by
    rintro (_ | _ | _ | _ | _ | _ | _ | _ | k) row hrow <;> cases hrow <;> decide
  obtain ⟨ids, b, hb⟩ := (placeAll_isOk_iff _ _).mpr hparents
  obtain rfl : ids = [20, 21, 22, 23, 24, 25, 26, 27] := (grows_of_placeAll hb).ids
  obtain ⟨n, hn⟩ := exists_node_of_lt (show 6 < Sample.arena.size by decide)
  have hclear : (Hunk.mk 3 3).last < n.firstLine ∨ n.lastLine < (Hunk.mk 3 3).first := by
    have hline : (Sample.arena.node? 6).map (·.firstLine) = some 12 := by decide
    rw [hn, Option.map_some, Option.some.injEq] at hline
    exact Or.inl (by rw [hline]; decide)
  obtain ⟨hscope, hlog⟩ := scopeOf?_placeAll_below_clear (a := Sample.arena)
    (Sample.built_grown _ _ _) hn hclear hb (by decide) .rowOfIn
  exact ⟨_, b, hb, hscope.trans (by decide), hlog⟩

end HunkScope
