import HunkScope.Proofs.Arena.Linked
import Mathlib.Data.List.Nodup

/-!
# What a run of pushes leaves

Pushes only ever add. Each stores one node at the end, with what the parser says of it and the
parent it was pushed under, and tells its parent of it; nothing else changes, and nothing that was
stored is lost later on. So the arena after a run can be read off the list of pushes.

* `Grows`: what the pushes of some rows do to any arena.
* `Records`: what is stored after a root and some rows.

Headlines:
* `placeAll_isOk_iff`, `placeAll_eq_error_iff`: a run ends well iff each parent is there by the time
  it is named, and otherwise with the first that is not.
* `grows_of_placeAll`: what a run of pushes does to any arena.
* **`placeAll_single`**: when a run on a lone root ends well, and all that it leaves.
-/

namespace HunkScope.Arena

/-- What the parser says of a node. -/
def infoOf? (a : Arena) (id : Nat) : Option NodeInfo := (a.node? id).map (·.toNodeInfo)

/-- `b` is `a` with the nodes of some rows pushed in order, which got the ids. -/
structure Grows (a : Arena) (rows : List (Nat × NodeInfo)) (ids : List Nat) (b : Arena) :
    Prop where
  source : b.source = a.source
  /-- There is one node more for each row. -/
  size : b.size = a.size + rows.length
  /-- The ids go on from the last one. -/
  ids : ids = List.range' a.size rows.length
  /-- Older nodes say what they said, under the parents they had. -/
  kept : ∀ id < a.size, b.infoOf? id = a.infoOf? id ∧ b.parentOf? id = a.parentOf? id
  /-- A new node says what its row says, under the parent that the row names. -/
  added : ∀ k row, rows[k]? = some row → b.infoOf? (a.size + k) = some row.2 ∧
    b.parentOf? (a.size + k) = some row.1 ∧ row.1 ≤ a.size + k

variable {a b : Arena}

theorem infoOf?_of_node {id : Nat} {n : Node} (h : a.node? id = some n) :
    a.infoOf? id = some n.toNodeInfo := by
  rw [infoOf?, h, Option.map_some]

theorem exists_infoOf?_of_lt {id : Nat} (h : id < a.size) : ∃ info, a.infoOf? id = some info := by
  obtain ⟨n, hn⟩ := exists_node_of_lt h
  exact ⟨n.toNodeInfo, infoOf?_of_node hn⟩

/-! ## One push -/

theorem infoOf?_attach (a : Arena) (parent : Nat) (info : NodeInfo) (id : Nat) :
    (a.attach parent info).infoOf? id = if id = a.size then some info else a.infoOf? id := by
  simp only [infoOf?, node?_attach]
  by_cases h : id = a.size
  · simp only [if_pos h, Option.map_some]
    split <;> rfl
  · simp only [if_neg h, Option.map_map]
    refine congrArg (Option.map · (a.node? id)) (funext fun n => ?_)
    rw [Function.comp_apply]
    split <;> rfl

theorem placeAll_cons (a : Arena) (row : Nat × NodeInfo) (rows : List (Nat × NodeInfo)) :
    a.placeAll (row :: rows) =
      if row.1 ≤ a.size then
        ((a.attach row.1 row.2).placeAll rows).map fun r => (a.size :: r.1, r.2)
      else .error ⟨a.size + 1, row.1⟩ := by
  rw [placeAll, place, push]
  by_cases h : row.1 ≤ a.size
  · rw [if_pos h, if_pos h]
    cases hp : (a.attach row.1 row.2).placeAll rows <;>
      simp [Except.map, bind, Except.bind, pure, Except.pure, hp]
  · rw [if_neg h, if_neg h]
    rfl

/-- A run ends well when its first row is not refused and the others end well after it. -/
theorem placeAll_cons_eq_ok_iff {row : Nat × NodeInfo} {rows : List (Nat × NodeInfo)}
    {ids : List Nat} : a.placeAll (row :: rows) = .ok (ids, b) ↔ row.1 ≤ a.size ∧
      ∃ ids', (a.attach row.1 row.2).placeAll rows = .ok (ids', b) ∧ ids = a.size :: ids' := by
  rw [placeAll_cons]
  by_cases h : row.1 ≤ a.size
  · rw [if_pos h]
    constructor
    · intro hok
      cases hrest : (a.attach row.1 row.2).placeAll rows with
      | error e => rw [hrest] at hok; cases hok
      | ok r =>
        rw [hrest] at hok
        cases hok
        exact ⟨h, r.1, rfl, rfl⟩
    · rintro ⟨-, ids', hrest, rfl⟩
      rw [hrest]
      rfl
  · rw [if_neg h]
    exact ⟨(fun hok => by cases hok), fun hok => absurd hok.1 h⟩

/-- A run is refused at its first row or, after it, at one of the others. -/
theorem placeAll_cons_eq_error_iff {row : Nat × NodeInfo} {rows : List (Nat × NodeInfo)}
    {e : BadIndex} : a.placeAll (row :: rows) = .error e ↔
      (a.size < row.1 ∧ e = ⟨a.size + 1, row.1⟩) ∨
        (row.1 ≤ a.size ∧ (a.attach row.1 row.2).placeAll rows = .error e) := by
  rw [placeAll_cons]
  by_cases h : row.1 ≤ a.size
  · rw [if_pos h]
    cases (a.attach row.1 row.2).placeAll rows <;> simp [Except.map, h, Nat.not_lt.mpr h]
  · rw [if_neg h, Except.error.injEq]
    simp [h, Nat.not_le.mp h, eq_comm]

/-- Placing pushes, and says the ids besides. -/
theorem pushAll_eq_placeAll : ∀ (rows : List (Nat × NodeInfo)) (a : Arena),
    a.pushAll rows = (a.placeAll rows).map Prod.snd
  | [], a => rfl
  | row :: rows, a => by
    rw [pushAll_cons, placeAll_cons, push]
    by_cases h : row.1 ≤ a.size
    · rw [if_pos h, if_pos h]
      refine (pushAll_eq_placeAll rows _).trans ?_
      cases (a.attach row.1 row.2).placeAll rows <;> rfl
    · rw [if_neg h, if_neg h]
      rfl

theorem Built.placeAll (ha : a.Built) {rows : List (Nat × NodeInfo)} {ids : List Nat}
    (h : a.placeAll rows = .ok (ids, b)) : b.Built :=
  ha.pushAll (by rw [pushAll_eq_placeAll, h]; rfl)

/-! ## When a run ends well -/

/-- **A run ends well iff each parent is there by the time it is named.** -/
theorem placeAll_isOk_iff : ∀ (rows : List (Nat × NodeInfo)) (a : Arena),
    (∃ ids b, a.placeAll rows = .ok (ids, b)) ↔
      ∀ k row, rows[k]? = some row → row.1 ≤ a.size + k
  | [], a => by simp [placeAll]
  | row :: rows, a => by
    have ih := placeAll_isOk_iff rows (a.attach row.1 row.2)
    rw [size_attach] at ih
    constructor
    · rintro ⟨ids, b, hok⟩ k r hr
      obtain ⟨h, ids', hrest, -⟩ := placeAll_cons_eq_ok_iff.mp hok
      cases k with
      | zero => exact Option.some.inj hr ▸ h
      | succ k =>
        have := ih.mp ⟨ids', b, hrest⟩ k r hr
        omega
    · intro hall
      obtain ⟨ids, b, hrest⟩ := ih.mpr fun k r hr => by
        have := hall (k + 1) r hr
        omega
      exact ⟨_, b, placeAll_cons_eq_ok_iff.mpr ⟨hall 0 row rfl, ids, hrest, rfl⟩⟩

/-- **A run that does not end well ends with the first parent that is not there yet.** -/
theorem placeAll_eq_error_iff : ∀ (rows : List (Nat × NodeInfo)) (a : Arena) (e : BadIndex),
    a.placeAll rows = .error e ↔ ∃ k row, rows[k]? = some row ∧ a.size + k < row.1 ∧
      e = ⟨a.size + k + 1, row.1⟩ ∧ ∀ j < k, ∀ r, rows[j]? = some r → r.1 ≤ a.size + j
  | [], a, e => by simp [placeAll]
  | row :: rows, a, e => by
    have ih := placeAll_eq_error_iff rows (a.attach row.1 row.2) e
    rw [size_attach] at ih
    rw [placeAll_cons_eq_error_iff, ih]
    constructor
    · rintro (⟨hlt, rfl⟩ | ⟨h, k, r, hr, hlt, rfl, hbefore⟩)
      · exact ⟨0, row, rfl, hlt, rfl, fun j hj => by omega⟩
      · refine ⟨k + 1, r, hr, by omega, by congr 1; omega, fun j hj s hs => ?_⟩
        cases j with
        | zero => exact Option.some.inj hs ▸ h
        | succ j =>
          have := hbefore j (by omega) s hs
          omega
    · rintro ⟨k, r, hr, hlt, rfl, hbefore⟩
      cases k with
      | zero =>
        obtain rfl := Option.some.inj hr
        exact Or.inl ⟨hlt, rfl⟩
      | succ k =>
        refine Or.inr ⟨hbefore 0 (by omega) row rfl, k, r, hr, by omega, by congr 1; omega,
          fun j hj s hs => ?_⟩
        have := hbefore (j + 1) (by omega) s hs
        omega

/-! ## What a run leaves -/

theorem Grows.nil (a : Arena) : Grows a [] [] a where
  source := rfl
  size := rfl
  ids := rfl
  kept := fun _ _ => ⟨rfl, rfl⟩
  added := fun k row h => by cases h

/-- **One push more in front**: the new node is older than those of the later rows. -/
theorem Grows.cons {row : Nat × NodeInfo} {rows : List (Nat × NodeInfo)} {ids : List Nat}
    (hp : row.1 ≤ a.size) (h : Grows (a.attach row.1 row.2) rows ids b) :
    Grows a (row :: rows) (a.size :: ids) b where
  source := h.source
  size := by rw [h.size, size_attach, List.length_cons]; omega
  ids := by rw [h.ids, size_attach, List.length_cons, List.range'_succ]
  kept := fun id hid => by
    obtain ⟨hinfo, hparent⟩ := h.kept id (by rw [size_attach]; omega)
    rw [hinfo, hparent, infoOf?_attach, parentOf?_attach, if_neg (by omega), if_neg (by omega)]
    exact ⟨rfl, rfl⟩
  added := fun k r hr => by
    cases k with
    | zero =>
      obtain rfl := Option.some.inj hr
      obtain ⟨hinfo, hparent⟩ := h.kept a.size (by rw [size_attach]; omega)
      rw [Nat.add_zero, hinfo, hparent, infoOf?_attach, parentOf?_attach, if_pos rfl, if_pos rfl]
      exact ⟨rfl, rfl, hp⟩
    | succ k =>
      have := h.added k r hr
      rwa [size_attach, show a.size + 1 + k = a.size + (k + 1) by omega] at this

/-- **What a run of pushes does to any arena.** -/
theorem grows_of_placeAll : ∀ {rows : List (Nat × NodeInfo)} {ids : List Nat} {a b : Arena},
    a.placeAll rows = .ok (ids, b) → Grows a rows ids b
  | [], ids, a, b, h => by
    cases h
    exact Grows.nil a
  | row :: rows, ids, a, b, h => by
    obtain ⟨hp, ids', hrest, rfl⟩ := placeAll_cons_eq_ok_iff.mp h
    exact (grows_of_placeAll hrest).cons hp

/-- What is stored after a root and the nodes of some rows, which got the ids. -/
structure Records (source : String) (root : NodeInfo) (rows : List (Nat × NodeInfo))
    (ids : List Nat) (a : Arena) : Prop where
  source : a.source = source
  /-- There is one node for the root and one for each row. -/
  size : a.size = rows.length + 1
  /-- The rows got the ids from one on. -/
  ids : ids = List.range' 1 rows.length
  /-- The root says what it was given, and has no parent. -/
  root : a.infoOf? rootId = some root ∧ a.parentOf? rootId = none
  /-- Any other node says what its row says, under the parent that the row names. -/
  row : ∀ k row, rows[k]? = some row →
    a.infoOf? (k + 1) = some row.2 ∧ a.parentOf? (k + 1) = some row.1 ∧ row.1 ≤ k + 1
  /-- The children of a node are all those with that parent, by their ids. -/
  children : ∀ id, a.childrenOf id =
    (List.range' 1 rows.length).filter fun j => a.parentOf? j == some id
  increasing : ∀ id, (a.childrenOf id).Pairwise (· < ·)
  /-- Every node but the root stands once in one list of children. -/
  once : ∀ j, 1 ≤ j → j < a.size →
    ∃ p < a.size, (a.childrenOf p).count j = 1 ∧ ∀ q, j ∈ a.childrenOf q → q = p
  /-- Every child is a node, and not the root. -/
  inBounds : ∀ p j, j ∈ a.childrenOf p → 1 ≤ j ∧ j < a.size
  /-- Further pushes change none of it. -/
  kept : ∀ more ids' b, a.placeAll more = .ok (ids', b) → ∀ id < a.size,
    b.infoOf? id = a.infoOf? id ∧ b.parentOf? id = a.parentOf? id

theorem Linked.childrenOf_eq_range' (ha : a.Linked) {n : Nat} (hn : a.size = n + 1) (id : Nat) :
    a.childrenOf id = (List.range' 1 n).filter fun j => a.parentOf? j == some id := by
  have hroot : (a.parentOf? 0 == some id) = false := by
    rw [show a.parentOf? 0 = none from ha.parentOf?_root]
    rfl
  rw [ha.children, hn, List.range_eq_range', List.range'_succ,
    List.filter_cons_of_neg (by rw [hroot]; exact Bool.false_ne_true)]

theorem Linked.pairwise_childrenOf (ha : a.Linked) (id : Nat) :
    (a.childrenOf id).Pairwise (· < ·) := by
  rw [ha.children]
  exact List.pairwise_lt_range.filter _

theorem Linked.bounds_of_mem_childrenOf (ha : a.Linked) {p j : Nat} (h : j ∈ a.childrenOf p) :
    1 ≤ j ∧ j < a.size := by
  have hp := ha.mem_childrenOf.mp h
  refine ⟨Nat.pos_of_ne_zero fun h0 => ?_, lt_size_of_parentOf? hp⟩
  rw [h0, show a.parentOf? 0 = none from ha.parentOf?_root] at hp
  cases hp

/-- **Every node but the root stands once in one list of children.** -/
theorem Linked.exists_unique_place (ha : a.Linked) {j : Nat} (h1 : 1 ≤ j) (hj : j < a.size) :
    ∃ p < a.size, (a.childrenOf p).count j = 1 ∧ ∀ q, j ∈ a.childrenOf q → q = p := by
  obtain ⟨p, hpj, hp⟩ := ha.parent j h1 hj
  have hmem := ha.mem_childrenOf.mpr hp
  refine ⟨p, by omega, List.count_eq_one_of_mem (ha.nodup_childrenOf p) hmem, fun q hq => ?_⟩
  exact Option.some.inj ((ha.mem_childrenOf.mp hq).symm.trans hp)

/-- **All that a run on a lone root leaves.** -/
theorem records_of_placeAll {source : String} {root : NodeInfo} {rows : List (Nat × NodeInfo)}
    {ids : List Nat} (h : (single source root).placeAll rows = .ok (ids, a)) :
    Records source root rows ids a := by
  have hg := grows_of_placeAll h
  have ha := ((Built.single source root).placeAll h).linked
  have hsize : a.size = rows.length + 1 := by rw [hg.size, size_single, Nat.add_comm]
  exact
    { source := hg.source
      size := hsize
      ids := hg.ids
      root := hg.kept rootId (by rw [size_single]; exact Nat.one_pos)
      row := fun k row hk => by
        have := hg.added k row hk
        rwa [size_single, Nat.add_comm 1 k] at this
      children := ha.childrenOf_eq_range' hsize
      increasing := ha.pairwise_childrenOf
      once := fun j h1 hj => ha.exists_unique_place h1 hj
      inBounds := fun p j hj => ha.bounds_of_mem_childrenOf hj
      kept := fun more ids' b hb => (grows_of_placeAll hb).kept }

/-- What `build` returns records its rows. -/
theorem records_of_build {source : String} {root : NodeInfo} {rows : List (Nat × NodeInfo)}
    (h : build source root rows = .ok a) : ∃ ids, Records source root rows ids a := by
  rw [build, pushAll_eq_placeAll] at h
  cases hplace : (single source root).placeAll rows with
  | error e =>
    rw [hplace] at h
    cases h
  | ok r =>
    rw [hplace] at h
    obtain rfl := Except.ok.inj h
    exact ⟨r.1, records_of_placeAll hplace⟩

/-- **A run of pushes on a lone root** ends well iff no row names a parent past its own node, and
otherwise is refused at the first row that does. When it ends well, the arena records the rows. -/
theorem placeAll_single (source : String) (root : NodeInfo) (rows : List (Nat × NodeInfo)) :
    ((∃ ids a, (single source root).placeAll rows = .ok (ids, a)) ↔
        ∀ k row, rows[k]? = some row → row.1 ≤ k + 1) ∧
      (∀ e, (single source root).placeAll rows = .error e ↔
        ∃ k row, rows[k]? = some row ∧ k + 1 < row.1 ∧ e = ⟨k + 2, row.1⟩ ∧
          ∀ j < k, ∀ r, rows[j]? = some r → r.1 ≤ j + 1) ∧
      ∀ ids a, (single source root).placeAll rows = .ok (ids, a) →
        Records source root rows ids a := by
  refine ⟨?_, fun e => ?_, fun ids a h => records_of_placeAll h⟩
  · simpa only [size_single, Nat.add_comm 1] using
      placeAll_isOk_iff rows (single source root)
  · simpa only [size_single, Nat.add_comm 1, Nat.add_assoc, Nat.reduceAdd] using
      placeAll_eq_error_iff rows (single source root) e

end HunkScope.Arena

/-! ## A sample -/

namespace HunkScope

namespace Sample

/-- A node of a kind at the start of a text. -/
def bare (kind : String) : NodeInfo := ⟨kind, none, ⟨0, 0⟩, ⟨0, 0⟩, ⟨0, 0⟩, false, false⟩

/-- A block, a node below itself, a node in the block and one more below the root. -/
def fewRows : List (Nat × NodeInfo) :=
  [(0, bare "block"), (2, bare "call"), (1, bare "call"), (0, bare "comment")]

/-- The arena of a root and rows, or of the root alone when a row is refused. -/
def grown (source : String) (root : NodeInfo) (rows : List (Nat × NodeInfo)) : Arena :=
  match Arena.build source root rows with
  | .ok a => a
  | .error _ => .single source root

theorem built_grown (source : String) (root : NodeInfo) (rows : List (Nat × NodeInfo)) :
    (grown source root rows).Built := by
  unfold grown
  split
  · rename_i hb
    exact Arena.built_of_build hb
  · exact Arena.Built.single _ _

/-- The arena of the few rows. -/
def few : Arena := grown "" (bare "module") fewRows

end Sample

namespace Arena

/-- The second of four rows may name its own node, and the children of the root come in the order
of the rows; a row that names the node after its own is refused. -/
theorem placeAll_single_sample :
    (∃ a, (single "" (Sample.bare "module")).placeAll Sample.fewRows = .ok ([1, 2, 3, 4], a) ∧
      a.parentOf? 2 = some 2 ∧ a.childrenOf 0 = [1, 4] ∧ a.childrenOf 1 = [3]) ∧
    (single "" (Sample.bare "module")).placeAll (Sample.fewRows ++ [(6, Sample.bare "call")]) =
      .error ⟨6, 6⟩ := by
  have hrun := placeAll_single "" (Sample.bare "module") Sample.fewRows
  have hparents : ∀ k row, Sample.fewRows[k]? = some row → row.1 ≤ k + 1 := by
    rintro (_ | _ | _ | _ | k) row hrow <;> cases hrow <;> decide
  obtain ⟨ids, a, hok⟩ := hrun.1.mpr hparents
  have hrec := hrun.2.2 ids a hok
  obtain rfl : ids = [1, 2, 3, 4] := hrec.ids
  have h1 := (hrec.row 0 _ rfl).2.1
  have h2 := (hrec.row 1 _ rfl).2.1
  have h3 := (hrec.row 2 _ rfl).2.1
  have h4 := (hrec.row 3 _ rfl).2.1
  refine ⟨⟨a, hok, h2, ?_, ?_⟩, ?_⟩
  · rw [hrec.children]
    simp [Sample.fewRows, List.range', h1, h2, h3, h4]
  · rw [hrec.children]
    simp [Sample.fewRows, List.range', h1, h2, h3, h4]
  · refine ((placeAll_single "" (Sample.bare "module") _).2.1 ⟨6, 6⟩).mpr
      ⟨4, (6, Sample.bare "call"), rfl, by decide, rfl, fun j hj row hrow => ?_⟩
    exact hparents j row (by rwa [List.getElem?_append_left hj] at hrow)

end Arena

end HunkScope
