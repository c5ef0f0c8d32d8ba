import HunkScope.Arena.Build
import HunkScope.ParseTree.Cursor

/-!
# Copying a parse tree into an arena

The model of `build_syntax_tree` and `node_init` of `ast::parser`. The copy follows a cursor through
the tree. It goes down to first children as long as there are any, then climbs to the nearest node
with a next sibling and goes down from there, and ends above the root. Every node is pushed when the
cursor first comes to it, so the arena holds the nodes in the order of a walk. The ids of the pushed
nodes on the way from the root to the cursor wait on a path, innermost first; the top of the path is
the parent of the next node.

The root is pushed without a field. A push that names a parent past the new node would be refused,
and with it the copy (`BadIndex`); `Copy.Sound` says why none is.

* `NodeInfo.ofReport` (`node_init`): what an arena keeps of a parser's report.
* `Copy.step`: one move of the copy. `Copy.step_decreases`: a measure of what is left gets smaller.
* `Copy.run`: the moves up to the end, or up to a push that is refused.
* `Arena.ofTree` (`build_syntax_tree`): the finished copy.

Headlines:
* `Copy.Sound.step`: a copy whose path holds ids of nodes moves on, to another such copy.
* `Copy.run_start`: no push is refused.
-/

namespace HunkScope

/-- The point of a place. A row or a column that does not fit a word loses its high bits. -/
def Point.ofPlace (p : Place) : Point := ⟨UInt32.ofNat p.row, UInt32.ofNat p.column⟩

/-- What an arena keeps of a parser's report on a node that fills a field. -/
def NodeInfo.ofReport (r : NodeReport) (field : Option String) : NodeInfo where
  kind := r.kind
  field := field
  start := .ofPlace r.start
  stop := .ofPlace r.stop
  bytes := r.bytes
  isError := r.isError
  isMissing := r.isMissing

/-- Whether a copy goes down next, or has to climb. -/
inductive Phase where
  | descend
  | climb
deriving DecidableEq, Repr

/-- A copy under way. -/
structure Copy where
  phase : Phase
  cursor : Cursor
  /-- The ids from the cursor up to the root, innermost first. -/
  path : List Nat
  arena : Arena

namespace Copy

/-- The copy of a tree with its root pushed. -/
def start (source : String) (t : ParseTree) : Copy where
  phase := .descend
  cursor := .ofTree t
  path := [Arena.rootId]
  arena := .single source (.ofReport t.report none)

/-- Pushes the node a cursor stands on below the top of a path, or below the root if the path is
empty, and puts its id on the path. -/
def enter (arena : Arena) (path : List Nat) (cursor : Cursor) : Except BadIndex Copy :=
  (arena.place (path.head?.getD Arena.rootId) (.ofReport cursor.focus.report cursor.field?)).map
    fun pushed => ⟨.descend, cursor, pushed.1 :: path, pushed.2⟩

/-- One move; nothing is left to do above the root. -/
def step (c : Copy) : Except BadIndex (Option Copy) :=
  match c.phase with
  | .descend =>
    match c.cursor.firstChild? with
    | some child => (enter c.arena c.path child).map some
    | none => .ok (some { c with phase := .climb })
  | .climb =>
    match c.cursor.nextSibling? with
    | some sibling => (enter c.arena c.path.tail sibling).map some
    | none => .ok (c.cursor.parent?.map fun up => { c with cursor := up, path := c.path.tail })

/-! ## Moves come to an end -/

/-- The number of nodes not pushed yet. -/
def pending (c : Copy) : Nat :=
  match c.phase with
  | .descend => c.cursor.ahead + ParseTree.forestCount c.cursor.focus.children
  | .climb => c.cursor.ahead

/-- The number of moves up to the end when no node is left to push. -/
def height (c : Copy) : Nat :=
  match c.phase with
  | .descend => c.cursor.depth + 1
  | .climb => c.cursor.depth

/-- What a copy is after a push that is not refused. -/
theorem of_enter {arena : Arena} {path : List Nat} {cursor : Cursor} {d : Copy}
    (h : (enter arena path cursor).map some = .ok (some d)) :
    path.head?.getD Arena.rootId ≤ arena.size ∧
      d = ⟨.descend, cursor, arena.size :: path, arena.attach (path.head?.getD Arena.rootId)
        (.ofReport cursor.focus.report cursor.field?)⟩ := by
  unfold enter at h
  cases hplace : arena.place (path.head?.getD Arena.rootId)
      (.ofReport cursor.focus.report cursor.field?) with
  | error e =>
    rw [hplace] at h
    cases h
  | ok pushed =>
    rw [hplace] at h
    cases h
    obtain ⟨hle, hid, harena⟩ := Arena.place_eq_ok_iff.mp hplace
    refine ⟨hle, ?_⟩
    simp only [hid, harena]

theorem pending_of_enter {arena : Arena} {path : List Nat} {cursor : Cursor} {d : Copy}
    (h : (enter arena path cursor).map some = .ok (some d)) :
    d.pending + 1 = cursor.ahead + cursor.focus.count := by
  obtain ⟨-, rfl⟩ := of_enter h
  simp only [pending, ParseTree.count_eq]
  omega

/-- **Every move leaves less to do**: fewer nodes to push, or as many and less to climb. -/
theorem step_decreases {c d : Copy} (h : c.step = .ok (some d)) :
    Prod.Lex (· < ·) (· < ·) (d.pending, d.height) (c.pending, c.height) := by
  obtain ⟨phase, cursor, path, arena⟩ := c
  cases phase with
  | descend =>
    simp only [step] at h
    split at h
    · rename_i child hc
      have h1 := pending_of_enter h
      have h2 := Cursor.ahead_firstChild? hc
      refine Prod.Lex.left _ _ ?_
      simp only [pending] at h1 h2 ⊢
      omega
    · rename_i hc
      obtain rfl := Option.some.inj (Except.ok.inj h)
      have : cursor.focus.children = [] := by
        obtain ⟨⟨r, cs⟩, crumbs⟩ := cursor
        cases cs with
        | nil => rfl
        | cons t ts => simp [Cursor.firstChild?] at hc
      simp only [pending, height, this, ParseTree.forestCount, Nat.add_zero]
      exact Prod.Lex.right _ (Nat.lt_succ_self _)
  | climb =>
    simp only [step] at h
    split at h
    · rename_i sibling hc
      have h1 := pending_of_enter h
      have h2 := Cursor.ahead_nextSibling? hc
      refine Prod.Lex.left _ _ ?_
      simp only [pending] at h1 ⊢
      omega
    · rename_i hc
      obtain ⟨up, hu, rfl⟩ := Option.map_eq_some_iff.mp (Except.ok.inj h)
      obtain ⟨h1, h2⟩ := Cursor.ahead_parent? hu hc
      simp only [pending, height, h1]
      exact Prod.Lex.right _ (by omega)

/-- Moves until nothing is left to do, or a push is refused. -/
def run (c : Copy) : Except BadIndex Arena :=
  match _h : c.step with
  | .error e => .error e
  | .ok none => .ok c.arena
  | .ok (some d) => run d
termination_by (c.pending, c.height)
decreasing_by exact step_decreases _h

theorem run_of_end {c : Copy} (h : c.step = .ok none) : c.run = .ok c.arena := by
  rw [run]
  split <;> simp_all

/-- A copy and what it moves to have one outcome. -/
theorem run_of_step {c d : Copy} (h : c.step = .ok (some d)) : c.run = d.run := by
  rw [run]
  split <;> simp_all

/-! ## No push is refused -/

/-- Every id on the path names a node, and there is a root. -/
def Sound (c : Copy) : Prop := ∀ id ∈ Arena.rootId :: c.path, id < c.arena.size

theorem sound_start (source : String) (t : ParseTree) : (start source t).Sound := by
  intro id hid
  obtain rfl : id = Arena.rootId := by simpa [start] using hid
  exact Nat.one_pos

/-- **A push below ids of nodes is carried out.** -/
theorem enter_of_lt {arena : Arena} {path : List Nat}
    (h : ∀ id ∈ Arena.rootId :: path, id < arena.size) (cursor : Cursor) :
    enter arena path cursor = .ok ⟨.descend, cursor, arena.size :: path,
      arena.attach (path.head?.getD Arena.rootId)
        (.ofReport cursor.focus.report cursor.field?)⟩ := by
  have hmem : path.head?.getD Arena.rootId ∈ Arena.rootId :: path := by
    cases path with
    | nil => exact List.mem_cons_self
    | cons id path => exact List.mem_cons_of_mem _ List.mem_cons_self
  rw [enter, Arena.place_of_le (Nat.le_of_lt (h _ hmem))]
  rfl

theorem sound_enter {arena : Arena} {path : List Nat} {cursor : Cursor} {parent : Nat}
    {info : NodeInfo} (h : ∀ id ∈ Arena.rootId :: path, id < arena.size) :
    (Copy.mk .descend cursor (arena.size :: path) (arena.attach parent info)).Sound := by
  intro id hid
  simp only [Arena.size_attach]
  rcases List.mem_cons.mp hid with rfl | hid
  · exact Nat.lt_succ_of_lt (h _ List.mem_cons_self)
  rcases List.mem_cons.mp hid with rfl | hid
  · exact Nat.lt_succ_self _
  · exact Nat.lt_succ_of_lt (h id (List.mem_cons_of_mem _ hid))

/-- **A sound copy moves on or is at its end**, and what it moves to is sound. -/
theorem Sound.step {c : Copy} (hc : c.Sound) :
    ∃ next, c.step = .ok next ∧ ∀ d, next = some d → d.Sound := by
  obtain ⟨phase, cursor, path, arena⟩ := c
  have htail : ∀ id ∈ Arena.rootId :: path.tail, id < arena.size := by
    intro id hid
    refine hc id ((List.mem_cons.mp hid).elim (· ▸ List.mem_cons_self) fun h => ?_)
    exact List.mem_cons_of_mem _ (List.mem_of_mem_tail h)
  cases phase with
  | descend =>
    simp only [Copy.step]
    split
    · rw [enter_of_lt hc]
      refine ⟨_, rfl, ?_⟩
      rintro _ ⟨⟩
      exact sound_enter hc
    · refine ⟨_, rfl, ?_⟩
      rintro _ ⟨⟩
      exact hc
  | climb =>
    simp only [Copy.step]
    split
    · rw [enter_of_lt htail]
      refine ⟨_, rfl, ?_⟩
      rintro _ ⟨⟩
      exact sound_enter htail
    · refine ⟨_, rfl, fun d hd => ?_⟩
      obtain ⟨up, -, rfl⟩ := Option.map_eq_some_iff.mp hd
      exact htail

/-- A sound copy is carried out to its end. -/
theorem Sound.exists_run {c : Copy} (hc : c.Sound) : ∃ a, c.run = .ok a := by
  obtain ⟨next, hstep, hnext⟩ := hc.step
  cases hn : next with
  | none => exact ⟨c.arena, run_of_end (hn ▸ hstep)⟩
  | some d =>
    obtain ⟨a, ha⟩ := (hnext d hn).exists_run
    exact ⟨a, (run_of_step (hn ▸ hstep)).trans ha⟩
termination_by (c.pending, c.height)
decreasing_by exact step_decreases (hn ▸ hstep)

theorem isSome_run_start (source : String) (t : ParseTree) :
    (start source t).run.toOption.isSome := by
  obtain ⟨a, ha⟩ := (sound_start source t).exists_run
  rw [ha]
  rfl

end Copy

/-- The arena of a parse tree. -/
def Arena.ofTree (source : String) (t : ParseTree) : Arena :=
  (Copy.start source t).run.toOption.get (Copy.isSome_run_start source t)

/-- **No push of a copy is refused**, and the arena of the tree is where it ends. -/
theorem Copy.run_start (source : String) (t : ParseTree) :
    (start source t).run = .ok (Arena.ofTree source t) := by
  obtain ⟨a, ha⟩ := (sound_start source t).exists_run
  simp only [Arena.ofTree, ha, Except.toOption, Option.get_some]

end HunkScope
