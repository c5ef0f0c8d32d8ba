import HunkScope.Proofs.Scope.Log
import HunkScope.Proofs.Scope.Naming
import HunkScope.Proofs.Scope.SideBySide

/-!
# Who wins hangs on the outline

The outline of an arena is what stands in it of the links, the kinds, the fields and the rows.
Arenas of one outline may differ in everything else: the source, the bytes that a node covers, its
columns, and whether it is flagged. A text enters a search as part of a name only, and no name is
ever compared, so the search takes the contenders of the same nodes and finds scopes that differ at
most in their names. An empty text, or a span that is no slice of the source, is a name like any
other.

* `SameOutline`: two arenas of one outline.
* `Search.unnamed`: a search without the names of what it found.

Headlines:
* `SameOutline.akin`: nodes of one id are akin.
* `SameOutline.contender?_unnamed`: their contenders differ at most in their names.
* `SameOutline.search_unnamed`: so do searches, event by event.
* **`SameOutline.scopes_agree`**: scopes are of the same node, and equal when texts are.
-/

namespace HunkScope

/-- What a search reads of a node, but for its links and its text. -/
def NodeInfo.outline (n : NodeInfo) : (String × Option String) × UInt32 × UInt32 :=
  (n.tag, n.start.row, n.stop.row)

/-! ## Searches without names -/

/-- A scope without its name. -/
def Scope.unnamed (s : Scope) : Scope := { s with name := "" }

/-- A contender without its name. -/
def Contender.unnamed (c : Contender) : Contender := { c with scope := c.scope.unnamed }

/-- An event without the name of the scope that was found. -/
def Event.unnamed : Event → Event
  | accepted node scope => accepted node scope.unnamed
  | pruned node kind => pruned node kind
  | fault node site => fault node site

/-- A search without the names of what it found. -/
def Search.unnamed (s : Search) : Search := s.image Scope.unnamed Event.unnamed

/-- Names are never compared. -/
theorem Contender.beats_unnamed (c : Contender) (best : Option Scope) :
    c.unnamed.beats (best.map Scope.unnamed) = c.beats best := by
  cases best <;> rfl

theorem Search.unnamed_pass (s : Search) (node : Nat) (kind : String) :
    (s.pass node kind).unnamed = s.unnamed.pass node kind :=
  (image_pass rfl s).symm

theorem Search.unnamed_weigh (s : Search) (node : Nat) (c : Contender) :
    (s.weigh node c).unnamed = s.unnamed.weigh node c.unnamed :=
  (image_weigh rfl rfl (c.beats_unnamed s.best)).symm

theorem Event.accepted?_unnamed (e : Event) :
    e.unnamed.accepted? = e.accepted?.map fun x => (x.1, x.2.unnamed) := by
  cases e <;> rfl

namespace Arena

/-- A contender hangs on the outline of its node, on its name and on its turn. -/
theorem contender?_eq_outline (a : Arena) (rule : LoopRule) (id : Nat) :
    a.contender? rule id = ((a.infoOf? id).map fun n => n.outline).bind fun o =>
      (Construct.ofKind? o.1.1).bind fun construct =>
        (a.nameOf? rule id construct).map fun name =>
          ⟨⟨construct, name, o.2.1 + 1, o.2.2 + 1⟩, a.precedenceOf id construct⟩ := by
  rw [contender?_eq_infoOf?, Option.bind_map]
  rfl

/-- Two arenas have as many nodes, and nodes of one id have one parent, kind, field and rows. -/
structure SameOutline (a b : Arena) : Prop where
  size : b.size = a.size
  parent : ∀ id < a.size, b.parentOf? id = a.parentOf? id
  outline : ∀ id < a.size,
    (b.infoOf? id).map NodeInfo.outline = (a.infoOf? id).map NodeInfo.outline

variable {a b : Arena} {rule : LoopRule} {h : Hunk}

namespace SameOutline

/-- Neither arena has nodes past the size. -/
theorem node?_eq_none (hab : SameOutline a b) {id : Nat} (hid : ¬ id < a.size) :
    a.node? id = none ∧ b.node? id = none := by
  have hle := Nat.not_lt.mp hid
  exact ⟨node?_eq_none_iff.mpr hle, node?_eq_none_iff.mpr (hab.size ▸ hle)⟩

theorem parentOf? (hab : SameOutline a b) (id : Nat) : b.parentOf? id = a.parentOf? id := by
  by_cases hid : id < a.size
  · exact hab.parent id hid
  · obtain ⟨ha, hb⟩ := hab.node?_eq_none hid
    rw [Arena.parentOf?, Arena.parentOf?, ha, hb]

theorem map_infoOf? (hab : SameOutline a b) {α : Type} (read : _ → α) (id : Nat) :
    (b.infoOf? id).map (fun n => read n.outline) =
      (a.infoOf? id).map fun n => read n.outline := by
  by_cases hid : id < a.size
  · have h := congrArg (Option.map read) (hab.outline id hid)
    rwa [Option.map_map, Option.map_map] at h
  · obtain ⟨ha, hb⟩ := hab.node?_eq_none hid
    rw [infoOf?, infoOf?, ha, hb]

theorem textOf (hab : SameOutline a b) (htext : ∀ id < a.size, b.textOf id = a.textOf id)
    (id : Nat) : b.textOf id = a.textOf id := by
  by_cases hid : id < a.size
  · exact htext id hid
  · obtain ⟨ha, hb⟩ := hab.node?_eq_none hid
    rw [Arena.textOf, Arena.textOf, ha, hb]

theorem kindOf? (hab : SameOutline a b) (id : Nat) : b.kindOf? id = a.kindOf? id := by
  rw [kindOf?_eq_map_infoOf?, kindOf?_eq_map_infoOf?]
  exact hab.map_infoOf? (fun o => o.1.1) id

theorem outline_eq (hab : SameOutline a b) {id : Nat} {n m : Node} (hn : a.node? id = some n)
    (hm : b.node? id = some m) : m.outline = n.outline := by
  have h := hab.map_infoOf? (fun o => o) id
  rw [infoOf?_of_node hn, infoOf?_of_node hm] at h
  exact Option.some.inj h

/-- The children of a node are those that it is the parent of. -/
theorem childrenOf (hab : SameOutline a b) (ha : a.Linked) (hb : b.Linked) (id : Nat) :
    b.childrenOf id = a.childrenOf id := by
  rw [ha.children, hb.children, hab.size]
  refine List.filter_congr fun c _ => ?_
  rw [hab.parentOf?]

theorem toMatches (hab : SameOutline a b) (ha : a.Linked) (hb : b.Linked) :
    Matches (fun id => id) a b where
  root := rfl
  children := fun id _ => by rw [hab.childrenOf ha hb, List.map_id']

/-- **Nodes of one id are akin.** -/
theorem akin (hab : SameOutline a b) (ha : a.Linked) (hb : b.Linked) (id : Nat) :
    Akin (fun id => id) a b id where
  children := by rw [hab.childrenOf ha hb, List.map_id']
  tag := fun c _ => hab.map_infoOf? (fun o => o.1) c
  continues := fun c _ d _ => by
    have hstop : (b.infoOf? c).map (·.stop.row) = (a.infoOf? c).map (·.stop.row) :=
      hab.map_infoOf? (fun o => o.2.2) c
    have hstart : (b.infoOf? d).map (·.start.row) = (a.infoOf? d).map (·.start.row) :=
      hab.map_infoOf? (fun o => o.2.1) d
    rw [continues_eq_any_map, continues_eq_any_map, hstop, hstart]

theorem isLocalFunction (hab : SameOutline a b) (id : Nat) :
    b.isLocalFunction id = a.isLocalFunction id := by
  simp only [Arena.isLocalFunction, hab.parentOf?, hab.kindOf?]

/-- **Contenders of nodes of one id differ at most in their names.** -/
theorem contender?_unnamed (hab : SameOutline a b) (ha : a.Linked) (hb : b.Linked)
    (rule : LoopRule) (id : Nat) :
    Option.Rel (fun c d => d.unnamed = c.unnamed) (a.contender? rule id)
      (b.contender? rule id) := by
  rw [contender?_eq_outline, contender?_eq_outline, hab.map_infoOf? fun o => o]
  cases (a.infoOf? id).map fun n => n.outline with
  | none => exact .none
  | some o =>
    rw [Option.bind_some, Option.bind_some]
    cases Construct.ofKind? o.1.1 with
    | none => exact .none
    | some construct =>
      have hname := (hab.akin ha hb id).isSome_nameOf? rule construct
      rw [Option.bind_some, Option.bind_some, precedenceOf_eq (hab.isLocalFunction id)]
      cases hx : a.nameOf? rule id construct with
      | none =>
        rw [hx, Option.isSome_none, Option.isSome_eq_false_iff, Option.isNone_iff_eq_none] at hname
        rw [hname]
        exact .none
      | some name =>
        rw [hx, Option.isSome_some, Option.isSome_iff_exists] at hname
        obtain ⟨name', hname⟩ := hname
        rw [hname]
        exact .some rfl

/-- Nodes of one id have the same contender when texts are equal. -/
theorem contender?_eq (hab : SameOutline a b) (ha : a.Linked) (hb : b.Linked)
    (htext : ∀ id < a.size, b.textOf id = a.textOf id) (rule : LoopRule) (id : Nat) :
    b.contender? rule id = a.contender? rule id := by
  simp only [contender?_eq_outline, hab.map_infoOf? fun o => o,
    (hab.akin ha hb id).nameOf?_eq fun c _ => hab.textOf htext c,
    precedenceOf_eq (hab.isLocalFunction id)]

/-! ## Searches -/

theorem lines_eq (hab : SameOutline a b) {id : Nat} {n m : Node} (hn : a.node? id = some n)
    (hm : b.node? id = some m) : m.firstLine = n.firstLine ∧ m.lastLine = n.lastLine :=
  have ho := hab.outline_eq hn hm
  ⟨congrArg (fun o => o.2.1 + 1) ho, congrArg (fun o => o.2.2 + 1) ho⟩

theorem clearOf_eq (hab : SameOutline a b) {id : Nat} {n m : Node} (hn : a.node? id = some n)
    (hm : b.node? id = some m) : m.clearOf h = n.clearOf h := by
  obtain ⟨hfirst, hlast⟩ := hab.lines_eq hn hm
  rw [Bool.eq_iff_iff, NodeInfo.clearOf_iff, NodeInfo.clearOf_iff, hfirst, hlast]

theorem covers_eq (hab : SameOutline a b) {id : Nat} {n m : Node} (hn : a.node? id = some n)
    (hm : b.node? id = some m) : m.covers h = n.covers h := by
  obtain ⟨hfirst, hlast⟩ := hab.lines_eq hn hm
  rw [Bool.eq_iff_iff, NodeInfo.covers_iff, NodeInfo.covers_iff, hfirst, hlast]

/-- Nodes of one id are of one kind and lie to a hunk in the same way. -/
theorem visit_eq (hab : SameOutline a b) {id : Nat} {n m : Node} (hn : a.node? id = some n)
    (hm : b.node? id = some m) :
    m.kind = n.kind ∧ m.clearOf h = n.clearOf h ∧ m.covers h = n.covers h :=
  ⟨congrArg (fun o => o.1.1) (hab.outline_eq hn hm), hab.clearOf_eq hn hm, hab.covers_eq hn hm⟩

/-- **Searches differ at most in names**, event by event. -/
theorem search_unnamed (hab : SameOutline a b) (ha : a.Linked) (hb : b.Linked) (rule : LoopRule)
    (h : Hunk) : (b.search rule h).unnamed = (a.search rule h).unnamed := by
  refine (hab.toMatches ha hb).search_keeps ha hb (R := fun s t => t.unnamed = s.unnamed)
    (fun id n m _ hn hm => hab.visit_eq hn hm)
    (fun id _ => hab.contender?_unnamed ha hb rule id) rfl ?_ ?_
  · intro id kind s t hst
    rw [Search.unnamed_pass, Search.unnamed_pass, hst]
  · intro id c d s t hcd hst
    rw [Search.unnamed_weigh, Search.unnamed_weigh, hst, hcd]

/-- Searches are the same when texts are equal. -/
theorem search_eq (hab : SameOutline a b) (ha : a.Linked) (hb : b.Linked)
    (htext : ∀ id < a.size, b.textOf id = a.textOf id) (rule : LoopRule) (h : Hunk) :
    b.search rule h = a.search rule h := by
  refine (hab.toMatches ha hb).search_keeps ha hb (R := fun s t => t = s)
    (fun id n m _ hn hm => hab.visit_eq hn hm)
    (fun id _ => Contender.rel_of_eq (hab.contender?_eq ha hb htext rule id)) rfl ?_ ?_
  · rintro id kind s _ rfl
    rfl
  · rintro id c _ s _ rfl rfl
    rfl

/-- What the searches take differs at most in names. -/
theorem accepted_unnamed (hab : SameOutline a b) (ha : a.Linked) (hb : b.Linked) (rule : LoopRule)
    (h : Hunk) :
    (b.accepted rule h).map (fun x => (x.1, x.2.unnamed)) =
      (a.accepted rule h).map fun x => (x.1, x.2.unnamed) := by
  have hlog : (b.scopeLog rule h).map Event.unnamed = (a.scopeLog rule h).map Event.unnamed := by
    have hlog := congrArg (fun s : Search => s.log.toList) (hab.search_unnamed ha hb rule h)
    simpa only [scopeLog, Search.unnamed, Search.image, Array.toList_map] using hlog
  have hread : ∀ es : List Event, (es.filterMap Event.accepted?).map (fun x => (x.1, x.2.unnamed)) =
      (es.map Event.unnamed).filterMap Event.accepted? := by
    intro es
    rw [List.filterMap_map, List.map_filterMap]
    exact List.filterMap_congr fun e _ => (Event.accepted?_unnamed e).symm
  rw [accepted, accepted, hread, hread, hlog]

/-- **Who wins hangs on the outline.** In arenas of one outline a hunk has a scope in both or in
neither; the scopes are of the same kind and lines, and of the same node, whose contender they are;
and they are equal when the texts of all nodes are. -/
theorem scopes_agree (hab : SameOutline a b) (ha : a.Built) (hb : b.Built) (rule : LoopRule)
    (h : Hunk) :
    (b.scopeOf? rule h).isSome = (a.scopeOf? rule h).isSome ∧
      (∀ s t, a.scopeOf? rule h = some s → b.scopeOf? rule h = some t →
        t.construct = s.construct ∧ t.firstLine = s.firstLine ∧ t.lastLine = s.lastLine ∧
          ∃ id, (a.accepted rule h).getLast? = some (id, s) ∧
            (b.accepted rule h).getLast? = some (id, t) ∧
            (∃ c, a.contender? rule id = some c ∧ c.scope = s) ∧
            ∃ d, b.contender? rule id = some d ∧ d.scope = t) ∧
      ((∀ id < a.size, b.textOf id = a.textOf id) → b.scopeOf? rule h = a.scopeOf? rule h) := by
  have hbest := congrArg Search.best (hab.search_unnamed ha.linked hb.linked rule h)
  refine ⟨?_, fun s t hs ht => ?_, fun htext => ?_⟩
  · have hsome := congrArg Option.isSome hbest
    simpa only [scopeOf?, Search.unnamed, Search.image, Option.isSome_map] using hsome
  · have hst : t.unnamed = s.unnamed := by
      simp only [scopeOf?] at hs ht
      simpa only [Search.unnamed, Search.image, hs, ht, Option.map_some, Option.some.injEq]
        using hbest
    have hlast := congrArg List.getLast? (hab.accepted_unnamed ha.linked hb.linked rule h)
    rw [scopeOf?_eq_getLast?_accepted ha.linked, Option.map_eq_some_iff] at hs
    rw [scopeOf?_eq_getLast?_accepted hb.linked, Option.map_eq_some_iff] at ht
    obtain ⟨⟨id, _⟩, hida, rfl⟩ := hs
    obtain ⟨⟨id', _⟩, hidb, rfl⟩ := ht
    rw [List.getLast?_map, List.getLast?_map, hida, hidb, Option.map_some, Option.map_some,
      Option.some.injEq, Prod.mk.injEq] at hlast
    obtain rfl : id' = id := hlast.1
    refine ⟨congrArg (·.construct) hst, congrArg (·.firstLine) hst, congrArg (·.lastLine) hst,
      id', hida, hidb, ?_, ?_⟩
    · exact exists_contender_of_mem_accepted ha.linked (List.mem_of_getLast? hida)
    · exact exists_contender_of_mem_accepted hb.linked (List.mem_of_getLast? hidb)
  · rw [scopeOf?, scopeOf?, hab.search_eq ha.linked hb.linked htext]

end SameOutline

end Arena

/-! ## A sample -/

namespace Sample

/-- The node at other columns of its rows, and flagged. -/
def nudge (n : NodeInfo) : NodeInfo :=
  { n with start := ⟨n.start.row, 7⟩, stop := ⟨n.stop.row, 3⟩, isError := true }

/-- The node at other columns of its rows, flagged, and over no text. -/
def blur (n : NodeInfo) : NodeInfo := { nudge n with bytes := ⟨2, 1⟩ }

/-- The sample with all its nodes at other columns and flagged. -/
def nudged : Arena :=
  grown source (nudge (info "module" none 0 20 ⟨0, 24⟩)) (rows.map fun row => (row.1, nudge row.2))

/-- The sample over another source, with all nodes at other columns, flagged and over no text. -/
def blurred : Arena :=
  grown "é" (blur (info "module" none 0 20 ⟨0, 24⟩)) (rows.map fun row => (row.1, blur row.2))

theorem sameOutline_nudged : Arena.SameOutline arena nudged where
  size := by decide
  parent := by decide
  outline := by decide

theorem sameOutline_blurred : Arena.SameOutline arena blurred where
  size := by decide
  parent := by decide
  outline := by decide

theorem textOf_nudged : ∀ id < arena.size, nudged.textOf id = arena.textOf id := by decide

end Sample

/-- On line 3 the branch with id 13 wins over another source too, where all texts are empty, and it
has its name where only columns and flags are other. -/
theorem Arena.scopes_agree_sample :
    (∃ t, Sample.blurred.scopeOf? .rowOfIn ⟨3, 3⟩ = some t ∧ t.construct = .branch ∧
      t.firstLine = 3 ∧ t.lastLine = 5 ∧
      (Sample.blurred.accepted .rowOfIn ⟨3, 3⟩).getLast? = some (13, t)) ∧
    Sample.nudged.scopeOf? .rowOfIn ⟨3, 3⟩ = some ⟨.branch, "if x>1", 3, 5⟩ := by
  have hs : Sample.arena.scopeOf? .rowOfIn ⟨3, 3⟩ = some ⟨.branch, "if x>1", 3, 5⟩ := by decide
  obtain ⟨hsome, hagree, -⟩ := SameOutline.scopes_agree Sample.sameOutline_blurred
    (Sample.built_grown _ _ _) (Sample.built_grown _ _ _) .rowOfIn ⟨3, 3⟩
  obtain ⟨-, -, hequal⟩ := SameOutline.scopes_agree Sample.sameOutline_nudged
    (Sample.built_grown _ _ _) (Sample.built_grown _ _ _) .rowOfIn ⟨3, 3⟩
  refine ⟨?_, (hequal Sample.textOf_nudged).trans hs⟩
  rw [hs, Option.isSome_some, Option.isSome_iff_exists] at hsome
  obtain ⟨t, ht⟩ := hsome
  obtain ⟨hconstruct, hfirst, hlast, id, hida, hidb, -, -⟩ := hagree _ t hs ht
  have hid : (Sample.arena.accepted .rowOfIn ⟨3, 3⟩).getLast?.map Prod.fst = some 13 := by decide
  rw [hida, Option.map_some, Option.some.injEq] at hid
  exact ⟨t, ht, hconstruct, hfirst, hlast, hid ▸ hidb⟩

end HunkScope
