import HunkScope.Data.Encode
import HunkScope.Proofs.Scope.Naming
import HunkScope.Proofs.Scope.RunningBest
import HunkScope.Proofs.Scope.SideBySide

/-!
# Answers depend on the tree alone

Arenas hold the *same tree* when their sources agree and their nodes match with what the parser said
of them (`SameTree`). Nothing that is asked of an arena can tell them apart: searches find the same
scope by the same events, verdicts agree, and walks that look at nodes alone visit matching nodes in
the same order. Ids show in the log of a search and nowhere else.

* `SameTree.alike`: matching nodes are alike.
* `SameTree.contender?`: matching nodes have the same contender.
* `SameTree.search`: searches match event by event.
* **`SameTree.answers_eq`**: all answers agree.
-/

namespace HunkScope

/-- The event with its node renamed. -/
def Event.relabel (f : Nat → Nat) : Event → Event
  | accepted node scope => accepted (f node) scope
  | pruned node kind => pruned (f node) kind
  | fault node site => fault (f node) site

/-- A caller does not see the node of an event. -/
theorem Event.encode_relabel (f : Nat → Nat) (e : Event) : (e.relabel f).encode = e.encode := by
  cases e <;> rfl

/-- The search with the nodes of its events renamed. -/
def Search.relabel (f : Nat → Nat) : Search → Search := image id (Event.relabel f)

/-- The guide that looks at the kind of a node and at its own state alone. -/
def Guide.byKind {σ : Type} (g : String → σ → Bool × σ) : Guide σ := fun _ n s => g n.kind s

namespace Arena

/-- The nodes of two arenas match, and matching nodes hold the same. -/
structure SameTree (f : Nat → Nat) (a b : Arena) : Prop extends Matches f a b where
  source : b.source = a.source
  info : ∀ id, a.Reaches rootId id → b.infoOf? (f id) = a.infoOf? id

variable {f : Nat → Nat} {a b : Arena} {rule : LoopRule} {h : Hunk} {id : Nat}

namespace SameTree

theorem node_eq (hf : SameTree f a b) (hid : a.Reaches rootId id) {n m : Node}
    (hn : a.node? id = some n) (hm : b.node? (f id) = some m) : m.toNodeInfo = n.toNodeInfo := by
  have hinfo := hf.info id hid
  rw [infoOf?_of_node hn, infoOf?_of_node hm] at hinfo
  exact Option.some.inj hinfo

theorem kindOf? (hf : SameTree f a b) (hid : a.Reaches rootId id) :
    b.kindOf? (f id) = a.kindOf? id := by
  rw [kindOf?_eq_map_infoOf?, kindOf?_eq_map_infoOf?, hf.info id hid]

theorem isLocalFunction (hf : SameTree f a b) (ha : a.Linked) (hb : b.Linked)
    (hid : a.Reaches rootId id) : b.isLocalFunction (f id) = a.isLocalFunction id := by
  have hparent : ∀ {i p}, a.Reaches rootId i → a.parentOf? i = some p → a.Reaches rootId p := by
    intro i p hi hp
    rcases Relation.ReflTransGen.cases_tail hi with rfl | ⟨q, hq, hqi⟩
    · rw [ha.parentOf?_root] at hp
      cases hp
    · obtain rfl := Option.some.inj ((ha.mem_childrenOf.mp hqi).symm.trans hp)
      exact hq
  rw [Arena.isLocalFunction, Arena.isLocalFunction, hf.parentOf? ha hb hid]
  cases hblock : a.parentOf? id with
  | none => rfl
  | some block =>
    have hreach := hparent hid hblock
    simp only [Option.map_some, Option.any_some, hf.kindOf? hreach, hf.parentOf? ha hb hreach]
    cases howner : a.parentOf? block with
    | none => rfl
    | some owner =>
      simp only [Option.map_some, Option.any_some, hf.kindOf? (hparent hreach howner)]

/-- Matching nodes are alike. -/
theorem alike (hf : SameTree f a b) (hid : a.Reaches rootId id) : Alike f a b id where
  source := hf.source
  info := hf.info id hid
  children := hf.children id hid
  below := fun c hc => hf.info c (hid.tail hc)

/-- **Matching nodes have the same contender.** -/
theorem contender? (hf : SameTree f a b) (ha : a.Linked) (hb : b.Linked)
    (hid : a.Reaches rootId id) (rule : LoopRule) :
    b.contender? rule (f id) = a.contender? rule id :=
  (hf.alike hid).contender? (hf.isLocalFunction ha hb hid) rule

/-! ## What is asked of an arena -/

/-- **Searches match event by event.** -/
theorem search (hf : SameTree f a b) (ha : a.Linked) (hb : b.Linked) (rule : LoopRule)
    (h : Hunk) : b.search rule h = (a.search rule h).relabel f := by
  refine hf.search_keeps ha hb (R := fun s t => t = s.relabel f) ?_
    (fun i hi => Contender.rel_of_eq (hf.contender? ha hb hi rule)) Search.image_start.symm ?_ ?_
  · intro i n m hi hn hm
    have hinfo := hf.node_eq hi hn hm
    rw [hinfo]
    exact ⟨rfl, rfl, rfl⟩
  · rintro i kind s _ rfl
    exact Search.image_pass rfl s
  · rintro i c _ s _ rfl rfl
    exact Search.image_weigh rfl rfl (by rw [Option.map_id, id])

theorem firstFault? (hf : SameTree f a b) (ha : a.Linked) (hb : b.Linked) :
    b.firstFault? = a.firstFault?.map fun fault => (f fault.1, fault.2) := by
  refine hf.firstFault?_eq ha hb (g := id) fun i n m hi hn hm => ?_
  rw [hf.node_eq hi hn hm]
  exact ⟨rfl, rfl⟩

/-- **All answers agree**: the nodes that the roots reach are matched one to one, searches find the
same scope by the same events, verdicts and their events are the same, and guides that look at kinds
alone are called on matching nodes in the same order. -/
theorem answers_eq (hf : SameTree f a b) (ha : a.Built) (hb : b.Built) :
    Set.BijOn f {i | a.Reaches rootId i} {j | b.Reaches rootId j} ∧
      (∀ rule h, b.scopeOf? rule h = a.scopeOf? rule h ∧
        b.scopeLog rule h = (a.scopeLog rule h).map (Event.relabel f) ∧
        (b.scopeLog rule h).map Event.encode = (a.scopeLog rule h).map Event.encode) ∧
      (b.verdict = a.verdict ∧ b.verdictLog = a.verdictLog.map (Event.relabel f) ∧
        b.verdictLog.map Event.encode = a.verdictLog.map Event.encode) ∧
      ∀ (σ : Type) (g : String → σ → Bool × σ) (s : σ),
        b.calls (Guide.byKind g) s = (a.calls (Guide.byKind g) s).map (Call.relabel f) := by
  have hencode : ∀ {es es' : List Event}, es' = es.map (Event.relabel f) →
      es'.map Event.encode = es.map Event.encode := by
    rintro es _ rfl
    rw [List.map_map]
    exact List.map_congr_left fun e _ => Event.encode_relabel f e
  have hlog : ∀ rule h, b.scopeLog rule h = (a.scopeLog rule h).map (Event.relabel f) := by
    intro rule h
    rw [scopeLog, scopeLog, hf.search ha.linked hb.linked]
    exact Array.toList_map
  have hfault := hf.firstFault? ha.linked hb.linked
  have hverdictLog : b.verdictLog = a.verdictLog.map (Event.relabel f) := by
    rw [verdictLog, verdictLog, hfault]
    cases a.firstFault? <;> rfl
  refine ⟨hf.bijOn ha.linked hb.linked, fun rule h => ⟨?_, hlog rule h, hencode (hlog rule h)⟩,
    ⟨?_, hverdictLog, hencode hverdictLog⟩, fun σ g s => ?_⟩
  · rw [scopeOf?, scopeOf?, hf.search ha.linked hb.linked]
    exact congrFun Option.map_id _
  · rw [verdict, verdict, hfault]
    cases a.firstFault? <;> rfl
  · refine hf.calls_eq ha.linked hb.linked (fun i n m s hi hn hm => ?_) s
    simp only [Guide.byKind, hf.node_eq hi hn hm]

end SameTree

end Arena

/-! ## A sample -/

namespace Sample

/-- A function with a branch in its body and, after it, a mistake; each node right after the one
above it. -/
def inDepth : Arena :=
  grown "fx>1" (info "module" none 0 4 ⟨0, 4⟩)
    [(0, info "function_definition" none 0 3 ⟨0, 0⟩),
      (1, info "identifier" (some "name") 0 0 ⟨0, 1⟩),
      (1, info "block" (some "body") 1 3 ⟨0, 0⟩),
      (3, info "if_statement" none 1 2 ⟨0, 0⟩),
      (4, info "comparison_operator" none 1 1 ⟨1, 4⟩),
      (0, { info "ERROR" none 4 4 ⟨0, 0⟩ with isError := true })]

/-- The same tree level by level, and a branch below itself. -/
def inBreadth : Arena :=
  grown "fx>1" (info "module" none 0 4 ⟨0, 4⟩)
    [(0, info "function_definition" none 0 3 ⟨0, 0⟩),
      (2, info "if_statement" none 1 1 ⟨0, 0⟩),
      (0, { info "ERROR" none 4 4 ⟨0, 0⟩ with isError := true }),
      (1, info "identifier" (some "name") 0 0 ⟨0, 1⟩),
      (1, info "block" (some "body") 1 3 ⟨0, 0⟩),
      (5, info "if_statement" none 1 2 ⟨0, 0⟩),
      (6, info "comparison_operator" none 1 1 ⟨1, 4⟩)]

/-- The second id of each node. -/
def moved (id : Nat) : Nat := [0, 1, 4, 5, 6, 7, 3].getD id 0

theorem sameTree_moved : Arena.SameTree moved inDepth inBreadth := by
  have hsize : ∀ id, inDepth.Reaches Arena.rootId id → id < 7 := fun id hid =>
    ((Arena.Built.linked (built_grown _ _ _)).grounded_of_reaches hid).1
  exact
    { root := rfl
      children := fun id hid =>
        (by decide : ∀ id < 7, inBreadth.childrenOf (moved id) =
          (inDepth.childrenOf id).map moved) id (hsize id hid)
      source := rfl
      info := fun id hid =>
        (by decide : ∀ id < 7, inBreadth.infoOf? (moved id) = inDepth.infoOf? id) id
          (hsize id hid) }

end Sample

/-- In the second arena too line 3 lies in the branch and the mistake is on line 5, and a guide that
does not go below blocks is called on the nodes that match those of the first. -/
theorem Arena.answers_eq_sample :
    Sample.inBreadth.scopeOf? .rowOfIn ⟨3, 3⟩ = some ⟨.branch, "if x>1", 2, 3⟩ ∧
      Sample.inBreadth.verdict = .faulty Verdict.textReason (some ⟨5, 0⟩) ∧
      (Sample.inBreadth.calls (Guide.byKind fun kind (s : Nat) => (kind != "block", s + 1))
        0).map Call.node = [0, 1, 4, 5, 3] := by
  obtain ⟨-, hscope, hverdict, hcalls⟩ := SameTree.answers_eq Sample.sameTree_moved
    (Sample.built_grown _ _ _) (Sample.built_grown _ _ _)
  refine ⟨(hscope .rowOfIn ⟨3, 3⟩).1.trans (by decide), hverdict.1.trans (by decide), ?_⟩
  rw [hcalls]
  decide

end HunkScope
