import HunkScope.Proofs.Arena.Growth
import HunkScope.Scope.Contender
import Mathlib.Data.List.Find

/-!
# What a contender hangs on

A node contends by what it holds itself and by what its children hold: its name is the text of a
child or of two (`nameParts?`), and they are found by kind, by field or by row. Beyond that only the
two nodes above it are asked, whether they make it a local function.

Two nodes, in one arena or in two, are compared here in two ways. Nodes are *akin* (`Akin`) when
their children match and are told apart in the same way; then matching children name them. Nodes are
*alike* (`Alike`) when they and their children hold the same; then they have the same name, and the
same contender as soon as both are local functions or neither is.

* `nameOf?_eq_map`: a name is a phrase about the texts of one child or two.
* `Akin.childByField?`, `Akin.childByKind?`, `Akin.loopParts?`: what is found among the children
  matches.
* `Akin.nameParts?`: matching children name nodes that are akin.
* **`Alike.contender?`**: nodes that are alike have the same contender.
-/

namespace HunkScope

/-- The kind of a node and the field it fills. -/
def NodeInfo.tag (n : NodeInfo) : String × Option String := (n.kind, n.field)

/-- How a construct is called after the texts of the children that name it. Only a `for` loop is
named by two. -/
def Construct.phrase : Construct → String → String → String
  | function, text, _ => text
  | classBody, text, _ => text
  | branch, text, _ => "if " ++ text
  | forLoop, text, iterable => "for " ++ text ++ " in " ++ iterable
  | whileLoop, text, _ => text

end HunkScope

namespace HunkScope.Arena

variable {f : Nat → Nat} {a b : Arena} {id : Nat}

theorem kindOf?_eq_map_infoOf? (a : Arena) (id : Nat) :
    a.kindOf? id = (a.infoOf? id).map (·.kind) := by
  rw [kindOf?, infoOf?, Option.map_map]
  rfl

theorem textOf_eq_infoOf? (a : Arena) (id : Nat) :
    a.textOf id = ((a.infoOf? id).map fun n => a.spanText n.bytes).getD "" := by
  rw [textOf, infoOf?]
  cases a.node? id <;> rfl

theorem contender?_eq_infoOf? (a : Arena) (rule : LoopRule) (id : Nat) :
    a.contender? rule id = (a.infoOf? id).bind fun n =>
      (Construct.ofKind? n.kind).bind fun construct =>
        (a.nameOf? rule id construct).map fun name =>
          ⟨⟨construct, name, n.firstLine, n.lastLine⟩, a.precedenceOf id construct⟩ := by
  rw [infoOf?, Option.bind_map, contender?]
  refine congrArg (Option.bind (a.node? id)) (funext fun n => ?_)
  rw [Function.comp_apply, Option.bind_eq_bind]
  refine congrArg (Option.bind _) (funext fun construct => ?_)
  cases a.nameOf? rule id construct <;> rfl

/-- A construct takes its turn in the same way at two nodes that are both local functions or
neither. -/
theorem precedenceOf_eq {j : Nat} (hlocal : b.isLocalFunction j = a.isLocalFunction id) :
    b.precedenceOf j = a.precedenceOf id := by
  funext construct
  cases construct <;> simp only [precedenceOf, hlocal]

/-! ## The children that name a node -/

/-- The children that name a construct at a node; a construct that one child names has it twice. -/
def nameParts? (a : Arena) (rule : LoopRule) (id : Nat) : Construct → Option (Nat × Nat)
  | .function | .classBody | .whileLoop => (a.childByField? id "name").map fun c => (c, c)
  | .branch => (a.childByKind? id "comparison_operator").map fun c => (c, c)
  | .forLoop => a.loopParts? rule id

/-- **A name is a phrase about the texts of the children that name the node.** -/
theorem nameOf?_eq_map (a : Arena) (rule : LoopRule) (id : Nat) (construct : Construct) :
    a.nameOf? rule id construct = (a.nameParts? rule id construct).map fun parts =>
      construct.phrase (a.textOf parts.1) (a.textOf parts.2) := by
  cases construct with
  | function | classBody | whileLoop | branch =>
    simp only [nameOf?, nameParts?, Option.map_map, Function.comp_def, Construct.phrase]
  | forLoop => rfl

/-- They are children of it. -/
theorem mem_childrenOf_of_nameParts? {rule : LoopRule} {construct : Construct} {parts : Nat × Nat}
    (hp : a.nameParts? rule id construct = some parts) :
    parts.1 ∈ a.childrenOf id ∧ parts.2 ∈ a.childrenOf id := by
  have hone : ∀ {found : Option Nat}, (∀ c, found = some c → c ∈ a.childrenOf id) →
      (found.map fun c => (c, c)) = some parts →
        parts.1 ∈ a.childrenOf id ∧ parts.2 ∈ a.childrenOf id := by
    rintro _ hmem hfound
    obtain ⟨c, rfl, rfl⟩ := Option.map_eq_some_iff.mp hfound
    exact ⟨hmem c rfl, hmem c rfl⟩
  cases construct with
  | function | classBody | whileLoop | branch =>
    exact hone (fun c hc => (childWhere?_eq_some hc).1) hp
  | forLoop =>
    cases rule with
    | rowOfIn =>
      obtain ⟨h1, _, _, _, _, h2⟩ := loopParts?_rowOfIn_eq_some_iff.mp hp
      exact ⟨(childWhere?_eq_some h1).1, (childWhere?_eq_some h2).1⟩
    | byField =>
      obtain ⟨h1, -, h2⟩ := loopParts?_byField_eq_some_iff.mp hp
      exact ⟨(childWhere?_eq_some h1).1, (childWhere?_eq_some h2).1⟩

/-! ## Nodes that are akin -/

/-- The second node starts on the row where the first ends. -/
def continues (a : Arena) (c d : Nat) : Bool :=
  (a.infoOf? c).any fun n => (a.infoOf? d).any fun m => m.start.row == n.stop.row

theorem continues_eq_any_map (a : Arena) (c d : Nat) :
    a.continues c d = ((a.infoOf? c).map (·.stop.row)).any fun row =>
      ((a.infoOf? d).map (·.start.row)).any (· == row) := by
  simp only [continues, Option.any_map]

/-- The children of a node and of its image match, and are told apart in the same way: by their
kinds, by the fields they fill, and by which of them starts where another ends. -/
structure Akin (f : Nat → Nat) (a b : Arena) (id : Nat) : Prop where
  children : b.childrenOf (f id) = (a.childrenOf id).map f
  tag : ∀ c ∈ a.childrenOf id,
    (b.infoOf? (f c)).map NodeInfo.tag = (a.infoOf? c).map NodeInfo.tag
  continues : ∀ c ∈ a.childrenOf id, ∀ d ∈ a.childrenOf id,
    b.continues (f c) (f d) = a.continues c d

/-- **The first child that passes a test matches** the first that passes another, when matching
children pass both tests or neither. -/
theorem childWhere?_eq_map (hchildren : b.childrenOf (f id) = (a.childrenOf id).map f)
    {p q : NodeInfo → Bool}
    (hpq : ∀ c ∈ a.childrenOf id, (b.infoOf? (f c)).any q = (a.infoOf? c).any p) :
    b.childWhere? (f id) (fun n => q n.toNodeInfo) =
      (a.childWhere? id fun n => p n.toNodeInfo).map f := by
  have hany : ∀ (x : Arena) (c : Nat) (test : NodeInfo → Bool),
      ((x.node? c).any fun n => test n.toNodeInfo) = (x.infoOf? c).any test := fun x c test => by
    rw [infoOf?, Option.any_map]
  simp only [childWhere?, hany]
  rw [hchildren, List.find?_map]
  exact congrArg (Option.map f) (List.find?_congr hpq)

namespace Akin

theorem any_tag (hf : Akin f a b id) {c : Nat} (hc : c ∈ a.childrenOf id)
    (test : String × Option String → Bool) :
    ((b.infoOf? (f c)).any fun n => test n.tag) = (a.infoOf? c).any fun n => test n.tag := by
  have h := congrArg (Option.any test) (hf.tag c hc)
  rwa [Option.any_map, Option.any_map] at h

theorem childByField? (hf : Akin f a b id) (field : String) :
    b.childByField? (f id) field = (a.childByField? id field).map f :=
  childWhere?_eq_map hf.children fun _ hc => hf.any_tag hc fun tag => tag.2 == some field

theorem childByKind? (hf : Akin f a b id) (kind : String) :
    b.childByKind? (f id) kind = (a.childByKind? id kind).map f :=
  childWhere?_eq_map hf.children fun _ hc => hf.any_tag hc fun tag => tag.1 == kind

theorem kindOf?_child (hf : Akin f a b id) {c : Nat} (hc : c ∈ a.childrenOf id) :
    b.kindOf? (f c) = a.kindOf? c := by
  have h := congrArg (Option.map Prod.fst) (hf.tag c hc)
  rw [Option.map_map, Option.map_map] at h
  rw [kindOf?_eq_map_infoOf?, kindOf?_eq_map_infoOf?]
  exact h

/-- The first call that starts where a child ends matches. -/
theorem callAfter? (hf : Akin f a b id) {c : Nat} (hc : c ∈ a.childrenOf id) {n m : NodeInfo}
    (hn : a.infoOf? c = some n) (hm : b.infoOf? (f c) = some m) :
    b.childWhere? (f id) (fun i => i.kind == "call" && i.start.row == m.stop.row) =
      (a.childWhere? id fun i => i.kind == "call" && i.start.row == n.stop.row).map f := by
  refine childWhere?_eq_map hf.children
    (p := fun i => i.kind == "call" && i.start.row == n.stop.row)
    (q := fun i => i.kind == "call" && i.start.row == m.stop.row) fun d hd => ?_
  have hkind := hf.any_tag hd fun tag => tag.1 == "call"
  have hrow := hf.continues c hc d hd
  simp only [Arena.continues, hn, hm, Option.any_some] at hrow
  simp only [NodeInfo.tag] at hkind
  cases hx : a.infoOf? d with
  | none =>
    rw [hx] at hkind hrow
    cases hy : b.infoOf? (f d) with
    | none => rfl
    | some y =>
      have htag := hf.tag d hd
      rw [hx, hy] at htag
      cases htag
  | some x =>
    have htag := hf.tag d hd
    rw [hx, Option.map_some] at htag
    obtain ⟨y, hy, -⟩ := Option.map_eq_some_iff.mp htag
    rw [hx, hy, Option.any_some, Option.any_some] at hkind hrow
    rw [hy, Option.any_some, Option.any_some, hkind, hrow]

/-- **The variable and the iterable of a loop match.** -/
theorem loopParts? (hf : Akin f a b id) (rule : LoopRule) :
    b.loopParts? rule (f id) = (a.loopParts? rule id).map (Prod.map f f) := by
  cases rule with
  | rowOfIn =>
    simp only [Arena.loopParts?, hf.childByKind?]
    cases a.childByKind? id "identifier" with
    | none => rfl
    | some target =>
      cases hin : a.childByKind? id "in" with
      | none => rfl
      | some keyword =>
        obtain ⟨hmem, n, hn, -⟩ := childWhere?_eq_some hin
        have hinfo : a.infoOf? keyword = some n.toNodeInfo := infoOf?_of_node hn
        have htag := hf.tag keyword hmem
        rw [hinfo, Option.map_some] at htag
        obtain ⟨_, hinfo', -⟩ := Option.map_eq_some_iff.mp htag
        obtain ⟨m, hm, rfl⟩ := Option.map_eq_some_iff.mp hinfo'
        simp only [Option.map_some, Option.bind_eq_bind, Option.bind_some, hn, hm,
          hf.callAfter? hmem hinfo hinfo']
        cases a.childWhere? id fun i => i.kind == "call" && i.start.row == n.stop.row <;> rfl
  | byField =>
    rw [loopParts?_byField, loopParts?_byField, hf.childByField?, hf.childByField?]
    cases hleft : a.childByField? id "left" with
    | none => rfl
    | some target =>
      rw [Option.map_some, Option.bind_some, Option.bind_some,
        hf.kindOf?_child (childWhere?_eq_some hleft).1]
      by_cases hkind : a.kindOf? target = some "identifier"
      · rw [if_pos hkind, if_pos hkind, Option.map_map, Option.map_map]
        rfl
      · rw [if_neg hkind, if_neg hkind, Option.map_none]

/-- **Matching children name nodes that are akin.** -/
theorem nameParts? (hf : Akin f a b id) (rule : LoopRule) (construct : Construct) :
    b.nameParts? rule (f id) construct = (a.nameParts? rule id construct).map (Prod.map f f) := by
  cases construct with
  | function | classBody | whileLoop =>
    simp only [Arena.nameParts?, hf.childByField?, Option.map_map, Function.comp_def, Prod.map]
  | branch =>
    simp only [Arena.nameParts?, hf.childByKind?, Option.map_map, Function.comp_def, Prod.map]
  | forLoop => exact hf.loopParts? rule

/-- Nodes that are akin can be named in the same way. -/
theorem isSome_nameOf? (hf : Akin f a b id) (rule : LoopRule) (construct : Construct) :
    (b.nameOf? rule (f id) construct).isSome = (a.nameOf? rule id construct).isSome := by
  simp only [nameOf?_eq_map, hf.nameParts?, Option.isSome_map]

/-- **Nodes that are akin have the same name** when matching children have the same text. -/
theorem nameOf?_eq (hf : Akin f a b id)
    (htext : ∀ c ∈ a.childrenOf id, b.textOf (f c) = a.textOf c) (rule : LoopRule)
    (construct : Construct) :
    b.nameOf? rule (f id) construct = a.nameOf? rule id construct := by
  rw [nameOf?_eq_map, nameOf?_eq_map, hf.nameParts?, Option.map_map]
  refine Option.map_congr fun parts hparts => ?_
  obtain ⟨h1, h2⟩ := mem_childrenOf_of_nameParts? hparts
  simp only [Function.comp_apply, Prod.map, htext _ h1, htext _ h2]

end Akin

/-! ## Nodes that are alike -/

/-- A node and its image hold the same, and so do their children, one by one. -/
structure Alike (f : Nat → Nat) (a b : Arena) (id : Nat) : Prop where
  source : b.source = a.source
  info : b.infoOf? (f id) = a.infoOf? id
  children : b.childrenOf (f id) = (a.childrenOf id).map f
  below : ∀ c ∈ a.childrenOf id, b.infoOf? (f c) = a.infoOf? c

namespace Alike

theorem akin (hf : Alike f a b id) : Akin f a b id where
  children := hf.children
  tag := fun c hc => by rw [hf.below c hc]
  continues := fun c hc d hd => by rw [continues, continues, hf.below c hc, hf.below d hd]

theorem textOf_child (hf : Alike f a b id) {c : Nat} (hc : c ∈ a.childrenOf id) :
    b.textOf (f c) = a.textOf c := by
  rw [textOf_eq_infoOf?, textOf_eq_infoOf?, hf.below c hc]
  simp only [spanText, hf.source]

/-- **Nodes that are alike have the same contender**, when both are local functions or neither. -/
theorem contender? (hf : Alike f a b id)
    (hlocal : b.isLocalFunction (f id) = a.isLocalFunction id) (rule : LoopRule) :
    b.contender? rule (f id) = a.contender? rule id := by
  have hname := hf.akin.nameOf?_eq (fun c hc => hf.textOf_child hc) rule
  simp only [contender?_eq_infoOf?, hf.info, hname, precedenceOf_eq hlocal]

end Alike

end HunkScope.Arena
