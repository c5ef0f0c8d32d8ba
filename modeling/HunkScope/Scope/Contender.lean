import HunkScope.Scope

/-!
# Contenders

The model of `EnclosingContextResolver::candidate` and of `Best` of `ast::context`. A node that
marks a construct contends for the scope of a hunk when it can be named:

* a function, a class or a `while` loop by the text of its name field;
* a branch by its comparison;
* a `for` loop by its variable and its iterable, found as a `LoopRule` says.

A `Contender` also says when it takes the place of the best scope so far: most do when they are
smaller, a branch also when it is as small, and a function defined in the body of another function
always.

* `Arena.contender?` (`candidate`): the contender at a node, with `Arena.nameOf?` for its name.
* `Arena.loopParts?` (`same_row_loop_parts`, `structural_loop_parts`): what a loop is named by.
* `Arena.isLocalFunction` (`is_nested_function`), `Precedence` (`Replacement`): when it is taken.
* `Contender.beats`, `Contender.contend` (`Best::offer`): a contender against the best so far.

Headlines:
* `contend_isSome`: once a scope is found, there is one for good.
* `contender?_eq_some_iff`: a contender is its node's construct, with the lines of its node.
-/

namespace HunkScope

/-- When a contender takes the place of the best scope so far. -/
inductive Precedence where
  /-- Whatever the best scope is. -/
  | always
  /-- When it is no larger. -/
  | onTie
  /-- When it is smaller. -/
  | smaller
deriving DecidableEq, Repr

/-- A scope that contends, and when it is taken. -/
structure Contender where
  scope : Scope
  precedence : Precedence
deriving DecidableEq, Repr

namespace Contender

/-- A contender takes the place of the best scope so far (the test of `Best::offer`). -/
def beats (c : Contender) : Option Scope → Bool
  | none => true
  | some best =>
    match c.precedence with
    | .always => true
    | .onTie => decide (c.scope.extent ≤ best.extent)
    | .smaller => decide (c.scope.extent < best.extent)

/-- The best scope after one more contender (`Best::offer`, but for the event). -/
def contend (best : Option Scope) (c : Contender) : Option Scope :=
  if c.beats best then some c.scope else best

theorem beats_none (c : Contender) : c.beats none = true := rfl

/-- Once a scope is found, there is one for good. -/
theorem contend_isSome (best : Option Scope) (c : Contender) : (contend best c).isSome := by
  unfold contend
  cases best with
  | none => rfl
  | some s => by_cases h : c.beats (some s) = true <;> simp [h]

end Contender

namespace Arena

/-- The node is a function defined in the body of another: its parent is a block, and the block's
parent is a function. -/
def isLocalFunction (a : Arena) (id : Nat) : Bool :=
  (a.parentOf? id).any fun block =>
    a.kindOf? block == some "block" &&
      (a.parentOf? block).any fun owner => a.kindOf? owner == some Construct.function.kind

/-- The variable and the iterable of a `for` loop. -/
def loopParts? (a : Arena) (rule : LoopRule) (id : Nat) : Option (Nat × Nat) :=
  match rule with
  | .rowOfIn => do
    let target ← a.childByKind? id "identifier"
    let keyword ← (a.childByKind? id "in").bind a.node?
    let iterable ← a.childWhere? id fun n =>
      n.kind == "call" && n.start.row == keyword.stop.row
    return (target, iterable)
  | .byField => do
    let target ← a.childByField? id "left"
    guard (a.kindOf? target == some "identifier")
    let iterable ← a.childByField? id "right"
    return (target, iterable)

theorem loopParts?_rowOfIn_eq_some_iff {a : Arena} {id : Nat} {parts : Nat × Nat} :
    a.loopParts? .rowOfIn id = some parts ↔ a.childByKind? id "identifier" = some parts.1 ∧
      ∃ k keyword, a.childByKind? id "in" = some k ∧ a.node? k = some keyword ∧
        a.childWhere? id (fun n => n.kind == "call" && n.start.row == keyword.stop.row) =
          some parts.2 := by
  simp only [loopParts?, Option.bind_eq_bind, Option.bind_eq_some_iff, Option.pure_def,
    Option.some.injEq]
  constructor
  · rintro ⟨target, ht, keyword, ⟨k, hk, hkeyword⟩, iterable, hi, rfl⟩
    exact ⟨ht, k, keyword, hk, hkeyword, hi⟩
  · rintro ⟨ht, k, keyword, hk, hkeyword, hi⟩
    exact ⟨parts.1, ht, keyword, ⟨k, hk, hkeyword⟩, parts.2, hi, rfl⟩

/-- The rule by fields looks at the iterable when the variable is an identifier. -/
theorem loopParts?_byField (a : Arena) (id : Nat) :
    a.loopParts? .byField id = (a.childByField? id "left").bind fun target =>
      if a.kindOf? target = some "identifier" then
        (a.childByField? id "right").map fun iterable => (target, iterable)
      else none := by
  refine congrArg (Option.bind (a.childByField? id "left")) (funext fun target => ?_)
  by_cases hkind : a.kindOf? target = some "identifier"
  · rw [if_pos hkind, beq_iff_eq.mpr hkind]
    cases a.childByField? id "right" <;> rfl
  · rw [if_neg hkind, beq_eq_false_iff_ne.mpr hkind]
    rfl

theorem loopParts?_byField_eq_some_iff {a : Arena} {id : Nat} {parts : Nat × Nat} :
    a.loopParts? .byField id = some parts ↔ a.childByField? id "left" = some parts.1 ∧
      a.kindOf? parts.1 = some "identifier" ∧ a.childByField? id "right" = some parts.2 := by
  rw [loopParts?_byField, Option.bind_eq_some_iff]
  constructor
  · rintro ⟨target, ht, hparts⟩
    by_cases hkind : a.kindOf? target = some "identifier"
    · rw [if_pos hkind] at hparts
      obtain ⟨iterable, hi, rfl⟩ := Option.map_eq_some_iff.mp hparts
      exact ⟨ht, hkind, hi⟩
    · rw [if_neg hkind] at hparts
      cases hparts
  · rintro ⟨ht, hkind, hi⟩
    exact ⟨parts.1, ht, by rw [if_pos hkind, hi, Option.map_some]⟩

/-- The name of a construct at a node, when it can be named. -/
def nameOf? (a : Arena) (rule : LoopRule) (id : Nat) : Construct → Option String
  | .function | .classBody | .whileLoop => (a.childByField? id "name").map a.textOf
  | .branch => (a.childByKind? id "comparison_operator").map fun c => "if " ++ a.textOf c
  | .forLoop =>
    (a.loopParts? rule id).map fun parts =>
      "for " ++ a.textOf parts.1 ++ " in " ++ a.textOf parts.2

/-- When a construct at a node takes the place of the best scope so far. -/
def precedenceOf (a : Arena) (id : Nat) : Construct → Precedence
  | .function => if a.isLocalFunction id then .always else .smaller
  | .branch => .onTie
  | .classBody | .forLoop | .whileLoop => .smaller

/-- The contender at a node, when the node marks a construct that can be named. -/
def contender? (a : Arena) (rule : LoopRule) (id : Nat) : Option Contender := do
  let n ← a.node? id
  let construct ← Construct.ofKind? n.kind
  let name ← a.nameOf? rule id construct
  return ⟨⟨construct, name, n.firstLine, n.lastLine⟩, a.precedenceOf id construct⟩

/-- **A contender is its node's construct, with the lines of its node.** -/
theorem contender?_eq_some_iff {a : Arena} {rule : LoopRule} {id : Nat} {c : Contender} :
    a.contender? rule id = some c ↔
      ∃ n construct name, a.node? id = some n ∧ construct.kind = n.kind ∧
        a.nameOf? rule id construct = some name ∧
        c = ⟨⟨construct, name, n.firstLine, n.lastLine⟩, a.precedenceOf id construct⟩ := by
  simp only [contender?, Option.bind_eq_bind, Option.bind_eq_some_iff, Option.pure_def,
    Option.some.injEq, Construct.ofKind?_eq_some_iff]
  constructor
  · rintro ⟨n, hn, k, hk, name, hname, rfl⟩
    exact ⟨n, k, name, hn, hk, hname, rfl⟩
  · rintro ⟨n, k, name, hn, hk, hname, rfl⟩
    exact ⟨n, hn, k, hk, name, hname, rfl⟩

end Arena

end HunkScope
