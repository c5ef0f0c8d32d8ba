/-!
# Constructs

The model of `ConstructKind` of `ast::context`. The kinds of program text that can enclose a hunk,
each with the kind of node a parser marks it with (`Construct.kind`, for `as_str`).
`Construct.ofKind?` (`from_node_kind`) reads a node kind back.
-/

namespace HunkScope

/-- A construct that can enclose lines of a program. -/
inductive Construct where
  | function
  | classBody
  | branch
  | forLoop
  | whileLoop
deriving DecidableEq, Repr

namespace Construct

/-- Every construct. -/
def all : List Construct := [function, classBody, branch, forLoop, whileLoop]

/-- The kind of node that marks a construct. -/
def kind : Construct → String
  | function => "function_definition"
  | classBody => "class_definition"
  | branch => "if_statement"
  | forLoop => "for_statement"
  | whileLoop => "while_statement"

/-- The construct a node kind marks. -/
def ofKind? (k : String) : Option Construct := all.find? fun c => c.kind == k

theorem mem_all (c : Construct) : c ∈ all := by
  cases c <;> decide

/-- **Reading a kind finds exactly the construct it marks.** -/
theorem ofKind?_eq_some_iff {k : String} {c : Construct} : ofKind? k = some c ↔ c.kind = k := by
  constructor
  · intro h
    simpa using List.find?_some h
  · rintro rfl
    cases c <;> decide

/-- Kinds tell constructs apart. -/
theorem kind_injective {c d : Construct} (h : c.kind = d.kind) : c = d :=
  Option.some.inj ((ofKind?_eq_some_iff.mpr h).symm.trans (ofKind?_eq_some_iff.mpr rfl))

end Construct

end HunkScope
