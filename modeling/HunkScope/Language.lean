import HunkScope.Text.Blank
import HunkScope.Text.Quoted

/-!
# Languages

The model of `Grammar`, `Grammar::resolve` and `ParseError` of `ast::parser`, and of
`ast::languages`.

A language is asked for by a label. Blanks around a label and the case of its letters do not
matter. What is left is looked up among the grammars (`grammarOf?`); the labels that are listed to
callers (`labels`) are written down apart from that.

Lower case is full Unicode lower case, which is a parameter of the lookup (`ofLabelBy`). The listed
labels are written in ASCII, and lowering ASCII letters is all that a known label needs, so this is
how languages are looked up (`ofLabel`).

A grammar itself is a part of the grammar runtime. Here it is a handle that tells one grammar from
another, no more; what the runtime makes of a text by a grammar comes with the text.

A text that cannot be parsed has a `ParseFailure`, which has a message of its own.
-/

namespace HunkScope

/-- Why there is no parse tree. -/
inductive ParseFailure where
  /-- No language has this label. -/
  | unsupportedLanguage (label : String)
  /-- The parser does not take the grammar of the language, for a reason of its own. -/
  | incompatibleGrammar (reason : String)
  /-- The parser gave nothing back. -/
  | noTree
deriving DecidableEq, Repr

/-- How a parse failure is reported. -/
def ParseFailure.message : ParseFailure → String
  | unsupportedLanguage label => "unsupported language: " ++ label
  | incompatibleGrammar reason => "incompatible grammar: " ++ reason
  | noTree => "parser produced no tree"

/-- The handle of a grammar of the runtime. -/
structure Grammar where
  name : String
deriving DecidableEq, Repr

/-- The one grammar that parsers are set up with. -/
def Grammar.python : Grammar := ⟨"python"⟩

/-- A language: the label it was found by and its grammar. -/
structure Language where
  label : String
  grammar : Grammar
deriving DecidableEq, Repr

namespace Language

/-- The labels that are listed to callers. -/
def labels : List String := ["py", "python", "pyi"]

/-- The language taken when none is asked for. -/
def standard : Language := ⟨"python", .python⟩

/-- The grammar of a label without blanks and in lower case. -/
def grammarOf? : String → Option Grammar
  | "py" | "python" | "pyi" => some .python
  | _ => none

/-- A label without blanks at its ends and in lower case. -/
def normalizeBy (lower : List Char → List Char) (label : String) : String :=
  String.ofList (lower (Text.trim label.toList))

/-- The language of a label, by a lower case. -/
def ofLabelBy (lower : List Char → List Char) (label : String) : Except ParseFailure Language :=
  match grammarOf? (normalizeBy lower label) with
  | some grammar => .ok ⟨normalizeBy lower label, grammar⟩
  | none => .error (.unsupportedLanguage (Text.trimmed label))

/-- A label without blanks at its ends and with its ASCII letters in lower case. -/
def normalize : String → String := normalizeBy fun cs => cs.map Char.toLower

/-- The language of a label. -/
def ofLabel : String → Except ParseFailure Language := ofLabelBy fun cs => cs.map Char.toLower

/-- A language as it is shown to people. -/
def describe (l : Language) : String :=
  "Grammar \x7b label: " ++ Text.quoted l.label ++ " \x7d"

/-- **The labels with a grammar are the listed ones**, and they all have the same. -/
theorem grammarOf?_eq_some_iff {label : String} {grammar : Grammar} :
    grammarOf? label = some grammar ↔ label ∈ labels ∧ grammar = .python := by
  unfold grammarOf?
  split <;> simp_all [labels, eq_comm]

section Lower

variable {lower : List Char → List Char} {label : String}

/-- **A listed label has a language** with the one grammar. -/
theorem ofLabelBy_of_mem (h : normalizeBy lower label ∈ labels) :
    ofLabelBy lower label = .ok ⟨normalizeBy lower label, .python⟩ := by
  rw [ofLabelBy, grammarOf?_eq_some_iff.mpr ⟨h, rfl⟩]

/-- **Any other label is refused** without the blanks around it and with its case kept. -/
theorem ofLabelBy_of_not_mem (h : normalizeBy lower label ∉ labels) :
    ofLabelBy lower label = .error (.unsupportedLanguage (Text.trimmed label)) := by
  cases hgrammar : grammarOf? (normalizeBy lower label) with
  | some grammar => exact absurd (grammarOf?_eq_some_iff.mp hgrammar).1 h
  | none => rw [ofLabelBy, hgrammar]

theorem ofLabelBy_eq_ok_iff {l : Language} :
    ofLabelBy lower label = .ok l ↔
      normalizeBy lower label ∈ labels ∧ l = ⟨normalizeBy lower label, .python⟩ := by
  by_cases h : normalizeBy lower label ∈ labels
  · simp [ofLabelBy_of_mem h, h, eq_comm]
  · simp [ofLabelBy_of_not_mem h, h]

end Lower

theorem ofLabel_eq_ok_iff {label : String} {l : Language} :
    ofLabel label = .ok l ↔ normalize label ∈ labels ∧ l = ⟨normalize label, .python⟩ :=
  ofLabelBy_eq_ok_iff

end Language

end HunkScope
