import HunkScope.Language
import HunkScope.Scope

/-!
# Configuration

The model of `ResolverOptions` of `ast::context` and of `AnalyzerConfig` of `ast`, with their
defaults. What a caller may choose: the rule for loops, and with it the language.
-/

namespace HunkScope

/-- The choices for a search. -/
structure Options where
  rule : LoopRule
deriving DecidableEq, Repr

/-- The choices when none are made. -/
def Options.standard : Options := ⟨.standard⟩

/-- The choices for an inspector: the label of a language, as it was given, and a loop rule. -/
structure Config where
  language : String
  rule : LoopRule
deriving DecidableEq, Repr

/-- The configuration when nothing is chosen. -/
def Config.standard : Config := ⟨Language.standard.label, .standard⟩

end HunkScope
