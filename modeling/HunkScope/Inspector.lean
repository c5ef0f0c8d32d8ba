import HunkScope.Arena.Copy
import HunkScope.Config
import HunkScope.Scope.Selection

/-!
# Inspectors

The model of `SourceAnalyzer` and `SourceParser` of `ast`, of `Grammar::parse` and of
`check_validity`. An `Inspector` is set up for a language and a loop rule, and answers questions
about source files: the scope of a hunk, the scopes of several, and whether the text is free of
mistakes. A file that could not be parsed has no scopes, and its verdict is the parse failure.

Premise: what the grammar runtime makes of a text depends on the text and the grammar alone, so it
is given with the file (`SourceFile.parsed`).

Out of scope: the warnings that are logged for a file that could not be parsed.
-/

namespace HunkScope

/-- A text and what its parser makes of it by each grammar. -/
structure SourceFile where
  content : String
  parsed : Grammar → Except ParseFailure ParseTree

/-- The verdict on a text that could not be parsed. -/
def Verdict.ofFailure (e : ParseFailure) : Verdict := .faulty e.message none

namespace Language

/-- The arena of a file, if it can be parsed by the grammar of the language. -/
def parse (l : Language) (f : SourceFile) : Except ParseFailure Arena :=
  (f.parsed l.grammar).map (Arena.ofTree f.content)

/-- The verdict on a file. -/
def verdict (l : Language) (f : SourceFile) : Verdict :=
  match l.parse f with
  | .ok a => a.verdict
  | .error e => .ofFailure e

/-- The events of the verdict on a file. -/
def verdictLog (l : Language) (f : SourceFile) : List Event :=
  match l.parse f with
  | .ok a => a.verdictLog
  | .error _ => []

end Language

/-- The set-up for inspecting files. -/
structure Inspector where
  language : Language
  rule : LoopRule
deriving DecidableEq, Repr

namespace Inspector

/-- The inspector when nothing is chosen. -/
def standard : Inspector := ⟨.standard, .standard⟩

/-- The inspector of a configuration with a known language. -/
def ofConfig (c : Config) : Except ParseFailure Inspector :=
  (Language.ofLabel c.language).map fun l => ⟨l, c.rule⟩

/-- The scope of a hunk. -/
def find (i : Inspector) (f : SourceFile) (h : Hunk) : Option Scope :=
  match i.language.parse f with
  | .ok a => a.scopeOf? i.rule h
  | .error _ => none

/-- The events of the search for the scope of a hunk. -/
def findLog (i : Inspector) (f : SourceFile) (h : Hunk) : List Event :=
  match i.language.parse f with
  | .ok a => a.scopeLog i.rule h
  | .error _ => []

/-- The scope of each hunk, in the order of the hunks, from one parse. -/
def findAll (i : Inspector) (f : SourceFile) (hs : List Hunk) : List (Option Scope) :=
  match i.language.parse f with
  | .ok a => a.scopesOf i.rule hs
  | .error _ => hs.map fun _ => none

/-- The verdict on a file. -/
def verdict (i : Inspector) (f : SourceFile) : Verdict := i.language.verdict f

/-- The events of the verdict on a file. -/
def verdictLog (i : Inspector) (f : SourceFile) : List Event := i.language.verdictLog f

end Inspector

end HunkScope
