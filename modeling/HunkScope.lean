import HunkScope.Data.Numeral
import HunkScope.Data.Schema
import HunkScope.Endpoint
import HunkScope.Proofs.Agreement
import HunkScope.Proofs.Arena.Copy
import HunkScope.Proofs.Data.Lists
import HunkScope.Proofs.Data.OptionsInConfig
import HunkScope.Proofs.Labels
import HunkScope.Proofs.Scope.Excerpts
import HunkScope.Proofs.Scope.Hidden
import HunkScope.Proofs.Scope.Log
import HunkScope.Proofs.Scope.LoopRules
import HunkScope.Proofs.Scope.Narrower
import HunkScope.Proofs.Scope.Outline
import HunkScope.Proofs.Scope.Reversed
import HunkScope.Proofs.Scope.SameTree
import HunkScope.Proofs.Scope.Shifted
import HunkScope.Proofs.Verdict.Earliest
import HunkScope.Proofs.Verdict.Total
