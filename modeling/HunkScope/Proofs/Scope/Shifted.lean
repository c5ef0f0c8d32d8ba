import HunkScope.Proofs.Arena.Shifted
import HunkScope.Proofs.Scope.Naming
import HunkScope.Proofs.Scope.RunningBest
import HunkScope.Proofs.Scope.SideBySide

/-!
# Answers move with the text

When a whole text stands `k` lines further down, and a hunk with it, the search takes the
contenders of the same nodes and passes over the same nodes: it compares lines with lines, sizes
with sizes and rows with rows, and `k` cancels out of each comparison. The scope it finds and the
mistake a verdict reports stand `k` lines further down; names, kinds and columns are as they were.
All this holds as long as no line passes the last word.

* `Scope.shift`, `Event.shift`, `Verdict.shift`: answers `k` lines further down.

Headlines:
* `Contender.beats_shift`: shifted contenders win as the contenders do.
* `contender?_shift`: the contender of a shifted node is the shifted contender.
* `search_shift`: searches match event by event.
* `verdict_shift`: a verdict reports the same node.
* **`answers_shift`**: all answers are shifted by exactly `k` lines.
-/

namespace HunkScope

variable {k : UInt32}

/-! ## Answers further down -/

/-- The scope `k` lines further down. -/
def Scope.shift (k : UInt32) (s : Scope) : Scope :=
  { s with firstLine := s.firstLine + k, lastLine := s.lastLine + k }

/-- The contender `k` lines further down. -/
def Contender.shift (k : UInt32) (c : Contender) : Contender := { c with scope := c.scope.shift k }

/-- The place of a mistake `k` lines further down. -/
def FaultSite.shift (k : UInt32) (s : FaultSite) : FaultSite := { s with line := s.line + k }

/-- The verdict on a text `k` lines further down. -/
def Verdict.shift (k : UInt32) (v : Verdict) : Verdict :=
  { v with site := v.site.map (FaultSite.shift k) }

/-- The event `k` lines further down, at the same node. -/
def Event.shift (k : UInt32) : Event → Event
  | accepted node scope => accepted node (scope.shift k)
  | pruned node kind => pruned node kind
  | fault node site => fault node (site.shift k)

/-- The search with all its answers `k` lines further down. -/
def Search.shift (k : UInt32) (s : Search) : Search := s.image (Scope.shift k) (Event.shift k)

/-- Both lines of a scope can be raised by `k`. -/
structure Scope.Room (k : UInt32) (s : Scope) : Prop where
  firstLine : WordRoom k s.firstLine
  lastLine : WordRoom k s.lastLine

/-- A shifted scope has as many lines. -/
theorem Scope.extent_shift {s : Scope} (hs : s.Room k) : (s.shift k).extent = s.extent := by
  rw [extent, extent, shift, hs.firstLine.toNat_add, hs.lastLine.toNat_add]
  omega

/-- **Shifted contenders win as the contenders do.** -/
theorem Contender.beats_shift {c : Contender} (hc : c.scope.Room k) {best : Option Scope}
    (hbest : ∀ s, best = some s → s.Room k) :
    (c.shift k).beats (best.map (Scope.shift k)) = c.beats best := by
  cases best with
  | none => rfl
  | some s =>
    simp only [Option.map_some, beats, shift, Scope.extent_shift hc,
      Scope.extent_shift (hbest s rfl)]

namespace Search

theorem pass_shift (s : Search) (node : Nat) (kind : String) :
    (s.shift k).pass node kind = (s.pass node kind).shift k :=
  image_pass rfl s

theorem weigh_shift {s : Search} (hs : ∀ best, s.best = some best → best.Room k) (node : Nat)
    {c : Contender} (hc : c.scope.Room k) :
    (s.shift k).weigh node (c.shift k) = (s.weigh node c).shift k :=
  image_weigh rfl rfl (Contender.beats_shift hc hs)

/-- A scope that a search finds is the one it had or that of the contender it weighed. -/
theorem best_weigh_eq {s : Search} {node : Nat} {c : Contender} {t : Scope}
    (ht : (s.weigh node c).best = some t) : t = c.scope ∨ s.best = some t := by
  rw [best_weigh, Contender.contend] at ht
  split at ht
  · exact Or.inl (Option.some.inj ht).symm
  · exact Or.inr ht

end Search

/-! ## Searches -/

namespace Arena

variable {a : Arena} {h : Hunk}

theorem isLocalFunction_shift (k : UInt32) (a : Arena) (id : Nat) :
    (a.shift k).isLocalFunction id = a.isLocalFunction id := by
  simp only [isLocalFunction, parentOf?_shift, kindOf?_shift]

/-- A node and its shifted image are akin: rows that are equal stay so, and no others become so. -/
theorem akin_shift (k : UInt32) (a : Arena) (id : Nat) :
    Akin (fun id => id) a (a.shift k) id where
  children := by rw [childrenOf_shift, List.map_id']
  tag := fun c _ => by
    rw [infoOf?_shift, Option.map_map]
    rfl
  continues := fun c _ d _ => by
    have hrows : ∀ m n : NodeInfo, ((m.shift k).start.row == (n.shift k).stop.row) =
        (m.start.row == n.stop.row) := fun m n => by
      rw [Bool.eq_iff_iff, beq_iff_eq, beq_iff_eq]
      exact UInt32.add_left_inj k
    simp only [continues, infoOf?_shift, Option.any_map, hrows]

/-- **The contender of a shifted node** is the shifted contender. -/
theorem contender?_shift (k : UInt32) (a : Arena) (rule : LoopRule) (id : Nat) :
    (a.shift k).contender? rule id = (a.contender? rule id).map (Contender.shift k) := by
  have hname := (akin_shift k a id).nameOf?_eq (fun c _ => textOf_shift k a c) rule
  rw [contender?_eq_infoOf?, contender?_eq_infoOf?, infoOf?_shift, Option.bind_map,
    Option.map_bind]
  refine congrArg (Option.bind _) (funext fun n => ?_)
  rw [Function.comp_apply, Function.comp_apply, Option.map_bind]
  refine congrArg (Option.bind _) (funext fun construct => ?_)
  rw [Function.comp_apply, hname, precedenceOf_eq (isLocalFunction_shift k a id), Option.map_map,
    NodeInfo.firstLine_shift, NodeInfo.lastLine_shift]
  rfl

/-- A contender has room where its node has. -/
theorem room_of_contender? (ha : a.Room k) {rule : LoopRule} {id : Nat} {c : Contender}
    (hc : a.contender? rule id = some c) : c.scope.Room k := by
  obtain ⟨n, construct, name, hn, -, -, rfl⟩ := contender?_eq_some_iff.mp hc
  exact ⟨(ha id n hn).firstLine, (ha id n hn).lastLine⟩

/-- A shifted node is of the same kind and lies to a shifted hunk as the node to the hunk. -/
theorem visit_shift (hroom : a.Room k) (hh : h.Room k) {id : Nat} {n m : Node}
    (hn : a.node? id = some n) (hm : (a.shift k).node? id = some m) :
    m.kind = n.kind ∧ m.clearOf (h.shift k) = n.clearOf h ∧
      m.covers (h.shift k) = n.covers h := by
  rw [node?_shift, hn, Option.map_some, Option.some.injEq] at hm
  subst hm
  exact ⟨rfl, NodeInfo.clearOf_shift (hroom id n hn) hh, NodeInfo.covers_shift (hroom id n hn) hh⟩

/-- **Searches match event by event**, and what they find has room. -/
theorem search_shift (ha : a.Built) (hroom : a.Room k) (rule : LoopRule) (hh : h.Room k) :
    (a.shift k).search rule (h.shift k) = (a.search rule h).shift k ∧
      ∀ s, a.scopeOf? rule h = some s → s.Room k := by
  refine (matches_shift k a).search_keeps ha.linked (ha.shift k).linked
    (Q := fun c d => d = c.shift k ∧ c.scope.Room k)
    (R := fun s t => t = s.shift k ∧ ∀ best, s.best = some best → best.Room k)
    (fun id n m _ hn hm => visit_shift hroom hh hn hm) (fun id _ => ?_)
    ⟨Search.image_start.symm, fun _ hbest => by cases hbest⟩ ?_ ?_
  · exact Contender.rel_of_eq_map (contender?_shift k a rule id) fun c hc =>
      ⟨rfl, room_of_contender? hroom hc⟩
  · rintro id kind s _ ⟨rfl, hs⟩
    exact ⟨Search.pass_shift s id kind, hs⟩
  · rintro id c _ s _ ⟨rfl, hc⟩ ⟨rfl, hs⟩
    refine ⟨Search.weigh_shift hs id hc, fun best hbest => ?_⟩
    rcases Search.best_weigh_eq hbest with rfl | hbefore
    · exact hc
    · exact hs best hbefore

/-! ## Verdicts -/

/-- A verdict reports the same node of a shifted arena. -/
theorem firstFault?_shift (ha : a.Linked) (hb : (a.shift k).Linked) :
    (a.shift k).firstFault? = a.firstFault?.map fun fault => (fault.1, fault.2.shift k) := by
  refine (matches_shift k a).firstFault?_eq ha hb fun id n m _ hn hm => ?_
  rw [node?_shift, hn, Option.map_some, Option.some.injEq] at hm
  subst hm
  exact ⟨rfl, congrArg (FaultSite.mk · n.start.column) (Point.line_shift k n.start)⟩

/-- **A verdict is shifted with the arena.** -/
theorem verdict_shift (ha : a.Built) (k : UInt32) :
    (a.shift k).verdict = a.verdict.shift k ∧
      (a.shift k).verdictLog = a.verdictLog.map (Event.shift k) := by
  have hfault := firstFault?_shift ha.linked (ha.shift k).linked
  rw [verdict, verdict, verdictLog, verdictLog, hfault]
  cases a.firstFault? with
  | none => exact ⟨rfl, rfl⟩
  | some fault => exact ⟨rfl, rfl⟩

/-- Where a verdict reports a mistake there is room. -/
theorem room_of_verdict_site (hroom : a.Room k) {site : FaultSite}
    (hsite : a.verdict.site = some site) : WordRoom k site.line := by
  rw [verdict] at hsite
  cases hfault : a.firstFault? with
  | none =>
    rw [hfault] at hsite
    cases hsite
  | some fault =>
    rw [hfault] at hsite
    obtain rfl := Option.some.inj hsite
    simp only [firstFault?, Option.bind_eq_bind, Option.bind_eq_some_iff, Option.pure_def,
      Option.some.injEq] at hfault
    obtain ⟨id, -, n, hn, rfl⟩ := hfault
    exact (hroom id n hn).firstLine

/-! ## All answers -/

/-- **All answers move with the text.** When the rows of all nodes and both ends of a hunk are
raised by `k`, and no line passes the last word, the hunk has the scope it had, exactly `k` lines
further down, by the same events at the same nodes; and the verdict is the one it was, on the line
exactly `k` further down and in the same column. -/
theorem answers_shift (ha : a.Built) (hroom : a.Room k) (rule : LoopRule) (hh : h.Room k) :
    (a.shift k).Built ∧
      (a.shift k).scopeOf? rule (h.shift k) = (a.scopeOf? rule h).map (Scope.shift k) ∧
      (∀ s, a.scopeOf? rule h = some s →
        (s.shift k).firstLine.toNat = s.firstLine.toNat + k.toNat ∧
          (s.shift k).lastLine.toNat = s.lastLine.toNat + k.toNat) ∧
      (a.shift k).scopeLog rule (h.shift k) = (a.scopeLog rule h).map (Event.shift k) ∧
      (a.shift k).verdict = a.verdict.shift k ∧
      (∀ site, a.verdict.site = some site →
        (site.shift k).line.toNat = site.line.toNat + k.toNat) ∧
      (a.shift k).verdictLog = a.verdictLog.map (Event.shift k) := by
  obtain ⟨hsearch, hscope⟩ := search_shift ha hroom rule hh
  obtain ⟨hverdict, hverdictLog⟩ := verdict_shift ha k
  refine ⟨ha.shift k, ?_, fun s hs => ?_, ?_, hverdict, fun site hsite => ?_, hverdictLog⟩
  · rw [scopeOf?, hsearch]
    rfl
  · exact ⟨(hscope s hs).firstLine.toNat_add, (hscope s hs).lastLine.toNat_add⟩
  · rw [scopeLog, hsearch]
    exact Array.toList_map
  · exact (room_of_verdict_site hroom hsite).toNat_add

end Arena

/-! ## A sample -/

namespace Sample

/-- A function with a loop in it, and a mistake in the last row. -/
def looped : Arena :=
  grown "fxg" (info "module" none 0 3 ⟨0, 3⟩)
    [(0, info "function_definition" none 0 2 ⟨0, 0⟩),
      (1, info "identifier" (some "name") 0 0 ⟨0, 1⟩),
      (1, info "for_statement" none 1 2 ⟨0, 0⟩),
      (3, info "identifier" (some "left") 1 1 ⟨1, 2⟩),
      (3, info "in" none 1 1 ⟨0, 0⟩),
      (3, info "call" (some "right") 1 1 ⟨2, 3⟩),
      (0, ⟨"ERROR", none, ⟨3, 5⟩, ⟨3, 6⟩, ⟨0, 0⟩, true, false⟩)]

theorem room_looped : looped.Room 4294967291 := by
  intro id n hn
  have hall : ∀ id < 8, ∀ n ∈ looped.node? id,
      n.start.row.toNat + 4294967291 + 1 < UInt32.size ∧
        n.stop.row.toNat + 4294967291 + 1 < UInt32.size := by decide
  obtain ⟨hstart, hstop⟩ := hall id (Arena.node?_eq_some_iff.mp hn).1 n hn
  exact ⟨hstart, hstop⟩

end Sample

/-- So far down that the mistake stands on the last line there is, the loop is found by the rows of
its children, and the mistake is reported there. -/
theorem Arena.answers_shift_sample :
    (Sample.looped.shift 4294967291).scopeOf? .rowOfIn ⟨4294967293, 4294967294⟩ =
        some ⟨.forLoop, "for x in g", 4294967293, 4294967294⟩ ∧
      (Sample.looped.shift 4294967291).verdict =
        .faulty Verdict.textReason (some ⟨4294967295, 5⟩) := by
  have hh : (Hunk.mk 2 3).Room 4294967291 := ⟨by decide, by decide⟩
  obtain ⟨-, hscope, -, -, hverdict, -, -⟩ :=
    answers_shift (Sample.built_grown _ _ _) Sample.room_looped .rowOfIn hh
  exact ⟨hscope.trans (by decide), hverdict.trans (by decide)⟩

end HunkScope
