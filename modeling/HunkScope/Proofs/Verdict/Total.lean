import HunkScope.Proofs.Arena.Rounds
import HunkScope.Proofs.Verdict.FirstFault

/-!
# The check for mistakes always ends

The walk that looks for a mistake has no limit of its own: it ends on a flagged node, or once
nothing is left on its stack. Started on a node below itself that is not flagged it does neither,
and never even comes to the nodes pushed below that one later. No other start does that. A flagged
node ends the walk at once, and from a node that is not below itself no id is taken off the stack
twice. The root has no parent, so a check is always over and has one verdict.

* `BelowItself`: the row of a node names that node as its parent.
* `Judged`: the verdicts of a check without a limit on its rounds.

Headlines:
* `belowItself_iff`: rows and links tell of the same nodes below themselves.
* `endsIn_seekFlagged_iff`: from which nodes the walk ends, and on what.
* `judged_iff`: a check without a limit has one verdict, that of the arena.
* **`firstFlagged?_ends`**: all of it for the arena of a root and pushes.
-/

namespace HunkScope

namespace Arena

variable {a : Arena} {id : Nat} {source : String} {root : NodeInfo} {rows : List (Nat × NodeInfo)}
  {ids : List Nat}

/-! ## Rows that name their own node -/

/-- The node of an id was pushed below itself, and this is what was said of it. -/
def BelowItself (rows : List (Nat × NodeInfo)) (id : Nat) (info : NodeInfo) : Prop :=
  ∃ k, id = k + 1 ∧ rows[k]? = some (id, info)

/-- **Rows and links tell of the same nodes below themselves.** -/
theorem belowItself_iff {info : NodeInfo} (h : Records source root rows ids a) :
    BelowItself rows id info ↔ a.parentOf? id = some id ∧ a.infoOf? id = some info := by
  constructor
  · rintro ⟨k, rfl, hrow⟩
    obtain ⟨hinfo, hparent, -⟩ := h.row k _ hrow
    exact ⟨hparent, hinfo⟩
  · rintro ⟨hparent, hinfo⟩
    have hlt := lt_size_of_parentOf? hparent
    rw [h.size] at hlt
    cases id with
    | zero =>
      rw [show a.parentOf? 0 = none from h.root.2] at hparent
      cases hparent
    | succ k =>
      have hrow : rows[k]? = some rows[k] := List.getElem?_eq_getElem (Nat.lt_of_succ_lt_succ hlt)
      obtain ⟨hinfo', hparent', -⟩ := h.row k _ hrow
      have hfst : k + 1 = rows[k].1 := Option.some.inj (hparent.symm.trans hparent')
      have hsnd : info = rows[k].2 := Option.some.inj (hinfo.symm.trans hinfo')
      exact ⟨k, rfl, hrow.trans (congrArg some (Prod.ext hfst.symm hsnd.symm))⟩

theorem flagged_of_infoOf? {info : NodeInfo} (h : a.infoOf? id = some info) :
    a.flagged id = info.isFlagged := by
  obtain ⟨n, hn, rfl⟩ := Option.map_eq_some_iff.mp h
  exact flagged_of_node hn

theorem grounded_of_not_belowItself (h : Records source root rows ids a) (hid : id < a.size)
    (hrow : ∀ info, ¬ BelowItself rows id info) : a.Grounded id := by
  obtain ⟨info, hinfo⟩ := exists_infoOf?_of_lt hid
  exact ⟨hid, fun hself => hrow info ((belowItself_iff h).mpr ⟨hself, hinfo⟩)⟩

/-- Rows and links tell of the same nodes below themselves that are not flagged. -/
theorem exists_belowItself_iff (h : Records source root rows ids a) :
    (∃ info, BelowItself rows id info ∧ info.isError = false ∧ info.isMissing = false) ↔
      a.parentOf? id = some id ∧ a.flagged id = false := by
  constructor
  · rintro ⟨info, hrow, herror, hmissing⟩
    obtain ⟨hself, hinfo⟩ := (belowItself_iff h).mp hrow
    rw [flagged_of_infoOf? hinfo, NodeInfo.isFlagged, herror, hmissing]
    exact ⟨hself, rfl⟩
  · rintro ⟨hself, hflag⟩
    obtain ⟨info, hinfo⟩ := exists_infoOf?_of_lt (lt_size_of_parentOf? hself)
    rw [flagged_of_infoOf? hinfo] at hflag
    exact ⟨info, (belowItself_iff h).mpr ⟨hself, hinfo⟩, Bool.or_eq_false_iff.mp hflag⟩

/-! ## From which nodes the walk ends -/

/-- On a flagged node the walk is over after one round. -/
theorem run_seekFlagged_of_flagged (hflag : a.flagged id = true) (rounds : Nat) :
    Walk.run a seekFlagged (rounds + 1) ⟨[id], none⟩ = ⟨[], some id⟩ := by
  obtain ⟨n, hn, hf⟩ := (Option.any_eq_true _ _).mp hflag
  rw [Walk.run_cons, Walk.step_cons hn, seekFlagged, if_pos hf]
  exact Walk.run_nil a seekFlagged (some id) rounds

theorem firstFlagged?_of_flagged (hflag : a.flagged id = true) : a.firstFlagged? id = some id := by
  obtain ⟨m, hm⟩ := Nat.exists_eq_add_of_lt (lt_size_of_flagged hflag)
  rw [firstFlagged?, walkFrom, hm, run_seekFlagged_of_flagged hflag]

/-- Below a node that is not flagged the walk goes on. -/
theorem seekFlagged_descends {n : Node} (hn : a.node? id = some n) (hflag : a.flagged id = false)
    (found : Option Nat) : (seekFlagged id n found).1 = .descend := by
  rw [flagged_of_node hn] at hflag
  simp only [seekFlagged, hflag, Bool.false_eq_true, if_false]

/-- **The walk that looks for a mistake ends from every node but one below itself that is not
flagged**, and leaves what the arena says is the first flagged node. -/
theorem endsIn_seekFlagged_iff (ha : a.Linked) (hid : id < a.size) {found : Option Nat} :
    Walk.EndsIn a seekFlagged ⟨[id], none⟩ found ↔
      ¬ (a.parentOf? id = some id ∧ a.flagged id = false) ∧ found = a.firstFlagged? id := by
  by_cases hloop : a.parentOf? id = some id ∧ a.flagged id = false
  · obtain ⟨n, hn⟩ := exists_node_of_lt hid
    have hnever : ¬ Walk.EndsIn a seekFlagged ⟨[id], none⟩ found :=
      not_endsIn_below_itself ha hloop.1 hn (seekFlagged_descends hn hloop.2) none found
    exact iff_of_false hnever fun h => h.1 hloop
  · have hend : Walk.EndsIn a seekFlagged ⟨[id], none⟩ (a.firstFlagged? id) := by
      cases hflag : a.flagged id with
      | true =>
        rw [firstFlagged?_of_flagged hflag]
        exact ⟨1, run_seekFlagged_of_flagged hflag 0⟩
      | false =>
        have hg : a.Grounded id := ⟨hid, fun hself => hloop ⟨hself, hflag⟩⟩
        exact ⟨a.size, run_eq_walkFrom ha seekFlagged hg none (Nat.le_refl _)⟩
    exact ⟨fun h => ⟨hloop, h.unique hend⟩, fun h => h.2 ▸ hend⟩

theorem endsIn_seekFlagged_root_iff (ha : a.Linked) {found : Option Nat} :
    Walk.EndsIn a seekFlagged ⟨[rootId], none⟩ found ↔ found = a.firstFlagged? rootId := by
  rw [endsIn_seekFlagged_iff ha ha.root_lt]
  exact and_iff_right fun hloop => ha.grounded_root.2 hloop.1

/-! ## The verdicts of a check -/

/-- The verdicts of a check without a limit on its rounds: it is over with nothing found, or on a
node of the arena. -/
inductive Judged (a : Arena) : Verdict → Prop
  | sound (h : Walk.EndsIn a seekFlagged ⟨[rootId], none⟩ none) : Judged a .sound
  | faulty {id : Nat} {n : Node} (h : Walk.EndsIn a seekFlagged ⟨[rootId], none⟩ (some id))
      (hn : a.node? id = some n) : Judged a (.faulty Verdict.textReason (some n.site))

/-- **A check without a limit has one verdict**, that of the arena. -/
theorem judged_iff (ha : a.Linked) {v : Verdict} : a.Judged v ↔ v = a.verdict := by
  constructor
  · intro h
    cases h with
    | sound hend =>
      have hnone := (endsIn_seekFlagged_root_iff ha).mp hend
      rcases verdict_cases ha with ⟨-, hsound⟩ | ⟨id, n, hsome, -, -⟩
      · exact hsound.symm
      · rw [hsome] at hnone
        cases hnone
    | faulty hend hn =>
      have hsome := (endsIn_seekFlagged_root_iff ha).mp hend
      rcases verdict_cases ha with ⟨hnone, -⟩ | ⟨id, n, hsome', hn', hfaulty⟩
      · rw [hnone] at hsome
        cases hsome
      · rw [hsome', Option.some.injEq] at hsome
        subst hsome
        obtain rfl := Option.some.inj (hn.symm.trans hn')
        exact hfaulty.symm
  · rintro rfl
    rcases verdict_cases ha with ⟨hnone, hsound⟩ | ⟨id, n, hsome, hn, hfaulty⟩
    · rw [hsound]
      exact .sound ((endsIn_seekFlagged_root_iff ha).mpr hnone.symm)
    · rw [hfaulty]
      exact .faulty ((endsIn_seekFlagged_root_iff ha).mpr hsome.symm) hn

/-- **The check for mistakes always ends.** In the arena of a root and some rows the walk that looks
for a mistake ends from a node iff the node's row does not name the node itself, or says that it is
flagged; what it leaves is the first flagged node of the arena. On the way it never has an id on its
stack that names no node, and from a node whose row does not name the node itself it takes no id off
the stack twice. From the root it ends, so a check has a verdict, and no other than that of the
arena. -/
theorem firstFlagged?_ends (h : build source root rows = .ok a) :
    (∀ id < a.size,
      ((∃ found, Walk.EndsIn a seekFlagged ⟨[id], none⟩ found) ↔
        ¬ ∃ info, BelowItself rows id info ∧ info.isError = false ∧ info.isMissing = false) ∧
      (∀ found, Walk.EndsIn a seekFlagged ⟨[id], none⟩ found → found = a.firstFlagged? id) ∧
      (∀ rounds, ∀ i ∈ (Walk.run a seekFlagged rounds ⟨[id], none⟩).stack, i < a.size) ∧
      ((∀ info, ¬ BelowItself rows id info) →
        ∀ rounds, (Walk.popped a seekFlagged rounds ⟨[id], none⟩).Nodup)) ∧
    (∃ found, Walk.EndsIn a seekFlagged ⟨[rootId], none⟩ found) ∧
    ∀ v, a.Judged v ↔ v = a.verdict := by
  have hl := (built_of_build h).linked
  obtain ⟨ids, hrec⟩ := records_of_build h
  refine ⟨fun id hid => ⟨?_, fun found hend => ((endsIn_seekFlagged_iff hl hid).mp hend).2,
    fun rounds => run_stack_lt hl seekFlagged hid none rounds, fun hrow rounds => ?_⟩,
    ⟨_, (endsIn_seekFlagged_root_iff hl).mpr rfl⟩, fun v => judged_iff hl⟩
  · rw [exists_belowItself_iff hrec]
    simp only [endsIn_seekFlagged_iff hl hid, exists_and_left, exists_eq, and_true]
  · exact nodup_popped hl seekFlagged (grounded_of_not_belowItself hrec hid hrow) none rounds

end Arena

/-! ## A sample -/

namespace Sample

/-- A block below itself that holds a mistake, a mistake below itself, and below the root a block
that lacks its last token. -/
def knottedRows : List (Nat × NodeInfo) :=
  [(1, bare "block"), (1, mistake ⟨2, 0⟩ ⟨2, 4⟩), (3, mistake ⟨3, 0⟩ ⟨3, 1⟩), (0, bare "block"),
    (4, { between "end" ⟨4, 7⟩ ⟨4, 7⟩ with isMissing := true })]

/-- The arena of the knotted rows. -/
def knotted : Arena := grown "" (bare "module") knottedRows

end Sample

namespace Arena

/-- From the block below itself the walk does not come to the mistake in it and does not end. From
the mistake below itself it ends, and from the root it takes three ids off the stack and reports the
token that the other block lacks. -/
theorem firstFlagged?_ends_sample :
    (¬ ∃ found, Walk.EndsIn Sample.knotted seekFlagged ⟨[1], none⟩ found) ∧
      (2 ∈ Sample.knotted.childrenOf 1 ∧ Sample.knotted.flagged 2 = true) ∧
      Walk.EndsIn Sample.knotted seekFlagged ⟨[3], none⟩ (some 3) ∧
      Walk.popped Sample.knotted seekFlagged 6 ⟨[0], none⟩ = [0, 4, 5] ∧ [0, 4, 5].Nodup ∧
      Sample.knotted.Judged ⟨false, "Syntax errors detected", some ⟨5, 7⟩⟩ := by
  have hbuild : build "" (Sample.bare "module") Sample.knottedRows = .ok Sample.knotted := rfl
  obtain ⟨hfrom, -, hjudged⟩ := firstFlagged?_ends hbuild
  have hpopped : Walk.popped Sample.knotted seekFlagged 6 ⟨[0], none⟩ = [0, 4, 5] := by decide
  have hroot : ∀ info, ¬ BelowItself Sample.knottedRows 0 info := by
    rintro info ⟨k, hk, -⟩
    cases hk
  refine ⟨fun hend => ?_, by decide, ?_, hpopped, ?_, (hjudged _).mpr (by decide)⟩
  · exact (hfrom 1 (by decide)).1.mp hend ⟨_, ⟨0, rfl, rfl⟩, rfl, rfl⟩
  · obtain ⟨found, hend⟩ := (hfrom 3 (by decide)).1.mpr (by
      rintro ⟨info, ⟨k, hk, hrow⟩, hclean, -⟩
      obtain rfl : k = 2 := (Nat.succ.inj hk).symm
      cases hrow
      cases hclean)
    obtain rfl : found = some 3 := ((hfrom 3 (by decide)).2.1 found hend).trans (by decide)
    exact hend
  · rw [← hpopped]
    exact (hfrom 0 (by decide)).2.2.2 hroot 6

end Arena

end HunkScope
