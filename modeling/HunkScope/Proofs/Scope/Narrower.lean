import HunkScope.Proofs.Scope.Wider

/-!
# Narrower hunks

A narrower hunk is covered by all the nodes that cover a wider one, and by more. On a nested arena
none of the offers made to the wider hunk is lost, so a hunk within one that has a scope has a scope
as well. A local function among the new offers may win over all of them, wherever it stands. Where
the rivals stand one above the other it stands within the scope of the wider hunk, and so does
whoever else wins.

Headlines:
* `Chained.lines_within`: the smallest of rivals in a chain has lines within those of each of them.
* **`scopeOf?_narrower`**: a hunk within one that has a scope has a scope, and where rivals stand in
  a chain it lies within that of the other.
-/

namespace HunkScope

/-- Two scopes one within the other have the same lines when the outer one is no larger. -/
theorem Scope.lines_within_of_extent_le {s t : Scope} (hs : s.firstLine ≤ s.lastLine)
    (hst : s.lines.Within t.lines) (hle : t.extent ≤ s.extent) : t.lines.Within s.lines := by
  obtain ⟨hfirst, hlast⟩ := hst
  simp only [lines, extent, UInt32.le_iff_toNat_le] at hs hfirst hlast hle
  simp only [Hunk.Within, lines, UInt32.le_iff_toNat_le]
  omega

namespace Arena

variable {a : Arena} {rule : LoopRule} {h k : Hunk}

/-- The lines of a rival for a hunk in order run forwards. -/
theorem Rival.firstLine_le_lastLine {o : Offer} (ho : a.Rival rule h o)
    (hh : h.first ≤ h.last) : o.scope.firstLine ≤ o.scope.lastLine := by
  obtain ⟨hfirst, hlast⟩ := Offer.covers_iff.mp (offer?_eq_some_iff_covers.mp ho.2).2
  exact UInt32.le_trans hfirst (UInt32.le_trans hh hlast)

/-- **The smallest of rivals in a chain lies within each of them**: it stands below, or it stands
above and is no larger than what lies within it. -/
theorem Chained.lines_within (hc : a.Chained rule h) (ha : a.Linked) (hn : a.LineNested)
    (hh : h.first ≤ h.last) {w r : Offer} (hw : a.Rival rule h w) (hr : a.Rival rule h r)
    (hle : w.extent ≤ r.extent) : w.scope.lines.Within r.scope.lines := by
  rcases hc r w hr hw with hrw | hwr
  · exact hr.within hw ha hn hrw
  · exact Scope.lines_within_of_extent_le (hr.firstLine_le_lastLine hh)
      (hw.within hr ha hn hwr) hle

/-- **A hunk within one that has a scope has a scope**, on a nested arena. Where the rivals stand
one above the other its scope lies within that of the wider hunk. -/
theorem scopeOf?_narrower (ha : a.Built) (hn : a.LineNested) (hk : h.Within k)
    (hh : h.first ≤ h.last) {t : Scope} (ht : a.scopeOf? rule k = some t) :
    ∃ s, a.scopeOf? rule h = some s ∧
      (a.Chained rule h → t.firstLine ≤ s.firstLine ∧ s.lastLine ≤ t.lastLine) := by
  have hforward : k.first ≤ k.last := UInt32.le_trans hk.1 (UInt32.le_trans hh hk.2)
  rw [scopeOf?_eq_pick_allOffers ha.linked hn hforward] at ht
  obtain ⟨r, hr, rfl⟩ := Option.map_eq_some_iff.mp ht
  have hrk : a.Rival rule k r := (mem_allOffers_iff ha.linked).mp (mem_of_pick_sinceLast hr)
  have hrh : a.Rival rule h r := ((rival_wider_iff hk).mp hrk).1
  rw [scopeOf?_eq_pick_allOffers ha.linked hn hh]
  cases hw : pick (sinceLast (Offer.isLocal a) (a.allOffers rule h)) with
  | none =>
    -- The winner of the wider hunk is still offered.
    have hnil := sinceLast_eq_nil_iff.mp (pick_eq_none_iff.mp hw)
    have hmem := (mem_allOffers_iff ha.linked).mpr hrh
    rw [hnil] at hmem
    exact absurd hmem List.not_mem_nil
  | some w =>
    refine ⟨w.scope, rfl, fun hc => ?_⟩
    obtain ⟨hwh, hmin, -⟩ := hc.pick_spec ha.linked hn hw
    exact hc.lines_within ha.linked hn hh hwh hrh (hmin r hrh)

/-- Lines 11 to 13 of the sample lie in the function `outer` alone, and line 12 among them in a
branch of a class in that function. -/
theorem scopeOf?_narrower_sample :
    ∃ s, Sample.arena.scopeOf? .rowOfIn ⟨12, 12⟩ = some s ∧ s.construct = .branch ∧
      1 ≤ s.firstLine ∧ s.lastLine ≤ 21 := by
  have ht : Sample.arena.scopeOf? .rowOfIn ⟨11, 13⟩ = some ⟨.function, "outer", 1, 21⟩ := by
    decide
  have hbranch : Sample.arena.scopeOf? .rowOfIn ⟨12, 12⟩ = some ⟨.branch, "if x>1", 12, 12⟩ := by
    decide
  obtain ⟨s, hs, hwithin⟩ := scopeOf?_narrower (a := Sample.arena) (Sample.built_grown _ _ _)
    lineNested_sample (show Hunk.Within ⟨12, 12⟩ ⟨11, 13⟩ from ⟨by decide, by decide⟩)
    (show (12 : UInt32) ≤ 12 by decide) ht
  obtain rfl := Option.some.inj (hs.symm.trans hbranch)
  exact ⟨_, hs, rfl, hwithin chained_sample⟩

end Arena

end HunkScope
