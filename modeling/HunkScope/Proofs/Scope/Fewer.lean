import HunkScope.Proofs.Scope.RunningBest
import Mathlib.Data.List.Infix

/-!
# The pick among fewer offers

Two searches often differ in that one is made only some of the offers that the other is made, in
the same order. When no local function is left out, the offers since the last of them are thinned
out like all the others. When some are, the offers reach back further, but none is lost
(`sinceLast_filter_suffix`). So what was picked and is not left out still contends.

Headlines:
* `extent_le_of_pick_filter`: among fewer offers the pick is no smaller.
* `pick_filter`: a pick that is kept stays the pick when all branches are kept.
* `exists_pick_filter`: a pick that is kept leaves a pick no larger, whatever is left out.
-/

namespace HunkScope

section SinceLast

variable {α : Type} {test keep : α → Bool}

theorem sinceLast_eq_self {xs : List α} (h : ¬ xs.any test = true) : sinceLast test xs = xs := by
  cases xs with
  | nil => rfl
  | cons x xs =>
    have hxs : ¬ xs.any test = true := mt (fun hany => by rw [List.any_cons, hany, Bool.or_true]) h
    rw [sinceLast, if_neg hxs]

/-- The part since the last one is thinned out like the whole when no such element is left out. -/
theorem sinceLast_filter {xs : List α} (h : ∀ x ∈ xs, test x = true → keep x = true) :
    sinceLast test (xs.filter keep) = (sinceLast test xs).filter keep := by
  induction xs with
  | nil => rfl
  | cons x xs ih =>
    have hxs : ∀ y ∈ xs, test y = true → keep y = true := fun y hy =>
      h y (List.mem_cons_of_mem x hy)
    have hany : (xs.filter keep).any test = true ↔ xs.any test = true := by
      simp only [List.any_eq_true, List.mem_filter]
      exact ⟨fun ⟨y, hy, hty⟩ => ⟨y, hy.1, hty⟩, fun ⟨y, hy, hty⟩ =>
        ⟨y, ⟨hy, hxs y hy hty⟩, hty⟩⟩
    by_cases hlast : xs.any test = true
    · rw [sinceLast, if_pos hlast, ← ih hxs, List.filter_cons]
      split
      · rw [sinceLast, if_pos (hany.mpr hlast)]
      · rfl
    · have hlast' := mt hany.mp hlast
      rw [sinceLast, if_neg hlast, List.filter_cons]
      split
      · rw [sinceLast, if_neg hlast']
      · exact sinceLast_eq_self hlast'

theorem sinceLast_suffix_cons (x : α) (xs : List α) :
    sinceLast test xs <:+ sinceLast test (x :: xs) := by
  rw [sinceLast]
  by_cases hlast : xs.any test = true
  · rw [if_pos hlast]
  · rw [if_neg hlast, sinceLast_eq_self hlast]
    exact List.suffix_cons x xs

/-- **What is kept of the part since the last one ends the part since the last one kept.** -/
theorem sinceLast_filter_suffix (test keep : α → Bool) (xs : List α) :
    (sinceLast test xs).filter keep <:+ sinceLast test (xs.filter keep) := by
  induction xs with
  | nil => exact List.suffix_refl _
  | cons x xs ih =>
    by_cases hlast : xs.any test = true
    · rw [sinceLast, if_pos hlast, List.filter_cons]
      split
      · exact ih.trans (sinceLast_suffix_cons x _)
      · exact ih
    · have hkept : ¬ (xs.filter keep).any test = true := by
        intro hany
        obtain ⟨y, hy, hty⟩ := List.any_eq_true.mp hany
        exact hlast (List.any_eq_true.mpr ⟨y, List.mem_of_mem_filter hy, hty⟩)
      rw [sinceLast, if_neg hlast, List.filter_cons]
      split
      · rw [sinceLast, if_neg hkept]
      · rw [sinceLast_eq_self hkept]

end SinceLast

variable {keep : Offer → Bool} {os : List Offer} {w r : Offer}

/-- When one of the smallest offers is kept, the smallest of those kept are the smallest kept. -/
theorem smallest_filter (hw : w ∈ smallest os) (hk : keep w = true) :
    smallest (os.filter keep) = (smallest os).filter keep := by
  obtain ⟨hmem, hmin⟩ := mem_smallest_iff.mp hw
  have hw' : w ∈ smallest (os.filter keep) :=
    mem_smallest_iff.mpr ⟨List.mem_filter.mpr ⟨hmem, hk⟩, fun p hp =>
      hmin p (List.mem_of_mem_filter hp)⟩
  rw [smallest_eq_filter hw', smallest_eq_filter hw, List.filter_comm]

/-- **Among fewer offers the pick is no smaller.** -/
theorem extent_le_of_pick_filter (hw : pick os = some w) (hr : pick (os.filter keep) = some r) :
    w.extent ≤ r.extent :=
  (mem_smallest_iff.mp (mem_smallest_of_pick hw)).2 r
    (List.mem_of_mem_filter (mem_smallest_iff.mp (mem_smallest_of_pick hr)).1)

/-- **A pick that is kept stays the pick** when all branches are kept. -/
theorem pick_filter (hw : pick os = some w) (hk : keep w = true)
    (hbranch : ∀ o ∈ os, o.isBranch = true → keep o = true) : pick (os.filter keep) = some w := by
  have hsmall := smallest_filter (mem_smallest_of_pick hw) hk
  have hbranches : ((smallest os).filter keep).filter (·.isBranch) =
      (smallest os).filter (·.isBranch) := by
    rw [List.filter_filter]
    refine List.filter_congr fun o ho => ?_
    by_cases hb : o.isBranch = true
    · rw [hb, hbranch o (mem_smallest_iff.mp ho).1 hb, Bool.and_self]
    · rw [Bool.not_eq_true] at hb
      rw [hb, Bool.false_and]
  rw [pick] at hw
  rw [pick, hsmall, hbranches]
  cases hlast : ((smallest os).filter (·.isBranch)).getLast? with
  | some b =>
    rw [hlast] at hw
    exact hw
  | none =>
    rw [hlast, Option.none_or] at hw
    obtain ⟨rest, hrest⟩ := List.head?_eq_some_iff.mp hw
    rw [Option.none_or, hrest, List.filter_cons_of_pos hk, List.head?_cons]

/-- **A pick that is kept leaves a pick no larger**, whatever is left out. -/
theorem exists_pick_filter {test : Offer → Bool} (hw : pick (sinceLast test os) = some w)
    (hk : keep w = true) : ∃ r, pick (sinceLast test (os.filter keep)) = some r ∧ r ∈ os ∧
      keep r = true ∧ r.extent ≤ w.extent := by
  have hmem : w ∈ (sinceLast test os).filter keep :=
    List.mem_filter.mpr ⟨(mem_smallest_iff.mp (mem_smallest_of_pick hw)).1, hk⟩
  have hleft := (sinceLast_filter_suffix test keep os).subset hmem
  cases hr : pick (sinceLast test (os.filter keep)) with
  | none =>
    rw [pick_eq_none_iff.mp hr] at hleft
    exact absurd hleft List.not_mem_nil
  | some r =>
    obtain ⟨hros, hrk⟩ := List.mem_filter.mp (mem_of_pick_sinceLast hr)
    exact ⟨r, rfl, hros, hrk, (mem_smallest_iff.mp (mem_smallest_of_pick hr)).2 w hleft⟩

end HunkScope
