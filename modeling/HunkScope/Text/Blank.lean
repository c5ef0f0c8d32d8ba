import HunkScope.Text.Ranges

/-!
# Blank characters

The characters with the Unicode property `White_Space`, and texts without them at the ends.
Premise: these are the characters that `str::trim` takes off a text.

* `Bare`: a text without blanks at its ends.

Headlines:
* `trim_eq_append`, `bare_trim`: trimming removes blanks from both ends, all of them, and nothing
  else.
* `trim_append`: it gives back whatever was put between blanks.
-/

namespace HunkScope.Text

/-- The ranges of code points with the property `White_Space`, in order. -/
def blankRanges : Ranges :=
  [(0x9, 0xD), (0x20, 0x20), (0x85, 0x85), (0xA0, 0xA0), (0x1680, 0x1680), (0x2000, 0x200A),
   (0x2028, 0x2029), (0x202F, 0x202F), (0x205F, 0x205F), (0x3000, 0x3000)]

/-- The character has the property `White_Space`. -/
def isBlank (c : Char) : Bool := blankRanges.holds c

/-- A text without the blanks at its end. -/
def trimEnd (cs : List Char) : List Char := (cs.reverse.dropWhile isBlank).reverse

/-- A text without the blanks at its ends. -/
def trim (cs : List Char) : List Char := trimEnd (cs.dropWhile isBlank)

/-- A string without the blanks at its ends. -/
def trimmed (s : String) : String := String.ofList (trim s.toList)

/-- Core's blanks are blank. -/
theorem isBlank_of_isWhitespace {c : Char} (h : c.isWhitespace = true) : isBlank c = true := by
  simp only [Char.isWhitespace, Bool.or_eq_true, decide_eq_true_eq] at h
  rcases h with ((rfl | rfl) | rfl) | rfl <;> decide

theorem trimEnd_append (cs : List Char) :
    ∃ after, cs = trimEnd cs ++ after ∧ after.all isBlank = true := by
  refine ⟨(cs.reverse.takeWhile isBlank).reverse, ?_, ?_⟩
  · rw [trimEnd, ← List.reverse_append, List.takeWhile_append_dropWhile, List.reverse_reverse]
  · rw [List.all_reverse]
    exact List.all_takeWhile

/-- **Trimming removes blanks from both ends and nothing else.** -/
theorem trim_eq_append (cs : List Char) :
    ∃ before after, cs = before ++ trim cs ++ after ∧ before.all isBlank = true ∧
      after.all isBlank = true := by
  obtain ⟨after, h, ha⟩ := trimEnd_append (cs.dropWhile isBlank)
  refine ⟨cs.takeWhile isBlank, after, ?_, List.all_takeWhile, ha⟩
  rw [List.append_assoc, trim, ← h, List.takeWhile_append_dropWhile]

/-! ## Texts without blanks at their ends -/

/-- A text that neither starts nor stops with a blank. -/
structure Bare (cs : List Char) : Prop where
  first : ∀ c ∈ cs.head?, isBlank c = false
  last : ∀ c ∈ cs.getLast?, isBlank c = false

theorem bare_of_forall {cs : List Char} (h : ∀ c ∈ cs, isBlank c = false) : Bare cs :=
  ⟨fun c hc => h c (List.mem_of_head? hc), fun c hc => h c (List.mem_of_getLast? hc)⟩

/-- What is left when blanks are dropped from the front does not start with one. -/
theorem not_isBlank_of_head?_dropWhile {cs : List Char} {c : Char}
    (hc : (cs.dropWhile isBlank).head? = some c) : isBlank c = false := by
  have h := List.head?_dropWhile_not isBlank cs
  rwa [hc] at h

/-- **Nothing is left to trim.** -/
theorem bare_trim (cs : List Char) : Bare (trim cs) where
  first c hc := by
    -- the first character survives the trimming of the end, so it is the one found at the front
    obtain ⟨after, h, -⟩ := trimEnd_append (cs.dropWhile isBlank)
    have hhead : (cs.dropWhile isBlank).head? = some c := by
      rw [h, List.head?_append, ← trim, Option.mem_def.mp hc, Option.some_or]
    exact not_isBlank_of_head?_dropWhile hhead
  last c hc := by
    rw [trim, trimEnd, List.getLast?_reverse] at hc
    exact not_isBlank_of_head?_dropWhile hc

theorem dropWhile_isBlank_of_first {cs : List Char} (h : ∀ c ∈ cs.head?, isBlank c = false) :
    cs.dropWhile isBlank = cs := by
  cases cs with
  | nil => rfl
  | cons c cs => exact List.dropWhile_cons_of_neg (by simp [h c rfl])

theorem Bare.trimEnd_eq {cs : List Char} (h : Bare cs) : trimEnd cs = cs := by
  have hlast : ∀ c ∈ cs.reverse.head?, isBlank c = false := by
    simpa only [List.head?_reverse] using h.last
  rw [trimEnd, dropWhile_isBlank_of_first hlast, List.reverse_reverse]

/-- A text that is bare is not changed by trimming. -/
theorem Bare.trim_eq {cs : List Char} (h : Bare cs) : trim cs = cs := by
  rw [trim, dropWhile_isBlank_of_first h.first, h.trimEnd_eq]

theorem trim_blank_append {before : List Char} (h : before.all isBlank = true) (cs : List Char) :
    trim (before ++ cs) = trim cs := by
  rw [trim, List.dropWhile_append_of_pos (List.all_eq_true.mp h), trim]

theorem trimEnd_append_blank {after : List Char} (h : after.all isBlank = true) (cs : List Char) :
    trimEnd (cs ++ after) = trimEnd cs := by
  have hpos : ∀ c ∈ after.reverse, isBlank c = true := fun c hc =>
    List.all_eq_true.mp h c (List.mem_reverse.mp hc)
  rw [trimEnd, List.reverse_append, List.dropWhile_append_of_pos hpos, trimEnd]

/-- **Trimming gives back what was put between blanks.** -/
theorem trim_append {before cs after : List Char} (hb : before.all isBlank = true)
    (ha : after.all isBlank = true) (hcs : Bare cs) : trim (before ++ cs ++ after) = cs := by
  rw [List.append_assoc, trim_blank_append hb]
  cases cs with
  | nil => rw [List.nil_append, ← List.append_nil after, trim_blank_append ha]; rfl
  | cons c cs =>
    have hfirst : ∀ d ∈ (c :: cs ++ after).head?, isBlank d = false := fun d hd =>
      hcs.first d hd
    rw [trim, dropWhile_isBlank_of_first hfirst, trimEnd_append_blank ha, hcs.trimEnd_eq]

end HunkScope.Text
