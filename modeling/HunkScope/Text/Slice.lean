/-!
# Slices addressed by bytes

A text is addressed by offsets into its UTF-8 form. `slice first last cs` is the part of `cs` from
byte `first` up to byte `last`; there is none when the range is reversed, ends past the text, or
has an end inside a character. Premise: this is what `str::get` gives for a range.

Headlines:
* `dropBytes_eq_some_iff`, `takeBytes_eq_some_iff`: both cut exactly at character boundaries.
* `slice_eq_some_iff`: a slice `t` exists iff the text is `p ++ t ++ q` with `p` as long as the
  first offset and `p ++ t` as long as the last.
-/

namespace HunkScope.Text

/-- The length of the UTF-8 form in bytes. -/
def byteCount : List Char → Nat
  | [] => 0
  | c :: cs => c.utf8Size + byteCount cs

/-- The rest of a text after its first `n` bytes, when a character ends there. -/
def dropBytes : Nat → List Char → Option (List Char)
  | 0, cs => some cs
  | _ + 1, [] => none
  | n + 1, c :: cs =>
    if c.utf8Size ≤ n + 1 then dropBytes (n + 1 - c.utf8Size) cs else none

/-- The first `n` bytes of a text, when a character ends there. -/
def takeBytes : Nat → List Char → Option (List Char)
  | 0, _ => some []
  | _ + 1, [] => none
  | n + 1, c :: cs =>
    if c.utf8Size ≤ n + 1 then (takeBytes (n + 1 - c.utf8Size) cs).map (c :: ·) else none

/-- The part of a text from byte `first` up to byte `last`. -/
def slice (first last : Nat) (cs : List Char) : Option (List Char) :=
  if first ≤ last then (dropBytes first cs).bind (takeBytes (last - first)) else none

theorem byteCount_append : ∀ p q : List Char, byteCount (p ++ q) = byteCount p + byteCount q
  | [], q => by simp [byteCount]
  | c :: p, q => by simp only [List.cons_append, byteCount, byteCount_append p q]; omega

theorem byteCount_eq_zero {cs : List Char} (h : byteCount cs = 0) : cs = [] := by
  cases cs with
  | nil => rfl
  | cons c cs =>
    have := c.utf8Size_pos
    simp only [byteCount] at h
    omega

/-- **Dropping bytes removes a stretch of whole characters of that length.** -/
theorem dropBytes_eq_some_iff : ∀ {n : Nat} {cs r : List Char},
    dropBytes n cs = some r ↔ ∃ p, cs = p ++ r ∧ byteCount p = n
  | 0, cs, r => by
    simp only [dropBytes, Option.some.injEq]
    constructor
    · rintro rfl
      exact ⟨[], rfl, rfl⟩
    · rintro ⟨p, rfl, hp⟩
      rw [byteCount_eq_zero hp, List.nil_append]
  | n + 1, [], r => by
    simp only [dropBytes, reduceCtorEq, false_iff]
    rintro ⟨p, hp, hn⟩
    obtain ⟨rfl, -⟩ := List.append_eq_nil_iff.mp hp.symm
    simp [byteCount] at hn
  | n + 1, c :: cs, r => by
    have hc := c.utf8Size_pos
    rw [dropBytes]
    by_cases hle : c.utf8Size ≤ n + 1
    · rw [if_pos hle, dropBytes_eq_some_iff]
      constructor
      · rintro ⟨p, rfl, hp⟩
        exact ⟨c :: p, rfl, by simp only [byteCount]; omega⟩
      · rintro ⟨p, hp, hn⟩
        cases p with
        | nil => simp [byteCount] at hn
        | cons d p =>
          obtain ⟨rfl, rfl⟩ := List.cons.inj hp
          exact ⟨p, rfl, by simp only [byteCount] at hn; omega⟩
    · rw [if_neg hle]
      simp only [reduceCtorEq, false_iff]
      rintro ⟨p, hp, hn⟩
      cases p with
      | nil => simp [byteCount] at hn
      | cons d p =>
        obtain ⟨rfl, rfl⟩ := List.cons.inj hp
        simp only [byteCount] at hn
        omega

/-- **Taking bytes keeps a stretch of whole characters of that length.** -/
theorem takeBytes_eq_some_iff : ∀ {n : Nat} {cs t : List Char},
    takeBytes n cs = some t ↔ ∃ q, cs = t ++ q ∧ byteCount t = n
  | 0, cs, t => by
    simp only [takeBytes, Option.some.injEq]
    constructor
    · rintro rfl
      exact ⟨cs, rfl, rfl⟩
    · rintro ⟨q, -, ht⟩
      exact (byteCount_eq_zero ht).symm
  | n + 1, [], t => by
    simp only [takeBytes, reduceCtorEq, false_iff]
    rintro ⟨q, hq, hn⟩
    obtain ⟨rfl, -⟩ := List.append_eq_nil_iff.mp hq.symm
    simp [byteCount] at hn
  | n + 1, c :: cs, t => by
    have hc := c.utf8Size_pos
    rw [takeBytes]
    by_cases hle : c.utf8Size ≤ n + 1
    · rw [if_pos hle, Option.map_eq_some_iff]
      constructor
      · rintro ⟨u, hu, rfl⟩
        obtain ⟨q, rfl, hn⟩ := takeBytes_eq_some_iff.mp hu
        exact ⟨q, rfl, by simp only [byteCount]; omega⟩
      · rintro ⟨q, hq, hn⟩
        cases t with
        | nil => simp [byteCount] at hn
        | cons d t =>
          obtain ⟨rfl, rfl⟩ := List.cons.inj hq
          refine ⟨t, takeBytes_eq_some_iff.mpr ⟨q, rfl, ?_⟩, rfl⟩
          simp only [byteCount] at hn
          omega
    · rw [if_neg hle]
      simp only [reduceCtorEq, false_iff]
      rintro ⟨q, hq, hn⟩
      cases t with
      | nil => simp [byteCount] at hn
      | cons d t =>
        obtain ⟨rfl, rfl⟩ := List.cons.inj hq
        simp only [byteCount] at hn
        omega

/-- **A slice is what stands between its offsets.** -/
theorem slice_eq_some_iff {first last : Nat} {cs t : List Char} :
    slice first last cs = some t ↔
      ∃ p q, cs = p ++ t ++ q ∧ byteCount p = first ∧ byteCount (p ++ t) = last := by
  unfold slice
  by_cases h : first ≤ last
  · rw [if_pos h, Option.bind_eq_some_iff]
    constructor
    · rintro ⟨r, hr, ht⟩
      obtain ⟨p, rfl, hp⟩ := dropBytes_eq_some_iff.mp hr
      obtain ⟨q, rfl, hq⟩ := takeBytes_eq_some_iff.mp ht
      exact ⟨p, q, by rw [List.append_assoc], hp, by rw [byteCount_append]; omega⟩
    · rintro ⟨p, q, rfl, hp, hl⟩
      rw [byteCount_append] at hl
      exact ⟨t ++ q, dropBytes_eq_some_iff.mpr ⟨p, by rw [List.append_assoc], hp⟩,
        takeBytes_eq_some_iff.mpr ⟨q, rfl, by omega⟩⟩
  · rw [if_neg h]
    simp only [reduceCtorEq, false_iff]
    rintro ⟨p, q, -, hp, hl⟩
    rw [byteCount_append] at hl
    omega

end HunkScope.Text
