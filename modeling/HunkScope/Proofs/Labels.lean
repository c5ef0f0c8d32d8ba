import HunkScope.Proofs.Agreement
import Mathlib.Data.List.Forall2

/-!
# Which labels are known

A label is looked up without the blanks around it and in lower case (`Language.ofLabelBy`). Lower
case is full Unicode lower case: a character may become several, and what it becomes may depend on
its neighbours. The labels that are known are listed in one place and have their grammars in
another.

None of this shows. The known labels are written with a few letters of ASCII, and no character
beyond ASCII becomes one of these in lower case; the Kelvin sign becomes another letter, and a
dotted capital `İ` becomes two characters. So a label is known exactly if, between blanks, it is
listed up to the case of its ASCII letters, and lowering ASCII letters is enough to look it up.

Premise: lower case is what `Language.IsLowering` says; no character beyond ASCII has a letter of a
listed label alone for its lower case.

* `Language.IsLowering`: what is asked of lower case.
* `Language.Spells`: a text is a listed label between blanks, up to case.
* `Language.Resolves`: the labels that are resolved, what they resolve to, and how the others are
  refused.

Headlines:
* `Language.lower_eq_iff`: a text is a listed label in full lower case exactly if it is one in ASCII
  lower case.
* `Language.known_iff`: which labels are known.
* **`Language.ofLabel_resolves`**: a label is resolved as a lookup among the grammars would do it,
  alone and in a configuration.
-/

namespace HunkScope

namespace Language

open Text

variable {label s : String} {cs before middle after : List Char} {c : Char}
variable {lower : List Char → List Char}

/-! ## The letters of the listed labels -/

/-- The letters that the listed labels are written with. -/
def letters : List Char := ['p', 'y', 't', 'h', 'o', 'n', 'i']

theorem mem_letters (hlabel : label ∈ labels) (hc : c ∈ label.toList) : c ∈ letters := by
  have hall : ∀ label ∈ labels, label.toList.all letters.contains = true := by decide
  exact List.contains_iff_mem.mp (List.all_eq_true.mp (hall label hlabel) c hc)

/-- These letters are small letters of ASCII, and not blank. -/
theorem of_mem_letters (hc : c ∈ letters) :
    c.toNat < 128 ∧ c.toLower = c ∧ isBlank c = false := by
  have hall : letters.all (fun c => decide (c.toNat < 128 ∧ c.toLower = c ∧ isBlank c = false)) =
      true := by decide
  exact of_decide_eq_true (List.all_eq_true.mp hall c hc)

/-- A listed label is in lower case. -/
theorem map_toLower_of_mem_labels (hlabel : label ∈ labels) :
    label.toList.map Char.toLower = label.toList :=
  calc label.toList.map Char.toLower
      = label.toList.map id :=
        List.map_congr_left fun _ hc => (of_mem_letters (mem_letters hlabel hc)).2.1
    _ = label.toList := List.map_id _

/-- Only the capital letters of ASCII are lowered. -/
theorem toLower_eq_or_capital (c : Char) :
    c.toLower = c ∨ 65 ≤ c.toNat ∧ c.toNat ≤ 90 := by
  by_cases h : c.val ≥ 'A'.val ∧ c.val ≤ 'Z'.val
  · exact .inr ⟨UInt32.le_iff_toNat_le.mp h.1, UInt32.le_iff_toNat_le.mp h.2⟩
  · exact .inl (dif_neg h)

/-- Capital letters are not blank. -/
theorem isBlank_of_capital (hlo : 65 ≤ c.toNat) (hhi : c.toNat ≤ 90) : isBlank c = false := by
  rw [isBlank, Bool.eq_false_iff, ne_eq, Ranges.holds_iff]
  rintro ⟨r, hr, h⟩
  have hsides : ∀ r ∈ blankRanges, r.2 < 65 ∨ 90 < r.1 := by decide
  have hside := hsides r hr
  omega

/-- What becomes a letter of a listed label is ASCII and not blank. -/
theorem of_toLower_mem_letters (hc : c.toLower ∈ letters) :
    c.toNat < 128 ∧ isBlank c = false := by
  obtain heq | ⟨hlo, hhi⟩ := toLower_eq_or_capital c
  · rw [heq] at hc
    exact ⟨(of_mem_letters hc).1, (of_mem_letters hc).2.2⟩
  · exact ⟨by omega, isBlank_of_capital hlo hhi⟩

/-- A text that is a listed label up to case is written with such characters. -/
theorem of_map_toLower_eq (hlabel : label ∈ labels) (h : cs.map Char.toLower = label.toList) :
    ∀ c ∈ cs, c.toNat < 128 ∧ isBlank c = false := by
  intro c hc
  have hlower : c.toLower ∈ label.toList := h ▸ List.mem_map_of_mem hc
  exact of_toLower_mem_letters (mem_letters hlabel hlower)

/-! ## Lower case -/

/-- What lower case may make of one character. -/
structure LowersTo (c : Char) (piece : List Char) : Prop where
  /-- A character of ASCII becomes one character. -/
  ascii : c.toNat < 128 → piece = [c.toLower]
  /-- A character beyond ASCII does not become a letter of a listed label. -/
  single : 128 ≤ c.toNat → ∀ d, piece = [d] → d ∉ letters
  /-- Where it does not become one character, it becomes some that are not all of ASCII. -/
  several : 128 ≤ c.toNat → piece.length ≠ 1 → ∃ d ∈ piece, 128 ≤ d.toNat

/-- A text is put in lower case character by character. What a character becomes may depend on the
text around it. -/
def IsLowering (lower : List Char → List Char) : Prop :=
  ∀ cs, ∃ pieces, List.Forall₂ LowersTo cs pieces ∧ lower cs = pieces.flatten

/-- A character beyond ASCII does not become letters of listed labels alone. -/
theorem LowersTo.exists_not_mem_letters {piece : List Char} (hc : LowersTo c piece)
    (hbeyond : 128 ≤ c.toNat) : ∃ d ∈ piece, d ∉ letters := by
  by_cases hone : piece.length = 1
  · obtain ⟨d, rfl⟩ := List.length_eq_one_iff.mp hone
    exact ⟨d, List.mem_singleton_self d, hc.single hbeyond d rfl⟩
  · obtain ⟨d, hd, hdbeyond⟩ := hc.several hbeyond hone
    refine ⟨d, hd, fun hletter => ?_⟩
    have hascii := (of_mem_letters hletter).1
    omega

theorem flatten_eq_map {pieces : List (List Char)} (h : List.Forall₂ LowersTo cs pieces)
    (hascii : ∀ c ∈ cs, c.toNat < 128) : pieces.flatten = cs.map Char.toLower := by
  induction h with
  | nil => rfl
  | cons hc _ ih =>
    obtain ⟨hhead, htail⟩ := List.forall_mem_cons.mp hascii
    rw [List.flatten_cons, hc.ascii hhead, ih htail, List.map_cons, List.singleton_append]

theorem ascii_of_flatten {pieces : List (List Char)} (h : List.Forall₂ LowersTo cs pieces)
    (hletters : ∀ d ∈ pieces.flatten, d ∈ letters) : ∀ c ∈ cs, c.toNat < 128 := by
  induction h with
  | nil =>
    intro c hc
    cases hc
  | cons hc _ ih =>
    rw [List.flatten_cons, List.forall_mem_append] at hletters
    refine List.forall_mem_cons.mpr ⟨Nat.lt_of_not_le fun hle => ?_, ih hletters.2⟩
    obtain ⟨d, hd, hnot⟩ := hc.exists_not_mem_letters hle
    exact hnot (hletters.1 d hd)

/-- In ASCII there is only one lower case. -/
theorem IsLowering.eq_map (hlower : IsLowering lower) (hascii : ∀ c ∈ cs, c.toNat < 128) :
    lower cs = cs.map Char.toLower := by
  obtain ⟨pieces, h, heq⟩ := hlower cs
  rw [heq, flatten_eq_map h hascii]

/-- **A text is a listed label in full lower case exactly if it is one in ASCII lower case.** -/
theorem lower_eq_iff (hlower : IsLowering lower) (hlabel : label ∈ labels) :
    lower cs = label.toList ↔ cs.map Char.toLower = label.toList := by
  constructor
  · intro h
    obtain ⟨pieces, hpieces, heq⟩ := hlower cs
    have hletters : ∀ d ∈ pieces.flatten, d ∈ letters := fun d hd =>
      mem_letters hlabel (by rwa [← h, heq])
    rw [← hlower.eq_map (ascii_of_flatten hpieces hletters), h]
  · intro h
    rw [hlower.eq_map fun c hc => (of_map_toLower_eq hlabel h c hc).1, h]

/-! ## Looking a label up -/

theorem ofList_mem_labels_iff :
    String.ofList cs ∈ labels ↔ ∃ label ∈ labels, cs = label.toList := by
  constructor
  · intro h
    exact ⟨_, h, String.toList_ofList.symm⟩
  · rintro ⟨label, hlabel, rfl⟩
    rwa [String.ofList_toList]

/-- A label that is listed in one lower case is the same in ASCII lower case. -/
theorem normalizeBy_eq_iff (hlower : IsLowering lower) (hlabel : label ∈ labels) :
    normalizeBy lower s = label ↔ normalize s = label := by
  have hofList : ∀ cs : List Char, String.ofList cs = label ↔ cs = label.toList := fun cs =>
    ⟨fun h => h ▸ String.toList_ofList.symm, fun h => h ▸ String.ofList_toList⟩
  rw [normalize, normalizeBy, normalizeBy, hofList, hofList, lower_eq_iff hlower hlabel]

/-- **Every lower case finds the same language.** -/
theorem ofLabel_eq_ofLabelBy (hlower : IsLowering lower) (s : String) :
    ofLabel s = ofLabelBy lower s := by
  by_cases h : normalize s ∈ labels
  · have heq := (normalizeBy_eq_iff hlower h).mpr rfl
    have hmem : normalizeBy lower s ∈ labels := heq ▸ h
    rw [ofLabel, ofLabelBy_of_mem h, ofLabelBy_of_mem hmem, heq]
    rfl
  · have hby : normalizeBy lower s ∉ labels := fun hmem =>
      h ((normalizeBy_eq_iff hlower hmem).mp rfl ▸ hmem)
    rw [ofLabel, ofLabelBy_of_not_mem h, ofLabelBy_of_not_mem hby]

/-! ## Which labels are known -/

/-- A text is `middle` between blanks, and that is a listed label up to the case of its letters. -/
structure Spells (s : String) (before middle after : List Char) : Prop where
  text : s.toList = before ++ middle ++ after
  blank_before : before.all isBlank = true
  blank_after : after.all isBlank = true
  listed : ∃ label ∈ labels, middle.map Char.toLower = label.toList.map Char.toLower

namespace Spells

theorem map_toLower (h : Spells s before middle after) :
    ∃ label ∈ labels, middle.map Char.toLower = label.toList := by
  obtain ⟨label, hlabel, heq⟩ := h.listed
  exact ⟨label, hlabel, heq.trans (map_toLower_of_mem_labels hlabel)⟩

theorem normalize_eq (h : Spells s before middle after) :
    normalize s = String.ofList (middle.map Char.toLower) := by
  obtain ⟨label, hlabel, heq⟩ := h.map_toLower
  have hbare : Bare middle := bare_of_forall fun c hc => (of_map_toLower_eq hlabel heq c hc).2
  rw [normalize, normalizeBy, h.text, trim_append h.blank_before h.blank_after hbare]

theorem lower_eq (h : Spells s before middle after) (hlower : IsLowering lower) :
    lower middle = middle.map Char.toLower := by
  obtain ⟨label, hlabel, heq⟩ := h.map_toLower
  rw [heq, lower_eq_iff hlower hlabel, heq]

end Spells

/-- **A label is known exactly if it is listed, up to blanks around it and the case of its
letters.** -/
theorem known_iff : Known s ↔ ∃ before middle after, Spells s before middle after := by
  constructor
  · rintro ⟨l, hl⟩
    obtain ⟨before, after, htext, hb, ha⟩ := trim_eq_append s.toList
    obtain ⟨label, hlabel, heq⟩ := ofList_mem_labels_iff.mp (ofLabel_eq_ok_iff.mp hl).1
    exact ⟨before, _, after, htext, hb, ha, label, hlabel,
      heq.trans (map_toLower_of_mem_labels hlabel).symm⟩
  · rintro ⟨before, middle, after, h⟩
    have hmem : normalize s ∈ labels := by
      rw [h.normalize_eq]
      exact ofList_mem_labels_iff.mpr h.map_toLower
    exact ⟨_, ofLabel_eq_ok_iff.mpr ⟨hmem, rfl⟩⟩

/-! ## Resolving again -/

/-- A listed label is its own language. -/
theorem ofLabel_of_mem_labels (hlabel : label ∈ labels) :
    ofLabel label = .ok ⟨label, .python⟩ := by
  have hnormal : ∀ label ∈ labels, normalize label = label := by decide
  have heq := hnormal label hlabel
  exact ofLabel_eq_ok_iff.mpr ⟨heq.symm ▸ hlabel, by rw [heq]⟩

theorem toList_trimmed (s : String) : (trimmed s).toList = trim s.toList := String.toList_ofList

theorem normalize_trimmed (s : String) : normalize (trimmed s) = normalize s := by
  rw [normalize, normalizeBy, toList_trimmed, (bare_trim _).trim_eq, normalizeBy]

theorem trimmed_trimmed (s : String) : trimmed (trimmed s) = trimmed s := by
  rw [trimmed, toList_trimmed, (bare_trim _).trim_eq, trimmed]

/-- **Blanks around a label make no difference**, not even to its refusal. -/
theorem ofLabel_trimmed (s : String) : ofLabel (trimmed s) = ofLabel s := by
  have hnormal := normalize_trimmed s
  rw [normalize] at hnormal
  rw [ofLabel, ofLabelBy, hnormal, trimmed_trimmed, ofLabelBy]

/-- The text `t` is `s` without the blanks at its ends. -/
structure Trims (s t : String) : Prop where
  text : ∃ before after, s.toList = before ++ t.toList ++ after ∧ before.all isBlank = true ∧
    after.all isBlank = true
  bare : Bare t.toList

theorem trims_trimmed (s : String) : Trims s (trimmed s) := by
  refine ⟨?_, toList_trimmed s ▸ bare_trim s.toList⟩
  rw [toList_trimmed]
  exact trim_eq_append s.toList

/-- How labels are resolved, to labels, by a lower case. -/
structure Resolves (lower : List Char → List Char) (resolve : String → Except ParseFailure String) :
    Prop where
  /-- A label is resolved exactly if it is listed, up to blanks around it and case. -/
  resolved_iff : ∀ s, (∃ label, resolve s = .ok label) ↔
    ∃ before middle after, Spells s before middle after
  /-- It resolves to a listed label, itself in lower case, and that resolves to itself. -/
  resolved : ∀ {s before middle after}, Spells s before middle after →
    resolve s = .ok (String.ofList (lower middle)) ∧ String.ofList (lower middle) ∈ labels ∧
      resolve (String.ofList (lower middle)) = .ok (String.ofList (lower middle))
  /-- Other labels are refused in their own case, without the blanks, again and again. -/
  refused : ∀ {s}, (¬ ∃ before middle after, Spells s before middle after) →
    ∃ t, Trims s t ∧ resolve s = .error (.unsupportedLanguage t) ∧
      resolve t = .error (.unsupportedLanguage t)

/-- Languages are found for labels in this way. -/
theorem resolves_ofLabel (hlower : IsLowering lower) :
    Resolves lower fun s => (ofLabel s).map Language.label where
  resolved_iff s := by
    rw [← known_iff]
    constructor
    · rintro ⟨_, h⟩
      obtain ⟨l, hl, -⟩ := Decode.map_eq_ok_iff.mp h
      exact ⟨l, hl⟩
    · rintro ⟨l, hl⟩
      exact ⟨l.label, Decode.map_eq_ok_iff.mpr ⟨l, hl, rfl⟩⟩
  resolved {s} _ middle _ h := by
    rw [h.lower_eq hlower]
    have hmem := ofList_mem_labels_iff.mpr h.map_toLower
    have hok : ofLabel s = .ok ⟨String.ofList (middle.map Char.toLower), .python⟩ :=
      ofLabel_eq_ok_iff.mpr ⟨h.normalize_eq ▸ hmem, by rw [h.normalize_eq]⟩
    exact ⟨by rw [hok]; rfl, hmem, by rw [ofLabel_of_mem_labels hmem]; rfl⟩
  refused {s} h := by
    have herr := ofLabel_of_not_known (mt known_iff.mp h)
    exact ⟨trimmed s, trims_trimmed s, by rw [herr]; rfl, by rw [ofLabel_trimmed, herr]; rfl⟩

end Language

/-- A configuration is set up for the language of its label, whatever its rule. -/
theorem Inspector.map_label_ofConfig (s : String) (rule : LoopRule) :
    (ofConfig ⟨s, rule⟩).map (fun i => i.language.label) =
      (Language.ofLabel s).map Language.label := by
  unfold ofConfig
  cases Language.ofLabel s with
  | ok l => rfl
  | error e => rfl

namespace Language

/-- **Labels are resolved as a lookup among the grammars would do it**, whatever lower case it uses:
exactly the listed ones, up to blanks around them and the case of their letters. So are they in a
configuration, whatever its rule. -/
theorem ofLabel_resolves {lower : List Char → List Char} (hlower : IsLowering lower) :
    (∀ s, ofLabel s = ofLabelBy lower s) ∧
      (Resolves lower fun s => (ofLabel s).map Language.label) ∧
      ∀ rule, Resolves lower fun s =>
        (Inspector.ofConfig ⟨s, rule⟩).map fun i => i.language.label := by
  refine ⟨ofLabel_eq_ofLabelBy hlower, resolves_ofLabel hlower, fun rule => ?_⟩
  simp only [Inspector.map_label_ofConfig]
  exact resolves_ofLabel hlower

/-- Lower case of ASCII, of `İ`, which becomes an `i` and a dot above it, and of the Kelvin sign,
which becomes a letter of ASCII. -/
def lowerSample (c : Char) : List Char :=
  if c = '\u0130' then ['i', '\u0307'] else if c = '\u212a' then ['k'] else [c.toLower]

theorem lowersTo_lowerSample (c : Char) : LowersTo c (lowerSample c) := by
  unfold lowerSample
  split
  · rename_i h
    subst h
    refine ⟨by decide, fun _ d hd => ?_, fun _ _ => ⟨'\u0307', by decide, by decide⟩⟩
    cases hd
  · split
    · rename_i h
      subst h
      refine ⟨by decide, fun _ d hd => ?_, fun _ hone => absurd rfl hone⟩
      obtain rfl : 'k' = d := List.head_eq_of_cons_eq hd
      decide
    · refine ⟨fun _ => rfl, fun hbeyond d hd hletter => ?_, fun _ hone => absurd rfl hone⟩
      obtain rfl : c.toLower = d := List.head_eq_of_cons_eq hd
      have hascii := (of_toLower_mem_letters hletter).1
      omega

theorem isLowering_lowerSample : IsLowering fun cs => cs.flatMap lowerSample := fun cs => by
  refine ⟨cs.map lowerSample, ?_, List.flatMap_def⟩
  rw [List.forall₂_map_right_iff, List.forall₂_same]
  exact fun c _ => lowersTo_lowerSample c

/-- A no-break space and an em space are blank, and `PyI` is listed up to case. A space of no width
is not blank, and `İ` is not an `I`. -/
theorem ofLabel_resolves_sample :
    (IsLowering fun cs => cs.flatMap lowerSample) ∧
      Spells "\u00a0PyI\u2003" ['\u00a0'] ['P', 'y', 'I'] ['\u2003'] ∧
      (Inspector.ofConfig ⟨"\u00a0PyI\u2003", .byField⟩).map (fun i => i.language.label) =
        .ok "pyi" ∧
      ofLabelBy (fun cs => cs.flatMap lowerSample) " Py\u0130\u200b" =
        .error (.unsupportedLanguage "Py\u0130\u200b") := by
  have h := ofLabel_resolves isLowering_lowerSample
  have hspells : Spells "\u00a0PyI\u2003" ['\u00a0'] ['P', 'y', 'I'] ['\u2003'] :=
    ⟨by decide, by decide, by decide, "pyi", by decide, by decide⟩
  have hlabel : String.ofList (['P', 'y', 'I'].flatMap lowerSample) = "pyi" := by decide
  refine ⟨isLowering_lowerSample, hspells, ?_, ?_⟩
  · rw [((h.2.2 .byField).resolved hspells).1, hlabel]
  · rw [← h.1, ofLabel, ofLabelBy_of_not_mem (by decide)]
    decide

end Language

end HunkScope
