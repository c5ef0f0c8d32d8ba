import HunkScope.Proofs.Agreement

/-!
# Options inside a configuration

A configuration holds options next to a language, in one record: the key of the loop rule is the
same in both, and options do not look at the language. So a record that is given once as options and
once as a configuration chooses the same rule, and a record refused as the one is refused as the
other, with the same error. One form of a loop rule is an exception. A configuration takes the name
of a rule as the key of an empty record; options insist on null there.

* `LoopRule.emptied`: the form that only a configuration takes.
* `Config.languageIn`: the language a record asks for.
* `ConfiguredAlike`: all that is said here of one record.

Headlines:
* `LoopRule.decodeLoosely_eq`: a loop rule is read alike, but for the one form.
* `Config.decode_eq_map`, `Options.decode_eq_map`: both read the one key, and nothing else of the
  record can fail.
* `Config.decode_of_options`: what options take, a configuration takes.
* **`configuredAlike`**: a record with a language or without one is read alike, and sets up an
  inspector and a handle with the same rule.
-/

namespace HunkScope

open Decode

/-- The name of a loop rule as the key of an empty record. -/
def LoopRule.emptied (r : LoopRule) : Value := .record [(r.name, .record [])]

/-- The language that a record asks for: the standard one, unless it names another. -/
def Config.languageIn (fields : List (String × Value)) : String :=
  match Value.lookup? fields "language" with
  | some (.text s) => s
  | _ => Config.standard.language

/-- How a record is read as options and as a configuration. -/
structure ConfiguredAlike (fields : List (String × Value)) : Prop where
  /-- Both decode, and with the same rule, or none does. -/
  chosen : (∀ r : LoopRule, Value.lookup? fields "forIterable" ≠ some r.emptied) → ∀ r,
    (∃ c, Config.decode (.record fields) = .ok c ∧ c.rule = r) ↔
      ∃ o, Options.decode (.record fields) = .ok o ∧ o.rule = r
  /-- Both fail with the same error, which has the same text, or none does. -/
  refused : (∀ r : LoopRule, Value.lookup? fields "forIterable" ≠ some r.emptied) → ∀ e,
    Config.decode (.record fields) = .error e ↔ Options.decode (.record fields) = .error e
  /-- A name with an empty record is taken by the configuration and refused by the options. -/
  emptied : ∀ r : LoopRule, Value.lookup? fields "forIterable" = some r.emptied →
    (∃ c, Config.decode (.record fields) = .ok c ∧ c.rule = r) ∧
      Options.decode (.record fields) = .error (.wrongType .record .unit)
  /-- Options that decode are a configuration with their rule, and the inspector for that is the one
  for its language with the same rule. Without a language that is the standard one. -/
  inspected : ∀ o, Options.decode (.record fields) = .ok o →
    ∃ c, Config.decode (.record fields) = .ok c ∧ c.rule = o.rule ∧
      Inspector.ofConfig c = (Language.ofLabel c.language).map (fun l => ⟨l, o.rule⟩) ∧
      (Value.lookup? fields "language" = none → Language.ofLabel c.language = .ok .standard)
  /-- Options that decode set up a handle with their rule. -/
  held : ∀ o, Options.decode (.record fields) = .ok o →
    ∃ p, Handle.ofOptions (some (.record fields)) = .ok p ∧ p.inspector.rule = o.rule

/-! ## Reading a loop rule -/

theorem Decode.unitOrEmpty_of_ne {v : Value} (hv : v ≠ .record []) : unitOrEmpty v = unit v := by
  unfold unitOrEmpty
  split
  · exact absurd rfl hv
  · rfl

/-- **A loop rule is read alike**, unless its name is the key of an empty record. -/
theorem LoopRule.decodeLoosely_eq {v : Value} (hv : ∀ r : LoopRule, v ≠ r.emptied) :
    decodeLoosely v = decode v := by
  unfold decodeLoosely decode named
  split
  · rfl
  · rename_i s content
    -- The content is looked at only when the name is that of a rule.
    cases hs : named.find byName s with
    | error e => rfl
    | ok r =>
      obtain rfl := lookup_byName_eq_some_iff.mp (find_eq_ok_iff.mp hs)
      have hcontent : content ≠ .record [] := by
        rintro rfl
        exact hv r rfl
      rw [unitOrEmpty_of_ne hcontent]
  · rfl
  · rfl

theorem LoopRule.decodeLoosely_emptied (r : LoopRule) : decodeLoosely r.emptied = .ok r :=
  decodeLoosely_eq_ok_iff.mpr (Or.inr (Or.inr rfl))

theorem LoopRule.decode_emptied (r : LoopRule) :
    decode r.emptied = .error (.wrongType .record .unit) := by
  cases r <;> rfl

/-! ## Reading a record -/

section Record

variable {fields : List (String × Value)}

/-- **Options read one key**, and nothing else of the record can fail. -/
theorem Options.decode_eq_map (fields : List (String × Value)) :
    Options.decode (.record fields) = (key? fields "forIterable" LoopRule.decode).map
      fun rule => ⟨rule.getD .standard⟩ := ofFields_recordType LoopRule.decode fields

/-- **A configuration reads the same key**, once the language is a text or missing. -/
theorem Config.decode_eq_map
    (hlanguage : ∀ v, Value.lookup? fields "language" = some v → ∃ s, v = .text s) :
    Config.decode (.record fields) = (key? fields "forIterable" LoopRule.decodeLoosely).map
      fun rule => ⟨languageIn fields, rule.getD .standard⟩ := by
  have htext : ∃ language, key? fields "language" text = .ok language ∧
      language.getD Config.standard.language = languageIn fields := by
    unfold languageIn key?
    cases hv : Value.lookup? fields "language" with
    | none => exact ⟨none, rfl, rfl⟩
    | some v =>
      obtain ⟨s, rfl⟩ := hlanguage v hv
      exact ⟨some s, rfl, rfl⟩
  obtain ⟨language, hread, hgiven⟩ := htext
  change Config.ofFields fields = _
  rw [Config.ofFields, hread, Options.ofFields_recordType, ← hgiven]
  cases key? fields "forIterable" LoopRule.decodeLoosely <;> rfl

theorem Config.languageIn_of_missing (h : Value.lookup? fields "language" = none) :
    languageIn fields = Language.standard.label := by
  rw [languageIn, h]
  rfl

variable (hlanguage : ∀ v, Value.lookup? fields "language" = some v → ∃ s, v = .text s)

include hlanguage in
/-- **Without the one form, a configuration is options and a language.** -/
theorem Config.decode_eq_map_options
    (hrule : ∀ r : LoopRule, Value.lookup? fields "forIterable" ≠ some r.emptied) :
    Config.decode (.record fields) =
      (Options.decode (.record fields)).map fun o => ⟨languageIn fields, o.rule⟩ := by
  have hread : key? fields "forIterable" LoopRule.decodeLoosely =
      key? fields "forIterable" LoopRule.decode := by
    unfold key?
    cases hv : Value.lookup? fields "forIterable" with
    | none => rfl
    | some v =>
      rw [hv] at hrule
      have hne : ∀ r : LoopRule, v ≠ r.emptied := fun r hr => hrule r (congrArg some hr)
      simp only [LoopRule.decodeLoosely_eq hne]
  rw [Config.decode_eq_map hlanguage, Options.decode_eq_map, hread]
  cases key? fields "forIterable" LoopRule.decode <;> rfl

/-- **Options do not decode from the one form.** -/
theorem Options.decode_of_emptied {r : LoopRule}
    (hr : Value.lookup? fields "forIterable" = some r.emptied) :
    Options.decode (.record fields) = .error (.wrongType .record .unit) := by
  rw [decode_eq_map, key?, hr]
  simp only [LoopRule.decode_emptied]
  rfl

include hlanguage in
/-- **What options take, a configuration takes**, with the language of the record. -/
theorem Config.decode_of_options {o : Options} (ho : Options.decode (.record fields) = .ok o) :
    Config.decode (.record fields) = .ok ⟨languageIn fields, o.rule⟩ := by
  have hrule : ∀ r : LoopRule, Value.lookup? fields "forIterable" ≠ some r.emptied := by
    intro r hr
    rw [Options.decode_of_emptied hr] at ho
    cases ho
  rw [decode_eq_map_options hlanguage hrule, ho]
  rfl

include hlanguage in
/-- **A record is read alike as options and as a configuration**, when its language is a text or
missing. The one exception is a loop rule whose name is the key of an empty record: the
configuration takes it and the options do not. Whatever options take sets up an inspector and a
handle with the same rule. -/
theorem configuredAlike : ConfiguredAlike fields := by
  constructor
  case chosen =>
    intro hrule r
    rw [Config.decode_eq_map_options hlanguage hrule]
    cases Options.decode (.record fields) with
    | error e => simp [Except.map]
    | ok o => simp [Except.map]
  case refused =>
    intro hrule e
    rw [Config.decode_eq_map_options hlanguage hrule]
    cases Options.decode (.record fields) with
    | error e => simp [Except.map]
    | ok o => simp [Except.map]
  case emptied =>
    intro r hr
    refine ⟨?_, Options.decode_of_emptied hr⟩
    have hread : key? fields "forIterable" LoopRule.decodeLoosely = .ok (some r) :=
      key?_eq_some_iff.mpr ⟨r.emptied, hr, r.decodeLoosely_emptied⟩
    exact ⟨⟨Config.languageIn fields, r⟩, by rw [Config.decode_eq_map hlanguage, hread]; rfl, rfl⟩
  case inspected =>
    intro o ho
    refine ⟨⟨Config.languageIn fields, o.rule⟩, Config.decode_of_options hlanguage ho, rfl, rfl,
      fun hmissing => ?_⟩
    rw [Config.languageIn_of_missing hmissing]
    exact Language.ofLabel_standard
  case held =>
    intro o ho
    have hoptions : Handle.optionsOf (some (.record fields)) = .ok o := by
      rw [Handle.optionsOf, Endpoint.input, ho]
      rfl
    obtain ⟨p, hp, -, hrule⟩ := Handle.ofOptions_of_decode hoptions
    exact ⟨p, hp, hrule⟩

end Record

/-! ## A sample -/

namespace Sample

/-- A record with a language and a rule. -/
def choices : List (String × Value) :=
  [("language", .text " Py "), ("forIterable", .record [("structural", .null)])]

/-- A record with the form of a rule that only a configuration takes. -/
def looseChoices : List (String × Value) :=
  [("forIterable", .record [("structural", .record [])])]

end Sample

/-- The first record chooses the same rule both ways, and sets up a handle with it. The second one
is a configuration, but no options. -/
theorem configuredAlike_sample :
    (∃ o, Options.decode (.record Sample.choices) = .ok o ∧ o.rule = .byField) ∧
      (∃ p, Handle.ofOptions (some (.record Sample.choices)) = .ok p ∧
        p.inspector.rule = .byField) ∧
      (∃ c, Config.decode (.record Sample.looseChoices) = .ok c ∧ c.rule = .byField) ∧
      Options.decode (.record Sample.looseChoices) = .error (.wrongType .record .unit) := by
  have hlanguage : ∀ v, Value.lookup? Sample.choices "language" = some v → ∃ s, v = .text s := by
    intro v hv
    obtain rfl := Option.some.inj hv
    exact ⟨" Py ", rfl⟩
  have hchoices : ConfiguredAlike Sample.choices := configuredAlike hlanguage
  have hloose : ConfiguredAlike Sample.looseChoices := configuredAlike fun _ hv => nomatch hv
  have hstrict : ∀ r : LoopRule,
      Value.lookup? Sample.choices "forIterable" ≠ some r.emptied := by
    intro r hr
    have hentry := (List.cons.inj (Value.record.inj (Option.some.inj hr))).1
    exact nomatch (Prod.mk.inj hentry).2
  have hconfig : Config.decode (.record Sample.choices) = .ok ⟨" Py ", .byField⟩ :=
    (Config.decode_eq_map hlanguage).trans rfl
  have hsame := (hchoices.chosen hstrict .byField).mp ⟨_, hconfig, rfl⟩
  have hoptions : Options.decode (.record Sample.choices) = .ok ⟨.byField⟩ :=
    (Options.decode_eq_map _).trans rfl
  exact ⟨hsame, hchoices.held _ hoptions, hloose.emptied .byField rfl⟩

end HunkScope
