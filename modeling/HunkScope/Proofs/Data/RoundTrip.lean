import HunkScope.Data.Schema
import HunkScope.Proofs.Data.Reading

/-!
# Encoding and decoding again

What a type encodes to decodes to the same again, whatever the type: words of any size, texts of any
kind, a verdict with a site or without. A decoder takes more than one form of a value, a list for a
record or a record with one key for a name, but an encoder writes just one. So the encoding of what
was decoded is a canonical form: to decode and encode it once more changes nothing.

* `Schema.Carrier`, `Schema.encode`, `Schema.decode`: the type of a schema, and both ways to and
  from its values.

Headlines:
* `Construct.decode_encode`, `Scope.decode_encode`, `Verdict.decode_encode` and so on: each type
  for itself.
* **`Schema.round_trip`**: every schema decodes what it encodes, and what it decodes has a
  canonical form.
* `Schema.encode_injective`: two things with the same encoding are the same.
-/

namespace HunkScope

open Decode

/-! ## Hunks, points and fault sites -/

/-- **Two words under two keys** decode to what is made of them. -/
theorem RecordType.decode_ofWords_record {α : Type} {name first second : String}
    {hne : first ≠ second} {make : UInt32 → UInt32 → α} (x y : UInt32) :
    (ofWords name first second hne make).decode
      (.record [(first, .word x), (second, .word y)]) = .ok (make x y) := by
  refine ofFields_ofWords_eq_ok_iff.mpr ⟨x, y, ?_, ?_, rfl⟩
  · refine key?_eq_some_iff.mpr ⟨.word x, ?_, word_word x⟩
    rw [Value.lookup?, List.lookup_cons_self]
  · refine key?_eq_some_iff.mpr ⟨.word y, ?_, word_word y⟩
    rw [Value.lookup?, List.lookup_cons, beq_eq_false_iff_ne.mpr hne.symm]
    exact List.lookup_cons_self

theorem Hunk.decode_encode (h : Hunk) : decode h.encode = .ok h :=
  RecordType.decode_ofWords_record h.first h.last

theorem Point.decode_encode (p : Point) : decode p.encode = .ok p :=
  RecordType.decode_ofWords_record p.row p.column

theorem FaultSite.decode_encode (s : FaultSite) : decode s.encode = .ok s :=
  RecordType.decode_ofWords_record s.line s.column

/-! ## Constructs, scopes and verdicts -/

/-- **Each construct decodes from the kind of node that marks it.** -/
theorem Construct.decode_encode (c : Construct) : decode c.encode = .ok c :=
  named_lookup (fun _ _ => kind_injective) (mem_all c) unit

theorem Scope.decode_encode (s : Scope) : decode s.encode = .ok s := by
  refine decode_record_eq_ok_iff.mpr ⟨?construct, ?name, ?first, ?last⟩
  case construct =>
    exact key?_eq_some_iff.mpr ⟨s.construct.encode, rfl, s.construct.decode_encode⟩
  case name => exact key?_eq_some_iff.mpr ⟨.text s.name, rfl, rfl⟩
  case first => exact key?_eq_some_iff.mpr ⟨.word s.firstLine, rfl, word_word s.firstLine⟩
  case last => exact key?_eq_some_iff.mpr ⟨.word s.lastLine, rfl, word_word s.lastLine⟩

/-- **A verdict decodes from its encoding**, with a key for its site or without one. -/
theorem Verdict.decode_encode (v : Verdict) : decode v.encode = .ok v := by
  obtain ⟨valid, reason, site⟩ := v
  refine decode_record_eq_ok_iff.mpr ⟨?valid, ?reason, ?site⟩
  case valid => exact key?_eq_some_iff.mpr ⟨.bool valid, rfl, rfl⟩
  case reason => exact key?_eq_some_iff.mpr ⟨.text reason, rfl, rfl⟩
  case site =>
    cases site with
    | none => exact ⟨none, key?_eq_none_iff.mpr rfl, rfl⟩
    | some s =>
      have hsite : nullable FaultSite.decode s.encode = .ok (some s) :=
        map_eq_ok_iff.mpr ⟨s, s.decode_encode, rfl⟩
      exact ⟨some (some s), key?_eq_some_iff.mpr ⟨s.encode, rfl, hsite⟩, rfl⟩

/-! ## Loop rules and what holds them -/

/-- **A loop rule decodes from its name**, whatever a record with only the name may hold. -/
theorem LoopRule.named_encode (r : LoopRule) (content : Decoder Unit) :
    named byName content r.encode = .ok r :=
  named_lookup name_injective (by cases r <;> decide) content

theorem LoopRule.decode_encode (r : LoopRule) : decode r.encode = .ok r := r.named_encode unit

theorem Options.decode_encode (o : Options) : decode o.encode = .ok o := by
  have hrule : key? [("forIterable", o.rule.encode)] "forIterable" LoopRule.decode =
      .ok (some o.rule) := key?_eq_some_iff.mpr ⟨o.rule.encode, rfl, o.rule.decode_encode⟩
  refine (ofFields_recordType LoopRule.decode _).trans ?_
  rw [hrule]
  rfl

theorem Config.decode_encode (c : Config) : decode c.encode = .ok c := by
  refine bind_eq_ok_iff.mpr ⟨some c.language, ?language,
    bind_eq_ok_iff.mpr ⟨⟨c.rule⟩, ?options, rfl⟩⟩
  case language => exact key?_eq_some_iff.mpr ⟨.text c.language, rfl, rfl⟩
  case options =>
    have hrule : key? [("language", .text c.language), ("forIterable", c.rule.encode)]
        "forIterable" LoopRule.decodeLoosely = .ok (some c.rule) :=
      key?_eq_some_iff.mpr ⟨c.rule.encode, rfl, c.rule.named_encode unitOrEmpty⟩
    refine (Options.ofFields_recordType LoopRule.decodeLoosely _).trans ?_
    rw [hrule]
    rfl

/-! ## Every schema -/

namespace Schema

/-- The type of a schema. -/
def Carrier : Schema → Type
  | hunk => Hunk
  | point => Point
  | faultSite => FaultSite
  | construct => Construct
  | scope => Scope
  | loopRule => LoopRule
  | options => Options
  | config => Config
  | verdict => Verdict

/-- The value of a thing of a schema. -/
def encode : (t : Schema) → t.Carrier → Value
  | hunk => Hunk.encode
  | point => Point.encode
  | faultSite => FaultSite.encode
  | construct => Construct.encode
  | scope => Scope.encode
  | loopRule => LoopRule.encode
  | options => Options.encode
  | config => Config.encode
  | verdict => Verdict.encode

/-- The thing of a schema that a value stands for. -/
def decode : (t : Schema) → Decoder t.Carrier
  | hunk => Hunk.decode
  | point => Point.decode
  | faultSite => FaultSite.decode
  | construct => Construct.decode
  | scope => Scope.decode
  | loopRule => LoopRule.decode
  | options => Options.decode
  | config => Config.decode
  | verdict => Verdict.decode

theorem canonical_eq_map (t : Schema) (v : Value) :
    canonical v t = (t.decode v).map t.encode := by
  cases t <;> rfl

theorem decode_encode (t : Schema) (x : t.Carrier) : t.decode (t.encode x) = .ok x := by
  cases t with
  | hunk => exact Hunk.decode_encode x
  | point => exact Point.decode_encode x
  | faultSite => exact FaultSite.decode_encode x
  | construct => exact Construct.decode_encode x
  | scope => exact Scope.decode_encode x
  | loopRule => exact LoopRule.decode_encode x
  | options => exact Options.decode_encode x
  | config => exact Config.decode_encode x
  | verdict => exact Verdict.decode_encode x

/-- **Two things with the same encoding are the same.** -/
theorem encode_injective (t : Schema) : Function.Injective t.encode := by
  intro x y hxy
  have hx := t.decode_encode x
  rw [hxy, t.decode_encode y] at hx
  exact (Except.ok.inj hx).symm

/-- **Every schema decodes what it encodes**: whatever a thing is, its encoding decodes to it. So
whatever form of a value a thing was decoded from, the canonical form of that value is the encoding
of the thing, which decodes to the same thing and is its own canonical form. -/
theorem round_trip (t : Schema) :
    (∀ x : t.Carrier, t.decode (t.encode x) = .ok x) ∧
      ∀ v (x : t.Carrier), t.decode v = .ok x →
        canonical v t = .ok (t.encode x) ∧ t.decode (t.encode x) = .ok x ∧
          canonical (t.encode x) t = .ok (t.encode x) := by
  have hcanonical : ∀ v (x : t.Carrier), t.decode v = .ok x → canonical v t = .ok (t.encode x) := by
    intro v x hv
    rw [canonical_eq_map, hv]
    rfl
  refine ⟨t.decode_encode, fun v x hv => ⟨hcanonical v x hv, t.decode_encode x, ?_⟩⟩
  exact hcanonical (t.encode x) x (t.decode_encode x)

end Schema

/-! ## A sample -/

/-- A class on three lines. -/
def Sample.small : Scope := ⟨.classBody, "Small", 2, 4⟩

/-- A scope from a list, its construct from a record with one key; its canonical form is a record
with a text for the construct. -/
theorem Schema.round_trip_sample :
    scope.decode (.list [.record [("class_definition", .null)], .text "Small", .int 2, .int 4]) =
        .ok Sample.small ∧
      scope.decode (.record [("type", .text "class_definition"), ("name", .text "Small"),
        ("startLine", .int 2), ("endLine", .int 4)]) = .ok Sample.small := by
  have hv : scope.decode
      (.list [.record [("class_definition", .null)], .text "Small", .int 2, .int 4]) =
        .ok Sample.small := rfl
  exact ⟨hv, ((round_trip scope).2 _ Sample.small hv).2.1⟩

end HunkScope
