import HunkScope.Proofs.Data.RoundTrip
import Mathlib.Data.List.Forall2

/-!
# Declared keys

A record type declares its keys, each with the values that are valid for it and whether it may be
missing. The outcome of decoding a record depends on these keys alone. It fails when a value is not
valid for its key, or when a key is missing that may not be, and the errors have an order: an
invalid value goes before a missing key, of several such values the one under the key whose bytes
come first is reported, and of several missing keys the one declared first.

* `ValueKind`: what a key holds, with the values that are valid for it. `RecordKey`: a declared key.
* `Schema.declared`: the keys of a record type, in the order of declaration; `Schema.readOrder`: the
  same in the order they are read in, which is that of their bytes.
* `Schema.firstError?`: the error a record is refused with, read off its keys.
* `Schema.ReadsKeys`: all that is said here of one record and one type.

Headlines:
* `ValueKind.fault?_eq_none_iff`: which values nothing is wrong with.
* `pairwise_sortByKey`: keys that are all different are sorted strictly.
* `RecordType.errorOf_ofFields`: the error of a record, whatever the record type.
* `errorOf_decode_record`: a record is refused with its first error, and with nothing else.
* `decode_record_congr`: records that agree at the declared keys have the same outcome.
* `findSome?_eq_some_iff_of_pairwise`: in an ordered list the first hit is the least one.
* **`readsKeys`**: every record type reads every record so.
-/

namespace HunkScope

open Decode

/-- The error of an outcome, if it is one. -/
def Decode.errorOf {α : Type} : Except DecodeError α → Option DecodeError
  | .ok _ => none
  | .error e => some e

/-- What a key of a record type holds. -/
inductive ValueKind where
  | word
  | text
  | bool
  | construct
  | rule
  /-- A loop rule, whose name may be the key of an empty record. -/
  | looseRule
  /-- The place of a fault, or null when there is none. -/
  | site
deriving DecidableEq, Repr

namespace ValueKind

/-- The values that are valid for a kind. -/
def Admits : ValueKind → Value → Prop
  | word, v => ∃ w, v = .word w
  | text, v => ∃ s, v = .text s
  | bool, v => ∃ b, v = .bool b
  | construct, v => ∃ c : Construct, v = .text c.kind ∨ v = .record [(c.kind, .null)]
  | rule, v => ∃ r : LoopRule, v = .text r.name ∨ v = .record [(r.name, .null)]
  | looseRule, v => ∃ r : LoopRule, v = .text r.name ∨ v = .record [(r.name, .null)] ∨
      v = .record [(r.name, .record [])]
  | site, v => v = .null ∨ (∃ x y, v = .list [.word x, .word y]) ∨
      ∃ fields x y, v = .record fields ∧ Value.lookup? fields "line" = some (.word x) ∧
        Value.lookup? fields "column" = some (.word y)

/-- What is wrong with a value, if anything is: the error its kind is decoded with. -/
def fault? : ValueKind → Value → Option DecodeError
  | word, v => errorOf (Decode.word v)
  | text, v => errorOf (Decode.text v)
  | bool, v => errorOf (Decode.bool v)
  | construct, v => errorOf (Construct.decode v)
  | rule, v => errorOf (LoopRule.decode v)
  | looseRule, v => errorOf (LoopRule.decodeLoosely v)
  | site, v => errorOf (nullable FaultSite.decode v)

end ValueKind

/-- A declared key of a record type. -/
structure RecordKey where
  name : String
  kind : ValueKind
  /-- The key may be missing. -/
  optional : Bool
deriving DecidableEq, Repr

namespace RecordKey

/-- What is wrong with the value a record holds at the key, if it holds one. -/
def faultIn? (f : RecordKey) (fields : List (String × Value)) : Option DecodeError :=
  (Value.lookup? fields f.name).bind f.kind.fault?

/-- A record lacks the key, and may not. -/
def isLacking (f : RecordKey) (fields : List (String × Value)) : Bool :=
  !f.optional && (Value.lookup? fields f.name).isNone

/-- The error for a key that is lacking. -/
def lackIn? (f : RecordKey) (fields : List (String × Value)) : Option DecodeError :=
  if f.isLacking fields then some (.missing f.name) else none

/-- The bytes of one key come before those of another, as in a dictionary. -/
def Before (f g : RecordKey) : Prop := keyBytes f.name < keyBytes g.name

instance (f g : RecordKey) : Decidable (f.Before g) :=
  inferInstanceAs (Decidable (keyBytes f.name < keyBytes g.name))

end RecordKey

namespace Schema

/-- The types that decode from records with declared keys. -/
def records : List Schema := [hunk, point, faultSite, scope, options, config, verdict]

/-- The names of the declared keys. -/
def keys (t : Schema) : List String := t.shape.keys

/-- What the declared keys hold and whether they may be missing, in the order of declaration. -/
def contents : Schema → List (ValueKind × Bool)
  | hunk | point | faultSite => [(.word, false), (.word, false)]
  | scope => [(.construct, false), (.text, false), (.word, false), (.word, false)]
  | options => [(.rule, true)]
  | config => [(.text, true), (.looseRule, true)]
  | verdict => [(.bool, false), (.text, false), (.site, true)]
  | construct | loopRule => []

/-- The keys of a record type in the order of declaration. -/
def declared (t : Schema) : List RecordKey :=
  t.keys.zipWith (fun key content => ⟨key, content.1, content.2⟩) t.contents

/-- The keys of a record type in the order their values are looked at: that of their bytes, but for
a configuration, which looks at the language first. -/
def readOrder : Schema → List RecordKey
  | config => config.declared
  | t => sortByKey RecordKey.name t.declared

/-- The error of a record: that of the first invalid value in the order of reading, or else that of
the first key that is lacking. -/
def firstError? (t : Schema) (fields : List (String × Value)) : Option DecodeError :=
  (t.readOrder.findSome? (·.faultIn? fields)).or (t.declared.findSome? (·.lackIn? fields))

/-- How a record type reads a record. -/
structure ReadsKeys (t : Schema) (fields : List (String × Value)) : Prop where
  /-- A record that holds the same at the declared keys has the same outcome. -/
  same : ∀ others, (∀ k ∈ t.keys, Value.lookup? others k = Value.lookup? fields k) →
    t.decode (.record others) = t.decode (.record fields)
  /-- Deleting keys that are not declared changes nothing. -/
  deleted : ∀ keep : String → Bool, (∀ k ∈ t.keys, keep k = true) →
    t.decode (.record (fields.filter fun p => keep p.1)) = t.decode (.record fields)
  /-- Adding keys that are not declared changes nothing, wherever they are added. -/
  added : ∀ before after extra, fields = before ++ after → (∀ p ∈ extra, p.1 ∉ t.keys) →
    t.decode (.record (before ++ extra ++ after)) = t.decode (.record fields)
  /-- A record decodes when the declared keys it has hold valid values, and it has all keys that may
  not be missing. -/
  decodes : (∃ x, t.decode (.record fields) = .ok x) ↔
    (∀ f ∈ t.declared, ∀ v, Value.lookup? fields f.name = some v → f.kind.Admits v) ∧
      ∀ f ∈ t.declared, f.optional = false → (Value.lookup? fields f.name).isSome = true
  /-- A record fails by the invalid value whose key comes first in the order of bytes; without one,
  by the missing key that was declared first. -/
  fails : t ≠ .config → ∀ e, t.decode (.record fields) = .error e ↔
    (∃ f ∈ t.declared, f.faultIn? fields = some e ∧
        ∀ g ∈ t.declared, g.Before f → g.faultIn? fields = none) ∨
      (∀ f ∈ t.declared, f.faultIn? fields = none) ∧
        ∃ f, t.declared.find? (·.isLacking fields) = some f ∧ e = .missing f.name
  /-- The text of the error for a missing key says which key it is. -/
  wording : t ≠ .config → (∀ f ∈ t.declared, f.faultIn? fields = none) →
    ∀ f, t.declared.find? (·.isLacking fields) = some f →
      (t.decode (.record fields)).mapError DecodeError.message =
        .error ("missing field `" ++ f.name ++ "`")

end Schema

/-! ## Errors of steps -/

namespace Decode

variable {α β : Type} {fields : List (String × Value)} {key : String} {read : Decoder α}

theorem errorOf_eq_some_iff {x : Except DecodeError α} {e : DecodeError} :
    errorOf x = some e ↔ x = .error e := by
  cases x <;> simp [errorOf]

theorem errorOf_eq_none_iff {x : Except DecodeError α} : errorOf x = none ↔ ∃ a, x = .ok a := by
  cases x <;> simp [errorOf]

/-- The error of two steps is that of the first, or else that of the second. -/
theorem errorOf_bind {x : Except DecodeError α} {f : α → Except DecodeError β}
    {r : Option DecodeError} (h : ∀ a, x = .ok a → errorOf (f a) = r) :
    errorOf (x >>= f) = (errorOf x).or r := by
  cases x with
  | error e => rfl
  | ok a => exact h a rfl

theorem errorOf_map {x : Except DecodeError α} {f : α → β} : errorOf (x.map f) = errorOf x := by
  cases x <;> rfl

/-- **Reading a key fails** by what is wrong with its value. -/
theorem errorOf_key? :
    errorOf (key? fields key read) =
      (Value.lookup? fields key).bind fun v => errorOf (read v) := by
  unfold key?
  cases Value.lookup? fields key with
  | none => rfl
  | some v => exact errorOf_map

theorem errorOf_key?_bind {f : Option α → Except DecodeError β} {r : Option DecodeError}
    (h : ∀ x, key? fields key read = .ok x → errorOf (f x) = r) :
    errorOf (key? fields key read >>= f) =
      ((Value.lookup? fields key).bind fun v => errorOf (read v)).or r := by
  rw [errorOf_bind h, errorOf_key?]

/-- **Insisting on a key fails** when the key is lacking. -/
theorem errorOf_require_bind {x : Option α} (hx : key? fields key read = .ok x)
    {f : α → Except DecodeError β} {kind : ValueKind} {r : Option DecodeError}
    (h : ∀ a, errorOf (f a) = r) :
    errorOf (require key x >>= f) = (RecordKey.lackIn? ⟨key, kind, false⟩ fields).or r := by
  have hlack : RecordKey.isLacking ⟨key, kind, false⟩ fields = x.isNone := by
    cases x with
    | none => simp [RecordKey.isLacking, key?_eq_none_iff.mp hx]
    | some a =>
      obtain ⟨v, hv, -⟩ := key?_eq_some_iff.mp hx
      simp [RecordKey.isLacking, hv]
  rw [errorOf_bind fun a _ => h a, RecordKey.lackIn?, hlack]
  cases x <;> rfl

/-- The first hit in a list, as one alternative after the other. -/
theorem findSome?_eq_foldr (f : α → Option β) (as : List α) :
    as.findSome? f = (as.map f).foldr Option.or none := by
  induction as with
  | nil => rfl
  | cons a as ih =>
    rw [List.findSome?_cons, List.map_cons, List.foldr_cons, ← ih]
    cases f a <;> rfl

/-- A key reads the same where two records hold the same. -/
theorem key?_congr {others : List (String × Value)}
    (h : Value.lookup? others key = Value.lookup? fields key) :
    key? others key read = key? fields key read := by
  rw [key?, h, key?]

/-! ## Sorting by keys -/

theorem keyBytes_injective : Function.Injective keyBytes := by
  intro k l h
  exact String.toByteArray_inj.mp (ByteArray.ext (Array.toList_inj.mp h))

/-- **Things whose keys are all different are sorted strictly.** -/
theorem pairwise_sortByKey {κ : Type _} (key : κ → String) {things : List κ}
    (hnodup : (things.map key).Nodup) :
    (sortByKey key things).Pairwise fun x y => keyBytes (key x) < keyBytes (key y) := by
  have hle : (sortByKey key things).Pairwise fun x y =>
      decide (keyBytes (key x) ≤ keyBytes (key y)) = true :=
    List.pairwise_mergeSort (by simpa using fun _ _ _ => List.le_trans)
      (by simpa using fun _ _ => List.le_total _ _) things
  have hne : (sortByKey key things).Pairwise fun x y => key x ≠ key y :=
    List.pairwise_map.mp (((sortByKey_perm key things).map key).nodup_iff.mpr hnodup)
  refine hle.imp₂ (fun x y hle hne => ?_) hne
  by_contra hlt
  exact hne (keyBytes_injective (List.le_antisymm (of_decide_eq_true hle) (List.not_lt.mp hlt)))

/-- What is done to things and keeps their keys may be done after they are sorted. -/
theorem map_sortByKey {κ μ : Type _} {key : κ → String} {key' : μ → String} (f : κ → μ)
    {things : List κ} (h : ∀ x ∈ things, key x = key' (f x)) :
    (sortByKey key things).map f = sortByKey key' (things.map f) :=
  List.map_mergeSort fun x hx y hy => by rw [h x hx, h y hy]

/-- **Things with the same keys are sorted alike.** -/
theorem forall₂_sortByKey {κ μ : Type _} {key : κ → String} {key' : μ → String}
    {R : κ → μ → Prop} (hkey : ∀ x y, R x y → key x = key' y) {xs : List κ} {ys : List μ}
    (h : List.Forall₂ R xs ys) : List.Forall₂ R (sortByKey key xs) (sortByKey key' ys) := by
  obtain ⟨hlength, hzip⟩ := List.forall₂_iff_zip.mp h
  -- Both are images of the pairs, sorted by the keys they share.
  have hxs : (sortByKey (fun p => key p.1) (xs.zip ys)).map Prod.fst = sortByKey key xs := by
    refine (map_sortByKey Prod.fst fun _ _ => rfl).trans ?_
    rw [List.map_fst_zip (Nat.le_of_eq hlength)]
  have hys : (sortByKey (fun p => key p.1) (xs.zip ys)).map Prod.snd = sortByKey key' ys := by
    refine (map_sortByKey Prod.snd fun p hp => hkey p.1 p.2 (hzip hp)).trans ?_
    rw [List.map_snd_zip (Nat.le_of_eq hlength.symm)]
  rw [← hxs, ← hys, List.forall₂_map_left_iff, List.forall₂_map_right_iff, List.forall₂_same]
  exact fun p hp => hzip ((sortByKey_perm _ _).mem_iff.mp hp)

end Decode

/-! ## The error of a record -/

variable {fields : List (String × Value)}

/-- A declared key has the name and the faults of a key that is read. -/
structure RecordKey.Describes {δ : Type} (f : RecordKey) (k : Key δ) : Prop where
  name : f.name = k.name
  fault? : ∀ v, f.kind.fault? v = errorOf (k.read v)

namespace RecordType

variable {δ α : Type} {r : RecordType δ α} {fs : List RecordKey}

theorem errorOf_readKeys {ks : List (Key δ)} (h : List.Forall₂ RecordKey.Describes fs ks) (d : δ) :
    errorOf (readKeys fields ks d) = fs.findSome? (·.faultIn? fields) := by
  induction h generalizing d with
  | nil => rfl
  | @cons f k fs ks hfk _ ih =>
    have hfault : f.faultIn? fields =
        (Value.lookup? fields k.name).bind fun v => errorOf (k.read v) := by
      rw [RecordKey.faultIn?, hfk.name, funext hfk.fault?]
    rw [readKeys, errorOf_key?_bind fun x _ => ih (k.keep x d), ← hfault, List.findSome?_cons]
    cases f.faultIn? fields <;> rfl

/-- **The error of a record** is that of the first invalid value in the order of the bytes of the
keys, or else that of its draft. -/
theorem errorOf_ofFields (hdescribes : List.Forall₂ RecordKey.Describes fs r.keys)
    {lack : Option DecodeError}
    (hfinish : ∀ d, readKeys fields r.keys r.blank = .ok d → errorOf (r.finish d) = lack) :
    errorOf (r.ofFields fields) =
      ((sortByKey RecordKey.name fs).findSome? (·.faultIn? fields)).or lack := by
  have hsorted : List.Forall₂ RecordKey.Describes (sortByKey RecordKey.name fs)
      (sortByKey Key.name r.keys) := forall₂_sortByKey (fun _ _ h => h.name) hdescribes
  rw [ofFields, errorOf_bind fun d hd =>
    hfinish d ((readKeys_perm (sortByKey_perm _ _).symm r.apart _ d).mpr hd),
    errorOf_readKeys hsorted]

theorem errorOf_ofWords {name first second : String} {hne : first ≠ second}
    {make : UInt32 → UInt32 → α} :
    errorOf ((ofWords name first second hne make).ofFields fields) =
      ((sortByKey RecordKey.name [⟨first, .word, false⟩, ⟨second, .word, false⟩]).findSome?
        (·.faultIn? fields)).or
          (([⟨first, .word, false⟩, ⟨second, .word, false⟩].map
            (RecordKey.lackIn? · fields)).foldr Option.or none) := by
  refine errorOf_ofFields ?describes fun d hd => ?finish
  case describes => exact .cons ⟨rfl, fun _ => rfl⟩ <| .cons ⟨rfl, fun _ => rfl⟩ .nil
  case finish =>
    simp only [ofWords, readKeys_cons_eq_ok_iff, readKeys_nil_eq_ok_iff] at hd
    obtain ⟨x, hx, y, hy, rfl⟩ := hd
    exact errorOf_require_bind hx fun _ => errorOf_require_bind hy fun _ => rfl

/-- **Records that agree at the keys have the same outcome.** -/
theorem ofFields_congr {others : List (String × Value)}
    (h : ∀ k ∈ r.shape.keys, Value.lookup? others k = Value.lookup? fields k) :
    r.ofFields others = r.ofFields fields := by
  have hread : ∀ (ks : List (Key δ)), (∀ k ∈ ks, k ∈ r.keys) → ∀ d,
      readKeys others ks d = readKeys fields ks d := by
    intro ks hks
    induction ks with
    | nil => exact fun _ => rfl
    | cons k ks ih =>
      obtain ⟨hk, hks⟩ := List.forall_mem_cons.mp hks
      intro d
      simp only [readKeys, key?_congr (h k.name (List.mem_map_of_mem hk)), ih hks]
  rw [ofFields, hread _ fun _ => (sortByKey_perm _ _).mem_iff.mp, ofFields]

end RecordType

/-- A draft of a scope lacks the first key that is missing. -/
theorem Scope.errorOf_finish {d : Draft}
    (hd : RecordType.readKeys fields recordType.keys recordType.blank = .ok d) :
    errorOf (recordType.finish d) =
      (Schema.scope.declared.map (·.lackIn? fields)).foldr Option.or none := by
  simp only [recordType, RecordType.readKeys_cons_eq_ok_iff,
    RecordType.readKeys_nil_eq_ok_iff] at hd
  obtain ⟨construct, hconstruct, name, hname, first, hfirst, last, hlast, rfl⟩ := hd
  exact errorOf_require_bind hconstruct fun _ => errorOf_require_bind hname fun _ =>
    errorOf_require_bind hfirst fun _ => errorOf_require_bind hlast fun _ => rfl

/-- A draft of a verdict lacks the first key that is missing, but for the site. -/
theorem Verdict.errorOf_finish {d : Draft}
    (hd : RecordType.readKeys fields recordType.keys recordType.blank = .ok d) :
    errorOf (recordType.finish d) =
      (Schema.verdict.declared.map (·.lackIn? fields)).foldr Option.or none := by
  simp only [recordType, RecordType.readKeys_cons_eq_ok_iff,
    RecordType.readKeys_nil_eq_ok_iff] at hd
  obtain ⟨valid, hvalid, reason, hreason, site, -, rfl⟩ := hd
  exact errorOf_require_bind hvalid fun _ => errorOf_require_bind hreason fun _ => rfl

namespace Schema

variable {t : Schema}

/-- **A record is refused with its first error**, and decodes when there is none. -/
theorem errorOf_decode_record (ht : t ∈ records) (fields : List (String × Value)) :
    errorOf (t.decode (.record fields)) = t.firstError? fields := by
  rw [firstError?, findSome?_eq_foldr (f := (RecordKey.lackIn? · fields))]
  cases t with
  | hunk | point | faultSite => exact RecordType.errorOf_ofWords
  | scope =>
    refine RecordType.errorOf_ofFields ?_ fun _ => Scope.errorOf_finish
    exact .cons ⟨rfl, fun _ => rfl⟩ <| .cons ⟨rfl, fun _ => rfl⟩ <|
      .cons ⟨rfl, fun _ => rfl⟩ <| .cons ⟨rfl, fun _ => rfl⟩ .nil
  | verdict =>
    refine RecordType.errorOf_ofFields ?_ fun _ => Verdict.errorOf_finish
    exact .cons ⟨rfl, fun _ => rfl⟩ <| .cons ⟨rfl, fun _ => rfl⟩ <|
      .cons ⟨rfl, fun _ => rfl⟩ .nil
  | options =>
    exact RecordType.errorOf_ofFields (r := Options.recordType LoopRule.decode)
      (.cons ⟨rfl, fun _ => rfl⟩ .nil) fun _ _ => rfl
  | config =>
    have hoptions : errorOf ((Options.recordType LoopRule.decodeLoosely).ofFields fields) =
        RecordKey.faultIn? ⟨"forIterable", .looseRule, true⟩ fields := by
      rw [Options.ofFields_recordType, errorOf_map, errorOf_key?]
      rfl
    refine (errorOf_key?_bind fun _ _ => errorOf_bind (r := none) fun _ _ => rfl).trans ?_
    rw [hoptions, findSome?_eq_foldr]
    exact Option.or_none.symm
  | construct | loopRule => exact absurd ht (by decide)

/-- **Records that agree at the declared keys have the same outcome.** -/
theorem decode_record_congr (ht : t ∈ records) {others : List (String × Value)}
    (h : ∀ k ∈ t.keys, Value.lookup? others k = Value.lookup? fields k) :
    t.decode (.record others) = t.decode (.record fields) := by
  cases t with
  | hunk | point | faultSite | scope | verdict | options => exact RecordType.ofFields_congr h
  | config =>
    obtain ⟨hlanguage, hoptions⟩ := List.forall_mem_cons.mp h
    change Config.ofFields others = Config.ofFields fields
    rw [Config.ofFields, key?_congr hlanguage, RecordType.ofFields_congr hoptions, Config.ofFields]
  | construct | loopRule => exact absurd ht (by decide)

/-! ## The order of the keys -/

theorem nodup_keys (t : Schema) : t.keys.Nodup := by
  cases t with
  | hunk | point | faultSite | scope | options | verdict => exact RecordType.distinct _
  | config | construct | loopRule => decide

theorem map_name_declared (t : Schema) : t.declared.map RecordKey.name = t.keys := by
  cases t <;> rfl

theorem readOrder_perm (t : Schema) : t.readOrder.Perm t.declared := by
  cases t with
  | config => rfl
  | hunk | point | faultSite | scope | options | verdict | construct | loopRule =>
    exact sortByKey_perm _ _

/-- **Keys are read in the order of their bytes**, but for those of a configuration. -/
theorem pairwise_readOrder (ht : t ≠ .config) : t.readOrder.Pairwise RecordKey.Before := by
  cases t with
  | config => exact absurd rfl ht
  | hunk | point | faultSite | scope | options | verdict | construct | loopRule =>
    refine pairwise_sortByKey _ ?_
    rw [map_name_declared]
    exact nodup_keys _

/-- The keys of a scope are declared in another order than they are read in. -/
example : scope.readOrder.map RecordKey.name = ["endLine", "name", "startLine", "type"] := by cbv

end Schema

/-- **In an ordered list the first hit is the least one.** -/
theorem findSome?_eq_some_iff_of_pairwise {α β : Type} {R : α → α → Prop}
    (hasymm : ∀ {a b}, R a b → ¬ R b a) {l : List α} (hl : l.Pairwise R) {f : α → Option β}
    {b : β} : l.findSome? f = some b ↔ ∃ a ∈ l, f a = some b ∧ ∀ c ∈ l, R c a → f c = none := by
  rw [List.findSome?_eq_some_iff]
  constructor
  · rintro ⟨before, a, after, rfl, ha, hbefore⟩
    refine ⟨a, List.mem_append_right before List.mem_cons_self, ha, fun c hc hca => ?_⟩
    have hafter := (List.pairwise_cons.mp (List.pairwise_append.mp hl).2.1).1
    rcases List.mem_append.mp hc with hc | hc
    · exact hbefore c hc
    · rcases List.mem_cons.mp hc with rfl | hc
      · exact absurd hca (hasymm hca)
      · exact absurd hca (hasymm (hafter c hc))
  · rintro ⟨a, ha, hb, hleast⟩
    obtain ⟨before, after, rfl⟩ := List.append_of_mem ha
    refine ⟨before, a, after, rfl, hb, fun c hc => hleast c (List.mem_append_left _ hc) ?_⟩
    exact (List.pairwise_append.mp hl).2.2 c hc a List.mem_cons_self

/-! ## What a declared key asks of a record -/

/-- **Nothing is wrong with the values that are valid**, and with no others. -/
theorem ValueKind.fault?_eq_none_iff {kind : ValueKind} {v : Value} :
    kind.fault? v = none ↔ kind.Admits v := by
  cases kind with
  | word => simp only [fault?, Admits, errorOf_eq_none_iff, word_eq_ok_iff]
  | text => simp only [fault?, Admits, errorOf_eq_none_iff, text_eq_ok_iff]
  | bool => simp only [fault?, Admits, errorOf_eq_none_iff, bool_eq_ok_iff]
  | construct => simp only [fault?, Admits, errorOf_eq_none_iff, Construct.decode_eq_ok_iff]
  | rule => simp only [fault?, Admits, errorOf_eq_none_iff, LoopRule.decode_eq_ok_iff]
  | looseRule => simp only [fault?, Admits, errorOf_eq_none_iff, LoopRule.decodeLoosely_eq_ok_iff]
  | site =>
    simp only [fault?, Admits, errorOf_eq_none_iff, exists_nullable_iff]
    exact or_congr_right RecordType.exists_ofWords_iff

namespace RecordKey

variable {f g : RecordKey}

theorem Before.not_before (h : f.Before g) : ¬ g.Before f := List.lt_asymm h

theorem faultIn?_eq_none_iff :
    f.faultIn? fields = none ↔ ∀ v, Value.lookup? fields f.name = some v → f.kind.Admits v := by
  simp only [faultIn?, Option.bind_eq_none_iff, ValueKind.fault?_eq_none_iff]

theorem lackIn?_eq_none_iff :
    f.lackIn? fields = none ↔
      (f.optional = false → (Value.lookup? fields f.name).isSome = true) := by
  unfold lackIn? isLacking
  cases f.optional <;> cases Value.lookup? fields f.name <;> simp

/-- **The error for a key that is lacking** is that of the first one. -/
theorem findSome?_lackIn? (fs : List RecordKey) :
    fs.findSome? (·.lackIn? fields) =
      (fs.find? (·.isLacking fields)).map fun f => .missing f.name := by
  induction fs with
  | nil => rfl
  | cons f fs ih =>
    rw [List.findSome?_cons, List.find?_cons, lackIn?]
    cases f.isLacking fields
    · exact ih
    · rfl

end RecordKey

/-! ## Keys that are not declared -/

namespace Value

theorem lookup?_filter {keep : String → Bool} {k : String} (hk : keep k = true) :
    lookup? (fields.filter fun p => keep p.1) k = lookup? fields k := by
  induction fields with
  | nil => rfl
  | cons p fields ih =>
    unfold lookup? at ih ⊢
    by_cases hkey : k = p.1
    · rw [List.filter_cons_of_pos (by rw [← hkey, hk]), List.lookup_cons, List.lookup_cons, hkey,
        beq_self_eq_true]
    · rw [List.lookup_cons, beq_eq_false_iff_ne.mpr hkey, ← ih, List.filter_cons]
      split
      · rw [List.lookup_cons, beq_eq_false_iff_ne.mpr hkey]
      · rfl

theorem lookup?_insert {before after extra : List (String × Value)} {k : String}
    (hk : ∀ p ∈ extra, p.1 ≠ k) :
    lookup? (before ++ extra ++ after) k = lookup? (before ++ after) k := by
  have hextra : extra.lookup k = none :=
    List.lookup_eq_none_iff.mpr fun p hp => bne_iff_ne.mpr (hk p hp).symm
  simp only [lookup?, List.lookup_append, hextra, Option.or_none]

end Value

/-! ## How a record type reads a record -/

namespace Schema

variable {t : Schema}

theorem decodes_record_iff (ht : t ∈ records) :
    (∃ x, t.decode (.record fields) = .ok x) ↔
      (∀ f ∈ t.declared, ∀ v, Value.lookup? fields f.name = some v → f.kind.Admits v) ∧
        ∀ f ∈ t.declared, f.optional = false → (Value.lookup? fields f.name).isSome = true := by
  rw [← errorOf_eq_none_iff, errorOf_decode_record ht, firstError?, Option.or_eq_none_iff,
    List.findSome?_eq_none_iff, List.findSome?_eq_none_iff]
  simp only [(readOrder_perm t).mem_iff, RecordKey.faultIn?_eq_none_iff,
    RecordKey.lackIn?_eq_none_iff]

theorem decode_record_eq_error_iff (ht : t ∈ records) (hconfig : t ≠ .config) {e : DecodeError} :
    t.decode (.record fields) = .error e ↔
      (∃ f ∈ t.declared, f.faultIn? fields = some e ∧
          ∀ g ∈ t.declared, g.Before f → g.faultIn? fields = none) ∨
        (∀ f ∈ t.declared, f.faultIn? fields = none) ∧
          ∃ f, t.declared.find? (·.isLacking fields) = some f ∧ e = .missing f.name := by
  rw [← errorOf_eq_some_iff, errorOf_decode_record ht, firstError?, Option.or_eq_some_iff,
    List.findSome?_eq_none_iff, RecordKey.findSome?_lackIn?, Option.map_eq_some_iff,
    findSome?_eq_some_iff_of_pairwise RecordKey.Before.not_before (pairwise_readOrder hconfig)]
  simp only [(readOrder_perm t).mem_iff, eq_comm]

/-- **Every record type reads every record by its declared keys**: what else is in the record does
not matter, it decodes when these keys are in order, and the error of one that does not decode is
determined by them. -/
theorem readsKeys (ht : t ∈ records) (fields : List (String × Value)) : t.ReadsKeys fields where
  same _ h := decode_record_congr ht h
  deleted keep hkeep :=
    decode_record_congr ht fun k hk => Value.lookup?_filter (hkeep k hk)
  added before after extra hfields hextra := by
    rw [hfields]
    exact decode_record_congr ht fun k hk =>
      Value.lookup?_insert fun p hp hpk => hextra p hp (hpk ▸ hk)
  decodes := decodes_record_iff ht
  fails hconfig _ := decode_record_eq_error_iff ht hconfig
  wording hconfig hvalid f hf := by
    rw [(decode_record_eq_error_iff ht hconfig).mpr (Or.inr ⟨hvalid, f, hf, rfl⟩)]
    rfl

end Schema

/-! ## A sample -/

/-- A record for a scope with a text for its last line, a number for its type, no name and a key
that is not declared. -/
def Sample.scopeFields : List (String × Value) :=
  [("author", .null), ("endLine", .text "x"), ("type", .int 5)]

/-- The type is declared first, but the last line comes first in the order of bytes. The key that is
not declared may as well be deleted. -/
theorem Schema.readsKeys_sample :
    scope.decode (.record Sample.scopeFields) = .error (.wrongType (.text "x") .word) ∧
      scope.decode (.record (Sample.scopeFields.filter fun p => p.1 != "author")) =
        .error (.wrongType (.text "x") .word) := by
  have hreads := readsKeys (t := scope) (by decide) Sample.scopeFields
  have hfails : scope.decode (.record Sample.scopeFields) =
      .error (.wrongType (.text "x") .word) :=
    (hreads.fails (by decide) _).mpr
      (Or.inl ⟨⟨"endLine", .word, false⟩, by decide, rfl, by decide⟩)
  exact ⟨hfails, (hreads.deleted (· != "author") (by decide)).trans hfails⟩

end HunkScope
