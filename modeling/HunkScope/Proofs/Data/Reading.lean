import HunkScope.Data.Decode

/-!
# Reading values

When a value decodes, and to what. A key that is read gives what its value decodes to; a key that
is missing gives nothing, and a key that is insisted on has to be there.

The keys of a record type fill different places of its draft. So a record may be read in any order,
as far as it decodes: it decodes to a thing exactly when each key reads as the part of the thing
that it stands for. A list decodes when it has an element for each key and the record with these
elements decodes.

Headlines:
* `word_eq_ok_iff`, `named_eq_ok_iff` and their like: which values decode to a scalar or to a thing
  with a name.
* `key?_eq_some_iff`, `key?_eq_none_iff`: what reading a key gives.
* `named_lookup`: a thing that is listed under its name is found by its name.
* **`RecordType.readKeys_perm`**, **`RecordType.ofFields_eq_ok_iff`**: in what order keys are read
  does not matter for what a record decodes to.
* **`RecordType.ofItems_eq_ok_iff`**, **`RecordType.length_of_ofItems`**: when a list decodes.
* `RecordType.ofFields_ofWords_eq_ok_iff`, `Scope.decode_record_eq_ok_iff` and their like for
  verdicts and options: when a record of the type decodes.
-/

namespace HunkScope

namespace Decode

variable {α β : Type}

/-! ## Steps -/

section Steps

variable {ε : Type} {x : Except ε α}

theorem bind_eq_ok_iff {f : α → Except ε β} {b : β} :
    x >>= f = .ok b ↔ ∃ a, x = .ok a ∧ f a = .ok b := by
  cases x with
  | error e => exact ⟨nofun, nofun⟩
  | ok a => exact ⟨fun h => ⟨a, rfl, h⟩, fun ⟨_, rfl, h⟩ => h⟩

theorem pure_eq_ok_iff {a b : α} : (pure a : Except ε α) = .ok b ↔ a = b :=
  ⟨Except.ok.inj, congrArg Except.ok⟩

theorem map_eq_ok_iff {f : α → β} {b : β} : x.map f = .ok b ↔ ∃ a, x = .ok a ∧ f a = b := by
  cases x with
  | error e => exact ⟨nofun, nofun⟩
  | ok a => exact ⟨fun h => ⟨a, rfl, Except.ok.inj h⟩, fun ⟨_, rfl, h⟩ => congrArg Except.ok h⟩

end Steps

/-! ## Scalars -/

theorem word_eq_ok_iff {v : Value} {w : UInt32} : word v = .ok w ↔ v = .word w := by
  constructor
  · intro h
    cases v with
    | int i =>
      rw [word] at h
      split at h
      · rename_i hi
        obtain rfl := Except.ok.inj h
        rw [Value.word, UInt32.toNat_ofNat_of_lt' hi.2, Int.toNat_of_nonneg hi.1]
      · cases h
    | null | bool | float | text | list | record => cases h
  · rintro rfl
    exact word_word w

theorem text_eq_ok_iff {v : Value} {s : String} : text v = .ok s ↔ v = .text s := by
  cases v <;> simp [text, mismatch]

theorem bool_eq_ok_iff {v : Value} {b : Bool} : bool v = .ok b ↔ v = .bool b := by
  cases v <;> simp [bool, mismatch]

theorem unit_eq_ok_iff {v : Value} : unit v = .ok () ↔ v = .null := by
  cases v <;> simp [unit, mismatch]

theorem unitOrEmpty_eq_ok_iff {v : Value} :
    unitOrEmpty v = .ok () ↔ v = .null ∨ v = .record [] := by
  unfold unitOrEmpty
  split <;> simp_all [unit_eq_ok_iff]

theorem exists_nullable_iff {read : Decoder α} {v : Value} :
    (∃ o, nullable read v = .ok o) ↔ v = .null ∨ ∃ x, read v = .ok x := by
  unfold nullable
  split
  · exact ⟨fun _ => Or.inl rfl, fun _ => ⟨none, rfl⟩⟩
  · rename_i hv
    simp only [map_eq_ok_iff]
    exact ⟨fun ⟨_, x, hx, _⟩ => Or.inr ⟨x, hx⟩,
      fun h => (h.resolve_left hv).elim fun x hx => ⟨some x, x, hx, rfl⟩⟩

/-! ## Keys -/

variable {fields : List (String × Value)} {key : String} {read : Decoder α}

/-- **A key reads as something** when it is there and its value decodes to that. -/
theorem key?_eq_some_iff {x : α} :
    key? fields key read = .ok (some x) ↔
      ∃ v, Value.lookup? fields key = some v ∧ read v = .ok x := by
  unfold key?
  cases Value.lookup? fields key with
  | none => simp
  | some v => simp [map_eq_ok_iff]

/-- **A key reads as nothing** when it is missing. -/
theorem key?_eq_none_iff :
    key? fields key read = .ok none ↔ Value.lookup? fields key = none := by
  unfold key?
  cases Value.lookup? fields key with
  | none => simp
  | some v => simp [map_eq_ok_iff]

theorem require_eq_ok_iff {o : Option α} {x : α} : require key o = .ok x ↔ o = some x := by
  cases o with
  | none => exact ⟨nofun, nofun⟩
  | some y => rw [require, Except.ok.injEq, Option.some.injEq]

/-! ## Names -/

theorem find_eq_ok_iff {known : List (String × α)} {s : String} {x : α} :
    named.find known s = .ok x ↔ known.lookup s = some x := by
  unfold named.find
  cases known.lookup s <;> simp

/-- **What has a name decodes** from its name, or from a record with its name as the only key. -/
theorem named_eq_ok_iff {known : List (String × α)} {content : Decoder Unit} {v : Value} {x : α} :
    named known content v = .ok x ↔ ∃ s, known.lookup s = some x ∧
      (v = .text s ∨ ∃ w, v = .record [(s, w)] ∧ content w = .ok ()) := by
  unfold named
  split
  · simp [find_eq_ok_iff]
  · simp only [bind_eq_ok_iff, find_eq_ok_iff, pure_eq_ok_iff]
    constructor
    · rintro ⟨y, hy, ⟨⟩, hcontent, rfl⟩
      exact ⟨_, hy, Or.inr ⟨_, rfl, hcontent⟩⟩
    · rintro ⟨s, hs, hv | ⟨w, hv, hcontent⟩⟩
      · cases hv
      · cases hv
        exact ⟨x, hs, (), hcontent, rfl⟩
  · rename_i hnot
    simp only [reduceCtorEq, false_iff]
    rintro ⟨s, -, hv | ⟨w, hv, -⟩⟩
    · cases hv
    · cases hv
      exact hnot s w rfl
  · rename_i htext hone hrecord
    simp only [mismatch, reduceCtorEq, false_iff]
    rintro ⟨s, -, hv | ⟨w, hv, -⟩⟩
    · exact htext s hv
    · exact hrecord _ hv

/-- **What is listed under its name is found by its name**, when no two names are the same. -/
theorem lookup_names_eq_some_iff {name : α → String} (hname : Function.Injective name)
    {all : List α} {s : String} {x : α} :
    (all.map fun y => (name y, y)).lookup s = some x ↔ x ∈ all ∧ name x = s := by
  induction all with
  | nil => simp
  | cons y ys ih =>
    rw [List.map_cons, List.lookup_cons, List.mem_cons]
    by_cases hy : s = name y
    · rw [beq_iff_eq.mpr hy, Option.some.injEq]
      constructor
      · rintro rfl
        exact ⟨Or.inl rfl, hy.symm⟩
      · rintro ⟨-, hx⟩
        exact (hname (hx.trans hy)).symm
    · rw [beq_eq_false_iff_ne.mpr hy, ih]
      refine and_congr_left fun hx => (or_iff_right ?_).symm
      rintro rfl
      exact hy hx.symm

theorem named_lookup {name : α → String} (hname : Function.Injective name) {all : List α} {x : α}
    (hx : x ∈ all) (content : Decoder Unit) :
    named (all.map fun y => (name y, y)) content (.text (name x)) = .ok x :=
  named_eq_ok_iff.mpr ⟨name x, (lookup_names_eq_some_iff hname).mpr ⟨hx, rfl⟩, Or.inl rfl⟩

end Decode

open Decode

/-! ## Record types -/

theorem Key.Apart.symm {δ : Type} {k l : Key δ} (h : k.Apart l) : l.Apart k :=
  fun x y d => (h y x d).symm

theorem Decode.sortByKey_perm {κ : Type _} (key : κ → String) (things : List κ) :
    (sortByKey key things).Perm things := List.mergeSort_perm _ _

namespace RecordType

variable {δ α : Type} {r : RecordType δ α} {fields : List (String × Value)} {items : List Value}

theorem readKeys_nil_eq_ok_iff {d e : δ} : readKeys fields [] d = .ok e ↔ d = e := pure_eq_ok_iff

theorem readKeys_cons_eq_ok_iff {k : Key δ} {ks : List (Key δ)} {d e : δ} :
    readKeys fields (k :: ks) d = .ok e ↔
      ∃ x, key? fields k.name k.read = .ok x ∧ readKeys fields ks (k.keep x d) = .ok e :=
  bind_eq_ok_iff

/-- **Keys that are apart may be read in any order.** -/
theorem readKeys_perm {ks ls : List (Key δ)} (hperm : ks.Perm ls)
    (hapart : ks.Pairwise Key.Apart) (d e : δ) :
    readKeys fields ks d = .ok e ↔ readKeys fields ls d = .ok e := by
  induction hperm generalizing d with
  | nil => rfl
  | cons k _ ih => simp only [readKeys_cons_eq_ok_iff, ih hapart.of_cons]
  | swap k l ks =>
    have hlk : l.Apart k := (List.pairwise_cons.mp hapart).1 k List.mem_cons_self
    simp only [readKeys_cons_eq_ok_iff]
    constructor
    · rintro ⟨y, hy, x, hx, he⟩
      exact ⟨x, hx, y, hy, hlk y x d ▸ he⟩
    · rintro ⟨x, hx, y, hy, he⟩
      exact ⟨y, hy, x, hx, (hlk y x d).symm ▸ he⟩
  | trans hkl _ ih1 ih2 =>
    exact (ih1 hapart d).trans (ih2 ((hkl.pairwise_iff Key.Apart.symm).mp hapart) d)

/-- **A record decodes** when its keys, taken in the order of declaration, read into a draft that
lacks nothing. -/
theorem ofFields_eq_ok_iff {x : α} :
    r.ofFields fields = .ok x ↔
      ∃ d, readKeys fields r.keys r.blank = .ok d ∧ r.finish d = .ok x := by
  simp only [ofFields, bind_eq_ok_iff, readKeys_perm (sortByKey_perm Key.name r.keys).symm r.apart]

/-! ## Lists for records -/

theorem readItems_cons_eq_ok_iff {k : Key δ} {ks : List (Key δ)} {i : Nat} {d e : δ} :
    r.readItems items (k :: ks) i d = .ok e ↔
      ∃ x, r.element? items i k.read = .ok x ∧ r.readItems items ks (i + 1) (k.keep x d) = .ok e :=
  bind_eq_ok_iff

/-- **Elements read as keys do** that hold them, as long as there is one for each. -/
theorem readItems_eq_readKeys {ks : List (Key δ)} {i : Nat}
    (hlength : i + ks.length ≤ items.length) (hholds : ∀ (j : Nat) (k : Key δ), ks[j]? = some k →
      Value.lookup? fields k.name = items[i + j]?) (d : δ) :
    r.readItems items ks i d = readKeys fields ks d := by
  induction ks generalizing i d with
  | nil => rfl
  | cons k ks ih =>
    rw [List.length_cons] at hlength
    have hread : r.element? items i k.read = key? fields k.name k.read := by
      rw [element?, key?, hholds 0 k rfl, Nat.add_zero, List.getElem?_eq_getElem (by omega)]
    have hrest : ∀ d, r.readItems items ks (i + 1) d = readKeys fields ks d :=
      ih (by omega) fun j l hl => by
        rw [hholds (j + 1) l hl, Nat.add_right_comm, Nat.add_assoc]
    simp only [readItems, readKeys, hread, hrest]

/-- **A list decodes as a record does** that holds an element of it at each key. -/
theorem ofItems_eq_ok_iff (hlength : items.length = r.keys.length)
    (hholds : ∀ (i : Nat) (k : String), r.shape.keys[i]? = some k →
      Value.lookup? fields k = items[i]?) {x : α} :
    r.ofItems items = .ok x ↔ r.ofFields fields = .ok x := by
  have hread : r.readItems items r.keys 0 r.blank = readKeys fields r.keys r.blank := by
    refine readItems_eq_readKeys (by omega) (fun i k hk => ?_) r.blank
    rw [Nat.zero_add]
    exact hholds i k.name (by rw [shape, List.getElem?_map, hk, Option.map_some])
  simp only [ofFields_eq_ok_iff, ofItems, hread, hlength, Nat.le_refl, if_true, bind_eq_ok_iff,
    pure_eq_ok_iff, exists_eq_right]

theorem length_of_readItems (hdefaults : r.hasDefaults = false) {ks : List (Key δ)} {i : Nat}
    (hi : i ≤ items.length) {d e : δ} (h : r.readItems items ks i d = .ok e) :
    i + ks.length ≤ items.length := by
  induction ks generalizing i d with
  | nil => exact hi
  | cons k ks ih =>
    obtain ⟨x, hx, he⟩ := readItems_cons_eq_ok_iff.mp h
    have hlt : i < items.length := by
      refine Decidable.byContradiction fun hge => ?_
      rw [element?, List.getElem?_eq_none (by omega), hdefaults] at hx
      cases hx
    have hrest := ih hlt he
    rw [List.length_cons]
    omega

/-- **A list that decodes has an element for each key**, or fewer if there are defaults. -/
theorem length_of_ofItems {x : α} (h : r.ofItems items = .ok x) :
    items.length = r.keys.length ∨ r.hasDefaults = true ∧ items.length < r.keys.length := by
  simp only [ofItems, bind_eq_ok_iff] at h
  obtain ⟨d, hd, _, _, hx⟩ := h
  have hle : items.length ≤ r.keys.length := by
    refine Decidable.byContradiction fun hgt => ?_
    rw [if_neg hgt] at hx
    cases hx
  cases hdefaults : r.hasDefaults with
  | false =>
    have hge := length_of_readItems hdefaults (Nat.zero_le _) hd
    exact Or.inl (by omega)
  | true => exact (Nat.eq_or_lt_of_le hle).imp_right fun hlt => ⟨rfl, hlt⟩

/-! ## Records of two words -/

section OfWords

variable {name first second : String} {hne : first ≠ second} {make : UInt32 → UInt32 → α}

/-- **A record of two words decodes** when both keys read as words. -/
theorem ofFields_ofWords_eq_ok_iff {z : α} :
    (ofWords name first second hne make).ofFields fields = .ok z ↔
      ∃ x y, key? fields first word = .ok (some x) ∧
        key? fields second word = .ok (some y) ∧ make x y = z := by
  simp only [ofFields_eq_ok_iff, ofWords, readKeys_cons_eq_ok_iff, readKeys_nil_eq_ok_iff,
    bind_eq_ok_iff, require_eq_ok_iff, pure_eq_ok_iff]
  constructor
  · rintro ⟨_, ⟨_, hx, _, hy, rfl⟩, x, rfl, y, rfl, hz⟩
    exact ⟨x, y, hx, hy, hz⟩
  · rintro ⟨x, y, hx, hy, hz⟩
    exact ⟨_, ⟨_, hx, _, hy, rfl⟩, x, rfl, y, rfl, hz⟩

/-- **A list of two words decodes** when it has two elements and both are words. -/
theorem ofItems_ofWords_eq_ok_iff {z : α} :
    (ofWords name first second hne make).ofItems items = .ok z ↔
      ∃ x y, items = [.word x, .word y] ∧ make x y = z := by
  constructor
  · intro h
    match items, (length_of_ofItems h).resolve_right nofun with
    | [u, v], _ =>
      simp only [ofItems, ofWords, readItems, element?, List.getElem?_cons_zero,
        List.getElem?_cons_succ, bind_eq_ok_iff, map_eq_ok_iff, word_eq_ok_iff] at h
      obtain ⟨_, ⟨_, ⟨x, rfl, rfl⟩, _, ⟨y, rfl, rfl⟩, ⟨⟩⟩, _, ⟨_, ⟨⟩, _, ⟨⟩, ⟨⟩⟩, ⟨⟩⟩ := h
      exact ⟨x, y, rfl, rfl⟩
  · rintro ⟨x, y, rfl, rfl⟩
    simp only [ofItems, ofWords, readItems, element?, List.getElem?_cons_zero,
      List.getElem?_cons_succ, word_word]
    rfl

/-- **Two words decode** from a list of them, or from a record with both keys. -/
theorem exists_ofWords_iff {v : Value} :
    (∃ z, (ofWords name first second hne make).decode v = .ok z) ↔
      (∃ x y, v = .list [.word x, .word y]) ∨ ∃ fields x y, v = .record fields ∧
        Value.lookup? fields first = some (.word x) ∧
          Value.lookup? fields second = some (.word y) := by
  cases v with
  | list items =>
    simp only [decode, ofItems_ofWords_eq_ok_iff]
    constructor
    · rintro ⟨-, x, y, rfl, -⟩
      exact Or.inl ⟨x, y, rfl⟩
    · rintro (⟨x, y, hitems⟩ | ⟨_, _, _, hv, -⟩)
      · exact ⟨make x y, x, y, Value.list.inj hitems, rfl⟩
      · cases hv
  | record fields =>
    simp only [decode, ofFields_ofWords_eq_ok_iff, key?_eq_some_iff, word_eq_ok_iff,
      exists_eq_right]
    constructor
    · rintro ⟨-, x, y, hx, hy, -⟩
      exact Or.inr ⟨fields, x, y, rfl, hx, hy⟩
    · rintro (⟨_, _, hv⟩ | ⟨_, x, y, hv, hx, hy⟩)
      · cases hv
      · obtain rfl := Value.record.inj hv
        exact ⟨make x y, x, y, hx, hy, rfl⟩
  | null | bool | int | float | text => simp [decode, mismatch]

end OfWords

end RecordType

/-! ## Constructs and loop rules -/

theorem LoopRule.name_injective : Function.Injective LoopRule.name := by
  intro r s h
  cases r <;> cases s <;> simp_all [name]

theorem Construct.decode_eq_ok_iff {v : Value} {c : Construct} :
    decode v = .ok c ↔ v = .text c.kind ∨ v = .record [(c.kind, .null)] := by
  simp only [decode, named_eq_ok_iff, lookup_names_eq_some_iff fun _ _ => kind_injective, mem_all,
    true_and, exists_eq_left', unit_eq_ok_iff, exists_eq_right]

theorem LoopRule.lookup_byName_eq_some_iff {s : String} {r : LoopRule} :
    byName.lookup s = some r ↔ r.name = s := by
  have hall : r ∈ [rowOfIn, byField] := by cases r <;> decide
  rw [byName, lookup_names_eq_some_iff name_injective, and_iff_right hall]

theorem LoopRule.decode_eq_ok_iff {v : Value} {r : LoopRule} :
    decode v = .ok r ↔ v = .text r.name ∨ v = .record [(r.name, .null)] := by
  simp only [decode, named_eq_ok_iff, lookup_byName_eq_some_iff, exists_eq_left', unit_eq_ok_iff,
    exists_eq_right]

theorem LoopRule.decodeLoosely_eq_ok_iff {v : Value} {r : LoopRule} :
    decodeLoosely v = .ok r ↔ v = .text r.name ∨ v = .record [(r.name, .null)] ∨
      v = .record [(r.name, .record [])] := by
  simp only [decodeLoosely, named_eq_ok_iff, lookup_byName_eq_some_iff, exists_eq_left',
    unitOrEmpty_eq_ok_iff, and_or_left, exists_or, exists_eq_right]

variable {fields : List (String × Value)}

/-- **A record decodes to a scope** when its keys read as the parts of the scope. -/
theorem Scope.decode_record_eq_ok_iff {s : Scope} :
    decode (.record fields) = .ok s ↔
      key? fields "type" Construct.decode = .ok (some s.construct) ∧
      key? fields "name" text = .ok (some s.name) ∧
      key? fields "startLine" word = .ok (some s.firstLine) ∧
      key? fields "endLine" word = .ok (some s.lastLine) := by
  change recordType.ofFields fields = .ok s ↔ _
  simp only [RecordType.ofFields_eq_ok_iff, recordType, RecordType.readKeys_cons_eq_ok_iff,
    RecordType.readKeys_nil_eq_ok_iff, bind_eq_ok_iff, require_eq_ok_iff, pure_eq_ok_iff]
  constructor
  · rintro ⟨_, ⟨_, hcon, _, hname, _, hfirst, _, hlast, rfl⟩, _, rfl, _, rfl, _, rfl, _, rfl, rfl⟩
    exact ⟨hcon, hname, hfirst, hlast⟩
  · rintro ⟨hcon, hname, hfirst, hlast⟩
    exact ⟨_, ⟨_, hcon, _, hname, _, hfirst, _, hlast, rfl⟩, _, rfl, _, rfl, _, rfl, _, rfl, rfl⟩

/-- A record decodes to a verdict when its keys do; without a site its key is missing, or null. -/
theorem Verdict.decode_record_eq_ok_iff {v : Verdict} :
    decode (.record fields) = .ok v ↔
      key? fields "valid" bool = .ok (some v.valid) ∧
      key? fields "error" text = .ok (some v.reason) ∧
      ∃ site, key? fields "errorPosition" (nullable FaultSite.decode) = .ok site ∧
        site.join = v.site := by
  change recordType.ofFields fields = .ok v ↔ _
  simp only [RecordType.ofFields_eq_ok_iff, recordType, RecordType.readKeys_cons_eq_ok_iff,
    RecordType.readKeys_nil_eq_ok_iff, bind_eq_ok_iff, require_eq_ok_iff, pure_eq_ok_iff]
  constructor
  · rintro ⟨_, ⟨_, hvalid, _, hreason, site, hsite, rfl⟩, _, rfl, _, rfl, rfl⟩
    exact ⟨hvalid, hreason, site, hsite, rfl⟩
  · rintro ⟨hvalid, hreason, site, hsite, hjoin⟩
    exact ⟨_, ⟨_, hvalid, _, hreason, site, hsite, rfl⟩, _, rfl, _, rfl, by rw [hjoin]⟩

/-- **Options are read from one key**, whichever way its value is read. -/
theorem Options.ofFields_recordType (rule : Decoder LoopRule) (fields : List (String × Value)) :
    (recordType rule).ofFields fields =
      (key? fields "forIterable" rule).map fun r => ⟨r.getD .standard⟩ := by
  have hkeys : sortByKey Key.name (recordType rule).keys = (recordType rule).keys :=
    List.mergeSort_singleton _
  rw [RecordType.ofFields, hkeys]
  simp only [recordType, RecordType.readKeys]
  cases key? fields "forIterable" rule <;> rfl

end HunkScope
