import HunkScope.Proofs.Data.Keys

/-!
# Lists that stand for records

A record type but a configuration also decodes from a list, with an element for each key in the
order of declaration. The two forms are read in different orders, the list from its front and the
record by the bytes of its keys, so they may fail with different errors. But they decode together,
and to the same: only what the values are matters, not in which order they are read.

* `Schema.listed`: the types that decode from lists.
* `Schema.Keyed`: a record holds the elements of a list at the declared keys.
* `Schema.ReadsLists`: all that is said here of one type.

Headlines:
* `keyed_zip`: the declared keys, each with the element at its place, hold the elements of a list.
* `decode_list_iff`: a list decodes to what a record with its elements decodes to.
* `length_of_decode_list`: a list that decodes has an element for each key, but for empty options.
* **`readsLists`**: every such type reads lists so.
-/

namespace HunkScope

open Decode

namespace Schema

/-- The types that decode from lists as well as from records. -/
def listed : List Schema := [hunk, point, faultSite, scope, verdict, options]

/-- A record holds the elements of a list at the declared keys, the first element at the key that is
declared first and so on. -/
def Keyed (t : Schema) (fields : List (String × Value)) (items : List Value) : Prop :=
  ∀ (i : Nat) (k : String), t.keys[i]? = some k → Value.lookup? fields k = items[i]?

/-- How a type reads lists. -/
structure ReadsLists (t : Schema) : Prop where
  /-- The declared keys, each with the element at its place, are a record with these elements. -/
  keyed : ∀ items, t.Keyed (t.keys.zip items) items
  /-- A list with an element for each key decodes when a record with these elements does, and to the
  same. -/
  alike : ∀ items fields, items.length = t.keys.length → t.Keyed fields items →
    ∀ x, t.decode (.list items) = .ok x ↔ t.decode (.record fields) = .ok x
  /-- A list of another length is refused, unless it is empty and stands for options. -/
  refused : ∀ items, items.length ≠ t.keys.length → ¬ (t = .options ∧ items = []) →
    ∃ e, t.decode (.list items) = .error e

end Schema

/-! ## Keys and elements -/

/-- **Among keys that are all different each is found with the element at its place.** -/
theorem lookup_zip {α β : Type} [BEq α] [LawfulBEq α] {keys : List α} (hnodup : keys.Nodup)
    {items : List β} {i : Nat} {k : α} (hk : keys[i]? = some k) :
    (keys.zip items).lookup k = items[i]? := by
  induction keys generalizing items i with
  | nil => simp at hk
  | cons key keys ih =>
    obtain ⟨hkey, hnodup⟩ := List.nodup_cons.mp hnodup
    cases items with
    | nil => simp
    | cons v items =>
      rw [List.zip_cons_cons, List.lookup_cons]
      cases i with
      | zero =>
        obtain rfl := Option.some.inj hk
        rw [beq_self_eq_true]
        rfl
      | succ i =>
        rw [List.getElem?_cons_succ] at hk ⊢
        have hne : k ≠ key := by
          rintro rfl
          exact hkey (List.mem_of_getElem? hk)
        rw [beq_eq_false_iff_ne.mpr hne]
        exact ih hnodup hk

/-! ## Two forms of one value -/

namespace Schema

variable {t : Schema} {items : List Value}

/-- **The keys with the elements at their places** are a record with these elements. -/
theorem keyed_zip (t : Schema) (items : List Value) : t.Keyed (t.keys.zip items) items :=
  fun _ _ hk => lookup_zip t.nodup_keys hk

/-- **A list decodes to what a record with its elements decodes to.** -/
theorem decode_list_iff (ht : t ∈ listed) {fields : List (String × Value)}
    (hlength : items.length = t.keys.length) (hkeyed : t.Keyed fields items) (x : t.Carrier) :
    t.decode (.list items) = .ok x ↔ t.decode (.record fields) = .ok x := by
  cases t with
  | hunk | point | faultSite | scope | verdict | options =>
    exact RecordType.ofItems_eq_ok_iff hlength hkeyed
  | config | construct | loopRule => exact absurd ht (by decide)

/-- **A list that decodes has an element for each key**, unless it is empty and stands for
options. -/
theorem length_of_decode_list (ht : t ∈ listed) {x : t.Carrier}
    (hx : t.decode (.list items) = .ok x) :
    items.length = t.keys.length ∨ t = .options ∧ items = [] := by
  cases t with
  | hunk | point | faultSite | scope | verdict =>
    exact Or.inl ((RecordType.length_of_ofItems hx).resolve_right nofun)
  | options =>
    refine (RecordType.length_of_ofItems hx).imp_right fun ⟨_, hlt⟩ => ⟨rfl, ?_⟩
    exact List.length_eq_zero_iff.mp (Nat.lt_one_iff.mp hlt)
  | config | construct | loopRule => exact absurd ht (by decide)

/-- **Lists and records decode alike**, to the same or not at all, and a list of the wrong length is
refused. Only options may be given by an empty list, which stands for the standard ones. -/
theorem readsLists :
    (∀ t ∈ listed, t.ReadsLists) ∧ Schema.options.decode (.list []) = .ok Options.standard := by
  refine ⟨fun t ht => ?_, rfl⟩
  constructor
  case keyed => exact keyed_zip t
  case alike => exact fun items fields hlength hkeyed x => decode_list_iff ht hlength hkeyed x
  case refused =>
    intro items hlength hempty
    cases hx : t.decode (.list items) with
    | error e => exact ⟨e, rfl⟩
    | ok x => exact absurd (length_of_decode_list ht hx) (not_or.mpr ⟨hlength, hempty⟩)

end Schema

/-! ## A sample -/

/-- The parts of a verdict with a site, itself a list. -/
def Sample.verdictItems : List Value :=
  [.bool false, .text "Syntax errors detected", .list [.int 3, .int 8]]

/-- The record of the same parts, in another order and with a key that is not declared. -/
def Sample.verdictFields : List (String × Value) :=
  [("errorPosition", .list [.int 3, .int 8]), ("note", .null),
    ("error", .text "Syntax errors detected"), ("valid", .bool false)]

/-- The record decodes because the list does; without its last element the list is refused. -/
theorem Schema.readsLists_sample :
    verdict.decode (.record Sample.verdictFields) =
        .ok (Verdict.faulty Verdict.textReason (some ⟨3, 8⟩)) ∧
      ∃ e, verdict.decode (.list (Sample.verdictItems.take 2)) = .error e := by
  have hlists := readsLists.1 verdict (by decide)
  have hkeyed : verdict.Keyed Sample.verdictFields Sample.verdictItems
    | 0, _, rfl | 1, _, rfl | 2, _, rfl => rfl
  exact ⟨(hlists.alike Sample.verdictItems Sample.verdictFields rfl hkeyed _).mp rfl,
    hlists.refused _ (by decide) (by decide)⟩

end HunkScope
