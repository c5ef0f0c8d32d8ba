import HunkScope.Proofs.Arena.Growth
import HunkScope.Proofs.Scope.Fewer

/-!
# The two loop rules

A `for` loop is named by one of two rules: by the row its `in` stands on, or by its two fields. On a
*plain* loop (`PlainLoop`), where no child but the two fields could be taken for the variable or the
iterable, the first rule finds what the second finds or nothing at all. So a search by rows is made
some of the offers that a search by fields is made, in the same order, and lacks loops only.

Leaving out loops never helps the others: among fewer offers the pick is no smaller, and a pick that
is not a loop stays the pick.

Headlines:
* `PlainLoop.loopParts?`: on a plain loop the rule by rows finds what the rule by fields finds.
* `PlainLoops.offers_eq_filter`: the offers by rows are those by fields without some loops.
* **`scopeOf?_byField_rowOfIn`**: how the scopes of the two searches compare.
-/

namespace HunkScope

namespace Arena

/-- The field a node fills. -/
def fieldOf? (a : Arena) (id : Nat) : Option String := (a.node? id).bind (·.field)

/-- One child of a loop fills the field of the variable, one that of the iterable, the first is no
call, and no other child is an identifier or a call. -/
structure PlainLoop (a : Arena) (id target iterable : Nat) : Prop where
  target_mem : target ∈ a.childrenOf id
  left : ∀ c ∈ a.childrenOf id, a.fieldOf? c = some "left" ↔ c = target
  iterable_mem : iterable ∈ a.childrenOf id
  right : ∀ c ∈ a.childrenOf id, a.fieldOf? c = some "right" ↔ c = iterable
  not_call : a.kindOf? target ≠ some "call"
  others : ∀ c ∈ a.childrenOf id,
    a.kindOf? c = some "identifier" ∨ a.kindOf? c = some "call" → c = target ∨ c = iterable

/-- Every `for` loop that the root reaches is plain. -/
def PlainLoops (a : Arena) : Prop :=
  ∀ id, a.Reaches rootId id → a.kindOf? id = some Construct.forLoop.kind →
    ∃ target iterable, a.PlainLoop id target iterable

variable {a : Arena} {rule : LoopRule} {h : Hunk} {id : Nat}

/-! ## Children by their kind and field -/

theorem childByKind?_eq_some {kind : String} {c : Nat} (hc : a.childByKind? id kind = some c) :
    c ∈ a.childrenOf id ∧ a.kindOf? c = some kind := by
  obtain ⟨hmem, n, hn, hkind⟩ := childWhere?_eq_some hc
  exact ⟨hmem, by rw [kindOf?, hn, Option.map_some, beq_iff_eq.mp hkind]⟩

/-- The one child that fills a field is the first that does. -/
theorem childByField?_eq_some_of_unique {field : String} {only : Nat}
    (hmem : only ∈ a.childrenOf id)
    (hc : ∀ c ∈ a.childrenOf id, a.fieldOf? c = some field ↔ c = only) :
    a.childByField? id field = some only := by
  have hfills : ∀ c, (a.node? c).any (fun n => n.field == some field) = true ↔
      a.fieldOf? c = some field := fun c => by
    rw [fieldOf?]
    cases a.node? c <;> simp
  have hfield := (hc only hmem).mpr rfl
  cases hfind : a.childByField? id field with
  | none => exact absurd ((hfills only).mpr hfield) (List.find?_eq_none.mp hfind only hmem)
  | some c =>
    obtain ⟨hcmem, n, hn, htest⟩ := childWhere?_eq_some hfind
    rw [(hc c hcmem).mp ((hfills c).mp (by rw [hn, Option.any_some, htest]))]

/-! ## Plain loops -/

/-- **On a plain loop the rule by rows finds what the rule by fields finds**, if it finds the two
parts at all. -/
theorem PlainLoop.loopParts? {target iterable : Nat} (hl : a.PlainLoop id target iterable)
    {parts : Nat × Nat} (hp : a.loopParts? .rowOfIn id = some parts) :
    a.loopParts? .byField id = some parts := by
  obtain ⟨hfirst, _, _, _, _, hsecond⟩ := loopParts?_rowOfIn_eq_some_iff.mp hp
  obtain ⟨hmem₁, hkind₁⟩ := childByKind?_eq_some hfirst
  obtain ⟨hmem₂, n, hn, htest⟩ := childWhere?_eq_some hsecond
  have hkind₂ : a.kindOf? parts.2 = some "call" := by
    rw [Bool.and_eq_true, beq_iff_eq] at htest
    rw [kindOf?, hn, Option.map_some, htest.1]
  have hiterable : parts.2 = iterable :=
    (hl.others _ hmem₂ (Or.inr hkind₂)).resolve_left fun heq => hl.not_call (heq ▸ hkind₂)
  have htarget : parts.1 = target := by
    refine (hl.others _ hmem₁ (Or.inl hkind₁)).resolve_right fun heq => ?_
    rw [heq, ← hiterable, hkind₂] at hkind₁
    exact absurd hkind₁ (by decide)
  refine loopParts?_byField_eq_some_iff.mpr ⟨?_, hkind₁, ?_⟩
  · rw [htarget]
    exact childByField?_eq_some_of_unique hl.target_mem hl.left
  · rw [hiterable]
    exact childByField?_eq_some_of_unique hl.iterable_mem hl.right

/-- The rule matters to loops alone. -/
theorem nameOf?_eq_of_ne_forLoop {construct : Construct} (hne : construct ≠ .forLoop)
    (rule rule' : LoopRule) : a.nameOf? rule id construct = a.nameOf? rule' id construct := by
  cases construct with
  | forLoop => exact absurd rfl hne
  | _ => rfl

/-- A contender by rows is one by fields. -/
theorem PlainLoops.contender?_byField (hp : a.PlainLoops) (hid : a.Reaches rootId id)
    {c : Contender} (hc : a.contender? .rowOfIn id = some c) :
    a.contender? .byField id = some c := by
  obtain ⟨n, construct, name, hn, hkind, hname, rfl⟩ := contender?_eq_some_iff.mp hc
  refine contender?_eq_some_iff.mpr ⟨n, construct, name, hn, hkind, ?_, rfl⟩
  by_cases hfor : construct = .forLoop
  · subst hfor
    obtain ⟨target, iterable, hl⟩ := hp id hid (by rw [kindOf?, hn, Option.map_some, hkind])
    obtain ⟨parts, hparts, hpn⟩ := Option.map_eq_some_iff.mp hname
    exact Option.map_eq_some_iff.mpr ⟨parts, hl.loopParts? hparts, hpn⟩
  · rw [nameOf?_eq_of_ne_forLoop hfor, hname]

/-- A contender by fields that is no loop is one by rows. -/
theorem contender?_rowOfIn_of_ne {c : Contender} (hc : a.contender? .byField id = some c)
    (hne : c.scope.construct ≠ .forLoop) : a.contender? .rowOfIn id = some c := by
  obtain ⟨n, construct, name, hn, hkind, hname, rfl⟩ := contender?_eq_some_iff.mp hc
  refine contender?_eq_some_iff.mpr ⟨n, construct, name, hn, hkind, ?_, rfl⟩
  rw [nameOf?_eq_of_ne_forLoop hne, hname]

/-! ## The offers under the two rules -/

/-- The node of an offer makes an offer by rows as well. -/
def offersByRow (a : Arena) (h : Hunk) (o : Offer) : Bool := (a.offer? .rowOfIn h o.node).isSome

theorem PlainLoops.offer?_eq_filter (hp : a.PlainLoops) (hid : a.Reaches rootId id) :
    a.offer? .rowOfIn h id = (a.offer? .byField h id).filter (a.offersByRow h) := by
  cases hrow : a.offer? .rowOfIn h id with
  | some o =>
    obtain ⟨hcovers, c, hc, rfl⟩ := offer?_eq_some_iff.mp hrow
    rw [offer?_eq_some_iff.mpr ⟨hcovers, c, hp.contender?_byField hid hc, rfl⟩, Option.filter_some,
      if_pos (by rw [offersByRow, hrow]; rfl)]
  | none =>
    cases hfield : a.offer? .byField h id with
    | none => rfl
    | some o =>
      obtain rfl := node_of_offer? hfield
      rw [Option.filter_some, if_neg (by rw [offersByRow, hrow]; exact Bool.false_ne_true)]

/-- **The offers by rows are those by fields without some.** -/
theorem PlainLoops.offers_eq_filter (hp : a.PlainLoops) (ha : a.Linked) :
    a.offers .rowOfIn h = (a.offers .byField h).filter (a.offersByRow h) := by
  rw [offers, offers, List.filter_filterMap]
  refine List.filterMap_congr fun id hid => hp.offer?_eq_filter ?_
  have hid := List.mem_of_mem_filter hid
  rw [visited_eq_listing ha] at hid
  exact reaches_of_mem_listing ha _ ha.grounded_root hid

/-- **Only loops are left out.** -/
theorem offersByRow_of_mem {o : Offer} (ho : o ∈ a.offers .byField h)
    (hne : o.scope.construct ≠ .forLoop) : a.offersByRow h o = true := by
  obtain ⟨id, -, hid⟩ := List.mem_filterMap.mp ho
  obtain ⟨hcovers, c, hc, rfl⟩ := offer?_eq_some_iff.mp hid
  rw [offersByRow, offer?_eq_some_iff.mpr ⟨hcovers, c, contender?_rowOfIn_of_ne hc hne, rfl⟩]
  rfl

theorem PlainLoops.scopeOf?_rowOfIn (hp : a.PlainLoops) (ha : a.Linked) (h : Hunk) :
    a.scopeOf? .rowOfIn h =
      (pick ((sinceLast (Offer.isLocal a) (a.offers .byField h)).filter (a.offersByRow h))).map
        Offer.scope := by
  have hlocal : ∀ o ∈ a.offers .byField h, o.isLocal a = true → a.offersByRow h o = true := by
    intro o ho hloc
    refine offersByRow_of_mem ho fun hfor => ?_
    rw [Offer.isLocal, hfor] at hloc
    cases hloc
  rw [scopeOf?_eq_pick_offers ha, hp.offers_eq_filter ha, sinceLast_filter hlocal]

/-- **How the two searches compare** where all loops are plain. Without a scope by fields there is
none by rows; the scope by fields is no larger; and when it is no loop, it is the scope by rows. -/
theorem scopeOf?_byField_rowOfIn (ha : a.Built) (hp : a.PlainLoops) (h : Hunk) :
    (a.scopeOf? .byField h = none → a.scopeOf? .rowOfIn h = none) ∧
      (∀ s r, a.scopeOf? .byField h = some s → a.scopeOf? .rowOfIn h = some r →
        s.firstLine ≤ s.lastLine ∧ r.firstLine ≤ r.lastLine ∧ s.extent ≤ r.extent) ∧
      ∀ s, a.scopeOf? .byField h = some s → s.construct ≠ .forLoop →
        a.scopeOf? .rowOfIn h = some s := by
  have hl := ha.linked
  have hfields := scopeOf?_eq_pick_offers hl .byField h
  have hrows := hp.scopeOf?_rowOfIn hl h
  refine ⟨fun hnone => ?_, fun s r hs hr => ?_, fun s hs hne => ?_⟩
  · rw [hfields, Option.map_eq_none_iff, pick_eq_none_iff] at hnone
    rw [hrows, hnone]
    rfl
  · refine ⟨firstLine_le_lastLine_of_scopeOf? hl hs, firstLine_le_lastLine_of_scopeOf? hl hr, ?_⟩
    rw [hfields] at hs
    rw [hrows] at hr
    obtain ⟨w, hw, rfl⟩ := Option.map_eq_some_iff.mp hs
    obtain ⟨v, hv, rfl⟩ := Option.map_eq_some_iff.mp hr
    exact extent_le_of_pick_filter hw hv
  · rw [hfields] at hs
    obtain ⟨w, hw, rfl⟩ := Option.map_eq_some_iff.mp hs
    obtain ⟨older, hos, -, -⟩ := exists_append_sinceLast (Offer.isLocal a) (a.offers .byField h)
    have hkeep : ∀ o ∈ sinceLast (Offer.isLocal a) (a.offers .byField h),
        o.scope.construct ≠ .forLoop → a.offersByRow h o = true := fun o ho =>
      offersByRow_of_mem (hos ▸ List.mem_append_right older ho)
    rw [hrows, pick_filter hw (hkeep w (mem_smallest_iff.mp (mem_smallest_of_pick hw)).1 hne)
      fun o ho hbranch => hkeep o ho fun hfor => ?_, Option.map_some]
    rw [Offer.isBranch, hfor] at hbranch
    cases hbranch

end Arena

/-! ## A sample -/

namespace Sample

/-- A function whose body is a loop over a list; in the loop another one over a call, then a
branch. -/
def loops : Arena :=
  grown "fi[1]jg()x>1" (info "module" none 0 9 ⟨0, 12⟩)
    [(0, info "function_definition" none 0 8 ⟨0, 0⟩),
      (1, info "identifier" (some "name") 0 0 ⟨0, 1⟩),
      (1, info "block" (some "body") 1 8 ⟨0, 0⟩),
      (3, info "for_statement" none 1 8 ⟨0, 0⟩),
      (4, info "identifier" (some "left") 1 1 ⟨1, 2⟩),
      (4, info "in" none 1 1 ⟨0, 0⟩),
      (4, info "list" (some "right") 1 1 ⟨2, 5⟩),
      (4, info "block" (some "body") 2 8 ⟨0, 0⟩),
      (8, info "for_statement" none 2 5 ⟨0, 0⟩),
      (9, info "identifier" (some "left") 2 2 ⟨5, 6⟩),
      (9, info "in" none 2 2 ⟨0, 0⟩),
      (9, info "call" (some "right") 2 2 ⟨6, 9⟩),
      (8, info "if_statement" none 6 8 ⟨0, 0⟩),
      (13, info "comparison_operator" none 6 6 ⟨9, 12⟩)]

theorem plainLoops_loops : loops.PlainLoops := by
  have hloop : ∀ id < loops.size, loops.kindOf? id = some Construct.forLoop.kind →
      id = 4 ∨ id = 9 := by decide
  intro id hid hkind
  have hlt := ((built_grown _ _ _).linked.grounded_of_reaches hid).1
  rcases hloop id hlt hkind with rfl | rfl
  · exact ⟨5, 7, by decide, by decide, by decide, by decide, by decide, by decide⟩
  · exact ⟨10, 12, by decide, by decide, by decide, by decide, by decide, by decide⟩

end Sample

/-- On line 2 only the rule by fields has a loop to offer, which is as long as the function less a
line; on line 7 both rules come to the branch. -/
theorem Arena.scopeOf?_byField_rowOfIn_sample :
    Sample.loops.scopeOf? .byField ⟨2, 2⟩ = some ⟨.forLoop, "for i in [1]", 2, 9⟩ ∧
      Sample.loops.scopeOf? .rowOfIn ⟨2, 2⟩ = some ⟨.function, "f", 1, 9⟩ ∧
      (Scope.mk .forLoop "for i in [1]" 2 9).extent ≤ (Scope.mk .function "f" 1 9).extent ∧
      Sample.loops.scopeOf? .rowOfIn ⟨7, 7⟩ = some ⟨.branch, "if x>1", 7, 9⟩ := by
  have hfields : Sample.loops.scopeOf? .byField ⟨2, 2⟩ =
      some ⟨.forLoop, "for i in [1]", 2, 9⟩ := by decide
  have hrows : Sample.loops.scopeOf? .rowOfIn ⟨2, 2⟩ = some ⟨.function, "f", 1, 9⟩ := by decide
  have hbuilt : Sample.loops.Built := Sample.built_grown _ _ _
  refine ⟨hfields, hrows, ?_, ?_⟩
  · exact ((scopeOf?_byField_rowOfIn hbuilt Sample.plainLoops_loops ⟨2, 2⟩).2.1 _ _
      hfields hrows).2.2
  · exact (scopeOf?_byField_rowOfIn hbuilt Sample.plainLoops_loops ⟨7, 7⟩).2.2 _
      (by decide) (by decide)

end HunkScope
