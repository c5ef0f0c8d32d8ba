import HunkScope.Proofs.Scope.RunningBest

/-!
# Texts of nodes and of names

A node says which bytes of the source it stands for. Its text is what stands between these two
offsets, when both of them are boundaries of characters and in order; when no text stands there, it
is empty. So a name that is read off a node is an excerpt of the source, and the name of a branch or
of a `for` loop is made of such names.

* `Addressed`: a text stands between two offsets of a source, counted in bytes of UTF-8.
* `Excerpt`: a text is empty, or stands somewhere in a source.
* `Scope.NamedFrom`: the name of a scope is what its construct makes of excerpts.

Headlines:
* `addressed_iff_slice`: what is addressed is what a slice of the source gives.
* `spanText_of_addressed`, `spanText_of_not_addressed`: the text of a span, with something between
  its offsets or nothing.
* `namedFrom_of_contender?`: a contender is named from the source.
* **`textOf_addressed`**: what the text of a node is, and what the name of a found scope is.
-/

namespace HunkScope

/-- A text stands between two offsets of a source, counted in bytes. -/
def Addressed (source : String) (span : ByteSpan) (t : String) : Prop :=
  ∃ p q : String, source = p ++ t ++ q ∧ p.utf8ByteSize = span.first ∧
    (p ++ t).utf8ByteSize = span.last

/-- A text is empty, or stands somewhere in a source. -/
def Excerpt (source t : String) : Prop := t = "" ∨ ∃ p q : String, source = p ++ t ++ q

/-- The name of a scope is an excerpt of the source; that of a branch and that of a `for` loop hold
excerpts after fixed words. -/
def Scope.NamedFrom (source : String) (s : Scope) : Prop :=
  match s.construct with
  | .function | .classBody | .whileLoop => Excerpt source s.name
  | .branch => ∃ t, Excerpt source t ∧ s.name = "if " ++ t
  | .forLoop => ∃ t u, Excerpt source t ∧ Excerpt source u ∧ s.name = "for " ++ t ++ " in " ++ u

/-! ## What stands between two offsets -/

/-- **Bytes are counted the same** character by character and for the text as a whole. -/
theorem Text.byteCount_toList (s : String) : byteCount s.toList = s.utf8ByteSize := by
  have hlen : ∀ cs : List Char, byteCount cs = (String.ofList cs).utf8ByteSize := by
    intro cs
    induction cs with
    | nil => rfl
    | cons c cs ih =>
      rw [byteCount, ih, ← List.singleton_append, String.ofList_append, String.utf8ByteSize_append,
        ← String.singleton_eq_ofList, String.utf8ByteSize_singleton]
  rw [hlen, String.ofList_toList]

/-- **What is addressed is what a slice gives.** -/
theorem addressed_iff_slice {source t : String} {span : ByteSpan} :
    Addressed source span t ↔
      Text.slice span.first span.last source.toList = some t.toList := by
  rw [Text.slice_eq_some_iff]
  constructor
  · rintro ⟨p, q, hsource, hfirst, hlast⟩
    refine ⟨p.toList, q.toList, by rw [hsource, String.toList_append, String.toList_append], ?_, ?_⟩
    · rw [Text.byteCount_toList, hfirst]
    · rw [← String.toList_append, Text.byteCount_toList, hlast]
  · rintro ⟨p, q, hsource, hfirst, hlast⟩
    refine ⟨String.ofList p, String.ofList q, ?_, ?_, ?_⟩
    · rw [← String.toList_inj, hsource]
      simp only [String.toList_append, String.toList_ofList]
    · rw [← Text.byteCount_toList, String.toList_ofList, hfirst]
    · rw [← Text.byteCount_toList, String.toList_append, String.toList_ofList, hlast]

theorem Addressed.excerpt {source t : String} {span : ByteSpan} (h : Addressed source span t) :
    Excerpt source t := by
  obtain ⟨p, q, hsource, -, -⟩ := h
  exact Or.inr ⟨p, q, hsource⟩

namespace Arena

variable {a : Arena}

/-- **The text of a span is what stands between its offsets.** -/
theorem spanText_of_addressed {span : ByteSpan} {t : String} (h : Addressed a.source span t) :
    a.spanText span = t := by
  rw [spanText, addressed_iff_slice.mp h, Option.getD_some, String.ofList_toList]

/-- **The text of a span is empty when nothing stands between its offsets.** -/
theorem spanText_of_not_addressed {span : ByteSpan} (h : ∀ t, ¬ Addressed a.source span t) :
    a.spanText span = "" := by
  have hslice : Text.slice span.first span.last a.source.toList = none := by
    refine Option.eq_none_iff_forall_ne_some.mpr fun cs hcs => h (String.ofList cs) ?_
    rw [addressed_iff_slice, hcs, String.toList_ofList]
  rw [spanText, hslice, Option.getD_none, String.ofList_nil]

theorem excerpt_spanText (a : Arena) (span : ByteSpan) : Excerpt a.source (a.spanText span) := by
  by_cases h : ∃ t, Addressed a.source span t
  · obtain ⟨t, ht⟩ := h
    rw [spanText_of_addressed ht]
    exact ht.excerpt
  · exact Or.inl (spanText_of_not_addressed (not_exists.mp h))

theorem textOf_of_node {id : Nat} {n : Node} (hn : a.node? id = some n) :
    a.textOf id = a.spanText n.bytes := by
  rw [textOf, hn]

theorem excerpt_textOf (a : Arena) (id : Nat) : Excerpt a.source (a.textOf id) := by
  unfold textOf
  cases a.node? id with
  | none => exact Or.inl rfl
  | some n => exact a.excerpt_spanText n.bytes

/-! ## What a name is made of -/

variable {rule : LoopRule} {h : Hunk}

/-- **A contender is named from the source**, whichever construct it is. -/
theorem namedFrom_of_contender? {id : Nat} {c : Contender} (hc : a.contender? rule id = some c) :
    c.scope.NamedFrom a.source := by
  obtain ⟨n, construct, name, -, -, hname, rfl⟩ := contender?_eq_some_iff.mp hc
  -- The parts of a name are texts of children, so only how they are put together is left to see.
  cases construct with
  | function | classBody | whileLoop =>
    obtain ⟨child, -, rfl⟩ := Option.map_eq_some_iff.mp hname
    exact a.excerpt_textOf child
  | branch =>
    obtain ⟨comparison, -, rfl⟩ := Option.map_eq_some_iff.mp hname
    exact ⟨a.textOf comparison, a.excerpt_textOf comparison, rfl⟩
  | forLoop =>
    obtain ⟨parts, -, rfl⟩ := Option.map_eq_some_iff.mp hname
    exact ⟨a.textOf parts.1, a.textOf parts.2, a.excerpt_textOf parts.1, a.excerpt_textOf parts.2,
      rfl⟩

theorem namedFrom_of_mem_offers {o : Offer} (ho : o ∈ a.offers rule h) :
    o.scope.NamedFrom a.source := by
  obtain ⟨id, -, hoffer⟩ := List.mem_filterMap.mp ho
  obtain ⟨-, c, hc, rfl⟩ := offer?_eq_some_iff.mp hoffer
  exact namedFrom_of_contender? hc

theorem namedFrom_of_scopeOf? (ha : a.Linked) {s : Scope} (hs : a.scopeOf? rule h = some s) :
    s.NamedFrom a.source := by
  rw [scopeOf?_eq_pick_offers ha] at hs
  obtain ⟨o, ho, rfl⟩ := Option.map_eq_some_iff.mp hs
  exact namedFrom_of_mem_offers (mem_of_pick_sinceLast ho)

/-! ## In an arena built over a source -/

theorem source_pushAll : ∀ {rows : List (Nat × NodeInfo)} {a b : Arena},
    a.pushAll rows = .ok b → b.source = a.source
  | [], a, b, hb => by
    obtain rfl := Except.ok.inj hb
    rfl
  | row :: rows, a, b, hb => by
    rw [pushAll_cons] at hb
    cases hrow : a.push row.1 row.2 with
    | error e =>
      rw [hrow] at hb
      cases hb
    | ok c =>
      rw [hrow] at hb
      obtain ⟨-, rfl⟩ := push_eq_ok_iff.mp hrow
      rw [source_pushAll hb, source_attach]

theorem source_build {source : String} {root : NodeInfo} {rows : List (Nat × NodeInfo)}
    (ha : build source root rows = .ok a) : a.source = source :=
  source_pushAll ha

/-- **The text of a node is what stands between its offsets** in the source the arena was built
over, and empty when nothing stands there: the offsets are the wrong way round, past the end or
inside a character. So the name of a scope that a search finds is taken from the source. -/
theorem textOf_addressed {source : String} {root : NodeInfo} {rows : List (Nat × NodeInfo)}
    (ha : build source root rows = .ok a) :
    (∀ id n, a.node? id = some n →
      (∀ t, Addressed source n.bytes t → a.textOf id = t) ∧
        ((∀ t, ¬ Addressed source n.bytes t) → a.textOf id = "")) ∧
      ∀ rule h s, a.scopeOf? rule h = some s → s.NamedFrom source := by
  obtain rfl := source_build ha
  refine ⟨fun id n hn => ⟨fun t ht => ?addressed, fun hnone => ?nothing⟩, fun rule h s hs => ?name⟩
  case addressed => rw [textOf_of_node hn, spanText_of_addressed ht]
  case nothing => rw [textOf_of_node hn, spanText_of_not_addressed hnone]
  case name => exact namedFrom_of_scopeOf? (built_of_build ha).linked hs

end Arena

/-! ## A sample -/

namespace Sample

/-- Names with letters of one byte and of two: `zähle`, `ñ` and `ß()`. -/
def accents : String := "zähleñß()"

/-- A function `zähle` with a `for` loop. The span of its block ends inside a character, and that
of the keyword `in` runs backwards. -/
def accentRows : List (Nat × NodeInfo) :=
  [(0, info "function_definition" none 0 4 ⟨0, 12⟩),
    (1, info "identifier" (some "name") 0 0 ⟨0, 6⟩),
    (1, info "block" (some "body") 1 4 ⟨0, 2⟩),
    (3, info "for_statement" none 1 3 ⟨6, 12⟩),
    (4, info "identifier" (some "left") 1 1 ⟨6, 8⟩),
    (4, info "in" none 1 1 ⟨6, 3⟩),
    (4, info "call" (some "right") 1 1 ⟨8, 12⟩)]

/-- The arena of the names. -/
def accented : Arena := grown accents (info "module" none 0 4 ⟨0, 12⟩) accentRows

theorem build_accented :
    Arena.build accents (info "module" none 0 4 ⟨0, 12⟩) accentRows = .ok accented := rfl

end Sample

/-- The variable of the loop has its text, the block has none, and the loop is named after its two
parts. -/
theorem Arena.textOf_addressed_sample :
    Addressed Sample.accents ⟨6, 8⟩ "ñ" ∧ Sample.accented.textOf 5 = "ñ" ∧
      (∀ t, ¬ Addressed Sample.accents ⟨0, 2⟩ t) ∧ Sample.accented.textOf 3 = "" ∧
      Sample.accented.scopeOf? .rowOfIn ⟨3, 3⟩ = some ⟨.forLoop, "for ñ in ß()", 2, 4⟩ ∧
      Scope.NamedFrom Sample.accents ⟨.forLoop, "for ñ in ß()", 2, 4⟩ := by
  have haddressed : Addressed Sample.accents ⟨6, 8⟩ "ñ" := addressed_iff_slice.mpr (by decide)
  have hnone : ∀ t, ¬ Addressed Sample.accents ⟨0, 2⟩ t := by
    have hslice : Text.slice 0 2 Sample.accents.toList = none := by decide
    intro t ht
    exact Option.some_ne_none _ ((addressed_iff_slice.mp ht).symm.trans hslice)
  have hscope : Sample.accented.scopeOf? .rowOfIn ⟨3, 3⟩ =
      some ⟨.forLoop, "for ñ in ß()", 2, 4⟩ := by decide
  obtain ⟨htext, hname⟩ := textOf_addressed Sample.build_accented
  exact ⟨haddressed, (htext 5 _ rfl).1 "ñ" haddressed, hnone, (htext 3 _ rfl).2 hnone, hscope,
    hname _ _ _ hscope⟩

end HunkScope
