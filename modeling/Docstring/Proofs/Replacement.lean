import Docstring.Proofs.Composed

/-!
# Replacing sections

Where the descendant's sections replace the ancestor's, a merge composes one body for each
section: the descendant's if it has content, else the ancestor's, unless that is raises gone
stale (`docs_eq_compose`). Both come from docstrings that were read, so both are what tidy rows
without a header make of a section (`Plain`).
-/

namespace Docstring

open Text

variable {d : Dialect} {form : HeaderForm} {k : Section} {a b t : Text}

/-! ### Bodies that were read -/

/-- A body as a section has it that was read: what tidy rows without a header make. -/
def Body.Plain (d : Dialect) (k : Section) (b : Body) : Prop :=
  ∃ ls, Body.ofLines k ls = b ∧ (∀ l ∈ ls, Tidy l) ∧ d.HeaderFree ls

namespace Body.Plain

variable {b : Body}

theorem empty (d : Dialect) (k : Section) : Plain d k (Body.empty k) :=
  ⟨[], ofLines_nil k, by simp, trivial⟩

theorem shape (h : Plain d k b) :
    if k.hasItems then ∃ m, b = .items m else ∃ t, b = .text t := by
  obtain ⟨ls, rfl, -, -⟩ := h
  exact shape_ofLines k ls

theorem exists_text (h : Plain d k b) (hk : k.hasItems = false) : ∃ t, b = .text t := by
  simpa [hk] using h.shape

theorem exists_items (h : Plain d k b) (hk : k.hasItems = true) : ∃ m, b = .items m := by
  simpa [hk] using h.shape

theorem tidy (h : Plain d k b) (ht : b.render? d = some t) :
    (∀ r ∈ rows t, Tidy r) ∧ isBlank t = false := by
  obtain ⟨ls, rfl, htidy, -⟩ := h
  exact tidy_rows_render? htidy ht

/-- There is no header in prose, and it is the prose of its own rows. -/
theorem prose (h : Plain d k (.text (some t))) (hk : k.hasItems = false) :
    d.HeaderFree (rows t) ∧ proseOf (rows t) = some t := by
  obtain ⟨ls, hls, htidy, hfree⟩ := h
  have hp : proseOf ls = some t := by simpa [ofLines, hk] using hls
  refine ⟨?_, proseOf_rows hp⟩
  obtain ⟨w, hw⟩ := dropEndWhile_prefix_self isBlank ls
  rw [rows_of_proseOf htidy hp]
  exact (hw ▸ hfree).of_append

/-- A body with nothing to write is the empty one. -/
theorem eq_empty (h : Plain d k b) (hb : b.isEmpty = true) : b = Body.empty k := by
  obtain ⟨ls, rfl, -, -⟩ := h
  exact isEmpty_ofLines_iff.1 hb

end Body.Plain

namespace Document

/-- The body of a section, empty where there is none. -/
def bodyAt (doc : Document) (k : Section) : Body := (doc.get? k).getD (Body.empty k)

/-- A document in which each section of the dialect has a body as it is read. -/
def Read (d : Dialect) (doc : Document) : Prop :=
  doc.sections.keys = d.sections ∧ ∀ k ∈ d.sections, Body.Plain d k (doc.bodyAt k)

variable {doc : Document}

theorem keys_parse (hd : d.headerForm = some form) (t : Text) :
    (parse d (some t)).sections.keys = d.sections := by
  rw [parse_eq_ofLines hd, keys_ofLines hd]

theorem Read.get? (h : Read d doc) (hk : k ∈ d.sections) : doc.get? k = some (doc.bodyAt k) := by
  rw [← h.1, OrderedMap.mem_keys_iff] at hk
  obtain ⟨b, hb⟩ := Option.isSome_iff_exists.1 hk
  have hget : doc.get? k = some b := hb
  rw [bodyAt, hget]
  rfl

theorem Read.hasContent (h : Read d doc) (hk : k ∈ d.sections) :
    doc.hasContent k = !(doc.bodyAt k).isEmpty := by
  rw [Document.hasContent, h.get? hk]
  rfl

/-- A section that lists no items has its prose, if there is any. -/
theorem Read.bodyAt_eq_text (h : Read d doc) (hk : k ∈ d.sections) (hi : k.hasItems = false) :
    doc.bodyAt k = .text (doc.text? k) := by
  obtain ⟨t, ht⟩ := (h.2 k hk).exists_text hi
  rw [text?, h.get? hk, ht]

/-- A section that lists items has them, perhaps none. -/
theorem Read.bodyAt_eq_items (h : Read d doc) (hk : k ∈ d.sections) (hi : k.hasItems = true) :
    doc.bodyAt k = .items ((doc.items? k).getD OrderedMap.empty) := by
  obtain ⟨m, hm⟩ := (h.2 k hk).exists_items hi
  rw [items?, h.get? hk, hm]
  rfl

/-- What the blocks of tidy rows make of a section is a body as it is read. -/
theorem plain_reading {ls : List Line} (h : ∀ l ∈ ls, Tidy l) :
    Body.Plain d k (Block.reading k ((Block.summary ls).spread d)) := by
  rw [Block.reading]
  cases hlast : Block.last? k ((Block.summary ls).spread d) with
  | none => exact Body.Plain.empty d k
  | some ms =>
    obtain ⟨c, hc, -, rfl⟩ := Block.exists_mem_of_last? hlast
    refine ⟨c.body, rfl, fun l hl => h l ((Block.body_sublist_of_mem_spread hc).mem hl), ?_⟩
    rcases List.mem_cons.1 hc with rfl | hc
    · exact Dialect.headerFree_segment_fst ls
    · exact Dialect.headerFree_of_mem_segment hc

theorem read_parse (hd : d.headerForm = some form) (t : Text) : Read d (parse d (some t)) := by
  refine ⟨keys_parse hd t, fun k hk => ?_⟩
  rw [← slots_eq_sections hd] at hk
  rw [bodyAt, parse_eq_ofLines hd, get?_ofLines hk]
  exact plain_reading fun l hl => tidy_of_mem_scanLines hl

theorem read_parse_option (hd : d.headerForm = some form) (doc : Option Text) :
    Read d (parse d doc) := by
  cases doc with
  | none =>
    have hempty : parse d (some []) = empty d := parse_of_isBlankDoc rfl
    rw [parse, ← hempty]
    exact read_parse hd []
  | some t => exact read_parse hd t

theorem keys_clear (doc : Document) (j : Section) :
    (doc.clear j).sections.keys = doc.sections.keys := by
  rw [clear]
  split
  · next hj => exact OrderedMap.keys_insert_of_mem _ hj
  · rfl

/-- A section that is cleared is empty where it is there, and any other as before. -/
theorem get?_clear (doc : Document) (j k : Section) :
    (doc.clear j).get? k =
      if k = j then (doc.get? k).map fun _ => Body.empty k else doc.get? k := by
  rw [clear]
  split
  · next hj =>
    rw [Document.get?, OrderedMap.get?_insert]
    split
    · next hk =>
      subst hk
      obtain ⟨b, hb⟩ := Option.isSome_iff_exists.1 (OrderedMap.mem_keys_iff.1 hj)
      rw [Document.get?, hb]
      rfl
    · rfl
  · next hj =>
    split
    · next hk =>
      subst hk
      rw [OrderedMap.mem_keys_iff, Option.not_isSome_iff_eq_none] at hj
      rw [Document.get?, hj]
      rfl
    · rfl

/-- A section that is cleared is empty, and any other as before. -/
theorem bodyAt_clear (doc : Document) (j k : Section) :
    (doc.clear j).bodyAt k = if k = j then Body.empty k else doc.bodyAt k := by
  rw [bodyAt, get?_clear]
  split
  · cases doc.get? k <;> rfl
  · rfl

theorem Read.clear (h : Read d doc) (j : Section) : Read d (doc.clear j) := by
  refine ⟨(keys_clear doc j).trans h.1, fun k hk => ?_⟩
  rw [bodyAt_clear]
  split
  · exact Body.Plain.empty d k
  · exact h.2 k hk

end Document

/-! ### The body that a merge takes -/

namespace Merge

open Document

variable {p q : Document}

theorem read_withoutStaleRaises (h : Read d p) (q : Document) :
    Read d (withoutStaleRaises p q) := by
  rw [withoutStaleRaises]
  split
  · exact h.clear .raises
  · exact h

theorem bodyAt_withoutStaleRaises (hs : k ≠ .raises) (p q : Document) :
    (withoutStaleRaises p q).bodyAt k = p.bodyAt k := by
  rw [withoutStaleRaises]
  split
  · rw [bodyAt_clear, if_neg hs]
  · rfl

/-- What a merge takes for a section: the descendant's body if it has content, else the
ancestor's, which is empty where that is raises gone stale. -/
def supersede (ancestor descendant : Document) (k : Section) : Body :=
  if descendant.hasContent k then descendant.bodyAt k
  else (withoutStaleRaises ancestor descendant).bodyAt k

theorem plain_supersede (hp : Read d p) (hq : Read d q) (hk : k ∈ d.sections) :
    Body.Plain d k (supersede p q k) := by
  rw [supersede]
  split
  · exact hq.2 k hk
  · exact (read_withoutStaleRaises hp q).2 k hk

theorem legible_supersede (hp : Read d p) (hq : Read d q) : Legible d (supersede p q) :=
  fun _ hk _ ht => (plain_supersede hp hq hk).tidy ht

/-- What the sections of two documents merge to. -/
def merged (d : Dialect) (policy : Policy) (p q : Document) (k : Section) : Body :=
  if k.hasItems then .items (items (mergesWithin d policy k) k p q)
  else .text (prose (mergesWithin d policy k) (p.text? k) (q.text? k))

/-- What the sections of two documents merge to, with the items alone that are kept beside the
parameters. -/
def kept (d : Dialect) (policy : Policy) (params : Option (List Text)) (p q : Document)
    (k : Section) : Body :=
  if k.hasItems then .items (liveItems params k (items (mergesWithin d policy k) k p q))
  else .text (prose (mergesWithin d policy k) (p.text? k) (q.text? k))

/-- Where the parameters are not known every item is kept. -/
theorem kept_none (policy : Policy) (p q : Document) :
    kept d policy none p q = merged d policy p q := rfl

theorem body_eq_render?_kept (policy : Policy) (params : Option (List Text)) (p q : Document)
    (k : Section) : body d policy params p q k = (kept d policy params p q k).render? d := by
  unfold body kept
  split <;> rfl

theorem body_eq_render? (policy : Policy) (p q : Document) (k : Section) :
    body d policy none p q k = (merged d policy p q k).render? d := by
  rw [body_eq_render?_kept, kept_none]

/-- A merge that replaces takes the descendant's body, else the ancestor's. -/
theorem merged_eq_supersede (hp : Read d p) (hq : Read d q) (hk : k ∈ d.sections) :
    merged d .replace (withoutStaleRaises p q) q k = supersede p q k := by
  have hp' := read_withoutStaleRaises hp q
  have hwithin : mergesWithin d .replace k = false := by simp [mergesWithin]
  rw [merged, supersede, hq.hasContent hk, hwithin]
  cases hi : k.hasItems with
  | true =>
    rw [hp'.bodyAt_eq_items hk hi, hq.bodyAt_eq_items hk hi, items, ItemMap.merge, Body.isEmpty]
    generalize (q.items? k).getD OrderedMap.empty = m
    cases he : m.isEmpty <;> simp
  | false =>
    rw [hp'.bodyAt_eq_text hk hi, hq.bodyAt_eq_text hk hi]
    cases (withoutStaleRaises p q).text? k <;> cases q.text? k <;> rfl

theorem visible_eq_sectioned (hd : d.headerForm = some form) (policy : Policy)
    (params : Option (List Text)) (a b : Text) :
    visible d policy params a b = sectioned d policy params a b := by
  cases d <;> simp [Dialect.headerForm] at hd <;> rfl

theorem sectioned_eq_compose (d : Dialect) (policy : Policy) (params : Option (List Text))
    (a b : Text) :
    sectioned d policy params a b = compose d (kept d policy params
      (withoutStaleRaises (parse d (some a)) (parse d (some b))) (parse d (some b))) := by
  rw [sectioned, sections, compose]
  exact congrArg joinSections (List.filterMap_congr fun k _ => by rw [body_eq_render?_kept])

/-- **A merge composes what is kept of the sections of its two sides.** -/
theorem docs_eq_compose_kept (hd : d.headerForm = some form) (policy : Policy)
    (params : Option (List Text)) (ha : isBlank a = false) (hb : isBlank b = false) :
    docs d policy params (some a) (some b) = compose d (kept d policy params
      (withoutStaleRaises (parse d (some a)) (parse d (some b))) (parse d (some b))) := by
  rw [docs_of_visible ha hb, visible_eq_sectioned hd, sectioned_eq_compose]

/-- **A merge composes what the sections of its two sides merge to**, where the parameters are not
known. -/
theorem docs_eq_compose_merged (hd : d.headerForm = some form) (policy : Policy)
    (ha : isBlank a = false) (hb : isBlank b = false) :
    docs d policy none (some a) (some b) = compose d (merged d policy
      (withoutStaleRaises (parse d (some a)) (parse d (some b))) (parse d (some b))) := by
  rw [docs_eq_compose_kept hd policy none ha hb, kept_none]

/-- **A merge that replaces composes the bodies that it takes.** -/
theorem docs_eq_compose (hd : d.headerForm = some form) (ha : isBlank a = false)
    (hb : isBlank b = false) :
    docs d .replace none (some a) (some b) =
      compose d (supersede (parse d (some a)) (parse d (some b))) := by
  rw [docs_eq_compose_merged hd .replace ha hb, compose, compose]
  refine congrArg joinSections (List.filterMap_congr fun k hk => ?_)
  rw [merged_eq_supersede (read_parse hd a) (read_parse hd b) hk]

end Merge

/-- **Nothing is composed where there is nothing to write of any section.** -/
theorem compose_eq_none_iff {f : Section → Body} :
    compose d f = none ↔ ∀ k ∈ d.sections, (f k).isEmpty = true := by
  rw [compose, Merge.joinSections]
  split
  · next he =>
    rw [List.isEmpty_iff, List.filterMap_eq_nil_iff] at he
    simpa [Body.render?_eq_none_iff] using he
  · next hne =>
    rw [List.isEmpty_iff, List.filterMap_eq_nil_iff] at hne
    simpa [Body.render?_eq_none_iff] using hne

theorem exists_compose {f : Section → Body} (hk : k ∈ d.sections)
    (ht : (f k).render? d = some t) : ∃ m, compose d f = some m := by
  rw [← Option.ne_none_iff_exists']
  intro hnone
  have hempty := compose_eq_none_iff.1 hnone k hk
  rw [Body.render?_eq_none_iff.2 hempty] at ht
  simp at ht

end Docstring
