import Docstring.Proofs.Replacement

/-!
# Slots

A document that is read has a body for each slot of its dialect, in the order of the catalog, and
the body is of the kind of its section (`Fits`). Reading writes to one slot after another, and so
does clearing. A body that is written fits its section, and the section is one of the catalog,
whatever name it was read under. So the slots are the same and filled alike after every run of
writes (`parse_cleared`).
-/

namespace Docstring

open Text

variable {d : Dialect} {k : Section} {t : Text} {ls : List Line}

/-! ### Bodies that fit their section -/

namespace Body

/-- Prose of tidy lines has those lines, up to the last one that shows. -/
theorem lines_of_proseOf (h : ∀ l ∈ ls, Tidy l) (hp : proseOf ls = some t) :
    lines t = dropEndWhile isBlank ls := by
  have htidy : ∀ l ∈ dropEndWhile isBlank ls, Tidy l := fun l hl =>
    h l ((dropEndWhile_prefix_self _ ls).mem hl)
  have hlast : (dropEndWhile isBlank ls).getLast? ≠ some [] := fun hl =>
    absurd (getLast?_dropEndWhile hl) (by decide)
  rw [← joinLines_rows t, rows_of_proseOf h hp, lines_joinLines_of_getLast? htidy hlast]

/-- A body that a section may hold. -/
structure Fits (d : Dialect) (k : Section) (b : Body) : Prop where
  /-- It has items where the section lists items, and else prose. -/
  shape : if k.hasItems then ∃ m, b = .items m else ∃ t, b = .text t
  /-- Prose shows something, and ends with it. -/
  prose : ∀ t, b = .text (some t) → isBlank t = false ∧ trimEnd t = t
  /-- Where there are headers, no line of prose ends with white space. -/
  trimmed : d.headerForm ≠ none → ∀ t, b = .text (some t) → ∀ l ∈ lines t, trimEnd l = l

theorem Fits.ofLines (k : Section) (h : d.headerForm ≠ none → ∀ l ∈ ls, Tidy l) :
    Fits d k (ofLines k ls) := by
  have hprose : ∀ t, Body.ofLines k ls = .text (some t) → proseOf ls = some t := by
    intro t ht
    rw [Body.ofLines] at ht
    split at ht
    · cases ht
    · exact text.inj ht
  refine ⟨shape_ofLines k ls, fun t ht => ?_, fun hd t ht l hl => ?_⟩
  · have hp := hprose t ht
    obtain ⟨-, htrim⟩ := proseOf_eq_some_iff.1 hp
    exact ⟨isBlank_of_proseOf hp, by rw [htrim, trimEnd_trimEnd]⟩
  · rw [lines_of_proseOf (h hd) (hprose t ht)] at hl
    exact (h hd l ((dropEndWhile_prefix_self _ ls).mem hl)).trimmed

theorem Fits.empty (d : Dialect) (k : Section) : Fits d k (empty k) := by
  rw [← ofLines_nil]
  exact Fits.ofLines k fun _ l hl => absurd hl List.not_mem_nil

end Body

namespace Document

variable {doc : Document}

/-! ### Writing to a slot -/

/-- A document with a fitting body in each slot of a dialect. -/
structure WellFormed (d : Dialect) (doc : Document) : Prop where
  /-- The slots are those of the dialect, in order. -/
  keys : doc.sections.keys = d.slots
  /-- Each holds what its section may hold. -/
  fits : ∀ k b, doc.get? k = some b → b.Fits d k

namespace WellFormed

/-- A fitting body may be written to any slot. -/
theorem insert {b : Body} (h : WellFormed d doc) (hk : k ∈ d.slots) (hb : b.Fits d k) :
    WellFormed d { doc with sections := doc.sections.insert k b } := by
  refine ⟨(OrderedMap.keys_insert_of_mem b (h.keys ▸ hk)).trans h.keys, fun j c hj => ?_⟩
  rw [Document.get?, OrderedMap.get?_insert] at hj
  split at hj
  · next hjk =>
    subst hjk
    exact Option.some.inj hj ▸ hb
  · exact h.fits j c hj

theorem close (h : WellFormed d doc) (hk : k ∈ d.slots)
    (hls : d.headerForm ≠ none → ∀ l ∈ ls, Tidy l) : WellFormed d (doc.close k ls) :=
  h.insert hk (Body.Fits.ofLines k hls)

theorem clear (h : WellFormed d doc) (k : Section) : WellFormed d (doc.clear k) := by
  rw [Document.clear]
  split
  · next hk => exact h.insert (h.keys ▸ hk) (Body.Fits.empty d k)
  · exact h

/-! ### Runs of writes -/

theorem empty (d : Dialect) : WellFormed d (empty d) := by
  refine ⟨keys_empty d, fun k b hb => ?_⟩
  rw [get?_empty] at hb
  split at hb
  · exact Option.some.inj hb ▸ Body.Fits.empty d k
  · cases hb

theorem foldl_close {bs : List Block} (h : WellFormed d doc) (hkind : ∀ b ∈ bs, b.kind ∈ d.slots)
    (hbody : ∀ b ∈ bs, ∀ l ∈ b.body, Tidy l) :
    WellFormed d (bs.foldl (fun doc b => doc.close b.kind b.body) doc) := by
  induction bs generalizing doc with
  | nil => exact h
  | cons b bs ih =>
    exact ih (h.close (hkind b List.mem_cons_self) fun _ => hbody b List.mem_cons_self)
      (fun c hc => hkind c (List.mem_cons_of_mem b hc))
      fun c hc => hbody c (List.mem_cons_of_mem b hc)

theorem foldl_clear (h : WellFormed d doc) (ks : List Section) :
    WellFormed d (ks.foldl Document.clear doc) := by
  induction ks generalizing doc with
  | nil => exact h
  | cons k ks ih => exact ih (h.clear k)

/-- Each header names a section of the catalog, so all lines go to slots. -/
theorem ofLines (hd : d.headerForm ≠ none) (h : ∀ l ∈ ls, Tidy l) :
    WellFormed d (ofLines d ls) := by
  obtain ⟨form, hd⟩ := Option.ne_none_iff_exists'.1 hd
  rw [ofLines_eq_foldl]
  refine (empty d).foldl_close (fun b hb => ?_) fun b hb l hl =>
    h l ((Block.body_sublist_of_mem_spread hb).mem hl)
  rcases List.mem_cons.1 hb with rfl | hb
  · exact shortSummary_mem_slots d
  · rw [slots_eq_sections hd]
    exact kind_mem_sections_of_mem_segment hb

theorem parse (d : Dialect) (doc : Option Text) : WellFormed d (parse d doc) := by
  cases doc with
  | none => exact empty d
  | some t =>
    cases hd : d.headerForm with
    | none =>
      simp only [Document.parse, hd]
      split
      · exact empty d
      · exact (empty d).close (shortSummary_mem_slots d) fun h => absurd hd h
    | some form =>
      rw [parse_eq_ofLines hd]
      exact ofLines (by simp [hd]) fun l hl => tidy_of_mem_scanLines hl

end WellFormed

/-! ### What slots hold -/

/-- What was cleared is empty where it is there, and the rest is as before. -/
theorem get?_foldl_clear (doc : Document) (ks : List Section) (k : Section) :
    (ks.foldl clear doc).get? k =
      if k ∈ ks then (doc.get? k).map fun _ => Body.empty k else doc.get? k := by
  induction ks generalizing doc with
  | nil => simp
  | cons j ks ih =>
    rw [List.foldl_cons, ih, get?_clear]
    by_cases hj : k = j
    · cases doc.get? k <;> simp [hj]
    · simp [hj]

theorem get?_of_text? (h : doc.text? k = some t) : doc.get? k = some (.text (some t)) := by
  rw [text?] at h
  split at h
  · next hget => rw [hget, h]
  · cases h

/-- A section has content as its prose is there or its items are not empty. -/
theorem hasContent_iff (doc : Document) (k : Section) :
    doc.hasContent k = true ↔
      (doc.text? k).isSome = true ∨ ∃ m, doc.items? k = some m ∧ m.isEmpty = false := by
  rw [hasContent, text?, items?]
  cases doc.get? k with
  | none => simp
  | some b => cases b <;> simp [Body.isEmpty]

/-- **Slots hold what their sections may hold.** Whatever docstring was read and whatever was
cleared after it, the sections are those of the catalog in its order, or the summary alone where
there is no catalog. A section that lists items has items, and any other has prose. Prose that is
there shows something and has no white space at its end, nor at the end of any line of it where
there are headers. To have content is to have prose or an item. What was cleared is empty, and what
was not is as it was read. A docstring that is absent or blank gives the empty document. -/
theorem parse_cleared (d : Dialect) (doc : Option Text) (ks : List Section) :
    let p := ks.foldl clear (parse d doc)
    p.sections.keys = (if d = .parent ∨ d = .rest then [.shortSummary] else d.sections) ∧
    (∀ k b, p.get? k = some b → if k.hasItems then ∃ m, b = .items m else ∃ t, b = .text t) ∧
    (∀ k t, p.text? k = some t →
      isBlank t = false ∧ trimEnd t = t ∧
        (d.headerForm ≠ none → ∀ l ∈ lines t, trimEnd l = l)) ∧
    (∀ k, p.hasContent k = true ↔
      (p.text? k).isSome = true ∨ ∃ m, p.items? k = some m ∧ m.isEmpty = false) ∧
    (∀ k, p.get? k =
      if k ∈ ks then ((parse d doc).get? k).map fun _ => Body.empty k
      else (parse d doc).get? k) ∧
    (isBlankDoc doc = true → parse d doc = empty d) := by
  intro p
  have h : WellFormed d p := (WellFormed.parse d doc).foldl_clear ks
  refine ⟨?_, fun k b hb => (h.fits k b hb).shape, fun k t ht => ?_, hasContent_iff p,
    get?_foldl_clear _ ks, parse_of_isBlankDoc⟩
  · rw [h.keys]
    cases d <;> rfl
  · have hfits := h.fits k _ (get?_of_text? ht)
    obtain ⟨hshow, htrim⟩ := hfits.prose t rfl
    exact ⟨hshow, htrim, fun hd => hfits.trimmed hd t rfl⟩

/-- Parameters come under two names and the later ones stay, returns are cleared, and a section that
the dialect has not is not cleared. -/
theorem parse_cleared_aliases :
    let doc := ("Sums.\nArgs:\nx: int\nWarnings:\nSlow.  \n \nVery slow.\n\n" ++
      "Parameters:\ny: int\nReturn:\nint").toList
    let p := [Section.returns, .deprecationWarning].foldl clear (parse .googleNapoleon (some doc))
    let prose := "Slow.\n\nVery slow.".toList
    let params := OrderedMap.ofList [("y".toList, ": int".toList)]
    p.sections.keys = Dialect.googleNapoleon.sections ∧
    p.get? .parameters = some (.items params) ∧ (∃ m, Body.items params = .items m) ∧
    p.text? .warning = some prose ∧ isBlank prose = false ∧ trimEnd prose = prose ∧
    (∀ l ∈ lines prose, trimEnd l = l) ∧ p.hasContent .returns = false ∧
    p.hasContent .parameters = true ∧ parse .rest (some "\n ".toList) = empty .rest := by
  intro doc p prose params
  obtain ⟨hparams, hprose, hreturns⟩ : p.get? .parameters = some (.items params) ∧
      p.text? .warning = some prose ∧ p.get? .returns = some (.text none) := by decide +kernel
  have hitems : p.items? .parameters = some params := by rw [items?, hparams]
  obtain ⟨hkeys, hshape, htext, hcontent, -, -⟩ := parse_cleared .googleNapoleon (some doc)
    [.returns, .deprecationWarning]
  obtain ⟨-, -, -, -, -, hblank⟩ := parse_cleared .rest (some "\n ".toList) []
  obtain ⟨hshow, htrim, hlines⟩ := htext .warning prose hprose
  refine ⟨hkeys, hparams, hshape .parameters _ hparams, hprose, hshow, htrim,
    hlines (by decide), ?_, ?_, hblank (by decide)⟩
  · rw [← Bool.not_eq_true, hcontent, text?, items?, hreturns]
    simp
  · exact (hcontent .parameters).2 (.inr ⟨params, hitems, rfl⟩)

end Document

end Docstring
