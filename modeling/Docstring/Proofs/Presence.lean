import Docstring.Proofs.Kept

/-!
# Where a merge gives a docstring

A merge gives none where both sides are blank, keeps the other side to the letter where one of them
is, and never gives a blank docstring (`isBlank_of_docs`). Two visible docstrings in a dialect with
sections, the parameters not known, merge to none exactly where no section of either has content:
raises alone are ever left out, and only beside something else that is written
(`docs_eq_none_iff`).
-/

namespace Docstring

open Text

variable {d : Dialect} {form : HeaderForm} {k : Section} {a b m : Text}

theorem Document.hasContent_of_notMem_sections (hd : d.headerForm = some form)
    (hk : k ∉ d.sections) (t : Text) : (parse d (some t)).hasContent k = false := by
  rw [← keys_parse hd t, OrderedMap.mem_keys_iff, Option.not_isSome_iff_eq_none] at hk
  have hget : (parse d (some t)).get? k = none := hk
  rw [hasContent, hget]
  rfl

namespace Merge

open Document

variable {p q : Document} {policy : Policy} {params : Option (List Text)}

/-! ### No blank docstrings -/

/-- What is composed of legible sections is not blank. -/
theorem isBlank_of_compose {f : Section → Body} (hf : Legible d f) (hd : d.headerForm = some form)
    (hm : compose d f = some m) : isBlank m = false := by
  obtain ⟨l, hl, hb⟩ := exists_visible_compose hf hd hm
  rw [← joinLines_rows m, isBlank_joinLines, List.all_eq_false]
  exact ⟨l, hl, by simp [hb]⟩

/-- A docstring with titles is written without white space in front, so it is not blank. -/
theorem isBlank_of_titled (h : titled a b = some m) : isBlank m = false := by
  simp only [titled] at h
  split at h
  · simp at h
  · next hne =>
    obtain rfl := Option.some.inj h
    rw [← Bool.not_eq_true]
    intro hb
    rw [Outline.render, isBlank_trimStart, ← trimStart_eq_nil_iff] at hb
    exact hne (List.isEmpty_iff.2 hb)

/-- **Two visible docstrings never merge to a blank one.** -/
theorem isBlank_of_visible (hb : isBlank b = false) (h : visible d policy params a b = some m) :
    isBlank m = false := by
  cases hd : d.headerForm with
  | some form =>
    rw [visible_eq_sectioned hd, sectioned_eq_compose] at h
    have hread := read_withoutStaleRaises (read_parse hd a) (parse d (some b))
    exact isBlank_of_compose (legible_kept hread (read_parse hd b)) hd h
  | none =>
    cases d with
    | parent => exact Option.some.inj h ▸ hb
    | rest => exact isBlank_of_titled h
    | numpy | numpyNapoleon | google | googleNapoleon => simp [Dialect.headerForm] at hd

/-- **A merge never gives a blank docstring.** -/
theorem isBlank_of_docs {ancestor descendant : Option Text}
    (h : docs d policy params ancestor descendant = some m) : isBlank m = false := by
  cases ha : isBlankDoc ancestor with
  | true =>
    cases hb : isBlankDoc descendant with
    | true => simp [docs_of_blank ha hb] at h
    | false =>
      obtain ⟨b, rfl, hb⟩ := exists_of_isBlankDoc hb
      rw [docs_of_blank_left ha hb] at h
      exact Option.some.inj h ▸ hb
  | false =>
    obtain ⟨a, rfl, ha⟩ := exists_of_isBlankDoc ha
    cases hb : isBlankDoc descendant with
    | true =>
      rw [docs_of_blank_right ha hb] at h
      exact Option.some.inj h ▸ ha
    | false =>
      obtain ⟨b, rfl, hb⟩ := exists_of_isBlankDoc hb
      rw [docs_of_visible ha hb] at h
      exact isBlank_of_visible hb h

/-! ### Nothing to write -/

/-- Raises are left out only beside what the descendant tells. -/
theorem withoutStaleRaises_of_not_hasContent (p : Document)
    (h : ∀ k, q.hasContent k = false) : withoutStaleRaises p q = p := by
  have hstale : raisesIsStale p q = false := by
    rw [raisesIsStale, produces.eq_1 q, h, h]
    simp
  rw [withoutStaleRaises, hstale]
  rfl

/-- **Two visible docstrings merge to none exactly where no section of either has content.** -/
theorem docs_eq_none_iff (hd : d.headerForm = some form) (policy : Policy)
    (ha : isBlank a = false) (hb : isBlank b = false) :
    docs d policy none (some a) (some b) = none ↔
      ∀ k, (parse d (some a)).hasContent k = false ∧ (parse d (some b)).hasContent k = false := by
  have hp := read_parse hd a
  have hq := read_parse hd b
  have hp' := read_withoutStaleRaises hp (parse d (some b))
  rw [docs_eq_compose_merged hd policy ha hb, compose_eq_none_iff]
  constructor
  · intro h
    have hnone : ∀ k ∈ d.sections,
        (withoutStaleRaises (parse d (some a)) (parse d (some b))).hasContent k = false ∧
          (parse d (some b)).hasContent k = false := fun k hk => by
      simpa [isEmpty_merged hp' hq hk policy] using h k hk
    have hqnone : ∀ k, (parse d (some b)).hasContent k = false := by
      intro k
      by_cases hk : k ∈ d.sections
      · exact (hnone k hk).2
      · exact hasContent_of_notMem_sections hd hk b
    rw [withoutStaleRaises_of_not_hasContent _ hqnone] at hnone
    intro k
    by_cases hk : k ∈ d.sections
    · exact hnone k hk
    · exact ⟨hasContent_of_notMem_sections hd hk a, hqnone k⟩
  · intro h k hk
    rw [withoutStaleRaises_of_not_hasContent _ fun k => (h k).2, isEmpty_merged hp hq hk policy,
      (h k).1, (h k).2]
    rfl

/-- **Where a merge gives a docstring, and which one.** It gives none for two blank sides, the other
side to the letter for one of them, and never a blank docstring. For two visible sides it gives none
in a dialect with sections, the parameters not known, exactly where no section of either has
content, and the descendant to the letter where docstrings are kept whole. -/
theorem docs_presence (d : Dialect) (policy : Policy) (params : Option (List Text))
    (ancestor descendant : Option Text) :
    (isBlankDoc ancestor = true → isBlankDoc descendant = true →
      docs d policy params ancestor descendant = none) ∧
    (isBlankDoc ancestor = false → isBlankDoc descendant = true →
      docs d policy params ancestor descendant = ancestor) ∧
    (isBlankDoc ancestor = true → isBlankDoc descendant = false →
      docs d policy params ancestor descendant = descendant) ∧
    (∀ m, docs d policy params ancestor descendant = some m → isBlank m = false) ∧
    (isBlankDoc ancestor = false → isBlankDoc descendant = false →
      (d.headerForm ≠ none → params = none →
        (docs d policy params ancestor descendant = none ↔
          ∀ k, (parse d ancestor).hasContent k = false ∧
            (parse d descendant).hasContent k = false)) ∧
      (d = .parent → docs d policy params ancestor descendant = descendant)) := by
  refine ⟨docs_of_blank, fun ha hb => ?_, fun ha hb => ?_, fun m => isBlank_of_docs,
    fun ha hb => ?_⟩
  · obtain ⟨a, rfl, ha⟩ := exists_of_isBlankDoc ha
    exact docs_of_blank_right ha hb
  · obtain ⟨b, rfl, hb⟩ := exists_of_isBlankDoc hb
    exact docs_of_blank_left ha hb
  · obtain ⟨a, rfl, ha⟩ := exists_of_isBlankDoc ha
    obtain ⟨b, rfl, hb⟩ := exists_of_isBlankDoc hb
    constructor
    · intro hd hparams
      obtain ⟨form, hd⟩ := Option.ne_none_iff_exists'.1 hd
      subst hparams
      exact docs_eq_none_iff hd policy ha hb
    · rintro rfl
      exact docs_of_visible ha hb

/-- A header without a body is no content, and raises alone are not lost beside one. -/
theorem docs_presence_headers :
    docs .google .replace none none (some "\n ".toList) = none ∧
    docs .google .replace (some []) (some " Raises:".toList) none = some " Raises:".toList ∧
    docs .google .mergeWithin none (some [' ']) (some "Returns:".toList) =
      some "Returns:".toList ∧
    docs .google .replace none (some "Raises:".toList) (some "Returns:".toList) = none ∧
    docs .google .replace none (some "Raises:\n    KeyError".toList)
      (some "Returns:".toList) ≠ none ∧
    docs .parent .replace none (some "Raises:".toList) (some " x".toList) =
      some " x".toList := by
  have hblank := docs_presence .google .replace none none (some "\n ".toList)
  have hright := docs_presence .google .replace (some []) (some " Raises:".toList) none
  have hleft := docs_presence .google .mergeWithin none (some [' ']) (some "Returns:".toList)
  have hheaders := docs_presence .google .replace none (some "Raises:".toList)
    (some "Returns:".toList)
  have hraises := docs_presence .google .replace none (some "Raises:\n    KeyError".toList)
    (some "Returns:".toList)
  have hparent := docs_presence .parent .replace none (some "Raises:".toList) (some " x".toList)
  refine ⟨hblank.1 (by decide) (by decide), hright.2.1 (by decide) (by decide),
    hleft.2.2.1 (by decide) (by decide), ?_, ?_,
    (hparent.2.2.2.2 (by decide) (by decide)).2 rfl⟩
  · have hall : ∀ k ∈ Section.all,
        (parse .google (some "Raises:".toList)).hasContent k = false ∧
          (parse .google (some "Returns:".toList)).hasContent k = false := by decide +kernel
    exact ((hheaders.2.2.2.2 (by decide) (by decide)).1 (by decide) rfl).2 fun k =>
      hall k (Section.mem_all k)
  · rw [Ne, (hraises.2.2.2.2 (by decide) (by decide)).1 (by decide) rfl]
    intro h
    have hcontent : (parse .google (some "Raises:\n    KeyError".toList)).hasContent .raises =
        true := by decide +kernel
    rw [(h .raises).1] at hcontent
    simp at hcontent

end Merge

end Docstring
