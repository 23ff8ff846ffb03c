import Docstring.Proofs.Canonical

/-!
# Absorption

A document covers another that has content wherever the other has, raises apart that are stale
beside it. Covering is a preorder (`Covers.refl`, `Covers.trans`), and a merge covers both of its
sides (`covers_merge`). A canonical docstring takes nothing more from one that it covers
(`docs_of_covers`), so merging again on either side changes nothing (`docs_docs_of_canonical`).
-/

namespace Docstring

open Text

variable {d : Dialect} {form : HeaderForm} {k : Section} {a b m t x : Text}

namespace Merge

open Document

variable {p q r : Document}

/-! ### Covering -/

/-- Whether a document has content wherever another has that is merged into it. -/
def Covers (d : Dialect) (q p : Document) : Prop :=
  ∀ k ∈ d.sections, (withoutStaleRaises p q).hasContent k = true → q.hasContent k = true

/-- The ancestor as the merge takes it has the content that it had, but for stale raises. -/
theorem hasContent_withoutStaleRaises (hp : Read d p) (hk : k ∈ d.sections) (q : Document) :
    (withoutStaleRaises p q).hasContent k =
      (p.hasContent k && !(decide (k = .raises) && raisesIsStale p q)) := by
  rw [(read_withoutStaleRaises hp q).hasContent hk, hp.hasContent hk, withoutStaleRaises]
  cases raisesIsStale p q with
  | false => simp
  | true =>
    rw [if_pos rfl, bodyAt_clear]
    by_cases hr : k = .raises
    · rw [if_pos hr, hr]
      simp [Body.empty, Section.hasItems, Body.isEmpty]
    · simp [hr]

/-- What a document covers, section by section. -/
theorem covers_iff (hp : Read d p) :
    Covers d q p ↔ ∀ k ∈ d.sections, p.hasContent k = true →
      q.hasContent k = true ∨ k = .raises ∧ produces p = false ∧ produces q = true := by
  refine forall₂_congr fun k hk => ?_
  rw [hasContent_withoutStaleRaises hp hk]
  by_cases hr : k = .raises
  · subst hr
    rw [raisesIsStale]
    cases p.hasContent .raises <;> cases q.hasContent .raises <;> cases produces p <;>
      cases produces q <;> simp
  · simp [hr]

theorem Covers.refl (hp : Read d p) : Covers d p p :=
  (covers_iff hp).2 fun _ _ hc => .inl hc

/-- What covers a document that tells what a call gives back tells that as well. -/
theorem Covers.produces (h : Covers d q p) (hp : Read d p) (hd : d.headerForm = some form)
    (hprod : Merge.produces p = true) : Merge.produces q = true := by
  have hkeep : ∀ k ∈ d.sections, k ≠ .raises → p.hasContent k = true → q.hasContent k = true :=
    fun k hk hs hc => ((covers_iff hp).1 h k hk hc).resolve_right fun hr => hs hr.1
  rw [Merge.produces, Bool.or_eq_true] at hprod ⊢
  exact hprod.imp (hkeep _ (returns_mem_sections hd) (by decide))
    (hkeep _ (yields_mem_sections hd) (by decide))

/-- **What covers a document covers all that the document covers.** Raises that go stale on the
way stay so, for what a call gives back is never lost. -/
theorem Covers.trans (hqr : Covers d r q) (hpq : Covers d q p) (hp : Read d p) (hq : Read d q)
    (hd : d.headerForm = some form) : Covers d r p := by
  refine (covers_iff hp).2 fun k hk hc => ?_
  rcases (covers_iff hp).1 hpq k hk hc with hqc | ⟨rfl, hprod, hprodq⟩
  · rcases (covers_iff hq).1 hqr k hk hqc with hrc | ⟨rfl, hprodq, hprodr⟩
    · exact .inl hrc
    · refine .inr ⟨rfl, ?_, hprodr⟩
      rw [← Bool.not_eq_true] at hprodq ⊢
      exact fun hprod => hprodq (hpq.produces hp hd hprod)
  · exact .inr ⟨rfl, hprod, hqr.produces hq hd hprodq⟩

/-- What covers the ancestor takes nothing of it. -/
theorem Covers.supersede_eq (h : Covers d q p) (hp : Read d p) (hq : Read d q)
    (hk : k ∈ d.sections) : supersede p q k = q.bodyAt k := by
  rw [supersede]
  split
  · rfl
  · next hqc =>
    -- neither side has content here
    have hread := read_withoutStaleRaises hp q
    have hpc : ¬ (withoutStaleRaises p q).hasContent k = true := fun hpc => hqc (h k hk hpc)
    rw [hread.hasContent hk, Bool.not_eq_true', Bool.not_eq_false] at hpc
    rw [hq.hasContent hk, Bool.not_eq_true', Bool.not_eq_false] at hqc
    rw [(hread.2 k hk).eq_empty hpc, (hq.2 k hk).eq_empty hqc]

/-- What covers the descendant and keeps its sections takes nothing of it. -/
theorem Covers.supersede_eq_of_kept (h : Covers d r q) (hq : Read d q)
    (hd : d.headerForm = some form)
    (hkept : q.hasContent k = true → r.bodyAt k = q.bodyAt k) : supersede r q k = r.bodyAt k := by
  have hstale : raisesIsStale r q = false := by
    rw [raisesIsStale]
    cases hprod : Merge.produces q with
    | true => simp [h.produces hq hd hprod]
    | false => simp
  rw [supersede, withoutStaleRaises, hstale]
  split
  · next hc => exact (hkept hc).symm
  · rfl

/-- **A merge covers both of its sides.** -/
theorem covers_merge (hp : Read d p) (hq : Read d q) (hr : Read d r)
    (hd : d.headerForm = some form) (hget : ∀ k ∈ d.sections, r.bodyAt k = supersede p q k) :
    Covers d r p ∧ Covers d r q := by
  have hprod := produces_merge hd hp hq hr hget
  constructor
  · refine (covers_iff hp).2 fun k hk hpc => ?_
    cases hqc : q.hasContent k with
    | true =>
      refine .inl ?_
      rw [hr.hasContent hk, hget k hk, supersede, if_pos hqc, ← hq.hasContent hk, hqc]
    | false =>
      have hcontent : r.hasContent k = (withoutStaleRaises p q).hasContent k := by
        rw [hr.hasContent hk, hget k hk, supersede, if_neg (by simp [hqc]),
          (read_withoutStaleRaises hp q).hasContent hk]
      rw [hcontent, hasContent_withoutStaleRaises hp hk, hpc, hprod]
      by_cases hs : k = .raises
      · subst hs
        rw [raisesIsStale, hpc]
        cases produces p <;> cases produces q <;> simp
      · simp [hs]
  · refine (covers_iff hq).2 fun k hk hqc => .inl ?_
    rw [hr.hasContent hk, hget k hk, supersede, if_pos hqc, ← hq.hasContent hk, hqc]

/-! ### Canonical docstrings -/

namespace Canonical

/-- **A canonical docstring takes nothing from one that it covers.** -/
theorem docs_of_covers (hx : Canonical d x) (hd : d.headerForm = some form)
    (ha : isBlank a = false) (h : Covers d (parse d (some x)) (parse d (some a))) :
    docs d .replace none (some a) (some x) = some x := by
  obtain ⟨hblank, hcompose⟩ := (canonical_iff hd).1 hx
  have hsame : ∀ k ∈ d.sections, supersede (parse d (some a)) (parse d (some x)) k =
      (parse d (some x)).bodyAt k :=
    fun k hk => h.supersede_eq (read_parse hd a) (read_parse hd x) hk
  rw [docs_eq_compose hd ha hblank, compose, List.filterMap_congr fun k hk => by rw [hsame k hk],
    ← compose, hcompose]

/-- Canonical docstrings merge to a canonical docstring that covers both. -/
theorem exists_docs (ha : Canonical d a) (hb : Canonical d b) (hd : d.headerForm = some form) :
    ∃ m, docs d .replace none (some a) (some b) = some m ∧ Canonical d m ∧
      Covers d (parse d (some m)) (parse d (some a)) ∧
      Covers d (parse d (some m)) (parse d (some b)) := by
  obtain ⟨m, hm, hcanonical, hget⟩ := ha.merge hb hd
  exact ⟨m, hm, hcanonical,
    covers_merge (read_parse hd a) (read_parse hd b) (read_parse hd m) hd hget⟩

end Canonical

/-- **Merging again on either side changes nothing.** Canonical docstrings merge to a canonical
docstring, which takes nothing more from the ancestor, and of which the descendant replaces
nothing and makes no raises stale. -/
theorem docs_docs_of_canonical (hd : d.headerForm = some form) (ha : Canonical d a)
    (hb : Canonical d b) :
    ∃ m, docs d .replace none (some a) (some b) = some m ∧ Canonical d m ∧
      docs d .replace none (some a) (some m) = some m ∧
      docs d .replace none (some m) (some b) = some m := by
  obtain ⟨m, hm, hcanonical, hget⟩ := ha.merge hb hd
  have hread := read_parse hd b
  obtain ⟨hcoversa, hcoversb⟩ :=
    covers_merge (read_parse hd a) hread (read_parse hd m) hd hget
  obtain ⟨hblank, hcompose⟩ := (canonical_iff hd).1 hcanonical
  refine ⟨m, hm, hcanonical, hcanonical.docs_of_covers hd ((canonical_iff hd).1 ha).1 hcoversa, ?_⟩
  have hsame : ∀ k ∈ d.sections, supersede (parse d (some m)) (parse d (some b)) k =
      (parse d (some m)).bodyAt k := by
    intro k hk
    refine hcoversb.supersede_eq_of_kept hread hd fun hc => ?_
    rw [hget k hk, supersede, if_pos hc]
  rw [docs_eq_compose hd hblank ((canonical_iff hd).1 hb).1, compose,
    List.filterMap_congr fun k hk => by rw [hsame k hk], ← compose, hcompose]

/-- Raises that are stale beside the descendant are so beside the merged docstring as well. -/
theorem docs_docs_of_canonical_raises :
    let a := "Raises\n------\nKeyError\n\nNotes\n-----\nold".toList
    let b := "New.\n\nReturns\n-------\n    the sum".toList
    let m := "New.\n\nReturns\n-------\n    the sum\n\nNotes\n-----\nold".toList
    Canonical .numpy a ∧ Canonical .numpy b ∧
    docs .numpy .replace none (some a) (some b) = some m ∧ Canonical .numpy m ∧
    docs .numpy .replace none (some a) (some m) = some m ∧
    docs .numpy .replace none (some m) (some b) = some m := by
  intro a b m
  have ha : Canonical .numpy a := by decide +kernel
  have hb : Canonical .numpy b := by decide +kernel
  have hm : docs .numpy .replace none (some a) (some b) = some m := by decide +kernel
  obtain ⟨n, hn, hcanonical, habove, hbelow⟩ := docs_docs_of_canonical rfl ha hb
  obtain rfl : m = n := Option.some.inj (hm.symm.trans hn)
  exact ⟨ha, hb, hm, hcanonical, habove, hbelow⟩

end Merge

end Docstring
