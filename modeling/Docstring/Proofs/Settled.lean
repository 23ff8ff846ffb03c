import Docstring.Hierarchy.Inherit
import Docstring.Proofs.Absorption

/-!
# Settled docstrings

A docstring is settled that is absent, blank or canonical. Settled docstrings merge to one that
covers both sides, be they there or not (`docs_settled`), and merging the docstrings of settled
ancestors in turn gives one that covers them all (`fold_settled`): merging them again changes
nothing (`fold_fold`).
-/

namespace Docstring

open Text

variable {d : Dialect} {form : HeaderForm} {k : Section}

namespace Merge

open Document

variable {a x y : Option Text}

/-- A docstring that is absent, blank or canonical. -/
def Settled (d : Dialect) (doc : Option Text) : Prop :=
  ∀ t ∈ doc, isBlank t = true ∨ Canonical d t

instance (d : Dialect) (doc : Option Text) : Decidable (Settled d doc) :=
  inferInstanceAs (Decidable (∀ t ∈ doc, isBlank t = true ∨ Canonical d t))

/-- A docstring that is absent or canonical. -/
def Firm (d : Dialect) (doc : Option Text) : Prop := ∀ t ∈ doc, Canonical d t

theorem Firm.settled (h : Firm d x) : Settled d x := fun t ht => .inr (h t ht)

theorem firm_none (d : Dialect) : Firm d none := by simp [Firm]

theorem firm_some {t : Text} (h : Canonical d t) : Firm d (some t) := fun _ ht =>
  Option.some.inj ht ▸ h

theorem Settled.isBlankDoc_or (h : Settled d x) :
    isBlankDoc x = true ∨ ∃ t, x = some t ∧ Canonical d t := by
  cases x with
  | none => exact .inl rfl
  | some t => exact (h t rfl).imp (fun hb => by simpa [isBlankDoc] using hb) fun hc => ⟨t, rfl, hc⟩

/-- Every document covers that of a blank docstring. -/
theorem covers_of_isBlankDoc (hd : d.headerForm = some form) (h : isBlankDoc a = true)
    (q : Document) : Covers d q (parse d a) := by
  refine (covers_iff (read_parse_option hd a)).2 fun k _ hc => ?_
  rw [parse_of_isBlankDoc h, hasContent_empty] at hc
  simp at hc

/-- **A merge of settled docstrings covers both of its sides**, and is absent where both are
blank. -/
theorem docs_settled (hd : d.headerForm = some form) (ha : Settled d a) (hx : Settled d x) :
    Firm d (docs d .replace none a x) ∧
      Covers d (parse d (docs d .replace none a x)) (parse d a) ∧
      Covers d (parse d (docs d .replace none a x)) (parse d x) := by
  rcases ha.isBlankDoc_or with hba | ⟨s, rfl, hs⟩
  · have habove := covers_of_isBlankDoc hd hba
    rcases hx.isBlankDoc_or with hbx | ⟨t, rfl, ht⟩
    · rw [docs_of_blank hba hbx]
      exact ⟨firm_none d, habove _, covers_of_isBlankDoc hd hbx _⟩
    · rw [docs_of_blank_left hba ((canonical_iff hd).1 ht).1]
      exact ⟨firm_some ht, habove _, Covers.refl (read_parse hd t)⟩
  · rcases hx.isBlankDoc_or with hbx | ⟨t, rfl, ht⟩
    · rw [docs_of_blank_right ((canonical_iff hd).1 hs).1 hbx]
      exact ⟨firm_some hs, Covers.refl (read_parse hd s), covers_of_isBlankDoc hd hbx _⟩
    · obtain ⟨m, hm, hcanonical, hcovers⟩ := hs.exists_docs ht hd
      rw [hm]
      exact ⟨firm_some hcanonical, hcovers⟩

/-- A firm docstring takes nothing from a settled one that it covers. -/
theorem Firm.docs_eq (hy : Firm d y) (hd : d.headerForm = some form) (ha : Settled d a)
    (h : Covers d (parse d y) (parse d a)) : docs d .replace none a y = y := by
  rcases ha.isBlankDoc_or with hba | ⟨s, rfl, hs⟩
  · cases y with
    | none => exact docs_of_blank hba rfl
    | some t => exact docs_of_blank_left hba ((canonical_iff hd).1 (hy t rfl)).1
  · cases y with
    | some t => exact (hy t rfl).docs_of_covers hd ((canonical_iff hd).1 hs).1 h
    | none =>
      -- a canonical docstring has content, and none of it is covered
      obtain ⟨k, hk, t, ht⟩ := hs.exists_render? hd
      have hread := read_parse hd s
      have hc : (parse d (some s)).hasContent k = true := by
        rw [hread.hasContent hk, Bool.not_eq_true', ← Bool.not_eq_true, ← Body.render?_eq_none_iff,
          ht]
        simp
      rcases (covers_iff hread).1 h k hk hc with hc | ⟨-, -, hc⟩
      · rw [parse, hasContent_empty] at hc
        simp at hc
      · rw [parse, produces, hasContent_empty, hasContent_empty] at hc
        simp at hc

end Merge

namespace Inheritance

open Document Merge

variable {as : List (Option Text)} {x y : Option Text}

/-- **Settled ancestors merged in turn are covered by the result**, and so is the descendant. -/
theorem fold_settled (hd : d.headerForm = some form) (ha : ∀ a ∈ as, Settled d a)
    (hx : Settled d x) :
    Settled d (fold (.builtin d .replace) none as x) ∧
      Covers d (parse d (fold (.builtin d .replace) none as x)) (parse d x) ∧
      ∀ a ∈ as, Covers d (parse d (fold (.builtin d .replace) none as x)) (parse d a) := by
  induction as generalizing x with
  | nil => exact ⟨hx, Covers.refl (read_parse_option hd x), by simp⟩
  | cons a as ih =>
    obtain ⟨hfirm, habove, hbelow⟩ := docs_settled hd (ha a List.mem_cons_self) hx
    obtain ⟨hsettled, hcovers, hall⟩ :=
      ih (fun b hb => ha b (List.mem_cons_of_mem a hb)) hfirm.settled
    have hread := fun doc => read_parse_option (d := d) hd doc
    refine ⟨hsettled, hcovers.trans hbelow (hread _) (hread _) hd, fun b hb => ?_⟩
    rcases List.mem_cons.1 hb with rfl | hb
    · exact hcovers.trans habove (hread _) (hread _) hd
    · exact hall b hb

/-- Where there is an ancestor, nothing blank is left. -/
theorem fold_firm (hd : d.headerForm = some form) (ha : ∀ a ∈ as, Settled d a)
    (hx : Settled d x) (h : as = [] → Firm d x) :
    Firm d (fold (.builtin d .replace) none as x) := by
  induction as generalizing x with
  | nil => exact h rfl
  | cons a as ih =>
    have hfirm := (docs_settled hd (ha a List.mem_cons_self) hx).1
    exact ih (fun b hb => ha b (List.mem_cons_of_mem a hb)) hfirm.settled fun _ => hfirm

/-- Ancestors that are covered add nothing. -/
theorem fold_eq_self (hd : d.headerForm = some form) (ha : ∀ a ∈ as, Settled d a)
    (hy : Firm d y) (h : ∀ a ∈ as, Covers d (parse d y) (parse d a)) :
    fold (.builtin d .replace) none as y = y := by
  induction as with
  | nil => rfl
  | cons a as ih =>
    have hstep : (Style.builtin d .replace).merge none a y = y :=
      hy.docs_eq hd (ha a List.mem_cons_self) (h a List.mem_cons_self)
    rw [fold_cons, hstep]
    exact ih (fun b hb => ha b (List.mem_cons_of_mem a hb))
      fun b hb => h b (List.mem_cons_of_mem a hb)

/-- **Merging settled ancestors a second time changes nothing.** -/
theorem fold_fold (hd : d.headerForm = some form) (ha : ∀ a ∈ as, Settled d a)
    (hx : Settled d x) :
    fold (.builtin d .replace) none as (fold (.builtin d .replace) none as x) =
      fold (.builtin d .replace) none as x := by
  by_cases hne : as = []
  · rw [hne]
    rfl
  · have hfirm := fold_firm hd ha hx fun he => absurd he hne
    exact fold_eq_self hd ha hfirm (fold_settled hd ha hx).2.2

end Inheritance

end Docstring
