import Docstring.Proofs.Absorption
import Docstring.Proofs.Joined

/-!
# What a merge keeps

Each item that is read starts with its name, and no other name starts a row of it (`Item.Whole`).
A merge puts the items of its two sides together and drops those that are stale beside the
parameters; either way the ones that are left are whole. So whatever a merge writes of a section
has tidy rows and shows something (`legible_kept`), and where the parameters are not known it
writes of every section that has content on either side (`isEmpty_merged`).
-/

namespace Docstring

open Text

variable {d : Dialect} {form : HeaderForm} {k : Section} {a b m t : Text}

namespace Item

/-! ### Whole items -/

/-- An item as it is read: its rows are tidy, and the first alone starts with a name, which is that
of the item. -/
structure Whole (e : Text × Text) : Prop where
  /-- The rows are tidy. -/
  tidy : ∀ r ∈ rows e, Tidy r
  /-- The name of the item is the only one at the start of a row. -/
  single : ∃ tail below, rows e = (e.1 ++ tail) :: below ∧
    start? (e.1 ++ tail) = some (e.1, tail) ∧ ∀ r ∈ below, start? r = none

theorem Whole.named {e : Text × Text} (h : Whole e) : Named e := by
  obtain ⟨tail, below, hrows, hs, -⟩ := h.single
  exact ⟨tail, below, hrows, hs⟩

theorem whole_of_mem_ofLines {ls : List Line} (h : ∀ l ∈ ls, Tidy l) {e : Text × Text}
    (he : e ∈ ofLines ls) : Whole e := by
  obtain ⟨tail, ms, hrows, hs⟩ := exists_rows_of_mem_ofLines (fun l hl => (h l hl).no_break) he
  exact ⟨tidy_of_mem_ofLines h he,
    tail, (group ms).1, hrows, hs, fun r hr => start?_of_mem_group hr⟩

end Item

namespace ItemMap

/-- Items that are whole each. -/
def Whole (m : ItemMap) : Prop := ∀ e ∈ m.entries, Item.Whole e

theorem whole_parseBody {ls : List Line} (h : ∀ l ∈ ls, Tidy l) :
    Whole (parseBody (Body.proseOf ls)) := by
  intro e he
  obtain ⟨ms, htidy, hmem⟩ := exists_tidy_of_mem_parseBody h he
  exact Item.whole_of_mem_ofLines htidy hmem

variable {m n : ItemMap}

/-- Whole items are written in tidy rows, with something to see. -/
theorem Whole.tidy_rows_render (h : Whole m) (hne : m.entries ≠ []) :
    (∀ r ∈ Text.rows (m.render d), Tidy r) ∧ isBlank (m.render d) = false :=
  tidy_rows_render_of_named hne fun e he => ⟨(h e he).named, (h e he).tidy⟩

/-- The rows of whole items are tidy, and so is a blank one below them. -/
theorem Whole.tidy_rows (h : Whole m) : ∀ r ∈ m.entries.flatMap Item.rows ++ [[]], Tidy r := by
  intro r hr
  rcases List.mem_append.1 hr with hr | hr
  · obtain ⟨e, he, hr⟩ := List.mem_flatMap.1 hr
    exact (h e he).tidy r hr
  · exact List.mem_singleton.1 hr ▸ Tidy.nil

/-- There are items in a merge where there are some on either side. -/
theorem isEmpty_merge (within : Bool) (m n : ItemMap) :
    (merge within m n).isEmpty = (m.isEmpty && n.isEmpty) := by
  by_cases hn : n.entries = []
  · have hmerge : merge within m n = m := by
      rw [merge, OrderedMap.overlay, OrderedMap.isEmpty, hn]
      cases within <;> rfl
    rw [hmerge, OrderedMap.isEmpty, OrderedMap.isEmpty, hn]
    simp
  · have hmerge := List.isEmpty_eq_false_iff.2 (entries_merge_ne_nil hn within m)
    have hn := List.isEmpty_eq_false_iff.2 hn
    rw [OrderedMap.isEmpty, OrderedMap.isEmpty, OrderedMap.isEmpty, hmerge, hn, Bool.and_false]

end ItemMap

namespace Merge

open Document

variable {p q : Document} {policy : Policy} {params : Option (List Text)}

/-! ### Bodies as they are kept -/

theorem mem_of_mem_liveItems {m : ItemMap} {e : Text × Text}
    (he : e ∈ (liveItems params k m).entries) : e ∈ m.entries := by
  unfold liveItems ItemMap.retain at he
  split at he
  · split at he
    · exact List.mem_of_mem_filter he
    · exact he
  · exact he

theorem whole_items? (hp : Read d p) (hk : k ∈ d.sections) (hi : k.hasItems = true) :
    ItemMap.Whole ((p.items? k).getD OrderedMap.empty) := by
  obtain ⟨ls, hls, htidy, -⟩ := hp.2 k hk
  rw [hp.bodyAt_eq_items hk hi, Body.ofLines, if_pos hi] at hls
  rw [← Body.items.inj hls]
  exact ItemMap.whole_parseBody htidy

/-- The items that a merge keeps are whole. -/
theorem whole_liveItems (hp : Read d p) (hq : Read d q) (hk : k ∈ d.sections)
    (hi : k.hasItems = true) (within : Bool) :
    ItemMap.Whole (liveItems params k (items within k p q)) := fun e he =>
  ItemMap.forall_entries_merge (whole_items? hp hk hi) (whole_items? hq hk hi) within e
    (mem_of_mem_liveItems he)

/-- The prose that a merge writes has tidy rows and shows something. -/
theorem tidy_rows_prose (hp : Read d p) (hq : Read d q) (hk : k ∈ d.sections)
    (hi : k.hasItems = false) {within : Bool} (ht : prose within (p.text? k) (q.text? k) = some t) :
    (∀ r ∈ rows t, Tidy r) ∧ isBlank t = false := by
  cases hqk : q.text? k with
  | none =>
    rw [hqk, prose_none_right] at ht
    exact ⟨(hp.passage hk hi ht).tidy, (hp.passage hk hi ht).visible⟩
  | some b =>
    have hb := hq.passage hk hi hqk
    cases hpk : p.text? k with
    | none =>
      rw [hpk, hqk, prose_none_left] at ht
      exact Option.some.inj ht ▸ ⟨hb.tidy, hb.visible⟩
    | some a =>
      have ha := hp.passage hk hi hpk
      rw [hpk, hqk, prose] at ht
      obtain rfl := Option.some.inj ht
      split
      · refine ⟨fun r hr => ?_, by simp [ha.visible]⟩
        rw [rows_append_newline] at hr
        exact (List.mem_append.1 hr).elim (ha.tidy r) (hb.tidy r)
      · exact ⟨hb.tidy, hb.visible⟩

/-- **Whatever a merge writes of a section has tidy rows and shows something.** -/
theorem legible_kept (hp : Read d p) (hq : Read d q) : Legible d (kept d policy params p q) := by
  intro k hk t ht
  rw [kept] at ht
  split at ht
  · next hi =>
    rw [Body.render?] at ht
    split at ht
    · simp at ht
    · next hne =>
      obtain rfl := Option.some.inj ht
      exact (whole_liveItems hp hq hk hi _).tidy_rows_render fun he =>
        hne (List.isEmpty_iff.2 he)
  · next hi => exact tidy_rows_prose hp hq hk (by simpa using hi) ht

/-- **Where the parameters are not known a merge writes of each section that either side has
content in.** -/
theorem isEmpty_merged (hp : Read d p) (hq : Read d q) (hk : k ∈ d.sections) (policy : Policy) :
    (merged d policy p q k).isEmpty = (!p.hasContent k && !q.hasContent k) := by
  rw [merged, hp.hasContent hk, hq.hasContent hk]
  cases hi : k.hasItems with
  | true =>
    rw [hp.bodyAt_eq_items hk hi, hq.bodyAt_eq_items hk hi]
    simp [Body.isEmpty, items, ItemMap.isEmpty_merge]
  | false =>
    rw [hp.bodyAt_eq_text hk hi, hq.bodyAt_eq_text hk hi]
    cases p.text? k <;> cases q.text? k <;> rfl

end Merge

end Docstring
