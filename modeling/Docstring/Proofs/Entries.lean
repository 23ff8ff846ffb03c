import Docstring.Proofs.Bodies

/-!
# Items that can be written over each other

An item of a section starts a row with its name, and this row underlines nothing. So items that hold
no header each hold none one below the other (`headerFree_flatMap_rows`), and whichever items of two
sections are put together, the section that they make is read as items of the same kind
(`ItemMap.sound_merge`, `ItemMap.Sound.parseBody_render`).
-/

namespace Docstring

open Text

variable {d : Dialect}

namespace Text

/-- What shows is not trimmed. -/
theorem mem_trimEnd {c : Char} {t : Text} (hc : c ∈ t) (hs : isSpace c = false) :
    c ∈ trimEnd t := by
  obtain ⟨w, hw, hb⟩ := exists_trimEnd_append t
  rw [← hw, List.mem_append] at hc
  refine hc.resolve_right fun hmem => ?_
  rw [isBlank_iff.1 hb c hmem] at hs
  simp at hs

/-! ### Padding -/

theorem indentation_append {w : Text} (h : isBlank w = true) (l : Line) :
    indentation (w ++ l) = w.length + indentation l := by
  rw [indentation, List.takeWhile_append_of_pos (isBlank_iff.1 h), List.length_append]
  rfl

theorem indentation_padRow {w : Text} (h : isBlank w = true) {l : Line}
    (hb : isBlank l = false) : indentation (padRow w l) = w.length + indentation l := by
  rw [padRow, if_neg (by simp [hb]), indentation_append h]

/-- Padding goes before anything else that is stripped. -/
theorem strip_padRow {w : Text} (h : isBlank w = true) (n : Nat) {l : Line}
    (hb : isBlank l = false) : strip (w.length + n) (padRow w l) = strip n l := by
  rw [strip, indentation_padRow h hb, Nat.add_min_add_left, padRow, if_neg (by simp [hb]),
    List.drop_append, strip]
  simp

/-- Padding is stripped as it was put, from rows that are empty where they are blank. -/
theorem map_strip_map_padRow_of_blank {w : Text} (h : isBlank w = true) {ls : List Line}
    (hls : ∀ l ∈ ls, isBlank l = true → l = []) :
    (ls.map (padRow w)).map (strip w.length) = ls := by
  have hrow : ∀ l ∈ ls, (strip w.length ∘ padRow w) l = id l := by
    intro l hl
    rw [Function.comp, id]
    cases hb : isBlank l with
    | true => rw [padRow, if_pos hb, hls l hl hb, strip_nil]
    | false =>
      have hstrip := strip_padRow h 0 hb
      rwa [Nat.add_zero, strip_zero] at hstrip
  rw [List.map_map, List.map_congr_left hrow, List.map_id]

/-- Padding is stripped as it was put. -/
theorem map_strip_map_padRow {w : Text} (h : isBlank w = true) {ls : List Line}
    (hls : ∀ l ∈ ls, Tidy l) : (ls.map (padRow w)).map (strip w.length) = ls :=
  map_strip_map_padRow_of_blank h fun l hl => (hls l hl).eq_nil

theorem map_padRow_nil (ls : List Line) : ls.map (padRow []) = ls := by
  refine (List.map_congr_left fun l _ => ?_).trans (List.map_id ls)
  unfold padRow
  split <;> rfl

/-- **Padding adds to the margin of rows that show something.** -/
theorem margin_map_padRow {w : Text} (h : isBlank w = true) {ls : List Line}
    (hls : ∃ l ∈ ls, isBlank l = false) :
    margin (ls.map (padRow w)) = w.length + margin ls := by
  have hcomp : ((!isBlank ·) ∘ padRow w) = (!isBlank ·) :=
    funext fun l => by rw [Function.comp, isBlank_padRow]
  have hpad : ((ls.map (padRow w)).filter (!isBlank ·)).map indentation =
      ((ls.filter (!isBlank ·)).map indentation).map (w.length + ·) := by
    rw [List.filter_map, hcomp, List.map_map, List.map_map]
    refine List.map_congr_left fun l hl => indentation_padRow h ?_
    simpa using (List.mem_filter.1 hl).2
  rw [margin, margin, hpad]
  cases hm : ((ls.filter (!isBlank ·)).map indentation).min? with
  | none =>
    obtain ⟨l, hl, hb⟩ := hls
    rw [List.min?_eq_none_iff, List.map_eq_nil_iff, List.filter_eq_nil_iff] at hm
    exact absurd hb (by simpa using hm l hl)
  | some n =>
    obtain ⟨hmem, hle⟩ := List.min?_eq_some_iff.1 hm
    have hmin : (((ls.filter (!isBlank ·)).map indentation).map (w.length + ·)).min? =
        some (w.length + n) := by
      refine List.min?_eq_some_iff.2 ⟨List.mem_map_of_mem hmem, fun i hi => ?_⟩
      obtain ⟨j, hj, rfl⟩ := List.mem_map.1 hi
      have hj := hle j hj
      show w.length + n ≤ w.length + j
      omega
    rw [hmin]
    rfl

end Text

namespace Item

/-! ### Names at the start of a row -/

/-- A row that starts with a name shows at its start something other than a hyphen. -/
theorem exists_cons_of_start? {l name tail : Line} (h : start? l = some (name, tail)) :
    ∃ c r, l = c :: r ∧ isSpace c = false ∧ c ≠ '-' := by
  have hl := append_eq_of_start? h
  have hne : name ≠ [] := by
    rintro rfl
    simpa using isBlank_of_start? h
  obtain ⟨c, s, rfl⟩ := List.exists_cons_of_ne_nil hne
  refine ⟨c, s ++ tail, hl.symm, ?_⟩
  rw [start?] at h
  split at h
  · simp at h
  · have hname := (Prod.mk.inj (Option.some.inj h)).1
    have hmem : c ∈ l.takeWhile (· = '*') ++ (l.dropWhile (· = '*')).takeWhile isWord :=
      hname ▸ List.mem_cons_self
    rcases List.mem_append.1 hmem with hc | hc
    · obtain rfl : c = '*' := by simpa using List.mem_takeWhile_imp hc
      decide
    · have hw : isWord c = true := List.mem_takeWhile_imp hc
      refine ⟨isSpace_of_isWord hw, ?_⟩
      rintro rfl
      exact absurd hw (by decide)

/-- The first name of a row starts what is left of the row. -/
theorem start?_of_find? {l name tail : Line} (h : find? l = some (name, tail)) :
    start? (name ++ tail) = some (name, tail) := by
  induction l with
  | nil => simp [find?] at h
  | cons c l ih =>
    rw [find?, Option.or_eq_some_iff] at h
    rcases h with h | ⟨-, h⟩
    · rwa [append_eq_of_start? h]
    · exact ih h

theorem find?_of_start? {l name tail : Line} (h : start? l = some (name, tail)) :
    find? l = some (name, tail) := by
  obtain ⟨c, r, rfl, -⟩ := exists_cons_of_start? h
  rw [find?, h, Option.some_or]

/-- An item that starts with its name. -/
def Named (e : Text × Text) : Prop :=
  ∃ tail below, rows e = (e.1 ++ tail) :: below ∧ start? (e.1 ++ tail) = some (e.1, tail)

theorem exists_rows_of_mem_group {ls : List Line} (h : ∀ l ∈ ls, '\n' ∉ l) {e : Text × Text}
    (he : e ∈ (group ls).2) :
    ∃ tail ms, rows e = (e.1 ++ tail) :: (group ms).1 ∧
      start? (e.1 ++ tail) = some (e.1, tail) := by
  induction ls with
  | nil => simp [group] at he
  | cons l ls ih =>
    have hls : ∀ m ∈ ls, '\n' ∉ m := fun m hm => h m (List.mem_cons_of_mem l hm)
    rw [group] at he
    cases hs : start? l with
    | none => exact ih hls (by simpa [hs] using he)
    | some p =>
      obtain ⟨name, tail⟩ := p
      rw [hs] at he
      rcases List.mem_cons.1 he with rfl | he
      · have hl := append_eq_of_start? hs
        exact ⟨tail, ls, rows_group (hl ▸ h l List.mem_cons_self) hls, by rwa [hl]⟩
      · exact ih hls he

/-- An item that is read has a row that starts with its name, and what is grouped under it. -/
theorem exists_rows_of_mem_ofLines {ls : List Line} (h : ∀ l ∈ ls, '\n' ∉ l) {e : Text × Text}
    (he : e ∈ ofLines ls) :
    ∃ tail ms, rows e = (e.1 ++ tail) :: (group ms).1 ∧
      start? (e.1 ++ tail) = some (e.1, tail) := by
  induction ls with
  | nil => simp [ofLines] at he
  | cons l ls ih =>
    have hls : ∀ m ∈ ls, '\n' ∉ m := fun m hm => h m (List.mem_cons_of_mem l hm)
    rw [ofLines] at he
    cases hs : find? l with
    | none => exact ih hls (by simpa [hs] using he)
    | some p =>
      obtain ⟨name, tail⟩ := p
      rw [hs] at he
      rcases List.mem_cons.1 he with rfl | he
      · obtain ⟨front, hl⟩ := exists_append_eq_of_find? hs
        have hn : '\n' ∉ name ++ tail := fun hn =>
          h l List.mem_cons_self (hl ▸ List.mem_append_right front hn)
        exact ⟨tail, ls, rows_group hn hls, start?_of_find? hs⟩
      · exact exists_rows_of_mem_group hls he

/-- **Every item that is read starts with its name.** -/
theorem named_of_mem_ofLines {ls : List Line} (h : ∀ l ∈ ls, '\n' ∉ l) {e : Text × Text}
    (he : e ∈ ofLines ls) : Named e := by
  obtain ⟨tail, ms, hrows, hs⟩ := exists_rows_of_mem_ofLines h he
  exact ⟨tail, (group ms).1, hrows, hs⟩

/-- Rows of which the first one starts with a name are the rows of their items. -/
theorem flatMap_rows_ofLines {l name tail : Line} (hs : start? l = some (name, tail))
    {ls : List Line} (h : ∀ m ∈ l :: ls, '\n' ∉ m) :
    (ofLines (l :: ls)).flatMap rows = l :: ls := by
  have hl := append_eq_of_start? hs
  have hls : ∀ m ∈ ls, '\n' ∉ m := fun m hm => h m (List.mem_cons_of_mem l hm)
  rw [ofLines, find?_of_start? hs, List.flatMap_cons,
    rows_group (hl ▸ h l List.mem_cons_self) hls, hl, List.cons_append, group_append hls]

/-! ### Sound items -/

/-- An item as a section of canonical docstrings has it: tidy, starting with its name, and without
a header in the rows that it is written in. -/
structure Sound (d : Dialect) (e : Text × Text) : Prop where
  /-- The item starts with its name. -/
  named : Named e
  /-- Its rows are tidy. -/
  tidy : ∀ r ∈ rows e, Tidy r
  /-- Its rows hold no header. -/
  free : d.HeaderFree ((rows e).map (padRow d.itemPadding))

/-- Items are sound each that are written without a header one below the other. -/
theorem sound_of_headerFree {es : List (Text × Text)}
    (h : ∀ e ∈ es, Named e ∧ ∀ r ∈ rows e, Tidy r)
    (hfree : d.HeaderFree ((es.flatMap rows).map (padRow d.itemPadding))) :
    ∀ e ∈ es, Sound d e := by
  intro e he
  obtain ⟨above, below, rfl⟩ := List.append_of_mem he
  rw [List.flatMap_append, List.flatMap_cons, List.map_append, List.map_append] at hfree
  exact ⟨(h e he).1, (h e he).2, hfree.of_append_right.of_append⟩

/-- Tidy rows without a header make sound items, where the first one starts with a name. -/
theorem sound_ofLines {l name tail : Line} (hs : start? l = some (name, tail)) {ls : List Line}
    (h : ∀ r ∈ l :: ls, Tidy r) (hfree : d.HeaderFree ((l :: ls).map (padRow d.itemPadding))) :
    ∀ e ∈ ofLines (l :: ls), Sound d e := by
  have hn : ∀ r ∈ l :: ls, '\n' ∉ r := fun r hr => (h r hr).no_break
  refine sound_of_headerFree (fun e he => ?_) ((flatMap_rows_ofLines hs hn).symm ▸ hfree)
  exact ⟨named_of_mem_ofLines hn he, tidy_of_mem_ofLines h he⟩

/-- A row that starts with a name underlines nothing, padded or not. -/
theorem underlinesNothing_padRow {l name tail : Line} (h : start? l = some (name, tail))
    (w : Text) : d.UnderlinesNothing (padRow w l) := by
  obtain ⟨c, r, rfl, hs, hc⟩ := exists_cons_of_start? h
  refine Dialect.underlinesNothing_of_exists (.inr ⟨c, mem_trimEnd ?_ hs, hc⟩)
  rw [padRow, if_neg (by simp [hs])]
  simp

/-- **Sound items are written without a header one below the other.** -/
theorem headerFree_flatMap_rows {es : List (Text × Text)} (h : ∀ e ∈ es, Sound d e) :
    d.HeaderFree ((es.flatMap rows).map (padRow d.itemPadding)) := by
  induction es with
  | nil => trivial
  | cons e es ih =>
    rw [List.flatMap_cons, List.map_append]
    refine (h e List.mem_cons_self).free.append_of_underlinesNothing
      (ih fun x hx => h x (List.mem_cons_of_mem e hx)) fun u hu => ?_
    cases es with
    | nil => simp at hu
    | cons x xs =>
      obtain ⟨tail, below, hrows, hs⟩ := (h x (by simp)).named
      rw [List.flatMap_cons, hrows] at hu
      obtain rfl := Option.some.inj hu
      exact underlinesNothing_padRow hs _

end Item

namespace ItemMap

/-- Items that are sound each. -/
def Sound (d : Dialect) (m : ItemMap) : Prop := ∀ e ∈ m.entries, Item.Sound d e

variable {m n : ItemMap}

theorem sound_of_entries_eq_nil (h : m.entries = []) : Sound d m := by
  intro e he
  rw [h] at he
  simp at he

theorem isBlank_itemPadding (d : Dialect) : isBlank d.itemPadding = true := by cases d <;> decide

/-- What holds of the items of both sides holds of the merged ones. -/
theorem forall_entries_merge {P : Text × Text → Prop} (hm : ∀ e ∈ m.entries, P e)
    (hn : ∀ e ∈ n.entries, P e) (within : Bool) : ∀ e ∈ (merge within m n).entries, P e := by
  rw [merge]
  split
  · intro e he
    exact (OrderedMap.mem_insertAll he).elim (hm e) (hn e)
  · split
    · exact hm
    · exact hn

/-- **Sound items merge to sound items.** -/
theorem sound_merge (hm : Sound d m) (hn : Sound d n) (within : Bool) :
    Sound d (merge within m n) :=
  forall_entries_merge hm hn within

/-- The descendant's items are never lost. -/
theorem entries_merge_ne_nil (hn : n.entries ≠ []) (within : Bool) (m : ItemMap) :
    (merge within m n).entries ≠ [] := by
  obtain ⟨e, es, hes⟩ := List.exists_cons_of_ne_nil hn
  rw [merge]
  split
  · intro hnil
    have hmem : e.1 ∈ (m.insertAll n.entries).keys :=
      OrderedMap.mem_keys_insertAll.2 (.inr (by simp [hes]))
    have hnil : (m.insertAll n.entries).entries = [] := hnil
    rw [OrderedMap.keys, hnil] at hmem
    simp at hmem
  · rw [if_neg (by simp [OrderedMap.isEmpty, hn])]
    exact hn

/-- Items that start with their names are written in tidy rows with something to see, if their rows
are tidy. -/
theorem tidy_rows_render_of_named (hne : m.entries ≠ [])
    (h : ∀ e ∈ m.entries, Item.Named e ∧ ∀ r ∈ Item.rows e, Tidy r) :
    (∀ r ∈ Text.rows (m.render d), Tidy r) ∧ isBlank (m.render d) = false := by
  refine ⟨ItemMap.tidy_rows_render d hne fun e he => (h e he).2,
    isBlank_render d hne fun e he => ?_⟩
  obtain ⟨tail, below, -, hs⟩ := (h e he).1
  exact Item.isBlank_of_start? hs

/-- The rows that sound items are written in are tidy and show something. -/
theorem Sound.tidy_rows_render (h : Sound d m) (hne : m.entries ≠ []) :
    (∀ r ∈ Text.rows (m.render d), Tidy r) ∧ isBlank (m.render d) = false :=
  tidy_rows_render_of_named hne fun e he => ⟨(h e he).named, (h e he).tidy⟩

theorem Sound.headerFree_rows_render (h : Sound d m) (hne : m.entries ≠ []) :
    d.HeaderFree (Text.rows (m.render d)) := by
  rw [rows_render d hne]
  exact Item.headerFree_flatMap_rows h

/-- Padded rows of which the first one starts with a name are read without their padding and up to
the last visible one. -/
theorem parseBody_map_padRow {w : Text} (hw : isBlank w = true) (htab : '\t' ∉ w)
    (hnewline : '\n' ∉ w) {l name tail : Line} (hs : Item.start? l = some (name, tail))
    {ls : List Line} (h : ∀ r ∈ l :: ls, Tidy r) :
    parseBody (Body.proseOf ((l :: ls).map (padRow w))) =
      OrderedMap.ofList (Item.ofLines (l :: dropEndWhile isBlank ls)) := by
  obtain ⟨c, r, rfl, hspace, -⟩ := Item.exists_cons_of_start? hs
  have hvisible : isBlank (c :: r) = false := by simp [hspace]
  have htidy : ∀ m ∈ ((c :: r) :: ls).map (padRow w), Tidy m := by
    intro m hm
    obtain ⟨x, hx, rfl⟩ := List.mem_map.1 hm
    exact (h x hx).padRow htab hnewline
  have hmargin : margin (((c :: r) :: ls).map (padRow w)) = w.length := by
    rw [margin_map_padRow hw ⟨c :: r, List.mem_cons_self, hvisible⟩,
      margin_of_mem_cons List.mem_cons_self hspace, Nat.add_zero]
  rw [Body.parseBody_proseOf htidy, hmargin, ← dropEndWhile_map_strip, map_strip_map_padRow hw h,
    dropEndWhile_cons_of_neg hvisible, trimBlankLines_cons hvisible,
    dropEndWhile_cons_of_neg hvisible, dropEndWhile_dropEndWhile]

/-- **Sound items are read again as sound items**, some of them at least. -/
theorem Sound.parseBody_render (h : Sound d m) (hne : m.entries ≠ []) :
    Sound d (parseBody (Body.proseOf (Text.rows (m.render d)))) ∧
      (parseBody (Body.proseOf (Text.rows (m.render d)))).entries ≠ [] := by
  obtain ⟨e, es, hes⟩ := List.exists_cons_of_ne_nil hne
  obtain ⟨tail, below, hrows, hs⟩ := (h e (hes ▸ List.mem_cons_self)).named
  have htidy : ∀ l ∈ m.entries.flatMap Item.rows, Tidy l := by
    intro l hl
    obtain ⟨x, hx, hl⟩ := List.mem_flatMap.1 hl
    exact (h x hx).tidy l hl
  have hfree := Item.headerFree_flatMap_rows h
  have hcons : m.entries.flatMap Item.rows =
      (e.1 ++ tail) :: (below ++ es.flatMap Item.rows) := by
    rw [hes, List.flatMap_cons, hrows, List.cons_append]
  rw [rows_render d hne]
  rw [hcons] at htidy hfree ⊢
  rw [parseBody_map_padRow (isBlank_itemPadding d) (tab_notMem_itemPadding d)
    (newline_notMem_itemPadding d) hs htidy]
  -- no header is among the rows that are read, for they are some of those that are written
  obtain ⟨w, hw⟩ := dropEndWhile_prefix_self isBlank (below ++ es.flatMap Item.rows)
  rw [← hw, ← List.cons_append, List.map_append] at hfree
  rw [← hw, ← List.cons_append] at htidy
  have htidy' := fun l hl => htidy l (List.mem_append_left w hl)
  have hsound := Item.sound_ofLines hs htidy' hfree.of_append
  refine ⟨fun x hx => hsound x (OrderedMap.mem_ofList hx), fun hnil => ?_⟩
  have hlines := Item.flatMap_rows_ofLines hs fun l hl => (htidy' l hl).no_break
  rw [OrderedMap.eq_nil_of_entries_ofList hnil] at hlines
  simp at hlines

/-- Items are read from tidy rows, where they are read from a body of tidy rows. -/
theorem exists_tidy_of_mem_parseBody {ls : List Line} (h : ∀ l ∈ ls, Tidy l) {e : Text × Text}
    (he : e ∈ (parseBody (Body.proseOf ls)).entries) :
    ∃ ms, (∀ l ∈ ms, Tidy l) ∧ e ∈ Item.ofLines ms := by
  rw [Body.parseBody_proseOf h] at he
  refine ⟨_, fun l hl => ?_, OrderedMap.mem_ofList he⟩
  obtain ⟨r, hr, rfl⟩ := List.mem_map.1 (mem_of_mem_trimBlankLines hl)
  exact (h r ((dropEndWhile_prefix_self _ ls).mem hr)).of_suffix (strip_suffix _ r)

/-- Items that are read from their own rows are sound, where these hold no header. -/
theorem sound_of_parseBody {ls : List Line} (h : ∀ l ∈ ls, Tidy l)
    (hfree : (parseBody (Body.proseOf ls)).entries ≠ [] →
      d.HeaderFree (Text.rows ((parseBody (Body.proseOf ls)).render d))) :
    Sound d (parseBody (Body.proseOf ls)) := by
  by_cases hne : (parseBody (Body.proseOf ls)).entries = []
  · exact sound_of_entries_eq_nil hne
  · have hfree := hfree hne
    rw [rows_render d hne] at hfree
    refine Item.sound_of_headerFree (fun e he => ?_) hfree
    obtain ⟨ms, htidy, hmem⟩ := exists_tidy_of_mem_parseBody h he
    exact ⟨Item.named_of_mem_ofLines (fun l hl => (htidy l hl).no_break) hmem,
      Item.tidy_of_mem_ofLines htidy hmem⟩

end ItemMap

end Docstring
