import Docstring.Proofs.Layout
import Docstring.Proofs.Maps

/-!
# Items as rows

The items that rows are grouped into are those rows again, item by item, but for what stands in
front of the first name (`exists_flatMap_rows_ofLines`). So the items of a section, written
out, take no more rows than the section did (`length_rows_render_le`), and their rows are as tidy as
those of the section were.
-/

namespace Docstring

open Text

namespace Text

/-! ### Visible characters -/

/-- A word character shows. -/
theorem isSpace_of_isWord {c : Char} (h : isWord c = true) : isSpace c = false := by
  rw [isWord] at h
  split at h
  · next hlow =>
    by_contra hs
    rw [Bool.not_eq_false, isSpace, inRanges, List.any_eq_true] at hs
    obtain ⟨r, hr, hrc⟩ := hs
    have hascii : ∀ n < 0x80, ∀ r ∈ spaceRanges, (r.1 ≤ n && n ≤ r.2) = true →
        isAsciiWord (Char.ofNat n) = false := by decide
    have hno := hascii c.toNat hlow r hr hrc
    rw [Char.ofNat_toNat, h] at hno
    exact absurd hno (by simp)
  · split at h
    · exact not_inRanges_of_disjoint wordRangesLow (by decide +kernel) h
    · split at h
      · exact not_inRanges_of_disjoint wordRangesMid (by decide +kernel) h
      · exact not_inRanges_of_disjoint wordRangesHigh (by decide +kernel) h

/-! ### Indentation, row by row -/

/-- A row with padding in front, unless it is blank. -/
def padRow (padding : Text) (l : Line) : Line := if isBlank l then l else padding ++ l

theorem segments_of_newline_notMem {l : Line} (h : '\n' ∉ l) (hl : l ≠ []) : segments l = [l] := by
  induction l with
  | nil => exact absurd rfl hl
  | cons c l ih =>
    simp only [List.mem_cons, not_or] at h
    rw [segments, if_neg (Ne.symm h.1)]
    by_cases hne : l = []
    · subst hne
      rfl
    · rw [ih h.2 hne]
      rfl

theorem segments_append_newline {l : Line} (h : '\n' ∉ l) (t : Text) :
    segments (l ++ '\n' :: t) = (l ++ ['\n']) :: segments t := by
  induction l with
  | nil => simp [segments]
  | cons c l ih =>
    simp only [List.mem_cons, not_or] at h
    rw [List.cons_append, segments, if_neg (Ne.symm h.1), ih h.2]
    rfl

/-- A text is indented row by row. -/
theorem indent_joinLines (padding : Text) {ls : List Line} (h : ∀ l ∈ ls, '\n' ∉ l) :
    indent padding (joinLines ls) = joinLines (ls.map (padRow padding)) := by
  induction ls with
  | nil => rfl
  | cons l ls ih =>
    have hl : '\n' ∉ l := h l List.mem_cons_self
    by_cases hne : ls = []
    · subst hne
      by_cases hl' : l = []
      · subst hl'
        rfl
      · rw [joinLines_singleton, indent, segments_of_newline_notMem hl hl']
        simp [padRow]
    · have hcons : indent padding (l ++ '\n' :: joinLines ls) =
          padRow padding l ++ '\n' :: indent padding (joinLines ls) := by
        rw [indent, segments_append_newline hl, List.flatMap_cons, ← indent, isBlank_append, padRow]
        have hn : isBlank ['\n'] = true := by decide
        cases hb : isBlank l <;> simp [hn]
      rw [joinLines_cons_of_ne_nil l hne, hcons, ih fun m hm => h m (List.mem_cons_of_mem l hm),
        List.map_cons, joinLines_cons_of_ne_nil _ (by simpa using hne)]

theorem isBlank_padRow (padding : Text) (l : Line) :
    isBlank (padRow padding l) = isBlank l := by
  rw [padRow]
  cases hb : isBlank l <;> simp [hb]

theorem Tidy.padRow {padding : Text} (ht : '\t' ∉ padding) (hn : '\n' ∉ padding) {l : Line}
    (h : Tidy l) : Tidy (padRow padding l) := by
  rw [Text.padRow]
  split
  · exact h
  · next hb =>
    exact h.append ht hn fun he => hb (he ▸ rfl)

end Text

namespace Item

/-! ### Grouping -/

/-- The rows of an item as it stands in its section. -/
def rows (e : Text × Text) : List Line := Text.rows (e.1 ++ e.2)

theorem rows_eq_cons {name tail : Line} {below : List Line}
    (h : ∀ l ∈ (name ++ tail) :: below, '\n' ∉ l) :
    rows (name, joinLines (tail :: below)) = (name ++ tail) :: below := by
  rw [rows, append_joinLines_cons, rows_joinLines (by simp) h]

/-- The rows that belong to the item above are the first ones. -/
theorem prefix_group_fst (ls : List Line) : (group ls).1 <+: ls := by
  induction ls with
  | nil => exact List.prefix_rfl
  | cons l ls ih =>
    rw [group]
    cases start? l with
    | none => exact (List.prefix_cons_inj l).2 ih
    | some p => exact List.nil_prefix

/-- Rows that belong to the item above them do not start with a name. -/
theorem start?_of_mem_group {ls : List Line} {r : Line} (h : r ∈ (group ls).1) :
    start? r = none := by
  induction ls with
  | nil => simp [group] at h
  | cons l ls ih =>
    rw [group] at h
    cases hs : start? l with
    | some p => simp [hs] at h
    | none =>
      rw [hs] at h
      rcases List.mem_cons.1 h with rfl | h
      · exact hs
      · exact ih h

/-- The rows of an item that takes the rows below it. -/
theorem rows_group {name tail : Line} (hl : '\n' ∉ name ++ tail) {ls : List Line}
    (h : ∀ l ∈ ls, '\n' ∉ l) :
    rows (name, joinLines (tail :: (group ls).1)) = (name ++ tail) :: (group ls).1 := by
  refine rows_eq_cons fun m hm => ?_
  rcases List.mem_cons.1 hm with rfl | hm
  · exact hl
  · exact h m ((prefix_group_fst ls).mem hm)

/-- Grouping loses nothing. -/
theorem group_append {ls : List Line} (h : ∀ l ∈ ls, '\n' ∉ l) :
    (group ls).1 ++ (group ls).2.flatMap rows = ls := by
  induction ls with
  | nil => rfl
  | cons l ls ih =>
    have hls : ∀ m ∈ ls, '\n' ∉ m := fun m hm => h m (List.mem_cons_of_mem l hm)
    have ih := ih hls
    rw [group]
    cases hs : start? l with
    | none => rw [List.cons_append, ih]
    | some p =>
      obtain ⟨name, tail⟩ := p
      have hl := append_eq_of_start? hs
      rw [List.nil_append, List.flatMap_cons, rows_group (hl ▸ h l List.mem_cons_self) hls, hl,
        List.cons_append, ih]

/-- A name shows. -/
theorem isBlank_of_start? {l name tail : Line} (h : start? l = some (name, tail)) :
    isBlank name = false := by
  rw [start?] at h
  split at h
  · simp at h
  · next hne =>
    obtain ⟨rfl, -⟩ := Prod.mk.inj (Option.some.inj h)
    obtain ⟨c, w, hcw⟩ :=
      List.exists_cons_of_ne_nil (List.isEmpty_eq_false_iff.1 (Bool.eq_false_iff.2 hne))
    have hc : isWord c = true :=
      List.mem_takeWhile_imp (l := l.dropWhile (· = '*')) (hcw ▸ List.mem_cons_self)
    rw [isBlank_append, hcw, isBlank_cons, isSpace_of_isWord hc]
    simp

theorem isBlank_of_find? {l name tail : Line} (h : find? l = some (name, tail)) :
    isBlank name = false := by
  induction l with
  | nil => simp [find?] at h
  | cons c l ih =>
    rw [find?, Option.or_eq_some_iff] at h
    rcases h with h | ⟨-, h⟩
    · exact isBlank_of_start? h
    · exact ih h

/-- Every item shows its name. -/
theorem isBlank_of_mem_group {ls : List Line} {e : Text × Text} (h : e ∈ (group ls).2) :
    isBlank e.1 = false := by
  induction ls with
  | nil => simp [group] at h
  | cons l ls ih =>
    rw [group] at h
    cases hs : start? l with
    | none => exact ih (by simpa [hs] using h)
    | some p =>
      rw [hs] at h
      rcases List.mem_cons.1 h with rfl | h
      · exact isBlank_of_start? hs
      · exact ih h

theorem isBlank_of_mem_ofLines {ls : List Line} {e : Text × Text} (h : e ∈ ofLines ls) :
    isBlank e.1 = false := by
  induction ls with
  | nil => simp [ofLines] at h
  | cons l ls ih =>
    rw [ofLines] at h
    cases hs : find? l with
    | none => exact ih (by simpa [hs] using h)
    | some p =>
      rw [hs] at h
      rcases List.mem_cons.1 h with rfl | h
      · exact isBlank_of_find? hs
      · exact isBlank_of_mem_group h

/-- **The items of rows are those rows**, but for what stands in front of the first name. -/
theorem exists_flatMap_rows_ofLines {ls : List Line} (h : ∀ l ∈ ls, '\n' ∉ l) :
    ofLines ls = [] ∨ ∃ front l below l', ls = front ++ l :: below ∧ l' <:+ l ∧
      (ofLines ls).flatMap rows = l' :: below := by
  induction ls with
  | nil => exact .inl rfl
  | cons l ls ih =>
    rw [ofLines]
    cases hs : find? l with
    | none =>
      rcases ih fun m hm => h m (List.mem_cons_of_mem l hm) with ih | ih
      · exact .inl ih
      · obtain ⟨front, m, below, m', hls, hsuf, hrows⟩ := ih
        exact .inr ⟨l :: front, m, below, m', by rw [hls, List.cons_append], hsuf, hrows⟩
    | some p =>
      obtain ⟨name, tail⟩ := p
      obtain ⟨front, hl⟩ := exists_append_eq_of_find? hs
      have hls : ∀ m ∈ ls, '\n' ∉ m := fun m hm => h m (List.mem_cons_of_mem l hm)
      have hn : '\n' ∉ name ++ tail := fun hn =>
        h l List.mem_cons_self (hl ▸ List.mem_append_right front hn)
      refine .inr ⟨[], l, ls, name ++ tail, rfl, ⟨front, hl⟩, ?_⟩
      rw [List.flatMap_cons, rows_group hn hls, List.cons_append, group_append hls]

theorem length_flatMap_rows_ofLines_le {ls : List Line} (h : ∀ l ∈ ls, '\n' ∉ l) :
    ((ofLines ls).flatMap rows).length ≤ ls.length := by
  rcases exists_flatMap_rows_ofLines h with he | ⟨front, l, below, l', hls, -, hrows⟩
  · rw [he]
    simp
  · rw [hrows, hls]
    simp only [List.length_cons, List.length_append]
    omega

theorem exists_suffix_of_mem_rows_ofLines {ls : List Line} (h : ∀ l ∈ ls, '\n' ∉ l)
    {e : Text × Text} (he : e ∈ ofLines ls) {r : Line} (hr : r ∈ rows e) :
    ∃ l ∈ ls, r <:+ l := by
  have hmem : r ∈ (ofLines ls).flatMap rows := List.mem_flatMap.2 ⟨e, he, hr⟩
  rcases exists_flatMap_rows_ofLines h with hnil | ⟨front, l, below, l', hls, hsuf, hrows⟩
  · rw [hnil] at he
    simp at he
  · rw [hrows] at hmem
    rw [hls]
    rcases List.mem_cons.1 hmem with rfl | hmem
    · exact ⟨l, by simp, hsuf⟩
    · exact ⟨r, by simp [hmem], List.suffix_refl r⟩

theorem tidy_of_mem_ofLines {ls : List Line} (h : ∀ l ∈ ls, Tidy l) {e : Text × Text}
    (he : e ∈ ofLines ls) : ∀ r ∈ rows e, Tidy r := by
  intro r hr
  obtain ⟨l, hl, hs⟩ := exists_suffix_of_mem_rows_ofLines (fun l hl => (h l hl).no_break) he hr
  exact (h l hl).of_suffix hs

end Item

namespace ItemMap

/-! ### Written items -/

/-- The last row of items is the last row of the last one. -/
theorem getLast?_flatMap_rows {m : ItemMap} {e : Text × Text} (he : m.entries.getLast? = some e) :
    (m.entries.flatMap Item.rows).getLast? = (Item.rows e).getLast? := by
  obtain ⟨ini, hini⟩ := List.getLast?_eq_some_iff.1 he
  have hne : Item.rows e ≠ [] := rows_ne_nil _
  rw [hini, List.flatMap_append, List.flatMap_singleton, List.getLast?_append_of_ne_nil _ hne]

theorem newline_notMem_itemPadding (d : Dialect) : '\n' ∉ d.itemPadding := by
  cases d <;> decide

theorem tab_notMem_itemPadding (d : Dialect) : '\t' ∉ d.itemPadding := by
  cases d <;> decide

/-- The rows of written items. -/
theorem rows_render (d : Dialect) {m : ItemMap} (h : m.entries ≠ []) :
    rows (m.render d) = (m.entries.flatMap Item.rows).map (padRow d.itemPadding) := by
  have hentry : ∀ e : Text × Text, indent d.itemPadding (e.1 ++ e.2) =
      joinLines ((Item.rows e).map (padRow d.itemPadding)) := by
    intro e
    rw [Item.rows, ← indent_joinLines _ fun l hl => newline_notMem_of_mem_rows hl, joinLines_rows]
  have hnewline : ∀ l ∈ (m.entries.flatMap Item.rows).map (padRow d.itemPadding), '\n' ∉ l := by
    intro l hl
    obtain ⟨r, hr, rfl⟩ := List.mem_map.1 hl
    obtain ⟨e, -, hr⟩ := List.mem_flatMap.1 hr
    have hn : '\n' ∉ r := newline_notMem_of_mem_rows hr
    rw [padRow]
    split
    · exact hn
    · simp [hn, newline_notMem_itemPadding d]
  have hrender : m.render d =
      joinLines ((m.entries.flatMap Item.rows).map (padRow d.itemPadding)) := by
    have hmap : (m.entries.map fun e => indent d.itemPadding (e.1 ++ e.2)) =
        (m.entries.map fun e => (Item.rows e).map (padRow d.itemPadding)).map joinLines := by
      rw [List.map_map]
      exact List.map_congr_left fun e _ => hentry e
    rw [render, hmap, joinLines_map_joinLines, ← List.flatMap_def, List.map_flatMap]
    intro ls hls
    obtain ⟨e, -, rfl⟩ := List.mem_map.1 hls
    simp [Item.rows]
  rw [hrender, rows_joinLines _ hnewline]
  obtain ⟨e, es, he⟩ := List.exists_cons_of_ne_nil h
  simp [he, Item.rows]

theorem tidy_rows_render (d : Dialect) {m : ItemMap} (hne : m.entries ≠ [])
    (h : ∀ e ∈ m.entries, ∀ r ∈ Item.rows e, Tidy r) : ∀ r ∈ rows (m.render d), Tidy r := by
  intro r hr
  rw [rows_render d hne] at hr
  obtain ⟨s, hs, rfl⟩ := List.mem_map.1 hr
  obtain ⟨e, he, hs⟩ := List.mem_flatMap.1 hs
  exact (h e he s hs).padRow (tab_notMem_itemPadding d) (newline_notMem_itemPadding d)

/-- Written items show something. -/
theorem isBlank_render (d : Dialect) {m : ItemMap} (hne : m.entries ≠ [])
    (h : ∀ e ∈ m.entries, isBlank e.1 = false) : isBlank (m.render d) = false := by
  obtain ⟨e, es, he⟩ := List.exists_cons_of_ne_nil hne
  have hmem : e ∈ m.entries := he ▸ List.mem_cons_self
  have hindent : isBlank (indent d.itemPadding (e.1 ++ e.2)) = false := by
    rw [← joinLines_rows (e.1 ++ e.2), indent_joinLines _ fun l hl => newline_notMem_of_mem_rows hl,
      isBlank_joinLines, List.all_map]
    have hall : (isBlank ∘ padRow d.itemPadding) = isBlank := by
      funext l
      exact isBlank_padRow d.itemPadding l
    rw [hall, ← isBlank_joinLines, joinLines_rows, isBlank_append, h e hmem]
    rfl
  rw [render, isBlank_joinLines, he, List.map_cons, List.all_cons, hindent]
  rfl

/-! ### Items of a section of tidy rows -/

theorem tabbedLines_of_tidy {ls : List Line} (h : ∀ l ∈ ls, Tidy l)
    (hlast : ls.getLast? ≠ some []) : tabbedLines (joinLines ls) = ls := by
  rw [Document.tabbedLines_joinLines h, lines_joinLines_of_getLast? h hlast]

/-- The rows of a section without their margin. -/
theorem dedentedLines_joinLines {ls : List Line} (h : ∀ l ∈ ls, Tidy l)
    (hlast : ls.getLast? ≠ some []) :
    dedentedLines (joinLines ls) = trimBlankLines (ls.map (strip (margin ls))) := by
  simp only [dedentedLines, tabbedLines_of_tidy h hlast]

theorem newline_notMem_of_mem_dedentedLines {t : Text} {l : Line} (h : l ∈ dedentedLines t) :
    '\n' ∉ l := by
  obtain ⟨m, hm, hs⟩ := exists_suffix_of_mem_level h
  obtain ⟨k, hk, rfl⟩ := List.mem_map.1 hm
  exact fun hn => newline_notMem_expandTabs (newline_notMem_of_mem_lines hk) 0 (hs.mem hn)

theorem tidy_of_mem_dedentedLines {ls : List Line} (h : ∀ l ∈ ls, Tidy l)
    (hlast : ls.getLast? ≠ some []) {l : Line} (hl : l ∈ dedentedLines (joinLines ls)) :
    Tidy l := by
  rw [dedentedLines_joinLines h hlast] at hl
  obtain ⟨m, hm, hs⟩ := exists_suffix_of_mem_level hl
  exact (h m hm).of_suffix hs

theorem tidy_rows_parse {ls : List Line} (h : ∀ l ∈ ls, Tidy l) (hlast : ls.getLast? ≠ some [])
    {e : Text × Text} (he : e ∈ (parse (joinLines ls)).entries) :
    isBlank e.1 = false ∧ ∀ r ∈ Item.rows e, Tidy r := by
  have hmem := OrderedMap.mem_ofList he
  exact ⟨Item.isBlank_of_mem_ofLines hmem,
    Item.tidy_of_mem_ofLines (fun l hl => tidy_of_mem_dedentedLines h hlast hl) hmem⟩

/-- **Written out, the items of a section take no more rows than the section did.** -/
theorem length_rows_render_le (d : Dialect) {ls : List Line} (h : ∀ l ∈ ls, Tidy l)
    (hlast : ls.getLast? ≠ some []) (hne : (parse (joinLines ls)).entries ≠ []) :
    (rows ((parse (joinLines ls)).render d)).length ≤ ls.length := by
  have hof := OrderedMap.length_flatMap_ofList_le Item.rows
    (Item.ofLines (dedentedLines (joinLines ls)))
  have hlines := Item.length_flatMap_rows_ofLines_le
    fun l hl => (tidy_of_mem_dedentedLines h hlast hl).no_break
  have htrim := (trimBlankLines_sublist (ls.map (strip (margin ls)))).length_le
  rw [← dedentedLines_joinLines h hlast, List.length_map] at htrim
  rw [rows_render d hne, List.length_map]
  rw [parse]
  omega

end ItemMap

end Docstring
