import Mathlib.Data.List.TakeWhile
import Docstring.Document
import Docstring.Proofs.Rows

/-!
# Normal layout

What the layout of a docstring does to its rows. The lines in which headers are looked for are
tidy, whatever the docstring (`tidy_of_mem_scanLines`). A docstring that is made of tidy rows
has them settled and nothing else (`scanLines_joinLines`): the first loses the white space in
front of it, the others lose their margin, and blank rows at either end go. Where the rows after
the first have no margin in common, they stay as they are (`settle_of_margin_eq_zero`).
-/

namespace Docstring

namespace Text

/-! ### Tabs -/

theorem tab_notMem_expandTabs (n : Nat) (l : Line) : '\t' ∉ expandTabs n l := by
  induction l generalizing n with
  | nil => simp [expandTabs]
  | cons c l ih =>
    rw [expandTabs]
    split
    · simp [ih]
    · next hc => simp [Ne.symm hc, ih]

/-- Nothing but spaces comes in for tabs. -/
theorem notMem_expandTabs {c : Char} (hc : c ≠ ' ') {l : Line} (h : c ∉ l) (n : Nat) :
    c ∉ expandTabs n l := by
  induction l generalizing n with
  | nil => exact h
  | cons e l ih =>
    simp only [List.mem_cons, not_or] at h
    rw [expandTabs]
    split
    · simp [hc, ih h.2]
    · simp [h.1, ih h.2]

theorem newline_notMem_expandTabs {l : Line} (h : '\n' ∉ l) (n : Nat) :
    '\n' ∉ expandTabs n l :=
  notMem_expandTabs (by decide) h n

theorem expandTabs_of_tab_notMem {l : Line} (h : '\t' ∉ l) (n : Nat) : expandTabs n l = l := by
  induction l generalizing n with
  | nil => rfl
  | cons c l ih =>
    simp only [List.mem_cons, not_or] at h
    rw [expandTabs, if_neg (Ne.symm h.1), ih h.2]

theorem map_expandTabs_of_tab_notMem {ls : List Line} (h : ∀ l ∈ ls, '\t' ∉ l) :
    ls.map (expandTabs 0) = ls :=
  (List.map_congr_left fun l hl => expandTabs_of_tab_notMem (h l hl) 0).trans (List.map_id ls)

/-! ### Margins -/

theorem trimStart_suffix (l : Line) : trimStart l <:+ l := List.dropWhile_suffix _

@[simp] theorem trimStart_trimStart (l : Line) : trimStart (trimStart l) = trimStart l :=
  List.dropWhile_idempotent isSpace l

theorem strip_suffix (n : Nat) (l : Line) : strip n l <:+ l := List.drop_suffix _ _

@[simp] theorem strip_nil (n : Nat) : strip n [] = [] := List.drop_nil

@[simp] theorem strip_zero (l : Line) : strip 0 l = l := by simp [strip]

theorem map_strip_zero (ls : List Line) : ls.map (strip 0) = ls :=
  (List.map_congr_left fun l _ => strip_zero l).trans (List.map_id ls)

/-- What is stripped is white space, so a row is as blank after it as before. -/
@[simp] theorem isBlank_strip (n : Nat) (l : Line) : isBlank (strip n l) = isBlank l := by
  have hfront : isBlank (l.take (min n (indentation l))) = true := by
    rw [isBlank_iff]
    intro c hc
    have hmem : c ∈ l.take (indentation l) :=
      (List.take_subset_take_left l (Nat.min_le_right _ _)) hc
    rw [indentation, ← List.prefix_iff_eq_take.1 (List.takeWhile_prefix isSpace)] at hmem
    exact List.mem_takeWhile_imp hmem
  conv_rhs => rw [← List.take_append_drop (min n (indentation l)) l, isBlank_append, hfront]
  rfl

@[simp] theorem isBlank_trimStart (l : Line) : isBlank (trimStart l) = isBlank l := by
  conv_rhs => rw [← List.takeWhile_append_dropWhile (p := isSpace) (l := l), isBlank_append]
  have hfront : isBlank (l.takeWhile isSpace) = true :=
    isBlank_iff.2 fun c hc => List.mem_takeWhile_imp hc
  rw [hfront]
  rfl

/-- A row that starts at column zero leaves no margin. -/
theorem margin_eq_zero {ls : List Line} {l : Line} (hl : l ∈ ls) (hb : isBlank l = false)
    (h0 : indentation l = 0) : margin ls = 0 := by
  have hmem : 0 ∈ (ls.filter (!isBlank ·)).map indentation :=
    List.mem_map.2 ⟨l, List.mem_filter.2 ⟨hl, by simp [hb]⟩, h0⟩
  rw [margin]
  cases hm : ((ls.filter (!isBlank ·)).map indentation).min? with
  | none => rfl
  | some a =>
    have ha := (List.min?_eq_some_iff.1 hm).2 0 hmem
    exact Nat.le_zero.1 ha

theorem margin_of_mem_cons {ls : List Line} {c : Char} {t : Line} (h : c :: t ∈ ls)
    (hc : isSpace c = false) : margin ls = 0 :=
  margin_eq_zero h (by simp [hc]) (by simp [indentation, hc])

@[simp] theorem margin_append_nil (ls : List Line) : margin (ls ++ [[]]) = margin ls := by
  simp [margin, List.filter_append]

/-! ### Blank rows at the ends -/

theorem trimBlankLines_append_of_isBlank (ls : List Line) {l : Line} (h : isBlank l = true) :
    trimBlankLines (ls ++ [l]) = trimBlankLines ls := by
  rw [trimBlankLines, trimBlankLines, List.dropWhile_append]
  split
  · next he =>
    rw [List.isEmpty_iff] at he
    simp [he, h]
  · exact dropEndWhile_concat_pos _ h

theorem trimBlankLines_sublist (ls : List Line) : (trimBlankLines ls).Sublist ls :=
  (dropEndWhile_prefix_self _ _).sublist.trans (List.dropWhile_suffix _).sublist

theorem mem_of_mem_trimBlankLines {ls : List Line} {l : Line} (h : l ∈ trimBlankLines ls) :
    l ∈ ls :=
  (trimBlankLines_sublist ls).subset h

/-- The last row that is left is not blank. -/
theorem isBlank_of_getLast?_trimBlankLines {ls : List Line} {l : Line}
    (h : (trimBlankLines ls).getLast? = some l) : isBlank l = false :=
  getLast?_dropEndWhile h

/-- The first row that is left is not blank. -/
theorem isBlank_of_head?_trimBlankLines {ls : List Line} {l : Line}
    (h : (trimBlankLines ls).head? = some l) : isBlank l = false := by
  obtain ⟨ms, hms⟩ := List.head?_eq_some_iff.1 h
  obtain ⟨w, hw⟩ := dropEndWhile_prefix_self isBlank (ls.dropWhile isBlank)
  have hhead := List.head?_dropWhile_not isBlank ls
  rw [trimBlankLines] at hms
  rw [← hw, hms] at hhead
  simpa using hhead

/-- Nothing goes from the start of rows whose first one is not blank. -/
theorem trimBlankLines_cons {l : Line} (h : isBlank l = false) (ls : List Line) :
    trimBlankLines (l :: ls) = dropEndWhile isBlank (l :: ls) := by
  rw [trimBlankLines, List.dropWhile_cons_of_neg (by simp [h])]

/-- Rows stay as they are where the first and the last show something. -/
theorem trimBlankLines_eq_self_iff {ls : List Line} :
    trimBlankLines ls = ls ↔ (∀ l, ls.head? = some l → isBlank l = false) ∧
      ∀ l, ls.getLast? = some l → isBlank l = false := by
  constructor
  · intro h
    constructor
    · intro l hl
      rw [← h] at hl
      exact isBlank_of_head?_trimBlankLines hl
    · intro l hl
      rw [← h] at hl
      exact isBlank_of_getLast?_trimBlankLines hl
  · rintro ⟨hhead, hlast⟩
    cases ls with
    | nil => rfl
    | cons l ls =>
      rw [trimBlankLines_cons (hhead l rfl)]
      exact dropEndWhile_eq_self_iff.2 hlast

@[simp] theorem trimBlankLines_trimBlankLines (ls : List Line) :
    trimBlankLines (trimBlankLines ls) = trimBlankLines ls :=
  trimBlankLines_eq_self_iff.2 ⟨fun _ => isBlank_of_head?_trimBlankLines,
    fun _ => isBlank_of_getLast?_trimBlankLines⟩

/-! ### Settled rows -/

/-- Rows in normal layout. -/
def settle : List Line → List Line
  | [] => []
  | first :: rest => trimBlankLines (trimStart first :: rest.map (strip (margin rest)))

theorem cleanLines_eq_settle (doc : Text) : cleanLines doc = settle (tabbedLines doc) := by
  rw [cleanLines]
  cases tabbedLines doc <;> rfl

/-- An empty row at the end changes nothing. -/
theorem settle_append_nil (ls : List Line) : settle (ls ++ [[]]) = settle ls := by
  cases ls with
  | nil => rfl
  | cons first rest =>
    rw [List.cons_append, settle, margin_append_nil, List.map_append, ← List.cons_append,
      List.map_singleton]
    exact trimBlankLines_append_of_isBlank _ (by simp)

/-- Each settled row is the end of a row. -/
theorem exists_suffix_of_mem_settle {ls : List Line} {l : Line} (h : l ∈ settle ls) :
    ∃ m ∈ ls, l <:+ m := by
  cases ls with
  | nil => simp [settle] at h
  | cons first rest =>
    rcases List.mem_cons.1 (mem_of_mem_trimBlankLines h) with rfl | h
    · exact ⟨first, List.mem_cons_self, trimStart_suffix first⟩
    · obtain ⟨m, hm, rfl⟩ := List.mem_map.1 h
      exact ⟨m, List.mem_cons_of_mem first hm, strip_suffix _ m⟩

theorem tidy_of_mem_settle {ls : List Line} (h : ∀ l ∈ ls, Tidy l) {l : Line}
    (hl : l ∈ settle ls) : Tidy l := by
  obtain ⟨m, hm, hs⟩ := exists_suffix_of_mem_settle hl
  exact (h m hm).of_suffix hs

theorem isBlank_of_getLast?_settle {ls : List Line} {l : Line}
    (h : (settle ls).getLast? = some l) : isBlank l = false := by
  cases ls with
  | nil => simp [settle] at h
  | cons first rest => exact isBlank_of_getLast?_trimBlankLines h

theorem isBlank_of_head?_settle {ls : List Line} {l : Line} (h : (settle ls).head? = some l) :
    isBlank l = false := by
  cases ls with
  | nil => simp [settle] at h
  | cons first rest => exact isBlank_of_head?_trimBlankLines h

theorem settle_of_margin_eq_zero {rest : List Line} (h : margin rest = 0) (first : Line) :
    settle (first :: rest) = trimBlankLines (trimStart first :: rest) := by
  rw [settle, h, map_strip_zero]

/-! ### How much there is in rows -/

/-- The characters of rows, with a line break for each. -/
def weight : List Line → Nat
  | [] => 0
  | l :: ls => l.length + 1 + weight ls

@[simp] theorem weight_nil : weight [] = 0 := rfl

@[simp] theorem weight_cons (l : Line) (ls : List Line) :
    weight (l :: ls) = l.length + 1 + weight ls := rfl

theorem weight_le_of_sublist {ls ms : List Line} (h : ls.Sublist ms) : weight ls ≤ weight ms := by
  induction h with
  | slnil => omega
  | cons l _ ih =>
    rw [weight_cons]
    omega
  | cons_cons l _ ih =>
    rw [weight_cons, weight_cons]
    omega

theorem weight_eq {ls : List Line} (h : ls ≠ []) : weight ls = (joinLines ls).length + 1 := by
  induction ls with
  | nil => exact absurd rfl h
  | cons l ls ih =>
    by_cases hne : ls = []
    · subst hne
      simp
    · rw [weight_cons, ih hne, joinLines_cons_of_ne_nil l hne, List.length_append, List.length_cons]
      omega

theorem weight_rows (t : Text) : weight (rows t) = t.length + 1 := by
  rw [weight_eq (rows_ne_nil t), joinLines_rows]

theorem weight_map_le {g : Line → Line} (hg : ∀ l, (g l).length ≤ l.length) (ls : List Line) :
    weight (ls.map g) ≤ weight ls := by
  induction ls with
  | nil => simp
  | cons l ls ih =>
    have hl := hg l
    rw [List.map_cons, weight_cons, weight_cons]
    omega

theorem weight_map_lt {g : Line → Line} (hg : ∀ l, (g l).length ≤ l.length) {ls : List Line}
    {l : Line} (hl : l ∈ ls) (hlt : (g l).length < l.length) : weight (ls.map g) < weight ls := by
  induction ls with
  | nil => simp at hl
  | cons m ls ih =>
    rw [List.map_cons, weight_cons, weight_cons]
    rcases List.mem_cons.1 hl with rfl | hl
    · have hle := weight_map_le hg ls
      omega
    · have hm := hg m
      have hlt := ih hl
      omega

theorem length_strip (n : Nat) (l : Line) :
    (strip n l).length = l.length - min n (indentation l) := by
  rw [strip, List.length_drop]

/-- A margin is the indentation of one of the rows, and of none is it more. -/
theorem exists_indentation_eq_margin {ls : List Line} (h : margin ls ≠ 0) :
    (∃ l ∈ ls, isBlank l = false ∧ indentation l = margin ls) ∧
      ∀ l ∈ ls, isBlank l = false → margin ls ≤ indentation l := by
  rw [margin] at h ⊢
  cases hm : ((ls.filter (!isBlank ·)).map indentation).min? with
  | none => simp [hm] at h
  | some n =>
    obtain ⟨hmem, hle⟩ := List.min?_eq_some_iff.1 hm
    obtain ⟨l, hl, hn⟩ := List.mem_map.1 hmem
    obtain ⟨hl, hb⟩ := List.mem_filter.1 hl
    refine ⟨⟨l, hl, by simpa using hb, hn⟩, fun j hj hjb => ?_⟩
    exact hle _ (List.mem_map.2 ⟨j, List.mem_filter.2 ⟨hj, by simp [hjb]⟩, rfl⟩)

theorem indentation_le (l : Line) : indentation l ≤ l.length :=
  (List.takeWhile_prefix isSpace).length_le

/-- Rows with a margin lose some of what they hold. -/
theorem weight_map_strip_lt {ls : List Line} (h : margin ls ≠ 0) :
    weight (ls.map (strip (margin ls))) < weight ls := by
  obtain ⟨⟨l, hl, -, hn⟩, -⟩ := exists_indentation_eq_margin h
  refine weight_map_lt (fun m => (strip_suffix _ m).length_le) hl ?_
  have hlen := indentation_le l
  rw [length_strip]
  omega

theorem strip_indentation (l : Line) : strip (indentation l) l = trimStart l := by
  have h : (l.takeWhile isSpace ++ l.dropWhile isSpace).drop (indentation l) = trimStart l :=
    List.drop_left' rfl
  rw [strip, Nat.min_self, ← h, List.takeWhile_append_dropWhile]

theorem indentation_trimStart (l : Line) : indentation (trimStart l) = 0 := by
  induction l with
  | nil => rfl
  | cons c l ih =>
    cases hc : isSpace c with
    | true => simpa [trimStart, hc] using ih
    | false => simp [trimStart, indentation, hc]

/-- Rows without their margin have none. -/
theorem margin_map_strip (ls : List Line) : margin (ls.map (strip (margin ls))) = 0 := by
  by_cases h : margin ls = 0
  · rw [h, map_strip_zero]
    exact h
  · obtain ⟨⟨l, hl, hb, hn⟩, -⟩ := exists_indentation_eq_margin h
    refine margin_eq_zero (List.mem_map_of_mem hl) (by rw [isBlank_strip, hb]) ?_
    rw [← hn, strip_indentation, indentation_trimStart]

/-- Settled rows hold less where there was a margin. -/
theorem weight_settle_lt {ls : List Line} (h : margin ls.tail ≠ 0) :
    weight (settle ls) < weight ls := by
  cases ls with
  | nil => exact absurd rfl h
  | cons l ls =>
    have hlt : weight (ls.map (strip (margin ls))) < weight ls := weight_map_strip_lt h
    have hle := weight_le_of_sublist
      (trimBlankLines_sublist (trimStart l :: ls.map (strip (margin ls))))
    have hfirst := (trimStart_suffix l).length_le
    rw [weight_cons] at hle ⊢
    rw [settle]
    omega

/-- Rows without a margin that show something have one that starts at column zero. -/
theorem exists_flush {ls : List Line} (h : margin ls = 0) (hb : ∃ l ∈ ls, isBlank l = false) :
    ∃ l ∈ ls, isBlank l = false ∧ indentation l = 0 := by
  rw [margin] at h
  cases hm : ((ls.filter (!isBlank ·)).map indentation).min? with
  | none =>
    obtain ⟨l, hl, hb⟩ := hb
    have hmem : indentation l ∈ (ls.filter (!isBlank ·)).map indentation :=
      List.mem_map_of_mem (List.mem_filter.2 ⟨hl, by simp [hb]⟩)
    rw [List.min?_eq_none_iff.1 hm] at hmem
    simp at hmem
  | some n =>
    obtain ⟨l, hl, hn⟩ := List.mem_map.1 (List.min?_eq_some_iff.1 hm).1
    obtain ⟨hl, hb⟩ := List.mem_filter.1 hl
    rw [hm] at h
    exact ⟨l, hl, by simpa using hb, hn.trans h⟩

/-- Rows with no margin leave none to rows that they are added to. -/
theorem margin_append_of_right (xs : List Line) {ys : List Line} (h : margin ys = 0)
    (hb : ∃ l ∈ ys, isBlank l = false) : margin (xs ++ ys) = 0 := by
  obtain ⟨l, hl, hb, h0⟩ := exists_flush h hb
  exact margin_eq_zero (List.mem_append_right xs hl) hb h0

theorem margin_dropEndWhile (ls : List Line) : margin (dropEndWhile isBlank ls) = margin ls := by
  induction ls using List.reverseRecOn with
  | nil => rfl
  | append_singleton ls l ih =>
    cases hb : isBlank l with
    | true =>
      rw [dropEndWhile_concat_pos ls hb, ih]
      simp [margin, List.filter_append, hb]
    | false => rw [dropEndWhile_concat_neg ls hb]

theorem margin_dropWhile (ls : List Line) : margin (ls.dropWhile isBlank) = margin ls := by
  induction ls with
  | nil => rfl
  | cons l ls ih =>
    cases hb : isBlank l with
    | true =>
      rw [List.dropWhile_cons_of_pos hb, ih]
      simp [margin, hb]
    | false => rw [List.dropWhile_cons_of_neg (by simp [hb])]

/-- Blank rows have no part in a margin. -/
theorem margin_trimBlankLines (ls : List Line) : margin (trimBlankLines ls) = margin ls := by
  rw [trimBlankLines, margin_dropEndWhile, margin_dropWhile]

/-- Blank rows at the end go before or after a change that leaves rows as blank as they are. -/
theorem dropEndWhile_map {g : Line → Line} (hg : ∀ l, isBlank (g l) = isBlank l)
    (ls : List Line) :
    dropEndWhile isBlank (ls.map g) = (dropEndWhile isBlank ls).map g := by
  induction ls using List.reverseRecOn with
  | nil => rfl
  | append_singleton ls l ih =>
    rw [List.map_append, List.map_singleton]
    cases hb : isBlank l with
    | true =>
      rw [dropEndWhile_concat_pos ls hb, ← ih]
      exact dropEndWhile_concat_pos _ (by rw [hg, hb])
    | false =>
      rw [dropEndWhile_concat_neg ls hb, List.map_append, List.map_singleton]
      exact dropEndWhile_concat_neg _ (by rw [hg, hb])

theorem dropEndWhile_map_strip (n : Nat) (ls : List Line) :
    dropEndWhile isBlank (ls.map (strip n)) = (dropEndWhile isBlank ls).map (strip n) :=
  dropEndWhile_map (isBlank_strip n) ls

theorem trimBlankLines_map {g : Line → Line} (hg : ∀ l, isBlank (g l) = isBlank l)
    (ls : List Line) : trimBlankLines (ls.map g) = (trimBlankLines ls).map g := by
  have hcomp : isBlank ∘ g = isBlank := funext hg
  rw [trimBlankLines, List.dropWhile_map, hcomp, dropEndWhile_map hg, trimBlankLines]

/-! ### Rows without their margin -/

/-- Rows without the margin that all of them share, from the first to the last that is not blank. -/
def level (ls : List Line) : List Line := trimBlankLines (ls.map (strip (margin ls)))

theorem dedentedLines_eq_level (t : Text) : dedentedLines t = level (tabbedLines t) := rfl

@[simp] theorem margin_level (ls : List Line) : margin (level ls) = 0 := by
  rw [level, margin_trimBlankLines, margin_map_strip]

@[simp] theorem trimBlankLines_level (ls : List Line) : trimBlankLines (level ls) = level ls :=
  trimBlankLines_trimBlankLines _

/-- Each row that is left is the end of a row. -/
theorem exists_suffix_of_mem_level {ls : List Line} {l : Line} (h : l ∈ level ls) :
    ∃ m ∈ ls, l <:+ m := by
  obtain ⟨m, hm, rfl⟩ := List.mem_map.1 (mem_of_mem_trimBlankLines h)
  exact ⟨m, hm, strip_suffix _ m⟩

/-! ### Blank docstrings -/

theorem isBlank_unifyBreaks {t : Text} (h : isBlank t = true) : isBlank (unifyBreaks t) = true := by
  fun_induction unifyBreaks t with
  | case1 => rfl
  | case2 t ih =>
    simp only [isBlank_cons, Bool.and_eq_true] at h
    rw [isBlank_cons, ih h.2.2, h.2.1]
    rfl
  | case3 c t _ ih =>
    simp only [isBlank_cons, Bool.and_eq_true] at h
    rw [isBlank_cons, ih h.2, h.1]
    rfl

/-- Splitting adds no character. -/
theorem mem_of_mem_splitBreaks {t : Text} {l : Line} {c : Char} (hl : l ∈ splitBreaks t)
    (hc : c ∈ l) : c ∈ t := by
  induction t generalizing l with
  | nil => simp [splitBreaks] at hl
  | cons e t ih =>
    unfold splitBreaks at hl
    split at hl
    · rcases List.mem_cons.1 hl with rfl | hl
      · simp at hc
      · exact List.mem_cons_of_mem e (ih hl hc)
    · cases hs : splitBreaks t with
      | nil =>
        rw [hs, consHead, List.mem_singleton] at hl
        subst hl
        exact List.mem_singleton.1 hc ▸ List.mem_cons_self
      | cons m ms =>
        rw [hs] at hl ih
        rcases List.mem_cons.1 hl with rfl | hl
        · rcases List.mem_cons.1 hc with rfl | hc
          · exact List.mem_cons_self
          · exact List.mem_cons_of_mem e (ih List.mem_cons_self hc)
        · exact List.mem_cons_of_mem e (ih (List.mem_cons_of_mem m hl) hc)

theorem isBlank_of_mem_splitBreaks {t : Text} (h : isBlank t = true) {l : Line}
    (hl : l ∈ splitBreaks t) : isBlank l = true :=
  isBlank_iff.2 fun c hc => isBlank_iff.1 h c (mem_of_mem_splitBreaks hl hc)

theorem isBlank_spaces (n : Nat) : isBlank (List.replicate n ' ') = true :=
  isBlank_iff.2 fun c hc => by rw [(List.mem_replicate.1 hc).2]; decide

/-- Spaces for tabs leave a row as blank as it is. -/
@[simp] theorem isBlank_expandTabs (n : Nat) (l : Line) :
    isBlank (expandTabs n l) = isBlank l := by
  induction l generalizing n with
  | nil => rfl
  | cons c l ih =>
    rw [expandTabs]
    split
    · next hc =>
      subst hc
      rw [isBlank_append, isBlank_spaces, ih, isBlank_cons]
      rfl
    · rw [isBlank_cons, ih, isBlank_cons]

/-- Nothing is left of a blank docstring in normal layout. -/
theorem clean_of_isBlank {t : Text} (h : isBlank t = true) : clean t = [] := by
  have hblank : ∀ l ∈ tabbedLines t, isBlank l = true := by
    intro l hl
    obtain ⟨m, hm, rfl⟩ := List.mem_map.1 hl
    rw [isBlank_expandTabs]
    exact isBlank_of_mem_splitBreaks (isBlank_unifyBreaks h) hm
  have hlines : cleanLines t = [] := by
    rw [cleanLines]
    cases ht : tabbedLines t with
    | nil => rfl
    | cons first rest =>
      rw [ht] at hblank
      have hall : ∀ l ∈ trimStart first :: rest.map (strip (margin rest)), isBlank l = true := by
        intro l hl
        rcases List.mem_cons.1 hl with rfl | hl
        · rw [isBlank_trimStart]
          exact hblank first List.mem_cons_self
        · obtain ⟨m, hm, rfl⟩ := List.mem_map.1 hl
          rw [isBlank_strip]
          exact hblank m (List.mem_cons_of_mem first hm)
      show trimBlankLines _ = []
      rw [trimBlankLines, dropWhile_nil_iff.2 hall, dropEndWhile_nil]
  rw [clean, hlines, joinLines_nil]

end Text

namespace Document

open Text

/-! ### The lines in which headers are looked for -/

theorem newline_notMem_of_mem_cleanLines {doc : Text} {l : Line} (h : l ∈ cleanLines doc) :
    '\n' ∉ l := by
  rw [cleanLines_eq_settle] at h
  obtain ⟨m, hm, hs⟩ := exists_suffix_of_mem_settle h
  obtain ⟨k, hk, rfl⟩ := List.mem_map.1 hm
  exact fun hn => newline_notMem_expandTabs (newline_notMem_of_mem_lines hk) 0 (hs.mem hn)

theorem tab_notMem_of_mem_cleanLines {doc : Text} {l : Line} (h : l ∈ cleanLines doc) :
    '\t' ∉ l := by
  rw [cleanLines_eq_settle] at h
  obtain ⟨m, hm, hs⟩ := exists_suffix_of_mem_settle h
  obtain ⟨k, -, rfl⟩ := List.mem_map.1 hm
  exact fun ht => tab_notMem_expandTabs 0 k (hs.mem ht)

theorem scanLines_eq (doc : Text) : scanLines doc = (cleanLines doc).map trimEnd := by
  refine map_trimEnd_lines_joinLines (fun l hl => newline_notMem_of_mem_cleanLines hl) ?_
  intro hlast
  rw [cleanLines_eq_settle] at hlast
  exact absurd (isBlank_of_getLast?_settle hlast) (by simp)

/-- **The lines in which headers are looked for are tidy**, whatever the docstring. -/
theorem tidy_of_mem_scanLines {doc : Text} {l : Line} (h : l ∈ scanLines doc) : Tidy l := by
  rw [scanLines_eq] at h
  obtain ⟨m, hm, rfl⟩ := List.mem_map.1 h
  have hp : trimEnd m <+: m := dropEndWhile_prefix_self _ _
  exact ⟨fun ht => tab_notMem_of_mem_cleanLines hm (hp.mem ht),
    fun hn => newline_notMem_of_mem_cleanLines hm (hp.mem hn), trimEnd_trimEnd m⟩

/-- The first of the lines in which headers are looked for shows something. -/
theorem isBlank_of_head?_scanLines {doc : Text} {l : Line} (h : (scanLines doc).head? = some l) :
    isBlank l = false := by
  rw [scanLines_eq, cleanLines_eq_settle, List.head?_map] at h
  obtain ⟨m, hm, rfl⟩ := Option.map_eq_some_iff.1 h
  rw [isBlank_trimEnd]
  exact isBlank_of_head?_settle hm

theorem tabbedLines_joinLines {ls : List Line} (h : ∀ l ∈ ls, Tidy l) :
    tabbedLines (joinLines ls) = lines (joinLines ls) := by
  have hmem : ∀ l ∈ lines (joinLines ls), l ∈ ls := by
    intro l hl
    rcases lines_joinLines h with hi | hi
    · rwa [hi] at hl
    · rw [← hi]
      exact List.mem_append_left _ hl
  exact map_expandTabs_of_tab_notMem fun l hl => (h l (hmem l hl)).no_tab

theorem cleanLines_joinLines {ls : List Line} (h : ∀ l ∈ ls, Tidy l) :
    cleanLines (joinLines ls) = settle ls := by
  rw [cleanLines_eq_settle, tabbedLines_joinLines h]
  rcases lines_joinLines h with hi | hi
  · rw [hi]
  · rw [← settle_append_nil, hi]

/-- **Tidy rows are settled and nothing else.** -/
theorem scanLines_joinLines {ls : List Line} (h : ∀ l ∈ ls, Tidy l) :
    scanLines (joinLines ls) = settle ls := by
  rw [scanLines_eq, cleanLines_joinLines h]
  exact (List.map_congr_left fun l hl => (tidy_of_mem_settle h hl).trimmed).trans (List.map_id _)

end Document

end Docstring
