import Mathlib.Data.List.DropRight
import Mathlib.Data.List.Induction
import Mathlib.Tactic.Common
import Docstring.Text.Layout

/-!
# Rows

The rows of a text are the stretches between its line feeds, one more than there are line
feeds. Rows lose nothing: joined, they are the text again. The lines of a text are its rows, but
for a last row that is empty and for a carriage return in front of a line feed.

A tidy row is one as the layout leaves it: no tab, no line feed and no white space at its end.
Tidy rows are read back as the lines of the text that they make (`lines_joinLines`).
-/

namespace Docstring

namespace Text

/-! ### White space -/

/-- Characters of ranges that are disjoint from others lie in none of those. -/
theorem not_inRanges_of_disjoint (rs : List (Nat × Nat)) {ss : List (Nat × Nat)}
    (h : ∀ r ∈ rs, ∀ s ∈ ss, r.2 < s.1 ∨ s.2 < r.1) {c : Char} (hc : inRanges rs c = true) :
    inRanges ss c = false := by
  obtain ⟨r, hr, hrc⟩ := List.any_eq_true.1 hc
  rw [inRanges, List.any_eq_false]
  intro s hs
  have hdisj := h r hr s hs
  simp only [Bool.and_eq_true, decide_eq_true_eq] at hrc ⊢
  omega

/-! ### Trimmed ends -/

section dropEndWhile

variable {α : Type} {p : α → Bool}

theorem dropEndWhile_append_of_forall (l : List α) {w : List α} (h : ∀ a ∈ w, p a = true) :
    dropEndWhile p (l ++ w) = dropEndWhile p l := by
  induction w using List.reverseRecOn with
  | nil => rw [List.append_nil]
  | append_singleton w a ih =>
    rw [← List.append_assoc, dropEndWhile_concat_pos _ (h a (by simp))]
    exact ih fun b hb => h b (List.mem_append_left [a] hb)

theorem dropEndWhile_eq_rdropWhile (p : α → Bool) (l : List α) :
    dropEndWhile p l = l.rdropWhile p := rfl

/-- What is dropped from the end satisfies `p`. -/
theorem exists_dropEndWhile_append (p : α → Bool) (l : List α) :
    ∃ w, dropEndWhile p l ++ w = l ∧ ∀ a ∈ w, p a = true :=
  ⟨l.rtakeWhile p, List.rdropWhile_append_rtakeWhile, fun _ ha => List.mem_rtakeWhile_imp ha⟩

theorem dropEndWhile_prefix_self (p : α → Bool) (l : List α) : dropEndWhile p l <+: l :=
  List.rdropWhile_prefix p l

theorem length_dropEndWhile_le (p : α → Bool) (l : List α) :
    (dropEndWhile p l).length ≤ l.length := (dropEndWhile_prefix_self p l).length_le

theorem dropEndWhile_eq_self_iff {l : List α} :
    dropEndWhile p l = l ↔ ∀ a, l.getLast? = some a → p a = false := by
  rw [dropEndWhile_eq_rdropWhile, List.rdropWhile_eq_self_iff]
  constructor
  · intro h a ha
    obtain ⟨ini, rfl⟩ := List.getLast?_eq_some_iff.1 ha
    simpa using h (by simp)
  · intro h hl
    simp [h _ (List.getLast?_eq_some_getLast hl)]

@[simp] theorem dropEndWhile_dropEndWhile (p : α → Bool) (l : List α) :
    dropEndWhile p (dropEndWhile p l) = dropEndWhile p l :=
  List.rdropWhile_idempotent p l

/-- The last member that is left does not satisfy `p`. -/
theorem getLast?_dropEndWhile {l : List α} {a : α} (h : (dropEndWhile p l).getLast? = some a) :
    p a = false :=
  dropEndWhile_eq_self_iff.1 (dropEndWhile_dropEndWhile p l) a h

/-- A first member that does not satisfy `p` is never dropped. -/
theorem dropEndWhile_cons_of_neg {a : α} (h : p a = false) (l : List α) :
    dropEndWhile p (a :: l) = a :: dropEndWhile p l := by
  induction l using List.reverseRecOn with
  | nil => exact dropEndWhile_concat_neg [] h
  | append_singleton l b ih =>
    cases hb : p b with
    | true =>
      rw [← List.cons_append, dropEndWhile_concat_pos _ hb, dropEndWhile_concat_pos _ hb, ih]
    | false => rw [← List.cons_append, dropEndWhile_concat_neg _ hb, dropEndWhile_concat_neg _ hb,
        List.cons_append]

end dropEndWhile

theorem trimEnd_append_of_isBlank {w : Text} (h : isBlank w = true) (t : Text) :
    trimEnd (t ++ w) = trimEnd t :=
  dropEndWhile_append_of_forall t (Text.isBlank_iff.1 h)

/-- What trimming takes off is white space. -/
theorem exists_trimEnd_append (t : Text) : ∃ w, trimEnd t ++ w = t ∧ isBlank w = true := by
  obtain ⟨w, hw, hb⟩ := exists_dropEndWhile_append isSpace t
  exact ⟨w, hw, Text.isBlank_iff.2 hb⟩

theorem trimEnd_eq_self_iff {t : Text} :
    trimEnd t = t ↔ ∀ c, t.getLast? = some c → isSpace c = false :=
  dropEndWhile_eq_self_iff

@[simp] theorem trimEnd_trimEnd (t : Text) : trimEnd (trimEnd t) = trimEnd t :=
  dropEndWhile_dropEndWhile isSpace t

theorem ne_nil_of_isBlank {t : Text} (h : isBlank t = false) : t ≠ [] := by
  rintro rfl
  simp at h

theorem isBlank_trimEnd (t : Text) : isBlank (trimEnd t) = isBlank t := by
  rw [Bool.eq_iff_iff, ← trimEnd_eq_nil_iff, trimEnd_trimEnd, trimEnd_eq_nil_iff]

/-! ### Rows -/

/-- The stretches between the line feeds of a text. -/
def rows (t : Text) : List Line := t.splitOn '\n'

@[simp] theorem rows_ne_nil (t : Text) : rows t ≠ [] := List.splitOn_ne_nil _ _

@[simp] theorem joinLines_rows (t : Text) : joinLines (rows t) = t := List.intercalate_splitOn '\n'

theorem rows_joinLines {ls : List Line} (hne : ls ≠ []) (h : ∀ l ∈ ls, '\n' ∉ l) :
    rows (joinLines ls) = ls :=
  List.splitOn_intercalate '\n' h hne

/-- What stands between separators has none of them in it. -/
theorem notMem_of_mem_splitOn {c : Char} {t l : Text} (h : l ∈ t.splitOn c) : c ∉ l := by
  induction t generalizing l with
  | nil =>
    rw [List.splitOn_nil, List.mem_singleton] at h
    simp [h]
  | cons a t ih =>
    rw [List.splitOn_cons_eq_if_modifyHead] at h
    obtain ⟨m, ms, hms⟩ := List.exists_cons_of_ne_nil (List.splitOn_ne_nil c t)
    rw [hms] at ih
    by_cases ha : a = c
    · simp only [ha, beq_self_eq_true, if_true, hms, List.mem_cons] at h
      rcases h with rfl | h
      · simp
      · exact ih (List.mem_cons.2 h)
    · have ha' : ¬ (a == c) = true := by simpa using ha
      rw [if_neg ha', hms, List.modifyHead_cons, List.mem_cons] at h
      rcases h with rfl | h
      · simp [Ne.symm ha, ih List.mem_cons_self]
      · exact ih (List.mem_cons_of_mem m h)

theorem newline_notMem_of_mem_rows {t : Text} {l : Line} (h : l ∈ rows t) : '\n' ∉ l :=
  notMem_of_mem_splitOn h

/-- Joined lists of lines, as one list joined. -/
theorem joinLines_append {xs ys : List Line} (hx : xs ≠ []) (hy : ys ≠ []) :
    joinLines (xs ++ ys) = joinLines xs ++ '\n' :: joinLines ys := by
  induction xs with
  | nil => exact absurd rfl hx
  | cons l xs ih =>
    by_cases hne : xs = []
    · subst hne
      rw [List.singleton_append, joinLines_cons_of_ne_nil l hy, joinLines_singleton]
    · rw [List.cons_append, joinLines_cons_of_ne_nil l (by simp [hne]), ih hne,
        joinLines_cons_of_ne_nil l hne, List.append_assoc, List.cons_append]

/-- A text in front of joined lines goes to the first of them. -/
theorem append_joinLines_cons (s : Text) (l : Line) (ls : List Line) :
    s ++ joinLines (l :: ls) = joinLines ((s ++ l) :: ls) := by
  cases ls with
  | nil => simp
  | cons m ms => simp

/-- Joined lines show nothing where none of them does. -/
theorem isBlank_joinLines (ls : List Line) : isBlank (joinLines ls) = ls.all isBlank := by
  induction ls with
  | nil => rfl
  | cons l ls ih =>
    by_cases hne : ls = []
    · subst hne
      simp
    · rw [joinLines_cons_of_ne_nil l hne, isBlank_append, isBlank_cons, ih, List.all_cons]
      rfl

/-- Texts that are joined lines each, joined. -/
theorem joinLines_map_joinLines {lss : List (List Line)} (h : ∀ ls ∈ lss, ls ≠ []) :
    joinLines (lss.map joinLines) = joinLines lss.flatten := by
  induction lss with
  | nil => rfl
  | cons ls lss ih =>
    have hls : ls ≠ [] := h ls List.mem_cons_self
    have hlss : ∀ ks ∈ lss, ks ≠ [] := fun ks hk => h ks (List.mem_cons_of_mem ls hk)
    by_cases hne : lss = []
    · subst hne
      simp
    · obtain ⟨ks, kss, rfl⟩ := List.exists_cons_of_ne_nil hne
      have hflat : (ks :: kss).flatten ≠ [] := by
        simp [hlss ks List.mem_cons_self]
      rw [List.map_cons, joinLines_cons_of_ne_nil _ (by simp), ih hlss, List.flatten_cons (l := ls),
        joinLines_append hls hflat]

/-- Texts that are joined lines each, with a blank line between each two, as one list joined. -/
theorem intercalate_map_joinLines {lss : List (List Line)} (hne : lss ≠ [])
    (h : ∀ ls ∈ lss, ls ≠ []) :
    ['\n', '\n'].intercalate (lss.map joinLines) ++ ['\n'] =
      joinLines (lss.flatMap fun ls => ls ++ [[]]) := by
  induction lss with
  | nil => exact absurd rfl hne
  | cons ls lss ih =>
    have hls : ls ≠ [] := h ls List.mem_cons_self
    have hend : joinLines (ls ++ [[]]) = joinLines ls ++ ['\n'] := by
      rw [joinLines_append hls (by simp)]
      rfl
    by_cases hlss : lss = []
    · subst hlss
      simp [hend]
    · obtain ⟨ks, kss, rfl⟩ := List.exists_cons_of_ne_nil hlss
      have hflat : (ks :: kss).flatMap (fun ls => ls ++ [[]]) ≠ [] := by simp
      have ih := ih hlss fun ms hm => h ms (List.mem_cons_of_mem ls hm)
      rw [List.flatMap_cons, joinLines_append (by simp) hflat, ← ih, hend, List.map_cons,
        List.map_cons, List.intercalate_cons_cons]
      simp

/-- The rows of a text, from rows that make it up with an empty one more. -/
theorem rows_append_nil {t : Text} {ls : List Line} (h : t ++ ['\n'] = joinLines ls)
    (hne : ls ≠ []) (hn : ∀ l ∈ ls, '\n' ∉ l) : rows t ++ [[]] = ls := by
  have hleft : ∀ l ∈ rows t ++ [[]], '\n' ∉ l := by
    intro l hl
    rcases List.mem_append.1 hl with hl | hl
    · exact newline_notMem_of_mem_rows hl
    · simp [List.mem_singleton.1 hl]
  have hjoin : joinLines (rows t ++ [[]]) = joinLines ls := by
    rw [joinLines_append (rows_ne_nil t) (by simp), joinLines_rows, ← h]
    rfl
  rw [← rows_joinLines (by simp) hleft, hjoin, rows_joinLines hne hn]

theorem trimStart_append {s : Text} (h : isBlank s = false) (t : Text) :
    trimStart (s ++ t) = trimStart s ++ t := by
  have hne : (s.dropWhile isSpace).isEmpty = false := by
    rw [List.isEmpty_eq_false_iff, ← trimStart, Ne, trimStart_eq_nil_iff, h]
    simp
  rw [trimStart, List.dropWhile_append, hne]
  rfl

/-- White space goes from the start of a text as it goes from the start of its first row. -/
theorem rows_trimStart {t : Text} {l : Line} {ls : List Line} (h : rows t ++ [[]] = l :: ls)
    (hb : isBlank l = false) : rows (trimStart t) ++ [[]] = trimStart l :: ls := by
  obtain ⟨r, rs, hrs⟩ := List.exists_cons_of_ne_nil (rows_ne_nil t)
  rw [hrs, List.cons_append, List.cons.injEq] at h
  obtain ⟨rfl, rfl⟩ := h
  have htrim : trimStart t = joinLines (trimStart r :: rs) := by
    rw [← joinLines_rows t, hrs]
    by_cases hne : rs = []
    · simp [hne]
    · rw [joinLines_cons_of_ne_nil _ hne, joinLines_cons_of_ne_nil _ hne, trimStart_append hb]
  have hn : ∀ m ∈ trimStart r :: rs, '\n' ∉ m := by
    intro m hm
    rcases List.mem_cons.1 hm with rfl | hm
    · have hr : '\n' ∉ r := newline_notMem_of_mem_rows (t := t) (hrs ▸ List.mem_cons_self)
      exact fun hmem => hr ((List.dropWhile_suffix _).mem hmem)
    · exact newline_notMem_of_mem_rows (t := t) (hrs ▸ List.mem_cons_of_mem r hm)
  rw [htrim, rows_joinLines (by simp) hn, List.cons_append]

/-- An empty row in front goes with the white space at the start. -/
theorem rows_trimStart_nil_cons {t : Text} {l : Line} {ls : List Line}
    (h : rows t ++ [[]] = [] :: l :: ls) (hb : isBlank l = false) :
    rows (trimStart t) ++ [[]] = trimStart l :: ls := by
  obtain ⟨r, rs, hrs⟩ := List.exists_cons_of_ne_nil (rows_ne_nil t)
  have hrs' := h
  rw [hrs, List.cons_append, List.cons.injEq] at hrs'
  obtain ⟨rfl, hrs'⟩ := hrs'
  have hne : rs ≠ [] := by
    rintro rfl
    rw [List.nil_append, List.cons.injEq] at hrs'
    simp [← hrs'.1] at hb
  have ht : t = '\n' :: joinLines rs := by
    rw [← joinLines_rows t, hrs, joinLines_cons_of_ne_nil _ hne]
    rfl
  have hn : ∀ m ∈ rs, '\n' ∉ m := fun m hm =>
    newline_notMem_of_mem_rows (t := t) (hrs ▸ List.mem_cons_of_mem _ hm)
  have htrim : trimStart t = trimStart (joinLines rs) := by
    rw [ht]
    exact List.dropWhile_cons_of_pos (by decide)
  rw [htrim]
  exact rows_trimStart (by rw [rows_joinLines hne hn, hrs']) hb

/-! ### Tidy rows -/

/-- A row as the layout leaves it. -/
structure Tidy (l : Line) : Prop where
  /-- Tabs are expanded. -/
  no_tab : '\t' ∉ l
  /-- A row is one line. -/
  no_break : '\n' ∉ l
  /-- Nothing stands after the last visible character. -/
  trimmed : trimEnd l = l

theorem tidy_iff {l : Line} : Tidy l ↔ '\t' ∉ l ∧ '\n' ∉ l ∧ trimEnd l = l :=
  ⟨fun h => ⟨h.no_tab, h.no_break, h.trimmed⟩, fun h => ⟨h.1, h.2.1, h.2.2⟩⟩

instance : DecidablePred Tidy := fun _ => decidable_of_iff _ tidy_iff.symm

namespace Tidy

theorem nil : Tidy [] := ⟨by simp, by simp, rfl⟩

/-- A blank row is empty. -/
theorem eq_nil {l : Line} (h : Tidy l) (hb : isBlank l = true) : l = [] := by
  rw [← h.trimmed]
  exact trimEnd_eq_nil_iff.2 hb

theorem isBlank_iff {l : Line} (h : Tidy l) : isBlank l = true ↔ l = [] :=
  ⟨h.eq_nil, fun e => e ▸ rfl⟩

/-- What is left of a row when some of its start goes. -/
theorem of_suffix {l m : Line} (h : Tidy m) (hs : l <:+ m) : Tidy l := by
  refine ⟨fun hm => h.no_tab (hs.mem hm), fun hm => h.no_break (hs.mem hm), ?_⟩
  have hm := trimEnd_eq_self_iff.1 h.trimmed
  rw [trimEnd_eq_self_iff]
  intro c hc
  obtain ⟨s, rfl⟩ := hs
  exact hm c (by rw [List.getLast?_append, hc]; rfl)

/-- A row with more in front of it, unless it is empty. -/
theorem append {s l : Line} (ht : '\t' ∉ s) (hn : '\n' ∉ s) (h : Tidy l) (hl : l ≠ []) :
    Tidy (s ++ l) := by
  refine ⟨by simp [ht, h.no_tab], by simp [hn, h.no_break], ?_⟩
  have hm := trimEnd_eq_self_iff.1 h.trimmed
  rw [trimEnd_eq_self_iff]
  intro c hc
  obtain ⟨e, he⟩ := Option.isSome_iff_exists.1 (List.getLast?_isSome.2 hl)
  rw [List.getLast?_append, he, Option.some_or] at hc
  exact hm c (he.trans hc)

end Tidy

/-- A blank row at the end goes with the white space at the end. -/
theorem trimEnd_joinLines_append_of_isBlank (ls : List Line) {l : Line} (h : isBlank l = true) :
    trimEnd (joinLines (ls ++ [l])) = trimEnd (joinLines ls) := by
  by_cases hne : ls = []
  · subst hne
    rw [List.nil_append, joinLines_singleton, trimEnd_eq_nil_iff.2 h]
    rfl
  · rw [joinLines_append hne (by simp), joinLines_singleton]
    exact trimEnd_append_of_isBlank (by simpa using ⟨by decide, h⟩) _

/-- Joined rows without white space at their end are the rows up to the last visible one. -/
theorem trimEnd_joinLines {ls : List Line} (h : ∀ l ∈ ls, Tidy l) :
    trimEnd (joinLines ls) = joinLines (dropEndWhile isBlank ls) := by
  induction ls using List.reverseRecOn with
  | nil => rfl
  | append_singleton ls l ih =>
    have hl : Tidy l := h l (by simp)
    cases hb : isBlank l with
    | true =>
      rw [dropEndWhile_concat_pos ls hb, trimEnd_joinLines_append_of_isBlank ls hb]
      exact ih fun m hm => h m (List.mem_append_left [l] hm)
    | false =>
      have hne : l ≠ [] := fun he => by simp [he] at hb
      have hjoin : ∃ s, joinLines (ls ++ [l]) = s ++ l := by
        by_cases hls : ls = []
        · exact ⟨[], by rw [hls, List.nil_append, joinLines_singleton, List.nil_append]⟩
        · refine ⟨joinLines ls ++ ['\n'], ?_⟩
          rw [joinLines_append hls (by simp), joinLines_singleton, List.append_assoc]
          rfl
      obtain ⟨s, hs⟩ := hjoin
      obtain ⟨e, he⟩ := Option.isSome_iff_exists.1 (List.getLast?_isSome.2 hne)
      rw [dropEndWhile_concat_neg ls hb, trimEnd_eq_self_iff]
      intro c hc
      rw [hs, List.getLast?_append, he, Option.some_or] at hc
      exact trimEnd_eq_self_iff.1 hl.trimmed c (he.trans hc)

/-! ### Lines and rows -/

/-- A line as it is read where a line feed comes after it. -/
def dropReturn (l : Line) : Line := if l.getLast? = some '\r' then l.dropLast else l

theorem dropReturn_cons_cons (c c' : Char) (l : Line) :
    dropReturn (c :: c' :: l) = c :: dropReturn (c' :: l) := by
  rw [dropReturn, dropReturn, List.getLast?_cons_cons]
  split <;> simp

theorem unifyBreaks_append_newline {l : Line} (h : '\n' ∉ l) (t : Text) :
    unifyBreaks (l ++ '\n' :: t) = dropReturn l ++ '\n' :: unifyBreaks t := by
  induction l with
  | nil => simp [unifyBreaks, dropReturn]
  | cons c l ih =>
    simp only [List.mem_cons, not_or] at h
    cases l with
    | nil =>
      by_cases hc : c = '\r'
      · subst hc
        simp [unifyBreaks, dropReturn]
      · rw [List.singleton_append, unifyBreaks, ← List.nil_append ('\n' :: t), ih (by simp)]
        · simp [dropReturn, hc]
        · rintro t' rfl
          exact absurd rfl hc
    | cons c' l =>
      have hc' : '\n' ≠ c' := fun e => h.2 (e ▸ List.mem_cons_self)
      rw [List.cons_append, unifyBreaks, ih h.2, dropReturn_cons_cons, List.cons_append]
      rintro t' rfl ht
      rw [List.cons_append, List.cons.injEq] at ht
      exact hc' ht.1.symm

theorem unifyBreaks_of_newline_notMem {l : Line} (h : '\n' ∉ l) : unifyBreaks l = l := by
  induction l with
  | nil => rfl
  | cons c l ih =>
    simp only [List.mem_cons, not_or] at h
    rw [unifyBreaks, ih h.2]
    rintro t' rfl rfl
    exact h.2 (by simp)

/-- A line in front of others is read first, without a carriage return at its end. -/
theorem lines_joinLines_cons {l : Line} (h : '\n' ∉ l) {ls : List Line} (hne : ls ≠ []) :
    lines (joinLines (l :: ls)) = dropReturn l :: lines (joinLines ls) := by
  have hd : '\n' ∉ dropReturn l := by
    rw [dropReturn]
    split
    · exact fun hm => h (List.dropLast_subset l hm)
    · exact h
  rw [joinLines_cons_of_ne_nil l hne, lines, unifyBreaks_append_newline h,
    splitBreaks_append_newline hd, lines]

theorem lines_of_newline_notMem {l : Line} (h : '\n' ∉ l) (hl : l ≠ []) : lines l = [l] := by
  rw [lines, unifyBreaks_of_newline_notMem h, splitBreaks_eq_singleton h hl]

/-- White space at the ends of lines aside, joined lines are read as they were. -/
theorem map_trimEnd_lines_joinLines {ls : List Line} (h : ∀ l ∈ ls, '\n' ∉ l)
    (hlast : ls.getLast? ≠ some []) : (lines (joinLines ls)).map trimEnd = ls.map trimEnd := by
  induction ls with
  | nil => rfl
  | cons l ls ih =>
    have hl : '\n' ∉ l := h l List.mem_cons_self
    by_cases hne : ls = []
    · subst hne
      have hl' : l ≠ [] := by
        rintro rfl
        exact hlast rfl
      rw [joinLines_singleton, lines_of_newline_notMem hl hl']
    · rw [List.getLast?_cons_of_ne_nil hne] at hlast
      rw [lines_joinLines_cons hl hne, List.map_cons, List.map_cons,
        ih (fun m hm => h m (List.mem_cons_of_mem l hm)) hlast]
      congr 1
      -- a carriage return is white space
      rw [dropReturn]
      split
      · next hr =>
        obtain ⟨ini, rfl⟩ := List.getLast?_eq_some_iff.1 hr
        rw [List.dropLast_concat, trimEnd_append_of_isBlank (by decide)]
      · rfl

theorem Tidy.dropReturn_eq {l : Line} (h : Tidy l) : dropReturn l = l := by
  rw [dropReturn, if_neg]
  intro hr
  have hs := trimEnd_eq_self_iff.1 h.trimmed _ hr
  exact absurd hs (by decide)

/-- **Tidy rows are read back**, save for a last one that is empty. -/
theorem lines_joinLines {ls : List Line} (h : ∀ l ∈ ls, Tidy l) :
    lines (joinLines ls) = ls ∨ lines (joinLines ls) ++ [[]] = ls := by
  induction ls with
  | nil => exact .inl rfl
  | cons l ls ih =>
    have hl : Tidy l := h l List.mem_cons_self
    by_cases hne : ls = []
    · subst hne
      rw [joinLines_singleton]
      by_cases hl' : l = []
      · subst hl'
        exact .inr rfl
      · exact .inl (lines_of_newline_notMem hl.no_break hl')
    · rw [lines_joinLines_cons hl.no_break hne, hl.dropReturn_eq]
      rcases ih fun m hm => h m (List.mem_cons_of_mem l hm) with hi | hi
      · exact .inl (by rw [hi])
      · exact .inr (by rw [List.cons_append, hi])

theorem lines_joinLines_of_getLast? {ls : List Line} (h : ∀ l ∈ ls, Tidy l)
    (hlast : ls.getLast? ≠ some []) : lines (joinLines ls) = ls := by
  rcases lines_joinLines h with hi | hi
  · exact hi
  · exact absurd (by rw [← hi]; simp) hlast

end Text

end Docstring
