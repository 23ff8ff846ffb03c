import Docstring.Merge
import Docstring.Proofs.Bodies

/-!
# Composed docstrings

A merge writes the sections that it keeps one below the other, a blank line between each two.
Row by row that is the rows of the summary and then a block for each further section
(`rows_compose`), so it is read as those would be, unless all rows after the first share a margin,
which takes a docstring with a single section (`get?_parse_compose`, `margin_cases`).
-/

namespace Docstring

open Text

variable {d : Dialect} {form : HeaderForm} {f : Section → Body} {k : Section} {m t : Text}

/-! ### Rows of a composed docstring -/

/-- The header of a section as it is written, without its underline. -/
def heading (form : HeaderForm) (k : Section) : Line :=
  match form with
  | .underlined => k.name
  | .colon => k.name ++ [':']

theorem heads_heading (hk : k ∈ d.sections) : d.Heads form k (heading form k) := by
  cases form with
  | underlined => exact .inl ⟨hk, rfl⟩
  | colon => exact .inr ⟨k.name, .inl ⟨hk, rfl⟩, rfl⟩

theorem newline_notMem_of_mem_rows_heading (hk : k ∈ d.sections) {ls : List Line}
    (h : ∀ l ∈ ls, '\n' ∉ l) : ∀ l ∈ Block.rows form ⟨k, heading form k, ls⟩, '\n' ∉ l := by
  have hheads : d.Heads form k (heading form k) := heads_heading hk
  have htidy := Document.tidy_rows (b := ⟨k, heading form k, []⟩) hheads (by simp)
  intro l hl
  cases form with
  | underlined =>
    rcases List.mem_cons.1 hl with rfl | hl
    · exact (htidy _ (by simp [Block.rows])).no_break
    · rcases List.mem_cons.1 hl with rfl | hl
      · exact (htidy _ (by simp [Block.rows])).no_break
      · exact h l hl
  | colon =>
    rcases List.mem_cons.1 hl with rfl | hl
    · exact (htidy _ (by simp [Block.rows])).no_break
    · exact h l hl

theorem renderHeader_append (hd : d.headerForm = some form) (hk : k ≠ .shortSummary) (t : Text) :
    d.renderHeader k ++ t = joinLines (Block.rows form ⟨k, heading form k, rows t⟩) := by
  rw [Dialect.renderHeader, if_neg hk, hd]
  cases form with
  | underlined =>
    simp [Block.rows, heading, joinLines_cons_of_ne_nil _ (rows_ne_nil t)]
  | colon =>
    simp [Block.rows, heading, joinLines_cons_of_ne_nil _ (rows_ne_nil t)]

/-- Sections as they are written, one below the other. -/
def compose (d : Dialect) (f : Section → Body) : Option Text :=
  Merge.joinSections (d.sections.filterMap fun k =>
    ((f k).render? d).map (d.renderHeader k ++ ·))

/-- The rows of the summary, which stand first and under no header, with the blank one below. -/
def opening (d : Dialect) (f : Section → Body) : List Line :=
  match (f .shortSummary).render? d with
  | some t => rows t ++ [[]]
  | none => []

/-- The blocks of some sections as they are written, each with the blank row below. -/
def written (d : Dialect) (form : HeaderForm) (f : Section → Body) (ks : List Section) :
    List Block :=
  ks.filterMap fun k => ((f k).render? d).map fun t => ⟨k, heading form k, rows t ++ [[]]⟩

theorem written_append (ks js : List Section) :
    written d form f (ks ++ js) = written d form f ks ++ written d form f js :=
  List.filterMap_append

/-- The rows of a section as it is written, header included. -/
def pieceRows (form : HeaderForm) (k : Section) (t : Text) : List Line :=
  if k = .shortSummary then rows t else Block.rows form ⟨k, heading form k, rows t⟩

theorem joinLines_pieceRows (hd : d.headerForm = some form) (k : Section) (t : Text) :
    joinLines (pieceRows form k t) = d.renderHeader k ++ t := by
  rw [pieceRows]
  split
  · next hk => rw [joinLines_rows, Dialect.renderHeader, if_pos hk, List.nil_append]
  · next hk => exact (renderHeader_append hd hk t).symm

theorem pieceRows_ne_nil (form : HeaderForm) (k : Section) (t : Text) :
    pieceRows form k t ≠ [] := by
  rw [pieceRows]
  split
  · exact rows_ne_nil t
  · cases form <;> simp [Block.rows]

theorem newline_notMem_of_mem_pieceRows (hk : k ∈ d.sections) :
    ∀ l ∈ pieceRows form k t, '\n' ∉ l := by
  rw [pieceRows]
  split
  · exact fun l hl => newline_notMem_of_mem_rows hl
  · exact newline_notMem_of_mem_rows_heading hk fun l hl => newline_notMem_of_mem_rows hl

theorem flatMap_written {ks : List Section} (hk : .shortSummary ∉ ks) :
    (ks.filterMap fun k => ((f k).render? d).map (pieceRows form k)).flatMap
        (fun ls => ls ++ [[]]) =
      (written d form f ks).flatMap (Block.rows form) := by
  induction ks with
  | nil => rfl
  | cons k ks ih =>
    simp only [List.mem_cons, not_or] at hk
    rw [written, List.filterMap_cons, List.filterMap_cons]
    cases (f k).render? d with
    | none => exact ih hk.2
    | some t =>
      have hpiece : pieceRows form k t ++ [[]] =
          Block.rows form ⟨k, heading form k, rows t ++ [[]]⟩ := by
        rw [pieceRows, if_neg (Ne.symm hk.1)]
        cases form <;> rfl
      simp only [Option.map_some, List.flatMap_cons]
      rw [hpiece, ih hk.2, written]

theorem sections_eq_cons (hd : d.headerForm = some form) :
    d.sections = .shortSummary :: d.sections.tail := by
  cases d <;> simp [Dialect.headerForm] at hd <;> rfl

theorem shortSummary_mem_sections (hd : d.headerForm = some form) : .shortSummary ∈ d.sections := by
  rw [sections_eq_cons hd]
  exact List.mem_cons_self

theorem shortSummary_notMem_tail (d : Dialect) : .shortSummary ∉ d.sections.tail := by
  cases d <;> decide

/-- **The rows of a composed docstring** are those of the summary and then a block for each further
section. -/
theorem rows_compose (hd : d.headerForm = some form) (hm : compose d f = some m) :
    rows m ++ [[]] =
      opening d f ++ (written d form f d.sections.tail).flatMap (Block.rows form) := by
  let pieces := d.sections.filterMap fun k => ((f k).render? d).map (pieceRows form k)
  have hpieces : (d.sections.filterMap fun k => ((f k).render? d).map (d.renderHeader k ++ ·)) =
      pieces.map joinLines := by
    rw [List.map_filterMap]
    refine List.filterMap_congr fun k _ => ?_
    rw [Option.map_map]
    congr 1
    funext t
    exact (joinLines_pieceRows hd k t).symm
  have hmem : ∀ ls ∈ pieces, ls ≠ [] ∧ ∀ l ∈ ls, '\n' ∉ l := by
    intro ls hls
    obtain ⟨k, hk, hmap⟩ := List.mem_filterMap.1 hls
    obtain ⟨t, -, rfl⟩ := Option.map_eq_some_iff.1 hmap
    exact ⟨pieceRows_ne_nil form k t, newline_notMem_of_mem_pieceRows hk⟩
  have hnewline : ∀ l ∈ pieces.flatMap (fun ls => ls ++ [[]]), '\n' ∉ l := by
    intro l hl
    obtain ⟨ls, hls, hl⟩ := List.mem_flatMap.1 hl
    rcases List.mem_append.1 hl with hl | hl
    · exact (hmem ls hls).2 l hl
    · simp [List.mem_singleton.1 hl]
  rw [compose, hpieces, Merge.joinSections] at hm
  split at hm
  · simp at hm
  · next hne =>
    have hne : pieces ≠ [] := fun he => hne (by rw [he]; rfl)
    have hm := Option.some.inj hm
    have hjoin := intercalate_map_joinLines hne fun ls hls => (hmem ls hls).1
    rw [hm] at hjoin
    have hflat : pieces.flatMap (fun ls => ls ++ [[]]) ≠ [] := by
      obtain ⟨ls, lss, hls⟩ := List.exists_cons_of_ne_nil hne
      simp [hls]
    have hrows := rows_append_nil hjoin hflat hnewline
    rw [hrows]
    show (d.sections.filterMap _).flatMap _ = _
    rw [← flatMap_written (shortSummary_notMem_tail d), opening]
    conv_lhs => rw [sections_eq_cons hd, List.filterMap_cons]
    cases (f .shortSummary).render? d with
    | none => rfl
    | some t => simp [pieceRows]

/-! ### What is legible -/

/-- Whatever is written of the sections has tidy rows and shows something. -/
def Legible (d : Dialect) (f : Section → Body) : Prop :=
  ∀ k ∈ d.sections, ∀ t, (f k).render? d = some t → (∀ r ∈ rows t, Tidy r) ∧ isBlank t = false

theorem mem_written {ks : List Section} {b : Block} (h : b ∈ written d form f ks) :
    ∃ k ∈ ks, ∃ t, (f k).render? d = some t ∧ b = ⟨k, heading form k, rows t ++ [[]]⟩ := by
  obtain ⟨k, hk, hmap⟩ := List.mem_filterMap.1 h
  obtain ⟨t, ht, rfl⟩ := Option.map_eq_some_iff.1 hmap
  exact ⟨k, hk, t, ht, rfl⟩

theorem heads_of_mem_written {b : Block} (h : b ∈ written d form f d.sections.tail) :
    d.Heads form b.kind b.header := by
  obtain ⟨k, hk, t, -, rfl⟩ := mem_written h
  exact heads_heading (List.mem_of_mem_tail hk)

theorem exists_visible_of_isBlank {ls : List Line} (h : isBlank (joinLines ls) = false) :
    ∃ l ∈ ls, isBlank l = false := by
  rw [isBlank_joinLines, List.all_eq_false] at h
  obtain ⟨l, hl, hb⟩ := h
  exact ⟨l, hl, by simpa using hb⟩

namespace Legible

theorem tidy_opening (hf : Legible d f) (hd : d.headerForm = some form) :
    ∀ r ∈ opening d f, Tidy r := by
  intro r hr
  rw [opening] at hr
  split at hr
  · next t ht =>
    have hk := shortSummary_mem_sections hd
    rcases List.mem_append.1 hr with hr | hr
    · exact (hf _ hk t ht).1 r hr
    · exact List.mem_singleton.1 hr ▸ Tidy.nil
  · simp at hr

theorem tidy_written (hf : Legible d f) {b : Block} (h : b ∈ written d form f d.sections.tail) :
    ∀ r ∈ b.body, Tidy r := by
  obtain ⟨k, hk, t, ht, rfl⟩ := mem_written h
  intro r hr
  rcases List.mem_append.1 hr with hr | hr
  · exact (hf k (List.mem_of_mem_tail hk) t ht).1 r hr
  · exact List.mem_singleton.1 hr ▸ Tidy.nil

theorem tidy_rows (hf : Legible d f) (hd : d.headerForm = some form)
    (hm : compose d f = some m) : ∀ r ∈ rows m, Tidy r := by
  intro r hr
  have hmem : r ∈ rows m ++ [[]] := List.mem_append_left _ hr
  rw [rows_compose hd hm] at hmem
  rcases List.mem_append.1 hmem with hr | hr
  · exact hf.tidy_opening hd r hr
  · obtain ⟨b, hb, hr⟩ := List.mem_flatMap.1 hr
    exact Document.tidy_rows (heads_of_mem_written hb) (hf.tidy_written hb) r hr

/-- A summary that is written shows something. -/
theorem exists_visible_opening (hf : Legible d f) (hd : d.headerForm = some form)
    (hne : opening d f ≠ []) : ∃ l ∈ opening d f, isBlank l = false := by
  rw [opening] at hne ⊢
  split at hne
  · next t ht =>
    have hk := shortSummary_mem_sections hd
    have hb := (hf _ hk t ht).2
    rw [← joinLines_rows t] at hb
    obtain ⟨l, hl, hb⟩ := exists_visible_of_isBlank hb
    exact ⟨l, List.mem_append_left _ hl, hb⟩
  · simp at hne

end Legible

/-! ### Reading a composed docstring -/

/-- Rows as they are read where those after the first have no margin. -/
def lead : List Line → List Line
  | [] => []
  | l :: ls => (trimStart l :: ls).dropWhile isBlank

theorem lead_append {xs : List Line} (h : ∃ l ∈ xs, isBlank l = false) (ys : List Line) :
    lead (xs ++ ys) = lead xs ++ ys := by
  cases xs with
  | nil => simp at h
  | cons l xs =>
    have hne : ((trimStart l :: xs).dropWhile isBlank).isEmpty = false := by
      rw [List.isEmpty_eq_false_iff]
      intro he
      rw [dropWhile_nil_iff] at he
      obtain ⟨v, hv, hb⟩ := h
      rcases List.mem_cons.1 hv with rfl | hv
      · have hblank := he _ List.mem_cons_self
        rw [isBlank_trimStart, hb] at hblank
        simp at hblank
      · rw [he v (List.mem_cons_of_mem _ hv)] at hb
        simp at hb
    rw [List.cons_append, lead, lead, ← List.cons_append, List.dropWhile_append, hne]
    rfl

/-- Rows that start at column zero are read as they stand. -/
theorem lead_cons {c : Char} {l : Line} (hc : isSpace c = false) (ls : List Line) :
    lead ((c :: l) :: ls) = (c :: l) :: ls := by
  have htrim : trimStart (c :: l) = c :: l := List.dropWhile_cons_of_neg (by simp [hc])
  rw [lead, htrim, List.dropWhile_cons_of_neg (by simp [hc])]

/-- Rows lose something where the first one starts with no visible character. -/
theorem weight_lead_lt {l : Line} (hl : ∀ c s, l = c :: s → isSpace c = true) (ls : List Line) :
    weight (lead (l :: ls)) < weight (l :: ls) := by
  cases l with
  | nil =>
    have hle : weight (ls.dropWhile isBlank) ≤ weight ls :=
      weight_le_of_sublist (List.dropWhile_suffix _).sublist
    have hlead : lead ([] :: ls) = ls.dropWhile isBlank := rfl
    rw [hlead, weight_cons]
    omega
  | cons c s =>
    have htrim : trimStart (c :: s) = trimStart s := List.dropWhile_cons_of_pos (hl c s rfl)
    have hle := weight_le_of_sublist
      (List.dropWhile_suffix (l := trimStart s :: ls) isBlank).sublist
    have hlen := (trimStart_suffix s).length_le
    rw [lead, htrim]
    rw [weight_cons] at hle ⊢
    rw [List.length_cons]
    omega

/-- The first row starts like the text, unless it is empty. -/
theorem exists_rows_eq_cons {c : Char} {s : Text} (ht : t = c :: s) :
    ∃ l ls, rows t = l :: ls ∧ (∀ e r, l = e :: r → e = c) ∧ (l = [] → c = '\n') := by
  obtain ⟨l, ls, hls⟩ := List.exists_cons_of_ne_nil (rows_ne_nil t)
  have hjoin : joinLines (l :: ls) = c :: s := by rw [← hls, joinLines_rows, ht]
  refine ⟨l, ls, hls, ?_, ?_⟩
  · rintro e r rfl
    cases ls with
    | nil => exact (List.cons.inj hjoin).1
    | cons m ms => exact (List.cons.inj hjoin).1
  · rintro rfl
    cases ls with
    | nil => simp at hjoin
    | cons m ms => exact (List.cons.inj hjoin).1.symm

/-- The rows of a text are read as they stand exactly where it starts with a visible character,
else as less. -/
theorem lead_rows_cases (hne : t ≠ []) :
    trimStart t = t ∧ lead (rows t) = rows t ∨
      trimStart t ≠ t ∧ weight (lead (rows t)) < weight (rows t) := by
  obtain ⟨c, s, hcs⟩ := List.exists_cons_of_ne_nil hne
  obtain ⟨l, ls, hls, hfirst, hempty⟩ := exists_rows_eq_cons hcs
  cases hc : isSpace c with
  | true =>
    refine .inr ⟨fun he => ?_, ?_⟩
    · have hlen := (trimStart_suffix s).length_le
      have hdrop : trimStart (c :: s) = trimStart s := List.dropWhile_cons_of_pos hc
      rw [hcs, hdrop] at he
      rw [he, List.length_cons] at hlen
      omega
    · rw [hls]
      exact weight_lead_lt (fun e r her => hfirst e r her ▸ hc) ls
  | false =>
    refine .inl ⟨?_, ?_⟩
    · rw [hcs]
      exact List.dropWhile_cons_of_neg (by simp [hc])
    · cases l with
      | nil =>
        rw [hempty rfl] at hc
        exact absurd hc (by decide)
      | cons e r =>
        obtain rfl := hfirst e r rfl
        rw [hls, lead_cons hc]

/-- What a section holds of tidy rows that have no margin after the first. -/
theorem get?_parse_of_margin (hd : d.headerForm = some form) (hk : k ∈ d.sections)
    {ls : List Line} (h : ∀ l ∈ ls, Tidy l) (h0 : margin ls.tail = 0) :
    (Document.parse d (some (joinLines ls))).get? k =
      some (Block.reading k ((Block.summary (lead ls)).spread d)) := by
  rw [Document.get?_parse_joinLines hd hk h]
  cases ls with
  | nil => rfl
  | cons l ls =>
    rw [List.tail_cons] at h0
    rw [settle_of_margin_eq_zero h0, trimBlankLines, Block.reading_summary_dropEndWhile]
    rfl

theorem exists_cons_of_mem_written {b : Block} (hb : b ∈ written d form f d.sections.tail) :
    ∃ c l ls, b.rows form = (c :: l) :: ls ∧ isSpace c = false := by
  obtain ⟨c, l, hc, hs, -⟩ := Document.exists_mem_rows (heads_of_mem_written hb)
  cases form with
  | underlined => exact ⟨c, l, _, by rw [Block.rows, hc], hs⟩
  | colon => exact ⟨c, l, _, by rw [Block.rows, hc], hs⟩

/-- A composed docstring shows something. -/
theorem exists_visible_compose (hf : Legible d f) (hd : d.headerForm = some form)
    (hm : compose d f = some m) : ∃ l ∈ rows m, isBlank l = false := by
  have hvisible : ∃ l ∈ rows m ++ [[]], isBlank l = false := by
    rw [rows_compose hd hm]
    by_cases hne : opening d f = []
    · cases hw : written d form f d.sections.tail with
      | nil =>
        have hrows := rows_compose hd hm
        rw [hne, hw] at hrows
        simp at hrows
      | cons b bs =>
        have hb : b ∈ written d form f d.sections.tail := hw ▸ List.mem_cons_self
        obtain ⟨c, l, ls, hrows, hc⟩ := exists_cons_of_mem_written hb
        exact ⟨c :: l, by simp [hrows], by simp [hc]⟩
    · obtain ⟨l, hl, hb⟩ := hf.exists_visible_opening hd hne
      exact ⟨l, List.mem_append_left _ hl, hb⟩
  obtain ⟨l, hl, hb⟩ := hvisible
  rcases List.mem_append.1 hl with hl | hl
  · exact ⟨l, hl, hb⟩
  · simp [List.mem_singleton.1 hl] at hb

/-- **A composed docstring is read as its summary and its blocks would be**, where the rows after
the first have no margin. -/
theorem get?_parse_compose (hf : Legible d f) (hd : d.headerForm = some form)
    (hk : k ∈ d.sections) (hm : compose d f = some m) (h0 : margin (rows m).tail = 0) :
    (Document.parse d (some m)).get? k =
      some (Block.reading k ((Block.summary (lead (opening d f))).spread d ++
        (written d form f d.sections.tail).flatMap (Block.spread d))) := by
  have hparse := get?_parse_of_margin hd hk (hf.tidy_rows hd hm) h0
  have hblank : Block.reading k ((Block.summary (lead (rows m))).spread d) =
      Block.reading k ((Block.summary (lead (rows m ++ [[]]))).spread d) := by
    rw [lead_append (exists_visible_compose hf hd hm)]
    exact (Block.reading_spread_append d (Block.summary (lead (rows m))) k rfl).symm
  have hlead : lead (rows m ++ [[]]) = lead (opening d f) ++
      (written d form f d.sections.tail).flatMap (Block.rows form) := by
    rw [rows_compose hd hm]
    by_cases hne : opening d f = []
    · rw [hne, List.nil_append]
      cases hw : written d form f d.sections.tail with
      | nil => rfl
      | cons b bs =>
        have hb : b ∈ written d form f d.sections.tail := hw ▸ List.mem_cons_self
        obtain ⟨c, l, ls, hrows, hc⟩ := exists_cons_of_mem_written hb
        rw [List.flatMap_cons, hrows, List.cons_append, lead_cons hc]
        rfl
    · exact lead_append (hf.exists_visible_opening hd hne) _
  rw [joinLines_rows] at hparse
  rw [hparse, hblank, hlead, Block.spread, Block.spread, Block.summary, Block.summary,
    Dialect.segment_append_flatMap_rows hd _ fun b hb => heads_of_mem_written hb]
  rfl

/-- **The rows after the first have no margin** unless there is a single section: the summary, or
one under a header without an underline. -/
theorem margin_cases (hd : d.headerForm = some form) (hm : compose d f = some m) :
    margin (rows m).tail = 0 ∨ written d form f d.sections.tail = [] ∨
      form = .colon ∧ opening d f = [] ∧ ∃ b, written d form f d.sections.tail = [b] := by
  have hrows := rows_compose hd hm
  have htail : margin (rows m).tail = margin (rows m ++ [[]]).tail := by
    obtain ⟨l, ls, hls⟩ := List.exists_cons_of_ne_nil (rows_ne_nil m)
    rw [hls, List.cons_append, List.tail_cons, List.tail_cons, margin_append_nil]
  rw [htail, hrows]
  cases hw : written d form f d.sections.tail with
  | nil => exact .inr (.inl rfl)
  | cons b bs =>
    have hmem : b ∈ written d form f d.sections.tail := hw ▸ List.mem_cons_self
    obtain ⟨c, l, ls, hb, hc⟩ := exists_cons_of_mem_written hmem
    rw [List.flatMap_cons, hb, List.cons_append]
    cases ho : opening d f with
    | cons o os =>
      rw [List.cons_append, List.tail_cons]
      exact .inl (margin_of_mem_cons (t := l) (by simp) hc)
    | nil =>
      rw [List.nil_append, List.tail_cons]
      cases form with
      | underlined =>
        -- the underline stands at column zero
        have hline : ∃ us, '-' :: us ∈ ls := by
          simp only [Block.rows, List.cons.injEq] at hb
          rw [← hb.2, hb.1]
          exact ⟨_, List.mem_cons_self⟩
        obtain ⟨us, hus⟩ := hline
        exact .inl (margin_of_mem_cons (List.mem_append_left _ hus) (by decide))
      | colon =>
        cases bs with
        | nil => exact .inr (.inr ⟨rfl, rfl, b, rfl⟩)
        | cons b' bs =>
          have hmem' : b' ∈ written d .colon f d.sections.tail := by
            rw [hw]
            simp
          obtain ⟨c', l', ls', hb', hc'⟩ := exists_cons_of_mem_written hmem'
          refine .inl (margin_of_mem_cons (c := c') (t := l') ?_ hc')
          simp [hb']

/-! ### A single section -/

theorem mem_written_of_render? (form : HeaderForm) {ks : List Section} (hk : k ∈ ks)
    (ht : (f k).render? d = some t) :
    ⟨k, heading form k, rows t ++ [[]]⟩ ∈ written d form f ks :=
  List.mem_filterMap.2 ⟨k, hk, by rw [ht]; rfl⟩

theorem mem_tail_of_ne (hd : d.headerForm = some form) (hk : k ∈ d.sections)
    (hs : k ≠ .shortSummary) : k ∈ d.sections.tail := by
  rw [sections_eq_cons hd] at hk
  exact (List.mem_cons.1 hk).resolve_left hs

/-- **Where the rows after the first share a margin, a single section is written**: the summary, or
one under a header without an underline. -/
theorem written_of_margin (hd : d.headerForm = some form) (hm : compose d f = some m)
    (h0 : margin (rows m).tail ≠ 0) (hk : k ∈ d.sections) (ht : (f k).render? d = some t) :
    k = .shortSummary ∧ written d form f d.sections.tail = [] ∨
      k ≠ .shortSummary ∧ form = .colon ∧ opening d f = [] ∧
        written d form f d.sections.tail = [⟨k, heading form k, rows t ++ [[]]⟩] := by
  have hmem : k ≠ .shortSummary →
      ⟨k, heading form k, rows t ++ [[]]⟩ ∈ written d form f d.sections.tail :=
    fun hs => mem_written_of_render? form (mem_tail_of_ne hd hk hs) ht
  rcases margin_cases hd hm with h | hnil | ⟨hform, ho, b, hb⟩
  · exact absurd h h0
  · refine .inl ⟨?_, hnil⟩
    by_contra hs
    have hk' := hmem hs
    rw [hnil] at hk'
    simp at hk'
  · have hs : k ≠ .shortSummary := by
      rintro rfl
      rw [opening, ht] at ho
      simp at ho
    have hk' := hmem hs
    rw [hb, List.mem_singleton] at hk'
    exact .inr ⟨hs, hform, ho, by rw [hb, hk']⟩

/-- Two sections that are written are then the same. -/
theorem eq_of_margin (hd : d.headerForm = some form) (hm : compose d f = some m)
    (h0 : margin (rows m).tail ≠ 0) {j : Section} {s : Text} (hj : j ∈ d.sections)
    (hjs : (f j).render? d = some s) (hk : k ∈ d.sections) (hkt : (f k).render? d = some t) :
    j = k := by
  rcases written_of_margin hd hm h0 hj hjs with ⟨rfl, hwj⟩ | ⟨-, -, -, hwj⟩
  · rcases written_of_margin hd hm h0 hk hkt with ⟨rfl, -⟩ | ⟨-, -, -, hwk⟩
    · rfl
    · simp [hwj] at hwk
  · rcases written_of_margin hd hm h0 hk hkt with ⟨-, hwk⟩ | ⟨-, -, -, hwk⟩
    · simp [hwj] at hwk
    · rw [hwj] at hwk
      exact congrArg Block.kind (List.singleton_inj.1 hwk)

/-- Where the summary is all that is written, it is the docstring. -/
theorem render?_of_written_nil (hd : d.headerForm = some form) (hm : compose d f = some m)
    (hw : written d form f d.sections.tail = []) : (f .shortSummary).render? d = some m := by
  have hrows := rows_compose hd hm
  rw [hw, List.flatMap_nil, List.append_nil, opening] at hrows
  split at hrows
  · next t ht =>
    rw [ht, ← joinLines_rows t, ← List.append_cancel_right hrows, joinLines_rows]
  · simp at hrows

/-- An empty summary in front of blocks is no different from none. -/
theorem Block.reading_summary_nil_cons (k : Section) (bs : List Block) :
    Block.reading k (Block.summary [] :: bs) = Block.reading k bs := by
  rw [Block.reading, Block.reading, Block.last?]
  cases Block.last? k bs with
  | some ls => rfl
  | none =>
    by_cases hk : Section.shortSummary = k
    · subst hk
      rfl
    · simp [Block.summary, hk]

/-- A single block without an underline is read as its rows without their margin. -/
theorem get?_parse_single {j : Section} (hf : Legible d f) (hd : d.headerForm = some .colon)
    (hj : j ∈ d.sections) (hk : k ∈ d.sections) (hm : compose d f = some m)
    (ho : opening d f = [])
    (hw : written d .colon f d.sections.tail = [⟨j, heading .colon j, rows t ++ [[]]⟩]) :
    margin (rows m).tail = margin (rows t) ∧
    (Document.parse d (some m)).get? k = some (Block.reading k
      (Block.spread d ⟨j, heading .colon j, (rows t).map (strip (margin (rows t)))⟩)) := by
  have hheads : d.Heads .colon j (heading .colon j) := heads_heading hj
  have hrows : rows m ++ [[]] = heading .colon j :: (rows t ++ [[]]) := by
    rw [rows_compose hd hm, ho, hw]
    simp [Block.rows]
  have htail : margin (rows m).tail = margin (rows t) := by
    obtain ⟨l, ls, hls⟩ := List.exists_cons_of_ne_nil (rows_ne_nil m)
    rw [hls, List.cons_append, List.cons.injEq] at hrows
    rw [hls, List.tail_cons, List.append_cancel_right hrows.2]
  refine ⟨htail, ?_⟩
  obtain ⟨c, l, hc, hs⟩ : ∃ c l, heading .colon j = c :: l ∧ isSpace c = false := by
    obtain ⟨c, l, hc, hs, -⟩ :=
      Document.exists_mem_rows (b := ⟨j, heading .colon j, rows t⟩) hheads
    exact ⟨c, l, hc, hs⟩
  have htrim : trimStart (heading .colon j) = heading .colon j := by
    rw [hc]
    exact List.dropWhile_cons_of_neg (by simp [hs])
  have hsettle : settle (rows m) = dropEndWhile isBlank
      (heading .colon j :: (rows t ++ [[]]).map (strip (margin (rows t)))) := by
    rw [← settle_append_nil, hrows, settle, htrim, margin_append_nil,
      trimBlankLines_cons (by simp [hc, hs])]
  have hparse := Document.get?_parse_joinLines hd hk (hf.tidy_rows hd hm)
  rw [joinLines_rows, hsettle, Block.reading_summary_dropEndWhile, Block.spread, Block.summary,
    Dialect.segment_cons_of_some (hheads.matchHeader_colon hd _)] at hparse
  rw [hparse]
  congr 1
  refine (Block.reading_summary_nil_cons k _).trans ?_
  rw [List.map_append, List.map_singleton, strip_nil]
  exact Block.reading_spread_append d
    ⟨j, heading .colon j, (rows t).map (strip (margin (rows t)))⟩ k rfl

/-- **A margin costs a prose section its text**: the section is then read as less. -/
theorem get?_parse_ne_of_margin (hf : Legible d f) (hd : d.headerForm = some form)
    (hk : k ∈ d.sections) (hi : k.hasItems = false) (ht : f k = .text (some t))
    (hm : compose d f = some m) (h0 : margin (rows m).tail ≠ 0) :
    (Document.parse d (some m)).get? k ≠ some (.text (some t)) := by
  have hrender : (f k).render? d = some t := by rw [ht]; rfl
  intro hget
  rcases written_of_margin hd hm h0 hk hrender with ⟨rfl, hw⟩ | ⟨-, rfl, ho, hw⟩
  · obtain rfl : m = t := by
      have hm' := render?_of_written_nil hd hm hw
      rw [hrender] at hm'
      exact (Option.some.inj hm').symm
    have hparse := Document.get?_parse_joinLines hd hk (hf.tidy_rows hd hm)
    rw [joinLines_rows, hget] at hparse
    have hle : weight (rows m) ≤ weight (settle (rows m)) :=
      Block.weight_le_of_reading (b := Block.summary (settle (rows m))) hi
        (Option.some.inj hparse).symm
    have hlt := weight_settle_lt h0
    omega
  · obtain ⟨htail, hparse⟩ := get?_parse_single hf hd hk hk hm ho hw
    rw [hget] at hparse
    have hle : weight (rows t) ≤ weight ((rows t).map (strip (margin (rows t)))) :=
      Block.weight_le_of_reading
        (b := ⟨k, heading .colon k, (rows t).map (strip (margin (rows t)))⟩) hi
        (Option.some.inj hparse).symm
    have hlt := weight_map_strip_lt (htail ▸ h0)
    omega

end Docstring
