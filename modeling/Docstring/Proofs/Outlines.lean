import Docstring.Proofs.Maps
import Docstring.Proofs.Titles

/-!
# Rendering outlines

An outline is front matter and then a chapter for each title. Written out, a chapter is the lines
of a title, what stands under it and an empty line, so the docstring is divided again where it
was put together (`parse_render`). The white space that goes from its front is none, or it is what
a title in front of everything is indented by.
-/

namespace Docstring

open Text

namespace Outline

/-! ### What a docstring reads as -/

theorem parse_of_isBlankDoc {doc : Option Text} (h : isBlankDoc doc = true) :
    parse doc = blank := by
  cases doc with
  | none => rfl
  | some t => exact if_pos h

theorem titles_of_isBlankDoc {doc : Option Text} (h : isBlankDoc doc = true) :
    titles doc = [] := by
  cases doc with
  | none => rfl
  | some t => exact if_pos h

theorem parse_eq_ofLines {t : Text} (h : isBlank t = false) :
    parse (some t) = ofLines (lines (clean t)) := by
  rw [parse, h, if_neg Bool.false_ne_true]

theorem titles_eq {t : Text} (h : isBlank t = false) :
    titles (some t) = (divide (lines (clean t))).2.map Block.title := by
  rw [titles, h, if_neg Bool.false_ne_true]

end Outline

/-! ### Normalised docstrings -/

theorem tidy_lines_clean {t : Text} (h : ∀ l ∈ lines (clean t), trimEnd l = l) :
    ∀ l ∈ lines (clean t), Tidy l := by
  have hscan : Document.scanLines t = lines (clean t) :=
    (List.map_congr_left h).trans (List.map_id _)
  exact fun l hl => Document.tidy_of_mem_scanLines (hscan ▸ hl)

/-- A docstring that shows something and that the layout leaves alone, without white space at the
ends of its lines. -/
structure Normalised (t : Text) : Prop where
  /-- It shows something. -/
  visible : isBlank t = false
  /-- It is in normal layout. -/
  clean_eq : clean t = t
  /-- Lines end with a visible character. -/
  trimmed : ∀ l ∈ lines t, trimEnd l = l

theorem normalised_iff {t : Text} :
    Normalised t ↔ isBlank t = false ∧ clean t = t ∧ ∀ l ∈ lines t, trimEnd l = l :=
  ⟨fun h => ⟨h.visible, h.clean_eq, h.trimmed⟩, fun h => ⟨h.1, h.2.1, h.2.2⟩⟩

instance : DecidablePred Normalised := fun _ => decidable_of_iff _ normalised_iff.symm

namespace Normalised

variable {t : Text}

theorem tidy (h : Normalised t) : ∀ l ∈ lines t, Tidy l := by
  have htidy := tidy_lines_clean (t := t) (by rw [h.clean_eq]; exact h.trimmed)
  rwa [h.clean_eq] at htidy

theorem cleanLines_eq (h : Normalised t) : cleanLines t = lines t := by
  have hrows : (lines t).map trimEnd = (cleanLines t).map trimEnd := by
    rw [← Document.scanLines_eq, Document.scanLines, h.clean_eq]
  have htabbed : tabbedLines t = lines t :=
    map_expandTabs_of_tab_notMem fun l hl => (h.tidy l hl).no_tab
  have htidy : ∀ l ∈ cleanLines t, Tidy l := by
    rw [cleanLines_eq_settle, htabbed]
    exact fun l hl => tidy_of_mem_settle h.tidy hl
  rw [List.map_congr_left h.trimmed, List.map_congr_left fun l hl => (htidy l hl).trimmed] at hrows
  simpa using hrows.symm

/-- A normalised docstring is its lines. -/
theorem joinLines_lines (h : Normalised t) : joinLines (lines t) = t := by
  rw [← h.cleanLines_eq]
  exact h.clean_eq

theorem settle_lines (h : Normalised t) : settle (lines t) = lines t := by
  have hclean := Document.cleanLines_joinLines h.tidy
  rw [h.joinLines_lines, h.cleanLines_eq] at hclean
  exact hclean.symm

/-- The first line is visible and starts at column zero, and the others share no margin. -/
theorem exists_lines_eq_cons (h : Normalised t) :
    ∃ l ls, lines t = l :: ls ∧ isBlank l = false ∧ trimStart l = l ∧ margin ls = 0 := by
  have hsettle := h.settle_lines
  cases hls : lines t with
  | nil =>
    have ht := h.joinLines_lines
    rw [hls, joinLines_nil] at ht
    have hb := h.visible
    rw [← ht] at hb
    simp at hb
  | cons l ls =>
    rw [hls] at hsettle
    have hm : margin ls = 0 := by
      by_contra hm
      have hlt : weight (settle (l :: ls)) < weight (l :: ls) := weight_settle_lt hm
      rw [hsettle] at hlt
      omega
    rw [settle_of_margin_eq_zero hm] at hsettle
    have hb : isBlank l = false := by
      rw [← Bool.not_eq_true]
      intro hb
      have hlen := length_dropEndWhile_le isBlank ((trimStart l :: ls).dropWhile isBlank)
      rw [← trimBlankLines, hsettle,
        List.dropWhile_cons_of_pos (by rwa [isBlank_trimStart])] at hlen
      have hdrop := (List.dropWhile_suffix (l := ls) isBlank).length_le
      rw [List.length_cons] at hlen
      omega
    rw [trimBlankLines_cons (by rwa [isBlank_trimStart])] at hsettle
    obtain ⟨w, hw⟩ := dropEndWhile_prefix_self isBlank (trimStart l :: ls)
    rw [hsettle, List.cons_append, List.cons.injEq] at hw
    exact ⟨l, ls, rfl, hb, hw.1.symm, hm⟩

theorem parse_eq (h : Normalised t) : Outline.parse (some t) = Outline.ofLines (lines t) := by
  rw [Outline.parse_eq_ofLines h.visible, h.clean_eq]

end Normalised

namespace Outline

/-! ### What lines read as -/

theorem bodyOf_append_nil (ls : List Line) : bodyOf (ls ++ [[]]) = bodyOf ls :=
  trimEnd_joinLines_append_of_isBlank ls rfl

theorem bodyOf_eq_of_padded {xs ys : List Line} (h : Padded xs ys) : bodyOf ys = bodyOf xs := by
  rcases h with rfl | rfl
  · rfl
  · exact bodyOf_append_nil xs

/-- A block as a chapter under its title. -/
def Block.entry (b : Block) : Text × Chapter :=
  (trim b.title, ⟨joinLines b.markup, some (bodyOf b.body)⟩)

/-- The chapter of front matter. -/
def frontEntry (ls : List Line) : Text × Chapter := ([], ⟨[], some (bodyOf ls)⟩)

theorem chapters_foldl_insert (bs : List Block) (o : Outline) :
    (bs.foldl (fun o b => o.insert (trim b.title) ⟨joinLines b.markup, some (bodyOf b.body)⟩)
      o).chapters = o.chapters.insertAll (bs.map Block.entry) := by
  induction bs generalizing o with
  | nil => rfl
  | cons b bs ih => exact ih _

theorem chapters_ofLines (ls : List Line) :
    (ofLines ls).chapters =
      (blank.insert [] ⟨[], some (bodyOf (divide ls).1)⟩).chapters.insertAll
        ((divide ls).2.map Block.entry) :=
  chapters_foldl_insert _ _

/-- An empty line at the end changes nothing of what is read. -/
theorem ofLines_append_nil (ls : List Line) : ofLines (ls ++ [[]]) = ofLines ls := by
  obtain ⟨hfront, hblocks⟩ := divide_append_nil ls
  have hentries : ∀ {bs cs : List Block}, List.Forall₂ Block.Padded bs cs →
      cs.map Block.entry = bs.map Block.entry := by
    intro bs cs h
    induction h with
    | nil => rfl
    | cons hbc _ ih =>
      rw [List.map_cons, List.map_cons, ih, Block.entry, Block.entry, hbc.1, hbc.2.1,
        bodyOf_eq_of_padded hbc.2.2]
  have hchapters : (ofLines (ls ++ [[]])).chapters = (ofLines ls).chapters := by
    rw [chapters_ofLines, chapters_ofLines, hentries hblocks, bodyOf_eq_of_padded hfront]
  cases h : ofLines (ls ++ [[]])
  cases h' : ofLines ls
  rw [h, h'] at hchapters
  exact congrArg Outline.mk hchapters

theorem ofLines_dropEndWhile {ls : List Line} (h : ∀ l ∈ ls, Tidy l) :
    ofLines (dropEndWhile isBlank ls) = ofLines ls := by
  induction ls using List.reverseRecOn with
  | nil => rfl
  | append_singleton ls l ih =>
    cases hb : isBlank l with
    | true =>
      obtain rfl := (h l (by simp)).eq_nil hb
      rw [dropEndWhile_concat_pos ls hb, ofLines_append_nil]
      exact ih fun m hm => h m (List.mem_append_left _ hm)
    | false => rw [dropEndWhile_concat_neg ls hb]

/-- The chapters under titles, without the front matter. -/
def titled (bs : List Block) : OrderedMap Text Chapter := OrderedMap.ofList (bs.map Block.entry)

/-- The front matter stands first, and then the chapters under titles. -/
theorem entries_ofLines {ls : List Line} (h : ∀ b ∈ (divide ls).2, trim b.title ≠ []) :
    (ofLines ls).chapters.entries =
      frontEntry (divide ls).1 :: (titled (divide ls).2).entries := by
  rw [chapters_ofLines, titled, OrderedMap.ofList]
  refine OrderedMap.entries_insertAll_cons rfl fun x hx => ?_
  obtain ⟨b, hb, rfl⟩ := List.mem_map.1 hx
  exact h b hb

/-! ### Written chapters -/

/-- A block whose lines are tidy. -/
structure Block.Neat (b : Block) : Prop extends b.Sound where
  /-- The lines of the title are tidy. -/
  tidy_markup : ∀ l ∈ b.markup, Tidy l
  /-- The lines below are tidy. -/
  tidy_body : ∀ l ∈ b.body, Tidy l

theorem IsMarkup.mem {l : Line} {ms : List Line} (h : IsMarkup l ms) : l ∈ ms ∧ l ≠ [] := by
  have hne : ∀ {u}, isTitle l u = true → l ≠ [] := by
    rintro u ht rfl
    rw [isTitle_nil_left] at ht
    simp at ht
  cases h with
  | underlined ht => exact ⟨by simp, hne ht⟩
  | overlined _ ht _ => exact ⟨by simp, hne ht⟩

/-- An adornment starts with a visible character. -/
theorem isSpace_of_isAdornment {c : Char} {l : Line} (h : isAdornment (c :: l) = true) :
    isSpace c = false := by
  rw [isAdornment, Bool.and_eq_true] at h
  exact not_inRanges_of_disjoint _ (by decide) h.1

namespace Block.Neat

variable {b : Block}

theorem isBlank_title (h : b.Neat) : isBlank b.title = false := by
  obtain ⟨hmem, hne⟩ := h.markup.mem
  rw [← Bool.not_eq_true]
  exact fun hb => hne ((h.tidy_markup _ hmem).eq_nil hb)

theorem trim_title (h : b.Neat) : trim b.title = trimStart b.title := by
  rw [trim, (h.tidy_markup _ h.markup.mem.1).trimmed]

theorem trim_title_ne_nil (h : b.Neat) : trim b.title ≠ [] := by
  rw [h.trim_title, Ne, trimStart_eq_nil_iff, h.isBlank_title]
  simp

end Block.Neat

theorem neat_divide {ls : List Line} (h : ∀ l ∈ ls, Tidy l) : ∀ b ∈ (divide ls).2, b.Neat := by
  intro b hb
  have happ := divide_append ls
  have hmem : ∀ l ∈ b.markup ++ b.body, l ∈ ls := by
    intro l hl
    rw [← happ]
    exact List.mem_append_right _ (List.mem_flatMap.2 ⟨b, hb, hl⟩)
  exact ⟨(sound_divide ls).2 b hb, fun l hl => h l (hmem l (List.mem_append_left _ hl)),
    fun l hl => h l (hmem l (List.mem_append_right _ hl))⟩

/-- The rows of what stands under a title: the lines up to the last visible one, or an empty
row. -/
theorem rows_bodyOf_cases {ls : List Line} (h : ∀ l ∈ ls, Tidy l) :
    bodyOf ls ≠ [] ∧ rows (bodyOf ls) = dropEndWhile isBlank ls ∨
      bodyOf ls = [] ∧ rows (bodyOf ls) = [[]] := by
  rw [bodyOf, trimEnd_joinLines h]
  by_cases hne : dropEndWhile isBlank ls = []
  · rw [hne]
    exact .inr ⟨rfl, rfl⟩
  · have hrows : rows (joinLines (dropEndWhile isBlank ls)) = dropEndWhile isBlank ls :=
      rows_joinLines hne fun l hl => (h l ((dropEndWhile_prefix_self _ ls).mem hl)).no_break
    refine .inl ⟨fun he => ?_, hrows⟩
    -- the last row that is left would be blank
    rw [he] at hrows
    have hlast : (dropEndWhile isBlank ls).getLast? = some [] := by rw [← hrows]; rfl
    exact absurd (getLast?_dropEndWhile hlast) (by simp)

theorem tidy_rows_bodyOf {ls : List Line} (h : ∀ l ∈ ls, Tidy l) :
    ∀ l ∈ rows (bodyOf ls), Tidy l := by
  intro l hl
  rcases rows_bodyOf_cases h with ⟨-, hr⟩ | ⟨-, hr⟩
  · rw [hr] at hl
    exact h l ((dropEndWhile_prefix_self _ ls).mem hl)
  · rw [hr] at hl
    exact List.mem_singleton.1 hl ▸ Tidy.nil

theorem titleFree_rows_bodyOf {ls : List Line} (h : ∀ l ∈ ls, Tidy l) (hf : TitleFree ls) :
    TitleFree (rows (bodyOf ls)) := by
  rcases rows_bodyOf_cases h with ⟨-, hr⟩ | ⟨-, hr⟩
  · obtain ⟨w, hw⟩ := dropEndWhile_prefix_self isBlank ls
    rw [hr]
    exact (hw ▸ hf).of_append
  · rw [hr]
    exact ⟨by simp, trivial⟩

theorem bodyOf_rows_bodyOf (ls : List Line) : bodyOf (rows (bodyOf ls) ++ [[]]) = bodyOf ls := by
  rw [bodyOf_append_nil, bodyOf, joinLines_rows, bodyOf, trimEnd_trimEnd]

/-- A block as its chapter is written, with the empty line that stands below. -/
def Block.written (b : Block) : Block := ⟨b.title, b.markup, rows (bodyOf b.body) ++ [[]]⟩

theorem Block.entry_written (b : Block) : b.written.entry = b.entry := by
  rw [Block.entry, Block.entry, Block.written, bodyOf_rows_bodyOf]

theorem Block.Neat.written {b : Block} (h : b.Neat) : b.written.Neat where
  markup := h.markup
  free := (titleFree_rows_bodyOf h.tidy_body h.free).append_nil
  tidy_markup := h.tidy_markup
  tidy_body := by
    intro l hl
    rcases List.mem_append.1 hl with hl | hl
    · exact tidy_rows_bodyOf h.tidy_body l hl
    · exact List.mem_singleton.1 hl ▸ Tidy.nil

/-! ### Rows of a rendered outline -/

/-- The text of a chapter as an outline writes it. -/
def Chapter.text (c : Chapter) : Text := c.markup ++ '\n' :: c.body.getD []

theorem text_entry {b : Block} (h : b.markup ≠ []) :
    Chapter.text b.entry.2 = joinLines (b.markup ++ rows (bodyOf b.body)) := by
  rw [joinLines_append h (rows_ne_nil _), joinLines_rows]
  rfl

theorem text_frontEntry (ls : List Line) :
    Chapter.text (frontEntry ls).2 = joinLines ([] :: rows (bodyOf ls)) := by
  rw [joinLines_cons_of_ne_nil _ (rows_ne_nil _), joinLines_rows]
  rfl

/-- The first line of a title loses nothing but what it is indented by, and then it is still one
of the same title. -/
theorem Block.Neat.exists_flush {b : Block} (h : b.Neat) :
    ∃ c : Block, c.Neat ∧ c.body = b.body ∧ trim c.title = trim b.title ∧
      ∃ l ms, b.markup = l :: ms ∧ c.markup = trimStart l :: ms ∧ isBlank l = false := by
  obtain ⟨l, markup, body⟩ := b
  have htidy := h.tidy_markup
  have hmarkup : IsMarkup l markup := h.markup
  cases hmarkup with
  | @underlined _ u ht =>
    have hb : isBlank l = false := h.isBlank_title
    have htitle : isTitle (trimStart l) u = true := by
      have hne : trimStart l ≠ [] := by
        rw [Ne, trimStart_eq_nil_iff, hb]
        simp
      have hlen := (trimStart_suffix l).length_le
      simp only [isTitle, Bool.and_eq_true, decide_eq_true_eq] at ht ⊢
      exact ⟨⟨ht.1.1, by simpa using hne⟩, hlen.trans ht.2⟩
    have hneat : Block.Neat ⟨trimStart l, [trimStart l, u], body⟩ := by
      refine ⟨⟨.underlined htitle, h.free⟩, fun r hr => ?_, h.tidy_body⟩
      rcases List.mem_cons.1 hr with rfl | hr
      · exact (htidy l (by simp)).of_suffix (trimStart_suffix l)
      · exact htidy r (List.mem_cons_of_mem l hr)
    refine ⟨_, hneat, rfl, ?_, l, [u], rfl, rfl, hb⟩
    rw [hneat.trim_title, h.trim_title]
    exact trimStart_trimStart l
  | @overlined o _ u ho ht hover =>
    have hadornment : isAdornment o = true := by
      simp only [isOverline, Bool.and_eq_true] at hover
      exact hover.1.1
    cases o with
    | nil => simp [isAdornment] at hadornment
    | cons c o =>
      have hc := isSpace_of_isAdornment hadornment
      refine ⟨_, h, rfl, rfl, c :: o, [l, u], rfl, ?_, by simp [hc]⟩
      rw [trimStart, List.dropWhile_cons_of_neg (by simp [hc])]

/-- The underline of a title stands at column zero. -/
theorem IsMarkup.exists_underline {l : Line} {ms : List Line} (h : IsMarkup l ms) :
    ∃ r rs, ms = r :: rs ∧ ∃ c us, c :: us ∈ rs ∧ isSpace c = false := by
  have hline : ∀ {u : Line}, isTitle l u = true → ∃ c us, u = c :: us ∧ isSpace c = false := by
    intro u ht
    cases u with
    | nil =>
      rw [isTitle_nil_right] at ht
      simp at ht
    | cons c us =>
      simp only [isTitle, Bool.and_eq_true] at ht
      exact ⟨c, us, rfl, isSpace_of_isAdornment ht.1.1⟩
  cases h with
  | underlined ht =>
    obtain ⟨c, us, rfl, hc⟩ := hline ht
    exact ⟨_, _, rfl, c, us, by simp, hc⟩
  | overlined _ ht _ =>
    obtain ⟨c, us, rfl, hc⟩ := hline ht
    exact ⟨_, _, rfl, c, us, by simp, hc⟩

/-- A docstring of tidy rows that start at column zero is read as those rows. -/
theorem parse_of_rows {m : Text} {l : Line} {ls : List Line} (hrows : rows m ++ [[]] = l :: ls)
    (htidy : ∀ r ∈ l :: ls, Tidy r) (hb : isBlank l = false) (hl : trimStart l = l)
    (h0 : margin ls = 0) : isBlank m = false ∧ parse (some m) = ofLines (l :: ls) := by
  have htidym : ∀ r ∈ rows m, Tidy r := fun r hr =>
    htidy r (hrows ▸ List.mem_append_left _ hr)
  have hvisible : isBlank m = false := by
    have hmem : l ∈ rows m ++ [[]] := hrows ▸ List.mem_cons_self
    rw [← joinLines_rows m, isBlank_joinLines, List.all_eq_false]
    rcases List.mem_append.1 hmem with hmem | hmem
    · exact ⟨l, hmem, by simp [hb]⟩
    · rw [List.mem_singleton.1 hmem] at hb
      simp at hb
  have hclean : cleanLines m = dropEndWhile isBlank (l :: ls) := by
    have hjoin := Document.cleanLines_joinLines htidym
    rw [joinLines_rows, ← settle_append_nil, hrows, settle_of_margin_eq_zero h0, hl,
      trimBlankLines_cons hb] at hjoin
    exact hjoin
  have hlines : lines (clean m) = dropEndWhile isBlank (l :: ls) := by
    have hdrop : ∀ r ∈ dropEndWhile isBlank (l :: ls), Tidy r := fun r hr =>
      htidy r ((dropEndWhile_prefix_self _ _).mem hr)
    rw [clean, hclean]
    exact lines_joinLines_of_getLast? hdrop fun he => absurd (getLast?_dropEndWhile he) (by simp)
  refine ⟨hvisible, ?_⟩
  rw [parse_eq_ofLines hvisible, hlines]
  exact ofLines_dropEndWhile htidy

/-! ### Reading a rendered outline -/

/-- The rows of blocks as they are written. -/
def blockRows (bs : List Block) : List Line := bs.flatMap fun b => b.markup ++ b.body

/-- A title with what stands under it. -/
def Block.view (b : Block) : Text × Text := (trim b.title, bodyOf b.body)

/-- Front matter, if any, as it is written, with the empty line that stands below. -/
def frontRows (front : Option (List Line)) : List Line :=
  (front.map fun ls => rows (bodyOf ls) ++ [[]]).getD []

variable {o : Outline} {front : Option (List Line)} {bs : List Block}

/-- The rows of each chapter: an empty one in front of front matter, or those of a title. -/
def chapterRows (front : Option (List Line)) (bs : List Block) : List (List Line) :=
  (front.map fun ls => [] :: rows (bodyOf ls)).toList ++
    bs.map fun b => b.markup ++ rows (bodyOf b.body)

theorem Block.Neat.markup_ne_nil {b : Block} (h : b.Neat) : b.markup ≠ [] := by
  obtain ⟨r, rs, hr, -⟩ := h.markup.exists_underline
  rw [hr]
  exact List.cons_ne_nil r rs

theorem map_text_values (hbs : ∀ b ∈ bs, b.Neat)
    (ho : o.chapters.entries = (front.map frontEntry).toList ++ bs.map Block.entry) :
    o.chapters.values.map Chapter.text = (chapterRows front bs).map joinLines := by
  have hblocks : (bs.map Block.entry).map (fun e => Chapter.text e.2) =
      (bs.map fun b => b.markup ++ rows (bodyOf b.body)).map joinLines := by
    rw [List.map_map, List.map_map]
    exact List.map_congr_left fun b hb => text_entry (hbs b hb).markup_ne_nil
  rw [OrderedMap.values, ho]
  cases front with
  | none => simpa [chapterRows] using hblocks
  | some ls =>
    have hls := text_frontEntry ls
    simpa [chapterRows, hls] using hblocks

theorem tidy_of_mem_chapterRows (hbs : ∀ b ∈ bs, b.Neat)
    (hfront : ∀ ls ∈ front, ∀ l ∈ ls, Tidy l) {ls : List Line} (hls : ls ∈ chapterRows front bs) :
    ls ≠ [] ∧ ∀ l ∈ ls, Tidy l := by
  rcases List.mem_append.1 hls with hls | hls
  · obtain ⟨fs, hfs, rfl⟩ : ∃ fs ∈ front, [] :: rows (bodyOf fs) = ls := by simpa using hls
    refine ⟨by simp, fun l hl => ?_⟩
    rcases List.mem_cons.1 hl with rfl | hl
    · exact Tidy.nil
    · exact tidy_rows_bodyOf (hfront fs hfs) l hl
  · obtain ⟨b, hb, rfl⟩ := List.mem_map.1 hls
    refine ⟨by simp [(hbs b hb).markup_ne_nil], fun l hl => ?_⟩
    rcases List.mem_append.1 hl with hl | hl
    · exact (hbs b hb).tidy_markup l hl
    · exact tidy_rows_bodyOf (hbs b hb).tidy_body l hl

/-- An empty row below each chapter: but for the one in front of front matter, these are the rows
of the front matter and of the blocks. -/
theorem flatMap_chapterRows (front : Option (List Line)) (bs : List Block) :
    (chapterRows front bs).flatMap (fun ls => ls ++ [[]]) =
      (if front.isSome then [[]] else []) ++
        (frontRows front ++ blockRows (bs.map Block.written)) := by
  have hblocks : (bs.map fun b => b.markup ++ rows (bodyOf b.body)).flatMap
      (fun ls => ls ++ [[]]) = blockRows (bs.map Block.written) := by
    simp [blockRows, Block.written, List.flatMap_map]
  rw [← hblocks]
  cases front <;> simp [chapterRows, frontRows]

/-- What is written of front matter and blocks before white space goes from its start. -/
def unflushed (o : Outline) : Text :=
  ['\n', '\n'].intercalate (o.chapters.values.map Chapter.text)

theorem rows_unflushed (hbs : ∀ b ∈ bs, b.Neat)
    (ho : o.chapters.entries = (front.map frontEntry).toList ++ bs.map Block.entry)
    (hfront : ∀ ls ∈ front, ∀ l ∈ ls, Tidy l) (hne : o.chapters.entries ≠ []) :
    rows (unflushed o) ++ [[]] = (if front.isSome then [[]] else []) ++
      (frontRows front ++ blockRows (bs.map Block.written)) := by
  have htexts := map_text_values hbs ho
  have hpieces : chapterRows front bs ≠ [] := by
    intro he
    apply hne
    have hlen := congrArg List.length htexts
    rw [he, OrderedMap.values] at hlen
    simpa using hlen
  have hjoin := intercalate_map_joinLines hpieces fun ls hls =>
    (tidy_of_mem_chapterRows hbs hfront hls).1
  rw [← htexts, flatMap_chapterRows] at hjoin
  refine rows_append_nil hjoin ?_ fun l hl => ?_
  · rw [← flatMap_chapterRows]
    obtain ⟨ls, lss, hls⟩ := List.exists_cons_of_ne_nil hpieces
    simp [hls]
  · rw [← flatMap_chapterRows] at hl
    obtain ⟨ls, hls, hl⟩ := List.mem_flatMap.1 hl
    rcases List.mem_append.1 hl with hl | hl
    · exact ((tidy_of_mem_chapterRows hbs hfront hls).2 l hl).no_break
    · simp [List.mem_singleton.1 hl]

/-- Front matter that starts a normalised docstring: tidy, without a title, and visible from column
zero on. -/
structure IsFront (ls : List Line) : Prop where
  /-- The lines are tidy. -/
  tidy : ∀ l ∈ ls, Tidy l
  /-- There is no title. -/
  free : TitleFree ls
  /-- The first line is visible and starts at column zero. -/
  exists_cons : ∃ l ms, ls = l :: ms ∧ isBlank l = false ∧ trimStart l = l

theorem rows_bodyOf_cons {l : Line} {ls : List Line} (h : ∀ r ∈ l :: ls, Tidy r)
    (hb : isBlank l = false) : rows (bodyOf (l :: ls)) = l :: dropEndWhile isBlank ls := by
  have hdrop := dropEndWhile_cons_of_neg hb ls
  rcases rows_bodyOf_cases h with ⟨-, hr⟩ | ⟨he, -⟩
  · rw [hr, hdrop]
  · rw [bodyOf, trimEnd_eq_nil_iff, isBlank_joinLines, List.all_cons, hb] at he
    simp at he

/-- **The rows of a rendered outline** are those of its front matter and of its blocks, with what
a title in front of everything is indented by taken off. -/
theorem exists_rows_render (hbs : ∀ b ∈ bs, b.Neat)
    (ho : o.chapters.entries = (front.map frontEntry).toList ++ bs.map Block.entry)
    (hfront : ∀ ls ∈ front, IsFront ls) (hne : o.chapters.entries ≠ []) :
    ∃ cs : List Block, (∀ c ∈ cs, c.Neat) ∧ cs.map Block.view = bs.map Block.view ∧
      ∃ l ls, rows o.render ++ [[]] = l :: ls ∧
        frontRows front ++ blockRows (cs.map Block.written) = l :: ls ∧
        isBlank l = false ∧ trimStart l = l := by
  have hrows := rows_unflushed hbs ho (fun ls hls => (hfront ls hls).tidy) hne
  cases front with
  | some fs =>
    have hfs : IsFront fs := hfront fs rfl
    obtain ⟨l, ms, rfl, hb, hl⟩ := hfs.exists_cons
    have hcons : frontRows (some (l :: ms)) ++ blockRows (bs.map Block.written) =
        l :: (dropEndWhile isBlank ms ++ [[]] ++ blockRows (bs.map Block.written)) := by
      simp [frontRows, rows_bodyOf_cons hfs.tidy hb]
    refine ⟨bs, hbs, rfl, l, _, ?_, hcons, hb, hl⟩
    rw [hcons] at hrows
    have hflush := rows_trimStart_nil_cons hrows hb
    rw [hl] at hflush
    exact hflush
  | none =>
    cases bs with
    | nil => exact absurd ho hne
    | cons b bs =>
      obtain ⟨c, hc, hbody, htitle, l, ms, hmarkup, hflushed, hb⟩ :=
        (hbs b List.mem_cons_self).exists_flush
      have hview : c.view = b.view := by rw [Block.view, Block.view, htitle, hbody]
      refine ⟨c :: bs, ?_, by rw [List.map_cons, List.map_cons, hview], trimStart l,
        ms ++ b.written.body ++ blockRows (bs.map Block.written), ?_, ?_, ?_, ?_⟩
      · intro e he
        rcases List.mem_cons.1 he with rfl | he
        · exact hc
        · exact hbs e (List.mem_cons_of_mem b he)
      · have hrows' : rows (unflushed o) ++ [[]] =
            l :: (ms ++ b.written.body ++ blockRows (bs.map Block.written)) := by
          rw [hrows]
          simp [frontRows, blockRows, Block.written, hmarkup]
        exact rows_trimStart hrows' hb
      · simp [frontRows, blockRows, Block.written, hflushed, hbody]
      · rw [isBlank_trimStart, hb]
      · exact trimStart_trimStart l

theorem titleFree_frontRows (hfront : ∀ ls ∈ front, IsFront ls) :
    TitleFree (frontRows front) ∧ ∀ l ∈ frontRows front, Tidy l := by
  cases front with
  | none => exact ⟨trivial, by simp [frontRows]⟩
  | some fs =>
    have hfs : IsFront fs := hfront fs rfl
    refine ⟨(titleFree_rows_bodyOf hfs.tidy hfs.free).append_nil, fun l hl => ?_⟩
    rcases List.mem_append.1 hl with hl | hl
    · exact tidy_rows_bodyOf hfs.tidy l hl
    · exact List.mem_singleton.1 hl ▸ Tidy.nil

/-- The rows after the first share no margin, for the underline of a title has none. -/
theorem margin_of_blockRows {cs : List Block} (hcs : ∀ c ∈ cs, c.Neat) (hne : cs ≠ [])
    {xs : List Line} {l : Line} {ls : List Line}
    (h : xs ++ blockRows (cs.map Block.written) = l :: ls) : margin ls = 0 := by
  obtain ⟨c, cs, rfl⟩ := List.exists_cons_of_ne_nil hne
  obtain ⟨r, rs, hmarkup, e, us, hmem, he⟩ := (hcs c List.mem_cons_self).markup.exists_underline
  have hrows : blockRows ((c :: cs).map Block.written) =
      r :: (rs ++ c.written.body ++ blockRows (cs.map Block.written)) := by
    simp [blockRows, Block.written, hmarkup]
  refine margin_of_mem_cons (c := e) (t := us) ?_ he
  rw [hrows] at h
  cases xs with
  | nil =>
    rw [List.nil_append, List.cons.injEq] at h
    rw [← h.2]
    simp [hmem]
  | cons x xs =>
    rw [List.cons_append, List.cons.injEq] at h
    rw [← h.2]
    simp [hmem]

/-- **A rendered outline is read again** with the same front matter and the same titles, in order,
and the same below each of them. -/
theorem parse_render (hbs : ∀ b ∈ bs, b.Neat)
    (ho : o.chapters.entries = (front.map frontEntry).toList ++ bs.map Block.entry)
    (hfront : ∀ ls ∈ front, IsFront ls)
    (hmargin : bs = [] → ∃ ls ∈ front, margin (rows (bodyOf ls)).tail = 0) :
    isBlank o.render = false ∧ ∃ cs : List Block, cs.map Block.view = bs.map Block.view ∧
      (parse (some o.render)).chapters.entries =
        frontEntry (frontRows front) :: cs.map Block.entry := by
  have hne : o.chapters.entries ≠ [] := by
    rw [ho]
    cases bs with
    | nil =>
      obtain ⟨ls, hls, -⟩ := hmargin rfl
      rw [Option.mem_def] at hls
      simp [hls]
    | cons b bs => simp
  obtain ⟨cs, hcs, hview, l, ls, hrows, hsplit, hb, hl⟩ :=
    exists_rows_render hbs ho hfront hne
  obtain ⟨hfree, htidyfront⟩ := titleFree_frontRows hfront
  have hwritten : ∀ c ∈ cs.map Block.written, c.Neat ∧ ∃ ms, c.body = ms ++ [[]] := by
    intro c hc
    obtain ⟨e, he, rfl⟩ := List.mem_map.1 hc
    exact ⟨(hcs e he).written, _, rfl⟩
  have h0 : margin ls = 0 := by
    by_cases hnil : cs = []
    · have hbsnil : bs = [] := by simpa [hnil, eq_comm] using hview
      obtain ⟨fs, hfs, hm⟩ := hmargin hbsnil
      rw [Option.mem_def] at hfs
      have hrest : ls = (rows (bodyOf fs)).tail ++ [[]] := by
        have htail := congrArg List.tail hsplit
        rw [hfs, hnil] at htail
        obtain ⟨r, rs, hr⟩ := List.exists_cons_of_ne_nil (rows_ne_nil (bodyOf fs))
        rw [hr]
        simpa [frontRows, blockRows, hr] using htail.symm
      rw [hrest, margin_append_nil, hm]
    · exact margin_of_blockRows hcs hnil hsplit
  have htidy : ∀ r ∈ l :: ls, Tidy r := by
    intro r hr
    rw [← hsplit] at hr
    rcases List.mem_append.1 hr with hr | hr
    · exact htidyfront r hr
    · obtain ⟨c, hc, hr⟩ := List.mem_flatMap.1 hr
      rcases List.mem_append.1 hr with hr | hr
      · exact (hwritten c hc).1.tidy_markup r hr
      · exact (hwritten c hc).1.tidy_body r hr
  obtain ⟨hvisible, hparse⟩ := parse_of_rows hrows htidy hb hl h0
  have hdivide : divide (l :: ls) = (frontRows front, cs.map Block.written) := by
    rw [← hsplit]
    refine divide_flatMap hfree (fun _ => ?_) fun c hc =>
      ⟨(hwritten c hc).1.toSound, (hwritten c hc).2⟩
    cases front with
    | none => exact .inl rfl
    | some fs => exact .inr ⟨_, rfl⟩
  have hentries : (cs.map Block.written).map Block.entry = cs.map Block.entry := by
    rw [List.map_map]
    exact List.map_congr_left fun c _ => c.entry_written
  -- titles stay apart
  have hnodup : ((cs.map Block.entry).map Prod.fst).Nodup := by
    have hkeys : ∀ ds : List Block, (ds.map Block.entry).map Prod.fst =
        (ds.map Block.view).map Prod.fst := fun ds => by
      rw [List.map_map, List.map_map]
      rfl
    rw [hkeys, hview, ← hkeys]
    have hall := o.chapters.nodup_keys
    rw [ho, List.map_append] at hall
    exact (List.nodup_append.1 hall).2.1
  refine ⟨hvisible, cs, hview, ?_⟩
  rw [hparse, entries_ofLines, hdivide, titled, hentries, OrderedMap.entries_ofList_of_nodup hnodup]
  intro c hc
  rw [hdivide] at hc
  exact (hwritten c hc).1.trim_title_ne_nil

end Outline

end Docstring
