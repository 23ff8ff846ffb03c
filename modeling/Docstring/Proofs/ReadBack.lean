import Docstring.Proofs.Entries

/-!
# Items that are read back

Items are well formed when none of their rows can be taken for anything else: each name is one by
its look, no row below it starts like a name, and rows that show nothing are empty. Written out and
read again, well-formed items are what they were, in any dialect (`parseBody_render`). The padding
that they are written with is the margin that they lose (`dedentedLines_render`), and their rows are
grouped into the same items again (`ofLines_flatMap_rows`).
-/

namespace Docstring

open Text

namespace Text

/-! ### Lines of joined rows -/

/-- Joining adds line feeds only. -/
theorem mem_joinLines_iff {c : Char} (hc : c ≠ '\n') {ls : List Line} :
    c ∈ joinLines ls ↔ ∃ l ∈ ls, c ∈ l := by
  induction ls with
  | nil => simp
  | cons l ls ih =>
    by_cases hne : ls = []
    · simp [hne]
    · simp [joinLines_cons_of_ne_nil l hne, hc, ih]

theorem mem_iff_exists_mem_rows {c : Char} (hc : c ≠ '\n') {t : Text} :
    c ∈ t ↔ ∃ l ∈ rows t, c ∈ l := by
  rw [← mem_joinLines_iff hc, joinLines_rows]

/-- A row that is read as it stands: it holds neither a tab nor a line break. -/
structure Verbatim (l : Line) : Prop where
  /-- There is no tab. -/
  no_tab : '\t' ∉ l
  /-- There is no carriage return. -/
  no_return : '\r' ∉ l
  /-- A row is one line. -/
  no_break : '\n' ∉ l

/-- What is left of a row when some of its start goes. -/
theorem Verbatim.of_suffix {l m : Line} (h : Verbatim m) (hs : l <:+ m) : Verbatim l :=
  ⟨fun hl => h.no_tab (hs.mem hl), fun hl => h.no_return (hs.mem hl),
    fun hl => h.no_break (hs.mem hl)⟩

/-- Rows are the lines of the text that they make, unless the last one is empty. -/
theorem lines_joinLines_of_verbatim {ls : List Line} (h : ∀ l ∈ ls, Verbatim l)
    (hlast : ls.getLast? ≠ some []) : lines (joinLines ls) = ls := by
  have hreturn : '\r' ∉ joinLines ls := by
    rw [mem_joinLines_iff (by decide)]
    rintro ⟨l, hl, hmem⟩
    exact (h l hl).no_return hmem
  rw [lines, unifyBreaks_eq_self hreturn]
  exact splitBreaks_joinLines (fun l hl => (h l hl).no_break) hlast

theorem tabbedLines_joinLines_of_verbatim {ls : List Line} (h : ∀ l ∈ ls, Verbatim l)
    (hlast : ls.getLast? ≠ some []) : tabbedLines (joinLines ls) = ls := by
  rw [tabbedLines, lines_joinLines_of_verbatim h hlast]
  exact map_expandTabs_of_tab_notMem fun l hl => (h l hl).no_tab

/-- A row is plain that holds neither a tab nor a line break, and nothing where it shows nothing. -/
structure Plain (l : Line) : Prop where
  /-- There is no tab. -/
  no_tab : '\t' ∉ l
  /-- There is no carriage return. -/
  no_return : '\r' ∉ l
  /-- A row is one line. -/
  no_break : '\n' ∉ l
  /-- A blank row is empty. -/
  eq_nil : isBlank l = true → l = []

theorem Plain.verbatim {l : Line} (h : Plain l) : Verbatim l :=
  ⟨h.no_tab, h.no_return, h.no_break⟩

/-- Padding leaves rows plain. -/
theorem Plain.padRow {w : Text} (htab : '\t' ∉ w) (hreturn : '\r' ∉ w) (hbreak : '\n' ∉ w)
    {l : Line} (h : Plain l) : Plain (padRow w l) := by
  cases hb : isBlank l with
  | true =>
    rw [Text.padRow, if_pos hb]
    exact h
  | false =>
    have hpad : Text.padRow w l = w ++ l := by rw [Text.padRow, if_neg (by simp [hb])]
    refine ⟨?_, ?_, ?_, fun hblank => ?_⟩
    · simp [hpad, htab, h.no_tab]
    · simp [hpad, hreturn, h.no_return]
    · simp [hpad, hbreak, h.no_break]
    · rw [isBlank_padRow, hb] at hblank
      simp at hblank

/-- **Padding is the margin that rows lose which have none without it**: they are as they were. -/
theorem dedentedLines_joinLines_map_padRow {w : Text} (hw : isBlank w = true) (htab : '\t' ∉ w)
    (hreturn : '\r' ∉ w) (hbreak : '\n' ∉ w) {ls : List Line} (h : ∀ l ∈ ls, Plain l)
    (hmargin : margin ls = 0) (htrim : trimBlankLines ls = ls) :
    dedentedLines (joinLines (ls.map (padRow w))) = ls := by
  obtain ⟨hhead, hlast⟩ := trimBlankLines_eq_self_iff.1 htrim
  have hpadded : ∀ l ∈ ls.map (padRow w), Verbatim l := by
    intro l hl
    obtain ⟨r, hr, rfl⟩ := List.mem_map.1 hl
    exact ((h r hr).padRow htab hreturn hbreak).verbatim
  have hend : (ls.map (padRow w)).getLast? ≠ some [] := by
    rw [List.getLast?_map]
    intro he
    obtain ⟨l, hl, hnil⟩ := Option.map_eq_some_iff.1 he
    have hvisible := hlast l hl
    rw [← isBlank_padRow w l, hnil] at hvisible
    simp at hvisible
  cases ls with
  | nil => rfl
  | cons l ls =>
    have hwidth : margin ((l :: ls).map (padRow w)) = w.length := by
      rw [margin_map_padRow hw ⟨l, List.mem_cons_self, hhead l rfl⟩, hmargin, Nat.add_zero]
    simp only [dedentedLines, tabbedLines_joinLines_of_verbatim hpadded hend, hwidth,
      map_strip_map_padRow_of_blank hw fun l hl => (h l hl).eq_nil]
    exact htrim

/-- Rows end in a line feed when the last of several is empty. -/
theorem getLast?_joinLines {ls : List Line} (hne : ls ≠ []) :
    (joinLines (ls ++ [[]])).getLast? = some '\n' := by
  simp [joinLines_append hne (List.cons_ne_nil [] [])]

end Text

namespace Item

/-! ### Names and openings -/

/-- A text that is a name by its look: stars, if any, and then word characters, at least one. -/
def IsName (t : Text) : Prop :=
  t.dropWhile (· = '*') ≠ [] ∧ ∀ c ∈ t.dropWhile (· = '*'), isWord c = true

theorem isName_iff {t : Text} : IsName t ↔
    t.dropWhile (· = '*') ≠ [] ∧ (t.dropWhile (· = '*')).all isWord = true := by
  rw [IsName, List.all_eq_true]

instance : DecidablePred IsName := fun _ => decidable_of_iff _ isName_iff.symm

/-- Whether a row starts like a name: stars, if any, and then a word character. -/
def opens (l : Line) : Bool := (l.dropWhile (· = '*')).head?.any isWord

theorem start?_eq_none {l : Line} (h : opens l = false) : start? l = none := by
  rw [start?, if_pos]
  rw [opens] at h
  cases hrest : l.dropWhile (· = '*') with
  | nil => rfl
  | cons c r =>
    have hc : isWord c = false := by simpa [hrest] using h
    simp [hc]

/-- A name is found at the start of a row where it ends as a word. -/
theorem start?_append {name tail : Line} (h : IsName name)
    (htail : ∀ c ∈ tail.head?, isWord c = false) :
    start? (name ++ tail) = some (name, tail) := by
  obtain ⟨hne, hletters⟩ := h
  have hstop : tail.takeWhile isWord = [] ∧ tail.dropWhile isWord = tail := by
    cases tail with
    | nil => exact ⟨rfl, rfl⟩
    | cons c r => simp [htail c rfl]
  have hdrop : (name ++ tail).dropWhile (· = '*') = name.dropWhile (· = '*') ++ tail := by
    rw [List.dropWhile_append, if_neg (by simpa using hne)]
  have htake : (name ++ tail).takeWhile (· = '*') = name.takeWhile (· = '*') := by
    have hall := List.takeWhile_append_dropWhile (p := (· = '*')) (l := name ++ tail)
    rw [hdrop, ← List.append_assoc, List.append_cancel_right_eq] at hall
    refine List.append_cancel_right (hall.trans ?_)
    exact List.takeWhile_append_dropWhile.symm
  have hword : (name.dropWhile (· = '*') ++ tail).takeWhile isWord =
      name.dropWhile (· = '*') := by
    rw [List.takeWhile_append_of_pos hletters, hstop.1, List.append_nil]
  have hrest : (name.dropWhile (· = '*') ++ tail).dropWhile isWord = tail := by
    rw [List.dropWhile_append_of_pos hletters, hstop.2]
  rw [start?]
  simp only [hdrop, htake, hword, hrest]
  rw [if_neg (by simpa using hne), List.takeWhile_append_dropWhile]

theorem start?_eq_none_iff {l : Line} : start? l = none ↔ opens l = false := by
  refine ⟨fun h => ?_, start?_eq_none⟩
  rw [start?] at h
  rw [opens]
  cases hrest : l.dropWhile (· = '*') with
  | nil => rfl
  | cons c r =>
    rw [hrest] at h
    cases hc : isWord c with
    | false => simp [hc]
    | true => simp [hc] at h

/-- **What is found at the start of a row**: a name that ends as a word, and what stands behind. -/
theorem start?_eq_some_iff {l name tail : Line} : start? l = some (name, tail) ↔
    l = name ++ tail ∧ IsName name ∧ ∀ c ∈ tail.head?, isWord c = false := by
  refine ⟨fun h => ⟨(append_eq_of_start? h).symm, ?_⟩, fun ⟨hl, hname, htail⟩ => ?_⟩
  · rw [start?] at h
    split at h
    · simp at h
    · next hne =>
      obtain ⟨rfl, rfl⟩ := Prod.mk.inj (Option.some.inj h)
      have hletters : ∀ c ∈ (l.dropWhile (· = '*')).takeWhile isWord, isWord c = true :=
        fun c hc => List.mem_takeWhile_imp hc
      obtain ⟨c, w, hw⟩ :=
        List.exists_cons_of_ne_nil (List.isEmpty_eq_false_iff.1 (Bool.eq_false_iff.2 hne))
      have hc : c ≠ '*' := by
        rintro rfl
        exact absurd (hletters '*' (hw ▸ List.mem_cons_self)) (by decide)
      have hdrop : (l.takeWhile (· = '*') ++ (l.dropWhile (· = '*')).takeWhile isWord).dropWhile
          (· = '*') = (l.dropWhile (· = '*')).takeWhile isWord := by
        have hstars : ∀ x ∈ l.takeWhile (· = '*'), decide (x = '*') = true :=
          fun x hx => List.mem_takeWhile_imp (p := (· = '*')) hx
        rw [List.dropWhile_append_of_pos hstars, hw, List.dropWhile_cons_of_neg (by simpa using hc)]
      refine ⟨?_, fun d hd => ?_⟩
      · rw [IsName, hdrop]
        exact ⟨hw ▸ List.cons_ne_nil c w, hletters⟩
      · have hhead := List.head?_dropWhile_not isWord (l.dropWhile (· = '*'))
        rw [hd] at hhead
        simpa using hhead
  · rw [hl]
    exact start?_append hname htail

/-- A name holds no white space. -/
theorem IsName.notMem {name : Text} (h : IsName name) {c : Char} (hc : isSpace c = true) :
    c ∉ name := by
  intro hmem
  rw [← List.takeWhile_append_dropWhile (p := (· = '*')) (l := name), List.mem_append] at hmem
  rcases hmem with hmem | hmem
  · obtain rfl : c = '*' := by simpa using List.mem_takeWhile_imp hmem
    exact absurd hc (by decide)
  · rw [isSpace_of_isWord (h.2 c hmem)] at hc
    simp at hc

/-! ### Well-formed items -/

/-- An item whose rows cannot be taken for those of another. -/
structure WellFormed (e : Text × Text) : Prop where
  /-- The name is one by its look. -/
  name : IsName e.1
  /-- The body holds no tab. -/
  no_tab : '\t' ∉ e.2
  /-- The body holds no carriage return. -/
  no_return : '\r' ∉ e.2
  /-- The name ends where the body starts. -/
  head : ∀ c ∈ e.2.head?, isWord c = false
  /-- No row of the body below its first one starts like a name. -/
  below : ∀ l ∈ (Text.rows e.2).tail, opens l = false
  /-- A row of the body below its first one that shows nothing is empty. -/
  blank : ∀ l ∈ (Text.rows e.2).tail, isBlank l = true → l = []

variable {e : Text × Text} {es : List (Text × Text)}

theorem wellFormed_iff : WellFormed e ↔ IsName e.1 ∧ '\t' ∉ e.2 ∧ '\r' ∉ e.2 ∧
    e.2.head?.any isWord = false ∧ (∀ l ∈ (Text.rows e.2).tail, opens l = false) ∧
    ∀ l ∈ (Text.rows e.2).tail, isBlank l = true → l = [] := by
  have hword : e.2.head?.any isWord = false ↔ ∀ c ∈ e.2.head?, isWord c = false := by
    cases e.2.head? <;> simp
  rw [hword]
  exact ⟨fun h => ⟨h.name, h.no_tab, h.no_return, h.head, h.below, h.blank⟩,
    fun ⟨hname, htab, hreturn, hhead, hbelow, hblank⟩ =>
      ⟨hname, htab, hreturn, hhead, hbelow, hblank⟩⟩

instance : DecidablePred WellFormed := fun _ => decidable_of_iff _ wellFormed_iff.symm

/-- The rows of a well-formed item: one that starts with its name, and those of the body below. -/
theorem WellFormed.exists_rows (h : WellFormed e) :
    ∃ tail below, Text.rows e.2 = tail :: below ∧ rows e = (e.1 ++ tail) :: below ∧
      start? (e.1 ++ tail) = some (e.1, tail) ∧ ∀ l ∈ below, start? l = none := by
  obtain ⟨tail, below, hbody⟩ := List.exists_cons_of_ne_nil (rows_ne_nil e.2)
  have heq : e.2 = joinLines (tail :: below) := by rw [← hbody, joinLines_rows]
  have hbreak : ∀ l ∈ tail :: below, '\n' ∉ l := fun l hl =>
    newline_notMem_of_mem_rows (t := e.2) (hbody ▸ hl)
  have hrows : rows e = (e.1 ++ tail) :: below := by
    obtain ⟨name, body⟩ := e
    obtain rfl : body = joinLines (tail :: below) := heq
    refine rows_eq_cons fun l hl => ?_
    rcases List.mem_cons.1 hl with rfl | hl
    · simp [h.name.notMem (c := '\n') (by decide), hbreak tail List.mem_cons_self]
    · exact hbreak l (List.mem_cons_of_mem tail hl)
  refine ⟨tail, below, hbody, hrows, start?_append h.name fun c hc => h.head c ?_, fun l hl => ?_⟩
  · rw [heq]
    cases tail with
    | nil => simp at hc
    | cons d r => cases below <;> simpa using hc
  · exact start?_eq_none (h.below l (by rwa [hbody, List.tail_cons]))

/-- The rows of a well-formed item are plain. -/
theorem WellFormed.plain (h : WellFormed e) {l : Line} (hl : l ∈ rows e) : Plain l := by
  have hno : ∀ {c : Char}, c ≠ '\n' → Text.isSpace c = true → c ∉ e.2 → c ∉ l := by
    intro c hc hs hbody hmem
    have hall : c ∈ e.1 ++ e.2 := (mem_iff_exists_mem_rows hc).2 ⟨l, hl, hmem⟩
    rcases List.mem_append.1 hall with hname | hmem
    · exact h.name.notMem hs hname
    · exact hbody hmem
  refine ⟨hno (by decide) (by decide) h.no_tab, hno (by decide) (by decide) h.no_return,
    newline_notMem_of_mem_rows hl, fun hb => ?_⟩
  obtain ⟨tail, below, hbody, hrows, hstart, -⟩ := h.exists_rows
  rw [hrows] at hl
  rcases List.mem_cons.1 hl with rfl | hl
  · have hvisible := isBlank_of_start? hstart
    rw [isBlank_append, hvisible] at hb
    simp at hb
  · exact h.blank l (by rwa [hbody, List.tail_cons]) hb

/-- The last row of a well-formed item shows something where its body does not end with a line
feed. -/
theorem WellFormed.isBlank_of_getLast? (h : WellFormed e) (hend : e.2.getLast? ≠ some '\n')
    {l : Line} (hl : (rows e).getLast? = some l) : isBlank l = false := by
  obtain ⟨tail, below, hbody, hrows, hstart, -⟩ := h.exists_rows
  rw [Bool.eq_false_iff]
  intro hb
  have hnil := (h.plain (List.mem_of_getLast? hl)).eq_nil hb
  subst hnil
  rw [hrows] at hl
  by_cases hne : below = []
  · subst hne
    have hvisible := isBlank_of_start? hstart
    have he : e.1 ++ tail = [] := by simpa using hl
    rw [(List.append_eq_nil_iff.1 he).1] at hvisible
    simp at hvisible
  · rw [List.getLast?_cons_of_ne_nil hne] at hl
    obtain ⟨ini, rfl⟩ := List.getLast?_eq_some_iff.1 hl
    apply hend
    rw [← joinLines_rows e.2, hbody, ← List.cons_append]
    exact getLast?_joinLines (List.cons_ne_nil tail ini)

/-! ### Rows grouped again -/

/-- Rows that do not start like a name belong to the item above them. -/
theorem group_append_of_none {below : List Line} (h : ∀ l ∈ below, start? l = none)
    (ls : List Line) : group (below ++ ls) = (below ++ (group ls).1, (group ls).2) := by
  induction below with
  | nil => rfl
  | cons l below ih =>
    rw [List.cons_append, group, ih fun m hm => h m (List.mem_cons_of_mem l hm)]
    simp [h l List.mem_cons_self]

/-- A well-formed item in front of rows that begin with one takes its own rows. -/
theorem group_rows_append (h : WellFormed e) {ls : List Line} (hls : (group ls).1 = []) :
    group (rows e ++ ls) = ([], e :: (group ls).2) := by
  obtain ⟨tail, below, hbody, hrows, hstart, hbelow⟩ := h.exists_rows
  have hjoin : joinLines (tail :: below) = e.2 := by rw [← hbody, joinLines_rows]
  rw [hrows, List.cons_append, group, hstart, group_append_of_none hbelow, hls, List.append_nil]
  simp only [hjoin]

theorem group_flatMap_rows (h : ∀ e ∈ es, WellFormed e) : group (es.flatMap rows) = ([], es) := by
  induction es with
  | nil => rfl
  | cons e es ih =>
    have hes := ih fun x hx => h x (List.mem_cons_of_mem e hx)
    rw [List.flatMap_cons, group_rows_append (h e List.mem_cons_self) (by rw [hes]), hes]

/-- **The rows of well-formed items are grouped into these items.** -/
theorem ofLines_flatMap_rows (h : ∀ e ∈ es, WellFormed e) : ofLines (es.flatMap rows) = es := by
  cases es with
  | nil => rfl
  | cons e es =>
    obtain ⟨tail, below, hbody, hrows, hstart, hbelow⟩ := (h e List.mem_cons_self).exists_rows
    have hes := group_flatMap_rows fun x hx => h x (List.mem_cons_of_mem e hx)
    have hjoin : joinLines (tail :: below) = e.2 := by rw [← hbody, joinLines_rows]
    rw [List.flatMap_cons, hrows, List.cons_append, ofLines, find?_of_start? hstart,
      group_append_of_none hbelow, hes, List.append_nil]
    simp only [hjoin]

end Item

namespace ItemMap

variable {m : ItemMap}

/-- Items that are well formed each, the last of which does not end with a line feed. -/
structure WellFormed (m : ItemMap) : Prop where
  /-- Each item is well formed. -/
  items : ∀ e ∈ m.entries, Item.WellFormed e
  /-- The last body does not end with a line feed. -/
  last : ∀ e ∈ m.entries.getLast?, e.2.getLast? ≠ some '\n'

theorem return_notMem_itemPadding (d : Dialect) : '\r' ∉ d.itemPadding := by
  cases d <;> decide

theorem WellFormed.plain (h : WellFormed m) {l : Line} (hl : l ∈ m.entries.flatMap Item.rows) :
    Plain l := by
  obtain ⟨e, he, hl⟩ := List.mem_flatMap.1 hl
  exact (h.items e he).plain hl

/-- The first row of well-formed items starts with something that shows. -/
theorem WellFormed.exists_cons (h : WellFormed m) (hne : m.entries ≠ []) :
    ∃ c r below, m.entries.flatMap Item.rows = (c :: r) :: below ∧ isSpace c = false := by
  obtain ⟨e, es, hes⟩ := List.exists_cons_of_ne_nil hne
  obtain ⟨tail, below, -, hrows, hstart, -⟩ := (h.items e (hes ▸ List.mem_cons_self)).exists_rows
  obtain ⟨c, r, hcr, hc, -⟩ := Item.exists_cons_of_start? hstart
  exact ⟨c, r, below ++ es.flatMap Item.rows, by rw [hes, List.flatMap_cons, hrows, hcr]; rfl, hc⟩

/-- The last row of well-formed items shows something. -/
theorem WellFormed.isBlank_of_getLast? (h : WellFormed m) :
    ∀ l, (m.entries.flatMap Item.rows).getLast? = some l → isBlank l = false := by
  intro l hl
  cases he : m.entries.getLast? with
  | none => simp [List.getLast?_eq_none_iff.1 he] at hl
  | some e =>
    rw [getLast?_flatMap_rows he] at hl
    exact (h.items e (List.mem_of_getLast? he)).isBlank_of_getLast? (h.last e he) hl

/-- **The padding that well-formed items are written with is the margin that they lose.** -/
theorem WellFormed.dedentedLines_render (h : WellFormed m) (hne : m.entries ≠ []) (d : Dialect) :
    dedentedLines (m.render d) = m.entries.flatMap Item.rows := by
  obtain ⟨c, r, below, hrows, hc⟩ := h.exists_cons hne
  have hfirst : isBlank (c :: r) = false := by simp [hc]
  have hplain : ∀ l ∈ m.entries.flatMap Item.rows, Plain l := fun l hl => h.plain hl
  have hmargin : margin (m.entries.flatMap Item.rows) = 0 :=
    margin_of_mem_cons (hrows ▸ List.mem_cons_self) hc
  have htrim : trimBlankLines (m.entries.flatMap Item.rows) = m.entries.flatMap Item.rows := by
    refine trimBlankLines_eq_self_iff.2 ⟨fun l hl => ?_, h.isBlank_of_getLast?⟩
    rw [hrows, List.head?_cons, Option.some.injEq] at hl
    exact hl ▸ hfirst
  rw [← joinLines_rows (m.render d), rows_render d hne]
  exact dedentedLines_joinLines_map_padRow (isBlank_itemPadding d) (tab_notMem_itemPadding d)
    (return_notMem_itemPadding d) (newline_notMem_itemPadding d) hplain hmargin htrim

/-- **Well-formed items are read as they were written**: written out with the padding of any
dialect and read again, they have the same names, the same bodies and the same order. -/
theorem parseBody_render_eq (h : WellFormed m) (d : Dialect) :
    parseBody (some (m.render d)) = m := by
  apply OrderedMap.ext
  rw [parseBody, parse]
  by_cases hne : m.entries = []
  · have hempty : m.render d = [] := by rw [render, hne, List.map_nil, joinLines_nil]
    rw [hempty, hne]
    rfl
  · rw [h.dedentedLines_render hne d, Item.ofLines_flatMap_rows h.items]
    exact OrderedMap.entries_ofList_of_nodup m.nodup_keys

/-- A body that ends with an empty row, one without anything, and one with rows that start with
brackets, with a lone star and with white space at their ends. -/
theorem parseBody_render_eq_stars :
    let m : ItemMap := OrderedMap.ofList [("x".toList, " : int\n\n    The x.\n".toList),
      ("**größe_2".toList, []), ("*args".toList, ":  \n[0] *first*\n* \n\n  rest  ".toList)]
    m.WellFormed ∧ parseBody (some (m.render .google)) = m ∧
      m.render .google = "    x : int

        The x.

    **größe_2
    *args:\x20\x20
    [0] *first*
    *\x20

      rest\x20\x20".toList := by
  intro m
  have h : m.WellFormed := ⟨by decide +kernel, by decide +kernel⟩
  exact ⟨h, parseBody_render_eq h .google, by decide +kernel⟩

end ItemMap

end Docstring
