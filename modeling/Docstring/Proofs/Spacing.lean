import Docstring.Proofs.Kept

/-!
# Blank lines between sections

A merge writes its sections one below the other with an empty line between each two. Prose ends with
something that shows, for so it is read, and every section starts with its header, or is the summary
and starts as a docstring does. But items are put together anew: the one that comes last need not
have been the last on either side, and then its body may end with blank lines that stood in front of
another item. So there is exactly one blank line between each two sections, and none at either end,
just when no section is left with such an item at its end (`docs_spaced_iff`).
-/

namespace Docstring

open Text

variable {d : Dialect} {form : HeaderForm} {k : Section} {a b m s t : Text}

namespace Text

/-! ### Rows at the ends of a text -/

/-- How many blank rows there are between what two texts show that stand one below the other, with
an empty row between them. -/
def gap (s t : Text) : Nat :=
  ((rows s).rtakeWhile isBlank).length + 1 + ((rows t).takeWhile isBlank).length

/-- A text of tidy rows that shows something in the first of them. -/
structure Headed (t : Text) : Prop where
  /-- The rows are tidy. -/
  tidy : ∀ r ∈ rows t, Tidy r
  /-- The first row shows something. -/
  first : ∃ r rs, rows t = r :: rs ∧ isBlank r = false

theorem Headed.isBlank_eq (h : Headed t) : isBlank t = false := by
  obtain ⟨r, rs, hrows, hr⟩ := h.first
  rw [← joinLines_rows t, hrows, isBlank_joinLines, List.all_cons, hr, Bool.false_and]

theorem Headed.head?_ne (h : Headed t) : t.head? ≠ some '\n' := by
  obtain ⟨r, rs, hrows, hr⟩ := h.first
  have hbreak : '\n' ∉ r := (h.tidy r (hrows ▸ List.mem_cons_self)).no_break
  obtain ⟨c, l, rfl⟩ := List.exists_cons_of_ne_nil (ne_nil_of_isBlank hr)
  have ht : t = joinLines ((c :: l) :: rs) := by rw [← hrows, joinLines_rows]
  have hc : c ≠ '\n' := fun hc => hbreak (hc ▸ List.mem_cons_self)
  rw [ht]
  cases rs <;> simpa using hc

/-- A text of tidy rows ends with a line feed where its last row is blank. -/
theorem isBlank_getLast?_rows_iff (h : ∀ r ∈ rows t, Tidy r) (ht : isBlank t = false) :
    (∀ r ∈ (rows t).getLast?, isBlank r = false) ↔ t.getLast? ≠ some '\n' := by
  obtain ⟨ini, r, hrows⟩ : ∃ ini r, rows t = ini ++ [r] :=
    (List.eq_nil_or_concat' (rows t)).resolve_left (rows_ne_nil t)
  have hr : Tidy r := h r (by simp [hrows])
  have hjoin : t = joinLines (ini ++ [r]) := by rw [← hrows, joinLines_rows]
  have hlast : (∀ x ∈ (rows t).getLast?, isBlank x = false) ↔ r ≠ [] := by
    rw [hrows, List.getLast?_concat, ne_eq, ← hr.isBlank_iff]
    simp
  rw [hlast, hjoin]
  by_cases hini : ini = []
  · subst hini
    have hne : r ≠ [] := by simpa [hjoin] using ne_nil_of_isBlank ht
    refine iff_of_true hne fun hmem => hr.no_break (List.mem_of_getLast? ?_)
    simpa using hmem
  · rw [joinLines_append hini (List.cons_ne_nil r []), joinLines_singleton]
    by_cases hne : r = []
    · simp [hne]
    · refine iff_of_true hne fun hmem => hr.no_break (List.mem_of_getLast? ?_)
      rwa [List.getLast?_append_of_ne_nil _ (List.cons_ne_nil _ _),
        List.getLast?_cons_of_ne_nil hne] at hmem

theorem gap_eq_one_iff (hs : Headed s) (ht : Headed t) :
    gap s t = 1 ↔ s.getLast? ≠ some '\n' := by
  obtain ⟨r, rs, hrows, hr⟩ := ht.first
  have hhead : (rows t).takeWhile isBlank = [] := by
    rw [hrows, List.takeWhile_cons_of_neg (by simp [hr])]
  have htail : ((rows s).rtakeWhile isBlank).length = 0 ↔
      ∀ r ∈ (rows s).getLast?, isBlank r = false := by
    rw [List.length_eq_zero_iff, List.rtakeWhile_eq_nil_iff,
      List.getLast?_eq_some_getLast (rows_ne_nil s)]
    simp
  rw [← isBlank_getLast?_rows_iff hs.tidy hs.isBlank_eq, ← htail, gap, hhead]
  simp

theorem head?_intercalate_ne {ts : List Text} (h : ∀ t ∈ ts, Headed t) :
    (['\n', '\n'].intercalate ts).head? ≠ some '\n' := by
  cases ts with
  | nil => simp [List.intercalate]
  | cons t ts =>
    have ht : Headed t := h t List.mem_cons_self
    have hhead := ht.head?_ne
    obtain ⟨c, s, rfl⟩ := List.exists_cons_of_ne_nil (ne_nil_of_isBlank ht.isBlank_eq)
    cases ts <;> simpa [List.intercalate] using hhead

/-- **Headed texts with an empty row between each two** are one blank row apart, and end with
something that shows, just when each of them does. -/
theorem spaced_intercalate_iff {ts : List Text} (hne : ts ≠ []) (h : ∀ t ∈ ts, Headed t) :
    ((['\n', '\n'].intercalate ts).getLast? ≠ some '\n' ∧ ts.IsChain fun s t => gap s t = 1) ↔
      ∀ t ∈ ts, t.getLast? ≠ some '\n' := by
  induction ts with
  | nil => exact absurd rfl hne
  | cons s ts ih =>
    cases ts with
    | nil => simp [List.intercalate]
    | cons t ts =>
      obtain ⟨hs, hts⟩ := List.forall_mem_cons.1 h
      have ht : Headed t := hts t List.mem_cons_self
      have hjoin : ['\n', '\n'].intercalate (s :: t :: ts) =
          s ++ '\n' :: '\n' :: ['\n', '\n'].intercalate (t :: ts) := by
        simp [List.intercalate]
      have hbelow : ['\n', '\n'].intercalate (t :: ts) ≠ [] := by
        obtain ⟨c, l, rfl⟩ := List.exists_cons_of_ne_nil (ne_nil_of_isBlank ht.isBlank_eq)
        cases ts <;> simp [List.intercalate]
      have hlast : (['\n', '\n'].intercalate (s :: t :: ts)).getLast? =
          (['\n', '\n'].intercalate (t :: ts)).getLast? := by
        rw [hjoin, List.getLast?_append_of_ne_nil _ (List.cons_ne_nil _ _),
          List.getLast?_cons_cons, List.getLast?_cons_of_ne_nil hbelow]
      rw [hlast, List.isChain_cons_cons, gap_eq_one_iff hs ht, List.forall_mem_cons,
        ← ih (List.cons_ne_nil t ts) hts]
      tauto

end Text

/-! ### Sections as they are read -/

/-- A summary that stands under no header starts as the docstring does. -/
theorem Document.headed_summary (hd : d.headerForm = some form)
    (hs : ∀ h ∈ headers d (some a), h.1 ≠ .shortSummary)
    (ht : (parse d (some a)).text? .shortSummary = some t) : Headed t := by
  have htidy : ∀ l ∈ scanLines a, Tidy l := fun l hl => tidy_of_mem_scanLines hl
  have hnone : Block.last? .shortSummary (d.segment (scanLines a)).2 = none := by
    refine Block.last?_eq_none_iff.2 fun b hb => hs (b.kind, b.header) ?_
    rw [headers, hd]
    exact List.mem_map_of_mem hb
  have hprose : Body.proseOf (d.segment (scanLines a)).1 = some t := by
    rw [text?, parse_eq_ofLines hd, get?_ofLines (shortSummary_mem_slots d), Block.reading,
      Block.spread, Block.last?, Block.summary, hnone] at ht
    exact ht
  obtain ⟨ms, hms⟩ := Dialect.prefix_segment_fst (d := d) (scanLines a)
  have hlead : ∀ l ∈ (d.segment (scanLines a)).1, Tidy l := fun l hl =>
    htidy l (hms ▸ List.mem_append_left ms hl)
  have hrows := Body.rows_of_proseOf hlead hprose
  obtain ⟨ws, hws⟩ := dropEndWhile_prefix_self isBlank (d.segment (scanLines a)).1
  rw [← hrows] at hws
  refine ⟨fun r hr => hlead r (hws ▸ List.mem_append_left ws hr), ?_⟩
  obtain ⟨r, rs, hr⟩ := List.exists_cons_of_ne_nil (rows_ne_nil t)
  have hhead : (scanLines a).head? = some r := by
    rw [← hms, ← hws, hr]
    rfl
  exact ⟨r, rs, hr, isBlank_of_head?_scanLines hhead⟩

namespace ItemMap

variable {m : ItemMap}

/-- **Written items end as the last of them does.** -/
theorem Whole.getLast?_render_iff (h : Whole m) (hne : m.entries ≠ []) (d : Dialect) :
    (m.render d).getLast? ≠ some '\n' ↔ ∀ e ∈ m.entries.getLast?, e.2.getLast? ≠ some '\n' := by
  obtain ⟨htidy, hvisible⟩ := h.tidy_rows_render (d := d) hne
  obtain ⟨e, he⟩ := Option.isSome_iff_exists.1 (List.getLast?_isSome.2 hne)
  have hwhole := h e (List.mem_of_getLast? he)
  obtain ⟨tail, below, hrows, hs, -⟩ := hwhole.single
  have hname := Item.isBlank_of_start? hs
  have hbreak : '\n' ∉ e.1 ++ tail := (hwhole.tidy _ (hrows ▸ List.mem_cons_self)).no_break
  have hbody : (e.1 ++ e.2).getLast? ≠ some '\n' ↔ e.2.getLast? ≠ some '\n' := by
    by_cases hempty : e.2 = []
    · rw [hempty, List.append_nil]
      exact iff_of_true (fun hlast => hbreak (List.mem_append_left _ (List.mem_of_getLast? hlast)))
        (by simp)
    · rw [List.getLast?_append_of_ne_nil _ hempty]
  have hpad : (∀ r ∈ (Item.rows e).getLast?.map (padRow d.itemPadding), isBlank r = false) ↔
      ∀ r ∈ (Item.rows e).getLast?, isBlank r = false := by
    cases (Item.rows e).getLast? <;> simp [isBlank_padRow]
  rw [← isBlank_getLast?_rows_iff htidy hvisible, rows_render d hne, List.getLast?_map,
    getLast?_flatMap_rows he, hpad, Item.rows,
    isBlank_getLast?_rows_iff (t := e.1 ++ e.2) hwhole.tidy (by simp [hname]), hbody, he]
  simp

end ItemMap

/-! ### Sections as they are written -/

theorem getLast?_renderHeader_append (h : isBlank t = false) :
    (d.renderHeader k ++ t).getLast? = t.getLast? :=
  List.getLast?_append_of_ne_nil _ (ne_nil_of_isBlank h)

/-- A section starts with its header, or as the summary does that has none. -/
theorem headed_renderHeader (hd : d.headerForm = some form) (hk : k ∈ d.sections)
    (ht : ∀ r ∈ rows t, Tidy r) (hs : k = .shortSummary → Headed t) :
    Headed (d.renderHeader k ++ t) := by
  have hrows : rows (d.renderHeader k ++ t) = pieceRows form k t := by
    rw [← joinLines_pieceRows hd k t]
    exact rows_joinLines (pieceRows_ne_nil form k t) (newline_notMem_of_mem_pieceRows hk)
  by_cases hsummary : k = .shortSummary
  · rw [Dialect.renderHeader, if_pos hsummary]
    exact hs hsummary
  · have hheads : d.Heads form k (heading form k) := heads_heading hk
    rw [pieceRows, if_neg hsummary] at hrows
    refine ⟨fun r hr => ?_, ?_⟩
    · rw [hrows] at hr
      exact Document.tidy_rows (b := ⟨k, heading form k, rows t⟩) hheads ht r hr
    · obtain ⟨c, l, hc, hspace, -⟩ :=
        Document.exists_mem_rows (b := ⟨k, heading form k, rows t⟩) hheads
      have hvisible : isBlank (heading form k) = false := by
        have hheading : heading form k = c :: l := hc
        simp [hheading, hspace]
      rw [hrows]
      cases form <;> exact ⟨_, _, rfl, hvisible⟩

namespace Merge

open Document

variable {p q : Document} {policy : Policy} {params : Option (List Text)}

/-- Prose never ends with a line feed. -/
theorem getLast?_prose (hp : Read d p) (hq : Read d q) (hk : k ∈ d.sections)
    (hi : k.hasItems = false) {within : Bool} (ht : prose within (p.text? k) (q.text? k) = some t) :
    t.getLast? ≠ some '\n' := by
  cases hqk : q.text? k with
  | none =>
    rw [hqk, prose_none_right] at ht
    exact Body.getLast?_of_proseOf (hp.passage hk hi ht).trimmed
  | some b =>
    have hb := hq.passage hk hi hqk
    have hend := Body.getLast?_of_proseOf hb.trimmed
    cases hpk : p.text? k with
    | none =>
      rw [hpk, hqk, prose_none_left] at ht
      exact Option.some.inj ht ▸ hend
    | some a =>
      rw [hpk, hqk, prose] at ht
      obtain rfl := Option.some.inj ht
      split
      · rwa [List.getLast?_append_of_ne_nil _ (List.cons_ne_nil _ _),
          List.getLast?_cons_of_ne_nil (ne_nil_of_isBlank hb.visible)]
      · exact hend

/-- **What a merge writes of a section ends with a line feed** just when it lists items the last of
which does. -/
theorem getLast?_kept_iff (hp : Read d p) (hq : Read d q) (hk : k ∈ d.sections) :
    (∀ t, (kept d policy params p q k).render? d = some t → t.getLast? ≠ some '\n') ↔
      (k.hasItems = true → ∀ e ∈ (liveItems params k
        (items (mergesWithin d policy k) k p q)).entries.getLast?, e.2.getLast? ≠ some '\n') := by
  cases hi : k.hasItems with
  | false =>
    refine iff_of_true (fun t ht => ?_) (by simp)
    rw [kept, hi, if_neg Bool.false_ne_true] at ht
    exact getLast?_prose hp hq hk hi ht
  | true =>
    rw [kept, if_pos hi]
    have hwhole : ItemMap.Whole (liveItems params k (items (mergesWithin d policy k) k p q)) :=
      whole_liveItems hp hq hk hi _
    generalize liveItems params k (items (mergesWithin d policy k) k p q) = m at hwhole ⊢
    by_cases hne : m.entries = []
    · refine iff_of_true (fun t ht => absurd hne (Body.entries_ne_nil_of_render? ht)) ?_
      simp [hne]
    · rw [Body.render?_items_of_ne_nil hne, ← hwhole.getLast?_render_iff hne d]
      simp

/-- The summary of a merge starts as one of the two docstrings does. -/
theorem headed_kept_summary (hd : d.headerForm = some form)
    (hsa : ∀ h ∈ headers d (some a), h.1 ≠ .shortSummary)
    (hsb : ∀ h ∈ headers d (some b), h.1 ≠ .shortSummary)
    (ht : (kept d policy params (withoutStaleRaises (parse d (some a)) (parse d (some b)))
      (parse d (some b)) .shortSummary).render? d = some t) : Headed t := by
  have hwithin : mergesWithin d policy .shortSummary = false := by
    cases policy with
    | replace => simp [mergesWithin]
    | mergeWithin => exact mergesWithin_shortSummary hd
  have hprose : prose false ((parse d (some a)).text? .shortSummary)
      ((parse d (some b)).text? .shortSummary) = some t := by
    rw [← text?_withoutStaleRaises (read_parse hd a) (shortSummary_mem_sections hd) rfl (by decide)
      (parse d (some b)), ← hwithin]
    exact ht
  cases hq : (parse d (some b)).text? .shortSummary with
  | none =>
    rw [hq, prose_none_right] at hprose
    exact headed_summary hd hsa hprose
  | some s =>
    have hs : s = t := by
      rw [hq] at hprose
      cases hp : (parse d (some a)).text? .shortSummary <;> simpa [hp, prose] using hprose
    exact headed_summary hd hsb (hs ▸ hq)

/-- **Blank lines between the sections of a merge.** Two visible docstrings none of which has a
header for its summary merge to their sections one below the other, without a line feed in front.
There is none at the end either, and exactly one blank line between each two sections, just when in
no section the last item that is kept has a body that ends with a line feed. -/
theorem docs_spaced_iff (hd : d.headerForm = some form) (policy : Policy)
    (params : Option (List Text)) (ha : isBlank a = false) (hb : isBlank b = false)
    (hsa : ∀ h ∈ headers d (some a), h.1 ≠ .shortSummary)
    (hsb : ∀ h ∈ headers d (some b), h.1 ≠ .shortSummary)
    (hm : docs d policy params (some a) (some b) = some m) :
    let q := parse d (some b)
    let p := withoutStaleRaises (parse d (some a)) q
    let ts := sections d policy params p q
    m = ['\n', '\n'].intercalate ts ∧ m.head? ≠ some '\n' ∧
    ((m.getLast? ≠ some '\n' ∧ ts.IsChain fun s t => gap s t = 1) ↔
      ∀ k ∈ d.sections, k.hasItems = true → ∀ e ∈ (liveItems params k
        (items (mergesWithin d policy k) k p q)).entries.getLast?, e.2.getLast? ≠ some '\n') := by
  intro q p ts
  have hq : Read d q := read_parse hd b
  have hp : Read d p := read_withoutStaleRaises (read_parse hd a) q
  have hlegible : Legible d (kept d policy params p q) := legible_kept hp hq
  have hmem : ∀ t, t ∈ ts ↔ ∃ k ∈ d.sections, ∃ s, (kept d policy params p q k).render? d = some s ∧
      d.renderHeader k ++ s = t := by
    intro t
    simp only [ts, sections, body_eq_render?_kept, List.mem_filterMap, Option.map_eq_some_iff]
  have hheaded : ∀ t ∈ ts, Headed t := by
    intro t ht
    obtain ⟨k, hk, s, hs, rfl⟩ := (hmem t).1 ht
    refine headed_renderHeader hd hk (hlegible k hk s hs).1 ?_
    rintro rfl
    exact headed_kept_summary hd hsa hsb hs
  have hends : (∀ t ∈ ts, t.getLast? ≠ some '\n') ↔ ∀ k ∈ d.sections, ∀ s,
      (kept d policy params p q k).render? d = some s → s.getLast? ≠ some '\n' := by
    constructor
    · intro h k hk s hs
      rw [← getLast?_renderHeader_append (d := d) (k := k) (hlegible k hk s hs).2]
      exact h _ ((hmem _).2 ⟨k, hk, s, hs, rfl⟩)
    · intro h t ht
      obtain ⟨k, hk, s, hs, rfl⟩ := (hmem t).1 ht
      rw [getLast?_renderHeader_append (hlegible k hk s hs).2]
      exact h k hk s hs
  rw [docs_of_visible ha hb, visible_eq_sectioned hd] at hm
  have hjoin : joinSections ts = some m := hm
  rw [joinSections] at hjoin
  split at hjoin
  · simp at hjoin
  · next hne =>
    have hne : ts ≠ [] := fun he => hne (List.isEmpty_iff.2 he)
    obtain rfl := Option.some.inj hjoin
    refine ⟨rfl, head?_intercalate_ne hheaded, ?_⟩
    rw [spaced_intercalate_iff hne hheaded, hends]
    exact forall_congr' fun k => imp_congr_right fun hk => getLast?_kept_iff hp hq hk

/-- An item that is not kept leaves none behind that ends with a blank line. -/
theorem docs_spaced_iff_dropped :
    let a := "A.\n\nParameters\n----------\nx: int\n\ny: int".toList
    let b := "B.\n\nReturns\n-------\nint".toList
    let q := parse .numpy (some b)
    let p := withoutStaleRaises (parse .numpy (some a)) q
    let m := "B.\n\nParameters\n----------\ny: int\n\nReturns\n-------\nint".toList
    docs .numpy .replace (some ["y".toList]) (some a) (some b) = some m ∧
    m.getLast? ≠ some '\n' ∧
    (sections .numpy .replace (some ["y".toList]) p q).IsChain fun s t => gap s t = 1 := by
  intro a b q p m
  have hm : docs .numpy .replace (some ["y".toList]) (some a) (some b) = some m := by
    decide +kernel
  have hd : Dialect.numpy.headerForm = some .underlined := rfl
  obtain ⟨-, -, hspaced⟩ := docs_spaced_iff hd .replace (some ["y".toList]) (a := a) (b := b)
    (by decide +kernel) (by decide +kernel) (by decide +kernel) (by decide +kernel) hm
  exact ⟨hm, hspaced.2 (by decide +kernel)⟩

/-- Without the item that stood below it an item ends with the blank line between them, and one that
takes the place of another brings the blank line behind it. -/
theorem not_spaced_docs :
    let a := "A.\n\nParameters\n----------\nx: int\n\ny: int".toList
    let b := "B.".toList
    let a' := "Parameters\n----------\nx: 1\ny: 2".toList
    let b' := "Parameters\n----------\ny: 3\n\nx: 4\n\nReturns\n-------\nint".toList
    let p' := parse .numpy (some a')
    let q' := parse .numpy (some b')
    (∀ x ∈ [a, b, a', b'], isBlank x = false ∧
      ∀ h ∈ headers .numpy (some x), h.1 ≠ .shortSummary) ∧
    docs .numpy .replace (some ["x".toList]) (some a) (some b) =
      some "B.\n\nParameters\n----------\nx: int\n".toList ∧
    docs .numpy .mergeWithin none (some a') (some b') =
      some "Parameters\n----------\nx: 4\ny: 3\n\n\nReturns\n-------\nint".toList ∧
    sections .numpy .mergeWithin none (withoutStaleRaises p' q') q' =
      ["Parameters\n----------\nx: 4\ny: 3\n".toList, "Returns\n-------\nint".toList] ∧
    gap "Parameters\n----------\nx: 4\ny: 3\n".toList "Returns\n-------\nint".toList = 2 := by
  decide +kernel

end Merge

end Docstring
