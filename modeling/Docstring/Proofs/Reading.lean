import Docstring.Proofs.Headers
import Docstring.Proofs.Maps

/-!
# What a section holds

A section holds what the last of its blocks makes of its lines, where the rows before the first
header count as a block of the summary (`get?_ofLines`). Blank rows at the end of a block make
no difference, so neither do those that a docstring ends with.

With that a docstring that is written block by block, each block under a header in the dialect's
own form, is read back block by block (`parse_blocks`), whatever stands in the blocks as long as
it forms no header by itself.
-/

namespace Docstring

open Text

/-! ### The last block of a section -/

namespace Block

/-- The lines of the last block of a section. -/
def last? (k : Section) : List Block → Option (List Line)
  | [] => none
  | b :: bs => (last? k bs).or (if b.kind = k then some b.body else none)

/-- What a section holds that is written in some blocks. -/
def reading (k : Section) (bs : List Block) : Body :=
  ((last? k bs).map (Body.ofLines k)).getD (Body.empty k)

/-- Rows that stand under no header, as a block of the summary. -/
def summary (ls : List Line) : Block := ⟨.shortSummary, [], ls⟩

theorem last?_append (k : Section) (bs cs : List Block) :
    last? k (bs ++ cs) = (last? k cs).or (last? k bs) := by
  induction bs with
  | nil => simp [last?]
  | cons b bs ih => simp [last?, ih, Option.or_assoc]

theorem last?_eq_none_iff {k : Section} {bs : List Block} :
    last? k bs = none ↔ ∀ b ∈ bs, b.kind ≠ k := by
  induction bs with
  | nil => simp [last?]
  | cons b bs ih =>
    by_cases hb : b.kind = k <;> simp [last?, ih, hb]

theorem exists_mem_of_last? {k : Section} {bs : List Block} {ls : List Line}
    (h : last? k bs = some ls) : ∃ b ∈ bs, b.kind = k ∧ b.body = ls := by
  induction bs with
  | nil => simp [last?] at h
  | cons b bs ih =>
    rw [last?, Option.or_eq_some_iff] at h
    rcases h with h | ⟨-, h⟩
    · obtain ⟨c, hc, hk⟩ := ih h
      exact ⟨c, List.mem_cons_of_mem b hc, hk⟩
    · split at h
      · next hb => exact ⟨b, List.mem_cons_self, hb, Option.some.inj h⟩
      · simp at h

/-- The lines of the last block depend on the blocks of its section alone. -/
theorem last?_eq_getLast? (k : Section) (bs : List Block) :
    last? k bs = ((bs.filter (·.kind = k)).map body).getLast? := by
  induction bs with
  | nil => rfl
  | cons b bs ih =>
    rw [last?, ih]
    by_cases hb : b.kind = k
    · rw [List.filter_cons_of_pos (by simpa using hb), List.map_cons, List.getLast?_cons, if_pos hb]
      cases ((bs.filter (·.kind = k)).map body).getLast? <;> rfl
    · rw [List.filter_cons_of_neg (by simpa using hb), if_neg hb, Option.or_none]

end Block

/-! ### Blank rows at the end of a block -/

namespace Body

theorem proseOf_append_of_isBlank (ls : List Line) {l : Line} (h : isBlank l = true) :
    proseOf (ls ++ [l]) = proseOf ls := by
  simp only [proseOf, trimEnd_joinLines_append_of_isBlank ls h]

theorem ofLines_append_of_isBlank (k : Section) (ls : List Line) {l : Line}
    (h : isBlank l = true) : ofLines k (ls ++ [l]) = ofLines k ls := by
  rw [ofLines, ofLines, proseOf_append_of_isBlank ls h]

end Body

namespace Block

theorem map_ofLines_last?_extend (j k : Section) {l : Line} (h : isBlank l = true) (header : Line)
    (pre : List Line) (bs : List Block) :
    (last? k (⟨j, header, (Dialect.extend pre bs ([l], [])).1⟩ ::
        (Dialect.extend pre bs ([l], [])).2)).map (Body.ofLines k) =
      (last? k (⟨j, header, pre⟩ :: bs)).map (Body.ofLines k) := by
  induction bs generalizing j header pre with
  | nil =>
    by_cases hj : j = k
    · simp [last?, Dialect.extend, hj, Body.ofLines_append_of_isBlank k pre h]
    · simp [last?, Dialect.extend, hj]
  | cons b bs ih =>
    simp only [Dialect.extend]
    rw [last?, last?.eq_2 k ⟨j, header, pre⟩, Option.map_or, Option.map_or, ih]

/-- A blank row at the end of a block changes nothing of what is read. -/
theorem map_ofLines_last?_spread_append (d : Dialect) (b : Block) (k : Section) {l : Line}
    (h : isBlank l = true) :
    (last? k (spread d { b with body := b.body ++ [l] })).map (Body.ofLines k) =
      (last? k (b.spread d)).map (Body.ofLines k) := by
  have hl : d.segment [l] = ([l], []) :=
    Dialect.segment_of_headerFree ⟨Dialect.matchHeader_of_isBlank h _, trivial⟩
  have hseg : d.segment (b.body ++ [l]) =
      Dialect.extend (d.segment b.body).1 (d.segment b.body).2 ([l], []) := by
    rw [Dialect.segment_append, hl]
    rintro u hu
    obtain rfl := Option.some.inj hu
    exact Dialect.underlinesNothing_of_isBlank h
  rw [spread, hseg]
  exact map_ofLines_last?_extend b.kind k h b.header _ _

theorem reading_spread_append (d : Dialect) (b : Block) (k : Section) {l : Line}
    (h : isBlank l = true) :
    reading k (spread d { b with body := b.body ++ [l] }) = reading k (b.spread d) := by
  rw [reading, reading, map_ofLines_last?_spread_append d b k h]

theorem reading_summary_dropEndWhile (d : Dialect) (k : Section) (ls : List Line) :
    reading k ((summary (dropEndWhile isBlank ls)).spread d) =
      reading k ((summary ls).spread d) := by
  induction ls using List.reverseRecOn with
  | nil => rfl
  | append_singleton ls l ih =>
    cases h : isBlank l with
    | true =>
      rw [dropEndWhile_concat_pos ls h, ih]
      exact (reading_spread_append d (summary ls) k h).symm
    | false => rw [dropEndWhile_concat_neg ls h]

end Block

/-! ### Documents -/

namespace Document

variable {d : Dialect} {form : HeaderForm} {k : Section}

theorem slots_eq_sections (hd : d.headerForm = some form) : d.slots = d.sections := by
  cases d <;> simp [Dialect.headerForm] at hd <;> rfl

theorem get?_empty (d : Dialect) (k : Section) :
    (empty d).get? k = if k ∈ d.slots then some (Body.empty k) else none := by
  rw [get?, empty]
  exact OrderedMap.get?_insertAll_map Body.empty d.slots OrderedMap.empty k

theorem keys_empty (d : Dialect) : (empty d).sections.keys = d.slots := by
  have hmap : (d.slots.map fun k => (k, Body.empty k)).map Prod.fst = d.slots := by
    rw [List.map_map]
    exact List.map_id _
  have hnodup : ((OrderedMap.empty : OrderedMap Section Body).keys ++
      (d.slots.map fun k => (k, Body.empty k)).map Prod.fst).Nodup := by
    rw [hmap]
    exact d.slots_nodup
  have hkeys := OrderedMap.keys_insertAll_of_nodup hnodup
  rw [hmap] at hkeys
  exact hkeys

theorem get?_foldl_close (bs : List Block) (doc : Document) (k : Section) :
    (bs.foldl (fun doc b => doc.close b.kind b.body) doc).get? k =
      ((Block.last? k bs).map (Body.ofLines k)).or (doc.get? k) := by
  induction bs generalizing doc with
  | nil => simp [Block.last?]
  | cons b bs ih =>
    rw [List.foldl_cons, ih, get?_close, Block.last?, Option.map_or, Option.or_assoc]
    congr 1
    by_cases hb : b.kind = k
    · subst hb
      simp
    · simp [hb, Ne.symm hb]

theorem keys_foldl_close {bs : List Block} {doc : Document}
    (h : ∀ b ∈ bs, b.kind ∈ doc.sections.keys) :
    (bs.foldl (fun doc b => doc.close b.kind b.body) doc).sections.keys = doc.sections.keys := by
  induction bs generalizing doc with
  | nil => rfl
  | cons b bs ih =>
    have hkeys : (doc.close b.kind b.body).sections.keys = doc.sections.keys :=
      OrderedMap.keys_insert_of_mem _ (h b List.mem_cons_self)
    rw [List.foldl_cons, ih, hkeys]
    intro c hc
    rw [hkeys]
    exact h c (List.mem_cons_of_mem b hc)

theorem ofLines_eq_foldl (d : Dialect) (ls : List Line) :
    ofLines d ls = ((Block.summary ls).spread d).foldl
      (fun doc b => doc.close b.kind b.body) (empty d) := rfl

/-- **A section holds what the last of its blocks makes of its lines.** -/
theorem get?_ofLines (hk : k ∈ d.slots) (ls : List Line) :
    (ofLines d ls).get? k = some (Block.reading k ((Block.summary ls).spread d)) := by
  rw [ofLines_eq_foldl, get?_foldl_close, get?_empty, if_pos hk, Block.reading]
  cases Block.last? k ((Block.summary ls).spread d) <;> rfl

theorem kind_mem_sections_of_mem_segment {ls : List Line} {b : Block}
    (h : b ∈ (d.segment ls).2) : b.kind ∈ d.sections := by
  induction hn : ls.length using Nat.strong_induction_on generalizing ls with
  | _ n ih =>
    subst hn
    cases ls with
    | nil => simp [Dialect.segment] at h
    | cons l ls =>
      cases hm : d.matchHeader l ls.head? with
      | none =>
        rw [Dialect.segment_cons_of_none hm] at h
        exact ih _ (by simp) h rfl
      | some kn =>
        rw [Dialect.segment_cons_of_some hm] at h
        rcases List.mem_cons.1 h with rfl | h
        · obtain ⟨name, hn, -⟩ := Dialect.exists_names_of_matchHeader hm
          exact Dialect.mem_sections_of_resolve? (Dialect.resolve?_eq_some_iff.2 hn)
        · exact ih _ (by simp only [List.length_cons, List.length_drop]; omega) h rfl

theorem shortSummary_mem_slots (d : Dialect) : Section.shortSummary ∈ d.slots := by
  cases d <;> decide

theorem keys_ofLines (hd : d.headerForm = some form) (ls : List Line) :
    (ofLines d ls).sections.keys = d.sections := by
  rw [ofLines_eq_foldl, keys_foldl_close, keys_empty, slots_eq_sections hd]
  intro b hb
  rw [keys_empty]
  rcases List.mem_cons.1 hb with rfl | hb
  · exact shortSummary_mem_slots d
  · rw [slots_eq_sections hd]
    exact kind_mem_sections_of_mem_segment hb

/-- Two documents of a dialect are equal that hold the same in the same sections. -/
theorem ext_get? {p q : Document} (hd : p.dialect = q.dialect)
    (hk : p.sections.keys = q.sections.keys)
    (h : ∀ k ∈ p.sections.keys, p.get? k = q.get? k) : p = q := by
  obtain ⟨d, m⟩ := p
  obtain ⟨e, n⟩ := q
  have hm : m = n := OrderedMap.ext_get? hk h
  have hd' : d = e := hd
  rw [hm, hd']

theorem dialect_foldl_close (bs : List Block) (doc : Document) :
    (bs.foldl (fun doc b => doc.close b.kind b.body) doc).dialect = doc.dialect := by
  induction bs generalizing doc with
  | nil => rfl
  | cons b bs ih => exact ih (doc.close b.kind b.body)

theorem ofLines_nil (d : Dialect) : ofLines d [] = empty d := by
  have hkeys : (ofLines d []).sections.keys = (empty d).sections.keys :=
    OrderedMap.keys_insert_of_mem _ (by rw [keys_empty]; exact shortSummary_mem_slots d)
  refine ext_get? rfl hkeys fun k hk => ?_
  rw [hkeys, keys_empty] at hk
  rw [get?_ofLines hk, get?_empty, if_pos hk]
  by_cases hs : Section.shortSummary = k
  · subst hs
    rfl
  · simp [Block.reading, Block.spread, Block.summary, Dialect.segment, Block.last?, hs]

/-- An absent or blank docstring is read as nothing. -/
theorem parse_of_isBlankDoc {doc : Option Text} (h : isBlankDoc doc = true) :
    parse d doc = empty d := by
  cases doc with
  | none => rfl
  | some t =>
    rw [parse, clean_of_isBlank (by simpa [isBlankDoc] using h)]
    rfl

theorem hasContent_empty (d : Dialect) (k : Section) : (empty d).hasContent k = false := by
  rw [hasContent, get?_empty]
  split
  · cases k <;> rfl
  · rfl

theorem text?_empty (d : Dialect) (k : Section) : (empty d).text? k = none := by
  rw [text?, get?_empty]
  by_cases hk : k ∈ d.slots
  · rw [if_pos hk]
    cases k <;> rfl
  · rw [if_neg hk]

/-- In a dialect with headers a docstring is read as the lines in which they are looked for. -/
theorem parse_eq_ofLines (hd : d.headerForm = some form) (t : Text) :
    parse d (some t) = ofLines d (scanLines t) := by
  rw [parse]
  simp only [hd]
  split
  · next hc =>
    have hs : scanLines t = [] := by
      rw [scanLines, List.isEmpty_iff.1 hc]
      rfl
    rw [hs, ofLines_nil]
  · rfl

/-- What a section holds of a docstring that is made of tidy rows. -/
theorem get?_parse_joinLines (hd : d.headerForm = some form) (hk : k ∈ d.sections)
    {ls : List Line} (h : ∀ l ∈ ls, Tidy l) :
    (parse d (some (joinLines ls))).get? k =
      some (Block.reading k ((Block.summary (settle ls)).spread d)) := by
  rw [← slots_eq_sections hd] at hk
  rw [parse_eq_ofLines hd, scanLines_joinLines h, get?_ofLines hk]

/-- Rows that the layout leaves alone are read as they stand. -/
theorem get?_parse_joinLines_cons (hd : d.headerForm = some form) (hk : k ∈ d.sections)
    {first : Line} {rest : List Line} (h : ∀ l ∈ first :: rest, Tidy l)
    (hb : isBlank first = false) (hs : trimStart first = first) (hm : margin rest = 0) :
    (parse d (some (joinLines (first :: rest)))).get? k =
      some (Block.reading k ((Block.summary (first :: rest)).spread d)) := by
  rw [get?_parse_joinLines hd hk h, settle_of_margin_eq_zero hm, hs, trimBlankLines_cons hb,
    Block.reading_summary_dropEndWhile]

/-! ### Docstrings written block by block -/

theorem tidy_rows {b : Block} (hb : d.Heads form b.kind b.header)
    (h : ∀ l ∈ b.body, Tidy l) : ∀ l ∈ b.rows form, Tidy l := by
  have hlabel : ∀ name, d.Names b.kind name → Tidy name := fun _ hn => hn.isLabel.tidy
  have hheader : Tidy b.header := by
    cases form with
    | underlined => exact hlabel _ hb
    | colon =>
      rcases hb with hb | ⟨name, hn, he⟩
      · exact hlabel _ hb
      · rw [he]
        exact (⟨by decide, by decide, by decide⟩ : Tidy [':']).append (hlabel _ hn).no_tab
          (hlabel _ hn).no_break (by simp)
  have hline : ∀ n, Tidy (List.replicate n '-') := by
    intro n
    refine ⟨by simp, by simp, trimEnd_eq_self_iff.2 fun c hc => ?_⟩
    rw [(List.mem_replicate.1 (List.mem_of_getLast? hc)).2]
    decide
  intro l hl
  cases form with
  | underlined =>
    rcases List.mem_cons.1 hl with rfl | hl
    · exact hheader
    · rcases List.mem_cons.1 hl with rfl | hl
      · exact hline _
      · exact h l hl
  | colon =>
    rcases List.mem_cons.1 hl with rfl | hl
    · exact hheader
    · exact h l hl

/-- The first row of a block starts at column zero. -/
theorem exists_mem_rows {b : Block} (hb : d.Heads form b.kind b.header) :
    ∃ c t, b.header = c :: t ∧ isSpace c = false ∧ b.header ∈ b.rows form := by
  have hmem : b.header ∈ b.rows form := by
    cases form <;> exact List.mem_cons_self
  cases form with
  | underlined =>
    obtain ⟨c, t, hc, hs, -⟩ := (Dialect.Names.isLabel hb).exists_cons
    exact ⟨c, t, hc, hs, hmem⟩
  | colon =>
    rcases hb with hb | ⟨name, hn, he⟩
    · obtain ⟨c, t, hc, hs, -⟩ := hb.isLabel.exists_cons
      exact ⟨c, t, hc, hs, hmem⟩
    · obtain ⟨c, t, rfl, hs, -⟩ := hn.isLabel.exists_cons
      exact ⟨c, t ++ [':'], he, hs, hmem⟩

/-- Summary lines and blocks that make up a docstring: tidy, the summary visible from column zero
on, each block under a header of its own, and no other header anywhere. -/
structure Written (d : Dialect) (form : HeaderForm) (first : Line) (rest : List Line)
    (bs : List Block) : Prop where
  /-- The first line shows something. -/
  visible : isBlank first = false
  /-- The first line is not indented. -/
  unindented : trimStart first = first
  /-- There is a block. -/
  nonempty : bs ≠ []
  /-- The lines of the summary are tidy. -/
  tidy_summary : ∀ l ∈ first :: rest, Tidy l
  /-- The lines of the blocks are tidy. -/
  tidy_body : ∀ b ∈ bs, ∀ l ∈ b.body, Tidy l
  /-- Each block has a header of its section. -/
  heads : ∀ b ∈ bs, d.Heads form b.kind b.header
  /-- The summary holds no header. -/
  free_summary : d.HeaderFree (first :: rest)
  /-- No block holds a header besides its own. -/
  free_body : ∀ b ∈ bs, d.HeaderFree b.body

/-- The docstring that summary lines and blocks make up. -/
def writeBlocks (form : HeaderForm) (summary : List Line) (bs : List Block) : Text :=
  joinLines (summary ++ bs.flatMap (Block.rows form))

theorem Written.get?_parse {first : Line} {rest : List Line} {bs : List Block}
    (hd : d.headerForm = some form) (w : Written d form first rest bs) (hk : k ∈ d.sections) :
    (parse d (some (writeBlocks form (first :: rest) bs))).get? k =
      some (Block.reading k (Block.summary (first :: rest) :: bs)) := by
  obtain ⟨b, cs, rfl⟩ := List.exists_cons_of_ne_nil w.nonempty
  have htidy : ∀ l ∈ first :: (rest ++ (b :: cs).flatMap (Block.rows form)), Tidy l := by
    intro l hl
    rw [← List.cons_append] at hl
    rcases List.mem_append.1 hl with hl | hl
    · exact w.tidy_summary l hl
    · obtain ⟨c, hc, hl⟩ := List.mem_flatMap.1 hl
      exact tidy_rows (w.heads c hc) (w.tidy_body c hc) l hl
  have hmargin : margin (rest ++ (b :: cs).flatMap (Block.rows form)) = 0 := by
    obtain ⟨c, t, hc, hs, hmem⟩ := exists_mem_rows (w.heads b List.mem_cons_self)
    rw [hc] at hmem
    exact margin_of_mem_cons
      (List.mem_append_right rest (List.mem_flatMap.2 ⟨b, List.mem_cons_self, hmem⟩)) hs
  have hspread : ∀ c ∈ b :: cs, c.spread d = [c] :=
    fun c hc => Block.spread_of_headerFree (w.free_body c hc)
  rw [writeBlocks, List.cons_append,
    get?_parse_joinLines_cons hd hk htidy w.visible w.unindented hmargin, ← List.cons_append,
    Block.spread, Block.summary, Dialect.segment_append_flatMap_rows hd _ w.heads,
    Dialect.segment_of_headerFree w.free_summary, List.flatMap_congr hspread]
  simp only [List.flatMap_singleton', List.nil_append]
  rfl

/-- **A docstring written block by block is read block by block.** It holds the sections of the
catalog in order, each with what the last block of the section makes of its lines, the summary
lines being a first block of the summary, and empty where there is no block. So nothing changes
where blocks of different sections change places or headers are spelled another way. -/
theorem parse_blocks {first : Line} {rest : List Line} {bs : List Block}
    (hd : d.headerForm = some form) (w : Written d form first rest bs) :
    (parse d (some (writeBlocks form (first :: rest) bs))).sections.keys = d.sections ∧
    (∀ k ∈ d.sections, (parse d (some (writeBlocks form (first :: rest) bs))).get? k =
      some (Block.reading k (Block.summary (first :: rest) :: bs))) ∧
    ∀ cs, Written d form first rest cs →
      (∀ k, (cs.filter (·.kind = k)).map Block.body = (bs.filter (·.kind = k)).map Block.body) →
      parse d (some (writeBlocks form (first :: rest) cs)) =
        parse d (some (writeBlocks form (first :: rest) bs)) := by
  have hkeys : ∀ t, (parse d (some t)).sections.keys = d.sections := fun t => by
    rw [parse_eq_ofLines hd, keys_ofLines hd]
  refine ⟨hkeys _, fun k hk => w.get?_parse hd hk, fun cs w' hsame => ?_⟩
  refine ext_get? ?_ (by rw [hkeys, hkeys]) fun k hk => ?_
  · rw [parse_eq_ofLines hd, parse_eq_ofLines hd, ofLines_eq_foldl, ofLines_eq_foldl,
      dialect_foldl_close, dialect_foldl_close]
  · rw [hkeys] at hk
    have hlast : Block.last? k cs = Block.last? k bs := by
      rw [Block.last?_eq_getLast?, Block.last?_eq_getLast?, hsame k]
    rw [w.get?_parse hd hk, w'.get?_parse hd hk, Block.reading, Block.reading, Block.last?,
      Block.last?.eq_2 k (Block.summary (first :: rest)) bs, hlast]

/-- Two sections change places and take their other names; a name without an underline is text. -/
theorem parse_blocks_respelled :
    let bs : List Block := [⟨.parameters, "Args".toList, ["x: int".toList, "Returns".toList]⟩,
      ⟨.returns, "Return".toList, [[], "the sum".toList]⟩]
    let cs : List Block := [⟨.returns, "Returns".toList, [[], "the sum".toList]⟩,
      ⟨.parameters, "Parameters".toList, ["x: int".toList, "Returns".toList]⟩]
    Written .numpyNapoleon .underlined "Sums.".toList [] bs ∧
    Written .numpyNapoleon .underlined "Sums.".toList [] cs ∧
    (parse .numpyNapoleon (some (writeBlocks .underlined ["Sums.".toList] bs))).get? .returns =
      some (.text (some "\nthe sum".toList)) ∧
    parse .numpyNapoleon (some (writeBlocks .underlined ["Sums.".toList] cs)) =
      parse .numpyNapoleon (some (writeBlocks .underlined ["Sums.".toList] bs)) := by
  intro bs cs
  have w : Written .numpyNapoleon .underlined "Sums.".toList [] bs :=
    ⟨by decide, by decide, by decide, by decide, by decide,
      by simp only [bs, Dialect.Heads]; decide, by decide, by decide⟩
  have w' : Written .numpyNapoleon .underlined "Sums.".toList [] cs :=
    ⟨by decide, by decide, by decide, by decide, by decide,
      by simp only [cs, Dialect.Heads]; decide, by decide, by decide⟩
  have hsame : ∀ k, (cs.filter (·.kind = k)).map Block.body =
      (bs.filter (·.kind = k)).map Block.body := by
    intro k
    cases k <;> decide
  obtain ⟨-, hget, hmoved⟩ := parse_blocks rfl w
  refine ⟨w, w', ?_, hmoved cs w' hsame⟩
  rw [hget .returns (by decide)]
  decide

end Document

end Docstring
