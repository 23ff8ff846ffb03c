import Docstring.Merge
import Docstring.Proofs.Maps
import Docstring.Proofs.Outlines

/-!
# Merging outlines

Two normalised docstrings merge to one that has the titles of both, the ancestor's first, and
under each title what the descendant has there, or else what the ancestor has
(`docs_rest_shows`). The merge overlays the chapters and puts back or leaves out the front matter
on its own; what it writes is then read as it was put together (`Outline.parse_render`).
-/

namespace Docstring

open Text

namespace Outline

/-! ### What an outline shows -/

/-- The titles of an outline, in order. -/
def headings (o : Outline) : List Text := o.chapters.keys.filter (· ≠ [])

/-- The text under a title; under the empty one, that of the front matter. -/
def text? (o : Outline) (title : Text) : Option Text :=
  ((o.get? title).map Chapter.body).join

/-- An outline that reads as front matter and then texts under titles. -/
structure Shows (o : Outline) (front : Option Text) (texts : OrderedMap Text (Option Text)) :
    Prop where
  /-- The front matter stands first. -/
  entries : (o.chapters.map Chapter.body).entries = ([], front) :: texts.entries
  /-- The others have titles. -/
  title_ne_nil : ∀ e ∈ texts.entries, e.1 ≠ []

namespace Shows

variable {o : Outline} {front : Option Text} {texts : OrderedMap Text (Option Text)}

theorem text?_eq (h : Shows o front texts) (title : Text) :
    o.text? title = if title = [] then front else (texts.get? title).join := by
  have hmap := OrderedMap.get?_map Chapter.body o.chapters title
  rw [OrderedMap.get?, h.entries, OrderedMap.lookup_cons_eq] at hmap
  rw [text?, get?, ← hmap]
  split <;> rfl

theorem headings_eq (h : Shows o front texts) : o.headings = texts.keys := by
  have hall : o.chapters.keys = [] :: texts.keys := by
    rw [← OrderedMap.keys_map Chapter.body, OrderedMap.keys, h.entries]
    rfl
  rw [headings, hall, List.filter_cons_of_neg (by simp), List.filter_eq_self]
  intro k hk
  obtain ⟨e, he, rfl⟩ := List.mem_map.1 hk
  simpa using h.title_ne_nil e he

/-- Whether the front matter has a body. -/
theorem any_hasBody (h : Shows o front texts) :
    o.front?.any Chapter.hasBody = front.any (!·.isEmpty) := by
  have htext := h.text?_eq []
  rw [if_pos rfl, text?] at htext
  rw [front?, ← htext]
  cases o.get? [] <;> rfl

end Shows

/-! ### What a merge writes -/

/-- The front matter that a merge keeps, of the lines that stand first on either side. -/
def keptFront (ancestor descendant : List Line) : Option (List Line) :=
  if bodyOf descendant ≠ [] then some descendant
  else if bodyOf ancestor ≠ [] then some ancestor else none

theorem hasBody_frontEntry (ls : List Line) :
    (frontEntry ls).2.hasBody = decide (bodyOf ls ≠ []) := by
  cases h : bodyOf ls <;> simp [frontEntry, Chapter.hasBody, h]

section

variable {x y : Outline} {as ds : List Line} {es : List (Text × Chapter)}
  {S T : OrderedMap Text Chapter}

theorem front?_of_entries (h : x.chapters.entries = frontEntry as :: es) :
    x.front? = some (frontEntry as).2 := by
  rw [front?, get?, OrderedMap.get?, h]
  rfl

/-- Front matter is written in place. -/
theorem entries_insert_of_entries (h : x.chapters.entries = frontEntry as :: es) (ds : List Line) :
    (x.insert [] (frontEntry ds).2).chapters.entries = frontEntry ds :: es := by
  rw [insert, OrderedMap.entries_insert, h]
  exact if_pos rfl

theorem entries_erase_of_entries (h : x.chapters.entries = frontEntry as :: es)
    (hne : ∀ e ∈ es, e.1 ≠ []) : (x.erase []).chapters.entries = es := by
  have hfilter : (x.erase []).chapters.entries =
      x.chapters.entries.filter fun e => decide (e.1 ≠ []) := rfl
  rw [hfilter, h, List.filter_cons_of_neg (by simp [frontEntry]), List.filter_eq_self]
  exact fun e he => by simpa using hne e he

/-- Front matter goes over front matter and chapters over chapters. -/
theorem entries_overlay_of_entries (hx : x.chapters.entries = frontEntry as :: S.entries)
    (hy : y.chapters.entries = frontEntry ds :: T.entries) (hT : ∀ e ∈ T.entries, e.1 ≠ []) :
    (x.overlay y).chapters.entries = frontEntry ds :: (S.overlay T).entries := by
  have hstep : (x.overlay y).chapters =
      (x.insert [] (frontEntry ds).2).chapters.insertAll T.entries := by
    rw [overlay, OrderedMap.overlay, hy]
    rfl
  rw [hstep]
  exact OrderedMap.entries_insertAll_cons (entries_insert_of_entries hx ds) hT

end

theorem exists_entry_of_mem_titled {bs : List Block} {e : Text × Chapter}
    (he : e ∈ (titled bs).entries) : ∃ b ∈ bs, b.entry = e :=
  List.mem_map.1 (OrderedMap.mem_ofList he)

/-- Every chapter of an overlay is that of a block of either side. -/
theorem exists_entry_of_mem_overlay {as ds : List Block} {e : Text × Chapter}
    (he : e ∈ ((titled as).overlay (titled ds)).entries) : ∃ b ∈ as ++ ds, b.entry = e := by
  rcases OrderedMap.mem_insertAll he with he | he
  · obtain ⟨b, hb, rfl⟩ := exists_entry_of_mem_titled he
    exact ⟨b, List.mem_append_left _ hb, rfl⟩
  · obtain ⟨b, hb, rfl⟩ := exists_entry_of_mem_titled he
    exact ⟨b, List.mem_append_right _ hb, rfl⟩

/-- **A merge writes the front matter that it keeps and then the chapters of both sides**, the
descendant's over the ancestor's. -/
theorem entries_outlines {xs ys : List Line} (hx : ∀ b ∈ (divide xs).2, trim b.title ≠ [])
    (hy : ∀ b ∈ (divide ys).2, trim b.title ≠ []) :
    (Merge.outlines (ofLines xs) (ofLines ys)).chapters.entries =
      ((keptFront (divide xs).1 (divide ys).1).map frontEntry).toList ++
        ((titled (divide xs).2).overlay (titled (divide ys).2)).entries := by
  have hxs := entries_ofLines hx
  have hys := entries_ofLines hy
  have hne : ∀ e ∈ ((titled (divide xs).2).overlay (titled (divide ys).2)).entries, e.1 ≠ [] := by
    intro e he
    obtain ⟨b, hb, rfl⟩ := exists_entry_of_mem_overlay he
    rcases List.mem_append.1 hb with hb | hb
    · exact hx b hb
    · exact hy b hb
  have hover := entries_overlay_of_entries hxs hys fun e he => by
    obtain ⟨b, hb, rfl⟩ := exists_entry_of_mem_titled he
    exact hy b hb
  rw [Merge.outlines, front?_of_entries hxs, front?_of_entries hys, keptFront]
  by_cases hcy : bodyOf (divide ys).1 = []
  · by_cases hcx : bodyOf (divide xs).1 = []
    · simp [hasBody_frontEntry, hcy, hcx, entries_erase_of_entries hover hne]
    · simp [hasBody_frontEntry, hcy, hcx, entries_insert_of_entries hover (divide xs).1]
  · simp [hasBody_frontEntry, hcy, hover]

/-! ### What is read again -/

/-- What an outline of lines shows. -/
theorem shows_ofLines {ls : List Line} (h : ∀ l ∈ ls, Tidy l) :
    (ofLines ls).Shows (some (bodyOf (divide ls).1)) ((titled (divide ls).2).map Chapter.body) := by
  have hne : ∀ b ∈ (divide ls).2, trim b.title ≠ [] :=
    fun b hb => (neat_divide h b hb).trim_title_ne_nil
  refine ⟨?_, fun e he => ?_⟩
  · rw [OrderedMap.entries_map, entries_ofLines hne]
    rfl
  · obtain ⟨c, hc, rfl⟩ := List.mem_map.1 he
    obtain ⟨b, hb, rfl⟩ := exists_entry_of_mem_titled hc
    exact hne b hb

/-- An overlay without chapters is one of nothing. -/
theorem eq_nil_of_overlay {as ds : List Block}
    (h : ((titled as).overlay (titled ds)).entries = []) : ds = [] := by
  rw [List.eq_nil_iff_forall_not_mem]
  intro b hb
  have hmem : b.entry.1 ∈ ((titled as).overlay (titled ds)).keys := by
    refine OrderedMap.mem_keys_insertAll.2 (.inr ?_)
    refine OrderedMap.mem_keys_insertAll.2 (.inr ?_)
    exact List.mem_map_of_mem (List.mem_map_of_mem hb)
  rw [OrderedMap.keys, h] at hmem
  simp at hmem

theorem exists_map_entry {es : List (Text × Chapter)}
    (h : ∀ e ∈ es, ∃ b : Block, b.Neat ∧ b.entry = e) :
    ∃ bs : List Block, (∀ b ∈ bs, b.Neat) ∧ bs.map Block.entry = es := by
  induction es with
  | nil => exact ⟨[], by simp, rfl⟩
  | cons e es ih =>
    obtain ⟨b, hb, rfl⟩ := h e List.mem_cons_self
    obtain ⟨bs, hbs, rfl⟩ := ih fun e he => h e (List.mem_cons_of_mem _ he)
    refine ⟨b :: bs, fun c hc => ?_, rfl⟩
    rcases List.mem_cons.1 hc with rfl | hc
    · exact hb
    · exact hbs c hc

theorem map_body_entry (bs : List Block) :
    ((bs.map Block.entry).map fun e => (e.1, e.2.body)) =
      (bs.map Block.view).map fun v => (v.1, some v.2) := by
  rw [List.map_map, List.map_map]
  rfl

theorem bodyOf_frontRows_keptFront (as ds : List Line) :
    bodyOf (frontRows (keptFront as ds)) = if bodyOf ds ≠ [] then bodyOf ds else bodyOf as := by
  rw [keptFront]
  split
  · exact bodyOf_rows_bodyOf ds
  · split
    · exact bodyOf_rows_bodyOf as
    · next h => exact (not_not.1 h).symm

end Outline

open Outline

namespace Normalised

variable {a d t : Text}

/-- The lines before the first title, where there are any, start as the docstring does. -/
theorem isFront_divide (h : Normalised t) (hne : (divide (lines t)).1 ≠ []) :
    IsFront (divide (lines t)).1 := by
  have happ := divide_append (lines t)
  refine ⟨fun l hl => h.tidy l ?_, (sound_divide _).1, ?_⟩
  · rw [← happ]
    exact List.mem_append_left _ hl
  · obtain ⟨l, ls, hlines, hb, hl, -⟩ := h.exists_lines_eq_cons
    obtain ⟨r, rs, hrs⟩ := List.exists_cons_of_ne_nil hne
    rw [hrs, hlines, List.cons_append, List.cons.injEq] at happ
    exact ⟨r, rs, hrs, happ.1 ▸ hb, happ.1 ▸ hl⟩

theorem isFront_of_mem_keptFront (ha : Normalised a) (hd : Normalised d) {ls : List Line}
    (hls : ls ∈ keptFront (divide (lines a)).1 (divide (lines d)).1) : IsFront ls := by
  have hne : ∀ {ls : List Line}, bodyOf ls ≠ [] → ls ≠ [] := fun h he => h (he ▸ rfl)
  rw [keptFront] at hls
  split at hls
  · next h => exact Option.some.inj hls ▸ hd.isFront_divide (hne h)
  · split at hls
    · next h => exact Option.some.inj hls ▸ ha.isFront_divide (hne h)
    · simp at hls

/-- A docstring without titles is front matter, and its rows after the first share no margin. -/
theorem margin_bodyOf (h : Normalised t) (hnil : (divide (lines t)).2 = []) :
    bodyOf (divide (lines t)).1 ≠ [] ∧
      margin (rows (bodyOf (divide (lines t)).1)).tail = 0 := by
  have hall : (divide (lines t)).1 = lines t := by
    have happ := divide_append (lines t)
    rwa [hnil, List.flatMap_nil, List.append_nil] at happ
  obtain ⟨l, ls, hlines, hb, -, hm⟩ := h.exists_lines_eq_cons
  have htidy := h.tidy
  rw [hlines] at htidy
  have hrows := rows_bodyOf_cons htidy hb
  rw [hall, hlines, hrows, List.tail_cons, margin_dropEndWhile]
  refine ⟨fun he => ?_, hm⟩
  -- an empty text has one empty row
  rw [he] at hrows
  obtain rfl : [] = l := (List.cons.inj hrows).1
  simp at hb

end Normalised

namespace Merge

variable {a d : Text}

/-- **What two normalised docstrings merge to shows the front matter that is kept and then the
chapters of both**, the descendant's over the ancestor's. -/
theorem docs_rest_shows (ha : Normalised a) (hd : Normalised d) (policy : Policy)
    (params : Option (List Text)) :
    ∃ m, docs .rest policy params (some a) (some d) = some m ∧
      (Outline.parse (some m)).Shows
        (some (bodyOf (frontRows (keptFront (divide (lines a)).1 (divide (lines d)).1))))
        (((Outline.titled (divide (lines a)).2).overlay
          (Outline.titled (divide (lines d)).2)).map Chapter.body) := by
  have hneata := neat_divide ha.tidy
  have hneatd := neat_divide hd.tidy
  have hneat : ∀ e ∈ ((Outline.titled (divide (lines a)).2).overlay
      (Outline.titled (divide (lines d)).2)).entries,
      ∃ b : Outline.Block, b.Neat ∧ b.entry = e := by
    intro e he
    obtain ⟨b, hb, rfl⟩ := exists_entry_of_mem_overlay he
    rcases List.mem_append.1 hb with hb | hb
    · exact ⟨b, hneata b hb, rfl⟩
    · exact ⟨b, hneatd b hb, rfl⟩
  obtain ⟨bs, hbs, hentries⟩ := exists_map_entry hneat
  have hout := entries_outlines (fun b hb => (hneata b hb).trim_title_ne_nil)
    (fun b hb => (hneatd b hb).trim_title_ne_nil)
  rw [← hentries] at hout
  have hmargin : bs = [] → ∃ ls ∈ keptFront (divide (lines a)).1 (divide (lines d)).1,
      margin (rows (bodyOf ls)).tail = 0 := by
    intro hnil
    have hblocks : (divide (lines d)).2 = [] := eq_nil_of_overlay (by rw [← hentries, hnil]; rfl)
    obtain ⟨hne, hm⟩ := hd.margin_bodyOf hblocks
    exact ⟨_, by rw [keptFront, if_pos hne]; rfl, hm⟩
  obtain ⟨hvisible, cs, hview, hparse⟩ := parse_render hbs hout
    (fun _ hls => ha.isFront_of_mem_keptFront hd hls) hmargin
  refine ⟨(outlines (ofLines (lines a)) (ofLines (lines d))).render, ?_, ?_, fun e he => ?_⟩
  · rw [docs_of_visible ha.visible hd.visible, visible, titled, ha.parse_eq, hd.parse_eq]
    refine if_neg fun he => ?_
    rw [List.isEmpty_iff] at he
    rw [he] at hvisible
    simp at hvisible
  · have htexts : ((cs.map Block.entry).map fun e => (e.1, e.2.body)) =
        (bs.map Block.entry).map fun e => (e.1, e.2.body) := by
      rw [map_body_entry, map_body_entry, hview]
    rw [OrderedMap.entries_map, hparse, List.map_cons, htexts, hentries]
    rfl
  · obtain ⟨c, hc, rfl⟩ := List.mem_map.1 he
    obtain ⟨b, hb, rfl⟩ := hneat c hc
    exact hb.trim_title_ne_nil

/-- **Merged outlines**: the titles of the ancestor and then those that only the descendant has,
each with what the descendant has under it, or else what the ancestor has. The front matter is the
descendant's where that has a body. -/
theorem parse_docs_rest (ha : Normalised a) (hd : Normalised d) (policy : Policy)
    (params : Option (List Text)) :
    ∃ m, docs .rest policy params (some a) (some d) = some m ∧
      (Outline.parse (some m)).headings = (Outline.parse (some a)).headings ++
        (Outline.parse (some d)).headings.filter (· ∉ (Outline.parse (some a)).headings) ∧
      (∀ title ∈ (Outline.parse (some m)).headings, (Outline.parse (some m)).text? title =
        if title ∈ (Outline.parse (some d)).headings then (Outline.parse (some d)).text? title
        else (Outline.parse (some a)).text? title) ∧
      (Outline.parse (some m)).text? [] =
        if (Outline.parse (some d)).front?.any Chapter.hasBody then
          (Outline.parse (some d)).text? []
        else (Outline.parse (some a)).text? [] := by
  obtain ⟨m, hm, hshows⟩ := docs_rest_shows ha hd policy params
  have hshowsa := shows_ofLines ha.tidy
  have hshowsd := shows_ofLines hd.tidy
  rw [← ha.parse_eq] at hshowsa
  rw [← hd.parse_eq] at hshowsd
  refine ⟨m, hm, ?_, fun title htitle => ?_, ?_⟩
  · rw [hshows.headings_eq, hshowsa.headings_eq, hshowsd.headings_eq]
    simp only [OrderedMap.keys_map, OrderedMap.keys_overlay]
    congr 1
    exact List.filter_congr fun k _ => decide_eq_decide.2 Iff.rfl
  · have hne : title ≠ [] := by
      rw [headings, List.mem_filter] at htitle
      simpa using htitle.2
    rw [hshows.text?_eq, hshowsa.text?_eq, hshowsd.text?_eq, if_neg hne, if_neg hne, if_neg hne]
    simp only [hshowsd.headings_eq, OrderedMap.mem_keys_iff, OrderedMap.get?_map,
      OrderedMap.get?_overlay]
    cases (Outline.titled (divide (lines d)).2).get? title <;> rfl
  · rw [hshows.text?_eq, hshowsa.text?_eq, hshowsd.text?_eq, hshowsd.any_hasBody,
      bodyOf_frontRows_keptFront]
    simp only [if_true]
    by_cases hb : bodyOf (divide (lines d)).1 = []
    · simp [hb]
    · simp [hb]

/-- An indented title with an overline stands in front of the descendant, which has no front matter
and shares a title with the ancestor. -/
theorem parse_docs_rest_overlined :
    let a := "Sums.\n\nUsage\n=====\nold\n\nNotes\n-----\nslow".toList
    let d := "=======\n Limits\n=======\nnone\n\nUsage\n~~~~~\nnew".toList
    Normalised a ∧ Normalised d ∧ ∃ m, docs .rest .replace none (some a) (some d) = some m ∧
      (Outline.parse (some m)).headings = ["Usage".toList, "Notes".toList, "Limits".toList] ∧
      (Outline.parse (some m)).text? [] = some "Sums.".toList := by
  intro a d
  have ha : Normalised a := by decide +kernel
  have hd : Normalised d := by decide +kernel
  obtain ⟨m, hm, htitles, -, hfront⟩ := parse_docs_rest ha hd .replace none
  refine ⟨ha, hd, m, hm, ?_, ?_⟩
  · rw [htitles]
    decide +kernel
  · rw [hfront]
    decide +kernel

end Merge

end Docstring
