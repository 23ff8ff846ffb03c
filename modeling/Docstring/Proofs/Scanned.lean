import Docstring.Proofs.Outlines

/-!
# Outlines line by line

A reader goes through a docstring line by line. It keeps the lines since the last title in a buffer,
and when a line turns out to be the underline of a title, it goes back in the buffer by one line or
two, to where that title starts. The buffer is always long enough for that (`Reader.InStep.split?`),
and the reader ends with the outline of all lines (`scan?_eq`).

So where no title comes twice the sections account for every line of a docstring, in order, save for
blank lines at the end of a body (`parse_accounts`).
-/

namespace Docstring

open Text

namespace Outline

/-! ### A reader and its buffer -/

/-- What a reader has in hand that goes through the lines of a docstring one by one. -/
structure Reader where
  /-- The chapters that are closed. -/
  outline : Outline
  /-- The title of the chapter that is open, as it is worded. -/
  title : Line
  /-- The lines of that title. -/
  markup : Text
  /-- The lines read since. -/
  buffer : List Line
  /-- The line before, empty where it was the underline of a title. -/
  prev : Line

namespace Reader

/-- Nothing is read yet, and the front matter is open. -/
def start : Reader := ⟨blank, [], [], [], []⟩

/-- The index that stands `n` places before the end of a list, none where that is before its
start. -/
def back? (ls : List Line) (n : Nat) : Option Nat :=
  if n ≤ ls.length then some (ls.length - n) else none

/-- Where in the buffer the title starts whose underline is read: two lines back where an overline
stands there, else one. -/
def split? (r : Reader) (u : Line) : Option Nat :=
  if 2 ≤ r.buffer.length then
    (back? r.buffer 2).bind fun i => r.buffer[i]?.bind fun o =>
      back? r.buffer (if isOverline o u then 2 else 1)
  else back? r.buffer 1

/-- The chapters that are closed and the one that is open, over the given lines. -/
def close (r : Reader) (body : List Line) : Outline :=
  r.outline.insert (trim r.title) ⟨r.markup, some (bodyOf body)⟩

/-- The next line read. Where it underlines the line before, that line opens a chapter. -/
def step? (r : Reader) (u : Line) : Option Reader :=
  if isTitle r.prev u then
    (r.split? u).map fun i =>
      ⟨r.close (r.buffer.take i), r.prev, joinLines (r.buffer.drop i ++ [u]), [], []⟩
  else some { r with buffer := r.buffer ++ [u], prev := u }

/-- The outline where the lines of the open chapter and those below are divided. -/
def finish (r : Reader) (parts : List Line × List Block) : Outline :=
  parts.2.foldl (fun o b => o.insert (trim b.title) ⟨joinLines b.markup, some (bodyOf b.body)⟩)
    (r.close parts.1)

/-- A buffer without a title, of which the line before is the last. -/
structure InStep (r : Reader) : Prop where
  /-- There is no title in the buffer. -/
  free : TitleFree r.buffer
  /-- The line before is the last of the buffer. -/
  prev : r.prev = r.buffer.getLast?.getD []

variable {r : Reader} {u : Line}

theorem InStep.of_nil (hbuffer : r.buffer = []) (hprev : r.prev = []) : r.InStep :=
  ⟨hbuffer ▸ trivial, by rw [hprev, hbuffer]; rfl⟩

/-- A line that underlines nothing goes to the buffer. -/
theorem InStep.push (h : r.InStep) (hu : isTitle r.prev u = false) :
    InStep { r with buffer := r.buffer ++ [u], prev := u } := by
  refine ⟨h.free.concat fun l hl => ?_, by simp⟩
  rw [h.prev, hl] at hu
  exact hu

/-- A line that is underlined is in the buffer. -/
theorem InStep.exists_buffer (h : r.InStep) (hu : isTitle r.prev u = true) :
    ∃ above, r.buffer = above ++ [r.prev] := by
  have hprev := h.prev
  cases hlast : r.buffer.getLast? with
  | none =>
    rw [hlast, Option.getD_none] at hprev
    rw [hprev, isTitle_nil_left] at hu
    simp at hu
  | some l =>
    rw [hlast, Option.getD_some] at hprev
    subst hprev
    exact List.getLast?_eq_some_iff.1 hlast

/-- **At an underline the buffer is long enough**: it splits into the lines above the title and
those of the title. -/
theorem InStep.split? (h : r.InStep) (hu : isTitle r.prev u = true) :
    ∃ front above, r.buffer = front ++ above ∧ IsMarkup r.prev (above ++ [u]) ∧
      Clear front (above ++ [u]) ∧ r.split? u = some front.length := by
  obtain ⟨xs, hxs⟩ := h.exists_buffer hu
  have hfree := h.free
  rw [hxs] at hfree
  rcases List.eq_nil_or_concat' xs with rfl | ⟨front, o, rfl⟩
  · refine ⟨[], [r.prev], hxs, .underlined hu, clear_pair _ _, ?_⟩
    simp [Reader.split?, back?, hxs]
  · have hlen : r.buffer.length = front.length + 2 := by simp [hxs]
    have hget : r.buffer[front.length]? = some o := by simp [hxs]
    have hsplit : r.split? u = back? r.buffer (if isOverline o u then 2 else 1) := by
      rw [Reader.split?, if_pos (by omega), back?, if_pos (by omega), hlen, Option.bind_some,
        Nat.add_sub_cancel, hget, Option.bind_some]
    cases hover : isOverline o u with
    | true =>
      have hfree' : TitleFree (front ++ [o, r.prev]) := by simpa using hfree
      have ho : isTitle o r.prev = false := hfree'.of_append_right.1 r.prev rfl
      refine ⟨front, [o, r.prev], by simp [hxs], .overlined ho hu hover, ⟨?_, by simp⟩, ?_⟩
      · simpa using hfree'
      · simp [hsplit, hover, back?, hlen]
    | false =>
      refine ⟨front ++ [o], [r.prev], hxs, .underlined hu, ⟨by simpa using hfree, ?_⟩, ?_⟩
      · rintro l v hlv x hx
        obtain ⟨rfl, rfl⟩ : r.prev = l ∧ u = v := by simpa using hlv
        obtain rfl : o = x := by simpa using hx
        exact hover
      · simp [hsplit, hover, back?, hlen]

/-- **Reading on ends as dividing what is in the buffer and what is still to be read.** -/
theorem InStep.foldlM (h : r.InStep) (ls : List Line) :
    (ls.foldlM step? r).map (fun r => r.close r.buffer) =
      some (r.finish (divide (r.buffer ++ ls))) := by
  induction ls generalizing r with
  | nil =>
    rw [List.append_nil, divide_of_titleFree h.free]
    rfl
  | cons u ls ih =>
    rw [List.foldlM_cons]
    cases hu : isTitle r.prev u with
    | false =>
      have hstep : r.step? u = some { r with buffer := r.buffer ++ [u], prev := u } := by
        simp [step?, hu]
      rw [hstep, Option.bind_eq_bind, Option.bind_some, ih (h.push hu), List.append_assoc]
      rfl
    | true =>
      obtain ⟨front, above, hbuffer, hmarkup, hclear, hsplit⟩ := h.split? hu
      have hstep : r.step? u = some ⟨r.close front, r.prev, joinLines (above ++ [u]), [], []⟩ := by
        simp [step?, hu, hsplit, hbuffer]
      have hdivide : divide (r.buffer ++ u :: ls) =
          (front, ⟨r.prev, above ++ [u], (divide ls).1⟩ :: (divide ls).2) := by
        rw [hbuffer, ← divide_append_markup hclear hmarkup ls]
        simp
      rw [hstep, Option.bind_eq_bind, Option.bind_some, ih (.of_nil rfl rfl), hdivide]
      rfl

end Reader

/-- The outline of lines as a reader has it in the end, none where it would look before the start of
its buffer. -/
def scan? (ls : List Line) : Option Outline :=
  (ls.foldlM Reader.step? Reader.start).map fun r => r.close r.buffer

/-- **A reader never looks before the start of its buffer, and has the outline of the lines.** -/
theorem scan?_eq (ls : List Line) : scan? ls = some (ofLines ls) :=
  (Reader.InStep.of_nil rfl rfl).foldlM ls

/-- The outline of a docstring as a reader has it, who opens only what shows something. -/
def scanDoc? (doc : Text) : Option Outline :=
  if isBlank doc then some blank else scan? (lines (clean doc))

theorem scanDoc?_eq (doc : Text) : scanDoc? doc = some (parse (some doc)) := by
  rw [scanDoc?]
  cases hb : isBlank doc with
  | true =>
    have hdoc : isBlankDoc (some doc) = true := hb
    rw [if_pos rfl, parse_of_isBlankDoc hdoc]
  | false => rw [if_neg Bool.false_ne_true, scan?_eq, parse_eq_ofLines hb]

/-! ### The lines of each section -/

/-- The lines of a title as they are written: its wording over a run of one punctuation character
that is at least as long, and perhaps with the same run above. -/
def Adorned (l : Line) (ms : List Line) : Prop :=
  ∃ c n, isPunctuation c = true ∧ l.length ≤ n ∧
    (ms = [l, List.replicate n c] ∨ ms = [List.replicate n c, l, List.replicate n c])

/-- An adornment is a run of its first character. -/
theorem exists_replicate_of_isAdornment {u : Line} (h : isAdornment u = true) :
    ∃ c, isPunctuation c = true ∧ u.head? = some c ∧ u = List.replicate u.length c := by
  cases u with
  | nil => simp [isAdornment] at h
  | cons c u =>
    rw [isAdornment, Bool.and_eq_true, List.all_eq_true] at h
    refine ⟨c, h.1, rfl, List.eq_replicate_iff.2 ⟨rfl, fun x hx => ?_⟩⟩
    rcases List.mem_cons.1 hx with rfl | hx
    · rfl
    · simpa using h.2 x hx

/-- An overline is its underline again. -/
theorem eq_of_isOverline {o u : Line} (h : isOverline o u = true) (hu : isAdornment u = true) :
    o = u := by
  simp only [isOverline, Bool.and_eq_true, decide_eq_true_eq] at h
  obtain ⟨⟨ho, hlen⟩, hhead⟩ := h
  obtain ⟨c, -, hoc, ho⟩ := exists_replicate_of_isAdornment ho
  obtain ⟨e, -, hue, hu⟩ := exists_replicate_of_isAdornment hu
  obtain rfl : c = e := Option.some.inj ((hoc.symm.trans hhead).trans hue)
  rw [ho, hu, hlen]

theorem IsMarkup.adorned {l : Line} {ms : List Line} (h : IsMarkup l ms) : Adorned l ms := by
  have hunder : ∀ {u : Line}, isTitle l u = true → isAdornment u = true ∧ l.length ≤ u.length := by
    intro u ht
    simp only [isTitle, Bool.and_eq_true, decide_eq_true_eq] at ht
    exact ⟨ht.1.1, ht.2⟩
  cases h with
  | @underlined _ u ht =>
    obtain ⟨hu, hlen⟩ := hunder ht
    obtain ⟨c, hc, -, hrun⟩ := exists_replicate_of_isAdornment hu
    exact ⟨c, u.length, hc, hlen, .inl (by rw [← hrun])⟩
  | @overlined o _ u _ ht hover =>
    obtain ⟨hu, hlen⟩ := hunder ht
    obtain ⟨c, hc, -, hrun⟩ := exists_replicate_of_isAdornment hu
    obtain rfl := eq_of_isOverline hover hu
    exact ⟨c, o.length, hc, hlen, .inr (by rw [← hrun])⟩

theorem IsMarkup.getLast?_ne_nil {l : Line} {ms : List Line} (h : IsMarkup l ms) :
    ms.getLast? ≠ some [] := by
  cases h with
  | @underlined l u ht =>
    intro he
    obtain rfl : u = [] := by simpa using he
    simp [isTitle_nil_right] at ht
  | @overlined o l u _ ht _ =>
    intro he
    obtain rfl : u = [] := by simpa using he
    simp [isTitle_nil_right] at ht

/-- Front matter as a block without a title. -/
def Block.front (ls : List Line) : Block := ⟨[], [], ls⟩

/-- How many blank lines a block ends with. -/
def Block.blanks (b : Block) : Nat := (b.body.rtakeWhile isBlank).length

/-- An entry holds the lines of its block, save for the blank ones at the end of the body. -/
theorem Block.lines_entry {b : Block} (hmarkup : ∀ l ∈ b.markup, Tidy l)
    (hlast : b.markup.getLast? ≠ some []) (hbody : ∀ l ∈ b.body, Tidy l) :
    lines b.entry.2.markup ++ lines (b.entry.2.body.getD []) ++ List.replicate b.blanks [] =
      b.markup ++ b.body := by
  have hblank : b.body.rtakeWhile isBlank = List.replicate b.blanks [] := by
    refine List.eq_replicate_iff.2 ⟨rfl, fun l hl => ?_⟩
    exact (hbody l ((List.rtakeWhile_suffix _ _).mem hl)).eq_nil (List.mem_rtakeWhile_imp hl)
  have hread : lines (bodyOf b.body) = dropEndWhile isBlank b.body := by
    rw [bodyOf, trimEnd_joinLines hbody]
    refine lines_joinLines_of_getLast? (fun l hl => hbody l ((dropEndWhile_prefix_self _ _).mem hl))
      fun he => ?_
    simpa using getLast?_dropEndWhile he
  have hentry : b.entry = (trim b.title, ⟨joinLines b.markup, some (bodyOf b.body)⟩) := rfl
  rw [hentry, Option.getD_some, lines_joinLines_of_getLast? hmarkup hlast, hread, ← hblank,
    List.append_assoc]
  exact congrArg (b.markup ++ ·) List.rdropWhile_append_rtakeWhile

/-- **Blocks under different titles account for their lines**, save for blank ones at the end. -/
theorem exists_flatMap_entries {bs : List Block} (hn : (bs.map fun b => trim b.title).Nodup)
    (h : ∀ b ∈ bs, (∀ l ∈ b.markup, Tidy l) ∧ b.markup.getLast? ≠ some [] ∧
      ∀ l ∈ b.body, Tidy l) :
    ∃ blanks : Text → Nat, bs.flatMap (fun b => b.markup ++ b.body) =
      (bs.map Block.entry).flatMap fun e =>
        lines e.2.markup ++ lines (e.2.body.getD []) ++ List.replicate (blanks e.1) [] := by
  have hkeys : ((bs.map fun b => (trim b.title, b.blanks)).map Prod.fst).Nodup := by
    rw [List.map_map]
    exact hn
  let counts : OrderedMap Text Nat := ⟨bs.map fun b => (trim b.title, b.blanks), hkeys⟩
  refine ⟨fun k => (counts.get? k).getD 0, ?_⟩
  rw [List.flatMap_map]
  refine List.flatMap_congr fun b hb => ?_
  have hcount : counts.get? b.entry.1 = some b.blanks :=
    OrderedMap.lookup_eq_of_mem hkeys (List.mem_map_of_mem hb)
  obtain ⟨hmarkup, hlast, hbody⟩ := h b hb
  simp only [hcount, Option.getD_some, Block.lines_entry hmarkup hlast hbody]

/-- Where lines are tidy, every chapter under a title is the entry of a block of them. -/
theorem exists_block_of_mem {ls : List Line} (h : ∀ l ∈ ls, Tidy l) {e : Text × Chapter}
    (he : e ∈ (ofLines ls).chapters.entries) (hne : e.1 ≠ []) :
    ∃ b ∈ (divide ls).2, b.Neat ∧ e = b.entry := by
  have hneat := neat_divide h
  rw [entries_ofLines fun b hb => (hneat b hb).trim_title_ne_nil] at he
  rcases List.mem_cons.1 he with rfl | he
  · exact absurd rfl hne
  · obtain ⟨b, hb, rfl⟩ := List.mem_map.1 (OrderedMap.mem_ofList he)
    exact ⟨b, hb, hneat b hb, rfl⟩

/-- **Where no title comes twice, the sections of tidy lines account for every line.** -/
theorem accounts_ofLines {ls : List Line} (h : ∀ l ∈ ls, Tidy l)
    (hn : ((divide ls).2.map fun b => trim b.title).Nodup) :
    (ofLines ls).chapters.keys = [] :: (divide ls).2.map (fun b => trim b.title) ∧
      ∃ blanks : Text → Nat, ls = (ofLines ls).chapters.entries.flatMap fun e =>
        lines e.2.markup ++ lines (e.2.body.getD []) ++ List.replicate (blanks e.1) [] := by
  have hneat := neat_divide h
  have hkeys : (((divide ls).2.map Block.entry).map Prod.fst).Nodup := by
    rw [List.map_map]
    exact hn
  have hentries : (ofLines ls).chapters.entries =
      (Block.front (divide ls).1 :: (divide ls).2).map Block.entry := by
    rw [entries_ofLines fun b hb => (hneat b hb).trim_title_ne_nil, titled,
      OrderedMap.entries_ofList_of_nodup hkeys]
    rfl
  refine ⟨by rw [OrderedMap.keys, hentries, List.map_map]; rfl, ?_⟩
  -- the front matter is a block as the others are, under the title that none of them has
  have hfront : ((Block.front (divide ls).1 :: (divide ls).2).map fun b => trim b.title).Nodup := by
    rw [List.map_cons, List.nodup_cons]
    refine ⟨fun hmem => ?_, hn⟩
    obtain ⟨b, hb, htrim⟩ := List.mem_map.1 hmem
    exact (hneat b hb).trim_title_ne_nil htrim
  obtain ⟨blanks, hblanks⟩ := exists_flatMap_entries hfront (by
    intro b hb
    rcases List.mem_cons.1 hb with rfl | hb
    · refine ⟨by simp [Block.front], by simp [Block.front], fun l hl => h l ?_⟩
      rw [← divide_append ls]
      exact List.mem_append_left _ hl
    · exact ⟨(hneat b hb).tidy_markup, (hneat b hb).markup.getLast?_ne_nil,
        (hneat b hb).tidy_body⟩)
  refine ⟨blanks, ?_⟩
  rw [hentries, ← hblanks, List.flatMap_cons]
  exact (divide_append ls).symm

/-- **A docstring is read line by line, and what is read accounts for every line.** Where no line
ends with white space, the reader never looks before the start of its buffer. Where moreover no
title comes twice, the sections list their titles in order, and the lines of each title and of its
body are those of the docstring, save for empty ones below a body. Every section is known by the
wording of its title, which an adornment stands under and perhaps over. -/
theorem parse_accounts (doc : Text) (h : ∀ l ∈ lines (clean doc), trimEnd l = l) :
    scanDoc? doc = some (parse (some doc)) ∧
    (((titles (some doc)).map trim).Nodup →
      (parse (some doc)).chapters.keys = [] :: (titles (some doc)).map trim ∧
      ∃ blanks : Text → Nat,
        lines (clean doc) = (parse (some doc)).chapters.entries.flatMap fun e =>
          lines e.2.markup ++ lines (e.2.body.getD []) ++ List.replicate (blanks e.1) []) ∧
    ∀ e ∈ (parse (some doc)).chapters.entries, e.1 ≠ [] →
      ∃ l ∈ titles (some doc), e.1 = trim l ∧ Adorned l (lines e.2.markup) := by
  refine ⟨scanDoc?_eq doc, ?_⟩
  cases hb : isBlank doc with
  | true =>
    have hdoc : isBlankDoc (some doc) = true := hb
    rw [parse_of_isBlankDoc hdoc, titles_of_isBlankDoc hdoc, clean_of_isBlank hb]
    refine ⟨fun _ => ⟨rfl, fun _ => 0, rfl⟩, fun e he hne => ?_⟩
    obtain rfl := List.mem_singleton.1 he
    exact absurd rfl hne
  | false =>
    have htidy := tidy_lines_clean h
    rw [parse_eq_ofLines hb, titles_eq hb, List.map_map]
    refine ⟨fun hn => accounts_ofLines htidy hn, fun e he hne => ?_⟩
    obtain ⟨b, hb, hneat, rfl⟩ := exists_block_of_mem htidy he hne
    refine ⟨b.title, List.mem_map_of_mem hb, rfl, ?_⟩
    have hlines : lines b.entry.2.markup = b.markup :=
      lines_joinLines_of_getLast? hneat.tidy_markup hneat.markup.getLast?_ne_nil
    rw [hlines]
    exact hneat.markup.adorned

/-- Titles with and without an overline, one of them an adornment itself; the last is indented, and
its key is not. -/
theorem parse_accounts_overlined :
    let doc := "Sum.\n\n\n=====\n Use\n=====\nf(x)\n\n***\n---\n  See\n-----\ng".toList
    scanDoc? doc = some (parse (some doc)) ∧
    (parse (some doc)).chapters.keys = [[], "Use".toList, "***".toList, "See".toList] ∧
    ∃ blanks : Text → Nat,
      lines (clean doc) = (parse (some doc)).chapters.entries.flatMap fun e =>
        lines e.2.markup ++ lines (e.2.body.getD []) ++ List.replicate (blanks e.1) [] := by
  intro doc
  have hends : ∀ l ∈ lines (clean doc), trimEnd l = l := by decide +kernel
  have htitles : (titles (some doc)).map trim = ["Use".toList, "***".toList, "See".toList] := by
    decide +kernel
  obtain ⟨hscan, haccounts, -⟩ := parse_accounts doc hends
  obtain ⟨hkeys, hlines⟩ := haccounts (by rw [htitles]; decide)
  exact ⟨hscan, by rw [hkeys, htitles], hlines⟩

end Outline

end Docstring
