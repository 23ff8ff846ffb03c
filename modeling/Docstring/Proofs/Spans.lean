import Docstring.Proofs.Bytes
import Docstring.Proofs.ReadBack

/-!
# Items by their places

The items of a section can be told by places alone. A name stands where stars, if any, and then word
characters begin. The first name of the section starts an item wherever it stands, and so does every
later name at the start of a line (`mem_spans_iff`). Cut at these places, between the newline in
front of one name and the end of another, the section falls into its items (`cut?_spans`): no place
is past the end of the text or inside a character, and no end comes before its start.

The map of a section lists the names where they first came, with what stood behind them last
(`parse_spans`).
-/

namespace Docstring

open Text

namespace Text

/-! ### Lines under another -/

/-- Lines as they stand under another one, each behind a line feed. -/
def under (ls : List Line) : Text := ls.flatMap fun l => '\n' :: l

@[simp] theorem under_nil : under [] = [] := rfl

@[simp] theorem under_cons (l : Line) (ls : List Line) :
    under (l :: ls) = '\n' :: (l ++ under ls) :=
  List.flatMap_cons

@[simp] theorem under_append (ls ms : List Line) : under (ls ++ ms) = under ls ++ under ms :=
  List.flatMap_append

theorem joinLines_cons_eq (l : Line) (ls : List Line) : joinLines (l :: ls) = l ++ under ls := by
  induction ls generalizing l with
  | nil => simp
  | cons m ls ih => rw [joinLines_cons_cons, ih, under_cons]

/-- A text that is empty or starts with a line feed. -/
def Breaks (w : Text) : Prop := ∀ c ∈ w.head?, c = '\n'

theorem breaks_under (ls : List Line) : Breaks (under ls) := by
  cases ls <;> simp [Breaks]

theorem Breaks.under_append {w : Text} (h : Breaks w) (ls : List Line) :
    Breaks (under ls ++ w) := by
  cases ls with
  | nil => exact h
  | cons => simp [Breaks]

end Text

namespace Item

variable {t u w l front name name' tail : Text} {o : Nat} {b : Bool} {s : Nat × Nat}

/-! ### Places of names -/

/-- A name stands behind a part of a text and takes all of its stars and word characters. -/
def NamedAt (t front name : Text) : Prop :=
  ∃ rest, t = front ++ (name ++ rest) ∧ IsName name ∧ ∀ c ∈ rest.head?, isWord c = false

theorem namedAt_iff : NamedAt t front name ↔ ∃ tail, t = front ++ (name ++ tail) ∧
    start? (name ++ tail) = some (name, tail) := by
  constructor
  · rintro ⟨rest, ht, hname, hrest⟩
    exact ⟨rest, ht, start?_append hname hrest⟩
  · rintro ⟨tail, ht, hs⟩
    obtain ⟨-, hname, htail⟩ := start?_eq_some_iff.1 hs
    exact ⟨tail, ht, hname, htail⟩

theorem namedAt_nil_iff : NamedAt t [] name ↔ ∃ tail, start? t = some (name, tail) := by
  rw [namedAt_iff]
  constructor
  · rintro ⟨tail, rfl, hs⟩
    exact ⟨tail, hs⟩
  · rintro ⟨tail, hs⟩
    have happ := append_eq_of_start? hs
    exact ⟨tail, happ.symm, by rwa [happ]⟩

theorem not_namedAt_nil_of_none (hs : start? t = none) : ¬ NamedAt t [] name := by
  intro hn
  obtain ⟨tail, hs'⟩ := namedAt_nil_iff.1 hn
  rw [hs] at hs'
  simp at hs'

@[simp] theorem namedAt_cons_cons_iff {c d : Char} :
    NamedAt (c :: t) (d :: front) name ↔ c = d ∧ NamedAt t front name := by
  constructor
  · rintro ⟨rest, ht, hname⟩
    obtain ⟨rfl, rfl⟩ := List.cons.inj ht
    exact ⟨rfl, rest, rfl, hname⟩
  · rintro ⟨rfl, rest, rfl, hname⟩
    exact ⟨rest, rfl, hname⟩

theorem not_namedAt_nil : ¬ NamedAt [] front name := by
  rintro ⟨rest, ht, hname, -⟩
  obtain rfl : name = [] := by
    simpa using (List.append_eq_nil_iff.1 (List.append_eq_nil_iff.1 ht.symm).2).1
  exact hname.1 rfl

/-- At a place there is one name. -/
theorem NamedAt.unique (h : NamedAt t front name) (h' : NamedAt t front name') : name = name' := by
  obtain ⟨tail, ht, hs⟩ := namedAt_iff.1 h
  obtain ⟨tail', ht', hs'⟩ := namedAt_iff.1 h'
  have heq : name ++ tail = name' ++ tail' := List.append_cancel_left (ht.symm.trans ht')
  rw [heq, hs'] at hs
  exact (Prod.mk.inj (Option.some.inj hs)).1.symm

/-- Two places in a text with as many bytes in front are the same. -/
theorem NamedAt.front_eq {front' : Text} (h : NamedAt t front name) (h' : NamedAt t front' name')
    (hs : size front = size front') : front = front' := by
  obtain ⟨_, ht, -⟩ := h
  obtain ⟨_, ht', -⟩ := h'
  exact (eq_of_append_of_size (ht.symm.trans ht') hs).1

/-! ### Searching for names -/

/-- The place of the first name in a text, by the offsets at which it starts and ends. -/
def firstSpan? (offset : Nat) : Text → Option (Nat × Nat)
  | [] => none
  | c :: t =>
    match start? (c :: t) with
    | some (name, _) => some (offset, offset + size name)
    | none => firstSpan? (offset + c.utf8Size) t

/-- The places of the names at the starts of lines. -/
def rowSpans (atStart : Bool) (offset : Nat) : Text → List (Nat × Nat)
  | [] => []
  | c :: t =>
    let below := rowSpans (c = '\n') (offset + c.utf8Size) t
    match start? (c :: t) with
    | some (name, _) => if atStart then (offset, offset + size name) :: below else below
    | none => below

/-- The places at which the items of a text start: that of the first name, and those of all later
ones at the start of a line. -/
def spans (t : Text) : List (Nat × Nat) :=
  match firstSpan? 0 t with
  | none => []
  | some first => first :: (rowSpans true 0 t).filter fun s => first.1 < s.1

/-- A place at which an item starts. -/
def StartsAt (t : Text) (s : Nat × Nat) : Prop :=
  ∃ front name, NamedAt t front name ∧ s = (size front, size front + size name) ∧
    (front.getLast? = some '\n' ∨
      ∀ front' name', NamedAt t front' name' → size front ≤ size front')

theorem not_namedAt_of_firstSpan? (h : firstSpan? o t = none) : ¬ NamedAt t front name := by
  induction t generalizing o front with
  | nil => exact not_namedAt_nil
  | cons c t ih =>
    rw [firstSpan?] at h
    cases hs : start? (c :: t) with
    | some p => simp [hs] at h
    | none =>
      rw [hs] at h
      intro hn
      cases front with
      | nil => exact not_namedAt_nil_of_none hs hn
      | cons d front => exact ih h (namedAt_cons_cons_iff.1 hn).2

/-- The first name has no other in front of it. -/
theorem exists_of_firstSpan? (h : firstSpan? o t = some s) :
    ∃ front name, NamedAt t front name ∧ s = (o + size front, o + size front + size name) ∧
      ∀ front' name', NamedAt t front' name' → size front ≤ size front' := by
  induction t generalizing o with
  | nil => simp [firstSpan?] at h
  | cons c t ih =>
    rw [firstSpan?] at h
    cases hs : start? (c :: t) with
    | some p =>
      rw [hs] at h
      refine ⟨[], p.1, namedAt_nil_iff.2 ⟨p.2, hs⟩, ?_, fun _ _ _ => Nat.zero_le _⟩
      exact (Option.some.inj h).symm
    | none =>
      rw [hs] at h
      obtain ⟨front, name, hn, rfl, hfirst⟩ := ih h
      refine ⟨c :: front, name, namedAt_cons_cons_iff.2 ⟨rfl, hn⟩, ?_, fun front' name' hn' => ?_⟩
      · simp only [size_cons, Nat.add_assoc]
      · cases front' with
        | nil => exact absurd hn' (not_namedAt_nil_of_none hs)
        | cons d front' =>
          obtain ⟨rfl, hbelow⟩ := namedAt_cons_cons_iff.1 hn'
          rw [size_cons, size_cons]
          exact Nat.add_le_add_left (hfirst front' name' hbelow) _

/-- The place behind a part of a text is the start of a line, which the start of the text is where
`b` says so. -/
def AtStart (b : Bool) (front : Text) : Prop := front = [] ∧ b = true ∨ front.getLast? = some '\n'

theorem atStart_cons_iff {c : Char} : AtStart b (c :: front) ↔ AtStart (c = '\n') front := by
  cases front <;> simp [AtStart]

theorem mem_rowSpans_iff : s ∈ rowSpans b o t ↔ ∃ front name, NamedAt t front name ∧
    s = (o + size front, o + size front + size name) ∧ AtStart b front := by
  induction t generalizing o b with
  | nil => simp [rowSpans, not_namedAt_nil]
  | cons c t ih =>
    -- the place is at the first character, or behind it and then in the rest of the text
    have hcons : (∃ front name, NamedAt (c :: t) front name ∧
        s = (o + size front, o + size front + size name) ∧ AtStart b front) ↔
        (b = true ∧ ∃ name, NamedAt (c :: t) [] name ∧ s = (o, o + size name)) ∨
          s ∈ rowSpans (c = '\n') (o + c.utf8Size) t := by
      rw [ih]
      constructor
      · rintro ⟨front, name, hn, rfl, hfront⟩
        cases front with
        | nil => exact .inl ⟨by simpa [AtStart] using hfront, name, hn, rfl⟩
        | cons d front =>
          obtain ⟨rfl, hbelow⟩ := namedAt_cons_cons_iff.1 hn
          exact .inr ⟨front, name, hbelow, by simp only [size_cons, Nat.add_assoc],
            atStart_cons_iff.1 hfront⟩
      · rintro (⟨hb, name, hn, rfl⟩ | ⟨front, name, hn, rfl, hfront⟩)
        · exact ⟨[], name, hn, rfl, .inl ⟨rfl, hb⟩⟩
        · exact ⟨c :: front, name, namedAt_cons_cons_iff.2 ⟨rfl, hn⟩,
            by simp only [size_cons, Nat.add_assoc], atStart_cons_iff.2 hfront⟩
    rw [hcons, rowSpans]
    cases hs : start? (c :: t) with
    | none =>
      simp [not_namedAt_nil_of_none hs]
    | some p =>
      have hname : ∀ name, NamedAt (c :: t) [] name ↔ name = p.1 := by
        simp [namedAt_nil_iff, hs, Prod.ext_iff, eq_comm]
      cases b <;> simp [hname]

theorem pairwise_rowSpans : (rowSpans b o t).Pairwise fun s s' => s.1 < s'.1 := by
  induction t generalizing o b with
  | nil => exact List.Pairwise.nil
  | cons c t ih =>
    rw [rowSpans]
    have hlt : ∀ s ∈ rowSpans (c = '\n') (o + c.utf8Size) t, o < s.1 := by
      intro s hs
      obtain ⟨front, name, -, rfl, -⟩ := mem_rowSpans_iff.1 hs
      have hpos := c.utf8Size_pos
      simp only
      omega
    cases start? (c :: t) with
    | none => exact ih
    | some p =>
      cases b with
      | false => exact ih
      | true => exact List.pairwise_cons.2 ⟨hlt, ih⟩

theorem pairwise_spans (t : Text) : (spans t).Pairwise fun s s' => s.1 < s'.1 := by
  rw [spans]
  cases firstSpan? 0 t with
  | none => exact List.Pairwise.nil
  | some first =>
    refine List.pairwise_cons.2 ⟨fun s hs => ?_, pairwise_rowSpans.filter _⟩
    simpa using (List.mem_filter.1 hs).2

/-- **Items start where the first name stands, and where a name stands at the start of a line.** -/
theorem mem_spans_iff : s ∈ spans t ↔ StartsAt t s := by
  rw [spans, StartsAt]
  cases hfirst : firstSpan? 0 t with
  | none => simp [not_namedAt_of_firstSpan? hfirst]
  | some first =>
    obtain ⟨front₀, name₀, hn₀, rfl, hleast⟩ := exists_of_firstSpan? hfirst
    simp only [Nat.zero_add, List.mem_cons, List.mem_filter, decide_eq_true_eq, mem_rowSpans_iff]
    constructor
    · rintro (rfl | ⟨⟨front, name, hn, rfl, hfront⟩, hlt⟩)
      · exact ⟨front₀, name₀, hn₀, rfl, .inr hleast⟩
      · refine ⟨front, name, hn, rfl, .inl (hfront.resolve_left ?_)⟩
        rintro ⟨rfl, -⟩
        simp at hlt
    · rintro ⟨front, name, hn, rfl, hfront⟩
      -- no place is in front of the first one, and one with as much in front is the first one
      rcases Nat.eq_or_lt_of_le (hleast front name hn) with heq | hlt
      · obtain rfl := hn₀.front_eq hn heq
        exact .inl (by rw [hn₀.unique hn])
      · rcases hfront with hfront | hfront
        · exact .inr ⟨⟨front, name, hn, rfl, .inr hfront⟩, hlt⟩
        · exact absurd (hfront front₀ name₀ hn₀) (Nat.not_le_of_lt hlt)

/-! ### Cutting at places -/

/-- Where the body of an item ends: at the line feed in front of the next item, or at the end of the
text. None where there is nothing in front of the next item. -/
def stop? (t : Text) : List (Nat × Nat) → Option Nat
  | [] => some (size t)
  | next :: _ => if 1 ≤ next.1 then some (next.1 - 1) else none

/-- The names that stand at some places of a text, each with what stands up to the next. -/
def cut? (t : Text) : List (Nat × Nat) → Option (List (Text × Text))
  | [] => some []
  | s :: ss => do
    let name ← slice? t s.1 s.2
    let stop ← stop? t ss
    let body ← slice? t s.2 stop
    let below ← cut? t ss
    return (name, body) :: below

/-- Items as they are written. -/
def texts (es : List (Text × Text)) : List Text := es.map fun e => e.1 ++ e.2

@[simp] theorem texts_cons (e : Text × Text) (es : List (Text × Text)) :
    texts (e :: es) = (e.1 ++ e.2) :: texts es := rfl

/-- The places of items that stand one under the other. -/
def spansOf (offset : Nat) : List (Text × Text) → List (Nat × Nat)
  | [] => []
  | e :: es => (offset, offset + size e.1) :: spansOf (offset + size (e.1 ++ e.2) + 1) es

theorem le_of_mem_spansOf {es : List (Text × Text)} (h : s ∈ spansOf o es) : o ≤ s.1 := by
  induction es generalizing o with
  | nil => simp [spansOf] at h
  | cons e es ih =>
    rcases List.mem_cons.1 h with rfl | h
    · exact Nat.le_refl o
    · have hle := ih h
      omega

theorem cut?_cons_of_slices {ss : List (Nat × Nat)} {stop : Nat} {name body : Text}
    {es : List (Text × Text)} (hname : slice? t s.1 s.2 = some name)
    (hstop : stop? t ss = some stop) (hbody : slice? t s.2 stop = some body)
    (hbelow : cut? t ss = some es) : cut? t (s :: ss) = some ((name, body) :: es) := by
  rw [cut?, hname, hstop, hbelow]
  simp [hbody]

theorem slice?_name (front : Text) (e : Text × Text) (u : Text) :
    slice? (front ++ (e.1 ++ e.2 ++ u)) (size front) (size front + size e.1) = some e.1 := by
  rw [List.append_assoc]
  exact slice?_append front e.1 (e.2 ++ u)

theorem slice?_body (front : Text) (e : Text × Text) (u : Text) :
    slice? (front ++ (e.1 ++ e.2 ++ u)) (size front + size e.1) (size front + size (e.1 ++ e.2)) =
      some e.2 := by
  have hbody := slice?_append (front ++ e.1) e.2 u
  rwa [List.append_assoc, ← List.append_assoc e.1, size_append front, Nat.add_assoc,
    ← size_append e.1] at hbody

/-- **Items that stand one under the other come apart at their places.** -/
theorem cut?_spansOf (front : Text) (e : Text × Text) (es : List (Text × Text)) :
    cut? (front ++ (e.1 ++ e.2 ++ under (texts es))) (spansOf (size front) (e :: es)) =
      some (e :: es) := by
  induction es generalizing front e with
  | nil =>
    have hstop : stop? (front ++ (e.1 ++ e.2 ++ under (texts []))) [] =
        some (size front + size (e.1 ++ e.2)) := by
      simp [stop?, texts]
    exact cut?_cons_of_slices (slice?_name front e _) hstop (slice?_body front e _) rfl
  | cons e' es ih =>
    have hstop : stop? (front ++ (e.1 ++ e.2 ++ under (texts (e' :: es))))
        (spansOf (size front + size (e.1 ++ e.2) + 1) (e' :: es)) =
        some (size front + size (e.1 ++ e.2)) := by
      simp [stop?, spansOf]
    refine cut?_cons_of_slices (slice?_name front e _) hstop (slice?_body front e _) ?_
    -- in front of the items below stand this one and the line feed behind it
    have hbelow := ih (front ++ (e.1 ++ e.2 ++ ['\n'])) e'
    have htext : front ++ (e.1 ++ e.2 ++ under (texts (e' :: es))) =
        front ++ (e.1 ++ e.2 ++ ['\n']) ++ (e'.1 ++ e'.2 ++ under (texts es)) := by
      simp
    have hsize : size (front ++ (e.1 ++ e.2 ++ ['\n'])) = size front + size (e.1 ++ e.2) + 1 := by
      rw [size_append, size_append (e.1 ++ e.2), ← Nat.add_assoc]
      rfl
    rw [htext, ← hsize]
    exact hbelow

/-! ### Items and their places -/

/-- What is found at the start of a line does not depend on the lines below. -/
theorem start?_append_of_breaks (hw : Breaks w) (hs : start? l = some (name, tail)) :
    start? (l ++ w) = some (name, tail ++ w) := by
  obtain ⟨rfl, hname, htail⟩ := start?_eq_some_iff.1 hs
  refine start?_eq_some_iff.2 ⟨List.append_assoc _ _ _, hname, fun c hc => ?_⟩
  cases tail with
  | nil =>
    obtain rfl := hw c hc
    decide
  | cons d r => exact htail c hc

theorem start?_append_of_breaks_of_none (hw : Breaks w) (hs : start? l = none) :
    start? (l ++ w) = none := by
  rw [start?_eq_none_iff] at hs ⊢
  rw [opens, List.dropWhile_append]
  cases hrest : l.dropWhile (· = '*') with
  | cons c r => simpa [opens, hrest] using hs
  | nil =>
    cases w with
    | nil => rfl
    | cons c w =>
      obtain rfl := hw c rfl
      rfl

/-- An item whose name alone starts a line. -/
def Parted (e : Text × Text) : Prop :=
  ∃ tail below, e.2 = tail ++ under below ∧ start? (e.1 ++ tail) = some (e.1, tail) ∧
    '\n' ∉ e.1 ++ tail ∧ ∀ l ∈ below, '\n' ∉ l ∧ start? l = none

theorem parted_of_mem_ofLines {ls : List Line} (h : ∀ l ∈ ls, '\n' ∉ l) {e : Text × Text}
    (he : e ∈ ofLines ls) : Parted e := by
  obtain ⟨tail, ms, hrows, hs⟩ := exists_rows_of_mem_ofLines h he
  have hbreak : ∀ l ∈ (e.1 ++ tail) :: (group ms).1, '\n' ∉ l := fun l hl =>
    newline_notMem_of_mem_rows (t := e.1 ++ e.2) (by rwa [← hrows] at hl)
  refine ⟨tail, (group ms).1, ?_, hs, hbreak _ List.mem_cons_self, fun l hl =>
    ⟨hbreak l (List.mem_cons_of_mem _ hl), start?_of_mem_group hl⟩⟩
  have htext : joinLines (rows e) = e.1 ++ e.2 := joinLines_rows _
  rw [hrows, joinLines_cons_eq, List.append_assoc] at htext
  exact (List.append_cancel_left htext).symm

theorem rowSpans_false_cons (c : Char) (t : Text) (o : Nat) :
    rowSpans false o (c :: t) = rowSpans (c = '\n') (o + c.utf8Size) t := by
  rw [rowSpans]
  cases start? (c :: t) <;> rfl

theorem rowSpans_of_none (hs : start? t = none) : rowSpans b o t = rowSpans false o t := by
  cases t with
  | nil => rfl
  | cons c t =>
    rw [rowSpans_false_cons, rowSpans]
    simp [hs]

theorem rowSpans_of_some (hs : start? t = some (name, tail)) :
    rowSpans true o t = (o, o + size name) :: rowSpans false o t := by
  cases t with
  | nil => simp [start?] at hs
  | cons c t =>
    rw [rowSpans_false_cons, rowSpans]
    simp [hs]

theorem rowSpans_line (h : '\n' ∉ l) (w : Text) :
    rowSpans false o (l ++ w) = rowSpans false (o + size l) w := by
  induction l generalizing o with
  | nil => rfl
  | cons c l ih =>
    rw [List.mem_cons, not_or] at h
    rw [List.cons_append, rowSpans_false_cons, size_cons, ← Nat.add_assoc, ← ih h.2]
    simp [Ne.symm h.1]

/-- Lines that do not start with a name have none at their start. -/
theorem rowSpans_under {ls : List Line} (h : ∀ l ∈ ls, '\n' ∉ l ∧ start? l = none) (hw : Breaks w) :
    rowSpans false o (under ls ++ w) = rowSpans false (o + size (under ls)) w := by
  induction ls generalizing o with
  | nil => rfl
  | cons l ls ih =>
    have hls := fun m hm => h m (List.mem_cons_of_mem l hm)
    obtain ⟨hl, hs⟩ := h l List.mem_cons_self
    have hnone : start? (l ++ (under ls ++ w)) = none :=
      start?_append_of_breaks_of_none (hw.under_append ls) hs
    rw [under_cons, List.cons_append, rowSpans_false_cons, List.append_assoc,
      rowSpans_of_none hnone, rowSpans_line hl, ih hls]
    simp [Nat.add_assoc]

theorem Parted.rowSpans_false {e : Text × Text} (h : Parted e) (hw : Breaks w) :
    rowSpans false o (e.1 ++ e.2 ++ w) = rowSpans false (o + size (e.1 ++ e.2)) w := by
  obtain ⟨tail, below, hbody, -, hl, hbelow⟩ := h
  rw [hbody, ← List.append_assoc e.1, List.append_assoc _ _ w, rowSpans_line hl,
    rowSpans_under hbelow hw, size_append (e.1 ++ tail), Nat.add_assoc]

theorem Parted.rowSpans_true {e : Text × Text} (h : Parted e) (hw : Breaks w) :
    rowSpans true o (e.1 ++ e.2 ++ w) =
      (o, o + size e.1) :: rowSpans false (o + size (e.1 ++ e.2)) w := by
  rw [← h.rowSpans_false hw]
  obtain ⟨tail, below, hbody, hs, -⟩ := h
  have hstart := start?_append_of_breaks (hw.under_append below) hs
  rw [hbody, ← List.append_assoc e.1, List.append_assoc _ _ w]
  exact rowSpans_of_some hstart

theorem rowSpans_texts {es : List (Text × Text)} (h : ∀ e ∈ es, Parted e) :
    rowSpans false o (under (texts es)) = spansOf (o + 1) es := by
  induction es generalizing o with
  | nil => rfl
  | cons e es ih =>
    rw [texts_cons, under_cons, rowSpans_false_cons, utf8Size_newline, spansOf, ← ih fun x hx =>
      h x (List.mem_cons_of_mem e hx)]
    exact (h e List.mem_cons_self).rowSpans_true (breaks_under _)

/-- The places of names in two parts of a text. -/
theorem exists_rowSpans_append (b : Bool) (o : Nat) (t u : Text) :
    ∃ above b', rowSpans b o (t ++ u) = above ++ rowSpans b' (o + size t) u ∧
      ∀ s ∈ above, s.1 < o + size t := by
  induction t generalizing b o with
  | nil => exact ⟨[], b, rfl, by simp⟩
  | cons c t ih =>
    obtain ⟨above, b', hrows, hlt⟩ := ih (c = '\n') (o + c.utf8Size)
    have hpos := c.utf8Size_pos
    have hsize : o + size (c :: t) = o + c.utf8Size + size t := by rw [size_cons, Nat.add_assoc]
    rw [hsize, List.cons_append, rowSpans, hrows]
    cases start? (c :: (t ++ u)) with
    | none => exact ⟨above, b', rfl, hlt⟩
    | some p =>
      cases b with
      | false => exact ⟨above, b', rfl, hlt⟩
      | true =>
        refine ⟨(o, o + size p.1) :: above, b', rfl, List.forall_mem_cons.2 ⟨?_, hlt⟩⟩
        simp only
        omega

/-- Items that stand one under the other, the first of which has the first name of all. -/
theorem spans_eq_spansOf {e : Text × Text} {es : List (Text × Text)}
    (hparted : ∀ x ∈ e :: es, Parted x)
    (hfirst : firstSpan? 0 (front ++ (e.1 ++ e.2 ++ under (texts es))) =
      some (size front, size front + size e.1)) :
    spans (front ++ (e.1 ++ e.2 ++ under (texts es))) = spansOf (size front) (e :: es) := by
  obtain ⟨above, b', hrows, habove⟩ :=
    exists_rowSpans_append true 0 front (e.1 ++ e.2 ++ under (texts es))
  rw [Nat.zero_add] at hrows habove
  obtain ⟨he, hes⟩ := List.forall_mem_cons.1 hparted
  have hbelow : (spansOf (size front + size (e.1 ++ e.2) + 1) es).filter
      (fun s => size front < s.1) = spansOf (size front + size (e.1 ++ e.2) + 1) es := by
    refine List.filter_eq_self.2 fun s hs => ?_
    have hle := le_of_mem_spansOf hs
    simp only [decide_eq_true_eq]
    omega
  have hdrop : above.filter (fun s => size front < s.1) = [] := by
    refine List.filter_eq_nil_iff.2 fun s hs => ?_
    have hlt := habove s hs
    simp only [decide_eq_true_eq]
    omega
  have hbreaks := breaks_under (texts es)
  rw [spans, hfirst, spansOf]
  simp only [hrows, List.filter_append, hdrop, List.nil_append]
  congr 1
  cases b' with
  | false => rw [he.rowSpans_false hbreaks, rowSpans_texts hes, hbelow]
  | true =>
    rw [he.rowSpans_true hbreaks, rowSpans_texts hes, List.filter_cons_of_neg (by simp), hbelow]

/-- Grouping rows leaves their text as it is. -/
theorem under_group (ls : List Line) :
    under ls = under (group ls).1 ++ under (texts (group ls).2) := by
  induction ls with
  | nil => rfl
  | cons l ls ih =>
    rw [group]
    cases hs : start? l with
    | none => simp [ih]
    | some p =>
      obtain ⟨name, tail⟩ := p
      obtain rfl := append_eq_of_start? hs
      simp [ih, joinLines_cons_eq]

theorem firstSpan?_of_none (hw : Breaks w) (hl : find? l = none) :
    firstSpan? o (l ++ w) = firstSpan? (o + size l) w := by
  induction l generalizing o with
  | nil => rfl
  | cons c l ih =>
    rw [find?, Option.or_eq_none_iff] at hl
    have hnone : start? (c :: (l ++ w)) = none := start?_append_of_breaks_of_none hw hl.1
    rw [List.cons_append, firstSpan?, hnone, size_cons, ← Nat.add_assoc, ← ih hl.2]

theorem firstSpan?_of_some (hw : Breaks w) (hl : find? l = some (name, tail)) :
    ∃ front, l = front ++ (name ++ tail) ∧
      firstSpan? o (l ++ w) = some (o + size front, o + size front + size name) := by
  induction l generalizing o with
  | nil => simp [find?] at hl
  | cons c l ih =>
    rw [find?, Option.or_eq_some_iff] at hl
    rw [List.cons_append, firstSpan?]
    rcases hl with hs | ⟨hnone, hl⟩
    · have hstart : start? (c :: (l ++ w)) = some (name, tail ++ w) := start?_append_of_breaks hw hs
      rw [hstart]
      exact ⟨[], (append_eq_of_start? hs).symm, rfl⟩
    · have hnone : start? (c :: (l ++ w)) = none := start?_append_of_breaks_of_none hw hnone
      obtain ⟨front, rfl, hfirst⟩ := ih (o := o + c.utf8Size) hl
      rw [hnone]
      refine ⟨c :: front, rfl, ?_⟩
      rw [size_cons, ← Nat.add_assoc]
      exact hfirst

/-- **The items of rows stand one under the other**, behind what is in front of the first name. -/
theorem exists_texts_ofLines (ls : List Line) (o : Nat) :
    (ofLines ls = [] ∧ firstSpan? o (joinLines ls) = none) ∨
      ∃ front e es, ofLines ls = e :: es ∧
        joinLines ls = front ++ (e.1 ++ e.2 ++ under (texts es)) ∧
        firstSpan? o (joinLines ls) = some (o + size front, o + size front + size e.1) := by
  induction ls generalizing o with
  | nil => exact .inl ⟨rfl, rfl⟩
  | cons l ls ih =>
    rw [ofLines, joinLines_cons_eq]
    cases hl : find? l with
    | some p =>
      obtain ⟨name, tail⟩ := p
      obtain ⟨front, hfront, hfirst⟩ := firstSpan?_of_some (o := o) (breaks_under ls) hl
      refine .inr ⟨front, (name, joinLines (tail :: (group ls).1)), (group ls).2, rfl, ?_, hfirst⟩
      rw [hfront, under_group ls, joinLines_cons_eq]
      simp only [List.append_assoc]
    | none =>
      rw [firstSpan?_of_none (breaks_under ls) hl]
      cases ls with
      | nil => exact .inl ⟨rfl, rfl⟩
      | cons m ls =>
        have hnewline : firstSpan? (o + size l) (under (m :: ls)) =
            firstSpan? (o + size l + 1) (joinLines (m :: ls)) := by
          rw [under_cons, ← joinLines_cons_eq, firstSpan?]
          rfl
        rw [hnewline]
        rcases ih (o + size l + 1) with hnone | ⟨front, e, es, hes, hjoin, hfirst⟩
        · exact .inl hnone
        · have hsize : o + size (l ++ '\n' :: front) = o + size l + 1 + size front := by
            simp [Nat.add_assoc]
          refine .inr ⟨l ++ '\n' :: front, e, es, hes, ?_, ?_⟩
          · rw [under_cons, ← joinLines_cons_eq, hjoin]
            simp only [List.append_assoc, List.cons_append]
          · rw [hsize]
            exact hfirst

/-- **The places of the items of rows.** -/
theorem spans_joinLines {ls : List Line} (h : ∀ l ∈ ls, '\n' ∉ l) :
    (ofLines ls = [] ∧ spans (joinLines ls) = []) ∨
      ∃ front e es, ofLines ls = e :: es ∧
        joinLines ls = front ++ (e.1 ++ e.2 ++ under (texts es)) ∧
        spans (joinLines ls) = spansOf (size front) (e :: es) := by
  rcases exists_texts_ofLines ls 0 with ⟨hnil, hnone⟩ | ⟨front, e, es, hes, hjoin, hfirst⟩
  · exact .inl ⟨hnil, by rw [spans, hnone]⟩
  · rw [Nat.zero_add, hjoin] at hfirst
    refine .inr ⟨front, e, es, hes, hjoin, ?_⟩
    rw [hjoin]
    exact spans_eq_spansOf (fun x hx => parted_of_mem_ofLines h (hes ▸ hx)) hfirst

/-- **A text falls into its items at the places of their names.** -/
theorem cut?_spans {ls : List Line} (h : ∀ l ∈ ls, '\n' ∉ l) :
    cut? (joinLines ls) (spans (joinLines ls)) = some (ofLines ls) := by
  rcases spans_joinLines h with ⟨hnil, hspans⟩ | ⟨front, e, es, hes, hjoin, hspans⟩
  · rw [hspans, hnil]
    rfl
  · rw [hspans, hjoin, hes, cut?_spansOf]

/-- An item that stands by itself starts with its name, and no line of its body with another. -/
theorem Parted.isName {e : Text × Text} (h : Parted e) :
    IsName e.1 ∧ (∀ c ∈ e.2.head?, isWord c = false) ∧
      ∀ l ∈ (Text.rows e.2).tail, opens l = false := by
  obtain ⟨tail, below, hbody, hs, hl, hbelow⟩ := h
  obtain ⟨-, hname, htail⟩ := start?_eq_some_iff.1 hs
  refine ⟨hname, fun c hc => ?_, fun l hmem => ?_⟩
  · rw [hbody] at hc
    cases tail with
    | nil =>
      obtain rfl := breaks_under below c hc
      decide
    | cons d r => exact htail c hc
  · have hrows : Text.rows e.2 = tail :: below := by
      rw [hbody, ← joinLines_cons_eq, rows_joinLines (List.cons_ne_nil _ _)]
      exact List.forall_mem_cons.2
        ⟨fun hn => hl (List.mem_append_right _ hn), fun m hm => (hbelow m hm).1⟩
    rw [hrows] at hmem
    exact start?_eq_none_iff.1 (hbelow l hmem).2

end Item

namespace ItemMap

open Item

theorem render_numpy (m : ItemMap) : m.render .numpy = joinLines (texts m.entries) := by
  have hpad : Dialect.numpy.itemPadding = [] := rfl
  simp [render, texts, hpad]

/-- **The items of a section by their places.** The places at which items start come one behind the
other, and every cut at them is within the text and between two characters. What is cut off are the
names and bodies of the items: the map lists each name where it first came, with the body that it
had last. A name is stars and word characters, a body starts with no word character, and no later
line of it starts with a name. Where no name comes twice, the items are written as they stood, from
the first name on. -/
theorem parse_spans (body : Text) :
    let t := dedent body
    ((spans t).Pairwise fun s s' => s.1 < s'.1) ∧ (∀ s, s ∈ spans t ↔ StartsAt t s) ∧
    (∃ items, cut? t (spans t) = some items ∧
      (parse body).keys = (items.map Prod.fst).eraseDups ∧
      (∀ e ∈ (parse body).entries, ∃ above below, items = above ++ e :: below ∧
        e.1 ∉ below.map Prod.fst) ∧
      ((items.map Prod.fst).Nodup → (parse body).entries = items ∧
        ∀ s ∈ (spans t).head?, slice? t s.1 (size t) = some ((parse body).render .numpy))) ∧
    ∀ e ∈ (parse body).entries, IsName e.1 ∧ (∀ c ∈ e.2.head?, isWord c = false) ∧
      ∀ l ∈ (Text.rows e.2).tail, opens l = false := by
  intro t
  have hbreak : ∀ l ∈ dedentedLines body, '\n' ∉ l := fun l hl =>
    newline_notMem_of_mem_dedentedLines hl
  have hcut : cut? t (spans t) = some (ofLines (dedentedLines body)) := cut?_spans hbreak
  have hkeys : (parse body).keys = ((ofLines (dedentedLines body)).map Prod.fst).eraseDups :=
    OrderedMap.keys_ofList _
  have hentries (hn : ((ofLines (dedentedLines body)).map Prod.fst).Nodup) :
      (parse body).entries = ofLines (dedentedLines body) :=
    OrderedMap.entries_ofList_of_nodup hn
  refine ⟨pairwise_spans t, fun s => mem_spans_iff, ⟨_, hcut, hkeys, ?_, ?_⟩, ?_⟩
  · exact fun e he => OrderedMap.exists_of_mem_ofList he
  · refine fun hn => ⟨hentries hn, fun s hs => ?_⟩
    rcases spans_joinLines hbreak with ⟨-, hspans⟩ | ⟨front, e, es, hes, hjoin, hspans⟩
    · have hnil : spans t = [] := hspans
      simp [hnil] at hs
    · have ht : t = front ++ (e.1 ++ e.2 ++ under (texts es)) := hjoin
      have hplaces : spans t = spansOf (size front) (e :: es) := hspans
      rw [hplaces] at hs
      obtain rfl : (size front, size front + size e.1) = s := by simpa [spansOf] using hs
      have hslice := slice?_append front (e.1 ++ e.2 ++ under (texts es)) []
      rw [List.append_nil, ← size_append] at hslice
      rw [render_numpy, hentries hn, hes, texts_cons, joinLines_cons_eq, ht]
      exact hslice
  · exact fun e he => (parted_of_mem_ofLines hbreak (OrderedMap.mem_ofList he)).isName

/-- A first name inside its line, names of characters that take two bytes, a lone star and a line
that starts inside the margin. -/
theorem parse_spans_dropped :
    let body := "  - größe: int\n\n  * any\n  **ключи\n    all".toList
    let t := dedent body
    spans t = [(2, 9), (22, 34)] ∧
    cut? t (spans t) = some [("größe".toList, ": int\n\n* any".toList),
      ("**ключи".toList, "\n  all".toList)] ∧
    slice? t 2 (size t) = some ((parse body).render .numpy) := by
  intro body t
  have hspans : spans t = [(2, 9), (22, 34)] := by decide +kernel
  have hitems : cut? t (spans t) = some [("größe".toList, ": int\n\n* any".toList),
      ("**ключи".toList, "\n  all".toList)] := by decide +kernel
  obtain ⟨-, -, ⟨items, hcut, -, -, hrender⟩, -⟩ := parse_spans body
  obtain rfl := Option.some.inj (hcut.symm.trans hitems)
  have hhead : (spans t).head? = some (2, 9) := by rw [hspans]; rfl
  exact ⟨hspans, hitems, (hrender (by decide)).2 (2, 9) hhead⟩

end ItemMap

end Docstring
