import Docstring.Outline
import Docstring.Proofs.Layout

/-!
# Where lines are divided at titles

A title takes the line below it and perhaps the one above, so dividing lines at titles looks two
lines ahead. What it leaves in front of the blocks are the lines above the first title
(`isAbove_iff`).

An empty line ends all that: it is no title, no adornment and over no title. So lines that are
written title by title, an empty line at the end of what stands under each, come apart where they
were put together (`divide_flatMap`).
-/

namespace Docstring

open Text

namespace Outline

/-! ### Lines without a title -/

/-- No line of these is made a title by the line below it. -/
def TitleFree : List Line → Prop
  | [] => True
  | l :: ls => (∀ u, ls.head? = some u → isTitle l u = false) ∧ TitleFree ls

theorem isTitle_nil_left (u : Line) : isTitle [] u = false := by simp [isTitle]

theorem isTitle_nil_right (l : Line) : isTitle l [] = false := by simp [isTitle, isAdornment]

theorem isOverline_nil (u : Line) : isOverline [] u = false := by simp [isOverline, isAdornment]

theorem TitleFree.of_append {xs ys : List Line} (h : TitleFree (xs ++ ys)) : TitleFree xs := by
  induction xs with
  | nil => trivial
  | cons l xs ih =>
    refine ⟨fun u hu => h.1 u ?_, ih h.2⟩
    cases xs with
    | nil => simp at hu
    | cons v xs => exact hu

theorem TitleFree.of_append_right {xs ys : List Line} (h : TitleFree (xs ++ ys)) :
    TitleFree ys := by
  induction xs with
  | nil => exact h
  | cons x xs ih => exact ih h.2

/-- A line more below, which makes no title of the one above it. -/
theorem TitleFree.concat {xs : List Line} (h : TitleFree xs) {u : Line}
    (hu : ∀ l ∈ xs.getLast?, isTitle l u = false) : TitleFree (xs ++ [u]) := by
  induction xs with
  | nil => exact ⟨by simp, trivial⟩
  | cons x xs ih =>
    refine ⟨fun v hv => ?_, ih h.2 fun l hl => hu l ?_⟩
    · cases xs with
      | nil =>
        obtain rfl := Option.some.inj hv
        exact hu x rfl
      | cons y ys => exact h.1 v hv
    · rw [Option.mem_def, List.getLast?_cons, hl]
      rfl

theorem TitleFree.append_nil {xs : List Line} (h : TitleFree xs) : TitleFree (xs ++ [[]]) :=
  h.concat fun l _ => isTitle_nil_right l

/-! ### Dividing, one line at a time -/

/-- A line that is no part of a title goes to what stands above. -/
theorem divide_cons {o : Line} {ls : List Line}
    (hunder : ∀ l, ls.head? = some l → isTitle o l = false)
    (hover : ∀ l u, ls.take 2 = [l, u] → (isTitle l u && isOverline o u) = false) :
    divide (o :: ls) = (o :: (divide ls).1, (divide ls).2) := by
  match ls with
  | [] => rfl
  | [l] => simp [divide, hunder l rfl]
  | l :: u :: ls =>
    have ho := hover l u rfl
    rw [divide, if_neg (by simp [hunder l rfl]), if_neg (by simp [ho])]

/-- An empty line keeps what is above it apart from what is below. -/
theorem divide_append_nil_cons {xs : List Line} (h : TitleFree xs) (ys : List Line) :
    divide (xs ++ [] :: ys) = (xs ++ [] :: (divide ys).1, (divide ys).2) := by
  induction xs with
  | nil =>
    refine divide_cons (fun l _ => isTitle_nil_left l) fun l u _ => ?_
    rw [isOverline_nil, Bool.and_false]
  | cons x xs ih =>
    rw [List.cons_append, divide_cons, ih h.2]
    · rfl
    · intro l hl
      cases xs with
      | nil =>
        obtain rfl := Option.some.inj hl
        exact isTitle_nil_right x
      | cons v xs => exact h.1 l hl
    · intro l u hlu
      have hnone : isTitle l u = false := by
        match xs with
        | [] =>
          obtain rfl : [] = l := (List.cons.inj hlu).1
          exact isTitle_nil_left u
        | [v] =>
          obtain rfl : [] = u := (List.cons.inj (List.cons.inj hlu).2).1
          exact isTitle_nil_right l
        | v :: w :: xs =>
          obtain rfl : v = l := (List.cons.inj hlu).1
          obtain rfl : w = u := (List.cons.inj (List.cons.inj hlu).2).1
          exact h.2.1 w rfl
      rw [hnone, Bool.false_and]

theorem divide_of_titleFree {xs : List Line} (h : TitleFree xs) : divide xs = (xs, []) := by
  induction xs with
  | nil => rfl
  | cons x xs ih =>
    rw [divide_cons h.1, ih h.2]
    intro l u hlu
    match xs with
    | [] => simp at hlu
    | [v] => simp at hlu
    | v :: w :: xs =>
      obtain rfl : v = l := (List.cons.inj hlu).1
      obtain rfl : w = u := (List.cons.inj (List.cons.inj hlu).2).1
      rw [h.2.1 w rfl, Bool.false_and]

/-! ### Titles -/

/-- The lines of a title: the title over its underline, perhaps with an overline. -/
inductive IsMarkup : Line → List Line → Prop where
  /-- A title over an underline. -/
  | underlined {l u : Line} : isTitle l u = true → IsMarkup l [l, u]
  /-- A title between two adornments. -/
  | overlined {o l u : Line} : isTitle o l = false → isTitle l u = true → isOverline o u = true →
      IsMarkup l [o, l, u]

/-- A title opens a block with all that stands below. -/
theorem divide_markup_append {l : Line} {ms : List Line} (h : IsMarkup l ms) (ls : List Line) :
    divide (ms ++ ls) = ([], ⟨l, ms, (divide ls).1⟩ :: (divide ls).2) := by
  cases h with
  | underlined ht =>
    cases ls with
    | nil => simp [divide, ht]
    | cons v ls => simp [divide, ht]
  | overlined ho ht hover => simp [divide, ho, ht, hover]

/-- A block whose markup is that of its title and that holds no other title. -/
structure Block.Sound (b : Block) : Prop where
  /-- The lines of the title are those of a title. -/
  markup : IsMarkup b.title b.markup
  /-- There is no title below. -/
  free : TitleFree b.body

theorem head?_divide_fst {l : Line} {ls : List Line} {u : Line}
    (h : (divide (l :: ls)).1.head? = some u) : u = l := by
  have happ := divide_append (l :: ls)
  obtain ⟨v, vs, hvs⟩ : ∃ v vs, (divide (l :: ls)).1 = v :: vs := by
    cases hd : (divide (l :: ls)).1 with
    | nil => simp [hd] at h
    | cons v vs => exact ⟨v, vs, rfl⟩
  rw [hvs] at h happ
  obtain rfl : v = u := by simpa using h
  exact (List.cons.inj happ).1

/-- **Dividing leaves no title behind**: none in front of the first block and none in a block
besides its own. -/
theorem sound_divide (ls : List Line) :
    TitleFree (divide ls).1 ∧ ∀ b ∈ (divide ls).2, b.Sound := by
  fun_induction divide ls with
  | case1 => exact ⟨trivial, by simp⟩
  | case2 l => exact ⟨⟨by simp, trivial⟩, by simp⟩
  | case3 l u ht =>
    refine ⟨trivial, fun b hb => ?_⟩
    obtain rfl := List.mem_singleton.1 hb
    exact ⟨.underlined ht, trivial⟩
  | case4 l u ht =>
    refine ⟨⟨fun v hv => ?_, by simp, trivial⟩, by simp⟩
    obtain rfl := Option.some.inj hv
    exact Bool.eq_false_iff.2 ht
  | case5 o l u ls ht below ih =>
    refine ⟨trivial, fun b hb => ?_⟩
    rcases List.mem_cons.1 hb with rfl | hb
    · exact ⟨.underlined ht, ih.1⟩
    · exact ih.2 b hb
  | case6 o l u ls ho ht below ih =>
    rw [Bool.and_eq_true] at ht
    refine ⟨trivial, fun b hb => ?_⟩
    rcases List.mem_cons.1 hb with rfl | hb
    · exact ⟨.overlined (Bool.eq_false_iff.2 ho) ht.1 ht.2, ih.1⟩
    · exact ih.2 b hb
  | case7 o l u ls ho ht below ih =>
    refine ⟨⟨fun v hv => ?_, ih.1⟩, ih.2⟩
    rw [head?_divide_fst hv]
    exact Bool.eq_false_iff.2 ho

/-! ### Lines above the first title -/

/-- Lines above those of a title that are no part of any title: none of them is made one by the
line below it, and the last is no overline of the title that its lines leave out. -/
structure Clear (front ms : List Line) : Prop where
  /-- No title stands above. -/
  free : TitleFree (front ++ ms.dropLast)
  /-- A title takes its overline. -/
  bare : ∀ l u, ms = [l, u] → ∀ o ∈ front.getLast?, isOverline o u = false

theorem Clear.tail {o : Line} {front ms : List Line} (h : Clear (o :: front) ms) :
    Clear front ms := by
  refine ⟨h.free.2, fun l u hms x hx => h.bare l u hms x ?_⟩
  rw [Option.mem_def, List.getLast?_cons, hx]
  rfl

/-- The lines of a title start in front of its underline. -/
theorem IsMarkup.head?_append {l : Line} {ms : List Line} (h : IsMarkup l ms)
    (front ls : List Line) : (front ++ ms.dropLast).head? = (front ++ (ms ++ ls)).head? := by
  cases front with
  | nil => cases h <;> rfl
  | cons => rfl

/-- The line in front of a title's lines starts no title. -/
theorem Clear.divide_cons {o l : Line} {front ms : List Line} (h : Clear (o :: front) ms)
    (hm : IsMarkup l ms) (ls : List Line) :
    divide (o :: (front ++ (ms ++ ls))) =
      (o :: (divide (front ++ (ms ++ ls))).1, (divide (front ++ (ms ++ ls))).2) := by
  obtain ⟨hfree, hbare⟩ := h
  refine Outline.divide_cons (fun v hv => ?_) fun v w hvw => ?_
  · exact hfree.1 v ((hm.head?_append front ls).trans hv)
  · match front, hm with
    | [], .underlined (u := u) ht =>
      obtain ⟨rfl, rfl⟩ : l = v ∧ u = w := by simpa using hvw
      rw [hbare l u rfl o rfl, Bool.and_false]
    | [], .overlined (o := a) ho ht hover =>
      obtain ⟨rfl, rfl⟩ : a = v ∧ l = w := by simpa using hvw
      rw [ho, Bool.false_and]
    | [x], hm =>
      obtain rfl : x = v := by cases hm <;> simp_all
      have hxw : isTitle x w = false := by
        refine hfree.2.1 w ?_
        cases hm <;> simp_all
      rw [hxw, Bool.false_and]
    | x :: y :: front, hm =>
      obtain ⟨rfl, rfl⟩ : x = v ∧ y = w := by simpa using hvw
      rw [hfree.2.1 y rfl, Bool.false_and]

/-- **Lines above a title stay above it**, and all below go to it or to later titles. -/
theorem divide_append_markup {front : List Line} {l : Line} {ms : List Line}
    (hc : Clear front ms) (hm : IsMarkup l ms) (ls : List Line) :
    divide (front ++ (ms ++ ls)) = (front, ⟨l, ms, (divide ls).1⟩ :: (divide ls).2) := by
  induction front with
  | nil => exact divide_markup_append hm ls
  | cons o front ih => rw [List.cons_append, hc.divide_cons hm, ih hc.tail]

theorem IsMarkup.isTitle_of_pair {l t u : Line} (h : IsMarkup l [t, u]) : isTitle t u = true := by
  generalize hms : [t, u] = ms at h
  cases h with
  | underlined ht =>
    obtain ⟨rfl, rfl⟩ : t = l ∧ u = _ := by simpa using hms
    exact ht
  | overlined => simp at hms

theorem clear_pair (l u : Line) : Clear [] [l, u] := ⟨⟨by simp, trivial⟩, by simp⟩

/-- The lines above the first title are no part of any title. -/
theorem clear_divide (ls : List Line) :
    ∀ b ∈ (divide ls).2.head?, Clear (divide ls).1 b.markup := by
  fun_induction divide ls with
  | case1 => simp
  | case2 => simp
  | case3 l u ht =>
    intro b hb
    obtain rfl := Option.some.inj hb
    exact clear_pair _ _
  | case4 => simp
  | case5 o l u ls ht =>
    intro b hb
    obtain rfl := Option.some.inj hb
    exact clear_pair _ _
  | case6 o l u ls ho =>
    intro b hb
    obtain rfl := Option.some.inj hb
    refine ⟨⟨fun v hv => ?_, by simp, trivial⟩, by simp⟩
    obtain rfl := Option.some.inj hv
    exact Bool.eq_false_iff.2 ho
  | case7 o l u ls ho ht below ih =>
    intro b hb
    obtain ⟨hfree, hbare⟩ := ih b hb
    obtain ⟨bs, hbs⟩ := List.head?_eq_some_iff.1 hb
    have hm : IsMarkup b.title b.markup :=
      ((sound_divide (l :: u :: ls)).2 b (List.mem_of_head? hb)).markup
    have happ : below.1 ++ (b.markup ++ (b.body ++ bs.flatMap fun b => b.markup ++ b.body)) =
        l :: u :: ls := by
      have hall := divide_append (l :: u :: ls)
      rwa [hbs, List.flatMap_cons, List.append_assoc] at hall
    refine ⟨⟨fun v hv => ?_, hfree⟩, fun t w hms x hx => ?_⟩
    · have hhead := hm.head?_append below.1 (b.body ++ bs.flatMap fun b => b.markup ++ b.body)
      rw [happ] at hhead
      obtain rfl := Option.some.inj (hhead.symm.trans hv)
      exact Bool.eq_false_iff.2 ho
    · cases hfront : below.1 with
      | nil =>
        rw [hms] at hm happ
        rw [hfront] at hx happ
        obtain ⟨rfl, rfl, -⟩ : t = l ∧ w = u ∧ _ := by simpa using happ
        obtain rfl : o = x := by simpa using hx
        simpa [hm.isTitle_of_pair] using ht
      | cons y ys =>
        refine hbare t w hms x ?_
        rwa [hfront, List.getLast?_cons_cons, ← hfront] at hx

/-- The lines above the first title, all of them where there is none. -/
inductive IsAbove : List Line → List Line → Prop where
  /-- There is no title. -/
  | all {ls : List Line} : TitleFree ls → IsAbove ls ls
  /-- A title stands below, and none above it. -/
  | first {front ms ls : List Line} {l : Line} : IsMarkup l ms → Clear front ms →
      IsAbove front (front ++ (ms ++ ls))

/-- **What is divided off in front of the blocks are the lines above the first title.** -/
theorem isAbove_iff {front ls : List Line} : IsAbove front ls ↔ (divide ls).1 = front := by
  constructor
  · intro h
    cases h with
    | all hfree => rw [divide_of_titleFree hfree]
    | first hm hc => rw [divide_append_markup hc hm]
  · rintro rfl
    have happ := divide_append ls
    have hsound := sound_divide ls
    cases hbs : (divide ls).2 with
    | nil =>
      rw [hbs, List.flatMap_nil, List.append_nil] at happ
      rw [happ]
      exact .all (happ ▸ hsound.1)
    | cons b bs =>
      have hc : Clear (divide ls).1 b.markup := clear_divide ls b (by rw [hbs]; rfl)
      have hm : IsMarkup b.title b.markup := (hsound.2 b (hbs ▸ List.mem_cons_self)).markup
      rw [hbs, List.flatMap_cons, List.append_assoc] at happ
      have habove : IsAbove (divide ls).1 ((divide ls).1 ++ (b.markup ++
          (b.body ++ bs.flatMap fun b => b.markup ++ b.body))) := .first hm hc
      rwa [happ] at habove

/-- **Lines that are written title by title come apart where they were put together.** -/
theorem divide_flatMap {front : List Line} (hf : TitleFree front) {bs : List Block}
    (hends : bs ≠ [] → front = [] ∨ ∃ ls, front = ls ++ [[]])
    (hb : ∀ b ∈ bs, b.Sound ∧ ∃ ls, b.body = ls ++ [[]]) :
    divide (front ++ bs.flatMap fun b => b.markup ++ b.body) = (front, bs) := by
  induction bs generalizing front with
  | nil => rw [List.flatMap_nil, List.append_nil, divide_of_titleFree hf]
  | cons b bs ih =>
    obtain ⟨hsound, hend⟩ := hb b List.mem_cons_self
    have hbelow := ih hsound.free (fun _ => .inr hend) fun c hc => hb c (List.mem_cons_of_mem b hc)
    have hblock : divide ((b :: bs).flatMap fun b => b.markup ++ b.body) = ([], b :: bs) := by
      rw [List.flatMap_cons, List.append_assoc, divide_markup_append hsound.markup, hbelow]
    rcases hends (by simp) with rfl | ⟨ls, rfl⟩
    · exact hblock
    · have hls : TitleFree ls := hf.of_append
      rw [List.append_assoc, List.singleton_append, divide_append_nil_cons hls, hblock]

/-- Lines with at most an empty one more below. -/
def Padded (xs ys : List Line) : Prop := ys = xs ∨ ys = xs ++ [[]]

theorem Padded.cons (l : Line) {xs ys : List Line} (h : Padded xs ys) :
    Padded (l :: xs) (l :: ys) := by
  rcases h with rfl | rfl
  · exact .inl rfl
  · exact .inr rfl

/-- Blocks of one title with the same lines below, but for an empty one at the end. -/
def Block.Padded (b c : Block) : Prop :=
  c.title = b.title ∧ c.markup = b.markup ∧ Outline.Padded b.body c.body

/-- An empty line at the end belongs to what stands above it. -/
theorem divide_append_nil (ls : List Line) :
    Padded (divide ls).1 (divide (ls ++ [[]])).1 ∧
      List.Forall₂ Block.Padded (divide ls).2 (divide (ls ++ [[]])).2 := by
  fun_induction divide ls with
  | case1 => exact ⟨.inr rfl, .nil⟩
  | case2 l => simp [divide, isTitle_nil_right, Padded]
  | case3 l u ht => simp [divide, ht, Block.Padded, Padded]
  | case4 l u ht =>
    simp [divide, ht, isTitle_nil_right, Padded]
  | case5 o l u ls ht below ih =>
    simp only [List.cons_append, divide, ht, if_true]
    exact ⟨.inl rfl, .cons ⟨rfl, rfl, ih.1⟩ ih.2⟩
  | case6 o l u ls ho ht below ih =>
    simp only [List.cons_append, divide, ho, ht, if_true, Bool.false_eq_true, if_false]
    exact ⟨.inl rfl, .cons ⟨rfl, rfl, ih.1⟩ ih.2⟩
  | case7 o l u ls ho ht below ih =>
    simp only [List.cons_append, divide, ho, ht, Bool.false_eq_true, if_false]
    exact ⟨ih.1.cons o, ih.2⟩

end Outline

end Docstring
