import Docstring.Proofs.Layout

/-!
# Where rows are divided

Dividing rows at their headers takes one look at the row below, and a header may take that row
with it. Still it goes piece by piece: rows that are put in front of others are divided as they
would be alone, unless the first of the others could underline the last of them
(`segment_append`). So blocks that are written one below the other, each under a header in the
dialect's own form, come apart where they were put together (`segment_flatMap_rows`).
-/

namespace Docstring

open Text

namespace Dialect

variable {d : Dialect} {form : HeaderForm} {k : Section}

/-! ### Names -/

/-- A name of a section: its canonical one or an alias. -/
def Names (d : Dialect) (k : Section) (name : Text) : Prop :=
  (k ∈ d.sections ∧ name = k.name) ∨ (name, k) ∈ d.aliases

instance (d : Dialect) (k : Section) (name : Text) : Decidable (d.Names k name) :=
  inferInstanceAs (Decidable (_ ∨ _))

theorem resolve?_eq_some_iff {name : Text} : d.resolve? name = some k ↔ d.Names k name := by
  constructor
  · intro h
    rw [resolve?, Option.or_eq_some_iff] at h
    rcases h with h | ⟨-, h⟩
    · have hn : k.name = name := by simpa using List.find?_some h
      exact .inl ⟨List.mem_of_find?_eq_some h, hn.symm⟩
    · obtain ⟨a, ha, rfl⟩ := Option.map_eq_some_iff.1 h
      have hn : a.1 = name := by simpa using List.find?_some ha
      exact .inr (hn ▸ List.mem_of_find?_eq_some ha)
  · have hsections : ∀ j ∈ d.sections, d.resolve? j.name = some j := by cases d <;> decide
    have haliases : ∀ a ∈ d.aliases, d.resolve? a.1 = some a.2 := by cases d <;> decide
    rintro (⟨hk, rfl⟩ | ha)
    · exact hsections k hk
    · exact haliases (name, k) ha

/-- How names look: they start with a visible character that is no hyphen, are tidy, and have no
colon at their end. -/
structure IsLabel (name : Text) : Prop where
  head : (name.head?.any fun c => !isSpace c && c ≠ '-') = true
  tidy : Tidy name
  no_colon : name.getLast? ≠ some ':'

theorem Names.isLabel {name : Text} (h : d.Names k name) : IsLabel name := by
  have hlabel : ∀ t : Text, (t.head?.any fun c => !isSpace c && c ≠ '-') = true ∧
      ('\t' ∉ t ∧ '\n' ∉ t ∧ trimEnd t = t) ∧ t.getLast? ≠ some ':' → IsLabel t :=
    fun t ht => ⟨ht.1, ⟨ht.2.1.1, ht.2.1.2.1, ht.2.1.2.2⟩, ht.2.2⟩
  apply hlabel
  rcases h with ⟨-, rfl⟩ | h
  · cases k <;> decide
  · have haliases : ∀ a ∈ d.aliases, (a.1.head?.any fun c => !isSpace c && c ≠ '-') = true ∧
        ('\t' ∉ a.1 ∧ '\n' ∉ a.1 ∧ trimEnd a.1 = a.1) ∧ a.1.getLast? ≠ some ':' := by
      cases d <;> decide
    exact haliases (name, k) h

namespace IsLabel

variable {name : Text}

theorem exists_cons (h : IsLabel name) :
    ∃ c t, name = c :: t ∧ isSpace c = false ∧ c ≠ '-' := by
  have hh := h.head
  cases name with
  | nil => simp at hh
  | cons c t => exact ⟨c, t, rfl, by simpa using hh⟩

theorem ne_nil (h : IsLabel name) : name ≠ [] := by
  obtain ⟨c, t, rfl, -⟩ := h.exists_cons
  exact List.cons_ne_nil c t

theorem dropColon_eq (h : IsLabel name) : dropColon name = name := if_neg h.no_colon

end IsLabel

theorem dropColon_concat (name : Text) : dropColon (name ++ [':']) = name := by
  rw [dropColon, if_pos (by simp), List.dropLast_concat]

/-! ### Headers -/

theorem matchHeader_eq (hd : d.headerForm = some form) (l : Line) (next : Option Line) :
    d.matchHeader l next = (d.headerSection? form l next).map fun k => (k, form.height) := by
  rw [matchHeader, hd, Option.bind_some]

/-- A header shows its name, perhaps with a colon after it. -/
theorem exists_names_of_matchHeader {l : Line} {next : Option Line} {n : Nat}
    (h : d.matchHeader l next = some (k, n)) :
    ∃ name, d.Names k name ∧ (trimEnd l = name ∨ trimEnd l = name ++ [':']) := by
  obtain ⟨form, -, hm⟩ := Option.bind_eq_some_iff.1 h
  obtain ⟨j, hj, he⟩ := Option.map_eq_some_iff.1 hm
  obtain ⟨rfl, -⟩ := Prod.mk.inj he
  clear h hm he
  cases form with
  | underlined =>
    simp only [headerSection?] at hj
    split at hj
    · next i u hi =>
      split at hj
      · obtain rfl := Option.some.inj hj
        exact ⟨_, resolve?_eq_some_iff.1 hi, .inl rfl⟩
      · simp at hj
    · simp at hj
  | colon =>
    refine ⟨_, resolve?_eq_some_iff.1 hj, ?_⟩
    rw [dropColon]
    split
    · next hl =>
      obtain ⟨ini, hini⟩ := List.getLast?_eq_some_iff.1 hl
      exact .inr (by rw [hini, List.dropLast_concat])
    · exact .inl rfl

/-- A header starts with a visible character that is no hyphen. -/
theorem exists_cons_of_matchHeader {l : Line} {next : Option Line} {n : Nat}
    (h : d.matchHeader l next = some (k, n)) :
    ∃ c t, trimEnd l = c :: t ∧ isSpace c = false ∧ c ≠ '-' := by
  obtain ⟨name, hn, hl⟩ := exists_names_of_matchHeader h
  obtain ⟨c, t, rfl, hc⟩ := hn.isLabel.exists_cons
  rcases hl with hl | hl
  · exact ⟨c, t, hl, hc⟩
  · exact ⟨c, t ++ [':'], hl, hc⟩

theorem matchHeader_of_isBlank {l : Line} (h : isBlank l = true) (next : Option Line) :
    d.matchHeader l next = none := by
  rw [Option.eq_none_iff_forall_ne_some]
  rintro ⟨j, n⟩ hm
  obtain ⟨c, t, hl, -⟩ := exists_cons_of_matchHeader hm
  rw [trimEnd_eq_nil_iff.2 h] at hl
  exact absurd hl (by simp)

/-- A row that is no header over the row below it is none at the end either. -/
theorem matchHeader_none_of_none {l : Line} {next : Option Line}
    (h : d.matchHeader l next = none) : d.matchHeader l none = none := by
  cases hd : d.headerForm with
  | none => simp [matchHeader, hd]
  | some form =>
    rw [matchHeader_eq hd] at h ⊢
    cases form with
    | underlined => simp [headerSection?]
    | colon => exact h

theorem height_of_matchHeader {l : Line} {next : Option Line} {n : Nat}
    (h : d.matchHeader l next = some (k, n)) : n = 1 ∨ n = 2 ∧ ∃ u, next = some u := by
  obtain ⟨form, -, hm⟩ := Option.bind_eq_some_iff.1 h
  obtain ⟨j, hj, he⟩ := Option.map_eq_some_iff.1 hm
  obtain ⟨-, rfl⟩ := Prod.mk.inj he
  cases form with
  | underlined =>
    refine .inr ⟨rfl, ?_⟩
    cases next with
    | none => simp [headerSection?] at hj
    | some u => exact ⟨u, rfl⟩
  | colon => exact .inl rfl

/-! ### Rows that underline nothing -/

/-- A row that makes no header of the row above it. -/
def UnderlinesNothing (d : Dialect) (u : Line) : Prop :=
  ∀ l, d.matchHeader l (some u) = d.matchHeader l none

theorem underlinesNothing_of_exists {u : Line}
    (h : trimEnd u = [] ∨ ∃ c ∈ trimEnd u, c ≠ '-') : d.UnderlinesNothing u := by
  intro l
  cases hd : d.headerForm with
  | none => simp [matchHeader, hd]
  | some form =>
    rw [matchHeader_eq hd, matchHeader_eq hd]
    cases form with
    | colon => rfl
    | underlined =>
      have hnone : d.headerSection? .underlined l none = none := by simp [headerSection?]
      rw [hnone]
      congr 1
      simp only [headerSection?]
      split
      · next k u' hk hu =>
        obtain rfl := Option.some.inj hu
        refine if_neg ?_
        rw [isUnderline, Bool.and_eq_true, List.all_eq_true]
        rintro ⟨hlen, hall⟩
        rcases h with h | ⟨c, hc, hne⟩
        · have hl := (resolve?_eq_some_iff.1 hk).isLabel.ne_nil
          rw [h, List.length_nil, decide_eq_true_eq] at hlen
          exact hl (List.length_eq_zero_iff.1 hlen.symm)
        · exact hne (by simpa using hall c hc)
      · rfl

theorem underlinesNothing_of_isBlank {u : Line} (h : isBlank u = true) : d.UnderlinesNothing u :=
  underlinesNothing_of_exists (.inl (trimEnd_eq_nil_iff.2 h))

theorem underlinesNothing_of_matchHeader {u : Line} {next : Option Line} {n : Nat}
    (h : d.matchHeader u next = some (k, n)) : d.UnderlinesNothing u := by
  obtain ⟨c, t, hu, -, hc⟩ := exists_cons_of_matchHeader h
  exact underlinesNothing_of_exists (.inr ⟨c, by rw [hu]; exact List.mem_cons_self, hc⟩)

/-! ### Dividing, one row at a time -/

theorem segment_cons_of_none {l : Line} {ls : List Line}
    (h : d.matchHeader l ls.head? = none) :
    d.segment (l :: ls) = (l :: (d.segment ls).1, (d.segment ls).2) := by
  cases ls with
  | nil =>
    rw [List.head?_nil] at h
    simp [segment, h]
  | cons u ls =>
    rw [List.head?_cons] at h
    simp [segment, h]

theorem segment_cons_of_some {l : Line} {ls : List Line} {n : Nat}
    (h : d.matchHeader l ls.head? = some (k, n)) :
    d.segment (l :: ls) =
      ([], ⟨k, l, (d.segment (ls.drop (n - 1))).1⟩ :: (d.segment (ls.drop (n - 1))).2) := by
  have hn := height_of_matchHeader h
  cases ls with
  | nil =>
    rw [List.head?_nil] at h
    simp [segment, h]
  | cons u ls =>
    rw [List.head?_cons] at h
    rcases hn with rfl | ⟨rfl, -⟩ <;> simp [segment, h]

/-! ### Rows without a header -/

/-- No row of these is a header, taken with the row below it. -/
def HeaderFree (d : Dialect) : List Line → Prop
  | [] => True
  | l :: ls => d.matchHeader l ls.head? = none ∧ d.HeaderFree ls

instance decidableHeaderFree (d : Dialect) : (ls : List Line) → Decidable (d.HeaderFree ls)
  | [] => .isTrue trivial
  | _ :: ls => @instDecidableAnd _ _ inferInstance (decidableHeaderFree d ls)

theorem segment_of_headerFree {ls : List Line} (h : d.HeaderFree ls) : d.segment ls = (ls, []) := by
  induction ls with
  | nil => rfl
  | cons l ls ih => rw [segment_cons_of_none h.1, ih h.2]

/-- Fewer rows have no more headers. -/
theorem HeaderFree.of_append {xs ys : List Line} (h : d.HeaderFree (xs ++ ys)) :
    d.HeaderFree xs := by
  induction xs with
  | nil => trivial
  | cons l xs ih =>
    refine ⟨?_, ih h.2⟩
    cases xs with
    | nil => exact matchHeader_none_of_none h.1
    | cons u xs => exact h.1

theorem HeaderFree.of_append_right {xs ys : List Line} (h : d.HeaderFree (xs ++ ys)) :
    d.HeaderFree ys := by
  induction xs with
  | nil => exact h
  | cons l xs ih => exact ih h.2

theorem HeaderFree.matchHeader_none {ls : List Line} (h : d.HeaderFree ls) {l : Line}
    (hl : l ∈ ls) : d.matchHeader l none = none := by
  induction ls with
  | nil => simp at hl
  | cons m ls ih =>
    rcases List.mem_cons.1 hl with rfl | hl
    · exact matchHeader_none_of_none h.1
    · exact ih h.2 hl

/-- Rows without a header stay so where they meet, unless the last one makes a header with the row
below it. -/
theorem HeaderFree.append {xs ys : List Line} (hx : d.HeaderFree xs) (hy : d.HeaderFree ys)
    (hseam : ∀ l, xs.getLast? = some l → d.matchHeader l ys.head? = none) :
    d.HeaderFree (xs ++ ys) := by
  induction xs with
  | nil => exact hy
  | cons l xs ih =>
    refine ⟨?_, ih hx.2 fun m hm => hseam m (by rw [List.getLast?_cons, hm]; rfl)⟩
    cases xs with
    | nil => exact hseam l rfl
    | cons u xs => exact hx.1

theorem HeaderFree.append_of_underlinesNothing {xs ys : List Line} (hx : d.HeaderFree xs)
    (hy : d.HeaderFree ys) (h : ∀ u, ys.head? = some u → d.UnderlinesNothing u) :
    d.HeaderFree (xs ++ ys) := by
  refine hx.append hy fun l hl => ?_
  have hnone := hx.matchHeader_none (List.mem_of_getLast? hl)
  cases hu : ys.head? with
  | none => exact hnone
  | some u => exact (h u hu l).trans hnone

theorem HeaderFree.append_nil {xs : List Line} (h : d.HeaderFree xs) :
    d.HeaderFree (xs ++ [[]]) := by
  refine h.append_of_underlinesNothing ⟨matchHeader_of_isBlank rfl _, trivial⟩ ?_
  rintro u hu
  obtain rfl := Option.some.inj hu
  exact underlinesNothing_of_isBlank rfl

theorem headerFree_segment_fst (ls : List Line) : d.HeaderFree (d.segment ls).1 := by
  induction ls with
  | nil => trivial
  | cons l ls ih =>
    cases hm : d.matchHeader l ls.head? with
    | some kn =>
      rw [segment_cons_of_some hm]
      trivial
    | none =>
      rw [segment_cons_of_none hm]
      refine ⟨?_, ih⟩
      -- the row below is the same, or it opens a block and there is none
      cases ls with
      | nil => exact hm
      | cons u ls =>
        cases hu : d.matchHeader u ls.head? with
        | none =>
          rw [segment_cons_of_none hu]
          exact hm
        | some kn =>
          rw [segment_cons_of_some hu]
          exact matchHeader_none_of_none hm

/-- No block holds a header besides its own. -/
theorem headerFree_of_mem_segment {ls : List Line} {b : Block} (h : b ∈ (d.segment ls).2) :
    d.HeaderFree b.body := by
  induction hn : ls.length using Nat.strong_induction_on generalizing ls with
  | _ n ih =>
    subst hn
    cases ls with
    | nil => simp [segment] at h
    | cons l ls =>
      cases hm : d.matchHeader l ls.head? with
      | none =>
        rw [segment_cons_of_none hm] at h
        exact ih _ (by simp) h rfl
      | some kn =>
        rw [segment_cons_of_some hm] at h
        rcases List.mem_cons.1 h with rfl | h
        · exact headerFree_segment_fst _
        · exact ih _ (by simp only [List.length_cons, List.length_drop]; omega) h rfl

/-- The rows in front of the first header are the first ones. -/
theorem prefix_segment_fst (ls : List Line) : (d.segment ls).1 <+: ls := by
  induction ls with
  | nil => exact List.prefix_rfl
  | cons l ls ih =>
    cases hm : d.matchHeader l ls.head? with
    | none =>
      rw [segment_cons_of_none hm]
      exact (List.prefix_cons_inj l).2 ih
    | some kn =>
      rw [segment_cons_of_some hm]
      exact List.nil_prefix

theorem segment_fst_sublist (ls : List Line) : (d.segment ls).1.Sublist ls :=
  (prefix_segment_fst ls).sublist

/-- The rows of a block are some of those that are divided. -/
theorem body_sublist_of_mem_segment {ls : List Line} {b : Block} (h : b ∈ (d.segment ls).2) :
    b.body.Sublist ls := by
  induction hn : ls.length using Nat.strong_induction_on generalizing ls with
  | _ n ih =>
    subst hn
    cases ls with
    | nil => simp [segment] at h
    | cons l ls =>
      cases hm : d.matchHeader l ls.head? with
      | none =>
        rw [segment_cons_of_none hm] at h
        exact (ih _ (by simp) h rfl).trans (List.sublist_cons_self l ls)
      | some kn =>
        rw [segment_cons_of_some hm] at h
        have hdrop : (ls.drop (kn.2 - 1)).Sublist (l :: ls) :=
          (List.drop_sublist _ ls).trans (List.sublist_cons_self l ls)
        rcases List.mem_cons.1 h with rfl | h
        · exact (segment_fst_sublist _).trans hdrop
        · have hlt : (ls.drop (kn.2 - 1)).length < (l :: ls).length := by
            simp only [List.length_cons, List.length_drop]
            omega
          exact (ih _ hlt h rfl).trans hdrop

/-- Where there is a header, fewer rows stand in front of it. -/
theorem length_segment_fst_lt {ls : List Line} (h : ¬ d.HeaderFree ls) :
    (d.segment ls).1.length < ls.length := by
  induction ls with
  | nil => exact absurd trivial h
  | cons l ls ih =>
    cases hm : d.matchHeader l ls.head? with
    | none =>
      rw [segment_cons_of_none hm, List.length_cons, List.length_cons]
      have hlt := ih fun hf => h ⟨hm, hf⟩
      omega
    | some kn =>
      rw [segment_cons_of_some hm]
      exact Nat.succ_pos _

/-- A block has fewer rows than what is divided, one of which is its header. -/
theorem length_body_lt_of_mem_segment {ls : List Line} {b : Block} (h : b ∈ (d.segment ls).2) :
    b.body.length < ls.length := by
  induction hn : ls.length using Nat.strong_induction_on generalizing ls with
  | _ n ih =>
    subst hn
    cases ls with
    | nil => simp [segment] at h
    | cons l ls =>
      cases hm : d.matchHeader l ls.head? with
      | none =>
        rw [segment_cons_of_none hm] at h
        exact (ih ls.length (by simp) h rfl).trans (Nat.lt_succ_self _)
      | some kn =>
        rw [segment_cons_of_some hm] at h
        have hlt : (ls.drop (kn.2 - 1)).length < (l :: ls).length := by
          simp only [List.length_cons, List.length_drop]
          omega
        rcases List.mem_cons.1 h with rfl | h
        · exact (segment_fst_sublist _).length_le.trans_lt hlt
        · exact (ih _ hlt h rfl).trans hlt

/-- Rows that share a margin hold no header. -/
theorem headerFree_of_margin {ls : List Line} (h : margin ls ≠ 0) : d.HeaderFree ls := by
  have hnone : ∀ l ∈ ls, ∀ next, d.matchHeader l next = none := by
    intro l hl next
    cases hb : isBlank l with
    | true => exact matchHeader_of_isBlank hb next
    | false =>
      have hle := (exists_indentation_eq_margin h).2 l hl hb
      rw [Option.eq_none_iff_forall_ne_some]
      rintro ⟨j, n⟩ hm
      obtain ⟨c, s, hcs, hc, -⟩ := exists_cons_of_matchHeader hm
      obtain ⟨w, hw, -⟩ := exists_trimEnd_append l
      rw [hcs] at hw
      have hzero : indentation l = 0 := by
        rw [← hw, List.cons_append, indentation, List.takeWhile_cons_of_neg (by simp [hc])]
        rfl
      omega
  clear h
  induction ls with
  | nil => trivial
  | cons l ls ih =>
    exact ⟨hnone l List.mem_cons_self _, ih fun m hm => hnone m (List.mem_cons_of_mem l hm)⟩

/-! ### Dividing rows piece by piece -/

/-- Divided rows with more of them below, whose first lines belong to the block that is open. -/
def extend (pre : List Line) : List Block → List Line × List Block → List Line × List Block
  | [], more => (pre ++ more.1, more.2)
  | b :: bs, more =>
    let below := extend b.body bs more
    (pre, ⟨b.kind, b.header, below.1⟩ :: below.2)

theorem extend_cons_pre (l : Line) (pre : List Line) (bs : List Block)
    (more : List Line × List Block) :
    extend (l :: pre) bs more = (l :: (extend pre bs more).1, (extend pre bs more).2) := by
  cases bs <;> rfl

/-- What starts with a block leaves the open block as it is. -/
theorem extend_of_fst_nil (pre : List Line) (bs cs : List Block) :
    extend pre bs ([], cs) = (pre, bs ++ cs) := by
  induction bs generalizing pre with
  | nil => simp [extend]
  | cons b bs ih => simp [extend, ih]

/-- **Rows are divided piece by piece**, unless a row underlines the piece above it. -/
theorem segment_append {xs ys : List Line} (hy : ∀ u, ys.head? = some u → d.UnderlinesNothing u) :
    d.segment (xs ++ ys) = extend (d.segment xs).1 (d.segment xs).2 (d.segment ys) := by
  induction hn : xs.length using Nat.strong_induction_on generalizing xs with
  | _ n ih =>
    subst hn
    cases xs with
    | nil => simp [segment, extend]
    | cons l xs =>
      have hhead : d.matchHeader l (xs ++ ys).head? = d.matchHeader l xs.head? := by
        cases xs with
        | cons u xs => rfl
        | nil =>
          cases hys : ys.head? with
          | none => rw [List.nil_append, hys, List.head?_nil]
          | some u => rw [List.nil_append, hys, hy u hys l, List.head?_nil]
      rw [List.cons_append]
      cases hm : d.matchHeader l xs.head? with
      | none =>
        rw [segment_cons_of_none hm, segment_cons_of_none (hhead.trans hm), extend_cons_pre,
          ih _ (by simp) rfl]
      | some kn =>
        obtain ⟨k, n⟩ := kn
        rw [segment_cons_of_some hm, segment_cons_of_some (hhead.trans hm)]
        -- the header takes no row of the piece below
        have hdrop : (xs ++ ys).drop (n - 1) = xs.drop (n - 1) ++ ys := by
          rcases height_of_matchHeader hm with rfl | ⟨rfl, u, hu⟩
          · simp
          · cases xs with
            | nil => simp at hu
            | cons v xs => rfl
        rw [hdrop, ih _ (by simp only [List.length_cons, List.length_drop]; omega) rfl]
        rfl

/-! ### Written blocks -/

/-- A header of a section in the form of the dialect, without its underline. -/
def Heads (d : Dialect) (form : HeaderForm) (k : Section) (l : Line) : Prop :=
  match form with
  | .underlined => d.Names k l
  | .colon => d.Names k l ∨ ∃ name, d.Names k name ∧ l = name ++ [':']

theorem Heads.matchHeader_underlined {l : Line} (hd : d.headerForm = some .underlined)
    (h : d.Heads .underlined k l) :
    d.matchHeader l (some (List.replicate l.length '-')) = some (k, 2) := by
  have hl := Names.isLabel h
  have hu : trimEnd (List.replicate l.length '-') = List.replicate l.length '-' := by
    rw [trimEnd_eq_self_iff]
    intro c hc
    have hmem := List.mem_of_getLast? hc
    rw [(List.mem_replicate.1 hmem).2]
    decide
  have hsame : isUnderline l (List.replicate l.length '-') = true := by simp [isUnderline]
  have hk : d.resolve? l = some k := resolve?_eq_some_iff.2 h
  rw [matchHeader_eq hd]
  simp only [headerSection?, hl.tidy.trimmed, hu, hk, hsame, if_true]
  rfl

theorem Heads.matchHeader_colon {l : Line} (hd : d.headerForm = some .colon)
    (h : d.Heads .colon k l) (next : Option Line) : d.matchHeader l next = some (k, 1) := by
  rw [matchHeader_eq hd, headerSection?]
  rcases h with h | ⟨name, hn, rfl⟩
  · rw [h.isLabel.tidy.trimmed, h.isLabel.dropColon_eq, resolve?_eq_some_iff.2 h]
    rfl
  · have ht : trimEnd (name ++ [':']) = name ++ [':'] := dropEndWhile_concat_neg name (by decide)
    rw [ht, dropColon_concat, resolve?_eq_some_iff.2 hn]
    rfl

end Dialect

/-- The rows of a block as it is written: its header, the underline where the form has one, and
its body. -/
def Block.rows (form : HeaderForm) (b : Block) : List Line :=
  match form with
  | .underlined => b.header :: List.replicate b.header.length '-' :: b.body
  | .colon => b.header :: b.body

/-- A block with headers in its body, as the blocks that it is read as. -/
def Block.spread (d : Dialect) (b : Block) : List Block :=
  ⟨b.kind, b.header, (d.segment b.body).1⟩ :: (d.segment b.body).2

theorem Block.spread_of_headerFree {d : Dialect} {b : Block} (h : d.HeaderFree b.body) :
    b.spread d = [b] := by
  rw [spread, Dialect.segment_of_headerFree h]

theorem Block.body_sublist_of_mem_spread {d : Dialect} {b c : Block} (h : c ∈ b.spread d) :
    c.body.Sublist b.body := by
  rcases List.mem_cons.1 h with rfl | h
  · exact Dialect.segment_fst_sublist b.body
  · exact Dialect.body_sublist_of_mem_segment h

/-- Where a block holds another header, what it is read as has fewer rows than the block. -/
theorem Block.length_lt_of_mem_spread {d : Dialect} {b c : Block} (hb : ¬ d.HeaderFree b.body)
    (h : c ∈ b.spread d) : c.body.length < b.body.length := by
  rcases List.mem_cons.1 h with rfl | h
  · exact Dialect.length_segment_fst_lt hb
  · exact Dialect.length_body_lt_of_mem_segment h

namespace Dialect

variable {d : Dialect} {form : HeaderForm}

theorem segment_rows_append (hd : d.headerForm = some form) {b : Block}
    (hb : d.Heads form b.kind b.header) (more : List Line) :
    d.segment (b.rows form ++ more) =
      ([], ⟨b.kind, b.header, (d.segment (b.body ++ more)).1⟩ ::
        (d.segment (b.body ++ more)).2) := by
  cases form with
  | underlined =>
    have hm : d.matchHeader b.header
        (List.replicate b.header.length '-' :: (b.body ++ more)).head? = some (b.kind, 2) :=
      hb.matchHeader_underlined hd
    exact segment_cons_of_some hm
  | colon => exact segment_cons_of_some (hb.matchHeader_colon hd _)

theorem head?_flatMap_rows (hd : d.headerForm = some form) {bs : List Block}
    (hb : ∀ b ∈ bs, d.Heads form b.kind b.header) :
    ∀ u, (bs.flatMap (Block.rows form)).head? = some u → d.UnderlinesNothing u := by
  intro u hu
  cases bs with
  | nil => simp at hu
  | cons b bs =>
    have hb' := hb b List.mem_cons_self
    cases form with
    | underlined =>
      obtain rfl := Option.some.inj hu
      exact underlinesNothing_of_matchHeader (hb'.matchHeader_underlined hd)
    | colon =>
      obtain rfl := Option.some.inj hu
      exact underlinesNothing_of_matchHeader (hb'.matchHeader_colon hd none)

/-- **Written blocks come apart where they were put together.** -/
theorem segment_flatMap_rows (hd : d.headerForm = some form) {bs : List Block}
    (hb : ∀ b ∈ bs, d.Heads form b.kind b.header) :
    d.segment (bs.flatMap (Block.rows form)) = ([], bs.flatMap (Block.spread d)) := by
  induction bs with
  | nil => rfl
  | cons b bs ih =>
    have hbs : ∀ c ∈ bs, d.Heads form c.kind c.header :=
      fun c hc => hb c (List.mem_cons_of_mem b hc)
    rw [List.flatMap_cons, List.flatMap_cons, segment_rows_append hd (hb b List.mem_cons_self),
      segment_append (head?_flatMap_rows hd hbs), ih hbs, extend_of_fst_nil]
    rfl

/-- Rows in front of written blocks are divided as they would be alone. -/
theorem segment_append_flatMap_rows (hd : d.headerForm = some form) (pre : List Line)
    {bs : List Block} (hb : ∀ b ∈ bs, d.Heads form b.kind b.header) :
    d.segment (pre ++ bs.flatMap (Block.rows form)) =
      ((d.segment pre).1, (d.segment pre).2 ++ bs.flatMap (Block.spread d)) := by
  rw [segment_append (head?_flatMap_rows hd hb), segment_flatMap_rows hd hb, extend_of_fst_nil]

end Dialect

end Docstring
