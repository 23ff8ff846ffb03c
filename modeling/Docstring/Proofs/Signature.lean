import Docstring.Proofs.Kept
import Docstring.Proofs.Lookalikes
import Docstring.Proofs.Rewriting

/-!
# Parameters that went stale

A merge beside known parameters drops the items of any other. Those that it keeps are read again
under no other names (`ItemMap.fst_mem_keys_of_parseBody`), so the merged docstring tells of no
stale parameter, unless a row in some section looks like a header of the parameters
(`swept_docs`). A docstring that meets no other is kept to the letter, stale parameters and all. So
it is the last merge of a rewritten member that decides: a member that had no docstring before it
has that of the ancestor as it stands, and any other is swept (`inherit_swept`).
-/

namespace Docstring

open Text

variable {d : Dialect} {form : HeaderForm} {k : Section} {a b m t : Text}

/-! ### Names of items that are read again -/

namespace Item

/-- The name of an item that is grouped stands at the start of one of the rows. -/
theorem exists_start?_of_mem_group {ls : List Line} {e : Text × Text} (he : e ∈ (group ls).2) :
    ∃ r ∈ ls, ∃ tail, start? r = some (e.1, tail) := by
  induction ls with
  | nil => simp [group] at he
  | cons l ls ih =>
    have hbelow : e ∈ (group ls).2 → ∃ r ∈ l :: ls, ∃ tail, start? r = some (e.1, tail) := by
      intro he
      obtain ⟨r, hr, hs⟩ := ih he
      exact ⟨r, List.mem_cons_of_mem l hr, hs⟩
    rw [group] at he
    cases hs : start? l with
    | none => exact hbelow (by simpa [hs] using he)
    | some p =>
      obtain ⟨name, tail⟩ := p
      rw [hs] at he
      rcases List.mem_cons.1 he with rfl | he
      · exact ⟨l, List.mem_cons_self, tail, hs⟩
      · exact hbelow he

/-- The same of items of which the first starts the first row. -/
theorem exists_start?_of_mem_ofLines {l name tail : Line} (hs : start? l = some (name, tail))
    {ls : List Line} {e : Text × Text} (he : e ∈ ofLines (l :: ls)) :
    ∃ r ∈ l :: ls, ∃ tail, start? r = some (e.1, tail) := by
  rw [ofLines, find?_of_start? hs] at he
  rcases List.mem_cons.1 he with rfl | he
  · exact ⟨l, List.mem_cons_self, tail, hs⟩
  · obtain ⟨r, hr, hs⟩ := exists_start?_of_mem_group he
    exact ⟨r, List.mem_cons_of_mem l hr, hs⟩

/-- A name at the start of a row of whole items is that of one of the items. -/
theorem fst_mem_of_start? {es : List (Text × Text)} (h : ∀ e ∈ es, Whole e) {r name tail : Line}
    (hr : r ∈ es.flatMap rows) (hs : start? r = some (name, tail)) : name ∈ es.map Prod.fst := by
  obtain ⟨e, he, hr⟩ := List.mem_flatMap.1 hr
  obtain ⟨tail', below, hrows, hs', hnone⟩ := (h e he).single
  rw [hrows] at hr
  rcases List.mem_cons.1 hr with rfl | hr
  · rw [hs'] at hs
    rw [← (Prod.mk.inj (Option.some.inj hs)).1]
    exact List.mem_map_of_mem he
  · rw [hnone r hr] at hs
    simp at hs

end Item

namespace ItemMap

/-- **Whole items are read again under no other names**, up to any row and with any padding. -/
theorem fst_mem_keys_of_parseBody {m : ItemMap} (h : Whole m) (hne : m.entries ≠ []) {w : Text}
    (hw : isBlank w = true) (htab : '\t' ∉ w) (hnewline : '\n' ∉ w) {ls : List Line}
    (hls : ls <+: m.entries.flatMap Item.rows ++ [[]]) {e : Text × Text}
    (he : e ∈ (parseBody (Body.proseOf (ls.map (padRow w)))).entries) : e.1 ∈ m.keys := by
  obtain ⟨first, es, hes⟩ := List.exists_cons_of_ne_nil hne
  obtain ⟨tail, below, hrows, hs, -⟩ := (h first (hes ▸ List.mem_cons_self)).single
  have htidy : ∀ r ∈ ls, Tidy r := fun r hr => h.tidy_rows r (hls.mem hr)
  cases ls with
  | nil =>
    have hempty : (parseBody (Body.proseOf ([].map (padRow w)))).entries = [] := rfl
    rw [hempty] at he
    simp at he
  | cons l ls =>
    have hl : Item.start? l = some (first.1, tail) := by
      rw [hes, List.flatMap_cons, hrows, List.cons_append, List.cons_append,
        List.cons_prefix_cons] at hls
      rw [hls.1, hs]
    rw [parseBody_map_padRow hw htab hnewline hl htidy] at he
    obtain ⟨r, hr, tail', hr'⟩ := Item.exists_start?_of_mem_ofLines hl (OrderedMap.mem_ofList he)
    have hmem : r ∈ l :: ls := by
      rcases List.mem_cons.1 hr with rfl | hr
      · exact List.mem_cons_self
      · exact List.mem_cons_of_mem l ((dropEndWhile_prefix_self _ ls).mem hr)
    rcases List.mem_append.1 (hls.mem hmem) with hr | hr
    · exact Item.fst_mem_of_start? h hr hr'
    · rw [List.mem_singleton.1 hr] at hr'
      simp [Item.start?] at hr'

end ItemMap

/-! ### Parameters of a merged docstring -/

/-- Whether no item of the parameters of a document is stale beside the given ones. -/
def Document.Current (params : List Text) (p : Document) : Prop :=
  ∀ m ∈ p.items? .parameters, ∀ name ∈ m.keys, ItemMap.isLive params name = true

instance (params : List Text) (p : Document) : Decidable (p.Current params) :=
  inferInstanceAs (Decidable (∀ m ∈ p.items? .parameters, ∀ name ∈ m.keys,
    ItemMap.isLive params name = true))

namespace Merge

open Document

variable {p q : Document} {policy : Policy} {params : List Text} {x : Option Text} {s : Text}

theorem current_of_items {n : ItemMap} (hget : p.get? .parameters = some (.items n))
    (h : ∀ e ∈ n.entries, ItemMap.isLive params e.1 = true) : Current params p := by
  intro n' hn' name hname
  rw [items?, hget, Option.mem_def] at hn'
  obtain rfl := Option.some.inj hn'
  obtain ⟨e, he, rfl⟩ := List.mem_map.1 hname
  exact h e he

/-- What is written of whole items is read under no other names, with its padding or without. -/
theorem fst_mem_keys_of_segment {n : ItemMap} (h : ItemMap.Whole n) (hne : n.entries ≠ [])
    (hk : k ≠ .shortSummary) {i : Nat} (hi : i = 0 ∨ i = d.itemPadding.length) {e : Text × Text}
    (he : e ∈ (ItemMap.parseBody
      (Body.proseOf (d.segment (rowsRead i k (n.render d))).1)).entries) : e.1 ∈ n.keys := by
  have hprefix := Dialect.prefix_segment_fst (d := d) (rowsRead i k (n.render d))
  have hpad : rows (n.render d) ++ [[]] =
      (n.entries.flatMap Item.rows ++ [[]]).map (padRow d.itemPadding) := by
    rw [ItemMap.rows_render d hne, List.map_append]
    rfl
  rw [rowsRead, if_neg hk, hpad] at hprefix he
  rcases hi with rfl | rfl
  · rw [map_strip_zero] at hprefix he
    obtain ⟨ls, hls, hrows⟩ := List.prefix_map_iff.1 hprefix
    rw [hrows] at he
    exact ItemMap.fst_mem_keys_of_parseBody h hne (ItemMap.isBlank_itemPadding d)
      (ItemMap.tab_notMem_itemPadding d) (ItemMap.newline_notMem_itemPadding d) hls he
  · rw [map_strip_map_padRow (ItemMap.isBlank_itemPadding d) h.tidy_rows] at hprefix he
    rw [← map_padRow_nil (d.segment _).1] at he
    exact ItemMap.fst_mem_keys_of_parseBody h hne (w := []) rfl (by simp) (by simp) hprefix he

/-- A docstring that loses a margin loses the padding of its items, if it has any. -/
theorem margin_of_items {f : Section → Body} {n : ItemMap} (hf : Legible d f)
    (hd : d.headerForm = some form) (hk : k ∈ d.sections) (hs : k ≠ .shortSummary)
    (hm : compose d f = some m) (hn : f k = .items n) (h : ItemMap.Whole n)
    (hne : n.entries ≠ []) :
    margin (rows m).tail = 0 ∨ margin (rows m).tail = d.itemPadding.length := by
  by_cases h0 : margin (rows m).tail = 0
  · exact .inl h0
  have ht : (f k).render? d = some (n.render d) := hn ▸ Body.render?_items_of_ne_nil hne
  rcases written_of_margin hd hm h0 hk ht with ⟨hs', -⟩ | ⟨-, rfl, ho, hw⟩
  · exact absurd hs' hs
  · obtain ⟨e, es, hes⟩ := List.exists_cons_of_ne_nil hne
    obtain ⟨tail, below, hrows, hstart, -⟩ := (h e (hes ▸ List.mem_cons_self)).single
    obtain ⟨c, r, hc, hspace, -⟩ := Item.exists_cons_of_start? hstart
    have hmem : c :: r ∈ n.entries.flatMap Item.rows := by
      rw [hes, List.flatMap_cons, hrows, hc]
      exact List.mem_cons_self
    have hvisible : ∃ l ∈ n.entries.flatMap Item.rows, isBlank l = false :=
      ⟨c :: r, hmem, by simp [hspace]⟩
    refine .inr ?_
    rw [(get?_parse_single hf hd hk hk hm ho hw).1, ItemMap.rows_render d hne,
      margin_map_padRow (ItemMap.isBlank_itemPadding d) hvisible,
      margin_of_mem_cons hmem hspace, Nat.add_zero]

theorem parameters_mem_sections (hd : d.headerForm = some form) : .parameters ∈ d.sections := by
  cases d <;> simp [Dialect.headerForm] at hd <;> decide

theorem isLive_of_mem_keys_liveItems {n : ItemMap} {name : Text}
    (h : name ∈ (liveItems (some params) .parameters n).keys) :
    ItemMap.isLive params name = true := by
  obtain ⟨e, he, rfl⟩ := List.mem_map.1 h
  exact (List.mem_filter.1 he).2

/-- No parameter that two documents merge to is stale, unless they are read from below a row of a
section that looks like their header. -/
theorem current_of_compose (hp : Read d p) (hq : Read d q) (hd : d.headerForm = some form)
    (hm : compose d (kept d policy (some params) p q) = some m) :
    Current params (parse d (some m)) ∨
      ∃ c, Lookalike d (body d policy (some params) p q) m c ∧ c.kind = .parameters ∧
        (parse d (some m)).get? .parameters = some (Body.ofLines .parameters c.body) := by
  have hk := parameters_mem_sections hd
  have hf : Legible d (kept d policy (some params) p q) := legible_kept hp hq
  have htexts : (fun j => (kept d policy (some params) p q j).render? d) =
      body d policy (some params) p q :=
    funext fun j => (body_eq_render?_kept policy (some params) p q j).symm
  rw [← htexts]
  rcases get?_parse_cases hf hd hk hm with hget | ⟨t, ht, hget⟩ | hlook
  · exact .inl (current_of_items hget (by simp))
  · -- the items are read from the rows that they are written in
    have hwhole : ItemMap.Whole (liveItems (some params) .parameters
        (items (mergesWithin d policy .parameters) .parameters p q)) :=
      whole_liveItems hp hq hk rfl _
    have hbody : kept d policy (some params) p q .parameters = .items (liveItems (some params)
      .parameters (items (mergesWithin d policy .parameters) .parameters p q)) := rfl
    have hne := Body.entries_ne_nil_of_render? (hbody ▸ ht)
    rw [hbody, Body.render?_items_of_ne_nil hne] at ht
    obtain rfl := Option.some.inj ht
    have hmargin := margin_of_items hf hd hk (by decide) hm hbody hwhole hne
    exact .inl (current_of_items hget fun e he => isLive_of_mem_keys_liveItems
      (fst_mem_keys_of_segment hwhole hne (by decide) hmargin he))
  · exact .inr hlook

/-! ### One merge after another -/

/-- A docstring merged with one of an ancestor, the parameters known: the ancestor's to the letter
where there is none to merge with it, else without stale parameters, unless they are read from below
a row of a section that looks like their header. -/
def Swept (d : Dialect) (policy : Policy) (params : List Text) (s : Text) (x y : Option Text) :
    Prop :=
  isBlankDoc x = true ∧ y = some s ∨
  ∃ b, x = some b ∧ isBlank b = false ∧ y = docs d policy (some params) (some s) (some b) ∧
    ∀ m, y = some m → Current params (parse d (some m)) ∨
      ∃ c, Lookalike d (body d policy (some params)
          (withoutStaleRaises (parse d (some s)) (parse d (some b))) (parse d (some b))) m c ∧
        c.kind = .parameters ∧
        (parse d (some m)).get? .parameters = some (Body.ofLines .parameters c.body)

/-- **A merge with a visible docstring of an ancestor sweeps stale parameters.** -/
theorem swept_docs (hd : d.headerForm = some form) (policy : Policy) (params : List Text)
    (hs : isBlank s = false) (x : Option Text) :
    Swept d policy params s x (docs d policy (some params) (some s) x) := by
  cases hx : isBlankDoc x with
  | true => exact .inl ⟨hx, docs_of_blank_right hs hx⟩
  | false =>
    obtain ⟨b, rfl, hb⟩ := exists_of_isBlankDoc hx
    refine .inr ⟨b, rfl, hb, rfl, fun m hm => ?_⟩
    rw [docs_eq_compose_kept hd policy (some params) hs hb] at hm
    exact current_of_compose (read_withoutStaleRaises (read_parse hd s) _) (read_parse hd b) hd hm

end Merge

namespace Inheritance

open TypeDescriptor Merge

variable {o : Inheritance} {policy : Policy} {params : List Text} {s : Text}

theorem fold_append (s : Style) (params : Option (List Text)) (as : List (Option Text))
    (a x : Option Text) :
    fold s params (as ++ [a]) x = s.merge params a (fold s params as x) := by
  rw [fold, List.foldl_append]
  rfl

/-- A member that is rewritten at all is merged with some docstring, where any is documented. -/
theorem sources_ne_nil {as : List TypeDescriptor} {m : Member} (ha : o.applies m = true)
    (hdoc : documented as m.name ≠ []) : o.sources as m ≠ [] := by
  rw [sources, if_pos ha]
  cases o.lookup with
  | chain => exact hdoc
  | nearest =>
    obtain ⟨s, ss, hss⟩ := List.exists_cons_of_ne_nil hdoc
    rw [hss]
    exact List.cons_ne_nil s _

/-- What becomes of a member with known parameters among the ancestors of its type: where none of
them documents it, it keeps its docstring; else its last merge sweeps stale parameters. -/
def MemberSwept (o : Inheritance) (d : Dialect) (policy : Policy) (as : List TypeDescriptor)
    (m n : Member) : Prop :=
  n = { m with doc := n.doc } ∧ ∀ ps, m.params = some ps → o.applies m = true →
    (documented as m.name = [] → n.doc = m.doc) ∧
    (documented as m.name ≠ [] → ∃ earlier s, o.sources as m = earlier ++ [s] ∧
      Swept d policy ps s (fold o.style (some ps) (earlier.map some) m.doc) n.doc)

/-- Whether no member with known parameters that is rewritten and that an ancestor documents tells
of a stale one. -/
def AllCurrent (o : Inheritance) (d : Dialect) (r : TypeDescriptor) : Prop :=
  ∀ n ∈ r.members, o.applies n = true → documented r.ancestors n.name ≠ [] →
    ∀ ps ∈ n.params, Document.Current ps (Document.parse d n.doc)

instance (o : Inheritance) (d : Dialect) (r : TypeDescriptor) : Decidable (o.AllCurrent d r) :=
  inferInstanceAs (Decidable (∀ n ∈ r.members, o.applies n = true →
    documented r.ancestors n.name ≠ [] →
    ∀ ps ∈ n.params, Document.Current ps (Document.parse d n.doc)))

theorem memberSwept_member (hs : o.style = .builtin d policy) (hd : d.headerForm = some form)
    (as : List TypeDescriptor) (m : Member) : MemberSwept o d policy as m (o.member as m) := by
  refine ⟨rfl, fun ps hps ha => ⟨fun hnone => ?_, fun hdoc => ?_⟩⟩
  · have hsources : o.sources as m = [] := by
      rw [List.eq_nil_iff_forall_not_mem]
      intro s hmem
      have hmem := mem_documented_of_mem_sources hmem
      rw [hnone] at hmem
      simp at hmem
    rw [member_eq_self hsources]
  · obtain ⟨earlier, s, hsources⟩ :=
      (List.eq_nil_or_concat (o.sources as m)).resolve_left (sources_ne_nil ha hdoc)
    rw [List.concat_eq_append] at hsources
    refine ⟨earlier, s, hsources, ?_⟩
    have hmem : s ∈ o.sources as m := by simp [hsources]
    have hvisible := (exists_member_of_mem_documented (mem_documented_of_mem_sources hmem)).1
    have hdoc : (o.member as m).doc =
        docs d policy (some ps) (some s) (fold o.style (some ps) (earlier.map some) m.doc) := by
      rw [member, hps, hsources, List.map_append, List.map_singleton, fold_append, hs]
      rfl
    rw [hdoc]
    exact swept_docs hd policy ps hvisible _

end Inheritance

namespace TypeDescriptor

open Inheritance Merge Document

variable {d : Dialect} {form : HeaderForm} {policy : Policy}

/-- **Each member of a rewritten type with known parameters is swept.** In a built-in style over a
dialect with sections, whichever ancestors members inherit from and whether special members do so or
not, a member that is rewritten keeps its docstring where no ancestor documents it. Else it has the
docstring of the last ancestor that it was merged with to the letter, where there was none to merge
with it, or one that tells of no stale parameter, unless its parameters are read from below a row of
a section that looks like their header. -/
theorem inherit_swept {name : Text} (hs : (name, d, policy) ∈ Registry.builtins)
    (hd : d.headerForm = some form) (t : TypeDescriptor) (includeSpecial : Bool)
    (lookup : Lookup) :
    ∃ r, t.inherit ⟨.named name, includeSpecial, lookup⟩ .withBuiltins = .ok r ∧
      List.Forall₂
        (MemberSwept ⟨.builtin d policy, includeSpecial, lookup⟩ d policy r.ancestors)
        t.members r.members := by
  refine ⟨_, inherit_builtin hs t, ?_⟩
  rw [members_rewrite, List.forall₂_map_right_iff, List.forall₂_same]
  exact fun m _ => memberSwept_member rfl hd _ m

/-- A parameter that only the ancestor has is swept. -/
theorem inherit_swept_stale :
    let old := "Old.\n\nParameters\n----------\nx : int\ny : int".toList
    let parent : TypeDescriptor := ⟨"Parent".toList, none, [],
      [⟨['f'], .function, some old, none⟩]⟩
    let t : TypeDescriptor := ⟨"Child".toList, none, [parent],
      [⟨['f'], .function, some "New.".toList, some [['x']]⟩]⟩
    ∃ r n, t.inherit ⟨.named "numpy".toList, false, .nearest⟩ .withBuiltins = .ok r ∧
      r.members = [n] ∧ Swept .numpy .replace [['x']] old (some "New.".toList) n.doc ∧
      n.doc = some "New.\n\nParameters\n----------\nx : int".toList ∧
      Current [['x']] (parse .numpy n.doc) := by
  intro old parent t
  have hs : ("numpy".toList, .numpy, .replace) ∈ Registry.builtins := by decide
  obtain ⟨r, hr, hmembers⟩ := inherit_swept hs rfl t false .nearest
  have hrewrite := hr.symm.trans (inherit_builtin hs t)
  obtain rfl := Except.ok.inj hrewrite
  refine ⟨_, _, hr, rfl, ?_, by decide +kernel, by decide +kernel⟩
  cases hmembers with
  | cons hfirst _ =>
    obtain ⟨earlier, s, hsources, hswept⟩ :=
      (hfirst.2 [['x']] rfl (by decide)).2 (by decide +kernel)
    -- the parent alone is merged with
    have hone : earlier ++ [s] = [] ++ [old] := hsources.symm.trans (by decide +kernel)
    obtain ⟨rfl, hlast⟩ := List.append_inj' hone rfl
    exact List.singleton_inj.1 hlast ▸ hswept

/-- Stale parameters are told of where a docstring is kept to the letter, and where a row of some
items looks like a header of the parameters. -/
theorem not_allCurrent_inherit :
    (¬ ∀ (name : Text) (d : Dialect) (policy : Policy) (includeSpecial : Bool) (lookup : Lookup)
      (t r : TypeDescriptor), (name, d, policy) ∈ Registry.builtins → d.headerForm ≠ none →
      t.inherit ⟨.named name, includeSpecial, lookup⟩ .withBuiltins = .ok r →
      AllCurrent ⟨.builtin d policy, includeSpecial, lookup⟩ d r) ∧
    ¬ ∀ (name : Text) (d : Dialect) (policy : Policy) (includeSpecial : Bool) (lookup : Lookup)
      (t r : TypeDescriptor), (name, d, policy) ∈ Registry.builtins → d.headerForm ≠ none →
      t.inherit ⟨.named name, includeSpecial, lookup⟩ .withBuiltins = .ok r →
      (∀ m ∈ t.members, isBlankDoc m.doc = false) →
      AllCurrent ⟨.builtin d policy, includeSpecial, lookup⟩ d r := by
  have hs : ("numpy".toList, .numpy, .replace) ∈ Registry.builtins := by decide
  constructor
  · intro h
    let parent : TypeDescriptor := ⟨"Parent".toList, none, [], [⟨['f'], .function,
      some "Old.\n\nParameters\n----------\nx : int\ny : int".toList, none⟩]⟩
    let t : TypeDescriptor := ⟨"Child".toList, none, [parent],
      [⟨['f'], .function, none, some [['x']]⟩]⟩
    have hcurrent := h "numpy".toList .numpy .replace false .nearest t _ hs (by decide)
      (inherit_builtin hs t)
    exact absurd hcurrent (by decide +kernel)
  · intro h
    let parent : TypeDescriptor := ⟨"Parent".toList, none, [], [⟨['f'], .function,
      some ("Other Parameters\n----------------\n    Parameters\n    ----------\n" ++
        "    y : int").toList, none⟩]⟩
    let t : TypeDescriptor := ⟨"Child".toList, none, [parent],
      [⟨['f'], .function, some "New.".toList, some [['x']]⟩]⟩
    have hcurrent := h "numpy".toList .numpy .replace false .nearest t _ hs (by decide)
      (inherit_builtin hs t) (by decide +kernel)
    exact absurd hcurrent (by decide +kernel)

end TypeDescriptor

end Docstring
