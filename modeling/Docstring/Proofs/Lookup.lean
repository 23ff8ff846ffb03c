import Docstring.Proofs.Rewriting

/-!
# Nearest ancestors and chains of ancestors

In a chain that is rewritten with all ancestors, what an ancestor gives a member covers what any
further one gives it (`descending_documented`). So the nearest ancestor gives all that there is to
give, and a member that inherits from it alone comes out the same (`member_nearest_eq`). The two
lookups rewrite a settled chain alike (`rewrite_nearest_eq`, `inherit_nearest_eq_chain`).
-/

namespace Docstring

open Text

namespace Inheritance

open TypeDescriptor Document Merge

variable {d : Dialect} {form : HeaderForm} {o : Inheritance} {s : Style} {includeSpecial : Bool}
  {t : TypeDescriptor}

/-! ### What ancestors document -/

/-- The first member of a name is the one of that name, rewritten. -/
theorem member?_rewrite (name : Text) :
    (rewrite o t).member? name = (t.member? name).map (o.member (rewrite o t).ancestors) := by
  rw [member?, members_rewrite, List.find?_map]
  rfl

/-- What the first of some types documents comes first. -/
theorem documented_cons (u : TypeDescriptor) (us : List TypeDescriptor) (name : Text) :
    documented (u :: us) name =
      (((u.member? name).bind Member.doc).filter fun doc => !isBlank doc).toList ++
        documented us name := by
  rw [documented, List.filterMap_cons]
  cases ((u.member? name).bind Member.doc).filter fun doc => !isBlank doc <;> rfl

/-- Whether a member is rewritten depends on its name, plain data apart. -/
theorem applies_of_name_eq {m n : Member} (hname : n.name = m.name) (hn : n.kind ≠ .data)
    (h : o.applies m = true) : o.applies n = true := by
  have hspecial : n.isSpecial = m.isSpecial := by rw [Member.isSpecial, Member.isSpecial, hname]
  rw [applies, Bool.and_eq_true] at h ⊢
  exact ⟨by simpa [MemberKind.inheritsDocs] using hn, hspecial ▸ h.2⟩

/-- A chain of types with names of their own, the members of which are all rewritten, from settled
docstrings. -/
structure SettledChain (d : Dialect) (t : TypeDescriptor) : Prop where
  /-- Each type has at most one base. -/
  isChain : t.IsChain
  /-- No two types have a name in common. -/
  names : (t.types.map TypeDescriptor.name).Nodup
  /-- No member is plain data. -/
  kinds : ∀ u ∈ t.types, ∀ m ∈ u.members, m.kind ≠ .data
  /-- Each member has a settled docstring, and its parameters are not known. -/
  members : ∀ u ∈ t.types, ∀ m ∈ u.members, Settled d m.doc ∧ m.params = none

theorem SettledChain.of_mem_bases {b : TypeDescriptor} (h : SettledChain d t) (hb : b ∈ t.bases) :
    SettledChain d b where
  isChain := h.isChain.of_mem_bases hb
  names := nodup_names_of_mem_bases hb h.names
  kinds u hu := h.kinds u (mem_types_of_mem_bases hb hu)
  members u hu := h.members u (mem_types_of_mem_bases hb hu)

/-- The ancestors that a rewritten type has are settled like the types themselves. -/
theorem SettledChain.ancestors_rewrite (h : SettledChain d t) (hs : o.style = .builtin d .replace)
    (hd : d.headerForm = some form) :
    ∀ v ∈ (rewrite o t).ancestors, ∀ m ∈ v.members, Settled d m.doc ∧ m.params = none := by
  intro v hv
  refine settled_members_rewrite hs hd h.members v ?_
  rw [types_rewrite_of_isChain h.isChain h.names]
  exact List.mem_cons_of_mem _ hv

/-- With all ancestors, the member of a rewritten type covers what the ancestors document. -/
theorem SettledChain.covers_documented (h : SettledChain d t) (hs : o.style = .builtin d .replace)
    (hlookup : o.lookup = .chain) (hd : d.headerForm = some form) {m : Member}
    (hm : o.applies m = true) {y z : Text}
    (hy : ((rewrite o t).member? m.name).bind Member.doc = some y)
    (hz : z ∈ documented (rewrite o t).ancestors m.name) :
    Covers d (parse d (some y)) (parse d (some z)) := by
  rw [member?_rewrite] at hy
  obtain ⟨n', hn', hdoc⟩ := Option.bind_eq_some_iff.1 hy
  obtain ⟨n, hfind, rfl⟩ := Option.map_eq_some_iff.1 hn'
  have hmem := List.mem_of_find?_eq_some hfind
  have hname : n.name = m.name := by simpa using List.find?_some hfind
  obtain ⟨hsettled, hparams⟩ := h.members t t.self_mem_types n hmem
  have happlies := applies_of_name_eq hname (h.kinds t t.self_mem_types n hmem) hm
  have hsources : o.sources (rewrite o t).ancestors n =
      documented (rewrite o t).ancestors m.name := by
    rw [sources, if_pos happlies, hlookup, hname]
  rw [member, hsources, hs, hparams] at hdoc
  rw [← hdoc]
  have hancestors := settled_documented (h.ancestors_rewrite hs hd) m.name
  exact (fold_settled hd hancestors hsettled).2.2 _ (List.mem_map_of_mem hz)

/-- Docstrings, each of which covers those after it. -/
def Descending (d : Dialect) (docs : List Text) : Prop :=
  docs.Pairwise fun y z => Covers d (parse d (some y)) (parse d (some z))

/-- **Along a chain rewritten with all ancestors, what a type documents covers what those after it
document.** -/
theorem SettledChain.descending_documented (h : SettledChain d t)
    (hs : o.style = .builtin d .replace) (hlookup : o.lookup = .chain)
    (hd : d.headerForm = some form) {m : Member} (hm : o.applies m = true) :
    Descending d (documented (rewrite o t).types m.name) := by
  induction t using induction with
  | step t ih =>
    have hbelow : Descending d (documented (rewrite o t).ancestors m.name) := by
      rcases ancestors_rewrite_cases (o := o) h.isChain h.names with ⟨-, ha⟩ | ⟨b, hb, ha⟩
      · rw [ha]
        exact List.Pairwise.nil
      · have hmem : b ∈ t.bases := by rw [hb]; simp
        rw [ha]
        exact ih b hmem (h.of_mem_bases hmem)
    rw [types_rewrite_of_isChain h.isChain h.names, documented_cons, Descending,
      List.pairwise_append]
    refine ⟨?_, hbelow, fun y hy z hz => ?_⟩
    · cases ((rewrite o t).member? m.name).bind Member.doc |>.filter fun doc => !isBlank doc <;>
        simp
    · rw [Option.mem_toList, Option.filter_eq_some_iff] at hy
      exact h.covers_documented hs hlookup hd hm hy.1 hz

/-- So what the ancestors of a type document descends. -/
theorem SettledChain.descending_ancestors (h : SettledChain d t)
    (hs : o.style = .builtin d .replace) (hlookup : o.lookup = .chain)
    (hd : d.headerForm = some form) {m : Member} (hm : o.applies m = true) :
    Descending d (documented (rewrite o t).ancestors m.name) := by
  have hdown := h.descending_documented hs hlookup hd hm
  rw [types_rewrite_of_isChain h.isChain h.names, documented_cons] at hdown
  exact (List.pairwise_append.1 hdown).2.1

/-! ### The two lookups -/

/-- **The first of descending docstrings gives all that they give.** -/
theorem fold_take_one {docs : List Text} {x : Option Text} (hd : d.headerForm = some form)
    (hdocs : ∀ a ∈ docs.map some, Settled d a) (hx : Settled d x) (h : Descending d docs) :
    fold (.builtin d .replace) none ((docs.take 1).map some) x =
      fold (.builtin d .replace) none (docs.map some) x := by
  cases docs with
  | nil => rfl
  | cons y zs =>
    have hread := fun doc => read_parse_option (d := d) hd doc
    obtain ⟨hfirm, habove, -⟩ := docs_settled hd (hdocs _ List.mem_cons_self) hx
    -- what is merged with the first covers it, and by that all further ones
    rw [List.take_succ_cons, List.take_zero, List.map_cons, List.map_nil, List.map_cons, fold_cons,
      fold_cons, fold_nil]
    have hrest : ∀ a ∈ zs.map some, Settled d a := fun a ha => hdocs a (List.mem_cons_of_mem _ ha)
    refine (fold_eq_self hd hrest hfirm fun a ha => ?_).symm
    obtain ⟨z, hz, rfl⟩ := List.mem_map.1 ha
    exact habove.trans ((List.pairwise_cons.1 h).1 z hz) (hread _) (hread _) hd

/-- A member comes out the same with either lookup, where what the ancestors document descends. -/
theorem member_nearest_eq (hd : d.headerForm = some form) {as : List TypeDescriptor}
    (ha : ∀ v ∈ as, ∀ m ∈ v.members, Settled d m.doc ∧ m.params = none) {m : Member}
    (hdoc : Settled d m.doc) (hparams : m.params = none)
    (hdown : Inheritance.applies ⟨.builtin d .replace, includeSpecial, .chain⟩ m = true →
      Descending d (documented as m.name)) :
    Inheritance.member ⟨.builtin d .replace, includeSpecial, .nearest⟩ as m =
      Inheritance.member ⟨.builtin d .replace, includeSpecial, .chain⟩ as m := by
  rw [member, member, hparams, sources, sources]
  by_cases hm : Inheritance.applies ⟨.builtin d .replace, includeSpecial, .chain⟩ m = true
  · have hm' : Inheritance.applies ⟨.builtin d .replace, includeSpecial, .nearest⟩ m = true := hm
    rw [if_pos hm, if_pos hm']
    simp only [fold_take_one hd (settled_documented ha m.name) hdoc (hdown hm)]
  · have hm' : ¬ Inheritance.applies ⟨.builtin d .replace, includeSpecial, .nearest⟩ m = true := hm
    rw [if_neg hm, if_neg hm']

/-- **The two lookups rewrite a settled chain alike.** -/
theorem SettledChain.rewrite_nearest_eq (h : SettledChain d t) (hd : d.headerForm = some form) :
    rewrite ⟨.builtin d .replace, includeSpecial, .nearest⟩ t =
      rewrite ⟨.builtin d .replace, includeSpecial, .chain⟩ t := by
  induction t using induction with
  | step t ih =>
    have hbases : (rewrite ⟨.builtin d .replace, includeSpecial, .nearest⟩ t).bases =
        (rewrite ⟨.builtin d .replace, includeSpecial, .chain⟩ t).bases := by
      rw [bases_rewrite, bases_rewrite]
      exact List.map_congr_left fun b hb => ih b hb (h.of_mem_bases hb)
    have hancestors : (rewrite ⟨.builtin d .replace, includeSpecial, .nearest⟩ t).ancestors =
        (rewrite ⟨.builtin d .replace, includeSpecial, .chain⟩ t).ancestors :=
      ancestors_congr hbases
    refine eq_of_fields (by rw [name_rewrite, name_rewrite])
      (by rw [doc_rewrite, hancestors, doc_rewrite]) hbases ?_
    rw [members_rewrite, hancestors, members_rewrite]
    refine List.map_congr_left fun m hm => ?_
    obtain ⟨hdoc, hparams⟩ := h.members t t.self_mem_types m hm
    exact member_nearest_eq hd (h.ancestors_rewrite rfl hd) hdoc hparams
      fun happlies => h.descending_ancestors rfl rfl hd happlies

end Inheritance

namespace TypeDescriptor

variable {d : Dialect} {form : HeaderForm} {t : TypeDescriptor}

/-- **On single inheritance the two lookups agree.** In a built-in style that replaces sections, a
chain of types with names of their own, each member of which has an absent, blank or canonical
docstring, is rewritten to the same hierarchy whether members inherit from the nearest ancestor
that documents them or from all of them in turn. -/
theorem inherit_nearest_eq_chain {name : Text} (hs : (name, d, .replace) ∈ Registry.builtins)
    (hd : d.headerForm = some form) (hchain : t.IsChain)
    (hnames : (t.types.map TypeDescriptor.name).Nodup)
    (hmembers : ∀ u ∈ t.types, ∀ m ∈ u.members,
      m.kind ≠ .data ∧ m.params = none ∧ Merge.Settled d m.doc) (includeSpecial : Bool) :
    ∃ u, t.inherit ⟨.named name, includeSpecial, .nearest⟩ .withBuiltins = .ok u ∧
      t.inherit ⟨.named name, includeSpecial, .chain⟩ .withBuiltins = .ok u := by
  have h : Inheritance.SettledChain d t :=
    ⟨hchain, hnames, fun u hu m hm => (hmembers u hu m hm).1,
      fun u hu m hm => (hmembers u hu m hm).2.symm⟩
  exact ⟨_, inherit_builtin hs t, h.rewrite_nearest_eq hd ▸ inherit_builtin hs t⟩

/-- A level that does not declare the member, one that leaves it blank, one that declares it twice,
and raises that go stale half way. -/
theorem inherit_nearest_eq_chain_raises :
    let root : TypeDescriptor := ⟨"Root".toList, none, [],
      [⟨"run".toList, .method, some "Run.

Raises
------
KeyError".toList, none⟩]⟩
    let blank : TypeDescriptor := ⟨"Blank".toList, none, [root],
      [⟨"run".toList, .classMethod, some " ".toList, none⟩]⟩
    let twice : TypeDescriptor := ⟨"Twice".toList, none, [blank],
      [⟨"run".toList, .method, some "Returns
-------
int".toList, none⟩,
        ⟨"run".toList, .method, some "Raises
------
OSError".toList, none⟩]⟩
    let without : TypeDescriptor := ⟨"Without".toList, none, [twice], []⟩
    let t : TypeDescriptor := ⟨"Leaf".toList, none, [without],
      [⟨"run".toList, .method, none, none⟩]⟩
    t.IsChain ∧ (t.types.map TypeDescriptor.name).Nodup ∧
    (∀ u ∈ t.types, ∀ m ∈ u.members,
      m.kind ≠ .data ∧ m.params = none ∧ Merge.Settled .numpy m.doc) ∧
    ∃ u, t.inherit ⟨.named "numpy".toList, true, .nearest⟩ .withBuiltins = .ok u ∧
      t.inherit ⟨.named "numpy".toList, true, .chain⟩ .withBuiltins = .ok u ∧
      u.members.map Member.doc = [some "Run.

Returns
-------
int".toList] := by
  intro root blank twice without t
  have hchain : t.IsChain := by decide +kernel
  have hnames : (t.types.map TypeDescriptor.name).Nodup := by decide +kernel
  have hmembers : ∀ u ∈ t.types, ∀ m ∈ u.members,
      m.kind ≠ .data ∧ m.params = none ∧ Merge.Settled .numpy m.doc := by decide +kernel
  have hs : ("numpy".toList, .numpy, .replace) ∈ Registry.builtins := by decide
  obtain ⟨u, hnearest, hall⟩ := inherit_nearest_eq_chain hs rfl hchain hnames hmembers true
  have hshown : ((t.inherit ⟨.named "numpy".toList, true, .chain⟩ .withBuiltins).toOption.map
      fun u => u.members.map Member.doc) =
      some [some "Run.

Returns
-------
int".toList] := by
    decide +kernel
  rw [hall] at hshown
  exact ⟨hchain, hnames, hmembers, u, hnearest, hall, Option.some.inj hshown⟩

end TypeDescriptor

end Docstring
