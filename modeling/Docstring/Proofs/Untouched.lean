import Docstring.Proofs.Ancestry

/-!
# What rewriting leaves alone

Rewriting a hierarchy changes docstrings and nothing else: without docstrings, the hierarchy is what
it was (`withoutDocs_rewrite`). Nor does every docstring change. A type without bases keeps its own,
and so does a member that is exempt: plain data, a special member where those do not inherit, or one
that no ancestor documents (`member_of_exempt`). Both hold of each type of a hierarchy, however deep
it lies (`inherit_withoutDocs`).
-/

namespace Docstring

open Text

/-- A member without its docstring. -/
def Member.withoutDoc (m : Member) : Member := { m with doc := none }

namespace TypeDescriptor

mutual

/-- A type without its docstring and those of its members, its bases likewise. -/
def withoutDocs (t : TypeDescriptor) : TypeDescriptor :=
  match t with
  | ⟨name, _, bases, members⟩ =>
    ⟨name, none, withoutDocsAll bases, members.map Member.withoutDoc⟩

/-- Each of some types without its docstrings. -/
def withoutDocsAll (ts : List TypeDescriptor) : List TypeDescriptor :=
  match ts with
  | [] => []
  | t :: ts => withoutDocs t :: withoutDocsAll ts

end

theorem withoutDocsAll_eq_map (ts : List TypeDescriptor) :
    withoutDocsAll ts = ts.map withoutDocs := by
  induction ts with
  | nil => rfl
  | cons t ts ih => rw [withoutDocsAll, ih, List.map_cons]

theorem withoutDocs_eq (t : TypeDescriptor) :
    t.withoutDocs =
      ⟨t.name, none, t.bases.map withoutDocs, t.members.map Member.withoutDoc⟩ := by
  obtain ⟨name, doc, bases, members⟩ := t
  rw [withoutDocs, withoutDocsAll_eq_map]

/-- Whether a type documents a name: the first member of that name has a docstring, and not a
blank one. -/
def Documents (t : TypeDescriptor) (name : Text) : Prop :=
  ∃ m, t.member? name = some m ∧ isBlankDoc m.doc = false

end TypeDescriptor

/-- The special names are those with two low lines in front and two more behind, and something
between them. -/
theorem Member.isSpecial_iff {m : Member} :
    m.isSpecial = true ↔ ∃ x, x ≠ [] ∧ m.name = "__".toList ++ x ++ "__".toList := by
  simp only [Member.isSpecial, Bool.and_eq_true, decide_eq_true_eq, List.isPrefixOf_iff_prefix,
    List.isSuffixOf_iff_suffix]
  constructor
  · rintro ⟨⟨hlen, rest, hname⟩, hsuf⟩
    rw [← hname] at hlen hsuf ⊢
    -- the name is long enough for the low lines at its ends not to be the same ones
    have hrest : ['_', '_'] <:+ rest := by
      refine List.suffix_of_suffix_length_le hsuf (List.suffix_append _ _) ?_
      simp only [List.length_append, List.length_cons, List.length_nil] at hlen ⊢
      omega
    obtain ⟨x, rfl⟩ := hrest
    refine ⟨x, ?_, by simp⟩
    rintro rfl
    simp at hlen
  · rintro ⟨x, hx, hname⟩
    have hpos := List.length_pos_iff.2 hx
    rw [hname]
    refine ⟨⟨by simp; omega, x ++ "__".toList, by simp⟩, "__".toList ++ x, by simp⟩

namespace Inheritance

open TypeDescriptor

variable {o : Inheritance} {t : TypeDescriptor} {as : List TypeDescriptor} {m : Member}

/-! ### All but docstrings -/

theorem withoutDoc_member (o : Inheritance) (as : List TypeDescriptor) (m : Member) :
    (o.member as m).withoutDoc = m.withoutDoc := rfl

/-- **Without docstrings, a rewritten hierarchy is what it was.** -/
theorem withoutDocs_rewrite (o : Inheritance) (t : TypeDescriptor) :
    (rewrite o t).withoutDocs = t.withoutDocs := by
  induction t using induction with
  | step t ih =>
    have hbases : (rewrite o t).bases.map withoutDocs = t.bases.map withoutDocs := by
      rw [bases_rewrite, List.map_map]
      exact List.map_congr_left ih
    have hmembers : (rewrite o t).members.map Member.withoutDoc =
        t.members.map Member.withoutDoc := by
      rw [members_rewrite, List.map_map]
      exact List.map_congr_left fun m _ => withoutDoc_member o _ m
    rw [withoutDocs_eq, name_rewrite, hbases, hmembers, ← withoutDocs_eq]

/-! ### Docstrings that stay -/

/-- Why a member inherits nothing. -/
inductive Exempt (includeSpecial : Bool) (as : List TypeDescriptor) (m : Member) : Prop where
  /-- It is plain data. -/
  | data (h : m.kind = .data)
  /-- Its name is special, and special members do not inherit. -/
  | special (h : includeSpecial = false) {x : Text} (hx : x ≠ [])
      (hname : m.name = "__".toList ++ x ++ "__".toList)
  /-- No ancestor documents it. -/
  | undocumented (h : ∀ v ∈ as, ¬ v.Documents m.name)

/-- Nothing is documented for a name that no ancestor documents. -/
theorem documented_eq_nil {name : Text} (h : ∀ v ∈ as, ¬ v.Documents name) :
    documented as name = [] := by
  rw [documented, List.filterMap_eq_nil_iff]
  intro v hv
  rw [Option.filter_eq_none_iff]
  intro doc hdoc
  obtain ⟨n, hn, hdoc⟩ := Option.bind_eq_some_iff.1 hdoc
  cases hb : isBlank doc with
  | true => simp
  | false => exact absurd ⟨n, hn, by rw [hdoc]; simpa [isBlankDoc] using hb⟩ (h v hv)

/-- **An exempt member is left as it is.** -/
theorem member_of_exempt (h : Exempt o.includeSpecial as m) : o.member as m = m := by
  refine member_eq_self ?_
  rw [sources]
  cases h with
  | data h =>
    rw [if_neg]
    simp [applies, MemberKind.inheritsDocs, h]
  | special h hx hname =>
    have hspecial : m.isSpecial = true := Member.isSpecial_iff.2 ⟨_, hx, hname⟩
    rw [if_neg]
    simp [applies, h, hspecial]
  | undocumented h =>
    have hnone := documented_eq_nil h
    split
    · split <;> simp [hnone]
    · rfl

/-- The docstrings of a type that are the same in a type that it was rewritten to. -/
structure Spared (includeSpecial : Bool) (t u : TypeDescriptor) : Prop where
  /-- A type without bases keeps its docstring. -/
  doc : t.bases = [] → u.doc = t.doc
  /-- Each exempt member keeps its docstring. -/
  members : List.Forall₂ (fun m n => Exempt includeSpecial u.ancestors m → n.doc = m.doc)
    t.members u.members

theorem spared_rewrite (o : Inheritance) (t : TypeDescriptor) :
    Spared o.includeSpecial t (rewrite o t) where
  doc h := by
    have hnone : (rewrite o t).ancestors = [] := by
      rw [TypeDescriptor.ancestors_eq, bases_rewrite, h, List.map_nil, addAll]
    rw [doc_rewrite, hnone, typeDoc, List.map_nil, fold_nil]
  members := by
    rw [members_rewrite, List.forall₂_map_right_iff, List.forall₂_same]
    intro m _ hm
    rw [member_of_exempt hm]

end Inheritance

namespace TypeDescriptor

/-- **Inheritance changes docstrings only, and not all of them.** In a style that resolves, every
hierarchy is rewritten to one that has the same names, bases, members, kinds and parameters, all in
the same order. Type by type, in the order in which they lie in the hierarchy, a type without bases
has the docstring that it had, and so has each member that is plain data, whose name is special
where special members do not inherit, or that no ancestor of the rewritten type documents. -/
theorem inherit_withoutDocs {q : InheritRequest} {r : Registry} {s : Style}
    (hs : r.resolve q.style = .ok s) (t : TypeDescriptor) :
    ∃ u, t.inherit q r = .ok u ∧ u.withoutDocs = t.withoutDocs ∧
      List.Forall₂ (Inheritance.Spared q.includeSpecial) t.types u.types := by
  refine ⟨_, by rw [inherit, hs]; rfl, Inheritance.withoutDocs_rewrite _ t, ?_⟩
  rw [Inheritance.types_rewrite, List.forall₂_map_right_iff, List.forall₂_same]
  exact fun u _ => Inheritance.spared_rewrite ⟨s, q.includeSpecial, q.lookup⟩ u

/-- A leaf that takes the docstring of its base, while none of its members takes one: plain data, a
special member, and one that the base documents with white space alone. -/
theorem inherit_withoutDocs_leaf :
    let either : Style := .custom fun a d => .doc (d.or a)
    let root : TypeDescriptor := ⟨"Root".toList, some "Root.".toList, [],
      [⟨"size".toList, .data, some "Size.".toList, none⟩,
        ⟨"__init__".toList, .method, some "Init.".toList, none⟩,
        ⟨"run".toList, .method, some " ".toList, none⟩,
        ⟨"run".toList, .method, some "Runs.".toList, none⟩]⟩
    let t : TypeDescriptor := ⟨"Leaf".toList, none, [root],
      [⟨"size".toList, .data, none, none⟩, ⟨"__init__".toList, .method, none, none⟩,
        ⟨"run".toList, .function, none, some ["x".toList]⟩]⟩
    Registry.empty.resolve (.direct either) = .ok either ∧
    ∃ u, t.inherit ⟨.direct either, false, .chain⟩ .empty = .ok u ∧
      u.withoutDocs = t.withoutDocs ∧
      List.Forall₂ (Inheritance.Spared false) t.types u.types ∧
      u.doc = some "Root.".toList ∧ u.members = t.members := by
  intro either root t
  have hs : Registry.empty.resolve (.direct either) = .ok either := rfl
  obtain ⟨u, hu, hshape, hspared⟩ :=
    inherit_withoutDocs (q := ⟨.direct either, false, .chain⟩) hs t
  have hshown : ((t.inherit ⟨.direct either, false, .chain⟩ .empty).toOption.map
      fun u => (u.doc, u.members)) = some (some "Root.".toList, t.members) := by
    decide +kernel
  rw [hu] at hshown
  obtain ⟨hdoc, hmembers⟩ := Prod.mk.inj (Option.some.inj hshown)
  exact ⟨hs, u, hu, hshape, hspared, hdoc, hmembers⟩

end TypeDescriptor

end Docstring
