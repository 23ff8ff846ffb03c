import Mathlib.Data.List.Nodup
import Docstring.Hierarchy.Inherit
import Docstring.Proofs.Registration

/-!
# Hierarchies as lists of types

The types of a hierarchy are listed depth first, each in front of its bases (`types`). The ancestors
of a type are among those below it (`exists_base_of_mem_ancestors`), and where each type has at most
one base they are all of them, nearest first (`IsChain.ancestors_eq`). Rewriting a hierarchy
rewrites each of its types in its place (`types_rewrite`), among the ancestors that it then has
(`doc_rewrite`, `members_rewrite`).
-/

namespace Docstring

namespace TypeDescriptor

/-- A type is its name, its docstring, its bases and its members. -/
theorem eq_of_fields {t u : TypeDescriptor} (hname : t.name = u.name) (hdoc : t.doc = u.doc)
    (hbases : t.bases = u.bases) (hmembers : t.members = u.members) : t = u := by
  cases t
  cases u
  cases hname
  cases hdoc
  cases hbases
  cases hmembers
  rfl

/-! ### The types of a hierarchy -/

/-- What holds of each type that it holds of all bases of holds of every type. -/
theorem induction {motive : TypeDescriptor → Prop}
    (step : ∀ t : TypeDescriptor, (∀ b ∈ t.bases, motive b) → motive t) (t : TypeDescriptor) :
    motive t :=
  step t fun b _ => induction step b
termination_by sizeOf t
decreasing_by
  obtain ⟨name, doc, bases, members⟩ := t
  have hlt := List.sizeOf_lt_of_mem (show b ∈ bases from ‹_›)
  simp only [mk.sizeOf_spec]
  omega

mutual

/-- A type, and after it the types of its bases. -/
def types (t : TypeDescriptor) : List TypeDescriptor :=
  match t with
  | ⟨name, doc, bases, members⟩ => ⟨name, doc, bases, members⟩ :: typesAll bases

/-- The types of some types, one after the other. -/
def typesAll (ts : List TypeDescriptor) : List TypeDescriptor :=
  match ts with
  | [] => []
  | t :: ts => types t ++ typesAll ts

end

theorem typesAll_eq_flatMap (ts : List TypeDescriptor) : typesAll ts = ts.flatMap types := by
  induction ts with
  | nil => rfl
  | cons t ts ih => rw [typesAll, ih, List.flatMap_cons]

theorem types_eq_cons (t : TypeDescriptor) : t.types = t :: t.bases.flatMap types := by
  obtain ⟨name, doc, bases, members⟩ := t
  rw [types, typesAll_eq_flatMap]

theorem self_mem_types (t : TypeDescriptor) : t ∈ t.types := by
  rw [types_eq_cons]
  exact List.mem_cons_self

theorem mem_types_of_mem_bases {t b u : TypeDescriptor} (hb : b ∈ t.bases) (hu : u ∈ b.types) :
    u ∈ t.types := by
  rw [types_eq_cons]
  exact List.mem_cons_of_mem t (List.mem_flatMap.2 ⟨b, hb, hu⟩)

/-- Names that differ throughout a hierarchy differ below each base. -/
theorem nodup_names_of_mem_bases {t b : TypeDescriptor} (hb : b ∈ t.bases)
    (hn : (t.types.map name).Nodup) : (b.types.map name).Nodup := by
  rw [types_eq_cons] at hn
  refine hn.sublist (List.Sublist.map _ (List.Sublist.cons t ?_))
  exact List.sublist_flatten_of_mem (List.mem_map_of_mem hb)

/-! ### Ancestors -/

theorem addAncestors_eq (t : TypeDescriptor) (found : List TypeDescriptor) :
    t.addAncestors found = addAll t.bases found := by
  obtain ⟨name, doc, bases, members⟩ := t
  rw [addAncestors]

theorem ancestors_eq (t : TypeDescriptor) : t.ancestors = addAll t.bases [] := addAncestors_eq t []

/-- The ancestors of a type depend on its bases only. -/
theorem ancestors_congr {t u : TypeDescriptor} (h : t.bases = u.bases) :
    t.ancestors = u.ancestors := by
  rw [ancestors_eq, h, ← ancestors_eq]

/-- What a list of types gains of some types comes from these, if what it gains of the ancestors of
each comes from below. -/
theorem mem_addAll_of {ts : List TypeDescriptor} {u : TypeDescriptor}
    (h : ∀ t ∈ ts, ∀ found, u ∈ t.addAncestors found → u ∈ found ∨ u ∈ t.types)
    {found : List TypeDescriptor} (hu : u ∈ addAll ts found) :
    u ∈ found ∨ u ∈ ts.flatMap types := by
  induction ts generalizing found with
  | nil => exact .inl hu
  | cons t ts ih =>
    rw [addAll] at hu
    rw [List.flatMap_cons, List.mem_append]
    rcases ih (fun s hs => h s (List.mem_cons_of_mem t hs)) hu with hu | hu
    · split at hu
      · exact .inl hu
      · rcases h t List.mem_cons_self _ hu with hu | hu
        · rcases List.mem_append.1 hu with hu | hu
          · exact .inl hu
          · exact .inr (.inl (List.mem_singleton.1 hu ▸ t.self_mem_types))
        · exact .inr (.inl hu)
    · exact .inr (.inr hu)

theorem mem_addAncestors {t u : TypeDescriptor} {found : List TypeDescriptor}
    (hu : u ∈ t.addAncestors found) : u ∈ found ∨ u ∈ t.bases.flatMap types := by
  induction t using induction generalizing found with
  | step t ih =>
    rw [addAncestors_eq] at hu
    refine mem_addAll_of (fun b hb found hu => (ih b hb hu).imp_right fun hu => ?_) hu
    rw [types_eq_cons]
    exact List.mem_cons_of_mem b hu

/-- The ancestors of a type are among the types below it. -/
theorem exists_base_of_mem_ancestors {t u : TypeDescriptor} (hu : u ∈ t.ancestors) :
    ∃ b ∈ t.bases, u ∈ b.types := by
  rw [ancestors] at hu
  rcases mem_addAncestors hu with hu | hu
  · simp at hu
  · exact List.mem_flatMap.1 hu

theorem mem_types_of_mem_ancestors {t u : TypeDescriptor} (hu : u ∈ t.ancestors) :
    u ∈ t.types := by
  obtain ⟨b, hb, hu⟩ := exists_base_of_mem_ancestors hu
  exact mem_types_of_mem_bases hb hu

/-! ### Chains -/

/-- A hierarchy in which each type has at most one base. -/
def IsChain (t : TypeDescriptor) : Prop := ∀ u ∈ t.types, u.bases.length ≤ 1

instance (t : TypeDescriptor) : Decidable t.IsChain :=
  inferInstanceAs (Decidable (∀ u ∈ t.types, u.bases.length ≤ 1))

theorem IsChain.of_mem_bases {t b : TypeDescriptor} (h : t.IsChain) (hb : b ∈ t.bases) :
    b.IsChain := fun _ hu => h _ (mem_types_of_mem_bases hb hu)

/-- The end of a chain has no base, and any other type of it has one. -/
theorem IsChain.bases_cases {t : TypeDescriptor} (h : t.IsChain) :
    t.bases = [] ∨ ∃ b, t.bases = [b] := by
  have hlen := h t t.self_mem_types
  rcases hb : t.bases with _ | ⟨b, _ | ⟨c, bs⟩⟩
  · exact .inl rfl
  · exact .inr ⟨b, rfl⟩
  · rw [hb] at hlen
    simp at hlen

theorem addAll_of_isChain {t : TypeDescriptor} (h : t.IsChain) (found : List TypeDescriptor)
    (hn : ((found ++ t.types).map name).Nodup) : addAll [t] found = found ++ t.types := by
  -- names are distinct, so no type of the chain is taken for one that was found before
  induction t using induction generalizing found with
  | step t ih =>
    have hnew : (found.any fun f => f.name = t.name) = false := by
      rw [Bool.eq_false_iff, Ne, List.any_eq_true]
      rintro ⟨f, hf, hname⟩
      rw [List.map_append, List.nodup_append] at hn
      exact hn.2.2 f.name (List.mem_map_of_mem hf) t.name (List.mem_map_of_mem t.self_mem_types)
        (by simpa using hname)
    rw [addAll, addAll, hnew, if_neg (by simp), addAncestors_eq]
    rw [types_eq_cons] at hn ⊢
    rcases h.bases_cases with hb | ⟨b, hb⟩
    · rw [hb, addAll, List.flatMap_nil]
    · rw [hb, List.flatMap_cons, List.flatMap_nil, List.append_nil] at hn ⊢
      have hmem : b ∈ t.bases := by rw [hb]; simp
      rw [ih b hmem (h.of_mem_bases hmem) (found ++ [t]) (by simpa using hn)]
      simp

/-- **The ancestors of a type in a chain are all types below it**, nearest first. -/
theorem IsChain.ancestors_eq {t : TypeDescriptor} (h : t.IsChain)
    (hn : (t.types.map name).Nodup) : t.ancestors = t.types.tail := by
  rw [TypeDescriptor.ancestors_eq]
  rw [types_eq_cons] at hn ⊢
  rw [List.tail_cons]
  rcases h.bases_cases with hb | ⟨b, hb⟩
  · rw [hb, addAll, List.flatMap_nil]
  · rw [hb, List.flatMap_cons, List.flatMap_nil, List.append_nil] at hn ⊢
    rw [addAll_of_isChain (h.of_mem_bases (by rw [hb]; simp)) [] (List.nodup_cons.1 hn).2]
    rfl

end TypeDescriptor

/-! ### Rewritten hierarchies -/

namespace Inheritance

open TypeDescriptor

section

variable (o : Inheritance) (t : TypeDescriptor)

@[simp] theorem name_rewrite : (rewrite o t).name = t.name := by
  obtain ⟨name, doc, bases, members⟩ := t
  rw [rewrite]

@[simp] theorem bases_rewrite : (rewrite o t).bases = t.bases.map (rewrite o) := by
  obtain ⟨name, doc, bases, members⟩ := t
  rw [rewrite, rewriteAll_eq_map]

/-- The docstring of a type is merged with those of the ancestors that it has when it is
rewritten. -/
theorem doc_rewrite :
    (rewrite o t).doc = typeDoc o.style (rewrite o t).ancestors t.doc := by
  rw [TypeDescriptor.ancestors_eq, bases_rewrite]
  obtain ⟨name, doc, bases, members⟩ := t
  rw [rewrite, rewriteAll_eq_map]

/-- Each member is rewritten among the same ancestors. -/
theorem members_rewrite :
    (rewrite o t).members = t.members.map (o.member (rewrite o t).ancestors) := by
  rw [TypeDescriptor.ancestors_eq, bases_rewrite]
  obtain ⟨name, doc, bases, members⟩ := t
  rw [rewrite, rewriteAll_eq_map]

/-- Each type of a hierarchy is rewritten in its place. -/
theorem types_rewrite : (rewrite o t).types = t.types.map (rewrite o) := by
  induction t using induction with
  | step t ih =>
    rw [types_eq_cons, types_eq_cons, bases_rewrite, List.map_cons, List.flatMap_map,
      List.map_flatMap, List.flatMap_congr ih]

end

variable {o : Inheritance} {t : TypeDescriptor}

/-! ### Chains rewritten -/

theorem isChain_rewrite (h : t.IsChain) : (rewrite o t).IsChain := by
  intro u hu
  rw [types_rewrite] at hu
  obtain ⟨v, hv, rfl⟩ := List.mem_map.1 hu
  rw [bases_rewrite, List.length_map]
  exact h v hv

theorem names_types_rewrite :
    (rewrite o t).types.map name = t.types.map name := by
  rw [types_rewrite, List.map_map]
  exact List.map_congr_left fun u _ => name_rewrite o u

/-- The ancestors in a chain are the other types of it, rewritten. -/
theorem types_rewrite_of_isChain (h : t.IsChain) (hn : (t.types.map name).Nodup) :
    (rewrite o t).types = rewrite o t :: (rewrite o t).ancestors := by
  have hnames : ((rewrite o t).types.map name).Nodup := by
    rwa [names_types_rewrite]
  rw [(isChain_rewrite h).ancestors_eq hnames, types_eq_cons, List.tail_cons]

/-- What holds of the rewritten types of the base holds of the ancestors, and of none where there
is no base. -/
theorem ancestors_rewrite_cases (h : t.IsChain) (hn : (t.types.map name).Nodup) :
    t.bases = [] ∧ (rewrite o t).ancestors = [] ∨
      ∃ b, t.bases = [b] ∧ (rewrite o t).ancestors = (rewrite o b).types := by
  have htypes := types_rewrite_of_isChain (o := o) h hn
  rw [types_eq_cons] at htypes
  rw [← (List.cons.inj htypes).2, bases_rewrite]
  rcases h.bases_cases with hb | ⟨b, hb⟩
  · exact .inl ⟨hb, by rw [hb, List.map_nil, List.flatMap_nil]⟩
  · exact .inr ⟨b, hb, by rw [hb]; simp⟩

end Inheritance

/-! ### Built-in styles -/

namespace Registry

/-- A built-in style is found under its name. -/
theorem resolve_builtin {name : Text} {d : Dialect} {policy : Policy}
    (h : (name, d, policy) ∈ builtins) :
    withBuiltins.resolve (.named name) = .ok (.builtin d policy) :=
  resolve_named_eq_ok_iff.2 (get?_withBuiltins.2 ⟨d, policy, h, rfl⟩)

end Registry

namespace TypeDescriptor

/-- In a built-in style every hierarchy is rewritten. -/
theorem inherit_builtin {name : Text} {policy : Policy} {includeSpecial : Bool} {lookup : Lookup}
    {d : Dialect} (hs : (name, d, policy) ∈ Registry.builtins) (t : TypeDescriptor) :
    t.inherit ⟨.named name, includeSpecial, lookup⟩ .withBuiltins =
      .ok (Inheritance.rewrite ⟨.builtin d policy, includeSpecial, lookup⟩ t) := by
  rw [inherit, Registry.resolve_builtin hs]
  rfl

end TypeDescriptor

end Docstring
