import Docstring.Proofs.Ancestry
import Docstring.Proofs.Settled

/-!
# Rewriting a hierarchy again

Where all docstrings of a hierarchy are settled, so are those of the rewritten one
(`settled_doc_rewrite`, `settled_members_rewrite`), and each covers all that was merged into it.
The ancestors of a type are the same when the hierarchy is rewritten once more, so nothing changes
then (`rewrite_rewrite`, `inherit_inherit`).
-/

namespace Docstring

open Text

namespace Inheritance

open TypeDescriptor Merge

variable {d : Dialect} {form : HeaderForm} {o : Inheritance} {t : TypeDescriptor}

/-! ### Settled hierarchies -/

/-- **What a rewritten type has whenever its ancestors have it, every rewritten type has.** -/
theorem forall_types_rewrite {P : TypeDescriptor → Prop}
    (step : ∀ u ∈ t.types, (∀ v ∈ (rewrite o u).ancestors, P v) → P (rewrite o u)) :
    ∀ u ∈ (rewrite o t).types, P u := by
  induction t using induction with
  | step t ih =>
    have hbelow : ∀ b ∈ (rewrite o t).bases, ∀ u ∈ b.types, P u := by
      intro b hb
      rw [bases_rewrite] at hb
      obtain ⟨c, hc, rfl⟩ := List.mem_map.1 hb
      exact ih c hc fun u hu => step u (mem_types_of_mem_bases hc hu)
    intro u hu
    rw [types_eq_cons] at hu
    rcases List.mem_cons.1 hu with rfl | hu
    · refine step t t.self_mem_types fun v hv => ?_
      obtain ⟨b, hb, hv⟩ := exists_base_of_mem_ancestors hv
      exact hbelow b hb v hv
    · obtain ⟨b, hb, hu⟩ := List.mem_flatMap.1 hu
      exact hbelow b hb u hu

theorem settled_doc_rewrite (hs : o.style = .builtin d .replace) (hd : d.headerForm = some form)
    (h : ∀ u ∈ t.types, Settled d u.doc) : ∀ u ∈ (rewrite o t).types, Settled d u.doc := by
  refine forall_types_rewrite fun u hu ha => ?_
  rw [doc_rewrite, typeDoc, hs]
  refine (fold_settled hd (fun a ha' => ?_) (h u hu)).1
  obtain ⟨v, hv, rfl⟩ := List.mem_map.1 ha'
  exact ha v hv

/-- What ancestors document comes from their members of that name, and is not blank. -/
theorem exists_member_of_mem_documented {as : List TypeDescriptor} {name s : Text}
    (h : s ∈ documented as name) :
    isBlank s = false ∧ ∃ v ∈ as, ∃ n ∈ v.members, n.name = name ∧ n.doc = some s := by
  obtain ⟨v, hv, hs⟩ := List.mem_filterMap.1 h
  rw [Option.filter_eq_some_iff] at hs
  obtain ⟨hdoc, hb⟩ := hs
  obtain ⟨n, hn, hdoc⟩ := Option.bind_eq_some_iff.1 hdoc
  refine ⟨by simpa using hb, v, hv, n, List.mem_of_find?_eq_some hn, ?_, hdoc⟩
  simpa using List.find?_some hn

/-- What ancestors document is settled, where the docstrings of their members are. -/
theorem settled_documented {as : List TypeDescriptor}
    (ha : ∀ v ∈ as, ∀ m ∈ v.members, Settled d m.doc ∧ m.params = none) (name : Text) :
    ∀ a ∈ (documented as name).map some, Settled d a := by
  intro a h
  obtain ⟨s, hs, rfl⟩ := List.mem_map.1 h
  obtain ⟨-, v, hv, n, hn, -, hdoc⟩ := exists_member_of_mem_documented hs
  exact hdoc ▸ (ha v hv n hn).1

/-- A member is merged only with what ancestors document. -/
theorem mem_documented_of_mem_sources {as : List TypeDescriptor} {m : Member} {s : Text}
    (h : s ∈ o.sources as m) : s ∈ documented as m.name := by
  rw [sources] at h
  split at h
  · split at h
    · exact List.mem_of_mem_take h
    · exact h
  · simp at h

theorem settled_sources {as : List TypeDescriptor}
    (ha : ∀ v ∈ as, ∀ m ∈ v.members, Settled d m.doc ∧ m.params = none) (m : Member) :
    ∀ a ∈ (o.sources as m).map some, Settled d a := by
  intro a h
  obtain ⟨s, hs, rfl⟩ := List.mem_map.1 h
  exact settled_documented ha m.name _ (List.mem_map_of_mem (mem_documented_of_mem_sources hs))

theorem settled_members_rewrite (hs : o.style = .builtin d .replace)
    (hd : d.headerForm = some form)
    (h : ∀ u ∈ t.types, ∀ m ∈ u.members, Settled d m.doc ∧ m.params = none) :
    ∀ u ∈ (rewrite o t).types, ∀ m ∈ u.members, Settled d m.doc ∧ m.params = none := by
  refine forall_types_rewrite fun u hu ha n hn => ?_
  rw [members_rewrite] at hn
  obtain ⟨m, hm, rfl⟩ := List.mem_map.1 hn
  obtain ⟨hdoc, hparams⟩ := h u hu m hm
  refine ⟨?_, hparams⟩
  rw [member, hs, hparams]
  exact (fold_settled hd (settled_sources ha m) hdoc).1

/-! ### Rewriting again -/

/-- The ancestors that are looked at do not depend on the docstring that a member has. -/
theorem sources_member (as bs : List TypeDescriptor) (m : Member) :
    o.sources as (o.member bs m) = o.sources as m := rfl

theorem member_member (hs : o.style = .builtin d .replace) (hd : d.headerForm = some form)
    {as : List TypeDescriptor}
    (ha : ∀ v ∈ as, ∀ m ∈ v.members, Settled d m.doc ∧ m.params = none) {m : Member}
    (hdoc : Settled d m.doc) (hparams : m.params = none) :
    o.member as (o.member as m) = o.member as m := by
  have hfold := fold_fold hd (settled_sources (o := o) ha m) hdoc
  rw [member, sources_member, member, hs, hparams]
  simp only [hfold]

/-- **Rewriting a settled hierarchy again changes nothing.** -/
theorem rewrite_rewrite (hs : o.style = .builtin d .replace) (hd : d.headerForm = some form)
    (hdoc : ∀ u ∈ t.types, Settled d u.doc)
    (hmembers : ∀ u ∈ t.types, ∀ m ∈ u.members, Settled d m.doc ∧ m.params = none) :
    rewrite o (rewrite o t) = rewrite o t := by
  induction t using induction with
  | step t ih =>
    have hbases : (rewrite o (rewrite o t)).bases = (rewrite o t).bases := by
      rw [bases_rewrite, bases_rewrite, List.map_map]
      refine List.map_congr_left fun b hb => ?_
      exact ih b hb (fun u hu => hdoc u (mem_types_of_mem_bases hb hu))
        fun u hu => hmembers u (mem_types_of_mem_bases hb hu)
    -- the bases do not change any more, so the second run merges with what the first one took
    have hancestors : (rewrite o (rewrite o t)).ancestors = (rewrite o t).ancestors :=
      ancestors_congr hbases
    have hself := t.self_mem_types
    have hdoc' : (rewrite o (rewrite o t)).doc = (rewrite o t).doc := by
      rw [doc_rewrite, hancestors, doc_rewrite, typeDoc, typeDoc, hs]
      refine fold_fold hd (fun a ha => ?_) (hdoc t hself)
      obtain ⟨v, hv, rfl⟩ := List.mem_map.1 ha
      exact settled_doc_rewrite hs hd hdoc v (mem_types_of_mem_ancestors hv)
    have hmembers' : (rewrite o (rewrite o t)).members = (rewrite o t).members := by
      rw [members_rewrite, hancestors, members_rewrite, List.map_map]
      refine List.map_congr_left fun m hm => ?_
      have hbelow := fun v hv =>
        settled_members_rewrite hs hd hmembers v (mem_types_of_mem_ancestors hv)
      exact member_member hs hd hbelow (hmembers t hself m hm).1 (hmembers t hself m hm).2
    exact eq_of_fields (by rw [name_rewrite]) hdoc' hbases hmembers'

end Inheritance

namespace TypeDescriptor

variable {d : Dialect} {form : HeaderForm} {t : TypeDescriptor}

/-- **What is rewritten stays as it is.** In a built-in style that replaces sections, a hierarchy
whose docstrings are all absent, blank or canonical, and no member of which has known parameters,
is rewritten to one that is rewritten to itself, whichever ancestors members inherit from and
whether special members do so or not. -/
theorem inherit_inherit {name : Text} (hs : (name, d, .replace) ∈ Registry.builtins)
    (hd : d.headerForm = some form) (hdoc : ∀ u ∈ t.types, Merge.Settled d u.doc)
    (hmembers : ∀ u ∈ t.types, ∀ m ∈ u.members, Merge.Settled d m.doc ∧ m.params = none)
    (includeSpecial : Bool) (lookup : Lookup) :
    ∃ u, t.inherit ⟨.named name, includeSpecial, lookup⟩ .withBuiltins = .ok u ∧
      u.inherit ⟨.named name, includeSpecial, lookup⟩ .withBuiltins = .ok u := by
  refine ⟨_, inherit_builtin hs t, ?_⟩
  rw [inherit_builtin hs, Inheritance.rewrite_rewrite rfl hd hdoc hmembers]

/-- Raises that go stale on the way to a type without a docstring do not come back. -/
theorem inherit_inherit_raises :
    let root : TypeDescriptor := ⟨"Root".toList, some "Raises\n------\nKeyError".toList, [],
      [⟨"run".toList, .method, some "Run.".toList, none⟩]⟩
    let middle : TypeDescriptor := ⟨"Middle".toList,
      some "Sums.\n\nReturns\n-------\n    the sum".toList, [root],
      [⟨"run".toList, .method, some " ".toList, none⟩]⟩
    let t : TypeDescriptor := ⟨"Leaf".toList, some "\n".toList, [middle, root],
      [⟨"run".toList, .method, none, none⟩]⟩
    (∀ u ∈ t.types, Merge.Settled .numpy u.doc) ∧
    (∀ u ∈ t.types, ∀ m ∈ u.members, Merge.Settled .numpy m.doc ∧ m.params = none) ∧
    ∃ u, t.inherit ⟨.named "numpy".toList, false, .chain⟩ .withBuiltins = .ok u ∧
      u.inherit ⟨.named "numpy".toList, false, .chain⟩ .withBuiltins = .ok u ∧
      u.doc = some "Sums.\n\nReturns\n-------\n    the sum".toList ∧
      u.members.map Member.doc = [some "Run.".toList] := by
  intro root middle t
  have hdoc : ∀ u ∈ t.types, Merge.Settled .numpy u.doc := by decide +kernel
  have hmembers : ∀ u ∈ t.types, ∀ m ∈ u.members,
      Merge.Settled .numpy m.doc ∧ m.params = none := by decide +kernel
  have hs : ("numpy".toList, .numpy, .replace) ∈ Registry.builtins := by decide
  obtain ⟨u, hu, hagain⟩ := inherit_inherit hs rfl hdoc hmembers false .chain
  have hshown : ((t.inherit ⟨.named "numpy".toList, false, .chain⟩ .withBuiltins).toOption.map
      fun u => (u.doc, u.members.map Member.doc)) =
      some (some "Sums.\n\nReturns\n-------\n    the sum".toList, [some "Run.".toList]) := by
    decide +kernel
  rw [hu] at hshown
  obtain ⟨hdocu, hmembersu⟩ := Prod.mk.inj (Option.some.inj hshown)
  exact ⟨hdoc, hmembers, u, hu, hagain, hdocu, hmembersu⟩

end TypeDescriptor

end Docstring
