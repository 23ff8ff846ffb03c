import Docstring.Proofs.Ancestry

/-!
# The order of resolution

The ancestors of a type are found depth first. A base is passed over, with all that is below it,
where a type of its name was found before. What is below it was found then too, if types of one name
are the same: the earlier type has been left by the time its name comes again, for no type lies
below itself. So passing over a base loses nothing, and the ancestors are all types that a type
extends, in the order in which they are reached first (`ancestors_eq_firsts`).
-/

namespace Docstring

namespace TypeDescriptor

variable {t u v : TypeDescriptor} {ts us found : List TypeDescriptor}

/-! ### The types below a type -/

/-- The types that a type extends, through others as well: each base, and after it what that
extends. -/
def extended (t : TypeDescriptor) : List TypeDescriptor := t.bases.flatMap types

theorem types_eq_cons_extended (t : TypeDescriptor) : t.types = t :: t.extended := types_eq_cons t

/-- What lies below a type lies below each type that has it below. -/
theorem types_sublist_of_mem_types (h : u ∈ t.types) : u.types.Sublist t.types := by
  induction t using induction with
  | step t ih =>
    rw [types_eq_cons, List.mem_cons] at h
    obtain rfl | h := h
    · exact List.Sublist.refl _
    · obtain ⟨b, hb, hu⟩ := List.mem_flatMap.1 h
      rw [types_eq_cons t]
      refine (ih b hb hu).trans (List.Sublist.cons t ?_)
      exact List.sublist_flatten_of_mem (List.mem_map_of_mem hb)

theorem mem_types_trans (hv : v ∈ u.types) (hu : u ∈ t.types) : v ∈ t.types :=
  (types_sublist_of_mem_types hu).mem hv

/-- No type lies below itself. -/
theorem ne_of_mem_extended (h : u ∈ t.extended) : u ≠ t := by
  rintro rfl
  have hmem : u ∈ u.extended := h
  obtain ⟨b, hb, hu⟩ := List.mem_flatMap.1 hmem
  have hshorter : (types b).length < (types u).length := by
    have hle := (List.sublist_flatten_of_mem (List.mem_map_of_mem (f := types) hb)).length_le
    rw [types_eq_cons_extended u, List.length_cons]
    exact Nat.lt_succ_of_le hle
  exact absurd (types_sublist_of_mem_types hu).length_le (Nat.not_le.2 hshorter)

/-! ### First of their names -/

/-- Types without those of which an earlier one has the name. -/
def firsts (us : List TypeDescriptor) : List TypeDescriptor :=
  us.eraseDupsBy fun u v => u.name = v.name

/-- A list of types with each of some types added, unless the list has a type of that name. -/
def addEach (us found : List TypeDescriptor) : List TypeDescriptor :=
  us.foldl (fun found u => if found.any fun f => f.name = u.name then found else found ++ [u]) found

theorem any_name_iff {name : Text} :
    (found.any fun f => f.name = name) = true ↔ name ∈ found.map TypeDescriptor.name := by
  simp [List.any_eq_true, List.mem_map]

theorem addEach_cons_of_mem (h : u.name ∈ found.map name) (us : List TypeDescriptor) :
    addEach (u :: us) found = addEach us found := by
  rw [addEach, List.foldl_cons, if_pos (any_name_iff.2 h), addEach]

theorem addEach_cons_of_notMem (h : u.name ∉ found.map name) (us : List TypeDescriptor) :
    addEach (u :: us) found = addEach us (found ++ [u]) := by
  rw [addEach, List.foldl_cons, if_neg (mt any_name_iff.1 h), addEach]

theorem addEach_append (us vs found : List TypeDescriptor) :
    addEach (us ++ vs) found = addEach vs (addEach us found) := List.foldl_append

/-- What is added has its name in the list. -/
theorem mem_names_addEach {n : Text} :
    n ∈ (addEach us found).map name ↔ n ∈ found.map name ∨ n ∈ us.map name := by
  induction us generalizing found with
  | nil => simp [addEach]
  | cons u us ih =>
    rw [List.map_cons, List.mem_cons]
    by_cases h : u.name ∈ found.map name
    · rw [addEach_cons_of_mem h, ih]
      constructor
      · exact fun hn => hn.imp_right .inr
      · rintro (hn | rfl | hn)
        · exact .inl hn
        · exact .inl h
        · exact .inr hn
    · rw [addEach_cons_of_notMem h, ih, List.map_append, List.mem_append, List.map_singleton,
        List.mem_singleton, or_assoc]

/-- Types whose names are all there add nothing. -/
theorem addEach_eq_self (h : ∀ u ∈ us, u.name ∈ found.map name) : addEach us found = found := by
  induction us with
  | nil => rfl
  | cons u us ih =>
    rw [addEach_cons_of_mem (h u List.mem_cons_self)]
    exact ih fun v hv => h v (List.mem_cons_of_mem u hv)

theorem addEach_eq_append (us found : List TypeDescriptor) :
    addEach us found = found ++ firsts (us.filter fun u => u.name ∉ found.map name) := by
  induction us generalizing found with
  | nil => simp [addEach, firsts]
  | cons u us ih =>
    by_cases h : u.name ∈ found.map name
    · rw [addEach_cons_of_mem h, ih, List.filter_cons_of_neg (by simpa using h)]
    · rw [addEach_cons_of_notMem h, ih, List.filter_cons_of_pos (by simpa using h), firsts, firsts,
        List.eraseDupsBy_cons, List.filter_filter, List.append_assoc, List.singleton_append]
      congr 3
      refine List.filter_congr fun v _ => ?_
      rw [Bool.eq_iff_iff, List.map_append, List.map_singleton]
      simp only [decide_eq_true_eq, Bool.and_eq_true, List.mem_append, List.mem_singleton,
        decide_eq_false_iff_not]
      tauto

theorem addEach_nil (us : List TypeDescriptor) : addEach us [] = firsts us := by
  rw [addEach_eq_append]
  simp

/-! ### Names come once -/

theorem nodup_names_addAll_of
    (h : ∀ t ∈ ts, ∀ found, (found.map name).Nodup → ((t.addAncestors found).map name).Nodup)
    (hf : (found.map name).Nodup) : ((addAll ts found).map name).Nodup := by
  induction ts generalizing found with
  | nil => exact hf
  | cons t ts ih =>
    rw [addAll]
    refine ih (fun s hs => h s (List.mem_cons_of_mem t hs)) ?_
    split
    · exact hf
    · next hnew =>
      refine h t List.mem_cons_self _ ?_
      rw [any_name_iff] at hnew
      rw [List.map_append, List.map_singleton, List.nodup_append]
      refine ⟨hf, by simp, ?_⟩
      rintro n hn m hm rfl
      rw [List.mem_singleton.1 hm] at hn
      exact hnew hn

theorem nodup_names_addAncestors (hf : (found.map name).Nodup) :
    ((t.addAncestors found).map name).Nodup := by
  induction t using induction generalizing found with
  | step t ih =>
    rw [addAncestors_eq]
    exact nodup_names_addAll_of (fun b hb found => ih b hb) hf

/-- **No two ancestors of a type have a name in common.** -/
theorem nodup_names_ancestors (t : TypeDescriptor) : (t.ancestors.map name).Nodup :=
  nodup_names_addAncestors List.nodup_nil

/-! ### Nothing is lost -/

/-- Of some types those of one name are the same. -/
def Coherent (us : List TypeDescriptor) : Prop := ∀ u ∈ us, ∀ v ∈ us, u.name = v.name → u = v

/-- With a type of some types that is found by its name, all that is below it is found. -/
def Explored (us found : List TypeDescriptor) : Prop :=
  ∀ u ∈ us, u.name ∈ found.map name → ∀ v ∈ u.types, v.name ∈ found.map name

theorem Coherent.subset (h : Coherent us) (hsub : ts ⊆ us) : Coherent ts :=
  fun u hu v hv => h u (hsub hu) v (hsub hv)

theorem Explored.subset (h : Explored us found) (hsub : ts ⊆ us) : Explored ts found :=
  fun u hu => h u (hsub hu)

/-- While the types below a type are looked at, its own name is none that they could be taken
for. -/
theorem Explored.enter (h : Explored us found) (hc : Coherent us) (ht : t ∈ us)
    (hsub : t.extended ⊆ us) : Explored t.extended (found ++ [t]) := by
  intro u hu hname v hv
  rw [List.map_append, List.map_singleton, List.mem_append, List.mem_singleton] at hname ⊢
  obtain hname | hname := hname
  · exact .inl (h u (hsub hu) hname v hv)
  · exact absurd (hc u (hsub hu) t ht hname) (ne_of_mem_extended hu)

/-- Once the types below a type are found, it is explored with them. -/
theorem Explored.leave (h : Explored us found) (hc : Coherent us) (ht : t.types ⊆ us) :
    Explored us (addEach t.types found) := by
  intro u hu hname v hv
  rw [mem_names_addEach] at hname ⊢
  obtain hname | hname := hname
  · exact .inl (h u hu hname v hv)
  · obtain ⟨w, hw, hname⟩ := List.mem_map.1 hname
    obtain rfl := hc w (ht hw) u hu hname
    exact .inr (List.mem_map_of_mem (mem_types_trans hv hw))

theorem addAll_eq_addEach_of
    (h : ∀ t ∈ ts, ∀ found, Explored t.extended found →
      t.addAncestors found = addEach t.extended found)
    (hc : Coherent (ts.flatMap types)) (hf : Explored (ts.flatMap types) found) :
    addAll ts found = addEach (ts.flatMap types) found := by
  induction ts generalizing found with
  | nil => rfl
  | cons t ts ih =>
    rw [List.flatMap_cons] at hc hf ⊢
    have htypes : t.types ⊆ t.types ++ ts.flatMap types := List.subset_append_left _ _
    have hrest : ts.flatMap types ⊆ t.types ++ ts.flatMap types := List.subset_append_right _ _
    have hlater : ∀ found, Explored (t.types ++ ts.flatMap types) found →
        addAll ts found = addEach (ts.flatMap types) found := fun found hf =>
      ih (fun s hs => h s (List.mem_cons_of_mem t hs)) (hc.subset hrest) (hf.subset hrest)
    have ht : t ∈ t.types ++ ts.flatMap types := htypes t.self_mem_types
    rw [addAll, addEach_append]
    by_cases hname : t.name ∈ found.map name
    · -- the earlier type of the name is this one, and it was left
      rw [if_pos (any_name_iff.2 hname), addEach_eq_self (hf t ht hname)]
      exact hlater found hf
    · have hbelow : t.extended ⊆ t.types ++ ts.flatMap types := fun u hu =>
        htypes (by rw [types_eq_cons_extended]; exact List.mem_cons_of_mem t hu)
      have hvisit : t.addAncestors (found ++ [t]) = addEach t.types found := by
        rw [h t List.mem_cons_self _ (hf.enter hc ht hbelow), types_eq_cons_extended,
          addEach_cons_of_notMem hname]
      rw [if_neg (mt any_name_iff.1 hname), hvisit]
      exact hlater _ (hf.leave hc htypes)

theorem addAncestors_eq_addEach (hc : Coherent t.extended) (hf : Explored t.extended found) :
    t.addAncestors found = addEach t.extended found := by
  induction t using induction generalizing found with
  | step t ih =>
    rw [addAncestors_eq]
    refine addAll_eq_addEach_of (fun b hb found hf => ih b hb (hc.subset ?_) hf) hc hf
    intro u hu
    refine List.mem_flatMap.2 ⟨b, hb, ?_⟩
    rw [types_eq_cons_extended]
    exact List.mem_cons_of_mem b hu

/-- **Ancestors are all types that a type extends, as they are first reached.** No two of them have
a name in common. Where the types of one name that a type extends are the same, its ancestors are
all of these types, each base in front of what it extends, without those that come again. -/
theorem ancestors_eq_firsts (t : TypeDescriptor) :
    (t.ancestors.map name).Nodup ∧
    (Coherent t.extended →
      t.ancestors = firsts t.extended ∧ ∀ u, u ∈ t.ancestors ↔ u ∈ t.extended) := by
  refine ⟨nodup_names_ancestors t, fun hc => ?_⟩
  have hnone : Explored t.extended [] := fun u _ hname => absurd hname (by simp)
  have hall : t.ancestors = addEach t.extended [] := addAncestors_eq_addEach hc hnone
  refine ⟨by rw [hall, addEach_nil], fun u => ⟨fun hu => ?_, fun hu => ?_⟩⟩
  · exact List.mem_flatMap.2 (exists_base_of_mem_ancestors hu)
  · have hname : u.name ∈ t.ancestors.map name := by
      rw [hall, mem_names_addEach]
      exact .inr (List.mem_map_of_mem hu)
    obtain ⟨v, hv, hname⟩ := List.mem_map.1 hname
    rwa [← hc v (List.mem_flatMap.2 (exists_base_of_mem_ancestors hv)) u hu hname]

/-- A diamond over a diamond: the right-hand type extends the root by itself and through another,
and both were reached from the left. -/
theorem ancestors_eq_firsts_diamond :
    let root : TypeDescriptor := ⟨"Root".toList, some "Root.".toList, [], []⟩
    let middle : TypeDescriptor := ⟨"Middle".toList, none, [root], []⟩
    let left : TypeDescriptor := ⟨"Left".toList, none, [middle], []⟩
    let right : TypeDescriptor := ⟨"Right".toList, none, [root, middle], []⟩
    let leaf : TypeDescriptor := ⟨"Leaf".toList, none, [left, right], []⟩
    leaf.extended = [left, middle, root, right, root, middle, root] ∧ Coherent leaf.extended ∧
      leaf.ancestors = [left, middle, root, right] ∧ root ∈ leaf.ancestors := by
  intro root middle left right leaf
  have hall : leaf.extended = [left, middle, root, right, root, middle, root] := rfl
  -- each of the types is told by its name
  have hnamed : ∀ u ∈ leaf.extended,
      [left, middle, root, right].find? (fun v => v.name = u.name) = some u := by
    rw [hall]
    simp only [List.forall_mem_cons]
    exact ⟨rfl, rfl, rfl, rfl, rfl, rfl, rfl, by simp⟩
  have hc : Coherent leaf.extended := fun u hu v hv hname => by
    have hu' := hnamed u hu
    rw [hname, hnamed v hv] at hu'
    exact (Option.some.inj hu').symm
  obtain ⟨-, h⟩ := ancestors_eq_firsts leaf
  obtain ⟨hfirsts, hmem⟩ := h hc
  refine ⟨hall, hc, ?_, (hmem root).2 ?_⟩
  · rw [hfirsts, hall]
    rfl
  · rw [hall]
    simp

/-- Types of one name that differ: the second is passed over, and what it alone extends is none of
the ancestors. -/
example :
    let poor : TypeDescriptor := ⟨"Base".toList, none, [], []⟩
    let rich : TypeDescriptor := ⟨"Base".toList, none, [⟨"Root".toList, none, [], []⟩], []⟩
    (ancestors ⟨"Leaf".toList, none, [poor, rich], []⟩).map name = ["Base".toList] := rfl

end TypeDescriptor

end Docstring
