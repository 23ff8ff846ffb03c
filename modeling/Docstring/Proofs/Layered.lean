import Mathlib.Data.List.TakeWhile
import Docstring.Item
import Docstring.Outline
import Docstring.Proofs.Maps

/-!
# Layers of items and of chapters

The items of ancestors are laid under those of a descendant one after the other, and the chapters
of one outline over those of another. However such layers are grouped, they give the same entries
in the same order (`merges_regroup`), so a chain of ancestors can be merged before the descendant is
(`mergeAll_eq_merge`). Items that are stale beside the parameters can be dropped at every layer or
once at the end (`mergeAllLive_eq_retain`): one that a later layer brings back is dropped again, and
what is kept stands in the order that it would have had among the others.
-/

namespace Docstring

open Text

namespace OrderedMap

variable {α β : Type} [DecidableEq α]

/-- Whether a map is a second one laid over a first. -/
structure IsOverlay (m n r : OrderedMap α β) : Prop where
  /-- The keys of the first map keep their places, and those that only the second has follow. -/
  keys_eq : r.keys = m.keys ++ n.keys.filter (· ∉ m.keys)
  /-- A key reads as in the second map where that has it, and else as in the first. -/
  get?_eq : ∀ k, r.get? k = if k ∈ n.keys then n.get? k else m.get? k

theorem isOverlay_overlay (m n : OrderedMap α β) : IsOverlay m n (m.overlay n) := by
  refine ⟨keys_overlay m n, fun k => ?_⟩
  rw [get?_overlay]
  split
  · next hk => exact Option.or_of_isSome (mem_keys_iff.1 hk)
  · next hk =>
    rw [mem_keys_iff, Option.not_isSome_iff_eq_none] at hk
    rw [hk, Option.none_or]

end OrderedMap

namespace ItemMap

/-! ### Two layers -/

theorem merge_false (m n : ItemMap) : merge false m n = if n.isEmpty then m else n := rfl

theorem merge_self (within : Bool) (m : ItemMap) : merge within m m = m := by
  cases within with
  | true => exact OrderedMap.overlay_self m
  | false => rw [merge_false, ite_self]

theorem merge_empty (within : Bool) (m : ItemMap) : merge within m OrderedMap.empty = m := by
  cases within with
  | true => exact OrderedMap.overlay_empty m
  | false => rfl

theorem empty_merge (within : Bool) (m : ItemMap) : merge within OrderedMap.empty m = m := by
  cases within with
  | true => exact OrderedMap.empty_overlay m
  | false =>
    rw [merge_false]
    split
    · next hm => exact (OrderedMap.isEmpty_iff.1 hm).symm
    · rfl

theorem merge_assoc (within : Bool) (l m n : ItemMap) :
    merge within (merge within l m) n = merge within l (merge within m n) := by
  cases within with
  | true => exact OrderedMap.overlay_assoc l m n
  | false =>
    -- the last layer that has items is all that is left
    simp only [merge_false]
    cases hn : n.isEmpty with
    | true => rfl
    | false => simp [hn]

/-! ### A chain of layers -/

/-- Items with those of ancestors laid under them, one ancestor after the other. -/
def mergeAll (within : Bool) (ancestors : List ItemMap) (items : ItemMap) : ItemMap :=
  ancestors.foldl (fun acc m => merge within m acc) items

/-- Items with those of ancestors laid under them, where stale ones are dropped every time. -/
def mergeAllLive (params : List Text) (ancestors : List ItemMap) (items : ItemMap) : ItemMap :=
  ancestors.foldl (fun acc m => retain params (merge true m acc)) items

theorem mergeAll_cons (within : Bool) (m : ItemMap) (ms : List ItemMap) (items : ItemMap) :
    mergeAll within (m :: ms) items = mergeAll within ms (merge within m items) := rfl

theorem mergeAllLive_cons (params : List Text) (m : ItemMap) (ms : List ItemMap)
    (items : ItemMap) :
    mergeAllLive params (m :: ms) items =
      mergeAllLive params ms (retain params (merge true m items)) := rfl

/-- **A chain of ancestors gives one layer**, whatever it is laid under. -/
theorem mergeAll_eq_merge (within : Bool) (ancestors : List ItemMap) (items : ItemMap) :
    mergeAll within ancestors items =
      merge within (mergeAll within ancestors OrderedMap.empty) items := by
  induction ancestors generalizing items with
  | nil => exact (empty_merge within items).symm
  | cons m ms ih =>
    calc mergeAll within (m :: ms) items
        = merge within (mergeAll within ms OrderedMap.empty) (merge within m items) := ih _
      _ = merge within (merge within (mergeAll within ms OrderedMap.empty) m) items :=
          (merge_assoc within _ m items).symm
      _ = merge within (mergeAll within ms m) items := by rw [← ih m]
      _ = merge within (mergeAll within (m :: ms) OrderedMap.empty) items := by
          rw [mergeAll_cons, merge_empty]

end ItemMap

/-- **Layers can be regrouped.** Merging items is associative and idempotent, and no items are
neutral on either side, whether sections are merged within or replaced; so ancestors that are merged
one after the other give one layer. Within a section the names of the ancestor come first and those
that only the descendant has follow, each with the descendant's body where that has the name. The
titles of outlines that are written over one another, and what stands under them, go by the same
laws. -/
theorem merges_regroup (within : Bool) :
    ((∀ l m n : ItemMap, ItemMap.merge within (ItemMap.merge within l m) n =
        ItemMap.merge within l (ItemMap.merge within m n)) ∧
      (∀ m : ItemMap, ItemMap.merge within m m = m) ∧
      (∀ m : ItemMap, ItemMap.merge within OrderedMap.empty m = m ∧
        ItemMap.merge within m OrderedMap.empty = m) ∧
      ∀ (ancestors : List ItemMap) (items : ItemMap), ItemMap.mergeAll within ancestors items =
        ItemMap.merge within (ItemMap.mergeAll within ancestors OrderedMap.empty) items) ∧
    (∀ m n : ItemMap, OrderedMap.IsOverlay m n (ItemMap.merge true m n)) ∧
    (∀ o p : Outline, OrderedMap.IsOverlay o.chapters p.chapters (o.overlay p).chapters) ∧
    (∀ o p q : Outline, (o.overlay p).overlay q = o.overlay (p.overlay q)) ∧
    ∀ o : Outline, o.overlay o = o := by
  refine ⟨⟨ItemMap.merge_assoc within, ItemMap.merge_self within, fun m => ?_,
    ItemMap.mergeAll_eq_merge within⟩, OrderedMap.isOverlay_overlay,
    fun o p => OrderedMap.isOverlay_overlay o.chapters p.chapters, fun o p q => ?_, fun o => ?_⟩
  · exact ⟨ItemMap.empty_merge within m, ItemMap.merge_empty within m⟩
  · exact congrArg Outline.mk (OrderedMap.overlay_assoc o.chapters p.chapters q.chapters)
  · exact congrArg Outline.mk (OrderedMap.overlay_self o.chapters)

namespace ItemMap

variable {params : List Text} {p q name : Text}

/-! ### Names and stars -/

/-- Whether two names are the same but for the stars in front of either. -/
def SameButStars (p q : Text) : Prop :=
  ∃ i j rest, p = List.replicate i '*' ++ rest ∧ q = List.replicate j '*' ++ rest

theorem bareName_replicate_append (i : Nat) (t : Text) :
    bareName (List.replicate i '*' ++ t) = bareName t :=
  List.dropWhile_append_of_pos fun c hc => by simp [(List.mem_replicate.1 hc).2]

theorem exists_eq_replicate_append_bareName (t : Text) :
    ∃ i, t = List.replicate i '*' ++ bareName t := by
  refine ⟨(t.takeWhile (· = '*')).length, ?_⟩
  have hstars : t.takeWhile (· = '*') = List.replicate (t.takeWhile (· = '*')).length '*' :=
    List.eq_replicate_of_mem fun c hc => by simpa using List.mem_takeWhile_imp hc
  rw [← hstars, bareName, List.takeWhile_append_dropWhile]

/-- Names without their stars are equal just where the names are the same but for stars. -/
theorem bareName_eq_iff : bareName p = bareName q ↔ SameButStars p q := by
  constructor
  · intro h
    obtain ⟨i, hp⟩ := exists_eq_replicate_append_bareName p
    obtain ⟨j, hq⟩ := exists_eq_replicate_append_bareName q
    exact ⟨i, j, bareName p, hp, by rwa [h]⟩
  · rintro ⟨i, j, rest, rfl, rfl⟩
    rw [bareName_replicate_append, bareName_replicate_append]

theorem isLive_iff : isLive params name = true ↔
    name.head? = some '*' ∨ ∃ p ∈ params, SameButStars p name := by
  simp [isLive, bareName_eq_iff]

/-! ### Layers without stale items -/

theorem retain_retain (params : List Text) (m : ItemMap) :
    retain params (retain params m) = retain params m :=
  OrderedMap.filterKeys_filterKeys_self _ m

theorem retain_merge (params : List Text) (m n : ItemMap) :
    retain params (merge true m n) = merge true (retain params m) (retain params n) :=
  OrderedMap.filterKeys_overlay _ m n

/-- What is dropped before a merge is dropped after it just as well. -/
theorem retain_merge_retain (params : List Text) (m n : ItemMap) :
    retain params (merge true m (retain params n)) = retain params (merge true m n) := by
  rw [retain_merge, retain_retain, ← retain_merge]

/-- Items that hold no stale ones are laid over ancestors as if nothing was dropped on the way. -/
theorem mergeAllLive_retain (params : List Text) (ancestors : List ItemMap) (items : ItemMap) :
    mergeAllLive params ancestors (retain params items) =
      retain params (mergeAll true ancestors items) := by
  induction ancestors generalizing items with
  | nil => rfl
  | cons m ms ih => rw [mergeAllLive_cons, retain_merge_retain, ih, mergeAll_cons]

/-- An item is kept where it was there before, and has stars or names a parameter. -/
theorem mem_entries_retain {m : ItemMap} {e : Text × Text} :
    e ∈ (retain params m).entries ↔
      e ∈ m.entries ∧ (e.1.head? = some '*' ∨ ∃ p ∈ params, SameButStars p e.1) := by
  rw [retain, OrderedMap.entries_filterKeys, List.mem_filter, isLive_iff]

/-- **Stale items can be dropped at every ancestor or once at the end**, if there is an ancestor at
all. Dropping them a second time changes nothing. What is kept are just the items that have stars or
name a parameter, whatever stars either has, in the order in which they were. -/
theorem mergeAllLive_eq_retain (params : List Text) {ancestors : List ItemMap}
    (h : ancestors ≠ []) (items : ItemMap) :
    mergeAllLive params ancestors items = retain params (mergeAll true ancestors items) ∧
    (∀ m : ItemMap, retain params (retain params m) = retain params m) ∧
    ∀ m : ItemMap, (retain params m).entries.Sublist m.entries ∧
      ∀ e, e ∈ (retain params m).entries ↔
        e ∈ m.entries ∧ (e.1.head? = some '*' ∨ ∃ p ∈ params, SameButStars p e.1) := by
  refine ⟨?_, retain_retain params, fun m => ⟨?_, fun e => mem_entries_retain⟩⟩
  · -- the first ancestor drops what the items brought along
    obtain ⟨m, ms, rfl⟩ := List.exists_cons_of_ne_nil h
    rw [mergeAllLive_cons, mergeAllLive_retain, mergeAll_cons]
  · rw [retain, OrderedMap.entries_filterKeys]
    exact List.filter_sublist

/-- The farther ancestor brings back a name that is dropped at the nearer one, and items with stars
on either side are kept. -/
theorem mergeAllLive_eq_retain_stars :
    let params := ["x".toList, "**kw".toList]
    let near : ItemMap := OrderedMap.ofList
      [("*args".toList, ": old".toList), ("y".toList, ": old".toList)]
    let far : ItemMap := OrderedMap.ofList
      [("x".toList, ": far".toList), ("kw".toList, ": far".toList), ("y".toList, ": far".toList)]
    let items : ItemMap := OrderedMap.ofList
      [("y".toList, ": new".toList), ("x".toList, ": new".toList)]
    mergeAllLive params [near, far] items = retain params (mergeAll true [near, far] items) ∧
    (mergeAllLive params [near, far] items).entries =
      [("x".toList, ": new".toList), ("kw".toList, ": far".toList),
        ("*args".toList, ": old".toList)] ∧
    ("kw".toList, ": far".toList) ∈ (retain params far).entries := by
  intro params near far items
  obtain ⟨hall, -, hkept⟩ :=
    mergeAllLive_eq_retain params (List.cons_ne_nil near [far]) items
  refine ⟨hall, rfl, ((hkept far).2 _).2 ⟨?_, .inr ⟨"**kw".toList, ?_, ?_⟩⟩⟩
  · exact List.mem_cons_of_mem _ List.mem_cons_self
  · exact List.mem_cons_of_mem _ List.mem_cons_self
  · exact ⟨2, 0, "kw".toList, rfl, rfl⟩

end ItemMap

end Docstring
