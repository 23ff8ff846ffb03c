import Mathlib.Data.List.Basic
import Docstring.OrderedMap

/-!
# Ordered maps by what they show

An ordered map is known by its keys, in order, and by what each of them reads as
(`OrderedMap.ext_get?`). So maps that are written over one another can be regrouped
(`overlay_assoc`), and it does not matter whether keys are dropped before or after
(`filterKeys_overlay`).
-/

namespace Docstring

namespace OrderedMap

variable {α β γ : Type}

theorem isEmpty_iff {m : OrderedMap α β} : m.isEmpty = true ↔ m = empty := by
  rw [isEmpty, List.isEmpty_iff]
  constructor
  · intro h
    exact ext h
  · rintro rfl
    rfl

/-! ### Keys that are kept -/

@[simp] theorem keys_filterKeys (p : α → Bool) (m : OrderedMap α β) :
    (m.filterKeys p).keys = m.keys.filter p := by
  rw [keys, keys, entries_filterKeys, List.filter_map]
  rfl

@[simp] theorem filterKeys_filterKeys_self (p : α → Bool) (m : OrderedMap α β) :
    (m.filterKeys p).filterKeys p = m.filterKeys p := by
  apply ext
  rw [entries_filterKeys, entries_filterKeys, List.filter_filter]
  simp

/-! ### Values through a function -/

/-- The map with what a function makes of each value. -/
def map (f : β → γ) (m : OrderedMap α β) : OrderedMap α γ where
  entries := m.entries.map fun e => (e.1, f e.2)
  nodup_keys := by
    rw [List.map_map]
    exact m.nodup_keys

@[simp] theorem entries_map (f : β → γ) (m : OrderedMap α β) :
    (m.map f).entries = m.entries.map fun e => (e.1, f e.2) := rfl

@[simp] theorem keys_map (f : β → γ) (m : OrderedMap α β) : (m.map f).keys = m.keys := by
  rw [keys, map, List.map_map]
  rfl

variable [DecidableEq α]

theorem lookup_map_snd (f : β → γ) (es : List (α × β)) (k : α) :
    (es.map fun e => (e.1, f e.2)).lookup k = (es.lookup k).map f := by
  induction es with
  | nil => rfl
  | cons e es ih =>
    obtain ⟨a, b⟩ := e
    rw [List.map_cons, lookup_cons_eq, lookup_cons_eq, ih]
    split <;> rfl

@[simp] theorem get?_map (f : β → γ) (m : OrderedMap α β) (k : α) :
    (m.map f).get? k = (m.get? k).map f :=
  lookup_map_snd f m.entries k

/-! ### Keys and values -/

theorem lookup_eq_of_mem {es : List (α × β)} (hn : (es.map Prod.fst).Nodup) {a : α} {b : β}
    (h : (a, b) ∈ es) : es.lookup a = some b := by
  induction es with
  | nil => simp at h
  | cons e es ih =>
    obtain ⟨a', b'⟩ := e
    rw [List.map_cons, List.nodup_cons] at hn
    rw [lookup_cons_eq]
    rcases List.mem_cons.1 h with h | h
    · obtain ⟨rfl, rfl⟩ := Prod.mk.inj h
      exact if_pos rfl
    · have hne : a ≠ a' := by
        intro he
        exact hn.1 (List.mem_map.2 ⟨(a, b), h, he⟩)
      rw [if_neg hne, ih hn.2 h]

/-- A map is its keys, in order, with what they read as. -/
theorem entries_eq_map_keys (m : OrderedMap α β) :
    m.entries.map (fun e => (e.1, some e.2)) = m.keys.map fun k => (k, m.get? k) := by
  rw [keys, List.map_map]
  refine List.map_congr_left fun e he => ?_
  exact Prod.ext rfl (lookup_eq_of_mem m.nodup_keys he).symm

/-- Two maps with the same keys in the same order and the same values are equal. -/
theorem ext_get? {m n : OrderedMap α β} (hk : m.keys = n.keys)
    (h : ∀ k ∈ m.keys, m.get? k = n.get? k) : m = n := by
  have hinj : Function.Injective fun e : α × β => (e.1, some e.2) := by
    rintro ⟨a, b⟩ ⟨a', b'⟩ he
    simpa using he
  apply ext
  apply List.map_injective_iff.2 hinj
  rw [entries_eq_map_keys, entries_eq_map_keys, ← hk]
  exact List.map_congr_left fun k hm => Prod.ext rfl (h k hm)

theorem get?_insertAll_map (g : α → β) (ks : List α) (m : OrderedMap α β) (k : α) :
    (m.insertAll (ks.map fun j => (j, g j))).get? k = if k ∈ ks then some (g k) else m.get? k := by
  induction ks generalizing m with
  | nil => simp [insertAll]
  | cons j ks ih =>
    have hstep : m.insertAll ((j :: ks).map fun j => (j, g j)) =
        (m.insert j (g j)).insertAll (ks.map fun j => (j, g j)) := rfl
    rw [hstep, ih, get?_insert]
    by_cases hk : k ∈ ks
    · simp [hk]
    · by_cases hj : k = j
      · subst hj
        simp
      · simp [hk, hj]

/-! ### Overlays -/

theorem keys_insertAll {es : List (α × β)} (hn : (es.map Prod.fst).Nodup) (m : OrderedMap α β) :
    (m.insertAll es).keys = m.keys ++ (es.map Prod.fst).filter fun k => k ∉ m.keys := by
  induction es generalizing m with
  | nil => simp [insertAll]
  | cons e es ih =>
    rw [List.map_cons, List.nodup_cons] at hn
    have hstep : m.insertAll (e :: es) = (m.insert e.1 e.2).insertAll es := rfl
    rw [hstep, ih hn.2, List.map_cons]
    by_cases hk : e.1 ∈ m.keys
    · rw [keys_insert_of_mem e.2 hk, List.filter_cons_of_neg (by simp [hk])]
    · rw [keys_insert_of_notMem e.2 hk, List.filter_cons_of_pos (by simp [hk]), List.append_assoc,
        List.singleton_append]
      congr 2
      -- the new key does not come again
      refine List.filter_congr fun k hmem => ?_
      have hne : k ≠ e.1 := fun he => hn.1 (he ▸ hmem)
      simp [hne]

theorem get?_insertAll {es : List (α × β)} (hn : (es.map Prod.fst).Nodup) (m : OrderedMap α β)
    (k : α) : (m.insertAll es).get? k = (es.lookup k).or (m.get? k) := by
  induction es generalizing m with
  | nil => rfl
  | cons e es ih =>
    obtain ⟨a, b⟩ := e
    rw [List.map_cons, List.nodup_cons] at hn
    have hstep : m.insertAll ((a, b) :: es) = (m.insert a b).insertAll es := rfl
    rw [hstep, ih hn.2, get?_insert, lookup_cons_eq]
    by_cases hk : k = a
    · subst hk
      have hnone : es.lookup k = none := by
        rw [← Option.not_isSome_iff_eq_none, isSome_lookup]
        exact hn.1
      simp [hnone]
    · simp [hk]

theorem mem_keys_insertAll {es : List (α × β)} {m : OrderedMap α β} {k : α} :
    k ∈ (m.insertAll es).keys ↔ k ∈ m.keys ∨ k ∈ es.map Prod.fst := by
  induction es generalizing m with
  | nil => simp [insertAll]
  | cons e es ih =>
    have hstep : m.insertAll (e :: es) = (m.insert e.1 e.2).insertAll es := rfl
    rw [hstep, ih, mem_keys_iff, get?_insert, mem_keys_iff, List.map_cons, List.mem_cons]
    by_cases hk : k = e.1 <;> simp [hk]

/-- The keys of an overlay: those of the first map, and what the second adds. -/
theorem keys_overlay (m n : OrderedMap α β) :
    (m.overlay n).keys = m.keys ++ n.keys.filter fun k => k ∉ m.keys :=
  keys_insertAll n.nodup_keys m

/-- An overlay reads as the second map where that has the key. -/
theorem get?_overlay (m n : OrderedMap α β) (k : α) :
    (m.overlay n).get? k = (n.get? k).or (m.get? k) :=
  get?_insertAll n.nodup_keys m k

theorem mem_keys_overlay {m n : OrderedMap α β} {k : α} :
    k ∈ (m.overlay n).keys ↔ k ∈ m.keys ∨ k ∈ n.keys :=
  mem_keys_insertAll

@[simp] theorem overlay_empty (m : OrderedMap α β) : m.overlay empty = m := rfl

@[simp] theorem empty_overlay (m : OrderedMap α β) : empty.overlay m = m := by
  apply ext_get?
  · rw [keys_overlay]
    simp [keys]
  · intro k _
    rw [get?_overlay, get?_empty, Option.or_none]

/-- A map written over itself stays as it is. -/
theorem overlay_self (m : OrderedMap α β) : m.overlay m = m := by
  apply ext_get?
  · rw [keys_overlay, List.filter_eq_nil_iff.2 (by simp), List.append_nil]
  · intro k _
    rw [get?_overlay, Option.or_self]

/-- **Maps written over one another can be regrouped**: a key that the first map lacks goes where
the first of the others that has it would put it. -/
theorem overlay_assoc (l m n : OrderedMap α β) :
    (l.overlay m).overlay n = l.overlay (m.overlay n) := by
  apply ext_get?
  · have hnew : n.keys.filter (fun k => k ∉ (l.overlay m).keys) =
        (n.keys.filter fun k => k ∉ m.keys).filter fun k => k ∉ l.keys := by
      rw [List.filter_filter]
      refine List.filter_congr fun k _ => ?_
      simp [mem_keys_overlay]
    calc ((l.overlay m).overlay n).keys
        = l.keys ++ m.keys.filter (fun k => k ∉ l.keys) ++
            n.keys.filter (fun k => k ∉ (l.overlay m).keys) := by
          rw [keys_overlay, keys_overlay l m]
      _ = l.keys ++ (m.overlay n).keys.filter (fun k => k ∉ l.keys) := by
          rw [hnew, keys_overlay m n, List.filter_append, List.append_assoc]
      _ = (l.overlay (m.overlay n)).keys := (keys_overlay l (m.overlay n)).symm
  · intro k _
    rw [get?_overlay, get?_overlay, get?_overlay, get?_overlay, Option.or_assoc]

/-- **Keys are kept before or after maps are written over one another**: whether a key is new is
the same beside the keys that are kept, if it is kept itself. -/
theorem filterKeys_overlay (p : α → Bool) (m n : OrderedMap α β) :
    (m.overlay n).filterKeys p = (m.filterKeys p).overlay (n.filterKeys p) := by
  apply ext_get?
  · rw [keys_filterKeys, keys_overlay, keys_overlay, List.filter_append, keys_filterKeys,
      keys_filterKeys, List.filter_filter, List.filter_filter]
    congr 1
    refine List.filter_congr fun k _ => ?_
    cases hp : p k <;> simp [hp]
  · intro k _
    simp only [get?_filterKeys, get?_overlay]
    split <;> rfl

theorem entries_insertAll_of_nodup {es : List (α × β)} {m : OrderedMap α β}
    (h : (m.keys ++ es.map Prod.fst).Nodup) : (m.insertAll es).entries = m.entries ++ es := by
  induction es generalizing m with
  | nil => simp [insertAll]
  | cons e es ih =>
    have hstep : m.insertAll (e :: es) = (m.insert e.1 e.2).insertAll es := rfl
    have hnew : e.1 ∉ m.keys := by
      intro hm
      rw [List.nodup_append] at h
      exact h.2.2 e.1 hm e.1 (by simp) rfl
    have hkeys := keys_insert_of_notMem e.2 hnew
    rw [hstep, ih (by rw [hkeys]; simpa using h), entries_insert]
    rw [write_of_notMem e.2 hnew, List.append_assoc]
    rfl

theorem keys_insertAll_of_nodup {es : List (α × β)} {m : OrderedMap α β}
    (h : (m.keys ++ es.map Prod.fst).Nodup) :
    (m.insertAll es).keys = m.keys ++ es.map Prod.fst := by
  rw [keys, entries_insertAll_of_nodup h, List.map_append, ← keys]

theorem entries_ofList_of_nodup {es : List (α × β)} (h : (es.map Prod.fst).Nodup) :
    (ofList es).entries = es :=
  entries_insertAll_of_nodup (m := empty) (by simpa [keys] using h)

/-- A first entry stays in front while other keys are written. -/
theorem entries_insertAll_cons {e : α × β} {m n : OrderedMap α β} (hm : m.entries = e :: n.entries)
    {es : List (α × β)} (h : ∀ x ∈ es, x.1 ≠ e.1) :
    (m.insertAll es).entries = e :: (n.insertAll es).entries := by
  induction es generalizing m n with
  | nil => exact hm
  | cons x es ih =>
    have hx : e.1 ≠ x.1 := Ne.symm (h x List.mem_cons_self)
    refine ih (m := m.insert x.1 x.2) (n := n.insert x.1 x.2) ?_
      fun y hy => h y (List.mem_cons_of_mem x hy)
    rw [entries_insert, entries_insert, hm, write, if_neg hx]

/-! ### Entries of a map that is written entry by entry -/

/-- **Keys are listed in the order in which they first came.** -/
theorem keys_insertAll_eraseDups [BEq α] [LawfulBEq α] (es : List (α × β)) (m : OrderedMap α β) :
    (m.insertAll es).keys =
      m.keys ++ ((es.map Prod.fst).filter fun k => k ∉ m.keys).eraseDups := by
  induction es generalizing m with
  | nil => simp [insertAll]
  | cons e es ih =>
    have hstep : m.insertAll (e :: es) = (m.insert e.1 e.2).insertAll es := rfl
    rw [hstep, ih, List.map_cons]
    by_cases hk : e.1 ∈ m.keys
    · rw [keys_insert_of_mem e.2 hk, List.filter_cons_of_neg (by simp [hk])]
    · rw [keys_insert_of_notMem e.2 hk, List.filter_cons_of_pos (by simp [hk]), List.append_assoc,
        List.singleton_append, List.eraseDups_cons, List.filter_filter]
      congr 3
      refine List.filter_congr fun k _ => ?_
      by_cases he : k = e.1 <;> simp [he]

theorem keys_ofList [BEq α] [LawfulBEq α] (es : List (α × β)) :
    (ofList es).keys = (es.map Prod.fst).eraseDups := by
  rw [ofList, keys_insertAll_eraseDups]
  simp [keys]

/-- A key reads as it did, unless it is written again, and then as it was last written. -/
theorem get?_insertAll_cases {es : List (α × β)} {m : OrderedMap α β} {k : α} {v : β}
    (h : (m.insertAll es).get? k = some v) :
    (m.get? k = some v ∧ k ∉ es.map Prod.fst) ∨
      ∃ above below, es = above ++ (k, v) :: below ∧ k ∉ below.map Prod.fst := by
  induction es generalizing m with
  | nil => exact .inl ⟨h, by simp⟩
  | cons e es ih =>
    rcases ih (m := m.insert e.1 e.2) h with ⟨hget, hk⟩ | ⟨above, below, rfl, hk⟩
    · rw [get?_insert] at hget
      by_cases he : k = e.1
      · rw [if_pos he] at hget
        refine .inr ⟨[], es, ?_, hk⟩
        rw [he, ← Option.some.inj hget]
        rfl
      · rw [if_neg he] at hget
        exact .inl ⟨hget, by simpa [he] using hk⟩
    · exact .inr ⟨e :: above, below, rfl, hk⟩

/-- **An entry of a map of entries is the last one of its key.** -/
theorem exists_of_mem_ofList {es : List (α × β)} {e : α × β} (h : e ∈ (ofList es).entries) :
    ∃ above below, es = above ++ e :: below ∧ e.1 ∉ below.map Prod.fst := by
  have hget : (ofList es).get? e.1 = some e.2 := lookup_eq_of_mem (ofList es).nodup_keys h
  rcases get?_insertAll_cases hget with ⟨hnone, -⟩ | hlast
  · simp at hnone
  · exact hlast

/-- The first entry of a map stays the first. It reads as it did, unless its key is written
again. -/
theorem exists_entries_insertAll {k : α} {v : β} {xs : List (α × β)} {m : OrderedMap α β}
    (hm : m.entries = (k, v) :: xs) (es : List (α × β)) :
    ∃ w ys, (m.insertAll es).entries = (k, w) :: ys ∧
      ((w = v ∧ ∀ e ∈ es, e.1 ≠ k) ∨ (k, w) ∈ es) := by
  induction es generalizing v xs m with
  | nil => exact ⟨v, xs, hm, .inl ⟨rfl, by simp⟩⟩
  | cons e es ih =>
    obtain ⟨a, b⟩ := e
    have hentries := m.entries_insert a b
    rw [hm, write] at hentries
    by_cases ha : k = a
    · subst ha
      rw [if_pos rfl] at hentries
      obtain ⟨w, ys, hw, ⟨rfl, -⟩ | hmem⟩ := ih hentries
      · exact ⟨w, ys, hw, .inr List.mem_cons_self⟩
      · exact ⟨w, ys, hw, .inr (List.mem_cons_of_mem _ hmem)⟩
    · rw [if_neg ha] at hentries
      obtain ⟨w, ys, hw, ⟨rfl, hes⟩ | hmem⟩ := ih hentries
      · exact ⟨w, ys, hw, .inl ⟨rfl, List.forall_mem_cons.2 ⟨Ne.symm ha, hes⟩⟩⟩
      · exact ⟨w, ys, hw, .inr (List.mem_cons_of_mem _ hmem)⟩

theorem mem_write {k : α} {v : β} {es : List (α × β)} {e : α × β} (h : e ∈ write k v es) :
    e = (k, v) ∨ e ∈ es := by
  induction es with
  | nil => exact .inl (List.mem_singleton.1 h)
  | cons a es ih =>
    rw [write] at h
    split at h
    · rcases List.mem_cons.1 h with h | h
      · exact .inl h
      · exact .inr (List.mem_cons_of_mem a h)
    · rcases List.mem_cons.1 h with h | h
      · exact .inr (h ▸ List.mem_cons_self)
      · exact (ih h).imp_right (List.mem_cons_of_mem a)

theorem mem_insertAll {es : List (α × β)} {m : OrderedMap α β} {e : α × β}
    (h : e ∈ (m.insertAll es).entries) : e ∈ m.entries ∨ e ∈ es := by
  induction es generalizing m with
  | nil => exact .inl h
  | cons a es ih =>
    rcases ih (m := m.insert a.1 a.2) h with h | h
    · rcases mem_write h with h | h
      · exact .inr (h ▸ List.mem_cons_self)
      · exact .inl h
    · exact .inr (List.mem_cons_of_mem a h)

theorem mem_ofList {es : List (α × β)} {e : α × β} (h : e ∈ (ofList es).entries) : e ∈ es := by
  rcases mem_insertAll h with h | h
  · simp at h
  · exact h

/-- A map of some entries has some. -/
theorem eq_nil_of_entries_ofList {es : List (α × β)} (h : (ofList es).entries = []) : es = [] := by
  cases es with
  | nil => rfl
  | cons e es =>
    have hmem : e.1 ∈ (ofList (e :: es)).keys := mem_keys_insertAll.2 (.inr (by simp))
    rw [keys, h] at hmem
    simp at hmem

theorem length_flatMap_write_le (f : α × β → List γ) (k : α) (v : β)
    (es : List (α × β)) :
    ((write k v es).flatMap f).length ≤ (es.flatMap f).length + (f (k, v)).length := by
  induction es with
  | nil => simp [write]
  | cons a es ih =>
    rw [write]
    split
    · simp only [List.flatMap_cons, List.length_append]
      omega
    · simp only [List.flatMap_cons, List.length_append]
      omega

theorem length_flatMap_insertAll_le (f : α × β → List γ) (es : List (α × β))
    (m : OrderedMap α β) :
    ((m.insertAll es).entries.flatMap f).length ≤
      (m.entries.flatMap f).length + (es.flatMap f).length := by
  induction es generalizing m with
  | nil => simp [insertAll]
  | cons a es ih =>
    obtain ⟨k, v⟩ := a
    have hstep := ih (m.insert k v)
    have hwrite := length_flatMap_write_le f k v m.entries
    rw [entries_insert] at hstep
    rw [List.flatMap_cons, List.length_append]
    have hfold : m.insertAll ((k, v) :: es) = (m.insert k v).insertAll es := rfl
    rw [hfold]
    omega

theorem length_flatMap_ofList_le (f : α × β → List γ) (es : List (α × β)) :
    ((ofList es).entries.flatMap f).length ≤ (es.flatMap f).length := by
  have h := length_flatMap_insertAll_le f es empty
  rw [entries_empty, List.flatMap_nil, List.length_nil, Nat.zero_add] at h
  exact h

end OrderedMap

end Docstring
