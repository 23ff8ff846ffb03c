/-!
# Ordered maps

A map that lists its entries in the order in which their keys first came. Writing to a key
that is present keeps its place and takes the new value; a new key goes to the end.
-/

namespace Docstring

/-- Entries with distinct keys, in order. -/
structure OrderedMap (α β : Type) where
  /-- The entries, first key first. -/
  entries : List (α × β)
  /-- No key comes twice. -/
  nodup_keys : (entries.map Prod.fst).Nodup

namespace OrderedMap

variable {α β : Type}

/-- The map without entries. -/
def empty : OrderedMap α β := ⟨[], by simp⟩

instance : Inhabited (OrderedMap α β) := ⟨empty⟩

/-- The keys, in order. -/
def keys (m : OrderedMap α β) : List α := m.entries.map Prod.fst

/-- The values, in the order of their keys. -/
def values (m : OrderedMap α β) : List β := m.entries.map Prod.snd

/-- Whether there is no entry. -/
def isEmpty (m : OrderedMap α β) : Bool := m.entries.isEmpty

/-- Two maps with the same entries in the same order are equal. -/
@[ext] theorem ext {m n : OrderedMap α β} (h : m.entries = n.entries) : m = n := by
  cases m
  cases n
  cases h
  rfl

instance [DecidableEq α] [DecidableEq β] : DecidableEq (OrderedMap α β) := fun m n =>
  decidable_of_iff (m.entries = n.entries) ⟨ext, fun h => h ▸ rfl⟩

@[simp] theorem entries_empty : (empty : OrderedMap α β).entries = [] := rfl

/-- The entries whose key satisfies `p`. -/
def filterKeys (p : α → Bool) (m : OrderedMap α β) : OrderedMap α β where
  entries := m.entries.filter fun e => p e.1
  nodup_keys := m.nodup_keys.sublist (List.filter_sublist.map Prod.fst)

@[simp] theorem entries_filterKeys (p : α → Bool) (m : OrderedMap α β) :
    (m.filterKeys p).entries = m.entries.filter fun e => p e.1 := rfl

variable [DecidableEq α]

/-- The value of a key. -/
def get? (m : OrderedMap α β) (k : α) : Option β := m.entries.lookup k

/-- Entries with one entry written: in the place of its key, or else at the end. -/
def write (k : α) (v : β) : List (α × β) → List (α × β)
  | [] => [(k, v)]
  | e :: es => if e.1 = k then (k, v) :: es else e :: write k v es

/-- Writing to a key that is present leaves the keys as they are. -/
theorem map_fst_write_of_mem {k : α} (v : β) {es : List (α × β)} (h : k ∈ es.map Prod.fst) :
    (write k v es).map Prod.fst = es.map Prod.fst := by
  induction es with
  | nil => simp at h
  | cons e es ih =>
    by_cases he : e.1 = k
    · simp [write, he]
    · simp only [List.map_cons, List.mem_cons, Ne.symm he, false_or] at h
      simp [write, he, ih h]

/-- Writing to a new key adds it at the end. -/
theorem write_of_notMem {k : α} (v : β) {es : List (α × β)} (h : k ∉ es.map Prod.fst) :
    write k v es = es ++ [(k, v)] := by
  induction es with
  | nil => rfl
  | cons e es ih =>
    simp only [List.map_cons, List.mem_cons, not_or] at h
    simp [write, Ne.symm h.1, ih h.2]

theorem nodup_map_fst_write (k : α) (v : β) {es : List (α × β)}
    (h : (es.map Prod.fst).Nodup) : ((write k v es).map Prod.fst).Nodup := by
  by_cases hk : k ∈ es.map Prod.fst
  · rw [map_fst_write_of_mem v hk]
    exact h
  · rw [write_of_notMem v hk, List.map_append, List.map_cons, List.map_nil]
    refine List.nodup_append.2 ⟨h, by simp, ?_⟩
    intro a ha b hb
    rw [List.mem_singleton.1 hb]
    rintro rfl
    exact hk ha

/-- The map with one entry written. -/
def insert (m : OrderedMap α β) (k : α) (v : β) : OrderedMap α β where
  entries := write k v m.entries
  nodup_keys := nodup_map_fst_write k v m.nodup_keys

/-- The map without the entry of one key; the others keep their order. -/
def erase (m : OrderedMap α β) (k : α) : OrderedMap α β := m.filterKeys fun k' => k' ≠ k

/-- The map with all given entries written, first to last. -/
def insertAll (m : OrderedMap α β) (es : List (α × β)) : OrderedMap α β :=
  es.foldl (fun acc e => acc.insert e.1 e.2) m

/-- The map of a list of entries: a key that comes again keeps its first place and takes the
last value. -/
def ofList (es : List (α × β)) : OrderedMap α β := empty.insertAll es

/-- The first map with the entries of the second written over it. -/
def overlay (m n : OrderedMap α β) : OrderedMap α β := m.insertAll n.entries

/-! ### Keys -/

@[simp] theorem entries_insert (m : OrderedMap α β) (k : α) (v : β) :
    (m.insert k v).entries = write k v m.entries := rfl

theorem keys_insert_of_mem {m : OrderedMap α β} {k : α} (v : β) (h : k ∈ m.keys) :
    (m.insert k v).keys = m.keys :=
  map_fst_write_of_mem v h

theorem keys_insert_of_notMem {m : OrderedMap α β} {k : α} (v : β) (h : k ∉ m.keys) :
    (m.insert k v).keys = m.keys ++ [k] := by
  simp only [keys, entries_insert]
  rw [write_of_notMem v h]
  simp

/-! ### Values -/

theorem lookup_cons_eq (k a : α) (b : β) (es : List (α × β)) :
    ((a, b) :: es).lookup k = if k = a then some b else es.lookup k := by
  by_cases h : k = a <;> simp [List.lookup_cons, h, beq_false_of_ne]

theorem lookup_write (k k' : α) (v : β) (es : List (α × β)) :
    (write k v es).lookup k' = if k' = k then some v else es.lookup k' := by
  induction es with
  | nil => simp [write, lookup_cons_eq]
  | cons e es ih =>
    obtain ⟨a, b⟩ := e
    by_cases ha : a = k
    · subst ha
      by_cases h : k' = a <;> simp [write, lookup_cons_eq, h]
    · by_cases h : k' = a
      · subst h
        simp [write, ha]
      · simp [write, lookup_cons_eq, ha, ih, h]

/-- A key reads as last written, and writing to one key changes no other. -/
@[simp] theorem get?_insert (m : OrderedMap α β) (k k' : α) (v : β) :
    (m.insert k v).get? k' = if k' = k then some v else m.get? k' :=
  lookup_write k k' v m.entries

theorem isSome_lookup (k : α) (es : List (α × β)) :
    (es.lookup k).isSome = true ↔ k ∈ es.map Prod.fst := by
  induction es with
  | nil => simp
  | cons e es ih =>
    obtain ⟨a, b⟩ := e
    by_cases h : k = a <;> simp [lookup_cons_eq, h, ih]

/-- The keys are what has a value. -/
theorem mem_keys_iff {m : OrderedMap α β} {k : α} : k ∈ m.keys ↔ (m.get? k).isSome = true :=
  (isSome_lookup k m.entries).symm

theorem lookup_filter (p : α → Bool) (k : α) (es : List (α × β)) :
    (es.filter fun e => p e.1).lookup k = if p k then es.lookup k else none := by
  induction es with
  | nil => simp
  | cons e es ih =>
    obtain ⟨a, b⟩ := e
    by_cases hk : k = a
    · subst hk
      cases h : p k
      · simpa [h] using ih
      · simp [h]
    · cases h : p a <;> simp [h, lookup_cons_eq, hk, ih]

/-- A key that is kept reads as before, and any other key as none. -/
@[simp] theorem get?_filterKeys (p : α → Bool) (m : OrderedMap α β) (k : α) :
    (m.filterKeys p).get? k = if p k then m.get? k else none :=
  lookup_filter p k m.entries

/-- A key that is erased reads as none, and any other as before. -/
theorem get?_erase (m : OrderedMap α β) (k k' : α) :
    (m.erase k).get? k' = if k' = k then none else m.get? k' := by
  rw [erase, get?_filterKeys]
  by_cases h : k' = k <;> simp [h]

@[simp] theorem get?_empty (k : α) : (empty : OrderedMap α β).get? k = none := rfl

end OrderedMap

end Docstring
