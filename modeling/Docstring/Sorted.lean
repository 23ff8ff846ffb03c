/-!
# Sorted lists

Lists in strictly ascending order by a comparison. Of members that compare as equal the first
one that comes is kept.
-/

namespace Docstring

namespace Sorted

variable {α : Type}

/-- A sorted list with one more member, unless an equal one is there. -/
def insert (cmp : α → α → Ordering) (a : α) : List α → List α
  | [] => [a]
  | b :: l =>
    match cmp a b with
    | .lt => a :: b :: l
    | .eq => b :: l
    | .gt => b :: insert cmp a l

/-- The members of a list, sorted and without repeats. -/
def ofList (cmp : α → α → Ordering) (l : List α) : List α :=
  l.foldl (fun acc a => insert cmp a acc) []

/-- A sorted list stays sorted. -/
theorem pairwise_insert {cmp : α → α → Ordering} [Std.TransCmp cmp] (a : α) {l : List α}
    (h : l.Pairwise fun x y => cmp x y = .lt) :
    (insert cmp a l).Pairwise fun x y => cmp x y = .lt := by
  have above : ∀ {b : α} {m : List α}, (∀ c ∈ m, cmp b c = .lt) → cmp b a = .lt →
      ∀ c ∈ insert cmp a m, cmp b c = .lt := by
    intro b m hm hb
    induction m with
    | nil =>
      intro c hc
      rw [List.mem_singleton.1 hc]
      exact hb
    | cons d m ih =>
      intro c hc
      rw [insert] at hc
      split at hc
      · rcases List.mem_cons.1 hc with rfl | hc
        · exact hb
        · exact hm c hc
      · exact hm c hc
      · rcases List.mem_cons.1 hc with rfl | hc
        · exact hm c List.mem_cons_self
        · exact ih (fun e he => hm e (List.mem_cons_of_mem d he)) c hc
  induction l with
  | nil => simp [insert]
  | cons b l ih =>
    obtain ⟨hb, hl⟩ := List.pairwise_cons.1 h
    rw [insert]
    split
    · rename_i hab
      refine List.pairwise_cons.2 ⟨?_, h⟩
      intro c hc
      rcases List.mem_cons.1 hc with rfl | hc
      · exact hab
      · exact Std.TransCmp.lt_trans hab (hb c hc)
    · exact h
    · rename_i hab
      exact List.pairwise_cons.2 ⟨above hb (Std.OrientedCmp.lt_of_gt hab), ih hl⟩

/-- A list is sorted as a whole. -/
theorem pairwise_ofList (cmp : α → α → Ordering) [Std.TransCmp cmp] (l : List α) :
    (ofList cmp l).Pairwise fun x y => cmp x y = .lt := by
  have folded : ∀ acc : List α, (acc.Pairwise fun x y => cmp x y = .lt) →
      (l.foldl (fun acc a => insert cmp a acc) acc).Pairwise fun x y => cmp x y = .lt := by
    induction l with
    | nil => exact fun _ h => h
    | cons a l ih => exact fun acc h => ih (insert cmp a acc) (pairwise_insert a h)
  exact folded [] List.Pairwise.nil

end Sorted

end Docstring
