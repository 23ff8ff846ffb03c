import Mathlib.Data.List.Chain
import Mathlib.Data.List.DropRight
import Mathlib.Data.List.ReduceOption
import Docstring.Merge

/-!
# What comes down a chain

Each type of a chain takes from its ancestors in turn, the nearest first, what each of them has come
to have (`descend`). Prose that is taken is put above the prose that is there. Raises are not taken
from a type that tells nothing of what it gives back, once something below it does: there the chain
divides (`strands`).

On the way down a text meets the one that it is put above. That happens to the texts of two types
where none in between has one, and the texts above the nearest ancestor of the leaf meet the first
text of all besides (`Unbroken`); nothing else meets (`descends_strands_iff`).
-/

namespace Docstring

namespace Descent

/-! ### Taking in turn -/

section

variable {α ι : Type} {op : α → α → α} {M : α → α → Prop} {as bs cs : List α} {c : α}

/-- What comes of taking from ancestors in turn, the first one first. -/
def gather (op : α → α → α) (as : List α) (c : α) : α := as.foldl (fun c a => op a c) c

/-- What the members of a chain come to have, that of the leaf first. Each takes in turn, the
nearest first, what its ancestors have come to have. -/
def descend (op : α → α → α) : List α → List α
  | [] => []
  | c :: cs => gather op (descend op cs) c :: descend op cs

/-- Whether something holds each time when ancestors are taken from in turn. -/
def Gathers (op : α → α → α) (M : α → α → Prop) : List α → α → Prop
  | [], _ => True
  | a :: as, c => M a c ∧ Gathers op M as (op a c)

/-- Whether something holds each time when a member of a chain takes from an ancestor. -/
def Descends (op : α → α → α) (M : α → α → Prop) : List α → Prop
  | [] => True
  | c :: cs => Gathers op M (descend op cs) c ∧ Descends op M cs

theorem gather_append : gather op (as ++ bs) c = gather op bs (gather op as c) :=
  List.foldl_append

theorem gathers_append :
    Gathers op M (as ++ bs) c ↔ Gathers op M as c ∧ Gathers op M bs (gather op as c) := by
  induction as generalizing c with
  | nil => simp [Gathers, gather]
  | cons a as ih =>
    rw [List.cons_append, Gathers, Gathers, ih, and_assoc]
    rfl

theorem gathers_imp {P : Prop} (h : P → Gathers op M as c) :
    Gathers op (fun a c => P → M a c) as c := by
  induction as generalizing c with
  | nil => trivial
  | cons a as ih => exact ⟨fun hP => (h hP).1, ih fun hP => (h hP).2⟩

theorem descends_imp {P : Prop} (h : P → Descends op M cs) :
    Descends op (fun a c => P → M a c) cs := by
  induction cs with
  | nil => trivial
  | cons c cs ih => exact ⟨gathers_imp fun hP => (h hP).1, ih fun hP => (h hP).2⟩

/-- Taking part by part. -/
def pointwise (op : α → α → α) (a c : ι → α) : ι → α := fun j => op (a j) (c j)

variable {fs gs : List (ι → α)} {g : ι → α} {N : ι → α → α → Prop}

theorem gather_pointwise (fs : List (ι → α)) (g : ι → α) (j : ι) :
    gather (pointwise op) fs g j = gather op (fs.map (· j)) (g j) := by
  induction fs generalizing g with
  | nil => rfl
  | cons f fs ih => exact ih (pointwise op f g)

theorem map_descend_pointwise (gs : List (ι → α)) (j : ι) :
    (descend (pointwise op) gs).map (· j) = descend op (gs.map (· j)) := by
  induction gs with
  | nil => rfl
  | cons g gs ih => rw [descend, List.map_cons, gather_pointwise, ih, List.map_cons, descend]

theorem gathers_pointwise_iff :
    Gathers (pointwise op) (fun f g => ∀ j, N j (f j) (g j)) fs g ↔
      ∀ j, Gathers op (N j) (fs.map (· j)) (g j) := by
  induction fs generalizing g with
  | nil => simp [Gathers]
  | cons f fs ih =>
    rw [Gathers, ih, ← forall_and]
    rfl

/-- What holds of each part each time holds of all of them. -/
theorem descends_pointwise_iff :
    Descends (pointwise op) (fun f g => ∀ j, N j (f j) (g j)) gs ↔
      ∀ j, Descends op (N j) (gs.map (· j)) := by
  induction gs with
  | nil => simp [Descends]
  | cons g gs ih =>
    simp only [Descends, List.map_cons, gathers_pointwise_iff, map_descend_pointwise, ih,
      forall_and]

end

/-! ### Texts above texts -/

variable {R : Text → Text → Prop} {s t : Text} {l m : List Text} {ts : List (Option Text)}

/-- Whether two runs of texts are related where they meet, one above the other. -/
def Meet (R : Text → Text → Prop) (l m : List Text) : Prop :=
  ∀ s ∈ l.getLast?, ∀ t ∈ m.head?, R s t

/-- Whether the texts of a chain, that of the leaf first, are related where they meet on the way
down: each with the next one below it, and those above the nearest ancestor of the leaf with the
first of all, too. -/
def Unbroken (R : Text → Text → Prop) (ts : List (Option Text)) : Prop :=
  ts.reduceOption.IsChain (fun t s => R s t) ∧
    ∀ s ∈ (ts.drop 2).reduceOption, ∀ t ∈ ts.reduceOption.getLast?, R s t

instance [DecidableRel R] : Decidable (Unbroken R ts) :=
  inferInstanceAs (Decidable (ts.reduceOption.IsChain (fun t s => R s t) ∧
    ∀ s ∈ (ts.drop 2).reduceOption, ∀ t ∈ ts.reduceOption.getLast?, R s t))

/-- The texts that a type takes, given those of its ancestors. -/
def legacy (ts : List (Option Text)) : List Text :=
  (descend (· ++ ·) (ts.map Option.toList)).reverse.flatten

theorem gather_lists (ls : List (List Text)) (l : List Text) :
    gather (· ++ ·) ls l = ls.reverse.flatten ++ l := by
  induction ls generalizing l with
  | nil => rfl
  | cons m ls ih =>
    rw [List.reverse_cons, List.flatten_append, List.flatten_singleton, List.append_assoc]
    exact ih (m ++ l)

/-- The texts that the leaf comes to have. -/
theorem gather_legacy (o : Option Text) (ts : List (Option Text)) :
    gather (· ++ ·) (descend (· ++ ·) (ts.map Option.toList)) o.toList = legacy ts ++ o.toList :=
  gather_lists _ _

theorem legacy_cons (o : Option Text) (ts : List (Option Text)) :
    legacy (o :: ts) = legacy ts ++ (legacy ts ++ o.toList) := by
  rw [legacy, List.map_cons, descend, gather_legacy, List.reverse_cons, List.flatten_append,
    List.flatten_singleton]
  rfl

theorem head?_legacy (ts : List (Option Text)) : (legacy ts).head? = ts.reduceOption.getLast? := by
  induction ts with
  | nil => rfl
  | cons o ts ih =>
    rw [legacy_cons, List.head?_append, List.head?_append, ih]
    cases o with
    | none => simp [List.reduceOption_cons_of_none]
    | some t =>
      cases h : ts.reduceOption.getLast? with
      | none => simp [List.reduceOption_cons_of_some, List.getLast?_cons, h]
      | some u => simp [List.reduceOption_cons_of_some, List.getLast?_cons, h]

theorem getLast?_legacy (ts : List (Option Text)) :
    (legacy ts).getLast? = ts.reduceOption.head? := by
  induction ts with
  | nil => rfl
  | cons o ts ih =>
    rw [legacy_cons, List.getLast?_append, List.getLast?_append, ih]
    cases o with
    | none => simp [List.reduceOption_cons_of_none]
    | some t => simp [List.reduceOption_cons_of_some]

theorem getLast?_legacy_append (o : Option Text) (ts : List (Option Text)) :
    (legacy ts ++ o.toList).getLast? = (o :: ts).reduceOption.head? := by
  rw [List.getLast?_append, getLast?_legacy]
  cases o with
  | none => simp [List.reduceOption_cons_of_none]
  | some t => simp [List.reduceOption_cons_of_some]

/-- Whether the texts of a run are all related to the last one. -/
def Rooted (R : Text → Text → Prop) (l : List Text) : Prop := ∀ s ∈ l, ∀ t ∈ l.getLast?, R s t

theorem rooted_cons_iff :
    Rooted R (s :: l) ↔ (∀ t ∈ (s :: l).getLast?, R s t) ∧ Rooted R l := by
  unfold Rooted
  cases l with
  | nil => simp
  | cons t l => rw [List.getLast?_cons_cons, List.forall_mem_cons]

/-- What is taken of an ancestor is put above texts that start with the first of all. -/
theorem meet_legacy_iff (o : Option Text) (ts : List (Option Text)) (m : List Text) :
    Meet R (legacy ts ++ o.toList) (legacy (o :: ts) ++ m) ∧ Rooted R ts.reduceOption ↔
      Rooted R (o :: ts).reduceOption := by
  unfold Meet
  rw [getLast?_legacy_append, List.head?_append, head?_legacy]
  cases o with
  | none =>
    rw [List.reduceOption_cons_of_none]
    cases h : ts.reduceOption with
    | nil => simp
    | cons s l =>
      rw [rooted_cons_iff, List.getLast?_cons]
      simp
  | some s =>
    rw [List.reduceOption_cons_of_some, rooted_cons_iff, List.getLast?_cons]
    simp

/-- **Where texts meet when they are taken in turn**: those of the nearest ancestor meet what is
there, and those of any other ancestor the first of all. -/
theorem gathers_meet_iff (o : Option Text) (ts : List (Option Text)) (m : List Text) :
    Gathers (· ++ ·) (Meet R) (descend (· ++ ·) ((o :: ts).map Option.toList)) m ↔
      Meet R (legacy ts ++ o.toList) m ∧ Rooted R ts.reduceOption := by
  induction ts generalizing o m with
  | nil => simp [descend, Gathers, Rooted, legacy, gather]
  | cons p ts ih =>
    rw [List.map_cons, descend, Gathers, ih, gather_legacy, List.append_assoc, meet_legacy_iff]

theorem isChain_reduceOption_cons_iff (o : Option Text) (ts : List (Option Text)) :
    (o :: ts).reduceOption.IsChain (fun t s => R s t) ↔
      Meet R ts.reduceOption.head?.toList o.toList ∧
        ts.reduceOption.IsChain (fun t s => R s t) := by
  cases o with
  | none => simp [List.reduceOption_cons_of_none, Meet]
  | some t =>
    rw [List.reduceOption_cons_of_some, List.isChain_cons]
    cases ts.reduceOption <;> simp [Meet]

theorem rooted_reduceOption_append_iff (us ts : List (Option Text)) :
    (∀ s ∈ ts.reduceOption, ∀ t ∈ (us ++ ts).reduceOption.getLast?, R s t) ↔
      Rooted R ts.reduceOption := by
  rw [List.reduceOption_append, List.getLast?_append, Rooted]
  cases h : ts.reduceOption with
  | nil => simp
  | cons s l => simp [List.getLast?_cons]

theorem unbroken_iff : Unbroken R ts ↔
    ts.reduceOption.IsChain (fun t s => R s t) ∧ Rooted R (ts.drop 2).reduceOption := by
  rw [Unbroken, ← rooted_reduceOption_append_iff (ts.take 2), List.take_append_drop]

theorem Rooted.tail (h : Rooted R ts.reduceOption) : Rooted R ts.tail.reduceOption := by
  cases ts with
  | nil => exact h
  | cons o ts =>
    cases o with
    | none => exact h
    | some t => exact (rooted_cons_iff.1 h).2

/-- Texts that are related to any others meet none that they are not related to. -/
theorem unbroken_of_forall (h : ∀ s ∈ ts.reduceOption, ∀ t, R s t) : Unbroken R ts := by
  rw [unbroken_iff]
  refine ⟨(List.pairwise_of_forall_mem_list fun t _ s hs => h s hs t).isChain, fun s hs t _ => ?_⟩
  rw [List.reduceOption_mem_iff] at hs
  exact h s (List.reduceOption_mem_iff.2 (List.mem_of_mem_drop hs)) t

/-- **Where texts meet on the way down**: nowhere else, and everywhere there. -/
theorem descends_meet_iff (ts : List (Option Text)) :
    Descends (· ++ ·) (Meet R) (ts.map Option.toList) ↔ Unbroken R ts := by
  induction ts with
  | nil => simp [Descends, Unbroken]
  | cons o ts ih =>
    rw [List.map_cons, Descends, ih, unbroken_iff, unbroken_iff, isChain_reduceOption_cons_iff]
    cases ts with
    | nil => simp [descend, Gathers, Rooted, Meet]
    | cons p ts =>
      have hmeet : Meet R (legacy ts ++ p.toList) o.toList ↔
          Meet R (p :: ts).reduceOption.head?.toList o.toList := by
        rw [Meet, Meet, getLast?_legacy_append]
        cases (p :: ts).reduceOption.head? <;> simp
      rw [gathers_meet_iff, hmeet]
      constructor
      · rintro ⟨⟨habove, hroot⟩, hchain, -⟩
        exact ⟨⟨habove, hchain⟩, hroot⟩
      · rintro ⟨⟨habove, hchain⟩, hroot⟩
        have htail := hroot.tail
        rw [List.tail_drop] at htail
        exact ⟨⟨habove, hroot⟩, hchain, htail⟩

/-! ### Sections -/

/-- What a section brings down a chain. -/
structure Strand where
  /-- Its texts, the farthest first. -/
  texts : List Text
  /-- Whether nothing is taken any more of strands above it that do not supersede others. -/
  supersedes : Bool

namespace Strand

variable {a c : Strand} {as : List Strand} {g : Bool}

/-- What is taken of an ancestor. -/
def taken (a c : Strand) : List Text := if c.supersedes && !a.supersedes then [] else a.texts

/-- A strand with what it takes of an ancestor. -/
def atop (a c : Strand) : Strand := ⟨a.taken c ++ c.texts, a.supersedes || c.supersedes⟩

/-- Whether texts are related where what is taken of an ancestor meets what is there. -/
def Meets (R : Text → Text → Prop) (a c : Strand) : Prop := Meet R (a.taken c) c.texts

theorem taken_eq_texts (h : c.supersedes = true → a.supersedes = true) : a.taken c = a.texts := by
  unfold taken
  cases ha : a.supersedes <;> simp_all

theorem supersedes_gather (as : List Strand) (c : Strand) :
    (gather atop as c).supersedes = (c.supersedes || as.any supersedes) := by
  induction as generalizing c with
  | nil => simp [gather]
  | cons a as ih =>
    rw [List.any_cons, ← Bool.or_assoc, Bool.or_comm c.supersedes]
    exact ih (a.atop c)

/-- All is taken among strands of which all supersede others, or none. -/
theorem gather_atop (has : ∀ a ∈ as, a.supersedes = g) (hc : c.supersedes = true → g = true) :
    (gather atop as c).texts = gather (· ++ ·) (as.map texts) c.texts ∧
      (Gathers atop (Meets R) as c ↔ Gathers (· ++ ·) (Meet R) (as.map texts) c.texts) := by
  induction as generalizing c with
  | nil => exact ⟨rfl, Iff.rfl⟩
  | cons a as ih =>
    rw [List.forall_mem_cons] at has
    have htaken : a.taken c = a.texts := taken_eq_texts (by rwa [has.1])
    have hnext : (a.atop c).supersedes = true → g = true := by
      rw [atop, has.1, Bool.or_eq_true]
      exact fun h => h.elim id hc
    obtain ⟨htexts, hiff⟩ := ih has.2 hnext
    rw [atop, htaken] at htexts hiff
    refine ⟨?_, ?_⟩
    · rw [gather, List.foldl_cons, ← gather, atop, htaken, htexts]
      rfl
    · rw [Gathers, Meets, atop, htaken, hiff]
      rfl

/-- Of ancestors that are superseded nothing is taken. -/
theorem gather_atop_of_stale (has : ∀ a ∈ as, a.supersedes = false) (hc : c.supersedes = true) :
    gather atop as c = c ∧ Gathers atop (Meets R) as c := by
  induction as with
  | nil => exact ⟨rfl, trivial⟩
  | cons a as ih =>
    rw [List.forall_mem_cons] at has
    have htaken : a.taken c = [] := by simp [taken, has.1, hc]
    have hatop : a.atop c = c := by rw [atop, htaken, has.1]; rfl
    obtain ⟨hgather, hmeets⟩ := ih has.2
    refine ⟨?_, ?_⟩
    · rwa [gather, List.foldl_cons, ← gather, hatop]
    · rw [Gathers, hatop]
      exact ⟨by simp [Meets, Meet, htaken], hmeets⟩

/-- Whether some strands are what those of the lower part of a chain come to have, of which all
supersede others, or none: all is taken among them, and nothing from the part above. -/
structure Apart (R : Text → Text → Prop) (g : Bool) (as low up : List Strand) : Prop where
  /-- The parts come to have what they have each by itself. -/
  descend_eq : descend atop (low ++ up) = as ++ descend atop up
  /-- All texts are taken in the lower part. -/
  texts_eq : as.map texts = descend (· ++ ·) (low.map texts)
  /-- The strands are of one kind. -/
  supersedes_eq : ∀ a ∈ as, a.supersedes = g
  /-- Texts meet in each part by itself. -/
  descends_iff : Descends atop (Meets R) (low ++ up) ↔
    Descends (· ++ ·) (Meet R) (low.map texts) ∧ Descends atop (Meets R) up

theorem Apart.nil (up : List Strand) : Apart R g [] [] up :=
  ⟨rfl, rfl, by simp, by simp [Descends]⟩

/-- The lower part goes on with a strand that takes nothing from the part above either. -/
theorem Apart.cons {low up : List Strand} (h : Apart R g as low up)
    (hc : c.supersedes = true → g = true) (hg : (gather atop as c).supersedes = g)
    (hup : g = true → ∀ a ∈ descend atop up, a.supersedes = false)
    (hnone : g = false → up = []) : Apart R g (gather atop as c :: as) (c :: low) up := by
  obtain ⟨hgather, hmeets⟩ := gather_atop (R := R) h.supersedes_eq hc
  have hupper : gather atop (descend atop up) (gather atop as c) = gather atop as c ∧
      Gathers atop (Meets R) (descend atop up) (gather atop as c) := by
    cases g with
    | false =>
      -- below strands that would be taken nothing stays apart
      rw [hnone rfl]
      exact ⟨rfl, trivial⟩
    | true => exact gather_atop_of_stale (hup rfl) hg
  refine ⟨?_, ?_, List.forall_mem_cons.2 ⟨hg, h.supersedes_eq⟩, ?_⟩
  · rw [List.cons_append, descend, h.descend_eq, gather_append, hupper.1, List.cons_append]
  · rw [List.map_cons, List.map_cons, descend, hgather, h.texts_eq]
  · rw [List.cons_append, Descends, h.descend_eq, gathers_append, hmeets, h.descends_iff,
      h.texts_eq, List.map_cons, Descends, and_iff_left hupper.2, and_assoc]

/-- **Where no strand supersedes others all is taken.** -/
theorem apart_of_forall {cs : List Strand} (h : ∀ c ∈ cs, c.supersedes = false) :
    Apart R false (descend atop cs) cs [] := by
  induction cs with
  | nil => exact .nil []
  | cons c cs ih =>
    rw [List.forall_mem_cons] at h
    have has := ih h.2
    refine has.cons (by simp [h.1]) ?_ (by simp) fun _ => rfl
    rw [supersedes_gather, h.1, Bool.false_or, List.any_eq_false]
    exact fun a ha => by simp [has.supersedes_eq a ha]

/-- **Up to the highest strand that supersedes others all is taken, and nothing from above it.** -/
theorem exists_apart_of_supersedes (low : List Strand) {up : List Strand}
    (hc : c.supersedes = true) (hup : ∀ a ∈ descend atop up, a.supersedes = false) :
    ∃ a as, Apart R true (a :: as) (low ++ [c]) up := by
  induction low with
  | nil =>
    refine ⟨_, [], (Apart.nil up).cons (fun _ => rfl) ?_ (fun _ => hup) (by simp)⟩
    rw [supersedes_gather, hc, Bool.true_or]
  | cons e low ih =>
    obtain ⟨a, as, has⟩ := ih
    refine ⟨_, a :: as, has.cons (fun _ => rfl) ?_ (fun _ => hup) (by simp)⟩
    rw [supersedes_gather, List.any_cons, has.supersedes_eq a List.mem_cons_self, Bool.true_or,
      Bool.or_true]

end Strand

/-! ### Documents along a chain -/

variable {k : Section} {ps : List Document}

/-- Whether a section of a document is that of raises, and the document tells what is given back. -/
def producing (k : Section) (p : Document) : Bool := k = .raises && Merge.produces p

/-- The strand that a section of a document is. -/
def strand (k : Section) (p : Document) : Strand := ⟨(p.text? k).toList, producing k p⟩

/-- The strands that the sections of a document are. -/
def bundle (p : Document) : Section → Strand := fun k => strand k p

/-- The parts of a chain, with the document of the leaf first, within which a section comes down.
That is all of it, but raises come down to the leaf from the highest document that tells what is
given back, and apart from that from the root to the document above that one. -/
def strands (k : Section) (ps : List Document) : List (List Document) :=
  [ps.rdropWhile fun p => !producing k p, ps.rtakeWhile fun p => !producing k p]

theorem map_texts_strand (k : Section) (ps : List Document) :
    (ps.map (strand k)).map Strand.texts = (ps.map (·.text? k)).map Option.toList := by
  simp [strand, Function.comp_def]

theorem mem_of_mem_strands {qs : List Document} {p : Document} (hqs : qs ∈ strands k ps)
    (hp : p ∈ qs) : p ∈ ps := by
  rw [strands, List.mem_pair] at hqs
  obtain rfl | rfl := hqs
  · exact (List.rdropWhile_prefix _ _).subset hp
  · exact (List.rtakeWhile_suffix _ _).subset hp

/-- **What the leaf of a chain comes to have in a section**, raises apart. -/
theorem texts_gather_bundle (hk : k ≠ .raises) (p : Document) (ps : List Document) :
    (gather (pointwise Strand.atop) (descend (pointwise Strand.atop) (ps.map bundle)) (bundle p)
      k).texts = legacy (ps.map (·.text? k)) ++ (p.text? k).toList := by
  have hall : ∀ c ∈ (p :: ps).map (strand k), c.supersedes = false :=
    List.forall_mem_map.2 fun q _ => by simp [strand, producing, hk]
  have htexts := (Strand.apart_of_forall (R := fun _ _ => True) hall).texts_eq
  rw [map_texts_strand, List.map_cons, List.map_cons, List.map_cons, descend, descend,
    gather_legacy, List.map_cons] at htexts
  have hmap : (ps.map bundle).map (· k) = ps.map (strand k) := List.map_map
  rw [gather_pointwise, map_descend_pointwise, hmap]
  exact (List.cons.inj htexts).1

/-- Texts meet in each of two parts of a chain by itself, if the lower part ends with the highest
document that tells what is given back. -/
theorem descends_append_iff {low up : List Document}
    (hlow : ∀ p ∈ low.getLast?, producing k p = true) (hup : ∀ p ∈ up, producing k p = false) :
    Descends Strand.atop (Strand.Meets R) ((low ++ up).map (strand k)) ↔
      Unbroken R (low.map (·.text? k)) ∧ Unbroken R (up.map (·.text? k)) := by
  have hnone : ∀ c ∈ up.map (strand k), c.supersedes = false := List.forall_mem_map.2 hup
  have hupper := Strand.apart_of_forall (R := R) hnone
  have hiff := hupper.descends_iff
  rw [List.append_nil, Descends, and_true] at hiff
  have hlower : Descends Strand.atop (Strand.Meets R) ((low ++ up).map (strand k)) ↔
      Descends (· ++ ·) (Meet R) ((low.map (strand k)).map Strand.texts) ∧
        Descends Strand.atop (Strand.Meets R) (up.map (strand k)) := by
    obtain rfl | ⟨init, p, rfl⟩ := low.eq_nil_or_concat
    · simp [Descends]
    · have hp : (strand k p).supersedes = true := hlow p (by simp)
      obtain ⟨a, as, has⟩ := Strand.exists_apart_of_supersedes (R := R) (init.map (strand k)) hp
        hupper.supersedes_eq
      rw [List.concat_eq_append, List.map_append, List.map_append, List.map_singleton]
      exact has.descends_iff
  rw [hlower, hiff, map_texts_strand, map_texts_strand, descends_meet_iff, descends_meet_iff]

/-- **Where the texts of a section meet on the way down a chain.** -/
theorem descends_strands_iff :
    Descends Strand.atop (Strand.Meets R) (ps.map (strand k)) ↔
      ∀ qs ∈ strands k ps, Unbroken R (qs.map (·.text? k)) := by
  have hstale : ∀ p ∈ ps.rtakeWhile (fun p => !producing k p), producing k p = false :=
    fun p hp => by simpa using List.mem_rtakeWhile_imp hp
  have hlast : ∀ p ∈ (ps.rdropWhile fun p => !producing k p).getLast?, producing k p = true := by
    intro p hp
    obtain ⟨hne, rfl⟩ := List.mem_getLast?_eq_getLast hp
    simpa using List.rdropWhile_last_not _ _ hne
  rw [strands, List.forall_mem_cons, List.forall_mem_singleton, ← descends_append_iff hlast hstale,
    List.rdropWhile_append_rtakeWhile]

end Descent

end Docstring
