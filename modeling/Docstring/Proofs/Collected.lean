import Mathlib.Data.List.Sort
import Docstring.Proofs.Printed
import Docstring.Proofs.Locations

/-!
# Files collected from arguments

The files of a rewriting are collected argument by argument, and then they are sorted. Sorting keeps
one path of those that are equal, so what is collected depends on the set of the arguments alone, up
to how paths are spelled (`mem_descriptorFiles_iff`). The spelling makes no difference: equal paths
at which something lies lead to the same place (`resolve?_congr`), and what is printed for a file
depends on what the file holds. So the same arguments in another order, or more than once, give the
same output (`run?_tree_arguments`). Of patterns nothing is used but that the workspace says what
they stand for.
-/

namespace Docstring

/-! ### Sorted lists -/

namespace Sorted

variable {α : Type} {cmp : α → α → Ordering} [Std.TransCmp cmp]

theorem exists_mem_insert_iff (a b : α) (l : List α) :
    (∃ c ∈ insert cmp b l, cmp c a = .eq) ↔ cmp b a = .eq ∨ ∃ c ∈ l, cmp c a = .eq := by
  induction l with
  | nil => simp [insert]
  | cons d l ih =>
    rw [insert]
    split
    · exact List.exists_mem_cons_iff _ _ _
    · next hbd =>
      -- the new member is equal to one that is there
      refine ⟨.inr, fun h => h.elim (fun hb => ⟨d, List.mem_cons_self, ?_⟩) id⟩
      rw [← hb, Std.TransCmp.congr_left hbd]
    · rw [List.exists_mem_cons_iff, ih, List.exists_mem_cons_iff, or_left_comm]

/-- Sorting loses no member, up to equality, and adds none. -/
theorem exists_mem_ofList_iff (a : α) (l : List α) :
    (∃ b ∈ ofList cmp l, cmp b a = .eq) ↔ ∃ b ∈ l, cmp b a = .eq := by
  have folded : ∀ acc : List α,
      (∃ b ∈ l.foldl (fun acc a => insert cmp a acc) acc, cmp b a = .eq) ↔
        (∃ b ∈ acc, cmp b a = .eq) ∨ ∃ b ∈ l, cmp b a = .eq := by
    induction l with
    | nil => simp
    | cons c l ih =>
      intro acc
      rw [List.foldl_cons, ih, exists_mem_insert_iff, List.exists_mem_cons_iff, or_assoc,
        or_left_comm]
  rw [ofList, folded]
  simp

/-- Sorted lists with the same members are equal. -/
theorem eq_of_subset {l m : List α} (hl : l.Pairwise fun x y => cmp x y = .lt)
    (hm : m.Pairwise fun x y => cmp x y = .lt) (hlm : l ⊆ m) (hml : m ⊆ l) : l = m := by
  have hasymm : ∀ x y, cmp x y = .lt → cmp y x ≠ .lt := fun x y => Std.OrientedCmp.not_lt_of_lt
  have : Std.Irrefl fun x y => cmp x y = .lt := ⟨fun x h => hasymm x x h h⟩
  have : Std.Antisymm fun x y => cmp x y = .lt := ⟨fun x y h h' => absurd h' (hasymm x y h)⟩
  exact List.Subset.antisymm_of_pairwise hl hm hlm hml

end Sorted

/-! ### Equal paths -/

namespace Path

variable {p q : Path} {ps qs : List Path}

instance : Std.LawfulEqCmp Part.compare where
  eq_of_compare {x y} h := by
    rw [Part.compare, Ordering.then_eq_eq] at h
    have hrank : x.rank = y.rank := Std.LawfulEqCmp.eq_of_compare h.1
    have htext : x.text = y.text := Std.LawfulEqCmp.eq_of_compare h.2
    cases x <;> cases y <;> simp_all [Part.rank, Part.text]

/-- A piece that is neither a name nor two dots makes no part. -/
theorem part?_eq_none {s : Text} (hname : ∀ t, part? s = some (.name t) → False)
    (hup : part? s = some .up → False) : part? s = none := by
  unfold part? at *
  split_ifs at *
  · rfl
  · exact absurd rfl hup
  · exact absurd rfl (hname s)

/-- Paths are equal that have the same parts. -/
theorem compare_eq_iff : compare p q = .eq ↔ parts p = parts q := by
  rw [compare, Std.LawfulEqCmp.compare_eq_iff_eq]

theorem parts_mem_map_iff : parts p ∈ ps.map parts ↔ ∃ f ∈ ps, compare f p = .eq := by
  simp only [List.mem_map, compare_eq_iff]

/-- Sorted lists that have equal paths among them are equal path by path. -/
theorem forall₂_of_pairwise (hps : ps.Pairwise fun p q => compare p q = .lt)
    (hqs : qs.Pairwise fun p q => compare p q = .lt)
    (h : ∀ p, (∃ f ∈ ps, compare f p = .eq) ↔ ∃ g ∈ qs, compare g p = .eq) :
    List.Forall₂ (fun p q => compare p q = .eq) ps qs := by
  have hsorted : ∀ {l : List Path}, (l.Pairwise fun p q => compare p q = .lt) →
      (l.map parts).Pairwise fun x y => List.compareLex Part.compare x y = .lt :=
    fun h => List.pairwise_map.2 h
  have hparts : ps.map parts = qs.map parts := by
    refine Sorted.eq_of_subset (hsorted hps) (hsorted hqs) ?_ ?_
    · exact List.forall_mem_map.2 fun p hp =>
        parts_mem_map_iff.2 ((h p).1 ⟨p, hp, compare_eq_iff.2 rfl⟩)
    · exact List.forall_mem_map.2 fun q hq =>
        parts_mem_map_iff.2 ((h q).2 ⟨q, hq, compare_eq_iff.2 rfl⟩)
  rw [← List.forall₂_eq_eq_eq, List.forall₂_map_left_iff, List.forall₂_map_right_iff] at hparts
  exact hparts.imp fun p q => compare_eq_iff.2

end Path

/-! ### Where equal paths lead -/

/-- Where a part of a path leads. -/
def Location.follow (l : Location) : Path.Part → Location
  | .root => []
  | .here => l
  | .up => l.dropLast
  | .name t => l ++ [t]

namespace Workspace

variable {w : Workspace} {k l m : Location} {p q : Path} {ts : List Text}

theorem walk?_eq_foldl (h : w.walk? l ts = some k) :
    k = (ts.filterMap Path.part?).foldl Location.follow l := by
  induction ts generalizing l with
  | nil => exact (Option.some.inj h).symm
  | cons t ts ih =>
    rw [walk?] at h
    split at h
    · split at h
      · next t' hpart =>
        split at h
        · rw [ih h, List.filterMap_cons_some hpart]
          rfl
        · cases h
      · next hpart =>
        rw [ih h, List.filterMap_cons_some hpart]
        rfl
      · next hname hup =>
        rw [ih h, List.filterMap_cons_none (Path.part?_eq_none hname hup)]
    · cases h

/-- A path leads where its parts lead. -/
theorem resolve?_eq_foldl (h : w.resolve? p = some l) :
    l = (Path.parts p).foldl Location.follow w.home := by
  unfold resolve? at h
  split_ifs at h
  rw [walk?_eq_foldl h, start, Path.parts, List.foldl_append]
  split_ifs <;> rfl

/-- **Equal paths lead to the same place**, if anything lies there by either spelling. -/
theorem resolve?_congr (h : Path.compare p q = .eq) (hp : w.resolve? p = some l)
    (hq : w.resolve? q = some m) : l = m := by
  rw [resolve?_eq_foldl hp, resolve?_eq_foldl hq, Path.compare_eq_iff.1 h]

theorem exists_resolve?_of_isFile (h : w.isFile p = true) : ∃ l, w.resolve? p = some l := by
  rw [isFile, contains, at?, Bool.and_eq_true, Option.isSome_bind, Option.any_eq_true] at h
  obtain ⟨⟨l, hl, -⟩, -⟩ := h
  exact ⟨l, hl⟩

/-- At equal paths lies the same file. -/
theorem read?_congr (h : Path.compare p q = .eq) (hp : w.isFile p = true)
    (hq : w.isFile q = true) : w.read? p = w.read? q := by
  obtain ⟨l, hl⟩ := exists_resolve?_of_isFile hp
  obtain ⟨m, hm⟩ := exists_resolve?_of_isFile hq
  obtain rfl := resolve?_congr h hl hm
  rw [read?, read?, at?, at?, hl, hm]

end Workspace

namespace TreeRequest

variable {q : TreeRequest} {w : Workspace} {p : Path} {xs ys : List Text} {fs gs : List Path}

/-! ### The files of some arguments -/

theorem descriptorFiles_singleton (w : Workspace) (a : Text) :
    descriptorFiles w [a] = (denoted w a).map Path.sorted := by
  rw [descriptorFiles, List.mapM_cons, List.mapM_nil]
  cases denoted w a with
  | error e => rfl
  | ok ps => simp [bind, Except.bind, pure, Except.pure, Except.map]

/-- An argument at which a file lies stands for that file. -/
theorem descriptorFiles_singleton_of_isFile {a : Text} (h : w.isFile a = true) :
    descriptorFiles w [a] = .ok [a] := by
  rw [descriptorFiles_singleton, denoted, if_pos h]
  rfl

/-- The files of arguments are those of each, up to how paths are spelled. -/
theorem mem_descriptorFiles_iff (h : descriptorFiles w xs = .ok fs) (p : Path) :
    (∃ f ∈ fs, Path.compare f p = .eq) ↔
      ∃ a ∈ xs, ∃ gs, descriptorFiles w [a] = .ok gs ∧ ∃ g ∈ gs, Path.compare g p = .eq := by
  obtain ⟨pss, hm, rfl⟩ := exists_of_descriptorFiles h
  have hone : ∀ a, (∃ gs, descriptorFiles w [a] = .ok gs ∧ ∃ g ∈ gs, Path.compare g p = .eq) ↔
      ∃ ps, denoted w a = .ok ps ∧ ∃ g ∈ ps, Path.compare g p = .eq := by
    intro a
    rw [descriptorFiles_singleton]
    cases denoted w a with
    | error e => simp [Except.map]
    | ok ps => simp [Except.map, Path.sorted, Sorted.exists_mem_ofList_iff]
  calc (∃ f ∈ Path.sorted pss.flatten, Path.compare f p = .eq)
    _ ↔ ∃ f ∈ pss.flatten, Path.compare f p = .eq := Sorted.exists_mem_ofList_iff p _
    _ ↔ ∃ ps ∈ pss, ∃ f ∈ ps, Path.compare f p = .eq := by
      simp only [List.mem_flatten]
      tauto
    _ ↔ ∃ a ∈ xs, ∃ ps, denoted w a = .ok ps ∧ ∃ f ∈ ps, Path.compare f p = .eq := by
      simp only [mem_iff_of_mapM hm]
      tauto
    _ ↔ _ := by simp only [hone]

/-- Arguments have no files where one of them has none. -/
theorem descriptorFiles_eq_error_iff :
    (∃ e, descriptorFiles w xs = .error e) ↔ ∃ a ∈ xs, ∃ e, descriptorFiles w [a] = .error e := by
  simp only [descriptorFiles_singleton, map_eq_error_iff]
  simp only [descriptorFiles, map_eq_error_iff, exists_mapM_eq_error_iff]

/-- **The same arguments have the same files**, whatever their order and number. -/
theorem descriptorFiles_congr (h : ∀ a, a ∈ xs ↔ a ∈ ys) (hfs : descriptorFiles w xs = .ok fs) :
    ∃ gs, descriptorFiles w ys = .ok gs ∧
      List.Forall₂ (fun f g => Path.compare f g = .eq) fs gs := by
  cases hgs : descriptorFiles w ys with
  | error e =>
    obtain ⟨a, ha, hfail⟩ := descriptorFiles_eq_error_iff.1 ⟨e, hgs⟩
    obtain ⟨e', he'⟩ := descriptorFiles_eq_error_iff.2 ⟨a, (h a).2 ha, hfail⟩
    rw [hfs] at he'
    cases he'
  | ok gs =>
    refine ⟨gs, rfl, Path.forall₂_of_pairwise (pairwise_of_descriptorFiles hfs)
      (pairwise_of_descriptorFiles hgs) fun p => ?_⟩
    rw [mem_descriptorFiles_iff hfs, mem_descriptorFiles_iff hgs]
    simp only [h]

/-- The same arguments have files that hold the same, one after the other. -/
theorem forall₂_read?_of_descriptorFiles (h : ∀ a, a ∈ xs ↔ a ∈ ys)
    (hfs : descriptorFiles w xs = .ok fs) :
    ∃ gs, descriptorFiles w ys = .ok gs ∧
      List.Forall₂ (fun f g => w.read? f = w.read? g) fs gs := by
  obtain ⟨gs, hgs, heq⟩ := descriptorFiles_congr h hfs
  refine ⟨gs, hgs, List.forall₂_iff_zip.2 ⟨heq.length_eq, fun {f g} hfg => ?_⟩⟩
  obtain ⟨hf, hg⟩ := List.of_mem_zip hfg
  exact Workspace.read?_congr ((List.forall₂_iff_zip.1 heq).2 hfg)
    (isFile_of_mem_descriptorFiles hfs hf) (isFile_of_mem_descriptorFiles hgs hg)

end TreeRequest

/-! ### Two runs -/

/-- Two runs that are not told apart by what they print, nor by the code with which they end. -/
structure Outcome.Alike (o o' : Outcome) : Prop where
  /-- They print the same. -/
  stdout : o.stdout = o'.stdout
  /-- They end with the same code. -/
  code : o.code = o'.code

namespace TreeRequest

variable {q : TreeRequest} {w : Workspace} {f g : Path} {out : Text} {ys : List Text}
  {fs gs : List Path}

theorem yields_congr (h : w.read? f = w.read? g) : q.Yields w f out ↔ q.Yields w g out := by
  rw [Yields, Yields, h]

theorem exists_faulty_congr {line : Text} (h : w.read? f = w.read? g)
    (hf : q.Faulty w f line) : ∃ line, q.Faulty w g line := by
  by_contra hno
  obtain ⟨out, hg⟩ := exists_yields hno
  exact hf.not_yields ((yields_congr h).2 hg)

/-- Files that hold the same print the same, and fail at the same place. -/
theorem steps_alike (hout : q.output = none)
    (h : List.Forall₂ (fun f g => w.read? f = w.read? g) fs gs) (printed : Text)
    (events events' : List Event) :
    (q.steps ⟨w, printed, events, none⟩ fs).Alike (q.steps ⟨w, printed, events', none⟩ gs) := by
  induction h generalizing printed events events' with
  | nil => exact ⟨rfl, rfl⟩
  | @cons f g fs gs hfg _ ih =>
    obtain ⟨out, hf, -⟩ | ⟨e, hf, -⟩ := rewritten_cases q w f
    · rw [steps, steps, step_of_yields hout hf, step_of_yields hout ((yields_congr hfg).1 hf)]
      exact ih _ _ _
    · obtain ⟨line, hg⟩ := exists_faulty_congr hfg hf
      obtain ⟨d, -, hstep⟩ := step_of_faulty hf printed events
      obtain ⟨d', -, hstep'⟩ := step_of_faulty hg printed events'
      rw [steps, steps, hstep, hstep']
      exact ⟨rfl, rfl⟩

/-- How files are dealt with does not depend on the arguments that they come of. -/
theorem steps_with_files (q : TreeRequest) (ys : List Text) (o : Outcome) (fs : List Path) :
    ({ q with files := ys } : TreeRequest).steps o fs = q.steps o fs := by
  induction fs generalizing o with
  | nil => rfl
  | cons f fs ih =>
    simp only [steps, ih]
    rfl

/-- **The same arguments give the same output**, whatever their order and number. -/
theorem runIn_alike (hout : q.output = none) (h : ∀ a, a ∈ q.files ↔ a ∈ ys) (w : Workspace) :
    (q.runIn w).Alike (runIn { q with files := ys } w) := by
  cases hfs : descriptorFiles w q.files with
  | error e =>
    obtain ⟨a, ha, hfail⟩ := descriptorFiles_eq_error_iff.1 ⟨e, hfs⟩
    obtain ⟨e', hys⟩ := descriptorFiles_eq_error_iff.2 ⟨a, (h a).1 ha, hfail⟩
    rw [runIn, runIn, hfs, hys]
    exact ⟨rfl, rfl⟩
  | ok fs =>
    obtain ⟨gs, hgs, hread⟩ := forall₂_read?_of_descriptorFiles h hfs
    cases hread with
    | nil =>
      rw [runIn, runIn, hfs, hgs]
      exact ⟨rfl, rfl⟩
    | cons hfg hread =>
      rw [runIn_eq_steps hfs (List.cons_ne_nil _ _), runIn_eq_steps hgs (List.cons_ne_nil _ _),
        steps_with_files q ys]
      exact steps_alike hout (.cons hfg hread) _ _ _

end TreeRequest

open TreeRequest in
/-- **What a rewriting prints depends on the set of its arguments.** The files of some arguments are
in strictly ascending order, and they are those that each argument has on its own, up to how paths
are spelled; a file has itself. There is a failure instead where an argument fails on its own, be it
no pattern or led through a directory that cannot be listed.
Without an output directory, a command line with the same arguments in another order, or with some
of them repeated, prints the same and ends with the same code. -/
theorem run?_tree_arguments (s : Surroundings) (xs : List Text) :
    (∀ fs, descriptorFiles s.files xs = .ok fs →
      fs.Pairwise (fun f g => Path.compare f g = .lt) ∧
      ∀ p, (∃ f ∈ fs, Path.compare f p = .eq) ↔
        ∃ a ∈ xs, ∃ gs, descriptorFiles s.files [a] = .ok gs ∧
          ∃ g ∈ gs, Path.compare g p = .eq) ∧
    (∀ a, s.files.isFile a = true → descriptorFiles s.files [a] = .ok [a]) ∧
    ((∃ e, descriptorFiles s.files xs = .error e) ↔
      ∃ a ∈ xs, ∃ e, descriptorFiles s.files [a] = .error e) ∧
    ∀ (q : TreeRequest) (ys arguments arguments' : List Text) (verbose verbose' : Bool),
      Invocation.parse? arguments = some ⟨verbose, .tree { q with files := xs }⟩ →
      Invocation.parse? arguments' = some ⟨verbose', .tree { q with files := ys }⟩ →
      q.output = none → (∀ a, a ∈ xs ↔ a ∈ ys) →
      ∃ o o', run? arguments s = some o ∧ run? arguments' s = some o' ∧
        o'.code = o.code ∧ o'.stdout = o.stdout := by
  refine ⟨fun fs hfs => ⟨pairwise_of_descriptorFiles hfs, mem_descriptorFiles_iff hfs⟩,
    fun a => descriptorFiles_singleton_of_isFile, descriptorFiles_eq_error_iff, ?_⟩
  intro q ys arguments arguments' verbose verbose' hargs hargs' hout h
  have hrun : ∀ {arguments verbose files},
      Invocation.parse? arguments = some ⟨verbose, .tree { q with files := files }⟩ →
      run? arguments s = some (runIn { q with files := files } s.files) := by
    intro arguments verbose files hargs
    rw [run?, hargs, Option.map_some, Request.run, TreeRequest.run]
    simp only [hout]
  have halike := runIn_alike (q := { q with files := xs }) hout h s.files
  exact ⟨_, _, hrun hargs, hrun hargs', halike.code.symm, halike.stdout.symm⟩

open TreeRequest in
/-- A directory, a file in it by another spelling and a pattern that stands for both files: which
spelling is kept depends on what comes first, and what is printed does not. With a directory that
cannot be listed beside them, the arguments fail. -/
theorem run?_tree_arguments_respelled :
    let xs := ["t".toList, "t//a.json".toList, "t/[ab].json".toList]
    let ys := ["t//a.json".toList, "t/[ab].json".toList, "t".toList, "t".toList]
    let q : TreeRequest := ⟨[], "parent".toList, false, false, none⟩
    let s : Surroundings :=
      ⟨⟨.ofList [(["t".toList], .directory),
        (["t".toList, "a.json".toList], .text "\x7b\"name\": \"A\"\x7d".toList),
        (["t".toList, "b.json".toList], .text "\x7b\"name\": \"B\"\x7d".toList),
        (["u".toList], .closed)], []⟩, none⟩
    Invocation.parse? ("tree".toList :: xs) = some ⟨false, .tree { q with files := xs }⟩ ∧
    Invocation.parse? ("tree".toList :: ys) = some ⟨false, .tree { q with files := ys }⟩ ∧
    q.output = none ∧ (∀ a, a ∈ xs ↔ a ∈ ys) ∧
    descriptorFiles s.files xs = .ok ["t/a.json".toList, "t/b.json".toList] ∧
    descriptorFiles s.files ys = .ok ["t//a.json".toList, "t/b.json".toList] ∧
    (∃ f ∈ ["t/a.json".toList, "t/b.json".toList],
      Path.compare f "t/./a.json".toList = .eq) ∧
    descriptorFiles s.files ["t//a.json".toList] = .ok ["t//a.json".toList] ∧
    (∃ e, descriptorFiles s.files ["t".toList, "u".toList] = .error e) ∧
    ∃ o o', run? ("tree".toList :: xs) s = some o ∧ run? ("tree".toList :: ys) s = some o' ∧
      o.code = 0 ∧ o'.code = 0 ∧ o'.stdout = o.stdout := by
  intro xs ys q s
  have hxs : Invocation.parse? ("tree".toList :: xs) =
      some ⟨false, .tree { q with files := xs }⟩ := by decide +kernel
  have hys : Invocation.parse? ("tree".toList :: ys) =
      some ⟨false, .tree { q with files := ys }⟩ := by decide +kernel
  have hsame : ∀ a, a ∈ xs ↔ a ∈ ys := by
    intro a
    simp only [xs, ys, List.mem_cons, List.not_mem_nil, or_false]
    tauto
  have hfs : descriptorFiles s.files xs = .ok ["t/a.json".toList, "t/b.json".toList] := by
    decide +kernel
  have hcode : (run? ("tree".toList :: xs) s).map Outcome.code = some 0 := by decide +kernel
  obtain ⟨hfiles, hself, -, hruns⟩ := run?_tree_arguments s xs
  have ha : descriptorFiles s.files ["t//a.json".toList] = .ok ["t//a.json".toList] :=
    hself _ (by decide +kernel)
  have hu : ∃ e, descriptorFiles s.files ["t".toList, "u".toList] = .error e :=
    (run?_tree_arguments s _).2.2.1.2
      ⟨"u".toList, by decide, .unreadableMatch "u".toList, by decide +kernel⟩
  obtain ⟨o, o', ho, ho', hcodes, hout⟩ := hruns q ys _ _ false false hxs hys rfl hsame
  rw [ho] at hcode
  have ho0 : o.code = 0 := Option.some.inj hcode
  refine ⟨hxs, hys, rfl, hsame, hfs, by decide +kernel, ?_, ha, hu, o, o', ho, ho', ho0,
    hcodes.trans ho0, hout⟩
  exact ((hfiles _ hfs).2 _).2 ⟨_, by decide, _, ha, _, List.mem_cons_self, by decide⟩

end Docstring
