import Docstring.Proofs.Descriptors
import Docstring.Proofs.Locations

/-!
# What is written to a directory

With an output directory, a rewriting writes what it gives out for a file under the stem of that
file, and it reads each file after the outputs of the files before it were written. So of files with
one stem the last in order is what the directory holds in the end, and a file that is itself the
output of its stem is read after the outputs of the files before it with that stem. Files with
different stems do not meet: no output is then lost, and none is read (`run_delivers`).

The outputs of a run are followed as one write after the other (`Delivers`). What holds at a
location in the end is what the last write there put, and where there was none, what held before
(`Delivers.node?_of_last`, `Delivers.node?_of_forall_ne`).
-/

namespace Docstring

namespace TreeRequest

variable {q : TreeRequest} {dir : Path} {u v w z : Workspace} {o : Outcome} {f : Path} {tree : Text}
  {m : Location} {xs ys : List (Path × Text)}

/-- From one workspace to another some files are read in turn, and what is given out for each is
written to a directory before the next is read. -/
inductive Delivers (q : TreeRequest) (dir : Path) :
    Workspace → List (Path × Text) → Workspace → Prop where
  /-- Nothing is written. -/
  | nil (w : Workspace) : Delivers q dir w [] w
  /-- A file is read and its output written, and then those of the others. -/
  | cons {u v w : Workspace} {f : Path} {tree : Text} {xs : List (Path × Text)}
    (read : q.Yields u f tree) (written : u.write? (outputPath dir f) tree = some v)
    (rest : Delivers q dir v xs w) : Delivers q dir u ((f, tree) :: xs) w

/-! ### Steps -/

/-- A step that does not fail reads a file and writes its output. -/
theorem step_of_failure_eq_none (hq : q.output = some dir) (h : (q.step o f).failure = none) :
    ∃ tree, q.Yields o.files f tree ∧
      o.files.write? (outputPath dir f) tree = some (q.step o f).files := by
  obtain ⟨tree, hy, hr⟩ | ⟨e, -, hr⟩ := rewritten_cases q o.files f
  · refine ⟨tree, hy, ?_⟩
    simp only [step, hr, deliver, hq] at h ⊢
    split at h
    · next heq => simp only [heq]
    · simp at h
  · simp [step, hr] at h

/-- **A run that does not fail delivers all its files.** -/
theorem exists_delivers (hq : q.output = some dir) {fs : List Path}
    (h : (q.steps o fs).failure = none) :
    ∃ xs, xs.map Prod.fst = fs ∧ Delivers q dir o.files xs (q.steps o fs).files := by
  induction fs generalizing o with
  | nil => exact ⟨[], rfl, .nil _⟩
  | cons f fs ih =>
    rw [steps] at h ⊢
    cases hstep : (q.step o f).failure with
    | some e => simp [hstep] at h
    | none =>
      simp only [hstep, Option.isSome_none, Bool.false_eq_true, if_false] at h ⊢
      obtain ⟨tree, hread, hwritten⟩ := step_of_failure_eq_none hq hstep
      obtain ⟨xs, rfl, hrest⟩ := ih h
      exact ⟨(f, tree) :: xs, rfl, .cons hread hwritten hrest⟩

/-- **A run that does not fail delivers all its files**, from where its directory was made. -/
theorem exists_delivers_run {s : Surroundings} (hq : q.output = some dir)
    (h : (q.run s).failure = none) :
    ∃ xs, descriptorFiles (s.files.makeDirectory dir).1 q.files = .ok (xs.map Prod.fst) ∧
      Delivers q dir (s.files.makeDirectory dir).1 xs (q.run s).files := by
  have hrun : q.run s = q.runIn (s.files.makeDirectory dir).1 := by
    simp only [run, hq] at h ⊢
    split at h
    · next hmade => rw [if_pos hmade]
    · simp at h
  rw [hrun] at h ⊢
  obtain ⟨fs, hfs, hne⟩ := exists_descriptorFiles h
  rw [runIn_eq_steps hfs hne] at h ⊢
  obtain ⟨xs, rfl, hdel⟩ := exists_delivers hq h
  exact ⟨xs, hfs, hdel⟩

/-! ### Writes -/

theorem Delivers.extends (h : Delivers q dir u xs w) : u.Extends w := by
  induction h with
  | nil w => exact .refl w
  | cons _ hwritten _ ih =>
    obtain ⟨l, -, hl, rfl⟩ := Workspace.write?_eq_some_iff.1 hwritten
    exact (Workspace.extends_put hl _).trans ih

/-- A file is read once the outputs of the files before it are written, and then its own output is
put where it goes. -/
theorem Delivers.exists_put (h : Delivers q dir u (xs ++ (f, tree) :: ys) w) :
    ∃ v m, Delivers q dir u xs v ∧ q.Yields v f tree ∧ v.Extends w ∧
      w.target? (outputPath dir f) = some m ∧ m ≠ [] ∧
      Delivers q dir (v.put m (.text tree)) ys w := by
  induction xs generalizing u with
  | nil =>
    obtain _ | ⟨hread, hwritten, hrest⟩ := h
    obtain ⟨m, hm, hdir, rfl⟩ := Workspace.write?_eq_some_iff.1 hwritten
    have hext := (Workspace.extends_put hdir (.text tree)).trans hrest.extends
    exact ⟨u, m, .nil u, hread, hext, hext.target? hm, Workspace.ne_root hdir, hrest⟩
  | cons x xs ih =>
    obtain _ | ⟨hread, hwritten, hrest⟩ := h
    obtain ⟨v, m, hxs, hput⟩ := ih hrest
    exact ⟨v, m, .cons hread hwritten hxs, hput⟩

/-- Once an output is written, its path leads where it was put. -/
theorem Delivers.exists_target? (h : Delivers q dir u (xs ++ (f, tree) :: ys) w) :
    ∃ m, w.target? (outputPath dir f) = some m ∧ w.resolve? (outputPath dir f) = some m := by
  obtain ⟨v, m, -, -, -, hm, hroot, hrest⟩ := h.exists_put
  refine ⟨m, hm, Workspace.resolve?_of_target? hm (hrest.extends.present m ?_)⟩
  simp [Workspace.node?_put hroot]

/-- **Where no output goes, what held before holds.** Where outputs go may be told in any workspace
that extends the last one. -/
theorem Delivers.node?_of_forall_ne (h : Delivers q dir u xs w) (hz : w.Extends z)
    (hm : ∀ x ∈ xs, z.target? (outputPath dir x.1) ≠ some m) : w.node? m = u.node? m := by
  induction h with
  | nil w => rfl
  | @cons u v w f tree xs hread hwritten hrest ih =>
    have hext := (Delivers.cons hread hwritten hrest).extends.trans hz
    obtain ⟨l, htarget, hl, rfl⟩ := Workspace.write?_eq_some_iff.1 hwritten
    have hne : m ≠ l := by
      rintro rfl
      exact hm (f, tree) List.mem_cons_self (hext.target? htarget)
    rw [ih hz fun x hx => hm x (List.mem_cons_of_mem _ hx),
      Workspace.node?_put (Workspace.ne_root hl), if_neg hne]

/-! ### Stems -/

variable {g : Path} {a b : Text} {k l : Location}

/-- Two files have one output exactly where they have one stem. -/
theorem target?_outputPath_inj (ha : Path.fileName? f = some a) (hb : Path.fileName? g = some b)
    (hk : z.target? (outputPath dir f) = some k) (hm : z.target? (outputPath dir g) = some m) :
    k = m ↔ Path.stem f = Path.stem g := by
  rw [Workspace.target?_join_inj (Path.slash_notMem_stem_append_json ha)
    (Path.slash_notMem_stem_append_json hb) hk hm, List.append_left_inj]

/-- A file that lies where the output of a file goes has the stem of that file. -/
theorem stem_eq_of_target? (ha : Path.fileName? f = some a) (hb : Path.fileName? g = some b)
    (hm : z.target? (outputPath dir g) = some m) (hlast : m.getLast? = some a) :
    Path.stem f = Path.stem g := by
  have hname := Path.slash_notMem_stem_append_json hb
  have heq := (Workspace.getLast?_of_target?_join hname hm).symm.trans hlast
  rw [Path.stem_of_fileName? ha, ← Option.some.inj heq,
    Path.dropExtension_append_json (Path.stem_ne_nil hb)]

/-- **The last output of a stem is what holds where the outputs of that stem go.** -/
theorem Delivers.node?_of_last (h : Delivers q dir u (xs ++ (g, tree) :: ys) w) (hz : w.Extends z)
    (ha : Path.fileName? f = some a) (hm : z.target? (outputPath dir f) = some m)
    (hg : Path.stem g = Path.stem f) (hnamed : ∀ y ∈ ys, ∃ b, Path.fileName? y.1 = some b)
    (hys : ∀ y ∈ ys, Path.stem y.1 ≠ Path.stem f) : w.node? m = some (.text tree) := by
  obtain ⟨v, k, -, -, -, hk, hroot, hrest⟩ := h.exists_put
  rw [outputPath, hg] at hk
  obtain rfl := Option.some.inj (hm.symm.trans (hz.target? hk))
  rw [hrest.node?_of_forall_ne hz, Workspace.node?_put hroot, if_pos rfl]
  intro y hy htarget
  obtain ⟨b, hb⟩ := hnamed y hy
  exact hys y hy ((target?_outputPath_inj hb ha htarget hm).1 rfl)

/-- **A file holds what it held**, unless a file that was written has its stem and it lies where
the output of that goes. -/
theorem Delivers.node?_of_file (h : Delivers q dir u xs w) (hz : w.Extends z)
    (ha : Path.fileName? f = some a) (hl : l.getLast? = some a)
    (hm : z.target? (outputPath dir f) = some m)
    (hnamed : ∀ x ∈ xs, ∃ b, Path.fileName? x.1 = some b)
    (hxs : (∀ x ∈ xs, Path.stem x.1 ≠ Path.stem f) ∨ m ≠ l) : w.node? l = u.node? l := by
  refine h.node?_of_forall_ne hz fun x hx htarget => ?_
  obtain ⟨b, hb⟩ := hnamed x hx
  have hstem := stem_eq_of_target? ha hb htarget hl
  obtain hxs | hne := hxs
  · exact hxs x hx hstem.symm
  · exact hne ((target?_outputPath_inj ha hb hm htarget).2 hstem)

end TreeRequest

open TreeRequest in
/-- **What a rewriting leaves in its directory.** A run that does not fail deals with its files in
the order of their paths. A file is rewritten from what it held before the run, unless a file before
it has its stem and it lies where their output goes; then it is rewritten from the tree of the last
such file. The tree of a file is what its output holds after the run, unless a later file has its
stem. -/
theorem TreeRequest.run_delivers {q : TreeRequest} {dir : Path} {s : Surroundings}
    (hq : q.output = some dir) (hs : s.files.WellFormed) (hok : (q.run s).failure = none) :
    ∃ trees : List (Path × Text),
      descriptorFiles (s.files.makeDirectory dir).1 q.files = .ok (trees.map Prod.fst) ∧
      (trees.map Prod.fst).Pairwise (fun f g => Path.compare f g = .lt) ∧
      ∀ earlier f tree later, trees = earlier ++ (f, tree) :: later →
        ∃ l t, (q.run s).files.resolve? f = some l ∧ q.Rewrites t tree ∧
          (∀ k, s.files.resolve? f = some k → k = l) ∧
          ((∀ x ∈ earlier, Path.stem x.1 ≠ Path.stem f) ∨
              (q.run s).files.resolve? (outputPath dir f) ≠ some l →
            s.files.node? l = some (.text t)) ∧
          (∀ before g tree' between, earlier = before ++ (g, tree') :: between →
            Path.stem g = Path.stem f → (∀ x ∈ between, Path.stem x.1 ≠ Path.stem f) →
            (q.run s).files.resolve? (outputPath dir f) = some l → t = tree') ∧
          ((∀ x ∈ later, Path.stem x.1 ≠ Path.stem f) →
            (q.run s).files.read? (outputPath dir f) = some tree) := by
  obtain ⟨trees, hfs, hdel⟩ := exists_delivers_run hq hok
  refine ⟨trees, hfs, pairwise_of_descriptorFiles hfs, ?_⟩
  rintro earlier f tree later rfl
  have hfiles : ∀ x ∈ earlier ++ (f, tree) :: later, ∃ l a,
      (s.files.makeDirectory dir).1.resolve? x.1 = some l ∧ l.getLast? = some a ∧
        Path.fileName? x.1 = some a := fun x hx =>
    (hs.makeDirectory dir).exists_fileName?
      (isFile_of_mem_descriptorFiles hfs (List.mem_map_of_mem hx))
  have hnamed : ∀ x ∈ earlier ++ (f, tree) :: later, ∃ a, Path.fileName? x.1 = some a := by
    intro x hx
    obtain ⟨-, a, -, -, ha⟩ := hfiles x hx
    exact ⟨a, ha⟩
  rw [List.forall_mem_append, List.forall_mem_cons] at hnamed
  obtain ⟨hearlier, -, hlater⟩ := hnamed
  obtain ⟨l, a, hl, hla, ha⟩ := hfiles (f, tree) (by simp)
  obtain ⟨m, hm, hout⟩ := hdel.exists_target?
  obtain ⟨v, -, hbefore, ⟨t, hread, hrewrites⟩, hvz, -⟩ := hdel.exists_put
  have hlv : v.resolve? f = some l := hbefore.extends.resolve? hl
  have hlt : v.node? l = some (.text t) := by
    obtain ⟨k, hk, hkt⟩ := Workspace.read?_eq_some_iff.1 hread
    rwa [Option.some.inj (hlv.symm.trans hk)]
  refine ⟨l, t, hvz.resolve? hlv, hrewrites, ?_, ?_, ?_, ?_⟩
  · intro k hk
    exact Option.some.inj (((Workspace.extends_makeDirectory _ _).resolve? hk).symm.trans hl)
  · intro hcase
    rw [hout, ne_eq, Option.some.injEq] at hcase
    rw [hbefore.node?_of_file hvz ha hla hm hearlier hcase] at hlt
    exact Workspace.node?_of_makeDirectory hlt
  · rintro before g tree' between rfl hstem hbetween hown
    obtain rfl := Option.some.inj (hout.symm.trans hown)
    have hheld := hbefore.node?_of_last hvz ha hm hstem
      (fun x hx => hearlier x (by simp [hx])) hbetween
    exact Node.text.inj (Option.some.inj (hlt.symm.trans hheld))
  · intro hstems
    exact Workspace.read?_eq_some_iff.2
      ⟨m, hout, hdel.node?_of_last (.refl _) ha hm rfl hlater hstems⟩

open TreeRequest in
/-- Two files of one stem, of which the second lies where their output goes, and a third. The second
is rewritten from the tree of the first and what it held is lost, while the tree of the third is
that of what it held. -/
theorem TreeRequest.run_delivers_overwritten :
    let q : TreeRequest :=
      ⟨["a/x.json".toList, "b/x.json".toList, "c/y.json".toList], "parent".toList, false, false,
        some "b".toList⟩
    let s : Surroundings :=
      ⟨⟨.ofList [(["a".toList], .directory), (["b".toList], .directory),
        (["c".toList], .directory),
        (["a".toList, "x.json".toList], .text "\x7b\"name\": \"A\"\x7d".toList),
        (["b".toList, "x.json".toList], .text "\x7b\"name\": \"B\"\x7d".toList),
        (["c".toList, "y.json".toList], .text "\x7b\"name\": \"C\"\x7d".toList)], []⟩, none⟩
    q.output = some "b".toList ∧ s.files.WellFormed ∧ (q.run s).failure = none ∧
    ∃ first, q.Rewrites "\x7b\"name\": \"A\"\x7d".toList first ∧
      (∃ second, q.Rewrites first second ∧
        (q.run s).files.read? "b/x.json".toList = some second) ∧
      ∃ third, q.Rewrites "\x7b\"name\": \"C\"\x7d".toList third ∧
        (q.run s).files.read? "b/y.json".toList = some third := by
  intro q s
  have hs : s.files.WellFormed := ⟨by decide +kernel, by decide +kernel⟩
  have hok : (q.run s).failure = none := by decide +kernel
  refine ⟨rfl, hs, hok, ?_⟩
  obtain ⟨trees, hfs, -, h⟩ := run_delivers rfl hs hok
  have hpaths : descriptorFiles (s.files.makeDirectory "b".toList).1 q.files =
      .ok ["a/x.json".toList, "b/x.json".toList, "c/y.json".toList] := by decide +kernel
  obtain ⟨first, second, third, rfl⟩ : ∃ first second third, trees =
      [("a/x.json".toList, first), ("b/x.json".toList, second), ("c/y.json".toList, third)] := by
    have hmap := Except.ok.inj (hfs.symm.trans hpaths)
    obtain _ | ⟨⟨p₁, first⟩, _ | ⟨⟨p₂, second⟩, _ | ⟨⟨p₃, third⟩, _ | _⟩⟩⟩ := trees <;> simp at hmap
    obtain ⟨rfl, rfl, rfl⟩ := hmap
    exact ⟨first, second, third, rfl⟩
  obtain ⟨l₁, t₁, hl₁, hr₁, -, hheld₁, -, -⟩ := h [] _ first _ rfl
  obtain ⟨l₂, t₂, hl₂, hr₂, -, -, hlast₂, hread₂⟩ := h [(_, first)] _ second _ rfl
  obtain ⟨l₃, t₃, hl₃, hr₃, -, hheld₃, -, hread₃⟩ := h [(_, first), (_, second)] _ third [] rfl
  have hac : Path.stem "a/x.json".toList ≠ Path.stem "c/y.json".toList := by decide
  have hbc : Path.stem "b/x.json".toList ≠ Path.stem "c/y.json".toList := by decide
  have hearlier : ∀ x ∈ [("a/x.json".toList, first), ("b/x.json".toList, second)],
      Path.stem x.1 ≠ Path.stem "c/y.json".toList :=
    List.forall_mem_cons.2 ⟨hac, List.forall_mem_singleton.2 hbc⟩
  have hlater : ∀ x ∈ [("c/y.json".toList, third)], Path.stem x.1 ≠ Path.stem "b/x.json".toList :=
    List.forall_mem_singleton.2 hbc.symm
  have ht₁ : ((q.run s).files.resolve? "a/x.json".toList).bind s.files.node? =
      some (.text "\x7b\"name\": \"A\"\x7d".toList) := by decide +kernel
  have ht₃ : ((q.run s).files.resolve? "c/y.json".toList).bind s.files.node? =
      some (.text "\x7b\"name\": \"C\"\x7d".toList) := by decide +kernel
  rw [hl₁, Option.bind_some, hheld₁ (.inl (by simp)), Option.some.injEq, Node.text.injEq] at ht₁
  rw [hl₃, Option.bind_some, hheld₃ (.inl hearlier), Option.some.injEq, Node.text.injEq] at ht₃
  obtain rfl : t₂ = first := hlast₂ [] _ first [] rfl (by decide) (by simp) hl₂
  exact ⟨t₂, ht₁ ▸ hr₁, ⟨second, hr₂, hread₂ hlater⟩, third, ht₃ ▸ hr₃, hread₃ (by simp)⟩

open TreeRequest in
/-- An output may be lost in a run that does not fail, with a style that is known and files that all
hold descriptors: two files in different directories have one stem, and the output of the first is
not what the directory holds. -/
theorem TreeRequest.not_forall_read?_run :
    ¬ ∀ (q : TreeRequest) (dir : Path) (s : Surroundings) (fs : List Path),
      q.output = some dir → s.files.WellFormed →
      Registry.withBuiltins.contains q.style = true →
      descriptorFiles (s.files.makeDirectory dir).1 q.files = .ok fs →
      (∀ f ∈ fs, ∃ t, s.files.read? f = some t ∧ (Descriptor.read? t).isSome) →
      (q.run s).failure = none →
      ∀ f ∈ fs, ∃ tree, q.Yields s.files f tree ∧
        (q.run s).files.read? (outputPath dir f) = some tree := by
  intro h
  let q : TreeRequest :=
    ⟨["a/x.json".toList, "b/x.json".toList], "parent".toList, false, false, some "out".toList⟩
  let s : Surroundings :=
    ⟨⟨.ofList [(["a".toList], .directory), (["b".toList], .directory),
      (["a".toList, "x.json".toList], .text "\x7b\"name\": \"A\"\x7d".toList),
      (["b".toList, "x.json".toList], .text "\x7b\"name\": \"B\"\x7d".toList)], []⟩, none⟩
  obtain ⟨tree, hy, hread⟩ := h q "out".toList s ["a/x.json".toList, "b/x.json".toList] rfl
    ⟨by decide +kernel, by decide +kernel⟩ (by decide +kernel) (by decide +kernel)
    (List.forall_mem_cons.2
      ⟨⟨"\x7b\"name\": \"A\"\x7d".toList, by decide +kernel, by decide +kernel⟩,
        List.forall_mem_singleton.2
          ⟨"\x7b\"name\": \"B\"\x7d".toList, by decide +kernel, by decide +kernel⟩⟩)
    (by decide +kernel) "a/x.json".toList List.mem_cons_self
  have hfirst : q.rewritten s.files "a/x.json".toList =
      .ok "\x7b\n  \"name\": \"A\",\n  \"doc\": null\n\x7d\n".toList := by decide +kernel
  have hheld : (q.run s).files.read? (outputPath "out".toList "a/x.json".toList) =
      some "\x7b\n  \"name\": \"B\",\n  \"doc\": null\n\x7d\n".toList := by decide +kernel
  rw [rewritten_eq_ok_iff.2 hy, Except.ok.injEq] at hfirst
  rw [hfirst, hheld] at hread
  exact absurd hread (by decide)

end Docstring
