import Docstring.Proofs.Descriptors

/-!
# What is printed before a failure

Without an output directory, a rewriting prints what is given out for its files, one after the
other and in order. The files are read where they lie and none is changed (`files_steps`), so what
is given out for a file does not depend on the files before it. The run stops at the first faulty
file: what was printed before it stays, nothing is printed after, and the line of the failure names
that file and says what was wrong with it (`steps_of_faulty`, `run?_tree_prints`).
-/

namespace Docstring

namespace TreeRequest

variable {q : TreeRequest} {w : Workspace} {p : Path}
  {out line : Text} {ps : List Path} {outs : List Text}

/-! ### One file -/

/-- A file is dealt with by printing what is given out for it. -/
theorem step_of_yields (hout : q.output = none) (h : q.Yields w p out) (printed : Text)
    (events : List Event) :
    q.step ⟨w, printed, events, none⟩ p =
      ⟨w, printed ++ out, events ++ q.rewritingEvents w p, none⟩ := by
  simp only [step, rewritten_eq_ok_iff.2 h, deliver, hout]

/-- A faulty file fails the run and prints nothing. -/
theorem step_of_faulty (h : q.Faulty w p line) (printed : Text) (events : List Event) :
    ∃ e, e.message = line ∧ q.step ⟨w, printed, events, none⟩ p =
      ⟨w, printed, events ++ q.rewritingEvents w p, some e⟩ := by
  obtain ⟨e, hr, he⟩ := exists_rewritten_of_faulty h
  exact ⟨e, he, by simp only [step, hr]⟩

/-! ### One after the other -/

/-- Files that something is given out for are printed in order, and the run goes on with those
after them. -/
theorem steps_of_yields (hout : q.output = none) (h : List.Forall₂ (q.Yields w) ps outs)
    (later : List Path) (printed : Text) (events : List Event) :
    ∃ events', q.steps ⟨w, printed, events, none⟩ (ps ++ later) =
      q.steps ⟨w, printed ++ outs.flatten, events', none⟩ later := by
  induction h generalizing printed events with
  | nil => exact ⟨events, by simp⟩
  | @cons p out ps outs hp _ ih =>
    obtain ⟨events', hrest⟩ := ih (printed ++ out) (events ++ q.rewritingEvents w p)
    refine ⟨events', ?_⟩
    rw [List.cons_append, steps, step_of_yields hout hp]
    simp [hrest]

/-- **The run stops at a faulty file**, with what the files before it gave. -/
theorem steps_of_faulty (hout : q.output = none) (h : List.Forall₂ (q.Yields w) ps outs)
    (hp : q.Faulty w p line) (later : List Path) (printed : Text) (events : List Event) :
    ∃ events' e, e.message = line ∧ q.steps ⟨w, printed, events, none⟩ (ps ++ p :: later) =
      ⟨w, printed ++ outs.flatten, events', some e⟩ := by
  obtain ⟨events', hrun⟩ := steps_of_yields hout h (p :: later) printed events
  obtain ⟨e, he, hstep⟩ := step_of_faulty hp (printed ++ outs.flatten) events'
  exact ⟨_, e, he, by rw [hrun, steps, hstep]; rfl⟩

/-- Files of which none is faulty have something given out for each. -/
theorem exists_forall₂_yields (h : ∀ p ∈ ps, ¬ ∃ line, q.Faulty w p line) :
    ∃ outs, List.Forall₂ (q.Yields w) ps outs := by
  induction ps with
  | nil => exact ⟨[], .nil⟩
  | cons p ps ih =>
    obtain ⟨out, hp⟩ := exists_yields (h p List.mem_cons_self)
    obtain ⟨outs, hps⟩ := ih fun p' hp' => h p' (List.mem_cons_of_mem p hp')
    exact ⟨out :: outs, .cons hp hps⟩

/-- Without an output directory, one file changes none. -/
theorem files_step (hout : q.output = none) (o : Outcome) (p : Path) :
    (q.step o p).files = o.files := by
  simp only [step, deliver, hout]
  split <;> rfl

/-- **Without an output directory, no file is changed.** -/
theorem files_steps (hout : q.output = none) (o : Outcome) (ps : List Path) :
    (q.steps o ps).files = o.files := by
  induction ps generalizing o with
  | nil => rfl
  | cons p ps ih =>
    simp only [steps]
    split
    · exact files_step hout o p
    · rw [ih, files_step hout]

theorem files_runIn (hout : q.output = none) (w : Workspace) : (q.runIn w).files = w := by
  simp only [runIn]
  split
  · rfl
  · rfl
  · rw [files_steps hout]

end TreeRequest

open TreeRequest in
/-- **What a rewriting prints.** A rewriting without an output directory changes no file. It fails
and prints nothing where an argument is no pattern, where a directory that an argument leads through
cannot be listed, or where the arguments stand for no file.
Otherwise its files are dealt with in the order of their paths. Up to the first faulty one it
prints what is given out for each, and then it fails with the line of that file; where none is
faulty, it prints what is given out for all and does not fail. -/
theorem run?_tree_prints {arguments : List Text} {verbose : Bool} {q : TreeRequest}
    (hargs : Invocation.parse? arguments = some ⟨verbose, .tree q⟩) (hout : q.output = none)
    (s : Surroundings) :
    ∃ o, run? arguments s = some o ∧ o.files = s.files ∧
      (∀ e, descriptorFiles s.files q.files = .error e →
        o.failure = some e ∧ o.code = 1 ∧ o.stdout = []) ∧
      (descriptorFiles s.files q.files = .ok [] →
        o.failure = some .nothingToDo ∧ o.code = 1 ∧ o.stdout = []) ∧
      ∀ fs, descriptorFiles s.files q.files = .ok fs → fs ≠ [] →
        fs.Pairwise (fun f g => Path.compare f g = .lt) ∧
        (∀ before f after line, fs = before ++ f :: after →
          (∀ g ∈ before, ¬ ∃ line, q.Faulty s.files g line) → q.Faulty s.files f line →
          ∃ outs, List.Forall₂ (q.Yields s.files) before outs ∧ o.stdout = outs.flatten ∧
            o.failure.map Failure.message = some line ∧ o.code = 1) ∧
        ((∀ f ∈ fs, ¬ ∃ line, q.Faulty s.files f line) →
          ∃ outs, List.Forall₂ (q.Yields s.files) fs outs ∧ o.stdout = outs.flatten ∧
            o.failure = none ∧ o.code = 0) := by
  have hrun : run? arguments s = some (q.runIn s.files) := by
    rw [run?, hargs, Option.map_some, Request.run, TreeRequest.run, hout]
  refine ⟨_, hrun, files_runIn hout s.files, ?_, ?_, ?_⟩
  · intro e he
    rw [runIn, he]
    exact ⟨rfl, rfl, rfl⟩
  · intro he
    rw [runIn, he]
    exact ⟨rfl, rfl, rfl⟩
  · intro fs hfs hne
    rw [runIn_eq_steps hfs hne]
    refine ⟨pairwise_of_descriptorFiles hfs, ?_, ?_⟩
    · rintro before f after line rfl hbefore hf
      obtain ⟨outs, houts⟩ := exists_forall₂_yields hbefore
      obtain ⟨events, e, rfl, hsteps⟩ := steps_of_faulty hout houts hf after [] _
      exact ⟨outs, houts, by rw [hsteps]; exact ⟨rfl, rfl, rfl⟩⟩
    · intro h
      obtain ⟨outs, houts⟩ := exists_forall₂_yields h
      obtain ⟨events, hsteps⟩ := steps_of_yields hout houts [] [] _
      rw [List.append_nil] at hsteps
      exact ⟨outs, houts, by rw [hsteps]; exact ⟨rfl, rfl, rfl⟩⟩

open TreeRequest in
/-- A pattern stands for two files and a directory for one, of which the second in order holds no
descriptor: the first is printed, with the docstring of its base, and the third is not. With a
directory that cannot be listed for an argument nothing is printed. -/
theorem run?_tree_prints_malformed :
    let arguments := ["tree".toList, "[bc].json".toList, "a".toList]
    let arguments' := ["tree".toList, "a".toList, "d".toList]
    let q : TreeRequest := ⟨["[bc].json".toList, "a".toList], "parent".toList, false, false, none⟩
    let q' : TreeRequest := { q with files := ["a".toList, "d".toList] }
    let s : Surroundings :=
      ⟨⟨.ofList [(["a".toList], .directory),
        (["a".toList, "x.json".toList], .text
          "\x7b\"name\": \"X\", \"bases\": [\x7b\"name\": \"B\", \"doc\": \"b\"\x7d]\x7d".toList),
        (["b.json".toList], .text "\x7b".toList),
        (["c.json".toList], .text "\x7b\"name\": \"C\"\x7d".toList),
        (["d".toList], .closed)], []⟩, none⟩
    let printed : Text := ("\x7b\n  \"name\": \"X\",\n  \"doc\": \"b\",\n  \"bases\": [\n" ++
      "    \x7b\n      \"name\": \"B\",\n      \"doc\": \"b\"\n    \x7d\n  ]\n\x7d\n").toList
    (Invocation.parse? arguments = some ⟨false, .tree q⟩ ∧ q.output = none ∧
      descriptorFiles s.files q.files =
        .ok ["a/x.json".toList, "b.json".toList, "c.json".toList] ∧
      ∃ o, run? arguments s = some o ∧ o.files = s.files ∧
        o.stdout = printed ∧
        o.failure.map Failure.message =
          some "failed to parse type descriptor in b.json".toList ∧ o.code = 1) ∧
    (Invocation.parse? arguments' = some ⟨false, .tree q'⟩ ∧ q'.output = none ∧
      ∃ o, run? arguments' s = some o ∧ o.files = s.files ∧ o.stdout = [] ∧
        o.failure.map Failure.message = some "failed to read a match of d".toList ∧
        o.code = 1) := by
  intro arguments arguments' q q' s printed
  have hargs : Invocation.parse? arguments = some ⟨false, .tree q⟩ := by decide +kernel
  have hargs' : Invocation.parse? arguments' = some ⟨false, .tree q'⟩ := by decide +kernel
  have hfs : descriptorFiles s.files q.files =
      .ok ["a/x.json".toList, "b.json".toList, "c.json".toList] := by decide +kernel
  have hfail : descriptorFiles s.files q'.files = .error (.unreadableMatch "d".toList) := by
    decide +kernel
  have ha : q.rewritten s.files "a/x.json".toList = .ok printed := by decide +kernel
  have hfirst : ∀ g ∈ ["a/x.json".toList], ¬ ∃ line, q.Faulty s.files g line := by
    rintro g hg ⟨line, hf⟩
    rw [List.mem_singleton.1 hg] at hf
    obtain ⟨e, he, -⟩ := exists_rewritten_of_faulty hf
    rw [ha] at he
    cases he
  have hb : q.Faulty s.files "b.json".toList _ :=
    .malformed (t := "\x7b".toList) (by decide +kernel) (by decide +kernel)
  obtain ⟨o, ho, hfiles, -, -, hrun⟩ := run?_tree_prints hargs rfl s
  obtain ⟨outs, houts, hout, hline, hcode⟩ :=
    (hrun _ hfs (by simp)).2.1 ["a/x.json".toList] _ ["c.json".toList] _ rfl hfirst hb
  obtain ⟨o', ho', hfiles', herror, -⟩ := run?_tree_prints hargs' rfl s
  obtain ⟨hfailed, hcode', hout'⟩ := herror _ hfail
  refine ⟨⟨hargs, rfl, hfs, o, ho, hfiles, ?_, hline, hcode⟩,
    ⟨hargs', rfl, o', ho', hfiles', hout', by rw [hfailed]; rfl, hcode'⟩⟩
  obtain _ | ⟨hy, _ | _⟩ := houts
  rw [rewritten_eq_ok_iff.2 hy] at ha
  rw [hout, List.flatten_singleton, Except.ok.inj ha]

end Docstring
