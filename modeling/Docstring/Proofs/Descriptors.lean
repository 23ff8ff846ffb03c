import Docstring.Command.Run
import Docstring.Proofs.Registration

/-!
# Files of descriptors

An argument of a rewriting fails where it is no pattern and where a directory that it needs listed
cannot be (`denoted_eq_error_iff`). The files that the arguments stand for otherwise are in strictly
ascending order of their paths (`pairwise_of_descriptorFiles`). Each of them either is rewritten or
is faulty, in one of three ways: it cannot be read, it holds no descriptor, or the style is not
known (`rewritten_cases`). What becomes of a file depends on the text that it holds and on nothing
else in the workspace.
-/

namespace Docstring

namespace Sorted

variable {α : Type} {cmp : α → α → Ordering} {a b : α} {l : List α}

theorem mem_of_mem_insert (h : b ∈ insert cmp a l) : b = a ∨ b ∈ l := by
  induction l with
  | nil => simpa [insert] using h
  | cons c l ih =>
    rw [insert] at h
    split at h
    · exact List.mem_cons.1 h
    · exact .inr h
    · rcases List.mem_cons.1 h with rfl | h
      · exact .inr List.mem_cons_self
      · exact (ih h).imp_right (List.mem_cons_of_mem c)

/-- Sorting adds no member. -/
theorem mem_of_mem_ofList (h : b ∈ ofList cmp l) : b ∈ l := by
  have folded : ∀ acc : List α,
      b ∈ l.foldl (fun acc a => insert cmp a acc) acc → b ∈ acc ∨ b ∈ l := by
    clear h
    induction l with
    | nil => exact fun acc h => .inl h
    | cons a l ih =>
      intro acc h
      rcases ih (insert cmp a acc) h with h | h
      · rcases mem_of_mem_insert h with rfl | h
        · exact .inr List.mem_cons_self
        · exact .inl h
      · exact .inr (List.mem_cons_of_mem a h)
  exact (folded [] h).resolve_left List.not_mem_nil

end Sorted

/-! ### One by one -/

section

variable {α β ε : Type} {f : α → Except ε β} {as : List α} {bs : List β}

/-- What comes of members one by one is what comes of one of them. -/
theorem mem_iff_of_mapM (h : as.mapM f = .ok bs) (b : β) : b ∈ bs ↔ ∃ a ∈ as, f a = .ok b := by
  induction as generalizing bs with
  | nil =>
    obtain rfl := Except.ok.inj h
    simp
  | cons a as ih =>
    rw [List.mapM_cons] at h
    cases ha : f a with
    | error e => simp [ha, bind, Except.bind] at h
    | ok c =>
      cases hm : as.mapM f with
      | error e => simp [ha, hm, bind, Except.bind] at h
      | ok cs =>
        simp only [ha, hm, bind, Except.bind] at h
        obtain rfl := Except.ok.inj h
        rw [List.mem_cons, List.exists_mem_cons_iff, ih hm, ha, Except.ok.injEq, eq_comm]

/-- Something fails of members one by one where one of them fails. -/
theorem exists_mapM_eq_error_iff :
    (∃ e, as.mapM f = .error e) ↔ ∃ a ∈ as, ∃ e, f a = .error e := by
  induction as with
  | nil => simp [pure, Except.pure]
  | cons a as ih =>
    rw [List.exists_mem_cons_iff, ← ih, List.mapM_cons]
    cases ha : f a with
    | error e => simp [bind, Except.bind]
    | ok c =>
      cases hm : as.mapM f with
      | error e => simp [bind, Except.bind]
      | ok cs => simp [bind, Except.bind, pure, Except.pure]

theorem exists_of_map_eq_ok {x : Except ε α} {g : α → β} {b : β} (h : x.map g = .ok b) :
    ∃ a, x = .ok a ∧ g a = b := by
  cases x with
  | error e => cases h
  | ok a => exact ⟨a, rfl, Except.ok.inj h⟩

theorem map_eq_error_iff {x : Except ε α} {g : α → β} {e : ε} :
    x.map g = .error e ↔ x = .error e := by
  cases x <;> simp [Except.map]

end

/-! ### What patterns stand for -/

namespace Glob

variable {w : Workspace} {dir : Path}

/-- What cannot be listed stays so, or turns up among the things found. -/
theorem error_mem_further_iff {α β : Type} {f : α → List (Found β)} {as : List (Found α)} :
    .error dir ∈ further f as ↔ .error dir ∈ as ∨ ∃ a, .ok a ∈ as ∧ .error dir ∈ f a := by
  simp only [further, List.mem_flatMap]
  constructor
  · rintro ⟨d | a, ha, hmem⟩
    · obtain rfl := Except.error.inj (List.mem_singleton.1 hmem)
      exact .inl ha
    · exact .inr ⟨a, ha, hmem⟩
  · rintro (h | ⟨a, ha, hmem⟩)
    · exact ⟨_, h, List.mem_singleton_self _⟩
    · exact ⟨_, ha, hmem⟩

theorem exists_closed_of_listing {deep : Bool} {above : Path}
    (h : .error dir ∈ listing w deep above) : ∃ l, w.node? l = some .closed := by
  unfold listing at h
  split at h
  · obtain ⟨l, -, h⟩ := List.mem_flatMap.1 h
    obtain ⟨names, -, h⟩ := List.mem_flatMap.1 h
    simp only [found, List.mem_append, List.mem_map] at h
    obtain ⟨name, -, h⟩ | h := h
    · cases h
    · split at h
      · next hclosed =>
        rw [Bool.and_eq_true, decide_eq_true_iff] at hclosed
        exact ⟨l ++ names, hclosed.2⟩
      · cases h
  · cases h

theorem exists_closed_of_further {deep : Bool} {above : Path} {β : Type}
    {f : Path × Text → List (Found β)}
    (hf : ∀ e, .error dir ∈ f e → ∃ l, w.node? l = some .closed)
    (h : .error dir ∈ further f (listing w deep above)) : ∃ l, w.node? l = some .closed := by
  obtain h | ⟨e, -, h⟩ := error_mem_further_iff.1 h
  · exact exists_closed_of_listing h
  · exact hf e h

theorem exists_closed_of_expand {dirsOnly : Bool} {pieces : List Piece} {above : Path}
    (h : .error dir ∈ expand w dirsOnly pieces above) : ∃ l, w.node? l = some .closed := by
  fun_induction expand w dirsOnly pieces above with
  | case1 | case2 => simp at h
  | case3 =>
    refine exists_closed_of_further (fun e he => ?_) h
    split at he <;> simp at he
  | case4 tokens ps above ih =>
    refine exists_closed_of_further (fun e he => ?_) h
    split at he
    · exact ih e he
    · simp at he
  | case5 ps above ih => exact ih h
  | case6 tokens ps above name _ _ _ ih => exact ih h
  | case7 => simp at h
  | case8 tokens ps above _ ihDots ih =>
    obtain h | h := List.mem_append.1 h
    · split at h
      · obtain ⟨name, -, h⟩ := List.mem_flatMap.1 h
        exact ihDots name h
      · simp at h
    · refine exists_closed_of_further (fun e he => ?_) h
      split at he
      · exact ih e he
      · simp at he

/-- **Only a directory that cannot be listed keeps a pattern from telling its paths.** -/
theorem exists_closed_of_paths {pattern : Pattern} (h : .error dir ∈ pattern.paths w) :
    ∃ l, w.node? l = some .closed := exists_closed_of_expand h

end Glob

/-! ### The order of paths -/

namespace Path

instance : Std.TransCmp Part.compare :=
  inferInstanceAs (Std.TransCmp (compareLex (compareOn Part.rank) (compareOn Part.text)))

instance : Std.TransCmp compare where
  eq_swap {p q} :=
    @Std.OrientedCmp.eq_swap _ (List.compareLex Part.compare) _ (parts p) (parts q)
  isLE_trans {p q r} :=
    @Std.TransCmp.isLE_trans _ (List.compareLex Part.compare) _ (parts p) (parts q) (parts r)

end Path

namespace TreeRequest

variable {q : TreeRequest} {w : Workspace} {p : Path} {out out' line line' : Text}
  {arguments : List Text} {fs : List Path}

/-- Files come of the arguments one by one, and then they are put in order. -/
theorem exists_of_descriptorFiles (h : descriptorFiles w arguments = .ok fs) :
    ∃ pss, arguments.mapM (denoted w) = .ok pss ∧ fs = Path.sorted pss.flatten := by
  obtain ⟨pss, hm, rfl⟩ := exists_of_map_eq_ok h
  exact ⟨pss, hm, rfl⟩

/-- **Files come in strictly ascending order**, so none comes twice. -/
theorem pairwise_of_descriptorFiles (h : descriptorFiles w arguments = .ok fs) :
    fs.Pairwise fun f g => Path.compare f g = .lt := by
  obtain ⟨pss, -, rfl⟩ := exists_of_descriptorFiles h
  exact Sorted.pairwise_ofList Path.compare pss.flatten

/-- An argument stands for files only. -/
theorem isFile_of_mem_denoted {a : Text} {ps : List Path} (h : denoted w a = .ok ps)
    (hp : p ∈ ps) : w.isFile p = true := by
  unfold denoted at h
  split at h
  · next hfile =>
    obtain rfl := Except.ok.inj h
    rwa [List.mem_singleton.1 hp]
  · split at h
    · cases h
    · obtain ⟨qs, -, rfl⟩ := exists_of_map_eq_ok h
      exact List.of_mem_filter hp

/-- **When an argument fails**: it names no file, and it is no pattern, or a directory that the
pattern needs listed cannot be. -/
theorem denoted_eq_error_iff {a : Text} {e : Failure} :
    denoted w a = .error e ↔ w.isFile a = false ∧
      (Glob.parse? (patternOf w a) = none ∧ e = .badPattern a ∨
        ∃ pattern, Glob.parse? (patternOf w a) = some pattern ∧
          (∃ dir, .error dir ∈ pattern.paths w) ∧ e = .unreadableMatch a) := by
  have hconst : ∀ {x : Except Path (List Path)},
      x.mapError (fun _ => Failure.unreadableMatch a) = .error e ↔
        (∃ dir, x = .error dir) ∧ e = .unreadableMatch a := by
    intro x
    cases x <;> simp [Except.mapError, eq_comm]
  unfold denoted
  cases w.isFile a with
  | true => simp
  | false =>
    cases Glob.parse? (patternOf w a) with
    | none => simp [eq_comm]
    | some pattern =>
      simp [map_eq_error_iff, hconst, exists_mapM_eq_error_iff]

/-- Where every directory can be listed, an argument fails only as no pattern. -/
theorem eq_badPattern_of_denoted {a : Text} {e : Failure}
    (hopen : ∀ l, w.node? l ≠ some .closed) (h : denoted w a = .error e) :
    e = .badPattern a := by
  obtain ⟨-, ⟨-, he⟩ | ⟨pattern, -, ⟨dir, hdir⟩, -⟩⟩ := denoted_eq_error_iff.1 h
  · exact he
  · obtain ⟨l, hl⟩ := Glob.exists_closed_of_paths hdir
    exact absurd hl (hopen l)

/-- **At every path that is dealt with lies a file.** -/
theorem isFile_of_mem_descriptorFiles (h : descriptorFiles w arguments = .ok fs) (hp : p ∈ fs) :
    w.isFile p = true := by
  obtain ⟨pss, hm, rfl⟩ := exists_of_descriptorFiles h
  obtain ⟨ps, hps, hmem⟩ := List.mem_flatten.1 (Sorted.mem_of_mem_ofList hp)
  obtain ⟨a, -, ha⟩ := (mem_iff_of_mapM hm ps).1 hps
  exact isFile_of_mem_denoted ha hmem

/-- With files to deal with, a run is its steps. -/
theorem runIn_eq_steps (h : descriptorFiles w q.files = .ok fs) (hne : fs ≠ []) :
    q.runIn w = q.steps ⟨w, [], (unmatched w q.files).map .noMatch, none⟩ fs := by
  cases fs with
  | nil => exact absurd rfl hne
  | cons f fs => rw [runIn, h]

/-- A run that does not fail has files to deal with. -/
theorem exists_descriptorFiles (h : (q.runIn w).failure = none) :
    ∃ fs, descriptorFiles w q.files = .ok fs ∧ fs ≠ [] := by
  unfold runIn at h
  split at h
  · simp at h
  · simp at h
  · next fs hne hfs => exact ⟨fs, hfs, fun hnil => hne hnil⟩

/-! ### What becomes of a file -/

/-- What is given out for a file that holds a text: the type that the text describes, rewritten. -/
def Rewrites (q : TreeRequest) (t out : Text) : Prop :=
  ∃ ty u, Descriptor.read? t = some ty ∧ ty.inherit q.inheritance .withBuiltins = .ok u ∧
    out = Descriptor.write u

/-- What is given out for the file at a path. -/
def Yields (q : TreeRequest) (w : Workspace) (p : Path) (out : Text) : Prop :=
  ∃ t, w.read? p = some t ∧ q.Rewrites t out

/-- A file is faulty, and this line says how. -/
inductive Faulty (q : TreeRequest) (w : Workspace) (p : Path) : Text → Prop where
  /-- It cannot be read. -/
  | unreadable (h : w.read? p = none) : Faulty q w p ("failed to read ".toList ++ p)
  /-- It holds no descriptor. -/
  | malformed {t : Text} (h : w.read? p = some t) (ht : Descriptor.read? t = none) :
    Faulty q w p ("failed to parse type descriptor in ".toList ++ p)
  /-- It holds one, and the style is not known. -/
  | unstyled {t : Text} {ty : TypeDescriptor} (h : w.read? p = some t)
    (ht : Descriptor.read? t = some ty) (hs : Registry.withBuiltins.contains q.style = false) :
    Faulty q w p ("failed to rewrite ".toList ++ p)

/-- The style of a request resolves where it is known, and only there. -/
theorem contains_style_iff (q : TreeRequest) :
    Registry.withBuiltins.contains q.style = true ↔
      ∃ s, Registry.withBuiltins.resolve q.inheritance.style = .ok s := by
  rw [Registry.contains_iff]
  exact exists_congr fun s => Registry.resolve_named_eq_ok_iff.symm

/-- **A file is rewritten or faulty.** -/
theorem rewritten_cases (q : TreeRequest) (w : Workspace) (p : Path) :
    (∃ out, Yields q w p out ∧ q.rewritten w p = .ok out) ∨
      ∃ e, Faulty q w p e.message ∧ q.rewritten w p = .error e := by
  cases hp : w.read? p with
  | none =>
    refine .inr ⟨.unreadable p, .unreadable hp, ?_⟩
    simp [rewritten, readType, hp, bind, Except.bind]
  | some t =>
    cases ht : Descriptor.read? t with
    | none =>
      refine .inr ⟨.badDescriptor p, .malformed hp ht, ?_⟩
      simp [rewritten, readType, hp, ht, bind, Except.bind]
    | some ty =>
      have hty : readType w p = .ok ty := by simp only [readType, hp, ht]
      cases hr : Registry.withBuiltins.resolve q.inheritance.style with
      | ok s =>
        have hu : ty.inherit q.inheritance .withBuiltins = .ok
            (Inheritance.rewrite ⟨s, q.inheritance.includeSpecial, q.inheritance.lookup⟩ ty) := by
          rw [TypeDescriptor.inherit, hr]
          rfl
        refine .inl ⟨_, ⟨t, hp, ty, _, ht, hu, rfl⟩, ?_⟩
        rw [rewritten, hty]
        simp only [bind, Except.bind, hu, Except.mapError]
        rfl
      | error e =>
        have hs : Registry.withBuiltins.contains q.style = false := by
          rw [← Bool.not_eq_true, contains_style_iff]
          simp [hr]
        refine .inr ⟨.badRewriting p e, .unstyled hp ht hs, ?_⟩
        rw [rewritten, hty]
        simp only [bind, Except.bind, TypeDescriptor.inherit, hr, Except.map, Except.mapError]

/-- One thing is given out for a file. -/
theorem Yields.unique (h : q.Yields w p out) (h' : q.Yields w p out') : out = out' := by
  obtain ⟨t, hp, ty, u, ht, hu, rfl⟩ := h
  obtain ⟨t', hp', ty', u', ht', hu', rfl⟩ := h'
  obtain rfl := Option.some.inj (hp.symm.trans hp')
  obtain rfl := Option.some.inj (ht.symm.trans ht')
  rw [Except.ok.inj (hu.symm.trans hu')]

/-- A file is faulty in one way. -/
theorem Faulty.unique (h : q.Faulty w p line) (h' : q.Faulty w p line') : line = line' := by
  cases h <;> cases h' <;> simp_all

/-- Nothing is given out for a faulty file. -/
theorem Faulty.not_yields (h : q.Faulty w p line) : ¬ q.Yields w p out := by
  rintro ⟨t, hp, ty, u, ht, hu, -⟩
  cases h with
  | unreadable hn => simp [hn] at hp
  | malformed hp' hn =>
    rw [← Option.some.inj (hp.symm.trans hp'), ht] at hn
    simp at hn
  | unstyled _ _ hs =>
    rw [← Bool.not_eq_true, contains_style_iff] at hs
    unfold TypeDescriptor.inherit at hu
    cases hr : Registry.withBuiltins.resolve q.inheritance.style with
    | ok s => exact hs ⟨s, hr⟩
    | error e => simp [hr, Except.map] at hu

theorem rewritten_eq_ok_iff : q.rewritten w p = .ok out ↔ q.Yields w p out := by
  obtain ⟨out', hy, hr⟩ | ⟨e, hf, hr⟩ := rewritten_cases q w p
  · rw [hr, Except.ok.injEq]
    exact ⟨fun h => h ▸ hy, hy.unique⟩
  · rw [hr]
    exact iff_of_false (by simp) hf.not_yields

theorem exists_rewritten_of_faulty (h : q.Faulty w p line) :
    ∃ e, q.rewritten w p = .error e ∧ e.message = line := by
  obtain ⟨out, hy, -⟩ | ⟨e, hf, hr⟩ := rewritten_cases q w p
  · exact absurd hy h.not_yields
  · exact ⟨e, hr, hf.unique h⟩

/-- A file that is not faulty has something given out for it. -/
theorem exists_yields (h : ¬ ∃ line, q.Faulty w p line) : ∃ out, q.Yields w p out := by
  obtain ⟨out, hy, -⟩ | ⟨e, hf, -⟩ := rewritten_cases q w p
  · exact ⟨out, hy⟩
  · exact absurd ⟨_, hf⟩ h

end TreeRequest

end Docstring
