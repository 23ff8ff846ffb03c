import Docstring.Files.Workspace
import Docstring.Proofs.Rows

/-!
# Where paths lead

A path is followed piece by piece. What is followed in a workspace is followed to the same place in
any workspace that extends it, where nothing went away and every directory stayed
(`Extends.resolve?`); writing a file extends a workspace, and so a path leads to the same place
before and after. A path at which a file lies ends in the name of that file
(`WellFormed.exists_fileName?`), so a name joined to a directory is told from the location that it
leads to (`target?_join_inj`).
-/

namespace Docstring

open Text

/-! ### Names -/

namespace Path

variable {p : Path} {s t name : Text}

/-- A text that something can lie under in a directory. -/
def IsName (t : Text) : Prop := '/' ∉ t ∧ part? t = some (.name t)

theorem part?_eq_name_iff :
    part? s = some (.name t) ↔ s = t ∧ s ≠ [] ∧ s ≠ ['.'] ∧ s ≠ ['.', '.'] := by
  by_cases h₁ : s = []
  · simp [part?, h₁]
  by_cases h₂ : s = ['.']
  · simp [part?, h₂]
  by_cases h₃ : s = ['.', '.']
  · simp [part?, h₃]
  · simp [part?, h₁, h₂, h₃]

theorem IsName.ne_nil (h : IsName t) : t ≠ [] := (part?_eq_name_iff.1 h.2).2.1

/-- The last name of a path is one. -/
theorem isName_of_fileName? (h : fileName? p = some t) : IsName t := by
  have hlast : (parts p).getLast? = some (.name t) := by
    unfold fileName? at h
    split at h
    · next heq => rw [heq, Option.some.inj h]
    · simp at h
  have hmem := List.mem_of_getLast? hlast
  rw [parts, List.mem_append] at hmem
  rcases hmem with hmem | hmem
  · split_ifs at hmem <;> simp at hmem
  · obtain ⟨s, hs, hpart⟩ := List.mem_filterMap.1 hmem
    obtain rfl := (part?_eq_name_iff.1 hpart).1
    exact ⟨notMem_of_mem_splitOn hs, hpart⟩

theorem dropExtension_prefix_self (t : Text) : dropExtension t <+: t := by
  simp only [dropExtension]
  split_ifs
  · exact List.prefix_refl t
  · exact (List.dropLast_prefix _).trans (dropEndWhile_prefix_self _ t)

theorem dropExtension_ne_nil (h : t ≠ []) : dropExtension t ≠ [] := by
  simp only [dropExtension]
  split_ifs with hlen
  · exact h
  · intro hnil
    have := congrArg List.length hnil
    rw [List.length_dropLast, List.length_nil] at this
    omega

/-- The end that an output gets is its extension. -/
theorem dropExtension_append_json (h : s ≠ []) : dropExtension (s ++ ".json".toList) = s := by
  have hfront : dropEndWhile (· ≠ '.') (s ++ ".json".toList) = s ++ ['.'] := by
    have hsplit : s ++ ".json".toList = (s ++ ['.']) ++ ['j', 's', 'o', 'n'] := by simp
    rw [hsplit, dropEndWhile_append_of_forall _ (by simp), dropEndWhile_concat_neg s (by decide)]
  have hlen : ¬ (s ++ ['.']).length ≤ 1 := by
    rw [List.length_append, List.length_singleton]
    have := List.length_pos_iff.2 h
    omega
  rw [dropExtension, hfront, if_neg hlen, List.dropLast_concat]

theorem stem_of_fileName? (h : fileName? p = some t) : stem p = dropExtension t := by
  rw [stem, h]

theorem slash_notMem_stem (h : fileName? p = some t) : '/' ∉ stem p := by
  rw [stem_of_fileName? h]
  exact fun hs => (isName_of_fileName? h).1 ((dropExtension_prefix_self t).subset hs)

/-- What an output is called is one piece. -/
theorem slash_notMem_stem_append_json (h : fileName? p = some t) :
    '/' ∉ stem p ++ ".json".toList := by
  simpa using slash_notMem_stem h

theorem stem_ne_nil (h : fileName? p = some t) : stem p ≠ [] := by
  rw [stem_of_fileName? h]
  exact dropExtension_ne_nil (isName_of_fileName? h).ne_nil

/-! ### Names in directories -/

/-- A path with a name joined to it has that name as its last piece. -/
theorem exists_pieces_join (dir : Path) :
    ∃ ts, ∀ name, '/' ∉ name → pieces (join dir name) = ts ++ [name] := by
  rcases List.eq_nil_or_concat' dir with rfl | ⟨front, c, rfl⟩
  · exact ⟨[], fun name h => List.splitOn_eq_singleton h⟩
  · by_cases hc : c = '/'
    · refine ⟨pieces front, fun name h => ?_⟩
      rw [join, if_pos (by simp [hc]), hc, List.append_assoc, List.singleton_append, pieces,
        List.splitOn_append_cons_self, List.splitOn_eq_singleton h]
      rfl
    · refine ⟨pieces (front ++ [c]), fun name h => ?_⟩
      rw [join, if_neg (by simp [hc]), pieces, List.splitOn_append_cons_self,
        List.splitOn_eq_singleton h]
      rfl

theorem isAbsolute_join (dir : Path) (h : '/' ∉ name) :
    isAbsolute (join dir name) = isAbsolute dir := by
  unfold isAbsolute join
  cases dir with
  | nil =>
    cases name with
    | nil => rfl
    | cons c name =>
      have hc : c ≠ '/' := fun hc => h (hc ▸ List.mem_cons_self)
      simp [hc]
  | cons c dir => split <;> simp

end Path

namespace Workspace

variable {u v w : Workspace} {k l m : Location} {n : Node} {p : Path} {t : Text} {ts : List Text}

/-! ### Following a path -/

theorem walk?_append (w : Workspace) (l : Location) (ts us : List Text) :
    w.walk? l (ts ++ us) = (w.walk? l ts).bind fun k => w.walk? k us := by
  induction ts generalizing l with
  | nil => rfl
  | cons t ts ih =>
    simp only [List.cons_append, walk?]
    split
    · split
      · split
        · exact ih _
        · rfl
      · exact ih _
      · exact ih _
    · rfl

/-- Nothing that lies in one workspace goes away in another, and directories stay directories. -/
structure Extends (v w : Workspace) : Prop where
  /-- Paths start in the same directory. -/
  home : w.home = v.home
  /-- A directory is one still. -/
  directory : ∀ l, v.hasDirectory l = true → w.hasDirectory l = true
  /-- Where something lay, something lies. -/
  present : ∀ l, (v.node? l).isSome → (w.node? l).isSome

theorem Extends.refl (w : Workspace) : w.Extends w := ⟨rfl, fun _ => id, fun _ => id⟩

theorem Extends.trans (h : u.Extends v) (h' : v.Extends w) : u.Extends w where
  home := h'.home.trans h.home
  directory l hl := h'.directory l (h.directory l hl)
  present l hl := h'.present l (h.present l hl)

theorem isSome_of_hasDirectory (h : w.hasDirectory l = true) : (w.node? l).isSome = true :=
  Option.isSome_of_any h

/-- The root is a directory. -/
theorem ne_root (h : w.hasDirectory l = false) : l ≠ [] := by
  rintro rfl
  simp at h

/-- Putting something where no directory lies extends a workspace. -/
theorem extends_put (h : w.hasDirectory l = false) (n : Node) : w.Extends (w.put l n) := by
  have hl := ne_root h
  refine ⟨rfl, fun k hk => ?_, fun k hk => ?_⟩
  · rw [hasDirectory, node?_put hl, if_neg]
    · exact hk
    · rintro rfl
      simp [h] at hk
  · rw [node?_put hl]
    split
    · rfl
    · exact hk

theorem Extends.walk? (h : v.Extends w) (hl : v.walk? l ts = some k) : w.walk? l ts = some k := by
  induction ts generalizing l with
  | nil => exact hl
  | cons t ts ih =>
    rw [Workspace.walk?] at hl ⊢
    split at hl
    · next hdir =>
      rw [if_pos (h.directory l hdir)]
      split at hl
      · split at hl
        · next hthere =>
          rw [if_pos (h.present _ hthere)]
          exact ih hl
        · simp at hl
      · exact ih hl
      · exact ih hl
    · simp at hl

theorem Extends.start (h : v.Extends w) (p : Path) : w.start p = v.start p := by
  rw [Workspace.start, Workspace.start, h.home]

/-- **A path leads to the same place in a workspace that extends the first.** -/
theorem Extends.resolve? (h : v.Extends w) (hp : v.resolve? p = some l) :
    w.resolve? p = some l := by
  unfold Workspace.resolve? at hp ⊢
  split_ifs at hp ⊢
  rw [h.start]
  exact h.walk? hp

/-! ### Writing -/

/-- The last piece of a path lies in the directory that the rest leads to. -/
theorem target?_eq_some_iff :
    w.target? p = some m ↔ ∃ ts t l, Path.pieces p = ts ++ [t] ∧ Path.part? t = some (.name t) ∧
      w.walk? (w.start p) ts = some l ∧ w.hasDirectory l = true ∧ m = l ++ [t] := by
  obtain h | ⟨ts, t, hts⟩ := List.eq_nil_or_concat' (Path.pieces p)
  · exact absurd h (List.splitOn_ne_nil _ _)
  have hinj : ∀ ts' t', ts ++ [t] = ts' ++ [t'] ↔ ts = ts' ∧ t = t' := fun ts' t' => by simp
  simp only [target?, hts, List.dropLast_concat, List.getLast?_concat, Option.bind_some,
    Option.bind_eq_bind, Option.bind_eq_some_iff, hinj]
  constructor
  · rintro ⟨l, hl, h⟩
    split at h
    · next t' heq =>
      obtain rfl := (Path.part?_eq_name_iff.1 heq).1
      split_ifs at h with hdir
      exact ⟨ts, t, l, ⟨rfl, rfl⟩, heq, hl, hdir, (Option.some.inj h).symm⟩
    · simp at h
  · rintro ⟨ts', t', l, ⟨rfl, rfl⟩, hpart, hl, hdir, rfl⟩
    exact ⟨l, hl, by simp [hdir, hpart]⟩

theorem Extends.target? (h : v.Extends w) (hp : v.target? p = some m) :
    w.target? p = some m := by
  obtain ⟨ts, t, l, hts, hpart, hl, hdir, rfl⟩ := target?_eq_some_iff.1 hp
  rw [← h.start] at hl
  exact target?_eq_some_iff.2 ⟨ts, t, l, hts, hpart, h.walk? hl, h.directory l hdir, rfl⟩

/-- Once something lies there, a path leads where it is written to. -/
theorem resolve?_of_target? (h : w.target? p = some m) (hm : (w.node? m).isSome) :
    w.resolve? p = some m := by
  obtain ⟨ts, t, l, hts, hpart, hl, hdir, rfl⟩ := target?_eq_some_iff.1 h
  have hp : p ≠ [] := by
    rintro rfl
    obtain ⟨rfl, rfl⟩ : ts = [] ∧ t = [] := by
      simpa [Path.pieces, List.append_eq_singleton_iff, eq_comm] using hts
    simp [Path.part?] at hpart
  rw [resolve?, if_neg hp, hts, walk?_append, hl, Option.bind_some, walk?, hpart,
    if_pos hdir]
  simp only [hm, if_true, walk?]

theorem write?_eq_some_iff :
    v.write? p t = some w ↔
      ∃ m, v.target? p = some m ∧ v.hasDirectory m = false ∧ w = v.put m (.text t) := by
  simp only [write?, Option.bind_eq_bind, Option.bind_eq_some_iff]
  refine exists_congr fun m => and_congr_right fun _ => ?_
  cases v.hasDirectory m with
  | true => simp
  | false => simp [eq_comm]

theorem read?_eq_some_iff :
    w.read? p = some t ↔ ∃ l, w.resolve? p = some l ∧ w.node? l = some (.text t) := by
  have hread : w.read? p = some t ↔ w.at? p = some (.text t) := by
    unfold read?
    split
    · next heq => rw [heq]; simp
    · next hne => exact iff_of_false (by simp) (hne t)
  rw [hread, at?, Option.bind_eq_some_iff]

/-- Different names in one directory lie at different locations. -/
theorem target?_join_inj {dir : Path} {a b : Text} (ha : '/' ∉ a) (hb : '/' ∉ b)
    (hk : w.target? (Path.join dir a) = some k) (hm : w.target? (Path.join dir b) = some m) :
    k = m ↔ a = b := by
  obtain ⟨pre, hpre⟩ := Path.exists_pieces_join dir
  obtain ⟨ts, x, l, hts, -, hl, -, rfl⟩ := target?_eq_some_iff.1 hk
  obtain ⟨ts', y, l', hts', -, hl', -, rfl⟩ := target?_eq_some_iff.1 hm
  rw [hpre a ha] at hts
  rw [hpre b hb] at hts'
  obtain ⟨rfl, rfl⟩ : pre = ts ∧ a = x := by simpa using hts
  obtain ⟨rfl, rfl⟩ : pre = ts' ∧ b = y := by simpa using hts'
  rw [start, Path.isAbsolute_join dir ha] at hl
  rw [start, Path.isAbsolute_join dir hb] at hl'
  obtain rfl := Option.some.inj (hl.symm.trans hl')
  simp

/-- A name joined to a directory is the last one of its location. -/
theorem getLast?_of_target?_join {dir : Path} {a : Text} (ha : '/' ∉ a)
    (h : w.target? (Path.join dir a) = some m) : m.getLast? = some a := by
  obtain ⟨pre, hpre⟩ := Path.exists_pieces_join dir
  obtain ⟨ts, x, l, hts, -, -, -, rfl⟩ := target?_eq_some_iff.1 h
  rw [hpre a ha] at hts
  obtain ⟨-, rfl⟩ : pre = ts ∧ a = x := by simpa using hts
  exact List.getLast?_concat

/-! ### Files and directories -/

/-- Whatever lies in a workspace lies in a directory, and the program runs in one. -/
structure WellFormed (w : Workspace) : Prop where
  /-- The program runs in a directory. -/
  home : w.hasDirectory w.home = true
  /-- What lies somewhere lies in a directory. -/
  parent : ∀ l ∈ w.nodes.keys, w.hasDirectory l.dropLast = true

theorem WellFormed.hasDirectory_dropLast (hw : w.WellFormed) (h : (w.node? l).isSome) :
    w.hasDirectory l.dropLast = true := by
  by_cases hl : l = []
  · rw [hl]
    rfl
  · rw [node?, if_neg hl] at h
    exact hw.parent l (OrderedMap.mem_keys_iff.2 h)

theorem WellFormed.hasDirectory_start (hw : w.WellFormed) (p : Path) :
    w.hasDirectory (w.start p) = true := by
  unfold start
  split
  · rfl
  · exact hw.home

/-- Pieces that lead to a file end in its name. -/
theorem WellFormed.getLast?_of_walk? (hw : w.WellFormed) (hl : w.hasDirectory l = true)
    (h : w.walk? l ts = some k) (hk : w.hasDirectory k = false) :
    ∃ t, k.getLast? = some t ∧ (ts.filterMap Path.part?).getLast? = some (.name t) := by
  induction ts generalizing l with
  | nil =>
    obtain rfl := Option.some.inj h
    simp [hl] at hk
  | cons t ts ih =>
    -- the last part of the rest is the last part of all, as soon as the rest has one
    have later : ∀ {m : Location}, w.hasDirectory m = true → w.walk? m ts = some k →
        ∃ t', k.getLast? = some t' ∧
          ((t :: ts).filterMap Path.part?).getLast? = some (.name t') := by
      intro m hm hwalk
      obtain ⟨t', hk', hlast⟩ := ih hm hwalk
      refine ⟨t', hk', ?_⟩
      cases hpart : Path.part? t with
      | none => rw [List.filterMap_cons_none hpart, hlast]
      | some part => rw [List.filterMap_cons_some hpart, List.getLast?_cons, hlast]; rfl
    rw [walk?, if_pos hl] at h
    split at h
    · next t' hpart =>
      split at h
      · next hthere =>
        cases hdir : w.hasDirectory (l ++ [t']) with
        | true => exact later hdir h
        | false =>
          -- no piece leads on from a file
          cases ts with
          | nil =>
            obtain rfl := Option.some.inj h
            exact ⟨t', List.getLast?_concat, by simp [hpart]⟩
          | cons u us => simp [walk?, hdir] at h
      · simp at h
    · exact later (hw.hasDirectory_dropLast (isSome_of_hasDirectory hl)) h
    · exact later hl h

/-- **The path of a file ends in the name of the file.** -/
theorem WellFormed.exists_fileName? (hw : w.WellFormed) (h : w.isFile p = true) :
    ∃ l t, w.resolve? p = some l ∧ l.getLast? = some t ∧ Path.fileName? p = some t := by
  rw [isFile, contains, isDirectory, at?, Bool.and_eq_true, Bool.not_eq_true', Option.isSome_bind,
    Option.any_eq_true] at h
  obtain ⟨⟨l, hl, -⟩, hdir⟩ := h
  have hfile : w.hasDirectory l = false := by simpa [hasDirectory, hl] using hdir
  have hwalk := hl
  unfold resolve? at hwalk
  split_ifs at hwalk
  obtain ⟨t, hlt, hlast⟩ := hw.getLast?_of_walk? (hw.hasDirectory_start p) hwalk hfile
  refine ⟨l, t, hl, hlt, ?_⟩
  rw [Path.fileName?, Path.parts, List.getLast?_append, hlast]
  rfl

/-! ### Making directories -/

/-- Making directories changes nothing that is there. -/
theorem node?_makeAlong (w : Workspace) (l : Location) (ts : List Text) (k : Location) :
    (w.makeAlong l ts).1.node? k = w.node? k ∨
      w.node? k = none ∧ (w.makeAlong l ts).1.node? k = some .directory := by
  induction ts generalizing w l with
  | nil => exact .inl rfl
  | cons t ts ih =>
    rw [makeAlong]
    split
    · next t' _ =>
      split
      · split
        · exact ih w _
        · exact .inl rfl
      · next hnone =>
        obtain h | ⟨hnew, h⟩ := ih (w.put (l ++ [t']) .directory) (l ++ [t'])
        · rw [h, node?_put (by simp)]
          split
          · next heq => exact .inr ⟨heq ▸ hnone, rfl⟩
          · exact .inl rfl
        · rw [node?_put (by simp)] at hnew
          split at hnew
          · simp at hnew
          · exact .inr ⟨hnew, h⟩
    · exact ih w _
    · exact ih w _

/-- A new directory in a directory leaves a workspace well formed. -/
theorem WellFormed.put_directory (hw : w.WellFormed) (hl : w.hasDirectory l.dropLast = true)
    (hnone : w.node? l = none) : (w.put l .directory).WellFormed := by
  have hfree : w.hasDirectory l = false := by rw [hasDirectory, hnone, Option.any_none]
  have hdir := (extends_put hfree .directory).directory
  refine ⟨hdir _ hw.home, fun k hk => ?_⟩
  rw [OrderedMap.mem_keys_iff, put, OrderedMap.get?_insert] at hk
  split at hk
  · next heq => exact hdir _ (heq ▸ hl)
  · exact hdir _ (hw.parent k (OrderedMap.mem_keys_iff.2 hk))

theorem WellFormed.makeAlong (hw : w.WellFormed) (hl : w.hasDirectory l = true)
    (ts : List Text) : (w.makeAlong l ts).1.WellFormed := by
  induction ts generalizing w l with
  | nil => exact hw
  | cons t ts ih =>
    rw [Workspace.makeAlong]
    split
    · next t' _ =>
      split
      · next n hn =>
        split
        · next hdir => exact ih hw (by rw [hasDirectory, hn, Option.any_some, hdir])
        · exact hw
      · next hnone =>
        refine ih (hw.put_directory (by simpa using hl) hnone) ?_
        rw [hasDirectory, node?_put (by simp), if_pos rfl]
        rfl
    · exact ih hw (hw.hasDirectory_dropLast (isSome_of_hasDirectory hl))
    · exact ih hw hl

/-- **Making a directory changes nothing that is there.** -/
theorem node?_makeDirectory (w : Workspace) (p : Path) (k : Location) :
    (w.makeDirectory p).1.node? k = w.node? k ∨
      w.node? k = none ∧ (w.makeDirectory p).1.node? k = some .directory := by
  unfold makeDirectory
  split
  · exact .inl rfl
  · split
    · exact node?_makeAlong w _ _ k
    · exact node?_makeAlong w _ _ k

/-- Where a text lies once a directory was made, it lay before. -/
theorem node?_of_makeDirectory (h : (w.makeDirectory p).1.node? l = some (.text t)) :
    w.node? l = some (.text t) := by
  obtain hkept | ⟨-, hnew⟩ := node?_makeDirectory w p l
  · rw [← hkept, h]
  · simp [h] at hnew

theorem home_makeAlong (w : Workspace) (l : Location) (ts : List Text) :
    (w.makeAlong l ts).1.home = w.home := by
  induction ts generalizing w l with
  | nil => rfl
  | cons t ts ih =>
    rw [makeAlong]
    split
    · split
      · split
        · exact ih w _
        · rfl
      · exact ih (w.put _ .directory) _
    · exact ih w _
    · exact ih w _

theorem extends_makeDirectory (w : Workspace) (p : Path) : w.Extends (w.makeDirectory p).1 where
  home := by
    unfold makeDirectory
    split
    · rfl
    · split <;> exact home_makeAlong w _ _
  directory l hl := by
    obtain h | ⟨hnone, -⟩ := node?_makeDirectory w p l
    · rwa [hasDirectory, h]
    · simp [hasDirectory, hnone] at hl
  present l hl := by
    obtain h | ⟨-, h⟩ := node?_makeDirectory w p l
    · rwa [h]
    · simp [h]

theorem WellFormed.makeDirectory (hw : w.WellFormed) (p : Path) :
    (w.makeDirectory p).1.WellFormed := by
  unfold Workspace.makeDirectory
  split
  · exact hw
  · split
    · exact hw.makeAlong (hw.hasDirectory_start p) _
    · exact hw.makeAlong (hw.hasDirectory_start p) _

end Workspace

end Docstring
