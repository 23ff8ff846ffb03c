import Mathlib.Data.List.Forall2
import Docstring.Proofs.Ancestry
import Docstring.Proofs.Descent
import Docstring.Proofs.Joined

/-!
# Prose along a chain

In a style that merges within sections, a type of a chain takes the prose of every ancestor, and
each ancestor has taken that of the ones above it before. So the prose of an ancestor comes down
along each way that leads through the types in between (`inherited`), and stands in the section as
often (`ProseChain.forall₂_rewrite`, `text?_inherit_of_isChain`). What is merged on the way is read
again as it was merged, as long as texts form no header where they meet.
-/

namespace Docstring

open Text Descent

variable {d : Dialect} {form : HeaderForm} {k : Section}

/-! ### Texts in a section -/

/-- The prose that some texts make, one below the other. -/
def stacked? (l : List Text) : Option Text := if l = [] then none else some (joinLines l)

variable {l m : List Text} {s t : Text}

theorem mem_stacked?_iff : t ∈ stacked? l ↔ l ≠ [] ∧ joinLines l = t := by
  unfold stacked?
  split <;> simp_all

@[simp] theorem stacked?_toList (o : Option Text) : stacked? o.toList = o := by
  cases o <;> simp [stacked?, joinLines_singleton]

/-- Prose that is merged within a section is that of the ancestor above that of the descendant. -/
theorem prose_stacked? (l m : List Text) :
    Merge.prose true (stacked? l) (stacked? m) = stacked? (l ++ m) := by
  cases l with
  | nil => exact Merge.prose_none_left true _
  | cons s l =>
    cases m with
    | nil =>
      rw [List.append_nil]
      exact Merge.prose_none_right true _
    | cons t m =>
      rw [stacked?, stacked?, stacked?, if_neg (by simp), if_neg (by simp), if_neg (by simp),
        Merge.prose, if_pos rfl, joinLines_append (by simp) (by simp)]

theorem head?_rows_joinLines (hs : l.head? = some s) :
    (rows (joinLines l)).head? = (rows s).head? := by
  obtain ⟨l, rfl⟩ := List.head?_eq_some_iff.1 hs
  cases l with
  | nil => rw [joinLines_singleton]
  | cons t l =>
    rw [← List.singleton_append, joinLines_append (by simp) (by simp), joinLines_singleton,
      rows_append_newline, List.head?_append_of_ne_nil _ (rows_ne_nil s)]

theorem getLast?_rows_joinLines (hs : l.getLast? = some s) :
    (rows (joinLines l)).getLast? = (rows s).getLast? := by
  obtain ⟨l, rfl⟩ := List.getLast?_eq_some_iff.1 hs
  cases l with
  | nil => rw [List.nil_append, joinLines_singleton]
  | cons t l =>
    rw [joinLines_append (by simp) (by simp), joinLines_singleton, rows_append_newline,
      List.getLast?_append_of_ne_nil _ (rows_ne_nil s)]

/-- Only the texts that meet matter for a header. -/
theorem seamless_stacked? (h : Meet d.Seamless l m) (hs : s ∈ stacked? l) (ht : t ∈ stacked? m) :
    d.Seamless s t := by
  obtain ⟨hl, rfl⟩ := mem_stacked?_iff.1 hs
  obtain ⟨hm, rfl⟩ := mem_stacked?_iff.1 ht
  obtain ⟨u, hu⟩ := Option.isSome_iff_exists.1 (List.getLast?_isSome.2 hl)
  obtain ⟨v, hv⟩ := Option.isSome_iff_exists.1 (List.isSome_head?.2 hm)
  have huv : d.Seamless u v := h u hu v hv
  rwa [Dialect.Seamless, getLast?_rows_joinLines hu, head?_rows_joinLines hv]

/-! ### Documents and their strands -/

namespace Document

open Merge

variable {p q r : Document} {f g : Section → Strand}

/-- The prose of a document in the sections that are merged within is that of some strands. -/
structure Carries (d : Dialect) (f : Section → Strand) (p : Document) : Prop where
  /-- The texts of a strand stand one below the other. -/
  texts : ∀ j ∈ d.sections, j.hasItems = false → j ∉ d.unmergeable →
    p.text? j = stacked? (f j).texts
  /-- The strand of raises supersedes others where it is told what is given back. -/
  supersedes : ∀ j, (f j).supersedes = producing j p

/-- Whether strands form no header where they meet, if the section has prose that is merged
within. -/
def Matching (d : Dialect) (j : Section) (a c : Strand) : Prop :=
  j ∈ d.sections ∧ j.hasItems = false ∧ j ∉ d.unmergeable → a.Meets d.Seamless c

theorem Carries.self (d : Dialect) (p : Document) : Carries d (bundle p) p :=
  ⟨fun j _ _ _ => (stacked?_toList (p.text? j)).symm, fun _ => rfl⟩

theorem mem_sections_of_headerForm (hd : d.headerForm = some form) :
    .returns ∈ d.sections ∧ .yields ∈ d.sections := by
  cases d <;> simp [Dialect.headerForm] at hd <;> decide

/-- What is given back is told by prose. -/
theorem produces_eq (hp : Read d p) (hd : d.headerForm = some form) :
    produces p = ((p.text? .returns).isSome || (p.text? .yields).isSome) := by
  obtain ⟨hreturns, hyields⟩ := mem_sections_of_headerForm hd
  rw [produces, hp.hasContent_of_text hreturns rfl, hp.hasContent_of_text hyields rfl]

theorem Carries.text?_withoutStaleRaises (hf : Carries d f p) (hg : Carries d g q)
    (hp : Read d p) {j : Section} (hj : j ∈ d.sections) (hi : j.hasItems = false)
    (hu : j ∉ d.unmergeable) :
    (withoutStaleRaises p q).text? j = stacked? ((f j).taken (g j)) := by
  rw [Strand.taken, hf.supersedes, hg.supersedes, producing, producing]
  by_cases hr : j = .raises
  · subst hr
    rw [text?_raises_withoutStaleRaises hp hj, hf.texts _ hj hi hu]
    simp only [decide_true, Bool.true_and]
    split <;> rfl
  · rw [Merge.text?_withoutStaleRaises hp hj hi hr, hf.texts _ hj hi hu]
    simp [hr]

/-- Documents meet without a header where their strands do. -/
theorem Carries.seamless (hf : Carries d f p) (hg : Carries d g q) (hp : Read d p)
    (h : ∀ j, Matching d j (f j) (g j)) :
    Seamless d (withoutStaleRaises p q) q := by
  intro j hj hi hu s hs t ht
  rw [hf.text?_withoutStaleRaises hg hp hj hi hu] at hs
  rw [hg.texts j hj hi hu] at ht
  exact seamless_stacked? (h j ⟨hj, hi, hu⟩) hs ht

/-- Documents that are merged carry the strands of both. -/
theorem Carries.merged (hf : Carries d f p) (hg : Carries d g q) (hd : d.headerForm = some form)
    (hp : Read d p) (hq : Read d q) (hr : Read d r)
    (hprose : ∀ j ∈ d.sections, j.hasItems = false → r.text? j =
      prose (mergesWithin d .mergeWithin j) ((withoutStaleRaises p q).text? j) (q.text? j)) :
    Carries d (pointwise Strand.atop f g) r where
  texts j hj hi hu := by
    have hwithin : mergesWithin d .mergeWithin j = true := by simp [mergesWithin, hu]
    rw [hprose j hj hi, hf.text?_withoutStaleRaises hg hp hj hi hu, hg.texts j hj hi hu, hwithin,
      prose_stacked?]
    rfl
  supersedes j := by
    have hboth : ∀ j ∈ d.sections, j.hasItems = false → j ≠ .raises →
        (r.text? j).isSome = ((p.text? j).isSome || (q.text? j).isSome) := by
      intro j hj hi hne
      rw [hprose j hj hi, Merge.text?_withoutStaleRaises hp hj hi hne]
      cases p.text? j <;> cases q.text? j <;> simp [prose]
    have hproduces : produces r = (produces p || produces q) := by
      obtain ⟨hreturns, hyields⟩ := mem_sections_of_headerForm hd
      rw [produces_eq hp hd, produces_eq hq hd, produces_eq hr hd,
        hboth _ hreturns rfl (by decide), hboth _ hyields rfl (by decide)]
      ac_rfl
    rw [pointwise, Strand.atop, hf.supersedes, hg.supersedes, producing, producing, producing,
      hproduces, Bool.and_or_distrib_left]

end Document

/-! ### What comes down a chain -/

namespace Merge

/-- What a type takes from its ancestors, given the prose of each, nearest first: all that the
nearest one has taken, and then all that this one has, its own prose last. -/
def inherited : List Text → List Text
  | [] => []
  | b :: bs => inherited bs ++ (inherited bs ++ [b])

theorem legacy_map_some (bs : List Text) : legacy (bs.map some) = inherited bs := by
  induction bs with
  | nil => rfl
  | cons b bs ih => rw [List.map_cons, legacy_cons, ih, inherited, Option.toList_some]

end Merge

namespace Inheritance

open TypeDescriptor Document Merge

variable {t : TypeDescriptor} {o : Inheritance} {f g : Section → Strand}
  {fs : List (Section → Strand)} {ps : List Document}

/-- A docstring that carries some strands and can be merged within its sections, one of which has
prose. -/
structure Bequest (d : Dialect) (k : Section) (f : Section → Strand) (doc : Option Text) :
    Prop where
  /-- The docstring is there. -/
  exists_fit : ∃ x s, doc = some x ∧ Fit d k x s ∧ Carries d f (parse d (some x))

section Fold

variable (hd : d.headerForm = some form) (hk : k ∈ d.sections) (hi : k.hasItems = false)
  (hr : k ≠ .raises) (hu : k ∉ d.unmergeable)
include hd hk hi hr hu

/-- A merge lets strands take from those of the ancestor. -/
theorem Bequest.merge {a x : Option Text} (ha : Bequest d k f a) (hx : Bequest d k g x)
    (h : ∀ j, Matching d j (f j) (g j)) :
    Bequest d k (pointwise Strand.atop f g) ((Style.builtin d .mergeWithin).merge none a x) := by
  obtain ⟨y, s, rfl, hy, hf⟩ := ha.exists_fit
  obtain ⟨z, t, rfl, hz, hg⟩ := hx.exists_fit
  have hread := read_parse hd y
  obtain ⟨m, hm, hfit, hprose⟩ := hy.exists_docs hz (hf.seamless hg hread h) hd hk hi hr hu
  exact ⟨m, _, hm, hfit,
    hf.merged hg hd hread (read_parse hd z) (read_parse hd m) hprose⟩

/-- **Merging ancestors in turn lets strands take from theirs in turn.** -/
theorem Bequest.fold {as : List (Option Text)} (has : List.Forall₂ (Bequest d k) fs as)
    {x : Option Text} (hx : Bequest d k g x)
    (h : Gathers (pointwise Strand.atop) (fun f g => ∀ j, Matching d j (f j) (g j)) fs g) :
    Bequest d k (gather (pointwise Strand.atop) fs g)
      (Inheritance.fold (.builtin d .mergeWithin) none as x) := by
  induction has generalizing x g with
  | nil => exact hx
  | cons ha _ ih =>
    rw [fold_cons]
    exact ih (ha.merge hd hk hi hr hu hx h.1) h.2

end Fold

/-- The documents of a hierarchy before it is rewritten. -/
def documents (d : Dialect) (t : TypeDescriptor) : List Document :=
  t.types.map fun u => parse d u.doc

/-- A chain of types with names of their own, whose docstrings are canonical and all have prose
under a section. -/
structure ProseChain (d : Dialect) (k : Section) (t : TypeDescriptor) : Prop where
  /-- Each type has at most one base. -/
  isChain : t.IsChain
  /-- No two types have a name in common. -/
  names : (t.types.map TypeDescriptor.name).Nodup
  /-- Each type has a canonical docstring with prose under the section. -/
  docs : ∀ u ∈ t.types, ∃ x ∈ u.doc, Canonical d x ∧ ∃ s, (parse d (some x)).text? k = some s
  /-- No header is formed where prose meets on the way down. -/
  matching : Descends (pointwise Strand.atop) (fun f g => ∀ j, Matching d j (f j) (g j))
    ((documents d t).map bundle)

/-- Under headers that end with a colon nothing that meets forms a header. -/
theorem unbroken_of_colon (hd : d.headerForm = some .colon) {j : Section} (hj : j ∈ d.sections)
    (hi : j.hasItems = false) (hps : ps ∈ strands j (documents d t)) :
    Unbroken d.Seamless (ps.map (·.text? j)) := by
  refine unbroken_of_forall fun s hs _ => ?_
  obtain ⟨p, hp, hps'⟩ := List.mem_map.1 (List.reduceOption_mem_iff.1 hs)
  obtain ⟨u, -, rfl⟩ := List.mem_map.1 (mem_of_mem_strands hps hp)
  exact ((read_parse_option hd u.doc).passage hj hi hps').seamless_of_colon hd _

/-- A chain all of which has prose in a section matches where its texts form no header. -/
theorem ProseChain.of_unbroken (hchain : t.IsChain)
    (hnames : (t.types.map TypeDescriptor.name).Nodup)
    (hdocs : ∀ u ∈ t.types, ∃ x ∈ u.doc, Canonical d x)
    (htexts : ∀ u ∈ t.types, ∃ s, (parse d u.doc).text? k = some s)
    (hunbroken : ∀ j ∈ d.sections, j.hasItems = false → j ∉ d.unmergeable →
      ∀ ps ∈ strands j (documents d t), Unbroken d.Seamless (ps.map (·.text? j))) :
    ProseChain d k t := by
  refine ⟨hchain, hnames, fun u hu => ?_, descends_pointwise_iff.2 fun j => ?_⟩
  · obtain ⟨x, hx, hcanonical⟩ := hdocs u hu
    have htext := htexts u hu
    rw [Option.mem_def.1 hx] at htext
    exact ⟨x, hx, hcanonical, htext⟩
  · rw [List.map_map]
    exact descends_imp fun hj => descends_strands_iff.2 (hunbroken j hj.1 hj.2.1 hj.2.2)

theorem documents_eq_cons {c : TypeDescriptor} (hc : t.bases = [c]) :
    documents d t = parse d t.doc :: documents d c := by
  rw [documents, types_eq_cons, hc, List.flatMap_singleton]
  rfl

theorem ProseChain.of_bases {c : TypeDescriptor} (h : ProseChain d k t) (hc : t.bases = [c]) :
    ProseChain d k c := by
  have hmem : c ∈ t.bases := by rw [hc]; simp
  have hmatching := h.matching
  rw [documents_eq_cons hc] at hmatching
  exact ⟨h.isChain.of_mem_bases hmem, nodup_names_of_mem_bases hmem h.names,
    fun u hu => h.docs u (mem_types_of_mem_bases hmem hu), hmatching.2⟩

/-- A type of a chain has its own prose. -/
theorem ProseChain.bequest (h : ProseChain d k t) (hd : d.headerForm = some form)
    (hk : k ∈ d.sections) (hi : k.hasItems = false) (hs : k ≠ .shortSummary) :
    Bequest d k (bundle (parse d t.doc)) t.doc := by
  obtain ⟨x, hx, hcanonical, s, ht⟩ := h.docs t t.self_mem_types
  rw [Option.mem_def.1 hx]
  exact ⟨x, s, rfl, hcanonical.fit hd hk hi hs ht, .self d _⟩

/-- **Each type of a rewritten chain carries what came down to it.** -/
theorem ProseChain.forall₂_rewrite (h : ProseChain d k t) (ho : o.style = .builtin d .mergeWithin)
    (hd : d.headerForm = some form) (hk : k ∈ d.sections) (hi : k.hasItems = false)
    (hr : k ≠ .raises) (hu : k ∉ d.unmergeable) :
    List.Forall₂ (Bequest d k) (descend (pointwise Strand.atop) ((documents d t).map bundle))
      ((rewrite o t).types.map TypeDescriptor.doc) := by
  induction t using induction with
  | step t ih =>
    have hself := h.bequest hd hk hi (ne_shortSummary hd hu)
    obtain ⟨ps, hps, hancestors⟩ : ∃ ps, documents d t = parse d t.doc :: ps ∧
        List.Forall₂ (Bequest d k) (descend (pointwise Strand.atop) (ps.map bundle))
          ((rewrite o t).ancestors.map TypeDescriptor.doc) := by
      rcases ancestors_rewrite_cases (o := o) h.isChain h.names with ⟨hb, ha⟩ | ⟨c, hc, ha⟩
      · refine ⟨[], ?_, ?_⟩
        · rw [documents, types_eq_cons, hb]
          rfl
        · rw [ha]
          exact .nil
      · refine ⟨documents d c, documents_eq_cons hc, ?_⟩
        rw [ha]
        exact ih c (by rw [hc]; simp) (h.of_bases hc)
    have hmatching := h.matching
    rw [hps] at hmatching ⊢
    rw [types_rewrite_of_isChain h.isChain h.names, List.map_cons, List.map_cons, descend]
    refine .cons ?_ hancestors
    rw [doc_rewrite, typeDoc, ho]
    exact hself.fold hd hk hi hr hu hancestors hmatching.1

end Inheritance

namespace TypeDescriptor

open Document Merge

variable {t : TypeDescriptor} {b : Text} {bs : List Text}

/-- The styles that merge within sections have headers. -/
theorem exists_headerForm {name : Text} (hs : (name, d, .mergeWithin) ∈ Registry.builtins) :
    ∃ form, d.headerForm = some form := by
  have hall : ∀ e ∈ Registry.builtins, e.2.2 = .mergeWithin →
      e.2.1.headerForm.isSome = true := by decide
  exact Option.isSome_iff_exists.1 (hall _ hs rfl)

/-- **What stands in a section along a chain.** In a built-in style that merges within sections, a
chain of types with names of their own, each of which has a canonical docstring with prose under a
section that is merged within, raises apart, is rewritten so that the first type has there what it
takes from its ancestors and then its own prose. Under headers with an underline that asks for prose
that forms no header where it meets on the way down, in any section that is merged within. -/
theorem text?_inherit_of_isChain {name : Text} (hs : (name, d, .mergeWithin) ∈ Registry.builtins)
    (hk : k ∈ d.sections) (hi : k.hasItems = false) (hr : k ≠ .raises) (hu : k ∉ d.unmergeable)
    (hchain : t.IsChain) (hnames : (t.types.map TypeDescriptor.name).Nodup)
    (hdocs : ∀ u ∈ t.types, ∃ x ∈ u.doc, Canonical d x)
    (hbodies : t.types.map (fun u => (parse d u.doc).text? k) = (b :: bs).map some)
    (hseams : d.headerForm = some .underlined →
      ∀ j ∈ d.sections, j.hasItems = false → j ∉ d.unmergeable →
        ∀ ps ∈ strands j (t.types.map fun u => parse d u.doc),
          Unbroken d.Seamless (ps.map (·.text? j)))
    (includeSpecial : Bool) (lookup : Lookup) :
    ∃ r m, t.inherit ⟨.named name, includeSpecial, lookup⟩ .withBuiltins = .ok r ∧
      r.doc = some m ∧
      (parse d (some m)).text? k = some (joinLines (inherited bs ++ [b])) := by
  obtain ⟨form, hd⟩ := exists_headerForm hs
  have htexts : ∀ u ∈ t.types, ∃ s, (parse d u.doc).text? k = some s := by
    intro u hu'
    have hmem : (parse d u.doc).text? k ∈ (b :: bs).map some := by
      rw [← hbodies]
      exact List.mem_map_of_mem hu'
    obtain ⟨s, -, hs'⟩ := List.mem_map.1 hmem
    exact ⟨s, hs'.symm⟩
  have h : Inheritance.ProseChain d k t := by
    refine .of_unbroken hchain hnames hdocs htexts fun j hj hi hmem ps hps => ?_
    cases form with
    | underlined => exact hseams hd j hj hi hmem ps hps
    | colon => exact Inheritance.unbroken_of_colon hd hj hi hps
  have hall := h.forall₂_rewrite (o := ⟨.builtin d .mergeWithin, includeSpecial, lookup⟩) rfl hd hk
    hi hr hu
  obtain ⟨ps, hps⟩ : ∃ ps, Inheritance.documents d t = parse d t.doc :: ps :=
    ⟨_, by rw [Inheritance.documents, types_eq_cons, List.map_cons]⟩
  have htexts : (Inheritance.documents d t).map (·.text? k) = (b :: bs).map some := by
    rw [Inheritance.documents, List.map_map]
    exact hbodies
  rw [hps, List.map_cons, List.map_cons] at htexts
  obtain ⟨hb, hbs⟩ := List.cons.inj htexts
  rw [hps, types_eq_cons, List.map_cons, List.map_cons, descend] at hall
  obtain ⟨m, -, hm, -, hcarries⟩ := (List.forall₂_cons.1 hall).1.exists_fit
  refine ⟨_, m, inherit_builtin hs t, hm, ?_⟩
  rw [hcarries.texts k hk hi hu, texts_gather_bundle hr, hb, hbs, legacy_map_some,
    Option.toList_some, stacked?, if_neg (by simp)]

/-- The prose of the root comes to the leaf twice, once by itself and once with that of the type in
between. Raises that go stale on the way are not taken. The last row of the root's prose would be a
header over the prose of the leaf, which it does not meet. -/
theorem text?_inherit_of_isChain_notes :
    let root : TypeDescriptor :=
      ⟨"Root".toList, some "Raises\n------\nE\n\nNotes\n-----\na\nReturns".toList, [], []⟩
    let middle : TypeDescriptor :=
      ⟨"Middle".toList, some "Returns\n-------\nx\n\nNotes\n-----\nb".toList, [root], []⟩
    let t : TypeDescriptor :=
      ⟨"Leaf".toList, some "Notes\n-----\n-------\nc".toList, [middle], []⟩
    t.IsChain ∧ (t.types.map TypeDescriptor.name).Nodup ∧
    (∀ u ∈ t.types, ∃ x ∈ u.doc, Canonical .numpy x) ∧
    t.types.map (fun u => (parse .numpy u.doc).text? .notes) =
      ["-------\nc".toList, "b".toList, "a\nReturns".toList].map some ∧
    (∀ j ∈ Dialect.numpy.sections, j.hasItems = false → j ∉ Dialect.numpy.unmergeable →
      ∀ ps ∈ strands j (t.types.map fun u => parse .numpy u.doc),
        Unbroken Dialect.numpy.Seamless (ps.map (·.text? j))) ∧
    ¬ Dialect.numpy.Seamless "a\nReturns".toList "-------\nc".toList ∧
    ∃ r m, t.inherit ⟨.named "numpy_with_merge".toList, false, .nearest⟩ .withBuiltins = .ok r ∧
      r.doc = some m ∧
      (parse .numpy (some m)).text? .notes =
        some "a\nReturns\na\nReturns\nb\n-------\nc".toList := by
  intro root middle t
  have hs : ("numpy_with_merge".toList, .numpy, .mergeWithin) ∈ Registry.builtins := by decide
  have hchain : t.IsChain := by decide +kernel
  have hnames : (t.types.map TypeDescriptor.name).Nodup := by decide +kernel
  have hdocs : ∀ u ∈ t.types, ∃ x ∈ u.doc, Canonical .numpy x := by decide +kernel
  have hbodies : t.types.map (fun u => (parse .numpy u.doc).text? .notes) =
      ["-------\nc".toList, "b".toList, "a\nReturns".toList].map some := by decide +kernel
  have hseams : ∀ j ∈ Dialect.numpy.sections, j.hasItems = false →
      j ∉ Dialect.numpy.unmergeable → ∀ ps ∈ strands j (t.types.map fun u => parse .numpy u.doc),
        Unbroken Dialect.numpy.Seamless (ps.map (·.text? j)) := by decide +kernel
  obtain ⟨r, m, hr, hm, htext⟩ := text?_inherit_of_isChain hs (by decide) rfl (by decide)
    (by decide) hchain hnames hdocs hbodies (fun _ => hseams) false .nearest
  exact ⟨hchain, hnames, hdocs, hbodies, hseams, by decide +kernel, r, m, hr, hm, htext⟩

/-- A section that reads otherwise does not have the prose. -/
theorem not_exists_text? {q : InheritRequest} {s : Option Text} {c : Text}
    (h : (t.inherit q .withBuiltins).toOption.map (fun r => (parse d r.doc).text? k) = some s)
    (hne : s ≠ some c) : ¬ ∃ r m, t.inherit q .withBuiltins = .ok r ∧ r.doc = some m ∧
      (parse d (some m)).text? k = some c := by
  rintro ⟨r, m, hr, hm, htext⟩
  rw [hr] at h
  have hread : (parse d r.doc).text? k = s := Option.some.inj h
  rw [hm, htext] at hread
  exact hne hread.symm

/-- Prose does not stand in a section once for each type: with two types above the leaf, that of the
farther one comes to the leaf twice, and with one, a row of hyphens at the start of the leaf's prose
makes a header of the row above it. -/
theorem not_text?_inherit_once :
    let t₁ : TypeDescriptor := ⟨"Root".toList, some "Returns:\na".toList, [], []⟩
    let t₂ : TypeDescriptor := ⟨"Middle".toList, some "Returns:\nb".toList, [t₁], []⟩
    let t₃ : TypeDescriptor := ⟨"Leaf".toList, some "Returns:\nc".toList, [t₂], []⟩
    let u₁ : TypeDescriptor := ⟨"Root".toList, some "Notes\n-----\nReturns".toList, [], []⟩
    let u₂ : TypeDescriptor := ⟨"Leaf".toList, some "Notes\n-----\n-------\nx".toList, [u₁], []⟩
    (t₃.IsChain ∧ (t₃.types.map TypeDescriptor.name).Nodup ∧
      (∀ u ∈ t₃.types, ∃ x ∈ u.doc, Canonical .googleNapoleon x) ∧
      t₃.types.map (fun u => (parse .googleNapoleon u.doc).text? .returns) =
        ["c".toList, "b".toList, "a".toList].map some ∧
      ¬ ∃ r m, t₃.inherit ⟨.named "google_with_merge".toList, false, .nearest⟩ .withBuiltins =
          .ok r ∧ r.doc = some m ∧
        (parse .googleNapoleon (some m)).text? .returns = some "a\nb\nc".toList) ∧
    (u₂.IsChain ∧ (u₂.types.map TypeDescriptor.name).Nodup ∧
      (∀ u ∈ u₂.types, ∃ x ∈ u.doc, Canonical .numpy x) ∧
      u₂.types.map (fun u => (parse .numpy u.doc).text? .notes) =
        ["-------\nx".toList, "Returns".toList].map some ∧
      ¬ ∃ r m, u₂.inherit ⟨.named "numpy_with_merge".toList, false, .nearest⟩ .withBuiltins =
          .ok r ∧ r.doc = some m ∧
        (parse .numpy (some m)).text? .notes = some "Returns\n-------\nx".toList) := by
  intro t₁ t₂ t₃ u₁ u₂
  refine ⟨⟨by decide +kernel, by decide +kernel, by decide +kernel, by decide +kernel, ?_⟩,
    ⟨by decide +kernel, by decide +kernel, by decide +kernel, by decide +kernel, ?_⟩⟩
  · exact not_exists_text? (s := some "a\na\nb\nc".toList) (by decide +kernel) (by decide)
  · exact not_exists_text? (s := none) (by decide +kernel) (by decide)

end TypeDescriptor

end Docstring
