import Mathlib.Data.List.Induction
import Mathlib.Tactic.Common
import Docstring.Proofs.Bytes
import Docstring.Proofs.Maps
import Docstring.Registry

/-!
# Runs of a registry

A registry is changed by operations, one after the other: a style is registered under a name, or a
name is unregistered. An operation that fails changes nothing. Each name stands for what the last
successful operation on it left there, or else for the style that is built in (`get?_run`), and
whatever is found under a name keeps the rule on absent docstrings (`Lawful.run`). So a registry is
known by its operations, name by name (`resolve_run`).

Names are listed in the order of their characters. That is the order of their bytes too
(`encode_lt_encode`).
-/

namespace Docstring

open Text

namespace Registry

/-- Names that are in order have their bytes in order. -/
theorem bytes_lt_of_compareNames {a b : Text} (h : compareNames a b = .lt) : bytes a < bytes b := by
  unfold compareNames at h
  induction a generalizing b with
  | nil =>
    cases b with
    | nil => simp [List.compareLex] at h
    | cons d b =>
      obtain ⟨x, xs, hx⟩ := List.exists_cons_of_ne_nil (encode_ne_nil d)
      rw [bytes_cons, hx]
      exact List.Lex.nil
  | cons c a ih =>
    cases b with
    | nil => simp [List.compareLex] at h
    | cons d b =>
      rw [List.compareLex_cons_cons, Ordering.then_eq_lt] at h
      rw [bytes_cons, bytes_cons]
      rcases h with h | ⟨heq, h⟩
      · exact encode_lt_encode (compareOfLessAndEq_eq_lt.1 h) _ _
      · rw [Std.LawfulEqCmp.eq_of_compare heq]
        exact List.append_left_lt (ih h)

instance : Std.TransCmp compareNames := inferInstanceAs (Std.TransCmp (List.compareLex compare))

instance : Std.LawfulEqCmp compareNames :=
  inferInstanceAs (Std.LawfulEqCmp (List.compareLex compare))

/-- **Names are listed in ascending order of their bytes.** -/
theorem pairwise_bytes_names (r : Registry) :
    r.names.Pairwise fun a b => bytes a < bytes b :=
  (Sorted.pairwise_ofList compareNames r.styles.keys).imp bytes_lt_of_compareNames

end Registry

namespace Sorted

variable {α : Type} {cmp : α → α → Ordering} [Std.LawfulEqCmp cmp]

theorem mem_insert {a b : α} {l : List α} : b ∈ insert cmp a l ↔ b = a ∨ b ∈ l := by
  induction l with
  | nil => simp [insert]
  | cons c l ih =>
    rw [insert]
    split
    · exact List.mem_cons
    · next heq =>
      rw [Std.LawfulEqCmp.eq_of_compare heq]
      simp
    · rw [List.mem_cons, ih, List.mem_cons]
      exact or_left_comm

/-- Sorting loses no member, and adds none. -/
theorem mem_ofList {b : α} {l : List α} : b ∈ ofList cmp l ↔ b ∈ l := by
  have folded : ∀ acc : List α,
      b ∈ l.foldl (fun acc a => insert cmp a acc) acc ↔ b ∈ acc ∨ b ∈ l := by
    induction l with
    | nil => simp
    | cons a l ih =>
      intro acc
      rw [List.foldl_cons, ih, mem_insert, List.mem_cons]
      exact or_assoc.trans or_left_comm
  unfold ofList
  simpa using folded []

end Sorted

namespace OrderedMap

theorem mem_of_lookup {α β : Type} [DecidableEq α] {es : List (α × β)} {a : α} {b : β}
    (h : es.lookup a = some b) : (a, b) ∈ es := by
  induction es with
  | nil => simp at h
  | cons e es ih =>
    obtain ⟨a', b'⟩ := e
    rw [lookup_cons_eq] at h
    split at h
    · next ha =>
      obtain rfl := Option.some.inj h
      rw [ha]
      exact List.mem_cons_self
    · exact List.mem_cons_of_mem _ (ih h)

end OrderedMap

/-! ### Styles that keep the rule -/

/-- A style that gives no docstring where both sides are absent. -/
def Style.Lawful (s : Style) : Prop := s.reply none none none = .doc none

instance (s : Style) : Decidable s.Lawful := inferInstanceAs (Decidable (_ = _))

namespace Style

variable {s : Style}

theorem lawful_builtin (d : Dialect) (policy : Policy) : (builtin d policy).Lawful := rfl

/-- Whatever parameters the descendant has, a lawful style gives no docstring. -/
theorem Lawful.reply_eq (h : s.Lawful) (params : Option (List Text)) :
    s.reply params none none = .doc none := by
  cases s with
  | builtin d policy => rfl
  | custom f => exact h

theorem validate_of_lawful (h : s.Lawful) (name : Text) : s.validate name = .ok () := by
  unfold validate
  rw [h]

/-- Just the styles are refused that answer or crash on absent docstrings. -/
theorem exists_validate_eq_error_iff (name : Text) :
    (∃ e, s.validate name = .error e) ↔
      (∃ t, s.reply none none none = .doc (some t)) ∨ s.reply none none none = .crash := by
  unfold validate
  cases s.reply none none none with
  | doc t => cases t <;> simp
  | crash => simp

theorem lawful_of_validate {name : Text} (h : s.validate name = .ok ()) : s.Lawful := by
  unfold validate at h
  unfold Lawful
  split at h
  · assumption
  · simp at h
  · simp at h

end Style

/-! ### Operations -/

namespace Registry

/-- A change to a registry. -/
inductive Operation where
  /-- A style is put under a name. -/
  | register (name : Text) (s : Style)
  /-- What stands under a name is taken away. -/
  | unregister (name : Text)

namespace Operation

/-- The name that an operation is about. -/
def name : Operation → Text
  | register name _ => name
  | unregister name => name

/-- Whether an operation is carried out: a style has to keep the rule on absent docstrings. -/
def succeeds : Operation → Bool
  | register _ s => decide s.Lawful
  | unregister _ => true

/-- What stands under the name of an operation after it was carried out. -/
def result : Operation → Option Style
  | register _ s => some s
  | unregister _ => none

end Operation

/-- A registry after an operation; the one before where the operation fails. -/
def apply (r : Registry) : Operation → Registry
  | .register name s =>
    match r.register name s with
    | .ok r' => r'
    | .error _ => r
  | .unregister name => (r.unregister name).2

/-- A registry after operations, one by one. -/
def run (r : Registry) (ops : List Operation) : Registry := ops.foldl apply r

/-- The last operation on a name that was carried out. -/
def lastOn? (name : Text) (ops : List Operation) : Option Operation :=
  (ops.filter fun op => op.name = name && op.succeeds).getLast?

variable {r start : Registry} {n : Text} {s : Style}

theorem run_append_singleton (r : Registry) (ops : List Operation) (op : Operation) :
    r.run (ops ++ [op]) = (r.run ops).apply op := by
  unfold run
  rw [List.foldl_append, List.foldl_cons, List.foldl_nil]

theorem register_of_lawful (h : s.Lawful) (r : Registry) (name : Text) :
    r.register name s = .ok ⟨r.styles.insert name s⟩ := by
  unfold register
  rw [Style.validate_of_lawful h]
  rfl

theorem exists_register_eq_error_iff (r : Registry) (name : Text) (s : Style) :
    (∃ e, r.register name s = .error e) ↔
      (∃ t, s.reply none none none = .doc (some t)) ∨ s.reply none none none = .crash := by
  rw [← Style.exists_validate_eq_error_iff name]
  unfold register
  cases s.validate name <;> simp [Except.map]

/-- An operation that fails leaves the registry as it was. -/
theorem apply_of_error {name : Text} {e : StyleError} (h : r.register name s = .error e) :
    r.apply (.register name s) = r := by
  unfold apply
  simp only [h]

/-- **What one operation does to a name**: what it leaves there if it is about this name and
carried out, and else nothing. -/
theorem get?_apply (r : Registry) (op : Operation) (n : Text) :
    (r.apply op).styles.get? n =
      if op.name = n && op.succeeds then op.result else r.styles.get? n := by
  cases op with
  | register name s =>
    by_cases hs : s.Lawful
    · have happly : r.apply (.register name s) = ⟨r.styles.insert name s⟩ := by
        unfold apply
        simp only [register_of_lawful hs]
      rw [happly, OrderedMap.get?_insert]
      by_cases hn : name = n
      · simp [Operation.name, Operation.succeeds, Operation.result, hs, hn]
      · simp [Operation.name, hn, Ne.symm hn]
    · have herror : ∃ e, r.register name s = .error e := by
        rw [exists_register_eq_error_iff]
        unfold Style.Lawful at hs
        cases hr : s.reply none none none with
        | doc t =>
          cases t with
          | none => exact absurd hr hs
          | some t => exact .inl ⟨t, rfl⟩
        | crash => exact .inr rfl
      obtain ⟨e, he⟩ := herror
      rw [apply_of_error he]
      simp [Operation.succeeds, hs]
  | unregister name =>
    show (r.styles.erase name).get? n = _
    rw [OrderedMap.get?_erase]
    by_cases hn : name = n
    · simp [Operation.name, Operation.succeeds, Operation.result, hn]
    · simp [Operation.name, hn, Ne.symm hn]

/-- **What a run leaves under a name** is what the last operation on it left there that was carried
out. -/
theorem get?_run (start : Registry) (ops : List Operation) (n : Text) :
    (start.run ops).styles.get? n =
      ((lastOn? n ops).map Operation.result).getD (start.styles.get? n) := by
  induction ops using List.reverseRecOn with
  | nil => rfl
  | append_singleton ops op ih =>
    rw [run_append_singleton, get?_apply, ih, lastOn?, lastOn?, List.filter_append]
    cases hop : op.name = n && op.succeeds with
    | true => simp [hop]
    | false => simp [hop]

/-! ### What is found under a name -/

/-- A registry under the names of which only styles stand that keep the rule. -/
def Lawful (r : Registry) : Prop := ∀ n s, r.styles.get? n = some s → s.Lawful

theorem Lawful.apply (h : r.Lawful) (op : Operation) : (r.apply op).Lawful := by
  intro n s hs
  rw [get?_apply] at hs
  split at hs
  · next hop =>
    cases op with
    | register name s' =>
      obtain rfl := Option.some.inj hs
      simp only [Operation.succeeds, Bool.and_eq_true, decide_eq_true_eq] at hop
      exact hop.2
    | unregister name => simp [Operation.result] at hs
  · exact h n s hs

theorem Lawful.run (h : start.Lawful) (ops : List Operation) : (start.run ops).Lawful := by
  induction ops using List.reverseRecOn with
  | nil => exact h
  | append_singleton ops op ih =>
    rw [run_append_singleton]
    exact ih.apply op

/-- The built-in styles stand under their names, and nothing else. -/
theorem get?_withBuiltins :
    withBuiltins.styles.get? n = some s ↔
      ∃ d policy, (n, d, policy) ∈ builtins ∧ s = .builtin d policy := by
  have hentries : withBuiltins.styles.entries =
      builtins.map fun b => (b.1, Style.builtin b.2.1 b.2.2) :=
    OrderedMap.entries_ofList_of_nodup (by decide)
  have hnodup : (builtins.map Prod.fst).Nodup := by decide
  rw [OrderedMap.get?, hentries,
    OrderedMap.lookup_map_snd fun b : Dialect × Policy => Style.builtin b.1 b.2]
  constructor
  · intro h
    obtain ⟨⟨d, policy⟩, hb, rfl⟩ := Option.map_eq_some_iff.1 h
    exact ⟨d, policy, OrderedMap.mem_of_lookup hb, rfl⟩
  · rintro ⟨d, policy, hb, rfl⟩
    rw [OrderedMap.lookup_eq_of_mem hnodup hb]
    rfl

theorem lawful_empty : empty.Lawful := by
  intro n s hs
  simp [empty] at hs

theorem lawful_withBuiltins : withBuiltins.Lawful := by
  intro n s hs
  obtain ⟨d, policy, -, rfl⟩ := get?_withBuiltins.1 hs
  exact Style.lawful_builtin d policy

theorem contains_iff : r.contains n = true ↔ ∃ s, r.styles.get? n = some s :=
  Option.isSome_iff_exists

theorem resolve_named_eq_ok_iff :
    r.resolve (.named n) = .ok s ↔ r.styles.get? n = some s := by
  cases h : r.styles.get? n <;> simp [resolve, h]

/-- A name is registered for a style exactly where the style is found under it. -/
theorem contains_and_resolve_iff :
    (r.contains n = true ∧ r.resolve (.named n) = .ok s) ↔ r.styles.get? n = some s := by
  rw [contains_iff, resolve_named_eq_ok_iff]
  exact ⟨And.right, fun hs => ⟨⟨s, hs⟩, hs⟩⟩

/-- At the start of a run the built-in styles are found, if any. -/
theorem get?_start_iff (h : start = empty ∨ start = withBuiltins) :
    start.styles.get? n = some s ↔
      start = withBuiltins ∧ ∃ d policy, (n, d, policy) ∈ builtins ∧ s = .builtin d policy := by
  rcases h with rfl | rfl
  · have hne : empty ≠ withBuiltins := by
      intro he
      have hnames : empty.names = withBuiltins.names := by rw [he]
      exact absurd hnames (by decide)
    refine iff_of_false ?_ fun hs => hne hs.1
    simp [empty]
  · rw [get?_withBuiltins]
    exact ⟨fun hs => ⟨rfl, hs⟩, And.right⟩

/-- Whatever style is resolved keeps the rule. -/
theorem Lawful.of_resolve (h : r.Lawful) {ref : StyleRef} (hs : r.resolve ref = .ok s) :
    s.Lawful := by
  cases ref with
  | named n => exact h n s (resolve_named_eq_ok_iff.1 hs)
  | direct s' =>
    unfold resolve at hs
    cases hv : s'.validate directName with
    | error e => simp [hv, Except.map] at hs
    | ok u =>
      simp only [hv, Except.map, Except.ok.injEq] at hs
      exact hs ▸ Style.lawful_of_validate hv

/-- A name is unknown that is not registered, and the names at hand are told. -/
theorem resolve_eq_unknown_iff {ref : StyleRef} {available : List Text} :
    r.resolve ref = .error (.unknown n available) ↔
      ref = .named n ∧ r.contains n = false ∧ available = r.names := by
  cases ref with
  | named m =>
    by_cases hm : m = n
    · subst hm
      cases h : r.styles.get? m <;> simp [resolve, contains, h, eq_comm]
    · cases h : r.styles.get? m <;> simp [resolve, h, hm]
  | direct s' =>
    have hne : ∀ e, s'.validate directName = .error e → e ≠ .unknown n available := by
      intro e he
      unfold Style.validate at he
      split at he <;> simp at he <;> simp [← he]
    cases hv : s'.validate directName with
    | ok u => simp [resolve, hv, Except.map]
    | error e => simp [resolve, hv, Except.map, hne e hv]

/-- Just the registered names are listed. -/
theorem mem_names_iff : n ∈ r.names ↔ r.contains n = true := by
  unfold names contains
  rw [Sorted.mem_ofList, OrderedMap.mem_keys_iff]

/-- **A registry is known by its operations.** After any run from the empty registry or from that of
the built-in styles, a name stands for what the last operation on it put there that was carried out,
and for the style built in where there was none. Just those styles are refused that answer or crash
on absent docstrings, and it is as if they had never been offered. So whatever is resolved gives no
docstring there. Names are listed in the order of their bytes, each that is registered, and those
are the ones that are told where a name is unknown. -/
theorem resolve_run (h : start = empty ∨ start = withBuiltins) (ops : List Operation) :
    (∀ n s, (start.run ops).contains n = true ∧ (start.run ops).resolve (.named n) = .ok s ↔
      match lastOn? n ops with
      | some op => op.result = some s
      | none => start = withBuiltins ∧ ∃ d policy, (n, d, policy) ∈ builtins ∧
          s = .builtin d policy) ∧
    (∀ n s, ((∃ e, (start.run ops).register n s = .error e) ↔
        (∃ t, s.reply none none none = .doc (some t)) ∨ s.reply none none none = .crash) ∧
      ((∃ e, (start.run ops).register n s = .error e) →
        ∀ more, start.run (ops ++ .register n s :: more) = start.run (ops ++ more))) ∧
    (∀ ref s, (start.run ops).resolve ref = .ok s →
      ∀ params, s.reply params none none = .doc none) ∧
    (start.run ops).names.Pairwise (fun a b => bytes a < bytes b) ∧
    (∀ n, n ∈ (start.run ops).names ↔ (start.run ops).contains n = true) ∧
    ∀ ref n available, (start.run ops).resolve ref = .error (.unknown n available) ↔
      ref = .named n ∧ (start.run ops).contains n = false ∧
        available = (start.run ops).names := by
  have hlawful : start.Lawful := by
    rcases h with rfl | rfl
    · exact lawful_empty
    · exact lawful_withBuiltins
  refine ⟨fun n s => ?_, fun n s => ⟨exists_register_eq_error_iff _ n s, ?_⟩,
    fun ref s hs params => ((hlawful.run ops).of_resolve hs).reply_eq params,
    pairwise_bytes_names _, fun n => mem_names_iff, fun ref n available => resolve_eq_unknown_iff⟩
  · rw [contains_and_resolve_iff, get?_run]
    cases lastOn? n ops with
    | some op => rfl
    | none => exact get?_start_iff h
  · rintro ⟨e, he⟩ more
    unfold run
    rw [List.foldl_append, List.foldl_cons, List.foldl_append]
    exact congrArg (more.foldl apply) (apply_of_error he)

/-- A built-in name is taken over and keeps what it has when a worse style is offered for it,
another one is given up, and a name of more than one byte to a character comes after all others. -/
theorem resolve_run_overwritten :
    let either : Style := .custom fun a d => .doc (d.or a)
    let loud : Style := .custom fun _ _ => .doc (some "!".toList)
    let strict : Style := .custom fun a d => if a.isNone || d.isNone then .crash else .doc d
    let ops : List Operation := [.register "numpy".toList either, .register "numpy".toList loud,
      .unregister "google".toList, .register "é".toList either, .register "zz".toList strict]
    (withBuiltins = empty ∨ withBuiltins = withBuiltins) ∧
    (withBuiltins.run ops).resolve (.named "numpy".toList) = .ok either ∧
    (withBuiltins.run ops).resolve (.named "reST".toList) = .ok (.builtin .rest .replace) ∧
    (withBuiltins.run ops).resolve (.named "google".toList) =
      .error (.unknown "google".toList (withBuiltins.run ops).names) ∧
    (withBuiltins.run ops).names = ["google_with_merge".toList, "numpy".toList,
      "numpy_napoleon".toList, "numpy_napoleon_with_merge".toList, "numpy_with_merge".toList,
      "parent".toList, "reST".toList, "é".toList] ∧
    (withBuiltins.run ops).names.Pairwise (fun a b => bytes a < bytes b) ∧
    (∃ e, (withBuiltins.run ops).register "numpy".toList loud = .error e) ∧
    (withBuiltins.run (ops ++ [.register "numpy".toList loud])).names =
      (withBuiltins.run ops).names := by
  intro either loud strict ops
  obtain ⟨hfound, hrefused, -, hsorted, hlisted, hunknown⟩ := resolve_run (.inr rfl) ops
  have hnumpy : lastOn? "numpy".toList ops = some (.register "numpy".toList either) := by rfl
  have hrest : lastOn? "reST".toList ops = none := by rfl
  have hnames : (withBuiltins.run ops).names = ["google_with_merge".toList, "numpy".toList,
      "numpy_napoleon".toList, "numpy_napoleon_with_merge".toList, "numpy_with_merge".toList,
      "parent".toList, "reST".toList, "é".toList] := by decide +kernel
  have hgone : (withBuiltins.run ops).contains "google".toList = false := by decide +kernel
  have herror := (hrefused "numpy".toList loud).1.2 (.inl ⟨_, rfl⟩)
  refine ⟨.inr rfl, ((hfound _ either).2 ?_).2, ((hfound _ _).2 ?_).2,
    (hunknown _ _ _).2 ⟨rfl, hgone, rfl⟩, hnames, hsorted, herror, ?_⟩
  · rw [hnumpy]
    rfl
  · rw [hrest]
    exact ⟨rfl, .rest, .replace, by decide, rfl⟩
  · have hsame := (hrefused "numpy".toList loud).2 herror []
    rw [List.append_nil] at hsame
    rw [hsame]

end Registry

end Docstring
