import Mathlib.Tactic.Common
import Docstring.Hierarchy.Descriptor
import Docstring.Proofs.Ancestry

/-!
# Written descriptors read back

A type is written as an object of some of its fields: empty lists are left out, and so are
parameters that are not known, while a docstring is always there. What is left out is what is taken
where a key is not there, so each field reads as it was (`member?_ofMember`), and with the fields a
hierarchy of any depth (`type?_ofType`).
-/

namespace Docstring

namespace Json

/-- The value under a key of an object. -/
def field? (key : Text) : Json → Option Json
  | .object es => es.lookup (some key)
  | _ => none

end Json

namespace Descriptor

open Json

variable {α β : Type} {keys : List Text} {key : Text} {fs : List (Text × Json)}
  {es : List (Option Text × Json)}

/-! ### Lists -/

/-- A list is read back whose members are. -/
theorem mapM_map_eq_some {write : α → β} {read : β → Option α} {l : List α}
    (h : ∀ a ∈ l, read (write a) = some a) : (l.map write).mapM read = some l := by
  induction l with
  | nil => rfl
  | cons a l ih =>
    have hl := ih fun b hb => h b (List.mem_cons_of_mem a hb)
    rw [List.map_cons, List.mapM_cons, h a List.mem_cons_self, hl]
    rfl

theorem list?_array {write : α → Json} {read : Json → Option α} {l : List α}
    (h : ∀ a ∈ l, read (write a) = some a) : list? read (.array (l.map write)) = some l := by
  rw [list?, elements?, Option.bind_some, mapM_map_eq_some h]

/-! ### Fields -/

/-- Fields as the entries of an object. -/
def entriesOf (fs : List (Text × Json)) : List (Option Text × Json) :=
  fs.map fun f => entry f.1 f.2

theorem lookup_entriesOf (fs : List (Text × Json)) (key : Text) :
    (entriesOf fs).lookup (some key) = fs.lookup key := by
  induction fs with
  | nil => rfl
  | cons f fs ih =>
    rw [entriesOf, List.map_cons, ← entriesOf, entry, List.lookup_cons, List.lookup_cons, ih]
    rfl

/-- Entries under different known keys are read as they are. -/
theorem entries?_entriesOf (h : (fs.map Prod.fst).Sublist keys) (hkeys : keys.Nodup) :
    entries? keys (entriesOf fs) = some fs := by
  have hall : (entriesOf fs).mapM (fun e => e.1.map fun k => (k, e.2)) = some fs :=
    mapM_map_eq_some fun f _ => rfl
  have hknown : fs.filter (fun e => keys.contains e.1) = fs := by
    rw [List.filter_eq_self]
    exact fun f hf => List.elem_eq_true_of_mem (h.mem (List.mem_map_of_mem hf))
  simp only [entries?, hall, hknown, Option.bind_eq_bind, Option.bind_some]
  rw [if_pos (hkeys.sublist h)]

/-- A field with the elements of a list, unless there are none. -/
def listField (key : Text) (js : List Json) : List (Text × Json) :=
  if js.isEmpty then [] else [(key, .array js)]

theorem listEntry_eq (key : Text) (js : List Json) :
    listEntry key js = entriesOf (listField key js) := by
  unfold listEntry listField
  split <;> rfl

theorem lookup_listField_eq_none {js : List Json} :
    (listField key js).lookup key = none ↔ js = [] := by
  cases js with
  | nil => exact iff_of_true rfl rfl
  | cons j js => simp [listField]

theorem keys_listField_sublist (key : Text) (js : List Json) :
    ((listField key js).map Prod.fst).Sublist [key] := by
  unfold listField
  split
  · exact List.nil_sublist _
  · exact List.Sublist.refl _

/-- A list that is left out where it is empty is empty where it is left out. -/
theorem orDefault?_listField {write : α → Json} {read : Json → Option α} {l : List α}
    (h : ∀ a ∈ l, read (write a) = some a) :
    orDefault? (list? read) [] ((listField key (l.map write)).lookup key) = some l := by
  cases l with
  | nil => rfl
  | cons a l =>
    have hlook : (listField key ((a :: l).map write)).lookup key =
        some (.array ((a :: l).map write)) := by
      simp [listField]
    rw [hlook]
    exact list?_array h

theorem ofText?_eq_null {t : Option Text} : ofText? t = .null ↔ t = none := by
  cases t with
  | none => exact iff_of_true rfl rfl
  | some t => exact iff_of_false nofun nofun

theorem optional?_ofText? (t : Option Text) : optional? text? (some (ofText? t)) = some t := by
  cases t <;> rfl

/-! ### Members -/

/-- The field of parameters, where they are known. -/
def paramsField (params : Option (List Text)) : List (Text × Json) :=
  (params.map fun ps => (paramsKey, .array (ps.map ofText))).toList

theorem keys_paramsField_sublist (params : Option (List Text)) :
    ((paramsField params).map Prod.fst).Sublist [paramsKey] := by
  cases params with
  | none => exact List.nil_sublist _
  | some ps => exact List.Sublist.refl _

/-- The fields of a member as they are written. -/
def memberFields (m : Member) : List (Text × Json) :=
  [(nameKey, ofText m.name), (kindKey, ofText m.kind.name), (docKey, ofText? m.doc)] ++
    paramsField m.params

theorem ofMember_eq (m : Member) : ofMember m = .object (entriesOf (memberFields m)) := by
  obtain ⟨name, kind, doc, params⟩ := m
  cases params <;> rfl

theorem field?_ofMember (m : Member) (key : Text) :
    field? key (ofMember m) = (memberFields m).lookup key := by
  rw [ofMember_eq, field?, lookup_entriesOf]

theorem lookup_memberFields_params (m : Member) :
    (memberFields m).lookup paramsKey = m.params.map fun ps => .array (ps.map ofText) := by
  obtain ⟨name, kind, doc, params⟩ := m
  cases params <;> rfl

theorem keys_memberFields_sublist (m : Member) :
    ((memberFields m).map Prod.fst).Sublist memberKeys := by
  rw [memberFields, List.map_append]
  exact (List.Sublist.refl [nameKey, kindKey, docKey]).append (keys_paramsField_sublist _)

theorem kind?_ofText (k : MemberKind) : kind? (ofText k.name) = some k := MemberKind.ofName?_name k

/-- **A member is read back as it was written**: unknown parameters are told from none. -/
theorem member?_ofMember (m : Member) : member? (ofMember m) = some m := by
  have hfields : fields? memberKeys (ofMember m) = some (memberFields m) := by
    rw [ofMember_eq]
    exact entries?_entriesOf (keys_memberFields_sublist m) (by decide)
  have hparams : optional? (list? text?) ((memberFields m).lookup paramsKey) = some m.params := by
    rw [lookup_memberFields_params]
    cases m.params with
    | none => rfl
    | some ps => exact congrArg (Option.map some) (list?_array fun p _ => text?_ofText p)
  have hname : (memberFields m).lookup nameKey = some (ofText m.name) := rfl
  have hkind : (memberFields m).lookup kindKey = some (ofText m.kind.name) := rfl
  have hdoc : (memberFields m).lookup docKey = some (ofText? m.doc) := rfl
  simp only [member?, hfields, hparams, hname, hkind, hdoc, Option.bind_eq_bind, Option.bind_some,
    text?_ofText, orDefault?, kind?_ofText, optional?_ofText?, Option.pure_def]

/-! ### Types -/

/-- The fields of a type as they are written. -/
def typeFields (t : TypeDescriptor) : List (Text × Json) :=
  [(nameKey, ofText t.name), (docKey, ofText? t.doc)] ++ listField basesKey (t.bases.map ofType) ++
    listField membersKey (t.members.map ofMember)

theorem ofTypes_eq_map (ts : List TypeDescriptor) : ofTypes ts = ts.map ofType := by
  induction ts with
  | nil => rfl
  | cons t ts ih => rw [ofTypes, ih, List.map_cons]

theorem ofType_eq (t : TypeDescriptor) : ofType t = .object (entriesOf (typeFields t)) := by
  obtain ⟨name, doc, bases, members⟩ := t
  rw [ofType, ofTypes_eq_map, listEntry_eq, listEntry_eq, typeFields, entriesOf, entriesOf,
    entriesOf, List.map_append, List.map_append]
  rfl

theorem field?_ofType (t : TypeDescriptor) (key : Text) :
    field? key (ofType t) = (typeFields t).lookup key := by
  rw [ofType_eq, field?, lookup_entriesOf]

theorem keys_typeFields_sublist (t : TypeDescriptor) :
    ((typeFields t).map Prod.fst).Sublist typeKeys := by
  rw [typeFields, List.map_append, List.map_append]
  exact ((List.Sublist.refl [nameKey, docKey]).append (keys_listField_sublist _ _)).append
    (keys_listField_sublist _ _)

theorem lookup_typeFields_bases (t : TypeDescriptor) :
    (typeFields t).lookup basesKey = (listField basesKey (t.bases.map ofType)).lookup basesKey := by
  obtain ⟨name, doc, bases, members⟩ := t
  cases bases <;> cases members <;> rfl

theorem lookup_typeFields_members (t : TypeDescriptor) :
    (typeFields t).lookup membersKey =
      (listField membersKey (t.members.map ofMember)).lookup membersKey := by
  obtain ⟨name, doc, bases, members⟩ := t
  cases bases <;> cases members <;> rfl

theorem typeList?_eq_mapM (js : List Json) : typeList? js = js.mapM type? := by
  induction js with
  | nil => rfl
  | cons j js ih =>
    rw [typeList?, ih, List.mapM_cons]

theorem types?_eq_list? (j : Json) : types? j = list? type? j := by
  cases j with
  | array js => rw [types?, typeList?_eq_mapM]; rfl
  | null | bool | number | string | object => rfl

/-- The bases are read from the first entry under their key. -/
theorem basesIn?_eq (es : List (Option Text × Json)) :
    basesIn? es = orDefault? (list? type?) [] (es.lookup (some basesKey)) := by
  induction es with
  | nil => rfl
  | cons e es ih =>
    obtain ⟨k, j⟩ := e
    rw [basesIn?, List.lookup_cons]
    by_cases h : k = some basesKey
    · rw [if_pos h, h, beq_self_eq_true, types?_eq_list?]
      rfl
    · rw [if_neg h, beq_false_of_ne (Ne.symm h), ih]

theorem type?_ofType_of_bases {t : TypeDescriptor}
    (h : ∀ b ∈ t.bases, type? (ofType b) = some b) : type? (ofType t) = some t := by
  have hfields : entries? typeKeys (entriesOf (typeFields t)) = some (typeFields t) :=
    entries?_entriesOf (keys_typeFields_sublist t) (by decide)
  have hbases : basesIn? (entriesOf (typeFields t)) = some t.bases := by
    rw [basesIn?_eq, lookup_entriesOf, lookup_typeFields_bases, orDefault?_listField h]
  have hmembers : orDefault? (list? member?) [] ((typeFields t).lookup membersKey) =
      some t.members := by
    rw [lookup_typeFields_members, orDefault?_listField fun m _ => member?_ofMember m]
  have hname : (typeFields t).lookup nameKey = some (ofText t.name) := rfl
  have hdoc : (typeFields t).lookup docKey = some (ofText? t.doc) := rfl
  rw [ofType_eq, type?]
  simp only [hfields, hbases, typeOf?, hmembers, hname, hdoc, Option.bind_eq_bind,
    Option.bind_some, text?_ofText, optional?_ofText?, Option.pure_def]
  exact congrArg some (TypeDescriptor.eq_of_fields rfl rfl rfl rfl)

theorem type?_ofType (t : TypeDescriptor) : type? (ofType t) = some t := by
  induction t using TypeDescriptor.induction with
  | step t ih => exact type?_ofType_of_bases ih

/-! ### What a written descriptor tells -/

theorem field?_doc_ofType (t : TypeDescriptor) :
    field? docKey (ofType t) = some .null ↔ t.doc = none := by
  rw [field?_ofType, ← ofText?_eq_null]
  exact Option.some_inj

theorem field?_bases_ofType (t : TypeDescriptor) :
    field? basesKey (ofType t) = none ↔ t.bases = [] := by
  rw [field?_ofType, lookup_typeFields_bases, lookup_listField_eq_none, List.map_eq_nil_iff]

theorem field?_members_ofType (t : TypeDescriptor) :
    field? membersKey (ofType t) = none ↔ t.members = [] := by
  rw [field?_ofType, lookup_typeFields_members, lookup_listField_eq_none, List.map_eq_nil_iff]

theorem field?_doc_ofMember (m : Member) :
    field? docKey (ofMember m) = some .null ↔ m.doc = none := by
  rw [field?_ofMember, ← ofText?_eq_null]
  exact Option.some_inj

theorem field?_params_ofMember (m : Member) :
    field? paramsKey (ofMember m) = none ↔ m.params = none := by
  rw [field?_ofMember, lookup_memberFields_params, Option.map_eq_none_iff]

theorem field?_params_ofMember_nil (m : Member) :
    field? paramsKey (ofMember m) = some (.array []) ↔ m.params = some [] := by
  rw [field?_ofMember, lookup_memberFields_params]
  cases m.params with
  | none => exact iff_of_false nofun nofun
  | some ps => simp

/-- **Writing loses nothing of a descriptor.** A type of any depth is read back as it was, and so
is a member. A docstring that is absent is written as null. Of a type an empty list is left out; of
a member parameters are left out that are not known, and an empty list of them is not. Whatever
value a type was read from, the type is read again from what is then written. -/
theorem written_reads_back :
    (∀ t : TypeDescriptor, type? (ofType t) = some t ∧
      (field? docKey (ofType t) = some .null ↔ t.doc = none) ∧
      (field? basesKey (ofType t) = none ↔ t.bases = []) ∧
      (field? membersKey (ofType t) = none ↔ t.members = [])) ∧
    (∀ m : Member, member? (ofMember m) = some m ∧
      (field? docKey (ofMember m) = some .null ↔ m.doc = none) ∧
      (field? paramsKey (ofMember m) = none ↔ m.params = none) ∧
      (field? paramsKey (ofMember m) = some (.array []) ↔ m.params = some [])) ∧
    ∀ j : Json, ((type? j).bind fun t => type? (ofType t)) = type? j := by
  refine ⟨fun t => ⟨type?_ofType t, field?_doc_ofType t, field?_bases_ofType t,
    field?_members_ofType t⟩, fun m => ⟨member?_ofMember m, field?_doc_ofMember m,
    field?_params_ofMember m, field?_params_ofMember_nil m⟩, fun j => ?_⟩
  cases type? j with
  | none => rfl
  | some t => exact type?_ofType t

/-- An unknown key is skipped with what stands under it, and fields may stand without keys. -/
example :
    type? (.object [entry "since".toList (.array [.null]), entry nameKey (ofText "A".toList),
      entry membersKey (.array [.array [ofText "f".toList]])]) =
      some ⟨"A".toList, none, [], [⟨"f".toList, .method, none, none⟩]⟩ := by
  rfl

end Descriptor

end Docstring
