import Mathlib.Tactic.Common
import Docstring.Text.Basic

/-!
# Texts as bytes

A text is stored in UTF-8, which gives the smaller of two characters the smaller bytes
(`encode_lt_encode`). Places in a text are counted in bytes, so there are offsets at which no
character starts or ends. A text is cut at the others only (`cutAt?_eq_some_iff`), and so is a slice
of it (`slice?_eq_some_iff`).
-/

namespace Docstring

namespace Text

/-! ### The order of bytes -/

/-- The bytes of a text in UTF-8. -/
def bytes (t : Text) : List UInt8 := t.flatMap String.utf8EncodeChar

@[simp] theorem bytes_cons (c : Char) (t : Text) :
    bytes (c :: t) = String.utf8EncodeChar c ++ bytes t := List.flatMap_cons

theorem encode_ne_nil (c : Char) : String.utf8EncodeChar c ≠ [] := by
  unfold String.utf8EncodeChar
  dsimp only
  split_ifs <;> simp

/-- **The smaller of two characters has the smaller bytes**, whatever comes after them. -/
theorem encode_lt_encode {a b : Char} (h : a < b) (s t : List UInt8) :
    String.utf8EncodeChar a ++ s < String.utf8EncodeChar b ++ t := by
  have hlt : a.val.toNat < b.val.toNat := h
  have hmax : b.val.toNat < 0x110000 := by
    rcases b.valid with hb | hb <;> omega
  have hfour : ∀ n, n / 4096 = n / 64 / 64 := by omega
  have hsix : ∀ n, n / 262144 = n / 64 / 64 / 64 := by omega
  unfold String.utf8EncodeChar
  generalize a.val.toNat = m at hlt
  generalize b.val.toNat = n at hlt hmax
  dsimp only
  -- encodings of two lengths differ in the first byte, those of one length are digits to base 64
  split_ifs <;>
    simp (disch := omega) only [List.cons_append, List.nil_append, List.cons_lt_cons_iff,
      UInt8.lt_iff_toNat_lt, ← UInt8.toNat_inj, UInt8.toNat_ofNat', Nat.mod_eq_of_lt, hfour,
      hsix] <;>
    omega

/-! ### Offsets -/

/-- How many bytes a text takes. -/
def size (t : Text) : Nat := (bytes t).length

@[simp] theorem size_nil : size [] = 0 := rfl

@[simp] theorem size_cons (c : Char) (t : Text) : size (c :: t) = c.utf8Size + size t := by
  rw [size, bytes_cons, List.length_append, String.length_utf8EncodeChar, size]

@[simp] theorem size_append (s t : Text) : size (s ++ t) = size s + size t := by
  rw [size, bytes, List.flatMap_append, List.length_append]
  rfl

@[simp] theorem utf8Size_newline : '\n'.utf8Size = 1 := rfl

/-- A text cut in two at an offset, none where the offset is past its end or inside a character. -/
def cutAt? : Text → Nat → Option (Text × Text)
  | [], n => if n = 0 then some ([], []) else none
  | c :: t, n =>
    if n = 0 then some ([], c :: t)
    else if c.utf8Size ≤ n then (cutAt? t (n - c.utf8Size)).map fun p => (c :: p.1, p.2)
    else none

theorem cutAt?_append (s t : Text) : cutAt? (s ++ t) (size s) = some (s, t) := by
  induction s with
  | nil => cases t <;> simp [cutAt?]
  | cons c s ih =>
    have hpos := c.utf8Size_pos
    rw [List.cons_append, cutAt?, size_cons, if_neg (by omega), if_pos (by omega),
      Nat.add_sub_cancel_left, ih]
    rfl

/-- **A text is cut where its characters come apart.** -/
theorem cutAt?_eq_some_iff {t front rest : Text} {n : Nat} :
    cutAt? t n = some (front, rest) ↔ t = front ++ rest ∧ n = size front := by
  constructor
  · intro h
    induction t generalizing n front with
    | nil =>
      rw [cutAt?, Option.ite_none_right_eq_some] at h
      obtain ⟨rfl, h⟩ := h
      obtain ⟨rfl, rfl⟩ : [] = front ∧ [] = rest := by simpa using h
      exact ⟨rfl, rfl⟩
    | cons c t ih =>
      rw [cutAt?] at h
      split_ifs at h with h0 hc
      · obtain ⟨rfl, rfl⟩ : [] = front ∧ c :: t = rest := by simpa using h
        exact ⟨rfl, h0⟩
      · obtain ⟨⟨s, r⟩, hp, heq⟩ := Option.map_eq_some_iff.1 h
        obtain ⟨rfl, rfl⟩ : c :: s = front ∧ r = rest := by simpa using heq
        obtain ⟨rfl, hn⟩ := ih hp
        exact ⟨rfl, by rw [size_cons]; omega⟩
  · rintro ⟨rfl, rfl⟩
    exact cutAt?_append front rest

/-- Two parts in front of a text that take as many bytes are the same. -/
theorem eq_of_append_of_size {s s' t t' : Text} (h : s ++ t = s' ++ t') (hs : size s = size s') :
    s = s' ∧ t = t' := by
  have hcut := cutAt?_append s t
  rw [h, hs, cutAt?_append] at hcut
  exact (Prod.mk.inj (Option.some.inj hcut)).imp Eq.symm Eq.symm

/-- The text between two offsets, none where they are out of order or where the text cannot be cut
at one of them. -/
def slice? (t : Text) (start stop : Nat) : Option Text :=
  if start ≤ stop then (cutAt? t stop).bind fun p => (cutAt? p.1 start).map Prod.snd else none

theorem slice?_append (front mid rest : Text) :
    slice? (front ++ (mid ++ rest)) (size front) (size front + size mid) = some mid := by
  have hstop : cutAt? (front ++ (mid ++ rest)) (size front + size mid) =
      some (front ++ mid, rest) := by
    rw [← size_append, ← List.append_assoc]
    exact cutAt?_append _ _
  rw [slice?, if_pos (Nat.le_add_right _ _), hstop, Option.bind_some, cutAt?_append]
  rfl

/-- **A slice is a part of a text**: there is text in front of it up to the one offset, and it ends
at the other. -/
theorem slice?_eq_some_iff {t mid : Text} {start stop : Nat} :
    slice? t start stop = some mid ↔ ∃ front rest, t = front ++ (mid ++ rest) ∧
      start = size front ∧ stop = size front + size mid := by
  constructor
  · intro h
    rw [slice?, Option.ite_none_right_eq_some] at h
    obtain ⟨⟨above, rest⟩, hstop, hstart⟩ := Option.bind_eq_some_iff.1 h.2
    obtain ⟨⟨front, mid'⟩, hcut, rfl⟩ := Option.map_eq_some_iff.1 hstart
    obtain ⟨rfl, rfl⟩ := cutAt?_eq_some_iff.1 hstop
    obtain ⟨rfl, rfl⟩ := cutAt?_eq_some_iff.1 hcut
    exact ⟨front, rest, by rw [List.append_assoc], rfl, size_append _ _⟩
  · rintro ⟨front, rest, rfl, rfl, rfl⟩
    exact slice?_append front mid rest

end Text

end Docstring
