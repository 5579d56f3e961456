import Mathlib.Data.List.Basic
import Mathlib.Data.Nat.Digits.Defs
import Mathlib.Tactic.Ring

/-!
# Codes read from the front

A format that writes one field after another can be read back when every field says where
it ends: the string determines the field and what follows it (`UniquelyRead`). Such fields
compose into pairs, optional fields and lists of a known length. A list whose length is
*not* written down is the hard case. Two such lists with whatever follows them can be the
same string without being the same list, but then one list begins with the other and the
rest of it stands where the other's tail does (`UniquelyRead.flatMap_cases`).

The fields themselves are numbers of a fixed width, most significant byte first
(`bigEndian`), and byte strings that follow their own length (`frame`).
-/

namespace PrefixCode

variable {α β γ σ : Type*}

/-- The string a field begins determines the field and the rest. -/
def UniquelyRead (encode : α → List σ) : Prop :=
  ∀ ⦃a b : α⦄ ⦃x y : List σ⦄, encode a ++ x = encode b ++ y → a = b ∧ x = y

namespace UniquelyRead

variable {encode : α → List σ} {encode' : β → List σ}

/-- Fields of one width are read back when the encoding is injective. -/
theorem of_length (width : ℕ) (hlen : ∀ a, (encode a).length = width)
    (hinj : Function.Injective encode) : UniquelyRead encode := by
  intro a b x y h
  obtain ⟨hab, hxy⟩ := List.append_inj h ((hlen a).trans (hlen b).symm)
  exact ⟨hinj hab, hxy⟩

/-- One field after another. -/
theorem pair (h : UniquelyRead encode) (h' : UniquelyRead encode') :
    UniquelyRead fun fields : α × β => encode fields.1 ++ encode' fields.2 := by
  rintro ⟨a, b⟩ ⟨a', b'⟩ x y heq
  simp only [List.append_assoc] at heq
  obtain ⟨rfl, hrest⟩ := h heq
  obtain ⟨rfl, hxy⟩ := h' hrest
  exact ⟨rfl, hxy⟩

/-- The fields of a record that its parts determine. -/
theorem comap (h : UniquelyRead encode) {f : γ → α} (hf : Function.Injective f) :
    UniquelyRead fun c => encode (f c) := by
  intro a b x y heq
  obtain ⟨hab, hxy⟩ := h heq
  exact ⟨hf hab, hxy⟩

variable {l r : List α} {x y : List σ}

/-- **Lists without a length**: when two of them, each with a tail, are the same string, one
list begins with the other and the rest of it is read from the other's tail. -/
theorem flatMap_cases (h : UniquelyRead encode)
    (heq : l.flatMap encode ++ x = r.flatMap encode ++ y) :
    (∃ rest, r = l ++ rest ∧ x = rest.flatMap encode ++ y) ∨
      (∃ rest, l = r ++ rest ∧ y = rest.flatMap encode ++ x) := by
  -- peel the fields both strings begin with, until one list is used up
  induction l generalizing r with
  | nil => exact .inl ⟨r, rfl, heq⟩
  | cons a l ih =>
    cases r with
    | nil => exact .inr ⟨a :: l, rfl, heq.symm⟩
    | cons b r =>
      simp only [List.flatMap_cons, List.append_assoc] at heq
      obtain ⟨rfl, hrest⟩ := h heq
      rcases ih hrest with ⟨rest, rfl, hx⟩ | ⟨rest, rfl, hy⟩
      · exact .inl ⟨rest, rfl, hx⟩
      · exact .inr ⟨rest, rfl, hy⟩

/-- Lists of the same length are read back. -/
theorem flatMap_eq (h : UniquelyRead encode) (hlen : l.length = r.length)
    (heq : l.flatMap encode ++ x = r.flatMap encode ++ y) : l = r ∧ x = y := by
  rcases h.flatMap_cases heq with ⟨rest, rfl, hx⟩ | ⟨rest, rfl, hy⟩
  · obtain rfl : rest = [] := by simpa using hlen
    exact ⟨(List.append_nil l).symm, hx⟩
  · obtain rfl : rest = [] := by simpa using hlen
    exact ⟨List.append_nil r, hy.symm⟩

end UniquelyRead

/-- A field that may be missing, behind a symbol that says whether it is there. -/
def optional (absent present : σ) (encode : α → List σ) : Option α → List σ
  | some a => present :: encode a
  | none => [absent]

theorem UniquelyRead.optional {absent present : σ} {encode : α → List σ} (h : UniquelyRead encode)
    (hne : absent ≠ present) : UniquelyRead (optional absent present encode) := by
  intro a b x y heq
  cases a with
  | none =>
    cases b with
    | none => exact ⟨rfl, (List.cons.inj heq).2⟩
    | some b => exact absurd (List.cons.inj heq).1 hne
  | some a =>
    cases b with
    | none => exact absurd (List.cons.inj heq).1.symm hne
    | some b =>
      obtain ⟨rfl, hxy⟩ := h (List.cons.inj heq).2
      exact ⟨rfl, hxy⟩

/-! ## Bytes -/

/-- The low `width` bytes of a number, most significant first. -/
def bigEndian : ℕ → ℕ → List UInt8
  | 0, _ => []
  | width + 1, n => UInt8.ofNat (n / 256 ^ width) :: bigEndian width n

@[simp]
theorem length_bigEndian (width n : ℕ) : (bigEndian width n).length = width := by
  induction width with
  | zero => rfl
  | succ width ih => rw [bigEndian, List.length_cons, ih]

variable {width : ℕ}

/-- The bytes determine the number as far as it fits them. -/
theorem mod_eq_of_bigEndian_eq {m n : ℕ} (h : bigEndian width m = bigEndian width n) :
    m % 256 ^ width = n % 256 ^ width := by
  induction width with
  | zero => rw [pow_zero, Nat.mod_one, Nat.mod_one]
  | succ width ih =>
    obtain ⟨hhead, htail⟩ := List.cons.inj h
    have hbyte : m / 256 ^ width % 256 = n / 256 ^ width % 256 := by
      simpa using congrArg UInt8.toNat hhead
    rw [Nat.mod_pow_succ, Nat.mod_pow_succ, ih htail, hbyte]

theorem eq_of_bigEndian_eq {m n : ℕ} (hm : m < 256 ^ width) (hn : n < 256 ^ width)
    (h : bigEndian width m = bigEndian width n) : m = n := by
  have hmod : m % 256 ^ width = n % 256 ^ width := mod_eq_of_bigEndian_eq h
  rwa [Nat.mod_eq_of_lt hm, Nat.mod_eq_of_lt hn] at hmod

/-- Bytes behind their length, which takes eight bytes. -/
def frame (bytes : List UInt8) : List UInt8 := bigEndian 8 bytes.length ++ bytes

/-- Frames are read back while the length fits its eight bytes. -/
theorem frame_append_inj {a b x y : List UInt8} (ha : a.length < 2 ^ 64) (hb : b.length < 2 ^ 64)
    (h : frame a ++ x = frame b ++ y) : a = b ∧ x = y := by
  rw [frame, frame, List.append_assoc, List.append_assoc] at h
  obtain ⟨hwidth, hrest⟩ := List.append_inj h (by simp only [length_bigEndian])
  have hlen : a.length = b.length :=
    eq_of_bigEndian_eq (by simpa using ha) (by simpa using hb) hwidth
  exact List.append_inj hrest hlen

theorem frame_ne_nil (bytes : List UInt8) : frame bytes ≠ [] := by
  simp [frame, bigEndian]

end PrefixCode
