import Mathlib.Data.Finmap
import Mathlib.Data.List.DropRight

/-!
# `Go.Basic` — the Go values the Avro binding moves around

The binding (`binding/format/avro/v2/avro.go`) copies values between a CloudEvents event and a
`map[string]any`. This module fixes what those Go values are in the model.

- **Fixed-width integers.** `Int32` and `Int64` carry their range as fields, so an out-of-range `int32`
  cannot be built. `Int32.wrap` is Go's conversion `int32(x)` (two's-complement truncation) and
  `Int32.toInt64` is `int(x)`.
- **Strings.** `trimSpace` is `strings.TrimSpace` over `unicode.IsSpace`; `toLower` is `strings.ToLower`
  on the letters whose lower case is ASCII, the only ones whose lower case the SDK compares with an
  attribute name.
- **Maps.** `Map V` is a Go `map[string]V` as a Mathlib `Finmap`, whose equality is extensional as a Go
  map's is. A `range` loop visits the entries in an order the program does not choose:
  `Map.RangeOrder m ord` says `ord` is one such order, and every statement about a loop over a map is
  quantified over it.
-/

namespace CloudEvents.Go

/-! ## Fixed-width integers -/

/-- A Go `int32`. -/
structure Int32 where
  val : Int
  min_le : -2147483648 ≤ val
  lt_max : val < 2147483648
  deriving DecidableEq

/-- A Go `int64`, and a Go `int` (64 bits on every platform the SDK supports). -/
structure Int64 where
  val : Int
  min_le : -9223372036854775808 ≤ val
  lt_max : val < 9223372036854775808
  deriving DecidableEq

/-- Go's conversion `int32(x)`: keep the low 32 bits, read them as two's complement. -/
def Int32.wrap (n : Int) : Int32 :=
  ⟨(n + 2147483648) % 4294967296 - 2147483648, by omega, by omega⟩

/-- Go's conversion `int(x)` of an `int32`. -/
def Int32.toInt64 (x : Int32) : Int64 :=
  ⟨x.val, by have := x.min_le; omega, by have := x.lt_max; omega⟩

/-- Whether an integer is in the range of `int32`. -/
def InInt32Range (n : Int) : Prop := -2147483648 ≤ n ∧ n < 2147483648

instance (n : Int) : Decidable (InInt32Range n) := inferInstanceAs (Decidable (_ ∧ _))

/-- The conversion keeps every integer `int32` can hold. -/
theorem Int32.wrap_val_of_inRange {n : Int} (h : InInt32Range n) : (Int32.wrap n).val = n := by
  simp only [Int32.wrap, InInt32Range] at *; omega

theorem Int32.ext_val {x y : Int32} (h : x.val = y.val) : x = y := by
  cases x; cases y; simp_all

/-- `int32(int(x)) = x`. -/
@[simp] theorem Int32.wrap_toInt64 (x : Int32) : Int32.wrap x.toInt64.val = x :=
  Int32.ext_val (Int32.wrap_val_of_inRange ⟨x.min_le, x.lt_max⟩)

/-- A Go `[]byte`. -/
abbrev Bytes := List UInt8

/-! ## Strings -/

/-- Go's `unicode.IsSpace`: the Latin-1 spaces and the other Unicode `White_Space` characters. -/
def isSpace (c : Char) : Bool :=
  c == ' ' || c == '\t' || c == '\n' || c == '\x0b' || c == '\x0c' || c == '\r' || c == '\x85' ||
    c == '\xa0' || c == '\u1680' || (decide ('\u2000' ≤ c) && decide (c ≤ '\u200a')) ||
    c == '\u2028' || c == '\u2029' || c == '\u202f' || c == '\u205f' || c == '\u3000'

/-- Go's `strings.TrimSpace`. -/
def trimSpace (s : String) : String :=
  ⟨(s.data.dropWhile isSpace).rdropWhile isSpace⟩

/-- Trimming the end of a list that starts with no space leaves a list that starts with no space. -/
theorem dropWhile_rdropWhile {p : Char → Bool} {l : List Char} (h : l.dropWhile p = l) :
    (l.rdropWhile p).dropWhile p = l.rdropWhile p := by
  obtain ⟨t, ht⟩ := List.rdropWhile_prefix (p := p) (l := l)
  rw [List.dropWhile_eq_self_iff] at h ⊢
  intro hl
  have hl' : 0 < l.length := by rw [← ht, List.length_append]; omega
  have hget : (l.rdropWhile p).get ⟨0, hl⟩ = l.get ⟨0, hl'⟩ := by
    simp only [List.get_eq_getElem]; rw [List.getElem_of_eq ht.symm]; exact (List.getElem_append_left hl).symm
  rw [hget]; exact h hl'

/-- `strings.TrimSpace` is idempotent. -/
@[simp] theorem trimSpace_trimSpace (s : String) : trimSpace (trimSpace s) = trimSpace s := by
  simp only [trimSpace, dropWhile_rdropWhile (List.dropWhile_idempotent _ _), List.rdropWhile_idempotent]

theorem Char.toNat_ofNat_of_lt {n : Nat} (h : n < 0xd800) : (Char.ofNat n).toNat = n := by
  simp [Char.ofNat, Nat.isValidChar, h, Char.ofNatAux, Char.toNat, UInt32.toNat]

/-- Go's `unicode.ToLower` on the characters whose lower case is ASCII: the ASCII capitals, `U+0130`
and the Kelvin sign `U+212A`. Other characters are kept. -/
def lowerRune (c : Char) : Char :=
  if c = '\u0130' then 'i' else if c = '\u212a' then 'k' else c.toLower

/-- Go's `strings.ToLower`, rune by rune. -/
def toLower (s : String) : String := ⟨s.data.map lowerRune⟩

/-- `Char.toLower` moves exactly the ASCII capitals, 32 places up. -/
theorem Char.toLower_cases (c : Char) :
    (65 ≤ c.toNat ∧ c.toNat ≤ 90 ∧ c.toLower.toNat = c.toNat + 32) ∨
      (¬ (65 ≤ c.toNat ∧ c.toNat ≤ 90) ∧ c.toLower = c) := by
  by_cases h : 65 ≤ c.toNat ∧ c.toNat ≤ 90
  · left; refine ⟨h.1, h.2, ?_⟩
    simp only [Char.toLower, ge_iff_le, h, and_self, if_true]
    exact Char.toNat_ofNat_of_lt (by omega)
  · right; refine ⟨h, ?_⟩
    simp only [Char.toLower, ge_iff_le, h, if_false]

theorem lowerRune_lowerRune (c : Char) : lowerRune (lowerRune c) = lowerRune c := by
  by_cases h1 : c = '\u0130'
  · subst h1; decide
  by_cases h2 : c = '\u212a'
  · subst h2; decide
  simp only [lowerRune, h1, h2, if_false]
  rcases Char.toLower_cases c with ⟨_, _, hc⟩ | ⟨_, hc⟩
  · have hne : ∀ d : Char, d.toNat < 97 ∨ 122 < d.toNat → c.toLower ≠ d := by
      rintro d hd rfl; omega
    rw [if_neg (hne _ (by decide)), if_neg (hne _ (by decide))]
    rcases Char.toLower_cases c.toLower with ⟨_, _, _⟩ | ⟨_, h⟩
    · omega
    · exact h
  · rw [hc, if_neg h1, if_neg h2, hc]

/-- `strings.ToLower` is idempotent. -/
@[simp] theorem toLower_toLower (s : String) : toLower (toLower s) = toLower s := by
  simp only [toLower, String.ext_iff, List.map_map]
  exact List.map_congr_left fun c _ => lowerRune_lowerRune c

/-- ASCII letters and digits, by code point. -/
theorem isAlphanum_iff (c : Char) :
    c.isAlphanum = true ↔ (65 ≤ c.toNat ∧ c.toNat ≤ 90) ∨ (97 ≤ c.toNat ∧ c.toNat ≤ 122) ∨
      (48 ≤ c.toNat ∧ c.toNat ≤ 57) := by
  simp only [Char.isAlphanum, Char.isAlpha, Char.isLower, Char.isUpper, Char.isDigit, Bool.or_eq_true,
    Bool.and_eq_true, decide_eq_true_eq, UInt32.le_def, BitVec.le_def, Char.toNat, or_assoc]
  rfl

/-- Lower-casing keeps ASCII letters and digits. -/
theorem isAlphanum_lowerRune {c : Char} (h : c.isAlphanum = true) : (lowerRune c).isAlphanum = true := by
  have h1 : c ≠ '\u0130' := by rintro rfl; revert h; decide
  have h2 : c ≠ '\u212a' := by rintro rfl; revert h; decide
  simp only [lowerRune, h1, h2, if_false]
  rw [isAlphanum_iff] at h ⊢
  rcases Char.toLower_cases c with ⟨_, _, h3⟩ | ⟨_, h3⟩
  · omega
  · rw [h3]; exact h

/-! ## Maps and the order of `range` -/

/-- A Go `map[string]V`. -/
abbrev Map (V : Type) := Finmap (fun _ : String => V)

variable {V : Type}

/-- `ord` is an order in which Go's `range` may visit the entries of `m`: each exactly once. -/
def Map.RangeOrder (m : Map V) (ord : List (Σ _ : String, V)) : Prop :=
  (ord : Multiset (Σ _ : String, V)) = m.entries

instance [DecidableEq V] (m : Map V) (ord : List (Σ _ : String, V)) : Decidable (m.RangeOrder ord) :=
  inferInstanceAs (Decidable (_ = _))

namespace Map.RangeOrder

variable {m : Map V} {ord : List (Σ _ : String, V)}

/-- Two orders of one map are permutations of each other. -/
theorem perm {ord' : List (Σ _ : String, V)} (h : m.RangeOrder ord) (h' : m.RangeOrder ord') :
    ord.Perm ord' :=
  Multiset.coe_eq_coe.mp (h.trans h'.symm)

/-- An order visits exactly the entries of the map. -/
theorem mem_iff (h : m.RangeOrder ord) {k : String} {v : V} : ⟨k, v⟩ ∈ ord ↔ m.lookup k = some v := by
  rw [Finmap.lookup_eq_some_iff, ← h, Multiset.mem_coe]

/-- An order visits each key once. -/
theorem nodupKeys (h : m.RangeOrder ord) : ord.NodupKeys := by
  have := m.nodupKeys; rw [← h] at this; exact Multiset.coe_nodupKeys.mp this

/-- Looking a key up in an order finds the map's value. -/
theorem dlookup_eq (h : m.RangeOrder ord) (k : String) : ord.dlookup k = m.lookup k := by
  apply Option.ext
  intro v
  rw [List.mem_dlookup_iff h.nodupKeys, h.mem_iff, Option.mem_def]

/-- An order visits the map's keys. -/
theorem mem_keys (h : m.RangeOrder ord) {x : Σ _ : String, V} (hx : x ∈ ord) : x.1 ∈ m.keys :=
  Finmap.mem_keys.mpr (Finmap.mem_of_lookup_eq_some (h.mem_iff.mp hx))

/-- Two entries of an order at one key are the same entry. -/
theorem eq_of_fst_eq (h : m.RangeOrder ord) {x y : Σ _ : String, V} (hx : x ∈ ord) (hy : y ∈ ord)
    (hk : x.1 = y.1) : x = y := by
  obtain ⟨k, v⟩ := x
  obtain ⟨k', v'⟩ := y
  dsimp only at hk
  subst hk
  obtain rfl := Option.some.inj ((h.mem_iff.mp hx).symm.trans (h.mem_iff.mp hy))
  rfl

end Map.RangeOrder

/-- An outcome that, mapped by a Boolean test, is `some true` is a success whose value passes the test. -/
theorem Except.exists_ok_of_map_toOption {ε α : Type} {x : Except ε α} {p : α → Bool}
    (h : x.toOption.map p = some true) : ∃ a, x = .ok a ∧ p a = true := by
  cases x with
  | error => cases h
  | ok a => exact ⟨a, rfl, Option.some.inj h⟩

end CloudEvents.Go
