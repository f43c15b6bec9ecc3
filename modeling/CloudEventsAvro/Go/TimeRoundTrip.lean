import Mathlib.Data.Nat.Digits
import CloudEventsAvro.Go.TimeParse

/-!
# `Go.TimeRoundTrip` — what `Parse(RFC3339Nano)` makes of `Format(RFC3339Nano)`

The Avro binding stores a time as the text `Format` writes and recovers it with `Parse`. This module
settles exactly when that recovers the time.

- `parseChunks_format`: each element `Format` writes is read back by the matching arm of `Parse`, as long
  as the year has four digits.
- **`parse_format`**: `Parse` returns `Time.printed`, the time with the offset `Format` printed (hours and
  minutes, its seconds dropped), when the year has four digits and the offset is below 25 hours, and
  fails otherwise: a year of five digits stops it at the `-` (`parseChunks_year_long`), a negative year
  at its sign (`parseChunks_year_neg`), and offset hours above 24 at the zone (`parseChunk_zone_eq_none`).
- `Time.printed_equal_iff`: the parsed time is the same instant exactly when the offset is a whole
  number of minutes; `Time.format_printed`: it formats to the same text exactly when the offset is zero
  or at least a minute.

The proofs are bridge lemmas in the style `read (printed ++ rest) = (value, rest)`, one per layout
element, chained along `RFC3339Nano`.
-/

namespace CloudEvents.Go

/-! ## Digits -/

theorem digitChar_spec : ∀ d < 10,
    (Nat.digitChar d).isDigit = true ∧ digitVal (Nat.digitChar d) = d ∧ (Nat.digitChar d = '0' ↔ d = 0) := by
  decide

@[simp] theorem length_decimal (w u : Nat) : (decimal w u).length = w := by
  induction w generalizing u <;> simp_all [decimal]

theorem isDigit_of_mem_decimal {w u : Nat} {c : Char} (h : c ∈ decimal w u) : c.isDigit = true := by
  induction w generalizing u with
  | zero => simp [decimal] at h
  | succ w ih =>
    simp only [decimal, List.mem_append, List.mem_singleton] at h
    rcases h with h | rfl
    · exact ih h
    · exact (digitChar_spec _ (Nat.mod_lt _ (by decide))).1

theorem digitsValue_append_digit (l : List Char) (c : Char) :
    digitsValue (l ++ [c]) = 10 * digitsValue l + digitVal c := by
  simp [digitsValue, List.foldl_append]

/-- `decimal w u` spells the last `w` digits of `u`. -/
theorem digitsValue_decimal (w u : Nat) : digitsValue (decimal w u) = u % 10 ^ w := by
  induction w generalizing u with
  | zero => simp [decimal, digitsValue, Nat.mod_one]
  | succ w ih =>
    rw [decimal, digitsValue_append_digit, ih, (digitChar_spec _ (Nat.mod_lt _ (by decide))).2.1,
      pow_succ', Nat.mod_mul]
    ring

/-- For a natural below `10 ^ w`, Go's `appendInt` writes exactly `w` digits. -/
theorem appendInt_of_lt {n w : Nat} (hw : 0 < w) (h : n < 10 ^ w) : appendInt n w = decimal w n := by
  have hlen : (Nat.toDigits 10 n).length ≤ w := Nat.toDigitsCore_length 10 (by decide) (n + 1) n w h hw
  simp only [appendInt, Int.natAbs_ofNat, Nat.max_eq_left hlen]
  simp

theorem toDigitsCore_length_gt (k : Nat) : ∀ f n, n < f → 10 ^ k ≤ n →
    k < (Nat.toDigitsCore 10 f n []).length := by
  induction k with
  | zero =>
    rintro (_ | f) n hf hk
    · omega
    · simp only [Nat.toDigitsCore]
      split
      · simp
      · rw [Nat.toDigitsCore_lens_eq]; omega
  | succ k ih =>
    rintro (_ | f) n hf hk
    · omega
    · have h10 : 10 ^ k ≤ n / 10 := by rw [Nat.le_div_iff_mul_le (by decide), ← pow_succ]; exact hk
      have hpos : 0 < 10 ^ k := by positivity
      simp only [Nat.toDigitsCore, show n / 10 ≠ 0 by omega, if_false]
      rw [Nat.toDigitsCore_lens_eq]
      have := ih f (n / 10) (by omega) h10
      omega

/-- `appendInt` writes at least `k + 1` digits of a natural of `k + 1` digits or more. -/
theorem length_toDigits_gt {k n : Nat} (h : 10 ^ k ≤ n) : k < (Nat.toDigits 10 n).length :=
  toDigitsCore_length_gt k (n + 1) n (by omega) h

theorem decimal_add (a b n : Nat) : decimal (a + b) n = decimal a (n / 10 ^ b) ++ decimal b n := by
  induction b generalizing n with
  | zero => simp [decimal]
  | succ b ih =>
    rw [← Nat.add_assoc, decimal, ih, decimal, List.append_assoc, Nat.div_div_eq_div_mul, ← pow_succ']

theorem decimal_mod (w n : Nat) : decimal w (n % 10 ^ w) = decimal w n := by
  induction w generalizing n with
  | zero => rfl
  | succ w ih =>
    rw [decimal, decimal, pow_succ', Nat.mod_mul_right_div_self, ih, Nat.mod_mul_right_mod]

theorem decimal_two (n : Nat) : decimal 2 n = [Nat.digitChar (n / 10 % 10), Nat.digitChar (n % 10)] := by
  simp [decimal, Nat.div_div_eq_div_mul]

/-- `getnum` reads back a two-digit field. -/
theorem getnum_decimal_two {n : Nat} (h : n < 100) (rest : List Char) (fixed : Bool) :
    getnum (decimal 2 n ++ rest) fixed = some (n, rest) := by
  obtain ⟨d1, v1, -⟩ := digitChar_spec (n / 10 % 10) (Nat.mod_lt _ (by decide))
  obtain ⟨d2, v2, -⟩ := digitChar_spec (n % 10) (Nat.mod_lt _ (by decide))
  simp only [decimal_two, List.cons_append, List.nil_append, getnum, d1, d2, v1, v2, if_true]
  congr 2; omega

/-! ## One layout element at a time -/

theorem parseChunks_cons {st st' : ParseState} {v r : List Char} {c : Chunk} {cs : List Chunk}
    (h : parseChunk st v cs.head? c = some (st', r)) :
    parseChunks st v (c :: cs) = parseChunks st' r cs := by
  simp [parseChunks, h]

theorem parseChunk_lit (st : ParseState) (c : Char) (rest : List Char) (nx : Option Chunk) :
    parseChunk st (c :: rest) nx (.lit c) = some (st, rest) := by
  simp [parseChunk]

theorem decimal_four (n : Nat) :
    decimal 4 n = [Nat.digitChar (n / 1000 % 10), Nat.digitChar (n / 100 % 10),
      Nat.digitChar (n / 10 % 10), Nat.digitChar (n % 10)] := by
  simp [decimal, Nat.div_div_eq_div_mul]

/-- The year arm reads back a four-digit year. -/
theorem parseChunk_longYear {n : Nat} (h : n < 10000) (st : ParseState) (rest : List Char)
    (nx : Option Chunk) :
    parseChunk st (decimal 4 n ++ rest) nx .longYear = some ({ st with year := n }, rest) := by
  have hv : digitsValue (decimal 4 n) = n := by rw [digitsValue_decimal]; omega
  have hd : ∀ c ∈ decimal 4 n, c.isDigit = true := fun _ => isDigit_of_mem_decimal
  have h4 : (decimal 4 n ++ rest).take 4 = decimal 4 n := List.take_left' (length_decimal 4 n)
  have h4' : (decimal 4 n ++ rest).drop 4 = rest := List.drop_left' (length_decimal 4 n)
  rw [decimal_four] at hv hd h4 h4' ⊢
  simp only [List.cons_append, List.nil_append] at h4 h4' ⊢
  simp only [parseChunk, h4, h4', hv, List.all_eq_true.mpr hd, List.length_cons]
  simp [hd _ (List.mem_cons_self _ _)]

theorem parseChunk_zeroMonth {n : Nat} (h1 : 1 ≤ n) (h2 : n ≤ 12) (st : ParseState)
    (rest : List Char) (nx : Option Chunk) :
    parseChunk st (decimal 2 n ++ rest) nx .zeroMonth = some ({ st with month := n }, rest) := by
  simp only [parseChunk, getnum_decimal_two (by omega : n < 100)]
  simp [show ¬ (n = 0 ∨ 12 < n) by omega]

theorem parseChunk_zeroDay {n : Nat} (h : n < 100) (st : ParseState) (rest : List Char)
    (nx : Option Chunk) :
    parseChunk st (decimal 2 n ++ rest) nx .zeroDay = some ({ st with day := n }, rest) := by
  simp [parseChunk, getnum_decimal_two h]

theorem parseChunk_hour {n : Nat} (h : n < 24) (st : ParseState) (rest : List Char)
    (nx : Option Chunk) :
    parseChunk st (decimal 2 n ++ rest) nx .hour = some ({ st with hour := n }, rest) := by
  simp only [parseChunk, getnum_decimal_two (by omega : n < 100)]
  simp [show ¬ 24 ≤ n by omega]

theorem parseChunk_zeroMinute {n : Nat} (h : n < 60) (st : ParseState) (rest : List Char)
    (nx : Option Chunk) :
    parseChunk st (decimal 2 n ++ rest) nx .zeroMinute = some ({ st with min := n }, rest) := by
  simp only [parseChunk, getnum_decimal_two (by omega : n < 100)]
  simp [show ¬ 60 ≤ n by omega]

/-- Before `.999999999` the seconds arm leaves the fraction to the next arm. -/
theorem parseChunk_zeroSecond {n : Nat} (h : n < 60) (st : ParseState) (rest : List Char) :
    parseChunk st (decimal 2 n ++ rest) (some .fracSecond9) .zeroSecond =
      some ({ st with sec := n }, rest) := by
  simp only [parseChunk, getnum_decimal_two (by omega : n < 100)]
  rcases rest with _ | ⟨a, _ | ⟨b, more⟩⟩ <;>
    simp only [ne_eq, not_true_eq_false, and_false, ↓reduceIte, Option.bind_eq_bind, Option.some_bind,
      show ¬60 ≤ n by omega]

/-! ### The fraction -/

theorem rdropWhile_append_rtakeWhile (p : Char → Bool) (l : List Char) :
    l.rdropWhile p ++ l.rtakeWhile p = l := by
  rw [List.rdropWhile, List.rtakeWhile, ← List.reverse_append, List.takeWhile_append_dropWhile,
    List.reverse_reverse]

theorem digitsValue_append_zeros (l z : List Char) (hz : ∀ c ∈ z, c = '0') :
    digitsValue (l ++ z) = digitsValue l * 10 ^ z.length := by
  induction z generalizing l with
  | nil => simp
  | cons c z ih =>
    rw [show l ++ c :: z = (l ++ [c]) ++ z by simp, ih _ fun d hd => hz d (List.mem_cons_of_mem _ hd),
      digitsValue_append_digit, hz c (List.mem_cons_self _ _)]
    simp [digitVal, pow_succ]; ring

/-- **The fraction round trip.** The nine digits of `ns`, less their trailing zeros, scale back to `ns`. -/
theorem parseNanoseconds_trim {ns : Nat} (h : ns < 1000000000) :
    parseNanoseconds ((decimal 9 ns).rdropWhile (· == '0')) = ⟨ns, h⟩ := by
  have hsplit := rdropWhile_append_rtakeWhile (· == '0') (decimal 9 ns)
  generalize (decimal 9 ns).rdropWhile (· == '0') = t at hsplit
  have hz : ∀ c ∈ (decimal 9 ns).rtakeWhile (· == '0'), c = '0' := fun c hc => by
    simpa using List.mem_rtakeWhile_imp hc
  have hlen := congrArg List.length hsplit
  have hval := congrArg digitsValue hsplit
  rw [digitsValue_append_zeros _ _ hz, digitsValue_decimal] at hval
  simp only [List.length_append, length_decimal] at hlen
  ext
  simp only [parseNanoseconds, List.take_of_length_le (by omega : t.length ≤ 9)]
  rw [show 9 - t.length = ((decimal 9 ns).rtakeWhile (· == '0')).length by omega, hval]
  exact Nat.mod_eq_of_lt h

theorem takeWhile_eq_nil_of_head {p : Char → Bool} {l : List Char} (h : ∀ c ∈ l.head?, p c = false) :
    l.takeWhile p = [] := by
  cases l <;> simp_all [List.takeWhile]

theorem dropWhile_eq_self_of_head {p : Char → Bool} {l : List Char} (h : ∀ c ∈ l.head?, p c = false) :
    l.dropWhile p = l := by
  cases l <;> simp_all [List.dropWhile]

/-- The `.999999999` arm reads back what `appendNano` writes, when no digit or separator follows. -/
theorem parseChunk_fracSecond9 {ns : Nat} (h : ns < 1000000000) {st : ParseState} (hst : st.nsec = 0)
    {rest : List Char} (hrest : ∀ c ∈ rest.head?, c.isDigit = false ∧ isFracSep c = false)
    (nx : Option Chunk) :
    parseChunk st (appendNano ns ++ rest) nx .fracSecond9 = some ({ st with nsec := ⟨ns, h⟩ }, rest) := by
  by_cases h0 : ns = 0
  · subst h0
    have hst' : { st with nsec := ⟨0, h⟩ } = st := by cases st; simp_all
    rw [hst']
    rcases rest with _ | ⟨a, _ | ⟨b, more⟩⟩ <;> simp_all [parseChunk, appendNano]
  · have hd : ∀ c ∈ (decimal 9 ns).rdropWhile (· == '0'), c.isDigit = true :=
      fun c hc => isDigit_of_mem_decimal ((List.rdropWhile_prefix _ _).subset hc)
    have hne : (decimal 9 ns).rdropWhile (· == '0') ≠ [] := by
      intro hnil
      have := congrArg Fin.val (parseNanoseconds_trim h)
      rw [hnil] at this
      exact h0 this.symm
    obtain ⟨d, ds, hds⟩ := List.exists_cons_of_ne_nil hne
    have hrest' : ∀ c ∈ rest.head?, c.isDigit = false := fun c hc => (hrest c hc).1
    have htake : (d :: (ds ++ rest)).takeWhile Char.isDigit = d :: ds := by
      rw [← List.cons_append, ← hds, List.takeWhile_append_of_pos hd,
        takeWhile_eq_nil_of_head hrest', List.append_nil]
    have hdrop : (d :: (ds ++ rest)).dropWhile Char.isDigit = rest := by
      rw [← List.cons_append, ← hds, List.dropWhile_append_of_pos hd,
        dropWhile_eq_self_of_head hrest']
    have hdig : d.isDigit = true := hd d (by rw [hds]; exact List.mem_cons_self _ _)
    have hns : parseNanoseconds (d :: ds) = ⟨ns, h⟩ := by rw [← hds, parseNanoseconds_trim]
    have happ : appendNano ns = '.' :: d :: ds := by simp only [appendNano, h0, if_false, hds]
    rw [happ]
    simp [parseChunk, isFracSep, hdig, htake, hdrop, hns]

/-! ### The zone -/

theorem getnum_two {n : Nat} (h : n < 100) (fixed : Bool) :
    getnum [Nat.digitChar (n / 10 % 10), Nat.digitChar (n % 10)] fixed = some (n, []) := by
  simpa [decimal_two] using getnum_decimal_two h [] fixed

/-- **The zone round trip.** The `Z07:00` arm reads back what `appendZone` writes when its hours pass
Go's check (at most 24): the offset `Format` printed, a whole number of minutes. -/
theorem parseChunk_zone {off : Int} (h : off.natAbs < 90000) (st : ParseState) (rest : List Char)
    (nx : Option Chunk) :
    parseChunk st (appendZone off ++ rest) nx .iso8601ColonTZ =
      some ({ st with zone := some (60 * off.tdiv 60) }, rest) := by
  by_cases h0 : off = 0
  · subst h0; simp [appendZone, parseChunk]
  · have hz : (off.tdiv 60).natAbs = off.natAbs / 60 := Int.natAbs_tdiv off 60
    simp only [appendZone, h0, if_false]
    generalize off.tdiv 60 = z at hz ⊢
    have hh : z.natAbs / 60 < 10 ^ 2 := by omega
    have hm : z.natAbs % 60 < 10 ^ 2 := by omega
    simp only [appendInt_of_lt (by decide) hh, appendInt_of_lt (by decide) hm, decimal_two,
      List.cons_append, List.nil_append]
    have hd := (digitChar_spec _ (Nat.mod_lt (z.natAbs / 60 / 10) (by decide : 10 > 0))).1
    have h24 : ¬ 24 < z.natAbs / 60 := by omega
    have habs : (z.natAbs : Int) = if z < 0 then -z else z := by split <;> omega
    by_cases hneg : z < 0 <;>
      simp [parseChunk, hneg, getnum_two (by omega : z.natAbs / 60 < 100),
        getnum_two (by omega : z.natAbs % 60 < 100), h24, habs] <;> omega

/-! ### What `Parse` rejects -/

/-- Past `w` digits, `appendInt` writes `w` digits and then more digits. -/
theorem appendInt_long {n w : Nat} (h : 10 ^ w ≤ n) :
    ∃ q c more, c.isDigit = true ∧ appendInt n w = decimal w q ++ c :: more := by
  have hlen := length_toDigits_gt h
  obtain ⟨b, hb⟩ : ∃ b, max w (Nat.toDigits 10 n).length = w + (b + 1) :=
    ⟨max w (Nat.toDigits 10 n).length - w - 1, by omega⟩
  have hne : decimal (b + 1) n ≠ [] := by
    rw [← List.length_pos, length_decimal]; omega
  obtain ⟨c, more, hcm⟩ := List.exists_cons_of_ne_nil hne
  refine ⟨n / 10 ^ (b + 1), c, more, isDigit_of_mem_decimal (hcm ▸ List.mem_cons_self c more), ?_⟩
  simp only [appendInt, Int.natAbs_ofNat, hb, decimal_add, hcm]
  simp

/-- A year of five digits or more stops the parse at the `-` after the year's first four digits. -/
theorem parseChunks_year_long {n : Nat} (h : 10000 ≤ n) (st : ParseState) (rest : List Char)
    (cs : List Chunk) : parseChunks st (appendInt n 4 ++ rest) (.longYear :: .lit '-' :: cs) = none := by
  obtain ⟨q, c, more, hc, happ⟩ := appendInt_long (w := 4) h
  have hc' : c ≠ '-' := by rintro rfl; exact absurd hc (by decide)
  rw [happ, ← decimal_mod 4 q, List.append_assoc,
    parseChunks_cons (parseChunk_longYear (n := q % 10 ^ 4) (Nat.mod_lt q (by decide)) _ _ _)]
  simp [parseChunks, parseChunk, hc']

/-- A negative year stops the parse at its sign. -/
theorem parseChunks_year_neg {y : Int} (h : y < 0) (st : ParseState) (rest : List Char) (cs : List Chunk) :
    parseChunks st (appendInt y 4 ++ rest) (.longYear :: cs) = none := by
  simp [appendInt, h, parseChunks, parseChunk]

/-- An offset of 25 hours or more stops the parse: its hours fail Go's check, or take more than two
digits. -/
theorem parseChunk_zone_eq_none {off : Int} (h : 90000 ≤ off.natAbs) (st : ParseState)
    (rest : List Char) (nx : Option Chunk) :
    parseChunk st (appendZone off ++ rest) nx .iso8601ColonTZ = none := by
  have hz : (off.tdiv 60).natAbs = off.natAbs / 60 := Int.natAbs_tdiv off 60
  simp only [appendZone, show off ≠ 0 by omega, if_false]
  generalize off.tdiv 60 = z at hz ⊢
  generalize hs : (if z < 0 then '-' else '+') = s
  have hsZ : s ≠ 'Z' := by rw [← hs]; split <;> decide
  have hm : z.natAbs % 60 < 10 ^ 2 := by omega
  rw [appendInt_of_lt (by decide) hm, decimal_two]
  by_cases hH : z.natAbs / 60 < 10 ^ 2
  · rw [appendInt_of_lt (by decide) hH, decimal_two]
    simp [parseChunk, hsZ, getnum_two hH, getnum_two hm, show 24 < z.natAbs / 60 by omega]
  · obtain ⟨q, c, more, hc, happ⟩ := appendInt_long (w := 2) (not_lt.mp hH)
    have hc' : c ≠ ':' := by rintro rfl; exact absurd hc (by decide)
    rw [happ, decimal_two]
    simp [parseChunk, hsZ, hc']

/-! ## The whole text -/

/-- The fields `Format(RFC3339Nano)` prints before the zone, as `Parse` stores them. -/
def Time.fieldsState (t : Time) : ParseState :=
  { year := t.date.1, month := t.date.2.1, day := t.date.2.2, hour := t.clock.1, min := t.clock.2.1,
    sec := t.clock.2.2, nsec := ⟨t.nsec, t.nsec_lt⟩ }

/-- The time `Format(RFC3339Nano)` writes down: the same wall clock and nanoseconds, in a zone whose
offset is `t`'s with its seconds dropped. -/
def Time.printed (t : Time) : Time :=
  ⟨t.unix + t.offset - 60 * t.offset.tdiv 60, t.nsec, t.nsec_lt, 60 * t.offset.tdiv 60⟩

/-- The date of a time is valid, and `Date` counts it back to the day of its wall clock. -/
theorem Time.date_spec (t : Time) :
    1 ≤ t.date.2.1 ∧ t.date.2.1 ≤ 12 ∧ 1 ≤ t.date.2.2 ∧ t.date.2.2 ≤ daysIn t.date.2.1 t.date.1 ∧
      daysOfDate t.date.1 t.date.2.1 t.date.2.2 = t.localSeconds / 86400 :=
  absDate_spec _

theorem Time.clock_lt (t : Time) : t.clock.1 < 24 ∧ t.clock.2.1 < 60 ∧ t.clock.2.2 < 60 := by
  have := Int.emod_lt_of_pos t.localSeconds (by decide : (0 : Int) < 86400)
  simp only [Time.clock]; omega

/-- The clock of a time adds up to the seconds since midnight of its wall clock. -/
theorem Time.clock_sum (t : Time) :
    ((t.clock.1 * 3600 + t.clock.2.1 * 60 + t.clock.2.2 : Nat) : Int) = t.localSeconds % 86400 := by
  have h0 := Int.emod_nonneg t.localSeconds (by decide : (86400 : Int) ≠ 0)
  simp only [Time.clock]
  omega

theorem appendZone_head (off : Int) :
    ∀ c ∈ (appendZone off).head?, c.isDigit = false ∧ isFracSep c = false := by
  unfold appendZone
  split
  · simp [isFracSep]
  · simp only [List.head?_cons, Option.mem_def, Option.some.injEq]
    rintro c rfl; split <;> decide

/-- **`Parse` reads `Format` back, element by element, up to the zone**, when the year has four
digits. -/
theorem parseChunks_format (t : Time) (hy : 0 ≤ t.year ∧ t.year < 10000) :
    parseChunks {} (t.format RFC3339Nano).data RFC3339Nano =
      parseChunks t.fieldsState (appendZone t.offset) [.iso8601ColonTZ] := by
  obtain ⟨hm1, hm2, hd1, hd2, -⟩ := t.date_spec
  obtain ⟨hh, hmin, hs⟩ := t.clock_lt
  have hday := Nat.le_trans hd2 (daysIn_le _ _)
  have hy' : 0 ≤ t.date.1 ∧ t.date.1 < 10000 := hy
  have hyear : appendInt t.date.1 4 = decimal 4 t.date.1.toNat := by
    rw [← appendInt_of_lt (by decide) (by omega), Int.toNat_of_nonneg hy'.1]
  simp only [Time.format, RFC3339Nano, List.flatMap_cons, List.flatMap_nil, Time.appendChunk,
    List.append_nil, List.append_assoc, List.singleton_append, hyear,
    appendInt_of_lt (n := t.date.2.1) (w := 2) (by decide) (by omega),
    appendInt_of_lt (n := t.date.2.2) (w := 2) (by decide) (by omega),
    appendInt_of_lt (n := t.clock.1) (w := 2) (by decide) (by omega),
    appendInt_of_lt (n := t.clock.2.1) (w := 2) (by decide) (by omega),
    appendInt_of_lt (n := t.clock.2.2) (w := 2) (by decide) (by omega)]
  simp only [parseChunks_cons (parseChunk_longYear (n := t.date.1.toNat) (by omega) _ _ _),
    parseChunks_cons (parseChunk_lit _ _ _ _), parseChunks_cons (parseChunk_zeroMonth hm1 hm2 _ _ _),
    parseChunks_cons (parseChunk_zeroDay (n := t.date.2.2) (by omega) _ _ _),
    parseChunks_cons (parseChunk_hour hh _ _ _), parseChunks_cons (parseChunk_zeroMinute hmin _ _ _),
    @parseChunks_cons _ _ _ _ _ [.fracSecond9, .iso8601ColonTZ] (parseChunk_zeroSecond hs _ _),
    parseChunks_cons (@parseChunk_fracSecond9 _ t.nsec_lt ⟨_, _, _, _, _, _, 0, _⟩ rfl _
      (appendZone_head _) _)]
  simp [Time.fieldsState, Int.toNat_of_nonneg hy'.1]

/-- **What `Parse(RFC3339Nano)` makes of `Format(RFC3339Nano)`.** When the year has four digits and
the offset is below 25 hours, the time with the printed offset (`Time.printed`); otherwise nothing:
`Format` writes a year of five digits or more, a negative year, and offset hours above 24, and `Parse`
reads none of them. -/
theorem parse_format (t : Time) :
    parse RFC3339Nano (t.format RFC3339Nano) =
      if 0 ≤ t.year ∧ t.year < 10000 ∧ t.offset.natAbs < 90000 then some t.printed else none := by
  by_cases hy : 0 ≤ t.year ∧ t.year < 10000
  · rw [parse, parseChunks_format t hy, ← List.append_nil (appendZone t.offset)]
    by_cases hz : t.offset.natAbs < 90000
    · obtain ⟨hm1, -, hd1, hd2, hdays⟩ := t.date_spec
      have hsum := t.clock_sum
      have hdiv := Int.emod_add_ediv t.localSeconds 86400
      have hm0 : ¬ ((t.date.2.1 : Int) < 0) := by omega
      have hd0 : ¬ ((t.date.2.2 : Int) < 0) := by omega
      rw [parseChunks_cons (parseChunk_zone hz _ _ _), if_pos ⟨hy.1, hy.2, hz⟩]
      simp only [parseChunks, Time.fieldsState, List.nil_eq, ne_eq, not_true_eq_false, if_false,
        Option.pure_def, Option.bind_eq_bind, Option.some_bind, hm0, hd0, Int.toNat_ofNat,
        Option.getD_some]
      rw [if_neg (by omega), Time.ofDate, Time.printed, Option.some.injEq, Time.mk.injEq]
      refine ⟨?_, rfl, rfl⟩
      push_cast at hsum
      simp only [Time.localSeconds] at *
      omega
    · rw [parseChunks, parseChunk_zone_eq_none (not_lt.mp hz), if_neg (fun h => hz h.2.2)]
      rfl
  · have hnone : parseChunks {} (t.format RFC3339Nano).data RFC3339Nano = none := by
      simp only [Time.format, RFC3339Nano, List.flatMap_cons, Time.appendChunk, List.append_assoc]
      by_cases hneg : t.year < 0
      · exact parseChunks_year_neg hneg _ _ _
      · have hlong : t.date.1 = (t.date.1.toNat : Int) := (Int.toNat_of_nonneg (not_lt.mp hneg)).symm
        rw [hlong]
        exact parseChunks_year_long (by have : ¬ t.date.1 < 10000 := fun h => hy ⟨not_lt.mp hneg, h⟩; omega) _ _ _
    rw [if_neg (fun h => hy ⟨h.1, h.2.1⟩)]
    simp [parse, hnone]

/-! ## What the round trip keeps -/

/-- `t.printed` has `t`'s wall clock. -/
@[simp] theorem Time.printed_localSeconds (t : Time) : t.printed.localSeconds = t.localSeconds := by
  simp only [Time.printed, Time.localSeconds]; omega

/-- **The printed time is the same instant exactly when the offset is a whole number of minutes.** -/
theorem Time.printed_equal_iff (t : Time) : t.printed.Equal t ↔ 60 ∣ t.offset := by
  simp only [Time.Equal, Time.printed, and_true]
  constructor
  · intro h; exact ⟨t.offset.tdiv 60, by omega⟩
  · intro h; rw [Int.mul_tdiv_cancel' h]; omega

/-- Dropping the seconds of an offset keeps its `Z07:00` text exactly when the offset is zero or at
least a minute: an offset of a few seconds prints as `+00:00` or `-00:00`, a zero offset as `Z`. -/
theorem appendZone_trunc (off : Int) :
    appendZone (60 * off.tdiv 60) = appendZone off ↔ off = 0 ∨ 60 ≤ off.natAbs := by
  have hz : (off.tdiv 60).natAbs = off.natAbs / 60 := Int.natAbs_tdiv off 60
  by_cases h0 : off = 0
  · subst h0; simp
  by_cases h60 : 60 ≤ off.natAbs
  · have hne : 60 * off.tdiv 60 ≠ 0 := by omega
    simp only [appendZone, hne, h0, if_false, Int.mul_tdiv_cancel_left _ (by decide : (60 : Int) ≠ 0)]
    simp [h60]
  · have hq : off.tdiv 60 = 0 := by omega
    simp only [hq, mul_zero, h0, h60, or_self, iff_false]
    simp [appendZone, h0]

@[simp] theorem Time.printed_nsec (t : Time) : t.printed.nsec = t.nsec := rfl

theorem Time.appendChunk_printed (t : Time) (c : Chunk) :
    t.printed.appendChunk c =
      if c = .iso8601ColonTZ then appendZone (60 * t.offset.tdiv 60) else t.appendChunk c := by
  cases c <;> simp [Time.appendChunk, Time.date, Time.clock, Time.printed_localSeconds]
  rfl

/-- **`Format` after `Parse` gives the text back** exactly when the offset is zero or at least a
minute. -/
theorem Time.format_printed (t : Time) :
    t.printed.format RFC3339Nano = t.format RFC3339Nano ↔ t.offset = 0 ∨ 60 ≤ t.offset.natAbs := by
  rw [← appendZone_trunc]
  simp [String.ext_iff, Time.format, RFC3339Nano, Time.appendChunk_printed]
  rfl

end CloudEvents.Go
