import Mathlib.Tactic.Positivity
import CloudEventsAvro.Go.Time

/-!
# `Go.TimeParse` — `time.Parse` with the RFC 3339 layouts

`FromAvro` reads the `time` attribute with `time.Parse(time.RFC3339Nano, sv)` and, when that fails, with
`time.Parse(time.RFC3339, sv)` (`avro.go`, lines 202–213). This module models Go's generic `parse` loop:
`parseChunk` is one arm of its `switch` over layout elements, `parseChunks` the loop, and `parse` the
checks and the `Date` call after it. Go 1.20 added a fast path for these two layouts that falls back to
the loop whenever it rejects its input and, where it accepts, returns what the loop returns; it is not
modelled separately.

The loop reads what `Format` does not write: one-digit hours, a `,` before the fraction, more than nine
fraction digits (it keeps nine), offsets up to `24:60`. It rejects what `Format` can write: years with
other than four digits, and offset hours above 24.

`parse_RFC3339_eq` shows that the second call in `FromAvro` never changes the outcome: the two layouts
parse exactly the same strings to the same times.
-/

namespace CloudEvents.Go

/-- The value of a decimal digit (the `% 10` changes nothing on the digits it is applied to). -/
def digitVal (c : Char) : Nat := (c.toNat - '0'.toNat) % 10

/-- The number a string of decimal digits spells. -/
def digitsValue (ds : List Char) : Nat := ds.foldl (fun n c => 10 * n + digitVal c) 0

/-- Go's `getnum(s, fixed)`: one or two leading digits, exactly two when `fixed`. -/
def getnum (s : List Char) (fixed : Bool) : Option (Nat × List Char) :=
  match s with
  | c :: c' :: rest =>
    if c.isDigit then
      if c'.isDigit then some (10 * digitVal c + digitVal c', rest)
      else if fixed then none else some (digitVal c, c' :: rest)
    else none
  | [c] => if c.isDigit ∧ fixed = false then some (digitVal c, []) else none
  | [] => none

theorem digitVal_lt (c : Char) : digitVal c < 10 := Nat.mod_lt _ (by decide)

theorem foldl_digits_lt (ds : List Char) (n : Nat) :
    ds.foldl (fun n c => 10 * n + digitVal c) n < (n + 1) * 10 ^ ds.length := by
  induction ds generalizing n with
  | nil => simp
  | cons c cs ih =>
    calc cs.foldl (fun n c => 10 * n + digitVal c) (10 * n + digitVal c)
        < (10 * n + digitVal c + 1) * 10 ^ cs.length := ih _
      _ ≤ (10 * n + 10) * 10 ^ cs.length :=
          Nat.mul_le_mul_right _ (by have := digitVal_lt c; omega)
      _ = (n + 1) * 10 ^ (c :: cs).length := by rw [List.length_cons, pow_succ]; ring

/-- A string of `k` digits spells a number below `10 ^ k`. -/
theorem digitsValue_lt (ds : List Char) : digitsValue ds < 10 ^ ds.length := by
  simpa [digitsValue] using foldl_digits_lt ds 0

/-- Go's `parseNanoseconds` on the digits after the separator: the first nine, scaled to nanoseconds. -/
def parseNanoseconds (ds : List Char) : Fin 1000000000 :=
  ⟨digitsValue (ds.take 9) * 10 ^ (9 - (ds.take 9).length), by
    have hk : (ds.take 9).length ≤ 9 := by simp
    calc digitsValue (ds.take 9) * 10 ^ (9 - (ds.take 9).length)
        < 10 ^ (ds.take 9).length * 10 ^ (9 - (ds.take 9).length) :=
          Nat.mul_lt_mul_of_pos_right (digitsValue_lt _) (by positivity)
      _ = 1000000000 := by rw [← pow_add, Nat.add_sub_cancel' hk]; rfl⟩

/-- What `time.Parse` has read so far; the defaults are Go's. The zone is `some 0` after `Z` and
`some offset` after `±hh:mm`. -/
structure ParseState where
  year : Int := 0
  month : Int := -1
  day : Int := -1
  hour : Nat := 0
  min : Nat := 0
  sec : Nat := 0
  nsec : Fin 1000000000 := 0
  zone : Option Int := none

/-- Whether `c` is Go's `commaOrPeriod`. -/
def isFracSep (c : Char) : Bool := c == '.' || c == ','

/-- One arm of the `switch` in Go's `parse`: read layout element `chunk` from the front of `value`.
`next` is the element after it, which the seconds arm looks at. A range error is `none`, as any other
parse error. -/
def parseChunk (st : ParseState) (value : List Char) (next : Option Chunk) :
    Chunk → Option (ParseState × List Char)
  | .lit c =>
    match value with
    | c' :: rest => if c' = c then some (st, rest) else none
    | [] => none
  | .longYear =>
    match value with
    | c :: _ =>
      if value.length < 4 ∨ c.isDigit = false then none
      else if (value.take 4).all Char.isDigit then
        some ({ st with year := digitsValue (value.take 4) }, value.drop 4)
      else none
    | [] => none
  | .zeroMonth => do
    let (m, rest) ← getnum value true
    if m = 0 ∨ 12 < m then none else some ({ st with month := m }, rest)
  | .zeroDay => do
    let (d, rest) ← getnum value true
    some ({ st with day := d }, rest)
  | .hour => do
    let (h, rest) ← getnum value false
    if 24 ≤ h then none else some ({ st with hour := h }, rest)
  | .zeroMinute => do
    let (m, rest) ← getnum value true
    if 60 ≤ m then none else some ({ st with min := m }, rest)
  | .zeroSecond => do
    let (s, rest) ← getnum value true
    if 60 ≤ s then none else
    match rest with
    | sep :: d :: more =>
      if isFracSep sep ∧ d.isDigit ∧ next ≠ some .fracSecond9 then
        -- a fraction the layout does not ask for is read here
        some ({ st with sec := s, nsec := parseNanoseconds ((d :: more).takeWhile Char.isDigit) },
          (d :: more).dropWhile Char.isDigit)
      else some ({ st with sec := s }, rest)
    | _ => some ({ st with sec := s }, rest)
  | .fracSecond9 =>
    match value with
    | sep :: d :: more =>
      if isFracSep sep ∧ d.isDigit then
        some ({ st with nsec := parseNanoseconds ((d :: more).takeWhile Char.isDigit) },
          (d :: more).dropWhile Char.isDigit)
      else some (st, value)
    | _ => some (st, value)
  | .iso8601ColonTZ =>
    match value with
    | 'Z' :: rest => some ({ st with zone := some 0 }, rest)
    | sign :: h1 :: h2 :: ':' :: m1 :: m2 :: rest => do
      let (hr, _) ← getnum [h1, h2] true
      let (mm, _) ← getnum [m1, m2] true
      if 24 < hr ∨ 60 < mm then none
      else if sign = '+' then some ({ st with zone := some ((hr * 60 + mm) * 60) }, rest)
      else if sign = '-' then some ({ st with zone := some (-((hr * 60 + mm) * 60)) }, rest)
      else none
    | _ => none

/-- The loop of Go's `parse`: read the elements in order, each told which element follows it. -/
def parseChunks (st : ParseState) (value : List Char) : List Chunk → Option (ParseState × List Char)
  | [] => some (st, value)
  | c :: cs => do
    let (st', rest) ← parseChunk st value cs.head? c
    parseChunks st' rest cs

/-- `Date(year, month, day, hour, min, sec, nsec, loc)` for in-range fields, in a location whose offset
is `offset`. -/
def Time.ofDate (year : Int) (month day hour min sec : Nat) (nsec : Fin 1000000000) (offset : Int) :
    Time :=
  ⟨daysOfDate year month day * 86400 + (hour * 3600 + min * 60 + sec) - unixToInternal - offset,
    nsec.val, nsec.isLt, offset⟩

/-- `time.Parse(layout, value)`: the loop, the extra-text check, the day-of-month check, and `Date`
in the parsed offset (UTC when the text has none). -/
def parse (layout : List Chunk) (value : String) : Option Time := do
  let (st, rest) ← parseChunks {} value.data layout
  if rest ≠ [] then none else
  let month := if st.month < 0 then 1 else st.month.toNat
  let day := if st.day < 0 then 1 else st.day.toNat
  if day < 1 ∨ daysIn month st.year < day then none else
  some (Time.ofDate st.year month day st.hour st.min st.sec st.nsec (st.zone.getD 0))

/-! ## The two RFC 3339 layouts -/

/-- Only the seconds arm looks at the element after it, and it only asks whether that is the fraction. -/
theorem parseChunks_append_congr {t₁ t₂ : List Chunk} (ht : t₁.head? = t₂.head?)
    (h : ∀ st v, parseChunks st v t₁ = parseChunks st v t₂) :
    ∀ (p : List Chunk) st v, parseChunks st v (p ++ t₁) = parseChunks st v (p ++ t₂)
  | [], st, v => h st v
  | c :: p, st, v => by
    have hhead : (p ++ t₁).head? = (p ++ t₂).head? := by cases p <;> simp [ht]
    rw [List.cons_append, List.cons_append, parseChunks, parseChunks, hhead]
    congr 1; funext x; exact parseChunks_append_congr ht h p _ _

/-- The seconds arm reads a fraction the layout does not ask for exactly as `.999999999` reads it. -/
theorem parseChunks_seconds_fraction (st : ParseState) (v : List Char) {cs : List Chunk}
    (hcs : cs.head? ≠ some .fracSecond9) :
    parseChunks st v (.zeroSecond :: .fracSecond9 :: cs) = parseChunks st v (.zeroSecond :: cs) := by
  simp only [parseChunks, parseChunk]
  rcases getnum v true with _ | ⟨s, rest⟩
  · rfl
  · by_cases hs : 60 ≤ s
    · simp only [hs, ↓reduceIte, Option.bind_eq_bind, Option.some_bind, Option.none_bind]
    · rcases rest with _ | ⟨sep, _ | ⟨d, more⟩⟩ <;>
        simp only [List.head?_cons, ne_eq, not_true_eq_false, and_false, ↓reduceIte, Option.bind_eq_bind,
          Option.some_bind, hs, Prod.mk.eta, hcs, not_false_eq_true, and_true]

/-- **The two layouts of `FromAvro` parse alike**: `Parse(RFC3339, s)` is `Parse(RFC3339Nano, s)` for
every `s`, so the second call never changes the outcome. -/
theorem parse_RFC3339_eq (s : String) : parse RFC3339 s = parse RFC3339Nano s := by
  have h := @parseChunks_append_congr [.zeroSecond, .iso8601ColonTZ]
    [.zeroSecond, .fracSecond9, .iso8601ColonTZ] rfl
    (fun st v => (parseChunks_seconds_fraction st v (by decide)).symm)
    [.longYear, .lit '-', .zeroMonth, .lit '-', .zeroDay, .lit 'T', .hour, .lit ':', .zeroMinute, .lit ':']
  simp only [List.cons_append, List.nil_append] at h
  simp only [parse, RFC3339, RFC3339Nano, h]

end CloudEvents.Go
