import CloudEventsAvro.Go.TimeRoundTrip

/-!
# `Go.FormatParse` — `Format` after `Parse`

`Go.TimeRoundTrip` reads `Format`'s text back with `Parse`. This module goes the other way, from any
text `Parse` accepts: which times can `Parse` return at all?

Every arm of `parse` leaves its state in range (`ParseState.InRange`): a four-digit year, a month from
1 to 12 once one is read, a clock of a day, and a zone of whole minutes no further than `24:60` from
UTC. `parseChunk_inRange` is the step, `parseChunks_inRange` the loop over any layout. The day passes
`parse`'s own check, so the calendar round trip `absDate_daysOfDate` gives the parsed date back:

- **`parse_time_inRange`**: a parsed time has a year from 0 to 9999, the years `Format` writes with four
  digits, and an offset of whole minutes of at most 25 hours, which `Format` writes as it is
  (`Time.printed_eq_self`). A zone of `+24:60` or `-24:60` is the one `Parse` accepts whose offset
  `Format` writes as `+25:00` or `-25:00`, which `Parse` rejects.
-/

namespace CloudEvents.Go

/-- What every arm of `parse` keeps in range. -/
structure ParseState.InRange (st : ParseState) : Prop where
  year : 0 ≤ st.year ∧ st.year < 10000
  month : st.month < 0 ∨ (1 ≤ st.month ∧ st.month ≤ 12)
  hour : st.hour < 24
  min : st.min < 60
  sec : st.sec < 60
  zone : ∀ z ∈ st.zone, 60 ∣ z ∧ z.natAbs ≤ 90000

theorem ParseState.inRange_default : ({} : ParseState).InRange :=
  ⟨by decide, by decide, by decide, by decide, by decide, nofun⟩

/-- **Step lemma.** Each arm of `parse` keeps its state in range. -/
theorem parseChunk_inRange {st st' : ParseState} {v r : List Char} {nx : Option Chunk} {c : Chunk}
    (h : parseChunk st v nx c = some (st', r)) (hst : st.InRange) : st'.InRange := by
  cases c with
  | lit c =>
    dsimp only [parseChunk] at h
    split at h
    · split_ifs at h; cases h; exact hst
    · cases h
  | longYear =>
    dsimp only [parseChunk] at h
    split at h
    next c tail =>
      split_ifs at h; cases h
      have := digitsValue_lt ((c :: tail).take 4)
      have := Nat.pow_le_pow_right (by decide : 0 < 10) (List.length_take_le 4 (c :: tail))
      exact { hst with year := ⟨by dsimp only; omega, by dsimp only; omega⟩ }
    · cases h
  | zeroMonth =>
    simp only [parseChunk, Option.bind_eq_bind, Option.bind_eq_some] at h
    obtain ⟨⟨m, rest⟩, -, h⟩ := h
    split_ifs at h with hm; cases h
    exact { hst with month := .inr ⟨by dsimp only; omega, by dsimp only; omega⟩ }
  | zeroDay =>
    simp only [parseChunk, Option.bind_eq_bind, Option.bind_eq_some] at h
    obtain ⟨⟨d, rest⟩, -, h⟩ := h
    cases h; exact { hst with }
  | hour =>
    simp only [parseChunk, Option.bind_eq_bind, Option.bind_eq_some] at h
    obtain ⟨⟨n, rest⟩, -, h⟩ := h
    split_ifs at h with hn; cases h
    exact { hst with hour := by dsimp only; omega }
  | zeroMinute =>
    simp only [parseChunk, Option.bind_eq_bind, Option.bind_eq_some] at h
    obtain ⟨⟨n, rest⟩, -, h⟩ := h
    split_ifs at h with hn; cases h
    exact { hst with min := by dsimp only; omega }
  | zeroSecond =>
    simp only [parseChunk, Option.bind_eq_bind, Option.bind_eq_some] at h
    obtain ⟨⟨n, rest⟩, -, h⟩ := h
    split_ifs at h with hn
    split at h
    · split_ifs at h <;> cases h <;> exact { hst with sec := by dsimp only; omega }
    · cases h; exact { hst with sec := by dsimp only; omega }
  | fracSecond9 =>
    dsimp only [parseChunk] at h
    split at h
    · split_ifs at h <;> cases h <;> exact { hst with }
    · cases h; exact hst
  | iso8601ColonTZ =>
    dsimp only [parseChunk] at h
    split at h
    · cases h; exact { hst with zone := fun _ hz => by cases hz; decide }
    · simp only [Option.bind_eq_bind, Option.bind_eq_some] at h
      obtain ⟨⟨hr, _⟩, -, ⟨mm, _⟩, -, h⟩ := h
      split_ifs at h with hb hp hm <;> cases h
      · exact { hst with zone := fun z hz => by cases hz; omega }
      · exact { hst with zone := fun z hz => by cases hz; omega }
    · cases h

/-- **Run lemma.** The loop over any layout keeps the state in range. -/
theorem parseChunks_inRange : ∀ {cs : List Chunk} {st st' : ParseState} {v r : List Char},
    parseChunks st v cs = some (st', r) → st.InRange → st'.InRange
  | [], _, _, _, _, h, hst => by
    simp only [parseChunks, Option.some.injEq, Prod.mk.injEq] at h
    exact h.1 ▸ hst
  | _ :: _, _, _, _, _, h, hst => by
    simp only [parseChunks, Option.bind_eq_bind, Option.bind_eq_some] at h
    obtain ⟨⟨st₁, r₁⟩, h₁, h₂⟩ := h
    exact parseChunks_inRange h₂ (parseChunk_inRange h₁ hst)

/-- What `parse` returns: `Date` of a valid date and a clock of the day, in a state in range. -/
theorem parse_eq_some {layout : List Chunk} {s : String} {t : Time} (h : parse layout s = some t) :
    ∃ st : ParseState, ∃ month day : Nat, st.InRange ∧ 1 ≤ month ∧ month ≤ 12 ∧ 1 ≤ day ∧
      day ≤ daysIn month st.year ∧
      t = Time.ofDate st.year month day st.hour st.min st.sec st.nsec (st.zone.getD 0) := by
  simp only [parse, Option.bind_eq_bind, Option.bind_eq_some] at h
  obtain ⟨⟨st, rest⟩, hp, h⟩ := h
  have hst := parseChunks_inRange hp ParseState.inRange_default
  dsimp only at h
  generalize hmonth : (if st.month < 0 then 1 else st.month.toNat) = month at h
  generalize (if st.day < 0 then 1 else st.day.toNat) = day at h
  have hm : 1 ≤ month ∧ month ≤ 12 := by
    rw [← hmonth]
    split_ifs with hlt
    · decide
    · have := hst.month.resolve_left hlt; omega
  split_ifs at h with hrest hday
  cases h
  exact ⟨st, month, day, hst, hm.1, hm.2, by omega, by omega, rfl⟩

/-- The date of `Date` on a valid date and a clock of the day is that date. -/
theorem Time.ofDate_date {y : Int} {m d h mi s : Nat} {ns : Fin 1000000000} {off : Int}
    (hm : 1 ≤ m ∧ m ≤ 12) (hd : 1 ≤ d ∧ d ≤ daysIn m y) (hh : h < 24) (hmi : mi < 60) (hs : s < 60) :
    (Time.ofDate y m d h mi s ns off).date = (y, m, d) := by
  have hl : (Time.ofDate y m d h mi s ns off).localSeconds / 86400 = daysOfDate y m d := by
    simp only [Time.localSeconds, Time.ofDate]; omega
  rw [Time.date, hl, absDate_daysOfDate hm hd]

/-- An offset of whole minutes is printed as it is. -/
theorem Time.printed_eq_self {t : Time} (h : 60 ∣ t.offset) : t.printed = t := by
  obtain ⟨unix, nsec, hn, off⟩ := t
  simp only [Time.printed, Int.mul_tdiv_cancel' h, add_sub_cancel_right]

/-- A parsed time has a four-digit year and an offset of whole minutes of at most 25 hours. -/
theorem parse_time_inRange {layout : List Chunk} {s : String} {t : Time} (h : parse layout s = some t) :
    0 ≤ t.year ∧ t.year < 10000 ∧ 60 ∣ t.offset ∧ t.offset.natAbs ≤ 90000 := by
  obtain ⟨st, month, day, hst, hm1, hm2, hd1, hd2, rfl⟩ := parse_eq_some h
  have hz : 60 ∣ st.zone.getD 0 ∧ (st.zone.getD 0).natAbs ≤ 90000 := by
    cases hzone : st.zone with
    | none => exact ⟨dvd_zero _, by decide⟩
    | some z => exact hst.zone z hzone
  rw [Time.year, Time.ofDate_date ⟨hm1, hm2⟩ ⟨hd1, hd2⟩ hst.hour hst.min hst.sec]
  exact ⟨hst.year.1, hst.year.2, hz⟩

end CloudEvents.Go
