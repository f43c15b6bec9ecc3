import CloudEventsAvro.Avro.RoundTrip
import CloudEventsAvro.Avro.Decoding
import CloudEventsAvro.Go.FormatParse

/-!
# `Avro.Image` — the events `FromAvro` returns

`Avro.RoundTrip` starts from an SDK event, goes to the wire and comes back. This module starts from
the wire: from any record, in any order of its attributes, it asks what `FromAvro` can return, and what
a second trip through `ToAvro` and `FromAvro` does to it.

`Event.Decoded` is what every such event has. It is an event the SDK's setters build (`Reachable`), its
extensions are stored under names outside the eight keys that its version's `SetExtension` accepts,
each extension value is one the wire leaves as it is, its time is one `Parse` can return, and it has
no 0.3 `datacontentencoding`. `readRequired` starts in it (`Event.decoded_readRequired`), every entry of
the loop keeps it (`Event.Decoded.applyEntry`), and so does the payload (`Event.Decoded.of_fromAvro`).

- `parseTime_eq_parse`: the time branch's second `Parse`, with `RFC3339`, never changes the outcome;
- **`parseTime_format_parseTime`**: a time `FromAvro` parsed is written by `ToAvro` as a text that
  parses back to the same time, exactly when its offset is below 25 hours;
- **`fromAvro_reachable`**: every event `FromAvro` returns meets the hypotheses of the round trip of
  `Avro.RoundTrip`;
- **`fromAvro_toAvro_fromAvro`**: encoding a decoded event and decoding it again gives back its
  context and its payload, in any order of either loop, unless its offset is `±24:60`, where the second
  decoding fails on the time.
-/

namespace CloudEvents

open Go Avro

/-! ## The time branch -/

/-- **The fallback is dead**: `FromAvro`'s time branch accepts exactly the texts `Parse(RFC3339Nano)`
accepts, with the same time; its second call, with `RFC3339`, never finds one the first missed. -/
theorem parseTime_eq_parse (s : String) : parseTime s = parse RFC3339Nano s := by
  unfold parseTime
  rw [parse_RFC3339_eq]
  cases parse RFC3339Nano s <;> rfl

/-- A time `FromAvro` parsed has a four-digit year and an offset of whole minutes of at most 25 hours. -/
theorem parseTime_inRange {s : String} {t : Time} (h : parseTime s = some t) :
    0 ≤ t.year ∧ t.year < 10000 ∧ 60 ∣ t.offset ∧ t.offset.natAbs ≤ 90000 := by
  unfold parseTime at h
  split at h
  · next ht => cases h; exact parse_time_inRange ht
  · exact parse_time_inRange h

/-- **`ToAvro`'s text of a time `FromAvro` parsed.** It parses back to the same time exactly when the
offset is below 25 hours: a zone of `+24:60` or `-24:60` is read, and written as `+25:00` or `-25:00`,
which does not parse. -/
theorem parseTime_format_parseTime {s : String} {t : Time} (h : parseTime s = some t) :
    parseTime (t.format RFC3339Nano) = some t ↔ t.offset.natAbs < 90000 := by
  obtain ⟨hy₁, hy₂, hdvd, -⟩ := parseTime_inRange h
  rw [parseTime_format, Time.printed_eq_self hdvd]
  by_cases hz : t.offset.natAbs < 90000 <;> simp [hy₁, hy₂, hz]

/-- A time read at the zone `+24:60` parses, and its text does not. -/
theorem parseTime_format_parseTime_zone2460 :
    parseTime "2000-01-01T00:00:00+24:60" =
      some (Time.ofDate 2000 1 1 0 0 0 0 90000) ∧
    (parseTime ((Time.ofDate 2000 1 1 0 0 0 0 90000).format RFC3339Nano) =
        some (Time.ofDate 2000 1 1 0 0 0 0 90000) ↔
      (Time.ofDate 2000 1 1 0 0 0 0 90000).offset.natAbs < 90000) :=
  have h : parseTime "2000-01-01T00:00:00+24:60" = some (Time.ofDate 2000 1 1 0 0 0 0 90000) := by decide
  ⟨h, parseTime_format_parseTime h⟩

example : (parseTime "2000-01-01T00:00:00+24:60").map (fun t => t.format RFC3339Nano) =
    some "2000-01-01T00:00:00+25:00" := by
  decide

/-! ## One entry -/

variable {uriOk : String → Bool}

/-- **What an entry does**: nothing, or one call of a setter other than `SetSpecVersion`. -/
theorem applyEntry_cases (e : Event) (y : Σ _ : String, Value) :
    applyEntry uriOk e y = e ∨ ∃ s : Setter, s.Valid e ∧ applyEntry uriOk e y = e.set uriOk s := by
  obtain ⟨name, value⟩ := y
  rcases key_cases name with h | rfl | rfl | rfl | rfl | h
  · rcases mem_requiredKeys h with rfl | rfl | rfl | rfl <;> exact .inl rfl
  · cases value with
    | string s => exact .inr ⟨.dataContentType s, trivial, rfl⟩
    | _ => exact .inl rfl
  · cases value with
    | string s => exact .inr ⟨.dataSchema s, trivial, rfl⟩
    | _ => exact .inl rfl
  · cases value with
    | string s => exact .inr ⟨.subject s, trivial, rfl⟩
    | _ => exact .inl rfl
  · cases value with
    | string s =>
      rw [applyEntry, fromAvroStep_time]
      cases parseTime s with
      | some t => exact .inr ⟨.time t, trivial, rfl⟩
      | none => exact .inl rfl
    | _ => exact .inl rfl
  · rw [applyEntry, fromAvroStep_extension h]
    cases extensionValueFrom value with
    | ok v => exact .inr ⟨.extension name v, trivial, rfl⟩
    | error => exact .inl rfl

/-- After an entry, the time is the one before, or one `parseTime` returned. -/
theorem applyEntry_time_mem {e : Event} {y : Σ _ : String, Value} {t : Time}
    (h : t ∈ (applyEntry uriOk e y).context.time) : t ∈ e.context.time ∨ ∃ s, parseTime s = some t := by
  by_cases hy : y.1 = Avro.time
  · obtain ⟨name, value⟩ := y
    dsimp only at hy
    subst hy
    cases value with
    | string s =>
      rw [applyEntry, fromAvroStep_time] at h
      cases ht : parseTime s with
      | none => rw [ht] at h; exact .inl h
      | some t' =>
        rw [ht] at h
        simp only [Event.setTime, Event.update_context, EventContext.setTime] at h
        split_ifs at h
        · cases h
        · cases h; exact .inr ⟨s, ht⟩
    | _ => exact .inl h
  · rw [applyEntry_context_frame (·.time) fun w hw c => (entryWrite_keeps hw c).2.2.2.2.2.2.2.1 hy] at h
    exact .inl h

/-- The key `SetExtension` stores an accepted name under lies outside the eight, when the name does. -/
theorem extensionKey_not_mem_reservedKeys {ver : SpecVersion} {name : String} (hk : name ∉ reservedKeys)
    (h : EventContext.ExtensionNameAccepted ver name) : EventContext.extensionKey ver name ∉ reservedKeys := by
  have hsub : ∀ k ∈ reservedKeys, k ∈ specV1Attributes := by decide
  cases ver with
  | v03 => exact hk
  | v1 => exact fun hm => h.2 (hsub _ hm)

/-! ## The invariant -/

/-- What `FromAvro` leaves in the context of every event it returns. -/
structure EventContext.Decoded (c : EventContext) : Prop where
  /-- every extension is stored under a name outside the eight keys, which `SetExtension` of the
  context's version accepts -/
  names : ∀ k ∈ c.extensions, k ∉ reservedKeys ∧ EventContext.ExtensionNameAccepted c.specVersion k
  /-- every extension value goes to the wire and back as it is -/
  values : ∀ k v, c.extensions.lookup k = some v → v.decoded = v
  /-- the time is one `Parse` can return -/
  time : ∀ t ∈ c.time, 0 ≤ t.year ∧ t.year < 10000 ∧ 60 ∣ t.offset ∧ t.offset.natAbs ≤ 90000
  encoding : c.dataContentEncoding = none

/-- What `FromAvro` returns: an event the SDK's setters build, with a decoded context. -/
structure Event.Decoded (uriOk : String → Bool) (e : Event) : Prop where
  reachable : Reachable uriOk e
  context : e.context.Decoded

/-- **Start.** `readRequired` returns a decoded event. -/
theorem Event.decoded_readRequired (attributes : Map Value) : (readRequired uriOk attributes).Decoded uriOk where
  reachable := readRequired_induction (Reachable uriOk) .new (fun sv => .set (.specVersion sv []) rfl .new)
    (fun _ s h => .set (.id s) trivial h) (fun _ s h => .set (.source s) trivial h)
    (fun _ s h => .set (.type s) trivial h) attributes
  context :=
    have hc := @readRequired_context uriOk attributes
    { names := fun k hk => absurd (hc.1 ▸ hk) Finmap.not_mem_empty
      values := fun k v hk => by rw [hc.1, Finmap.lookup_empty] at hk; cases hk
      time := fun t ht => by rw [hc.2.1] at ht; cases ht
      encoding := hc.2.2 }

/-- **Step lemma.** Every entry of the loop keeps an event decoded. -/
theorem Event.Decoded.applyEntry {e : Event} (hd : e.Decoded uriOk) (y : Σ _ : String, Value) :
    (CloudEvents.applyEntry uriOk e y).Decoded uriOk where
  reachable := by
    rcases applyEntry_cases e y with h | ⟨s, hs, h⟩ <;> rw [h]
    · exact hd.reachable
    · exact .set s hs hd.reachable
  context :=
    { names := fun k hk => by
        obtain ⟨x, hx⟩ := Finmap.mem_iff.mp hk
        rw [applyEntry_specVersion]
        rcases applyEntry_extensions_lookup hx with hx | ⟨hr, hacc, rfl, -⟩
        · exact hd.context.names k (Finmap.mem_of_lookup_eq_some hx)
        · exact ⟨extensionKey_not_mem_reservedKeys hr hacc, EventContext.extensionKey_accepted hacc⟩
      values := fun k x hx => by
        rcases applyEntry_extensions_lookup hx with hx | ⟨-, -, -, v, hv, hval⟩
        · exact hd.context.values k x hx
        · exact ExtValue.decoded_of_extensionValueFrom hv hval
      time := fun t ht => by
        rcases applyEntry_time_mem ht with ht | ⟨s, hs⟩
        · exact hd.context.time t ht
        · exact parseTime_inRange hs
      encoding := (applyEntry_context_frame (·.dataContentEncoding) fun _ hw c =>
        entryWrite_dataContentEncoding hw c).trans hd.context.encoding }

/-- **Run lemma.** The loop keeps an event decoded. -/
theorem Event.Decoded.foldl_applyEntry {e : Event} (hd : e.Decoded uriOk) (ord : List (Σ _ : String, Value)) :
    (ord.foldl (CloudEvents.applyEntry uriOk) e).Decoded uriOk := by
  induction ord generalizing e with
  | nil => exact hd
  | cons y ord ih => exact ih (hd.applyEntry y)

/-- **Every event `FromAvro` returns is decoded**, from any record and in any order of the loop. -/
theorem Event.Decoded.of_fromAvro {jsonMarshal : Map Value → Except String Bytes}
    {ord : List (Σ _ : String, Value)} {r : CloudEventRecord} {e : Event}
    (h : fromAvro uriOk jsonMarshal ord r = .ok e) : e.Decoded uriOk := by
  obtain ⟨-, -, hc, hf⟩ := (fromAvro_eq_ok_iff jsonMarshal ord r e).mp h
  have hd := (@Event.decoded_readRequired uriOk r.attributes).foldl_applyEntry ord
  have he : e = (ord.foldl (CloudEvents.applyEntry uriOk) (readRequired uriOk r.attributes)).set uriOk
      (.data e.dataEncoded) := by
    obtain ⟨c, d, f⟩ := e
    dsimp only at hc hf
    subst hc hf
    rfl
  rw [he]
  exact ⟨.set _ trivial hd.reachable, hd.context⟩

/-- **`FromAvro` returns SDK events.** Every event `FromAvro` returns, from any record and in any order
of its attributes, is one the SDK's setters build from `event.New()`, and its extensions are stored
under names outside the eight keys that `SetExtension` of its own version accepts: it meets the
hypotheses of the round trip of `Avro.RoundTrip`. -/
theorem fromAvro_reachable {jsonMarshal : Map Value → Except String Bytes} {ord : List (Σ _ : String, Value)}
    {r : CloudEventRecord} {e : Event} (h : fromAvro uriOk jsonMarshal ord r = .ok e) :
    Reachable uriOk e ∧
      ∀ k ∈ e.extensions, k ∉ reservedKeys ∧ EventContext.ExtensionNameAccepted e.context.specVersion k :=
  ⟨(Event.Decoded.of_fromAvro h).reachable, (Event.Decoded.of_fromAvro h).context.names⟩

/-- A 0.3 record with the extension key `Foo`, which 0.3 keeps as it is. -/
theorem fromAvro_reachable_v03 :
    let r : CloudEventRecord :=
      ⟨((∅ : Map Value).insert "specversion" (.string "0.3")).insert "Foo" (.bool true), .nil⟩
    ∃ e, fromAvro (fun _ => true) (fun _ => .error "")
        [⟨"specversion", .string "0.3"⟩, ⟨"Foo", .bool true⟩] r = .ok e ∧
      e.extensions.lookup "Foo" = some (.bool true) ∧
      Reachable (fun _ => true) e ∧
      ∀ k ∈ e.extensions, k ∉ reservedKeys ∧ EventContext.ExtensionNameAccepted e.context.specVersion k := by
  intro r
  obtain ⟨e, he, hk⟩ := Except.exists_ok_of_map_toOption
    (x := fromAvro (fun _ => true) (fun _ => .error "") [⟨"specversion", .string "0.3"⟩, ⟨"Foo", .bool true⟩] r)
    (p := fun e => e.extensions.lookup "Foo" == some (.bool true)) (by decide)
  exact ⟨e, he, beq_iff_eq.mp hk, fromAvro_reachable he⟩

/-! ## A second trip -/

/-- A decoded time goes through `Format` and `parseTime` as it is, but at an offset of 25 hours. -/
theorem EventContext.Decoded.parseTime_format_time {c : EventContext} (hc : c.Decoded) {t : Time}
    (ht : t ∈ c.time) : parseTime (t.format RFC3339Nano) = if t.offset.natAbs = 90000 then none else some t := by
  obtain ⟨hy₁, hy₂, hdvd, hle⟩ := hc.time t ht
  rw [parseTime_format, Time.printed_eq_self hdvd]
  by_cases h : t.offset.natAbs = 90000
  · simp [h]
  · simp [hy₁, hy₂, h, lt_of_le_of_ne hle h]

/-- The time of a decoded event after `ToAvro` and `FromAvro`'s time branch: the text fails to parse
exactly at an offset of 25 hours, and otherwise `SetTime` stores the event's own time. -/
theorem Event.Decoded.time_roundTrip {e : Event} (hd : e.Decoded uriOk) :
    ((e.time ≠ Time.zero ∧ parseTime (e.time.format RFC3339Nano) = none) ↔ e.time.offset.natAbs = 90000) ∧
      (e.time.offset.natAbs ≠ 90000 →
        (if e.time = Time.zero then none else
          match parseTime (e.time.format RFC3339Nano) with
          | some t => if t.IsZero then none else some t
          | none => none) = e.context.time) := by
  cases ht : e.context.time with
  | none =>
    have hz : e.time = Time.zero := by simp [Event.time, ht]
    simp [hz, Time.zero]
  | some t =>
    have het : e.time = t := by simp [Event.time, ht]
    have htz : ¬ t.IsZero := hd.reachable.wellFormed.time_ok t ht
    have hne : t ≠ Time.zero := fun h => htz (h ▸ ⟨rfl, rfl⟩)
    rw [het, hd.context.parseTime_format_time ht]
    by_cases h90 : t.offset.natAbs = 90000 <;> simp [h90, hne, htz]

/-- **Decoding is idempotent through the wire.** Take any event `FromAvro` returns, from any record and
in any order. `ToAvro` writes it in any order of its extensions, and `FromAvro` of that record, in any
order, gives back the event's context and payload, unless the event's offset is `±24:60`; then it fails
on the time's text. -/
theorem fromAvro_toAvro_fromAvro {jsonMarshal : Map Value → Except String Bytes}
    {ord : List (Σ _ : String, Value)} {r : CloudEventRecord} {e : Event}
    (h : fromAvro uriOk jsonMarshal ord r = .ok e) {ordE : List (Σ _ : String, ExtValue)}
    (hordE : e.extensions.RangeOrder ordE) :
    ∃ r', toAvro ordE e = .ok r' ∧ ∀ ordR, r'.attributes.RangeOrder ordR →
      if e.time.offset.natAbs = 90000 then
        fromAvro uriOk jsonMarshal ordR r' = .error (.parseTime (e.time.format RFC3339Nano))
      else ∃ e', fromAvro uriOk jsonMarshal ordR r' = .ok e' ∧ e'.context = e.context ∧ e'.data = e.data := by
  have hd := Event.Decoded.of_fromAvro h
  have hres : ∀ k ∈ e.extensions, k ∉ reservedKeys := fun k hk => (hd.context.names k hk).1
  obtain ⟨hfail, htime⟩ := hd.time_roundTrip
  refine ⟨_, toAvro_eq ordE e, fun ordR hordR => ?_⟩
  rw [fromAvro_toAvro_eq hordE hres jsonMarshal hordR]
  by_cases h90 : e.time.offset.natAbs = 90000
  · rw [if_pos h90, if_pos (hfail.mpr h90)]
  · rw [if_neg h90, if_neg (mt hfail.mp h90)]
    refine ⟨_, rfl, ?_, rfl⟩
    obtain ⟨hc₁, hc₂, hc₃, hc₄, hc₅, hc₆, hc₇, hc₈⟩ := decoded_context hd.reachable hordE hres hordR
    have hext := decoded_extensions hd.reachable hordE hd.context.names hordR
    have hdce := ((@Event.decoded_readRequired uriOk
      (writeExtensions ordE e.baseAttributes)).foldl_applyEntry ordR).context.encoding
    refine EventContext.ext hc₁ hc₂ hc₃ hc₄ hc₅ hc₆ hc₇ (hc₈.trans (htime h90))
      (hdce.trans hd.context.encoding.symm) (Finmap.ext_lookup fun k => (hext k).trans ?_)
    show _ = e.extensions.lookup k
    cases hk : e.extensions.lookup k with
    | none => rfl
    | some v => exact congrArg some (hd.context.values k v hk)

/-- A 1.0 record with an extension `Foo` and a time: the second trip gives back the event. -/
theorem fromAvro_toAvro_fromAvro_caseFold :
    let r : CloudEventRecord :=
      ⟨((∅ : Map Value).insert "Foo" (.bool true)).insert "time" (.string "2000-01-01T00:00:00Z"), .nil⟩
    let ord : List (Σ _ : String, Value) := [⟨"Foo", .bool true⟩, ⟨"time", .string "2000-01-01T00:00:00Z"⟩]
    ∃ e, fromAvro (fun _ => true) (fun _ => .error "") ord r = .ok e ∧
      e.extensions.RangeOrder [⟨"foo", .bool true⟩] ∧
      ∃ r', toAvro [⟨"foo", .bool true⟩] e = .ok r' ∧ ∀ ordR, r'.attributes.RangeOrder ordR →
        if e.time.offset.natAbs = 90000 then
          fromAvro (fun _ => true) (fun _ => .error "") ordR r' = .error (.parseTime (e.time.format RFC3339Nano))
        else ∃ e', fromAvro (fun _ => true) (fun _ => .error "") ordR r' = .ok e' ∧
          e'.context = e.context ∧ e'.data = e.data := by
  intro r ord
  obtain ⟨e, he, hord⟩ := Except.exists_ok_of_map_toOption
    (x := fromAvro (fun _ => true) (fun _ => .error "") ord r)
    (p := fun e => decide (e.extensions.RangeOrder [⟨"foo", .bool true⟩])) (by decide)
  exact ⟨e, he, of_decide_eq_true hord, fromAvro_toAvro_fromAvro he (of_decide_eq_true hord)⟩

end CloudEvents
