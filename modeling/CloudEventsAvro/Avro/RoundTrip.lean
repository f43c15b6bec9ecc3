import CloudEventsAvro.Avro.ToAvro
import CloudEventsAvro.Avro.FromAvro
import CloudEventsAvro.Go.TimeRoundTrip

/-!
# `Avro.RoundTrip` — `FromAvro` after `ToAvro`
-/

namespace CloudEvents

open Go Avro

/-- `SetSpecVersion` of a new event, with no extensions to visit, to a version's text. -/
theorem Event.new_setSpecVersion (ver : SpecVersion) :
    (Event.new.setSpecVersion [] ver.text).context = { specVersion := ver, encoding_v1 := fun _ => rfl } := by
  cases ver <;> rfl

section

variable {uriOk : String → Bool} {e : Event} {ordE : List (Σ _ : String, ExtValue)}

/-- `readRequired` reads back a reachable event's spec version and required attributes from its record,
and sets nothing else. -/
theorem readRequired_toAvro (he : Reachable uriOk e) (hord : e.extensions.RangeOrder ordE)
    (hnames : ∀ k ∈ e.extensions, k ∉ reservedKeys) :
    (readRequired uriOk (writeExtensions ordE e.baseAttributes)).context =
      { specVersion := e.context.specVersion, id := e.id, source := e.source, type := e.type,
        encoding_v1 := fun _ => rfl } := by
  have hw := he.wellFormed
  obtain ⟨h₁, h₂, h₃, h₄, -⟩ := lookup_baseAttributes_keys e
  have hr : ∀ k ∈ requiredKeys, (writeExtensions ordE e.baseAttributes).lookup k = e.baseAttributes.lookup k :=
    fun k hk => (lookup_toAvro_of_names hord hnames k).trans (if_pos (List.mem_append_left _ hk))
  simp only [readRequired, hr _ (by decide : specversion ∈ requiredKeys), hr _ (by decide : Avro.id ∈ requiredKeys),
    hr _ (by decide : source ∈ requiredKeys), hr _ (by decide : typ ∈ requiredKeys), h₁, h₂, h₃, h₄,
    Event.specVersion]
  have c₁ := Event.new_setSpecVersion e.context.specVersion
  generalize Event.new.setSpecVersion [] e.context.specVersion.text = e₁ at c₁ ⊢
  have c₂ : (e₁.setID e.id).context = { e₁.context with id := e.id } := by
    simp only [Event.setID, Event.update_context, EventContext.setID, Event.id, hw.id_trim]
    split_ifs with h
    · rw [h, c₁]
    · rfl
  generalize e₁.setID e.id = e₂ at c₂ ⊢
  have c₃ : (e₂.setSource uriOk e.source).context = { e₂.context with source := e.source } := by
    simp only [Event.setSource, Event.update_context, EventContext.setSource, Event.source]
    split_ifs with h
    · rfl
    · rw [hw.source_ok.resolve_right h, c₂, c₁]
  generalize e₂.setSource uriOk e.source = e₃ at c₃ ⊢
  simp only [Event.setType, Event.update_context, EventContext.setType, Event.type, hw.type_trim, c₃, c₂, c₁]

/-- An optional attribute of a well-formed context, written by `ToAvro` when not empty and read back
by its setter. -/
theorem optional_roundTrip {o : Option String} (h : ∀ s ∈ o, EventContext.optional s = some s) :
    (match (if o.getD "" = "" then none else some (Value.string (o.getD ""))) with
      | some (.string s) => EventContext.optional s
      | _ => none) = o := by
  cases o with
  | none => rfl
  | some s =>
    have hs := h s rfl
    simp [(EventContext.optional_eq_some hs).2, hs]

/-- The entries of the record outside the eight keys are the extensions, at their own names. -/
theorem mem_toAvro_extension {ordR : List (Σ _ : String, Value)} (hord : e.extensions.RangeOrder ordE)
    (hnames : ∀ k ∈ e.extensions, k ∉ reservedKeys)
    (hordR : (writeExtensions ordE e.baseAttributes).RangeOrder ordR) {x : Σ _ : String, Value}
    (hx : x ∈ ordR) (hk : x.1 ∉ reservedKeys) : ∃ v, e.extensions.lookup x.1 = some v ∧ x.2 = v.wire := by
  have := hordR.mem_iff.mp hx
  rw [lookup_toAvro_of_names hord hnames, if_neg hk] at this
  obtain ⟨v, hv, hw⟩ := Option.map_eq_some'.mp this
  exact ⟨v, hv, hw.symm⟩

/-- A reachable event keeps each extension under the key its version's `SetExtension` stores the name
under. -/
theorem extensionKey_of_mem (he : Reachable uriOk e) {k : String} (hk : k ∈ e.extensions) :
    EventContext.extensionKey e.context.specVersion k = k := by
  cases hv : e.context.specVersion
  · rfl
  · exact he.wellFormed.keys_v1 hv k hk

/-- A schema of a well-formed context, written by `ToAvro` when not empty and read back by its setter. -/
theorem dataSchema_roundTrip {o : Option String}
    (h : ∀ s ∈ o, EventContext.optional s = some s ∧ uriOk s = true) :
    (match (if o.getD "" = "" then none else some (Value.string (o.getD ""))) with
      | some (.string s) =>
        if trimSpace s ≠ "" ∧ uriOk (trimSpace s) = false then none else EventContext.optional s
      | _ => none) = o := by
  cases o with
  | none => rfl
  | some s =>
    obtain ⟨hs, hu⟩ := h s rfl
    obtain ⟨ht, hne⟩ := EventContext.optional_eq_some hs
    simp [hne, ht, hu, hs]

/-- **The context `FromAvro` builds from a reachable event's record**: the spec version, the required and
the optional attributes come back as they were; the time is set from what its text parses to. -/
theorem decoded_context (he : Reachable uriOk e) (hord : e.extensions.RangeOrder ordE)
    (hnames : ∀ k ∈ e.extensions, k ∉ reservedKeys) {ordR : List (Σ _ : String, Value)}
    (hordR : (writeExtensions ordE e.baseAttributes).RangeOrder ordR) :
    let c := (ordR.foldl (applyEntry uriOk) (readRequired uriOk (writeExtensions ordE e.baseAttributes))).context
    c.specVersion = e.context.specVersion ∧ c.id = e.id ∧ c.source = e.source ∧ c.type = e.type ∧
      c.dataContentType = e.context.dataContentType ∧ c.dataSchema = e.context.dataSchema ∧
      c.subject = e.context.subject ∧
      c.time = if e.time = Time.zero then none else
        match parseTime (e.time.format RFC3339Nano) with
        | some t => if t.IsZero then none else some t
        | none => none := by
  have h0 := readRequired_toAvro he hord hnames
  have hres : ∀ k ∈ reservedKeys, (writeExtensions ordE e.baseAttributes).lookup k = e.baseAttributes.lookup k :=
    fun k hk => (lookup_toAvro_of_names hord hnames k).trans (if_pos hk)
  obtain ⟨-, -, -, -, h₅, h₆, h₇, h₈⟩ := lookup_baseAttributes_keys e
  obtain ⟨r₁, r₂, r₃, r₄⟩ := @foldl_applyEntry_required uriOk ordR
    (readRequired uriOk (writeExtensions ordE e.baseAttributes))
  have hw := he.wellFormed
  refine ⟨r₁.trans (by rw [h0]), r₂.trans (by rw [h0]), r₃.trans (by rw [h0]), r₄.trans (by rw [h0]),
    ?_, ?_, ?_, ?_⟩
  · rw [foldl_applyEntry_dataContentType hordR, hres _ (by decide), h₅, h0]
    exact optional_roundTrip hw.dataContentType_ok
  · rw [foldl_applyEntry_dataSchema hordR, hres _ (by decide), h₆, h0]
    exact dataSchema_roundTrip hw.dataSchema_ok
  · rw [foldl_applyEntry_subject hordR, hres _ (by decide), h₇, h0]
    exact optional_roundTrip hw.subject_ok
  · rw [foldl_applyEntry_time hordR, hres _ (by decide), h₈, h0]
    split_ifs <;> rfl

/-- **The extensions `FromAvro` builds from a reachable event's record**, when `SetExtension` accepts
their names: each comes back decoded, under its own name, and there are no others. -/
theorem decoded_extensions (he : Reachable uriOk e) (hord : e.extensions.RangeOrder ordE)
    (hnames : ∀ k ∈ e.extensions, k ∉ reservedKeys ∧ EventContext.ExtensionNameAccepted e.context.specVersion k)
    {ordR : List (Σ _ : String, Value)} (hordR : (writeExtensions ordE e.baseAttributes).RangeOrder ordR)
    (k : String) :
    (ordR.foldl (applyEntry uriOk)
        (readRequired uriOk (writeExtensions ordE e.baseAttributes))).context.extensions.lookup k =
      (e.extensions.lookup k).map ExtValue.decoded := by
  have hres : ∀ k ∈ e.extensions, k ∉ reservedKeys := fun k hk => (hnames k hk).1
  have h0 := readRequired_toAvro he hord hres
  have hver : (readRequired uriOk (writeExtensions ordE e.baseAttributes)).context.specVersion =
      e.context.specVersion := by rw [h0]
  have hkeep : ∀ y ∈ ordR, (y.1 ∈ reservedKeys ∨ y.1 ≠ k) → ∀ w,
      entryWrite uriOk (readRequired uriOk (writeExtensions ordE e.baseAttributes)).context.specVersion y = some w →
      ∀ c, (w.change c).extensions.lookup k = c.extensions.lookup k := by
    intro y hy hyk w hw c
    refine (entryWrite_keeps hw c).2.2.2.2.2.2.2.2 k ?_
    by_cases hr : y.1 ∈ reservedKeys
    · exact .inl hr
    · obtain ⟨v, hv, -⟩ := mem_toAvro_extension hord hres hordR hy hr
      rw [hver, extensionKey_of_mem he (Finmap.mem_of_lookup_eq_some hv)]
      exact .inr (Ne.symm (hyk.resolve_left hr))
  cases hk : e.extensions.lookup k with
  | none =>
    refine (foldl_applyEntry_frame (·.context.extensions.lookup k) rfl fun y hy e' he' =>
      applyEntry_context_frame (·.extensions.lookup k) fun w hw => hkeep y hy ?_ w (he' ▸ hw)).trans ?_
    · by_cases hr : y.1 ∈ reservedKeys
      · exact .inl hr
      · obtain ⟨v, hv, -⟩ := mem_toAvro_extension hord hres hordR hy hr
        exact .inr fun h => by rw [h, hk] at hv; cases hv
    · rw [h0]; rfl
  | some v =>
    have hk' : k ∈ e.extensions := Finmap.mem_of_lookup_eq_some hk
    have hm : (writeExtensions ordE e.baseAttributes).lookup k = some v.wire := by
      rw [lookup_toAvro_of_names hord hres, if_neg (hnames k hk').1, hk]; rfl
    rw [foldl_applyEntry_place (·.extensions.lookup k) k (fun _ _ => some v.decoded) hordR _
      (fun y hy hyk => hkeep y hy (.inr hyk)) fun v' hv' e' he' => ?_, hm]
    · rfl
    · rw [hm] at hv'
      cases hv'
      rw [applyEntry_eq, he', hver, entryWrite_extension (hnames k hk').1, extensionValueFrom_wire]
      dsimp only
      rw [SetterWrite.run_context]
      dsimp only
      rw [EventContext.extensionOutcome_of_accepted (hnames k hk').2, EventContext.valueOutcome_toValue,
        extensionKey_of_mem he hk']
      exact EventContext.lookup_extensionsChange_self (by cases v <;> nofun) (validate_toValue _) _

/-- The payload of the record converts back to the event's bytes. -/
theorem decodeData_recordData (jsonMarshal : Map Value → Except String Bytes) (e : Event) :
    decodeData jsonMarshal e.recordData = .ok e.data := by
  unfold Event.recordData
  cases e.data <;> rfl

/-- The only entry of a reachable event's record that `FromAvro` can fail on is the time, when its text
parses in neither layout. -/
theorem attributeError_toAvro (hord : e.extensions.RangeOrder ordE)
    (hnames : ∀ k ∈ e.extensions, k ∉ reservedKeys)
    {ordR : List (Σ _ : String, Value)} (hordR : (writeExtensions ordE e.baseAttributes).RangeOrder ordR)
    {x : Σ _ : String, Value} (hx : x ∈ ordR) :
    attributeError x =
      if x.1 = Avro.time ∧ parseTime (e.time.format RFC3339Nano) = none then
        some (.parseTime (e.time.format RFC3339Nano))
      else none := by
  by_cases hr : x.1 ∈ reservedKeys
  · have hm := hordR.mem_iff.mp hx
    rw [lookup_toAvro_of_names hord hnames, if_pos hr] at hm
    obtain ⟨-, -, -, -, -, -, -, h₈⟩ := lookup_baseAttributes_keys e
    obtain ⟨k, v⟩ := x
    simp only [reservedKeys, requiredKeys, List.cons_append, List.nil_append, List.mem_cons,
      List.mem_singleton, List.not_mem_nil, or_false] at hr
    rcases hr with rfl | rfl | rfl | rfl | rfl | rfl | rfl | rfl
    any_goals rfl
    rw [h₈] at hm
    split_ifs at hm
    cases hm
    simp only [attributeError_time, true_and]
  · obtain ⟨v, -, hv⟩ := mem_toAvro_extension hord hnames hordR hx hr
    obtain ⟨k, w⟩ := x
    dsimp only at hv hr
    subst hv
    rw [attributeError_extension hr, extensionValueFrom_wire, if_neg fun h => hr (by
      have : k = Avro.time := h.1
      subst this
      decide)]

/-- **`FromAvro` on a reachable event's record** fails only on the time, when its text parses in neither
layout, and otherwise returns the loop's event with the event's payload. -/
theorem fromAvro_toAvro_eq (hord : e.extensions.RangeOrder ordE) (hnames : ∀ k ∈ e.extensions, k ∉ reservedKeys)
    (jsonMarshal : Map Value → Except String Bytes) {ordR : List (Σ _ : String, Value)}
    (hordR : (writeExtensions ordE e.baseAttributes).RangeOrder ordR) :
    fromAvro uriOk jsonMarshal ordR ⟨writeExtensions ordE e.baseAttributes, e.recordData⟩ =
      if e.time ≠ Time.zero ∧ parseTime (e.time.format RFC3339Nano) = none then
        .error (.parseTime (e.time.format RFC3339Nano))
      else
        .ok ⟨(ordR.foldl (applyEntry uriOk) (readRequired uriOk (writeExtensions ordE e.baseAttributes))).context,
          e.data,
          (ordR.foldl (applyEntry uriOk)
            (readRequired uriOk (writeExtensions ordE e.baseAttributes))).fieldErrors⟩ := by
  have htime : ∀ v, (writeExtensions ordE e.baseAttributes).lookup Avro.time = some v →
      e.time ≠ Time.zero ∧ v = .string (e.time.format RFC3339Nano) := fun v hv => by
    rw [lookup_toAvro_of_names hord hnames, if_pos (by decide), (lookup_baseAttributes_keys e).2.2.2.2.2.2.2]
      at hv
    split_ifs at hv with h
    cases hv
    exact ⟨h, rfl⟩
  split_ifs with hc
  · have hx : ⟨Avro.time, .string (e.time.format RFC3339Nano)⟩ ∈ ordR := by
      rw [hordR.mem_iff, lookup_toAvro_of_names hord hnames, if_pos (by decide),
        (lookup_baseAttributes_keys e).2.2.2.2.2.2.2, if_neg hc.1]
    obtain ⟨b, hb⟩ : ∃ b, ordR.findSome? attributeError = some b := by
      cases h : ordR.findSome? attributeError with
      | some b => exact ⟨b, rfl⟩
      | none =>
        have := List.findSome?_eq_none_iff.mp h _ hx
        rw [attributeError_time, if_pos hc.2] at this
        cases this
    obtain ⟨y, hy, hyb⟩ := List.exists_of_findSome?_eq_some hb
    rw [attributeError_toAvro hord hnames hordR hy] at hyb
    split_ifs at hyb
    cases hyb
    simp only [fromAvro, foldlM_fromAvroStep, hb]
    rfl
  · refine (fromAvro_eq_ok_iff jsonMarshal ordR _ _).mpr ⟨?_, decodeData_recordData jsonMarshal e, rfl, rfl⟩
    refine List.findSome?_eq_none_iff.mpr fun y hy => ?_
    rw [attributeError_toAvro hord hnames hordR hy, if_neg]
    rintro ⟨hy₁, hp⟩
    have := hordR.mem_iff.mp hy
    rw [hy₁] at this
    exact hc ⟨(htime _ this).1, hp⟩

/-- What `FromAvro` returns from a reachable event's record, when it returns, and `SetExtension` accepts
the extensions' names. -/
theorem fromAvro_toAvro_ok (he : Reachable uriOk e) (hord : e.extensions.RangeOrder ordE)
    (hnames : ∀ k ∈ e.extensions, k ∉ reservedKeys ∧ EventContext.ExtensionNameAccepted e.context.specVersion k)
    (jsonMarshal : Map Value → Except String Bytes) {ordR : List (Σ _ : String, Value)}
    (hordR : (writeExtensions ordE e.baseAttributes).RangeOrder ordR) {e' : Event}
    (h : fromAvro uriOk jsonMarshal ordR ⟨writeExtensions ordE e.baseAttributes, e.recordData⟩ = .ok e') :
    e'.specVersion = e.specVersion ∧ e'.id = e.id ∧ e'.source = e.source ∧ e'.type = e.type ∧
      e'.dataContentType = e.dataContentType ∧ e'.dataSchema = e.dataSchema ∧ e'.subject = e.subject ∧
      (∀ k, e'.extensions.lookup k = (e.extensions.lookup k).map ExtValue.decoded) ∧ e'.data = e.data ∧
      e'.context.time = if e.time = Time.zero then none else
        match parseTime (e.time.format RFC3339Nano) with
        | some t => if t.IsZero then none else some t
        | none => none := by
  have hres : ∀ k ∈ e.extensions, k ∉ reservedKeys := fun k hk => (hnames k hk).1
  rw [fromAvro_toAvro_eq hord hres jsonMarshal hordR] at h
  split_ifs at h
  cases h
  obtain ⟨h₁, h₂, h₃, h₄, h₅, h₆, h₇, h₈⟩ := decoded_context he hord hres hordR
  exact ⟨congrArg SpecVersion.text h₁, h₂, h₃, h₄, congrArg (·.getD "") h₅, congrArg (·.getD "") h₆,
    congrArg (·.getD "") h₇, decoded_extensions he hord hnames hordR, rfl, h₈⟩

/-- The time's text parses, in either layout, exactly when `Parse` reads it back. -/
theorem parseTime_format (t : Time) :
    parseTime (t.format RFC3339Nano) =
      if 0 ≤ t.year ∧ t.year < 10000 ∧ t.offset.natAbs < 90000 then some t.printed else none := by
  unfold parseTime
  rw [parse_RFC3339_eq, parse_format]
  split_ifs <;> rfl

end

/-! ## The round trip -/

/-- **Decoding undoes encoding, but for the time.** On a reachable event whose extension names avoid the
eight keys and are names its version's `SetExtension` accepts, `ToAvro` succeeds, and `FromAvro` of the
record, in any order, either fails on the time, which is then a non-zero time whose text does not parse
back, or gives back the spec version, the required and the optional attributes, the extensions decoded
under the same names, and the payload. -/
theorem fromAvro_toAvro {uriOk : String → Bool} {e : Event} (he : Reachable uriOk e)
    {ordE : List (Σ _ : String, ExtValue)} (hord : e.extensions.RangeOrder ordE)
    (hnames : ∀ k ∈ e.extensions, k ∉ reservedKeys ∧ EventContext.ExtensionNameAccepted e.context.specVersion k)
    (jsonMarshal : Map Value → Except String Bytes) :
    ∃ r, toAvro ordE e = .ok r ∧ ∀ ordR, r.attributes.RangeOrder ordR →
      (e.time ≠ Time.zero ∧ parseTime (e.time.format RFC3339Nano) = none ∧
        fromAvro uriOk jsonMarshal ordR r = .error (.parseTime (e.time.format RFC3339Nano))) ∨
      ∃ e', fromAvro uriOk jsonMarshal ordR r = .ok e' ∧
        e'.specVersion = e.specVersion ∧ e'.id = e.id ∧ e'.source = e.source ∧ e'.type = e.type ∧
        e'.dataContentType = e.dataContentType ∧ e'.dataSchema = e.dataSchema ∧ e'.subject = e.subject ∧
        (∀ k, e'.extensions.lookup k = (e.extensions.lookup k).map ExtValue.decoded) ∧ e'.data = e.data := by
  have hres : ∀ k ∈ e.extensions, k ∉ reservedKeys := fun k hk => (hnames k hk).1
  refine ⟨_, toAvro_eq ordE e, fun ordR hordR => ?_⟩
  have h := @fromAvro_toAvro_eq uriOk _ _ hord hres jsonMarshal _ hordR
  split_ifs at h with ht
  · exact .inl ⟨ht.1, ht.2, h⟩
  · obtain ⟨h₁, h₂, h₃, h₄, h₅, h₆, h₇, h₈, h₉, -⟩ := fromAvro_toAvro_ok he hord hnames jsonMarshal hordR h
    exact .inr ⟨_, h, h₁, h₂, h₃, h₄, h₅, h₆, h₇, h₈, h₉⟩

/-- A 1.0 event with one extension. -/
theorem fromAvro_toAvro_oneExtension :
    let e := Event.new.run (fun _ => true) [.extension "foo" (.string "x")]
    Reachable (fun _ => true) e ∧ e.extensions.RangeOrder [⟨"foo", .string "x"⟩] ∧
      (∀ k ∈ e.extensions, k ∉ reservedKeys ∧ EventContext.ExtensionNameAccepted e.context.specVersion k) ∧
      ∃ r, toAvro [⟨"foo", .string "x"⟩] e = .ok r ∧ ∀ ordR, r.attributes.RangeOrder ordR →
        (e.time ≠ Time.zero ∧ parseTime (e.time.format RFC3339Nano) = none ∧
          fromAvro (fun _ => true) (fun _ => .error "") ordR r = .error (.parseTime (e.time.format RFC3339Nano))) ∨
        ∃ e', fromAvro (fun _ => true) (fun _ => .error "") ordR r = .ok e' ∧
          e'.specVersion = e.specVersion ∧ e'.id = e.id ∧ e'.source = e.source ∧ e'.type = e.type ∧
          e'.dataContentType = e.dataContentType ∧ e'.dataSchema = e.dataSchema ∧ e'.subject = e.subject ∧
          (∀ k, e'.extensions.lookup k = (e.extensions.lookup k).map ExtValue.decoded) ∧ e'.data = e.data :=
  have he : Reachable (fun _ => true) (Event.new.run (fun _ => true) [.extension "foo" (.string "x")]) :=
    Reachable.run _ .new (by decide)
  have hnames : ∀ k ∈ (Event.new.run (fun _ => true) [.extension "foo" (.string "x")]).extensions.keys,
      k ∉ reservedKeys ∧ EventContext.ExtensionNameAccepted
        (Event.new.run (fun _ => true) [.extension "foo" (.string "x")]).context.specVersion k := by
    decide
  ⟨he, by decide, fun k hk => hnames k (Finmap.mem_keys.mpr hk),
    fromAvro_toAvro he (by decide) (fun k hk => hnames k (Finmap.mem_keys.mpr hk)) _⟩

/-- A 0.3 event whose extension `schemaurl` was set under 1.0: 0.3's `SetExtension` refuses the name,
and the decoded event has no such extension. -/
theorem fromAvro_toAvro_schemaurl :
    let e := Event.new.run (fun _ => true)
      [.extension "schemaurl" (.string "x"), .specVersion "0.3" [⟨"schemaurl", .string "x"⟩]]
    Event.new.RunValid (fun _ => true)
        [.extension "schemaurl" (.string "x"), .specVersion "0.3" [⟨"schemaurl", .string "x"⟩]] ∧
      e.extensions.RangeOrder [⟨"schemaurl", .string "x"⟩] ∧ (∀ k ∈ e.extensions.keys, k ∉ reservedKeys) ∧
      e.extensions.lookup "schemaurl" = some (.string "x") ∧
      ∃ r, toAvro [⟨"schemaurl", .string "x"⟩] e = .ok r ∧
        r.attributes.RangeOrder [⟨"specversion", .string "0.3"⟩, ⟨"id", .string ""⟩, ⟨"source", .string ""⟩,
          ⟨"type", .string ""⟩, ⟨"schemaurl", .string "x"⟩] ∧
        (fromAvro (fun _ => true) (fun _ => .error "") [⟨"specversion", .string "0.3"⟩, ⟨"id", .string ""⟩,
            ⟨"source", .string ""⟩, ⟨"type", .string ""⟩, ⟨"schemaurl", .string "x"⟩] r).toOption.map
          (fun e' => e'.extensions.lookup "schemaurl") = some none :=
  ⟨by decide, by decide, by decide, by decide, _, toAvro_eq _ _, by decide, by decide⟩

/-- **The time comes back as the same instant when its text parses back.** On a reachable event whose
extension names avoid the eight keys, a zero time writes no `time` key and comes back zero, and a
non-zero time in the years 0 to 9999, with an offset of whole minutes under 25 hours, comes back as the
same instant. -/
theorem fromAvro_toAvro_time {uriOk : String → Bool} {e : Event} (he : Reachable uriOk e)
    {ordE : List (Σ _ : String, ExtValue)} (hord : e.extensions.RangeOrder ordE)
    (hnames : ∀ k ∈ e.extensions, k ∉ reservedKeys) (jsonMarshal : Map Value → Except String Bytes) :
    ∃ r, toAvro ordE e = .ok r ∧ ∀ ordR, r.attributes.RangeOrder ordR →
      (e.time.IsZero → r.attributes.lookup Avro.time = none ∧
        ∃ e', fromAvro uriOk jsonMarshal ordR r = .ok e' ∧ e'.time = Time.zero) ∧
      (¬ e.time.IsZero → 0 ≤ e.time.year → e.time.year < 10000 → e.time.offset.natAbs < 90000 →
        60 ∣ e.time.offset → ∃ e', fromAvro uriOk jsonMarshal ordR r = .ok e' ∧ e'.time.Equal e.time) := by
  refine ⟨_, toAvro_eq ordE e, fun ordR hordR => ⟨fun hz => ?_, fun hnz hy₁ hy₂ hoff hdvd => ?_⟩⟩
  all_goals
    have htz : e.time = Time.zero ↔ e.time.IsZero := not_iff_not.mp (Event.time_ne_zero_iff he.wellFormed)
    have hc := (decoded_context he hord hnames hordR).2.2.2.2.2.2.2
    rw [fromAvro_toAvro_eq hord hnames jsonMarshal hordR]
  · have h0 : e.time = Time.zero := htz.mpr hz
    refine ⟨?_, _, if_neg fun h => h.1 h0, ?_⟩
    · rw [lookup_toAvro_of_names hord hnames, if_pos (by decide), (lookup_baseAttributes_keys e).2.2.2.2.2.2.2,
        if_pos h0]
    · show Option.getD _ _ = _
      rw [hc, if_pos h0]
      rfl
  · have h0 : e.time ≠ Time.zero := fun h => hnz (htz.mp h)
    have hp : parseTime (e.time.format RFC3339Nano) = some e.time.printed := by
      rw [parseTime_format, if_pos ⟨hy₁, hy₂, hoff⟩]
    have heq : e.time.printed.Equal e.time := (Time.printed_equal_iff _).mpr hdvd
    have hpz : ¬ e.time.printed.IsZero := fun h => hnz ⟨heq.1 ▸ h.1, heq.2 ▸ h.2⟩
    have hnc : ¬ (e.time ≠ Time.zero ∧ parseTime (e.time.format RFC3339Nano) = none) := fun h => by
      rw [hp] at h
      cases h.2
    refine ⟨_, if_neg hnc, ?_⟩
    show Time.Equal (Option.getD _ _) _
    rw [hc, if_neg h0, hp]
    simp only [if_neg hpz]
    exact heq

/-- A reachable event with a non-zero time of 1970. -/
theorem fromAvro_toAvro_time_epoch :
    let e := Event.new.run (fun _ => true) [.time ⟨0, 0, by decide, 0⟩]
    Reachable (fun _ => true) e ∧ e.extensions.RangeOrder [] ∧ (∀ k ∈ e.extensions, k ∉ reservedKeys) ∧
      ∃ r, toAvro [] e = .ok r ∧ ∀ ordR, r.attributes.RangeOrder ordR →
        (e.time.IsZero → r.attributes.lookup Avro.time = none ∧
          ∃ e', fromAvro (fun _ => true) (fun _ => .error "") ordR r = .ok e' ∧ e'.time = Time.zero) ∧
        (¬ e.time.IsZero → 0 ≤ e.time.year → e.time.year < 10000 → e.time.offset.natAbs < 90000 →
          60 ∣ e.time.offset →
          ∃ e', fromAvro (fun _ => true) (fun _ => .error "") ordR r = .ok e' ∧ e'.time.Equal e.time) :=
  have he : Reachable (fun _ => true) (Event.new.run (fun _ => true) [.time ⟨0, 0, by decide, 0⟩]) :=
    Reachable.run _ .new (by decide)
  have hnames : ∀ k ∈ (Event.new.run (fun _ => true) [.time ⟨0, 0, by decide, 0⟩]).extensions,
      k ∉ reservedKeys := fun k hk => by
    have : ∀ k ∈ (Event.new.run (fun _ => true) [.time ⟨0, 0, by decide, 0⟩]).extensions.keys,
        k ∉ reservedKeys := by decide
    exact this k (Finmap.mem_keys.mpr hk)
  ⟨he, by decide, hnames, fromAvro_toAvro_time he (by decide) hnames _⟩

/-- A time in the year 10000: its text has a five-digit year, which neither layout parses. -/
theorem fromAvro_toAvro_year10000 :
    let t : Time := ⟨253402300800, 0, by decide, 0⟩
    let e := Event.new.run (fun _ => true) [.time t]
    Event.new.RunValid (fun _ => true) [.time t] ∧ ¬ t.IsZero ∧ e.time = t ∧ e.extensions.RangeOrder [] ∧
      ∃ r, toAvro [] e = .ok r ∧
        r.attributes.RangeOrder [⟨"specversion", .string "1.0"⟩, ⟨"id", .string ""⟩, ⟨"source", .string ""⟩,
          ⟨"type", .string ""⟩, ⟨"time", .string "10000-01-01T00:00:00Z"⟩] ∧
        (fromAvro (fun _ => true) (fun _ => .error "") [⟨"specversion", .string "1.0"⟩, ⟨"id", .string ""⟩,
          ⟨"source", .string ""⟩, ⟨"type", .string ""⟩, ⟨"time", .string "10000-01-01T00:00:00Z"⟩]
          r).toOption = none :=
  ⟨by decide, by decide, by decide, by decide, _, toAvro_eq _ _, by decide, by decide⟩

/-- **Re-encoding a decoded record gives the record back**, on a reachable event as in the round trip
whose time, when set, has an offset of zero or of at least a minute, and does not parse back to the zero
instant: `ToAvro` of what `FromAvro` returns is the record, in every order of its extensions. -/
theorem toAvro_fromAvro_toAvro {uriOk : String → Bool} {e : Event} (he : Reachable uriOk e)
    {ordE : List (Σ _ : String, ExtValue)} (hord : e.extensions.RangeOrder ordE)
    (hnames : ∀ k ∈ e.extensions, k ∉ reservedKeys ∧ EventContext.ExtensionNameAccepted e.context.specVersion k)
    (htime : ¬ e.time.IsZero → (e.time.offset = 0 ∨ 60 ≤ e.time.offset.natAbs) ∧ ¬ e.time.printed.IsZero)
    (jsonMarshal : Map Value → Except String Bytes) :
    ∃ r, toAvro ordE e = .ok r ∧ ∀ ordR, r.attributes.RangeOrder ordR → ∀ e',
      fromAvro uriOk jsonMarshal ordR r = .ok e' →
      ∀ ordE', e'.extensions.RangeOrder ordE' → toAvro ordE' e' = .ok r := by
  have hres : ∀ k ∈ e.extensions, k ∉ reservedKeys := fun k hk => (hnames k hk).1
  refine ⟨_, toAvro_eq ordE e, fun ordR hordR e' h ordE' hord' => ?_⟩
  have hok : ¬ (e.time ≠ Time.zero ∧ parseTime (e.time.format RFC3339Nano) = none) := fun hc => by
    rw [fromAvro_toAvro_eq hord hres jsonMarshal hordR, if_pos hc] at h
    cases h
  obtain ⟨h₁, h₂, h₃, h₄, h₅, h₆, h₇, h₈, h₉, h₁₀⟩ :=
    fromAvro_toAvro_ok he hord hnames jsonMarshal hordR h
  have hbase : e'.baseAttributes = e.baseAttributes := by
    by_cases hz : e.time = Time.zero
    · have : e'.time = Time.zero := by
        show Option.getD _ _ = _
        rw [h₁₀, if_pos hz]
        rfl
      simp only [Event.baseAttributes, h₁, h₂, h₃, h₄, h₅, h₆, h₇, this, hz]
    · have hnz : ¬ e.time.IsZero := fun h => hz ((not_iff_not.mp (Event.time_ne_zero_iff he.wellFormed)).mpr h)
      obtain ⟨hoff, hpz⟩ := htime hnz
      have hp : parseTime (e.time.format RFC3339Nano) = some e.time.printed := by
        rw [parseTime_format] at hok ⊢
        split_ifs at hok ⊢
        · rfl
        · exact absurd ⟨hz, rfl⟩ hok
      have : e'.time = e.time.printed := by
        show Option.getD _ _ = _
        rw [h₁₀, if_neg hz, hp]
        simp only [if_neg hpz]
        rfl
      have hpz' : e.time.printed ≠ Time.zero := fun h' => hpz (h' ▸ ⟨rfl, rfl⟩)
      simp only [Event.baseAttributes, h₁, h₂, h₃, h₄, h₅, h₆, h₇, this, ne_eq, hz, hpz',
        not_false_eq_true, if_true, (Time.format_printed _).mpr hoff]
  rw [toAvro_eq]
  congr 2
  · apply Finmap.ext_lookup
    intro k
    rw [lookup_toAvro hord', lookup_toAvro hord, hbase, h₈, Option.map_map]
    congr 2
    funext v
    exact ExtValue.wire_decoded v
  · simp only [Event.recordData, h₉]

/-- A reachable event with an extension and a time of 1970 in UTC. -/
theorem toAvro_fromAvro_toAvro_epoch :
    let e := Event.new.run (fun _ => true) [.extension "foo" (.bool true), .time ⟨0, 0, by decide, 0⟩]
    Reachable (fun _ => true) e ∧ e.extensions.RangeOrder [⟨"foo", .bool true⟩] ∧
      (∀ k ∈ e.extensions, k ∉ reservedKeys ∧ EventContext.ExtensionNameAccepted e.context.specVersion k) ∧
      (¬ e.time.IsZero → (e.time.offset = 0 ∨ 60 ≤ e.time.offset.natAbs) ∧ ¬ e.time.printed.IsZero) ∧
      ∃ r, toAvro [⟨"foo", .bool true⟩] e = .ok r ∧ ∀ ordR, r.attributes.RangeOrder ordR → ∀ e',
        fromAvro (fun _ => true) (fun _ => .error "") ordR r = .ok e' →
        ∀ ordE', e'.extensions.RangeOrder ordE' → toAvro ordE' e' = .ok r :=
  have he : Reachable (fun _ => true)
      (Event.new.run (fun _ => true) [.extension "foo" (.bool true), .time ⟨0, 0, by decide, 0⟩]) :=
    Reachable.run _ .new (by decide)
  have hnames : ∀ k ∈ (Event.new.run (fun _ => true)
      [.extension "foo" (.bool true), .time ⟨0, 0, by decide, 0⟩]).extensions.keys,
      k ∉ reservedKeys ∧ EventContext.ExtensionNameAccepted (Event.new.run (fun _ => true)
        [.extension "foo" (.bool true), .time ⟨0, 0, by decide, 0⟩]).context.specVersion k := by
    decide
  ⟨he, by decide, fun k hk => hnames k (Finmap.mem_keys.mpr hk), by decide,
    toAvro_fromAvro_toAvro he (by decide) (fun k hk => hnames k (Finmap.mem_keys.mpr hk)) (by decide) _⟩

/-- A time 30 seconds east of UTC: `Format` writes its offset as `+00:00`, which parses back as UTC, and
the decoded time is written `Z`. -/
theorem toAvro_fromAvro_offset30 :
    let t : Time := ⟨0, 0, by decide, 30⟩
    let e := Event.new.run (fun _ => true) [.time t]
    Event.new.RunValid (fun _ => true) [.time t] ∧ e.extensions.RangeOrder [] ∧
      ∃ r, toAvro [] e = .ok r ∧
        r.attributes.RangeOrder [⟨"specversion", .string "1.0"⟩, ⟨"id", .string ""⟩, ⟨"source", .string ""⟩,
          ⟨"type", .string ""⟩, ⟨"time", .string "1970-01-01T00:00:30+00:00"⟩] ∧
        (fromAvro (fun _ => true) (fun _ => .error "") [⟨"specversion", .string "1.0"⟩, ⟨"id", .string ""⟩,
            ⟨"source", .string ""⟩, ⟨"type", .string ""⟩, ⟨"time", .string "1970-01-01T00:00:30+00:00"⟩]
            r).toOption.map
          (fun e' => (e'.extensions.keys, (toAvro [] e').toOption.map (·.attributes.lookup Avro.time))) =
          some (∅, some (some (.string "1970-01-01T00:00:30Z"))) :=
  ⟨by decide, by decide, _, toAvro_eq _ _, by decide, by decide⟩

end CloudEvents
