import CloudEventsAvro.Avro.Record
import CloudEventsAvro.Sdk.Reachable

/-!
# `Avro.ToAvro` — from an SDK event to the Binary Record

`toAvro` is `ToAvro` (`avro.go`, lines 82–123): the required attributes, the optional ones that are
set, then the extensions in the order Go's `range` visits them, each through `attributeValueFor`, and the
payload bytes.

- `toAvro_eq`: `ToAvro` never fails on an SDK event, and writes the extensions over the attributes it
  wrote before them, with no check for a collision (`lookup_toAvro`); the record does not depend on the
  order of the extension loop (`toAvro_orderIndependent`).
- **`toAvro_record`**: on a reachable event whose extension names avoid the eight keys of the
  record, the Binary Record has exactly the keys the spec lists, the eight hold the event's own values,
  and every value is a branch of the schema's attribute union.
-/

namespace CloudEvents

open Go Avro

/-- `ToAvro`'s error, `failed to encode extension attribute %s: %w`. -/
structure ToAvroError where
  name : String
  err : InvalidValue

/-- The attributes `ToAvro` writes before the extensions: the four required ones, and each optional
one that is set. -/
def Event.baseAttributes (e : Event) : Map Value :=
  let m : Map Value := (∅ : Map Value)
    |>.insert Avro.specversion (.string e.specVersion) |>.insert Avro.id (.string e.id)
    |>.insert Avro.source (.string e.source) |>.insert Avro.typ (.string e.type)
  let m := if e.dataContentType ≠ "" then m.insert Avro.datacontenttype (.string e.dataContentType) else m
  let m := if e.dataSchema ≠ "" then m.insert Avro.dataschema (.string e.dataSchema) else m
  let m := if e.subject ≠ "" then m.insert Avro.subject (.string e.subject) else m
  if e.time ≠ Time.zero then m.insert Avro.time (.string (e.time.format RFC3339Nano)) else m

theorem lookup_insert_ite (m : Map Value) (a k : String) (b : Value) :
    (m.insert a b).lookup k = if k = a then some b else m.lookup k := by
  split_ifs with h
  · subst h; exact Finmap.lookup_insert _
  · exact Finmap.lookup_insert_of_ne _ h

theorem lookup_ite_insert (c : Prop) [Decidable c] (m : Map Value) (a k : String) (b : Value) :
    (if c then m.insert a b else m).lookup k = if c ∧ k = a then some b else m.lookup k := by
  by_cases hc : c <;> simp [hc, lookup_insert_ite]

/-- The attributes written before the extensions, key by key, the last written first. -/
theorem lookup_baseAttributes (e : Event) (k : String) :
    e.baseAttributes.lookup k =
      if e.time ≠ Time.zero ∧ k = Avro.time then some (.string (e.time.format RFC3339Nano))
      else if e.subject ≠ "" ∧ k = Avro.subject then some (.string e.subject)
      else if e.dataSchema ≠ "" ∧ k = Avro.dataschema then some (.string e.dataSchema)
      else if e.dataContentType ≠ "" ∧ k = Avro.datacontenttype then some (.string e.dataContentType)
      else if k = Avro.typ then some (.string e.type)
      else if k = Avro.source then some (.string e.source)
      else if k = Avro.id then some (.string e.id)
      else if k = Avro.specversion then some (.string e.specVersion)
      else none := by
  simp only [Event.baseAttributes, lookup_ite_insert, lookup_insert_ite, Finmap.lookup_empty]

/-- `record.Data`: the payload bytes, or nil. -/
def Event.recordData (e : Event) : Data :=
  match e.data with
  | some d => .bytes d
  | none => .nil

/-- `ToAvro`, the extensions visited in the order `ord`. -/
def toAvro (ord : List (Σ _ : String, ExtValue)) (e : Event) : Except ToAvroError CloudEventRecord := do
  let attrs ← ord.foldlM (fun m kv =>
    match attributeValueFor kv.2.toValue with
    | .ok a => .ok (m.insert kv.1 a)
    | .error err => .error ⟨kv.1, err⟩) e.baseAttributes
  pure { attributes := attrs, data := e.recordData }

/-- The extension loop with every value written: it inserts each extension's wire form. -/
def writeExtensions (ord : List (Σ _ : String, ExtValue)) (m : Map Value) : Map Value :=
  ord.foldl (fun m kv => m.insert kv.1 kv.2.wire) m

theorem foldlM_ok {α β ε : Type} (f : α → β → α) (l : List β) (a : α) :
    l.foldlM (fun a b => (.ok (f a b) : Except ε α)) a = .ok (l.foldl f a) := by
  induction l generalizing a with
  | nil => rfl
  | cons b l ih => exact ih _

/-- `ToAvro` never fails on an SDK event. -/
theorem toAvro_eq (ord : List (Σ _ : String, ExtValue)) (e : Event) :
    toAvro ord e = .ok { attributes := writeExtensions ord e.baseAttributes, data := e.recordData } := by
  simp only [toAvro, attributeValueFor_toValue, foldlM_ok]
  rfl

/-- The extension loop leaves each key with its last value. -/
theorem lookup_writeExtensions {ord : List (Σ _ : String, ExtValue)} (h : ord.NodupKeys)
    (m : Map Value) (k : String) :
    (writeExtensions ord m).lookup k = ((ord.dlookup k).map ExtValue.wire).or (m.lookup k) := by
  induction ord generalizing m with
  | nil => rfl
  | cons kv ord ih =>
    obtain ⟨k', v⟩ := kv
    rw [List.nodupKeys_cons] at h
    simp only [writeExtensions, List.foldl_cons] at ih ⊢
    rw [ih h.2]
    by_cases hk : k = k'
    · subst hk
      simp [List.dlookup_cons_eq, List.dlookup_eq_none.mpr h.1, Finmap.lookup_insert]
    · simp [List.dlookup_cons_ne ord (⟨k', v⟩ : Σ _ : String, ExtValue) hk,
        Finmap.lookup_insert_of_ne _ hk]

/-- **The record's attributes.** Each extension's wire form, over what `ToAvro` wrote before. -/
theorem lookup_toAvro {ord : List (Σ _ : String, ExtValue)} {e : Event}
    (hord : e.extensions.RangeOrder ord) (k : String) :
    (writeExtensions ord e.baseAttributes).lookup k =
      ((e.extensions.lookup k).map ExtValue.wire).or (e.baseAttributes.lookup k) := by
  rw [lookup_writeExtensions hord.nodupKeys, hord.dlookup_eq]

/-- **`ToAvro` does not depend on the order of its extension loop**: every order Go's `range` may visit
the extensions in gives the same record. -/
theorem toAvro_orderIndependent {ord₁ ord₂ : List (Σ _ : String, ExtValue)} {e : Event}
    (h₁ : e.extensions.RangeOrder ord₁) (h₂ : e.extensions.RangeOrder ord₂) : toAvro ord₁ e = toAvro ord₂ e := by
  rw [toAvro_eq, toAvro_eq, Finmap.ext_lookup fun k => (lookup_toAvro h₁ k).trans (lookup_toAvro h₂ k).symm]

/-- An event with two extensions, in both orders. -/
theorem toAvro_orderIndependent_twoExtensions :
    let e := Event.new.run (fun _ => true) [.extension "a" (.bool true), .extension "b" (.string "x")]
    e.extensions.RangeOrder [⟨"a", .bool true⟩, ⟨"b", .string "x"⟩] ∧
      e.extensions.RangeOrder [⟨"b", .string "x"⟩, ⟨"a", .bool true⟩] ∧
      toAvro [⟨"a", .bool true⟩, ⟨"b", .string "x"⟩] e = toAvro [⟨"b", .string "x"⟩, ⟨"a", .bool true⟩] e :=
  have h₁ : (Event.new.run (fun _ => true) [.extension "a" (.bool true), .extension "b" (.string "x")]).extensions.RangeOrder
      [⟨"a", .bool true⟩, ⟨"b", .string "x"⟩] := by decide
  have h₂ : (Event.new.run (fun _ => true) [.extension "a" (.bool true), .extension "b" (.string "x")]).extensions.RangeOrder
      [⟨"b", .string "x"⟩, ⟨"a", .bool true⟩] := by decide
  ⟨h₁, h₂, toAvro_orderIndependent h₁ h₂⟩

/-- The attributes written before the extensions, at each of the eight keys. -/
theorem lookup_baseAttributes_keys (e : Event) :
    e.baseAttributes.lookup Avro.specversion = some (.string e.specVersion) ∧
      e.baseAttributes.lookup Avro.id = some (.string e.id) ∧
      e.baseAttributes.lookup Avro.source = some (.string e.source) ∧
      e.baseAttributes.lookup Avro.typ = some (.string e.type) ∧
      e.baseAttributes.lookup Avro.datacontenttype =
        (if e.dataContentType = "" then none else some (.string e.dataContentType)) ∧
      e.baseAttributes.lookup Avro.dataschema = (if e.dataSchema = "" then none else some (.string e.dataSchema)) ∧
      e.baseAttributes.lookup Avro.subject = (if e.subject = "" then none else some (.string e.subject)) ∧
      e.baseAttributes.lookup Avro.time =
        (if e.time = Time.zero then none else some (.string (e.time.format RFC3339Nano))) := by
  simp only [lookup_baseAttributes]
  refine ⟨?_, ?_, ?_, ?_, ?_, ?_, ?_, ?_⟩ <;>
    simp [Avro.time, Avro.subject, Avro.dataschema, Avro.datacontenttype, Avro.typ, Avro.source, Avro.id,
      Avro.specversion, ite_not]

theorem lookup_baseAttributes_of_not_mem (e : Event) {k : String} (hk : k ∉ reservedKeys) :
    e.baseAttributes.lookup k = none := by
  simp only [reservedKeys, requiredKeys, List.cons_append, List.nil_append, List.mem_cons,
    List.mem_singleton, not_or] at hk
  simp [lookup_baseAttributes, hk]

theorem isWire_of_ite_string {c : Prop} [Decidable c] {s : String} {o : Option Value}
    (ho : ∀ v, o = some v → v.IsWire) : ∀ v, (if c then some (Value.string s) else o) = some v → v.IsWire := by
  intro v h
  split at h
  · cases h; trivial
  · exact ho v h

/-- What `ToAvro` writes before the extensions is strings. -/
theorem lookup_baseAttributes_isWire (e : Event) {k : String} {v : Value} (h : e.baseAttributes.lookup k = some v) :
    v.IsWire := by
  revert v
  rw [lookup_baseAttributes]
  repeat apply isWire_of_ite_string
  exact fun _ => Option.noConfusion

/-- On an event whose extension names avoid the eight keys, the record holds at each of the eight what
`ToAvro` wrote before the extensions, and at every other key an extension's wire form. -/
theorem lookup_toAvro_of_names {ord : List (Σ _ : String, ExtValue)} {e : Event}
    (hord : e.extensions.RangeOrder ord) (hnames : ∀ k ∈ e.extensions, k ∉ reservedKeys) (k : String) :
    (writeExtensions ord e.baseAttributes).lookup k =
      if k ∈ reservedKeys then e.baseAttributes.lookup k else (e.extensions.lookup k).map ExtValue.wire := by
  rw [lookup_toAvro hord]
  split_ifs with hk
  · rw [Finmap.lookup_eq_none.mpr fun hm => hnames k hm hk]; rfl
  · rw [lookup_baseAttributes_of_not_mem e hk, Option.or_none]

/-- **The Binary Record** (spec §3 and §4.1). On a reachable event whose extension names avoid the
eight keys, `ToAvro` succeeds; the required keys hold the event's required attributes, each optional key
is there exactly when its attribute is set and holds it, `time` exactly when the time is not zero,
every other key is an extension's, with its wire form; every value is a branch of the attribute union,
and the payload is nil exactly when the event's is. -/
theorem toAvro_record {uriOk : String → Bool} {e : Event} (he : Reachable uriOk e)
    {ord : List (Σ _ : String, ExtValue)} (hord : e.extensions.RangeOrder ord)
    (hnames : ∀ k ∈ e.extensions, k ∉ reservedKeys) :
    ∃ r, toAvro ord e = .ok r ∧
      r.attributes.lookup Avro.specversion = some (.string e.specVersion) ∧
      r.attributes.lookup Avro.id = some (.string e.id) ∧
      r.attributes.lookup Avro.source = some (.string e.source) ∧
      r.attributes.lookup Avro.typ = some (.string e.type) ∧
      r.attributes.lookup Avro.datacontenttype =
        (if e.dataContentType = "" then none else some (.string e.dataContentType)) ∧
      r.attributes.lookup Avro.dataschema =
        (if e.dataSchema = "" then none else some (.string e.dataSchema)) ∧
      r.attributes.lookup Avro.subject = (if e.subject = "" then none else some (.string e.subject)) ∧
      r.attributes.lookup Avro.time =
        (if e.time.IsZero then none else some (.string (e.time.format RFC3339Nano))) ∧
      (∀ k ∉ reservedKeys, r.attributes.lookup k = (e.extensions.lookup k).map ExtValue.wire) ∧
      (∀ k v, r.attributes.lookup k = some v → v.IsWire) ∧
      (r.data = .nil ↔ e.data = none) := by
  refine ⟨_, toAvro_eq ord e, ?_⟩
  have hres : ∀ k ∈ reservedKeys, (writeExtensions ord e.baseAttributes).lookup k = e.baseAttributes.lookup k :=
    fun k hk => (lookup_toAvro_of_names hord hnames k).trans (if_pos hk)
  have htime : e.time = Time.zero ↔ e.time.IsZero := not_iff_not.mp (Event.time_ne_zero_iff he.wellFormed)
  obtain ⟨h₁, h₂, h₃, h₄, h₅, h₆, h₇, h₈⟩ := lookup_baseAttributes_keys e
  refine ⟨(hres _ (by decide)).trans h₁, (hres _ (by decide)).trans h₂, (hres _ (by decide)).trans h₃,
    (hres _ (by decide)).trans h₄, (hres _ (by decide)).trans h₅, (hres _ (by decide)).trans h₆,
    (hres _ (by decide)).trans h₇, (hres _ (by decide)).trans (h₈.trans (if_congr htime rfl rfl)),
    fun k hk => (lookup_toAvro_of_names hord hnames k).trans (if_neg hk), fun k v hv => ?wire, ?data⟩
  case wire =>
    rw [lookup_toAvro_of_names hord hnames] at hv
    split_ifs at hv
    · exact lookup_baseAttributes_isWire e hv
    · obtain ⟨w, -, rfl⟩ := Option.map_eq_some'.mp hv
      exact w.wire_isWire
  case data => cases hd : e.data <;> simp [Event.recordData, hd]

/-- A 1.0 event with one extension. -/
theorem toAvro_record_oneExtension :
    let e := Event.new.run (fun _ => true) [.extension "foo" (.string "x")]
    Reachable (fun _ => true) e ∧ e.extensions.RangeOrder [⟨"foo", .string "x"⟩] ∧
      (∀ k ∈ e.extensions, k ∉ reservedKeys) ∧
      ∃ r, toAvro [⟨"foo", .string "x"⟩] e = .ok r ∧
        r.attributes.lookup Avro.specversion = some (.string e.specVersion) ∧
        r.attributes.lookup Avro.id = some (.string e.id) ∧
        r.attributes.lookup Avro.source = some (.string e.source) ∧
        r.attributes.lookup Avro.typ = some (.string e.type) ∧
        r.attributes.lookup Avro.datacontenttype =
          (if e.dataContentType = "" then none else some (.string e.dataContentType)) ∧
        r.attributes.lookup Avro.dataschema =
          (if e.dataSchema = "" then none else some (.string e.dataSchema)) ∧
        r.attributes.lookup Avro.subject = (if e.subject = "" then none else some (.string e.subject)) ∧
        r.attributes.lookup Avro.time =
          (if e.time.IsZero then none else some (.string (e.time.format RFC3339Nano))) ∧
        (∀ k ∉ reservedKeys, r.attributes.lookup k = (e.extensions.lookup k).map ExtValue.wire) ∧
        (∀ k v, r.attributes.lookup k = some v → v.IsWire) ∧
        (r.data = .nil ↔ e.data = none) :=
  have he : Reachable (fun _ => true) (Event.new.run (fun _ => true) [.extension "foo" (.string "x")]) :=
    Reachable.run _ .new (by decide)
  have hnames : ∀ k ∈ (Event.new.run (fun _ => true) [.extension "foo" (.string "x")]).extensions,
      k ∉ reservedKeys := fun k hk => by
    have : ∀ k ∈ (Event.new.run (fun _ => true) [.extension "foo" (.string "x")]).extensions.keys,
        k ∉ reservedKeys := by decide
    exact this k (Finmap.mem_keys.mpr hk)
  ⟨he, by decide, hnames, toAvro_record he (by decide) hnames⟩

/-- A 0.3 event with an extension named `dataschema`, a name 0.3 does not reserve: the record's
`dataschema` is the extension's, where the event has no schema. -/
theorem toAvro_dataschemaExtension :
    let calls := [Setter.specVersion "0.3" [], Setter.extension "dataschema" (.string "x")]
    let e := Event.new.run (fun _ => true) calls
    Event.new.RunValid (fun _ => true) calls ∧ e.extensions.RangeOrder [⟨"dataschema", .string "x"⟩] ∧
      e.dataSchema = "" ∧
      (toAvro [⟨"dataschema", .string "x"⟩] e).toOption.map (fun r => r.attributes.lookup Avro.dataschema) =
        some (some (.string "x")) := by
  decide

end CloudEvents
