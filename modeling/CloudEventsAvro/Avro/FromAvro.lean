import CloudEventsAvro.Avro.Record
import CloudEventsAvro.Sdk.Event
import CloudEventsAvro.Go.TimeParse

/-!
# `Avro.FromAvro` — from a Binary Record back to an SDK event

`fromAvro` is `FromAvro` (`avro.go`, lines 157–250): a new event, the four required attributes read
by key, then the loop over the attribute map in the order Go's `range` visits it, then the payload.
`fromAvroStep` is one pass of the loop, `decodeData` the payload's type switch.

The loop has two kinds of outcome, and they do not mix:

- an entry is an error whatever was read before it: a time string neither layout parses, or a value of
  an unsupported type under a key outside the eight (`attributeError`);
- any other entry is handed to a setter (`applyEntry`), and what the setter refuses goes to the event's
  `FieldErrors`, which `FromAvro` never looks at.

So the loop is the first error of the order, if there is one, and otherwise a plain fold of the setters
(`foldlM_fromAvroStep`). Whether it fails does not depend on the order; the event it builds does only
through setters that write the same place.
-/

namespace CloudEvents

open Go Avro

/-- `FromAvro`'s errors. -/
inductive FromAvroError
  /-- `failed to parse time attribute: %w`, for the text that neither layout parses -/
  | parseTime (value : String)
  /-- `failed to convert extension %s: %w` -/
  | convertExtension (name err : String)
  /-- `failed to marshal map data: %w` -/
  | marshalData (err : String)
  deriving DecidableEq

/-- The time attribute's parse: `RFC3339Nano`, then `RFC3339` when that fails. -/
def parseTime (sv : String) : Option Time :=
  match parse RFC3339Nano sv with
  | some t => some t
  | none => parse RFC3339 sv

/-- The payload's type switch (`avro.go`, lines 226–247); `none` leaves `DataEncoded` unset.
`jsonMarshal` is `json.Marshal`. -/
def decodeData (jsonMarshal : Map Value → Except String Bytes) : Data → Except FromAvroError (Option Bytes)
  | .nil => .ok none
  | .bytes d => .ok (some d)
  | .string d => .ok (some (utf8Bytes d))
  | .map d =>
    match d.lookup "bytes" with
    | some (.bytes b) => .ok (some b)
    | _ =>
      match d.lookup "string" with
      | some (.string s) => .ok (some (utf8Bytes s))
      | _ =>
        match jsonMarshal d with
        | .ok b => .ok (some b)
        | .error err => .error (.marshalData err)
  | .other _ => .ok none

section

variable (uriOk : String → Bool)

/-- One pass of `FromAvro`'s attribute loop (`avro.go`, lines 183–222). -/
def fromAvroStep (e : Event) (entry : Σ _ : String, Value) : Except FromAvroError Event :=
  let name := entry.1
  let value := entry.2
  if name = specversion ∨ name = Avro.id ∨ name = Avro.source ∨ name = typ then .ok e
  else if name = datacontenttype then
    .ok (match value with
      | .string sv => e.setDataContentType sv
      | _ => e)
  else if name = dataschema then
    .ok (match value with
      | .string sv => e.setDataSchema uriOk sv
      | _ => e)
  else if name = Avro.subject then
    .ok (match value with
      | .string sv => e.setSubject sv
      | _ => e)
  else if name = Avro.time then
    match value with
    | .string sv =>
      match parseTime sv with
      | some t => .ok (e.setTime t)
      | none => .error (.parseTime sv)
    | _ => .ok e
  else
    match extensionValueFrom value with
    | .ok v => .ok (e.setExtension name v)
    | .error err => .error (.convertExtension name err)

/-- The required attributes, read by key before the loop (`avro.go`, lines 158–180). A new event has
no extensions, so its conversion to 0.3 visits none. -/
def readRequired (attributes : Map Value) : Event :=
  let e := Event.new
  let e := match attributes.lookup specversion with
    | some (.string sv) => e.setSpecVersion [] sv
    | _ => e
  let e := match attributes.lookup Avro.id with
    | some (.string sv) => e.setID sv
    | _ => e
  let e := match attributes.lookup Avro.source with
    | some (.string sv) => e.setSource uriOk sv
    | _ => e
  match attributes.lookup typ with
  | some (.string sv) => e.setType sv
  | _ => e

/-- `FromAvro`, the attribute map visited in the order `ord`. -/
def fromAvro (jsonMarshal : Map Value → Except String Bytes) (ord : List (Σ _ : String, Value))
    (record : CloudEventRecord) : Except FromAvroError Event := do
  let e ← ord.foldlM (fromAvroStep uriOk) (readRequired uriOk record.attributes)
  let d ← decodeData jsonMarshal record.data
  pure (match d with
    | some d => { e with dataEncoded := some d }
    | none => e)

/-! ## The two outcomes of an entry -/

/-- The error an entry makes the loop return, whatever it has read before. -/
def attributeError (entry : Σ _ : String, Value) : Option FromAvroError :=
  let name := entry.1
  if name = specversion ∨ name = Avro.id ∨ name = Avro.source ∨ name = typ then none
  else if name = datacontenttype then none
  else if name = dataschema then none
  else if name = Avro.subject then none
  else if name = Avro.time then
    match entry.2 with
    | .string sv => if parseTime sv = none then some (.parseTime sv) else none
    | _ => none
  else
    match extensionValueFrom entry.2 with
    | .ok _ => none
    | .error err => some (.convertExtension name err)

/-- What an entry that is not an error does to the event: one setter call, or nothing. -/
def applyEntry (e : Event) (entry : Σ _ : String, Value) : Event :=
  match fromAvroStep uriOk e entry with
  | .ok e' => e'
  | .error _ => e

/-- The setter call an entry makes under a context of version `ver`, when it makes one. -/
def entryWrite (ver : SpecVersion) (entry : Σ _ : String, Value) : Option SetterWrite :=
  let name := entry.1
  if name = specversion ∨ name = Avro.id ∨ name = Avro.source ∨ name = typ then none
  else if name = datacontenttype then
    match entry.2 with
    | .string sv => some ⟨"datacontenttype", .ok (),
        fun c => { c with dataContentType := EventContext.optional sv }⟩
    | _ => none
  else if name = dataschema then
    match entry.2 with
    | .string sv => some ⟨"dataschema",
        if trimSpace sv ≠ "" ∧ uriOk (trimSpace sv) = false then .error (.uri (trimSpace sv)) else .ok (),
        fun c => { c with dataSchema := EventContext.optional sv }⟩
    | _ => none
  else if name = Avro.subject then
    match entry.2 with
    | .string sv => some ⟨"subject", .ok (), fun c => { c with subject := EventContext.optional sv }⟩
    | _ => none
  else if name = Avro.time then
    match entry.2 with
    | .string sv => (parseTime sv).map fun t =>
        ⟨"time", .ok (), fun c => { c with time := if t.IsZero then none else some t }⟩
    | _ => none
  else
    match extensionValueFrom entry.2 with
    | .ok v => some ⟨"extension:" ++ name, EventContext.extensionOutcome ver name v,
        EventContext.extensionChange (EventContext.extensionKey ver name) v⟩
    | .error _ => none

end

variable {uriOk : String → Bool}

/-! ## The keys of the loop

The loop tells six kinds of key apart: the four required ones, which it skips, each of the four
optional ones, and every other key, an extension's. Each lemma below evaluates one function of the loop
on one kind, and the proofs that follow split on `key_cases` once. -/

theorem key_cases (name : String) :
    name ∈ requiredKeys ∨ name = datacontenttype ∨ name = dataschema ∨ name = Avro.subject ∨
      name = Avro.time ∨ name ∉ reservedKeys := by
  by_cases h : name ∈ reservedKeys
  · simp only [reservedKeys, List.mem_append, List.mem_cons, List.mem_singleton, List.not_mem_nil,
      or_false] at h
    rcases h with h | h | h | h | h <;> simp [h]
  · exact .inr (.inr (.inr (.inr (.inr h))))

theorem fromAvroStep_time (e : Event) (s : String) :
    fromAvroStep uriOk e ⟨Avro.time, .string s⟩ =
      match parseTime s with
      | some t => .ok (e.setTime t)
      | none => .error (.parseTime s) :=
  rfl

theorem attributeError_time (s : String) :
    attributeError ⟨Avro.time, .string s⟩ = if parseTime s = none then some (.parseTime s) else none :=
  rfl

theorem entryWrite_time (ver : SpecVersion) (s : String) :
    entryWrite uriOk ver ⟨Avro.time, .string s⟩ = (parseTime s).map fun t =>
      ⟨"time", .ok (), fun c => { c with time := if t.IsZero then none else some t }⟩ :=
  rfl

theorem fromAvroStep_extension {k : String} (hk : k ∉ reservedKeys) (e : Event) (v : Value) :
    fromAvroStep uriOk e ⟨k, v⟩ =
      match extensionValueFrom v with
      | .ok v' => .ok (e.setExtension k v')
      | .error err => .error (.convertExtension k err) := by
  simp only [reservedKeys, requiredKeys, List.cons_append, List.nil_append, List.mem_cons,
    List.mem_singleton, not_or] at hk
  simp only [fromAvroStep, hk, or_self, if_false]

/-- An entry outside the eight keys is an error exactly when its value does not convert. -/
theorem attributeError_extension {k : String} (hk : k ∉ reservedKeys) (v : Value) :
    attributeError ⟨k, v⟩ =
      match extensionValueFrom v with
      | .ok _ => none
      | .error err => some (.convertExtension k err) := by
  simp only [reservedKeys, requiredKeys, List.cons_append, List.nil_append, List.mem_cons,
    List.mem_singleton, not_or] at hk
  simp [attributeError, hk]

/-- An entry outside the eight keys is handed to `SetExtension` under its own name when its value
converts. -/
theorem entryWrite_extension {ver : SpecVersion} {k : String} (hk : k ∉ reservedKeys) (v : Value) :
    entryWrite uriOk ver ⟨k, v⟩ =
      match extensionValueFrom v with
      | .ok v' => some ⟨"extension:" ++ k, EventContext.extensionOutcome ver k v',
          EventContext.extensionChange (EventContext.extensionKey ver k) v'⟩
      | .error _ => none := by
  simp only [reservedKeys, requiredKeys, List.cons_append, List.nil_append, List.mem_cons,
    List.mem_singleton, not_or] at hk
  simp [entryWrite, hk]

theorem mem_requiredKeys {name : String} (h : name ∈ requiredKeys) :
    name = specversion ∨ name = Avro.id ∨ name = Avro.source ∨ name = typ := by
  simpa [requiredKeys] using h

/-! ## The two outcomes of an entry -/

theorem fromAvroStep_eq (e : Event) (x : Σ _ : String, Value) :
    fromAvroStep uriOk e x =
      match attributeError x with
      | some err => .error err
      | none => .ok (applyEntry uriOk e x) := by
  obtain ⟨name, value⟩ := x
  rcases key_cases name with h | rfl | rfl | rfl | rfl | h
  · rcases mem_requiredKeys h with rfl | rfl | rfl | rfl <;> rfl
  · rfl
  · rfl
  · rfl
  · cases value <;> try rfl
    next sv => cases h : parseTime sv <;> simp [fromAvroStep_time, attributeError_time, applyEntry, h]
  · simp only [applyEntry, fromAvroStep_extension h, attributeError_extension h]
    cases extensionValueFrom value <;> rfl

/-- **The loop.** The first error of the order, if there is one; otherwise the setters' fold. -/
theorem foldlM_fromAvroStep (ord : List (Σ _ : String, Value)) (e : Event) :
    ord.foldlM (fromAvroStep uriOk) e =
      match ord.findSome? attributeError with
      | some err => .error err
      | none => .ok (ord.foldl (applyEntry uriOk) e) := by
  induction ord generalizing e with
  | nil => rfl
  | cons x ord ih =>
    rw [List.foldlM_cons, fromAvroStep_eq, List.findSome?_cons]
    cases attributeError x with
    | some err => rfl
    | none => exact ih _

/-- What an entry does is the setter call `entryWrite` names. -/
theorem applyEntry_eq (e : Event) (x : Σ _ : String, Value) :
    applyEntry uriOk e x =
      match entryWrite uriOk e.context.specVersion x with
      | none => e
      | some w => w.run e := by
  obtain ⟨name, value⟩ := x
  rcases key_cases name with h | rfl | rfl | rfl | rfl | h
  · rcases mem_requiredKeys h with rfl | rfl | rfl | rfl <;> rfl
  · cases value <;> rfl
  · cases value <;> try rfl
    exact Event.setDataSchema_eq uriOk e _
  · cases value <;> rfl
  · cases value <;> try rfl
    next sv =>
      simp only [applyEntry, fromAvroStep_time, entryWrite_time]
      cases parseTime sv <;> rfl
  · rw [applyEntry, fromAvroStep_extension h, entryWrite_extension h]
    cases extensionValueFrom value with
    | ok v => exact Event.setExtension_eq e name v
    | error => rfl

/-! ## What an entry writes -/

/-- **The setter calls of the loop**: one of the four optional attributes, or the extension named by
the key, which lies outside the eight. -/
theorem entryWrite_some {ver : SpecVersion} {x : Σ _ : String, Value} {w : SetterWrite}
    (h : entryWrite uriOk ver x = some w) :
    (x.1 = datacontenttype ∧ w.field = "datacontenttype" ∧
        ∃ s, w.change = fun c => { c with dataContentType := s }) ∨
      (x.1 = dataschema ∧ w.field = "dataschema" ∧ ∃ s, w.change = fun c => { c with dataSchema := s }) ∨
      (x.1 = Avro.subject ∧ w.field = "subject" ∧ ∃ s, w.change = fun c => { c with subject := s }) ∨
      (x.1 = Avro.time ∧ w.field = "time" ∧ ∃ t, w.change = fun c => { c with time := t }) ∨
      (x.1 ∉ reservedKeys ∧ w.field = "extension:" ++ x.1 ∧
        ∃ v, w.change = EventContext.extensionChange (EventContext.extensionKey ver x.1) v) := by
  obtain ⟨name, value⟩ := x
  rcases key_cases name with hk | rfl | rfl | rfl | rfl | hk
  · rcases mem_requiredKeys hk with rfl | rfl | rfl | rfl <;> cases h
  · cases value <;> cases h; exact .inl ⟨rfl, rfl, _, rfl⟩
  · cases value <;> cases h; exact .inr (.inl ⟨rfl, rfl, _, rfl⟩)
  · cases value <;> cases h; exact .inr (.inr (.inl ⟨rfl, rfl, _, rfl⟩))
  · cases value <;> try cases h
    rw [entryWrite_time] at h
    obtain ⟨t, -, rfl⟩ := Option.map_eq_some'.mp h
    exact .inr (.inr (.inr (.inl ⟨rfl, rfl, _, rfl⟩)))
  · rw [entryWrite_extension hk] at h
    split at h
    · cases h
      exact .inr (.inr (.inr (.inr ⟨hk, rfl, _, rfl⟩)))
    · cases h

theorem extension_field_ne (n s : String) (h : s.data.head? ≠ some 'e') : "extension:" ++ n ≠ s := by
  rintro rfl; exact h rfl

/-- Entries at different keys make setter calls at different fields. -/
theorem entryWrite_field_ne {ver : SpecVersion} {x y : Σ _ : String, Value} {wx wy : SetterWrite}
    (hx : entryWrite uriOk ver x = some wx) (hy : entryWrite uriOk ver y = some wy) (hxy : x.1 ≠ y.1) :
    wx.field ≠ wy.field := by
  rcases entryWrite_some hx with ⟨hx1, hfx, -⟩ | ⟨hx1, hfx, -⟩ | ⟨hx1, hfx, -⟩ | ⟨hx1, hfx, -⟩ |
      ⟨hx1, hfx, -⟩ <;>
    rcases entryWrite_some hy with ⟨hy1, hfy, -⟩ | ⟨hy1, hfy, -⟩ | ⟨hy1, hfy, -⟩ | ⟨hy1, hfy, -⟩ |
      ⟨hy1, hfy, -⟩ <;>
    rw [hfx, hfy] <;>
    first
    | exact absurd (hx1.trans hy1.symm) hxy
    | decide
    | exact extension_field_ne _ _ (by decide)
    | exact Ne.symm (extension_field_ne _ _ (by decide))
    | exact fun h => hxy (by simpa [String.ext_iff] using h)

/-- Entries at different keys make setter calls whose changes commute, as long as two keys outside the
eight are not stored under one extension key. -/
theorem entryWrite_change_comm {ver : SpecVersion} {x y : Σ _ : String, Value} {wx wy : SetterWrite}
    (hx : entryWrite uriOk ver x = some wx) (hy : entryWrite uriOk ver y = some wy) (hxy : x.1 ≠ y.1)
    (hkey : x.1 ∉ reservedKeys → y.1 ∉ reservedKeys →
      EventContext.extensionKey ver x.1 ≠ EventContext.extensionKey ver y.1) (c : EventContext) :
    wx.change (wy.change c) = wy.change (wx.change c) := by
  rcases entryWrite_some hx with ⟨hx1, -, _, hcx⟩ | ⟨hx1, -, _, hcx⟩ | ⟨hx1, -, _, hcx⟩ |
      ⟨hx1, -, _, hcx⟩ | ⟨hx1, -, _, hcx⟩ <;>
    rcases entryWrite_some hy with ⟨hy1, -, _, hcy⟩ | ⟨hy1, -, _, hcy⟩ | ⟨hy1, -, _, hcy⟩ |
      ⟨hy1, -, _, hcy⟩ | ⟨hy1, -, _, hcy⟩ <;>
    rw [hcx, hcy] <;>
    first
    | exact absurd (hx1.trans hy1.symm) hxy
    | rfl
    | simp only [EventContext.extensionChange, EventContext.extensionsChange_comm (hkey hx1 hy1)]

/-- What a setter call of the loop leaves alone: the spec version and the required attributes always,
an optional attribute unless the entry is at its key, and every extension but the one the entry names. -/
theorem entryWrite_keeps {ver : SpecVersion} {x : Σ _ : String, Value} {w : SetterWrite}
    (h : entryWrite uriOk ver x = some w) (c : EventContext) :
    (w.change c).specVersion = c.specVersion ∧ (w.change c).id = c.id ∧ (w.change c).source = c.source ∧
      (w.change c).type = c.type ∧
      (x.1 ≠ datacontenttype → (w.change c).dataContentType = c.dataContentType) ∧
      (x.1 ≠ dataschema → (w.change c).dataSchema = c.dataSchema) ∧
      (x.1 ≠ Avro.subject → (w.change c).subject = c.subject) ∧
      (x.1 ≠ Avro.time → (w.change c).time = c.time) ∧
      ∀ k, (x.1 ∈ reservedKeys ∨ k ≠ EventContext.extensionKey ver x.1) →
        (w.change c).extensions.lookup k = c.extensions.lookup k := by
  rcases entryWrite_some h with ⟨hx, -, _, hc⟩ | ⟨hx, -, _, hc⟩ | ⟨hx, -, _, hc⟩ | ⟨hx, -, _, hc⟩ |
      ⟨hx, -, v, hc⟩ <;> rw [hc]
  any_goals simp [hx]
  exact ⟨rfl, rfl, rfl, rfl, fun _ => rfl, fun _ => rfl, fun _ => rfl, fun _ => rfl,
    fun k hk => EventContext.lookup_extensionsChange_ne hk _ _⟩

/-- A place of the context the setter call of an entry leaves alone keeps its value. -/
theorem applyEntry_context_frame {α : Type} (Q : EventContext → α) {e : Event} {x : Σ _ : String, Value}
    (h : ∀ w, entryWrite uriOk e.context.specVersion x = some w → ∀ c, Q (w.change c) = Q c) :
    Q (applyEntry uriOk e x).context = Q e.context := by
  rw [applyEntry_eq]
  cases hw : entryWrite uriOk e.context.specVersion x with
  | none => rfl
  | some w =>
    rw [SetterWrite.run_context]
    split
    · exact h w hw _
    · rfl

/-- No entry of the loop changes the spec version. -/
theorem applyEntry_specVersion (e : Event) (x : Σ _ : String, Value) :
    (applyEntry uriOk e x).context.specVersion = e.context.specVersion :=
  applyEntry_context_frame (·.specVersion) fun _ hw c => (entryWrite_keeps hw c).1

/-- **Two entries commute**, unless they are keys outside the eight that the event's version stores under
one extension key. -/
theorem applyEntry_comm {x y : Σ _ : String, Value} (e : Event) (hxy : x.1 ≠ y.1)
    (hkey : x.1 ∉ reservedKeys → y.1 ∉ reservedKeys →
      EventContext.extensionKey e.context.specVersion x.1 ≠ EventContext.extensionKey e.context.specVersion y.1) :
    applyEntry uriOk (applyEntry uriOk e x) y = applyEntry uriOk (applyEntry uriOk e y) x := by
  rw [applyEntry_eq (applyEntry uriOk e x), applyEntry_eq (applyEntry uriOk e y),
    applyEntry_specVersion, applyEntry_specVersion, applyEntry_eq e x, applyEntry_eq e y]
  cases hx : entryWrite uriOk e.context.specVersion x <;>
    cases hy : entryWrite uriOk e.context.specVersion y
  case some.some wx wy =>
    exact (SetterWrite.run_comm (entryWrite_field_ne hx hy hxy) (entryWrite_change_comm hx hy hxy hkey) e).symm
  all_goals rfl

/-! ## Observing the loop

What the loop leaves in a place of the event is what the one entry that writes the place leaves there
(`foldl_applyEntry_observe`), and a place no entry writes keeps its value (`foldl_applyEntry_frame`).
Both hold of the events of the version the loop starts from, which no entry changes. -/

section Observe

variable {α : Type} (P : Event → α) {ver : SpecVersion}

/-- A place no entry of the order writes keeps its value through the loop. -/
theorem foldl_applyEntry_frame {ord : List (Σ _ : String, Value)} {e : Event}
    (he : e.context.specVersion = ver)
    (h : ∀ y ∈ ord, ∀ e', e'.context.specVersion = ver → P (applyEntry uriOk e' y) = P e') :
    P (ord.foldl (applyEntry uriOk) e) = P e := by
  induction ord generalizing e with
  | nil => rfl
  | cons y ord ih =>
    rw [List.foldl_cons, ih ((applyEntry_specVersion e y).trans he) fun z hz => h z (.tail _ hz),
      h y (.head _) e he]

theorem foldl_applyEntry_specVersion (ord : List (Σ _ : String, Value)) (e : Event) :
    (ord.foldl (applyEntry uriOk) e).context.specVersion = e.context.specVersion :=
  foldl_applyEntry_frame (fun e => e.context.specVersion) rfl fun y _ e' _ => applyEntry_specVersion e' y

/-- **The loop leaves a place as its one writer leaves it**: when the entries at other keys leave the
place alone, and what the entry `x` leaves there depends only on what was there before. -/
theorem foldl_applyEntry_observe {ord : List (Σ _ : String, Value)} (hnd : ord.NodupKeys) {e : Event}
    (he : e.context.specVersion = ver) {x : Σ _ : String, Value} (hx : x ∈ ord)
    (hother : ∀ y ∈ ord, y.1 ≠ x.1 → ∀ e', e'.context.specVersion = ver → P (applyEntry uriOk e' y) = P e')
    (hlocal : ∀ e₁ e₂, e₁.context.specVersion = ver → e₂.context.specVersion = ver → P e₁ = P e₂ →
      P (applyEntry uriOk e₁ x) = P (applyEntry uriOk e₂ x)) :
    P (ord.foldl (applyEntry uriOk) e) = P (applyEntry uriOk e x) := by
  induction ord generalizing e with
  | nil => cases hx
  | cons y ord ih =>
    rw [List.nodupKeys_cons] at hnd
    have hy : (applyEntry uriOk e y).context.specVersion = ver := (applyEntry_specVersion e y).trans he
    rw [List.foldl_cons]
    rcases List.mem_cons.mp hx with rfl | hx
    · exact foldl_applyEntry_frame P hy fun z hz =>
        hother z (.tail _ hz) fun h => hnd.1 (h ▸ List.mem_keys_of_mem hz)
    · have hxy : y.1 ≠ x.1 := fun h => hnd.1 (h ▸ List.mem_keys_of_mem hx)
      rw [ih hnd.2 hy hx fun z hz => hother z (.tail _ hz)]
      exact hlocal _ _ hy he (hother y (.head _) hxy e he)

/-- **A place one key writes**: when no entry at another key writes the place `Q`, and the entry at `k`
leaves there what `f` makes of its value and the old content, the loop leaves there what `f` makes of
the record's value at `k`, or the old content when the record has no `k`. -/
theorem foldl_applyEntry_place (Q : EventContext → α) (k : String) (f : Value → α → α) {m : Map Value}
    {ord : List (Σ _ : String, Value)} (hord : m.RangeOrder ord) (e : Event)
    (hkeep : ∀ y ∈ ord, y.1 ≠ k → ∀ w, entryWrite uriOk e.context.specVersion y = some w →
      ∀ c, Q (w.change c) = Q c)
    (hset : ∀ v, m.lookup k = some v → ∀ e', e'.context.specVersion = e.context.specVersion →
      Q (applyEntry uriOk e' ⟨k, v⟩).context = f v (Q e'.context)) :
    Q (ord.foldl (applyEntry uriOk) e).context =
      match m.lookup k with
      | some v => f v (Q e.context)
      | none => Q e.context := by
  have hother : ∀ y ∈ ord, y.1 ≠ k → ∀ e', e'.context.specVersion = e.context.specVersion →
      Q (applyEntry uriOk e' y).context = Q e'.context := fun y hy hyk e' he' =>
    applyEntry_context_frame Q fun w hw => hkeep y hy hyk w (he' ▸ hw)
  cases hk : m.lookup k with
  | some v =>
    rw [foldl_applyEntry_observe (fun e => Q e.context) hord.nodupKeys rfl (hord.mem_iff.mpr hk) hother
      fun e₁ e₂ h₁ h₂ h => by simp only [hset v hk e₁ h₁, hset v hk e₂ h₂, h]]
    exact hset v hk e rfl
  | none =>
    refine foldl_applyEntry_frame (fun e => Q e.context) rfl fun y hy => hother y hy fun h => ?_
    have hy' := hord.mem_iff.mp hy
    rw [h, hk] at hy'
    cases hy'

end Observe

/-- An entry's setter call writes its field of `FieldErrors` and no other. -/
theorem applyEntry_fieldErrors (e : Event) (x : Σ _ : String, Value) (g : String) :
    (applyEntry uriOk e x).fieldErrors.lookup g =
      match entryWrite uriOk e.context.specVersion x with
      | some w => if g = w.field then fieldErrorOf w.outcome else e.fieldErrors.lookup g
      | none => e.fieldErrors.lookup g := by
  rw [applyEntry_eq]
  cases entryWrite uriOk e.context.specVersion x with
  | none => rfl
  | some w => exact w.run_fieldErrors e g

/-- **Every setter call of the loop leaves its outcome in `FieldErrors`**: its error if it refused,
nothing if it accepted. No entry at another key writes the same field. -/
theorem foldl_applyEntry_fieldErrors {ord : List (Σ _ : String, Value)} (hnd : ord.NodupKeys) (e : Event)
    {x : Σ _ : String, Value} (hx : x ∈ ord) {w : SetterWrite}
    (hw : entryWrite uriOk e.context.specVersion x = some w) :
    (ord.foldl (applyEntry uriOk) e).fieldErrors.lookup w.field = fieldErrorOf w.outcome := by
  rw [foldl_applyEntry_observe (fun e => e.fieldErrors.lookup w.field) hnd rfl hx, applyEntry_fieldErrors, hw]
  · exact if_pos rfl
  · intro y _ hyx e' he'
    simp only [applyEntry_fieldErrors, he']
    split
    · next w' hw' => rw [if_neg (entryWrite_field_ne hw hw' (Ne.symm hyx))]
    · rfl
  · intro e₁ e₂ h₁ h₂ _
    simp [applyEntry_fieldErrors, h₁, h₂, hw]

/-- A field no setter call of the loop writes keeps its entry of `FieldErrors`. -/
theorem foldl_applyEntry_fieldErrors_of_ne {ord : List (Σ _ : String, Value)} (e : Event) {g : String}
    (h : ∀ x ∈ ord, ∀ w, entryWrite uriOk e.context.specVersion x = some w → w.field ≠ g) :
    (ord.foldl (applyEntry uriOk) e).fieldErrors.lookup g = e.fieldErrors.lookup g := by
  refine foldl_applyEntry_frame (fun e => e.fieldErrors.lookup g) rfl fun y hy e' he' => ?_
  simp only [applyEntry_fieldErrors, he']
  split
  · next w hw => rw [if_neg (Ne.symm (h y hy w hw))]
  · rfl

@[simp] theorem applyEntry_dataEncoded (e : Event) (x : Σ _ : String, Value) :
    (applyEntry uriOk e x).dataEncoded = e.dataEncoded := by
  rw [applyEntry_eq]
  cases entryWrite uriOk e.context.specVersion x <;> simp

theorem foldl_applyEntry_dataEncoded (ord : List (Σ _ : String, Value)) (e : Event) :
    (ord.foldl (applyEntry uriOk) e).dataEncoded = e.dataEncoded :=
  foldl_applyEntry_frame (fun e => e.dataEncoded) rfl fun _ _ _ _ => applyEntry_dataEncoded _ _

/-! ## `FromAvro` -/

theorem readRequired_dataEncoded (attributes : Map Value) :
    (readRequired uriOk attributes).dataEncoded = none := by
  simp only [readRequired]
  split <;> split <;> split <;> split <;> simp [Event.setID, Event.setSource, Event.setType, Event.new]

/-- **`FromAvro`**: it returns `e` exactly when no entry is an error, the payload converts to `e`'s
bytes, and `e` holds what the loop built. -/
theorem fromAvro_eq_ok_iff (jsonMarshal : Map Value → Except String Bytes) (ord : List (Σ _ : String, Value))
    (r : CloudEventRecord) (e : Event) :
    fromAvro uriOk jsonMarshal ord r = .ok e ↔
      ord.findSome? attributeError = none ∧ decodeData jsonMarshal r.data = .ok e.dataEncoded ∧
        e.context = (ord.foldl (applyEntry uriOk) (readRequired uriOk r.attributes)).context ∧
        e.fieldErrors = (ord.foldl (applyEntry uriOk) (readRequired uriOk r.attributes)).fieldErrors := by
  have hd : (ord.foldl (applyEntry uriOk) (readRequired uriOk r.attributes)).dataEncoded = none :=
    (foldl_applyEntry_dataEncoded ord _).trans (readRequired_dataEncoded r.attributes)
  obtain ⟨c, d, f⟩ := e
  simp only [fromAvro, foldlM_fromAvroStep]
  cases ord.findSome? attributeError with
  | some err => exact iff_of_false (fun h => by cases h) (by simp)
  | none =>
    cases hdd : decodeData jsonMarshal r.data with
    | error err => exact iff_of_false (fun h => by cases h) (by simp)
    | ok d' =>
      simp only [bind, Except.bind, Functor.map, Except.map, pure, Except.pure]
      generalize List.foldl (applyEntry uriOk) (readRequired uriOk r.attributes) ord = E at hd ⊢
      obtain ⟨c', d'', f'⟩ := E
      dsimp only at hd
      subst hd
      cases d' <;> simp [eq_comm] <;> exact and_left_comm

/-! ## What the loop leaves in each attribute -/

section Places

variable {m : Map Value} {ord : List (Σ _ : String, Value)}

/-- The loop leaves the spec version and the required attributes as `readRequired` set them. -/
theorem foldl_applyEntry_required (ord : List (Σ _ : String, Value)) (e : Event) :
    let c := (ord.foldl (applyEntry uriOk) e).context
    c.specVersion = e.context.specVersion ∧ c.id = e.context.id ∧ c.source = e.context.source ∧
      c.type = e.context.type :=
  ⟨foldl_applyEntry_specVersion ord e,
    foldl_applyEntry_frame (·.context.id) rfl fun _ _ _ _ =>
      applyEntry_context_frame (·.id) fun _ hw c => (entryWrite_keeps hw c).2.1,
    foldl_applyEntry_frame (·.context.source) rfl fun _ _ _ _ =>
      applyEntry_context_frame (·.source) fun _ hw c => (entryWrite_keeps hw c).2.2.1,
    foldl_applyEntry_frame (·.context.type) rfl fun _ _ _ _ =>
      applyEntry_context_frame (·.type) fun _ hw c => (entryWrite_keeps hw c).2.2.2.1⟩

theorem foldl_applyEntry_dataContentType (hord : m.RangeOrder ord) (e : Event) :
    (ord.foldl (applyEntry uriOk) e).context.dataContentType =
      match m.lookup datacontenttype with
      | some (.string s) => EventContext.optional s
      | _ => e.context.dataContentType := by
  rw [foldl_applyEntry_place (·.dataContentType) datacontenttype
    (fun v old => match v with | .string s => EventContext.optional s | _ => old) hord e
    (fun _ _ hy _ hw c => (entryWrite_keeps hw c).2.2.2.2.1 hy) (fun v _ _ _ => by cases v <;> rfl)]
  cases m.lookup datacontenttype with
  | none => rfl
  | some v => cases v <;> rfl

theorem foldl_applyEntry_subject (hord : m.RangeOrder ord) (e : Event) :
    (ord.foldl (applyEntry uriOk) e).context.subject =
      match m.lookup Avro.subject with
      | some (.string s) => EventContext.optional s
      | _ => e.context.subject := by
  rw [foldl_applyEntry_place (·.subject) Avro.subject
    (fun v old => match v with | .string s => EventContext.optional s | _ => old) hord e
    (fun _ _ hy _ hw c => (entryWrite_keeps hw c).2.2.2.2.2.2.1 hy) (fun v _ _ _ => by cases v <;> rfl)]
  cases m.lookup Avro.subject with
  | none => rfl
  | some v => cases v <;> rfl

/-- `dataschema` is set when `url.Parse` accepts the trimmed text, or the text is blank. -/
theorem foldl_applyEntry_dataSchema (hord : m.RangeOrder ord) (e : Event) :
    (ord.foldl (applyEntry uriOk) e).context.dataSchema =
      match m.lookup dataschema with
      | some (.string s) =>
        if trimSpace s ≠ "" ∧ uriOk (trimSpace s) = false then e.context.dataSchema
        else EventContext.optional s
      | _ => e.context.dataSchema := by
  rw [foldl_applyEntry_place (·.dataSchema) dataschema
    (fun v old => match v with
      | .string s => if trimSpace s ≠ "" ∧ uriOk (trimSpace s) = false then old else EventContext.optional s
      | _ => old) hord e
    (fun _ _ hy _ hw c => (entryWrite_keeps hw c).2.2.2.2.2.1 hy) (fun v _ e' _ => ?_)]
  · cases m.lookup dataschema with
    | none => rfl
    | some v => cases v <;> rfl
  · cases v <;> try rfl
    show (e'.setDataSchema uriOk _).context.dataSchema = _
    rw [Event.setDataSchema_eq, SetterWrite.run_context]
    dsimp only
    split_ifs <;> rfl

/-- `time` is set to the instant its text parses to, unset when that is the zero time. -/
theorem foldl_applyEntry_time (hord : m.RangeOrder ord) (e : Event) :
    (ord.foldl (applyEntry uriOk) e).context.time =
      match m.lookup Avro.time with
      | some (.string s) =>
        match parseTime s with
        | some t => if t.IsZero then none else some t
        | none => e.context.time
      | _ => e.context.time := by
  rw [foldl_applyEntry_place (·.time) Avro.time
    (fun v old => match v with
      | .string s => match parseTime s with
        | some t => if t.IsZero then none else some t
        | none => old
      | _ => old) hord e
    (fun _ _ hy _ hw c => (entryWrite_keeps hw c).2.2.2.2.2.2.2.1 hy) (fun v _ e' _ => ?_)]
  · cases m.lookup Avro.time with
    | none => rfl
    | some v => cases v <;> rfl
  · cases v <;> try rfl
    simp only [applyEntry, fromAvroStep_time]
    cases parseTime _ <;> rfl

end Places

end CloudEvents
