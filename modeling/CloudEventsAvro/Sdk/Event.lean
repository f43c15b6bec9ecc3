import CloudEventsAvro.Sdk.Types

/-!
# `Sdk.Event` — the SDK event the binding reads and fills

`ToAvro` reads an `event.Event` through its getters, and `FromAvro` fills a fresh one through its
setters. The `event` package (`v2/event` of this repository) is not under src/, so everything here is
modelled from the spec and from what the binding's callers rely on: the structured event of spec §3
(required, optional and extension attributes and a payload), in the two spec versions the SDK
implements, 0.3 and 1.0.

- `EventContext` holds both versions' attributes in one record; the 0.3-only `datacontentencoding`
  cannot be set under 1.0 (`encoding_v1`). 1.0's `dataschema` and 0.3's `schemaurl` share a field.
- The context setters trim and check their argument and return the new context or an error. URIs are
  kept by their text; `uriOk` is whether Go's `url.Parse` accepts a text.
- `Event.update` is how every `Event` setter reports: the error goes to `FieldErrors` under the field's
  name, success clears it. Nothing else sees the error.
- `setExtension` differs between the versions: 1.0 checks the name's characters, lower-cases it, and
  refuses the 1.0 attribute names; 0.3 refuses the 0.3 attribute names and keeps the name as given.
- `setSpecVersion` converts the context. The conversions walk the extension map, so they take the order
  of Go's `range` as an argument.
-/

namespace CloudEvents

open Go

/-- Modelled from the spec: the CloudEvents spec versions the SDK implements. -/
inductive SpecVersion
  | v03
  | v1
  deriving DecidableEq

/-- Modelled from the spec: `CloudEventsVersionV03` and `CloudEventsVersionV1`. -/
def SpecVersion.text : SpecVersion → String
  | .v03 => "0.3"
  | .v1 => "1.0"

/-- Modelled from the spec: the attribute names a 1.0 extension may not take (`specV1Attributes`). -/
def specV1Attributes : List String :=
  ["specversion", "type", "source", "subject", "id", "time", "dataschema", "datacontenttype"]

/-- Modelled from the spec: the attribute names a 0.3 extension may not take (`specV03Attributes`). -/
def specV03Attributes : List String :=
  ["type", "source", "subject", "id", "time", "schemaurl", "datacontenttype", "datacontentencoding"]

/-- Modelled from the spec: the SDK's `validateExtensionName`, non-empty and ASCII letters and digits. -/
def validExtensionName (name : String) : Bool :=
  !name.data.isEmpty && name.data.all Char.isAlphanum

/-- Modelled from the spec: why an SDK setter refuses its argument. -/
inductive FieldError
  /-- a spec version other than 0.3 and 1.0 -/
  | specVersion (v : String)
  /-- an `id` that is empty once trimmed -/
  | emptyID
  /-- a text `url.Parse` rejects -/
  | uri (text : String)
  /-- an extension name that is empty or not ASCII letters and digits -/
  | extensionName (name : String)
  /-- an extension name that is a spec attribute's -/
  | reservedName (name : String)
  /-- an extension value `types.Validate` rejects -/
  | value (err : InvalidValue)
  deriving DecidableEq

/-- Modelled from the spec: `EventContextV03` and `EventContextV1` in one record. -/
structure EventContext where
  specVersion : SpecVersion := .v1
  id : String := ""
  /-- the text of the `source` URI-reference -/
  source : String := ""
  type : String := ""
  dataContentType : Option String := none
  /-- 1.0's `dataschema`, 0.3's `schemaurl` -/
  dataSchema : Option String := none
  subject : Option String := none
  time : Option Time := none
  /-- 0.3's `datacontentencoding` -/
  dataContentEncoding : Option String := none
  extensions : Map ExtValue := ∅
  encoding_v1 : specVersion = .v1 → dataContentEncoding = none
  deriving DecidableEq

/-- Modelled from the spec: `event.Event`, its context, its payload bytes and its field errors. -/
structure Event where
  context : EventContext := { encoding_v1 := fun _ => rfl }
  dataEncoded : Option Bytes := none
  fieldErrors : Map FieldError := ∅
  deriving DecidableEq

/-- Modelled from the spec: `event.New()`, an empty 1.0 event. -/
def Event.new : Event := {}

/-! ## Getters -/

namespace Event

variable (e : Event)

/-- Modelled from the spec: `e.SpecVersion()`. -/
def specVersion : String := e.context.specVersion.text
/-- Modelled from the spec: `e.ID()`. -/
def id : String := e.context.id
/-- Modelled from the spec: `e.Source()`. -/
def source : String := e.context.source
/-- Modelled from the spec: `e.Type()`. -/
def type : String := e.context.type
/-- Modelled from the spec: `e.DataContentType()`: empty when unset. -/
def dataContentType : String := e.context.dataContentType.getD ""
/-- Modelled from the spec: `e.DataSchema()`: empty when unset. -/
def dataSchema : String := e.context.dataSchema.getD ""
/-- Modelled from the spec: `e.Subject()`: empty when unset. -/
def subject : String := e.context.subject.getD ""
/-- Modelled from the spec: `e.Time()`: `time.Time{}` when unset. -/
def time : Time := e.context.time.getD Time.zero
/-- Modelled from the spec: `e.Extensions()`. -/
def extensions : Map ExtValue := e.context.extensions
/-- Modelled from the spec: `e.Data()`: `none` is a nil slice. -/
def data : Option Bytes := e.dataEncoded

end Event

/-! ## Context setters -/

namespace EventContext

variable (uriOk : String → Bool) (c : EventContext)

/-- Modelled from the spec: `SetID`: trimmed, and not empty. -/
def setID (id : String) : Except FieldError EventContext :=
  let id := trimSpace id
  if id = "" then .error .emptyID else .ok { c with id := id }

/-- Modelled from the spec: `SetSource`: a text `url.Parse` accepts. -/
def setSource (s : String) : Except FieldError EventContext :=
  if uriOk s then .ok { c with source := s } else .error (.uri s)

/-- Modelled from the spec: `SetType`: trimmed. -/
def setType (t : String) : Except FieldError EventContext :=
  .ok { c with type := trimSpace t }

/-- Modelled from the spec: an optional string attribute as the SDK stores it, trimmed, and unset when
empty. -/
def optional (s : String) : Option String :=
  let s := trimSpace s
  if s = "" then none else some s

/-- Modelled from the spec: `SetDataContentType`. -/
def setDataContentType (ct : String) : Except FieldError EventContext :=
  .ok { c with dataContentType := optional ct }

/-- Modelled from the spec: `SetSubject`. -/
def setSubject (s : String) : Except FieldError EventContext :=
  .ok { c with subject := optional s }

/-- Modelled from the spec: `SetDataSchema`: trimmed, unset when empty, else a text `url.Parse` accepts. -/
def setDataSchema (u : String) : Except FieldError EventContext :=
  let u := trimSpace u
  if u = "" then .ok { c with dataSchema := none }
  else if uriOk u then .ok { c with dataSchema := some u } else .error (.uri u)

/-- Modelled from the spec: `SetTime`: the zero time unsets it. -/
def setTime (t : Time) : Except FieldError EventContext :=
  .ok { c with time := if t.IsZero then none else some t }

/-- Modelled from the spec: the tail both versions' `SetExtension` share. `nil` deletes the key, any
other value must pass `types.Validate`. -/
def putExtension (key : String) : Value → Except FieldError EventContext
  | .nil => .ok { c with extensions := c.extensions.erase key }
  | v => match validate v with
    | .ok x => .ok { c with extensions := c.extensions.insert key x }
    | .error err => .error (.value err)

/-- Modelled from the spec: `SetExtension` of `EventContextV1` and of `EventContextV03`. -/
def setExtension (name : String) (v : Value) : Except FieldError EventContext :=
  match c.specVersion with
  | .v1 =>
    if !validExtensionName name then .error (.extensionName name)
    else if toLower name ∈ specV1Attributes then .error (.reservedName name)
    else c.putExtension (toLower name) v
  | .v03 =>
    if toLower name ∈ specV03Attributes then .error (.reservedName name)
    else c.putExtension name v

/-! ## Conversions -/

variable (ord : List (Σ _ : String, ExtValue))

/-- Modelled from the spec: `AsV03`, a 1.0 context's extensions, names lower-cased, in the order `ord`;
a non-empty string under `datacontentencoding` becomes the 0.3 attribute. -/
def asV03 : EventContext :=
  match c.specVersion with
  | .v03 => c
  | .v1 =>
    let moved := ord.foldl (fun (acc : Map ExtValue × Option String) kv =>
      let k := toLower kv.1
      if k = "datacontentencoding" then
        (acc.1, match kv.2 with
          | .string s => if s = "" then acc.2 else some s
          | _ => acc.2)
      else (acc.1.insert k kv.2, acc.2)) (∅, none)
    { c with
      specVersion := .v03, dataContentEncoding := moved.2, extensions := moved.1,
      encoding_v1 := fun h' => nomatch h' }

/-- Modelled from the spec: `AsV1`, a 0.3 context's `datacontentencoding` becomes an extension, then its
extensions follow, names lower-cased, in the order `ord`. -/
def asV1 : EventContext :=
  match c.specVersion with
  | .v1 => c
  | .v03 =>
    let base : Map ExtValue := match c.dataContentEncoding with
      | some enc => (∅ : Map ExtValue).insert "datacontentencoding" (.string enc)
      | none => ∅
    { c with
      specVersion := .v1, dataContentEncoding := none,
      extensions := ord.foldl (fun m kv => m.insert (toLower kv.1) kv.2) base,
      encoding_v1 := fun _ => rfl }

end EventContext

/-! ## Event setters -/

namespace Event

variable (uriOk : String → Bool) (e : Event)

/-- Modelled from the spec: `fieldError`: record `err` under `field`. -/
def fieldError (field : String) (err : FieldError) : Event :=
  { e with fieldErrors := e.fieldErrors.insert field err }

/-- Modelled from the spec: `fieldOK`: clear `field`'s error. -/
def fieldOK (field : String) : Event :=
  { e with fieldErrors := e.fieldErrors.erase field }

/-- Modelled from the spec: how every `Event` setter reports its context setter's outcome, under the
field's name. -/
def update (field : String) : Except FieldError EventContext → Event
  | .ok c => { e with context := c }.fieldOK field
  | .error err => e.fieldError field err

/-- Modelled from the spec: `SetSpecVersion`, converting the context with the extensions visited in the
order `ord`. -/
def setSpecVersion (ord : List (Σ _ : String, ExtValue)) (v : String) : Event :=
  if v = "0.3" then { e with context := e.context.asV03 ord }.fieldOK "specversion"
  else if v = "1.0" then { e with context := e.context.asV1 ord }.fieldOK "specversion"
  else e.fieldError "specversion" (.specVersion v)

/-- Modelled from the spec: `SetID`. -/
def setID (id : String) : Event := e.update "id" (e.context.setID id)
/-- Modelled from the spec: `SetSource`. -/
def setSource (s : String) : Event := e.update "source" (e.context.setSource uriOk s)
/-- Modelled from the spec: `SetType`. -/
def setType (t : String) : Event := e.update "type" (e.context.setType t)
/-- Modelled from the spec: `SetDataContentType`. -/
def setDataContentType (ct : String) : Event :=
  e.update "datacontenttype" (e.context.setDataContentType ct)
/-- Modelled from the spec: `SetDataSchema`. -/
def setDataSchema (u : String) : Event := e.update "dataschema" (e.context.setDataSchema uriOk u)
/-- Modelled from the spec: `SetSubject`. -/
def setSubject (s : String) : Event := e.update "subject" (e.context.setSubject s)
/-- Modelled from the spec: `SetTime`. -/
def setTime (t : Time) : Event := e.update "time" (e.context.setTime t)
/-- Modelled from the spec: `SetExtension`. -/
def setExtension (name : String) (v : Value) : Event :=
  e.update ("extension:" ++ name) (e.context.setExtension name v)

end Event

/-! ## Setters taken apart

Every setter the binding calls decides whether to accept from its argument and the spec version
alone, never from the rest of the event. `SetterWrite` says so: a setter call is its field's name, its
outcome, and its change to the context, and `SetterWrite.run` is how `Event.update` puts them together.
Two such calls commute when they write different fields and their changes commute (`run_comm`). -/

/-- A setter call taken apart. -/
structure SetterWrite where
  field : String
  outcome : Except FieldError Unit
  change : EventContext → EventContext

/-- The call, as `Event.update` makes it. -/
def SetterWrite.run (w : SetterWrite) (e : Event) : Event :=
  e.update w.field (w.outcome.map fun _ => w.change e.context)

theorem Finmap.erase_insert_comm {V : Type} {m : Map V} {a b : String} (v : V) (h : a ≠ b) :
    (m.insert a v).erase b = (m.erase b).insert a v := by
  apply Finmap.ext_lookup
  intro k
  by_cases hb : k = b
  · subst hb; simp [Finmap.lookup_erase, Finmap.lookup_insert_of_ne _ (Ne.symm h)]
  · by_cases ha : k = a
    · subst ha; simp [Finmap.lookup_erase_ne hb]
    · simp [Finmap.lookup_erase_ne hb, Finmap.lookup_insert_of_ne _ ha]

/-- **Calls at different fields with commuting changes commute.** -/
theorem SetterWrite.run_comm {w₁ w₂ : SetterWrite} (hf : w₁.field ≠ w₂.field)
    (hc : ∀ c, w₁.change (w₂.change c) = w₂.change (w₁.change c)) (e : Event) :
    w₁.run (w₂.run e) = w₂.run (w₁.run e) := by
  obtain ⟨f₁, o₁, c₁⟩ := w₁
  obtain ⟨f₂, o₂, c₂⟩ := w₂
  dsimp only at hf hc
  cases o₁ <;> cases o₂ <;>
    simp only [SetterWrite.run, Except.map, Event.update, Event.fieldOK, Event.fieldError] <;>
    simp [hc, Finmap.erase_erase, Finmap.insert_insert_of_ne _ hf, Finmap.erase_insert_comm _ hf,
      Finmap.erase_insert_comm _ (Ne.symm hf)]

/-- The error a setter's outcome leaves in `FieldErrors`, if any. -/
def fieldErrorOf {α : Type} : Except FieldError α → Option FieldError
  | .ok _ => none
  | .error err => some err

/-- `Event.update` writes its field's entry of `FieldErrors` and no other. -/
theorem Event.update_fieldErrors (e : Event) (f g : String) (o : Except FieldError EventContext) :
    (e.update f o).fieldErrors.lookup g = if g = f then fieldErrorOf o else e.fieldErrors.lookup g := by
  by_cases h : g = f
  · subst h; cases o <;> simp [Event.update, Event.fieldOK, Event.fieldError, fieldErrorOf]
  · cases o <;> simp [Event.update, Event.fieldOK, Event.fieldError, h, Finmap.lookup_erase_ne,
      Finmap.lookup_insert_of_ne]

theorem SetterWrite.run_fieldErrors (w : SetterWrite) (e : Event) (g : String) :
    (w.run e).fieldErrors.lookup g = if g = w.field then fieldErrorOf w.outcome else e.fieldErrors.lookup g := by
  rw [SetterWrite.run, Event.update_fieldErrors]
  cases w.outcome <;> rfl

theorem Event.update_context (e : Event) (f : String) (o : Except FieldError EventContext) :
    (e.update f o).context = match o with
      | .ok c => c
      | .error _ => e.context := by
  cases o <;> rfl

/-- An accepted call changes the context, a refused one leaves it. -/
theorem SetterWrite.run_context (w : SetterWrite) (e : Event) :
    (w.run e).context = match w.outcome with
      | .ok _ => w.change e.context
      | .error _ => e.context := by
  obtain ⟨f, o, c⟩ := w
  cases o <;> rfl

@[simp] theorem Event.update_dataEncoded (e : Event) (f : String) (o : Except FieldError EventContext) :
    (e.update f o).dataEncoded = e.dataEncoded := by
  cases o <;> rfl

@[simp] theorem Event.setSpecVersion_dataEncoded (e : Event) (ord : List (Σ _ : String, ExtValue))
    (v : String) : (e.setSpecVersion ord v).dataEncoded = e.dataEncoded := by
  unfold Event.setSpecVersion
  split_ifs <;> rfl

@[simp] theorem SetterWrite.run_dataEncoded (w : SetterWrite) (e : Event) :
    (w.run e).dataEncoded = e.dataEncoded :=
  Event.update_dataEncoded _ _ _

namespace EventContext

/-- Whether `types.Validate` lets `SetExtension` store the value; `nil` deletes. -/
def valueOutcome : Value → Except FieldError Unit
  | .nil => .ok ()
  | v => match validate v with
    | .ok _ => .ok ()
    | .error err => .error (.value err)

/-- Every value of an attribute type passes. -/
@[simp] theorem valueOutcome_toValue (x : ExtValue) : valueOutcome x.toValue = .ok () := by
  cases x <;> rfl

/-- Whether `SetExtension` of a context of version `ver` accepts the call. -/
def extensionOutcome (ver : SpecVersion) (name : String) (v : Value) : Except FieldError Unit :=
  match ver with
  | .v1 =>
    if !validExtensionName name then .error (.extensionName name)
    else if toLower name ∈ specV1Attributes then .error (.reservedName name)
    else valueOutcome v
  | .v03 => if toLower name ∈ specV03Attributes then .error (.reservedName name) else valueOutcome v

/-- The names `SetExtension` of a context of version `ver` accepts, whatever the value. -/
def ExtensionNameAccepted : SpecVersion → String → Prop
  | .v1, name => validExtensionName name = true ∧ toLower name ∉ specV1Attributes
  | .v03, name => toLower name ∉ specV03Attributes

instance : (ver : SpecVersion) → (name : String) → Decidable (ExtensionNameAccepted ver name)
  | .v1, _ => inferInstanceAs (Decidable (_ ∧ _))
  | .v03, _ => inferInstanceAs (Decidable (¬ _))

theorem extensionOutcome_of_accepted {ver : SpecVersion} {name : String} (h : ExtensionNameAccepted ver name)
    (v : Value) : extensionOutcome ver name v = valueOutcome v := by
  cases ver
  · exact if_neg h
  · simp [extensionOutcome, h.1, h.2]

/-- `SetExtension` accepts a call only for a name it accepts. -/
theorem extensionOutcome_accepted {ver : SpecVersion} {name : String} {v : Value} {u : Unit}
    (h : extensionOutcome ver name v = .ok u) : ExtensionNameAccepted ver name := by
  cases ver with
  | v03 => simp only [extensionOutcome] at h; split_ifs at h with h₁; exact h₁
  | v1 => simp only [extensionOutcome] at h; split_ifs at h with h₁ h₂; exact ⟨by simpa using h₁, h₂⟩

/-- The key `SetExtension` of a context of version `ver` stores a name under. -/
def extensionKey : SpecVersion → String → String
  | .v1, name => toLower name
  | .v03, name => name

/-- A name `SetExtension` accepts stays accepted under the key it is stored under. -/
theorem extensionKey_accepted {ver : SpecVersion} {name : String} (h : ExtensionNameAccepted ver name) :
    ExtensionNameAccepted ver (extensionKey ver name) := by
  cases ver
  · exact h
  · refine ⟨?_, by simpa only [extensionKey, toLower_toLower] using h.2⟩
    have h₁ := h.1
    simp only [validExtensionName, toLower, extensionKey, Bool.and_eq_true, Bool.not_eq_true',
      List.isEmpty_eq_false, ne_eq, List.all_eq_true, List.map_eq_nil_iff, List.mem_map] at h₁ ⊢
    exact ⟨h₁.1, by rintro _ ⟨c, hc, rfl⟩; exact isAlphanum_lowerRune (h₁.2 c hc)⟩

/-- What an accepted `SetExtension` does to the extension map. -/
def extensionsChange (key : String) (v : Value) (m : Map ExtValue) : Map ExtValue :=
  match v with
  | .nil => m.erase key
  | v => match validate v with
    | .ok x => m.insert key x
    | .error _ => m

/-- A change leaves every other key of the extension map alone. -/
theorem lookup_extensionsChange_ne {k key : String} (h : k ≠ key) (v : Value) (m : Map ExtValue) :
    (extensionsChange key v m).lookup k = m.lookup k := by
  unfold extensionsChange
  split
  · exact Finmap.lookup_erase_ne h
  · split
    · exact Finmap.lookup_insert_of_ne _ h
    · rfl

/-- A value `types.Validate` keeps is stored under its key. -/
theorem lookup_extensionsChange_self {key : String} {v : Value} {x : ExtValue} (hv : v ≠ .nil)
    (h : validate v = .ok x) (m : Map ExtValue) : (extensionsChange key v m).lookup key = some x := by
  unfold extensionsChange
  split
  · exact absurd rfl hv
  · rw [h]; exact Finmap.lookup_insert _

/-- What a change leaves at a key: the value `types.Validate` made of the new value under the changed
key, or what was there. -/
theorem lookup_extensionsChange_eq_some {key k : String} {v : Value} {m : Map ExtValue} {x : ExtValue}
    (h : (extensionsChange key v m).lookup k = some x) : (k = key ∧ validate v = .ok x) ∨ m.lookup k = some x := by
  by_cases hk : k = key
  · subst hk
    unfold extensionsChange at h
    split at h
    · rw [Finmap.lookup_erase] at h; cases h
    · split at h
      · next x' hx' => rw [Finmap.lookup_insert] at h; cases h; exact .inl ⟨rfl, hx'⟩
      · exact .inr h
  · exact .inr ((lookup_extensionsChange_ne hk v m).symm.trans h)

/-- What a change leaves at a key depends only on what was there. -/
theorem lookup_extensionsChange_congr {key k : String} (v : Value) {m₁ m₂ : Map ExtValue}
    (h : m₁.lookup k = m₂.lookup k) : (extensionsChange key v m₁).lookup k = (extensionsChange key v m₂).lookup k := by
  by_cases hk : k = key
  · subst hk
    unfold extensionsChange
    split
    · simp only [Finmap.lookup_erase]
    · split <;> simp only [Finmap.lookup_insert, h]
  · rw [lookup_extensionsChange_ne hk, lookup_extensionsChange_ne hk, h]

/-- What an accepted `SetExtension` does to the context. -/
def extensionChange (key : String) (v : Value) (c : EventContext) : EventContext :=
  { c with extensions := extensionsChange key v c.extensions }

/-- Changes at different keys commute. -/
theorem extensionsChange_comm {k₁ k₂ : String} (h : k₁ ≠ k₂) (v₁ v₂ : Value) (m : Map ExtValue) :
    extensionsChange k₁ v₁ (extensionsChange k₂ v₂ m) =
      extensionsChange k₂ v₂ (extensionsChange k₁ v₁ m) := by
  unfold extensionsChange
  split <;> split <;> (try split) <;> (try split) <;>
    simp only [Finmap.erase_erase, Finmap.insert_insert_of_ne _ h, Finmap.erase_insert_comm _ h,
      Finmap.erase_insert_comm _ (Ne.symm h)]

theorem putExtension_eq (c : EventContext) (key : String) (v : Value) :
    c.putExtension key v = (valueOutcome v).map fun _ => extensionChange key v c := by
  unfold putExtension valueOutcome extensionChange extensionsChange
  split
  · rfl
  · split <;> rfl

theorem setExtension_eq (c : EventContext) (name : String) (v : Value) :
    c.setExtension name v = (extensionOutcome c.specVersion name v).map
      fun _ => extensionChange (extensionKey c.specVersion name) v c := by
  unfold setExtension extensionOutcome extensionKey
  cases c.specVersion <;> simp only [putExtension_eq] <;> split_ifs <;> rfl

end EventContext

theorem Event.setExtension_eq (e : Event) (name : String) (v : Value) :
    e.setExtension name v =
      SetterWrite.run ⟨"extension:" ++ name, EventContext.extensionOutcome e.context.specVersion name v,
        EventContext.extensionChange (EventContext.extensionKey e.context.specVersion name) v⟩ e := by
  rw [Event.setExtension, EventContext.setExtension_eq]; rfl

theorem Event.setDataSchema_eq (uriOk : String → Bool) (e : Event) (u : String) :
    e.setDataSchema uriOk u =
      SetterWrite.run ⟨"dataschema",
        if trimSpace u ≠ "" ∧ uriOk (trimSpace u) = false then .error (.uri (trimSpace u)) else .ok (),
        fun c => { c with dataSchema := EventContext.optional u }⟩ e := by
  simp only [Event.setDataSchema, EventContext.setDataSchema, SetterWrite.run, EventContext.optional]
  split_ifs <;> simp_all <;> rfl

end CloudEvents
