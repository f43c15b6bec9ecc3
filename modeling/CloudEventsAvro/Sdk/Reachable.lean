import CloudEventsAvro.Sdk.Event

/-!
# `Sdk.Reachable` — the events a program can build with the SDK's setters

A program hands `ToAvro` an event it obtained from `event.New()` through the SDK's setters. `Reachable`
is the set of those events: `Event.new` and everything one more setter call makes of a reachable event.
A conversion between spec versions visits the extensions in an order the program does not choose, so
a call carries its order and `Setter.Valid` asks that it be one Go's `range` may take.

`EventContext.WellFormed` is what the setters leave in every reachable event: trimmed texts, empty
optional attributes unset, URIs that parse, no zero time, and lower-case extension names under 1.0.
It is shown one setter at a time and then, by induction, for every reachable event
(`Reachable.wellFormed`). `Event.run` runs a list of calls, for the traces of concrete events.
-/

namespace CloudEvents

open Go

/-- A call of one of the SDK's setters, with its arguments. -/
inductive Setter
  /-- `SetSpecVersion`, its conversion visiting the extensions in the order `ord` -/
  | specVersion (v : String) (ord : List (Σ _ : String, ExtValue))
  | id (s : String)
  | source (s : String)
  | type (s : String)
  | dataContentType (s : String)
  | dataSchema (s : String)
  | subject (s : String)
  | time (t : Time)
  | extension (name : String) (v : Value)
  /-- an assignment to the public field `DataEncoded` -/
  | data (d : Option Bytes)

section

variable (uriOk : String → Bool)

/-- One setter call. -/
def Event.set (e : Event) : Setter → Event
  | .specVersion v ord => e.setSpecVersion ord v
  | .id s => e.setID s
  | .source s => e.setSource uriOk s
  | .type s => e.setType s
  | .dataContentType s => e.setDataContentType s
  | .dataSchema s => e.setDataSchema uriOk s
  | .subject s => e.setSubject s
  | .time t => e.setTime t
  | .extension name v => e.setExtension name v
  | .data d => { e with dataEncoded := d }

/-- A call Go can make: a conversion visits the extensions in an order `range` may take. -/
def Setter.Valid (e : Event) : Setter → Prop
  | .specVersion _ ord => e.extensions.RangeOrder ord
  | _ => True

instance (e : Event) : (s : Setter) → Decidable (s.Valid e)
  | .specVersion _ ord => inferInstanceAs (Decidable (e.extensions.RangeOrder ord))
  | .id _ | .source _ | .type _ | .dataContentType _ | .dataSchema _ | .subject _ | .time _
  | .extension _ _ | .data _ => isTrue trivial

/-- The events a program can build from `event.New()` with the SDK's setters. -/
inductive Reachable : Event → Prop
  | new : Reachable Event.new
  | set {e : Event} (s : Setter) : s.Valid e → Reachable e → Reachable (e.set uriOk s)

/-- Run setter calls in order. -/
def Event.run (e : Event) : List Setter → Event
  | [] => e
  | s :: calls => (e.set uriOk s).run calls

/-- Every call of a list is one Go can make, at the event it is made on. -/
def Event.RunValid (e : Event) : List Setter → Prop
  | [] => True
  | s :: calls => s.Valid e ∧ (e.set uriOk s).RunValid calls

instance Event.instDecidableRunValid (e : Event) : (calls : List Setter) → Decidable (e.RunValid uriOk calls)
  | [] => isTrue trivial
  | s :: calls => @instDecidableAnd _ _ _ (Event.instDecidableRunValid (e.set uriOk s) calls)

theorem Reachable.run {e : Event} (h : Reachable uriOk e) :
    ∀ {calls : List Setter}, e.RunValid uriOk calls → Reachable uriOk (e.run uriOk calls)
  | [], _ => h
  | s :: _, ⟨hs, hrest⟩ => (Reachable.set s hs h).run hrest

/-! ## The invariant -/

/-- What the setters leave in a context. -/
structure EventContext.WellFormed (c : EventContext) : Prop where
  id_trim : trimSpace c.id = c.id
  source_ok : c.source = "" ∨ uriOk c.source = true
  type_trim : trimSpace c.type = c.type
  dataContentType_ok : ∀ s ∈ c.dataContentType, EventContext.optional s = some s
  dataSchema_ok : ∀ s ∈ c.dataSchema, EventContext.optional s = some s ∧ uriOk s = true
  subject_ok : ∀ s ∈ c.subject, EventContext.optional s = some s
  time_ok : ∀ t ∈ c.time, ¬ t.IsZero
  keys_v1 : c.specVersion = .v1 → ∀ k ∈ c.extensions, toLower k = k

end

namespace EventContext

variable {uriOk : String → Bool} {c c' : EventContext}

/-- A stored optional attribute is its own normal form. -/
theorem optional_eq_some {s t : String} (h : optional s = some t) : trimSpace s = t ∧ t ≠ "" := by
  simp only [optional] at h
  split at h
  · cases h
  · next hs => cases h; exact ⟨rfl, hs⟩

theorem optional_optional {s t : String} (h : optional s = some t) : optional t = some t := by
  simp only [optional] at *
  split at h
  · cases h
  · next hs => cases h; simp [hs]

theorem wellFormed_new : (Event.new.context).WellFormed uriOk where
  id_trim := rfl
  source_ok := .inl rfl
  type_trim := rfl
  dataContentType_ok := by simp [Event.new]
  dataSchema_ok := by simp [Event.new]
  subject_ok := by simp [Event.new]
  time_ok := by simp [Event.new]
  keys_v1 := by simp [Event.new, Finmap.not_mem_empty]

/-! ### One setter at a time -/

theorem WellFormed.setID {id : String} (hc : c.WellFormed uriOk) (h : c.setID id = .ok c') :
    c'.WellFormed uriOk := by
  simp only [EventContext.setID] at h
  split at h
  · cases h
  · cases h; exact { hc with id_trim := trimSpace_trimSpace _ }

theorem WellFormed.setSource {s : String} (hc : c.WellFormed uriOk)
    (h : c.setSource uriOk s = .ok c') : c'.WellFormed uriOk := by
  simp only [EventContext.setSource] at h
  split at h
  · next hs => cases h; exact { hc with source_ok := .inr hs }
  · cases h

theorem WellFormed.setType {t : String} (hc : c.WellFormed uriOk) (h : c.setType t = .ok c') :
    c'.WellFormed uriOk := by
  cases h; exact { hc with type_trim := trimSpace_trimSpace _ }

theorem WellFormed.setDataContentType {s : String} (hc : c.WellFormed uriOk)
    (h : c.setDataContentType s = .ok c') : c'.WellFormed uriOk := by
  cases h; exact { hc with dataContentType_ok := fun _ h => optional_optional h }

theorem WellFormed.setSubject {s : String} (hc : c.WellFormed uriOk)
    (h : c.setSubject s = .ok c') : c'.WellFormed uriOk := by
  cases h; exact { hc with subject_ok := fun _ h => optional_optional h }

theorem WellFormed.setDataSchema {u : String} (hc : c.WellFormed uriOk)
    (h : c.setDataSchema uriOk u = .ok c') : c'.WellFormed uriOk := by
  simp only [EventContext.setDataSchema] at h
  split at h
  · cases h; exact { hc with dataSchema_ok := by simp }
  · split at h
    · next hu hok =>
      cases h
      refine { hc with dataSchema_ok := fun s hs => ?_ }
      cases hs
      exact ⟨by simp [optional, hu, trimSpace_trimSpace], hok⟩
    · cases h

theorem WellFormed.setTime {t : Time} (hc : c.WellFormed uriOk) (h : c.setTime t = .ok c') :
    c'.WellFormed uriOk := by
  cases h
  refine { hc with time_ok := ?_ }
  split <;> simp_all

theorem WellFormed.putExtension {key : String} {v : Value} (hc : c.WellFormed uriOk)
    (hkey : c.specVersion = .v1 → toLower key = key) (h : c.putExtension key v = .ok c') :
    c'.WellFormed uriOk := by
  unfold EventContext.putExtension at h
  split at h
  · cases h
    exact { hc with keys_v1 := fun hv k hk => hc.keys_v1 hv k (Finmap.mem_erase.mp hk).2 }
  · split at h
    · cases h
      refine { hc with keys_v1 := fun hv k hk => ?_ }
      rcases Finmap.mem_insert.mp hk with rfl | hk
      · exact hkey hv
      · exact hc.keys_v1 hv k hk
    · cases h

theorem WellFormed.setExtension {name : String} {v : Value} (hc : c.WellFormed uriOk)
    (h : c.setExtension name v = .ok c') : c'.WellFormed uriOk := by
  unfold EventContext.setExtension at h
  split at h
  · split at h
    · cases h
    · split at h
      · cases h
      · exact hc.putExtension (fun _ => toLower_toLower name) h
  · next hv =>
    split at h
    · cases h
    · exact hc.putExtension (fun h' => absurd (hv.symm.trans h') (by decide)) h

theorem keys_foldl_insert_toLower (ord : List (Σ _ : String, ExtValue)) :
    ∀ (m : Map ExtValue), (∀ k ∈ m, toLower k = k) →
      ∀ k ∈ ord.foldl (fun m kv => m.insert (toLower kv.1) kv.2) m, toLower k = k := by
  induction ord with
  | nil => exact fun _ hm => hm
  | cons kv ord ih =>
    intro m hm
    refine ih _ fun k hk => ?_
    rcases Finmap.mem_insert.mp hk with rfl | hk
    · exact toLower_toLower _
    · exact hm k hk

theorem WellFormed.asV03 (ord : List (Σ _ : String, ExtValue)) (hc : c.WellFormed uriOk) :
    (c.asV03 ord).WellFormed uriOk := by
  unfold EventContext.asV03
  split
  · exact hc
  · exact { hc with keys_v1 := fun h => nomatch h }

theorem WellFormed.asV1 (ord : List (Σ _ : String, ExtValue)) (hc : c.WellFormed uriOk) :
    (c.asV1 ord).WellFormed uriOk := by
  unfold EventContext.asV1
  split
  · exact hc
  · refine { hc with keys_v1 := fun _ => keys_foldl_insert_toLower ord _ ?_ }
    split
    · intro k hk
      rw [(Finmap.mem_insert.mp hk).resolve_right (Finmap.not_mem_empty)]
      decide
    · exact fun k hk => absurd hk Finmap.not_mem_empty

end EventContext

/-! ## Every reachable event -/

namespace Event

variable {uriOk : String → Bool} {e : Event}

theorem context_update (field : String) (r : Except FieldError EventContext) :
    (e.update field r).context = match r with | .ok c => c | .error _ => e.context := by
  cases r <;> rfl

theorem WellFormed.update {field : String} {r : Except FieldError EventContext}
    (hc : e.context.WellFormed uriOk) (hr : ∀ c, r = .ok c → c.WellFormed uriOk) :
    (e.update field r).context.WellFormed uriOk := by
  rw [context_update]
  cases r with
  | error => exact hc
  | ok c => exact hr c rfl

/-- **Step lemma.** Every setter keeps the invariant. -/
theorem wellFormed_set (s : Setter) (hc : e.context.WellFormed uriOk) :
    (e.set uriOk s).context.WellFormed uriOk := by
  cases s with
  | specVersion v ord =>
    simp only [set, setSpecVersion]
    split
    · exact hc.asV03 ord
    · split
      · exact hc.asV1 ord
      · exact hc
  | id s => exact WellFormed.update hc fun _ => hc.setID
  | source s => exact WellFormed.update hc fun _ => hc.setSource
  | type s => exact WellFormed.update hc fun _ => hc.setType
  | dataContentType s => exact WellFormed.update hc fun _ => hc.setDataContentType
  | dataSchema s => exact WellFormed.update hc fun _ => hc.setDataSchema
  | subject s => exact WellFormed.update hc fun _ => hc.setSubject
  | time t => exact WellFormed.update hc fun _ => hc.setTime
  | extension name v => exact WellFormed.update hc fun _ => hc.setExtension
  | data d => exact hc

end Event

/-- In a well-formed event a time differs from `time.Time{}` exactly when it is not zero. -/
theorem Event.time_ne_zero_iff {uriOk : String → Bool} {e : Event} (hc : e.context.WellFormed uriOk) :
    e.time ≠ Time.zero ↔ ¬ e.time.IsZero := by
  simp only [Event.time]
  cases ht : e.context.time with
  | none => simp [Time.IsZero, Time.zero]
  | some t =>
    have hz := hc.time_ok t ht
    simp only [Option.getD_some, hz, not_false_eq_true, iff_true]
    rintro rfl
    exact hz ⟨rfl, rfl⟩

/-- **Run lemma.** Every reachable event is well formed. -/
theorem Reachable.wellFormed {uriOk : String → Bool} {e : Event} (h : Reachable uriOk e) :
    e.context.WellFormed uriOk := by
  induction h with
  | new => exact EventContext.wellFormed_new
  | set s _ _ ih => exact Event.wellFormed_set s ih

end CloudEvents
