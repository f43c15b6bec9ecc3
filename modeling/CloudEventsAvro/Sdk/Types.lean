import CloudEventsAvro.Go.Basic
import CloudEventsAvro.Go.Time

/-!
# `Sdk.Types` — the dynamic values the binding and the SDK exchange

The binding's attribute maps are `map[string]any`, and its coercions are type switches over what an
`any` holds. `Value` is such an `any`, by its dynamic type: every type one of the switches (in `avro.go`
and in the SDK's `types.Validate`) names has its own constructor, and any other type is `other`, known by
its name only, which is all `%T` prints.

`ExtValue` is the image of `types.Validate`: the seven CloudEvents attribute types an SDK event stores as
extension values. `validate` is `types.Validate` on the values of `Value`.
-/

namespace CloudEvents

open Go

/-- A Go `any` by its dynamic type. URIs are held by their text. -/
inductive Value
  /-- a nil interface -/
  | nil
  | bool (b : Bool)
  /-- a Go `int` -/
  | int (n : Int64)
  | int32 (n : Int32)
  | int64 (n : Int64)
  | string (s : String)
  /-- a `[]byte` -/
  | bytes (b : Bytes)
  /-- a `types.URI` -/
  | uri (u : String)
  /-- a `types.URIRef` -/
  | uriRef (u : String)
  /-- a `types.Timestamp` -/
  | timestamp (t : Time)
  /-- a `time.Time` -/
  | time (t : Time)
  /-- a value of any other type, by its name -/
  | other (typeName : String)
  deriving DecidableEq

/-- What `%T` prints for the value. -/
def Value.typeName : Value → String
  | .nil => "<nil>"
  | .bool _ => "bool"
  | .int _ => "int"
  | .int32 _ => "int32"
  | .int64 _ => "int64"
  | .string _ => "string"
  | .bytes _ => "[]uint8"
  | .uri _ => "types.URI"
  | .uriRef _ => "types.URIRef"
  | .timestamp _ => "types.Timestamp"
  | .time _ => "time.Time"
  | .other n => n

/-- Modelled from the spec: the seven attribute types of a structured event's extensions ("boolean,
32-bit integer, string, byte sequence, URI, URI-reference, or timestamp"), the results of the SDK's
`types.Validate` (package `v2/types`, not under src/). -/
inductive ExtValue
  | bool (b : Bool)
  | int32 (n : Int32)
  | string (s : String)
  | bytes (b : Bytes)
  | uri (u : String)
  | uriRef (u : String)
  | timestamp (t : Time)
  deriving DecidableEq

/-- The `any` that holds an extension value. -/
def ExtValue.toValue : ExtValue → Value
  | .bool b => .bool b
  | .int32 n => .int32 n
  | .string s => .string s
  | .bytes b => .bytes b
  | .uri u => .uri u
  | .uriRef u => .uriRef u
  | .timestamp t => .timestamp t

/-- Modelled from the spec: why `types.Validate` rejects a value. -/
inductive InvalidValue
  /-- an integer outside the range of `int32` -/
  | outOfRange (n : Int)
  /-- a value of no CloudEvents attribute type -/
  | invalid (v : Value)
  deriving DecidableEq

/-- Modelled from the spec: the SDK's `types.Validate` on the values of `Value`. Attribute values are
kept, a `time.Time` becomes a `types.Timestamp`, and an integer of another width is narrowed to `int32`
only when it fits. -/
def validate : Value → Except InvalidValue ExtValue
  | .bool b => .ok (.bool b)
  | .int32 n => .ok (.int32 n)
  | .string s => .ok (.string s)
  | .bytes b => .ok (.bytes b)
  | .int n | .int64 n =>
    if h : InInt32Range n.val then .ok (.int32 ⟨n.val, h.1, h.2⟩) else .error (.outOfRange n.val)
  | .uri u => .ok (.uri u)
  | .uriRef u => .ok (.uriRef u)
  | .timestamp t | .time t => .ok (.timestamp t)
  | v@(.nil) | v@(.other _) => .error (.invalid v)

/-- `types.Validate` keeps every attribute value. -/
@[simp] theorem validate_toValue (v : ExtValue) : validate v.toValue = .ok v := by
  cases v <;> rfl

end CloudEvents
