import CloudEventsAvro.Sdk.Types

/-!
# `Avro.Record` — the Binary Record and the two coercions

`CloudEventRecord` of the binding's `schema` package is an attribute map and a payload slot of type
`any`. This module models it and the two type switches of `avro.go` that move a value across it:
`attributeValueFor` (extension value to wire value) and `extensionValueFrom` (wire value back).

- `ExtValue.wire` is what `attributeValueFor` makes of each attribute type (`attributeValueFor_toValue`),
  and `ExtValue.decoded` what an extension value becomes after one trip to the wire and back
  (`extensionValueFrom_wire`); a decoded value goes to the wire as the original did
  (`wire_decoded`), so the pair is a projection.
- `extensionValueFrom` narrows a Go `int` or `int64` to `int32` with Go's conversion, which wraps, where
  `types.Validate` refuses a value outside the range (`fromAvro_wrapsInt` in `Avro.Decoding`).
-/

namespace CloudEvents

open Go

namespace Avro

/-- The attribute keys of the record (`avro.go`, lines 21–31). -/
def specversion : String := "specversion"
def id : String := "id"
def source : String := "source"
def typ : String := "type"
def datacontenttype : String := "datacontenttype"
def dataschema : String := "dataschema"
def subject : String := "subject"
def time : String := "time"

/-- The four required keys. -/
def requiredKeys : List String := [specversion, id, source, typ]

/-- The eight keys the binding reads and writes as attributes of its own. -/
def reservedKeys : List String := requiredKeys ++ [datacontenttype, dataschema, subject, time]

end Avro

/-- The payload slot, an `any`: what `FromAvro`'s type switch tells apart. -/
inductive Data
  | nil
  | bytes (b : Bytes)
  | string (s : String)
  /-- a `map[string]any`, hamba/avro's form of a union branch -/
  | map (m : Map Value)
  | other (typeName : String)

/-- `schema.CloudEventRecord`. -/
structure CloudEventRecord where
  /-- `Attribute` (`attribute` is a Lean keyword) -/
  attributes : Map Value
  data : Data

/-- Go's `[]byte(s)`: the UTF-8 encoding of `s`. -/
def utf8Bytes (s : String) : Bytes := s.data.flatMap String.utf8EncodeChar

/-! ## `attributeValueFor` -/

/-- `attributeValueFor`: `types.Validate`, then the attribute type's wire form. Its `default` arm is
unreachable: `types.Validate` returns only the seven types the switch names. -/
def attributeValueFor (v : Value) : Except InvalidValue Value :=
  match validate v with
  | .error err => .error err
  | .ok vv => .ok (match vv with
    | .bool b => .bool b
    | .int32 n => .int n.toInt64
    | .string s => .string s
    | .bytes b => .bytes b
    | .uri u => .string u
    | .uriRef u => .string u
    | .timestamp t => .string (t.format RFC3339Nano))

/-- The wire form of an attribute value. -/
def ExtValue.wire : ExtValue → Value
  | .bool b => .bool b
  | .int32 n => .int n.toInt64
  | .string s => .string s
  | .bytes b => .bytes b
  | .uri u => .string u
  | .uriRef u => .string u
  | .timestamp t => .string (t.format RFC3339Nano)

@[simp] theorem attributeValueFor_toValue (v : ExtValue) : attributeValueFor v.toValue = .ok v.wire := by
  cases v <;> rfl

/-- Every wire value is a branch of the schema's attribute union: a boolean, an int, a string or
bytes. -/
def Value.IsWire : Value → Prop
  | .bool _ | .int _ | .string _ | .bytes _ => True
  | _ => False

theorem ExtValue.wire_isWire (v : ExtValue) : v.wire.IsWire := by
  cases v <;> trivial

/-! ## `extensionValueFrom` -/

/-- `extensionValueFrom`: `nil` stays `nil`, the integer types become `int32` by Go's conversion. -/
def extensionValueFrom : Value → Except String Value
  | .nil => .ok .nil
  | .bool b => .ok (.bool b)
  | .int n => .ok (.int32 (Int32.wrap n.val))
  | .int32 n => .ok (.int32 n)
  | .int64 n => .ok (.int32 (Int32.wrap n.val))
  | .string s => .ok (.string s)
  | .bytes b => .ok (.bytes b)
  | v => .error ("unsupported attribute type: " ++ v.typeName)

/-- An extension value after one trip through the wire: URIs and times come back as strings. -/
def ExtValue.decoded : ExtValue → ExtValue
  | .bool b => .bool b
  | .int32 n => .int32 n
  | .string s => .string s
  | .bytes b => .bytes b
  | .uri u => .string u
  | .uriRef u => .string u
  | .timestamp t => .string (t.format RFC3339Nano)

/-- **One trip.** `extensionValueFrom` takes the wire form of an attribute value to its decoded form,
which `types.Validate` keeps. -/
theorem extensionValueFrom_wire (v : ExtValue) :
    extensionValueFrom v.wire = .ok v.decoded.toValue := by
  cases v <;> simp [ExtValue.wire, extensionValueFrom, ExtValue.decoded, ExtValue.toValue]

/-- **The coercions are a projection**: a decoded value goes to the wire as the original did. -/
@[simp] theorem ExtValue.wire_decoded (v : ExtValue) : v.decoded.wire = v.wire := by
  cases v <;> rfl

/-- What `types.Validate` makes of a value `extensionValueFrom` returns goes through the wire unchanged. -/
theorem ExtValue.decoded_of_extensionValueFrom {y v : Value} {x : ExtValue} (hy : extensionValueFrom y = .ok v)
    (hx : validate v = .ok x) : x.decoded = x := by
  cases y <;> cases hy <;> cases hx <;> rfl

end CloudEvents
