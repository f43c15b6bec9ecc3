import CloudEventsAvro.Go.Basic

/-!
# `Avro.DataCodec` — finding the schema of an Avro payload

The Avro data codec of the binding's package (`EncodeData`, `DecodeData`, `getSchemaFor`) turns a Go
value into Avro bytes and back with a schema it finds for the value: the value's own `AvroSchema()`,
then the same method on `interface{}(&v)`, then the registry set by `SetSchemaRegistry`, else an error
naming the value's type.

Go types enter only through what `getSchemaFor` asks of them: the name `%T` prints, and whether the
method set has `AvroSchema()`. `GoType` keeps exactly that: defined types with the receiver their
method is declared on, pointer types, and the empty interface. A schema is an opaque `Schema`, and
`none` is a nil schema; `avro.Marshal` and `avro.Unmarshal` are parameters.

The step on `interface{}(&v)` asks the method set of `*interface{}`, which is empty whatever `v` holds,
so it never fires. `encodeData_schemaLookup` shows what follows: a value whose pointer type has the
method falls through to the registry, and fails without one; and a registry that answers a nil schema
has `EncodeData` hand `avro.Marshal` the nil schema as it is.
-/

namespace CloudEvents.DataCodec

open Go

/-- The receiver a defined type declares `AvroSchema()` on. -/
inductive Receiver
  | value
  | pointer
  deriving DecidableEq

/-- A Go type, as the method-set checks of `getSchemaFor` see it. -/
inductive GoType (Schema : Type)
  /-- a defined type, and how it declares `AvroSchema()`, with the schema that returns -/
  | named (name : String) (avroSchema : Option (Receiver × Option Schema))
  | pointer (t : GoType Schema)
  /-- `interface{}` -/
  | emptyInterface

variable {Schema : Type}

/-- The name `%T` prints. -/
def GoType.name : GoType Schema → String
  | .named n _ => n
  | .pointer t => "*" ++ t.name
  | .emptyInterface => "interface {}"

/-- `AvroSchema()` on the type's method set, when the method is in it: a defined type has its value
receiver methods, a pointer to it both kinds, and the pointer to an interface none. -/
def GoType.avroSchema : GoType Schema → Option (Option Schema)
  | .named _ (some (.value, s)) => some s
  | .named _ _ => none
  | .pointer (.named _ (some (_, s))) => some s
  | .pointer _ => none
  | .emptyInterface => none

/-- A value held in an `interface{}`: a `[]byte`, or a value of another type. -/
inductive Payload (Schema : Type)
  | bytes (b : Bytes)
  | value (t : GoType Schema)

/-- The dynamic type's name, as `%T` prints it. -/
def Payload.typeName : Payload Schema → String
  | .bytes _ => "[]uint8"
  | .value t => t.name

/-- Whether `v.(SchemaProvider)` holds, and what `AvroSchema()` returns. -/
def Payload.avroSchema : Payload Schema → Option (Option Schema)
  | .bytes _ => none
  | .value t => t.avroSchema

/-- `SchemaRegistry.GetSchema`: a schema, possibly nil, or an error. -/
abbrev SchemaRegistry (Schema : Type) := Payload Schema → Except String (Option Schema)

/-- The error `getSchemaFor` returns when it finds no schema. -/
def noSchemaAvailable (v : Payload Schema) : String :=
  "no schema available for type " ++ v.typeName ++
    ": implement SchemaProvider interface or set a SchemaRegistry"

/-- `getSchemaFor`, with `defaultRegistry` as `registry` (`none` while unset). -/
def getSchemaFor (registry : Option (SchemaRegistry Schema)) (v : Payload Schema) :
    Except String (Option Schema) :=
  match v.avroSchema with
  | some s => .ok s
  | none =>
    match (GoType.pointer (.emptyInterface : GoType Schema)).avroSchema with
    | some s => .ok s
    | none =>
      match registry with
      | some r => r v
      | none => .error (noSchemaAvailable v)

/-- `EncodeData`; `marshal` is `avro.Marshal`. -/
def encodeData (registry : Option (SchemaRegistry Schema))
    (marshal : Option Schema → Payload Schema → Except String Bytes) (v : Payload Schema) :
    Except String Bytes :=
  match v with
  | .bytes b => .ok b
  | v =>
    match getSchemaFor registry v with
    | .error err => .error ("failed to get schema for encoding: " ++ err)
    | .ok schema => marshal schema v

/-- `DecodeData` into `out`; `unmarshal` is `avro.Unmarshal`. -/
def decodeData (registry : Option (SchemaRegistry Schema))
    (unmarshal : Option Schema → Bytes → Payload Schema → Except String Unit) (input : Bytes)
    (out : Payload Schema) : Except String Unit :=
  match getSchemaFor registry out with
  | .error err => .error ("failed to get schema for decoding: " ++ err)
  | .ok schema =>
    match unmarshal schema input out with
    | .error err => .error ("failed to unmarshal Avro data: " ++ err)
    | .ok () => .ok ()

/-! ## What the engine is handed -/

/-- A value of a type that declares `AvroSchema()` on its pointer receiver, with no registry set: encoding
fails for want of a schema, although the pointer type has one. With a registry that answers no schema and
no error, `avro.Marshal` is handed a nil schema. -/
theorem encodeData_schemaLookup :
    let t : GoType String := .named "main.Sample" (some (.pointer, some "schema"))
    (GoType.pointer t).avroSchema = some (some "schema") ∧
      (∀ marshal, encodeData none marshal (.value t) =
        .error ("failed to get schema for encoding: no schema available for type main.Sample: " ++
          "implement SchemaProvider interface or set a SchemaRegistry")) ∧
      ∀ marshal, encodeData (some fun _ => .ok none) marshal (.value t) = marshal none (.value t) :=
  ⟨rfl, fun _ => rfl, fun _ => rfl⟩

end CloudEvents.DataCodec
