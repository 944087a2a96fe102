import NanoRos.Foundation.EmitOnce
import NanoRos.Codegen.MsgField

/-!
# The generated C

What the loop of `generate_core_code` writes, as declarations instead of text:
the structs and prototypes of the header, the serializers, and the functions
of the topics.  Of these the topic ids, sizes and checks are elsewhere.
-/

namespace NanoRos.Codegen

/-! ## Names -/

/-- `type_str.replace('/', "__")`. -/
def replaceSlash (type : Name) : Name :=
  type.flatMap fun char => if char = '/' then ['_', '_'] else [char]

/-- `ros_type_to_c_struct_name`. -/
def rosTypeToCStructName (type : Name) : Name := replaceSlash type ++ ['_', 't']

/-- `ros_type_to_c_prefix`. -/
def rosTypeToCPrefix (type : Name) : Name := replaceSlash type

/-- A name from its end on, without the `_t`s there. -/
def trimReversed : Name → Name
  | last :: before :: rest =>
      if last = 't' ∧ before = '_' then trimReversed rest
      else last :: before :: rest
  | rest => rest

/-- `trim_end_matches("_t")`: the suffix is removed as often as it is there. -/
def trimEndMatchesT (name : Name) : Name := (trimReversed name.reverse).reverse

/-! ## Declarations -/

inductive MemberType where
  | base (cType : CType)
  | struct (name : Name)
  deriving DecidableEq

/-- A member of a struct; `count` is its array length. -/
structure StructMember where
  type : MemberType
  name : Name
  count : Option Nat
  deriving DecidableEq

/-- The line of `generate_user_c_struct` for a field. -/
def structMember (field : MsgField) : StructMember :=
  match field.fieldType with
  | .primitive .string => ⟨.base PrimType.string.cType, field.name, some 256⟩
  | .primitive prim => ⟨.base prim.cType, field.name, none⟩
  | .primArray prim len => ⟨.base prim.cType, field.name, some len⟩
  | .nested cType _ => ⟨.struct cType, field.name, none⟩
  | .nestedArray cType _ len => ⟨.struct cType, field.name, some len⟩

inductive SerdeKind where
  | serialize
  | deserialize
  deriving DecidableEq

/-- One `ok &= …` of a serializer or deserializer. -/
inductive SerdeStatement where
  /-- The function of a type prefix, in a loop if there is a count. -/
  | call (typePrefix field : Name) (count : Option Nat)
  | array (cType : CType) (field : Name) (len : Nat)
  | string (field : Name)
  | scalar (cType : CType) (field : Name)
  deriving DecidableEq

/-- `generate_serialize_function` and `generate_deserialize_function`; they
differ in the names of the functions called and in how members are passed. -/
def serdeStatement (field : MsgField) : SerdeStatement :=
  match field.fieldType with
  | .nested cType _ => .call (trimEndMatchesT cType) field.name none
  | .nestedArray cType _ len =>
      .call (trimEndMatchesT cType) field.name (some len)
  | .primArray prim len => .array prim.cType field.name len
  | .primitive .string => .string field.name
  | .primitive prim => .scalar prim.cType field.name

/-- `<prefix>__serialize` or `<prefix>__deserialize`. -/
def serdeName (kind : SerdeKind) (typePrefix : Name) : Name :=
  match kind with
  | .serialize => typePrefix ++ "__serialize".toList
  | .deserialize => typePrefix ++ "__deserialize".toList

/-- The declaration of a generated function: it takes a `ucdrBuffer*` and a
pointer to the struct, `const` in a serializer. -/
structure SerdePrototype where
  kind : SerdeKind
  name : Name
  structType : Name
  deriving DecidableEq

def serdePrototype (kind : SerdeKind) (typePrefix : Name) : SerdePrototype where
  kind
  name := serdeName kind typePrefix
  structType := typePrefix ++ ['_', 't']

/-- What `generate_user_function` writes for a topic: `nros_publish_<name>`
hands its struct and a serializer to `nros_publish`, a subscriber's handler
calls a deserializer. -/
structure UserFunction where
  topic : Name
  topicType : TopicType
  structName : Name
  serdeFn : Name
  deriving DecidableEq

/-! ## The walk -/

section Walk

variable {ν : Type} (key : Name → Name) (item : List MsgField → ν)

mutual

/-- The recursion into nested types that `generate_user_c_struct` and
`generate_serde_functions` share: what is written, and under which name a
nested type is entered into `emitted`, differ. -/
def FieldType.emitNested : FieldType → Emission Name ν → Emission Name ν
  | .primitive _, emission => emission
  | .primArray _ _, emission => emission
  | .nested cType fields, emission =>
      emission.once (key cType) (item fields) (emitNested fields)
  | .nestedArray cType fields _, emission =>
      emission.once (key cType) (item fields) (emitNested fields)

def MsgField.emitNested : MsgField → Emission Name ν → Emission Name ν
  | .mk _ fieldType, emission => fieldType.emitNested emission

def emitNested : List MsgField → Emission Name ν → Emission Name ν
  | [], emission => emission
  | field :: fields, emission =>
      emitNested fields (field.emitNested emission)

end

end Walk

/-- `generate_user_c_struct`. -/
def generateUserCStruct (fields : List MsgField) (structName : Name) :
    Emission Name (List StructMember) → Emission Name (List StructMember) :=
  Emission.once structName (fields.map structMember)
    (emitNested id (List.map structMember) fields)

/-- `generate_serde_functions`.  The two functions of a prefix have the same
statements, and their prototypes are pushed when they are written. -/
def generateSerdeFunctions (fields : List MsgField) (typePrefix : Name) :
    Emission Name (List SerdeStatement) →
      Emission Name (List SerdeStatement) :=
  Emission.once typePrefix (fields.map serdeStatement)
    (emitNested trimEndMatchesT (List.map serdeStatement) fields)

/-- `generate_user_function`. -/
def generateUserFunction (topic : Topic) : UserFunction :=
  let structName := rosTypeToCStructName topic.msgType
  let typePrefix := trimEndMatchesT structName
  { topic := topic.name
    topicType := topic.topicType
    structName
    serdeFn :=
      match topic.topicType with
      | .publisher => serdeName .serialize typePrefix
      | .subscriber => serdeName .deserialize typePrefix }

/-! ## The output -/

/-- The output of the loop in `generate_core_code`. -/
structure CoreCode where
  structs : Emission Name (List StructMember)
  serde : Emission Name (List SerdeStatement)
  users : List UserFunction

/-- The body of the loop. -/
def generateTopic (code : CoreCode) (topic : Topic) : CoreCode :=
  { structs := generateUserCStruct topic.fields
      (rosTypeToCStructName topic.msgType) code.structs
    serde := generateSerdeFunctions topic.fields
      (rosTypeToCPrefix topic.msgType) code.serde
    users := code.users ++ [generateUserFunction topic] }

/-- The loop of `generate_core_code`. -/
def generateCoreCode (topics : List Topic) : CoreCode :=
  topics.foldl generateTopic { structs := .empty, serde := .empty, users := [] }

namespace CoreCode

variable (code : CoreCode)

/-- The names of the structs, in the order of their typedefs. -/
def typedefs : List Name := code.structs.keys

/-- The functions defined in the code file. -/
def definitions : List Name :=
  code.serde.out.flatMap fun entry =>
    [serdeName .serialize entry.1, serdeName .deserialize entry.1]

/-- `exposed_serde`, the prototypes in the header. -/
def prototypes : List SerdePrototype :=
  code.serde.out.flatMap fun entry =>
    [serdePrototype .serialize entry.1, serdePrototype .deserialize entry.1]

/-- The functions a body calls. -/
def calls (kind : SerdeKind) (body : List SerdeStatement) : List Name :=
  body.filterMap fun statement =>
    match statement with
    | .call typePrefix _ _ => some (serdeName kind typePrefix)
    | _ => none

/-- Every serializer or deserializer that is called somewhere. -/
def called : List Name :=
  (code.serde.out.flatMap fun entry =>
    calls .serialize entry.2 ++ calls .deserialize entry.2) ++
      code.users.map UserFunction.serdeFn

end CoreCode

end NanoRos.Codegen
