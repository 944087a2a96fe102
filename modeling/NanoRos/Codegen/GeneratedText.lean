import NanoRos.Codegen.CdrSize
import NanoRos.Codegen.GeneratedCode
import NanoRos.Codegen.TopicMacros

/-!
# The text of the generated files

What `codegen.rs` writes, with the declarations of `generate_core_code` put
into C.
-/

namespace NanoRos.Codegen

section Text

/-- Text in a program is a list of characters here. -/
local instance : Coe String Name := ⟨String.toList⟩

/-- `writeln!`, of what stands between the braces and around them. -/
def writeln (pieces : List Name) : List Char := pieces.flatten ++ ['\n']

/-- A number in a format string. -/
def number (value : Nat) : Name := Nat.toDigits 10 value

/-- What `c_type` returns. -/
def CType.text : CType → Name
  | .bool => "bool"
  | .uint8 => "uint8_t"
  | .float => "float"
  | .double => "double"
  | .int8 => "int8_t"
  | .int16 => "int16_t"
  | .int32 => "int32_t"
  | .int64 => "int64_t"
  | .uint16 => "uint16_t"
  | .uint32 => "uint32_t"
  | .uint64 => "uint64_t"
  | .char => "char"

/-! ## Structs -/

def MemberType.text : MemberType → Name
  | .base cType => cType.text
  | .struct name => name

def StructMember.text (member : StructMember) : List Char :=
  match member.count with
  | none => writeln ["    ", member.type.text, " ", member.name, ";"]
  | some count =>
      writeln ["    ", member.type.text, " ", member.name, "[", number count,
        "];"]

/-- What `generate_user_c_struct` writes for one struct. -/
def structText (struct_ : Name × List StructMember) : List Char :=
  writeln ["typedef struct \x7b"] ++ struct_.2.flatMap StructMember.text ++
    writeln ["\x7d ", struct_.1, ";\n"]

/-! ## Serializers and deserializers -/

/-- `serialize` or `deserialize`. -/
def SerdeKind.verb : SerdeKind → Name
  | .serialize => "serialize"
  | .deserialize => "deserialize"

/-- `generate_serialize_function` or `generate_deserialize_function`. -/
def SerdeStatement.text (kind : SerdeKind) : SerdeStatement → List Char
  | .call typePrefix field none =>
      writeln ["    ok &= ", serdeName kind typePrefix, "(buf, &msg->", field,
        ");"]
  | .call typePrefix field (some len) =>
      writeln ["    for (int i = 0; i < ", number len, "; i++) \x7b"] ++
        writeln ["        ok &= ", serdeName kind typePrefix, "(buf, &msg->",
          field, "[i]);"] ++
        writeln ["    \x7d"]
  | .array cType field len =>
      writeln ["    ok &= ucdr_", kind.verb, "_array_", cType.text,
        "(buf, msg->", field, ", ", number len, ");"]
  | .string field =>
      match kind with
      | .serialize =>
          writeln ["    ok &= ucdr_serialize_string(buf, msg->", field, ");"]
      | .deserialize =>
          writeln ["    ok &= ucdr_deserialize_string(buf, msg->", field,
            ", sizeof(msg->", field, "));"]
  | .scalar cType field =>
      match kind with
      | .serialize =>
          writeln ["    ok &= ucdr_serialize_", cType.text, "(buf, msg->",
            field, ");"]
      | .deserialize =>
          writeln ["    ok &= ucdr_deserialize_", cType.text, "(buf, &msg->",
            field, ");"]

def SerdePrototype.text (prototype : SerdePrototype) : Name :=
  match prototype.kind with
  | .serialize =>
      "bool ".toList ++ prototype.name ++ "(ucdrBuffer* buf, const ".toList ++
        prototype.structType ++ "* msg)".toList
  | .deserialize =>
      "bool ".toList ++ prototype.name ++ "(ucdrBuffer* buf, ".toList ++
        prototype.structType ++ "* msg)".toList

def serdeFunctionText (kind : SerdeKind)
    (function : Name × List SerdeStatement) : List Char :=
  writeln [(serdePrototype kind function.1).text, " \x7b"] ++
    writeln ["    bool ok = true;"] ++
    function.2.flatMap (SerdeStatement.text kind) ++
    writeln ["    return ok;\n\x7d\n"]

/-! ## Topics -/

variable (upper : Char → List Char)

/-- What `generate_user_function` writes. -/
def UserFunction.text (user : UserFunction) : List Char :=
  match user.topicType with
  | .publisher =>
      writeln ["bool nros_publish_", user.topic, "(const ", user.structName,
        " *msg) \x7b"] ++
      writeln ["    return nros_publish(", toUppercase upper user.topic,
        "_ID, (nros_serialize_fn) ", user.serdeFn, ", msg);"] ++
      writeln ["\x7d\n"]
  | .subscriber =>
      writeln ["static void (*", user.topic, "_cb)(const ", user.structName,
        " *) = NULL;\n"] ++
      writeln ["static void nros_", user.topic,
        "_subscriber_handler(ucdrBuffer *buf) \x7b"] ++
      writeln ["    ", user.structName, " msg;"] ++
      writeln ["    if (", user.serdeFn, "(buf, &msg) && ", user.topic,
        "_cb) \x7b"] ++
      writeln ["        ", user.topic, "_cb(&msg);"] ++
      writeln ["    \x7d"] ++
      writeln ["\x7d\n"] ++
      writeln ["void nros_set_", user.topic,
        "_subscriber_cb(void (*cb)(const ", user.structName, " *msg)) \x7b"] ++
      writeln ["    ", user.topic, "_cb = cb;"] ++
      writeln ["\x7d\n"]

/-- What `generate_user_function` pushes to `user_funcs`. -/
def UserFunction.prototype (user : UserFunction) : Name :=
  match user.topicType with
  | .publisher =>
      "bool nros_publish_".toList ++ user.topic ++ "(const ".toList ++
        user.structName ++ " *msg);".toList
  | .subscriber =>
      "void nros_set_".toList ++ user.topic ++
        "_subscriber_cb(void (*cb)(const ".toList ++ user.structName ++
        " *msg));".toList

/-- What `generate_topic_ids` writes for the ids it gives. -/
def topicIdsText (topics : List Topic) (ids : List UInt8) : List Char :=
  (idDefinitions upper topics ids).flatMap (fun definition =>
    writeln ["#define ", definition.1, " ", number definition.2.toNat, "u"]) ++
  writeln []

/-- `generate_topic_sizes`. -/
def generateTopicSizes (topics : List Topic) : List Char :=
  writeln ["// Largest payload each topic's message can serialize to, ",
    "CDR encapsulation header included"] ++
  topics.flatMap (fun topic =>
    writeln ["#define ", toUppercase upper topic.name, "_MAX_SIZE ",
      number (maxPayloadSize topic), "u"]) ++
  writeln []

/-- The lines of `generate_wire_checks` for a topic. -/
def wireChecks (topic : Topic) : List Char :=
  writeln ["_Static_assert(", toUppercase upper topic.name,
    "_MAX_SIZE <= NROS_MAX_PAYLOAD,"] ++
  writeln ["    \"topic `", topic.name, "` (", topic.msgType,
    ") can serialize to ", number (maxPayloadSize topic),
    " bytes, more than NROS_MAX_PAYLOAD; raise NROS_BUFFER_SIZE in ",
    "protocol.h or use a smaller message\");"] ++
  writeln ["_Static_assert(sizeof(\"", topic.name,
    "\") - 1 <= NROS_MAX_STR_SIZE,"] ++
  writeln ["    \"topic name `", topic.name, "` is ",
    number (utf8 topic.name).length,
    " characters, longer than NROS_MAX_STR_SIZE in protocol.h\");"] ++
  writeln ["_Static_assert(sizeof(\"", topic.msgType,
    "\") - 1 <= NROS_MAX_STR_SIZE,"] ++
  writeln ["    \"message type `", topic.msgType, "` (topic `", topic.name,
    "`) is ", number (utf8 topic.msgType).length,
    " characters, longer than NROS_MAX_STR_SIZE in protocol.h\");"]

/-- `generate_wire_checks`. -/
def generateWireChecks (topics : List Topic) : List Char :=
  topics.flatMap (wireChecks upper) ++ writeln []

/-- `Qos::c_name`. -/
def qosName : NrosQos → Name
  | .default => "NROS_QOS_DEFAULT"
  | .sensorData => "NROS_QOS_SENSOR_DATA"
  | .reliable => "NROS_QOS_RELIABLE"
  | .bestEffort => "NROS_QOS_BEST_EFFORT"
  | .transientLocal => "NROS_QOS_TRANSIENT_LOCAL"
  | .systemDefault => "NROS_QOS_SYSTEM_DEFAULT"

/-- The entry of `generate_topic_array` for a topic. -/
def topicEntryText (topic : Topic) : List Char :=
  writeln ["    \x7b"] ++
  writeln ["        .topic_id = ", idMacro upper topic, ","] ++
  writeln ["        .topic_name = \"", topic.name, "\","] ++
  writeln ["        .topic_type = \"", topic.msgType, "\","] ++
  (match topic.topicType with
    | .publisher => writeln ["        .cb = NULL,"]
    | .subscriber =>
        writeln ["        .cb = nros_", topic.name, "_subscriber_handler,"]) ++
  writeln ["        .qos = ", qosName topic.qos, ","] ++
  writeln ["    \x7d,"]

/-- The text of `generate_topic_array`. -/
def topicArrayText (topics : List Topic) : List Char :=
  writeln ["const uint8_t nros_topic_count = ", number topics.length, "u;"] ++
  writeln ["const nros_topic_t nros_topics[", number topics.length,
    "] = \x7b"] ++
  topics.flatMap (topicEntryText upper) ++
  writeln ["\x7d;\n"]

/-! ## Files -/

/-- `HEADER_INCLUDE_LINES`. -/
def headerIncludeLines : List Name :=
  ["#pragma once",
    "#include <stdbool.h>",
    "#include <stdint.h>",
    "#include \"nano_ros.h\"",
    ""]

/-- `CODE_INCLUDE` and `IMPL_INCLUDE`. -/
def codeInclude : Name := "#include \"nano_ros_codegen.h\"\n"

/-- The contents of the three files of `generate_core_code`. -/
structure GeneratedFiles where
  header : List Char
  code : List Char
  implementation : List Char

/-- `generate_core_code`, with what it writes. -/
def generateFiles (topics : List Topic) : Except (List Name) GeneratedFiles :=
  match generateTopicIds topics with
  | .error message => .error [message]
  | .ok ids =>
      let core := generateCoreCode topics
      .ok {
        header :=
          headerIncludeLines.flatMap (fun line => writeln [line]) ++
            writeln [] ++ topicIdsText upper topics ids ++
            core.structs.out.flatMap structText ++
            core.users.flatMap (fun user => writeln [user.prototype]) ++
            core.prototypes.flatMap (fun prototype =>
              writeln [prototype.text, ";"]) ++
            writeln [] ++ generateTopicSizes upper topics
        code :=
          writeln [codeInclude] ++
            core.serde.out.flatMap fun function =>
              serdeFunctionText .serialize function ++
                serdeFunctionText .deserialize function
        implementation :=
          writeln [codeInclude] ++
            core.users.flatMap (UserFunction.text upper) ++
            topicArrayText upper topics ++ generateWireChecks upper topics }

end Text

end NanoRos.Codegen
