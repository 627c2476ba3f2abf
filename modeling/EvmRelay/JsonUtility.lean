import EvmRelay.ParseUtility

namespace EvmRelay

-- boost::json::value. An object lists its members; a key is looked up from the
-- front.
inductive Json where
  | null
  | bool (value : Bool)
  | int64 (value : BitVec 64)
  | uint64 (value : BitVec 64)
  | double (bits : BitVec 64)
  | string (value : Text)
  | array (items : List Json)
  | object (members : List (Text × Json))

namespace JsonUtility

inductive JsonErrorCode where
  | parseFailed
  | rootNotObject
  | missingField
  | wrongType
  | outOfRange
  deriving DecidableEq

structure JsonError where
  code : JsonErrorCode
  field : Text
  deriving DecidableEq

abbrev JsonResult (α : Type) := Except JsonError α

-- JsonFieldType together with the nested schema its pointers lead to. A field
-- of object or array type whose pointer is null is a bare one.
mutual
inductive JsonSchema where
  | string
  | bool
  | u8
  | u32
  | u64
  | size
  | object (fields : JsonSchemaFields)
  | array (element : JsonSchema)
  | bare
inductive JsonSchemaFields where
  | nil
  | cons (name : Text) (required : Bool) (defaultValue : Option Json) (type : JsonSchema) (rest : JsonSchemaFields)
end

inductive JsonParsedValue where
  | string (value : Text)
  | bool (value : Bool)
  | u8 (value : BitVec 8)
  | u32 (value : BitVec 32)
  | u64 (value : BitVec 64)
  | size (value : BitVec 64)
  | object (fields : List (Text × JsonParsedValue))
  | array (values : List JsonParsedValue)

abbrev JsonParsedObject := List (Text × JsonParsedValue)

def parseString (value : Json) (fieldName : Text) : JsonResult Text :=
  match value with
  | .string text => .ok text
  | _ => .error ⟨.wrongType,fieldName⟩

def parseBool (value : Json) (fieldName : Text) : JsonResult Bool :=
  match value with
  | .bool flag => .ok flag
  | _ => .error ⟨.wrongType,fieldName⟩

-- parse_unsigned_integer: a number the parser holds as uint64 is refused too.
def parseUnsignedInteger (width : Nat) (value : Json) (fieldName : Text) : JsonResult (BitVec width) :=
  match value with
  | .int64 number =>
    if number.toInt < 0 then .error ⟨.wrongType,fieldName⟩
    else if number.toNat > 2 ^ width - 1 then .error ⟨.outOfRange,fieldName⟩
    else .ok (number.setWidth width)
  | _ => .error ⟨.wrongType,fieldName⟩

def joinPath (pathPrefix fieldName : Text) : Text :=
  if pathPrefix = [] then fieldName else pathPrefix ++ ascii "." ++ fieldName

def arrayPath (pathPrefix : Text) (index : Nat) : Text :=
  pathPrefix ++ ascii "[" ++ ascii (toString index) ++ ascii "]"

mutual
def parseSchemaValueAtPath : JsonSchema → Json → Text → JsonResult JsonParsedValue
  | .string,value,fieldPath => .string <$> parseString value fieldPath
  | .bool,value,fieldPath => .bool <$> parseBool value fieldPath
  | .u8,value,fieldPath => .u8 <$> parseUnsignedInteger 8 value fieldPath
  | .u32,value,fieldPath => .u32 <$> parseUnsignedInteger 32 value fieldPath
  | .u64,value,fieldPath => .u64 <$> parseUnsignedInteger 64 value fieldPath
  | .size,value,fieldPath => .size <$> parseUnsignedInteger 64 value fieldPath
  | .object fields,.object members,fieldPath => .object <$> parseSchemaObjectAtPath fields members fieldPath
  | .array element,.array items,fieldPath =>
    .array <$> items.zipIdx.mapM fun entry =>
      parseSchemaValueAtPath element entry.1 (arrayPath fieldPath entry.2)
  | _,_,fieldPath => .error ⟨.wrongType,fieldPath⟩
def parseSchemaObjectAtPath : JsonSchemaFields → List (Text × Json) → Text → JsonResult JsonParsedObject
  | .nil,_,_ => .ok []
  | .cons name required defaultValue type rest,members,pathPrefix =>
    match (members.lookup name).or defaultValue with
    | none =>
      if required then .error ⟨.missingField,joinPath pathPrefix name⟩
      else parseSchemaObjectAtPath rest members pathPrefix
    | some value => do
      let parsed ← parseSchemaValueAtPath type value (joinPath pathPrefix name)
      let others ← parseSchemaObjectAtPath rest members pathPrefix
      return (name,parsed) :: others
end

-- boost::json::parse is given by what it makes of a text.
def parseObject (parse : Text → Option Json) (jsonText : Text) : JsonResult (List (Text × Json)) :=
  match parse jsonText with
  | none => .error ⟨.parseFailed,[]⟩
  | some (.object members) => .ok members
  | some _ => .error ⟨.rootNotObject,[]⟩

def parseSchemaObject (parse : Text → Option Json) (jsonText : Text) (schema : JsonSchemaFields) :
    JsonResult JsonParsedObject := do
  let root ← parseObject parse jsonText
  parseSchemaObjectAtPath schema root []

def getParsedValue (object : JsonParsedObject) (fieldName : Text) : JsonResult JsonParsedValue :=
  match object.lookup fieldName with
  | none => .error ⟨.missingField,fieldName⟩
  | some value => .ok value

def getParsedAs (wanted : JsonParsedValue → Option α) (object : JsonParsedObject) (fieldName : Text) :
    JsonResult α := do
  match wanted (← getParsedValue object fieldName) with
  | none => .error ⟨.wrongType,fieldName⟩
  | some value => .ok value

def JsonParsedValue.asString : JsonParsedValue → Option Text
  | .string value => some value
  | _ => none

def JsonParsedValue.asU8 : JsonParsedValue → Option (BitVec 8)
  | .u8 value => some value
  | _ => none

def JsonParsedValue.asU32 : JsonParsedValue → Option (BitVec 32)
  | .u32 value => some value
  | _ => none

def JsonParsedValue.asU64 : JsonParsedValue → Option (BitVec 64)
  | .u64 value => some value
  | _ => none

def JsonParsedValue.asSize : JsonParsedValue → Option (BitVec 64)
  | .size value => some value
  | _ => none

def JsonParsedValue.asArray : JsonParsedValue → Option (List JsonParsedValue)
  | .array values => some values
  | _ => none

def JsonParsedValue.asObject : JsonParsedValue → Option JsonParsedObject
  | .object fields => some fields
  | _ => none

def getParsedString : JsonParsedObject → Text → JsonResult Text := getParsedAs JsonParsedValue.asString

def getParsedU8 : JsonParsedObject → Text → JsonResult (BitVec 8) := getParsedAs JsonParsedValue.asU8

def getParsedU32 : JsonParsedObject → Text → JsonResult (BitVec 32) := getParsedAs JsonParsedValue.asU32

def getParsedU64 : JsonParsedObject → Text → JsonResult (BitVec 64) := getParsedAs JsonParsedValue.asU64

def getParsedSize : JsonParsedObject → Text → JsonResult (BitVec 64) := getParsedAs JsonParsedValue.asSize

def getParsedArray : JsonParsedObject → Text → JsonResult (List JsonParsedValue) := getParsedAs JsonParsedValue.asArray

def getParsedObject : JsonParsedObject → Text → JsonResult JsonParsedObject := getParsedAs JsonParsedValue.asObject

end JsonUtility
end EvmRelay
