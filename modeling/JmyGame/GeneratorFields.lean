import JmyGame.CommonMessages
import JmyGame.MysqlStatements

/-! The fields of `DBConfigParser` and the tests of their types. A type is a text, which is compared as a whole or
searched for a part. -/

namespace JmyGame

open CArith

/-- The bytes of a text of the source. -/
def chars (s : String) : Str := s.toList.map fun c => BitVec.ofNat 8 c.toNat

namespace DBConfigParser

/-- `std::string::find`. -/
def find (part : Str) : Str → Option ℕ
  | [] => if part = [] then some 0 else none
  | c :: s => if part <+: c :: s then some 0 else (find part s).map (· + 1)

/-- `find` is not `npos`. -/
def contains (s part : Str) : Bool := (find part s).isSome

structure FieldInfo where
  name : Str
  fieldType : Str
  indexType : Str
  createFlags : Str
  deriving DecidableEq

structure SelKeyInfo where
  key : Str
  resultType : Str
  resultKey : Str
  deriving DecidableEq

structure TableInfo where
  name : Str
  primaryKeyIndex : ℤ
  dbEngine : Str
  selectKeysInfo : List SelKeyInfo
  deriving DecidableEq

/-- A table with its fields, which are in vectors of the same length. -/
structure Table where
  info : TableInfo
  fields : List FieldInfo
  deriving DecidableEq

def getBlobUserDefineData (fieldType : Str) : Option Str :=
  match find (chars "blob:") fieldType with
  | some idx => some (cstr (fieldType.drop (idx + (chars "blob:").length)))
  | none =>
    (find (chars "binary:") fieldType).map fun idx => cstr (fieldType.drop (idx + (chars "binary:").length))

/-- The integer types of 32 bits at most. -/
def isIntType (fieldType : Str) : Bool :=
  fieldType = chars "tinyint" || fieldType = chars "smallint" || fieldType = chars "mediumint" ||
    fieldType = chars "int"

def isUnsigned (fieldInfo : FieldInfo) : Bool := contains fieldInfo.createFlags (chars "unsigned")

/-- `get_field_type_str` of a field. -/
def getFieldTypeStr (fieldInfo : FieldInfo) : Option Str :=
  let s := fieldInfo.fieldType
  match getBlobUserDefineData s with
  | some typeStr => some typeStr
  | none =>
    if isIntType s then some (if isUnsigned fieldInfo then chars "unsigned int" else chars "int")
    else if s = chars "bigint" then some (if isUnsigned fieldInfo then chars "uint64_t" else chars "int64_t")
    else if s = chars "float" then some (chars "float")
    else if s = chars "double" then some (chars "double")
    else if s = chars "varchar" ∨ s = chars "char" ∨ s = chars "tinytext" ∨ s = chars "text" ∨
      s = chars "mediumtext" ∨ s = chars "longtext" then some (chars "std::string")
    else none

/-- `get_field_type_str` of the first field with a name. -/
def getFieldTypeStrByName (fieldsInfo : List FieldInfo) (fieldName : Str) : Option Str :=
  (fieldsInfo.find? fun f => f.name = fieldName).bind getFieldTypeStr

def isFieldTimeType (s : Str) : Bool :=
  s = chars "timestamp" || s = chars "time" || s = chars "year" || s = chars "date" || s = chars "datetime"

def getFieldTypeDefineStr (s : Str) : Option Str :=
  if s = chars "tinyint" then some (chars "MYSQL_FIELD_TYPE_TINYINT")
  else if s = chars "smallint" then some (chars "MYSQL_FIELD_TYPE_SMALLINT")
  else if s = chars "mediumint" then some (chars "MYSQL_FIELD_TYPE_MEDIUMINT")
  else if s = chars "int" then some (chars "MYSQL_FIELD_TYPE_INT")
  else if s = chars "bigint" then some (chars "MYSQL_FIELD_TYPE_BIGINT")
  else if s = chars "float" then some (chars "MYSQL_FIELD_TYPE_FLOAT")
  else if s = chars "double" then some (chars "MYSQL_FIELD_TYPE_DOUBLE")
  else if s = chars "char" then some (chars "MYSQL_FIELD_TYPE_CHAR")
  else if s = chars "varchar" then some (chars "MYSQL_FIELD_TYPE_VARCHAR")
  else if contains s (chars "binary") then some (chars "MYSQL_FIELD_TYPE_BINARY")
  else if contains s (chars "varbinary") then some (chars "MYSQL_FIELD_TYPE_VARBINARY")
  else if s = chars "text" then some (chars "MYSQL_FIELD_TYPE_TEXT")
  else if s = chars "tinytext" then some (chars "MYSQL_FIELD_TYPE_TINYTEXT")
  else if s = chars "longtext" then some (chars "MYSQL_FIELD_TYPE_LONGTEXT")
  else if s = chars "mediumtext" then some (chars "MYSQL_FIELD_TYPE_MEDIUMTEXT")
  else if contains s (chars "tinyblob") then some (chars "MYSQL_FIELD_TYPE_TINYBLOB")
  else if contains s (chars "mediumblob") then some (chars "MYSQL_FIELD_TYPE_MEDIUM_BLOB")
  else if contains s (chars "blob") then some (chars "MYSQL_FIELD_TYPE_BLOB")
  else if contains s (chars "longblob") then some (chars "MYSQL_FIELD_TYPE_LONGBLOB")
  else if s = chars "time" then some (chars "MYSQL_FIELD_TYPE_TIME")
  else if s = chars "timestamp" then some (chars "MYSQL_FIELD_TYPE_TIMESTAMP")
  else if s = chars "date" then some (chars "MYSQL_FIELD_TYPE_DATE")
  else if s = chars "datetime" then some (chars "MYSQL_FIELD_TYPE_DATETIME")
  else if s = chars "year" then some (chars "MYSQL_FIELD_TYPE_YEAR")
  else if s = chars "enum" then some (chars "MYSQL_FIELD_TYPE_ENUM")
  else if s = chars "set" then some (chars "MYSQL_FIELD_TYPE_SET")
  else none

def getFieldIndexTypeDefineStr (s : Str) : Option Str :=
  if s = chars "none" then some (chars "MYSQL_INDEX_TYPE_NONE")
  else if s = chars "index" then some (chars "MYSQL_INDEX_TYPE_NORMAL")
  else if s = chars "unique" then some (chars "MYSQL_INDEX_TYPE_UNIQUE")
  else none

/-- `isspace`. -/
def isSpace (c : Byte) : Bool := c = 32 || (9 ≤ c.toNat && c.toNat ≤ 13)

/-- One of the flags between commas. Nothing is written for one that is blank. -/
def createFlagDefineStr (flag : Str) : Option Str :=
  if flag = chars "auto_increment" then some (chars "MYSQL_TABLE_CREATE_AUTOINCREMENT")
  else if flag = chars "unsigned" then some (chars "MYSQL_TABLE_CREATE_UNSIGNED")
  else if flag = chars "null" then some (chars "MYSQL_TABLE_CREATE_NULL")
  else if flag = chars "not null" then some (chars "MYSQL_TABLE_CREATE_NOT_NULL")
  else if flag = chars "current_timestamp" then some (chars "MYSQL_TABLE_CREATE_CURRENTTIMESTAMP")
  else if flag = chars "current_timestamp_on_update" then
    some (chars "MYSQL_TABLE_CREATE_CURRENTTIMESTAMP_ON_UPDATE")
  else if flag = chars "zerofill" then some (chars "MYSQL_TABLE_CREATE_ZEROFILL")
  else if flag = chars "default" then some (chars "MYSQL_TABLE_CREATE_DEFAULT")
  else if flag.all isSpace then some []
  else none

def getCreateFlagsDefineStr (createFlags : Str) : Option Str :=
  ((createFlags.splitOn 44).mapM createFlagDefineStr).map (List.intercalate (chars "|"))

def canSelectFieldType (fieldType : Str) : Bool :=
  fieldType = chars "int" || fieldType = chars "tinyint" || fieldType = chars "smallint" ||
    fieldType = chars "mediumint" || fieldType = chars "int" || fieldType = chars "bigint" ||
    contains fieldType (chars "blob:") || contains fieldType (chars "text") || fieldType = chars "char" ||
    fieldType = chars "varchar" || fieldType = chars "binary" || fieldType = chars "varbinary"

end DBConfigParser

end JmyGame
