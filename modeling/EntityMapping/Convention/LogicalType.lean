import EntityMapping.Entries
import EntityMapping.Relational.Column
import EntityMapping.Text.CharClass
import EntityMapping.Text.Recase

/-! # Logical types

The type of a property follows from the SQL type of its column, without parameters and in upper
case. Exact numbers without a fraction get the narrowest integer that holds all their digits.
-/
namespace EntityMapping.LogicalType
open Text

def byBaseType : Entries String String := [
  ("BIGINT", "long"), ("INTEGER", "integer"), ("INT", "integer"), ("MEDIUMINT", "integer"),
  ("SMALLINT", "short"), ("TINYINT", "byte"), ("BIT", "boolean"), ("BOOLEAN", "boolean"),
  ("BOOL", "boolean"), ("REAL", "float"), ("FLOAT", "double"), ("DOUBLE", "double"),
  ("DOUBLE_PRECISION", "double"), ("DECIMAL", "big_decimal"), ("NUMERIC", "big_decimal"),
  ("NUMBER", "big_decimal"), ("CHAR", "string"), ("NCHAR", "string"), ("VARCHAR", "string"),
  ("NVARCHAR", "string"), ("VARCHAR2", "string"), ("TEXT", "text"), ("CLOB", "clob"),
  ("NCLOB", "clob"), ("DATE", "date"), ("TIME", "time"), ("DATETIME", "timestamp"),
  ("TIMESTAMP", "timestamp"), ("BLOB", "blob"), ("BINARY", "binary"), ("VARBINARY", "binary"),
  ("UUID", "uuid")]

/-- What stands in front of a parenthesis, with one word for each SQL type. -/
def baseTypeChars (cs : List Char) : List Char :=
  (upperChars (trimChars (cs.takeWhile (· ≠ '(')))).map fun c => if c = ' ' then '_' else c

def baseType (sqlType : String) : String := String.ofList (baseTypeChars sqlType.toList)

def isExact (base : String) : Bool := base ∈ ["NUMERIC", "DECIMAL", "NUMBER"]

def ofDigits (precision : Int) : String :=
  if precision < 10 then "integer" else if precision < 19 then "long" else "big_integer"

def baseOf (c : Column) : Answer String := do
  if c.sqlType.truthy then pure (baseType (← c.sqlType.asText .notText)) else pure ""

/-- Whether the digits of a column of this base count: those of an exact number without a
fraction. -/
def countsDigits (base : String) (c : Column) : Bool :=
  isExact base && c.scale.number? = some 0 && c.precision.truthy

def ofColumn (c : Column) : Answer String := do
  let base ← baseOf c
  if countsDigits base c then
    match c.precision.number? with
    | some precision => pure (ofDigits precision)
    | none => throw .notNumber
  else if base = "CHAR" ∧ c.length.number? = some 1 then pure "character"
  else pure ((byBaseType.get? base).getD "serializable")

/-- Counters and timestamps: the types that can tell one version from the next. -/
def countsVersions (type : Name) : Bool :=
  type.text?.any fun t =>
    t ∈ ["byte", "short", "integer", "long", "big_integer", "big_decimal", "timestamp"]

end EntityMapping.LogicalType
