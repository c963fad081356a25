import EntityRelation.Text.Blank

/-!
# Column types

The types that a column may have, the names they are written with in a diagram, in any case of the
ASCII letters, and the field classes they become.
-/

namespace EntityRelation

/-- The type of a column. -/
inductive ColumnType where
  | varchar | boolean | integer | char | blob | text | smallInt | bigInt | decimal | numeric
  | float | double | bit | date | time | dateTime | timestamp
  deriving DecidableEq, Repr

namespace ColumnType

/-- All column types. -/
def all : List ColumnType :=
  [varchar, boolean, integer, char, blob, text, smallInt, bigInt, decimal, numeric, float, double,
    bit, date, time, dateTime, timestamp]

/-- The name of a type in capitals. -/
def name : ColumnType → String
  | varchar => "VARCHAR"
  | boolean => "BOOLEAN"
  | integer => "INTEGER"
  | char => "CHAR"
  | blob => "BLOB"
  | text => "TEXT"
  | smallInt => "SMALLINT"
  | bigInt => "BIGINT"
  | decimal => "DECIMAL"
  | numeric => "NUMERIC"
  | float => "FLOAT"
  | double => "DOUBLE"
  | bit => "BIT"
  | date => "DATE"
  | time => "TIME"
  | dateTime => "DATETIME"
  | timestamp => "TIMESTAMP"

/-- The field class of a type. -/
def fieldClass : ColumnType → String
  | varchar => "CharField"
  | boolean => "BooleanField"
  | integer => "IntegerField"
  | char => "FixedCharField"
  | blob => "BlobField"
  | text => "TextField"
  | smallInt => "SmallIntegerField"
  | bigInt => "BigIntegerField"
  | decimal => "DecimalField"
  | numeric => "DecimalField"
  | float => "FloatField"
  | double => "DoubleField"
  | bit => "BitField"
  | date => "DateField"
  | time => "TimeField"
  | dateTime => "DateTimeField"
  | timestamp => "TimestampField"

/-- The text with its ASCII letters in capitals. -/
def capitals (s : String) : String := String.ofList (s.toList.map Char.toUpper)

/-- The type that a text stands for, blanks around it and the case of ASCII letters aside. -/
def parse? (s : String) : Option ColumnType :=
  all.find? fun t => t.name == capitals (Text.trim s)

end ColumnType

end EntityRelation
