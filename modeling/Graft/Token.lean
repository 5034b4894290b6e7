import Graft.Text.Hex

/-!
# Metadata tokens

A token names a row of one of a module's tables: the table's number in the high byte, the row in
the other three. Rows count from one, so the token zero names nothing.
-/

namespace Graft

/-- The tables that hold symbols. -/
inductive TableId where
  | module | typeDef | field | methodDef | event | property
  deriving DecidableEq, Repr, Hashable, Inhabited

/-- The number of a table. -/
def TableId.code : TableId → UInt8
  | .module => 0x00
  | .typeDef => 0x02
  | .field => 0x04
  | .methodDef => 0x06
  | .event => 0x14
  | .property => 0x17

/-- The name of a table. -/
def TableId.name : TableId → String
  | .module => "Module"
  | .typeDef => "TypeDef"
  | .field => "Field"
  | .methodDef => "MethodDef"
  | .event => "Event"
  | .property => "Property"

/-- Every table, in the order of the numbers. -/
def TableId.all : List TableId :=
  [.module, .typeDef, .field, .methodDef, .event, .property]

/-- The table with a number, if it is one that holds symbols. -/
def TableId.ofCode? (code : UInt8) : Option TableId :=
  TableId.all.find? (·.code == code)

/-- A metadata token. -/
structure Token where
  value : UInt32
  deriving DecidableEq, Repr, Hashable, Inhabited

namespace Token

/-- The token that names nothing. -/
def null : Token := ⟨0⟩

/-- The token of a row; a row that needs more than three bytes loses its high byte. -/
def ofParts (table : TableId) (row : UInt32) : Token :=
  ⟨(table.code.toUInt32 <<< 24) ||| (row &&& 0x00FFFFFF)⟩

/-- The number of the table. -/
def table (token : Token) : UInt8 :=
  (token.value >>> 24).toUInt8

/-- The row in its table. -/
def row (token : Token) : UInt32 :=
  token.value &&& 0x00FFFFFF

/-- Whether the token names nothing. -/
def isNull (token : Token) : Bool :=
  token.value == 0

/-- The token as eight hexadecimal digits. -/
def text (token : Token) : String :=
  "0x" ++ Text.hex 8 token.value.toNat

/-- The token taken apart, for diagnostics. -/
def describe (token : Token) : String :=
  "Token(" ++ token.text ++ ", table: 0x" ++ Text.hex 2 token.table.toNat ++ ", row: "
    ++ toString token.row.toNat ++ ")"

end Token

/-- How many rows of each table have been handed out. -/
structure RowCounts where
  module : UInt32 := 0
  typeDef : UInt32 := 0
  field : UInt32 := 0
  methodDef : UInt32 := 0
  event : UInt32 := 0
  property : UInt32 := 0
  deriving DecidableEq, Repr, Inhabited

namespace RowCounts

/-- The number of rows handed out of a table. -/
def count (rows : RowCounts) : TableId → UInt32
  | .module => rows.module
  | .typeDef => rows.typeDef
  | .field => rows.field
  | .methodDef => rows.methodDef
  | .event => rows.event
  | .property => rows.property

/-- One more row of a table. -/
def bump (rows : RowCounts) : TableId → RowCounts
  | .module => { rows with module := rows.module + 1 }
  | .typeDef => { rows with typeDef := rows.typeDef + 1 }
  | .field => { rows with field := rows.field + 1 }
  | .methodDef => { rows with methodDef := rows.methodDef + 1 }
  | .event => { rows with event := rows.event + 1 }
  | .property => { rows with property := rows.property + 1 }

/-- Handing out a row of one table counts there and nowhere else. -/
theorem count_bump (rows : RowCounts) (table other : TableId) :
    (rows.bump table).count other = rows.count other + if other = table then 1 else 0 := by
  cases table <;> cases other <;> simp [bump, count]

end RowCounts

end Graft
