/-
This file lists the names the language itself gives a meaning to. Scalars have a
value, most of them of a fixed width; streams carry any number of bytes beside a
call; `void` stands for the absence of a value. Every other name refers to a
message that a file declares.
-/

namespace Idl

/-- What a type name stands for. -/
inductive TypeKind where
  /-- A single value, or `void`. -/
  | scalar
  /-- Bytes that flow beside a call. -/
  | stream
  /-- A message that is declared under this name. -/
  | messageReference
deriving DecidableEq, Repr

namespace Builtin

/-- The version of these tables; it grows when a name or a width is added. -/
def tableVersion : UInt32 := 1

/-- The name of the absence of a value. -/
def voidName : String := "void"

/-- The stream types. -/
def streamNames : List String := ["stream", "istream", "ostream"]

/-- The scalar types of a fixed width, with their width in bytes. -/
def widths : List (String × Nat) :=
  [("int8", 1), ("uint8", 1), ("int16", 2), ("uint16", 2), ("int32", 4), ("uint32", 4),
    ("float32", 4), ("int64", 8), ("uint64", 8), ("float64", 8)]

/-- All names with a meaning of their own. -/
def names : List String :=
  ["int8", "uint8", "int16", "uint16", "int32", "uint32", "int64", "uint64", "float32",
    "float64", "string", "void", "stream", "istream", "ostream"]

/-- The name has a meaning of its own. -/
def isBuiltin (name : String) : Bool := names.contains name

/-- The name is that of a stream type. -/
def isStream (name : String) : Bool := streamNames.contains name

/-- The name stands for the absence of a value. -/
def isVoid (name : String) : Bool := name == voidName

/-- The width of a scalar in bytes, if it has a fixed one. -/
def width? (name : String) : Option Nat := widths.lookup name

/-- What a name stands for. -/
def classify (name : String) : TypeKind :=
  if isStream name then .stream
  else if isBuiltin name then .scalar
  else .messageReference

end Builtin

end Idl
