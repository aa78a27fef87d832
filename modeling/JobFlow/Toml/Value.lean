/-!
The values of a TOML document. An integer may be written so that it stands for no number, and a
number may be one that no machine number can hold: these are values, but not readable ones.
-/

namespace JobFlow.Toml

/-- How a table came about, which decides how it may grow: written between braces, opened by a
header, named on the way to another header, or made by dotted keys. -/
inductive TableOrigin where
  | inline
  | header
  | implied
  | dotted
  deriving DecidableEq

/-- A floating-point literal: a decimal number, or an infinity or a NaN. -/
inductive FloatLiteral where
  | decimal (digits : Nat) (exponent : Int)
  | special
  deriving DecidableEq

/-- Dates and times are told apart from other values but not from each other. A list of tables, one
for each double-bracketed header, differs from an array in that it may grow. -/
inductive Value where
  | string (text : String)
  | integer (number : Option Int)
  | float (literal : FloatLiteral)
  | boolean (value : Bool)
  | datetime
  | array (elements : List Value)
  | table (origin : TableOrigin) (entries : List (String × Value))
  | tables (elements : List (List (String × Value)))

/-- The entries of a table, in the order in which they were written. -/
abbrev Entries := List (String × Value)

namespace FloatLiteral

/-- The least number that rounds to infinity: half a unit above the greatest finite number. -/
def overflowBound : Nat := (1 <<< 54 - 1) <<< 970

/-- Whether a literal rounds to a finite number. The powers of ten are only worked out where the
number of digits leaves the question open. -/
def isFinite (digits : Nat) (exponent : Int) : Bool :=
  let magnitude : Int := (Nat.toDigits 10 digits).length + exponent
  if digits = 0 || magnitude ≤ 308 then true
  else if 310 ≤ magnitude then false
  else if 0 ≤ exponent then digits * Nat.pow 10 exponent.toNat < overflowBound
  else digits < overflowBound * Nat.pow 10 (-exponent).toNat

def isReadable : FloatLiteral → Bool
  | decimal digits exponent => isFinite digits exponent
  | special => true

end FloatLiteral

/-- Integers are read with up to 128 bits, with or without a sign. -/
def isReadableInteger (number : Int) : Bool :=
  -(1 <<< 127) ≤ number && number < 1 <<< 128

mutual

/-- Whether every number in a value can be read. -/
def Value.isReadable : Value → Bool
  | .string _ | .boolean _ | .datetime => true
  | .integer number => number.any isReadableInteger
  | .float literal => literal.isReadable
  | .array elements => Value.areReadable elements
  | .table _ entries => Value.areReadableEntries entries
  | .tables elements => Value.areReadableTables elements

def Value.areReadable : List Value → Bool
  | [] => true
  | value :: rest => value.isReadable && Value.areReadable rest

def Value.areReadableEntries : List (String × Value) → Bool
  | [] => true
  | (_, value) :: rest => value.isReadable && Value.areReadableEntries rest

def Value.areReadableTables : List (List (String × Value)) → Bool
  | [] => true
  | entries :: rest => Value.areReadableEntries entries && Value.areReadableTables rest

end

end JobFlow.Toml
