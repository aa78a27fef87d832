import JobFlow.Toml.Scalar
import JobFlow.Toml.Table

/-!
Documents: lines that set keys, grouped under headers, read into one table.
-/

namespace JobFlow.Toml

abbrev Assignment := List String × String × Value

inductive Line where
  | assign (assignment : Assignment)
  | table (path : List String) (key : String)
  | element (path : List String) (key : String)

namespace Document

/-- The greatest depth to which arrays and inline tables may be nested, and paths may lead. -/
def depthLimit : Nat := 80

def skipBlanks (input : List Char) : List Char := input.dropWhile isBlank

/-- Skips blanks, line breaks and comments. A comment ends with its line. -/
def skipTrivia (inComment : Bool) : List Char → Option (List Char)
  | [] => some []
  | '\n' :: rest => skipTrivia false rest
  | '\r' :: rest => if rest.head? = some '\n' then skipTrivia false rest else none
  | c :: rest =>
    if inComment then if Quoted.isPlain c then skipTrivia true rest else none
    else if isBlank c then skipTrivia false rest
    else if c = '#' then skipTrivia true rest
    else some (c :: rest)

/-- What may follow on a line that said something: blanks, a comment, and the end of the line. -/
def endLine (input : List Char) : Option (List Char) :=
  match skipBlanks input with
  | [] => some []
  | c :: rest => if c = '#' ∨ c = '\n' ∨ c = '\r' then skipTrivia false (c :: rest) else none

def isBareKeyChar (c : Char) : Bool := c.isAlphanum || c == '_' || c == '-'

def keyPart : Reader String := fun input =>
  match input.takeWhile isBareKeyChar with
  | [] => Quoted.key input
  | bare => some (String.ofList bare, input.dropWhile isBareKeyChar)

/-- Reads the parts of a key, with blanks around the dots. -/
def keyParts : Nat → Reader (List String)
  | 0, _ => none
  | limit + 1, input =>
    match keyPart input with
    | none => none
    | some (part, rest) =>
      match skipBlanks rest with
      | '.' :: rest => do
        let (parts, rest) ← keyParts limit (skipBlanks rest)
        return (part :: parts, rest)
      | rest => some ([part], rest)

def key : Reader (List String × String) := fun input =>
  match keyParts depthLimit input with
  | some (part :: parts, rest) =>
    some (((part :: parts).dropLast, parts.getLastD part), rest)
  | _ => none

/-- Reads a key with its value, given what may be skipped on both sides of the equals sign. -/
def assignment (skip : List Char → Option (List Char)) (value : Reader Value) :
    Reader Assignment := fun input => do
  let ((path, last), rest) ← key input
  match ← skip rest with
  | '=' :: rest =>
    let (value, rest) ← value (← skip rest)
    return ((path, last, value), rest)
  | _ => none

/-- Reads items up to a closing bracket, with commas between them and perhaps after the last. There
are never more items than characters. -/
def items {α : Type} (item : Reader α) (close : Char) : Nat → Reader (List α)
  | 0, _ => none
  | limit + 1, input =>
    match skipTrivia false input with
    | none | some [] => none
    | some (c :: rest) =>
      if c = close then some ([], rest)
      else do
        let (first, rest) ← item (c :: rest)
        match ← skipTrivia false rest with
        | [] => none
        | c :: rest =>
          if c = ',' then do
            let (later, rest) ← items item close limit rest
            return (first :: later, rest)
          else if c = close then some ([first], rest)
          else none

/-- Reads a value, in which brackets may be nested to a given depth. -/
def value : Nat → Reader Value
  | depth + 1, '[' :: rest => do
    let (elements, rest) ← items (value depth) ']' (rest.length + 1) rest
    return (.array elements, rest)
  | depth + 1, '\x7b' :: rest => do
    let entry := assignment (skipTrivia false) (value depth)
    let (assignments, rest) ← items entry '\x7d' (rest.length + 1) rest
    let entries ← Entries.insertAll [] assignments
    return (.table .inline entries, rest)
  | _, input =>
    match Quoted.value input with
    | some (text, rest) => some (.string text, rest)
    | none => Scalar.read input

def line : Reader Line
  | '[' :: '[' :: rest => do
    let ((path, last), rest) ← key (skipBlanks rest)
    match rest with
    | ']' :: ']' :: rest => return (.element path last, rest)
    | _ => none
  | '[' :: rest => do
    let ((path, last), rest) ← key (skipBlanks rest)
    match rest with
    | ']' :: rest => return (.table path last, rest)
    | _ => none
  | input => do
    let (assignment, rest) ← assignment (some <| skipBlanks ·) (value depthLimit) input
    return (.assign assignment, rest)

/-- Reads the lines of a document. There are never more of them than characters. -/
def lines : Nat → List Char → Option (List Line)
  | 0, _ => none
  | limit + 1, input =>
    match skipTrivia false input with
    | none => none
    | some [] => some []
    | some input => do
      let (first, rest) ← line input
      return first :: (← lines limit (← endLine rest))

def leading : List Line → List Assignment
  | .assign assignment :: rest => assignment :: leading rest
  | _ => []

/-- Carries out the headers, each with the assignments that follow it. -/
def build (entries : Entries) : List Line → Option Entries
  | [] => some entries
  | .assign _ :: rest => build entries rest
  | .table path key :: rest => do build (← entries.openTable path key (leading rest)) rest
  | .element path key :: rest => do build (← entries.addTable path key (leading rest)) rest

def dropMark : List Char → List Char
  | c :: rest => if c.toNat = 0xfeff then rest else c :: rest
  | [] => []

def parse? (text : String) : Option Entries := do
  let input := dropMark text.toList
  let lines ← lines (input.length + 1) input
  build (← Entries.insertAll [] (leading lines)) lines

end Document

end JobFlow.Toml
