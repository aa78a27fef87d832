/-!
Quoted texts: basic ones, in which a backslash starts an escape, and literal ones, in which it does
not, each on one line or on several. A reader takes what follows the opening quotes and gives the
text with what follows the closing ones.
-/

namespace JobFlow.Toml

/-- A reader takes a part off the front of its input, or fails. -/
abbrev Reader (α : Type) := List Char → Option (α × List Char)

namespace Quoted

/-- The characters that may stand for themselves in quoted texts and in comments: all but the
control characters, of which only the tab is allowed. -/
def isPlain (c : Char) : Bool := c == '\t' || (0x20 ≤ c.toNat && c.toNat != 0x7f)

def hexDigit? (c : Char) : Option Nat :=
  if '0' ≤ c ∧ c ≤ '9' then some (c.toNat - '0'.toNat)
  else if 'a' ≤ c ∧ c ≤ 'f' then some (c.toNat - 'a'.toNat + 10)
  else if 'A' ≤ c ∧ c ≤ 'F' then some (c.toNat - 'A'.toNat + 10)
  else none

/-- The character of a code point, which a surrogate has none of. -/
def scalar? (code : Nat) : Option Char :=
  if code < 0xd800 ∨ (0xdfff < code ∧ code < 0x110000) then some (Char.ofNat code) else none

def escape? : Char → Option Char
  | 'b' => some (Char.ofNat 0x8)
  | 't' => some '\t'
  | 'n' => some '\n'
  | 'f' => some (Char.ofNat 0xc)
  | 'r' => some '\r'
  | 'e' => some (Char.ofNat 0x1b)
  | '"' => some '"'
  | '\\' => some '\\'
  | _ => none

/-- The number of hexadecimal digits of a numeric escape. -/
def codeLength? : Char → Option Nat
  | 'x' => some 2
  | 'u' => some 4
  | 'U' => some 8
  | _ => none

/-- Where a reader of escapes stands: in the text, perhaps folding white space away; after a
backslash; within the digits of a code point; or between a backslash and the end of its line. -/
inductive Mode where
  | text (folding : Bool)
  | escape
  | code (left value : Nat)
  | lineEnd

/-- One character of an escape: the next mode, and the escaped character once it is known. -/
def Mode.step? : Mode → Char → Option (Mode × Option Char)
  | escape, c =>
    match escape? c, codeLength? c with
    | some escaped, _ => some (.text false, some escaped)
    | none, some length => some (.code length 0, none)
    | none, none => none
  | code left value, c =>
    match hexDigit? c with
    | none => none
    | some digit =>
      let value := value * 16 + digit
      if left ≤ 1 then (scalar? value).map (fun scalar => (.text false, some scalar))
      else some (.code (left - 1) value, none)
  | text _, _ | lineEnd, _ => none

def prepend (c : Char) : Option (List Char × List Char) → Option (List Char × List Char)
  | some (text, rest) => some (c :: text, rest)
  | none => none

def basic : Mode → Reader (List Char)
  | _, [] => none
  | .text _, c :: rest =>
    if c = '"' then some ([], rest)
    else if c = '\\' then basic .escape rest
    else if isPlain c then prepend c (basic (.text false) rest)
    else none
  | mode, c :: rest =>
    match mode.step? c with
    | some (mode, some escaped) => prepend escaped (basic mode rest)
    | some (mode, none) => basic mode rest
    | none => none

def literal : Reader (List Char)
  | [] => none
  | c :: rest =>
    if c = '\'' then some ([], rest)
    else if isPlain c then prepend c (literal rest)
    else none

/-- What follows three closing quotes: up to two more belong to the text. -/
def closing (quote : Char) (rest : List Char) : List Char × List Char :=
  let extra := min (rest.takeWhile (· == quote)).length 2
  (List.replicate extra quote, rest.drop extra)

def isLineBreak : List Char → Bool
  | '\n' :: _ => true
  | '\r' :: '\n' :: _ => true
  | _ => false

def isSpace (input : List Char) : Bool :=
  input.head? = some ' ' || input.head? = some '\t' || isLineBreak input

/-- Reads a basic text of several lines up to its closing quotes. A backslash at the end of a line
removes the line break and the white space after it. -/
def basicLines : Mode → Reader (List Char)
  | _, [] => none
  | .text folding, c :: rest =>
    if folding ∧ isSpace (c :: rest) then basicLines (.text true) rest
    else if c = '"' ∧ rest.take 2 = ['"', '"'] then some (closing '"' (rest.drop 2))
    else if c = '\\' then basicLines (if isSpace rest then .lineEnd else .escape) rest
    else if isPlain c ∨ isLineBreak (c :: rest) then prepend c (basicLines (.text false) rest)
    else none
  | .lineEnd, c :: rest =>
    if c = '\n' then basicLines (.text true) rest
    else if isSpace (c :: rest) then basicLines .lineEnd rest
    else none
  | mode, c :: rest =>
    match mode.step? c with
    | some (mode, some escaped) => prepend escaped (basicLines mode rest)
    | some (mode, none) => basicLines mode rest
    | none => none

def literalLines : Reader (List Char)
  | [] => none
  | c :: rest =>
    if c = '\'' ∧ rest.take 2 = ['\'', '\''] then some (closing '\'' (rest.drop 2))
    else if isPlain c ∨ isLineBreak (c :: rest) then prepend c (literalLines rest)
    else none

def dropLineBreak : List Char → List Char
  | '\n' :: rest => rest
  | '\r' :: '\n' :: rest => rest
  | input => input

def toText : Option (List Char × List Char) → Option (String × List Char) :=
  Option.map fun (text, rest) => (String.ofList text, rest)

def value : Reader String
  | '"' :: '"' :: '"' :: rest => toText (basicLines (.text false) (dropLineBreak rest))
  | '"' :: rest => toText (basic (.text false) rest)
  | '\'' :: '\'' :: '\'' :: rest => toText (literalLines (dropLineBreak rest))
  | '\'' :: rest => toText (literal rest)
  | _ => none

/-- Reads a quoted text that is a key, which stays on its line. -/
def key : Reader String
  | '"' :: rest => toText (basic (.text false) rest)
  | '\'' :: rest => toText (literal rest)
  | _ => none

end Quoted

end JobFlow.Toml
