import JobFlow.Toml.Value
import JobFlow.Toml.Quoted

/-!
Values that are written without quotes and brackets: the two booleans, integers, floating-point
numbers, and dates and times.
-/

namespace JobFlow.Toml

def isDigit (c : Char) : Bool := '0' ≤ c && c ≤ '9'

def isBlank (c : Char) : Bool := c == ' ' || c == '\t'

namespace Scalar

/-- The digits of a number. An underscore may stand between two digits and nowhere else. -/
def digitGroups (isDigit : Char → Bool) : List Char → Option (List Char)
  | [] => none
  | [c] => if isDigit c then some [c] else none
  | c :: '_' :: rest => if isDigit c then (digitGroups isDigit rest).map (c :: ·) else none
  | c :: rest => if isDigit c then (digitGroups isDigit rest).map (c :: ·) else none

def number (base : Nat) (digits : List Char) : Nat :=
  digits.foldl (fun value c => value * base + (Quoted.hexDigit? c).getD 0) 0

/-- The digits of a decimal number, of which the first is not a needless zero. -/
def decimalDigits (text : List Char) : Option (List Char) :=
  match digitGroups isDigit text with
  | some ('0' :: _ :: _) => none
  | digits => digits

def sign : List Char → Bool × List Char
  | '-' :: rest => (true, rest)
  | '+' :: rest => (false, rest)
  | text => (false, text)

def signed (negative : Bool) (number : Nat) : Int := if negative then -(number : Int) else number

def isHexDigit (c : Char) : Bool := (Quoted.hexDigit? c).isSome

/-- An integer whose base is named. Without digits it stands for no number. -/
def based (base : Nat) (isDigit : Char → Bool) : List Char → Option (Option Int)
  | [] => some none
  | text => (digitGroups isDigit text).map (some <| number base ·)

/-- Whether every underscore stands between two hexadecimal digits, given the character before. -/
def isGrouped (before : Char) : List Char → Bool
  | [] => true
  | c :: rest =>
    (c ≠ '_' || isHexDigit before && rest.head?.any isHexDigit) && isGrouped c rest

/-- What may follow the first digits of a decimal integer: nothing, or an underscore and more. A
point or the mark of an exponent tells a floating-point number. -/
def isIntegerTail : List Char → Bool
  | [] => true
  | '_' :: rest =>
    isGrouped '0' ('_' :: rest) && !rest.any (fun c => c == ' ' || c == '.' || c == 'e' || c == 'E')
  | _ => false

/-- Whether a decimal integer without its sign starts as it should: with a digit, and with a zero
only if that is all. -/
def startsDecimal : List Char → Bool
  | [] => false
  | c :: rest => isDigit c && (c ≠ '0' || rest.isEmpty)

/-- A decimal integer. Once an underscore follows the first digits, only the neighbours of
underscores are looked at; with anything but digits among the rest it stands for no number. -/
def decimal (text : List Char) : Option (Option Int) :=
  let (negative, body) := sign text
  if startsDecimal body && isIntegerTail (body.dropWhile isDigit) then
    let digits := body.filter (· ≠ '_')
    some (if digits.all isDigit then some (signed negative (number 10 digits)) else none)
  else none

def integer? : List Char → Option (Option Int)
  | '0' :: 'x' :: rest => based 16 isHexDigit rest
  | '0' :: 'o' :: rest => based 8 (fun c => '0' ≤ c && c ≤ '7') rest
  | '0' :: 'b' :: rest => based 2 (fun c => c == '0' || c == '1') rest
  | text => decimal text

/-- An exponent, with its mark; its digits may start with zeros. Without one it is zero. -/
def exponent? : List Char → Option Int
  | [] => some 0
  | c :: rest =>
    if c = 'e' ∨ c = 'E' then
      let (negative, digits) := sign rest
      (digitGroups isDigit digits).map (signed negative <| number 10 ·)
    else none

def isGroupChar (c : Char) : Bool := isDigit c || c == '_'

def float? (text : List Char) : Option FloatLiteral :=
  let body := (sign text).2
  if body = ['i', 'n', 'f'] ∨ body = ['n', 'a', 'n'] then some .special
  else
    match decimalDigits (body.takeWhile isGroupChar), body.dropWhile isGroupChar with
    | none, _ => none
    | some _, [] => none
    | some whole, '.' :: rest => do
      let fraction ← digitGroups isDigit (rest.takeWhile isGroupChar)
      let exponent ← exponent? (rest.dropWhile isGroupChar)
      return .decimal (number 10 (whole ++ fraction)) (exponent - fraction.length)
    | some whole, rest => (exponent? rest).map (.decimal (number 10 whole) ·)

/-- The number that a fixed count of digits stands for, and what follows them. -/
def fixedDigits (count : Nat) : Reader Nat := fun text =>
  let digits := text.take count
  if digits.length = count ∧ digits.all isDigit then some (number 10 digits, text.drop count)
  else none

def daysInMonth (year month : Nat) : Nat :=
  if month = 2 then
    if year % 4 = 0 ∧ (year % 100 ≠ 0 ∨ year % 400 = 0) then 29 else 28
  else if month = 4 ∨ month = 6 ∨ month = 9 ∨ month = 11 then 30
  else 31

def date (text : List Char) : Option (List Char) :=
  match fixedDigits 4 text with
  | some (year, '-' :: rest) =>
    match fixedDigits 2 rest with
    | some (month, '-' :: rest) =>
      match fixedDigits 2 rest with
      | some (day, rest) =>
        if 1 ≤ month ∧ month ≤ 12 ∧ 1 ≤ day ∧ day ≤ daysInMonth year month then some rest else none
      | none => none
    | _ => none
  | _ => none

def hourMinute (text : List Char) : Option (List Char) :=
  match fixedDigits 2 text with
  | some (hour, ':' :: rest) =>
    match fixedDigits 2 rest with
    | some (minute, rest) => if hour ≤ 23 ∧ minute ≤ 59 then some rest else none
    | none => none
  | _ => none

/-- Leaves out a fraction of a second, which has at least one digit. -/
def secondFraction : List Char → Option (List Char)
  | '.' :: rest => if rest.head?.any isDigit then some (rest.dropWhile isDigit) else none
  | text => some text

/-- Reads a time of day. Seconds may be left out, and a leap second is one. -/
def time (text : List Char) : Option (List Char) :=
  match hourMinute text with
  | some (':' :: rest) =>
    match fixedDigits 2 rest with
    | some (second, rest) => if second ≤ 60 then secondFraction rest else none
    | none => none
  | rest => rest

def isOffset : List Char → Bool
  | ['Z'] | ['z'] => true
  | '+' :: rest | '-' :: rest => hourMinute rest = some []
  | _ => false

def isDatetime (text : List Char) : Bool :=
  match date text with
  | some [] => true
  | some (mark :: rest) =>
    (mark = 'T' ∨ mark = 't' ∨ mark = ' ') &&
      (time rest).any (fun rest => rest.isEmpty || isOffset rest)
  | none => time text = some []

def ofText? (text : List Char) : Option Value :=
  if text = "true".toList then some (.boolean true)
  else if text = "false".toList then some (.boolean false)
  else match integer? text, float? text with
    | some number, _ => some (.integer number)
    | none, some literal => some (.float literal)
    | none, none => if isDatetime text then some .datetime else none

/-- The characters that part values, keys and lines, and so end an unquoted value. -/
def delimiters : List Char := ['=', ',', '[', ']', '\x7b', '\x7d', ' ', '\t', '#', '\r', '\n']

def isScalarChar (c : Char) : Bool := c ∉ delimiters

/-- Whether an unquoted value goes on after blanks: with what is neither a delimiter nor a quote. -/
def goesOn (input : List Char) : Bool :=
  (input.dropWhile isBlank).head?.any fun c => isScalarChar c && c != '"' && c != '\''

/-- Parts the text of an unquoted value from what follows it. Blanks within it belong to it; whether
the blanks at hand do is known behind the first of them. -/
def split (within : Bool) : List Char → List Char × List Char
  | [] => ([], [])
  | c :: rest =>
    if isScalarChar c then
      let (text, rest) := split false rest
      (c :: text, rest)
    else if isBlank c && (within || goesOn rest) then
      let (text, rest) := split true rest
      (c :: text, rest)
    else ([], c :: rest)

def read : Reader Value := fun input =>
  let (text, rest) := split false input
  (ofText? text).map (·, rest)

end Scalar

end JobFlow.Toml
