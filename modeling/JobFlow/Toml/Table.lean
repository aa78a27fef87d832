import JobFlow.Toml.Value

/-!
Growing tables. Tables grow by keys, which may be dotted, and by headers. A path leads through
tables that are there or makes them; each rule below says which tables it may enter and which it may
end in. A key is never set twice.
-/

namespace JobFlow.Toml

namespace Entries

def get? (entries : Entries) (key : String) : Option Value := List.lookup key entries

def put (key : String) (value : Value) : Entries → Entries
  | [] => [(key, value)]
  | (other, old) :: rest =>
    if other = key then (key, value) :: rest else (other, old) :: put key value rest

/-- Follows a path and changes the table at its end, where the change may depend on how that table
came about. A dotted path does not enter tables that a header opened; no path enters inline tables
and static arrays; and of a list of tables it enters the last. -/
def alter (isDotted : Bool) (origin : TableOrigin)
    (change : TableOrigin → Entries → Option Entries) : List String → Entries → Option Entries
  | [], entries => change origin entries
  | key :: path, entries =>
    match entries.get? key with
    | none => do
      let made : TableOrigin := if isDotted then .dotted else .implied
      return entries.put key (.table made (← alter isDotted made change path []))
    | some (.table inner old) =>
      if inner = .inline ∨ (isDotted ∧ inner = .header) then none
      else return entries.put key (.table inner (← alter isDotted inner change path old))
    | some (.tables elements) => do
      let last ← elements.getLast?
      return entries.put key
        (.tables (elements.dropLast ++ [← alter isDotted .header change path last]))
    | some _ => none

/-- Sets a key that may be dotted. A dotted path ends in a table that dotted keys made. -/
def insert (path : List String) (key : String) (value : Value) (entries : Entries) :
    Option Entries :=
  alter true .header
    (fun origin entries =>
      if (path ≠ [] ∧ origin ≠ .dotted) ∨ (entries.get? key).isSome then none
      else some (entries.put key value))
    path entries

def insertAll (entries : Entries) : List (List String × String × Value) → Option Entries
  | [] => some entries
  | (path, key, value) :: rest => do (← entries.insert path key value).insertAll rest

/-- Opens a table by a header and fills it. A table that was only named on the way to others is
opened late; any other that is there is an error. -/
def openTable (path : List String) (key : String) (lines : List (List String × String × Value))
    (entries : Entries) : Option Entries :=
  alter false .header
    (fun _ entries =>
      match entries.get? key with
      | none => do return entries.put key (.table .header (← insertAll [] lines))
      | some (.table .implied old) => do
        return entries.put key (.table .header (← insertAll old lines))
      | some _ => none)
    path entries

def addTable (path : List String) (key : String) (lines : List (List String × String × Value))
    (entries : Entries) : Option Entries :=
  alter false .header
    (fun _ entries =>
      match entries.get? key with
      | none => do return entries.put key (.tables [← insertAll [] lines])
      | some (.tables elements) => do
        return entries.put key (.tables (elements ++ [← insertAll [] lines]))
      | some _ => none)
    path entries

end Entries

end JobFlow.Toml
