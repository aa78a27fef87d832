import JobFlow.Config
import JobFlow.Toml.Document

/-!
Settings read from a file. Sections and keys that are not known are ignored, as long as their values
can be read. A section is a table, or an array that gives the values of its keys in order; a date
counts as a table without known keys. A word that chooses is a text, or a table whose one key is the
word and whose value is empty.
-/

namespace JobFlow

open Toml

inductive FileContent where
  | missing
  | directory
  | bytes (content : List UInt8)

inductive ConfigReadError where
  | file (fault : ReadFault)
  | format

/-- The details of a format error are not part of what is promised about it. -/
def ConfigReadError.error : ConfigReadError → Error
  | file fault => fault.error
  | format => .toml ""

namespace FileContent

def text (content : FileContent) : Except ReadFault String :=
  match content with
  | missing => .error .missing
  | directory => .error .directory
  | bytes content =>
    match String.fromUTF8? ⟨content.toArray⟩ with
    | some text => .ok text
    | none => .error .notText

end FileContent

namespace Settings

/-- The word of a value that chooses among words. -/
def word? : Value → Option String
  | .string text => some text
  | .table _ [(word, .table _ [])] => some word
  | .table _ [(word, .array [])] => some word
  | _ => none

/-- The choice that a value names exactly. -/
def choice? {α : Type} (choices : List α) (text : α → String) (value : Value) : Option α :=
  (word? value).bind fun word => choices.find? (text · = word)

def gating? : Value → Option Gating := choice? Gating.all Gating.text

def threshold? : Value → Option Nat
  | .integer (some number) => if 0 ≤ number ∧ number < 1 <<< 64 then some number.toNat else none
  | _ => none

def level? (value : Value) : Option (Option LogLevel) :=
  (choice? LogLevel.all LogLevel.text value).map some

/-- Reads a section with one known key; unknown keys only have to be readable. -/
def section? {α : Type} (key : String) (read : Value → Option α) (fallback : α) :
    Value → Option α
  | .table _ entries => fields entries
  | .datetime | .array [] => some fallback
  | .array (first :: _) => read first
  | .tables (first :: _) => read (.table .header first)
  | _ => none
where
  fields : Entries → Option α
    | [] => some fallback
    | (name, value) :: rest =>
      if name = key then
        if Value.areReadableEntries rest then read value else none
      else if value.isReadable then fields rest
      else none

/-- Takes one section of a document into account; a key that is not given keeps its default. -/
def addSection (settings : Settings) (name : String) (value : Value) : Option Settings :=
  if name = "coordinator" then
    (section? "start_gating" gating? ({} : Settings).gating value).map
      fun gating => { settings with gating := gating }
  else if name = "dispatcher" then
    (section? "backlog_warn_threshold" threshold? ({} : Settings).backlogThreshold value).map
      fun threshold => { settings with backlogThreshold := threshold }
  else if name = "logging" then
    (section? "level" level? ({} : Settings).level value).map
      fun level => { settings with level := level }
  else if value.isReadable then some settings
  else none

def ofEntries? (entries : Entries) : Option Settings :=
  entries.foldlM (fun settings (name, value) => settings.addSection name value) {}

def load (content : FileContent) : Except ConfigReadError Settings :=
  match content.text with
  | .error fault => .error (.file fault)
  | .ok text =>
    match (Document.parse? text).bind ofEntries? with
    | some settings => .ok settings
    | none => .error .format

end Settings

/-- Reads settings from a file and checks them. -/
def Config.load (content : FileContent) : Except Error Config :=
  match Settings.load content with
  | .error fault => .error fault.error
  | .ok settings =>
    match settings.validate with
    | .error defect => .error defect.error
    | .ok config => .ok config

end JobFlow
