import CelShell.Shell.Settings
import CelShell.Toml.Document

/-!
# Configuration files

A configuration file holds settings under the key `repl`. Settings that it leaves out keep their
values, keys that mean nothing are ignored, and a setting of a wrong type is an error.
-/

namespace CelShell

/-- Why there is no configuration. -/
inductive ConfigError where
  /-- A file cannot be read. -/
  | unreadable (path reason : String)
  /-- A text is not in the format. -/
  | malformed (fault : Toml.Fault)
  /-- A setting has a value of another type or out of range. -/
  | mistyped
  /-- Nothing could be kept for inspection. -/
  | emptyHistory
  deriving DecidableEq, Repr

/-- The text of an error. -/
def ConfigError.text : ConfigError → String
  | unreadable path reason => "IO error reading " ++ path ++ ": " ++ reason
  | malformed fault => "Config parse error: " ++ fault.text
  | mistyped => "Config parse error: a setting has a wrong value"
  | emptyHistory => "Invalid config: repl.history_size must be positive"

namespace Toml

/-- A number that counts something. -/
def count? : Toml → Option Nat
  | integer n => if 0 ≤ n then some n.toNat else none
  | _ => none

/-- A truth value. -/
def boolean? : Toml → Option Bool
  | boolean b => some b
  | _ => none

/-- A text. -/
def string? : Toml → Option String
  | string s => some s
  | _ => none

end Toml

namespace Settings

/-- The settings by their keys, each with how a value changes it. -/
def fields : Table String (Settings → Toml → Option Settings) :=
  [("history_size", fun s v => v.count?.map fun n => { s with historySize := n }),
    ("check", fun s v => v.boolean?.map fun b => { s with check := b }),
    ("macros", fun s v => v.boolean?.map fun b => { s with macrosOn := b }),
    ("prompt", fun s v => v.string?.map fun t => { s with prompt := t }),
    ("format_indent", fun s v => v.count?.map fun n => { s with formatIndent := n }),
    ("vi_mode", fun s v => v.boolean?.map fun b => { s with viMode := b })]

/-- The settings of a value: those that a table names, or those that an array lists in their order.
A date holds no settings, so all keep their values. -/
def ofToml? : Toml → Option Settings
  | .table entries =>
    entries.foldlM (fun s (key, v) =>
      match Table.get? fields key with
      | some set => set s v
      | none => some s) {}
  | .array items => (items.zip fields).foldlM (fun s (v, _, set) => set s v) {}
  | .datetime _ => some {}
  | _ => none

/-- The settings of a document. -/
def ofDocument? : Toml → Option Settings
  | .table entries =>
    match Table.get? entries "repl" with
    | some v => ofToml? v
    | none => some {}
  | _ => none

end Settings

namespace Config

/-- The settings of a text. -/
def parse (content : String) : Except ConfigError Settings := do
  let document ← (Toml.parse content).mapError .malformed
  match Settings.ofDocument? document with
  | none => throw .mistyped
  | some s => if s.historySize = 0 then throw .emptyHistory else return s

/-- The settings of a file, from its bytes or the reason why it cannot be read. -/
def load (path : String) (bytes : Except String ByteArray) : Except ConfigError Settings := do
  let bytes ← bytes.mapError (.unreadable path)
  match String.fromUTF8? bytes with
  | some content => parse content
  | none => throw (.unreadable path "stream did not contain valid UTF-8")

/-! ## Where the file of the user is -/

/-- A path within a directory. -/
def join (directory name : String) : String :=
  if directory.isEmpty || directory.endsWith "/" then directory ++ name
  else directory ++ "/" ++ name

/-- The directory of the configuration, from the directories that the system names: that of all
configurations, that of the user, and that of application data. The first that is named counts. -/
def directory? (configHome home appData : Option String) : Option String :=
  match configHome, home, appData with
  | some d, _, _ => some (join d "cel-repl")
  | none, some d, _ => some (join (join d ".config") "cel-repl")
  | none, none, some d => some (join d "cel-repl")
  | none, none, none => none

/-- The file of the configuration. -/
def file? (configHome home appData : Option String) : Option String :=
  (directory? configHome home appData).map fun d => join d "config.toml"

end Config

end CelShell
