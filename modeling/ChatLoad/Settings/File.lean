import ChatLoad.Settings.Basic
import ChatLoad.Toml.Document

/-! Reading settings from a TOML file. Values of another type are converted where they have a
sensible reading: numbers from floats, booleans and strings, texts from all but arrays and tables. -/

namespace ChatLoad

inductive SettingsError
  /-- no file, or not TOML -/
  | load
  /-- a value of the wrong type or range -/
  | parse
  deriving Repr, DecidableEq

namespace Settings

open Toml (Value)

def maxNumber : Nat := UInt64.size - 1

def maxPort : Nat := UInt16.size - 1

/-- Rounds to the nearest number, halves away from zero, and saturates at both ends. -/
def numberOfFloat (x : Float) : Nat :=
  match Double.ofFloat x with
  | .nan => 0
  | .infinite negative => if negative then 0 else maxNumber
  | .finite true _ _ => 0
  | .finite false mantissa exponent =>
      let (num, den) := Double.ratio mantissa exponent
      min (roundDiv .away num den) maxNumber

def lowercase (text : String) : String :=
  text.map Char.toLower

/-- A switch, or digits that may follow a plus sign. -/
def numberOfText? (text : String) : Option Nat :=
  let word := lowercase text
  if word = "true" ∨ word = "yes" ∨ word = "on" then some 1
  else if word = "false" ∨ word = "no" ∨ word = "off" then some 0
  else do
    let digits := match text.toList with
      | '+' :: rest => rest
      | word => word
    let n ← Toml.number? 10 digits
    if digits.isEmpty ∨ maxNumber < n then none else some n

def numberOf? : Value → Option Nat
  | .integer n => if n < 0 then none else some n.toNat
  | .float x => some (numberOfFloat x)
  | .boolean b => some (if b then 1 else 0)
  | .string text => numberOfText? text
  | _ => none

def portOf? (value : Value) : Option Nat := do
  let n ← numberOf? value
  if n ≤ maxPort then some n else none

def textOf? : Value → Option String
  | .string text => some text
  | .integer n => some (toString n)
  | .float x => some (Decimal.plain x)
  | .boolean b => some (if b then "true" else "false")
  | .moment text => some text
  | _ => none

/-- A quoted key such as `"port.x"` or `"port[0]"` reaches into the setting in front, which makes
that setting a table or an array. -/
def reaches (key path : String) : Bool :=
  let rest := path.toList.drop key.length
  path.toList.take key.length == key.toList && (rest.head? == some '.' || rest.head? == some '[') &&
    isPath rest.length rest
where
  isName (c : Char) : Bool := Toml.isDigit c || Toml.isLetter c || c == '_' || c == '-'
  isPath : Nat → List Char → Bool
    | 0, rest => rest.isEmpty
    | _ + 1, [] => true
    | rounds + 1, '.' :: rest =>
        !(rest.takeWhile isName).isEmpty && isPath rounds (rest.dropWhile isName)
    | rounds + 1, '[' :: rest =>
        let index := match rest with
          | '-' :: rest => rest
          | rest => rest
        match index.dropWhile Toml.isDigit with
        | ']' :: later => !(index.takeWhile Toml.isDigit).isEmpty && isPath rounds later
        | _ => false
    | _ + 1, _ => false

def entry {α : Type} (entries : Toml.Entries) (key : String) (read? : Value → Option α) (dflt : α) :
    Except SettingsError α :=
  if entries.any fun e => reaches key e.1 then .error .parse
  else
    match Toml.Tree.find? key entries with
    | none => .ok dflt
    | some value =>
        match read? value with
        | some a => .ok a
        | none => .error .parse

def ofEntries (entries : Toml.Entries) : Except SettingsError Settings := do
  let dflt : Settings := {}
  let number (key : String) (dflt : Nat) := entry entries key numberOf? dflt
  return {
    host := ← entry entries "host" textOf? dflt.host
    port := ← entry entries "port" portOf? dflt.port
    connectTimeoutMs := ← number "connect_timeout_ms" dflt.connectTimeoutMs
    authTimeoutMs := ← number "auth_timeout_ms" dflt.authTimeoutMs
    receiveTimeoutMs := ← number "receive_timeout_ms" dflt.receiveTimeoutMs
    heartbeatIntervalMs := ← number "heartbeat_interval_ms" dflt.heartbeatIntervalMs
    batchSize := ← number "batch_size" dflt.batchSize
    connectStaggerMs := ← number "connect_stagger_ms" dflt.connectStaggerMs
    sendIntervalMs := ← number "send_interval_ms" dflt.sendIntervalMs
    offlineSettleMs := ← number "offline_settle_ms" dflt.offlineSettleMs
    offlineDeliveryWaitMs := ← number "offline_delivery_wait_ms" dflt.offlineDeliveryWaitMs
    progressIntervalSecs := ← number "progress_interval_secs" dflt.progressIntervalSecs }

def parse (text : String) : Except SettingsError Settings :=
  match Toml.parse? text with
  | some entries => ofEntries entries
  | none => .error .load

/-- The settings of a run. A file that was named has to exist; else a missing one means the
defaults. -/
def load (named : Bool) (file : Option String) : Except SettingsError Settings :=
  match file with
  | some text => parse text
  | none => if named then .error .load else .ok {}

end Settings

end ChatLoad
