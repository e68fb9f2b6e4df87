import ChatLoad.Scenario.Basic

/-! The options of the command line. Arguments are read from left to right. The value of an option that
follows as an argument of its own is examined only when the next argument has been looked at, so an
unknown argument there is reported first. -/

namespace ChatLoad

inductive OptionName
  | host
  | port
  | clients
  | messages
  | groups
  | duration
  | qps
  | scenario
  | config
  deriving Repr, DecidableEq

namespace OptionName

def all : List OptionName :=
  [host, port, clients, messages, groups, duration, qps, scenario, config]

def name : OptionName → String
  | host => "host"
  | port => "port"
  | clients => "clients"
  | messages => "messages"
  | groups => "groups"
  | duration => "duration"
  | qps => "qps"
  | scenario => "scenario"
  | config => "config"

def ofName? (name : String) : Option OptionName :=
  all.find? (·.name == name)

def shown (option : OptionName) : String :=
  s!"--{option.name} <{option.name.map Char.toUpper}>"

end OptionName

inductive Selection
  | all
  | only (workload : Workload)
  deriving Repr, DecidableEq

namespace Selection

def named : List (String × Selection) :=
  [("all", all), ("single", only .singleChat), ("group", only .groupChat),
    ("heartbeat", only .heartbeat), ("offline", only .offlineMessage), ("stress", only .stress)]

def workloads : Selection → List Workload
  | all => Workload.all
  | only workload => [workload]

def label : Selection → String
  | all => "All"
  | only .singleChat => "Single"
  | only .groupChat => "Group"
  | only .heartbeat => "Heartbeat"
  | only .offlineMessage => "Offline"
  | only .stress => "Stress"

end Selection

structure Options where
  host : Option String := none
  port : Option Nat := none
  params : RunParams := {}
  selection : Selection := .all
  json : Bool := false
  config : Option String := none
  deriving Repr, DecidableEq

inductive NumberFault
  | empty
  | invalidDigit
  | tooLarge
  | tooSmall
  | outOfRange (n : Int) (limit : Nat)
  deriving Repr, DecidableEq

namespace NumberFault

def message : NumberFault → String
  | empty => "cannot parse integer from empty string"
  | invalidDigit => "invalid digit found in string"
  | tooLarge => "number too large to fit in target type"
  | tooSmall => "number too small to fit in target type"
  | outOfRange n limit => s!"{n} is not in 0..={limit}"

end NumberFault

inductive UsageError
  | unexpectedArgument (arg : String)
  | unexpectedValue (flag value : String)
  | missingValue (option : OptionName)
  | repeated (shown : String)
  | invalidNumber (option : OptionName) (value : String) (fault : NumberFault)
  | invalidChoice (option : OptionName) (value : String)
  deriving Repr, DecidableEq

namespace UsageError

def message : UsageError → String
  | unexpectedArgument arg => s!"error: unexpected argument '{arg}' found"
  | unexpectedValue flag value =>
      s!"error: unexpected value '{value}' for '{flag}' found; no more were expected"
  | missingValue option =>
      s!"error: a value is required for '{option.shown}' but none was supplied"
  | repeated shown => s!"error: the argument '{shown}' cannot be used multiple times"
  | invalidNumber option value fault =>
      s!"error: invalid value '{value}' for '{option.shown}': {fault.message}"
  | invalidChoice option value => s!"error: invalid value '{value}' for '{option.shown}'"

end UsageError

/-! ### Values -/

/-- Decimal digits, at least one. -/
def digitsNumber? (digits : List Char) : Option Nat :=
  if digits.isEmpty || !digits.all Char.isDigit then none
  else some (digits.foldl (fun sum c => sum * 10 + (c.toNat - '0'.toNat)) 0)

/-- A number of at most 64 bits, which may have a plus sign. -/
def unsignedNumber (text : String) : Except NumberFault Nat :=
  let digits := match text.toList with
    | '+' :: rest => rest
    | chars => chars
  if text.isEmpty then .error .empty
  else
    match digitsNumber? digits with
    | none => .error .invalidDigit
    | some n => if n < UInt64.size then .ok n else .error .tooLarge

/-- A number with 63 bits and a sign. -/
def signedNumber (text : String) : Except NumberFault Int :=
  let (negative, digits) := match text.toList with
    | '-' :: rest => (true, rest)
    | '+' :: rest => (false, rest)
    | chars => (false, chars)
  if text.isEmpty then .error .empty
  else
    match digitsNumber? digits with
    | none => .error .invalidDigit
    | some n =>
        if negative then if n ≤ 0x8000000000000000 then .ok (-n) else .error .tooSmall
        else if n < 0x8000000000000000 then .ok n
        else .error .tooLarge

def portNumber (text : String) : Except NumberFault Nat := do
  let n ← signedNumber text
  if 0 ≤ n ∧ n ≤ 65535 then return n.toNat else throw (.outOfRange n 65535)

namespace Options

def set (options : Options) (option : OptionName) (value : String) : Except UsageError Options :=
  let number (change : Nat → RunParams) : Except UsageError Options :=
    match unsignedNumber value with
    | .ok n => .ok { options with params := change n }
    | .error fault => .error (.invalidNumber option value fault)
  let params := options.params
  match option with
  | .host => .ok { options with host := some value }
  | .config => .ok { options with config := some value }
  | .port =>
      match portNumber value with
      | .ok n => .ok { options with port := some n }
      | .error fault => .error (.invalidNumber option value fault)
  | .clients => number fun n => { params with clients := n }
  | .messages => number fun n => { params with messagesPerClient := n }
  | .groups => number fun n => { params with groups := n }
  | .duration => number fun n => { params with duration := .ofSecs n }
  | .qps => number fun n => { params with targetRate := n }
  | .scenario =>
      match Selection.named.lookup value with
      | some selection => .ok { options with selection }
      | none => .error (if value.isEmpty then .missingValue option else .invalidChoice option value)

end Options

/-! ### Arguments -/

inductive Arg
  /-- behind two dashes, maybe with a value after an equals sign -/
  | long (name : String) (value : Option String)
  /-- one or more letters behind a single dash -/
  | short (letters : List Char)
  /-- two dashes: only plain arguments follow -/
  | rest
  | plain
  deriving Repr, DecidableEq

namespace Arg

def ofText (text : String) : Arg :=
  match text.toList with
  | '-' :: '-' :: [] => rest
  | '-' :: '-' :: body =>
      let name := body.takeWhile (· != '=')
      match body.dropWhile (· != '=') with
      | [] => long (String.ofList name) none
      | _ :: value => long (String.ofList name) (some (String.ofList value))
  | '-' :: c :: letters => short (c :: letters)
  | _ => plain

end Arg

inductive Outcome
  | run (options : Options)
  | help
  | usage (fault : UsageError)
  deriving Repr, DecidableEq

/-- An option whose value is still to be examined, or even to come. -/
structure Held where
  option : OptionName
  value : Option String := none
  deriving Repr, DecidableEq

structure Reading where
  options : Options := {}
  given : List OptionName := []
  held : Option Held := none
  /-- behind two dashes -/
  plainOnly : Bool := false
  deriving Repr, DecidableEq

namespace Reading

/-- Takes over a value of an option that must not have been given before. -/
def accept (reading : Reading) (option : OptionName) (value : String) :
    Except UsageError Reading :=
  if reading.given.contains option then .error (.repeated option.shown)
  else do
    let options ← reading.options.set option value
    return { reading with options, given := option :: reading.given, held := none }

def release (reading : Reading) : Except UsageError Reading :=
  match reading.held with
  | none => .ok reading
  | some ⟨option, none⟩ => .error (.missingValue option)
  | some ⟨option, some value⟩ => reading.accept option value

inductive Step
  | more (reading : Reading)
  | done (outcome : Outcome)

def Step.of (result : Except UsageError Reading) : Step :=
  match result with
  | .ok reading => more reading
  | .error fault => done (.usage fault)

def unexpected (arg : String) : Step :=
  .done (.usage (.unexpectedArgument arg))

/-- A request for help is answered once what stands before it is found to be right. -/
def helpAfter (reading : Reading) : Step :=
  match reading.release with
  | .ok _ => .done .help
  | .error fault => .done (.usage fault)

def flagJson (reading : Reading) : Except UsageError Reading := do
  let reading ← reading.release
  if reading.options.json then throw (.repeated "--json")
  return { reading with options := { reading.options with json := true } }

def long (reading : Reading) (name : String) (value : Option String) : Step :=
  match OptionName.ofName? name, value with
  | some option, some value =>
      .of do (← reading.release).accept option value
  | some option, none =>
      .of do return { ← reading.release with held := some { option } }
  | none, value =>
      if name = "json" ∨ name = "help" then
        match value with
        | some value => .done (.usage (.unexpectedValue s!"--{name}" value))
        | none => if name = "json" then .of reading.flagJson else reading.helpAfter
      else unexpected s!"--{name}"

def plain (reading : Reading) (text : String) : Step :=
  match reading.held with
  | some ⟨option, none⟩ =>
      if reading.plainOnly then unexpected text
      else .more { reading with held := some ⟨option, some text⟩ }
  | _ => unexpected text

def step (reading : Reading) (text : String) : Step :=
  if reading.plainOnly then reading.plain text
  else
    match Arg.ofText text with
    | .long name value => reading.long name value
    | .short letters =>
        match letters with
        | 'h' :: _ => reading.helpAfter
        | c :: _ => unexpected s!"-{c}"
        | [] => unexpected text
    | .rest => .more { reading with plainOnly := true }
    | .plain => reading.plain text

end Reading

namespace Options

def parse (args : List String) : Outcome :=
  go {} args
where
  go (reading : Reading) : List String → Outcome
    | [] =>
        match reading.release with
        | .ok reading => .run reading.options
        | .error fault => .usage fault
    | text :: later =>
        match reading.step text with
        | .more reading => go reading later
        | .done outcome => outcome

end Options

end ChatLoad
