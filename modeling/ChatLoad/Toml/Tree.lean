import ChatLoad.Toml.Value

/-! Adding to the tables of a document. Each key is given once and each header once; a table may
grow by dotted keys only while it stems from dotted keys itself. -/

namespace ChatLoad.Toml.Tree

def find? (key : String) (entries : Entries) : Option Value :=
  (entries.find? (·.1 == key)).map (·.2)

def replace (key : String) (value : Value) (entries : Entries) : Entries :=
  entries.map fun entry => if entry.1 == key then (key, value) else entry

def changeLast (change : Entries → Option Entries) (elements : List Entries) :
    Option (List Entries) := do
  some (elements.dropLast ++ [← change (← elements.getLast?)])

/-- Changes the table that a header's path leads to. Tables missing on the way are implied. -/
def within (path : List String) (change : Entries → Option Entries) (entries : Entries) :
    Option Entries :=
  match path with
  | [] => change entries
  | key :: path =>
      match find? key entries with
      | none => do some (entries ++ [(key, .table .implied (← within path change []))])
      | some (.table origin inner) => do
          some (replace key (.table origin (← within path change inner)) entries)
      | some (.tables elements) => do
          some (replace key (.tables (← changeLast (within path change) elements)) entries)
      | some _ => none

def openTable (key : String) (entries : Entries) : Option Entries :=
  match find? key entries with
  | none => some (entries ++ [(key, .table .header [])])
  | some (.table .implied inner) => some (replace key (.table .header inner) entries)
  | some _ => none

def appendTable (key : String) (entries : Entries) : Option Entries :=
  match find? key entries with
  | none => some (entries ++ [(key, .tables [[]])])
  | some (.tables elements) => some (replace key (.tables (elements ++ [[]])) entries)
  | some _ => none

/-- Gives a value to a key, which may be dotted. The innermost table on the way has to stem from
dotted keys. -/
def assign (path : List String) (value : Value) (entries : Entries) : Option Entries :=
  match path with
  | [] => none
  | [key] => if (find? key entries).isSome then none else some (entries ++ [(key, value)])
  | key :: next :: path =>
      let inner := assign (next :: path) value
      match find? key entries with
      | none => do some (entries ++ [(key, .table .dotted (← inner []))])
      | some (.table origin old) =>
          if origin = .dotted ∨ (origin = .implied ∧ path ≠ []) then do
            some (replace key (.table origin (← inner old)) entries)
          else none
      | some (.tables elements) =>
          if path ≠ [] then do
            some (replace key (.tables (← changeLast inner elements)) entries)
          else none
      | some _ => none

end ChatLoad.Toml.Tree
