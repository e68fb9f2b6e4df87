import ChatLoad.CommandLine.Run

/-! The program. Its network has no route to anybody, so every attempt to connect fails at once. -/

namespace ChatLoad

def isolated : Net Unit where
  peer := .quiet
  memory := ()
  reach := .unreachable

/-- Draws that differ from run to run. -/
def drawsFrom (seed : UInt64) : Draws :=
  fun id number => (mixHash (mixHash seed id) number.toUInt64).toNat

def readText? (name : String) : IO (Option String) := do
  try return some (← IO.FS.readFile name)
  catch _ => return none

def readFiles (args : List String) : IO (List (String × String)) := do
  match Options.parse args with
  | .run options =>
      let texts ← (CommandLine.files options).mapM fun name => return (name, ← readText? name)
      return texts.filterMap fun (name, text?) => text?.map (name, ·)
  | _ => return []

end ChatLoad

open ChatLoad in
def main (args : List String) : IO UInt32 := do
  let texts ← readFiles args
  let seed := (← IO.monoNanosNow).toUInt64
  match CommandLine.run (drawsFrom seed) isolated none (List.lookup · texts) args with
  | some result =>
      IO.print result.stdout
      unless result.stderr.isEmpty do IO.eprintln result.stderr
      return result.code.toUInt32
  | none => return 1
