import NodeSchema.Command.Run

namespace NodeSchema.Program

def faultOfError : IO.Error → FileFault
  | .noFileOrDirectory _ _ _ => .missing
  | .inappropriateType _ 21 _ => .isDirectory
  | .inappropriateType _ 20 _ => .notDirectory
  | .alreadyExists _ _ _ => .present
  | e => .other (toString e)

def fetch (path : String) : IO (Except FileFault String) := do
  try return .ok (← IO.FS.readFile path)
  catch e => return .error (faultOfError e)

/-- The texts of the files that a command names. -/
def fetchSource (source : Command.Source) : IO (List (String × Except FileFault String)) :=
  (source.schema.toList ++ source.options.toList).mapM fun path => return (path, ← fetch path)

def log (entry : Command.LogEntry) : IO Unit := do (← IO.getStderr).putStrLn entry.text

def finish (outcome : Command.Outcome) : IO UInt32 := do
  IO.print outcome.output
  outcome.log.forM log
  return UInt32.ofNat outcome.status

def store (path text : String) : IO (Except FileFault Unit) := do
  try
    IO.FS.writeFile path text
    return .ok ()
  catch e => return .error (faultOfError e)

def save (path text : String) : IO UInt32 := do
  match ← store path text with
  | .ok () => finish ⟨0, "", [.written path]⟩
  | .error fault => finish (.failure (.file fault))

def run (command : Command) : IO UInt32 := do
  let texts ← fetchSource command.source
  match command.effect fun path => (texts.lookup path).getD (.error .missing) with
  | .error problem => finish (.failure problem)
  | .ok (.save path text) => save path text
  | .ok effect => finish (effect.run .empty).1

end NodeSchema.Program

def main (arguments : List String) : IO UInt32 :=
  match NodeSchema.Command.ofArguments? arguments with
  | some command => NodeSchema.Program.run command
  | none => NodeSchema.Program.finish .misuse
