import Stencil.CommandLine

/-!
# `Stencil.Main`: the program

Reads the files that the arguments name, and prints what the command line makes of them.
-/

set_option autoImplicit false

open Stencil

/-- The file or folder at a path of the disk. -/
partial def loadNode (path : String) : IO (Except PathError Node) := do
  let place := (← IO.currentDir) / path
  try
    discard place.metadata
  catch
    | .inappropriateType .. => return .error .notFolder
    | _ => return .error .missing
  if ← place.isDir then
    let mut entries : List (String × Node) := []
    for entry in ← place.readDir do
      if let .ok node ← loadNode (Node.joinPath path entry.fileName) then
        entries := insertEntry entry.fileName node entries
    return .ok (.folder entries)
  else
    try
      return .ok (.file (some (← IO.FS.readFile place)))
    catch _ =>
      return .ok (.file none)

/-- Renders the templates that the arguments ask for. -/
def main (args : List String) : IO UInt32 := do
  match Options.ofArguments? args with
  | none =>
    IO.eprintln "usage: [--templates DIR] [--data FILE] [--locale TAG] [--async]"
    return 2
  | some options =>
    let templates ← loadNode options.templatesPath
    let data ← match options.data with
      | some path => loadNode path
      | none => pure (.error .missing)
    let disk := fun path => if path = options.templatesPath then templates else data
    let outcome := CommandLine.run disk options
    IO.print outcome.stdout
    IO.eprint outcome.stderr
    return outcome.code
