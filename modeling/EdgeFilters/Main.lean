import EdgeFilters.Command.Run

namespace EdgeFilters

def readFile (path : String) : IO File := do
  try
    pure (.content (← IO.FS.readBinFile path))
  catch
    | .inappropriateType .. => pure .directory
    | _ => pure .missing

end EdgeFilters

open EdgeFilters in
def main (arguments : List String) : IO UInt32 := do
  let path := ((Command.parse arguments).toOption.bind Command.file?).getD ""
  let file ← readFile path
  let outcome := Command.runArguments (fun _ => file) arguments
  IO.print outcome.output
  IO.eprint outcome.complaint
  pure outcome.status.toUInt32
