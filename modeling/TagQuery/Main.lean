import TagQuery.Command.Run

namespace TagQuery.Command

def findEntry (name : String) : IO Entry := do
  try
    let bytes ← IO.FS.readBinFile name
    return .file bytes.toList
  catch
    | .inappropriateType .. => return .directory
    | .permissionDenied .. => return .unreadable
    | _ => return .missing

def fileName (arguments : List String) : String :=
  match readWords {} arguments with
  | .ok words => words.files.headD ""
  | .error _ => ""

end TagQuery.Command

open TagQuery.Command

def main (arguments : List String) : IO UInt32 := do
  let environment : Environment :=
    ⟨← IO.getEnv "TAGSEL_SELECTOR", ← IO.getEnv "TAGSEL_TAGS"⟩
  let name := fileName arguments
  let entry ← findEntry name
  let outcome := run environment (fun _ => entry) arguments
  IO.print outcome.stdout
  IO.eprint outcome.stderr
  match outcome.unhandled with
  | some unhandled => IO.eprintln (unhandled.message (shownName name))
  | none => pure ()
  return outcome.exitCode.toUInt32
