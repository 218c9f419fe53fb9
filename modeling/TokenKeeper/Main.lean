import TokenKeeper.Daemon.Basic

/-!
# Command line

The outer layer of the program: it takes arguments, variables and files from the system and prints
what the program reports. There is no transport in it, so every server is out of reach.
-/

namespace TokenKeeper.Daemon

/-- The variables of the environment that stand in for flags. -/
def readEnvironment : IO (List (String × String)) := do
  let names := Flag.all.filterMap (·.fallback)
  let values ← names.mapM fun name => do return (name, ← IO.getEnv name)
  return values.filterMap fun (name, value?) => value?.map (name, ·)

/-- The files that startup reads. -/
def readFiles (flags : Except FlagError Flags) : IO FileTree := do
  match flags with
  | .ok { authorityFile := some path, .. } =>
    try
      let bytes ← IO.FS.readBinFile path
      return ({} : FileTree).make (path, some bytes.toList)
    catch _ => return {}
  | _ => return {}

end TokenKeeper.Daemon

open TokenKeeper

/-- Run the program. -/
def main (arguments : List String) : IO UInt32 := do
  let environment ← Daemon.readEnvironment
  let tree ← Daemon.readFiles (Flags.ofArguments arguments environment)
  let machine : Machine := { exchange := { network := { reachable := false } }, tree }
  -- without a transport no issuer is ever waited for
  let some report := Daemon.run arguments environment ⟨0⟩ { requests := 0 } machine | return 1
  IO.print report.printed
  if let some failure := report.failure then IO.eprintln failure
  return report.exitCode.toUInt32
