import TxDelivery.CommandLine.Run

/-!
# The program

Reads the arguments, the file they name and the key, and writes what the program has to say. It has
no network of its own, so that every node counts as unreachable.
-/

namespace TxDelivery

/-- The file the arguments name, read; `none` where none is named or it cannot be read. -/
def readNamedFile (args : List String) : IO (Option Bytes) := do
  match Arguments.parse args with
  | .ok (.run (some path) _) =>
    try
      return some (← IO.FS.readBinFile path).toList
    catch _ =>
      return none
  | _ => return none

end TxDelivery

open TxDelivery in
/-- Runs the program on its arguments. -/
def main (args : List String) : IO UInt32 := do
  let file ← readNamedFile args
  let key ← IO.getEnv Wallet.keyVariable
  let result := Program.run ⟨fun _ => file, key, Network.unreachable⟩ args
  (← IO.getStdout).putStr result.output
  (← IO.getStderr).putStr result.errors
  return result.status
