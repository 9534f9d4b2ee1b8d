import DimmBus.CommandLine.Program
/-!
# The command line program
-/

namespace DimmBus.CommandLine

/-- Polls until nothing is left, with pauses between two polls. -/
partial def Watch.follow (w : Watch) (stdout : IO.FS.Stream) : IO Unit := do
  let (text, w) := w.poll
  stdout.putStr text
  unless w.left = some 0 do
    stdout.putStrLn ""
    stdout.flush
    IO.sleep (UInt32.ofNat (1000 * w.seconds))
    w.follow stdout

end DimmBus.CommandLine

open DimmBus.CommandLine in
def main (arguments : List String) : IO UInt32 := do
  let stdout ← IO.getStdout
  let stderr ← IO.getStderr
  match run arguments with
  | .ended outcome =>
    stdout.putStr outcome.stdout
    stderr.putStr outcome.stderr
    return outcome.code
  | .watching watch =>
    watch.follow stdout
    return 0
