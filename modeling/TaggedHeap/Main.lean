import TaggedHeap.CommandLine.Run

/-! The program: runs its arguments in its environment and prints what comes out. -/

def main (arguments : List String) : IO UInt32 := do
  let value ← IO.getEnv TaggedHeap.Settings.variableName
  let outcome := TaggedHeap.CommandLine.run arguments (value.map String.toUTF8)
  IO.print outcome.stdout
  IO.eprint outcome.stderr
  return outcome.code
