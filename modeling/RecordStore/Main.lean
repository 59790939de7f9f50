import RecordStore.Stress.Output

/-! # The command

Runs the stress workload that the arguments ask for and prints its figures. -/

open RecordStore

/-- Prints what a command prints and answers its exit code. -/
def printOutput (o : Stress.Output) : IO UInt32 := do
  (← IO.getStdout).putStr o.stdout
  (← IO.getStderr).putStr o.stderr
  return o.exit.toUInt32

def main (args : List String) : IO UInt32 := do
  match Stress.parse args with
  | .error stop => printOutput stop.output
  | .ok options =>
    let started ← IO.monoNanosNow
    let result ← IO.lazyPure fun _ => Stress.run options ⟨0⟩
    let ended ← IO.monoNanosNow
    printOutput (Stress.resultOutput result (some ⟨ended - started⟩))
