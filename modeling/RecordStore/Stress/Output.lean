import RecordStore.Stress.Workload

/-! # Output of the stress run -/

namespace RecordStore.Stress

/-- What a command prints, and how it ends. -/
structure Output where
  exit : Nat
  stdout : String
  stderr : String

def helpText : String :=
  "
segstore - Segmented Off-Heap Hash Set Stress Driver

USAGE:
    segstore [OPTIONS]

OPTIONS:
    -t, --threads <N>    Worker threads (default: 4)
    -n, --ops <N>        Operations per thread (default: 100000)
    -k, --keys <N>       Distinct keys per thread (default: 10000)
        --ttl-ms <MS>    TTL for written entries, 0 for none (default: 0)
    -v, --version        Print version information
        --help           Print this help message

Set RUST_LOG=debug to see segment resizes and sweeps.

"

def versionText : String := "segstore version 0.1.0\n"

/-- What is printed instead of a run. The page that follows an unknown argument goes where help goes. -/
def Stop.output : Stop → Output
  | .help => ⟨0, helpText, ""⟩
  | .version => ⟨0, versionText, ""⟩
  | .unknownArgument arg => ⟨1, helpText, s!"Unknown argument: {arg}\n"⟩
  | .missingValue flag => ⟨1, "", s!"Error: {flag} requires a value\n"⟩
  | .invalidValue flag raw => ⟨1, "", s!"Error: invalid value for {flag}: {raw}\n"⟩
  | .notPositive => ⟨1, "", "Error: --threads and --keys must be positive\n"⟩

/-- Operations in a second, to the nearest whole number. -/
def throughput (operations : Nat) (elapsed : Duration) : Nat :=
  let nanoseconds := max elapsed.nanoseconds 1
  (2 * operations * 1000000000 + nanoseconds) / (2 * nanoseconds)

/-- The lines of a report; how long the run took is left out where it is not known. -/
def Report.lines (r : Report) (elapsed? : Option Duration) : List String :=
  let rule := String.ofList (List.replicate 46 '─')
  let timing := match elapsed? with
    | some elapsed =>
      [s!"operations     {r.operations} in {elapsed.text}",
        s!"throughput     {throughput r.operations elapsed} ops/s"]
    | none => [s!"operations     {r.operations}"]
  let rehash := match r.rehash? with
    | some kind => [s!"rehash due     {kind.name}"]
    | none => []
  [rule] ++ timing ++
    [s!"entries        {r.entries}", s!"bytes          {r.bytes}", s!"segments       {r.segments}",
      s!"matched        {r.matched}", s!"expired        {r.expired}", s!"notified       {r.notified}",
      s!"allocations    {r.allocations}"] ++ rehash

def Report.output (r : Report) (elapsed? : Option Duration) : Output :=
  ⟨0, String.join ((r.lines elapsed?).map (· ++ "\n")), ""⟩

def failureOutput : Failure → Output
  | .error e => ⟨1, "", s!"Error: {e.message}\n"⟩
  | .abort a => ⟨101, "", s!"{a.message}\n"⟩

def resultOutput (result : Except Failure Report) (elapsed? : Option Duration) : Output :=
  match result with
  | .ok r => r.output elapsed?
  | .error e => failureOutput e

def output (args : List String) (clock : Clock) : Output :=
  match parse args with
  | .error stop => stop.output
  | .ok o => resultOutput (run o clock) none

end RecordStore.Stress
