import RecordStore.Bytes

/-! # Options of the stress run

The command line is read from left to right; what asks for something else than a run takes effect as soon as it
is met. -/

namespace RecordStore.Stress

structure Options where
  /-- Worker threads. -/
  threads : Nat := 4
  /-- Operations of each worker. -/
  ops : Nat := 100000
  /-- Distinct keys of each worker. -/
  keys : Nat := 10000
  /-- Lifetime of the entries in milliseconds, 0 for one without end. -/
  ttlMillis : Nat := 0

/-- Why there is no run. -/
inductive Stop
  | help
  | version
  | unknownArgument (arg : String)
  | missingValue (flag : String)
  | invalidValue (flag raw : String)
  | notPositive

/-- The number that decimal digits write, after `n`, if it is a word. -/
def wordFrom? (n : Nat) : List Char → Option Nat
  | [] => some n
  | c :: rest =>
    if c.isDigit then
      let n := n * 10 + (c.toNat - '0'.toNat)
      if n < wordLimit then wordFrom? n rest else none
    else none

/-- The word that is written by decimal digits, perhaps after a plus. -/
def word? (s : String) : Option Nat :=
  let digits := match s.toList with
    | '+' :: rest => rest
    | chars => chars
  if digits.isEmpty then none else wordFrom? 0 digits

def flagValue (flag : String) : List String → Except Stop (Nat × List String)
  | [] => .error (.missingValue flag)
  | raw :: rest =>
    match word? raw with
    | some n => .ok (n, rest)
    | none => .error (.invalidValue flag raw)

/-- What a flag sets. -/
def setter? (flag : String) : Option (Options → Nat → Options) :=
  if flag = "--threads" ∨ flag = "-t" then some fun o n => { o with threads := n }
  else if flag = "--ops" ∨ flag = "-n" then some fun o n => { o with ops := n }
  else if flag = "--keys" ∨ flag = "-k" then some fun o n => { o with keys := n }
  else if flag = "--ttl-ms" then some fun o n => { o with ttlMillis := n }
  else none

/-- Reads at most `fuel` arguments. -/
def parseFrom : (fuel : Nat) → Options → List String → Except Stop Options
  | fuel + 1, o, arg :: rest =>
    match setter? arg with
    | some set => do
      let (n, rest) ← flagValue arg rest
      parseFrom fuel (set o n) rest
    | none =>
      if arg = "--help" then .error .help
      else if arg = "--version" ∨ arg = "-v" then .error .version
      else .error (.unknownArgument arg)
  | _, o, _ => if o.threads = 0 ∨ o.keys = 0 then .error .notPositive else .ok o

def parse (args : List String) : Except Stop Options := parseFrom args.length {} args

end RecordStore.Stress
