import ParallelFilter.Command.Multiplex

/-! The program: it reads its words and the two environment variables, runs the command, and prints the
report. A machine is taken to have one processor. -/

namespace ParallelFilter.Main

/-- The environment variables that the program looks at, where they are set. -/
def readEnvironment : IO Command.Environment := do
  let names := Command.Key.shared.filterMap Command.Key.environmentName?
  names.foldlM (fun environment name => do
    match ← IO.getEnv name with
    | some value => return (name, value) :: environment
    | none => return environment) []

/-- Prints what a command has to tell and says whether it failed. -/
def report (transcript : Option Command.Transcript) : IO UInt32 := do
  match transcript with
  | none => return 1
  | some transcript =>
    IO.print transcript.printed
    match transcript.failure with
    | none => return 0
    | some failure =>
      IO.eprintln ("Error: " ++ failure.message)
      return 1

def milliseconds (before after : Nat) : String :=
  toString (after - before) ++ "ms"

/-- Runs the filter command, and takes the times of the job and of the count. -/
def filter (invocation : Command.Invocation) (request : Command.FilterRequest) : IO UInt32 := do
  let workers := invocation.workers.getD 1
  let started ← IO.monoMsNow
  let run ← IO.lazyPure fun _ =>
    Command.runFilter invocation.settings { request with compareSequential := false } workers false
  let finished ← IO.monoMsNow
  let run ← IO.lazyPure fun _ => run.map fun run => run.map fun run =>
    if request.compareSequential then
      { run with sequential := some (Command.countBelow request.predicate.accepts run.output.covered) }
    else run
  let counted ← IO.monoMsNow
  report (run.map fun
    | .error error => ⟨[], some (.job error)⟩
    | .ok run =>
      ⟨run.report request workers (milliseconds started finished) (milliseconds finished counted),
        run.failure?⟩)

end ParallelFilter.Main

def main (words : List String) : IO UInt32 := do
  let environment ← ParallelFilter.Main.readEnvironment
  match ParallelFilter.Command.invoke environment words with
  | .error (.arguments error) =>
    IO.eprintln ("error: " ++ error.kind)
    return error.exitCode.toUInt32
  | .error refusal =>
    IO.eprintln ("Error: " ++ refusal.message)
    return 1
  | .ok invocation =>
    match invocation.request with
    | .filter request => ParallelFilter.Main.filter invocation request
    | .multiplex request =>
      ParallelFilter.Main.report (ParallelFilter.Command.multiplexTranscript request false)
