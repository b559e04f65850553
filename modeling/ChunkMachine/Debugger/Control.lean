import ChunkMachine.Debugger.Report
import ChunkMachine.Debugger.Session

/-!
# Stepping and resuming

The debugger drives an engine one chunk at a time. `stepMany` executes a number of chunks; `resume`
goes on until the program ends, a limit is reached or the next chunk has a breakpoint. The chunk that
`resume` starts on does not stop it. A program that has ended stays where it is and is reported
again.
-/

namespace ChunkMachine.Debugger

/-- How far the debugger got. -/
inductive Verdict where
  /-- The program was stopped. -/
  | stopped (stop : Stop)
  /-- The program goes on. -/
  | going
  /-- A chunk was broken off without ending the program. -/
  | escaped (escape : Escape)
  /-- The fuel ran out. -/
  | unfinished
deriving DecidableEq

/-- The engine after some chunks, with the verdict and what was logged. -/
structure Move where
  engine : Engine
  verdict : Verdict
  log : List LogRecord := []

/-- A stop where the engine stands. -/
def stopAt (reason : StopReason) (e : Engine) (error : Option String) : Stop :=
  { reason, chunk := e.current, steps := e.steps, error }

/-- The records of a program that failed under the debugger. -/
def failureLog (e : Engine) (fault : Fault) : List LogRecord :=
  [failureRecord e fault, ⟨.debug, "xrf_dbg.context", "program failed: " ++ fault.message⟩]

/-- The verdict on an engine that has ended. -/
def endVerdict (e : Engine) : Verdict :=
  match e.status with
  | .running => .going
  | .halted => .stopped (stopAt .halted e none)
  | .failed fault => .stopped (stopAt .error e (some fault.message))

/-- Execute one chunk, unless the program has ended. -/
def singleStep (e : Engine) : Move :=
  if e.running then
    let (e, abort) := e.step
    let e := e.flush
    match abort with
    | none => { engine := e, verdict := endVerdict e }
    | some (.fault fault) =>
      { engine := e
        verdict := .stopped (stopAt .error e (some fault.message))
        log := failureLog e fault }
    | some .interrupted => { engine := e, verdict := .escaped .interrupted }
    | some (.index fault) => { engine := e, verdict := .escaped (.index fault) }
  else { engine := e, verdict := endVerdict e }

/-- Execute up to `count` chunks. -/
def stepMany : (count : Nat) → Engine → Move
  | 0, e => { engine := e, verdict := .stopped (stopAt .step e none) }
  | count + 1, e =>
    let m := singleStep e
    match m.verdict with
    | .going => stepMany count m.engine
    | _ => m

/-- Go on after `executed` chunks of this resumption, for at most `fuel` more. -/
def resumeFrom (breakpoints : List Int) (limit : Option Int) :
    (fuel : Nat) → (executed : Nat) → Engine → Move
  | fuel, executed, e =>
    if limit.any fun (n : Int) => n ≤ executed then
      { engine := e, verdict := .stopped (stopAt .limit e none) }
    else if executed ≠ 0 ∧ e.current ∈ breakpoints then
      { engine := e, verdict := .stopped (stopAt .breakpoint e none) }
    else
      match fuel with
      | 0 => { engine := e, verdict := .unfinished }
      | fuel + 1 =>
        let m := singleStep e
        match m.verdict with
        | .going => resumeFrom breakpoints limit fuel (executed + 1) m.engine
        | _ => m

/-- Go on until the program ends, the limit is reached or a breakpoint is met. -/
def resume (fuel : Nat) (breakpoints : List Int) (limit : Option Int) (e : Engine) : Move :=
  resumeFrom breakpoints limit fuel 0 e

end ChunkMachine.Debugger
