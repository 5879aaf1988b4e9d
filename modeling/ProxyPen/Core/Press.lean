import Mathlib.Algebra.Order.Ring.Unbundled.Rat
import Mathlib.Data.Fin.Basic
import Mathlib.Data.List.Sort
import Mathlib.Logic.Function.Basic

/-!
# Press Runs

`press.rs`: a fixed number of requests, each a task of its own, a semaphore
that bounds how many of them run, and six cells they all write to. The tasks
are scheduled by an event list. One event is one operation on shared state: a
permit taken or returned, a push under a lock, an atomic increment, or a move
of the task that spawns the others and waits for them.

The protocol test of a task is outside this file; what it returns is given for
every task, or that it panics, and how long it takes is up to the schedule. A
panic unwinds its task, which drops the permit and leaves no other trace: the
handle is awaited, and its error is ignored. The semaphore gives a permit to any
waiting task, which allows more schedules than its queue does.

Milliseconds are `f64` in the source. They come from durations, so they are
numbers, none of them is a negative zero, and they are linearly ordered; the
arithmetic on them is a parameter, `Millis`. The instance at `ℚ` is exact.

## Main definitions

* `Millis`: The operations on samples.
* `LatencyStats.fromSortedMs`: The statistics of a sorted sample.
* `TaskPc`: Where a task stands.
* `State`, `Event`, `stepEnding`: A press run.
* `step`: A press run in which no test panics.
* `State.result`: What a finished run returns.
* `PressResult.errorSection`: The errors of a printed result.
-/

namespace ProxyPen

namespace Press

/-- What the code does with milliseconds. Durations are in nanoseconds. -/
class Millis (F : Type) [LinearOrder F] where
  /-- `as_secs_f64() * 1000.0` -/
  ofDuration : Nat → F
  zero : F
  sum : List F → F
  /-- `sum / n as f64` -/
  divCount : F → Nat → F
  /-- `(p / 100.0 * (n - 1) as f64) as usize` -/
  rank : Nat → Nat → Nat
  /-- Requests over a duration, and zero over none. -/
  perSecond : Nat → Nat → F

/-- Exact arithmetic. The cast of an index truncates. -/
instance : Millis ℚ where
  ofDuration ns := ns / 1000000
  zero := 0
  sum := List.foldl (fun x y => x + y) 0
  divCount x n := x / n
  rank p n := p * (n - 1) / 100
  perSecond n ns := if ns = 0 then 0 else n / (ns / 1000000000)

inductive PressProtocol where
  | http1
  | http2
  | http3
  deriving DecidableEq, Repr

structure PressOptions where
  protocol : PressProtocol
  concurrency : Nat
  numRequests : Nat

inductive TestStatus where
  | success
  | failed (err : String)
  deriving DecidableEq, Repr

/-- What a protocol test returns, as far as a press run looks at it. -/
structure TestResult where
  status : TestStatus
  firstByte : Nat
  total : Nat
  deriving DecidableEq, Repr

structure LatencyStats (F : Type) where
  minMs : F
  maxMs : F
  avgMs : F
  p50Ms : F
  p90Ms : F
  p95Ms : F
  p99Ms : F
  sampleCount : Nat
  deriving DecidableEq, Repr

section

variable {F : Type} [LinearOrder F] [Millis F]

/-- The index a percentile of `n` samples is taken from. -/
def percentileIndex (F : Type) [LinearOrder F] [Millis F] (p n : Nat) : Nat :=
  min (Millis.rank F p n) (n - 1)

/-- `0.0` for no samples. -/
def percentile (sorted : List F) (p : Nat) : F :=
  sorted.getD (percentileIndex F p sorted.length) Millis.zero

/-- `LatencyStats::default()` -/
def LatencyStats.zeros : LatencyStats F :=
  { minMs := Millis.zero, maxMs := Millis.zero, avgMs := Millis.zero, p50Ms := Millis.zero,
    p90Ms := Millis.zero, p95Ms := Millis.zero, p99Ms := Millis.zero, sampleCount := 0 }

def LatencyStats.fromSortedMs (samples : List F) : LatencyStats F :=
  if samples.isEmpty then LatencyStats.zeros
  else
    let n := samples.length
    -- There is a sample, so the first and the last index are in range.
    { minMs := samples.getD 0 Millis.zero
      maxMs := samples.getD (n - 1) Millis.zero
      avgMs := Millis.divCount (Millis.sum samples) n
      p50Ms := percentile samples 50
      p90Ms := percentile samples 90
      p95Ms := percentile samples 95
      p99Ms := percentile samples 99
      sampleCount := n }

/-- `sort_by` with `partial_cmp`, a stable sort. -/
def sortMs (samples : List F) : List F := samples.mergeSort (fun a b => a ≤ b)

end

/-! ## Tasks -/

/-- The next operation of a task. -/
inductive TaskPc where
  /-- Waiting in `sem.acquire()`. -/
  | acquire
  /-- Running its protocol test, with a permit. -/
  | test
  | pushTtfb
  | pushTotal
  | countSuccess
  | countError
  | pushError
  /-- Dropping its permit. -/
  | release
  | finished
  deriving DecidableEq, Repr

/-- From the permit on until it is dropped. -/
def TaskPc.holdsPermit : TaskPc → Bool
  | .acquire => false
  | .finished => false
  | _ => true

/-- The shared cells, the tasks, and how far the spawning task has come. -/
structure State (F : Type) (n : Nat) where
  spawned : Nat
  awaited : Nat
  permits : Nat
  pc : Fin n → TaskPc
  ttfbSamples : List F
  totalSamples : List F
  successCount : Nat
  errorCount : Nat
  errors : List String

inductive Event (n : Nat) where
  | spawn
  | await
  | task (i : Fin n)
  deriving DecidableEq, Repr

section

variable {F : Type} [LinearOrder F] [Millis F] {n : Nat}

def State.init (F : Type) (n concurrency : Nat) : State F n :=
  { spawned := 0, awaited := 0, permits := concurrency, pc := fun _ => .acquire,
    ttfbSamples := [], totalSamples := [], successCount := 0, errorCount := 0, errors := [] }

/-- The most messages a run keeps. -/
def maxErrors : Nat := 50

/-- Keep a message while there is room. -/
def keepError (errors : List String) (err : String) : List String :=
  if errors.length < maxErrors then errors ++ [err] else errors

def State.goto (s : State F n) (i : Fin n) (pc : TaskPc) : State F n :=
  { s with pc := Function.update s.pc i pc }

/-- The next operation of task `i`, whose test ends with `ending`: `none` is a
    panic. -/
def taskStep (ending : Option TestResult) (s : State F n) (i : Fin n) : Option (State F n) :=
  match s.pc i, ending with
  | .acquire, _ =>
      if 0 < s.permits then some { s.goto i .test with permits := s.permits - 1 } else none
  -- Unwinding the task drops its permit and writes to no cell.
  | .test, none => some (s.goto i .release)
  | .test, some result => match result.status with
    | .success => some (s.goto i .pushTtfb)
    | .failed _ => some (s.goto i .countError)
  | .pushTtfb, some result =>
      some { s.goto i .pushTotal with
        ttfbSamples := s.ttfbSamples ++ [Millis.ofDuration result.firstByte] }
  | .pushTotal, some result =>
      some { s.goto i .countSuccess with
        totalSamples := s.totalSamples ++ [Millis.ofDuration result.total] }
  | .countSuccess, some _ => some { s.goto i .release with successCount := s.successCount + 1 }
  -- A failure is counted first, and its message is kept after that.
  | .countError, some _ => some { s.goto i .pushError with errorCount := s.errorCount + 1 }
  | .pushError, some result => match result.status with
    | .success => none
    | .failed err => some { s.goto i .release with errors := keepError s.errors err }
  | .release, _ => some { s.goto i .finished with permits := s.permits + 1 }
  | _, _ => none

/-- One event, given how the tests end. -/
def stepEnding (endings : Fin n → Option TestResult) (s : State F n) :
    Event n → Option (State F n)
  | .spawn => if s.spawned < n then some { s with spawned := s.spawned + 1 } else none
  -- The handles are awaited in the order of spawning, once all tasks are spawned.
  | .await =>
      if h : s.spawned = n ∧ s.awaited < n then
        if s.pc ⟨s.awaited, h.2⟩ = .finished then some { s with awaited := s.awaited + 1 } else none
      else none
  | .task i => if i.val < s.spawned then taskStep (endings i) s i else none

/-- One event of a run in which no test panics. -/
def step (results : Fin n → TestResult) : State F n → Event n → Option (State F n) :=
  stepEnding (fun i => some (results i))

structure PressResult (F : Type) where
  protocol : PressProtocol
  totalRequests : Nat
  successCount : Nat
  errorCount : Nat
  ttfb : LatencyStats F
  totalTime : LatencyStats F
  totalDuration : Nat
  requestsPerSecond : F
  errors : List String

/-- All handles have been awaited. -/
def State.Awaited (s : State F n) : Prop := s.awaited = n

/-- What `press` returns after the last handle, `totalDuration` nanoseconds
    after its start. -/
def State.result (s : State F n) (protocol : PressProtocol) (totalDuration : Nat) :
    PressResult F :=
  { protocol
    totalRequests := n
    successCount := s.successCount
    errorCount := s.errorCount
    ttfb := LatencyStats.fromSortedMs (sortMs s.ttfbSamples)
    totalTime := LatencyStats.fromSortedMs (sortMs s.totalSamples)
    totalDuration
    requestsPerSecond := Millis.perSecond n totalDuration
    errors := s.errors }

end

/-! ## The printed errors -/

/-- The most messages a result prints. -/
def maxPrinted : Nat := 20

/-- A line of the error section. -/
inductive ErrorLine where
  | error (err : String)
  /-- the messages behind the last one printed -/
  | more (k : Nat)
  deriving DecidableEq, Repr

def ErrorLine.text : ErrorLine → String
  | .error err => "  " ++ err
  | .more k => "  ... and " ++ toString k ++ " more"

/-- The loop over the messages from index `i` on, of `total` altogether. -/
def errorLinesFrom (total i : Nat) : List String → List ErrorLine
  | [] => []
  | err :: rest =>
      if i ≥ maxPrinted then [.more (total - maxPrinted)]
      else .error err :: errorLinesFrom total (i + 1) rest

def PressResult.errorLines {F : Type} (r : PressResult F) : List ErrorLine :=
  errorLinesFrom r.errors.length 0 r.errors

/-- The end of `PressResult::fmt`, line by line. -/
def PressResult.errorSection {F : Type} (r : PressResult F) : List String :=
  if r.errors.isEmpty then [] else "" :: "--- Errors ---" :: r.errorLines.map ErrorLine.text

end Press

end ProxyPen
