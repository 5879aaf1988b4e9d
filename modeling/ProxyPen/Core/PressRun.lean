import ProxyPen.Core.HttpLink
import ProxyPen.Core.Press

/-!
# Press Runs With Their Tests

`press` together with the protocol tests of its tasks, each a machine of its
own that runs while its task holds a permit. The turns of the tests, of the
tasks and of the task that spawns them come in any order. A test ends when its
machine has come to a status or to a panic, or when its timeout fires before
that, and its task goes on with how it has ended.

`Http1.trial` is the plain HTTP/1.1 test on a connection to the test server.
Every task has its own connection, and the server its own task for each.

## Main definitions

* `Trial`: A protocol test as a machine.
* `LiveState`, `LiveEvent`, `liveStep`: A press run with its tests.
* `Http1.trial`: The HTTP/1.1 test against the test server.
* `PressResult.exitCode`: How the program exits.
-/

namespace ProxyPen

namespace Press

/-- A protocol test: its states, its turns, and how it has ended, with a status
    or, as `none`, with a panic. -/
structure Trial (σ ε : Type) where
  init : σ
  step : σ → ε → Option σ
  ended : σ → Option (Option TestStatus)

/-- A press run with the tests of its tasks, and how those have ended. -/
structure LiveState (σ F : Type) (n : Nat) where
  press : State F n
  trials : Fin n → σ
  endings : Fin n → Option (Option TestResult)

inductive LiveEvent (ε : Type) (n : Nat) where
  | press (e : Event n)
  | trial (i : Fin n) (e : ε)
  /-- the test of task `i` ends, with the durations it has measured -/
  | settle (i : Fin n) (firstByte total : Nat)
  /-- the timeout of the test of task `i` fires -/
  | expire (i : Fin n)

/-- The result with a status. A failure has no durations. -/
def resultOf (firstByte total : Nat) : TestStatus → TestResult
  | .success => { status := .success, firstByte, total }
  | .failed err => { status := .failed err, firstByte := 0, total := 0 }

section

variable {σ ε F : Type} [LinearOrder F] [Millis F] {n : Nat}

def LiveState.init (trial : Trial σ ε) (F : Type) (n concurrency : Nat) : LiveState σ F n :=
  { press := State.init F n concurrency, trials := fun _ => trial.init, endings := fun _ => none }

/-- How the tests end, as far as that is known. The task of a test that runs does
    not look at it. -/
def LiveState.known (s : LiveState σ F n) (i : Fin n) : Option TestResult := (s.endings i).join

/-- The test of task `i` is running. -/
def LiveState.Running (s : LiveState σ F n) (i : Fin n) : Prop :=
  s.press.pc i = .test ∧ s.endings i = none

instance (s : LiveState σ F n) (i : Fin n) : Decidable (s.Running i) :=
  inferInstanceAs (Decidable (_ ∧ _))

/-- The event waits for a test. -/
def LiveState.waits (s : LiveState σ F n) : Event n → Bool
  | .task i => decide (s.Running i)
  | _ => false

def LiveState.resolve (s : LiveState σ F n) (i : Fin n) (ending : Option TestResult) :
    LiveState σ F n :=
  { s with endings := Function.update s.endings i (some ending) }

def liveStep (trial : Trial σ ε) (s : LiveState σ F n) : LiveEvent ε n → Option (LiveState σ F n)
  | .press e =>
      if s.waits e then none
      else (stepEnding s.known s.press e).map (fun press => { s with press })
  | .trial i e =>
      if s.Running i then
        (trial.step (s.trials i) e).map
          (fun t => { s with trials := Function.update s.trials i t })
      else none
  | .settle i firstByte total =>
      if s.Running i then
        (trial.ended (s.trials i)).map
          (fun status => s.resolve i (status.map (resultOf firstByte total)))
      else none
  -- The timeout looks at the test first.
  | .expire i =>
      if s.Running i ∧ trial.ended (s.trials i) = none then
        some (s.resolve i (resultOf 0 0 (.failed "timeout")))
      else none

end

/-- The exit status of `run_press`. -/
def PressResult.exitCode {F : Type} (r : PressResult F) : Nat :=
  if 0 < r.errorCount ∧ r.successCount = 0 then 1 else 0

end Press

/-- `http1::test` on a connection to `serve_http1`. -/
def Http1.trial (ioText : Socks.IoError → String) (cap : HttpCapacity) (target : TestTarget)
    (body : Bytes) : Press.Trial HttpLink HttpEvent :=
  { init := HttpLink.init target
    step := HttpLink.step cap body
    ended := fun s =>
      if s.pc = .done then
        match Http1.test ioText false target s.exchange with
        | .ok result => some (some result.status)
        | .err e => some (some (.failed (e.text ioText)))
        | .panic => some none
      else none }

end ProxyPen
