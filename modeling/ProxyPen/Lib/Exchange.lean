import ProxyPen.Lib.Machine

/-!
# Two Parties Exchanging Reports

A job done by a client and a server together, and the exchange of reports that
ends it. What the two do during the job is a machine of its own, the body;
what follows is always the same. The client reads the server's report and then
writes its own; the server writes its report and then reads the client's. A
party whose part of the body fails drops the channel, and the other one sees
that when it reads.

The body decides whether the exchange can get stuck: `not_stuck` reduces it to
the two questions whether a client that is still busy can move, and whether a
server that is still busy can move once the client is not.

## Main definitions

* `Body`: The joint machine of the job.
* `Stage`: How far a party is.
* `Exchange`: The body's state, both stages and the reports in flight.
* `Body.advance`: One step of the whole.
* `Body.Stuck`: No party can move before the reports have been exchanged.
* `Body.Advances`: What each event does and when it can happen.
* `Ctl`: The stages and the reports in flight fit together.
* `Sane`: What every run keeps.
* `Body.ClientReported`, `Body.ServerReported`: The reports made in a run.

## Theorems

* `advances_of_advance`: A step does what its event says.
* `ctl_of_advance`: Every step keeps stages and reports consistent.
* `not_stuck`: When the exchange is not stuck.
* `sane_advance`: Every step keeps what is to be kept.
* `never_stuck`: When no run gets stuck.
* `body_invariant`: What every step of the job keeps.
* `clientReport_final`, `serverReport_final`: A report once made is final.
-/

namespace ProxyPen

/-- The joint machine of a job with events `ε` and reports `ρ`. `moves` are
    the events that are a step of one of the parties; the others are the
    network's doing, or a fault. A report depends on when it is made. -/
structure Body (δ ε ρ : Type) where
  init : δ
  step : δ → ε → Option δ
  moves : ε → Bool
  clientDone : δ → Bool
  clientFailed : δ → Bool
  clientReport : δ → Nat → ρ
  serverDone : δ → Bool
  serverFailed : δ → Bool
  serverReport : δ → Nat → ρ

/-- How far a party is. A party that has a report carries it along. -/
inductive Stage (ρ : Type) where
  | running
  | reading (own : ρ)
  | writing (own : ρ)
  | finished
  | aborted

structure Exchange (δ ρ : Type) where
  body : δ
  client : Stage ρ
  server : Stage ρ
  toClient : List ρ
  toServer : List ρ

inductive ExchangeEvent (ε : Type) where
  | job (e : ε)
  /-- the client's part of the job is over -/
  | clientEnds (t : Nat)
  | clientFails
  | clientReads
  | clientWrites
  /-- the client reads, and the server has dropped the channel -/
  | clientEof
  | serverEnds (t : Nat)
  | serverFails
  | serverReads
  | serverWrites
  | serverEof

namespace Body

variable {δ ε ρ : Type} (B : Body δ ε ρ)

/-- Both parties at the start of the job. -/
def start : Exchange δ ρ :=
  { body := B.init, client := .running, server := .running, toClient := [], toServer := [] }

/-- One step of the whole. -/
def advance (s : Exchange δ ρ) : ExchangeEvent ε → Option (Exchange δ ρ)
  | .job e => match B.step s.body e with
    | some b => some { s with body := b }
    | none => none
  | .clientEnds t => match s.client with
    | .running =>
        if B.clientDone s.body then
          some { s with client := .reading (B.clientReport s.body t) }
        else none
    | _ => none
  | .clientFails => match s.client with
    | .running => if B.clientFailed s.body then some { s with client := .aborted } else none
    | _ => none
  -- The client reads first and writes second.
  | .clientReads => match s.client, s.toClient with
    | .reading own, _ :: rest => some { s with client := .writing own, toClient := rest }
    | _, _ => none
  | .clientWrites => match s.client with
    | .writing own => some { s with client := .finished, toServer := s.toServer ++ [own] }
    | _ => none
  -- The end of the channel is only seen once everything in it has been read.
  | .clientEof => match s.client, s.toClient, s.server with
    | .reading _, [], .aborted => some { s with client := .aborted }
    | _, _, _ => none
  | .serverEnds t => match s.server with
    | .running =>
        if B.serverDone s.body then
          some { s with server := .writing (B.serverReport s.body t) }
        else none
    | _ => none
  | .serverFails => match s.server with
    | .running => if B.serverFailed s.body then some { s with server := .aborted } else none
    | _ => none
  -- The server writes first and reads second; `serverEnds` leads to the write.
  | .serverReads => match s.server, s.toServer with
    | .reading _, _ :: rest => some { s with server := .finished, toServer := rest }
    | _, _ => none
  | .serverWrites => match s.server with
    | .writing own => some { s with server := .reading own, toClient := s.toClient ++ [own] }
    | _ => none
  | .serverEof => match s.server, s.toServer, s.client with
    | .reading _, [], .aborted => some { s with server := .aborted }
    | _, _, _ => none

/-- The events that are a step of one of the parties. -/
def IsMove : ExchangeEvent ε → Prop
  | .job e => B.moves e = true
  | _ => True

/-- Neither party can move, although the reports have not been exchanged and
    the client has not given up. -/
def Stuck (s : Exchange δ ρ) : Prop :=
  (∀ e, B.IsMove e → B.advance s e = none) ∧
    ¬ (s.client = .finished ∧ s.server = .finished) ∧ s.client ≠ .aborted

end Body

/-- The stages of client and server and the reports in flight to each fit
    together. -/
inductive Ctl {ρ : Type} : Stage ρ → Stage ρ → List ρ → List ρ → Prop where
  /-- the server has not reported -/
  | before (c s : Stage ρ) (hc : c = .running ∨ ∃ r, c = .reading r)
      (hs : s = .running ∨ (∃ r, s = .writing r) ∨ s = .aborted) : Ctl c s [] []
  /-- the server's report is on its way -/
  | reported (c : Stage ρ) (q : ρ) (hc : c = .running ∨ ∃ r, c = .reading r) :
      Ctl c (.reading q) [q] []
  | taken (r q : ρ) : Ctl (.writing r) (.reading q) [] []
  /-- the client's report is on its way -/
  | answered (r q : ρ) : Ctl .finished (.reading q) [] [r]
  | exchanged : Ctl .finished .finished [] []
  | abandoned (s : Stage ρ) (tc ts : List ρ) : Ctl .aborted s tc ts

namespace Ctl

variable {ρ : Type} {c s : Stage ρ} {tc ts rest : List ρ} {r q : ρ}

theorem clientEnds (h : Ctl .running s tc ts) : Ctl (.reading r) s tc ts := by
  cases h with
  | before _ _ hc hs => exact before _ _ (Or.inr ⟨r, rfl⟩) hs
  | reported _ q hc => exact reported _ q (Or.inr ⟨r, rfl⟩)

theorem clientReads (h : Ctl (.reading r) s (q :: rest) ts) : Ctl (.writing r) s rest ts := by
  cases h with
  | reported _ q hc => exact taken r q

theorem clientWrites (h : Ctl (.writing r) s tc ts) : Ctl .finished s tc (ts ++ [r]) := by
  cases h with
  | before _ _ hc hs =>
      rcases hc with hc | ⟨r, hc⟩ <;> cases hc
  | reported _ q hc =>
      rcases hc with hc | ⟨r, hc⟩ <;> cases hc
  | taken r q => exact answered r q

theorem serverEnds (h : Ctl c .running tc ts) : Ctl c (.writing r) tc ts := by
  cases h with
  | before _ _ hc hs => exact before _ _ hc (Or.inr (Or.inl ⟨r, rfl⟩))
  | abandoned _ _ _ => exact abandoned _ _ _

theorem serverFails (h : Ctl c .running tc ts) : Ctl c .aborted tc ts := by
  cases h with
  | before _ _ hc hs => exact before _ _ hc (Or.inr (Or.inr rfl))
  | abandoned _ _ _ => exact abandoned _ _ _

theorem serverWrites (h : Ctl c (.writing r) tc ts) : Ctl c (.reading r) (tc ++ [r]) ts := by
  cases h with
  | before _ _ hc hs => exact reported c r hc
  | abandoned _ _ _ => exact abandoned _ _ _

theorem serverReads (h : Ctl c (.reading r) tc (q :: rest)) : Ctl c .finished tc rest := by
  cases h with
  | answered r q => exact exchanged
  | abandoned _ _ _ => exact abandoned _ _ _

end Ctl

section

variable {δ ε ρ : Type} (B : Body δ ε ρ)

/-- What each event does and when it can happen. -/
inductive Body.Advances : Exchange δ ρ → ExchangeEvent ε → Exchange δ ρ → Prop where
  | job (b b' : δ) (c s : Stage ρ) (tc ts : List ρ) (e : ε) :
      B.step b e = some b' → Body.Advances ⟨b, c, s, tc, ts⟩ (.job e) ⟨b', c, s, tc, ts⟩
  | clientEnds (b : δ) (s : Stage ρ) (tc ts : List ρ) (t : Nat) : B.clientDone b = true →
      Body.Advances ⟨b, .running, s, tc, ts⟩ (.clientEnds t)
        ⟨b, .reading (B.clientReport b t), s, tc, ts⟩
  | clientFails (b : δ) (s : Stage ρ) (tc ts : List ρ) : B.clientFailed b = true →
      Body.Advances ⟨b, .running, s, tc, ts⟩ .clientFails ⟨b, .aborted, s, tc, ts⟩
  | clientReads (b : δ) (own r : ρ) (s : Stage ρ) (tc ts : List ρ) :
      Body.Advances ⟨b, .reading own, s, r :: tc, ts⟩ .clientReads ⟨b, .writing own, s, tc, ts⟩
  | clientWrites (b : δ) (own : ρ) (s : Stage ρ) (tc ts : List ρ) :
      Body.Advances ⟨b, .writing own, s, tc, ts⟩ .clientWrites ⟨b, .finished, s, tc, ts ++ [own]⟩
  | clientEof (b : δ) (own : ρ) (ts : List ρ) :
      Body.Advances ⟨b, .reading own, .aborted, [], ts⟩ .clientEof ⟨b, .aborted, .aborted, [], ts⟩
  | serverEnds (b : δ) (c : Stage ρ) (tc ts : List ρ) (t : Nat) : B.serverDone b = true →
      Body.Advances ⟨b, c, .running, tc, ts⟩ (.serverEnds t)
        ⟨b, c, .writing (B.serverReport b t), tc, ts⟩
  | serverFails (b : δ) (c : Stage ρ) (tc ts : List ρ) : B.serverFailed b = true →
      Body.Advances ⟨b, c, .running, tc, ts⟩ .serverFails ⟨b, c, .aborted, tc, ts⟩
  | serverReads (b : δ) (own r : ρ) (c : Stage ρ) (tc ts : List ρ) :
      Body.Advances ⟨b, c, .reading own, tc, r :: ts⟩ .serverReads ⟨b, c, .finished, tc, ts⟩
  | serverWrites (b : δ) (own : ρ) (c : Stage ρ) (tc ts : List ρ) :
      Body.Advances ⟨b, c, .writing own, tc, ts⟩ .serverWrites ⟨b, c, .reading own, tc ++ [own], ts⟩
  | serverEof (b : δ) (own : ρ) (tc : List ρ) :
      Body.Advances ⟨b, .aborted, .reading own, tc, []⟩ .serverEof ⟨b, .aborted, .aborted, tc, []⟩

theorem advances_of_advance (s : Exchange δ ρ) (e : ExchangeEvent ε) (s' : Exchange δ ρ)
    (hstep : B.advance s e = some s') : Body.Advances B s e s' := by
  rcases s with ⟨body, client, server, toClient, toServer⟩
  cases e with
  | job e =>
      simp only [Body.advance] at hstep
      split at hstep
      · rename_i b hb
        cases hstep
        exact Body.Advances.job body b client server toClient toServer e hb
      · cases hstep
  | clientEnds t =>
      cases client <;> simp only [Body.advance, reduceCtorEq] at hstep
      rw [Option.ite_none_right_eq_some] at hstep
      rcases hstep with ⟨hdone, hstep⟩
      cases hstep
      exact Body.Advances.clientEnds body server toClient toServer t hdone
  | clientFails =>
      cases client <;> simp only [Body.advance, reduceCtorEq] at hstep
      rw [Option.ite_none_right_eq_some] at hstep
      rcases hstep with ⟨hfailed, hstep⟩
      cases hstep
      exact Body.Advances.clientFails body server toClient toServer hfailed
  | clientReads =>
      cases client <;> cases toClient <;> simp only [Body.advance, reduceCtorEq] at hstep
      cases hstep
      exact Body.Advances.clientReads body _ _ server _ toServer
  | clientWrites =>
      cases client <;> simp only [Body.advance, reduceCtorEq] at hstep
      cases hstep
      exact Body.Advances.clientWrites body _ server toClient toServer
  | clientEof =>
      cases client <;> cases toClient <;> cases server <;>
        simp only [Body.advance, reduceCtorEq] at hstep
      cases hstep
      exact Body.Advances.clientEof body _ toServer
  | serverEnds t =>
      cases server <;> simp only [Body.advance, reduceCtorEq] at hstep
      rw [Option.ite_none_right_eq_some] at hstep
      rcases hstep with ⟨hdone, hstep⟩
      cases hstep
      exact Body.Advances.serverEnds body client toClient toServer t hdone
  | serverFails =>
      cases server <;> simp only [Body.advance, reduceCtorEq] at hstep
      rw [Option.ite_none_right_eq_some] at hstep
      rcases hstep with ⟨hfailed, hstep⟩
      cases hstep
      exact Body.Advances.serverFails body client toClient toServer hfailed
  | serverReads =>
      cases server <;> cases toServer <;> simp only [Body.advance, reduceCtorEq] at hstep
      cases hstep
      exact Body.Advances.serverReads body _ _ client toClient _
  | serverWrites =>
      cases server <;> simp only [Body.advance, reduceCtorEq] at hstep
      cases hstep
      exact Body.Advances.serverWrites body _ client toClient toServer
  | serverEof =>
      cases server <;> cases toServer <;> cases client <;>
        simp only [Body.advance, reduceCtorEq] at hstep
      cases hstep
      exact Body.Advances.serverEof body _ toClient

/-- Every step keeps stages and reports consistent. -/
theorem ctl_of_advance (s : Exchange δ ρ) (e : ExchangeEvent ε) (s' : Exchange δ ρ)
    (hstep : B.advance s e = some s') (h : Ctl s.client s.server s.toClient s.toServer) :
    Ctl s'.client s'.server s'.toClient s'.toServer := by
  cases advances_of_advance B s e s' hstep with
  | job => exact h
  | clientEnds => exact h.clientEnds
  | clientReads => exact h.clientReads
  | clientWrites => exact h.clientWrites
  | serverEnds => exact h.serverEnds
  | serverFails => exact h.serverFails
  | serverReads => exact h.serverReads
  | serverWrites => exact h.serverWrites
  -- A client that has given up is consistent with everything.
  | clientFails => exact Ctl.abandoned _ _ _
  | clientEof => exact Ctl.abandoned _ _ _
  | serverEof => exact Ctl.abandoned _ _ _

/-- The exchange is not stuck when a busy client can move, and a busy server
    can move once the client waits for its report. -/
theorem not_stuck (s : Exchange δ ρ) (hctl : Ctl s.client s.server s.toClient s.toServer)
    (hclient : s.client = .running → B.clientDone s.body = true ∨ B.clientFailed s.body = true ∨
      ∃ e b, B.moves e = true ∧ B.step s.body e = some b)
    (hserver : (∃ r, s.client = .reading r) → s.server = .running →
      B.serverDone s.body = true ∨ B.serverFailed s.body = true ∨
      ∃ e b, B.moves e = true ∧ B.step s.body e = some b) : ¬ B.Stuck s := by
  rintro ⟨hnone, hopen, hpresent⟩
  rcases s with ⟨body, client, server, toClient, toServer⟩
  -- A move of the job is a move of the whole.
  have hjob : ¬ ∃ e b, B.moves e = true ∧ B.step body e = some b := by
    rintro ⟨e, b, hmove, hstep⟩
    have hnil := hnone (.job e) hmove
    simp only [Body.advance, hstep, reduceCtorEq] at hnil
  -- A busy client ends its part, gives up, or moves the job.
  have hbusy : client ≠ .running := by
    rintro rfl
    rcases hclient rfl with hdone | hfailed | hmove
    · have hnil := hnone (.clientEnds 0) trivial
      simp only [Body.advance] at hnil
      rw [if_pos hdone] at hnil
      cases hnil
    · have hnil := hnone .clientFails trivial
      simp only [Body.advance] at hnil
      rw [if_pos hfailed] at hnil
      cases hnil
    · exact hjob hmove
  -- One move for every configuration of stages and reports.
  cases hctl with
  | before _ _ hc hs =>
      rcases hc with rfl | ⟨r, rfl⟩
      · exact hbusy rfl
      · rcases hs with rfl | ⟨q, rfl⟩ | rfl
        · rcases hserver ⟨r, rfl⟩ rfl with hdone | hfailed | hmove
          · have hnil := hnone (.serverEnds 0) trivial
            simp only [Body.advance] at hnil
            rw [if_pos hdone] at hnil
            cases hnil
          · have hnil := hnone .serverFails trivial
            simp only [Body.advance] at hnil
            rw [if_pos hfailed] at hnil
            cases hnil
          · exact hjob hmove
        · cases hnone .serverWrites trivial
        · cases hnone .clientEof trivial
  | reported _ q hc =>
      rcases hc with rfl | ⟨r, rfl⟩
      · exact hbusy rfl
      · cases hnone .clientReads trivial
  | taken r q => cases hnone .clientWrites trivial
  | answered r q => cases hnone .serverReads trivial
  | exchanged => exact hopen ⟨rfl, rfl⟩
  | abandoned _ _ _ => exact hpresent rfl

/-- A condition on the steps of the job, as one on the steps of the whole. -/
def Body.OnJob (P : δ → ε → Prop) (s : Exchange δ ρ) : ExchangeEvent ε → Prop
  | .job e => P s.body e
  | _ => True

/-- The body keeps `I`, the stages fit together, and a client that reads has
    done its part of the job. -/
structure Sane (I : δ → Prop) (s : Exchange δ ρ) : Prop where
  body : I s.body
  ctl : Ctl s.client s.server s.toClient s.toServer
  done : (∃ r, s.client = .reading r) → B.clientDone s.body = true

theorem sane_start (I : δ → Prop) (h : I B.init) : Sane B I B.start where
  body := h
  ctl := Ctl.before _ _ (Or.inl rfl) (Or.inl rfl)
  done := by
    rintro ⟨r, hr⟩
    cases hr

theorem sane_advance (I : δ → Prop) (P : δ → ε → Prop)
    (hI : ∀ b e b', P b e → B.step b e = some b' → I b → I b')
    (hstable : ∀ b e b', B.step b e = some b' → B.clientDone b = true → B.clientDone b' = true)
    (s : Exchange δ ρ) (e : ExchangeEvent ε) (s' : Exchange δ ρ) (hP : Body.OnJob P s e)
    (hstep : B.advance s e = some s') (h : Sane B I s) : Sane B I s' := by
  refine ⟨?_, ctl_of_advance B s e s' hstep h.ctl, ?_⟩
  · -- Only a step of the job touches the body.
    cases advances_of_advance B s e s' hstep with
    | job b b' _ _ _ _ e hb => exact hI b e b' hP hb h.body
    | _ => exact h.body
  · -- A client starts reading when it is done, and stays done while it reads.
    rintro ⟨r, hr⟩
    cases advances_of_advance B s e s' hstep with
    | job b b' _ _ _ _ e hb => exact hstable b e b' hb (h.done ⟨r, hr⟩)
    | clientEnds _ _ _ _ _ hend => exact hend
    | serverEnds => exact h.done ⟨r, hr⟩
    | serverFails => exact h.done ⟨r, hr⟩
    | serverReads => exact h.done ⟨r, hr⟩
    | serverWrites => exact h.done ⟨r, hr⟩
    | _ => cases hr

/-- A run is never stuck if its steps of the job meet a condition under which
    the body keeps an invariant that lets a busy client move, and a busy
    server once the client is done. -/
theorem never_stuck (I : δ → Prop) (P : δ → ε → Prop) (h0 : I B.init)
    (hI : ∀ b e b', P b e → B.step b e = some b' → I b → I b')
    (hstable : ∀ b e b', B.step b e = some b' → B.clientDone b = true → B.clientDone b' = true)
    (hclient : ∀ b, I b → B.clientDone b = true ∨ B.clientFailed b = true ∨
      ∃ e b', B.moves e = true ∧ B.step b e = some b')
    (hserver : ∀ b, I b → B.clientDone b = true →
      B.serverDone b = true ∨ B.serverFailed b = true ∨
      ∃ e b', B.moves e = true ∧ B.step b e = some b')
    (es : List (ExchangeEvent ε)) (s : Exchange δ ρ)
    (hmeets : Machine.Meets B.advance (Body.OnJob P) B.start es)
    (hrun : Machine.runFrom B.advance B.start es = some s) : ¬ B.Stuck s := by
  -- The run keeps the body's invariant together with the stages.
  have hsane := Machine.run_invariant_of_meets (Body.OnJob P) (Sane B I)
    (sane_advance B I P hI hstable) es B.start s hmeets hrun (sane_start B I h0)
  exact not_stuck B s hsane.ctl (fun _ => hclient s.body hsane.body)
    (fun hr _ => hserver s.body hsane.body (hsane.done hr))

/-! ## Reports -/

/-- In the run the client has made the report `r`. -/
def Body.ClientReported (es : List (ExchangeEvent ε)) (r : ρ) : Prop :=
  ∃ pre t post s, es = pre ++ .clientEnds t :: post ∧
    Machine.runFrom B.advance B.start pre = some s ∧ r = B.clientReport s.body t

/-- In the run the server has made the report `r`. -/
def Body.ServerReported (es : List (ExchangeEvent ε)) (r : ρ) : Prop :=
  ∃ pre t post s, es = pre ++ .serverEnds t :: post ∧
    Machine.runFrom B.advance B.start pre = some s ∧ r = B.serverReport s.body t

/-- Only a step of the job touches the body. -/
theorem body_of_advance (s : Exchange δ ρ) (e : ExchangeEvent ε) (s' : Exchange δ ρ)
    (hstep : B.advance s e = some s') :
    s'.body = s.body ∨ ∃ e', e = .job e' ∧ B.step s.body e' = some s'.body := by
  cases advances_of_advance B s e s' hstep with
  | job b b' _ _ _ _ e hb => exact Or.inr ⟨e, rfl, hb⟩
  | _ => exact Or.inl rfl

/-- What every step of the job keeps holds of the body along a run. -/
theorem body_invariant (I : δ → Prop) (hI : ∀ b e b', B.step b e = some b' → I b → I b')
    (s t : Exchange δ ρ) (hr : Machine.Reachable B.advance s t) (h : I s.body) : I t.body := by
  refine Machine.reachable_invariant (fun u => I u.body) ?_ s t hr h
  intro u e u' hstep hu
  rcases body_of_advance B u e u' hstep with hsame | ⟨e', -, hjob⟩
  · rw [hsame]
    exact hu
  · exact hI _ _ _ hjob hu

/-- A report that no step changes once a part is over is the same ever after. -/
theorem report_frozen (done : δ → Bool) (report : δ → Nat → ρ)
    (hfrozen : ∀ b e b', B.step b e = some b' → done b = true →
      done b' = true ∧ report b' = report b)
    (s t : Exchange δ ρ) (hr : Machine.Reachable B.advance s t) (hdone : done s.body = true) :
    report t.body = report s.body := by
  refine (body_invariant B (fun b => done b = true ∧ report b = report s.body) ?_ s t hr
    ⟨hdone, rfl⟩).2
  intro b e b' hstep h
  rcases hfrozen b e b' hstep h.1 with ⟨hdone', hsame⟩
  exact ⟨hdone', hsame.trans h.2⟩

/-- The report of a client whose part is over is final. -/
theorem clientReport_final
    (hfrozen : ∀ b e b', B.step b e = some b' → B.clientDone b = true →
      B.clientDone b' = true ∧ B.clientReport b' = B.clientReport b)
    (es : List (ExchangeEvent ε)) (s : Exchange δ ρ)
    (hrun : Machine.runFrom B.advance B.start es = some s) (r : ρ) (hr : B.ClientReported es r) :
    ∃ t, r = B.clientReport s.body t := by
  rcases hr with ⟨pre, t, post, u, rfl, hpre, rfl⟩
  rw [Machine.runFrom_append, hpre, Option.bind_some] at hrun
  rcases (Machine.runFrom_cons u s _ post).mp hrun with ⟨v, hstep, hpost⟩
  cases advances_of_advance B u _ v hstep with
  | clientEnds b st tc ts t hdone =>
      exact ⟨t, by rw [report_frozen B _ _ hfrozen _ s ⟨post, hpost⟩ hdone]⟩

/-- The report of a server whose part is over is final. -/
theorem serverReport_final
    (hfrozen : ∀ b e b', B.step b e = some b' → B.serverDone b = true →
      B.serverDone b' = true ∧ B.serverReport b' = B.serverReport b)
    (es : List (ExchangeEvent ε)) (s : Exchange δ ρ)
    (hrun : Machine.runFrom B.advance B.start es = some s) (r : ρ) (hr : B.ServerReported es r) :
    ∃ t, r = B.serverReport s.body t := by
  rcases hr with ⟨pre, t, post, u, rfl, hpre, rfl⟩
  rw [Machine.runFrom_append, hpre, Option.bind_some] at hrun
  rcases (Machine.runFrom_cons u s _ post).mp hrun with ⟨v, hstep, hpost⟩
  cases advances_of_advance B u _ v hstep with
  | serverEnds b c tc ts t hdone =>
      exact ⟨t, by rw [report_frozen B _ _ hfrozen _ s ⟨post, hpost⟩ hdone]⟩

end

end ProxyPen
