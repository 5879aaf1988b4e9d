import ProxyPen.Core.UdpPhase
import ProxyPen.Theory.DownLoop
import ProxyPen.Theory.Pacing
import ProxyPen.Theory.UpLoop

/-!
# Stuck UDP Tests

Every wait of a UDP test ends by itself, with a deadline or an answer of the
socket, except one: the server's wait for its first datagram. It has no
deadline. A server whose first datagram never comes waits for it, and the
client, having left its own loop, waits for the server's report.

That is the only way to get stuck. `UpFed` and `DownFed` say of a step that it
does not starve the server: nothing may lose the last datagram on its way to a
server that still waits, once the client will send no more, and a client may
not leave its send loop while such a server has nothing on its way. Runs made
of such steps are never stuck, `udp_never_stuck`.

## Main definitions

* `Sender.Leaves`: An event that ends a send loop.
* `UpLink.Starved`, `DownLink.Starved`: The server waits for a datagram that
  will not come.
* `UpFed`, `DownFed`: A step that does not starve the server.
* `UpLinkMove`, `DownLinkMove`: The transitions, one constructor each.

## Theorems

* `sender_enabled`, `upReceiver_enabled`, `downReceiver_enabled`: The loops
  never wait for the network alone.
* `upLinkMove_of_step`, `downLinkMove_of_step`: What a step of a data phase
  can do.
* `upLinkInv_step`, `downLinkInv_step`: The invariants of the data phases.
* `udp_never_stuck`: Fed runs are never stuck.
* `udp_hello_lost_stuck`: A lost hello gets a download stuck.
-/

namespace ProxyPen

open Protocol Socks

/-! ## The loops by themselves -/

/-- A send loop that has not ended has an answer to come: a clock reading, or
    the refusal of a send. -/
theorem sender_enabled (c : Sender) (s : SendState) (h : SendInv c s) :
    s.pc = .done ∨ (s.pc = .failed ∨ s.pc = .panicked) ∨ ∃ e s', c.step s e = some s' := by
  -- Reading the clock again at the time it shows is always possible.
  have hread : ∀ s', c.onReading s s.now = some s' → ∃ e s', c.step s e = some s' := by
    intro s' hs'
    exact ⟨.reading s.now, s', by rw [Sender.step, if_pos ⟨Nat.le_refl _, h.now_le⟩, hs']⟩
  cases hpc : s.pc with
  | done => exact Or.inl rfl
  | failed => exact Or.inr (Or.inl (Or.inl rfl))
  | panicked => exact Or.inr (Or.inl (Or.inr rfl))
  | hello =>
      refine Or.inr (Or.inr ⟨.refused,
        { s with pc := if c.takes = none then .panicked else .failed }, ?_⟩)
      simp only [Sender.step, hpc]
  | send due =>
      refine Or.inr (Or.inr ⟨.refused, { s with pc := .done }, ?_⟩)
      simp only [Sender.step, hpc]
  | sleep =>
      -- The last reading of the clock is late enough for any timer.
      have hawake : c.awake s clockMax := Or.inr (Nat.min_le_right _ _)
      refine Or.inr (Or.inr ⟨.reading clockMax, { s with pc := .top, now := clockMax }, ?_⟩)
      rw [Sender.step, if_pos ⟨h.now_le, Nat.le_refl _⟩]
      simp only [Sender.onReading, hpc]
      rw [if_pos hawake]
  | start => exact Or.inr (Or.inr (hread _ (by simp only [Sender.onReading, hpc]; rfl)))
  | pacer => exact Or.inr (Or.inr (hread _ (by simp only [Sender.onReading, hpc]; rfl)))
  | top => exact Or.inr (Or.inr (hread _ (by simp only [Sender.onReading, hpc]; rfl)))
  | due => exact Or.inr (Or.inr (hread _ (by simp only [Sender.onReading, hpc]; rfl)))
  | check due => exact Or.inr (Or.inr (hread _ (by simp only [Sender.onReading, hpc]; rfl)))
  | stamp due => exact Or.inr (Or.inr (hread _ (by simp only [Sender.onReading, hpc]; rfl)))

/-- The server's receive loop needs the network only for its first datagram. -/
theorem upReceiver_enabled {F : Type} [JitterFilter F] (c : UpReceiver) (s : UpState Unit F)
    (h : UpInv c s) :
    s.pc = .hello ∨ s.pc = .done ∨ s.pc = .failed ∨
      ∃ e s', e.isDatagram = false ∧ e.isFault = false ∧ c.step s e = some s' := by
  have hread : ∀ s', UpReceiver.onReading s s.now = some s' →
      ∃ e s', e.isDatagram = false ∧ e.isFault = false ∧ c.step s e = some s' := by
    intro s' hs'
    exact ⟨.reading s.now, s', rfl, rfl,
      by rw [UpReceiver.step, if_pos ⟨Nat.le_refl _, h.now_le⟩, hs']⟩
  cases hpc : s.pc with
  | hello => exact Or.inl rfl
  | done => exact Or.inr (Or.inl rfl)
  | failed => exact Or.inr (Or.inr (Or.inl rfl))
  | select =>
      refine Or.inr (Or.inr (Or.inr ⟨.expired clockMax, { s with pc := .done, now := clockMax },
        rfl, rfl, ?_⟩))
      rw [UpReceiver.step, if_pos ⟨hpc, h.now_le, Nat.le_refl _, Nat.min_le_right _ _⟩]
  | anchor buf =>
      exact Or.inr (Or.inr (Or.inr (hread _ (by simp only [UpReceiver.onReading, hpc]; rfl))))
  | process buf =>
      exact Or.inr (Or.inr (Or.inr (hread _ (by simp only [UpReceiver.onReading, hpc]; rfl))))

/-- The client's receive loop never needs the network to go on. -/
theorem downReceiver_enabled {F : Type} [JitterFilter F] (c : DownReceiver) (s : DownState F)
    (h : DownInv c s) :
    (∃ cause, s.pc = .stopped cause) ∨ (s.pc = .failed ∨ s.pc = .panicked) ∨
      ∃ e s', e.isDatagram = false ∧ e ≠ .error ∧ c.step s e = some s' := by
  have hread : ∀ s', DownReceiver.onReading s s.now = some s' →
      ∃ e s', e.isDatagram = false ∧ e ≠ .error ∧ c.step s e = some s' := by
    intro s' hs'
    refine ⟨.reading s.now, s', rfl, by simp only [ne_eq, reduceCtorEq, not_false_eq_true], ?_⟩
    rw [DownReceiver.step, if_pos ⟨Nat.le_refl _, h.now_le⟩, hs']
  cases hpc : s.pc with
  | stopped cause => exact Or.inl ⟨cause, rfl⟩
  | failed => exact Or.inr (Or.inl (Or.inl rfl))
  | panicked => exact Or.inr (Or.inl (Or.inr rfl))
  | hello =>
      refine Or.inr (Or.inr ⟨.refused,
        { s with pc := if c.takes = none then .panicked else .failed }, rfl,
        by simp only [ne_eq, reduceCtorEq, not_false_eq_true], ?_⟩)
      rw [DownReceiver.step, if_pos hpc]
  | select =>
      refine Or.inr (Or.inr ⟨.expired clockMax, { s with pc := .stopped .deadline, now := clockMax },
        rfl, by simp only [ne_eq, reduceCtorEq, not_false_eq_true], ?_⟩)
      rw [DownReceiver.step, if_pos ⟨hpc, h.now_le, Nat.le_refl _, Nat.min_le_right _ _⟩]
  | start => exact Or.inr (Or.inr (hread _ (by simp only [DownReceiver.onReading, hpc]; rfl)))
  | anchor buf => exact Or.inr (Or.inr (hread _ (by simp only [DownReceiver.onReading, hpc]; rfl)))
  | process buf =>
      cases hstart : s.sessionStart with
      | none => exact absurd hstart (h.anchored buf hpc)
      | some start =>
          exact Or.inr (Or.inr (hread _ (by simp only [DownReceiver.onReading, hpc, hstart]; rfl)))

/-- An event that ends a send loop: a reading past the deadline, or a refused
    send. -/
def Sender.Leaves (c : Sender) (s : SendState) : SendEvent → Prop
  | .reading t => (s.pc = .top ∨ ∃ due, s.pc = .check due) ∧ c.deadline s ≤ t
  | .refused => ∃ due, s.pc = .send due
  | .accepted => False

theorem leaves_of_done (c : Sender) (s : SendState) (e : SendEvent) (s' : SendState)
    (hstep : c.step s e = some s') (hdone : s'.pc = .done) : c.Leaves s e := by
  cases sendMove_of_step c s e s' hstep with
  | start t hpc hnow hmax =>
      simp only at hdone
      split at hdone <;> cases hdone
  | pacer t hpc hnow hmax => cases hdone
  | top t hpc hnow hmax =>
      simp only at hdone
      split at hdone
      -- The deadline test at the head of the outer loop.
      · rename_i hover
        exact ⟨Or.inl hpc, hover⟩
      · cases hdone
  | due t hpc hnow hmax =>
      simp only [Sender.guard] at hdone
      split at hdone <;> cases hdone
  | check t due hpc hnow hmax =>
      simp only at hdone
      split at hdone
      -- The deadline test of the inner loop.
      · rename_i hover
        exact ⟨Or.inr ⟨due, hpc⟩, hover⟩
      · cases hdone
  | stamp t due hpc hnow hmax => cases hdone
  | wake t hpc hnow hmax hawake => cases hdone
  | hello hpc htakes => cases hdone
  | send due hpc htakes =>
      simp only [Sender.guard] at hdone
      split at hdone <;> cases hdone
  | helloRefused hpc =>
      simp only at hdone
      split at hdone <;> cases hdone
  | sendRefused due hpc => exact ⟨due, hpc⟩

theorem sender_done_final (c : Sender) (s : SendState) (e : SendEvent) (hdone : s.pc = .done) :
    c.step s e = none := by
  cases e with
  | reading t =>
      rw [Sender.step]
      split
      · simp only [Sender.onReading, hdone]
      · rfl
  | accepted =>
      rw [Sender.step]
      split
      · simp only [hdone]
      · rfl
  | refused => simp only [Sender.step, hdone]

/-- A list with something left after an element is gone had two. -/
theorem eraseIdx_eq_nil {α : Type} (l : List α) (i : Nat) (hi : i < l.length)
    (h : l.eraseIdx i = []) : l.length ≤ 1 := by
  have hlen := congrArg List.length h
  rw [List.length_eraseIdx_of_lt hi, List.length_nil] at hlen
  omega

/-! ## Upload -/

section Up

variable {F : Type} [JitterFilter F] (c : Sender) (r : UpReceiver)

/-- The transitions of an upload's data phase. -/
inductive UpLinkMove (b : UpLink F) : UpLinkEvent → UpLink F → Prop where
  | client (e : SendEvent) (s : SendState) (hs : c.step b.client e = some s) :
      UpLinkMove b (.client e)
        { b with client := s, net := b.net ++ Sender.emits b.client e }
  | server (e : UpEvent Unit) (s : UpState Unit F) (hs : r.step b.server e = some s) :
      UpLinkMove b (.server e) { b with server := s }
  | deliver (i : Nat) (d : Bytes) (s : UpState Unit F)
      (hs : r.step b.server (.datagram () d) = some s) :
      UpLinkMove b (.deliver i) { b with server := s, net := b.net.eraseIdx i }
  | lose (i : Nat) (hi : i < b.net.length) :
      UpLinkMove b (.lose i) { b with net := b.net.eraseIdx i }
  | duplicate (i : Nat) (d : Bytes) :
      UpLinkMove b (.duplicate i) { b with net := b.net ++ [d] }

theorem upLinkMove_of_step (b : UpLink F) (e : UpLinkEvent) (b' : UpLink F)
    (hstep : UpLink.step c r b e = some b') : UpLinkMove c r b e b' := by
  cases e with
  | client e =>
      rw [UpLink.step] at hstep
      split at hstep
      · rename_i s hs
        cases hstep
        exact UpLinkMove.client e s hs
      · cases hstep
  | server e =>
      rw [UpLink.step] at hstep
      split at hstep
      · cases hstep
      · split at hstep
        · rename_i s hs
          cases hstep
          exact UpLinkMove.server e s hs
        · cases hstep
  | deliver i =>
      rw [UpLink.step] at hstep
      split at hstep
      · split at hstep
        · rename_i d _ _ s hs
          cases hstep
          exact UpLinkMove.deliver i d s hs
        · cases hstep
      · cases hstep
  | lose i =>
      rw [UpLink.step, Option.ite_none_right_eq_some] at hstep
      rcases hstep with ⟨hi, hstep⟩
      cases hstep
      exact UpLinkMove.lose i hi
  | duplicate i =>
      rw [UpLink.step] at hstep
      split at hstep
      · rename_i d _
        cases hstep
        exact UpLinkMove.duplicate i d
      · cases hstep

/-- The server waits for its first datagram, nothing is on its way, and the
    client has left its send loop. -/
def UpLink.Starved (b : UpLink F) : Prop :=
  b.server.pc = .hello ∧ b.net = [] ∧ b.client.pc = .done

/-- A step that does not starve the server of an upload. -/
def UpFed (b : UpLink F) : UpLinkEvent → Prop
  -- Leaving the loop is harmless while a datagram is still on its way.
  | .client e => ¬ (b.server.pc = .hello ∧ b.net = [] ∧ c.Leaves b.client e)
  -- A loss is harmless while the client still sends.
  | .lose _ => ¬ (b.server.pc = .hello ∧ b.net.length ≤ 1 ∧ b.client.pc = .done)
  | _ => True

structure UpLinkInv (b : UpLink F) : Prop where
  client : SendInv c b.client
  server : UpInv r b.server
  fed : ¬ b.Starved

/-- Once the server has its first datagram it does not wait for one again. -/
theorem not_hello_of_step (s : UpState Unit F) (e : UpEvent Unit) (s' : UpState Unit F)
    (hstep : r.step s e = some s') : s'.pc ≠ .hello := by
  intro hpc
  cases e with
  | datagram src d =>
      rw [UpReceiver.step, UpReceiver.onDatagram] at hstep
      split at hstep <;> cases hstep
      · cases hpc
      · simp only at hpc
        split at hpc <;> cases hpc
  | reading t =>
      rw [UpReceiver.step, Option.ite_none_right_eq_some] at hstep
      rcases hstep with ⟨-, hstep⟩
      unfold UpReceiver.onReading at hstep
      split at hstep <;> cases hstep <;> cases hpc
  | expired t =>
      rw [UpReceiver.step, Option.ite_none_right_eq_some] at hstep
      rcases hstep with ⟨-, hstep⟩
      cases hstep
      cases hpc
  | error =>
      rw [UpReceiver.step, Option.ite_none_right_eq_some] at hstep
      rcases hstep with ⟨-, hstep⟩
      cases hstep
      cases hpc

theorem upLinkInv_step (b : UpLink F) (e : UpLinkEvent) (b' : UpLink F) (hfed : UpFed c b e)
    (hstep : UpLink.step c r b e = some b') (h : UpLinkInv c r b) : UpLinkInv c r b' := by
  cases upLinkMove_of_step c r b e b' hstep with
  | client e s hs =>
      refine ⟨sendInv_step c _ _ _ hs h.client, h.server, ?_⟩
      rintro ⟨hserver, hnet, hdone⟩
      exact hfed ⟨hserver, (List.append_eq_nil_iff.mp hnet).1, leaves_of_done c _ _ _ hs hdone⟩
  | server e s hs =>
      exact ⟨h.client, upInv_step r _ _ _ hs h.server,
        fun hstarved => not_hello_of_step r _ _ _ hs hstarved.1⟩
  | deliver i d s hs =>
      exact ⟨h.client, upInv_step r _ _ _ hs h.server,
        fun hstarved => not_hello_of_step r _ _ _ hs hstarved.1⟩
  | lose i hi =>
      refine ⟨h.client, h.server, ?_⟩
      rintro ⟨hserver, hnet, hdone⟩
      exact hfed ⟨hserver, eraseIdx_eq_nil _ i hi hnet, hdone⟩
  | duplicate i d =>
      -- A copy has just been put on its way.
      refine ⟨h.client, h.server, ?_⟩
      rintro ⟨-, hnet, -⟩
      exact List.cons_ne_nil _ _ (List.append_eq_nil_iff.mp hnet).2

/-- A waiting server takes whatever is on its way. -/
theorem upLink_deliver (b : UpLink F) (hpc : b.server.pc = .hello) (hnet : b.net ≠ []) :
    ∃ b', UpLink.step c r b (.deliver 0) = some b' := by
  cases hlist : b.net with
  | nil => exact absurd hlist hnet
  | cons d ds =>
      refine ⟨{ b with
        server := { b.server with
          pc := .anchor (osRecv r.bufLen d)
          peer := some ()
          received := b.server.received ++ [((), d)] }
        net := ds }, ?_⟩
      simp only [UpLink.step, hlist, List.getElem?_cons_zero, UpReceiver.step,
        UpReceiver.onDatagram, hpc, List.eraseIdx_cons_zero]

end Up

/-- Uploads whose server is fed are never stuck. -/
theorem udpUp_never_stuck (F : Type) [JitterFilter F] (opts : BenchOptions) (plan : Plan)
    (sock : TransportUdpSocket) (udpMax : UdpMax)
    (es : List (ExchangeEvent UpLinkEvent)) (s : Exchange (UpLink F) TestReport)
    (hfed : Machine.Meets (udpUp F opts plan sock udpMax).advance
      (Body.OnJob (UpFed (Client.runUdpUp sock udpMax opts.duration opts.udpSize plan.bandwidthBps)))
      (udpUp F opts plan sock udpMax).start es)
    (hrun : Machine.runFrom (udpUp F opts plan sock udpMax).advance (udpUp F opts plan sock udpMax).start es = some s) :
    ¬ (udpUp F opts plan sock udpMax).Stuck s := by
  refine never_stuck (udpUp F opts plan sock udpMax)
    (UpLinkInv (Client.runUdpUp sock udpMax opts.duration opts.udpSize plan.bandwidthBps)
      (Server.runUdpUp (opts.request plan)))
    (UpFed (Client.runUdpUp sock udpMax opts.duration opts.udpSize plan.bandwidthBps)) ?_
    (upLinkInv_step _ _) ?_ ?_ ?_ es s hfed hrun
  · refine ⟨sendInv_init _, upInv_init _, ?_⟩
    rintro ⟨-, -, hdone⟩
    cases hdone
  · -- A client that has left its loop stays out of it.
    intro b e b' hstep hdone
    simp only [udpUp, decide_eq_true_eq] at hstep hdone ⊢
    cases upLinkMove_of_step _ _ b e b' hstep with
    | client e s hs =>
        rw [sender_done_final _ _ e hdone] at hs
        cases hs
    | _ => exact hdone
  -- A busy client moves by itself.
  · intro b h
    simp only [udpUp, decide_eq_true_eq]
    rcases sender_enabled _ b.client h.client with hdone | hfailed | ⟨e, s', hs'⟩
    · exact Or.inl hdone
    · exact Or.inr (Or.inl hfailed)
    · refine Or.inr (Or.inr ⟨.client e,
        { b with client := s', net := b.net ++ Sender.emits b.client e }, rfl, ?_⟩)
      simp only [UpLink.step, hs']
  · intro b h hdone
    simp only [udpUp, decide_eq_true_eq] at hdone ⊢
    rcases upReceiver_enabled _ b.server h.server with hpc | hpc | hpc | ⟨e, s', hd, hf, hs'⟩
    · -- The one wait without a deadline: something is on its way, or the server starves.
      have hnet : b.net ≠ [] := fun hnil => h.fed ⟨hpc, hnil, hdone⟩
      rcases upLink_deliver (Client.runUdpUp sock udpMax opts.duration opts.udpSize plan.bandwidthBps)
        (Server.runUdpUp (opts.request plan)) b hpc hnet with ⟨b', hb'⟩
      exact Or.inr (Or.inr ⟨.deliver 0, b', rfl, hb'⟩)
    · exact Or.inl hpc
    · exact Or.inr (Or.inl hpc)
    · refine Or.inr (Or.inr ⟨.server e, { b with server := s' }, by simp only [hf, Bool.not_false], ?_⟩)
      simp only [UpLink.step, hd, Bool.false_eq_true, if_false, hs']

/-! ## Download -/

section Down

variable {F : Type} [JitterFilter F] (c : DownReceiver) (r : Sender) (carry : Bytes → Bytes)

/-- The transitions of a download's data phase. -/
inductive DownLinkMove (b : DownLink F) : DownLinkEvent → DownLink F → Prop where
  | client (e : DownEvent) (s : DownState F) (hs : c.step b.client e = some s) :
      DownLinkMove b (.client e)
        { b with client := s, up := b.up ++ if e = .accepted then [c.hello] else [] }
  | server (e : ServeEvent) (v : ServeState) (hv : serveStep r b.server e = some v) :
      DownLinkMove b (.server e) { b with server := v, down := b.down ++ b.server.emits e }
  | deliverUp (i : Nat) (d : Bytes) (v : ServeState)
      (hv : serveStep r b.server (.datagram d) = some v) :
      DownLinkMove b (.deliverUp i) { b with server := v, up := b.up.eraseIdx i }
  | deliverDown (i : Nat) (d : Bytes) (s : DownState F)
      (hs : c.step b.client (.datagram (carry d)) = some s) :
      DownLinkMove b (.deliverDown i) { b with client := s, down := b.down.eraseIdx i }
  | loseUp (i : Nat) (hi : i < b.up.length) :
      DownLinkMove b (.loseUp i) { b with up := b.up.eraseIdx i }
  | loseDown (i : Nat) : DownLinkMove b (.loseDown i) { b with down := b.down.eraseIdx i }
  | duplicateUp (i : Nat) (d : Bytes) :
      DownLinkMove b (.duplicateUp i) { b with up := b.up ++ [d] }
  | duplicateDown (i : Nat) (d : Bytes) :
      DownLinkMove b (.duplicateDown i) { b with down := b.down ++ [d] }

theorem downLinkMove_of_step (b : DownLink F) (e : DownLinkEvent) (b' : DownLink F)
    (hstep : DownLink.step c r carry b e = some b') : DownLinkMove c r carry b e b' := by
  cases e with
  | client e =>
      rw [DownLink.step] at hstep
      split at hstep
      · cases hstep
      · split at hstep
        · rename_i s hs
          cases hstep
          exact DownLinkMove.client e s hs
        · cases hstep
  | server e =>
      cases e with
      | datagram d => cases hstep
      | error =>
          simp only [DownLink.step] at hstep
          split at hstep
          · rename_i v hv
            cases hstep
            exact DownLinkMove.server _ v hv
          · cases hstep
      | send e =>
          simp only [DownLink.step] at hstep
          split at hstep
          · rename_i v hv
            cases hstep
            exact DownLinkMove.server _ v hv
          · cases hstep
  | deliverUp i =>
      rw [DownLink.step] at hstep
      split at hstep
      · split at hstep
        · rename_i d _ _ v hv
          cases hstep
          exact DownLinkMove.deliverUp i d v hv
        · cases hstep
      · cases hstep
  | deliverDown i =>
      rw [DownLink.step] at hstep
      split at hstep
      · split at hstep
        · rename_i d _ _ s hs
          cases hstep
          exact DownLinkMove.deliverDown i d s hs
        · cases hstep
      · cases hstep
  | loseUp i =>
      rw [DownLink.step, Option.ite_none_right_eq_some] at hstep
      rcases hstep with ⟨hi, hstep⟩
      cases hstep
      exact DownLinkMove.loseUp i hi
  | loseDown i =>
      rw [DownLink.step] at hstep
      split at hstep <;> cases hstep
      exact DownLinkMove.loseDown i
  | duplicateUp i =>
      rw [DownLink.step] at hstep
      split at hstep <;> cases hstep
      exact DownLinkMove.duplicateUp i _
  | duplicateDown i =>
      rw [DownLink.step] at hstep
      split at hstep <;> cases hstep
      exact DownLinkMove.duplicateDown i _

/-- The server waits for the hello, no copy of it is on its way, and the
    client has sent it. -/
def DownLink.Starved (b : DownLink F) : Prop :=
  b.server = .hello ∧ b.up = [] ∧ b.client.pc ≠ .hello ∧ b.client.pc ≠ .failed ∧
    b.client.pc ≠ .panicked

/-- A step that does not starve the server of a download. -/
def DownFed (b : DownLink F) : DownLinkEvent → Prop
  -- The hello is sent once, so its last copy must not be lost.
  | .loseUp _ => ¬ (b.server = .hello ∧ b.up.length ≤ 1)
  | _ => True

structure DownLinkInv (b : DownLink F) : Prop where
  client : DownInv c b.client
  server : ∀ s, b.server = .sending s → SendInv r s
  fed : ¬ b.Starved

theorem downReceiver_stopped_final (s : DownState F) (e : DownEvent) (cause : StopCause)
    (hpc : s.pc = .stopped cause) : c.step s e = none := by
  cases e with
  | reading t =>
      rw [DownReceiver.step]
      split
      · simp only [DownReceiver.onReading, hpc]
      · rfl
  | _ => simp only [DownReceiver.step, hpc, reduceCtorEq, false_and, if_false]

/-- The client of a download leaves the start by sending its hello or by
    failing. -/
theorem hello_or_later (s : DownState F) (e : DownEvent) (s' : DownState F)
    (hstep : c.step s e = some s') (hpc' : s'.pc ≠ .failed ∧ s'.pc ≠ .panicked) :
    (s.pc ≠ .hello ∧ s.pc ≠ .failed ∧ s.pc ≠ .panicked) ∨ e = .accepted := by
  cases e with
  | accepted => exact Or.inr rfl
  | refused =>
      rw [DownReceiver.step, Option.ite_none_right_eq_some] at hstep
      rcases hstep with ⟨-, hstep⟩
      cases hstep
      simp only at hpc'
      split at hpc'
      · exact absurd rfl hpc'.2
      · exact absurd rfl hpc'.1
  | reading t =>
      rw [DownReceiver.step, Option.ite_none_right_eq_some] at hstep
      rcases hstep with ⟨-, hstep⟩
      left
      refine ⟨?_, ?_, ?_⟩ <;> intro hpc <;>
        simp only [DownReceiver.onReading, hpc, reduceCtorEq] at hstep
  | datagram d =>
      rw [DownReceiver.step, Option.ite_none_right_eq_some] at hstep
      left
      refine ⟨?_, ?_, ?_⟩ <;> intro hpc <;> simp only [hpc, reduceCtorEq, false_and] at hstep
  | expired t =>
      rw [DownReceiver.step, Option.ite_none_right_eq_some] at hstep
      left
      refine ⟨?_, ?_, ?_⟩ <;> intro hpc <;> simp only [hpc, reduceCtorEq, false_and] at hstep
  | error =>
      rw [DownReceiver.step, Option.ite_none_right_eq_some] at hstep
      left
      refine ⟨?_, ?_, ?_⟩ <;> intro hpc <;> simp only [hpc, reduceCtorEq, false_and] at hstep

/-- Past the hello the server is in its send loop, and stays in it. -/
theorem serveStep_cases (v : ServeState) (e : ServeEvent) (v' : ServeState)
    (hstep : serveStep r v e = some v') :
    (v = .hello ∧ v' = .sending r.init) ∨ v' = .failed ∨
      ∃ s s' e', v = .sending s ∧ v' = .sending s' ∧ r.step s e' = some s' := by
  cases v with
  | hello =>
      cases e with
      | datagram d =>
          cases hstep
          exact Or.inl ⟨rfl, rfl⟩
      | error =>
          cases hstep
          exact Or.inr (Or.inl rfl)
      | send e => cases hstep
  | sending s =>
      cases e with
      | datagram d => cases hstep
      | error => cases hstep
      | send e =>
          simp only [serveStep] at hstep
          split at hstep
          · rename_i s' hs'
            cases hstep
            exact Or.inr (Or.inr ⟨s, s', e, rfl, rfl, hs'⟩)
          · cases hstep
  | failed => cases e <;> cases hstep

/-- A step of the server leaves it in a good state, and no longer waiting. -/
theorem serve_ok (v : ServeState) (e : ServeEvent) (v' : ServeState)
    (hstep : serveStep r v e = some v') (hv : ∀ s, v = .sending s → SendInv r s) :
    (∀ s, v' = .sending s → SendInv r s) ∧ v' ≠ .hello := by
  rcases serveStep_cases r v e v' hstep with ⟨-, rfl⟩ | rfl | ⟨s, s', e', rfl, rfl, hs'⟩
  · refine ⟨?_, by simp only [ne_eq, reduceCtorEq, not_false_eq_true]⟩
    intro s hs
    cases hs
    exact sendInv_init r
  · refine ⟨?_, by simp only [ne_eq, reduceCtorEq, not_false_eq_true]⟩
    intro s hs
    cases hs
  · refine ⟨?_, by simp only [ne_eq, reduceCtorEq, not_false_eq_true]⟩
    intro u hu
    cases hu
    exact sendInv_step r s e' s' hs' (hv s rfl)

theorem downLinkInv_step (b : DownLink F) (e : DownLinkEvent) (b' : DownLink F)
    (hfed : DownFed b e) (hstep : DownLink.step c r carry b e = some b')
    (h : DownLinkInv c r b) : DownLinkInv c r b' := by
  cases downLinkMove_of_step c r carry b e b' hstep with
  | client e s hs =>
      refine ⟨downInv_step c _ _ _ hs h.client, h.server, ?_⟩
      rintro ⟨hserver, hup, -, hfailed⟩
      rcases hello_or_later c _ _ _ hs hfailed with hlater | rfl
      · exact h.fed ⟨hserver, (List.append_eq_nil_iff.mp hup).1, hlater⟩
      · -- The hello is on its way.
        simp only [if_true, List.append_eq_nil_iff, List.cons_ne_self, and_false] at hup
  | server e v hv =>
      rcases serve_ok r _ _ _ hv h.server with ⟨hok, hne⟩
      exact ⟨h.client, hok, fun hstarved => hne hstarved.1⟩
  | deliverUp i d v hv =>
      rcases serve_ok r _ _ _ hv h.server with ⟨hok, hne⟩
      exact ⟨h.client, hok, fun hstarved => hne hstarved.1⟩
  | deliverDown i d s hs =>
      refine ⟨downInv_step c _ _ _ hs h.client, h.server, ?_⟩
      rintro ⟨hserver, hup, -, hfailed⟩
      rcases hello_or_later c _ _ _ hs hfailed with hlater | he
      · exact h.fed ⟨hserver, hup, hlater⟩
      · cases he
  | loseUp i hi =>
      refine ⟨h.client, h.server, ?_⟩
      rintro ⟨hserver, hup, -, -⟩
      exact hfed ⟨hserver, eraseIdx_eq_nil _ i hi hup⟩
  | duplicateUp i d =>
      refine ⟨h.client, h.server, ?_⟩
      rintro ⟨-, hup, -, -⟩
      exact List.cons_ne_nil _ _ (List.append_eq_nil_iff.mp hup).2
  -- What is on its way to the client does not matter to the server.
  | loseDown i => exact ⟨h.client, h.server, h.fed⟩
  | duplicateDown i d => exact ⟨h.client, h.server, h.fed⟩

/-- A waiting server takes whatever is on its way. -/
theorem downLink_deliver (b : DownLink F) (hserver : b.server = .hello) (hup : b.up ≠ []) :
    ∃ b', DownLink.step c r carry b (.deliverUp 0) = some b' := by
  cases hlist : b.up with
  | nil => exact absurd hlist hup
  | cons d ds =>
      refine ⟨{ b with server := .sending r.init, up := ds }, ?_⟩
      simp only [DownLink.step, hlist, List.getElem?_cons_zero, hserver, serveStep,
        List.eraseIdx_cons_zero]

end Down

/-- Downloads whose server is fed are never stuck. -/
theorem udpDown_never_stuck (F : Type) [JitterFilter F] (opts : BenchOptions) (plan : Plan)
    (sock : TransportUdpSocket) (udpMax serverMax : UdpMax) (carry : Bytes → Bytes)
    (es : List (ExchangeEvent DownLinkEvent)) (s : Exchange (DownLink F) TestReport)
    (hfed : Machine.Meets (udpDown F opts plan sock udpMax serverMax carry).advance (Body.OnJob DownFed)
      (udpDown F opts plan sock udpMax serverMax carry).start es)
    (hrun : Machine.runFrom (udpDown F opts plan sock udpMax serverMax carry).advance
      (udpDown F opts plan sock udpMax serverMax carry).start es = some s) :
    ¬ (udpDown F opts plan sock udpMax serverMax carry).Stuck s := by
  refine never_stuck (udpDown F opts plan sock udpMax serverMax carry)
    (DownLinkInv (Client.runUdpDown sock udpMax opts.duration opts.udpSize)
      (Server.runUdpDown serverMax (opts.request plan)))
    DownFed ?_ (downLinkInv_step _ _ carry) ?_ ?_ ?_ es s hfed hrun
  · refine ⟨downInv_init _, ?_, ?_⟩
    · intro s hs
      cases hs
    · rintro ⟨-, -, hhello, -⟩
      exact hhello rfl
  · -- A client that has left its loop stays out of it.
    intro b e b' hstep hdone
    simp only [udpDown] at hstep hdone ⊢
    -- Neither its own events nor a delivery move a stopped client.
    have hfinal : ∀ e, (Client.runUdpDown sock udpMax opts.duration opts.udpSize).step b.client e = none := by
      intro e
      split at hdone
      · rename_i cause hpc
        exact downReceiver_stopped_final _ b.client e cause hpc
      · cases hdone
    cases downLinkMove_of_step _ _ carry b e b' hstep with
    | client e s hs =>
        rw [hfinal e] at hs
        cases hs
    | deliverDown i d s hs =>
        rw [hfinal] at hs
        cases hs
    | _ => exact hdone
  · intro b h
    rcases downReceiver_enabled _ b.client h.client with ⟨cause, hpc⟩ | hpc | ⟨e, s', hd, he, hs'⟩
    · exact Or.inl (by simp only [udpDown, hpc])
    · exact Or.inr (Or.inl (decide_eq_true hpc))
    · refine Or.inr (Or.inr ⟨.client e, { b with
        client := s'
        up := b.up ++ if e = .accepted then
          [(Client.runUdpDown sock udpMax opts.duration opts.udpSize).hello] else [] },
        decide_eq_true he, ?_⟩)
      simp only [udpDown, DownLink.step, hd, Bool.false_eq_true, if_false, hs']
  · intro b h hdone
    cases hserver : b.server with
    | hello =>
        -- The one wait without a deadline: the hello is on its way, or the server starves.
        have hup : b.up ≠ [] := by
          intro hnil
          refine h.fed ⟨hserver, hnil, ?_, ?_, ?_⟩ <;> intro hpc <;>
            simp only [udpDown, hpc, Bool.false_eq_true] at hdone
        rcases downLink_deliver (Client.runUdpDown sock udpMax opts.duration opts.udpSize)
          (Server.runUdpDown serverMax (opts.request plan)) carry b hserver hup with ⟨b', hb'⟩
        exact Or.inr (Or.inr ⟨.deliverUp 0, b', rfl, hb'⟩)
    | failed => exact Or.inr (Or.inl (by simp only [udpDown, hserver, ServeState.isFailed]))
    | sending s =>
        rcases sender_enabled _ s (h.server s hserver) with hpc | hpc | ⟨e, s', hs'⟩
        · exact Or.inl (by simp only [udpDown, hserver, ServeState.done, hpc, decide_true])
        · refine Or.inr (Or.inl ?_)
          simp only [udpDown, hserver, ServeState.isFailed]
          exact decide_eq_true hpc
        · refine Or.inr (Or.inr ⟨.server (.send e), { b with
            server := .sending s', down := b.down ++ Sender.emits s e }, rfl, ?_⟩)
          simp only [udpDown, DownLink.step, hserver, serveStep, hs', ServeState.emits]

/-! ## Both tests -/

/-- In every run of a UDP test whose steps do not starve the server, no state
    is stuck before the reports have been exchanged. -/
theorem udp_never_stuck (F : Type) [JitterFilter F] (opts : BenchOptions) (plan : Plan)
    (sock : TransportUdpSocket) (udpMax serverMax : UdpMax) :
    (∀ (es : List (ExchangeEvent UpLinkEvent)) (s : Exchange (UpLink F) TestReport),
      Machine.Meets (udpUp F opts plan sock udpMax).advance
        (Body.OnJob (UpFed (Client.runUdpUp sock udpMax opts.duration opts.udpSize plan.bandwidthBps)))
        (udpUp F opts plan sock udpMax).start es →
      Machine.runFrom (udpUp F opts plan sock udpMax).advance (udpUp F opts plan sock udpMax).start es = some s →
      ¬ (udpUp F opts plan sock udpMax).Stuck s) ∧
    (∀ (carry : Bytes → Bytes)
      (es : List (ExchangeEvent DownLinkEvent)) (s : Exchange (DownLink F) TestReport),
      Machine.Meets (udpDown F opts plan sock udpMax serverMax carry).advance (Body.OnJob DownFed)
        (udpDown F opts plan sock udpMax serverMax carry).start es →
      Machine.runFrom (udpDown F opts plan sock udpMax serverMax carry).advance
        (udpDown F opts plan sock udpMax serverMax carry).start es = some s →
      ¬ (udpDown F opts plan sock udpMax serverMax carry).Stuck s) :=
  ⟨udpUp_never_stuck F opts plan sock udpMax,
    udpDown_never_stuck F opts plan sock udpMax serverMax⟩

/-- A download whose hello is lost once, but not its copy. -/
theorem udp_never_stuck_second_copy :
    ∃ s, Machine.runFrom
        (udpDown Float ⟨.udp, .down, 1000000, [8000000], 16, 16⟩ ⟨kindUdpDown, 8000000, ""⟩ .direct
          ipv4Max ipv4Max id).advance
        (udpDown Float ⟨.udp, .down, 1000000, [8000000], 16, 16⟩ ⟨kindUdpDown, 8000000, ""⟩ .direct
          ipv4Max ipv4Max id).start
        [.job (.client .accepted), .job (.duplicateUp 0), .job (.loseUp 1), .job (.deliverUp 0)]
        = some s ∧
      ¬ (udpDown Float ⟨.udp, .down, 1000000, [8000000], 16, 16⟩ ⟨kindUdpDown, 8000000, ""⟩
          .direct ipv4Max ipv4Max id).Stuck s := by
  refine ⟨_, rfl, ?_⟩
  refine (udp_never_stuck Float ⟨.udp, .down, 1000000, [8000000], 16, 16⟩
    ⟨kindUdpDown, 8000000, ""⟩ .direct ipv4Max ipv4Max).2 id
    [.job (.client .accepted), .job (.duplicateUp 0), .job (.loseUp 1), .job (.deliverUp 0)] _ ?_ rfl
  -- Only the loss has to be checked, and there are two copies when it happens.
  refine ⟨trivial, fun s hs => ?_⟩
  cases hs
  refine ⟨trivial, fun s hs => ?_⟩
  cases hs
  refine ⟨?_, fun s hs => ?_⟩
  · rintro ⟨-, hlen⟩
    exact absurd hlen (by decide)
  · cases hs
    exact ⟨trivial, fun _ _ => trivial⟩

/-- A starved server and a client that waits for its report are stuck. -/
theorem down_starved_stuck (F : Type) [JitterFilter F] (opts : BenchOptions) (plan : Plan)
    (sock : TransportUdpSocket) (udpMax serverMax : UdpMax) (carry : Bytes → Bytes)
    (client : DownState F)
    (cause : StopCause) (hpc : client.pc = .stopped cause) (down : List Bytes) (own : TestReport) :
    (udpDown F opts plan sock udpMax serverMax carry).Stuck
      { body := { client := client, server := .hello, up := [], down := down }
        client := .reading own, server := .running, toClient := [], toServer := [] } := by
  have hfinal := fun e => downReceiver_stopped_final
    (Client.runUdpDown sock udpMax opts.duration opts.udpSize) client e cause hpc
  refine ⟨?_, ?_, ?_⟩
  -- The client is stopped, the server waits, and nothing is on its way to it.
  · intro e hmove
    cases e with
    | job e =>
        cases e with
        | client e =>
            simp only [Body.advance, udpDown, DownLink.step, hfinal e]
            split
            · rename_i heq
              split at heq <;> cases heq
            · rfl
        | server e =>
            cases e with
            | datagram d => rfl
            | error => cases hmove
            | send e => rfl
        | deliverUp i => rfl
        | deliverDown i =>
            simp only [Body.advance, udpDown, DownLink.step, hfinal]
            split
            · rename_i heq
              split at heq <;> cases heq
            · rfl
        | loseUp i => cases hmove
        | loseDown i => cases hmove
        | duplicateUp i => cases hmove
        | duplicateDown i => cases hmove
    | _ => rfl
  · rintro ⟨h, -⟩
    cases h
  · intro h
    cases h

/-- A download whose hello is lost gets stuck. -/
theorem udp_hello_lost_stuck :
    ∃ es s, Machine.runFrom
        (udpDown Float ⟨.udp, .down, 1000000, [8000000], 16, 16⟩ ⟨kindUdpDown, 8000000, ""⟩ .direct
          ipv4Max ipv4Max id).advance
        (udpDown Float ⟨.udp, .down, 1000000, [8000000], 16, 16⟩ ⟨kindUdpDown, 8000000, ""⟩ .direct
          ipv4Max ipv4Max id).start es = some s ∧
      (udpDown Float ⟨.udp, .down, 1000000, [8000000], 16, 16⟩ ⟨kindUdpDown, 8000000, ""⟩ .direct
        ipv4Max ipv4Max id).Stuck s :=
  ⟨[.job (.client .accepted), .job (.loseUp 0), .job (.client (.reading 0)),
    .job (.client (.expired clockMax)), .clientEnds 0], _, rfl,
    down_starved_stuck Float _ _ _ _ _ _ _ .deadline rfl _ _⟩

end ProxyPen
