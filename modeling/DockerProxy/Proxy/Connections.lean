/-
  DockerProxy.Proxy.Connections — the accept loop of `main`, and how many
  clients it serves at once.

  A connection's task holds a permit of the semaphore that its listener was
  started with.  It drops the permit when the connection's future completes; for
  a connection upgraded to a raw stream that is when the stream is handed over,
  and the copy task that goes on serving the client holds none.  A reload starts
  the listener again, with a new semaphore.

    • `served_le` — over every run: at most `MAX_CONCURRENT_CONNS` clients
      besides those that no permit of the current semaphore counts;
    • `served_le_of_counted` — at most that many when every connection is
      accepted while all clients are counted;
    • `served_streams`, `served_reloads` — upgrades alone, or reloads alone,
      take the number beyond every bound.

  What the requests are and how long anything takes is left out.
-/
import DockerProxy.Lib.Exec
import Mathlib.Data.List.Perm.Basic

namespace DockerProxy.Proxy

open DockerProxy.Lib

/-! ## §1. The accept loop. -/

/-- `MAX_CONCURRENT_CONNS`. -/
def maxConcurrentConns : Nat := 1024

inductive ConnectionPhase where
  /-- The connection's task runs, with its permit. -/
  | serving
  /-- Docker switched protocols: the copy task is spawned, and the connection's
  task still has to hand the stream over. -/
  | upgrading
  /-- The connection's task is over; the copy task owns the stream. -/
  | streaming
  deriving DecidableEq

/-- A client that is being served. -/
structure Connection where
  /-- The start of the listener that accepted it. -/
  listener : Nat
  phase : ConnectionPhase
  deriving DecidableEq

/-- The connection's task holds its permit. -/
def Connection.holdsPermit (c : Connection) : Bool := c.phase != .streaming

structure Server where
  /-- How often the listener was started again. -/
  listener : Nat
  /-- The permits left in its semaphore, `conn_sem`. -/
  permits : Nat
  /-- The clients that are being served. -/
  connections : List Connection
  deriving DecidableEq

/-- The server when its listener is first bound. -/
def Server.start : Server := ⟨0, maxConcurrentConns, []⟩

/-- What happens to the server; a connection is named by its place in the table. -/
inductive ServerEvent where
  /-- A client connects. -/
  | accept
  /-- The future of a connection completes, and nothing was handed over. -/
  | finish (i : Nat)
  /-- `handle_upgrade` gets a `101` from Docker. -/
  | upgrade (i : Nat)
  /-- The future of an upgraded connection completes with the hand-over. -/
  | handOver (i : Nat)
  /-- The copy task of an upgraded connection ends. -/
  | close (i : Nat)
  /-- The listener is started again. -/
  | reload
  deriving DecidableEq

namespace Server

/-- A permit goes back to its semaphore; that of an earlier start is lost with it. -/
def release (s : Server) (c : Connection) : Server :=
  if c.listener = s.listener then { s with permits := s.permits + 1 } else s

/-- The client is gone. -/
def remove (s : Server) (i : Nat) : Server := { s with connections := s.connections.eraseIdx i }

/-- The connection goes on in another phase. -/
def setPhase (s : Server) (i : Nat) (c : Connection) (phase : ConnectionPhase) : Server :=
  { s with connections := s.connections.set i { c with phase := phase } }

/-- One event; what cannot happen to a connection changes nothing. -/
def step (s : Server) : ServerEvent → Server
  | .accept =>
      -- `try_acquire_owned`; without a permit the stream is dropped
      if s.permits = 0 then s
      else
        { s with
          permits := s.permits - 1
          connections := s.connections ++ [⟨s.listener, .serving⟩] }
  | .finish i =>
      match s.connections[i]? with
      | some c => if c.holdsPermit then (s.release c).remove i else s
      | none => s
  | .upgrade i =>
      match s.connections[i]? with
      | some c => if c.phase = .serving then s.setPhase i c .upgrading else s
      | none => s
  | .handOver i =>
      match s.connections[i]? with
      | some c => if c.phase = .upgrading then (s.release c).setPhase i c .streaming else s
      | none => s
  | .close i =>
      match s.connections[i]? with
      | some c => if c.phase = .streaming then s.remove i else s
      | none => s
  | .reload => { s with listener := s.listener + 1, permits := maxConcurrentConns }

/-- The clients served at once. -/
def served (s : Server) : Nat := s.connections.length

end Server

/-- The connection holds a permit of the semaphore of this start. -/
def Connection.countsFor (listener : Nat) (c : Connection) : Bool :=
  c.listener == listener && c.holdsPermit

namespace Server

/-- The clients that hold a permit of the current semaphore. -/
def counted (s : Server) : Nat := s.connections.countP (Connection.countsFor s.listener)

/-- The clients that hold none. -/
def uncounted (s : Server) : Nat :=
  s.connections.countP fun c => !Connection.countsFor s.listener c

theorem served_eq (s : Server) : s.served = s.counted + s.uncounted := by
  have h := List.length_eq_countP_add_countP (Connection.countsFor s.listener)
    (l := s.connections)
  simpa [served, counted, uncounted, Bool.decide_eq_false] using h

/-! ## §2. What every step keeps. -/

section Table

variable {p : Connection → Bool} {table : List Connection} {i : Nat} {c : Connection}

/-- An entry leaves the table. -/
theorem countP_eraseIdx (h : table[i]? = some c) :
    table.countP p = (table.eraseIdx i).countP p + if p c then 1 else 0 := by
  obtain ⟨hi, hc⟩ := List.getElem?_eq_some_iff.mp h
  have hperm := List.getElem_cons_eraseIdx_perm hi
  rw [← hperm.countP_eq, List.countP_cons, hc]

/-- An entry is replaced. -/
theorem countP_set (h : table[i]? = some c) (c' : Connection) :
    (table.set i c').countP p + (if p c then 1 else 0) =
      table.countP p + if p c' then 1 else 0 := by
  obtain ⟨hi, -⟩ := List.getElem?_eq_some_iff.mp h
  have hperm := List.set_perm_cons_eraseIdx hi c'
  have herase := countP_eraseIdx (p := p) h
  rw [hperm.countP_eq, List.countP_cons]
  omega

end Table

/-- The permit that a task gives back when it ends. -/
theorem release_eq (s : Server) {c : Connection} (hholds : c.holdsPermit = true) :
    s.release c =
      { s with permits := s.permits + if Connection.countsFor s.listener c then 1 else 0 } := by
  unfold release Connection.countsFor
  rw [hholds, Bool.and_true]
  by_cases heq : c.listener = s.listener
  · rw [if_pos heq, if_pos (beq_iff_eq.mpr heq)]
  · rw [if_neg heq, if_neg (by simpa using heq)]
    rfl

/-- **All that an event can do**: nothing; accept a client; take an entry off the
table; change the phase of an entry, which moves a permit only when a stream is
handed over; or start the listener again. -/
theorem step_cases (s : Server) (e : ServerEvent) :
    s.step e = s ∨
    (e = .accept ∧ 0 < s.permits ∧ s.step e =
      { s with
        permits := s.permits - 1, connections := s.connections ++ [⟨s.listener, .serving⟩] }) ∨
    (∃ i c, s.connections[i]? = some c ∧ s.step e =
      { s with
        permits := s.permits + if Connection.countsFor s.listener c then 1 else 0
        connections := s.connections.eraseIdx i }) ∨
    (∃ i c c' permits, s.connections[i]? = some c ∧ c'.listener = c.listener ∧
      (permits + if Connection.countsFor s.listener c' then 1 else 0) =
        (s.permits + if Connection.countsFor s.listener c then 1 else 0) ∧
      s.step e = { s with permits := permits, connections := s.connections.set i c' }) ∨
    (e = .reload ∧ s.step e =
      { s with listener := s.listener + 1, permits := maxConcurrentConns }) := by
  cases e with
  | accept =>
      by_cases hzero : s.permits = 0
      · exact Or.inl (if_pos hzero)
      · exact Or.inr (Or.inl ⟨rfl, by omega, if_neg hzero⟩)
  | finish i =>
      simp only [step]
      cases hc : s.connections[i]? with
      | none => exact Or.inl rfl
      | some c =>
          by_cases hholds : c.holdsPermit = true
          · refine Or.inr (Or.inr (Or.inl ⟨i, c, hc, ?_⟩))
            simp only [if_pos hholds, release_eq s hholds, remove]
          · exact Or.inl (if_neg hholds)
  | upgrade i =>
      simp only [step]
      cases hc : s.connections[i]? with
      | none => exact Or.inl rfl
      | some c =>
          by_cases hphase : c.phase = .serving
          · refine Or.inr (Or.inr (Or.inr (Or.inl
              ⟨i, c, { c with phase := .upgrading }, s.permits, hc, rfl, ?_, if_pos hphase⟩)))
            -- the permit stays with the task
            simp [Connection.countsFor, Connection.holdsPermit, hphase]
          · exact Or.inl (if_neg hphase)
  | handOver i =>
      simp only [step]
      cases hc : s.connections[i]? with
      | none => exact Or.inl rfl
      | some c =>
          by_cases hphase : c.phase = .upgrading
          · have hholds : c.holdsPermit = true := by rw [Connection.holdsPermit, hphase]; rfl
            refine Or.inr (Or.inr (Or.inr (Or.inl
              ⟨i, c, { c with phase := .streaming },
                s.permits + (if Connection.countsFor s.listener c then 1 else 0), hc, rfl, ?_, ?_⟩)))
            · simp [Connection.countsFor, Connection.holdsPermit]
            · simp only [if_pos hphase, release_eq s hholds, setPhase]
          · exact Or.inl (if_neg hphase)
  | close i =>
      simp only [step]
      cases hc : s.connections[i]? with
      | none => exact Or.inl rfl
      | some c =>
          by_cases hphase : c.phase = .streaming
          · refine Or.inr (Or.inr (Or.inl ⟨i, c, hc, ?_⟩))
            -- the copy task holds no permit
            simp only [remove, Connection.countsFor, Connection.holdsPermit, hphase]
            simp
          · exact Or.inl (if_neg hphase)
  | reload => exact Or.inr (Or.inr (Or.inr (Or.inr ⟨rfl, rfl⟩)))

/-- **The invariant of the semaphore**: its permits are left or held, and no
connection is ahead of the listener. -/
structure Inv (s : Server) : Prop where
  permits : s.permits + s.counted = maxConcurrentConns
  listeners : ∀ c ∈ s.connections, c.listener ≤ s.listener

theorem inv_start : Inv start where
  permits := rfl
  listeners := by intro c hc; cases hc

/-- **No step leaks a permit or makes one up.** -/
theorem inv_step (s : Server) (e : ServerEvent) (hs : Inv s) : Inv (s.step e) := by
  obtain ⟨hpermits, hlisteners⟩ := hs
  unfold counted at hpermits
  obtain hstep | ⟨-, hpos, hstep⟩ | ⟨i, c, hc, hstep⟩ |
    ⟨i, c, c', permits, hc, hlistener, hmoved, hstep⟩ | ⟨-, hstep⟩ := step_cases s e
  · rw [hstep]
    exact ⟨hpermits, hlisteners⟩
  · rw [hstep]
    refine ⟨?_, ?_⟩
    · have hnew : Connection.countsFor s.listener ⟨s.listener, .serving⟩ = true := by
        simp [Connection.countsFor, Connection.holdsPermit]
      show s.permits - 1 + List.countP (Connection.countsFor s.listener) (_ ++ [_]) = _
      rw [List.countP_append, List.countP_singleton, if_pos hnew]
      omega
    · intro c hc
      cases List.mem_append.mp hc with
      | inl hmem => exact hlisteners c hmem
      | inr hmem => exact Nat.le_of_eq (congrArg Connection.listener (List.mem_singleton.mp hmem))
  · rw [hstep]
    have hcount := countP_eraseIdx (p := Connection.countsFor s.listener) hc
    refine ⟨?_, fun c' hc' => hlisteners c' (List.mem_of_mem_eraseIdx hc')⟩
    show s.permits + _ + List.countP (Connection.countsFor s.listener) (s.connections.eraseIdx i) = _
    omega
  · rw [hstep]
    have hcount := countP_set (p := Connection.countsFor s.listener) hc c'
    refine ⟨?_, ?_⟩
    · show permits + List.countP (Connection.countsFor s.listener) (s.connections.set i c') = _
      omega
    · intro d hd
      cases List.mem_or_eq_of_mem_set hd with
      | inl hmem => exact hlisteners d hmem
      | inr heq =>
          rw [heq]
          show c'.listener ≤ _
          rw [hlistener]
          exact hlisteners c (List.mem_of_getElem? hc)
  · rw [hstep]
    -- nobody holds a permit of the new semaphore yet
    have hnone : s.connections.countP (Connection.countsFor (s.listener + 1)) = 0 := by
      rw [List.countP_eq_zero]
      intro c hc hcounts
      have hle := hlisteners c hc
      simp only [Connection.countsFor, Bool.and_eq_true, beq_iff_eq] at hcounts
      omega
    refine ⟨?_, fun c hc => Nat.le_succ_of_le (hlisteners c hc)⟩
    show maxConcurrentConns + List.countP _ s.connections = _
    rw [hnone, Nat.add_zero]

/-! ## §3. The bound over whole runs. -/

theorem inv_run (events : List ServerEvent) : Inv (run step start events) :=
  run_invariant step inv_step events start inv_start

/-- **The bound of every run**: the semaphore bounds the clients that hold its
permits, and no others. -/
theorem served_le (events : List ServerEvent) :
    (run step start events).served ≤
      maxConcurrentConns + (run step start events).uncounted := by
  have hinv := (inv_run events).permits
  have heq := served_eq (run step start events)
  omega

/-- The step does not accept a connection past a client that the semaphore does not
count. -/
def CountsAll (s : Server) (e : ServerEvent) : Prop := e = .accept → s.uncounted = 0

instance (s : Server) (e : ServerEvent) : Decidable (CountsAll s e) :=
  inferInstanceAs (Decidable (e = .accept → s.uncounted = 0))

/-- Only an accepted client adds to those served. -/
theorem served_step (s : Server) (e : ServerEvent) :
    (s.step e).served ≤ s.served ∨
      e = .accept ∧ 0 < s.permits ∧ (s.step e).served = s.served + 1 := by
  obtain hstep | ⟨he, hpos, hstep⟩ | ⟨i, c, -, hstep⟩ | ⟨i, c, c', permits, -, -, -, hstep⟩ |
    ⟨-, hstep⟩ := step_cases s e
  · exact Or.inl (Nat.le_of_eq (congrArg served hstep))
  · exact Or.inr ⟨he, hpos, by rw [hstep]; exact List.length_append⟩
  · exact Or.inl (by rw [hstep]; exact List.length_eraseIdx_le _ _)
  · exact Or.inl (by rw [hstep]; exact Nat.le_of_eq List.length_set)
  · have hsame : (s.step e).served = s.served := by
      rw [hstep]
      rfl
    exact Or.inl (Nat.le_of_eq hsame)

/-- **The limit holds in every run that accepts connections while all clients are
counted**: in every state reached, at most `MAX_CONCURRENT_CONNS` are served. -/
theorem served_le_of_counted {events reached : List ServerEvent}
    (hrun : Along step CountsAll start events) (hreached : reached <+: events) :
    (run step start reached).served ≤ maxConcurrentConns := by
  obtain ⟨rest, rfl⟩ := hreached
  have hprefix := ((along_append step CountsAll reached rest start).mp hrun).1
  have hstep : ∀ s e, (Inv s ∧ s.served ≤ maxConcurrentConns) → CountsAll s e →
      (Inv (s.step e) ∧ (s.step e).served ≤ maxConcurrentConns) := by
    intro s e ⟨hinv, hle⟩ hcounts
    refine ⟨inv_step s e hinv, ?_⟩
    cases served_step s e with
    | inl hless => exact Nat.le_trans hless hle
    | inr haccept =>
        obtain ⟨he, hpos, hserved⟩ := haccept
        -- all clients hold permits, and one is left
        have hzero := hcounts he
        have hpermits := hinv.permits
        have heq := served_eq s
        omega
  exact (along_invariant step hstep reached start ⟨inv_start, Nat.zero_le _⟩ hprefix).2

/-! ## §4. Beyond every bound. -/

/-- `n` clients, each upgraded to a raw stream before the next one connects. -/
def streams : Nat → List ServerEvent
  | 0 => []
  | n + 1 => streams n ++ [.accept, .upgrade n, .handOver n]

/-- `n` clients, with a reload after each. -/
def reloads : Nat → List ServerEvent
  | 0 => []
  | n + 1 => reloads n ++ [.accept, .reload]

/-- Upgraded streams hold no permits. -/
theorem run_streams (n : Nat) :
    run step start (streams n) =
      ⟨0, maxConcurrentConns, List.replicate n ⟨0, .streaming⟩⟩ := by
  induction n with
  | zero => rfl
  | succ n ih =>
      have hlast : ∀ c : Connection, (List.replicate n ⟨0, .streaming⟩ ++ [c])[n]? = some c := by
        intro c
        rw [List.getElem?_append_right (by simp)]
        simp
      have hset : ∀ c c' : Connection,
          (List.replicate n (⟨0, .streaming⟩ : Connection) ++ [c]).set n c' =
            List.replicate n ⟨0, .streaming⟩ ++ [c'] := by
        intro c c'
        rw [List.set_append_right _ _ (by simp)]
        simp
      have hpos : maxConcurrentConns ≠ 0 := by decide
      rw [streams, run_append, ih]
      simp only [run_cons, run_nil, step, if_neg hpos, hlast, setPhase, hset, if_true, release]
      rw [List.replicate_succ']
      rfl

/-- A new semaphore counts none of the clients there are. -/
theorem run_reloads (n : Nat) :
    run step start (reloads n) =
      ⟨n, maxConcurrentConns, (List.range n).map fun k => ⟨k, .serving⟩⟩ := by
  induction n with
  | zero => rfl
  | succ n ih =>
      have hpos : maxConcurrentConns ≠ 0 := by decide
      rw [reloads, run_append, ih, List.range_succ, List.map_append]
      simp only [run_cons, run_nil, step, if_neg hpos]
      rfl

/-- **Upgrades alone take the number of clients beyond every bound.** -/
theorem served_streams (n : Nat) : (run step start (streams n)).served = n := by
  rw [run_streams, served, List.length_replicate]

/-- **Reloads alone do so too.** -/
theorem served_reloads (n : Nat) : (run step start (reloads n)).served = n := by
  rw [run_reloads, served, List.length_map, List.length_range]

/-- **1,025 clients at once**, whether they are upgraded or outlive a reload. -/
theorem served_exceeds :
    ¬ (run step start (streams 1025)).served ≤ maxConcurrentConns ∧
      ¬ (run step start (reloads 1025)).served ≤ maxConcurrentConns := by
  rw [served_streams, served_reloads]
  decide

/-- Two clients, one of them upgraded when both have been accepted. -/
theorem served_le_of_counted_pair :
    (run step start [.accept, .accept, .upgrade 0, .handOver 0]).served ≤ maxConcurrentConns :=
  @served_le_of_counted [.accept, .accept, .upgrade 0, .handOver 0, .close 0, .accept]
    [.accept, .accept, .upgrade 0, .handOver 0] (by decide) (by decide)

end Server

end DockerProxy.Proxy
