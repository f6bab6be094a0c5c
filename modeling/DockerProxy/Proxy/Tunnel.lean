/-
  DockerProxy.Proxy.Tunnel — what follows a `101`: the task of `handle_upgrade`.

  The task waits for the two upgraded connections, copies bytes both ways in two loops
  that run at the same time, and drops the connection to Docker when both are over.

  `tunnel_run`: in every order of steps each side gets what the other one sent, from its
  beginning and in its order, whole if nothing failed; what happens to one direction is
  nothing to the other; and the connection is dropped when both are over, not before.
-/
import DockerProxy.Lib.Pump
import DockerProxy.Proxy.Outcomes

namespace DockerProxy.Proxy

open DockerProxy.Lib DockerProxy.Path DockerProxy.Limiter DockerProxy.Rules

/-! ## §1. The task. -/

/-- `UPGRADE_COPY_BUF_BYTES`. -/
def upgradeCopyBufBytes : Nat := 32 * 1024

/-- The task waits for the client's connection, then for Docker's. -/
def resolveUpgrades (client docker : Attempt Unit) : Attempt Unit :=
  match client with
  | .ok () => docker
  | .failed => .failed
  | .timedOut => .timedOut

/-- A connection that does not come is counted, as an error of Docker's. -/
def ProxyState.countResolve (st : ProxyState) : Attempt Unit → ProxyState
  | .ok () => st
  | .failed => st.upstreamError
  | .timedOut => st.upstreamTimeout

/-- The task's two loops. -/
structure Tunnel where
  /-- From the client to Docker. -/
  c2d : Pump UInt8 := {}
  /-- From Docker to the client. -/
  d2c : Pump UInt8 := {}
  /-- `conn_join.abort()` was called. -/
  aborted : Bool := false

/-- A step of one of the directions, or of the task that joins them. -/
inductive TunnelEvent where
  | c2d (e : PumpEvent UInt8)
  | d2c (e : PumpEvent UInt8)
  | join

namespace Tunnel

def step (t : Tunnel) : TunnelEvent → Tunnel
  | .c2d e => { t with c2d := t.c2d.step upgradeCopyBufBytes e }
  | .d2c e => { t with d2c := t.d2c.step upgradeCopyBufBytes e }
  | .join => if t.c2d.phase.isOver && t.d2c.phase.isOver then { t with aborted := true } else t

/-- The events of one direction. -/
def clientEvent : TunnelEvent → Option (PumpEvent UInt8)
  | .c2d e => some e
  | .d2c _ | .join => none

def dockerEvent : TunnelEvent → Option (PumpEvent UInt8)
  | .d2c e => some e
  | .c2d _ | .join => none

/-! ## §2. Runs. -/

/-- What the client sends, Docker gets; what Docker sends has no part in it. -/
theorem c2d_run (events : List TunnelEvent) (t : Tunnel) :
    (run step t events).c2d =
      run (Pump.step upgradeCopyBufBytes) t.c2d (events.filterMap clientEvent) := by
  refine run_component step (fun t => t.c2d) clientEvent (fun t e e' he => ?_) (fun t e he => ?_) events t
  · cases e with
    | c2d e => rw [← Option.some.inj he]; rfl
    | d2c e => exact absurd he (by simp [clientEvent])
    | join => exact absurd he (by simp [clientEvent])
  · cases e with
    | c2d e => exact absurd he (by simp [clientEvent])
    | d2c e => rfl
    | join =>
        unfold step
        dsimp only
        split <;> rfl

/-- The other direction is the same, with the ends exchanged. -/
theorem d2c_run (events : List TunnelEvent) (t : Tunnel) :
    (run step t events).d2c =
      run (Pump.step upgradeCopyBufBytes) t.d2c (events.filterMap dockerEvent) := by
  refine run_component step (fun t => t.d2c) dockerEvent (fun t e e' he => ?_) (fun t e he => ?_) events t
  · cases e with
    | d2c e => rw [← Option.some.inj he]; rfl
    | c2d e => exact absurd he (by simp [dockerEvent])
    | join => exact absurd he (by simp [dockerEvent])
  · cases e with
    | d2c e => exact absurd he (by simp [dockerEvent])
    | c2d e => rfl
    | join =>
        unfold step
        dsimp only
        split <;> rfl

/-- The connection is dropped only when both directions are over. -/
theorem aborted_run (events : List TunnelEvent) :
    (run step {} events).aborted = true →
      (run step {} events).c2d.phase.isOver = true ∧ (run step {} events).d2c.phase.isOver = true := by
  refine run_invariant step (I := fun t => t.aborted = true →
    t.c2d.phase.isOver = true ∧ t.d2c.phase.isOver = true) (fun t e h => ?_) events {}
    (fun h => absurd h Bool.false_ne_true)
  intro haborted
  have hstays : ∀ (p : Pump UInt8) e, p.phase.isOver = true →
      (p.step upgradeCopyBufBytes e).phase.isOver = true := by
    intro p e hover
    have hphase := (Pump.run_of_over upgradeCopyBufBytes [e] hover).1
    rw [run_cons, run_nil] at hphase
    rw [hphase]
    exact hover
  cases e with
  | c2d e => exact ⟨hstays _ e (h haborted).1, (h haborted).2⟩
  | d2c e => exact ⟨(h haborted).1, hstays _ e (h haborted).2⟩
  | join =>
      unfold step at haborted ⊢
      dsimp only at haborted ⊢
      split
      next hboth => exact (Bool.and_eq_true _ _).mp hboth
      next hnot =>
        rw [if_neg hnot] at haborted
        exact h haborted

/-- **One direction of a tunnel**: what it delivered is the beginning of what arrived, all
of it if the loop is over and nothing failed; and none of the other direction's steps made
a difference. -/
structure Copies (own : List (PumpEvent UInt8)) (p : Pump UInt8) : Prop where
  beginning : p.delivered <+: p.arrived
  whole : (∀ e ∈ own, e.isFailure = false) → p.phase.isOver = true →
    p.ended = true ∧ p.delivered = p.arrived
  alone : p = run (Pump.step upgradeCopyBufBytes) {} own

theorem copies_run (own : List (PumpEvent UInt8)) :
    Copies own (run (Pump.step upgradeCopyBufBytes) {} own) := by
  have hsound : (run (Pump.step upgradeCopyBufBytes) {} own).Sound :=
    Pump.run_sound _ own {} ⟨fun _ => rfl, List.prefix_rfl, fun h => absurd h Bool.false_ne_true⟩
  refine ⟨hsound.delivered, fun hnone hover => ?_, rfl⟩
  have hclean := PumpPhase.isClean_of_isOver hover
    (Pump.run_notFailed upgradeCopyBufBytes hnone (p := {}) rfl)
  exact ⟨(hsound.clean hclean).1, hsound.complete hclean⟩

end Tunnel

open Tunnel

/-- **Copying, in every order of steps.**  Each side gets what the other one sent, from its
beginning and in its order, and all of it before the end if no read or write failed; how a
direction fares depends on its own steps only; and Docker's connection is dropped only when
both directions are over. -/
theorem tunnel_run (events : List TunnelEvent) :
    Copies (events.filterMap clientEvent) (run step {} events).c2d ∧
      Copies (events.filterMap dockerEvent) (run step {} events).d2c ∧
      ((run step {} events).aborted = true →
        (run step {} events).c2d.phase.isOver = true ∧
          (run step {} events).d2c.phase.isOver = true) := by
  refine ⟨?_, ?_, aborted_run events⟩
  · rw [c2d_run]
    exact copies_run _
  · rw [d2c_run]
    exact copies_run _

/-! ## §3. Who gets a task. -/

/-- Docker answers the request with a `101`, and the task is started. -/
def switches (deps : Externals) (st : ProxyState) (docker : Docker) (call : Call) : Bool :=
  match (exchange deps st docker call call.upgradeHeaders []).answer with
  | .ok res => res.status == 101
  | .error _ => false

end DockerProxy.Proxy
