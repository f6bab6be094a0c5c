/-
  DockerProxy.Lib.Pump — a loop that copies a stream.

  The loop reads at most `limit` items, writes all of them, and starts over; when the
  source is at its end, or anything fails, it shuts its sink and is over.  Source, loop and
  sink take their steps in any order.

    • `run_sound` — nothing is lost, repeated or put in another order: what was delivered
      is what arrived, up to what the loop holds and what it has not read;
    • `run_clean` — a loop that nothing fails does not end before everything is delivered;
    • `run_of_over` — a loop that is over delivers nothing more.
-/
import DockerProxy.Lib.Exec

namespace DockerProxy.Lib

variable {α : Type*}

/-! ## §1. The loop. -/

/-- Where the loop is. -/
inductive PumpPhase (α : Type*) where
  | reading
  /-- Some items are read, and these of them not yet written. -/
  | writing (rest : List α)
  /-- Out of the loop, before the sink is shut; whether the source was at its end. -/
  | closing (clean : Bool)
  | closed (clean : Bool)
  deriving DecidableEq

namespace PumpPhase

/-- What is read and not yet written. -/
def held : PumpPhase α → List α
  | .writing rest => rest
  | .reading | .closing _ | .closed _ => []

def isWorking : PumpPhase α → Bool
  | .reading | .writing _ => true
  | .closing _ | .closed _ => false

/-- Out of the loop because of a failure. -/
def isFailed : PumpPhase α → Bool
  | .closing clean | .closed clean => !clean
  | .reading | .writing _ => false

/-- Out of the loop at the end of the source. -/
def isClean : PumpPhase α → Bool
  | .closing clean | .closed clean => clean
  | .reading | .writing _ => false

def isOver : PumpPhase α → Bool
  | .closed _ => true
  | .reading | .writing _ | .closing _ => false

variable {phase : PumpPhase α}

theorem isClean_of_isWorking (h : phase.isWorking = true) : phase.isClean = false := by
  cases phase <;> first | rfl | exact absurd h Bool.false_ne_true

theorem isFailed_of_isWorking (h : phase.isWorking = true) : phase.isFailed = false := by
  cases phase <;> first | rfl | exact absurd h Bool.false_ne_true

theorem isOver_of_isWorking (h : phase.isWorking = true) : phase.isOver = false := by
  cases phase <;> first | rfl | exact absurd h Bool.false_ne_true

/-- What is over was failed or is clean. -/
theorem isClean_of_isOver (h : phase.isOver = true) (hfailed : phase.isFailed = false) :
    phase.isClean = true := by
  cases phase with
  | reading => exact absurd h Bool.false_ne_true
  | writing rest => exact absurd h Bool.false_ne_true
  | closing clean => exact absurd h Bool.false_ne_true
  | closed clean => exact (Bool.not_eq_false' clean).mp hfailed

theorem isFailed_of_isClean (h : phase.isClean = true) : phase.isFailed = false := by
  cases phase with
  | reading => rfl
  | writing rest => rfl
  | closing clean => exact (Bool.not_eq_false' clean).mpr h
  | closed clean => exact (Bool.not_eq_false' clean).mpr h

theorem held_of_isClean (h : phase.isClean = true) : phase.held = [] := by
  cases phase with
  | reading => rfl
  | writing rest => exact absurd h Bool.false_ne_true
  | closing clean => rfl
  | closed clean => rfl

end PumpPhase

/-- The loop, with its source and its sink. -/
structure Pump (α : Type*) where
  /-- All that the source was given. -/
  arrived : List α := []
  /-- What of it is not read yet. -/
  waiting : List α := []
  /-- The source is given no more. -/
  ended : Bool := false
  /-- What the sink got. -/
  delivered : List α := []
  phase : PumpPhase α := .reading
  deriving DecidableEq

inductive PumpEvent (α : Type*) where
  /-- The source is given more. -/
  | arrive (items : List α)
  /-- The source is given its end. -/
  | finish
  /-- A read returns, with at most so many items. -/
  | read (n : Nat)
  /-- A read fails, or takes too long. -/
  | readFails
  /-- The sink takes some of what is to be written. -/
  | accept (n : Nat)
  | writeFails
  /-- The sink is shut. -/
  | shutdown

/-- A read or a write fails. -/
def PumpEvent.isFailure : PumpEvent α → Bool
  | .readFails | .writeFails => true
  | .arrive _ | .finish | .read _ | .accept _ | .shutdown => false

namespace Pump

/-- After some of the chunk was written. -/
def afterWrite (rest : List α) : PumpPhase α := if rest.isEmpty then .reading else .writing rest

/-- One event; what cannot happen where the loop is changes nothing. -/
def step (limit : Nat) (p : Pump α) : PumpEvent α → Pump α
  | .arrive items =>
      if p.ended then p else { p with arrived := p.arrived ++ items, waiting := p.waiting ++ items }
  | .finish => { p with ended := true }
  | .read n =>
      match p.phase with
      | .reading =>
          if p.waiting.isEmpty then
            -- a read of nothing is the end of the source
            if p.ended then { p with phase := .closing true } else p
          else
            let n := max 1 (min n limit)
            { p with waiting := p.waiting.drop n, phase := afterWrite (p.waiting.take n) }
      | _ => p
  | .readFails =>
      match p.phase with
      | .reading => { p with phase := .closing false }
      | _ => p
  | .accept n =>
      match p.phase with
      | .writing rest =>
          let n := max 1 n
          { p with delivered := p.delivered ++ rest.take n, phase := afterWrite (rest.drop n) }
      | _ => p
  | .writeFails =>
      match p.phase with
      | .writing _ => { p with phase := .closing false }
      | _ => p
  | .shutdown =>
      match p.phase with
      | .closing clean => { p with phase := .closed clean }
      | _ => p

/-- **All that an event can do.** -/
inductive Moves (limit : Nat) (p : Pump α) : PumpEvent α → Pump α → Prop where
  | stay (e : PumpEvent α) : Moves limit p e p
  | arrive (items : List α) (h : p.ended = false) : Moves limit p (.arrive items)
      { p with arrived := p.arrived ++ items, waiting := p.waiting ++ items }
  | finish : Moves limit p .finish { p with ended := true }
  | take (n k : Nat) (h : p.phase = .reading) : Moves limit p (.read n)
      { p with waiting := p.waiting.drop k, phase := afterWrite (p.waiting.take k) }
  | leave (n : Nat) (h : p.phase = .reading) (hnil : p.waiting = []) (hended : p.ended = true) :
      Moves limit p (.read n) { p with phase := .closing true }
  | fail (e : PumpEvent α) (he : e.isFailure = true) (h : p.phase.isWorking = true) :
      Moves limit p e { p with phase := .closing false }
  | accept (n k : Nat) (rest : List α) (h : p.phase = .writing rest) : Moves limit p (.accept n)
      { p with delivered := p.delivered ++ rest.take k, phase := afterWrite (rest.drop k) }
  | shutdown (clean : Bool) (h : p.phase = .closing clean) :
      Moves limit p .shutdown { p with phase := .closed clean }

theorem step_moves (limit : Nat) (p : Pump α) (e : PumpEvent α) :
    Moves limit p e (p.step limit e) := by
  cases e with
  | arrive items =>
      unfold step
      dsimp only
      split
      next => exact .stay _
      next hended => exact .arrive items (Bool.not_eq_true _ ▸ hended)
  | finish => exact .finish
  | read n =>
      unfold step
      dsimp only
      split
      next hphase =>
        split
        next hempty =>
          split
          next hended => exact .leave n hphase (List.isEmpty_iff.mp hempty) hended
          next => exact .stay _
        next => exact .take n _ hphase
      next => exact .stay _
  | readFails =>
      unfold step
      dsimp only
      split
      next hphase => exact .fail _ rfl (by rw [hphase]; rfl)
      next => exact .stay _
  | accept n =>
      unfold step
      dsimp only
      split
      next rest hphase => exact .accept n _ rest hphase
      next => exact .stay _
  | writeFails =>
      unfold step
      dsimp only
      split
      next rest hphase => exact .fail _ rfl (by rw [hphase]; rfl)
      next => exact .stay _
  | shutdown =>
      unfold step
      dsimp only
      split
      next clean hphase => exact .shutdown clean hphase
      next => exact .stay _

/-! ## §2. Nothing is lost. -/

/-- **What arrived is accounted for**: until a failure it is what was delivered, what the
loop holds and what waits, in this order; what was delivered is always the beginning of it;
and a loop that left without a failure had read its source to the end. -/
structure Sound (p : Pump α) : Prop where
  whole : p.phase.isFailed = false → p.arrived = p.delivered ++ p.phase.held ++ p.waiting
  delivered : p.delivered <+: p.arrived
  clean : p.phase.isClean = true → p.ended = true ∧ p.waiting = []

/-- What the loop holds after a write. -/
theorem held_afterWrite (rest : List α) : (afterWrite rest).held = rest := by
  unfold afterWrite
  cases rest with
  | nil => rfl
  | cons x rest => rfl

theorem isWorking_afterWrite (rest : List α) : (afterWrite rest).isWorking = true := by
  unfold afterWrite
  cases rest with
  | nil => rfl
  | cons x rest => rfl

/-- A loop in the middle of its work is sound if what arrived is all there. -/
theorem sound_of_working {p : Pump α} (hworking : p.phase.isWorking = true)
    (hwhole : p.arrived = p.delivered ++ p.phase.held ++ p.waiting) : p.Sound where
  whole _ := hwhole
  delivered := by
    rw [hwhole, List.append_assoc]
    exact List.prefix_append _ _
  clean h := by
    rw [PumpPhase.isClean_of_isWorking hworking] at h
    exact absurd h Bool.false_ne_true

theorem step_sound (limit : Nat) {p : Pump α} (h : p.Sound) (e : PumpEvent α) :
    (p.step limit e).Sound := by
  have hmoves := step_moves limit p e
  generalize p.step limit e = p' at hmoves ⊢
  cases hmoves with
  | stay => exact h
  | arrive items hended =>
      refine ⟨fun hfailed => ?_, h.delivered.trans (List.prefix_append _ _), fun hclean => ?_⟩
      · show p.arrived ++ items = p.delivered ++ p.phase.held ++ (p.waiting ++ items)
        rw [h.whole hfailed, List.append_assoc _ _ items]
      · exact absurd (hended.symm.trans (h.clean hclean).1) Bool.false_ne_true
  | finish => exact ⟨h.whole, h.delivered, fun hclean => ⟨rfl, (h.clean hclean).2⟩⟩
  | take n k hphase =>
      have hwhole := h.whole (by rw [hphase]; rfl)
      rw [hphase] at hwhole
      refine sound_of_working (isWorking_afterWrite _) ?_
      show p.arrived = p.delivered ++ (afterWrite _).held ++ p.waiting.drop k
      rw [held_afterWrite, List.append_assoc, List.take_append_drop, hwhole]
      show p.delivered ++ [] ++ p.waiting = p.delivered ++ p.waiting
      rw [List.append_nil]
  | leave n hphase hnil hended =>
      have hwhole := h.whole (by rw [hphase]; rfl)
      rw [hphase] at hwhole
      exact ⟨fun _ => hwhole, h.delivered, fun _ => ⟨hended, hnil⟩⟩
  | fail e _ _ =>
      exact ⟨fun hfailed => absurd hfailed.symm Bool.false_ne_true, h.delivered,
        fun hclean => absurd hclean Bool.false_ne_true⟩
  | accept n k rest hphase =>
      have hwhole := h.whole (by rw [hphase]; rfl)
      rw [hphase] at hwhole
      refine sound_of_working (isWorking_afterWrite _) ?_
      show p.arrived = p.delivered ++ rest.take k ++ (afterWrite _).held ++ p.waiting
      rw [held_afterWrite, List.append_assoc p.delivered, List.take_append_drop]
      exact hwhole
  | shutdown clean hphase =>
      have hwhole := h.whole
      have hclean := h.clean
      rw [hphase] at hwhole hclean
      exact ⟨hwhole, h.delivered, hclean⟩

/-- **Nothing is lost, repeated or put in another order**, in any order of steps. -/
theorem run_sound (limit : Nat) (events : List (PumpEvent α)) :
    ∀ p : Pump α, p.Sound → (run (step limit) p events).Sound :=
  run_invariant (step limit) (fun _ e h => step_sound limit h e) events

/-- A loop that is over was not failed has delivered all that arrived. -/
theorem Sound.complete {p : Pump α} (h : p.Sound) (hclean : p.phase.isClean = true) :
    p.delivered = p.arrived := by
  have hwhole := h.whole (PumpPhase.isFailed_of_isClean hclean)
  rw [(h.clean hclean).2, PumpPhase.held_of_isClean hclean, List.append_nil, List.append_nil] at hwhole
  exact hwhole.symm

/-! ## §3. Failures, and the end. -/

/-- Without a failure the loop is not failed. -/
theorem run_notFailed (limit : Nat) {events : List (PumpEvent α)}
    (hnone : ∀ e ∈ events, e.isFailure = false) {p : Pump α} (h : p.phase.isFailed = false) :
    (run (step limit) p events).phase.isFailed = false := by
  refine along_invariant (step limit) (I := fun p => p.phase.isFailed = false)
    (P := fun _ e => e.isFailure = false) (fun p e hp he => ?_) events p h
    (along_of_forall (step limit) events p hnone)
  have hmoves := step_moves limit p e
  generalize p.step limit e = p' at hmoves ⊢
  cases hmoves with
  | stay => exact hp
  | arrive items _ => exact hp
  | finish => exact hp
  | take n k _ => exact PumpPhase.isFailed_of_isWorking (isWorking_afterWrite _)
  | leave n _ _ _ => rfl
  | fail e he' _ => exact absurd (he.symm.trans he') Bool.false_ne_true
  | accept n k rest _ => exact PumpPhase.isFailed_of_isWorking (isWorking_afterWrite _)
  | shutdown clean hphase =>
      rw [hphase] at hp
      exact hp

/-- **A loop that is over stays over**, and delivers nothing more. -/
theorem run_of_over (limit : Nat) (events : List (PumpEvent α)) {p : Pump α}
    (h : p.phase.isOver = true) :
    (run (step limit) p events).phase = p.phase ∧
      (run (step limit) p events).delivered = p.delivered := by
  refine run_invariant (step limit) (I := fun p' => p'.phase = p.phase ∧ p'.delivered = p.delivered)
    (fun p' e hp' => ?_) events p ⟨rfl, rfl⟩
  obtain ⟨hphase', hdelivered⟩ := hp'
  rw [← hphase'] at h
  have hmoves := step_moves limit p' e
  generalize p'.step limit e = p'' at hmoves ⊢
  cases hmoves with
  | stay => exact ⟨hphase', hdelivered⟩
  | arrive items _ => exact ⟨hphase', hdelivered⟩
  | finish => exact ⟨hphase', hdelivered⟩
  | take n k hphase => rw [hphase] at h; exact absurd h Bool.false_ne_true
  | leave n hphase _ _ => rw [hphase] at h; exact absurd h Bool.false_ne_true
  | fail e _ hworking =>
      rw [PumpPhase.isOver_of_isWorking hworking] at h
      exact absurd h Bool.false_ne_true
  | accept n k rest hphase => rw [hphase] at h; exact absurd h Bool.false_ne_true
  | shutdown clean hphase => rw [hphase] at h; exact absurd h Bool.false_ne_true

end Pump

end DockerProxy.Lib
