/-
  DockerProxy.Lib.LineLog — a bounded queue that a writer drains into a file of lines.

  Senders put records into the queue, or drop them when it is full or the writer is gone.
  The writer takes one record after another, encodes it, and appends its line piece by
  piece; a write that fails leaves what it has written.  All of them take their steps in
  any order.

    • `run_kept` — the file is made of the lines of the records taken, in their order, each
      whole or cut off by a failure; what was accepted was taken or waits;
    • `run_whole` — without a failure they are whole;
    • `readLines_terminated` — then the file reads back as these lines;
    • `accepted_sublist`, `accepted_of_room` — what is accepted was sent, and all that is
      sent while there is room.
-/
import DockerProxy.Lib.Exec
import Mathlib.Data.List.Forall2

namespace DockerProxy.Lib

/-! ## §1. Lines. -/

section

variable {β : Type*} (eol : β)

/-- The lines, each with its end. -/
def terminated (lines : List (List β)) : List β := lines.flatMap fun line => line ++ [eol]

/-- The lines of a text; what follows the last end is no line. -/
def readLines [DecidableEq β] : List β → List β → List (List β)
  | _, [] => []
  | line, c :: rest =>
      if c = eol then line :: readLines [] rest else readLines (line ++ [c]) rest

variable {eol}

theorem readLines_append [DecidableEq β] {rest : List β} (line : List β) :
    ∀ before, eol ∉ line →
      readLines eol before (line ++ eol :: rest) = (before ++ line) :: readLines eol [] rest := by
  induction line with
  | nil =>
      intro before _
      show (if eol = eol then before :: readLines eol [] rest else _) = _
      rw [if_pos rfl, List.append_nil]
  | cons c line ih =>
      intro before hline
      have hc : c ≠ eol := fun h => hline (h ▸ List.mem_cons_self)
      have hrest : eol ∉ line := fun h => hline (List.mem_cons_of_mem c h)
      show (if c = eol then _ else readLines eol (before ++ [c]) (line ++ eol :: rest)) = _
      rw [if_neg hc, ih _ hrest, List.append_assoc, List.singleton_append]

/-- **Lines without an end inside read back.** -/
theorem readLines_terminated [DecidableEq β] {lines : List (List β)}
    (hlines : ∀ line ∈ lines, eol ∉ line) : readLines eol [] (terminated eol lines) = lines := by
  induction lines with
  | nil => rfl
  | cons line lines ih =>
      have hrest := ih fun l hl => hlines l (List.mem_cons_of_mem line hl)
      show readLines eol [] ((line ++ [eol]) ++ terminated eol lines) = _
      rw [List.append_assoc, List.singleton_append,
        readLines_append line [] (hlines line List.mem_cons_self), hrest, List.nil_append]

end

/-! ## §2. The writer and its queue. -/

variable {α β : Type*}

/-- Where the writer is. -/
inductive WriterPhase (β : Type*) where
  | opening
  | idle
  /-- In the middle of a line; this is to be appended. -/
  | writing (rest : List β)
  /-- The file could not be opened. -/
  | gone
  deriving DecidableEq

/-- What of the line is to be appended. -/
def WriterPhase.held : WriterPhase β → List β
  | .writing rest => rest
  | .opening | .idle | .gone => []

structure LineLog (α β : Type*) where
  queue : List α := []
  phase : WriterPhase β := .opening
  /-- What the writer has appended to the file. -/
  log : List β := []
  /-- All records that got into the queue. -/
  accepted : List α := []
  /-- All records that the writer took out of it. -/
  taken : List α := []

inductive LineLogEvent (α : Type*) where
  | send (a : α)
  | opened
  | openFails
  | recv
  /-- At most so much is appended. -/
  | append (n : Nat)
  | writeFails

def LineLogEvent.sent : LineLogEvent α → Option α
  | .send a => some a
  | .opened | .openFails | .recv | .append _ | .writeFails => none

def LineLogEvent.isFailure : LineLogEvent α → Bool
  | .openFails | .writeFails => true
  | .send _ | .opened | .recv | .append _ => false

namespace LineLog

/-- A record that is sent now gets into the queue. -/
def accepts (capacity : Nat) (s : LineLog α β) : Bool :=
  match s.phase with
  | .gone => false
  | .opening | .idle | .writing _ => decide (s.queue.length < capacity)

variable (capacity : Nat) (encode : α → Option (List β)) (eol : β)

/-- One event; what cannot happen where the writer is changes nothing. -/
def step (s : LineLog α β) : LineLogEvent α → LineLog α β
  | .send a =>
      if s.accepts capacity then { s with queue := s.queue ++ [a], accepted := s.accepted ++ [a] }
      else s
  | .opened =>
      match s.phase with
      | .opening => { s with phase := .idle }
      | _ => s
  | .openFails =>
      match s.phase with
      -- the receiver is dropped, and what is in the queue with it
      | .opening => { s with phase := .gone, queue := [] }
      | _ => s
  | .recv =>
      match s.phase, s.queue with
      | .idle, a :: queue =>
          match encode a with
          | some line => { s with queue, taken := s.taken ++ [a], phase := .writing (line ++ [eol]) }
          | none => { s with queue, taken := s.taken ++ [a] }
      | _, _ => s
  | .append n =>
      match s.phase with
      | .writing rest =>
          let n := max 1 n
          { s with
            log := s.log ++ rest.take n
            phase := if (rest.drop n).isEmpty then .idle else .writing (rest.drop n) }
      | _ => s
  | .writeFails =>
      match s.phase with
      -- what is appended stays, and the next line follows it
      | .writing _ => { s with phase := .idle }
      | _ => s

/-- **All that an event can do.** -/
inductive Moves (s : LineLog α β) : LineLogEvent α → LineLog α β → Prop where
  | stay (e : LineLogEvent α) : Moves s e s
  | send (a : α) (h : s.accepts capacity = true) :
      Moves s (.send a) { s with queue := s.queue ++ [a], accepted := s.accepted ++ [a] }
  | opened (h : s.phase = .opening) : Moves s .opened { s with phase := .idle }
  | openFails (h : s.phase = .opening) : Moves s .openFails { s with phase := .gone, queue := [] }
  | take (a : α) (queue : List α) (line : List β) (h : s.phase = .idle) (hqueue : s.queue = a :: queue)
      (hline : encode a = some line) :
      Moves s .recv { s with queue, taken := s.taken ++ [a], phase := .writing (line ++ [eol]) }
  | skip (a : α) (queue : List α) (h : s.phase = .idle) (hqueue : s.queue = a :: queue)
      (hnone : encode a = none) : Moves s .recv { s with queue, taken := s.taken ++ [a] }
  | append (n k : Nat) (rest : List β) (h : s.phase = .writing rest) : Moves s (.append n)
      { s with
        log := s.log ++ rest.take k
        phase := if (rest.drop k).isEmpty then .idle else .writing (rest.drop k) }
  | writeFails (rest : List β) (h : s.phase = .writing rest) :
      Moves s .writeFails { s with phase := .idle }

theorem step_moves (s : LineLog α β) (e : LineLogEvent α) :
    Moves capacity encode eol s e (s.step capacity encode eol e) := by
  cases e with
  | send a =>
      unfold step
      dsimp only
      split
      next h => exact .send a h
      next => exact .stay _
  | opened =>
      unfold step
      dsimp only
      split
      next h => exact .opened h
      next => exact .stay _
  | openFails =>
      unfold step
      dsimp only
      split
      next h => exact .openFails h
      next => exact .stay _
  | recv =>
      unfold step
      dsimp only
      split
      next a queue h hqueue =>
        split
        next line hline => exact .take a queue line h hqueue hline
        next hnone => exact .skip a queue h hqueue hnone
      next => exact .stay _
  | append n =>
      unfold step
      dsimp only
      split
      next rest h => exact .append n _ rest h
      next => exact .stay _
  | writeFails =>
      unfold step
      dsimp only
      split
      next rest h => exact .writeFails rest h
      next => exact .stay _

/-! ## §3. What is in the file. -/

/-- The lines of the records taken, each with its end. -/
def lines (s : LineLog α β) : List (List β) := (s.taken.filterMap encode).map fun l => l ++ [eol]

/-- The text is made of the beginnings of these lines, in their order. -/
def Pieces (lines : List (List β)) (text : List β) : Prop :=
  ∃ pieces, List.Forall₂ (fun piece line => piece <+: line) pieces lines ∧ text = pieces.flatten

theorem pieces_append {ls ls' : List (List β)} {text text' : List β} (h : Pieces ls text)
    (h' : Pieces ls' text') : Pieces (ls ++ ls') (text ++ text') := by
  obtain ⟨pieces, hpieces, rfl⟩ := h
  obtain ⟨pieces', hpieces', rfl⟩ := h'
  exact ⟨pieces ++ pieces', List.rel_append hpieces hpieces', List.flatten_append.symm⟩

theorem pieces_singleton {line piece : List β} (h : piece <+: line) : Pieces [line] piece :=
  ⟨[piece], .cons h .nil, by simp⟩

/-- In the middle of a line the text ends with what is written of it. -/
def InFile (lines : List (List β)) (text : List β) : WriterPhase β → Prop
  | .writing rest => ∃ before text' done, lines = before ++ [done ++ rest] ∧
      Pieces before text' ∧ text = text' ++ done
  | .opening | .idle | .gone => Pieces lines text

theorem InFile.pieces {lines : List (List β)} {text : List β} {phase : WriterPhase β}
    (h : InFile lines text phase) : Pieces lines text := by
  cases phase with
  | writing rest =>
      obtain ⟨before, text', done, rfl, hbefore, rfl⟩ := h
      exact pieces_append hbefore (pieces_singleton (List.prefix_append done rest))
  | opening => exact h
  | idle => exact h
  | gone => exact h

/-- **What is kept**: the queue is within its capacity, what got into it was taken or waits,
and the file is made of the lines taken. -/
structure Kept (s : LineLog α β) : Prop where
  room : s.queue.length ≤ capacity
  order : s.phase ≠ .gone → s.accepted = s.taken ++ s.queue
  gone : s.phase = .gone ∨ s.phase = .opening → s.taken = [] ∧ s.log = []
  file : InFile (s.lines encode eol) s.log s.phase

theorem kept_new : Kept capacity encode eol ({} : LineLog α β) where
  room := Nat.zero_le _
  order _ := rfl
  gone _ := ⟨rfl, rfl⟩
  file := ⟨[], .nil, rfl⟩

theorem lines_concat (taken : List α) (a : α) :
    ((taken ++ [a]).filterMap encode).map (fun l => l ++ [eol]) =
      (taken.filterMap encode).map (fun l => l ++ [eol]) ++
        ((encode a).map fun l => l ++ [eol]).toList := by
  rw [List.filterMap_append, List.map_append]
  cases hencode : encode a with
  | none => rw [List.filterMap_cons_none hencode]; rfl
  | some line => rw [List.filterMap_cons_some hencode]; rfl

theorem step_kept {s : LineLog α β} (h : s.Kept capacity encode eol) (e : LineLogEvent α) :
    (s.step capacity encode eol e).Kept capacity encode eol := by
  have hmoves := step_moves capacity encode eol s e
  generalize s.step capacity encode eol e = s' at hmoves ⊢
  cases hmoves with
  | stay => exact h
  | send a haccepts =>
      unfold accepts at haccepts
      refine ⟨?_, fun hgone => ?_, fun hphase => h.gone hphase, h.file⟩
      · show (s.queue ++ [a]).length ≤ capacity
        rw [List.length_append, List.length_singleton]
        split at haccepts
        · exact absurd haccepts Bool.false_ne_true
        all_goals exact of_decide_eq_true haccepts
      · show s.accepted ++ [a] = s.taken ++ (s.queue ++ [a])
        rw [h.order hgone, List.append_assoc]
  | opened hphase =>
      obtain ⟨htaken, hlog⟩ := h.gone (Or.inr hphase)
      have hfile := h.file
      rw [hphase] at hfile
      refine ⟨h.room, fun _ => h.order (by rw [hphase]; simp), fun hgone => ?_, hfile⟩
      exact ⟨htaken, hlog⟩
  | openFails hphase =>
      have hfile := h.file
      rw [hphase] at hfile
      exact ⟨Nat.zero_le _, fun hgone => absurd rfl hgone, fun _ => h.gone (Or.inr hphase), hfile⟩
  | take a queue line hphase hqueue hline =>
      have hroom := h.room
      have horder := h.order (by rw [hphase]; simp)
      have hfile := h.file
      rw [hqueue] at hroom horder
      rw [hphase] at hfile
      refine ⟨Nat.le_of_succ_le hroom, fun _ => ?_, fun hgone => by simp at hgone, ?_⟩
      · show s.accepted = s.taken ++ [a] ++ queue
        rw [horder, List.append_assoc, List.singleton_append]
      · refine ⟨s.lines encode eol, s.log, [], ?_, hfile, (List.append_nil _).symm⟩
        show ((s.taken ++ [a]).filterMap encode).map (fun l => l ++ [eol]) = _
        rw [lines_concat, hline]
        rfl
  | skip a queue hphase hqueue hnone =>
      have hroom := h.room
      have horder := h.order (by rw [hphase]; simp)
      have hfile := h.file
      rw [hqueue] at hroom horder
      rw [hphase] at hfile
      refine ⟨Nat.le_of_succ_le hroom, fun _ => ?_, fun hgone => ?_, ?_⟩
      · show s.accepted = s.taken ++ [a] ++ queue
        rw [horder, List.append_assoc, List.singleton_append]
      · rw [hphase] at hgone
        exact absurd hgone (by simp)
      · rw [hphase]
        show Pieces (((s.taken ++ [a]).filterMap encode).map fun l => l ++ [eol]) s.log
        rw [lines_concat, hnone]
        show Pieces (s.lines encode eol ++ []) s.log
        rw [List.append_nil]
        exact hfile
  | append n k rest hphase =>
      obtain ⟨before, text', done, hlines, hbefore, hlog⟩ := (hphase ▸ h.file :
        InFile (s.lines encode eol) s.log (.writing rest))
      refine ⟨h.room, fun _ => h.order (by rw [hphase]; simp), fun hgone => ?_, ?_⟩
      · dsimp only at hgone
        split at hgone <;> exact absurd hgone (by simp)
      · have hline : done ++ rest = done ++ rest.take k ++ rest.drop k := by
          rw [List.append_assoc, List.take_append_drop]
        show InFile (s.lines encode eol) (s.log ++ rest.take k) _
        rw [hlines, hlog, List.append_assoc, hline]
        split
        next hempty =>
          rw [List.isEmpty_iff] at hempty
          rw [hempty, List.append_nil]
          exact pieces_append hbefore (pieces_singleton List.prefix_rfl)
        next => exact ⟨before, text', done ++ rest.take k, rfl, hbefore, rfl⟩
  | writeFails rest hphase =>
      refine ⟨h.room, fun _ => h.order (by rw [hphase]; simp), fun hgone => by simp at hgone,
        h.file.pieces⟩

/-- **The file in every order of steps.** -/
theorem run_kept (events : List (LineLogEvent α)) :
    (run (step capacity encode eol) ({} : LineLog α β) events).Kept capacity encode eol :=
  run_invariant (step capacity encode eol) (I := fun s => s.Kept capacity encode eol)
    (fun _ e h => step_kept capacity encode eol h e) events {} (kept_new capacity encode eol)

/-- **Without a failure the lines are whole**, but for the one that is being written. -/
theorem run_whole {events : List (LineLogEvent α)} (hnone : ∀ e ∈ events, e.isFailure = false) :
    let s := run (step capacity encode eol) ({} : LineLog α β) events
    s.phase ≠ .gone ∧ s.log ++ s.phase.held = (s.lines encode eol).flatten := by
  refine along_invariant (step capacity encode eol)
    (I := fun s => s.phase ≠ .gone ∧ s.log ++ s.phase.held = (s.lines encode eol).flatten)
    (P := fun _ e => e.isFailure = false) (fun s e h he => ?_) events {} ⟨by simp, rfl⟩
    (along_of_forall (step capacity encode eol) events {} hnone)
  obtain ⟨hgone, hwhole⟩ := h
  have hmoves := step_moves capacity encode eol s e
  generalize s.step capacity encode eol e = s' at hmoves ⊢
  cases hmoves with
  | stay => exact ⟨hgone, hwhole⟩
  | send a _ => exact ⟨hgone, hwhole⟩
  | opened hphase =>
      rw [hphase] at hwhole
      exact ⟨by simp, hwhole⟩
  | openFails => exact absurd he (by simp [LineLogEvent.isFailure])
  | take a queue line hphase hqueue hline =>
      rw [hphase] at hwhole
      refine ⟨by simp, ?_⟩
      show s.log ++ (line ++ [eol]) =
        (((s.taken ++ [a]).filterMap encode).map fun l => l ++ [eol]).flatten
      rw [lines_concat, hline, List.flatten_append]
      have hlog : s.log = (s.lines encode eol).flatten := (List.append_nil _).symm.trans hwhole
      rw [hlog]
      simp [lines]
  | skip a queue hphase hqueue hnone =>
      refine ⟨hgone, ?_⟩
      show s.log ++ s.phase.held = (((s.taken ++ [a]).filterMap encode).map fun l => l ++ [eol]).flatten
      rw [lines_concat, hnone, hwhole]
      simp [lines]
  | append n k rest hphase =>
      rw [hphase] at hwhole
      have hheld : (if (rest.drop k).isEmpty then WriterPhase.idle
          else .writing (rest.drop k)).held = rest.drop k := by
        split
        next hempty => rw [List.isEmpty_iff.mp hempty]; rfl
        next => rfl
      refine ⟨?_, ?_⟩
      · dsimp only
        split <;> simp
      · show s.log ++ rest.take k ++ WriterPhase.held _ = (s.lines encode eol).flatten
        rw [hheld, List.append_assoc, List.take_append_drop]
        exact hwhole
  | writeFails => exact absurd he (by simp [LineLogEvent.isFailure])

/-! ## §4. What is dropped. -/

/-- The records that are accepted in a run. -/
def acceptedIn (s : LineLog α β) : LineLogEvent α → Option α
  | .send a => if s.accepts capacity then some a else none
  | .opened | .openFails | .recv | .append _ | .writeFails => none

/-- Only what is sent can be accepted. -/
theorem accepted_of_moves {s s' : LineLog α β} {e : LineLogEvent α}
    (hmoves : Moves capacity encode eol s e s') (h : e.sent = none) : s'.accepted = s.accepted := by
  cases hmoves with
  | send a => exact absurd h (by simp [LineLogEvent.sent])
  | _ => rfl

theorem accepted_step (s : LineLog α β) (e : LineLogEvent α) :
    (s.step capacity encode eol e).accepted = s.accepted ++ (s.acceptedIn capacity e).toList := by
  have hmoves := step_moves capacity encode eol s e
  cases e with
  | send a =>
      unfold step acceptedIn
      dsimp only
      split
      · rfl
      · exact (List.append_nil _).symm
  | _ =>
      rw [accepted_of_moves capacity encode eol hmoves rfl]
      exact (List.append_nil _).symm

theorem accepted_run (events : List (LineLogEvent α)) :
    ∀ s : LineLog α β, (run (step capacity encode eol) s events).accepted =
      s.accepted ++ outputs (step capacity encode eol) (acceptedIn capacity) s events := by
  induction events with
  | nil => intro s; exact (List.append_nil _).symm
  | cons e events ih =>
      intro s
      rw [run_cons, ih, accepted_step, List.append_assoc]
      rfl

/-- **What is accepted was sent**, in the same order. -/
theorem accepted_sublist (events : List (LineLogEvent α)) :
    (run (step capacity encode eol) ({} : LineLog α β) events).accepted.Sublist
      (events.filterMap LineLogEvent.sent) := by
  have hsublist : ∀ s : LineLog α β,
      (outputs (step capacity encode eol) (acceptedIn capacity) s events).Sublist
        (events.filterMap LineLogEvent.sent) := by
    induction events with
    | nil => intro s; exact List.Sublist.slnil
    | cons e events ih =>
        intro s
        have hrest := ih (s.step capacity encode eol e)
        cases e with
        | send a =>
            show ((if s.accepts capacity then some a else none).toList ++ _).Sublist (a :: _)
            split
            · exact hrest.cons_cons a
            · exact hrest.cons a
        | _ => exact hrest
  have haccepted := accepted_run capacity encode eol events ({} : LineLog α β)
  rw [haccepted]
  exact hsublist {}

/-- **Nothing is dropped** while there is room whenever a record is sent. -/
theorem accepted_of_room {events : List (LineLogEvent α)}
    (hroom : Along (step capacity encode eol)
      (fun s e => e.sent.isSome = true → s.accepts capacity = true) ({} : LineLog α β) events) :
    (run (step capacity encode eol) ({} : LineLog α β) events).accepted =
      events.filterMap LineLogEvent.sent := by
  have hall : ∀ s : LineLog α β, Along (step capacity encode eol)
      (fun s e => e.sent.isSome = true → s.accepts capacity = true) s events →
      outputs (step capacity encode eol) (acceptedIn capacity) s events =
        events.filterMap LineLogEvent.sent := by
    clear hroom
    induction events with
    | nil => intro s _; rfl
    | cons e events ih =>
        intro s h
        obtain ⟨haccepts, hrest⟩ := h
        have hrest := ih _ hrest
        cases e with
        | send a =>
            show (if s.accepts capacity then some a else none).toList ++ outputs _ _ _ _ = a :: _
            rw [if_pos (haccepts rfl), hrest]
            rfl
        | _ => exact hrest
  rw [accepted_run]
  exact hall {} hroom

end LineLog

end DockerProxy.Lib
