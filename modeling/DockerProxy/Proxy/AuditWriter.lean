/-
  DockerProxy.Proxy.AuditWriter — from the audit records to the file: `audit.rs`.

  `AuditSink::send` puts a record into a channel of 4096 places and drops it when the
  channel is full or closed.  A task opens the file and appends one line of JSON for each
  record it takes.  Requests and the task run at the same time.

  `audit_file`: whatever their order, the file is made of lines of records of requests, in
  their order; only a failing write cuts a line short, and only a full channel or a file
  that cannot be opened drops a record.  Without these the file reads back as the records
  of the run.
-/
import DockerProxy.Lib.LineLog
import DockerProxy.Proxy.AuditTrail

namespace DockerProxy.Proxy

open DockerProxy.Lib DockerProxy.Path DockerProxy.Limiter DockerProxy.Rules

/-! ## §1. The sink. -/

/-- The places of the channel. -/
def auditChannelCapacity : Nat := 4096

/-- What `write_event` ends a line with. -/
def newline : UInt8 := 10

section

-- `serde_json::to_string` of a record, in bytes
variable (print : AuditEvent → Option (List UInt8))

/-- `AuditSink::spawn`, `send` and the task, after these events. -/
def auditSink (events : List (LineLogEvent AuditEvent)) : LineLog AuditEvent UInt8 :=
  run (LineLog.step auditChannelCapacity print newline) {} events

/-- There was room in the channel whenever a record was sent. -/
def NeverFull (events : List (LineLogEvent AuditEvent)) : Prop :=
  Along (LineLog.step auditChannelCapacity print newline)
    (fun s e => e.sent.isSome = true → s.accepts auditChannelCapacity = true) {} events

/-! ## §2. The file. -/

variable {print}

/-- No line has an end inside. -/
theorem newline_not_mem (hprint : ∀ ev line, print ev = some line → newline ∉ line)
    (records : List AuditEvent) : ∀ line ∈ records.filterMap print, newline ∉ line := by
  intro line hline
  obtain ⟨ev, -, hev⟩ := List.mem_filterMap.mp hline
  exact hprint ev line hev

/-- The lines of the records that were taken, in one. -/
theorem flatten_lines (s : LineLog AuditEvent UInt8) :
    (s.lines print newline).flatten = terminated newline (s.taken.filterMap print) := by
  unfold LineLog.lines terminated
  rw [List.flatMap_def]

/-- Without a failure a file between two lines reads back as the records taken. -/
theorem readLines_auditSink (hprint : ∀ ev line, print ev = some line → newline ∉ line)
    {events : List (LineLogEvent AuditEvent)} (hnone : ∀ e ∈ events, e.isFailure = false)
    (hidle : (auditSink print events).phase = .idle) :
    readLines newline [] (auditSink print events).log =
      (auditSink print events).taken.filterMap print := by
  have hwhole := (LineLog.run_whole auditChannelCapacity print newline hnone).2
  have hlog : (auditSink print events).log ++ (auditSink print events).phase.held =
      ((auditSink print events).lines print newline).flatten := hwhole
  rw [hidle, flatten_lines] at hlog
  have hheld : (auditSink print events).log ++ [] = _ := hlog
  rw [List.append_nil] at hheld
  rw [hheld, readLines_terminated (newline_not_mem hprint _)]

end

/-- **The audit file of a run**, of what this process appends to it, for every order in which
the requests' records and the writer's steps come. -/
theorem audit_file (deps : Externals) (print : AuditEvent → Option (List UInt8))
    (hprint : ∀ ev line, print ev = some line → newline ∉ line) (st : ProxyState)
    (requests : List (SystemEvent deps)) (events : List (LineLogEvent AuditEvent))
    (hsent : events.filterMap LineLogEvent.sent =
      outputs SystemEvent.step (SystemEvent.record deps) st requests) :
    let s := auditSink print events
    let records := outputs SystemEvent.step (SystemEvent.record deps) st requests
    -- what was recorded and not dropped is in the file or on its way, in order
    s.queue.length ≤ auditChannelCapacity ∧ s.accepted.Sublist records ∧
      (s.phase ≠ .gone → s.accepted = s.taken ++ s.queue) ∧
      LineLog.Pieces (s.lines print newline) s.log ∧
      -- without a failure the lines are whole
      ((∀ e ∈ events, e.isFailure = false) → s.phase = .idle →
        readLines newline [] s.log = s.taken.filterMap print) ∧
      -- and without a full channel, when all is written, they are those of all records
      ((∀ e ∈ events, e.isFailure = false) → NeverFull print events → s.phase = .idle →
        s.queue = [] → readLines newline [] s.log = records.filterMap print) := by
  intro s records
  have hkept : s.Kept auditChannelCapacity print newline :=
    LineLog.run_kept auditChannelCapacity print newline events
  have haccepted := LineLog.accepted_sublist auditChannelCapacity print newline events
  rw [hsent] at haccepted
  refine ⟨hkept.room, haccepted, hkept.order, hkept.file.pieces,
    fun hnone hidle => readLines_auditSink hprint hnone hidle, fun hnone hroom hidle hempty => ?_⟩
  have hall : s.accepted = records := by
    have hroom := LineLog.accepted_of_room auditChannelCapacity print newline hroom
    rw [hsent] at hroom
    exact hroom
  have horder := hkept.order (by rw [hidle]; simp)
  rw [hempty, List.append_nil] at horder
  rw [readLines_auditSink hprint hnone hidle]
  show s.taken.filterMap print = _
  rw [← horder, hall]

/-- The record of an inspection that nobody may make. -/
def deniedRecord : AuditEvent where
  timestamp := "1970-01-01T00:00:00+00:00"
  event := "auth_denied"
  peerIp := "127.0.0.1"
  method := "GET"
  path := "/containers/web/json"
  userAgent := "-"
  status := 401
  message := some "Authentication is not configured"

/-- `serde_json` on this record. -/
def printDenied (ev : AuditEvent) : Option (List UInt8) :=
  if ev = deniedRecord then
    some (["\x7b\"timestamp\":\"1970-01-01T00:00:00+00:00\",\"event\":\"auth_denied\",",
      "\"peer_ip\":\"127.0.0.1\",\"method\":\"GET\",\"path\":\"/containers/web/json\",",
      "\"user_agent\":\"-\",\"user_role\":null,\"identity\":null,\"rule_name\":null,",
      "\"rule_action\":null,\"status\":401,\"dry_run\":false,",
      "\"message\":\"Authentication is not configured\"\x7d"].flatMap asBytes)
  else none

/-- The writer opens its file, and appends one line in two pieces. -/
def deniedWrites : List (LineLogEvent AuditEvent) :=
  [.opened, .send deniedRecord, .recv, .append 100, .append 1000]

/-- The line of the one refused request. -/
theorem audit_file_denied :
    readLines newline [] (auditSink printDenied deniedWrites).log =
      (outputs SystemEvent.step (SystemEvent.record Externals.sample)
        { oneTokenState with config := {} } [.happens inspectWithToken]).filterMap printDenied := by
  refine (audit_file Externals.sample printDenied ?_ _ _ deniedWrites ?_).2.2.2.2.2 ?_ ?_ ?_ ?_
  · intro ev line h
    unfold printDenied at h
    split at h
    · rw [← Option.some.inj h]
      decide +kernel
    · exact absurd h (by simp)
  · decide +kernel
  · decide
  · exact ⟨fun h => absurd h (by decide), fun _ => by decide, fun h => absurd h (by decide),
      fun h => absurd h (by decide), fun h => absurd h (by decide), trivial⟩
  · decide +kernel
  · decide +kernel

end DockerProxy.Proxy
