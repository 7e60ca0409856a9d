import MsxPulse.Firmware.CmdDispatch.Answers
import MsxPulse.Firmware.UsbSerial.CmdRing
import MsxPulse.Firmware.UsbSerial.Parse

/-!
# The USB console (main.c, usb_serial.c, cmd_dispatch.c)

What a turn of the main loop does for the host: it greets a host that has connected, sends
what is queued, takes in what was typed and executes one command at most.
-/

namespace MsxPulse.Firmware

open Library UsbSerial

structure Console where
  input : CmdInput
  out : Output
  /-- `static bool was_connected` -/
  wasConnected : Bool
  halted : Bool

/-- What a turn meets: whether the host is connected, how many of so many bytes the `n`th
`tud_cdc_write` takes, what `tud_cdc_read_char` returns up to -1, what is in `cmd_buf`, and what
the handlers read. -/
structure ConsoleTurn where
  connected : Bool
  cdcWrite : Nat → Nat → Nat
  received : List U8
  buf : CharArray cmdLineLen
  readings : Readings

/-- `tud_cdc_write`, whose result is ignored. The greeting is write 0 of a turn. -/
def ConsoleTurn.write (t : ConsoleTurn) (n : Nat) (bytes : List U8) : List U8 :=
  bytes.take (t.cdcWrite n bytes.length)

inductive ConsoleEffect where
  | sent (bytes : List U8)
  /-- A line that the command ring has no room for. -/
  | lost (line : List U8)
  | executed (line : List U8) (answer : List (List U8))

namespace Console

/-- `VERSION_BANNER` -/
def versionBanner : List U8 := terminated (CString.ascii "MSXDOC v0.1 -- type HELP for commands")

def greet (c : Console) (t : ConsoleTurn) : Console × List ConsoleEffect :=
  ({ c with wasConnected := t.connected },
    if t.connected && !c.wasConnected then [.sent (t.write 0 versionBanner)] else [])

/-- The loop over the output ring: two steps a line, and the test that ends it. -/
@[irreducible] def draining (connected : Bool) : List OutEvent := List.replicate 63 (.consume connected)

def givenLine : OutEffect → Option (List U8)
  | .sent line => some line
  | _ => none

def drain (c : Console) (t : ConsoleTurn) : Console × List ConsoleEffect :=
  let given := (output.trace c.out (draining t.connected)).filterMap givenLine
  ({ c with out := output.final c.out (draining t.connected) },
    [.sent ((given.zipIdx 1).flatMap fun w => t.write w.2 w.1)])

def lostLine : CmdEffect → Option ConsoleEffect
  | .dropped line => some (.lost line)
  | _ => none

/-- The loop over the received characters. -/
def collect (c : Console) (received : List U8) : Console × List ConsoleEffect :=
  let chars := received.map CmdEvent.received
  ({ c with input := cmdInput.final c.input chars },
    (cmdInput.trace c.input chars).filterMap lostLine)

/-- What `cmd_dispatch` does to the output ring. -/
def dispatch (r : Readings) (cmd : ParsedCmd) (ring : UsbOutRing) : UsbOutRing :=
  match cmd.type with
  | .boot => (CmdDispatch.cmdBoot r.diag r.boot ring).2
  | _ => (CmdDispatch.answer r cmd).foldl writeLine ring

/-- `usb_serial_get_cmd`, `usb_serial_parse_cmd` and `cmd_dispatch`. -/
def execute (c : Console) (t : ConsoleTurn) : Console × List ConsoleEffect :=
  let got := c.input.getCmd t.buf
  let c := { c with input := got.1 }
  match returnedLines got.2 with
  | [] => (c, [])
  | line :: _ =>
    let cmd := parseCmd (some line)
    ({ c with
        out := { c.out with ring := dispatch t.readings cmd c.out.ring }
        halted := decide (cmd.type = .update) },
      [.executed line (CmdDispatch.answer t.readings cmd)])

/-- `usb_serial_task`, and then the command. -/
def turn (c : Console) (t : ConsoleTurn) : Console × List ConsoleEffect :=
  let greeted := c.greet t
  let drained := greeted.1.drain t
  let collected := drained.1.collect t.received
  let done := collected.1.execute t
  (done.1, greeted.2 ++ drained.2 ++ collected.2 ++ done.2)

def machine : Machine Console ConsoleTurn ConsoleEffect where
  step c t := if c.halted then (c, []) else c.turn t

/-- Before the first turn, with no host. -/
structure Fresh (c : Console) : Prop where
  input : c.input.Fresh
  out : c.out.Fresh
  alone : c.wasConnected = false
  running : c.halted = false

/-- The CDC buffer has room for whatever the turn sends. -/
def TakesAll (c : Console) (t : ConsoleTurn) : Prop :=
  (c.wasConnected = false → versionBanner.length ≤ t.cdcWrite 0 versionBanner.length) ∧
    ∀ w ∈ c.out.queued.zipIdx 1, w.1.length ≤ t.cdcWrite w.2 w.1.length

instance (c : Console) (t : ConsoleTurn) : Decidable (c.TakesAll t) :=
  inferInstanceAs (Decidable (_ ∧ _))

/-! ## The lines of a stream that goes on -/

theorem plain_extend {run : List U8} (plain : Plain run) (c : U8) : Plain (extend run c) := by
  unfold extend
  cases ends : isEol c with
  | true => exact Plain.nil
  | false => exact plain.snoc ends

theorem lines_run_append {run : List U8} (plain : Plain run) (first second : List U8) :
    lines (run ++ (first ++ second)) =
      lines (run ++ first) ++ lines (unfinished (run ++ first) ++ second) := by
  induction first generalizing run with
  | nil => rw [List.append_nil, plain.lines, plain.unfinished, List.nil_append, List.nil_append]
  | cons c first ih =>
    rw [List.cons_append, lines_step plain, ih (plain_extend plain c), lines_step plain, unfinished_step plain,
      List.append_assoc]

theorem lines_append (first second : List U8) :
    lines (first ++ second) = lines first ++ lines (unfinished first ++ second) :=
  lines_run_append Plain.nil first second

theorem unfinished_run_append {run : List U8} (plain : Plain run) (first second : List U8) :
    unfinished (run ++ (first ++ second)) = unfinished (unfinished (run ++ first) ++ second) := by
  induction first generalizing run with
  | nil => rw [List.append_nil, plain.unfinished, List.nil_append]
  | cons c first ih =>
    rw [List.cons_append, unfinished_step plain, ih (plain_extend plain c), unfinished_step plain]

theorem unfinished_append (first second : List U8) :
    unfinished (first ++ second) = unfinished (unfinished first ++ second) :=
  unfinished_run_append Plain.nil first second

/-! ## Each part of a turn -/

section Parts

variable {c : Console} {run : List U8}

/-- A connected host is given what is taken. -/
theorem given_eq_taken (s : Output) (n : Nat) :
    (output.trace s (List.replicate n (.consume true))).filterMap givenLine =
      taken (output.trace s (List.replicate n (.consume true))) := by
  have step (s : Output) : (s.consume true).2.filterMap givenLine = taken (s.consume true).2 := by
    unfold Output.consume
    cases s.consumer <;> rfl
  induction n generalizing s with
  | zero => rfl
  | succ n ih =>
    have later := ih (s.consume true).1
    rw [taken] at later ⊢
    rw [List.replicate_succ, Machine.trace_cons, List.filterMap_append, List.flatMap_append]
    exact congrArg₂ (· ++ ·) (step s) later

/-- Enough of the consumer's steps empty the ring and give what it held, line by line. -/
theorem consumed {s : Output} (ok : s.Ok) {n : Nat} (enough : 62 ≤ n) :
    (output.final s (List.replicate n (.consume true))).queued = [] ∧
      (output.trace s (List.replicate n (.consume true))).filterMap givenLine = s.queued := by
  have after := ok.final (List.replicate n (.consume true))
  have empty : (output.final s (List.replicate n (.consume true))).queued = [] := by
    refine after.queued_of_work ?_
    rw [ok.work_final]
    exact Nat.sub_eq_zero_of_le (Nat.le_trans ok.work_le enough)
  have taken := ok.conserved (List.replicate n (.consume true))
  rw [Output.accepted_consumes, empty, List.map_nil, List.append_nil, List.append_nil] at taken
  exact ⟨empty, by rw [given_eq_taken, ← taken]⟩

theorem write_whole {t : ConsoleTurn} {n : Nat} {bytes : List U8}
    (room : bytes.length ≤ t.cdcWrite n bytes.length) : t.write n bytes = bytes :=
  List.take_of_length_le room

/-- Writes that are all taken whole send their lines. -/
theorem writes_whole {t : ConsoleTurn} {given : List (List U8)} {n : Nat}
    (room : ∀ w ∈ given.zipIdx n, w.1.length ≤ t.cdcWrite w.2 w.1.length) :
    ((given.zipIdx n).flatMap fun w => t.write w.2 w.1) = given.flatten := by
  induction given generalizing n with
  | nil => rfl
  | cons line given ih =>
    rw [List.zipIdx_cons] at room ⊢
    rw [List.flatMap_cons, write_whole (room _ List.mem_cons_self),
      ih fun w later => room w (List.mem_cons_of_mem _ later), List.flatten_cons]

/-- The loop over the output ring ends with the ring empty and everything sent. -/
theorem drain_eq {t : ConsoleTurn} (ok : c.out.Ok) (connected : t.connected = true)
    (takes : c.TakesAll t) :
    (c.drain t).1.out.Ok ∧ (c.drain t).1.out.queued = [] ∧
      (c.drain t).2 = [.sent c.out.queued.flatten] := by
  obtain ⟨empty, given⟩ := @consumed _ ok 63 (by decide)
  simp only [drain, draining, connected]
  rw [given, writes_whole takes.2]
  exact ⟨ok.final _, empty, rfl⟩

/-- A character for which the ring has room: what it completes is queued. -/
theorem receive_room {s : CmdInput} (ok : s.Ok run) {b : U8} (nonzero : b ≠ 0)
    (room : s.queued.length + (completed run b).length ≤ 7) :
    (s.receive b).1.Ok (extend run b) ∧ (s.receive b).1.queued = s.queued ++ completed run b ∧
      (s.receive b).2 = (completed run b).map CmdEffect.accepted := by
  cases ends : isEol b with
  | false =>
    have longer : extend run b = run ++ [b] := by
      rw [extend, ends]
      rfl
    have nothing : completed run b = [] := if_neg fun h => by simp [ends] at h
    obtain ⟨effects, ring, after⟩ := ok.receive_plain ends nonzero
    rw [longer, nothing, List.append_nil, CmdInput.queued, ring, CmdInput.queued]
    exact ⟨after, rfl, effects⟩
  | true =>
    have ended : extend run b = [] := if_pos ends
    obtain ⟨after, effects⟩ := ok.receive_eol ends
    by_cases empty : run = []
    · have nothing : completed run b = [] := if_neg fun h => h.2 empty
      rw [if_pos empty] at effects
      rw [ended, nothing, List.append_nil]
      exact ⟨after, effects.2, effects.1⟩
    · have line : completed run b = [run.take 63] := if_pos ⟨ends, empty⟩
      rw [line] at room
      rw [if_neg empty, if_neg (Nat.ne_of_lt room)] at effects
      rw [ended, line]
      exact ⟨after, effects.2, effects.1⟩

/-- Characters for whose lines the ring has room: their lines are queued, none is lost. -/
theorem received_room {s : CmdInput} (ok : s.Ok run) {received : List U8}
    (nonzero : ∀ b ∈ received, b ≠ 0)
    (room : s.queued.length + (lines (run ++ received)).length ≤ 7) :
    (cmdInput.final s (received.map .received)).Ok (unfinished (run ++ received)) ∧
      (cmdInput.final s (received.map .received)).queued =
        s.queued ++ lines (run ++ received) ∧
      cmdInput.trace s (received.map .received) =
        (lines (run ++ received)).map CmdEffect.accepted := by
  induction received generalizing s run with
  | nil =>
    rw [List.append_nil, ok.plain.lines, ok.plain.unfinished]
    exact ⟨ok, (List.append_nil _).symm, rfl⟩
  | cons b received ih =>
    rw [lines_step ok.plain, List.length_append, ← Nat.add_assoc] at room
    obtain ⟨after, queue, effects⟩ := receive_room ok (nonzero b List.mem_cons_self)
      (Nat.le_trans (Nat.le_add_right _ _) room)
    rw [← List.length_append, ← queue] at room
    obtain ⟨final, queued, trace⟩ := ih after
      (fun b' inside => nonzero b' (List.mem_cons_of_mem b inside)) room
    rw [lines_step ok.plain, unfinished_step ok.plain, List.map_append, ← effects, ← trace,
      ← List.append_assoc, ← queue]
    exact ⟨final, queued, rfl⟩

theorem collect_eq (ok : c.input.Ok run) {received : List U8} (nonzero : ∀ b ∈ received, b ≠ 0)
    (room : c.input.queued.length + (lines (run ++ received)).length ≤ 7) :
    (c.collect received).1.input.Ok (unfinished (run ++ received)) ∧
      (c.collect received).1.input.queued = c.input.queued ++ lines (run ++ received) ∧
      (c.collect received).2 = [] := by
  obtain ⟨after, queue, effects⟩ := received_room ok nonzero room
  refine ⟨after, queue, ?_⟩
  rw [collect, effects, List.filterMap_map]
  exact List.filterMap_eq_nil_iff.mpr fun _ _ => rfl

theorem ok_foldl {s : Output} (ok : s.Ok) (written : List (List U8)) :
    ({ s with ring := written.foldl writeLine s.ring } : Output).Ok := by
  induction written generalizing s with
  | nil => exact ok
  | cons line written ih => exact ih (ok.write line)

/-- What `cmd_dispatch` writes for a line. -/
def reply (t : ConsoleTurn) (line : List U8) : List (List U8) :=
  CmdDispatch.answer t.readings (parseCmd (some line))

/-- What the ring keeps of a command's answer if it was empty. -/
def kept (t : ConsoleTurn) (line : List U8) : List (List U8) := ((reply t line).take 31).map cut

/-- The first command is executed if there is one, and its answer is all that the ring
then holds. -/
structure Executed (c c' : Console) (run : List U8) (t : ConsoleTurn)
    (effects : List ConsoleEffect) : Prop where
  effects : effects = c.input.queued.head?.toList.map fun line => .executed line (reply t line)
  input : c'.input.Ok run
  queue : c'.input.queued = c.input.queued.tail
  out : c'.out.Ok
  written : c'.out.queued = c.input.queued.head?.toList.flatMap (kept t)
  wasConnected : c'.wasConnected = c.wasConnected
  halted : (∀ line ∈ c.input.queued, (parseCmd (some line)).type ≠ .update) → c'.halted = c.halted

/-- `cmd_dispatch` writes the answer, up to what stands behind the NUL of a line. -/
theorem dispatch_written (r : Readings) (cmd : ParsedCmd) (ring : UsbOutRing) :
    ∃ written : List (List U8), written.map cut = (CmdDispatch.answer r cmd).map cut ∧
      dispatch r cmd ring = written.foldl writeLine ring := by
  by_cases boot : cmd.type = .boot
  · have printed : dispatch r cmd ring = (CmdDispatch.cmdBoot r.diag r.boot ring).2 := by
      simp only [dispatch, boot]
    rw [printed]
    exact CmdDispatch.cmdBoot_ring boot ring
  · refine ⟨CmdDispatch.answer r cmd, rfl, ?_⟩
    unfold dispatch
    split
    · next same => exact absurd same boot
    · rfl

theorem executed (ok : c.input.Ok run) (out : c.out.Ok) (empty : c.out.queued = [])
    (running : c.halted = false) (t : ConsoleTurn) :
    Executed c (c.execute t).1 run t (c.execute t).2 := by
  obtain ⟨after, queue, effects⟩ := ok.getCmd t.buf
  cases commands : c.input.queued with
  | nil =>
    have nothing : returnedLines (c.input.getCmd t.buf).2 = [] := by
      rw [effects, commands]
      rfl
    have done : c.execute t = ({ c with input := (c.input.getCmd t.buf).1 }, []) := by
      simp only [execute, nothing]
    rw [done]
    exact ⟨by rw [commands]; rfl, after, queue, out, by rw [commands]; exact empty, rfl,
      fun _ => rfl⟩
  | cons line rest =>
    have returned : returnedLines (c.input.getCmd t.buf).2 = [line] := by
      rw [effects, commands]
      rfl
    obtain ⟨written, content, dispatched⟩ :=
      dispatch_written t.readings (parseCmd (some line)) c.out.ring
    have queued := out.queued_foldl written
    rw [empty, List.nil_append, content, ← List.map_take] at queued
    have done : c.execute t =
        ({ c with
            input := (c.input.getCmd t.buf).1
            out := { c.out with ring := written.foldl writeLine c.out.ring }
            halted := decide ((parseCmd (some line)).type = .update) },
          [.executed line (reply t line)]) := by
      simp only [execute, returned, dispatched]
      rfl
    rw [done]
    refine ⟨by rw [commands]; rfl, after, queue, ok_foldl out _, ?_, rfl, fun stays => ?_⟩
    · rw [commands]
      exact queued.trans (List.append_nil _).symm
    · rw [running]
      exact decide_eq_false (stays line (commands ▸ List.mem_cons_self))

/-- What a turn does if the host is connected, the CDC buffer has room and the ring has room
for what is typed. -/
structure Turned (c c' : Console) (run : List U8) (t : ConsoleTurn)
    (effects : List ConsoleEffect) : Prop where
  effects : effects = (if c.wasConnected then [] else [.sent versionBanner]) ++
    .sent c.out.queued.flatten ::
      ((c.input.queued ++ lines (run ++ t.received)).head?.toList.map fun line =>
        .executed line (reply t line))
  input : c'.input.Ok (unfinished (run ++ t.received))
  queue : c'.input.queued = (c.input.queued ++ lines (run ++ t.received)).tail
  out : c'.out.Ok
  written : c'.out.queued =
    (c.input.queued ++ lines (run ++ t.received)).head?.toList.flatMap (kept t)
  wasConnected : c'.wasConnected = true
  halted : (∀ line ∈ c.input.queued ++ lines (run ++ t.received),
    (parseCmd (some line)).type ≠ .update) → c'.halted = false

theorem turned (ok : c.input.Ok run) (out : c.out.Ok) (running : c.halted = false)
    {t : ConsoleTurn} (connected : t.connected = true) (takes : c.TakesAll t)
    (nonzero : ∀ b ∈ t.received, b ≠ 0)
    (room : c.input.queued.length + (lines (run ++ t.received)).length ≤ 7) :
    Turned c (c.turn t).1 run t (c.turn t).2 := by
  have greeted : (c.greet t).1.TakesAll t :=
    ⟨fun alone => absurd (connected.symm.trans alone) (by decide), takes.2⟩
  obtain ⟨outOk, empty, sent⟩ := @drain_eq (c.greet t).1 t out connected greeted
  obtain ⟨inputOk, queue, none⟩ := @collect_eq ((c.greet t).1.drain t).1 run ok t.received
    nonzero room
  have last := executed inputOk outOk empty running t
  have greeting : (c.greet t).2 = if c.wasConnected then [] else [.sent versionBanner] := by
    rw [greet, connected]
    cases alone : c.wasConnected with
    | true => rfl
    | false =>
      rw [write_whole (takes.1 alone)]
      rfl
  have turn : c.turn t = (((((c.greet t).1.drain t).1.collect t.received).1.execute t).1,
      (c.greet t).2 ++ ((c.greet t).1.drain t).2 ++
        (((c.greet t).1.drain t).1.collect t.received).2 ++
        ((((c.greet t).1.drain t).1.collect t.received).1.execute t).2) := rfl
  have before : ((c.greet t).1.drain t).1.input.queued = c.input.queued := rfl
  rw [before] at queue
  rw [turn]
  refine ⟨?_, last.input, ?_, last.out, ?_, last.wasConnected.trans connected, fun stays => ?_⟩
  · rw [none, sent, last.effects, queue, greeting, List.append_nil, List.append_assoc]
    rfl
  · exact queue ▸ last.queue
  · exact queue ▸ last.written
  · exact (last.halted (queue ▸ stays)).trans running

end Parts

end Console

end MsxPulse.Firmware
