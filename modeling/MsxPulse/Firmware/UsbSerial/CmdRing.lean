import MsxPulse.Library.Machine
import MsxPulse.Firmware.Ipc

/-!
# The command ring (usb_serial.c)

`usb_serial_task` collects received characters in a static buffer and pushes each
complete line; `usb_serial_get_cmd` pops them. One event is one round of the read
loop or one call of `usb_serial_get_cmd`. A call of the task is any number of
characters and then `exhausted`, so every way of cutting the stream into calls is
a list of events.
-/

namespace MsxPulse.Firmware.UsbSerial

open Library CString

structure CmdInput where
  ring : CmdRing
  /-- `static char accum[CMD_LINE_LEN]` -/
  accum : CharArray cmdLineLen
  /-- `static int accum_len` -/
  accumLen : Nat

inductive CmdEvent where
  | received (c : U8)
  /-- `tud_cdc_read_char` returned -1. -/
  | exhausted
  | getCmd (buf : CharArray cmdLineLen)

inductive CmdEffect where
  | accepted (line : List U8)
  | dropped (line : List U8)
  | returned (line : List U8)
  | nothing
  deriving DecidableEq

def isEol (c : U8) : Bool := c == lf || c == cr

/-- The line is complete: terminate it and push it if there is room. -/
def CmdInput.push (s : CmdInput) : CmdInput × List CmdEffect :=
  let accum := s.accum.set s.accumLen 0
  if s.ring.room cmdRingLines then
    ({ ring := s.ring.store cmdRingLines fun slot => slot.memcpy accum (s.accumLen + 1)
       accum, accumLen := 0 }, [.accepted accum.text])
  else ({ s with accum, accumLen := 0 }, [.dropped accum.text])

theorem CmdInput.push_closed {s : CmdInput} (closed : s.ring.room cmdRingLines = false) :
    s.push = ({ s with accum := s.accum.set s.accumLen 0, accumLen := 0 },
      [.dropped (s.accum.set s.accumLen 0).text]) := by
  simp [CmdInput.push, closed]

theorem CmdInput.push_free {s : CmdInput} (free : s.ring.room cmdRingLines = true) :
    s.push =
      ({ ring := s.ring.store cmdRingLines fun slot =>
          slot.memcpy (s.accum.set s.accumLen 0) (s.accumLen + 1)
         accum := s.accum.set s.accumLen 0
         accumLen := 0 }, [.accepted (s.accum.set s.accumLen 0).text]) := by
  simp [CmdInput.push, free]

/-- The body of the read loop. -/
def CmdInput.receive (s : CmdInput) (c : U8) : CmdInput × List CmdEffect :=
  if isEol c then
    if 0 < s.accumLen then s.push else (s, [])
  else if s.accumLen < cmdLineLen - 1 then
    ({ s with accum := s.accum.set s.accumLen c, accumLen := s.accumLen + 1 }, [])
  else (s, [])

/-- `usb_serial_get_cmd` -/
def CmdInput.getCmd (s : CmdInput) (buf : CharArray cmdLineLen) : CmdInput × List CmdEffect :=
  if s.ring.pending then
    ({ s with ring := s.ring.drop cmdRingLines }, [.returned (buf.copyCut s.ring.slot.mem).text])
  else (s, [.nothing])

def CmdInput.step (s : CmdInput) : CmdEvent → CmdInput × List CmdEffect
  | .received c => s.receive c
  | .exhausted => (s, [])
  | .getCmd buf => s.getCmd buf

def cmdInput : Machine CmdInput CmdEvent CmdEffect := ⟨CmdInput.step⟩

/-! ## The lines of a stream -/

/-- The runs between line ends, the last one not ended. -/
def runs (stream : List U8) : List (List U8) := stream.splitOnP isEol

/-- The nonempty ended runs, each cut to what the buffer holds. -/
def lines (stream : List U8) : List (List U8) :=
  ((runs stream).dropLast.filter (· ≠ [])).map (·.take (cmdLineLen - 1))

/-- The run that no line end has ended. -/
def unfinished (stream : List U8) : List U8 := (runs stream).getLastD []

/-- A run: no line end in it. -/
def Plain (run : List U8) : Prop := ∀ b ∈ run, isEol b = false

theorem Plain.nil : Plain [] := fun _ inside => absurd inside List.not_mem_nil

theorem Plain.snoc {run : List U8} (h : Plain run) {c : U8} (plain : isEol c = false) :
    Plain (run ++ [c]) := by
  intro b inside
  rcases List.mem_append.mp inside with old | new
  · exact h b old
  · rwa [List.mem_singleton.mp new]

theorem Plain.runs {run : List U8} (h : Plain run) : runs run = [run] :=
  List.splitOnP_eq_singleton h

theorem Plain.lines {run : List U8} (h : Plain run) : lines run = [] := by
  rw [UsbSerial.lines, h.runs]
  rfl

theorem Plain.unfinished {run : List U8} (h : Plain run) : unfinished run = run := by
  rw [UsbSerial.unfinished, h.runs]
  rfl

theorem Plain.runs_ended {run : List U8} (h : Plain run) {c : U8} (ends : isEol c = true)
    (stream : List U8) : UsbSerial.runs (run ++ c :: stream) = run :: UsbSerial.runs stream :=
  List.splitOnP_append_cons_of_forall_mem h c ends stream

theorem runs_ne_nil (stream : List U8) : runs stream ≠ [] := List.splitOnP_ne_nil _ _

theorem Plain.lines_ended {run : List U8} (h : Plain run) {c : U8} (ends : isEol c = true)
    (stream : List U8) : UsbSerial.lines (run ++ c :: stream) =
      (if run = [] then [] else [run.take (cmdLineLen - 1)]) ++ UsbSerial.lines stream := by
  rw [UsbSerial.lines, h.runs_ended ends, List.dropLast_cons_of_ne_nil (runs_ne_nil stream)]
  by_cases empty : run = []
  · simp [empty, UsbSerial.lines]
  · simp [empty, UsbSerial.lines]

theorem Plain.unfinished_ended {run : List U8} (h : Plain run) {c : U8} (ends : isEol c = true)
    (stream : List U8) :
    UsbSerial.unfinished (run ++ c :: stream) = UsbSerial.unfinished stream := by
  rw [UsbSerial.unfinished, h.runs_ended ends, UsbSerial.unfinished]
  cases rest : UsbSerial.runs stream with
  | nil => exact absurd rest (runs_ne_nil stream)
  | cons first others => rfl

/-! ## What holds between events -/

/-- The indices are inside the ring, the queued strings fit the buffer of the reader,
and the static buffer holds the start of the unfinished run. -/
structure CmdInput.Ok (s : CmdInput) (run : List U8) : Prop where
  bounded : s.ring.Bounded cmdRingLines
  short : ∀ slot ∈ s.ring.queued cmdRingLines, slot.text.length ≤ 63
  plain : Plain run
  nonzero : ∀ b ∈ run, b ≠ 0
  len : s.accumLen = (run.take 63).length
  holds : run.take 63 <+: s.accum.mem

/-- The queue of the ring, as strings. -/
def CmdInput.queued (s : CmdInput) : List (List U8) :=
  (s.ring.queued cmdRingLines).map CharArray.text

theorem CmdInput.length_queued (s : CmdInput) :
    s.queued.length = s.ring.count cmdRingLines := by
  rw [CmdInput.queued, List.length_map, GapRing.length_queued]

section Step

variable {s : CmdInput} {run : List U8}

theorem CmdInput.Ok.length_le (h : s.Ok run) : s.queued.length ≤ 7 := by
  have below := GapRing.count_lt h.bounded
  rw [s.length_queued]
  exact Nat.le_of_lt_succ below

theorem CmdInput.Ok.room_iff (h : s.Ok run) :
    s.ring.room cmdRingLines = true ↔ s.queued.length < 7 := by
  rw [GapRing.room_iff h.bounded, s.length_queued]
  exact Nat.succ_lt_succ_iff

theorem CmdInput.Ok.pending_iff (h : s.Ok run) :
    s.ring.pending = true ↔ 0 < s.queued.length := by
  rw [GapRing.pending_iff h.bounded, s.length_queued]

theorem CmdInput.Ok.accumLen_le (h : s.Ok run) : s.accumLen ≤ 63 := by
  rw [h.len]
  exact List.length_take_le _ _

theorem CmdInput.Ok.accumLen_pos (h : s.Ok run) : 0 < s.accumLen ↔ run ≠ [] := by
  rw [h.len, List.length_pos_iff, ne_eq, List.take_eq_nil_iff]
  simp

/-- The terminated buffer starts with the cut run. -/
theorem CmdInput.Ok.terminated (h : s.Ok run) :
    run.take 63 ++ [0] <+: (s.accum.set s.accumLen 0).mem := by
  have room : (run.take 63).length < s.accum.mem.length := by
    rw [← h.len, s.accum.length_mem]
    exact Nat.lt_succ_of_le h.accumLen_le
  have extended := prefix_set h.holds room 0
  rwa [← h.len] at extended

theorem CmdInput.Ok.nonzero_cut (h : s.Ok run) : ∀ b ∈ run.take 63, b ≠ 0 := fun b inside =>
  h.nonzero b (List.mem_of_mem_take inside)

theorem CmdInput.Ok.text_accum (h : s.Ok run) : (s.accum.set s.accumLen 0).text = run.take 63 := by
  obtain ⟨rest, same⟩ := h.terminated
  rw [CharArray.text, ← same, List.append_assoc]
  exact text_append_nul h.nonzero_cut

theorem CmdInput.Ok.text_slot (h : s.Ok run) (slot : CharArray cmdLineLen) :
    (slot.memcpy (s.accum.set s.accumLen 0) (s.accumLen + 1)).text = run.take 63 := by
  have copied := text_memcpy slot.mem h.nonzero_cut h.terminated
  rwa [← h.len] at copied

theorem CmdInput.Ok.push_full (h : s.Ok run) (full : s.queued.length = 7) :
    s.push.2 = [.dropped (run.take 63)] ∧ s.push.1.ring = s.ring ∧ s.push.1.Ok [] := by
  have closed : s.ring.room cmdRingLines = false := by
    rw [← Bool.not_eq_true, h.room_iff]
    omega
  rw [CmdInput.push_closed closed, h.text_accum]
  exact ⟨rfl, rfl, h.bounded, h.short, Plain.nil, fun _ inside => absurd inside List.not_mem_nil,
    rfl, List.nil_prefix⟩

theorem CmdInput.Ok.push_room (h : s.Ok run) (room : s.queued.length < 7) :
    s.push.2 = [.accepted (run.take 63)] ∧ s.push.1.queued = s.queued ++ [run.take 63] ∧
      s.push.1.Ok [] := by
  have free := h.room_iff.mpr room
  have queue := GapRing.queued_store h.bounded free fun slot : CharArray cmdLineLen =>
    slot.memcpy (s.accum.set s.accumLen 0) (s.accumLen + 1)
  rw [CmdInput.push_free free, h.text_accum]
  refine ⟨rfl, ?_, GapRing.Bounded.store h.bounded fun slot =>
    slot.memcpy (s.accum.set s.accumLen 0) (s.accumLen + 1), fun slot inside => ?_, Plain.nil,
    fun _ inside => absurd inside List.not_mem_nil, rfl, List.nil_prefix⟩
  · show (GapRing.queued cmdRingLines _).map CharArray.text = _
    rw [queue, List.map_append, List.map_singleton, h.text_slot]
    rfl
  · rcases List.mem_append.mp (queue ▸ inside) with old | new
    · exact h.short slot old
    · rw [List.mem_singleton.mp new, h.text_slot]
      exact List.length_take_le _ _

/-- The run after one more character. -/
def extend (run : List U8) (c : U8) : List U8 := if isEol c then [] else run ++ [c]

/-- The line that a character completes, if it completes one. -/
def completed (run : List U8) (c : U8) : List (List U8) :=
  if isEol c ∧ run ≠ [] then [run.take 63] else []

theorem lines_step (plain : Plain run) (c : U8) (stream : List U8) :
    lines (run ++ c :: stream) = completed run c ++ lines (extend run c ++ stream) := by
  unfold completed extend
  cases ends : isEol c with
  | false => simp
  | true =>
    rw [plain.lines_ended ends]
    by_cases empty : run = [] <;> simp [empty, cmdLineLen]

theorem unfinished_step (plain : Plain run) (c : U8) (stream : List U8) :
    unfinished (run ++ c :: stream) = unfinished (extend run c ++ stream) := by
  unfold extend
  cases ends : isEol c with
  | false => simp
  | true => simpa using plain.unfinished_ended ends stream

/-- A character that ends no line goes to the buffer, if there is space. -/
theorem CmdInput.Ok.receive_plain (h : s.Ok run) {c : U8} (plain : isEol c = false)
    (nonzero : c ≠ 0) : (s.receive c).2 = [] ∧ (s.receive c).1.ring = s.ring ∧
      (s.receive c).1.Ok (run ++ [c]) := by
  have nonzeros : ∀ b ∈ run ++ [c], b ≠ 0 := fun b inside =>
    (List.mem_append.mp inside).elim (h.nonzero b) fun last => List.mem_singleton.mp last ▸ nonzero
  have bound := h.accumLen_le
  have len := h.len
  rw [List.length_take] at len
  unfold CmdInput.receive
  rw [plain, if_neg Bool.false_ne_true]
  by_cases space : s.accumLen < cmdLineLen - 1
  · have below : s.accumLen < 63 := space
    have fits : run.length < 63 := by omega
    have whole : (run ++ [c]).take 63 = run.take 63 ++ [c] := by
      rw [List.take_of_length_le (by simp; omega), List.take_of_length_le (by omega)]
    rw [if_pos space]
    refine ⟨rfl, rfl, h.bounded, h.short, h.plain.snoc plain, nonzeros, ?_, ?_⟩
    · rw [whole, List.length_append, ← h.len]
      rfl
    · have extended := prefix_set h.holds (by rw [← h.len, s.accum.length_mem]; omega) c
      rwa [whole, h.len]
  · have beyond : (run ++ [c]).take 63 = run.take 63 := by
      rw [List.take_append_of_le_length]
      have full : ¬ s.accumLen < 63 := space
      omega
    rw [if_neg space]
    refine ⟨rfl, rfl, h.bounded, h.short, h.plain.snoc plain, nonzeros, ?_, ?_⟩
    · rw [beyond, h.len]
    · rw [beyond]
      exact h.holds

/-- A line end completes the run; the line is queued unless seven are, and then
nothing else changes. -/
theorem CmdInput.Ok.receive_eol (h : s.Ok run) {c : U8} (ends : isEol c = true) :
    (s.receive c).1.Ok [] ∧
      if run = [] then (s.receive c).2 = [] ∧ (s.receive c).1.queued = s.queued
      else if s.queued.length = 7 then
        (s.receive c).2 = [.dropped (run.take 63)] ∧ (s.receive c).1.queued = s.queued
      else (s.receive c).2 = [.accepted (run.take 63)] ∧
        (s.receive c).1.queued = s.queued ++ [run.take 63] := by
  unfold CmdInput.receive
  rw [ends, if_pos rfl]
  by_cases empty : run = []
  · have zero : ¬ 0 < s.accumLen := by rw [h.accumLen_pos]; exact not_not_intro empty
    rw [if_neg zero, if_pos empty]
    exact ⟨empty ▸ h, rfl, rfl⟩
  · rw [if_pos (h.accumLen_pos.mpr empty), if_neg empty]
    by_cases full : s.queued.length = 7
    · obtain ⟨effects, ring, ok⟩ := h.push_full full
      rw [if_pos full]
      exact ⟨ok, effects, by rw [CmdInput.queued, ring, CmdInput.queued]⟩
    · have small := h.length_le
      obtain ⟨effects, queue, ok⟩ := h.push_room (by omega)
      rw [if_neg full]
      exact ⟨ok, effects, queue⟩

/-- A call returns the head of the queue, whole, or reports that there is none. -/
theorem CmdInput.Ok.getCmd (h : s.Ok run) (buf : CharArray cmdLineLen) :
    (s.getCmd buf).1.Ok run ∧ (s.getCmd buf).1.queued = s.queued.tail ∧
      (s.getCmd buf).2 = [s.queued.head?.elim .nothing .returned] := by
  unfold CmdInput.getCmd
  cases pending : s.ring.pending with
  | false =>
    have empty : s.queued = [] := by
      rw [← List.length_eq_zero_iff]
      have none : ¬ 0 < s.queued.length := by simp [← h.pending_iff, pending]
      omega
    rw [if_neg Bool.false_ne_true, empty]
    exact ⟨h, rfl, rfl⟩
  | true =>
    have head := GapRing.queued_drop h.bounded ((GapRing.pending_iff h.bounded).mp pending)
    have member : s.ring.slot ∈ s.ring.queued cmdRingLines := head ▸ List.mem_cons_self
    have copied : (buf.copyCut s.ring.slot.mem).text = s.ring.slot.text := by
      rw [CharArray.text_copyCut _ _ (by decide)]
      exact List.take_of_length_le (h.short _ member)
    have queue : s.queued = s.ring.slot.text ::
        ((s.ring.drop cmdRingLines).queued cmdRingLines).map CharArray.text := by
      rw [CmdInput.queued, head, List.map_cons]
    rw [if_pos rfl, queue, copied]
    refine ⟨⟨h.bounded.drop, fun slot inside => h.short slot ?_, h.plain, h.nonzero, h.len,
      h.holds⟩, rfl, rfl⟩
    rw [head]
    exact List.mem_cons_of_mem _ inside

end Step

/-! ## Runs -/

def CmdEvent.char : CmdEvent → List U8
  | .received c => [c]
  | _ => []

/-- The received stream, wherever the calls cut it. -/
def stream (events : List CmdEvent) : List U8 := events.flatMap CmdEvent.char

def CmdEffect.accepts : CmdEffect → List (List U8)
  | .accepted line => [line]
  | _ => []

def CmdEffect.returns : CmdEffect → List (List U8)
  | .returned line => [line]
  | _ => []

def CmdEffect.completes : CmdEffect → List (List U8)
  | .accepted line | .dropped line => [line]
  | _ => []

def acceptedLines (effects : List CmdEffect) : List (List U8) := effects.flatMap CmdEffect.accepts

def returnedLines (effects : List CmdEffect) : List (List U8) := effects.flatMap CmdEffect.returns

/-- The lines that a terminator completed, accepted or not. -/
def completedLines (effects : List CmdEffect) : List (List U8) :=
  effects.flatMap CmdEffect.completes

/-- What every step does to the run, and what it reports and moves. -/
structure Stepped (s s' : CmdInput) (run : List U8) (e : CmdEvent) (effects : List CmdEffect) :
    Prop where
  ok : s'.Ok (e.char.foldl extend run)
  completes : completedLines effects = (e.char.map (completed run)).flatten
  balanced : s.queued ++ acceptedLines effects = returnedLines effects ++ s'.queued

theorem CmdInput.Ok.step {s : CmdInput} {run : List U8} (h : s.Ok run) {e : CmdEvent}
    (nonzero : ∀ c ∈ e.char, c ≠ 0) :
    Stepped s (cmdInput.step s e).1 run e (cmdInput.step s e).2 := by
  cases e with
  | exhausted => exact ⟨h, rfl, List.append_nil _⟩
  | getCmd buf =>
    obtain ⟨ok, queue, effects⟩ := h.getCmd buf
    have step : cmdInput.step s (.getCmd buf) = s.getCmd buf := rfl
    rw [step]
    refine ⟨ok, ?_, ?_⟩ <;> rw [effects]
    · cases s.queued <;> rfl
    · rw [queue]
      cases s.queued <;> simp [acceptedLines, returnedLines, CmdEffect.accepts, CmdEffect.returns]
  | received c =>
    have step : cmdInput.step s (.received c) = s.receive c := rfl
    rw [step]
    cases ends : isEol c with
    | false =>
      obtain ⟨effects, ring, ok⟩ := h.receive_plain ends (nonzero c List.mem_cons_self)
      refine ⟨by simpa [CmdEvent.char, extend, ends] using ok, ?_, ?_⟩ <;> rw [effects]
      · simp [completedLines, CmdEvent.char, completed, ends]
      · rw [CmdInput.queued, CmdInput.queued, ring]
        exact List.append_nil _
    | true =>
      obtain ⟨ok, effects⟩ := h.receive_eol ends
      refine ⟨by simpa [CmdEvent.char, extend, ends] using ok, ?_, ?_⟩
      all_goals split_ifs at effects with empty full
      all_goals rw [effects.1]
      · simp [completedLines, CmdEvent.char, completed, empty]
      · simp [completedLines, CmdEvent.char, completed, ends, empty, CmdEffect.completes]
      · simp [completedLines, CmdEvent.char, completed, ends, empty, CmdEffect.completes]
      all_goals rw [effects.2]
      · exact List.append_nil _
      · exact List.append_nil _
      · rfl

/-- After any events the buffer holds the unfinished run of the stream, and the lines
of the stream have been completed, in order. -/
theorem CmdInput.Ok.run {s : CmdInput} {run : List U8} (h : s.Ok run) {events : List CmdEvent}
    (nonzero : ∀ e ∈ events, ∀ c ∈ e.char, c ≠ 0) :
    (cmdInput.final s events).Ok (unfinished (run ++ stream events)) ∧
      completedLines (cmdInput.trace s events) = lines (run ++ stream events) := by
  induction events generalizing s run with
  | nil =>
    rw [stream, List.flatMap_nil, List.append_nil, h.plain.unfinished, h.plain.lines]
    exact ⟨h, rfl⟩
  | cons e events ih =>
    have stepped := h.step (nonzero e List.mem_cons_self)
    obtain ⟨ok, completes⟩ := ih stepped.ok fun e' inside =>
      nonzero e' (List.mem_cons_of_mem _ inside)
    have whole : stream (e :: events) = e.char ++ stream events := rfl
    have framed : unfinished (run ++ (e.char ++ stream events)) =
          unfinished (e.char.foldl extend run ++ stream events) ∧
        lines (run ++ (e.char ++ stream events)) = (e.char.map (completed run)).flatten ++
          lines (e.char.foldl extend run ++ stream events) := by
      cases e with
      | received c =>
        refine ⟨unfinished_step h.plain c _, ?_⟩
        have step := lines_step h.plain c (stream events)
        simpa [CmdEvent.char] using step
      | exhausted => exact ⟨rfl, rfl⟩
      | getCmd buf => exact ⟨rfl, rfl⟩
    rw [whole, framed.1, framed.2, ← stepped.completes, ← completes]
    exact ⟨ok, List.flatMap_append⟩

theorem CmdInput.Ok.conserved {s : CmdInput} {run : List U8} (h : s.Ok run)
    {events : List CmdEvent} (nonzero : ∀ e ∈ events, ∀ c ∈ e.char, c ≠ 0) :
    s.queued ++ acceptedLines (cmdInput.trace s events) =
      returnedLines (cmdInput.trace s events) ++ (cmdInput.final s events).queued := by
  refine cmdInput.trace_conserved (fun _ e => ∀ c ∈ e.char, c ≠ 0) (fun s => ∃ run, s.Ok run)
    ?_ CmdInput.queued CmdEffect.accepts CmdEffect.returns ?_ ⟨run, h⟩
    (cmdInput.along_of_forall s nonzero)
  · rintro s e ⟨run, h⟩ nonzero
    exact ⟨_, (h.step nonzero).ok⟩
  · rintro s e ⟨run, h⟩ nonzero
    exact (h.step nonzero).balanced

/-- Calls of the reader that nobody interrupts return the whole queue. -/
theorem CmdInput.Ok.read_all {s : CmdInput} {run : List U8} (h : s.Ok run)
    (buf : CharArray cmdLineLen) {n : Nat} (enough : s.queued.length ≤ n) :
    returnedLines (cmdInput.trace s (List.replicate n (.getCmd buf))) = s.queued := by
  induction n generalizing s with
  | zero => exact (List.length_eq_zero_iff.mp (Nat.le_zero.mp enough)).symm
  | succ n ih =>
    obtain ⟨ok, queue, effects⟩ := h.getCmd buf
    have step : cmdInput.step s (.getCmd buf) = s.getCmd buf := rfl
    have rest := ih ok (by rw [queue, List.length_tail]; omega)
    rw [returnedLines] at rest ⊢
    rw [List.replicate_succ, Machine.trace_cons, step, List.flatMap_append, rest, queue, effects]
    cases s.queued <;> rfl

/-- Equal indices inside the ring, nothing in the static buffer. -/
structure CmdInput.Fresh (s : CmdInput) : Prop where
  same : s.ring.writeIdx = s.ring.readIdx
  inside : s.ring.readIdx < cmdRingLines
  empty : s.accumLen = 0

theorem CmdInput.Fresh.queued {s : CmdInput} (h : s.Fresh) : s.queued = [] := by
  rw [CmdInput.queued, GapRing.queued_empty h.same, List.map_nil]

theorem CmdInput.Fresh.ok {s : CmdInput} (h : s.Fresh) : s.Ok [] where
  bounded := ⟨h.same ▸ h.inside, h.inside⟩
  short := by simp [GapRing.queued_empty h.same]
  plain := Plain.nil
  nonzero := fun _ inside => absurd inside List.not_mem_nil
  len := h.empty
  holds := List.nil_prefix

/-- Framing from USB to the dispatcher. However the stream is cut into calls and
whenever the reader runs: the lines of the stream are completed in order; what the
reader got is a prefix of the accepted ones and further calls give the rest; a line
is dropped exactly if seven accepted ones are unread when its terminator arrives,
and then nothing but it is lost; and the unfinished run stays in the buffer. -/
theorem cmd_framing {s : CmdInput} (fresh : s.Fresh) {events : List CmdEvent}
    (nonzero : ∀ e ∈ events, ∀ c ∈ e.char, c ≠ 0) :
    let now := cmdInput.final s events
    let into := acceptedLines (cmdInput.trace s events)
    let out := returnedLines (cmdInput.trace s events)
    let run := unfinished (stream events)
    now.ring.Bounded cmdRingLines ∧
    completedLines (cmdInput.trace s events) = lines (stream events) ∧
    into = out ++ now.queued ∧
    (∀ buf, returnedLines (cmdInput.trace now (List.replicate 7 (.getCmd buf))) = now.queued) ∧
    (∀ buf, (cmdInput.step now (.getCmd buf)).2 =
      [now.queued.head?.elim .nothing .returned]) ∧
    now.accum.mem.take now.accumLen = run.take 63 ∧
    ∀ c, c ≠ 0 → (cmdInput.step now (.received c)).2 =
      if isEol c ∧ run ≠ [] then
        if into.length = out.length + 7 then [.dropped (run.take 63)] else [.accepted (run.take 63)]
      else [] := by
  intro now into out run
  obtain ⟨ok, completes⟩ := fresh.ok.run nonzero
  rw [List.nil_append] at ok completes
  have kept : into = out ++ now.queued := by
    have conserved := fresh.ok.conserved nonzero
    rwa [fresh.queued, List.nil_append] at conserved
  have size : into.length = out.length + now.queued.length := by
    rw [kept, List.length_append]
  refine ⟨ok.bounded, completes, kept, fun buf => ok.read_all buf ok.length_le,
    fun buf => (ok.getCmd buf).2.2, ?_, fun c nonzero => ?_⟩
  · rw [ok.len]
    exact (List.prefix_iff_eq_take.mp ok.holds).symm
  · show (now.receive c).2 = _
    cases ends : isEol c with
    | false => rw [(ok.receive_plain ends nonzero).1, if_neg fun h => Bool.false_ne_true h.1]
    | true =>
      have effects := (ok.receive_eol ends).2
      by_cases empty : run = []
      · rw [if_pos empty] at effects
        rw [effects.1, if_neg fun h => h.2 empty]
      · rw [if_neg empty] at effects
        rw [if_pos ⟨rfl, empty⟩]
        by_cases full : now.queued.length = 7
        · rw [if_pos full] at effects
          rw [effects.1, if_pos (by omega)]
        · rw [if_neg full] at effects
          rw [effects.1, if_neg (by omega)]

def zeroLine : CharArray cmdLineLen := ⟨List.replicate cmdLineLen 0, List.length_replicate⟩

/-- The zeroed statics. -/
def CmdInput.initial : CmdInput where
  ring := { lines := fun _ => zeroLine, writeIdx := 0, readIdx := 0 }
  accum := zeroLine
  accumLen := 0

theorem CmdInput.initial_fresh : CmdInput.initial.Fresh := ⟨rfl, by decide, rfl⟩

/-- HELP in two packets, CRLF, then the start of another line. -/
def helpPackets : List CmdEvent :=
  (ascii "HE").map .received ++ [.exhausted] ++ (ascii "LP\r\nST").map .received ++
    [.exhausted, .getCmd zeroLine]

theorem cmd_framing_help :
    completedLines (cmdInput.trace CmdInput.initial helpPackets) = lines (stream helpPackets) :=
  (cmd_framing CmdInput.initial_fresh (by decide)).2.1

end MsxPulse.Firmware.UsbSerial
