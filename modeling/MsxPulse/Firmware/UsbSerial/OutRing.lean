import MsxPulse.Library.Machine
import MsxPulse.Firmware.Ipc

/-!
# The output ring (usb_serial.c)

Both cores write lines, core 0 takes them out and sends them. The producers hold
the lock for the whole write. The consumer tests for emptiness outside the lock
and only then takes a line under it, so these are two steps and producers may run
between them.
-/

namespace MsxPulse.Firmware.UsbSerial

open Library

/-- `usb_serial_write_line`, between locking and unlocking. -/
def writeLine (ring : UsbOutRing) (line : List U8) : UsbOutRing :=
  if ring.room usbOutRingLines then ring.store usbOutRingLines fun slot => slot.copyCut line
  else ring

/-- What `strncpy` and `vsnprintf` keep of a string in a line's array. -/
def cut (line : List U8) : List U8 := (CString.text line).take (usbOutLineLen - 1)

/-- `usb_serial_printf` of a format that expands to `formatted`. -/
def printf (ring : UsbOutRing) (formatted : List U8) : UsbOutRing :=
  writeLine ring (cut formatted)

theorem length_cut_le (line : List U8) : (cut line).length ≤ 79 := List.length_take_le _ _

@[simp] theorem text_cut (line : List U8) : CString.text (cut line) = cut line :=
  CString.text_of_ne_zero fun _ hb => CString.ne_zero_of_mem_text (List.mem_of_mem_take hb)

theorem text_copyCut (slot : CharArray usbOutLineLen) (line : List U8) :
    (slot.copyCut line).text = cut line :=
  slot.text_copyCut line (by decide)

/-! ## Producers and consumer -/

/-- Where the consumer's loop stands. -/
inductive Consumer where
  | testing
  | taking
  deriving DecidableEq

structure Output where
  ring : UsbOutRing
  consumer : Consumer

inductive Producer where
  | core0
  | core1
  deriving DecidableEq

inductive OutEvent where
  | writeLine (core : Producer) (line : List U8)
  | printf (core : Producer) (formatted : List U8)
  | consume (connected : Bool)
  deriving DecidableEq

inductive OutEffect where
  | accepted (line : List U8)
  | dropped (line : List U8)
  | taken (line : List U8)
  | sent (bytes : List U8)
  deriving DecidableEq

/-- The consumer's step: the loop condition, or the loop body of `usb_serial_task`. -/
def Output.consume (s : Output) (connected : Bool) : Output × List OutEffect :=
  match s.consumer with
  | .testing => (if s.ring.pending then { s with consumer := .taking } else s, [])
  | .taking =>
    -- All 80 bytes of the local array are written, so nothing it held before is left.
    let line := CString.text (CString.strncpy [] s.ring.slot.mem usbOutLineLen)
    ({ ring := s.ring.drop usbOutRingLines, consumer := .testing },
      .taken line :: if connected then [.sent line] else [])

def Output.write (s : Output) (line : List U8) : Output × List OutEffect :=
  ({ s with ring := UsbSerial.writeLine s.ring line },
    [if s.ring.room usbOutRingLines then .accepted line else .dropped line])

def Output.step (s : Output) : OutEvent → Output × List OutEffect
  | .writeLine _ line => s.write line
  | .printf _ formatted => s.write (cut formatted)
  | .consume connected => s.consume connected

def output : Machine Output OutEvent OutEffect := ⟨Output.step⟩

def OutEffect.accepts : OutEffect → List (List U8)
  | .accepted line => [line]
  | _ => []

def OutEffect.takes : OutEffect → List (List U8)
  | .taken line => [line]
  | _ => []

def accepted (effects : List OutEffect) : List (List U8) := effects.flatMap OutEffect.accepts

def taken (effects : List OutEffect) : List (List U8) := effects.flatMap OutEffect.takes

/-- What stands in the ring, as strings. -/
def Output.queued (s : Output) : List (List U8) :=
  (s.ring.queued usbOutRingLines).map CharArray.text

/-! ## What holds between steps -/

/-- The indices are inside the ring, a line that the consumer is about to take is
there, and every queued slot ends in a NUL. -/
structure Output.Ok (s : Output) : Prop where
  bounded : s.ring.Bounded usbOutRingLines
  promised : s.consumer = .taking → 0 < s.ring.count usbOutRingLines
  terminated : ∀ slot ∈ s.ring.queued usbOutRingLines, slot.Terminated

/-- Equal indices below the size, the consumer outside its loop body. -/
structure Output.Fresh (s : Output) : Prop where
  same : s.ring.writeIdx = s.ring.readIdx
  inside : s.ring.readIdx < usbOutRingLines
  testing : s.consumer = .testing

theorem Output.Fresh.queued {s : Output} (h : s.Fresh) : s.queued = [] := by
  rw [Output.queued, GapRing.queued_empty h.same, List.map_nil]

theorem Output.Fresh.ok {s : Output} (h : s.Fresh) : s.Ok where
  bounded := ⟨h.same ▸ h.inside, h.inside⟩
  promised taking := by rw [h.testing] at taking; cases taking
  terminated := by simp [GapRing.queued_empty h.same]

theorem Output.length_queued (s : Output) : s.queued.length = s.ring.count usbOutRingLines := by
  rw [Output.queued, List.length_map, GapRing.length_queued]

theorem Output.Ok.length_le {s : Output} (h : s.Ok) : s.queued.length ≤ 31 := by
  have below := GapRing.count_lt h.bounded
  rw [s.length_queued]
  exact Nat.le_of_lt_succ below

theorem Output.Ok.room_iff {s : Output} (h : s.Ok) :
    s.ring.room usbOutRingLines = true ↔ s.queued.length < 31 := by
  rw [GapRing.room_iff h.bounded, s.length_queued]
  exact Nat.succ_lt_succ_iff

theorem Output.Ok.pending_iff {s : Output} (h : s.Ok) :
    s.ring.pending = true ↔ 0 < s.queued.length := by
  rw [GapRing.pending_iff h.bounded, s.length_queued]

/-! ## What one step does -/

theorem Output.write_full {s : Output} (h : s.Ok) (full : s.queued.length = 31) (line : List U8) :
    s.write line = (s, [.dropped line]) := by
  have closed : s.ring.room usbOutRingLines = false := by
    rw [← Bool.not_eq_true, h.room_iff]
    omega
  simp [Output.write, writeLine, closed]

theorem Output.write_room {s : Output} (h : s.Ok) (room : s.queued.length < 31) (line : List U8) :
    s.write line =
      ({ s with ring := s.ring.store usbOutRingLines fun slot => slot.copyCut line },
        [.accepted line]) := by
  simp [Output.write, writeLine, h.room_iff.mpr room]

theorem Output.queued_write {s : Output} (h : s.Ok) (room : s.queued.length < 31)
    (line : List U8) : (s.write line).1.queued = s.queued ++ [cut line] := by
  rw [write_room h room, Output.queued, Output.queued,
    GapRing.queued_store h.bounded (h.room_iff.mpr room), List.map_append, List.map_singleton,
    text_copyCut]

theorem Output.Ok.write {s : Output} (h : s.Ok) (line : List U8) : (s.write line).1.Ok := by
  rcases h.length_le.lt_or_eq with room | full
  · rw [write_room h room]
    refine ⟨GapRing.Bounded.store h.bounded fun slot => slot.copyCut line, fun _ => ?_,
      fun slot member => ?_⟩
    · rw [GapRing.count_store h.bounded (h.room_iff.mpr room)]
      exact Nat.succ_pos _
    · rw [GapRing.queued_store h.bounded (h.room_iff.mpr room)] at member
      rcases List.mem_append.mp member with old | new
      · exact h.terminated slot old
      · rw [List.mem_singleton.mp new]
        exact CharArray.copyCut_terminated _ _ (by decide)
  · rwa [write_full h full]

/-- Of lines written one after the other, the ring keeps the first that fit. -/
theorem Output.Ok.queued_foldl {s : Output} (h : s.Ok) (lines : List (List U8)) :
    ({ s with ring := lines.foldl UsbSerial.writeLine s.ring } : Output).queued =
      (s.queued ++ lines.map cut).take 31 := by
  induction lines generalizing s with
  | nil => rw [List.map_nil, List.append_nil, List.take_of_length_le h.length_le]; rfl
  | cons line lines ih =>
    refine (ih (h.write line)).trans ?_
    rcases h.length_le.lt_or_eq with room | full
    · rw [queued_write h room, List.append_assoc]
      rfl
    · rw [write_full h full, List.take_append_of_le_length full.ge,
        List.take_append_of_le_length full.ge]

theorem Output.consume_testing {s : Output} (testing : s.consumer = .testing)
    (connected : Bool) : s.consume connected =
      (if s.ring.pending then { s with consumer := .taking } else s, []) := by
  rw [Output.consume, testing]

/-- Taking hands over the head of the queue, whole. -/
theorem Output.consume_taking {s : Output} (h : s.Ok) (taking : s.consumer = .taking) :
    ∃ line rest, s.queued = line :: rest ∧ ∀ connected, s.consume connected =
      ({ ring := s.ring.drop usbOutRingLines, consumer := .testing },
        .taken line :: if connected then [.sent line] else []) ∧
      (s.consume connected).1.queued = rest := by
  have head := GapRing.queued_drop h.bounded (h.promised taking)
  have ends : s.ring.slot.Terminated := h.terminated _ (by rw [head]; exact List.mem_cons_self)
  have copied : CString.text (CString.strncpy [] s.ring.slot.mem usbOutLineLen) =
      s.ring.slot.text := CString.text_strncpy ends.strlen_lt
  refine ⟨s.ring.slot.text, ((s.ring.drop usbOutRingLines).queued usbOutRingLines).map
    CharArray.text, by rw [Output.queued, head, List.map_cons], fun connected => ?_⟩
  rw [Output.consume, taking]
  exact ⟨by rw [copied], rfl⟩

theorem Output.Ok.consume {s : Output} (h : s.Ok) (connected : Bool) :
    (s.consume connected).1.Ok := by
  cases loop : s.consumer with
  | testing =>
    rw [consume_testing loop]
    cases pending : s.ring.pending with
    | false => exact h
    | true => exact ⟨h.bounded, fun _ => (GapRing.pending_iff h.bounded).mp pending, h.terminated⟩
  | taking =>
    rw [Output.consume, loop]
    refine ⟨h.bounded.drop, nofun, fun slot member => h.terminated slot ?_⟩
    rw [GapRing.queued_drop h.bounded (h.promised loop)]
    exact List.mem_cons_of_mem _ member

theorem Output.Ok.step {s : Output} (h : s.Ok) (e : OutEvent) : (output.step s e).1.Ok := by
  cases e with
  | writeLine _ line => exact h.write line
  | printf _ formatted => exact h.write (cut formatted)
  | consume connected => exact h.consume connected

/-- What a step accepts joins the queue, what it takes leaves it. -/
theorem Output.Ok.balanced {s : Output} (h : s.Ok) (e : OutEvent) :
    s.queued ++ (accepted (output.step s e).2).map cut =
      taken (output.step s e).2 ++ (output.step s e).1.queued := by
  have writes (line : List U8) : s.queued ++ (accepted (s.write line).2).map cut =
      taken (s.write line).2 ++ (s.write line).1.queued := by
    rcases h.length_le.lt_or_eq with room | full
    · rw [queued_write h room, write_room h room]
      rfl
    · rw [write_full h full]
      exact List.append_nil _
  cases e with
  | writeLine _ line => exact writes line
  | printf _ formatted => exact writes (cut formatted)
  | consume connected =>
    show s.queued ++ (accepted (s.consume connected).2).map cut =
      taken (s.consume connected).2 ++ (s.consume connected).1.queued
    cases loop : s.consumer with
    | testing =>
      rw [consume_testing loop]
      cases s.ring.pending <;> exact List.append_nil _
    | taking =>
      obtain ⟨line, rest, queue, steps⟩ := consume_taking h loop
      rw [(steps connected).2, (steps connected).1, queue]
      cases connected <;> simp [accepted, taken, OutEffect.accepts, OutEffect.takes]

/-! ## Runs -/

theorem Output.Ok.final {s : Output} (h : s.Ok) (events : List OutEvent) :
    (output.final s events).Ok :=
  output.final_preserved Output.Ok (fun _ e h => h.step e) h events

theorem Output.Ok.conserved {s : Output} (h : s.Ok) (events : List OutEvent) :
    s.queued ++ (accepted (output.trace s events)).map cut =
      taken (output.trace s events) ++ (output.final s events).queued := by
  rw [accepted, List.map_flatMap]
  refine output.trace_conserved (fun _ _ => True) Output.Ok (fun _ e h _ => h.step e)
    Output.queued (fun e => e.accepts.map cut) OutEffect.takes (fun s e h _ => ?_) h
    (output.along_of_forall s fun _ _ => trivial)
  rw [← List.map_flatMap]
  exact h.balanced e

/-- The consumer's steps until the ring is empty, if nobody writes. -/
def Output.work (s : Output) : Nat :=
  match s.consumer with
  | .testing => 2 * s.queued.length
  | .taking => 2 * s.queued.length - 1

theorem Output.work_testing {s : Output} (loop : s.consumer = .testing) :
    s.work = 2 * s.queued.length := by
  rw [Output.work, loop]

theorem Output.work_taking {s : Output} (loop : s.consumer = .taking) :
    s.work = 2 * s.queued.length - 1 := by
  rw [Output.work, loop]

theorem Output.Ok.work_consume {s : Output} (h : s.Ok) (connected : Bool) :
    (s.consume connected).1.work = s.work - 1 := by
  cases loop : s.consumer with
  | testing =>
    rw [consume_testing loop, work_testing loop]
    cases pending : s.ring.pending with
    | true => exact work_taking rfl
    | false =>
      have empty : ¬ 0 < s.queued.length := by simp [← h.pending_iff, pending]
      rw [if_neg Bool.false_ne_true, work_testing loop]
      omega
  | taking =>
    obtain ⟨line, rest, queue, steps⟩ := consume_taking h loop
    have after : (s.consume connected).1.consumer = .testing := by rw [(steps connected).1]
    rw [work_testing after, (steps connected).2, work_taking loop, queue, List.length_cons]
    omega

theorem Output.Ok.work_final {s : Output} (h : s.Ok) (connected : Bool) (n : Nat) :
    (output.final s (List.replicate n (.consume connected))).work = s.work - n := by
  induction n generalizing s with
  | zero => rfl
  | succ n ih =>
    rw [List.replicate_succ, Machine.final_cons, ih (h.step _)]
    show (s.consume connected).1.work - n = s.work - (n + 1)
    rw [h.work_consume, Nat.sub_sub, Nat.add_comm 1 n]

theorem Output.accepted_consume (s : Output) (connected : Bool) :
    accepted (s.consume connected).2 = [] := by
  unfold Output.consume
  split
  · rfl
  · cases connected <;> rfl

theorem Output.accepted_consumes (s : Output) (connected : Bool) (n : Nat) :
    accepted (output.trace s (List.replicate n (.consume connected))) = [] := by
  induction n generalizing s with
  | zero => rfl
  | succ n ih =>
    have first : accepted (output.step s (.consume connected)).2 = [] :=
      s.accepted_consume connected
    have later := ih (output.step s (.consume connected)).1
    rw [accepted] at first later ⊢
    rw [List.replicate_succ, Machine.trace_cons, List.flatMap_append, first, later, List.append_nil]

theorem Output.Ok.queued_of_work {s : Output} (h : s.Ok) (done : s.work = 0) : s.queued = [] := by
  have promised := h.promised
  rw [← s.length_queued] at promised
  rw [← List.length_eq_zero_iff]
  cases loop : s.consumer with
  | testing =>
    rw [work_testing loop] at done
    omega
  | taking =>
    have some := promised loop
    rw [work_taking loop] at done
    omega

theorem Output.Ok.work_le {s : Output} (h : s.Ok) : s.work ≤ 62 := by
  have small := h.length_le
  cases loop : s.consumer with
  | testing => rw [work_testing loop]; omega
  | taking => rw [work_taking loop]; omega

/-- The string that an event writes, if it writes one. -/
def OutEvent.written : OutEvent → Option (List U8)
  | .writeLine _ line => some line
  | .printf _ formatted => some (cut formatted)
  | .consume _ => none

theorem Output.step_written {e : OutEvent} {line : List U8} (h : e.written = some line)
    (s : Output) : output.step s e = s.write line := by
  cases e with
  | writeLine _ line' => rw [← Option.some.inj h]; rfl
  | printf _ formatted => rw [← Option.some.inj h]; rfl
  | consume connected => cases h

/-- The ring loses nothing up to its capacity. Whatever the two cores and the
consumer do: the indices stay inside, what was taken out is a prefix of what was
accepted, cut to the slots, the rest stands in slots that end in a NUL and is taken
if the consumer goes on, and a line is dropped exactly if 31 accepted ones have
not been taken, which changes nothing. -/
theorem out_ring_lossless {s : Output} (fresh : s.Fresh) (events : List OutEvent) :
    let now := output.final s events
    let into := accepted (output.trace s events)
    let out := taken (output.trace s events)
    now.ring.Bounded usbOutRingLines ∧
    into.map cut = out ++ now.queued ∧
    (∀ slot ∈ now.ring.queued usbOutRingLines, slot.Terminated) ∧
    (∀ connected,
      taken (output.trace now (List.replicate 62 (.consume connected))) = now.queued) ∧
    ∀ e line, e.written = some line →
      if into.length = out.length + 31 then output.step now e = (now, [.dropped line])
      else (output.step now e).2 = [.accepted line] ∧
        (output.step now e).1.queued = now.queued ++ [cut line] := by
  intro now into out
  have ok : now.Ok := fresh.ok.final events
  have kept : into.map cut = out ++ now.queued := by
    have conserved := fresh.ok.conserved events
    rwa [fresh.queued, List.nil_append] at conserved
  have size : into.length = out.length + now.queued.length := by
    rw [← List.length_map cut, kept, List.length_append]
  refine ⟨ok.bounded, kept, ok.terminated, fun connected => ?_, fun e line writes => ?_⟩
  · have rest := ok.conserved (List.replicate 62 (.consume connected))
    have empty : (output.final now (List.replicate 62 (.consume connected))).queued = [] := by
      refine (ok.final _).queued_of_work ?_
      rw [ok.work_final, Nat.sub_eq_zero_of_le ok.work_le]
    rw [empty, Output.accepted_consumes, List.map_nil, List.append_nil, List.append_nil] at rest
    exact rest.symm
  · rw [Output.step_written writes]
    split
    · next full => exact Output.write_full ok (by omega) line
    · next free =>
      have room : now.queued.length < 31 := by
        have small := ok.length_le
        omega
      exact ⟨by rw [Output.write_room ok room], Output.queued_write ok room line⟩

/-- The zeroed static of main.c. -/
def Output.initial : Output where
  ring :=
    { lines := fun _ => ⟨List.replicate usbOutLineLen 0, List.length_replicate⟩
      writeIdx := 0, readIdx := 0 }
  consumer := .testing

theorem Output.initial_fresh : Output.initial.Fresh := ⟨rfl, by decide, rfl⟩

theorem out_ring_lossless_two_cores :
    (accepted (output.trace Output.initial
        [.writeLine .core1 (CString.ascii "ready\r\n"), .consume true,
          .printf .core0 (CString.ascii "CLK\r\n"), .consume true])).map cut =
      taken (output.trace Output.initial
        [.writeLine .core1 (CString.ascii "ready\r\n"), .consume true,
          .printf .core0 (CString.ascii "CLK\r\n"), .consume true]) ++ [CString.ascii "CLK\r\n"] :=
  (out_ring_lossless Output.initial_fresh _).2.1

end MsxPulse.Firmware.UsbSerial
