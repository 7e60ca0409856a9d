import Mathlib.Data.List.Forall2
import MsxPulse.Library.Format
import MsxPulse.Firmware.UsbSerial.OutRing

/-!
# Lines as the host sees them

The handlers end every line in CRLF and the consumer sends what the slots hold, one
after the other. The host splits the stream at CRLF. A line keeps its end only if
the whole of it fits a slot.
-/

namespace MsxPulse.Firmware.UsbSerial

open Library CString

/-- The pieces between the CRLFs of a stream; the last one is what follows the last
CRLF. -/
def splitCrlf : List U8 → List (List U8)
  | [] => [[]]
  | b :: rest =>
    if b = cr ∧ rest.head? = some lf then [] :: (splitCrlf rest).modifyHead List.tail
    else (splitCrlf rest).modifyHead (b :: ·)

theorem splitCrlf_cons {b : U8} (plain : b ≠ cr) (rest : List U8) :
    splitCrlf (b :: rest) = (splitCrlf rest).modifyHead (b :: ·) := by
  rw [splitCrlf, if_neg fun h => plain h.1]

theorem splitCrlf_crlf (rest : List U8) :
    splitCrlf (cr :: lf :: rest) = [] :: splitCrlf rest := by
  rw [splitCrlf, if_pos ⟨rfl, rfl⟩, splitCrlf_cons (by decide), List.modifyHead_modifyHead]
  congr 1
  exact congrFun List.modifyHead_id _

/-- A CR that no LF follows breaks nothing. -/
theorem splitCrlf_cr {rest : List U8} (alone : rest.head? ≠ some lf) :
    splitCrlf (cr :: rest) = (splitCrlf rest).modifyHead (cr :: ·) := by
  rw [splitCrlf, if_neg fun h => alone h.2]

theorem splitCrlf_append {piece : List U8} (plain : ∀ b ∈ piece, b ≠ cr) (rest : List U8) :
    splitCrlf (piece ++ rest) = (splitCrlf rest).modifyHead (piece ++ ·) := by
  induction piece with
  | nil => exact (congrFun List.modifyHead_id _).symm
  | cons b piece ih =>
    rw [List.cons_append, splitCrlf_cons (plain b List.mem_cons_self),
      ih fun c hc => plain c (List.mem_cons_of_mem _ hc), List.modifyHead_modifyHead]
    rfl

/-! ## Lines that the handlers write -/

/-- A line as a handler writes it: its end is the only CRLF in it. -/
structure HandlerLine (content : List U8) : Prop where
  plain : ∀ b ∈ content, b ≠ 0 ∧ b ≠ cr ∧ b ≠ lf

def terminated (content : List U8) : List U8 := content ++ [cr, lf]

theorem HandlerLine.text {content : List U8} (h : HandlerLine content) :
    CString.text (terminated content) = terminated content := by
  refine text_of_ne_zero fun b hb => ?_
  rcases List.mem_append.mp hb with inside | ending
  · exact (h.plain b inside).1
  · rcases List.mem_pair.mp ending with rfl | rfl <;> decide

theorem HandlerLine.cut_of_fits {content : List U8} (h : HandlerLine content)
    (fits : (terminated content).length ≤ 79) : cut (terminated content) = terminated content := by
  rw [cut, h.text]
  exact List.take_of_length_le fits

/-- The host's view of lines that fit and of what follows them. -/
theorem HandlerLine.splitCrlf_fits {content : List U8} (h : HandlerLine content)
    (rest : List U8) : splitCrlf (terminated content ++ rest) = content :: splitCrlf rest := by
  rw [terminated, List.append_assoc, splitCrlf_append fun b hb => (h.plain b hb).2.1]
  show (splitCrlf (cr :: lf :: rest)).modifyHead (content ++ ·) = _
  rw [splitCrlf_crlf, List.modifyHead_cons, List.append_nil]

/-- A line that does not fit leaves no break behind, whatever follows but an LF. -/
theorem HandlerLine.splitCrlf_long {content : List U8} (h : HandlerLine content)
    (long : 79 < (terminated content).length) {rest : List U8} (next : rest.head? ≠ some lf) :
    (splitCrlf (cut (terminated content) ++ rest)).length = (splitCrlf rest).length := by
  have size : (terminated content).length = content.length + 2 := by simp [terminated]
  have short {n : Nat} : ∀ b ∈ content.take n, b ≠ cr := fun b hb =>
    (h.plain b (List.mem_of_mem_take hb)).2.1
  have kept : cut (terminated content) = (terminated content).take 79 := by rw [cut, h.text]; rfl
  rw [kept, terminated, List.take_append]
  rcases Nat.lt_or_ge 78 content.length with whole | edge
  · rw [Nat.sub_eq_zero_of_le (by omega), List.take_zero, List.append_nil, splitCrlf_append short,
      List.length_modifyHead]
  · have one : 79 - content.length = 1 := by omega
    rw [one, List.append_assoc, splitCrlf_append short, List.length_modifyHead]
    show (splitCrlf (cr :: rest)).length = _
    rw [splitCrlf_cr next, List.length_modifyHead]

theorem HandlerLine.head_cut {content : List U8} (h : HandlerLine content) (rest : List U8) :
    (cut (terminated content) ++ rest).head? ≠ some lf := by
  rw [cut, h.text]
  cases content with
  | nil => exact fun same => absurd (Option.some.inj same) (by decide)
  | cons b content =>
    exact fun same => (h.plain b List.mem_cons_self).2.2 (Option.some.inj same)

/-! ## The stream of many lines -/

/-- What is sent for lines of the given contents. -/
def wire (contents : List (List U8)) : List U8 := (contents.map terminated).flatMap cut

theorem wire_cons (content : List U8) (contents : List (List U8)) :
    wire (content :: contents) = cut (terminated content) ++ wire contents := rfl

theorem head_wire {contents : List (List U8)} (h : ∀ content ∈ contents, HandlerLine content) :
    (wire contents).head? ≠ some lf := by
  cases contents with
  | nil => exact fun same => by cases same
  | cons content contents =>
    rw [wire_cons]
    exact (h content List.mem_cons_self).head_cut _

/-- The host counts one break for each line that fits. -/
theorem length_splitCrlf_wire {contents : List (List U8)}
    (h : ∀ content ∈ contents, HandlerLine content) :
    (splitCrlf (wire contents)).length =
      contents.countP (fun content => (terminated content).length ≤ 79) + 1 := by
  induction contents with
  | nil => rfl
  | cons content contents ih =>
    have here := h content List.mem_cons_self
    have rest := ih fun c hc => h c (List.mem_cons_of_mem _ hc)
    rw [wire_cons]
    by_cases fits : (terminated content).length ≤ 79
    · rw [here.cut_of_fits fits, here.splitCrlf_fits, List.length_cons, rest,
        List.countP_cons_of_pos (by simpa using fits)]
    · rw [here.splitCrlf_long (by omega) (head_wire fun c hc => h c (List.mem_cons_of_mem _ hc)),
        rest, List.countP_cons_of_neg (by simpa using fits)]

theorem splitCrlf_wire {contents : List (List U8)}
    (h : ∀ content ∈ contents, HandlerLine content)
    (fits : ∀ content ∈ contents, (terminated content).length ≤ 79) :
    splitCrlf (wire contents) = contents ++ [[]] := by
  induction contents with
  | nil => rfl
  | cons content contents ih =>
    have here := h content List.mem_cons_self
    rw [wire_cons, here.cut_of_fits (fits content List.mem_cons_self), here.splitCrlf_fits,
      ih (fun c hc => h c (List.mem_cons_of_mem _ hc))
        fun c hc => fits c (List.mem_cons_of_mem _ hc), List.cons_append]

/-- Split at CRLF, the stream has one line for each line written, in order, each a
prefix of it, and nothing after the last CRLF. -/
def Framed (lines : List (List U8)) (stream : List U8) : Prop :=
  List.Forall₂ (· <+: ·) (splitCrlf stream).dropLast lines ∧
    (splitCrlf stream).getLast? = some []

instance (lines : List (List U8)) (stream : List U8) : Decidable (Framed lines stream) :=
  inferInstanceAs (Decidable (List.Forall₂ (· <+: ·) (splitCrlf stream).dropLast lines ∧
    (splitCrlf stream).getLast? = some []))

theorem framed_wire_iff {contents : List (List U8)}
    (h : ∀ content ∈ contents, HandlerLine content) :
    Framed (contents.map terminated) (wire contents) ↔
      ∀ content ∈ contents, (terminated content).length ≤ 79 := by
  constructor
  · intro framed
    have same := framed.1.length_eq
    rw [List.length_dropLast, length_splitCrlf_wire h, Nat.add_sub_cancel, List.length_map] at same
    simpa using List.countP_eq_length.mp same
  · intro fits
    rw [Framed, splitCrlf_wire h fits, List.dropLast_concat, List.getLast?_concat]
    refine ⟨?_, rfl⟩
    rw [List.forall₂_map_right_iff, List.forall₂_same]
    exact fun content _ => List.prefix_append content [cr, lf]

/-! ## From calls to the stream -/

def OutEffect.sends : OutEffect → List U8
  | .sent bytes => bytes
  | _ => []

/-- The bytes given to `tud_cdc_write`. -/
def sent (effects : List OutEffect) : List U8 := effects.flatMap OutEffect.sends

/-- A connected host is sent what is taken. -/
theorem sent_step {e : OutEvent} (connected : e ≠ .consume false) (s : Output) :
    sent (output.step s e).2 = (taken (output.step s e).2).flatten := by
  have writes (line : List U8) : sent (s.write line).2 = (taken (s.write line).2).flatten := by
    unfold Output.write
    split <;> rfl
  cases e with
  | writeLine _ line => exact writes line
  | printf _ formatted => exact writes (cut formatted)
  | consume on =>
    cases on with
    | false => exact absurd rfl connected
    | true =>
      show sent (s.consume true).2 = (taken (s.consume true).2).flatten
      unfold Output.consume
      split
      · rfl
      · simp [sent, taken, OutEffect.sends, OutEffect.takes]

theorem sent_eq_taken {events : List OutEvent} (connected : ∀ e ∈ events, e ≠ .consume false)
    (s : Output) : sent (output.trace s events) = (taken (output.trace s events)).flatten := by
  induction events generalizing s with
  | nil => rfl
  | cons e events ih =>
    have first := sent_step (connected e List.mem_cons_self) s
    have later := ih (fun e' h => connected e' (List.mem_cons_of_mem _ h)) (output.step s e).1
    rw [sent, taken] at first later ⊢
    rw [Machine.trace_cons, List.flatMap_append, List.flatMap_append, first, later,
      List.flatten_append]

def OutEffect.Dropped : OutEffect → Prop
  | .dropped _ => True
  | _ => False

instance : DecidablePred OutEffect.Dropped := fun effect => by
  cases effect <;> unfold OutEffect.Dropped <;> infer_instance

/-- A write that is not dropped is accepted. -/
theorem accepted_step {e : OutEvent} {s : Output}
    (kept : ∀ effect ∈ (output.step s e).2, ¬ effect.Dropped) :
    accepted (output.step s e).2 = e.written.toList := by
  have writes {line : List U8} (kept : ∀ effect ∈ (s.write line).2, ¬ effect.Dropped) :
      accepted (s.write line).2 = [line] := by
    unfold Output.write at kept ⊢
    cases room : s.ring.room usbOutRingLines with
    | true => rfl
    | false => exact absurd trivial (kept (.dropped line) (by simp [room]))
  cases e with
  | writeLine _ line => exact writes kept
  | printf _ formatted => exact writes kept
  | consume connected => exact s.accepted_consume connected

theorem accepted_eq_written {events : List OutEvent} {s : Output}
    (kept : ∀ effect ∈ output.trace s events, ¬ effect.Dropped) :
    accepted (output.trace s events) = events.filterMap OutEvent.written := by
  induction events generalizing s with
  | nil => rfl
  | cons e events ih =>
    have first : accepted (output.step s e).2 = e.written.toList :=
      accepted_step fun effect inside => kept effect (List.mem_append_left _ inside)
    have later := ih (s := (output.step s e).1) fun effect inside =>
      kept effect (List.mem_append_right _ inside)
    rw [accepted] at first later ⊢
    rw [Machine.trace_cons, List.flatMap_append, first, later]
    cases e <;> rfl

/-- A run of calls that write handler lines, none of them dropped, all of it sent to a
connected host. -/
structure Delivery (s : Output) (contents : List (List U8)) (events : List OutEvent) : Prop where
  fresh : s.Fresh
  written : events.filterMap OutEvent.written = contents.map terminated
  formed : ∀ content ∈ contents, HandlerLine content
  kept : ∀ effect ∈ output.trace s events, ¬ effect.Dropped
  connected : ∀ e ∈ events, e ≠ .consume false
  drained : (output.final s events).queued = []

theorem Delivery.sent_eq_wire {s : Output} {contents : List (List U8)} {events : List OutEvent}
    (d : Delivery s contents events) : sent (output.trace s events) = wire contents := by
  have conserved := d.fresh.ok.conserved events
  rw [d.fresh.queued, d.drained, List.append_nil, List.nil_append, accepted_eq_written d.kept,
    d.written] at conserved
  rw [sent_eq_taken d.connected, ← conserved, wire, List.flatMap]

/-- The host sees one line for each line written, a prefix of it, exactly if every
line fits a slot together with its CRLF. -/
theorem host_framing_iff {s : Output} {contents : List (List U8)} {events : List OutEvent}
    (d : Delivery s contents events) :
    Framed (contents.map terminated) (sent (output.trace s events)) ↔
      ∀ content ∈ contents, (terminated content).length ≤ 79 := by
  rw [d.sent_eq_wire]
  exact framed_wire_iff d.formed

/-- The lines of `cmd_help`. -/
def cmdHelp : List (List U8) :=
  [ "Commands:\r\n"
  , "  HELP               print commands\r\n"
  , "  STATUS             firmware state\r\n"
  , "  RESET              assert MSX /RESET 100ms\r\n"
  , "  DUMP $AAAA         hex dump 256B of ROM\r\n"
  , "  RAILS              ADC rail voltages\r\n"
  , "  UPDATE             enter USB bootloader\r\n"
  , "  EMU OFF            disable ROM emulator drive (passive monitor; power-cycle to re-enable)\r\n"
  , "  PINS               1s connectivity probe (each MSX-bus pin: T/H/L)\r\n"
  , "  ALOG [N|RESET|DEBUG]  /SLTSL capture log (no arg: status; N: slot; RESET: re-arm; DEBUG: pipeline state)\r\n"
  , "  BOOT               run passive boot diagnostic; prints last report\r\n"
  , "  DASH               live dashboard snapshot\r\n" ].map ascii

/-- HELP, and then the consumer until everything is sent. -/
def helpRun : List OutEvent :=
  cmdHelp.map (.writeLine .core0) ++ List.replicate 24 (.consume true)

def helpContents : List (List U8) := cmdHelp.map fun line => line.dropLast.dropLast

theorem handlerLine_of_printable {content : List U8} (h : Printable content) :
    HandlerLine content := by
  refine ⟨fun b inside => ⟨h.nonzero b inside, ?_, ?_⟩⟩
  · rintro rfl
    exact absurd (h cr inside) (by decide)
  · rintro rfl
    exact absurd (h lf inside) (by decide)

/-- A literal that is printable up to its CRLF. -/
theorem handlerLine_ascii {chars : List Char} (h : printableChars chars.dropLast.dropLast = true) :
    HandlerLine (ascii (String.ofList chars)).dropLast.dropLast := by
  refine handlerLine_of_printable ?_
  have content := printable_ascii h
  rwa [ascii_ofList, List.map_dropLast, List.map_dropLast, ← ascii_ofList] at content

theorem helpContents_formed : ∀ content ∈ helpContents, HandlerLine content := by
  unfold helpContents cmdHelp
  simp only [List.map_cons, List.map_nil, List.forall_mem_cons, List.not_mem_nil, false_imp_iff,
    implies_true, and_true]
  refine ⟨?_, ?_, ?_, ?_, ?_, ?_, ?_, ?_, ?_, ?_, ?_, ?_⟩ <;> exact handlerLine_ascii rfl

/-- A literal that ends in CRLF. -/
theorem terminated_ascii {chars : List Char} (h : chars.dropLast.dropLast ++ ['\r', '\n'] = chars) :
    terminated (ascii (String.ofList chars)).dropLast.dropLast = ascii (String.ofList chars) := by
  rw [ascii_ofList, ← List.map_dropLast, ← List.map_dropLast, terminated]
  conv_rhs => rw [← h, List.map_append]
  rfl

theorem help_written : helpRun.filterMap OutEvent.written = helpContents.map terminated := by
  have ends : ∀ line ∈ cmdHelp, terminated line.dropLast.dropLast = line := by
    unfold cmdHelp
    simp only [List.map_cons, List.map_nil, List.forall_mem_cons, List.not_mem_nil, false_imp_iff,
      implies_true, and_true]
    refine ⟨?_, ?_, ?_, ?_, ?_, ?_, ?_, ?_, ?_, ?_, ?_, ?_⟩ <;> exact terminated_ascii rfl
  have writes (lines : List (List U8)) :
      (lines.map (OutEvent.writeLine .core0)).filterMap OutEvent.written = lines := by
    rw [List.filterMap_map]
    exact List.filterMap_some
  have same : helpContents.map terminated = cmdHelp := by
    rw [helpContents, List.map_map]
    exact (List.map_congr_left ends).trans (List.map_id _)
  rw [same, helpRun, List.filterMap_append, writes]
  exact List.append_nil _

theorem help_delivery : Delivery Output.initial helpContents helpRun where
  fresh := Output.initial_fresh
  written := help_written
  formed := helpContents_formed
  kept := by decide +kernel
  connected := by decide +kernel
  drained := by decide +kernel

theorem help_runs_together :
    Delivery Output.initial helpContents helpRun ∧
      ¬ Framed (helpContents.map terminated) (sent (output.trace Output.initial helpRun)) :=
  ⟨help_delivery, by
    rw [help_delivery.sent_eq_wire, framed_wire_iff help_delivery.formed]
    decide +kernel⟩

theorem host_framing_iff_help :
    Framed (helpContents.map terminated) (sent (output.trace Output.initial helpRun)) ↔
      ∀ content ∈ helpContents, (terminated content).length ≤ 79 :=
  host_framing_iff help_delivery

end MsxPulse.Firmware.UsbSerial
