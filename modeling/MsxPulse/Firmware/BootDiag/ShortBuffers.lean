import MsxPulse.Firmware.BootDetect.Report
import MsxPulse.Firmware.BootDiag.ReportSize

/-!
# Reports in short buffers

Both reports are printed piece by piece with `appendf`, which keeps the offset inside the
buffer when a piece is cut. So a buffer of any size gets a prefix of the whole text, and
what is printed behind a cut has no effect.
-/

namespace MsxPulse.Firmware

open Library CString

/-- A buffer of one byte or more holds what fits of the text, ended by a NUL, and behind it what
it held before; the length returned is that of what fits. A piece that is cut leaves the
pieces behind it without effect. -/
theorem reports_held (mem : List U8) (some : 0 < mem.length) :
    (∀ s : BootDetect, (s.formatReport mem).HoldsPrefix mem s.fullReport ∧
        ∀ first rest, s.reportPieces = first ++ rest → mem.length ≤ first.flatten.length →
          s.formatReport mem = first.foldl PrintBuf.appendf ⟨mem, 0⟩) ∧
      ∀ r : BootDiagResult, (r.possibleCauses mem).HoldsPrefix mem r.fullCauses ∧
        ∀ first rest, r.hints = first ++ rest → mem.length ≤ first.flatten.length →
          r.possibleCauses mem = first.foldl PrintBuf.appendf ⟨mem.set 0 0, 0⟩ :=
  ⟨fun s => ⟨(s.formatReport_wrote some).holdsPrefix some s.fullReport_nonzero,
      fun _ _ split cut => s.formatReport_cut some split cut⟩,
    fun r => ⟨(r.possibleCauses_wrote some).holdsPrefix some r.fullCauses_nonzero,
      fun _ _ split cut => r.possibleCauses_cut some split cut⟩⟩

/-- Nothing drives the bus, and the opcode at the first checkpoint is wrong. -/
def undriven : BootDiagResult :=
  { BootDiag.initial.result with busUndriven := true, cpFailed := 1#8 }

/-- One byte gets the empty string of either. Forty cut the detector's report inside its second
piece and these causes inside their first. -/
theorem reports_held_cut :
    (BootDetect.reset.formatReport [0xFF#8]).HoldsPrefix [0xFF#8] BootDetect.reset.fullReport ∧
      (undriven.possibleCauses [0xFF#8]).HoldsPrefix [0xFF#8] undriven.fullCauses ∧
      BootDetect.reset.formatReport (List.replicate 40 0xFF#8) =
        (BootDetect.reset.reportPieces.take 2).foldl PrintBuf.appendf
          ⟨List.replicate 40 0xFF#8, 0⟩ ∧
      undriven.possibleCauses (List.replicate 40 0xFF#8) =
        (undriven.hints.take 1).foldl PrintBuf.appendf ⟨0#8 :: List.replicate 39 0xFF#8, 0⟩ ∧
      text (undriven.possibleCauses (List.replicate 40 0xFF#8)).mem =
        ascii "bus not driven - BIOS ROM / /CS / decod" :=
  have report := reports_held (List.replicate 40 0xFF#8) (by decide)
  ⟨((reports_held [0xFF#8] (by decide)).1 BootDetect.reset).1,
    ((reports_held [0xFF#8] (by decide)).2 undriven).1,
    (report.1 BootDetect.reset).2 _ _ (List.take_append_drop 2 _).symm (by decide +kernel),
    (report.2 undriven).2 _ _ (List.take_append_drop 1 _).symm (by decide +kernel),
    by decide +kernel⟩

end MsxPulse.Firmware
