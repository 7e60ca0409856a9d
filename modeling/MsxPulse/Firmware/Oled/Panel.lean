import Mathlib.Data.List.GetD
import MsxPulse.Firmware.Oled
import MsxPulse.Library.Ssd1306

/-!
# The display on the I2C bus (oled.c)

The framebuffer goes to the SSD1306 as a whole: its window is set, and a transfer for each
page follows.
-/

namespace MsxPulse.Firmware

open Library

/-- A call of `i2c_write_blocking`. -/
structure I2cWrite where
  addr : U8
  bytes : List U8
  deriving DecidableEq

/-- The statics of oled.c, `display_state` apart. -/
structure OledStatics where
  addr : U8
  present : Bool
  fb : Framebuffer

namespace Oled

def fbClear : Framebuffer := fun _ _ => 0#8

/-- `oled_cmdn`: what does not fit the buffer is not sent. -/
def cmdn (addr : U8) (cmds : List U8) : List I2cWrite :=
  if cmds.length > 31 then [] else [⟨addr, 0x00#8 :: cmds⟩]

def addrSetup : List U8 := [0x21#8, 0#8, 127#8, 0x22#8, 0#8, 7#8]

/-- `oled_flush` -/
def flush (addr : U8) (fb : Framebuffer) : List I2cWrite :=
  cmdn addr addrSetup ++ (List.finRange 8).map fun pg => ⟨addr, 0x40#8 :: List.ofFn (fb pg)⟩

/-- `seq` of `oled_ssd1306_init` -/
def initSeq : List U8 :=
  [0xAE#8, 0xD5#8, 0x80#8, 0xA8#8, 0x3F#8, 0xD3#8, 0x00#8, 0x40#8, 0x8D#8, 0x14#8, 0x20#8, 0x00#8,
   0xA1#8, 0xC8#8, 0xDA#8, 0x12#8, 0x81#8, 0xCF#8, 0xD9#8, 0xF1#8, 0xDB#8, 0x40#8, 0xA4#8, 0xA6#8,
   0xAF#8]

/-- The twenty probes of `oled_init`: ten attempts at two addresses. -/
def probes : List (Nat × U8) :=
  (List.range 10).flatMap fun attempt => [(attempt, 0x3C#8), (attempt, 0x3D#8)]

/-- `oled_init` over zeroed statics; `acks` says which probe is answered. -/
def init (acks : Nat → U8 → Bool) : OledStatics × List I2cWrite :=
  match probes.find? fun probe => acks probe.1 probe.2 with
  | some (_, addr) => (⟨addr, true, fbClear⟩, cmdn addr initSeq ++ flush addr fbClear)
  | none => (⟨0#8, false, fbClear⟩, [])

/-! ## At the other end -/

/-- A module at an address takes what is meant for it. -/
def deliver (own : U8) (chip : Ssd1306) (writes : List I2cWrite) : Ssd1306 :=
  writes.foldl (fun chip w => if w.addr = own then chip.receive w.bytes else chip) chip

theorem deliver_append (own : U8) (chip : Ssd1306) (first second : List I2cWrite) :
    deliver own chip (first ++ second) = deliver own (deliver own chip first) second :=
  List.foldl_append

theorem deliver_own (own : U8) (chip : Ssd1306) (transfers : List (List U8)) :
    deliver own chip (transfers.map fun bytes => ⟨own, bytes⟩) =
      transfers.foldl Ssd1306.receive chip := by
  rw [deliver, List.foldl_map]
  simp only [if_true]

/-- The module shows its RAM upright and takes data row by row. -/
structure Ready (chip : Ssd1306) : Prop where
  config : chip.config = Ssd1306.upright
  addressing : chip.window.addressing = .horizontal
  pending : chip.pending = []

/-- The glass shows the framebuffer. -/
structure Shows (chip : Ssd1306) (fb : Framebuffer) : Prop where
  ready : Ready chip
  ram : chip.ram = fb

theorem Shows.lit {chip : Ssd1306} {fb : Framebuffer} (h : Shows chip fb) (x : Fin 128)
    (p k : Fin 8) (y : Fin 64) (at_ : (y : Nat) = 8 * p + k) :
    chip.lit x y = (fb p x).getLsbD k := by
  rw [Ssd1306.lit_upright h.ready.config x p k y at_, h.ram]

/-- `seq`, command by command. -/
def initCommands : List (List U8) :=
  [[0xAE#8], [0xD5#8, 0x80#8], [0xA8#8, 0x3F#8], [0xD3#8, 0x00#8], [0x40#8], [0x8D#8, 0x14#8],
   [0x20#8, 0x00#8], [0xA1#8], [0xC8#8], [0xDA#8, 0x12#8], [0x81#8, 0xCF#8], [0xD9#8, 0xF1#8],
   [0xDB#8, 0x40#8], [0xA4#8], [0xA6#8], [0xAF#8]]

/-- Whatever state the module was left in, unless amid a command or scrolling: `init` stops no
scroll. -/
theorem init_ready {own : U8} {chip : Ssd1306} (between : chip.pending = []) :
    Ready (deliver own chip (cmdn own initSeq)) := by
  have sent : deliver own chip (cmdn own initSeq) =
      initCommands.flatten.foldl Ssd1306.putCommand chip := if_pos rfl
  rw [sent, Ssd1306.commands_run between (by decide)]
  obtain ⟨ram, config, ⟨addressing, colStart, colEnd, pageStart, pageEnd⟩, col, page, pending⟩ := chip
  refine ⟨?_, ?_, ?_⟩
  · simp [initCommands, Ssd1306.exec, Ssd1306.single, Ssd1306.double, Ssd1306.upright]
  · simp [initCommands, Ssd1306.exec, Ssd1306.single, Ssd1306.double]
  · simpa [initCommands, Ssd1306.exec, Ssd1306.single, Ssd1306.double] using between

theorem setup_whole {own : U8} {chip : Ssd1306} (ready : Ready chip) :
    Ready (deliver own chip (cmdn own addrSetup)) ∧
      (deliver own chip (cmdn own addrSetup)).window = Ssd1306.whole ∧
      (deliver own chip (cmdn own addrSetup)).col = 0 ∧
      (deliver own chip (cmdn own addrSetup)).page = 0 := by
  have sent : deliver own chip (cmdn own addrSetup) =
      [[0x21#8, 0#8, 127#8], [0x22#8, 0#8, 7#8]].flatten.foldl Ssd1306.putCommand chip := if_pos rfl
  rw [sent, Ssd1306.commands_run ready.pending (by decide)]
  obtain ⟨ram, config, ⟨addressing, colStart, colEnd, pageStart, pageEnd⟩, col, page, pending⟩ := chip
  obtain ⟨rfl, rfl, rfl⟩ := ready
  exact ⟨⟨rfl, rfl, rfl⟩, rfl, rfl, rfl⟩

/-- A flush puts the framebuffer on the glass, wherever the pointers were. -/
theorem flush_shows {own : U8} {chip : Ssd1306} (ready : Ready chip) (fb : Framebuffer) :
    Shows (deliver own chip (flush own fb)) fb := by
  obtain ⟨still, window, col, page⟩ := @setup_whole own chip ready
  let transfers := (List.finRange 8).map fun pg => 0x40#8 :: List.ofFn (fb pg)
  have rows : ((List.finRange 8).map fun pg => (⟨own, 0x40#8 :: List.ofFn (fb pg)⟩ : I2cWrite)) =
      transfers.map fun bytes => ⟨own, bytes⟩ := by
    rw [List.map_map]
    rfl
  have consecutive : Ssd1306.Consecutive (deliver own chip (cmdn own addrSetup)).page
      (List.finRange 8) := by
    rw [page]
    decide
  obtain ⟨kept, ram⟩ := Ssd1306.rows_filled window col (fun pg => List.length_ofFn (f := fb pg))
    consecutive
  rw [flush, deliver_append, rows, deliver_own]
  refine ⟨⟨kept.config.trans still.config, ?_, kept.pending.trans still.pending⟩, ?_⟩
  · rw [kept.window]
    exact still.addressing
  · funext p q
    have inside : (q : Nat) < (List.ofFn (fb p)).length := by
      rw [List.length_ofFn]
      exact q.isLt
    rw [ram, if_pos (List.mem_finRange p), List.getD_eq_getElem _ _ inside, List.getElem_ofFn]

/-- The module is the only one on the bus, and answers one of the ten attempts. -/
structure Found (acks : Nat → U8 → Bool) (own : U8) : Prop where
  address : own = 0x3C#8 ∨ own = 0x3D#8
  alone : ∀ attempt addr, acks attempt addr = true → addr = own
  answers : ∃ attempt < 10, acks attempt own = true

/-- The module is blank when `oled_init` returns. -/
theorem init_found {acks : Nat → U8 → Bool} {own : U8} (panel : Found acks own) {chip : Ssd1306}
    (between : chip.pending = []) :
    (init acks).1 = ⟨own, true, fbClear⟩ ∧ Shows (deliver own chip (init acks).2) fbClear := by
  obtain ⟨attempt, few, answers⟩ := panel.answers
  have probe : (attempt, own) ∈ probes := by
    refine List.mem_flatMap.mpr ⟨attempt, List.mem_range.mpr few, ?_⟩
    rcases panel.address with rfl | rfl <;> simp
  have some : (probes.find? fun probe => acks probe.1 probe.2).isSome = true :=
    List.find?_isSome.mpr ⟨(attempt, own), probe, answers⟩
  obtain ⟨⟨n, addr⟩, found⟩ := Option.isSome_iff_exists.mp some
  have answered : acks n addr = true := by
    have holds := List.find?_some found
    exact holds
  obtain rfl := panel.alone n addr answered
  have done : init acks = (⟨addr, true, fbClear⟩, cmdn addr initSeq ++ flush addr fbClear) := by
    rw [init, found]
  rw [done, deliver_append]
  exact ⟨rfl, flush_shows (init_ready between) fbClear⟩

end Oled

end MsxPulse.Firmware
