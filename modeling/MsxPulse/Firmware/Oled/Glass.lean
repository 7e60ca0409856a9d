import MsxPulse.Firmware.Oled.Panel
import MsxPulse.Firmware.Ui.Readable
import MsxPulse.Firmware.Ui.ResultsReadable

/-!
# On the glass (main.c, oled.c)

The main loop with its framebuffer, and the module at the other end of the bus, which is not
scrolling. Between any two iterations it shows the page that the last refresh has drawn.
-/

namespace MsxPulse.Firmware

open Library Library.CString Oled

/-- The switch of `oled_refresh`, over a cleared framebuffer. -/
def Ui.page (u : Ui) (v : UiView) : DisplayState → Framebuffer
  | .boot => Oled.draw fbClear renderBoot
  | .firmwareUpdate => renderFirmwareUpdate fbClear
  | _ => u.draw v fbClear

/-- `oled_refresh` -/
def OledStatics.refresh (o : OledStatics) (page : Framebuffer) : OledStatics × List I2cWrite :=
  if o.present then ({ o with fb := page }, flush o.addr page) else (o, [])

/-- The loop with the statics of oled.c and `rail_snap`, and the module. -/
structure Glass where
  loop : MainLoop
  rails : RailSnapshot
  oled : OledStatics
  chip : Ssd1306

/-- An iteration: the voltages of a poll, and what a refresh reads when it comes to it. -/
structure GlassInput where
  main : MainInput
  v5 : Volts
  v12 : Volts
  vm12 : Volts
  refreshMs : U32
  probe : BusProbeSnapshot
  locals : Ui.Locals
  stbuf : CharArray 16

/-- What a refresh has drawn. -/
structure Refresh where
  display : DisplayState
  ui : Ui
  view : UiView

namespace Refresh

variable (r : Refresh)

def page : Framebuffer := r.ui.page r.view r.display

/-- The texts of the page. Outside the results they are as they are meant, whatever the line
arrays hold. -/
def texts : List Puts :=
  if r.ui.diagView = .results then Ui.resultsTexts r.view.locals r.view.diag.result r.ui.diagPage
  else Ui.texts .exact r.ui r.view

/-- Row 7 of the results is the footer's. -/
def Due (c : Puts) : Prop := r.ui.diagView = .results → c.page ≠ 7 ∨ c = Ui.resultsFooter

end Refresh

namespace GlassInput

variable (i : GlassInput)

def rails : RailSnapshot := ⟨i.main.rails, i.v5, i.v12, i.vm12⟩

def view (rails : RailSnapshot) (diag : BootDiag) : UiView :=
  ⟨i.refreshMs, rails, i.probe, diag, i.locals, i.stbuf⟩

end GlassInput

namespace MainLoop

/-- The iteration up to the refresh. -/
def beforeOled (s : MainLoop) (i : MainInput) : MainLoop :=
  (((s.tick i).railsTurn i).btnTurn i).command i

theorem body_beforeOled (s : MainLoop) (i : MainInput) :
    s.body i = (s.beforeOled i).oledTurn i := rfl

section Kept

variable {s : MainLoop} {i : MainInput}

theorem beforeOled_display (monitoring : s.displayState = .monitoring)
    (returns : i.isUpdate = false) : (s.beforeOled i).displayState = .monitoring := by
  unfold beforeOled
  rw [railsTurn_eq, btnTurn_eq _ _ (by exact monitoring)]
  unfold command
  rw [returns]
  exact monitoring

theorem beforeOled_halted (monitoring : s.displayState = .monitoring) (running : s.halted = false) :
    (s.beforeOled i).halted = i.isUpdate := by
  unfold beforeOled
  rw [railsTurn_eq, btnTurn_eq _ _ (by exact monitoring)]
  unfold command
  cases i.isUpdate with
  | true => rfl
  | false => exact running

end Kept

end MainLoop

/-! ## The page of the carousel -/

section PageIdx

variable {u : Ui} (inside : u.pageIdx < Ui.nPages) (e : BtnEvent)

include inside

theorem Ui.handleResults_pageIdx : (u.handleResults e).pageIdx < nPages := by
  cases e with
  | none => exact inside
  | up => simp only [handleResults]; split <;> exact inside
  | down => simp only [handleResults]; split <;> exact inside
  | select => exact Nat.zero_lt_succ 4

theorem Ui.handleSettings_pageIdx : (u.handleSettings e).1.pageIdx < nPages := by
  cases e with
  | none => exact inside
  | up => simp only [handleSettings]; split <;> exact inside
  | down => simp only [handleSettings]; split <;> exact inside
  | select => simp only [handleSettings]; split <;> exact inside

theorem Ui.handleCarousel_pageIdx : (u.handleCarousel e).pageIdx < nPages := by
  cases e with
  | none => exact inside
  | up =>
    simp only [handleCarousel]
    split
    · exact Nat.lt_of_le_of_lt (Nat.sub_le _ 1) inside
    · exact inside
  | down =>
    simp only [handleCarousel]
    split
    next more => exact more
    next => exact inside
  | select => simp only [handleCarousel]; split <;> exact inside

theorem Ui.handleBtn_pageIdx : (u.handleBtn e).1.pageIdx < nPages := by
  unfold handleBtn
  split_ifs
  · exact inside
  · exact inside
  · exact handleResults_pageIdx inside e
  · exact handleSettings_pageIdx inside e
  · exact handleCarousel_pageIdx inside e

end PageIdx

theorem Ui.Loop.step_pageIdx {m : Ui.Loop} (inside : m.ui.pageIdx < nPages) (it : Ui.Iteration) :
    (Ui.Loop.machine.step m it).1.ui.pageIdx < nPages := by
  have pressed := Ui.handleBtn_pageIdx inside it.btn
  have booted : (m.beforeRender it).ui.pageIdx < nPages := by
    unfold beforeRender boot
    split
    · exact pressed
    · exact pressed
  show ((m.beforeRender it).render it).ui.pageIdx < nPages
  unfold render Ui.render
  split_ifs
  · exact booted
  · exact booted
  · exact booted

namespace Glass

/-- One iteration; the module is at the address `own`. -/
def step (own : U8) (s : Glass) (i : GlassInput) : Glass × List Refresh :=
  if s.loop.halted then (s, [])
  else
    let before := s.loop.beforeOled i.main
    let loop := before.oledTurn i.main
    let rails := if s.loop.railsDue i.main then i.rails else s.rails
    if before.halted = false ∧ before.oledDue i.main then
      let drawn : Refresh := ⟨before.displayState, loop.menu.ui, i.view rails loop.menu.diag⟩
      let sent := s.oled.refresh drawn.page
      (⟨loop, rails, sent.1, deliver own s.chip sent.2⟩, [drawn])
    else (⟨loop, rails, s.oled, s.chip⟩, [])

def machine (own : U8) : Machine Glass GlassInput Refresh := ⟨step own⟩

/-- Where the loop begins, after `oled_init`; `zero` is what the zeroed `rail_snap` holds. -/
def initial (own : U8) (acks : Nat → U8 → Bool) (chip : Ssd1306) (zero : Volts) (now : Nat) :
    Glass :=
  let found := Oled.init acks
  ⟨.initial found.1.present now, ⟨⟨0#8, 0#8, 0#8⟩, zero, zero, zero⟩, found.1,
    deliver own chip found.2⟩

/-- The page that was drawn last. -/
def lastPage (past : List Refresh) : Framebuffer := past.getLast?.elim fbClear Refresh.page

/-! ## Along a run -/

/-- The module shows the last page, and every page has been drawn from sound data. -/
structure Lit (own : U8) (past : List Refresh) (s : Glass) : Prop where
  monitoring : s.loop.halted = false → s.loop.displayState = .monitoring
  pageIdx : s.loop.menu.ui.pageIdx < Ui.nPages
  rails : s.rails.Short
  present : s.oled.present = true
  addr : s.oled.addr = own
  shows : Shows s.chip (lastPage past)
  display : ∀ r ∈ past, r.display = .monitoring
  sound : ∀ r ∈ past, Ui.Sound r.ui r.view

theorem initial_lit {acks : Nat → U8 → Bool} {own : U8} (panel : Found acks own) {chip : Ssd1306}
    (between : chip.pending = []) {zero : Volts} (small : zero.Short 12) (now : Nat) :
    Lit own [] (initial own acks chip zero now) := by
  obtain ⟨statics, shows_⟩ := init_found panel between
  have present : (Oled.init acks).1.present = true := by rw [statics]
  have addr : (Oled.init acks).1.addr = own := by rw [statics]
  exact ⟨fun _ => rfl, Nat.zero_lt_succ 4, ⟨small, small, small⟩, present, addr, shows_,
    fun r none => absurd none List.not_mem_nil, fun r none => absurd none List.not_mem_nil⟩

section Step

variable {own : U8} {past : List Refresh} {s : Glass} {i : GlassInput}

theorem Lit.polled (h : Lit own past s) (short : i.rails.Short) :
    (if s.loop.railsDue i.main then i.rails else s.rails).Short := by
  split
  · exact short
  · exact h.rails

/-- The loop has a page of the carousel, and is halted unless it monitors. -/
theorem Lit.body (h : Lit own past s) (running : s.loop.halted = false) :
    ((s.loop.body i.main).halted = false → (s.loop.body i.main).displayState = .monitoring) ∧
      (s.loop.body i.main).menu.ui.pageIdx < Ui.nPages := by
  rw [MainLoop.body_eq _ _ (h.monitoring running) running]
  constructor
  · intro returns
    exact if_neg (Bool.eq_false_iff.mp returns)
  · exact Ui.Loop.step_pageIdx h.pageIdx _

theorem Lit.step (h : Lit own past s) (short : i.rails.Short) :
    Lit own (past ++ ((machine own).step s i).2) ((machine own).step s i).1 := by
  show Lit own (past ++ (Glass.step own s i).2) (Glass.step own s i).1
  unfold Glass.step
  by_cases halted : s.loop.halted = true
  · rw [if_pos halted, List.append_nil]
    exact h
  · have running : s.loop.halted = false := Bool.eq_false_iff.mpr halted
    obtain ⟨monitors, page⟩ := h.body (i := i) running
    have polled := h.polled short
    rw [if_neg halted]
    dsimp only
    rw [← MainLoop.body_beforeOled]
    by_cases refreshed :
        (s.loop.beforeOled i.main).halted = false ∧ (s.loop.beforeOled i.main).oledDue i.main
    · rw [if_pos refreshed]
      have returns : i.main.isUpdate = false :=
        (MainLoop.beforeOled_halted (h.monitoring running) running).symm.trans refreshed.1
      have display := MainLoop.beforeOled_display (h.monitoring running) returns
      generalize drawn : (⟨(s.loop.beforeOled i.main).displayState, (s.loop.body i.main).menu.ui,
        i.view _ (s.loop.body i.main).menu.diag⟩ : Refresh) = r
      have sent : s.oled.refresh r.page = ({ s.oled with fb := r.page }, flush own r.page) := by
        rw [OledStatics.refresh, if_pos h.present, ← h.addr]
      have last : lastPage (past ++ [r]) = r.page := by
        rw [lastPage, List.getLast?_concat]
        rfl
      rw [sent]
      refine ⟨monitors, page, polled, h.present, h.addr, ?_, ?_, ?_⟩
      · rw [last]
        exact flush_shows h.shows.ready r.page
      · refine List.forall_mem_append.mpr ⟨h.display, List.forall_mem_singleton.mpr ?_⟩
        rw [← drawn]
        exact display
      · refine List.forall_mem_append.mpr ⟨h.sound, List.forall_mem_singleton.mpr ?_⟩
        rw [← drawn]
        exact ⟨page, polled⟩
    · rw [if_neg refreshed, List.append_nil]
      exact ⟨monitors, page, polled, h.present, h.addr, h.shows, h.display, h.sound⟩

theorem Lit.run (h : Lit own past s) {inputs : List GlassInput}
    (short : ∀ i ∈ inputs, i.rails.Short) :
    Lit own (past ++ (machine own).trace s inputs) ((machine own).final s inputs) :=
  (machine own).history_invariant (fun _ i => i.rails.Short) (Lit own)
    (fun _ _ _ lit fits => lit.step fits) h ((machine own).along_of_forall s short)

end Step

end Glass

/-! ## What is read on the glass -/

namespace Oled

/-- Every character of the text is lit as `font5x7` has it, inside the display. -/
structure Puts.Printed (glass : Fin 128 → Fin 64 → Bool) (c : Puts) : Prop where
  inside : c.Inside
  glyphs : ∀ (i : Fin c.text.length) (j : Fin 5) (k : Fin 8) (x : Fin 128) (y : Fin 64),
    (x : Int) = c.x + charW * i + j → (y : Nat) = 8 * c.page + k →
      glass x y = ((glyph c.text[i]).getD j 0).getLsbD k

theorem Puts.Clear.printed {calls : List Puts} {c : Puts} (h : c.Clear calls) {chip : Ssd1306}
    {beneath : Framebuffer} (shows_ : Shows chip (draw beneath calls)) : c.Printed chip.lit where
  inside := h.inside
  glyphs i j k x y column row := by
    have page : c.page < 8 := h.inside.page
    rw [shows_.lit x ⟨c.page, page⟩ k y row,
      h.shows beneath i.isLt j.isLt (p := ⟨c.page, page⟩) rfl column]
    rfl

end Oled

/-- A page is its texts on what stands beneath them, and no text that is due is covered. -/
theorem Refresh.clear {r : Refresh} (sound : Ui.Sound r.ui r.view)
    (display : r.display = .monitoring) :
    (∃ beneath, r.page = Oled.draw beneath r.texts) ∧
      ∀ c ∈ r.texts, r.Due c → c.Clear r.texts := by
  unfold Refresh.page Refresh.texts Refresh.Due
  rw [display]
  by_cases results : r.ui.diagView = .results
  · rw [if_pos results]
    constructor
    · refine ⟨fbPutglyph fbClear 0 0 (if r.view.blink then hbFull else hbHollow), ?_⟩
      unfold Ui.page Ui.draw
      rw [results]
      rfl
    · exact fun c member due => Ui.results_clear _ _ _ member (due results)
  · rw [if_neg results]
    constructor
    · rw [← Ui.texts_exact sound]
      exact Ui.draw_eq_texts results fbClear
    · exact fun c member _ => (Ui.legible_texts sound).clear member

namespace Glass

/-- After `oled_init` and after each iteration the module shows the page of the last refresh, or
nothing before the first one. It is a page of the menu or of a round, and each text that is due
can be read in full. -/
theorem glass_shows_lastPage {acks : Nat → U8 → Bool} {own : U8} (panel : Found acks own)
    {chip : Ssd1306} (between : chip.pending = []) {zero : Volts} (small : zero.Short 12)
    (now : Nat) {inputs : List GlassInput} (short : ∀ i ∈ inputs, i.rails.Short) :
    let start := initial own acks chip zero now
    let glass := ((machine own).final start inputs).chip.lit
    let past := (machine own).trace start inputs
    (∀ (x : Fin 128) (p k : Fin 8) (y : Fin 64), (y : Nat) = 8 * p + k →
      glass x y = (lastPage past p x).getLsbD k) ∧
    ∀ r, past.getLast? = some r → r.display = .monitoring ∧
      ∀ c ∈ r.texts, r.Due c → c.Printed glass := by
  intro start glass past
  have lit : Lit own past ((machine own).final start inputs) :=
    (initial_lit panel between small now).run short
  refine ⟨lit.shows.lit, fun r last => ?_⟩
  have member : r ∈ past := List.mem_of_getLast? last
  obtain ⟨⟨beneath, page⟩, clear⟩ := Refresh.clear (lit.sound r member) (lit.display r member)
  have shows_ : Shows ((machine own).final start inputs).chip (Oled.draw beneath r.texts) := by
    have shown := lit.shows
    rwa [lastPage, last, Option.elim_some, page] at shown
  exact ⟨lit.display r member, fun c inside due => (clear c inside due).printed shows_⟩

/-- A module that has just been powered: its RAM holds anything. -/
def powered : Ssd1306 where
  ram _ _ := 0x55#8
  config := ⟨false, false, false, false, false, false, 0#6, 0#6, 63#6⟩
  window := { Ssd1306.whole with addressing := .page }
  col := Ssd1306.whole.colStart
  page := Ssd1306.whole.pageStart
  pending := []

/-- 0.0 as the rails page prints it. -/
def zeroVolts : Volts := ⟨fun _ _ => ascii "  0.00"⟩

/-- An idle iteration 100 ms after boot. -/
def firstTurn : GlassInput where
  main := ⟨100, BusProbe.unpublished, .reset, .reset, ⟨0#8, 0#8, 0#8⟩, .none, none⟩
  v5 := zeroVolts
  v12 := zeroVolts
  vm12 := zeroVolts
  refreshMs := 100#32
  probe := BusProbe.unpublished
  locals :=
    ⟨⟨List.replicate 22 0#8, List.length_replicate⟩, ⟨List.replicate 22 0#8, List.length_replicate⟩,
      ⟨List.replicate 400 0#8, List.length_replicate⟩, ⟨List.replicate 22 0#8, List.length_replicate⟩,
      ⟨List.replicate 8 0#8, List.length_replicate⟩⟩
  stbuf := ⟨List.replicate 16 0#8, List.length_replicate⟩

theorem zeroVolts_short : zeroVolts.Short 12 := fun _ _ _ _ => sized_literal rfl (by decide)

theorem glass_shows_lastPage_firstTurn :
    Puts.Printed ((machine 0x3C#8).final
      (initial 0x3C#8 (fun _ addr => addr = 0x3C#8) powered zeroVolts 50) [firstTurn]).chip.lit
      ⟨0, 2 * charW, ascii "watching"⟩ := by
  have panel : Found (fun _ addr => addr = 0x3C#8) 0x3C#8 :=
    ⟨.inl rfl, fun _ _ => of_decide_eq_true, 0, by decide, by decide⟩
  have short : ∀ i ∈ [firstTurn], i.rails.Short :=
    List.forall_mem_singleton.mpr ⟨zeroVolts_short, zeroVolts_short, zeroVolts_short⟩
  obtain ⟨-, read⟩ := @glass_shows_lastPage _ _ panel powered rfl _ zeroVolts_short 50 _ short
  obtain ⟨-, texts⟩ := read ⟨.monitoring, .initial,
    firstTurn.view ⟨⟨0#8, 0#8, 0#8⟩, zeroVolts, zeroVolts, zeroVolts⟩ .initial⟩ rfl
  exact texts _ List.mem_cons_self (fun results => nomatch results)

end Glass

end MsxPulse.Firmware
