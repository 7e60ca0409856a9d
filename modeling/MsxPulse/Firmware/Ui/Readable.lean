import MsxPulse.Firmware.Ui.Screen

/-!
# What the screens say

No text of the carousel, the settings or the progress page is cut, and none covers another
one.
-/

namespace MsxPulse.Firmware

open Library Library.CString Oled

namespace Ui

/-- The texts of a screen that is not the results. -/
def texts (f : Lines) (u : Ui) (v : UiView) : List Puts :=
  if u.diagView = .progress then ⟨0, 2 * charW, ascii "DIAGNOSTIC"⟩ :: renderDiagProgress f v
  else
    ⟨0, 2 * charW, f.status (statusText u v)⟩ :: (topRightIndicator f u ++
      (if u.level = .settings then renderSettings f u else carouselTexts f v u.pageIdx) ++
      settingsFooter u)

/-- A page that there is, and voltages that fit its lines. -/
structure Sound (u : Ui) (v : UiView) : Prop where
  page : u.pageIdx < nPages
  rails : v.rails.Short

/-! ## The rule of the first page -/

theorem draw_hline {fb : Framebuffer} {page : Fin 8} {calls : List Puts}
    (elsewhere : ∀ c ∈ calls, c.page ≠ page) :
    fbHline (Oled.draw fb calls) page = Oled.draw (fbHline fb page) calls := by
  funext p
  by_cases here : p = page
  · subst here
    rw [draw_other elsewhere]
    funext q
    simp only [fbHline, if_true]
  · have same : fbHline fb page p = fb p := by
      funext q
      exact if_neg here
    rw [draw_row same]
    funext q
    exact if_neg here

variable {u : Ui} {v : UiView}

theorem topRight_page (f : Lines) : ∀ c ∈ topRightIndicator f u, c.page = 0 := by
  unfold topRightIndicator
  cases u.level <;> simp

/-- A screen is its texts on what stands beneath them. -/
theorem draw_eq_texts (other : u.diagView ≠ .results) (fb : Framebuffer) :
    ∃ beneath, u.draw v fb = Oled.draw beneath (texts v.lines u v) := by
  unfold Ui.draw texts
  cases view : u.diagView with
  | results => exact absurd view other
  | progress => exact ⟨_, rfl⟩
  | none =>
    have menu : ¬UiDiagView.none = .progress := by decide
    rw [if_neg menu]
    unfold renderMenu
    dsimp only
    by_cases settings : u.level = .settings
    · rw [if_pos settings, if_pos settings, ← draw_append, ← draw_append]
      exact ⟨_, by rw [List.cons_append, List.append_assoc]⟩
    · rw [if_neg settings, if_neg settings, renderPage]
      by_cases first : u.pageIdx = 0
      · rw [if_pos first, draw_hline, ← draw_append, ← draw_append]
        · exact ⟨_, by rw [List.cons_append, List.append_assoc]⟩
        · refine List.forall_mem_cons.mpr ⟨Nat.zero_ne_one, fun c member => ?_⟩
          rw [topRight_page v.lines c member]
          decide
      · rw [if_neg first, ← draw_append, ← draw_append]
        exact ⟨_, by rw [List.cons_append, List.append_assoc]⟩

/-! ## Nothing is cut -/

theorem row_exact {s : List U8} (fits : Sized 21 s) : v.lines.row s = s :=
  (v.locals.row_eq fits.printable.nonzero).trans (List.take_of_length_le fits.length)

theorem status_exact {s : List U8} (fits : Sized 15 s) : v.lines.status s = s :=
  (v.stbuf.text_snprintf (by decide) fits.printable.nonzero).trans
    (List.take_of_length_le fits.length)

theorem indicator_exact {s : List U8} (fits : Sized 7 s) : v.lines.indicator s = s :=
  (v.locals.ind.text_snprintf (by decide) fits.printable.nonzero).trans
    (List.take_of_length_le fits.length)

theorem sized_statusText : Sized 11 (statusText u v) := by
  unfold statusText
  refine sized_ite (sized_literal rfl (by decide)) (sized_ite (sized_literal rfl (by decide))
    (sized_ite (sized_literal rfl (by decide)) (sized_literal rfl (by decide))))

theorem sized_page (inside : u.pageIdx < nPages) :
    Sized 3 (decimal u.pageIdx ++ ascii "/" ++ decimal (nPages - 1)) := by
  have first : Sized 1 (decimal u.pageIdx) :=
    sized_decimal (by decide) (Nat.lt_trans inside (by decide))
  have last : Sized 1 (decimal (nPages - 1)) := sized_decimal (by decide) (by decide)
  exact Sized.le ((first.append (sized_ascii rfl)).append last) (by decide)

theorem sized_volts {label : List U8} (title : Sized 7 label) {volts : Volts}
    (short : volts.Short 12) : Sized 21 (label ++ volts.fmt 6 2 ++ ascii " V") := by
  have number := short 6 (by decide) 2 (by decide)
  exact Sized.le ((title.append number).append (sized_ascii rfl)) (by decide)

theorem sized_resetWord (r : ResetStatus) : Sized 12 (resetWord r) := by
  cases r <;> exact sized_literal rfl (by decide)

theorem sized_twoDigits {n : Nat} (small : n < 100) : Sized 2 (twoDigits n) := by
  have number : Sized 2 (decimal n) := sized_decimal (by decide) small
  refine ⟨Printable.append (fun b inside => ?_) number.printable, ?_⟩
  · rw [List.eq_of_mem_replicate inside]
    decide
  · have short := number.length
    rw [twoDigits, List.length_append, List.length_replicate]
    omega

theorem sized_clk : Sized 21 (ascii "CLK : " ++ decimal (v.probe.clkHz.toNat / 1000000) ++
    ascii "." ++ twoDigits (v.probe.clkHz.toNat / 10000 % 100) ++ ascii " MHz") := by
  have range := v.probe.clkHz.isLt
  have megahertz : Sized 4 (decimal (v.probe.clkHz.toNat / 1000000)) :=
    sized_decimal (by decide) (by omega)
  have fraction := sized_twoDigits (Nat.mod_lt (v.probe.clkHz.toNat / 10000) (by decide : 100 > 0))
  exact Sized.le (((((sized_ascii rfl).append megahertz).append (sized_ascii rfl)).append
    fraction).append (sized_ascii rfl)) (by decide)

theorem sized_lineGlyph (s : LineState) : Sized 1 [lineGlyph s] :=
  sized_singleton (by cases s <;> decide)

theorem sized_ctrlField {name : List U8} (short : Sized 5 name) (line : CtrlLine) :
    Sized 7 (ctrlField v name line) := by
  have field : Sized 5 (name ++ List.replicate (5 - name.length) blank) := by
    refine ⟨short.printable.append fun b inside => ?_, ?_⟩
    · rw [List.eq_of_mem_replicate inside]
      exact BitVec.le_refl blank
    · have length := short.length
      rw [List.length_append, List.length_replicate]
      omega
  exact Sized.le ((field.append (sized_ascii rfl)).append (sized_lineGlyph _)) (by decide)

theorem sized_ctrlFields {name name' : List U8} (short : Sized 5 name) (short' : Sized 5 name')
    (line line' : CtrlLine) :
    Sized 21 (ctrlField v name line ++ ascii "   " ++ ctrlField v name' line') := by
  have gap : Sized 3 (ascii "   ") := sized_literal rfl (by decide)
  exact Sized.le (((sized_ctrlField short line).append gap).append (sized_ctrlField short' line'))
    (by decide)

theorem sized_glyphs {n : Nat} (f : Fin n → LineState) :
    Sized n (List.ofFn fun i => lineGlyph (f i)) := Sized.ofFn fun i => sized_lineGlyph (f i)

theorem sized_phaseText (phase : BootDiagPhase) : Sized 14 (phaseText phase) := by
  cases phase <;> exact sized_literal rfl (by decide)

theorem sized_pass : Sized 21 (ascii "Pass " ++ decimal v.diag.currentPass.toNat ++ ascii "/" ++
    decimal BootDiag.maxPasses.toNat) := by
  have pass : Sized 3 (decimal v.diag.currentPass.toNat) :=
    sized_decimal (by decide) (Nat.lt_trans v.diag.currentPass.isLt (by decide))
  have passes : Sized 1 (decimal BootDiag.maxPasses.toNat) := sized_decimal (by decide) (by decide)
  exact Sized.le ((((sized_ascii rfl).append pass).append (sized_ascii rfl)).append passes) (by decide)

theorem sized_setting {label : List U8} (short : Sized 20 label) (marked : Prop)
    [Decidable marked] : Sized 21 ((if marked then byteOf '>' else blank) :: label) := by
  have mark : Sized 1 [if marked then byteOf '>' else blank] := by
    refine sized_singleton ?_
    split
    · decide
    · exact BitVec.le_refl blank
  exact mark.append short

/-- The line arrays hold every formatted string whole. -/
theorem texts_exact (sound : Sound u v) : texts v.lines u v = texts .exact u v := by
  have clk : clkLine v.lines v = clkLine .exact v := by
    unfold clkLine
    dsimp only
    split
    · rfl
    · exact row_exact sized_clk
  have rst : v.lines.row (ascii "RST : " ++ resetWord v.probe.reset) = _ :=
    row_exact (Sized.le ((sized_ascii rfl).append (sized_resetWord _)) (by decide))
  have pages : carouselTexts v.lines v u.pageIdx = carouselTexts .exact v u.pageIdx := by
    unfold carouselTexts renderRails renderClkrst renderControl
    rw [row_exact (sized_volts (sized_literal rfl (by decide)) sound.rails.v5),
      row_exact (sized_volts (sized_literal rfl (by decide)) sound.rails.v12),
      row_exact (sized_volts (sized_literal rfl (by decide)) sound.rails.vm12), clk, rst,
      row_exact (sized_ctrlFields (sized_literal rfl (by decide)) (sized_literal rfl (by decide)) _ _),
      row_exact (sized_ctrlFields (sized_literal rfl (by decide)) (sized_literal rfl (by decide)) _ _),
      row_exact (sized_ctrlFields (sized_literal rfl (by decide)) (sized_literal rfl (by decide)) _ _),
      row_exact ((sized_ctrlField (sized_literal rfl (by decide)) _).le (by decide))]
    rfl
  have indicator : topRightIndicator v.lines u = topRightIndicator .exact u := by
    unfold topRightIndicator
    cases u.level with
    | detail =>
      dsimp only
      rw [indicator_exact ((sized_page sound.page).le (by decide))]
      rfl
    | main => rfl
    | settings => rfl
  have settings : renderSettings v.lines u = renderSettings .exact u := by
    unfold renderSettings settingsLabels
    simp only [List.mapIdx_cons, List.mapIdx_nil]
    rw [row_exact (sized_setting (sized_literal rfl (by decide)) _),
      row_exact (sized_setting (sized_literal rfl (by decide)) _)]
    rfl
  have progress : renderDiagProgress v.lines v = renderDiagProgress .exact v := by
    unfold renderDiagProgress
    rw [row_exact sized_pass]
    rfl
  unfold texts
  rw [progress, indicator, settings, pages, status_exact (sized_statusText.le (by decide))]
  rfl

/-! ## Nothing is covered -/

theorem within_sized {page : Nat} {x : Int} {s : List U8} {n : Nat} (short : Sized n s) :
    Puts.Within ⟨page, x, s⟩ (box page x n) := within_box short.length

/-- The places of the texts of a carousel page. -/
def pageBoxes : Nat → List Puts
  | 0 => [box 2 0 21, box 3 0 21, box 4 0 21, box 7 0 15]
  | 1 => [box 2 0 21, box 4 0 21]
  | 2 => [box 1 0 21, box 2 0 21, box 3 0 21, box 4 0 21, box 7 0 17]
  | 3 => [box 2 0 6, box 2 42 8, box 3 0 6, box 3 42 8, box 7 0 17]
  | _ => [box 2 0 6, box 2 42 8, box 6 0 14, box 7 0 17]

theorem within_key : Puts.Within glyphKey (box 7 0 17) := by
  refine within_sized ?_
  exact sized_literal rfl (by decide)

theorem within_rails (sound : Sound u v) :
    List.Forall₂ Puts.Within (renderRails .exact v) (pageBoxes 0) := by
  refine .cons (within_sized ?_) (.cons (within_sized ?_) (.cons (within_sized ?_)
    (.cons (within_sized ?_) .nil)))
  · exact sized_volts (sized_literal rfl (by decide)) sound.rails.v5
  · exact sized_volts (sized_literal rfl (by decide)) sound.rails.v12
  · exact sized_volts (sized_literal rfl (by decide)) sound.rails.vm12
  · exact sized_literal rfl (by decide)

theorem within_clkrst : List.Forall₂ Puts.Within (renderClkrst .exact v) (pageBoxes 1) := by
  refine .cons (within_sized ?_) (.cons (within_sized ?_) .nil)
  · unfold clkLine
    dsimp only
    split
    · exact sized_literal rfl (by decide)
    · exact sized_clk
  · exact Sized.le ((sized_ascii rfl).append (sized_resetWord _)) (by decide)

theorem within_control : List.Forall₂ Puts.Within (renderControl .exact v) (pageBoxes 2) := by
  refine .cons (within_sized ?_) (.cons (within_sized ?_) (.cons (within_sized ?_)
    (.cons (within_sized ?_) (.cons within_key .nil))))
  · exact sized_ctrlFields (sized_literal rfl (by decide)) (sized_literal rfl (by decide)) _ _
  · exact sized_ctrlFields (sized_literal rfl (by decide)) (sized_literal rfl (by decide)) _ _
  · exact sized_ctrlFields (sized_literal rfl (by decide)) (sized_literal rfl (by decide)) _ _
  · exact (sized_ctrlField (sized_literal rfl (by decide)) _).le (by decide)

theorem within_address : List.Forall₂ Puts.Within (renderAddress v) (pageBoxes 3) := by
  refine .cons (within_sized ?_) (.cons (within_sized ?_) (.cons (within_sized ?_)
    (.cons (within_sized ?_) (.cons within_key .nil))))
  · exact sized_literal rfl (by decide)
  · exact sized_glyphs _
  · exact sized_literal rfl (by decide)
  · exact sized_glyphs _

theorem within_data : List.Forall₂ Puts.Within (renderData v) (pageBoxes 4) := by
  refine .cons (within_sized ?_) (.cons (within_sized ?_) (.cons (within_sized ?_)
    (.cons within_key .nil)))
  · exact sized_literal rfl (by decide)
  · exact sized_glyphs _
  · exact sized_literal rfl (by decide)

theorem within_page (sound : Sound u v) :
    List.Forall₂ Puts.Within (carouselTexts .exact v u.pageIdx) (pageBoxes u.pageIdx) := by
  generalize u.pageIdx = page
  match page with
  | 0 => exact within_rails sound
  | 1 => exact within_clkrst
  | 2 => exact within_control
  | 3 => exact within_address
  | _ + 4 => exact within_data

theorem within_progress : List.Forall₂ Puts.Within
    (⟨0, 2 * charW, ascii "DIAGNOSTIC"⟩ :: renderDiagProgress .exact v)
    [box 0 12 10, box 2 0 15, box 4 0 21, box 5 0 14, box 7 0 20] := by
  refine .cons (within_sized ?_) (.cons (within_sized ?_) (.cons (within_sized ?_)
    (.cons (within_sized ?_) (.cons (within_sized ?_) .nil))))
  · exact sized_literal rfl (by decide)
  · exact sized_literal rfl (by decide)
  · exact sized_pass
  · exact sized_phaseText _
  · exact sized_literal rfl (by decide)

theorem within_settings :
    List.Forall₂ Puts.Within (renderSettings .exact u) [box 5 0 21, box 6 0 21] := by
  refine .cons (within_sized ?_) (.cons (within_sized ?_) .nil)
  · exact sized_setting (sized_literal rfl (by decide)) _
  · exact sized_setting (sized_literal rfl (by decide)) _

/-- A page of the carousel, with two texts in row 0. -/
theorem legible_pages : ∀ page, Legible (box 0 12 11 :: box 0 104 4 :: pageBoxes page)
  | 0 => ⟨by decide, by decide⟩
  | 1 => ⟨by decide, by decide⟩
  | 2 => ⟨by decide, by decide⟩
  | 3 => ⟨by decide, by decide⟩
  | n + 4 => by
    have data : pageBoxes (n + 4) = pageBoxes 4 := rfl
    rw [data]
    exact ⟨by decide, by decide⟩

theorem legible_settings :
    Legible [box 0 12 11, box 5 0 21, box 6 0 21, box 7 4 20] := ⟨by decide, by decide⟩

theorem within_main : Puts.Within ⟨0, width - 4 * charW, ascii "MAIN"⟩ (box 0 104 4) := by
  refine within_sized ?_
  exact sized_literal rfl (by decide)

/-- The number of the page ends at the right edge. -/
theorem within_detail {line : List U8} (short : line.length ≤ 3) : Puts.Within
    (let x := width - line.length * charW
     ⟨0, if x < 0 then 0 else x, line⟩) (box 0 104 4) := by
  have positive : ¬ width - line.length * charW < 0 := by
    unfold width charW
    omega
  dsimp only
  rw [if_neg positive]
  refine ⟨rfl, ?_, ?_⟩
  · unfold box width charW
    dsimp only
    omega
  · unfold Puts.right box width charW
    dsimp only
    rw [List.length_replicate]
    omega

theorem within_footer : Puts.Within (centered 7 (ascii "up/dn  hold sel=back")) (box 7 4 20) := by
  have long : (ascii "up/dn  hold sel=back").length = 20 := length_ascii rfl
  unfold centered
  rw [long]
  exact within_box (Nat.le_of_eq long)

/-- Every text of the screen stands in columns of its own. -/
theorem legible_texts (sound : Sound u v) : Legible (texts .exact u v) := by
  unfold texts
  by_cases progress : u.diagView = .progress
  · rw [if_pos progress]
    exact legible_of_within within_progress ⟨by decide, by decide⟩
  · rw [if_neg progress]
    have status : Puts.Within ⟨0, 2 * charW, statusText u v⟩ (box 0 12 11) :=
      within_sized sized_statusText
    have page := within_page sound
    unfold topRightIndicator settingsFooter
    cases level : u.level with
    | main =>
      have dashboard : ¬UiLevel.main = .settings := by decide
      rw [if_neg dashboard, if_neg dashboard, List.append_nil]
      exact legible_of_within (.cons status (.cons within_main page)) (legible_pages u.pageIdx)
    | detail =>
      have dashboard : ¬UiLevel.detail = .settings := by decide
      rw [if_neg dashboard, if_neg dashboard, List.append_nil]
      exact legible_of_within
        (.cons status (.cons (within_detail (sized_page sound.page).length) page))
        (legible_pages u.pageIdx)
    | settings =>
      rw [if_pos rfl, if_pos rfl, List.nil_append]
      exact legible_of_within
        (.cons status (List.rel_append within_settings (.cons within_footer .nil)))
        legible_settings

end Ui

end MsxPulse.Firmware
