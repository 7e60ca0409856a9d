import MsxPulse.Firmware.Oled.Legible
import MsxPulse.Firmware.Ui.ResultsRows

/-!
# What a page of the results says

The rows of a page stand below its title and each other, and only the footer, in row 7, is
drawn over one of them.
-/

namespace MsxPulse.Firmware.Ui

open Library Library.CString Oled

/-- Rows of the display below the title, from the left edge on. -/
structure Rows (calls : List Puts) : Prop where
  left : ∀ c ∈ calls, c.x = 0
  width : ∀ c ∈ calls, c.text.length ≤ 21
  within : ∀ c ∈ calls, 1 ≤ c.page ∧ c.page ≤ 7
  increasing : (calls.map Puts.page).Pairwise (· < ·)

theorem rows_place {texts : List (List U8)} (few : texts.length ≤ 7)
    (short : ∀ t ∈ texts, t.length ≤ 21) : Rows (place 1 texts) where
  left c member := (mem_place member).1
  width c member := short c.text (mem_place member).2
  within c member := by
    have inside := page_of_mem_place member
    omega
  increasing := by
    rw [place_pages]
    exact List.pairwise_lt_range'

variable {l : Locals} {r : BootDiagResult}

theorem length_row (l : Locals) (s : List U8) : (l.row s).length ≤ 21 :=
  l.line.length_text_snprintf (by decide) s

/-! ## The renderers -/

theorem summary_rows : Rows (renderDiagSummary l r) := by
  refine rows_place (show 5 ≤ 7 by decide) ?_
  have boot : (bootText l r).length ≤ 21 := by
    unfold bootText
    split
    · exact (length_ascii rfl).trans_le (by decide)
    · split
      · exact (length_ascii rfl).trans_le (by decide)
      · exact length_row l _
  simp only [List.forall_mem_cons, List.not_mem_nil, false_imp_iff, implies_true, and_true]
  exact ⟨length_row l _, length_row l _, length_row l _, length_row l _, boot⟩

theorem width_ite {c : Prop} [Decidable c] {first second : List (List U8)}
    (h : ∀ t ∈ first, t.length ≤ 21) (h' : ∀ t ∈ second, t.length ≤ 21) :
    ∀ t ∈ (if c then first else second), t.length ≤ 21 := by
  split
  · exact h
  · exact h'

theorem width_busRows : ∀ t ∈ busRows l r, t.length ≤ 21 := by
  have none : ∀ t ∈ ([] : List (List U8)), t.length ≤ 21 := by simp
  have row (s : List U8) : ∀ t ∈ [l.row s], t.length ≤ 21 :=
    List.forall_mem_singleton.mpr (length_row l s)
  have undriven : ∀ t ∈ [ascii "bus not driven"], t.length ≤ 21 :=
    List.forall_mem_singleton.mpr ((length_ascii rfl).trans_le (by decide))
  unfold busRows
  simp only [List.forall_mem_append]
  exact ⟨⟨⟨⟨width_ite none (row _), width_ite none (row _)⟩, width_ite none (row _)⟩,
    width_ite undriven none⟩, width_ite none (row _)⟩

theorem bus_rows : Rows (renderDiagBus l r) := by
  unfold renderDiagBus
  split
  · exact rows_place (Nat.le_trans (length_busRows l r) (by decide)) width_busRows
  · split <;> exact ⟨by decide, by decide, by decide, by decide⟩

theorem length_anomaly (a : BootAnomaly) : a.name.length ≤ 21 := by
  cases a <;> exact (length_ascii rfl).trans_le (by decide)

theorem anomalies_rows : Rows (renderDiagAnomalies r) := by
  unfold renderDiagAnomalies
  split
  · exact ⟨by decide, by decide, by decide, by decide⟩
  · refine rows_place (List.length_take_le 7 _) fun t taken => ?_
    obtain ⟨a, -, rfl⟩ := List.mem_map.mp (List.mem_of_mem_take taken)
    exact length_anomaly a

theorem phases_rows {lo hi : Nat}
    (few : (BootPhase.all.filter fun p => lo ≤ p.index ∧ p.index ≤ hi).length ≤ 7) :
    Rows (renderDiagPhasesRange l r lo hi) := by
  refine rows_place (by rwa [List.length_map]) ?_
  rw [List.forall_mem_map]
  exact fun p _ => length_row l _

theorem causes_rows : Rows (renderDiagCauses l r) := by
  rw [renderDiagCauses, wrapRows_eq l.wrap _ (by decide), placeRows]
  refine rows_place ?_ ?_
  · rw [List.length_map]
    exact List.length_take_le 7 _
  · rw [List.forall_mem_map]
    intro row taken
    refine Wrap.layout_width ?_ row (List.mem_of_mem_take taken)
    simp only [List.forall_mem_map]
    exact fun ws _ w _ => List.length_take_le 21 w

theorem page_rows : ∀ page, Rows (renderDiagPage l r page)
  | 0 => summary_rows
  | 1 => bus_rows
  | 2 => anomalies_rows
  | 3 => phases_rows (by decide)
  | 4 => phases_rows (by decide)
  | _ + 5 => causes_rows

/-! ## The whole page -/

/-- The calls of `ui_render` in the view of the results. -/
def resultsTexts (l : Locals) (r : BootDiagResult) (page : Nat) : List Puts :=
  resultsTitle l page ++ renderDiagPage l r page ++ [resultsFooter]

theorem length_title (page : Nat) : (titles.getD page []).length ≤ 10 := by
  match page with
  | 0 | 1 | 2 | 3 | 4 | 5 => exact (length_ascii rfl).trans_le (by decide)
  | _ + 6 => exact Nat.zero_le 10

/-- The title and the number of the page, with their ends. -/
theorem titles_clear (l : Locals) (page : Nat) :
    Legible (resultsTitle l page) ∧ ∀ c ∈ resultsTitle l page, c.page = 0 := by
  have title := length_title page
  have number := l.ind.length_text_snprintf (by decide)
    (decimal (page + 1) ++ ascii "/" ++ decimal nDiagPages)
  unfold resultsTitle
  dsimp only
  generalize (l.ind.snprintf (decimal (page + 1) ++ ascii "/" ++ decimal nDiagPages)).text = ind
    at number
  generalize titles.getD page [] = name at title
  have positive : ¬ width - ind.length * charW < 0 := by
    unfold width charW
    omega
  rw [if_neg positive]
  have first : Puts.Within ⟨0, 2 * charW, name⟩ (box 0 12 10) := within_box title
  have second : Puts.Within ⟨0, width - ind.length * charW, ind⟩ (box 0 86 7) := by
    refine ⟨rfl, ?_, ?_⟩
    · unfold box width charW
      dsimp only
      omega
    · unfold Puts.right box width charW
      dsimp only
      rw [List.length_replicate]
      omega
  refine ⟨legible_of_within (.cons first (.cons second .nil)) ⟨by decide, by decide⟩, ?_⟩
  simp

theorem Rows.inside {calls : List Puts} (h : Rows calls) {c : Puts} (member : c ∈ calls) :
    c.Inside where
  page := Nat.lt_succ_of_le (h.within c member).2
  left := Int.le_of_eq (h.left c member).symm
  right := by
    have start := h.left c member
    have short := h.width c member
    unfold Puts.right Oled.width charW
    omega

theorem Rows.apart {calls : List Puts} (h : Rows calls) : calls.Pairwise Puts.Apart :=
  (List.pairwise_map.mp h.increasing).imp fun before => .inl (Nat.ne_of_lt before)

/-- Every text outside row 7 can be read in full, and so can the footer, which is in it. -/
theorem results_clear (l : Locals) (r : BootDiagResult) (page : Nat) {c : Puts}
    (member : c ∈ resultsTexts l r page) (free : c.page ≠ 7 ∨ c = resultsFooter) :
    c.Clear (resultsTexts l r page) := by
  have rows := page_rows (l := l) (r := r) page
  obtain ⟨title, top⟩ := titles_clear l page
  have upper : Legible (resultsTitle l page ++ renderDiagPage l r page) := by
    refine ⟨?_, List.pairwise_append.mpr ⟨title.apart, rows.apart, fun a above b below => ?_⟩⟩
    · exact List.forall_mem_append.mpr ⟨title.inside, fun b below => rows.inside below⟩
    · have lower := (rows.within b below).1
      refine .inl ?_
      rw [top a above]
      exact Nat.ne_of_lt lower
  have footer : c = resultsFooter → c.Clear (resultsTexts l r page) := by
    rintro rfl
    refine ⟨⟨by decide, by decide, by decide⟩, _, [], rfl, ?_⟩
    exact fun d none => absurd none List.not_mem_nil
  rcases free with free | last
  · rcases List.mem_append.mp member with above | last
    · obtain ⟨inside, before, after, split, apart⟩ := upper.clear above
      refine ⟨inside, before, after ++ [resultsFooter], ?_, ?_⟩
      · rw [resultsTexts, split, List.append_assoc, List.cons_append]
      · exact List.forall_mem_append.mpr ⟨apart, List.forall_mem_singleton.mpr (.inl free)⟩
    · exact footer (List.mem_singleton.mp last)
  · exact footer last

end MsxPulse.Firmware.Ui
