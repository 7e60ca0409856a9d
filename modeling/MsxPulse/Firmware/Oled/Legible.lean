import Mathlib.Data.List.Forall2
import MsxPulse.Firmware.Oled
import MsxPulse.Library.TextSize

/-!
# Pages that can be read

Calls of `fb_puts` whose texts have room and columns of their own leave every character's
glyph in the framebuffer, whatever is drawn before or between.
-/

namespace MsxPulse.Firmware.Oled

open Library

/-- The column behind the text and its last gap. -/
def Puts.right (c : Puts) : Int := c.x + charW * c.text.length

/-- Their texts stand side by side or in different rows. -/
def Puts.Apart (c d : Puts) : Prop := c.page ≠ d.page ∨ c.right ≤ d.x ∨ d.right ≤ c.x

instance (c d : Puts) : Decidable (c.Apart d) := inferInstanceAs (Decidable (_ ∨ _ ∨ _))

/-- The text is inside the display. -/
structure Puts.Inside (c : Puts) : Prop where
  page : c.page < 8
  left : 0 ≤ c.x
  right : c.right ≤ width

instance (c : Puts) : Decidable c.Inside :=
  decidable_of_iff (c.page < 8 ∧ 0 ≤ c.x ∧ c.right ≤ width)
    ⟨fun h => ⟨h.1, h.2.1, h.2.2⟩, fun h => ⟨h.page, h.left, h.right⟩⟩

structure Legible (calls : List Puts) : Prop where
  inside : ∀ c ∈ calls, c.Inside
  apart : calls.Pairwise Puts.Apart

/-! ## By the places of the texts -/

/-- Room for `n` characters. -/
def box (page : Nat) (x : Int) (n : Nat) : Puts := ⟨page, x, List.replicate n 0#8⟩

/-- A text in a place with room for it. -/
structure Puts.Within (c b : Puts) : Prop where
  page : c.page = b.page
  left : b.x ≤ c.x
  right : c.right ≤ b.right

theorem within_box {page : Nat} {x : Int} {s : List U8} {n : Nat} (short : s.length ≤ n) :
    Puts.Within ⟨page, x, s⟩ (box page x n) := by
  refine ⟨rfl, Int.le_refl x, ?_⟩
  unfold Puts.right box charW
  dsimp only
  rw [List.length_replicate]
  omega

theorem Puts.Within.inside {c b : Puts} (h : c.Within b) (inside : b.Inside) : c.Inside where
  page := h.page ▸ inside.page
  left := Int.le_trans inside.left h.left
  right := Int.le_trans h.right inside.right

theorem Puts.Within.apart {c d b e : Puts} (hc : c.Within b) (hd : d.Within e) (apart : b.Apart e) :
    c.Apart d := by
  rcases apart with other | before | behind
  · exact .inl (hc.page ▸ hd.page ▸ other)
  · exact .inr (.inl (Int.le_trans hc.right (Int.le_trans before hd.left)))
  · exact .inr (.inr (Int.le_trans hd.right (Int.le_trans behind hc.left)))

theorem exists_box {calls boxes : List Puts} (within : List.Forall₂ Puts.Within calls boxes)
    {c : Puts} (member : c ∈ calls) : ∃ b ∈ boxes, c.Within b := by
  induction within with
  | nil => cases member
  | cons first rest ih =>
    rcases List.mem_cons.mp member with rfl | later
    · exact ⟨_, List.mem_cons_self, first⟩
    · obtain ⟨b, inside, within⟩ := ih later
      exact ⟨b, List.mem_cons_of_mem _ inside, within⟩

theorem legible_of_within {calls boxes : List Puts} (within : List.Forall₂ Puts.Within calls boxes)
    (h : Legible boxes) : Legible calls := by
  induction within with
  | nil => exact h
  | cons first rest ih =>
    obtain ⟨inside, apart⟩ := h
    rw [List.forall_mem_cons] at inside
    rw [List.pairwise_cons] at apart
    have later := ih ⟨inside.2, apart.2⟩
    refine ⟨List.forall_mem_cons.mpr ⟨first.inside inside.1, later.inside⟩,
      List.pairwise_cons.mpr ⟨fun d member => ?_, later.apart⟩⟩
    obtain ⟨e, box, within⟩ := exists_box rest member
    exact first.apart within (apart.1 e box)

section Draw

/-- A row is drawn from what it was. -/
theorem fbPutglyph_row {fb fb' : Framebuffer} {p : Fin 8} (same : fb p = fb' p) (page x : Int)
    (g : List U8) : fbPutglyph fb page x g p = fbPutglyph fb' page x g p := by
  unfold fbPutglyph
  split
  · exact same
  · split
    · exact same
    · funext q
      dsimp only
      rw [congrFun same q]

theorem fbPuts_row {fb fb' : Framebuffer} {p : Fin 8} (same : fb p = fb' p) (page x : Int)
    (s : List U8) : fbPuts fb page x s p = fbPuts fb' page x s p := by
  induction s generalizing fb fb' x with
  | nil => exact same
  | cons c s ih =>
    unfold fbPuts
    split
    · exact ih (fbPutglyph_row same page x (glyph c)) (x + charW)
    · exact same

theorem draw_row {fb fb' : Framebuffer} {p : Fin 8} (same : fb p = fb' p) (calls : List Puts) :
    draw fb calls p = draw fb' calls p := by
  induction calls generalizing fb fb' with
  | nil => exact same
  | cons c calls ih => exact ih (fbPuts_row same c.page c.x c.text)

/-- A text changes nothing in the columns behind it. -/
theorem fbPuts_behind {x : Int} {s : List U8} {q : Fin 128} (behind : x + charW * s.length ≤ q)
    (fb : Framebuffer) (page : Int) (p : Fin 8) : fbPuts fb page x s p q = fb p q := by
  unfold charW at behind
  induction s generalizing fb x with
  | nil => rfl
  | cons c s ih =>
    rw [List.length_cons] at behind
    push_cast at behind
    unfold fbPuts charW
    split
    · rw [ih (by omega), fbPutchar, fbPutglyph]
      split
      · rfl
      · split
        · rfl
        · show (if _ then _ else if _ then _ else if _ then _ else _) = _
          rw [if_neg (show ¬(x ≤ q ∧ (q : Int) < x + 5) by omega),
            if_neg (show ¬(q : Int) = x + 5 by omega), ite_self]
    · rfl

/-- A text changes nothing where another one is that it stands apart from. -/
theorem Puts.Apart.keeps {c d : Puts} (apart : c.Apart d) (fb : Framebuffer) {p : Fin 8}
    (page : (p : Nat) = c.page) {q : Fin 128} (left : c.x ≤ q) (right : (q : Int) < c.right) :
    fbPuts fb d.page d.x d.text p q = fb p q := by
  rcases apart with other | before | behind
  · have elsewhere : (p : Int) ≠ d.page := fun same => other (by omega)
    rw [fbPuts_other elsewhere]
  · exact fbPuts_before (by omega) fb d.page p d.text
  · have beyond : d.x + charW * d.text.length ≤ (q : Int) := by
      unfold Puts.right at behind
      omega
    exact fbPuts_behind beyond fb d.page p

theorem draw_keeps {c : Puts} {calls : List Puts} (apart : ∀ d ∈ calls, c.Apart d)
    (fb : Framebuffer) {p : Fin 8} (page : (p : Nat) = c.page) {q : Fin 128} (left : c.x ≤ q)
    (right : (q : Int) < c.right) : draw fb calls p q = fb p q := by
  induction calls generalizing fb with
  | nil => rfl
  | cons d calls ih =>
    rw [draw_cons, ih fun d' inside => apart d' (List.mem_cons_of_mem d inside)]
    exact (apart d List.mem_cons_self).keeps fb page left right

/-- Nothing that is drawn after the text covers it. -/
structure Puts.Clear (c : Puts) (calls : List Puts) : Prop where
  inside : c.Inside
  apart : ∃ before after, calls = before ++ c :: after ∧ ∀ d ∈ after, c.Apart d

theorem Legible.clear {calls : List Puts} (h : Legible calls) {c : Puts} (member : c ∈ calls) :
    c.Clear calls := by
  obtain ⟨before, after, rfl⟩ := List.append_of_mem member
  have behind := (List.pairwise_append.mp h.apart).2.1
  exact ⟨h.inside c member, before, after, rfl, (List.pairwise_cons.mp behind).1⟩

/-- Every character of the text has its glyph in the framebuffer. -/
theorem Puts.Clear.shows {calls : List Puts} {c : Puts} (h : c.Clear calls) (fb : Framebuffer)
    {i : Nat} (inside : i < c.text.length) {j : Nat} (col : j < 5) {p : Fin 8}
    (page : (p : Nat) = c.page) {q : Fin 128} (at_ : (q : Int) = c.x + charW * i + j) :
    draw fb calls p q = (glyph c.text[i]).getD j 0 := by
  obtain ⟨before, after, rfl, apart⟩ := h.apart
  obtain ⟨-, left, right⟩ := h.inside
  have room : c.x + charW * (i + 1) ≤ c.right := by
    unfold Puts.right charW
    omega
  have here : (q : Int) < c.right := by
    unfold charW at at_ room
    omega
  have from_ : c.x ≤ (q : Int) := by
    unfold charW at at_
    omega
  rw [draw_append, draw_cons, draw_keeps apart _ page from_ here, ← page]
  exact fbPuts_shows _ p left inside (Int.le_trans room right) col at_

end Draw

end MsxPulse.Firmware.Oled
