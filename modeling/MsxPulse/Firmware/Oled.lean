import MsxPulse.Firmware.Types
import Mathlib.Tactic.Push

/-!
# The framebuffer of the display (oled.c)

The display has eight pages of 128 columns; a row of text is a page. A glyph takes five
columns and is followed by an empty one, so 21 characters have room in a row.
-/

namespace MsxPulse.Firmware

/-- `fb[OLED_PAGES][OLED_W]` -/
abbrev Framebuffer := Fin 8 → Fin 128 → U8

namespace Oled

/-- `OLED_PAGES` -/
def pages : Int := 8
/-- `OLED_W` -/
def width : Int := 128
/-- `CHAR_W` -/
def charW : Int := 6

/-- The glyphs of the characters from 0x20 to 0x7F. -/
def font5x7 : List (List U8) :=
  [[0x00, 0x00, 0x00, 0x00, 0x00], [0x00, 0x00, 0x5F, 0x00, 0x00], [0x00, 0x07, 0x00, 0x07, 0x00],
   [0x14, 0x7F, 0x14, 0x7F, 0x14], [0x24, 0x2A, 0x7F, 0x2A, 0x12], [0x23, 0x13, 0x08, 0x64, 0x62],
   [0x36, 0x49, 0x55, 0x22, 0x50], [0x00, 0x05, 0x03, 0x00, 0x00], [0x00, 0x1C, 0x22, 0x41, 0x00],
   [0x00, 0x41, 0x22, 0x1C, 0x00], [0x08, 0x2A, 0x1C, 0x2A, 0x08], [0x08, 0x08, 0x3E, 0x08, 0x08],
   [0x00, 0x50, 0x30, 0x00, 0x00], [0x08, 0x08, 0x08, 0x08, 0x08], [0x00, 0x60, 0x60, 0x00, 0x00],
   [0x20, 0x10, 0x08, 0x04, 0x02], [0x3E, 0x51, 0x49, 0x45, 0x3E], [0x00, 0x42, 0x7F, 0x40, 0x00],
   [0x42, 0x61, 0x51, 0x49, 0x46], [0x21, 0x41, 0x45, 0x4B, 0x31], [0x18, 0x14, 0x12, 0x7F, 0x10],
   [0x27, 0x45, 0x45, 0x45, 0x39], [0x3C, 0x4A, 0x49, 0x49, 0x30], [0x01, 0x71, 0x09, 0x05, 0x03],
   [0x36, 0x49, 0x49, 0x49, 0x36], [0x06, 0x49, 0x49, 0x29, 0x1E], [0x00, 0x36, 0x36, 0x00, 0x00],
   [0x00, 0x56, 0x36, 0x00, 0x00], [0x08, 0x14, 0x22, 0x41, 0x00], [0x14, 0x14, 0x14, 0x14, 0x14],
   [0x00, 0x41, 0x22, 0x14, 0x08], [0x02, 0x01, 0x51, 0x09, 0x06], [0x32, 0x49, 0x79, 0x41, 0x3E],
   [0x7E, 0x11, 0x11, 0x11, 0x7E], [0x7F, 0x49, 0x49, 0x49, 0x36], [0x3E, 0x41, 0x41, 0x41, 0x22],
   [0x7F, 0x41, 0x41, 0x22, 0x1C], [0x7F, 0x49, 0x49, 0x49, 0x41], [0x7F, 0x09, 0x09, 0x09, 0x01],
   [0x3E, 0x41, 0x49, 0x49, 0x7A], [0x7F, 0x08, 0x08, 0x08, 0x7F], [0x00, 0x41, 0x7F, 0x41, 0x00],
   [0x20, 0x40, 0x41, 0x3F, 0x01], [0x7F, 0x08, 0x14, 0x22, 0x41], [0x7F, 0x40, 0x40, 0x40, 0x40],
   [0x7F, 0x02, 0x0C, 0x02, 0x7F], [0x7F, 0x04, 0x08, 0x10, 0x7F], [0x3E, 0x41, 0x41, 0x41, 0x3E],
   [0x7F, 0x09, 0x09, 0x09, 0x06], [0x3E, 0x41, 0x51, 0x21, 0x5E], [0x7F, 0x09, 0x19, 0x29, 0x46],
   [0x46, 0x49, 0x49, 0x49, 0x31], [0x01, 0x01, 0x7F, 0x01, 0x01], [0x3F, 0x40, 0x40, 0x40, 0x3F],
   [0x1F, 0x20, 0x40, 0x20, 0x1F], [0x3F, 0x40, 0x38, 0x40, 0x3F], [0x63, 0x14, 0x08, 0x14, 0x63],
   [0x07, 0x08, 0x70, 0x08, 0x07], [0x61, 0x51, 0x49, 0x45, 0x43], [0x00, 0x7F, 0x41, 0x41, 0x00],
   [0x02, 0x04, 0x08, 0x10, 0x20], [0x00, 0x41, 0x41, 0x7F, 0x00], [0x04, 0x02, 0x01, 0x02, 0x04],
   [0x40, 0x40, 0x40, 0x40, 0x40], [0x00, 0x01, 0x02, 0x04, 0x00], [0x20, 0x54, 0x54, 0x54, 0x78],
   [0x7F, 0x48, 0x44, 0x44, 0x38], [0x38, 0x44, 0x44, 0x44, 0x20], [0x38, 0x44, 0x44, 0x48, 0x7F],
   [0x38, 0x54, 0x54, 0x54, 0x18], [0x08, 0x7E, 0x09, 0x01, 0x02], [0x0C, 0x52, 0x52, 0x52, 0x3E],
   [0x7F, 0x08, 0x04, 0x04, 0x78], [0x00, 0x44, 0x7D, 0x40, 0x00], [0x20, 0x40, 0x44, 0x3D, 0x00],
   [0x7F, 0x10, 0x28, 0x44, 0x00], [0x00, 0x41, 0x7F, 0x40, 0x00], [0x7C, 0x04, 0x18, 0x04, 0x78],
   [0x7C, 0x08, 0x04, 0x04, 0x78], [0x38, 0x44, 0x44, 0x44, 0x38], [0x7C, 0x14, 0x14, 0x14, 0x08],
   [0x08, 0x14, 0x14, 0x18, 0x7C], [0x7C, 0x08, 0x04, 0x04, 0x08], [0x48, 0x54, 0x54, 0x54, 0x20],
   [0x04, 0x3F, 0x44, 0x40, 0x20], [0x3C, 0x40, 0x40, 0x40, 0x7C], [0x1C, 0x20, 0x40, 0x20, 0x1C],
   [0x3C, 0x40, 0x30, 0x40, 0x3C], [0x44, 0x28, 0x10, 0x28, 0x44], [0x0C, 0x50, 0x50, 0x50, 0x3C],
   [0x44, 0x64, 0x54, 0x4C, 0x44], [0x00, 0x08, 0x36, 0x41, 0x00], [0x00, 0x00, 0x7F, 0x00, 0x00],
   [0x00, 0x41, 0x36, 0x08, 0x00], [0x08, 0x08, 0x2A, 0x1C, 0x08], [0x08, 0x1C, 0x2A, 0x08, 0x08]]

/-- The glyph of a character, or that of `?` if it has none. -/
def glyph (c : U8) : List U8 :=
  font5x7.getD ((if c < 0x20#8 ∨ c > 0x7F#8 then 0x3F#8 else c).toNat - 0x20) []

def hbFull : List U8 := [0x1C, 0x3E, 0x3E, 0x3E, 0x1C]
def hbHollow : List U8 := [0x1C, 0x22, 0x22, 0x22, 0x1C]

def fbPutglyph (fb : Framebuffer) (page x : Int) (g : List U8) : Framebuffer :=
  if page < 0 ∨ page ≥ pages then fb
  else if x < 0 ∨ x + 5 > width then fb
  else fun p q =>
    if (p : Int) ≠ page then fb p q
    else if x ≤ q ∧ q < x + 5 then g.getD (q - x).toNat 0
    else if q = x + 5 then 0
    else fb p q

def fbPutchar (fb : Framebuffer) (page x : Int) (c : U8) : Framebuffer :=
  fbPutglyph fb page x (glyph c)

def fbPuts (fb : Framebuffer) (page x : Int) : List U8 → Framebuffer
  | [] => fb
  | c :: s =>
    if x + charW ≤ width then fbPuts (fbPutchar fb page x c) page (x + charW) s else fb

/-- A call of `fb_puts`. -/
structure Puts where
  page : Nat
  x : Int
  text : List U8
  deriving DecidableEq

/-- Calls for texts in rows from `row` on. -/
def place (row : Nat) : List (List U8) → List Puts
  | [] => []
  | text :: rest => ⟨row, 0, text⟩ :: place (row + 1) rest

def draw (fb : Framebuffer) (calls : List Puts) : Framebuffer :=
  calls.foldl (fun fb c => fbPuts fb c.page c.x c.text) fb

@[simp] theorem draw_cons (fb : Framebuffer) (c : Puts) (calls : List Puts) :
    draw fb (c :: calls) = draw (fbPuts fb c.page c.x c.text) calls := rfl

theorem draw_append (fb : Framebuffer) (first second : List Puts) :
    draw fb (first ++ second) = draw (draw fb first) second := List.foldl_append

theorem place_append (row : Nat) (first second : List (List U8)) :
    place row (first ++ second) = place row first ++ place (row + first.length) second := by
  induction first generalizing row with
  | nil => rfl
  | cons text first ih =>
    rw [List.cons_append, place, ih, place, List.cons_append, List.length_cons, Nat.add_assoc,
      Nat.add_comm 1]

theorem place_pages (row : Nat) (texts : List (List U8)) :
    (place row texts).map Puts.page = List.range' row texts.length := by
  induction texts generalizing row with
  | nil => rfl
  | cons text rest ih => rw [place, List.map_cons, ih, List.length_cons, List.range'_succ]

theorem place_texts (row : Nat) (texts : List (List U8)) :
    (place row texts).map Puts.text = texts := by
  induction texts generalizing row with
  | nil => rfl
  | cons text rest ih => rw [place, List.map_cons, ih]

theorem mem_place {row : Nat} {texts : List (List U8)} {c : Puts} (h : c ∈ place row texts) :
    c.x = 0 ∧ c.text ∈ texts := by
  induction texts generalizing row with
  | nil => cases h
  | cons text rest ih =>
    rcases List.mem_cons.mp h with rfl | later
    · exact ⟨rfl, List.mem_cons_self⟩
    · obtain ⟨left, inside⟩ := ih later
      exact ⟨left, List.mem_cons_of_mem text inside⟩

theorem page_of_mem_place {row : Nat} {texts : List (List U8)} {c : Puts} (h : c ∈ place row texts) :
    row ≤ c.page ∧ c.page < row + texts.length := by
  have inside := List.mem_map_of_mem (f := Puts.page) h
  rwa [place_pages, List.mem_range'_1] at inside

/-! ## What is not written -/

theorem fbPutglyph_other {page : Int} {p : Fin 8} (other : (p : Int) ≠ page) (fb : Framebuffer)
    (x : Int) (g : List U8) : fbPutglyph fb page x g p = fb p := by
  unfold fbPutglyph
  split
  · rfl
  · split
    · rfl
    · funext q
      exact if_pos other

theorem fbPuts_other {page : Int} {p : Fin 8} (other : (p : Int) ≠ page) (fb : Framebuffer)
    (x : Int) (s : List U8) : fbPuts fb page x s p = fb p := by
  induction s generalizing fb x with
  | nil => rfl
  | cons c s ih =>
    unfold fbPuts
    split
    · rw [ih, fbPutchar, fbPutglyph_other other]
    · rfl

/-- A row that no call is for keeps what it has. -/
theorem draw_other {p : Fin 8} {calls : List Puts} (other : ∀ c ∈ calls, c.page ≠ p)
    (fb : Framebuffer) : draw fb calls p = fb p := by
  induction calls generalizing fb with
  | nil => rfl
  | cons c calls ih =>
    have here : (p : Int) ≠ c.page := fun same => other c List.mem_cons_self (by omega)
    rw [draw_cons, ih fun d member => other d (List.mem_cons_of_mem _ member), fbPuts_other here]

/-- Nor are the columns before the first. -/
theorem fbPuts_before {x : Int} {q : Fin 128} (before : (q : Int) < x) (fb : Framebuffer)
    (page : Int) (p : Fin 8) (s : List U8) : fbPuts fb page x s p q = fb p q := by
  induction s generalizing fb x with
  | nil => rfl
  | cons c s ih =>
    unfold fbPuts
    split
    · rw [ih (by unfold charW; omega), fbPutchar, fbPutglyph]
      split
      · rfl
      · split
        · rfl
        · show (if _ then _ else if _ then _ else if _ then _ else _) = _
          rw [if_neg (show ¬(x ≤ q ∧ (q : Int) < x + 5) by omega),
            if_neg (show ¬(q : Int) = x + 5 by omega), ite_self]
    · rfl

/-! ## What is shown -/

theorem fbPutchar_shows (fb : Framebuffer) (p : Fin 8) {x : Int} (left : 0 ≤ x) (right : x + 5 ≤ width)
    (c : U8) {j : Nat} (col : j < 5) {q : Fin 128} (at_ : (q : Int) = x + j) :
    fbPutchar fb p x c p q = (glyph c).getD j 0 := by
  have page : ¬((p : Int) < 0 ∨ (p : Int) ≥ pages) := by unfold pages; omega
  rw [fbPutchar, fbPutglyph, if_neg page, if_neg (show ¬(x < 0 ∨ x + 5 > width) by omega)]
  show (if _ then _ else if _ then _ else _) = _
  rw [if_neg (show ¬(p : Int) ≠ p from fun other => other rfl),
    if_pos (show x ≤ q ∧ (q : Int) < x + 5 by omega), show ((q : Int) - x).toNat = j by omega]

theorem fbPuts_shows (fb : Framebuffer) (p : Fin 8) {x : Int} (left : 0 ≤ x) {s : List U8} {i : Nat}
    (inside : i < s.length) (right : x + charW * (i + 1) ≤ width) {j : Nat} (col : j < 5)
    {q : Fin 128} (at_ : (q : Int) = x + charW * i + j) :
    fbPuts fb p x s p q = (glyph s[i]).getD j 0 := by
  unfold charW at right at_
  induction s generalizing fb x i with
  | nil => exact absurd inside (Nat.not_lt_zero i)
  | cons c s ih =>
    have room : x + charW ≤ width := by unfold charW; omega
    rw [fbPuts, if_pos room]
    unfold charW at room ⊢
    cases i with
    | zero =>
      rw [fbPuts_before (by omega), fbPutchar_shows fb p left (by omega) c col (by omega)]
      rfl
    | succ i =>
      rw [ih _ (by omega) (Nat.lt_of_succ_lt_succ inside) (by push_cast at right ⊢; omega)
        (by push_cast at at_; omega)]
      rfl

end Oled

end MsxPulse.Firmware
