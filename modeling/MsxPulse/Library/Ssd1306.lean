import Mathlib.Data.BitVec
import Mathlib.Logic.Function.Basic

/-!
# The SSD1306

A display controller with a RAM of eight pages of 128 columns; a byte is eight pixels, its
bit 0 the topmost. Bytes come in as commands or as data. Commands may take further bytes
as arguments; data go to where the pointers are, and the pointers move on inside a window.
Scrolling and the commands of page addressing are left out: the states are those of a module
that is not scrolling. The COM pins are taken to be wired as command 0xDA sets them.
-/

namespace MsxPulse.Library

/-- How the pointers move after a byte of data. -/
inductive Addressing where
  | horizontal
  | vertical
  | page
  deriving DecidableEq

namespace Ssd1306

/-- What decides how the RAM is shown. -/
structure Config where
  on : Bool
  chargePump : Bool
  entireOn : Bool
  inverted : Bool
  segRemap : Bool
  comRemap : Bool
  startLine : BitVec 6
  offset : BitVec 6
  multiplex : BitVec 6
  deriving DecidableEq

/-- The part of the RAM that the pointers stay in. -/
structure Window where
  addressing : Addressing
  colStart : Fin 128
  colEnd : Fin 128
  pageStart : Fin 8
  pageEnd : Fin 8
  deriving DecidableEq

end Ssd1306

structure Ssd1306 where
  ram : Fin 8 → Fin 128 → BitVec 8
  config : Ssd1306.Config
  window : Ssd1306.Window
  col : Fin 128
  page : Fin 8
  /-- A command whose arguments are not complete. -/
  pending : List (BitVec 8)

namespace Ssd1306

/-! ## Commands -/

/-- How many arguments follow a command. -/
def arguments (c : BitVec 8) : Nat :=
  if c ∈ [0x20#8, 0x81#8, 0x8D#8, 0xA8#8, 0xD3#8, 0xD5#8, 0xD9#8, 0xDA#8, 0xDB#8] then 1
  else if c ∈ [0x21#8, 0x22#8, 0xA3#8] then 2
  else if c ∈ [0x29#8, 0x2A#8] then 5
  else if c ∈ [0x26#8, 0x27#8] then 6
  else 0

/-- A command without arguments. -/
def single (f : Config) (c : BitVec 8) : Config :=
  if 0x40#8 ≤ c ∧ c ≤ 0x7F#8 then { f with startLine := c.setWidth 6 }
  else if c = 0xA0#8 ∨ c = 0xA1#8 then { f with segRemap := c.getLsbD 0 }
  else if c = 0xA4#8 ∨ c = 0xA5#8 then { f with entireOn := c.getLsbD 0 }
  else if c = 0xA6#8 ∨ c = 0xA7#8 then { f with inverted := c.getLsbD 0 }
  else if c = 0xAE#8 ∨ c = 0xAF#8 then { f with on := c.getLsbD 0 }
  else if c = 0xC0#8 ∨ c = 0xC8#8 then { f with comRemap := c.getLsbD 3 }
  else f

/-- A command with one argument. Contrast, timings and levels change no pixel. -/
def double (s : Ssd1306) (c a : BitVec 8) : Ssd1306 :=
  if c = 0x20#8 then
    { s with window.addressing :=
        if a &&& 3#8 = 0#8 then .horizontal else if a &&& 3#8 = 1#8 then .vertical else .page }
  else if c = 0x8D#8 then { s with config.chargePump := a.getLsbD 2 }
  else if c = 0xA8#8 then { s with config.multiplex := a.setWidth 6 }
  else if c = 0xD3#8 then { s with config.offset := a.setWidth 6 }
  else s

def column (a : BitVec 8) : Fin 128 := ⟨a.toNat % 128, Nat.mod_lt _ (by decide)⟩

def pageOf (a : BitVec 8) : Fin 8 := ⟨a.toNat % 8, Nat.mod_lt _ (by decide)⟩

/-- A command with two arguments. A new window takes the pointer to its start. -/
def triple (s : Ssd1306) (c a b : BitVec 8) : Ssd1306 :=
  if c = 0x21#8 then
    { s with window := { s.window with colStart := column a, colEnd := column b }, col := column a }
  else if c = 0x22#8 then
    { s with
      window := { s.window with pageStart := pageOf a, pageEnd := pageOf b }, page := pageOf a }
  else s

def exec (s : Ssd1306) : List (BitVec 8) → Ssd1306
  | [c] => { s with config := single s.config c }
  | [c, a] => s.double c a
  | [c, a, b] => s.triple c a b
  | _ => s

/-- A byte that is a command or an argument. -/
def putCommand (s : Ssd1306) (b : BitVec 8) : Ssd1306 :=
  let command := s.pending ++ [b]
  if command.length ≤ arguments (command.headD 0) then { s with pending := command }
  else ({ s with pending := [] } : Ssd1306).exec command

theorem exec_pending (s : Ssd1306) (command : List (BitVec 8)) :
    (s.exec command).pending = s.pending := by
  unfold exec
  split
  · rfl
  · unfold double
    split_ifs <;> rfl
  · unfold triple
    split_ifs <;> rfl
  · rfl

theorem putCommand_more {s : Ssd1306} {b : BitVec 8}
    (more : (s.pending ++ [b]).length ≤ arguments ((s.pending ++ [b]).headD 0)) :
    s.putCommand b = { s with pending := s.pending ++ [b] } := if_pos more

theorem putCommand_last {s : Ssd1306} {b : BitVec 8}
    (last : arguments ((s.pending ++ [b]).headD 0) < (s.pending ++ [b]).length) :
    s.putCommand b = ({ s with pending := [] } : Ssd1306).exec (s.pending ++ [b]) :=
  if_neg (Nat.not_le_of_lt last)

/-- The bytes of a command execute it. -/
theorem command_run {s : Ssd1306} (between : s.pending = []) {command : List (BitVec 8)}
    (complete : command.length = arguments (command.headD 0) + 1) (short : command.length ≤ 3) :
    command.foldl putCommand s = s.exec command := by
  obtain ⟨ram, config, window, col, page, pending⟩ := s
  obtain rfl : pending = [] := between
  match command, complete, short with
  | [c], complete, _ =>
    have none : arguments c = 0 := (Nat.succ.inj complete).symm
    exact putCommand_last (none ▸ Nat.zero_lt_one)
  | [c, a], complete, _ =>
    have one : arguments c = 1 := (Nat.succ.inj complete).symm
    have first : putCommand ⟨ram, config, window, col, page, []⟩ c =
        ⟨ram, config, window, col, page, [c]⟩ := putCommand_more (Nat.le_of_eq one.symm)
    rw [List.foldl_cons, first, List.foldl_cons, List.foldl_nil]
    exact putCommand_last (one ▸ Nat.one_lt_two)
  | [c, a, b], complete, _ =>
    have two : arguments c = 2 := (Nat.succ.inj complete).symm
    have first : putCommand ⟨ram, config, window, col, page, []⟩ c =
        ⟨ram, config, window, col, page, [c]⟩ := putCommand_more (two ▸ Nat.le_succ 1)
    have second : putCommand ⟨ram, config, window, col, page, [c]⟩ a =
        ⟨ram, config, window, col, page, [c, a]⟩ := putCommand_more (Nat.le_of_eq two.symm)
    rw [List.foldl_cons, first, List.foldl_cons, second, List.foldl_cons, List.foldl_nil]
    exact putCommand_last (two ▸ Nat.lt_succ_self 2)

/-- Complete commands are executed one after the other. -/
theorem commands_run {s : Ssd1306} (between : s.pending = []) {commands : List (List (BitVec 8))}
    (complete : ∀ c ∈ commands, c.length = arguments (c.headD 0) + 1 ∧ c.length ≤ 3) :
    commands.flatten.foldl putCommand s = commands.foldl exec s := by
  induction commands generalizing s with
  | nil => rfl
  | cons c commands ih =>
    obtain ⟨here, short⟩ := complete c List.mem_cons_self
    have done := command_run between here short
    rw [List.flatten_cons, List.foldl_append, List.foldl_cons, done]
    exact ih ((s.exec_pending c).trans between) fun c' inside =>
      complete c' (List.mem_cons_of_mem c inside)

/-! ## Data -/

def advance (s : Ssd1306) : Ssd1306 :=
  let w := s.window
  let nextPage := if s.page = w.pageEnd then w.pageStart else s.page + 1
  let nextCol := if s.col = w.colEnd then w.colStart else s.col + 1
  match w.addressing with
  | .horizontal =>
    { s with col := nextCol, page := if s.col = w.colEnd then nextPage else s.page }
  | .vertical => { s with page := nextPage, col := if s.page = w.pageEnd then nextCol else s.col }
  | .page => { s with col := s.col + 1 }

def putData (s : Ssd1306) (b : BitVec 8) : Ssd1306 :=
  { s with ram := Function.update s.ram s.page (Function.update (s.ram s.page) s.col b) }.advance

/-- What comes in one transfer, behind its control byte. -/
def receive (s : Ssd1306) : List (BitVec 8) → Ssd1306
  | [] => s
  | control :: bytes =>
    if control = 0x00#8 then bytes.foldl putCommand s
    else if control = 0x40#8 then bytes.foldl putData s
    else s

/-! ## The glass -/

/-- The row of the RAM that is shown in row `y`, if the module is upright with the scan
remapped. -/
def ramRow (f : Config) (y : Fin 64) : BitVec 6 :=
  f.startLine + f.offset + BitVec.ofNat 6 (if f.comRemap then y else 63 - y)

/-- Whether the pixel is lit. The chip applies the segment remap to the data written after
it, which is the same as here once all columns have been written. -/
def lit (s : Ssd1306) (x : Fin 128) (y : Fin 64) : Bool :=
  let row := ramRow s.config y
  let byte := s.ram (Fin.ofNat 8 (row.toNat / 8)) (if s.config.segRemap then x else x.rev)
  s.config.on && s.config.chargePump && decide ((y : Nat) ≤ s.config.multiplex.toNat) &&
    (s.config.entireOn || (byte.getLsbD (row.toNat % 8) ^^ s.config.inverted))

/-- The RAM is shown as it is, upright. -/
def upright : Config where
  on := true
  chargePump := true
  entireOn := false
  inverted := false
  segRemap := true
  comRemap := true
  startLine := 0#6
  offset := 0#6
  multiplex := 63#6

theorem lit_upright {s : Ssd1306} (h : s.config = upright) (x : Fin 128) (p : Fin 8) (k : Fin 8)
    (y : Fin 64) (at_ : (y : Nat) = 8 * p + k) : s.lit x y = (s.ram p x).getLsbD k := by
  have row : (ramRow upright y).toNat = y := by
    show (0#6 + 0#6 + BitVec.ofNat 6 y).toNat = y
    simp
  have page : Fin.ofNat 8 ((y : Nat) / 8) = p := by
    apply Fin.ext
    show (y : Nat) / 8 % 8 = p
    omega
  have bit : (y : Nat) % 8 = k := by omega
  have driven : (y : Nat) ≤ upright.multiplex.toNat := Nat.le_of_lt_succ y.isLt
  rw [lit, h, row, page, bit, decide_eq_true driven]
  simp [upright]

/-! ## Filling the RAM -/

/-- The window is the whole RAM, row by row. -/
def whole : Window := ⟨.horizontal, 0, 127, 0, 7⟩

section Fill

variable {s : Ssd1306}

theorem putData_config (s : Ssd1306) (b : BitVec 8) : (s.putData b).config = s.config := by
  unfold putData advance
  dsimp only
  split <;> rfl

theorem putData_window (s : Ssd1306) (b : BitVec 8) : (s.putData b).window = s.window := by
  unfold putData advance
  dsimp only
  split <;> rfl

theorem putData_pending (s : Ssd1306) (b : BitVec 8) : (s.putData b).pending = s.pending := by
  unfold putData advance
  dsimp only
  split <;> rfl

theorem putData_whole (h : s.window = whole) (b : BitVec 8) :
    (s.putData b).col = s.col + 1 ∧
      (s.putData b).page = (if s.col = 127 then s.page + 1 else s.page) ∧
      (s.putData b).ram =
        Function.update s.ram s.page (Function.update (s.ram s.page) s.col b) := by
  unfold putData advance
  rw [h]
  refine ⟨?_, ?_, rfl⟩
  · show (if s.col = 127 then 0 else s.col + 1) = s.col + 1
    split
    next last => rw [last]; rfl
    next => rfl
  · show (if s.col = 127 then if s.page = 7 then 0 else s.page + 1 else s.page) = _
    congr 1
    split
    next last => rw [last]; rfl
    next => rfl

/-- Data change neither what decides how the RAM is shown nor the window. -/
structure Kept (s s' : Ssd1306) : Prop where
  config : s'.config = s.config
  window : s'.window = s.window
  pending : s'.pending = s.pending

theorem Kept.refl (s : Ssd1306) : Kept s s := ⟨rfl, rfl, rfl⟩

theorem Kept.trans {s s' s'' : Ssd1306} (h : Kept s s') (h' : Kept s' s'') : Kept s s'' :=
  ⟨h'.config.trans h.config, h'.window.trans h.window, h'.pending.trans h.pending⟩

theorem kept_data (s : Ssd1306) (bytes : List (BitVec 8)) : Kept s (bytes.foldl putData s) := by
  induction bytes generalizing s with
  | nil => exact Kept.refl s
  | cons b bytes ih =>
    have first : Kept s (s.putData b) :=
      ⟨s.putData_config b, s.putData_window b, s.putData_pending b⟩
    exact first.trans (ih (s.putData b))

/-- What is left of a row takes as many bytes, and then the next row comes. -/
theorem row_filled (h : s.window = whole) {bytes : List (BitVec 8)} (some : bytes ≠ [])
    (fits : (s.col : Nat) + bytes.length = 128) :
    (bytes.foldl putData s).col = 0 ∧ (bytes.foldl putData s).page = s.page + 1 ∧
      ∀ p q, (bytes.foldl putData s).ram p q =
        if p = s.page ∧ s.col ≤ q then bytes.getD (q - s.col) 0 else s.ram p q := by
  induction bytes generalizing s with
  | nil => exact absurd rfl some
  | cons b bytes ih =>
    obtain ⟨col, page, ram⟩ := putData_whole h b
    rw [List.foldl_cons]
    rw [List.length_cons] at fits
    by_cases last : bytes = []
    · subst last
      have at_ : s.col = 127 := Fin.ext (Nat.succ.inj fits)
      rw [if_pos at_] at page
      refine ⟨by rw [List.foldl_nil, col, at_]; rfl, page, fun p q => ?_⟩
      rw [List.foldl_nil, ram, at_]
      by_cases here : p = s.page
      · subst here
        rw [Function.update_self, Function.update_apply]
        by_cases final : q = 127
        · rw [if_pos final, if_pos ⟨rfl, final ▸ Fin.le_refl _⟩, final]
          rfl
        · have before : ¬ (127 : Fin 128) ≤ q := by
            intro above
            exact final (Fin.le_antisymm (Fin.le_last q) above)
          rw [if_neg final, if_neg fun hq => before hq.2]
      · rw [Function.update_of_ne here, if_neg fun hp => here hp.1]
    · have more : 0 < bytes.length := List.length_pos_iff.mpr last
      have inside : (s.col : Nat) + 1 < 128 := by omega
      have next : ((s.col + 1 : Fin 128) : Nat) = s.col + 1 := Fin.val_add_one_of_lt' inside
      have stay : ¬ s.col = 127 := by
        intro same
        rw [same] at inside
        exact absurd inside (by decide)
      rw [if_neg stay] at page
      have left : ((s.putData b).col : Nat) + bytes.length = 128 := by
        rw [col, next]
        omega
      obtain ⟨col', page', ram'⟩ := ih ((s.putData_window b).trans h) last left
      refine ⟨col', page'.trans (by rw [page]), fun p q => ?_⟩
      rw [ram', page, col, ram]
      by_cases here : p = s.page
      · subst here
        rw [Function.update_self, Function.update_apply]
        have after : s.col + 1 ≤ q ↔ (s.col : Nat) + 1 ≤ q := by rw [Fin.le_def, next]
        rcases Nat.lt_trichotomy (q : Nat) s.col with below | same | above
        · rw [if_neg fun hq => absurd (after.mp hq.2) (by omega), if_neg (Fin.ne_of_lt below),
            if_neg fun hq => absurd hq.2 (Nat.not_le_of_lt below)]
        · obtain rfl : q = s.col := Fin.ext same
          rw [if_neg fun hq => absurd (after.mp hq.2) (by omega), if_pos rfl,
            if_pos ⟨rfl, Fin.le_refl _⟩, Nat.sub_self]
          rfl
        · have shift : (q : Nat) - s.col = (q - (s.col + 1)) + 1 := by omega
          rw [if_pos ⟨rfl, after.mpr above⟩, if_pos ⟨rfl, Nat.le_of_lt above⟩, shift, next]
          rfl
      · rw [if_neg fun hp => here hp.1, Function.update_of_ne here, if_neg fun hp => here hp.1]

/-- One page after the other, from a page on. -/
def Consecutive : Fin 8 → List (Fin 8) → Prop
  | _, [] => True
  | p, q :: ps => q = p ∧ Consecutive (p + 1) ps

instance decidableConsecutive : ∀ (p : Fin 8) (ps : List (Fin 8)), Decidable (Consecutive p ps)
  | _, [] => .isTrue trivial
  | p, q :: ps =>
    have := decidableConsecutive (p + 1) ps
    inferInstanceAs (Decidable (q = p ∧ Consecutive (p + 1) ps))

/-- A transfer of data for each of the rows that follow. -/
theorem rows_filled (h : s.window = whole) (start : s.col = 0) {rows : Fin 8 → List (BitVec 8)}
    (full : ∀ p, (rows p).length = 128) {ps : List (Fin 8)} (consecutive : Consecutive s.page ps) :
    Kept s ((ps.map fun p => 0x40#8 :: rows p).foldl receive s) ∧
      ∀ p q, ((ps.map fun p => 0x40#8 :: rows p).foldl receive s).ram p q =
        if p ∈ ps then (rows p).getD q 0 else s.ram p q := by
  induction ps generalizing s with
  | nil => exact ⟨Kept.refl s, fun p q => rfl⟩
  | cons r ps ih =>
    obtain ⟨rfl, later⟩ := consecutive
    have row : s.receive (0x40#8 :: rows s.page) = (rows s.page).foldl putData s := rfl
    have some : rows s.page ≠ [] := by
      intro none
      have length := full s.page
      rw [none] at length
      cases length
    obtain ⟨col, page, ram⟩ := row_filled h some (by rw [start, full]; rfl)
    have kept := kept_data s (rows s.page)
    rw [← page] at later
    obtain ⟨keeps, fills⟩ := ih (kept.window.trans h) col later
    rw [List.map_cons, List.foldl_cons, row]
    refine ⟨kept.trans keeps, fun p q => ?_⟩
    rw [fills, ram, start]
    by_cases behind : p ∈ ps
    · rw [if_pos behind, if_pos (List.mem_cons_of_mem _ behind)]
    · rw [if_neg behind]
      by_cases here : p = s.page
      · subst here
        rw [if_pos ⟨rfl, Fin.zero_le q⟩, if_pos List.mem_cons_self]
        rfl
      · rw [if_neg fun hp => here hp.1,
          if_neg fun member => (List.mem_cons.mp member).elim here behind]

end Fill

end Ssd1306

end MsxPulse.Library
