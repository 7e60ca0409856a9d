import MsxPulse.Firmware.Alog
import MsxPulse.Firmware.BootDetect
import Mathlib.Logic.Function.Basic

/-!
# What the cart-read log holds (alog.c)

A one-shot channel fills `alog_raw` and stops. Nothing but its write address
tells how much of the buffer is valid, so whoever moves that address, or forgets
to, decides what the next reader takes for captured.
-/

namespace MsxPulse.Firmware

/-- `alog_raw`, somewhere in the 520 KB of SRAM. -/
structure AlogRaw where
  base : U32
  inSram : base.toNat + 4 * Alog.total ≤ 0x20082000

/-- Where `alog_raw[idx]` lies. -/
def AlogRaw.entry (r : AlogRaw) (idx : U32) : U32 := r.base + 4#32 * idx

namespace AlogRaw

variable (r : AlogRaw)

theorem entry_toNat {n : Nat} (inside : n ≤ Alog.total) :
    (r.entry (BitVec.ofNat 32 n)).toNat = r.base.toNat + 4 * n := by
  have room := r.inSram
  unfold Alog.total at inside room
  unfold entry
  rw [BitVec.toNat_add, BitVec.toNat_mul, BitVec.toNat_ofNat]
  simp
  omega

theorem entry_ne {i j : Nat} (hi : i ≤ Alog.total) (hj : j ≤ Alog.total) (apart : i ≠ j) :
    r.entry (BitVec.ofNat 32 i) ≠ r.entry (BitVec.ofNat 32 j) := by
  intro same
  have values := congrArg BitVec.toNat same
  rw [r.entry_toNat hi, r.entry_toNat hj] at values
  omega

theorem base_eq_entry : r.base = r.entry (BitVec.ofNat 32 0) := by
  simp [entry]

theorem entry_succ (n : Nat) :
    r.entry (BitVec.ofNat 32 n) + 4#32 = r.entry (BitVec.ofNat 32 (n + 1)) := by
  unfold entry
  rw [BitVec.ofNat_add, BitVec.mul_add, BitVec.mul_one, BitVec.add_assoc]

end AlogRaw

/-- The log's memory with the channel that fills it; `armed` while that channel
moves the log's FIFO into `alog_raw`. -/
structure AlogBuffer where
  raw : AlogRaw
  claimed : Bool
  armed : Bool
  writeAddr : U32
  mem : U32 → U32

namespace AlogBuffer

/-- Zeroed memory, no channel yet. -/
def initial (raw : AlogRaw) : AlogBuffer := ⟨raw, false, false, 0#32, fun _ => 0#32⟩

/-- `alog_arm_dma` -/
def armDma (b : AlogBuffer) : AlogBuffer := { b with armed := true, writeAddr := b.raw.base }

/-- `alog_init` claims the first free channel, which is channel 0. -/
def init (b : AlogBuffer) : AlogBuffer := { b with claimed := true }.armDma

/-- `alog_reset`; before `alog_init` there is no channel to re-arm. -/
def reset (b : AlogBuffer) : AlogBuffer := if b.claimed then b.armDma else b

/-- `&dma_hw->ch[0].al3_read_addr_trig` -/
def readAddrTrig : U32 := 0x5000003C#32

/-- `cart_serve_reset_pipeline`. Its channel numbers were never set, so it aims
channel 0 at a register of channel 0. -/
def resetPipeline (b : AlogBuffer) : AlogBuffer :=
  if b.claimed then { b with armed := false, writeAddr := readAddrTrig } else b

/-- `cart_serve_disable_drive` aborts channel 0. -/
def disableDrive (b : AlogBuffer) : AlogBuffer := { b with armed := false }

/-- The channel stores one word. -/
def store (b : AlogBuffer) (word : U32) : AlogBuffer :=
  { b with
    mem := Function.update b.mem b.writeAddr word
    writeAddr := b.writeAddr + 4#32 }

/-- `alog_captured` -/
def captured (b : AlogBuffer) : U16 :=
  if b.claimed then
    let n := (b.writeAddr - b.raw.base) / 4#32
    (if n > BitVec.ofNat 32 Alog.total then BitVec.ofNat 32 Alog.total else n).setWidth 16
  else 0#16

/-- `alog_peek` -/
def peek (b : AlogBuffer) (idx : U16) : U32 :=
  if idx ≥ BitVec.ofNat 16 Alog.total then 0#32 else b.mem (b.raw.entry (idx.setWidth 32))

/-- The words that `alog_captured` and `alog_peek` show. -/
def words (b : AlogBuffer) : List U32 :=
  (List.range b.captured.toNat).map fun i => b.peek (BitVec.ofNat 16 i)

/-- The channel runs and its transfer count is not used up. -/
def HasRoom (b : AlogBuffer) : Prop := b.armed = true ∧ b.captured.toNat < Alog.total

instance (b : AlogBuffer) : Decidable b.HasRoom := inferInstanceAs (Decidable (_ ∧ _))

/-- A running channel stands inside the buffer. -/
def Positioned (b : AlogBuffer) : Prop :=
  b.armed = true → b.claimed = true ∧
    ∃ n ≤ Alog.total, b.writeAddr = b.raw.entry (BitVec.ofNat 32 n)

variable {b : AlogBuffer}

theorem captured_of_position (claimed : b.claimed = true) {n : Nat} (inside : n ≤ Alog.total)
    (position : b.writeAddr = b.raw.entry (BitVec.ofNat 32 n)) :
    b.captured = BitVec.ofNat 16 n := by
  have room := b.raw.inSram
  have at_ := congrArg BitVec.toNat position
  rw [b.raw.entry_toNat inside] at at_
  have quotient : (b.writeAddr - b.raw.base) / 4#32 = BitVec.ofNat 32 n := by
    apply BitVec.eq_of_toNat_eq
    unfold Alog.total at inside room
    rw [BitVec.toNat_udiv, BitVec.toNat_sub, at_, BitVec.toNat_ofNat]
    simp
    omega
  have fits : ¬ BitVec.ofNat 32 n > BitVec.ofNat 32 Alog.total := by
    unfold Alog.total at *
    rw [gt_iff_lt, BitVec.lt_def, BitVec.toNat_ofNat, BitVec.toNat_ofNat]
    omega
  unfold captured
  simp only [claimed, if_true, quotient, fits, if_false]
  apply BitVec.eq_of_toNat_eq
  unfold Alog.total at inside
  rw [BitVec.toNat_setWidth, BitVec.toNat_ofNat, BitVec.toNat_ofNat]
  omega

@[simp] theorem length_words (b : AlogBuffer) : b.words.length = b.captured.toNat := by
  simp [words]

theorem peek_ofNat (b : AlogBuffer) {i : Nat} (inside : i < Alog.total) :
    b.peek (BitVec.ofNat 16 i) = b.mem (b.raw.entry (BitVec.ofNat 32 i)) := by
  unfold Alog.total at inside
  have below : ¬ BitVec.ofNat 16 i ≥ BitVec.ofNat 16 Alog.total := by
    unfold Alog.total
    rw [ge_iff_le, BitVec.le_def, BitVec.toNat_ofNat, BitVec.toNat_ofNat]
    omega
  have widened : (BitVec.ofNat 16 i).setWidth 32 = BitVec.ofNat 32 i := by
    apply BitVec.eq_of_toNat_eq
    rw [BitVec.toNat_setWidth, BitVec.toNat_ofNat, BitVec.toNat_ofNat]
    omega
  unfold peek
  rw [if_neg below, widened]

theorem position_of_room (positioned : b.Positioned) (room : b.HasRoom) :
    b.claimed = true ∧ b.writeAddr = b.raw.entry (BitVec.ofNat 32 b.captured.toNat) := by
  obtain ⟨claimed, n, inside, position⟩ := positioned room.1
  have count := captured_of_position claimed inside position
  refine ⟨claimed, ?_⟩
  have value : b.captured.toNat = n := by
    unfold Alog.total at inside
    rw [count, BitVec.toNat_ofNat]
    omega
  rw [value]
  exact position

theorem store_captured (positioned : b.Positioned) (room : b.HasRoom) (word : U32) :
    (b.store word).captured = BitVec.ofNat 16 (b.captured.toNat + 1) := by
  obtain ⟨claimed, position⟩ := position_of_room positioned room
  refine captured_of_position (b := b.store word) claimed room.2 ?_
  show b.writeAddr + 4#32 = _
  rw [position]
  exact b.raw.entry_succ _

/-- A stored word joins the end of what the log shows. -/
theorem store_words (positioned : b.Positioned) (room : b.HasRoom) (word : U32) :
    (b.store word).words = b.words ++ [word] := by
  obtain ⟨claimed, position⟩ := position_of_room positioned room
  have count : (b.store word).captured.toNat = b.captured.toNat + 1 := by
    have below := room.2
    unfold Alog.total at below
    rw [store_captured positioned room, BitVec.toNat_ofNat]
    omega
  have at_ (i : Nat) (le : i ≤ b.captured.toNat) :
      (b.store word).peek (BitVec.ofNat 16 i) =
        if i = b.captured.toNat then word else b.peek (BitVec.ofNat 16 i) := by
    have inside : i < Alog.total := Nat.lt_of_le_of_lt le room.2
    rw [peek_ofNat _ inside, peek_ofNat _ inside]
    show Function.update b.mem b.writeAddr word (b.raw.entry _) = _
    rw [position]
    split
    · rename_i same
      rw [same, Function.update_self]
    · rename_i other
      exact Function.update_of_ne
        (b.raw.entry_ne (Nat.le_of_lt inside) (Nat.le_of_lt room.2) other) _ _
  unfold words
  rw [count, List.range_succ, List.map_append]
  congr 1
  · refine List.map_congr_left fun i inside => ?_
    rw [List.mem_range] at inside
    rw [at_ i (Nat.le_of_lt inside), if_neg (Nat.ne_of_lt inside)]
  · rw [List.map_singleton, at_ _ (Nat.le_refl _), if_pos rfl]

section Positions

theorem armDma_positioned (claimed : b.claimed = true) : b.armDma.Positioned := fun _ =>
  ⟨claimed, 0, Nat.zero_le _, b.raw.base_eq_entry⟩

theorem init_positioned (b : AlogBuffer) : b.init.Positioned := fun _ =>
  ⟨rfl, 0, Nat.zero_le _, b.raw.base_eq_entry⟩

theorem initial_positioned (raw : AlogRaw) : (initial raw).Positioned :=
  fun armed => absurd armed (by simp [initial])

theorem Positioned.reset (positioned : b.Positioned) : b.reset.Positioned := by
  unfold AlogBuffer.reset
  split
  · exact armDma_positioned ‹_›
  · exact positioned

theorem Positioned.resetPipeline (positioned : b.Positioned) : b.resetPipeline.Positioned := by
  unfold AlogBuffer.resetPipeline
  split
  · exact fun armed => absurd armed Bool.false_ne_true
  · exact positioned

theorem disableDrive_positioned (b : AlogBuffer) : b.disableDrive.Positioned :=
  fun armed => absurd armed Bool.false_ne_true

theorem Positioned.store (positioned : b.Positioned) (room : b.HasRoom) (word : U32) :
    (b.store word).Positioned := fun _ =>
  have position := position_of_room positioned room
  ⟨position.1, b.captured.toNat + 1, room.2, by
    show b.writeAddr + 4#32 = _
    rw [position.2]
    exact b.raw.entry_succ _⟩

end Positions

end AlogBuffer

namespace BootCapture

/-- The word of a cart read at one of the two header addresses. -/
def headerRead (raw : U32) : Bool :=
  let a : U16 := (raw &&& 0xFFFF#32).setWidth 16
  decide (a = 0x4000#16 ∨ a = 0x4001#16)

/-- The event that `boot_capture_drain` makes of such a word. -/
def headerEvent (raw : U32) : BootBusEvent where
  kind := .memRead
  addr := (raw &&& 0xFFFF#32).setWidth 16
  data := ((raw >>> 16) &&& 0xFF#32).setWidth 8
  dataValid := true

/-- One turn of the log loop of `boot_capture_drain`. -/
def feedCartRead (s : BootDetect) (raw : U32) : BootDetect :=
  if headerRead raw then s.feed (headerEvent raw) else s

/-- `for (; bd_alog_rd < cap; bd_alog_rd++)` -/
def drainAlog (b : AlogBuffer) (rd : U16) (s : BootDetect) : BootDetect × U16 :=
  let cap := b.captured
  ((List.range' rd.toNat (cap.toNat - rd.toNat)).foldl
      (fun s i => feedCartRead s (b.peek (BitVec.ofNat 16 i))) s,
    if rd < cap then cap else rd)

/-- A drain reads what the log shows from the cursor on. -/
theorem drainAlog_fst (b : AlogBuffer) (rd : U16) (s : BootDetect) :
    (drainAlog b rd s).1 = (b.words.drop rd.toNat).foldl feedCartRead s := by
  unfold drainAlog AlogBuffer.words
  rw [← List.map_drop, List.range_eq_range', List.drop_range', List.foldl_map]
  simp

theorem foldl_feedCartRead (s : BootDetect) (raws : List U32) :
    raws.foldl feedCartRead s = ((raws.filter headerRead).map headerEvent).foldl BootDetect.feed s := by
  induction raws generalizing s with
  | nil => rfl
  | cons raw raws ih =>
    rw [List.foldl_cons, ih]
    cases header : headerRead raw <;> simp [feedCartRead, header]

end BootCapture

end MsxPulse.Firmware
