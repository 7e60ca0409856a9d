import MsxPulse.Firmware.Types
import MsxPulse.Library.Pio

/-!
# The serve-mode PIO programs (cart_serve.pio)

Both programs and, for each, one lemma about what a clock does in each of its
positions.
-/

namespace MsxPulse.Firmware

open Library Library.Pio

def gpRd : Nat := 24
def gpSltsl : Nat := 29

/-- `cart_addr_read` -/
def cartAddrRead : Program where
  code :=
    [ ⟨.pullBlock, none, 0⟩
    , ⟨.mov .x .osr, none, 0⟩
    , ⟨.wait false gpSltsl, none, 0⟩
    , ⟨.jmpPin 2, none, 0⟩
    , ⟨.input .x 16, none, 0⟩
    , ⟨.input .pins 16, none, 0⟩
    , ⟨.wait true gpRd, none, 0⟩ ]
  wrapTarget := 2
  wrap := 6
  jmpPin := gpRd
  inBase := 0
  autopush := true
  outBase := 0
  setBase := 0
  setCount := 0
  sideBase := 0

/-- `cart_read` -/
def cartRead : Program where
  code :=
    [ ⟨.wait false gpSltsl, some true, 0⟩
    , ⟨.jmpPin 0, some true, 0⟩
    , ⟨.setPins 0#32, some true, 0⟩
    , ⟨.mov .osr .notNull, some true, 0⟩
    , ⟨.output .pindirs 8, some true, 0⟩
    , ⟨.pullBlock, some true, 0⟩
    , ⟨.output .pins 8, some true, 1⟩
    , ⟨.nop, some true, 0⟩
    , ⟨.wait true gpRd, some true, 0⟩
    , ⟨.mov .osr .null, some true, 0⟩
    , ⟨.output .pindirs 8, some true, 0⟩
    , ⟨.setPins 1#32, some true, 0⟩ ]
  wrapTarget := 0
  wrap := 11
  jmpPin := gpRd
  inBase := 0
  autopush := false
  outBase := 16
  setBase := 34
  setCount := 1
  sideBase := 30

/-! ## cart_addr_read -/

/-- The positions of `cart_addr_read`. -/
inductive AddrPc where
  | pull
  | latch
  | waitSltsl
  | jmpRd
  | inHigh
  | inPins
  | waitRd
  deriving DecidableEq

namespace AddrPc

def index : AddrPc → Nat
  | pull => 0
  | latch => 1
  | waitSltsl => 2
  | jmpRd => 3
  | inHigh => 4
  | inPins => 5
  | waitRd => 6

/-- Where a clock with these levels leads. -/
def next (gpio : U64) : AddrPc → AddrPc
  | pull => latch
  | latch => waitSltsl
  | waitSltsl => if gpio.getLsbD gpSltsl then waitSltsl else jmpRd
  | jmpRd => if gpio.getLsbD gpRd then waitSltsl else inHigh
  | inHigh => inPins
  | inPins => waitRd
  | waitRd => if gpio.getLsbD gpRd then waitSltsl else waitRd

end AddrPc

/-- `rom_lut + raw`, for a 64K-aligned table with this upper half. -/
def lutPointer (high : U32) (raw : U16) : U32 := high <<< 16 ||| raw.setWidth 32

/-- `cart_addr_read` is about to run the instruction at `pc`. -/
structure AddrAt (high : U32) (pc : AddrPc) (s : Sm) : Prop where
  enabled : s.enabled = true
  index : s.pc = pc.index
  delay : s.delay = 0
  pulled : pc = .pull → s.tx = [high]
  latched : pc = .latch → s.osr = high
  sticky : pc ≠ .pull → pc ≠ .latch → s.x = high
  isr : s.isr = if pc = .inPins then lowBits high 16 else 0#32
  isrCount : s.isrCount = if pc = .inPins then 16 else 0

theorem lutPointer_eq (high : U32) (gpio : U64) :
    (lowBits high 16 <<< 16) ||| lowBits ((gpio >>> 0).setWidth 32) 16 =
      lutPointer high (gpio.setWidth 16) := by
  unfold lowBits lutPointer
  apply BitVec.eq_of_getLsbD_eq
  intro i inside
  simp only [BitVec.getLsbD_or, BitVec.getLsbD_shiftLeft, BitVec.getLsbD_setWidth,
    BitVec.getLsbD_ushiftRight, Nat.zero_add]
  by_cases upper : i < 16
  · simp [upper, inside]
  · have below : i - 16 < 16 := by omega
    have width : i - 16 < 32 := by omega
    simp [upper, below, width, inside]

/-- What the program pushes at a position. -/
def AddrPc.pushes (high : U32) (gpio : U64) (pc : AddrPc) : List U32 :=
  if pc = .inPins then [lutPointer high (gpio.setWidth 16)] else []

def pushedWord : Effect → Option U32
  | .push word => some word
  | _ => none

section AddrSteps

variable {high : U32} {pc : AddrPc} {s : Sm}

theorem AddrAt.run (at_ : AddrAt high pc s) (gpio : U64) (op : Op)
    (fetch : cartAddrRead.code[pc.index]? = some ⟨op, none, 0⟩) :
    cartAddrRead.clock gpio s = cartAddrRead.exec gpio ⟨op, none, 0⟩ s :=
  cartAddrRead.clock_exec gpio at_.enabled at_.delay (at_.index ▸ fetch)

/-- Inside the loop, but not between the two `in` instructions. -/
def AddrPc.Loops (pc : AddrPc) : Prop := pc ≠ .pull ∧ pc ≠ .latch ∧ pc ≠ .inPins

instance (pc : AddrPc) : Decidable pc.Loops := inferInstanceAs (Decidable (_ ∧ _ ∧ _))

/-- A move from loop to loop that leaves both registers alone. -/
theorem AddrAt.move (at_ : AddrAt high pc s) (loops : pc.Loops) {pc' : AddrPc} (loops' : pc'.Loops)
    {s' : Sm} (enabled : s'.enabled = s.enabled) (index : s'.pc = pc'.index)
    (delay : s'.delay = 0) (x : s'.x = s.x) (isr : s'.isr = s.isr)
    (isrCount : s'.isrCount = s.isrCount) : AddrAt high pc' s' where
  enabled := enabled.trans at_.enabled
  index := index
  delay := delay
  pulled := fun here => absurd here loops'.1
  latched := fun here => absurd here loops'.2.1
  sticky := fun _ _ => x.trans (at_.sticky loops.1 loops.2.1)
  isr := by rw [isr, at_.isr, if_neg loops.2.2, if_neg loops'.2.2]
  isrCount := by rw [isrCount, at_.isrCount, if_neg loops.2.2, if_neg loops'.2.2]

/-- One clock of `cart_addr_read`. -/
theorem AddrAt.step (at_ : AddrAt high pc s) (gpio : U64) (room : s.rx.length < fifoDepth) :
    AddrAt high (pc.next gpio) (cartAddrRead.clock gpio s).1 ∧
      (cartAddrRead.clock gpio s).1.rx = s.rx ++ pc.pushes high gpio ∧
      (cartAddrRead.clock gpio s).2.filterMap pushedWord = pc.pushes high gpio := by
  have index := at_.index
  have delay := at_.delay
  have isr := at_.isr
  have isrCount := at_.isrCount
  have pin : cartAddrRead.jmpPin = gpRd := rfl
  have none : s.rx = s.rx ++ [] := (List.append_nil s.rx).symm
  cases pc with
  | pull =>
    have next : cartAddrRead.clock gpio s =
        ({ s with pc := 1, osr := high, tx := [] }, [.pull high]) := by
      rw [at_.run gpio .pullBlock rfl]
      simp [Program.exec, Program.advance, at_.pulled rfl, index, AddrPc.index, delay,
        cartAddrRead]
    rw [next]
    exact ⟨⟨at_.enabled, rfl, delay, nofun, fun _ => rfl, fun _ here => absurd rfl here, isr,
      isrCount⟩, none, rfl⟩
  | latch =>
    have next : cartAddrRead.clock gpio s = ({ s with pc := 2, x := high }, []) := by
      rw [at_.run gpio (.mov .x .osr) rfl]
      simp [Program.exec, Program.advance, Program.movValue, at_.latched rfl, index,
        AddrPc.index, delay, cartAddrRead]
    rw [next]
    exact ⟨⟨at_.enabled, rfl, delay, nofun, nofun, fun _ _ => rfl, isr, isrCount⟩, none, rfl⟩
  | waitSltsl =>
    rw [at_.run gpio (.wait false gpSltsl) rfl]
    cases level : gpio.getLsbD gpSltsl <;> simp only [Program.exec, level, AddrPc.next]
    · refine ⟨at_.move (by decide) (by decide) rfl ?_ rfl rfl rfl rfl, none, rfl⟩
      simp [Program.advance, index, AddrPc.index, cartAddrRead]
    · exact ⟨at_, none, rfl⟩
  | jmpRd =>
    rw [at_.run gpio (.jmpPin 2) rfl]
    cases level : gpio.getLsbD gpRd <;> simp only [Program.exec, pin, level, AddrPc.next]
    · refine ⟨at_.move (by decide) (by decide) rfl ?_ rfl rfl rfl rfl, none, rfl⟩
      simp [Program.advance, index, AddrPc.index, cartAddrRead]
    · exact ⟨at_.move (by decide) (by decide) rfl rfl rfl rfl rfl rfl, none, rfl⟩
  | inHigh =>
    have x := at_.sticky nofun nofun
    have next : cartAddrRead.clock gpio s =
        ({ s with pc := 5, isr := lowBits high 16, isrCount := 16 }, []) := by
      rw [at_.run gpio (.input .x 16) rfl]
      simp [Program.exec, Program.advance, Program.inValue, x, isr, isrCount, index,
        AddrPc.index, delay, cartAddrRead]
    rw [next]
    exact ⟨⟨at_.enabled, rfl, delay, nofun, nofun, fun _ _ => x, rfl, rfl⟩, none, rfl⟩
  | inPins =>
    have x := at_.sticky nofun nofun
    have next : cartAddrRead.clock gpio s =
        ({ s with
            pc := 6, isr := 0#32, isrCount := 0
            rx := s.rx ++ [lutPointer high (gpio.setWidth 16)] },
          [.push (lutPointer high (gpio.setWidth 16))]) := by
      rw [at_.run gpio (.input .pins 16) rfl, ← lutPointer_eq]
      simp [Program.exec, Program.advance, Program.inValue, isr, isrCount, room, index,
        AddrPc.index, delay, cartAddrRead]
    rw [next]
    exact ⟨⟨at_.enabled, rfl, delay, nofun, nofun, fun _ _ => x, rfl, rfl⟩, rfl, rfl⟩
  | waitRd =>
    rw [at_.run gpio (.wait true gpRd) rfl]
    cases level : gpio.getLsbD gpRd <;> simp only [Program.exec, level, AddrPc.next]
    · exact ⟨at_, none, rfl⟩
    · refine ⟨at_.move (by decide) (by decide) rfl ?_ rfl rfl rfl rfl, none, rfl⟩
      simp [Program.advance, index, AddrPc.index, cartAddrRead]

end AddrSteps

/-! ## cart_read -/

/-- The positions of `cart_read`; `hold` is the delay slot of `drive`. -/
inductive ReadPc where
  | waitSltsl
  | jmpRd
  | dirOut
  | ones
  | outputs
  | pull
  | drive
  | hold
  | pace
  | waitRd
  | zeros
  | inputs
  | dirIn
  deriving DecidableEq

namespace ReadPc

def index : ReadPc → Nat
  | waitSltsl => 0
  | jmpRd => 1
  | dirOut => 2
  | ones => 3
  | outputs => 4
  | pull => 5
  | drive => 6
  | hold => 7
  | pace => 7
  | waitRd => 8
  | zeros => 9
  | inputs => 10
  | dirIn => 11

def delay : ReadPc → Nat
  | hold => 1
  | _ => 0

/-- Where a clock with these levels leads, if a word can be pulled. -/
def next (gpio : U64) : ReadPc → ReadPc
  | waitSltsl => if gpio.getLsbD gpSltsl then waitSltsl else jmpRd
  | jmpRd => if gpio.getLsbD gpRd then waitSltsl else dirOut
  | dirOut => ones
  | ones => outputs
  | outputs => pull
  | pull => drive
  | drive => hold
  | hold => pace
  | pace => waitRd
  | waitRd => if gpio.getLsbD gpRd then zeros else waitRd
  | zeros => inputs
  | inputs => dirIn
  | dirIn => waitSltsl

/-- GP16-23 are outputs. -/
def Drives (pc : ReadPc) : Prop :=
  pc = pull ∨ pc = drive ∨ pc = hold ∨ pc = pace ∨ pc = waitRd ∨ pc = zeros ∨ pc = inputs

/-- LVC_DIR is low. -/
def Toward (pc : ReadPc) : Prop := pc = ones ∨ pc = outputs ∨ pc.Drives ∨ pc = dirIn

instance (pc : ReadPc) : Decidable pc.Drives := inferInstanceAs (Decidable (_ ∨ _))
instance (pc : ReadPc) : Decidable pc.Toward := inferInstanceAs (Decidable (_ ∨ _))

end ReadPc

/-- `cart_read` is in position `pc`; in `drive` it has pulled `word`. -/
structure ReadAt (word : U32) (pc : ReadPc) (s : Sm) : Prop where
  enabled : s.enabled = true
  index : s.pc = pc.index
  delay : s.delay = pc.delay
  ones : pc = .outputs → s.osr = ~~~0#32
  loaded : pc = .drive → s.osr = word
  zeros : pc = .inputs → s.osr = 0#32
  dir : ∀ i < 8, s.dir (16 + i) = decide pc.Drives
  lvc : s.level 34 = !decide pc.Toward

section ReadSteps

variable {word : U32} {pc : ReadPc} {s : Sm}

/-- The level of /WAIT after any instruction's side-set. -/
def waitHigh (s : Sm) : Nat → Bool := writePins s.level 30 1 1#32

theorem waitHigh_lvc (s : Sm) : waitHigh s 34 = s.level 34 :=
  writePins_outside _ _ _ _ _ (by decide)

theorem ReadAt.run (at_ : ReadAt word pc s) (gpio : U64) (op : Op) (delay : Nat)
    (ready : pc.delay = 0) (fetch : cartRead.code[pc.index]? = some ⟨op, some true, delay⟩) :
    cartRead.clock gpio s =
      cartRead.exec gpio ⟨op, some true, delay⟩ { s with level := waitHigh s } :=
  cartRead.clock_exec gpio at_.enabled (at_.delay.trans ready) (at_.index ▸ fetch)

/-- A move that touches neither the data pins nor LVC_DIR. -/
theorem ReadAt.move (at_ : ReadAt word pc s) {pc' : ReadPc} {s' : Sm}
    (enabled : s'.enabled = s.enabled) (index : s'.pc = pc'.index) (delay : s'.delay = pc'.delay)
    (ones : pc' = .outputs → s'.osr = ~~~0#32) (zeros : pc' = .inputs → s'.osr = 0#32)
    (loaded : pc' ≠ .drive) (dir : s'.dir = s.dir) (lvc : s'.level = waitHigh s)
    (drives : decide pc.Drives = decide pc'.Drives) (toward : decide pc.Toward = decide pc'.Toward) :
    ReadAt word pc' s' where
  enabled := enabled.trans at_.enabled
  index := index
  delay := delay
  ones := ones
  loaded := fun here => absurd here loaded
  zeros := zeros
  dir := by rw [dir, ← drives]; exact at_.dir
  lvc := by rw [lvc, waitHigh_lvc, ← toward]; exact at_.lvc

/-- One clock of `cart_read` away from `pull`. -/
theorem ReadAt.step (at_ : ReadAt word pc s) (gpio : U64) (elsewhere : pc ≠ .pull) :
    ReadAt word (pc.next gpio) (cartRead.clock gpio s).1 ∧
      (cartRead.clock gpio s).1.tx = s.tx ∧
      (cartRead.clock gpio s).2 = if pc = .drive then [.drive (lowBits word 8)] else [] := by
  have index := at_.index
  cases pc with
  | waitSltsl =>
    rw [at_.run gpio (.wait false gpSltsl) 0 rfl rfl]
    cases level : gpio.getLsbD gpSltsl <;> simp only [Program.exec, level, ReadPc.next]
    · refine ⟨at_.move rfl ?_ rfl nofun nofun nofun rfl rfl rfl rfl, rfl, rfl⟩
      simp [Program.advance, index, ReadPc.index, cartRead]
    · exact ⟨at_.move rfl index at_.delay nofun nofun nofun rfl rfl rfl rfl, rfl, rfl⟩
  | jmpRd =>
    rw [at_.run gpio (.jmpPin 0) 0 rfl rfl]
    have pin : cartRead.jmpPin = gpRd := rfl
    cases level : gpio.getLsbD gpRd <;> simp only [Program.exec, pin, level, ReadPc.next]
    · refine ⟨at_.move rfl ?_ rfl nofun nofun nofun rfl rfl rfl rfl, rfl, rfl⟩
      simp [Program.advance, index, ReadPc.index, cartRead]
    · exact ⟨at_.move rfl rfl rfl nofun nofun nofun rfl rfl rfl rfl, rfl, rfl⟩
  | dirOut =>
    rw [at_.run gpio (.setPins 0#32) 0 rfl rfl]
    refine ⟨⟨at_.enabled, ?_, rfl, nofun, nofun, nofun, at_.dir, ?_⟩, rfl, rfl⟩
    · simp [Program.exec, Program.advance, index, ReadPc.index, cartRead, ReadPc.next]
    · exact (writePins_inside (waitHigh s) 34 1 0#32 34 (by decide)).trans rfl
  | ones =>
    rw [at_.run gpio (.mov .osr .notNull) 0 rfl rfl]
    refine ⟨at_.move rfl ?_ rfl (fun _ => rfl) nofun nofun rfl rfl rfl rfl, rfl, rfl⟩
    simp [Program.exec, Program.advance, index, ReadPc.index, cartRead, ReadPc.next]
  | outputs =>
    rw [at_.run gpio (.output .pindirs 8) 0 rfl rfl]
    refine ⟨⟨at_.enabled, ?_, rfl, nofun, nofun, nofun, ?_, ?_⟩, rfl, rfl⟩
    · simp [Program.exec, Program.advance, index, ReadPc.index, cartRead, ReadPc.next]
    · intro i inside
      show writePins s.dir 16 8 (lowBits s.osr 8) (16 + i) = true
      have wide : i < 32 := by omega
      rw [writePins_inside _ _ _ _ _ (by omega), Nat.add_sub_cancel_left, getLsbD_lowBits _ inside,
        at_.ones rfl, BitVec.getLsbD_not]
      simp [wide]
    · exact (waitHigh_lvc s).trans at_.lvc
  | pull => exact absurd rfl elsewhere
  | drive =>
    rw [at_.run gpio (.output .pins 8) 1 rfl rfl]
    refine ⟨⟨at_.enabled, ?_, rfl, nofun, nofun, nofun, at_.dir, ?_⟩, rfl, ?_⟩
    · simp [Program.exec, Program.advance, index, ReadPc.index, cartRead, ReadPc.next]
    · exact (writePins_outside (waitHigh s) 16 8 (lowBits s.osr 8) 34 (by decide)).trans
        ((waitHigh_lvc s).trans at_.lvc)
    · simp [Program.exec, at_.loaded rfl]
  | hold =>
    rw [cartRead.clock_delayed gpio at_.enabled (by rw [at_.delay]; decide)]
    refine ⟨⟨at_.enabled, index, ?_, nofun, nofun, nofun, at_.dir, at_.lvc⟩, rfl, rfl⟩
    rw [at_.delay]
    rfl
  | pace =>
    rw [at_.run gpio .nop 0 rfl rfl]
    refine ⟨at_.move rfl ?_ rfl nofun nofun nofun rfl rfl rfl rfl, rfl, rfl⟩
    simp [Program.exec, Program.advance, index, ReadPc.index, cartRead, ReadPc.next]
  | waitRd =>
    rw [at_.run gpio (.wait true gpRd) 0 rfl rfl]
    cases level : gpio.getLsbD gpRd <;> simp only [Program.exec, level, ReadPc.next]
    · exact ⟨at_.move rfl index at_.delay nofun nofun nofun rfl rfl rfl rfl, rfl, rfl⟩
    · refine ⟨at_.move rfl ?_ rfl nofun nofun nofun rfl rfl rfl rfl, rfl, rfl⟩
      simp [Program.advance, index, ReadPc.index, cartRead]
  | zeros =>
    rw [at_.run gpio (.mov .osr .null) 0 rfl rfl]
    refine ⟨at_.move rfl ?_ rfl nofun (fun _ => rfl) nofun rfl rfl rfl rfl, rfl, rfl⟩
    simp [Program.exec, Program.advance, index, ReadPc.index, cartRead, ReadPc.next]
  | inputs =>
    rw [at_.run gpio (.output .pindirs 8) 0 rfl rfl]
    refine ⟨⟨at_.enabled, ?_, rfl, nofun, nofun, nofun, ?_, ?_⟩, rfl, rfl⟩
    · simp [Program.exec, Program.advance, index, ReadPc.index, cartRead, ReadPc.next]
    · intro i inside
      show writePins s.dir 16 8 (lowBits s.osr 8) (16 + i) = false
      rw [writePins_inside _ _ _ _ _ (by omega), Nat.add_sub_cancel_left, getLsbD_lowBits _ inside,
        at_.zeros rfl]
      simp
    · exact (waitHigh_lvc s).trans at_.lvc
  | dirIn =>
    rw [at_.run gpio (.setPins 1#32) 0 rfl rfl]
    refine ⟨⟨at_.enabled, ?_, rfl, nofun, nofun, nofun, at_.dir, ?_⟩, rfl, rfl⟩
    · simp [Program.exec, Program.advance, index, ReadPc.index, cartRead, ReadPc.next]
    · exact (writePins_inside (waitHigh s) 34 1 1#32 34 (by decide)).trans rfl

/-- `pull` waits while the FIFO is empty. -/
theorem ReadAt.stall (at_ : ReadAt word .pull s) (gpio : U64) (empty : s.tx = []) :
    ReadAt word .pull (cartRead.clock gpio s).1 ∧ (cartRead.clock gpio s).1.tx = [] ∧
      (cartRead.clock gpio s).2 = [] := by
  rw [at_.run gpio .pullBlock 0 rfl rfl]
  have waits : cartRead.exec gpio ⟨.pullBlock, some true, 0⟩ { s with level := waitHigh s } =
      ({ s with level := waitHigh s }, []) := by
    simp [Program.exec, empty]
  rw [waits]
  exact ⟨at_.move rfl at_.index at_.delay nofun nofun nofun rfl rfl rfl rfl, empty, rfl⟩

theorem ReadAt.pull (at_ : ReadAt word .pull s) (gpio : U64) {pulled : U32} {rest : List U32}
    (tx : s.tx = pulled :: rest) :
    ReadAt pulled .drive (cartRead.clock gpio s).1 ∧ (cartRead.clock gpio s).1.tx = rest ∧
      (cartRead.clock gpio s).2 = [.pull pulled] := by
  rw [at_.run gpio .pullBlock 0 rfl rfl]
  have takes : cartRead.exec gpio ⟨.pullBlock, some true, 0⟩ { s with level := waitHigh s } =
      ({ s with level := waitHigh s, pc := 6, delay := 0, osr := pulled, tx := rest },
        [.pull pulled]) := by
    simp [Program.exec, Program.advance, tx, at_.index, ReadPc.index, cartRead]
  rw [takes]
  exact ⟨⟨at_.enabled, rfl, rfl, nofun, fun _ => rfl, nofun, at_.dir,
    (waitHigh_lvc s).trans at_.lvc⟩, rfl, rfl⟩

end ReadSteps

end MsxPulse.Firmware
