import MsxPulse.Firmware.CartServe
import MsxPulse.Firmware.CartServe.Programs
import MsxPulse.Library.Machine

/-!
# Serving a read, clock by clock (cart_serve.c, cart_serve.pio)

Both state machines see the same GPIO levels at a clock. The two DMA channels are
one step that turns a pushed pointer into a byte of memory in cart_read's TX
FIFO; when it happens is up to the environment. The processor's SDK calls take
effect between clocks.
-/

namespace MsxPulse.Firmware

open Library Library.Pio

/-- What happens at one clock. The calls are those on the two state machines and the
two channels. -/
structure ServeInput where
  gpio : U64
  dma : Bool
  calls : List SdkCall

inductive ServeEffect where
  | pushed (pointer : U32)
  | pulled (word : U32)
  | driven (byte : U8)
  deriving DecidableEq

/-- The two state machines and the DMA chain: channel A forwards pointers,
channel B is set up to fetch. -/
structure Serve where
  cart : CartServe
  addr : Sm
  read : Sm
  addrFwd : Bool
  dataFetch : Bool

/-- An 8-bit transfer to a FIFO fills all four byte lanes. -/
def lanes (byte : U8) : U32 := byte ++ byte ++ byte ++ byte

theorem lanes_low (byte : U8) : (lowBits (lanes byte) 8).setWidth 8 = byte := by
  apply BitVec.eq_of_getLsbD_eq
  intro i inside
  rw [BitVec.getLsbD_setWidth, getLsbD_lowBits _ inside, decide_eq_true inside, Bool.true_and]
  show (byte ++ byte ++ byte ++ byte : BitVec (8 + 8 + 8 + 8)).getLsbD i = byte.getLsbD i
  rw [BitVec.getLsbD_append, if_pos inside]

def readEffect : Effect → Option ServeEffect
  | .pull word => some (.pulled word)
  | .drive word => some (.driven (word.setWidth 8))
  | .push _ => none

namespace Serve

/-- One call on a state machine whose program is loaded at `offset`. -/
def smOp (s : Sm) (offset : Nat) : SmOp → Sm
  | .init target => (s.setEnabled false).clearFifos.restart.jump (target - offset)
  | .setConsecutivePindirs base count out => s.setConsecutivePindirs base count out
  | .setPinsWithMask values mask => s.setPinsWithMask values mask
  | .clearFifos => s.clearFifos
  | .setEnabled on => s.setEnabled on
  | .restart => s.restart
  | .execJmp target => s.jump (target - offset)
  | .put word => s.put word
  | .setConfig _ | .readRegs => s

def perform (s : Serve) : SdkCall → Serve
  | .sm .pio1 0 op => { s with addr := smOp s.addr s.cart.addrProgOffset op }
  | .sm .pio2 0 op => { s with read := smOp s.read s.cart.readProgOffset op }
  | .dma channel .abort =>
    { s with
      addrFwd := s.addrFwd && decide (channel ≠ s.cart.dmaAddrFwdCh)
      dataFetch := s.dataFetch && decide (channel ≠ s.cart.dmaDataFetchCh) }
  | .dma channel (.configure c) =>
    { s with
      addrFwd :=
        if channel = s.cart.dmaAddrFwdCh then
          c.trigger && decide (c.writeTo = .readAddrTrig s.cart.dmaDataFetchCh)
        else s.addrFwd
      dataFetch :=
        if channel = s.cart.dmaDataFetchCh then decide (c.writeTo = .txFifo .pio2 0)
        else s.dataFetch }
  | _ => s

/-- The chain turns the oldest pointer into a byte. -/
def dmaStep (mem : U32 → U8) (s : Serve) : Serve :=
  match s.addr.rx with
  | pointer :: rest =>
    if s.addrFwd ∧ s.dataFetch ∧ s.read.tx.length < fifoDepth then
      { s with
        addr := { s.addr with rx := rest }
        read := { s.read with tx := s.read.tx ++ [lanes (mem pointer)] } }
    else s
  | [] => s

/-- Both programs run one clock. -/
def clock (s : Serve) (gpio : U64) : Serve × List ServeEffect :=
  let a := cartAddrRead.clock gpio s.addr
  let r := cartRead.clock gpio s.read
  ({ s with addr := a.1, read := r.1 },
    (a.2.filterMap pushedWord).map .pushed ++ r.2.filterMap readEffect)

def machine (mem : U32 → U8) : Machine Serve ServeInput ServeEffect where
  step s i :=
    let ran := s.clock i.gpio
    (i.calls.foldl perform (if i.dma then ran.1.dmaStep mem else ran.1), ran.2)

end Serve

/-- A memory, a state to start from and everything that happens to it. -/
structure ServeRun where
  mem : U32 → U8
  start : Serve
  inputs : Nat → ServeInput

namespace ServeRun

variable (run : ServeRun)

/-- The state before clock `n`. -/
def state (n : Nat) : Serve := (Serve.machine run.mem).stateAt run.start run.inputs n

/-- What the clocks `first ..< last` push, pull and drive. -/
def effects (first last : Nat) : List ServeEffect :=
  (Serve.machine run.mem).emittedFrom run.start run.inputs first last

def effectsAt (n : Nat) : List ServeEffect :=
  (Serve.machine run.mem).emittedAt run.start run.inputs n

/-- The levels of /SLTSL and /RD and the address lines at a clock. -/
def sltsl (n : Nat) : Bool := (run.inputs n).gpio.getLsbD gpSltsl
def rd (n : Nat) : Bool := (run.inputs n).gpio.getLsbD gpRd
def raw (n : Nat) : U16 := (run.inputs n).gpio.setWidth 16

/-- Both lines are low. -/
def Selected (n : Nat) : Prop := run.sltsl n = false ∧ run.rd n = false

instance (n : Nat) : Decidable (run.Selected n) := inferInstanceAs (Decidable (_ ∧ _))

/-- The pointer to the table entry for the address lines at a clock, and its byte. -/
def pointer (n : Nat) : U32 := lutPointer run.start.cart.lutHigh (run.raw n)
def romLut (n : Nat) : U8 := run.mem (run.pointer n)

/-- The bus timing that the two programs rely on. -/
structure Waveform : Prop where
  /-- /RD stays high for 16 clocks. -/
  recovery : ∀ r, 0 < r → run.rd (r - 1) = false → run.rd r = true →
    ∀ j < 16, run.rd (r + j) = true
  /-- Both lines stay low together for 16 clocks. -/
  access : ∀ b, run.Selected b → b = 0 ∨ ¬ run.Selected (b - 1) →
    ∀ j < 16, run.Selected (b + j)
  /-- /SLTSL does not rise in the four clocks up to a fall of /RD. -/
  settled : ∀ f, 0 < f → run.rd (f - 1) = true → run.rd f = false →
    ∀ m, 0 < m → m ≤ f → f ≤ m + 3 → ¬ (run.sltsl (m - 1) = false ∧ run.sltsl m = true)

/-- Between clocks `m` and `e`, bytes arrive eight clocks before the end of the low
phase of /RD that asked for them. -/
def Timely (m e : Nat) : Prop :=
  ∀ p r, m ≤ p → p < r → r ≤ e → (∃ pointer, .pushed pointer ∈ run.effectsAt p) →
    (∀ j, p ≤ j → j < r → run.rd j = false) → run.rd r = true →
    ∃ t, p ≤ t ∧ t + 8 ≤ r ∧ (run.inputs t).dma = true

/-- A low phase of /RD, from its first clock to the first high one after it. -/
structure LowPhase (f r : Nat) : Prop where
  nonempty : f < r
  low : ∀ j, f ≤ j → j < r → run.rd j = false
  ends : run.rd r = true
  begins : f = 0 ∨ run.rd (f - 1) = true

/-- Between clocks `m` and `e`, both programs answer the same low phases, each once. -/
structure LockStep (m e : Nat) : Prop where
  /-- A phase that meets /SLTSL low gets the byte of an address sampled in it. -/
  served : ∀ f r, m ≤ f → r ≤ e → run.LowPhase f r →
    (∃ j, f ≤ j ∧ j < r ∧ run.sltsl j = false) →
    ∃ p, f ≤ p ∧ p < r ∧ run.Selected p ∧
      run.effects f r =
        [.pushed (run.pointer p), .pulled (lanes (run.romLut p)), .driven (run.romLut p)]
  /-- Other phases get nothing. -/
  ignored : ∀ f r, m ≤ f → r ≤ e → run.LowPhase f r →
    (∀ j, f ≤ j → j < r → run.sltsl j = true) → run.effects f r = []
  /-- While /RD is high both FIFOs are empty and nothing happens. -/
  between : ∀ n, m ≤ n → n < e → run.rd n = true →
    run.effectsAt n = [] ∧ (run.state n).addr.rx = [] ∧ (run.state n).read.tx = []
  /-- GP16-23 and LVC_DIR are turned only from a detection until four clocks after
  /RD has risen. -/
  turned : ∀ n, m ≤ n → n ≤ e →
    (∃ i < 8, (run.state n).read.dir (16 + i) = true) ∨ (run.state n).read.level 34 = false →
    ∃ d, m ≤ d ∧ d < n ∧ run.Selected d ∧
      ((∀ j, d ≤ j → j < n → run.rd j = false) ∨
        ∃ r, d < r ∧ r < n ∧ n < r + 4 ∧ (∀ j, d ≤ j → j < r → run.rd j = false) ∧
          run.rd r = true)

end ServeRun

end MsxPulse.Firmware
