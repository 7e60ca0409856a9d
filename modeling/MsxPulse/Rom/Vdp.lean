import Mathlib.Logic.Function.Basic
import MsxPulse.Library.StuckAt
import MsxPulse.Library.Z80

/-!
# The memory and the VDP that the ROM tests

Every cell of the RAM and of the VRAM may have stuck bits. The VDP takes its address in
two bytes at the control port, counts it up at each transfer through the data port, and
reads one byte ahead.
-/

namespace MsxPulse.Rom

open Library (StuckAt)
open Library.Z80

def vdpData : Byte := 0x98#8

def vdpCtrl : Byte := 0x99#8

/-- A TMS9918 with 16 KB of VRAM. -/
structure Vdp where
  vram : BitVec 14 → Byte
  faults : BitVec 14 → StuckAt 8
  addr : BitVec 14
  /-- The byte that the next data read delivers. -/
  ahead : Byte
  /-- The first byte of a pair at the control port. -/
  latch : Option Byte
  registers : BitVec 3 → Byte
  status : Byte

namespace Vdp

/-- What a VRAM cell returns. -/
def cell (v : Vdp) (a : BitVec 14) : Byte := (v.faults a).read (v.vram a)

/-- A pair of control bytes: bits 7 and 6 of the second tell a register write from an
address for writing and an address for reading. -/
def setup (v : Vdp) (first second : Byte) : Vdp :=
  let addr := (join second first).setWidth 14
  if second.getLsbD 7 then
    { v with
      latch := none
      registers := Function.update v.registers (second.setWidth 3) first }
  else if second.getLsbD 6 then { v with latch := none, addr }
  else { v with latch := none, addr := addr + 1#14, ahead := v.cell addr }

def writeCtrl (v : Vdp) (b : Byte) : Vdp :=
  match v.latch with
  | none => { v with latch := some b }
  | some first => v.setup first b

def writeData (v : Vdp) (b : Byte) : Vdp :=
  { v with
    vram := Function.update v.vram v.addr b
    addr := v.addr + 1#14
    ahead := b
    latch := none }

def readData (v : Vdp) : Byte × Vdp :=
  (v.ahead, { v with addr := v.addr + 1#14, ahead := v.cell v.addr, latch := none })

/-- Reading the status clears its three flags. -/
def readStatus (v : Vdp) : Byte × Vdp :=
  (v.status, { v with status := v.status &&& 0x1F#8, latch := none })

end Vdp

/-- The RAM as the Z80 sees it, and the VDP. -/
structure Msx where
  ram : Word → Byte
  faults : Word → StuckAt 8
  vdp : Vdp

/-- The cells that a test can be about. -/
inductive Cell where
  | ram (addr : Word)
  | vram (addr : BitVec 14)
  deriving DecidableEq

namespace Msx

/-- What a RAM cell returns. -/
def cell (s : Msx) (a : Word) : Byte := (s.faults a).read (s.ram a)

/-- Other ports float and take no notice. -/
def bus : Bus Msx where
  read := cell
  write s a v := { s with ram := Function.update s.ram a v }
  input s port :=
    if port = vdpData then (s.vdp.readData.1, { s with vdp := s.vdp.readData.2 })
    else if port = vdpCtrl then (s.vdp.readStatus.1, { s with vdp := s.vdp.readStatus.2 })
    else (0xFF#8, s)
  output s port v :=
    if port = vdpData then { s with vdp := s.vdp.writeData v }
    else if port = vdpCtrl then { s with vdp := s.vdp.writeCtrl v }
    else s

/-- The cell that an access of the Z80 is to. The byte that a data read delivers has been
read ahead, from the cell before the VDP's address. -/
def touched (s : Msx) : Access → List Cell
  | .read a | .write a _ => [.ram a]
  | .input port => if port = vdpData then [.vram (s.vdp.addr - 1#14)] else []
  | .output port _ => if port = vdpData then [.vram s.vdp.addr] else []

end Msx

end MsxPulse.Rom
