import MsxPulse.Firmware.CartServe.Serve
import Mathlib.Tactic.IntervalCases

/-!
# Lock-step of cart_addr_read and cart_read

The invariant has three cases. Between accesses both programs poll /SLTSL and /RD
and every FIFO is empty. From the first clock `b` with both lines low until /RD
rises the access is open: each program lags the other by a few clocks at most, and
the pointer, the byte and the driven byte follow each other. After the rise
`cart_read` needs three more clocks to let go of the bus.
-/

namespace MsxPulse.Firmware

open Library Library.Pio

namespace AddrPc

theorem pushes_nil (high : U32) (gpio : U64) {pc : AddrPc} (elsewhere : pc ≠ .inPins) :
    pc.pushes high gpio = [] := if_neg elsewhere

/-- With both lines low the program moves on until the push is done. -/
theorem index_next {gpio : U64} {pc : AddrPc} (sltsl : gpio.getLsbD gpSltsl = false)
    (rd : gpio.getLsbD gpRd = false) (before : pc.index ≤ 5) :
    (pc.next gpio).index = pc.index + 1 := by
  cases pc <;> simp_all [next, index]

end AddrPc

namespace ReadPc

/-- Where a clock leads while nothing can be pulled. -/
def starved (gpio : U64) (pc : ReadPc) : ReadPc := if pc = pull then pull else pc.next gpio

@[simp] theorem starved_waitSltsl (gpio : U64) :
    starved gpio waitSltsl = if gpio.getLsbD gpSltsl then waitSltsl else jmpRd := rfl

@[simp] theorem starved_jmpRd (gpio : U64) :
    starved gpio jmpRd = if gpio.getLsbD gpRd then waitSltsl else dirOut := rfl

/-- Between the detection and the pull, at most as many clocks behind `b` as
instructions have run. -/
def Waiting (b n : Nat) (pc : ReadPc) : Prop :=
  1 ≤ pc.index ∧ pc.index ≤ 5 ∧ (pc = pull ∨ n ≤ b + pc.index)

theorem Waiting.not_drive {b n : Nat} {pc : ReadPc} (waiting : pc.Waiting b n) : pc ≠ drive := by
  rintro rfl
  exact absurd waiting.2.1 (by decide)

theorem Waiting.index_le {b n : Nat} {pc : ReadPc} (waiting : pc.Waiting b n) (other : pc ≠ pull) :
    pc.index ≤ 4 ∧ n ≤ b + pc.index := by
  refine ⟨?_, waiting.2.2.resolve_left other⟩
  have most := waiting.2.1
  have below : pc.index ≠ 5 := by
    cases pc with
    | pull => exact absurd rfl other
    | _ => decide
  omega

theorem index_next {gpio : U64} {pc : ReadPc} (sltsl : gpio.getLsbD gpSltsl = false)
    (rd : gpio.getLsbD gpRd = false) (before : pc.index ≤ 4) :
    (pc.next gpio).index = pc.index + 1 := by
  cases pc <;> simp_all [next, index]

theorem Waiting.next {b n : Nat} {pc : ReadPc} (waiting : pc.Waiting b n) (other : pc ≠ pull)
    {gpio : U64} (sltsl : gpio.getLsbD gpSltsl = false) (rd : gpio.getLsbD gpRd = false) :
    (pc.next gpio).Waiting b (n + 1) := by
  obtain ⟨most, lag⟩ := waiting.index_le other
  have moved := index_next sltsl rd most
  exact ⟨by omega, by omega, .inr (by omega)⟩

theorem Waiting.starved {b n : Nat} {pc : ReadPc} (waiting : pc.Waiting b n) {gpio : U64}
    (low : pc ≠ pull → gpio.getLsbD gpSltsl = false ∧ gpio.getLsbD gpRd = false) :
    (pc.starved gpio).Waiting b (n + 1) := by
  unfold ReadPc.starved
  split
  · exact ⟨by decide, by decide, .inl rfl⟩
  · rename_i other
    exact waiting.next other (low other).1 (low other).2

end ReadPc

/-- One clock of `cart_read` with an empty TX FIFO. -/
theorem ReadAt.starve {word : U32} {pc : ReadPc} {s : Sm} (at_ : ReadAt word pc s) (gpio : U64)
    (empty : s.tx = []) (other : pc ≠ .drive) :
    ReadAt word (pc.starved gpio) (cartRead.clock gpio s).1 ∧
      (cartRead.clock gpio s).1.tx = [] ∧ (cartRead.clock gpio s).2 = [] := by
  unfold ReadPc.starved
  by_cases here : pc = .pull
  · subst here
    rw [if_pos rfl]
    exact at_.stall gpio empty
  · obtain ⟨moved, tx, effects⟩ := at_.step gpio here
    rw [if_neg here]
    exact ⟨moved, tx.trans empty, effects.trans (if_neg other)⟩

namespace ServeRun

variable {run : ServeRun}

/-- Both programs' positions and both FIFOs at a clock, with the DMA chain armed. -/
structure Snap (run : ServeRun) (n : Nat) (apc : AddrPc) (rpc : ReadPc) (word : U32)
    (rx tx : List U32) : Prop where
  addr : AddrAt run.start.cart.lutHigh apc (run.state n).addr
  read : ReadAt word rpc (run.state n).read
  rx : (run.state n).addr.rx = rx
  tx : (run.state n).read.tx = tx
  fwd : (run.state n).addrFwd = true
  fetch : (run.state n).dataFetch = true

theorem state_succ {n : Nat} (idle : (run.inputs n).calls = []) :
    run.state (n + 1) =
      if (run.inputs n).dma then ((run.state n).clock (run.inputs n).gpio).1.dmaStep run.mem
      else ((run.state n).clock (run.inputs n).gpio).1 := by
  show (run.inputs n).calls.foldl Serve.perform _ = _
  rw [idle]
  rfl

theorem state_succ_empty {n : Nat} (idle : (run.inputs n).calls = [])
    (rx : ((run.state n).clock (run.inputs n).gpio).1.addr.rx = []) :
    run.state (n + 1) = ((run.state n).clock (run.inputs n).gpio).1 := by
  rw [state_succ idle]
  split
  · unfold Serve.dmaStep
    rw [rx]
  · rfl

theorem effects_succ {b n : Nat} (le : b ≤ n) :
    run.effects b (n + 1) = run.effects b n ++ run.effectsAt n :=
  Machine.gather_succ _ le

theorem effectsAt_eq (n : Nat) :
    run.effectsAt n =
      ((cartAddrRead.clock (run.inputs n).gpio (run.state n).addr).2.filterMap pushedWord).map
          .pushed ++
        (cartRead.clock (run.inputs n).gpio (run.state n).read).2.filterMap readEffect := rfl

namespace Snap

variable {n : Nat} {apc : AddrPc} {rpc : ReadPc} {word byte : U32} {rx tx : List U32}

theorem of_state {s : Serve} (at_ : run.state n = s) (addr : AddrAt run.start.cart.lutHigh apc s.addr)
    (read : ReadAt word rpc s.read) (emptyRx : s.addr.rx = rx) (emptyTx : s.read.tx = tx)
    (fwd : s.addrFwd = true) (fetch : s.dataFetch = true) : Snap run n apc rpc word rx tx := by
  subst at_
  exact ⟨addr, read, emptyRx, emptyTx, fwd, fetch⟩

/-- `cart_addr_read` moves on and pushes nothing. -/
theorem addr_clock (snap : Snap run n apc rpc word [] tx) (noPush : apc ≠ .inPins) :
    AddrAt run.start.cart.lutHigh (apc.next (run.inputs n).gpio)
        ((run.state n).clock (run.inputs n).gpio).1.addr ∧
      ((run.state n).clock (run.inputs n).gpio).1.addr.rx = [] ∧
      (cartAddrRead.clock (run.inputs n).gpio (run.state n).addr).2.filterMap pushedWord = [] := by
  have room : (run.state n).addr.rx.length < fifoDepth := by
    rw [snap.rx]
    decide
  obtain ⟨addr, rx, pushed⟩ := snap.addr.step (run.inputs n).gpio room
  rw [AddrPc.pushes_nil _ _ noPush] at rx pushed
  rw [snap.rx, List.append_nil] at rx
  exact ⟨addr, rx, pushed⟩

/-- A clock that leaves nothing for the DMA chain. -/
theorem free (snap : Snap run n apc rpc word [] tx) (idle : (run.inputs n).calls = [])
    (noPush : apc ≠ .inPins) (noPull : rpc ≠ .pull) :
    Snap run (n + 1) (apc.next (run.inputs n).gpio) (rpc.next (run.inputs n).gpio) word [] tx ∧
      run.effectsAt n = if rpc = .drive then [.driven ((lowBits word 8).setWidth 8)] else [] := by
  obtain ⟨addr, rx, pushed⟩ := snap.addr_clock noPush
  obtain ⟨read, tx', effects⟩ := snap.read.step (run.inputs n).gpio noPull
  have next := state_succ_empty idle rx
  refine ⟨of_state next addr read rx (tx'.trans snap.tx) snap.fwd snap.fetch, ?_⟩
  rw [effectsAt_eq, pushed, effects]
  by_cases driving : rpc = .drive
  · rw [if_pos driving, if_pos driving]
    rfl
  · rw [if_neg driving, if_neg driving]
    rfl

/-- A clock at which the byte is pulled. -/
theorem take (snap : Snap run n apc .pull word [] [byte]) (idle : (run.inputs n).calls = [])
    (noPush : apc ≠ .inPins) :
    Snap run (n + 1) (apc.next (run.inputs n).gpio) .drive byte [] [] ∧
      run.effectsAt n = [.pulled byte] := by
  obtain ⟨addr, rx, pushed⟩ := snap.addr_clock noPush
  obtain ⟨read, tx', effects⟩ := snap.read.pull (run.inputs n).gpio snap.tx
  have next := state_succ_empty idle rx
  refine ⟨of_state next addr read rx tx' snap.fwd snap.fetch, ?_⟩
  rw [effectsAt_eq, pushed, effects]
  rfl

/-- A clock at which `cart_read` finds nothing to pull: the pointer may be pushed,
and the DMA chain may turn it into a byte. -/
theorem starve (snap : Snap run n apc rpc word rx []) (idle : (run.inputs n).calls = [])
    (noDrive : rpc ≠ .drive) (room : rx.length < fifoDepth) {rx' : List U32}
    (pushes : rx ++ apc.pushes run.start.cart.lutHigh (run.inputs n).gpio = rx') :
    run.effectsAt n =
        (apc.pushes run.start.cart.lutHigh (run.inputs n).gpio).map .pushed ∧
      ((run.inputs n).dma = false ∨ rx' = [] →
        Snap run (n + 1) (apc.next (run.inputs n).gpio) (rpc.starved (run.inputs n).gpio) word
          rx' []) ∧
      ((run.inputs n).dma = true → ∀ pointer, rx' = [pointer] →
        Snap run (n + 1) (apc.next (run.inputs n).gpio) (rpc.starved (run.inputs n).gpio) word
          [] [lanes (run.mem pointer)]) := by
  obtain ⟨addr, rxNext, pushed⟩ := snap.addr.step (run.inputs n).gpio (snap.rx ▸ room)
  obtain ⟨read, txNext, effects⟩ := snap.read.starve (run.inputs n).gpio snap.tx noDrive
  rw [snap.rx, pushes] at rxNext
  refine ⟨?_, ?_, ?_⟩
  · rw [effectsAt_eq, pushed, effects]
    exact List.append_nil _
  · intro stays
    have next : run.state (n + 1) = ((run.state n).clock (run.inputs n).gpio).1 := by
      rcases stays with off | none
      · rw [state_succ idle, if_neg (by simp [off])]
      · exact state_succ_empty idle (rxNext.trans none)
    exact of_state next addr read rxNext txNext snap.fwd snap.fetch
  · intro on pointer one
    have next : run.state (n + 1) =
        { ((run.state n).clock (run.inputs n).gpio).1 with
          addr := { (cartAddrRead.clock (run.inputs n).gpio (run.state n).addr).1 with rx := [] }
          read := { (cartRead.clock (run.inputs n).gpio (run.state n).read).1 with
            tx := [lanes (run.mem pointer)] } } := by
      rw [state_succ idle, if_pos on]
      unfold Serve.dmaStep
      rw [show ((run.state n).clock (run.inputs n).gpio).1.addr.rx = [pointer] from
        rxNext.trans one]
      simp [Serve.clock, snap.fwd, snap.fetch, txNext, fifoDepth]
    exact of_state next { addr with } { read with } rfl rfl snap.fwd snap.fetch

/-- A clock at which both programs poll. -/
theorem poll (snap : Snap run n apc rpc word [] []) (idle : (run.inputs n).calls = [])
    (noPush : apc ≠ .inPins) (noDrive : rpc ≠ .drive) :
    Snap run (n + 1) (apc.next (run.inputs n).gpio) (rpc.starved (run.inputs n).gpio) word
        [] [] ∧ run.effectsAt n = [] := by
  have none := AddrPc.pushes_nil run.start.cart.lutHigh (run.inputs n).gpio noPush
  obtain ⟨effects, stays, -⟩ := snap.starve idle noDrive (by decide)
    ((List.nil_append _).trans none)
  exact ⟨stays (.inr rfl), by rw [effects, none]; rfl⟩

end Snap

/-- The last clock saw /SLTSL low. -/
def Polled (run : ServeRun) (n : Nat) : Prop := 0 < n ∧ run.sltsl (n - 1) = false

/-- Both programs poll, and the access in progress, if any, begins now. -/
structure Idle (run : ServeRun) (n : Nat) (apc : AddrPc) (rpc : ReadPc) (word : U32) : Prop where
  snap : Snap run n apc rpc word [] []
  addr : apc = .pull ∨ apc = .latch ∨ apc = .waitSltsl ∨ apc = .jmpRd ∧ run.Polled n
  read : rpc = .waitSltsl ∨ rpc = .jmpRd ∧ run.Polled n
  fresh : n = 0 ∨ ¬ run.Selected (n - 1)

/-- An access is open: both lines fell at `b` and /RD has not risen. -/
structure Open (run : ServeRun) (b n : Nat) : Prop where
  after : b < n
  selected : ∀ j < 16, run.Selected (b + j)
  low : ∀ j, b ≤ j → j < n → run.rd j = false

/-- The pointer was pushed at `p`. -/
structure Asked (run : ServeRun) (b p n : Nat) : Prop where
  after : b ≤ p
  soon : p ≤ b + 5
  before : p < n
  pushed : .pushed (run.pointer p) ∈ run.effectsAt p

/-- How far an open access has come. `p` is the clock of the push and `t` that of
the transfer. -/
inductive Access (run : ServeRun) (b n : Nat) : Prop where
  | wanted {apc : AddrPc} {rpc : ReadPc} {word : U32} (snap : Snap run n apc rpc word [] [])
      (early : apc.index ≤ 5) (lag : n ≤ b + apc.index) (waiting : rpc.Waiting b n)
      (effects : run.effects b n = [])
  | sent {rpc : ReadPc} {word : U32} (p : Nat) (asked : run.Asked b p n)
      (snap : Snap run n .waitRd rpc word [run.pointer p] []) (waiting : rpc.Waiting b n)
      (late : ∀ j, p ≤ j → j < n → (run.inputs j).dma = false)
      (effects : run.effects b n = [.pushed (run.pointer p)])
  | fetched {rpc : ReadPc} {word : U32} (p t : Nat) (asked : run.Asked b p n)
      (snap : Snap run n .waitRd rpc word [] [lanes (run.romLut p)]) (waiting : rpc.Waiting b n)
      (bound : n ≤ max (t + 1) (b + 5))
      (first : ∀ j, p ≤ j → j < t → (run.inputs j).dma = false)
      (effects : run.effects b n = [.pushed (run.pointer p)])
  | loaded (p t : Nat) (asked : run.Asked b p n)
      (snap : Snap run n .waitRd .drive (lanes (run.romLut p)) [] [])
      (bound : n ≤ max (t + 1) (b + 5) + 1)
      (first : ∀ j, p ≤ j → j < t → (run.inputs j).dma = false)
      (effects : run.effects b n =
        [.pushed (run.pointer p), .pulled (lanes (run.romLut p))])
  | driven {rpc : ReadPc} {word : U32} (p t : Nat) (asked : run.Asked b p n)
      (snap : Snap run n .waitRd rpc word [] [])
      (bound : rpc = .hold ∧ n ≤ max (t + 1) (b + 5) + 2 ∨
        rpc = .pace ∧ n ≤ max (t + 1) (b + 5) + 3 ∨ rpc = .waitRd)
      (first : ∀ j, p ≤ j → j < t → (run.inputs j).dma = false)
      (effects : run.effects b n =
        [.pushed (run.pointer p), .pulled (lanes (run.romLut p)), .driven (run.romLut p)])

/-- /RD rose at `r` and `cart_read` lets go of the bus. -/
structure Tail (run : ServeRun) (b r n : Nat) (apc : AddrPc) (rpc : ReadPc) (word : U32) :
    Prop where
  opened : run.Open b r
  after : r < n
  soon : n < r + 4
  high : ∀ j < 16, run.rd (r + j) = true
  snap : Snap run n apc rpc word [] []
  addr : apc = .waitSltsl ∨ apc = .jmpRd ∧ run.Polled n
  read : rpc = .zeros ∧ n = r + 1 ∨ rpc = .inputs ∧ n = r + 2 ∨ rpc = .dirIn ∧ n = r + 3

section Steps

variable {n b r : Nat} {apc : AddrPc} {rpc : ReadPc} {word : U32}

/-- A program that saw /SLTSL low one clock ago does not take a later fall of /RD
for an access. -/
theorem Waveform.no_false_start (wave : run.Waveform) (polled : run.Polled n)
    (fresh : n = 0 ∨ ¬ run.Selected (n - 1)) (unselected : ¬ run.Selected n) :
    run.rd n = true := by
  obtain ⟨positive, low⟩ := polled
  have before : run.rd (n - 1) = true := by
    rcases fresh with zero | apart
    · omega
    · exact Bool.eq_true_of_not_eq_false fun rd => apart ⟨low, rd⟩
  refine Bool.eq_true_of_not_eq_false fun fall => ?_
  have rose : run.sltsl n = true := Bool.eq_true_of_not_eq_false fun held => unselected ⟨held, fall⟩
  exact wave.settled n positive before fall n positive (Nat.le_refl n) (Nat.le_add_right n 3)
    ⟨low, rose⟩

theorem Idle.positions (idle : run.Idle n apc rpc word) : apc ≠ .inPins ∧ rpc ≠ .drive := by
  constructor
  · rintro rfl
    simpa using idle.addr
  · rintro rfl
    simpa using idle.read

theorem polled_succ (low : run.sltsl n = false) : run.Polled (n + 1) := ⟨Nat.succ_pos n, low⟩

/-- Polling goes on while the lines are not both low. -/
theorem Idle.stay (idle : run.Idle n apc rpc word) (wave : run.Waveform)
    (quiet : (run.inputs n).calls = []) (unselected : ¬ run.Selected n) :
    (∃ apc' rpc', run.Idle (n + 1) apc' rpc' word) ∧ run.effectsAt n = [] := by
  obtain ⟨noPush, noDrive⟩ := idle.positions
  obtain ⟨snap, effects⟩ := idle.snap.poll quiet noPush noDrive
  refine ⟨⟨_, _, snap, ?_, ?_, .inr unselected⟩, effects⟩
  · rcases idle.addr with rfl | rfl | rfl | ⟨rfl, polled⟩
    · exact .inr (.inl rfl)
    · exact .inr (.inr (.inl rfl))
    · cases low : run.sltsl n with
      | true => exact .inr (.inr (.inl (if_pos low)))
      | false => exact .inr (.inr (.inr ⟨if_neg (by simpa [sltsl] using low), polled_succ low⟩))
    · exact .inr (.inr (.inl (if_pos (wave.no_false_start polled idle.fresh unselected))))
  · rcases idle.read with rfl | ⟨rfl, polled⟩
    · cases low : run.sltsl n with
      | true => exact .inl (if_pos low)
      | false =>
        have line : (run.inputs n).gpio.getLsbD gpSltsl = false := low
        exact .inr ⟨by simp [line], polled_succ low⟩
    · exact .inl (if_pos (wave.no_false_start polled idle.fresh unselected))

/-- The first clock with both lines low opens an access. -/
theorem Idle.opens (idle : run.Idle n apc rpc word) (wave : run.Waveform)
    (quiet : (run.inputs n).calls = []) (selected : run.Selected n) :
    run.Open n (n + 1) ∧ run.Access n (n + 1) ∧ run.effectsAt n = [] := by
  obtain ⟨noPush, noDrive⟩ := idle.positions
  obtain ⟨snap, effects⟩ := idle.snap.poll quiet noPush noDrive
  have early : apc.index ≤ 3 := by
    rcases idle.addr with rfl | rfl | rfl | ⟨rfl, -⟩ <;> decide
  have moved := AddrPc.index_next selected.1 selected.2 (Nat.le_trans early (by decide))
  have waiting : (rpc.starved (run.inputs n).gpio).Waiting n (n + 1) := by
    have sltsl : (run.inputs n).gpio.getLsbD gpSltsl = false := selected.1
    have rd : (run.inputs n).gpio.getLsbD gpRd = false := selected.2
    rcases idle.read with rfl | ⟨rfl, -⟩
    · rw [ReadPc.starved_waitSltsl, sltsl]
      exact ⟨by decide, by decide, .inr (Nat.le_refl _)⟩
    · rw [ReadPc.starved_jmpRd, rd]
      exact ⟨by decide, by decide, .inr (Nat.le_succ _)⟩
  refine ⟨⟨Nat.lt_succ_self n, wave.access n selected idle.fresh, ?_⟩, ?_, effects⟩
  · intro j after before
    have same : j = n := by omega
    exact same ▸ selected.2
  · refine .wanted snap (by omega) (by omega) waiting ?_
    rw [effects_succ (Nat.le_refl n), effects]
    exact (List.append_nil _).trans (Machine.gather_self _ n)

theorem Open.selected_of_lt (opened : run.Open b n) {k : Nat} (after : b ≤ k) (soon : k < b + 16) :
    run.Selected k := by
  have inside := opened.selected (k - b) (by omega)
  rwa [Nat.add_sub_cancel' after] at inside

theorem Open.extend (opened : run.Open b n) (low : run.rd n = false) : run.Open b (n + 1) where
  after := Nat.lt_succ_of_lt opened.after
  selected := opened.selected
  low := by
    intro j after before
    rcases Nat.lt_succ_iff_lt_or_eq.mp before with earlier | rfl
    · exact opened.low j after earlier
    · exact low

theorem Asked.later {p : Nat} (asked : run.Asked b p n) : run.Asked b p (n + 1) :=
  { asked with before := Nat.lt_succ_of_lt asked.before }

theorem late_succ {p : Nat} (late : ∀ j, p ≤ j → j < n → (run.inputs j).dma = false)
    (off : (run.inputs n).dma = false) :
    ∀ j, p ≤ j → j < n + 1 → (run.inputs j).dma = false := by
  intro j after before
  rcases Nat.lt_succ_iff_lt_or_eq.mp before with earlier | rfl
  · exact late j after earlier
  · exact off

/-- The lines are low as long as `cart_read` is still on its way to the pull. -/
theorem Open.low_of_waiting (opened : run.Open b n) (waiting : rpc.Waiting b n)
    (other : rpc ≠ .pull) :
    (run.inputs n).gpio.getLsbD gpSltsl = false ∧ (run.inputs n).gpio.getLsbD gpRd = false := by
  obtain ⟨most, lag⟩ := waiting.index_le other
  exact opened.selected_of_lt (Nat.le_of_lt opened.after) (by omega)

theorem waitRd_stays (low : run.rd n = false) :
    AddrPc.next (run.inputs n).gpio .waitRd = .waitRd :=
  if_neg (by simpa [rd] using low)

/-- An open access goes on while /RD is low. -/
theorem Access.step (access : run.Access b n) (opened : run.Open b n)
    (quiet : (run.inputs n).calls = []) (low : run.rd n = false) : run.Access b (n + 1) := by
  have le := Nat.le_of_lt opened.after
  have stays := waitRd_stays low
  cases access with
  | wanted snap early lag waiting effects =>
    rename_i apc rpc word
    have here := opened.selected_of_lt le (by omega)
    have moved := AddrPc.index_next here.1 here.2 early
    have onward := waiting.starved (opened.low_of_waiting waiting)
    by_cases push : apc = .inPins
    · subst push
      obtain ⟨pushed, off, on⟩ := snap.starve quiet waiting.not_drive (by decide) rfl
      have asked : run.Asked b n (n + 1) :=
        ⟨le, lag, Nat.lt_succ_self n, by rw [pushed]; exact List.mem_singleton.mpr rfl⟩
      have total : run.effects b (n + 1) = [.pushed (run.pointer n)] := by
        rw [effects_succ le, effects, pushed]
        rfl
      cases transfer : (run.inputs n).dma with
      | false =>
        exact .sent n asked (off (.inl transfer)) onward
          (fun j after before => (show j = n by omega) ▸ transfer) total
      | true =>
        exact .fetched n n asked (on transfer _ rfl) onward (by omega)
          (fun j after before => absurd before (Nat.not_lt.mpr after)) total
    · obtain ⟨next, none⟩ := snap.poll quiet push waiting.not_drive
      have notLast : apc.index ≠ 5 := by
        cases apc <;> first | exact absurd rfl push | decide
      refine .wanted next (by omega) (by omega) onward ?_
      rw [effects_succ le, effects, none]
      rfl
  | sent p asked snap waiting late effects =>
    obtain ⟨none, off, on⟩ := snap.starve quiet waiting.not_drive
      (show [run.pointer p].length < fifoDepth from by simp [fifoDepth]) (List.append_nil [run.pointer p])
    have onward := waiting.starved (opened.low_of_waiting waiting)
    rw [stays] at off on
    have total : run.effects b (n + 1) = [.pushed (run.pointer p)] := by
      rw [effects_succ le, effects, none]
      rfl
    cases transfer : (run.inputs n).dma with
    | false =>
      exact .sent p asked.later (off (.inl transfer)) onward (late_succ late transfer) total
    | true => exact .fetched p n asked.later (on transfer _ rfl) onward (by omega) late total
  | fetched p t asked snap waiting bound first effects =>
    rename_i rpc word
    by_cases pull : rpc = .pull
    · subst pull
      obtain ⟨next, pulled⟩ := snap.take quiet nofun
      rw [stays] at next
      refine .loaded p t asked.later next (by omega) first ?_
      rw [effects_succ le, effects, pulled]
      rfl
    · obtain ⟨next, none⟩ := snap.free quiet nofun pull
      rw [stays] at next
      have lines := opened.low_of_waiting waiting pull
      have lag := waiting.index_le pull
      refine .fetched p t asked.later next (waiting.next pull lines.1 lines.2) (by omega) first ?_
      rw [effects_succ le, effects, none, if_neg waiting.not_drive]
      rfl
  | loaded p t asked snap bound first effects =>
    obtain ⟨next, drove⟩ := snap.free quiet nofun nofun
    rw [stays] at next
    refine .driven p t asked.later next (.inl ⟨rfl, by omega⟩) first ?_
    rw [effects_succ le, effects, drove, if_pos rfl, lanes_low]
    rfl
  | driven p t asked snap bound first effects =>
    rename_i rpc word
    have noPull : rpc ≠ .pull := by rcases bound with ⟨rfl, -⟩ | ⟨rfl, -⟩ | rfl <;> decide
    have noDrive : rpc ≠ .drive := by rcases bound with ⟨rfl, -⟩ | ⟨rfl, -⟩ | rfl <;> decide
    obtain ⟨next, none⟩ := snap.free quiet nofun noPull
    rw [stays] at next
    refine .driven p t asked.later next ?_ first ?_
    · rcases bound with ⟨rfl, le⟩ | ⟨rfl, le⟩ | rfl
      · exact .inr (.inl ⟨rfl, by omega⟩)
      · exact .inr (.inr rfl)
      · exact .inr (.inr (if_neg (by simpa [rd] using low)))
    · rw [effects_succ le, effects, none, if_neg noDrive]
      rfl

theorem Open.span (opened : run.Open b n) (rise : run.rd n = true) : b + 16 ≤ n := by
  refine Nat.le_of_not_lt fun short => ?_
  have low := (opened.selected_of_lt (Nat.le_of_lt opened.after) short).2
  exact absurd (low.symm.trans rise) Bool.false_ne_true

/-- When /RD rises, everything the access asked for has been done. -/
theorem Access.complete (access : run.Access b n) (opened : run.Open b n) {m e : Nat}
    (within : m ≤ b) (until_ : n ≤ e) (timely : run.Timely m e) (rise : run.rd n = true) :
    ∃ p word, b ≤ p ∧ p < n ∧ run.Selected p ∧ run.Snap n .waitRd .waitRd word [] [] ∧
      run.effects b n =
        [.pushed (run.pointer p), .pulled (lanes (run.romLut p)), .driven (run.romLut p)] := by
  have span := opened.span rise
  have delivered {p : Nat} (asked : run.Asked b p n) :
      ∃ t, p ≤ t ∧ t + 8 ≤ n ∧ (run.inputs t).dma = true :=
    timely p n (Nat.le_trans within asked.after) asked.before until_ ⟨_, asked.pushed⟩
      (fun j after before => opened.low j (Nat.le_trans asked.after after) before) rise
  have transferred {p t : Nat} (asked : run.Asked b p n)
      (first : ∀ j, p ≤ j → j < t → (run.inputs j).dma = false) : t + 8 ≤ n := by
    obtain ⟨at_, after, soon, on⟩ := delivered asked
    by_cases earlier : at_ < t
    · exact absurd ((first at_ after earlier).symm.trans on) Bool.false_ne_true
    · omega
  cases access with
  | wanted snap early lag => omega
  | sent p asked snap waiting late effects =>
    obtain ⟨t, after, soon, on⟩ := delivered asked
    exact absurd ((late t after (by omega)).symm.trans on) Bool.false_ne_true
  | fetched p t asked snap waiting bound first effects =>
    have before := transferred asked first
    omega
  | loaded p t asked snap bound first effects =>
    have before := transferred asked first
    omega
  | driven p t asked snap bound first effects =>
    have before := transferred asked first
    have finished := bound.resolve_left (by omega)
    obtain rfl := finished.resolve_left (by omega)
    have soon := asked.soon
    exact ⟨p, _, asked.after, asked.before,
      opened.selected_of_lt asked.after (by omega), snap, effects⟩

theorem Snap.tail {word : U32} (snap : run.Snap n .waitRd .waitRd word [] [])
    (opened : run.Open b n) (wave : run.Waveform) (quiet : (run.inputs n).calls = [])
    (rise : run.rd n = true) :
    run.Tail b n (n + 1) .waitSltsl .zeros word ∧ run.effectsAt n = [] := by
  obtain ⟨next, effects⟩ := snap.free quiet nofun nofun
  have line : (run.inputs n).gpio.getLsbD gpRd = true := rise
  simp only [AddrPc.next, ReadPc.next, line, if_true] at next
  have before : 0 < n := Nat.zero_lt_of_lt opened.after
  have low : run.rd (n - 1) = false :=
    opened.low (n - 1) (Nat.le_sub_one_of_lt opened.after) (Nat.sub_lt before Nat.one_pos)
  exact ⟨⟨opened, Nat.lt_succ_self n, by omega, wave.recovery n before low rise, next, .inl rfl,
    .inl ⟨rfl, rfl⟩⟩, effects⟩

theorem Tail.high_at {word : U32} (tail : run.Tail b r n apc rpc word) : run.rd n = true := by
  have soon := tail.soon
  have inside := tail.high (n - r) (by omega)
  rwa [Nat.add_sub_cancel' (Nat.le_of_lt tail.after)] at inside

/-- `cart_read` lets go step by step, then polls again. -/
theorem Tail.step (tail : run.Tail b r n apc rpc word) (quiet : (run.inputs n).calls = []) :
    ((∃ apc' rpc', run.Tail b r (n + 1) apc' rpc' word) ∨
      ∃ apc' rpc', run.Idle (n + 1) apc' rpc' word) ∧ run.effectsAt n = [] := by
  have rise := tail.high_at
  have line : (run.inputs n).gpio.getLsbD gpRd = true := rise
  have noPush : apc ≠ .inPins := by rcases tail.addr with rfl | ⟨rfl, -⟩ <;> decide
  have noPull : rpc ≠ .pull := by
    rcases tail.read with ⟨rfl, -⟩ | ⟨rfl, -⟩ | ⟨rfl, -⟩ <;> decide
  have noDrive : rpc ≠ .drive := by
    rcases tail.read with ⟨rfl, -⟩ | ⟨rfl, -⟩ | ⟨rfl, -⟩ <;> decide
  obtain ⟨snap, effects⟩ := tail.snap.free quiet noPush noPull
  rw [if_neg noDrive] at effects
  have addr : AddrPc.next (run.inputs n).gpio apc = .waitSltsl ∨
      AddrPc.next (run.inputs n).gpio apc = .jmpRd ∧ run.Polled (n + 1) := by
    rcases tail.addr with rfl | ⟨rfl, -⟩
    · cases low : run.sltsl n with
      | true => exact .inl (if_pos low)
      | false => exact .inr ⟨if_neg (by simpa [sltsl] using low), polled_succ low⟩
    · exact .inl (if_pos line)
  refine ⟨?_, effects⟩
  rcases tail.read with ⟨rfl, now⟩ | ⟨rfl, now⟩ | ⟨rfl, now⟩
  · exact .inl ⟨_, _, tail.opened, by omega, by omega, tail.high, snap, addr,
      .inr (.inl ⟨rfl, by omega⟩)⟩
  · exact .inl ⟨_, _, tail.opened, by omega, by omega, tail.high, snap, addr,
      .inr (.inr ⟨rfl, by omega⟩)⟩
  · refine .inr ⟨_, _, snap, ?_, .inl rfl, .inr fun selected => ?_⟩
    · exact .inr (.inr addr)
    · exact absurd (selected.2.symm.trans rise) Bool.false_ne_true

end Steps

/-- The invariant of a run that was launched at clock `m`. -/
inductive Serving (run : ServeRun) (m n : Nat) : Prop where
  | idle {apc : AddrPc} {rpc : ReadPc} {word : U32} (idle : run.Idle n apc rpc word)
  | access (b : Nat) (within : m ≤ b) (opened : run.Open b n) (access : run.Access b n)
  | tail {apc : AddrPc} {rpc : ReadPc} {word : U32} (b r : Nat) (within : m ≤ b)
      (tail : run.Tail b r n apc rpc word)

/-- At clock `m` both programs run, `cart_addr_read` from its first instruction. -/
def Launched (run : ServeRun) (m : Nat) : Prop := ∃ rpc word, run.Idle m .pull rpc word

/-- The processor makes no call between clocks `m` and `e`. -/
def Quiet (run : ServeRun) (m e : Nat) : Prop :=
  ∀ n, m ≤ n → n < e → (run.inputs n).calls = []

section Runs

variable {m n e : Nat}

theorem Serving.step (serving : run.Serving m n) (after : m ≤ n) (before : n < e)
    (silent : run.Quiet m e) (wave : run.Waveform) (timely : run.Timely m e) :
    run.Serving m (n + 1) := by
  have quiet := silent n after before
  cases serving with
  | idle idle =>
    by_cases selected : run.Selected n
    · obtain ⟨opened, access, -⟩ := idle.opens wave quiet selected
      exact .access n after opened access
    · obtain ⟨⟨_, _, next⟩, -⟩ := idle.stay wave quiet selected
      exact .idle next
  | access b within opened access =>
    cases rise : run.rd n with
    | false => exact .access b within (opened.extend rise) (access.step opened quiet rise)
    | true =>
      obtain ⟨p, word, -, -, -, snap, -⟩ :=
        access.complete opened within (Nat.le_of_lt before) timely rise
      exact .tail b n within (snap.tail opened wave quiet rise).1
  | tail b r within tail =>
    obtain ⟨⟨_, _, next⟩ | ⟨_, _, next⟩, -⟩ := tail.step quiet
    · exact .tail b r within next
    · exact .idle next

theorem serving (launched : run.Launched m) (silent : run.Quiet m e) (wave : run.Waveform)
    (timely : run.Timely m e) (after : m ≤ n) (before : n ≤ e) : run.Serving m n := by
  induction n, after using Nat.le_induction with
  | base =>
    obtain ⟨_, _, idle⟩ := launched
    exact .idle idle
  | succ n after ih =>
    exact (ih (Nat.le_of_succ_le before)).step after before silent wave timely

/-- Both programs poll when a low phase begins. -/
theorem Serving.idle_of_lowPhase {f r : Nat} (serving : run.Serving m f)
    (phase : run.LowPhase f r) : ∃ apc rpc word, run.Idle f apc rpc word := by
  have low := phase.low f (Nat.le_refl f) phase.nonempty
  cases serving with
  | idle idle => exact ⟨_, _, _, idle⟩
  | access b within opened access =>
    have positive := Nat.zero_lt_of_lt opened.after
    have before := opened.low (f - 1) (Nat.le_sub_one_of_lt opened.after)
      (Nat.sub_lt positive Nat.one_pos)
    rcases phase.begins with zero | rise
    · omega
    · exact absurd (before.symm.trans rise) Bool.false_ne_true
  | tail b r within tail => exact absurd (low.symm.trans tail.high_at) Bool.false_ne_true

/-- Inside a low phase either no access has been opened yet, or one is open. -/
theorem Idle.lowPhase {f : Nat} {apc : AddrPc} {rpc : ReadPc} {word : U32}
    (idle : run.Idle f apc rpc word) (wave : run.Waveform)
    (silent : run.Quiet f n) (after : f ≤ n)
    (low : ∀ j, f ≤ j → j < n → run.rd j = false) :
    (∃ apc' rpc', run.Idle n apc' rpc' word) ∧ run.effects f n = [] ∧
        (∀ j, f ≤ j → j < n → ¬ run.Selected j) ∨
      ∃ b, f ≤ b ∧ run.Open b n ∧ run.Access b n ∧ run.effects f b = [] := by
  induction n, after using Nat.le_induction with
  | base =>
    refine .inl ⟨⟨_, _, idle⟩, Machine.gather_self _ f, ?_⟩
    exact fun j after before => absurd before (Nat.not_lt.mpr after)
  | succ n after ih =>
    have here := low n after (Nat.lt_succ_self n)
    have quiet := silent n after (Nat.lt_succ_self n)
    rcases ih (fun j hj before => silent j hj (Nat.lt_succ_of_lt before))
        (fun j hj before => low j hj (Nat.lt_succ_of_lt before)) with
      ⟨⟨_, _, now⟩, none, unselected⟩ | ⟨b, within, opened, access, none⟩
    · by_cases selected : run.Selected n
      · obtain ⟨opened, access, -⟩ := now.opens wave quiet selected
        exact .inr ⟨n, after, opened, access, none⟩
      · obtain ⟨next, effects⟩ := now.stay wave quiet selected
        refine .inl ⟨next, ?_, ?_⟩
        · rw [effects_succ after, none, effects]
          rfl
        · intro j hj before
          rcases Nat.lt_succ_iff_lt_or_eq.mp before with earlier | rfl
          · exact unselected j hj earlier
          · exact selected
    · exact .inr ⟨b, within, opened.extend here, access.step opened quiet here, none⟩

theorem effects_append {f b r : Nat} (le : f ≤ b) (le' : b ≤ r) :
    run.effects f r = run.effects f b ++ run.effects b r :=
  Machine.gather_append _ le le'

theorem Idle.released {apc : AddrPc} {rpc : ReadPc} {word : U32} (idle : run.Idle n apc rpc word) :
    (∀ i < 8, (run.state n).read.dir (16 + i) = false) ∧ (run.state n).read.level 34 = true := by
  have dir := idle.snap.read.dir
  have lvc := idle.snap.read.lvc
  rcases idle.read with rfl | ⟨rfl, -⟩ <;> exact ⟨dir, lvc⟩

/-- From its launch on, the pair serves in lock-step. -/
theorem lockStep (launched : run.Launched m) (silent : run.Quiet m e) (wave : run.Waveform)
    (timely : run.Timely m e) : run.LockStep m e where
  served := by
    intro f r after until_ phase ⟨j, hj, before, sltsl⟩
    have start := Nat.le_trans (Nat.le_of_lt phase.nonempty) until_
    obtain ⟨_, _, _, idle⟩ :=
      (serving launched silent wave timely after start).idle_of_lowPhase phase
    have quiet : run.Quiet f r := fun n h h' =>
      silent n (Nat.le_trans after h) (Nat.lt_of_lt_of_le h' until_)
    rcases idle.lowPhase wave quiet (Nat.le_of_lt phase.nonempty) phase.low with
      ⟨-, -, unselected⟩ | ⟨b, within, opened, access, none⟩
    · exact absurd ⟨sltsl, phase.low j hj before⟩ (unselected j hj before)
    · obtain ⟨p, word, le, lt, selected, -, effects⟩ :=
        access.complete opened (Nat.le_trans after within) until_ timely phase.ends
      refine ⟨p, Nat.le_trans within le, lt, selected, ?_⟩
      rw [effects_append within (Nat.le_of_lt opened.after), none, effects]
      rfl
  ignored := by
    intro f r after until_ phase high
    have start := Nat.le_trans (Nat.le_of_lt phase.nonempty) until_
    obtain ⟨_, _, _, idle⟩ :=
      (serving launched silent wave timely after start).idle_of_lowPhase phase
    have quiet : run.Quiet f r := fun n h h' =>
      silent n (Nat.le_trans after h) (Nat.lt_of_lt_of_le h' until_)
    rcases idle.lowPhase wave quiet (Nat.le_of_lt phase.nonempty) phase.low with
      ⟨-, none, -⟩ | ⟨b, within, opened, -, -⟩
    · exact none
    · have selected := opened.selected_of_lt (Nat.le_refl b) (by omega)
      exact absurd (selected.1.symm.trans (high b within opened.after)) Bool.false_ne_true
  between := by
    intro n after before rise
    have quiet := silent n after before
    cases serving launched silent wave timely after (Nat.le_of_lt before) with
    | idle idle =>
      have unselected : ¬ run.Selected n := fun selected =>
        Bool.false_ne_true (selected.2.symm.trans rise)
      exact ⟨(idle.stay wave quiet unselected).2, idle.snap.rx, idle.snap.tx⟩
    | access b within opened access =>
      obtain ⟨p, word, -, -, -, snap, -⟩ :=
        access.complete opened within (Nat.le_of_lt before) timely rise
      exact ⟨(snap.tail opened wave quiet rise).2, snap.rx, snap.tx⟩
    | tail b r within tail => exact ⟨(tail.step quiet).2, tail.snap.rx, tail.snap.tx⟩
  turned := by
    intro n after until_ turned
    cases serving launched silent wave timely after until_ with
    | idle idle =>
      obtain ⟨inputs, receive⟩ := idle.released
      rcases turned with ⟨i, inside, out⟩ | low
      · exact absurd ((inputs i inside).symm.trans out) Bool.false_ne_true
      · exact absurd (low.symm.trans receive) Bool.false_ne_true
    | access b within opened access =>
      exact ⟨b, within, opened.after, opened.selected_of_lt (Nat.le_refl b) (by omega),
        .inl opened.low⟩
    | tail b r within tail =>
      refine ⟨b, within, Nat.lt_trans tail.opened.after tail.after,
        tail.opened.selected_of_lt (Nat.le_refl b) (by omega), .inr ⟨r, tail.opened.after,
          tail.after, tail.soon, tail.opened.low, tail.high 0 (by decide)⟩⟩

end Runs

end ServeRun

end MsxPulse.Firmware
