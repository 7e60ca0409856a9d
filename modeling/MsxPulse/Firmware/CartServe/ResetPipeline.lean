import MsxPulse.Firmware.CartServe.LockStep

/-!
# Start-up and cart_serve_reset_pipeline

`cart_serve_init` and the middle of `cart_serve_reset_pipeline` both leave the two
programs primed, whatever state they find. A reset is made call by call while the
clock runs; its progress is the number of calls that have been made.
-/

namespace MsxPulse.Firmware

open Library Library.Pio

namespace Serve

theorem perform_cart (s : Serve) (call : SdkCall) : (s.perform call).cart = s.cart := by
  unfold perform
  split <;> rfl

theorem foldl_perform_cart (s : Serve) (calls : List SdkCall) :
    (calls.foldl perform s).cart = s.cart := by
  induction calls generalizing s with
  | nil => rfl
  | cons call calls ih => exact (ih (s.perform call)).trans (s.perform_cart call)

theorem dmaStep_cart (mem : U32 → U8) (s : Serve) : (s.dmaStep mem).cart = s.cart := by
  unfold dmaStep
  split
  · split <;> rfl
  · rfl

theorem dmaStep_enabled (mem : U32 → U8) (s : Serve) :
    (s.dmaStep mem).addr.enabled = s.addr.enabled ∧
      (s.dmaStep mem).read.enabled = s.read.enabled := by
  unfold dmaStep
  split
  · split <;> exact ⟨rfl, rfl⟩
  · exact ⟨rfl, rfl⟩

/-- The chain has nothing to do. -/
theorem dmaStep_idle (mem : U32 → U8) {s : Serve} (idle : s.addrFwd = false ∨ s.addr.rx = []) :
    s.dmaStep mem = s := by
  unfold dmaStep
  split
  · rename_i full
    rw [if_neg]
    rintro ⟨on, -⟩
    rcases idle with off | none
    · exact Bool.false_ne_true (off.symm.trans on)
    · exact absurd (none.symm.trans full) (by simp)
  · rfl

/-- One clock and the transfer that may follow it. -/
def clocked (mem : U32 → U8) (s : Serve) (i : ServeInput) : Serve :=
  if i.dma then (s.clock i.gpio).1.dmaStep mem else (s.clock i.gpio).1

theorem clocked_cart (mem : U32 → U8) (s : Serve) (i : ServeInput) :
    (s.clocked mem i).cart = s.cart := by
  unfold clocked
  split
  · exact dmaStep_cart mem _
  · rfl

/-- While both programs are disabled, only the chain can move. -/
theorem clock_disabled {s : Serve} (addr : s.addr.enabled = false) (read : s.read.enabled = false)
    (gpio : U64) : s.clock gpio = (s, []) := by
  simp [clock, cartAddrRead.clock_disabled gpio addr, cartRead.clock_disabled gpio read]

end Serve

/-! ## Primed programs -/

/-- `cart_addr_read` is stopped at its first instruction with the table's upper half
in its TX FIFO. -/
structure AddrPrimed (high : U32) (s : Sm) : Prop where
  disabled : s.enabled = false
  pc : s.pc = 0
  delay : s.delay = 0
  tx : s.tx = [high]
  rx : s.rx = []
  isr : s.isr = 0#32
  isrCount : s.isrCount = 0

/-- `cart_read` is stopped at its first instruction and lets go of the bus. -/
structure ReadPrimed (s : Sm) : Prop where
  pc : s.pc = 0
  delay : s.delay = 0
  tx : s.tx = []
  dir : ∀ i < 8, s.dir (16 + i) = false
  lvc : s.level 34 = true

structure Primed (c : CartServe) (s : Serve) : Prop where
  cart : s.cart = c
  addr : AddrPrimed c.lutHigh s.addr
  read : ReadPrimed s.read
  fwd : s.addrFwd = true
  fetch : s.dataFetch = true

theorem AddrPrimed.enable {high : U32} {s : Sm} (primed : AddrPrimed high s) :
    AddrAt high .pull (s.setEnabled true) where
  enabled := rfl
  index := primed.pc
  delay := primed.delay
  pulled := fun _ => primed.tx
  latched := nofun
  sticky := fun here _ => absurd rfl here
  isr := primed.isr
  isrCount := primed.isrCount

theorem ReadPrimed.enable {s : Sm} (primed : ReadPrimed s) (word : U32) :
    ReadAt word .waitSltsl (s.setEnabled true) where
  enabled := rfl
  index := primed.pc
  delay := primed.delay
  ones := nofun
  loaded := nofun
  zeros := nofun
  dir := primed.dir
  lvc := primed.lvc

theorem FwModule.calls_call (m : FwModule) (calls : List SdkCall) :
    (m.calls calls).map (·.call) = calls := by
  unfold FwModule.calls
  rw [List.map_map]
  exact List.map_id calls

namespace CartServe

theorem init_calls {c : CartServe} {lutHigh : U32} {sdk sdk' : Sdk} {calls : List Call}
    (init : CartServe.init lutHigh sdk = some (c, sdk', calls)) :
    c.dmaAddrFwdCh < c.dmaDataFetchCh ∧ calls = FwModule.cartServe.calls c.initCalls := by
  unfold CartServe.init at init
  simp only [Option.ite_none_right_eq_some, Option.some.injEq, Prod.mk.injEq] at init
  obtain ⟨channels, rfl, -, rfl⟩ := init
  exact ⟨channels, rfl⟩

/-- The calls of `cart_serve_reset_pipeline`. -/
def resetCalls (c : CartServe) : List SdkCall := c.resetPipeline.map (·.call)

/-- Those made while both programs are stopped. -/
def flush (c : CartServe) : List SdkCall :=
  [ .dma c.dmaAddrFwdCh .abort
  , .dma c.dmaDataFetchCh .abort
  , .sm .pio1 0 .clearFifos
  , .sm .pio2 0 .clearFifos
  , .sm .pio1 0 .restart
  , .sm .pio2 0 .restart
  , .sm .pio1 0 (.execJmp c.addrProgOffset)
  , .sm .pio2 0 (.execJmp c.readProgOffset)
  , .sm .pio1 0 (.put c.lutHigh) ] ++ c.dmaChainArm ++
  [ .sm .pio2 0 (.setPinsWithMask idleHighMask idleHighMask)
  , .sm .pio2 0 (.setConsecutivePindirs 16 8 false) ]

theorem resetCalls_eq (c : CartServe) :
    c.resetCalls =
      [.sm .pio1 0 (.setEnabled false), .sm .pio2 0 (.setEnabled false)] ++ c.flush ++
        [.sm .pio2 0 (.setEnabled true), .sm .pio1 0 (.setEnabled true)] := rfl

end CartServe

section Flush

variable {c : CartServe} {s : Serve}

theorem flush_primes (cart : s.cart = c) (channels : c.dmaAddrFwdCh < c.dmaDataFetchCh)
    (addr : s.addr.enabled = false) : Primed c (c.flush.foldl Serve.perform s) := by
  subst cart
  have apart := Int.ne_of_lt channels
  have lvcPin : CartServe.idleHighMask.getLsbD 34 = true := by decide
  refine ⟨Serve.foldl_perform_cart _ _, ⟨?_, ?_, ?_, ?_, ?_, ?_, ?_⟩, ⟨?_, ?_, ?_, ?_, ?_⟩, ?_, ?_⟩
  all_goals
    simp [CartServe.flush, CartServe.dmaChainArm, Serve.perform, Serve.smOp, Sm.clearFifos,
      Sm.restart, Sm.jump, Sm.put, Sm.setPinsWithMask, Sm.setConsecutivePindirs, fifoDepth,
      apart, apart.symm, addr, lvcPin]
  intro i inside outside
  omega

theorem initCalls_primes (cart : s.cart = c) (channels : c.dmaAddrFwdCh < c.dmaDataFetchCh) :
    Primed c (c.initCalls.foldl Serve.perform s) := by
  subst cart
  have apart := Int.ne_of_lt channels
  have lvcPin : CartServe.idleHighMask.getLsbD 34 = true := by decide
  refine ⟨Serve.foldl_perform_cart _ _, ⟨?_, ?_, ?_, ?_, ?_, ?_, ?_⟩, ⟨?_, ?_, ?_, ?_, ?_⟩, ?_, ?_⟩
  all_goals
    simp [CartServe.initCalls, CartServe.dmaChainArm, Serve.perform, Serve.smOp, Sm.clearFifos,
      Sm.restart, Sm.jump, Sm.put, Sm.setEnabled, Sm.setPinsWithMask, Sm.setConsecutivePindirs,
      fifoDepth, apart, apart.symm, lvcPin, List.range', gpWait, gpLvcDir]
  intro i inside
  omega

end Flush

/-! ## Between two calls of a reset -/

/-- `cart_read` runs again and `cart_addr_read` is still to be enabled; `low` says
that the last clock saw /SLTSL low. -/
structure ReadOn (c : CartServe) (low : Prop) (rpc : ReadPc) (word : U32) (s : Serve) : Prop where
  cart : s.cart = c
  addr : AddrPrimed c.lutHigh s.addr
  read : ReadAt word rpc s.read
  polling : rpc = .waitSltsl ∨ rpc = .jmpRd ∧ low
  tx : s.read.tx = []
  fwd : s.addrFwd = true
  fetch : s.dataFetch = true

theorem Primed.enable_read {c : CartServe} {s : Serve} (primed : Primed c s) (low : Prop) :
    ReadOn c low .waitSltsl 0#32 (s.perform (.sm .pio2 0 (.setEnabled true))) where
  cart := primed.cart
  addr := primed.addr
  read := primed.read.enable 0#32
  polling := .inl rfl
  tx := primed.read.tx
  fwd := primed.fwd
  fetch := primed.fetch

/-- The chip after the first calls of `cart_serve_reset_pipeline`, by their number. -/
inductive Resetting (c : CartServe) (low : Prop) : Nat → Serve → Prop where
  | called {s : Serve} (cart : s.cart = c) : Resetting c low 0 s
  | addrOff {s : Serve} (cart : s.cart = c) (addr : s.addr.enabled = false) : Resetting c low 1 s
  | flushing {s : Serve} (k : Nat) (within : k ≤ 14) (cart : s.cart = c)
      (addr : s.addr.enabled = false) (read : s.read.enabled = false) :
      Resetting c low (2 + k) ((c.flush.take k).foldl Serve.perform s)
  | readOn {s : Serve} {rpc : ReadPc} {word : U32} (on : ReadOn c low rpc word s) :
      Resetting c low 17 s

section Resetting

variable {c : CartServe} {low : Prop} {k : Nat} {s : Serve}

/-- From the first abort on, neither a program nor the chain moves. -/
theorem flush_still (cart : s.cart = c) (channels : c.dmaAddrFwdCh < c.dmaDataFetchCh)
    (addr : s.addr.enabled = false) (read : s.read.enabled = false) (within : k ≤ 14) :
    ((c.flush.take k).foldl Serve.perform s).addr.enabled = false ∧
      ((c.flush.take k).foldl Serve.perform s).read.enabled = false ∧
      (0 < k → ((c.flush.take k).foldl Serve.perform s).addrFwd = false ∨
        ((c.flush.take k).foldl Serve.perform s).addr.rx = []) := by
  subst cart
  have apart := Int.ne_of_lt channels
  interval_cases k <;>
    simp [CartServe.flush, CartServe.dmaChainArm, Serve.perform, Serve.smOp, Sm.clearFifos,
      Sm.restart, Sm.jump, Sm.put, Sm.setPinsWithMask, Sm.setConsecutivePindirs, fifoDepth,
      apart, apart.symm, addr, read]

/-- A clock between two calls. /RD has to be high once `cart_read` runs again. -/
theorem Resetting.clocked (stage : Resetting c low k s)
    (channels : c.dmaAddrFwdCh < c.dmaDataFetchCh) (mem : U32 → U8) (i : ServeInput)
    (rise : k = 17 → i.gpio.getLsbD gpRd = true) {low' : Prop}
    (seen : i.gpio.getLsbD gpSltsl = false → low') :
    Resetting c low' k (s.clocked mem i) := by
  cases stage with
  | called cart => exact .called ((s.clocked_cart mem i).trans cart)
  | addrOff cart addr =>
    refine .addrOff ((s.clocked_cart mem i).trans cart) ?_
    have off : (s.clock i.gpio).1.addr.enabled = false := by
      show (cartAddrRead.clock i.gpio s.addr).1.enabled = false
      rw [cartAddrRead.clock_disabled i.gpio addr]
      exact addr
    unfold Serve.clocked
    split
    · exact (Serve.dmaStep_enabled mem _).1.trans off
    · exact off
  | @flushing s k within cart addr read =>
    obtain ⟨addrOff, readOff, idle⟩ := flush_still cart channels addr read within
    have clock := Serve.clock_disabled addrOff readOff i.gpio
    by_cases begun : 0 < k
    · have same : ((c.flush.take k).foldl Serve.perform s).clocked mem i =
          (c.flush.take k).foldl Serve.perform s := by
        unfold Serve.clocked
        rw [clock, Serve.dmaStep_idle mem (idle begun), ite_self]
      rw [same]
      exact .flushing k within cart addr read
    · obtain rfl : k = 0 := Nat.eq_zero_of_not_pos begun
      have enabled : (s.clocked mem i).addr.enabled = false ∧
          (s.clocked mem i).read.enabled = false := by
        unfold Serve.clocked
        rw [show s.clock i.gpio = (s, []) from clock]
        split
        · obtain ⟨addrSame, readSame⟩ := s.dmaStep_enabled mem
          exact ⟨addrSame.trans addr, readSame.trans read⟩
        · exact ⟨addr, read⟩
      exact .flushing 0 within ((s.clocked_cart mem i).trans cart) enabled.1 enabled.2
  | @readOn s rpc word on =>
    obtain ⟨cart, addr, read, polling, tx, fwd, fetch⟩ := on
    have noDrive : rpc ≠ .drive := by rcases polling with rfl | ⟨rfl, -⟩ <;> decide
    obtain ⟨next, tx', -⟩ := read.starve i.gpio tx noDrive
    have still : (s.clock i.gpio).1.addr = s.addr := by
      show (cartAddrRead.clock i.gpio s.addr).1 = s.addr
      rw [cartAddrRead.clock_disabled i.gpio addr.disabled]
    have same : s.clocked mem i = (s.clock i.gpio).1 := by
      unfold Serve.clocked
      rw [Serve.dmaStep_idle mem (.inr ((congrArg Sm.rx still).trans addr.rx)), ite_self]
    rw [same]
    refine .readOn ⟨cart, by rw [still]; exact addr, next, ?_, tx', fwd, fetch⟩
    rcases polling with rfl | ⟨rfl, -⟩
    · cases level : i.gpio.getLsbD gpSltsl with
      | true => exact .inl (if_pos level)
      | false => exact .inr ⟨by rw [ReadPc.starved_waitSltsl, level]; rfl, seen level⟩
    · exact .inl (if_pos (rise rfl))

/-- The next call of the reset, other than the last. -/
theorem Resetting.perform (stage : Resetting c low k s)
    (channels : c.dmaAddrFwdCh < c.dmaDataFetchCh) {call : SdkCall}
    (next : c.resetCalls[k]? = some call) (before : k < 17) :
    Resetting c low (k + 1) (s.perform call) := by
  rw [c.resetCalls_eq] at next
  cases stage with
  | called cart =>
    obtain rfl : SdkCall.sm .pio1 0 (.setEnabled false) = call := Option.some.inj next
    exact .addrOff cart rfl
  | addrOff cart addr =>
    obtain rfl : SdkCall.sm .pio2 0 (.setEnabled false) = call := Option.some.inj next
    exact .flushing (s := s.perform (.sm .pio2 0 (.setEnabled false))) 0 (by decide) cart addr rfl
  | @flushing s k within cart addr read =>
    have length : c.flush.length = 14 := rfl
    by_cases more : k < 14
    · have here : c.flush[k]? = some call := by
        rw [← next, List.append_assoc, List.getElem?_append_right (by simp),
          List.getElem?_append_left (by simp [length]; omega)]
        simp
      have taken : ((c.flush.take k).foldl Serve.perform s).perform call =
          (c.flush.take (k + 1)).foldl Serve.perform s := by
        rw [List.take_add_one, here, List.foldl_append]
        rfl
      rw [taken]
      exact .flushing (k + 1) more cart addr read
    · obtain rfl : k = 14 := Nat.le_antisymm within (Nat.le_of_not_lt more)
      obtain rfl : SdkCall.sm .pio2 0 (.setEnabled true) = call := Option.some.inj next
      have primed := flush_primes cart channels addr
      have all : c.flush.take 14 = c.flush := rfl
      rw [all]
      generalize c.flush.foldl Serve.perform s = t at primed
      exact .readOn (primed.enable_read low)
  | readOn => exact absurd before (Nat.lt_irrefl 17)

/-- Several calls of the reset, short of the last. -/
theorem Resetting.foldl_perform (stage : Resetting c low k s)
    (channels : c.dmaAddrFwdCh < c.dmaDataFetchCh) {done now rest : List SdkCall}
    (split : c.resetCalls = done ++ now ++ rest) (count : done.length = k)
    (before : k + now.length ≤ 17) :
    Resetting c low (k + now.length) (now.foldl Serve.perform s) := by
  induction now generalizing done k s with
  | nil => exact stage
  | cons call now ih =>
    rw [List.length_cons] at before
    have next : c.resetCalls[k]? = some call := by
      rw [split, ← count, List.append_assoc, List.getElem?_append_right (Nat.le_refl _)]
      simp
    have split' : c.resetCalls = (done ++ [call]) ++ now ++ rest := by
      rw [split]
      simp
    have onward := ih (stage.perform channels next (by omega)) split' (by simp [count]) (by omega)
    rw [List.length_cons, Nat.add_comm now.length 1, ← Nat.add_assoc]
    exact onward

theorem Resetting.readOn_of (stage : Resetting c low k s) (all : k = 17) :
    ∃ rpc word, ReadOn c low rpc word s := by
  cases stage with
  | called => omega
  | addrOff => omega
  | flushing => omega
  | readOn on => exact ⟨_, _, on⟩

end Resetting

/-! ## Runs -/

namespace ServeRun

variable {run : ServeRun} {l a m n e : Nat}

/-- The calls made at the clocks `first ..< last`. -/
def calls (run : ServeRun) (first last : Nat) : List SdkCall :=
  Machine.gather (fun n => (run.inputs n).calls) first last

theorem state_cart (n : Nat) : (run.state n).cart = run.start.cart := by
  induction n with
  | zero => rfl
  | succ n ih =>
    exact (Serve.foldl_perform_cart _ _).trans
      (((run.state n).clocked_cart run.mem (run.inputs n)).trans ih)

theorem state_succ_calls (n : Nat) :
    run.state (n + 1) =
      (run.inputs n).calls.foldl Serve.perform ((run.state n).clocked run.mem (run.inputs n)) :=
  rfl

/-- `cart_serve_reset_pipeline` runs from clock `a` and makes its last call at
clock `m - 1`. -/
structure Resets (run : ServeRun) (a m : Nat) : Prop where
  made : run.calls a m = run.start.cart.resetCalls
  after : a < m
  last : (run.inputs (m - 1)).calls ≠ []

/-- A reset that may begin at any point of the bus traffic. -/
structure Restarts (run : ServeRun) (a m : Nat) : Prop extends run.Resets a m where
  /-- The assertion of `cart_serve_init`. -/
  channels : run.start.cart.dmaAddrFwdCh < run.start.cart.dmaDataFetchCh
  /-- /RD is high while the two programs are enabled again. -/
  rise : ∀ n, a ≤ n → n < m →
    n + 1 = m ∨ .sm .pio2 0 (.setEnabled true) ∈ run.calls a n → run.rd n = true

namespace Resets

theorem split (resets : run.Resets a m) (after : a ≤ n) (before : n < m) :
    run.start.cart.resetCalls =
      run.calls a n ++ (run.inputs n).calls ++ run.calls (n + 1) m := by
  rw [← resets.made]
  unfold calls
  rw [← Machine.gather_succ _ after, ← Machine.gather_append _ (Nat.le_succ_of_le after) before]

theorem length_le (resets : run.Resets a m) (after : a ≤ n) (before : n < m) : (run.calls a n).length ≤ 17 := by
  have upTo := Machine.gather_append (fun n => (run.inputs n).calls) after (Nat.le_sub_one_of_lt before)
  have split := resets.split (Nat.le_sub_one_of_lt resets.after) (by omega)
  have length := congrArg List.length split
  have total : run.start.cart.resetCalls.length = 18 := rfl
  have positive := List.length_pos_of_ne_nil resets.last
  have grows : (run.calls a n).length ≤ (run.calls a (m - 1)).length := by
    unfold calls
    rw [upTo, List.length_append]
    exact Nat.le_add_right _ _
  rw [total, List.length_append, List.length_append] at length
  omega

/-- Once seventeen calls have been made, `cart_read` is enabled. -/
theorem reads (resets : run.Resets a m) (after : a ≤ n) (before : n < m)
    (most : (run.calls a n).length = 17) :
    .sm .pio2 0 (.setEnabled true) ∈ run.calls a n := by
  have split := resets.split after before
  have front := congrArg (List.take 17) split
  rw [List.append_assoc, List.take_append_of_le_length (by omega), ← most, List.take_length,
    most] at front
  rw [← front, CartServe.resetCalls_eq]
  simp [CartServe.flush, CartServe.dmaChainArm]

end Resets

theorem Restarts.progress (restarts : run.Restarts a m) (after : a ≤ n) (before : n < m) :
    Resetting run.start.cart (run.Polled n) (run.calls a n).length (run.state n) := by
  induction n, after using Nat.le_induction with
  | base =>
    unfold calls
    rw [Machine.gather_self]
    exact .called (state_cart a)
  | succ n after ih =>
    have earlier := Nat.lt_of_succ_lt before
    have made : run.calls a (n + 1) = run.calls a n ++ (run.inputs n).calls :=
      Machine.gather_succ _ after
    have most := restarts.length_le (Nat.le_succ_of_le after) before
    rw [made, List.length_append] at most
    have stage := (ih earlier).clocked restarts.channels run.mem (run.inputs n)
      (fun all => restarts.rise n after earlier (.inr (restarts.reads after earlier all)))
      fun low => polled_succ (show run.sltsl n = false from low)
    rw [made, List.length_append, state_succ_calls]
    exact stage.foldl_perform restarts.channels (restarts.split after earlier) rfl most

/-- Enabling `cart_addr_read` launches the pair. -/
theorem launched_of_readOn {rpc : ReadPc} {word : U32} {t : Serve}
    (on : ReadOn run.start.cart (run.Polled n) rpc word t)
    (next : run.state n = t.perform (.sm .pio1 0 (.setEnabled true)))
    (fresh : n = 0 ∨ ¬ run.Selected (n - 1)) : run.Launched n := by
  have snap : run.Snap n .pull rpc word [] [] :=
    .of_state next on.addr.enable on.read on.addr.rx on.tx on.fwd on.fetch
  exact ⟨rpc, word, snap, .inl rfl, on.polling, fresh⟩

/-- A completed reset has launched the pair, wherever it began. -/
theorem Restarts.launched (restarts : run.Restarts a m) : run.Launched m := by
  obtain ⟨n, rfl⟩ : ∃ n, m = n + 1 := ⟨m - 1, by have := restarts.after; omega⟩
  have after : a ≤ n := Nat.le_of_lt_succ restarts.after
  have before : n < n + 1 := Nat.lt_succ_self n
  have rise := restarts.rise n after before (.inl rfl)
  have split := restarts.split after before
  have none : run.calls (n + 1) (n + 1) = [] := Machine.gather_self _ _
  rcases List.eq_nil_or_concat (run.inputs n).calls with empty | ⟨now, final, last⟩
  · exact absurd empty restarts.last
  rw [none, List.append_nil, last, CartServe.resetCalls_eq, List.append_cons,
    List.concat_eq_append, ← List.append_assoc] at split
  obtain ⟨front, back⟩ := List.append_inj' split rfl
  obtain rfl : final = .sm .pio1 0 (.setEnabled true) := (List.cons.inj back).1.symm
  have count : (run.calls a n).length + now.length = 17 := by
    rw [← List.length_append, ← front]
    rfl
  have stage := (restarts.progress after before).clocked restarts.channels run.mem (run.inputs n)
    (fun all => restarts.rise n after before (.inr (restarts.reads after before all)))
    fun low => polled_succ (show run.sltsl n = false from low)
  have split' : run.start.cart.resetCalls =
      run.calls a n ++ now ++ [.sm .pio1 0 (.setEnabled true)] := by
    rw [← front]
    rfl
  have enabled := stage.foldl_perform restarts.channels split' rfl (Nat.le_of_eq count)
  have next : run.state (n + 1) =
      (now.foldl Serve.perform ((run.state n).clocked run.mem (run.inputs n))).perform
        (.sm .pio1 0 (.setEnabled true)) := by
    rw [state_succ_calls, last, List.concat_eq_append, List.foldl_append]
    rfl
  rw [count] at enabled
  obtain ⟨rpc, word, on⟩ := enabled.readOn_of rfl
  refine launched_of_readOn on next (.inr fun selected => ?_)
  exact absurd (selected.2.symm.trans rise) Bool.false_ne_true

/-- `cart_serve_init` and `cart_serve_arm` have run, on a chip in any state. -/
def Booted (run : ServeRun) : Prop :=
  ∃ (sdk sdk' : Sdk) (calls : List Call) (s : Serve),
    CartServe.init run.start.cart.lutHigh sdk = some (run.start.cart, sdk', calls) ∧
      s.cart = run.start.cart ∧
      run.start = ((calls ++ CartServe.arm).map (·.call)).foldl Serve.perform s

theorem Booted.launched (booted : run.Booted) : run.Launched 0 := by
  obtain ⟨sdk, sdk', calls, s, init, cart, start⟩ := booted
  obtain ⟨channels, rfl⟩ := CartServe.init_calls init
  have primed := initCalls_primes cart channels
  rw [List.map_append, List.foldl_append, FwModule.calls_call] at start
  generalize run.start.cart.initCalls.foldl Serve.perform s = t at primed start
  exact launched_of_readOn (primed.enable_read _) start (.inl rfl)

end ServeRun

/-! ## The bus during a reset -/

/-- Neither program is past its polling loop, the FIFOs between them are empty and
the bus is released. -/
structure Calm (s : Serve) : Prop where
  addrPc : s.addr.pc < 4
  addrDelay : s.addr.delay = 0
  rx : s.addr.rx = []
  readPc : s.read.pc < 2
  readDelay : s.read.delay = 0
  tx : s.read.tx = []
  dir : ∀ i : Fin 8, s.read.dir (16 + i) = false
  lvc : s.read.level 34 = true

/-- With /RD high, polling is all that happens. -/
theorem Calm.addr_clock {s : Serve} (calm : Calm s) {gpio : U64} (rise : gpio.getLsbD gpRd = true) :
    (cartAddrRead.clock gpio s.addr).1.pc < 4 ∧ (cartAddrRead.clock gpio s.addr).1.delay = 0 ∧
      (cartAddrRead.clock gpio s.addr).1.rx = [] ∧
      (cartAddrRead.clock gpio s.addr).2.filterMap pushedWord = [] := by
  cases on : s.addr.enabled with
  | false =>
    rw [cartAddrRead.clock_disabled gpio on]
    exact ⟨calm.addrPc, calm.addrDelay, calm.rx, rfl⟩
  | true =>
    have pc := calm.addrPc
    have delay := calm.addrDelay
    have rx := calm.rx
    have run {i : Instr} (fetch : cartAddrRead.code[s.addr.pc]? = some i) :
        cartAddrRead.clock gpio s.addr = cartAddrRead.exec gpio i (cartAddrRead.sideSet i s.addr) :=
      cartAddrRead.clock_exec gpio on delay fetch
    generalize at_ : s.addr.pc = pc' at pc run
    interval_cases pc'
    · rw [run rfl]
      cases tx : s.addr.tx <;>
        simp [Program.exec, Program.sideSet, Program.advance, cartAddrRead, tx, at_, delay, rx,
          pushedWord]
    · rw [run rfl]
      simp [Program.exec, Program.sideSet, Program.advance, cartAddrRead, at_, rx]
    · rw [run rfl]
      cases level : gpio.getLsbD gpSltsl <;>
        simp [Program.exec, Program.sideSet, Program.advance, cartAddrRead, level, at_, delay, rx]
    · rw [run rfl]
      simp [Program.exec, Program.sideSet, cartAddrRead, rise, rx]

theorem Calm.read_clock {s : Serve} (calm : Calm s) {gpio : U64} (rise : gpio.getLsbD gpRd = true) :
    (cartRead.clock gpio s.read).1.pc < 2 ∧ (cartRead.clock gpio s.read).1.delay = 0 ∧
      (cartRead.clock gpio s.read).1.tx = [] ∧
      (cartRead.clock gpio s.read).1.dir = s.read.dir ∧
      (cartRead.clock gpio s.read).1.level 34 = true ∧
      (cartRead.clock gpio s.read).2 = [] := by
  cases on : s.read.enabled with
  | false =>
    rw [cartRead.clock_disabled gpio on]
    exact ⟨calm.readPc, calm.readDelay, calm.tx, rfl, calm.lvc, rfl⟩
  | true =>
    have pc := calm.readPc
    have delay := calm.readDelay
    have tx := calm.tx
    have lvc : waitHigh s.read 34 = true := (waitHigh_lvc s.read).trans calm.lvc
    have run {op : Op} (fetch : cartRead.code[s.read.pc]? = some ⟨op, some true, 0⟩) :
        cartRead.clock gpio s.read =
          cartRead.exec gpio ⟨op, some true, 0⟩ { s.read with level := waitHigh s.read } :=
      cartRead.clock_exec gpio on delay fetch
    generalize at_ : s.read.pc = pc' at pc run
    interval_cases pc'
    · rw [run rfl]
      cases level : gpio.getLsbD gpSltsl <;>
        simp [Program.exec, Program.advance, cartRead, level, at_, delay, tx, lvc]
    · rw [run rfl]
      simp [Program.exec, cartRead, rise, tx, lvc]

theorem Calm.clocked {s : Serve} (calm : Calm s) (mem : U32 → U8) {i : ServeInput}
    (rise : i.gpio.getLsbD gpRd = true) :
    Calm (s.clocked mem i) ∧ (s.clock i.gpio).2 = [] := by
  obtain ⟨addrPc, addrDelay, rx, pushed⟩ := calm.addr_clock rise
  obtain ⟨readPc, readDelay, tx, dir, lvc, effects⟩ := calm.read_clock rise
  have same : s.clocked mem i = (s.clock i.gpio).1 := by
    unfold Serve.clocked
    rw [Serve.dmaStep_idle mem (.inr rx), ite_self]
  refine ⟨?_, ?_⟩
  · rw [same]
    exact ⟨addrPc, addrDelay, rx, readPc, readDelay, tx,
      fun j => (congrFun dir (16 + j)).trans (calm.dir j), lvc⟩
  · show ((cartAddrRead.clock i.gpio s.addr).2.filterMap pushedWord).map ServeEffect.pushed ++
      (cartRead.clock i.gpio s.read).2.filterMap readEffect = []
    rw [pushed, effects]
    rfl

theorem Calm.perform {c : CartServe} {s : Serve} (calm : Calm s) (cart : s.cart = c)
    {call : SdkCall} (made : call ∈ c.resetCalls) : Calm (s.perform call) := by
  subst cart
  obtain ⟨addrPc, addrDelay, rx, readPc, readDelay, tx, dir, lvc⟩ := calm
  have lvcPin : CartServe.idleHighMask.getLsbD 34 = true := by decide
  simp only [CartServe.resetCalls_eq, CartServe.flush, CartServe.dmaChainArm, List.mem_append,
    List.mem_cons, List.not_mem_nil, or_false] at made
  rcases made with ((rfl | rfl) | ((rfl | rfl | rfl | rfl | rfl | rfl | rfl | rfl | rfl) |
    rfl | rfl | rfl) | rfl | rfl) | rfl | rfl
  all_goals
    constructor <;>
    simp [Serve.perform, Serve.smOp, Sm.setEnabled, Sm.clearFifos, Sm.restart, Sm.jump,
      Sm.setPinsWithMask, Sm.setConsecutivePindirs, *]

theorem Calm.foldl_perform {c : CartServe} {s : Serve} (calm : Calm s) (cart : s.cart = c)
    {calls : List SdkCall} (made : ∀ call ∈ calls, call ∈ c.resetCalls) :
    Calm (calls.foldl Serve.perform s) := by
  induction calls generalizing s with
  | nil => exact calm
  | cons call calls ih =>
    have first := calm.perform cart (made call (by simp))
    exact ih first ((s.perform_cart call).trans cart) fun other later => made other (by simp [later])

namespace ServeRun

variable {run : ServeRun} {l a m n e : Nat}

/-- A reset of an idle bus: /RD is high from four clocks before it begins until it
has completed. -/
structure RestartsIdle (run : ServeRun) (a m : Nat) : Prop extends run.Resets a m where
  channels : run.start.cart.dmaAddrFwdCh < run.start.cart.dmaDataFetchCh
  high : ∀ n, a ≤ n + 4 → n < m → run.rd n = true

theorem RestartsIdle.restarts (idle : run.RestartsIdle a m) : run.Restarts a m where
  toResets := idle.toResets
  channels := idle.channels
  rise := fun n after before _ => idle.high n (Nat.le_add_right_of_le after) before

/-- Four clocks after the last rise of /RD, nothing is left of an access. -/
theorem Serving.calm (serving : run.Serving l a)
    (high : ∀ n, a ≤ n + 4 → n < a → run.rd n = true) : Calm (run.state a) := by
  cases serving with
  | @idle apc rpc word idle =>
    obtain ⟨inputs, receive⟩ := idle.released
    obtain ⟨snap, addr, read, -⟩ := idle
    have addrPc : apc.index < 4 := by
      rcases addr with rfl | rfl | rfl | ⟨rfl, -⟩ <;> decide
    have readPc : rpc.index < 2 ∧ rpc.delay = 0 := by
      rcases read with rfl | ⟨rfl, -⟩ <;> decide
    exact
      { addrPc := snap.addr.index ▸ addrPc
        addrDelay := snap.addr.delay
        rx := snap.rx
        readPc := snap.read.index ▸ readPc.1
        readDelay := snap.read.delay.trans readPc.2
        tx := snap.tx
        dir := fun i => inputs i i.isLt
        lvc := receive }
  | access b within opened access =>
    have after := opened.after
    have low := opened.low (a - 1) (by omega) (by omega)
    exact absurd (low.symm.trans (high (a - 1) (by omega) (by omega))) Bool.false_ne_true
  | @tail apc rpc word b r within tail =>
    have opened := tail.opened.after
    have soon := tail.soon
    have after := tail.after
    have low := tail.opened.low (r - 1) (by omega) (by omega)
    exact absurd (low.symm.trans (high (r - 1) (by omega) (by omega))) Bool.false_ne_true

/-- The bus stays released and nothing is exchanged while an idle bus is reset. -/
theorem RestartsIdle.calm (idle : run.RestartsIdle a m) (start : Calm (run.state a))
    (after : a ≤ n) (before : n ≤ m) : Calm (run.state n) := by
  induction n, after using Nat.le_induction with
  | base => exact start
  | succ n after ih =>
    have rise := idle.high n (Nat.le_add_right_of_le after) before
    have polled := ((ih (Nat.le_of_succ_le before)).clocked run.mem (i := run.inputs n) rise).1
    have cart := ((run.state n).clocked_cart run.mem (run.inputs n)).trans (state_cart n)
    rw [state_succ_calls]
    refine polled.foldl_perform cart fun call made => ?_
    rw [idle.split after before]
    exact List.mem_append_left _ (List.mem_append_right _ made)

theorem RestartsIdle.silent (idle : run.RestartsIdle a m) (start : Calm (run.state a))
    (after : a ≤ n) (before : n < m) : run.effectsAt n = [] :=
  ((idle.calm start after (Nat.le_of_lt before)).clocked run.mem
    (idle.high n (Nat.le_add_right_of_le after) before)).2

/-- A low phase does not meet a reset of an idle bus. -/
theorem LowPhase.apart {f r : Nat} (phase : run.LowPhase f r) (idle : run.RestartsIdle a m) :
    r ≤ a ∨ m ≤ f := by
  by_contra meets
  rw [not_or, Nat.not_le, Nat.not_le] at meets
  have inside : max f a < r := max_lt phase.nonempty meets.1
  have low := phase.low (max f a) (Nat.le_max_left f a) inside
  have high := idle.high (max f a) (by omega) (max_lt meets.2 idle.after)
  exact absurd (low.symm.trans high) Bool.false_ne_true

/-- Lock-step before and after a reset of an idle bus is lock-step across it. -/
theorem LockStep.across (first : run.LockStep l a) (le : l ≤ a) (idle : run.RestartsIdle a m)
    (start : Calm (run.state a)) (second : run.LockStep m e) : run.LockStep l e where
  served := by
    intro f r after until_ phase meets
    rcases phase.apart idle with earlier | later
    · exact first.served f r after earlier phase meets
    · exact second.served f r later until_ phase meets
  ignored := by
    intro f r after until_ phase high
    rcases phase.apart idle with earlier | later
    · exact first.ignored f r after earlier phase high
    · exact second.ignored f r later until_ phase high
  between := by
    intro n after before rise
    by_cases earlier : n < a
    · exact first.between n after earlier rise
    · by_cases during : n < m
      · have begun := Nat.le_of_not_lt earlier
        have calm := idle.calm start begun (Nat.le_of_lt during)
        exact ⟨idle.silent start begun during, calm.rx, calm.tx⟩
      · exact second.between n (Nat.le_of_not_lt during) before rise
  turned := by
    intro n after until_ turned
    by_cases earlier : n ≤ a
    · exact first.turned n after earlier turned
    · by_cases during : n ≤ m
      · have calm := idle.calm start (Nat.le_of_not_le earlier) during
        rcases turned with ⟨i, inside, out⟩ | low
        · exact absurd ((calm.dir ⟨i, inside⟩).symm.trans out) Bool.false_ne_true
        · exact absurd (low.symm.trans calm.lvc) Bool.false_ne_true
      · obtain ⟨d, within, rest⟩ := second.turned n (Nat.le_of_not_le during) until_ turned
        exact ⟨d, Nat.le_trans le (Nat.le_trans (Nat.le_of_lt idle.after) within), rest⟩

/-! ## The whole run -/

/-- The pair starts at clock `l`: the chip has booted, or a reset that began at any
point has completed. -/
def Starts (run : ServeRun) (l : Nat) : Prop := l = 0 ∧ run.Booted ∨ ∃ a, run.Restarts a l

/-- Between clocks `l` and `e` the processor makes no call but those of resets of an
idle bus. -/
inductive Undisturbed (run : ServeRun) (l : Nat) : Nat → Prop where
  | quiet {e : Nat} (le : l ≤ e) (quiet : run.Quiet l e) : Undisturbed run l e
  | reset {a m e : Nat} (before : Undisturbed run l a) (idle : run.RestartsIdle a m)
      (le : m ≤ e) (quiet : run.Quiet m e) : Undisturbed run l e

theorem Timely.mono {l l' e e' : Nat} (timely : run.Timely l e) (first : l ≤ l') (last : e' ≤ e) :
    run.Timely l' e' :=
  fun p r after before until_ => timely p r (Nat.le_trans first after) before
    (Nat.le_trans until_ last)

theorem Starts.launched (starts : run.Starts l) : run.Launched l := by
  rcases starts with ⟨rfl, booted⟩ | ⟨a, restarts⟩
  · exact booted.launched
  · exact restarts.launched

theorem Undisturbed.serves (undisturbed : run.Undisturbed l e) (launched : run.Launched l)
    (wave : run.Waveform) (timely : run.Timely l e) :
    run.LockStep l e ∧ ∃ m, l ≤ m ∧ m ≤ e ∧ run.Launched m ∧ run.Quiet m e := by
  induction undisturbed with
  | quiet le quiet =>
    exact ⟨ServeRun.lockStep launched quiet wave timely, l, Nat.le_refl l, le, launched, quiet⟩
  | @reset a m e before idle le quiet ih =>
    have until_ : a ≤ e := Nat.le_trans (Nat.le_of_lt idle.after) le
    obtain ⟨first, m', le', last, launched', quiet'⟩ :=
      ih (timely.mono (Nat.le_refl l) until_)
    have within : l ≤ a := Nat.le_trans le' last
    have calm : Calm (run.state a) :=
      (serving launched' quiet' wave (timely.mono le' until_) last (Nat.le_refl a)).calm
        fun n after before => idle.high n after (Nat.lt_trans before idle.after)
    have relaunched := idle.restarts.launched
    have begun : l ≤ m := Nat.le_trans within (Nat.le_of_lt idle.after)
    have second := ServeRun.lockStep relaunched quiet wave (timely.mono begun (Nat.le_refl e))
    exact ⟨first.across within idle calm second, m, begun, le, relaunched, quiet⟩

/-- From start-up or from a completed reset on, and across any number of resets of an
idle bus, the pair serves in lock-step. -/
theorem lockStep_across_resets (starts : run.Starts l) (undisturbed : run.Undisturbed l e)
    (wave : run.Waveform) (timely : run.Timely l e) : run.LockStep l e :=
  (undisturbed.serves starts.launched wave timely).1

/-! ## Two runs on a chip fresh from reset -/

def freshCart : CartServe := ⟨0, 0, 0, 1, 0x2000#32⟩

def freshSm : Sm where
  enabled := false
  pc := 0
  delay := 0
  x := 0#32
  osr := 0#32
  isr := 0#32
  isrCount := 0
  tx := []
  rx := []
  level := fun _ => false
  dir := fun _ => false

/-- Reads of one address while `selected`, and a reset that makes one call per clock
from clock `a` on. -/
def readsAndReset (selected : Nat → Bool) (a : Nat) : ServeRun where
  mem pointer := pointer.setWidth 8
  start := (freshCart.initCalls ++ CartServe.arm.map (·.call)).foldl Serve.perform
    ⟨freshCart, freshSm, freshSm, false, false⟩
  inputs n :=
    { gpio := if selected n then 0x4321#64 else 1#64 <<< gpRd ||| 1#64 <<< gpSltsl
      dma := true
      calls := if n < a then [] else (freshCart.resetCalls.drop (n - a)).take 1 }

section

variable {selected : Nat → Bool}

theorem readsAndReset_booted : (readsAndReset selected a).Booted :=
  ⟨⟨fun _ => 0, []⟩, _, _, ⟨freshCart, freshSm, freshSm, false, false⟩, rfl, rfl, rfl⟩

theorem readsAndReset_rd (n : Nat) : (readsAndReset selected a).rd n = !selected n := by
  show (if selected n then 0x4321#64 else 1#64 <<< gpRd ||| 1#64 <<< gpSltsl).getLsbD gpRd = _
  cases selected n <;> decide

theorem readsAndReset_sltsl (n : Nat) : (readsAndReset selected a).sltsl n = !selected n := by
  show (if selected n then 0x4321#64 else 1#64 <<< gpRd ||| 1#64 <<< gpSltsl).getLsbD gpSltsl = _
  cases selected n <;> decide

theorem readsAndReset_selected (n : Nat) :
    (readsAndReset selected a).Selected n ↔ selected n = true := by
  unfold Selected
  rw [readsAndReset_rd, readsAndReset_sltsl]
  simp

theorem readsAndReset_quiet_before (l : Nat) : (readsAndReset selected a).Quiet l a :=
  fun _ _ before => if_pos before

theorem readsAndReset_quiet_after (e : Nat) : (readsAndReset selected a).Quiet (a + 18) e := by
  intro n after _
  have past : freshCart.resetCalls.length ≤ n - a := Nat.le_sub_of_add_le' after
  show (if n < a then [] else (freshCart.resetCalls.drop (n - a)).take 1) = []
  rw [if_neg (by omega), List.drop_of_length_le past, List.take_nil]

theorem readsAndReset_waveform
    (long : ∀ b, selected b = true → b = 0 ∨ selected (b - 1) = false →
      ∀ j < 16, selected (b + j) = true)
    (pause : ∀ r, selected (r - 1) = true → selected r = false →
      ∀ j < 16, selected (r + j) = false) : (readsAndReset selected a).Waveform where
  recovery := by
    simp only [readsAndReset_rd, Bool.not_eq_true', Bool.not_eq_false']
    exact fun r _ => pause r
  access := by
    simp only [readsAndReset_selected, Bool.not_eq_true]
    exact long
  settled := by
    simp only [readsAndReset_rd, readsAndReset_sltsl, Bool.not_eq_true', Bool.not_eq_false']
    intro f _ _ low m _ le near ⟨before, here⟩
    have high := pause m before here (f - m) (by omega)
    rw [Nat.add_sub_cancel' le, low] at high
    exact Bool.false_ne_true high.symm

def isPush : ServeEffect → Bool
  | .pushed _ => true
  | _ => false

/-- A transfer follows each push at once, so only the clocks of the pushes matter. -/
theorem readsAndReset_timely (clocks : List Nat)
    (others : ∀ p < e, p ∉ clocks →
      ∀ effect ∈ (readsAndReset selected a).effectsAt p, isPush effect = false)
    (early : ∀ p ∈ clocks, ∀ r, p < r → selected r = false → p + 8 ≤ r) :
    (readsAndReset selected a).Timely 0 e := by
  intro p r _ before until_ ⟨pointer, pushed⟩ _ rise
  rw [readsAndReset_rd, Bool.not_eq_true'] at rise
  have listed : p ∈ clocks := by
    by_contra other
    have before_e := Nat.lt_of_lt_of_le before until_
    exact Bool.false_ne_true (others p before_e other _ pushed).symm
  exact ⟨p, Nat.le_refl p, early p listed r before rise, rfl⟩

end

def twoReads (n : Nat) : Bool := decide (4 ≤ n ∧ n < 24 ∨ 48 ≤ n ∧ n < 68)

theorem twoReads_idle : (readsAndReset twoReads 28).RestartsIdle 28 46 where
  made := by decide +kernel
  after := by decide
  last := by decide +kernel
  channels := by decide
  high := by
    intro n after before
    rw [readsAndReset_rd]
    simp only [twoReads, Bool.not_eq_true', decide_eq_false_iff_not]
    omega

/-- Two reads with a reset between them. -/
theorem lockStep_across_resets_twoReads : (readsAndReset twoReads 28).LockStep 0 72 := by
  refine lockStep_across_resets (.inl ⟨rfl, readsAndReset_booted⟩)
    (.reset (.quiet (Nat.zero_le 28) (readsAndReset_quiet_before 0)) twoReads_idle (by decide)
      (readsAndReset_quiet_after 72))
    (readsAndReset_waveform ?_ ?_) (readsAndReset_timely [7, 51] ?_ ?_)
  · simp only [twoReads, decide_eq_true_eq, decide_eq_false_iff_not]
    omega
  · simp only [twoReads, decide_eq_true_eq, decide_eq_false_iff_not]
    omega
  · decide +kernel
  · simp only [twoReads, decide_eq_false_iff_not, List.mem_cons, List.not_mem_nil, or_false]
    omega

def longRead (n : Nat) : Bool := decide (4 ≤ n ∧ n < 64)

theorem longRead_waveform (a : Nat) : (readsAndReset longRead a).Waveform := by
  apply readsAndReset_waveform
  · simp only [longRead, decide_eq_true_eq, decide_eq_false_iff_not]
    omega
  · simp only [longRead, decide_eq_true_eq, decide_eq_false_iff_not]
    omega

theorem longRead_timely (clocks : List Nat) (early : ∀ p ∈ clocks, 4 ≤ p ∧ p ≤ 56)
    (others : ∀ p < e, p ∉ clocks →
      ∀ effect ∈ (readsAndReset longRead a).effectsAt p, isPush effect = false) :
    (readsAndReset longRead a).Timely 0 e := by
  apply readsAndReset_timely clocks others
  intro p listed r after high
  have inside := early p listed
  simp only [longRead, decide_eq_false_iff_not] at high
  omega

theorem longRead_phase (a : Nat) : (readsAndReset longRead a).LowPhase 4 64 where
  nonempty := by decide
  low := by
    intro j after before
    rw [readsAndReset_rd]
    simp only [longRead, Bool.not_eq_false', decide_eq_true_eq]
    omega
  ends := by
    rw [readsAndReset_rd]
    decide
  begins := by
    right
    rw [readsAndReset_rd]
    decide

/-- A reset that runs in the middle of a read makes `cart_addr_read` push a second
pointer in it. One that completes just before the end of a read leaves `cart_read`
waiting for a byte, with D0-D7 turned, after /RD has risen. -/
theorem reset_during_read :
    (¬ ∀ (run : ServeRun) (a m e : Nat), run.Booted → run.Quiet 0 a → run.Resets a m →
      run.Quiet m e → run.Waveform → run.Timely 0 e → run.LockStep 0 e) ∧
    ¬ ∀ (run : ServeRun) (a m e : Nat), run.Booted → run.Quiet 0 a → run.Resets a m →
      run.Quiet m e → run.Waveform → run.Timely 0 e → run.LockStep m e := by
  constructor
  · intro claim
    have resets : (readsAndReset longRead 20).Resets 20 38 :=
      ⟨by decide +kernel, by decide, by decide +kernel⟩
    have timely : (readsAndReset longRead 20).Timely 0 64 :=
      longRead_timely [7, 43] (by decide) (by decide +kernel)
    have lockStep := claim (readsAndReset longRead 20) 20 38 64 readsAndReset_booted
      (readsAndReset_quiet_before 0) resets (readsAndReset_quiet_after 64)
      (longRead_waveform 20) timely
    obtain ⟨p, -, -, -, effects⟩ := lockStep.served 4 64 (by decide) (by decide)
      (longRead_phase 20) ⟨4, by decide, by decide, by rw [readsAndReset_sltsl]; decide⟩
    have six : ((readsAndReset longRead 20).effects 4 64).length = 6 := by decide +kernel
    rw [effects] at six
    exact absurd six (by simp)
  · intro claim
    have resets : (readsAndReset longRead 44).Resets 44 62 :=
      ⟨by decide +kernel, by decide, by decide +kernel⟩
    have timely : (readsAndReset longRead 44).Timely 0 80 :=
      longRead_timely [7] (by decide) (by decide +kernel)
    have lockStep := claim (readsAndReset longRead 44) 44 62 80 readsAndReset_booted
      (readsAndReset_quiet_before 0) resets (readsAndReset_quiet_after 80)
      (longRead_waveform 44) timely
    have stuck : ((readsAndReset longRead 44).state 80).read.level 34 = false := by decide +kernel
    have high {j : Nat} (past : 64 ≤ j) : (readsAndReset longRead 44).rd j = true := by
      rw [readsAndReset_rd]
      simp only [longRead, Bool.not_eq_true', decide_eq_false_iff_not]
      omega
    obtain ⟨d, -, before, -, low | ⟨r, begun, -, late, low, -⟩⟩ :=
      lockStep.turned 80 (by decide) (by decide) (.inr stuck)
    · have here := low 79 (Nat.le_of_lt_succ before) (by decide)
      exact absurd (here.symm.trans (high (by decide))) Bool.false_ne_true
    · have here := low (r - 1) (by omega) (by omega)
      exact absurd (here.symm.trans (high (by omega))) Bool.false_ne_true

end ServeRun

end MsxPulse.Firmware
