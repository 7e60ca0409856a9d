import MsxPulse.Firmware.Alog.Buffer
import MsxPulse.Firmware.CaptureLane
import MsxPulse.Firmware.CartServe.AddrLog
import MsxPulse.Firmware.CartServe.ResetPipeline
import MsxPulse.Firmware.CmdDispatch.DumpHex

/-!
# The log tells what was served (alog.c, cart_serve.c, cart_serve.pio)

The log's sample is due while `cart_read` still drives the byte of the read that has
just ended. On a bus that carries the driven level back to the pins, and whose address
lines hold until then, the buffer of the log is the list of the reads served.
-/

namespace MsxPulse.Firmware

open Library Library.Pio

section Levels

variable {word : U32} {pc : ReadPc} {s : Sm} {i : Nat}

theorem waitHigh_data (s : Sm) (inside : i < 8) : waitHigh s (16 + i) = s.level (16 + i) :=
  writePins_outside _ _ _ _ _ (by omega)

/-- Nothing but `drive` changes the levels of the data pins. -/
theorem ReadAt.level (at_ : ReadAt word pc s) (gpio : U64) (inside : i < 8) :
    (cartRead.clock gpio s).1.level (16 + i) =
      if pc = .drive then (lowBits word 8).getLsbD i else s.level (16 + i) := by
  have kept := waitHigh_data s inside
  have direction (value : Word) :
      writePins (waitHigh s) 34 1 value (16 + i) = s.level (16 + i) :=
    (writePins_outside _ _ _ _ _ (by omega)).trans kept
  cases pc with
  | waitSltsl =>
    rw [at_.run gpio (.wait false gpSltsl) 0 rfl rfl]
    cases level : gpio.getLsbD gpSltsl <;> simp only [Program.exec, level] <;> exact kept
  | jmpRd =>
    rw [at_.run gpio (.jmpPin 0) 0 rfl rfl]
    have pin : cartRead.jmpPin = gpRd := rfl
    cases level : gpio.getLsbD gpRd <;> simp only [Program.exec, pin, level] <;> exact kept
  | dirOut =>
    rw [at_.run gpio (.setPins 0#32) 0 rfl rfl]
    exact direction 0#32
  | ones =>
    rw [at_.run gpio (.mov .osr .notNull) 0 rfl rfl]
    exact kept
  | outputs =>
    rw [at_.run gpio (.output .pindirs 8) 0 rfl rfl]
    exact kept
  | pull =>
    rw [at_.run gpio .pullBlock 0 rfl rfl]
    simp only [Program.exec]
    cases s.tx <;> exact kept
  | drive =>
    rw [at_.run gpio (.output .pins 8) 1 rfl rfl]
    show writePins (waitHigh s) 16 8 (lowBits s.osr 8) (16 + i) = _
    rw [writePins_inside _ _ _ _ _ (by omega), Nat.add_sub_cancel_left, at_.loaded rfl, if_pos rfl]
  | hold => rw [cartRead.clock_delayed gpio at_.enabled (by rw [at_.delay]; decide), if_neg (by decide)]
  | pace =>
    rw [at_.run gpio .nop 0 rfl rfl]
    exact kept
  | waitRd =>
    rw [at_.run gpio (.wait true gpRd) 0 rfl rfl]
    cases level : gpio.getLsbD gpRd <;> simp only [Program.exec, level] <;> exact kept
  | zeros =>
    rw [at_.run gpio (.mov .osr .null) 0 rfl rfl]
    exact kept
  | inputs =>
    rw [at_.run gpio (.output .pindirs 8) 0 rfl rfl]
    exact kept
  | dirIn =>
    rw [at_.run gpio (.setPins 1#32) 0 rfl rfl]
    exact direction 1#32

/-- Nothing but `drive` drives. -/
theorem ReadAt.not_driven (at_ : ReadAt word pc s) (gpio : U64) (other : pc ≠ .drive) (byte : U8) :
    .driven byte ∉ (cartRead.clock gpio s).2.filterMap readEffect := by
  by_cases pulling : pc = .pull
  · subst pulling
    cases tx : s.tx with
    | nil =>
      obtain ⟨-, -, effects⟩ := at_.stall gpio tx
      rw [effects]
      exact List.not_mem_nil
    | cons pulled rest =>
      obtain ⟨-, -, effects⟩ := at_.pull gpio tx
      rw [effects]
      simp [readEffect]
  · obtain ⟨-, -, effects⟩ := at_.step gpio pulling
    rw [effects, if_neg other]
    exact List.not_mem_nil

end Levels

namespace ServeRun

variable {run : ServeRun} {b m n e f l r : Nat}

/-- After an access has driven a byte, the data pins hold it. -/
def Shown (run : ServeRun) (b n : Nat) : Prop :=
  ∀ byte, (run.effects b n).getLast? = some (.driven byte) →
    ∀ i < 8, (run.state n).read.level (16 + i) = byte.getLsbD i

theorem read_level_succ (quiet : (run.inputs n).calls = []) :
    (run.state (n + 1)).read.level =
      (cartRead.clock (run.inputs n).gpio (run.state n).read).1.level := by
  rw [state_succ quiet]
  split
  · unfold Serve.dmaStep
    split
    · split <;> rfl
    · rfl
  · rfl

theorem not_driven {rpc : ReadPc} {word : U32} (read : ReadAt word rpc (run.state n).read)
    (other : rpc ≠ .drive) (byte : U8) : .driven byte ∉ run.effectsAt n := by
  rw [effectsAt_eq]
  intro inside
  rcases List.mem_append.mp inside with pushed | read_
  · obtain ⟨pointer, -, same⟩ := List.mem_map.mp pushed
    exact absurd same (by simp)
  · exact read.not_driven _ other byte read_

theorem Shown.step (shown : run.Shown b n) (le : b ≤ n) {rpc : ReadPc} {word : U32}
    (read : ReadAt word rpc (run.state n).read) (quiet : (run.inputs n).calls = []) :
    run.Shown b (n + 1) := by
  intro byte last i inside
  rw [effects_succ le, List.getLast?_append] at last
  rw [read_level_succ quiet, read.level _ inside]
  by_cases driving : rpc = .drive
  · subst driving
    obtain ⟨-, -, effects⟩ := read.step (run.inputs n).gpio nofun
    rw [effectsAt_eq, effects, if_pos rfl] at last
    have same : (lowBits word 8).setWidth 8 = byte := by
      simpa [readEffect] using last
    rw [if_pos rfl, ← same, BitVec.getLsbD_setWidth, decide_eq_true inside, Bool.true_and]
  · rw [if_neg driving]
    refine shown byte ?_ i inside
    cases here : (run.effectsAt n).getLast? with
    | none => simpa [here] using last
    | some effect =>
      have same : effect = .driven byte := by simpa [here] using last
      have member := List.mem_of_getLast? here
      exact absurd (same ▸ member) (not_driven read driving byte)

/-- In a served window `cart_read` is always in one of its positions. -/
theorem Serving.read (serving : run.Serving m n) :
    ∃ rpc word, ReadAt word rpc (run.state n).read := by
  cases serving with
  | idle idle => exact ⟨_, _, idle.snap.read⟩
  | access b within opened access => cases access with
    | wanted snap => exact ⟨_, _, snap.read⟩
    | sent p asked snap => exact ⟨_, _, snap.read⟩
    | fetched p t asked snap => exact ⟨_, _, snap.read⟩
    | loaded p t asked snap => exact ⟨_, _, snap.read⟩
    | driven p t asked snap => exact ⟨_, _, snap.read⟩
  | tail b r within tail => exact ⟨_, _, tail.snap.read⟩

theorem shown (launched : run.Launched m) (silent : run.Quiet m e) (wave : run.Waveform)
    (timely : run.Timely m e) (after : m ≤ b) (le : b ≤ n) (until_ : n ≤ e) : run.Shown b n := by
  induction n, le using Nat.le_induction with
  | base =>
    intro byte last
    rw [show run.effects b b = [] from Machine.gather_self _ b] at last
    exact absurd last (by simp)
  | succ n le ih =>
    have within := Nat.le_trans after le
    obtain ⟨_, _, read⟩ :=
      (serving launched silent wave timely within (Nat.le_of_succ_le until_)).read
    exact (ih (Nat.le_of_succ_le until_)).step le read (silent n within until_)

/-- In the last clocks of an access the byte has been driven. -/
theorem Access.late (access : run.Access b n) (opened : run.Open b r) (within : m ≤ b)
    (until_ : r ≤ e) (timely : run.Timely m e) (rise : run.rd r = true) (before : n ≤ r)
    (late : r ≤ n + 5) :
    ∃ p, (∀ i < 8, (run.state n).read.dir (16 + i) = true) ∧
      run.effects b n =
        [.pushed (run.pointer p), .pulled (lanes (run.romLut p)), .driven (run.romLut p)] := by
  have span := opened.span rise
  have transferred {p t : Nat} (asked : run.Asked b p n)
      (first : ∀ j, p ≤ j → j < t → (run.inputs j).dma = false) : t + 8 ≤ r := by
    obtain ⟨at_, after, soon, on⟩ :=
      timely p r (Nat.le_trans within asked.after) (Nat.lt_of_lt_of_le asked.before before) until_
        ⟨_, asked.pushed⟩ (fun j after => opened.low j (Nat.le_trans asked.after after)) rise
    by_cases earlier : at_ < t
    · exact absurd ((first at_ after earlier).symm.trans on) Bool.false_ne_true
    · omega
  cases access with
  | wanted snap early lag => omega
  | sent p asked snap waiting waits effects =>
    have soon := transferred asked waits
    omega
  | fetched p t asked snap waiting bound first effects =>
    have soon := transferred asked first
    omega
  | loaded p t asked snap bound first effects =>
    have soon := transferred asked first
    omega
  | driven p t asked snap bound first effects =>
    refine ⟨p, fun i inside => (snap.read.dir i inside).trans (decide_eq_true ?_), effects⟩
    rcases bound with ⟨rfl, -⟩ | ⟨rfl, -⟩ | rfl <;> decide

/-- `cart_read` drives this byte, as it has since the access drove it. -/
structure Driving (run : ServeRun) (b n : Nat) (byte : U8) : Prop where
  dir : ∀ i < 8, (run.state n).read.dir (16 + i) = true
  level : ∀ i < 8, (run.state n).read.level (16 + i) = byte.getLsbD i

/-- From five clocks before the rise of /RD to one after it, the pins carry the byte
that is served. -/
theorem Open.driving (opened : run.Open b r) (within : m ≤ b) (until_ : r < e)
    (launched : run.Launched m) (silent : run.Quiet m e) (wave : run.Waveform)
    (timely : run.Timely m e) (rise : run.rd r = true)
    (accesses : ∀ n, b < n → n ≤ r → run.Access b n) :
    ∃ p, b ≤ p ∧ p < r ∧ run.Selected p ∧
      run.effects b r =
        [.pushed (run.pointer p), .pulled (lanes (run.romLut p)), .driven (run.romLut p)] ∧
      ∀ n, r ≤ n + 5 → n ≤ r + 1 → run.Driving b n (run.romLut p) := by
  have span := opened.span rise
  have le := Nat.le_of_lt until_
  obtain ⟨p, word, after, before, selected, snap, effects⟩ :=
    (accesses r opened.after (Nat.le_refl r)).complete opened within le timely rise
  refine ⟨p, after, before, selected, effects, fun n soon last => ?_⟩
  rcases Nat.le_succ_iff.mp last with inside | rfl
  · obtain ⟨q, dir, now⟩ :=
      (accesses n (by omega) inside).late opened within le timely rise inside soon
    have same : run.romLut q = run.romLut p := by
      rw [effects_append (by omega) inside, now] at effects
      exact ServeEffect.driven.inj (List.cons.inj (List.cons.inj (List.cons.inj effects).2).2).1
    refine ⟨dir, same ▸ shown launched silent wave timely within (by omega) (by omega) _ ?_⟩
    rw [now]
    rfl
  · have quiet := silent r (by omega) until_
    obtain ⟨tail, none⟩ := snap.tail opened wave quiet rise
    refine ⟨tail.snap.read.dir, shown launched silent wave timely within (by omega) until_ _ ?_⟩
    rw [effects_succ (by omega), effects, none]
    rfl

/-- In a low phase that meets /SLTSL low an access is opened, and it stays open. -/
theorem Idle.accesses {apc : AddrPc} {rpc : ReadPc} {word : U32}
    (idle : run.Idle f apc rpc word) (wave : run.Waveform) (silent : run.Quiet f n)
    (after : f ≤ n) (low : ∀ j, f ≤ j → j < n → run.rd j = false) :
    (∀ j, f ≤ j → j < n → ¬ run.Selected j) ∨
      ∃ b, f ≤ b ∧ b < n ∧ run.effects f b = [] ∧
        ∀ k, b < k → k ≤ n → run.Open b k ∧ run.Access b k := by
  induction n, after using Nat.le_induction with
  | base => exact .inl fun j after before => absurd before (Nat.not_lt.mpr after)
  | succ n after ih =>
    have here := low n after (Nat.lt_succ_self n)
    have quiet := silent n after (Nat.lt_succ_self n)
    have earlier : run.Quiet f n := fun j hj before => silent j hj (Nat.lt_succ_of_lt before)
    have lows : ∀ j, f ≤ j → j < n → run.rd j = false :=
      fun j hj before => low j hj (Nat.lt_succ_of_lt before)
    rcases ih earlier lows with unselected | ⟨b, within, before, none, accesses⟩
    · rcases idle.lowPhase wave earlier after lows with
        ⟨⟨_, _, now⟩, none, -⟩ | ⟨b, within, opened, -, -⟩
      · by_cases selected : run.Selected n
        · obtain ⟨opened, access, -⟩ := now.opens wave quiet selected
          refine .inr ⟨n, after, Nat.lt_succ_self n, none, fun k later until_ => ?_⟩
          obtain rfl := Nat.le_antisymm until_ later
          exact ⟨opened, access⟩
        · refine .inl fun j hj before => ?_
          rcases Nat.lt_succ_iff_lt_or_eq.mp before with inside | rfl
          · exact unselected j hj inside
          · exact selected
      · have selected := opened.selected_of_lt (Nat.le_refl b) (Nat.lt_add_of_pos_right (by decide))
        exact absurd selected (unselected b within opened.after)
    · refine .inr ⟨b, within, Nat.lt_succ_of_lt before, none, fun k later until_ => ?_⟩
      rcases Nat.le_succ_iff.mp until_ with inside | rfl
      · exact accesses k later inside
      · obtain ⟨opened, access⟩ := accesses n before (Nat.le_refl n)
        exact ⟨opened.extend here, access.step opened quiet here⟩

/-- The bus as the board wires it: the pins carry what `cart_read` drives, `delay`
clocks later, and the address lines hold until one clock after the rise of /RD. -/
structure Carries (run : ServeRun) (delay l e : Nat) : Prop where
  address : ∀ b r, l ≤ b → r < e → run.Open b r → run.rd r = true →
    ∀ j, b ≤ j → j ≤ r + 1 → run.raw j = run.raw b
  data : ∀ n, l + delay ≤ n → n ≤ e → ∀ i < 8, (run.state (n - delay)).read.dir (16 + i) = true →
    (run.inputs n).gpio.getLsbD (16 + i) = (run.state (n - delay)).read.level (16 + i)

/-- The low phase that ends at `r` is served once, and one clock later the pins show the
address and the byte it was served with. -/
def Tells (run : ServeRun) (f r : Nat) : Prop :=
  ∃ p, f ≤ p ∧ p < r ∧ run.Selected p ∧
    run.effects f r =
      [.pushed (run.pointer p), .pulled (lanes (run.romLut p)), .driven (run.romLut p)] ∧
    (run.snapshot (r + 1)).setWidth 16 = run.raw p ∧
    (run.snapshot (r + 1) >>> 16).setWidth 8 = run.romLut p

theorem snapshot_raw (n : Nat) : (run.snapshot n).setWidth 16 = run.raw n := by
  unfold snapshot raw
  exact BitVec.setWidth_setWidth_of_le _ (by decide)

theorem snapshot_data {byte : U8} (lines : ∀ i < 8, (run.inputs n).gpio.getLsbD (16 + i) = byte.getLsbD i) :
    (run.snapshot n >>> 16).setWidth 8 = byte := by
  apply BitVec.eq_of_getLsbD_eq
  intro i inside
  have width : 16 + i < 32 := by omega
  rw [BitVec.getLsbD_setWidth, BitVec.getLsbD_ushiftRight, snapshot, BitVec.getLsbD_setWidth,
    decide_eq_true inside, decide_eq_true width, Bool.true_and, Bool.true_and]
  exact lines i inside

variable {delay : Nat}

/-- Without calls from the processor, every read is told. -/
theorem tells_quiet (launched : run.Launched m) (silent : run.Quiet m e) (wave : run.Waveform)
    (timely : run.Timely m e) (fast : delay ≤ 6) (carries : run.Carries delay m e)
    (after : m ≤ f) (until_ : r < e) (phase : run.LowPhase f r)
    (met : ∃ j, f ≤ j ∧ j < r ∧ run.sltsl j = false) : run.Tells f r := by
  obtain ⟨j, hj, before, sltsl⟩ := met
  have start := Nat.le_trans (Nat.le_of_lt phase.nonempty) (Nat.le_of_lt until_)
  obtain ⟨_, _, _, idle⟩ :=
    (serving launched silent wave timely after start).idle_of_lowPhase phase
  have quiet : run.Quiet f r := fun n h h' =>
    silent n (Nat.le_trans after h) (Nat.lt_trans h' until_)
  rcases idle.accesses wave quiet (Nat.le_of_lt phase.nonempty) phase.low with
    unselected | ⟨b, within, earlier, none, accesses⟩
  · exact absurd ⟨sltsl, phase.low j hj before⟩ (unselected j hj before)
  · have opened := (accesses r earlier (Nat.le_refl r)).1
    have begun := Nat.le_trans after within
    have span := opened.span phase.ends
    obtain ⟨p, le, lt, selected, effects, driving⟩ :=
      opened.driving begun until_ launched silent wave timely phase.ends
        fun n h h' => (accesses n h h').2
    have address := carries.address b r begun until_ opened phase.ends
    refine ⟨p, Nat.le_trans within le, lt, selected, ?_, ?_, snapshot_data fun i inside => ?_⟩
    · rw [effects_append within (Nat.le_of_lt earlier), none, effects]
      rfl
    · rw [snapshot_raw, address (r + 1) (by omega) (Nat.le_refl _), address p le (by omega)]
    · have now := driving (r + 1 - delay) (by omega) (Nat.sub_le _ _)
      rw [carries.data (r + 1) (by omega) until_ i inside (now.dir i inside), now.level i inside]

theorem Carries.mono {l' e' : Nat} (carries : run.Carries delay l e) (first : l ≤ l')
    (last : e' ≤ e) : run.Carries delay l' e' where
  address := fun b r after until_ =>
    carries.address b r (Nat.le_trans first after) (Nat.lt_of_lt_of_le until_ last)
  data := fun n after until_ =>
    carries.data n (Nat.le_trans (Nat.add_le_add_right first delay) after)
      (Nat.le_trans until_ last)

theorem Undisturbed.le (undisturbed : run.Undisturbed l e) : l ≤ e := by
  induction undisturbed with
  | quiet le quiet => exact le
  | reset before idle le quiet ih =>
    exact Nat.le_trans ih (Nat.le_trans (Nat.le_of_lt idle.after) le)

/-- Resets of an idle bus in between do not matter. -/
theorem Undisturbed.tells (undisturbed : run.Undisturbed l e) (launched : run.Launched l)
    (wave : run.Waveform) (timely : run.Timely l e) (fast : delay ≤ 6)
    (carries : run.Carries delay l e) (after : l ≤ f) (until_ : r < e) (phase : run.LowPhase f r)
    (met : ∃ j, f ≤ j ∧ j < r ∧ run.sltsl j = false) : run.Tells f r := by
  induction undisturbed with
  | quiet le quiet =>
    exact tells_quiet launched quiet wave timely fast carries after until_ phase met
  | @reset a m e before idle le quiet ih =>
    have begun : a ≤ e := Nat.le_trans (Nat.le_of_lt idle.after) le
    rcases phase.apart idle with earlier | later
    · have low := phase.low (r - 1) (Nat.le_sub_one_of_lt phase.nonempty)
        (Nat.sub_lt (Nat.zero_lt_of_lt phase.nonempty) Nat.one_pos)
      have apart : r < a := by
        refine Nat.lt_of_le_of_ne earlier fun same => ?_
        have high := idle.high (r - 1) (by omega) (by have := idle.after; omega)
        exact Bool.false_ne_true (low.symm.trans high)
      exact ih (timely.mono (Nat.le_refl l) begun) (carries.mono (Nat.le_refl l) begun) apart
    · have first := Nat.le_trans before.le (Nat.le_of_lt idle.after)
      exact tells_quiet idle.restarts.launched quiet wave (timely.mono first (Nat.le_refl e)) fast
        (carries.mono first (Nat.le_refl e)) later until_ phase met

theorem LowPhase.unique {f' : Nat} (phase : run.LowPhase f r) (phase' : run.LowPhase f' r) :
    f = f' := by
  have apart {g g' : Nat} (first : run.LowPhase g r) (second : run.LowPhase g' r) : g' ≤ g := by
    refine Nat.le_of_not_lt fun less => ?_
    rcases second.begins with zero | high
    · omega
    · have low := first.low (g' - 1) (Nat.le_sub_one_of_lt less)
        (Nat.lt_of_le_of_lt (Nat.sub_le _ _) second.nonempty)
      exact Bool.false_ne_true (low.symm.trans high)
  exact Nat.le_antisymm (apart phase' phase) (apart phase phase')

/-! ## The buffer -/

instance (f r : Nat) : Decidable (run.LowPhase f r) :=
  decidable_of_iff
    (f < r ∧ (∀ j < r, f ≤ j → run.rd j = false) ∧ run.rd r = true ∧
      (f = 0 ∨ run.rd (f - 1) = true))
    ⟨fun ⟨nonempty, low, ends, begins⟩ =>
      ⟨nonempty, fun j after before => low j before after, ends, begins⟩,
    fun phase => ⟨phase.nonempty, fun j before after => phase.low j after before, phase.ends,
      phase.begins⟩⟩

instance (r : Nat) : Decidable (run.Ends r) :=
  decidable_of_iff (∃ f < r, run.LowPhase f r ∧ ∃ j < r, f ≤ j ∧ run.sltsl j = false)
    ⟨fun ⟨f, _, phase, j, before, after, low⟩ => ⟨f, phase, j, after, before, low⟩,
    fun ⟨f, phase, j, after, before, low⟩ => ⟨f, phase.nonempty, phase, j, before, after, low⟩⟩

variable (run) in
/-- The reads that have ended since clock `c`, early enough to be logged before clock `n`. -/
def ended (c n : Nat) : List Nat := (List.range' c (n - 1 - c)).filter (run.Ends ·)

variable (run) in
/-- What `cart_addr_log` samples before clock `n`, if it is armed before clock `c`. -/
def sampledSince (c n : Nat) : List U32 :=
  cartAddrLog.sampled (fun k => ((run.behind c).inputs k).gpio) ⟨0, 0⟩ (n - c)

theorem cartAddrLog_sampled (wave : run.Waveform) (n : Nat) :
    cartAddrLog.sampled (fun k => (run.inputs k).gpio) ⟨0, 0⟩ n =
      (run.ended 0 n).map fun r => run.snapshot (r + 1) := by
  have at_ : cartAddrLog.SamplesAt (fun k => (run.inputs k).gpio) ⟨0, 0⟩
      (fun k => 0 < k ∧ run.Ends (k - 1)) := by
    intro k
    rw [cartAddrLog_samplesAt wave k]
    constructor
    · rintro ⟨r, rfl, ends⟩
      exact ⟨Nat.succ_pos r, ends⟩
    · rintro ⟨positive, ends⟩
      exact ⟨k - 1, (Nat.sub_add_cancel positive).symm, ends⟩
  rw [at_.sampled n, ended, ← List.range_eq_range']
  cases n with
  | zero => rfl
  | succ n =>
    rw [List.range_succ_eq_map, List.filter_cons_of_neg (by simp), List.filter_map,
      List.map_map, Nat.add_sub_cancel]
    have later : ((fun k => decide (0 < k ∧ run.Ends (k - 1))) ∘ Nat.succ) =
        fun r => decide (run.Ends r) := by
      funext r
      simp
    rw [later]
    exact List.map_congr_left fun r _ => by simp [Program.sample, cartAddrLog, snapshot]

theorem ended_behind {c : Nat} (clear : run.Clear c) (n : Nat) :
    ((run.behind c).ended 0 (n - c)).map (c + ·) = run.ended c n := by
  have same : ((fun r => decide (run.Ends r)) ∘ (c + ·)) =
      fun r => decide ((run.behind c).Ends r) :=
    funext fun r => decide_eq_decide.mpr (ends_behind clear).symm
  rw [ended, ended, ← List.range_eq_range', List.range'_eq_map_range, List.filter_map, same,
    Nat.sub_zero, Nat.sub_right_comm]

/-- A log that is armed on an idle bus samples the reads that end from then on. -/
theorem sampledSince_eq (wave : run.Waveform) {c : Nat} (clear : run.Clear c) (n : Nat) :
    run.sampledSince c n = (run.ended c n).map fun r => run.snapshot (r + 1) := by
  rw [sampledSince, cartAddrLog_sampled (wave.behind clear), ← ended_behind clear, List.map_map]
  rfl

end ServeRun

/-- The log's state machine and the buffer behind its channel. -/
structure LogLane where
  sm : Sm
  buffer : AlogBuffer

namespace LogLane

/-- The channel takes the oldest word of the FIFO. -/
def transfer (l : LogLane) : LogLane :=
  match l.sm.rx with
  | word :: rest =>
    if l.buffer.HasRoom then ⟨{ l.sm with rx := rest }, l.buffer.store word⟩ else l
  | [] => l

/-- One clock, with a transfer if the channel has its turn. -/
def clock (gpio : U64) (dma : Bool) (l : LogLane) : LogLane :=
  let ran : LogLane := { l with sm := (cartAddrLog.clock gpio l.sm).1 }
  if dma then ran.transfer else ran

/-- `alog_init` -/
def init (sdk : Sdk) (l : LogLane) : LogLane :=
  ⟨runOps (Alog.init sdk).1.pioOffset (smOps .pio0 0 (Alog.init sdk).2.2) l.sm, l.buffer.init⟩

/-- `alog_reset` -/
def reset (a : Alog) (l : LogLane) : LogLane :=
  ⟨runOps a.pioOffset (smOps .pio0 0 a.reset) l.sm, l.buffer.reset⟩

/-- The log has been armed and has not run yet. -/
structure Armed (l : LogLane) : Prop where
  at_ : l.sm.At ⟨0, 0⟩
  rx : l.sm.rx = []
  armed : l.buffer.armed = true
  positioned : l.buffer.Positioned
  words : l.buffer.words = []

theorem armDma_words {b : AlogBuffer} (claimed : b.claimed = true) : b.armDma.words = [] := by
  refine List.eq_nil_of_length_eq_zero ?_
  rw [AlogBuffer.length_words,
    AlogBuffer.captured_of_position (b := b.armDma) claimed (Nat.zero_le _) b.raw.base_eq_entry]
  rfl

theorem init_armed (sdk : Sdk) (l : LogLane) : (l.init sdk).Armed where
  at_ := ⟨rfl, Nat.sub_self _, rfl, rfl⟩
  rx := rfl
  armed := rfl
  positioned := AlogBuffer.init_positioned l.buffer
  words := armDma_words rfl

theorem reset_armed (a : Alog) {l : LogLane} (claimed : l.buffer.claimed = true) :
    (l.reset a).Armed := by
  have rearmed : l.buffer.reset = l.buffer.armDma := if_pos claimed
  refine ⟨⟨rfl, Nat.sub_self _, rfl, rfl⟩, rfl, ?_, ?_, ?_⟩
  · exact congrArg AlogBuffer.armed rearmed
  · show l.buffer.reset.Positioned
    rw [rearmed]
    exact AlogBuffer.armDma_positioned claimed
  · show l.buffer.reset.words = []
    rw [rearmed]
    exact armDma_words claimed

end LogLane

/-- What happens to the log at a clock: the channel has its turn, and `alog_reset` is called
after it. -/
structure LogTurn where
  dma : Bool
  reset : Bool

/-- The clock before which the log was armed last. -/
def LogTurn.armedAt (turns : Nat → LogTurn) : Nat → Nat
  | 0 => 0
  | n + 1 => if (turns n).reset then n + 1 else armedAt turns n

theorem LogTurn.armedAt_succ (turns : Nat → LogTurn) (n : Nat) :
    armedAt turns (n + 1) = if (turns n).reset then n + 1 else armedAt turns n := rfl

theorem LogTurn.armedAt_le (turns : Nat → LogTurn) (n : Nat) : armedAt turns n ≤ n := by
  induction n with
  | zero => exact Nat.le_refl 0
  | succ n ih =>
    rw [armedAt_succ]
    split
    · exact Nat.le_refl _
    · exact Nat.le_succ_of_le ih

namespace LogLane

variable (run : ServeRun) (a : Alog) (turns : Nat → LogTurn) (start : LogLane)

/-- The log before clock `n`. -/
def after : Nat → LogLane
  | 0 => start
  | n + 1 =>
    let ran := (after n).clock (run.inputs n).gpio (turns n).dma
    if (turns n).reset then ran.reset a else ran

theorem after_succ (n : Nat) : start.after run a turns (n + 1) =
    if (turns n).reset then
      ((start.after run a turns n).clock (run.inputs n).gpio (turns n).dma).reset a
    else (start.after run a turns n).clock (run.inputs n).gpio (turns n).dma := rfl

/-- The channel keeps up: the FIFO has room for each sample until the buffer is full. -/
def InTime (e : Nat) : Prop :=
  ∀ n < e, cartAddrLog.Room (start.after run a turns n).sm ∨
    ¬ (start.after run a turns n).buffer.HasRoom

instance (e : Nat) : Decidable (start.InTime run a turns e) :=
  inferInstanceAs (Decidable (∀ n < e, _))

/-- The buffer holds the first of the sampled words, and the FIFO the others, until the
buffer is full. -/
inductive Holds (n : Nat) (l : LogLane) : Prop where
  | filling (armed : l.buffer.armed = true) (positioned : l.buffer.Positioned)
      (fed : cartAddrLog.Fed (fun k => (run.inputs k).gpio) ⟨0, 0⟩ n l.sm l.buffer.words)
  | full (full : ¬ l.buffer.HasRoom) (enough : Alog.total ≤ l.buffer.words.length)
      (first : l.buffer.words <+: cartAddrLog.sampled (fun k => (run.inputs k).gpio) ⟨0, 0⟩ n)

variable {run a turns start} {n e : Nat} {l : LogLane}

theorem transfer_full (full : ¬ l.buffer.HasRoom) : l.transfer.buffer = l.buffer := by
  unfold transfer
  split
  · rw [if_neg full]
  · rfl

theorem clock_full (full : ¬ l.buffer.HasRoom) (gpio : U64) (turn : Bool) :
    (l.clock gpio turn).buffer = l.buffer := by
  cases turn with
  | true => exact transfer_full full
  | false => rfl

theorem transfer_claimed (l : LogLane) : l.transfer.buffer.claimed = l.buffer.claimed := by
  unfold transfer
  split
  · split <;> rfl
  · rfl

theorem clock_claimed (l : LogLane) (gpio : U64) (turn : Bool) :
    (l.clock gpio turn).buffer.claimed = l.buffer.claimed := by
  cases turn with
  | true => exact transfer_claimed _
  | false => rfl

theorem reset_claimed (l : LogLane) (a : Alog) : (l.reset a).buffer.claimed = l.buffer.claimed := by
  show l.buffer.reset.claimed = _
  unfold AlogBuffer.reset
  split <;> rfl

theorem after_claimed (run : ServeRun) (a : Alog) (turns : Nat → LogTurn)
    (claimed : start.buffer.claimed = true) (n : Nat) :
    (start.after run a turns n).buffer.claimed = true := by
  induction n with
  | zero => exact claimed
  | succ n ih =>
    have ran := (clock_claimed _ (run.inputs n).gpio (turns n).dma).trans ih
    rw [after_succ]
    split
    · exact (reset_claimed _ a).trans ran
    · exact ran

theorem Holds.transfer (holds : l.Holds run n) : l.transfer.Holds run n := by
  cases holds with
  | filling armed positioned fed =>
    unfold LogLane.transfer
    cases rx : l.sm.rx with
    | nil => exact .filling armed positioned fed
    | cons word rest =>
      by_cases room : l.buffer.HasRoom
      · simp only [if_pos room]
        refine .filling armed (positioned.store room word) ?_
        show cartAddrLog.Fed _ _ n { l.sm with rx := rest } (l.buffer.store word).words
        rw [AlogBuffer.store_words positioned room]
        exact fed.take rx
      · simp only [if_neg room]
        exact .filling armed positioned fed
  | full full enough first =>
    rw [← transfer_full full] at enough first full
    exact .full full enough first

theorem Holds.clock (holds : l.Holds run n) (turn : Bool)
    (inTime : cartAddrLog.Room l.sm ∨ ¬ l.buffer.HasRoom) :
    (l.clock (run.inputs n).gpio turn).Holds run (n + 1) := by
  have longer : cartAddrLog.sampled (fun k => (run.inputs k).gpio) ⟨0, 0⟩ n <+:
      cartAddrLog.sampled (fun k => (run.inputs k).gpio) ⟨0, 0⟩ (n + 1) :=
    ⟨_, (Program.sampled_succ _ _ _ n).symm⟩
  have stuck (full : ¬ l.buffer.HasRoom) (enough : Alog.total ≤ l.buffer.words.length)
      (first : l.buffer.words <+: cartAddrLog.sampled (fun k => (run.inputs k).gpio) ⟨0, 0⟩ n) :
      (l.clock (run.inputs n).gpio turn).Holds run (n + 1) := by
    have same := clock_full full (run.inputs n).gpio turn
    refine .full (same ▸ full) (same ▸ enough) ?_
    rw [same]
    exact first.trans longer
  cases holds with
  | filling armed positioned fed =>
    by_cases room : cartAddrLog.Room l.sm
    · have ran : Holds run (n + 1)
          { l with sm := (cartAddrLog.clock (run.inputs n).gpio l.sm).1 } :=
        .filling armed positioned (fed.clock cartAddrLog_watcher room)
      cases turn with
      | true => exact ran.transfer
      | false => exact ran
    · have full := inTime.resolve_left room
      refine stuck full ?_ ⟨_, fed.conserved⟩
      rw [AlogBuffer.length_words]
      exact Nat.le_of_not_lt fun less => full ⟨armed, less⟩
  | full full enough first => exact stuck full enough first

/-- A log that has been armed holds nothing and has sampled nothing. -/
theorem Armed.holds (armed : l.Armed) (run : ServeRun) : l.Holds run 0 := by
  refine .filling armed.armed armed.positioned ?_
  rw [armed.words]
  exact Program.fed_start armed.at_ armed.rx

/-- The log holds what it has sampled since it was armed last. -/
theorem Armed.holds_after (armed : start.Armed) (inTime : start.InTime run a turns e) (le : n ≤ e) :
    (start.after run a turns n).Holds (run.behind (LogTurn.armedAt turns n))
      (n - LogTurn.armedAt turns n) := by
  induction n with
  | zero => exact armed.holds _
  | succ n ih =>
    have claimed := after_claimed run a turns (armed.positioned armed.armed).1 n
    have begun := LogTurn.armedAt_le turns n
    rw [after_succ, LogTurn.armedAt_succ]
    by_cases reset : (turns n).reset = true
    · rw [if_pos reset, if_pos reset, Nat.sub_self]
      exact (reset_armed a ((clock_claimed _ _ _).trans claimed)).holds _
    · rw [if_neg reset, if_neg reset]
      have holds := (ih (Nat.le_of_succ_le le)).clock (turns n).dma (inTime n le)
      have here : ((run.behind (LogTurn.armedAt turns n)).inputs (n - LogTurn.armedAt turns n)) =
          run.inputs n := congrArg run.inputs (Nat.add_sub_cancel' begun)
      rwa [here, ← Nat.sub_add_comm begun] at holds

/-- At most the FIFO's words are missing, unless the buffer is full. -/
theorem Holds.recent (holds : l.Holds run n) :
    (cartAddrLog.sampled (fun k => (run.inputs k).gpio) ⟨0, 0⟩ n).length ≤
        l.buffer.words.length + fifoDepth ∨ Alog.total ≤ l.buffer.words.length := by
  cases holds with
  | filling armed positioned fed =>
    left
    rw [← fed.conserved, List.length_append]
    exact Nat.add_le_add_left fed.depth _
  | full full enough first => exact .inr enough

theorem Holds.first (holds : l.Holds run n) :
    l.buffer.words <+: cartAddrLog.sampled (fun k => (run.inputs k).gpio) ⟨0, 0⟩ n := by
  cases holds with
  | filling armed positioned fed => exact ⟨_, fed.conserved⟩
  | full full enough first => exact first

theorem not_room (full : Alog.total ≤ l.buffer.words.length) : ¬ l.buffer.HasRoom := by
  rw [AlogBuffer.length_words] at full
  exact fun room => Nat.not_lt.mpr full room.2

/-- A full buffer stays as it is until the log is armed again. -/
theorem after_full {n' : Nat} (later : n ≤ n')
    (kept : LogTurn.armedAt turns n' = LogTurn.armedAt turns n)
    (full : Alog.total ≤ (start.after run a turns n).buffer.words.length) :
    (start.after run a turns n').buffer = (start.after run a turns n).buffer := by
  induction n', later using Nat.le_induction with
  | base => rfl
  | succ m later ih =>
    have begun := LogTurn.armedAt_le turns n
    rw [LogTurn.armedAt_succ] at kept
    by_cases reset : (turns m).reset = true
    · rw [if_pos reset] at kept
      omega
    · rw [if_neg reset] at kept
      have before := ih kept
      rw [after_succ, if_neg reset, clock_full (not_room (before ▸ full)), before]

end LogLane

namespace ServeRun

/-- If `alog_reset` is called on an idle bus only, the log is armed on one. -/
theorem clear_armedAt {run : ServeRun} {turns : Nat → LogTurn} {e n : Nat}
    (idle : ∀ n < e, (turns n).reset = true → run.rd n = true) (until_ : n ≤ e) :
    run.Clear (LogTurn.armedAt turns n) := by
  induction n with
  | zero => exact .inl rfl
  | succ n ih =>
    rw [LogTurn.armedAt_succ]
    split
    · next reset => exact .inr (idle n until_ reset)
    · exact ih (Nat.le_of_succ_le until_)

open CartServe CmdDispatch in
/-- ALOG tells what the MSX was served. With the bus wired as on the board, with both DMA
channels in time and the log armed on an idle bus, the captured words are the first of the
reads that have ended since, in order, at most a FIFO of them short until the buffer is full,
and then they stay; and the snapshot of every read made since the server was started holds the
address that was looked up and the one byte that was driven, which is the image's inside the
window and 0xFF elsewhere. -/
theorem log_tells_served {run : ServeRun} {l e delay : Nat} (starts : run.Starts l)
    (undisturbed : run.Undisturbed l e) (wave : run.Waveform) (timely : run.Timely l e)
    (fast : delay ≤ 6) (carries : run.Carries delay l e) {s : RomCopies}
    {romImage : Option (List U8)}
    (table : ∀ raw, run.mem (lutPointer run.start.cart.lutHigh raw) =
      (initCopies s romImage (romImage.getD []).length).lut raw)
    {a : Alog} {turns : Nat → LogTurn} {start : LogLane} (armed : start.Armed)
    (inTime : start.InTime run a turns e) (idle : ∀ n < e, (turns n).reset = true → run.rd n = true)
    {n : Nat} (until_ : n ≤ e) :
    let words (n : Nat) := (start.after run a turns n).buffer.words
    let reads := run.ended (LogTurn.armedAt turns n) n
    words n <+: reads.map (fun r => run.snapshot (r + 1)) ∧
      (reads.length ≤ (words n).length + fifoDepth ∨ Alog.total ≤ (words n).length) ∧
      (Alog.total ≤ (words n).length → ∀ n', n ≤ n' →
        LogTurn.armedAt turns n' = LogTurn.armedAt turns n → words n' = words n) ∧
      ∀ r ∈ run.ended l n, ∀ f, l ≤ f → run.LowPhase f r → ∃ (addr : U16) (byte : U8),
        run.effects f r =
            [.pushed (lutPointer run.start.cart.lutHigh addr), .pulled (lanes byte), .driven byte] ∧
          (run.snapshot (r + 1)).setWidth 16 = addr ∧
          (run.snapshot (r + 1) >>> 16).setWidth 8 = byte ∧
          byte = if 0x4000 ≤ addr.toNat ∧ addr.toNat ≤ 0x7FFF then
            imageByte (romImage.getD []) addr.toNat else 0xFF := by
  have holds := armed.holds_after inTime until_
  have sampled := sampledSince_eq wave (clear_armedAt idle until_) n
  refine ⟨sampled ▸ holds.first, ?_, fun full n' later kept => ?_, fun r inside f after phase => ?_⟩
  · have recent : (run.sampledSince (LogTurn.armedAt turns n) n).length ≤ _ ∨ _ := holds.recent
    rwa [sampled, List.length_map] at recent
  · exact congrArg AlogBuffer.words (LogLane.after_full later kept full)
  · rw [ended, List.mem_filter, List.mem_range'_1] at inside
    obtain ⟨soon, ends⟩ := inside
    obtain ⟨f', phase', met⟩ := of_decide_eq_true ends
    have same : f' = f := phase'.unique phase
    subst same
    obtain ⟨p, -, -, -, effects, address, data⟩ :=
      undisturbed.tells starts.launched wave timely fast carries after (by omega) phase met
    refine ⟨run.raw p, run.romLut p, effects, address, data, ?_⟩
    rw [romLut, pointer, table, initCopies_lut]

/-- Reads in the clocks 4 to 19 and 36 to 51. -/
def reads16 (n : Nat) : Bool := decide (4 ≤ n ∧ n < 20 ∨ 36 ≤ n ∧ n < 52)

/-- Two reads of 0x4321 from an empty image, and the reset of the pair between them. -/
def loggedReads : ServeRun where
  mem _ := 0xFF#8
  start := (freshCart.initCalls ++ CartServe.arm.map (·.call)).foldl Serve.perform
    ⟨freshCart, freshSm, { freshSm with level := fun _ => true }, false, false⟩
  inputs n :=
    { gpio := 0xFF4321#64 |||
        if reads16 n then 0#64 else 1#64 <<< gpRd ||| 1#64 <<< gpSltsl
      dma := true
      calls := if n = 24 then freshCart.resetCalls else [] }

theorem loggedReads_booted : loggedReads.Booted :=
  ⟨⟨fun _ => 0, []⟩, _, _,
    ⟨freshCart, freshSm, { freshSm with level := fun _ => true }, false, false⟩, rfl, rfl, rfl⟩

theorem loggedReads_rd (n : Nat) : loggedReads.rd n = !reads16 n := by
  show (0xFF4321#64 ||| if reads16 n then 0#64 else 1#64 <<< gpRd ||| 1#64 <<< gpSltsl).getLsbD
    gpRd = _
  cases reads16 n <;> decide

theorem loggedReads_sltsl (n : Nat) : loggedReads.sltsl n = !reads16 n := by
  show (0xFF4321#64 ||| if reads16 n then 0#64 else 1#64 <<< gpRd ||| 1#64 <<< gpSltsl).getLsbD
    gpSltsl = _
  cases reads16 n <;> decide

theorem loggedReads_raw (n : Nat) : loggedReads.raw n = 0x4321#16 := by
  show (0xFF4321#64 ||| if reads16 n then 0#64
    else 1#64 <<< gpRd ||| 1#64 <<< gpSltsl).setWidth 16 = _
  cases reads16 n <;> decide

theorem loggedReads_waveform : loggedReads.Waveform where
  recovery := by
    simp only [loggedReads_rd, reads16, Bool.not_eq_true', Bool.not_eq_false',
      decide_eq_true_eq, decide_eq_false_iff_not]
    omega
  access := by
    simp only [Selected, loggedReads_rd, loggedReads_sltsl, reads16, Bool.not_eq_false',
      decide_eq_true_eq]
    omega
  settled := by
    simp only [loggedReads_rd, loggedReads_sltsl, reads16, Bool.not_eq_true', Bool.not_eq_false',
      decide_eq_true_eq, decide_eq_false_iff_not]
    omega

theorem loggedReads_idle : loggedReads.RestartsIdle 24 25 where
  made := rfl
  after := by decide
  last := by decide
  channels := by decide
  high := by
    intro n after before
    rw [loggedReads_rd]
    simp only [reads16, Bool.not_eq_true', decide_eq_false_iff_not]
    omega

theorem loggedReads_undisturbed : loggedReads.Undisturbed 0 54 :=
  .reset (.quiet (Nat.zero_le 24) fun _ _ before => if_neg (Nat.ne_of_lt before)) loggedReads_idle
    (by decide) fun _ after _ => if_neg (Nat.ne_of_gt after)

theorem loggedReads_timely : loggedReads.Timely 0 54 := by
  intro p r _ before until_ ⟨pointer, pushed⟩ _ rise
  have clocks : ∀ p < 54, (loggedReads.effectsAt p).any isPush = true →
      4 ≤ p ∧ p ≤ 8 ∨ 36 ≤ p ∧ p ≤ 40 := by
    decide +kernel
  have early := clocks p (by omega) (List.any_eq_true.mpr ⟨_, pushed, rfl⟩)
  rw [loggedReads_rd, Bool.not_eq_true', reads16, decide_eq_false_iff_not] at rise
  exact ⟨p, Nat.le_refl p, by omega, rfl⟩

theorem loggedReads_carries : loggedReads.Carries 2 0 54 where
  address := by
    intro b r _ _ _ _ j _ _
    rw [loggedReads_raw, loggedReads_raw]
  data := by
    have lines : ∀ n < 55, 2 ≤ n → ∀ i < 8, (loggedReads.state (n - 2)).read.dir (16 + i) = true →
        (loggedReads.inputs n).gpio.getLsbD (16 + i) =
          (loggedReads.state (n - 2)).read.level (16 + i) := by
      decide +kernel
    exact fun n after until_ => lines n (Nat.lt_succ_of_le until_) after

/-- The log as `alog_init` leaves it. -/
def freshLog : LogLane :=
  LogLane.init ⟨fun _ => 0, []⟩ ⟨freshSm, .initial ⟨0x20001000#32, by decide⟩⟩

/-- `alog_reset` two clocks before the reset of the pair. -/
def rearmedOnce (n : Nat) : LogTurn := ⟨true, n == 22⟩

def noCopies : CartServe.RomCopies :=
  ⟨⟨List.replicate CartServe.romSramSize 0, List.length_replicate⟩, fun _ => 0⟩

/-- The second read is in the log, and both were served with the byte of an empty image. -/
theorem log_tells_served_loggedReads :
    (freshLog.after loggedReads ⟨0, 0⟩ rearmedOnce 54).buffer.words <+: [loggedReads.snapshot 53] ∧
      (loggedReads.snapshot 21 >>> 16).setWidth 8 = 0xFF#8 ∧
      (loggedReads.snapshot 53 >>> 16).setWidth 8 = 0xFF#8 := by
  have armed : freshLog.Armed := LogLane.init_armed _ _
  have inTime : freshLog.InTime loggedReads ⟨0, 0⟩ rearmedOnce 54 := by decide +kernel
  have idle : ∀ n < 54, (rearmedOnce n).reset = true → loggedReads.rd n = true := by decide +kernel
  have table : ∀ raw, loggedReads.mem (lutPointer loggedReads.start.cart.lutHigh raw) =
      (CartServe.initCopies noCopies none ((none : Option (List U8)).getD []).length).lut raw := by
    intro raw
    rw [CmdDispatch.initCopies_lut]
    split <;> rfl
  obtain ⟨first, -, -, told⟩ := log_tells_served (.inl ⟨rfl, loggedReads_booted⟩)
    loggedReads_undisturbed loggedReads_waveform loggedReads_timely (by decide) loggedReads_carries
    table armed inTime idle (Nat.le_refl 54)
  have since : loggedReads.ended (LogTurn.armedAt rearmedOnce 54) 54 = [52] := by decide +kernel
  rw [since] at first
  obtain ⟨addr, byte, -, -, data, byte_eq⟩ :=
    told 20 (by decide +kernel) 4 (Nat.zero_le 4) (by decide +kernel)
  obtain ⟨addr', byte', -, -, data', byte_eq'⟩ :=
    told 52 (by decide +kernel) 36 (Nat.zero_le 36) (by decide +kernel)
  refine ⟨first, ?_, ?_⟩
  · rw [data, byte_eq]
    split <;> rfl
  · rw [data', byte_eq']
    split <;> rfl

end ServeRun

end MsxPulse.Firmware
