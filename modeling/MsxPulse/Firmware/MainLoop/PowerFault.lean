import MsxPulse.Firmware.MainLoop.Results
import Mathlib.Data.List.DropRight
import Mathlib.Data.List.Chain

/-!
# The power-fault page (main.c)

The page follows the last four polls of the rails, half a second apart, and nothing else
that the loop does.
-/

namespace MsxPulse.Firmware.MainLoop

open Library

/-- The polls since the last one that found no fault. -/
def recentFaults (polls : List RailPoll) : Nat := (polls.rtakeWhile RailPoll.failing).length

/-- When the rails were polled last, or else the boot. -/
def lastPoll (polls : List RailPoll) : Nat := (polls.getLast?.map RailPoll.timeMs).getD 0

/-- Half a second apart, as far as the iterations allow. -/
def Spaced (gap : Nat) (first second : RailPoll) : Prop :=
  first.timeMs + 500 ≤ second.timeMs ∧ second.timeMs < first.timeMs + 500 + gap

variable {polls : List RailPoll} {poll : RailPoll} {s : MainLoop} {i : MainInput}
  {gap booted : Nat}

theorem recentFaults_concat (polls : List RailPoll) (poll : RailPoll) :
    recentFaults (polls ++ [poll]) = if poll.failing then recentFaults polls + 1 else 0 := by
  unfold recentFaults
  rw [List.rtakeWhile_concat]
  split
  · exact List.length_append
  · rfl

theorem lastPoll_concat (polls : List RailPoll) (poll : RailPoll) :
    lastPoll (polls ++ [poll]) = poll.timeMs := by
  unfold lastPoll
  rw [List.getLast?_concat]
  rfl

/-- The counter counts to four. -/
theorem counted_toNat (r : RailStatus) (count : s.faultCount.toNat = min 4 (recentFaults polls))
    (failing : poll.failing = r.failing) :
    (s.counted r).toNat = min 4 (recentFaults (polls ++ [poll])) := by
  rw [recentFaults_concat, failing]
  unfold counted faultDebounce
  cases r.failing with
  | false => rfl
  | true =>
    rw [if_pos rfl, if_pos rfl]
    split
    · next below =>
      have small : s.faultCount.toNat < 4 := BitVec.lt_def.mp below
      rw [BitVec.toNat_add, Nat.mod_eq_of_lt (by simp; omega)]
      simp only [BitVec.toNat_ofNat]
      omega
    · next reached =>
      have large : 4 ≤ s.faultCount.toNat := BitVec.le_def.mp (BitVec.not_lt.mp reached)
      omega

/-- A poll reads the rails of its iteration. -/
theorem step_polls (polls : poll ∈ (machine.step s i).2) : poll = ⟨i.timeMs, i.rails.failing⟩ := by
  simp only [machine] at polls
  split at polls
  · exact absurd polls List.not_mem_nil
  · by_cases due : s.railsDue i
    · rw [if_pos due] at polls
      exact List.mem_singleton.mp polls
    · rw [if_neg due] at polls
      exact absurd polls List.not_mem_nil

/-- What a loop that was entered at `booted` knows of the polls that were made. -/
structure Polled (gap booted : Nat) (polls : List RailPoll) (s : MainLoop) : Prop where
  display : s.displayState = .monitoring
  running : s.halted = false
  count : s.faultCount.toNat = min 4 (recentFaults polls)
  flag : s.menu.ui.powerFault = true ↔ 4 ≤ recentFaults polls
  spaced : polls.IsChain (Spaced gap)
  since : Since s.lastRailUpdateMs (lastPoll polls) s.now
  soon : polls ≠ [] → s.now < lastPoll polls + 500
  early : polls = [] → s.now = booted ∨ s.now < 500

theorem polled_initial (oledPresent : Bool) {now : Nat} (booted : now < 2 ^ 31) :
    Polled gap now [] (initial oledPresent now) where
  display := rfl
  running := rfl
  count := rfl
  flag := by simp [initial, Ui.Loop.initial, Ui.initial, recentFaults]
  spaced := .nil
  since := ⟨rfl, Nat.zero_le now, by rwa [lastPoll, List.getLast?_nil, Option.map_none,
    Option.getD_none, Nat.zero_add]⟩
  soon := fun some => absurd rfl some
  early := fun _ => .inl rfl

theorem Polled.faulted_iff (polled : s.Polled gap booted polls) (r : RailStatus)
    (failing : poll.failing = r.failing) :
    s.faulted r = true ↔ 4 ≤ recentFaults (polls ++ [poll]) := by
  have counted := counted_toNat r polled.count failing
  have reached : s.counted r ≥ faultDebounce ↔ 4 ≤ recentFaults (polls ++ [poll]) := by
    rw [ge_iff_le, BitVec.le_def, counted]
    show 4 ≤ min 4 _ ↔ _
    omega
  unfold faulted
  rw [Bool.and_eq_true, Bool.or_eq_true, decide_eq_true_iff, reached, polled.flag,
    recentFaults_concat, failing]
  cases r.failing with
  | false => simp
  | true => simp; omega

/-- An iteration knows the polls of the iterations before, and its own. -/
theorem Polled.step (polled : s.Polled gap booted polls) (slow : gap < 2 ^ 31) (paced : s.Paced gap i)
    (noUpdate : i.isUpdate = false) :
    (machine.step s i).1.Polled gap booted (polls ++ (machine.step s i).2) := by
  obtain ⟨forward, late⟩ := paced
  have next : machine.step s i =
      (s.body i, if s.railsDue i then [⟨i.timeMs, i.rails.failing⟩] else []) := by
    simp [machine, polled.running]
  have due_iff : s.railsDue i ↔ lastPoll polls + 500 ≤ i.timeMs :=
    polled.since.due_iff forward (by omega) (by decide)
  rw [next, body_eq s i polled.display polled.running, noUpdate]
  by_cases due : s.railsDue i
  · have reached := due_iff.mp due
    simp only [if_pos due]
    refine ⟨rfl, rfl, counted_toNat i.rails polled.count rfl, polled.faulted_iff i.rails rfl,
      ?_, ?_, ?_, fun none => absurd none (List.append_ne_nil_of_right_ne_nil _ (by simp))⟩
    · refine polled.spaced.append (.singleton _) ?_
      intro before last second own
      obtain rfl : ⟨i.timeMs, i.rails.failing⟩ = second := Option.some.inj own
      have last' : lastPoll polls = before.timeMs := by
        rw [lastPoll, Option.mem_def.mp last]
        rfl
      have some : polls ≠ [] := by
        rintro rfl
        exact absurd last (Option.not_mem_none before)
      have soon := polled.soon some
      rw [last'] at reached soon
      exact ⟨reached, Nat.lt_of_le_of_lt late (Nat.add_lt_add_right soon gap)⟩
    · rw [lastPoll_concat]
      exact since_now i.timeMs
    · intro _
      rw [lastPoll_concat]
      exact Nat.lt_add_of_pos_right (by decide)
  · have early := Nat.lt_of_not_le (mt due_iff.mpr due)
    simp only [if_neg due, List.append_nil]
    refine ⟨rfl, rfl, polled.count, polled.flag, polled.spaced,
      polled.since.keep forward early (by decide), fun _ => early, fun none => .inr ?_⟩
    show i.timeMs < 500
    rwa [none] at early

/-- With an OLED or without, the fault flag is set exactly when the last four polls of the rails
found a fault. The polls are half a second apart, from the first half second to the end. -/
theorem powerFault_iff {oledPresent : Bool} {now : Nat} {run : List MainInput}
    (slow : gap < 2 ^ 31) (booted : now < 2 ^ 31)
    (paced : machine.Along (fun s i => s.Paced gap i ∧ i.isUpdate = false)
      (initial oledPresent now) run) :
    ((machine.final (initial oledPresent now) run).menu.ui.powerFault = true ↔
      4 ≤ recentFaults (machine.trace (initial oledPresent now) run)) ∧
    (∀ poll ∈ machine.trace (initial oledPresent now) run,
      ∃ i ∈ run, poll = ⟨i.timeMs, i.rails.failing⟩) ∧
    (machine.trace (initial oledPresent now) run).IsChain (Spaced gap) ∧
    (now + 500 ≤ (machine.final (initial oledPresent now) run).now →
      ∃ last, (machine.trace (initial oledPresent now) run).getLast? = some last ∧
        (machine.final (initial oledPresent now) run).now < last.timeMs + 500) := by
  have polled : (machine.final (initial oledPresent now) run).Polled gap now
      ([] ++ machine.trace (initial oledPresent now) run) :=
    machine.history_invariant _ (fun polls s => s.Polled gap now polls)
      (fun _ _ _ polled allowed => polled.step slow allowed.1 allowed.2)
      (polled_initial oledPresent booted) paced
  rw [List.nil_append] at polled
  refine ⟨polled.flag, fun poll emitted => ?_, polled.spaced, fun passed => ?_⟩
  · obtain ⟨first, i, rest, rfl, here⟩ := machine.mem_trace emitted
    exact ⟨i, List.mem_append_right _ List.mem_cons_self, step_polls here⟩
  · have some : machine.trace (initial oledPresent now) run ≠ [] := by
      intro none
      have early := polled.early none
      omega
    have last := List.getLast?_eq_some_getLast some
    refine ⟨_, last, ?_⟩
    have soon := polled.soon some
    rwa [lastPoll, last] at soon

/-- Four polls of a rail at -12 V that fails, and one that has come back. -/
def brownOut : List MainInput :=
  [520, 1030, 1540, 2050, 2560].map fun t =>
    { complete t .none with rails := ⟨0#8, 0#8, if t = 2560 then 0#8 else 2#8⟩ }

theorem powerFault_iff_brownOut :
    ((machine.final (initial false 10) brownOut).menu.ui.powerFault = true ↔
      4 ≤ recentFaults (machine.trace (initial false 10) brownOut)) ∧
    (∀ poll ∈ machine.trace (initial false 10) brownOut,
      ∃ i ∈ brownOut, poll = ⟨i.timeMs, i.rails.failing⟩) ∧
    (machine.trace (initial false 10) brownOut).IsChain (Spaced 510) ∧
    ∃ last, (machine.trace (initial false 10) brownOut).getLast? = some last ∧
      (machine.final (initial false 10) brownOut).now < last.timeMs + 500 :=
  have settled := @powerFault_iff 510 false 10 brownOut (by decide) (by decide) (by decide +kernel)
  ⟨settled.1, settled.2.1, settled.2.2.1, settled.2.2.2 (by decide +kernel)⟩

end MsxPulse.Firmware.MainLoop
