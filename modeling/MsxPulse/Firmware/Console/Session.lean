import MsxPulse.Firmware.Console

/-!
# A session on the console

Everything the host types is executed, line by line and in order, and everything the
commands answer comes back, in order. The command ring holds seven lines and each turn
takes out one, so the host must not run further ahead than that; and what `tud_cdc_write`
does not take of a line is lost, so it must read fast enough for the CDC buffer to have room.
-/

namespace MsxPulse.Firmware

open Library UsbSerial

/-- A command and the lines that it writes. -/
def ConsoleEffect.execution : ConsoleEffect → List (List U8 × List (List U8))
  | .executed line answer => [(line, answer)]
  | _ => []

def ConsoleEffect.bytes : ConsoleEffect → List U8
  | .sent bytes => bytes
  | _ => []

namespace Console

def executions (effects : List ConsoleEffect) : List (List U8 × List (List U8)) :=
  effects.flatMap ConsoleEffect.execution

/-- What the host receives. -/
def hostBytes (effects : List ConsoleEffect) : List U8 := effects.flatMap ConsoleEffect.bytes

/-- What the host types. -/
def typed (turns : List ConsoleTurn) : List U8 := turns.flatMap (·.received)

/-- How the host uses the console: it stays connected, types no zero bytes and no UPDATE,
and in no stretch of turns completes more than six lines above one a turn. -/
structure Session (turns : List ConsoleTurn) : Prop where
  connected : ∀ t ∈ turns, t.connected = true
  nonzero : ∀ t ∈ turns, ∀ b ∈ t.received, b ≠ 0
  paced : ∀ first middle rest, turns = first ++ middle ++ rest → middle ≠ [] →
    (lines (typed (first ++ middle))).length ≤ (lines (typed first)).length + 6 + middle.length
  stays : ∀ line ∈ lines (typed turns), (parseCmd (some line)).type ≠ .update

/-- What the ring takes of the answers. -/
def replies (effects : List ConsoleEffect) : List (List U8) :=
  (executions effects).flatMap fun e => (e.2.take 31).map cut

theorem executions_append (first second : List ConsoleEffect) :
    executions (first ++ second) = executions first ++ executions second := List.flatMap_append

theorem hostBytes_append (first second : List ConsoleEffect) :
    hostBytes (first ++ second) = hostBytes first ++ hostBytes second := List.flatMap_append

theorem replies_append (first second : List ConsoleEffect) :
    replies (first ++ second) = replies first ++ replies second := by
  unfold replies
  rw [executions_append, List.flatMap_append]

theorem typed_append (first second : List ConsoleTurn) :
    typed (first ++ second) = typed first ++ typed second := List.flatMap_append

theorem typed_singleton (t : ConsoleTurn) : typed [t] = t.received := List.append_nil _

/-! ## Between the turns -/

/-- After the turns so far: what was typed has been executed or stands in the ring, and
what was answered has been sent or stands in the ring. -/
structure Open (past : List ConsoleEffect) (turns : List ConsoleTurn) (c : Console) : Prop where
  running : c.halted = false
  input : c.input.Ok (unfinished (typed turns))
  out : c.out.Ok
  executed : (executions past).map Prod.fst ++ c.input.queued = lines (typed turns)
  answered : ∀ e ∈ executions past, ∃ t ∈ turns, e.2 = reply t e.1
  told : hostBytes past ++ c.out.queued.flatten =
    (if c.wasConnected then versionBanner else []) ++ (replies past).flatten
  met : c.wasConnected = false → turns = [] ∧ past = []
  /-- Since the ring was empty, each turn has taken out one line. -/
  backlog : ∃ first middle, turns = first ++ middle ∧
    c.input.queued.length + middle.length + (lines (typed first)).length =
      (lines (typed turns)).length

theorem Fresh.opened {c : Console} (fresh : c.Fresh) : Open [] [] c where
  running := fresh.running
  input := fresh.input.ok
  out := fresh.out.ok
  executed := fresh.input.queued
  answered _ inside := absurd inside List.not_mem_nil
  told := by
    rw [fresh.alone, fresh.out.queued]
    rfl
  met _ := ⟨rfl, rfl⟩
  backlog := ⟨[], [], rfl, by rw [fresh.input.queued]; rfl⟩

section Step

variable {past : List ConsoleEffect} {turns : List ConsoleTurn} {c : Console} {t : ConsoleTurn}

/-- The lines that a turn completes. -/
theorem lines_typed_snoc (turns : List ConsoleTurn) (t : ConsoleTurn) :
    lines (typed (turns ++ [t])) =
      lines (typed turns) ++ lines (unfinished (typed turns) ++ t.received) := by
  rw [typed_append, typed_singleton, lines_append]

theorem unfinished_typed_snoc (turns : List ConsoleTurn) (t : ConsoleTurn) :
    unfinished (typed (turns ++ [t])) = unfinished (unfinished (typed turns) ++ t.received) := by
  rw [typed_append, typed_singleton, unfinished_append]

/-- The host's pace leaves room for the lines of the next turn. -/
theorem Open.room (h : Open past turns c) {rest : List ConsoleTurn}
    (session : Session (turns ++ t :: rest)) :
    c.input.queued.length + (lines (unfinished (typed turns) ++ t.received)).length ≤ 7 := by
  obtain ⟨first, middle, rfl, behind⟩ := h.backlog
  have whole : first ++ middle ++ t :: rest = first ++ (middle ++ [t]) ++ rest := by simp
  have pace := session.paced first (middle ++ [t]) rest whole (by simp)
  rw [← List.append_assoc, lines_typed_snoc, List.length_append, List.length_append,
    List.length_singleton] at pace
  omega

theorem due_append_tail (queue : List (List U8)) : queue.head?.toList ++ queue.tail = queue := by
  cases queue <;> rfl

section Turn

variable {c' : Console} {run : List U8} {effects : List ConsoleEffect}

theorem executions_sent (bytes : List U8) (effects : List ConsoleEffect) :
    executions (.sent bytes :: effects) = executions effects := rfl

theorem executions_map (f : List U8 → List (List U8)) (ls : List (List U8)) :
    executions (ls.map fun line => .executed line (f line)) = ls.map fun line => (line, f line) := by
  rw [executions, List.flatMap_map]
  exact List.flatMap_pure_eq_map _ _

theorem hostBytes_map (f : List U8 → List (List U8)) (ls : List (List U8)) :
    hostBytes (ls.map fun line => .executed line (f line)) = [] := by
  rw [hostBytes, List.flatMap_map]
  exact List.flatMap_eq_nil_iff.mpr fun _ _ => rfl

theorem Turned.executions (h : Turned c c' run t effects) :
    Console.executions effects =
      (c.input.queued ++ lines (run ++ t.received)).head?.toList.map fun line =>
        (line, reply t line) := by
  rw [h.effects, executions_append, executions_sent, executions_map]
  cases c.wasConnected <;> rfl

theorem Turned.hostBytes (h : Turned c c' run t effects) :
    Console.hostBytes effects =
      (if c.wasConnected then [] else versionBanner) ++ c.out.queued.flatten := by
  have sent (bytes : List U8) (effects : List ConsoleEffect) :
      Console.hostBytes (.sent bytes :: effects) = bytes ++ Console.hostBytes effects := rfl
  rw [h.effects, hostBytes_append, sent, hostBytes_map, List.append_nil]
  cases c.wasConnected with
  | true => rfl
  | false => exact congrArg (· ++ _) (List.append_nil _)

theorem Turned.replies (h : Turned c c' run t effects) :
    Console.replies effects = c'.out.queued := by
  rw [Console.replies, h.executions, List.flatMap_map, h.written]
  rfl

end Turn

/-- A line typed so far is typed in the session. -/
theorem lines_typed_start (first rest : List ConsoleTurn) :
    lines (typed first) <+: lines (typed (first ++ rest)) := by
  rw [typed_append, lines_append]
  exact List.prefix_append _ _

theorem Session.start {rest : List ConsoleTurn} (h : Session (turns ++ rest)) : Session turns where
  connected t inside := h.connected t (List.mem_append_left rest inside)
  nonzero t inside := h.nonzero t (List.mem_append_left rest inside)
  paced first middle later split :=
    h.paced first middle (later ++ rest) (by rw [split, List.append_assoc])
  stays line member := h.stays line ((lines_typed_start turns rest).subset member)

theorem Open.turn (h : Open past turns c) {rest : List ConsoleTurn}
    (session : Session (turns ++ t :: rest)) (takes : c.TakesAll t) :
    Open (past ++ (machine.step c t).2) (turns ++ [t]) (machine.step c t).1 := by
  have here : t ∈ turns ++ t :: rest := List.mem_append_right _ List.mem_cons_self
  have done := turned h.input h.out h.running (session.connected t here) takes
    (session.nonzero t here) (h.room session)
  have step : machine.step c t = c.turn t := if_neg (by rw [h.running]; exact Bool.false_ne_true)
  have order : (executions past).map Prod.fst ++
      (c.input.queued ++ lines (unfinished (typed turns) ++ t.received)) =
        lines (typed (turns ++ [t])) := by
    rw [← List.append_assoc, h.executed, lines_typed_snoc]
  rw [step]
  refine ⟨done.halted fun line member => ?_, ?_, done.out, ?_, ?_, ?_, ?_, ?_⟩
  · have later := lines_typed_start (turns ++ [t]) rest
    rw [← order, List.append_assoc, List.singleton_append] at later
    exact session.stays line (later.subset (List.mem_append_right _ member))
  · rw [unfinished_typed_snoc]
    exact done.input
  · rw [executions_append, List.map_append, done.executions, List.map_map, List.append_assoc,
      done.queue, ← order]
    have names : (Prod.fst ∘ fun line => (line, reply t line)) = id := rfl
    rw [names, List.map_id, due_append_tail]
  · intro e member
    rw [executions_append, done.executions] at member
    rcases List.mem_append.mp member with old | new
    · obtain ⟨t', inside, answer⟩ := h.answered e old
      exact ⟨t', List.mem_append_left _ inside, answer⟩
    · obtain ⟨line, -, rfl⟩ := List.mem_map.mp new
      exact ⟨t, List.mem_append_right _ List.mem_cons_self, rfl⟩
  · have told := h.told
    rw [hostBytes_append, replies_append, done.hostBytes, done.replies, done.wasConnected,
      List.flatten_append]
    cases greeted : c.wasConnected with
    | true =>
      rw [greeted] at told
      simp only [if_true, List.nil_append] at told ⊢
      rw [told, List.append_assoc]
    | false =>
      rw [greeted, (h.met greeted).2] at told
      rw [(h.met greeted).2]
      have nothing : c.out.queued.flatten = [] := told
      rw [nothing]
      rfl
  · intro alone
    rw [done.wasConnected] at alone
    cases alone
  · obtain ⟨first, middle, split, behind⟩ := h.backlog
    rw [done.queue, lines_typed_snoc]
    by_cases idle : c.input.queued ++ lines (unfinished (typed turns) ++ t.received) = []
    · obtain ⟨-, none⟩ := List.append_eq_nil_iff.mp idle
      refine ⟨turns ++ [t], [], (List.append_nil _).symm, ?_⟩
      rw [idle, lines_typed_snoc, none]
      exact Nat.zero_add _
    · have some := List.length_pos_iff.mpr idle
      refine ⟨first, middle ++ [t], by rw [split, List.append_assoc], ?_⟩
      rw [List.length_tail, List.length_append, List.length_append, List.length_singleton]
      rw [List.length_append] at some ⊢
      omega

theorem Open.run (h : Open past turns c) {rest : List ConsoleTurn}
    (session : Session (turns ++ rest)) (takes : machine.Along TakesAll c rest) :
    Open (past ++ machine.trace c rest) (turns ++ rest) (machine.final c rest) := by
  induction rest generalizing past turns c with
  | nil =>
    rw [Machine.trace_nil, List.append_nil, List.append_nil]
    exact h
  | cons t rest ih =>
    have next : turns ++ t :: rest = turns ++ [t] ++ rest := by simp
    rw [Machine.trace_cons, ← List.append_assoc, Machine.final_cons, next]
    exact ih (h.turn session takes.1) (next ▸ session) takes.2

/-! ## When the host falls silent -/

/-- A turn in which nothing is typed. -/
theorem Open.quiet_turn (h : Open past turns c) {rest : List ConsoleTurn}
    (session : Session (turns ++ t :: rest)) (takes : c.TakesAll t) (silent : t.received = []) :
    (machine.step c t).1.input.queued = c.input.queued.tail ∧
      (c.input.queued = [] → (machine.step c t).1.out.queued = []) := by
  have here : t ∈ turns ++ t :: rest := List.mem_append_right _ List.mem_cons_self
  have done := turned h.input h.out h.running (session.connected t here) takes
    (session.nonzero t here) (h.room session)
  have step : machine.step c t = c.turn t := if_neg (by rw [h.running]; exact Bool.false_ne_true)
  have none : lines (unfinished (typed turns) ++ t.received) = [] := by
    rw [silent, List.append_nil]
    exact h.input.plain.lines
  rw [step]
  refine ⟨by rw [done.queue, none, List.append_nil], fun empty => ?_⟩
  rw [done.written, none, empty]
  rfl

theorem Open.quiet_run (h : Open past turns c) {quiet rest : List ConsoleTurn}
    (session : Session (turns ++ (quiet ++ rest))) (takes : machine.Along TakesAll c quiet)
    (silent : ∀ t ∈ quiet, t.received = []) :
    (machine.final c quiet).input.queued.length = c.input.queued.length - quiet.length := by
  induction quiet generalizing past turns c with
  | nil => rfl
  | cons t quiet ih =>
    have next : turns ++ (t :: quiet ++ rest) = turns ++ [t] ++ (quiet ++ rest) := by simp
    have first := (h.quiet_turn session takes.1 (silent t List.mem_cons_self)).1
    have later := ih (h.turn session takes.1) (next ▸ session) takes.2 fun t' inside =>
      silent t' (List.mem_cons_of_mem t inside)
    rw [Machine.final_cons, later, first, List.length_tail, List.length_cons, Nat.sub_sub,
      Nat.add_comm 1]

/-- Seven commands and the last answer. -/
theorem Open.quiet (h : Open past turns c) {quiet : List ConsoleTurn}
    (session : Session (turns ++ quiet)) (takes : machine.Along TakesAll c quiet)
    (silent : ∀ t ∈ quiet, t.received = []) (eight : 8 ≤ quiet.length) :
    (machine.final c quiet).input.queued = [] ∧ (machine.final c quiet).out.queued = [] := by
  obtain ⟨start, last, rfl⟩ : ∃ start last, quiet = start ++ [last] :=
    ⟨_, _, (List.dropLast_append_getLast (List.length_pos_iff.mp (by omega))).symm⟩
  rw [List.length_append, List.length_singleton] at eight
  obtain ⟨takes, takesLast, -⟩ := (machine.along_append TakesAll c start [last]).mp takes
  have before := h.quiet_run session takes fun t inside => silent t (List.mem_append_left _ inside)
  rw [Nat.sub_eq_zero_of_le (Nat.le_trans h.input.length_le (Nat.le_of_succ_le_succ eight))] at before
  have empty := List.length_eq_zero_iff.mp before
  have regroup : turns ++ (start ++ [last]) = turns ++ start ++ [last] := by simp
  rw [regroup] at session
  have opened := h.run session.start takes
  obtain ⟨queue, out⟩ :=
    opened.quiet_turn session takesLast (silent last (List.mem_append_right _ List.mem_cons_self))
  rw [Machine.final_append]
  exact ⟨by rw [Machine.final_cons, Machine.final_nil, queue, empty]; rfl, out empty⟩

end Step

/-- What arrives of the answers, line by line, less the CRLFs. -/
def arrived (effects : List ConsoleEffect) : List (List U8) :=
  (executions effects).flatMap fun e => (e.2.take 31).map CmdDispatch.chomp

/-- The greeting, less its CRLF. -/
def greeting : List U8 := CString.ascii "MSXDOC v0.1 -- type HELP for commands"

theorem typed_quiet (turns : List ConsoleTurn) {quiet : List ConsoleTurn}
    (silent : ∀ t ∈ quiet, t.received = []) : typed (turns ++ quiet) = typed turns := by
  have nothing : typed quiet = [] := List.flatMap_eq_nil_iff.mpr silent
  rw [typed_append, nothing, List.append_nil]

/-- Replies whose lines all fit are the stream of these lines. -/
theorem replies_wire {es : List (List U8 × List (List U8))}
    (formed : ∀ e ∈ es, ∃ contents : List (List U8), e.2 = contents.map terminated ∧
      ∀ content ∈ contents, CmdDispatch.Fits content) :
    ∃ contents : List (List U8), (∀ content ∈ contents, CmdDispatch.Fits content) ∧
      (es.flatMap fun e => (e.2.take 31).map cut) = (contents.map terminated).map cut ∧
      (es.flatMap fun e => (e.2.take 31).map CmdDispatch.chomp) = contents := by
  induction es with
  | nil => exact ⟨[], fun _ inside => absurd inside List.not_mem_nil, rfl, rfl⟩
  | cons e es ih =>
    obtain ⟨contents, answer, fits⟩ := formed e List.mem_cons_self
    obtain ⟨later, laterFits, wire, split⟩ := ih fun e' inside =>
      formed e' (List.mem_cons_of_mem e inside)
    have chomped : (contents.take 31).map (CmdDispatch.chomp ∘ terminated) = contents.take 31 := by
      have each : CmdDispatch.chomp ∘ terminated = id := funext CmdDispatch.chomp_crlf
      rw [each, List.map_id]
    refine ⟨contents.take 31 ++ later, List.forall_mem_append.mpr
      ⟨fun content inside => fits content (List.mem_of_mem_take inside), laterFits⟩, ?_, ?_⟩
    · rw [List.flatMap_cons, wire, answer, ← List.map_take, List.map_append, List.map_append]
    · rw [List.flatMap_cons, split, answer, ← List.map_take, List.map_map, chomped]

/-- If the CDC buffer takes every byte that it is given, a host that keeps the pace, types no
HELP and then waits for eight turns has had every line executed, in order, and has received the
greeting and then, in the same order, every line of every answer up to the thirty-first. -/
theorem session_answered {c : Console} (fresh : c.Fresh) {turns quiet : List ConsoleTurn}
    (session : Session (turns ++ quiet)) (takes : machine.Along TakesAll c (turns ++ quiet))
    (silent : ∀ t ∈ quiet, t.received = []) (eight : 8 ≤ quiet.length) (sane : ∀ t ∈ turns ++ quiet, CmdDispatch.Sane t.readings)
    (other : ∀ line ∈ lines (typed turns), (parseCmd (some line)).type ≠ .help) :
    let effects := machine.trace c (turns ++ quiet)
    (executions effects).map Prod.fst = lines (typed turns) ∧
      (∀ e ∈ executions effects, ∃ t ∈ turns ++ quiet,
        e.2 = CmdDispatch.answer t.readings (parseCmd (some e.1))) ∧
      splitCrlf (hostBytes effects) = greeting :: arrived effects ++ [[]] := by
  intro effects
  have opened : Open effects (turns ++ quiet) (machine.final c (turns ++ quiet)) :=
    fresh.opened.run session takes
  obtain ⟨takesTurns, takesQuiet⟩ := (machine.along_append TakesAll c turns quiet).mp takes
  obtain ⟨done, empty⟩ :=
    (fresh.opened.run session.start takesTurns).quiet session takesQuiet silent eight
  rw [← Machine.final_append] at done empty
  have order : (executions effects).map Prod.fst = lines (typed turns) := by
    rw [← typed_quiet turns silent, ← opened.executed, done, List.append_nil]
  refine ⟨order, opened.answered, ?_⟩
  have formed : ∀ e ∈ executions effects, ∃ contents : List (List U8),
      e.2 = contents.map terminated ∧ ∀ content ∈ contents, CmdDispatch.Fits content := by
    intro e member
    obtain ⟨t, inside, answer⟩ := opened.answered e member
    rw [answer]
    exact (sane t inside).answer_fits (other e.1 (order ▸ List.mem_map_of_mem member))
  obtain ⟨contents, fits, stream, split⟩ := replies_wire formed
  have met : (machine.final c (turns ++ quiet)).wasConnected = true := by
    rw [← Bool.not_eq_false]
    intro alone
    have none := congrArg List.length (opened.met alone).1
    rw [List.length_append, List.length_nil] at none
    omega
  have told : hostBytes effects = terminated greeting ++ wire contents := by
    have told := opened.told
    rw [empty, met, if_pos rfl, replies, stream] at told
    exact (List.append_nil _).symm.trans told
  have greets : CmdDispatch.Fits greeting := CString.sized_literal rfl (by decide)
  rw [told, greets.handlerLine.splitCrlf_fits, splitCrlf_wire
    (fun content inside => (fits content inside).handlerLine)
    fun content inside => (fits content inside).length_terminated]
  exact congrArg (fun ls => greeting :: (ls ++ [[]])) split.symm

/-- Before anything has happened: the rails are good, nothing is captured. -/
def idleReadings : Readings where
  seenHigh := 0#32
  seenLow := 0#32
  resetIn _ := true
  resetCap _ := 0#16
  captured := 0#16
  alogRaw _ := 0#32
  alog := .initial
  regs := ⟨0#32, 0#32, 0#32, 0#32, 0#32, 0#32, 0#32, 0#32, 0#32⟩
  v5 := ⟨fun _ _ => CString.ascii "5.01"⟩
  v12 := ⟨fun _ _ => CString.ascii "12.1"⟩
  vm12 := ⟨fun _ _ => CString.ascii "-11.9"⟩
  rails := ⟨0#8, 0#8, 0#8⟩
  probe := BusProbe.unpublished
  sram := ⟨List.replicate CartServe.romSramSize 0xFF#8, List.length_replicate⟩
  line := ⟨List.replicate usbOutLineLen 0#8, List.length_replicate⟩
  diag := .initial
  boot := CmdDispatch.usedStack

theorem idleReadings_sane : CmdDispatch.Sane idleReadings where
  v5 _ _ _ _ := CString.sized_literal rfl (by decide)
  v12 _ _ _ _ := CString.sized_literal rfl (by decide)
  vm12 _ _ _ _ := CString.sized_literal rfl (by decide)
  channel := by decide
  offset := by decide

/-- A FIFO of 256 bytes that is empty when a turn begins, with `n` lines of 79 bytes in it. -/
def fifoRoom (n length : Nat) : Nat := min length (256 - 79 * n)

def turnTyping (received : List U8) : ConsoleTurn :=
  ⟨true, fifoRoom, received, zeroLine, idleReadings⟩

def zeroed : Console := ⟨.initial, .initial, false, false⟩

/-- Two commands, the second one in two packets, and eight turns in silence. -/
def twoCommands : List ConsoleTurn :=
  [turnTyping (CString.ascii "rails\r\nsta"), turnTyping (CString.ascii "tus\r\n")]

def silence : List ConsoleTurn := List.replicate 8 (turnTyping [])

theorem lines_twoCommands :
    lines (typed (twoCommands ++ silence)) = [CString.ascii "rails", CString.ascii "status"] := by
  decide

theorem twoCommands_session : Session (twoCommands ++ silence) where
  connected := by simp [twoCommands, silence, turnTyping]
  nonzero := by decide
  paced first middle rest split nonempty := by
    have few := (lines_typed_start (first ++ middle) rest).length_le
    rw [← split, lines_twoCommands] at few
    exact Nat.le_trans few (by simp only [List.length_cons, List.length_nil]; omega)
  stays := by
    rw [lines_twoCommands]
    decide

theorem session_answered_twoCommands :
    let effects := machine.trace zeroed (twoCommands ++ silence)
    (executions effects).map Prod.fst = [CString.ascii "rails", CString.ascii "status"] ∧
      (∀ e ∈ executions effects, ∃ t ∈ twoCommands ++ silence,
        e.2 = CmdDispatch.answer t.readings (parseCmd (some e.1))) ∧
      splitCrlf (hostBytes effects) = greeting :: arrived effects ++ [[]] := by
  have commands : lines (typed twoCommands) = [CString.ascii "rails", CString.ascii "status"] := by
    decide
  rw [← commands]
  refine session_answered ⟨CmdInput.initial_fresh, Output.initial_fresh, rfl, rfl⟩
    twoCommands_session (by decide +kernel) (fun t inside => ?_) (Nat.le_refl 8)
    (fun t inside => ?_) ?_
  · rw [List.eq_of_mem_replicate inside]
    rfl
  · simp only [twoCommands, silence, List.mem_append, List.mem_cons, List.mem_replicate,
      List.not_mem_nil, or_false] at inside
    rcases inside with (rfl | rfl) | ⟨-, rfl⟩ <;> exact idleReadings_sane
  · rw [commands]
    decide

end Console

end MsxPulse.Firmware
