import AcornAlarms.Effects.Workers
import AcornAlarms.Properties.Delivery

/-!
# When the effect workers exit

Both loops end with `else => break`, which runs once every branch is disabled. The flush
interval of the publish engine has no precondition and its pattern matches every tick, so the
engine never gets there. The scheduler gets there when no timer is left, and until then waits
for the timers it holds.
-/

namespace AcornAlarms

open Library

section

variable [Platform]

namespace PublishWorker

variable {turns : List (Select.Turn Action Branch)} {events : List PublishLoop.Event}
  {iteration : Select.Iteration PublishWorker Branch}

/-- Some way to go on leaves the loop. -/
def CanExit (iteration : Select.Iteration PublishWorker Branch) : Prop :=
  ∃ turns events final, select.machine.Run Machine.Every iteration turns events final ∧
    final.exited = true

/-- The flush interval keeps the loop going. -/
theorem not_canExit
    (run : select.machine.Run Machine.Every (select.enter new) turns events iteration) :
    ¬ CanExit iteration := by
  rintro ⟨more, later, final, continued, exited⟩
  have whole := run.append (fun _ _ _ _ admitted => admitted) continued
  have ticks : Branch.flushInterval ∈ select.branches := by simp [select]
  obtain ⟨running, _⟩ :=
    Select.never_exits ticks (fun _ => rfl) (fun _ => rfl) (fun _ => rfl) whole
  rw [exited] at running
  cases running

/-- The loop loses no result. -/
theorem conserved
    (run : select.machine.Run Machine.Every (select.enter new) turns events iteration) :
    PublishLoop.Conserved events iteration.state.loop := by
  obtain ⟨actions, taken⟩ := Select.body_run run
  obtain ⟨turns, engine⟩ := loop_run taken
  exact engine.history PublishLoop.Conserved .start
    fun conserved _ fires => conserved.step (PublishLoop.step_cases fires)

end PublishWorker

namespace SnoozeWorker

/-- Some clock reading is past a deadline. -/
def Elapses (reads : Clock → Prop) (deadline : Nat) : Prop :=
  ∃ clock, reads clock ∧ deadline ≤ clock.instant

/-- A turn the loop takes by itself, with the timers that elapse by certain clock readings. -/
def Own (reads : Clock → Prop) (_ : Select.Iteration SnoozeWorker Branch) :
    Select.Turn Action Branch → Prop
  | .act (.fire clock _) => reads clock
  | .act (.receive _) | .disable _ | .otherwise => True
  | .act (.send _) | .act .dropSender | .act .dropOutcomes => False

/-- The loop is left by itself, with no more time passing than the clock readings say. -/
def Exits (reads : Clock → Prop) (iteration : Select.Iteration SnoozeWorker Branch) : Prop :=
  select.machine.Inevitable (Own reads) (fun final => final.exited = true) iteration

/-- No timer is in the way: all have elapsed, or one has whose outcome nobody receives. -/
def Unhindered (reads : Clock → Prop) (self : SnoozeWorker) : Prop :=
  (∀ {slot key deadline}, self.entries.get? slot = some (key, deadline) →
    Elapses reads deadline) ∨
  (self.loop.outcomesOpen = false ∧ ∃ slot key deadline,
    self.entries.get? slot = some (key, deadline) ∧ Elapses reads deadline)

variable {reads : Clock → Prop} {self next : SnoozeWorker} {clock : Clock} {slot : Nat}
  {out : List SnoozeLoop.Event} {turns : List (Select.Turn Action Branch)}
  {events : List SnoozeLoop.Event} {iteration : Select.Iteration SnoozeWorker Branch}

/-- What a firing timer leaves. -/
structure Fired (before : SnoozeWorker) (clock : Clock) (slot : Nat) (after : SnoozeWorker) :
    Prop where
  elapsed : ∃ key deadline, before.entries.get? slot = some (key, deadline) ∧
    deadline ≤ clock.instant
  entries : after.entries = before.entries.erase slot
  inputGone : after.inputGone = before.inputGone
  outcomesOpen : after.loop.outcomesOpen = before.loop.outcomesOpen
  running : after.loop.running = before.loop.outcomesOpen

theorem fired_of_step (fires : self.step (.fire clock slot) = some (next, out)) :
    Fired self clock slot next := by
  obtain ⟨loop, acts, rfl⟩ := follow_cases fires
  simp only [SnoozeLoop.step, Option.ite_none_right_eq_some, Option.map_eq_some_iff] at acts
  obtain ⟨running, ⟨scheduler, key⟩, expires, same⟩ := acts
  obtain ⟨deadline, queue, found, elapsed, removed, rfl⟩ := SnoozeScheduler.expire_cases expires
  cases same
  exact ⟨⟨key, deadline, found, elapsed⟩, DelayQueue.entries_of_remove removed, rfl, rfl, rfl⟩

/-- A firing timer takes no other away. -/
theorem Fired.found_iff (fired : Fired self clock slot next) {other : Nat} {entry : Key × Nat} :
    next.entries.get? other = some entry ↔
      other ≠ slot ∧ self.entries.get? other = some entry := by
  rw [fired.entries, FiniteMap.get?_erase]
  by_cases same : other = slot <;> simp [same]

/-- A timer that has elapsed fires. -/
theorem fires_of_elapsed (running : self.loop.running = true) {key : Key} {deadline : Nat}
    (found : self.entries.get? slot = some (key, deadline)) (elapsed : deadline ≤ clock.instant) :
    ∃ next out, self.step (.fire clock slot) = some (next, out) := by
  obtain ⟨scheduler, expires⟩ := SnoozeScheduler.expire_of_elapsed found elapsed
  simp only [step, follow, SnoozeLoop.step, running, if_true, expires, Option.map_some]
  exact ⟨_, _, rfl⟩

/-- The delay queue is disabled while it is empty and at no other time. -/
structure Sound (iteration : Select.Iteration SnoozeWorker Branch) : Prop where
  running : iteration.exited = false → iteration.state.loop.running = true
  disabled : .delayQueue ∈ iteration.disabled ↔ iteration.state.entries.keys = []

theorem enter_sound (self : SnoozeWorker) : Sound (select.enter self) where
  running := by simp [Select.enter, select]
  disabled := by simp [Select.enter, select, precondition]

theorem Sound.turned (sound : Sound iteration) {turn : Select.Turn Action Branch}
    {after : Select.Iteration SnoozeWorker Branch}
    (turned : select.Turned iteration turn out after) : Sound after := by
  cases turned with
  | @outside action state _ other acts =>
      have kept : state.entries = iteration.state.entries ∧
          state.loop.running = iteration.state.loop.running := by
        cases action with
        | send input =>
            obtain ⟨_, follows⟩ := Option.ite_none_right_eq_some.mp acts
            obtain ⟨loop, sends, rfl⟩ := follow_cases follows
            simp only [SnoozeLoop.step, Option.ite_none_right_eq_some, Option.some.injEq,
              Prod.mk.injEq] at sends
            obtain ⟨_, rfl, _⟩ := sends
            exact ⟨rfl, rfl⟩
        | dropSender =>
            cases acts
            exact ⟨rfl, rfl⟩
        | dropOutcomes =>
            have follows : iteration.state.follow .dropOutcomes = some (state, out) := acts
            obtain ⟨loop, drops, rfl⟩ := follow_cases follows
            cases drops
            exact ⟨rfl, rfl⟩
        | receive | fire => cases other
      exact ⟨by simpa only [kept.2] using sound.running,
        by simpa only [kept.1] using sound.disabled⟩
  | handled => exact enter_sound _
  | @disabled branch polls unmatched =>
      refine ⟨sound.running, ?_⟩
      cases branch with
      | snoozeInput => simpa using sound.disabled
      | delayQueue => cases unmatched
  | exhausted => exact ⟨by simp, sound.disabled⟩

theorem sound
    (run : select.machine.Run Machine.Every (select.enter new) turns events iteration) :
    Sound iteration :=
  run.invariant Sound (enter_sound new) fun sound _ fires =>
    sound.turned (Select.turned_of_step fires)

/-- A running loop whose input is gone. -/
structure Draining (iteration : Select.Iteration SnoozeWorker Branch) : Prop where
  sound : Sound iteration
  running : iteration.exited = false
  inputGone : iteration.state.inputGone = true

/-- What a draining loop does by itself: a timer fires, or the command branch is disabled, or
nothing is left and `else` runs. -/
inductive Drains (reads : Clock → Prop) (iteration : Select.Iteration SnoozeWorker Branch) :
    Select.Iteration SnoozeWorker Branch → Prop where
  | fires {clock slot state} (read : reads clock) (fired : Fired iteration.state clock slot state) :
      Drains reads iteration (select.enter state)
  | disables (polled : .snoozeInput ∉ iteration.disabled) :
      Drains reads iteration
        { iteration with disabled := .snoozeInput :: iteration.disabled }
  | exhausted (none : iteration.state.entries.keys = []) :
      Drains reads iteration { iteration with exited := true }

/-- Refusing the command branch leaves a loop draining. -/
theorem Draining.disables (draining : Draining iteration) :
    Draining { iteration with disabled := .snoozeInput :: iteration.disabled } where
  sound := ⟨draining.sound.running, by simpa using draining.sound.disabled⟩
  running := draining.running
  inputGone := draining.inputGone

theorem Draining.drains (draining : Draining iteration) {turn : Select.Turn Action Branch}
    {after : Select.Iteration SnoozeWorker Branch} (own : Own reads iteration turn)
    (fires : select.machine.step iteration turn = some (after, out)) :
    Drains reads iteration after := by
  cases Select.turned_of_step fires with
  | @outside action _ _ other _ =>
      cases action with
      | send | dropSender | dropOutcomes => exact own.elim
      | receive | fire => cases other
  | @handled action branch state _ _ polls acts =>
      cases action with
      | fire clock slot => exact .fires own (fired_of_step acts)
      | receive clock =>
          obtain ⟨loop, acts, _⟩ := follow_cases acts
          have empty : iteration.state.loop.commands = [] := by
            have gone := draining.inputGone
            simp only [SnoozeWorker.inputGone, Bool.and_eq_true, List.isEmpty_iff] at gone
            exact gone.2
          simp [SnoozeLoop.step, empty] at acts
      | send | dropSender | dropOutcomes => exact own.elim
  | @disabled branch polls unmatched =>
      cases branch with
      | snoozeInput => exact .disables (Select.polls_iff.mp polls).2.2
      | delayQueue => cases unmatched
  | exhausted _ all =>
      exact .exhausted (draining.sound.disabled.mp (all .delayQueue (by simp [select])))

/-- The turns a draining loop has left at most. -/
def rank (iteration : Select.Iteration SnoozeWorker Branch) : Nat :=
  2 * iteration.state.entries.keys.length +
    if iteration.disabled.contains .snoozeInput then 0 else 1

/-- A firing timer leaves a draining loop draining, or ends it. -/
theorem Draining.enter (draining : Draining iteration)
    (fired : Fired iteration.state clock slot next) :
    (select.enter next).exited = true ∧ iteration.state.loop.outcomesOpen = false ∨
      Draining (select.enter next) ∧ iteration.state.loop.outcomesOpen = true ∧
        rank (select.enter next) < rank iteration := by
  cases opened : iteration.state.loop.outcomesOpen with
  | false => exact .inl ⟨by simp [Select.enter, select, fired.running, opened], rfl⟩
  | true =>
      refine .inr ⟨⟨enter_sound next, ?_, ?_⟩, rfl, ?_⟩
      · simp [Select.enter, select, fired.running, opened]
      · exact fired.inputGone.trans draining.inputGone
      · obtain ⟨key, deadline, found, _⟩ := fired.elapsed
        have shorter : next.entries.keys.length + 1 = iteration.state.entries.keys.length := by
          rw [fired.entries]
          exact FiniteMap.length_keys_erase (by rw [found]; rfl)
        have state : (select.enter next).state = next := rfl
        unfold rank
        rw [state]
        split <;> split <;> omega

/-- An unhindered scheduler that holds a timer holds an elapsed one. -/
theorem Unhindered.elapsed (unhindered : Unhindered reads self) (holds : self.entries.keys ≠ []) :
    ∃ slot key deadline, self.entries.get? slot = some (key, deadline) ∧
      Elapses reads deadline := by
  rcases unhindered with elapse | ⟨_, elapsed⟩
  · obtain ⟨slot, member⟩ := List.exists_mem_of_ne_nil _ holds
    obtain ⟨⟨key, deadline⟩, found⟩ :=
      Option.isSome_iff_exists.mp ((FiniteMap.mem_keys_iff _ slot).mp member)
    exact ⟨slot, key, deadline, found, elapse found⟩
  · exact elapsed

/-- No timer is in the way of a scheduler without timers. -/
theorem unhindered_of_empty (empty : self.entries.keys = []) : Unhindered reads self := by
  refine .inl fun {slot key deadline} entry => ?_
  rw [(FiniteMap.keys_eq_nil_iff _).mp empty slot] at entry
  cases entry

/-- While outcomes are received, a firing timer leaves the others as much in the way. -/
theorem Fired.unhindered_iff (fired : Fired self clock slot next) (read : reads clock)
    (opened : self.loop.outcomesOpen = true) :
    Unhindered reads next ↔ Unhindered reads self := by
  have received : next.loop.outcomesOpen = true := fired.outcomesOpen.trans opened
  simp only [Unhindered, received, opened, Bool.true_eq_false, false_and, or_false]
  constructor
  · intro elapse other named due entry
    by_cases same : other = slot
    · subst same
      obtain ⟨key, deadline, found, elapsed⟩ := fired.elapsed
      obtain ⟨rfl, rfl⟩ := Prod.mk.inj (Option.some.inj (entry.symm.trans found))
      exact ⟨clock, read, elapsed⟩
    · exact elapse (fired.found_iff.mpr ⟨same, entry⟩)
  · intro elapse other key deadline entry
    exact elapse (fired.found_iff.mp entry).2

/-- A draining loop has a turn to take while no timer is in the way. -/
theorem Draining.enabled (draining : Draining iteration)
    (unhindered : Unhindered reads iteration.state) :
    ∃ turn after out, Own reads iteration turn ∧
      select.machine.step iteration turn = some (after, out) := by
  by_cases disabled : .snoozeInput ∈ iteration.disabled
  · by_cases empty : iteration.state.entries.keys = []
    · have all : ∀ branch ∈ select.branches, branch ∈ iteration.disabled := by
        intro branch _
        cases branch with
        | snoozeInput => exact disabled
        | delayQueue => exact draining.sound.disabled.mpr empty
      exact ⟨.otherwise, _, _, trivial, Select.Turned.fires (.exhausted draining.running all)⟩
    · obtain ⟨slot, key, deadline, found, clock, read, elapsed⟩ := unhindered.elapsed empty
      obtain ⟨next, out, fires⟩ :=
        fires_of_elapsed (draining.sound.running draining.running) found elapsed
      have polls : select.polls iteration .delayQueue = true :=
        Select.polls_iff.mpr ⟨draining.running, by simp [select],
          fun disabled => empty (draining.sound.disabled.mp disabled)⟩
      exact ⟨.act (.fire clock slot), _, _, read, Select.Turned.fires (.handled rfl polls fires)⟩
  · have polls : select.polls iteration .snoozeInput = true :=
      Select.polls_iff.mpr ⟨draining.running, by simp [select], disabled⟩
    exact ⟨.disable .snoozeInput, _, _, trivial,
      Select.Turned.fires (.disabled polls draining.inputGone)⟩

/-- A draining loop exits by itself when no timer is in the way. -/
theorem Draining.exits (draining : Draining iteration)
    (unhindered : Unhindered reads iteration.state) : Exits reads iteration := by
  apply Machine.Inevitable.of_rank
    (fun iteration => Draining iteration ∧ Unhindered reads iteration.state) rank
    ⟨draining, unhindered⟩
  · intro iteration ⟨draining, unhindered⟩ _
    exact draining.enabled unhindered
  · intro iteration turn after out ⟨draining, unhindered⟩ own fires
    cases draining.drains own fires with
    | fires read fired =>
        cases draining.enter fired with
        | inl left => exact .inl left.1
        | inr goes =>
            obtain ⟨drains, opened, less⟩ := goes
            exact .inr ⟨⟨drains, (fired.unhindered_iff read opened).mpr unhindered⟩, less⟩
    | disables polled =>
        refine .inr ⟨⟨draining.disables, unhindered⟩, ?_⟩
        simp [rank, polled]
    | exhausted => exact .inl rfl

/-- A timer in the way keeps a draining loop waiting. -/
theorem Draining.waits (draining : Draining iteration)
    (hindered : ¬ Unhindered reads iteration.state) : ¬ Exits reads iteration := by
  apply Machine.not_inevitable
    (fun iteration => Draining iteration ∧ ¬ Unhindered reads iteration.state)
    ⟨draining, hindered⟩
  · intro iteration ⟨draining, _⟩ exited
    rw [draining.running] at exited
    cases exited
  · intro iteration turn after out ⟨draining, hindered⟩ own fires
    cases draining.drains own fires with
    | @fires clock slot next read fired =>
        cases draining.enter fired with
        | inl left =>
            obtain ⟨key, deadline, found, elapsed⟩ := fired.elapsed
            exact absurd (.inr ⟨left.2, slot, key, deadline, found, clock, read, elapsed⟩) hindered
        | inr goes =>
            obtain ⟨drains, opened, _⟩ := goes
            exact ⟨drains, fun after => hindered ((fired.unhindered_iff read opened).mp after)⟩
    | disables => exact ⟨draining.disables, hindered⟩
    | exhausted none => exact absurd (unhindered_of_empty none) hindered

/-- As time passes the timers elapse, and a scheduler whose input is gone exits. -/
theorem exits_eventually
    (run : select.machine.Run Machine.Every (select.enter new) turns events iteration)
    (running : iteration.exited = false) (gone : iteration.state.inputGone = true) :
    Exits (fun _ => True) iteration := by
  have draining : Draining iteration := ⟨sound run, running, gone⟩
  exact draining.exits (.inl fun {_ _ deadline} _ => ⟨⟨0, deadline⟩, trivial, le_rfl⟩)

end SnoozeWorker

/-- What the workers do once their input is gone: the publish engine loses no result and never
exits, and the scheduler exits without waiting when no timer is in the way and only then. -/
theorem workers_exit_iff :
    (∀ turns events iteration,
      PublishWorker.select.machine.Run Machine.Every (PublishWorker.select.enter .new)
        turns events iteration →
      iteration.state.inputGone = true →
      PublishLoop.Conserved events iteration.state.loop ∧
        ¬ PublishWorker.CanExit iteration) ∧
    ∀ turns events iteration,
      SnoozeWorker.select.machine.Run Machine.Every (SnoozeWorker.select.enter .new)
        turns events iteration →
      iteration.exited = false → iteration.state.inputGone = true →
      ∀ clock, SnoozeWorker.Exits (· = clock) iteration ↔
        SnoozeWorker.Unhindered (· = clock) iteration.state := by
  constructor
  · intro turns events iteration run _
    exact ⟨PublishWorker.conserved run, PublishWorker.not_canExit run⟩
  · intro turns events iteration run running gone clock
    have draining : SnoozeWorker.Draining iteration := ⟨SnoozeWorker.sound run, running, gone⟩
    constructor
    · intro exits
      by_contra hindered
      exact draining.waits hindered exits
    · exact draining.exits

end

section

attribute [local instance] asciiPlatform

/-- A clock at its start. -/
def atStart : Clock := ⟨0, 0⟩

/-- The workflow handler stops while both workers are idle. -/
theorem workers_exit_idle :
    ∃ idle waiting events later,
      PublishWorker.select.machine.Run Machine.Every (PublishWorker.select.enter .new)
        [.act .dropSender] events idle ∧
      SnoozeWorker.select.machine.Run Machine.Every (SnoozeWorker.select.enter .new)
        [.act .dropSender] later waiting ∧
      ¬ PublishWorker.CanExit idle ∧ SnoozeWorker.Exits (· = atStart) waiting ∧
        idle.state.inputGone = true ∧ waiting.state.inputGone = true := by
  obtain ⟨idle, events, run, gone⟩ := PublishWorker.select.run_of_check .new [.act .dropSender]
    (fun final _ => final.state.inputGone) (by decide)
  obtain ⟨waiting, later, taken, check⟩ :=
    SnoozeWorker.select.run_of_check .new [.act .dropSender]
      (fun final _ => !final.exited && final.state.inputGone &&
        final.state.entries.keys.isEmpty) (by decide)
  simp only [Bool.and_eq_true, Bool.not_eq_true', List.isEmpty_iff] at check
  obtain ⟨⟨running, drained⟩, empty⟩ := check
  exact ⟨idle, waiting, events, later, run, taken, (workers_exit_iff.1 _ _ _ run gone).2,
    (workers_exit_iff.2 _ _ _ taken running drained atStart).mpr
      (SnoozeWorker.unhindered_of_empty empty), gone, drained⟩

/-- A timer of the pump is set for a minute from now, and the workflow handler stops. -/
def pumpWaits : List (Select.Turn SnoozeWorker.Action SnoozeWorker.Branch) :=
  [.act (.send ⟨pump, some ⟨60, 0⟩⟩), .act (.receive atStart), .act .dropSender]

/-- With no attempt in flight and no result buffered the publish engine goes on after its input
is gone, and the scheduler waits for the timer of the pump. -/
theorem workers_stay :
    (∃ turns events iteration,
      PublishWorker.select.machine.Run Machine.Every (PublishWorker.select.enter .new)
        turns events iteration ∧
      iteration.state.inputGone = true ∧ iteration.state.loop.engine = .new ∧
      ¬ PublishWorker.CanExit iteration) ∧
    ∃ events iteration,
      SnoozeWorker.select.machine.Run Machine.Every (SnoozeWorker.select.enter .new)
        pumpWaits events iteration ∧
      iteration.exited = false ∧ iteration.state.inputGone = true ∧
      ¬ SnoozeWorker.Exits (· = atStart) iteration := by
  constructor
  · obtain ⟨idle, events, run, check⟩ := PublishWorker.select.run_of_check .new [.act .dropSender]
      (fun final _ => final.state.inputGone && final.state.loop.engine = .new) (by decide)
    simp only [Bool.and_eq_true, decide_eq_true_eq] at check
    exact ⟨_, _, idle, run, check.1, check.2, PublishWorker.not_canExit run⟩
  · obtain ⟨waiting, events, run, check⟩ := SnoozeWorker.select.run_of_check .new pumpWaits
      (fun final _ => !final.exited && final.state.inputGone && final.state.loop.outcomesOpen &&
        final.state.entries.get? 0 = some (pump, 60 * nanosPerSecond)) (by decide)
    simp only [Bool.and_eq_true, Bool.not_eq_true', decide_eq_true_eq] at check
    obtain ⟨⟨⟨running, gone⟩, opened⟩, timer⟩ := check
    have draining : SnoozeWorker.Draining waiting := ⟨SnoozeWorker.sound run, running, gone⟩
    refine ⟨_, waiting, run, running, gone, draining.waits ?_⟩
    rintro (elapse | ⟨closed, _⟩)
    · obtain ⟨clock, rfl, elapsed⟩ := elapse timer
      exact absurd elapsed (by decide)
    · rw [opened] at closed
      cases closed

end

end AcornAlarms
