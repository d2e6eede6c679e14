import ChipEight.Proofs.Session.Alike
import ChipEight.Proofs.Session.Failing
import ChipEight.Proofs.Session.Operations

/-!
# Real time and simulation

Under a host that begins its frames a period of the timers apart, a run in real time is a simulated run
that comes one frame later: its first frame has no time for anything, and from then on each frame has
the time of a simulated one. So if its events come one frame later too, it does the same:

* `Script.postponed` — a script whose events come one poll later;
* `Session.frame_of_rest` — a frame without events, time or anything to show;
* `Session.alike_after_rest` — the two runs when the first frame has passed;
* `steady_agrees` — the two runs with a limit and without one.
-/

namespace ChipEight

namespace Script

/-- The script whose events come one poll later. -/
def postponed (events : List (Nat × Event)) : List (Nat × Event) :=
  events.map fun e => (e.1 + 1, e.2)

variable (events : List (Nat × Event)) (k : Nat)

theorem onPoll_postponed_zero : onPoll (postponed events) 0 = [] := by
  rw [onPoll, List.map_eq_nil_iff, List.filter_eq_nil_iff]
  intro e he hzero
  obtain ⟨e', -, rfl⟩ := List.mem_map.mp he
  exact Nat.succ_ne_zero _ (of_decide_eq_true hzero)

theorem onPoll_postponed_succ : onPoll (postponed events) (k + 1) = onPoll events k := by
  rw [onPoll, onPoll, postponed, List.filter_map, List.map_map]
  refine congrArg (List.map Prod.snd) (List.filter_congr fun e _ => ?_)
  exact decide_eq_decide.mpr Nat.succ_inj

end Script

namespace Session

variable {ι δ : Type} [Input ι] [Display δ] {s : Session ι δ} {input : ι} {elapsed : Nat}

omit [Input ι] in
theorem refresh_of_clear (h : s.machine.state.redraw = false) : s.refresh = (s, none) := by
  rw [refresh, Machine.takeFrame, h]
  rfl

/-- **A frame at rest**: without events and time, and with nothing to show, a frame asks the machine
for its picture, which has not changed, and leaves all as it is. -/
theorem frame_of_rest (hpoll : Input.poll s.input = (.ok [], input))
    (hticks : (s.clock.advance elapsed).2 = { steps := 0, timerTicks := 0 })
    (hclear : s.machine.state.redraw = false) :
    s.frameOperations elapsed = [.takeFrame] ∧
      ∃ u, s.frame elapsed = (u, none) ∧ u.machine = s.machine ∧ u.display = s.display := by
  have hquit : Event.quit ∉ [] := List.not_mem_nil
  have hburst : (s.hear [] input).burst elapsed = (s.machine, .spent) := by
    show s.machine.burst (s.clock.advance elapsed).2.steps = _
    rw [hticks]
    rfl
  have hticks' : ((s.hear [] input).clock.advance elapsed).2 = { steps := 0, timerTicks := 0 } :=
    hticks
  constructor
  · rw [frameOperations_of_no_quit hpoll hquit, workOperations_of_not_stopped, hticks']
    · rfl
    · rw [hburst]
      exact fun f => Burst.noConfusion
  · obtain ⟨hmachine, hdisplay⟩ := workDone_machine (s.hear [] input) elapsed
    rw [hburst, hticks'] at hmachine
    have hshown : ((s.hear [] input).workDone elapsed).refresh =
        ((s.hear [] input).workDone elapsed, none) := by
      apply refresh_of_clear
      rw [hmachine]
      exact hclear
    refine ⟨(((s.hear [] input).workDone elapsed).finishFrame false).1, ?_, hmachine, hdisplay⟩
    rw [frame_of_no_quit hpoll hquit, work_eq, hburst, hshown]
    rfl

/-- **When the first frame has passed** in real time, the run is alike to a simulated run at its
start. -/
theorem alike_after_rest {m : Machine} (hclear : m.state.redraw = false) (speed : Nat)
    (events : List (Nat × Event)) (display : δ) (journal journal' : Journal) :
    (start speed m (Script.ofList (Script.postponed events)) display journal').frameOperations 0 =
        [.takeFrame] ∧
      ∃ u, (start speed m (Script.ofList (Script.postponed events)) display journal').frame 0 =
          (u, none) ∧
        u.input = Script.after (Script.postponed events) 1 ∧
        Alike 1 (start speed m (Script.ofList events) display journal) u := by
  have hclock : (start speed m (Script.ofList (Script.postponed events)) display
      journal').clock.advance 0 = (Clock.ofSpeed speed, { steps := 0, timerTicks := 0 }) :=
    Clock.advance_zero speed
  have hpoll : Input.poll (Script.ofList (Script.postponed events)) =
      (.ok [], Script.after (Script.postponed events) 1) := by
    rw [← Script.after_zero, Script.input_poll_after, Script.onPoll_postponed_zero]
  obtain ⟨hoperations, u, hframe, hmachine, hdisplay⟩ :=
    frame_of_rest (s := start speed m (Script.ofList (Script.postponed events)) display journal')
      hpoll (congrArg Prod.snd hclock) hclear
  have hinput := frame_input
    (start speed m (Script.ofList (Script.postponed events)) display journal') 0
  have hleft : u.clock = Clock.ofSpeed speed :=
    (frame_clock hframe).trans (congrArg Prod.fst hclock)
  have hcount : u.count = 0 + 1 := frame_count hframe
  rw [hframe] at hinput
  exact ⟨hoperations, u, hframe, hinput.trans (congrArg Prod.snd hpoll), hmachine, hdisplay, hleft,
    hcount⟩

end Session

variable {δ : Type} [Display δ]

/-- **Real time agrees with simulation.** Take a machine that has nothing to show, and a run in real
time whose first frame has no time and whose later frames have a period of the timers each, with every
event one frame later than in a simulated run. Its first frame makes no step, does not count the timers
down and shows nothing. With a limit of one frame more it ends as the simulated run does, one frame
later, with the same machine and the same display. Without a limit it ends if the simulated run does,
and then in the same way. -/
theorem steady_agrees {m : Machine} (hclear : m.state.redraw = false) (speed : Nat)
    (events : List (Nat × Event)) (display : δ) (journal journal' : Journal) :
    let simulated := Session.start speed m (Script.ofList events) display journal
    let steady :=
      Session.start speed m (Script.ofList (events.map fun e => (e.1 + 1, e.2))) display journal'
    (steady.frameOperations (Pacing.steady 0) = [.takeFrame] ∧
      ∃ u, steady.frame (Pacing.steady 0) = (u, none) ∧ u.machine = m ∧ u.display = display) ∧
    (∀ n, (steady.frames .steady (n + 1)).2 = (simulated.frames .simulated n).2.later 1 ∧
      (steady.frames .steady (n + 1)).1.machine = (simulated.frames .simulated n).1.machine ∧
      (steady.frames .steady (n + 1)).1.display = (simulated.frames .simulated n).1.display) ∧
    ∀ n, match simulated.finish? .simulated n with
      | none => steady.finish? .steady (n + 1) = none
      | some (s, e) => ∃ t, steady.finish? .steady (n + 1) = some (t, e.later 1) ∧
          t.machine = s.machine ∧ t.display = s.display := by
  intro simulated steady
  obtain ⟨hoperations, u, hframe, hinput, halike⟩ :
      steady.frameOperations 0 = [.takeFrame] ∧ ∃ u, steady.frame 0 = (u, none) ∧
        u.input = Script.after (Script.postponed events) 1 ∧ Session.Alike 1 simulated u :=
    Session.alike_after_rest hclear speed events display journal journal'
  have hpace : ∀ count, simulated.count ≤ count →
      Pacing.steady (count + 1) = Pacing.simulated count := fun count _ =>
    if_neg (Nat.succ_ne_zero count)
  have hheard : ∀ j, (Input.poll (Input.polled j u.input)).1 =
      (Input.poll (Input.polled j simulated.input)).1 := by
    intro j
    have hlater : (Input.poll (Input.polled j u.input)).1 = .ok (Script.onPoll events j) := by
      rw [hinput, Script.heard_after, Nat.add_comm, Script.onPoll_postponed_succ]
    exact hlater.trans (Script.heard_ofList events j).symm
  have hrest : ∀ n, steady.frames .steady (n + 1) = u.frames .steady n :=
    Session.frames_succ_of_none hframe
  refine ⟨⟨hoperations, u, hframe, halike.machine_eq, halike.display_eq⟩, fun n => ?limit,
    fun n => ?nolimit⟩
  case limit =>
    obtain ⟨hleft, hexit, -⟩ := halike.frames n .simulated .steady hpace fun j _ => hheard j
    rw [hrest]
    exact ⟨hexit, hleft.machine_eq, hleft.display_eq⟩
  case nolimit =>
    have hsame : steady.finish? .steady (n + 1) = u.finish? .steady n := by
      rw [Session.finish?, Session.finish?, hrest]
    have hended := halike.finish? n .simulated .steady hpace fun j _ => hheard j
    rw [hsame]
    revert hended
    cases simulated.finish? .simulated n with
    | none => exact id
    | some r =>
        rintro ⟨t, ht, hleft⟩
        exact ⟨t, ht, hleft.machine_eq, hleft.display_eq⟩

/-- In real time a key that is pressed a frame later leads to the same machine and the same two pictures
one frame later. -/
theorem flickering_agrees :
    (recordedRun .steady 60 flickering (Script.ofList [(2, .key 5 true)]) {} Discard.mk 4).2 =
        (flickered 3).2.later 1 ∧
      (recordedRun .steady 60 flickering (Script.ofList [(2, .key 5 true)]) {} Discard.mk
        4).1.machine = (flickered 3).1.machine ∧
      (recordedRun .steady 60 flickering (Script.ofList [(2, .key 5 true)]) {} Discard.mk
        4).1.display.frames.size = 2 := by
  have hclear : flickering.state.redraw = false := by decide +kernel
  obtain ⟨-, hlimit, -⟩ := steady_agrees hclear 60 [(1, .key 5 true)]
    ({ display := Discard.mk } : Recorder Discard) {} {}
  obtain ⟨hexit, hmachine, hdisplay⟩ := hlimit 3
  obtain ⟨-, -, hshown, -⟩ := flickered_shows
  exact ⟨hexit, hmachine, (congrArg (fun d => d.frames.size) hdisplay).trans hshown⟩

end ChipEight
