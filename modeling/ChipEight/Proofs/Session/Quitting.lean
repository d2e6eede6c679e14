import Mathlib.Order.Bounds.Basic
import ChipEight.Proofs.Session.Alike
import ChipEight.Proofs.Session.Failing
import ChipEight.Proofs.Session.InStep
import ChipEight.Proofs.Session.Operations

/-!
# The wish to stop and the limit

A run looks at its limit before it polls, and the wish to stop ends it before anything else is done in
its frame. Up to then the run of a script is the one of the script without the wish:

* `Script.withoutQuits` — what is left of a script without the wishes to stop;
* `Session.exit_of_reliable` — how a run can end in which nobody wishes to stop;
* `Session.frames_of_quit` — a run and the frame in which it is stopped;
* `Session.frames_withoutQuits` — a run and its script without the wishes to stop;
* `quit_and_limit` — which of the two comes first, and what is left for a later run.
-/

namespace ChipEight

namespace Script

variable {events : List (Nat × Event)} {k : Nat}

/-- The events without the wishes to stop. -/
def withoutQuits (events : List (Nat × Event)) : List (Nat × Event) :=
  events.filter fun e => e.2 ≠ .quit

theorem quit_not_mem_withoutQuits : Event.quit ∉ onPoll (withoutQuits events) k := by
  rw [mem_onPoll, withoutQuits, List.mem_filter]
  exact fun h => of_decide_eq_true h.2 rfl

/-- A poll without a wish to stop stays as it is. -/
theorem onPoll_withoutQuits (h : Event.quit ∉ onPoll events k) :
    onPoll (withoutQuits events) k = onPoll events k := by
  rw [onPoll, onPoll, withoutQuits, List.filter_filter]
  refine congrArg (List.map Prod.snd) (List.filter_congr fun e he => ?_)
  rw [← Bool.decide_and, decide_eq_decide]
  refine ⟨And.left, fun hk => ⟨hk, fun hquit => h ?_⟩⟩
  rw [mem_onPoll, ← hk, ← hquit]
  exact he

end Script

namespace Session

variable {ι δ : Type} [Input ι] [Display δ] {pacing : Pacing} {k n : Nat} {s u : Session ι δ}
  {speed : Nat} {m : Machine} {display : δ} {journal : Journal}

/-- A run in which nobody wishes to stop, on a display that shows everything, ends with its program or
at its limit. -/
theorem exit_of_reliable {input : ι} (hdisplay : Display.Reliable display)
    (hcalm : Input.Calm input n) (pacing : Pacing) :
    ((start speed m input display journal).frames pacing n).2 = .halted ∨
      ((start speed m input display journal).frames pacing n).2 = .frameLimit ∨
      ∃ k f, ((start speed m input display journal).frames pacing n).2 = .faulted k f := by
  have hrun := frames_withDisplay
    (hdisplay ((start speed m input Discard.mk journal).shows pacing n))
  have hsame : (start speed m input Discard.mk journal).withDisplay display =
      start speed m input display journal := rfl
  rw [hsame] at hrun
  rw [hrun]
  exact exit_of_calm hcalm

/-- **A run that is stopped** has gone through the frames before. In the last one it hears the keys up
to the wish to stop and does nothing else, whatever its limit is. -/
theorem frames_of_quit {events : List Event} {input : ι} (h : s.Passes pacing k u)
    (hpoll : Input.poll u.input = (.ok events, input)) (hquit : Event.quit ∈ events) (hk : k < n) :
    s.frames pacing n = (u.hear events input, .quit) ∧
      s.finish? pacing n = some (u.hear events input, .quit) ∧
      s.operations pacing n = s.operations pacing k ++ Event.operations events := by
  have hlast := frame_of_quit hpoll hquit (pacing u.count)
  have hrun := frames_of_last h hlast hk
  have hended : (s.frames pacing n).2 ≠ .frameLimit := by
    rw [hrun]
    exact Exit.noConfusion
  refine ⟨hrun, ?_, ?_⟩
  · rw [finish?_of_ended hended, hrun]
  · rw [operations_of_last h hlast hk, frameOperations_of_quit hpoll hquit]

/-- As long as nobody wishes to stop, the wishes of a script make no difference. -/
theorem frames_withoutQuits {events : List (Nat × Event)}
    (h : ∀ j < n, Event.quit ∉ Script.onPoll events j) :
    Alike 0
        ((start speed m (Script.ofList (Script.withoutQuits events)) display journal).frames
          pacing n).1
        ((start speed m (Script.ofList events) display journal).frames pacing n).1 ∧
      ((start speed m (Script.ofList events) display journal).frames pacing n).2 =
        ((start speed m (Script.ofList (Script.withoutQuits events)) display journal).frames
          pacing n).2 := by
  have halike : Alike 0
      (start speed m (Script.ofList (Script.withoutQuits events)) display journal)
      (start speed m (Script.ofList events) display journal) := ⟨rfl, rfl, rfl, rfl⟩
  obtain ⟨hleft, hexit, -⟩ := halike.frames n pacing pacing
    (fun _ _ => rfl) fun j hj => by
      have hheard := Script.heard_ofList (Script.withoutQuits events) j
      rw [Script.onPoll_withoutQuits (h j hj)] at hheard
      exact (Script.heard_ofList events j).trans hheard.symm
  rw [Exit.later_zero] at hexit
  exact ⟨hleft, hexit⟩

/-- Before the wish to stop comes a run ends with its program or at its limit. -/
theorem exit_before_quit {events : List (Nat × Event)} (hdisplay : Display.Reliable display)
    (h : ∀ j < n, Event.quit ∉ Script.onPoll events j) :
    ((start speed m (Script.ofList events) display journal).frames pacing n).2 = .halted ∨
      ((start speed m (Script.ofList events) display journal).frames pacing n).2 = .frameLimit ∨
      ∃ k f, ((start speed m (Script.ofList events) display journal).frames pacing n).2 =
        .faulted k f := by
  rw [(frames_withoutQuits h).2]
  exact exit_of_reliable hdisplay
    (Script.calm_ofList fun i _ => Script.quit_not_mem_withoutQuits) pacing

end Session

variable {δ : Type} [Display δ]

/-- **The wish to stop and the limit.** Take a script in which the wish to stop was planned first for
poll `q`, and a display that shows everything. If the limit is beyond `q`, or if there is none, and the
run without the wishes to stop goes through `q` frames, the run is stopped after `q + 1` polls. It
leaves the machine of those `q` frames with the keys before the wish pressed, shows nothing more and
asks the machine for nothing else; a later run hears what was planned for the polls from `q + 1` on. A
run with a limit up to `q` is not stopped; if its program does not end it, it reaches its limit after as
many polls and leaves all events from there on to a later run. With the limit zero nothing changes. -/
theorem quit_and_limit (speed : Nat) (m : Machine) (events : List (Nat × Event)) {display : δ}
    (hdisplay : Display.Reliable display) (journal : Journal) {q : Nat}
    (hq : IsLeast {k | (k, Event.quit) ∈ events} q) :
    let run := Session.start speed m (Script.ofList events) display journal
    let undisturbed :=
      Session.start speed m (Script.ofList (Script.withoutQuits events)) display journal
    (∀ u e, undisturbed.frames .simulated q = (u, e) → e ≠ .halted → (∀ k f, e ≠ .faulted k f) →
      ∃ t, (∀ n, q < n → run.frames .simulated n = (t, .quit) ∧
          run.finish? .simulated n = some (t, .quit) ∧
          run.operations .simulated n =
            run.operations .simulated q ++ Event.operations (Script.onPoll events q)) ∧
        t.input.polls = q + 1 ∧
        t.machine = u.machine.press ((Script.onPoll events q).takeWhile fun e => e ≠ .quit) ∧
        t.display = u.display ∧
        ∀ j, (Input.poll (Input.polled j t.input)).1 = .ok (Script.onPoll events (q + 1 + j))) ∧
    (∀ n ≤ q, ∀ t e, run.frames .simulated n = (t, e) →
      e ≠ .quit ∧
      (e ≠ .halted → (∀ k f, e ≠ .faulted k f) →
        e = .frameLimit ∧ t.input.polls = n ∧
        ∀ j, (Input.poll (Input.polled j t.input)).1 = .ok (Script.onPoll events (n + j)))) ∧
    run.frames .simulated 0 = (run, .frameLimit) := by
  intro run undisturbed
  have hbefore : ∀ j < q, Event.quit ∉ Script.onPoll events j := fun j hj hquit =>
    Nat.not_lt_of_le (hq.2 (Script.mem_onPoll.mp hquit)) hj
  refine ⟨?stopped, ?limited, rfl⟩
  case stopped =>
    intro u e hgood hhalted hfaulted
    obtain ⟨halike, hexit⟩ : Session.Alike 0 (undisturbed.frames .simulated q).1
          (run.frames .simulated q).1 ∧
        (run.frames .simulated q).2 = (undisturbed.frames .simulated q).2 :=
      Session.frames_withoutQuits hbefore
    have hend : (run.frames .simulated q).2 = .halted ∨ (run.frames .simulated q).2 = .frameLimit ∨
        ∃ k f, (run.frames .simulated q).2 = .faulted k f :=
      Session.exit_before_quit hdisplay hbefore
    rcases hrun : run.frames .simulated q with ⟨v, e'⟩
    rw [hrun, hgood] at hexit halike
    rw [hrun] at hend
    cases hexit
    obtain rfl | rfl | ⟨k, f, rfl⟩ := hend
    · exact (hhalted rfl).elim
    · have hinput : v.input = Script.after events q :=
        (Session.Passes.input_eq hrun).trans (Script.polled_ofList events q)
      have hpoll : Input.poll v.input =
          (.ok (Script.onPoll events q), Script.after events (q + 1)) := by
        rw [hinput, Script.input_poll_after]
      have hquit : Event.quit ∈ Script.onPoll events q := Script.mem_onPoll.mpr hq.1
      refine ⟨v.hear (Script.onPoll events q) (Script.after events (q + 1)),
        fun n hn => Session.frames_of_quit hrun hpoll hquit hn, rfl, ?_, halike.display_eq,
        Script.heard_after events (q + 1)⟩
      rw [Session.hear_machine, halike.machine_eq]
    · exact (hfaulted k f rfl).elim
  case limited =>
    intro n hn t e hrun
    have hend : (run.frames .simulated n).2 = .halted ∨ (run.frames .simulated n).2 = .frameLimit ∨
        ∃ k f, (run.frames .simulated n).2 = .faulted k f :=
      Session.exit_before_quit hdisplay fun j hj => hbefore j (Nat.lt_of_lt_of_le hj hn)
    rw [hrun] at hend
    obtain rfl | rfl | ⟨k, f, rfl⟩ := hend
    · exact ⟨Exit.noConfusion, fun hhalted => (hhalted rfl).elim⟩
    · have hinput : t.input = Script.after events n :=
        (Session.Passes.input_eq hrun).trans (Script.polled_ofList events n)
      refine ⟨Exit.noConfusion, fun _ _ => ⟨rfl, ?_, ?_⟩⟩
      · rw [hinput, Script.after]
      · rw [hinput]
        exact Script.heard_after events n
    · exact ⟨Exit.noConfusion, fun _ hfaulted => (hfaulted k f rfl).elim⟩

/-- A script with keys on both sides of the wish to stop. -/
def stoppedInSecond : List (Nat × Event) :=
  [(1, .key 5 true), (1, .quit), (1, .key 6 true), (2, .key 7 true)]

theorem isLeast_stoppedInSecond : IsLeast {k | (k, Event.quit) ∈ stoppedInSecond} 1 := by
  refine ⟨by decide, fun k hk => ?_⟩
  have hone : k = 1 := by simpa [stoppedInSecond] using hk
  exact Nat.le_of_eq hone.symm

/-- The run without the wish goes through its first frame. -/
theorem undisturbed_goes_on :
    let undisturbed := (Session.start 60 flickering
      (Script.ofList (Script.withoutQuits stoppedInSecond)) Discard.mk {}).frames .simulated 1
    undisturbed.2 = .frameLimit ∧
      (undisturbed.1.machine.press [.key 5 true]).isPressed 5 = true ∧
      (undisturbed.1.machine.press [.key 5 true]).isPressed 6 = false := by
  rw [Script.ofList_of_pairwise (by decide)]
  decide +kernel

/-- The run with the wish ends in its second frame. Only the key before the wish is down then, and a
later run begins with the key of the third frame. With a limit of one frame it is not stopped. -/
theorem flickering_is_stopped :
    (∃ t, (Session.start 60 flickering (Script.ofList stoppedInSecond) Discard.mk {}).frames
        .simulated 9 = (t, .quit) ∧
      t.input.polls = 2 ∧ (Input.poll t.input).1 = .ok [.key 7 true] ∧
      t.machine.isPressed 5 = true ∧ t.machine.isPressed 6 = false) ∧
    ((Session.start 60 flickering (Script.ofList stoppedInSecond) Discard.mk {}).frames
        .simulated 1).2 ≠ .quit := by
  obtain ⟨hlimit, hdown, hup⟩ := undisturbed_goes_on
  obtain ⟨hstopped, hlimited, -⟩ := quit_and_limit 60 flickering stoppedInSecond
    (Discard.reliable Discard.mk) {} isLeast_stoppedInSecond
  rcases hgood : (Session.start 60 flickering
    (Script.ofList (Script.withoutQuits stoppedInSecond)) Discard.mk {}).frames .simulated 1
    with ⟨u, e⟩
  rw [hgood] at hlimit hdown hup
  cases hlimit
  obtain ⟨t, hrun, hpolls, hmachine, -, hlater⟩ := hstopped u .frameLimit hgood
    Exit.noConfusion fun _ _ => Exit.noConfusion
  rcases hfirst : (Session.start 60 flickering (Script.ofList stoppedInSecond) Discard.mk {}).frames
    .simulated 1 with ⟨v, e⟩
  refine ⟨⟨t, (hrun 9 (by decide)).1, hpolls, hlater 0, ?_, ?_⟩,
    (hlimited 1 (Nat.le_refl 1) v e hfirst).1⟩
  · rw [hmachine]
    exact hdown
  · rw [hmachine]
    exact hup

end ChipEight
