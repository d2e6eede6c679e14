import ChipEight.Input
import ChipEight.Proofs.Machine.Redraw
import ChipEight.Proofs.Session.Recording

/-!
# Runs keep a display in step with the machine

A run shows a frame if the redraw mark is set when the work of the frame is done. It may also end
before that, and the mark then stays for the next run. So over any number of runs with one machine,
one input and one display, the display was last given the frame of the machine, unless the mark is
still set.

* `FrameLog`, `Session.log` — what a run executes and shows, frame by frame;
* `Session.ended` — a frame ends without showing anything, or shows what is marked;
* `Tracked`, with `Session.tracked_frame` and `Session.tracked_frames` — what holds from frame to
  frame;
* `Runs` — runs one after the other, with `runs_keep_in_step`.
-/

namespace ChipEight

/-- The frame that the display was given last, blank if it was given none. -/
def Recorder.last {δ : Type} (r : Recorder δ) : Frame := r.frames.back?.getD Frame.blank

/-- What matters to a display of one frame of a run: the instructions that it executed, and after
them the frames that it gave to the display. -/
structure FrameLog where
  executed : List Instruction
  rendered : List Frame

/-- The instructions that were executed since a frame was given to the display. -/
def sinceRendered (log : List FrameLog) : List Instruction :=
  log.foldl (fun since f => if f.rendered = [] then since ++ f.executed else []) []

/-- In every frame of the log the display was given one frame at most, and only if an instruction that
draws was executed since it was last given one. -/
def Sparing (log : List FrameLog) : Prop :=
  ∀ earlier f later, log = earlier ++ f :: later →
    f.rendered.length ≤ 1 ∧
      (f.rendered ≠ [] → ∃ ins ∈ sinceRendered earlier ++ f.executed, ins.draws = true)

/-! ### What a frame does before it shows anything -/

namespace Machine

variable {m : Machine} {shown : Frame}

/-- Keys are pressed and released up to the wish to stop. -/
theorem feed_fst (events : List Event) (m : Machine) :
    (feed events m).1 = m.press (events.takeWhile fun e => e ≠ .quit) := by
  induction events generalizing m with
  | nil => rfl
  | cons e events ih =>
      cases e with
      | quit => rfl
      | key k down => exact ih (m.keyEvent k down)

theorem redraw_press (events : List Event) (m : Machine) :
    (m.press events).state.redraw = m.state.redraw := by
  induction events generalizing m with
  | nil => rfl
  | cons e events ih =>
      cases e with
      | quit => exact ih m
      | key k down => exact (ih _).trans (redraw_keyEvent m k down)

theorem InStep.press (h : m.InStep shown) (events : List Event) :
    (m.press events).InStep shown := by
  induction events generalizing m with
  | nil => exact h
  | cons e events ih =>
      cases e with
      | quit => exact ih h
      | key k down => exact ih (h.keyEvent k down)

theorem redraw_ticks (n : Nat) (m : Machine) : (m.ticks n).state.redraw = m.state.redraw := by
  induction n generalizing m with
  | zero => rfl
  | succ n ih => exact ih m.tick

theorem InStep.ticks (h : m.InStep shown) (n : Nat) : (m.ticks n).InStep shown := by
  induction n generalizing m with
  | zero => exact h
  | succ n ih =>
      have htick : m.tick.InStep shown := h
      exact ih htick

end Machine

namespace Session

variable {ι δ : Type}

/-- Of the events of a frame the keys before the wish to stop are heard. -/
theorem hear_machine (s : Session ι δ) (events : List Event) (input : ι) :
    (s.hear events input).machine = s.machine.press (events.takeWhile fun e => e ≠ .quit) :=
  Machine.feed_fst events s.machine

/-- The machine when the steps of a frame are made. -/
theorem burst_of_no_quit {events : List Event} (s : Session ι δ) (hquit : Event.quit ∉ events)
    (input : ι) (elapsed : Nat) : ((s.hear events input).burst elapsed).1 =
      (s.machine.press events).steps (s.clock.advance elapsed).2.steps := by
  rw [burst, Machine.burst_fst]
  show Machine.steps _ (s.machine.feed events).1 = _
  rw [Machine.feed_of_no_quit hquit]
  rfl

variable [Input ι]

/-- The instructions that a frame executes. -/
def executed (s : Session ι δ) (elapsed : Nat) : List Instruction :=
  match Input.poll s.input with
  | (.error _, _) => []
  | (.ok events, _) =>
    match s.machine.feed events with
    | (_, true) => []
    | (m, false) => m.executedIn (s.clock.advance elapsed).2.steps

section

variable {s : Session ι δ} {elapsed : Nat} {events : List Event} {input : ι}

theorem executed_of_error {reason : String} (hpoll : Input.poll s.input = (.error reason, input)) :
    s.executed elapsed = [] := by
  rw [executed, hpoll]

theorem executed_of_quit (hpoll : Input.poll s.input = (.ok events, input))
    (hquit : Event.quit ∈ events) : s.executed elapsed = [] := by
  have hstop := Machine.feed_of_quit hquit s.machine
  rcases hfeed : s.machine.feed events with ⟨m, b⟩
  rw [hfeed] at hstop
  cases hstop
  rw [executed, hpoll]
  simp only [hfeed]

theorem executed_of_no_quit (hpoll : Input.poll s.input = (.ok events, input))
    (hquit : Event.quit ∉ events) : s.executed elapsed =
      (s.machine.press events).executedIn (s.clock.advance elapsed).2.steps := by
  rw [executed, hpoll]
  simp only [Machine.feed_of_no_quit hquit]

end

/-! ### Frames -/

variable {s t : Session ι (Recorder δ)} {e : Option Exit} {elapsed : Nat}

/-- The mark before a frame is shown, given the one at the start of the frame. -/
def marked (s : Session ι (Recorder δ)) (elapsed : Nat) : Bool :=
  (s.executed elapsed).any Instruction.draws || s.machine.state.redraw

/-- What a frame leaves that shows nothing. -/
structure Silent (s : Session ι (Recorder δ)) (elapsed : Nat) (t : Session ι (Recorder δ)) :
    Prop where
  frames_eq : t.display.frames = s.display.frames
  count_eq : t.count = s.count
  redraw_eq : t.machine.state.redraw = s.marked elapsed
  inStep : ∀ shown, s.machine.InStep shown → t.machine.InStep shown

/-- What a frame leaves that shows the frame of the machine if that is marked. -/
structure Shown (s : Session ι (Recorder δ)) (elapsed : Nat) (t : Session ι (Recorder δ)) :
    Prop where
  frames_eq : t.display.frames =
    if s.marked elapsed then s.display.frames.push t.machine.state.frame else s.display.frames
  redraw_eq : t.machine.state.redraw = false
  frame_eq : s.marked elapsed = false → ∀ shown, s.machine.InStep shown →
    t.machine.state.frame = shown

theorem Shown.finishFrame (h : s.Shown elapsed t) (halted : Bool) :
    s.Shown elapsed (t.finishFrame halted).1 := by
  refine ⟨?_, ?_, ?_⟩
  · rw [finishFrame_display, finishFrame_machine]
    exact h.frames_eq
  · rw [finishFrame_machine]
    exact h.redraw_eq
  · rw [finishFrame_machine]
    exact h.frame_eq

variable [Display δ]

/-- The log of a frame. -/
def frameLog (s : Session ι (Recorder δ)) (elapsed : Nat) : FrameLog where
  executed := s.executed elapsed
  rendered := (s.frame elapsed).1.display.frames.toList.drop s.display.frames.size

/-- The log of up to `n` frames. -/
def log (pacing : Pacing) : Nat → Session ι (Recorder δ) → List FrameLog
  | 0, _ => []
  | n + 1, s => s.frameLog (pacing s.count) ::
    match s.frame (pacing s.count) with
    | (_, some _) => []
    | (s, none) => log pacing n s

/-- A frame that goes through all of its work shows what is marked. -/
theorem shown_of_no_quit {events : List Event} {input : ι}
    (hpoll : Input.poll s.input = (.ok events, input)) (hquit : Event.quit ∉ events) :
    s.Shown elapsed ((s.hear events input).workDone elapsed).refresh.1 := by
  obtain ⟨hmachine, hdisplay⟩ := workDone_machine (s.hear events input) elapsed
  obtain ⟨htaken, hframes⟩ := refresh_recorder ((s.hear events input).workDone elapsed)
  rw [burst_of_no_quit s hquit] at hmachine
  have hmark : ((s.hear events input).workDone elapsed).machine.state.redraw =
      s.marked elapsed := by
    rw [hmachine, Machine.redraw_ticks, Machine.redraw_steps, Machine.redraw_press, marked,
      executed_of_no_quit hpoll hquit]
  rw [Machine.takeFrame_eq] at htaken
  refine ⟨?_, ?_, ?_⟩
  · rw [hframes, hmark, hdisplay, htaken]
    rfl
  · rw [htaken]
  · intro hclear shown h
    have hin : ((s.hear events input).workDone elapsed).machine.InStep shown := by
      rw [hmachine]
      exact ((h.press events).steps _).ticks _
    rw [htaken]
    rcases hin with hset | hframe
    · rw [hmark, hclear] at hset
      cases hset
    · exact hframe

/-- The two ways in which a frame comes to its end. Only the end of the run is silent, and a wish to
stop comes before any instruction. -/
inductive Ended (s : Session ι (Recorder δ)) (elapsed : Nat) :
    Session ι (Recorder δ) → Option Exit → Prop
  | silent {t : Session ι (Recorder δ)} {e : Exit} (h : s.Silent elapsed t)
      (he : e ≠ .halted ∧ e ≠ .frameLimit) (hquit : e = .quit → s.executed elapsed = []) :
      Ended s elapsed t (some e)
  | shown {t : Session ι (Recorder δ)} {e : Option Exit} (h : s.Shown elapsed t) :
      Ended s elapsed t e

theorem ended_of_framed (h : s.Framed elapsed t e) : s.Ended elapsed t e := by
  cases h with
  | inputFailed hpoll =>
      have hnone : s.executed elapsed = [] := executed_of_error hpoll
      refine .silent ⟨rfl, rfl, ?_, fun shown h => h⟩ ⟨Exit.noConfusion, Exit.noConfusion⟩
        Exit.noConfusion
      rw [marked, hnone]
      rfl
  | @quit events input hpoll hquit =>
      have hnone : s.executed elapsed = [] := executed_of_quit hpoll hquit
      have hpress := s.hear_machine events input
      refine .silent ⟨rfl, rfl, ?_, ?_⟩ ⟨Exit.noConfusion, Exit.noConfusion⟩ fun _ => hnone
      · rw [marked, hnone, hpress, Machine.redraw_press]
        rfl
      · intro shown h
        rw [hpress]
        exact h.press _
  | @faulted events input f hpoll hquit hburst =>
      have hrun : s.executed elapsed = _ := executed_of_no_quit hpoll hquit
      have hsteps := burst_of_no_quit s hquit input elapsed
      refine .silent ⟨rfl, rfl, ?_, ?_⟩ ⟨Exit.noConfusion, Exit.noConfusion⟩ Exit.noConfusion
      · rw [makeSteps_machine, hsteps, Machine.redraw_steps, Machine.redraw_press, marked, hrun]
      · intro shown h
        rw [makeSteps_machine, hsteps]
        exact (h.press events).steps _
  | @displayFailed events input error hpoll hquit hburst hshow =>
      exact .shown (shown_of_no_quit hpoll hquit)
  | halted hpoll hquit hburst hshow =>
      exact .shown ((shown_of_no_quit hpoll hquit).finishFrame true)
  | done hpoll hquit hburst hshow =>
      exact .shown ((shown_of_no_quit hpoll hquit).finishFrame false)

/-- What one frame adds to the log, and how it ends. -/
theorem ended (s : Session ι (Recorder δ)) (elapsed : Nat) :
    s.Ended elapsed (s.frame elapsed).1 (s.frame elapsed).2 := ended_of_framed (s.framed elapsed)

end Session

/-! ### From frame to frame -/

section

variable {past earlier later : List FrameLog} {f : FrameLog}

theorem sinceRendered_concat (past : List FrameLog) (f : FrameLog) :
    sinceRendered (past ++ [f]) =
      if f.rendered = [] then sinceRendered past ++ f.executed else [] := by
  simp only [sinceRendered, List.foldl_append, List.foldl_cons, List.foldl_nil]

theorem sparing_nil : Sparing [] := by
  intro earlier f later h
  cases earlier <;> cases h

theorem Sparing.concat (h : Sparing past) (hlen : f.rendered.length ≤ 1)
    (hdrawn : f.rendered ≠ [] → ∃ ins ∈ sinceRendered past ++ f.executed, ins.draws = true) :
    Sparing (past ++ [f]) := by
  intro earlier g later heq
  rcases List.eq_nil_or_concat later with rfl | ⟨later, last, rfl⟩
  · obtain ⟨rfl, hlast⟩ := List.append_inj' heq rfl
    cases hlast
    exact ⟨hlen, hdrawn⟩
  · -- the frame is not the last one, so it is a frame of the past
    rw [List.concat_eq_append, ← List.cons_append, ← List.append_assoc] at heq
    exact h earlier g later (List.append_inj' heq rfl).1

end

variable {ι δ : Type}

/-- The log of the past tells whether the mark is set, and the display is in step with the machine. -/
structure Tracked (past : List FrameLog) (m : Machine) (display : Recorder δ) : Prop where
  inStep : m.InStep display.last
  redraw_eq : m.state.redraw = (sinceRendered past).any Instruction.draws
  sparing : Sparing past

namespace Session

variable [Input ι] {past : List FrameLog} {s t : Session ι (Recorder δ)} {e : Option Exit} {elapsed : Nat}

theorem marked_eq (h : Tracked past s.machine s.display) (elapsed : Nat) :
    s.marked elapsed = (sinceRendered past ++ s.executed elapsed).any Instruction.draws := by
  rw [marked, h.redraw_eq, List.any_append, Bool.or_comm]

/-- A frame after which the display has no more than before. -/
theorem tracked_of_frames_eq (h : Tracked past s.machine s.display)
    (hframes : t.display.frames = s.display.frames)
    (hmark : t.machine.state.redraw = s.marked elapsed)
    (hin : t.machine.InStep s.display.last) :
    Tracked (past ++ [⟨s.executed elapsed,
      t.display.frames.toList.drop s.display.frames.size⟩]) t.machine t.display := by
  have hnone : t.display.frames.toList.drop s.display.frames.size = [] := by
    rw [hframes]
    exact List.drop_length
  rw [hnone]
  refine ⟨?_, ?_, ?_⟩
  · rw [Recorder.last, hframes]
    exact hin
  · rw [sinceRendered_concat, hmark, marked_eq h]
    rfl
  · exact h.sparing.concat (Nat.zero_le 1) fun hne => (hne rfl).elim

theorem Silent.tracked (hs : s.Silent elapsed t) (h : Tracked past s.machine s.display) :
    Tracked (past ++ [⟨s.executed elapsed,
      t.display.frames.toList.drop s.display.frames.size⟩]) t.machine t.display :=
  tracked_of_frames_eq h hs.frames_eq hs.redraw_eq (hs.inStep _ h.inStep)

theorem Shown.tracked (hs : s.Shown elapsed t) (h : Tracked past s.machine s.display) :
    Tracked (past ++ [⟨s.executed elapsed,
      t.display.frames.toList.drop s.display.frames.size⟩]) t.machine t.display := by
  have hframes := hs.frames_eq
  cases hmark : s.marked elapsed with
  | false =>
      rw [hmark] at hframes
      have hin := hs.frame_eq hmark _ h.inStep
      exact tracked_of_frames_eq h hframes (hs.redraw_eq.trans hmark.symm) (.inr hin)
  | true =>
      rw [hmark] at hframes
      have hone : t.display.frames.toList.drop s.display.frames.size =
          [t.machine.state.frame] := by
        rw [hframes, if_pos rfl, Array.toList_push]
        exact List.drop_left
      rw [hone]
      refine ⟨.inr ?_, ?_, ?_⟩
      · rw [Recorder.last, hframes, if_pos rfl, Array.back?_push]
        rfl
      · rw [sinceRendered_concat, hs.redraw_eq]
        rfl
      · refine h.sparing.concat (Nat.le_refl 1) fun _ => ?_
        rw [marked_eq h] at hmark
        exact List.any_eq_true.mp hmark

variable [Display δ]

/-- **One more frame.** -/
theorem tracked_frame (h : Tracked past s.machine s.display) (elapsed : Nat) :
    Tracked (past ++ [s.frameLog elapsed]) (s.frame elapsed).1.machine
      (s.frame elapsed).1.display := by
  have hended := s.ended elapsed
  rw [frameLog]
  generalize (s.frame elapsed).1 = t at hended ⊢
  generalize (s.frame elapsed).2 = e at hended
  cases hended with
  | silent hs he hquit => exact hs.tracked h
  | shown hs => exact hs.tracked h

/-- **A whole run**, by induction on the frames that it may still go through. -/
theorem tracked_frames (pacing : Pacing) (n : Nat) (h : Tracked past s.machine s.display) :
    Tracked (past ++ s.log pacing n) (s.frames pacing n).1.machine
      (s.frames pacing n).1.display := by
  induction n generalizing past s with
  | zero =>
      rw [log, List.append_nil]
      exact h
  | succ n ih =>
      have hframe := tracked_frame h (pacing s.count)
      rw [frames_succ, log]
      rcases hnext : s.frame (pacing s.count) with ⟨t, _ | e⟩
      · rw [hnext] at hframe
        have hrest := ih hframe
        rw [List.append_assoc] at hrest
        exact hrest
      · rw [hnext] at hframe
        exact hframe

/-- A run that ends well leaves no mark, if it began with none or went through a frame. -/
theorem redraw_frames (pacing : Pacing) (n : Nat) (s : Session ι (Recorder δ))
    (hok : (s.frames pacing n).2 = .quit ∨ (s.frames pacing n).2 = .halted ∨
      (s.frames pacing n).2 = .frameLimit)
    (hbegin : s.machine.state.redraw = false ∨ s.count < (s.frames pacing n).1.count ∨
      (s.frames pacing n).2 = .halted) :
    (s.frames pacing n).1.machine.state.redraw = false := by
  induction n generalizing s with
  | zero =>
      rcases hbegin with hclear | hcount | hhalted
      · exact hclear
      · exact (Nat.lt_irrefl _ hcount).elim
      · cases hhalted
  | succ n ih =>
      have hended := s.ended (pacing s.count)
      rw [frames_succ] at hok hbegin ⊢
      generalize (s.frame (pacing s.count)).1 = t at hended hok hbegin ⊢
      generalize (s.frame (pacing s.count)).2 = e at hended hok hbegin ⊢
      cases hended with
      | shown hs =>
          cases e with
          | some e => exact hs.redraw_eq
          | none => exact ih t hok (.inl hs.redraw_eq)
      | @silent e hs he hquit =>
          have hclear : s.machine.state.redraw = false := by
            rcases hbegin with hclear | hcount | hhalted
            · exact hclear
            · exact (Nat.ne_of_gt hcount hs.count_eq).elim
            · exact (he.1 hhalted).elim
          rcases hok with hq | hh | hl
          · show t.machine.state.redraw = false
            rw [hs.redraw_eq, marked, hquit hq, hclear]
            rfl
          · exact (he.1 hh).elim
          · exact (he.2 hl).elim

end Session

/-! ### One run after the other -/

variable [Input ι] [Display δ]

/-- Runs one after the other with one machine, one input and one display, each at its own speed, pacing
and limit, with the log of all their frames. A run without a limit that ends is one with a limit that
it does not reach (`Session.finish?`). -/
inductive Runs (m : Machine) (input : ι) (display : Recorder δ) :
    List FrameLog → Machine → ι → Recorder δ → Prop
  | none : Runs m input display [] m input display
  | next {past : List FrameLog} {m' : Machine} {input' : ι} {display' : Recorder δ}
      {t : Session ι (Recorder δ)} {e : Exit} (h : Runs m input display past m' input' display')
      (speed : Nat) (pacing : Pacing) (n : Nat) (journal : Journal)
      (hrun : (Session.start speed m' input' display' journal).frames pacing n = (t, e)) :
      Runs m input display
        (past ++ (Session.start speed m' input' display' journal).log pacing n)
        t.machine t.input t.display

section

variable {m m' : Machine} {input input' : ι} {display display' : Recorder δ}
  {past : List FrameLog}

theorem Runs.tracked (h : Runs m input display past m' input' display')
    (hclear : m.state.redraw = false) (hlast : display.last = m.state.frame) :
    Tracked past m' display' := by
  induction h with
  | none => exact ⟨.inr hlast.symm, hclear, sparing_nil⟩
  | @next past m' input' display' t e h speed pacing n journal hrun ih =>
      have hframes := Session.tracked_frames (s := Session.start speed m' input' display' journal)
        pacing n ih
      rw [hrun] at hframes
      exact hframes

/-- **Runs keep the display in step.** Let a machine have no redraw mark and the frame that the display
was given last, and let any runs go before. However a run ends, the display was last given the frame
of the machine, or the mark is still set. If the run ends well, and began without a mark or went
through a frame or halted, the display was given that frame. In all frames of these runs the display
was given one frame at most, and only after an instruction that draws was executed since the frame
before. The recorder takes no part in this, and the display need not be able to show every frame. -/
theorem runs_keep_in_step (hclear : m.state.redraw = false) (hlast : display.last = m.state.frame)
    (hruns : Runs m input display past m' input' display') (speed : Nat) (pacing : Pacing) (n : Nat)
    (journal : Journal) {t : Session ι (Recorder δ)} {e : Exit}
    (hrun : (Session.start speed m' input' display' journal).frames pacing n = (t, e)) :
    (Session.start speed m' input' display'.display journal).frames pacing n = (t.unrecorded, e) ∧
    (t.display.last = t.machine.state.frame ∨ t.machine.state.redraw = true) ∧
    (e = .quit ∨ e = .halted ∨ e = .frameLimit →
      m'.state.redraw = false ∨ 0 < t.count ∨ e = .halted →
      t.display.last = t.machine.state.frame) ∧
    ∀ earlier f later,
      past ++ (Session.start speed m' input' display' journal).log pacing n =
        earlier ++ f :: later →
      f.rendered.length ≤ 1 ∧
        (f.rendered ≠ [] → ∃ ins ∈ sinceRendered earlier ++ f.executed, ins.draws = true) := by
  have htracked := (hruns.next speed pacing n journal hrun).tracked hclear hlast
  have hredraw := Session.redraw_frames pacing n (Session.start speed m' input' display' journal)
  have hplain := Session.frames_unrecorded pacing n (Session.start speed m' input' display' journal)
  rw [hrun] at hredraw hplain
  refine ⟨hplain, ?_, ?_, htracked.sparing⟩
  · rcases htracked.inStep with hmark | hframe
    · exact .inr hmark
    · exact .inl hframe.symm
  · intro hok hbegin
    rcases htracked.inStep with hmark | hframe
    · rw [hredraw hok hbegin] at hmark
      cases hmark
    · exact hframe.symm

end

/-- A program that draws a digit and then goes around in a loop. -/
def digit : Machine := (Machine.ofSeed 0).run [.load [0xF0, 0x29, 0xD0, 0x15, 0x12, 0x04]]

/-- The user stops in the second frame. -/
def stopInSecond : Script := { pending := [(1, .quit)] }

/-- A run of one frame, in which the digit is drawn. -/
def digitDrawn : Session Script (Recorder Discard) × Exit :=
  (Session.start 120 digit stopInSecond { display := {} } {}).frames .simulated 1

/-- The run after it, which the user stops. -/
def digitLeft : Session Script (Recorder Discard) × Exit :=
  (Session.start 120 digitDrawn.1.machine digitDrawn.1.input digitDrawn.1.display {}).frames
    .simulated 5

theorem digitLeft_eq : digitLeft.2 = .quit ∧ digitLeft.1.display.frames.size = 1 ∧
    digit.state.redraw = false ∧ digitDrawn.1.machine.state.redraw = false := by
  decide +kernel

/-- The digit was shown once, and it is what the machine has at the end. -/
theorem digit_in_step : digitLeft.2 = .quit ∧ digitLeft.1.display.frames.size = 1 ∧
    digitLeft.1.display.last = digitLeft.1.machine.state.frame := by
  obtain ⟨hquit, hsize, hclear, hmark⟩ := digitLeft_eq
  have hblank : digit.state.frame = Frame.blank :=
    (Machine.start_hides_frame (Machine.ofSeed 0) (by decide)).2
  have hlast : ({ display := Discard.mk } : Recorder Discard).last = digit.state.frame :=
    hblank.symm
  have hfirst : (Session.start 120 digit stopInSecond { display := Discard.mk } {}).frames
      .simulated 1 = (digitDrawn.1, digitDrawn.2) := by
    unfold digitDrawn
    exact (Prod.eta _).symm
  have hsecond : (Session.start 120 digitDrawn.1.machine digitDrawn.1.input digitDrawn.1.display
      {}).frames .simulated 5 = (digitLeft.1, digitLeft.2) := by
    unfold digitLeft
    exact (Prod.eta _).symm
  have hruns := Runs.none.next 120 .simulated 1 {} hfirst
  have hstep := runs_keep_in_step hclear hlast hruns 120 .simulated 5 {} hsecond
  exact ⟨hquit, hsize, hstep.2.2.1 (.inl hquit) (.inl hmark)⟩

end ChipEight
