import ChipEight.CommandLine
import ChipEight.Proofs.Session.InStep
import ChipEight.Proofs.Session.Rendering
import ChipEight.Proofs.Session.Stream

/-!
# The program without a display

Run headless, the program prints one frame, that of the machine when its run is over. A run of the
library with a display shows frames on the way, and the last of them is the same. Every mistake on the
way there is reported and nothing is printed then.

* `recordedRun_last` — the last picture of a run;
* `started`, `Seedless` — a program at its start, and a run of it for which the seed does not matter;
* `shownRun`, `blindRun` — a run with a display and without one, which come to the same;
* `runHeadless_of_run`, `runHeadless_of_fault` — the report of a run;
* `report_of_started` — the report of the program when its file could be loaded;
* `headless_report` — all of it.
-/

namespace ChipEight

theorem Script.ofList_nil : Script.ofList [] = {} := by
  rw [ofList, List.mergeSort_nil]

/-- Nobody wishes to stop in an empty script. -/
theorem Script.calm_empty (k : Nat) : Input.Calm ({} : Script) k := by
  rw [← ofList_nil]
  exact calm_ofList fun i _ => List.not_mem_nil

/-- **The last picture** of a run that ends well is the frame of its machine, if the machine began with
a blank frame that was not drawn on. -/
theorem recordedRun_last {ι δ : Type} [Input ι] [Display δ] {pacing : Pacing} {speed n : Nat}
    {m : Machine} {input : ι} {journal : Journal} {display : δ}
    (hblank : m.state.frame = Frame.blank) (hclear : m.state.redraw = false)
    (hok : (recordedRun pacing speed m input journal display n).2 = .quit ∨
      (recordedRun pacing speed m input journal display n).2 = .halted ∨
      (recordedRun pacing speed m input journal display n).2 = .frameLimit) :
    (recordedRun pacing speed m input journal display n).1.display.last =
      (recordedRun pacing speed m input journal display n).1.machine.state.frame := by
  have hstart : Tracked [] m ({ display := display } : Recorder δ) :=
    ⟨.inr hblank, hclear, sparing_nil⟩
  have htracked := Session.tracked_frames
    (s := Session.start speed m input ({ display := display } : Recorder δ) journal) pacing n hstart
  have hredraw := Session.redraw_frames pacing n
    (Session.start speed m input ({ display := display } : Recorder δ) journal) hok (.inl hclear)
  rcases htracked.inStep with hmark | hframe
  · exact (Bool.false_ne_true (hredraw.symm.trans hmark)).elim
  · exact hframe.symm

namespace CommandLine

/-! ### Programs at their start -/

/-- A machine of a seed on which a program was started. -/
def started (seed : UInt64) (program : List UInt8) : Machine :=
  { Machine.ofSeed seed with program := program }.reset

/-- A program does not run an instruction that takes a random byte in its first frames. -/
def Seedless (speed n : Nat) (m : Machine) : Prop :=
  ∀ ins ∈ m.ran ((Session.start speed m ({} : Script) ({} : Discard) {}).operations .simulated n),
    ins.isRandom = false

variable {program : List UInt8} {seed : UInt64} {m : Machine} {speed n k : Nat} {f : Fault}

theorem load_started (h : program.length ≤ 3583) (seed : UInt64) :
    (Machine.ofSeed seed).load program = .ok (started seed program) :=
  if_neg (Nat.not_lt.mpr h)

/-- Another seed makes for another stream and for nothing else. -/
theorem started_withGenerator (seed seed' : UInt64) (program : List UInt8) :
    started seed' program = (started seed program).withGenerator (Generator.ofSeed seed') := rfl

/-! ### The run -/

/-- The run of a machine on a display that writes every picture and keeps it. -/
def shownRun (speed n : Nat) (m : Machine) : Session Script (Recorder TextSink) × Exit :=
  recordedRun .simulated speed m ({} : Script) {} ({} : TextSink) n

/-- The run of a machine without a display. -/
def blindRun (speed n : Nat) (m : Machine) : Session Script Discard × Exit :=
  (Session.start speed m {} {} {}).frames .simulated n

/-- The report of a run is its last frame, unless something went wrong. -/
theorem runHeadless_eq (speed n : Nat) (m : Machine) :
    runHeadless speed n m = match (blindRun speed n m).2.chain with
      | [] => { code := 0, output := (blindRun speed n m).1.machine.state.frame.text }
      | chain => failure chain := rfl

/-- With and without a display a run comes to the same. -/
theorem shownRun_eq (speed n : Nat) (m : Machine) :
    (shownRun speed n m).2 = (blindRun speed n m).2 ∧
      (shownRun speed n m).1.machine = (blindRun speed n m).1.machine := by
  rw [shownRun, recordedRun_eq .simulated speed m _ _ (TextSink.reliable rfl _)]
  exact ⟨rfl, rfl⟩

/-- Nothing but a fault stops a run before its end. -/
theorem shownRun_exit (speed n : Nat) (m : Machine) :
    (shownRun speed n m).2 = .halted ∨ (shownRun speed n m).2 = .frameLimit ∨
      ∃ k f, (shownRun speed n m).2 = .faulted k f := by
  rw [(shownRun_eq speed n m).1]
  exact Session.exit_of_calm (Script.calm_empty n)

/-- **The report of a run that ends well** is the frame that it leaves. -/
theorem runHeadless_of_run (h : (shownRun speed n m).2 = .halted ∨
      (shownRun speed n m).2 = .frameLimit) :
    runHeadless speed n m =
      { code := 0, output := (shownRun speed n m).1.machine.state.frame.text } := by
  obtain ⟨hexit, hmachine⟩ := shownRun_eq speed n m
  rw [hexit] at h
  rw [runHeadless_eq, hmachine]
  rcases h with h | h
  · rw [h]
    rfl
  · rw [h]
    rfl

/-- **The report of a run that a fault ends** tells the frame and the fault. -/
theorem runHeadless_of_fault (h : (shownRun speed n m).2 = .faulted k f) :
    runHeadless speed n m =
      { code := 1
        errors := Causes.report [s!"program stopped on frame {k}", f.message] } := by
  rw [(shownRun_eq speed n m).1] at h
  rw [runHeadless_eq, h]
  rfl

/-- A run that takes no random byte is reported alike on every stream. -/
theorem runHeadless_withGenerator (h : Seedless speed n m) (g : Generator) :
    runHeadless speed n (m.withGenerator g) = runHeadless speed n m := by
  have hrun : blindRun speed n (m.withGenerator g) =
      ((blindRun speed n m).1.withStream g, (blindRun speed n m).2) :=
    Session.frames_withStream (s := Session.start speed m ({} : Script) ({} : Discard) {}) h
  rw [runHeadless_eq, runHeadless_eq, hrun]
  rfl

/-- A run in which the program halts is the same with a higher limit. -/
theorem blindRun_of_halted (h : (shownRun speed n m).2 = .halted) {n' : Nat} (hn : n ≤ n') :
    blindRun speed n' m = blindRun speed n m := by
  rw [(shownRun_eq speed n m).1] at h
  have hrun : blindRun speed n m = ((blindRun speed n m).1, .halted) := Prod.ext rfl h
  exact (Session.frames_of_le hrun Exit.noConfusion hn).trans hrun.symm

/-- After its program has halted a run takes no random byte. -/
theorem Seedless.of_halted (hseedless : Seedless speed n m)
    (h : (shownRun speed n m).2 = .halted) {n' : Nat} (hn : n ≤ n') : Seedless speed n' m := by
  rw [(shownRun_eq speed n m).1] at h
  have hrun : blindRun speed n m = ((blindRun speed n m).1, .halted) := Prod.ext rfl h
  rw [Seedless, Session.operations_of_le hrun Exit.noConfusion hn]
  exact hseedless

/-! ### The whole program -/

variable {arguments : List String} {settings : Settings} {entropy : UInt64}
  {readFile : String → Except SystemError (List UInt8)}

/-- The seed of a run is the one that was given, or else it does not matter. -/
def SeedFits (settings : Settings) (n : Nat) (program : List UInt8) (seed : UInt64) : Prop :=
  settings.seed.map UInt64.ofNat = some seed ∨
    settings.seed = none ∧ Seedless settings.speed n (started seed program)

/-- **The report of a program that could be loaded** is the report of its run. -/
theorem report_of_started (haccepted : Settings.ofArguments arguments = .ok settings)
    (hheadless : settings.frontend = .headless) (hframes : settings.frames = some n)
    (hread : readFile settings.rom = .ok program) (hsize : program.length ≤ 3583)
    (hseed : SeedFits settings n program seed) :
    report arguments readFile entropy = runHeadless settings.speed n (started seed program) := by
  have hreport : report arguments readFile entropy = runHeadless settings.speed n
      (started ((settings.seed.map UInt64.ofNat).getD entropy) program) := by
    simp only [report, haccepted, machine, hread, load_started hsize, hheadless, hframes]
  rw [hreport]
  rcases hseed with hgiven | ⟨hnone, hseedless⟩
  · rw [hgiven]
    rfl
  · rw [hnone, started_withGenerator seed]
    exact runHeadless_withGenerator hseedless _

/-- **Headless runs of the program.** Let the arguments ask for a run of `n` frames without a display.
If the file cannot be read or is too large, the report tells so. Otherwise take the run of the library
on a display, with the seed that was given, or with any seed if none was given and no random byte is
taken. If a fault ends that run, the report tells so. If not, all that the report has is the text of the
frame that the run leaves, which is the last one that its display was given, and if the program halted
the report is the same for any higher limit. -/
theorem headless_report (haccepted : Settings.ofArguments arguments = .ok settings)
    (hheadless : settings.frontend = .headless) (hframes : settings.frames = some n)
    (readFile : String → Except SystemError (List UInt8)) (entropy : UInt64) :
    (∀ e, readFile settings.rom = .error e →
      report arguments readFile entropy =
        { code := 1
          errors := Causes.report [s!"couldn't read ROM {settings.rom}", e.message] }) ∧
    ∀ program, readFile settings.rom = .ok program →
      (3583 < program.length →
        report arguments readFile entropy =
          { code := 1
            errors := Causes.report [s!"couldn't load {settings.rom}",
              (LoadError.programTooLarge program.length).message] }) ∧
      (program.length ≤ 3583 → ∀ seed, SeedFits settings n program seed →
        (∀ k f, (shownRun settings.speed n (started seed program)).2 = .faulted k f →
          report arguments readFile entropy =
            { code := 1
              errors := Causes.report [s!"program stopped on frame {k}", f.message] }) ∧
        ((∀ k f, (shownRun settings.speed n (started seed program)).2 ≠ .faulted k f) →
          report arguments readFile entropy =
            { code := 0
              output :=
                (shownRun settings.speed n (started seed program)).1.machine.state.frame.text } ∧
          (shownRun settings.speed n (started seed program)).1.display.last =
            (shownRun settings.speed n (started seed program)).1.machine.state.frame) ∧
        ((shownRun settings.speed n (started seed program)).2 = .halted →
          ∀ n' ≥ n, ∀ (arguments' : List String) (entropy' : UInt64),
            Settings.ofArguments arguments' = .ok { settings with frames := some n' } →
            report arguments' readFile entropy' = report arguments readFile entropy)) := by
  refine ⟨?_, fun program hread => ⟨?_, fun hsize seed hseed => ⟨?_, ?_, ?_⟩⟩⟩
  · intro e hread
    simp only [report, haccepted, machine, hread]
    rfl
  · intro hsize
    have hlarge : ∀ seed, (Machine.ofSeed seed).load program =
        .error (.programTooLarge program.length) := fun seed => if_pos hsize
    simp only [report, haccepted, machine, hread, hlarge]
    rfl
  · intro k f hfault
    rw [report_of_started haccepted hheadless hframes hread hsize hseed]
    exact runHeadless_of_fault hfault
  · intro hnone
    have hended : (shownRun settings.speed n (started seed program)).2 = .halted ∨
        (shownRun settings.speed n (started seed program)).2 = .frameLimit := by
      rcases shownRun_exit settings.speed n (started seed program) with h | h | ⟨k, f, h⟩
      · exact .inl h
      · exact .inr h
      · exact (hnone k f h).elim
    rw [report_of_started haccepted hheadless hframes hread hsize hseed]
    exact ⟨runHeadless_of_run hended, recordedRun_last rfl rfl (.inr hended)⟩
  · intro hhalted n' hn arguments' entropy' haccepted'
    have hseed' : SeedFits { settings with frames := some n' } n' program seed :=
      hseed.imp_right fun h => ⟨h.1, h.2.of_halted hhalted hn⟩
    rw [report_of_started haccepted hheadless hframes hread hsize hseed,
      report_of_started haccepted' hheadless rfl hread hsize hseed']
    rw [runHeadless_eq, runHeadless_eq, blindRun_of_halted hhalted hn]

/-- A program that draws a digit and then leaves the memory. -/
def drawnOnce : List UInt8 := [0xF0, 0x29, 0xD0, 0x15, 0x1F, 0xFF]

/-- It takes no random byte and halts. -/
theorem drawnOnce_halts : Seedless defaultSpeed 9 (started 0 drawnOnce) ∧
    (shownRun defaultSpeed 9 (started 0 drawnOnce)).2 = .halted := by
  rw [(shownRun_eq defaultSpeed 9 (started 0 drawnOnce)).1, Seedless]
  decide +kernel

/-- The digit is printed without a seed, and once more with a higher limit. -/
theorem drawnOnce_report :
    report ["game", "--frontend", "headless", "--frames", "9"] (fun _ => .ok drawnOnce) 5 =
      { code := 0
        output :=
          (shownRun defaultSpeed 9 (started 0 drawnOnce)).1.machine.state.frame.text } ∧
    report ["--frames=40", "--frontend=headless", "game"] (fun _ => .ok drawnOnce) 6 =
      report ["game", "--frontend", "headless", "--frames", "9"] (fun _ => .ok drawnOnce) 5 := by
  have haccepted : Settings.ofArguments ["game", "--frontend", "headless", "--frames", "9"] =
      .ok { rom := "game", frontend := .headless, frames := some 9 } := by decide +kernel
  have hmore : Settings.ofArguments ["--frames=40", "--frontend=headless", "game"] =
      .ok { rom := "game", frontend := .headless, frames := some 40 } := by decide +kernel
  obtain ⟨hseedless, hhalted⟩ := drawnOnce_halts
  have hreport := headless_report haccepted rfl rfl (fun _ => .ok drawnOnce) 5
  dsimp only at hreport
  obtain ⟨-, hgood, hlonger⟩ := (hreport.2 drawnOnce rfl).2 (by decide) 0 (.inr ⟨rfl, hseedless⟩)
  have hnone : ∀ k f, (shownRun defaultSpeed 9 (started 0 drawnOnce)).2 ≠ .faulted k f := by
    intro k f hfault
    rw [hhalted] at hfault
    cases hfault
  exact ⟨(hgood hnone).1, hlonger hhalted 40 (by decide) _ 6 hmore⟩

end CommandLine

end ChipEight
