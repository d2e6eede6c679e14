import ChipEight.Proofs.Machine.Standstill
import ChipEight.Proofs.Machine.Executed

/-!
# What the timers show

Each of the two timers is set by one instruction and counted down by the host, and nothing else
reaches it. So what it shows is what it was last set to, less the counts since, but not below zero,
however steps, counts, keys and frames are interleaved.

* `Timer` — the delay timer and the sound timer, with what shows and what sets them;
* `Timer.read_apply`, `Timer.read_run` — a timer after operations that do not set it;
* `Timer.LastSet` — what a timer was last set to in a history, and what was done since;
* `timer_law` — both timers in every history, the instruction that reads one, and the steps that
  run nothing.
-/

namespace ChipEight

/-- The two timers. -/
inductive Timer where
  | delay
  | sound
deriving DecidableEq, Repr

namespace Timer

/-- What a timer shows. -/
def read : Timer → State → UInt8
  | .delay, s => s.delay
  | .sound, s => s.sound

/-- The register from which an instruction sets a timer, if it sets it. -/
def source? : Timer → Instruction → Option UInt8
  | .delay, .setDelay x => some x
  | .sound, .setSound x => some x
  | _, _ => none

/-- A history does not set a timer. -/
def Unset (t : Timer) (m : Machine) (ops : List Operation) : Prop :=
  ∀ ins ∈ m.ran ops, t.source? ins = none

instance (t : Timer) (m : Machine) (ops : List Operation) : Decidable (t.Unset m ops) :=
  inferInstanceAs (Decidable (∀ ins ∈ m.ran ops, t.source? ins = none))

/-- What a timer was last set to in a history, and what was done since: the value of the register at
that moment, or what the timer showed at the start if it was not set. -/
inductive LastSet (t : Timer) (m : Machine) : List Operation → UInt8 → List Operation → Prop
  | never {ops : List Operation} (hafter : t.Unset m ops) : LastSet t m ops (t.read m.state) ops
  | set {before after : List Operation} {ins : Instruction} {x : UInt8}
      (hrun : (m.run before).executed? = some ins) (hset : t.source? ins = some x)
      (hafter : t.Unset (m.run before).step.1 after) :
      LastSet t m (before ++ .step :: after) ((m.run before).state.reg x) after

variable {t : Timer} {m : Machine} {op : Operation} {ops since : List Operation} {v : UInt8}

/-! ### One operation -/

/-- Instructions reach a timer only to set it. -/
theorem read_perform (t : Timer) (s : State) (g : Generator) (ins : Instruction) :
    t.read (s.perform g ins) = match t.source? ins with
      | some x => s.reg x
      | none => t.read s := by
  cases ins with
  | loadRegisters x =>
      rw [State.perform, State.setRegisters_eq]
      cases t <;> simp only [read, source?]
  | _ => cases t <;> rfl

theorem read_step (t : Timer) (m : Machine) :
    t.read m.step.1.state = match m.executed?.bind t.source? with
      | some x => m.state.reg x
      | none => t.read m.state := by
  rw [Machine.step_part t.read (fun s pc => by cases t <;> rfl) m]
  cases m.executed? with
  | none => rfl
  | some ins => exact read_perform t m.state m.generator ins

/-- A step that runs no instruction leaves the timers alone. -/
theorem read_step_of_not_executed (h : m.executed? = none) :
    t.read m.step.1.state = t.read m.state := by
  rw [read_step, h]
  rfl

theorem toNat_read_tick (t : Timer) (s : State) : (t.read s.tick).toNat = (t.read s).toNat - 1 := by
  have hdown : ∀ b : UInt8, (if b = 0 then 0 else b - 1).toNat = b.toNat - 1 := by
    intro b
    split
    · rename_i hzero
      rw [hzero]
      rfl
    · rename_i hpos
      have hb : b.toNat ≠ 0 := fun h => hpos (UInt8.toNat_inj.mp h)
      have hle : (1 : UInt8) ≤ b := UInt8.le_iff_toNat_le.mpr (Nat.one_le_iff_ne_zero.mpr hb)
      exact UInt8.toNat_sub_of_le _ _ hle
  cases t <;> exact hdown _

theorem read_keyEvent (t : Timer) (m : Machine) (k : UInt8) (down : Bool) :
    t.read (m.keyEvent k down).state = t.read m.state := by
  rw [Machine.keyEvent_state]
  unfold State.receive
  split <;> cases t <;> rfl

/-- **A timer after one operation that does not set it.** -/
theorem read_apply (hop : op.Continues) (h : (m.runs? op).bind t.source? = none) :
    (t.read (m.apply op).1.state).toNat = (t.read m.state).toNat - [op].count .tick := by
  cases op with
  | load program =>
      simp only [Machine.apply, Machine.load_of_too_large m hop]
      rfl
  | reset => exact hop.elim
  | step =>
      show (t.read m.step.1.state).toNat = _
      rw [read_step, show m.executed?.bind t.source? = none from h]
      rfl
  | tick => exact toNat_read_tick t m.state
  | key k down =>
      show (t.read (m.keyEvent k down).state).toNat = _
      rw [read_keyEvent]
      rfl
  | isPressed k => rfl
  | current => rfl
  | takeFrame =>
      show (t.read m.takeFrame.1.state).toNat = _
      rw [Machine.takeFrame_eq]
      cases t <;> rfl

/-! ### Histories -/

/-- **A timer after a history that does not set it**, by induction on the history. -/
theorem read_run (hops : ∀ op ∈ ops, op.Continues) (h : t.Unset m ops) :
    (t.read (m.run ops).state).toNat = (t.read m.state).toNat - ops.count .tick := by
  induction ops generalizing m with
  | nil => rfl
  | cons op ops ih =>
      obtain ⟨hfirst, hrest⟩ := Machine.forall_ran_cons.mp h
      have hone := read_apply (hops op List.mem_cons_self) (Option.bind_eq_none_iff.mpr hfirst)
      have hsplit : (op :: ops).count .tick = [op].count .tick + ops.count .tick := by
        rw [← List.count_append, List.singleton_append]
      have hmore := ih (fun op' hmem => hops op' (List.mem_cons_of_mem op hmem)) hrest
      rw [Machine.run_cons, hmore, hone, hsplit, Nat.sub_sub]

theorem unset_concat : t.Unset m (ops ++ [op]) ↔
    t.Unset m ops ∧ ((m.run ops).runs? op).bind t.source? = none := by
  rw [Unset, Machine.ran_concat, List.forall_mem_append, Option.bind_eq_none_iff]
  simp only [Option.mem_toList, Unset]

/-- One more operation that does not set a timer is done since. -/
theorem LastSet.concat (h : t.LastSet m ops v since)
    (hop : ((m.run ops).runs? op).bind t.source? = none) :
    t.LastSet m (ops ++ [op]) v (since ++ [op]) := by
  cases h with
  | never hafter => exact .never (unset_concat.mpr ⟨hafter, hop⟩)
  | set hrun hset hafter =>
      rw [Machine.run_around_step] at hop
      rw [List.append_assoc, List.cons_append]
      exact .set hrun hset (unset_concat.mpr ⟨hafter, hop⟩)

/-- **In every history a timer was set last somewhere**, or never. -/
theorem exists_lastSet (t : Timer) (m : Machine) (ops : List Operation) :
    ∃ v since, t.LastSet m ops v since := by
  -- from the end: the last operation sets the timer, or is one more that was done since
  induction ops using List.reverseRecOn with
  | nil => exact ⟨_, _, .never fun ins hmem => by cases hmem⟩
  | append_singleton ops op ih =>
      cases hset : ((m.run ops).runs? op).bind t.source? with
      | none =>
          obtain ⟨v, since, h⟩ := ih
          exact ⟨v, since ++ [op], h.concat hset⟩
      | some x =>
          obtain ⟨ins, hrun, hsource⟩ := Option.bind_eq_some_iff.mp hset
          cases op with
          | step => exact ⟨_, [], .set hrun hsource fun ins hmem => by cases hmem⟩
          | _ => cases hrun

/-- **A timer after a history**: what it was last set to, less the counts since. -/
theorem LastSet.toNat_read (h : t.LastSet m ops v since) (hops : ∀ op ∈ ops, op.Continues) :
    (t.read (m.run ops).state).toNat = v.toNat - since.count .tick := by
  cases h with
  | never hafter => exact read_run hops hafter
  | @set before since ins x hrun hset hafter =>
      have hstart : t.read (m.run before).step.1.state = (m.run before).state.reg x := by
        rw [read_step, hrun, Option.bind_some, hset]
      have hrest : ∀ op ∈ since, op.Continues := fun op hmem =>
        hops op (List.mem_append_right before (List.mem_cons_of_mem _ hmem))
      rw [Machine.run_around_step, read_run hrest hafter, hstart]

end Timer

namespace Machine

variable {m : Machine} {ops : List Operation} {x : UInt8}

/-- The instruction that reads the delay timer. -/
theorem step_v_readDelay (h : m.executed? = some (.readDelay x)) :
    m.step.1.state.v = (m.state.setReg x m.state.delay).v := by
  rw [step_of_executed h]
  rfl

/-- **The law of the timers.** In every history that continues a program, each timer was last set
somewhere, or never, and it shows what it was set to less the counts since, but not below zero. The
tone sounds exactly while the sound timer is positive by this law, the instruction that reads the
delay timer puts this value into its register, and a step that waits, meets a fault or is past the
end of memory changes neither timer. -/
theorem timer_law (m : Machine) (hops : ∀ op ∈ ops, op.Continues) :
    (∀ t : Timer, (∃ v since, t.LastSet m ops v since) ∧
      ∀ v since, t.LastSet m ops v since →
        (t.read (m.run ops).state).toNat = v.toNat - since.count .tick) ∧
    (∀ v since, Timer.sound.LastSet m ops v since →
      ((m.run ops).soundActive = true ↔ 0 < v.toNat - since.count .tick)) ∧
    (∀ v since, Timer.delay.LastSet m ops v since →
      ∀ x, (m.run ops).executed? = some (.readDelay x) →
        (m.run ops).step.1.state.v =
          ((m.run ops).state.setReg x (UInt8.ofNat (v.toNat - since.count .tick))).v) ∧
    (((m.run ops).step.2 = .awaitingKey ∨ (∃ f, (m.run ops).step.2 = .faulted f) ∨
        lastInstruction < (m.run ops).state.pc) →
      ∀ t : Timer, t.read (m.run ops).step.1.state = t.read (m.run ops).state) := by
  refine ⟨fun t => ⟨t.exists_lastSet m ops, fun v since h => h.toNat_read hops⟩, ?_, ?_, ?_⟩
  · intro v since h
    rw [← h.toNat_read hops, soundActive, decide_eq_true_iff]
    exact UInt8.lt_iff_toNat_lt
  · intro v since h x hrun
    rw [← h.toNat_read hops, UInt8.ofNat_toNat]
    exact step_v_readDelay hrun
  · intro hidle t
    exact Timer.read_step_of_not_executed (executed?_eq_none_of_idle hidle)

/-- A program that sets the delay timer to three, then the sound timer, and then reads the first,
before its first step. -/
def timed : Machine :=
  (ofSeed 0).run [.load [0x60, 0x03, 0xF0, 0x15, 0xF0, 0x18, 0xF1, 0x07]]

/-- What is done once the delay timer is set: a count, the step that sets the sound timer, another
count and a key. -/
def sinceTimed : List Operation := [.tick, .step, .tick, .key 2 true]

/-- It reads what is left after two counts. -/
theorem timed_reads_one :
    (timed.run ([.step] ++ .step :: sinceTimed)).state.delay.toNat = 1 ∧
    (timed.run ([.step] ++ .step :: sinceTimed)).step.1.state.v =
      ((timed.run ([.step] ++ .step :: sinceTimed)).state.setReg 1 1).v := by
  have hops : ∀ op ∈ [Operation.step] ++ .step :: sinceTimed, op.Continues := by decide
  obtain ⟨hset, hvalue, hunset, hread⟩ :
      (timed.run [.step]).executed? = some (.setDelay 0) ∧ (timed.run [.step]).state.reg 0 = 3 ∧
      Timer.delay.Unset (timed.run [.step]).step.1 sinceTimed ∧
      (timed.run ([.step] ++ .step :: sinceTimed)).executed? = some (.readDelay 1) := by
    decide +kernel
  have hlast : Timer.delay.LastSet timed ([.step] ++ .step :: sinceTimed) 3 sinceTimed :=
    hvalue ▸ .set hset rfl hunset
  obtain ⟨hlaw, -, hreads, -⟩ := timer_law timed hops
  exact ⟨(hlaw .delay).2 3 sinceTimed hlast, hreads 3 sinceTimed hlast 1 hread⟩

end Machine

end ChipEight
