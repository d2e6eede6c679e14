import ChipEight.Keyboard
import ChipEight.Proofs.Machine.KeyEvents
import ChipEight.Proofs.Session.Frame

/-!
# Keyboards and keypads

A keyboard keeps account of the keys that it holds, and a machine that is fed the events of its polls
keeps account of them on the keypad. Both come to the same: whatever is typed and whatever the clock
shows, a key is down on the keypad if and only if the keyboard holds it.

* `isPressed_react`, `isPressed_releases` — what events of keys do to the keypad;
* `Stroke.typed?`, `Stroke.key?`, with `type_eq`, `typeAll_of_no_quit` — what a stroke does, and the
  events of what is typed;
* `Keyboard.Agrees` — the keyboard holds the keys that are down, with one lemma for each part of a
  poll;
* `keyboard_agrees_with_keypad` — any number of polls.
-/

namespace ChipEight

namespace Keyboard

/-! ### Keys on the keypad -/

theorem toNat_number (k : Key) : (UInt8.ofNat k.val).toNat = k.val :=
  UInt8.toNat_ofNat_of_lt' (Nat.lt_trans k.isLt (by decide))

/-- **The event of a key** changes this key alone. -/
theorem isPressed_react (m : Machine) (j k : Key) (down : Bool) :
    (m.react (keyEvent j down)).isPressed (UInt8.ofNat k.val) =
      if j = k then down else m.isPressed (UInt8.ofNat k.val) := by
  have hk : (UInt8.ofNat k.val).toNat < 16 := lt_of_eq_of_lt (toNat_number k) k.isLt
  show (m.keyEvent (UInt8.ofNat j.val) down).isPressed (UInt8.ofNat k.val) = _
  rw [Machine.isPressed_keyEvent hk]
  simp only [← UInt8.toNat_inj, toNat_number, Fin.ext_iff]

/-- The keys that are down after some of them are released. -/
theorem isPressed_releases (m : Machine) (released : List Key) (k : Key) :
    (m.press (released.map fun j => keyEvent j false)).isPressed (UInt8.ofNat k.val) = true ↔
      m.isPressed (UInt8.ofNat k.val) = true ∧ k ∉ released := by
  induction released generalizing m with
  | nil => exact (and_iff_left List.not_mem_nil).symm
  | cons j released ih =>
      have hrest := ih (m.react (keyEvent j false))
      rw [isPressed_react] at hrest
      refine hrest.trans ?_
      by_cases hj : j = k
      · subst hj
        simp only [if_true, Bool.false_eq_true, false_and, List.mem_cons, true_or,
          not_true_eq_false, and_false]
      · simp only [if_neg hj, List.mem_cons, Ne.symm hj, false_or]

end Keyboard

/-! ### What is typed -/

/-- The event of a stroke that does not ask to stop. -/
def Stroke.event? (s : Stroke) : Option Event :=
  match s.code with
  | .char c => (Keyboard.keyOf? c).map fun k => Keyboard.keyEvent k (s.action ≠ .release)
  | _ => none

/-- The event of a stroke. -/
def Stroke.typed? (s : Stroke) : Option Event := if s.isQuit then some .quit else s.event?

/-- The key of the keypad that a stroke is of. -/
def Stroke.key? (s : Stroke) : Option Key :=
  if s.isQuit then none
  else
    match s.code with
    | .char c => Keyboard.keyOf? c
    | _ => none

namespace Keyboard

variable {b : Keyboard} {m : Machine}

/-- A keyboard and a machine that agree on which keys are down. -/
def Agrees (b : Keyboard) (m : Machine) : Prop :=
  ∀ k : Key, m.isPressed (UInt8.ofNat k.val) = (b.held.get k).isSome

/-- To hold a key or to let go of it is to press or to release it on the keypad. -/
theorem Agrees.set (h : b.Agrees m) (k : Key) (since : Option Nat) :
    Agrees { b with held := b.held.set k.val since k.isLt }
      (m.react (keyEvent k since.isSome)) := by
  intro j
  have hset : (b.held.set k.val since k.isLt).get j = if k.val = j.val then since else b.held.get j :=
    Vector.getElem_set k.isLt j.isLt
  show _ = ((b.held.set k.val since k.isLt).get j).isSome
  rw [isPressed_react, h j, hset]
  simp only [Fin.ext_iff]
  split <;> rfl

/-- A stroke changes what is known of its key, if it has one. -/
theorem type_eq (b : Keyboard) (time : Nat) (s : Stroke) : b.type time s =
    (s.key?.elim b fun k =>
      { b with held := b.held.set k.val (if s.action = .release then none else some time) k.isLt },
      s.typed?) := by
  rw [type, Stroke.key?, Stroke.typed?, Stroke.event?]
  by_cases hquit : s.isQuit = true
  · rw [if_pos hquit, if_pos hquit, if_pos hquit]
    rfl
  · rw [if_neg hquit, if_neg hquit, if_neg hquit]
    cases s.code with
    | char c =>
        dsimp only
        cases keyOf? c with
        | none => rfl
        | some k => cases s.action <;> rfl
    | escape => rfl
    | other => rfl

theorem type_of_quit {s : Stroke} (h : s.isQuit = true) (b : Keyboard) (time : Nat) :
    b.type time s = (b, some .quit) := by
  rw [type, if_pos h]

/-- **What a stroke does** that does not ask to stop. -/
theorem type_of_not_quit {s : Stroke} (h : ¬ s.isQuit = true) (b : Keyboard) (time : Nat) :
    (b.type time s).2 = s.event? ∧ (b.type time s).1.reportsReleases = b.reportsReleases ∧
      ∀ m : Machine, b.Agrees m → (b.type time s).1.Agrees (m.press s.event?.toList) := by
  have hevent : s.event? = s.key?.map fun k => keyEvent k (s.action ≠ .release) := by
    rw [Stroke.event?, Stroke.key?, if_neg h]
    cases s.code <;> rfl
  rw [type_eq, Stroke.typed?, if_neg h, hevent]
  cases s.key? with
  | none => exact ⟨rfl, rfl, fun _ hm => hm⟩
  | some k =>
      cases s.action with
      | press => exact ⟨rfl, rfl, fun m hm => hm.set k (some time)⟩
      | hold => exact ⟨rfl, rfl, fun m hm => hm.set k (some time)⟩
      | release => exact ⟨rfl, rfl, fun m hm => hm.set k none⟩

/-- **What some strokes do** of which none asks to stop. -/
theorem typeAll_of_no_quit {strokes : List (Nat × Stroke)}
    (hquit : Event.quit ∉ (b.typeAll strokes).2) :
    (b.typeAll strokes).2 = strokes.filterMap (fun s => s.2.event?) ∧
      (b.typeAll strokes).1.reportsReleases = b.reportsReleases ∧
      ∀ m : Machine, b.Agrees m → (b.typeAll strokes).1.Agrees (m.press (b.typeAll strokes).2) := by
  induction strokes generalizing b with
  | nil => exact ⟨rfl, rfl, fun _ hm => hm⟩
  | cons stroke strokes ih =>
      obtain ⟨time, s⟩ := stroke
      have htype : b.typeAll ((time, s) :: strokes) = (((b.type time s).1.typeAll strokes).1,
          (b.type time s).2.toList ++ ((b.type time s).1.typeAll strokes).2) := rfl
      rw [htype, List.mem_append, not_or] at hquit
      have hs : ¬ s.isQuit = true := fun hs => by
        rw [type_of_quit hs] at hquit
        exact hquit.1 (List.mem_singleton.mpr rfl)
      obtain ⟨hevent, hreports, hagrees⟩ := type_of_not_quit hs b time
      obtain ⟨hevents, hreports', hagrees'⟩ := ih hquit.2
      rw [htype]
      refine ⟨?_, hreports'.trans hreports, fun m hm => ?_⟩
      · rw [hevent, hevents, List.filterMap_cons]
        cases s.event? <;> rfl
      · rw [Machine.press_append, hevent]
        exact hagrees' _ (hagrees m hm)

/-! ### Keys that are let go of -/

/-- The keys that have been down for long enough. -/
def stale (b : Keyboard) (clock : Key → Nat) : List Key :=
  (List.finRange registerCount).filter fun k => b.isStale (clock k) k

theorem mem_stale {clock : Key → Nat} {k : Key} :
    k ∈ b.stale clock ↔ b.isStale (clock k) k = true := by
  rw [stale, List.mem_filter]
  exact and_iff_right (List.mem_finRange k)

theorem nodup_stale (b : Keyboard) (clock : Key → Nat) : (b.stale clock).Nodup :=
  (List.nodup_finRange registerCount).filter _

/-- A key has been down for long enough only if it is held. -/
theorem isSome_of_isStale {now : Nat} {k : Key} (h : b.isStale now k = true) :
    (b.held.get k).isSome = true := by
  unfold isStale at h
  split at h
  · rename_i since hheld
    exact Option.isSome_iff_exists.mpr ⟨since, hheld⟩
  · cases h

theorem releaseStale_reports (b : Keyboard) (clock : Key → Nat) :
    (b.releaseStale clock).1.reportsReleases = b.reportsReleases := by
  simp only [releaseStale]

theorem releaseStale_events (b : Keyboard) (clock : Key → Nat) :
    (b.releaseStale clock).2 = (b.stale clock).map fun k => keyEvent k false := rfl

theorem held_releaseStale (b : Keyboard) (clock : Key → Nat) (k : Key) :
    (b.releaseStale clock).1.held.get k =
      if b.isStale (clock k) k then none else b.held.get k :=
  Vector.getElem_ofFn k.isLt

theorem Agrees.releaseStale (h : b.Agrees m) (clock : Key → Nat) :
    (b.releaseStale clock).1.Agrees (m.press (b.releaseStale clock).2) := by
  intro k
  rw [releaseStale_events, held_releaseStale, Bool.eq_iff_iff, isPressed_releases, h k, mem_stale]
  by_cases hk : b.isStale (clock k) k = true
  · simp only [hk, not_true_eq_false, and_false, if_true, Option.isSome_none, Bool.false_eq_true]
  · simp only [hk, not_false_eq_true, and_true, Bool.false_eq_true, if_false]

/-- **A key is let go of while it is down**, whichever keys were let go of before it. -/
theorem Agrees.isPressed_of_stale (h : b.Agrees m) {clock : Key → Nat} {first rest : List Key}
    {k : Key} (hstale : b.stale clock = first ++ k :: rest) :
    (m.press (first.map fun j => keyEvent j false)).isPressed (UInt8.ofNat k.val) = true := by
  have hmem : k ∈ b.stale clock := by
    rw [hstale]
    exact List.mem_append_right _ List.mem_cons_self
  have hfresh : k ∉ first := by
    have hnodup : (first ++ k :: rest).Nodup := hstale ▸ nodup_stale b clock
    exact fun hk => (List.nodup_append.mp hnodup).2.2 k hk k List.mem_cons_self rfl
  rw [isPressed_releases, h k]
  exact ⟨isSome_of_isStale (mem_stale.mp hmem), hfresh⟩

/-! ### Polls -/

/-- **What one poll does** in which nobody asks to stop. -/
theorem pollBy_of_no_quit {b' : Keyboard} {strokes : List (Nat × Stroke)} {clock : Key → Nat}
    {events : List Event} (hpoll : b.pollBy strokes clock = (b', events))
    (hquit : Event.quit ∉ events) :
    b'.reportsReleases = b.reportsReleases ∧
    ∃ released : List Key,
      events = strokes.filterMap (fun s => s.2.event?) ++
        released.map (fun k => keyEvent k false) ∧
      (b.reportsReleases = true → released = []) ∧
      ∀ m : Machine, b.Agrees m → b'.Agrees (m.press events) ∧
        ∀ first k rest, released = first ++ k :: rest →
          (m.press (strokes.filterMap (fun s => s.2.event?) ++
            first.map fun j => keyEvent j false)).isPressed (UInt8.ofNat k.val) = true := by
  have htyped : Event.quit ∉ (b.typeAll strokes).2 := by
    intro hmem
    simp only [pollBy] at hpoll
    split at hpoll
    · cases hpoll
      exact hquit hmem
    · cases hpoll
      exact hquit (List.mem_append_left _ hmem)
  obtain ⟨htypes, hreports, hagrees⟩ := typeAll_of_no_quit htyped
  simp only [pollBy, hreports] at hpoll
  cases hreport : b.reportsReleases with
  | true =>
      rw [hreport, if_pos rfl] at hpoll
      cases hpoll
      refine ⟨hreports.trans hreport, [], ?_, fun _ => rfl, fun m hm => ⟨hagrees m hm, ?_⟩⟩
      · rw [htypes, List.map_nil, List.append_nil]
      · intro first k rest hnil
        exact (List.append_ne_nil_of_right_ne_nil first (List.cons_ne_nil k rest) hnil.symm).elim
  | false =>
      rw [hreport, if_neg Bool.false_ne_true] at hpoll
      cases hpoll
      refine ⟨?_, (b.typeAll strokes).1.stale clock, ?_,
        fun h => (Bool.false_ne_true h).elim, fun m hm => ⟨?_, ?_⟩⟩
      · rw [releaseStale_reports, hreports, hreport]
      · rw [htypes, releaseStale_events]
      · rw [Machine.press_append]
        exact (hagrees m hm).releaseStale clock
      · intro first k rest hstale
        rw [Machine.press_append, ← htypes]
        exact (hagrees m hm).isPressed_of_stale hstale

/-- The events of several polls, each with its strokes and what the clock shows, and the keyboard after
them. -/
def pollAll (b : Keyboard) : List (List (Nat × Stroke) × (Key → Nat)) → Keyboard × List Event
  | [] => (b, [])
  | (strokes, clock) :: polls =>
    match b.pollBy strokes clock with
    | (b, events) =>
      match b.pollAll polls with
      | (b, later) => (b, events ++ later)

/-- **What several polls do** in which nobody asks to stop. -/
theorem pollAll_of_no_quit {b' : Keyboard} {polls : List (List (Nat × Stroke) × (Key → Nat))}
    {events : List Event} (hpolls : b.pollAll polls = (b', events)) (hquit : Event.quit ∉ events)
    (hm : b.Agrees m) : b'.reportsReleases = b.reportsReleases ∧ b'.Agrees (m.press events) := by
  induction polls generalizing b m events with
  | nil =>
      cases hpolls
      exact ⟨rfl, hm⟩
  | cons poll polls ih =>
      obtain ⟨strokes, clock⟩ := poll
      rcases hpoll : b.pollBy strokes clock with ⟨b₁, first⟩
      rcases hrest : b₁.pollAll polls with ⟨b₂, later⟩
      simp only [pollAll, hpoll, hrest] at hpolls
      cases hpolls
      rw [List.mem_append, not_or] at hquit
      obtain ⟨hreports, released, -, -, hstep⟩ := pollBy_of_no_quit hpoll hquit.1
      obtain ⟨hreports', hagrees⟩ := ih hrest hquit.2 (hstep m hm).1
      rw [Machine.press_append]
      exact ⟨hreports'.trans hreports, hagrees⟩

end Keyboard

/-- **Keyboards agree with keypads.** Let a keyboard that holds no key be polled several times, with any
strokes at any times and whatever the clock shows, and let a machine whose keys are all up be fed the
events, among which is none that asks to stop. After each poll a key is down on the keypad if and only
if the keyboard holds it. The events of a poll are those of its strokes, in order, and then releases of
keys that are down just before; where the terminal tells of releases there are none of these. -/
theorem keyboard_agrees_with_keypad (reports : Bool) (m : Machine)
    (hm : ∀ k : Key, m.isPressed (UInt8.ofNat k.val) = false)
    (polls : List (List (Nat × Stroke) × (Key → Nat))) (strokes : List (Nat × Stroke))
    (clock : Key → Nat) {b b' : Keyboard} {before events : List Event}
    (hbefore : Keyboard.pollAll { reportsReleases := reports } polls = (b, before))
    (hpoll : b.pollBy strokes clock = (b', events))
    (hquit : Event.quit ∉ before ++ events) :
    (∀ k : Key, ((m.feed before).1.feed events).1.isPressed (UInt8.ofNat k.val) =
      (b'.held.get k).isSome) ∧
    ∃ released : List Key,
      events = strokes.filterMap (fun s => s.2.event?) ++
        released.map (fun k => Keyboard.keyEvent k false) ∧
      (reports = true → released = []) ∧
      ∀ first k rest, released = first ++ k :: rest →
        (((m.feed before).1.feed (strokes.filterMap (fun s => s.2.event?) ++
          first.map fun j => Keyboard.keyEvent j false)).1.isPressed (UInt8.ofNat k.val) = true) := by
  rw [List.mem_append, not_or] at hquit
  have hstart : Keyboard.Agrees { reportsReleases := reports } m := fun k => by
    have hnone : ({ reportsReleases := reports } : Keyboard).held.get k = none :=
      Vector.getElem_replicate k.isLt
    rw [hm k, hnone]
    rfl
  obtain ⟨hreports, hagrees⟩ := Keyboard.pollAll_of_no_quit hbefore hquit.1 hstart
  obtain ⟨-, released, hevents, hnone, hstep⟩ := Keyboard.pollBy_of_no_quit hpoll hquit.2
  obtain ⟨hagrees', hdown⟩ := hstep _ hagrees
  rw [Machine.feed_of_no_quit hquit.1, Machine.feed_of_no_quit hquit.2]
  refine ⟨hagrees', released, hevents, fun h => hnone (hreports.trans h), ?_⟩
  intro first k rest hreleased
  have hfront : Event.quit ∉ strokes.filterMap (fun s => s.2.event?) ++
      first.map fun j => Keyboard.keyEvent j false := by
    intro hmem
    apply hquit.2
    rw [hevents, hreleased, List.map_append, ← List.append_assoc]
    exact List.mem_append_left _ hmem
  rw [Machine.feed_of_no_quit hfront]
  exact hdown first k rest hreleased

/-- A keyboard that does not tell of releases, on which one key was typed twice. -/
def typedTwice : Keyboard × List Event :=
  Keyboard.pollAll { reportsReleases := false }
    [([(0, { code := .char 'v' }), (5, { code := .char 'V', action := .hold })], fun _ => 7)]

/-- A poll of it in which another key is typed and the first one is let go of. -/
def letGo : Keyboard × List Event :=
  typedTwice.1.pollBy [(90, { code := .char '1' })] fun _ => 200000005

theorem letGo_events : typedTwice.2 = [.key 0xF true, .key 0xF true] ∧
    letGo.2 = [.key 0x1 true, .key 0xF false] := by
  decide +kernel

/-- The first key is up again then, both on the keypad and on the keyboard. -/
theorem letGo_agrees_with_keypad :
    (∀ k : Key, (((Machine.ofSeed 0).feed typedTwice.2).1.feed letGo.2).1.isPressed
      (UInt8.ofNat k.val) = (letGo.1.held.get k).isSome) ∧ letGo.1.held.get 0xF = none := by
  have hup : ∀ k : Key, (Machine.ofSeed 0).isPressed (UInt8.ofNat k.val) = false := by decide +kernel
  have hquit : Event.quit ∉ typedTwice.2 ++ letGo.2 := by
    rw [letGo_events.1, letGo_events.2]
    decide
  have hagrees := keyboard_agrees_with_keypad false (Machine.ofSeed 0) hup _ _ _
    (Prod.eta typedTwice).symm (Prod.eta letGo).symm hquit
  exact ⟨hagrees.1, by decide +kernel⟩

end ChipEight
