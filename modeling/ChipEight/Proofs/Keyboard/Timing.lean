import Mathlib.Data.List.Basic
import ChipEight.Proofs.Keyboard.Agreement

/-!
# When keys are let go of

On a terminal that tells of presses only, a key counts as down until a poll finds that its last press is
old enough. What happens to one key over several polls is a list of moments, presses and releases, and
all that a keyboard knows of the key is the last of them, if it is a press:

* `typeAll_events`, `held_typeAll` — what is typed, and what the keyboard holds after it;
* `Moment`, `history` — what happens to a key;
* `Timely` — no release without a press right before it that is old enough;
* `Keyboard.Follows` — the keyboard knows the last press, and its releases are timely; with one lemma
  for each part of a poll, `Follows.pollBy` for a whole one and `Follows.pollAll` for any number;
* `released_on_time` — one more poll after any number of them.
-/

namespace ChipEight.Keyboard

/-! ### What is typed -/

variable {b b₀ : Keyboard} {k : Key}

/-- The times of the strokes of a key. -/
def strokesOf (k : Key) (strokes : List (Nat × Stroke)) : List Nat :=
  strokes.filterMap fun s => if s.2.key? = some k then some s.1 else none

theorem typeAll_reports (b : Keyboard) (strokes : List (Nat × Stroke)) :
    (b.typeAll strokes).1.reportsReleases = b.reportsReleases := by
  induction strokes generalizing b with
  | nil => rfl
  | cons stroke strokes ih =>
      refine (ih (b.type stroke.1 stroke.2).1).trans ?_
      rw [type_eq]
      cases stroke.2.key? <;> rfl

theorem typeAll_events (b : Keyboard) (strokes : List (Nat × Stroke)) :
    (b.typeAll strokes).2 = strokes.filterMap fun s => s.2.typed? := by
  induction strokes generalizing b with
  | nil => rfl
  | cons stroke strokes ih =>
      have hrest := ih (b.type stroke.1 stroke.2).1
      show (b.type stroke.1 stroke.2).2.toList ++
        ((b.type stroke.1 stroke.2).1.typeAll strokes).2 = _
      rw [hrest, type_eq, List.filterMap_cons]
      cases stroke.2.typed? <;> rfl

theorem held_type {s : Stroke} (h : s.action ≠ .release) (b : Keyboard) (time : Nat) (k : Key) :
    (b.type time s).1.held.get k = if s.key? = some k then some time else b.held.get k := by
  rw [type_eq, if_neg h]
  cases s.key? with
  | none => rfl
  | some j =>
      have hset : (b.held.set j.val (some time) j.isLt).get k =
          if j.val = k.val then some time else b.held.get k := Vector.getElem_set j.isLt k.isLt
      refine hset.trans ?_
      simp only [Option.some.injEq, Fin.ext_iff]

/-- **What the keyboard holds after some presses** is the last of them for each key. -/
theorem held_typeAll {strokes : List (Nat × Stroke)}
    (h : ∀ s ∈ strokes, s.2.action ≠ .release) (b : Keyboard) (k : Key) :
    (b.typeAll strokes).1.held.get k = (strokesOf k strokes).getLast?.or (b.held.get k) := by
  induction strokes generalizing b with
  | nil => rfl
  | cons stroke strokes ih =>
      obtain ⟨hfirst, hrest⟩ := List.forall_mem_cons.mp h
      refine (ih hrest (b.type stroke.1 stroke.2).1).trans ?_
      rw [held_type hfirst, strokesOf, strokesOf, List.filterMap_cons]
      split
      · rw [List.getLast?_cons]
        cases (List.filterMap _ strokes).getLast? <;> rfl
      · rfl

/-! ### What happens to a key -/

theorem keyEvent_inj {j k : Key} {down : Bool} :
    keyEvent j down = keyEvent k down ↔ j = k := by
  refine ⟨fun h => ?_, fun h => by rw [h]⟩
  injection h with hnumber
  have hval := congrArg UInt8.toNat hnumber
  rw [toNat_number, toNat_number] at hval
  exact Fin.ext hval

/-- What a poll reads: strokes, each with its time, and what the clock shows at each key. -/
abbrev Poll := List (Nat × Stroke) × (Key → Nat)

/-- What happens to a key: it is pressed, or a poll lets go of it. -/
inductive Moment where
  | pressed (time : Nat)
  | released (time : Nat)
deriving DecidableEq, Repr

/-- The time of a press. -/
def Moment.press? : Moment → Option Nat
  | pressed time => some time
  | released _ => none

/-- What happens to a key in a poll with its events: its presses, and then its releases. -/
def momentsOf (k : Key) (poll : Poll) (events : List Event) : List Moment :=
  (strokesOf k poll.1).map .pressed ++
    (events.filter (· = keyEvent k false)).map fun _ => .released (poll.2 k)

/-- What happens to a key in several polls. -/
def history (b : Keyboard) (k : Key) : List Poll → List Moment
  | [] => []
  | poll :: polls =>
    match b.pollBy poll.1 poll.2 with
    | (b, events) => momentsOf k poll events ++ b.history k polls

/-- What the clock shows in several polls, in order: at each stroke, and then at each key. -/
def readings (polls : List Poll) : List Nat :=
  polls.flatMap fun poll => poll.1.map Prod.fst ++ (List.finRange registerCount).map poll.2

theorem history_concat (b : Keyboard) (k : Key) (polls : List Poll) (poll : Poll) :
    b.history k (polls ++ [poll]) = b.history k polls ++
      momentsOf k poll ((b.pollAll polls).1.pollBy poll.1 poll.2).2 := by
  induction polls generalizing b with
  | nil => exact List.append_nil _
  | cons first polls ih =>
      show momentsOf k first (b.pollBy first.1 first.2).2 ++ history _ k (polls ++ [poll]) =
        (momentsOf k first (b.pollBy first.1 first.2).2 ++ history _ k polls) ++ _
      rw [ih, List.append_assoc]
      rfl

/-- The presses of a history are those of the strokes. -/
theorem presses_history (b : Keyboard) (k : Key) (polls : List Poll) :
    (b.history k polls).filterMap Moment.press? = strokesOf k (polls.flatMap Prod.fst) := by
  induction polls generalizing b with
  | nil => rfl
  | cons poll polls ih =>
      have hpressed (times : List Nat) :
          (times.map Moment.pressed).filterMap Moment.press? = times := by
        rw [List.filterMap_map]
        exact List.filterMap_some
      have hreleased (events : List Event) :
          (events.map fun _ => Moment.released (poll.2 k)).filterMap Moment.press? = [] := by
        rw [List.filterMap_map]
        exact List.filterMap_eq_nil_iff.mpr fun _ _ => rfl
      show (momentsOf k poll (b.pollBy poll.1 poll.2).2 ++ history _ k polls).filterMap _ = _
      rw [momentsOf, List.filterMap_append, List.filterMap_append, hpressed, hreleased, ih,
        List.append_nil, List.flatMap_cons, strokesOf, strokesOf, strokesOf, List.filterMap_append]

/-- A release in a history is as late as the clock of its poll shows. -/
theorem mem_history_released {polls : List Poll} {time : Nat}
    (h : .released time ∈ b.history k polls) : ∃ poll ∈ polls, time = poll.2 k := by
  induction polls generalizing b with
  | nil => cases h
  | cons poll polls ih =>
      rcases List.mem_append.mp (show _ ∈ momentsOf k poll _ ++ history _ k polls from h) with h | h
      · rcases List.mem_append.mp h with hpressed | hreleased
        · obtain ⟨_, -, heq⟩ := List.mem_map.mp hpressed
          cases heq
        · obtain ⟨_, -, heq⟩ := List.mem_map.mp hreleased
          cases heq
          exact ⟨poll, List.mem_cons_self, rfl⟩
      · obtain ⟨late, hmem, htime⟩ := ih h
        exact ⟨late, List.mem_cons_of_mem poll hmem, htime⟩

/-! ### Releases in time -/

/-- **No release without an old press**: what comes right before a release of the key is a press of it,
and this press is old enough. -/
def Timely (moments : List Moment) : Prop :=
  ∀ before time after, moments = before ++ .released time :: after →
    ∃ since, before.getLast? = some (.pressed since) ∧ holdTime ≤ time - since

theorem timely_nil : Timely [] := fun before _ _ h =>
  (List.append_ne_nil_of_right_ne_nil before (List.cons_ne_nil _ _) h.symm).elim

section Timely

variable {moments : List Moment}

theorem Timely.concat {m : Moment} (h : Timely moments)
    (hm : ∀ time, m = .released time →
      ∃ since, moments.getLast? = some (.pressed since) ∧ holdTime ≤ time - since) :
    Timely (moments ++ [m]) := by
  intro before time after hsplit
  rcases List.eq_nil_or_concat' after with hafter | ⟨after', last, hafter⟩
  · rw [hafter, List.append_singleton_inj] at hsplit
    rw [← hsplit.1]
    exact hm time hsplit.2
  · rw [hafter, ← List.cons_append, ← List.append_assoc, List.append_singleton_inj] at hsplit
    exact h before time after' hsplit.1

theorem Timely.append_presses (h : Timely moments) (times : List Nat) :
    Timely (moments ++ times.map .pressed) := by
  induction times generalizing moments with
  | nil => rwa [List.map_nil, List.append_nil]
  | cons time times ih =>
      rw [List.map_cons, List.append_cons]
      exact ih (h.concat fun _ heq => by cases heq)

theorem press_of_last {since : Nat} (h : moments.getLast? = some (.pressed since)) :
    (moments.filterMap Moment.press?).getLast? = some since := by
  obtain ⟨before, rfl⟩ := List.getLast?_eq_some_iff.mp h
  rw [List.filterMap_append]
  exact List.getLast?_concat

/-- The last press is the last that happened, or it was old enough when the key was let go of. -/
theorem Timely.last_of_press (h : Timely moments) {since : Nat}
    (hpress : (moments.filterMap Moment.press?).getLast? = some since) :
    moments.getLast? = some (.pressed since) ∨
      ∃ time, .released time ∈ moments ∧ holdTime ≤ time - since := by
  rcases List.eq_nil_or_concat' moments with rfl | ⟨before, m, rfl⟩
  · cases hpress
  · cases m with
    | pressed time =>
        rw [press_of_last List.getLast?_concat] at hpress
        cases hpress
        exact .inl List.getLast?_concat
    | released time =>
        obtain ⟨since', hlast, hold⟩ := h before time [] rfl
        have hsame : since' = since := by
          rw [List.filterMap_append, show [Moment.released time].filterMap Moment.press? = [] from rfl,
            List.append_nil, press_of_last hlast] at hpress
          exact Option.some.inj hpress
        exact .inr ⟨time, List.mem_append_right _ List.mem_cons_self, hsame ▸ hold⟩

/-- **Nothing happens between two presses** unless a poll finds the first old enough. -/
theorem Timely.between_presses (h : Timely moments) {before between after : List Moment}
    {first second : Nat}
    (hsplit : moments = before ++ .pressed first :: between ++ .pressed second :: after)
    (hbetween : ∀ m ∈ between, ∃ time, m = .released time ∧ time - first < holdTime) :
    between = [] := by
  cases between with
  | nil => rfl
  | cons m rest =>
      obtain ⟨time, rfl, hfresh⟩ := hbetween m List.mem_cons_self
      rw [List.append_cons before, List.append_assoc, List.cons_append] at hsplit
      obtain ⟨since, hlast, hold⟩ := h _ time _ hsplit
      rw [List.getLast?_concat] at hlast
      cases hlast
      exact absurd hold (Nat.not_le_of_lt hfresh)

end Timely

/-! ### What a keyboard knows of a key -/

theorem isStale_iff {now : Nat} :
    b.isStale now k = true ↔ ∃ since, b.held.get k = some since ∧ holdTime ≤ now - since := by
  have hheld : b.held[k] = b.held.get k := rfl
  rw [isStale, hheld]
  cases b.held.get k with
  | none =>
      constructor
      · exact fun h => (Bool.false_ne_true h).elim
      · rintro ⟨_, hheld, -⟩
        cases hheld
  | some since =>
      rw [decide_eq_true_iff]
      constructor
      · exact fun h => ⟨since, rfl, h⟩
      · rintro ⟨_, hheld, hold⟩
        cases hheld
        exact hold

/-- A keyboard knows the last press of a key if the key was not let go of since, and no more; and it let
go of the key in time. -/
structure Follows (b : Keyboard) (k : Key) (moments : List Moment) : Prop where
  held : b.held.get k = moments.getLast?.bind Moment.press?
  timely : Timely moments

namespace Follows

variable {moments : List Moment}

theorem held_iff (h : Follows b k moments) {since : Nat} :
    b.held.get k = some since ↔ moments.getLast? = some (.pressed since) := by
  rw [h.held, Option.bind_eq_some_iff]
  constructor
  · rintro ⟨m, hlast, hpress⟩
    cases m with
    | pressed time => rw [hlast, Option.some.inj hpress]
    | released time => cases hpress
  · exact fun hlast => ⟨_, hlast, rfl⟩

theorem isStale_iff (h : Follows b k moments) {now : Nat} : b.isStale now k = true ↔
    ∃ since, moments.getLast? = some (.pressed since) ∧ holdTime ≤ now - since := by
  simp only [Keyboard.isStale_iff, h.held_iff]

theorem typeAll (h : Follows b k moments) {strokes : List (Nat × Stroke)}
    (hpresses : ∀ s ∈ strokes, s.2.action ≠ .release) :
    Follows (b.typeAll strokes).1 k (moments ++ (strokesOf k strokes).map .pressed) where
  held := by
    rw [held_typeAll hpresses, h.held, List.getLast?_append, List.getLast?_map]
    cases (strokesOf k strokes).getLast? <;> rfl
  timely := h.timely.append_presses _

theorem releaseStale (h : Follows b k moments) (clock : Key → Nat) :
    Follows (b.releaseStale clock).1 k
      (moments ++ if b.isStale (clock k) k then [.released (clock k)] else []) := by
  by_cases hstale : b.isStale (clock k) k = true
  · rw [if_pos hstale]
    refine ⟨?_, h.timely.concat fun time heq => ?_⟩
    · rw [held_releaseStale, if_pos hstale, List.getLast?_concat]
      rfl
    · cases heq
      exact h.isStale_iff.mp hstale
  · rw [if_neg hstale, List.append_nil]
    refine ⟨?_, h.timely⟩
    rw [held_releaseStale, if_neg hstale, h.held]

end Follows

/-! ### Polls -/

section Polls

variable {strokes : List (Nat × Stroke)}

/-- **What a poll does** where the terminal does not tell of releases. -/
theorem pollBy_of_presses (h : b.reportsReleases = false) (strokes : List (Nat × Stroke))
    (clock : Key → Nat) : b.pollBy strokes clock =
      (((b.typeAll strokes).1.releaseStale clock).1, strokes.filterMap (fun s => s.2.typed?) ++
        ((b.typeAll strokes).1.stale clock).map fun k => keyEvent k false) := by
  rw [← typeAll_events b strokes, ← releaseStale_events]
  exact if_neg (ne_true_of_eq_false ((typeAll_reports b strokes).trans h))

/-- No release is typed where only presses are. -/
theorem not_typed_release (hpresses : ∀ s ∈ strokes, s.2.action ≠ .release) (k : Key) :
    keyEvent k false ∉ strokes.filterMap fun s => s.2.typed? := by
  intro hmem
  obtain ⟨s, hs, htyped⟩ := List.mem_filterMap.mp hmem
  rw [Stroke.typed?] at htyped
  split at htyped
  · cases htyped
  · rw [Stroke.event?] at htyped
    split at htyped
    · obtain ⟨j, -, hj⟩ := Option.map_eq_some_iff.mp htyped
      rw [decide_eq_true (hpresses s hs)] at hj
      injection hj with _ hdown
      cases hdown
    · cases htyped

theorem filter_stale (b : Keyboard) (clock : Key → Nat) (k : Key) :
    (b.stale clock).filter (· = k) = if b.isStale (clock k) k then [k] else [] := by
  rw [List.filter_eq, (nodup_stale b clock).count]
  simp only [mem_stale]
  split <;> rfl

/-- What happens to a key in a poll: it is pressed, and then let go of if its last press is old. -/
theorem momentsOf_pollBy (h : b.reportsReleases = false)
    (hpresses : ∀ s ∈ strokes, s.2.action ≠ .release) (clock : Key → Nat) :
    momentsOf k (strokes, clock) (b.pollBy strokes clock).2 =
      (strokesOf k strokes).map .pressed ++
        if (b.typeAll strokes).1.isStale (clock k) k then [.released (clock k)] else [] := by
  have htyped : (strokes.filterMap fun s => s.2.typed?).filter (· = keyEvent k false) = [] :=
    List.filter_eq_nil_iff.mpr fun e he heq =>
      not_typed_release hpresses k (of_decide_eq_true heq ▸ he)
  rw [momentsOf, pollBy_of_presses h, List.filter_append, htyped, List.nil_append, List.filter_map]
  simp only [Function.comp_def, keyEvent_inj]
  rw [filter_stale, List.map_map]
  split <;> rfl

theorem Follows.pollBy {moments : List Moment} (h : Follows b k moments)
    (hreports : b.reportsReleases = false)
    (hpresses : ∀ s ∈ strokes, s.2.action ≠ .release) (clock : Key → Nat) :
    Follows (b.pollBy strokes clock).1 k
      (moments ++ momentsOf k (strokes, clock) (b.pollBy strokes clock).2) := by
  rw [momentsOf_pollBy hreports hpresses, pollBy_of_presses hreports, ← List.append_assoc]
  exact (h.typeAll hpresses).releaseStale clock

/-- **Any number of polls**: the keyboard knows of each key what happened to it. -/
theorem Follows.pollAll {moments : List Moment} (h : Follows b k moments)
    (hreports : b.reportsReleases = false) {polls : List Poll}
    (hpresses : ∀ poll ∈ polls, ∀ s ∈ poll.1, s.2.action ≠ .release) :
    (b.pollAll polls).1.reportsReleases = false ∧
      Follows (b.pollAll polls).1 k (moments ++ b.history k polls) := by
  induction polls generalizing b moments with
  | nil => exact ⟨hreports, (List.append_nil moments).symm ▸ h⟩
  | cons poll polls ih =>
      obtain ⟨hfirst, hrest⟩ := List.forall_mem_cons.mp hpresses
      have hreports' : (b.pollBy poll.1 poll.2).1.reportsReleases = false := by
        rw [pollBy_of_presses hreports]
        exact (releaseStale_reports _ _).trans ((typeAll_reports b poll.1).trans hreports)
      have hpolls := ih (h.pollBy hreports hfirst poll.2) hreports' hrest
      rwa [List.append_assoc] at hpolls

/-- A key that is still held after a poll was not found old by it. -/
theorem fresh_of_held {clock : Key → Nat} {since : Nat}
    (h : (b.releaseStale clock).1.held.get k = some since) : clock k - since < holdTime := by
  rw [held_releaseStale] at h
  split at h
  · cases h
  · rename_i hstale
    exact Nat.lt_of_not_le fun hold => hstale (isStale_iff.mpr ⟨since, h, hold⟩)

/-- A clock that does not go back shows the latest time in the last poll. -/
theorem clock_le_last {polls : List Poll} {clock : Key → Nat} {poll : Poll}
    (h : (readings (polls ++ [(strokes, clock)])).Pairwise (· ≤ ·))
    (hpoll : poll ∈ polls ++ [(strokes, clock)]) (k : Key) : poll.2 k ≤ clock k := by
  have hread (poll : Poll) : poll.2 k ∈ poll.1.map Prod.fst ++
      (List.finRange registerCount).map poll.2 :=
    List.mem_append_right _ (List.mem_map_of_mem (List.mem_finRange k))
  rcases List.mem_append.mp hpoll with hearlier | hlast
  · rw [readings, List.flatMap_append, List.pairwise_append] at h
    exact h.2.2 _ (List.mem_flatMap.mpr ⟨poll, hearlier, hread poll⟩) _
      (List.mem_flatMap.mpr ⟨_, List.mem_singleton_self _, hread (strokes, clock)⟩)
  · exact Nat.le_of_eq (by rw [List.mem_singleton.mp hlast])

end Polls

/-- A keyboard on a terminal that tells of presses only, before anything is typed. -/
def pressesOnly : Keyboard := { reportsReleases := false }

theorem pressesOnly_follows (k : Key) : Follows pressesOnly k [] :=
  ⟨Vector.getElem_replicate k.isLt, timely_nil⟩

/-- **What is held after a poll** is held since its latest press, which is not old. -/
theorem held_iff_latest_press {polls : List Poll} {strokes : List (Nat × Stroke)}
    {clock : Key → Nat} {k : Key} {since : Nat}
    (hfollows : Follows (b.pollBy strokes clock).1 k (b₀.history k (polls ++ [(strokes, clock)])))
    (hreports : b.reportsReleases = false)
    (hclock : (readings (polls ++ [(strokes, clock)])).Pairwise (· ≤ ·)) :
    (b.pollBy strokes clock).1.held.get k = some since ↔
      (strokesOf k (polls.flatMap Prod.fst ++ strokes)).getLast? = some since ∧
        clock k - since < holdTime := by
  have hlatest : strokesOf k (polls.flatMap Prod.fst ++ strokes) =
      (b₀.history k (polls ++ [(strokes, clock)])).filterMap Moment.press? := by
    rw [presses_history, List.flatMap_append, List.flatMap_singleton]
  rw [hlatest]
  constructor
  · intro hheld
    refine ⟨press_of_last (hfollows.held_iff.mp hheld), ?_⟩
    rw [pollBy_of_presses hreports] at hheld
    exact fresh_of_held hheld
  · rintro ⟨hpress, hfresh⟩
    rcases hfollows.timely.last_of_press hpress with hlast | ⟨time, hmem, hold⟩
    · exact hfollows.held_iff.mpr hlast
    · obtain ⟨poll, hpoll, rfl⟩ := mem_history_released hmem
      have := clock_le_last hclock hpoll k
      omega

/-- **Keys are let go of on time.** Let a terminal tell of presses and repeats only, let it be polled
several times, with any strokes, and let the clock never go back. In the last poll

* the events are those of the strokes, followed by releases of keys in the order of their numbers;
* a key is let go of if and only if the last that happened to it, the strokes of this poll included, was
  a press, and the clock shows at least `holdTime` more than at this press.

In all polls together, for each key,

* what comes right before a release is a press that is at least this old, so that no two releases follow
  one another;
* nothing comes between two presses, unless a release that finds the first of them this old;
* after the last poll the key is held, since its latest press, if and only if this press is less
  old. -/
theorem released_on_time (polls : List Poll) (strokes : List (Nat × Stroke)) (clock : Key → Nat)
    {b' : Keyboard} {events : List Event}
    (hpoll : (pressesOnly.pollAll polls).1.pollBy strokes clock = (b', events))
    (hpresses : ∀ poll ∈ polls ++ [(strokes, clock)], ∀ s ∈ poll.1, s.2.action ≠ .release)
    (hclock : (readings (polls ++ [(strokes, clock)])).Pairwise (· ≤ ·)) :
    (∃ released : List Key,
      events = strokes.filterMap (fun s => s.2.typed?) ++
        released.map (fun k => keyEvent k false) ∧
      released.Pairwise (· < ·) ∧
      ∀ k, k ∈ released ↔ ∃ since,
        (pressesOnly.history k polls ++ (strokesOf k strokes).map Moment.pressed).getLast? =
          some (.pressed since) ∧ holdTime ≤ clock k - since) ∧
    ∀ k, Timely (pressesOnly.history k (polls ++ [(strokes, clock)])) ∧
      (∀ earlier first between second later,
        pressesOnly.history k (polls ++ [(strokes, clock)]) =
          earlier ++ .pressed first :: between ++ .pressed second :: later →
        (∀ m ∈ between, ∃ time, m = .released time ∧ time - first < holdTime) → between = []) ∧
      ∀ since, b'.held.get k = some since ↔
        (strokesOf k (polls.flatMap Prod.fst ++ strokes)).getLast? = some since ∧
          clock k - since < holdTime := by
  have hearlier : ∀ poll ∈ polls, ∀ s ∈ poll.1, s.2.action ≠ .release :=
    fun poll hmem => hpresses poll (List.mem_append_left _ hmem)
  have hlast : ∀ s ∈ strokes, s.2.action ≠ .release :=
    hpresses (strokes, clock) (List.mem_append_right _ (List.mem_singleton_self _))
  have hfollows (k : Key) := (pressesOnly_follows k).pollAll rfl hearlier
  have hreports : (pressesOnly.pollAll polls).1.reportsReleases = false := (hfollows 0).1
  refine ⟨⟨((pressesOnly.pollAll polls).1.typeAll strokes).1.stale clock, ?_, ?_, fun k => ?_⟩,
    fun k => ?_⟩
  · rw [pollBy_of_presses hreports] at hpoll
    exact (congrArg Prod.snd hpoll).symm
  · exact (List.pairwise_lt_finRange registerCount).filter _
  · exact mem_stale.trans ((hfollows k).2.typeAll hlast).isStale_iff
  · have hfollows' : Follows ((pressesOnly.pollAll polls).1.pollBy strokes clock).1 k
        (pressesOnly.history k (polls ++ [(strokes, clock)])) := by
      rw [history_concat]
      exact (hfollows k).2.pollBy hreports hlast clock
    refine ⟨hfollows'.timely, fun _ _ _ _ _ => hfollows'.timely.between_presses, fun since => ?_⟩
    rw [← held_iff_latest_press hfollows' hreports hclock, hpoll]

/-- Polls in which two keys are typed, the first of them again before it was old. -/
def typedAgain : List Poll :=
  [([(0, { code := .char 'v' }), (5, { code := .char '1' })], fun _ => 10),
    ([(150000000, { code := .char 'V', action := .hold })], fun _ => 200000004)]

/-- Both are let go of in a poll that finds the second press of the first just old enough. -/
theorem typedAgain_released :
    ((pressesOnly.pollAll typedAgain).1.pollBy [] fun _ => 350000000).2 =
        [keyEvent 0x1 false, keyEvent 0xF false] ∧
      Timely (pressesOnly.history 0xF (typedAgain ++ [([], fun _ => 350000000)])) := by
  have htime := released_on_time typedAgain [] (fun _ => 350000000) rfl (by decide) (by decide)
  exact ⟨by decide +kernel, (htime.2 0xF).1⟩

end ChipEight.Keyboard
