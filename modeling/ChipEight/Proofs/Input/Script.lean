import ChipEight.Input

/-!
# What a script replays

A script sorts its events by the numbers of their polls and takes them from the front. Since the
sorting is stable, a poll gives the events that were planned for it, in the order in which they were
given:

* `takeWhile_eq_filter`, `dropWhile_eq_filter` — the front of a sorted list;
* `filter_mergeSort` — the events of one poll come through the sorting unmoved;
* `Script.poll_after` — every poll of a script;
* `Input.polled`, with `Script.polled_ofList` — what several polls leave of a script;
* `Input.Calm`, with `Script.calm_ofList` — polls in which nobody wishes to stop;
* `Script.delivers_each_once` — all polls of a script together.
-/

namespace ChipEight

variable {α : Type}

/-! ### The order of events -/

/-- Events are sorted by the number in front of them. -/
def inOrder (a b : Nat × α) : Bool := a.1 ≤ b.1

theorem inOrder_iff {a b : Nat × α} : inOrder a b = true ↔ a.1 ≤ b.1 := decide_eq_true_iff

theorem inOrder_trans (a b c : Nat × α) (hab : inOrder a b) (hbc : inOrder b c) : inOrder a c :=
  inOrder_iff.mpr (Nat.le_trans (inOrder_iff.mp hab) (inOrder_iff.mp hbc))

theorem inOrder_total (a b : Nat × α) : inOrder a b || inOrder b a := by
  rw [Bool.or_eq_true, inOrder_iff, inOrder_iff]
  exact Nat.le_total a.1 b.1

/-! ### The front of a sorted list -/

section

variable {p : α → Bool} {l : List α}

/-- If `p` never holds behind an element at which it fails, the front in which it holds is all of
where it holds. -/
theorem takeWhile_eq_filter (h : l.Pairwise fun a b => p b = true → p a = true) :
    l.takeWhile p = l.filter p := by
  induction l with
  | nil => rfl
  | cons a l ih =>
      obtain ⟨hhead, htail⟩ := List.pairwise_cons.mp h
      by_cases ha : p a = true
      · rw [List.takeWhile_cons_of_pos ha, List.filter_cons_of_pos ha, ih htail]
      · have hnone : ∀ b ∈ l, ¬ p b = true := fun b hb hpb => ha (hhead b hb hpb)
        rw [List.takeWhile_cons_of_neg ha, List.filter_cons_of_neg ha,
          List.filter_eq_nil_iff.mpr hnone]

theorem dropWhile_eq_filter (h : l.Pairwise fun a b => p b = true → p a = true) :
    l.dropWhile p = l.filter fun a => !p a := by
  induction l with
  | nil => rfl
  | cons a l ih =>
      obtain ⟨hhead, htail⟩ := List.pairwise_cons.mp h
      by_cases ha : p a = true
      · rw [List.dropWhile_cons_of_pos ha, ih htail, List.filter_cons, ha]
        rfl
      · have hall : ∀ b ∈ a :: l, (!p b) = true := by
          intro b hb
          rw [Bool.not_eq_true', Bool.eq_false_iff]
          rcases List.mem_cons.mp hb with rfl | hb
          · exact ha
          · exact fun hpb => ha (hhead b hb hpb)
        rw [List.dropWhile_cons_of_neg ha, List.filter_eq_self.mpr hall]

end

theorem pairwise_mergeSort (l : List (Nat × α)) :
    (l.mergeSort inOrder).Pairwise fun a b => inOrder a b :=
  List.pairwise_mergeSort inOrder_trans inOrder_total l

/-- **Sorting is stable**: it does not move events of one number past each other. -/
theorem filter_mergeSort (l : List (Nat × α)) (k : Nat) :
    (l.mergeSort inOrder).filter (fun e => e.1 = k) = l.filter fun e => e.1 = k := by
  have hkey : ∀ e ∈ l.filter (fun e => e.1 = k), e.1 = k := fun e he =>
    of_decide_eq_true (List.mem_filter.mp he).2
  have hsorted : (l.filter fun e => e.1 = k).Pairwise fun a b => inOrder a b := by
    apply List.pairwise_of_forall_mem_list
    intro a ha b hb
    exact inOrder_iff.mpr (Nat.le_of_eq ((hkey a ha).trans (hkey b hb).symm))
  have hsub : (l.filter fun e => e.1 = k).Sublist (l.mergeSort inOrder) :=
    List.sublist_mergeSort inOrder_trans inOrder_total hsorted List.filter_sublist
  have hlen := ((List.mergeSort_perm l inOrder).filter fun e => decide (e.1 = k)).length_eq
  -- a part of the sorted list with all of its length
  have hfilter := hsub.filter fun e => decide (e.1 = k)
  rw [List.filter_filter] at hfilter
  simp only [Bool.and_self] at hfilter
  exact (hfilter.eq_of_length hlen.symm).symm

/-! ### Polls -/

namespace Script

variable {events : List (Nat × Event)} {k : Nat}

/-- The events that were planned for a poll, in the order in which they were given. -/
def onPoll (events : List (Nat × Event)) (k : Nat) : List Event :=
  (events.filter fun e => e.1 = k).map Prod.snd

/-- The script of the given events after `k` polls. -/
def after (events : List (Nat × Event)) (k : Nat) : Script where
  pending := (events.mergeSort inOrder).filter fun e => k ≤ e.1
  polls := k

theorem after_zero (events : List (Nat × Event)) : after events 0 = ofList events := by
  have hall : ∀ e ∈ events.mergeSort inOrder, decide (0 ≤ e.1) = true := fun e _ =>
    decide_eq_true (Nat.zero_le e.1)
  rw [after, List.filter_eq_self.mpr hall]
  rfl

/-- A list that is in order needs no sorting. -/
theorem ofList_of_pairwise (h : events.Pairwise fun a b => inOrder a b) :
    ofList events = { pending := events } :=
  congrArg (fun pending => ({ pending := pending } : Script)) (List.mergeSort_of_pairwise h)

/-- **Every poll gives the events that were planned for it.** -/
theorem poll_after (events : List (Nat × Event)) (k : Nat) :
    (after events k).poll = (onPoll events k, after events (k + 1)) := by
  have hfront : (after events k).pending.Pairwise fun a b =>
      decide (b.1 ≤ k) = true → decide (a.1 ≤ k) = true := by
    refine ((pairwise_mergeSort events).filter _).imp fun hab hb => ?_
    exact decide_eq_true (Nat.le_trans (inOrder_iff.mp hab) (of_decide_eq_true hb))
  have hnow : (after events k).pending.takeWhile (fun e => e.1 ≤ k) =
      events.filter fun e => e.1 = k := by
    rw [takeWhile_eq_filter hfront, after, List.filter_filter, ← filter_mergeSort]
    apply List.filter_congr
    intro e _
    rw [← Bool.decide_and, decide_eq_decide]
    omega
  have hrest : (after events k).pending.dropWhile (fun e => e.1 ≤ k) =
      (after events (k + 1)).pending := by
    rw [dropWhile_eq_filter hfront, after, List.filter_filter]
    apply List.filter_congr
    intro e _
    rw [← decide_not, ← Bool.decide_and, decide_eq_decide]
    omega
  show ((((after events k).pending.takeWhile fun e => e.1 ≤ k).map Prod.snd,
    { pending := (after events k).pending.dropWhile fun e => e.1 ≤ k, polls := k + 1 }) :
      List Event × Script) = _
  rw [hnow, hrest]
  rfl

/-- A poll of a script never fails. -/
theorem input_poll_after (events : List (Nat × Event)) (k : Nat) :
    Input.poll (after events k) = (.ok (onPoll events k), after events (k + 1)) :=
  congrArg (fun r => (Except.ok r.1, r.2)) (poll_after events k)

theorem mem_onPoll {e : Event} : e ∈ onPoll events k ↔ (k, e) ∈ events := by
  rw [onPoll, List.mem_map]
  constructor
  · rintro ⟨⟨j, e'⟩, hmem, rfl⟩
    obtain ⟨hevents, hj⟩ := List.mem_filter.mp hmem
    cases of_decide_eq_true hj
    exact hevents
  · intro hevents
    exact ⟨(k, e), List.mem_filter.mpr ⟨hevents, decide_eq_true rfl⟩, rfl⟩

end Script

/-! ### Several polls -/

/-- The source after some more polls. -/
def Input.polled {ι : Type} [Input ι] : Nat → ι → ι
  | 0, input => input
  | k + 1, input => (Input.poll (polled k input)).2

/-- Several polls are the first of them and the rest. -/
theorem Input.polled_succ {ι : Type} [Input ι] (k : Nat) (input : ι) :
    polled (k + 1) input = polled k (poll input).2 := by
  induction k with
  | zero => rfl
  | succ k ih => exact congrArg (fun i => (poll i).2) ih

/-- The polls up to the one of number `k` give events, and none of these is the wish to stop. -/
def Input.Calm {ι : Type} [Input ι] (input : ι) (k : Nat) : Prop :=
  ∀ i ≤ k, ∃ events, (Input.poll (Input.polled i input)).1 = .ok events ∧ Event.quit ∉ events

namespace Script

variable {events : List (Nat × Event)} {k : Nat}

theorem polled_after (events : List (Nat × Event)) (k j : Nat) :
    Input.polled j (after events k) = after events (k + j) := by
  induction j with
  | zero => rfl
  | succ j ih =>
      rw [Input.polled, ih, input_poll_after]
      rfl

theorem polled_ofList (events : List (Nat × Event)) (k : Nat) :
    Input.polled k (ofList events) = after events k := by
  rw [← after_zero, polled_after, Nat.zero_add]

/-- What is heard on a poll after some others. -/
theorem heard_after (events : List (Nat × Event)) (k j : Nat) :
    (Input.poll (Input.polled j (after events k))).1 = .ok (onPoll events (k + j)) := by
  rw [polled_after, input_poll_after]

theorem heard_ofList (events : List (Nat × Event)) (k : Nat) :
    (Input.poll (Input.polled k (ofList events))).1 = .ok (onPoll events k) := by
  rw [← after_zero, heard_after, Nat.zero_add]

/-- A script is calm up to the first poll for which the wish to stop was planned. -/
theorem calm_ofList (h : ∀ i ≤ k, Event.quit ∉ onPoll events i) : Input.Calm (ofList events) k :=
  fun i hi => ⟨onPoll events i, heard_ofList events i, h i hi⟩

/-! ### All polls together -/

/-- Every event has come when the polls have gone past all of their numbers. -/
theorem isFinished_after (events : List (Nat × Event)) (k : Nat) :
    (after events k).isFinished = true ↔ ∀ e ∈ events, e.1 < k := by
  rw [isFinished, after, List.isEmpty_iff, List.filter_eq_nil_iff]
  refine forall_congr' fun e => ?_
  rw [List.mem_mergeSort, decide_eq_true_iff, Nat.not_le]

/-- The events that were planned for some first polls are those with a number below. -/
theorem flatMap_onPoll (events : List (Nat × Event)) (n : Nat) :
    ((List.range n).flatMap (onPoll events)).Perm
      ((events.filter fun e => e.1 < n).map Prod.snd) := by
  induction n with
  | zero =>
      have hnone : events.filter (fun e => e.1 < 0) = [] :=
        List.filter_eq_nil_iff.mpr fun e _ h => Nat.not_lt_zero e.1 (of_decide_eq_true h)
      rw [hnone]
      exact .nil
  | succ n ih =>
      have hbefore : (events.filter fun e => e.1 < n + 1).filter (fun e => e.1 < n) =
          events.filter fun e => e.1 < n := by
        rw [List.filter_filter]
        refine List.filter_congr fun e _ => ?_
        rw [← Bool.decide_and, decide_eq_decide]
        omega
      have hnow : (events.filter fun e => e.1 < n + 1).filter (fun e => !decide (e.1 < n)) =
          events.filter fun e => e.1 = n := by
        rw [List.filter_filter]
        refine List.filter_congr fun e _ => ?_
        rw [← decide_not, ← Bool.decide_and, decide_eq_decide]
        omega
      have hsplit := List.filter_append_perm (fun e : Nat × Event => decide (e.1 < n))
        (events.filter fun e => e.1 < n + 1)
      rw [hbefore, hnow] at hsplit
      rw [List.range_succ, List.flatMap_append, List.flatMap_singleton]
      refine (ih.append_right _).trans ?_
      rw [onPoll, ← List.map_append]
      exact hsplit.map Prod.snd

/-- **A script delivers every event once**, on its own poll. Poll number `k` gives the events of
number `k` in the order of the list, and the script counts `k` polls before it. After `k` polls it is
finished if every number in the list is below `k`, so that before any poll only an empty list is. What
some first polls give are the events with a number below, each as often as it stands in the list. -/
theorem delivers_each_once (events : List (Nat × Event)) :
    (∀ k, (Input.poll (Input.polled k (ofList events))).1 =
        .ok ((events.filter fun e => e.1 = k).map Prod.snd) ∧
      (Input.polled k (ofList events)).polls = k) ∧
    (∀ k, (Input.polled k (ofList events)).isFinished = true ↔ ∀ e ∈ events, e.1 < k) ∧
    ((ofList events).isFinished = true ↔ events = []) ∧
    ∀ n, ((List.range n).flatMap fun k => (Input.polled k (ofList events)).poll.1).Perm
      ((events.filter fun e => e.1 < n).map Prod.snd) := by
  refine ⟨fun k => ⟨heard_ofList events k, ?counted⟩, fun k => ?finished, ?fresh, fun n => ?all⟩
  case counted => rw [polled_ofList, after]
  case finished => rw [polled_ofList, isFinished_after]
  case fresh =>
    rw [← after_zero, isFinished_after, List.eq_nil_iff_forall_not_mem]
    simp only [Nat.not_lt_zero, imp_false]
  case all =>
    have hpolls : (fun k => (Input.polled k (ofList events)).poll.1) = onPoll events := by
      funext k
      rw [polled_ofList, poll_after]
    rw [hpolls]
    exact flatMap_onPoll events n

/-- Two events of one poll keep their order, though an earlier poll stands between them. -/
example : (Input.polled 2 (ofList [(2, .quit), (0, .key 1 true), (2, .key 2 true)])).poll.1 =
    [.quit, .key 2 true] := by
  cbv

end Script

end ChipEight
