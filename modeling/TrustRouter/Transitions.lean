import TrustRouter.Lifecycle

/-!
# The log of a lifecycle

`NodeLifecycle` logs its transitions, and keeps the latest of them.  What a call logs is at
most one transition, from the state before it to the state after it (`Transits`), so that
those logged make a chain that ends in the current state (`IsLog`).

The guards of `record_failure` overlap.  A second failure in a row finds a `Healthy` node and
makes it `Degraded`; a third, of which the second arm would make a `Healthy` node `Suspect`,
finds it `Degraded`, and so the third arm is taken again.  It logs a change of a `Degraded`
node to `Degraded` (`logsChanges_iff`), and no node is ever `Suspect` (`unsuspected_after`).
-/

namespace TrustRouter

/-- A transition starts where the one before it has ended. -/
def NodeLifecycleTransition.Follows (record next : NodeLifecycleTransition) : Prop :=
  next.from = record.to ∧ next.revision = record.revision + 1

namespace NodeLifecycle

/-! ## One call -/

/-- The call moves the node, and this is what it logs. -/
structure Transits (node node' : NodeLifecycle) (record : NodeLifecycleTransition) : Prop where
  «from» : record.from = node.state
  «to» : record.to = node'.state
  recordRevision : record.revision = node.revision + 1
  revision : node'.revision = node.revision + 1
  transitions : node'.transitions = Ring.pushBounded node.maxTransitions node.transitions record
  maxTransitions : node'.maxTransitions = node.maxTransitions

/-- The call logs nothing. -/
structure Stays (node node' : NodeLifecycle) : Prop where
  state : node'.state = node.state
  revision : node'.revision = node.revision
  transitions : node'.transitions = node.transitions
  maxTransitions : node'.maxTransitions = node.maxTransitions

/-- The call is the failure of a `Degraded` node that is to become `Degraded`. -/
def Repeats (node : NodeLifecycle) : LifecycleCall → Prop
  | .recordFailure _ =>
      node.state = .degraded ∧ 2 ≤ node.consecutiveFailures + 1 ∧ node.consecutiveFailures + 1 < 5
  | _ => False

variable {node : NodeLifecycle}

theorem stays_countSuccess (node : NodeLifecycle) : Stays node node.countSuccess :=
  ⟨rfl, rfl, rfl, rfl⟩

theorem stays_countFailure (node : NodeLifecycle) : Stays node node.countFailure :=
  ⟨rfl, rfl, rfl, rfl⟩

/-- A transition is logged as one from the state the node was in before it has counted. -/
theorem Stays.transits {counted : NodeLifecycle} (stays : Stays node counted)
    (target : NodeLifecycleState) (reason : String) (now : SystemTime) :
    Transits node (counted.transition target reason now)
      ⟨node.state, target, reason, now, node.revision + 1⟩ := by
  refine ⟨rfl, rfl, rfl, congrArg (· + 1) stays.revision, ?_, stays.maxTransitions⟩
  unfold transition
  rw [stays.state, stays.revision, stays.transitions, stays.maxTransitions]

/-- A call logs one transition or none.  It is one that changes nothing if the call repeats. -/
theorem step_cases (node : NodeLifecycle) (call : LifecycleCall) :
    (∃ record, Transits node (node.step call) record ∧
        (record.from = record.to ↔ Repeats node call)) ∨
      (Stays node (node.step call) ∧ ¬ Repeats node call) := by
  cases call with
  | recordSuccess now =>
      show (∃ record, Transits node (node.recordSuccess now) record ∧ _) ∨
        (Stays node (node.recordSuccess now) ∧ _)
      unfold recordSuccess
      dsimp only
      rw [countSuccess_state]
      split_ifs with recovered improved hopeful
      · refine .inl ⟨_, (stays_countSuccess node).transits _ _ now, iff_of_false ?_ id⟩
        simp [recovered.1]
      · refine .inl ⟨_, (stays_countSuccess node).transits _ _ now, iff_of_false ?_ id⟩
        simp [improved.1]
      · refine .inl ⟨_, (stays_countSuccess node).transits _ _ now, iff_of_false ?_ id⟩
        simp [hopeful.1]
      · exact .inr ⟨stays_countSuccess node, id⟩
  | recordFailure now =>
      show (∃ record, Transits node (node.recordFailure now) record ∧ _) ∨
        (Stays node (node.recordFailure now) ∧ _)
      have counted : node.countFailure.consecutiveFailures = node.consecutiveFailures + 1 := rfl
      unfold recordFailure
      dsimp only
      rw [countFailure_state, counted]
      split_ifs with failed suspected degraded
      · refine .inl ⟨_, (stays_countFailure node).transits _ _ now, iff_of_false ?_ ?_⟩
        · simpa using failed.2
        · exact fun repeats => absurd failed.1 (UInt32.not_le.mpr repeats.2.2)
      · refine .inl ⟨_, (stays_countFailure node).transits _ _ now, iff_of_false ?_ ?_⟩
        · simp [suspected.2]
        · exact fun repeats => nomatch suspected.2.symm.trans repeats.1
      · refine .inl ⟨_, (stays_countFailure node).transits _ _ now, ?_⟩
        have notFive : node.consecutiveFailures + 1 < 5 := by
          refine UInt32.not_le.mp fun reached => failed ⟨reached, fun isFailed => ?_⟩
          rcases degraded.2 with isState | isState <;> cases isState.symm.trans isFailed
        exact ⟨fun same => ⟨same, degraded.1, notFive⟩, fun repeats => repeats.1⟩
      · exact .inr ⟨stays_countFailure node,
          fun repeats => degraded ⟨repeats.2.1, .inr repeats.1⟩⟩
  | drain now =>
      show (∃ record, Transits node (node.drain now) record ∧ _) ∨
        (Stays node (node.drain now) ∧ _)
      have unmoved : Stays node node := ⟨rfl, rfl, rfl, rfl⟩
      unfold drain
      split_ifs with serving
      · exact .inl ⟨_, unmoved.transits _ _ now, iff_of_false serving id⟩
      · exact .inr ⟨⟨rfl, rfl, rfl, rfl⟩, id⟩
  | beginRecovery now =>
      show (∃ record, Transits node (node.beginRecovery now) record ∧ _) ∨
        (Stays node (node.beginRecovery now) ∧ _)
      unfold beginRecovery
      split_ifs with failed
      · refine .inl ⟨_, ⟨rfl, rfl, rfl, rfl, rfl, rfl⟩, iff_of_false ?_ id⟩
        simp [failed]
      · exact .inr ⟨⟨rfl, rfl, rfl, rfl⟩, id⟩

/-- What a call logs: the revision tells whether it logs anything. -/
def logged (node : NodeLifecycle) (call : LifecycleCall) : Option NodeLifecycleTransition :=
  if (node.step call).revision = node.revision then none
  else (node.step call).transitions.getLast?

theorem Stays.logged {call : LifecycleCall} (stays : Stays node (node.step call)) :
    node.logged call = none := if_pos stays.revision

theorem Transits.logged {call : LifecycleCall} {record : NodeLifecycleTransition}
    (transits : Transits node (node.step call) record) : node.logged call = some record := by
  have moved : (node.step call).revision ≠ node.revision := by
    rw [transits.revision]
    exact Nat.succ_ne_self _
  rw [NodeLifecycle.logged, if_neg moved, transits.transitions, Ring.pushBounded,
    List.getLast?_concat]

/-! ## The history -/

/-- All transitions that have been logged, those that are no longer retained included. -/
def history (maxTransitions : ℕ) (calls : List LifecycleCall) : List NodeLifecycleTransition :=
  (outputs step logged (new maxTransitions) calls).reduceOption

/-- The node has gone through these transitions. -/
structure IsLog (node : NodeLifecycle) (history : List NodeLifecycleTransition) : Prop where
  positive : 0 < node.maxTransitions
  latest : node.transitions = Ring.latest node.maxTransitions history
  follow : history.IsChain NodeLifecycleTransition.Follows
  last : ∀ record ∈ history.getLast?, record.to = node.state ∧ record.revision = node.revision

variable {maxTransitions : ℕ} {calls : List LifecycleCall} {call : LifecycleCall}
variable {past : List NodeLifecycleTransition}

theorem IsLog.step (isLog : IsLog node past) (call : LifecycleCall) :
    IsLog (node.step call) (past ++ (node.logged call).toList) := by
  rcases step_cases node call with ⟨record, transits, -⟩ | ⟨stays, -⟩
  · rw [transits.logged]
    refine ⟨transits.maxTransitions ▸ isLog.positive, ?_, ?_, fun last isLast => ?_⟩
    · rw [transits.transitions, transits.maxTransitions, isLog.latest]
      exact Ring.pushBounded_latest isLog.positive _ _
    · refine List.isChain_append.mpr ⟨isLog.follow, List.isChain_singleton _, ?_⟩
      intro last isLast next isNext
      obtain rfl := Option.some.inj isNext
      obtain ⟨«to», revision⟩ := isLog.last last isLast
      exact ⟨transits.from.trans «to».symm, transits.recordRevision.trans (by rw [revision])⟩
    · obtain rfl : record = last := Option.some.inj (List.getLast?_concat.symm.trans isLast)
      exact ⟨transits.to, transits.recordRevision.trans transits.revision.symm⟩
  · rw [stays.logged, Option.toList_none, List.append_nil]
    refine ⟨stays.maxTransitions ▸ isLog.positive, ?_, isLog.follow, ?_⟩
    · rw [stays.transitions, stays.maxTransitions, isLog.latest]
    · rw [stays.state, stays.revision]
      exact isLog.last

theorem history_concat (call : LifecycleCall) :
    history maxTransitions (calls ++ [call]) =
      history maxTransitions calls ++ ((after maxTransitions calls).logged call).toList := by
  unfold history
  rw [outputs_concat, List.reduceOption_append, List.reduceOption_singleton]
  rfl

theorem isLog_after (maxTransitions : ℕ) (calls : List LifecycleCall) :
    IsLog (after maxTransitions calls) (history maxTransitions calls) := by
  induction calls using List.reverseRecOn with
  | nil =>
      refine ⟨Nat.lt_of_lt_of_le Nat.one_pos (le_min (le_max_right _ _) (by decide)), ?_,
        List.isChain_nil, fun _ isLast => nomatch isLast⟩
      exact List.drop_nil.symm
  | append_singleton calls call ih =>
      rw [history_concat, after, run_concat]
      exact ih.step call

/-! ## Real changes -/

/-- The log of a node, as its readers take it: of all transitions there have been it retains the
latest, each a change, each from where the one before it has ended, and the last to the current
state. -/
structure LogsChanges (node : NodeLifecycle) (history : List NodeLifecycleTransition) : Prop where
  latest : node.transitions = Ring.latest node.maxTransitions history
  bounded : node.transitions.length ≤ node.maxTransitions
  changes : ∀ record ∈ node.transitions, record.from ≠ record.to
  follow : node.transitions.IsChain NodeLifecycleTransition.Follows
  last : ∀ record ∈ node.transitions.getLast?, record.to = node.state

theorem IsLog.changes_iff (isLog : IsLog node past) :
    LogsChanges node past ↔ ∀ record ∈ node.transitions, record.from ≠ record.to := by
  refine ⟨LogsChanges.changes, fun changes => ⟨isLog.latest, ?_, changes, ?_, ?_⟩⟩
  · rw [isLog.latest, Ring.length_latest]
    exact Nat.min_le_right _ _
  · rw [isLog.latest]
    exact isLog.follow.drop _
  · rw [isLog.latest, Ring.getLast?_latest isLog.positive]
    exact fun record isLast => (isLog.last record isLast).1

/-- As long as no call repeats, what is logged changes something. -/
theorem changes_of_allSteps
    (never : AllSteps step (fun node call => ¬ Repeats node call) (new maxTransitions) calls) :
    ∀ record ∈ history maxTransitions calls, record.from ≠ record.to := by
  induction calls using List.reverseRecOn with
  | nil => exact fun _ mem => nomatch mem
  | append_singleton calls call ih =>
      obtain ⟨earlier, last, -⟩ := allSteps_append.mp never
      rw [history_concat]
      refine List.forall_mem_append.mpr ⟨ih earlier, fun record mem => ?_⟩
      rcases step_cases (after maxTransitions calls) call with ⟨moved, transits, same⟩ | ⟨stays, -⟩
      · rw [transits.logged] at mem
        obtain rfl := List.mem_singleton.mp mem
        exact fun unchanged => last (same.mp unchanged)
      · rw [stays.logged] at mem
        exact absurd mem List.not_mem_nil

/-- A call that repeats shows in the log. -/
theorem exists_unchanged_of_repeats (repeats : Repeats node call) :
    ∃ record ∈ (node.step call).transitions, record.from = record.to := by
  rcases step_cases node call with ⟨record, transits, same⟩ | ⟨-, notRepeats⟩
  · refine ⟨record, ?_, same.mpr repeats⟩
    rw [transits.transitions]
    exact List.mem_append_right _ (List.mem_singleton_self _)
  · exact absurd repeats notRepeats

/-- **The log is one of real changes** at every point of a run if and only if no failure finds
the node `Degraded` and is one of the second to the fourth in a row. -/
theorem logsChanges_iff (maxTransitions : ℕ) (calls : List LifecycleCall) :
    (∀ before, before <+: calls →
        LogsChanges (after maxTransitions before) (history maxTransitions before)) ↔
      AllSteps step (fun node call => ¬ Repeats node call) (new maxTransitions) calls := by
  constructor
  · intro changes
    refine allSteps_iff.mpr fun before call rest split repeats => ?_
    have isPrefix : before ++ [call] <+: calls := ⟨rest, by rw [split, List.append_assoc]; rfl⟩
    obtain ⟨record, mem, unchanged⟩ := exists_unchanged_of_repeats repeats
    have retained : record ∈ (after maxTransitions (before ++ [call])).transitions := by
      rw [after, run_concat]
      exact mem
    exact (changes _ isPrefix).changes record retained unchanged
  · rintro never before ⟨rest, rfl⟩
    have isLog := isLog_after maxTransitions before
    refine isLog.changes_iff.mpr fun record mem => ?_
    rw [isLog.latest] at mem
    exact changes_of_allSteps (allSteps_append.mp never).1 record (List.mem_of_mem_drop mem)

/-- Three failures of a new node. -/
theorem not_logsChanges :
    ¬ ∀ (maxTransitions : ℕ) (calls : List LifecycleCall),
      LogsChanges (after maxTransitions calls) (history maxTransitions calls) := by
  intro all
  refine (all 10 [.recordFailure 1, .recordFailure 2, .recordFailure 3]).changes
    ⟨.degraded, .degraded, "failures_increasing", 3, 2⟩ ?_ rfl
  decide

/-! ## Failures in a row -/

/-- There has been no failure since the last success. -/
def Unharmed (calls : List LifecycleCall) : Prop :=
  ∀ before now rest, calls = before ++ .recordFailure now :: rest →
    ∃ later, .recordSuccess later ∈ rest

def failures (times : List SystemTime) : List LifecycleCall := times.map .recordFailure

/-- The state of a `Healthy` node after so many failures. -/
def rung : ℕ → NodeLifecycleState
  | 0 | 1 => .healthy
  | 2 | 3 | 4 => .degraded
  | _ => .failed

@[simp] theorem recordSuccess_consecutiveFailures (now : SystemTime) :
    (node.recordSuccess now).consecutiveFailures = 0 := by
  unfold recordSuccess
  dsimp only
  split_ifs <;> rfl

@[simp] theorem recordFailure_consecutiveFailures (now : SystemTime) :
    (node.recordFailure now).consecutiveFailures = node.consecutiveFailures + 1 := by
  unfold recordFailure
  dsimp only
  split_ifs <;> rfl

@[simp] theorem drain_consecutiveFailures (now : SystemTime) :
    (node.drain now).consecutiveFailures = node.consecutiveFailures := by
  unfold drain
  split_ifs <;> rfl

theorem beginRecovery_consecutiveFailures (now : SystemTime) :
    (node.beginRecovery now).consecutiveFailures =
      if node.state = .failed then 0 else node.consecutiveFailures := by
  unfold beginRecovery
  split_ifs <;> rfl

/-- A call that is no success does not make up for a failure. -/
theorem Unharmed.of_concat (unharmed : Unharmed (calls ++ [call]))
    (noSuccess : ∀ now, call ≠ .recordSuccess now) : Unharmed calls := by
  rintro before now rest rfl
  obtain ⟨later, mem⟩ := unharmed before now (rest ++ [call]) (by simp)
  rcases List.mem_append.mp mem with mem | mem
  · exact ⟨later, mem⟩
  · exact absurd (List.mem_singleton.mp mem).symm (noSuccess later)

theorem consecutiveFailures_after (unharmed : Unharmed calls) :
    (after maxTransitions calls).consecutiveFailures = 0 := by
  induction calls using List.reverseRecOn with
  | nil => rfl
  | append_singleton calls call ih =>
      rw [after, run_concat]
      cases call with
      | recordSuccess now => exact recordSuccess_consecutiveFailures now
      | recordFailure now =>
          obtain ⟨later, mem⟩ := unharmed calls now [] rfl
          exact absurd mem List.not_mem_nil
      | drain now =>
          exact (drain_consecutiveFailures now).trans (ih (unharmed.of_concat nofun))
      | beginRecovery now =>
          refine (beginRecovery_consecutiveFailures now).trans ?_
          split_ifs
          · rfl
          · exact ih (unharmed.of_concat nofun)

/-- One more failure is one rung down.  The rung of `Suspect` is passed by: the failure that
would lead there finds the node `Degraded`. -/
theorem recordFailure_rung {k : ℕ} (lt : k < 5) (state : node.state = rung k)
    (counted : node.consecutiveFailures = .ofNat k) (now : SystemTime) :
    (node.recordFailure now).state = rung (k + 1) := by
  have counts : node.countFailure.consecutiveFailures = .ofNat k + 1 :=
    congrArg (· + 1) counted
  unfold recordFailure
  simp only [counts, countFailure_state, state]
  obtain rfl | rfl | rfl | rfl | rfl : k = 0 ∨ k = 1 ∨ k = 2 ∨ k = 3 ∨ k = 4 := by omega
  · exact state
  all_goals rfl

theorem run_failures (healthy : node.state = .healthy) (none : node.consecutiveFailures = 0)
    {times : List SystemTime} (few : times.length ≤ 5) :
    (run step node (failures times)).state = rung times.length ∧
      (run step node (failures times)).consecutiveFailures = .ofNat times.length := by
  induction times using List.reverseRecOn with
  | nil => exact ⟨healthy, none⟩
  | append_singleton times now ih =>
      rw [List.length_append, List.length_singleton] at few ⊢
      obtain ⟨state, counted⟩ := ih (Nat.le_of_succ_le few)
      rw [failures, List.map_append, List.map_singleton, run_concat]
      refine ⟨recordFailure_rung few state counted now, ?_⟩
      refine (recordFailure_consecutiveFailures now).trans ?_
      rw [← failures, counted, UInt32.ofNat_add]
      rfl

/-- The node is not `Suspect`, and as long as it is `Healthy` there has been one failure in a row
at most. -/
structure Unsuspected (node : NodeLifecycle) : Prop where
  state : node.state ≠ .suspect
  failures : node.state = .healthy → node.consecutiveFailures = 0 ∨ node.consecutiveFailures = 1

theorem Unsuspected.step (unsuspected : Unsuspected node) (call : LifecycleCall) :
    Unsuspected (node.step call) := by
  cases call with
  | recordSuccess now =>
      refine ⟨?_, fun _ => .inl (recordSuccess_consecutiveFailures now)⟩
      show (node.recordSuccess now).state ≠ .suspect
      unfold recordSuccess
      dsimp only
      split_ifs
      · simp
      · simp
      · simp
      · exact unsuspected.state
  | recordFailure now =>
      have counted : node.countFailure.consecutiveFailures = node.consecutiveFailures + 1 := rfl
      show Unsuspected (node.recordFailure now)
      unfold recordFailure
      dsimp only
      rw [countFailure_state, counted]
      split_ifs with failed suspected degraded
      · exact ⟨by simp, by simp⟩
      · -- a `Healthy` node has not had enough failures before
        rcases unsuspected.failures suspected.2 with none | one
        · exact absurd (none ▸ suspected.1) (by decide)
        · exact absurd (one ▸ suspected.1) (by decide)
      · exact ⟨by simp, by simp⟩
      · refine ⟨unsuspected.state, fun healthy => .inr ?_⟩
        rcases unsuspected.failures healthy with none | one
        · rw [counted, none]
          rfl
        · rw [one] at degraded
          exact absurd ⟨by decide, .inl healthy⟩ degraded
  | drain now =>
      show Unsuspected (node.drain now)
      exact ⟨by simp, by simp⟩
  | beginRecovery now =>
      show Unsuspected (node.beginRecovery now)
      unfold beginRecovery
      split_ifs
      · exact ⟨by simp, by simp⟩
      · exact unsuspected

/-- **No node is ever `Suspect`.** -/
theorem unsuspected_after (maxTransitions : ℕ) (calls : List LifecycleCall) :
    Unsuspected (after maxTransitions calls) :=
  run_induction ⟨by simp [new], fun _ => .inl rfl⟩
    (fun _ call unsuspected => unsuspected.step call) calls

/-- What the arms of `record_failure` are for: three failures in a row make a node `Suspect`,
and five make it `Failed`. -/
def EscalatesInTurn (node : NodeLifecycle) : Prop :=
  ∀ times : List SystemTime,
    (times.length = 3 ∨ times.length = 4 →
      (run step node (failures times)).state = .suspect) ∧
    (times.length = 5 → (run step node (failures times)).state = .failed)

/-- **No node is ever made `Suspect` by failures in a row.**  A `Healthy` node is `Degraded`
after three and after four failures, and `Failed` after five. -/
theorem not_escalatesInTurn_after (maxTransitions : ℕ) (calls : List LifecycleCall)
    (healthy : (after maxTransitions calls).state = .healthy) (unharmed : Unharmed calls) :
    ¬ EscalatesInTurn (after maxTransitions calls) ∧ ∀ times : List SystemTime,
      (times.length = 3 ∨ times.length = 4 →
        (run step (after maxTransitions calls) (failures times)).state = .degraded) ∧
      (times.length = 5 →
        (run step (after maxTransitions calls) (failures times)).state = .failed) := by
  have none : (after maxTransitions calls).consecutiveFailures = 0 :=
    consecutiveFailures_after unharmed
  have stateOf := fun (times : List SystemTime) (few : times.length ≤ 5) =>
    (run_failures healthy none few).1
  have degraded : ∀ times : List SystemTime, times.length = 3 ∨ times.length = 4 →
      (run step (after maxTransitions calls) (failures times)).state = .degraded := by
    rintro times (three | four)
    · rw [stateOf times (by omega), three]
      rfl
    · rw [stateOf times (by omega), four]
      rfl
  refine ⟨fun escalates => ?_, fun times => ⟨degraded times, fun five => ?_⟩⟩
  · have suspect := (escalates [1, 2, 3]).1 (.inl rfl)
    cases suspect.symm.trans (degraded [1, 2, 3] (.inl rfl))
  · rw [stateOf times five.le, five]
    rfl

theorem unharmed_nil : Unharmed [] := fun _ _ _ split =>
  absurd split.symm (List.append_ne_nil_of_right_ne_nil _ (List.cons_ne_nil _ _))

/-- A success counts for all failures before it. -/
theorem unharmed_concat_recordSuccess (calls : List LifecycleCall) (later : SystemTime) :
    Unharmed (calls ++ [.recordSuccess later]) := by
  intro before now rest split
  rcases List.eq_nil_or_concat' rest with rfl | ⟨rest, last, rfl⟩
  · cases (List.append_inj' split rfl).2
  · rw [← List.cons_append, ← List.append_assoc] at split
    obtain rfl : LifecycleCall.recordSuccess later = last := by
      simpa using (List.append_inj' split rfl).2
    exact ⟨later, List.mem_append_right _ (.head _)⟩

/-- A node that has been `Degraded`, has recovered and has failed once since. -/
theorem not_escalatesInTurn_recovered :
    let past : List LifecycleCall :=
      [.recordFailure 1, .recordFailure 2, .recordSuccess 3, .recordSuccess 4, .recordFailure 5,
        .recordSuccess 6]
    ¬ EscalatesInTurn (after 10 past) ∧
      (run step (after 10 past) (failures [7, 8, 9])).state = .degraded ∧
      (run step (after 10 past) (failures [7, 8, 9, 10, 11])).state = .failed := by
  intro past
  obtain ⟨never, states⟩ := not_escalatesInTurn_after 10 past (by decide)
    (unharmed_concat_recordSuccess
      [.recordFailure 1, .recordFailure 2, .recordSuccess 3, .recordSuccess 4, .recordFailure 5] 6)
  exact ⟨never, (states [7, 8, 9]).1 (.inl rfl), (states [7, 8, 9, 10, 11]).2 rfl⟩

/-- The third failure of a new node. -/
theorem not_escalatesInTurn :
    ¬ ∀ (maxTransitions : ℕ) (calls : List LifecycleCall),
      (after maxTransitions calls).state = .healthy → Unharmed calls →
        EscalatesInTurn (after maxTransitions calls) := by
  intro all
  have suspect := (all 10 [] rfl unharmed_nil [1, 2, 3]).1 (.inl rfl)
  have degraded : (run step (after 10 []) (failures [1, 2, 3])).state = .degraded := by decide
  cases suspect.symm.trans degraded

end NodeLifecycle

end TrustRouter
