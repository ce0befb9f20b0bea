import Rodos.Library.BeatLog
import Rodos.Library.Runs
import Rodos.Library.Selection
import Rodos.Time.TimeModel

/-! `ActivityExecuter`: one thread that executes the steps of all activities, one step in each turn
of its loop. What a step does to the activities is up to the user. -/
namespace Rodos.Support
open Library Time

/-- Stands for `Activity*`. -/
abbrev ActivityId := Nat

structure Activity where
  suspendedUntil : Int64 := END_OF_TIME
  periode : Int64 := 0
  priority : Int32 := 100

def Activity.activateAt (time : Int64) (self : Activity) : Activity :=
  { self with suspendedUntil := time }

def Activity.activatePeriodic (startAt periode : Int64) (self : Activity) : Activity :=
  { self with periode := periode, suspendedUntil := startAt }

structure Activities where
  activityList : List ActivityId
  activity : ActivityId → Activity

namespace Activities

/-- The activity is due now. -/
def IsDue (self : Activities) (timeNow : Int64) (id : ActivityId) : Prop :=
  (self.activity id).suspendedUntil ≤ timeNow

instance (self : Activities) (timeNow : Int64) : DecidablePred (self.IsDue timeNow) :=
  fun _ => inferInstanceAs (Decidable (_ ≤ _))

/-- The body of `ITERATE_LIST`: `nextActivity` and `nextTime`. -/
def consider (self : Activities) (timeNow : Int64) (found : Option ActivityId × Int64)
    (iter : ActivityId) : Option ActivityId × Int64 :=
  let nextActivity :=
    if self.IsDue timeNow iter then
      let nextActivity := found.1.getD iter
      if (self.activity iter).priority > (self.activity nextActivity).priority then some iter
      else some nextActivity
    else found.1
  let nextTime :=
    if (self.activity iter).suspendedUntil < found.2 then (self.activity iter).suspendedUntil
    else found.2
  (nextActivity, nextTime)

def select (self : Activities) (timeNow : Int64) : Option ActivityId × Int64 :=
  self.activityList.foldl (self.consider timeNow) (none, END_OF_TIME)

section select

variable {self : Activities} {timeNow : Int64}

def HasPriorityOver (self : Activities) (left right : ActivityId) : Prop :=
  (self.activity left).priority > (self.activity right).priority

instance (self : Activities) : DecidableRel self.HasPriorityOver :=
  fun _ _ => inferInstanceAs (Decidable (_ > _))

theorem isPreference_hasPriorityOver : IsPreference self.HasPriorityOver where
  asymmetric left right hleft hright := by
    rw [HasPriorityOver, gt_iff_lt, Int32.lt_iff_toInt_lt] at hleft hright
    omega
  between left middle right hleft := by
    simp only [HasPriorityOver, gt_iff_lt, Int32.lt_iff_toInt_lt] at *
    omega

@[simp] theorem consider_of_due {found : Option ActivityId × Int64} {iter : ActivityId}
    (hdue : self.IsDue timeNow iter) :
    (self.consider timeNow found iter).1 = some (found.1.elim iter fun chosen =>
      if self.HasPriorityOver iter chosen then iter else chosen) := by
  have hself : ¬ self.HasPriorityOver iter iter := fun hover =>
    isPreference_hasPriorityOver.asymmetric iter iter hover hover
  cases hfound : found.1 with
  | none =>
    rw [HasPriorityOver] at hself
    simp [consider, hdue, hfound, hself]
  | some chosen =>
    simp only [consider, if_pos hdue, hfound, Option.getD_some, Option.elim_some,
      HasPriorityOver]
    exact (apply_ite some _ _ _).symm

@[simp] theorem consider_of_not_due {found : Option ActivityId × Int64} {iter : ActivityId}
    (hdue : ¬ self.IsDue timeNow iter) : (self.consider timeNow found iter).1 = found.1 := by
  simp [consider, hdue]

/-- The loop chooses the best of the activities that are due. -/
theorem foldl_consider_fst (found : Option ActivityId × Int64) (iters : List ActivityId) :
    (iters.foldl (self.consider timeNow) found).1 =
      match found.1.toList ++ iters.filter (self.IsDue timeNow) with
      | [] => none
      | first :: others => some (selectBest self.HasPriorityOver first others) := by
  induction iters generalizing found with
  | nil => cases hfound : found.1 <;> simp [hfound]
  | cons iter iters ih =>
    rw [List.foldl_cons, ih]
    by_cases hdue : self.IsDue timeNow iter
    · rw [consider_of_due hdue, List.filter_cons_of_pos (by simpa using hdue)]
      cases found.1 with
      | none => rfl
      | some chosen => rfl
    · rw [consider_of_not_due hdue, List.filter_cons_of_neg (by simpa using hdue)]

theorem select_fst : (self.select timeNow).1 =
    match self.activityList.filter (self.IsDue timeNow) with
    | [] => none
    | first :: others => some (selectBest self.HasPriorityOver first others) :=
  foldl_consider_fst (none, END_OF_TIME) self.activityList

theorem not_due_of_select_none (h : (self.select timeNow).1 = none) :
    ∀ id ∈ self.activityList, ¬ self.IsDue timeNow id := by
  intro id hid hdue
  rw [select_fst] at h
  split at h
  · next hnone =>
    have hmem : id ∈ self.activityList.filter (self.IsDue timeNow) :=
      List.mem_filter.mpr ⟨hid, by simpa using hdue⟩
    rw [hnone] at hmem
    exact List.not_mem_nil hmem
  · cases h

theorem select_mem {id : ActivityId} (h : (self.select timeNow).1 = some id) :
    id ∈ self.activityList.filter (self.IsDue timeNow) := by
  rw [select_fst] at h
  split at h
  · cases h
  · next first others heq =>
    rw [heq, ← Option.some.inj h]
    exact selectBest_mem _ first others

theorem due_of_select {id : ActivityId} (h : (self.select timeNow).1 = some id) :
    self.IsDue timeNow id := by
  simpa using (List.mem_filter.mp (select_mem h)).2

/-- No activity that is due has to wait for one of a lower priority. -/
theorem not_hasPriorityOver_select {id : ActivityId} (h : (self.select timeNow).1 = some id) :
    ∀ other ∈ self.activityList, self.IsDue timeNow other → ¬ self.HasPriorityOver other id := by
  intro other hother hdue
  have hmem : other ∈ self.activityList.filter (self.IsDue timeNow) :=
    List.mem_filter.mpr ⟨hother, by simpa using hdue⟩
  rw [select_fst] at h
  split at h
  · cases h
  · next first others heq =>
    rw [heq] at hmem
    rw [← Option.some.inj h]
    exact isPreference_hasPriorityOver.not_better_selectBest first others other hmem

theorem consider_snd_le (found : Option ActivityId × Int64) (iter : ActivityId) :
    (self.consider timeNow found iter).2 ≤ found.2 ∧
      (self.consider timeNow found iter).2 ≤ (self.activity iter).suspendedUntil := by
  simp only [consider, Int64.le_iff_toInt_le, Int64.lt_iff_toInt_lt]
  split <;> omega

theorem foldl_consider_snd_le (found : Option ActivityId × Int64) (iters : List ActivityId) :
    (iters.foldl (self.consider timeNow) found).2 ≤ found.2 ∧
      ∀ iter ∈ iters, (iters.foldl (self.consider timeNow) found).2 ≤
        (self.activity iter).suspendedUntil := by
  induction iters generalizing found with
  | nil => exact ⟨Int64.le_refl _, by simp⟩
  | cons iter iters ih =>
    have hfirst := @consider_snd_le self timeNow found iter
    have hrest := ih (self.consider timeNow found iter)
    rw [List.foldl_cons]
    exact ⟨Int64.le_trans hrest.1 hfirst.1, List.forall_mem_cons.mpr
      ⟨Int64.le_trans hrest.1 hfirst.2, hrest.2⟩⟩

/-- The time to wait for is not behind any activity. -/
theorem nextTime_le {id : ActivityId} (hid : id ∈ self.activityList) :
    (self.select timeNow).2 ≤ (self.activity id).suspendedUntil :=
  (foldl_consider_snd_le (none, END_OF_TIME) self.activityList).2 id hid

/-- An activity that was due leaves no time to wait. -/
theorem nextTime_le_of_select {id : ActivityId} (h : (self.select timeNow).1 = some id) :
    (self.select timeNow).2 ≤ timeNow :=
  Int64.le_trans (nextTime_le (List.mem_filter.mp (select_mem h)).1) (due_of_select h)

end select

/-- `nextActivity->step(timeNow)`, which has the given effect, and the beat behind it. -/
def execute (self : Activities) (timeNow : Int64) (effect : Activities → Activities)
    (nextActivity : ActivityId) : Activities :=
  let self := effect self
  let activity := self.activity nextActivity
  { self with
    activity := Function.update self.activity nextActivity { activity with
      suspendedUntil := computeNextBeat activity.suspendedUntil activity.periode timeNow } }

@[simp] theorem execute_activity_self {self : Activities} {timeNow : Int64}
    {effect : Activities → Activities} {nextActivity : ActivityId} :
    (self.execute timeNow effect nextActivity).activity nextActivity =
      { (effect self).activity nextActivity with
        suspendedUntil := computeNextBeat ((effect self).activity nextActivity).suspendedUntil
          ((effect self).activity nextActivity).periode timeNow } := Function.update_self ..

@[simp] theorem execute_activity_of_ne {self : Activities} {timeNow : Int64}
    {effect : Activities → Activities} {id nextActivity : ActivityId} (h : id ≠ nextActivity) :
    (self.execute timeNow effect nextActivity).activity id = (effect self).activity id :=
  Function.update_of_ne h ..

end Activities

/-- The last field is not in the program: which activities were executed, each with the beat and
the time, the last one first. -/
structure ActivityExecuter where
  activities : Activities
  /-- Of the thread. -/
  suspendedUntil : Int64 := 0
  /-- What `NOW()` returned last. -/
  lastNow : Int64 := 0
  executed : List (ActivityId × Int64 × Int64) := []

/-- What one turn of the loop meets: the two results of `NOW()`, and what the step does. -/
structure Turn where
  timeNow : Int64
  later : Int64
  effect : Activities → Activities := id

namespace ActivityExecuter

def turn (executer : ActivityExecuter) (turn : Turn) : ActivityExecuter :=
  let (nextActivity, nextTime) := executer.activities.select turn.timeNow
  { activities := match nextActivity with
      | none => executer.activities
      | some id => executer.activities.execute turn.timeNow turn.effect id
    suspendedUntil := if nextTime > turn.later then nextTime else 0
    lastNow := turn.later
    executed := match nextActivity with
      | none => executer.executed
      | some id =>
        (id, (executer.activities.activity id).suspendedUntil, turn.timeNow) ::
          executer.executed }

/-- Time does not run backwards, and the thread runs behind the time it is suspended until. -/
def step (executer : ActivityExecuter) (turn : Turn) : Option ActivityExecuter :=
  if executer.lastNow ≤ turn.timeNow ∧ turn.timeNow ≤ turn.later ∧
      executer.suspendedUntil < turn.timeNow then
    some (executer.turn turn)
  else none

variable {executer final : ActivityExecuter} {turns : List Turn}

theorem turn_of_none {turn : Turn} (h : (executer.activities.select turn.timeNow).1 = none) :
    executer.turn turn = { executer with
      suspendedUntil :=
        if (executer.activities.select turn.timeNow).2 > turn.later then
          (executer.activities.select turn.timeNow).2
        else 0
      lastNow := turn.later } := by
  simp only [ActivityExecuter.turn, h]

/-- The executer looks at once for the next activity. -/
theorem turn_of_some {turn : Turn} {id : ActivityId}
    (h : (executer.activities.select turn.timeNow).1 = some id)
    (hlater : turn.timeNow ≤ turn.later) :
    executer.turn turn = {
      activities := executer.activities.execute turn.timeNow turn.effect id
      lastNow := turn.later
      executed := (id, (executer.activities.activity id).suspendedUntil, turn.timeNow) ::
        executer.executed } := by
  have hle := Int64.le_trans (Activities.nextTime_le_of_select h) hlater
  simp only [ActivityExecuter.turn, h, gt_iff_lt, if_neg (Int64.not_lt.mpr hle)]

/-- While it is suspended, no activity gets due. -/
def WakesInTime (executer : ActivityExecuter) : Prop :=
  executer.suspendedUntil ≠ 0 → ∀ id ∈ executer.activities.activityList,
    executer.suspendedUntil ≤ (executer.activities.activity id).suspendedUntil

theorem WakesInTime.turn {turn : Turn} (hlater : turn.timeNow ≤ turn.later) :
    (executer.turn turn).WakesInTime := by
  intro hsuspended id hid
  cases hselect : (executer.activities.select turn.timeNow).1 with
  | none =>
    rw [turn_of_none hselect] at hsuspended hid ⊢
    have hle := @Activities.nextTime_le _ turn.timeNow id hid
    dsimp only at hsuspended hle ⊢
    split at hsuspended
    · next hsleeps => rwa [if_pos hsleeps]
    · exact absurd rfl hsuspended
  | some chosen =>
    rw [turn_of_some hselect hlater] at hsuspended
    exact absurd rfl hsuspended

/-- Whatever the steps do with the activities, the executer does not sleep beyond any of them. -/
theorem wakes_in_time (hinitial : executer.WakesInTime)
    (hrun : run step executer turns = some final) : final.WakesInTime := by
  apply run_invariant _ hinitial hrun
  intro executer turn next _ hstep
  rw [step] at hstep
  split at hstep
  · next hallowed => exact Option.some.inj hstep ▸ WakesInTime.turn hallowed.2.1
  · cases hstep

/-- The first activity runs every ten units of time, and the other one only when it is asked to. -/
def twoActivities : ActivityExecuter where
  activities := {
    activityList := [0, 1]
    activity := fun id => if id = 0 then Activity.activatePeriodic 10 10 {} else {} }

/-- The step asks the second activity to run at the time. -/
def askSecond (time : Int64) (activities : Activities) : Activities :=
  { activities with activity :=
      Function.update activities.activity 1 ((activities.activity 1).activateAt time) }

theorem wakes_in_time_twoActivities : ∃ final,
    run step twoActivities [⟨12, 13, askSecond 16⟩, ⟨14, 15, id⟩] = some final ∧
      final.suspendedUntil = 16 ∧ final.WakesInTime :=
  ⟨_, rfl, by decide, @wakes_in_time twoActivities _ [⟨12, 13, askSecond 16⟩, ⟨14, 15, id⟩]
    (fun hsuspended => absurd rfl hsuspended) rfl⟩

/-- The beats of one activity that were executed, with their times. -/
def beats (executer : ActivityExecuter) (id : ActivityId) : List (Int × Int) :=
  (executer.executed.filter (·.1 = id)).map fun entry => (entry.2.1.toInt, entry.2.2.toInt)

section periodic

variable (id : ActivityId) (startAt periode : Int64)

/-- The steps leave the schedule of this activity alone, and the end of time is far. -/
def Undisturbed (executer : ActivityExecuter) (turn : Turn) : Prop :=
  (turn.effect executer.activities).activity id = executer.activities.activity id ∧
    turn.timeNow.toInt + periode.toInt ≤ END_OF_TIME.toInt

/-- What the log says about the activity, and what it is suspended until. -/
structure Served (executer : ActivityExecuter) : Prop where
  periode_eq : (executer.activities.activity id).periode = periode
  log : BeatLog startAt.toInt periode.toInt (executer.beats id)
    (executer.activities.activity id).suspendedUntil.toInt

variable {id startAt periode}

theorem Served.turn_of_other {turn : Turn} {chosen : ActivityId}
    (h : executer.Served id startAt periode)
    (hselect : (executer.activities.select turn.timeNow).1 = some chosen) (hother : chosen ≠ id)
    (hlater : turn.timeNow ≤ turn.later) (hundisturbed : executer.Undisturbed id periode turn) :
    (executer.turn turn).Served id startAt periode := by
  have hactivity : (executer.activities.execute turn.timeNow turn.effect chosen).activity id =
      executer.activities.activity id := by
    rw [Activities.execute_activity_of_ne hother.symm, hundisturbed.1]
  rw [turn_of_some hselect hlater]
  exact {
    periode_eq := by
      rw [hactivity]
      exact h.periode_eq
    log := by
      rw [hactivity, beats, List.filter_cons_of_neg (by simpa using hother)]
      exact h.log }

theorem Served.turn_of_chosen {turn : Turn} (h : executer.Served id startAt periode)
    (hstart : 0 ≤ startAt.toInt) (hperiode : 0 < periode.toInt)
    (hselect : (executer.activities.select turn.timeNow).1 = some id)
    (hlater : turn.timeNow ≤ turn.later) (hundisturbed : executer.Undisturbed id periode turn) :
    (executer.turn turn).Served id startAt periode := by
  have hactivity := hundisturbed.1
  have hdue := Int64.le_iff_toInt_le.mp (Activities.due_of_select hselect)
  have hbegin : 0 ≤ (executer.activities.activity id).suspendedUntil.toInt := by
    have hmem := (h.log.onTime hperiode).next_mem
    have hle := origin_le_of_mem hperiode hmem
    omega
  have hfits : BeatFits (executer.activities.activity id).suspendedUntil periode turn.timeNow :=
    (Grid.nextAfter_le_add hperiode).trans hundisturbed.2
  have hnext := hfits.toInt_computeNextBeat hbegin hperiode hdue
  rw [turn_of_some hselect hlater]
  exact {
    periode_eq := by
      rw [Activities.execute_activity_self, hactivity]
      exact h.periode_eq
    log := by
      rw [Activities.execute_activity_self, hactivity, h.periode_eq, hnext, beats,
        List.filter_cons_of_pos (by simp)]
      exact h.log.serve hdue }

theorem Served.step {turn : Turn} {next : ActivityExecuter} (h : executer.Served id startAt periode)
    (hstart : 0 ≤ startAt.toInt) (hperiode : 0 < periode.toInt)
    (hundisturbed : executer.Undisturbed id periode turn) (hstep : step executer turn = some next) :
    next.Served id startAt periode := by
  rw [ActivityExecuter.step] at hstep
  split at hstep
  · next hallowed =>
    obtain rfl := Option.some.inj hstep
    cases hselect : (executer.activities.select turn.timeNow).1 with
    | none =>
      rw [turn_of_none hselect]
      exact { periode_eq := h.periode_eq, log := h.log }
    | some chosen =>
      by_cases hchosen : chosen = id
      · subst hchosen
        exact h.turn_of_chosen hstart hperiode hselect hallowed.2.1 hundisturbed
      · exact h.turn_of_other hselect hchosen hallowed.2.1 hundisturbed
  · cases hstep

/-- A periodic activity is executed on time whatever the other activities do, as long as nobody else
changes its schedule. -/
theorem periodic_on_time {activity : Activity} (hstart : 0 ≤ startAt.toInt)
    (hperiode : 0 < periode.toInt)
    (hactivity : executer.activities.activity id = activity.activatePeriodic startAt periode)
    (hbeats : executer.beats id = [])
    (hundisturbed : Along step (Undisturbed id periode) executer turns)
    (hrun : run step executer turns = some final) :
    OnTime startAt.toInt periode.toInt (final.beats id)
      (final.activities.activity id).suspendedUntil.toInt := by
  have hserved : executer.Served id startAt periode := {
    periode_eq := by
      rw [hactivity]
      rfl
    log := by
      rw [hbeats, hactivity]
      exact BeatLog.start }
  have hkeeps := run_invariant_along
    (fun _ _ _ h hundisturbed hstep => h.step hstart hperiode hundisturbed hstep) hserved
    hundisturbed hrun
  exact hkeeps.log.onTime hperiode

/-- The second beat is late, so the third one is left out. -/
theorem periodic_on_time_twoActivities :
    OnTime 10 10 [(20, 35), (10, 12)] 40 := by
  have h := @periodic_on_time twoActivities _ [⟨12, 13, askSecond 60⟩, ⟨35, 36, id⟩] 0 10 10 {}
    (by decide) (by decide) rfl rfl ⟨⟨rfl, by decide⟩, ⟨rfl, by decide⟩, trivial⟩ rfl
  exact h

end periodic

end ActivityExecuter

end Rodos.Support
