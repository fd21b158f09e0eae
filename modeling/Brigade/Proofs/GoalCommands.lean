/-
What the commands on goals have in common.

Ten commands act on goal periods and goal sets. Each checks its input before anything else, and is counted under a name
of its own (`task_of_goalName`); with complaints about its input it does nothing but count its failure
(`task_of_complaining`). Eight of them change a stored goal set (`Changes`): by an operation that their input alone
determines, or by a new goal under a fresh identity. So what holds of `GoalCommand.change` holds of all eight.
-/
import Brigade.Command
import Brigade.Proofs.Writes

namespace Brigade

theorem GoalValue.create_ne_fault (min mid max : Int32) (type : GoalValueType) (f : Fault) :
    create min mid max type ≠ .fault f := by
  unfold create
  split_ifs <;> simp

namespace Command

/-- the goal set that a command changes -/
def goalSet? : Command → Option Id
  | .addGoal c => some c.goalSetId
  | .updateGoal c => some c.goalSetId
  | .submitProgress c => some c.goalSetId
  | .approveProgress c | .rejectProgress c => some c.goalSetId
  | .sendToApproval c => some c.goalSetId
  | .approveGoalSet c | .rejectGoalSet c => some c.goalSetId
  | _ => none

/-- the operation that a command asks of its goal set; a goal that it adds gets the identity `fresh` -/
def op? (fresh : Id) : Command → Option GoalSet.Op
  | .addGoal c =>
    match GoalValue.create c.min c.mid c.max c.valueType with
    | .ok v => some (.addGoal fresh c.title c.type v c.percentage)
    | _ => none
  | .updateGoal c => some (.updateGoal c.goalId c.title c.type c.valueType c.percentage)
  | .submitProgress c => some (.submitProgress c.goalId c.actual c.comment)
  | .approveProgress c => some (.approveProgress c.goalId)
  | .rejectProgress c => some (.rejectProgress c.goalId)
  | .sendToApproval _ => some .sendToApproval
  | .approveGoalSet c => some (.approve c.userId)
  | .rejectGoalSet c => some (.reject c.userId)
  | _ => none

/-- what a command on goals is counted under -/
def goalName? : Command → Option GoalCommandName
  | .addGoalPeriod _ => some .addGoalPeriod
  | .createGoalSet _ => some .createGoalSet
  | .addGoal _ => some .addGoal
  | .updateGoal _ => some .updateGoal
  | .submitProgress _ => some .updateGoalProgress
  | .approveProgress _ => some .approveGoalProgress
  | .rejectProgress _ => some .rejectGoalProgress
  | .sendToApproval _ => some .sendGoalSetToApproval
  | .approveGoalSet _ => some .approveGoalSet
  | .rejectGoalSet _ => some .rejectGoalSet
  | _ => none

/-- what a command on goals complains of in its input, before it does anything else -/
def goalComplaints : Command → List Complaint
  | .addGoalPeriod c => c.complaints
  | .createGoalSet c => c.complaints
  | .addGoal c => c.complaints
  | .updateGoal c => c.complaints
  | .submitProgress c => c.complaints
  | .approveGoalSet c => c.complaints
  | .rejectGoalSet c => c.complaints
  | _ => []

/-- the task changes the goal set `i` as the command asks -/
inductive Changes (c : Command) (p : RetryPolicy) (i : Id) {β : Type} : Task β → Prop
  /-- whatever is stored, the operation is the same, and `event` tells of it -/
  | operation (op : GoalSet.Op) {event : GoalSet × Unit → Event} {result : GoalSet × Unit → β}
      (asked : ∀ fresh, c.op? fresh = some op) (told : ∀ x, Event.ofGoalSetOp x.1 op = event x) :
      Changes c p i (GoalCommand.change p i (GoalCommand.plain (·.apply op)) event result)
  /-- every try adds the goal under another identity -/
  | addition (a : AddGoal) (v : GoalValue) {result : GoalSet × Id → β}
      (asked : ∀ fresh, c.op? fresh = some (.addGoal fresh a.title a.type v a.percentage)) :
      Changes c p i (GoalCommand.change p i (a.transition v) (fun (s, j) => .goalAdded s.id j) result)
  /-- the range of the new goal is refused -/
  | outOfRange (r : Refusal) : Changes c p i (Task.fail (.domain r))

variable {c : Command} {n : GoalCommandName} {i : Id}

theorem goalName?_of_goalSet? (h : c.goalSet? = some i) : ∃ n, c.goalName? = some n := by
  cases c <;> first | exact ⟨_, rfl⟩ | cases h

/-- **One shape for the ten commands.** A command on goals is counted under its name; it checks its input, and then
changes its goal set, if it has one. -/
theorem task_of_goalName (h : c.goalName? = some n) (settings : Settings) :
    ∃ (β : Type) (t : Task β) (f : β → CommandResult),
      c.task settings = (GoalCommand.recorded n
        (Task.unless? (Validation.failure? c.goalComplaints) >>= fun _ => t)).giving f ∧
      ∀ i, c.goalSet? = some i → c.Changes settings.retry i t := by
  cases c with
  | addGoalPeriod c =>
    obtain rfl := Option.some.inj h
    exact ⟨_, _, .period, rfl, nofun⟩
  | createGoalSet c =>
    obtain rfl := Option.some.inj h
    exact ⟨_, _, .goalSet, rfl, nofun⟩
  | addGoal c =>
    obtain rfl := Option.some.inj h
    refine ⟨_, _, .goal, rfl, fun i hi => ?_⟩
    obtain rfl := Option.some.inj hi
    cases hv : GoalValue.create c.min c.mid c.max c.valueType with
    | ok v => exact .addition c v fun fresh => by simp only [op?, hv]
    | refused e => exact .outOfRange _
    | fault f => exact absurd hv (GoalValue.create_ne_fault _ _ _ _ f)
  | updateGoal c =>
    obtain rfl := Option.some.inj h
    refine ⟨_, _, .goal, rfl, fun i hi => ?_⟩
    obtain rfl := Option.some.inj hi
    exact .operation (.updateGoal c.goalId c.title c.type c.valueType c.percentage) (fun _ => rfl) fun _ => rfl
  | submitProgress c =>
    obtain rfl := Option.some.inj h
    refine ⟨_, _, .goal, rfl, fun i hi => ?_⟩
    obtain rfl := Option.some.inj hi
    exact .operation (.submitProgress c.goalId c.actual c.comment) (fun _ => rfl) fun _ => rfl
  | approveProgress c =>
    obtain rfl := Option.some.inj h
    let t := GoalCommand.changeGoal settings.retry c.goalSetId c.goalId (fun s => s.approveProgress c.goalId)
      .goalProgressApproved
    refine ⟨_, t, .goal, rfl, fun i hi => ?_⟩
    obtain rfl := Option.some.inj hi
    exact .operation (.approveProgress c.goalId) (fun _ => rfl) fun _ => rfl
  | rejectProgress c =>
    obtain rfl := Option.some.inj h
    let t := GoalCommand.changeGoal settings.retry c.goalSetId c.goalId (fun s => s.rejectProgress c.goalId)
      .goalProgressRejected
    refine ⟨_, t, .goal, rfl, fun i hi => ?_⟩
    obtain rfl := Option.some.inj hi
    exact .operation (.rejectProgress c.goalId) (fun _ => rfl) fun _ => rfl
  | sendToApproval c =>
    obtain rfl := Option.some.inj h
    let t := GoalCommand.moveSet settings.retry c.goalSetId GoalSet.sendToApproval .goalSetSubmitted
      "Goal set is sent to approval"
    refine ⟨_, t, .transition, rfl, fun i hi => ?_⟩
    obtain rfl := Option.some.inj hi
    exact .operation .sendToApproval (fun _ => rfl) fun _ => rfl
  | approveGoalSet c =>
    obtain rfl := Option.some.inj h
    refine ⟨_, _, .transition, rfl, fun i hi => ?_⟩
    obtain rfl := Option.some.inj hi
    exact .operation (.approve c.userId) (fun _ => rfl) fun _ => rfl
  | rejectGoalSet c =>
    obtain rfl := Option.some.inj h
    refine ⟨_, _, .transition, rfl, fun i hi => ?_⟩
    obtain rfl := Option.some.inj hi
    exact .operation (.reject c.userId) (fun _ => rfl) fun _ => rfl
  | _ => cases h

theorem task_of_goalSet (h : c.goalSet? = some i) (settings : Settings) :
    ∃ (n : GoalCommandName) (β : Type) (t : Task β) (f : β → CommandResult),
      c.task settings = (GoalCommand.recorded n
        (Task.unless? (Validation.failure? c.goalComplaints) >>= fun _ => t)).giving f ∧
      c.Changes settings.retry i t := by
  obtain ⟨n, hname⟩ := goalName?_of_goalSet? h
  obtain ⟨β, t, f, htask, hchanges⟩ := task_of_goalName hname settings
  exact ⟨n, β, t, f, htask, hchanges i h⟩

/-- a command that complains of its input only counts its failure -/
theorem task_of_complaining (hname : c.goalName? = some n) (h : c.goalComplaints ≠ []) (settings : Settings) :
    (c.task settings).plan = .ask (.count (.commandsFailed n .validation)) fun _ =>
      .done (.failure (.validation (Validation.summary c.goalComplaints))) := by
  obtain ⟨β, t, f, htask, -⟩ := task_of_goalName hname settings
  rw [htask]
  cases hcomplaints : c.goalComplaints with
  | nil => exact absurd hcomplaints h
  | cons x complaints => rfl

end Command

end Brigade
