/-
What the queries that list something answer, in any arrangement of what is stored.

An answer has what fits the query, each as often as it is stored, in increasing order of a key (`Selects`). So two answers
from the same contents differ at most in the order of entries with equal keys (`Selects.tied`).
- `lists_answered`: the sets that wait for a decision are those of the teams that can be approved or rejected, by team and
  user; the goals whose progress waits for one come set by set in the same order, under the names of their own set; and the
  kitchen sees every order that is not yet served or cancelled, oldest first.
-/
import Brigade.Proofs.Additions
import Brigade.Proofs.GoalAnswers
import Brigade.Proofs.GoalSetChange
import Brigade.Proofs.Listing
import Mathlib.Data.List.Nodup
import Mathlib.Data.Prod.Lex

namespace Brigade

/-! ## Selections -/

section Selection

variable {α κ : Type} [LinearOrder κ] {items items' as bs : List α} {fits : α → Prop} [DecidablePred fits] {key : α → κ}

/-- what fits, as often as it is stored, in increasing order of a key -/
structure Selects (items : List α) (fits : α → Prop) [DecidablePred fits] (key : α → κ) (answer : List α) : Prop where
  perm : answer.Perm (items.filter fits)
  sorted : answer.Pairwise fun a b => key a ≤ key b

/-- the same entries, and the same keys from place to place -/
def SameButTies (key : α → κ) (as bs : List α) : Prop := as.Perm bs ∧ as.map key = bs.map key

/-- lists with the same entries, both in increasing order, differ at most where keys are equal -/
theorem sameButTies_of_sorted (hperm : as.Perm bs) (has : as.Pairwise fun a b => key a ≤ key b)
    (hbs : bs.Pairwise fun a b => key a ≤ key b) : SameButTies key as bs :=
  ⟨hperm, (hperm.map key).eq_of_pairwise (fun _ _ _ _ => le_antisymm) (List.pairwise_map.2 has) (List.pairwise_map.2 hbs)⟩

namespace Selects

theorem tied (ha : Selects items fits key as) (hb : Selects items fits key bs) : SameButTies key as bs :=
  sameButTies_of_sorted (ha.perm.trans hb.perm.symm) ha.sorted hb.sorted

theorem mem_iff (h : Selects items fits key as) {a : α} : a ∈ as ↔ a ∈ items ∧ fits a := by
  rw [h.perm.mem_iff, List.mem_filter, decide_eq_true_eq]

/-- what is stored once is listed once -/
theorem nodup_map {β : Type} {f : α → β} (h : Selects items fits key as) (hn : (items.map f).Nodup) :
    (as.map f).Nodup :=
  (h.perm.map f).nodup_iff.2 (hn.sublist (List.filter_sublist.map f))

/-- a filter of an arrangement, sorted by a relation that compares keys -/
theorem of_mergeSort {p : α → Bool} {le : α → α → Bool} (harranged : items'.Perm items) (hp : ∀ a, p a = true ↔ fits a)
    (hle : ∀ a b, le a b = true ↔ key a ≤ key b) : Selects items fits key ((items'.filter p).mergeSort le) where
  perm := by
    have heq : p = fun a => decide (fits a) := funext fun a => by rw [Bool.eq_iff_iff, hp, decide_eq_true_eq]
    exact (List.mergeSort_perm _ le).trans (heq ▸ harranged.filter p)
  sorted := by
    have htrans : ∀ a b c, le a b = true → le b c = true → le a c = true := by
      intro a b c hab hbc
      exact (hle a c).2 (le_trans ((hle a b).1 hab) ((hle b c).1 hbc))
    have htotal : ∀ a b, (le a b || le b a) = true := by
      intro a b
      rw [Bool.or_eq_true, hle, hle]
      exact le_total _ _
    exact (List.pairwise_mergeSort htrans htotal _).imp fun {a b} => (hle a b).1

end Selects

end Selection

/-! ## Keys -/

/-- goal sets are listed by team, then by user -/
def GoalSet.teamUser (s : GoalSet) : ℤ ×ₗ ℤ := toLex (s.teamId.toInt, s.userId.toInt)

theorem Query.ownerLe_iff (a b : GoalSet) : ownerLe a b = true ↔ a.teamUser ≤ b.teamUser := by
  simp [ownerLe, GoalSet.teamUser, Prod.Lex.toLex_le_toLex, Int32.lt_iff_toInt_lt, Int32.le_iff_toInt_le, Int32.toInt_inj]

/-- goals are listed with their sets -/
def PendingGoal.teamUser (p : PendingGoal) : ℤ ×ₗ ℤ := toLex (p.teamId.toInt, p.userId.toInt)

/-- orders are listed by their date -/
def Order.since (o : Order) : ℤ ×ₗ ℕ := toLex (o.date.seconds, o.date.nanos)

theorem Timestamp.le_iff (a b : Order) : le a.date b.date = true ↔ a.since ≤ b.since := by
  simp [le, Order.since, Prod.Lex.toLex_le_toLex]

/-! ## Goals by their sets -/

/-- the goals of some sets whose progress waits, set by set in the order of goals, under the names of their set -/
def PendingGoal.ofSets (ss : List GoalSet) : List PendingGoal :=
  ss.flatMap fun s => (s.goals.filter fun g => g.progress.map (·.status) = some .waitingForApproval).map fun g =>
    { goalSetId := s.id, teamId := s.teamId, userId := s.userId, goal := g }

theorem Query.flatMap_pendingIn (ss : List GoalSet) : ss.flatMap pendingIn = PendingGoal.ofSets ss := by
  have hwaiting : Goal.isWaiting = fun g => decide (g.progress.map (·.status) = some .waitingForApproval) := by
    funext g
    unfold Goal.isWaiting
    cases g.progress with
    | none => rfl
    | some p => simp [Bool.beq_eq_decide_eq]
  unfold PendingGoal.ofSets
  congr 1
  funext s
  rw [pendingIn, hwaiting]

namespace PendingGoal

variable {ss : List GoalSet} {p : PendingGoal}

theorem mem_ofSets : p ∈ ofSets ss ↔ ∃ s ∈ ss, ∃ g ∈ s.goals,
    g.progress.map (·.status) = some .waitingForApproval ∧ p = ⟨s.id, s.teamId, s.userId, g⟩ := by
  simp [ofSets, and_assoc, eq_comm]

theorem sorted_ofSets (h : ss.Pairwise fun a b => a.teamUser ≤ b.teamUser) :
    (ofSets ss).Pairwise fun a b => a.teamUser ≤ b.teamUser := by
  refine List.pairwise_flatMap.2 ⟨fun s _ => ?_, h.imp fun hab p hp q hq => ?_⟩
  · refine List.pairwise_map.2 (List.pairwise_of_forall fun g g' => ?_)
    exact le_refl s.teamUser
  · obtain ⟨g, -, rfl⟩ := List.mem_map.1 hp
    obtain ⟨g', -, rfl⟩ := List.mem_map.1 hq
    exact hab

/-- no goal is listed twice, if no two sets share an identity and no two goals of a set do -/
theorem nodup_ofSets (hsets : (ss.map (·.id)).Nodup) (hgoals : ∀ s ∈ ss, (s.goals.map (·.id)).Nodup) :
    ((ofSets ss).map fun p => (p.goalSetId, p.goal.id)).Nodup := by
  rw [ofSets, List.map_flatMap]
  refine List.nodup_flatMap.2 ⟨fun s hs => ?_, ?_⟩
  · rw [List.map_map]
    have hids : ((s.goals.filter fun g => g.progress.map (·.status) = some .waitingForApproval).map (·.id)).Nodup :=
      (hgoals s hs).sublist (List.filter_sublist.map _)
    have hpair : Function.Injective fun i : Id => (s.id, i) := fun i j h => (Prod.mk.inj h).2
    have := hids.map hpair
    rwa [List.map_map] at this
  · refine (List.pairwise_map.1 hsets).imp fun hne x hx hy => hne ?_
    simp only [List.mem_map] at hx hy
    obtain ⟨-, ⟨g, -, rfl⟩, rfl⟩ := hx
    obtain ⟨-, ⟨g', -, rfl⟩, heq⟩ := hy
    exact (Prod.mk.inj heq).1.symm

theorem perm_ofSets {ss' : List GoalSet} (h : ss.Perm ss') : (ofSets ss).Perm (ofSets ss') := h.flatMap_right _

end PendingGoal

/-! ## Who can be decided on -/

theorem GoalSet.approve_granted_iff (g : GoalSet) (u : Int32) :
    (∃ t, g.approve u = .ok t) ↔ g.status = some .waitingForApproval := by
  rw [← isWaitingForApproval_iff, approve]
  cases g.isWaitingForApproval <;> simp

theorem GoalSet.reject_granted_iff (g : GoalSet) (u : Int32) :
    (∃ t, g.reject u = .ok t) ↔ g.status = some .waitingForApproval := by
  rw [← isWaitingForApproval_iff, reject]
  cases g.isWaitingForApproval <;> simp

theorem OrderStatus.kitchenActive_iff (st : OrderStatus) :
    st.kitchenActive = true ↔ st ∈ [pending, confirmed, preparing, ready] := by
  cases st <;> decide

/-! ## The answers -/

namespace Query

variable {items items' : List GoalSet} {os os' : List Order}

theorem selects_pendingSetsOf (teams : List Int32) (h : items'.Perm items) :
    Selects items (fun g => g.status = some .waitingForApproval ∧ g.teamId ∈ teams) GoalSet.teamUser
      (pendingSetsOf teams items') :=
  .of_mergeSort h (fun g => by rw [Bool.and_eq_true, GoalSet.isWaitingForApproval_iff, List.contains_iff_mem]) ownerLe_iff

/-- goals are listed from the sets of the teams, in the order of sets -/
theorem pendingGoalsOf_eq (teams : List Int32) (h : items'.Perm items) :
    ∃ sets, Selects items (fun g => g.teamId ∈ teams) GoalSet.teamUser sets ∧
      pendingGoalsOf teams items' = PendingGoal.ofSets sets :=
  ⟨_, .of_mergeSort h (fun _ => List.contains_iff_mem) ownerLe_iff, flatMap_pendingIn _⟩

theorem selects_kitchenOf (h : os'.Perm os) :
    Selects os (fun o => o.status ∈ [.pending, .confirmed, .preparing, .ready]) Order.since (kitchenOf os') :=
  .of_mergeSort h (fun o => OrderStatus.kitchenActive_iff o.status) Timestamp.le_iff

end Query

namespace Service

variable {l : Listing} {env : Surroundings}

/-- for no team nothing is asked of the store, and nothing is selected from it either -/
theorem queryIn_pendingGoalSets (s : Service) (teams : List Int32) :
    s.queryIn l env (.pendingGoalSets teams) =
      (.value (.goalSets (Query.pendingSetsOf teams (l.list .goalSet s.store.goalSets.items))), s) := by
  cases teams with
  | cons t ts => rfl
  | nil =>
    have hnone : Query.pendingSetsOf [] (l.list .goalSet s.store.goalSets.items) = [] := by simp [Query.pendingSetsOf]
    rw [hnone]
    rfl

theorem queryIn_pendingGoals (s : Service) (teams : List Int32) :
    s.queryIn l env (.pendingGoals teams) =
      (.value (.pendingGoals (Query.pendingGoalsOf teams (l.list .goalSet s.store.goalSets.items))), s) := by
  cases teams with
  | cons t ts => rfl
  | nil =>
    have hnone : Query.pendingGoalsOf [] (l.list .goalSet s.store.goalSets.items) = [] := by simp [Query.pendingGoalsOf]
    rw [hnone]
    rfl

theorem queryIn_kitchenOrders (s : Service) :
    s.queryIn l env .kitchenOrders = (.value (.orders (Query.kitchenOf (l.list .order s.store.orders.items))), s) := rfl

/-- **What the list queries answer.** In whatever order the store lists its contents, and for whatever teams:
- The sets that wait for approval are those of the teams with that status, each as often as it is stored, by team and user.
  They are the sets of those teams that can be approved, and those that can be rejected.
- The goals that wait are those whose progress does, in sets of those teams: set by set, the sets by team and user, the goals
  of a set in their order, each under the identity, the team and the user of its own set.
- The kitchen's orders are the pending, confirmed, preparing and ready ones, each as often as it is stored, oldest first.

What has an identity of its own in the store is listed once. Two arrangements of the same contents give the same entries, and
an entry with the same key at each place. No query changes anything. -/
theorem lists_answered (s : Service) (teams : List Int32) :
    (∃ sets : Listing → List GoalSet,
      (∀ l env, s.queryIn l env (.pendingGoalSets teams) = (.value (.goalSets (sets l)), s)) ∧
      (∀ l, Selects s.store.goalSets.items (fun g => g.status = some .waitingForApproval ∧ g.teamId ∈ teams)
        GoalSet.teamUser (sets l)) ∧
      (∀ l u g, g ∈ sets l ↔ g ∈ s.store.goalSets.items ∧ g.teamId ∈ teams ∧ ∃ t, g.approve u = .ok t) ∧
      (∀ l u g, g ∈ sets l ↔ g ∈ s.store.goalSets.items ∧ g.teamId ∈ teams ∧ ∃ t, g.reject u = .ok t) ∧
      ((s.store.goalSets.items.map (·.id)).Nodup → ∀ l, ((sets l).map (·.id)).Nodup) ∧
      ∀ l l', SameButTies GoalSet.teamUser (sets l) (sets l')) ∧
    (∃ goals : Listing → List PendingGoal,
      (∀ l env, s.queryIn l env (.pendingGoals teams) = (.value (.pendingGoals (goals l)), s)) ∧
      (∀ l, ∃ sets, Selects s.store.goalSets.items (fun g => g.teamId ∈ teams) GoalSet.teamUser sets ∧
        goals l = PendingGoal.ofSets sets) ∧
      (∀ l p, p ∈ goals l ↔ ∃ g ∈ s.store.goalSets.items, g.teamId ∈ teams ∧ ∃ goal ∈ g.goals,
        goal.progress.map (·.status) = some .waitingForApproval ∧ p = ⟨g.id, g.teamId, g.userId, goal⟩) ∧
      ((s.store.goalSets.items.map (·.id)).Nodup → (∀ g ∈ s.store.goalSets.items, (g.goals.map (·.id)).Nodup) →
        ∀ l, ((goals l).map fun p => (p.goalSetId, p.goal.id)).Nodup) ∧
      (∀ l, (goals l).Pairwise fun p q => p.teamUser ≤ q.teamUser) ∧
      ∀ l l', SameButTies PendingGoal.teamUser (goals l) (goals l')) ∧
    ∃ orders : Listing → List Order,
      (∀ l env, s.queryIn l env .kitchenOrders = (.value (.orders (orders l)), s)) ∧
      (∀ l, Selects s.store.orders.items (fun o => o.status ∈ [.pending, .confirmed, .preparing, .ready]) Order.since
        (orders l)) ∧
      ((s.store.orders.items.map (·.id)).Nodup → ∀ l, ((orders l).map (·.id)).Nodup) ∧
      ∀ l l', SameButTies Order.since (orders l) (orders l') := by
  refine ⟨⟨_, fun l env => queryIn_pendingGoalSets s teams, ?_⟩, ⟨_, fun l env => queryIn_pendingGoals s teams, ?_⟩,
    ⟨_, fun l env => queryIn_kitchenOrders s, ?_⟩⟩
  · have hsel := fun l : Listing => Query.selects_pendingSetsOf teams (l.perm .goalSet s.store.goalSets.items)
    refine ⟨hsel, fun l u g => ?_, fun l u g => ?_, fun hn l => (hsel l).nodup_map hn, fun l l' => (hsel l).tied (hsel l')⟩
    · rw [(hsel l).mem_iff, g.approve_granted_iff, and_comm (a := g.status = _)]
    · rw [(hsel l).mem_iff, g.reject_granted_iff, and_comm (a := g.status = _)]
  · have hsel := fun l : Listing => Query.pendingGoalsOf_eq teams (l.perm .goalSet s.store.goalSets.items)
    refine ⟨hsel, fun l p => ?_, fun hn hgoals l => ?_, fun l => ?_, fun l l' => ?_⟩
    · obtain ⟨sets, hsets, heq⟩ := hsel l
      rw [heq, PendingGoal.mem_ofSets]
      simp only [hsets.mem_iff, and_assoc]
    · obtain ⟨sets, hsets, heq⟩ := hsel l
      rw [heq]
      exact PendingGoal.nodup_ofSets (hsets.nodup_map hn) fun g hg => hgoals g (hsets.mem_iff.1 hg).1
    · obtain ⟨sets, hsets, heq⟩ := hsel l
      rw [heq]
      exact PendingGoal.sorted_ofSets hsets.sorted
    · obtain ⟨sets, hsets, heq⟩ := hsel l
      obtain ⟨sets', hsets', heq'⟩ := hsel l'
      rw [heq, heq']
      exact sameButTies_of_sorted (PendingGoal.perm_ofSets (hsets.tied hsets').1) (PendingGoal.sorted_ofSets hsets.sorted)
        (PendingGoal.sorted_ofSets hsets'.sorted)
  · have hsel := fun l : Listing => Query.selects_kitchenOf (l.perm .order s.store.orders.items)
    exact ⟨hsel, fun hn l => (hsel l).nodup_map hn, fun l l' => (hsel l).tied (hsel l')⟩

/-- two teams: a set of each waits for approval, and a third set has a goal that waits -/
def reviewDesk : Service :=
  let goal (i : Nat) (status : ProgressStatus) : Goal :=
    ⟨.ofNat i, "Ship it", .team, ⟨10, 50, 100, .percentage⟩, 100, some ⟨40, none, status⟩⟩
  let sets : List GoalSet :=
    [⟨.ofNat 1, 2, .ofNat 9, 1, some .waitingForApproval, [goal 11 .waitingForApproval], 4⟩,
      ⟨.ofNat 2, 1, .ofNat 8, 7, some .waitingForApproval, [goal 12 .approved], 4⟩,
      ⟨.ofNat 3, 1, .ofNat 8, 3, some .returned, [goal 13 .approved, goal 14 .waitingForApproval], 6⟩]
  { start with store := { Store.empty with goalSets := ⟨sets, []⟩ } }

/-- the sets of the two teams are listed once each although a team is named twice, and so are their two goals -/
theorem lists_answered_reviewDesk :
    (∃ sets, reviewDesk.queryIn .latest .standstill (.pendingGoalSets [2, 1, 2]) = (.value (.goalSets sets), reviewDesk) ∧
      sets.length = 2 ∧ (sets.map (·.id)).Nodup) ∧
    ∃ goals, reviewDesk.queryIn .latest .standstill (.pendingGoals [2, 1, 2]) = (.value (.pendingGoals goals), reviewDesk) ∧
      (⟨.ofNat 3, 1, 3, ⟨.ofNat 14, "Ship it", .team, ⟨10, 50, 100, .percentage⟩, 100,
        some ⟨40, none, .waitingForApproval⟩⟩⟩ : PendingGoal) ∈ goals ∧
      (goals.map fun p => (p.goalSetId, p.goal.id)).Nodup := by
  obtain ⟨⟨sets, hsets, hsel, -, -, hsetIds, -⟩, ⟨goals, hgoals, -, hmem, hgoalIds, -⟩, -⟩ :=
    lists_answered reviewDesk [2, 1, 2]
  have hdistinct : (reviewDesk.store.goalSets.items.map (·.id)).Nodup := by decide
  refine ⟨⟨_, hsets .latest .standstill, (hsel .latest).perm.length_eq.trans (by decide), hsetIds hdistinct _⟩,
    _, hgoals .latest .standstill, (hmem .latest _).2 ?_, hgoalIds hdistinct (by decide) _⟩
  exact ⟨reviewDesk.store.goalSets.items[2], by decide, by decide, reviewDesk.store.goalSets.items[2].goals[1], by decide,
    rfl, rfl⟩

end Service

end Brigade
