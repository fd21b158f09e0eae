/-
Replaying a history in another world.

A world that gives the replies of a history (`World.Gives`) takes a plan where the history leads it (`run_of_gives`).
What a history leaves of a service, beside the store, can be read off the history: what was drawn in it and what was
announced (`Passed`, `events_of_gives`). The draws of a history can be given again, from any count on, by surroundings that
feed it (`exists_feed`), piece by piece (`Feed.left`, `Feed.right`).
-/
import Brigade.Proofs.Answers
import Brigade.Proofs.Paths

namespace Brigade

namespace World

variable {σ : Type} {w : World σ} {s t u : σ} {h more : List Answered}

/-- the world replies as the history tells, and is left as `t` -/
def Gives (w : World σ) : σ → List Answered → σ → Prop
  | s, [], t => t = s
  | s, ⟨r, x⟩ :: h, t => (w r s).1 = x ∧ Gives w (w r s).2 h t

theorem Gives.append (hs : w.Gives s h t) (ht : w.Gives t more u) : w.Gives s (h ++ more) u := by
  induction h generalizing s with
  | nil =>
    obtain rfl : t = s := hs
    exact ht
  | cons x h ih => exact ⟨hs.1, ih hs.2⟩

/-- the one exchange that a request makes -/
theorem gives_answer (r : Request) : w.Gives s [⟨r, (w r s).1⟩] (w r s).2 := ⟨rfl, rfl⟩

/-- a run goes where the replies lead, and goes on from there -/
theorem run_of_gives {α : Type} {p q : Plan α} (path : p.Path h q) (hs : w.Gives s h t) : p.run w s = q.run w t := by
  induction path generalizing s with
  | stay p =>
    obtain rfl : t = s := hs
    rfl
  | ask rest ih =>
    obtain ⟨rfl, hs⟩ := hs
    exact ih hs

end World

/-! ## What a history has drawn and announced -/

namespace Answered

/-- the identity that was drawn -/
def id? : Answered → Option Id
  | ⟨.freshId, i⟩ => some i
  | _ => none

/-- the time that was read -/
def time? : Answered → Option Timestamp
  | ⟨.clock, t⟩ => some t
  | _ => none

/-- the event that was announced and heard -/
def event? : Answered → Option Event
  | ⟨.publish e, true⟩ => some e
  | _ => none

def drawnIds (h : List Answered) : List Id := h.filterMap id?

def drawnTimes (h : List Answered) : List Timestamp := h.filterMap time?

def announced (h : List Answered) : List Event := h.filterMap event?

theorem drawnIds_append (h more : List Answered) : drawnIds (h ++ more) = drawnIds h ++ drawnIds more :=
  List.filterMap_append

theorem drawnTimes_append (h more : List Answered) : drawnTimes (h ++ more) = drawnTimes h ++ drawnTimes more :=
  List.filterMap_append

theorem announced_append (h more : List Answered) : announced (h ++ more) = announced h ++ announced more :=
  List.filterMap_append

end Answered

open Answered

namespace Service

variable {env : Surroundings} {s t u : Service} {h more : List Answered}

/-- what a history leaves of the counts of a service; the channel stays as it is -/
structure Passed (h : List Answered) (s t : Service) : Prop where
  idsDrawn : t.idsDrawn = s.idsDrawn + (drawnIds h).length
  timesRead : t.timesRead = s.timesRead + (drawnTimes h).length
  heard : t.channelOpen = s.channelOpen

theorem Passed.append (hs : Passed h s t) (ht : Passed more t u) : Passed (h ++ more) s u := by
  refine ⟨?_, ?_, ht.heard.trans hs.heard⟩
  · rw [ht.idsDrawn, hs.idsDrawn, drawnIds_append, List.length_append, Nat.add_assoc]
  · rw [ht.timesRead, hs.timesRead, drawnTimes_append, List.length_append, Nat.add_assoc]

/-- what one request draws and announces -/
theorem passed_answer (env : Surroundings) (r : Request) (s : Service) :
    Passed [⟨r, (answer env r s).1⟩] s (answer env r s).2 ∧
      (answer env r s).2.events = s.events ++ announced [⟨r, (answer env r s).1⟩] := by
  cases r with
  | add k a =>
    rcases hadd : (s.store.repo k).add a with ⟨f | _, r⟩
    · rw [answer_add_of_error (congrArg Prod.fst hadd)]
      exact ⟨⟨rfl, rfl, rfl⟩, (List.append_nil _).symm⟩
    · rw [answer_add_of_ok hadd]
      exact ⟨⟨rfl, rfl, rfl⟩, (List.append_nil _).symm⟩
  | update k a =>
    cases hu : (s.store.repo k).update a with
    | ok p => rw [answer_update_of_ok hu]; exact ⟨⟨rfl, rfl, rfl⟩, (List.append_nil _).symm⟩
    | refused f => rw [answer_update_of_refused hu]; exact ⟨⟨rfl, rfl, rfl⟩, (List.append_nil _).symm⟩
    | fault f => rw [answer_update_of_fault hu]; exact ⟨⟨rfl, rfl, rfl⟩, (List.append_nil _).symm⟩
  | publish e =>
    cases hopen : s.channelOpen with
    | true =>
      simp only [answer, hopen, if_true]
      exact ⟨⟨rfl, rfl, hopen ▸ rfl⟩, rfl⟩
    | false =>
      simp only [answer, hopen, Bool.false_eq_true, if_false]
      exact ⟨⟨rfl, rfl, rfl⟩, (List.append_nil _).symm⟩
  | pause d =>
    obtain ⟨given, planned, time, hwait⟩ := wait_frame d.ceilMillis s
    have hafter : (answer env (.pause d) s).2 = (s.wait d.ceilMillis).2 := rfl
    rw [hafter, hwait]
    exact ⟨⟨rfl, rfl, rfl⟩, (List.append_nil _).symm⟩
  | _ => exact ⟨⟨rfl, rfl, rfl⟩, (List.append_nil _).symm⟩

theorem passed_of_gives (hs : (answer env).Gives s h t) : Passed h s t := by
  induction h generalizing s with
  | nil =>
    obtain rfl : t = s := hs
    exact ⟨rfl, rfl, rfl⟩
  | cons x h ih =>
    obtain ⟨r, x⟩ := x
    obtain ⟨rfl, hs⟩ := hs
    exact (passed_answer env r s).1.append (ih hs)

theorem events_of_gives (hs : (answer env).Gives s h t) : t.events = s.events ++ announced h := by
  induction h generalizing s with
  | nil =>
    obtain rfl : t = s := hs
    exact (List.append_nil _).symm
  | cons x h ih =>
    obtain ⟨r, x⟩ := x
    obtain ⟨rfl, hs⟩ := hs
    rw [ih hs, (passed_answer env r s).2, List.append_assoc, ← announced_append]
    rfl

end Service

/-! ## Giving the same again -/

/-- from its `a`-th value on, a source gives these -/
def Supplies {β : Type} (f : Nat → β) (a : Nat) (l : List β) : Prop := ∀ j x, l[j]? = some x → f (a + j) = x

theorem Supplies.left {β : Type} {f : Nat → β} {a : Nat} {l m : List β} (h : Supplies f a (l ++ m)) : Supplies f a l := by
  intro j x hj
  obtain ⟨hlen, -⟩ := List.getElem?_eq_some_iff.1 hj
  refine h j x ?_
  rwa [List.getElem?_append_left hlen]

theorem Supplies.right {β : Type} {f : Nat → β} {a : Nat} {l m : List β} (h : Supplies f a (l ++ m)) :
    Supplies f (a + l.length) m := by
  intro j x hj
  rw [Nat.add_assoc]
  refine h _ x ?_
  rwa [List.getElem?_append_right (Nat.le_add_right _ _), Nat.add_sub_cancel_left]

theorem exists_supplies {β : Type} (g : Nat → β) (a : Nat) (l : List β) : ∃ f, Supplies f a l := by
  refine ⟨fun n => (l[n - a]?).getD (g n), fun j x hj => ?_⟩
  simp only [Nat.add_sub_cancel_left, hj, Option.getD_some]

namespace Surroundings

variable {env : Surroundings} {s t : Service} {h more : List Answered}

/-- the surroundings give a service what was drawn in a history -/
def Feed (env : Surroundings) (s : Service) (h : List Answered) : Prop :=
  Supplies env.ids s.idsDrawn (drawnIds h) ∧ Supplies env.times s.timesRead (drawnTimes h)

theorem Feed.left (hf : env.Feed s (h ++ more)) : env.Feed s h := by
  obtain ⟨hids, htimes⟩ := hf
  rw [drawnIds_append] at hids
  rw [drawnTimes_append] at htimes
  exact ⟨hids.left, htimes.left⟩

theorem Feed.right (hf : env.Feed s (h ++ more)) (ht : Service.Passed h s t) : env.Feed t more := by
  obtain ⟨hids, htimes⟩ := hf
  rw [drawnIds_append] at hids
  rw [drawnTimes_append] at htimes
  refine ⟨?_, ?_⟩
  · rw [ht.idsDrawn]
    exact hids.right
  · rw [ht.timesRead]
    exact htimes.right

theorem exists_feed (env : Surroundings) (s : Service) (h : List Answered) : ∃ env' : Surroundings, env'.Feed s h := by
  obtain ⟨f, hf⟩ := exists_supplies env.ids s.idsDrawn (drawnIds h)
  obtain ⟨g, hg⟩ := exists_supplies env.times s.timesRead (drawnTimes h)
  exact ⟨⟨f, g⟩, hf, hg⟩

end Surroundings

end Brigade
