/-
What a log says about one stored aggregate: who fetched it, who wrote it, and when.

A write is an update that is granted. `span` is the part of a log from the first fetch of a client to its last update;
`writesByOthers` counts the writes of the others in a part of a log. Both are read off a log that grows at its end.
-/
import Mathlib.Data.List.DropRight
import Brigade.Proofs.Interleaving

namespace Brigade

namespace Exchange

/-- a fetch of the aggregate -/
def fetches (k : Kind) (i : Id) (e : Exchange) : Bool :=
  match e.request with
  | .get k' j => k' == k && j == i
  | _ => false

/-- an update of the aggregate, granted or not -/
def updates (k : Kind) (i : Id) (e : Exchange) : Bool :=
  match e.request with
  | .update k' a => k' == k && Aggregate.id a == i
  | _ => false

/-- an update of the aggregate that is granted -/
def writes (k : Kind) (i : Id) : Exchange → Bool
  | ⟨_, .update k' a, .value _⟩ => k' == k && Aggregate.id a == i
  | _ => false

end Exchange

namespace Sessions

variable {k : Kind} {i : Id} {n : Nat} {log : List Exchange} {e : Exchange}

/-- the clients that wrote the aggregate, in the order of their writes -/
def writers (k : Kind) (i : Id) (log : List Exchange) : List Nat := (log.filter (·.writes k i)).map (·.client)

/-- the log from the first fetch of a client on -/
def since (k : Kind) (i : Id) (n : Nat) (log : List Exchange) : List Exchange :=
  log.dropWhile fun e => !(e.client == n && e.fetches k i)

/-- the log from the first fetch of a client to its last update -/
def span (k : Kind) (i : Id) (n : Nat) (log : List Exchange) : List Exchange :=
  (since k i n log).rdropWhile fun e => !(e.client == n && e.updates k i)

/-- how often clients other than `n` wrote the aggregate -/
def writesByOthers (k : Kind) (i : Id) (n : Nat) (log : List Exchange) : Nat :=
  log.countP fun e => e.client != n && e.writes k i

/-- the client fetched the aggregate -/
def Fetched (k : Kind) (i : Id) (n : Nat) (log : List Exchange) : Prop :=
  ∃ e ∈ log, e.client = n ∧ e.fetches k i = true

/-! ## A log that grows -/

theorem writers_snoc_of_write (h : e.writes k i = true) : writers k i (log ++ [e]) = writers k i log ++ [e.client] := by
  simp [writers, List.filter_append, h]

theorem writers_snoc_of_not_write (h : e.writes k i = false) : writers k i (log ++ [e]) = writers k i log := by
  simp [writers, List.filter_append, h]

theorem Fetched.snoc (h : Fetched k i n log) (e : Exchange) : Fetched k i n (log ++ [e]) := by
  obtain ⟨e', he', h⟩ := h
  exact ⟨e', List.mem_append_left [e] he', h⟩

theorem fetched_snoc_self (hn : e.client = n) (he : e.fetches k i = true) : Fetched k i n (log ++ [e]) :=
  ⟨e, List.mem_append_right log (List.mem_singleton.2 rfl), hn, he⟩

theorem since_eq_nil_iff : since k i n log = [] ↔ ¬Fetched k i n log := by
  simp [since, Fetched, imp_iff_not_or]

theorem since_snoc (h : Fetched k i n log) (e : Exchange) : since k i n (log ++ [e]) = since k i n log ++ [e] := by
  have hne : (since k i n log).isEmpty = false := by
    rw [List.isEmpty_eq_false_iff]
    exact fun hnil => since_eq_nil_iff.1 hnil h
  unfold since at hne ⊢
  rw [List.dropWhile_append, hne]
  rfl

theorem span_snoc_of_update (h : Fetched k i n log) (hn : e.client = n) (he : e.updates k i = true) :
    span k i n (log ++ [e]) = since k i n log ++ [e] := by
  unfold span
  rw [since_snoc h]
  exact List.rdropWhile_concat_neg _ _ _ (by simp [hn, he])

/-- a span ends where it did until the client updates again -/
theorem span_snoc_of_not_update (h : e.client = n → e.updates k i = false) :
    span k i n (log ++ [e]) = span k i n log := by
  have hdrop : (!(e.client == n && e.updates k i)) = true := by
    by_cases hn : e.client = n
    · simp [h hn]
    · simp [hn]
  by_cases hf : Fetched k i n log
  · unfold span
    rw [since_snoc hf]
    exact List.rdropWhile_concat_pos _ _ _ hdrop
  · -- the client has not fetched yet, so at most the new exchange is in the span, and it is no update of the client
    have hnil := since_eq_nil_iff.2 hf
    have hlast : since k i n (log ++ [e]) = since k i n [e] := by
      unfold since at hnil ⊢
      rw [List.dropWhile_append, hnil]
      rfl
    unfold span
    rw [hlast, hnil, List.rdropWhile_nil]
    refine List.rdropWhile_eq_nil_iff.2 fun x hx => ?_
    obtain rfl := List.mem_singleton.1 ((List.dropWhile_sublist _).subset hx)
    exact hdrop

/-! ## Counting writes -/

theorem writesByOthers_snoc_of_write (hn : e.client ≠ n) (h : e.writes k i = true) :
    writesByOthers k i n (log ++ [e]) = writesByOthers k i n log + 1 := by
  simp [writesByOthers, List.countP_append, hn, h]

theorem writesByOthers_since_le_snoc (k : Kind) (i : Id) (n : Nat) (log : List Exchange) (e : Exchange) :
    writesByOthers k i n (since k i n log) ≤ writesByOthers k i n (since k i n (log ++ [e])) := by
  by_cases hf : Fetched k i n log
  · rw [since_snoc hf]
    exact (List.sublist_append_left _ [e]).countP_le
  · rw [since_eq_nil_iff.2 hf]
    exact Nat.zero_le _

theorem writesByOthers_span_le : writesByOthers k i n (span k i n log) ≤ writesByOthers k i n (since k i n log) :=
  (List.rdropWhile_prefix _ (since k i n log)).sublist.countP_le

theorem writesByOthers_since_le : writesByOthers k i n (since k i n log) ≤ (writers k i log).length := by
  calc writesByOthers k i n (since k i n log)
      ≤ writesByOthers k i n log := (List.dropWhile_suffix _).sublist.countP_le
    _ ≤ log.countP (·.writes k i) := List.countP_mono_left fun e _ h => (Bool.and_eq_true_iff.1 h).2
    _ = (writers k i log).length := by simp [writers, List.countP_eq_length_filter]

end Sessions

end Brigade
