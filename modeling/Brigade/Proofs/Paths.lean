/-
Paths through plans: what was asked and replied on the way from a plan to what is left of it.

A path is one way the world may behave. Whatever a plan keeps to, it still keeps to at the end of a path of expected
replies, in the phase that the path leads to (`Keeps.along`); and what holds at the end of every path can be put to use
where a plan has to keep to something (`keeps_of_paths`). A run takes the path that its transcript tells
(`path_transcript`).
-/
import Brigade.Proofs.Protocol

namespace Brigade

/-- a request and what was replied to it -/
structure Answered where
  request : Request
  reply : request.Reply

namespace Protocol

variable {φ : Type}

/-- the phase after all of the replies -/
def afterAll (P : Protocol φ) (ph : φ) (log : List Answered) : φ :=
  log.foldl (fun ph x => P.after ph x.request x.reply) ph

/-- anything may be asked, and the phase is the record of what was replied -/
def record (expected : (r : Request) → r.Reply → Prop) : Protocol (List Answered) where
  first := []
  asks _ _ := True
  answers := expected
  after log r x := log ++ [⟨r, x⟩]

theorem afterAll_record (expected : (r : Request) → r.Reply → Prop) (log more : List Answered) :
    (record expected).afterAll log more = log ++ more := by
  induction more generalizing log with
  | nil => exact (List.append_nil log).symm
  | cons x more ih => exact (ih (log ++ [x])).trans (List.append_assoc log [x] more)

end Protocol

namespace Plan

variable {α φ σ : Type} {p q r : Plan α} {log more : List Answered}

/-- the replies lead from one plan to what is left of it -/
inductive Path : Plan α → List Answered → Plan α → Prop where
  | stay (p : Plan α) : Path p [] p
  | ask {r : Request} {next : r.Reply → Plan α} {x : r.Reply} {log : List Answered} {q : Plan α}
      (rest : Path (next x) log q) : Path (ask r next) (⟨r, x⟩ :: log) q

theorem Path.append (h : p.Path log q) (h' : q.Path more r) : p.Path (log ++ more) r := by
  induction h with
  | stay p => exact h'
  | ask rest ih => exact .ask (ih h')

/-- a plan keeps to its protocol further down the path -/
theorem Keeps.along {P : Protocol φ} {ends : φ → α → Prop} {ph : φ} (h : p.Keeps P ends ph) (path : p.Path log q)
    (expected : ∀ x ∈ log, P.answers x.request x.reply) : q.Keeps P ends (P.afterAll ph log) := by
  induction path generalizing ph with
  | stay p => exact h
  | ask rest ih =>
    exact ih (h.2 _ (expected _ List.mem_cons_self)) fun x hx => expected x (List.mem_cons_of_mem _ hx)

/-- what holds at the end of every path of a plan -/
theorem keeps_of_paths {expected : (r : Request) → r.Reply → Prop} {ends : List Answered → α → Prop}
    (h : ∀ more a, p.Path more (.done a) → (∀ x ∈ more, expected x.request x.reply) → ends (log ++ more) a) :
    p.Keeps (.record expected) ends log := by
  induction p generalizing log with
  | done a =>
    have := h [] a (.stay _) (fun x hx => nomatch hx)
    rwa [List.append_nil] at this
  | ask r next ih =>
    refine ⟨trivial, fun x hx => ih x fun more a path hmore => ?_⟩
    have := h (⟨r, x⟩ :: more) a (.ask path) (List.forall_mem_cons.2 ⟨hx, hmore⟩)
    rwa [List.append_cons] at this

/-! ## Runs -/

variable {w : World σ} {s : σ}

/-- everything that a run asks and is answered, in order -/
def transcript (w : World σ) : Plan α → σ → List Answered
  | done _, _ => []
  | ask r next, s => ⟨r, (w r s).1⟩ :: (next (w r s).1).transcript w (w r s).2

/-- a run takes the path that its transcript tells -/
theorem path_transcript (w : World σ) (p : Plan α) (s : σ) : p.Path (p.transcript w s) (.done (p.run w s).1) := by
  induction p generalizing s with
  | done a => exact .stay _
  | ask r next ih => exact .ask (ih _ _)

/-- what a plan keeps to in every record holds of the transcript of a run -/
theorem Keeps.transcript {expected : (r : Request) → r.Reply → Prop} {ends : List Answered → α → Prop}
    (h : p.Keeps (.record expected) ends []) (hexpected : ∀ x ∈ p.transcript w s, expected x.request x.reply) :
    ends (p.transcript w s) (p.run w s).1 := by
  have := h.along (path_transcript w p s) hexpected
  rwa [Protocol.afterAll_record] at this

/-- a world that gives only expected replies gives no others in a run -/
theorem forall_transcript {expected : (r : Request) → r.Reply → Prop} (hw : ∀ r s, expected r (w r s).1) :
    ∀ x ∈ p.transcript w s, expected x.request x.reply := by
  induction p generalizing s with
  | done a => exact List.forall_mem_nil _
  | ask r next ih => exact List.forall_mem_cons.2 ⟨hw r s, ih _⟩

end Plan

end Brigade
