/-
Layers of the configuration: what is left when they are laid on one another.

- `nodup_parse`: a document has every key once, so a layer from a file says at most one thing under a key.
- `laidOn_plain`: a layer that only names settings, with a scalar for each (`Layer.Plain`), goes before what it is laid
  on, key by key.
- `Composed.laidOn`: a key that leads into a setting leaves a table or a list there, and that stays until a layer says
  the setting itself.
- `laidOn_cases`: laying refuses nothing, and only a position in brackets stops it in a fault.
- `merged_plain`: what files that can be read, the variables and the built-in layer come together to, if all of them are
  plain.

Every step is about one key (`insert_eq_ok`, `insert_plain`, `insert_cases`), and a layer is laid by its keys one after
the other (`laidOn_invariant`).
-/
import Brigade.Config.Load
import Mathlib.Data.List.Basic

namespace Brigade

/-! ## Keys of a document -/

namespace Toml

variable {ms ms' : Members} {change : Members → Option Members}

/-- the keys at the top of a document -/
def keys (ms : Members) : List String := ms.map Prod.fst

@[simp] theorem keys_replace (k : String) (v : Toml) (ms : Members) : keys (replace k v ms) = keys ms := by
  simp only [keys, replace, List.map_map]
  refine List.map_congr_left fun m _ => ?_
  by_cases h : m.1 = k <;> simp [h]

theorem nodup_snoc {k : String} (v : Toml) (hk : ms.lookup k = none) (h : (keys ms).Nodup) :
    (keys (ms ++ [(k, v)])).Nodup := by
  have hnew : k ∉ keys ms := fun hmem => by
    obtain ⟨m, hm, rfl⟩ := List.mem_map.1 hmem
    simpa using List.lookup_eq_none_iff.1 hk m hm
  simpa [keys, List.nodup_append] using ⟨h, fun a v hv heq => hnew (heq ▸ List.mem_map_of_mem (f := Prod.fst) hv)⟩

/-- a change that puts no key twice -/
def Tidy (change : Members → Option Members) : Prop :=
  ∀ ⦃ms ms'⦄, change ms = some ms' → (keys ms).Nodup → (keys ms').Nodup

theorem tidy_put (ks : List String) (v : Toml) : Tidy (put ks v) := by
  intro ms ms' h hms
  unfold put at h
  split at h
  · cases h
  · split at h
    · cases h
      exact nodup_snoc _ ‹_› hms
    · cases h
    · obtain ⟨inner, -, rfl⟩ := Option.map_eq_some_iff.1 h
      exact nodup_snoc _ ‹_› hms
    · obtain ⟨inner, -, rfl⟩ := Option.map_eq_some_iff.1 h
      rwa [keys_replace]
    · cases h

theorem tidy_openTable (k : String) : Tidy (openTable k) := by
  intro ms ms' h hms
  unfold openTable at h
  split at h
  · cases h
    exact nodup_snoc _ ‹_› hms
  · cases h
    rwa [keys_replace]
  · cases h

theorem tidy_addTable (k : String) : Tidy (addTable k) := by
  intro ms ms' h hms
  unfold addTable at h
  split at h
  · cases h
    exact nodup_snoc _ ‹_› hms
  · cases h
    rwa [keys_replace]
  · cases h

theorem Tidy.within (ht : Tidy change) (ks : List String) : Tidy (within ks change) := by
  intro ms ms' h hms
  unfold Toml.within at h
  split at h
  · exact ht h hms
  · split at h
    · obtain ⟨inner, -, rfl⟩ := Option.map_eq_some_iff.1 h
      exact nodup_snoc _ ‹_› hms
    · obtain ⟨inner, -, rfl⟩ := Option.map_eq_some_iff.1 h
      rwa [keys_replace]
    · obtain ⟨inner, -, rfl⟩ := Option.map_eq_some_iff.1 h
      rwa [keys_replace]
    · simp only [Option.bind_eq_bind, Option.bind_eq_some_iff, Option.pure_def, Option.some.injEq] at h
      obtain ⟨_, -, _, -, rfl⟩ := h
      rwa [keys_replace]
    · cases h

theorem nodup_header {double : Bool} {d : Draft} {cs : List Char} {p : Draft × List Char}
    (h : header? double d cs = some p) (hd : (keys d.members).Nodup) : (keys p.1.members).Nodup := by
  simp only [header?, Option.bind_eq_bind, Option.bind_eq_some_iff] at h
  obtain ⟨⟨ks, r⟩, -, rest, -, last, -, ms, hms, hp⟩ := h
  obtain rfl := Option.some.inj hp
  cases double with
  | true => exact (tidy_addTable last).within ks.dropLast hms hd
  | false => exact (tidy_openTable last).within ks.dropLast hms hd

theorem nodup_keyValue {d : Draft} {cs : List Char} {p : Draft × List Char} (h : keyValue? d cs = some p)
    (hd : (keys d.members).Nodup) : (keys p.1.members).Nodup := by
  simp only [keyValue?, Option.bind_eq_bind, Option.bind_eq_some_iff] at h
  obtain ⟨⟨ks, r⟩, -, h⟩ := h
  split at h
  · simp only [Option.bind_eq_some_iff] at h
    obtain ⟨⟨v, r⟩, -, rest, -, ms, hms, hp⟩ := h
    obtain rfl := Option.some.inj hp
    exact (tidy_put ks v).within d.current hms hd
  · cases h

theorem nodup_document {fuel : Nat} {d : Draft} {cs : List Char} (h : document fuel d cs = some ms)
    (hd : (keys d.members).Nodup) : (keys ms).Nodup := by
  induction fuel generalizing d cs with
  | zero => cases h
  | succ fuel ih =>
    unfold document at h
    split at h
    · cases h
      exact hd
    · obtain ⟨p, hp, h⟩ := Option.bind_eq_some_iff.1 h
      exact ih h (nodup_header hp hd)
    · obtain ⟨p, hp, h⟩ := Option.bind_eq_some_iff.1 h
      exact ih h (nodup_header hp hd)
    · obtain ⟨p, hp, h⟩ := Option.bind_eq_some_iff.1 h
      exact ih h (nodup_keyValue hp hd)

/-- a document has every key once -/
theorem nodup_parse {text : String} (h : parse text = some ms) : (keys ms).Nodup :=
  nodup_document h List.nodup_nil

end Toml

/-! ## One key laid on a layer -/

namespace Setting

variable {k k' : String} {s t : Setting} {ms : List (String × Setting)}

/-- a list or a table: nothing is read of it -/
def isComposed : Setting → Bool
  | list _ | table _ => true
  | _ => false

@[simp] theorem lookup_set_self (k : String) (s : Setting) (ms : List (String × Setting)) :
    (set k s ms).lookup k = some s := by
  induction ms with
  | nil => simp [set]
  | cons m ms ih =>
    obtain ⟨n, t⟩ := m
    unfold set
    split
    · rename_i hn
      subst hn
      exact List.lookup_cons_self
    · simp [List.lookup_cons, beq_eq_false_iff_ne.2 (Ne.symm ‹_›), ih]

theorem lookup_set_of_ne (h : k' ≠ k) (s : Setting) (ms : List (String × Setting)) :
    (set k s ms).lookup k' = ms.lookup k' := by
  induction ms with
  | nil => simp [set, List.lookup_cons, beq_eq_false_iff_ne.2 h]
  | cons m ms ih =>
    obtain ⟨n, t⟩ := m
    unfold set
    split
    · rename_i hn
      subst hn
      simp [List.lookup_cons, beq_eq_false_iff_ne.2 h]
    · simp only [List.lookup_cons, ih]

/-- a scalar takes the place of what is there -/
theorem laidOn_of_scalar (h : s.isComposed = false) (below : Option Setting) : s.laidOn below = s := by
  cases s with
  | table ms => cases h
  | _ => rfl

/-- what steps lead into is a table or a list -/
theorem isComposed_of_place {ε : Type} {steps : List Step} {below : Option Setting} (hsteps : steps ≠ [])
    (h : place (ε := ε) steps s below = .ok t) : t.isComposed = true := by
  cases steps with
  | nil => exact absurd rfl hsteps
  | cons step steps =>
    cases step with
    | name k =>
      obtain ⟨inner, -, h⟩ := Outcome.bind_eq_ok.1 h
      cases h
      rfl
    | position i =>
      obtain ⟨n, -, h⟩ := Outcome.bind_eq_ok.1 h
      obtain ⟨inner, -, h⟩ := Outcome.bind_eq_ok.1 h
      cases h
      rfl

/-- a place in a list is found, or looking for it stops in a fault -/
theorem placeOf_cases {ε : Type} (i : Int) (n : Nat) :
    (∃ m, placeOf (ε := ε) i n = .ok m) ∨ ∃ f, placeOf (ε := ε) i n = .fault f := by
  unfold placeOf
  split_ifs <;> simp

/-- steps lead somewhere, or stop in a fault, and only a position does that -/
theorem place_cases {ε : Type} (steps : List Step) (s : Setting) (below : Option Setting) :
    (∃ t, place (ε := ε) steps s below = .ok t) ∨
      (∃ f, place (ε := ε) steps s below = .fault f) ∧ ∃ i, .position i ∈ steps := by
  induction steps generalizing below with
  | nil => exact .inl ⟨_, rfl⟩
  | cons step steps ih =>
    cases step with
    | name k =>
      rcases ih ((members below).lookup k) with ⟨t, ht⟩ | ⟨⟨f, hf⟩, i, hi⟩
      · exact .inl ⟨table (set k t (members below)), by simp [place, ht]⟩
      · exact .inr ⟨⟨f, by simp [place, hf]⟩, i, List.mem_cons_of_mem _ hi⟩
    | position i =>
      have hi : Step.position i ∈ Step.position i :: steps := List.mem_cons_self ..
      rcases placeOf_cases (ε := ε) i (elements below).length with ⟨n, hn⟩ | ⟨f, hf⟩
      · rcases ih (if steps.isEmpty then none else (elements below)[n]?) with ⟨t, ht⟩ | ⟨⟨f, hf⟩, -⟩
        · refine .inl ⟨list (setAt n t (elements below)), ?_⟩
          simp only [place, hn, ht, Outcome.ok_bind, Outcome.pure_eq_ok]
        · exact .inr ⟨⟨f, by simp only [place, hn, hf, Outcome.ok_bind, Outcome.fault_bind]⟩, i, hi⟩
      · exact .inr ⟨⟨f, by simp [place, hf]⟩, i, hi⟩

end Setting

namespace Layer

variable {ε : Type} {l l' top : Layer} {k : String} {p : String × Setting}

/-- the name that a key starts with, which is the setting that it is about -/
def subject (key : String) : String :=
  match keySteps key with
  | .name n :: _ => n
  | _ => key

/-- the steps of a key into its subject -/
def innerSteps (key : String) : List Setting.Step := (keySteps key).tail

/-- a key is its subject and the steps into it -/
theorem keySteps_eq (key : String) : keySteps key = .name (subject key) :: innerSteps key := by
  have hname : ∃ n steps, keySteps key = .name n :: steps := by
    unfold keySteps
    dsimp only
    split
    · exact ⟨_, _, rfl⟩
    · split <;> exact ⟨_, _, rfl⟩
  obtain ⟨n, steps, h⟩ := hname
  simp only [subject, innerSteps, h, List.tail_cons]

/-- steps are read up to the end of the key -/
theorem moreSteps_eq_nil {fuel : Nat} {cs : List Char} (h : moreSteps? fuel cs = some []) : cs = [] := by
  unfold moreSteps? at h
  split at h
  · cases h
  · rfl
  · dsimp only at h
    split at h
    · cases h
    · obtain ⟨_, -, h⟩ := Option.map_eq_some_iff.1 h
      cases h
  · simp only [Option.bind_eq_bind, Option.bind_eq_some_iff] at h
    obtain ⟨_, -, _, -, h⟩ := h
    cases h
  · cases h

/-- a key that does not lead into its subject is its subject -/
theorem subject_of_innerSteps_nil {key : String} (h : innerSteps key = []) : subject key = key := by
  suffices hkey : ∀ n, keySteps key = [.name n] → n = key from
    hkey _ ((keySteps_eq key).trans (congrArg _ h))
  intro n hn
  unfold keySteps at hn
  dsimp only at hn
  split at hn
  · cases hn
    rfl
  · split at hn
    · rename_i steps hsteps
      cases hn
      have hrest := moreSteps_eq_nil hsteps
      have hwhole := List.takeWhile_append_dropWhile (p := inName) (l := key.toList)
      rw [hrest, List.append_nil] at hwhole
      rw [hwhole, String.ofList_toList]
    · cases hn
      rfl

theorem insert_eq (l : Layer) (p : String × Setting) :
    insert (ε := ε) l p = do
      let s ← Setting.place (innerSteps p.1) p.2 (l.lookup (subject p.1))
      return Setting.set (subject p.1) s l := by
  rw [insert, keySteps_eq, Setting.place, Setting.members]
  cases Setting.place (ε := ε) (innerSteps p.1) p.2 (l.lookup (subject p.1)) <;> rfl

/-- a key that is laid on a layer changes its subject, and if it leads into it then what is there is no scalar -/
theorem insert_eq_ok (h : insert (ε := ε) l p = .ok l') :
    ∃ s, l' = Setting.set (subject p.1) s l ∧ (subject p.1 ≠ p.1 → s.isComposed = true) := by
  rw [insert_eq] at h
  obtain ⟨s, hs, h⟩ := Outcome.bind_eq_ok.1 h
  refine ⟨s, (Outcome.ok.inj h).symm, fun hne => Setting.isComposed_of_place (fun hnil => ?_) hs⟩
  exact hne (subject_of_innerSteps_nil hnil)

/-- a key can be laid on a layer, or that stops in a fault, and only a position does that -/
theorem insert_cases (l : Layer) (p : String × Setting) :
    (∃ l', insert (ε := ε) l p = .ok l') ∨
      (∃ f, insert (ε := ε) l p = .fault f) ∧ ∃ i, .position i ∈ keySteps p.1 := by
  rw [insert_eq, keySteps_eq]
  rcases Setting.place_cases (ε := ε) (innerSteps p.1) p.2 (l.lookup (subject p.1)) with ⟨t, ht⟩ | ⟨⟨f, hf⟩, i, hi⟩
  · exact .inl ⟨Setting.set (subject p.1) t l, by simp [ht]⟩
  · exact .inr ⟨⟨f, by simp [hf]⟩, i, List.mem_cons_of_mem _ hi⟩

/-! ## Layers laid on layers -/

theorem laidOn_cons (p : String × Setting) (top l : Layer) :
    laidOn (ε := ε) (p :: top) l = (insert l p).bind (laidOn top) := rfl

theorem laidOn_append (below top l : Layer) :
    laidOn (ε := ε) (below ++ top) l = (laidOn below l).bind (laidOn top) := by
  induction below generalizing l with
  | nil => rfl
  | cons p below ih =>
    rw [List.cons_append, laidOn_cons, laidOn_cons]
    cases insert (ε := ε) l p with
    | ok l₁ => exact ih l₁
    | refused e => rfl
    | fault f => rfl

/-- what is true of a layer and stays true under one more key is true with another layer on it -/
theorem laidOn_invariant {P : Layer → Prop} (hstep : ∀ p ∈ top, ∀ l l', insert (ε := ε) l p = .ok l' → P l → P l')
    (h : laidOn (ε := ε) top l = .ok l') (hl : P l) : P l' := by
  induction top generalizing l with
  | nil =>
    cases h
    exact hl
  | cons p top ih =>
    obtain ⟨l₁, h₁, h⟩ := Outcome.bind_eq_ok.1 h
    exact ih (fun q hq => hstep q (List.mem_cons_of_mem _ hq)) h (hstep p (List.mem_cons_self ..) _ _ h₁ hl)

/-- a layer can be laid on another, or that stops in a fault, and only a position does that -/
theorem laidOn_cases (top l : Layer) :
    (∃ l', laidOn (ε := ε) top l = .ok l') ∨
      (∃ f, laidOn (ε := ε) top l = .fault f) ∧ ∃ p ∈ top, ∃ i, .position i ∈ keySteps p.1 := by
  induction top generalizing l with
  | nil => exact .inl ⟨l, rfl⟩
  | cons p top ih =>
    rw [laidOn_cons]
    rcases insert_cases (ε := ε) l p with ⟨l₁, h₁⟩ | ⟨⟨f, hf⟩, i, hi⟩
    · rw [h₁]
      rcases ih l₁ with h | ⟨hf, q, hq, hi⟩
      · exact .inl h
      · exact .inr ⟨hf, q, List.mem_cons_of_mem _ hq, hi⟩
    · exact .inr ⟨⟨f, by rw [hf]; rfl⟩, p, List.mem_cons_self .., i, hi⟩

theorem named_insert (h : insert (ε := ε) l p = .ok l') : (l'.lookup (subject p.1)).isSome := by
  obtain ⟨s, rfl, -⟩ := insert_eq_ok h
  simp

/-- nothing that a layer names is forgotten -/
theorem named_laidOn (h : laidOn (ε := ε) top l = .ok l') (hk : (l.lookup k).isSome) : (l'.lookup k).isSome := by
  refine laidOn_invariant (P := fun l => (l.lookup k).isSome) (fun p _ l l' hins hl => ?_) h hk
  obtain ⟨s, rfl, -⟩ := insert_eq_ok hins
  by_cases hp : k = subject p.1
  · simp [hp]
  · rwa [Setting.lookup_set_of_ne hp]

/-- a table or a list under a name -/
def Composed (l : Layer) (k : String) : Prop := ∃ s, l.lookup k = some s ∧ s.isComposed = true

/-- a key that leads into its subject leaves a table or a list there -/
theorem composed_insert (h : insert (ε := ε) l p = .ok l') (hp : subject p.1 ≠ p.1) : l'.Composed (subject p.1) := by
  obtain ⟨s, rfl, hs⟩ := insert_eq_ok h
  exact ⟨s, Setting.lookup_set_self .., hs hp⟩

/-- a table or a list stays one, unless the setting itself is said -/
theorem Composed.laidOn (h : laidOn (ε := ε) top l = .ok l') (hk : ∀ q ∈ top, q.1 ≠ k) (hl : l.Composed k) :
    l'.Composed k := by
  refine laidOn_invariant (P := fun l => l.Composed k) (fun q hq l l' hins hl => ?_) h hl
  by_cases hsub : subject q.1 = k
  · exact hsub ▸ composed_insert hins fun heq => hk q hq (heq ▸ hsub)
  · obtain ⟨s, rfl, -⟩ := insert_eq_ok hins
    rwa [Composed, Setting.lookup_set_of_ne (Ne.symm hsub)]

end Layer

/-! ## Layers that name settings -/

namespace Layer

variable {ε : Type} {top : Layer} {p : String × Setting}

/-- a layer that names settings only, with a scalar for each -/
def Plain (l : Layer) : Prop := ∀ p ∈ l, p.1 ∈ AppConfig.names ∧ p.2.isComposed = false

theorem Plain.lookup_eq_none {l : Layer} {k : String} (h : l.Plain) (hk : k ∉ AppConfig.names) : l.lookup k = none :=
  List.lookup_eq_none_iff.2 fun p hp => by simpa using fun heq : k = p.1 => hk (heq ▸ (h p hp).1)

theorem keySteps_of_name : ∀ k ∈ AppConfig.names, keySteps k = [.name k] := by decide

/-- the name of a setting with a scalar goes in the place of what is there -/
theorem insert_plain (hname : p.1 ∈ AppConfig.names) (hscalar : p.2.isComposed = false) (l : Layer) :
    insert (ε := ε) l p = .ok (Setting.set p.1 p.2 l) := by
  simp only [insert, keySteps_of_name p.1 hname, Setting.place, Setting.members, Setting.laidOn_of_scalar hscalar,
    Outcome.ok_bind, Outcome.pure_eq_ok]

/-- a plain layer goes before the one it is laid on, key by key -/
theorem laidOn_plain (htop : top.Plain) (honce : (top.map Prod.fst).Nodup) (l : Layer) :
    ∃ l', laidOn (ε := ε) top l = .ok l' ∧ ∀ k, l'.lookup k = (top.lookup k).or (l.lookup k) := by
  induction top generalizing l with
  | nil => exact ⟨l, rfl, fun k => rfl⟩
  | cons p top ih =>
    obtain ⟨n, x⟩ := p
    obtain ⟨hname, hscalar⟩ := htop _ (List.mem_cons_self ..)
    obtain ⟨hnew, honce⟩ := List.nodup_cons.1 honce
    obtain ⟨l', hl', hlookup⟩ := ih (fun q hq => htop q (List.mem_cons_of_mem _ hq)) honce (Setting.set n x l)
    refine ⟨l', by rw [laidOn_cons, insert_plain hname hscalar]; exact hl', fun k => ?_⟩
    rw [hlookup]
    by_cases hk : k = n
    · subst hk
      have hnone : top.lookup k = none :=
        List.lookup_eq_none_iff.2 fun q hq => by
          simpa using fun heq : k = q.1 => hnew (List.mem_map.2 ⟨q, hq, heq.symm⟩)
      rw [hnone, Setting.lookup_set_self, List.lookup_cons_self]
      rfl
    · rw [Setting.lookup_set_of_ne hk, List.lookup_cons, beq_eq_false_iff_ne.2 hk]

end Layer

/-! ## Layers of files and variables -/

namespace ConfigSources

variable {s : ConfigSources} {name : String} {base own l : Layer}

/-- a word that leads to a file in the directory and nowhere else, as every word of letters does -/
def IsWord (w : String) : Prop := w ≠ "" ∧ '/' ∉ w.toList ∧ '.' ∉ w.toList

instance (w : String) : Decidable (IsWord w) := inferInstanceAs (Decidable (_ ∧ _))

/-- the layer that a settings file in TOML has, an empty one if there is no such file -/
def FileSays (s : ConfigSources) (name : String) (l : Layer) : Prop :=
  match s.files.lookup (name ++ ".toml") with
  | none => l = []
  | some text => (Toml.parse text).map Layer.ofToml = some l

instance (s : ConfigSources) (name : String) (l : Layer) : Decidable (s.FileSays name l) :=
  match h : s.files.lookup (name ++ ".toml") with
  | none => decidable_of_iff (l = []) (by simp only [FileSays, h])
  | some text => decidable_of_iff ((Toml.parse text).map Layer.ofToml = some l) (by simp only [FileSays, h])

/-- the TOML files can be read as these layers, and no other file hides them; there are no settings files in other
formats -/
structure Reads (s : ConfigSources) (base own : Layer) : Prop where
  profile : IsWord s.profile
  unhidden : ∀ f ∈ s.files, f.1 ≠ "default" ∧ f.1 ≠ s.profile
  base : s.FileSays "default" base
  own : s.FileSays s.profile own

instance (s : ConfigSources) (base own : Layer) : Decidable (s.Reads base own) :=
  decidable_of_iff (IsWord s.profile ∧ (∀ f ∈ s.files, f.1 ≠ "default" ∧ f.1 ≠ s.profile) ∧ s.FileSays "default" base ∧
    s.FileSays s.profile own) ⟨fun ⟨hword, hunhidden, hbase, hown⟩ => ⟨hword, hunhidden, hbase, hown⟩,
      fun h => ⟨h.profile, h.unhidden, h.base, h.own⟩⟩

/-- the name of a layer's file is the word with the extension of settings files -/
theorem namesFor_word (h : IsWord name) : s.namesFor name = [name, name ++ ".toml"] := by
  have hsplit : name.toList.splitOn '/' = [name.toList] :=
    List.splitOn_eq_singleton h.2.1
  have hdot : ∀ w : String, '.' ∈ w.toList → name ≠ w := fun w hw heq => h.2.2 (heq ▸ hw)
  have hsteps : pathSteps name = [name] := by
    simp [pathSteps, hsplit, h.1, hdot "." (by decide)]
  have hslash : name.toList.head? ≠ some '/' := fun heq => h.2.1 (List.mem_of_mem_head? heq)
  have hin : nameIn? s.directory name = some (name, true) := by
    simp [nameIn?, hslash, hsteps, inside, hsplit, hdot ".." (by decide)]
  simp only [namesFor, hin]
  rfl

theorem isSettingsName_word (h : IsWord name) : isSettingsName (name ++ ".toml") = true := by
  have hlen : 0 < name.toList.length := List.length_pos_iff.2 fun hnil => h.1 (String.toList_eq_nil_iff.1 hnil)
  have hending : ['.', 't', 'o', 'm', 'l'].isSuffixOf (name.toList ++ ['.', 't', 'o', 'm', 'l']) = true :=
    List.isSuffixOf_iff_suffix.2 (List.suffix_append ..)
  simp only [isSettingsName, String.toList_append, Bool.and_eq_true, decide_eq_true_eq]
  exact ⟨hending, by simpa using hlen⟩

theorem fileLayer_of_says (hword : IsWord name) (hhidden : ∀ f ∈ s.files, f.1 ≠ name) (h : s.FileSays name l) :
    s.fileLayer name = .ok l := by
  have hnone : s.files.lookup name = none := List.lookup_eq_none_iff.2 fun f hf => by simpa using (hhidden f hf).symm
  have hfile : s.fileFor name = (s.files.lookup (name ++ ".toml")).map fun text => (name ++ ".toml", text) := by
    simp only [fileFor, namesFor_word hword, List.findSome?_cons, List.findSome?_nil, hnone, Option.map_none]
    cases s.files.lookup (name ++ ".toml") with
    | none => rfl
    | some text => exact Option.filter_eq_some_iff.2 ⟨rfl, isSettingsName_word hword⟩
  rw [fileLayer, hfile]
  unfold FileSays at h
  cases hlookup : s.files.lookup (name ++ ".toml") with
  | none =>
    rw [hlookup] at h
    exact congrArg _ h.symm
  | some text =>
    rw [hlookup] at h
    obtain ⟨ms, hms, rfl⟩ := Option.map_eq_some_iff.1 h
    simp only [Option.map_some, hms]

/-- a layer from a file has every key once -/
theorem FileSays.nodup (h : s.FileSays name l) : (l.map Prod.fst).Nodup := by
  unfold FileSays at h
  split at h
  · subst h
    exact List.nodup_nil
  · obtain ⟨ms, hms, rfl⟩ := Option.map_eq_some_iff.1 h
    have hkeys : ∀ ms : Toml.Members, (Layer.ofToml ms).map Prod.fst = Toml.keys ms := by
      intro ms
      induction ms with
      | nil => rfl
      | cons m ms ih => exact congrArg (m.1 :: ·) ih
    rw [hkeys]
    exact Toml.nodup_parse hms

/-- the layers of files that can be read and the variables are laid on what is built in, one after the other -/
theorem merged_of_say (h : s.Reads base own) :
    s.merged = Layer.laidOn (base ++ (own ++ Layer.ofVariables s.vars)) s.builtIn := by
  rw [merged, fileLayer_of_says (by decide) (fun f hf => (h.unhidden f hf).1) h.base,
    fileLayer_of_says h.profile (fun f hf => (h.unhidden f hf).2) h.own, Layer.laidOn_append]
  exact congrArg (Outcome.bind _) (funext fun l => (Layer.laidOn_append own _ l).symm)

theorem plain_builtIn (s : ConfigSources) : s.builtIn.Plain := by
  simp only [Layer.Plain, builtIn, List.forall_mem_cons]
  exact ⟨⟨by decide, rfl⟩, ⟨by decide, rfl⟩, ⟨by decide, rfl⟩, List.forall_mem_nil _⟩

/-- what the layers above the built-in one say of a setting: the variables, else the file of the profile, else the
default file -/
def said (s : ConfigSources) (base own : Layer) (k : String) : Option Setting :=
  ((Layer.ofVariables s.vars).lookup k).or ((own.lookup k).or (base.lookup k))

/-- what is said of a setting stands in one of the layers -/
theorem mem_of_said {k : String} {x : Setting} (h : s.said base own k = some x) :
    (k, x) ∈ base ++ (own ++ Layer.ofVariables s.vars) := by
  rw [said, ← List.lookup_append, ← List.lookup_append] at h
  obtain ⟨pre, post, hsplit, -⟩ := List.lookup_eq_some_iff.1 h
  have hmem : (k, x) ∈ Layer.ofVariables s.vars ++ (own ++ base) := hsplit ▸ by simp
  simp only [List.mem_append] at hmem ⊢
  rcases hmem with h | h | h
  · exact .inr (.inr h)
  · exact .inr (.inl h)
  · exact .inl h

/-- **Plain layers.** Layers that name settings only come together, and of every setting the topmost layer that says
something is left. -/
theorem merged_plain (h : s.Reads base own) (hplain : (base ++ (own ++ Layer.ofVariables s.vars)).Plain)
    (honce : ((Layer.ofVariables s.vars).map Prod.fst).Nodup) :
    ∃ l, s.merged = .ok l ∧ (∀ p ∈ l, p.1 ∈ AppConfig.names) ∧
      ∀ k, l.lookup k = (s.said base own k).or (s.builtIn.lookup k) := by
  have hbase : base.Plain := fun p hp => hplain p (by simp [hp])
  have hown : own.Plain := fun p hp => hplain p (by simp [hp])
  have hvars : (Layer.ofVariables s.vars).Plain := fun p hp => hplain p (by simp [hp])
  obtain ⟨l₁, h₁, hl₁⟩ := Layer.laidOn_plain (ε := ConfigError) hbase h.base.nodup s.builtIn
  obtain ⟨l₂, h₂, hl₂⟩ := Layer.laidOn_plain (ε := ConfigError) hown h.own.nodup l₁
  obtain ⟨l₃, h₃, hl₃⟩ := Layer.laidOn_plain (ε := ConfigError) hvars honce l₂
  have hlookup : ∀ k, l₃.lookup k = (s.said base own k).or (s.builtIn.lookup k) := fun k => by
    rw [hl₃, hl₂, hl₁, said, Option.or_assoc, Option.or_assoc]
  refine ⟨l₃, ?_, fun p hp => ?_, hlookup⟩
  · rw [merged_of_say h, Layer.laidOn_append, h₁, Outcome.bind, Layer.laidOn_append, h₂, Outcome.bind, h₃]
  · by_contra hk
    have hnone : l₃.lookup p.1 = none := by
      rw [hlookup, said, hvars.lookup_eq_none hk, hown.lookup_eq_none hk, hbase.lookup_eq_none hk,
        (plain_builtIn s).lookup_eq_none hk]
      rfl
    simpa using List.lookup_eq_none_iff.1 hnone p hp

end ConfigSources

end Brigade
