/-
The settings one by one.

The seven settings are told apart by `AppConfig.Field`, each with its name, the type of its values, how it is read, its
default and its condition, so that what holds of all of them is said once:
- `ofLayer_eq_ok`: a configuration comes from a layer if the layer names settings only and every setting can be taken
  from it;
- `complaints_eq_nil`: nothing is complained of if every setting fulfils its condition;
- `load_eq_ok`: the configuration is loaded if both are so of the merged layer, and otherwise it is refused for a name or
  a value (`load_of_unloadable`) or for a condition (`load_of_invalid`);
- `load_of_accepted`: plain layers are loaded if what is left of them is acceptable, and then every setting is what the
  topmost layer says of it, or its default.
-/
import Brigade.Proofs.ConfigLayers

namespace Brigade

/-! ## Settings -/

namespace AppConfig

/-- a setting of the program -/
inductive Field where
  | environment
  | logLevel
  | logJson
  | maxRetries
  | retryDelay
  | orderNumberFront
  | eventCapacity
deriving DecidableEq

namespace Field

/-- its key in a layer -/
def name : Field → String
  | environment => "environment"
  | logLevel => "log_level"
  | logJson => "log_json"
  | maxRetries => "concurrency_max_retries"
  | retryDelay => "concurrency_retry_delay_ms"
  | orderNumberFront => "order_number_prefix"
  | eventCapacity => "event_channel_capacity"

/-- what its values are -/
def Value : Field → Type
  | environment | logLevel | orderNumberFront => String
  | logJson => Bool
  | maxRetries | retryDelay | eventCapacity => Nat

/-- how it is read -/
def read? : (f : Field) → Setting → Option f.Value
  | environment | logLevel | orderNumberFront => Setting.toText?
  | logJson => Setting.toBool?
  | maxRetries => Setting.toNat32?
  | retryDelay | eventCapacity => Setting.toNat64?

/-- its value in a configuration -/
def get : (f : Field) → AppConfig → f.Value
  | environment => AppConfig.environment
  | logLevel => AppConfig.logLevel
  | logJson => AppConfig.logJson
  | maxRetries => AppConfig.maxRetries
  | retryDelay => AppConfig.retryDelay
  | orderNumberFront => AppConfig.orderNumberFront
  | eventCapacity => AppConfig.eventCapacity

/-- its built-in value under a profile, which the environment is named after -/
def standard (profile : String) (f : Field) : f.Value := f.get { AppConfig.standard with environment := profile }

/-- the condition on its values -/
def Allowed : (f : Field) → f.Value → Prop
  | environment, _ => True
  | logLevel, v => Text.lowercase v ∈ logLevels
  | logJson, _ => True
  | maxRetries, (n : Nat) => n ≤ 10
  | retryDelay, (n : Nat) => n ≤ 10000
  | orderNumberFront, (v : String) => 1 ≤ v.length ∧ v.length ≤ 10
  | eventCapacity, (n : Nat) => 1 ≤ n ∧ n ≤ 100000

/-- the setting can be read as a value that fulfils the condition -/
def Accepts (f : Field) (s : Setting) : Prop := ∃ v, f.read? s = some v ∧ f.Allowed v

/-- a value is what is said of a setting, or what is built in under the profile if nothing is said -/
def Settles (profile : String) (f : Field) : Option Setting → f.Value → Prop
  | none, v => v = f.standard profile
  | some s, v => f.read? s = some v

/-- the configuration with given values -/
def assemble (v : (f : Field) → f.Value) : AppConfig :=
  ⟨v environment, v logLevel, v logJson, v maxRetries, v retryDelay, v orderNumberFront, v eventCapacity⟩

@[simp] theorem get_assemble (v : (f : Field) → f.Value) (f : Field) : f.get (assemble v) = v f := by
  cases f <;> rfl

theorem name_injective : Function.Injective name := by
  intro f g h
  cases f <;> cases g <;> first | rfl | exact absurd h (by decide)

/-- every default fulfils its condition -/
theorem allowed_standard (profile : String) (f : Field) : f.Allowed (f.standard profile) := by
  cases f
  exacts [trivial, (by decide : Text.lowercase "info" ∈ logLevels), trivial, (by decide : 3 ≤ 10),
    (by decide : 0 ≤ 10000), (by decide : 1 ≤ "ORD".length ∧ "ORD".length ≤ 10),
    (by decide : 1 ≤ 1024 ∧ 1024 ≤ 100000)]

/-- the setting of a layer, or its default -/
def take (f : Field) (l : Layer) : Except ConfigError f.Value :=
  setting l f.name f.read? (f.standard AppConfig.standard.environment)

variable {f : Field} {l : Layer}

theorem take_of_read {s : Setting} {v : f.Value} (hs : l.lookup f.name = some s) (hv : f.read? s = some v) :
    f.take l = .ok v := by
  simp only [take, setting, hs, hv]

theorem take_of_unreadable {s : Setting} (hs : l.lookup f.name = some s) (hv : f.read? s = none) :
    f.take l = .error (.unreadableSetting f.name) := by
  simp only [take, setting, hs, hv]

/-- a setting that no layer says is taken from what is built in -/
theorem take_of_builtIn {s : ConfigSources} (h : l.lookup f.name = s.builtIn.lookup f.name) :
    f.take l = .ok (f.standard s.profile) := by
  cases f <;> simp only [take, setting, h] <;> rfl

/-- nothing is read of a list or a table -/
theorem read?_of_composed {s : Setting} (h : s.isComposed = true) (f : Field) : f.read? s = none := by
  cases s with
  | list xs => cases f <;> rfl
  | table ms => cases f <;> rfl
  | _ => cases h

theorem scalar_of_accepts {f : Field} {s : Setting} (h : f.Accepts s) : s.isComposed = false := by
  obtain ⟨v, hv, -⟩ := h
  by_contra hs
  rw [read?_of_composed (eq_true_of_ne_false hs)] at hv
  cases hv

end Field

/-! ## A configuration from a layer -/

theorem mem_names_iff {k : String} : k ∈ names ↔ ∃ f : Field, k = f.name := by
  constructor
  · intro h
    simp only [names, List.mem_cons, List.not_mem_nil, or_false] at h
    rcases h with rfl | rfl | rfl | rfl | rfl | rfl | rfl
    exacts [⟨.environment, rfl⟩, ⟨.logLevel, rfl⟩, ⟨.logJson, rfl⟩, ⟨.maxRetries, rfl⟩, ⟨.retryDelay, rfl⟩,
      ⟨.orderNumberFront, rfl⟩, ⟨.eventCapacity, rfl⟩]
  · rintro ⟨f, rfl⟩
    cases f <;> decide

/-- a layer with no other names is read setting by setting -/
theorem ofLayer_of_named {l : Layer} (h : ∀ p ∈ l, p.1 ∈ names) :
    ofLayer l = do
      let e ← Field.environment.take l
      let v ← Field.logLevel.take l
      let j ← Field.logJson.take l
      let r ← Field.maxRetries.take l
      let d ← Field.retryDelay.take l
      let o ← Field.orderNumberFront.take l
      let c ← Field.eventCapacity.take l
      return ⟨e, v, j, r, d, o, c⟩ := by
  have hfind : (l.find? fun p => !names.contains p.1) = none :=
    List.find?_eq_none.2 fun p hp => by simpa using h p hp
  simp only [ofLayer, hfind]
  rfl

theorem named_of_ofLayer {l : Layer} {c : AppConfig} (h : ofLayer l = .ok c) : ∀ p ∈ l, p.1 ∈ names := by
  unfold ofLayer at h
  split at h
  · cases h
  · rename_i hfind
    intro p hp
    simpa using List.find?_eq_none.1 hfind p hp

/-- a configuration comes from a layer if the layer names settings only and every setting can be taken from it -/
theorem ofLayer_eq_ok {l : Layer} {c : AppConfig} :
    ofLayer l = .ok c ↔ (∀ p ∈ l, p.1 ∈ names) ∧ ∀ f : Field, f.take l = .ok (f.get c) := by
  constructor
  · intro h
    have hnames := named_of_ofLayer h
    rw [ofLayer_of_named hnames] at h
    simp only [Except.bind_eq_ok] at h
    obtain ⟨e, he, v, hv, j, hj, r, hr, d, hd, o, ho, k, hk, h⟩ := h
    cases h
    exact ⟨hnames, fun f => by cases f <;> assumption⟩
  · rintro ⟨hnames, htake⟩
    rw [ofLayer_of_named hnames, htake .environment, htake .logLevel, htake .logJson, htake .maxRetries,
      htake .retryDelay, htake .orderNumberFront, htake .eventCapacity]
    rfl

/-- the values that are taken make the configuration -/
theorem ofLayer_assemble {l : Layer} {v : (f : Field) → f.Value} (hnames : ∀ p ∈ l, p.1 ∈ names)
    (htake : ∀ f : Field, f.take l = .ok (v f)) : ofLayer l = .ok (Field.assemble v) :=
  ofLayer_eq_ok.2 ⟨hnames, fun f => by rw [Field.get_assemble, htake]⟩

/-- what is refused in taking the settings is a name or a value -/
def ReadErrors {α : Type} (x : Except ConfigError α) : Prop := ∀ e, x = .error e → e.isInvalid = false

theorem ReadErrors.bind {α β : Type} {x : Except ConfigError α} {k : α → Except ConfigError β} (hx : ReadErrors x)
    (hk : ∀ a, ReadErrors (k a)) : ReadErrors (x >>= k) := by
  cases x with
  | ok a => exact hk a
  | error e =>
    intro e' h
    cases h
    exact hx e rfl

theorem readErrors_take (f : Field) (l : Layer) : ReadErrors (f.take l) := by
  intro e h
  unfold Field.take setting at h
  split at h
  · cases h
  · split at h <;> cases h
    rfl

theorem readErrors_ofLayer (l : Layer) : ReadErrors (ofLayer l) := by
  by_cases hnames : ∀ p ∈ l, p.1 ∈ names
  · rw [ofLayer_of_named hnames]
    repeat refine (readErrors_take _ l).bind fun _ => ?_
    exact nofun
  · intro e h
    unfold ofLayer at h
    split at h
    · cases h
      rfl
    · rename_i hfind
      exact absurd (fun p hp => by simpa using List.find?_eq_none.1 hfind p hp) hnames

/-! ## Conditions -/

/-- nothing is complained of exactly if every setting fulfils its condition -/
theorem complaints_eq_nil {c : AppConfig} : c.complaints = [] ↔ ∀ f : Field, f.Allowed (f.get c) := by
  simp only [complaints, List.append_eq_nil_iff, Validation.check_eq_nil, Bool.and_eq_true, decide_eq_true_eq,
    List.contains_iff_mem]
  constructor
  · rintro ⟨⟨⟨⟨hlevel, hretries⟩, hdelay⟩, hfront⟩, hcapacity⟩ f
    cases f
    exacts [trivial, hlevel, trivial, hretries, hdelay, hfront, hcapacity]
  · intro h
    exact ⟨⟨⟨⟨h .logLevel, h .maxRetries⟩, h .retryDelay⟩, h .orderNumberFront⟩, h .eventCapacity⟩

end AppConfig

/-! ## Loading -/

open AppConfig (Field)

namespace ConfigSources

variable {s : ConfigSources} {base own l : Layer}

/-- settings are loaded if the layers come together, all can be taken from them, and nothing is complained of -/
theorem load_eq_ok {c : AppConfig} :
    s.load = .ok c ↔ ∃ l, s.merged = .ok l ∧ AppConfig.ofLayer l = .ok c ∧ c.complaints = [] := by
  have hrefuse : ∀ x : Except ConfigError AppConfig, orRefuse x = .ok c ↔ x = .ok c := fun x => by
    cases x <;> simp [orRefuse]
  rw [load, Outcome.bind_eq_ok]
  refine exists_congr fun l => and_congr_right fun _ => ?_
  rw [Outcome.bind_eq_ok]
  constructor
  · rintro ⟨d, hd, h⟩
    split at h
    · cases h
    · cases h
      refine ⟨(hrefuse _).1 hd, ?_⟩
      simpa [Validation.failure?] using ‹Validation.failure? c.complaints = none›
  · rintro ⟨hc, hcomplaints⟩
    exact ⟨c, (hrefuse _).2 hc, by simp [Validation.failure?, hcomplaints]⟩

/-- settings that are taken from the layers and complained of are refused for that -/
theorem load_of_invalid {c : AppConfig} {f : Failure} (hmerged : s.merged = .ok l) (hc : AppConfig.ofLayer l = .ok c)
    (hf : Validation.failure? c.complaints = some f) : s.load = .refused (.invalid f) := by
  rw [load, hmerged, Outcome.ok_bind, hc, orRefuse, Outcome.ok_bind, hf]

/-- a configuration that cannot be taken from the layers is refused before its conditions are looked at -/
theorem load_of_unloadable (hmerged : s.merged = .ok l) (h : ∀ c, AppConfig.ofLayer l ≠ .ok c) :
    ∃ e, s.load = .refused e ∧ e.isInvalid = false := by
  cases hl : AppConfig.ofLayer l with
  | ok c => exact absurd hl (h c)
  | error e => exact ⟨e, by rw [load, hmerged, Outcome.ok_bind, hl]; rfl, AppConfig.readErrors_ofLayer l e hl⟩

/-- a setting of which something acceptable is said, or nothing, can be taken from the layers -/
theorem exists_taken {f : Field} (hl : l.lookup f.name = (s.said base own f.name).or (s.builtIn.lookup f.name))
    (haccepts : ∀ x, s.said base own f.name = some x → f.Accepts x) :
    ∃ v, f.take l = .ok v ∧ f.Allowed v ∧ f.Settles s.profile (s.said base own f.name) v := by
  cases hsaid : s.said base own f.name with
  | none =>
    rw [hsaid] at hl
    exact ⟨_, Field.take_of_builtIn hl, Field.allowed_standard s.profile f, rfl⟩
  | some x =>
    rw [hsaid] at hl
    obtain ⟨v, hv, hallowed⟩ := haccepts x hsaid
    exact ⟨v, Field.take_of_read hl hv, hallowed, hv⟩

/-- **Loading.** If the layers are plain and all that is left of them is acceptable, the configuration is loaded. -/
theorem load_of_accepted (h : s.Reads base own) (hplain : (base ++ (own ++ Layer.ofVariables s.vars)).Plain)
    (honce : ((Layer.ofVariables s.vars).map Prod.fst).Nodup)
    (haccepts : ∀ (f : Field) (x : Setting), s.said base own f.name = some x → f.Accepts x) :
    ∃ c, s.load = .ok c ∧ ∀ f : Field, f.Settles s.profile (s.said base own f.name) (f.get c) := by
  obtain ⟨l, hmerged, hnames, hlookup⟩ := merged_plain h hplain honce
  choose v htake hallowed hsettles using fun f : Field => exists_taken (hlookup f.name) (haccepts f)
  refine ⟨Field.assemble v, load_eq_ok.2 ⟨l, hmerged, AppConfig.ofLayer_assemble hnames htake, ?_⟩, fun f => ?_⟩
  · exact AppConfig.complaints_eq_nil.2 fun f => by rw [Field.get_assemble]; exact hallowed f
  · rw [Field.get_assemble]
    exact hsettles f

end ConfigSources

end Brigade
