/-
The order of the layers.

- `settings_layered`: if all layers name settings only and what they say is acceptable, the configuration is loaded, and
  every setting in it is what the topmost layer that says it has: the variables, then the file of the profile, then the
  default file, then what is built in, where the environment is named after the profile. A key that is not a setting
  keeps the configuration from loading, unless it leads into a setting that its own layer or a layer above it says.
- `stray_key_covered`: such a key does no harm where a layer above says the setting.

The first half is `load_of_accepted`, for layers of acceptable settings are plain. For the second, what such a key is
about stays under its name in the merged layer. If that is no setting, it is refused as unknown (`named_laidOn`). If it
is one, a table or a list is there (`Composed.laidOn`), and nothing is read of that.
-/
import Brigade.Proofs.SettingFields
import Mathlib.Tactic

namespace Brigade

open AppConfig (Field)

namespace ConfigSources

variable {s : ConfigSources} {base own l : Layer}

/-- **Stray keys.** After a key that is not a setting no configuration can be taken, unless what the key is about is a
setting and said itself later. -/
theorem unloadable_of_stray {below top l₀ : Layer} {p : String × Setting} (hstray : p.1 ∉ AppConfig.names)
    (huncovered : ∀ q ∈ top, q.1 ∈ AppConfig.names → q.1 ≠ Layer.subject p.1)
    (hlaid : Layer.laidOn (ε := ConfigError) (below ++ p :: top) l₀ = .ok l) (c : AppConfig) :
    AppConfig.ofLayer l ≠ .ok c := by
  intro hc
  obtain ⟨hnames, htake⟩ := AppConfig.ofLayer_eq_ok.1 hc
  obtain ⟨l₁, -, hlaid⟩ := Outcome.bind_eq_ok.1 (Layer.laidOn_append below _ l₀ ▸ hlaid)
  obtain ⟨l₂, hinsert, hlaid⟩ := Outcome.bind_eq_ok.1 hlaid
  by_cases hname : Layer.subject p.1 ∈ AppConfig.names
  · -- a table or a list is left under the name of a setting
    have hinner : Layer.subject p.1 ≠ p.1 := fun heq => hstray (heq ▸ hname)
    have hcomposed : l.Composed (Layer.subject p.1) :=
      (Layer.composed_insert hinsert hinner).laidOn hlaid fun q hq heq => huncovered q hq (heq ▸ hname) heq
    obtain ⟨x, hx, hcomposed⟩ := hcomposed
    obtain ⟨f, hf⟩ := AppConfig.mem_names_iff.1 hname
    have herror := Field.take_of_unreadable (hf ▸ hx) (Field.read?_of_composed hcomposed f)
    rw [htake f] at herror
    cases herror
  · -- something is left under a name that is not of a setting
    obtain ⟨x, hx⟩ := Option.isSome_iff_exists.1 (Layer.named_laidOn hlaid (Layer.named_insert hinsert))
    obtain ⟨pre, post, rfl, -⟩ := List.lookup_eq_some_iff.1 hx
    exact hname (hnames (Layer.subject p.1, x) (by simp))

/-- **The order of the layers.** Take a profile that is a word, files that can be read and any variables.

If every layer only says settings, each with something that can be read and fulfils its condition, and the variables say
each setting once at most, then the configuration is loaded, and every setting in it is what is read of the topmost layer
that says it, or its default; the default of the environment is the profile.

If some layer says a key that is not a setting, then the configuration is not loaded, unless the key leads into a setting
that this layer or one above it says. It is refused for a name or a value, or it stops in a fault over a position in a
list. -/
theorem settings_layered (h : s.Reads base own) :
    let profile := ((s.vars.lookup "RUN_ENV").or (s.vars.lookup "APP_ENV")).getD "development"
    let vars := Layer.ofVariables s.vars
    ((∀ p ∈ base ++ (own ++ vars), ∃ f : Field, p.1 = f.name ∧ f.Accepts p.2) → (vars.map Prod.fst).Nodup →
      ∃ c, s.load = .ok c ∧ ∀ f : Field,
        f.Settles profile ((vars.lookup f.name).or ((own.lookup f.name).or (base.lookup f.name))) (f.get c)) ∧
    ∀ (below : List Layer) (layer : Layer) (above : List Layer), [base, own, vars] = below ++ layer :: above →
      ∀ p ∈ layer, p.1 ∉ AppConfig.names →
        (∀ q ∈ layer ++ above.flatten, q.1 ∈ AppConfig.names → q.1 ≠ Layer.subject p.1) →
        (∃ e, s.load = .refused e ∧ e.isInvalid = false) ∨
          (∃ f, s.load = .fault f) ∧ ∃ q ∈ base ++ (own ++ vars), ∃ i, .position i ∈ Layer.keySteps q.1 := by
  intro profile vars
  refine ⟨fun haccepts honce => ?_, fun below layer above hlayers p hp hstray huncovered => ?_⟩
  · refine load_of_accepted h (fun p hp => ?_) honce fun f x hx => ?_
    · obtain ⟨f, hname, hp⟩ := haccepts p hp
      exact ⟨AppConfig.mem_names_iff.2 ⟨f, hname⟩, Field.scalar_of_accepts hp⟩
    · obtain ⟨g, hname, hg⟩ := haccepts _ (mem_of_said hx)
      exact Field.name_injective hname ▸ hg
  · rcases Layer.laidOn_cases (ε := ConfigError) (base ++ (own ++ vars)) s.builtIn with ⟨l, hl⟩ | ⟨⟨f, hf⟩, hposition⟩
    · obtain ⟨before, later, rfl⟩ := List.append_of_mem hp
      have hall : base ++ (own ++ vars) = (below.flatten ++ before) ++ p :: (later ++ above.flatten) := by
        simpa using congrArg List.flatten hlayers
      have hlater : ∀ q ∈ later ++ above.flatten, q.1 ∈ AppConfig.names → q.1 ≠ Layer.subject p.1 := fun q hq =>
        huncovered q (List.mem_append.2 ((List.mem_append.1 hq).imp_left fun hq => by simp [hq]))
      exact .inl (load_of_unloadable ((merged_of_say h).trans hl) (unloadable_of_stray hstray hlater (hall ▸ hl)))
    · exact .inr ⟨⟨f, by rw [load, merged_of_say h, hf]; rfl⟩, hposition⟩

/-- all layers say something: the log level twice, the JSON lines by a variable -/
def fourLayers : ConfigSources :=
  ⟨"config", [("default.toml", "log_level = \"debug\"\nconcurrency_max_retries = 1\n"),
    ("production.toml", "log_level = \"warn\"\n")], [("RUN_ENV", "production"), ("APP__LOG_JSON", "yes")]⟩

/-- a default file with a key that leads into the environment, and a file of the profile that says the environment -/
def coveredKey : ConfigSources :=
  ⟨"config", [("default.toml", "\"environment.x\" = 1\n"), ("production.toml", "environment = \"prod\"\n")],
    [("RUN_ENV", "production")]⟩

/-- the same without the file of the profile -/
def strayKey : ConfigSources := { coveredKey with files := [("default.toml", "\"environment.x\" = 1\n")] }

theorem variableKey_profile : Layer.variableKey? "RUN_ENV" = none := by decide +kernel

theorem variableKey_logJson : Layer.variableKey? "APP__LOG_JSON" = some "log_json" := by decide +kernel

/-- every setting comes from its layer; without a layer above it the stray key is refused -/
theorem settings_layered_fourLayers :
    (∃ c, fourLayers.load = .ok c ∧ c.environment = "production" ∧ c.logLevel = "warn" ∧ c.logJson = true ∧
      c.maxRetries = 1 ∧ c.orderNumberFront = "ORD") ∧
    ∃ e, strayKey.load = .refused e ∧ e.isInvalid = false := by
  have hvars : Layer.ofVariables fourLayers.vars = [("log_json", .text "yes")] := by
    simp [fourLayers, Layer.ofVariables, variableKey_profile, variableKey_logJson]
  have hsay : fourLayers.Reads [("log_level", .text "debug"), ("concurrency_max_retries", .int 1)]
      [("log_level", .text "warn")] := by decide +kernel
  have hstray : strayKey.Reads [("environment.x", .int 1)] [] := by decide +kernel
  constructor
  · have hdebug : Field.logLevel.Accepts (.text "debug") :=
      ⟨"debug", rfl, (by decide +kernel : Text.lowercase "debug" ∈ AppConfig.logLevels)⟩
    have hwarn : Field.logLevel.Accepts (.text "warn") :=
      ⟨"warn", rfl, (by decide +kernel : Text.lowercase "warn" ∈ AppConfig.logLevels)⟩
    have hone : Field.maxRetries.Accepts (.int 1) := ⟨(1 : Nat), rfl, (by decide : 1 ≤ 10)⟩
    have hyes : Setting.toBool? (.text "yes") = some true := by decide +kernel
    obtain ⟨c, hc, hsettles⟩ := (settings_layered hsay).1 (by
      rw [hvars]
      simp only [List.cons_append, List.nil_append, List.forall_mem_cons]
      exact ⟨⟨.logLevel, rfl, hdebug⟩, ⟨.maxRetries, rfl, hone⟩, ⟨.logLevel, rfl, hwarn⟩,
        ⟨.logJson, rfl, true, hyes, trivial⟩, List.forall_mem_nil _⟩) (by rw [hvars]; decide)
    rw [hvars] at hsettles
    have hjson : some true = some c.logJson := hyes.symm.trans (hsettles .logJson)
    exact ⟨c, hc, hsettles .environment, (Option.some.inj (hsettles .logLevel)).symm, (Option.some.inj hjson).symm,
      (Option.some.inj (hsettles .maxRetries)).symm, hsettles .orderNumberFront⟩
  · have hvars : Layer.ofVariables strayKey.vars = [] := by
      simp [strayKey, coveredKey, Layer.ofVariables, variableKey_profile]
    rcases (settings_layered hstray).2 [] _ _ rfl _ (List.mem_cons_self ..) (by decide) (by rw [hvars]; decide) with
      hrefused | ⟨-, hposition⟩
    · exact hrefused
    · obtain ⟨q, hq, i, hi⟩ := hposition
      rw [hvars] at hq
      obtain rfl := List.mem_singleton.1 hq
      have hsteps : Layer.keySteps "environment.x" = [.name "environment", .name "x"] := by decide
      simp [hsteps] at hi

/-- a key that is no setting does no harm where a layer above says the setting that it leads into -/
theorem stray_key_covered :
    coveredKey.Reads [("environment.x", .int 1)] [("environment", .text "prod")] ∧
      "environment.x" ∉ AppConfig.names ∧ coveredKey.load = .ok { AppConfig.standard with environment := "prod" } :=
  ⟨by decide +kernel, by decide, by decide +kernel⟩

end ConfigSources

end Brigade
