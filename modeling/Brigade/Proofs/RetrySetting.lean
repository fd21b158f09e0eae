/-
The number of retries, as a settings file gives it.

A whole number of 64 bits is read down to its lower half before the condition on it is looked at, so the condition is on
that half. With all other settings acceptable (`GivesRetries`), `retries_loaded` tells what becomes of every number:
- a negative one cannot be read;
- one with a lower half above ten is complained of;
- any other is loaded as its lower half, and the tries are one more, which is never too many.
So the numbers that are loaded are those from zero to ten just as far as 2^32. From there on a number is refused only if
its lower half is: `retries_wrapped` loads 2^32 as no retries.

Every whole number of 64 bits can be written in a file like this (`oneLine_gives`).
-/
import Brigade.Proofs.SettingFields
import Brigade.Proofs.SettingsLine

namespace Brigade

open AppConfig (Field)

namespace ConfigSources

/-- a file gives a whole number of retries, no layer goes before it, and all other settings are acceptable -/
structure GivesRetries (s : ConfigSources) (base own : Layer) (n : Int) : Prop where
  files : s.Reads base own
  plain : (base ++ (own ++ Layer.ofVariables s.vars)).Plain
  once : ((Layer.ofVariables s.vars).map Prod.fst).Nodup
  given : s.said base own "concurrency_max_retries" = some (.int n)
  others : ∀ f : Field, f ≠ .maxRetries → ∀ x, s.said base own f.name = some x → f.Accepts x

variable {s : ConfigSources} {base own l : Layer} {c : AppConfig} {n : Int}

/-! ## The number and what is read of it -/

theorem toNat32_int (h : 0 ≤ n) : (Setting.int n).toNat32? = some (n.toNat % two32) := by
  simp [Setting.toNat32?, Setting.toNat64?, h]

theorem toNat32_negative (h : n < 0) : (Setting.int n).toNat32? = none := by
  simp [Setting.toNat32?, Setting.toNat64?, Int.not_le.2 h]

/-- what is read of the number is its lower half -/
theorem lowerHalf (h : 0 ≤ n) : ((n.toNat % two32 : Nat) : Int) = n % 2 ^ 32 := by
  unfold two32
  omega

/-- up to ten retries there is room for one try more -/
theorem retryPolicy_of_le (h : c.maxRetries ≤ 10) :
    ∃ p, c.retryPolicy = .ok p ∧ p.maxAttempts = c.maxRetries + 1 := by
  have hroom : c.maxRetries + 1 < two32 := by
    unfold two32
    omega
  let d := Duration.ofMillis c.retryDelay
  refine ⟨⟨c.maxRetries + 1, d, d.max RetryPolicy.standard.maxDelay, RetryPolicy.standard.backoff⟩, ?_, rfl⟩
  rw [AppConfig.retryPolicy, AppConfig.maxAttempts, if_pos hroom]
  rfl

/-- too many retries are all that is complained of, if all other settings fulfil their conditions -/
theorem complaints_of_retries (hothers : ∀ f : Field, f ≠ .maxRetries → f.Allowed (f.get c)) (h : 10 < c.maxRetries) :
    c.complaints = [.leaves "concurrency_max_retries" [none]] := by
  have hlevel : Text.lowercase c.logLevel ∈ AppConfig.logLevels := hothers .logLevel (by decide)
  have hdelay : c.retryDelay ≤ 10000 := hothers .retryDelay (by decide)
  have hfront : 1 ≤ c.orderNumberFront.length ∧ c.orderNumberFront.length ≤ 10 := hothers .orderNumberFront (by decide)
  have hcapacity : 1 ≤ c.eventCapacity ∧ c.eventCapacity ≤ 100000 := hothers .eventCapacity (by decide)
  simp [AppConfig.complaints, Validation.check, hlevel, hdelay, hfront, hcapacity, Nat.not_le.2 h]

/-! ## What becomes of the number -/

/-- the layers come together, with the number in them, and all other settings can be taken from them -/
theorem GivesRetries.merged (h : s.GivesRetries base own n) :
    ∃ l, s.merged = .ok l ∧ (∀ p ∈ l, p.1 ∈ AppConfig.names) ∧ l.lookup Field.maxRetries.name = some (.int n) ∧
      ∀ f : Field, f ≠ .maxRetries → ∃ v, f.take l = .ok v ∧ f.Allowed v := by
  obtain ⟨l, hmerged, hnames, hlookup⟩ := merged_plain h.files h.plain h.once
  refine ⟨l, hmerged, hnames, ?_, fun f hf => ?_⟩
  · rw [hlookup, Field.name, h.given]
    rfl
  · obtain ⟨v, htake, hallowed, -⟩ := exists_taken (hlookup f.name) (h.others f hf)
    exact ⟨v, htake, hallowed⟩

theorem GivesRetries.loaded (h : s.GivesRetries base own n) (hpos : 0 ≤ n) (hle : n % 2 ^ 32 ≤ 10) :
    ∃ c p, s.load = .ok c ∧ (c.maxRetries : Int) = n % 2 ^ 32 ∧ c.retryPolicy = .ok p ∧
      p.maxAttempts = c.maxRetries + 1 := by
  have hread := toNat32_int hpos
  have hhalf := lowerHalf hpos
  have haccepts : ∀ (f : Field) (x : Setting), s.said base own f.name = some x → f.Accepts x := by
    intro f x hx
    by_cases hf : f = .maxRetries
    · subst hf
      rw [Field.name, h.given] at hx
      cases hx
      exact ⟨_, hread, (by omega : n.toNat % two32 ≤ 10)⟩
    · exact h.others f hf x hx
  obtain ⟨c, hc, hsettles⟩ := load_of_accepted h.files h.plain h.once haccepts
  have hretries : n.toNat % two32 = c.maxRetries := by
    have hfield := hsettles .maxRetries
    rw [Field.name, h.given] at hfield
    exact Option.some.inj (hread.symm.trans hfield)
  obtain ⟨p, hp, hmax⟩ := retryPolicy_of_le (c := c) (by omega)
  exact ⟨c, p, hc, by omega, hp, hmax⟩

theorem GivesRetries.unreadable (h : s.GivesRetries base own n) (hneg : n < 0) :
    s.load = .refused (.unreadableSetting "concurrency_max_retries") := by
  obtain ⟨l, hmerged, hnames, hnumber, htaken⟩ := h.merged
  obtain ⟨e, he, -⟩ := htaken .environment (by decide)
  obtain ⟨v, hv, -⟩ := htaken .logLevel (by decide)
  obtain ⟨j, hj, -⟩ := htaken .logJson (by decide)
  have herror := Field.take_of_unreadable hnumber (toNat32_negative hneg)
  rw [load, hmerged, Outcome.ok_bind, AppConfig.ofLayer_of_named hnames, he, hv, hj, herror]
  rfl

theorem GivesRetries.invalid (h : s.GivesRetries base own n) (hpos : 0 ≤ n) (hlt : 10 < n % 2 ^ 32) :
    s.load = .refused (.invalid (.validation "concurrency_max_retries is invalid")) := by
  obtain ⟨l, hmerged, hnames, hnumber, htaken⟩ := h.merged
  have hhalf := lowerHalf hpos
  have hexists : ∀ f : Field, ∃ v, f.take l = .ok v ∧ (f ≠ .maxRetries → f.Allowed v) := by
    intro f
    by_cases hf : f = .maxRetries
    · subst hf
      exact ⟨_, Field.take_of_read hnumber (toNat32_int hpos), fun hne => absurd rfl hne⟩
    · obtain ⟨v, hv, hallowed⟩ := htaken f hf
      exact ⟨v, hv, fun _ => hallowed⟩
  choose v htake hallowed using hexists
  have hc := AppConfig.ofLayer_assemble hnames htake
  have hretries : n.toNat % two32 = (Field.assemble v).maxRetries :=
    Except.ok.inj ((Field.take_of_read hnumber (toNat32_int hpos)).symm.trans (htake .maxRetries))
  have hcomplaints : (Field.assemble v).complaints = [.leaves "concurrency_max_retries" [none]] :=
    complaints_of_retries (fun f hf => by rw [Field.get_assemble]; exact hallowed f hf) (by omega)
  exact load_of_invalid hmerged hc (by rw [hcomplaints]; exact Validation.failure?_leaf _ _)

/-- **Retries.** Every whole number that a file gives, with all other settings acceptable, is loaded as its lower half if
that is at most ten, and refused otherwise: as a value that cannot be read if it is negative, for its condition if not.
The numbers from zero to ten are the ones that are loaded, unless the number is 2^32 or more and its lower half is at
most ten. -/
theorem retries_loaded (h : s.GivesRetries base own n) :
    (0 ≤ n ∧ n % 2 ^ 32 ≤ 10 → ∃ c p, s.load = .ok c ∧ (c.maxRetries : Int) = n % 2 ^ 32 ∧ c.retryPolicy = .ok p ∧
      p.maxAttempts = c.maxRetries + 1) ∧
    (n < 0 → s.load = .refused (.unreadableSetting "concurrency_max_retries")) ∧
    (0 ≤ n ∧ 10 < n % 2 ^ 32 → s.load = .refused (.invalid (.validation "concurrency_max_retries is invalid"))) ∧
    (((∃ c, s.load = .ok c) ↔ 0 ≤ n ∧ n ≤ 10) ↔ n < 2 ^ 32 ∨ 10 < n % 2 ^ 32) := by
  refine ⟨fun hn => h.loaded hn.1 hn.2, h.unreadable, fun hn => h.invalid hn.1 hn.2, ?_⟩
  have hiff : (∃ c, s.load = .ok c) ↔ 0 ≤ n ∧ n % 2 ^ 32 ≤ 10 := by
    constructor
    · rintro ⟨c, hc⟩
      by_contra hn
      rcases Int.lt_or_le n 0 with hneg | hpos
      · rw [h.unreadable hneg] at hc
        cases hc
      · rw [h.invalid hpos (by omega)] at hc
        cases hc
    · rintro ⟨hpos, hle⟩
      obtain ⟨c, p, hc, -⟩ := h.loaded hpos hle
      exact ⟨c, hc⟩
  rw [hiff]
  omega

/-- a default file with this one line, and nothing else -/
def oneLine (n : Int) : ConfigSources :=
  ⟨"config", [("default.toml", Toml.line "concurrency_max_retries" n)], []⟩

/-- every whole number of 64 bits can be given by a file -/
theorem oneLine_gives (hn : -two63 ≤ n ∧ n < two63) :
    (oneLine n).GivesRetries [("concurrency_max_retries", .int n)] [] n where
  files :=
    { profile := (by decide : IsWord "development")
      unhidden := fun f hf => by
        obtain rfl := List.mem_singleton.1 hf
        exact (by decide : "default.toml" ≠ "default" ∧ "default.toml" ≠ "development")
      base := by
        have hkey : Toml.IsBare "concurrency_max_retries".toList := by decide
        change (Toml.parse (Toml.line "concurrency_max_retries" n)).map Layer.ofToml = _
        rw [Toml.parse_line hkey hn]
        rfl
      own := rfl }
  plain p hp := by
    obtain rfl := List.mem_singleton.1 hp
    exact ⟨(by decide : "concurrency_max_retries" ∈ AppConfig.names), rfl⟩
  once := List.nodup_nil
  given := rfl
  others f hf x hx := by
    cases f with
    | maxRetries => exact absurd rfl hf
    | _ => cases hx

/-- a number beyond 2^32 is loaded as its lower half -/
theorem retries_loaded_oneLine :
    ∃ c p, (oneLine (2 ^ 32 + 5)).load = .ok c ∧ (c.maxRetries : Int) = 5 ∧ c.retryPolicy = .ok p ∧
      p.maxAttempts = c.maxRetries + 1 :=
  (retries_loaded (oneLine_gives (by decide))).1 (by decide)

/-- 2^32 in a file is loaded, as no retries -/
theorem retries_wrapped :
    (oneLine (2 ^ 32)).GivesRetries [("concurrency_max_retries", .int (2 ^ 32))] [] (2 ^ 32) ∧
      ¬(2 ^ 32 : Int) ≤ 10 ∧ ∃ c, (oneLine (2 ^ 32)).load = .ok c ∧ (c.maxRetries : Int) = 0 := by
  have hgives := oneLine_gives (n := 2 ^ 32) (by decide)
  obtain ⟨c, p, hc, hretries, -⟩ := hgives.loaded (by decide) (by decide)
  exact ⟨hgives, by decide, c, hc, hretries⟩

end ConfigSources

end Brigade
