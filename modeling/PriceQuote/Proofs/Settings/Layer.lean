import Mathlib.Tactic.Common
import PriceQuote.Proofs.Fallible
import PriceQuote.Proofs.Text.Blank
import PriceQuote.Proofs.Text.Numeral
import PriceQuote.Settings.Load

/-!
# Layers of settings

A layer has values for some of the settings, each of its own type and on its own:

* `Key.Value`, `Layer`: the values of one setting, and a choice of values;
* `value?_apply`, `Overrides.value?_apply`, `ext_value?`: putting a layer over settings does so
  setting by setting, and settings are nothing else than their values;
* `Host.Says`, `Key.GivenBy`: what variables say, and which of them counts for a setting;
* `Key.Reads`: what a text says of a setting;
* `Key.Holds`, `ofEnvironment_eq_ok_iff`, `ofEnvironment_eq_error_iff`: the layer that the
  environment is, and where it is none.
-/

namespace PriceQuote

/-- A variable says something: its value is not white space throughout. -/
def Host.Says (host : Host) (name text : String) : Prop :=
  host.environment name = some text ∧ ∃ c ∈ text.toList, c.toNat ∉ Text.whiteSpace

namespace Settings

/-! ## Values -/

/-- What a setting may be set to. -/
abbrev Key.Value : Key → Type
  | .bindAddress | .catalogPath | .rulesPath | .logLevel => String
  | .port => UInt16
  | .shutdownSeconds | .maxConfigurations => UInt64
  | .logFormat => LogFormat

/-- Values for some of the settings. -/
abbrev Layer : Type := (key : Key) → Option key.Value

def Patch.value? (patch : Patch) : Layer
  | .bindAddress => patch.bindAddress
  | .port => patch.port
  | .shutdownSeconds => patch.shutdownSeconds
  | .maxConfigurations => patch.maxConfigurations
  | .catalogPath => patch.catalogPath
  | .rulesPath => patch.rulesPath
  | .logLevel => patch.logLevel
  | .logFormat => patch.logFormat

/-- The values that a program asks for. There are none for two of the settings. -/
def Overrides.value? (overrides : Overrides) : Layer
  | .bindAddress => overrides.bindAddress
  | .port => overrides.port
  | .shutdownSeconds | .maxConfigurations => none
  | .catalogPath => overrides.catalogPath
  | .rulesPath => overrides.rulesPath
  | .logLevel => overrides.logLevel
  | .logFormat => overrides.logFormat

def defaults : Layer
  | .bindAddress => some "127.0.0.1"
  | .port => some 8080
  | .shutdownSeconds => some 15
  | .maxConfigurations => some 100
  | .catalogPath | .rulesPath => none
  | .logLevel => some "info"
  | .logFormat => some .compact

/-- The values of settings. Only paths may be unset. -/
def value? (settings : Settings) : Layer
  | .bindAddress => some settings.bindAddress
  | .port => some settings.port
  | .shutdownSeconds => some settings.shutdownSeconds
  | .maxConfigurations => some settings.maxConfigurations
  | .catalogPath => settings.catalogPath
  | .rulesPath => settings.rulesPath
  | .logLevel => some settings.logLevel
  | .logFormat => some settings.logFormat

/-- A patch is put over settings one setting at a time. -/
theorem value?_apply (patch : Patch) (settings : Settings) (key : Key) :
    (patch.apply settings).value? key = (patch.value? key <|> settings.value? key) := by
  obtain ⟨address, port, shutdown, most, catalog, rules, level, format⟩ := patch
  cases key with
  | bindAddress => cases address <;> rfl
  | port => cases port <;> rfl
  | shutdownSeconds => cases shutdown <;> rfl
  | maxConfigurations => cases most <;> rfl
  | catalogPath => rfl
  | rulesPath => rfl
  | logLevel => cases level <;> rfl
  | logFormat => cases format <;> rfl

theorem Overrides.value?_apply (overrides : Overrides) (settings : Settings) (key : Key) :
    (overrides.apply settings).value? key = (overrides.value? key <|> settings.value? key) := by
  obtain ⟨address, port, level, format, catalog, rules⟩ := overrides
  cases key with
  | bindAddress => cases address <;> rfl
  | port => cases port <;> rfl
  | shutdownSeconds => rfl
  | maxConfigurations => rfl
  | catalogPath => rfl
  | rulesPath => rfl
  | logLevel => cases level <;> rfl
  | logFormat => cases format <;> rfl

theorem value?_default (key : Key) : default.value? key = defaults key := by
  cases key <;> rfl

theorem ext_value? {settings settings' : Settings}
    (h : ∀ key, settings.value? key = settings'.value? key) : settings = settings' := by
  obtain ⟨address, port, shutdown, most, catalog, rules, level, format⟩ := settings
  obtain rfl := Option.some.inj (h .bindAddress)
  obtain rfl := Option.some.inj (h .port)
  obtain rfl := Option.some.inj (h .shutdownSeconds)
  obtain rfl := Option.some.inj (h .maxConfigurations)
  obtain rfl : catalog = _ := h .catalogPath
  obtain rfl : rules = _ := h .rulesPath
  obtain rfl := Option.some.inj (h .logLevel)
  obtain rfl := Option.some.inj (h .logFormat)
  rfl

theorem Patch.ext_value? {patch patch' : Patch} (h : ∀ key, patch.value? key = patch'.value? key) :
    patch = patch' := by
  obtain ⟨address, port, shutdown, most, catalog, rules, level, format⟩ := patch
  obtain rfl : address = _ := h .bindAddress
  obtain rfl : port = _ := h .port
  obtain rfl : shutdown = _ := h .shutdownSeconds
  obtain rfl : most = _ := h .maxConfigurations
  obtain rfl : catalog = _ := h .catalogPath
  obtain rfl : rules = _ := h .rulesPath
  obtain rfl : level = _ := h .logLevel
  obtain rfl : format = _ := h .logFormat
  rfl

/-! ## Variables -/

namespace Key

/-- The variable that counts for a setting, and what it says. Of the two for each setting of the log,
the shorter one counts only while the other says nothing. -/
inductive GivenBy (host : Host) : Key → String → String → Prop
  | bindAddress {text : String} (h : host.Says "PRICEBOOK_SERVER_BIND_ADDRESS" text) :
    GivenBy host .bindAddress "PRICEBOOK_SERVER_BIND_ADDRESS" text
  | port {text : String} (h : host.Says "PRICEBOOK_SERVER_PORT" text) :
    GivenBy host .port "PRICEBOOK_SERVER_PORT" text
  | shutdownSeconds {text : String}
    (h : host.Says "PRICEBOOK_SERVER_GRACEFUL_SHUTDOWN_SECS" text) :
    GivenBy host .shutdownSeconds "PRICEBOOK_SERVER_GRACEFUL_SHUTDOWN_SECS" text
  | maxConfigurations {text : String} (h : host.Says "PRICEBOOK_SERVER_MAX_CONFIGURATIONS" text) :
    GivenBy host .maxConfigurations "PRICEBOOK_SERVER_MAX_CONFIGURATIONS" text
  | catalogPath {text : String} (h : host.Says "PRICEBOOK_PRICING_CATALOG_PATH" text) :
    GivenBy host .catalogPath "PRICEBOOK_PRICING_CATALOG_PATH" text
  | rulesPath {text : String} (h : host.Says "PRICEBOOK_PRICING_RULES_PATH" text) :
    GivenBy host .rulesPath "PRICEBOOK_PRICING_RULES_PATH" text
  | loggingLevel {text : String} (h : host.Says "PRICEBOOK_LOGGING_LEVEL" text) :
    GivenBy host .logLevel "PRICEBOOK_LOGGING_LEVEL" text
  | logLevel {text : String} (hnot : ∀ text, ¬ host.Says "PRICEBOOK_LOGGING_LEVEL" text)
    (h : host.Says "PRICEBOOK_LOG_LEVEL" text) :
    GivenBy host .logLevel "PRICEBOOK_LOG_LEVEL" text
  | loggingFormat {text : String} (h : host.Says "PRICEBOOK_LOGGING_FORMAT" text) :
    GivenBy host .logFormat "PRICEBOOK_LOGGING_FORMAT" text
  | logFormat {text : String} (hnot : ∀ text, ¬ host.Says "PRICEBOOK_LOGGING_FORMAT" text)
    (h : host.Says "PRICEBOOK_LOG_FORMAT" text) :
    GivenBy host .logFormat "PRICEBOOK_LOG_FORMAT" text

/-- No variable says anything of a setting. -/
def NotGiven (host : Host) (key : Key) : Prop :=
  ∀ name text, ¬ key.GivenBy host name text

variable {host : Host} {key : Key}

theorem nonBlank?_eq_some_iff {name text : String} :
    nonBlank? host name = some text ↔ host.Says name text := by
  simp [nonBlank?, Host.Says, Option.filter_eq_some_iff, Text.allBlank_eq_false_iff]

theorem nonBlank?_eq_none_iff {name : String} :
    nonBlank? host name = none ↔ ∀ text, ¬ host.Says name text := by
  simp only [Option.eq_none_iff_forall_ne_some, ne_eq, nonBlank?_eq_some_iff]

theorem given?_of_one {only name text : String} (h : key.variableNames = [only]) :
    key.given? host = some (name, text) ↔ only = name ∧ host.Says only text := by
  rw [given?, h, ← nonBlank?_eq_some_iff]
  cases honly : nonBlank? host only <;> simp [honly]

theorem given?_of_two {first second name text : String} (h : key.variableNames = [first, second]) :
    key.given? host = some (name, text) ↔ (first = name ∧ host.Says first text) ∨
      ((∀ text, ¬ host.Says first text) ∧ second = name ∧ host.Says second text) := by
  rw [given?, h, ← nonBlank?_eq_none_iff, ← nonBlank?_eq_some_iff, ← nonBlank?_eq_some_iff]
  cases hfirst : nonBlank? host first <;> cases hsecond : nonBlank? host second <;>
    simp [hfirst, hsecond]

/-- The variable that counts is the one that is looked up. -/
theorem given?_eq_some_iff {name text : String} :
    key.given? host = some (name, text) ↔ key.GivenBy host name text := by
  constructor
  · intro h
    cases key with
    | bindAddress =>
      obtain ⟨rfl, hsays⟩ := (given?_of_one rfl).mp h
      exact .bindAddress hsays
    | port =>
      obtain ⟨rfl, hsays⟩ := (given?_of_one rfl).mp h
      exact .port hsays
    | shutdownSeconds =>
      obtain ⟨rfl, hsays⟩ := (given?_of_one rfl).mp h
      exact .shutdownSeconds hsays
    | maxConfigurations =>
      obtain ⟨rfl, hsays⟩ := (given?_of_one rfl).mp h
      exact .maxConfigurations hsays
    | catalogPath =>
      obtain ⟨rfl, hsays⟩ := (given?_of_one rfl).mp h
      exact .catalogPath hsays
    | rulesPath =>
      obtain ⟨rfl, hsays⟩ := (given?_of_one rfl).mp h
      exact .rulesPath hsays
    | logLevel =>
      obtain ⟨rfl, hsays⟩ | ⟨hnot, rfl, hsays⟩ := (given?_of_two rfl).mp h
      · exact .loggingLevel hsays
      · exact .logLevel hnot hsays
    | logFormat =>
      obtain ⟨rfl, hsays⟩ | ⟨hnot, rfl, hsays⟩ := (given?_of_two rfl).mp h
      · exact .loggingFormat hsays
      · exact .logFormat hnot hsays
  · intro h
    cases h with
    | loggingLevel h => exact (given?_of_two rfl).mpr (.inl ⟨rfl, h⟩)
    | logLevel hnot h => exact (given?_of_two rfl).mpr (.inr ⟨hnot, rfl, h⟩)
    | loggingFormat h => exact (given?_of_two rfl).mpr (.inl ⟨rfl, h⟩)
    | logFormat hnot h => exact (given?_of_two rfl).mpr (.inr ⟨hnot, rfl, h⟩)
    | _ h => exact (given?_of_one rfl).mpr ⟨rfl, h⟩

theorem given?_eq_none_iff : key.given? host = none ↔ key.NotGiven host := by
  simp only [Option.eq_none_iff_forall_ne_some, Prod.forall, ne_eq, given?_eq_some_iff, NotGiven]

/-- Either a variable counts for a setting or none says anything of it. -/
theorem givenBy_or_notGiven (host : Host) (key : Key) :
    (∃ name text, key.GivenBy host name text) ∨ key.NotGiven host := by
  by_cases h : ∃ name text, key.GivenBy host name text
  · exact .inl h
  · exact .inr fun name text hgiven => h ⟨name, text, hgiven⟩

theorem GivenBy.unique {name name' text text' : String} (h : key.GivenBy host name text)
    (h' : key.GivenBy host name' text') : name = name' ∧ text = text' :=
  Prod.mk.inj (Option.some.inj
    ((given?_eq_some_iff.mpr h).symm.trans (given?_eq_some_iff.mpr h')))

/-! ## What variables say -/

/-- What a text says of a setting: addresses, paths and levels are the text itself, numbers are named
by it and log formats are called by their words. -/
def Reads : (key : Key) → String → key.Value → Prop
  | .bindAddress, text, value | .catalogPath, text, value | .rulesPath, text, value
  | .logLevel, text, value => value = text
  | .port, text, value => Text.Names text value.toNat
  | .shutdownSeconds, text, value | .maxConfigurations, text, value =>
    Text.Names text value.toNat
  | .logFormat, text, .compact => Text.Bears text "compact"
  | .logFormat, text, .pretty => Text.Bears text "pretty"
  | .logFormat, text, .json => Text.Bears text "json"

/-- A number that is not too great for a type is the value that is made of it. -/
theorem names_toNat_iff {α : Type} {greatest : Nat} {ofNat : Nat → α} {toNat : α → Nat}
    (hto : ∀ n ≤ greatest, toNat (ofNat n) = n) (hof : ∀ x, ofNat (toNat x) = x)
    (hle : ∀ x, toNat x ≤ greatest) {text : String} {value : α} :
    (Text.unsigned? greatest text).map ofNat = some value ↔ Text.Names text (toNat value) := by
  rw [Option.map_eq_some_iff]
  simp only [Text.unsigned?_eq_some_iff]
  constructor
  · rintro ⟨n, ⟨hnames, hn⟩, rfl⟩
    rw [hto n hn]
    exact hnames
  · exact fun hnames => ⟨toNat value, ⟨hnames, hle value⟩, hof value⟩

theorem names_uint16_iff {text : String} {value : UInt16} :
    (Text.unsigned? (UInt16.size - 1) text).map UInt16.ofNat = some value ↔
      Text.Names text value.toNat :=
  names_toNat_iff (fun _ hn => UInt16.toNat_ofNat_of_lt' (Nat.lt_of_le_pred (by decide) hn))
    (fun _ => UInt16.ofNat_toNat) fun x => Nat.le_pred_of_lt x.toNat_lt_size

theorem names_uint64_iff {text : String} {value : UInt64} :
    (Text.unsigned? (UInt64.size - 1) text).map UInt64.ofNat = some value ↔
      Text.Names text value.toNat :=
  names_toNat_iff (fun _ hn => UInt64.toNat_ofNat_of_lt' (Nat.lt_of_le_pred (by decide) hn))
    (fun _ => UInt64.ofNat_toNat) fun x => Nat.le_pred_of_lt x.toNat_lt_size

theorem ofLabel?_eq_some_iff {text : String} {format : LogFormat} :
    LogFormat.ofLabel? text = some format ↔ text = format.label := by
  constructor
  · intro h
    have hlabel := List.find?_some h
    exact (beq_iff_eq.mp hlabel).symm
  · rintro rfl
    cases format <;> decide +kernel

theorem ofText?_logFormat_iff {text : String} {format : LogFormat} :
    LogFormat.ofText? text = some format ↔ logFormat.Reads text format := by
  rw [LogFormat.ofText?, ofLabel?_eq_some_iff, LogFormat.normalize, Text.lowerAscii_trim_eq_iff]
  · cases format <;> rfl
  · cases format <;> decide +kernel

/-! ## The environment -/

/-- What the environment holds for a setting: what the variable that counts says of it, if there is
such a variable. -/
inductive Holds (host : Host) (key : Key) : Option key.Value → Prop
  | nothing (h : key.NotGiven host) : Holds host key none
  | value {name text : String} {value : key.Value} (hgiven : key.GivenBy host name text)
    (hvalue : key.Reads text value) : Holds host key (some value)

theorem holds_of_given?_eq_none (h : key.given? host = none) {value : Option key.Value} :
    key.Holds host value ↔ value = none := by
  have hnot := given?_eq_none_iff.mp h
  constructor
  · rintro (_ | ⟨hgiven, -⟩)
    · rfl
    · exact absurd hgiven (hnot _ _)
  · rintro rfl
    exact .nothing hnot

theorem holds_of_given?_eq_some {name text : String} (h : key.given? host = some (name, text))
    {value : Option key.Value} :
    key.Holds host value ↔ ∃ x, key.Reads text x ∧ value = some x := by
  have hgiven := given?_eq_some_iff.mp h
  constructor
  · rintro (hnone | ⟨hgiven', hvalue⟩)
    · exact absurd hgiven (hnone _ _)
    · obtain ⟨rfl, rfl⟩ := hgiven.unique hgiven'
      exact ⟨_, hvalue, rfl⟩
  · rintro ⟨x, hx, rfl⟩
    exact .value hgiven hx

/-- The environment holds nothing only where the variable that counts says nothing of use. -/
theorem not_holds_iff : (¬ ∃ value, key.Holds host value) ↔
    ∃ name text, key.GivenBy host name text ∧ ∀ value, ¬ key.Reads text value := by
  obtain ⟨name, text, hgiven⟩ | hnot := givenBy_or_notGiven host key
  · simp only [holds_of_given?_eq_some (given?_eq_some_iff.mpr hgiven)]
    constructor
    · exact fun hnone => ⟨name, text, hgiven, fun x hx => hnone ⟨some x, x, hx, rfl⟩⟩
    · rintro ⟨name', text', hgiven', hnone⟩ ⟨value, x, hx, -⟩
      obtain ⟨rfl, rfl⟩ := hgiven.unique hgiven'
      exact hnone x hx
  · refine iff_of_false (not_not_intro ⟨none, .nothing hnot⟩) ?_
    rintro ⟨name, text, hgiven, -⟩
    exact hnot name text hgiven

theorem holds_text_iff {f : String → key.Value}
    (hread : ∀ text value, key.Reads text value ↔ value = f text) {value : Option key.Value} :
    (key.text? host).map f = value ↔ key.Holds host value := by
  unfold text?
  cases h : key.given? host with
  | none => rw [holds_of_given?_eq_none h, eq_comm]; rfl
  | some entry => simp [holds_of_given?_eq_some h, hread, eq_comm]

theorem holds_number_iff {greatest : Nat} {f : Nat → key.Value}
    (hread : ∀ text value, (Text.unsigned? greatest text).map f = some value ↔ key.Reads text value)
    {value : Option key.Value} :
    (∃ n, numberOf? host greatest key = .ok n ∧ n.map f = value) ↔ key.Holds host value := by
  unfold numberOf?
  cases h : key.given? host with
  | none => simp [holds_of_given?_eq_none h, eq_comm]
  | some entry =>
    simp only [holds_of_given?_eq_some h, ← hread]
    cases Text.unsigned? greatest entry.2 <;> simp [eq_comm]

theorem holds_format_iff {value : Option LogFormat} :
    formatOf? host = .ok value ↔ logFormat.Holds host value := by
  unfold formatOf? text?
  cases h : logFormat.given? host with
  | none => rw [holds_of_given?_eq_none h]; simp [eq_comm]
  | some entry =>
    rw [holds_of_given?_eq_some h, Option.map_some]
    simp only [← ofText?_logFormat_iff]
    cases LogFormat.ofText? entry.2 <;> simp [eq_comm]

end Key

theorem Key.forall_iff {p : Key → Prop} : (∀ key, p key) ↔
    p .bindAddress ∧ p .port ∧ p .shutdownSeconds ∧ p .maxConfigurations ∧ p .catalogPath ∧
      p .rulesPath ∧ p .logLevel ∧ p .logFormat := by
  constructor
  · intro h
    exact ⟨h _, h _, h _, h _, h _, h _, h _, h _⟩
  · rintro ⟨h₁, h₂, h₃, h₄, h₅, h₆, h₇, h₈⟩ key
    cases key <;> assumption

theorem Patch.exists_value? (layer : Layer) :
    ∃ patch : Patch, ∀ key, patch.value? key = layer key :=
  ⟨⟨layer .bindAddress, layer .port, layer .shutdownSeconds, layer .maxConfigurations,
    layer .catalogPath, layer .rulesPath, layer .logLevel, layer .logFormat⟩, fun key => by
      cases key <;> rfl⟩

section

variable {host : Host}

/-- The layer of the environment has, for every setting, what the environment holds for it. -/
theorem ofEnvironment_eq_ok_iff {patch : Patch} :
    ofEnvironment host = .ok patch ↔ ∀ key : Key, key.Holds host (patch.value? key) := by
  have htext : ∀ (key : Key) (f : String → key.Value),
      (∀ text value, key.Reads text value ↔ value = f text) →
      ((key.text? host).map f = patch.value? key ↔ key.Holds host (patch.value? key)) :=
    fun key f hread => Key.holds_text_iff hread
  have hnumber : ∀ (key : Key) (greatest : Nat) (f : Nat → key.Value),
      (∀ text value, (Text.unsigned? greatest text).map f = some value ↔ key.Reads text value) →
      ((∃ n, numberOf? host greatest key = .ok n ∧ n.map f = patch.value? key) ↔
        key.Holds host (patch.value? key)) :=
    fun key greatest f hread => Key.holds_number_iff hread
  rw [Key.forall_iff, ← htext .bindAddress id fun _ _ => Iff.rfl,
    ← hnumber .port _ UInt16.ofNat fun _ _ => Key.names_uint16_iff,
    ← hnumber .shutdownSeconds _ UInt64.ofNat fun _ _ => Key.names_uint64_iff,
    ← hnumber .maxConfigurations _ UInt64.ofNat fun _ _ => Key.names_uint64_iff,
    ← htext .catalogPath id fun _ _ => Iff.rfl, ← htext .rulesPath id fun _ _ => Iff.rfl,
    ← htext .logLevel id fun _ _ => Iff.rfl, ← Key.holds_format_iff]
  obtain ⟨address, port, shutdown, most, catalog, rules, level, format⟩ := patch
  simp only [ofEnvironment, bind_ok_iff, Option.map_id_fun, id_eq, Patch.value?]
  constructor
  · rintro ⟨port, hport, shutdown, hshutdown, most, hmost, format, hformat, h⟩
    cases h
    exact ⟨rfl, ⟨port, hport, rfl⟩, ⟨shutdown, hshutdown, rfl⟩, ⟨most, hmost, rfl⟩, rfl, rfl, rfl,
      hformat⟩
  · rintro ⟨rfl, ⟨port, hport, rfl⟩, ⟨shutdown, hshutdown, rfl⟩, ⟨most, hmost, rfl⟩, rfl, rfl, rfl,
      hformat⟩
    exact ⟨port, hport, shutdown, hshutdown, most, hmost, format, hformat, rfl⟩

/-- There is no such layer where a variable that counts says nothing of use. -/
theorem ofEnvironment_eq_error_iff : (∃ error, ofEnvironment host = .error error) ↔
    ∃ (key : Key) (name text : String), key.GivenBy host name text ∧
      ∀ value, ¬ key.Reads text value := by
  simp only [← Key.not_holds_iff, ← not_forall]
  rw [exists_error_iff, not_iff_not]
  constructor
  · rintro ⟨patch, h⟩ key
    exact ⟨patch.value? key, ofEnvironment_eq_ok_iff.mp h key⟩
  · intro h
    choose layer hlayer using h
    obtain ⟨patch, hpatch⟩ := Patch.exists_value? layer
    exact ⟨patch, ofEnvironment_eq_ok_iff.mpr fun key => (hpatch key).symm ▸ hlayer key⟩

end

end Settings

end PriceQuote
