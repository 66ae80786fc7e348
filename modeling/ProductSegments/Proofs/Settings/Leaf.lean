import ProductSegments.Proofs.Settings.Overlay

/-!
# Single settings

The settings are read section by section, but each of them only counts by what stands at its own place
in the tree.

## Main definitions

* `Settings.Leaf` — the single settings; `Settings.Leaf.path` — where each of them stands.
* `Settings.Leaf.read?` — what a setting is by what stands at its place.
* `Settings.Config.get` — a single one of all settings.
* `Settings.Leaf.Decides` — what is said of a setting leaves nothing to what is below it.

## Main results

* `Settings.Config.ofValue?_overlaySource` — **what is read from a source is read setting by setting**,
  from what the source says of each.
* `Settings.Config.ofLeaves_eq_some_iff` — settings are read if each single one is.
-/

namespace ProductSegments.Settings

/-- The single settings. -/
inductive Leaf where
  | serviceName
  | environment
  | host
  | tcpPort
  | origin
  | baseUrl
  | consumerKey
  | consumerSecret
  | timeout
  | refreshInterval
  | perPage
  | reportedName
  | logLevel
  | logFormat
  | hasMetrics
  | metricsPort
  | traceEndpoint
  | allowedOrigins
  deriving DecidableEq, Repr

namespace Leaf

/-- The keys that lead to a setting. -/
def path : Leaf → List String
  | serviceName => ["service_name"]
  | environment => ["environment"]
  | host => ["server", "host"]
  | tcpPort => ["server", "port"]
  | origin => ["catalog", "source"]
  | baseUrl => ["catalog", "base_url"]
  | consumerKey => ["catalog", "consumer_key"]
  | consumerSecret => ["catalog", "consumer_secret"]
  | timeout => ["catalog", "timeout_seconds"]
  | refreshInterval => ["catalog", "refresh_interval_seconds"]
  | perPage => ["catalog", "per_page"]
  | reportedName => ["observability", "service_name"]
  | logLevel => ["observability", "log_level"]
  | logFormat => ["observability", "log_format"]
  | hasMetrics => ["observability", "metrics_enabled"]
  | metricsPort => ["observability", "metrics_port"]
  | traceEndpoint => ["observability", "otlp_endpoint"]
  | allowedOrigins => ["cors", "allowed_origins"]

/-- What kind of thing a setting is. -/
def Content : Leaf → Type
  | serviceName | environment | host | baseUrl | reportedName | logLevel | logFormat => String
  | consumerKey | consumerSecret | traceEndpoint => Option String
  | tcpPort | metricsPort => UInt16
  | perPage => UInt32
  | refreshInterval => UInt64
  | timeout => Option UInt64
  | hasMetrics => Bool
  | origin => Origin
  | allowedOrigins => List String

/-- The setting that a value stands for. -/
def read : (leaf : Leaf) → Value → Option leaf.Content
  | serviceName | environment | host | baseUrl | reportedName | logLevel | logFormat => Value.text?
  | consumerKey | consumerSecret | traceEndpoint => Value.optional? Value.text?
  | tcpPort | metricsPort => uint16?
  | perPage => uint32?
  | refreshInterval => uint64?
  | timeout => Value.optional? uint64?
  | hasMetrics => Value.flag?
  | origin => Origin.ofValue?
  | allowedOrigins => Value.texts?

end Leaf

/-- A single one of all settings. -/
def Config.get (c : Config) : (leaf : Leaf) → leaf.Content
  | .serviceName => c.serviceName
  | .environment => c.environment
  | .host => c.listener.host
  | .tcpPort => c.listener.tcpPort
  | .origin => c.catalog.origin
  | .baseUrl => c.catalog.baseUrl
  | .consumerKey => c.catalog.consumerKey
  | .consumerSecret => c.catalog.consumerSecret
  | .timeout => c.catalog.timeout
  | .refreshInterval => c.catalog.refreshInterval
  | .perPage => c.catalog.perPage
  | .reportedName => c.observability.serviceName
  | .logLevel => c.observability.logLevel
  | .logFormat => c.observability.logFormat
  | .hasMetrics => c.observability.hasMetrics
  | .metricsPort => c.observability.metricsPort
  | .traceEndpoint => c.observability.traceEndpoint
  | .allowedOrigins => c.allowedOrigins

/-- What a setting is by what stands at its place. -/
def Leaf.read? (leaf : Leaf) (found : Option Value) : Option leaf.Content :=
  member leaf.read (Config.standard.get leaf) found

/-! ### What decides about a setting -/

namespace Leaf

/-- The setting can be read from a value with parts. -/
def hasParts : Leaf → Bool
  | origin | allowedOrigins => true
  | _ => false

theorem read_of_isComposite {leaf : Leaf} (h : leaf.hasParts = false) {value : Value}
    (composite : value.isComposite = true) : leaf.read value = none := by
  cases value with
  | table entries => cases leaf <;> first | rfl | cases h
  | list items => cases leaf <;> first | rfl | cases h
  | _ => cases composite

/-- What is said decides about a setting: it is given as a whole, or cannot be read from parts. -/
def Decides (leaf : Leaf) (said : Source) : Prop :=
  said.Settles ∨ leaf.hasParts = false ∧ said ≠ []

instance (leaf : Leaf) (said : Source) : Decidable (leaf.Decides said) :=
  inferInstanceAs (Decidable (said.Settles ∨ leaf.hasParts = false ∧ said ≠ []))

theorem Decides.ne_nil {leaf : Leaf} {said : Source} (h : leaf.Decides said) : said ≠ [] :=
  h.elim Source.Settles.ne_nil And.right

/-- Nothing below what decides about a setting counts for it. -/
theorem Decides.read?_onto_eq {leaf : Leaf} {said : Source} (h : leaf.Decides said)
    (old old' : Option Value) : leaf.read? (said.onto old) = leaf.read? (said.onto old') := by
  by_cases settles : said.Settles
  · rw [Source.onto_eq_of_settles settles old old']
  · -- parts make the setting unreadable, wherever they are put
    obtain ⟨plain, ne_nil⟩ := h.resolve_left settles
    obtain ⟨value, hvalue, composite⟩ := Source.exists_isComposite_onto ne_nil settles old
    obtain ⟨value', hvalue', composite'⟩ := Source.exists_isComposite_onto ne_nil settles old'
    rw [hvalue, hvalue', read?, read?, member, member, read_of_isComposite plain composite,
      read_of_isComposite plain composite']

end Leaf

/-! ### All settings from single ones -/

section Reading

variable (content : (leaf : Leaf) → Option leaf.Content)

/-- The listener by its settings. -/
def Listener.ofLeaves : Option Listener := do
  return { host := ← content .host, tcpPort := ← content .tcpPort }

/-- The way to the catalog by its settings. -/
def Catalog.ofLeaves : Option Catalog := do
  return {
    origin := ← content .origin
    baseUrl := ← content .baseUrl
    consumerKey := ← content .consumerKey
    consumerSecret := ← content .consumerSecret
    timeout := ← content .timeout
    refreshInterval := ← content .refreshInterval
    perPage := ← content .perPage }

/-- What is told, by its settings. -/
def Observability.ofLeaves : Option Observability := do
  return {
    serviceName := ← content .reportedName
    logLevel := ← content .logLevel
    logFormat := ← content .logFormat
    hasMetrics := ← content .hasMetrics
    metricsPort := ← content .metricsPort
    traceEndpoint := ← content .traceEndpoint }

/-- All settings, if each single one is given. -/
def Config.ofLeaves : Option Config := do
  return {
    serviceName := ← content .serviceName
    environment := ← content .environment
    listener := ← Listener.ofLeaves content
    catalog := ← Catalog.ofLeaves content
    observability := ← Observability.ofLeaves content
    allowedOrigins := ← content .allowedOrigins }

end Reading

/-- Settings are read if each single one is. -/
theorem Config.ofLeaves_eq_some_iff {content : (leaf : Leaf) → Option leaf.Content} {c : Config} :
    Config.ofLeaves content = some c ↔ ∀ leaf, content leaf = some (c.get leaf) := by
  constructor
  · intro h
    simp only [ofLeaves, Listener.ofLeaves, Catalog.ofLeaves, Observability.ofLeaves,
      Option.bind_eq_bind, Option.bind_eq_some_iff, Option.pure_def, Option.some.injEq] at h
    obtain ⟨serviceName, h₁, environment, h₂, listener, ⟨host, h₃, tcpPort, h₄, rfl⟩, catalog,
      ⟨origin, h₅, baseUrl, h₆, consumerKey, h₇, consumerSecret, h₈, timeout, h₉,
        refreshInterval, h₁₀, perPage, h₁₁, rfl⟩, observability,
      ⟨reportedName, h₁₂, logLevel, h₁₃, logFormat, h₁₄, hasMetrics, h₁₅, metricsPort, h₁₆,
        traceEndpoint, h₁₇, rfl⟩, allowedOrigins, h₁₈, rfl⟩ := h
    intro leaf
    cases leaf <;> assumption
  · intro h
    simp only [ofLeaves, Listener.ofLeaves, Catalog.ofLeaves, Observability.ofLeaves, h]
    rfl

/-! ### Sections -/

/-- The keys of the sections. -/
def sections : List String := ["server", "catalog", "observability", "cors"]

/-- The source gives a section nothing but tables. -/
def Source.KeepsSections (source : Source) : Prop :=
  ∀ name ∈ sections, (source.within name).IsTabular

instance (source : Source) : Decidable source.KeepsSections :=
  List.decidableBAll (fun name => (source.within name).IsTabular) sections

/-- Entries in sources that give sections nothing but tables may be put together. -/
theorem Source.keepsSections_iff {source : Source} : source.KeepsSections ↔ ∀ entry ∈ source,
    ∀ name ∈ sections, ∀ inner ∈ entryWithin name entry, isTabular inner = true := by
  simp only [KeepsSections, IsTabular, within, List.mem_flatMap]
  constructor
  · intro h entry mem name hname inner hinner
    exact h name hname inner ⟨entry, mem, hinner⟩
  · rintro h name hname inner ⟨entry, mem, hinner⟩
    exact h entry mem name hname inner hinner

/-- A setting stands by itself or in a section. -/
theorem Leaf.path_eq (leaf : Leaf) :
    (∃ key, leaf.path = [key]) ∨ ∃ name ∈ sections, ∃ key, leaf.path = [name, key] := by
  cases leaf <;> first
    | exact .inl ⟨_, rfl⟩
    | exact .inr ⟨_, by decide, _, rfl⟩

theorem Source.KeepsSections.opens {source : Source} (tabular : source.IsTabular)
    (h : source.KeepsSections) (leaf : Leaf) : source.Opens leaf.path := by
  rcases leaf.path_eq with ⟨key, hpath⟩ | ⟨name, mem, key, hpath⟩
  · rw [hpath]
    exact ⟨tabular, trivial⟩
  · rw [hpath]
    exact ⟨tabular, h name mem, trivial⟩

/-! ### Trees read setting by setting -/

namespace Value

/-- A setting by what stands at its place in a tree. -/
def content (tree : Value) (leaf : Leaf) : Option leaf.Content := leaf.read? (tree.get? leaf.path)

/-- The value is missing or a table. -/
def IsSection (found : Option Value) : Prop := ∀ value ∈ found, value.isTable = true

theorem IsSection.eq_none_or {found : Option Value} (h : IsSection found) :
    found = none ∨ ∃ entries, found = some (table entries) := by
  cases found with
  | none => exact .inl rfl
  | some value =>
    have hvalue := h value rfl
    cases value with
    | table entries => exact .inr ⟨entries, rfl⟩
    | _ => cases hvalue

variable {tree : Value}

/-! A section that is missing is read like an empty one. -/

theorem member_listener (h : IsSection (lookup "server" tree.entries)) :
    member Listener.ofValue? Listener.standard (lookup "server" tree.entries) =
      Listener.ofLeaves tree.content := by
  simp only [Listener.ofLeaves, content, Leaf.path, get?_pair]
  rcases h.eq_none_or with missing | ⟨entries, present⟩
  · rw [missing]
    rfl
  · rw [present]
    rfl

theorem member_catalog (h : IsSection (lookup "catalog" tree.entries)) :
    member Catalog.ofValue? Catalog.standard (lookup "catalog" tree.entries) =
      Catalog.ofLeaves tree.content := by
  simp only [Catalog.ofLeaves, content, Leaf.path, get?_pair]
  rcases h.eq_none_or with missing | ⟨entries, present⟩
  · rw [missing]
    rfl
  · rw [present]
    rfl

theorem member_observability (h : IsSection (lookup "observability" tree.entries)) :
    member Observability.ofValue? Observability.standard (lookup "observability" tree.entries) =
      Observability.ofLeaves tree.content := by
  simp only [Observability.ofLeaves, content, Leaf.path, get?_pair]
  rcases h.eq_none_or with missing | ⟨entries, present⟩
  · rw [missing]
    rfl
  · rw [present]
    rfl

theorem member_allowedOrigins (h : IsSection (lookup "cors" tree.entries)) :
    member allowedOrigins? Config.standard.allowedOrigins (lookup "cors" tree.entries) =
      tree.content .allowedOrigins := by
  simp only [content, Leaf.path, get?_pair]
  rcases h.eq_none_or with missing | ⟨entries, present⟩
  · rw [missing]
    rfl
  · rw [present]
    rfl

end Value

/-- **A tree whose sections are tables is read setting by setting.** -/
theorem Config.ofValue?_eq_ofLeaves {tree : Value} (isTable : tree.isTable = true)
    (h : ∀ name ∈ sections, Value.IsSection (Value.lookup name tree.entries)) :
    Config.ofValue? tree = Config.ofLeaves tree.content := by
  have listener := Value.member_listener (h "server" (by decide))
  have catalog := Value.member_catalog (h "catalog" (by decide))
  have observability := Value.member_observability (h "observability" (by decide))
  have allowedOrigins := Value.member_allowedOrigins (h "cors" (by decide))
  have own (leaf : Leaf) (key : String) (hpath : leaf.path = [key]) :
      member leaf.read (Config.standard.get leaf) (Value.lookup key tree.entries) =
        tree.content leaf := by
    rw [Value.content, hpath, Value.get?_singleton]
    rfl
  cases tree with
  | table entries =>
    rw [Config.ofLeaves, ← listener, ← catalog, ← observability, ← allowedOrigins,
      ← own .serviceName _ rfl, ← own .environment _ rfl]
    rfl
  | _ => cases isTable

/-- What a source that is laid over nothing comes to at a setting. -/
theorem Source.get?_overlaySource_empty {source : Source} (tabular : source.IsTabular)
    (h : source.KeepsSections) (leaf : Leaf) :
    ((Value.table []).overlaySource source).get? leaf.path = onto (source.about leaf.path) none := by
  rw [get?_overlaySource (h.opens tabular leaf)]
  -- nothing stands behind any key of an empty table
  rcases leaf.path_eq with ⟨key, hpath⟩ | ⟨name, -, key, hpath⟩
  · rw [hpath]
    rfl
  · rw [hpath]
    rfl

/-- **What is read from a source is read setting by setting**, from what the source says of each. -/
theorem Config.ofValue?_overlaySource {source : Source} (tabular : source.IsTabular)
    (h : source.KeepsSections) :
    Config.ofValue? ((Value.table []).overlaySource source) =
      Config.ofLeaves fun leaf => leaf.read? (Source.onto (source.about leaf.path) none) := by
  have isTable : ((Value.table []).overlaySource source).isTable = true :=
    tabular.isTable_onto (some (.table [])) (fun _ h => Option.mem_some.mp h ▸ rfl) _
      (Source.onto_some source _)
  have isSection : ∀ name ∈ sections, Value.IsSection
      (Value.lookup name ((Value.table []).overlaySource source).entries) := by
    intro name hname
    rw [tabular.lookup_overlaySource]
    exact (h name hname).isTable_onto none nofun
  rw [ofValue?_eq_ofLeaves isTable isSection]
  congr 1
  funext leaf
  rw [Value.content, Source.get?_overlaySource_empty tabular h]

end ProductSegments.Settings
