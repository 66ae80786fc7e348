import ProductSegments.Proofs.Settings.Guessing
import ProductSegments.Proofs.Settings.Precedence

/-!
# Texts that variables give

A variable is guessed at before it is known which setting it is for.  So a setting that is a text does
not get the text of its variable, but what comes of it (`Settings.Value.delivered`).  Beyond that the
variable has no say: whatever its text is, the settings can be read or not, and all others are the
same.

## Main definitions

* `Settings.TextSetting` — the settings that are texts, with how they are got from all settings and
  put into them.
* `Settings.Path.LeadsAway` — a path that does not touch a part of a tree.
* `Settings.Value.AgreeOff` — trees that differ in one part.

## Main results

* `Settings.TextSetting.ofValue?_eq_map_put` — trees that differ in a text are read as settings that
  differ in this text.
* `Settings.TextSetting.load_delivers` — **a variable for a text changes nothing but this text**, and
  the text arrives as it is just if it is steady.
-/

namespace ProductSegments.Settings

/-! ### Paths that lead away -/

/-- At a table on the way to the part behind some keys, the path goes another way. -/
def Path.LeadsAway : List String → Path → Prop
  | name :: names, .key k :: path => k = name → LeadsAway names path
  | _, _ => False

instance Path.decidableLeadsAway : (names : List String) → (path : Path) →
    Decidable (path.LeadsAway names)
  | name :: names, .key k :: path =>
    have := decidableLeadsAway names path
    inferInstanceAs (Decidable (k = name → LeadsAway names path))
  | [], _ | _ :: _, [] | _ :: _, .place _ :: _ => inferInstanceAs (Decidable False)

/-- A source whose paths lead away from a part says nothing of it, and leaves tables on the way. -/
theorem Source.silent_of_leadsAway {names : List String} {source : Source}
    (h : ∀ entry ∈ source, entry.1.LeadsAway names) :
    source.Opens names ∧ source.about names = [] := by
  induction names generalizing source with
  | nil =>
    cases source with
    | nil => exact ⟨trivial, rfl⟩
    | cons entry source => exact absurd (h entry List.mem_cons_self) (by simp [Path.LeadsAway])
  | cons name names ih =>
    have tabular : source.IsTabular := by
      intro entry mem
      have away := h entry mem
      obtain ⟨path, value⟩ := entry
      rcases path with _ | ⟨_ | _, path⟩
      · exact away.elim
      · rfl
      · exact away.elim
    have inner : ∀ entry ∈ source.within name, entry.1.LeadsAway names := by
      intro inner mem
      obtain ⟨entry, mem, hinner⟩ := List.mem_flatMap.mp mem
      have away := h entry mem
      obtain ⟨path, value⟩ := entry
      rcases path with _ | ⟨k | _, path⟩
      · exact away.elim
      · rw [entryWithin] at hinner
        split at hinner
        · next same =>
          rw [List.mem_singleton.mp hinner]
          exact away same
        · cases hinner
      · exact away.elim
    obtain ⟨opens, silent⟩ := ih inner
    exact ⟨⟨tabular, opens⟩, silent⟩

/-! ### Trees that differ in one part -/

namespace Value

/-- The trees are tables along some keys, and have the same entries but for those that the keys lead
to. -/
inductive AgreeOff : List String → Value → Value → Prop where
  | here (value value' : Value) : AgreeOff [] value value'
  | there {name : String} {names : List String} {entries entries' : List (String × Value)}
    {inner inner' : Value} (others : ∀ k ≠ name, lookup k entries = lookup k entries')
    (found : lookup name entries = some inner) (found' : lookup name entries' = some inner')
    (agree : AgreeOff names inner inner') :
    AgreeOff (name :: names) (table entries) (table entries')

/-- Two values that are laid at a place make the trees differ there. -/
theorem agreeOff_overlayAt (value value' : Value) (names : List String) (tree : Value) :
    AgreeOff names (overlayAt value (names.map .key) tree)
      (overlayAt value' (names.map .key) tree) := by
  induction names generalizing tree with
  | nil => exact .here _ _
  | cons name names ih =>
    refine .there (fun k other => ?_) ?_ ?_ (ih ((lookup name tree.entries).getD nothing))
    · rw [lookup_put, lookup_put, if_neg other.symm, if_neg other.symm]
    · rw [lookup_put, if_pos rfl]
    · rw [lookup_put, if_pos rfl]

/-- What is laid at a place and is no table is found there. -/
theorem get?_overlayAt {value : Value} (noTable : value.isTable = false) (names : List String)
    (tree : Value) : (overlayAt value (names.map .key) tree).get? names = some value := by
  induction names generalizing tree with
  | nil => exact congrArg some (overlay_of_not_isTable noTable tree)
  | cons name names ih =>
    rw [List.map_cons, overlayAt, get?_cons, entries, lookup_put, if_pos rfl, Option.bind_some]
    exact ih _

theorem eq_table_of_isTable {tree : Value} (h : tree.isTable = true) :
    tree = table tree.entries := by
  cases tree with
  | table entries => rfl
  | _ => cases h

theorem isTable_overlaySource {source : Source} (h : source.IsTabular)
    (entries : List (String × Value)) : ((table entries).overlaySource source).isTable = true :=
  h.isTable_onto (some (table entries)) (fun _ h => Option.mem_some.mp h ▸ rfl) _
    (Source.onto_some source _)

/-- Trees that differ in one part still do when a source is laid over them that leaves tables on the
way to it. -/
theorem AgreeOff.overlaySource {names : List String} {tree tree' : Value}
    (h : AgreeOff names tree tree') {source : Source} (opens : source.Opens names) :
    AgreeOff names (tree.overlaySource source) (tree'.overlaySource source) := by
  induction h generalizing source with
  | here => exact .here _ _
  | @there name names entries entries' inner inner' others found found' _ ih =>
    obtain ⟨tabular, within⟩ := opens
    have after (k : String) (entries : List (String × Value)) :
        lookup k ((table entries).overlaySource source).entries =
          (source.within k).onto (lookup k entries) :=
      tabular.lookup_overlaySource k (table entries)
    rw [eq_table_of_isTable (isTable_overlaySource tabular entries),
      eq_table_of_isTable (isTable_overlaySource tabular entries')]
    refine .there (fun k other => ?_) ?_ ?_ (ih within)
    · rw [after, after, others k other]
    · rw [after, found, Source.onto_some]
    · rw [after, found', Source.onto_some]

end Value

/-! ### Settings that are texts -/

/-- The settings that are texts. -/
inductive TextSetting where
  | serviceName
  | environment
  | host
  | baseUrl
  | consumerKey
  | consumerSecret
  | reportedName
  | logLevel
  | logFormat
  | traceEndpoint
  deriving DecidableEq, Repr

namespace TextSetting

/-- The text as a single setting. -/
def leaf : TextSetting → Leaf
  | serviceName => .serviceName
  | environment => .environment
  | host => .host
  | baseUrl => .baseUrl
  | consumerKey => .consumerKey
  | consumerSecret => .consumerSecret
  | reportedName => .reportedName
  | logLevel => .logLevel
  | logFormat => .logFormat
  | traceEndpoint => .traceEndpoint

/-- The text among all settings, if there is one. -/
def get : TextSetting → Config → Option String
  | serviceName, c => some c.serviceName
  | environment, c => some c.environment
  | host, c => some c.listener.host
  | baseUrl, c => some c.catalog.baseUrl
  | consumerKey, c => c.catalog.consumerKey
  | consumerSecret, c => c.catalog.consumerSecret
  | reportedName, c => some c.observability.serviceName
  | logLevel, c => some c.observability.logLevel
  | logFormat, c => some c.observability.logFormat
  | traceEndpoint, c => c.observability.traceEndpoint

/-- All settings with another text. -/
def put (t : String) : TextSetting → Config → Config
  | serviceName, c => { c with serviceName := t }
  | environment, c => { c with environment := t }
  | host, c => { c with listener := { c.listener with host := t } }
  | baseUrl, c => { c with catalog := { c.catalog with baseUrl := t } }
  | consumerKey, c => { c with catalog := { c.catalog with consumerKey := some t } }
  | consumerSecret, c => { c with catalog := { c.catalog with consumerSecret := some t } }
  | reportedName, c => { c with observability := { c.observability with serviceName := t } }
  | logLevel, c => { c with observability := { c.observability with logLevel := t } }
  | logFormat, c => { c with observability := { c.observability with logFormat := t } }
  | traceEndpoint, c => { c with observability := { c.observability with traceEndpoint := some t } }

@[simp]
theorem get_put (s : TextSetting) (t : String) (c : Config) : s.get (s.put t c) = some t := by
  cases s <;> rfl

/-- The port that is asked for is no text. -/
theorem put_withPort (s : TextSetting) (t : String) (port? : Option UInt16) (c : Config) :
    s.put t (c.withPort port?) = (s.put t c).withPort port? := by
  cases port? with
  | none => rfl
  | some port => cases s <;> rfl

/-! ### Reading -/

theorem optional?_text? {value : Value} {t : String} (h : value.text? = some t) :
    value.optional? Value.text? = some (some t) := by
  cases value with
  | nothing => cases h
  | _ => exact congrArg (Option.map some) h

section Sections

open ProductSegments.Settings.Value (lookup table)

variable {entries entries' : List (String × Value)} {value value' : Value}

/-! A section that is read as another one with something put in. -/

theorem ofValue?_of_listener (others : ∀ k ≠ "server", lookup k entries = lookup k entries')
    (found : lookup "server" entries = some value) (found' : lookup "server" entries' = some value')
    {f : Listener → Listener} (read : Listener.ofValue? value = (Listener.ofValue? value').map f) :
    Config.ofValue? (table entries) = (Config.ofValue? (table entries')).map fun c =>
      { c with listener := f c.listener } := by
  simp only [Config.ofValue?, Value.members?, Option.bind_eq_bind, Option.bind_some, found, found',
    member, read, ne_eq, String.reduceEq, not_false_eq_true, others, Option.bind_map,
    Option.map_bind, Function.comp_def, Option.pure_def, Option.map_some]

theorem ofValue?_of_catalog (others : ∀ k ≠ "catalog", lookup k entries = lookup k entries')
    (found : lookup "catalog" entries = some value) (found' : lookup "catalog" entries' = some value')
    {f : Catalog → Catalog} (read : Catalog.ofValue? value = (Catalog.ofValue? value').map f) :
    Config.ofValue? (table entries) = (Config.ofValue? (table entries')).map fun c =>
      { c with catalog := f c.catalog } := by
  simp only [Config.ofValue?, Value.members?, Option.bind_eq_bind, Option.bind_some, found, found',
    member, read, ne_eq, String.reduceEq, not_false_eq_true, others, Option.bind_map,
    Option.map_bind, Function.comp_def, Option.pure_def, Option.map_some]

theorem ofValue?_of_observability
    (others : ∀ k ≠ "observability", lookup k entries = lookup k entries')
    (found : lookup "observability" entries = some value)
    (found' : lookup "observability" entries' = some value') {f : Observability → Observability}
    (read : Observability.ofValue? value = (Observability.ofValue? value').map f) :
    Config.ofValue? (table entries) = (Config.ofValue? (table entries')).map fun c =>
      { c with observability := f c.observability } := by
  simp only [Config.ofValue?, Value.members?, Option.bind_eq_bind, Option.bind_some, found, found',
    member, read, ne_eq, String.reduceEq, not_false_eq_true, others, Option.bind_map,
    Option.map_bind, Function.comp_def, Option.pure_def, Option.map_some]

end Sections

/-- **Trees that differ in a text are read as settings that differ in this text.** -/
theorem ofValue?_eq_map_put {s : TextSetting} {tree tree' : Value}
    (agree : Value.AgreeOff s.leaf.path tree tree') {value value' : Value}
    (found : tree.get? s.leaf.path = some value) (found' : tree'.get? s.leaf.path = some value')
    {t t' : String} (text : value.text? = some t) (text' : value'.text? = some t') :
    Config.ofValue? tree = (Config.ofValue? tree').map (s.put t) := by
  have whole := optional?_text? text
  have whole' := optional?_text? text'
  cases s
  case serviceName | environment =>
    obtain _ | ⟨others, at?, at?', -⟩ := agree
    simp only [leaf, Leaf.path, Value.get?_singleton, Value.entries, at?, at?', Option.some.injEq]
      at found found'
    subst found found'
    simp only [Config.ofValue?, Value.members?, Option.bind_eq_bind, Option.bind_some, at?, at?',
      member, text, text', ne_eq, String.reduceEq, not_false_eq_true, others, Option.map_bind,
      Option.pure_def, Option.map_some, Function.comp_def, put]
  all_goals
    obtain _ | ⟨others, at?, at?', _ | ⟨others', last, last', -⟩⟩ := agree
    simp only [leaf, Leaf.path, Value.get?_pair, Value.entries, at?, at?', Option.bind_some, last,
      last', Option.some.injEq] at found found'
    subst found found'
  -- only the section counts from here on, and in it what is put in
  case' host => refine ofValue?_of_listener others at? at?' (f := ({ · with host := t })) ?_
  case' baseUrl => refine ofValue?_of_catalog others at? at?' (f := ({ · with baseUrl := t })) ?_
  case' consumerKey =>
    refine ofValue?_of_catalog others at? at?' (f := ({ · with consumerKey := some t })) ?_
  case' consumerSecret =>
    refine ofValue?_of_catalog others at? at?' (f := ({ · with consumerSecret := some t })) ?_
  case' reportedName =>
    refine ofValue?_of_observability others at? at?' (f := ({ · with serviceName := t })) ?_
  case' logLevel =>
    refine ofValue?_of_observability others at? at?' (f := ({ · with logLevel := t })) ?_
  case' logFormat =>
    refine ofValue?_of_observability others at? at?' (f := ({ · with logFormat := t })) ?_
  case' traceEndpoint =>
    refine ofValue?_of_observability others at? at?' (f := ({ · with traceEndpoint := some t })) ?_
  all_goals
    simp only [Listener.ofValue?, Catalog.ofValue?, Observability.ofValue?, Value.members?,
      Option.bind_eq_bind, Option.bind_some, last, last', member, text, text', whole, whole',
      ne_eq, String.reduceEq, not_false_eq_true, others', Option.map_bind, Option.pure_def,
      Option.map_some, Function.comp_def]

end TextSetting

/-! ### Loading -/

/-- The sources below the variables, the one that overrides the others last. -/
def lowerSources? (files : Files) (name service : String) : Option (List Source) := do
  return [
    builtInSource service name,
    ← fileSource? files "default",
    ← fileSource? files name,
    ← fileSource? files service]

/-- The tree that the sources below the variables make. -/
def lowerTree? (files : Files) (name service : String) : Option Value :=
  (lowerSources? files name service).map fun sources => sources.foldl Value.overlaySource (.table [])

/-- Variables are laid over everything else. -/
theorem load_eq_bind (files : Files) (env : Environment) (service : String) :
    load files env service =
      ((lowerTree? files (environmentName (fullEnvironment files env)) service).bind fun tree =>
        Config.ofValue? (tree.overlaySource (variableSource (fullEnvironment files env)))).map
          (Config.withPort (requestedPort? (fullEnvironment files env))) := by
  generalize hfull : fullEnvironment files env = full
  have sources : sources? files full service =
      (lowerSources? files (environmentName full) service).map (· ++ [variableSource full]) := by
    simp only [sources?, lowerSources?, Option.bind_eq_bind, Option.map_bind, Function.comp_def,
      Option.pure_def, Option.map_some, List.cons_append, List.nil_append]
  rw [load, hfull, sources, lowerTree?]
  cases lowerSources? files (environmentName full) service with
  | none => rfl
  | some lower =>
    simp only [Option.map_some, Option.bind_eq_bind, Option.bind_some, List.foldl_append,
      List.foldl_cons, List.foldl_nil]
    cases Config.ofValue? _ with
    | none => rfl
    | some config => cases requestedPort? full <;> rfl

namespace Environment

/-- Only the text of a variable with another name is replaced. -/
theorem get?_replace {name other : String} (ne : name ≠ other) (before after : Environment)
    (v w : String) : Environment.get? (before ++ (name, v) :: after) other =
      Environment.get? (before ++ (name, w) :: after) other := by
  have skip (text : String) : Environment.get? ((name, text) :: after) other = after.get? other := by
    simp [get?, ne]
  rw [get?_append, get?_append, skip, skip]

end Environment

namespace TextSetting

/-- Variables with this name give the text. -/
def IsGivenBy (s : TextSetting) (name : String) : Prop :=
  (variableKey? name).map Path.ofKey = some (s.leaf.path.map .key)

instance (s : TextSetting) (name : String) : Decidable (s.IsGivenBy name) :=
  inferInstanceAs (Decidable (_ = _))

/-- Variables with this name do not touch the text. -/
def IsSparedBy (s : TextSetting) (name : String) : Prop :=
  ∀ key ∈ variableKey? name, (Path.ofKey key).LeadsAway s.leaf.path

/-- The name that the variable for the text has. -/
def variableName : TextSetting → String
  | serviceName => "SEGMENT_SERVICE_NAME"
  | environment => "SEGMENT_ENVIRONMENT"
  | host => "SEGMENT_SERVER__HOST"
  | baseUrl => "SEGMENT_CATALOG__BASE_URL"
  | consumerKey => "SEGMENT_CATALOG__CONSUMER_KEY"
  | consumerSecret => "SEGMENT_CATALOG__CONSUMER_SECRET"
  | reportedName => "SEGMENT_OBSERVABILITY__SERVICE_NAME"
  | logLevel => "SEGMENT_OBSERVABILITY__LOG_LEVEL"
  | logFormat => "SEGMENT_OBSERVABILITY__LOG_FORMAT"
  | traceEndpoint => "SEGMENT_OBSERVABILITY__OTLP_ENDPOINT"

/-- Letter case does not count in the name of the variable. -/
theorem isGivenBy_of_lower {s : TextSetting} {name : String}
    (h : name.toList.map lower = s.variableName.toList.map lower) : s.IsGivenBy name := by
  have same : variableKey? name = variableKey? s.variableName := by rw [variableKey?, variableKey?, h]
  rw [IsGivenBy, same]
  cases s <;> decide +kernel

section Given

variable {s : TextSetting} {name : String}

/-- The environment of the service and its port are named by other variables. -/
theorem IsGivenBy.ne (given : s.IsGivenBy name) : name ≠ "SEGMENT_ENV" ∧ name ≠ "PORT" := by
  constructor
  · rintro rfl
    revert given
    cases s <;> decide +kernel
  · rintro rfl
    cases given

/-- What a variable for a text says, among others. -/
theorem IsGivenBy.variableSource_eq (given : s.IsGivenBy name) (before after : Environment)
    (v : String) : variableSource (before ++ (name, v) :: after) =
      variableSource before ++
        (s.leaf.path.map .key, .ofText false v) :: variableSource after := by
  obtain ⟨key, hkey, hpath⟩ := Option.map_eq_some_iff.mp given
  have noList : key ≠ "cors.allowed_origins" := by
    rintro rfl
    revert hpath
    cases s <;> decide +kernel
  have single : variableSource [(name, v)] = [(s.leaf.path.map .key, .ofText false v)] := by
    simp [variableSource, variableEntries, hkey, noList, Source.ofEntries, hpath]
  rw [variableSource_append, ← List.singleton_append, variableSource_append, single,
    List.singleton_append]

/-- What is said by variables that do not touch a text leads away from it. -/
theorem leadsAway_of_isSparedBy {after : Environment} (spared : ∀ x ∈ after, s.IsSparedBy x.1) :
    ∀ entry ∈ variableSource after, entry.1.LeadsAway s.leaf.path := by
  intro entry mem
  simp only [variableSource, variableEntries, Source.ofEntries, List.mem_map, List.mem_filterMap,
    Option.map_eq_some_iff] at mem
  obtain ⟨_, ⟨x, hx, key, hkey, rfl⟩, rfl⟩ := mem
  exact spared x hx key hkey

/-- **Settings that are read with a variable for a text are the same whatever its text is**, but for
what comes of this text. -/
theorem ofValue?_overlaySource_eq_map_put (given : s.IsGivenBy name) {after : Environment}
    (spared : ∀ x ∈ after, s.IsSparedBy x.1) (before : Environment) (v w : String) (tree : Value) :
    Config.ofValue? (tree.overlaySource (variableSource (before ++ (name, v) :: after))) =
      (Config.ofValue? (tree.overlaySource (variableSource (before ++ (name, w) :: after)))).map
        (s.put (Value.delivered v)) := by
  obtain ⟨opens, silent⟩ := Source.silent_of_leadsAway (leadsAway_of_isSparedBy spared)
  -- the tree when the variable is laid, and when the ones behind it are laid too
  let mid (text : String) : Value :=
    Value.overlayAt (.ofText false text) (s.leaf.path.map .key)
      (tree.overlaySource (variableSource before))
  have split (text : String) :
      tree.overlaySource (variableSource (before ++ (name, text) :: after)) =
        (mid text).overlaySource (variableSource after) := by
    rw [given.variableSource_eq, Value.overlaySource, List.foldl_append]
    rfl
  have found (text : String) : ((mid text).overlaySource (variableSource after)).get? s.leaf.path =
      some (.ofText false text) := by
    rw [Source.get?_overlaySource opens, silent, Source.onto_nil]
    exact Value.get?_overlayAt (isTable_ofText false text) _ _
  have agree := (Value.agreeOff_overlayAt (.ofText false v) (.ofText false w) s.leaf.path
    (tree.overlaySource (variableSource before))).overlaySource opens
  rw [split v, split w]
  exact ofValue?_eq_map_put agree (found v) (found w) (Value.text?_ofText v) (Value.text?_ofText w)

end Given

/-- **A variable for a text changes nothing but this text.**  The settings can be loaded with one text
of the variable just if they can be loaded with any other one, and all other settings are the same.
The setting is what comes of the text, which is the text itself just if it is steady. -/
theorem load_delivers {s : TextSetting} {name : String} (given : s.IsGivenBy name)
    {before after : Environment} (spared : ∀ x ∈ after, s.IsSparedBy x.1)
    {files : Files} {env : Environment} {v : String}
    (full : fullEnvironment files env = before ++ (name, v) :: after) (service : String) :
    (∀ config, load files env service = some config →
      s.get config = some (Value.delivered v) ∧ (s.get config = some v ↔ Value.IsSteady v)) ∧
    ∀ env' w, fullEnvironment files env' = before ++ (name, w) :: after →
      load files env service =
        (load files env' service).map (s.put (Value.delivered v)) := by
  have any (env' : Environment) (w : String)
      (full' : fullEnvironment files env' = before ++ (name, w) :: after) :
      load files env service = (load files env' service).map (s.put (Value.delivered v)) := by
    have sameName : environmentName (before ++ (name, v) :: after) =
        environmentName (before ++ (name, w) :: after) := by
      rw [environmentName, environmentName, Environment.get?_replace given.ne.1 before after v w]
    have samePort : requestedPort? (before ++ (name, v) :: after) =
        requestedPort? (before ++ (name, w) :: after) := by
      rw [requestedPort?, requestedPort?, Environment.get?_replace given.ne.2 before after v w]
    have commute (port? : Option UInt16) : s.put (Value.delivered v) ∘ Config.withPort port? =
        Config.withPort port? ∘ s.put (Value.delivered v) :=
      funext fun c => put_withPort s _ _ c
    rw [load_eq_bind, load_eq_bind, full, full', sameName, samePort, Option.map_map, commute,
      ← Option.map_map]
    simp only [ofValue?_overlaySource_eq_map_put given spared before v w, Option.map_bind,
      Function.comp_def]
  refine ⟨fun config hload => ?_, any⟩
  have same := any env v full
  rw [hload, Option.map_some, Option.some.injEq] at same
  have got : s.get config = some (Value.delivered v) := by rw [same, get_put]
  refine ⟨got, ?_⟩
  rw [got, Option.some.injEq, Value.delivered_eq_self_iff]

/-- Variables among which two give the secret, under names that differ in letter case. -/
def secretVariables (v : String) : Environment :=
  [("SEGMENT_CATALOG__CONSUMER_SECRET", "old"), ("segment_catalog__consumer_secret", v),
    ("SEGMENT_CATALOG__CONSUMER_KEY", "ck_1")]

/-- A secret that looks like a number is spelled out, and nothing else changes. -/
theorem load_delivers_secret : ∃ config config',
    load [("default.toml", "catalog.consumer_secret = 'file'")] (secretVariables "1e3")
        "segment-service" = some config ∧
      load [("default.toml", "catalog.consumer_secret = 'file'")] (secretVariables "cs_1e3")
        "segment-service" = some config' ∧
      config.catalog.consumerSecret = some "1000" ∧ config'.catalog.consumerSecret = some "cs_1e3" ∧
      config = { config' with catalog := { config'.catalog with consumerSecret := some "1000" } } := by
  have given : consumerSecret.IsGivenBy "segment_catalog__consumer_secret" := by
    exact isGivenBy_of_lower (by decide)
  have spared : ∀ x ∈ [("SEGMENT_CATALOG__CONSUMER_KEY", "ck_1")], consumerSecret.IsSparedBy x.1 := by
    simp only [List.forall_mem_singleton, IsSparedBy]
    decide +kernel
  have full (v : String) : fullEnvironment [("default.toml", "catalog.consumer_secret = 'file'")]
      (secretVariables v) = [("SEGMENT_CATALOG__CONSUMER_SECRET", "old")] ++
        ("segment_catalog__consumer_secret", v) :: [("SEGMENT_CATALOG__CONSUMER_KEY", "ck_1")] := by
    rw [fullEnvironment, show Files.get? _ ".env".toList = none by decide +kernel]
    rfl
  obtain ⟨config', hload'⟩ := Option.isSome_iff_exists.mp
    (show (load [("default.toml", "catalog.consumer_secret = 'file'")] (secretVariables "cs_1e3")
      "segment-service").isSome = true by decide +kernel)
  have guessed := load_delivers given spared (full "1e3") "segment-service"
  have plain := load_delivers given spared (full "cs_1e3") "segment-service"
  have hload := guessed.2 _ _ (full "cs_1e3")
  rw [hload', Option.map_some] at hload
  have spelled : Value.delivered "1e3" = "1000" := by decide +kernel
  have steady : Value.IsSteady "cs_1e3" := .text (by decide) (by decide)
  refine ⟨_, config', hload, hload', ?_, (plain.1 config' hload').2.mpr steady, ?_⟩
  · exact congrArg some spelled
  · rw [spelled]
    rfl

/-- A secret of digits loses the zeros in front if it comes from a variable; from a file it arrives as
it is. -/
theorem not_load_verbatim :
    (load [] [("SEGMENT_CATALOG__CONSUMER_SECRET", "007")] "segment-service").map
        consumerSecret.get = some (some "7") ∧
      (load [("default.toml", "catalog.consumer_secret = '007'")] [] "segment-service").map
        consumerSecret.get = some (some "007") := by
  constructor <;> decide +kernel

end TextSetting

end ProductSegments.Settings
