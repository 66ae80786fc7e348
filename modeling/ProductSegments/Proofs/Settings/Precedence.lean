import ProductSegments.Proofs.Settings.Layers

/-!
# Which source a setting comes from

Each setting comes from the highest source that says anything of it, whatever files and variables there
are, as long as they are well-formed.

The order does not tell everything, since sources are laid over each other part by part.  Two variables
with different names may be about one setting, and then the one that is set later counts.  The origin
may be a table, which is merged with what is below it, and a variable may name a single item of the
allowed origins.  If another variable of the same source names all of them, the two come in no fixed
order, and what is proved holds for the order in which they are listed.  And a value in the
environment file may refer to other variables.

## Main definitions

* `Settings.WellPosed` — what is assumed of files and variables.

## Main results

* `Settings.WellPosed.load_eq` — what is loaded is loaded setting by setting, from what the sources say
  of each.
* `Settings.WellPosed.read?_highest_of_load` — a setting comes from the highest source that says
  anything of it.
* `Settings.WellPosed.load_eq_load_of_agreeDown` — what stands below what decides about a setting counts
  for nothing.
* `Settings.WellPosed.get_eq_get_of_said_eq` — a setting is not changed by what is said of others.
* `Settings.load_settled` — **all three together.**
-/

namespace ProductSegments.Settings

/-! ### Loading -/

/-- What is assumed of files and variables: the files are well-formed, no source gives a section
anything but a table, and no variable of the environment file is about a setting that a variable of
the process with another name is about. -/
structure WellPosed (files : Files) (env : Environment) (service : String) (layers : List Source) :
    Prop where
  layers?_eq : layers? files env service = some layers
  keepsSections : ∀ source ∈ layers, source.KeepsSections
  unambiguous : Unambiguous files env

/-- The settings of a service that listens on the port that is asked for, if one is. -/
def Config.withPort (port? : Option UInt16) (c : Config) : Config :=
  match port? with
  | some tcpPort => { c with listener := { c.listener with tcpPort } }
  | none => c

theorem Config.get_withPort {leaf : Leaf} {port? : Option UInt16}
    (h : leaf = .tcpPort → port? = none) (c : Config) : (c.withPort port?).get leaf = c.get leaf := by
  cases port? with
  | none => rfl
  | some port => cases leaf <;> first | rfl | cases h rfl

namespace WellPosed

variable {files : Files} {env : Environment} {service : String} {layers : List Source}

/-- The sources in the order in which they are laid. -/
theorem exists_lower (h : WellPosed files env service layers) :
    ∃ lower, layers = variableSource env :: variableSource (fileVariables files env) :: lower ∧
      (∀ source ∈ lower, source.IsTabular) ∧
      sources? files (fullEnvironment files env) service =
        some (lower.reverse ++ [variableSource (fullEnvironment files env)]) := by
  have hlayers := h.layers?_eq
  simp only [layers?, Option.bind_eq_bind, Option.bind_eq_some_iff, Option.pure_def,
    Option.some.injEq] at hlayers
  obtain ⟨own, hown, general, hgeneral, common, hcommon, rfl⟩ := hlayers
  refine ⟨[own, general, common, builtInSource service (environmentName (fullEnvironment files env))],
    rfl, ?_, ?_⟩
  · simp only [List.forall_mem_cons]
    exact ⟨Source.isTabular_of_fileSource? hown, Source.isTabular_of_fileSource? hgeneral,
      Source.isTabular_of_fileSource? hcommon, Source.isTabular_builtInSource _ _,
      List.forall_mem_nil _⟩
  · simp [sources?, hown, hgeneral, hcommon]

/-- Nothing comes from variables but what the two kinds of them say. -/
theorem keepsSections_variableSource (h : WellPosed files env service layers) :
    (variableSource (fullEnvironment files env)).KeepsSections := by
  obtain ⟨lower, rfl, -, -⟩ := h.exists_lower
  have process := Source.keepsSections_iff.mp (h.keepsSections _ List.mem_cons_self)
  have file := Source.keepsSections_iff.mp
    (h.keepsSections _ (List.mem_cons_of_mem _ List.mem_cons_self))
  rw [Source.keepsSections_iff, fullEnvironment_eq, variableSource_append]
  intro entry mem
  rcases List.mem_append.mp mem with mem | mem
  · exact process entry mem
  · refine file entry ?_
    exact ((List.filter_sublist.filterMap _).map _).subset mem

/-- What the sources say of a setting all together, in the order in which they are laid. -/
theorem about_flatten_sources (h : Unambiguous files env) (leaf : Leaf) (lower : List Source) :
    Source.about leaf.path (lower.reverse ++ [variableSource (fullEnvironment files env)]).flatten =
      (Source.asLaid (leaf.said
        (variableSource env :: variableSource (fileVariables files env) :: lower))).reverse.flatten := by
  have bothKinds : Source.about leaf.path (variableSource (fullEnvironment files env)) =
      leaf.saidBy (fullEnvironment files env) := rfl
  rw [Source.about_flatten, List.map_append, List.map_singleton, bothKinds,
    h.saidBy_fullEnvironment leaf, List.map_reverse]
  show _ = (Source.asLaid (leaf.saidBy env :: leaf.saidBy (fileVariables files env) ::
    leaf.said lower)).reverse.flatten
  by_cases silent : leaf.saidBy env = []
  · rw [if_pos silent, silent, Source.asLaid_of_eq_nil, List.reverse_cons]
    rfl
  · rw [if_neg silent, Source.asLaid_of_ne_nil silent, List.reverse_cons]
    rfl

/-- All sources together leave tables where there should be some, and say of a setting what the single
ones say. -/
theorem exists_sources (h : WellPosed files env service layers) :
    ∃ sources, sources? files (fullEnvironment files env) service = some sources ∧
      Source.IsTabular sources.flatten ∧ Source.KeepsSections sources.flatten ∧
      ∀ leaf : Leaf, Source.about leaf.path sources.flatten =
        (Source.asLaid (leaf.said layers)).reverse.flatten := by
  have keepsVariables := h.keepsSections_variableSource
  have keeps := h.keepsSections
  obtain ⟨lower, rfl, tabular, hsources⟩ := h.exists_lower
  refine ⟨_, hsources, ?_, ?_, fun leaf => about_flatten_sources h.unambiguous leaf lower⟩
  · intro entry mem
    obtain ⟨source, hsource, mem⟩ := List.mem_flatten.mp mem
    rcases List.mem_append.mp hsource with hlower | hvariables
    · exact tabular source (List.mem_reverse.mp hlower) entry mem
    · rw [List.mem_singleton.mp hvariables] at mem
      exact Source.isTabular_ofEntries _ entry mem
  · rw [Source.keepsSections_iff]
    intro entry mem
    obtain ⟨source, hsource, mem⟩ := List.mem_flatten.mp mem
    rcases List.mem_append.mp hsource with hlower | hvariables
    · have keepsSource : Source.KeepsSections source :=
        keeps source (List.mem_cons_of_mem _ (List.mem_cons_of_mem _ (List.mem_reverse.mp hlower)))
      exact Source.keepsSections_iff.mp keepsSource entry mem
    · rw [List.mem_singleton.mp hvariables] at mem
      exact Source.keepsSections_iff.mp keepsVariables entry mem

/-- **What is loaded is loaded setting by setting**, from what the sources say of each. -/
theorem load_eq (h : WellPosed files env service layers) :
    load files env service =
      (Config.ofLeaves fun leaf => leaf.read? (Source.laid (Source.asLaid (leaf.said layers)))).map
        (Config.withPort (requestedPort? (fullEnvironment files env))) := by
  obtain ⟨sources, hsources, tabular, keeps, said⟩ := h.exists_sources
  have read : Config.ofValue? (sources.foldl Value.overlaySource (.table [])) =
      Config.ofLeaves fun leaf => leaf.read? (Source.laid (Source.asLaid (leaf.said layers))) := by
    rw [Source.foldl_overlaySource, Config.ofValue?_overlaySource tabular keeps]
    simp only [said]
    rfl
  rw [← read, load, hsources]
  simp only [Option.bind_eq_bind, Option.bind_some]
  cases Config.ofValue? (sources.foldl Value.overlaySource (.table [])) with
  | none => rfl
  | some config => cases requestedPort? (fullEnvironment files env) <;> rfl

/-! ### The three laws -/

variable {files' : Files} {env' : Environment} {service' : String} {layers' : List Source}

/-- The port that is asked for is the one that is listened on. -/
theorem tcpPort_eq (h : WellPosed files env service layers) {config : Config}
    (hload : load files env service = some config) {port : UInt16}
    (hport : requestedPort? (fullEnvironment files env) = some port) :
    config.listener.tcpPort = port := by
  rw [h.load_eq, hport] at hload
  obtain ⟨read, -, rfl⟩ := Option.map_eq_some_iff.mp hload
  rfl

/-- A setting is what its sources come to. -/
theorem read?_laid_of_load (h : WellPosed files env service layers) {config : Config}
    (hload : load files env service = some config) {leaf : Leaf}
    (hport : leaf = .tcpPort → requestedPort? (fullEnvironment files env) = none) :
    leaf.read? (Source.laid (Source.asLaid (leaf.said layers))) = some (config.get leaf) := by
  rw [h.load_eq] at hload
  obtain ⟨read, hread, rfl⟩ := Option.map_eq_some_iff.mp hload
  rw [Config.get_withPort hport]
  exact Config.ofLeaves_eq_some_iff.mp hread leaf

/-- **A setting comes from the highest source that says anything of it.** -/
theorem read?_highest_of_load (h : WellPosed files env service layers) {config : Config}
    (hload : load files env service = some config) {leaf : Leaf}
    (hport : leaf = .tcpPort → requestedPort? (fullEnvironment files env) = none)
    (hdecided : leaf.hasParts = true → leaf.IsDecided (leaf.said layers)) :
    leaf.read? (leaf.highest? layers) = some (config.get leaf) := by
  have decided : leaf.IsDecided (leaf.said layers) := by
    cases plain : leaf.hasParts with
    | true => exact hdecided plain
    | false => exact Leaf.isDecided_of_not_hasParts plain _
  rw [← h.read?_laid_of_load hload hport, decided.asLaid.read?_laid_eq, Source.highest_asLaid]
  rfl

/-- Sources that agree on a setting down to what decides about it come to the same. -/
theorem read?_laid_eq_of_agreeDown (h : WellPosed files env service layers) {leaf : Leaf}
    (agree : leaf.AgreeDown (leaf.said layers) (leaf.said layers')) :
    leaf.read? (Source.laid (Source.asLaid (leaf.said layers))) =
      leaf.read? (Source.laid (Source.asLaid (leaf.said layers'))) := by
  obtain ⟨lower, rfl, -, -⟩ := h.exists_lower
  exact (agree.asLaid h.unambiguous.decides_saidBy).read?_laid_eq

/-- **What stands below what decides about a setting counts for nothing**, whatever it is. -/
theorem load_eq_load_of_agreeDown (h : WellPosed files env service layers)
    (h' : WellPosed files' env' service' layers')
    (hport : requestedPort? (fullEnvironment files env) = requestedPort? (fullEnvironment files' env'))
    {leaf : Leaf} (agree : leaf.AgreeDown (leaf.said layers) (leaf.said layers'))
    (others : ∀ other ≠ leaf, other.said layers = other.said layers') :
    load files env service = load files' env' service' := by
  rw [h.load_eq, h'.load_eq, hport]
  congr 2
  funext other
  by_cases same : other = leaf
  · subst same
    rw [h.read?_laid_eq_of_agreeDown agree]
  · rw [others other same]

/-- **A setting is not changed by what is said of others.** -/
theorem get_eq_get_of_said_eq (h : WellPosed files env service layers)
    (h' : WellPosed files' env' service' layers') {config config' : Config}
    (hload : load files env service = some config)
    (hload' : load files' env' service' = some config') {leaf : Leaf}
    (hport : leaf = .tcpPort →
      requestedPort? (fullEnvironment files env) = requestedPort? (fullEnvironment files' env'))
    (same : leaf.said layers = leaf.said layers') : config.get leaf = config'.get leaf := by
  have unasked (none : leaf = .tcpPort → requestedPort? (fullEnvironment files env) = none) :
      config.get leaf = config'.get leaf := by
    have left := h.read?_laid_of_load hload none
    have right := h'.read?_laid_of_load hload' fun isPort => hport isPort ▸ none isPort
    rw [same, right] at left
    exact (Option.some.inj left).symm
  cases asked : requestedPort? (fullEnvironment files env) with
  | none => exact unasked fun _ => asked
  | some port =>
    by_cases isPort : leaf = .tcpPort
    · have asked' := hport isPort ▸ asked
      subst isPort
      exact (h.tcpPort_eq hload asked).trans (h'.tcpPort_eq hload' asked').symm
    · exact unasked fun isPort' => absurd isPort' isPort

end WellPosed

/-- **Each setting comes from the highest source that says anything of it**, except that the service
listens on the port that is asked for.  What stands below what decides about a setting counts for
nothing, and a setting stays as it is whatever is said of others. -/
theorem load_settled {files : Files} {env : Environment} {service : String} {layers : List Source}
    (h : WellPosed files env service layers) :
    (∀ config, load files env service = some config →
      (∀ port, requestedPort? (fullEnvironment files env) = some port →
        config.listener.tcpPort = port) ∧
      ∀ leaf : Leaf, (leaf = .tcpPort → requestedPort? (fullEnvironment files env) = none) →
        (leaf.hasParts = true → leaf.IsDecided (leaf.said layers)) →
          leaf.read? (leaf.highest? layers) = some (config.get leaf)) ∧
    ∀ files' env' service' layers', WellPosed files' env' service' layers' →
      (requestedPort? (fullEnvironment files env) = requestedPort? (fullEnvironment files' env') →
        ∀ leaf : Leaf, leaf.AgreeDown (leaf.said layers) (leaf.said layers') →
          (∀ other ≠ leaf, other.said layers = other.said layers') →
            load files env service = load files' env' service') ∧
      ∀ config config', load files env service = some config →
        load files' env' service' = some config' →
          ∀ leaf : Leaf, (leaf = .tcpPort →
            requestedPort? (fullEnvironment files env) =
              requestedPort? (fullEnvironment files' env')) →
          leaf.said layers = leaf.said layers' → config.get leaf = config'.get leaf := by
  refine ⟨fun config hload => ⟨fun port => ?_, fun leaf => ?_⟩,
    fun files' env' service' layers' h' => ⟨?_, ?_⟩⟩
  · exact h.tcpPort_eq hload
  · exact h.read?_highest_of_load hload
  · intro hport leaf agree others
    exact h.load_eq_load_of_agreeDown h' hport agree others
  · intro config config' hload hload' leaf
    exact h.get_eq_get_of_said_eq h' hload hload'

/-- Files that differ in the one for all services. -/
def filesWith (common : String) : Files :=
  [("default.toml", common),
    ("segment-service.toml", "server.port = 7\ncatalog.source = 'woocommerce'"),
    (".env", "SEGMENT_SERVER__HOST=file")]

/-- A variable of the process that the environment file gives too. -/
def hostVariable : Environment := [("SEGMENT_SERVER__HOST", "process")]

/-- The sources that they make. -/
def layersWith (common : Source) : List Source :=
  [[([.key "server", .key "host"], .text "process")], [([.key "server", .key "host"], .text "file")],
    [([.key "server"], .table [("port", .integer 7)]),
      ([.key "catalog"], .table [("source", .text "woocommerce")])],
    [], common, builtInSource "segment-service" "development"]

theorem wellPosed_filesWith {common : String} {source : Source}
    (layers : layers? (filesWith common) hostVariable "segment-service" = some (layersWith source))
    (keeps : source.KeepsSections)
    (ofFile : fileVariables (filesWith common) hostVariable = [("SEGMENT_SERVER__HOST", "file")]) :
    WellPosed (filesWith common) hostVariable "segment-service" (layersWith source) where
  layers?_eq := layers
  keepsSections := by
    simp only [layersWith, List.forall_mem_cons]
    exact ⟨by decide, by decide, by decide, by decide, keeps, by decide, List.forall_mem_nil _⟩
  unambiguous := by
    intro leaf x hx y hy _ _
    rw [ofFile] at hy
    rw [List.mem_singleton.mp hx, List.mem_singleton.mp hy]

/-- The host comes from the process, the port and the origin come from the file for the service; an
unusable port in the file for all services makes no difference, and what else that file says leaves
the host alone. -/
theorem load_settled_filesWith : ∃ config config',
    load (filesWith "server.port = 8") hostVariable "segment-service" = some config ∧
      config.listener = ⟨"process", 7⟩ ∧ config.catalog.origin = .shop ∧
      load (filesWith "server.port = 'eight'") hostVariable "segment-service" = some config ∧
      load (filesWith "catalog.per_page = 5") hostVariable "segment-service" = some config' ∧
      config'.listener.host = config.listener.host := by
  have usable : WellPosed (filesWith "server.port = 8") hostVariable "segment-service"
      (layersWith [([.key "server"], .table [("port", .integer 8)])]) :=
    wellPosed_filesWith (by decide +kernel) (by decide) (by decide +kernel)
  have unusable : WellPosed (filesWith "server.port = 'eight'") hostVariable "segment-service"
      (layersWith [([.key "server"], .table [("port", .text "eight")])]) :=
    wellPosed_filesWith (by decide +kernel) (by decide) (by decide +kernel)
  have other : WellPosed (filesWith "catalog.per_page = 5") hostVariable "segment-service"
      (layersWith [([.key "catalog"], .table [("per_page", .integer 5)])]) :=
    wellPosed_filesWith (by decide +kernel) (by decide) (by decide +kernel)
  obtain ⟨config, hload⟩ := Option.isSome_iff_exists.mp
    (show (load (filesWith "server.port = 8") hostVariable "segment-service").isSome = true by
      rw [usable.load_eq, Option.isSome_map]
      decide)
  obtain ⟨config', hload'⟩ := Option.isSome_iff_exists.mp
    (show (load (filesWith "catalog.per_page = 5") hostVariable "segment-service").isSome = true by
      rw [other.load_eq, Option.isSome_map]
      decide)
  have settled := load_settled usable
  have host : some config.listener.host = some "process" :=
    ((settled.1 config hload).2 .host nofun nofun).symm
  have tcpPort : some config.listener.tcpPort = some 7 :=
    ((settled.1 config hload).2 .tcpPort (fun _ => by decide +kernel) nofun).symm
  have origin : some config.catalog.origin = some .shop :=
    ((settled.1 config hload).2 .origin nofun fun _ => by decide).symm
  have shadowed := (settled.2 _ _ _ _ unusable).1 (by decide +kernel) .tcpPort
    (.there (.there (.here (by decide)))) (by
      intro other ne
      cases other <;> first | rfl | exact absurd rfl ne)
  have isolated := (settled.2 _ _ _ _ other).2 config config' hload hload' .host nofun rfl
  refine ⟨config, config', hload, ?_, Option.some.inj origin, shadowed ▸ hload, hload', isolated.symm⟩
  rw [← Option.some.inj host, ← Option.some.inj tcpPort]

/-- The order of sources does not tell everything.  A host named in two ways comes from the environment
file, though the process gives one.  A table for the origin is merged with one below it: an empty one
leaves the origin below as it was, and one with another origin makes the settings unusable.  An item
put into a list leaves the other items as they were.  And a change of the host changes a base URL in
the environment file that refers to it. -/
theorem load_not_settled :
    ((layers? [(".env", "SEGMENT_SERVER__HOST=file")] [("SEGMENT_SERVER.HOST", "process")]
          "segment-service").map Leaf.host.highest? = some (some (.text "process")) ∧
      (load [(".env", "SEGMENT_SERVER__HOST=file")] [("SEGMENT_SERVER.HOST", "process")]
          "segment-service").map (·.listener.host) = some "file") ∧
    ((layers? [("default.toml", "catalog.source.woocommerce = 1"),
          ("segment-service.toml", "[catalog.source]")] [] "segment-service").map
          Leaf.origin.highest? = some (some (.table [])) ∧
      (load [("default.toml", "catalog.source.woocommerce = 1"),
          ("segment-service.toml", "[catalog.source]")] [] "segment-service").map
          (·.catalog.origin) = some .shop) ∧
    ((load [("segment-service.toml", "catalog.source.product_service = 1")] []
          "segment-service").map (·.catalog.origin) = some .productService ∧
      load [("default.toml", "catalog.source.woocommerce = 1"),
          ("segment-service.toml", "catalog.source.product_service = 1")] []
          "segment-service" = none) ∧
    ((layers? [("default.toml", "cors.allowed_origins = ['a', 'b']")]
          [("SEGMENT_CORS__ALLOWED_ORIGINS[0]", "c")] "segment-service").map
          Leaf.allowedOrigins.highest? = some (some (.list [.text "c"])) ∧
      (load [("default.toml", "cors.allowed_origins = ['a', 'b']")]
          [("SEGMENT_CORS__ALLOWED_ORIGINS[0]", "c")] "segment-service").map
          (·.allowedOrigins) = some ["c", "b"]) ∧
    (load [(".env", "SEGMENT_CATALOG__BASE_URL=http://${SEGMENT_SERVER__HOST}")]
          [("SEGMENT_SERVER__HOST", "one")] "segment-service").map (·.catalog.baseUrl) =
        some "http://one" ∧
      (load [(".env", "SEGMENT_CATALOG__BASE_URL=http://${SEGMENT_SERVER__HOST}")]
          [("SEGMENT_SERVER__HOST", "two")] "segment-service").map (·.catalog.baseUrl) =
        some "http://two" := by
  refine ⟨⟨?_, ?_⟩, ⟨?_, ?_⟩, ⟨?_, ?_⟩, ⟨?_, ?_⟩, ?_, ?_⟩ <;> decide +kernel

end ProductSegments.Settings
