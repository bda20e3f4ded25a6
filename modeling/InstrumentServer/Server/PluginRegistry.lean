import InstrumentServer.Server.TemporaryInstrument

/-!
# The plugin registry

`PluginRegistry` keeps the loaded plugins and their paths under protocol types; the first plugin loaded for a protocol stays until it is unloaded. `start` and `test` load the plugin given with `--plugin` under the protocol type the plugin itself reports, and do not look at the result; the creation of the instrument then asks for the path under the protocol type of the API definition.

What lies in the file system may change between calls, so it is given with every call.
-/

namespace InstrumentServer

open HandlerEnd InstrumentRegistry Transition

/-! ### Loading -/

structure PluginMetadata where
  apiVersion : UInt32
  protocolType : ByteString

/-- `INSTRUMENT_PLUGIN_API_VERSION` -/
def pluginApiVersion : UInt32 := 1

/-- A file in a directory. -/
structure DirectoryEntry where
  path : ByteString
  filename : ByteString
  isRegularFile : Bool

/-- What the loop over a search path sees: the entries in the order of the iteration, none if it is not a directory, and whether it comes to the end without a `filesystem_error`. -/
structure DirectoryListing where
  entries : List DirectoryEntry
  complete : Bool

structure PluginFiles where
  /-- `fs::exists` for the path of a plugin, where it does not throw -/
  exists? : ByteString → Bool
  /-- what a loaded plugin says of itself, or the text of the exception that `PluginLoader` throws -/
  load : ByteString → Except ByteString PluginMetadata
  directory : ByteString → DirectoryListing

structure PluginRegistry where
  plugins : List (ByteString × PluginMetadata) := []
  pluginPaths : List (ByteString × ByteString) := []

/-- The places of the plugins that come with the server. -/
def builtins : List (ByteString × List ByteString) :=
  [(bytes "VISA", [bytes "/usr/local/lib/instrument-plugins/visa_plugin.so",
    bytes "/usr/lib/instrument-plugins/visa_plugin.so", bytes "./plugins/visa/visa_plugin. so",
    bytes "./build/plugins/visa/visa_plugin.so"])]

namespace PluginRegistry

def hasPlugin (s : PluginRegistry) (protocolType : ByteString) : Bool :=
  (SortedAssoc.find? protocolType s.plugins).isSome

def getPluginPath (s : PluginRegistry) (protocolType : ByteString) : ByteString :=
  (SortedAssoc.find? protocolType s.pluginPaths).getD []

def loadPlugin (files : PluginFiles) (s : PluginRegistry) (protocolType pluginPath : ByteString) :
    PluginRegistry × Bool :=
  if s.hasPlugin protocolType then (s, false)
  else
    match files.load pluginPath with
    | .error _ => (s, false)
    | .ok metadata =>
        if metadata.apiVersion ≠ pluginApiVersion then (s, false)
        else
          ({ plugins := SortedAssoc.insert protocolType metadata s.plugins,
             pluginPaths := SortedAssoc.insert protocolType pluginPath s.pluginPaths }, true)

def unloadPlugin (s : PluginRegistry) (protocolType : ByteString) : PluginRegistry where
  plugins := SortedAssoc.erase protocolType s.plugins
  pluginPaths := SortedAssoc.erase protocolType s.pluginPaths

/-- The first of the paths that exists and can be loaded. -/
def loadFirst (files : PluginFiles) (protocolType : ByteString) (s : PluginRegistry) : List ByteString → PluginRegistry
  | [] => s
  | path :: paths =>
      if files.exists? path then
        match s.loadPlugin files protocolType path with
        | (s, true) => s
        | (s, false) => loadFirst files protocolType s paths
      else loadFirst files protocolType s paths

def loadBuiltinPlugins (files : PluginFiles) (s : PluginRegistry) : PluginRegistry :=
  builtins.foldl (fun s builtin => if s.hasPlugin builtin.1 then s else loadFirst files builtin.1 s builtin.2) s

/-- A file is loaded under its own protocol type, if it is a plugin and the type is new. -/
def discoverEntry (files : PluginFiles) (s : PluginRegistry) (entry : DirectoryEntry) : PluginRegistry :=
  if entry.isRegularFile ∧ (bytes ".so").isSuffixOf entry.filename then
    match files.load entry.path with
    | .error _ => s
    | .ok metadata =>
        if s.hasPlugin metadata.protocolType then s
        else (s.loadPlugin files metadata.protocolType entry.path).1
  else s

/-- The registry afterwards, and whether the search came to its end without an exception. -/
def discoverPlugins (files : PluginFiles) : PluginRegistry → List ByteString → PluginRegistry × Bool
  | s, [] => (s, true)
  | s, searchPath :: searchPaths =>
      let listing := files.directory searchPath
      let s := listing.entries.foldl (discoverEntry files) s
      if listing.complete then discoverPlugins files s searchPaths else (s, false)

/-! ### Every state of the registry -/

inductive PluginLabel where
  | loadPlugin (protocolType pluginPath : ByteString)
  | loadBuiltinPlugins
  | discoverPlugins (searchPaths : List ByteString)
  | unloadPlugin (protocolType : ByteString)

def step (files : PluginFiles) (s : PluginRegistry) : PluginLabel → PluginRegistry
  | .loadPlugin protocolType pluginPath => (s.loadPlugin files protocolType pluginPath).1
  | .loadBuiltinPlugins => s.loadBuiltinPlugins files
  | .discoverPlugins searchPaths => (s.discoverPlugins files searchPaths).1
  | .unloadPlugin protocolType => s.unloadPlugin protocolType

/-- Every sequence of calls, each with the files it finds. -/
def system : System PluginRegistry (PluginFiles × PluginLabel) where
  init := {}
  step s label := some (s.step label.1 label.2)

/-- A protocol with a path has a plugin. -/
def Backed (s : PluginRegistry) : Prop :=
  ∀ protocolType, (SortedAssoc.find? protocolType s.pluginPaths).isSome → s.hasPlugin protocolType = true

/-- A load does nothing, or it adds a plugin for a new protocol. -/
theorem loadPlugin_cases (files : PluginFiles) (s : PluginRegistry) (protocolType pluginPath : ByteString) :
    (s.loadPlugin files protocolType pluginPath).1 = s ∨
      s.hasPlugin protocolType = false ∧ ∃ metadata, (s.loadPlugin files protocolType pluginPath).1 =
        { plugins := SortedAssoc.insert protocolType metadata s.plugins,
          pluginPaths := SortedAssoc.insert protocolType pluginPath s.pluginPaths } := by
  rw [loadPlugin]
  split
  · exact Or.inl rfl
  · rename_i hnew
    split
    · exact Or.inl rfl
    · split
      · exact Or.inl rfl
      · exact Or.inr ⟨Bool.eq_false_iff.mpr hnew, _, rfl⟩

theorem Backed.loadPlugin {s : PluginRegistry} (hbacked : s.Backed) (files : PluginFiles)
    (protocolType pluginPath : ByteString) : (s.loadPlugin files protocolType pluginPath).1.Backed := by
  obtain heq | ⟨-, metadata, heq⟩ := loadPlugin_cases files s protocolType pluginPath
  · rw [heq]
    exact hbacked
  · rw [heq]
    intro other hother
    rw [hasPlugin, SortedAssoc.find?_insert]
    rw [SortedAssoc.find?_insert] at hother
    split at hother
    · rename_i hsame
      rw [if_pos hsame]
      rfl
    · rename_i hdifferent
      rw [if_neg hdifferent]
      exact hbacked other hother

theorem Backed.unloadPlugin {s : PluginRegistry} (hbacked : s.Backed) (protocolType : ByteString) :
    (s.unloadPlugin protocolType).Backed := by
  intro other hother
  rw [PluginRegistry.unloadPlugin, SortedAssoc.find?_erase] at hother
  rw [hasPlugin, PluginRegistry.unloadPlugin, SortedAssoc.find?_erase]
  split at hother
  · contradiction
  · rename_i hdifferent
    rw [if_neg hdifferent]
    exact hbacked other hother

theorem Backed.loadFirst {s : PluginRegistry} (hbacked : s.Backed) (files : PluginFiles) (protocolType : ByteString)
    (paths : List ByteString) : (PluginRegistry.loadFirst files protocolType s paths).Backed := by
  induction paths generalizing s with
  | nil => exact hbacked
  | cons path paths ih =>
      rw [PluginRegistry.loadFirst]
      split
      · have hloaded := hbacked.loadPlugin files protocolType path
        split
        · rename_i s' heq
          rw [heq] at hloaded
          exact hloaded
        · rename_i s' heq
          rw [heq] at hloaded
          exact ih hloaded
      · exact ih hbacked

theorem Backed.discoverEntry {s : PluginRegistry} (hbacked : s.Backed) (files : PluginFiles) (entry : DirectoryEntry) :
    (PluginRegistry.discoverEntry files s entry).Backed := by
  rw [PluginRegistry.discoverEntry]
  split
  · split
    · exact hbacked
    · split
      · exact hbacked
      · exact hbacked.loadPlugin _ _ _
  · exact hbacked

/-- What every step keeps, a loop over them keeps. -/
theorem Backed.foldl {α : Type} {f : PluginRegistry → α → PluginRegistry}
    (hstep : ∀ s a, s.Backed → (f s a).Backed) {s : PluginRegistry} (hbacked : s.Backed) (items : List α) :
    (items.foldl f s).Backed := by
  induction items generalizing s with
  | nil => exact hbacked
  | cons item items ih => exact ih (hstep s item hbacked)

/-- All that a search looks at. -/
def searched (files : PluginFiles) : List ByteString → DirectoryListing
  | [] => ⟨[], true⟩
  | searchPath :: searchPaths =>
      let listing := files.directory searchPath
      if listing.complete then
        ⟨listing.entries ++ (searched files searchPaths).entries, (searched files searchPaths).complete⟩
      else listing

theorem discoverPlugins_eq (files : PluginFiles) (s : PluginRegistry) (searchPaths : List ByteString) :
    s.discoverPlugins files searchPaths =
      ((searched files searchPaths).entries.foldl (discoverEntry files) s, (searched files searchPaths).complete) := by
  induction searchPaths generalizing s with
  | nil => rfl
  | cons searchPath searchPaths ih =>
      rw [discoverPlugins, searched]
      split
      · rw [ih, List.foldl_append]
      · rename_i hfails
        rw [Bool.eq_false_iff.mpr hfails]

theorem backed_of_reachable {s : PluginRegistry} (hreach : Reachable system s) : s.Backed := by
  refine hreach.invariant (fun _ h => by simp [system] at h) ?_
  rintro s t ⟨files, label⟩ hbacked hnext
  obtain rfl := Option.some.inj hnext
  cases label with
  | loadPlugin protocolType pluginPath => exact hbacked.loadPlugin files protocolType pluginPath
  | unloadPlugin protocolType => exact hbacked.unloadPlugin protocolType
  | loadBuiltinPlugins =>
      refine Backed.foldl (fun s builtin hs => ?_) hbacked builtins
      dsimp only
      split
      · exact hs
      · exact hs.loadFirst files builtin.1 builtin.2
  | discoverPlugins searchPaths =>
      show (s.discoverPlugins files searchPaths).1.Backed
      rw [discoverPlugins_eq]
      exact Backed.foldl (fun s entry hs => hs.discoverEntry files entry) hbacked _

end PluginRegistry

/-! ### Requests with a plugin -/

/-- The registry after a request has loaded the plugin given with `--plugin`. -/
def PluginRegistry.loadRequested (files : PluginFiles) (s : PluginRegistry) (customPlugin : ByteString) : PluginRegistry :=
  if customPlugin ≠ [] ∧ files.exists? customPlugin then
    match files.load customPlugin with
    | .error _ => s
    | .ok metadata => (s.loadPlugin files metadata.protocolType customPlugin).1
  else s

/-- What a request finds that looks its plugin up in this registry. -/
def PluginRegistry.surroundings (files : PluginFiles) (s : PluginRegistry) (env : TestSurroundings)
    (customPlugin : ByteString) : TestSurroundings :=
  { env with
    getPluginPath := (s.loadRequested files customPlugin).getPluginPath
    pluginExists := files.exists? customPlugin
    pluginError := match files.load customPlugin with
      | .error what => some what
      | .ok _ => none }

/-- The worker of an instrument was spawned with this plugin. -/
def InstrumentRegistry.RunsPlugin (r : InstrumentRegistry) (name pluginPath : ByteString) : Prop :=
  ∃ proxy, SortedAssoc.find? name r.instruments = some proxy ∧ proxy.pluginPath = pluginPath

def HandlerEnd.isSuccess : HandlerEnd → Bool
  | .returned 0 _ => true
  | _ => false

/-- `start` ends with an error, or with success and the worker runs the plugin. -/
def StartRunsPlugin (result : InstrumentRegistry × HandlerEnd) (name pluginPath : ByteString) : Prop :=
  (∃ error, result.2 = failed error) ∨ (result.2.isSuccess = true ∧ result.1.RunsPlugin name pluginPath)

/-- `test` ends with an error before it has an instrument, or the worker runs the plugin. -/
def TestRun.RunsPlugin (run : TestRun) (name pluginPath : ByteString) : Prop :=
  match run.created with
  | none => ∃ error, run.ended = failed error
  | some r => r.RunsPlugin name pluginPath

/-- The path that a request finds for a protocol: its own one only if the plugin is for this protocol and none was loaded before. -/
theorem getPluginPath_loadRequested {files : PluginFiles} {s : PluginRegistry} (hbacked : s.Backed)
    {customPlugin : ByteString} (protocol : ByteString) :
    (s.loadRequested files customPlugin).getPluginPath protocol = s.getPluginPath protocol ∨
      (s.getPluginPath protocol = [] ∧ (s.loadRequested files customPlugin).getPluginPath protocol = customPlugin) := by
  rw [PluginRegistry.loadRequested]
  split
  · split
    · exact Or.inl rfl
    · rename_i metadata _
      obtain heq | ⟨hnew, loaded, heq⟩ := PluginRegistry.loadPlugin_cases files s metadata.protocolType customPlugin
      · rw [heq]
        exact Or.inl rfl
      · rw [heq, PluginRegistry.getPluginPath, PluginRegistry.getPluginPath, SortedAssoc.find?_insert]
        by_cases hprotocol : protocol = metadata.protocolType
        · refine Or.inr ⟨?_, by rw [if_pos hprotocol]; rfl⟩
          have hnone : SortedAssoc.find? protocol s.pluginPaths = none := by
            by_contra hsome
            have hplugin := hbacked protocol (Option.isSome_iff_ne_none.mpr hsome)
            rw [hprotocol, hnew] at hplugin
            contradiction
          rw [hnone]
          rfl
        · rw [if_neg hprotocol]
          exact Or.inl rfl
  · exact Or.inl rfl

section

variable {N : JsonLibrary} {Y : YamlLibrary} {files : PluginFiles} {s : PluginRegistry} {env : TestSurroundings}
  {r : InstrumentRegistry} {name configPath customPlugin configJson apiDefJson protocol : ByteString}

/-- Only the lookup of the plugin can still end the request: there is a configuration, the plugin can be loaded, the name is new and the worker would start. -/
structure LacksOnlyPlugin (files : PluginFiles) (env : TestSurroundings) (r : InstrumentRegistry)
    (configPath customPlugin name : ByteString) : Prop where
  configured : configPath ≠ []
  present : files.exists? customPlugin = true
  loads : ∃ metadata, files.load customPlugin = .ok metadata
  fresh : SortedAssoc.find? name r.instruments = none
  starts : env.start = .started

theorem pluginUsable_surroundings (hgiven : customPlugin ≠ []) :
    (s.surroundings files env customPlugin).PluginUsable customPlugin ↔
      files.exists? customPlugin = true ∧ ∃ metadata, files.load customPlugin = .ok metadata := by
  rw [StartSurroundings.PluginUsable, or_iff_right hgiven]
  simp only [PluginRegistry.surroundings]
  cases files.load customPlugin <;> simp

/-- The creation of a request with a plugin fails, or the worker runs what the lookup found. -/
theorem createRequested_surroundings (hgiven : customPlugin ≠ []) (hconfig : configPath ≠ [])
    (hload : loadConfig N Y env.files configPath = some (name, configJson, apiDefJson))
    (hprotocol : CreateRequest.protocol N ⟨name, configJson, apiDefJson, env.toSurroundings⟩ = some protocol) :
    let found := (s.loadRequested files customPlugin).getPluginPath protocol
    let created := createRequested N Y (s.surroundings files env customPlugin).toStartSurroundings r configPath customPlugin
    ((∃ r' error, created = (r', .error error)) ∧
        ¬ (LacksOnlyPlugin files env r configPath customPlugin name ∧ found ≠ [])) ∨
      ((∃ r', created = (r', .ok ()) ∧ r'.RunsPlugin name found) ∧
        LacksOnlyPlugin files env r configPath customPlugin name ∧ found ≠ []) := by
  intro found created
  have hload' : loadConfig N Y (s.surroundings files env customPlugin).files configPath =
      some (name, configJson, apiDefJson) := hload
  by_cases hnew : SortedAssoc.find? name r.instruments = none
  · have hproxy : CreateRequest.proxy N ⟨name, configJson, apiDefJson,
        (s.surroundings files env customPlugin).toSurroundings⟩ =
        if found ≠ [] ∧ env.start = .started then some ⟨name, found, configJson, apiDefJson⟩ else none := by
      have hprotocol' : CreateRequest.protocol N ⟨name, configJson, apiDefJson,
          (s.surroundings files env customPlugin).toSurroundings⟩ = some protocol := hprotocol
      rw [CreateRequest.proxy, hprotocol']
      rfl
    obtain ⟨hrefused, r', error, hcreated, -⟩ | ⟨husable, proxy, r', hsome, hcreated, hinstruments⟩ :=
      @createRequested_new N Y (s.surroundings files env customPlugin).toStartSurroundings r configPath customPlugin _ _ _
        hload' hnew
    · refine Or.inl ⟨⟨r', error, hcreated⟩, ?_⟩
      rintro ⟨honly, hfound⟩
      refine hrefused ⟨?_, ?_⟩
      · exact (pluginUsable_surroundings hgiven).mpr ⟨honly.present, honly.loads⟩
      · rw [hproxy, if_pos ⟨hfound, honly.starts⟩]
        rfl
    · rw [hproxy] at hsome
      obtain ⟨⟨hfound, hstarts⟩, hsome⟩ := Option.ite_none_right_eq_some.mp hsome
      obtain rfl := Option.some.inj hsome
      obtain ⟨hpresent, hloads⟩ := (pluginUsable_surroundings hgiven).mp husable
      refine Or.inr ⟨⟨r', hcreated, ⟨name, found, configJson, apiDefJson⟩, ?_, rfl⟩,
        ⟨hconfig, hpresent, hloads, hnew, hstarts⟩, hfound⟩
      rw [hinstruments, SortedAssoc.find?_insert_self]
  · refine Or.inl ⟨?_, fun h => hnew h.1.fresh⟩
    have hfalse : ∀ r', r.createInstrument N Y (s.surroundings files env customPlugin).toSurroundings configPath ≠
        (r', true) := by
      intro r' hcreate
      rw [createInstrument, hload'] at hcreate
      simp only [createInstrumentFromJson, if_pos (Option.isSome_iff_ne_none.mpr hnew)] at hcreate
      exact absurd (congrArg Prod.snd hcreate) (by simp [Except.toOption])
    generalize hresult : createRequested N Y (s.surroundings files env customPlugin).toStartSurroundings r configPath
      customPlugin = result
    obtain ⟨r', ended⟩ := result
    cases ended with
    | error error => exact ⟨r', error, hresult⟩
    | ok _ => exact absurd (createRequested_ok hresult) (hfalse r')

/-- What a registry finds for a protocol after loading the requested plugin is that plugin or nothing exactly if it was so before. -/
theorem requested_or_none_iff (hbacked : s.Backed) :
    ((s.loadRequested files customPlugin).getPluginPath protocol ≠ [] →
        (s.loadRequested files customPlugin).getPluginPath protocol = customPlugin) ↔
      (s.getPluginPath protocol = [] ∨ s.getPluginPath protocol = customPlugin) := by
  obtain heq | ⟨hnone, heq⟩ := @getPluginPath_loadRequested files s hbacked customPlugin protocol
  · rw [heq, or_iff_not_imp_left]
  · rw [heq]
    exact ⟨fun _ => Or.inl hnone, fun _ _ => rfl⟩

theorem InstrumentRegistry.RunsPlugin.unique {pluginPath pluginPath' : ByteString} (hruns : r.RunsPlugin name pluginPath)
    (hruns' : r.RunsPlugin name pluginPath') : pluginPath = pluginPath' := by
  obtain ⟨proxy, hproxy, rfl⟩ := hruns
  obtain ⟨proxy', hproxy', rfl⟩ := hruns'
  rw [hproxy] at hproxy'
  rw [Option.some.inj hproxy']

theorem handleStart_plugin_iff (hbacked : s.Backed) {params : Json}
    (hread : readStart params = .ok (configPath, customPlugin)) (hgiven : customPlugin ≠ [])
    (hload : loadConfig N Y env.files configPath = some (name, configJson, apiDefJson))
    (hprotocol : CreateRequest.protocol N ⟨name, configJson, apiDefJson, env.toSurroundings⟩ = some protocol) :
    StartRunsPlugin (handleStart N Y (s.surroundings files env customPlugin).toStartSurroundings r params) name
        customPlugin ↔
      (LacksOnlyPlugin files env r configPath customPlugin name →
        s.getPluginPath protocol = [] ∨ s.getPluginPath protocol = customPlugin) := by
  rw [← requested_or_none_iff hbacked, handleStart, hread]
  dsimp only
  by_cases hconfig : configPath = []
  · rw [if_pos hconfig]
    exact ⟨fun _ honly => absurd hconfig honly.configured, fun _ => Or.inl ⟨_, rfl⟩⟩
  · rw [if_neg hconfig]
    obtain ⟨⟨r', error, hcreated⟩, hnot⟩ | ⟨⟨r', hcreated, hruns⟩, honly, hfound⟩ :=
      @createRequested_surroundings N Y files s env r _ _ _ _ _ _ hgiven hconfig hload hprotocol
    · rw [hcreated]
      exact ⟨fun _ honly hfound => absurd ⟨honly, hfound⟩ hnot, fun _ => Or.inl ⟨error, rfl⟩⟩
    · rw [hcreated]
      dsimp only
      constructor
      · intro hstart _ _
        obtain ⟨error, hended⟩ | ⟨-, hstart⟩ := hstart
        · split at hended
          · have hcode := (HandlerEnd.returned.inj hended).1
            contradiction
          · have hcode := (HandlerEnd.returned.inj hended).1
            contradiction
        · refine hruns.unique ?_
          split at hstart <;> exact hstart
      · intro hall
        rw [← hall honly hfound]
        refine Or.inr ⟨?_, ?_⟩
        · split <;> rfl
        · split <;> exact hruns

theorem TestRun.runsPlugin_iff {run : TestRun} {pluginPath : ByteString} (hcreated : run.created = some r) :
    run.RunsPlugin name pluginPath ↔ r.RunsPlugin name pluginPath := by
  rw [TestRun.RunsPlugin, hcreated]

theorem created_testInstrument {instrument verb : ByteString} {paramValues : Json} :
    (testInstrument N env r instrument verb paramValues).created = some r := by
  rw [testInstrument]
  split
  · rfl
  · dsimp only
    split <;> rfl

theorem handleTest_plugin_iff (hbacked : s.Backed) {params : Json} {q : TestRequest}
    (hread : TestRequest.read params = .ok q) (hgiven : q.customPlugin ≠ [])
    (hload : loadConfig N Y env.files q.configPath = some (name, configJson, apiDefJson))
    (hprotocol : CreateRequest.protocol N ⟨name, configJson, apiDefJson, env.toSurroundings⟩ = some protocol) :
    (handleTest N Y (s.surroundings files env q.customPlugin) r params).RunsPlugin name q.customPlugin ↔
      (q.verb ≠ [] → LacksOnlyPlugin files env r q.configPath q.customPlugin name →
        s.getPluginPath protocol = [] ∨ s.getPluginPath protocol = q.customPlugin) := by
  rw [← @requested_or_none_iff files s q.customPlugin protocol hbacked, handleTest, hread]
  dsimp only
  by_cases hempty : q.configPath = [] ∨ q.verb = []
  · rw [if_pos hempty]
    refine ⟨fun _ hverb honly => ?_, fun _ => ⟨_, rfl⟩⟩
    exact absurd hempty (not_or.mpr ⟨honly.configured, hverb⟩)
  · rw [if_neg hempty]
    obtain ⟨hconfig, hverb⟩ := not_or.mp hempty
    obtain ⟨⟨r', error, hcreated⟩, hnot⟩ | ⟨⟨r', hcreated, hruns⟩, honly, hfound⟩ :=
      @createRequested_surroundings N Y files s env r _ _ _ _ _ _ hgiven hconfig hload hprotocol
    · rw [hcreated]
      exact ⟨fun _ _ honly hfound => absurd ⟨honly, hfound⟩ hnot, fun _ => ⟨error, rfl⟩⟩
    · rw [hcreated]
      dsimp only
      rw [@TestRun.runsPlugin_iff r']
      · constructor
        · exact fun hrequested _ _ _ => hruns.unique hrequested
        · intro hall
          rw [← hall hverb honly hfound]
          exact hruns
      · split
        · rfl
        · split
          · exact created_testInstrument
          · rfl

/-- With any history of the plugin registry, a request runs the plugin it names or ends with an error exactly where the protocol of its instrument has no plugin yet, has that one, or something else is in the way. -/
theorem requested_plugin_runs_iff (hreach : Reachable PluginRegistry.system s) {startParams testParams : Json}
    {q : TestRequest} (hstart : readStart startParams = .ok (configPath, customPlugin))
    (htest : TestRequest.read testParams = .ok q) (hpath : q.configPath = configPath)
    (hplugin : q.customPlugin = customPlugin) (hgiven : customPlugin ≠ [])
    (hload : loadConfig N Y env.files configPath = some (name, configJson, apiDefJson))
    (hprotocol : CreateRequest.protocol N ⟨name, configJson, apiDefJson, env.toSurroundings⟩ = some protocol) :
    (StartRunsPlugin (handleStart N Y (s.surroundings files env customPlugin).toStartSurroundings r startParams) name
        customPlugin ↔
      (LacksOnlyPlugin files env r configPath customPlugin name →
        s.getPluginPath protocol = [] ∨ s.getPluginPath protocol = customPlugin)) ∧
    ((handleTest N Y (s.surroundings files env customPlugin) r testParams).RunsPlugin name customPlugin ↔
      (q.verb ≠ [] → LacksOnlyPlugin files env r configPath customPlugin name →
        s.getPluginPath protocol = [] ∨ s.getPluginPath protocol = customPlugin)) := by
  subst hpath hplugin
  have hbacked := PluginRegistry.backed_of_reachable hreach
  exact ⟨handleStart_plugin_iff hbacked hstart hgiven hload hprotocol,
    handleTest_plugin_iff hbacked htest hgiven hload hprotocol⟩

theorem InstrumentRegistry.RunsPlugin.mem {pluginPath : ByteString} (hruns : r.RunsPlugin name pluginPath) :
    (name, pluginPath) ∈ r.instruments.map fun entry => (entry.1, entry.2.pluginPath) := by
  obtain ⟨proxy, hproxy, rfl⟩ := hruns
  exact List.mem_map_of_mem (SortedAssoc.mem_of_find? hproxy)

end

/-! ### Runs -/

def installedPlugin : ByteString := bytes "/usr/lib/instrument-plugins/visa_plugin.so"

def ownPlugin : ByteString := bytes "./my_plugin.so"

/-- An installed plugin and one of the user's, both for VISA instruments. -/
def visaFiles : PluginFiles where
  exists? path := path = installedPlugin || path = ownPlugin
  load path := if path = installedPlugin ∨ path = ownPlugin then .ok ⟨pluginApiVersion, bytes "VISA"⟩ else .error []
  directory _ := ⟨[], true⟩

/-- Parameters of a test of the meter with the user's plugin, which serve for its start as well. -/
def ownPluginTest : Json :=
  .object [(bytes "config_path", .string (bytes "/lab/dmm.yml")), (bytes "plugin", .string ownPlugin),
    (bytes "verb", .string (bytes "IDN"))]

def ownPluginRequest : TestRequest where
  configPath := bytes "/lab/dmm.yml"
  verb := bytes "IDN"
  customPlugin := ownPlugin
  paramValues := .object []

theorem protocol_meter :
    (loadConfig .compact .textOnly meterFiles (bytes "/lab/dmm.yml")).map (fun documents =>
      (documents.1, CreateRequest.protocol .compact
        ⟨documents.1, documents.2.1, documents.2.2, meterTest.toSurroundings⟩)) =
      some (bytes "dmm", some (bytes "VISA")) := by
  decide +kernel

/-- Without a plugin for VISA the requests run the user's plugin. -/
theorem requested_plugin_runs_meter :
    StartRunsPlugin (handleStart .compact .textOnly
      (PluginRegistry.surroundings visaFiles {} meterTest ownPlugin).toStartSurroundings {} ownPluginTest) (bytes "dmm")
        ownPlugin ∧
    (handleTest .compact .textOnly (PluginRegistry.surroundings visaFiles {} meterTest ownPlugin) {}
      ownPluginTest).RunsPlugin (bytes "dmm") ownPlugin := by
  obtain ⟨⟨name, configJson, apiDefJson⟩, hload, hview⟩ := Option.map_eq_some_iff.mp protocol_meter
  obtain ⟨rfl, hprotocol⟩ := Prod.mk.inj hview
  obtain ⟨hstart, htest⟩ := @requested_plugin_runs_iff .compact .textOnly visaFiles {} meterTest {} (bytes "dmm") _
    ownPlugin configJson apiDefJson _ .init ownPluginTest ownPluginTest ownPluginRequest rfl rfl rfl rfl (by decide) hload
    hprotocol
  exact ⟨hstart.mpr fun _ => Or.inl rfl, htest.mpr fun _ _ => Or.inl rfl⟩

/-- With the installed plugin loaded before, both requests succeed and run the installed one. -/
theorem requested_plugin_ignored :
    ∃ s, Reachable PluginRegistry.system s ∧
      ¬ StartRunsPlugin (handleStart .compact .textOnly
        (s.surroundings visaFiles meterTest ownPlugin).toStartSurroundings {} ownPluginTest) (bytes "dmm") ownPlugin ∧
      ¬ (handleTest .compact .textOnly (s.surroundings visaFiles meterTest ownPlugin) {} ownPluginTest).RunsPlugin
        (bytes "dmm") ownPlugin := by
  obtain ⟨s, hreach, hview⟩ := @ReachableWhile.of_any _ _ PluginRegistry.system (fun _ _ => True) _
    [(visaFiles, .loadBuiltinPlugins)]
    (fun s => (handleStart .compact .textOnly
        (s.surroundings visaFiles meterTest ownPlugin).toStartSurroundings {} ownPluginTest).2.isSuccess &&
      decide (((handleStart .compact .textOnly
        (s.surroundings visaFiles meterTest ownPlugin).toStartSurroundings {} ownPluginTest).1.instruments.map
          fun entry => (entry.1, entry.2.pluginPath)) = [(bytes "dmm", installedPlugin)]) &&
      decide (((handleTest .compact .textOnly (s.surroundings visaFiles meterTest ownPlugin) {}
        ownPluginTest).created.map fun r => r.instruments.map fun entry => (entry.1, entry.2.pluginPath)) =
          some [(bytes "dmm", installedPlugin)]))
    (by decide +kernel)
  simp only [Bool.and_eq_true, decide_eq_true_eq] at hview
  obtain ⟨⟨hsuccess, hstart⟩, htest⟩ := hview
  refine ⟨s, hreach, ?_, ?_⟩
  · rintro (⟨error, hended⟩ | ⟨-, hruns⟩)
    · rw [hended] at hsuccess
      contradiction
    · have hmem := hruns.mem
      rw [hstart] at hmem
      exact absurd hmem (by decide)
  · obtain ⟨r, hcreated, hinstruments⟩ := Option.map_eq_some_iff.mp htest
    intro hruns
    have hmem := ((TestRun.runsPlugin_iff hcreated).mp hruns).mem
    rw [hinstruments] at hmem
    exact absurd hmem (by decide)

end InstrumentServer
