import InstrumentServer.Server.PluginRegistry

/-!
# Discovering and listing plugins

`discover` and `plugins` search directories for plugins before they list what is loaded; each has a flag of its own that makes it load the built-in plugins once. A directory that cannot be read ends the search with an exception, and what was found before stays. No request unloads a plugin, so what was listed once stays listed with its path, and a request that comes again in the same surroundings finds nothing new and ends in the same way.

The registry keeps its plugins in a hash map, which has an order of its own.
-/

namespace InstrumentServer

open HandlerEnd Transition

/-- The order in which a hash map gives its keys. -/
structure HashOrder where
  order : List ByteString → List ByteString
  perm : ∀ keys, (order keys).Perm keys

/-- The directories that are searched without being told. -/
def defaultSearchPaths : List ByteString :=
  [bytes "/usr/local/lib/instrument-plugins", bytes "/usr/lib/instrument-plugins", bytes "./plugins", bytes "."]

namespace PluginRegistry

def listProtocols (H : HashOrder) (s : PluginRegistry) : List ByteString := H.order (s.plugins.map Prod.fst)

end PluginRegistry

structure PluginServer where
  registry : PluginRegistry := {}
  /-- the flag of `handle_discover` -/
  pluginsInitFlag : Bool := false
  /-- the flag of `handle_plugins` -/
  pluginsInitFlag2 : Bool := false

namespace PluginServer

/-! ### The handlers -/

/-- The directories that `discover` searches. -/
def searchPaths (params : Json) : Except JsonError (List ByteString) :=
  match params.member? (bytes "paths") with
  | some (.array items) => items.mapM Json.getString
  | _ => .ok defaultSearchPaths

/-- The `call_once` of `handle_discover`: the registry behind it, and whether nothing was thrown. -/
def discoverOnce (files : PluginFiles) (s : PluginServer) (paths : List ByteString) : PluginRegistry × Bool :=
  if s.pluginsInitFlag then (s.registry, true) else (s.registry.loadBuiltinPlugins files).discoverPlugins files paths

/-- The server afterwards, and whether nothing was thrown. An exception in `call_once` leaves the flag as it was. -/
def discover (files : PluginFiles) (s : PluginServer) (paths : List ByteString) : PluginServer × Bool :=
  let once := s.discoverOnce files paths
  let found := if once.2 then once.1.discoverPlugins files paths else once
  ({ s with registry := found.1, pluginsInitFlag := once.2 }, found.2)

def handleDiscover (files : PluginFiles) (H : HashOrder) (s : PluginServer) (params : Json) :
    PluginServer × HandlerEnd :=
  match searchPaths params with
  | .error e => (s, .jsonError e)
  | .ok paths =>
      match s.discover files paths with
      | (s, true) =>
          (s, succeeded [(bytes "protocols", .array ((s.registry.listProtocols H).map .string)),
            (bytes "paths", .array (paths.map .string))])
      | (s, false) => (s, .systemError)

def refresh (files : PluginFiles) (s : PluginServer) : PluginServer × Bool :=
  let registry := if s.pluginsInitFlag2 then s.registry else s.registry.loadBuiltinPlugins files
  let found := registry.discoverPlugins files defaultSearchPaths
  ({ s with registry := found.1, pluginsInitFlag2 := true }, found.2)

/-- The protocols with the paths of their plugins, as `plugins` lists them. -/
def listing (H : HashOrder) (s : PluginServer) : List (ByteString × ByteString) :=
  (s.registry.listProtocols H).map fun protocol => (protocol, s.registry.getPluginPath protocol)

def pluginsReply (listed : List (ByteString × ByteString)) : HandlerEnd :=
  succeeded [(bytes "plugins", .array (listed.map fun plugin =>
      fields [(bytes "protocol", .string plugin.1), (bytes "path", .string plugin.2)])),
    (bytes "total", .unsigned (UInt64.ofNat listed.length))]

def handlePlugins (files : PluginFiles) (H : HashOrder) (s : PluginServer) : PluginServer × HandlerEnd :=
  match s.refresh files with
  | (s, true) => (s, pluginsReply (s.listing H))
  | (s, false) => (s, .systemError)

/-! ### Runs -/

/-- The requests that come to the registry. -/
inductive Request where
  | discover (params : Json)
  | plugins
  /-- `start` or `test` with a plugin -/
  | load (customPlugin : ByteString)

def step (files : PluginFiles) (s : PluginServer) : Request → PluginServer
  | .discover params =>
      match searchPaths params with
      | .error _ => s
      | .ok paths => (s.discover files paths).1
  | .plugins => (s.refresh files).1
  | .load customPlugin => { s with registry := s.registry.loadRequested files customPlugin }

/-- Every sequence of requests, each with the files it finds. -/
def system : System PluginServer (PluginFiles × Request) where
  init := {}
  step s label := some (s.step label.1 label.2)

/-! ### What a request can do -/

/-- The file is a plugin of the right version, and it says that it is for this protocol or it is one of the built-in plugins for it. -/
def Loadable (files : PluginFiles) (protocol path : ByteString) : Prop :=
  ∃ metadata, files.load path = .ok metadata ∧ metadata.apiVersion = pluginApiVersion ∧
    (metadata.protocolType = protocol ∨ ∃ builtin ∈ builtins, builtin.1 = protocol ∧ path ∈ builtin.2)

/-- Any number of loads, each for a protocol that was new, from a path in the relation `R` to it. -/
inductive Loads (R : ByteString → ByteString → Prop) (s : PluginRegistry) : PluginRegistry → Prop where
  | none : Loads R s s
  | load {t : PluginRegistry} {protocol path : ByteString} {metadata : PluginMetadata} (hloads : Loads R s t)
      (hnew : t.hasPlugin protocol = false) (hrelated : R protocol path) :
      Loads R s { plugins := SortedAssoc.insert protocol metadata t.plugins,
                  pluginPaths := SortedAssoc.insert protocol path t.pluginPaths }

variable {R : ByteString → ByteString → Prop} {files : PluginFiles}

theorem Loads.trans {s t u : PluginRegistry} (hfirst : Loads R s t) (hsecond : Loads R t u) : Loads R s u := by
  induction hsecond with
  | none => exact hfirst
  | load _ hnew hrelated ih => exact ih.load hnew hrelated

theorem loads_loadPlugin {s : PluginRegistry} {protocol path : ByteString}
    (hrelated : ∀ metadata, files.load path = .ok metadata → metadata.apiVersion = pluginApiVersion → R protocol path) :
    Loads R s (s.loadPlugin files protocol path).1 := by
  rw [PluginRegistry.loadPlugin]
  split
  · exact .none
  · rename_i hnew
    split
    · exact .none
    · rename_i metadata hload
      split
      · exact .none
      · rename_i hversion
        exact Loads.none.load (Bool.eq_false_iff.mpr hnew) (hrelated metadata hload (not_not.mp hversion))

theorem loads_foldl {α : Type} {f : PluginRegistry → α → PluginRegistry} {items : List α}
    (hstep : ∀ s, ∀ item ∈ items, Loads R s (f s item)) (s : PluginRegistry) : Loads R s (items.foldl f s) := by
  induction items generalizing s with
  | nil => exact .none
  | cons item items ih =>
      refine (hstep s item List.mem_cons_self).trans (ih (fun s item hitem => ?_) _)
      exact hstep s item (List.mem_cons_of_mem _ hitem)

theorem loads_loadFirst {protocol : ByteString} {paths : List ByteString}
    (hrelated : ∀ path ∈ paths, ∀ metadata, files.load path = .ok metadata → metadata.apiVersion = pluginApiVersion →
      R protocol path) (s : PluginRegistry) : Loads R s (PluginRegistry.loadFirst files protocol s paths) := by
  induction paths generalizing s with
  | nil => exact .none
  | cons path paths ih =>
      obtain ⟨hpath, hrest⟩ := List.forall_mem_cons.mp hrelated
      rw [PluginRegistry.loadFirst]
      split
      · have hloads : Loads R s (s.loadPlugin files protocol path).1 := loads_loadPlugin hpath
        split
        · rename_i s' heq
          rw [heq] at hloads
          exact hloads
        · rename_i s' heq
          rw [heq] at hloads
          exact hloads.trans (ih hrest s')
      · exact ih hrest s

section

variable (hfiles : ∀ protocol path, Loadable files protocol path → R protocol path)

include hfiles

theorem loads_own {s : PluginRegistry} {path : ByteString} {metadata : PluginMetadata}
    (hload : files.load path = .ok metadata) : Loads R s (s.loadPlugin files metadata.protocolType path).1 := by
  refine loads_loadPlugin fun other hother hversion => ?_
  rw [hload] at hother
  obtain rfl := Except.ok.inj hother
  exact hfiles _ _ ⟨metadata, hload, hversion, Or.inl rfl⟩

theorem loads_loadBuiltinPlugins (s : PluginRegistry) : Loads R s (s.loadBuiltinPlugins files) := by
  refine loads_foldl (fun s builtin hbuiltin => ?_) s
  split
  · exact .none
  · exact loads_loadFirst (fun path hpath metadata hload hversion =>
      hfiles _ _ ⟨metadata, hload, hversion, Or.inr ⟨builtin, hbuiltin, rfl, hpath⟩⟩) s

theorem loads_discoverEntry (s : PluginRegistry) (entry : DirectoryEntry) :
    Loads R s (PluginRegistry.discoverEntry files s entry) := by
  rw [PluginRegistry.discoverEntry]
  split
  · split
    · exact .none
    · rename_i metadata hload
      split
      · exact .none
      · exact loads_own hfiles hload
  · exact .none

theorem loads_discoverPlugins (s : PluginRegistry) (paths : List ByteString) :
    Loads R s (s.discoverPlugins files paths).1 := by
  rw [PluginRegistry.discoverPlugins_eq]
  exact loads_foldl (fun s entry _ => loads_discoverEntry hfiles s entry) s

theorem loads_loadRequested (s : PluginRegistry) (customPlugin : ByteString) :
    Loads R s (s.loadRequested files customPlugin) := by
  rw [PluginRegistry.loadRequested]
  split
  · split
    · exact .none
    · rename_i metadata hload
      exact loads_own hfiles hload
  · exact .none

theorem loads_discoverOnce (s : PluginServer) (paths : List ByteString) :
    Loads R s.registry (s.discoverOnce files paths).1 := by
  rw [discoverOnce]
  split
  · exact .none
  · exact (loads_loadBuiltinPlugins hfiles _).trans (loads_discoverPlugins hfiles _ _)

theorem loads_discover (s : PluginServer) (paths : List ByteString) :
    Loads R s.registry (s.discover files paths).1.registry := by
  have honce := loads_discoverOnce hfiles s paths
  rw [discover]
  dsimp only
  split
  · exact honce.trans (loads_discoverPlugins hfiles _ _)
  · exact honce

theorem loads_refresh (s : PluginServer) : Loads R s.registry (s.refresh files).1.registry := by
  have hfirst : Loads R s.registry
      (if s.pluginsInitFlag2 then s.registry else s.registry.loadBuiltinPlugins files) := by
    split
    · exact .none
    · exact loads_loadBuiltinPlugins hfiles _
  exact hfirst.trans (loads_discoverPlugins hfiles _ _)

/-- Whatever comes in, plugins are only added. -/
theorem loads_step (s : PluginServer) (request : Request) : Loads R s.registry (s.step files request).registry := by
  cases request with
  | discover params =>
      rw [step]
      split
      · exact .none
      · exact loads_discover hfiles s _
  | plugins => exact loads_refresh hfiles s
  | load customPlugin => exact loads_loadRequested hfiles s.registry customPlugin

end

/-! ### What loads keep -/

/-- The two maps have the same keys in order, and what is there is in the relation. -/
structure Consistent (R : ByteString → ByteString → Prop) (s : PluginRegistry) : Prop where
  sorted : SortedAssoc.Sorted s.plugins
  paths : ∀ protocol, s.hasPlugin protocol = true ↔ (SortedAssoc.find? protocol s.pluginPaths).isSome = true
  related : ∀ protocol path, SortedAssoc.find? protocol s.pluginPaths = some path → R protocol path

theorem Consistent.loads {s t : PluginRegistry} (hs : Consistent R s) (hloads : Loads R s t) : Consistent R t := by
  induction hloads with
  | none => exact hs
  | @load t protocol path metadata _ hnew hrelated ih =>
      refine ⟨SortedAssoc.sorted_insert ih.sorted _ _, fun other => ?_, fun other found hfound => ?_⟩
      · rw [PluginRegistry.hasPlugin, SortedAssoc.find?_insert, SortedAssoc.find?_insert]
        split
        · simp
        · exact ih.paths other
      · rw [SortedAssoc.find?_insert] at hfound
        split at hfound
        · rename_i hsame
          rw [hsame, ← Option.some.inj hfound]
          exact hrelated
        · exact ih.related other found hfound

/-- A plugin that is there stays with its path. -/
theorem Loads.keeps {s t : PluginRegistry} (hs : Consistent R s) (hloads : Loads R s t) {protocol path : ByteString}
    (hfound : SortedAssoc.find? protocol s.pluginPaths = some path) :
    SortedAssoc.find? protocol t.pluginPaths = some path := by
  induction hloads with
  | none => exact hfound
  | @load t other _ _ hloads hnew _ ih =>
      have hplugin : t.hasPlugin protocol = true := by
        rw [(hs.loads hloads).paths, ih]
        rfl
      have hdifferent : protocol ≠ other := by
        rintro rfl
        rw [hnew] at hplugin
        contradiction
      rw [SortedAssoc.find?_insert, if_neg hdifferent]
      exact ih

theorem Loads.hasPlugin {s t : PluginRegistry} (hloads : Loads R s t) {protocol : ByteString}
    (hplugin : s.hasPlugin protocol = true) : t.hasPlugin protocol = true := by
  induction hloads with
  | none => exact hplugin
  | load _ _ _ ih =>
      rw [PluginRegistry.hasPlugin, SortedAssoc.find?_insert]
      split
      · rfl
      · exact ih

/-! ### A request that comes again -/

/-- Looking at the entry again does nothing. -/
def Settled (files : PluginFiles) (s : PluginRegistry) (entry : DirectoryEntry) : Prop :=
  entry.isRegularFile ∧ (bytes ".so").isSuffixOf entry.filename → ∀ metadata, files.load entry.path = .ok metadata →
    metadata.apiVersion = pluginApiVersion → s.hasPlugin metadata.protocolType = true

theorem Settled.loads {s t : PluginRegistry} {entry : DirectoryEntry} (hs : Settled files s entry) (hloads : Loads R s t) :
    Settled files t entry :=
  fun hentry metadata hload hversion => hloads.hasPlugin (hs hentry metadata hload hversion)

theorem settled_discoverEntry (s : PluginRegistry) (entry : DirectoryEntry) :
    Settled files (PluginRegistry.discoverEntry files s entry) entry := by
  intro hentry metadata hload hversion
  rw [PluginRegistry.discoverEntry, if_pos hentry, hload]
  dsimp only
  split
  · rename_i hplugin
    exact hplugin
  · rename_i hnew
    rw [PluginRegistry.loadPlugin, if_neg hnew, hload]
    dsimp only
    rw [if_neg (not_not.mpr hversion), PluginRegistry.hasPlugin, SortedAssoc.find?_insert_self]
    rfl

theorem discoverEntry_of_settled {s : PluginRegistry} {entry : DirectoryEntry} (hs : Settled files s entry) :
    PluginRegistry.discoverEntry files s entry = s := by
  rw [PluginRegistry.discoverEntry]
  split
  · rename_i hentry
    split
    · rfl
    · rename_i metadata hload
      split
      · rfl
      · rename_i hnew
        have hversion : metadata.apiVersion ≠ pluginApiVersion := fun hversion => hnew (hs hentry metadata hload hversion)
        rw [PluginRegistry.loadPlugin, if_neg hnew, hload]
        dsimp only
        rw [if_pos hversion]
  · rfl

/-- The same search in the same files finds nothing new, also later, and ends in the same way. -/
theorem discoverPlugins_again (s : PluginRegistry) {t : PluginRegistry} (paths : List ByteString)
    (hlater : Loads R (s.discoverPlugins files paths).1 t) :
    t.discoverPlugins files paths = (t, (s.discoverPlugins files paths).2) := by
  rw [PluginRegistry.discoverPlugins_eq] at hlater ⊢
  rw [PluginRegistry.discoverPlugins_eq]
  refine Prod.ext (Lists.foldl_of_settled (fun s entry => discoverEntry_of_settled) fun entry hentry => ?_) rfl
  have hsettled : Settled files ((PluginRegistry.searched files paths).entries.foldl (PluginRegistry.discoverEntry files) s)
      entry := Lists.settled_foldl_of_mem settled_discoverEntry
    (fun s entry other hs => hs.loads (loads_discoverEntry (fun _ _ _ => trivial) s other)) hentry
  exact hsettled.loads hlater

/-- Looking for the built-in plugin again does nothing: it is there, or none of its files can be loaded. -/
def BuiltinSettled (files : PluginFiles) (s : PluginRegistry) (builtin : ByteString × List ByteString) : Prop :=
  s.hasPlugin builtin.1 = true ∨ ∀ path ∈ builtin.2, files.exists? path = true → ∀ metadata, files.load path = .ok metadata →
    metadata.apiVersion ≠ pluginApiVersion

theorem BuiltinSettled.loads {s t : PluginRegistry} {builtin : ByteString × List ByteString}
    (hs : BuiltinSettled files s builtin) (hloads : Loads R s t) : BuiltinSettled files t builtin :=
  hs.imp_left hloads.hasPlugin

theorem builtinSettled_loadFirst {s : PluginRegistry} {protocol : ByteString} (hnew : s.hasPlugin protocol = false)
    (paths : List ByteString) : BuiltinSettled files (PluginRegistry.loadFirst files protocol s paths) (protocol, paths) := by
  induction paths with
  | nil => exact Or.inr fun path hpath => absurd hpath List.not_mem_nil
  | cons path paths ih =>
      have hskipped : (files.exists? path = true → ∀ metadata, files.load path = .ok metadata →
          metadata.apiVersion ≠ pluginApiVersion) →
          BuiltinSettled files (PluginRegistry.loadFirst files protocol s paths) (protocol, path :: paths) :=
        fun hpath => ih.imp_right fun hrest => List.forall_mem_cons.mpr ⟨hpath, hrest⟩
      rw [PluginRegistry.loadFirst, PluginRegistry.loadPlugin, if_neg (Bool.eq_false_iff.mp hnew)]
      by_cases hexists : files.exists? path = true
      · rw [if_pos hexists]
        cases hload : files.load path with
        | error what => exact hskipped fun _ metadata hmetadata => by simp [hload] at hmetadata
        | ok metadata =>
            dsimp only
            by_cases hversion : metadata.apiVersion ≠ pluginApiVersion
            · rw [if_pos hversion]
              refine hskipped fun _ other hother => ?_
              rw [hload] at hother
              exact Except.ok.inj hother ▸ hversion
            · rw [if_neg hversion]
              refine Or.inl ?_
              rw [PluginRegistry.hasPlugin, SortedAssoc.find?_insert_self]
              rfl
      · rw [if_neg hexists]
        exact hskipped fun h => absurd h hexists

theorem loadFirst_of_unloadable {s : PluginRegistry} {protocol : ByteString} {paths : List ByteString}
    (hpaths : ∀ path ∈ paths, files.exists? path = true → ∀ metadata, files.load path = .ok metadata →
      metadata.apiVersion ≠ pluginApiVersion) : PluginRegistry.loadFirst files protocol s paths = s := by
  induction paths with
  | nil => rfl
  | cons path paths ih =>
      obtain ⟨hpath, hrest⟩ := List.forall_mem_cons.mp hpaths
      rw [PluginRegistry.loadFirst]
      split
      · rename_i hexists
        have hfails : s.loadPlugin files protocol path = (s, false) := by
          rw [PluginRegistry.loadPlugin]
          split
          · rfl
          · cases hload : files.load path with
            | error what => rfl
            | ok metadata => exact if_pos (hpath hexists metadata hload)
        rw [hfails]
        exact ih hrest
      · exact ih hrest

/-- Once the built-in plugins were looked for, looking again in the same files does nothing. -/
theorem loadBuiltinPlugins_again (s : PluginRegistry) {t : PluginRegistry} (hlater : Loads R (s.loadBuiltinPlugins files) t) :
    t.loadBuiltinPlugins files = t := by
  have hself : ∀ (s : PluginRegistry) (builtin : ByteString × List ByteString), BuiltinSettled files
      (if s.hasPlugin builtin.1 then s else PluginRegistry.loadFirst files builtin.1 s builtin.2) builtin := by
    intro s builtin
    split
    · exact Or.inl ‹_›
    · rename_i hnew
      exact builtinSettled_loadFirst (Bool.eq_false_iff.mpr hnew) builtin.2
  refine @Lists.foldl_of_settled _ _ _ (BuiltinSettled files) (fun s builtin hs => ?_) t builtins fun builtin hbuiltin => ?_
  · split
    · rfl
    · rename_i hnew
      exact loadFirst_of_unloadable (hs.resolve_left hnew)
  · refine BuiltinSettled.loads ?_ hlater
    refine @Lists.settled_foldl_of_mem _ _ _ (BuiltinSettled files) hself (fun s builtin other hs => ?_) _ _ _ hbuiltin
    split
    · exact hs
    · exact hs.loads (@loads_loadFirst (fun _ _ => True) files _ _ (fun _ _ _ _ _ => trivial) s)

/-- After an exception `call_once` calls again, and comes to the same end. -/
theorem discoverOnce_again (s : PluginServer) (paths : List ByteString) {r : PluginRegistry}
    (honce : s.discoverOnce files paths = (r, false)) :
    ({ s with registry := r, pluginsInitFlag := false } : PluginServer).discoverOnce files paths = (r, false) := by
  rw [discoverOnce] at honce
  split at honce
  · simp at honce
  · have hloads : Loads (fun _ _ => True) (s.registry.loadBuiltinPlugins files)
        ((s.registry.loadBuiltinPlugins files).discoverPlugins files paths).1 :=
      loads_discoverPlugins (fun _ _ _ => trivial) _ paths
    have hagain := @discoverPlugins_again (fun _ _ => True) files (s.registry.loadBuiltinPlugins files) _ paths .none
    rw [honce] at hloads hagain
    rw [discoverOnce, if_neg Bool.false_ne_true, loadBuiltinPlugins_again s.registry hloads]
    exact hagain

theorem discover_again (s : PluginServer) (paths : List ByteString) :
    (s.discover files paths).1.discover files paths = s.discover files paths := by
  rcases honce : s.discoverOnce files paths with ⟨r, ended⟩
  cases ended with
  | true =>
      -- the flag is set, and only the second search comes again
      have hagain := @discoverPlugins_again (fun _ _ => True) files r _ paths .none
      have hset : ∀ q, ({ s with registry := q, pluginsInitFlag := true } : PluginServer).discoverOnce files paths =
          (q, true) := fun q => if_pos rfl
      simp only [discover, honce, if_true, hset, hagain]
  | false =>
      have hagain := discoverOnce_again s paths honce
      simp only [discover, honce, Bool.false_eq_true, if_false, hagain]

theorem refresh_again (s : PluginServer) : (s.refresh files).1.refresh files = s.refresh files := by
  have hagain := @discoverPlugins_again (fun _ _ => True) files
    (if s.pluginsInitFlag2 then s.registry else s.registry.loadBuiltinPlugins files) _ defaultSearchPaths .none
  simp only [refresh, if_true, hagain]

theorem handlePlugins_again (s : PluginServer) (files : PluginFiles) (H : HashOrder) :
    (s.handlePlugins files H).1.handlePlugins files H = s.handlePlugins files H := by
  have hagain := @refresh_again files s
  rcases hfirst : s.refresh files with ⟨t, complete⟩
  rw [hfirst] at hagain
  cases complete with
  | true =>
      have hhandled : s.handlePlugins files H = (t, pluginsReply (t.listing H)) := by rw [handlePlugins, hfirst]
      rw [hhandled, handlePlugins, hagain]
  | false =>
      have hhandled : s.handlePlugins files H = (t, .systemError) := by rw [handlePlugins, hfirst]
      rw [hhandled, handlePlugins, hagain]

theorem handleDiscover_again (s : PluginServer) (files : PluginFiles) (H : HashOrder) (params : Json) :
    (s.handleDiscover files H params).1.handleDiscover files H params = s.handleDiscover files H params := by
  cases hpaths : searchPaths params with
  | error e =>
      have hhandled : s.handleDiscover files H params = (s, .jsonError e) := by rw [handleDiscover, hpaths]
      rw [hhandled, hhandled]
  | ok paths =>
      have hagain := @discover_again files s paths
      rcases hfirst : s.discover files paths with ⟨t, complete⟩
      rw [hfirst] at hagain
      have hhandled : ∀ (u : PluginServer), u.discover files paths = (t, complete) →
          u.handleDiscover files H params =
            (t, if complete then succeeded [(bytes "protocols", .array ((t.registry.listProtocols H).map .string)),
              (bytes "paths", .array (paths.map .string))] else .systemError) := by
        intro u hu
        rw [handleDiscover, hpaths]
        dsimp only
        rw [hu]
        cases complete <;> rfl
      rw [hhandled s hfirst, hhandled t hagain]

/-! ### Every run -/

/-- The plugins a request finds are in the relation. -/
def Offers (R : ByteString → ByteString → Prop) (_ : PluginServer) (label : PluginFiles × Request) : Prop :=
  ∀ protocol path, Loadable label.1 protocol path → R protocol path

theorem consistent_of_reachable {s : PluginServer} (hreach : ReachableWhile system (Offers R) s) :
    Consistent R s.registry := by
  have hinit : Consistent R system.init.registry :=
    ⟨List.Pairwise.nil, by simp [PluginRegistry.hasPlugin, system], by simp [system]⟩
  refine @ReachableWhile.invariant _ _ system (Offers R) (fun s => Consistent R s.registry) hinit ?_ s hreach
  rintro s t ⟨files, request⟩ hs hoffers hnext
  obtain rfl := Option.some.inj hnext
  exact hs.loads (loads_step hoffers s request)

theorem mem_listing {s : PluginServer} (hs : Consistent R s.registry) (H : HashOrder) {protocol path : ByteString} :
    (protocol, path) ∈ s.listing H ↔ SortedAssoc.find? protocol s.registry.pluginPaths = some path := by
  have hkeys : protocol ∈ s.registry.plugins.map Prod.fst ↔ s.registry.hasPlugin protocol = true := by
    rw [PluginRegistry.hasPlugin, Option.isSome_iff_exists, List.mem_map]
    constructor
    · rintro ⟨⟨_, metadata⟩, hmem, rfl⟩
      exact ⟨metadata, SortedAssoc.find?_of_mem hs.sorted hmem⟩
    · rintro ⟨metadata, hfind⟩
      exact ⟨(protocol, metadata), SortedAssoc.mem_of_find? hfind, rfl⟩
  have hlisted : protocol ∈ s.registry.listProtocols H ↔ (SortedAssoc.find? protocol s.registry.pluginPaths).isSome = true := by
    rw [PluginRegistry.listProtocols, (H.perm _).mem_iff, hkeys, hs.paths]
  rw [listing, List.mem_map]
  constructor
  · rintro ⟨protocol', hmem, heq⟩
    obtain ⟨rfl, rfl⟩ := Prod.mk.inj heq
    obtain ⟨path, hpath⟩ := Option.isSome_iff_exists.mp (hlisted.mp hmem)
    rw [PluginRegistry.getPluginPath, hpath]
    rfl
  · intro hpath
    refine ⟨protocol, hlisted.mpr (by rw [hpath]; rfl), ?_⟩
    rw [PluginRegistry.getPluginPath, hpath]
    rfl

theorem nodup_listing {s : PluginServer} (hs : Consistent R s.registry) (H : HashOrder) :
    ((s.listing H).map Prod.fst).Nodup := by
  have hself : (s.listing H).map Prod.fst = s.registry.listProtocols H := by
    rw [listing, List.map_map]
    exact List.map_id _
  have hkeys : (s.registry.plugins.map Prod.fst).Pairwise (· < ·) := List.pairwise_map.mpr hs.sorted
  rw [hself, PluginRegistry.listProtocols, (H.perm _).nodup_iff]
  exact hkeys.imp ne_of_lt

end PluginServer

open PluginServer in
/-- In every run, `plugins` lists every protocol once, with the path of a plugin that could be loaded for it; what is listed stays listed with its path whatever requests follow; and `plugins` and `discover`, asked again in the same files, change nothing and end in the same way. -/
theorem plugins_listed {R : ByteString → ByteString → Prop} {s : PluginServer}
    (hreach : ReachableWhile system (Offers R) s) (H : HashOrder) :
    (((s.listing H).map Prod.fst).Nodup ∧ ∀ plugin ∈ s.listing H, R plugin.1 plugin.2) ∧
      (∀ t H', ReachableWhile (system.startingAt s) (Offers R) t → ∀ plugin ∈ s.listing H, plugin ∈ t.listing H') ∧
      (∀ files, (s.handlePlugins files H).1.handlePlugins files H = s.handlePlugins files H) ∧
      ∀ files params, (s.handleDiscover files H params).1.handleDiscover files H params = s.handleDiscover files H params := by
  have hs := consistent_of_reachable hreach
  refine ⟨⟨nodup_listing hs H, fun plugin hplugin => ?_⟩, fun t H' hlater => ?_, fun files => ?_, fun files params => ?_⟩
  · exact hs.related _ _ ((mem_listing hs H).mp hplugin)
  · have hkept : Consistent R t.registry ∧ ∀ protocol path, SortedAssoc.find? protocol s.registry.pluginPaths = some path →
        SortedAssoc.find? protocol t.registry.pluginPaths = some path := by
      refine @ReachableWhile.invariant _ _ (system.startingAt s) (Offers R) (fun t => Consistent R t.registry ∧
        ∀ protocol path, SortedAssoc.find? protocol s.registry.pluginPaths = some path →
          SortedAssoc.find? protocol t.registry.pluginPaths = some path) ⟨hs, fun _ _ => id⟩ ?_ t hlater
      rintro t u ⟨files, request⟩ ⟨ht, hkeeps⟩ hoffers hnext
      obtain rfl := Option.some.inj hnext
      have hloads := loads_step hoffers t request
      exact ⟨ht.loads hloads, fun protocol path hfound => hloads.keeps ht (hkeeps protocol path hfound)⟩
    rintro ⟨protocol, path⟩ hplugin
    exact (mem_listing hkept.1 H').mpr (hkept.2 protocol path ((mem_listing hs H).mp hplugin))
  · exact handlePlugins_again s files H
  · exact handleDiscover_again s files H params

open PluginServer in
/-- A request has brought its own plugin, and later the installed one is there as well. -/
theorem plugins_listed_ownPlugin :
    ∃ s, ReachableWhile system (Offers fun protocol _ => protocol = bytes "VISA") s ∧
      s.listing ⟨id, List.Perm.refl⟩ = [(bytes "VISA", ownPlugin)] ∧
      (s.handlePlugins visaFiles ⟨id, List.Perm.refl⟩).1.handlePlugins visaFiles ⟨id, List.Perm.refl⟩ =
        s.handlePlugins visaFiles ⟨id, List.Perm.refl⟩ := by
  have hoffers : Offers (fun protocol _ => protocol = bytes "VISA") {} (visaFiles, .load ownPlugin) := by
    rintro protocol path ⟨metadata, hload, -, hsame | ⟨builtin, hbuiltin, hsame, -⟩⟩
    · have hmetadata : metadata.protocolType = bytes "VISA" := by
        rw [visaFiles] at hload
        dsimp only at hload
        split at hload
        · rw [← Except.ok.inj hload]
        · simp at hload
      exact hsame.symm.trans hmetadata
    · rw [List.mem_singleton.mp hbuiltin] at hsame
      exact hsame.symm
  have hreach : ReachableWhile system (Offers fun protocol _ => protocol = bytes "VISA")
      (PluginServer.step visaFiles {} (.load ownPlugin)) := ReachableWhile.init.step hoffers rfl
  exact ⟨_, hreach, by decide +kernel, (plugins_listed hreach ⟨id, List.Perm.refl⟩).2.2.1 visaFiles⟩

end InstrumentServer
