import InstrumentServer.Server.CommandHandlers
import InstrumentServer.Server.ParallelDispatch
import InstrumentServer.Server.RegistryAtomicity

/-!
# The instrument that a request creates

`start` and `test` create the instrument of a configuration and then take the last name of the registry's listing for its name. `test` sends its verb to the proxy of that name and removes the instrument of that name, unless an exception comes in between. The names are listed in map order, so the last one is the new one exactly when the new one is the greatest.
-/

namespace InstrumentServer

open HandlerEnd InstrumentRegistry InstrumentWorkerProxy Transition

/-! ### `test` -/

/-- What `test` catches once it has an instrument. -/
inductive TestError where
  | parameter (error : JsonError)
  /-- the parameters are a list or a scalar, whose items have no keys -/
  | noKey
  | encoding
deriving DecidableEq

/-- What `test` finds: also the proxies when it sends, whether the queue takes the message, what `execute_sync` returns after at most five seconds, and the texts of the exceptions. -/
structure TestSurroundings extends StartSurroundings where
  proxies : ByteString → InstrumentWorkerProxy
  named : ∀ name, (proxies name).instrumentName = name
  taken : Bool
  response : SerializedCommand → CommandResponse
  what : TestError → ByteString

/-- What `test` leaves: the registry, also as it was right behind the creation, the commands it handed to proxies under their names, and its end. -/
structure TestRun where
  registry : InstrumentRegistry
  created : Option InstrumentRegistry := none
  sent : List (ByteString × SerializedCommand) := []
  ended : HandlerEnd

structure TestRequest where
  configPath : ByteString
  verb : ByteString
  customPlugin : ByteString
  paramValues : Json

def TestRequest.read (params : Json) : Except JsonError TestRequest := do
  let configPath ← params.value Json.getString (bytes "config_path") []
  let verb ← params.value Json.getString (bytes "verb") []
  let customPlugin ← params.value Json.getString (bytes "plugin") []
  let _ ← params.value Json.getString (bytes "log_level") (bytes "info")
  let paramValues ← params.value Except.ok (bytes "params") (.object [])
  return { configPath, verb, customPlugin, paramValues }

/-- The parameter a JSON value becomes: its text where it is neither a number nor a boolean nor a string. -/
def convertParam (N : JsonLibrary) : Json → Except TestError ParamValue
  | .integer value => .ok (.int64 value)
  | .unsigned value => .ok (.int64 value.toInt64)
  | .float value => .ok (.double value)
  | .boolean value => .ok (.boolean value)
  | .string value => .ok (.string value)
  | value => ((N.dump value).map .string).mapError .parameter

def convertFields (N : JsonLibrary) (params : ParamMap) : List (ByteString × Json) → Except TestError ParamMap
  | [] => .ok params
  | (key, value) :: fields => do convertFields N (params.insert key (← convertParam N value)) fields

/-- The loop over the given parameters; a scalar is a sequence of itself. -/
def convertParams (N : JsonLibrary) : Json → Except TestError ParamMap
  | .object fields => convertFields N .empty fields
  | .null => .ok .empty
  | .array [] => .ok .empty
  | .array (item :: _) => do
      let _ ← convertParam N item
      throw .noKey
  | value => do
      let _ ← convertParam N value
      throw .noKey

def testCommand (instrument verb : ByteString) (params : ParamMap) : SerializedCommand :=
  { id := bytes "rpc-test-cmd", instrumentName := instrument, verb, params, expectsResponse := true }

/-- The value of a response as `test` shows it: a list is left out. -/
def returnJson : ParamValue → Option Json
  | .doubles _ => none
  | value => some (Ipc.paramJson value)

def reportResponse (resp : CommandResponse) : HandlerEnd :=
  let value := if resp.success then resp.returnValue.bind returnJson else none
  .returned (if resp.success then 0 else 1)
    (fields ([(bytes "ok", .boolean resp.success), (bytes "success", .boolean resp.success),
      (bytes "error_message", .string resp.errorMessage), (bytes "text_response", .string resp.textResponse)] ++
      value.toList.map fun value => (bytes "return_value", value)))

/-- The part of `test` behind the lookup of the proxy. -/
def testInstrument (N : JsonLibrary) (env : TestSurroundings) (r : InstrumentRegistry)
    (instrument verb : ByteString) (paramValues : Json) : TestRun :=
  match convertParams N paramValues with
  | .error e => { registry := r, created := some r, ended := failed (bytes "exception: " ++ env.what e) }
  | .ok params =>
      let cmd := testCommand instrument verb params
      match (env.proxies instrument).executeOutcome N cmd env.taken with
      | .sent _ =>
          { registry := r.removeInstrument instrument, created := some r, sent := [(instrument, cmd)],
            ended := reportResponse (env.response cmd) }
      | _ => { registry := r, created := some r, ended := failed (bytes "exception: " ++ env.what .encoding) }

def handleTest (N : JsonLibrary) (Y : YamlLibrary) (env : TestSurroundings) (r : InstrumentRegistry) (params : Json) :
    TestRun :=
  match TestRequest.read params with
  | .error e => { registry := r, ended := .jsonError e }
  | .ok { configPath, verb, customPlugin, paramValues } =>
      if configPath = [] ∨ verb = [] then { registry := r, ended := failed (bytes "missing config_path or verb") }
      else
        match createRequested N Y env.toStartSurroundings r configPath customPlugin with
        | (r, .error error) => { registry := r, ended := failed error }
        | (r, .ok ()) =>
            match r.instruments.getLast? with
            | none => { registry := r, created := some r, ended := failed (bytes "no instrument created") }
            | some (instrument, _) =>
                if (SortedAssoc.find? instrument r.instruments).isSome then
                  testInstrument N env r instrument verb paramValues
                else
                  { registry := r.removeInstrument instrument, created := some r,
                    ended := failed (bytes "failed to get instrument proxy") }

/-! ### What a creation does -/

namespace InstrumentRegistry

/-- The protocol type of the API definition, where both documents can be read. -/
def CreateRequest.protocol (N : JsonLibrary) (q : CreateRequest) : Option ByteString :=
  match N.parse q.configJson, N.parse q.apiDefJson with
  | .ok _, .ok apiDef => (protocolType apiDef).toOption
  | _, _ => none

/-- What the proxy of a new name is constructed with: nothing without a plugin for the protocol, or if its worker does not start. -/
def CreateRequest.proxy (N : JsonLibrary) (q : CreateRequest) : Option ProxyArguments :=
  (q.protocol N).bind fun protocol =>
    if q.env.getPluginPath protocol ≠ [] ∧ q.env.start = .started then
      some ⟨q.name, q.env.getPluginPath protocol, q.configJson, q.apiDefJson⟩
    else none

/-- A creation under a new name registers the proxy, if there is one. -/
theorem create_new {N : JsonLibrary} {r : InstrumentRegistry} {q : CreateRequest}
    (hnew : SortedAssoc.find? q.name r.instruments = none) :
    (r.create N q).1.instruments = (q.proxy N).elim r.instruments
        (fun proxy => SortedAssoc.insert q.name proxy r.instruments) ∧
      (r.create N q).2.toOption.getD false = (q.proxy N).isSome := by
  rw [create, createInstrumentFromJson, if_neg (by simp [hnew])]
  rw [CreateRequest.proxy, CreateRequest.protocol]
  cases N.parse q.configJson with
  | error e => exact ⟨rfl, rfl⟩
  | ok config =>
      cases N.parse q.apiDefJson with
      | error e => exact ⟨rfl, rfl⟩
      | ok apiDef =>
          dsimp only
          cases protocolType apiDef with
          | error e => exact ⟨rfl, rfl⟩
          | ok protocol =>
              simp only [Except.toOption, Option.bind_some]
              by_cases hplugin : q.env.getPluginPath protocol = []
              · rw [if_pos hplugin, if_neg fun h => h.1 hplugin]
                exact ⟨rfl, rfl⟩
              · rw [if_neg hplugin]
                cases hstart : q.env.start <;> simp [hplugin, eraseMetadata, storeMetadata]

theorem sorted_create {N : JsonLibrary} {r : InstrumentRegistry} (hsorted : SortedAssoc.Sorted r.instruments)
    (q : CreateRequest) : SortedAssoc.Sorted (r.create N q).1.instruments := by
  by_cases hnew : SortedAssoc.find? q.name r.instruments = none
  · rw [(create_new hnew).1]
    cases q.proxy N with
    | none => exact hsorted
    | some proxy => exact SortedAssoc.sorted_insert hsorted q.name proxy
  · rw [create, createInstrumentFromJson, if_pos (Option.isSome_iff_ne_none.mpr hnew)]
    exact hsorted

/-- The instruments are listed in the order of their names. -/
theorem sorted_of_reachable {N : JsonLibrary} {Y : YamlLibrary} {r : InstrumentRegistry}
    (hreach : Reachable (system N Y) r) : SortedAssoc.Sorted r.instruments := by
  have hcreation : ∀ {r r' : InstrumentRegistry} {label : RegistryLabel} {created : Bool},
      SortedAssoc.Sorted r.instruments → r.creation N Y label = some (r', created) →
        SortedAssoc.Sorted r'.instruments := by
    intro r r' label created hsorted hcreation
    obtain ⟨-, rfl, -⟩ | ⟨q, -, rfl, -⟩ := creation_cases hcreation
    · exact hsorted
    · exact sorted_create hsorted q
  refine @ReachableWhile.invariant _ _ (system N Y) _ (fun r => SortedAssoc.Sorted r.instruments) List.Pairwise.nil ?_
    _ hreach
  intro r r' label hsorted _ hnext
  obtain rfl := Option.some.inj hnext
  cases label with
  | createInstrument configPath env => exact @hcreation r _ (.createInstrument configPath env) _ hsorted rfl
  | createInstrumentFromJson name configJson apiDefJson env =>
      exact @hcreation r _ (.createInstrumentFromJson name configJson apiDefJson env) _ hsorted rfl
  | removeInstrument name =>
      show SortedAssoc.Sorted (r.removeInstrument name).instruments
      rw [InstrumentRegistry.removeInstrument]
      split
      · exact SortedAssoc.sorted_erase hsorted name
      · exact hsorted
  | stopAll => exact List.Pairwise.nil

end InstrumentRegistry

/-- The file given with `--plugin` can be used. -/
def StartSurroundings.PluginUsable (env : StartSurroundings) (customPlugin : ByteString) : Prop :=
  customPlugin = [] ∨ (env.pluginExists = true ∧ env.pluginError = none)

instance (env : StartSurroundings) (customPlugin : ByteString) : Decidable (env.PluginUsable customPlugin) :=
  inferInstanceAs (Decidable (_ ∨ _))

/-- A request that names a configuration comes to a new instrument. -/
def StartSurroundings.Creates (env : StartSurroundings) (N : JsonLibrary) (configPath customPlugin : ByteString)
    (q : CreateRequest) : Prop :=
  configPath ≠ [] ∧ env.PluginUsable customPlugin ∧ (q.proxy N).isSome

/-- A request for a new instrument either leaves the instruments alone or registers the proxy. -/
theorem createRequested_new {N : JsonLibrary} {Y : YamlLibrary} {env : StartSurroundings} {r : InstrumentRegistry}
    {configPath customPlugin name configJson apiDefJson : ByteString}
    (hload : loadConfig N Y env.files configPath = some (name, configJson, apiDefJson))
    (hnew : SortedAssoc.find? name r.instruments = none) :
    let q : CreateRequest := { name, configJson, apiDefJson, env := env.toSurroundings }
    (¬ (env.PluginUsable customPlugin ∧ (q.proxy N).isSome) ∧
        ∃ r' error, createRequested N Y env r configPath customPlugin = (r', .error error) ∧
          r'.instruments = r.instruments) ∨
      (env.PluginUsable customPlugin ∧ ∃ proxy r', q.proxy N = some proxy ∧
        createRequested N Y env r configPath customPlugin = (r', .ok ()) ∧
          r'.instruments = SortedAssoc.insert name proxy r.instruments) := by
  intro q
  obtain ⟨hinstruments, hcreated⟩ := @create_new N r q hnew
  have hcreate : r.createInstrument N Y env.toSurroundings configPath =
      ((r.create N q).1, (r.create N q).2.toOption.getD false) := by
    rw [createInstrument, hload]
    rfl
  rw [hcreated] at hcreate
  by_cases husable : env.PluginUsable customPlugin
  · have hpass : ¬ (customPlugin ≠ [] ∧ ¬ env.pluginExists) := by
      rintro ⟨hgiven, hmissing⟩
      exact hmissing (husable.resolve_left hgiven).1
    have hloads : (if customPlugin = [] then none else env.pluginError) = none := by
      split
      · rfl
      · rename_i hgiven
        exact (husable.resolve_left hgiven).2
    rw [createRequested, if_neg hpass, hloads, hcreate]
    cases hproxy : q.proxy N with
    | none =>
        rw [hproxy] at hinstruments
        exact Or.inl ⟨fun h => by simp at h, _, _, rfl, hinstruments⟩
    | some proxy =>
        rw [hproxy] at hinstruments
        exact Or.inr ⟨husable, proxy, _, rfl, rfl, hinstruments⟩
  · refine Or.inl ⟨fun h => husable h.1, ?_⟩
    rw [createRequested]
    split
    · exact ⟨_, _, rfl, rfl⟩
    · rename_i hpass
      have hgiven : customPlugin ≠ [] := fun hempty => husable (Or.inl hempty)
      rw [if_neg hgiven]
      cases herror : env.pluginError with
      | some what => exact ⟨_, _, rfl, rfl⟩
      | none =>
          refine absurd (Or.inr ⟨?_, herror⟩) husable
          by_contra hmissing
          exact hpass ⟨hgiven, hmissing⟩

/-! ### Whom the requests act on -/

/-- A reply of `start` that reports success names the instrument. -/
def NamesInstrument (name : ByteString) : HandlerEnd → Prop
  | .returned 0 out => (out.field (bytes "instrument") >>= Json.getString).toOption = some name
  | _ => True

instance (name : ByteString) : (ended : HandlerEnd) → Decidable (NamesInstrument name ended)
  | .returned 0 _ => inferInstanceAs (Decidable (_ = some name))
  | .returned (_ + 1) _ => inferInstanceAs (Decidable True)
  | .blocked _ => inferInstanceAs (Decidable True)
  | .jsonError _ => inferInstanceAs (Decidable True)
  | .systemError => inferInstanceAs (Decidable True)
  | .terminated => inferInstanceAs (Decidable True)

/-- `test` hands its verb to the proxy of `name` and to no other one, and the instruments are the same as before. -/
structure TestRun.ActsOn (run : TestRun) (name verb : ByteString) (before : InstrumentRegistry) : Prop where
  sentTo : ∀ call ∈ run.sent, call.1 = name ∧ call.2.instrumentName = name ∧ call.2.verb = verb
  answered : ∀ rc out, run.ended = .returned rc out → out.contains (bytes "success") = true → run.sent ≠ []
  unchanged : run.registry.instruments = before.instruments

/-- The parameters of the test become those of a command that can be encoded. -/
def Testable (N : JsonLibrary) (name verb : ByteString) (paramValues : Json) : Prop :=
  ∃ params, convertParams N paramValues = .ok params ∧ (testCommand name verb params).Encodable

/-- The name comes after those of all registered instruments. -/
def InstrumentRegistry.Precedes (r : InstrumentRegistry) (name : ByteString) : Prop :=
  ∀ entry ∈ r.instruments, entry.1 < name

theorem namesInstrument_failed (name error : ByteString) : NamesInstrument name (failed error) := trivial

theorem namesInstrument_succeeded {name last : ByteString} :
    NamesInstrument name (succeeded [(bytes "instrument", .string last)]) ↔ last = name := by
  have hfield : ((fields [(bytes "ok", .boolean true), (bytes "instrument", .string last)]).field (bytes "instrument") >>=
      Json.getString).toOption = some last := by
    simp [fields, Json.field, Json.set, Json.getString, Except.toOption, bind, Except.bind]
  show _ = some name ↔ _
  rw [hfield, Option.some_inj]

/-- The instrument that the listing of a registry with a new instrument ends with. -/
theorem getLast?_insert_new {r : InstrumentRegistry} {name : ByteString} {proxy : ProxyArguments}
    (hsorted : SortedAssoc.Sorted r.instruments) (hnew : SortedAssoc.find? name r.instruments = none) :
    (r.Precedes name ∧ (SortedAssoc.insert name proxy r.instruments).getLast? = some (name, proxy)) ∨
      (¬ r.Precedes name ∧ ∃ last, (SortedAssoc.insert name proxy r.instruments).getLast? = some last ∧
        last.1 ≠ name) := by
  by_cases hlast : r.Precedes name
  · exact Or.inl ⟨hlast, SortedAssoc.getLast?_insert_after proxy hlast⟩
  · obtain ⟨after, hmem, hlt⟩ := SortedAssoc.exists_after hsorted hnew hlast
    obtain ⟨last, hfind⟩ := Option.isSome_iff_exists.mp
      (List.getLast?_isSome.mpr (List.ne_nil_of_mem hmem))
    refine Or.inr ⟨hlast, last, ?_, ?_⟩
    · rw [SortedAssoc.getLast?_insert_before proxy hsorted hmem hlt, hfind]
    · rintro rfl
      have hknown := SortedAssoc.find?_of_mem hsorted (List.mem_of_getLast? hfind)
      rw [hnew] at hknown
      contradiction

section

variable {N : JsonLibrary} {Y : YamlLibrary} {r : InstrumentRegistry}
  {name configPath customPlugin configJson apiDefJson : ByteString} {params : Json}

theorem handleStart_names_iff {env : StartSurroundings} (hsorted : SortedAssoc.Sorted r.instruments)
    (hnew : SortedAssoc.find? name r.instruments = none) (hread : readStart params = .ok (configPath, customPlugin))
    (hload : loadConfig N Y env.files configPath = some (name, configJson, apiDefJson)) :
    NamesInstrument name (handleStart N Y env r params).2 ↔
      (env.Creates N configPath customPlugin { name, configJson, apiDefJson, env := env.toSurroundings } →
        r.Precedes name) := by
  rw [handleStart, hread]
  dsimp only
  by_cases hpath : configPath = []
  · rw [if_pos hpath]
    exact ⟨fun _ hcreates => absurd hpath hcreates.1, fun _ => namesInstrument_failed _ _⟩
  · rw [if_neg hpath]
    obtain ⟨hrefused, r', error, hcreated, -⟩ | ⟨husable, proxy, r', hproxy, hcreated, hinstruments⟩ :=
      @createRequested_new N Y env r configPath customPlugin _ _ _ hload hnew
    · rw [hcreated]
      exact ⟨fun _ hcreates => absurd hcreates.2 hrefused, fun _ => namesInstrument_failed _ _⟩
    · rw [hcreated]
      dsimp only
      rw [hinstruments]
      obtain ⟨hlast, hget⟩ | ⟨hnot, last, hget, hne⟩ := @getLast?_insert_new r name proxy hsorted hnew
      · rw [hget]
        exact ⟨fun _ _ => hlast, fun _ => namesInstrument_succeeded.mpr rfl⟩
      · rw [hget]
        constructor
        · intro hnames
          exact absurd (namesInstrument_succeeded.mp hnames) hne
        · intro hall
          exact absurd (hall ⟨hpath, husable, by rw [hproxy]; rfl⟩) hnot

/-- A test that ends before it has an instrument does nothing. -/
theorem actsOn_failed {run : TestRun} {verb error : ByteString} (hsent : run.sent = []) (hended : run.ended = failed error)
    (hunchanged : run.registry.instruments = r.instruments) : run.ActsOn name verb r := by
  refine ⟨?_, ?_, hunchanged⟩
  · intro call hcall
    rw [hsent] at hcall
    contradiction
  · intro rc out hreturned hcontains
    rw [hended] at hreturned
    rw [← (HandlerEnd.returned.inj hreturned).2] at hcontains
    simp only [fields, Json.contains, Json.set, List.foldl_cons, List.foldl_nil, SortedAssoc.find?_insert,
      SortedAssoc.find?_nil] at hcontains
    rw [if_neg (by decide), if_neg (by decide)] at hcontains
    contradiction

/-- Whatever becomes of the command, an instrument of another name stays registered. -/
theorem find?_testInstrument {env : TestSurroundings} {instrument verb : ByteString} {paramValues : Json}
    (hne : name ≠ instrument) :
    SortedAssoc.find? name (testInstrument N env r instrument verb paramValues).registry.instruments =
      SortedAssoc.find? name r.instruments := by
  rw [testInstrument]
  split
  · rfl
  · dsimp only
    split
    · rw [removeInstrument]
      split
      · rw [SortedAssoc.find?_erase, if_neg hne]
      · rfl
    · rfl

/-- The new instrument is removed again, unless its command is never sent. -/
theorem testInstrument_actsOn_iff {env : TestSurroundings} {r' : InstrumentRegistry} {proxy : ProxyArguments}
    {verb : ByteString} {paramValues : Json} (hnew : SortedAssoc.find? name r.instruments = none)
    (hinstruments : r'.instruments = SortedAssoc.insert name proxy r.instruments) :
    (testInstrument N env r' name verb paramValues).ActsOn name verb r ↔ Testable N name verb paramValues := by
  have hknown : SortedAssoc.find? name r'.instruments = some proxy := by
    rw [hinstruments, SortedAssoc.find?_insert_self]
  have hkept : r'.instruments ≠ r.instruments := by
    intro heq
    rw [heq, hnew] at hknown
    contradiction
  have hremoved : (r'.removeInstrument name).instruments = r.instruments := by
    rw [removeInstrument, if_pos (by rw [hknown]; rfl), hinstruments, SortedAssoc.erase_insert proxy hnew]
  rw [testInstrument]
  cases hconvert : convertParams N paramValues with
  | error e =>
      constructor
      · exact fun hacts => absurd hacts.unchanged hkept
      · rintro ⟨params, hparams, -⟩
        rw [hconvert] at hparams
        contradiction
  | ok params =>
      dsimp only
      have hvalid := @validText_numberedCommand (env.proxies name) (testCommand name verb params) (env.named name)
      by_cases hencodable : (testCommand name verb params).Encodable
      · rw [executeOutcome_of_valid (hvalid.mpr hencodable)]
        refine ⟨fun _ => ⟨params, hconvert, hencodable⟩, fun _ => ⟨?_, ?_, hremoved⟩⟩
        · intro call hcall
          obtain rfl := List.mem_singleton.mp hcall
          exact ⟨rfl, rfl, rfl⟩
        · exact fun _ _ _ _ => List.cons_ne_nil _ _
      · rw [executeOutcome_of_invalid (mt hvalid.mp hencodable)]
        constructor
        · exact fun hacts => absurd hacts.unchanged hkept
        · rintro ⟨other, hother, hothers⟩
          rw [hconvert] at hother
          obtain rfl := Except.ok.inj hother
          exact absurd hothers hencodable

theorem handleTest_actsOn_iff {env : TestSurroundings} {q : TestRequest} (hsorted : SortedAssoc.Sorted r.instruments)
    (hnew : SortedAssoc.find? name r.instruments = none) (hread : TestRequest.read params = .ok q)
    (hload : loadConfig N Y env.files q.configPath = some (name, configJson, apiDefJson)) :
    (handleTest N Y env r params).ActsOn name q.verb r ↔
      (q.verb ≠ [] →
        env.Creates N q.configPath q.customPlugin { name, configJson, apiDefJson, env := env.toSurroundings } →
          r.Precedes name ∧ Testable N name q.verb q.paramValues) := by
  rw [handleTest, hread]
  dsimp only
  by_cases hempty : q.configPath = [] ∨ q.verb = []
  · rw [if_pos hempty]
    refine ⟨fun _ hverb hcreates => ?_, fun _ => actsOn_failed rfl rfl rfl⟩
    exact absurd hempty (not_or.mpr ⟨hcreates.1, hverb⟩)
  · rw [if_neg hempty]
    obtain ⟨hpath, hverb⟩ := not_or.mp hempty
    obtain ⟨hrefused, r', error, hcreated, hunchanged⟩ | ⟨husable, proxy, r', hproxy, hcreated, hinstruments⟩ :=
      @createRequested_new N Y env.toStartSurroundings r q.configPath q.customPlugin _ _ _ hload hnew
    · rw [hcreated]
      exact ⟨fun _ _ hcreates => absurd hcreates.2 hrefused, fun _ => actsOn_failed rfl rfl hunchanged⟩
    · rw [hcreated]
      dsimp only
      have hcreates : env.Creates N q.configPath q.customPlugin
          { name, configJson, apiDefJson, env := env.toSurroundings } := ⟨hpath, husable, by rw [hproxy]; rfl⟩
      rw [forall_prop_of_true hverb, forall_prop_of_true hcreates, hinstruments]
      obtain ⟨hlast, hget⟩ | ⟨hnot, last, hget, hne⟩ := @getLast?_insert_new r name proxy hsorted hnew
      · rw [hget]
        dsimp only
        rw [SortedAssoc.find?_insert_self, Option.isSome_some, if_pos rfl, testInstrument_actsOn_iff hnew hinstruments,
          and_iff_right hlast]
      · rw [hget]
        dsimp only
        refine ⟨fun hacts => ?_, fun hall => absurd hall.1 hnot⟩
        -- the new instrument is not the one that is removed
        have hknown : SortedAssoc.find? name r'.instruments = some proxy := by
          rw [hinstruments, SortedAssoc.find?_insert_self]
        have hgone := hacts.unchanged
        have hfind : SortedAssoc.find? last.1 (SortedAssoc.insert name proxy r.instruments) = some last.2 :=
          SortedAssoc.find?_of_mem (SortedAssoc.sorted_insert hsorted name proxy) (List.mem_of_getLast? hget)
        rw [hfind, Option.isSome_some, if_pos rfl] at hgone
        have hstill := @find?_testInstrument N r' name env last.1 q.verb q.paramValues (Ne.symm hne)
        rw [hgone, hnew, hknown] at hstill
        contradiction

/-- `start` and `test` act on the instrument they create exactly where its name comes after all others and, for `test`, the command can be sent. -/
theorem acts_on_created_iff {env : TestSurroundings} {startParams testParams : Json} {q : TestRequest}
    (hsorted : SortedAssoc.Sorted r.instruments) (hnew : SortedAssoc.find? name r.instruments = none)
    (hload : loadConfig N Y env.files configPath = some (name, configJson, apiDefJson))
    (hstart : readStart startParams = .ok (configPath, customPlugin)) (htest : TestRequest.read testParams = .ok q)
    (hpath : q.configPath = configPath) :
    (NamesInstrument name (handleStart N Y env.toStartSurroundings r startParams).2 ↔
      (env.Creates N configPath customPlugin { name, configJson, apiDefJson, env := env.toSurroundings } →
        r.Precedes name)) ∧
    ((handleTest N Y env r testParams).ActsOn name q.verb r ↔
      (q.verb ≠ [] →
        env.Creates N configPath q.customPlugin { name, configJson, apiDefJson, env := env.toSurroundings } →
          r.Precedes name ∧ Testable N name q.verb q.paramValues)) := by
  subst hpath
  exact ⟨handleStart_names_iff hsorted hnew hstart hload, handleTest_actsOn_iff hsorted hnew htest hload⟩

end

/-! ### Runs -/

/-- The lab of the meter, whose worker answers every command. -/
def meterTest : TestSurroundings where
  toSurroundings := meterLab .started
  proxies name := { instrumentName := name }
  named _ := rfl
  taken := true
  response cmd := { instrumentName := cmd.instrumentName, success := true }
  what _ := []

/-- Parameters of a test of the meter, which serve for its start as well. -/
def identityTest : Json :=
  .object [(bytes "config_path", .string (bytes "/lab/dmm.yml")), (bytes "params", .object [(bytes "channel", .integer 1)]),
    (bytes "verb", .string (bytes "IDN"))]

def identityRequest : TestRequest where
  configPath := bytes "/lab/dmm.yml"
  verb := bytes "IDN"
  customPlugin := []
  paramValues := .object [(bytes "channel", .integer 1)]

/-- A registry with one instrument. -/
def registryOf (name : ByteString) : InstrumentRegistry where
  instruments := [(name, ⟨name, bytes "visa_plugin.so", emptyDocument, apiOfType (bytes "VISA")⟩)]

theorem loadConfig_meter :
    (loadConfig .compact .textOnly meterFiles (bytes "/lab/dmm.yml")).map Prod.fst = some (bytes "dmm") := by
  decide +kernel

/-- With an instrument that comes before the meter, both requests act on the meter. -/
theorem acts_on_created_meter :
    NamesInstrument (bytes "dmm")
      (handleStart .compact .textOnly meterTest.toStartSurroundings (registryOf (bytes "adc")) identityTest).2 ∧
    (handleTest .compact .textOnly meterTest (registryOf (bytes "adc")) identityTest).ActsOn (bytes "dmm") (bytes "IDN")
      (registryOf (bytes "adc")) := by
  obtain ⟨⟨name, configJson, apiDefJson⟩, hload, rfl⟩ := Option.map_eq_some_iff.mp loadConfig_meter
  obtain ⟨hstart, htest⟩ := @acts_on_created_iff .compact .textOnly (registryOf (bytes "adc")) (bytes "dmm") _ [] configJson
    apiDefJson meterTest identityTest identityTest identityRequest (by decide) (by decide) hload rfl rfl rfl
  have hprecedes : (registryOf (bytes "adc")).Precedes (bytes "dmm") := by
    intro entry hentry
    obtain rfl := List.mem_singleton.mp hentry
    decide
  have hparams : convertParams .compact (.object [(bytes "channel", .integer 1)]) =
      .ok (ParamMap.empty.insert (bytes "channel") (.int64 1)) := rfl
  refine ⟨hstart.mpr fun _ => hprecedes, htest.mpr fun _ _ => ⟨hprecedes, _, hparams, ?_⟩⟩
  refine ⟨ByteString.validUtf8_bytes _, ByteString.validUtf8_bytes _, fun entry hentry => ?_⟩
  obtain rfl := List.mem_singleton.mp hentry
  exact ⟨ByteString.validUtf8_bytes _, trivial⟩

/-- What `test` does to a registry, seen by names. -/
def TestRun.names (run : TestRun) : List ByteString × List ByteString :=
  (run.sent.map Prod.fst, run.registry.instruments.map Prod.fst)

/-- With an instrument that comes after the meter, the reply of `start` names that one, and `test` sends its verb to that one and removes it; the meter stays. -/
theorem acts_on_other_scope :
    ∃ r, Reachable (system .compact .textOnly) r ∧ SortedAssoc.find? (bytes "dmm") r.instruments = none ∧
      (loadConfig .compact .textOnly meterFiles (bytes "/lab/dmm.yml")).map Prod.fst = some (bytes "dmm") ∧
      ¬ NamesInstrument (bytes "dmm")
        (handleStart .compact .textOnly meterTest.toStartSurroundings r identityTest).2 ∧
      (handleTest .compact .textOnly meterTest r identityTest).names = ([bytes "scope"], [bytes "dmm"]) ∧
      ¬ (handleTest .compact .textOnly meterTest r identityTest).ActsOn (bytes "dmm") (bytes "IDN") r := by
  obtain ⟨r, hreach, hview⟩ := @Transition.ReachableWhile.of_any _ _ (system .compact .textOnly) (fun _ _ => True) _
    [.createInstrumentFromJson (bytes "scope") emptyDocument (apiOfType (bytes "VISA")) (meterLab .started)]
    (fun r => (SortedAssoc.find? (bytes "dmm") r.instruments).isNone &&
      decide (¬ NamesInstrument (bytes "dmm")
        (handleStart .compact .textOnly meterTest.toStartSurroundings r identityTest).2) &&
      decide ((handleTest .compact .textOnly meterTest r identityTest).names = ([bytes "scope"], [bytes "dmm"])))
    (by decide +kernel)
  simp only [Bool.and_eq_true, decide_eq_true_eq, Option.isNone_iff_eq_none] at hview
  obtain ⟨⟨hnew, hnames⟩, hrun⟩ := hview
  refine ⟨r, hreach, hnew, loadConfig_meter, hnames, hrun, fun hacts => ?_⟩
  obtain ⟨call, hsent, hcall⟩ := List.map_eq_singleton_iff.mp (congrArg Prod.fst hrun)
  obtain ⟨hname, -, -⟩ := hacts.sentTo call (by rw [hsent]; exact List.mem_singleton_self call)
  rw [hcall] at hname
  exact absurd hname (by decide)

end InstrumentServer
