import InstrumentServer.Validation.TemplateExpander

/-!
# The configuration generator

`generate_instrument_configuration` writes a configuration with an entry for every io of an API that an operator can set or read. Three pieces have to agree on what such an io looks like: the validator of APIs lets every type and every role pass, the generator copies what it finds, and the validator of configurations allows four types and wants `io_config` to be a map, which the generator's is only if there is an entry.

The file is taken to be read back as the tree that was written.
-/

namespace InstrumentServer

open YamlNode

/-! ### The generator -/

/-- The entry of an io in the configuration. -/
def configuredEntry (Y : YamlLibrary) (role : ByteString) (io : Option YamlNode) : Except YamlError YamlNode := do
  let type ← Y.textAt (bytes "type") io
  let unit ← copiedText Y (bytes "unit") io
  return .map ([(.scalar (bytes "type"), .scalar type), (.scalar (bytes "role"), .scalar role)] ++ unit ++
    [(.scalar (bytes "offset"), .scalar (bytes "0")), (.scalar (bytes "scale"), .scalar (bytes "1"))])

/-- The round of the loop over the ios. -/
def configureIo (Y : YamlLibrary) (ioConfig : YamlNode) (io : Option YamlNode) : Except YamlError YamlNode := do
  let role ← Y.textAt (bytes "role") io
  if role ∈ configuredRoles then
    let name ← Y.textAt (bytes "name") io
    let entry ← configuredEntry Y role io
    return .map (setEntry name entry (← mapEntries ioConfig))
  else return ioConfig

/-- The document that is written; `io_config` is null until something is assigned. -/
def generateInstrumentConfiguration (Y : YamlLibrary) (apiYamlPath : ByteString) (api : YamlNode) :
    Except YamlError YamlNode := do
  let ioConfig ← (items (← api.get (bytes "io"))).foldlM (configureIo Y) .null
  return .map [(.scalar (bytes "name"), .scalar (bytes "INSTRUMENT_NAME")),
    (.scalar (bytes "api_ref"), .scalar apiYamlPath),
    (.scalar (bytes "connection"), textMap [(bytes "type", bytes "VISA"),
      (bytes "address", bytes "TCPIP::192.168.0.1::INSTR::0")]),
    (.scalar (bytes "io_config"), ioConfig)]

/-! ### What a configuration is to be -/

/-- The ios of an API. -/
def apiIos (api : YamlNode) : List YamlNode :=
  match api.get (bytes "io") with
  | .ok (some (.sequence nodes)) => nodes
  | _ => []

def Configurable (Y : YamlLibrary) (io : YamlNode) : Bool :=
  match Y.textAt (bytes "role") (some io) with
  | .ok role => role ∈ configuredRoles
  | .error _ => false

/-- The ios of role input, output or inout. -/
def configurableIos (Y : YamlLibrary) (api : YamlNode) : List YamlNode := (apiIos api).filter (Configurable Y)

/-- An entry of the configuration is that of an io: it has its name, type and role. -/
def Configures (Y : YamlLibrary) (entry : YamlNode × YamlNode) (io : YamlNode) : Prop :=
  ∃ name type role, Y.textAt (bytes "name") (some io) = .ok name ∧ Y.textAt (bytes "type") (some io) = .ok type ∧
    Y.textAt (bytes "role") (some io) = .ok role ∧ Y.text (some entry.1) = .ok name ∧
    Y.textAt (bytes "type") (some entry.2) = .ok type ∧ Y.textAt (bytes "role") (some entry.2) = .ok role

/-- A configuration is written, it is valid, and its entries are one for each configurable io. -/
def GeneratesValid (Y : YamlLibrary) (what : YamlError → ByteString) (apiYamlPath : ByteString) (api : YamlNode) : Prop :=
  ∃ config entries, generateInstrumentConfiguration Y apiYamlPath api = .ok config ∧
    (validateInstrumentConfiguration Y what (.ok config)).valid = true ∧
    config.get (bytes "io_config") = .ok (some (.map entries)) ∧
    ∃ ios, ios.Perm (configurableIos Y api) ∧ List.Forall₂ (Configures Y) entries ios

/-- What the API has to be like beyond what its validator checks. -/
structure SuitsGenerator (Y : YamlLibrary) (api : YamlNode) : Prop where
  roles : ∀ io ∈ apiIos api, ∃ role, Y.textAt (bytes "role") (some io) = .ok role
  nonempty : configurableIos Y api ≠ []
  named : ∀ io ∈ configurableIos Y api, Named Y io
  typed : ∀ io ∈ configurableIos Y api, ∃ type ∈ configuredTypes, Y.textAt (bytes "type") (some io) = .ok type
  units : ∀ io ∈ configurableIos Y api, ∀ value, io.get (bytes "unit") = .ok (some value) →
    ∃ text, Y.text (some value) = .ok text
  distinct : ((configurableIos Y api).map (entryName Y)).Nodup

section

variable {Y : YamlLibrary}

/-! ### What the generator writes -/

/-- What is read of one io: the name and the entry of a configurable one. -/
def configuration (Y : YamlLibrary) (io : YamlNode) : Except YamlError (Option (ByteString × YamlNode)) := do
  let role ← Y.textAt (bytes "role") (some io)
  if role ∈ configuredRoles then
    let name ← Y.textAt (bytes "name") (some io)
    let entry ← configuredEntry Y role (some io)
    return some (name, entry)
  else return none

/-- `io_config` with these entries. -/
def ioConfigNode : List (YamlNode × YamlNode) → YamlNode
  | [] => .null
  | entries => .map entries

def assign (entries : List (YamlNode × YamlNode)) : Option (ByteString × YamlNode) → List (YamlNode × YamlNode)
  | none => entries
  | some (name, entry) => setEntry name entry entries

theorem ioConfigNode_setEntry (name : ByteString) (entry : YamlNode) (entries : List (YamlNode × YamlNode)) :
    ioConfigNode (setEntry name entry entries) = .map (setEntry name entry entries) := by
  cases entries with
  | nil => rfl
  | cons first entries =>
      obtain ⟨key, old⟩ := first
      cases key with
      | scalar text =>
          rw [setEntry]
          split <;> rfl
      | null | sequence nodes | map inner => rfl

theorem mapEntries_ioConfigNode (entries : List (YamlNode × YamlNode)) : mapEntries (ioConfigNode entries) = .ok entries := by
  cases entries <;> rfl

theorem configureIo_eq (entries : List (YamlNode × YamlNode)) (io : YamlNode) :
    configureIo Y (ioConfigNode entries) (some io) =
      (configuration Y io).map fun configured => ioConfigNode (assign entries configured) := by
  rw [configureIo, configuration]
  cases Y.textAt (bytes "role") (some io) with
  | error e => rfl
  | ok role =>
      simp only [bind, Except.bind]
      split
      · cases Y.textAt (bytes "name") (some io) with
        | error e => rfl
        | ok name =>
            cases configuredEntry Y role (some io) with
            | error e => rfl
            | ok entry =>
                simp only [mapEntries_ioConfigNode, pure, Except.pure, Except.map, assign, ioConfigNode_setEntry]
      · rfl

/-- The entries of the configuration, where everything can be read. -/
def configEntries (configured : List (Option (ByteString × YamlNode))) : List (YamlNode × YamlNode) :=
  configured.foldl assign []

def configRoot (apiYamlPath : ByteString) (entries : List (YamlNode × YamlNode)) : YamlNode :=
  .map [(.scalar (bytes "name"), .scalar (bytes "INSTRUMENT_NAME")),
    (.scalar (bytes "api_ref"), .scalar apiYamlPath),
    (.scalar (bytes "connection"), textMap [(bytes "type", bytes "VISA"),
      (bytes "address", bytes "TCPIP::192.168.0.1::INSTR::0")]),
    (.scalar (bytes "io_config"), ioConfigNode entries)]

theorem generate_eq {apiYamlPath : ByteString} {api : YamlNode} {nodes : List YamlNode}
    (hio : api.get (bytes "io") = .ok (some (.sequence nodes))) :
    generateInstrumentConfiguration Y apiYamlPath api =
      (nodes.mapM (configuration Y)).map fun configured => configRoot apiYamlPath (configEntries configured) := by
  rw [generateInstrumentConfiguration, hio]
  simp only [bind, Except.bind, items_sequence, List.foldlM_map]
  rw [show YamlNode.null = ioConfigNode [] from rfl, Lists.foldlM_reads (@configureIo_eq Y)]
  cases nodes.mapM (configuration Y) <;> rfl

/-! ### What is read of an io -/

theorem get_configuredEntry {role : ByteString} {io : Option YamlNode} {entry : YamlNode}
    (hentry : configuredEntry Y role io = .ok entry) :
    ∃ type, Y.textAt (bytes "type") io = .ok type ∧ entry.get (bytes "type") = .ok (some (.scalar type)) ∧
      entry.get (bytes "role") = .ok (some (.scalar role)) ∧ entry.get (bytes "offset") = .ok (some (.scalar (bytes "0"))) ∧
      entry.get (bytes "scale") = .ok (some (.scalar (bytes "1"))) := by
  obtain ⟨type, htype, hentry⟩ := Lists.bind_eq_ok_iff.mp hentry
  obtain ⟨unit, hunit, hentry⟩ := Lists.bind_eq_ok_iff.mp hentry
  obtain rfl := Except.ok.inj hentry
  refine ⟨type, htype, ?_⟩
  obtain ⟨value, -, hunit⟩ := Lists.bind_eq_ok_iff.mp hunit
  cases value with
  | none =>
      obtain rfl := Except.ok.inj hunit
      exact ⟨rfl, rfl, rfl, rfl⟩
  | some value =>
      obtain ⟨text, -, hunit⟩ := Lists.bind_eq_ok_iff.mp hunit
      obtain rfl := Except.ok.inj hunit
      exact ⟨rfl, rfl, rfl, rfl⟩

theorem accepts_validateConfiguredIo {name role : ByteString} {io : Option YamlNode} {entry : YamlNode}
    (hentry : configuredEntry Y role io = .ok entry) (hrole : role ∈ configuredRoles) {type : ByteString}
    (htype : Y.textAt (bytes "type") io = .ok type) :
    (validateConfiguredIo Y (.scalar name) entry).Accepts () ↔ type ∈ configuredTypes := by
  obtain ⟨type', htype', hgetType, hgetRole, hoffset, hscale⟩ := get_configuredEntry hentry
  rw [htype] at htype'
  obtain rfl := Except.ok.inj htype'
  have hrequired : ∀ key ∈ [bytes "type", bytes "role"], ∃ value, entry.get key = .ok (some value) := by
    simp only [List.forall_mem_cons]
    exact ⟨⟨_, hgetType⟩, ⟨_, hgetRole⟩, fun _ h => absurd h List.not_mem_nil⟩
  rw [validateConfiguredIo, Validator.accepts_bind]
  simp only [YamlLibrary.text_scalar, Validator.accepts_then, Validator.accepts_lift, Except.ok.injEq, exists_eq_left',
    accepts_requireFields, accepts_requireOneOf hgetType, accepts_requireOneOf hgetRole, accepts_requireScalar hoffset,
    accepts_requireScalar hscale, and_true, iff_true_intro hrole, and_iff_right hrequired]

/-- What is read of a configurable io. -/
def Reads (Y : YamlLibrary) (io : YamlNode) (configured : ByteString × YamlNode) : Prop :=
  ∃ role ∈ configuredRoles, Y.textAt (bytes "role") (some io) = .ok role ∧
    Y.textAt (bytes "name") (some io) = .ok configured.1 ∧ configuredEntry Y role (some io) = .ok configured.2

theorem configuration_cases {io : YamlNode} {configured : Option (ByteString × YamlNode)}
    (hread : configuration Y io = .ok configured) :
    (∃ role, Y.textAt (bytes "role") (some io) = .ok role) ∧
      ((Configurable Y io = false ∧ configured = none) ∨
        (Configurable Y io = true ∧ ∃ pair, configured = some pair ∧ Reads Y io pair)) := by
  obtain ⟨role, hrole, hread⟩ := Lists.bind_eq_ok_iff.mp hread
  refine ⟨⟨role, hrole⟩, ?_⟩
  rw [Configurable, hrole]
  split at hread
  · rename_i hmem
    obtain ⟨name, hname, hread⟩ := Lists.bind_eq_ok_iff.mp hread
    obtain ⟨entry, hentry, hread⟩ := Lists.bind_eq_ok_iff.mp hread
    obtain rfl := Except.ok.inj hread
    exact Or.inr ⟨decide_eq_true hmem, _, rfl, role, hmem, hrole, hname, hentry⟩
  · rename_i hmem
    obtain rfl := Except.ok.inj hread
    exact Or.inl ⟨decide_eq_false hmem, rfl⟩

/-- An io can be read where its role is a text and, if it is configurable, its name, type and unit are. -/
theorem exists_configuration {io : YamlNode} (hrole : ∃ role, Y.textAt (bytes "role") (some io) = .ok role)
    (hnamed : Configurable Y io = true → Named Y io)
    (htyped : Configurable Y io = true → ∃ type, Y.textAt (bytes "type") (some io) = .ok type)
    (hunit : Configurable Y io = true → ∀ value, io.get (bytes "unit") = .ok (some value) →
      ∃ text, Y.text (some value) = .ok text) : ∃ configured, configuration Y io = .ok configured := by
  obtain ⟨role, hrole⟩ := hrole
  rw [configuration, hrole]
  simp only [bind, Except.bind]
  split
  · rename_i hmem
    have hconfigurable : Configurable Y io = true := by
      rw [Configurable, hrole]
      exact decide_eq_true hmem
    obtain ⟨name, hname⟩ := hnamed hconfigurable
    obtain ⟨type, htype⟩ := htyped hconfigurable
    obtain ⟨entries, hmap⟩ := eq_map_of_textAt hname
    obtain rfl := Option.some.inj hmap
    obtain ⟨unit, hcopied⟩ := exists_copiedText_iff.mpr fun value hvalue => hunit hconfigurable value (congrArg Except.ok hvalue)
    rw [hname, configuredEntry, htype, hcopied]
    exact ⟨_, rfl⟩
  · exact ⟨none, rfl⟩

theorem reads_filter {nodes : List YamlNode} {configured : List (Option (ByteString × YamlNode))}
    (hread : List.Forall₂ (fun io c => configuration Y io = .ok c) nodes configured) :
    List.Forall₂ (Reads Y) (nodes.filter (Configurable Y)) (configured.filterMap id) := by
  induction hread with
  | nil => exact List.Forall₂.nil
  | cons hfirst _ ih =>
      obtain ⟨-, ⟨hnot, rfl⟩ | ⟨hyes, pair, rfl, hreads⟩⟩ := configuration_cases hfirst
      · rw [List.filter_cons_of_neg (by rw [hnot]; exact Bool.false_ne_true), List.filterMap_cons_none rfl]
        exact ih
      · rw [List.filter_cons_of_pos hyes]
        exact List.Forall₂.cons hreads ih

theorem Reads.name {io : YamlNode} {pair : ByteString × YamlNode} (hreads : Reads Y io pair) :
    entryName Y io = pair.1 := by
  obtain ⟨role, -, -, hname, -⟩ := hreads
  rw [entryName, hname]
  rfl

theorem Reads.configures {io : YamlNode} {pair : ByteString × YamlNode} (hreads : Reads Y io pair) :
    Configures Y (.scalar pair.1, pair.2) io := by
  obtain ⟨role, -, hrole, hname, hentry⟩ := hreads
  obtain ⟨type, htype, hgetType, hgetRole, -, -⟩ := get_configuredEntry hentry
  refine ⟨pair.1, type, role, hname, htype, hrole, rfl, ?_, ?_⟩
  · rw [YamlLibrary.textAt, subscript_some, hgetType]
    rfl
  · rw [YamlLibrary.textAt, subscript_some, hgetRole]
    rfl

theorem Reads.unit {io : YamlNode} {pair : ByteString × YamlNode} (hreads : Reads Y io pair) {value : YamlNode}
    (hvalue : io.get (bytes "unit") = .ok (some value)) : ∃ text, Y.text (some value) = .ok text := by
  obtain ⟨role, -, -, hname, hentry⟩ := hreads
  obtain ⟨fields, hmap⟩ := eq_map_of_textAt hname
  obtain rfl := Option.some.inj hmap
  obtain ⟨type, -, hentry⟩ := Lists.bind_eq_ok_iff.mp hentry
  obtain ⟨unit, hunit, -⟩ := Lists.bind_eq_ok_iff.mp hentry
  exact exists_copiedText_iff.mp ⟨unit, hunit⟩ value (Except.ok.inj hvalue)

theorem names_of_reads {ios : List YamlNode} {pairs : List (ByteString × YamlNode)}
    (hreads : List.Forall₂ (Reads Y) ios pairs) : ios.map (entryName Y) = pairs.map Prod.fst := by
  induction hreads with
  | nil => rfl
  | cons hfirst _ ih => rw [List.map_cons, List.map_cons, ih, hfirst.name]

/-! ### The entries -/

theorem foldl_assign (entries : List (YamlNode × YamlNode)) (configured : List (Option (ByteString × YamlNode))) :
    configured.foldl assign entries = (configured.filterMap id).foldl (fun acc pair => setEntry pair.1 pair.2 acc) entries := by
  induction configured generalizing entries with
  | nil => rfl
  | cons first configured ih =>
      cases first with
      | none => exact ih entries
      | some pair => exact ih (setEntry pair.1 pair.2 entries)

theorem nodup_configEntries (configured : List (Option (ByteString × YamlNode))) :
    (keyTexts (configEntries configured)).Nodup := by
  rw [configEntries, foldl_assign]
  suffices hall : ∀ (pairs : List (ByteString × YamlNode)) (entries : List (YamlNode × YamlNode)), (keyTexts entries).Nodup →
      (keyTexts (pairs.foldl (fun acc pair => setEntry pair.1 pair.2 acc) entries)).Nodup from hall _ [] List.nodup_nil
  intro pairs
  induction pairs with
  | nil => exact fun _ hnodup => hnodup
  | cons pair pairs ih => exact fun entries hnodup => ih _ (nodup_keyTexts_setEntry hnodup pair.1 pair.2)

theorem mem_configEntries {configured : List (Option (ByteString × YamlNode))} {entry : YamlNode × YamlNode}
    (hentry : entry ∈ configEntries configured) :
    ∃ pair ∈ configured.filterMap id, entry = (.scalar pair.1, pair.2) := by
  rw [configEntries, foldl_assign] at hentry
  suffices hall : ∀ (pairs : List (ByteString × YamlNode)) (entries : List (YamlNode × YamlNode)),
      entry ∈ pairs.foldl (fun acc pair => setEntry pair.1 pair.2 acc) entries →
        entry ∈ entries ∨ ∃ pair ∈ pairs, entry = (.scalar pair.1, pair.2) from
    (hall _ [] hentry).resolve_left List.not_mem_nil
  intro pairs
  induction pairs with
  | nil => exact fun _ hmem => Or.inl hmem
  | cons pair pairs ih =>
      intro entries hmem
      obtain hmem | ⟨pair', hpair', heq⟩ := ih _ hmem
      · exact (mem_setEntry hmem).elim (fun heq => Or.inr ⟨pair, List.mem_cons_self, heq⟩) Or.inl
      · exact Or.inr ⟨pair', List.mem_cons_of_mem _ hpair', heq⟩

/-- Under different names every io gets an entry of its own. -/
theorem configEntries_of_nodup {configured : List (Option (ByteString × YamlNode))}
    (hnodup : ((configured.filterMap id).map Prod.fst).Nodup) :
    configEntries configured = (configured.filterMap id).map fun pair => (.scalar pair.1, pair.2) := by
  rw [configEntries, foldl_assign]
  suffices hall : ∀ (pairs : List (ByteString × YamlNode)) (entries : List (YamlNode × YamlNode)),
      (pairs.map Prod.fst).Nodup → (∀ pair ∈ pairs, pair.1 ∉ keyTexts entries) →
        pairs.foldl (fun acc pair => setEntry pair.1 pair.2 acc) entries =
          entries ++ pairs.map fun pair => (.scalar pair.1, pair.2) from hall _ [] hnodup fun _ _ => List.not_mem_nil
  intro pairs
  induction pairs with
  | nil => exact fun entries _ _ => (List.append_nil entries).symm
  | cons pair pairs ih =>
      intro entries hnodup hnew
      obtain ⟨hpair, hnodup⟩ := List.nodup_cons.mp hnodup
      rw [List.foldl_cons, setEntry_new (hnew pair List.mem_cons_self), ih _ hnodup, List.append_assoc]
      · rfl
      · intro other hother hmem
        rw [keyTexts, List.filterMap_append] at hmem
        rcases List.mem_append.mp hmem with hold | hlast
        · exact hnew other (List.mem_cons_of_mem _ hother) hold
        · exact hpair (List.mem_singleton.mp hlast ▸ List.mem_map_of_mem hother)

/-! ### Validity -/

theorem get_configRoot (apiYamlPath : ByteString) (entries : List (YamlNode × YamlNode)) :
    (configRoot apiYamlPath entries).get (bytes "io_config") = .ok (some (ioConfigNode entries)) := rfl

/-- The configuration is accepted if there is an entry and every entry is. -/
theorem accepts_configRoot {apiYamlPath : ByteString} {entries : List (YamlNode × YamlNode)} :
    (checkInstrumentConfiguration Y (configRoot apiYamlPath entries)).Accepts () ↔
      entries ≠ [] ∧ ∀ entry ∈ entries, (validateConfiguredIo Y entry.1 entry.2).Accepts () := by
  have hrequired : (requireFields (configRoot apiYamlPath entries) [] []
      [bytes "name", bytes "api_ref", bytes "connection", bytes "io_config"]).Accepts () := by
    rw [accepts_requireFields]
    simp only [List.forall_mem_cons]
    exact ⟨⟨_, rfl⟩, ⟨_, rfl⟩, ⟨_, rfl⟩, ⟨_, rfl⟩, fun _ h => absurd h List.not_mem_nil⟩
  have hconnection : (validateConnection (configRoot apiYamlPath entries)).Accepts () := by
    rw [validateConnection, Validator.accepts_bind]
    refine ⟨_, Validator.accepts_lift.mpr rfl, ?_⟩
    exact Validator.accepts_bind.mpr ⟨_, Validator.accepts_lift.mpr rfl, Validator.accepts_pure.mpr rfl⟩
  rw [checkInstrumentConfiguration, Validator.accepts_then, and_iff_right hrequired, Validator.accepts_then,
    and_iff_right hconnection, validateIoConfig, get_configRoot]
  simp only [Validator.accepts_bind, Validator.accepts_lift, Except.ok.injEq, exists_eq_left']
  cases entries with
  | nil => exact iff_of_false accepts_addError fun h => h.1 rfl
  | cons entry entries =>
      show (Validator.forEach (entry :: entries) _).Accepts () ↔ _
      rw [Validator.accepts_forEach]
      exact (and_iff_right (List.cons_ne_nil _ _)).symm

theorem valid_configRoot {what : YamlError → ByteString} {apiYamlPath : ByteString} {entries : List (YamlNode × YamlNode)} :
    (validateInstrumentConfiguration Y what (.ok (configRoot apiYamlPath entries))).valid = true ↔
      entries ≠ [] ∧ ∀ entry ∈ entries, (validateConfiguredIo Y entry.1 entry.2).Accepts () := by
  rw [validateInstrumentConfiguration, valid_validationResult, Validator.accepts_bind,
    ← @accepts_configRoot _ apiYamlPath]
  simp only [Validator.accepts_lift, Except.ok.injEq, exists_eq_left']

theorem ioConfigNode_eq_map_iff {entries entries' : List (YamlNode × YamlNode)} :
    ioConfigNode entries = .map entries' ↔ entries ≠ [] ∧ entries = entries' := by
  cases entries with
  | nil => simp [ioConfigNode]
  | cons first rest => simp [ioConfigNode]

/-- The names of the entries are those of the ios. -/
theorem names_of_configures {entries : List (YamlNode × YamlNode)} {ios : List YamlNode}
    (hconfigures : List.Forall₂ (Configures Y) entries ios)
    (hscalar : ∀ entry ∈ entries, ∃ name, entry.1 = .scalar name) : keyTexts entries = ios.map (entryName Y) := by
  induction hconfigures with
  | nil => rfl
  | cons hfirst _ ih =>
      obtain ⟨⟨text, htext⟩, hscalar⟩ := List.forall_mem_cons.mp hscalar
      obtain ⟨name, type, role, hname, -, -, hkey, -, -⟩ := hfirst
      rw [htext, YamlLibrary.text_scalar] at hkey
      obtain rfl := Except.ok.inj hkey
      rw [List.map_cons, ← ih hscalar, entryName, hname, keyTexts, List.filterMap_cons, htext]
      rfl

/-- The validator reads one of the allowed types in an accepted entry, and it is the type of the io. -/
theorem allowedType_of_configures {ios : List YamlNode} {configured : List (Option (ByteString × YamlNode))}
    (hreads : List.Forall₂ (Reads Y) ios (configured.filterMap id)) {entry : YamlNode × YamlNode} {io : YamlNode}
    (hentry : entry ∈ configEntries configured) (haccepts : (validateConfiguredIo Y entry.1 entry.2).Accepts ())
    (hconfigures : Configures Y entry io) : ∃ type ∈ configuredTypes, Y.textAt (bytes "type") (some io) = .ok type := by
  obtain ⟨name, type, role, -, htype, -, -, hentryType, -⟩ := hconfigures
  obtain ⟨pair, hpair, rfl⟩ := mem_configEntries hentry
  obtain ⟨io', -, role', hrole', -, -, hconfigured⟩ := Lists.exists_mem_of_forall₂ hreads hpair
  obtain ⟨type', htype', hgetType, -⟩ := get_configuredEntry hconfigured
  rw [YamlLibrary.textAt, subscript_some, hgetType] at hentryType
  obtain rfl := Except.ok.inj hentryType
  exact ⟨_, (accepts_validateConfiguredIo hconfigured hrole' htype').mp haccepts, htype⟩

/-- A configuration that is written and fits tells what the API is like. -/
theorem GeneratesValid.suits {what : YamlError → ByteString} {apiYamlPath : ByteString} {api : YamlNode}
    {nodes : List YamlNode} (hio : api.get (bytes "io") = .ok (some (.sequence nodes)))
    (hgenerates : GeneratesValid Y what apiYamlPath api) : SuitsGenerator Y api := by
  have hios : apiIos api = nodes := by rw [apiIos, hio]
  obtain ⟨config, entries, hconfig, hvalid, hget, ios, hperm, hconfigures⟩ := hgenerates
  rw [generate_eq hio] at hconfig
  obtain ⟨configured, hread, rfl⟩ := Lists.map_eq_ok_iff.mp hconfig
  obtain ⟨-, rfl⟩ := ioConfigNode_eq_map_iff.mp (Option.some.inj (Except.ok.inj hget))
  obtain ⟨hnonempty, haccepts⟩ := valid_configRoot.mp hvalid
  have hreads : List.Forall₂ (Reads Y) (configurableIos Y api) (configured.filterMap id) := by
    rw [configurableIos, hios]
    exact reads_filter (Lists.mapM_ok_iff.mp hread)
  have hpair : ∀ io ∈ configurableIos Y api, ∃ pair, Reads Y io pair := by
    intro io hmem
    obtain ⟨pair, -, hpair⟩ := Lists.exists_mem_of_forall₂ hreads.flip hmem
    exact ⟨pair, hpair⟩
  refine ⟨?_, ?_, ?_, ?_, ?_, ?_⟩
  · intro io hmem
    obtain ⟨c, hc⟩ := Lists.exists_mapM_ok_iff.mp ⟨configured, hread⟩ io (hios ▸ hmem)
    exact (configuration_cases hc).1
  · intro hnone
    rw [hnone] at hperm
    obtain rfl := List.perm_nil.mp hperm
    exact hnonempty (List.forall₂_nil_right_iff.mp hconfigures)
  · intro io hmem
    obtain ⟨pair, role, -, -, hname, -⟩ := hpair io hmem
    exact ⟨pair.1, hname⟩
  · intro io hmem
    obtain ⟨entry, hentry, hone⟩ := Lists.exists_mem_of_forall₂ hconfigures (hperm.mem_iff.mpr hmem)
    exact allowedType_of_configures hreads hentry (haccepts entry hentry) hone
  · intro io hmem value hvalue
    obtain ⟨pair, hreads⟩ := hpair io hmem
    exact hreads.unit hvalue
  · have hscalar : ∀ entry ∈ configEntries configured, ∃ name, entry.1 = .scalar name := by
      intro entry hentry
      obtain ⟨pair, -, rfl⟩ := mem_configEntries hentry
      exact ⟨pair.1, rfl⟩
    rw [← (hperm.map (entryName Y)).nodup_iff, ← names_of_configures hconfigures hscalar]
    exact nodup_configEntries configured

/-- For an API like that the configuration is written and fits. -/
theorem SuitsGenerator.generates {what : YamlError → ByteString} (apiYamlPath : ByteString) {api : YamlNode}
    {nodes : List YamlNode} (hio : api.get (bytes "io") = .ok (some (.sequence nodes))) (hsuits : SuitsGenerator Y api) :
    GeneratesValid Y what apiYamlPath api := by
  have hios : apiIos api = nodes := by rw [apiIos, hio]
  have hconfigurable : ∀ io ∈ nodes, Configurable Y io = true → io ∈ configurableIos Y api :=
    fun io hmem hyes => List.mem_filter.mpr ⟨hios.symm ▸ hmem, hyes⟩
  obtain ⟨configured, hread⟩ : ∃ configured, nodes.mapM (configuration Y) = .ok configured := by
    refine Lists.exists_mapM_ok_iff.mpr fun io hmem => ?_
    refine exists_configuration (hsuits.roles io (hios.symm ▸ hmem)) (fun hyes => ?_) (fun hyes => ?_) fun hyes => ?_
    · exact hsuits.named io (hconfigurable io hmem hyes)
    · obtain ⟨type, -, htype⟩ := hsuits.typed io (hconfigurable io hmem hyes)
      exact ⟨type, htype⟩
    · exact hsuits.units io (hconfigurable io hmem hyes)
  have hreads := reads_filter (Lists.mapM_ok_iff.mp hread)
  have hsame : nodes.filter (Configurable Y) = configurableIos Y api := by rw [configurableIos, hios]
  rw [hsame] at hreads
  have hentries := @configEntries_of_nodup configured (by
    rw [← names_of_reads hreads]
    exact hsuits.distinct)
  have hne : configEntries configured ≠ [] := by
    rw [hentries]
    intro hnil
    rw [List.map_eq_nil_iff.mp hnil] at hreads
    exact hsuits.nonempty (List.forall₂_nil_right_iff.mp hreads)
  have haccepts : ∀ entry ∈ configEntries configured, (validateConfiguredIo Y entry.1 entry.2).Accepts () := by
    intro entry hentry
    obtain ⟨pair, hpair, rfl⟩ := mem_configEntries hentry
    obtain ⟨io, hmem, role, hrole, -, -, hconfigured⟩ := Lists.exists_mem_of_forall₂ hreads hpair
    obtain ⟨type, hallowed, htype⟩ := hsuits.typed io hmem
    exact (accepts_validateConfiguredIo hconfigured hrole htype).mpr hallowed
  refine ⟨configRoot apiYamlPath (configEntries configured), configEntries configured, ?_, ?_, ?_,
    configurableIos Y api, List.Perm.refl _, ?_⟩
  · rw [generate_eq hio, hread]
    rfl
  · exact valid_configRoot.mpr ⟨hne, haccepts⟩
  · rw [get_configRoot, ioConfigNode_eq_map_iff.mpr ⟨hne, rfl⟩]
  · rw [hentries, List.forall₂_map_left_iff]
    exact (hreads.imp fun _ _ h => h.configures).flip

/-- For a valid API the generated configuration is valid and has one entry for each configurable io exactly if the API is like that. -/
theorem generatesValid_iff {what : YamlError → ByteString} {apiYamlPath : ByteString} {api : YamlNode}
    (hvalid : (validateInstrumentApi Y what (.ok api)).valid = true) :
    GeneratesValid Y what apiYamlPath api ↔ SuitsGenerator Y api := by
  rw [validateInstrumentApi, valid_validationResult, Validator.accepts_bind] at hvalid
  obtain ⟨doc, hdoc, haccepts⟩ := hvalid
  obtain rfl := Except.ok.inj (Validator.accepts_lift.mp hdoc)
  rw [checkInstrumentApi, Validator.accepts_then, Validator.accepts_then] at haccepts
  obtain ⟨nodes, hio, -⟩ := io_of_accepts haccepts.2.1
  exact ⟨fun h => h.suits hio, fun h => h.generates apiYamlPath hio⟩

end

/-! ### Runs -/

/-- An API with these ios. -/
def apiOfIos (ios : List YamlNode) : YamlNode :=
  .map [(.scalar (bytes "api_version"), .scalar (bytes "1.0.0")),
    (.scalar (bytes "instrument"), textMap [(bytes "identifier", bytes "DMM")]),
    (.scalar (bytes "protocol"), textMap [(bytes "type", bytes "VISA")]),
    (.scalar (bytes "io"), .sequence ios), (.scalar (bytes "commands"), .map [])]

def ioOf (name type role : ByteString) : YamlNode :=
  textMap [(bytes "name", name), (bytes "type", type), (bytes "role", role)]

/-- A voltage to be measured, and a range to be set. -/
def meterApi : YamlNode :=
  apiOfIos [ioOf (bytes "voltage") (bytes "float") (bytes "output"), ioOf (bytes "range") (bytes "float") (bytes "setting")]

/-- The range alone. -/
def rangeApi : YamlNode := apiOfIos [ioOf (bytes "range") (bytes "float") (bytes "setting")]

theorem generatesValid_meter :
    (validateInstrumentApi .decimals (fun _ => []) (.ok meterApi)).valid = true ∧
      GeneratesValid .decimals (fun _ => []) (bytes "dmm.yaml") meterApi := by
  have hvalid : (validateInstrumentApi .decimals (fun _ => []) (.ok meterApi)).valid = true := by decide +kernel
  have hconfigurable : configurableIos .decimals meterApi = [ioOf (bytes "voltage") (bytes "float") (bytes "output")] := rfl
  refine ⟨hvalid, (generatesValid_iff hvalid).mpr ⟨?_, ?_, ?_, ?_, ?_, ?_⟩⟩
  · intro io hio
    obtain rfl | rfl := List.mem_pair.mp hio <;> exact ⟨_, rfl⟩
  · rw [hconfigurable]
    exact List.cons_ne_nil _ _
  all_goals rw [hconfigurable]
  · intro io hio
    obtain rfl := List.mem_singleton.mp hio
    exact ⟨_, rfl⟩
  · intro io hio
    obtain rfl := List.mem_singleton.mp hio
    exact ⟨bytes "float", by decide, rfl⟩
  · intro io hio value hvalue
    obtain rfl := List.mem_singleton.mp hio
    have hmissing : (ioOf (bytes "voltage") (bytes "float") (bytes "output")).get (bytes "unit") = .ok none := rfl
    rw [hmissing] at hvalue
    exact absurd (Except.ok.inj hvalue) (Option.some_ne_none value).symm
  · exact List.nodup_cons.mpr ⟨List.not_mem_nil, List.nodup_nil⟩

/-- An API whose only io is a setting is valid, and the configuration made from it is not. -/
theorem not_generatesValid_range :
    (validateInstrumentApi .decimals (fun _ => []) (.ok rangeApi)).valid = true ∧
      ((generateInstrumentConfiguration .decimals (bytes "dmm.yaml") rangeApi).map fun config =>
        validateInstrumentConfiguration .decimals (fun _ => []) (.ok config)) =
          .ok ⟨false, [⟨bytes "/io_config", bytes "io_config must be an object"⟩]⟩ ∧
      ¬ GeneratesValid .decimals (fun _ => []) (bytes "dmm.yaml") rangeApi := by
  have hrun : ((generateInstrumentConfiguration .decimals (bytes "dmm.yaml") rangeApi).map fun config =>
      validateInstrumentConfiguration .decimals (fun _ => []) (.ok config)) =
        .ok ⟨false, [⟨bytes "/io_config", bytes "io_config must be an object"⟩]⟩ := by decide +kernel
  refine ⟨by decide +kernel, hrun, ?_⟩
  rintro ⟨config, entries, hconfig, hvalid, -⟩
  rw [hconfig] at hrun
  have hresult : validateInstrumentConfiguration .decimals (fun _ => []) (.ok config) = _ := Except.ok.inj hrun
  rw [hresult] at hvalid
  contradiction

end InstrumentServer
