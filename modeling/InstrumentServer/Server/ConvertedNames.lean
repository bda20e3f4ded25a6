import InstrumentServer.Lib.DocumentPath
import InstrumentServer.Server.ResponseType

/-!
# Names in converted documents

`yaml_to_json` guesses the type of every scalar from its text, wherever the scalar stands, and the registry then reads some of them as texts: the name and the `api_ref` of a configuration, and of an API the type of the protocol, the names and types of the ios, the suffixes and types of the io types, and the outputs of the commands. A name such as `y` or `12` has become a boolean or a number.

A place in a document is a path. The validator finds the first entry of a key and the JSON object keeps the last one; `textsSurvive_iff` says for which documents both come to the same text.
-/

namespace InstrumentServer

open DocumentPath YamlNode

/-! ### The conversion along a path -/

section

variable {Y : YamlLibrary}

theorem rel_yamlItems {nodes : List YamlNode} {values : List Json} (hvalues : yamlItems Y nodes = some values) (i : Nat) :
    Option.Rel (fun node j => yamlToJson Y node = some j) nodes[i]? values[i]? := by
  induction nodes generalizing values i with
  | nil =>
      obtain rfl := Option.some.inj hvalues
      exact .none
  | cons node nodes ih =>
      rw [yamlItems] at hvalues
      obtain ⟨value, hvalue, hvalues⟩ := Option.bind_eq_some_iff.mp hvalues
      obtain ⟨values', hvalues', hcons⟩ := Option.bind_eq_some_iff.mp hvalues
      obtain rfl := Option.some.inj hcons
      cases i with
      | zero => exact .some hvalue
      | succ i => exact ih hvalues' i

/-- An object has under a key what its last entry is converted to, and otherwise what was there before. -/
theorem find?_yamlFields {entries : List (YamlNode × YamlNode)} {fields fields' : List (ByteString × Json)}
    (hfields : yamlFields Y fields entries = some fields') (name : ByteString) :
    match findLast? Y name entries with
    | some node => ∃ j, yamlToJson Y node = some j ∧ SortedAssoc.find? name fields' = some j
    | none => SortedAssoc.find? name fields' = SortedAssoc.find? name fields := by
  induction entries generalizing fields with
  | nil =>
      obtain rfl := Option.some.inj hfields
      rfl
  | cons entry entries ih =>
      obtain ⟨key, value⟩ := entry
      rw [yamlFields] at hfields
      obtain ⟨j, hj, hfields⟩ := Option.bind_eq_some_iff.mp hfields
      obtain ⟨text, htext, hfields⟩ := Option.bind_eq_some_iff.mp hfields
      have hrest := ih hfields
      rw [findLast?]
      cases hlast : findLast? Y name entries with
      | some node =>
          rw [hlast] at hrest
          exact hrest
      | none =>
          rw [hlast, Json.set, SortedAssoc.find?_insert] at hrest
          rw [Option.none_or, htext]
          by_cases hname : name = text
          · rw [if_pos hname] at hrest
            rw [if_pos (congrArg some hname.symm)]
            exact ⟨j, hj, hrest⟩
          · rw [if_neg hname] at hrest
            rw [if_neg fun hsame => hname (Option.some.inj hsame).symm]
            exact hrest

theorem rel_child (node : YamlNode) (j : Json) (hj : yamlToJson Y node = some j) (step : PathStep) :
    Option.Rel (fun node j => yamlToJson Y node = some j) (node.lastChild? Y step) (j.child? step) := by
  cases node with
  | null =>
      obtain rfl := Option.some.inj hj
      cases step <;> exact .none
  | scalar text =>
      obtain rfl := Option.some.inj hj
      rw [yamlScalar]
      split <;> cases step <;> exact .none
  | sequence nodes =>
      rw [yamlToJson] at hj
      obtain ⟨values, hvalues, rfl⟩ := Option.map_eq_some_iff.mp hj
      cases step with
      | key name => exact .none
      | index i => exact rel_yamlItems hvalues i
  | map entries =>
      rw [yamlToJson] at hj
      obtain ⟨fields, hfields, rfl⟩ := Option.map_eq_some_iff.mp hj
      cases step with
      | index i => exact .none
      | key name =>
          have hfind := find?_yamlFields hfields name
          rw [lastChild?, Json.child?, Json.member?]
          cases hlast : findLast? Y name entries with
          | none =>
              rw [hlast] at hfind
              rw [hfind]
              exact .none
          | some node =>
              rw [hlast] at hfind
              obtain ⟨j, hj, hfound⟩ := hfind
              rw [hfound]
              exact .some hj

/-! ### What is converted -/

theorem isSome_yamlItems_iff {nodes : List YamlNode} :
    (yamlItems Y nodes).isSome ↔ ∀ node ∈ nodes, (yamlToJson Y node).isSome := by
  induction nodes with
  | nil => simp [yamlItems]
  | cons node nodes ih =>
      rw [List.forall_mem_cons, ← ih, yamlItems]
      cases yamlToJson Y node with
      | none => simp
      | some value => cases yamlItems Y nodes <;> simp

theorem isSome_yamlFields_iff {entries : List (YamlNode × YamlNode)} {fields : List (ByteString × Json)} :
    (yamlFields Y fields entries).isSome ↔
      ∀ entry ∈ entries, (Y.asString entry.1).isSome ∧ (yamlToJson Y entry.2).isSome := by
  induction entries generalizing fields with
  | nil => simp [yamlFields]
  | cons entry entries ih =>
      rw [List.forall_mem_cons, yamlFields]
      cases yamlToJson Y entry.2 with
      | none => simp
      | some value =>
          cases Y.asString entry.1 with
          | none => simp
          | some name =>
              rw [Option.bind_eq_bind, Option.bind_some, Option.bind_eq_bind, Option.bind_some, ih]
              simp

theorem keysRead_of_isSome : (node : YamlNode) → (yamlToJson Y node).isSome → KeysRead Y node
  | .null, _ => .null
  | .scalar text, _ => .scalar text
  | .sequence nodes, hsome => by
      rw [yamlToJson, Option.isSome_map, isSome_yamlItems_iff] at hsome
      exact .sequence fun node hnode => keysRead_of_isSome node (hsome node hnode)
  | .map entries, hsome => by
      rw [yamlToJson, Option.isSome_map, isSome_yamlFields_iff] at hsome
      exact .map (fun entry hentry => (hsome entry hentry).1) fun entry hentry =>
        keysRead_of_isSome entry.2 (hsome entry hentry).2
  termination_by node => sizeOf node
  decreasing_by
    · have hlt := List.sizeOf_lt_of_mem hnode
      simp only [YamlNode.sequence.sizeOf_spec]
      omega
    · have hlt := List.sizeOf_lt_of_mem hentry
      obtain ⟨key, value⟩ := entry
      simp only [YamlNode.map.sizeOf_spec, Prod.mk.sizeOf_spec] at hlt ⊢
      omega

/-- A document is converted exactly if all its keys are read as texts. -/
theorem isSome_yamlToJson_iff {node : YamlNode} : (yamlToJson Y node).isSome ↔ KeysRead Y node := by
  refine ⟨keysRead_of_isSome node, fun hkeys => ?_⟩
  induction hkeys with
  | null => rfl
  | scalar text => rfl
  | sequence hnodes ih =>
      rw [yamlToJson, Option.isSome_map]
      exact isSome_yamlItems_iff.mpr ih
  | map hkeys hvalues ih =>
      rw [yamlToJson, Option.isSome_map]
      exact isSome_yamlFields_iff.mpr fun entry hentry => ⟨hkeys entry hentry, ih entry hentry⟩

/-- The text is read neither as an integer nor as a number nor as a boolean. -/
def PlainText (Y : YamlLibrary) (text : ByteString) : Prop :=
  Y.asInt64 text = none ∧ Y.asDouble text = none ∧ Y.asBool text = none

theorem yamlToJson_eq_string_iff {node : YamlNode} {text : ByteString} :
    yamlToJson Y node = some (.string text) ↔ node = .scalar text ∧ PlainText Y text := by
  cases node with
  | null => simp [yamlToJson]
  | sequence nodes => simp [yamlToJson]
  | map entries => simp [yamlToJson]
  | scalar text' =>
      rw [yamlToJson, Option.some.injEq, YamlNode.scalar.injEq, yamlScalar, PlainText]
      constructor
      · intro heq
        split at heq
        · contradiction
        · contradiction
        · contradiction
        · rename_i hint hdouble hbool
          obtain rfl := Json.string.inj heq
          exact ⟨rfl, hint, hdouble, hbool⟩
      · rintro ⟨rfl, hint, hdouble, hbool⟩
        rw [hint, hdouble, hbool]

end

/-! ### When the names survive -/

/-- The document is converted, and every scalar at one of the places is then a string of its text. -/
def TextsSurvive (Y : YamlLibrary) (places : List PathStep → Prop) (doc : YamlNode) : Prop :=
  ∃ j, yamlToJson Y doc = some j ∧ ∀ path, places path → ∀ text,
    follow YamlNode.child? path doc = some (.scalar text) → follow Json.child? path j = some (.string text)

/-- Every key is read as a text, and at each of the places the last value is the first one, which is neither a number nor a boolean. -/
def TextsPlain (Y : YamlLibrary) (places : List PathStep → Prop) (doc : YamlNode) : Prop :=
  KeysRead Y doc ∧ ∀ path, places path → ∀ text, follow YamlNode.child? path doc = some (.scalar text) →
    follow (YamlNode.lastChild? Y) path doc = some (.scalar text) ∧ PlainText Y text

theorem textsSurvive_iff {Y : YamlLibrary} {places : List PathStep → Prop} {doc : YamlNode} :
    TextsSurvive Y places doc ↔ TextsPlain Y places doc := by
  have hplace : ∀ j, yamlToJson Y doc = some j → ∀ path text, follow Json.child? path j = some (.string text) ↔
      follow (YamlNode.lastChild? Y) path doc = some (.scalar text) ∧ PlainText Y text := by
    intro j hj path text
    have hrel := rel_follow rel_child hj path
    generalize follow (YamlNode.lastChild? Y) path doc = node? at hrel ⊢
    generalize follow Json.child? path j = j? at hrel ⊢
    cases hrel with
    | none => simp
    | some hconverted =>
        rename_i node j'
        rw [Option.some.injEq, Option.some.injEq, ← yamlToJson_eq_string_iff, hconverted, Option.some.injEq]
  rw [TextsSurvive, TextsPlain, ← isSome_yamlToJson_iff, Option.isSome_iff_exists]
  constructor
  · rintro ⟨j, hj, htexts⟩
    exact ⟨⟨j, hj⟩, fun path hpath text htext => (hplace j hj path text).mp (htexts path hpath text htext)⟩
  · rintro ⟨⟨j, hj⟩, htexts⟩
    exact ⟨j, hj, fun path hpath text htext => (hplace j hj path text).mpr (htexts path hpath text htext)⟩

/-- The texts of a configuration that `create_instrument` reads. -/
inductive ConfigPlace : List PathStep → Prop where
  | name : ConfigPlace [.key (bytes "name")]
  | apiRef : ConfigPlace [.key (bytes "api_ref")]

/-- The texts of an API that the registry reads: the type of the protocol when an instrument is created, and the rest in `get_response_type`. -/
inductive ApiPlace : List PathStep → Prop where
  | protocolType : ApiPlace [.key (bytes "protocol"), .key (bytes "type")]
  | io (i : Nat) {field : ByteString} (hfield : field ∈ [bytes "name", bytes "type"]) :
      ApiPlace [.key (bytes "io"), .index i, .key field]
  | ioType (i j : Nat) {field : ByteString} (hfield : field ∈ [bytes "suffix", bytes "type"]) :
      ApiPlace [.key (bytes "channel_groups"), .index i, .key (bytes "io_types"), .index j, .key field]
  | output (verb : ByteString) (i : Nat) :
      ApiPlace [.key (bytes "commands"), .key verb, .key (bytes "outputs"), .index i]

/-- Both documents of an instrument are converted, with all names the registry reads. -/
structure NamesSurvive (Y : YamlLibrary) (config api : YamlNode) : Prop where
  config : TextsSurvive Y ConfigPlace config
  api : TextsSurvive Y ApiPlace api

/-- The names survive exactly if none of them can be read as a number or a boolean, and keys are texts that hide no name behind a second entry. -/
theorem names_survive_iff (Y : YamlLibrary) (config api : YamlNode) :
    NamesSurvive Y config api ↔ TextsPlain Y ConfigPlace config ∧ TextsPlain Y ApiPlace api := by
  rw [← textsSurvive_iff, ← textsSurvive_iff]
  exact ⟨fun hsurvive => ⟨hsurvive.config, hsurvive.api⟩, fun hsurvive => ⟨hsurvive.1, hsurvive.2⟩⟩

/-! ### What the registry reads -/

theorem field_of_member? {j value : Json} {name : ByteString} (hmember : j.member? name = some value) :
    j.field name = .ok value := by
  cases j with
  | object fields =>
      have hfind : SortedAssoc.find? name fields = some value := hmember
      rw [Json.field, hfind]
      rfl
  | _ => contradiction

namespace NamesSurvive

variable {Y : YamlLibrary} {config api : YamlNode} {j : Json}

/-- The name and the `api_ref` are read as the texts they are. -/
theorem reads_config (hsurvive : NamesSurvive Y config api) (hj : yamlToJson Y config = some j) {key text : ByteString}
    (hplace : ConfigPlace [.key key]) (htext : follow YamlNode.child? [.key key] config = some (.scalar text)) :
    (j.field key >>= Json.getString) = .ok text := by
  obtain ⟨j', hj', htexts⟩ := hsurvive.config
  obtain rfl := Option.some.inj (hj.symm.trans hj')
  have hstring := htexts _ hplace _ htext
  rw [follow, Option.bind_eq_some_iff] at hstring
  obtain ⟨value, hmember, hvalue⟩ := hstring
  obtain rfl := Option.some.inj hvalue
  rw [field_of_member? hmember]
  rfl

theorem reads_protocolType (hsurvive : NamesSurvive Y config api) (hj : yamlToJson Y api = some j) {type : ByteString}
    (htype : follow YamlNode.child? [.key (bytes "protocol"), .key (bytes "type")] api = some (.scalar type)) :
    InstrumentRegistry.protocolType j = .ok type := by
  obtain ⟨j', hj', htexts⟩ := hsurvive.api
  obtain rfl := Option.some.inj (hj.symm.trans hj')
  have hstring := htexts _ .protocolType _ htype
  simp only [follow, Option.bind_eq_some_iff] at hstring
  obtain ⟨protocol, hprotocol, value, hvalue, heq⟩ := hstring
  obtain rfl := Option.some.inj heq
  rw [InstrumentRegistry.protocolType, field_of_member? hprotocol]
  show (protocol.field (bytes "type") >>= Json.getString) = .ok type
  rw [field_of_member? hvalue]
  rfl

/-- The search for an io by its name ends at it, with its type. -/
theorem finds_io (hsurvive : NamesSurvive Y config api) (hj : yamlToJson Y api = some j) {i : Nat} {name type : ByteString}
    (hname : follow YamlNode.child? [.key (bytes "io"), .index i, .key (bytes "name")] api = some (.scalar name))
    (htype : follow YamlNode.child? [.key (bytes "io"), .index i, .key (bytes "type")] api = some (.scalar type)) :
    ∃ io, (j.arrayAt (bytes "io"))[i]? = some io ∧ typeIfNamed (bytes "name") name io = .ok (some type) := by
  obtain ⟨j', hj', htexts⟩ := hsurvive.api
  obtain rfl := Option.some.inj (hj.symm.trans hj')
  have hfoundName := htexts _ (.io i List.mem_cons_self) _ hname
  have hfoundType := htexts _ (.io i (List.mem_cons_of_mem _ List.mem_cons_self)) _ htype
  simp only [follow, Option.bind_eq_some_iff] at hfoundName hfoundType
  obtain ⟨ios, hios, io, hio, value, hvalue, heq⟩ := hfoundName
  obtain ⟨ios', hios', io', hio', value', hvalue', heq'⟩ := hfoundType
  obtain rfl := Option.some.inj (hios.symm.trans hios')
  obtain rfl := Option.some.inj (hio.symm.trans hio')
  obtain rfl := Option.some.inj heq
  obtain rfl := Option.some.inj heq'
  refine ⟨io, ?_, typeIfNamed_eq_some_iff.mpr ⟨Json.textAt?_eq_some_iff.mpr hvalue, Json.textAt?_eq_some_iff.mpr hvalue'⟩⟩
  have hios : j.member? (bytes "io") = some ios := hios
  rw [Json.arrayAt, hios]
  cases ios with
  | array items => exact hio
  | _ => contradiction

end NamesSurvive

/-! ### A lock-in amplifier -/

def lockInConfig : YamlNode :=
  .map [(.scalar (bytes "name"), .scalar (bytes "LOCKIN1")), (.scalar (bytes "api_ref"), .scalar (bytes "lockin.yaml")),
    (.scalar (bytes "connection"), textMap [(bytes "type", bytes "VISA")]), (.scalar (bytes "io_config"), .map [])]

/-- Its outputs are called `x` and `y`. -/
def lockInApi : YamlNode :=
  .map [(.scalar (bytes "api_version"), .scalar (bytes "1.0.0")),
    (.scalar (bytes "instrument"), textMap [(bytes "identifier", bytes "LockIn")]),
    (.scalar (bytes "protocol"), textMap [(bytes "type", bytes "VISA")]),
    (.scalar (bytes "io"), .sequence [dataIo (bytes "x") (bytes "float"), dataIo (bytes "y") (bytes "float")]),
    (.scalar (bytes "commands"), .map
      [(.scalar (bytes "READ_Y"), .map [(.scalar (bytes "template"), .scalar (bytes "OUTP? 2")),
        (.scalar (bytes "parameters"), .sequence []), (.scalar (bytes "outputs"), .sequence [.scalar (bytes "y")])])])]

def lockInRegistry : InstrumentRegistry :=
  ({} : InstrumentRegistry).storeMetadata ⟨bytes "LOCKIN1", .null, (yamlToJson .common lockInApi).getD .null⟩

/-- The output `y` becomes a boolean, and the registry throws when it looks for its type. -/
theorem not_namesSurvive_lockIn :
    (validateInstrumentConfiguration .common (fun _ => []) (.ok lockInConfig)).valid = true ∧
      (validateInstrumentApi .common (fun _ => []) (.ok lockInApi)).valid = true ∧
      ¬ NamesSurvive .common lockInConfig lockInApi ∧
      lockInRegistry.getResponseType (bytes "LOCKIN1") (bytes "READ_Y") = .error .typeError := by
  refine ⟨by decide +kernel, by decide +kernel, fun hsurvive => ?_, by decide +kernel⟩
  have hplain := textsSurvive_iff.mp hsurvive.api
  have houtput := (hplain.2 _ (.output (bytes "READ_Y") 0) (bytes "y") rfl).2
  exact absurd houtput.2.2 (by decide)

end InstrumentServer
