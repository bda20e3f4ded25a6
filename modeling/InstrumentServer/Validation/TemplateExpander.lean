import InstrumentServer.Lib.Lists
import InstrumentServer.Validation.SchemaValidator

/-!
# The template expander

`expand_channel_groups` adds an io entry for every channel and io type of every channel group, and `deduplicate_io` keeps the first entry of every name. The validator goes through the same groups and expects the same names, so it finds all of them; and a second run adds only names that are there.

An exception of the YAML library ends the expander.
-/

namespace InstrumentServer

open YamlNode

/-! ### `expand_channel_groups` -/

/-- An entry that is copied where it is there: `if (node[key]) copy[key] = node[key].as<std::string>()` -/
def copiedText (Y : YamlLibrary) (key : ByteString) (node : Option YamlNode) :
    Except YamlError (List (YamlNode × YamlNode)) := do
  match ← subscript key node with
  | none => return []
  | some value => return [(.scalar key, .scalar (← Y.text (some value)))]

def ioEntry (Y : YamlLibrary) (groupName : ByteString) (ch : Int) (ioType : Option YamlNode) :
    Except YamlError YamlNode := do
  let suffix ← Y.textAt (bytes "suffix") ioType
  let type ← Y.textAt (bytes "type") ioType
  let role ← Y.textAt (bytes "role") ioType
  let description ← copiedText Y (bytes "description") ioType
  let unit ← copiedText Y (bytes "unit") ioType
  return .map ([(.scalar (bytes "name"), .scalar (channelIoName groupName ch suffix)),
    (.scalar (bytes "type"), .scalar type), (.scalar (bytes "role"), .scalar role)] ++ description ++ unit)

/-- The round of the inner loop; `io` is the node under that key. -/
def pushIoEntry (Y : YamlLibrary) (groupName : ByteString) (ch : Int) (io : YamlNode) (ioType : Option YamlNode) :
    Except YamlError YamlNode := do
  pushBack (← ioEntry Y groupName ch ioType) io

def expandChannel (Y : YamlLibrary) (group : ChannelGroup) (io : YamlNode) (ch : Int) : Except YamlError YamlNode :=
  group.ioTypes.foldlM (pushIoEntry Y group.name ch) io

def expandGroup (Y : YamlLibrary) (io : YamlNode) (node : Option YamlNode) : Except YamlError YamlNode := do
  let group ← readGroup Y node
  group.channels.foldlM (expandChannel Y group) io

/-- The entries of the root after `io` was made sure of. -/
def withIo (entries : List (YamlNode × YamlNode)) : List (YamlNode × YamlNode) :=
  if (find? (bytes "io") entries).isNone then setEntry (bytes "io") (.sequence []) entries else entries

def expandChannelGroups (Y : YamlLibrary) (root : YamlNode) : Except YamlError YamlNode := do
  let entries := withIo (← mapEntries root)
  match find? (bytes "channel_groups") entries with
  | none => return .map entries
  | some groups =>
      let io ← (items (some groups)).foldlM (expandGroup Y) ((find? (bytes "io") entries).getD .null)
      return .map (setEntry (bytes "io") io entries)

/-! ### `deduplicate_io` -/

/-- The loop over the entries; `seen` are the names of those kept. -/
def uniqueIo (Y : YamlLibrary) (seen : List ByteString) : List YamlNode → Except YamlError (List YamlNode)
  | [] => return []
  | entry :: entries => do
      let name ← Y.textAt (bytes "name") (some entry)
      if name ∈ seen then uniqueIo Y seen entries
      else return entry :: (← uniqueIo Y (name :: seen) entries)

def deduplicateIo (Y : YamlLibrary) (root : YamlNode) : Except YamlError YamlNode := do
  let entries ← mapEntries root
  match find? (bytes "io") entries with
  | some (.sequence nodes) => return .map (setEntry (bytes "io") (.sequence (← uniqueIo Y [] nodes)) entries)
  | _ => return .map entries

/-- What `main` writes for what it has loaded. -/
def expandTemplate (Y : YamlLibrary) (root : YamlNode) : Except YamlError YamlNode := do
  deduplicateIo Y (← expandChannelGroups Y root)

/-! ### Templates -/

/-- The name of an io entry; empty where it has none. -/
def entryName (Y : YamlLibrary) (entry : YamlNode) : ByteString :=
  (Y.textAt (bytes "name") (some entry)).toOption.getD []

def Named (Y : YamlLibrary) (entry : YamlNode) : Prop := ∃ name, Y.textAt (bytes "name") (some entry) = .ok name

/-- A group with a name, a range of channels and io types, each with a suffix, a type and a role. -/
def WellFormedGroup (Y : YamlLibrary) (node : Option YamlNode) : Prop :=
  ∃ group, readGroup Y node = .ok group ∧ group.max < 2 ^ 31 - 1 ∧
    ∀ ioType ∈ group.ioTypes, ∀ key ∈ [bytes "suffix", bytes "type", bytes "role"],
      ∃ text, Y.textAt key ioType = .ok text

/-- The entries of a template: the channel groups are well formed, and `io` is missing or a sequence of maps with names. -/
structure WellFormedTemplate (Y : YamlLibrary) (root : List (YamlNode × YamlNode)) : Prop where
  groups : ∀ node ∈ items (find? (bytes "channel_groups") root), WellFormedGroup Y node
  io : ∀ io, find? (bytes "io") root = some io →
    ∃ nodes, io = .sequence nodes ∧ ∀ entry ∈ nodes, entry.isMap = true ∧ Named Y entry

/-- The entries under `io`. -/
def ioEntries (root : List (YamlNode × YamlNode)) : List YamlNode :=
  match find? (bytes "io") root with
  | some (.sequence nodes) => nodes
  | _ => []

/-- Where a description or a unit is copied, it is a text. -/
def CopiesTexts (Y : YamlLibrary) (root : List (YamlNode × YamlNode)) : Prop :=
  ∀ node ∈ items (find? (bytes "channel_groups") root), ∀ group, readGroup Y node = .ok group → group.channels ≠ [] →
    ∀ ioType ∈ group.ioTypes, ∀ key ∈ [bytes "description", bytes "unit"], ∀ value,
      subscript key ioType = .ok (some value) → ∃ text, Y.text (some value) = .ok text

/-- An entry that the expander adds for a channel and an io type of a group. -/
def Generated (Y : YamlLibrary) (root : List (YamlNode × YamlNode)) (entry : YamlNode) : Prop :=
  ∃ node ∈ items (find? (bytes "channel_groups") root), ∃ group, readGroup Y node = .ok group ∧
    ∃ ch ∈ group.channels, ∃ ioType ∈ group.ioTypes, ioEntry Y group.name ch ioType = .ok entry

/-- What the expander makes of a template: the validator finds every io of a channel, no name occurs twice, the entries of the template come first and in their order, the rest is left alone, and a second run changes nothing. -/
structure Expanded (Y : YamlLibrary) (root root' : List (YamlNode × YamlNode)) : Prop where
  checked : (validateIoAgainstChannelGroups Y (find? (bytes "io") root') (find? (bytes "channel_groups") root') []).Accepts ()
  named : ∀ entry ∈ ioEntries root', Named Y entry
  distinct : ((ioEntries root').map (entryName Y)).Nodup
  ordered : ∃ added, find? (bytes "io") root' =
      some (.sequence (Lists.firstOf (entryName Y) [] (ioEntries root) ++ added)) ∧
    ∀ entry ∈ added, Generated Y root entry
  others : ∀ key, key ≠ bytes "io" → find? key root' = find? key root
  stable : expandTemplate Y (.map root') = .ok (.map root')

/-! ### What is generated -/

section

variable {Y : YamlLibrary}

theorem fields_of_readGroup {node : Option YamlNode} {group : ChannelGroup} (hread : readGroup Y node = .ok group) :
    Y.textAt (bytes "name") node = .ok group.name ∧ (∃ min, Y.asInt min = .ok group.min) ∧
      ∃ max, Y.asInt max = .ok group.max := by
  rw [readGroup] at hread
  obtain ⟨name, hname, hread⟩ := Lists.bind_eq_ok_iff.mp hread
  obtain ⟨_, -, hread⟩ := Lists.bind_eq_ok_iff.mp hread
  obtain ⟨minNode, -, hread⟩ := Lists.bind_eq_ok_iff.mp hread
  obtain ⟨min, hmin, hread⟩ := Lists.bind_eq_ok_iff.mp hread
  obtain ⟨_, -, hread⟩ := Lists.bind_eq_ok_iff.mp hread
  obtain ⟨maxNode, -, hread⟩ := Lists.bind_eq_ok_iff.mp hread
  obtain ⟨max, hmax, hread⟩ := Lists.bind_eq_ok_iff.mp hread
  obtain ⟨ioTypes, -, hread⟩ := Lists.bind_eq_ok_iff.mp hread
  obtain rfl := Except.ok.inj hread
  exact ⟨hname, ⟨minNode, hmin⟩, maxNode, hmax⟩

/-- The entries of one group, channel by channel. -/
def groupEntries (Y : YamlLibrary) (node : Option YamlNode) : Except YamlError (List YamlNode) := do
  let group ← readGroup Y node
  List.flatten <$> group.channels.mapM fun ch => group.ioTypes.mapM (ioEntry Y group.name ch)

/-- The entries of all groups. -/
def generatedEntries (Y : YamlLibrary) (channelGroups : Option YamlNode) : Except YamlError (List YamlNode) :=
  List.flatten <$> (items channelGroups).mapM (groupEntries Y)

theorem pushIoEntry_sequence (groupName : ByteString) (ch : Int) (nodes : List YamlNode) (ioType : Option YamlNode) :
    pushIoEntry Y groupName ch (.sequence nodes) ioType =
      (ioEntry Y groupName ch ioType).map fun entry => .sequence (nodes ++ [entry]) := by
  rw [pushIoEntry]
  cases ioEntry Y groupName ch ioType <;> rfl

theorem expandChannel_sequence (group : ChannelGroup) (nodes : List YamlNode) (ch : Int) :
    expandChannel Y group (.sequence nodes) ch =
      (group.ioTypes.mapM (ioEntry Y group.name ch)).map fun new => .sequence (nodes ++ new) :=
  Lists.foldlM_pushes (pushIoEntry_sequence group.name ch) nodes group.ioTypes

theorem expandGroup_sequence (nodes : List YamlNode) (node : Option YamlNode) :
    expandGroup Y (.sequence nodes) node = (groupEntries Y node).map fun new => .sequence (nodes ++ new) := by
  rw [expandGroup, groupEntries]
  cases readGroup Y node with
  | error e => rfl
  | ok group =>
      have hchannels := Lists.foldlM_appends (@expandChannel_sequence Y group) nodes group.channels
      simp only [bind, Except.bind]
      rw [hchannels]
      cases group.channels.mapM fun ch => group.ioTypes.mapM (ioEntry Y group.name ch) <;> rfl

/-- Only a map has texts under keys. -/
theorem eq_map_of_textAt {key text : ByteString} {node : Option YamlNode} (htext : Y.textAt key node = .ok text) :
    ∃ entries, node = some (.map entries) := by
  cases node with
  | none => contradiction
  | some node =>
      cases node with
      | map entries => exact ⟨entries, rfl⟩
      | null | scalar value | sequence nodes => contradiction

theorem exists_copiedText_iff {key : ByteString} {entries : List (YamlNode × YamlNode)} :
    (∃ copy, copiedText Y key (some (.map entries)) = .ok copy) ↔
      ∀ value, find? key entries = some value → ∃ text, Y.text (some value) = .ok text := by
  rw [copiedText]
  simp only [subscript_some, get_map, bind, Except.bind]
  cases find? key entries with
  | none => simp [pure, Except.pure]
  | some value =>
      simp only [Option.some.injEq, forall_eq']
      cases Y.text (some value) <;> simp [pure, Except.pure]

/-- An entry is made wherever what it copies is there. -/
theorem exists_ioEntry_iff {groupName : ByteString} {ch : Int} {ioType : Option YamlNode}
    (htexts : ∀ key ∈ [bytes "suffix", bytes "type", bytes "role"], ∃ text, Y.textAt key ioType = .ok text) :
    (∃ entry, ioEntry Y groupName ch ioType = .ok entry) ↔
      ∀ key ∈ [bytes "description", bytes "unit"], ∀ value, subscript key ioType = .ok (some value) →
        ∃ text, Y.text (some value) = .ok text := by
  obtain ⟨⟨suffix, hsuffix⟩, ⟨type, htype⟩, ⟨role, hrole⟩, -⟩ := by simpa only [List.forall_mem_cons] using htexts
  obtain ⟨entries, rfl⟩ := eq_map_of_textAt hsuffix
  have hdescription := @exists_copiedText_iff Y (bytes "description") entries
  have hunit := @exists_copiedText_iff Y (bytes "unit") entries
  simp only [List.forall_mem_cons, List.not_mem_nil, false_implies, implies_true, and_true, subscript_some, get_map,
    Except.ok.injEq, ← hdescription, ← hunit]
  rw [ioEntry, hsuffix, htype, hrole]
  simp only [bind, Except.bind]
  cases copiedText Y (bytes "description") (some (.map entries)) with
  | error e => simp
  | ok description => cases copiedText Y (bytes "unit") (some (.map entries)) <;> simp [pure, Except.pure]

/-- The name of an entry is that of its channel and suffix; its type and role are those of the io type. -/
theorem textAt_ioEntry {groupName : ByteString} {ch : Int} {ioType : Option YamlNode} {entry : YamlNode}
    (hentry : ioEntry Y groupName ch ioType = .ok entry) :
    ∃ suffix type role, Y.textAt (bytes "suffix") ioType = .ok suffix ∧ Y.textAt (bytes "type") ioType = .ok type ∧
      Y.textAt (bytes "role") ioType = .ok role ∧
      Y.textAt (bytes "name") (some entry) = .ok (channelIoName groupName ch suffix) ∧
      Y.textAt (bytes "type") (some entry) = .ok type ∧ Y.textAt (bytes "role") (some entry) = .ok role := by
  rw [ioEntry] at hentry
  obtain ⟨suffix, hsuffix, hentry⟩ := Lists.bind_eq_ok_iff.mp hentry
  obtain ⟨type, htype, hentry⟩ := Lists.bind_eq_ok_iff.mp hentry
  obtain ⟨role, hrole, hentry⟩ := Lists.bind_eq_ok_iff.mp hentry
  obtain ⟨description, -, hentry⟩ := Lists.bind_eq_ok_iff.mp hentry
  obtain ⟨unit, -, hentry⟩ := Lists.bind_eq_ok_iff.mp hentry
  obtain rfl := Except.ok.inj hentry
  exact ⟨suffix, type, role, hsuffix, htype, hrole, rfl, rfl, rfl⟩

theorem mem_groupEntries {node : Option YamlNode} {gen : List YamlNode} (hgen : groupEntries Y node = .ok gen)
    {entry : YamlNode} :
    entry ∈ gen ↔ ∃ group, readGroup Y node = .ok group ∧
      ∃ ch ∈ group.channels, ∃ ioType ∈ group.ioTypes, ioEntry Y group.name ch ioType = .ok entry := by
  obtain ⟨group, hread, hgen⟩ := Lists.bind_eq_ok_iff.mp hgen
  obtain ⟨channels, hchannels, rfl⟩ := Lists.map_eq_ok_iff.mp hgen
  rw [List.mem_flatten]
  constructor
  · rintro ⟨entries, hentries, hentry⟩
    obtain ⟨ch, hch, hentries⟩ := (Lists.mem_of_mapM_ok hchannels).mp hentries
    obtain ⟨ioType, hioType, hentry⟩ := (Lists.mem_of_mapM_ok hentries).mp hentry
    exact ⟨group, hread, ch, hch, ioType, hioType, hentry⟩
  · rintro ⟨group', hread', ch, hch, ioType, hioType, hentry⟩
    rw [hread] at hread'
    obtain rfl := Except.ok.inj hread'
    obtain ⟨entries, hentries⟩ := Lists.exists_mapM_ok_iff.mp ⟨channels, hchannels⟩ ch hch
    exact ⟨entries, (Lists.mem_of_mapM_ok hchannels).mpr ⟨ch, hch, hentries⟩,
      (Lists.mem_of_mapM_ok hentries).mpr ⟨ioType, hioType, hentry⟩⟩

theorem exists_groupEntries_iff {node : Option YamlNode} (hgroup : WellFormedGroup Y node) :
    (∃ gen, groupEntries Y node = .ok gen) ↔
      ∀ group, readGroup Y node = .ok group → group.channels ≠ [] → ∀ ioType ∈ group.ioTypes,
        ∀ key ∈ [bytes "description", bytes "unit"], ∀ value, subscript key ioType = .ok (some value) →
          ∃ text, Y.text (some value) = .ok text := by
  obtain ⟨group, hread, -, htexts⟩ := hgroup
  have hsome : (∃ gen, groupEntries Y node = .ok gen) ↔
      ∃ channels, group.channels.mapM (fun ch => group.ioTypes.mapM (ioEntry Y group.name ch)) = .ok channels := by
    rw [groupEntries, hread]
    constructor
    · rintro ⟨gen, hgen⟩
      obtain ⟨channels, hchannels, -⟩ := Lists.map_eq_ok_iff.mp hgen
      exact ⟨channels, hchannels⟩
    · rintro ⟨channels, hchannels⟩
      exact ⟨channels.flatten, Lists.map_eq_ok_iff.mpr ⟨channels, hchannels, rfl⟩⟩
  rw [hsome, Lists.exists_mapM_ok_iff]
  simp only [hread, Except.ok.injEq, forall_eq']
  constructor
  · intro hall hchannels ioType hioType
    obtain ⟨ch, hch⟩ := List.exists_mem_of_ne_nil _ hchannels
    have hentry := Lists.exists_mapM_ok_iff.mp (hall ch hch) ioType hioType
    exact (exists_ioEntry_iff (htexts ioType hioType)).mp hentry
  · intro hall ch hch
    refine Lists.exists_mapM_ok_iff.mpr fun ioType hioType => ?_
    exact (exists_ioEntry_iff (htexts ioType hioType)).mpr (hall (List.ne_nil_of_mem hch) ioType hioType)

theorem exists_generatedEntries_iff {root : List (YamlNode × YamlNode)} (hroot : WellFormedTemplate Y root) :
    (∃ gen, generatedEntries Y (find? (bytes "channel_groups") root) = .ok gen) ↔ CopiesTexts Y root := by
  have hsome : (∃ gen, generatedEntries Y (find? (bytes "channel_groups") root) = .ok gen) ↔
      ∃ groups, (items (find? (bytes "channel_groups") root)).mapM (groupEntries Y) = .ok groups := by
    constructor
    · rintro ⟨gen, hgen⟩
      obtain ⟨groups, hgroups, -⟩ := Lists.map_eq_ok_iff.mp hgen
      exact ⟨groups, hgroups⟩
    · rintro ⟨groups, hgroups⟩
      exact ⟨groups.flatten, Lists.map_eq_ok_iff.mpr ⟨groups, hgroups, rfl⟩⟩
  rw [hsome, Lists.exists_mapM_ok_iff, CopiesTexts]
  exact forall₂_congr fun node hnode => exists_groupEntries_iff (hroot.groups node hnode)

/-- Where the entries of all groups are made, that of every channel and io type is. -/
theorem exists_ioEntry {channelGroups : Option YamlNode} {gen : List YamlNode}
    (hgen : generatedEntries Y channelGroups = .ok gen) {node : Option YamlNode} (hnode : node ∈ items channelGroups)
    {group : ChannelGroup} (hread : readGroup Y node = .ok group) {ch : Int} (hch : ch ∈ group.channels)
    {ioType : Option YamlNode} (hioType : ioType ∈ group.ioTypes) :
    ∃ entry, ioEntry Y group.name ch ioType = .ok entry := by
  obtain ⟨groups, hgroups, -⟩ := Lists.map_eq_ok_iff.mp hgen
  obtain ⟨entries, hentries⟩ := Lists.exists_mapM_ok_iff.mp ⟨groups, hgroups⟩ node hnode
  rw [groupEntries, hread] at hentries
  obtain ⟨channels, hchannels, -⟩ := Lists.map_eq_ok_iff.mp hentries
  obtain ⟨perType, hperType⟩ := Lists.exists_mapM_ok_iff.mp ⟨channels, hchannels⟩ ch hch
  exact Lists.exists_mapM_ok_iff.mp ⟨perType, hperType⟩ ioType hioType

theorem mem_generatedEntries {root : List (YamlNode × YamlNode)} {gen : List YamlNode}
    (hgen : generatedEntries Y (find? (bytes "channel_groups") root) = .ok gen) {entry : YamlNode} :
    entry ∈ gen ↔ Generated Y root entry := by
  obtain ⟨groups, hgroups, rfl⟩ := Lists.map_eq_ok_iff.mp hgen
  rw [List.mem_flatten]
  constructor
  · rintro ⟨entries, hentries, hentry⟩
    obtain ⟨node, hnode, hentries⟩ := (Lists.mem_of_mapM_ok hgroups).mp hentries
    exact ⟨node, hnode, (mem_groupEntries hentries).mp hentry⟩
  · rintro ⟨node, hnode, hentry⟩
    obtain ⟨entries, hentries⟩ := Lists.exists_mapM_ok_iff.mp ⟨groups, hgroups⟩ node hnode
    exact ⟨entries, (Lists.mem_of_mapM_ok hgroups).mpr ⟨node, hnode, hentries⟩, (mem_groupEntries hentries).mpr hentry⟩

/-! ### The two functions together -/

theorem uniqueIo_named (seen : List ByteString) {nodes : List YamlNode} (hnamed : ∀ entry ∈ nodes, Named Y entry) :
    uniqueIo Y seen nodes = .ok (Lists.firstOf (entryName Y) seen nodes) := by
  induction nodes generalizing seen with
  | nil => rfl
  | cons entry nodes ih =>
      obtain ⟨⟨name, hname⟩, hnamed⟩ := List.forall_mem_cons.mp hnamed
      have hkey : entryName Y entry = name := by
        rw [entryName, hname]
        rfl
      rw [uniqueIo, hname, Lists.firstOf, hkey]
      simp only [bind, Except.bind]
      split
      · exact ih seen hnamed
      · rw [ih _ hnamed]
        rfl

theorem expandChannelGroups_eq {root : List (YamlNode × YamlNode)}
    (hio : ∀ io, find? (bytes "io") root = some io → ∃ nodes, io = .sequence nodes) :
    expandChannelGroups Y (.map root) = (generatedEntries Y (find? (bytes "channel_groups") root)).map fun gen =>
      .map (setEntry (bytes "io") (.sequence (ioEntries root ++ gen)) root) := by
  have hgroups : find? (bytes "channel_groups") (withIo root) = find? (bytes "channel_groups") root := by
    rw [withIo]
    split
    · rw [find?_setEntry, if_neg (by decide)]
    · rfl
  have hsequence : find? (bytes "io") (withIo root) = some (.sequence (ioEntries root)) := by
    rw [withIo, ioEntries]
    cases hfind : find? (bytes "io") root with
    | none => rw [Option.isNone_none, if_pos rfl, find?_setEntry, if_pos rfl]
    | some io =>
        obtain ⟨nodes, rfl⟩ := hio io hfind
        rw [Option.isNone_some, if_neg Bool.false_ne_true, hfind]
  have hset : ∀ value, setEntry (bytes "io") value (withIo root) = setEntry (bytes "io") value root := by
    intro value
    rw [withIo]
    split
    · exact setEntry_setEntry _ _ _ _
    · rfl
  rw [expandChannelGroups]
  simp only [mapEntries, bind, Except.bind, hgroups, hsequence, hset, Option.getD_some]
  cases hfind : find? (bytes "channel_groups") root with
  | none =>
      have hself := setEntry_self hsequence
      rw [hset] at hself
      simp [generatedEntries, items, Except.map, pure, Except.pure, hself]
  | some groups =>
      dsimp only
      rw [Lists.foldlM_appends (@expandGroup_sequence Y), generatedEntries]
      cases (items (some groups)).mapM (groupEntries Y) <;> rfl

theorem Generated.named {root : List (YamlNode × YamlNode)} {entry : YamlNode} (hentry : Generated Y root entry) :
    Named Y entry := by
  obtain ⟨node, -, group, -, ch, -, ioType, -, hentry⟩ := hentry
  obtain ⟨suffix, type, role, -, -, -, hname, -⟩ := textAt_ioEntry hentry
  exact ⟨_, hname⟩

theorem WellFormedTemplate.named {root : List (YamlNode × YamlNode)} (hroot : WellFormedTemplate Y root)
    {entry : YamlNode} (hentry : entry ∈ ioEntries root) : Named Y entry := by
  rw [ioEntries] at hentry
  split at hentry
  · rename_i nodes hfind
    obtain ⟨nodes', hsequence, hentries⟩ := hroot.io _ hfind
    obtain rfl := YamlNode.sequence.inj hsequence
    exact (hentries entry hentry).2
  · contradiction

theorem expandTemplate_eq {root : List (YamlNode × YamlNode)} (hroot : WellFormedTemplate Y root) :
    expandTemplate Y (.map root) = (generatedEntries Y (find? (bytes "channel_groups") root)).map fun gen =>
      .map (setEntry (bytes "io") (.sequence (Lists.firstOf (entryName Y) [] (ioEntries root ++ gen))) root) := by
  have hexpand := @expandChannelGroups_eq Y root fun io hio => (hroot.io io hio).imp fun _ h => h.1
  rw [expandTemplate, hexpand]
  cases hgen : generatedEntries Y (find? (bytes "channel_groups") root) with
  | error e => rfl
  | ok gen =>
      have hnamed : ∀ entry ∈ ioEntries root ++ gen, Named Y entry := by
        intro entry hentry
        rcases List.mem_append.mp hentry with hold | hnew
        · exact hroot.named hold
        · exact ((mem_generatedEntries hgen).mp hnew).named
      simp only [Except.map, bind, Except.bind, deduplicateIo, mapEntries, find?_setEntry, if_true, uniqueIo_named [] hnamed,
        setEntry_setEntry]
      rfl

theorem ioNames_named {nodes : List YamlNode} (hnamed : ∀ entry ∈ nodes, Named Y entry) :
    ioNames Y (some (.sequence nodes)) = .ok (nodes.map (entryName Y)) := by
  rw [ioNames, items_sequence, List.mapM_map, Lists.mapM_ok_iff, List.forall₂_map_right_iff]
  refine List.forall₂_same.mpr fun entry hentry => ?_
  obtain ⟨name, hname⟩ := hnamed entry hentry
  rw [entryName, Function.comp_apply, hname]
  rfl

/-- The template with its new io entries. -/
def expandedRoot (Y : YamlLibrary) (root : List (YamlNode × YamlNode)) (gen : List YamlNode) : List (YamlNode × YamlNode) :=
  setEntry (bytes "io") (.sequence (Lists.firstOf (entryName Y) [] (ioEntries root ++ gen))) root

section

variable {root : List (YamlNode × YamlNode)} {gen : List YamlNode}

theorem find?_expandedRoot_io : find? (bytes "io") (expandedRoot Y root gen) =
    some (.sequence (Lists.firstOf (entryName Y) [] (ioEntries root ++ gen))) := by
  rw [expandedRoot, find?_setEntry, if_pos rfl]

theorem find?_expandedRoot {key : ByteString} (hkey : key ≠ bytes "io") :
    find? key (expandedRoot Y root gen) = find? key root := by
  rw [expandedRoot, find?_setEntry, if_neg (Ne.symm hkey)]

theorem ioEntries_expandedRoot : ioEntries (expandedRoot Y root gen) =
    Lists.firstOf (entryName Y) [] (ioEntries root ++ gen) := by
  rw [ioEntries, find?_expandedRoot_io]

/-- The names are those of the template and of what was generated. -/
theorem mem_names_expandedRoot {name : ByteString} : name ∈ (ioEntries (expandedRoot Y root gen)).map (entryName Y) ↔
    name ∈ (ioEntries root ++ gen).map (entryName Y) := by
  rw [ioEntries_expandedRoot, Lists.mem_map_firstOf, and_iff_left List.not_mem_nil]

variable (hroot : WellFormedTemplate Y root) (hgen : generatedEntries Y (find? (bytes "channel_groups") root) = .ok gen)

include hroot hgen

theorem named_expandedRoot {entry : YamlNode} (hentry : entry ∈ ioEntries (expandedRoot Y root gen)) : Named Y entry := by
  rw [ioEntries_expandedRoot] at hentry
  rcases List.mem_append.mp ((Lists.firstOf_sublist _ _).subset hentry) with hold | hnew
  · exact hroot.named hold
  · exact ((mem_generatedEntries hgen).mp hnew).named

theorem wellFormedTemplate_expandedRoot : WellFormedTemplate Y (expandedRoot Y root gen) where
  groups node hnode := by
    rw [find?_expandedRoot (by decide)] at hnode
    exact hroot.groups node hnode
  io io hio := by
    rw [find?_expandedRoot_io] at hio
    obtain rfl := Option.some.inj hio
    refine ⟨_, rfl, fun entry hentry => ?_⟩
    rw [← ioEntries_expandedRoot] at hentry
    obtain ⟨name, hname⟩ := named_expandedRoot hroot hgen hentry
    obtain ⟨entries, hmap⟩ := eq_map_of_textAt hname
    exact ⟨by rw [Option.some.inj hmap]; rfl, name, hname⟩

/-- The validator finds the io of every channel. -/
theorem checked_expandedRoot :
    (validateIoAgainstChannelGroups Y (find? (bytes "io") (expandedRoot Y root gen))
      (find? (bytes "channel_groups") (expandedRoot Y root gen)) []).Accepts () := by
  rw [find?_expandedRoot_io, find?_expandedRoot (by decide), validateIoAgainstChannelGroups, ← ioEntries_expandedRoot,
    ioNames_named fun entry hentry => named_expandedRoot hroot hgen hentry]
  split
  · exact Validator.accepts_pure.mpr rfl
  · simp only [Validator.accepts_bind, Validator.accepts_lift, Validator.accepts_forEach, Except.ok.injEq, exists_eq_left']
    intro node hnode
    obtain ⟨group, hread, -, htexts⟩ := hroot.groups node hnode
    refine ⟨group, hread, fun ch hch ioType hioType => ?_⟩
    obtain ⟨suffix, hsuffix⟩ := htexts ioType hioType (bytes "suffix") List.mem_cons_self
    refine ⟨suffix, hsuffix, ?_⟩
    rw [if_pos]
    · exact Validator.accepts_pure.mpr rfl
    · obtain ⟨entry, hentry⟩ := exists_ioEntry hgen hnode hread hch hioType
      obtain ⟨suffix', type, role, hsuffix', -, -, hname, -⟩ := textAt_ioEntry hentry
      rw [hsuffix] at hsuffix'
      obtain rfl := Except.ok.inj hsuffix'
      have hmem : entry ∈ gen := (mem_generatedEntries hgen).mpr ⟨node, hnode, group, hread, ch, hch, ioType, hioType, hentry⟩
      have hkey : entryName Y entry = channelIoName group.name ch suffix := by
        rw [entryName, hname]
        rfl
      rw [mem_names_expandedRoot, ← hkey]
      exact List.mem_map_of_mem (List.mem_append_right _ hmem)

theorem stable_expandedRoot :
    expandTemplate Y (.map (expandedRoot Y root gen)) =
      .ok (.map (expandedRoot Y root gen)) := by
  have hknown : ∀ entry ∈ gen, entryName Y entry ∈ (ioEntries (expandedRoot Y root gen)).map (entryName Y) :=
    fun entry hentry => mem_names_expandedRoot.mpr (List.mem_map_of_mem (List.mem_append_right _ hentry))
  have hagain : Lists.firstOf (entryName Y) [] (ioEntries (expandedRoot Y root gen) ++ gen) =
      ioEntries (expandedRoot Y root gen) := by
    rw [Lists.firstOf_append, Lists.firstOf_eq_nil fun entry hentry => List.mem_append_left _ (hknown entry hentry),
      List.append_nil, Lists.firstOf_eq_self _ fun _ _ => List.not_mem_nil]
    rw [ioEntries_expandedRoot]
    exact Lists.nodup_map_firstOf _ _
  rw [expandTemplate_eq (wellFormedTemplate_expandedRoot hroot hgen), find?_expandedRoot (by decide), hgen]
  simp only [Except.map, hagain]
  rw [ioEntries_expandedRoot, setEntry_self find?_expandedRoot_io]

theorem expanded_expandedRoot : Expanded Y root (expandedRoot Y root gen) where
  checked := checked_expandedRoot hroot hgen
  named _ hentry := named_expandedRoot hroot hgen hentry
  distinct := by
    rw [ioEntries_expandedRoot]
    exact Lists.nodup_map_firstOf _ _
  ordered := by
    rw [find?_expandedRoot_io, Lists.firstOf_append]
    refine ⟨_, rfl, fun entry hentry => ?_⟩
    exact (mem_generatedEntries hgen).mp ((Lists.firstOf_sublist _ _).subset hentry)
  others _ hkey := find?_expandedRoot hkey
  stable := stable_expandedRoot hroot hgen

end

/-- The expander comes to an end exactly where the descriptions and units it copies are texts, and the validator agrees with what it writes. -/
theorem expandTemplate_agrees {root : List (YamlNode × YamlNode)} (hroot : WellFormedTemplate Y root) :
    ((∃ result, expandTemplate Y (.map root) = .ok result) ↔ CopiesTexts Y root) ∧
      ∀ result, expandTemplate Y (.map root) = .ok result → ∃ root', result = .map root' ∧ Expanded Y root root' := by
  rw [← exists_generatedEntries_iff hroot, expandTemplate_eq hroot]
  cases hgen : generatedEntries Y (find? (bytes "channel_groups") root) with
  | error e => simp [Except.map]
  | ok gen =>
      refine ⟨⟨fun _ => ⟨gen, rfl⟩, fun _ => ⟨_, rfl⟩⟩, fun result hresult => ?_⟩
      obtain rfl := Except.ok.inj hresult
      exact ⟨expandedRoot Y root gen, rfl, expanded_expandedRoot hroot hgen⟩

end

/-! ### A run -/

/-- The io type of an analog channel. -/
def voltageType : YamlNode :=
  textMap [(bytes "suffix", bytes "voltage"), (bytes "type", bytes "float"), (bytes "role", bytes "output"),
    (bytes "unit", bytes "V")]

/-- Two analog channels. -/
def analogGroup : YamlNode :=
  .map [(.scalar (bytes "name"), .scalar (bytes "analog")),
    (.scalar (bytes "channel_parameter"), textMap [(bytes "name", bytes "channel"), (bytes "type", bytes "int"),
      (bytes "min", bytes "1"), (bytes "max", bytes "2")]),
    (.scalar (bytes "io_types"), .sequence [voltageType])]

/-- A scope with a trigger, which is listed twice, and two analog channels. -/
def scopeTemplate : List (YamlNode × YamlNode) :=
  [(.scalar (bytes "io"), .sequence (List.replicate 2 (textMap [(bytes "name", bytes "trigger"),
      (bytes "type", bytes "float"), (bytes "role", bytes "input")]))),
    (.scalar (bytes "channel_groups"), .sequence [analogGroup])]

theorem expandTemplate_agrees_scope :
    ∃ root', expandTemplate .decimals (.map scopeTemplate) = .ok (.map root') ∧
      Expanded .decimals scopeTemplate root' := by
  have hread : readGroup .decimals (some analogGroup) = .ok ⟨bytes "analog", 1, 2, [some voltageType]⟩ := rfl
  have hroot : WellFormedTemplate .decimals scopeTemplate := by
    refine ⟨fun node hnode => ?_, fun io hio => ?_⟩
    · obtain rfl := List.mem_singleton.mp hnode
      refine ⟨_, hread, by decide, fun ioType hioType => ?_⟩
      obtain rfl := List.mem_singleton.mp hioType
      simp only [List.forall_mem_cons]
      exact ⟨⟨_, rfl⟩, ⟨_, rfl⟩, ⟨_, rfl⟩, fun _ h => absurd h List.not_mem_nil⟩
    · obtain rfl := Option.some.inj hio
      refine ⟨_, rfl, fun entry hentry => ?_⟩
      obtain rfl := List.eq_of_mem_replicate hentry
      exact ⟨rfl, _, rfl⟩
  obtain ⟨hends, hagrees⟩ := expandTemplate_agrees hroot
  obtain ⟨result, hresult⟩ := hends.mpr <| by
    intro node hnode group hgroup _ ioType hioType key hkey value hvalue
    obtain rfl := List.mem_singleton.mp hnode
    rw [hread] at hgroup
    obtain rfl := Except.ok.inj hgroup
    obtain rfl := List.mem_singleton.mp hioType
    obtain rfl | rfl := List.mem_pair.mp hkey
    · have hmissing : subscript (bytes "description") (some voltageType) = .ok none := rfl
      rw [hmissing] at hvalue
      exact absurd (Except.ok.inj hvalue) (Option.some_ne_none value).symm
    · obtain rfl := Option.some.inj (Except.ok.inj hvalue)
      exact ⟨_, rfl⟩
  obtain ⟨root', rfl, hexpanded⟩ := hagrees result hresult
  exact ⟨root', hresult, hexpanded⟩

end InstrumentServer
