import InstrumentServer.Validation.TemplateExpander

/-!
# The names of channels

The name of a generated io is the name of its group, the number of the channel, `_` and the suffix. Within a group such a name determines the channel and the suffix, as a number has no `_` in it. Across groups it does not: channel 11 of `a` and channel 1 of `a1` have the same name, and `deduplicate_io` drops the second. `losesNothing_iff` says when nothing is lost by that.
-/

namespace InstrumentServer

open YamlNode

section

variable (Y : YamlLibrary)

/-- What a group says of an io type at one of its channels. -/
@[ext] structure ChannelIo where
  group : ByteString
  ch : Int
  suffix : ByteString
  type : ByteString
  role : ByteString
deriving DecidableEq

def ChannelIo.name (io : ChannelIo) : ByteString := channelIoName io.group io.ch io.suffix

/-- The group declares this for the channel and one of its io types. -/
def Declares (group : ChannelGroup) (io : ChannelIo) : Prop :=
  io.group = group.name ∧ io.ch ∈ group.channels ∧ ∃ ioType ∈ group.ioTypes,
    Y.textAt (bytes "suffix") ioType = .ok io.suffix ∧ Y.textAt (bytes "type") ioType = .ok io.type ∧
      Y.textAt (bytes "role") ioType = .ok io.role

/-- The root has a group that declares this. -/
def Declared (root : List (YamlNode × YamlNode)) (io : ChannelIo) : Prop :=
  ∃ node ∈ items (find? (bytes "channel_groups") root), ∃ group, readGroup Y node = .ok group ∧ Declares Y group io

/-- The names of the groups differ, the suffixes in a group differ, and no io of the template has a generated name. -/
structure DistinctNames (root : List (YamlNode × YamlNode)) : Prop where
  groups : ((items (find? (bytes "channel_groups") root)).map (Y.textAt (bytes "name"))).Nodup
  suffixes : ∀ node ∈ items (find? (bytes "channel_groups") root), ∀ group, readGroup Y node = .ok group →
    (group.ioTypes.map (Y.textAt (bytes "suffix"))).Nodup
  handwritten : ∀ io, Declared Y root io → io.name ∉ (ioEntries root).map (entryName Y)

/-- The entry says what the group says. -/
def Describes (entry : YamlNode) (io : ChannelIo) : Prop :=
  Y.textAt (bytes "name") (some entry) = .ok io.name ∧ Y.textAt (bytes "type") (some entry) = .ok io.type ∧
    Y.textAt (bytes "role") (some entry) = .ok io.role

/-- The expander comes to an end, and there is an entry for every channel and io type of every group. -/
def LosesNothing (root : List (YamlNode × YamlNode)) : Prop :=
  ∃ root', expandTemplate Y (.map root) = .ok (.map root') ∧
    ∀ io, Declared Y root io → ∃ entry ∈ ioEntries root', Describes Y entry io

end

variable {Y : YamlLibrary} {root : List (YamlNode × YamlNode)}

/-! ### Names within a group -/

/-- Within a group the name determines the channel and the suffix. -/
theorem channelIoName_inj {group suffix suffix' : ByteString} {ch ch' : Int}
    (hname : channelIoName group ch suffix = channelIoName group ch' suffix') : ch = ch' ∧ suffix = suffix' := by
  have hseparator : bytes "_" = [95] := by decide
  simp only [channelIoName, hseparator, List.append_assoc, List.singleton_append] at hname
  exact ByteString.eq_of_decimalInt_append (by decide) (by decide) (List.append_cancel_left hname)

/-- Two io of one group with one name are the same. -/
theorem DistinctNames.eq_of_name (hdistinct : DistinctNames Y root) {io io' : ChannelIo} (hio : Declared Y root io)
    (hio' : Declared Y root io') (hgroup : io.group = io'.group) (hname : io.name = io'.name) : io = io' := by
  obtain ⟨node, hnode, group, hread, hgroupName, -, ioType, hioType, hsuffix, htype, hrole⟩ := hio
  obtain ⟨node', hnode', group', hread', hgroupName', -, ioType', hioType', hsuffix', htype', hrole'⟩ := hio'
  have hnodes : node = node' := by
    refine List.inj_on_of_nodup_map hdistinct.groups hnode hnode' ?_
    rw [(fields_of_readGroup hread).1, (fields_of_readGroup hread').1, ← hgroupName, ← hgroupName', hgroup]
  subst hnodes
  rw [hread] at hread'
  obtain rfl := Except.ok.inj hread'
  rw [ChannelIo.name, ChannelIo.name, hgroup] at hname
  obtain ⟨hch, hsuffixes⟩ := channelIoName_inj hname
  have hioTypes : ioType = ioType' := by
    refine List.inj_on_of_nodup_map (hdistinct.suffixes node hnode group hread) hioType hioType' ?_
    rw [hsuffix, hsuffix', hsuffixes]
  subst hioTypes
  rw [htype] at htype'
  rw [hrole] at hrole'
  exact ChannelIo.ext hgroup hch hsuffixes (Except.ok.inj htype') (Except.ok.inj hrole')

/-! ### What is lost -/

theorem Describes.entryName {entry : YamlNode} {io : ChannelIo} (hdescribes : Describes Y entry io) :
    entryName Y entry = io.name := by
  rw [InstrumentServer.entryName, hdescribes.1]
  rfl

theorem Generated.exists_declared {entry : YamlNode} (hentry : Generated Y root entry) :
    ∃ io, Declared Y root io ∧ Describes Y entry io := by
  obtain ⟨node, hnode, group, hread, ch, hch, ioType, hioType, hentry⟩ := hentry
  obtain ⟨suffix, type, role, hsuffix, htype, hrole, htexts⟩ := textAt_ioEntry hentry
  exact ⟨⟨group.name, ch, suffix, type, role⟩,
    ⟨node, hnode, group, hread, rfl, hch, ioType, hioType, hsuffix, htype, hrole⟩, htexts⟩

/-- What is declared is generated, whether or not it is kept. -/
theorem Declared.exists_generated {gen : List YamlNode}
    (hgen : generatedEntries Y (find? (bytes "channel_groups") root) = .ok gen) {io : ChannelIo}
    (hio : Declared Y root io) : ∃ entry ∈ gen, Describes Y entry io := by
  obtain ⟨node, hnode, group, hread, hgroup, hch, ioType, hioType, hsuffix, htype, hrole⟩ := hio
  obtain ⟨entry, hentry⟩ := exists_ioEntry hgen hnode hread hch hioType
  obtain ⟨suffix, type, role, hsuffix', htype', hrole', htexts⟩ := textAt_ioEntry hentry
  obtain rfl := Except.ok.inj (hsuffix.symm.trans hsuffix')
  obtain rfl := Except.ok.inj (htype.symm.trans htype')
  obtain rfl := Except.ok.inj (hrole.symm.trans hrole')
  refine ⟨entry, (mem_generatedEntries hgen).mpr ⟨node, hnode, group, hread, io.ch, hch, ioType, hioType, hentry⟩, ?_⟩
  rw [Describes, ChannelIo.name, hgroup]
  exact htexts

/-- The entry that is kept under a declared name is a generated one. -/
theorem exists_kept (hdistinct : DistinctNames Y root) {gen : List YamlNode}
    (hgen : generatedEntries Y (find? (bytes "channel_groups") root) = .ok gen) {io : ChannelIo}
    (hio : Declared Y root io) :
    ∃ entry ∈ ioEntries (expandedRoot Y root gen), ∃ io', Declared Y root io' ∧ Describes Y entry io' ∧ io'.name = io.name := by
  obtain ⟨made, hmade, hdescribes⟩ := hio.exists_generated hgen
  have hname : io.name ∈ (ioEntries (expandedRoot Y root gen)).map (entryName Y) := by
    rw [mem_names_expandedRoot, ← hdescribes.entryName]
    exact List.mem_map_of_mem (List.mem_append_right _ hmade)
  obtain ⟨entry, hentry, hkey⟩ := List.mem_map.mp hname
  refine ⟨entry, hentry, ?_⟩
  rw [ioEntries_expandedRoot] at hentry
  rcases List.mem_append.mp ((Lists.firstOf_sublist _ _).subset hentry) with hold | hnew
  · exact absurd (hkey ▸ List.mem_map_of_mem hold) (hdistinct.handwritten io hio)
  · obtain ⟨io', hio', hdescribes'⟩ := ((mem_generatedEntries hgen).mp hnew).exists_declared
    exact ⟨io', hio', hdescribes', hdescribes'.entryName.symm.trans hkey⟩

/-- Nothing is lost exactly if io of different groups with one name have the same type and role. -/
theorem losesNothing_iff (hroot : WellFormedTemplate Y root) (hcopies : CopiesTexts Y root)
    (hdistinct : DistinctNames Y root) :
    LosesNothing Y root ↔ ∀ io io', Declared Y root io → Declared Y root io' → io.group ≠ io'.group →
      io.name = io'.name → io.type = io'.type ∧ io.role = io'.role := by
  obtain ⟨gen, hgen⟩ := (exists_generatedEntries_iff hroot).mpr hcopies
  have hexpand : expandTemplate Y (.map root) = .ok (.map (expandedRoot Y root gen)) := by
    rw [expandTemplate_eq hroot, hgen]
    rfl
  constructor
  · rintro ⟨root', hroot', hall⟩ io io' hio hio' - hname
    obtain rfl := YamlNode.map.inj (Except.ok.inj (hexpand.symm.trans hroot'))
    obtain ⟨entry, hentry, hdescribes⟩ := hall io hio
    obtain ⟨entry', hentry', hdescribes'⟩ := hall io' hio'
    have hsame : entry = entry' := by
      refine List.inj_on_of_nodup_map (expanded_expandedRoot hroot hgen).distinct hentry hentry' ?_
      rw [hdescribes.entryName, hdescribes'.entryName, hname]
    subst hsame
    exact ⟨Except.ok.inj (hdescribes.2.1.symm.trans hdescribes'.2.1),
      Except.ok.inj (hdescribes.2.2.symm.trans hdescribes'.2.2)⟩
  · intro hagree
    refine ⟨_, hexpand, fun io hio => ?_⟩
    obtain ⟨entry, hentry, io', hio', hdescribes, hname⟩ := exists_kept hdistinct hgen hio
    refine ⟨entry, hentry, ?_⟩
    by_cases hgroup : io'.group = io.group
    · rwa [← hdistinct.eq_of_name hio' hio hgroup hname]
    · obtain ⟨htype, hrole⟩ := hagree io' io hio' hio hgroup hname
      rw [Describes, ← hname, ← htype, ← hrole]
      exact hdescribes

/-! ### Runs -/

/-- A group with one channel, whose number is also given as a text, and one output of a type. -/
structure OutputGroup where
  name : ByteString
  number : ByteString
  ch : Int
  type : ByteString

namespace OutputGroup

/-- The io type `x` of the output. -/
def ioType (g : OutputGroup) : YamlNode :=
  textMap [(bytes "suffix", bytes "x"), (bytes "type", g.type), (bytes "role", bytes "output")]

def node (g : OutputGroup) : YamlNode :=
  .map [(.scalar (bytes "name"), .scalar g.name),
    (.scalar (bytes "channel_parameter"), textMap [(bytes "name", bytes "channel"), (bytes "type", bytes "int"),
      (bytes "min", g.number), (bytes "max", g.number)]),
    (.scalar (bytes "io_types"), .sequence [g.ioType])]

def output (g : OutputGroup) : ChannelIo := ⟨g.name, g.ch, bytes "x", g.type, bytes "output"⟩

/-- The text of the number reads as the number. -/
def Reads (Y : YamlLibrary) (g : OutputGroup) : Prop :=
  Y.asInt (some (.scalar g.number)) = .ok g.ch ∧ g.ch < 2 ^ 31 - 1

/-- A template with nothing but such groups. -/
def template (groups : List OutputGroup) : List (YamlNode × YamlNode) :=
  [(.scalar (bytes "channel_groups"), .sequence (groups.map node))]

variable {g : OutputGroup} {groups : List OutputGroup}

theorem readGroup_node (hreads : g.Reads Y) : readGroup Y (some g.node) = .ok ⟨g.name, g.ch, g.ch, [some g.ioType]⟩ := by
  have hname : Y.textAt (bytes "name") (some g.node) = .ok g.name := rfl
  have hchannel : subscript (bytes "channel_parameter") (some g.node) = .ok (some (textMap
      [(bytes "name", bytes "channel"), (bytes "type", bytes "int"), (bytes "min", g.number), (bytes "max", g.number)])) := rfl
  have hmin : subscript (bytes "min") (some (textMap [(bytes "name", bytes "channel"), (bytes "type", bytes "int"),
      (bytes "min", g.number), (bytes "max", g.number)])) = .ok (some (.scalar g.number)) := rfl
  have hmax : subscript (bytes "max") (some (textMap [(bytes "name", bytes "channel"), (bytes "type", bytes "int"),
      (bytes "min", g.number), (bytes "max", g.number)])) = .ok (some (.scalar g.number)) := rfl
  have htypes : subscript (bytes "io_types") (some g.node) = .ok (some (.sequence [g.ioType])) := rfl
  rw [readGroup, hname, hchannel, htypes]
  simp only [bind, Except.bind, hmin, hmax, hreads.1]
  rfl

theorem items_template : items (find? (bytes "channel_groups") (template groups)) = (groups.map node).map some := by
  rfl

theorem channels_single (name : ByteString) (ch : Int) (ioTypes : List (Option YamlNode)) :
    ChannelGroup.channels ⟨name, ch, ch, ioTypes⟩ = [ch] := by
  have hone : (ch + 1 - ch).toNat = 1 := by omega
  rw [ChannelGroup.channels, hone]
  simp

theorem declared_iff (hreads : ∀ g ∈ groups, g.Reads Y) {io : ChannelIo} :
    Declared Y (template groups) io ↔ ∃ g ∈ groups, io = g.output := by
  simp only [Declared, items_template, List.map_map, List.mem_map]
  constructor
  · rintro ⟨_, ⟨g, hg, rfl⟩, group, hread, hgroup, hch, ioType, hioType, hsuffix, htype, hrole⟩
    rw [Function.comp_apply, readGroup_node (hreads g hg)] at hread
    obtain rfl := Except.ok.inj hread
    obtain rfl := List.mem_singleton.mp hioType
    rw [channels_single, List.mem_singleton] at hch
    exact ⟨g, hg, ChannelIo.ext hgroup hch (Except.ok.inj hsuffix).symm (Except.ok.inj htype).symm
      (Except.ok.inj hrole).symm⟩
  · rintro ⟨g, hg, rfl⟩
    refine ⟨_, ⟨g, hg, rfl⟩, _, readGroup_node (hreads g hg), rfl, ?_, _, List.mem_singleton_self _, rfl, rfl, rfl⟩
    rw [channels_single]
    exact List.mem_singleton_self g.ch

theorem wellFormed_template (hreads : ∀ g ∈ groups, g.Reads Y) : WellFormedTemplate Y (template groups) := by
  refine ⟨fun node hnode => ?_, fun io hio => absurd hio (Option.some_ne_none io).symm⟩
  rw [items_template, List.map_map] at hnode
  obtain ⟨g, hg, rfl⟩ := List.mem_map.mp hnode
  refine ⟨_, readGroup_node (hreads g hg), (hreads g hg).2, fun ioType hioType => ?_⟩
  obtain rfl := List.mem_singleton.mp hioType
  simp only [List.forall_mem_cons]
  exact ⟨⟨_, rfl⟩, ⟨_, rfl⟩, ⟨_, rfl⟩, fun _ h => absurd h List.not_mem_nil⟩

theorem copiesTexts_template (hreads : ∀ g ∈ groups, g.Reads Y) : CopiesTexts Y (template groups) := by
  intro node hnode group hread _ ioType hioType key hkey value hvalue
  rw [items_template, List.map_map] at hnode
  obtain ⟨g, hg, rfl⟩ := List.mem_map.mp hnode
  rw [Function.comp_apply, readGroup_node (hreads g hg)] at hread
  obtain rfl := Except.ok.inj hread
  obtain rfl := List.mem_singleton.mp hioType
  have hmissing : subscript key (some g.ioType) = .ok none := by
    obtain rfl | rfl := List.mem_pair.mp hkey <;> rfl
  rw [hmissing] at hvalue
  exact absurd (Except.ok.inj hvalue) (Option.some_ne_none value).symm

theorem distinctNames_template (hreads : ∀ g ∈ groups, g.Reads Y) (hnames : (groups.map name).Nodup) :
    DistinctNames Y (template groups) where
  groups := by
    have hmap : ((groups.map node).map some).map (Y.textAt (bytes "name")) = (groups.map name).map .ok := by
      rw [List.map_map, List.map_map, List.map_map]
      rfl
    rw [items_template, hmap]
    exact hnames.map fun _ _ => Except.ok.inj
  suffixes node hnode group hread := by
    rw [items_template, List.map_map] at hnode
    obtain ⟨g, hg, rfl⟩ := List.mem_map.mp hnode
    rw [Function.comp_apply, readGroup_node (hreads g hg)] at hread
    obtain rfl := Except.ok.inj hread
    exact List.nodup_singleton _
  handwritten io _ := List.not_mem_nil

end OutputGroup

open OutputGroup

/-- One channel of two groups that cannot be mistaken for each other. -/
def scopeOutputs : List OutputGroup :=
  [⟨bytes "analog", bytes "1", 1, bytes "float"⟩, ⟨bytes "digital", bytes "1", 1, bytes "int"⟩]

/-- Channel 11 of the group `a` and channel 1 of the group `a1`. -/
def collidingOutputs : List OutputGroup :=
  [⟨bytes "a", bytes "11", 11, bytes "float"⟩, ⟨bytes "a1", bytes "1", 1, bytes "int"⟩]

theorem losesNothing_scopeOutputs : LosesNothing .decimals (template scopeOutputs) := by
  have hreads : ∀ g ∈ scopeOutputs, g.Reads .decimals := by
    simp only [scopeOutputs, List.forall_mem_cons, List.not_mem_nil, false_implies, implies_true, and_true]
    exact ⟨⟨rfl, by decide⟩, ⟨rfl, by decide⟩⟩
  refine (losesNothing_iff (wellFormed_template hreads) (copiesTexts_template hreads)
    (distinctNames_template hreads (by decide))).mpr fun io io' hio hio' hgroup hname => ?_
  obtain ⟨g, hg, rfl⟩ := (declared_iff hreads).mp hio
  obtain ⟨g', hg', rfl⟩ := (declared_iff hreads).mp hio'
  simp only [scopeOutputs, List.mem_cons, List.not_mem_nil, or_false] at hg hg'
  rcases hg with rfl | rfl <;> rcases hg' with rfl | rfl
  · exact ⟨rfl, rfl⟩
  · exact absurd hname (by decide +kernel)
  · exact absurd hname (by decide +kernel)
  · exact ⟨rfl, rfl⟩

/-- The one entry that is left has the type of the first. -/
theorem loses_collidingOutputs :
    WellFormedTemplate .decimals (template collidingOutputs) ∧ CopiesTexts .decimals (template collidingOutputs) ∧
      DistinctNames .decimals (template collidingOutputs) ∧
      expandTemplate .decimals (.map (template collidingOutputs)) =
        .ok (.map (setEntry (bytes "io") (.sequence [textMap [(bytes "name", bytes "a11_x"), (bytes "type", bytes "float"),
          (bytes "role", bytes "output")]]) (template collidingOutputs))) ∧
      ¬ LosesNothing .decimals (template collidingOutputs) := by
  have hreads : ∀ g ∈ collidingOutputs, g.Reads .decimals := by
    simp only [collidingOutputs, List.forall_mem_cons, List.not_mem_nil, false_implies, implies_true, and_true]
    exact ⟨⟨rfl, by decide⟩, ⟨rfl, by decide⟩⟩
  have hexpand : expandTemplate .decimals (.map (template collidingOutputs)) =
      .ok (.map (setEntry (bytes "io") (.sequence [textMap [(bytes "name", bytes "a11_x"), (bytes "type", bytes "float"),
        (bytes "role", bytes "output")]]) (template collidingOutputs))) := by
    rfl
  refine ⟨wellFormed_template hreads, copiesTexts_template hreads, distinctNames_template hreads (by decide), hexpand, ?_⟩
  rintro ⟨root', hroot', hall⟩
  rw [hexpand] at hroot'
  obtain rfl := YamlNode.map.inj (Except.ok.inj hroot')
  obtain ⟨entry, hentry, -, htype, -⟩ := hall _ ((declared_iff hreads).mpr ⟨_, List.mem_cons_of_mem _ List.mem_cons_self, rfl⟩)
  obtain rfl := List.mem_singleton.mp hentry
  exact absurd (Except.ok.inj htype) (by decide)

end InstrumentServer
