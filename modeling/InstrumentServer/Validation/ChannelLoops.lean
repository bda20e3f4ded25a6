import InstrumentServer.Lib.CountedLoop
import InstrumentServer.Validation.TemplateExpander

/-!
# The loops over channels

`expand_channel_groups` and `validate_io_against_channel_groups` go through the channels of a group with a counter of type `int` and an inclusive comparison. Their models go through the list of channels instead; here are the loops themselves, with the same rounds.

Nothing bounds the `max` of a group. If it is not the greatest `int`, the loops do what the list says. If it is, they increment the counter past it, unless the YAML library throws before.
-/

namespace InstrumentServer

open YamlNode CountedLoop

namespace ChannelGroup

/-- The group holds these two `int`s. -/
structure Bounds (group : ChannelGroup) (min max : Int32) : Prop where
  min : group.min = min.toInt
  max : group.max = max.toInt

/-- `min_ch` -/
def first (group : ChannelGroup) : Int32 := Int32.ofInt group.min

/-- `max_ch` -/
def last (group : ChannelGroup) : Int32 := Int32.ofInt group.max

variable {group : ChannelGroup} {min max : Int32}

theorem Bounds.first (h : group.Bounds min max) : group.first = min := by
  rw [ChannelGroup.first, h.min, Int32.ofInt_toInt]

theorem Bounds.last (h : group.Bounds min max) : group.last = max := by
  rw [ChannelGroup.last, h.max, Int32.ofInt_toInt]

theorem Bounds.channels (h : group.Bounds min max) : group.channels = numbers min.toInt max.toInt := by
  rw [ChannelGroup.channels, h.min, h.max, numbers]
  simp [← List.map_eq_flatMap]

end ChannelGroup

/-- What `as<int>` gives is an `int`. -/
theorem exists_asInt {Y : YamlLibrary} {node : Option YamlNode} {value : Int} (hvalue : Y.asInt node = .ok value) :
    ∃ ch : Int32, value = ch.toInt := by
  rw [YamlLibrary.asInt.eq_def] at hvalue
  split at hvalue
  · contradiction
  · split at hvalue
    · split at hvalue
      · rename_i hrange
        obtain rfl := Except.ok.inj hvalue
        exact ⟨Int32.ofInt _, (Int32.toInt_ofInt_of_le hrange.1 hrange.2).symm⟩
      · contradiction
    · contradiction
  · contradiction

theorem exists_bounds {Y : YamlLibrary} {node : Option YamlNode} {group : ChannelGroup}
    (hread : readGroup Y node = .ok group) : ∃ min max, group.Bounds min max := by
  obtain ⟨-, ⟨_, hmin⟩, _, hmax⟩ := fields_of_readGroup hread
  obtain ⟨first, hfirst⟩ := exists_asInt hmin
  obtain ⟨last, hlast⟩ := exists_asInt hmax
  exact ⟨first, last, hfirst, hlast⟩

/-! ### The loops -/

/-- The round of the validator. -/
def checkChannel (Y : YamlLibrary) (names : List ByteString) (path : List ByteString) (group : ChannelGroup) (ch : Int) :
    Check Unit :=
  .forEach group.ioTypes fun ioType => do
    let suffix ← .lift (Y.textAt (bytes "suffix") ioType)
    if channelIoName group.name ch suffix ∈ names then pure ()
    else
      addError (path ++ [bytes "io"])
        (bytes "Missing IO entry for channel group '" ++ group.name ++ bytes "', channel " ++
          ByteString.decimalInt ch ++ bytes ", suffix '" ++ suffix ++ bytes "' (expected name: '" ++
          channelIoName group.name ch suffix ++ bytes "')")

theorem validateIoAgainstChannelGroups_eq (Y : YamlLibrary) (io channelGroups : Option YamlNode) (path : List ByteString) :
    validateIoAgainstChannelGroups Y io channelGroups path =
      if channelGroups.isNone then pure ()
      else
        .lift (ioNames Y io) >>= fun names => .forEach (items channelGroups) fun node =>
          .lift (readGroup Y node) >>= fun group => .forEach group.channels (checkChannel Y names path group) :=
  rfl

/-- The loop of `expand_channel_groups` over the channels of a group. -/
def expandChannelsLoop (Y : YamlLibrary) (next : Int32 → Option Int32) (group : ChannelGroup) (rounds : Nat)
    (io : YamlNode) : Option (List Int32 × Outcome YamlNode YamlError) :=
  run next (expandChannel Y group) group.last rounds group.first io

/-- The loop of `validate_io_against_channel_groups` over the channels of a group, with the errors reported so far. -/
def checkChannelsLoop (Y : YamlLibrary) (next : Int32 → Option Int32) (names path : List ByteString)
    (group : ChannelGroup) (rounds : Nat) (errors : List ValidationError) :
    Option (List Int32 × Outcome (List ValidationError) (List ValidationError × YamlError)) :=
  run next (fun errors ch => (checkChannel Y names path group ch).onto errors) group.last rounds group.first errors

/-- The loop ends without an overflow and goes through the channels from `min` to `max`. -/
def ExpanderCounts (Y : YamlLibrary) (group : ChannelGroup) (io : YamlNode) : Prop :=
  ∃ rounds visited outcome, expandChannelsLoop Y checked group rounds io = some (visited, outcome) ∧
    Counts group.first group.last visited outcome

def ValidatorCounts (Y : YamlLibrary) (names path : List ByteString) (group : ChannelGroup)
    (errors : List ValidationError) : Prop :=
  ∃ rounds visited outcome, checkChannelsLoop Y checked names path group rounds errors = some (visited, outcome) ∧
    Counts group.first group.last visited outcome

/-! ### The loops and the models of their functions -/

section

variable {Y : YamlLibrary} {node : Option YamlNode} {group : ChannelGroup}

theorem channels_of_readGroup (hread : readGroup Y node = .ok group) :
    group.channels = numbers group.first.toInt group.last.toInt := by
  obtain ⟨min, max, hbounds⟩ := exists_bounds hread
  rw [hbounds.channels, hbounds.first, hbounds.last]

/-- The loop comes to what the model of the expander comes to, if its counter does not overflow behind it. -/
theorem exists_expandChannelsLoop (hread : readGroup Y node = .ok group) (io : YamlNode) :
    ∃ rounds visited, expandChannelsLoop Y checked group rounds io =
      some (visited, .ofFold group.last (expandGroup Y io node)) := by
  have hgroup : expandGroup Y io node = group.channels.foldlM (expandChannel Y group) io := by
    rw [expandGroup, hread]
    rfl
  obtain ⟨visited, hrun, -⟩ := run_checked (expandChannel Y group) group.last io (Nat.lt_succ_self _)
  rw [hgroup, channels_of_readGroup hread]
  exact ⟨_, visited, hrun⟩

/-- The same for the part of the validator behind `readGroup`. -/
theorem exists_checkChannelsLoop (hread : readGroup Y node = .ok group) (names path : List ByteString)
    (errors : List ValidationError) :
    ∃ rounds visited, checkChannelsLoop Y checked names path group rounds errors =
      some (visited, .ofFold group.last
        ((Validator.forEach group.channels (checkChannel Y names path group)).onto errors)) := by
  obtain ⟨visited, hrun, -⟩ := run_checked (fun errors ch => (checkChannel Y names path group ch).onto errors)
    group.last errors (Nat.lt_succ_self _)
  rw [Validator.onto_forEach, channels_of_readGroup hread]
  exact ⟨_, visited, hrun⟩

end

/-! ### The condition -/

section

variable {Y : YamlLibrary} {group : ChannelGroup} {min max : Int32}

theorem expanderCounts_iff (h : group.Bounds min max) (io : YamlNode) :
    ExpanderCounts Y group io ↔
      max ≠ Int32.maxValue ∨ ∃ e, group.channels.foldlM (expandChannel Y group) io = .error e := by
  show CountsThrough (expandChannel Y group) group.first group.last io ↔ _
  rw [countsThrough_iff, h.channels, h.first, h.last]

theorem validatorCounts_iff (h : group.Bounds min max) (names path : List ByteString) (errors : List ValidationError) :
    ValidatorCounts Y names path group errors ↔
      max ≠ Int32.maxValue ∨ ∃ e, (Validator.forEach group.channels (checkChannel Y names path group)).onto errors =
        .error e := by
  show CountsThrough (fun errors ch => (checkChannel Y names path group ch).onto errors) group.first group.last errors ↔ _
  rw [countsThrough_iff, Validator.onto_forEach, h.channels, h.first, h.last]

end

/-- For every pair of bounds, both loops count through the channels of every group with these bounds exactly if `max` is not the greatest `int`. -/
theorem channelLoops_count_iff (Y : YamlLibrary) (min max : Int32) :
    ((∀ group : ChannelGroup, group.Bounds min max → ∀ io, ExpanderCounts Y group io) ↔ max ≠ Int32.maxValue) ∧
      ((∀ group : ChannelGroup, group.Bounds min max → ∀ names path errors,
        ValidatorCounts Y names path group errors) ↔ max ≠ Int32.maxValue) := by
  -- the rounds of a group without io types do nothing
  have hbounds : (ChannelGroup.mk [] min.toInt max.toInt []).Bounds min max := ⟨rfl, rfl⟩
  constructor
  · constructor
    · intro hcounts hmax
      have hloop : CountsThrough _ _ _ _ := hcounts _ hbounds .null
      rw [hbounds.last, hmax] at hloop
      exact not_countsThrough_maxValue (P := fun _ => True) (fun io _ _ => ⟨io, rfl, trivial⟩) _ trivial hloop
    · intro hmax group h io
      exact (expanderCounts_iff h io).mpr (Or.inl hmax)
  · constructor
    · intro hcounts hmax
      have hloop : CountsThrough _ _ _ _ := hcounts _ hbounds [] [] []
      rw [hbounds.last, hmax] at hloop
      exact not_countsThrough_maxValue (P := fun _ => True) (fun errors _ _ => ⟨_, rfl, trivial⟩) _ trivial hloop
    · intro hmax group h names path errors
      exact (validatorCounts_iff h names path errors).mpr (Or.inl hmax)

/-! ### A document whose loops do not end -/

/-- An analog channel with the greatest number. -/
def greatestChannel : YamlNode :=
  .map [(.scalar (bytes "name"), .scalar (bytes "analog")),
    (.scalar (bytes "channel_parameter"), textMap [(bytes "name", bytes "channel"), (bytes "type", bytes "int"),
      (bytes "min", bytes "2147483647"), (bytes "max", bytes "2147483647")]),
    (.scalar (bytes "io_types"), .sequence [voltageType])]

def greatestGroup : ChannelGroup := ⟨bytes "analog", 2147483647, 2147483647, [some voltageType]⟩

theorem exists_expandChannel_greatestGroup (nodes : List YamlNode) (ch : Int) :
    ∃ nodes', expandChannel .decimals greatestGroup (.sequence nodes) ch = .ok (.sequence nodes') := by
  rw [expandChannel_sequence]
  exact ⟨_, rfl⟩

theorem ends_checkChannel_greatestGroup (names path : List ByteString) (ch : Int) :
    (checkChannel .decimals names path greatestGroup ch).Ends := by
  refine Validator.Ends.bind ?_ fun _ => Validator.ends_pure ()
  refine Validator.Ends.bind ⟨bytes "voltage", rfl⟩ fun suffix => ?_
  split
  · exact Validator.ends_pure ()
  · exact Validator.ends_report _

/-- The group is read, both loops increment the counter past the greatest `int`, and with a counter that wraps around neither ends. -/
theorem channelLoops_overflow :
    readGroup .decimals (some greatestChannel) = .ok greatestGroup ∧
      greatestGroup.Bounds Int32.maxValue Int32.maxValue ∧
      (¬ ExpanderCounts .decimals greatestGroup (.sequence []) ∧
        ∀ rounds, expandChannelsLoop .decimals wrapping greatestGroup rounds (.sequence []) = none) ∧
      ¬ ValidatorCounts .decimals [] [] greatestGroup [] ∧
        ∀ rounds, checkChannelsLoop .decimals wrapping [] [] greatestGroup rounds [] = none := by
  have hexpand : ∀ (io : YamlNode) (ch : Int), (∃ nodes, io = .sequence nodes) →
      ∃ io', expandChannel .decimals greatestGroup io ch = .ok io' ∧ ∃ nodes, io' = .sequence nodes := by
    rintro _ ch ⟨nodes, rfl⟩
    obtain ⟨nodes', hround⟩ := exists_expandChannel_greatestGroup nodes ch
    exact ⟨_, hround, nodes', rfl⟩
  have hcheck : ∀ (errors : List ValidationError) (ch : Int), True →
      ∃ errors', (checkChannel .decimals [] [] greatestGroup ch).onto errors = .ok errors' ∧ True :=
    fun errors ch _ => ⟨_, (ends_checkChannel_greatestGroup [] [] ch).onto errors, trivial⟩
  refine ⟨rfl, ⟨rfl, rfl⟩, ⟨?_, fun rounds => ?_⟩, ?_, fun rounds => ?_⟩
  · exact not_countsThrough_maxValue hexpand _ ⟨[], rfl⟩
  · exact run_wrapping_eq_none hexpand ⟨[], rfl⟩
  · exact not_countsThrough_maxValue hcheck _ trivial
  · exact run_wrapping_eq_none hcheck trivial

end InstrumentServer
