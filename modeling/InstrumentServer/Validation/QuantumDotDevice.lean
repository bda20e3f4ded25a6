import InstrumentServer.Validation.SchemaValidator
import InstrumentServer.Lib.SortedAssoc

/-!
# The validator of quantum-dot devices

`validate_quantum_dot_device` reads the five lists of gates of a device, checks that the gates of every group are among them and that its `Order` follows the layout of a device, and looks at the wiring. The gate lists and the orders are texts in which semicolons separate the names.

The two counters of an order are natural numbers here.
-/

namespace InstrumentServer

open YamlNode

/-- `split_semicolon` with the part that has been begun; an empty part at the end is left out. -/
def splitSemicolonFrom (part : ByteString) : ByteString → List ByteString
  | [] => if part = [] then [] else [part]
  | b :: rest => if b = 59 then part :: splitSemicolonFrom [] rest else splitSemicolonFrom (part ++ [b]) rest

def splitSemicolon (s : ByteString) : List ByteString := splitSemicolonFrom [] s

/-! ### The gates of the device -/

def globalKeys : List ByteString :=
  [bytes "ScreeningGates", bytes "PlungerGates", bytes "Ohmics", bytes "BarrierGates", bytes "ReservoirGates"]

/-- The gate lists that were read, in the order of `globalKeys`. -/
abbrev GlobalGates : Type := List (ByteString × List ByteString)

/-- `global_gates[key]`, empty for a list that was not read. -/
def GlobalGates.of (gates : GlobalGates) (key : ByteString) : List ByteString := (SortedAssoc.find? key gates).getD []

/-- `all_global_gates` -/
def GlobalGates.all (gates : GlobalGates) : List ByteString := gates.flatMap Prod.snd

/-- One list, if it is there. -/
def readGlobalGate (Y : YamlLibrary) (global : YamlNode) (key : ByteString) :
    Check (Option (ByteString × List ByteString)) := do
  match ← .lift (global.get key) with
  | none => do
      addError [bytes "global"] (bytes "Missing required global field '" ++ key ++ bytes "'")
      return none
  | some value => return some (key, splitSemicolon (← .lift (Y.text (some value))))

def readGlobalGates (Y : YamlLibrary) (doc : YamlNode) : Check GlobalGates := do
  match ← .lift (doc.get (bytes "global")) with
  | none => return []
  | some global => return (← .collect globalKeys (readGlobalGate Y global)).filterMap id

/-! ### Groups -/

def requireGate (gpath gates : List ByteString) (gate msg : ByteString) : Check Unit :=
  if gate ∈ gates then pure () else addError gpath msg

/-- The entry `i` between the ends of an order: a barrier gate at an even place, a plunger gate at an odd one. -/
def validateCenter (gpath : List ByteString) (gates : GlobalGates) (order : List ByteString) (i : Nat) : Check Unit :=
  if i % 2 = 0 then
    requireGate gpath (gates.of (bytes "BarrierGates")) (order.getD i [])
      (bytes "Order entry " ++ ByteString.decimal i ++ bytes " should be a BarrierGate")
  else
    requireGate gpath (gates.of (bytes "PlungerGates")) (order.getD i [])
      (bytes "Order entry " ++ ByteString.decimal i ++ bytes " should be a PlungerGate")

/-- The places of `i = 2; i + 2 < n`. -/
def centerPlaces (n : Nat) : List Nat := List.range' 2 (n - 4)

def validateOrder (gpath : List ByteString) (gates : GlobalGates) (text : ByteString) : Check Unit :=
  let order := splitSemicolon text
  let n := order.length
  if n < 3 then addError gpath (bytes "Order must have at least 3 entries")
  else do
    requireGate gpath (gates.of (bytes "Ohmics")) (order.getD 0 []) (bytes "First entry in Order must be an Ohmic")
    requireGate gpath (gates.of (bytes "Ohmics")) (order.getD (n - 1) []) (bytes "Last entry in Order must be an Ohmic")
    requireGate gpath (gates.of (bytes "ReservoirGates")) (order.getD 1 [])
      (bytes "Second entry in Order must be a ReservoirGate")
    requireGate gpath (gates.of (bytes "ReservoirGates")) (order.getD (n - 2) [])
      (bytes "Second-to-last entry in Order must be a ReservoirGate")
    .forEach (centerPlaces n) (validateCenter gpath gates order)
    let barrierCount := ((centerPlaces n).filter fun i => i % 2 = 0).length
    let plungerCount := ((centerPlaces n).filter fun i => ¬ i % 2 = 0).length
    if barrierCount ≠ plungerCount + 1 then
      addError gpath (bytes "There must be exactly one more BarrierGate than PlungerGate in the Order")
    else pure ()

/-- The gates of one kind in a group: they are global gates of this kind. -/
def validateGroupGates (Y : YamlLibrary) (gpath : List ByteString) (gates : GlobalGates) (group : YamlNode)
    (gateType : ByteString) : Check (List ByteString) := do
  match ← .lift (group.get gateType) with
  | some (.scalar text) => do
      let groupGates := splitSemicolon (← .lift (Y.text (some (.scalar text))))
      .forEach groupGates fun gate =>
        requireGate gpath (gates.of gateType) gate
          (bytes "Gate '" ++ gate ++ bytes "' in " ++ gateType ++ bytes " not found in global " ++ gateType)
      return groupGates
  | _ => return []

def validateGroupOrder (Y : YamlLibrary) (gpath : List ByteString) (gates : GlobalGates) (group : YamlNode) :
    Check Unit := do
  match ← .lift (group.get (bytes "Order")) with
  | some (.scalar text) => validateOrder gpath gates (← .lift (Y.text (some (.scalar text))))
  | _ => pure ()

/-- The gates that the group uses. -/
def validateGroup (Y : YamlLibrary) (gates : GlobalGates) (key group : YamlNode) : Check (List ByteString) := do
  let groupName ← .lift (Y.text (some key))
  let gpath := [bytes "groups", groupName]
  requireFields group gpath (bytes "group ")
    [bytes "Name", bytes "NumDots", bytes "ScreeningGates", bytes "ReservoirGates", bytes "PlungerGates",
      bytes "BarrierGates", bytes "Order"]
  let used ← .collect [bytes "ScreeningGates", bytes "ReservoirGates", bytes "PlungerGates", bytes "BarrierGates"]
    (validateGroupGates Y gpath gates group)
  validateGroupOrder Y gpath gates group
  return used.flatten

def validateGroups (Y : YamlLibrary) (gates : GlobalGates) (doc : YamlNode) : Check (List ByteString) := do
  match ← .lift (doc.get (bytes "groups")) with
  | none => return []
  | some (.map groups) => return (← .collect groups fun group => validateGroup Y gates group.1 group.2).flatten
  | some _ => do
      addError [bytes "groups"] (bytes "groups must be a map/object")
      return []

/-- Every global gate but the ohmics is used; the lists are gone through in the order of their names. -/
def validateUse (gates : GlobalGates) (used : List ByteString) : Check Unit :=
  .forEach (gates.foldl (fun sorted entry => SortedAssoc.insert entry.1 entry.2 sorted) []) fun entry =>
    if entry.1 = bytes "Ohmics" then pure ()
    else
      .forEach entry.2 fun gate =>
        requireGate [bytes "global"] used gate
          (bytes "Global gate '" ++ gate ++ bytes "' of type '" ++ entry.1 ++ bytes "' is not used in any group")

/-! ### Wiring -/

/-- A scalar under this key is a number that is not negative. -/
def requireNotNegative (Y : YamlLibrary) (node : YamlNode) (path : List ByteString) (key msg : ByteString) :
    Check Unit := do
  match ← .lift (node.get key) with
  | some (.scalar text) =>
      match Y.asDouble text with
      | none => .lift (.error .badConversion)
      | some value => if value.isBelowZero then addError path msg else pure ()
  | _ => pure ()

/-- What an iterator over a node gives as key and value; the items of a sequence have neither. -/
def iteratedEntries : YamlNode → List (Option YamlNode × Option YamlNode)
  | .map entries => entries.map fun entry => (some entry.1, some entry.2)
  | .sequence items => items.map fun _ => (none, none)
  | _ => []

def validateWire (Y : YamlLibrary) (name : ByteString) (conn : YamlNode) : Check Unit := do
  let wpath := [bytes "wiringDC", name]
  requireFields conn wpath (bytes "wiringDC ") [bytes "resistance", bytes "capacitance"]
  requireNotNegative Y conn wpath (bytes "resistance") (bytes "resistance must be >= 0")
  requireNotNegative Y conn wpath (bytes "capacitance") (bytes "capacitance must be >= 0")

/-- There is no entry, or as many as global gates. -/
def validateWiringSize (gates : GlobalGates) (wiring : YamlNode) : Check Unit :=
  let size := (iteratedEntries wiring).length
  if !wiring.isMap then addError [bytes "wiringDC"] (bytes "wiringDC must be a map/object")
  else if size ≠ 0 ∧ size ≠ gates.all.length then
    addError [bytes "wiringDC"] (bytes "wiringDC must be empty or contain an entry for every global gate")
  else pure ()

def validateWiring (Y : YamlLibrary) (gates : GlobalGates) (doc : YamlNode) : Check Unit := do
  match ← .lift (doc.get (bytes "wiringDC")) with
  | none => pure ()
  | some wiring => do
      validateWiringSize gates wiring
      .forEach (iteratedEntries wiring) fun entry => do
        let name ← .lift (Y.text entry.1)
        match entry.2 with
        | none => .lift (.error .invalidNode)
        | some conn => validateWire Y name conn

/-! ### Devices -/

def checkQuantumDotDevice (Y : YamlLibrary) (doc : YamlNode) : Check Unit := do
  requireFields doc [] [] [bytes "global", bytes "groups", bytes "wiringDC"]
  let gates ← readGlobalGates Y doc
  let used ← validateGroups Y gates doc
  validateUse gates used
  validateWiring Y gates doc

def validateQuantumDotDevice (Y : YamlLibrary) (what : YamlError → ByteString) (loaded : Except YamlError YamlNode) :
    ValidationResult :=
  validationResult what (.lift loaded >>= checkQuantumDotDevice Y)

@[simp] theorem accepts_requireGate {gpath gates : List ByteString} {gate msg : ByteString} {a : Unit} :
    (requireGate gpath gates gate msg).Accepts a ↔ gate ∈ gates := by
  rw [requireGate]
  split
  · rename_i hmem
    exact iff_of_true (Validator.accepts_pure.mpr rfl) hmem
  · rename_i hmem
    exact iff_of_false accepts_addError hmem

end InstrumentServer
