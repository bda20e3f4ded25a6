import InstrumentServer.Lib.Lists
import InstrumentServer.Validation.QuantumDotDevice

/-!
# The wiring of a device

The wiring of a device is to be empty or to have an entry for every gate. The validator compares two numbers: those of the entries and of the gates in the five lists.
-/

namespace InstrumentServer

open YamlNode

/-- The names in the global gate lists. -/
def globalGateNames (Y : YamlLibrary) (doc : YamlNode) : List ByteString :=
  match doc.get (bytes "global") with
  | .ok (some global) => globalKeys.flatMap fun key => splitSemicolon ((Y.textAt key (some global)).toOption.getD [])
  | _ => []

/-- The names of the wiring entries. -/
def wiringNames (Y : YamlLibrary) (doc : YamlNode) : List ByteString :=
  match doc.get (bytes "wiringDC") with
  | .ok (some wiring) => (iteratedEntries wiring).filterMap fun entry => (Y.text entry.1).toOption
  | _ => []

/-- The wiring is empty, or it has an entry for every gate and for nothing else. -/
def WiringCovers (Y : YamlLibrary) (doc : YamlNode) : Prop :=
  wiringNames Y doc = [] ∨
    (∀ gate ∈ globalGateNames Y doc, gate ∈ wiringNames Y doc) ∧ ∀ name ∈ wiringNames Y doc, name ∈ globalGateNames Y doc

section

variable {Y : YamlLibrary}

/-! ### What an accepted document has -/

theorem accepts_readGlobalGate {global : YamlNode} {key : ByteString} {read : Option (ByteString × List ByteString)}
    (haccepts : (readGlobalGate Y global key).Accepts read) :
    read = some (key, splitSemicolon ((Y.textAt key (some global)).toOption.getD [])) := by
  obtain ⟨value, hlift, haccepts⟩ := Validator.accepts_bind.mp haccepts
  have hget := Validator.accepts_lift.mp hlift
  cases value with
  | none => exact absurd (Validator.accepts_then.mp haccepts).1 accepts_addError
  | some value =>
      obtain ⟨text, hlift, haccepts⟩ := Validator.accepts_bind.mp haccepts
      have htext := Validator.accepts_lift.mp hlift
      have htextAt : Y.textAt key (some global) = .ok text := by
        rw [YamlLibrary.textAt, subscript_some, hget]
        exact htext
      rw [htextAt]
      exact (Validator.accepts_pure.mp haccepts).symm

theorem all_of_accepts {doc : YamlNode} {gates : GlobalGates} (haccepts : (readGlobalGates Y doc).Accepts gates) :
    gates.all = globalGateNames Y doc := by
  obtain ⟨global, hlift, haccepts⟩ := Validator.accepts_bind.mp haccepts
  have hget := Validator.accepts_lift.mp hlift
  rw [globalGateNames, hget]
  cases global with
  | none =>
      rw [← Validator.accepts_pure.mp haccepts]
      rfl
  | some global =>
      obtain ⟨reads, hcollect, haccepts⟩ := Validator.accepts_bind.mp haccepts
      rw [← Validator.accepts_pure.mp haccepts]
      dsimp only
      generalize globalKeys = keys at hcollect
      have hreads := Validator.accepts_collect.mp hcollect
      clear hcollect haccepts
      induction hreads with
      | nil => rfl
      | cons hread _ ih =>
          rw [accepts_readGlobalGate hread, List.filterMap_cons, List.flatMap_cons, ← ih]
          rfl

/-- An accepted wiring is empty or has as many entries as there are gates. -/
theorem length_of_accepts {doc : YamlNode} {gates : GlobalGates} (haccepts : (validateWiring Y gates doc).Accepts ()) :
    wiringNames Y doc = [] ∨ (wiringNames Y doc).length = gates.all.length := by
  obtain ⟨wiring, hlift, haccepts⟩ := Validator.accepts_bind.mp haccepts
  have hget := Validator.accepts_lift.mp hlift
  rw [wiringNames, hget]
  cases wiring with
  | none => exact Or.inl rfl
  | some wiring =>
      obtain ⟨hsize, hentries⟩ := Validator.accepts_then.mp haccepts
      rw [Validator.accepts_forEach] at hentries
      have hnames : ((iteratedEntries wiring).filterMap fun entry => (Y.text entry.1).toOption).length =
          (iteratedEntries wiring).length := by
        rw [List.filterMap_length_eq_length]
        intro entry hentry
        obtain ⟨name, hname, -⟩ := Validator.accepts_bind.mp (hentries entry hentry)
        rw [Validator.accepts_lift.mp hname]
        rfl
      rw [validateWiringSize] at hsize
      split at hsize
      · exact absurd hsize accepts_addError
      · split at hsize
        · exact absurd hsize accepts_addError
        · rename_i hlength
          show (iteratedEntries wiring).filterMap _ = [] ∨ ((iteratedEntries wiring).filterMap _).length = _
          rw [hnames, ← List.length_eq_zero_iff, hnames, or_iff_not_imp_left]
          exact fun hempty => not_not.mp fun hne => hlength ⟨hempty, hne⟩

/-- An accepted wiring covers the gates exactly if it is empty or has no other name and repeats as many names as the lists. -/
theorem wiring_covers_iff {what : YamlError → ByteString} {doc : YamlNode}
    (hvalid : (validateQuantumDotDevice Y what (.ok doc)).valid = true) :
    WiringCovers Y doc ↔ wiringNames Y doc = [] ∨
      (∀ name ∈ wiringNames Y doc, name ∈ globalGateNames Y doc) ∧
        Lists.repeats (wiringNames Y doc) = Lists.repeats (globalGateNames Y doc) := by
  rw [validateQuantumDotDevice, valid_validationResult, Validator.accepts_bind] at hvalid
  obtain ⟨doc', hdoc, haccepts⟩ := hvalid
  obtain rfl := Except.ok.inj (Validator.accepts_lift.mp hdoc)
  obtain ⟨-, haccepts⟩ := Validator.accepts_then.mp haccepts
  obtain ⟨gates, hgates, haccepts⟩ := Validator.accepts_bind.mp haccepts
  obtain ⟨used, -, haccepts⟩ := Validator.accepts_bind.mp haccepts
  have hwiring := length_of_accepts (Validator.accepts_then.mp haccepts).2
  rw [all_of_accepts hgates] at hwiring
  rw [WiringCovers]
  obtain hempty | hlength := hwiring
  · exact iff_of_true (Or.inl hempty) (Or.inl hempty)
  · exact or_congr Iff.rfl (Lists.covers_iff_repeats hlength)

end

/-! ### Runs -/

/-- A row of two contacts, two reservoirs and one barrier, wired under these names. -/
def barrierDevice (wires : List ByteString) : YamlNode :=
  .map [(.scalar (bytes "global"), textMap [(bytes "ScreeningGates", []), (bytes "PlungerGates", []),
      (bytes "Ohmics", bytes "O1;O2"), (bytes "BarrierGates", bytes "B1"), (bytes "ReservoirGates", bytes "R1;R2")]),
    (.scalar (bytes "groups"), .map [(.scalar (bytes "group1"), textMap [(bytes "Name", bytes "I_O1"),
      (bytes "NumDots", bytes "0"), (bytes "ScreeningGates", []), (bytes "ReservoirGates", bytes "R1;R2"),
      (bytes "PlungerGates", []), (bytes "BarrierGates", bytes "B1"), (bytes "Order", bytes "O1;R1;B1;R2;O2")])]),
    (.scalar (bytes "wiringDC"), .map (wires.map fun name =>
      (.scalar name, textMap [(bytes "resistance", bytes "1000"), (bytes "capacitance", bytes "1")])))]

def wiredDevice : YamlNode := barrierDevice [bytes "O1", bytes "O2", bytes "B1", bytes "R1", bytes "R2"]

/-- The second reservoir has no entry, and there is one for a gate `R3` that the device does not have. -/
def miswiredDevice : YamlNode := barrierDevice [bytes "O1", bytes "O2", bytes "B1", bytes "R1", bytes "R3"]

theorem wiring_covers_wiredDevice : WiringCovers .common wiredDevice := by
  refine (@wiring_covers_iff .common (fun _ => []) wiredDevice (by decide +kernel)).mpr (Or.inr ⟨?_, ?_⟩)
  · decide +kernel
  · decide +kernel

theorem wiring_not_covers_miswiredDevice :
    (validateQuantumDotDevice .common (fun _ => []) (.ok miswiredDevice)).valid = true ∧
      bytes "R2" ∈ globalGateNames .common miswiredDevice ∧ bytes "R2" ∉ wiringNames .common miswiredDevice ∧
      ¬ WiringCovers .common miswiredDevice := by
  have hmissing : bytes "R2" ∉ wiringNames .common miswiredDevice := by decide +kernel
  refine ⟨by decide +kernel, by decide +kernel, hmissing, ?_⟩
  rintro (hempty | ⟨hcovers, -⟩)
  · have hsome : wiringNames .common miswiredDevice ≠ [] := by decide +kernel
    exact hsome hempty
  · exact hmissing (hcovers _ (by decide +kernel))

end InstrumentServer
