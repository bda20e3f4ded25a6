import InstrumentServer.Lib.Json.Value
import InstrumentServer.Lib.Yaml
import Mathlib.Data.Option.Basic

/-!
# Places in documents

A place in a YAML document or in a JSON value is a path of keys and indices. `follow` is generic in how one step is made, and `rel_follow` is the simulation rule for it: when related values have related children, every path leads to related values.

In a YAML document a key may have several entries. Reading the node finds the first one; `lastChild?` finds the last one.
-/

namespace DocumentPath

inductive PathStep where
  | key (name : ByteString)
  | index (i : Nat)
deriving DecidableEq

/-- What a path leads to, when `child?` makes one step. -/
def follow {α : Type} (child? : PathStep → α → Option α) : List PathStep → α → Option α
  | [], a => some a
  | step :: path, a => (child? step a).bind (follow child? path)

/-- Related values have related children, and so what a path leads to is related. -/
theorem rel_follow {α β : Type} {R : α → β → Prop} {childα : PathStep → α → Option α} {childβ : PathStep → β → Option β}
    (hchild : ∀ a b, R a b → ∀ step, Option.Rel R (childα step a) (childβ step b)) {a : α} {b : β} (hab : R a b)
    (path : List PathStep) : Option.Rel R (follow childα path a) (follow childβ path b) := by
  induction path generalizing a b with
  | nil => exact .some hab
  | cons step path ih =>
      rw [follow, follow]
      have hstep := hchild a b hab step
      generalize childα step a = a? at hstep
      generalize childβ step b = b? at hstep
      cases hstep with
      | none => exact .none
      | some hab' => exact ih hab'

end DocumentPath

namespace YamlNode

open DocumentPath

/-- `node[key]` or `node[i]`. -/
def child? : PathStep → YamlNode → Option YamlNode
  | .key name, .map entries => find? name entries
  | .index i, .sequence nodes => nodes[i]?
  | _, _ => none

/-- The value of the last entry whose key is read as this text. -/
def findLast? (Y : YamlLibrary) (name : ByteString) : List (YamlNode × YamlNode) → Option YamlNode
  | [] => none
  | (key, value) :: entries =>
      (findLast? Y name entries).or (if Y.asString key = some name then some value else none)

/-- `child?` with the last entry of a key in place of the first one. -/
def lastChild? (Y : YamlLibrary) : PathStep → YamlNode → Option YamlNode
  | .key name, .map entries => findLast? Y name entries
  | .index i, .sequence nodes => nodes[i]?
  | _, _ => none

/-- Every key of every map is read as a text. -/
inductive KeysRead (Y : YamlLibrary) : YamlNode → Prop where
  | null : KeysRead Y .null
  | scalar (text : ByteString) : KeysRead Y (.scalar text)
  | sequence {nodes : List YamlNode} (hnodes : ∀ node ∈ nodes, KeysRead Y node) : KeysRead Y (.sequence nodes)
  | map {entries : List (YamlNode × YamlNode)} (hkeys : ∀ entry ∈ entries, (Y.asString entry.1).isSome)
      (hvalues : ∀ entry ∈ entries, KeysRead Y entry.2) : KeysRead Y (.map entries)

end YamlNode

/-- `j[name]` or `j[i]`, where it is there. -/
def Json.child? : DocumentPath.PathStep → Json → Option Json
  | .key name, j => j.member? name
  | .index i, .array items => items[i]?
  | _, _ => none
