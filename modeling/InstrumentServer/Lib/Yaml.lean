import InstrumentServer.Lib.Bytes
import InstrumentServer.Lib.Double

/-!
# YAML documents

The nodes of a YAML library in the manner of `yaml-cpp`: a scalar is its text, and what it means is decided by whoever converts it. Which texts read as a number or as a boolean is left to the library.

A handle may be undefined, which is what reading a missing entry gives: undefined handles have no items, and using them otherwise throws. Of two entries with the same key the first one is found.
-/

inductive YamlNode where
  | null
  | scalar (text : ByteString)
  | sequence (items : List YamlNode)
  | map (entries : List (YamlNode × YamlNode))

/-- The exceptions of the library. -/
inductive YamlError where
  | badFile
  | badSubscript
  | invalidNode
  | badConversion
  | badPushback
deriving DecidableEq

namespace YamlNode

/-! ### Access -/

/-- The value of the first entry whose key is a scalar with this text. -/
def find? (key : ByteString) : List (YamlNode × YamlNode) → Option YamlNode
  | [] => none
  | (.scalar text, value) :: entries => if text = key then some value else find? key entries
  | _ :: entries => find? key entries

/-- `node[key]`, read: undefined where there is no such entry. -/
def get (key : ByteString) : YamlNode → Except YamlError (Option YamlNode)
  | .map entries => .ok (find? key entries)
  | .scalar _ => .error .badSubscript
  | _ => .ok none

/-- `node[key]` on a handle. -/
def subscript (key : ByteString) : Option YamlNode → Except YamlError (Option YamlNode)
  | none => .error .invalidNode
  | some node => node.get key

/-- What a range-based loop goes through; the items of a map are pairs, which are undefined as nodes. -/
def items : Option YamlNode → List (Option YamlNode)
  | some (.sequence nodes) => nodes.map some
  | some (.map entries) => entries.map fun _ => none
  | _ => []

def isMap : YamlNode → Bool
  | .map _ => true
  | _ => false

def isSequence : YamlNode → Bool
  | .sequence _ => true
  | _ => false

/-- A map whose keys and values are scalars. -/
def textMap (entries : List (ByteString × ByteString)) : YamlNode :=
  .map (entries.map fun entry => (.scalar entry.1, .scalar entry.2))

/-! ### Change -/

/-- The entries of a node as they are once something was assigned under a key; a sequence becomes a map from its indices. -/
def mapEntries : YamlNode → Except YamlError (List (YamlNode × YamlNode))
  | .null => .ok []
  | .scalar _ => .error .badSubscript
  | .sequence nodes => .ok (nodes.zipIdx.map fun node => (.scalar (ByteString.decimal node.2), node.1))
  | .map entries => .ok entries

/-- `node[key] = value` on the entries of a map. -/
def setEntry (key : ByteString) (value : YamlNode) : List (YamlNode × YamlNode) → List (YamlNode × YamlNode)
  | [] => [(.scalar key, value)]
  | (.scalar text, old) :: entries =>
      if text = key then (.scalar text, value) :: entries else (.scalar text, old) :: setEntry key value entries
  | entry :: entries => entry :: setEntry key value entries

/-- `node.push_back(item)` -/
def pushBack (item : YamlNode) : YamlNode → Except YamlError YamlNode
  | .sequence nodes => .ok (.sequence (nodes ++ [item]))
  | .null => .ok (.sequence [item])
  | _ => .error .badPushback

@[simp] theorem get_map (key : ByteString) (entries : List (YamlNode × YamlNode)) :
    (YamlNode.map entries).get key = .ok (find? key entries) := rfl

@[simp] theorem subscript_some (key : ByteString) (node : YamlNode) : subscript key (some node) = node.get key := rfl

@[simp] theorem items_sequence (nodes : List YamlNode) : items (some (.sequence nodes)) = nodes.map some := rfl

/-- The texts that are keys of a map. -/
def keyTexts (entries : List (YamlNode × YamlNode)) : List ByteString :=
  entries.filterMap fun entry =>
    match entry.1 with
    | .scalar text => some text
    | _ => none

/-- The induction along the entries of a map: only those whose key is a scalar are found. -/
theorem entriesInduction {P : List (YamlNode × YamlNode) → Prop} (hnil : P [])
    (hscalar : ∀ text value entries, P entries → P ((.scalar text, value) :: entries))
    (hother : ∀ first value entries, (∀ text, first ≠ .scalar text) → P entries → P ((first, value) :: entries))
    (entries : List (YamlNode × YamlNode)) : P entries := by
  induction entries with
  | nil => exact hnil
  | cons entry entries ih =>
      obtain ⟨first, value⟩ := entry
      cases first with
      | scalar text => exact hscalar text value entries ih
      | null | sequence nodes | map inner => exact hother _ value entries (fun text heq => nomatch heq) ih

section

variable {first : YamlNode} (hfirst : ∀ text, first ≠ .scalar text) (key : ByteString) (value old : YamlNode)
  (entries : List (YamlNode × YamlNode))

include hfirst

theorem find?_other : find? key ((first, old) :: entries) = find? key entries := by
  cases first with
  | scalar text => exact absurd rfl (hfirst text)
  | null | sequence nodes | map inner => rfl

theorem setEntry_other : setEntry key value ((first, old) :: entries) = (first, old) :: setEntry key value entries := by
  cases first with
  | scalar text => exact absurd rfl (hfirst text)
  | null | sequence nodes | map inner => rfl

theorem keyTexts_other : keyTexts ((first, old) :: entries) = keyTexts entries := by
  cases first with
  | scalar text => exact absurd rfl (hfirst text)
  | null | sequence nodes | map inner => rfl

end

theorem mem_of_find? {key : ByteString} {value : YamlNode} {entries : List (YamlNode × YamlNode)}
    (hfind : find? key entries = some value) : (.scalar key, value) ∈ entries := by
  induction entries using entriesInduction with
  | hnil => contradiction
  | hscalar text old entries ih =>
      rw [find?] at hfind
      split at hfind
      · rename_i htext
        rw [htext, Option.some.inj hfind]
        exact List.mem_cons_self
      · exact List.mem_cons_of_mem _ (ih hfind)
  | hother first old entries hfirst ih =>
      rw [find?_other hfirst] at hfind
      exact List.mem_cons_of_mem _ (ih hfind)

theorem find?_setEntry (key key' : ByteString) (value : YamlNode) (entries : List (YamlNode × YamlNode)) :
    find? key (setEntry key' value entries) = if key' = key then some value else find? key entries := by
  induction entries using entriesInduction with
  | hnil => rfl
  | hscalar text old entries ih =>
      rw [setEntry]
      by_cases htext : text = key'
      · subst htext
        rw [if_pos rfl, find?, find?]
        split <;> rfl
      · rw [if_neg htext, find?, find?, ih]
        by_cases hkey : text = key
        · rw [if_pos hkey, if_pos hkey, if_neg fun h => htext (hkey.trans h.symm)]
        · rw [if_neg hkey, if_neg hkey]
  | hother first old entries hfirst ih =>
      rw [setEntry_other hfirst, find?_other hfirst, find?_other hfirst]
      exact ih

/-- Assigning again under the same key leaves nothing of the first assignment. -/
theorem setEntry_setEntry (key : ByteString) (value value' : YamlNode) (entries : List (YamlNode × YamlNode)) :
    setEntry key value' (setEntry key value entries) = setEntry key value' entries := by
  induction entries using entriesInduction with
  | hnil =>
      show setEntry key value' [(.scalar key, value)] = [(.scalar key, value')]
      rw [setEntry, if_pos rfl]
  | hscalar text old entries ih =>
      rw [setEntry]
      by_cases htext : text = key
      · rw [if_pos htext, setEntry, if_pos htext, setEntry, if_pos htext]
      · rw [if_neg htext, setEntry, if_neg htext, setEntry, if_neg htext, ih]
  | hother first old entries hfirst ih =>
      rw [setEntry_other hfirst, setEntry_other hfirst, setEntry_other hfirst, ih]

/-- Assigning what is there changes nothing. -/
theorem setEntry_self {key : ByteString} {value : YamlNode} {entries : List (YamlNode × YamlNode)}
    (hfind : find? key entries = some value) : setEntry key value entries = entries := by
  induction entries using entriesInduction with
  | hnil => contradiction
  | hscalar text old entries ih =>
      rw [find?] at hfind
      rw [setEntry]
      by_cases htext : text = key
      · rw [if_pos htext] at hfind ⊢
        rw [Option.some.inj hfind]
      · rw [if_neg htext] at hfind ⊢
        rw [ih hfind]
  | hother first old entries hfirst ih =>
      rw [find?_other hfirst] at hfind
      rw [setEntry_other hfirst, ih hfind]

/-- Under a new key the value is put at the end. -/
theorem setEntry_new {key : ByteString} {value : YamlNode} {entries : List (YamlNode × YamlNode)}
    (hnew : key ∉ keyTexts entries) : setEntry key value entries = entries ++ [(.scalar key, value)] := by
  induction entries using entriesInduction with
  | hnil => rfl
  | hscalar text old entries ih =>
      obtain ⟨hne, hnew⟩ := not_or.mp (mt List.mem_cons.mpr hnew)
      rw [setEntry, if_neg (Ne.symm hne), ih hnew, List.cons_append]
  | hother first old entries hfirst ih =>
      rw [keyTexts_other hfirst] at hnew
      rw [setEntry_other hfirst, ih hnew, List.cons_append]

theorem keyTexts_setEntry_known {key : ByteString} {value : YamlNode} {entries : List (YamlNode × YamlNode)}
    (hknown : key ∈ keyTexts entries) : keyTexts (setEntry key value entries) = keyTexts entries := by
  induction entries using entriesInduction with
  | hnil => contradiction
  | hscalar text old entries ih =>
      rw [setEntry]
      split
      · rfl
      · rename_i hne
        exact congrArg (text :: ·) (ih ((List.mem_cons.mp hknown).resolve_left (Ne.symm hne)))
  | hother first old entries hfirst ih =>
      rw [keyTexts_other hfirst] at hknown ⊢
      rw [setEntry_other hfirst, keyTexts_other hfirst, ih hknown]

theorem nodup_keyTexts_setEntry {entries : List (YamlNode × YamlNode)} (hnodup : (keyTexts entries).Nodup)
    (key : ByteString) (value : YamlNode) : (keyTexts (setEntry key value entries)).Nodup := by
  by_cases hknown : key ∈ keyTexts entries
  · rw [keyTexts_setEntry_known hknown]
    exact hnodup
  · rw [setEntry_new hknown, keyTexts, List.filterMap_append]
    refine List.nodup_append.mpr ⟨hnodup, List.nodup_cons.mpr ⟨List.not_mem_nil, List.nodup_nil⟩, ?_⟩
    rintro text htext _ hkey rfl
    exact hknown (List.mem_singleton.mp hkey ▸ htext)

/-- An entry is the assigned one or was there before. -/
theorem mem_setEntry {key : ByteString} {value : YamlNode} {entries : List (YamlNode × YamlNode)}
    {entry : YamlNode × YamlNode} (hentry : entry ∈ setEntry key value entries) :
    entry = (.scalar key, value) ∨ entry ∈ entries := by
  induction entries using entriesInduction with
  | hnil => exact Or.inl (List.mem_singleton.mp hentry)
  | hscalar text old entries ih =>
      rw [setEntry] at hentry
      split at hentry
      · rename_i heq
        subst heq
        exact (List.mem_cons.mp hentry).imp_right (List.mem_cons_of_mem _)
      · rcases List.mem_cons.mp hentry with rfl | hentry
        · exact Or.inr List.mem_cons_self
        · exact (ih hentry).imp_right (List.mem_cons_of_mem _)
  | hother first old entries hfirst ih =>
      rw [setEntry_other hfirst] at hentry
      rcases List.mem_cons.mp hentry with rfl | hentry
      · exact Or.inr List.mem_cons_self
      · exact (ih hentry).imp_right (List.mem_cons_of_mem _)

end YamlNode

/-- The conversions of scalars; `none` is the exception of a failed conversion. -/
structure YamlLibrary where
  asInt64 : ByteString → Option Int64
  asDouble : ByteString → Option Double
  asBool : ByteString → Option Bool
  /-- what `as<std::string>` makes of a null node, which differs between releases -/
  nullText : Option ByteString

namespace YamlLibrary

/-- `as<std::string>`, which throws on a node that is neither a scalar nor null. -/
def asString (Y : YamlLibrary) : YamlNode → Option ByteString
  | .scalar text => some text
  | .null => Y.nullText
  | _ => none

/-- `as<std::string>` on a handle. -/
def text (Y : YamlLibrary) : Option YamlNode → Except YamlError ByteString
  | none => .error .invalidNode
  | some node =>
      match Y.asString node with
      | some text => .ok text
      | none => .error .badConversion

/-- `node[key].as<std::string>()` -/
def textAt (Y : YamlLibrary) (key : ByteString) (handle : Option YamlNode) : Except YamlError ByteString := do
  Y.text (← YamlNode.subscript key handle)

/-- `as<int>`: the same digits as for 64 bits, in the range of 32. -/
def asInt (Y : YamlLibrary) : Option YamlNode → Except YamlError Int
  | none => .error .invalidNode
  | some (.scalar text) =>
      match Y.asInt64 text with
      | some value =>
          if -2 ^ 31 ≤ value.toInt ∧ value.toInt < 2 ^ 31 then .ok value.toInt else .error .badConversion
      | none => .error .badConversion
  | some _ => .error .badConversion

@[simp] theorem text_scalar (Y : YamlLibrary) (text : ByteString) : Y.text (some (.scalar text)) = .ok text := rfl

@[simp] theorem textAt_map (Y : YamlLibrary) (key : ByteString) (entries : List (YamlNode × YamlNode)) :
    Y.textAt key (some (.map entries)) = Y.text (YamlNode.find? key entries) := rfl

/-- A library on documents whose scalars are neither numbers nor booleans. -/
def textOnly : YamlLibrary where
  asInt64 _ := none
  asDouble _ := none
  asBool _ := none
  nullText := none

/-- A library that reads numerals of up to 18 digits as integers and every other scalar as a text. -/
def decimals : YamlLibrary where
  asInt64 text :=
    if text ≠ [] ∧ text.length ≤ 18 ∧ text.all ByteString.isDigit then some (Int64.ofNat (ByteString.ofDecimal text))
    else none
  asDouble _ := none
  asBool _ := none
  nullText := none

/-- A library that reads the same numerals as integers and as doubles, and the usual words as booleans. -/
def common : YamlLibrary where
  asInt64 := decimals.asInt64
  asDouble text := (decimals.asInt64 text).map fun value => Double.ofInt value.toInt
  asBool text :=
    if text ∈ [bytes "y", bytes "yes", bytes "on", bytes "true"] then some true
    else if text ∈ [bytes "n", bytes "no", bytes "off", bytes "false"] then some false
    else none
  nullText := none

end YamlLibrary
