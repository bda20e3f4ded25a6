import InstrumentServer.Lib.Bytes
import InstrumentServer.Lib.Double
import InstrumentServer.Lib.SortedAssoc

/-!
# JSON values

The values of a JSON library in the manner of `nlohmann::json`: signed, unsigned and floating numbers are told apart, strings are arbitrary bytes, and the fields of an object are kept in key order. Reading a value as a C++ type succeeds on the kinds of value the library converts from and fails with a type error on the others.
-/

inductive Json where
  | null
  | boolean (value : Bool)
  | integer (value : Int64)
  | unsigned (value : UInt64)
  | float (value : Double)
  | string (value : ByteString)
  | array (items : List Json)
  | object (fields : List (ByteString × Json))

inductive JsonError where
  | parseError
  | typeError
  | invalidUtf8
deriving DecidableEq

theorem Except.toOption_eq_some_iff {ε α : Type} {x : Except ε α} {a : α} : x.toOption = some a ↔ x = .ok a := by
  cases x <;> simp [Except.toOption]

theorem Except.map_toOption_eq_some_iff {ε α β : Type} {x : Except ε α} {f : α → β} {b : β} :
    x.toOption.map f = some b ↔ ∃ a, x = .ok a ∧ f a = b := by
  cases x <;> simp [Except.toOption]

theorem Except.toOption_eq_none_iff {ε α : Type} {x : Except ε α} : x.toOption = none ↔ ∃ e, x = .error e := by
  cases x <;> simp [Except.toOption]

namespace Json

/-! ### Access -/

/-- `j[key]` on a value that may be changed: a missing field reads as null, and so does any field of null. -/
def field (j : Json) (key : ByteString) : Except JsonError Json :=
  match j with
  | object fields => .ok ((SortedAssoc.find? key fields).getD null)
  | null => .ok null
  | _ => .error .typeError

def contains (j : Json) (key : ByteString) : Bool :=
  match j with
  | object fields => (SortedAssoc.find? key fields).isSome
  | _ => false

/-- The field of an object, if it is there. -/
def member? (j : Json) (key : ByteString) : Option Json :=
  match j with
  | object fields => SortedAssoc.find? key fields
  | _ => none

/-- The field of an object, if it is there and a text. -/
def textAt? (j : Json) (key : ByteString) : Option ByteString :=
  match j.member? key with
  | some (string value) => some value
  | _ => none

/-- The items of the field of an object, if it is there and an array. -/
def arrayAt (j : Json) (key : ByteString) : List Json :=
  match j.member? key with
  | some (array items) => items
  | _ => []

/-- `j[key] = value` on an object. -/
def set (fields : List (ByteString × Json)) (key : ByteString) (value : Json) : List (ByteString × Json) :=
  SortedAssoc.insert key value fields

/-! ### Conversion -/

def getString : Json → Except JsonError ByteString
  | string value => .ok value
  | _ => .error .typeError

theorem getString_eq_ok_iff {j : Json} {value : ByteString} : j.getString = .ok value ↔ j = .string value := by
  cases j <;> simp [getString]

def getBool : Json → Except JsonError Bool
  | boolean value => .ok value
  | _ => .error .typeError

def getInt64 : Json → Except JsonError Int64
  | integer value => .ok value
  | unsigned value => .ok value.toInt64
  | float value => .ok (Int64.ofInt value.toInt)
  | _ => .error .typeError

def getUInt64 : Json → Except JsonError UInt64
  | integer value => .ok value.toUInt64
  | unsigned value => .ok value
  | float value => .ok (UInt64.ofInt value.toInt)
  | _ => .error .typeError

/-- Reading a C++ `int` narrows, and also accepts a boolean. -/
def getInt32 : Json → Except JsonError Int32
  | integer value => .ok value.toInt32
  | unsigned value => .ok value.toInt64.toInt32
  | float value => .ok (Int32.ofInt value.toInt)
  | boolean value => .ok (if value then 1 else 0)
  | _ => .error .typeError

def getDouble : Json → Except JsonError Double
  | integer value => .ok (Double.ofInt value.toInt)
  | unsigned value => .ok (Double.ofInt value.toNat)
  | float value => .ok value
  | _ => .error .typeError

def getDoubles : Json → Except JsonError (List Double)
  | array items => items.mapM getDouble
  | _ => .error .typeError

/-- `j.value(key, otherwise)`, for a conversion `get`; anything but an object throws. -/
def value {α : Type} (get : Json → Except JsonError α) (j : Json) (key : ByteString) (otherwise : α) :
    Except JsonError α :=
  match j with
  | object fields => (SortedAssoc.find? key fields).elim (.ok otherwise) get
  | _ => .error .typeError

theorem textAt?_eq_some_iff {j : Json} {key value : ByteString} :
    j.textAt? key = some value ↔ j.member? key = some (string value) := by
  rw [textAt?]
  split
  · rename_i text hmember
    rw [hmember]
    simp
  · rename_i hother
    exact ⟨fun h => absurd h (Option.some_ne_none value).symm, fun h => absurd h (hother value)⟩

/-! ### What a document has to satisfy, and what printing it loses -/

mutual

/-- Every string and every key is valid UTF-8. -/
def ValidText : Json → Prop
  | string value => ByteString.ValidUtf8 value
  | array items => ValidTexts items
  | object fields => ValidFields fields
  | _ => True

def ValidTexts : List Json → Prop
  | [] => True
  | item :: items => ValidText item ∧ ValidTexts items

def ValidFields : List (ByteString × Json) → Prop
  | [] => True
  | (key, value) :: fields => ByteString.ValidUtf8 key ∧ ValidText value ∧ ValidFields fields

end

mutual

/-- The fields of every object are in key order, as the library keeps them. -/
def Ordered : Json → Prop
  | array items => OrderedItems items
  | object fields => SortedAssoc.Sorted fields ∧ OrderedFields fields
  | _ => True

def OrderedItems : List Json → Prop
  | [] => True
  | item :: items => Ordered item ∧ OrderedItems items

def OrderedFields : List (ByteString × Json) → Prop
  | [] => True
  | (_, value) :: fields => Ordered value ∧ OrderedFields fields

end

mutual

/-- The value read back from the text of a value: a signed number that is not negative comes back unsigned, and a number that is not finite was written as null. -/
def reread : Json → Json
  | integer value => if value < 0 then integer value else unsigned value.toUInt64
  | float value => if value.isFinite then float value else null
  | array items => array (rereadItems items)
  | object fields => object (rereadFields fields)
  | null => null
  | boolean value => boolean value
  | unsigned value => unsigned value
  | string value => string value

def rereadItems : List Json → List Json
  | [] => []
  | item :: items => reread item :: rereadItems items

def rereadFields : List (ByteString × Json) → List (ByteString × Json)
  | [] => []
  | (key, value) :: fields => (key, reread value) :: rereadFields fields

end

theorem rereadItems_eq_map (items : List Json) : rereadItems items = items.map reread := by
  induction items with
  | nil => rfl
  | cons item items ih => rw [rereadItems, ih, List.map_cons]

theorem rereadFields_eq_map (fields : List (ByteString × Json)) :
    rereadFields fields = fields.map fun entry => (entry.1, reread entry.2) := by
  induction fields with
  | nil => rfl
  | cons entry fields ih => rw [rereadFields, ih, List.map_cons]

theorem validTexts_iff (items : List Json) : ValidTexts items ↔ ∀ item ∈ items, ValidText item := by
  induction items with
  | nil => simp [ValidTexts]
  | cons item items ih => simp [ValidTexts, ih]

theorem validFields_iff (fields : List (ByteString × Json)) :
    ValidFields fields ↔ ∀ entry ∈ fields, ByteString.ValidUtf8 entry.1 ∧ ValidText entry.2 := by
  induction fields with
  | nil => simp [ValidFields]
  | cons entry fields ih => simp [ValidFields, ih, and_assoc]

theorem orderedItems_iff (items : List Json) : OrderedItems items ↔ ∀ item ∈ items, Ordered item := by
  induction items with
  | nil => simp [OrderedItems]
  | cons item items ih => simp [OrderedItems, ih]

theorem orderedFields_iff (fields : List (ByteString × Json)) :
    OrderedFields fields ↔ ∀ entry ∈ fields, Ordered entry.2 := by
  induction fields with
  | nil => simp [OrderedFields]
  | cons entry fields ih => simp [OrderedFields, ih]

/-- Rereading acts field by field. -/
theorem find?_rereadFields (key : ByteString) (fields : List (ByteString × Json)) :
    SortedAssoc.find? key (rereadFields fields) = (SortedAssoc.find? key fields).map reread := by
  induction fields with
  | nil => rfl
  | cons entry fields ih =>
      rw [rereadFields, SortedAssoc.find?, SortedAssoc.find?]
      split
      · rfl
      · exact ih

end Json
