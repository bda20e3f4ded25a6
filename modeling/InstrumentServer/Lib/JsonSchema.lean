import InstrumentServer.Lib.Json.Value
import InstrumentServer.Lib.Rounding

/-!
# JSON schemas

The part of draft 7 that is about types, enumerations of texts, lower bounds, fields, items and alternatives. A schema is its list of keywords, and a value is valid under it when it is valid under each of them; a keyword says nothing about values of another type than its own. `$ref` is a definition here.

An infinity or a NaN is no JSON number: the library writes it as null.
-/

inductive JsonType where
  | object
  | array
  | string
  | number
  | integer
  | boolean
  | null
deriving DecidableEq

/-- The numeric value, if the value is a number. -/
def Json.number? : Json → Option ℚ
  | .integer value => some value.toInt
  | .unsigned value => some value.toNat
  | .float value => if value.isFinite then some value.toRat else none
  | _ => none

def Json.hasType (j : Json) : JsonType → Bool
  | .number => j.number?.isSome
  | .integer => j.number?.any fun value => value.den = 1
  | .object => match j with | .object _ => true | _ => false
  | .array => match j with | .array _ => true | _ => false
  | .string => match j with | .string _ => true | _ => false
  | .boolean => match j with | .boolean _ => true | _ => false
  | .null => match j with | .null => true | _ => false

inductive JsonSchema where
  | type (expected : JsonType)
  /-- `enum`, or `const` with one of them -/
  | texts (values : List ByteString)
  | minimum (bound : Int)
  | required (keys : List ByteString)
  | properties (schemas : List (ByteString × JsonSchema))
  /-- `additionalProperties`, for all fields but those named -/
  | additional (named : List ByteString) (schema : JsonSchema)
  | items (schema : JsonSchema)
  | oneOf (schemas : List JsonSchema)
  /-- a schema with these keywords -/
  | schema (keywords : List JsonSchema)

namespace JsonSchema

def fieldsOf : Json → List (ByteString × Json)
  | .object fields => fields
  | _ => []

def itemsOf : Json → List Json
  | .array elements => elements
  | _ => []

mutual

/-- The value is valid under a keyword, or under all keywords of a schema. -/
def accepts : JsonSchema → Json → Bool
  | .type expected, j => j.hasType expected
  | .texts values, j => match j with | .string value => values.contains value | _ => false
  | .minimum bound, j => j.number?.all fun value => decide ((bound : ℚ) ≤ value)
  | .required keys, j => !j.hasType .object || keys.all j.contains
  | .properties schemas, j => acceptsProperties schemas j
  | .additional named inner, j =>
      (fieldsOf j).all fun field => named.contains field.1 || accepts inner field.2
  | .items inner, j => (itemsOf j).all (accepts inner)
  | .oneOf schemas, j => countAccepts schemas j == 1
  | .schema keywords, j => acceptsAll keywords j

/-- Each of the fields that is there is valid under its schema. -/
def acceptsProperties : List (ByteString × JsonSchema) → Json → Bool
  | [], _ => true
  | (key, inner) :: rest, j => (j.member? key).all (accepts inner) && acceptsProperties rest j

def countAccepts : List JsonSchema → Json → Nat
  | [], _ => 0
  | first :: rest, j => (accepts first j).toNat + countAccepts rest j

def acceptsAll : List JsonSchema → Json → Bool
  | [], _ => true
  | first :: rest, j => accepts first j && acceptsAll rest j

end

/-- The value is valid under the schema. -/
def Valid (schema : JsonSchema) (j : Json) : Prop := schema.accepts j = true

instance (schema : JsonSchema) (j : Json) : Decidable (schema.Valid j) := inferInstanceAs (Decidable (_ = true))

/-! ### Validity under each keyword -/

theorem acceptsAll_iff (keywords : List JsonSchema) (j : Json) :
    acceptsAll keywords j = true ↔ ∀ keyword ∈ keywords, keyword.Valid j := by
  induction keywords with
  | nil => simp [acceptsAll]
  | cons first rest ih => rw [acceptsAll, Bool.and_eq_true, ih, List.forall_mem_cons, Valid]

theorem valid_schema_iff {keywords : List JsonSchema} {j : Json} :
    (schema keywords).Valid j ↔ ∀ keyword ∈ keywords, keyword.Valid j := by
  rw [Valid, accepts]
  exact acceptsAll_iff keywords j

theorem acceptsProperties_iff (schemas : List (ByteString × JsonSchema)) (j : Json) :
    acceptsProperties schemas j = true ↔ ∀ property ∈ schemas, ∀ value ∈ j.member? property.1, property.2.Valid value := by
  induction schemas with
  | nil => simp [acceptsProperties]
  | cons first rest ih =>
      obtain ⟨key, inner⟩ := first
      rw [acceptsProperties, Bool.and_eq_true, ih, List.forall_mem_cons, Option.all_eq_true]
      rfl

theorem valid_properties_iff {schemas : List (ByteString × JsonSchema)} {j : Json} :
    (properties schemas).Valid j ↔ ∀ property ∈ schemas, ∀ value ∈ j.member? property.1, property.2.Valid value := by
  rw [Valid, accepts]
  exact acceptsProperties_iff schemas j

theorem valid_required_object_iff {keys : List ByteString} {fields : List (ByteString × Json)} :
    (required keys).Valid (.object fields) ↔ ∀ key ∈ keys, ((Json.object fields).member? key).isSome = true := by
  simp [Valid, accepts, Json.hasType, Json.contains, Json.member?]

theorem valid_additional_object_iff {named : List ByteString} {inner : JsonSchema} {fields : List (ByteString × Json)} :
    (additional named inner).Valid (.object fields) ↔ ∀ field ∈ fields, field.1 ∉ named → inner.Valid field.2 := by
  simp only [Valid, accepts, fieldsOf, List.all_eq_true, Bool.or_eq_true, List.contains_iff_mem, or_iff_not_imp_left]

/-- One of two alternatives. -/
theorem valid_oneOf_pair_iff {first second : JsonSchema} {j : Json} :
    (oneOf [first, second]).Valid j ↔ (first.Valid j ↔ ¬ second.Valid j) := by
  rw [Valid, accepts, countAccepts, countAccepts, countAccepts, Valid, Valid]
  cases first.accepts j <;> cases second.accepts j <;> simp

theorem valid_type_iff {expected : JsonType} {j : Json} : (type expected).Valid j ↔ j.hasType expected = true := by
  rw [Valid, accepts]

theorem valid_texts_string_iff {values : List ByteString} {value : ByteString} :
    (texts values).Valid (.string value) ↔ value ∈ values := by
  rw [Valid, accepts, List.contains_iff_mem]

end JsonSchema
