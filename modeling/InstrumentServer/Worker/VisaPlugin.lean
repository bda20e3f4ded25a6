import InstrumentServer.Lib.Placeholders
import InstrumentServer.Lib.Rounding
import InstrumentServer.Worker.PluginCommand

/-!
# The VISA plugin

`visa_plugin.c`, as far as it decides what is written to the instrument: `plugin_initialize` reads the address, the timeout and the termination from the connection object, and `plugin_execute_command` writes the template of the command with the parameters in place of the placeholders, and the termination. The calls of the VISA library succeed. How an answer is read is in `Worker/VisaReply`. The texts here are those of the source as long as no string has 127 bytes, which is copied without its NUL: `Worker/TemplateBuffer` has the memory.

The plugin takes the template from the verb field of the command, or from a parameter named `template`. `substituteTemplate_eq_render` says that a text that fits into the buffer is substituted completely.
-/

namespace InstrumentServer

open ByteString Placeholders

/-- What is used of cJSON: an empty object is read as one and has no items. -/
structure CJsonLibrary where
  parse : ByteString → Option Json
  getObjectItem : Json → ByteString → Option Json
  parse_emptyObject : parse (bytes "\x7b\x7d") = some (.object [])
  getObjectItem_emptyObject : ∀ key, getObjectItem (.object []) key = none

structure VisaPluginState where
  resourceAddress : ByteString := []
  timeoutMs : UInt32 := 0
  terminationChar : ByteString := []
  initialized : Bool := false

namespace VisaPlugin

/-! ### Numbers as text -/

/-- `%f` for a number of `millionths`. -/
def fixedText (negative : Bool) (millionths : Nat) : ByteString :=
  let digits := decimal (millionths % 10 ^ 6)
  (if negative then bytes "-" else []) ++ decimal (millionths / 10 ^ 6) ++ bytes "." ++
    List.replicate (6 - digits.length) 48 ++ digits

/-- `%f` for a binary number with the given significand and power of two. -/
def binaryText (negative : Bool) (significand : Nat) (exponent : Int) : ByteString :=
  fixedText negative
    (if 0 ≤ exponent then significand * 2 ^ exponent.toNat * 10 ^ 6
    else Rounding.quotient (significand * 10 ^ 6) (2 ^ (-exponent).toNat))

/-- `%f`, for a format with `width` bits of fraction and the largest exponent `top`. -/
def floatText (width top : Nat) (negative : Bool) (exponent fraction : Nat) : ByteString :=
  if exponent = top then (if negative then bytes "-" else []) ++ (if fraction = 0 then bytes "inf" else bytes "nan")
  else
    let significand := if exponent = 0 then fraction else 2 ^ width + fraction
    binaryText negative significand (max exponent 1 - (top / 2 + width : Nat))

def doubleText (value : Double) : ByteString := floatText 52 2047 value.isNegative value.exponent value.fraction

/-- The 32 bits of a `float`. -/
def singleText (bits : UInt32) : ByteString :=
  floatText 23 255 (bits.toNat.testBit 31) (bits.toNat / 2 ^ 23 % 2 ^ 8) (bits.toNat % 2 ^ 23)

/-! ### Substitution -/

/-- The text of a value. What `snprintf` writes is cut to the size of `value_str`. -/
def valueText : PluginParamValue → ByteString
  | .int32 value => decimalInt value.toInt
  | .int64 value => decimalInt value.toInt
  | .uint32 value => decimal value.toNat
  | .uint64 value => decimal value.toNat
  | .float value => (singleText value).take (pluginMaxStringLen - 1)
  | .double value => (doubleText value).take (pluginMaxStringLen - 1)
  | .bool value => if value then bytes "1" else bytes "0"
  | .string value => value.text
  | .none | .binary _ | .arrayDouble _ | .arrayInt32 _ => []

/-- What stands for a placeholder: the value of the parameter with its name, or else the placeholder itself. -/
def placeholderText (params : List PluginParam) (name : ByteString) : ByteString :=
  match params.find? fun param => param.name.text = name with
  | some param => valueText param.value
  | none => bytes "\x7b" ++ name ++ bytes "\x7d"

/-- The loop of `substitute_template`, with room for `remaining` bytes. An opening brace begins a placeholder when a closing one follows; then `name` is what was read of it. -/
def substituteLoop (params : List PluginParam) : Option ByteString → ByteString → Nat → ByteString
  | _, [], _ => []
  | none, b :: src, remaining =>
      if remaining = 0 then []
      else if b = 123 ∧ 125 ∈ src then substituteLoop params (some []) src remaining
      else b :: substituteLoop params none src (remaining - 1)
  | some name, b :: src, remaining =>
      if b = 125 then
        let text := placeholderText params name
        if text.length ≤ remaining then text ++ substituteLoop params none src (remaining - text.length)
        else substituteLoop params none src remaining
      else substituteLoop params (some (name ++ [b])) src remaining

def substituteTemplate (template : ByteString) (params : List PluginParam) (outputSize : Nat) : ByteString :=
  substituteLoop params none template (outputSize - 1)

/-- A template with every placeholder replaced: what substitution is for. -/
def render (text : ByteString → ByteString) (template : ByteString) : ByteString :=
  (segments 123 125 template).flatMap (Segment.text text)

/-- The names of the placeholders, in the order in which they are looked up. -/
def placeholders (template : ByteString) : List ByteString := names (segments 123 125 template)

theorem substituteLoop_eq_text {params : List PluginParam} {pending : Option ByteString} {src : ByteString}
    {remaining : Nat}
    (hfits : ((segmentsFrom 123 125 pending src).flatMap (Segment.text (placeholderText params))).length ≤ remaining) :
    substituteLoop params pending src remaining =
      (segmentsFrom 123 125 pending src).flatMap (Segment.text (placeholderText params)) := by
  induction src generalizing pending remaining with
  | nil =>
      cases pending <;> rfl
  | cons b src ih =>
      cases pending with
      | none =>
          rw [substituteLoop]
          by_cases hopen : b = 123 ∧ 125 ∈ src
          · have hsegments : segmentsFrom 123 125 none (b :: src) = segmentsFrom 123 125 (some []) src := if_pos hopen
            rw [hsegments] at hfits ⊢
            by_cases hfull : remaining = 0
            · rw [if_pos hfull]
              have hlength := Nat.le_zero.mp (hfull ▸ hfits)
              exact (List.length_eq_zero_iff.mp hlength).symm
            · rw [if_neg hfull, if_pos hopen]
              exact ih hfits
          · have hsegments : segmentsFrom 123 125 none (b :: src) = .literal b :: segmentsFrom 123 125 none src :=
              if_neg hopen
            rw [hsegments, List.flatMap_cons, Segment.text, List.singleton_append] at hfits ⊢
            rw [List.length_cons] at hfits
            rw [if_neg (by omega), if_neg hopen, ih (by omega)]
      | some name =>
          rw [substituteLoop]
          by_cases hclose : b = 125
          · have hsegments : segmentsFrom 123 125 (some name) (b :: src) = .placeholder name :: segmentsFrom 123 125 none src :=
              if_pos hclose
            rw [hsegments, List.flatMap_cons, Segment.text] at hfits ⊢
            rw [List.length_append] at hfits
            rw [if_pos hclose, if_pos (by omega), ih (by omega)]
          · have hsegments : segmentsFrom 123 125 (some name) (b :: src) = segmentsFrom 123 125 (some (name ++ [b])) src :=
              if_neg hclose
            rw [hsegments] at hfits ⊢
            rw [if_neg hclose]
            exact ih hfits

/-- A text that fits is substituted completely. -/
theorem substituteTemplate_eq_render {template : ByteString} {params : List PluginParam} {outputSize : Nat}
    (hfits : (render (placeholderText params) template).length < outputSize) :
    substituteTemplate template params outputSize = render (placeholderText params) template :=
  substituteLoop_eq_text (by rw [render, segments] at hfits; omega)

/-! ### Initialisation -/

def getJsonString (C : CJsonLibrary) (json : Json) (key otherwise : ByteString) : ByteString :=
  match C.getObjectItem json key with
  | some (.string value) => value.takeWhile (· ≠ 0)
  | _ => otherwise

/-- `valueint` of a number, which stays within the range of an `int`. -/
def valueInt (value : Int) : Int32 := Int32.ofInt (max (-2 ^ 31) (min (2 ^ 31 - 1) value))

def getJsonInt (C : CJsonLibrary) (json : Json) (key : ByteString) (otherwise : Int32) : Int32 :=
  match C.getObjectItem json key with
  | some (.integer value) => valueInt value.toInt
  | some (.unsigned value) => valueInt value.toNat
  | some (.float value) => valueInt value.toInt
  | _ => otherwise

/-- The characters a `termination` stands for. Any other text is copied into an array of four bytes. -/
def terminationChar (text : ByteString) : ByteString :=
  if text = bytes "\\n" then [10]
  else if text = bytes "\\r" then [13]
  else if text = bytes "\\r\\n" then [13, 10]
  else text.take 3

/-- The first half of `plugin_initialize`: the session of a connection, which needs an address. -/
def openSession (C : CJsonLibrary) (connectionJson : ByteString) : Option VisaPluginState :=
  match C.parse connectionJson with
  | none => none
  | some json =>
      let address := getJsonString C json (bytes "address") []
      if address = [] then none
      else
        some
          { resourceAddress := address.take (pluginMaxStringLen - 1)
            timeoutMs := (getJsonInt C json (bytes "timeout") 5000).toUInt32
            terminationChar := terminationChar (getJsonString C json (bytes "termination") (bytes "\\n"))
            initialized := true }

/-- The texts among the `initialization` items of the API definition. -/
def initCommands (C : CJsonLibrary) (apiDefinitionJson : ByteString) : List ByteString :=
  match (C.parse apiDefinitionJson).bind fun api => C.getObjectItem api (bytes "initialization") with
  | some (.array items) =>
      items.filterMap fun item =>
        match item with
        | .string text => some (text.takeWhile (· ≠ 0))
        | _ => none
  | _ => []

/-- The state afterwards, what was passed to `viWrite`, and the result. -/
def pluginInitialize (C : CJsonLibrary) (config : PluginConfig) (state : VisaPluginState) :
    VisaPluginState × List ByteString × Int32 :=
  match openSession C config.connectionJson.text with
  | none => (state, [], -1)
  | some session =>
      (session,
        (initCommands C config.apiDefinitionJson.text).map fun cmd =>
          (cmd ++ session.terminationChar).take (pluginMaxPayload - 1),
        0)

/-- Without an address there is no session. -/
theorem openSession_emptyObject (C : CJsonLibrary) : openSession C (bytes "\x7b\x7d") = none := by
  have haddress : getJsonString C (.object []) (bytes "address") [] = [] := by
    rw [getJsonString, C.getObjectItem_emptyObject]
  rw [openSession, C.parse_emptyObject]
  exact if_pos haddress

/-! ### Commands -/

/-- The verb, unless a parameter named `template` holds a text. -/
def commandTemplate (cmd : PluginCommand) : ByteString :=
  (cmd.params.findSome? fun param =>
    match param.value with
    | .string value => if param.name.text = bytes "template" then some value.text else none
    | _ => none).getD cmd.verb.text

theorem commandTemplate_eq_verb {cmd : PluginCommand} (hname : ∀ param ∈ cmd.params, param.name.text ≠ bytes "template") :
    commandTemplate cmd = cmd.verb.text := by
  have hnone : (cmd.params.findSome? fun param =>
      match param.value with
      | .string value => if param.name.text = bytes "template" then some value.text else none
      | _ => none) = none := by
    rw [List.findSome?_eq_none_iff]
    intro param hparam
    split
    · exact if_neg (hname param hparam)
    · rfl
  rw [commandTemplate, hnone]
  rfl

/-- What `plugin_execute_command` passes to `viWrite`. -/
def pluginExecuteCommand (state : VisaPluginState) (cmd : PluginCommand) : List ByteString :=
  if state.initialized then
    let command := substituteTemplate (commandTemplate cmd) cmd.params pluginMaxPayload
    [command ++ state.terminationChar.take (pluginMaxPayload - command.length - 1)]
  else []

/-- A command whose text fits into the buffer is written completely, with the termination behind it. -/
theorem pluginExecuteCommand_eq_render {state : VisaPluginState} {cmd : PluginCommand}
    (hinit : state.initialized = true)
    (hfits : (render (placeholderText cmd.params) (commandTemplate cmd)).length + state.terminationChar.length <
      pluginMaxPayload) :
    pluginExecuteCommand state cmd =
      [render (placeholderText cmd.params) (commandTemplate cmd) ++ state.terminationChar] := by
  have hcommand : substituteTemplate (commandTemplate cmd) cmd.params pluginMaxPayload =
      render (placeholderText cmd.params) (commandTemplate cmd) :=
    substituteTemplate_eq_render (by omega)
  rw [pluginExecuteCommand, if_pos hinit, hcommand]
  simp only
  rw [List.take_of_length_le (by omega)]

end VisaPlugin

end InstrumentServer
