import InstrumentServer.Lib.NumericText
import InstrumentServer.Server.CommandLine
import InstrumentServer.Server.TemporaryInstrument

/-!
# The parameters of `test`

`instrument-server test <config> <verb> key=text …` guesses the type of each text from its characters: with a point `std::stod` reads it, without one `std::stoll`, and what they refuse is a flag or a string. Both read a prefix. `testParameters_keep_meaning_iff` says which texts come through with the meaning they have as a whole.
-/

namespace InstrumentServer

open ByteString

/-! ### `main` -/

namespace CommandLine

/-- The value for a text that is no number. -/
def flagOrString (text : ByteString) : Json :=
  if text = bytes "true" ∨ text = bytes "false" then .boolean (text = bytes "true") else .string text

def parameterJson (text : ByteString) : Json :=
  if 46 ∈ text then
    match stod text with
    | some value => .float value
    | none => flagOrString text
  else
    match stoll text with
    | some value => .integer value
    | none => flagOrString text

/-- The object under `params`, which its first field creates. -/
def parameterFields (fields : List (ByteString × Json)) : List (ByteString × Json) :=
  match SortedAssoc.find? (bytes "params") fields with
  | some (.object params) => params
  | _ => []

/-- An argument that is no option; without `=` it is skipped. -/
def readParameter (fields : List (ByteString × Json)) (arg : ByteString) : List (ByteString × Json) :=
  match splitFirst 61 arg with
  | none => fields
  | some (key, text) =>
      Json.set fields (bytes "params") (.object (Json.set (parameterFields fields) key (parameterJson text)))

/-- The loop over the arguments behind the verb. -/
def readTestArguments (fields : List (ByteString × Json)) : List ByteString → List (ByteString × Json)
  | [] => fields
  | [arg] => readParameter fields arg
  | arg :: value :: rest =>
      match startOptions.lookup arg with
      | some key => readTestArguments (Json.set fields key (.string value)) rest
      | none => readTestArguments (readParameter fields arg) (value :: rest)

/-- What `main` hands to `handle_test`. -/
def testParams (configPath verb : ByteString) (args : List ByteString) : Json :=
  .object (readTestArguments
    (Json.set (Json.set [] (bytes "config_path") (.string configPath)) (bytes "verb") (.string verb)) args)

/-- The arguments `key=text` among the arguments, without the options and their values. -/
def assignments : List ByteString → List (ByteString × ByteString)
  | [] => []
  | [arg] => (splitFirst 61 arg).toList
  | arg :: value :: rest =>
      match startOptions.lookup arg with
      | some _ => assignments rest
      | none => (splitFirst 61 arg).toList ++ assignments (value :: rest)

end CommandLine

/-- The parameters of the command that `handle_test` builds. -/
def testCommandParams (N : JsonLibrary) (params : Json) : Option ParamMap :=
  (TestRequest.read params).toOption.bind fun request => (convertParams N request.paramValues).toOption

/-- Every command that `handle_test` hands to a proxy has these parameters. -/
theorem testCommandParams_of_sent {N : JsonLibrary} {Y : YamlLibrary} {env : TestSurroundings} {r : InstrumentRegistry}
    {params : Json} {call : ByteString × SerializedCommand} (hsent : call ∈ (handleTest N Y env r params).sent) :
    testCommandParams N params = some call.2.params := by
  rw [handleTest] at hsent
  rw [testCommandParams]
  split at hsent
  · contradiction
  · rename_i configPath verb customPlugin paramValues hread
    rw [hread]
    simp only [Except.toOption, Option.bind_some]
    split at hsent
    · contradiction
    · split at hsent
      · contradiction
      · split at hsent
        · contradiction
        · split at hsent
          · rw [testInstrument] at hsent
            split at hsent
            · contradiction
            · rename_i converted hconvert
              rw [hconvert]
              dsimp only at hsent
              split at hsent
              · rw [List.mem_singleton.mp hsent]
                rfl
              · contradiction
          · contradiction

/-! ### What a text means -/

/-- An optional sign and decimal digits, in the range of an `int64_t`. -/
def integerLiteral? (text : ByteString) : Option Int64 :=
  let (negative, digits) := splitSign text
  if digits ≠ [] ∧ digits.all isDigit then
    let value : Int := if negative then -(ofDecimal digits) else ofDecimal digits
    if -2 ^ 63 ≤ value ∧ value < 2 ^ 63 then some (Int64.ofInt value) else none
  else none

/-- A numeral in digits, from the first to the last character, in the range of a `double`. -/
def floatingLiteral? (text : ByteString) : Option Double :=
  match strtod text with
  | some (numeral, []) =>
      if text.dropWhile isSpace = text ∧ numeral.value?.isSome ∧ numeral.inRange then some numeral.toDouble else none
  | _ => none

/-- The parameter that a whole text stands for. -/
def textMeaning (text : ByteString) : ParamValue :=
  match integerLiteral? text, floatingLiteral? text with
  | some value, _ => .int64 value
  | none, some value => .double value
  | none, none =>
      if text = bytes "true" then .boolean true
      else if text = bytes "false" then .boolean false
      else .string text

/-- Whatever the arguments are, the command has the meaning of the last text of every key. -/
def KeepsTexts (N : JsonLibrary) (configPath verb : ByteString) (args : List ByteString) : Prop :=
  ∃ params, testCommandParams N (CommandLine.testParams configPath verb args) = some params ∧
    ∀ key, params.find? key = ((CommandLine.assignments args).reverse.lookup key).map textMeaning

/-- With a point `std::stod` refuses the text, or all of it is a floating-point literal. Without one `std::stoll` refuses it and it is no floating-point literal either, or all of it is an integer. -/
def WhollyRead (text : ByteString) : Prop :=
  if 46 ∈ text then stod text = none ∨ (floatingLiteral? text).isSome
  else if stoll text = none then floatingLiteral? text = none
  else (integerLiteral? text).isSome

/-! ### The fields of the request -/

section

variable {configPath verb : ByteString}

/-- What the loop knows of the fields: the options are texts, and `params` is there once it has a field. -/
structure TestFields (configPath verb : ByteString) (fields params : List (ByteString × Json)) : Prop where
  configPath : SortedAssoc.find? (bytes "config_path") fields = some (.string configPath)
  verb : SortedAssoc.find? (bytes "verb") fields = some (.string verb)
  options : ∀ key ∈ [bytes "plugin", bytes "log_level"], ∀ value ∈ SortedAssoc.find? key fields, ∃ text, value = .string text
  params : SortedAssoc.find? (bytes "params") fields = if params = [] then none else some (.object params)

theorem TestFields.parameterFields {fields params : List (ByteString × Json)}
    (h : TestFields configPath verb fields params) : CommandLine.parameterFields fields = params := by
  rw [CommandLine.parameterFields, h.params]
  split_ifs with hempty
  · exact hempty.symm
  · rfl

/-- The keys that the options have. -/
theorem key_of_startOptions {arg key : ByteString} (h : CommandLine.startOptions.lookup arg = some key) :
    key = bytes "plugin" ∨ key = bytes "log_level" := by
  rw [CommandLine.startOptions, List.lookup_cons, List.lookup_cons, List.lookup_nil] at h
  split at h
  · exact Or.inl (Option.some.inj h).symm
  · split at h
    · exact Or.inr (Option.some.inj h).symm
    · contradiction

theorem TestFields.setOption {fields params : List (ByteString × Json)} (h : TestFields configPath verb fields params)
    {key : ByteString} (hkey : key = bytes "plugin" ∨ key = bytes "log_level") (value : ByteString) :
    TestFields configPath verb (Json.set fields key (.string value)) params := by
  have hother : ∀ other, other ≠ bytes "plugin" → other ≠ bytes "log_level" →
      SortedAssoc.find? other (Json.set fields key (.string value)) = SortedAssoc.find? other fields := by
    intro other hplugin hlevel
    rw [Json.set, SortedAssoc.find?_insert, if_neg]
    rintro rfl
    exact hkey.elim hplugin hlevel
  refine
    { configPath := (hother _ (by decide) (by decide)).trans h.configPath
      verb := (hother _ (by decide) (by decide)).trans h.verb
      options := fun option hoption found hfound => ?_
      params := (hother _ (by decide) (by decide)).trans h.params }
  rw [Json.set, SortedAssoc.find?_insert] at hfound
  split at hfound
  · exact ⟨value, (Option.some.inj hfound).symm⟩
  · exact h.options option hoption found hfound

/-- The parameters after an argument. -/
def setParameter (params : List (ByteString × Json)) (assignment : ByteString × ByteString) : List (ByteString × Json) :=
  Json.set params assignment.1 (CommandLine.parameterJson assignment.2)

theorem setParameter_ne_nil (params : List (ByteString × Json)) (assignment : ByteString × ByteString) :
    setParameter params assignment ≠ [] := by
  intro hempty
  have hfind := SortedAssoc.find?_insert_self assignment.1 (CommandLine.parameterJson assignment.2) params
  rw [setParameter, Json.set] at hempty
  rw [hempty] at hfind
  contradiction

theorem TestFields.readParameter {fields params : List (ByteString × Json)} (h : TestFields configPath verb fields params)
    (arg : ByteString) :
    TestFields configPath verb (CommandLine.readParameter fields arg)
      ((splitFirst 61 arg).toList.foldl setParameter params) := by
  rw [CommandLine.readParameter]
  cases hsplit : splitFirst 61 arg with
  | none => exact h
  | some assignment =>
      rw [h.parameterFields]
      have hother : ∀ other, other ≠ bytes "params" → ∀ value,
          SortedAssoc.find? other (Json.set fields (bytes "params") value) = SortedAssoc.find? other fields :=
        fun other hne value => by rw [Json.set, SortedAssoc.find?_insert, if_neg hne]
      refine
        { configPath := (hother _ (by decide) _).trans h.configPath
          verb := (hother _ (by decide) _).trans h.verb
          options := fun option hoption found hfound => ?_
          params := ?_ }
      · have hne : option ≠ bytes "params" := by
          rintro rfl
          exact absurd hoption (by decide)
        rw [hother option hne] at hfound
        exact h.options option hoption found hfound
      · exact (SortedAssoc.find?_insert_self _ _ _).trans (if_neg (setParameter_ne_nil params assignment)).symm

/-- The loop collects the parameters one after the other. -/
theorem TestFields.readTestArguments {fields params : List (ByteString × Json)}
    (h : TestFields configPath verb fields params) (args : List ByteString) :
    TestFields configPath verb (CommandLine.readTestArguments fields args)
      ((CommandLine.assignments args).foldl setParameter params) := by
  induction fields, args using CommandLine.readTestArguments.induct generalizing params with
  | case1 fields => exact h
  | case2 fields arg => exact h.readParameter arg
  | case3 fields arg value rest key hkey ih =>
      rw [CommandLine.readTestArguments, CommandLine.assignments, hkey]
      exact ih (h.setOption (key_of_startOptions hkey) value)
  | case4 fields arg value rest hkey ih =>
      rw [CommandLine.readTestArguments, CommandLine.assignments, hkey]
      dsimp only
      rw [List.foldl_append]
      exact ih (h.readParameter arg)

/-- The request carries the parameters to `handle_test`. -/
theorem TestFields.read {fields params : List (ByteString × Json)} (h : TestFields configPath verb fields params) :
    ∃ request, TestRequest.read (.object fields) = .ok request ∧ request.paramValues = .object params := by
  have htext : ∀ key ∈ [bytes "plugin", bytes "log_level"], ∀ otherwise, ∃ text,
      (Json.object fields).value Json.getString key otherwise = .ok text := by
    intro key hkey otherwise
    rw [Json.value]
    cases hfind : SortedAssoc.find? key fields with
    | none => exact ⟨otherwise, rfl⟩
    | some value =>
        obtain ⟨text, rfl⟩ := h.options key hkey value hfind
        exact ⟨text, rfl⟩
  obtain ⟨customPlugin, hplugin⟩ := htext (bytes "plugin") (by decide) []
  obtain ⟨logLevel, hlevel⟩ := htext (bytes "log_level") (by decide) (bytes "info")
  have hconfig : (Json.object fields).value Json.getString (bytes "config_path") [] = .ok configPath := by
    rw [Json.value, h.configPath]
    rfl
  have hverb : (Json.object fields).value Json.getString (bytes "verb") [] = .ok verb := by
    rw [Json.value, h.verb]
    rfl
  have hparams : (Json.object fields).value Except.ok (bytes "params") (.object []) = .ok (.object params) := by
    rw [Json.value, h.params]
    split_ifs with hempty
    · rw [hempty]
      rfl
    · rfl
  refine ⟨⟨configPath, verb, customPlugin, .object params⟩, ?_, rfl⟩
  rw [TestRequest.read, hconfig, hverb, hplugin, hlevel, hparams]
  rfl

theorem testFields_testParams (configPath verb : ByteString) (args : List ByteString) :
    ∃ fields, CommandLine.testParams configPath verb args = .object fields ∧
      TestFields configPath verb fields ((CommandLine.assignments args).foldl setParameter []) := by
  refine ⟨_, rfl, TestFields.readTestArguments ?_ args⟩
  exact
    { configPath := rfl
      verb := rfl
      options := fun key hkey value hvalue => by
        rcases List.mem_pair.mp hkey with rfl | rfl <;> contradiction
      params := rfl }

/-! ### Conversion -/

def flagOrText (text : ByteString) : ParamValue :=
  if text = bytes "true" ∨ text = bytes "false" then .boolean (text = bytes "true") else .string text

/-- The parameter for a text. -/
def convertedText (text : ByteString) : ParamValue :=
  if 46 ∈ text then (stod text).elim (flagOrText text) .double else (stoll text).elim (flagOrText text) .int64

theorem convertParam_parameterJson (N : JsonLibrary) (text : ByteString) :
    convertParam N (CommandLine.parameterJson text) = .ok (convertedText text) := by
  have hother : convertParam N (CommandLine.flagOrString text) = .ok (flagOrText text) := by
    rw [CommandLine.flagOrString, flagOrText]
    split <;> rfl
  rw [CommandLine.parameterJson, convertedText]
  by_cases hpoint : 46 ∈ text
  · rw [if_pos hpoint, if_pos hpoint]
    cases stod text with
    | none => exact hother
    | some value => rfl
  · rw [if_neg hpoint, if_neg hpoint]
    cases stoll text with
    | none => exact hother
    | some value => rfl

/-- The loop over fields that can all be converted. -/
theorem convertFields_ok (N : JsonLibrary) {fields : List (ByteString × Json)} (hsorted : SortedAssoc.Sorted fields)
    (hvalues : ∀ field ∈ fields, ∃ value, convertParam N field.2 = .ok value) (params : ParamMap) :
    ∃ converted, convertFields N params fields = .ok converted ∧
      ∀ key, converted.find? key =
        ((SortedAssoc.find? key fields).bind fun j => (convertParam N j).toOption).or (params.find? key) := by
  induction fields generalizing params with
  | nil => exact ⟨params, rfl, fun key => rfl⟩
  | cons field fields ih =>
      obtain ⟨key, j⟩ := field
      obtain ⟨value, hvalue⟩ := hvalues (key, j) List.mem_cons_self
      obtain ⟨hfirst, hrest⟩ := List.pairwise_cons.mp hsorted
      obtain ⟨converted, hconverted, hfind⟩ :=
        ih hrest (fun field hfield => hvalues field (List.mem_cons_of_mem _ hfield)) (params.insert key value)
      refine ⟨converted, ?_, fun other => ?_⟩
      · rw [convertFields, hvalue]
        exact hconverted
      · rw [hfind, SortedAssoc.find?, ParamMap.find?, ParamMap.insert, SortedAssoc.find?_insert]
        by_cases hkey : other = key
        · have hnone : SortedAssoc.find? other fields = none := by
            cases hother : SortedAssoc.find? other fields with
            | none => rfl
            | some found =>
                have hlt := hfirst _ (SortedAssoc.mem_of_find? hother)
                exact absurd hkey.symm hlt.ne
          rw [if_pos hkey, if_pos hkey, hnone, Option.bind_some, hvalue]
          rfl
        · rw [if_neg hkey, if_neg hkey, ParamMap.find?]

theorem sorted_foldl_setParameter (assignments : List (ByteString × ByteString)) :
    SortedAssoc.Sorted (assignments.foldl setParameter []) := by
  induction assignments using List.reverseRecOn with
  | nil => exact List.Pairwise.nil
  | append_singleton assignments assignment ih =>
      rw [List.foldl_append]
      exact SortedAssoc.sorted_insert ih _ _

/-- The last text of a key counts. -/
theorem find?_foldl_setParameter (assignments : List (ByteString × ByteString)) (key : ByteString) :
    SortedAssoc.find? key (assignments.foldl setParameter []) =
      (assignments.reverse.lookup key).map CommandLine.parameterJson := by
  induction assignments using List.reverseRecOn with
  | nil => rfl
  | append_singleton assignments assignment ih =>
      obtain ⟨last, text⟩ := assignment
      rw [List.foldl_append, List.foldl_cons, List.foldl_nil, setParameter, Json.set, SortedAssoc.find?_insert, ih,
        List.reverse_append, List.reverse_singleton, List.singleton_append, List.lookup_cons]
      by_cases hkey : key = last
      · simp [hkey]
      · simp [hkey, beq_eq_false_iff_ne.mpr hkey]

/-- Every key has the parameter of its last text. -/
theorem find?_testCommandParams (N : JsonLibrary) (configPath verb : ByteString) (args : List ByteString) :
    ∃ params, testCommandParams N (CommandLine.testParams configPath verb args) = some params ∧
      ∀ key, params.find? key = ((CommandLine.assignments args).reverse.lookup key).map convertedText := by
  obtain ⟨fields, hfields, htest⟩ := testFields_testParams configPath verb args
  obtain ⟨request, hread, hvalues⟩ := htest.read
  have hsorted := sorted_foldl_setParameter (CommandLine.assignments args)
  have hfind := find?_foldl_setParameter (CommandLine.assignments args)
  obtain ⟨params, hparams, hkeys⟩ := convertFields_ok N hsorted (fun field hfield => by
    have hfound := (SortedAssoc.find?_of_mem hsorted hfield).symm.trans (hfind field.1)
    obtain ⟨text, -, htext⟩ := Option.map_eq_some_iff.mp hfound.symm
    exact ⟨convertedText text, htext ▸ convertParam_parameterJson N text⟩) .empty
  refine ⟨params, ?_, fun key => ?_⟩
  · rw [testCommandParams, hfields, hread]
    simp only [Except.toOption, Option.bind_some, hvalues, convertParams, hparams]
  · rw [hkeys, hfind]
    cases (CommandLine.assignments args).reverse.lookup key with
    | none => rfl
    | some text =>
        rw [Option.map_some, Option.bind_some, convertParam_parameterJson]
        rfl

/-! ### Which texts keep their meaning -/

/-- `std::stoll` reads an integer as it stands, and an integer has no point. -/
theorem of_integerLiteral {text : ByteString} {value : Int64} (h : integerLiteral? text = some value) :
    46 ∉ text ∧ stoll text = some value := by
  rw [integerLiteral?] at h
  generalize hsplit : splitSign text = parts at h
  obtain ⟨negative, digits⟩ := parts
  dsimp only at h
  split at h
  · rename_i hdigits
    obtain ⟨hne, hall⟩ := hdigits
    have hdigit : ∀ b ∈ digits, isDigit b = true := List.all_eq_true.mp hall
    obtain ⟨sign, htext, hsign⟩ := splitSign_cases hsplit
    have hplain : ∀ b ∈ text, b ≠ 46 ∧ ByteString.isSpace b = false := by
      intro b hb
      rcases List.mem_append.mp (htext ▸ hb) with hb | hb
      · rcases hsign b hb with rfl | rfl <;> decide
      · refine ⟨?_, not_isSpace_of_isDigit (hdigit b hb)⟩
        rintro rfl
        exact absurd (hdigit 46 hb) (by decide)
    have hspace : text.dropWhile ByteString.isSpace = text := by
      rw [List.dropWhile_eq_self_iff]
      intro hlength
      simp [(hplain _ (List.getElem_mem hlength)).2]
    refine ⟨fun hpoint => (hplain 46 hpoint).1 rfl, ?_⟩
    rw [stoll, hspace, hsplit]
    dsimp only
    rw [List.takeWhile_eq_self_iff.mpr hdigit, if_neg hne]
    exact h
  · contradiction

/-- `std::stod` reads a floating-point literal as it stands. -/
theorem stod_of_floatingLiteral {text : ByteString} {value : Double} (h : floatingLiteral? text = some value) :
    stod text = some value := by
  rw [floatingLiteral?] at h
  split at h
  · rename_i numeral hread
    split at h
    · rename_i hliteral
      rw [stod, hread]
      dsimp only
      rw [if_pos hliteral.2.2, h]
    · contradiction
  · contradiction

/-- With a point nothing but a floating-point literal keeps its meaning, unless it is refused. -/
theorem convertedText_point_iff {text : ByteString} (hpoint : 46 ∈ text) :
    convertedText text = textMeaning text ↔ stod text = none ∨ (floatingLiteral? text).isSome := by
  have hinteger : integerLiteral? text = none := by
    rw [Option.eq_none_iff_forall_ne_some]
    exact fun value hvalue => (of_integerLiteral hvalue).1 hpoint
  have htrue : text ≠ bytes "true" := by
    rintro rfl
    exact absurd hpoint (by decide)
  have hfalse : text ≠ bytes "false" := by
    rintro rfl
    exact absurd hpoint (by decide)
  rw [convertedText, if_pos hpoint, textMeaning, hinteger]
  cases hfloating : floatingLiteral? text with
  | some value =>
      rw [stod_of_floatingLiteral hfloating]
      simp
  | none =>
      cases hstod : stod text <;> simp [flagOrText, htrue, hfalse]

/-- Without a point only integers are read, and what is refused must not be a floating-point literal. -/
theorem convertedText_plain_iff {text : ByteString} (hpoint : 46 ∉ text) :
    convertedText text = textMeaning text ↔
      if stoll text = none then floatingLiteral? text = none else (integerLiteral? text).isSome := by
  rw [convertedText, if_neg hpoint, textMeaning]
  cases hstoll : stoll text with
  | none =>
      have hinteger : integerLiteral? text = none := by
        rw [Option.eq_none_iff_forall_ne_some]
        intro value hvalue
        rw [(of_integerLiteral hvalue).2] at hstoll
        contradiction
      rw [hinteger, if_pos rfl, Option.elim_none, flagOrText]
      cases floatingLiteral? text with
      | none => simp only []; split_ifs <;> simp_all
      | some value => simp only []; split_ifs <;> simp
  | some value =>
      rw [if_neg (Option.some_ne_none value), Option.elim_some]
      cases hinteger : integerLiteral? text with
      | some whole =>
          rw [(of_integerLiteral hinteger).2] at hstoll
          simp [Option.some.inj hstoll]
      | none =>
          cases floatingLiteral? text with
          | none => simp only []; split_ifs <;> simp
          | some value => simp

theorem convertedText_eq_textMeaning_iff (text : ByteString) : convertedText text = textMeaning text ↔ WhollyRead text := by
  rw [WhollyRead]
  split
  · rename_i hpoint
    exact convertedText_point_iff hpoint
  · rename_i hpoint
    exact convertedText_plain_iff hpoint

end

/-- The parameters keep their meaning exactly if the text that counts for a key is wholly read. -/
theorem testParameters_keep_meaning_iff (N : JsonLibrary) (configPath verb : ByteString) (args : List ByteString) :
    KeepsTexts N configPath verb args ↔
      ∀ key text, (CommandLine.assignments args).reverse.lookup key = some text → WhollyRead text := by
  obtain ⟨params, hparams, hfind⟩ := find?_testCommandParams N configPath verb args
  rw [KeepsTexts, hparams]
  simp only [Option.some.injEq, exists_eq_left', hfind]
  constructor
  · intro hmeaning key text htext
    have hkey := hmeaning key
    rw [htext] at hkey
    exact (convertedText_eq_textMeaning_iff text).mp (Option.some.inj hkey)
  · intro hread key
    cases htext : (CommandLine.assignments args).reverse.lookup key with
    | none => rfl
    | some text => exact congrArg some ((convertedText_eq_textMeaning_iff text).mpr (hread key text htext))

/-- A number with an exponent and no point becomes the integer before the exponent. -/
theorem testParameters_exponentWithoutPoint :
    (testCommandParams .compact (CommandLine.testParams (bytes "dmm.yaml") (bytes "SET") [bytes "voltage=1e5"])).map
        (fun params => params.find? (bytes "voltage")) = some (some (.int64 1)) ∧
      ¬ KeepsTexts .compact (bytes "dmm.yaml") (bytes "SET") [bytes "voltage=1e5"] := by
  obtain ⟨params, hparams, hfind⟩ := find?_testCommandParams .compact (bytes "dmm.yaml") (bytes "SET") [bytes "voltage=1e5"]
  have hvoltage : params.find? (bytes "voltage") = some (.int64 1) := (hfind _).trans (by decide +kernel)
  rw [KeepsTexts, hparams]
  refine ⟨congrArg some hvoltage, ?_⟩
  rintro ⟨other, hother, hmeaning⟩
  obtain rfl := Option.some.inj hother
  have hone := hvoltage.symm.trans (hmeaning (bytes "voltage"))
  revert hone
  decide +kernel

end InstrumentServer
