import InstrumentServer.Validation.SchemaValidator
import InstrumentServer.Worker.TemplateBuffer

/-!
# The names of a template

Two programs read the placeholders of a template: the validator searches for a regular expression, and `substitute_template` jumps to the next closing brace. Both see the same names, up to the empty one: `scanners_agree`. So what the validator found in a template is what the plugin looks up.
-/

namespace InstrumentServer

open ByteString Placeholders VisaPlugin

theorem templatePlaceholdersFrom_none_cons (b : UInt8) (rest : ByteString) :
    templatePlaceholdersFrom none (b :: rest) =
      if b = 123 then templatePlaceholdersFrom (some []) rest else templatePlaceholders rest :=
  rfl

theorem templatePlaceholdersFrom_some_cons (name : ByteString) (b : UInt8) (rest : ByteString) :
    templatePlaceholdersFrom (some name) (b :: rest) =
      if b = 125 then if name = [] then templatePlaceholders rest else name :: templatePlaceholders rest
      else templatePlaceholdersFrom (some (name ++ [b])) rest :=
  rfl

/-- While the search is behind an opening brace, what it read so far begins the name of the next match. -/
theorem templatePlaceholdersFrom_some (name : ByteString) {more rest : ByteString} (hmore : 125 ∉ more)
    (hname : name ++ more ≠ []) :
    templatePlaceholdersFrom (some name) (more ++ 125 :: rest) = (name ++ more) :: templatePlaceholders rest := by
  induction more generalizing name with
  | nil =>
      rw [List.append_nil] at hname
      rw [List.nil_append, List.append_nil, templatePlaceholdersFrom_some_cons, if_pos rfl, if_neg hname]
  | cons b more ih =>
      rw [List.mem_cons, not_or] at hmore
      rw [List.cons_append, templatePlaceholdersFrom_some_cons, if_neg (Ne.symm hmore.1), ih _ hmore.2 (by simp),
        List.append_assoc, List.singleton_append]

/-- Without a closing brace nothing is found. -/
theorem templatePlaceholdersFrom_unclosed (open? : Option ByteString) {src : ByteString} (hsrc : 125 ∉ src) :
    templatePlaceholdersFrom open? src = [] := by
  induction src generalizing open? with
  | nil => cases open? <;> rfl
  | cons b src ih =>
      rw [List.mem_cons, not_or] at hsrc
      cases open? with
      | none =>
          rw [templatePlaceholdersFrom_none_cons]
          split
          · exact ih _ hsrc.2
          · exact ih none hsrc.2
      | some name =>
          rw [templatePlaceholdersFrom_some_cons, if_neg (Ne.symm hsrc.1)]
          exact ih _ hsrc.2

/-- The validator finds the names of the pieces that are not empty. -/
theorem templatePlaceholders_eq_names (template : ByteString) :
    templatePlaceholders template = (names (segments 123 125 template)).filter (· ≠ []) := by
  induction template using placeholderInduction (123 : UInt8) 125 with
  | hnil => rfl
  | hliteral b src hliteral ih =>
      rw [segments_literal hliteral, names_literal, ← ih, templatePlaceholders, templatePlaceholdersFrom_none_cons]
      split
      · rename_i hopen
        rw [templatePlaceholdersFrom_unclosed _ (hliteral hopen), templatePlaceholders,
          templatePlaceholdersFrom_unclosed _ (hliteral hopen)]
      · rfl
  | hplaceholder name rest hname ih =>
      rw [segments_placeholder hname, names_placeholder, templatePlaceholders, templatePlaceholdersFrom_none_cons, if_pos rfl]
      by_cases hempty : name = []
      · subst hempty
        rw [List.nil_append, List.filter_cons_of_neg (by simp), ← ih, templatePlaceholdersFrom_some_cons, if_pos rfl, if_pos rfl]
      · rw [List.filter_cons_of_pos (by simpa using hempty), ← ih, templatePlaceholdersFrom_some [] hname hempty,
          List.nil_append]

/-- The names looked up by a call are, apart from empty ones, the leftmost matches, which the validator finds too. So a template whose names are all allowed leaves none of them unresolved when every allowed name is the name of a parameter. -/
structure LooksUpMatches (template : ByteString) (params : List PluginParam) (lookedUp : List ByteString) : Prop where
  leftmost : ∀ found, LeftmostMatches 123 125 template found ↔ lookedUp.filter (· ≠ []) = found
  validator : lookedUp.filter (· ≠ []) = templatePlaceholders template
  resolved : ∀ allowedNames : List ByteString, (∀ name ∈ templatePlaceholders template, name ∈ allowedNames) →
    (∀ name ∈ allowedNames, ∃ param ∈ params, param.name.text = name) →
      ∀ name ∈ lookedUp, name ≠ [] → (params.find? fun param => param.name.text = name).isSome

/-- As long as the output does not fill up, the plugin looks up what the validator finds. -/
theorem scanners_agree (template : CharArray pluginMaxStringLen) (cmd : PluginCommand) (uninit : Nat → ByteString)
    {output : ByteString} (houtput : output ≠ []) :
    ∃ result, substituteInto template.text cmd.params uninit output = some result ∧
      ((cString result.1).length + 1 < output.length → LooksUpMatches template.text cmd.params result.2) := by
  obtain ⟨result, hresult, -, hnames⟩ := substituteInto_fills template.noNul cmd.params uninit houtput
  refine ⟨result, hresult, fun hroom => ?_⟩
  have hfound : result.2.filter (· ≠ []) = templatePlaceholders template.text := by
    rw [hnames hroom, templatePlaceholders_eq_names]
  refine ⟨fun found => ?_, hfound, fun allowedNames hallowed hparams name hname hnonempty => ?_⟩
  · have hmatches := leftmostMatches_names (by decide : (123 : UInt8) ≠ 125) template.text
    rw [hnames hroom]
    constructor
    · exact hmatches.unique
    · rintro rfl
      exact hmatches
  · have hmem : name ∈ templatePlaceholders template.text := by
      rw [← hfound]
      exact List.mem_filter.mpr ⟨hname, by simpa using hnonempty⟩
    obtain ⟨param, hparam, rfl⟩ := hparams name (hallowed name hmem)
    exact List.find?_isSome.mpr ⟨param, hparam, by simp⟩

/-- A template with an empty pair of braces. -/
def rangeTemplate : CharArray pluginMaxStringLen := .copy _ pluginMaxStringLen_pos (bytes "RANG\x7b\x7d \x7bvalue\x7d,(@\x7bchannel\x7d)")

def rangeCommand : PluginCommand :=
  toPluginCommand
    { instrumentName := bytes "DAC", verb := rangeTemplate.text,
      params := (ParamMap.empty.insert (bytes "channel") (.int64 3)).insert (bytes "value") (.string (bytes "10")) }

theorem scanners_agree_rangeCommand :
    List.replicate 64 (0 : UInt8) ≠ [] ∧
      ∃ result, substituteInto rangeTemplate.text rangeCommand.params (fun _ => []) (List.replicate 64 0) = some result ∧
        cString result.1 = bytes "RANG\x7b\x7d 10,(@3)" ∧ LooksUpMatches rangeTemplate.text rangeCommand.params result.2 := by
  have houtput : List.replicate 64 (0 : UInt8) ≠ [] := by decide
  refine ⟨houtput, ?_⟩
  obtain ⟨result, hresult, hagree⟩ := scanners_agree rangeTemplate rangeCommand (fun _ => []) houtput
  obtain ⟨result', hresult', hfill, -⟩ := substituteInto_fills rangeTemplate.noNul rangeCommand.params (fun _ => []) houtput
  obtain rfl := Option.some.inj (hresult.symm.trans hresult')
  have htext : cString result.1 = bytes "RANG\x7b\x7d 10,(@3)" := hfill.trans (by decide +kernel)
  exact ⟨result, hresult, htext, hagree (by rw [htext]; decide +kernel)⟩

end InstrumentServer
