import InstrumentServer.Lib.Strings
import InstrumentServer.Server.SyncResults

/-!
# The grammar of call names

The name of `context:call` is documented as `InstrumentName.CommandVerb` or `InstrumentName:Channel.CommandVerb`. The parser cuts at the first dot and at the first colon before it, and `stoi` finds the channel at the beginning of what is between, whatever else stands there. `parsedByGrammar_iff` says which names are treated as the grammar says: those the parser refuses, and those with nothing empty and nothing around the number.
-/

namespace InstrumentServer

open ByteString

/-! ### The grammar -/

/-- An optional sign and decimal digits, and nothing else. -/
structure IsNumeral (text sign digits : ByteString) : Prop where
  text : text = sign ++ digits
  sign : sign = [] ∨ sign = [43] ∨ sign = [45]
  nonempty : digits ≠ []
  digits : ∀ b ∈ digits, isDigit b = true

def signedValue (sign digits : ByteString) : Int := if sign = [45] then -(ofDecimal digits) else ofDecimal digits

/-- The text is a number with the given value, in the range of an `int`. -/
def DenotesInt (text : ByteString) (n : Int) : Prop :=
  ∃ sign digits, IsNumeral text sign digits ∧ n = signedValue sign digits ∧ -2 ^ 31 ≤ n ∧ n < 2 ^ 31

/-- What may stand for an instrument. -/
def IsIdentifier (id : ByteString) : Prop := id ≠ [] ∧ 46 ∉ id ∧ 58 ∉ id

/-- `id.verb` or `id:n.verb`. -/
inductive CallGrammar : ByteString → ByteString → Option Int → ByteString → Prop
  | plain {id verb : ByteString} (hid : IsIdentifier id) (hverb : verb ≠ []) : CallGrammar (id ++ 46 :: verb) id none verb
  | channel {id text verb : ByteString} {n : Int} (hid : IsIdentifier id) (hnumber : DenotesInt text n) (hverb : verb ≠ []) :
      CallGrammar (id ++ 58 :: (text ++ 46 :: verb)) id (some n) verb

/-- What `call` goes on to address. -/
def addressed (funcName : ByteString) : Option (ByteString × Option Int × ByteString) :=
  (parseFuncName funcName).map fun name => (name.instrument, name.channel, name.verb)

/-- A name is treated as the grammar says, whether the call is buffered, sent with a token or sent and waited for. -/
structure ParsedByGrammar (funcName : ByteString) : Prop where
  addressed : ∀ id n verb, addressed funcName = some (id, n, verb) ↔ CallGrammar funcName id n verb
  /-- a name of the grammar makes a command for just that instrument, channel and verb -/
  command : ∀ id n verb, CallGrammar funcName id n verb → ∀ expects args,
    ∃ cmd, ScriptCall.command? expects ⟨funcName, args⟩ = some cmd ∧ cmd.instrumentName = id ∧ cmd.verb = verb ∧
      ∀ channel ∈ n, cmd.params.find? (bytes "channel") = some (.int64 (Int64.ofInt channel))
  /-- with any other name nothing is buffered, sent or recorded -/
  ignored : (∀ id n verb, ¬ CallGrammar funcName id n verb) → ∀ expects args,
    ScriptCall.command? expects ⟨funcName, args⟩ = none ∧
      (∀ (Future : Type) outcome (ctx : RuntimeContext Future) allInstruments,
        RuntimeContext.runOp expects outcome ctx (.call allInstruments ⟨funcName, args⟩) = ctx) ∧
      ∀ (Future : Type) registry outcome (s : SyncScript Future),
        SyncScript.runOp expects registry outcome s (.call ⟨funcName, args⟩) = s

/-- The parser finds no dot, or a colon before the first dot and no number behind it; or nothing around the first dot and colon is empty, and between the two stands a number alone. -/
def NothingAround (funcName : ByteString) : Prop :=
  ∀ spec verb, splitFirst 46 funcName = some (spec, verb) →
    match splitFirst 58 spec with
    | none => spec ≠ [] ∧ verb ≠ []
    | some (id, text) => stoi text = none ∨ id ≠ [] ∧ (∃ sign digits, IsNumeral text sign digits) ∧ verb ≠ []

/-! ### Cutting at a byte -/

theorem splitFirst_append {b : UInt8} {before : ByteString} (hbefore : b ∉ before) (after : ByteString) :
    splitFirst b (before ++ b :: after) = some (before, after) := by
  rw [splitFirst, if_pos (List.mem_append_right _ List.mem_cons_self), Lists.takeWhile_ne_append hbefore,
    Lists.dropWhile_ne_append hbefore]
  simp

theorem splitFirst_cases {b : UInt8} {s before after : ByteString} (h : splitFirst b s = some (before, after)) :
    s = before ++ b :: after ∧ b ∉ before := by
  rw [splitFirst] at h
  split at h
  · rename_i hmem
    obtain ⟨rfl, rfl⟩ := Prod.mk.inj (Option.some.inj h)
    obtain ⟨rest, hrest⟩ := Lists.dropWhile_ne_of_mem hmem
    refine ⟨?_, fun hb => by simpa using List.mem_takeWhile_imp hb⟩
    rw [hrest, List.tail_cons, ← hrest, List.takeWhile_append_dropWhile]
  · contradiction

theorem splitFirst_eq_none {b : UInt8} {s : ByteString} : splitFirst b s = none ↔ b ∉ s := by
  rw [splitFirst]
  split <;> simp [*]

/-! ### Numbers -/

/-- `stoi` once the sign is read. -/
theorem ite_takeWhile_digits {digits : ByteString} (hdigits : digits ≠ []) (hdigit : ∀ b ∈ digits, isDigit b = true)
    (value : ByteString → Option Int) :
    (if digits.takeWhile isDigit = [] then none else value (digits.takeWhile isDigit)) = value digits := by
  rw [List.takeWhile_eq_self_iff.mpr hdigit]
  exact if_neg hdigits

/-- A numeral is read as it stands, when its value is an `int`. -/
theorem IsNumeral.stoi_eq {text sign digits : ByteString} (h : IsNumeral text sign digits) :
    stoi text =
      if -2 ^ 31 ≤ signedValue sign digits ∧ signedValue sign digits < 2 ^ 31 then some (signedValue sign digits)
      else none := by
  obtain ⟨rfl, rfl | rfl | rfl, hdigits, hdigit⟩ := h
  · have hread := @stoi_digits [] digits [] (by simp) hdigits hdigit (by simp)
    rw [List.append_nil, List.nil_append] at hread
    have hsigned : signedValue [] digits = ofDecimal digits := if_neg (by decide)
    rw [List.nil_append, hread, hsigned]
    exact if_congr (by omega) rfl rfl
  · exact ite_takeWhile_digits hdigits hdigit fun digits => asInt (ofDecimal digits)
  · exact ite_takeWhile_digits hdigits hdigit fun digits => asInt (-(ofDecimal digits : Int))

theorem stoi_eq_some_of_denotesInt {text : ByteString} {n : Int} (h : DenotesInt text n) : stoi text = some n := by
  obtain ⟨sign, digits, hnumeral, rfl, hrange⟩ := h
  rw [hnumeral.stoi_eq, if_pos hrange]

theorem denotesInt_of_stoi {text sign digits : ByteString} {n : Int} (hnumeral : IsNumeral text sign digits)
    (hstoi : stoi text = some n) : DenotesInt text n := by
  rw [hnumeral.stoi_eq] at hstoi
  obtain ⟨hrange, hvalue⟩ := Option.ite_none_right_eq_some.mp hstoi
  obtain rfl := Option.some.inj hvalue
  exact ⟨sign, digits, hnumeral, rfl, hrange⟩

/-- Neither a dot nor a colon stands in a numeral. -/
theorem IsNumeral.not_mem {text sign digits : ByteString} (h : IsNumeral text sign digits) : 46 ∉ text ∧ 58 ∉ text := by
  obtain ⟨rfl, hsign, -, hdigit⟩ := h
  have hnot : ∀ b : UInt8, isDigit b = false → b ∉ sign → b ∉ sign ++ digits := by
    intro b hb hmem hin
    rcases List.mem_append.mp hin with hin | hin
    · exact hmem hin
    · rw [hdigit b hin] at hb
      contradiction
  constructor <;> apply hnot _ (by decide) <;> rcases hsign with rfl | rfl | rfl <;> decide

/-! ### The parser and the grammar -/

/-- A name of the grammar is parsed as the grammar says. -/
theorem parseFuncName_of_callGrammar {funcName id verb : ByteString} {n : Option Int}
    (h : CallGrammar funcName id n verb) : ∃ spec, parseFuncName funcName = some ⟨spec, id, n, verb⟩ := by
  cases h with
  | plain hid hverb =>
      obtain ⟨-, hdot, hcolon⟩ := hid
      refine ⟨id, ?_⟩
      rw [parseFuncName, splitFirst_append hdot]
      dsimp only
      rw [splitFirst_eq_none.mpr hcolon]
  | @channel _ text _ n hid hnumber hverb =>
      obtain ⟨-, hdot, hcolon⟩ := hid
      have hstoi := stoi_eq_some_of_denotesInt hnumber
      obtain ⟨sign, digits, hnumeral, -⟩ := hnumber
      have hspec : 46 ∉ id ++ 58 :: text := by
        simp only [List.mem_append, List.mem_cons, not_or]
        exact ⟨hdot, by decide, hnumeral.not_mem.1⟩
      refine ⟨id ++ 58 :: text, ?_⟩
      rw [parseFuncName, show id ++ 58 :: (text ++ 46 :: verb) = (id ++ 58 :: text) ++ 46 :: verb by simp,
        splitFirst_append hspec]
      dsimp only
      rw [splitFirst_append hcolon]
      dsimp only
      rw [hstoi]
      rfl

/-- Where nothing is empty and nothing stands around the number, what is parsed is of the grammar. -/
theorem callGrammar_of_parseFuncName {funcName : ByteString} (hbare : NothingAround funcName) {name : CallName}
    (hparse : parseFuncName funcName = some name) : CallGrammar funcName name.instrument name.channel name.verb := by
  rw [parseFuncName] at hparse
  cases hdot : splitFirst 46 funcName with
  | none =>
      rw [hdot] at hparse
      contradiction
  | some cut =>
      obtain ⟨spec, verb⟩ := cut
      obtain ⟨rfl, hnodot⟩ := splitFirst_cases hdot
      have hcond := hbare spec verb hdot
      rw [hdot] at hparse
      dsimp only at hparse
      cases hcolon : splitFirst 58 spec with
      | none =>
          rw [hcolon] at hparse hcond
          obtain rfl := Option.some.inj hparse
          exact .plain ⟨hcond.1, hnodot, splitFirst_eq_none.mp hcolon⟩ hcond.2
      | some cut =>
          obtain ⟨id, text⟩ := cut
          obtain ⟨rfl, hnocolon⟩ := splitFirst_cases hcolon
          rw [hcolon] at hparse hcond
          obtain ⟨channel, hstoi, rfl⟩ := Option.map_eq_some_iff.mp hparse
          rcases hcond with hnone | ⟨hid, ⟨sign, digits, hnumeral⟩, hverb⟩
          · rw [hnone] at hstoi
            contradiction
          · have hidentifier : IsIdentifier id := ⟨hid, fun h => hnodot (List.mem_append_left _ h), hnocolon⟩
            rw [List.append_assoc, List.cons_append]
            exact .channel hidentifier (denotesInt_of_stoi hnumeral hstoi) hverb

/-- And where what is parsed is of the grammar, nothing is empty and nothing stands around the number. -/
theorem nothingAround_of_callGrammar {funcName : ByteString}
    (hgrammar : ∀ name, parseFuncName funcName = some name →
      CallGrammar funcName name.instrument name.channel name.verb) : NothingAround funcName := by
  intro spec verb hdot
  obtain ⟨rfl, hnodot⟩ := splitFirst_cases hdot
  cases hcolon : splitFirst 58 spec with
  | none =>
      have hname := hgrammar ⟨spec, spec, none, verb⟩ (by rw [parseFuncName, hdot]; dsimp only; rw [hcolon])
      generalize hwhole : spec ++ 46 :: verb = funcName at hname
      cases hname with
      | plain hid hverb => exact ⟨hid.1, hverb⟩
  | some cut =>
      obtain ⟨id, text⟩ := cut
      obtain ⟨rfl, hnocolon⟩ := splitFirst_cases hcolon
      cases hstoi : stoi text with
      | none => exact Or.inl hstoi
      | some channel =>
          have hname := hgrammar ⟨id ++ 58 :: text, id, some channel, verb⟩
            (by rw [parseFuncName, hdot]; dsimp only; rw [hcolon]; dsimp only; rw [hstoi]; rfl)
          generalize hwhole : (id ++ 58 :: text) ++ 46 :: verb = funcName at hname
          cases hname with
          | @channel _ text' _ _ hid hnumber hverb =>
              obtain ⟨sign, digits, hnumeral, -⟩ := hnumber
              rw [List.append_assoc, List.cons_append] at hwhole
              have hsame := (List.cons.inj (List.append_cancel_left hwhole)).2
              obtain ⟨rfl, -⟩ := Lists.eq_of_separator_append hsame
                (fun h => hnodot (List.mem_append_right _ (List.mem_cons_of_mem _ h))) hnumeral.not_mem.1
              exact Or.inr ⟨hid.1, ⟨sign, digits, hnumeral⟩, hverb⟩

theorem addressed_eq_some_iff {funcName id verb : ByteString} {n : Option Int} :
    addressed funcName = some (id, n, verb) ↔ ∃ spec, parseFuncName funcName = some ⟨spec, id, n, verb⟩ := by
  rw [addressed, Option.map_eq_some_iff]
  constructor
  · rintro ⟨⟨spec, instrument, channel, verb'⟩, hparse, heq⟩
    obtain ⟨rfl, hrest⟩ := Prod.mk.inj heq
    obtain ⟨rfl, rfl⟩ := Prod.mk.inj hrest
    exact ⟨spec, hparse⟩
  · rintro ⟨spec, hparse⟩
    exact ⟨_, hparse, rfl⟩

/-- A name is treated as the grammar says exactly when the parser refuses it or nothing is empty and nothing stands around the number. -/
theorem parsedByGrammar_iff (funcName : ByteString) : ParsedByGrammar funcName ↔ NothingAround funcName := by
  constructor
  · intro h
    apply nothingAround_of_callGrammar
    rintro ⟨spec, id, n, verb⟩ hparse
    exact (h.addressed id n verb).mp (addressed_eq_some_iff.mpr ⟨spec, hparse⟩)
  · intro hbare
    have haddressed : ∀ id n verb, addressed funcName = some (id, n, verb) ↔ CallGrammar funcName id n verb := by
      intro id n verb
      rw [addressed_eq_some_iff]
      constructor
      · rintro ⟨spec, hparse⟩
        exact callGrammar_of_parseFuncName hbare hparse
      · exact parseFuncName_of_callGrammar
    refine ⟨haddressed, fun id n verb hgrammar expects args => ?_, fun hnone expects args => ?_⟩
    · obtain ⟨spec, hparse⟩ := parseFuncName_of_callGrammar hgrammar
      refine ⟨_, by rw [ScriptCall.command?, hparse]; rfl, rfl, rfl, ?_⟩
      rintro channel hchannel
      obtain rfl := Option.mem_def.mp hchannel
      exact SortedAssoc.find?_insert_self _ _ _
    · have hparse : parseFuncName funcName = none := by
        rw [Option.eq_none_iff_forall_ne_some]
        rintro ⟨spec, id, n, verb⟩ hparse
        exact hnone id n verb ((haddressed id n verb).mp (addressed_eq_some_iff.mpr ⟨spec, hparse⟩))
      refine ⟨?_, fun Future outcome ctx allInstruments => ?_, fun Future registry outcome s => ?_⟩
      · rw [ScriptCall.command?, hparse]
        rfl
      · rw [RuntimeContext.runOp, hparse]
      · rw [SyncScript.runOp, hparse]

/-- What stands behind the number is ignored, and channel 1 is addressed. -/
theorem not_parsedByGrammar_trailing :
    addressed (bytes "DAC1:1x.Set") = some (bytes "DAC1", some 1, bytes "Set") ∧
      ¬ ParsedByGrammar (bytes "DAC1:1x.Set") := by
  have haddressed : addressed (bytes "DAC1:1x.Set") = some (bytes "DAC1", some 1, bytes "Set") := by decide +kernel
  refine ⟨haddressed, fun h => ?_⟩
  have hgrammar := (h.addressed _ _ _).mp haddressed
  generalize hname : bytes "DAC1:1x.Set" = funcName at hgrammar
  cases hgrammar with
  | @channel _ text _ _ hid hnumber hverb =>
      obtain ⟨sign, digits, hnumeral, -⟩ := hnumber
      have hsplit : bytes "DAC1" ++ 58 :: (bytes "1x" ++ 46 :: bytes "Set") =
          bytes "DAC1" ++ 58 :: (text ++ 46 :: bytes "Set") := by
        rw [← hname]
        decide +kernel
      have hsame := (List.cons.inj (List.append_cancel_left hsplit)).2
      have htext : bytes "1x" = text := List.append_cancel_right hsame
      obtain ⟨htext', hsign, -, hdigit⟩ := hnumeral
      have hx : (120 : UInt8) ∈ sign ++ digits := by
        rw [← htext', ← htext]
        decide +kernel
      rcases List.mem_append.mp hx with hmem | hmem
      · rcases hsign with rfl | rfl | rfl <;> revert hmem <;> decide
      · exact absurd (hdigit 120 hmem) (by decide)

end InstrumentServer
