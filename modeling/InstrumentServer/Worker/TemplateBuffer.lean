import InstrumentServer.Worker.VisaPlugin

/-!
# The memory of `substitute_template`

`substitute_template` writes into an array that it is given, and copies every value through `value_str`, an array of its own that is not initialised. Here the output is memory of a fixed size, to write outside it has no result, and what `value_str` holds behind the bytes that were written is a parameter for each lookup.

The loop goes along the pieces of the template and stays within the output; what it leaves there is `fill` (`scan_fills`, `substituteInto_fills`). A string of 127 bytes is copied into `value_str` without a NUL, and only such a string makes the text depend on what was in memory: `substitutes_iff`. Without one, the memory holds what `substituteTemplate` computes.
-/

namespace InstrumentServer

open ByteString Placeholders VisaPlugin

/-! ### Memory -/

/-- The C string at the beginning of memory. -/
def cString (memory : ByteString) : ByteString := memory.takeWhile (· ≠ 0)

/-- Writing a text from a place on, which must have room for it. -/
def writeAt (memory : ByteString) (i : Nat) (text : ByteString) : Option ByteString :=
  if i + text.length ≤ memory.length then some (memory.take i ++ text ++ memory.drop (i + text.length)) else none

/-- What `strlen` and `strcpy` read in `value_str`. `strncpy` writes 127 bytes, NULs behind a shorter text; `beyond` is what is in memory behind them. -/
def valueStr (beyond : ByteString) : PluginParamValue → ByteString
  | .string value =>
      cString (value.text ++ List.replicate (pluginMaxStringLen - 1 - value.text.length) 0 ++ beyond)
  | value => valueText value

/-- `dst`, `remaining`, the memory of the output, and the names that were looked up, which nothing reads. -/
structure TemplateCursor where
  dst : Nat
  remaining : Nat
  output : ByteString
  names : List ByteString

namespace TemplateCursor

/-- Copying a text to `dst`, with a NUL behind it or not, and moving on behind the text. -/
def copy (c : TemplateCursor) (text nul : ByteString) : Option TemplateCursor :=
  (writeAt c.output c.dst (text ++ nul)).map fun output =>
    { c with dst := c.dst + text.length, remaining := c.remaining - text.length, output }

def copyIfFits (c : TemplateCursor) (text nul : ByteString) : Option TemplateCursor :=
  if text.length ≤ c.remaining then c.copy text nul else some c

/-- The branch for a placeholder. Only `strcpy` writes a NUL behind the text. -/
def replace (params : List PluginParam) (uninit : Nat → ByteString) (name : ByteString) (c : TemplateCursor) :
    Option TemplateCursor :=
  let beyond := uninit c.names.length
  let c := { c with names := c.names ++ [name] }
  match params.find? fun param => param.name.text = name with
  | some param => c.copyIfFits (valueStr beyond param.value) [0]
  | none => c.copyIfFits (bytes "\x7b" ++ name ++ bytes "\x7d") []

end TemplateCursor

/-- `strchr(src, '}')`: what stands before and behind the first closing brace. -/
def findClosing (src : ByteString) : Option (ByteString × ByteString) :=
  if 125 ∈ src then some (src.takeWhile (· ≠ 125), (src.dropWhile (· ≠ 125)).tail) else none

theorem findClosing_eq_some {name rest : ByteString} (hname : 125 ∉ name) :
    findClosing (name ++ 125 :: rest) = some (name, rest) := by
  rw [findClosing, if_pos (by simp), Lists.takeWhile_ne_append hname, Lists.dropWhile_ne_append hname]
  simp

theorem length_of_findClosing {src name rest : ByteString} (hclosing : findClosing src = some (name, rest)) :
    rest.length < src.length := by
  rw [findClosing] at hclosing
  split at hclosing
  · rename_i hmem
    obtain ⟨name', rest', rfl, hname⟩ := List.eq_append_cons_of_mem hmem
    have hfound := @findClosing_eq_some name' rest' hname
    rw [findClosing, if_pos hmem, hclosing] at hfound
    obtain ⟨rfl, rfl⟩ := Prod.mk.inj (Option.some.inj hfound)
    rw [List.length_append, List.length_cons]
    omega
  · contradiction

/-- The loop. An opening brace begins a placeholder if a closing one follows. -/
def scan (params : List PluginParam) (uninit : Nat → ByteString) : ByteString → TemplateCursor → Option TemplateCursor
  | [], c => some c
  | b :: src, c =>
      if c.remaining = 0 then some c
      else
        match _ : if b = 123 then findClosing src else none with
        | some (name, rest) => (c.replace params uninit name).bind fun c => scan params uninit rest c
        | none => (c.copy [b] []).bind fun c => scan params uninit src c
  termination_by src => src.length
  decreasing_by
    · rename_i hclosing
      split at hclosing
      · exact Nat.lt_succ_of_lt (length_of_findClosing hclosing)
      · contradiction
    · exact Nat.lt_succ_self _

/-- `substitute_template` on an output that is not empty: its memory afterwards, and the names that were looked up. -/
def substituteInto (template : ByteString) (params : List PluginParam) (uninit : Nat → ByteString) (output : ByteString) :
    Option (ByteString × List ByteString) := do
  let c ← scan params uninit template ⟨0, output.length - 1, output, []⟩
  let output ← writeAt c.output c.dst [0]
  return (output, c.names)

/-! ### The loop along the pieces of the template -/

section

variable {params : List PluginParam} {uninit : Nat → ByteString} {c : TemplateCursor}

@[simp] theorem scan_nil : scan params uninit [] c = some c := by
  rw [scan]

theorem scan_full {src : ByteString} (hfull : c.remaining = 0) : scan params uninit src c = some c := by
  cases src with
  | nil => exact scan_nil
  | cons b src => rw [scan, if_pos hfull]

theorem scan_literal {b : UInt8} {src : ByteString} (hliteral : b = 123 → 125 ∉ src) (hroom : c.remaining ≠ 0) :
    scan params uninit (b :: src) c = (c.copy [b] []).bind (scan params uninit src) := by
  have hclosing : (if b = 123 then findClosing src else none) = none := by
    split
    · rename_i hopen
      exact if_neg (hliteral hopen)
    · rfl
  rw [scan, if_neg hroom]
  split
  · rename_i hsome
    rw [hclosing] at hsome
    contradiction
  · rfl

theorem scan_placeholder {name rest : ByteString} (hname : 125 ∉ name) (hroom : c.remaining ≠ 0) :
    scan params uninit (123 :: (name ++ 125 :: rest)) c = (c.replace params uninit name).bind (scan params uninit rest) := by
  have hclosing : (if (123 : UInt8) = 123 then findClosing (name ++ 125 :: rest) else none) = some (name, rest) :=
    (if_pos rfl).trans (findClosing_eq_some hname)
  rw [scan, if_neg hroom]
  split
  · rename_i hsome
    rw [hclosing] at hsome
    obtain ⟨rfl, rfl⟩ := Prod.mk.inj (Option.some.inj hsome)
    rfl
  · rename_i hnone
    rw [hclosing] at hnone
    contradiction

end

/-! ### What a walk leaves -/

/-- A text that does not fit is skipped. -/
def fitting (text : ByteString) (remaining : Nat) : ByteString := if text.length ≤ remaining then text else []

/-- The text of the pieces in an output with room for `remaining` bytes, when `text k` gives the texts of the placeholder that is looked up after `k` others. -/
def fill (text : Nat → ByteString → ByteString) : Nat → List (Segment UInt8) → Nat → ByteString
  | _, [], _ => []
  | k, .literal b :: segs, remaining => if remaining = 0 then [] else b :: fill text k segs (remaining - 1)
  | k, .placeholder name :: segs, remaining =>
      if remaining = 0 then []
      else
        fitting (text k name) remaining ++
          fill text (k + 1) segs (remaining - (fitting (text k name) remaining).length)

/-- What is copied for a placeholder. -/
def replacement (params : List PluginParam) (beyond name : ByteString) : ByteString :=
  match params.find? fun param => param.name.text = name with
  | some param => valueStr beyond param.value
  | none => bytes "\x7b" ++ name ++ bytes "\x7d"

/-- The output begins with the text that was written, and has room for what remains and a NUL. -/
structure TemplateCursor.Holds (c : TemplateCursor) (size : Nat) (written : ByteString) : Prop where
  length : c.output.length = size
  room : c.dst + c.remaining + 1 = size
  front : c.output.take c.dst = written

namespace TemplateCursor.Holds

variable {c : TemplateCursor} {size : Nat} {written : ByteString}

theorem dst_eq (h : c.Holds size written) : c.dst = written.length := by
  have hlength := h.length
  have hroom := h.room
  rw [← h.front, List.length_take]
  omega

/-- A text that fits is copied within the output, also with a NUL behind it. -/
theorem copy (h : c.Holds size written) {text nul : ByteString} (hfits : text.length ≤ c.remaining)
    (hnul : nul.length ≤ 1) :
    ∃ c', c.copy text nul = some c' ∧ c'.Holds size (written ++ text) ∧ c'.remaining = c.remaining - text.length ∧
      c'.names = c.names := by
  have hlength := h.length
  have hroom := h.room
  have hinside : c.dst + (text ++ nul).length ≤ c.output.length := by
    rw [List.length_append]
    omega
  rw [TemplateCursor.copy, writeAt, if_pos hinside]
  refine ⟨_, rfl, ⟨?_, ?_, ?_⟩, rfl, rfl⟩
  · simp only [List.length_append, List.length_take, List.length_drop] at hinside ⊢
    omega
  · dsimp only
    omega
  · have hfront : c.dst + text.length = (written ++ text).length := by
      rw [List.length_append, h.dst_eq]
    dsimp only
    rw [h.front, hfront, List.append_assoc, List.append_assoc, ← List.append_assoc written, List.take_left]

theorem copyIfFits (h : c.Holds size written) (text : ByteString) {nul : ByteString} (hnul : nul.length ≤ 1) :
    ∃ c', c.copyIfFits text nul = some c' ∧ c'.Holds size (written ++ fitting text c.remaining) ∧
      c'.remaining = c.remaining - (fitting text c.remaining).length ∧ c'.names = c.names := by
  by_cases hfits : text.length ≤ c.remaining
  · rw [TemplateCursor.copyIfFits, fitting, if_pos hfits, if_pos hfits]
    exact h.copy hfits hnul
  · rw [TemplateCursor.copyIfFits, fitting, if_neg hfits, if_neg hfits]
    exact ⟨c, rfl, by rwa [List.append_nil], rfl, rfl⟩

theorem replace (h : c.Holds size written) (params : List PluginParam) (uninit : Nat → ByteString) (name : ByteString) :
    ∃ c', c.replace params uninit name = some c' ∧
      c'.Holds size (written ++ fitting (replacement params (uninit c.names.length) name) c.remaining) ∧
      c'.remaining = c.remaining - (fitting (replacement params (uninit c.names.length) name) c.remaining).length ∧
      c'.names = c.names ++ [name] := by
  have hlooked : ({ c with names := c.names ++ [name] } : TemplateCursor).Holds size written := ⟨h.length, h.room, h.front⟩
  rw [TemplateCursor.replace, replacement]
  split
  · exact hlooked.copyIfFits _ (by simp)
  · exact hlooked.copyIfFits _ (by simp)

end TemplateCursor.Holds

/-- The loop stays within the output and leaves the text of the pieces in it. As long as there is room, every placeholder is looked up. -/
theorem scan_fills (params : List PluginParam) (uninit : Nat → ByteString) (src : ByteString) {c : TemplateCursor}
    {size : Nat} {written : ByteString} (h : c.Holds size written) :
    ∃ c', scan params uninit src c = some c' ∧
      c'.Holds size
        (written ++ fill (fun k => replacement params (uninit k)) c.names.length (segments 123 125 src) c.remaining) ∧
      (c'.remaining ≠ 0 → c'.names = c.names ++ names (segments 123 125 src)) := by
  induction src using placeholderInduction (123 : UInt8) 125 generalizing c written with
  | hnil =>
      rw [scan_nil, segments_nil, fill, List.append_nil]
      exact ⟨c, rfl, h, fun _ => (List.append_nil _).symm⟩
  | hliteral b src hliteral ih =>
      rw [segments_literal hliteral, fill, names_literal]
      by_cases hfull : c.remaining = 0
      · rw [scan_full hfull, if_pos hfull, List.append_nil]
        exact ⟨c, rfl, h, fun hroom => absurd hfull hroom⟩
      · obtain ⟨c', hcopy, hholds, hremaining, hnames⟩ :=
          @TemplateCursor.Holds.copy _ _ _ h [b] [] (Nat.one_le_iff_ne_zero.mpr hfull) (Nat.zero_le 1)
        obtain ⟨last, hscan, hlast, hlooked⟩ := ih hholds
        rw [scan_literal hliteral hfull, hcopy, Option.bind_some, if_neg hfull]
        rw [hremaining, hnames, List.append_assoc] at hlast
        exact ⟨last, hscan, hlast, hnames ▸ hlooked⟩
  | hplaceholder name rest hname ih =>
      rw [segments_placeholder hname, fill, names_placeholder]
      by_cases hfull : c.remaining = 0
      · rw [scan_full hfull, if_pos hfull, List.append_nil]
        exact ⟨c, rfl, h, fun hroom => absurd hfull hroom⟩
      · obtain ⟨c', hreplace, hholds, hremaining, hnames⟩ := h.replace params uninit name
        obtain ⟨last, hscan, hlast, hlooked⟩ := ih hholds
        rw [scan_placeholder hname hfull, hreplace, Option.bind_some, if_neg hfull]
        rw [hremaining, hnames, List.length_append, List.length_singleton, List.append_assoc] at hlast
        rw [hnames, List.append_assoc] at hlooked
        exact ⟨last, hscan, hlast, hlooked⟩

/-! ### Texts -/

section

variable {text text' : Nat → ByteString → ByteString} {segs : List (Segment UInt8)}

theorem fill_congr (htext : ∀ k, ∀ name ∈ names segs, text k name = text' k name) (k remaining : Nat) :
    fill text k segs remaining = fill text' k segs remaining := by
  induction segs generalizing k remaining with
  | nil => rfl
  | cons seg segs ih =>
      cases seg with
      | literal b => rw [fill, fill, ih htext]
      | placeholder name =>
          rw [names_placeholder] at htext
          rw [fill, fill, htext k name List.mem_cons_self, ih fun k name hname => htext k name (List.mem_cons_of_mem _ hname)]

/-- A text that fits is complete. -/
theorem fill_of_fits {text : ByteString → ByteString} {remaining : Nat}
    (hfits : (segs.flatMap (Segment.text text)).length ≤ remaining) (k : Nat) :
    fill (fun _ => text) k segs remaining = segs.flatMap (Segment.text text) := by
  induction segs generalizing k remaining with
  | nil => rfl
  | cons seg segs ih =>
      rw [List.flatMap_cons] at hfits ⊢
      by_cases hfull : remaining = 0
      · rw [hfull, Nat.le_zero, List.length_eq_zero_iff] at hfits
        rw [hfits]
        cases seg <;> rw [fill, if_pos hfull]
      · rw [List.length_append] at hfits
        cases seg with
        | literal b =>
            rw [Segment.text, List.length_singleton] at hfits
            rw [fill, if_neg hfull, ih (by omega)]
            rfl
        | placeholder name =>
            rw [Segment.text] at hfits
            rw [fill, if_neg hfull, fitting, if_pos (by omega), ih (by omega)]
            rfl

theorem zero_notMem_fill (hliteral : .literal 0 ∉ segs) (htext : ∀ k, ∀ name ∈ names segs, 0 ∉ text k name)
    (k remaining : Nat) : 0 ∉ fill text k segs remaining := by
  induction segs generalizing k remaining with
  | nil => exact List.not_mem_nil
  | cons seg segs ih =>
      rw [List.mem_cons, not_or] at hliteral
      cases seg with
      | literal b =>
          have hb : (0 : UInt8) ≠ b := fun heq => hliteral.1 (congrArg _ heq)
          rw [fill]
          split
          · exact List.not_mem_nil
          · exact List.not_mem_cons_of_ne_of_not_mem hb (ih hliteral.2 htext _ _)
      | placeholder name =>
          rw [names_placeholder] at htext
          rw [fill]
          split
          · exact List.not_mem_nil
          · rw [List.mem_append, not_or]
            refine ⟨fun hzero => ?_, ih hliteral.2 (fun k name hname => htext k name (List.mem_cons_of_mem _ hname)) _ _⟩
            rw [fitting] at hzero
            split at hzero
            · exact htext k name List.mem_cons_self hzero
            · exact List.not_mem_nil hzero

end

theorem substituteLoop_some (params : List PluginParam) (name : ByteString) {more rest : ByteString} (hmore : 125 ∉ more)
    (remaining : Nat) :
    substituteLoop params (some name) (more ++ 125 :: rest) remaining =
      fitting (placeholderText params (name ++ more)) remaining ++
        substituteLoop params none rest (remaining - (fitting (placeholderText params (name ++ more)) remaining).length) := by
  induction more generalizing name with
  | nil =>
      rw [List.nil_append, List.append_nil, substituteLoop, if_pos rfl, fitting]
      by_cases hfits : (placeholderText params name).length ≤ remaining
      · simp only [if_pos hfits]
      · simp only [if_neg hfits, List.nil_append, List.length_nil, Nat.sub_zero]
  | cons b more ih =>
      rw [List.mem_cons, not_or] at hmore
      rw [List.cons_append, substituteLoop, if_neg (Ne.symm hmore.1), ih _ hmore.2, List.append_assoc]
      rfl

/-- The loop on texts is the walk over the pieces with the values as they are. -/
theorem substituteLoop_eq_fill (params : List PluginParam) (src : ByteString) (k remaining : Nat) :
    substituteLoop params none src remaining = fill (fun _ => placeholderText params) k (segments 123 125 src) remaining := by
  induction src using placeholderInduction (123 : UInt8) 125 generalizing k remaining with
  | hnil => rfl
  | hliteral b src hliteral ih =>
      rw [segments_literal hliteral, substituteLoop, fill]
      split
      · rfl
      · rw [if_neg fun hopen => hliteral hopen.1 hopen.2, ih]
  | hplaceholder name rest hname ih =>
      rw [segments_placeholder hname, substituteLoop, fill]
      split
      · rfl
      · rw [if_pos ⟨rfl, by simp⟩, substituteLoop_some params [] hname, List.nil_append, ih]

theorem zero_notMem_cString (memory : ByteString) : 0 ∉ cString memory := by
  intro hmem
  have hne := List.mem_takeWhile_imp hmem
  simp at hne

theorem cString_append_zero {text : ByteString} (htext : 0 ∉ text) (back : ByteString) : cString (text ++ 0 :: back) = text := by
  rw [cString, Lists.takeWhile_ne_append htext, List.takeWhile_cons_of_neg (by simp), List.append_nil]

theorem zero_notMem_decimal (n : Nat) : 0 ∉ decimal n := fun hmem =>
  absurd (isDigit_of_mem_decimal hmem) (by decide)

theorem zero_notMem_decimalInt (n : Int) : 0 ∉ decimalInt n := by
  rw [decimalInt]
  split
  · rw [List.mem_append, not_or]
    exact ⟨by decide, zero_notMem_decimal _⟩
  · exact zero_notMem_decimal _

theorem zero_notMem_floatText (width top : Nat) (negative : Bool) (exponent fraction : Nat) :
    0 ∉ floatText width top negative exponent fraction := by
  have hsign : 0 ∉ if negative then bytes "-" else [] := by cases negative <;> decide
  have hdot : 0 ∉ bytes "." := by decide
  have hzeros : ∀ n, (0 : UInt8) ∉ List.replicate n 48 := fun n hmem => absurd (List.eq_of_mem_replicate hmem) (by decide)
  rw [floatText]
  split
  · rw [List.mem_append, not_or]
    refine ⟨hsign, ?_⟩
    split <;> decide
  · simp only [binaryText, fixedText, List.mem_append, not_or]
    exact ⟨⟨⟨⟨hsign, zero_notMem_decimal _⟩, hdot⟩, hzeros _⟩, zero_notMem_decimal _⟩

theorem zero_notMem_valueText (value : PluginParamValue) : 0 ∉ valueText value := by
  cases value with
  | int32 value | int64 value => exact zero_notMem_decimalInt _
  | uint32 value | uint64 value => exact zero_notMem_decimal _
  | float value | double value => exact fun hmem => zero_notMem_floatText _ _ _ _ _ (List.mem_of_mem_take hmem)
  | bool value => cases value <;> decide
  | string value => exact value.noNul
  | none | binary _ | arrayDouble _ | arrayInt32 _ => exact List.not_mem_nil

/-- Only a string of 127 bytes is read beyond what was written. -/
theorem valueStr_eq_valueText {beyond : ByteString} {value : PluginParamValue}
    (hshort : ∀ s, value = .string s → s.text.length ≠ pluginMaxStringLen - 1) : valueStr beyond value = valueText value := by
  cases value with
  | string s =>
      have hlength := s.terminated
      obtain ⟨n, hn⟩ : ∃ n, pluginMaxStringLen - 1 - s.text.length = n + 1 :=
        Nat.exists_eq_add_one_of_ne_zero (by have := hshort s rfl; omega)
      rw [valueStr, hn, List.replicate_succ, List.append_assoc, List.cons_append, cString_append_zero s.noNul]
      rfl
  | _ => rfl

theorem valueStr_full {beyond : ByteString} {s : CharArray pluginMaxStringLen}
    (hfull : s.text.length = pluginMaxStringLen - 1) : valueStr beyond (.string s) = s.text ++ cString beyond := by
  rw [valueStr, hfull, Nat.sub_self, List.replicate_zero, List.append_nil, cString, Lists.takeWhile_ne_append s.noNul]
  rfl

theorem zero_notMem_valueStr (beyond : ByteString) (value : PluginParamValue) : 0 ∉ valueStr beyond value := by
  by_cases hstring : ∃ s, value = .string s
  · obtain ⟨s, rfl⟩ := hstring
    exact zero_notMem_cString _
  · rw [valueStr_eq_valueText fun s heq => absurd ⟨s, heq⟩ hstring]
    exact zero_notMem_valueText value

theorem zero_notMem_replacement (params : List PluginParam) (beyond : ByteString) {name : ByteString} (hname : 0 ∉ name) :
    0 ∉ replacement params beyond name := by
  rw [replacement]
  split
  · exact zero_notMem_valueStr _ _
  · simp only [List.mem_append, not_or]
    exact ⟨⟨by decide, hname⟩, by decide⟩

/-- What the call leaves in an output that is not empty: the text of the pieces and a NUL. As long as there is room, every placeholder is looked up. -/
theorem substituteInto_fills {template : ByteString} (htemplate : 0 ∉ template) (params : List PluginParam)
    (uninit : Nat → ByteString) {output : ByteString} (houtput : output ≠ []) :
    ∃ result, substituteInto template params uninit output = some result ∧
      cString result.1 =
        fill (fun k => replacement params (uninit k)) 0 (segments 123 125 template) (output.length - 1) ∧
      ((cString result.1).length + 1 < output.length → result.2 = names (segments 123 125 template)) := by
  have hpos := List.length_pos_iff.mpr houtput
  have hstart : (⟨0, output.length - 1, output, []⟩ : TemplateCursor).Holds output.length [] :=
    ⟨rfl, by dsimp only; omega, rfl⟩
  obtain ⟨c, hscan, hholds, hlooked⟩ := scan_fills params uninit template hstart
  simp only [List.nil_append, List.length_nil] at hholds hlooked
  have hinside : c.dst + [(0 : UInt8)].length ≤ c.output.length := by
    have hlength := hholds.length
    have hroom := hholds.room
    rw [List.length_singleton]
    omega
  have hnul : 0 ∉ fill (fun k => replacement params (uninit k)) 0 (segments 123 125 template) (output.length - 1) :=
    zero_notMem_fill (fun hmem => htemplate (mem_of_mem_segments (Or.inl hmem)))
      (fun k name hname => zero_notMem_replacement params _ fun hzero =>
        htemplate (mem_of_mem_segments (Or.inr ⟨name, mem_names.mp hname, hzero⟩))) _ _
  have hresult : substituteInto template params uninit output =
      some (c.output.take c.dst ++ [0] ++ c.output.drop (c.dst + [(0 : UInt8)].length), c.names) := by
    have hwrite : writeAt c.output c.dst [0] = some _ := if_pos hinside
    rw [substituteInto, hscan, Option.bind_eq_bind, Option.bind_some, hwrite]
    rfl
  refine ⟨_, hresult, ?_, fun hroom => hlooked ?_⟩
  · rw [hholds.front, List.append_assoc]
    exact cString_append_zero hnul _
  · have hdst := hholds.dst_eq
    have hsize := hholds.room
    dsimp only at hroom
    rw [hholds.front, List.append_assoc, List.singleton_append, cString_append_zero hnul] at hroom
    omega

/-! ### When the text is right -/

/-- Every call stays within the output, leaves the substituted template in it if that fits, and its text depends on nothing that was in memory before. -/
structure SubstitutesCorrectly (template : ByteString) (params : List PluginParam) : Prop where
  substituted : ∀ (uninit : Nat → ByteString) (output : ByteString), output ≠ [] →
    ∃ result, substituteInto template params uninit output = some result ∧
      ((render (placeholderText params) template).length < output.length →
        cString result.1 = render (placeholderText params) template)
  determined : ∀ (uninit uninit' : Nat → ByteString) (output output' : ByteString), output ≠ [] →
    output'.length = output.length →
      (substituteInto template params uninit output).map (fun result => cString result.1) =
        (substituteInto template params uninit' output').map fun result => cString result.1

/-- The parameter that stands for the placeholder is a string that fills its array. -/
def IsFullString (params : List PluginParam) (name : ByteString) : Prop :=
  ∃ param s, (params.find? fun param => param.name.text = name) = some param ∧ param.value = .string s ∧
    s.text.length = pluginMaxStringLen - 1

section

variable {template : ByteString} {params : List PluginParam}

theorem replacement_eq_placeholderText {name : ByteString} (hshort : ¬ IsFullString params name) (beyond : ByteString) :
    replacement params beyond name = placeholderText params name := by
  rw [replacement, placeholderText]
  cases hparam : params.find? fun param => param.name.text = name with
  | none => rfl
  | some param => exact valueStr_eq_valueText fun s hvalue hfull => hshort ⟨param, s, hparam, hvalue, hfull⟩

theorem replacement_full {name : ByteString} (hfull : IsFullString params name) (beyond : ByteString) :
    replacement params beyond name = placeholderText params name ++ cString beyond := by
  obtain ⟨param, s, hparam, hvalue, hlength⟩ := hfull
  rw [replacement, placeholderText, hparam]
  simp only
  rw [hvalue, valueStr_full hlength]
  rfl

/-- Without full strings, a call leaves what the pieces stand for. -/
theorem substituteInto_of_short (htemplate : 0 ∉ template)
    (hshort : ∀ name ∈ placeholders template, ¬ IsFullString params name) (uninit : Nat → ByteString)
    {output : ByteString} (houtput : output ≠ []) :
    ∃ result, substituteInto template params uninit output = some result ∧
      cString result.1 = fill (fun _ => placeholderText params) 0 (segments 123 125 template) (output.length - 1) := by
  obtain ⟨result, hresult, htext, -⟩ := substituteInto_fills htemplate params uninit houtput
  refine ⟨result, hresult, htext.trans (fill_congr (fun k name hname => ?_) _ _)⟩
  exact replacement_eq_placeholderText (hshort name hname) _

/-- Then the text in memory is the one that `substituteTemplate` computes. -/
theorem substituteInto_eq_substituteTemplate (htemplate : 0 ∉ template)
    (hshort : ∀ name ∈ placeholders template, ¬ IsFullString params name) (uninit : Nat → ByteString)
    {output : ByteString} (houtput : output ≠ []) :
    (substituteInto template params uninit output).map (fun result => cString result.1) =
      some (substituteTemplate template params output.length) := by
  obtain ⟨result, hresult, htext⟩ := substituteInto_of_short htemplate hshort uninit houtput
  rw [hresult, Option.map_some, htext, substituteTemplate, substituteLoop_eq_fill params template 0]

theorem substitutesCorrectly_of_short (htemplate : 0 ∉ template)
    (hshort : ∀ name ∈ placeholders template, ¬ IsFullString params name) : SubstitutesCorrectly template params where
  substituted uninit output houtput := by
    obtain ⟨result, hresult, htext⟩ := substituteInto_of_short htemplate hshort uninit houtput
    refine ⟨result, hresult, fun hfits => ?_⟩
    rw [render] at hfits ⊢
    rw [htext, fill_of_fits (by omega)]
  determined uninit uninit' output output' houtput hlength := by
    have houtput' : output' ≠ [] := fun hnil => houtput (List.length_eq_zero_iff.mp (by rw [← hlength, hnil, List.length_nil]))
    rw [substituteInto_eq_substituteTemplate htemplate hshort uninit houtput,
      substituteInto_eq_substituteTemplate htemplate hshort uninit' houtput', hlength]

/-- When the memory behind `value_str` holds a byte, a full string is copied with this byte. -/
theorem not_isFullString_of_substitutesCorrectly (htemplate : 0 ∉ template) (hcorrect : SubstitutesCorrectly template params)
    {name : ByteString} (hname : name ∈ placeholders template) : ¬ IsFullString params name := by
  intro hfull
  let copied := (segments 123 125 template).flatMap (Segment.text (replacement params [65]))
  have hlonger : ∀ name, placeholderText params name = replacement params [65] name ∨
      replacement params [65] name = placeholderText params name ++ [65] := by
    intro name
    by_cases hname : IsFullString params name
    · exact Or.inr (replacement_full hname [65])
    · exact Or.inl (replacement_eq_placeholderText hname [65]).symm
  have hle : ∀ seg ∈ segments 123 125 template,
      (Segment.text (placeholderText params) seg).length ≤ (Segment.text (replacement params [65]) seg).length := by
    rintro (b | name) -
    · exact le_rfl
    · rw [Segment.text, Segment.text]
      rcases hlonger name with heq | heq
      · rw [heq]
      · rw [heq, List.length_append]
        exact Nat.le_add_right _ _
  have houtput : List.replicate (copied.length + 1) (0 : UInt8) ≠ [] := by simp
  obtain ⟨result, hresult, htext, -⟩ := substituteInto_fills htemplate params (fun _ => [65]) houtput
  obtain ⟨result', hresult', hrendered⟩ := hcorrect.substituted (fun _ => [65]) _ houtput
  obtain rfl := Option.some.inj (hresult.symm.trans hresult')
  rw [List.length_replicate, Nat.add_sub_cancel, fill_of_fits le_rfl] at htext
  rw [render, htext] at hrendered
  have hreference : ((segments 123 125 template).flatMap (Segment.text (placeholderText params))).length ≤ copied.length := by
    rw [List.length_flatMap, List.length_flatMap]
    exact List.sum_le_sum hle
  have hsame := (Lists.flatMap_eq_flatMap_iff hle).mp (hrendered (by rw [List.length_replicate]; omega))
  rw [placeholders] at hname
  have hpiece : replacement params [65] name = placeholderText params name := hsame _ (mem_names.mp hname)
  rw [replacement_full hfull] at hpiece
  exact absurd (List.append_right_eq_self.mp hpiece) (by decide)

end

/-- The substitution is right exactly if no placeholder of the template stands for a string of 127 bytes. -/
theorem substitutes_iff (template : CharArray pluginMaxStringLen) (cmd : PluginCommand) :
    SubstitutesCorrectly template.text cmd.params ↔
      ∀ name ∈ placeholders template.text, ¬ IsFullString cmd.params name :=
  ⟨fun hcorrect _ hname => not_isFullString_of_substitutesCorrectly template.noNul hcorrect hname,
    fun hshort => substitutesCorrectly_of_short template.noNul hshort⟩

/-- A command whose parameter fills its array. -/
def fillingCommand : SerializedCommand where
  instrumentName := bytes "DAC"
  verb := bytes "DATA \x7bwave\x7d"
  params := ParamMap.empty.insert (bytes "wave") (.string (List.replicate 127 49))

theorem not_substitutesCorrectly_fillingCommand :
    ¬ SubstitutesCorrectly (toPluginCommand fillingCommand).verb.text (toPluginCommand fillingCommand).params := by
  intro hcorrect
  have hname : bytes "wave" ∈ placeholders (toPluginCommand fillingCommand).verb.text := by decide +kernel
  refine not_isFullString_of_substitutesCorrectly (toPluginCommand fillingCommand).verb.noNul hcorrect hname ?_
  refine ⟨⟨.copy _ pluginMaxStringLen_pos (bytes "wave"), .string (.copy _ pluginMaxStringLen_pos (List.replicate 127 49))⟩,
    _, ?_, rfl, by decide +kernel⟩
  exact List.find?_cons_of_pos (by decide +kernel)

end InstrumentServer
