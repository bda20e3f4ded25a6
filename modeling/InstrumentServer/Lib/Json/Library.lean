import InstrumentServer.Lib.Json.Value

/-!
# What is assumed of a JSON library

`dump` writes a value without white space, `parse` reads a document. A library is any pair of functions with three documented properties: what `dump` writes for a value whose text is valid UTF-8 is read back up to `Json.reread`, `dump` throws on a value with invalid UTF-8 in it, and `parse` throws on a proper prefix of a dumped object. `Lib/Json/Text.lean` constructs one.
-/

structure JsonLibrary where
  dump : Json → Except JsonError ByteString
  parse : ByteString → Except JsonError Json
  parse_dump : ∀ j : Json, j.Ordered → j.ValidText → ∃ text, dump j = .ok text ∧ parse text = .ok j.reread
  dump_invalid : ∀ j : Json, j.Ordered → ¬ j.ValidText → dump j = .error .invalidUtf8
  parse_prefix : ∀ fields text cut, (Json.object fields).Ordered → dump (.object fields) = .ok text →
    cut < text.length → ∃ e, parse (text.take cut) = .error e

namespace JsonLibrary

variable (N : JsonLibrary)

/-- A value is dumped exactly when its text is valid. -/
theorem dump_ok_iff {j : Json} (hordered : j.Ordered) : (∃ text, N.dump j = .ok text) ↔ j.ValidText := by
  constructor
  · rintro ⟨text, htext⟩
    by_contra hinvalid
    rw [N.dump_invalid j hordered hinvalid] at htext
    simp at htext
  · intro hvalid
    obtain ⟨text, htext, -⟩ := N.parse_dump j hordered hvalid
    exact ⟨text, htext⟩

theorem parse_of_dump {j : Json} {text : ByteString} (hordered : j.Ordered) (htext : N.dump j = .ok text) :
    N.parse text = .ok j.reread := by
  obtain ⟨text', htext', hparse⟩ := N.parse_dump j hordered ((N.dump_ok_iff hordered).mp ⟨text, htext⟩)
  rw [htext] at htext'
  exact Except.ok.inj htext' ▸ hparse

/-- The text of an object cut to `size` bytes is read exactly when nothing was cut off. -/
theorem parse_take {fields : List (ByteString × Json)} {text : ByteString} (size : Nat)
    (hordered : (Json.object fields).Ordered) (htext : N.dump (.object fields) = .ok text) :
    (text.length ≤ size ∧ N.parse (text.take size) = .ok (Json.object fields).reread) ∨
      (size < text.length ∧ ∃ e, N.parse (text.take size) = .error e) := by
  by_cases hsize : text.length ≤ size
  · rw [List.take_of_length_le hsize]
    exact Or.inl ⟨hsize, N.parse_of_dump hordered htext⟩
  · exact Or.inr ⟨not_le.mp hsize, N.parse_prefix fields text size hordered htext (not_le.mp hsize)⟩

end JsonLibrary
