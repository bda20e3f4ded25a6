import Mathlib.Data.Finset.Basic
import Mathlib.Data.Finset.Lattice.Basic

/-!
# Barriers, as seen from their history

A barrier over a token is registered for a set of members and completes when the last of them has acknowledged. Everything here is read off the history of calls alone: which registration of a token is the latest, what happened since, who has acknowledged since, and whether the barrier is still live. Nothing says how an implementation stores it.

A later registration of the same token starts over, a barrier registered for nobody has no last member and lives until it is cleared, and acknowledgements of other tokens or by strangers do not count.
-/

namespace Barrier

variable {Token Member : Type}

inductive Call (Token Member : Type) where
  | register (token : Token) (expected : Finset Member)
  | ack (token : Token) (member : Member)
  | clear (token : Token)

/-- The token a call is about. -/
def Call.token : Call Token Member → Token
  | .register token _ | .ack token _ | .clear token => token

/-- `expected` is the set given at the latest registration of `token`, and `since` are the calls after it. -/
def Registered (history : List (Call Token Member)) (token : Token) (expected : Finset Member)
    (since : List (Call Token Member)) : Prop :=
  (∃ earlier, history = earlier ++ .register token expected :: since) ∧
    ∀ other, .register token other ∉ since

/-- Every member has acknowledged since the registration, and there is a last one to have done so. -/
def Completed (token : Token) (expected : Finset Member) (since : List (Call Token Member)) : Prop :=
  expected.Nonempty ∧ ∀ member ∈ expected, .ack token member ∈ since

/-- A barrier for `token` is live: registered, not cleared and not completed since. -/
structure Live (history : List (Call Token Member)) (token : Token) (expected : Finset Member)
    (since : List (Call Token Member)) : Prop where
  registered : Registered history token expected since
  notCleared : .clear token ∉ since
  notCompleted : ¬ Completed token expected since

/-- `member` is the last of the expected ones to acknowledge. -/
structure LastToAck (token : Token) (expected : Finset Member) (since : List (Call Token Member))
    (member : Member) : Prop where
  isExpected : member ∈ expected
  notYet : .ack token member ∉ since
  others : ∀ other ∈ expected, other ≠ member → .ack token other ∈ since

/-! ### One more call -/

theorem registered_register (history : List (Call Token Member)) (token : Token) (expected : Finset Member) :
    Registered (history ++ [.register token expected]) token expected [] :=
  ⟨⟨history, rfl⟩, fun _ => List.not_mem_nil⟩

theorem Registered.snoc {history since : List (Call Token Member)} {token : Token} {expected : Finset Member}
    (h : Registered history token expected since) {call : Call Token Member}
    (hcall : ∀ other, call ≠ .register token other) :
    Registered (history ++ [call]) token expected (since ++ [call]) := by
  obtain ⟨⟨earlier, rfl⟩, hsince⟩ := h
  refine ⟨⟨earlier, by simp⟩, fun other hmem => ?_⟩
  rcases List.mem_append.mp hmem with hmem | hmem
  · exact hsince other hmem
  · exact hcall other (List.mem_singleton.mp hmem).symm

/-- The latest registration after one more call is that call, or it was the latest one before. -/
theorem Registered.of_snoc {history since : List (Call Token Member)} {token : Token}
    {expected : Finset Member} {call : Call Token Member}
    (h : Registered (history ++ [call]) token expected since) :
    (call = .register token expected ∧ since = []) ∨
      ((∀ other, call ≠ .register token other) ∧
        ∃ before, since = before ++ [call] ∧ Registered history token expected before) := by
  obtain ⟨⟨earlier, heq⟩, hsince⟩ := h
  rcases List.eq_nil_or_concat since with rfl | ⟨before, last, rfl⟩
  · obtain ⟨_, hlast⟩ := List.append_inj' heq rfl
    exact Or.inl ⟨by simpa using hlast, rfl⟩
  · simp only [List.concat_eq_append] at heq hsince ⊢
    have hassoc : earlier ++ .register token expected :: (before ++ [last]) =
        (earlier ++ .register token expected :: before) ++ [last] := by simp
    rw [hassoc] at heq
    obtain ⟨hhistory, hlast⟩ := List.append_inj' heq rfl
    obtain rfl : call = last := by simpa using hlast
    refine Or.inr ⟨fun other he => hsince other (by simp [he]), before, rfl, ⟨earlier, hhistory⟩, ?_⟩
    exact fun other hmem => hsince other (List.mem_append_left _ hmem)

theorem Registered.unique {history : List (Call Token Member)} {token : Token}
    {left right : Finset Member} {sinceLeft sinceRight : List (Call Token Member)}
    (hleft : Registered history token left sinceLeft) (hright : Registered history token right sinceRight) :
    left = right ∧ sinceLeft = sinceRight := by
  induction history using List.reverseRecOn generalizing sinceLeft sinceRight with
  | nil =>
      obtain ⟨⟨earlier, heq⟩, _⟩ := hleft
      simp at heq
  | append_singleton history call ih =>
      rcases hleft.of_snoc with ⟨hcall, rfl⟩ | ⟨hnot, before, rfl, hbefore⟩ <;>
        rcases hright.of_snoc with ⟨hcall', rfl⟩ | ⟨hnot', before', rfl, hbefore'⟩
      · have he := hcall.symm.trans hcall'
        injection he with _ he
        exact ⟨he, rfl⟩
      · exact absurd hcall (hnot' _)
      · exact absurd hcall' (hnot _)
      · obtain ⟨he, hs⟩ := ih hbefore hbefore'
        exact ⟨he, by rw [hs]⟩

/-- The last acknowledgement completes a live barrier, and no other call does. -/
theorem completed_snoc_ack {token : Token} {expected : Finset Member} {since : List (Call Token Member)}
    {member : Member} (hopen : ¬ Completed token expected since) :
    Completed token expected (since ++ [.ack token member]) ↔ LastToAck token expected since member := by
  constructor
  · rintro ⟨hne, hall⟩
    have hothers : ∀ other ∈ expected, other ≠ member → .ack token other ∈ since := by
      intro other hother hdiff
      rcases List.mem_append.mp (hall other hother) with hmem | hmem
      · exact hmem
      · simp only [List.mem_singleton, Call.ack.injEq, true_and] at hmem
        exact absurd hmem hdiff
    have hmissing : .ack token member ∉ since := by
      intro hmem
      refine hopen ⟨hne, fun other hother => ?_⟩
      by_cases hdiff : other = member
      · exact hdiff ▸ hmem
      · exact hothers other hother hdiff
    refine ⟨?_, hmissing, hothers⟩
    by_contra hstranger
    exact hopen ⟨hne, fun other hother => hothers other hother fun he => hstranger (he ▸ hother)⟩
  · intro hlast
    refine ⟨⟨member, hlast.isExpected⟩, fun other hother => ?_⟩
    by_cases hdiff : other = member
    · exact List.mem_append_right _ (by simp [hdiff])
    · exact List.mem_append_left _ (hlast.others other hother hdiff)

theorem completed_snoc_of_ne {token : Token} {expected : Finset Member} {since : List (Call Token Member)}
    {call : Call Token Member} (hcall : ∀ member, call ≠ .ack token member) :
    Completed token expected (since ++ [call]) ↔ Completed token expected since := by
  have hack : ∀ member, Call.ack token member ∈ since ++ [call] ↔ .ack token member ∈ since := by
    intro member
    simp only [List.mem_append, List.mem_singleton, or_iff_left_iff_imp]
    exact fun he => absurd he.symm (hcall member)
  simp only [Completed, hack]

/-! ### Liveness after one more call -/

theorem live_snoc_register {history since : List (Call Token Member)} {token : Token}
    {given expected : Finset Member} :
    Live (history ++ [.register token given]) token expected since ↔ expected = given ∧ since = [] := by
  constructor
  · intro h
    exact h.registered.unique (registered_register history token given)
  · rintro ⟨rfl, rfl⟩
    refine ⟨registered_register history token expected, List.not_mem_nil, fun hdone => ?_⟩
    obtain ⟨member, hmember⟩ := hdone.1
    exact List.not_mem_nil (hdone.2 member hmember)

theorem not_live_snoc_clear {history since : List (Call Token Member)} {token : Token}
    {expected : Finset Member} : ¬ Live (history ++ [.clear token]) token expected since := by
  intro h
  rcases h.registered.of_snoc with ⟨hcall, _⟩ | ⟨_, before, rfl, _⟩
  · simp at hcall
  · exact h.notCleared (by simp)

theorem live_snoc_ack {history since : List (Call Token Member)} {token : Token} {expected : Finset Member}
    {member : Member} :
    Live (history ++ [.ack token member]) token expected since ↔
      ∃ before, since = before ++ [.ack token member] ∧ Live history token expected before ∧
        ¬ LastToAck token expected before member := by
  constructor
  · intro h
    rcases h.registered.of_snoc with ⟨hcall, _⟩ | ⟨_, before, rfl, hbefore⟩
    · simp at hcall
    · have hopen : ¬ Completed token expected before := fun hdone =>
        h.notCompleted ⟨hdone.1, fun other hother => List.mem_append_left _ (hdone.2 other hother)⟩
      refine ⟨before, rfl, ⟨hbefore, fun hmem => h.notCleared (List.mem_append_left _ hmem), hopen⟩, ?_⟩
      exact fun hlast => h.notCompleted ((completed_snoc_ack hopen).mpr hlast)
  · rintro ⟨before, rfl, hlive, hnotLast⟩
    refine ⟨hlive.registered.snoc (by simp), ?_, ?_⟩
    · simpa using hlive.notCleared
    · exact fun hdone => hnotLast ((completed_snoc_ack hlive.notCompleted).mp hdone)

/-- Calls about other tokens do not matter. -/
theorem live_snoc_of_ne {history since : List (Call Token Member)} {token : Token} {expected : Finset Member}
    {call : Call Token Member} (hne : call.token ≠ token) :
    Live (history ++ [call]) token expected since ↔
      ∃ before, since = before ++ [call] ∧ Live history token expected before := by
  have hregister : ∀ other, call ≠ .register token other := fun other he => hne (by rw [he]; rfl)
  have hack : ∀ member, call ≠ .ack token member := fun member he => hne (by rw [he]; rfl)
  have hclear : call ≠ .clear token := fun he => hne (by rw [he]; rfl)
  constructor
  · intro h
    rcases h.registered.of_snoc with ⟨hcall, _⟩ | ⟨_, before, rfl, hbefore⟩
    · exact absurd hcall (hregister _)
    · exact ⟨before, rfl, hbefore, fun hmem => h.notCleared (List.mem_append_left _ hmem),
        fun hdone => h.notCompleted ((completed_snoc_of_ne hack).mpr hdone)⟩
  · rintro ⟨before, rfl, hlive⟩
    refine ⟨hlive.registered.snoc hregister, ?_, ?_⟩
    · simpa [Ne.symm hclear] using hlive.notCleared
    · exact fun hdone => hlive.notCompleted ((completed_snoc_of_ne hack).mp hdone)

end Barrier
