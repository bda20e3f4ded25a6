import Mathlib.Data.List.Forall2

/-!
# Checks that report errors

A check reports errors as it goes along, and an exception may cut it short: what it reported so far then stays reported. It accepts its input if it comes to its end and has reported nothing. The lemmas turn the acceptance of a check into the acceptance of its parts.
-/

/-- A check with reported errors in `ε` and exceptions in `ξ`. -/
structure Validator (ε ξ α : Type) where
  reported : List ε
  outcome : Except ξ α

namespace Validator

variable {ε ξ α β : Type}

instance : Monad (Validator ε ξ) where
  pure a := ⟨[], .ok a⟩
  bind check next :=
    match check.outcome with
    | .error e => ⟨check.reported, .error e⟩
    | .ok a => ⟨check.reported ++ (next a).reported, (next a).outcome⟩

def report (error : ε) : Validator ε ξ Unit := ⟨[error], .ok ()⟩

def lift (result : Except ξ α) : Validator ε ξ α := ⟨[], result⟩

def forEach (items : List α) (check : α → Validator ε ξ Unit) : Validator ε ξ Unit :=
  match items with
  | [] => pure ()
  | item :: items => do
      check item
      forEach items check

/-- What the checks of the items come to, one after the other. -/
def collect (items : List α) (check : α → Validator ε ξ β) : Validator ε ξ (List β) :=
  match items with
  | [] => pure []
  | item :: items => do
      let b ← check item
      let bs ← collect items check
      return b :: bs

/-- The check comes to this result and reports nothing. -/
def Accepts (check : Validator ε ξ α) (a : α) : Prop := check.reported = [] ∧ check.outcome = .ok a

instance [DecidableEq ε] [DecidableEq ξ] [DecidableEq α] (check : Validator ε ξ α) (a : α) : Decidable (check.Accepts a) :=
  inferInstanceAs (Decidable (_ ∧ _))

@[simp] theorem accepts_pure {a b : α} : (pure a : Validator ε ξ α).Accepts b ↔ a = b := by
  show [] = [] ∧ Except.ok a = Except.ok b ↔ a = b
  simp

@[simp 900] theorem accepts_bind {check : Validator ε ξ α} {next : α → Validator ε ξ β} {b : β} :
    (check >>= next).Accepts b ↔ ∃ a, check.Accepts a ∧ (next a).Accepts b := by
  obtain ⟨reported, outcome⟩ := check
  cases outcome with
  | error e =>
      constructor
      · rintro ⟨-, houtcome⟩
        contradiction
      · rintro ⟨a, ⟨-, houtcome⟩, -⟩
        contradiction
  | ok a =>
      constructor
      · rintro ⟨hreported, houtcome⟩
        obtain ⟨hfirst, hnext⟩ := List.append_eq_nil_iff.mp hreported
        exact ⟨a, ⟨hfirst, rfl⟩, hnext, houtcome⟩
      · rintro ⟨a', ⟨hfirst, hsame⟩, hnext, houtcome⟩
        obtain rfl := Except.ok.inj hsame
        exact ⟨List.append_eq_nil_iff.mpr ⟨hfirst, hnext⟩, houtcome⟩

@[simp] theorem accepts_then {check : Validator ε ξ Unit} {next : Unit → Validator ε ξ β} {b : β} :
    (check >>= next).Accepts b ↔ check.Accepts () ∧ (next ()).Accepts b := by
  rw [accepts_bind]
  constructor
  · rintro ⟨⟨⟩, hcheck, hnext⟩
    exact ⟨hcheck, hnext⟩
  · exact fun h => ⟨(), h⟩

@[simp] theorem accepts_report {error : ε} {a : Unit} : ¬ (report error : Validator ε ξ Unit).Accepts a :=
  fun h => List.cons_ne_nil _ _ h.1

@[simp] theorem accepts_lift {result : Except ξ α} {a : α} :
    (lift result : Validator ε ξ α).Accepts a ↔ result = .ok a :=
  and_iff_right rfl

theorem accepts_collect {items : List α} {check : α → Validator ε ξ β} {bs : List β} :
    (collect items check).Accepts bs ↔ List.Forall₂ (fun item b => (check item).Accepts b) items bs := by
  induction items generalizing bs with
  | nil =>
      rw [collect, accepts_pure, List.forall₂_nil_left_iff]
      exact eq_comm
  | cons item items ih =>
      simp only [collect, accepts_bind, accepts_pure, List.forall₂_cons_left_iff, ih]
      constructor
      · rintro ⟨b, hb, bs', hbs, rfl⟩
        exact ⟨b, bs', hb, hbs, rfl⟩
      · rintro ⟨b, bs', hb, hbs, rfl⟩
        exact ⟨b, hb, bs', hbs, rfl⟩

/-- A loop accepts exactly what every round accepts. -/
@[simp] theorem accepts_forEach {items : List α} {check : α → Validator ε ξ Unit} {a : Unit} :
    (forEach items check).Accepts a ↔ ∀ item ∈ items, (check item).Accepts () := by
  induction items with
  | nil => simp [forEach]
  | cons item items ih => simp [forEach, ih]

/-! ### Checks that never throw -/

/-- The check comes to its end. -/
def Ends (check : Validator ε ξ α) : Prop := ∃ a, check.outcome = .ok a

theorem ends_pure (a : α) : (pure a : Validator ε ξ α).Ends := ⟨a, rfl⟩

theorem ends_report (error : ε) : (report error : Validator ε ξ Unit).Ends := ⟨(), rfl⟩

theorem Ends.bind {check : Validator ε ξ α} {next : α → Validator ε ξ β} (hends : check.Ends)
    (hnext : ∀ a, (next a).Ends) : (check >>= next).Ends := by
  obtain ⟨reported, outcome⟩ := check
  obtain ⟨a, rfl⟩ := hends
  exact hnext a

theorem ends_forEach {items : List α} {check : α → Validator ε ξ Unit} (hends : ∀ item, (check item).Ends) :
    (forEach items check).Ends := by
  induction items with
  | nil => exact ends_pure ()
  | cons item items ih => exact (hends item).bind fun _ => ih

/-- Such a check accepts if it reports nothing. -/
theorem Ends.accepts_iff {check : Validator ε ξ Unit} (hends : check.Ends) : check.Accepts () ↔ check.reported = [] := by
  obtain ⟨⟨⟩, houtcome⟩ := hends
  exact and_iff_left houtcome

/-! ### Errors reported one after the other -/

/-- The check as a step on what was reported so far; an exception carries it along. -/
def onto (check : Validator ε ξ Unit) (errors : List ε) : Except (List ε × ξ) (List ε) :=
  match check.outcome with
  | .ok () => .ok (errors ++ check.reported)
  | .error e => .error (errors ++ check.reported, e)

theorem onto_bind (check : Validator ε ξ Unit) (next : Unit → Validator ε ξ Unit) (errors : List ε) :
    (check >>= next).onto errors = check.onto errors >>= (next ()).onto := by
  obtain ⟨reported, outcome⟩ := check
  cases outcome with
  | error e => rfl
  | ok a =>
      show (⟨reported ++ (next a).reported, (next a).outcome⟩ : Validator ε ξ Unit).onto errors =
        (next ()).onto (errors ++ reported)
      simp only [onto, List.append_assoc]

/-- A loop is a fold over what was reported so far. -/
theorem onto_forEach (items : List α) (check : α → Validator ε ξ Unit) (errors : List ε) :
    (forEach items check).onto errors = items.foldlM (fun errors item => (check item).onto errors) errors := by
  induction items generalizing errors with
  | nil =>
      show Except.ok (errors ++ []) = .ok errors
      rw [List.append_nil]
  | cons item items ih =>
      rw [forEach, onto_bind, List.foldlM_cons]
      congr 1
      funext errors
      exact ih errors

/-- A check that ends only adds to what was reported. -/
theorem Ends.onto {check : Validator ε ξ Unit} (hends : check.Ends) (errors : List ε) :
    check.onto errors = .ok (errors ++ check.reported) := by
  obtain ⟨⟨⟩, houtcome⟩ := hends
  rw [Validator.onto, houtcome]

end Validator
