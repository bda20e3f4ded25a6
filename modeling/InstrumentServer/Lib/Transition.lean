import Mathlib.Logic.Basic

/-!
# Labelled transition systems

A concurrent component is a state, a label for every step one of its threads can take, and a partial step function: a label is refused in the states where no thread can take it. A run is any sequence of accepted labels, so one run is one interleaving. `ReachableWhile` restricts the runs to those whose steps all meet a condition on the label and on the state before the step; `Reachable` puts no condition.
-/

namespace Transition

structure System (State Label : Type) where
  init : State
  step : State → Label → Option State

variable {State Label : Type}

/-- The states reached by runs whose steps all satisfy `ok`. -/
inductive ReachableWhile (T : System State Label) (ok : State → Label → Prop) : State → Prop where
  | init : ReachableWhile T ok T.init
  | step {s t : State} {label : Label} : ReachableWhile T ok s → ok s label → T.step s label = some t →
      ReachableWhile T ok t

/-- The states reached by any run. -/
abbrev Reachable (T : System State Label) : State → Prop :=
  ReachableWhile T fun _ _ => True

/-- The invariant rule. -/
theorem ReachableWhile.invariant {T : System State Label} {ok : State → Label → Prop} {Inv : State → Prop}
    (hinit : Inv T.init) (hstep : ∀ s t label, Inv s → ok s label → T.step s label = some t → Inv t)
    {s : State} (hreach : ReachableWhile T ok s) : Inv s := by
  induction hreach with
  | init => exact hinit
  | step _ hok hnext ih => exact hstep _ _ _ ih hok hnext

/-- The invariant rule for all runs. -/
theorem Reachable.invariant {T : System State Label} {Inv : State → Prop}
    (hinit : Inv T.init) (hstep : ∀ s t label, Inv s → T.step s label = some t → Inv t)
    {s : State} (hreach : Reachable T s) : Inv s :=
  ReachableWhile.invariant hinit (fun s t label hinv _ hnext => hstep s t label hinv hnext) hreach

theorem ReachableWhile.reachable {T : System State Label} {ok : State → Label → Prop} {s : State}
    (hreach : ReachableWhile T ok s) : Reachable T s := by
  induction hreach with
  | init => exact .init
  | step _ _ hnext ih => exact ih.step trivial hnext

/-- The state after a sequence of labels, or nothing if one of them is refused or violates the condition. -/
def System.runWhile (T : System State Label) (ok : State → Label → Prop) [∀ s label, Decidable (ok s label)] :
    State → List Label → Option State
  | s, [] => some s
  | s, label :: labels => if ok s label then (T.step s label).bind fun t => T.runWhile ok t labels else none

theorem ReachableWhile.run {T : System State Label} {ok : State → Label → Prop}
    [∀ s label, Decidable (ok s label)] {labels : List Label} {s t : State} (hreach : ReachableWhile T ok s)
    (hrun : T.runWhile ok s labels = some t) : ReachableWhile T ok t := by
  induction labels generalizing s with
  | nil =>
      obtain rfl : s = t := by simpa [System.runWhile] using hrun
      exact hreach
  | cons label labels ih =>
      rw [System.runWhile] at hrun
      split at hrun
      · rename_i hok
        obtain ⟨mid, hmid, hrest⟩ := Option.bind_eq_some_iff.mp hrun
        exact ih (hreach.step hok hmid) hrest
      · simp at hrun

/-- The state after a sequence of labels, or nothing if one of them is refused. -/
abbrev System.run (T : System State Label) (labels : List Label) : Option State :=
  T.runWhile (fun _ _ => True) T.init labels

theorem reachable_of_run {T : System State Label} {labels : List Label} {t : State}
    (hrun : T.run labels = some t) : Reachable T t :=
  ReachableWhile.init.run hrun

/-- A run by which a state with a given property is reached. -/
theorem ReachableWhile.of_any {T : System State Label} {ok : State → Label → Prop} [∀ s label, Decidable (ok s label)]
    {labels : List Label} {p : State → Bool} (hany : (T.runWhile ok T.init labels).any p = true) :
    ∃ s, ReachableWhile T ok s ∧ p s = true := by
  cases hrun : T.runWhile ok T.init labels with
  | none => simp [hrun] at hany
  | some s =>
      rw [hrun] at hany
      exact ⟨s, ReachableWhile.init.run hrun, hany⟩

/-- The system as it goes on from a state. -/
def System.startingAt (T : System State Label) (s : State) : System State Label := { T with init := s }

theorem ReachableWhile.startingAt {T : System State Label} {ok : State → Label → Prop} [∀ s label, Decidable (ok s label)]
    {labels : List Label} {s t : State} (hrun : T.runWhile ok s labels = some t) :
    ReachableWhile (T.startingAt s) ok t := by
  have hsame : ∀ start, (T.startingAt s).runWhile ok start labels = T.runWhile ok start labels := by
    clear hrun
    induction labels with
    | nil => exact fun _ => rfl
    | cons label labels ih =>
        intro start
        simp only [System.runWhile, ih]
        rfl
  exact ReachableWhile.init.run ((hsame s).trans hrun)

/-! ### Histories -/

/-- The system that also keeps a history: what an observer notes at each step. -/
def System.logged {Entry : Type} (T : System State Label) (note : State → Label → State → List Entry) :
    System (State × List Entry) Label where
  init := (T.init, [])
  step s label := (T.step s.1 label).map fun t => (t, s.2 ++ note s.1 label t)

/-- The invariant rule for a history: it may use an invariant of the states. -/
theorem ReachableWhile.logged {Entry : Type} {T : System State Label} {note : State → Label → State → List Entry}
    {ok : State → Label → Prop} {Inv : State → Prop} {Hist : State → List Entry → Prop}
    (hinv : ∀ s, ReachableWhile T ok s → Inv s) (hinit : Hist T.init [])
    (hstep : ∀ s t label log, Inv s → Hist s log → ok s label → T.step s label = some t →
      Hist t (log ++ note s label t))
    {s : State × List Entry} (hreach : ReachableWhile (T.logged note) (fun s label => ok s.1 label) s) :
    ReachableWhile T ok s.1 ∧ Hist s.1 s.2 := by
  induction hreach with
  | init => exact ⟨.init, hinit⟩
  | step _ hok hnext ih =>
      obtain ⟨t, ht, rfl⟩ := Option.map_eq_some_iff.mp hnext
      exact ⟨ih.1.step hok ht, hstep _ _ _ _ (hinv _ ih.1) ih.2 hok ht⟩

end Transition
