import InstrumentServer.Lib.Lists
import Mathlib.Data.List.Basic

/-!
# Placeholders

A text with placeholders between an opening and a closing element, read from left to right: an opening element with a closing one somewhere behind it begins a placeholder, which ends at the first of them, and everything else stands for itself. `segments` cuts a text into these pieces; the three equations about it say how, and `placeholderInduction` is the induction that follows them.

The names that are not empty are those that a leftmost search for an opening element, a name and a closing element finds: `leftmostMatches_names`.
-/

namespace Placeholders

inductive Segment (α : Type) where
  | literal (a : α)
  | placeholder (name : List α)
deriving DecidableEq

variable {α β : Type}

def Segment.name? : Segment α → Option (List α)
  | .literal _ => none
  | .placeholder name => some name

/-- The names of the placeholders, in order. -/
def names (segs : List (Segment α)) : List (List α) := segs.filterMap Segment.name?

/-- What stands for a piece: itself, or the text of the placeholder. -/
def Segment.text (text : List α → List α) : Segment α → List α
  | .literal a => [a]
  | .placeholder name => text name

@[simp] theorem names_nil : names ([] : List (Segment α)) = [] := rfl

@[simp] theorem names_literal (a : α) (segs : List (Segment α)) : names (.literal a :: segs) = names segs := rfl

@[simp] theorem names_placeholder (name : List α) (segs : List (Segment α)) :
    names (.placeholder name :: segs) = name :: names segs := rfl

theorem mem_names {name : List α} {segs : List (Segment α)} : name ∈ names segs ↔ .placeholder name ∈ segs := by
  induction segs with
  | nil => simp
  | cons seg segs ih => cases seg <;> simp [ih]

/-! ### Leftmost search -/

section

variable (opening closing : α)

/-- Here begins an opening element, a name that is not empty, and a closing element. -/
def MatchesAt (l : List α) : Prop :=
  ∃ name rest, l = opening :: (name ++ closing :: rest) ∧ name ≠ [] ∧ closing ∉ name

/-- The names found by searching again and again for the leftmost match, each time behind the last one. -/
inductive LeftmostMatches : List α → List (List α) → Prop where
  | none {l : List α} (hnowhere : ∀ i, ¬ MatchesAt opening closing (l.drop i)) : LeftmostMatches l []
  | next {before name rest : List α} {found : List (List α)} (hname : name ≠ []) (hclosed : closing ∉ name)
      (hfirst : ∀ i < before.length,
        ¬ MatchesAt opening closing ((before ++ opening :: (name ++ closing :: rest)).drop i))
      (hrest : LeftmostMatches rest found) :
      LeftmostMatches (before ++ opening :: (name ++ closing :: rest)) (name :: found)

variable {opening closing}

/-- An element at which no match begins does not change what is found. -/
theorem LeftmostMatches.cons {a : α} {l : List α} {found : List (List α)}
    (hnot : ¬ MatchesAt opening closing (a :: l)) (hfound : LeftmostMatches opening closing l found) :
    LeftmostMatches opening closing (a :: l) found := by
  cases hfound with
  | none hnowhere =>
      refine .none fun i => ?_
      cases i with
      | zero => exact hnot
      | succ i => exact hnowhere i
  | next hname hclosed hfirst hrest =>
      rename_i before name rest found
      refine @LeftmostMatches.next _ _ _ (a :: before) name rest found hname hclosed (fun i hi => ?_) hrest
      cases i with
      | zero => exact hnot
      | succ i => exact hfirst i (Nat.lt_of_succ_lt_succ hi)

theorem matchesAt_drop {before name rest : List α} (hname : name ≠ []) (hclosed : closing ∉ name) :
    MatchesAt opening closing ((before ++ opening :: (name ++ closing :: rest)).drop before.length) := by
  rw [List.drop_left]
  exact ⟨name, rest, rfl, hname, hclosed⟩

/-- What is known of a search: it finds nothing, or a first match and then the rest. -/
theorem LeftmostMatches.cases_first {l : List α} {found : List (List α)} (hfound : LeftmostMatches opening closing l found) :
    (found = [] ∧ ∀ i, ¬ MatchesAt opening closing (l.drop i)) ∨
      ∃ before name rest found', l = before ++ opening :: (name ++ closing :: rest) ∧ found = name :: found' ∧ name ≠ [] ∧
        closing ∉ name ∧ (∀ i < before.length, ¬ MatchesAt opening closing (l.drop i)) ∧
        LeftmostMatches opening closing rest found' := by
  cases hfound with
  | none hnowhere => exact Or.inl ⟨rfl, hnowhere⟩
  | next hname hclosed hfirst hrest => exact Or.inr ⟨_, _, _, _, rfl, rfl, hname, hclosed, hfirst, hrest⟩

/-- The search finds one sequence of names only. -/
theorem LeftmostMatches.unique {l : List α} {found found' : List (List α)}
    (hfound : LeftmostMatches opening closing l found) (hfound' : LeftmostMatches opening closing l found') :
    found = found' := by
  induction hfound generalizing found' with
  | none hnowhere =>
      obtain ⟨rfl, -⟩ | ⟨before, name, rest, found'', rfl, -, hname, hclosed, -⟩ := hfound'.cases_first
      · rfl
      · exact absurd (matchesAt_drop hname hclosed) (hnowhere _)
  | next hname hclosed hfirst hrest ih =>
      rename_i before name rest found
      obtain ⟨-, hnowhere⟩ | ⟨before', name', rest', found'', heq, rfl, hname', hclosed', hfirst', hrest'⟩ :=
        hfound'.cases_first
      · exact absurd (matchesAt_drop hname hclosed) (hnowhere _)
      · have hlength : before.length = before'.length := by
          rcases Nat.lt_trichotomy before.length before'.length with hlt | hsame | hlt
          · exact absurd (matchesAt_drop hname hclosed) (hfirst' _ hlt)
          · exact hsame
          · refine absurd ?_ (hfirst _ hlt)
            rw [heq]
            exact matchesAt_drop hname' hclosed'
        obtain ⟨-, hmatch⟩ := List.append_inj heq hlength
        obtain ⟨rfl, rfl⟩ := Lists.eq_of_separator_append (List.cons.inj hmatch).2 hclosed hclosed'
        rw [ih hrest']

end

section

variable [DecidableEq α] (opening closing : α)

/-! ### The pieces of a text -/

/-- `name?` is what was read of a placeholder that has begun. -/
def segmentsFrom : Option (List α) → List α → List (Segment α)
  | _, [] => []
  | none, a :: l =>
      if a = opening ∧ closing ∈ l then segmentsFrom (some []) l else .literal a :: segmentsFrom none l
  | some name, a :: l =>
      if a = closing then .placeholder name :: segmentsFrom none l else segmentsFrom (some (name ++ [a])) l

def segments (l : List α) : List (Segment α) := segmentsFrom opening closing none l

variable {opening closing}

@[simp] theorem segments_nil : segments opening closing [] = [] := rfl

theorem segments_literal {a : α} {l : List α} (hliteral : a = opening → closing ∉ l) :
    segments opening closing (a :: l) = .literal a :: segments opening closing l := by
  rw [segments, segmentsFrom, if_neg fun hopen => hliteral hopen.1 hopen.2]
  rfl

theorem segmentsFrom_some (name : List α) {rest more : List α} (hmore : closing ∉ more) :
    segmentsFrom opening closing (some name) (more ++ closing :: rest) =
      .placeholder (name ++ more) :: segments opening closing rest := by
  induction more generalizing name with
  | nil =>
      rw [List.nil_append, segmentsFrom, if_pos rfl, List.append_nil]
      rfl
  | cons a more ih =>
      rw [List.mem_cons, not_or] at hmore
      rw [List.cons_append, segmentsFrom, if_neg (Ne.symm hmore.1), ih _ hmore.2, List.append_assoc]
      rfl

theorem segments_placeholder {name rest : List α} (hname : closing ∉ name) :
    segments opening closing (opening :: (name ++ closing :: rest)) =
      .placeholder name :: segments opening closing rest := by
  rw [segments, segmentsFrom, if_pos ⟨rfl, by simp⟩, segmentsFrom_some [] hname, List.nil_append]

/-- The induction along the pieces of a text. -/
theorem placeholderInduction (opening closing : α) {P : List α → Prop} (hnil : P [])
    (hliteral : ∀ a l, (a = opening → closing ∉ l) → P l → P (a :: l))
    (hplaceholder : ∀ name rest, closing ∉ name → P rest → P (opening :: (name ++ closing :: rest))) (l : List α) :
    P l := by
  induction hlength : l.length using Nat.strong_induction_on generalizing l with
  | _ n ih =>
    cases l with
    | nil => exact hnil
    | cons a l =>
        rw [List.length_cons] at hlength
        by_cases hopen : a = opening ∧ closing ∈ l
        · obtain ⟨rfl, hmem⟩ := hopen
          obtain ⟨name, rest, rfl, hname⟩ := List.eq_append_cons_of_mem hmem
          rw [List.length_append, List.length_cons] at hlength
          exact hplaceholder name rest hname (ih rest.length (by omega) rest rfl)
        · exact hliteral a l (fun heq hmem => hopen ⟨heq, hmem⟩) (ih l.length (by omega) l rfl)

/-- The pieces of a text hold only elements of it. -/
theorem mem_of_mem_segments {a : α} {l : List α}
    (hmem : .literal a ∈ segments opening closing l ∨ ∃ name, .placeholder name ∈ segments opening closing l ∧ a ∈ name) :
    a ∈ l := by
  induction l using placeholderInduction opening closing with
  | hnil => simp at hmem
  | hliteral b l hliteral ih =>
      rw [segments_literal hliteral] at hmem
      simp only [List.mem_cons, Segment.literal.injEq, reduceCtorEq, false_or] at hmem
      obtain (rfl | hrest) | hrest := hmem
      · exact List.mem_cons_self
      · exact List.mem_cons_of_mem _ (ih (Or.inl hrest))
      · exact List.mem_cons_of_mem _ (ih (Or.inr hrest))
  | hplaceholder name rest hname ih =>
      rw [segments_placeholder hname] at hmem
      simp only [List.mem_cons, Segment.placeholder.injEq, reduceCtorEq, false_or] at hmem
      simp only [List.mem_cons, List.mem_append]
      obtain hrest | ⟨name', rfl | hrest, ha⟩ := hmem
      · exact Or.inr (Or.inr (Or.inr (ih (Or.inl hrest))))
      · exact Or.inr (Or.inl ha)
      · exact Or.inr (Or.inr (Or.inr (ih (Or.inr ⟨name', hrest, ha⟩))))

/-- The names that are not empty are those that the search finds. -/
theorem leftmostMatches_names (hne : opening ≠ closing) (l : List α) :
    LeftmostMatches opening closing l ((names (segments opening closing l)).filter (· ≠ [])) := by
  induction l using placeholderInduction opening closing with
  | hnil =>
      refine .none fun i => ?_
      rintro ⟨name, rest, heq, -⟩
      rw [List.drop_nil] at heq
      contradiction
  | hliteral a l hliteral ih =>
      rw [segments_literal hliteral, names_literal]
      refine ih.cons ?_
      rintro ⟨name, rest, heq, -⟩
      obtain ⟨rfl, rfl⟩ := List.cons.inj heq
      exact hliteral rfl (by simp)
  | hplaceholder name rest hname ih =>
      rw [segments_placeholder hname, names_placeholder]
      by_cases hempty : name = []
      · subst hempty
        rw [List.filter_cons_of_neg (by simp)]
        refine (ih.cons ?_).cons ?_
        · rintro ⟨name, rest', heq, -⟩
          exact hne (List.cons.inj heq).1.symm
        · rintro ⟨name, rest', heq, hnonempty, hclosed⟩
          obtain ⟨a, name, rfl⟩ := List.exists_cons_of_ne_nil hnonempty
          obtain ⟨-, heq⟩ := List.cons.inj heq
          obtain ⟨rfl, -⟩ := List.cons.inj heq
          exact hclosed List.mem_cons_self
      · rw [List.filter_cons_of_pos (by simpa using hempty)]
        exact @LeftmostMatches.next _ _ _ [] name rest _ hempty hname (fun i hi => absurd hi (Nat.not_lt_zero i)) ih

end

end Placeholders
