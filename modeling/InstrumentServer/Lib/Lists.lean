import Mathlib.Algebra.GroupWithZero.Nat
import Mathlib.Algebra.Order.BigOperators.Group.List
import Mathlib.Algebra.Order.Group.Nat
import Mathlib.Order.Basic
import Mathlib.Data.List.Basic
import Mathlib.Data.List.Pairwise
import Mathlib.Data.Finset.Card
import Mathlib.Data.Finset.Dedup

/-!
# Lists cut and put together

Five questions about lists. Which elements of a list keep their place when it is filtered? When does a list come back unchanged after it is grouped by a key? Which elements are left of one that keeps the first of each key? When do two lists have the same elements? And when are two concatenations equal piece by piece, or around a separator?
-/

namespace Lists

variable {α β κ : Type}

/-! ### Filtering -/

theorem filter_eq_takeWhile {p : α → Bool} {l : List α} (h : l.Pairwise fun a b => p b = true → p a = true) :
    l.filter p = l.takeWhile p := by
  induction l with
  | nil => rfl
  | cons a l ih =>
      obtain ⟨hhead, htail⟩ := List.pairwise_cons.mp h
      cases ha : p a with
      | true => rw [List.filter_cons_of_pos ha, List.takeWhile_cons_of_pos ha, ih htail]
      | false =>
          have hnone : l.filter p = [] := by
            rw [List.filter_eq_nil_iff]
            intro b hb hpb
            rw [hhead b hb hpb] at ha
            contradiction
          rw [List.filter_cons_of_neg (by simp [ha]), List.takeWhile_cons_of_neg (by simp [ha]), hnone]

theorem filter_append_filter_not {p : α → Bool} {l : List α} (h : l.Pairwise fun a b => p b = true → p a = true) :
    l.filter p ++ l.filter (fun a => !p a) = l := by
  induction l with
  | nil => rfl
  | cons a l ih =>
      obtain ⟨hhead, htail⟩ := List.pairwise_cons.mp h
      cases ha : p a with
      | true =>
          rw [List.filter_cons_of_pos ha, List.filter_cons_of_neg (by simp [ha]), List.cons_append, ih htail]
      | false =>
          have hnone : ∀ b ∈ l, p b = false := by
            intro b hb
            by_contra hpb
            rw [hhead b hb (by simpa using hpb)] at ha
            contradiction
          rw [List.filter_eq_nil_iff.mpr (by simpa [ha] using hnone), List.nil_append, List.filter_eq_self]
          simpa [ha] using hnone

/-- If every position that the filtered list still has holds an element that is kept, those that are kept come first. -/
theorem pairwise_of_filter {p : α → Bool} {l : List α}
    (h : ∀ (i : Nat) (a b : α), l[i]? = some a → (l.filter p)[i]? = some b → p a = true) :
    l.Pairwise fun a b => p b = true → p a = true := by
  induction l with
  | nil => exact List.Pairwise.nil
  | cons a l ih =>
      cases ha : p a with
      | true =>
          refine List.pairwise_cons.mpr ⟨fun _ _ _ => ha, ih fun i b c hb hc => h (i + 1) b c hb ?_⟩
          rw [List.filter_cons_of_pos ha]
          exact hc
      | false =>
          have hnone : ∀ b ∈ l, p b ≠ true := by
            intro b hb hpb
            have hkept : b ∈ (a :: l).filter p := by simp [hb, hpb]
            obtain ⟨c, hc⟩ : ∃ c, ((a :: l).filter p)[0]? = some c :=
              ⟨_, List.getElem?_eq_getElem (List.length_pos_of_mem hkept)⟩
            rw [h 0 a c rfl hc] at ha
            contradiction
          refine List.pairwise_cons.mpr ⟨fun b hb hpb => absurd hpb (hnone b hb), ?_⟩
          exact List.pairwise_of_forall_mem_list fun _ _ b hb hpb => absurd hpb (hnone b hb)

theorem pairwise_range'_iff {R : Nat → Nat → Prop} (start n : Nat) :
    (List.range' start n).Pairwise R ↔ ∀ i j, i < j → j < n → R (start + i) (start + j) := by
  rw [List.pairwise_iff_getElem]
  simp only [List.length_range', List.getElem_range', Nat.one_mul]
  exact ⟨fun h i j hij hj => h i j (by omega) hj hij, fun h i j _ hj hij => h i j hij hj⟩

/-! ### Concatenations -/

/-- Taking a part first and the rest of what is wanted afterwards. -/
theorem take_append_take_drop {l : List α} {i k : Nat} (h : (l.take i).length ≤ k) :
    l.take i ++ (l.drop i).take (k - (l.take i).length) = l.take k := by
  by_cases hlength : i ≤ l.length
  · rw [List.length_take_of_le hlength] at h ⊢
    rw [← List.take_add, Nat.add_sub_cancel' h]
  · rw [List.take_of_length_le (by omega)] at h ⊢
    rw [List.drop_of_length_le (by omega), List.take_nil, List.append_nil, List.take_of_length_le h]

theorem eq_of_sum_le {f g : α → Nat} {l : List α} (hle : ∀ a ∈ l, g a ≤ f a) (hsum : (l.map f).sum ≤ (l.map g).sum) :
    ∀ a ∈ l, f a = g a := by
  induction l with
  | nil => simp
  | cons b l ih =>
      have hrest : (l.map g).sum ≤ (l.map f).sum := List.sum_le_sum fun a ha => hle a (List.mem_cons_of_mem b ha)
      have hb := hle b List.mem_cons_self
      rw [List.map_cons, List.map_cons, List.sum_cons, List.sum_cons] at hsum
      intro a ha
      rcases List.mem_cons.mp ha with rfl | ha
      · omega
      · exact ih (fun c hc => hle c (List.mem_cons_of_mem b hc)) (by omega) a ha

/-- If no piece of the first concatenation is shorter, the concatenations are equal only piece by piece. -/
theorem flatMap_eq_flatMap_iff {f g : α → List β} {l : List α} (hle : ∀ a ∈ l, (g a).length ≤ (f a).length) :
    l.flatMap f = l.flatMap g ↔ ∀ a ∈ l, f a = g a := by
  constructor
  · intro heq
    have hlength : ∀ a ∈ l, (f a).length = (g a).length := by
      refine eq_of_sum_le hle ?_
      rw [← List.length_flatMap, ← List.length_flatMap, heq]
    clear hle
    induction l with
    | nil => simp
    | cons b l ih =>
        rw [List.flatMap_cons, List.flatMap_cons] at heq
        obtain ⟨hb, hrest⟩ := List.append_inj heq (hlength b List.mem_cons_self)
        intro a ha
        rcases List.mem_cons.mp ha with rfl | ha
        · exact hb
        · exact ih hrest (fun c hc => hlength c (List.mem_cons_of_mem b hc)) a ha
  · exact List.flatMap_congr

/-- What stands after the last separator does not depend on what stands before it. -/
theorem eq_of_append_separator {c : α} {left left' right right' : List α}
    (h : left ++ c :: right = left' ++ c :: right') (hright : c ∉ right) (hright' : c ∉ right') :
    right = right' := by
  have hsplit := List.append_eq_append_iff.mp h
  rcases hsplit with ⟨mid, -, hmid⟩ | ⟨mid, -, hmid⟩
  · cases mid with
    | nil => simpa using hmid
    | cons first mid =>
        obtain ⟨-, rfl⟩ := List.cons.inj hmid
        exact absurd (by simp) hright
  · cases mid with
    | nil => simpa using hmid.symm
    | cons first mid =>
        obtain ⟨-, rfl⟩ := List.cons.inj hmid
        exact absurd (by simp) hright'

/-- What stands before the first separator does not depend on what stands after it. -/
theorem eq_of_separator_append {c : α} {left left' right right' : List α}
    (h : left ++ c :: right = left' ++ c :: right') (hleft : c ∉ left) (hleft' : c ∉ left') :
    left = left' ∧ right = right' := by
  have hreverse := congrArg List.reverse h
  simp only [List.reverse_append, List.reverse_cons, List.append_assoc, List.singleton_append] at hreverse
  have hsame : left.reverse = left'.reverse :=
    eq_of_append_separator hreverse (fun hmem => hleft (List.mem_reverse.mp hmem))
      fun hmem => hleft' (List.mem_reverse.mp hmem)
  obtain rfl := List.reverse_inj.mp hsame
  exact ⟨rfl, (List.cons.inj (List.append_cancel_left h)).2⟩

section

variable [DecidableEq α] {c : α} {left : List α}

/-- What stands before the first separator is kept. -/
theorem takeWhile_ne_append (hleft : c ∉ left) (right : List α) :
    (left ++ right).takeWhile (· ≠ c) = left ++ right.takeWhile (· ≠ c) :=
  List.takeWhile_append_of_pos fun _ ha => decide_eq_true fun heq => hleft (heq ▸ ha)

theorem takeWhile_ne_self (hleft : c ∉ left) : left.takeWhile (· ≠ c) = left := by
  have hkept := takeWhile_ne_append hleft []
  rwa [List.append_nil, List.takeWhile_nil, List.append_nil] at hkept

theorem dropWhile_ne_append (hleft : c ∉ left) (right : List α) :
    (left ++ right).dropWhile (· ≠ c) = right.dropWhile (· ≠ c) :=
  List.dropWhile_append_of_pos fun _ ha => decide_eq_true fun heq => hleft (heq ▸ ha)

theorem dropWhile_ne_of_mem {l : List α} (hmem : c ∈ l) : ∃ rest, l.dropWhile (· ≠ c) = c :: rest := by
  induction l with
  | nil => contradiction
  | cons a l ih =>
      by_cases hac : a = c
      · exact ⟨l, by rw [List.dropWhile_cons_of_neg (by simp [hac]), hac]⟩
      · obtain ⟨rest, hrest⟩ := ih ((List.mem_cons.mp hmem).resolve_left fun heq => hac heq.symm)
        exact ⟨rest, by rw [List.dropWhile_cons_of_pos (by simp [hac]), hrest]⟩

end

/-! ### Grouping -/

variable [DecidableEq κ]

/-- The elements of a list, key by key. -/
def group (key : α → κ) (keys : List κ) (l : List α) : List α :=
  keys.flatMap fun k => l.filter fun a => key a = k

variable {key : α → κ} {keys : List κ}

theorem group_filter_ne {k : κ} (hk : k ∉ keys) (l : List α) :
    group key keys (l.filter fun a => !decide (key a = k)) = group key keys l := by
  refine List.flatMap_congr fun k' hk' => ?_
  rw [List.filter_filter]
  refine List.filter_congr fun a _ => ?_
  by_cases ha : key a = k'
  · have hne : k' ≠ k := fun heq => hk (heq ▸ hk')
    simp [ha, hne]
  · simp [ha]

theorem length_group (hkeys : keys.Nodup) {l : List α} (hmem : ∀ a ∈ l, key a ∈ keys) :
    (group key keys l).length = l.length := by
  induction keys generalizing l with
  | nil =>
      have hnil : l = [] := List.eq_nil_iff_forall_not_mem.mpr fun a ha => absurd (hmem a ha) List.not_mem_nil
      rw [hnil]
      rfl
  | cons k keys ih =>
      obtain ⟨hk, hkeys⟩ := List.nodup_cons.mp hkeys
      have hothers := @ih hkeys (l.filter fun a => !decide (key a = k)) fun a ha => by
        obtain ⟨ha, hne⟩ := List.mem_filter.mp ha
        exact (List.mem_cons.mp (hmem a ha)).resolve_left (by simpa using hne)
      rw [group_filter_ne hk] at hothers
      have hsplit := List.length_eq_length_filter_add (l := l) fun a => decide (key a = k)
      calc (group key (k :: keys) l).length
          = (l.filter fun a => key a = k).length + (group key keys l).length := by
            rw [group, List.flatMap_cons, List.length_append]
            rfl
        _ = l.length := by rw [hothers, ← hsplit]

/-- When the pieces are made key by key, the elements with one key are the piece of that key. -/
theorem filter_flatMap_of_key {f : κ → List α} (hf : ∀ k, ∀ a ∈ f k, key a = k) (hkeys : keys.Nodup) {k : κ}
    (hk : k ∈ keys) : (keys.flatMap f).filter (fun a => key a = k) = f k := by
  obtain ⟨before, after, rfl⟩ := List.append_of_mem hk
  obtain ⟨-, hafter, hdisjoint⟩ := List.nodup_append.mp hkeys
  have hother : ∀ others : List κ, k ∉ others → (others.flatMap f).filter (fun a => key a = k) = [] := by
    intro others hnot
    refine List.filter_eq_nil_iff.mpr fun a ha heq => ?_
    obtain ⟨k', hk', ha⟩ := List.mem_flatMap.mp ha
    have hsame : k' = k := (hf k' a ha).symm.trans (of_decide_eq_true heq)
    exact hnot (hsame ▸ hk')
  have hself : (f k).filter (fun a => key a = k) = f k :=
    List.filter_eq_self.mpr fun a ha => decide_eq_true (hf k a ha)
  rw [List.flatMap_append, List.flatMap_cons, List.filter_append, List.filter_append, hself,
    hother before fun hmem => hdisjoint k hmem k List.mem_cons_self rfl, hother after (List.nodup_cons.mp hafter).1]
  simp

/-! ### First occurrences -/

/-- The elements whose key is neither among those seen nor that of an earlier element. -/
def firstOf (key : α → κ) (seen : List κ) : List α → List α
  | [] => []
  | a :: l => if key a ∈ seen then firstOf key seen l else a :: firstOf key (key a :: seen) l

/-- Only the set of the keys seen matters. -/
theorem firstOf_congr {seen seen' : List κ} (hseen : ∀ k, k ∈ seen ↔ k ∈ seen') (l : List α) :
    firstOf key seen l = firstOf key seen' l := by
  induction l generalizing seen seen' with
  | nil => rfl
  | cons a l ih =>
      rw [firstOf, firstOf]
      by_cases ha : key a ∈ seen
      · rw [if_pos ha, if_pos ((hseen _).mp ha), ih hseen]
      · rw [if_neg ha, if_neg (mt (hseen _).mpr ha)]
        refine congrArg (a :: ·) (ih fun k => ?_)
        rw [List.mem_cons, List.mem_cons, hseen]

theorem firstOf_append (seen : List κ) (l m : List α) :
    firstOf key seen (l ++ m) = firstOf key seen l ++ firstOf key (l.map key ++ seen) m := by
  induction l generalizing seen with
  | nil => rfl
  | cons a l ih =>
      rw [List.cons_append, firstOf, firstOf]
      by_cases ha : key a ∈ seen
      · rw [if_pos ha, if_pos ha, ih]
        refine congrArg (_ ++ ·) (firstOf_congr (fun k => ?_) m)
        simp only [List.map_cons, List.mem_append, List.mem_cons]
        exact ⟨fun h => h.imp_left Or.inr, fun h => h.elim (fun h => h.elim (fun h => Or.inr (h ▸ ha)) Or.inl) Or.inr⟩
      · rw [if_neg ha, if_neg ha, ih, List.cons_append]
        refine congrArg (_ :: _ ++ ·) (firstOf_congr (fun k => ?_) m)
        simp only [List.map_cons, List.mem_append, List.mem_cons]
        exact or_left_comm.trans (or_assoc.symm)

theorem firstOf_sublist (seen : List κ) (l : List α) : (firstOf key seen l).Sublist l := by
  induction l generalizing seen with
  | nil => exact List.Sublist.refl []
  | cons a l ih =>
      rw [firstOf]
      split
      · exact (ih seen).cons a
      · exact (ih _).cons_cons a

theorem mem_map_firstOf {seen : List κ} {l : List α} {k : κ} :
    k ∈ (firstOf key seen l).map key ↔ k ∈ l.map key ∧ k ∉ seen := by
  induction l generalizing seen with
  | nil => simp [firstOf]
  | cons a l ih =>
      rw [firstOf]
      split
      · rename_i ha
        rw [ih, List.map_cons, List.mem_cons]
        refine and_congr_left fun hk => ⟨Or.inr, fun h => h.resolve_left ?_⟩
        exact fun heq => hk (heq ▸ ha)
      · rename_i ha
        rw [List.map_cons, List.mem_cons, ih, List.map_cons, List.mem_cons, List.mem_cons, not_or]
        by_cases hk : k = key a
        · subst hk
          simp [ha]
        · simp [hk]

theorem nodup_map_firstOf (seen : List κ) (l : List α) : ((firstOf key seen l).map key).Nodup := by
  induction l generalizing seen with
  | nil => exact List.nodup_nil
  | cons a l ih =>
      rw [firstOf]
      split
      · exact ih seen
      · refine List.nodup_cons.mpr ⟨fun hmem => ?_, ih _⟩
        exact (mem_map_firstOf.mp hmem).2 List.mem_cons_self

theorem firstOf_eq_nil {seen : List κ} {l : List α} (hseen : ∀ a ∈ l, key a ∈ seen) : firstOf key seen l = [] := by
  induction l with
  | nil => rfl
  | cons a l ih =>
      rw [firstOf, if_pos (hseen a List.mem_cons_self)]
      exact ih fun b hb => hseen b (List.mem_cons_of_mem a hb)

theorem firstOf_eq_self {seen : List κ} {l : List α} (hnodup : (l.map key).Nodup) (hseen : ∀ a ∈ l, key a ∉ seen) :
    firstOf key seen l = l := by
  induction l generalizing seen with
  | nil => rfl
  | cons a l ih =>
      obtain ⟨ha, hnodup⟩ := List.nodup_cons.mp hnodup
      rw [firstOf, if_neg (hseen a List.mem_cons_self)]
      refine congrArg (a :: ·) (ih hnodup fun b hb hmem => ?_)
      rcases List.mem_cons.mp hmem with heq | hmem
      · exact ha (heq ▸ List.mem_map_of_mem hb)
      · exact hseen b (List.mem_cons_of_mem a hb) hmem

/-! ### Grouping by an ordered key -/

variable [PartialOrder κ]

theorem sorted_group (hkeys : keys.Pairwise (· < ·)) (l : List α) :
    (group key keys l).Pairwise fun a b => key a ≤ key b := by
  have hkey : ∀ {k : κ} {a : α}, a ∈ l.filter (fun a => key a = k) → key a = k :=
    fun ha => of_decide_eq_true (List.mem_filter.mp ha).2
  rw [group, List.pairwise_flatMap]
  constructor
  · intro k _
    refine List.pairwise_of_forall_mem_list fun a ha b hb => ?_
    rw [hkey ha, hkey hb]
  · refine hkeys.imp fun hlt a ha b hb => ?_
    rw [hkey ha, hkey hb]
    exact hlt.le

theorem group_of_sorted (hkeys : keys.Pairwise (· < ·)) {l : List α} (hl : l.Pairwise fun a b => key a ≤ key b)
    (hmem : ∀ a ∈ l, key a ∈ keys) : group key keys l = l := by
  induction keys generalizing l with
  | nil =>
      have hnil : l = [] := List.eq_nil_iff_forall_not_mem.mpr fun a ha => absurd (hmem a ha) List.not_mem_nil
      rw [hnil]
      rfl
  | cons k keys ih =>
      obtain ⟨hleast, hkeys⟩ := List.pairwise_cons.mp hkeys
      have hle : ∀ a ∈ l, k ≤ key a := by
        intro a ha
        rcases List.mem_cons.mp (hmem a ha) with heq | hlater
        · exact heq.symm.le
        · exact (hleast _ hlater).le
      -- the elements with the least key come first, the others are grouped by the other keys
      have hfirst : l.Pairwise fun a b => decide (key b = k) = true → decide (key a = k) = true := by
        refine hl.imp_of_mem fun ha _ hab hb => decide_eq_true ?_
        exact le_antisymm ((of_decide_eq_true hb) ▸ hab) (hle _ ha)
      have hothers : group key keys (l.filter fun a => !decide (key a = k)) = l.filter fun a => !decide (key a = k) := by
        refine ih hkeys (hl.filter _) fun a ha => ?_
        obtain ⟨ha, hne⟩ := List.mem_filter.mp ha
        exact (List.mem_cons.mp (hmem a ha)).resolve_left (by simpa using hne)
      calc group key (k :: keys) l
          = (l.filter fun a => key a = k) ++ group key keys l := List.flatMap_cons
        _ = (l.filter fun a => key a = k) ++ l.filter fun a => !decide (key a = k) := by
          rw [← group_filter_ne (fun hk => lt_irrefl k (hleast k hk)) l, hothers]
        _ = l := filter_append_filter_not hfirst

/-! ### Lists with the same elements -/

section

variable [DecidableEq α]

/-- How many elements stand in a list for another time. -/
def repeats (l : List α) : Nat := l.length - l.dedup.length

/-- Of two lists of one length, where one has no element that the other lacks, it has them all exactly if both repeat as many. -/
theorem covers_iff_repeats {l m : List α} (hlength : l.length = m.length) :
    ((∀ a ∈ m, a ∈ l) ∧ ∀ a ∈ l, a ∈ m) ↔ (∀ a ∈ l, a ∈ m) ∧ repeats l = repeats m := by
  have hl := l.dedup_sublist.length_le
  have hm := m.dedup_sublist.length_le
  have hcount : repeats l = repeats m ↔ l.toFinset.card = m.toFinset.card := by
    rw [repeats, repeats, List.card_toFinset, List.card_toFinset]
    omega
  rw [hcount]
  constructor
  · rintro ⟨hcovers, hknown⟩
    have hsame : l.toFinset = m.toFinset := by
      ext a
      rw [List.mem_toFinset, List.mem_toFinset]
      exact ⟨hknown a, hcovers a⟩
    exact ⟨hknown, congrArg Finset.card hsame⟩
  · rintro ⟨hknown, hcard⟩
    have hsubset : l.toFinset ⊆ m.toFinset := fun a ha => List.mem_toFinset.mpr (hknown a (List.mem_toFinset.mp ha))
    have hsame := Finset.eq_of_subset_of_card_le hsubset (le_of_eq hcard.symm)
    refine ⟨fun a ha => ?_, hknown⟩
    rw [← List.mem_toFinset, hsame]
    exact List.mem_toFinset.mpr ha

end

/-! ### Loops that may fail -/

section

variable {γ ε σ : Type}

theorem bind_eq_ok_iff {x : Except ε α} {f : α → Except ε β} {b : β} :
    x >>= f = .ok b ↔ ∃ a, x = .ok a ∧ f a = .ok b := by
  cases x with
  | error e => simp [bind, Except.bind]
  | ok a => simp [bind, Except.bind]

theorem map_eq_ok_iff {x : Except ε α} {f : α → β} {b : β} : f <$> x = .ok b ↔ ∃ a, x = .ok a ∧ f a = b := by
  cases x with
  | error e => simp [Functor.map, Except.map]
  | ok a => simp [Functor.map, Except.map]

theorem mapM_ok_iff {e : α → Except ε β} {l : List α} {bs : List β} :
    l.mapM e = .ok bs ↔ List.Forall₂ (fun a b => e a = .ok b) l bs := by
  induction l generalizing bs with
  | nil =>
      rw [List.mapM_nil, List.forall₂_nil_left_iff]
      exact ⟨fun h => (Except.ok.inj h).symm, fun h => congrArg Except.ok h.symm⟩
  | cons a l ih =>
      rw [List.mapM_cons, List.forall₂_cons_left_iff]
      cases ha : e a with
      | error e => simp [bind, Except.bind]
      | ok b =>
          cases hl : l.mapM e with
          | error e =>
              simp only [bind, Except.bind, reduceCtorEq, false_iff]
              rintro ⟨b', bs', -, hbs, -⟩
              rw [hl] at ih
              exact absurd (ih.mpr hbs) (by simp)
          | ok bs' =>
              rw [hl] at ih
              simp only [bind, Except.bind, pure, Except.pure, Except.ok.injEq]
              constructor
              · rintro rfl
                exact ⟨b, bs', rfl, ih.mp rfl, rfl⟩
              · rintro ⟨b', bs'', rfl, hbs, rfl⟩
                rw [Except.ok.inj (ih.mpr hbs)]

/-- Of two lists related place by place, every element of the second has a partner in the first. -/
theorem exists_mem_of_forall₂ {R : α → β → Prop} {l : List α} {m : List β} (hrelated : List.Forall₂ R l m) {b : β}
    (hb : b ∈ m) : ∃ a ∈ l, R a b := by
  induction hrelated with
  | nil => contradiction
  | cons hfirst _ ih =>
      rcases List.mem_cons.mp hb with rfl | hb
      · exact ⟨_, List.mem_cons_self, hfirst⟩
      · obtain ⟨a, ha, hab⟩ := ih hb
        exact ⟨a, List.mem_cons_of_mem _ ha, hab⟩

/-- A loop succeeds if every round does. -/
theorem exists_mapM_ok_iff {e : α → Except ε β} {l : List α} :
    (∃ bs, l.mapM e = .ok bs) ↔ ∀ a ∈ l, ∃ b, e a = .ok b := by
  simp only [mapM_ok_iff]
  induction l with
  | nil => simp
  | cons a l ih =>
      simp only [List.forall₂_cons_left_iff, List.forall_mem_cons, ← ih]
      constructor
      · rintro ⟨_, b, bs, hb, hbs, rfl⟩
        exact ⟨⟨b, hb⟩, bs, hbs⟩
      · rintro ⟨⟨b, hb⟩, bs, hbs⟩
        exact ⟨b :: bs, b, bs, hb, hbs, rfl⟩

/-- The results of a loop are those of its rounds. -/
theorem mem_of_mapM_ok {e : α → Except ε β} {l : List α} {bs : List β} (hl : l.mapM e = .ok bs) {b : β} :
    b ∈ bs ↔ ∃ a ∈ l, e a = .ok b := by
  have hrounds := mapM_ok_iff.mp hl
  clear hl
  induction hrounds with
  | nil => simp
  | cons ha _ ih => simp [ih, ha, eq_comm]

/-- A loop over partial results succeeds if every round does. -/
theorem isSome_mapM_iff {f : α → Option β} {l : List α} :
    (l.mapM f).isSome = true ↔ ∀ a ∈ l, (f a).isSome = true := by
  induction l with
  | nil => simp
  | cons a l ih =>
      rw [List.mapM_cons, List.forall_mem_cons, ← ih]
      cases f a <;> cases l.mapM f <;> simp

/-- Before the element where a search ends, no element gives a result. -/
theorem findSomeM?_ok_some_iff {f : α → Except ε (Option β)} {l : List α} {b : β} :
    l.findSomeM? f = .ok (some b) ↔
      ∃ before a after, l = before ++ a :: after ∧ (∀ other ∈ before, f other = .ok none) ∧ f a = .ok (some b) := by
  induction l with
  | nil =>
      rw [List.findSomeM?_nil]
      constructor
      · intro h
        cases h
      · rintro ⟨before, a, after, hnil, -⟩
        exact absurd hnil (by simp)
  | cons first l ih =>
      rw [List.findSomeM?_cons, bind_eq_ok_iff]
      constructor
      · rintro ⟨result, hfirst, hrest⟩
        cases result with
        | some b' =>
            obtain rfl : b' = b := Option.some.inj (Except.ok.inj hrest)
            exact ⟨[], first, l, rfl, by simp, hfirst⟩
        | none =>
            obtain ⟨before, a, after, rfl, hbefore, ha⟩ := ih.mp hrest
            exact ⟨first :: before, a, after, rfl, List.forall_mem_cons.mpr ⟨hfirst, hbefore⟩, ha⟩
      · rintro ⟨before, a, after, hl, hbefore, ha⟩
        cases before with
        | nil =>
            obtain ⟨rfl, rfl⟩ := List.cons.inj hl
            exact ⟨some b, ha, rfl⟩
        | cons other before =>
            obtain ⟨rfl, rfl⟩ := List.cons.inj hl
            obtain ⟨hfirst, hbefore⟩ := List.forall_mem_cons.mp hbefore
            exact ⟨none, hfirst, ih.mpr ⟨before, a, after, rfl, hbefore, ha⟩⟩

theorem findSomeM?_ok_none_iff {f : α → Except ε (Option β)} {l : List α} :
    l.findSomeM? f = .ok none ↔ ∀ a ∈ l, f a = .ok none := by
  induction l with
  | nil => exact iff_of_true rfl (by simp)
  | cons first l ih =>
      rw [List.findSomeM?_cons, bind_eq_ok_iff, List.forall_mem_cons, ← ih]
      constructor
      · rintro ⟨result, hfirst, hrest⟩
        cases result with
        | some b => cases hrest
        | none => exact ⟨hfirst, hrest⟩
      · rintro ⟨hfirst, hrest⟩
        exact ⟨none, hfirst, hrest⟩

theorem findSomeM?_append {f : α → Except ε (Option β)} {l l' : List α} :
    (l ++ l').findSomeM? f = l.findSomeM? f >>= fun found =>
      match found with
      | some b => .ok (some b)
      | none => l'.findSomeM? f := by
  induction l with
  | nil => rfl
  | cons first l ih =>
      rw [List.cons_append, List.findSomeM?_cons, List.findSomeM?_cons, bind_assoc]
      refine bind_congr fun result => ?_
      cases result with
      | some b => rfl
      | none => exact ih

/-- A search in a list of lists is a search in their concatenation. -/
theorem findSomeM?_flatMap {f : β → Except ε (Option γ)} {g : α → List β} {l : List α} :
    (l.flatMap g).findSomeM? f = l.findSomeM? fun a => (g a).findSomeM? f := by
  induction l with
  | nil => rfl
  | cons first l ih =>
      rw [List.flatMap_cons, findSomeM?_append, List.findSomeM?_cons, ih]
      rfl

/-- A loop whose rounds may fail only in what they read is one loop that reads and one that does the rest. -/
theorem foldlM_reads {put : β → σ} {step : σ → α → Except ε σ} {e : α → Except ε γ} {update : β → γ → β}
    (hstep : ∀ acc a, step (put acc) a = (e a).map fun c => put (update acc c)) (acc : β) (l : List α) :
    l.foldlM step (put acc) = (l.mapM e).map fun cs => put (cs.foldl update acc) := by
  induction l generalizing acc with
  | nil =>
      rw [List.mapM_nil, List.foldlM_nil]
      rfl
  | cons a l ih =>
      rw [List.mapM_cons, List.foldlM_cons, hstep]
      cases e a with
      | error e => rfl
      | ok c =>
          have hrest := ih (update acc c)
          simp only [Except.map, bind, Except.bind] at hrest ⊢
          rw [hrest]
          cases l.mapM e <;> rfl

/-- A loop that appends to what it carries along collects what its rounds append. -/
theorem foldlM_appends {put : List β → σ} {step : σ → α → Except ε σ} {e : α → Except ε (List β)}
    (hstep : ∀ acc a, step (put acc) a = (e a).map fun new => put (acc ++ new)) (acc : List β) (l : List α) :
    l.foldlM step (put acc) = (l.mapM e).map fun new => put (acc ++ new.flatten) := by
  rw [foldlM_reads hstep]
  refine congrArg (Except.map · _) (funext fun new => congrArg put ?_)
  simpa using @List.foldl_append_eq_append _ _ new id acc

/-- The same for a loop that appends one element in every round. -/
theorem foldlM_pushes {put : List β → σ} {step : σ → α → Except ε σ} {e : α → Except ε β}
    (hstep : ∀ acc a, step (put acc) a = (e a).map fun b => put (acc ++ [b])) (acc : List β) (l : List α) :
    l.foldlM step (put acc) = (l.mapM e).map fun new => put (acc ++ new) := by
  rw [foldlM_reads hstep]
  refine congrArg (Except.map · _) (funext fun new => congrArg put ?_)
  rw [@List.foldl_append_eq_append _ _ new (fun b => [b]) acc, ← List.flatMap_def, List.flatMap_singleton']

end

/-! ### Loops that come again -/

section

variable {σ : Type} {step : σ → α → σ} {Settled : σ → α → Prop}

theorem settled_foldl (hkeep : ∀ s a b, Settled s a → Settled (step s b) a) {s : σ} {a : α} (hs : Settled s a)
    (l : List α) : Settled (l.foldl step s) a := by
  induction l generalizing s with
  | nil => exact hs
  | cons b l ih => exact ih (hkeep s a b hs)

/-- Where a round settles its element for good, and does nothing to what is settled, the loop settles all elements. -/
theorem settled_foldl_of_mem (hself : ∀ s a, Settled (step s a) a) (hkeep : ∀ s a b, Settled s a → Settled (step s b) a)
    {s : σ} {a : α} {l : List α} (ha : a ∈ l) : Settled (l.foldl step s) a := by
  induction l generalizing s with
  | nil => contradiction
  | cons b l ih =>
      rcases List.mem_cons.mp ha with rfl | hrest
      · exact settled_foldl hkeep (hself s a) l
      · exact ih hrest

theorem foldl_of_settled (hfix : ∀ s a, Settled s a → step s a = s) {s : σ} {l : List α} (hs : ∀ a ∈ l, Settled s a) :
    l.foldl step s = s := by
  induction l with
  | nil => rfl
  | cons a l ih =>
      obtain ⟨ha, hrest⟩ := List.forall_mem_cons.mp hs
      rw [List.foldl_cons, hfix s a ha, ih hrest]

end

end Lists
