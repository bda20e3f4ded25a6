import Mathlib.Algebra.GroupWithZero.Nat
import Mathlib.Order.Lattice
import Mathlib.Order.Defs.LinearOrder
import Mathlib.Data.List.Induction

/-!
# Maps as association lists in key order

The entries of a `std::map`, in the order it iterates them. Lookup and insertion work on any list; sortedness is what makes two maps with the same lookups equal, and what makes inserting the entries of a map one by one rebuild it.
-/

namespace SortedAssoc

variable {α β γ : Type} [LinearOrder α]

def find? (key : α) : List (α × β) → Option β
  | [] => none
  | (key', value) :: rest => if key = key' then some value else find? key rest

/-- Insert an entry at its place, replacing the value of an existing key. -/
def insert (key : α) (value : β) : List (α × β) → List (α × β)
  | [] => [(key, value)]
  | (key', value') :: rest =>
      if key < key' then (key, value) :: (key', value') :: rest
      else if key = key' then (key, value) :: rest
      else (key', value') :: insert key value rest

def erase (key : α) (entries : List (α × β)) : List (α × β) := entries.filter fun entry => entry.1 ≠ key

/-- The keys are strictly increasing. -/
def Sorted (entries : List (α × β)) : Prop := entries.Pairwise fun left right => left.1 < right.1

instance (entries : List (α × β)) : Decidable (Sorted entries) :=
  inferInstanceAs (Decidable (List.Pairwise _ _))

@[simp] theorem find?_nil (key : α) : find? key ([] : List (α × β)) = none := rfl

theorem find?_insert (key key' : α) (value : β) (entries : List (α × β)) :
    find? key (insert key' value entries) = if key = key' then some value else find? key entries := by
  induction entries with
  | nil => rfl
  | cons entry rest ih =>
      obtain ⟨first, firstValue⟩ := entry
      by_cases hlt : key' < first
      · simp only [insert, if_pos hlt, find?]
      · by_cases heq : key' = first
        · subst heq
          simp only [insert, if_neg hlt, if_true, find?]
          split <;> rfl
        · simp only [insert, if_neg hlt, if_neg heq, find?, ih]
          by_cases hkey : key = first
          · have hne : key ≠ key' := fun he => heq (he.symm.trans hkey)
            simp only [if_pos hkey, if_neg hne]
          · simp only [if_neg hkey]

@[simp] theorem find?_insert_self (key : α) (value : β) (entries : List (α × β)) :
    find? key (insert key value entries) = some value := by
  rw [find?_insert, if_pos rfl]

theorem mem_of_find? {key : α} {value : β} {entries : List (α × β)} (h : find? key entries = some value) :
    (key, value) ∈ entries := by
  induction entries with
  | nil => simp at h
  | cons entry rest ih =>
      rw [find?] at h
      split at h
      · obtain rfl : entry.2 = value := Option.some.inj h
        rename_i he
        subst he
        exact List.mem_cons_self
      · exact List.mem_cons_of_mem _ (ih h)

theorem find?_of_mem {entries : List (α × β)} (hsorted : Sorted entries) {key : α} {value : β}
    (hmem : (key, value) ∈ entries) : find? key entries = some value := by
  induction entries with
  | nil => simp at hmem
  | cons head rest ih =>
      obtain ⟨hhead, hrest⟩ := List.pairwise_cons.mp hsorted
      rcases List.mem_cons.mp hmem with rfl | hmem
      · rw [find?, if_pos rfl]
      · rw [find?, if_neg (hhead _ hmem).ne', ih hrest hmem]

theorem mem_insert {key : α} {value : β} {entries : List (α × β)} {entry : α × β}
    (h : entry ∈ insert key value entries) : entry = (key, value) ∨ entry ∈ entries := by
  induction entries with
  | nil => exact Or.inl (List.mem_singleton.mp h)
  | cons head rest ih =>
      rw [insert] at h
      split at h
      · exact (List.mem_cons.mp h).imp_right id
      · split at h
        · rcases List.mem_cons.mp h with rfl | hmem
          · exact Or.inl rfl
          · exact Or.inr (List.mem_cons_of_mem _ hmem)
        · rcases List.mem_cons.mp h with rfl | hmem
          · exact Or.inr List.mem_cons_self
          · exact (ih hmem).imp_right (List.mem_cons_of_mem _)

theorem sorted_insert {entries : List (α × β)} (h : Sorted entries) (key : α) (value : β) :
    Sorted (insert key value entries) := by
  induction entries with
  | nil => exact List.pairwise_singleton _ _
  | cons head rest ih =>
      obtain ⟨hhead, hrest⟩ := List.pairwise_cons.mp h
      rw [insert]
      split
      · rename_i hlt
        refine List.pairwise_cons.mpr ⟨fun entry hmem => ?_, h⟩
        rcases List.mem_cons.mp hmem with rfl | hmem
        · exact hlt
        · exact hlt.trans (hhead entry hmem)
      · split
        · rename_i heq
          exact List.pairwise_cons.mpr ⟨fun entry hmem => heq ▸ hhead entry hmem, hrest⟩
        · rename_i hlt heq
          refine List.pairwise_cons.mpr ⟨fun entry hmem => ?_, ih hrest⟩
          rcases mem_insert hmem with rfl | hmem
          · exact lt_of_le_of_ne (not_lt.mp hlt) (Ne.symm heq)
          · exact hhead entry hmem

/-- An entry under another key stays. -/
theorem mem_insert_of_ne {entries : List (α × β)} (hsorted : Sorted entries) {key : α} (value : β) {entry : α × β}
    (hmem : entry ∈ entries) (hne : entry.1 ≠ key) : entry ∈ insert key value entries := by
  have hfind : find? entry.1 (insert key value entries) = some entry.2 := by
    rw [find?_insert, if_neg hne, find?_of_mem hsorted hmem]
  exact mem_of_find? hfind

theorem find?_erase (key key' : α) (entries : List (α × β)) :
    find? key (erase key' entries) = if key = key' then none else find? key entries := by
  induction entries with
  | nil => simp [erase]
  | cons head rest ih =>
      rw [erase] at ih ⊢
      by_cases hhead : head.1 = key'
      · rw [List.filter_cons_of_neg (by simpa using hhead), ih, find?]
        split
        · rfl
        · rename_i hkey
          rw [if_neg fun he => hkey (he.trans hhead)]
      · rw [List.filter_cons_of_pos (by simpa using hhead), find?, find?, ih]
        by_cases hkey : key = head.1
        · rw [if_pos hkey, if_pos hkey, if_neg fun he => hhead (hkey.symm.trans he)]
        · rw [if_neg hkey, if_neg hkey]

theorem erase_of_find?_none {key : α} {entries : List (α × β)} (hnew : find? key entries = none) :
    erase key entries = entries := by
  induction entries with
  | nil => rfl
  | cons head rest ih =>
      rw [find?] at hnew
      split at hnew
      · simp at hnew
      · rename_i hkey
        rw [erase, List.filter_cons_of_pos (by simpa using Ne.symm hkey)]
        exact congrArg (head :: ·) (ih hnew)

/-- Erasing a new key takes its insertion back. -/
theorem erase_insert {key : α} (value : β) {entries : List (α × β)} (hnew : find? key entries = none) :
    erase key (insert key value entries) = entries := by
  induction entries with
  | nil => simp [insert, erase]
  | cons head rest ih =>
      have hwhole := erase_of_find?_none hnew
      rw [find?] at hnew
      split at hnew
      · simp at hnew
      · rename_i hkey
        rw [insert, if_neg hkey]
        split
        · rw [erase, List.filter_cons_of_neg (by simp)]
          exact hwhole
        · rw [erase, List.filter_cons_of_pos (by simpa using Ne.symm hkey)]
          exact congrArg (head :: ·) (ih hnew)

/-- A key after all others is inserted at the end. -/
theorem insert_append {entries : List (α × β)} {key : α} {value : β}
    (hafter : ∀ entry ∈ entries, entry.1 < key) : insert key value entries = entries ++ [(key, value)] := by
  induction entries with
  | nil => rfl
  | cons head rest ih =>
      have hhead := hafter head List.mem_cons_self
      rw [insert, if_neg (not_lt.mpr hhead.le), if_neg (ne_of_gt hhead),
        ih fun entry hmem => hafter entry (List.mem_cons_of_mem _ hmem)]
      rfl

/-- A key before the last entry does not become the last one. -/
theorem getLast?_insert_before {entries : List (α × β)} {key : α} (value : β) (hsorted : Sorted entries)
    {after : α × β} (hmem : after ∈ entries) (hlt : key < after.1) :
    (insert key value entries).getLast? = entries.getLast? := by
  induction entries with
  | nil => contradiction
  | cons head rest ih =>
      obtain ⟨hhead, hrest⟩ := List.pairwise_cons.mp hsorted
      rw [insert]
      split
      · exact List.getLast?_cons_cons
      · rename_i hnot
        have hafter : after ∈ rest := by
          rcases List.mem_cons.mp hmem with rfl | hafter
          · exact absurd hlt hnot
          · exact hafter
        have hkeep : ∀ (first : α × β) (entries : List (α × β)), entries ≠ [] →
            (first :: entries).getLast? = entries.getLast? := by
          intro first entries hne
          obtain ⟨second, more, rfl⟩ := List.exists_cons_of_ne_nil hne
          exact List.getLast?_cons_cons
        have hne := List.ne_nil_of_mem hafter
        split
        · rw [hkeep _ _ hne, hkeep _ _ hne]
        · rw [hkeep _ _ hne, hkeep _ _ (List.ne_nil_of_mem (mem_of_find? (find?_insert_self key value rest))),
            ih hrest hafter]

theorem getLast?_insert_after {entries : List (α × β)} {key : α} (value : β)
    (hafter : ∀ entry ∈ entries, entry.1 < key) : (insert key value entries).getLast? = some (key, value) := by
  rw [insert_append hafter, List.getLast?_concat]

/-- A new key that does not come after all others comes before one. -/
theorem exists_after {entries : List (α × β)} {key : α} (hsorted : Sorted entries) (hnew : find? key entries = none)
    (hafter : ¬ ∀ entry ∈ entries, entry.1 < key) : ∃ entry ∈ entries, key < entry.1 := by
  push Not at hafter
  obtain ⟨entry, hmem, hle⟩ := hafter
  refine ⟨entry, hmem, lt_of_le_of_ne hle ?_⟩
  rintro rfl
  rw [find?_of_mem hsorted hmem] at hnew
  contradiction

/-- Inserting mapped entries in key order rebuilds the mapped list. -/
theorem foldl_insert_map (f : α × β → γ) {entries : List (α × β)} (h : Sorted entries) :
    entries.foldl (fun acc entry => insert entry.1 (f entry) acc) [] =
      entries.map fun entry => (entry.1, f entry) := by
  induction entries using List.reverseRecOn with
  | nil => rfl
  | append_singleton entries last ih =>
      obtain ⟨hentries, -, hlast⟩ := List.pairwise_append.mp h
      rw [List.foldl_append, ih hentries, List.foldl_cons, List.foldl_nil, insert_append]
      · simp
      · intro entry hmem
        obtain ⟨source, hsource, rfl⟩ := List.mem_map.mp hmem
        exact hlast source hsource last (List.mem_singleton.mpr rfl)

theorem sorted_map {entries : List (α × β)} (h : Sorted entries) (f : α × β → γ) :
    Sorted (entries.map fun entry => (entry.1, f entry)) :=
  List.pairwise_map.mpr (h.imp fun hlt => hlt)

/-! ### Totals -/

/-- A number for every value, summed up. -/
def total (f : β → Nat) (entries : List (α × β)) : Nat := (entries.map fun entry => f entry.2).sum

omit [LinearOrder α] in
@[simp] theorem total_cons (f : β → Nat) (entry : α × β) (entries : List (α × β)) :
    total f (entry :: entries) = f entry.2 + total f entries := List.sum_cons

theorem total_insert_new (f : β → Nat) {key : α} (value : β) {entries : List (α × β)}
    (hnew : find? key entries = none) : total f (insert key value entries) = f value + total f entries := by
  induction entries with
  | nil => rfl
  | cons head rest ih =>
      rw [find?] at hnew
      split at hnew
      · contradiction
      · rename_i hkey
        rw [insert, if_neg hkey]
        split
        · rfl
        · rw [total_cons, total_cons, ih hnew]
          exact Nat.add_left_comm _ _ _

/-- Replacing a value by one with the same number leaves the total. -/
theorem total_insert_same (f : β → Nat) {key : α} {value old : β} {entries : List (α × β)} (hsorted : Sorted entries)
    (hfind : find? key entries = some old) (hsame : f value = f old) :
    total f (insert key value entries) = total f entries := by
  induction entries with
  | nil => contradiction
  | cons head rest ih =>
      obtain ⟨hhead, hrest⟩ := List.pairwise_cons.mp hsorted
      rw [find?] at hfind
      split at hfind
      · rename_i hkey
        rw [insert, if_neg (by simp [hkey]), if_pos hkey, total_cons, total_cons, hsame, Option.some.inj hfind]
      · rename_i hkey
        have hlt := hhead _ (mem_of_find? hfind)
        rw [insert, if_neg (not_lt.mpr hlt.le), if_neg hkey, total_cons, total_cons, ih hrest hfind]

theorem total_erase_le (f : β → Nat) (key : α) (entries : List (α × β)) :
    total f (erase key entries) ≤ total f entries := by
  induction entries with
  | nil => exact le_rfl
  | cons head rest ih =>
      rw [erase] at ih ⊢
      by_cases hkey : head.1 = key
      · rw [List.filter_cons_of_neg (by simpa using hkey), total_cons]
        omega
      · rw [List.filter_cons_of_pos (by simpa using hkey), total_cons, total_cons]
        omega

omit [LinearOrder α] in
theorem total_congr {f g : β → Nat} {entries : List (α × β)} (h : ∀ entry ∈ entries, f entry.2 = g entry.2) :
    total f entries = total g entries := by
  rw [total, total, List.map_congr_left h]

/-- An entry contributes its number. -/
theorem total_erase_of_mem (f : β → Nat) {key : α} {value : β} {entries : List (α × β)} (hsorted : Sorted entries)
    (hmem : (key, value) ∈ entries) : total f entries = f value + total f (erase key entries) := by
  induction entries with
  | nil => contradiction
  | cons head rest ih =>
      obtain ⟨hhead, hrest⟩ := List.pairwise_cons.mp hsorted
      rw [erase, total_cons]
      rcases List.mem_cons.mp hmem with rfl | hmem
      · have hkept : rest.filter (fun entry => entry.1 ≠ key) = rest := by
          rw [List.filter_eq_self]
          intro entry hentry
          simpa using (hhead entry hentry).ne'
        rw [List.filter_cons_of_neg (by simp), hkept]
      · have hne : head.1 ≠ key := (hhead _ hmem).ne
        rw [List.filter_cons_of_pos (by simpa using hne), total_cons, ih hrest hmem, erase]
        omega

theorem sorted_erase {entries : List (α × β)} (h : Sorted entries) (key : α) : Sorted (erase key entries) :=
  h.filter _

end SortedAssoc
