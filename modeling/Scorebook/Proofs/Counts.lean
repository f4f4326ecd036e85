import Mathlib.Algebra.BigOperators.Group.Finset.Piecewise
import Mathlib.Algebra.GroupWithZero.Nat
import Mathlib.Data.List.Induction
import Mathlib.Data.Set.Operations
import Scorebook.Proofs.Tables

/-!
# Tables of counts

A table that counts the items of a list one after another holds each item once with the number of
its occurrences, in ascending order. A sum over the table is therefore a sum over the set of the
items.
-/

namespace Scorebook

/-- Renamed items occur as often as before, if different items get different names. -/
theorem count_map_of_injOn {β γ : Type} [BEq β] [LawfulBEq β] [BEq γ] [LawfulBEq γ] {f : β → γ}
    {s : Set β} (hf : Set.InjOn f s) {items : List β} (hitems : ∀ x ∈ items, x ∈ s) {x : β}
    (hx : x ∈ s) : (items.map f).count (f x) = items.count x := by
  rw [List.count, List.count, List.countP_map]
  exact List.countP_congr fun y hy => by simp [hf.eq_iff (hitems y hy) hx]

/-- Renaming items and removing repeats can change places, if different items get different
names. -/
theorem dedup_map_perm {β γ : Type} [DecidableEq β] [DecidableEq γ] {f : β → γ} {items : List β}
    (hf : Set.InjOn f {x | x ∈ items}) : (items.map f).dedup.Perm (items.dedup.map f) := by
  have hnodup : (items.dedup.map f).Nodup := items.nodup_dedup.map_on fun x hx y hy =>
    hf (List.mem_dedup.mp hx) (List.mem_dedup.mp hy)
  exact (List.perm_ext_iff_of_nodup (List.nodup_dedup _) hnodup).mpr fun y => by simp

/-- The counts of the items of a set add up to the number of those that are in the set. -/
theorem sum_count_eq_countP {β : Type} [DecidableEq β] [BEq β] [LawfulBEq β] (chosen : Finset β)
    (items : List β) : ∑ x ∈ chosen, items.count x = items.countP (· ∈ chosen) := by
  induction items with
  | nil => simp
  | cons item rest ih =>
    simp only [List.count_cons, List.countP_cons, Finset.sum_add_distrib, ih, beq_iff_eq,
      Finset.sum_ite_eq, decide_eq_true_eq]

namespace Keyed

variable {κ : Type} [Ord κ]

/-- The table that counts the items of a list. -/
def tally (items : List κ) : List (κ × ℕ) := items.foldl (fun table key => bump key table) []

/-- One more item is counted once more. -/
theorem tally_concat (items : List κ) (key : κ) :
    tally (items ++ [key]) = bump key (tally items) := by
  simp [tally]

variable [Std.LawfulEqOrd κ]

/-- If altering a key adds some amount to what its value weighs, it adds that amount to what the
table weighs. -/
theorem sum_alter {ν : Type} (weight : κ → ν → ℕ) {key : κ} {f : Option ν → ν} {added : ℕ}
    (hnew : weight key (f none) = added)
    (hold : ∀ value, weight key (f (some value)) = weight key value + added)
    (table : List (κ × ν)) :
    ((alter key f table).map fun entry => weight entry.1 entry.2).sum =
      (table.map fun entry => weight entry.1 entry.2).sum + added := by
  induction table with
  | nil => simp [alter, hnew]
  | cons entry rest ih =>
    obtain ⟨k, v⟩ := entry
    rcases hk : compare key k with _ | _ | _
    · simp only [alter, hk, List.map_cons, List.sum_cons, hnew]
      omega
    · obtain rfl := Std.LawfulEqOrd.eq_of_compare hk
      simp only [alter, hk, List.map_cons, List.sum_cons, hold]
      omega
    · simp only [alter, hk, List.map_cons, List.sum_cons, ih]
      omega

/-- The items are the keys. -/
theorem mem_keys_tally {items : List κ} {key : κ} :
    key ∈ (tally items).map (·.1) ↔ key ∈ items := by
  refine (mem_keys_foldl_alter id fun _ count => count.getD 0 + 1).trans ?_
  simp

variable [Std.TransOrd κ]

/-- The counts are in the order of the items. -/
theorem ascending_tally (items : List κ) : Ascending (tally items) :=
  Ascending.foldl_alter id (fun _ count => count.getD 0 + 1) List.Pairwise.nil

variable [DecidableEq κ] {items : List κ} {key : κ} {count : ℕ}

/-- Counting a key once more adds one to its count. -/
theorem countOf_bump (key other : κ) (table : List (κ × ℕ)) :
    countOf other (bump key table) = countOf other table + if other = key then 1 else 0 := by
  unfold countOf bump
  split_ifs with hkey
  · rw [hkey, find?_alter_self, Option.getD_some]
  · rw [find?_alter_of_ne hkey, Nat.add_zero]

/-- The count of an item is the number of its occurrences. -/
@[simp] theorem countOf_tally (key : κ) (items : List κ) :
    countOf key (tally items) = items.count key := by
  induction items using List.reverseRecOn with
  | nil => rfl
  | append_singleton items item ih =>
    rw [tally_concat, countOf_bump, ih, List.count_append, List.count_singleton]
    by_cases hkey : key = item
    · simp [hkey]
    · simp [hkey, Ne.symm hkey]

/-- The entries are the items with the number of their occurrences. -/
theorem mem_tally_iff : (key, count) ∈ tally items ↔ key ∈ items ∧ items.count key = count := by
  have hcount : ∀ found, (key, found) ∈ tally items → items.count key = found := by
    intro found hmem
    rw [← countOf_tally, countOf, (ascending_tally items).find?_eq_some_iff.mpr hmem]
    rfl
  constructor
  · exact fun hmem => ⟨mem_keys_tally.mp (List.mem_map_of_mem hmem), hcount _ hmem⟩
  · rintro ⟨hkey, rfl⟩
    obtain ⟨⟨_, found⟩, hmem, rfl⟩ := List.mem_map.mp (mem_keys_tally.mpr hkey)
    rwa [hcount found hmem]

/-- What holds of all entries of a table of counts holds of all counted items. -/
theorem forall_mem_tally (P : κ → ℕ → Prop) :
    (∀ entry ∈ tally items, P entry.1 entry.2) ↔ ∀ key ∈ items, P key (items.count key) := by
  constructor
  · intro h key hkey
    exact h (key, items.count key) (mem_tally_iff.mpr ⟨hkey, rfl⟩)
  · rintro h ⟨key, count⟩ hentry
    obtain ⟨hkey, rfl⟩ := mem_tally_iff.mp hentry
    exact h key hkey

/-- Looking up an item finds the number of its occurrences. -/
theorem find?_tally (items : List κ) (key : κ) :
    find? key (tally items) = if key ∈ items then some (items.count key) else none := by
  split_ifs with hkey
  · exact (ascending_tally items).find?_eq_some_iff.mpr (mem_tally_iff.mpr ⟨hkey, rfl⟩)
  · refine Option.eq_none_iff_forall_ne_some.mpr fun count hfound => hkey ?_
    exact (mem_tally_iff.mp (mem_of_find? hfound)).1

/-- The table lists each item once. -/
theorem tally_perm (items : List κ) :
    (tally items).Perm (items.dedup.map fun key => (key, items.count key)) := by
  have hnodup : (tally items).Nodup := .of_map _ (ascending_tally items).nodup_keys
  have hitems : (items.dedup.map fun key => (key, items.count key)).Nodup :=
    items.nodup_dedup.map fun _ _ heq => congrArg Prod.fst heq
  refine (List.perm_ext_iff_of_nodup hnodup hitems).mpr fun ⟨key, count⟩ => ?_
  simp [mem_tally_iff]

/-- The table of renamed items lists each item once under its new name, if different items get
different names. -/
theorem tally_map_perm {β : Type} [DecidableEq β] [BEq β] [LawfulBEq β] {f : β → κ}
    {items : List β} (hf : Set.InjOn f {x | x ∈ items}) :
    (tally (items.map f)).Perm (items.dedup.map fun x => (f x, items.count x)) := by
  refine (tally_perm _).trans (((dedup_map_perm hf).map _).trans ?_)
  rw [List.map_map]
  refine .of_eq (List.map_congr_left fun x hx => ?_)
  have hcount : (items.map f).count (f x) = items.count x :=
    count_map_of_injOn hf (fun _ hy => hy) (List.mem_dedup.mp hx)
  exact congrArg (Prod.mk (f x)) hcount

/-- The table has an entry for each different item. -/
theorem length_tally (items : List κ) : (tally items).length = items.toFinset.card := by
  rw [(tally_perm items).length_eq, List.length_map, List.card_toFinset]

/-- A sum over the table is a sum over the set of items. -/
theorem sum_tally {M : Type} [AddCommMonoid M] (f : κ → ℕ → M) (items : List κ) :
    ((tally items).map fun entry => f entry.1 entry.2).sum =
      ∑ key ∈ items.toFinset, f key (items.count key) := by
  have hitems : items.dedup.toFinset = items.toFinset := by
    ext key
    simp
  rw [((tally_perm items).map _).sum_eq, List.map_map, ← hitems,
    List.sum_toFinset _ items.nodup_dedup]
  rfl

/-- The counts add up to the number of items. -/
theorem sum_counts_tally (items : List κ) : ((tally items).map (·.2)).sum = items.length := by
  rw [sum_tally (fun _ count => count), sum_count_eq_countP]
  exact List.countP_eq_length.mpr fun key hkey => by simpa using hkey

end Keyed

end Scorebook
