/-!
# Ascending keyed lists

Counts, contingency tables and histograms are lists of keys with values, in ascending order of
the keys. A sum over such a table runs in that order, and that order is part of what a
statistic computed in doubles is. A table is seen through `find?`: changing one key changes its
value and no other, and keeps the order.
-/

namespace Scorebook

namespace Keyed

variable {κ ν : Type} [Ord κ]

/-- The value of a key. -/
def find? (key : κ) : List (κ × ν) → Option ν
  | [] => none
  | (k, v) :: rest =>
    match compare key k with
    | .lt => none
    | .eq => some v
    | .gt => find? key rest

/-- Replaces the value of a key by what a function makes of it. A key that is absent is put in
its place in the order. -/
def alter (key : κ) (f : Option ν → ν) : List (κ × ν) → List (κ × ν)
  | [] => [(key, f none)]
  | (k, v) :: rest =>
    match compare key k with
    | .lt => (key, f none) :: (k, v) :: rest
    | .eq => (key, f (some v)) :: rest
    | .gt => (k, v) :: alter key f rest

/-- Gives a key a value, in place of any earlier one. -/
def put (key : κ) (value : ν) : List (κ × ν) → List (κ × ν) := alter key fun _ => value

/-- Gives a key a value unless it has one. -/
def putNew (key : κ) (value : ν) : List (κ × ν) → List (κ × ν) := alter key (·.getD value)

/-- Counts one more occurrence of a key. -/
def bump (key : κ) : List (κ × Nat) → List (κ × Nat) := alter key fun count => count.getD 0 + 1

/-- The count of a key, zero when it is absent. -/
def countOf (key : κ) (table : List (κ × Nat)) : Nat := (find? key table).getD 0

/-- The values of a list of pairs by ascending key, a later pair replacing an earlier one of
the same key. -/
def ofList (pairs : List (κ × ν)) : List (κ × ν) :=
  pairs.foldl (fun table pair => put pair.1 pair.2 table) []

/-- Every key is smaller than all the keys behind it. -/
def Ascending (table : List (κ × ν)) : Prop :=
  table.Pairwise fun x y => compare x.1 y.1 = .lt

variable [Std.LawfulEqOrd κ]

/-- Altering a key gives it what the function makes of its value. -/
theorem find?_alter_self (key : κ) (f : Option ν → ν) (table : List (κ × ν)) :
    find? key (alter key f table) = some (f (find? key table)) := by
  induction table with
  | nil => simp [alter, find?]
  | cons entry rest ih =>
    obtain ⟨k, v⟩ := entry
    rcases h : compare key k with _ | _ | _ <;> simp [alter, find?, h, ih]

/-- The keys of an altered table are those of the table and the altered one. -/
theorem mem_keys_alter {key k : κ} {f : Option ν → ν} {table : List (κ × ν)} :
    k ∈ (alter key f table).map (·.1) ↔ k = key ∨ k ∈ table.map (·.1) := by
  induction table with
  | nil => simp [alter]
  | cons entry rest ih =>
    rcases h : compare key entry.1 with _ | _ | _
    · simp [alter, h]
    · have := Std.LawfulEqOrd.eq_of_compare h
      simp_all [alter]
    · simp only [alter, h, List.map_cons, List.mem_cons, ih]
      grind

variable [Std.TransOrd κ]

/-- Altering a key leaves the values of all other keys as they are. -/
theorem find?_alter_of_ne {key other : κ} (hne : other ≠ key) (f : Option ν → ν)
    (table : List (κ × ν)) : find? other (alter key f table) = find? other table := by
  have hcompare : compare other key ≠ .eq := fun h => hne (Std.LawfulEqOrd.eq_of_compare h)
  induction table with
  | nil => rcases h : compare other key with _ | _ | _ <;> simp_all [alter, find?]
  | cons entry rest ih =>
    obtain ⟨k, v⟩ := entry
    rcases hk : compare key k with _ | _ | _
    · rcases h : compare other key with _ | _ | _
      · simp [alter, find?, hk, h, Std.TransCmp.lt_trans h hk]
      · exact absurd h hcompare
      · simp [alter, find?, hk, h]
    · obtain rfl := Std.LawfulEqOrd.eq_of_compare hk
      rcases h : compare other key with _ | _ | _ <;> simp_all [alter, find?]
    · simp [alter, find?, hk, ih]

/-- Altering a key keeps a table ascending. -/
theorem Ascending.alter {table : List (κ × ν)} (h : Ascending table) (key : κ)
    (f : Option ν → ν) : Ascending (alter key f table) := by
  induction table with
  | nil => simp [Keyed.alter, Ascending]
  | cons entry rest ih =>
    obtain ⟨k, v⟩ := entry
    obtain ⟨hfirst, hrest⟩ := List.pairwise_cons.mp h
    rcases hk : compare key k with _ | _ | _
    · simp only [Keyed.alter, hk]
      refine List.pairwise_cons.mpr ⟨fun y hy => ?_, h⟩
      rcases List.mem_cons.mp hy with rfl | hy
      · exact hk
      · exact Std.TransCmp.lt_trans hk (hfirst y hy)
    · obtain rfl := Std.LawfulEqOrd.eq_of_compare hk
      simp only [Keyed.alter, hk]
      exact List.pairwise_cons.mpr ⟨hfirst, hrest⟩
    · simp only [Keyed.alter, hk]
      refine List.pairwise_cons.mpr ⟨fun y hy => ?_, ih hrest⟩
      rcases mem_keys_alter.mp (List.mem_map_of_mem hy) with hkey | hmem
      · rw [hkey]
        exact Std.OrientedCmp.gt_iff_lt.mp hk
      · obtain ⟨z, hz, hzy⟩ := List.mem_map.mp hmem
        rw [← hzy]
        exact hfirst z hz

end Keyed

end Scorebook
