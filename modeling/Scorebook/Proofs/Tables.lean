import Mathlib.Data.List.Basic
import Mathlib.Data.List.Forall2
import Mathlib.Data.List.Induction
import Mathlib.Data.List.Nodup
import Scorebook.Keyed

/-!
# Tables as sets of entries

An ascending table holds one value for each of its keys, so looking a key up and finding an entry
of that key are the same. A table that is filled one key at a time is, up to the order, the list
of what was put in, as long as no key comes twice. Two tables that are filled alike stay alike.
-/

namespace Scorebook.Keyed

variable {κ ν : Type} [Ord κ] [Std.LawfulEqOrd κ]

/-- What a lookup finds is an entry of the table. -/
theorem mem_of_find? {key : κ} {value : ν} {table : List (κ × ν)}
    (h : find? key table = some value) : (key, value) ∈ table := by
  induction table with
  | nil => simp [find?] at h
  | cons entry rest ih =>
    obtain ⟨k, v⟩ := entry
    rcases hk : compare key k with _ | _ | _
    · simp [find?, hk] at h
    · obtain rfl := Std.LawfulEqOrd.eq_of_compare hk
      simp only [find?, hk, Option.some.injEq] at h
      simp [h]
    · simp only [find?, hk] at h
      exact List.mem_cons_of_mem _ (ih h)

omit [Std.LawfulEqOrd κ] in
/-- Changing all values changes what a lookup finds. -/
theorem find?_map_values {μ : Type} (f : ν → μ) (key : κ) (table : List (κ × ν)) :
    find? key (table.map fun entry => (entry.1, f entry.2)) = (find? key table).map f := by
  induction table with
  | nil => rfl
  | cons entry rest ih =>
    obtain ⟨k, v⟩ := entry
    rcases hk : compare key k with _ | _ | _ <;> simp [find?, hk, ih]

/-- Altering a key that is absent adds one entry. -/
theorem alter_perm {key : κ} {table : List (κ × ν)} (hkey : key ∉ table.map (·.1))
    (f : Option ν → ν) : (alter key f table).Perm ((key, f none) :: table) := by
  induction table with
  | nil => simp [alter]
  | cons entry rest ih =>
    obtain ⟨k, v⟩ := entry
    simp only [List.map_cons, List.mem_cons, not_or] at hkey
    rcases hk : compare key k with _ | _ | _
    · simp [alter, hk]
    · exact absurd (Std.LawfulEqOrd.eq_of_compare hk) hkey.1
    · simp only [alter, hk]
      exact ((ih hkey.2).cons _).trans (List.Perm.swap _ _ _)

/-- What holds of all entries of a table holds after a key is altered, if it holds of what the key
gets. -/
theorem forall_mem_alter (P : κ → ν → Prop) {key : κ} {f : Option ν → ν} {table : List (κ × ν)}
    (h : ∀ entry ∈ table, P entry.1 entry.2) (hnew : P key (f none))
    (hold : ∀ value, (key, value) ∈ table → P key (f (some value))) :
    ∀ entry ∈ alter key f table, P entry.1 entry.2 := by
  induction table with
  | nil => simpa [alter] using hnew
  | cons entry rest ih =>
    obtain ⟨k, v⟩ := entry
    obtain ⟨hentry, hrest⟩ := List.forall_mem_cons.mp h
    rcases hk : compare key k with _ | _ | _
    · simp only [alter, hk]
      exact List.forall_mem_cons.mpr ⟨hnew, h⟩
    · obtain rfl := Std.LawfulEqOrd.eq_of_compare hk
      simp only [alter, hk]
      exact List.forall_mem_cons.mpr ⟨hold v (by simp), hrest⟩
    · simp only [alter, hk]
      exact List.forall_mem_cons.mpr
        ⟨hentry, ih hrest fun value hvalue => hold value (List.mem_cons_of_mem _ hvalue)⟩

/-- If altering a key adds one item to those that its value stands for, it adds one item to those
that the table stands for. -/
theorem flatMap_alter_perm {β : Type} (items : κ → ν → List β) {key : κ} {f : Option ν → ν}
    {item : β} {table : List (κ × ν)} (hnew : (items key (f none)).Perm [item])
    (hold : ∀ value, (key, value) ∈ table →
      (items key (f (some value))).Perm (item :: items key value)) :
    ((alter key f table).flatMap fun entry => items entry.1 entry.2).Perm
      (item :: table.flatMap fun entry => items entry.1 entry.2) := by
  induction table with
  | nil => simpa [alter] using hnew
  | cons entry rest ih =>
    obtain ⟨k, v⟩ := entry
    rcases hk : compare key k with _ | _ | _
    · simpa [alter, hk] using hnew.append_right _
    · obtain rfl := Std.LawfulEqOrd.eq_of_compare hk
      simpa [alter, hk] using (hold v (by simp)).append_right _
    · have hrest := ih fun value hvalue => hold value (List.mem_cons_of_mem _ hvalue)
      have hmoved := (hrest.append_left (items k v)).trans List.perm_middle
      simpa [alter, hk] using hmoved

variable {σ : Type} (key : σ → κ) (f : σ → Option ν → ν)

/-- Altering the keys of some items one after another adds an entry for each of them, if no key
comes twice. -/
theorem foldl_alter_perm_append {items : List σ} {table : List (κ × ν)}
    (hnodup : (table.map (·.1) ++ items.map key).Nodup) :
    (items.foldl (fun table x => alter (key x) (f x) table) table).Perm
      (table ++ items.map fun x => (key x, f x none)) := by
  induction items generalizing table with
  | nil => simp
  | cons x rest ih =>
    have hx : key x ∉ table.map (·.1) := by
      have hdisjoint := (List.nodup_append.mp hnodup).2.2
      exact fun hmem => hdisjoint _ hmem _ (by simp) rfl
    have hadded := alter_perm hx (f x)
    have hkeys : ((alter (key x) (f x) table).map (·.1) ++ rest.map key).Perm
        (table.map (·.1) ++ (x :: rest).map key) := by
      refine ((hadded.map (·.1)).append_right _).trans ?_
      simpa using List.perm_middle.symm
    refine (ih (hkeys.nodup_iff.mpr hnodup)).trans ?_
    refine (hadded.append_right _).trans ?_
    simpa using List.perm_middle.symm

/-- A table that is filled from nothing has an entry for each item, if no key comes twice. -/
theorem foldl_alter_perm {items : List σ} (hnodup : (items.map key).Nodup) :
    (items.foldl (fun table x => alter (key x) (f x) table) []).Perm
      (items.map fun x => (key x, f x none)) := by
  have hadded : (([] : List (κ × ν)).map (·.1) ++ items.map key).Nodup := by simpa using hnodup
  simpa using foldl_alter_perm_append key f hadded

/-- A table of pairs has the pairs as entries, if no key comes twice. -/
theorem ofList_perm {pairs : List (κ × ν)} (hnodup : (pairs.map (·.1)).Nodup) :
    (ofList pairs).Perm pairs := by
  simpa [ofList, put] using foldl_alter_perm Prod.fst (fun pair _ => pair.2) hnodup

/-- The keys of a table that is filled from nothing are the keys of the items. -/
theorem mem_keys_foldl_alter {items : List σ} {table : List (κ × ν)} {k : κ} :
    k ∈ (items.foldl (fun table x => alter (key x) (f x) table) table).map (·.1) ↔
      k ∈ table.map (·.1) ∨ k ∈ items.map key := by
  induction items generalizing table with
  | nil => simp
  | cons x rest ih =>
    rw [List.foldl_cons, ih, mem_keys_alter, List.map_cons, List.mem_cons, or_assoc]
    exact or_left_comm

variable [Std.TransOrd κ]

/-- Altering keys one after another keeps a table ascending. -/
theorem Ascending.foldl_alter {items : List σ} {table : List (κ × ν)} (h : Ascending table) :
    Ascending (items.foldl (fun table x => Keyed.alter (key x) (f x) table) table) := by
  induction items generalizing table with
  | nil => exact h
  | cons x rest ih => exact ih (h.alter (key x) (f x))

omit [Std.LawfulEqOrd κ] in
/-- A key that is smaller than another is a different key. -/
theorem ne_of_compare_lt {k other : κ} (h : compare k other = .lt) : k ≠ other := by
  rintro rfl
  simp [Std.ReflOrd.compare_self] at h

omit [Std.LawfulEqOrd κ] in
/-- An ascending table has no key twice. -/
theorem Ascending.nodup_keys {table : List (κ × ν)} (h : Ascending table) :
    (table.map (·.1)).Nodup :=
  List.pairwise_map.mpr (h.imp ne_of_compare_lt)

omit [Std.LawfulEqOrd κ] [Std.TransOrd κ] in
/-- Whether a table is ascending depends on its keys alone. -/
theorem Ascending.of_keys_eq {μ : Type} {table : List (κ × ν)} {other : List (κ × μ)}
    (h : Ascending table) (hkeys : other.map (·.1) = table.map (·.1)) : Ascending other := by
  have hpairwise : (table.map (·.1)).Pairwise fun k l => compare k l = .lt :=
    List.pairwise_map.mpr h
  rw [← hkeys] at hpairwise
  exact List.pairwise_map.mp hpairwise

/-- In an ascending table, looking up a key finds exactly its entry. -/
theorem Ascending.find?_eq_some_iff {table : List (κ × ν)} (h : Ascending table) {k : κ} {v : ν} :
    find? k table = some v ↔ (k, v) ∈ table := by
  refine ⟨mem_of_find?, fun hmem => ?_⟩
  induction table with
  | nil => simp at hmem
  | cons entry rest ih =>
    obtain ⟨hfirst, hrest⟩ := List.pairwise_cons.mp h
    rcases List.mem_cons.mp hmem with rfl | hmem
    · simp [find?]
    · have hgt : compare k entry.1 = .gt := Std.OrientedCmp.gt_iff_lt.mpr (hfirst _ hmem)
      simp [find?, hgt, ih hrest hmem]

/-- In an ascending table, exactly the keys of the table are found. -/
theorem Ascending.exists_find?_iff {table : List (κ × ν)} (h : Ascending table) {k : κ} :
    (∃ v, find? k table = some v) ↔ k ∈ table.map (·.1) := by
  simp [h.find?_eq_some_iff]

/-- Altering a key of an ascending table changes its entry in place. -/
theorem Ascending.alter_eq_map [DecidableEq κ] {table : List (κ × ν)} (h : Ascending table)
    {k : κ} (hk : k ∈ table.map (·.1)) (g : Option ν → ν) :
    Keyed.alter k g table =
      table.map fun entry => (entry.1, if entry.1 = k then g (some entry.2) else entry.2) := by
  induction table with
  | nil => simp at hk
  | cons entry rest ih =>
    obtain ⟨hfirst, hrest⟩ := List.pairwise_cons.mp h
    rcases List.mem_cons.mp hk with rfl | hk
    · have hothers : ∀ other ∈ rest, other.1 ≠ entry.1 := fun other hother =>
        (ne_of_compare_lt (hfirst other hother)).symm
      have hrest : rest.map (fun other =>
          (other.1, if other.1 = entry.1 then g (some other.2) else other.2)) = rest := by
        conv_rhs => rw [← List.map_id rest]
        exact List.map_congr_left fun other hother => by simp [hothers other hother]
      simp [Keyed.alter, hrest]
    · obtain ⟨other, hother, rfl⟩ := List.mem_map.mp hk
      have hlt := hfirst other hother
      have hgt : compare other.1 entry.1 = .gt := Std.OrientedCmp.gt_iff_lt.mpr hlt
      simp [Keyed.alter, hgt, ne_of_compare_lt hlt, ih hrest hk]

/-- A later pair replaces an earlier one of the same key. -/
theorem find?_ofList_concat [DecidableEq κ] (pairs : List (κ × ν)) (pair : κ × ν) (k : κ) :
    find? k (ofList (pairs ++ [pair])) =
      if k = pair.1 then some pair.2 else find? k (ofList pairs) := by
  rw [ofList, List.foldl_append, List.foldl_cons, List.foldl_nil]
  split_ifs with hk
  · rw [hk]
    exact find?_alter_self _ _ _
  · exact find?_alter_of_ne hk _ _

/-- A table of pairs is ascending. -/
theorem ascending_ofList (pairs : List (κ × ν)) : Ascending (ofList pairs) :=
  Ascending.foldl_alter Prod.fst (fun pair _ => pair.2) List.Pairwise.nil

/-- Looking up a key in a table of pairs finds the pair of that key, if pairs of one key have one
value. -/
theorem find?_ofList_iff [DecidableEq κ] {pairs : List (κ × ν)}
    (hpairs : ∀ pair ∈ pairs, ∀ other ∈ pairs, pair.1 = other.1 → pair.2 = other.2) {k : κ}
    {v : ν} : find? k (ofList pairs) = some v ↔ (k, v) ∈ pairs := by
  induction pairs using List.reverseRecOn with
  | nil => simp [ofList, find?]
  | append_singleton pairs pair ih =>
    have hbefore : ∀ first ∈ pairs, ∀ other ∈ pairs, first.1 = other.1 → first.2 = other.2 :=
      fun first hfirst other hother =>
        hpairs first (List.mem_append_left _ hfirst) other (List.mem_append_left _ hother)
    rw [find?_ofList_concat]
    split_ifs with hk
    · constructor
      · intro hv
        obtain rfl := Option.some.inj hv
        simp [hk]
      · intro hmem
        exact congrArg some (hpairs pair (by simp) (k, v) hmem hk.symm)
    · rw [ih hbefore, List.mem_append, List.mem_singleton]
      refine (or_iff_left fun heq => hk ?_).symm
      rw [← heq]

section Alike

variable {μ : Type} {related : ν → μ → Prop} {table : List (κ × ν)} {other : List (κ × μ)}

/-- Two tables have the same keys in the same order, with values that are related key by key. -/
def Alike (related : ν → μ → Prop) (table : List (κ × ν)) (other : List (κ × μ)) : Prop :=
  List.Forall₂ (fun x y => x.1 = y.1 ∧ related x.2 y.2) table other

omit [Std.LawfulEqOrd κ] [Std.TransOrd κ] in
/-- Tables stay alike when the value of one key changes alike in both. -/
theorem Alike.alter (h : Alike related table other) (key : κ) {f : Option ν → ν}
    {g : Option μ → μ} (hnew : related (f none) (g none))
    (hold : ∀ x y, related x y → related (f (some x)) (g (some y))) :
    Alike related (Keyed.alter key f table) (Keyed.alter key g other) := by
  induction h with
  | nil => exact .cons ⟨rfl, hnew⟩ .nil
  | @cons x y rest rest' hentry hrest ih =>
    obtain ⟨k, v⟩ := x
    obtain ⟨k', w⟩ := y
    obtain ⟨rfl, hvalue⟩ := hentry
    rcases hk : compare key k with _ | _ | _
    · simp only [Keyed.alter, hk]
      exact .cons ⟨rfl, hnew⟩ (.cons ⟨rfl, hvalue⟩ hrest)
    · simp only [Keyed.alter, hk]
      exact .cons ⟨rfl, hold v w hvalue⟩ hrest
    · simp only [Keyed.alter, hk]
      exact .cons ⟨rfl, hvalue⟩ ih

omit [Std.LawfulEqOrd κ] [Std.TransOrd κ] in
/-- Pairs that are alike give tables that are alike. -/
theorem Alike.ofList (h : Alike related table other) :
    Alike related (Keyed.ofList table) (Keyed.ofList other) := by
  suffices hfold : ∀ filled filled', Alike related filled filled' →
      Alike related (table.foldl (fun table pair => put pair.1 pair.2 table) filled)
        (other.foldl (fun table pair => put pair.1 pair.2 table) filled') from hfold [] [] .nil
  induction h with
  | nil => exact fun _ _ hfilled => hfilled
  | @cons x y rest rest' hentry hrest ih =>
    obtain ⟨k, v⟩ := x
    obtain ⟨k', w⟩ := y
    obtain ⟨rfl, hvalue⟩ := hentry
    exact fun filled filled' hfilled => ih _ _ (hfilled.alter k hvalue fun _ _ _ => hvalue)

omit [Ord κ] [Std.LawfulEqOrd κ] [Std.TransOrd κ] in
/-- The values of a table are the images of those of another, key by key, exactly if the table is
the image of the other. -/
theorem alike_iff_eq_map {f : ν → μ} : Alike (fun v w => w = f v) table other ↔
    other = table.map fun entry => (entry.1, f entry.2) := by
  have hpairs : (fun (x : κ × ν) (y : κ × μ) => x.1 = y.1 ∧ y.2 = f x.2) =
      fun x y => (x.1, f x.2) = y := by
    funext x y
    simp [Prod.ext_iff, eq_comm]
  rw [Alike, hpairs, ← List.forall₂_map_left_iff, List.forall₂_eq_eq_eq, eq_comm]

end Alike

end Scorebook.Keyed
