import Mathlib.Data.List.Nodup
import Mathlib.Data.List.Perm.Basic
import Scorebook.Json.Value
import Scorebook.Word

/-!
# Members of interchange values

The members of an object that is written have different names, so what a reader finds under a name
does not depend on their order. A text can hold a value as it is if its whole numbers fit 64 bits
and its other numbers are finite.
-/

namespace Scorebook

namespace Json

/-- The members of an object, none for other values. -/
def members : Json → List (String × Json)
  | obj members => members
  | _ => []

/-- An object has the members of another value, in any order. -/
def Reorders (value written : Json) : Prop :=
  ∃ members, value = obj members ∧ members.Perm written.members

mutual

/-- Whether a text can hold a value as it is: whole numbers fit 64 bits and other numbers are
finite. -/
def isWritable : Json → Bool
  | int n => Word.isSigned n || Word.isUnsigned n
  | num x => x.isFinite
  | arr items => areWritable items
  | obj members => membersWritable members
  | _ => true

/-- Whether a text can hold all items of an array. -/
def areWritable : List Json → Bool
  | [] => true
  | item :: rest => isWritable item && areWritable rest

/-- Whether a text can hold the values of all members of an object. -/
def membersWritable : List (String × Json) → Bool
  | [] => true
  | (_, item) :: rest => isWritable item && membersWritable rest

end

/-- A list can be written if each of its items can. -/
theorem isWritable_map {α : Type} {encode : α → Json} {items : List α}
    (h : ∀ x ∈ items, (encode x).isWritable = true) :
    (arr (items.map encode)).isWritable = true := by
  unfold isWritable
  induction items with
  | nil => rfl
  | cons x rest ih =>
    obtain ⟨hx, hrest⟩ := List.forall_mem_cons.mp h
    simp [areWritable, hx, ih hrest]

/-- An object can be written if the values of its members can. -/
theorem membersWritable_iff {members : List (String × Json)} :
    membersWritable members = true ↔ ∀ member ∈ members, member.2.isWritable = true := by
  induction members with
  | nil => simp [membersWritable]
  | cons member rest ih => simp [membersWritable, ih]

/-- Members can be written together if they can be written apart. -/
theorem membersWritable_append {front back : List (String × Json)} :
    membersWritable (front ++ back) = true ↔
      membersWritable front = true ∧ membersWritable back = true := by
  simp [membersWritable_iff, or_imp, forall_and]

/-- A part that may be left out can be written if it can when it is there. -/
theorem membersWritable_optionalMember {α : Type} {name : String} {encode : α → Json}
    {part : Option α} (h : ∀ x, part = some x → (encode x).isWritable = true) :
    membersWritable (optionalMember name encode part) = true := by
  cases part with
  | none => rfl
  | some x => simp [optionalMember, membersWritable, h x rfl]

variable {first other : List (String × Json)} {name : String} {value : Json}

/-- Nothing is found under a name that no member has. -/
theorem member?_eq_none_iff :
    member? name first = none ↔ ∀ member ∈ first, member.1 ≠ name := by
  induction first with
  | nil => simp [member?]
  | cons entry rest ih =>
    rw [List.forall_mem_cons, ← ih, member?]
    cases member? name rest <;> simp

/-- What is found under a name is the value of the last member that has it. -/
theorem member?_eq_some_iff_last : member? name first = some value ↔
    ∃ before after, first = before ++ (name, value) :: after ∧
      ∀ member ∈ after, member.1 ≠ name := by
  simp only [← member?_eq_none_iff]
  induction first with
  | nil => simp [member?]
  | cons entry rest ih =>
    obtain ⟨key, item⟩ := entry
    constructor
    · intro hfound
      cases hlater : member? name rest with
      | some later =>
        obtain ⟨before, after, rfl, hafter⟩ := ih.mp (by simpa [member?, hlater] using hfound)
        exact ⟨(key, item) :: before, after, rfl, hafter⟩
      | none =>
        obtain ⟨rfl, rfl⟩ : key = name ∧ item = value := by simpa [member?, hlater] using hfound
        exact ⟨[], rest, rfl, hlater⟩
    · rintro ⟨before, after, hsplit, hafter⟩
      cases before with
      | nil =>
        obtain ⟨heq, rfl⟩ := List.cons.inj hsplit
        cases heq
        simp [member?, hafter]
      | cons head before =>
        have hfound := ih.mpr ⟨before, after, (List.cons.inj hsplit).2, hafter⟩
        simp [member?, hfound]

/-- Among members of different names, the one that is found is the one of that name. -/
theorem member?_eq_some_iff (hnodup : (first.map (·.1)).Nodup) :
    member? name first = some value ↔ (name, value) ∈ first := by
  induction first generalizing value with
  | nil => simp [member?]
  | cons entry rest ih =>
    obtain ⟨key, item⟩ := entry
    obtain ⟨hkey, hrest⟩ := List.nodup_cons.mp hnodup
    have hlater (item : Json) : member? name rest = some item ↔ (name, item) ∈ rest := ih hrest
    cases hfound : member? name rest with
    | some later =>
      have hne : name ≠ key := by
        rintro rfl
        exact hkey (List.mem_map.mpr ⟨_, (hlater later).mp hfound, rfl⟩)
      simp [member?, hfound, hne, ← hlater]
    | none =>
      have habsent : (name, value) ∉ rest := fun hmem => by
        rw [(hlater value).mpr hmem] at hfound
        cases hfound
      simp [member?, hfound, habsent, eq_comm]

/-- Members of different names are found in any order. -/
theorem member?_perm (hperm : first.Perm other) (hnodup : (other.map (·.1)).Nodup) :
    member? name first = member? name other := by
  have hmembers : (first.map (·.1)).Nodup := (hperm.map _).nodup_iff.mpr hnodup
  refine Option.ext fun value => ?_
  rw [member?_eq_some_iff hmembers, member?_eq_some_iff hnodup, hperm.mem_iff]

end Json

end Scorebook
