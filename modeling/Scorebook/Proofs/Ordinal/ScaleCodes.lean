import Scorebook.Proofs.Exact
import Scorebook.Proofs.Scale

/-!
# Which values are on a scale

A raw value stands for a rank of a scale if it is the label of the rank, or if it is or spells a
number that is exactly the rank. Every such value has the rank as its code. Beside them, a whole
number that does not fit into 64 bits is taken for the nearest number that does, and if that is a
rank of the scale, the number is coded as this rank although it is another number.
-/

namespace Scorebook

namespace Binary64

/-- The whole number of a sign and a magnitude. -/
def signed (negative : Bool) (magnitude : ℕ) : ℤ := if negative then -magnitude else magnitude

/-- The value of a double in units of its exponent. -/
theorem value_finite (negative : Bool) (significand : ℕ) (exponent : ℤ) :
    (finite negative significand exponent).value =
      (signed negative significand : ℚ) * 2 ^ exponent := by
  cases negative <;> simp [value, signed]

/-- Scaling a magnitude scales the number. -/
theorem signed_mul (negative : Bool) (magnitude factor : ℕ) :
    signed negative (magnitude * factor) = signed negative magnitude * factor := by
  cases negative <;> simp [signed]

/-- A sign does not matter for divisibility. -/
theorem dvd_signed (negative : Bool) {magnitude unit : ℕ} :
    (unit : ℤ) ∣ signed negative magnitude ↔ unit ∣ magnitude := by
  cases negative <;> simp [signed, Int.natCast_dvd_natCast]

/-- A whole number is read off exactly the finite doubles whose value it is. -/
theorem toInt?_eq_some_iff (double : Binary64) (n : ℤ) :
    double.toInt? = some n ↔ double.isFinite = true ∧ (double.value : ℚ) = n := by
  cases double with
  | nan => simp [toInt?, isFinite]
  | infinite negative => simp [toInt?, isFinite]
  | finite negative significand exponent =>
    have hfinite : (finite negative significand exponent).isFinite = true := rfl
    rw [value_finite, and_iff_right hfinite]
    by_cases hexponent : 0 ≤ exponent
    · -- The unit is a whole number, so every value is one.
      obtain ⟨power, rfl⟩ := Int.eq_ofNat_of_zero_le hexponent
      have hread : (finite negative significand power).toInt? =
          some (signed negative (significand * 2 ^ power)) := by
        simp [toInt?, signed]
      rw [hread, Option.some.injEq, signed_mul, ← Int.cast_inj (α := ℚ)]
      push_cast
      rw [zpow_natCast]
    · -- The unit is a fraction, so a whole number is a multiple of its denominator.
      obtain ⟨power, rfl⟩ : ∃ power : ℕ, exponent = -power := ⟨(-exponent).toNat, by omega⟩
      have hpos : (0 : ℚ) < 2 ^ power := by positivity
      have hvalue : (signed negative significand : ℚ) * 2 ^ (-power : ℤ) = n ↔
          signed negative significand = n * (2 ^ power : ℕ) := by
        rw [zpow_neg, zpow_natCast, ← div_eq_mul_inv, div_eq_iff hpos.ne']
        exact_mod_cast Iff.rfl
      rw [hvalue]
      have hread : (finite negative significand (-power)).toInt? =
          if 2 ^ power ∣ significand then some (signed negative (significand / 2 ^ power))
          else none := by
        simp only [toInt?, signed, if_neg hexponent, neg_neg, Int.toNat_natCast, Nat.pow_eq,
          Nat.dvd_iff_mod_eq_zero]
      rw [hread]
      split_ifs with hdvd
      · obtain ⟨quotient, rfl⟩ := hdvd
        rw [Nat.mul_div_cancel_left _ (by positivity), mul_comm, signed_mul, Option.some.injEq]
        have hne : ((2 ^ power : ℕ) : ℤ) ≠ 0 := by positivity
        exact (mul_left_inj' hne).symm
      · refine iff_of_false (by simp) fun heq => hdvd ?_
        rw [← dvd_signed negative, heq]
        exact dvd_mul_left _ _

end Binary64

/-- A whole number fits into 64 bits if it lies between the ends of their range. -/
theorem Word.isSigned_iff {n : ℤ} : isSigned n = true ↔ least ≤ n ∧ n ≤ greatest := by
  simp [isSigned]

/-- The nearest number of 64 bits is the number itself where it fits, and the nearer end of the
range where it does not. -/
theorem Word.nearest_eq_iff {n rank : ℤ} (hrank : isSigned rank = true) :
    nearest n = rank ↔
      n = rank ∨ (n < least ∧ rank = least) ∨ (greatest < n ∧ rank = greatest) := by
  rw [isSigned_iff] at hrank
  simp only [least, greatest] at hrank
  simp only [nearest, least, greatest]
  omega

namespace Coder

/-- A double is exactly a whole number. -/
def IsExactly (x : Float) (n : ℤ) : Prop :=
  (Binary64.ofDouble x).isFinite = true ∧ ((Binary64.ofDouble x).value : ℚ) = n

/-- A double is exactly one whole number at most. -/
theorem IsExactly.unique {x : Float} {n m : ℤ} (hn : IsExactly x n) (hm : IsExactly x m) :
    n = m := by
  have hvalue : (n : ℚ) = m := hn.2.symm.trans hm.2
  exact_mod_cast hvalue

/-- The number that a raw value is on a scale: itself, or what a label spells that the scale does
not declare. -/
def numberOn? (scale : List ScaleEntry) : RawValue → Option Float
  | .number x => some x
  | .label text => if text ∈ scale.map (·.label) then none else RawValue.spelled? text

/-- A raw value stands for a rank of a scale: it is the label of the rank, or exactly the rank. -/
def StandsFor (scale : List ScaleEntry) (raw : RawValue) (rank : ℤ) : Prop :=
  (∃ text, raw = .label text ∧ ⟨text, rank⟩ ∈ scale) ∨
    ∃ x, numberOn? scale raw = some x ∧ IsExactly x rank ∧ rank ∈ scale.map (·.rank)

/-- A raw value is a whole number that does not fit into 64 bits, and the nearest number that does
is a rank of the scale. -/
def LiesBeyond (scale : List ScaleEntry) (raw : RawValue) (rank : ℤ) : Prop :=
  ∃ x n, numberOn? scale raw = some x ∧ IsExactly x n ∧ rank ∈ scale.map (·.rank) ∧
    ((n < Word.least ∧ rank = Word.least) ∨ (Word.greatest < n ∧ rank = Word.greatest))

/-- The code of a number is the nearest code to the whole number that it is. -/
theorem codeOfNumber?_eq_some_iff {x : Float} {code : ℤ} :
    codeOfNumber? x = some code ↔ ∃ n, IsExactly x n ∧ Word.nearest n = code := by
  simp only [codeOfNumber?, Option.map_eq_some_iff, Binary64.toInt?_eq_some_iff]
  rfl

variable {scale : List ScaleEntry}

/-- A number is on a scale with a declared rank that is the nearest code to it. -/
theorem rankOfNumber?_eq_some_iff {x : Float} {rank : ℤ} :
    rankOfNumber? scale x = some rank ↔
      rank ∈ scale.map (·.rank) ∧ ∃ n, IsExactly x n ∧ Word.nearest n = rank := by
  rw [rankOfNumber?, Option.filter_eq_some_iff, codeOfNumber?_eq_some_iff, and_comm]
  simp

/-- A label has the rank that it is declared with, if no label is declared twice. -/
theorem rankOfLabel?_eq_some_iff (hlabels : (scale.map (·.label)).Nodup) {text : String}
    {rank : ℤ} : rankOfLabel? scale text = some rank ↔ ⟨text, rank⟩ ∈ scale := by
  have hreverse : (scale.reverse.map (·.label)).Nodup := by
    rw [List.map_reverse]
    exact List.nodup_reverse.mpr hlabels
  rw [rankOfLabel?, Option.map_eq_some_iff]
  constructor
  · rintro ⟨entry, hfound, rfl⟩
    obtain ⟨hmem, rfl⟩ := (find?_eq_some_iff_of_nodup hreverse).mp hfound
    exact List.mem_reverse.mp hmem
  · intro hmem
    have hfound := (find?_eq_some_iff_of_nodup hreverse).mpr ⟨List.mem_reverse.mpr hmem, rfl⟩
    exact ⟨_, hfound, rfl⟩

/-- Exactly the labels that are not declared have no rank. -/
theorem rankOfLabel?_eq_none_iff {text : String} :
    rankOfLabel? scale text = none ↔ text ∉ scale.map (·.label) := by
  simp [rankOfLabel?]

/-- A raw value is coded by its label where that is declared, and otherwise by its number. -/
theorem rankOf?_eq_some_iff (hlabels : (scale.map (·.label)).Nodup) {raw : RawValue} {rank : ℤ} :
    rankOf? scale raw = some rank ↔
      (∃ text, raw = .label text ∧ ⟨text, rank⟩ ∈ scale) ∨
        ∃ x, numberOn? scale raw = some x ∧ rankOfNumber? scale x = some rank := by
  cases raw with
  | number x => simp [rankOf?, numberOn?]
  | label text =>
    cases hlabel : rankOfLabel? scale text with
    | none =>
      have hundeclared := rankOfLabel?_eq_none_iff.mp hlabel
      have hnot : (⟨text, rank⟩ : ScaleEntry) ∉ scale := fun hmem =>
        hundeclared (List.mem_map_of_mem hmem)
      simp [rankOf?, hlabel, numberOn?, hundeclared, hnot, Option.bind_eq_some_iff]
    | some declared =>
      have hdeclared : text ∈ scale.map (·.label) := by
        by_contra hundeclared
        rw [rankOfLabel?_eq_none_iff.mpr hundeclared] at hlabel
        cases hlabel
      simp [rankOf?, hlabel, numberOn?, hdeclared, ← rankOfLabel?_eq_some_iff hlabels]

/-- A raw value that stands for a rank of 64 bits does not lie beyond them. -/
theorem StandsFor.not_liesBeyond (hranks : ∀ entry ∈ scale, Word.isSigned entry.rank = true)
    {raw : RawValue} {rank : ℤ} (h : StandsFor scale raw rank) : ¬LiesBeyond scale raw rank := by
  rintro ⟨x, n, hnumber, hexact, hrank, hbeyond⟩
  rcases h with ⟨text, rfl, hmem⟩ | ⟨y, hnumber', hexact', -⟩
  · have hdeclared : text ∈ scale.map (·.label) := List.mem_map_of_mem hmem
    simp [numberOn?, hdeclared] at hnumber
  · obtain rfl := Option.some.inj (hnumber.symm.trans hnumber')
    obtain rfl := hexact.unique hexact'
    obtain ⟨entry, hentry, rfl⟩ := List.mem_map.mp hrank
    have hsigned := Word.isSigned_iff.mp (hranks entry hentry)
    omega

/-- Which codes the values of a scale have. A value has a rank as its code exactly if it stands for
the rank, or if it is a whole number beyond 64 bits and the rank is the end of their range next to
it, which are two different things. The coder stays as it is. -/
theorem ordinal_code_eq_some_iff (hlabels : (scale.map (·.label)).Nodup)
    (hranks : ∀ entry ∈ scale, Word.isSigned entry.rank = true) (raw : RawValue) (rank : ℤ) :
    ((ordinal scale).code raw = (some rank, ordinal scale) ↔
      StandsFor scale raw rank ∨ LiesBeyond scale raw rank) ∧
    ¬(StandsFor scale raw rank ∧ LiesBeyond scale raw rank) ∧
    ((ordinal scale).code raw).2 = ordinal scale := by
  refine ⟨?_, fun h => h.1.not_liesBeyond hranks h.2, rfl⟩
  have hcode : (ordinal scale).code raw = (some rank, ordinal scale) ↔
      rankOf? scale raw = some rank := by
    simp [ordinal, code]
  rw [hcode, rankOf?_eq_some_iff hlabels, StandsFor, LiesBeyond, or_assoc]
  refine or_congr_right ?_
  simp only [rankOfNumber?_eq_some_iff]
  have hnearest (hrank : rank ∈ scale.map (·.rank)) (n : ℤ) : Word.nearest n = rank ↔
      n = rank ∨ (n < Word.least ∧ rank = Word.least) ∨
        (Word.greatest < n ∧ rank = Word.greatest) := by
    obtain ⟨entry, hentry, rfl⟩ := List.mem_map.mp hrank
    exact Word.nearest_eq_iff (hranks entry hentry)
  constructor
  · rintro ⟨x, hnumber, hrank, n, hexact, hn⟩
    rcases (hnearest hrank n).mp hn with rfl | hbeyond
    · exact .inl ⟨x, hnumber, hexact, hrank⟩
    · exact .inr ⟨x, n, hnumber, hexact, hrank, hbeyond⟩
  · rintro (⟨x, hnumber, hexact, hrank⟩ | ⟨x, n, hnumber, hexact, hrank, hbeyond⟩)
    · exact ⟨x, hnumber, hrank, rank, hexact, (hnearest hrank rank).mpr (.inl rfl)⟩
    · exact ⟨x, hnumber, hrank, n, hexact, (hnearest hrank n).mpr (.inr hbeyond)⟩

/-- A label and a spelled rank on a scale with both ends of the range as ranks, and a value that is
not on it. -/
theorem ordinal_code_eq_some_iff_extreme_ranks :
    let scale : List ScaleEntry := [⟨"low", -0x8000000000000000⟩, ⟨"high", 0x7FFFFFFFFFFFFFFF⟩]
    (scale.map (·.label)).Nodup ∧ (∀ entry ∈ scale, Word.isSigned entry.rank = true) ∧
    ((ordinal scale).code (.label "high") = (some 0x7FFFFFFFFFFFFFFF, ordinal scale) ↔
      StandsFor scale (.label "high") 0x7FFFFFFFFFFFFFFF ∨
        LiesBeyond scale (.label "high") 0x7FFFFFFFFFFFFFFF) ∧
    ¬(StandsFor scale (.label "high") 0x7FFFFFFFFFFFFFFF ∧
      LiesBeyond scale (.label "high") 0x7FFFFFFFFFFFFFFF) ∧
    ((ordinal scale).code (.label "high")).2 = ordinal scale := by
  intro scale
  have hlabels : (scale.map (·.label)).Nodup := by decide
  have hranks : ∀ entry ∈ scale, Word.isSigned entry.rank = true := by decide
  exact ⟨hlabels, hranks, ordinal_code_eq_some_iff hlabels hranks _ _⟩

/-- The number `1e300` is no rank, and yet it has the greatest rank as its code where that is
declared. -/
theorem ordinal_code_of_huge_number :
    ¬∀ scale : List ScaleEntry, (scale.map (·.label)).Nodup → (scale.map (·.rank)).Nodup →
      (∀ entry ∈ scale, Word.isSigned entry.rank = true) → ∀ raw rank,
        ((ordinal scale).code raw = (some rank, ordinal scale) ↔ StandsFor scale raw rank) := by
  intro h
  let scale : List ScaleEntry := [⟨"high", 0x7FFFFFFFFFFFFFFF⟩]
  let huge : Float := .ofBits 0x7E37E43C8800759C
  have hcode : (ordinal scale).code (.number huge) = (some 0x7FFFFFFFFFFFFFFF, ordinal scale) := by
    have hrank : rankOfNumber? scale huge = some 0x7FFFFFFFFFFFFFFF := by decide +kernel
    simp [ordinal, code, rankOf?, hrank]
  rcases (h scale (by decide) (by decide) (by decide) _ _).mp hcode with
    ⟨text, htext, -⟩ | ⟨x, hx, hexact, -⟩
  · cases htext
  · obtain rfl := Option.some.inj hx
    have hread := (Binary64.toInt?_eq_some_iff _ _).mpr hexact
    revert hread
    decide +kernel

end Coder

end Scorebook
