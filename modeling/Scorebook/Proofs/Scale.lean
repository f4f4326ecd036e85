import Mathlib.Data.Int.Notation
import Scorebook.Proofs.Tables
import Scorebook.Score.Coder
import Scorebook.Score.Validation

/-!
# Usable scales

A usable scale has no label and, where ranks count, no rank twice. The coder of a scale knows
exactly the declared ranks, and gives a raw value no code outside of them.
-/

namespace Scorebook

/-- In a list whose items have different keys, the item that is found by a key is the one that has
it. -/
theorem find?_eq_some_iff_of_nodup {β γ : Type} [DecidableEq γ] {key : β → γ} {items : List β}
    (hnodup : (items.map key).Nodup) {k : γ} {x : β} :
    items.find? (key · = k) = some x ↔ x ∈ items ∧ key x = k := by
  constructor
  · intro hfound
    exact ⟨List.mem_of_find?_eq_some hfound, by simpa using List.find?_some hfound⟩
  · rintro ⟨hmem, rfl⟩
    have hsome : (items.find? (key · = key x)).isSome :=
      List.find?_isSome.mpr ⟨x, hmem, by simp⟩
    obtain ⟨y, hfound⟩ := Option.isSome_iff_exists.mp hsome
    have hkey : key y = key x := by simpa using List.find?_some hfound
    rw [hfound, List.inj_on_of_nodup_map hnodup (List.mem_of_find?_eq_some hfound) hmem hkey]

namespace Definition

/-- The check of a scale accepts exactly the scales without repeats that also repeat nothing of
what came before them. Ranks are looked at only where they count. -/
theorem checkEntries_eq_ok_iff {scoreId : String} {ranked : Bool} {labels : List String}
    {ranks : List ℤ} {entries : List ScaleEntry} :
    checkEntries scoreId ranked labels ranks entries = .ok () ↔
      ((entries.map (·.label)).Nodup ∧ ∀ entry ∈ entries, entry.label ∉ labels) ∧
      (ranked = true → (entries.map (·.rank)).Nodup ∧ ∀ entry ∈ entries, entry.rank ∉ ranks) := by
  induction entries generalizing labels ranks with
  | nil => simp [checkEntries]
  | cons entry rest ih =>
    unfold checkEntries
    by_cases hlabel : entry.label ∈ labels
    · simp [hlabel]
    by_cases hrank : ranked = true ∧ entry.rank ∈ ranks
    · simp [hlabel, hrank]
    · rw [if_neg hlabel, if_neg hrank, ih]
      simp only [List.map_cons, List.nodup_cons, List.mem_cons, List.mem_map, not_or, not_exists,
        not_and, forall_eq_or_imp, hlabel, not_false_eq_true, true_and]
      grind

/-- On a usable ordinal scale every label and every rank is declared once. -/
theorem nodup_of_validate_ordinal {definition : Definition}
    (hvalid : definition.validate = .ok ()) (htype : definition.scoringType = .ordinal) :
    (definition.entries.map (·.label)).Nodup ∧ (definition.entries.map (·.rank)).Nodup := by
  unfold validate at hvalid
  simp only [htype, true_and, decide_true] at hvalid
  split at hvalid
  · cases hvalid
  · obtain ⟨hlabels, hranks⟩ := checkEntries_eq_ok_iff.mp hvalid
    exact ⟨hlabels.1, (hranks rfl).1⟩

end Definition

namespace Coder

variable {scale : List ScaleEntry}

/-- The codes of a scale are in ascending order. -/
theorem labels_ranked_ascending : Keyed.Ascending (ranked scale).labels :=
  Keyed.Ascending.foldl_alter ScaleEntry.rank (fun entry label => label.getD entry.label)
    List.Pairwise.nil

/-- The codes of a scale are the declared ranks. -/
theorem mem_keys_labels_ranked {code : ℤ} :
    code ∈ (ranked scale).labels.map (·.1) ↔ code ∈ scale.map (·.rank) := by
  unfold labels Keyed.putNew
  rw [Keyed.mem_keys_foldl_alter ScaleEntry.rank fun entry label => label.getD entry.label]
  simp

/-- The codes of a scale without repeats have the labels that are declared with them. -/
theorem labels_ranked_perm (hranks : (scale.map (·.rank)).Nodup) :
    (ranked scale).labels.Perm (scale.map fun entry => (entry.rank, entry.label)) :=
  Keyed.foldl_alter_perm ScaleEntry.rank (fun entry label => label.getD entry.label) hranks

/-- A code of a scale without repeats has the label that is declared with it. -/
theorem mem_labels_ranked_iff (hranks : (scale.map (·.rank)).Nodup) {code : ℤ} {label : String} :
    (code, label) ∈ (ranked scale).labels ↔ ⟨label, code⟩ ∈ scale := by
  rw [(labels_ranked_perm hranks).mem_iff, List.mem_map]
  constructor
  · rintro ⟨entry, hentry, heq⟩
    cases heq
    exact hentry
  · exact fun hentry => ⟨_, hentry, rfl⟩

/-- The labels of a scale without repeats are different. -/
theorem nodup_labels_ranked (hlabels : (scale.map (·.label)).Nodup)
    (hranks : (scale.map (·.rank)).Nodup) : ((ranked scale).labels.map (·.2)).Nodup := by
  refine ((labels_ranked_perm hranks).map (·.2)).nodup_iff.mpr ?_
  simpa [List.map_map, Function.comp_def] using hlabels

/-- The label of a rank is the one that is declared with it. -/
theorem labelOf?_ranked_iff (hranks : (scale.map (·.rank)).Nodup) {code : ℤ} {label : String} :
    (ranked scale).labelOf? code = some label ↔ ⟨label, code⟩ ∈ scale := by
  rw [labelOf?, labelOfRank?, Option.map_eq_some_iff]
  constructor
  · rintro ⟨entry, hfound, rfl⟩
    obtain ⟨hmem, rfl⟩ := (find?_eq_some_iff_of_nodup hranks).mp hfound
    exact hmem
  · exact fun hmem => ⟨_, (find?_eq_some_iff_of_nodup hranks).mpr ⟨hmem, rfl⟩, rfl⟩

/-- A number is on a scale only with a declared rank. -/
theorem mem_of_rankOfNumber? {x : Float} {code : ℤ} (h : rankOfNumber? scale x = some code) :
    code ∈ scale.map (·.rank) := by
  obtain ⟨-, hany⟩ := Option.filter_eq_some_iff.mp h
  simpa using hany

/-- A raw value is on a scale only with a declared rank. -/
theorem mem_of_rankOf? {raw : RawValue} {code : ℤ} (h : rankOf? scale raw = some code) :
    code ∈ scale.map (·.rank) := by
  cases raw with
  | number x => exact mem_of_rankOfNumber? h
  | label text =>
    cases hlabel : rankOfLabel? scale text with
    | none =>
      simp only [rankOf?, hlabel, Option.bind_eq_some_iff] at h
      obtain ⟨x, -, hx⟩ := h
      exact mem_of_rankOfNumber? hx
    | some rank =>
      simp only [rankOf?, hlabel, Option.some.injEq] at h
      obtain ⟨entry, hfound, rfl⟩ := Option.map_eq_some_iff.mp hlabel
      have hmem := List.mem_reverse.mp (List.mem_of_find?_eq_some hfound)
      exact List.mem_map.mpr ⟨entry, hmem, h⟩

end Coder

end Scorebook
