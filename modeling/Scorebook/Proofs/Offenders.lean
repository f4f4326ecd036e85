import Scorebook.Proofs.Ordinal.ScaleCodes

/-!
# The first offender of a scale

An entry of a scale offends if it repeats the label of an earlier entry or, where ranks count, the
rank of one. The check of a definition walks along its scale and ends at the first such entry, so
what a definition is rejected for depends on the order of the entries. On a scale that is accepted,
labels and ranks name each other.
-/

namespace Scorebook

/-- The item at a position has the key of an item before it. -/
def RepeatsAt {β γ : Type} (key : β → γ) (items : List β) (position : ℕ) : Prop :=
  ∃ item, items[position]? = some item ∧ key item ∈ (items.take position).map key

/-- A list repeats no key exactly if its items do not at any position. -/
theorem nodup_map_iff_forall_not_repeatsAt {β γ : Type} {key : β → γ} {items : List β} :
    (items.map key).Nodup ↔ ∀ position, ¬RepeatsAt key items position := by
  rw [List.nodup_iff_getElem?_ne_getElem?]
  constructor
  · rintro hdistinct position ⟨item, hitem, hmem⟩
    obtain ⟨earlier, hearlier⟩ := List.mem_iff_getElem?.mp hmem
    rw [List.map_take, List.getElem?_take] at hearlier
    split_ifs at hearlier with hlt
    have hlength := (List.getElem?_eq_some_iff.mp hitem).1
    refine hdistinct earlier position hlt (by simpa using hlength) ?_
    rw [hearlier, List.getElem?_map, hitem, Option.map_some]
  · intro hnone earlier position hlt hlength hsame
    rw [List.length_map] at hlength
    refine hnone position ⟨items[position], List.getElem?_eq_getElem hlength, ?_⟩
    refine List.mem_iff_getElem?.mpr ⟨earlier, ?_⟩
    rw [List.map_take, List.getElem?_take_of_lt hlt, hsame, List.getElem?_map,
      List.getElem?_eq_getElem hlength, Option.map_some]

/-- Up to a position a list repeats no key exactly if its items do not before the position. -/
theorem nodup_map_take_iff {β γ : Type} {key : β → γ} {items : List β} {position : ℕ} :
    ((items.take position).map key).Nodup ↔
      ∀ earlier < position, ¬RepeatsAt key items earlier := by
  have hbefore (earlier : ℕ) :
      RepeatsAt key (items.take position) earlier ↔
        earlier < position ∧ RepeatsAt key items earlier := by
    by_cases hearlier : earlier < position
    · simp [RepeatsAt, hearlier, List.take_take, min_eq_left hearlier.le]
    · simp [RepeatsAt, hearlier]
  simp only [nodup_map_iff_forall_not_repeatsAt, hbefore, not_and]

namespace Definition

/-- The check of a scale goes on behind entries that it accepts with their labels and ranks. -/
theorem checkEntries_append {scoreId : String} {ranked : Bool} {labels : List String}
    {ranks : List ℤ} {before : List ScaleEntry}
    (hbefore : checkEntries scoreId ranked labels ranks before = .ok ()) (rest : List ScaleEntry) :
    checkEntries scoreId ranked labels ranks (before ++ rest) =
      checkEntries scoreId ranked ((before.map (·.label)).reverse ++ labels)
        ((before.map (·.rank)).reverse ++ ranks) rest := by
  induction before generalizing labels ranks with
  | nil => rfl
  | cons entry before ih =>
    rw [checkEntries] at hbefore
    rw [List.cons_append, checkEntries]
    split_ifs at hbefore ⊢
    simpa using ih hbefore

variable (definition : Definition)

/-- The entry at a position repeats an earlier label or, on an ordinal scale, an earlier rank. -/
def OffendsAt (position : ℕ) : Prop :=
  RepeatsAt (·.label) definition.entries position ∨
    (definition.scoringType = .ordinal ∧ RepeatsAt (·.rank) definition.entries position)

/-- An entry of a scale that offends, while no entry before it does. -/
structure FirstOffender (position : ℕ) (entry : ScaleEntry) : Prop where
  entry_at : definition.entries[position]? = some entry
  offends : definition.OffendsAt position
  first : ∀ earlier < position, ¬definition.OffendsAt earlier

/-- What makes a definition fit for aggregation. -/
structure IsUsable : Prop where
  ranked : definition.scoringType = .ordinal → ∃ scale, definition.scale = some scale ∧
    scale ≠ [] ∧ (scale.map (·.rank)).Nodup
  labelled : ∀ scale, definition.scale = some scale → (scale.map (·.label)).Nodup

/-- What a definition is rejected for. -/
inductive RejectedFor : DefinitionFault → Prop
  | scaleMissing : definition.scoringType = .ordinal →
      definition.scale = none ∨ definition.scale = some [] →
      RejectedFor (.scaleMissing definition.scoreId "ORDINAL")
  | duplicateLabel {position : ℕ} {entry : ScaleEntry} : definition.FirstOffender position entry →
      RepeatsAt (·.label) definition.entries position →
      RejectedFor (.duplicateLabel definition.scoreId entry.label)
  | duplicateRank {position : ℕ} {entry : ScaleEntry} : definition.FirstOffender position entry →
      ¬RepeatsAt (·.label) definition.entries position →
      RejectedFor (.duplicateRank definition.scoreId entry.rank)

variable {definition}

/-- A scale without entries is absent or empty. -/
theorem entries_eq_nil_iff :
    definition.entries = [] ↔ definition.scale = none ∨ definition.scale = some [] := by
  cases hscale : definition.scale <;> simp [entries, hscale]

/-- The check of a scale stops at its first offender, and looks at the label first. -/
theorem FirstOffender.checkEntries_eq {position : ℕ} {entry : ScaleEntry}
    (hfirst : definition.FirstOffender position entry) :
    (RepeatsAt (·.label) definition.entries position →
      checkEntries definition.scoreId (definition.scoringType = .ordinal) [] []
        definition.entries = .error (.duplicateLabel definition.scoreId entry.label)) ∧
    (¬RepeatsAt (·.label) definition.entries position →
      checkEntries definition.scoreId (definition.scoringType = .ordinal) [] []
        definition.entries = .error (.duplicateRank definition.scoreId entry.rank)) := by
  obtain ⟨hentry, hoffends, hbefore⟩ := hfirst
  obtain ⟨hlength, hget⟩ := List.getElem?_eq_some_iff.mp hentry
  -- When the check comes to the entry, it has seen exactly the keys of the entries before it.
  have hseen {γ : Type} (key : ScaleEntry → γ) :
      key entry ∈ ((definition.entries.take position).map key).reverse ++ [] ↔
        RepeatsAt key definition.entries position := by
    simp [RepeatsAt, hentry]
  have hclean : checkEntries definition.scoreId (definition.scoringType = .ordinal) [] []
      (definition.entries.take position) = .ok () := by
    refine checkEntries_eq_ok_iff.mpr ⟨⟨?_, by simp⟩, fun hordinal => ⟨?_, by simp⟩⟩
    · exact nodup_map_take_iff.mpr fun earlier hearlier hrepeats =>
        hbefore earlier hearlier (.inl hrepeats)
    · exact nodup_map_take_iff.mpr fun earlier hearlier hrepeats =>
        hbefore earlier hearlier (.inr ⟨of_decide_eq_true hordinal, hrepeats⟩)
  have hsplit : definition.entries.take position ++
      entry :: definition.entries.drop (position + 1) = definition.entries := by
    rw [← hget, ← List.drop_eq_getElem_cons hlength, List.take_append_drop]
  have hcheck := checkEntries_append hclean (entry :: definition.entries.drop (position + 1))
  rw [hsplit, checkEntries] at hcheck
  refine ⟨fun hlabel => ?_, fun hlabel => ?_⟩
  · rw [hcheck, if_pos ((hseen _).mpr hlabel)]
  · obtain ⟨hordinal, hrank⟩ := hoffends.resolve_left hlabel
    rw [hcheck, if_neg (mt (hseen _).mp hlabel),
      if_pos ⟨decide_eq_true hordinal, (hseen _).mpr hrank⟩]

/-- The check of a scale accepts exactly the scales without an offender. -/
theorem checkEntries_eq_ok_iff_forall_not_offendsAt :
    checkEntries definition.scoreId (definition.scoringType = .ordinal) [] []
      definition.entries = .ok () ↔ ∀ position, ¬definition.OffendsAt position := by
  simp only [checkEntries_eq_ok_iff, nodup_map_iff_forall_not_repeatsAt, decide_eq_true_eq,
    OffendsAt, not_or, not_and, forall_and, List.not_mem_nil, not_false_eq_true, implies_true,
    and_true]
  tauto

/-- A scale with an offender has a first one. -/
theorem OffendsAt.exists_firstOffender {position : ℕ} (hoffends : definition.OffendsAt position) :
    ∃ first entry, definition.FirstOffender first entry := by
  classical
  have hexists : ∃ position, definition.OffendsAt position := ⟨position, hoffends⟩
  have hfirst := Nat.find_spec hexists
  obtain ⟨entry, hentry⟩ : ∃ entry, definition.entries[Nat.find hexists]? = some entry := by
    rcases hfirst with ⟨entry, hentry, -⟩ | ⟨-, entry, hentry, -⟩ <;> exact ⟨entry, hentry⟩
  exact ⟨Nat.find hexists, entry, hentry, hfirst, fun _ => Nat.find_min hexists⟩

/-- An ordinal score without entries is rejected before its scale is checked. -/
theorem validate_eq : definition.validate =
    if definition.scoringType = .ordinal ∧ definition.entries = [] then
      .error (.scaleMissing definition.scoreId "ORDINAL")
    else checkEntries definition.scoreId (definition.scoringType = .ordinal) [] []
      definition.entries := by
  rw [validate]
  by_cases hordinal : definition.scoringType = .ordinal
  · simp [hordinal, ScoringType.name]
  · simp [hordinal]

/-- A definition is rejected for what its first offender repeats, and for nothing else once it has
the entries it needs. -/
theorem RejectedFor.validate_eq {fault : DefinitionFault}
    (hrejected : definition.RejectedFor fault) : definition.validate = .error fault := by
  rw [Definition.validate_eq]
  cases hrejected with
  | scaleMissing hordinal hscale => rw [if_pos ⟨hordinal, entries_eq_nil_iff.mpr hscale⟩]
  | duplicateLabel hfirst hlabel =>
    rw [if_neg fun h => by simpa [h.2] using hfirst.entry_at, hfirst.checkEntries_eq.1 hlabel]
  | duplicateRank hfirst hlabel =>
    rw [if_neg fun h => by simpa [h.2] using hfirst.entry_at, hfirst.checkEntries_eq.2 hlabel]

/-- A definition that is not accepted is rejected for something. -/
theorem validate_cases (definition : Definition) :
    definition.validate = .ok () ∨ ∃ fault, definition.RejectedFor fault := by
  by_cases hmissing : definition.scoringType = .ordinal ∧ definition.entries = []
  · exact .inr ⟨_, .scaleMissing hmissing.1 (entries_eq_nil_iff.mp hmissing.2)⟩
  by_cases hclean : ∀ position, ¬definition.OffendsAt position
  · left
    rw [validate_eq, if_neg hmissing, checkEntries_eq_ok_iff_forall_not_offendsAt.mpr hclean]
  · obtain ⟨position, hoffends⟩ := not_forall_not.mp hclean
    obtain ⟨first, entry, hfirst⟩ := hoffends.exists_firstOffender
    by_cases hlabel : RepeatsAt (·.label) definition.entries first
    · exact .inr ⟨_, .duplicateLabel hfirst hlabel⟩
    · exact .inr ⟨_, .duplicateRank hfirst hlabel⟩

/-- Exactly the usable definitions are accepted. -/
theorem validate_eq_ok_iff_isUsable : definition.validate = .ok () ↔ definition.IsUsable := by
  have hlabelled : (definition.entries.map (·.label)).Nodup ↔
      ∀ scale, definition.scale = some scale → (scale.map (·.label)).Nodup := by
    cases hscale : definition.scale <;> simp [entries, hscale]
  have hranked : definition.entries ≠ [] ∧ (definition.entries.map (·.rank)).Nodup ↔
      ∃ scale, definition.scale = some scale ∧ scale ≠ [] ∧ (scale.map (·.rank)).Nodup := by
    cases hscale : definition.scale <;> simp [entries, hscale]
  have hcheck : checkEntries definition.scoreId (definition.scoringType = .ordinal) [] []
      definition.entries = .ok () ↔ (definition.entries.map (·.label)).Nodup ∧
        (definition.scoringType = .ordinal → (definition.entries.map (·.rank)).Nodup) := by
    simp [checkEntries_eq_ok_iff]
  rw [validate_eq]
  split_ifs with hmissing
  · refine iff_of_false (by simp) fun husable => ?_
    exact (hranked.mpr (husable.ranked hmissing.1)).1 hmissing.2
  · rw [hcheck]
    constructor
    · rintro ⟨hlabels, hranks⟩
      exact ⟨fun hordinal => hranked.mp ⟨fun hnil => hmissing ⟨hordinal, hnil⟩, hranks hordinal⟩,
        hlabelled.mp hlabels⟩
    · intro husable
      exact ⟨hlabelled.mpr husable.labelled, fun hordinal =>
        (hranked.mpr (husable.ranked hordinal)).2⟩

/-- A definition is rejected exactly for what the fault says. -/
theorem validate_eq_error_iff {fault : DefinitionFault} :
    definition.validate = .error fault ↔ definition.RejectedFor fault := by
  constructor
  · intro herror
    rcases validate_cases definition with hok | ⟨found, hfound⟩
    · rw [hok] at herror
      cases herror
    · have hsame := hfound.validate_eq.symm.trans herror
      cases hsame
      exact hfound
  · exact RejectedFor.validate_eq

end Definition

namespace Coder

/-- A coder knows the ranks of a scale as its codes, and codes and labels name each other as the
scale declares them. -/
structure Mirrors (coder : Coder) (scale : List ScaleEntry) : Prop where
  codes : ∀ code, code ∈ coder.labels.map (·.1) ↔ code ∈ scale.map (·.rank)
  size : coder.size = scale.length
  codeOfLabel : ∀ label code, (coder.codeOfLabel label).1 = some code ↔ ⟨label, code⟩ ∈ scale
  labelOf? : ∀ label code, coder.labelOf? code = some label ↔ ⟨label, code⟩ ∈ scale
  /-- Each lookup undoes the other. -/
  inverse : ∀ label code,
    (coder.codeOfLabel label).1 = some code ↔ coder.labelOf? code = some label

/-- The coder of a scale without repeats mirrors it. -/
theorem mirrors_ranked {scale : List ScaleEntry} (hlabels : (scale.map (·.label)).Nodup)
    (hranks : (scale.map (·.rank)).Nodup) : (ranked scale).Mirrors scale := by
  have hcode (label : String) (code : ℤ) :
      ((ranked scale).codeOfLabel label).1 = some code ↔ ⟨label, code⟩ ∈ scale :=
    rankOfLabel?_eq_some_iff hlabels
  have hlabel (label : String) (code : ℤ) :
      (ranked scale).labelOf? code = some label ↔ ⟨label, code⟩ ∈ scale :=
    labelOf?_ranked_iff hranks
  constructor
  case codes => exact fun code => mem_keys_labels_ranked
  case size => simpa [size] using (labels_ranked_perm hranks).length_eq
  case codeOfLabel => exact hcode
  case labelOf? => exact hlabel
  case inverse => exact fun label code => (hcode label code).trans (hlabel label code).symm

end Coder

namespace Definition

/-- A definition is accepted if it is usable, and otherwise rejected for what it lacks or for its
first offender, whose label is looked at before its rank. The coder of an ordinal score that is
accepted mirrors its scale. -/
theorem validate_settles (definition : Definition) :
    (definition.validate = .ok () ↔ definition.IsUsable) ∧
    (∀ fault, definition.validate = .error fault ↔ definition.RejectedFor fault) ∧
    (definition.scoringType = .ordinal → definition.validate = .ok () →
      (Coder.ofDefinition definition).Mirrors definition.entries) := by
  refine ⟨validate_eq_ok_iff_isUsable, fun fault => validate_eq_error_iff, ?_⟩
  intro hordinal hvalid
  obtain ⟨hlabels, hranks⟩ := nodup_of_validate_ordinal hvalid hordinal
  rw [Coder.ofDefinition, hordinal]
  exact Coder.mirrors_ranked hlabels hranks

/-- A scale whose ranks do not ascend and reach both ends of their range. -/
theorem validate_settles_unsorted_scale :
    let definition := Definition.ordinal "grade"
      [⟨"high", 0x7FFFFFFFFFFFFFFF⟩, ⟨"low", -0x8000000000000000⟩, ⟨"", 0⟩] .empty
    definition.scoringType = .ordinal ∧ definition.validate = .ok () ∧ definition.IsUsable ∧
      (∀ fault, ¬definition.RejectedFor fault) ∧
      (Coder.ofDefinition definition).Mirrors definition.entries := by
  intro definition
  have hordinal : definition.scoringType = .ordinal := rfl
  have hvalid : definition.validate = .ok () := by decide +kernel
  obtain ⟨husable, hrejected, hmirrors⟩ := validate_settles definition
  refine ⟨hordinal, hvalid, husable.mp hvalid, fun fault hfault => ?_, hmirrors hordinal hvalid⟩
  have herror := (hrejected fault).mpr hfault
  rw [hvalid] at herror
  cases herror

end Definition

end Scorebook
