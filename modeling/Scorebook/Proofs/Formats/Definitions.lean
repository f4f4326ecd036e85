import Scorebook.Proofs.Formats.Members
import Scorebook.Score.Format

/-!
# Reading back definitions

A definition is read back as it was. Parts that are absent are left out and stay absent, and empty
ones are written and stay empty. Whole numbers have to fit 64 bits, as they do in a text.
-/

namespace Scorebook

namespace Format

section Parts

variable {α : Type} {name : String} {part : Json → Except FormatFault α} {encode : α → Json}
  {members : List (String × Json)}

/-- A list is read back if each of its items is. -/
theorem list_map {values : List α} (hitems : ∀ x ∈ values, part (encode x) = .ok x) :
    list part (.arr (values.map encode)) = .ok values := by
  induction values with
  | nil => rfl
  | cons x rest ih =>
    obtain ⟨hx, hrest⟩ := List.forall_mem_cons.mp hitems
    have hread : (rest.map encode).mapM part = .ok rest := ih hrest
    simp only [list, List.map_cons, List.mapM_cons, hx, hread]
    rfl

/-- A member that is there is read by its value. -/
theorem member_some {value : Json} {x : α} (hmember : Json.member? name members = some value)
    (hpart : part value = .ok x) : member name part members = .ok (some x) := by
  unfold member
  rw [hmember]
  dsimp only
  rw [hpart]
  rfl

/-- A member that may be left out is read back if what is written of it is not null. -/
theorem member_optional {value : Option α}
    (hmember : Json.member? name members = value.map encode) (hnull : ∀ x, encode x ≠ .null)
    (hpart : ∀ x, value = some x → part (encode x) = .ok x) :
    member name (optional part) members = .ok (value.map some) := by
  cases value with
  | none =>
    unfold member
    rw [hmember, Option.map_none, Option.map_none]
  | some x =>
    refine member_some hmember ?_
    unfold Format.optional
    split
    next heq => exact absurd heq (hnull x)
    next => rw [hpart x rfl]; rfl

end Parts

/-- A list of labels is read back. -/
theorem list_text (labels : List String) : list text (.arr (labels.map .str)) = .ok labels :=
  list_map fun _ _ => rfl

/-- A whole number of 64 bits is read back. -/
theorem code_int {n : Int} (h : Word.isSigned n = true) : code (.int n) = .ok n := if_pos h

end Format

open Format

/-- Every scoring type is read back from its name. -/
theorem ScoringType.ofJson_name (scoringType : ScoringType) :
    ofJson (.str scoringType.name) = .ok scoringType := by
  cases scoringType <;> rfl

/-- An entry of a scale is read back. -/
theorem ScaleEntry.ofJson_toJson {entry : ScaleEntry} (hrank : Word.isSigned entry.rank = true) :
    ofJson entry.toJson = .ok entry := by
  have hlabel : member "label" text entry.toJson.members = .ok (some entry.label) :=
    member_some rfl rfl
  have hcode : member "value" code entry.toJson.members = .ok (some entry.rank) :=
    member_some rfl (code_int hrank)
  change ofJson (.obj entry.toJson.members) = _
  rw [ofJson, hlabel, hcode]
  rfl

/-- An entry of a scale can be written. -/
theorem ScaleEntry.isWritable_toJson {entry : ScaleEntry}
    (hrank : Word.isSigned entry.rank = true) : entry.toJson.isWritable = true := by
  simp [toJson, Json.isWritable, Json.membersWritable, hrank]

section Threshold

variable {rule : PassRule}
  (hthreshold : ∀ rank, rule.threshold = some rank → Word.isSigned rank = true)
include hthreshold

/-- A pass rule can be written. -/
theorem PassRule.isWritable_toJson : rule.toJson.isWritable = true := by
  refine Json.membersWritable_append.mpr ⟨?_, ?_⟩
  · exact Json.membersWritable_optionalMember fun labels _ => Json.isWritable_map fun _ _ => rfl
  · refine Json.membersWritable_optionalMember fun rank hrank => ?_
    simp [Json.isWritable, hthreshold rank hrank]

/-- A pass rule is read back. -/
theorem PassRule.ofJson_toJson : ofJson rule.toJson = .ok rule := by
  obtain ⟨acceptable, threshold⟩ := rule
  have hlabels : Json.member? "acceptable_set" (toJson ⟨acceptable, threshold⟩).members =
      acceptable.map fun labels => .arr (labels.map .str) := by
    cases acceptable <;> cases threshold <;> rfl
  have hrank : Json.member? "threshold_rank" (toJson ⟨acceptable, threshold⟩).members =
      threshold.map .int := by
    cases acceptable <;> cases threshold <;> rfl
  have hacceptable := member_optional hlabels (by simp) fun labels _ => list_text labels
  have hthreshold := member_optional hrank (by simp) fun rank h => code_int (hthreshold rank h)
  change ofJson (.obj (toJson ⟨acceptable, threshold⟩).members) = _
  rw [ofJson, hacceptable, hthreshold]
  cases acceptable <;> cases threshold <;> rfl

end Threshold

namespace Definition

/-- The whole numbers of a definition fit 64 bits. -/
structure FitsWords (definition : Definition) : Prop where
  ranks : ∀ entry ∈ definition.entries, Word.isSigned entry.rank = true
  threshold : ∀ rule, definition.passRule = some rule → ∀ rank, rule.threshold = some rank →
    Word.isSigned rank = true

/-- A definition can be written. -/
theorem isWritable_toJson {definition : Definition} (h : definition.FitsWords) :
    definition.toJson.isWritable = true := by
  refine Json.membersWritable_append.mpr ⟨Json.membersWritable_append.mpr ⟨rfl, ?_⟩, ?_⟩
  · refine Json.membersWritable_optionalMember fun entries hentries => ?_
    exact Json.isWritable_map fun entry hentry => ScaleEntry.isWritable_toJson
      (h.ranks entry (by rw [Definition.entries, hentries]; exact hentry))
  · exact Json.membersWritable_optionalMember fun rule hrule =>
      PassRule.isWritable_toJson (h.threshold rule hrule)

/-- A definition is read back from what was written of it, whatever the order of the members. -/
theorem ofJson_reorders {definition : Definition} (h : definition.FitsWords) {value : Json}
    (hvalue : value.Reorders definition.toJson) : ofJson value = .ok definition := by
  obtain ⟨scoreId, scoringType, scale, passRule⟩ := definition
  obtain ⟨members, rfl, hperm⟩ := hvalue
  let written := (toJson ⟨scoreId, scoringType, scale, passRule⟩).members
  have hwritten : (written.map (·.1)).Nodup := by
    cases scale <;> cases passRule <;> simp [written, toJson, Json.members, Json.optionalMember]
  have hmember (name : String) : Json.member? name members = Json.member? name written :=
    Json.member?_perm hperm hwritten
  have hrule : Json.member? "ordinal_config" members = passRule.map PassRule.toJson :=
    (hmember _).trans (by cases scale <;> cases passRule <;> rfl)
  have hscale : Json.member? "scale" members =
      scale.map fun entries => .arr (entries.map ScaleEntry.toJson) :=
    (hmember _).trans (by cases scale <;> cases passRule <;> rfl)
  have hid : Json.member? "score_id" members = some (.str scoreId) :=
    (hmember _).trans (by cases scale <;> cases passRule <;> rfl)
  have htype : Json.member? "scoring_type" members = some (.str scoringType.name) :=
    (hmember _).trans (by cases scale <;> cases passRule <;> rfl)
  have hreadRule := member_optional hrule (by simp [PassRule.toJson]) fun rule hrule =>
    PassRule.ofJson_toJson (h.threshold rule hrule)
  have hreadScale := member_optional hscale (by simp) fun entries hentries =>
    list_map fun entry hentry => ScaleEntry.ofJson_toJson
      (h.ranks entry (by rw [Definition.entries, hentries]; exact hentry))
  rw [ofJson, hreadRule, hreadScale, member_some (x := scoreId) hid rfl,
    member_some htype (ScoringType.ofJson_name scoringType)]
  cases scale <;> cases passRule <;> rfl

end Definition

end Scorebook
