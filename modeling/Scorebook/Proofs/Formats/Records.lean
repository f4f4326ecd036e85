import Scorebook.Proofs.Formats.Definitions
import Scorebook.Record.Format
import Scorebook.Store

/-!
# Reading back records

A record is read back as it was: a scope of the whole dataset from a missing experiment, a missing
value from a null, and an unknown state from its own name, which no known state has. A document is
read as the value that it has, so it does not matter whether a record is read from a value or from
a text that spells it.
-/

namespace Scorebook

namespace Record

/-- The state is read back from its name. No known state has the name of the unknown one. -/
theorem status_ofJson? (status : RecordStatus) :
    RecordStatus.ofJson? (.str status.name) = some status := by
  cases status <;> rfl

section Fields

variable {members : List (String × Json)} {name : String}

/-- The members of an object as the fields of a record. -/
def fieldsOf (members : List (String × Json)) : List (String × Option Json) :=
  members.map fun (name, value) => (name, some value)

/-- Among members of different names, a field is the member of its name. -/
theorem field?_fieldsOf (hnodup : (members.map (·.1)).Nodup) :
    field? name (fieldsOf members) = some (Json.member? name members) := by
  induction members with
  | nil => rfl
  | cons entry rest ih =>
    obtain ⟨key, value⟩ := entry
    obtain ⟨hkey, hrest⟩ := List.nodup_cons.mp hnodup
    by_cases heq : key = name
    · subst heq
      have habsent : Json.member? key rest = none := by
        refine Option.eq_none_iff_forall_ne_some.mpr fun later hlater => hkey ?_
        exact List.mem_map.mpr ⟨_, (Json.member?_eq_some_iff hrest).mp hlater, rfl⟩
      have hothers : (fieldsOf rest).filter (·.1 = key) = [] := by
        refine List.filter_eq_nil_iff.mpr fun field hfield => ?_
        obtain ⟨member, hmember, rfl⟩ := List.mem_map.mp hfield
        have hne : member.1 ≠ key := by
          rintro rfl
          exact hkey (List.mem_map.mpr ⟨member, hmember, rfl⟩)
        simpa using hne
      unfold fieldsOf at hothers ⊢
      simp [field?, Json.member?, hothers, habsent]
    · have hfield := ih hrest
      unfold fieldsOf at hfield ⊢
      cases hfound : Json.member? name rest <;>
        simpa [field?, Json.member?, heq, hfound] using hfield

variable {α : Type} {part : Json → Option α}

/-- A required field is read by the value of its member. -/
theorem required?_fieldsOf (hnodup : (members.map (·.1)).Nodup) {value : Json}
    (hmember : Json.member? name members = some value) :
    required? name part (fieldsOf members) = part value := by
  simp [required?, field?_fieldsOf hnodup, hmember]

/-- An optional field without a member is absent. -/
theorem optional?_fieldsOf_none (hnodup : (members.map (·.1)).Nodup)
    (hmember : Json.member? name members = none) :
    optional? name part (fieldsOf members) = some none := by
  simp [optional?, field?_fieldsOf hnodup, hmember]

/-- An optional field is read by the value of its member, which may be null. -/
theorem optional?_fieldsOf_some (hnodup : (members.map (·.1)).Nodup) {value : Json}
    (hmember : Json.member? name members = some value) :
    optional? name part (fieldsOf members) = nullable? part value := by
  simp [optional?, field?_fieldsOf hnodup, hmember]

end Fields

/-- A record can be stored as a text: its row key fits 64 bits, and its value is a finite number or
a label. -/
structure IsStorable (record : Record) : Prop where
  rowKey : Word.isUnsigned record.rowKey = true
  value : ∀ x, record.value = some (.number x) → x.isFinite = true

/-- A record can be written. -/
theorem isWritable_toJson {record : Record} (h : record.IsStorable) :
    record.toJson.isWritable = true := by
  have hvalue : (Json.ofOption RawValue.toJson record.value).isWritable = true := by
    rcases hraw : record.value with _ | x | text
    · rfl
    · exact h.value x hraw
    · rfl
  refine Json.membersWritable_append.mpr ⟨Json.membersWritable_append.mpr ⟨rfl, ?_⟩, ?_⟩
  · exact Json.membersWritable_optionalMember fun _ _ => rfl
  · simp [Json.membersWritable, Json.isWritable, h.rowKey, hvalue]

/-- A value is read back, also when there is none. -/
theorem nullable?_ofOption (value : Option RawValue) :
    nullable? RawValue.ofJson? (Json.ofOption RawValue.toJson value) = some value := by
  rcases value with _ | _ | _ <;> rfl

/-- A record is read back from what was written of it, whatever the order of the members. -/
theorem ofJson?_reorders {record : Record} (h : Word.isUnsigned record.rowKey = true) {value : Json}
    (hvalue : value.Reorders record.toJson) : ofJson? value = some record := by
  obtain ⟨evaluationId, scoreId, experimentId, rowKey, status, raw⟩ := record
  obtain ⟨members, rfl, hperm⟩ := hvalue
  let written := (toJson ⟨evaluationId, scoreId, experimentId, rowKey, status, raw⟩).members
  have hwritten : (written.map (·.1)).Nodup := by
    cases experimentId <;> simp [written, toJson, Json.members, Json.optionalMember]
  have hnodup : (members.map (·.1)).Nodup := (hperm.map _).nodup_iff.mpr hwritten
  have hmember (name : String) : Json.member? name members = Json.member? name written :=
    Json.member?_perm hperm hwritten
  have hevaluation : Json.member? "evaluation_id" members = some (.str evaluationId) :=
    (hmember _).trans (by cases experimentId <;> rfl)
  have hscore : Json.member? "score_id" members = some (.str scoreId) :=
    (hmember _).trans (by cases experimentId <;> rfl)
  have hexperiment : optional? "experiment_id" text? (fieldsOf members) = some experimentId := by
    cases experimentId with
    | none => exact optional?_fieldsOf_none hnodup (hmember _)
    | some id =>
      have hid : Json.member? "experiment_id" members = some (.str id) := hmember _
      exact optional?_fieldsOf_some hnodup hid
  have hrow : Json.member? "row_key" members = some (.int rowKey) :=
    (hmember _).trans (by cases experimentId <;> rfl)
  have hstatus : Json.member? "status" members = some (.str status.name) :=
    (hmember _).trans (by cases experimentId <;> rfl)
  have hraw : Json.member? "value" members = some (Json.ofOption RawValue.toJson raw) :=
    (hmember _).trans (by cases experimentId <;> rfl)
  have hkey : rowKey? (.int rowKey) = some rowKey := by simpa [rowKey?] using h
  change ofMembers? (fieldsOf members) = _
  rw [ofMembers?, required?_fieldsOf hnodup hevaluation, required?_fieldsOf hnodup hscore,
    hexperiment, required?_fieldsOf hnodup hrow, required?_fieldsOf hnodup hstatus,
    optional?_fieldsOf_some hnodup hraw, hkey, status_ofJson?, nullable?_ofOption]
  rfl

end Record

namespace JsonSyntax

/-- The named parts of an object with a value are its members. -/
theorem mapM_of_membersOf? {members : List (List JsonPiece × JsonSyntax)}
    {values : List (String × Json)} (h : membersOf? members = some values) :
    (members.mapM fun (name, part) => do return (← spelling? name, part.value?)) =
      some (Record.fieldsOf values) := by
  induction members generalizing values with
  | nil =>
    obtain rfl := Option.some.inj h
    rfl
  | cons member rest ih =>
    obtain ⟨pieces, part⟩ := member
    simp only [membersOf?, bind, Option.bind_eq_some_iff, pure, Option.some.injEq] at h
    obtain ⟨name, hname, item, hitem, others, hothers, rfl⟩ := h
    rw [List.mapM_cons, ih hothers]
    simp [hname, hitem, Record.fieldsOf]

/-- The items of an array with a value have values. -/
theorem mapM_of_values? {items : List JsonSyntax} {values : List Json}
    (h : values? items = some values) : items.mapM value? = some values := by
  induction items generalizing values with
  | nil => exact h
  | cons item rest ih =>
    simp only [values?, bind, Option.bind_eq_some_iff, pure, Option.some.injEq] at h
    obtain ⟨first, hfirst, others, hothers, rfl⟩ := h
    simp [List.mapM_cons, hfirst, ih hothers]

/-- The value of a number is a number. -/
theorem numberValue?_cases {numeral : Numeral} {whole : Bool} {value : Json}
    (h : numberValue? numeral whole = some value) :
    (∃ n, value = .int n) ∨ ∃ x, value = .num x := by
  unfold numberValue? at h
  dsimp only at h
  split_ifs at h <;> simp [← Option.some.inj h]

end JsonSyntax

/-- A document with a value is read as its value is. -/
theorem Record.ofSyntax?_of_value? {document : JsonSyntax} {value : Json}
    (h : document.value? = some value) : ofSyntax? document = ofJson? value := by
  cases document with
  | null | bool _ =>
    obtain rfl := Option.some.inj h
    rfl
  | string pieces =>
    obtain ⟨text, -, rfl⟩ := Option.map_eq_some_iff.mp h
    rfl
  | number numeral whole =>
    obtain ⟨n, rfl⟩ | ⟨x, rfl⟩ := JsonSyntax.numberValue?_cases h
    · rfl
    · rfl
  | array items =>
    obtain ⟨values, hvalues, rfl⟩ := Option.map_eq_some_iff.mp h
    rw [ofSyntax?, JsonSyntax.mapM_of_values? hvalues]
    rfl
  | object members =>
    obtain ⟨values, hvalues, rfl⟩ := Option.map_eq_some_iff.mp h
    rw [ofSyntax?, JsonSyntax.mapM_of_membersOf? hvalues]
    rfl

/-- A definition and a record are read back as they were from what was written of them, and what
was written can stand in a text. The members of an object may come in any order, and a document is
read as the value that it has. So a record has the same scope after it was stored as a text, and
inserting it does the same to every store. -/
theorem stored_formats_read_back :
    (∀ definition : Definition, definition.FitsWords →
      definition.toJson.isWritable = true ∧
      Definition.ofJson definition.toJson = .ok definition ∧
      ∀ value : Json, value.Reorders definition.toJson →
        Definition.ofJson value = .ok definition) ∧
    ∀ record : Record, record.IsStorable →
      record.toJson.isWritable = true ∧
      Record.ofJson? record.toJson = some record ∧
      (∀ value : Json, value.Reorders record.toJson → Record.ofJson? value = some record ∧
        ∀ document : JsonSyntax, document.value? = some value →
          Record.ofSyntax? document = some record) ∧
      (Record.ofJson? record.toJson).map Record.scope = some record.scope ∧
      ∀ store : Store, (Record.ofJson? record.toJson).map store.insertRecord =
        some (store.insertRecord record) := by
  constructor
  · intro definition h
    have hread {value : Json} (hvalue : value.Reorders definition.toJson) :
        Definition.ofJson value = .ok definition := Definition.ofJson_reorders h hvalue
    exact ⟨Definition.isWritable_toJson h, hread ⟨_, rfl, .refl _⟩, fun value => hread⟩
  · intro record h
    have hread {value : Json} (hvalue : value.Reorders record.toJson) :
        Record.ofJson? value = some record := Record.ofJson?_reorders h.rowKey hvalue
    have hsame : Record.ofJson? record.toJson = some record := hread ⟨_, rfl, .refl _⟩
    refine ⟨Record.isWritable_toJson h, hsame, fun value hvalue => ⟨hread hvalue, ?_⟩, ?_, ?_⟩
    · intro document hdocument
      rw [Record.ofSyntax?_of_value? hdocument, hread hvalue]
    · rw [hsame, Option.map_some]
    · intro store
      rw [hsame, Option.map_some]

/-- An empty scale with a pass rule that has nothing but the least threshold, and a record with the
greatest row key, an unknown state and minus zero. -/
theorem stored_formats_read_back_extremes :
    let definition : Definition :=
      ⟨"quality", .ordinal, some [], some ⟨none, some (-0x8000000000000000)⟩⟩
    let record : Record := ⟨"run", "quality", none, 0xFFFFFFFFFFFFFFFF, .unknown,
      some (.number (-0.0))⟩
    definition.FitsWords ∧ Definition.ofJson definition.toJson = .ok definition ∧
    record.IsStorable ∧ Record.ofJson? record.toJson = some record := by
  intro definition record
  have hfits : definition.FitsWords := by
    refine ⟨by simp [definition, Definition.entries], ?_⟩
    rintro rule hrule rank hrank
    obtain rfl := Option.some.inj hrule
    obtain rfl := Option.some.inj hrank
    decide
  have hstorable : record.IsStorable := by
    refine ⟨by decide, fun x hx => ?_⟩
    obtain rfl := RawValue.number.inj (Option.some.inj hx)
    decide +kernel
  obtain ⟨hdefinitions, hrecords⟩ := stored_formats_read_back
  exact ⟨hfits, (hdefinitions definition hfits).2.1, hstorable, (hrecords record hstorable).2.1⟩

end Scorebook
