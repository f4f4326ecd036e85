import Mathlib.Data.Finset.Card
import Mathlib.Data.List.Forall2
import Mathlib.Data.List.Induction
import Mathlib.Data.List.ReduceOption
import Scorebook.Proofs.Formats.Members
import Scorebook.Score.Registry

/-!
# What a registry answers

An entry of a document and an insertion are notices about a score: that it has this definition, or
that its definition could not be read. An unreadable entry that names no score is no notice at all.
The last notice about a score decides what its lookup answers, and notices about other scores count
for nothing.
-/

namespace Scorebook

/-- What an entry of a document or an insertion says about a score. -/
inductive Notice where
  | readable (definition : Definition)
  | unreadable (scoreId reason : String)
  deriving DecidableEq

namespace Notice

/-- The score that a notice is about. -/
def scoreId : Notice → String
  | readable definition => definition.scoreId
  | unreadable scoreId _ => scoreId

/-- The definition that a notice gives. -/
def definition? : Notice → Option Definition
  | readable definition => some definition
  | unreadable _ _ => none

/-- The reason why a notice gives no definition. -/
def reason? : Notice → Option String
  | readable _ => none
  | unreadable _ reason => some reason

end Notice

/-- An entry names a score: it is an object, and the last of its members with the name `score_id` is
a text, the score. -/
def Json.NamesScore (entry : Json) (scoreId : String) : Prop :=
  ∃ before after, entry = .obj (before ++ ("score_id", .str scoreId) :: after) ∧
    ∀ member ∈ after, member.1 ≠ "score_id"

/-- What an entry of a document says. One that is a definition gives it, one that is not is about
the score that it names, and one that names no score says nothing. -/
inductive Json.Says (entry : Json) : Option Notice → Prop
  | readable {definition : Definition} (hread : Definition.ofJson entry = .ok definition) :
    entry.Says (some (.readable definition))
  | unreadable {scoreId : String} {fault : FormatFault}
    (hread : Definition.ofJson entry = .error fault) (hname : entry.NamesScore scoreId) :
    entry.Says (some (.unreadable scoreId fault.message))
  | nothing {fault : FormatFault} (hread : Definition.ofJson entry = .error fault)
    (hname : ∀ scoreId, ¬entry.NamesScore scoreId) : entry.Says none

/-- The last notice about a score. -/
def lastNotice? (notices : List Notice) (scoreId : String) : Option Notice :=
  notices.reverse.find? (·.scoreId = scoreId)

/-- One more notice is the last one about its own score. -/
theorem lastNotice?_concat (notices : List Notice) (notice : Notice) (scoreId : String) :
    lastNotice? (notices ++ [notice]) scoreId =
      if notice.scoreId = scoreId then some notice else lastNotice? notices scoreId := by
  simp only [lastNotice?, List.reverse_append, List.reverse_singleton, List.singleton_append,
    List.find?_cons]
  split_ifs with hscore <;> simp [hscore]

namespace Registry

variable {registry : Registry} {notices : List Notice} {scoreId : String}

/-- Takes in a notice. -/
def note (registry : Registry) : Notice → Registry
  | .readable definition => registry.insert definition
  | .unreadable scoreId reason => registry.reject scoreId reason

/-- The registry that a history of notices leaves. -/
def ofNotices (notices : List Notice) : Registry := notices.foldl note empty

/-- The subject of an entry is the score that it names. -/
theorem subject?_eq_some_iff {entry : Json} :
    subject? entry = some scoreId ↔ entry.NamesScore scoreId := by
  have htext {value : Json} : value.text? = some scoreId ↔ value = .str scoreId := by
    cases value <;> simp [Json.text?]
  simp only [subject?, Json.NamesScore, Option.bind_eq_some_iff, htext]
  cases entry with
  | obj members => simp [Json.field?, Json.member?_eq_some_iff_last]
  | _ => simp [Json.field?]

/-- Taking in an entry is taking in what it says. -/
theorem load_eq {entry : Json} {notice? : Option Notice} (h : entry.Says notice?)
    (registry : Registry) : registry.load entry = notice?.elim registry registry.note := by
  cases h with
  | readable hread => simp only [load, hread, Option.elim_some, note]
  | unreadable hread hname =>
    simp only [load, hread, subject?_eq_some_iff.mpr hname, Option.elim_some, note]
  | nothing hread hname =>
    have hsubject : subject? entry = none := by
      simpa only [Option.eq_none_iff_forall_ne_some, ne_eq, subject?_eq_some_iff] using hname
    simp only [load, hread, hsubject, Option.elim_none]

/-- Taking in entries is taking in what they say. -/
theorem foldl_load {entries : List Json} {said : List (Option Notice)}
    (h : List.Forall₂ Json.Says entries said) (registry : Registry) :
    entries.foldl load registry = said.reduceOption.foldl note registry := by
  induction h generalizing registry with
  | nil => rfl
  | @cons entry notice? entries said hfirst hrest ih =>
    rw [List.foldl_cons, ih, load_eq hfirst]
    cases notice? with
    | none => rw [List.reduceOption_cons_of_none, Option.elim_none]
    | some notice => rw [List.reduceOption_cons_of_some, Option.elim_some, List.foldl_cons]

/-- A document and the insertions after it leave the registry of all their notices. -/
theorem foldl_insert_ofEntries {entries : List Json} {said : List (Option Notice)}
    (h : List.Forall₂ Json.Says entries said) (inserted : List Definition) :
    inserted.foldl insert (ofEntries entries) =
      ofNotices (said.reduceOption ++ inserted.map .readable) := by
  rw [ofNotices, List.foldl_append, List.foldl_map, ← foldl_load h]
  rfl

/-- The notice that an entry is, if it is one. -/
def notice? (entry : Json) : Option Notice :=
  match Definition.ofJson entry with
  | .ok definition => some (.readable definition)
  | .error fault => (subject? entry).map (.unreadable · fault.message)

/-- An entry says the notice that it is. -/
theorem says_notice? (entry : Json) : entry.Says (notice? entry) := by
  unfold notice?
  cases hread : Definition.ofJson entry with
  | ok definition => exact .readable hread
  | error fault =>
    cases hsubject : subject? entry with
    | some scoreId => exact .unreadable hread (subject?_eq_some_iff.mp hsubject)
    | none =>
      refine .nothing hread fun scoreId hname => ?_
      rw [subject?_eq_some_iff.mpr hname] at hsubject
      cases hsubject

/-- What the entries of a document say can be listed. -/
theorem forall₂_says_notice? (entries : List Json) :
    List.Forall₂ Json.Says entries (entries.map notice?) :=
  List.forall₂_map_right_iff.mpr (List.forall₂_same.mpr fun entry _ => says_notice? entry)

/-- A registry holds of each score what the last notice about it says: its definition or the reason
why there is none, each in a map of its own. -/
structure Reflects (registry : Registry) (notices : List Notice) : Prop where
  definitions : ∀ scoreId : String, registry.definitions[scoreId]? =
    (lastNotice? notices scoreId).bind Notice.definition?
  rejected : ∀ scoreId : String, registry.rejected[scoreId]? =
    (lastNotice? notices scoreId).bind Notice.reason?

/-- A notice gives its score the definition that it has, if any, and leaves all other scores. -/
theorem getElem?_definitions_note (registry : Registry) (notice : Notice) (scoreId : String) :
    (registry.note notice).definitions[scoreId]? =
      if notice.scoreId = scoreId then notice.definition?
      else registry.definitions[scoreId]? := by
  cases notice with
  | readable definition =>
    by_cases hscore : definition.scoreId = scoreId <;>
      simp [note, insert, Std.TreeMap.getElem?_insert, Notice.scoreId, Notice.definition?, hscore]
  | unreadable target reason =>
    by_cases hscore : target = scoreId <;>
      simp [note, reject, Std.TreeMap.getElem?_erase, Notice.scoreId, Notice.definition?, hscore]

/-- A notice gives its score the reason that it has, if any, and leaves all other scores. -/
theorem getElem?_rejected_note (registry : Registry) (notice : Notice) (scoreId : String) :
    (registry.note notice).rejected[scoreId]? =
      if notice.scoreId = scoreId then notice.reason? else registry.rejected[scoreId]? := by
  cases notice with
  | readable definition =>
    by_cases hscore : definition.scoreId = scoreId <;>
      simp [note, insert, Std.TreeMap.getElem?_erase, Notice.scoreId, Notice.reason?, hscore]
  | unreadable target reason =>
    by_cases hscore : target = scoreId <;>
      simp [note, reject, Std.TreeMap.getElem?_insert, Notice.scoreId, Notice.reason?, hscore]

/-- A notice replaces whatever both maps hold of its score. -/
theorem Reflects.note (h : registry.Reflects notices) (notice : Notice) :
    (registry.note notice).Reflects (notices ++ [notice]) where
  definitions scoreId := by
    rw [getElem?_definitions_note, lastNotice?_concat, h.definitions]
    split_ifs <;> rfl
  rejected scoreId := by
    rw [getElem?_rejected_note, lastNotice?_concat, h.rejected]
    split_ifs <;> rfl

/-- The registry of a history reflects it. -/
theorem reflects_ofNotices (notices : List Notice) : (ofNotices notices).Reflects notices := by
  induction notices using List.reverseRecOn with
  | nil => constructor <;> exact fun _ => by simp [ofNotices, empty, lastNotice?]
  | append_singleton notices notice ih =>
    rw [ofNotices, List.foldl_append]
    exact ih.note notice

/-- No score has both a definition and a reason why there is none. -/
theorem Reflects.disjoint (h : registry.Reflects notices) (scoreId : String) :
    scoreId ∉ registry.definitions ∨ scoreId ∉ registry.rejected := by
  have hdefinition := h.definitions scoreId
  have hreason := h.rejected scoreId
  cases hlast : lastNotice? notices scoreId with
  | none =>
    left
    simp [Std.TreeMap.mem_iff_isSome_getElem?, hdefinition, hlast]
  | some notice =>
    cases notice with
    | readable definition =>
      right
      simp [Std.TreeMap.mem_iff_isSome_getElem?, hreason, hlast, Notice.reason?]
    | unreadable target reason =>
      left
      simp [Std.TreeMap.mem_iff_isSome_getElem?, hdefinition, hlast, Notice.definition?]

/-- What the last notice about a score leaves for its lookup: a definition that is usable or names
its first offender, the reason why it could not be read, or nothing. -/
def answerBy (scoreId : String) : Option Notice → Except DefinitionFault Definition
  | none => .error (.notFound scoreId)
  | some (.unreadable _ reason) => .error (.unreadable scoreId reason)
  | some (.readable definition) =>
    match definition.validate with
    | .ok () => .ok definition
    | .error fault => .error fault

/-- A lookup answers with what the last notice about the score leaves. -/
theorem Reflects.lookup_eq (h : registry.Reflects notices) (scoreId : String) :
    registry.lookup scoreId = answerBy scoreId (lastNotice? notices scoreId) := by
  rw [lookup, h.rejected, h.definitions]
  cases lastNotice? notices scoreId with
  | none => rfl
  | some notice =>
    cases notice with
    | unreadable target reason => rfl
    | readable definition =>
      simp only [Option.bind_some, Notice.reason?, Notice.definition?, answerBy]
      cases definition.validate <;> rfl

/-- A registry counts the scores whose last notice is a definition. -/
theorem Reflects.size_eq_card (h : registry.Reflects notices) :
    ∃ scores : Finset String,
      (∀ scoreId, scoreId ∈ scores ↔
        ∃ definition, lastNotice? notices scoreId = some (.readable definition)) ∧
      registry.size = scores.card := by
  refine ⟨registry.definitions.keys.toFinset, fun scoreId => ?_, ?_⟩
  · rw [List.mem_toFinset, Std.TreeMap.mem_keys, Std.TreeMap.mem_iff_isSome_getElem?,
      h.definitions]
    cases lastNotice? notices scoreId with
    | none => simp
    | some notice => cases notice <;> simp [Notice.definition?]
  · rw [List.toFinset_card_of_nodup Std.TreeMap.nodup_keys, Std.TreeMap.length_keys, size]

/-- Notices about other scores say nothing about a score. -/
theorem lastNotice?_filter (notices : List Notice) (scoreId : String) :
    lastNotice? (notices.filter (·.scoreId = scoreId)) scoreId = lastNotice? notices scoreId := by
  rw [lastNotice?, lastNotice?, ← List.filter_reverse, List.find?_filter]
  simp

/-- The last notice about each score decides what a registry answers. -/
structure DecidedBy (registry : Registry) (notices : List Notice) : Prop where
  lookup : ∀ scoreId, registry.lookup scoreId = answerBy scoreId (lastNotice? notices scoreId)
  /-- Notices about other scores might as well not have been taken in. -/
  others : ∀ scoreId, registry.lookup scoreId =
    (ofNotices (notices.filter (·.scoreId = scoreId))).lookup scoreId
  /-- No score has both a definition and a reason why there is none. -/
  disjoint : ∀ scoreId, scoreId ∉ registry.definitions ∨ scoreId ∉ registry.rejected
  /-- The scores whose last notice is a definition are counted. -/
  size : ∃ scores : Finset String,
    (∀ scoreId, scoreId ∈ scores ↔
      ∃ definition, lastNotice? notices scoreId = some (.readable definition)) ∧
    registry.size = scores.card

/-- The registry of a history is decided by its last notices. -/
theorem decidedBy_ofNotices (notices : List Notice) : (ofNotices notices).DecidedBy notices where
  lookup := (reflects_ofNotices notices).lookup_eq
  others scoreId := by
    rw [(reflects_ofNotices notices).lookup_eq, (reflects_ofNotices _).lookup_eq,
      lastNotice?_filter]
  disjoint := (reflects_ofNotices notices).disjoint
  size := (reflects_ofNotices notices).size_eq_card

/-- Reading a document that lists entries succeeds. Whatever the entries say, the registry is
decided by the last notices so far, while they are taken in and after any insertions that
follow. -/
theorem ofText?_decidedByLast {text : String} {entries : List Json}
    (hread : entriesOf? text = some entries) :
    ofText? text = some (ofEntries entries) ∧
      (∃ said, List.Forall₂ Json.Says entries said) ∧
      ∀ said, List.Forall₂ Json.Says entries said →
        (∀ count, (ofEntries (entries.take count)).DecidedBy (said.take count).reduceOption) ∧
        ∀ inserted : List Definition, (inserted.foldl insert (ofEntries entries)).DecidedBy
          (said.reduceOption ++ inserted.map .readable) := by
  refine ⟨by rw [ofText?, hread, Option.map_some], ⟨_, forall₂_says_notice? entries⟩, ?_⟩
  intro said hsaid
  constructor
  · intro count
    have hearlier := foldl_insert_ofEntries (List.forall₂_take count hsaid) []
    rw [List.foldl_nil, List.map_nil, List.append_nil] at hearlier
    rw [hearlier]
    exact decidedBy_ofNotices _
  · intro inserted
    rw [foldl_insert_ofEntries hsaid]
    exact decidedBy_ofNotices _

/-- A definition, an entry about the same score that is no definition, and an entry that names no
score. The score cannot be looked up until it is defined again, whatever is inserted about another
one. -/
theorem ofText?_decidedByLast_unknown_type :
    let text := "[[\"tone\",\"RAGAS\"],\x7b\"score_id\":\"tone\",\"scoring_type\":\"BOOL\"\x7d,0]"
    let ragas (scoreId : String) : Definition := ⟨scoreId, .ragas, none, none⟩
    let reason := (FormatFault.unknownScoringType "BOOL").message
    ∃ entries registry, entriesOf? text = some entries ∧ ofText? text = some registry ∧
      List.Forall₂ Json.Says entries
        [some (.readable (ragas "tone")), some (.unreadable "tone" reason), none] ∧
      (ofEntries (entries.take 1)).lookup "tone" = .ok (ragas "tone") ∧
      registry.lookup "tone" = .error (.unreadable "tone" reason) ∧
      registry.lookup "pitch" = .error (.notFound "pitch") ∧ registry.size = 0 ∧
      (registry.insert (ragas "pitch")).lookup "tone" = .error (.unreadable "tone" reason) ∧
      (registry.insert (ragas "pitch")).lookup "pitch" = .ok (ragas "pitch") ∧
      (registry.insert (ragas "pitch")).size = 1 ∧
      ((registry.insert (ragas "pitch")).insert (ragas "tone")).lookup "tone" =
        .ok (ragas "tone") := by
  intro text ragas reason
  have hnotices : (entriesOf? text).map (·.map notice?) =
      some [some (.readable (ragas "tone")), some (.unreadable "tone" reason), none] := by
    decide +kernel
  have hsize : (ofText? text).map size = some 0 := by decide +kernel
  have hgrown : (ofText? text).map (fun registry => (registry.insert (ragas "pitch")).size) =
      some 1 := by decide +kernel
  obtain ⟨entries, hentries, hsaid⟩ := Option.map_eq_some_iff.mp hnotices
  have hsaid := hsaid ▸ forall₂_says_notice? entries
  obtain ⟨hregistry, -, hdecided⟩ := ofText?_decidedByLast hentries
  rw [hregistry, Option.map_some, Option.some.injEq] at hsize hgrown
  obtain ⟨hearlier, hlater⟩ := hdecided _ hsaid
  have hread := (hlater []).lookup
  have hother := (hlater [ragas "pitch"]).lookup
  have hagain := (hlater [ragas "pitch", ragas "tone"]).lookup "tone"
  refine ⟨entries, _, hentries, hregistry, hsaid, ?_, ?_, ?_, hsize, ?_, ?_, hgrown, ?_⟩
  · exact ((hearlier 1).lookup "tone").trans (by decide)
  · exact (hread "tone").trans (by decide)
  · exact (hread "pitch").trans (by decide)
  · exact (hother "tone").trans (by decide)
  · exact (hother "pitch").trans (by decide)
  · exact hagain.trans (by decide)

end Registry

end Scorebook
