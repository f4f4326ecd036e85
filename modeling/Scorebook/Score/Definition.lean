/-!
# Score definitions

A definition says how the values of a score are to be read: as numbers, as free categories, or
as ranks on a declared scale, and for ranks which of them pass.
-/

namespace Scorebook

/-- How the values of a score are interpreted. -/
inductive ScoringType where
  | numeric
  | nominal
  | ordinal
  /-- A metric of retrieval quality, which is a plain number. -/
  | ragas
  deriving Repr, DecidableEq

namespace ScoringType

/-- The name by which a scoring type is exchanged. -/
def name : ScoringType → String
  | numeric => "NUMERIC"
  | nominal => "NOMINAL"
  | ordinal => "ORDINAL"
  | ragas => "RAGAS"

/-- All scoring types, in the order in which they are listed to a user. -/
def all : List ScoringType := [numeric, nominal, ordinal, ragas]

/-- The scoring type of that name. -/
def ofName? (text : String) : Option ScoringType := all.find? (·.name = text)

/-- Whether values of this type are category labels. -/
def isCategorical : ScoringType → Bool
  | nominal | ordinal => true
  | numeric | ragas => false

end ScoringType

/-- A category of a declared scale. Its rank counts for ordinal scores only. -/
structure ScaleEntry where
  label : String
  rank : Int
  deriving Repr, DecidableEq

/-- What passes on an ordinal scale: a label of the acceptable set, or a rank that reaches the
threshold. Either is enough. -/
structure PassRule where
  acceptable : Option (List String)
  threshold : Option Int
  deriving Repr, DecidableEq

/-- The rule that nothing passes. -/
def PassRule.empty : PassRule := ⟨none, none⟩

/-- What is known about a score. -/
structure Definition where
  scoreId : String
  scoringType : ScoringType
  scale : Option (List ScaleEntry)
  passRule : Option PassRule
  deriving Repr, DecidableEq

namespace Definition

/-- A score whose values are numbers. -/
def numeric (scoreId : String) : Definition := ⟨scoreId, .numeric, none, none⟩

/-- A score whose values are categories, some of which may be declared. -/
def nominal (scoreId : String) (scale : Option (List ScaleEntry)) : Definition :=
  ⟨scoreId, .nominal, scale, none⟩

/-- A score whose values are ranks on a scale. -/
def ordinal (scoreId : String) (scale : List ScaleEntry) (passRule : PassRule) : Definition :=
  ⟨scoreId, .ordinal, some scale, some passRule⟩

/-- The declared categories, none when there is no scale. -/
def entries (definition : Definition) : List ScaleEntry := definition.scale.getD []

end Definition

end Scorebook
