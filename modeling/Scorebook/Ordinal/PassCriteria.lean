import Scorebook.Score.Coder

/-!
# Which codes pass

A pass rule speaks of labels and ranks. For one pass over an ordinal population it is turned
into criteria on codes. A label that is not on the scale passes nothing.
-/

namespace Scorebook

namespace Ordinal

/-- A pass rule on the codes of a scale. -/
structure PassCriteria where
  codes : List Int
  acceptable : List String
  threshold : Option Int
  deriving Repr

namespace PassCriteria

/-- The criteria of a rule on the codes of a coder; without a rule nothing passes. -/
def ofRule (rule : Option PassRule) (coder : Coder) : PassCriteria :=
  let rule := rule.getD .empty
  let acceptable := rule.acceptable.getD []
  let codes := acceptable.filterMap fun label => (coder.labels.find? (·.2 = label)).map (·.1)
  ⟨codes, acceptable, rule.threshold⟩

/-- Whether a code passes. -/
def passes (criteria : PassCriteria) (code : Int) : Bool :=
  code ∈ criteria.codes ||
    match criteria.threshold with
    | some rank => rank ≤ code
    | none => false

end PassCriteria

end Ordinal

end Scorebook
