import TagQuery.Filter
import TagQuery.Listing
import TagQuery.Selector.Meaning

namespace TagQuery.Selection

structure Conflict where

def Conflict.message (_ : Conflict) : String := "--selector and --tags cannot be used together"

inductive Source where
  | everything
  | written (text : String)
  | filters (texts : List String)

def Source.selector : Source → Value
  | .everything => .null
  | .written text => .text text
  | .filters texts => (Filter.convertTexts texts).selector

def resolve (selector : Option String) (filters : List String) : Except Conflict Source :=
  let text := selector.getD ""
  match text.isEmpty, filters.isEmpty with
  | true, true => .ok .everything
  | false, true => .ok (.written text)
  | true, false => .ok (.filters filters)
  | false, false => .error {}

structure Selected where
  feature : Feature
  scenario : Scenario
  tags : TagSet

def tagsOf (feature : Feature) (scenario : Scenario) : Except Fault TagSet :=
  TagSet.union [some feature.tags, some scenario.tags]

def ofScenarios (selector : Value) (feature : Feature) :
    List Scenario → Except EvaluationError (List Selected)
  | [] => .ok []
  | scenario :: scenarios => do
    let tags ← (tagsOf feature scenario).mapError .fault
    let isSelected ← tags.isSelectedBy selector
    let rest ← ofScenarios selector feature scenarios
    .ok (if isSelected then ⟨feature, scenario, tags⟩ :: rest else rest)

def ofFeatures (selector : Value) : List Feature → Except EvaluationError (List Selected)
  | [] => .ok []
  | feature :: features => do
    let first ← ofScenarios selector feature feature.scenarios
    let rest ← ofFeatures selector features
    .ok (first ++ rest)

def tagBefore (a b : Tag) : Bool :=
  if a.line.toInt = b.line.toInt then a.text ≤ b.text else a.line.toInt ≤ b.line.toInt

def sortedTags (tags : List Tag) : List Tag := tags.mergeSort tagBefore

end TagQuery.Selection
