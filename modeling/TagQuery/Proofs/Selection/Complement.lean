import TagQuery.Proofs.Selection.Filtering
import TagQuery.Proofs.Selector.Nesting
import TagQuery.Proofs.Selector.Outcome

namespace TagQuery.Selection

open Selector (Tree)

theorem verdict_negated {pair : Feature × Scenario}
    (parsed : ∀ tag ∈ pair.1.tags ++ pair.2.tags, tag.Parsed) {source : String} {tree : Selector}
    (tabs : '\t' ∉ source.toList) (compiled : Selector.parse source = .ok tree)
    (definite : tree.Definite) :
    ∃ holds, verdict (.text source) pair = .ok holds ∧
      verdict (.text (Selector.negated source)) pair = .ok !holds := by
  have parsedDistinct : ∀ tag ∈ TagSet.distinct (pair.1.tags ++ pair.2.tags), tag.Parsed :=
    fun tag mem => parsed tag (TagSet.distinct_subset _ mem)
  obtain ⟨holds, evaluated⟩ : ∃ holds,
      tree.evaluate ⟨TagSet.distinct (pair.1.tags ++ pair.2.tags)⟩ = .ok (.verdict holds) :=
    Tree.evaluate_of_definite parsedDistinct definite
  have evaluatedNegation : (Tree.negation tree).evaluate
      ⟨TagSet.distinct (pair.1.tags ++ pair.2.tags)⟩ = .ok (.verdict !holds) := by
    rw [Tree.evaluate, evaluated]
    rfl
  refine ⟨holds, ?_, ?_⟩
  · rw [verdict_of_parsed parsed, Selector.isSelectedBy_of_verdict compiled evaluated]
  · rw [verdict_of_parsed parsed,
      Selector.isSelectedBy_of_verdict (Selector.parse_negated tabs compiled) evaluatedNegation]

/-- The negation of a selector can be read, and of the scenarios of a listing it selects, in their
order, exactly those that the selector does not select. -/
theorem ofFeatures_negated {file : Option (List UInt8)} {features : List Feature} {source : String}
    {tree : Selector} (loaded : Listing.ofFile file = .ok features) (tabs : '\t' ∉ source.toList)
    (compiled : Selector.parse source = .ok tree) (definite : tree.Definite) :
    Selector.parse ("!(" ++ source ++ ")") = .ok (.negation tree) ∧
      ∃ selected others, ofFeatures (.text source) features = .ok selected ∧
        ofFeatures (.text ("!(" ++ source ++ ")")) features = .ok others ∧
        selected.map Selected.pair = (scenarios features).filter (selects (.text source)) ∧
        others.map Selected.pair =
          (scenarios features).filter fun pair => !selects (.text source) pair := by
  have annotated := Listing.annotated_of_ofFile loaded
  have opposite (pair : Feature × Scenario) (mem : pair ∈ scenarios features) :=
    verdict_negated (annotated_of_mem annotated mem) tabs compiled definite
  obtain ⟨selected, done, chosen⟩ := exists_ofFeatures fun pair mem =>
    (opposite pair mem).imp fun _ => And.left
  obtain ⟨others, doneOthers, chosenOthers⟩ := exists_ofFeatures fun pair mem =>
    (opposite pair mem).elim fun holds both => ⟨!holds, both.2⟩
  refine ⟨Selector.parse_negated tabs compiled, selected, others, done, doneOthers, chosen.pairs, ?_⟩
  rw [chosenOthers.pairs]
  refine List.filter_congr fun pair mem => ?_
  obtain ⟨holds, answered, answeredNegation⟩ := opposite pair mem
  rw [selects_of_verdict answered, selects_of_verdict answeredNegation]

theorem ofFeatures_negated_disjunction :
    ∃ (source : String) (file : Option (List UInt8)) (features : List Feature) (tree : Selector),
      source = "valuesFor('env').isAnyOf('dev')\n|| anyOf(\"it's)\")" ∧
      file = some ("[\x7b\"tags\":[\"@env=dev\"],\"scenarios\":[\x7b\x7d," ++
        "\x7b\"tags\":[\x7b\"name\":\"@env\"\x7d]\x7d]\x7d]").toUTF8.toList ∧
      Listing.ofFile file = .ok features ∧ Selector.parse source = .ok tree ∧
      Selector.parse ("!(" ++ source ++ ")") = .ok (.negation tree) ∧
      ∃ selected others, ofFeatures (.text source) features = .ok selected ∧
        ofFeatures (.text ("!(" ++ source ++ ")")) features = .ok others ∧
        selected.map Selected.pair = (scenarios features).filter (selects (.text source)) ∧
        others.map Selected.pair =
          (scenarios features).filter fun pair => !selects (.text source) pair := by
  have compiled : Selector.parse "valuesFor('env').isAnyOf('dev')\n|| anyOf(\"it's)\")" =
      .ok (.disjunction (.call (.valuesFor "env" (some (.isAnyOf ["dev"]))))
        (.call (.anyOf ["it's)"]))) :=
    Selector.parse_eq_ok_iff_readText.2 (by decide +kernel)
  have readable : (Listing.ofFile (some
      ("[\x7b\"tags\":[\"@env=dev\"],\"scenarios\":[\x7b\x7d," ++
        "\x7b\"tags\":[\x7b\"name\":\"@env\"\x7d]\x7d]\x7d]").toUTF8.toList)).toOption.isSome =
          true := by
    decide +kernel
  obtain ⟨features, loaded⟩ := Attempt.exists_ok_of_isSome readable
  exact ⟨_, _, features, _, rfl, rfl, loaded, compiled,
    ofFeatures_negated loaded (by decide) compiled (by decide)⟩

end TagQuery.Selection
