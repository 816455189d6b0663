import TagQuery.Json.Writer
import TagQuery.Selection
import TagQuery.Text.Terminal

namespace TagQuery.Command

def joinLines (lines : List String) : String := String.join (lines.map (· ++ "\n"))

def reportLine (selected : Selection.Selected) : String :=
  selected.feature.name.display ++ ": " ++ selected.scenario.name.display

def reportValue (selected : Selection.Selected) : Value :=
  .object
    [("feature", selected.feature.name), ("name", selected.scenario.name),
      ("line", selected.scenario.line),
      ("tags", .list ((Selection.sortedTags selected.tags.tags).map fun tag =>
        tag.entry.toValue))]

def report (json : Bool) (selected : List Selection.Selected) : String :=
  if json then Json.write 0 (.list (selected.map reportValue)) ++ "\n"
  else Text.plain (joinLines (selected.map reportLine))

end TagQuery.Command
