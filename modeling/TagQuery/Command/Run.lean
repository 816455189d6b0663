import TagQuery.Command.Options
import TagQuery.Command.Report

/-!
# Running the command

`run` is the whole command: from the words of the command line, the environment and the files that
it can find it tells the exit code and what is printed. The report is printed only after every
scenario has been looked at, so nothing is printed there when anything fails. Debug output is
printed as it arises; with it, failures that are not about the use of the command or the content of
the listing leave the command unhandled.
-/

namespace TagQuery.Command

inductive Entry where
  | missing
  | directory
  | unreadable
  | file (bytes : List UInt8)

inductive Unhandled where
  | listing (failure : Listing.Failure)
  | evaluation (error : EvaluationError)

def Unhandled.message (name : String) : Unhandled → String
  | .listing failure => failure.message name
  | .evaluation error => error.message

structure Outcome where
  exitCode : Nat
  stdout : String
  stderr : String
  unhandled : Option Unhandled

/-! ## Messages -/

def usageLine : String := "Usage: tagsel [OPTIONS] FILE\n"

def usageText (error : UsageError) : String :=
  (if error.showsUsage then usageLine ++ "Try 'tagsel --help' for help.\n\n" else "") ++
    Text.plain ("Error: " ++ error.message ++ "\n")

/-- What a request prints, the help as on a terminal with 80 columns. -/
def Request.text : Request → String
  | .version => "tagsel, version 0.1.0\n"
  | .help =>
    usageLine ++ joinLines
      ["",
        "  Prints scenarios from FILE matching a tag selector.",
        "",
        "  FILE is a JSON list of features, each with \"name\", \"tags\" and \"scenarios\";",
        "  every scenario has \"name\", \"line\" and \"tags\". A tag is either an annotation",
        "  string such as \"@env=dev,qa\" or an object \x7b\"line\": 3, \"name\":",
        "  \"@env=dev,qa\"\x7d. Feature tags apply to all scenarios of the feature.",
        "",
        "  Option --tags can be supplied multiple times, all filters have to match.",
        "  Each filter is a comma separated list of tags of which any has to be",
        "  present, or a single tag prefixed with '~' which must be absent. TAGSEL_TAGS",
        "  holds space separated filters.",
        "",
        "Options:",
        "  --version            Show the version and exit.",
        "  -s, --selector EXPR  tag expression selecting scenarios, e.g.",
        "                       \"anyOf('@smoke') && not('@slow')\"",
        "  -t, --tags TAGS      old style tag filter, e.g. '@smoke,@fast' or '~@slow'",
        "  --json               print selected scenarios as JSON",
        "  --debug              log debug messages and do not suppress exception stack",
        "                       traces",
        "  --help               Show this message and exit."]

def debugLine (origin message : String) : String := "DEBUG tagsel." ++ origin ++ ": " ++ message

def filterLines (filters : List String) : List String :=
  match Filter.convertTexts filters with
  | .verbatim filter =>
    [debugLine "legacy" ("using tag expression as is: " ++ filter.literal)]
  | .clauses trimmed =>
    (trimmed.filter fun filter => Filter.Clause.ofFilter filter == .present []).map (fun filter =>
      debugLine "legacy"
        ("blank tag filter " ++ Text.quoted filter ++ " will not match any scenario")) ++
    [debugLine "legacy"
      ("converted tag filters " ++ (Value.list (filters.map .text)).literal ++ " to " ++
        Text.quoted (Filter.selectorText trimmed))]

def sourceLines (source : Selection.Source) : List String :=
  (match source with
    | .filters filters => filterLines filters
    | _ => []) ++
  [debugLine "_cli" ("using selector: " ++ source.selector.literal)]

def selectorLines (source : Selection.Source) (selector : Selector) : List String :=
  [debugLine "tagexpr"
    ("compiled tag expression " ++ source.selector.literal ++ ": " ++ selector.literal)]

/-! ## Names of files -/

def nameParts (name : String) : List String :=
  ((Text.nonemptyPieces (· == '/') name.toList)).filter (· != ".")

def shownName (name : String) : String :=
  let slashes := (name.toList.takeWhile (· == '/')).length
  let root := if slashes = 0 then "" else if slashes = 2 then "//" else "/"
  match root ++ Text.joined "/" (nameParts name) with
  | "" => "."
  | shown => shown

/-! ## The run -/

def Outcome.usage (error : UsageError) : Outcome := ⟨2, "", usageText error, none⟩

def Outcome.wrongListing (message : String) : Outcome :=
  ⟨1, "", Text.plain ("Error: " ++ message ++ "\n"), none⟩

def Outcome.failure (debug : Bool) (message : String) (unhandled : Unhandled) : Outcome :=
  if debug then ⟨1, "", "", some unhandled⟩
  else ⟨1, "", Text.plain ("error: " ++ message ++ "\n"), none⟩

def Outcome.listing (debug : Bool) (name : String) (failure : Listing.Failure) : Outcome :=
  let message := failure.message (shownName name)
  if failure.isContent then .wrongListing message
  else .failure debug message (.listing failure)

def Outcome.after (debug : Bool) (lines : List String) (outcome : Outcome) : Outcome :=
  if debug then { outcome with stderr := joinLines lines ++ outcome.stderr } else outcome

def select (words : Words) (name : String) (bytes : List UInt8) (selector : Value) : Outcome :=
  match Listing.read bytes with
  | .error failure => .listing words.debug name failure
  | .ok features =>
    match Selection.ofFeatures selector features with
    | .error error => .failure words.debug error.message (.evaluation error)
    | .ok selected => ⟨0, report words.json selected, "", none⟩

def selectFrom (words : Words) (name : String) (bytes : List UInt8) (source : Selection.Source) :
    Outcome :=
  match source.selector with
  | .null => .after words.debug (sourceLines source) (select words name bytes .null)
  | selector =>
    match Selector.parseValue selector with
    | .error refusal =>
      .after words.debug (sourceLines source) (.usage (.badSelector refusal))
    | .ok tree =>
      .after words.debug (sourceLines source ++ selectorLines source tree)
        (select words name bytes selector)

def runFile (environment : Environment) (words : Words) (name : String) (bytes : List UInt8) :
    Outcome :=
  match Selection.resolve (words.selectorIn environment) (words.filtersIn environment) with
  | .error conflict => .usage (.conflict conflict)
  | .ok source => selectFrom words name bytes source

def run (environment : Environment) (find : String → Entry) (arguments : List String) : Outcome :=
  match readWords {} arguments with
  | .error error => .usage error
  | .ok words =>
    match words.request, words.files with
    | some request, _ => ⟨0, request.text, "", none⟩
    | none, [] => .usage .fileNotGiven
    | none, name :: surplus =>
      match find name, surplus with
      | .missing, _ => .usage (.fileMissing name)
      | .directory, _ => .usage (.fileIsDirectory name)
      | .unreadable, _ => .usage (.fileUnreadable name)
      | .file bytes, [] => runFile environment words name bytes
      | .file _, names => .usage (.surplusFiles names)

end TagQuery.Command
