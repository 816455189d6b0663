import TagQuery.Selection

namespace TagQuery.Command

inductive UsageError where
  | noSuchOption (name : String)
  | valueMissing (option : String)
  | valueUnexpected (option : String)
  | fileNotGiven
  | fileMissing (name : String)
  | fileIsDirectory (name : String)
  | fileUnreadable (name : String)
  | surplusFiles (names : List String)
  | conflict (conflict : Selection.Conflict)
  | badSelector (refusal : Selector.Refusal)

/-- The message of an error of use. A suggestion of options with a name like an unknown one, which
may stand behind that message, is left out. -/
def UsageError.message : UsageError → String
  | .noSuchOption name => "No such option " ++ Text.quoted name ++ "."
  | .valueMissing option => "Option " ++ Text.quoted option ++ " requires an argument."
  | .valueUnexpected option => "Option " ++ Text.quoted option ++ " does not take a value."
  | .fileNotGiven => "Missing argument 'FILE'."
  | .fileMissing name =>
    "Invalid value for 'FILE': File " ++ Text.quoted name ++ " does not exist."
  | .fileIsDirectory name =>
    "Invalid value for 'FILE': File " ++ Text.quoted name ++ " is a directory."
  | .fileUnreadable name =>
    "Invalid value for 'FILE': File " ++ Text.quoted name ++ " is not readable."
  | .surplusFiles names =>
    (match names with
      | [_] => "Got unexpected extra argument ("
      | _ => "Got unexpected extra arguments (") ++ Text.joined " " names ++ ")"
  | .conflict both => both.message
  | .badSelector refusal => "Invalid value for '--selector' / '--tags': " ++ refusal.message

def UsageError.showsUsage : UsageError → Bool
  | .valueMissing _ => false
  | .valueUnexpected _ => false
  | _ => true

inductive Setting where
  | selector | filters | json | debug | version | help
deriving DecidableEq, Repr

def Setting.takesValue : Setting → Bool
  | .selector => true
  | .filters => true
  | _ => false

def longOption? : String → Option Setting
  | "--selector" => some .selector
  | "--tags" => some .filters
  | "--json" => some .json
  | "--debug" => some .debug
  | "--version" => some .version
  | "--help" => some .help
  | _ => none

def shortOption? : Char → Option Setting
  | 's' => some .selector
  | 't' => some .filters
  | _ => none

inductive Request where
  | version | help
deriving DecidableEq, Repr

structure Words where
  selector : Option String := none
  /-- All filters, in order. -/
  filters : List String := []
  json : Bool := false
  debug : Bool := false
  request : Option Request := none
  /-- The words that are not options. -/
  files : List String := []
deriving DecidableEq, Repr

def Words.set (words : Words) : Setting → Words
  | .json => { words with json := true }
  | .debug => { words with debug := true }
  | .version => { words with request := words.request.or (some .version) }
  | .help => { words with request := words.request.or (some .help) }
  | _ => words

def Words.setValue (words : Words) (value : String) : Setting → Words
  | .selector => { words with selector := some value }
  | .filters => { words with filters := words.filters ++ [value] }
  | _ => words

def Words.addFile (words : Words) (name : String) : Words :=
  { words with files := words.files ++ [name] }

/-! ## Reading words -/

inductive OptionWord where
  | named (name : String) (setting : Setting) (value : Option String)
  /-- No option has this name. -/
  | unknown (name : String)

/-- The option in a word of which the first character is `-`. A long name may have a value behind
`=`; behind the letter of a short name the rest of the word is the value. -/
def OptionWord.ofChars (cs : List Char) : OptionWord :=
  let name := String.ofList (cs.takeWhile (· != '='))
  match longOption? name with
  | some setting =>
    .named name setting ((cs.dropWhile (· != '=')).tail?.map String.ofList)
  | none =>
    match cs with
    | '-' :: '-' :: _ => .unknown name
    | _ :: letter :: rest =>
      let short := String.ofList ['-', letter]
      match shortOption? letter with
      | some setting =>
        .named short setting (if rest.isEmpty then none else some (String.ofList rest))
      | none => .unknown short
    | _ => .unknown name

def isOption (word : String) : Bool :=
  match word.toList with
  | '-' :: _ :: _ => true
  | _ => false

def readWords (words : Words) : List String → Except UsageError Words
  | [] => .ok words
  | word :: rest =>
    if word = "--" then .ok (rest.foldl Words.addFile words)
    else if isOption word then
      match OptionWord.ofChars word.toList with
      | .unknown name => .error (.noSuchOption name)
      | .named name setting value =>
        if setting.takesValue then
          match value, rest with
          | some value, rest => readWords (words.setValue value setting) rest
          | none, value :: rest => readWords (words.setValue value setting) rest
          | none, [] => .error (.valueMissing name)
        else if value.isSome then .error (.valueUnexpected name)
        else readWords (words.set setting) rest
    else readWords (words.addFile word) rest

/-! ## Environment -/

structure Environment where
  selector : Option String
  filters : Option String

def given (setting : Option String) : Option String := setting.filter (!·.isEmpty)

def Words.selectorIn (words : Words) (environment : Environment) : Option String :=
  words.selector.or (given environment.selector)

def Words.filtersIn (words : Words) (environment : Environment) : List String :=
  if words.filters.isEmpty then ((given environment.filters).map Text.words).getD []
  else words.filters

end TagQuery.Command
