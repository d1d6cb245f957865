/-!
# Command lines

A command line is a row of words, as main.rs:98 and bin/report_buckets.rs:45 read it. An option is given
by its long name or by its letter; one that takes a value takes it from the same word or from the next
one, and a word that begins with a hyphen is a value only for an option that says so. Letters of options
without a value may share a word. No option is given twice, and there are no words but options and their
values.

A value is read when the next option is reached or the line ends, so that of two faults the one
noticed first counts.

* `CommandLine.parse`: reads a command line into a draft.
* `CommandLine.help`: the text that explains the options.
-/

namespace AdaptiveConsensus

/-- Why a command line gives no settings: it is wrong, or it asks to be told something. -/
inductive UsageError where
  | missingRequired
  | unknownWord
  | missingValue
  | unreadableValue
  | needlessValue
  | repeatedOption
  | helpAsked
  | versionAsked
  deriving DecidableEq, Repr

/-- What an option does to a draft of type `σ`. -/
inductive OptionAction (σ : Type) where
  | help
  | version
  | mark (set : σ → σ)
  /-- Reads a value, which may begin with a hyphen if the option says so. -/
  | value (hyphens : Bool) (read : String → σ → Except UsageError σ)

/-- An option, with what its help says. -/
structure OptionSpec (σ : Type) where
  long : String
  letter : Option Char
  action : OptionAction σ
  description : String
  placeholder : String
  default : Option String
  required : Bool

namespace OptionSpec

/-- Whether an option takes a value. -/
def takesValue {σ : Type} (o : OptionSpec σ) : Bool :=
  match o.action with
  | .value _ _ => true
  | _ => false

/-- Whether an option takes a value that may begin with a hyphen. -/
def takesHyphens {σ : Type} (o : OptionSpec σ) : Bool :=
  match o.action with
  | .value hyphens _ => hyphens
  | _ => false

/-- The option that explains the others. -/
def help {σ : Type} : OptionSpec σ where
  long := "help"
  letter := some 'h'
  action := .help
  description := "Print help"
  placeholder := ""
  default := none
  required := false

/-- The option that tells the version. -/
def version {σ : Type} : OptionSpec σ where
  long := "version"
  letter := some 'V'
  action := .version
  description := "Print version"
  placeholder := ""
  default := none
  required := false

end OptionSpec

/-- What a program belongs to: the name and the release under which it tells its version, and what it
is for. -/
structure Package where
  name : String
  release : String
  about : String

/-- A program's command line. -/
structure CommandLine (σ : Type) where
  /-- The name of the program in its usage. -/
  program : String
  package : Package
  options : List (OptionSpec σ)

/-- A command line as far as it has been read. -/
structure CommandState (σ : Type) where
  draft : σ
  given : List String
  /-- The option reached last, if it takes a value from another word, and the value if that has been
  reached too. -/
  open? : Option (OptionSpec σ × Option String)

namespace CommandState

variable {σ : Type}

/-- Carries out an option with the value it was given, if any. -/
def apply (s : CommandState σ) (o : OptionSpec σ) (value : Option String) :
    Except UsageError (CommandState σ) :=
  match o.action, value with
  | .help, _ => .error .helpAsked
  | .version, _ => .error .versionAsked
  | .mark set, _ =>
    if o.long ∈ s.given then .error .repeatedOption
    else .ok { s with draft := set s.draft, given := o.long :: s.given }
  | .value _ _, none => .error .missingValue
  | .value _ read, some text =>
    if o.long ∈ s.given then .error .repeatedOption
    else match read text s.draft with
      | .error e => .error e
      | .ok draft => .ok { s with draft := draft, given := o.long :: s.given }

/-- Carries out the option that is open. -/
def settle (s : CommandState σ) : Except UsageError (CommandState σ) :=
  match s.open? with
  | none => .ok s
  | some (o, value) => ({ s with open? := none }).apply o value

/-- Reaches an option, which may have its value in the same word. -/
def reach (s : CommandState σ) (o : OptionSpec σ) (attached : Option String) :
    Except UsageError (CommandState σ) := do
  -- the fault of the option before this one comes first
  let s ← s.settle
  if o.takesValue && attached.isNone then return { s with open? := some (o, none) }
  else s.apply o attached

/-- The option that waits for a value. -/
def waiting? (s : CommandState σ) : Option (OptionSpec σ) :=
  match s.open? with
  | some (o, none) => some o
  | _ => none

end CommandState

namespace CommandLine

variable {σ : Type}

/-- Reads a long name, which a value may follow after an equals sign. -/
def readLong (spec : CommandLine σ) (s : CommandState σ) (body : List Char) :
    Except UsageError (CommandState σ) :=
  let name := body.takeWhile (· ≠ '=')
  let attached := match body.dropWhile (· ≠ '=') with
    | [] => none
    | _ :: value => some (String.ofList value)
  match spec.options.find? fun o => o.long.toList == name with
  | none => .error .unknownWord
  | some o => if !o.takesValue && attached.isSome then .error .needlessValue else s.reach o attached

/-- The value that follows an option's letter in the same word, after an equals sign or at once. -/
def attachedValue : List Char → Option String
  | [] => none
  | '=' :: value => some (String.ofList value)
  | value => some (String.ofList value)

/-- Reads the letters of a word. -/
def readLetters (spec : CommandLine σ) (s : CommandState σ) :
    List Char → Except UsageError (CommandState σ)
  | [] => .ok s
  | c :: rest =>
    match spec.options.find? fun o => o.letter == some c with
    | none => .error .unknownWord
    | some o =>
      if o.takesValue then s.reach o (attachedValue rest)
      else match s.reach o none with
        | .error e => .error e
        | .ok s => readLetters spec s rest

/-- Reads one word; the word of two hyphens is not among those read here. -/
def readWord (spec : CommandLine σ) (s : CommandState σ) (word : String) :
    Except UsageError (CommandState σ) :=
  match word.toList with
  | '-' :: '-' :: body => spec.readLong s body
  | '-' :: c :: rest => spec.readLetters s (c :: rest)
  | _ =>
    match s.waiting? with
    | some o => .ok { s with open? := some (o, some word) }
    | none => .error .unknownWord

/-- Reads words in turn. After a word of two hyphens no more words may come. -/
def readWords (spec : CommandLine σ) (s : CommandState σ) :
    List String → Except UsageError (CommandState σ)
  | [] => s.settle
  | word :: rest =>
    -- an option that takes hyphens takes whatever word comes next
    let hungry := s.waiting?.filter fun o => o.takesHyphens
    match hungry with
    | some o => readWords spec { s with open? := some (o, some word) } rest
    | none =>
      if word = "--" then if rest.isEmpty then s.settle else .error .unknownWord
      else match spec.readWord s word with
        | .error e => .error e
        | .ok s => readWords spec s rest

/-- Reads a command line, beginning with a draft of the defaults. -/
def parse (spec : CommandLine σ) (draft : σ) (words : List String) : Except UsageError σ := do
  let s ← spec.readWords ⟨draft, [], none⟩ words
  return s.draft

/-- The value of an option that has to be given. -/
def require {α : Type} (value : Option α) : Except UsageError α :=
  match value with
  | some a => .ok a
  | none => .error .missingRequired

/-! ## Help -/

/-- A text on the left of a field of some width. -/
def padded (width : Nat) (text : String) : String :=
  text ++ String.ofList (List.replicate (width - text.length) ' ')

/-- An option as its help names it. -/
def signature (o : OptionSpec σ) : String :=
  let letter := match o.letter with
    | some c => s!"-{c}, "
    | none => "    "
  let value := if o.takesValue then s!" <{o.placeholder}>" else ""
  s!"{letter}--{o.long}{value}"

/-- The text that explains the options. -/
def help (spec : CommandLine σ) : String :=
  let width := (spec.options.map fun o => (signature o).length).foldl max 0
  let required := spec.options.filter fun o => o.required
  let usage := String.join (required.map fun o => s!" --{o.long} <{o.placeholder}>")
  let lines := spec.options.map fun o =>
    let default := match o.default with
      | some text => s!" [default: {text}]"
      | none => ""
    s!"  {padded width (signature o)}  {o.description}{default}\n"
  s!"{spec.package.about}\n\nUsage: {spec.program} [OPTIONS]{usage}\n\nOptions:\n{String.join lines}"

/-- The text that tells the version. -/
def versionText (spec : CommandLine σ) : String :=
  s!"{spec.package.name} {spec.package.release}\n"

end CommandLine

end AdaptiveConsensus
