import AdaptiveConsensus.Cause
import AdaptiveConsensus.Config.Environment
import AdaptiveConsensus.Files
import AdaptiveConsensus.Notice
import AdaptiveConsensus.Text.Split
import AdaptiveConsensus.Text.WordChar

/-!
# Environment files

Defaults for environment variables are kept in a file of lines `name = value` (utils/env.rs:5-23). A
value is made of bare text, of text between single quotes, which stands for itself, and of text between
double quotes; outside single quotes a backslash escapes the next character and a dollar sign is
followed by the name of a variable to put in. A bare blank ends the value.

A file is read line by line, and a bad line ends it; what the lines before it set stays set.

* `Assignment.read`: one line.
* `Environment.loadFile`: one file.
* `Environment.load`: the first readable one of the places where a file may lie.
-/

namespace AdaptiveConsensus

open Text

/-- Why an environment file was not read to its end. -/
inductive DotenvError where
  /-- What could not be read, and where in it. -/
  | line (text : String) (index : Nat)
  | system (cause : SystemError)
  deriving DecidableEq, Repr

namespace DotenvError

/-- The wording of a cause. -/
def message : DotenvError → String
  | .line text index => s!"Error parsing line: '{text}', error at line index: {index}"
  | .system cause => cause.message

end DotenvError

/-! ## Values -/

/-- How the next character of a value is taken. -/
inductive ValueMode where
  | plain
  /-- Between single quotes. -/
  | verbatim
  /-- After a backslash. -/
  | escaped
  /-- In the name of a variable after a dollar sign. -/
  | name (read : List Char)
  /-- In the name of a variable between braces. -/
  | braced (read : List Char)
  /-- After a bare blank. -/
  | ended
  | comment
  deriving DecidableEq, Repr

/-- A value as far as it has been read. -/
structure ValueState where
  text : List Char
  /-- Whether a double quote is open. -/
  quoted : Bool
  mode : ValueMode
  deriving DecidableEq, Repr

namespace ValueState

/-- Nothing read yet. -/
def start : ValueState := ⟨[], false, .plain⟩

/-- The value with more text, read on in a mode. -/
def extend (s : ValueState) (text : List Char) (mode : ValueMode) : ValueState :=
  { s with text := s.text ++ text, mode := mode }

/-- The character that a backslash and a character stand for. -/
def unescape? : Char → Option Char
  | '\\' => some '\\'
  | '\'' => some '\''
  | '"' => some '"'
  | '$' => some '$'
  | ' ' => some ' '
  | 'n' => some '\n'
  | _ => none

/-- A character that is not special where it stands. -/
def stepPlain (s : ValueState) (c : Char) : ValueState :=
  if c = '$' then { s with mode := .name [] }
  else if c = '\\' then { s with mode := .escaped }
  else if c = '"' then { s with quoted := !s.quoted }
  else if s.quoted then s.extend [c] .plain
  else if c = '\'' then { s with mode := .verbatim }
  else if c = ' ' ∨ c = '\t' then { s with mode := .ended }
  else s.extend [c] .plain

/-- A character after the name of a variable, which ends the name. -/
def stepName (env : Environment) (s : ValueState) (name : List Char) (c : Char) : ValueState :=
  if isWordChar c then { s with mode := .name (name ++ [c]) }
  else if c = '\x7b' ∧ name = [] then { s with mode := .braced [] }
  -- one name may follow another at once
  else if c = '$' then s.extend (env.substitute name) (.name [])
  else s.extend (env.substitute name ++ [c]) .plain

/-- The value with one more character, which may not be allowed there. -/
def step? (env : Environment) (s : ValueState) (c : Char) : Option ValueState :=
  match s.mode with
  | .ended =>
    if c = ' ' ∨ c = '\t' then some s
    else if c = '#' then some { s with mode := .comment }
    else none
  | .comment => some s
  | .escaped => (unescape? c).map fun c => s.extend [c] .plain
  | .verbatim => some (if c = '\'' then { s with mode := .plain } else s.extend [c] .verbatim)
  | .name name => some (s.stepName env name c)
  | .braced name =>
    some (if c = '\x7d' then s.extend (env.substitute name) .plain
      else { s with mode := .braced (name ++ [c]) })
  | .plain => some (s.stepPlain c)

/-- Reads the characters of a value from a position on; the position of one that is not allowed. -/
def run (env : Environment) : Nat → ValueState → List Char → Except Nat ValueState
  | _, s, [] => .ok s
  | index, s, c :: rest =>
    match s.step? env c with
    | some s => run env (index + 1) s rest
    | none => .error index

/-- The value read, unless a quote or a brace is open. -/
def result? (env : Environment) (s : ValueState) : Option (List Char) :=
  if s.quoted then none
  else match s.mode with
    | .verbatim | .braced _ => none
    | .name name => some (s.text ++ env.substitute name)
    | _ => some s.text

end ValueState

/-- How many bytes a text takes. -/
def byteLength (text : List Char) : Nat :=
  text.foldl (fun n c => n + c.utf8Size) 0

/-- The value that a text stands for. What is still open at the end is reported at the last byte. -/
def readValue (env : Environment) (text : List Char) : Except DotenvError (List Char) :=
  match ValueState.start.run env 0 text with
  | .error index => .error (.line (String.ofList text) index)
  | .ok s =>
    match s.result? env with
    | some value => .ok value
    | none => .error (.line (String.ofList text) (byteLength text - 1))

/-! ## Lines -/

/-- A line as far as it has been read: how many bytes were read, and the rest. -/
structure LineCursor where
  position : Nat
  rest : List Char
  deriving DecidableEq, Repr

namespace LineCursor

/-- The cursor after the characters that pass a test. -/
def skip (c : LineCursor) (p : Char → Bool) : LineCursor :=
  ⟨c.position + byteLength (c.rest.takeWhile p), c.rest.dropWhile p⟩

/-- The cursor after blanks. -/
def skipBlanks (c : LineCursor) : LineCursor :=
  c.skip isBlank

/-- Whether a character may begin a name. -/
def startsName (c : Char) : Bool :=
  c.isAlpha || c == '_'

/-- Whether a character may go on with a name. -/
def continuesName (c : Char) : Bool :=
  c.isAlphanum || c == '_' || c == '.'

/-- A name and the blanks after it. -/
def name? (c : LineCursor) : Option (List Char × LineCursor) :=
  match c.rest with
  | [] => none
  | first :: _ =>
    if startsName first then
      some (c.rest.takeWhile continuesName, (c.skip continuesName).skipBlanks)
    else none

/-- The cursor after an equals sign. -/
def equals? (c : LineCursor) : Option LineCursor :=
  match c.rest with
  | '=' :: rest => some ⟨c.position + 1, rest⟩
  | _ => none

/-- Whether nothing or a comment follows. -/
def isOver (c : LineCursor) : Bool :=
  match c.rest with
  | [] => true
  | first :: _ => first == '#'

end LineCursor

/-- A name and the value to give it. -/
structure Assignment where
  name : String
  value : String
  deriving DecidableEq, Repr

namespace Assignment

/-- A name, its equals sign, and the cursor behind it; or the cursor where they were expected. -/
def readHead (c : LineCursor) : Except LineCursor (List Char × LineCursor) :=
  match c.name? with
  | none => .error c
  | some (name, after) =>
    match after.equals? with
    | some behind => .ok (name, behind)
    | none =>
      -- the word `export` may stand before the name
      if name = "export".toList then
        match after.name? with
        | none => .error after
        | some (name, after) =>
          match after.equals? with
          | some behind => .ok (name, behind)
          | none => .error after
      else .error after

/-- The assignment of a line; a line that holds blanks or a comment has none. -/
def read (env : Environment) (line : List Char) : Except DotenvError (Option Assignment) :=
  let start := (LineCursor.mk 0 (trimEnd line)).skipBlanks
  if start.isOver then .ok none
  else match readHead start with
    | .error c => .error (.line (String.ofList line) c.position)
    | .ok (name, behind) =>
      let value := behind.skipBlanks
      if value.isOver then .ok (some ⟨String.ofList name, ""⟩)
      else match readValue env value.rest with
        | .error e => .error e
        | .ok text => .ok (some ⟨String.ofList name, String.ofList text⟩)

end Assignment

/-! ## Files -/

namespace Environment

/-- The environment with the assignments of lines as defaults, up to a bad line. -/
def loadLines (env : Environment) : List (List UInt8) → Environment × Except DotenvError Unit
  | [] => (env, .ok ())
  | line :: rest =>
    match String.fromUTF8? (ByteArray.mk line.toArray) with
    | none => (env, .error (.system .notText))
    | some text =>
      match Assignment.read env text.toList with
      | .error e => (env, .error e)
      | .ok none => loadLines env rest
      | .ok (some a) => loadLines (env.setDefault a.name a.value) rest

end Environment

/-- A place where an environment file may lie: a name in the directory so many levels up. -/
structure DotenvPlace where
  up : Nat
  name : String
  deriving DecidableEq, Repr

namespace DotenvPlace

/-- The path of a place. -/
def path (p : DotenvPlace) : String :=
  String.join (List.replicate p.up "../") ++ p.name

/-- The places in the order in which they are tried. -/
def all : List DotenvPlace :=
  [⟨0, ".env"⟩, ⟨0, ".env.local"⟩, ⟨1, ".env"⟩]

/-- What lies at a place, seen from the innermost of nested directories. -/
def content? (p : DotenvPlace) (directories : List (List Entry)) : Option Content := do
  let entries ← directories[p.up]?
  let entry ← entries.find? fun e => e.name == .ofText p.name
  return entry.content

/-- The file at a place, seen from the innermost directory that has one there. -/
def locate? (p : DotenvPlace) : List (List Entry) → Option Content
  | [] => none
  | innermost :: outer =>
    match p.content? (innermost :: outer) with
    | some content => if content.isDirectory then p.locate? outer else some content
    | none => p.locate? outer

end DotenvPlace

namespace Environment

/-- The environment with the defaults of the file at a place. -/
def loadFile (env : Environment) (directories : List (List Entry)) (p : DotenvPlace) :
    Environment × Except DotenvError Unit :=
  match p.locate? directories with
  | none => (env, .error (.system (.other "path not found")))
  | some content =>
    match content.bytes with
    | .error cause => (env, .error (.system cause))
    | .ok bytes => env.loadLines (byteLines bytes.toList)

/-- The environment with the defaults of the first place that has a file without a bad line, and
the notices given on the way. -/
def loadPlaces (env : Environment) (directories : List (List Entry)) :
    List DotenvPlace → Environment × List Notice
  | [] => (env, [Notice.info "No .env file found, using environment variables from system"])
  | p :: rest =>
    if (p.content? directories).isNone then loadPlaces env directories rest
    else match env.loadFile directories p with
      | (env, .ok ()) => (env, [Notice.info s!"Loaded environment variables from {p.path}"])
      | (env, .error e) =>
        -- what was set before the bad line counts for the places that follow
        let (env, notices) := loadPlaces env directories rest
        (env, Notice.warn s!"Failed to load environment from {p.path}: {e.message}" :: notices)

/-- The environment with the defaults that the files of nested directories give, the innermost
first. -/
def load (env : Environment) (directories : List (List Entry)) : Environment × List Notice :=
  env.loadPlaces directories DotenvPlace.all

end Environment

end AdaptiveConsensus
