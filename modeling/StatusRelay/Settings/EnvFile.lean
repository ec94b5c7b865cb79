import StatusRelay.Table
import StatusRelay.Text.Blank

namespace StatusRelay.EnvFile

/-- A name and its value; `none` for a name without `=`. -/
abbrev Bindings := Table (Option String)

def isLineEnd (c : Char) : Bool := c == '\n' || c == '\r'

def isInlineBlank (c : Char) : Bool := Text.isBlank c && !isLineEnd c

def skipInline (cs : List Char) : List Char := cs.dropWhile isInlineBlank

def unifyLineEnds : List Char → List Char
  | '\r' :: '\n' :: rest => '\n' :: unifyLineEnds rest
  | '\r' :: rest => '\n' :: unifyLineEnds rest
  | c :: rest => c :: unifyLineEnds rest
  | [] => []

def dropExport (cs : List Char) : List Char :=
  match cs with
  | 'e' :: 'x' :: 'p' :: 'o' :: 'r' :: 't' :: c :: rest =>
    if isInlineBlank c then skipInline rest else cs
  | _ => cs

-- What follows a backslash closes nothing, and no reader comes back to it: a text of which all later
-- quotes are behind a backslash is not closed at all.
/-- A text in quotes after its opening quote, up to the closing one, escapes left as they are. -/
def quotedText? (quote : Char) (acc : List Char) : List Char → Option (List Char × List Char)
  | [] => none
  | '\\' :: c :: rest => quotedText? quote (c :: '\\' :: acc) rest
  | c :: rest =>
    if c == quote then some (acc.reverse, rest) else quotedText? quote (c :: acc) rest

def escapeInSingle? (c : Char) : Option Char :=
  if c == '\\' || c == '\'' then some c else none

def escapeInDouble? (c : Char) : Option Char :=
  match c with
  | '\\' => some '\\'
  | '\'' => some '\''
  | '"' => some '"'
  | 'a' => some '\x07'
  | 'b' => some '\x08'
  | 'f' => some '\x0C'
  | 'n' => some '\n'
  | 'r' => some '\r'
  | 't' => some '\t'
  | 'v' => some '\x0B'
  | _ => none

def unescape (known : Char → Option Char) : List Char → List Char
  | '\\' :: c :: rest =>
    match known c with
    | some e => e :: unescape known rest
    | none => '\\' :: unescape known (c :: rest)
  | c :: rest => c :: unescape known rest
  | [] => []

def dropComment : List Char → List Char
  | [] => []
  | c :: rest =>
    if Text.isBlank c && (rest.dropWhile Text.isBlank).head? == some '#' then []
    else c :: dropComment rest

def unquotedValue (line : List Char) : List Char := Text.trimBy Text.isBlank (dropComment line)

def value (cs : List Char) : Except (List Char) (List Char × List Char) :=
  match skipInline cs with
  | '\'' :: rest =>
    match quotedText? '\'' [] rest with
    | some (s, rest) => .ok (unescape escapeInSingle? s, rest)
    | none => .error ('\'' :: rest)
  | '"' :: rest =>
    match quotedText? '"' [] rest with
    | some (s, rest) => .ok (unescape escapeInDouble? s, rest)
    | none => .error ('"' :: rest)
  | _ =>
    let (line, rest) := cs.span (!isLineEnd ·)
    .ok (unquotedValue line, rest)

def key (cs : List Char) : Except (List Char) (Option (List Char) × List Char) :=
  match cs with
  | '#' :: _ => .ok (none, cs)
  | '\'' :: rest =>
    match rest.span (· != '\'') with
    | (name, _ :: after) => if name.isEmpty then .error cs else .ok (some name, after)
    | (_, []) => .error cs
  | _ =>
    let (name, rest) := cs.span fun c ↦ c != '=' && c != '#' && !Text.isBlank c
    if name.isEmpty then .error cs else .ok (some name, rest)

def skipComment (cs : List Char) : List Char :=
  match skipInline cs with
  | '#' :: rest => rest.dropWhile (!isLineEnd ·)
  | _ => cs

def lineEnd (cs : List Char) : Except (List Char) (List Char) :=
  match skipInline (skipComment cs) with
  | [] => .ok []
  | c :: rest => if isLineEnd c then .ok rest else .error (skipComment cs)

def bound (cs : List Char) : Except (List Char) (Option (List Char) × List Char) :=
  match skipInline cs with
  | '=' :: rest => (value rest).map fun p ↦ (some p.1, p.2)
  | rest => .ok (none, rest)

def binding (cs : List Char) :
    Except (List Char) (Option (List Char × Option (List Char)) × List Char) := do
  let (name, rest) ← key (dropExport cs)
  let (v, rest) ← bound rest
  let rest ← lineEnd rest
  .ok (name.map fun n ↦ (n, v), rest)

def dropLine (cs : List Char) : List Char := (cs.dropWhile (!isLineEnd ·)).drop 1

def bindingsFrom : Nat → List Char → List (List Char × Option (List Char))
  | 0, _ => []
  | fuel + 1, cs =>
    match cs.dropWhile Text.isBlank with
    | [] => []
    | cs =>
      match binding cs with
      | .ok (some b, rest) => b :: bindingsFrom fuel rest
      | .ok (none, rest) => bindingsFrom fuel rest
      | .error rest => bindingsFrom fuel (dropLine rest)

/-- The bindings of a text, in order. A line may start with `export`; names may stand in single
quotes, values in single or double ones, and a quoted value may span lines. What follows a blank and
`#` is a comment. A line that does not have this form is skipped. -/
def bindings (cs : List Char) : List (List Char × Option (List Char)) :=
  bindingsFrom (cs.length + 1) cs

def reference? (cs : List Char) : Option (List Char × Option (List Char) × List Char) :=
  match cs.span (fun c ↦ c != '}' && c != ':') with
  | (name, '}' :: rest) => some (name, none, rest)
  | (name, ':' :: '-' :: rest) =>
    match rest.span (· != '}') with
    | (dflt, '}' :: rest) => some (name, some dflt, rest)
    | _ => none
  | _ => none

def expand (resolve : String → Option (List Char) → List Char) : Nat → List Char → List Char
  | 0, cs => cs
  | fuel + 1, '$' :: '{' :: rest =>
    match reference? rest with
    | some (name, dflt, after) =>
      resolve (String.ofList name) dflt ++ expand resolve fuel after
    | none => '$' :: expand resolve fuel ('{' :: rest)
  | fuel + 1, c :: rest => c :: expand resolve fuel rest
  | _ + 1, [] => []

/-- A name is sought among the bindings before it, then in the environment. A name bound to no
value counts as empty. -/
def lookUp (bound : Bindings) (environment : Table String) (name : String)
    (dflt : Option (List Char)) : List Char :=
  match bound.get? name with
  | some v => (v.getD "").toList
  | none =>
    match environment.get? name with
    | some v => v.toList
    | none => dflt.getD []

def resolve (environment : Table String)
    (raw : List (List Char × Option (List Char))) : Bindings :=
  raw.foldl
    (fun bound b ↦
      let v := b.2.map fun cs ↦
        String.ofList (expand (lookUp bound environment) (cs.length + 1) cs)
      Table.put (String.ofList b.1) v bound)
    []

def read (environment : Table String) (text : String) : Bindings :=
  resolve environment (bindings (unifyLineEnds text.toList))

end StatusRelay.EnvFile
