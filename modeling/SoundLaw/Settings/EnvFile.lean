import SoundLaw.Text.Blank

/-!
# Settings files

A settings file is read as one stream of *bindings* `NAME=value`, with line breaks (`\r\n`,
`\r`, `\n`) read as `\n` first. Before each binding, blank space and blank lines are skipped.

* A binding may start with `export` and blank space. Its name is bare (no `=`, `#` or blank) or
  between single quotes.
* A line whose first solid character is `#` binds nothing.
* After the name and blank space, `=` gives a value; without `=` the name is bound to no value.
* A value between single or double quotes may run over several lines. A backslash before the
  quote keeps that quote inside; after the inside is found, backslash escapes are undone
  (`\\` and `\'` in single quotes, also `\"` and the letters `a b f n r t v` in double quotes).
* A bare value runs to the end of the line, is cut at the first `#` that follows blank space,
  and loses its trailing blanks.
* After the value, blank space and a `#` comment may follow, then the line must end. A binding
  that breaks these rules binds nothing, and reading goes on after the line where it broke.

Values may then refer to others: `${NAME}` is replaced by the value of an earlier binding of
`NAME` in the file, or else of the variable `NAME` of the environment, or else by nothing;
`${NAME:-text}` gives `text` in place of nothing. The file then assigns each name its last
value, no value included, keeping the names in the order they first appear.

* `EnvFile.bindings` — the bindings of a text, in order;
* `EnvFile.assign` — a name's value set in place, or added at the end;
* `EnvFile.parse` — the assignments of a text, with the references in their values resolved.
-/

namespace SoundLaw

namespace EnvFile

/-- Blank space inside a line: a blank other than a line break. -/
def isInline (c : Char) : Bool := Text.isBlank c && c != '\n' && c != '\r'

/-- The text with each line break (`\r\n`, `\r` or `\n`) written as `\n`. -/
def unifyBreaks : List Char → List Char
  | '\r' :: '\n' :: rest => '\n' :: unifyBreaks rest
  | '\r' :: rest => '\n' :: unifyBreaks rest
  | c :: rest => c :: unifyBreaks rest
  | [] => []

/-- The rest of a text after its current line, line break included. -/
def nextLine (cs : List Char) : List Char := (cs.dropWhile (· != '\n')).drop 1

/-- The inside of a value quoted by `q`, and the text after its closing quote. The inside runs
up to the first quote that no backslash stands before; `last` is the answer to fall back on when
there is no such quote: the inside ending at the last backslash-quote pair, whose quote then
closes the value. -/
def quotedFrom (q : Char) (acc : List Char) (last : Option (List Char × List Char)) :
    List Char → Option (List Char × List Char)
  | [] => last
  | '\\' :: c :: rest =>
    if c = q then quotedFrom q (c :: '\\' :: acc) (some (('\\' :: acc).reverse, rest)) rest
    else quotedFrom q ('\\' :: acc) last (c :: rest)
  | c :: rest => if c = q then some (acc.reverse, rest) else quotedFrom q (c :: acc) last rest

/-- The text with the backslash escapes that `decode` knows undone, left to right. -/
def unescape (decode : Char → Option Char) : List Char → List Char
  | '\\' :: c :: rest =>
    match decode c with
    | some d => d :: unescape decode rest
    | none => '\\' :: unescape decode (c :: rest)
  | c :: rest => c :: unescape decode rest
  | [] => []

/-- The escapes of a single-quoted value. -/
def singleEscape (c : Char) : Option Char := if c = '\'' ∨ c = '\\' then some c else none

/-- The escapes of a double-quoted value. -/
def doubleEscape (c : Char) : Option Char :=
  if c = '\\' ∨ c = '\'' ∨ c = '"' then some c
  else if c = 'n' then some '\n' else if c = 't' then some '\t' else if c = 'r' then some '\r'
  else if c = 'a' then some (Char.ofNat 7) else if c = 'b' then some (Char.ofNat 8)
  else if c = 'f' then some (Char.ofNat 12) else if c = 'v' then some (Char.ofNat 11)
  else none

/-- A bare value: cut at the first `#` that follows blank space, trailing blanks dropped. -/
def bare : List Char → List Char
  | [] => []
  | c :: rest =>
    if Text.isBlank c && (rest.dropWhile Text.isBlank).head? == some '#' then []
    else
      let tail := bare rest
      if Text.isBlank c && tail.isEmpty then [] else c :: tail

/-- The value at the front of `cs` (just after `=` and blank space) and the text after it;
`none` when a quote is never closed. -/
def value (cs : List Char) : Option (String × List Char) :=
  match cs with
  | '\'' :: rest =>
    (quotedFrom '\'' [] none rest).map fun (inside, after) =>
      (String.ofList (unescape singleEscape inside), after)
  | '"' :: rest =>
    (quotedFrom '"' [] none rest).map fun (inside, after) =>
      (String.ofList (unescape doubleEscape inside), after)
  | _ =>
    let line := cs.takeWhile (· != '\n')
    some (String.ofList (bare line), cs.drop line.length)

/-- The name at the front of `cs`: quoted, or bare up to `=`, `#` or a blank; `none` when there
is none. -/
def name (cs : List Char) : Option (List Char × List Char) :=
  match cs with
  | '\'' :: rest =>
    let inside := rest.takeWhile (· != '\'')
    match rest.drop inside.length with
    | '\'' :: after => if inside.isEmpty then none else some (inside, after)
    | _ => none
  | _ =>
    let key := cs.takeWhile fun c => c != '=' && c != '#' && !Text.isBlank c
    if key.isEmpty then none else some (key, cs.drop key.length)

/-- What follows a value: blank space and an optional `#` comment, then the end of the line or
of the text. The answer is the text after the line, or `none` when something else follows. -/
def lineEnd (cs : List Char) : Option (List Char) :=
  let afterComment := match cs.dropWhile isInline with
    | '#' :: rest => rest.dropWhile (· != '\n')
    | _ => cs
  match afterComment.dropWhile isInline with
  | [] => some []
  | '\n' :: rest => some rest
  | _ => none

/-- The text after an optional `export` and blank space. -/
def afterExport (cs : List Char) : List Char :=
  match cs.drop 6 with
  | c :: rest => if cs.take 6 = "export".toList && isInline c then rest.dropWhile isInline else cs
  | [] => cs

/-- One binding read from `cs`, which starts with a solid character: the name and the value it
binds (no binding for a comment or a broken binding), and the text after it. -/
def binding (cs : List Char) : Option (String × Option String) × List Char :=
  match cs with
  | '#' :: _ =>
    match lineEnd cs with
    | some rest => (none, rest)
    | none => (none, nextLine cs)
  | _ =>
    let cs := afterExport cs
    match name cs with
    | none => (none, nextLine cs)
    | some (key, rest) =>
      let rest := rest.dropWhile isInline
      let assigned : Option (Option String × List Char) := match rest with
        | '=' :: after => (value (after.dropWhile isInline)).map fun (v, r) => (some v, r)
        | _ => some (none, rest)
      match assigned with
      | none => (none, nextLine rest)
      | some (v, after) =>
        match lineEnd after with
        | some next => (some (String.ofList key, v), next)
        | none => (none, nextLine after)

/-- The bindings of a text, in order, reading at most `fuel` of them. -/
def bindingsFrom : Nat → List Char → List (String × Option String)
  | 0, _ => []
  | fuel + 1, cs =>
    match cs.dropWhile Text.isBlank with
    | [] => []
    | solid =>
      let (b, rest) := binding solid
      b.toList ++ bindingsFrom fuel rest

/-- The bindings of a text, in order. Each binding reads at least one character, so one more
than the length of the text is enough. -/
def bindings (text : String) : List (String × Option String) :=
  let cs := unifyBreaks text.toList
  bindingsFrom (cs.length + 1) cs

/-- The value with each `${NAME}` or `${NAME:-text}` replaced: `known NAME` is the value of the
name, if it has one; otherwise the default text, or nothing. -/
def resolve (known : String → Option String) : List Char → List Char
  | '$' :: '{' :: rest =>
    let nm := rest.takeWhile fun c => c != '}' && c != ':'
    match h : rest.drop nm.length with
    | '}' :: after =>
      have : after.length < rest.length + 1 := by
        have e := congrArg List.length h
        simp only [List.length_drop, List.length_cons] at e
        omega
      ((known (String.ofList nm)).getD "").toList ++ resolve known after
    | ':' :: '-' :: more =>
      let dflt := more.takeWhile (· != '}')
      match h' : more.drop dflt.length with
      | '}' :: after =>
        have : after.length < rest.length + 1 := by
          have e := congrArg List.length h
          have e' := congrArg List.length h'
          simp only [List.length_drop, List.length_cons] at e e'
          omega
        ((known (String.ofList nm)).getD (String.ofList dflt)).toList ++ resolve known after
      | _ => '$' :: resolve known ('{' :: rest)
    | _ => '$' :: resolve known ('{' :: rest)
  | c :: rest => c :: resolve known rest
  | [] => []
termination_by cs => cs.length

/-- The assignments with `name`'s value set where the name stands, or added at the end. -/
def assign {α : Type} (name : String) (v : α) : List (String × α) → List (String × α)
  | [] => [(name, v)]
  | (k, w) :: rest => if k = name then (k, v) :: rest else (k, w) :: assign name v rest

/-- The assignments of a settings file: each name once, in the order it first appears, with its
last value; references are resolved against earlier bindings of the file and then the
environment `env`. A name bound to no value is assigned `none`. -/
def parse (env : List (String × String)) (text : String) : List (String × Option String) :=
  let step (done : List (String × Option String)) (b : String × Option String) :=
    let known (n : String) : Option String :=
      match done.lookup n with
      | some v => some (v.getD "")
      | none => env.lookup n
    assign b.1 (b.2.map fun v => String.ofList (resolve known v.toList)) done
  (bindings text).foldl step []

end EnvFile

end SoundLaw
