import SoundLaw.Json.Check

/-!
# Calling a logger by method name

An event is logged by calling a method of a fresh logger by name, the event as the one positional
argument and the event's other members as named arguments. The logger filters at a threshold:
each level method (`debug`, `info`, `warning`, `error`, `critical`, and `msg`, `warn`, `fatal`
for the second, third and fifth) logs when its level reaches the threshold and does nothing
otherwise, and `exception` logs at the error level. A method name is one of:

* a level method, or `exception` — logs, or does nothing below the threshold;
* `a` and a level method name, or `aexception` — deferred: it takes its arguments and does
  nothing now;
* `log`, `alog` — take the level as the first argument, so the event lands there and the event
  argument is missing;
* `is_enabled_for` — takes the event as the level number to ask about and logs nothing;
  `get_effective_level` takes no argument besides the logger;
* `_proxy_to_logger` — takes the event as the name of the printer's method and prints the other
  members through it at whatever threshold, without an `event` member; the printer's methods are
  `msg`, `log`, `failure`, `err`, `exception` and the level names, and a name it lacks fails once
  the record is rendered;
* `_process_event` — needs the event text and the members as two more arguments;
* `bind`, `new` — take no positional argument besides the logger;
* `unbind`, `try_unbind` — take the event as a key to remove from the empty context and no named
  argument; `unbind` fails on the missing key, `try_unbind` does nothing;
* one of the logger's data attributes — not callable;
* anything else — no such attribute.

A named argument `self` collides with the logger itself, in every function that takes it.

* `Logging.Fault` — why a call fails, with `className` and `message`;
* `Logging.Target`, `Logging.target` — what a method name does at a threshold;
* `Logging.Delivery` — what a call hands on to be rendered;
* `Logging.Target.call` — the delivery of an event, if there is one, or the fault.
-/

namespace SoundLaw

namespace Logging

/-- Why logging an event fails. -/
inductive Fault
  /-- A look-up by a key that is absent; the key is named. -/
  | missingKey (key : Json)
  /-- The logger has no attribute of this name; the logger's kind is named. -/
  | noAttribute (logger : String) (name : String)
  /-- The attribute is a value of the named type, not a function. -/
  | notCallable (type : String)
  /-- A named argument gives a value to a parameter already given one. -/
  | repeatedArgument (function : String) (parameter : String)
  /-- A named argument the function does not take. -/
  | unexpectedKeyword (function : String) (name : String)
  /-- A positional argument more than the function takes. -/
  | tooManyPositional (function : String)
  /-- Positional parameters that got no argument. -/
  | missingArguments (function : String) (parameters : List String)
  /-- A value that cannot be a key, of the named type. -/
  | unhashable (type : String)
  /-- A value of the named type joined to text. -/
  | notText (type : String)
  /-- A level name that is not text, of the named type. -/
  | nameNotText (type : String)
  /-- A method name that is not text, of the named type. -/
  | methodNotText (type : String)
  /-- A value of the named type compared with a level number. -/
  | notComparable (type : String)
  /-- A value of the named type measured as text. -/
  | noLength (type : String)

/-- The name a fault is reported under. -/
def Fault.className : Fault → String
  | .missingKey _ => "KeyError"
  | .noAttribute .. | .nameNotText _ => "AttributeError"
  | _ => "TypeError"

/-- The text of a fault. -/
def Fault.message : Fault → String
  | .missingKey key => key.display
  | .noAttribute logger name => "'" ++ logger ++ "' object has no attribute '" ++ name ++ "'"
  | .notCallable type => "'" ++ type ++ "' object is not callable"
  | .repeatedArgument f p => f ++ "() got multiple values for argument '" ++ p ++ "'"
  | .unexpectedKeyword f k => f ++ "() got an unexpected keyword argument '" ++ k ++ "'"
  | .tooManyPositional f => f ++ "() takes 1 positional argument but 2 were given"
  | .missingArguments f ps =>
    let quoted := ps.map fun p => "'" ++ p ++ "'"
    let listed := match quoted with
      | [a, b] => a ++ " and " ++ b
      | _ => match quoted.reverse with
        | last :: earlier@(_ :: _) => ", ".intercalate earlier.reverse ++ ", and " ++ last
        | _ => String.join quoted
    f ++ "() missing " ++ toString ps.length ++ " required positional argument" ++
      (if ps.length = 1 then "" else "s") ++ ": " ++ listed
  | .unhashable type => "unhashable type: '" ++ type ++ "'"
  | .notText type => "can only concatenate str (not \"" ++ type ++ "\") to str"
  | .nameNotText type => "'" ++ type ++ "' object has no attribute 'upper'"
  | .methodNotText type => "attribute name must be string, not '" ++ type ++ "'"
  | .noLength type => "object of type '" ++ type ++ "' has no len()"
  | .notComparable type =>
    "'>=' not supported between instances of '" ++ type ++ "' and 'int'"

/-- The levels by number, with the name records carry. -/
def levelName : Nat → String
  | 50 => "critical"
  | 40 => "error"
  | 30 => "warning"
  | 20 => "info"
  | 10 => "debug"
  | _ => "notset"

/-- The kind of logger that filters at a threshold. -/
def filterName (least : Nat) : String :=
  "BoundLoggerFilteringAt" ++
    match least with
    | 50 => "Critical"
    | 40 => "Error"
    | 30 => "Warning"
    | 20 => "Info"
    | 10 => "Debug"
    | _ => "Notset"

/-- The level of a level method, by name. -/
def methodLevel (m : String) : Option Nat :=
  [("debug", 10), ("info", 20), ("msg", 20), ("warning", 30), ("warn", 30), ("error", 40),
    ("critical", 50), ("fatal", 50)].lookup m

/-- The level of a deferred level method, by name: `a` before a level method's name. -/
def deferredLevel? (m : String) : Option Nat :=
  match m.toList with
  | 'a' :: rest => methodLevel (String.ofList rest)
  | _ => none

/-- The function behind a level method that logs. -/
def loggingFunction : String := "_make_filtering_bound_logger.<locals>.make_method.<locals>.meth"

/-- The function behind a deferred level method that would log. -/
def deferredFunction : String := "_make_filtering_bound_logger.<locals>.make_method.<locals>.ameth"

/-- The function behind the two questions about the threshold. -/
def questionFunction : String := "_make_filtering_bound_logger.<locals>.<lambda>"

/-- The methods of the printer behind every logger; each prints its one argument. -/
def printerMethods : List String :=
  ["msg", "log", "debug", "info", "warn", "warning", "fatal", "failure", "err", "error",
    "critical", "exception"]

/-- The level a record carries for the method name it is printed with: `warn` is `warning` and
`exception` is `error`. -/
def recordLevel (m : String) : String :=
  if m = "warn" then "warning" else if m = "exception" then "error" else m

/-- What calling a method name does with an event. -/
inductive Target
  /-- Logs at `level` through `function`. -/
  | logs (function : String) (level : Nat)
  /-- Takes its arguments through `function` and does nothing. -/
  | idle (function : String)
  /-- Takes a level first, so the event argument is missing. -/
  | needsLevel (function : String)
  /-- Asks about the threshold: takes the event as its one argument, a level to compare with
  the threshold, when `takesOne`, else no argument besides the logger. -/
  | asks (takesOne : Bool)
  /-- Prints the event's members through the printer's method the event names. -/
  | prints
  /-- Needs the event text and the members as two more arguments. -/
  | needsParts
  /-- Takes no positional argument besides the logger. -/
  | bindsOnly (function : String)
  /-- Removes the event as a key of the empty context; `strict` fails on a missing key. -/
  | removes (function : String) (strict : Bool)
  /-- Not callable: a value of the named type. -/
  | value (type : String)
  /-- No attribute of that name. -/
  | missing

/-- What a method name does at the threshold `least`. -/
def target (least : Nat) (m : String) : Target :=
  match methodLevel m with
  | some level => if least ≤ level then .logs loggingFunction level else .idle "_nop"
  | none =>
    if m = "exception" then (if least ≤ 40 then .logs "exception" 40 else .idle "exception")
    else if m = "aexception" then .idle "aexception"
    else if let some level := deferredLevel? m then
      .idle (if least ≤ level then deferredFunction else "_anop")
    else if m = "log" then .needsLevel "_make_filtering_bound_logger.<locals>.log"
    else if m = "alog" then .needsLevel "_make_filtering_bound_logger.<locals>.alog"
    else if m = "is_enabled_for" then .asks true
    else if m = "get_effective_level" then .asks false
    else if m = "_proxy_to_logger" then .prints
    else if m = "_process_event" then .needsParts
    else if m = "bind" ∨ m = "new" then .bindsOnly ("BoundLoggerLazyProxy." ++ m)
    else if m = "unbind" then .removes "BoundLoggerLazyProxy.unbind" true
    else if m = "try_unbind" then .removes "BoundLoggerLazyProxy.try_unbind" false
    else if ["_logger", "_wrapper_class", "_processors", "_context_class",
        "_cache_logger_on_first_use"].contains m then .value "NoneType"
    else if m = "_initial_values" ∨ m = "_context" then .value "dict"
    else if m = "_logger_factory_args" then .value "tuple"
    else .missing

/-- The fault of a named argument `self`, which collides with the logger itself. -/
def selfClash (function : String) (names : List String) : Option Fault :=
  if names.contains "self" then some (.repeatedArgument function "self") else none

/-- The first named argument, in order, that either repeats one of the `given` parameters or is
not one of the `taken` ones when `open` is false; named arguments are bound one by one. -/
def keywordFault (function : String) (given taken : List String) (anyName : Bool) :
    List String → Option Fault
  | [] => none
  | k :: rest =>
    if given.contains k then some (.repeatedArgument function k)
    else if anyName || taken.contains k then keywordFault function given taken anyName rest
    else some (.unexpectedKeyword function k)

/-- What a call hands on to be rendered: the record's `level` member, whether the event is its
`event` member, and the fault raised once the record is rendered, if any. -/
structure Delivery where
  level : Json
  named : Bool
  after : Option Fault

/-- Calls a target at threshold `least` with the event `name` and the named arguments `names`:
the delivery of the event, `none` when nothing is logged, or the fault. -/
def Target.call (t : Target) (least : Nat) (m : String) (name : Json) (names : List String) :
    Except Fault (Option Delivery) :=
  match t with
  | .logs function level =>
    match selfClash function names with
    | some f => .error f
    | none =>
      if names.contains "method_name" then
        .error (.repeatedArgument "BoundLoggerBase._proxy_to_logger" "method_name")
      else .ok (some ⟨.str (levelName level), true, none⟩)
  | .idle function =>
    match selfClash function names with
    | some f => .error f
    | none => .ok none
  | .needsLevel function =>
    match selfClash function names with
    | some f => .error f
    | none => .error (.missingArguments function ["event"])
  | .asks takesOne =>
    match keywordFault questionFunction (if takesOne then ["self", "level"] else ["self"]) []
      false names with
    | some f => .error f
    | none =>
      if !takesOne then .error (.tooManyPositional questionFunction)
      else match name with
        | .int _ | .real _ | .bool _ => .ok none
        | j => .error (.notComparable j.typeName)
  | .prints =>
    match keywordFault "BoundLoggerBase._proxy_to_logger" ["self", "method_name"] [] true
      names with
    | some f => .error f
    | none =>
      match name with
      | .str p =>
        if printerMethods.contains p then .ok (some ⟨.str (recordLevel p), false, none⟩)
        else .ok (some ⟨.str p, false, some (.noAttribute "PrintLogger" p)⟩)
      | j => .ok (some ⟨j, false, some (.methodNotText j.typeName)⟩)
  | .needsParts =>
    let function := "BoundLoggerBase._process_event"
    match keywordFault function ["self", "method_name"] ["event", "event_kw"] false names with
    | some f => .error f
    | none =>
      .error (.missingArguments function (["event", "event_kw"].filter (!names.contains ·)))
  | .bindsOnly function =>
    match selfClash function names with
    | some f => .error f
    | none => .error (.tooManyPositional function)
  | .removes function strict =>
    match names with
    | k :: _ =>
      if k = "self" then .error (.repeatedArgument function "self")
      else .error (.unexpectedKeyword function k)
    | [] =>
      match name with
      | .arr _ | .obj _ => .error (.unhashable name.typeName)
      | _ => if strict then .error (.missingKey name) else .ok none
  | .value type => .error (.notCallable type)
  | .missing => .error (.noAttribute (filterName least) m)

end Logging

end SoundLaw
