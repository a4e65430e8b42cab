import PolicyDiagram.Log.Level
import PolicyDiagram.Log.Pattern
import PolicyDiagram.Text.Utf8

/-!
Filters of log lines: directives, separated by commas, that set the threshold for a part of the program. Blanks
at the ends of a directive do not count when its parts are told apart, but they do when the parts are cut out:
their places are counted without the blanks, and are looked up in the directive as it is written.
-/

namespace PolicyDiagram.Log

/-- A directive that names a span, or a value of a field, speaks about no line outside of spans. -/
structure Directive where
  target : Option String
  span : Option String
  fields : List (String × Option String)
  threshold : Threshold
deriving DecidableEq, Repr

inductive FilterError where
  | malformed
  | unknownLevel
  | badValue (fault : PatternFault)
  | torn
deriving DecidableEq, Repr

def FilterError.message : FilterError → String
  | malformed => "invalid filter directive"
  | badValue .malformed => "invalid field filter: error building NFA"
  | badValue .wordEnds =>
    "invalid field filter: unsupported regex feature for DFAs: cannot build DFAs for regexes with Unicode " ++
      "word boundaries; switch to ASCII word boundaries, or heuristically enable Unicode word boundaries or " ++
      "use a different regex engine"
  | torn => "invalid place in filter directive"
  | unknownLevel =>
    "error parsing level filter: expected one of \"off\", \"error\", \"warn\", \"info\", \"debug\", " ++
      "\"trace\", or a number 0-5"

namespace Directive

def part (written : List Char) (start stop : Nat) : Except FilterError (List Char) :=
  match Text.splitBytes? written start with
  | some (_, rest) =>
    match Text.splitBytes? rest (stop - start) with
    | some (part, _) => .ok part
    | none => .error .torn
  | none => .error .torn

def thresholdOf (text : List Char) : Except FilterError Threshold :=
  if text.isEmpty then .ok 5
  else
    match threshold? text with
    | some threshold => .ok threshold
    | none => .error .unknownLevel

def leveled (written : List Char) (start : Nat) (directive : Directive) : Except FilterError Directive := do
  return { directive with threshold := ← thresholdOf (← part written start (Text.byteCount written)) }

def close (written : List Char) (place : Nat) (directive : Directive) :
    List Char → Except FilterError Directive
  | [] => .ok directive
  | '=' :: _ => directive.leveled written (place + 1)
  | _ => .error .malformed

def isNumber (text : List Char) : Bool :=
  let unsigned := if text.head? = some '+' ∨ text.head? = some '-' then text.tail else text
  let whole := unsigned.takeWhile Char.isDigit
  let rest := unsigned.dropWhile Char.isDigit
  let (fraction, rest) :=
    match rest with
    | '.' :: rest => (rest.takeWhile Char.isDigit, rest.dropWhile Char.isDigit)
    | _ => ([], rest)
  let exponent (text : List Char) : Bool :=
    let digits := if text.head? = some '+' ∨ text.head? = some '-' then text.tail else text
    !digits.isEmpty && digits.all Char.isDigit
  ["inf", "infinity", "nan"].contains (String.ofList (unsigned.map Char.toLower)) ||
    (!(whole.isEmpty && fraction.isEmpty) &&
      match rest with
      | [] => true
      | c :: rest => (c == 'e' || c == 'E') && exponent rest)

def field (text : List Char) : Except FilterError (String × Option String) :=
  let name := String.ofList (text.takeWhile (· != '='))
  match text, text.dropWhile (· != '=') with
  | [], _ => .error .malformed
  | _, [] => .ok (name, none)
  | _, _ :: rest =>
    let value := rest.takeWhile (· != '=')
    match if isNumber value then none else Pattern.fault? value with
    | some fault => .error (.badValue fault)
    | none => .ok (name, some (String.ofList value))

def spanned (written : List Char) (target : Option String) (start : Nat) (text : List Char) :
    Except FilterError Directive := do
  let stops (c : Char) : Bool := c == ']' || c == '\x7b'
  let stop := start + Text.byteCount (text.takeWhile (!stops ·))
  match text.dropWhile (!stops ·) with
  | [] => .error .malformed
  | ']' :: rest =>
    let span := String.ofList (← part written start stop)
    close written (stop + 1) ⟨target, some span, [], 5⟩ rest
  | _ :: inner =>
    let name := String.ofList (← part written start stop)
    let span := if name.isEmpty then none else some name
    let last := stop + 1 + Text.byteCount (inner.takeWhile (· != '\x7d'))
    match inner.dropWhile (· != '\x7d') with
    | [] => .error .malformed
    | _ :: rest =>
      let field ← field (← part written (stop + 1) last)
      match rest with
      | ']' :: rest => close written (last + 2) ⟨target, span, [field], 5⟩ rest
      | _ => .error .malformed

def startsTarget (c : Char) : Bool := Text.isAlphanumeric c || "-:_".toList.contains c

/-- A level alone sets the threshold of the whole program, a target alone lets all of its lines pass. -/
def parse (written : List Char) : Except FilterError Directive := do
  let text := Text.trimmed written
  let stops (c : Char) : Bool := c == '=' || c == '['
  let stop := Text.byteCount (text.takeWhile (!stops ·))
  match text, text.dropWhile (!stops ·) with
  | [], _ => .error .malformed
  | '[' :: rest, _ => spanned written none 1 rest
  | first :: _, rest =>
    if !startsTarget first then .error .malformed
    else
      match rest with
      | [] =>
        match threshold? written with
        | some threshold => .ok ⟨none, none, [], threshold⟩
        | none => .ok ⟨some (String.ofList written), none, [], 5⟩
      | c :: rest =>
        let target := some (String.ofList (← part written 0 stop))
        if c = '[' then spanned written target (stop + 1) rest
        else leveled written (stop + 1) ⟨target, none, [], 5⟩

def isPlain (directive : Directive) : Bool :=
  directive.span.isNone && directive.fields.all (·.2.isNone)

def covers (directive : Directive) (target : String) (fields : List String) : Bool :=
  directive.isPlain && directive.target.all (·.toList.isPrefixOf target.toList) &&
    directive.fields.all fun (name, _) => fields.contains name

/-- The length of the target decides first, then the number of fields. -/
def weight (directive : Directive) : Nat × Nat :=
  ((directive.target.map (·.utf8ByteSize + 1)).getD 0, directive.fields.length)

def outweighs (directive other : Directive) : Bool :=
  let (size, count) := directive.weight
  let (otherSize, otherCount) := other.weight
  otherSize < size || (size == otherSize && otherCount ≤ count)

end Directive

abbrev Filter := List Directive

namespace Filter

def parse (text : String) : Except FilterError Filter := do
  let parts := (text.toList.splitOn ',').filter (!·.isEmpty)
  let directives ← parts.mapM Directive.parse
  return if directives.isEmpty then [⟨none, none, [], Level.error.rank⟩] else directives

/-- Of several directives that are equally specific the last one decides. -/
def decisive (filter : Filter) (target : String) (fields : List String) : Option Directive :=
  (filter.filter (·.covers target fields)).foldl
    (fun best directive =>
      match best with
      | some other => if directive.outweighs other then some directive else best
      | none => some directive) none

def passes (filter : Filter) (level : Level) (target : String) (fields : List String) : Bool :=
  (filter.decisive target fields).any (level.rank ≤ ·.threshold)

end Filter

end PolicyDiagram.Log
