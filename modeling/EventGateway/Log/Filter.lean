import EventGateway.Log

/-! Which log lines are shown. A filter is a list of directives with commas between them: a level
for all lines, or one for the lines whose source has a name that starts with a given text. -/

namespace EventGateway

structure LogDirective where
  target : String
  /-- The most detailed level that is shown, if any is. -/
  limit : Option Level
  deriving DecidableEq, Repr

namespace LogDirective

/-- Levels by number, from the one that shows nothing. -/
def limits : List (Option Level) := none :: Level.all.map some

def limitOfDigits? (cs : List Char) : Option (Option Level) :=
  if cs.isEmpty || cs.any fun c => !c.isDigit then none
  else limits[cs.foldl (fun n c => n * 10 + (c.toNat - '0'.toNat)) 0]?

def limitOfName? (s : String) : Option (Option Level) :=
  if s = "off" then some none
  else (Level.all.find? fun l => l.name.toLower = s).map some

def limit? (cs : List Char) : Option (Option Level) :=
  let digits := match cs with
    | '+' :: r => r
    | _ => cs
  limitOfDigits? digits <|> limitOfName? (String.ofList cs).toLower

/-- The level behind an equals sign; when it is left out everything is shown. -/
def limitBehind? (cs : List Char) : Option (Option Level) :=
  if cs.isEmpty then some (some .trace) else limit? cs

/-- Whether a directive can start with it. Every letter outside ASCII can. -/
def startsDirective (c : Char) : Bool := c.isAlphanum || c ∈ ['-', ':', '_'] || 128 ≤ c.toNat

/-- A directive for spans: there are none, so it shows nothing. -/
def ofSpan? (cs : List Char) : Option (List LogDirective) :=
  match cs.dropWhile (· ≠ ']') with
  | [']'] => some []
  | ']' :: '=' :: level => (limitBehind? level).map fun _ => []
  | _ => none

/-- A word alone is a level, or a target all of whose lines are shown. -/
def ofWord (cs : List Char) : LogDirective :=
  match limit? cs with
  | some l => ⟨"", l⟩
  | none => ⟨String.ofList cs, some .trace⟩

/-- Blanks count as part of the directive, and a level cannot be given behind them. -/
def ofText? (cs : List Char) : Option (List LogDirective) :=
  match cs.dropWhile Char.isWhitespace with
  | [] => none
  | c :: _ =>
    let target := cs.takeWhile fun c => c ≠ '=' && c ≠ '['
    if c = '[' then ofSpan? cs
    else if !startsDirective c then none
    else
      match cs.drop target.length with
      | [] => some [ofWord cs]
      | '[' :: r => ofSpan? r
      | _ :: level =>
        if cs.head?.any Char.isWhitespace then none
        else (limitBehind? level).map fun l => [⟨String.ofList target, l⟩]

end LogDirective

structure LogFilter where
  directives : List LogDirective
  deriving DecidableEq, Repr

namespace LogFilter

/-- Information, and a little more from the parts that deliver events. -/
def standard : LogFilter := ⟨[⟨"", some .info⟩, ⟨"wsnotify_core", some .debug⟩]⟩

/-- An empty text shows nothing. -/
def ofText? (s : String) : Option LogFilter :=
  if s = "" then some ⟨[]⟩
  else (((s.splitOn ",").mapM fun d => LogDirective.ofText? d.toList).map List.flatten).map mk

def ofSetting (s : Option String) : LogFilter := (s.bind ofText?).getD standard

/-- The directive with the longest target decides, and of two with the same one the later. -/
def directiveFor? (f : LogFilter) (l : LogLine) : Option LogDirective :=
  (f.directives.filter fun d => d.target.isPrefixOf l.source.name).foldl (fun best d =>
    match best with
    | none => some d
    | some b => if b.target.length ≤ d.target.length then some d else some b) none

def admits (f : LogFilter) (l : LogLine) : Bool :=
  match (f.directiveFor? l).bind LogDirective.limit with
  | some limit => l.level.rank ≤ limit.rank
  | none => false

end LogFilter

end EventGateway
