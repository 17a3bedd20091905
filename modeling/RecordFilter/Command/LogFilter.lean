import RecordFilter.Number.Reading
import RecordFilter.Regex.Reader
import RecordFilter.Text.Pieces

/-!
# LogFilter — which log levels are valid

A log filter is a list of directives with commas between them, of which some may be empty.  A
directive is a level, a target, or a target or span with an equals sign and a level; a span stands
between brackets and may name a field between braces, with a value or a pattern for it.

Blanks around a directive are passed over in finding its parts, but a part is then taken at its
offset in the directive as it was written.  So blanks at the front shift the parts, and a part may
begin or end inside a character; then the filter is not merely wrong, it cannot be judged.
-/

namespace RecordFilter
namespace LogFilter

open Text

/-! ## Levels and fields -/

/-- The number that digits with an optional plus sign stand for, up to five. -/
def isLevelNumber (s : Text) : Bool :=
  let digits := match s with
    | '+' :: rest => rest
    | _ => s
  !digits.isEmpty && digits.all Char.isDigit && Nat.ofDigitChars 10 digits 0 ≤ 5

/-- Whether a text is a level, as a word in any letter case or as a number; no text is one too. -/
def isLevel (s : Text) : Bool :=
  s.isEmpty || isLevelNumber s ||
    ["error", "warn", "info", "debug", "trace", "off"].any
      fun word => s.equalsIgnoringCase word.toList

/-- Whether a text is a field: a name, and a number or a pattern for its value if an equals sign
follows. -/
def isField (s : Text) : Bool :=
  !s.isEmpty &&
    match (split '=' s)[1]? with
    | none => true
    | some value => (Number.read? value).isSome || Regex.isPattern value

/-! ## Directives -/

/-- Why a directive is refused: it is none, or a part of it begins or ends inside a character. -/
inductive Refusal where
  | malformed
  | cut
  deriving DecidableEq, Repr

/-- The part of a directive between two offsets. -/
def part (directive : Text) (first last : Nat) : Except Refusal Text :=
  match slice? first last directive with
  | some s => .ok s
  | none => .error .cut

/-- Where the reader of a directive stands, with the offset at which the present part began. -/
inductive State where
  | start
  | target
  | level (first : Nat)
  | span (first : Nat)
  | field (first : Nat)
  | fields
  | closed
  deriving DecidableEq, Repr

/-- Whether a directive may begin with a character. -/
def beginsTarget (c : Char) : Bool := c == '-' || c == ':' || c == '_' || isAlphanumeric c

/-- Reads the character at an offset. -/
def State.step (directive : Text) (offset : Nat) (state : State) (c : Char) :
    Except Refusal State :=
  match state with
  | .start =>
      if c = '[' then .ok (.span 1) else if beginsTarget c then .ok .target else .error .malformed
  | .target =>
      if c = '=' then (part directive 0 offset).map fun _ => .level (offset + 1)
      else if c = '[' then (part directive 0 offset).map fun _ => .span (offset + 1)
      else .ok .target
  | .level first => .ok (.level first)
  | .span first =>
      if c = ']' then (part directive first offset).map fun _ => .closed
      else if c = '\x7b' then (part directive first offset).map fun _ => .field (offset + 1)
      else .ok (.span first)
  | .field first =>
      if c = '\x7d' then
        (part directive first offset).bind fun s =>
          if isField s then .ok .fields else .error .malformed
      else .ok (.field first)
  | .fields => if c = ']' then .ok .closed else .error .malformed
  | .closed => if c = '=' then .ok (.level (offset + 1)) else .error .malformed

/-- Reads the characters from an offset on. -/
def State.run (directive : Text) (offset : Nat) (state : State) : Text → Except Refusal State
  | [] => .ok state
  | c :: rest =>
      (state.step directive offset c).bind fun next =>
        next.run directive (offset + c.utf8Size) rest

/-- Whether a directive may end in a state. -/
def State.finish (directive : Text) : State → Except Refusal Unit
  | .target | .closed => .ok ()
  | .level first =>
      (part directive first (byteSize directive)).bind fun s =>
        if isLevel s then .ok () else .error .malformed
  | _ => .error .malformed

/-- Whether a text is a directive. -/
def checkDirective (s : Text) : Except Refusal Unit :=
  (State.start.run s 0 (trim s)).bind (State.finish s)

/-! ## Filters -/

/-- The directives of a filter. -/
def directives (s : Text) : List Text := (split ',' s).filter fun d => !d.isEmpty

/-- Whether a text is a log filter; the first directive that is refused decides. -/
def check (s : Text) : Except Refusal Unit := (directives s).forM checkDirective

/-- Whether a filter can be judged when directives that are malformed are passed over. -/
def isJudged (s : Text) : Bool :=
  (directives s).all fun d =>
    match checkDirective d with
    | .error .cut => false
    | _ => true

end LogFilter
end RecordFilter
