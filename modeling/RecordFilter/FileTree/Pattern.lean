import RecordFilter.Text.Pieces

/-!
# Pattern — names with wildcards

A pattern for one component of a path: `?` stands for one character, `*` for any number, brackets
for one character of a class, and the pattern `**` for any number of components.  Any other
character stands for itself.
-/

namespace RecordFilter
namespace FileTree

/-- Ranges of characters, both ends included. -/
abbrev CharClass := List (Char × Char)

/-- Whether a class holds a character. -/
def CharClass.holds (ranges : CharClass) (c : Char) : Bool :=
  ranges.any fun (low, high) => low ≤ c && c ≤ high

/-- One part of a pattern. -/
inductive Token where
  | literal (c : Char)
  | anyChar
  | anyText
  | anyDepth
  | within (ranges : CharClass)
  | except (ranges : CharClass)
  deriving DecidableEq, Repr

/-- Whether a token that stands for one character admits a given one. -/
def Token.admits (c : Char) : Token → Bool
  | .literal d => c == d
  | .anyChar => true
  | .within ranges => ranges.holds c
  | .except ranges => !ranges.holds c
  | .anyText | .anyDepth => false

/-- A pattern for one component. -/
abbrev Pattern := List Token

namespace Pattern

/-! ## Reading -/

/-- The ranges in a class: two characters with a hyphen between them, or single characters. -/
def ranges : Text → CharClass
  | a :: b :: c :: rest =>
      if b = '-' then (a, c) :: ranges rest else (a, a) :: ranges (b :: c :: rest)
  | a :: rest => (a, a) :: ranges rest
  | [] => []
termination_by s => s.length

/-- A class behind its opening bracket.  It has at least one character, which may be a closing
bracket, and a mark at the front excludes what follows. -/
def classToken? (s : Text) : Option (Token × Text) :=
  let (negated, body) := match s with
    | '!' :: rest => (true, rest)
    | _ => (false, s)
  match body with
  | [] => none
  | c :: rest =>
      let inside := c :: rest.takeWhile (· != ']')
      match rest.dropWhile (· != ']') with
      | [] => none
      | _ :: after => some (if negated then .except (ranges inside) else .within (ranges inside), after)

/-- The first token, and the rest of the text.  Two stars are no token here. -/
def token? : Text → Option (Token × Text)
  | [] => none
  | c :: rest =>
      if c = '?' then some (.anyChar, rest)
      else if c = '*' then if rest.head? = some '*' then none else some (.anyText, rest)
      else if c = '[' then classToken? rest
      else some (.literal c, rest)

/-- The tokens of a component that is not two stars. -/
def tokens? (s : Text) : Option Pattern :=
  if s.isEmpty then some []
  else
    match token? s with
    | none => none
    | some (token, rest) =>
        if rest.length < s.length then (tokens? rest).map (token :: ·) else none
termination_by s.length

/-- Reads the pattern of a component. -/
def read? (s : Text) : Option Pattern :=
  if s = ['*', '*'] then some [.anyDepth] else tokens? s

/-! ## Matching -/

/-- Whether a name matches. -/
def admits : Pattern → Text → Bool
  | [], s => s.isEmpty
  | .anyText :: rest, [] => admits rest []
  | .anyText :: rest, c :: s => admits rest (c :: s) || admits (.anyText :: rest) s
  | _ :: _, [] => false
  | token :: rest, c :: s => token.admits c && admits rest s

/-- The one name that a pattern without wildcards matches. -/
def literal? (p : Pattern) : Option Text :=
  p.mapM fun
    | .literal c => some c
    | _ => none

/-- Whether a pattern stands for any number of components. -/
def isDeep (p : Pattern) : Bool := p == [.anyDepth]

/-- The patterns of the components of a path, where several of any depth in a row are one. -/
def collapse : List Pattern → List Pattern
  | p :: q :: rest =>
      if p.isDeep && q.isDeep then collapse (q :: rest) else p :: collapse (q :: rest)
  | short => short

/-- Without the empty component behind a slash at the end. -/
def dropLastEmpty (pieces : List Text) : List Text :=
  if pieces.getLast? = some [] then pieces.dropLast else pieces

/-- Reads the patterns of a path's components; a slash at the front is no component. -/
def readPath? (path : Text) : Option (List Pattern) :=
  let relative := if path.head? = some '/' then path.drop 1 else path
  ((dropLastEmpty (Text.split '/' relative)).mapM read?).map collapse

end Pattern
end FileTree
end RecordFilter
