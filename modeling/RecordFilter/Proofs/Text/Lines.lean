import RecordFilter.Proofs.Text.Trimming
import RecordFilter.Text.Pieces

/-!
# Lines — a text as its lines

A line ends with a line feed or with a carriage return and a line feed; the last line of a text may
lack its end.  `HoldsLines` says which lines a text holds, however they are ended, and `lines` finds
them (`holdsLines_lines`).  Cutting at line feeds alone gives the same lines up to blanks
(`HoldsLines.map_trim_split`).
-/

namespace RecordFilter
namespace Text

variable {s line : Text} {ls ms : List Text}

/-! ## Splitting -/

theorem split_eq_splitOn (separator : Char) (s : Text) : split separator s = s.splitOn separator := by
  induction s with
  | nil => rfl
  | cons c rest ih =>
      rw [split_cons, List.splitOn_cons_eq_if_modifyHead, ih]
      unfold splitStep
      by_cases hc : c = separator
      · rw [if_pos hc, if_pos (beq_iff_eq.2 hc)]
      · rw [if_neg hc, if_neg fun h => hc (beq_iff_eq.1 h)]
        cases hpieces : rest.splitOn separator with
        | nil => exact absurd hpieces (List.splitOn_ne_nil separator rest)
        | cons piece more => rfl

/-- A separator anywhere in a text parts its pieces. -/
theorem split_append_cons (separator : Char) (a b : Text) :
    split separator (a ++ separator :: b) = split separator a ++ split separator b := by
  rw [split_eq_splitOn, split_eq_splitOn, split_eq_splitOn, List.splitOn_append_cons_self]

theorem split_append_separator {separator : Char} {a : Text} (ha : separator ∉ a) (b : Text) :
    split separator (a ++ separator :: b) = a :: split separator b := by
  rw [split_eq_splitOn, split_eq_splitOn, List.splitOn_append_cons_self_of_not_mem ha]

theorem split_of_not_mem {separator : Char} (hs : separator ∉ s) : split separator s = [s] := by
  rw [split_eq_splitOn, List.splitOn_eq_singleton hs]

/-! ## The lines of a text -/

/-- A text holds lines: each is ended by a line feed or by a carriage return and a line feed, and
the last, if it is not empty, by either or by the end of the text. -/
inductive HoldsLines : Text → List Text → Prop where
  | nil : HoldsLines [] []
  | unended {line : Text} : '\n' ∉ line → line ≠ [] → HoldsLines line [line]
  | feed {line s : Text} {ls : List Text} :
      '\n' ∉ line → HoldsLines s ls → HoldsLines (line ++ '\n' :: s) (line :: ls)
  | returnFeed {line s : Text} {ls : List Text} :
      '\n' ∉ line → HoldsLines s ls → HoldsLines (line ++ '\r' :: '\n' :: s) (line :: ls)

/-- Without one carriage return at the end, if there is one. -/
def dropReturn (line : Text) : Text := if line.getLast? = some '\r' then line.dropLast else line

/-- The lines that the pieces between line feeds are.  Only a piece in front of a line feed loses a
carriage return, and an empty piece behind the last line feed is no line. -/
def linesOf : List Text → List Text
  | [] => []
  | [last] => if last.isEmpty then [] else [last]
  | piece :: next :: rest => dropReturn piece :: linesOf (next :: rest)

/-- The lines of a text. -/
def lines (s : Text) : List Text := linesOf (split '\n' s)

theorem lines_append_newline (h : '\n' ∉ line) (s : Text) :
    lines (line ++ '\n' :: s) = dropReturn line :: lines s := by
  rw [lines, lines, split_append_separator h]
  cases hpieces : split '\n' s with
  | nil => exact absurd hpieces (split_ne_nil '\n' s)
  | cons piece rest => rfl

theorem lines_of_not_mem (h : '\n' ∉ s) : lines s = if s.isEmpty then [] else [s] := by
  rw [lines, split_of_not_mem h]
  rfl

theorem dropReturn_of_not_mem (h : '\r' ∉ line) : dropReturn line = line := by
  unfold dropReturn
  split
  case isTrue hlast => exact absurd (List.mem_of_getLast? hlast) h
  case isFalse => rfl

theorem dropReturn_append_return (line : Text) : dropReturn (line ++ ['\r']) = line := by
  simp [dropReturn]

theorem dropReturn_cases (line : Text) :
    dropReturn line = line ∨ ∃ short, line = short ++ ['\r'] ∧ dropReturn line = short := by
  by_cases hlast : line.getLast? = some '\r'
  · rcases List.getLast?_eq_some_iff.1 hlast with ⟨short, rfl⟩
    exact Or.inr ⟨short, rfl, dropReturn_append_return short⟩
  · exact Or.inl (if_neg hlast)

/-- Every text holds its lines. -/
theorem holdsLines_lines (s : Text) : HoldsLines s (lines s) := by
  by_cases h : '\n' ∈ s
  · -- up to the first line feed there is one line, and the others are those of what follows it
    rcases List.eq_append_cons_of_mem h with ⟨line, rest, hs, hline⟩
    have hrest : HoldsLines rest (lines rest) := holdsLines_lines rest
    subst hs
    rw [lines_append_newline hline]
    rcases dropReturn_cases line with hkept | ⟨short, rfl, hshort⟩
    · rw [hkept]
      exact .feed hline hrest
    · have hmem : '\n' ∉ short := fun hmem => hline (List.mem_append_left _ hmem)
      rw [hshort, List.append_assoc]
      exact .returnFeed hmem hrest
  · rw [lines_of_not_mem h]
    split
    case isTrue hempty =>
      rw [List.isEmpty_iff.1 hempty]
      exact .nil
    case isFalse hne => exact .unended h fun hnil => hne (List.isEmpty_iff.2 hnil)
termination_by s.length
decreasing_by
  rw [hs]
  simp only [List.length_append, List.length_cons]
  omega

/-- Lines that are written out with a line feed behind each are found again. -/
theorem lines_flatMap_newline (h : ∀ line ∈ ls, '\n' ∉ line ∧ '\r' ∉ line) :
    lines (ls.flatMap (· ++ ['\n'])) = ls := by
  induction ls with
  | nil => rfl
  | cons line rest ih =>
      rcases List.forall_mem_cons.1 h with ⟨hline, hrest⟩
      calc
        lines ((line :: rest).flatMap (· ++ ['\n']))
            = lines (line ++ '\n' :: rest.flatMap (· ++ ['\n'])) := by
              rw [List.flatMap_cons, List.append_assoc, List.singleton_append]
        _ = dropReturn line :: lines (rest.flatMap (· ++ ['\n'])) := lines_append_newline hline.1 _
        _ = line :: rest := by rw [dropReturn_of_not_mem hline.2, ih hrest]

/-! ## Lines and pieces -/

/-- The pieces between line feeds, blank ones left out, are the lines, blank ones left out, up to
blanks at their ends. -/
theorem HoldsLines.map_trim_split (h : HoldsLines s ls) :
    ((split '\n' s).filter fun piece => !allBlank piece).map trim =
      (ls.filter fun line => !allBlank line).map trim := by
  induction h with
  | nil => rfl
  | unended hline _ => rw [split_of_not_mem hline]
  | feed hline _ ih =>
      rw [split_append_separator hline, List.filter_cons, List.filter_cons]
      split
      case isTrue => rw [List.map_cons, List.map_cons, ih]
      case isFalse => exact ih
  | @returnFeed line s ls hline _ ih =>
      have hreturn : allBlank ['\r'] = true := rfl
      have hpiece : '\n' ∉ line ++ ['\r'] := by simpa using hline
      have hblank : allBlank (line ++ ['\r']) = allBlank line := by
        rw [allBlank_append, hreturn, Bool.and_true]
      rw [show line ++ '\r' :: '\n' :: s = (line ++ ['\r']) ++ '\n' :: s by simp,
        split_append_separator hpiece, List.filter_cons, List.filter_cons, hblank]
      split
      case isTrue => rw [List.map_cons, List.map_cons, trim_append_of_allBlank_right line hreturn, ih]
      case isFalse => exact ih

end Text
end RecordFilter
