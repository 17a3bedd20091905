import RecordFilter.Command.Program
import RecordFilter.Proofs.Json.Blanks

/-!
# Tallies — what the text of a tally shows

The text of a tally has its counts in base ten, each on a line behind its name.  Whatever their size it
tells them: no two tallies have one text (`tallyText_injective`).  Read as JSON it is the object of the
counts, if these fit in 64 bits (`read?_tallyText`).  A text that does all this shows the tally
(`ShowsTally`).
-/

namespace RecordFilter

open Text

namespace Tally

variable {t u : Tally}

/-- The counts with their names, in the order in which they are shown. -/
def counts (t : Tally) : List (Text × Nat) :=
  [("accepted".toList, t.accepted), ("rejected".toList, t.rejected), ("failed".toList, t.failed)]

/-- The counts as members of an object, in the order of their names. -/
def members (t : Tally) : Json.Members :=
  [("accepted".toList, .number (.integer t.accepted)), ("failed".toList, .number (.integer t.failed)),
    ("rejected".toList, .number (.integer t.rejected))]

theorem eq_of_counts_eq (h : t.counts = u.counts) : t = u := by
  simp only [counts, List.cons.injEq, Prod.mk.injEq, true_and, and_true] at h
  rcases t with ⟨accepted, rejected, failed⟩
  rcases h with ⟨rfl, rfl, rfl⟩
  rfl

theorem le_total_of_mem_counts {c : Text × Nat} (hc : c ∈ t.counts) : c.2 ≤ t.total := by
  simp only [counts, List.mem_cons, List.not_mem_nil, or_false] at hc
  rw [total]
  rcases hc with rfl | rfl | rfl <;> dsimp only <;> omega

end Tally

namespace Command

open Json (member? members? value? skipBlanks Blanks Stops stops_cons)
open Number (natText natText_append_inj)

variable {s before rest : Text} {depth : Nat} {c : Text × Nat} {cs ds : List (Text × Nat)} {t u : Tally}

/-! ## Counts on lines -/

/-- A count behind its name. -/
def countText (c : Text × Nat) : Text := '"' :: c.1 ++ ['"', ':', ' '] ++ natText c.2

/-- Counts on lines, with a comma behind each but the last. -/
def countLines : List (Text × Nat) → Text
  | [] => []
  | [c] => countText c
  | c :: d :: rest => countText c ++ [',', '\n', ' ', ' '] ++ countLines (d :: rest)

/-- Three counts between other text, with what stands before each number put together. -/
theorem countLines_three (a b c : Text) (l m n : Nat) (front back : Text) :
    front ++ countLines [(a, l), (b, m), (c, n)] ++ back =
      (front ++ '"' :: a ++ ['"', ':', ' ']) ++ natText l
        ++ ([',', '\n', ' ', ' ', '"'] ++ b ++ ['"', ':', ' ']) ++ natText m
        ++ ([',', '\n', ' ', ' ', '"'] ++ c ++ ['"', ':', ' ']) ++ natText n ++ back := by
  simp [countLines, countText]

theorem tallyText_eq (t : Tally) :
    tallyText t = ['\x7b', '\n', ' ', ' '] ++ countLines t.counts ++ ['\n', '\x7d', '\n'] := by
  have haccepted : ['\x7b', '\n', ' ', ' '] ++ '"' :: "accepted".toList ++ ['"', ':', ' '] =
      "\x7b\n  \"accepted\": ".toList := by decide
  have hrejected : [',', '\n', ' ', ' ', '"'] ++ "rejected".toList ++ ['"', ':', ' '] =
      ",\n  \"rejected\": ".toList := by decide
  have hfailed : [',', '\n', ' ', ' ', '"'] ++ "failed".toList ++ ['"', ':', ' '] =
      ",\n  \"failed\": ".toList := by decide
  rw [Tally.counts, countLines_three, haccepted, hrejected, hfailed]
  rfl

/-! ## Counts are determined by their text -/

/-- Behind equal names stand equal counts, if what follows goes on with no digit. -/
theorem countText_append_inj {d : Text × Nat} {t : Text} (hname : c.1 = d.1)
    (hs : ∀ e, s.head? = some e → e.isDigit = false) (ht : ∀ e, t.head? = some e → e.isDigit = false)
    (h : countText c ++ s = countText d ++ t) : c = d ∧ s = t := by
  simp only [countText, hname, List.append_assoc] at h
  have hnumber := List.append_cancel_left (List.append_cancel_left h)
  rcases natText_append_inj hnumber hs ht with ⟨hcount, hrest⟩
  exact ⟨Prod.ext hname hcount, hrest⟩

/-- Counts with the same names are determined by their text. -/
theorem countLines_append_inj (hnames : cs.map Prod.fst = ds.map Prod.fst)
    (hs : ∀ e, s.head? = some e → e.isDigit = false)
    (h : countLines cs ++ s = countLines ds ++ s) : cs = ds := by
  -- the names keep both lists in step, so each number ends at the same comma or at `s`
  induction cs generalizing ds with
  | nil => exact (List.map_eq_nil_iff.1 hnames.symm).symm
  | cons c cs ih =>
      rcases List.map_eq_cons_iff.1 hnames.symm with ⟨d, ds, rfl, hname, hrest⟩
      cases cs with
      | nil =>
          rcases List.map_eq_nil_iff.1 hrest with rfl
          rw [(countText_append_inj hname.symm hs hs h).1]
      | cons c' cs =>
          rcases List.map_eq_cons_iff.1 hrest with ⟨d', ds, rfl, -, -⟩
          have hcomma : ∀ r : Text, ∀ e, ([',', '\n', ' ', ' '] ++ r).head? = some e →
              e.isDigit = false := by
            intro r e he
            cases he
            rfl
          simp only [countLines, List.append_assoc] at h
          rcases countText_append_inj hname.symm (hcomma _) (hcomma _) h with ⟨rfl, hmore⟩
          rw [ih hrest.symm (List.append_cancel_left hmore)]

theorem tallyText_injective (h : tallyText t = tallyText u) : t = u := by
  rw [tallyText_eq, tallyText_eq, List.append_assoc, List.append_assoc] at h
  have hbreak : ∀ e, ['\n', '\x7d', '\n'].head? = some e → e.isDigit = false := by
    intro e he
    cases he
    rfl
  exact Tally.eq_of_counts_eq (countLines_append_inj rfl hbreak (List.append_cancel_left h))

/-! ## Counts are read -/

/-- A count as a member of an object. -/
def countMember (c : Text × Nat) : Text × Json.Value := (c.1, .number (.integer c.2))

theorem fits_count (depth : Nat) {n : Nat} (h : n < 2 ^ 64) :
    (Json.Value.number (.integer n)).Fits Json.ReadsBack depth := by
  refine .number ⟨by omega, ?_⟩
  exact_mod_cast h

/-- A count that fits in 64 bits is read with its name, where that needs no escapes. -/
theorem member?_countText (hname : c.1.flatMap Json.escapedChar = c.1) (hc : c.2 < 2 ^ 64)
    (hbefore : Blanks before) (hrest : Stops rest) :
    member? (value? depth) (before ++ (countText c ++ rest)) = some (countMember c, rest) := by
  have hvalue : value? depth (' ' :: (natText c.2 ++ rest)) = some (.number (.integer c.2), rest) := by
    have hblank : Blanks [' '] := by simp [Blanks, Json.isBlank]
    have hread := (fits_count depth hc).readBy rest hrest
    rw [Json.Value.text] at hread
    rw [← List.singleton_append, Json.value?_blanks_append hblank]
    exact hread
  have htext : countText c ++ rest =
      '"' :: (c.1.flatMap Json.escapedChar ++ '"' :: ':' :: ' ' :: (natText c.2 ++ rest)) := by
    rw [hname]
    simp [countText]
  rw [Json.member?_blanks_append hbefore, htext, Json.member?_key hvalue]
  rfl

/-- The counts that are read are put in one after the other. -/
theorem members?_countLines (hcs : ∀ c ∈ cs, c.1.flatMap Json.escapedChar = c.1 ∧ c.2 < 2 ^ 64)
    (hne : cs ≠ []) (hbefore : Blanks before) (hrest : Stops rest) {after : Text}
    (hclose : skipBlanks rest = '\x7d' :: after) (found : Json.Members) :
    members? (value? depth) found (before ++ (countLines cs ++ rest)) =
      some (Json.Members.insertAll (cs.map countMember) found, after) := by
  induction cs generalizing before found with
  | nil => exact absurd rfl hne
  | cons c cs ih =>
      rcases List.forall_mem_cons.1 hcs with ⟨⟨hname, hc⟩, hcs⟩
      cases cs with
      | nil => exact Json.members?_close (member?_countText hname hc hbefore hrest) hclose
      | cons d cs =>
          have hindent : Blanks ['\n', ' ', ' '] := by simp [Blanks, Json.isBlank]
          let more : Text := ['\n', ' ', ' '] ++ (countLines (d :: cs) ++ rest)
          have hsplit : countLines (c :: d :: cs) ++ rest = countText c ++ ',' :: more := by
            simp [countLines, more]
          have hmember : member? (value? depth) (before ++ (countText c ++ ',' :: more)) =
              some (countMember c, ',' :: more) :=
            member?_countText hname hc hbefore (stops_cons rfl more)
          rw [hsplit, Json.members?_comma hmember, ih hcs (List.cons_ne_nil d cs) hindent]
          · rfl
          · simp only [List.length_append, List.length_cons]
            omega

/-- Put in one after the other, the counts come to stand in the order of their names. -/
theorem insertAll_counts (t : Tally) :
    Json.Members.insertAll (t.counts.map countMember) [] = t.members := by
  rfl

/-- Read as JSON the text of a tally is the object of its counts. -/
theorem read?_tallyText (h : t.total < 2 ^ 64) :
    Json.read? (tallyText t) = some (.object t.members) := by
  have hcounts : ∀ c ∈ t.counts, c.1.flatMap Json.escapedChar = c.1 ∧ c.2 < 2 ^ 64 := by
    intro c hc
    refine ⟨?_, Nat.lt_of_le_of_lt (Tally.le_total_of_mem_counts hc) h⟩
    have hplain : ∀ name ∈ ["accepted".toList, "rejected".toList, "failed".toList],
        name.flatMap Json.escapedChar = name := by
      decide
    exact hplain c.1 (List.mem_map_of_mem hc)
  have hread : members? (value? 126) [] ([] ++ (countLines t.counts ++ ['\n', '\x7d', '\n'])) =
      some (Json.Members.insertAll (t.counts.map countMember) [], ['\n']) :=
    members?_countLines hcounts (List.cons_ne_nil _ _) .nil (stops_cons rfl _) rfl []
  rw [insertAll_counts, List.nil_append] at hread
  have hobject : Json.value? Json.depthLimit (tallyText t) = some (.object t.members, ['\n']) := by
    rw [tallyText_eq, List.append_assoc, List.cons_append, Json.depthLimit, value?, Json.skipBlanks_cons rfl]
    exact Json.object?_of_members? rfl hread
  rw [Json.read?, hobject]
  rfl

/-! ## What a text shows -/

/-- The text has the counts of the tally in base ten, each behind its name, and is the text of no other
tally.  As JSON it is the object of the counts, as far as integers of 64 bits go. -/
structure ShowsTally (shown : Text) (t : Tally) : Prop where
  text : shown = "\x7b\n  \"accepted\": ".toList ++ natText t.accepted
    ++ ",\n  \"rejected\": ".toList ++ natText t.rejected
    ++ ",\n  \"failed\": ".toList ++ natText t.failed ++ "\n\x7d\n".toList
  only : ∀ u, shown = tallyText u → u = t
  object : t.total < 2 ^ 64 → Json.read? shown = some (.object t.members)

theorem showsTally_tallyText (t : Tally) : ShowsTally (tallyText t) t :=
  ⟨rfl, fun _ h => tallyText_injective h.symm, read?_tallyText⟩

end Command
end RecordFilter
