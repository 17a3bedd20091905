import RecordFilter.Proofs.Json.Strings
import RecordFilter.Proofs.Number.Notation
import RecordFilter.Record

/-!
# Characters — the text of a value has no control characters

Strings escape the characters below U+0020, and no token has one (`Value.noControls_text`).  So the
text of a record stands on one line (`Record.not_mem_text`).
-/

namespace RecordFilter

open Text

namespace Json

/-- Without the control characters below U+0020. -/
def NoControls (s : Text) : Prop := ∀ c ∈ s, 0x20 ≤ c.toNat

namespace NoControls

variable {s t : Text} {c : Char}

theorem append (hs : NoControls s) (ht : NoControls t) : NoControls (s ++ t) :=
  List.forall_mem_append.2 ⟨hs, ht⟩

theorem cons (hc : 0x20 ≤ c.toNat) (hs : NoControls s) : NoControls (c :: s) :=
  List.forall_mem_cons.2 ⟨hc, hs⟩

/-- A text in brackets. -/
theorem enclose {d : Char} (hc : 0x20 ≤ c.toNat) (hs : NoControls s) (hd : 0x20 ≤ d.toNat) :
    NoControls (c :: s ++ [d]) :=
  (cons hc hs).append (cons hd (List.forall_mem_nil _))

theorem of_number (h : ∀ c ∈ s, RecordFilter.Number.isNumberChar c = true) : NoControls s := by
  intro c hc
  exact Nat.le_of_lt (RecordFilter.Number.toNat_gt_of_isNumberChar (h c hc))

end NoControls

/-! ## Tokens -/

theorem noControls_escapedChar (c : Char) : NoControls (escapedChar c) := by
  rcases escapedChar_cases c with ⟨d, htext, -, hletter⟩ | ⟨htext, hcontrol⟩ | ⟨htext, -, -, hplain⟩
  · rw [htext]
    exact .cons (by decide) (.cons (le_toNat_of_simpleEscape? hletter) (List.forall_mem_nil _))
  · have hdigits : ∀ n : Fin 16, 0x20 ≤ (Nat.digitChar n).toNat := by decide
    have hhigh := hdigits ⟨c.toNat / 16, by omega⟩
    have hlow := hdigits ⟨c.toNat % 16, Nat.mod_lt _ (by decide)⟩
    rw [htext]
    simp only [NoControls, List.forall_mem_cons]
    exact ⟨by decide, by decide, by decide, by decide, hhigh, hlow, List.forall_mem_nil _⟩
  · rw [htext]
    exact .cons hplain (List.forall_mem_nil _)

theorem noControls_stringText (s : Text) : NoControls (stringText s) := by
  have hbody : NoControls (s.flatMap escapedChar) := by
    intro c hc
    rcases List.mem_flatMap.1 hc with ⟨d, -, hd⟩
    exact noControls_escapedChar d c hd
  exact .enclose (by decide) hbody (by decide)

theorem Number.noControls_text (n : Number) : NoControls n.text := by
  cases n with
  | integer n => exact .of_number fun c hc => RecordFilter.Number.isNumberChar_of_mem_intText hc
  | real x => exact .of_number (RecordFilter.Number.isNumberChar_of_mem_floatText x)

/-! ## Values -/

mutual

theorem Value.noControls_text : ∀ v : Value, NoControls v.text
  | .null => by
      rw [Value.text, NoControls]
      decide
  | .boolean b => by
      rw [Value.text, NoControls]
      cases b with
      | true => decide
      | false => decide
  | .number n => by
      rw [Value.text]
      exact n.noControls_text
  | .string s => by
      rw [Value.text]
      exact noControls_stringText s
  | .array items => by
      rw [Value.text]
      exact .enclose (by decide) (noControls_itemsText items) (by decide)
  | .object members => by
      rw [Value.text]
      exact .enclose (by decide) (noControls_membersText members) (by decide)

theorem noControls_itemsText : ∀ items : List Value, NoControls (itemsText items)
  | [] => List.forall_mem_nil _
  | [v] => by
      rw [itemsText]
      exact v.noControls_text
  | v :: w :: rest => by
      rw [itemsText]
      exact v.noControls_text.append (.cons (by decide) (noControls_itemsText (w :: rest)))

theorem noControls_membersText : ∀ members : List (Text × Value), NoControls (membersText members)
  | [] => List.forall_mem_nil _
  | [m] => by
      rw [membersText]
      exact noControls_memberText m
  | m :: n :: rest => by
      rw [membersText]
      exact (noControls_memberText m).append (.cons (by decide) (noControls_membersText (n :: rest)))

theorem noControls_memberText : ∀ m : Text × Value, NoControls (memberText m)
  | (key, v) => by
      rw [memberText]
      exact (noControls_stringText key).append (.cons (by decide) v.noControls_text)

end

end Json

/-! ## Records -/

namespace Record

theorem not_mem_text {c : Char} (hc : c.toNat < 0x20) (r : Record) : c ∉ r.text := by
  intro h
  exact absurd ((Json.Value.object r.fields).noControls_text c h) (Nat.not_le.2 hc)

end Record
end RecordFilter
