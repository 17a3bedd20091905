import RecordFilter.Proofs.Json.Characters
import RecordFilter.Proofs.Json.RoundTrip
import RecordFilter.Proofs.Text.Lines

/-!
# Integral — records without floats

The text of a record whose numbers are integers of 64 bits stands on one line and is read as that
record, provided the record nests no deeper than the reader goes (`read_text_of_integral`).  Of the
records without floats no others are read from their texts (`isIntegral_iff`).
-/

namespace RecordFilter
namespace Record

variable {r : Record}

/-- Every number in the record is an integer of 64 bits, with or without sign; arrays and objects nest
no deeper than the reader goes, the record counted in; and keys are in order. -/
def IsIntegral (r : Record) : Prop :=
  (Json.Value.object r.fields).Fits (fun _ => False) Json.depthLimit

theorem IsIntegral.read_text (h : r.IsIntegral) : Record.read r.text = .ok r :=
  Record.read_text (h.imp fun _ _ hfloat => hfloat.elim)

/-- What is read from its text has its keys in order and nests no deeper than the reader goes. -/
theorem isIntegral_iff : r.IsIntegral ↔
    (∀ x, ¬(Json.Value.object r.fields).HasFloat x) ∧ Record.read r.text = .ok r := by
  constructor
  · intro h
    exact ⟨fun x hx => h.of_hasFloat hx, h.read_text⟩
  · rintro ⟨hfloats, hread⟩
    exact (Record.fits_of_read hread).imp fun x hx _ => hfloats x hx

/-- A record has one line of text. -/
theorem lines_text (r : Record) : Text.lines r.text = [r.text] := by
  have hfeed : '\n' ∉ r.text := not_mem_text (by decide) r
  have hne : r.text.isEmpty = false := by
    rw [Record.text, Json.Value.text]
    rfl
  rw [Text.lines_of_not_mem hfeed, hne]
  rfl

/-- A record without floats is printed on one line, from which it is read again; so two of them are
printed alike only if they are the same. -/
theorem read_text_of_integral (h : r.IsIntegral) :
    Text.lines r.text = [r.text] ∧ '\n' ∉ r.text ∧ '\r' ∉ r.text ∧ Record.read r.text = .ok r ∧
      ∀ other : Record, other.IsIntegral → (r.text = other.text ↔ r = other) := by
  refine ⟨lines_text r, not_mem_text (by decide) r, not_mem_text (by decide) r, h.read_text, ?_⟩
  intro other hother
  constructor
  · intro htext
    have hread := h.read_text
    rw [htext, hother.read_text] at hread
    exact (Except.ok.inj hread).symm
  · rintro rfl
    rfl

/-- A record with the largest and the least integer, a key to be escaped and an empty array. -/
theorem read_text_of_bounds :
    let largest : Json.Value := .number (.integer 18446744073709551615)
    let least : Json.Value := .number (.integer (-9223372036854775808))
    let r : Record := ⟨[("\n".toList, .array [largest, .array [], .string "€\"".toList]),
      ("a".toList, .object [("'".toList, least)])]⟩
    r.IsIntegral ∧
      r.text = ("\x7b\"\\n\":[18446744073709551615,[],\"€\\\"\"],".toList ++
        "\"a\":\x7b\"'\":-9223372036854775808\x7d\x7d".toList) ∧
      Record.read r.text = .ok r := by
  intro largest least r
  have hlargest : ∀ depth, largest.Fits (fun _ => False) depth :=
    fun _ => .number ⟨by decide, by decide⟩
  have hleast : ∀ depth, least.Fits (fun _ => False) depth :=
    fun _ => .number ⟨by decide, by decide⟩
  have hintegral : r.IsIntegral := by
    refine .object (List.pairwise_pair.2 (Text.order_eq_lt_iff.1 rfl)) ?_
    refine List.forall_mem_cons.2 ⟨.array ?_, List.forall_mem_singleton.2 ?_⟩
    · exact List.forall_mem_cons.2 ⟨hlargest _, List.forall_mem_cons.2
        ⟨.array (List.forall_mem_nil _), List.forall_mem_singleton.2 (.string _)⟩⟩
    · exact .object (List.pairwise_singleton _ _) (List.forall_mem_singleton.2 (hleast _))
  exact ⟨hintegral, by decide +kernel, (read_text_of_integral hintegral).2.2.2.1⟩

end Record
end RecordFilter
