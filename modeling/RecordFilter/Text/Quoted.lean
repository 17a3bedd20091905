import RecordFilter.Text.Basic

/-!
# Quoted — text literals between single quotes

A literal stands between single quotes, and a quote inside it is written twice.  Reading accepts
exactly what writing produces: `decode_eq_some_iff`.
-/

namespace RecordFilter
namespace Text
namespace Quoted

/-- Writes each quote twice. -/
def encode : Text → Text
  | [] => []
  | c :: rest => if c = '\'' then '\'' :: '\'' :: encode rest else c :: encode rest

/-- Takes two quotes for one.  A quote that stands alone is refused. -/
def decode : Text → Option Text
  | [] => some []
  | [c] => if c = '\'' then none else some [c]
  | c :: d :: rest =>
      if c = '\'' then
        if d = '\'' then (decode rest).map ('\'' :: ·) else none
      else (decode (d :: rest)).map (c :: ·)

/-- The literal for a text: its encoded form between single quotes. -/
def literal (s : Text) : Text := '\'' :: encode s ++ ['\'']

/-- The part between the two quotes of a literal that begins and ends with one. -/
def body? : Text → Option Text
  | [] => none
  | c :: rest =>
      if c = '\'' && rest.getLast? == some '\'' then some rest.dropLast else none

theorem decode_encode (s : Text) : decode (encode s) = some s := by
  induction s with
  | nil => rfl
  | cons c rest ih =>
      by_cases h : c = '\''
      · simp [encode, decode, h, ih]
      · cases hr : encode rest with
        | nil =>
            rw [hr] at ih
            simp only [decode, Option.some.injEq] at ih
            simp [encode, decode, h, ← ih]
        | cons d more =>
            rw [hr] at ih
            simp [encode, decode, h, hr, ih]

theorem eq_encode_of_decode {t s : Text} (h : decode t = some s) : t = encode s := by
  fun_induction decode t generalizing s with
  | case1 => simp_all [encode]
  | case2 => simp at h
  | case3 c hc =>
      cases h
      simp [encode, hc]
  | case4 rest ih =>
      obtain ⟨u, hu, rfl⟩ := Option.map_eq_some_iff.1 h
      simp [encode, ih hu]
  | case5 => simp at h
  | case6 c d rest hc ih =>
      obtain ⟨u, hu, rfl⟩ := Option.map_eq_some_iff.1 h
      simp [encode, hc, ih hu]

theorem decode_eq_some_iff {t s : Text} : decode t = some s ↔ t = encode s :=
  ⟨eq_encode_of_decode, fun h => h ▸ decode_encode s⟩

theorem body?_literal (s : Text) : body? (literal s) = some (encode s) := by
  simp [literal, body?]

end Quoted
end Text
end RecordFilter
