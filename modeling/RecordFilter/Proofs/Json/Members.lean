import RecordFilter.Json.Basic
import RecordFilter.Proofs.Text.Order

/-!
# Members — objects as ordered look-up tables

Members in increasing order of their keys are determined by their look-ups (`eq_of_get?_eq`), and
`insert` keeps the order (`Increasing.insert`).  So putting the same members in again changes nothing
(`insertAll_insertAll`).
-/

namespace RecordFilter

namespace Json
namespace Members

open Text (Before)

variable {key k : Text} {value v : Value} {ms ns copies : Members} {m : Text × Value}

/-- Each key comes before those behind it. -/
def Increasing (ms : Members) : Prop := ms.Pairwise fun m n => Before m.1 n.1

/-! ## Insertion in order -/

theorem insert_of_before (h : Before key k) (rest : Members) :
    insert key value ((k, v) :: rest) = (key, value) :: (k, v) :: rest := by
  rw [insert, Text.order_eq_lt_iff.2 h]

theorem insert_self (rest : Members) :
    insert key value ((key, v) :: rest) = (key, value) :: rest := by
  rw [insert, Text.order_self]

theorem insert_of_behind (h : Before k key) (rest : Members) :
    insert key value ((k, v) :: rest) = (k, v) :: insert key value rest := by
  rw [insert, Text.order_eq_gt_iff.2 h]

theorem mem_insert (h : m ∈ insert key value ms) : m = (key, value) ∨ m ∈ ms := by
  induction ms with
  | nil => exact Or.inl (List.mem_singleton.1 h)
  | cons n rest ih =>
      obtain ⟨k, v⟩ := n
      rcases Text.before_trichotomy key k with hbefore | rfl | hbehind
      · rw [insert_of_before hbefore] at h
        exact List.mem_cons.1 h
      · rw [insert_self] at h
        exact (List.mem_cons.1 h).imp_right (List.mem_cons_of_mem _)
      · rw [insert_of_behind hbehind] at h
        rcases List.mem_cons.1 h with rfl | hrest
        · exact Or.inr List.mem_cons_self
        · exact (ih hrest).imp_right (List.mem_cons_of_mem _)

theorem Increasing.insert (h : Increasing ms) (key : Text) (value : Value) :
    Increasing (Members.insert key value ms) := by
  induction ms with
  | nil => exact List.pairwise_singleton _ _
  | cons m rest ih =>
      obtain ⟨k, v⟩ := m
      rcases List.pairwise_cons.1 h with ⟨hfirst, hrest⟩
      rcases Text.before_trichotomy key k with hbefore | rfl | hbehind
      · rw [insert_of_before hbefore]
        refine List.pairwise_cons.2 ⟨?_, h⟩
        intro n hn
        rcases List.mem_cons.1 hn with rfl | hn
        · exact hbefore
        · exact hbefore.trans (hfirst n hn)
      · rw [insert_self]
        exact List.pairwise_cons.2 ⟨hfirst, hrest⟩
      · rw [insert_of_behind hbehind]
        refine List.pairwise_cons.2 ⟨?_, ih hrest⟩
        intro n hn
        rcases mem_insert hn with rfl | hn
        · exact hbehind
        · exact hfirst n hn

/-- A key behind all others is put at the end. -/
theorem insert_eq_append (h : ∀ m ∈ ms, Before m.1 key) (value : Value) :
    insert key value ms = ms ++ [(key, value)] := by
  induction ms with
  | nil => rfl
  | cons m rest ih =>
      rcases List.forall_mem_cons.1 h with ⟨hfirst, hrest⟩
      rw [insert_of_behind hfirst, ih hrest, List.cons_append]

/-! ## Look-ups -/

theorem get?_of_ne (h : ∀ m ∈ ms, m.1 ≠ key) : get? key ms = none := by
  induction ms with
  | nil => rfl
  | cons m rest ih =>
      rcases List.forall_mem_cons.1 h with ⟨hfirst, hrest⟩
      rw [get?, if_neg hfirst, ih hrest]

theorem get?_cons_self (key : Text) (value : Value) (rest : Members) :
    get? key ((key, value) :: rest) = some value := if_pos rfl

/-- A key in front of the first is not there. -/
theorem Increasing.get?_of_before (h : Increasing ((k, v) :: ms)) (hkey : Before key k) :
    get? key ((k, v) :: ms) = none := by
  refine get?_of_ne fun m hm => ?_
  rcases List.mem_cons.1 hm with rfl | hm
  · exact hkey.ne.symm
  · exact (hkey.trans ((List.pairwise_cons.1 h).1 m hm)).ne.symm

/-- Ordered members are determined by their look-ups. -/
theorem eq_of_get?_eq (hms : Increasing ms) (hns : Increasing ns)
    (h : ∀ key, get? key ms = get? key ns) : ms = ns := by
  induction ms generalizing ns with
  | nil =>
      cases ns with
      | nil => rfl
      | cons n rest =>
          have hfirst := h n.1
          rw [get?_cons_self] at hfirst
          cases hfirst
  | cons m rest ih =>
      obtain ⟨k, v⟩ := m
      cases ns with
      | nil =>
          have hfirst := h k
          rw [get?_cons_self] at hfirst
          cases hfirst
      | cons n more =>
          obtain ⟨l, w⟩ := n
          have hk := h k
          have hl := h l
          rw [get?_cons_self] at hk hl
          rcases Text.before_trichotomy k l with hbefore | rfl | hbehind
          · rw [hns.get?_of_before hbefore] at hk
            cases hk
          · rw [get?_cons_self] at hk
            cases hk
            rcases List.pairwise_cons.1 hms with ⟨hrest, hrests⟩
            rcases List.pairwise_cons.1 hns with ⟨hmore, hmores⟩
            have htails : ∀ key, get? key rest = get? key more := by
              intro key
              by_cases hkey : k = key
              · -- the first key stands in neither rest
                subst hkey
                rw [get?_of_ne fun m hm => (hrest m hm).ne.symm,
                  get?_of_ne fun m hm => (hmore m hm).ne.symm]
              · have hboth := h key
                rwa [get?, get?, if_neg hkey, if_neg hkey] at hboth
            rw [ih hrests hmores htails]
          · rw [hms.get?_of_before hbehind] at hl
            cases hl

/-! ## Many insertions -/

/-- Puts members in, one after the other. -/
def insertAll (copies ms : Members) : Members := copies.foldl (fun ms m => ms.insert m.1 m.2) ms

/-- The last value of a key in a list of members. -/
def last? (key : Text) : Members → Option Value
  | [] => none
  | (k, v) :: rest => (last? key rest).or (if k = key then some v else none)

theorem get?_insert (key k : Text) (v : Value) (ms : Members) :
    get? key (insert k v ms) = (if k = key then some v else none).or (get? key ms) := by
  by_cases hkey : k = key
  · subst hkey
    rw [get?_insert_self, if_pos rfl, Option.some_or]
  · rw [get?_insert_of_ne (Ne.symm hkey), if_neg hkey, Option.none_or]

/-- The last insertion under a key counts, and keys that are not put in keep their values. -/
theorem get?_insertAll (key : Text) (copies ms : Members) :
    get? key (insertAll copies ms) = (last? key copies).or (get? key ms) := by
  induction copies generalizing ms with
  | nil => rfl
  | cons m rest ih =>
      obtain ⟨k, v⟩ := m
      calc
        get? key (insertAll ((k, v) :: rest) ms)
            = (last? key rest).or (get? key (insert k v ms)) := ih (insert k v ms)
        _ = (last? key rest).or ((if k = key then some v else none).or (get? key ms)) := by
          rw [get?_insert]
        _ = (last? key ((k, v) :: rest)).or (get? key ms) := by rw [last?, Option.or_assoc]

theorem last?_of_ne (h : ∀ m ∈ copies, m.1 ≠ key) : last? key copies = none := by
  induction copies with
  | nil => rfl
  | cons m rest ih =>
      rcases List.forall_mem_cons.1 h with ⟨hfirst, hrest⟩
      rw [last?, ih hrest, if_neg hfirst, Option.none_or]

theorem last?_append (key : Text) (copies more : Members) :
    last? key (copies ++ more) = (last? key more).or (last? key copies) := by
  induction copies with
  | nil => rw [List.nil_append, last?, Option.or_none]
  | cons m rest ih => rw [List.cons_append, last?, last?, ih, Option.or_assoc]

theorem get?_insertAll_of_ne (h : ∀ m ∈ copies, m.1 ≠ key) (ms : Members) :
    get? key (insertAll copies ms) = get? key ms := by
  rw [get?_insertAll, last?_of_ne h, Option.none_or]

theorem Increasing.insertAll (h : Increasing ms) (copies : Members) :
    Increasing (Members.insertAll copies ms) := by
  induction copies generalizing ms with
  | nil => exact h
  | cons m rest ih => exact ih (h.insert m.1 m.2)

theorem mem_insertAll (h : m ∈ insertAll copies ms) : m ∈ copies ∨ m ∈ ms := by
  induction copies generalizing ms with
  | nil => exact Or.inr h
  | cons n rest ih =>
      rcases ih h with hrest | hinsert
      · exact Or.inl (List.mem_cons_of_mem _ hrest)
      · rcases mem_insert hinsert with rfl | hms
        · exact Or.inl List.mem_cons_self
        · exact Or.inr hms

/-- Members that are put in twice are there as if once. -/
theorem insertAll_insertAll (h : Increasing ms) (copies : Members) :
    insertAll copies (insertAll copies ms) = insertAll copies ms := by
  refine eq_of_get?_eq ((h.insertAll copies).insertAll copies) (h.insertAll copies) fun key => ?_
  rw [get?_insertAll, get?_insertAll, ← Option.or_assoc, Option.or_self]

/-- Members in order are built by putting them in. -/
theorem insertAll_eq_append (h : Increasing (ms ++ copies)) : insertAll copies ms = ms ++ copies := by
  induction copies generalizing ms with
  | nil => rw [List.append_nil]; rfl
  | cons m rest ih =>
      have hlast : ∀ n ∈ ms, Before n.1 m.1 := by
        intro n hn
        exact (List.pairwise_append.1 h).2.2 n hn m List.mem_cons_self
      have hnext : Increasing ((ms ++ [m]) ++ rest) := by
        rwa [List.append_assoc, List.singleton_append]
      calc
        insertAll (m :: rest) ms = insertAll rest (ms ++ [m]) := by
          rw [← insert_eq_append hlast m.2]
          rfl
        _ = ms ++ m :: rest := by rw [ih hnext, List.append_assoc, List.singleton_append]

end Members
end Json
end RecordFilter
