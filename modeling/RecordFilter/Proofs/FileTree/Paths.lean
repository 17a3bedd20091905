import RecordFilter.FileTree.Path
import RecordFilter.Proofs.Text.Lines
import RecordFilter.Proofs.Text.Order
import RecordFilter.Proofs.Text.Spans

/-!
# Paths — what names lead to, as a path

A path that goes down from another by names has the components of that path and then the names
(`components_pathBelow`).  So the names are determined by the path (`pathBelow_injective`), and paths
below one directory compare name by name, each by its bytes (`order_pathBelow`).  A name is that of a
record file if it ends in one of three extensions behind a point that is not its first character
(`isRecordName_iff`).
-/

namespace RecordFilter
namespace FileTree
namespace Path

open Text (split split_append_cons split_of_not_mem split_ne_nil bytes)

variable {path name : Text} {names others : List Text}

/-! ## Names -/

/-- A name that a directory may give to an entry. -/
structure IsName (name : Text) : Prop where
  ne_nil : name ≠ []
  no_slash : '/' ∉ name
  ne_current : name ≠ ['.']
  ne_parent : name ≠ ['.', '.']

instance (name : Text) : Decidable (IsName name) :=
  decidable_of_iff (name ≠ [] ∧ '/' ∉ name ∧ name ≠ ['.'] ∧ name ≠ ['.', '.'])
    ⟨fun h => ⟨h.1, h.2.1, h.2.2.1, h.2.2.2⟩,
      fun h => ⟨h.ne_nil, h.no_slash, h.ne_current, h.ne_parent⟩⟩

theorem IsName.component?_eq (h : IsName name) : component? name = some (.normal name) := by
  rw [component?, if_neg (by simp [h.ne_nil, h.ne_current]), if_neg h.ne_parent]

/-- The path that goes down from a path by names. -/
def pathBelow (path : Text) (names : List Text) : Text := names.foldl join path

/-! ## Components -/

/-- A slash behind a path that is not empty begins further components. -/
theorem components_append_slash (hpath : path ≠ []) (rest : Text) :
    components (path ++ '/' :: rest) = components path ++ (split '/' rest).filterMap component? := by
  have hhead : (path ++ '/' :: rest).head? = path.head? := List.head?_append_of_ne_nil _ hpath
  have hpiece : (split '/' path ++ split '/' rest).head? = (split '/' path).head? :=
    List.head?_append_of_ne_nil _ (split_ne_nil '/' path)
  simp only [components, hhead, split_append_cons, hpiece, List.filterMap_append,
    List.append_assoc]

theorem components_join (hpath : path ≠ []) (hname : IsName name) :
    components (join path name) = components path ++ [.normal name] := by
  have hpieces : (split '/' name).filterMap component? = [.normal name] := by
    rw [split_of_not_mem hname.no_slash, List.filterMap_cons_some hname.component?_eq]
    rfl
  by_cases hslash : path.getLast? = some '/'
  · -- the slash is there already, and what stands behind it adds nothing to the components
    rcases List.getLast?_eq_some_iff.1 hslash with ⟨front, rfl⟩
    have hjoin : join (front ++ ['/']) name = front ++ '/' :: name := by
      rw [join, if_pos (by simp), List.append_assoc, List.singleton_append]
    rw [hjoin]
    cases front with
    | nil =>
        have hcons : split '/' ('/' :: name) = [] :: split '/' name := rfl
        simp only [components, List.nil_append, hcons, List.filterMap_cons, hpieces]
        rfl
    | cons c front =>
        have hfront : c :: front ≠ [] := List.cons_ne_nil c front
        rw [components_append_slash hfront, components_append_slash hfront, hpieces,
          List.append_assoc]
        rfl
  · rw [join, if_neg (by simp [hpath, hslash]), components_append_slash hpath, hpieces]

theorem join_ne_nil (hname : IsName name) : join path name ≠ [] := by
  unfold join
  split
  case isTrue => simp [hname.ne_nil]
  case isFalse => simp

/-- The names by which a path goes down are its last components. -/
theorem components_pathBelow (hpath : path ≠ []) (hnames : ∀ name ∈ names, IsName name) :
    components (pathBelow path names) = components path ++ names.map .normal := by
  induction names generalizing path with
  | nil => exact (List.append_nil _).symm
  | cons name rest ih =>
      rcases List.forall_mem_cons.1 hnames with ⟨hname, hrest⟩
      have hstep : pathBelow path (name :: rest) = pathBelow (join path name) rest := rfl
      rw [hstep, ih (join_ne_nil hname) hrest, components_join hpath hname, List.append_assoc]
      rfl

theorem pathBelow_injective (hpath : path ≠ []) (hnames : ∀ name ∈ names, IsName name)
    (hothers : ∀ name ∈ others, IsName name) (h : pathBelow path names = pathBelow path others) :
    names = others := by
  have hcomponents := congrArg components h
  rw [components_pathBelow hpath hnames, components_pathBelow hpath hothers] at hcomponents
  exact List.map_injective_iff.2 (fun _ _ => Component.normal.inj) (List.append_cancel_left hcomponents)

/-! ## The order of paths -/

theorem orderComponents_append (front as bs : List Component) :
    orderComponents (front ++ as) (front ++ bs) = orderComponents as bs := by
  induction front with
  | nil => rfl
  | cons c rest ih =>
      have hself : c.order c = .eq := by
        cases c with
        | normal name => exact Text.order_self name
        | root => rfl
        | current => rfl
        | parent => rfl
      rw [List.cons_append, List.cons_append, orderComponents, hself, ih]
      rfl

/-- Names are compared one after the other. -/
theorem orderComponents_names (names others : List Text) :
    (orderComponents (names.map .normal) (others.map .normal)).isLE =
      decide (names.map bytes ≤ others.map bytes) := by
  induction names generalizing others with
  | nil => cases others with
    | nil => rfl
    | cons other more => rfl
  | cons name rest ih => cases others with
    | nil => rfl
    | cons other more =>
        have hcons : (orderComponents ((name :: rest).map .normal) ((other :: more).map .normal)).isLE =
            ((Text.order name other).then
              (orderComponents (rest.map .normal) (more.map .normal))).isLE := rfl
        have hrest := ih more
        rw [Bool.eq_iff_iff, decide_eq_true_iff, ← not_lt] at hrest ⊢
        rw [hcons, List.map_cons, List.map_cons, List.cons_lt_cons_iff]
        cases horder : Text.order name other with
        | lt =>
            have hbytes := Text.bytes_lt_iff.2 (Text.order_eq_lt_iff.1 horder)
            simp [Ordering.then, lt_asymm hbytes, hbytes.ne']
        | eq =>
            rcases Text.eq_of_order horder with rfl
            simpa [Ordering.then] using hrest
        | gt =>
            have hbytes := Text.bytes_lt_iff.2 (Text.order_eq_gt_iff.1 horder)
            simp [Ordering.then, hbytes]

/-- Paths below a directory are in the order of the names that lead to them. -/
theorem order_pathBelow (hpath : path ≠ []) (hnames : ∀ name ∈ names, IsName name)
    (hothers : ∀ name ∈ others, IsName name) :
    (order (pathBelow path names) (pathBelow path others)).isLE =
      decide (names.map bytes ≤ others.map bytes) := by
  rw [order, components_pathBelow hpath hnames, components_pathBelow hpath hothers,
    orderComponents_append, orderComponents_names]

/-! ## Extensions -/

theorem ne_point_of_mem_reverse {s : Text} (h : '.' ∉ s) : ∀ c ∈ s.reverse, (c != '.') = true := by
  intro c hc
  exact bne_iff_ne.2 fun hpoint => h (hpoint ▸ List.mem_reverse.1 hc)

/-- A name with a point in it has a last one. -/
theorem exists_last_point (h : '.' ∈ name) :
    ∃ stem ending, name = stem ++ '.' :: ending ∧ '.' ∉ ending := by
  rcases List.eq_append_cons_of_mem (List.mem_reverse.2 h) with ⟨behind, front, hreverse, hbehind⟩
  refine ⟨front.reverse, behind.reverse, ?_, fun hmem => hbehind (List.mem_reverse.1 hmem)⟩
  rw [← List.reverse_reverse name, hreverse]
  simp

/-- What stands behind the last point of a name. -/
theorem takeWhile_reverse_of_last {stem ending : Text} (h : '.' ∉ ending) :
    ((stem ++ '.' :: ending).reverse.takeWhile (· != '.')).reverse = ending := by
  rw [List.reverse_append, List.reverse_cons, List.append_assoc, List.singleton_append,
    Text.takeWhile_append_of_all (ne_point_of_mem_reverse h) (by simp), List.reverse_reverse]

/-- A name with a point has an extension unless its last point is its first character. -/
theorem extension?_append {stem ending : Text} (h : '.' ∉ ending)
    (hname : stem ++ '.' :: ending ≠ ['.', '.']) :
    extension? (stem ++ '.' :: ending) = if stem = [] then none else some ending := by
  simp only [extension?, takeWhile_reverse_of_last h]
  cases stem with
  | nil => simp
  | cons c rest =>
      have hlength : ¬ ending.length + 1 ≥ (c :: rest ++ '.' :: ending).length := by
        simp only [List.length_append, List.length_cons]
        omega
      rw [decide_eq_false hname, decide_eq_false hlength, Bool.or_false, if_neg Bool.false_ne_true,
        if_neg (List.cons_ne_nil c rest)]

theorem extension?_of_not_mem (h : '.' ∉ name) : extension? name = none := by
  simp [extension?, List.takeWhile_eq_self_iff.2 (ne_point_of_mem_reverse h)]

/-- A name that ends in an extension of record files, with something in front of the point. -/
def HasRecordExtension (name : Text) : Prop :=
  ∃ stem, stem ≠ [] ∧ ∃ ending ∈ ["json".toList, "jsonl".toList, "ndjson".toList],
    name = stem ++ '.' :: ending

theorem isRecordName_iff : isRecordName name = true ↔ HasRecordExtension name := by
  have hlisted : ∀ ending : Text, (ending == "json".toList || ending == "jsonl".toList ||
      ending == "ndjson".toList) = true ↔
        ending ∈ ["json".toList, "jsonl".toList, "ndjson".toList] := by
    intro ending
    simp [or_assoc]
  have hpointless : ∀ ending ∈ ["json".toList, "jsonl".toList, "ndjson".toList], '.' ∉ ending := by
    decide
  constructor
  · intro h
    by_cases hpoint : '.' ∈ name
    · rcases exists_last_point hpoint with ⟨stem, ending, rfl, hending⟩
      rw [isRecordName] at h
      by_cases hparent : stem ++ '.' :: ending = ['.', '.']
      · rw [hparent] at h
        cases h
      · rw [extension?_append hending hparent] at h
        by_cases hstem : stem = []
        · rw [if_pos hstem] at h
          cases h
        · rw [if_neg hstem] at h
          exact ⟨stem, hstem, ending, (hlisted _).1 h, rfl⟩
    · rw [isRecordName, extension?_of_not_mem hpoint] at h
      cases h
  · rintro ⟨stem, hstem, ending, hmem, rfl⟩
    have hname : stem ++ '.' :: ending ≠ ['.', '.'] := by
      intro hparent
      have hnil : ending = [] := by
        rw [← takeWhile_reverse_of_last (hpointless ending hmem), hparent]
        rfl
      rw [hnil] at hmem
      exact absurd hmem (by decide)
    rw [isRecordName, extension?_append (hpointless ending hmem) hname, if_neg hstem]
    exact (hlisted ending).2 hmem

end Path
end FileTree
end RecordFilter
