import RecordFilter.Text.Blank

/-!
# Chain — the tree of a sequence of operands

A chain is an operand and any number of operators with one more operand behind each.  Its tree is
built tier by tier: the chain is cut at the operators of the loosest tier, the pieces are built in
the same way from the tighter tiers, and the results are joined from left to right (`collapse`).

The root of that tree is the last operator of the loosest tier there is (`Chain.IsRoot`,
`Chain.collapse_append`).
-/

namespace RecordFilter

/-- An operator between two operands, with the blanks on either side of it. -/
structure Link (κ : Type) where
  before : Text
  op : κ
  after : Text
  deriving Repr

/-- Items with a link between each two neighbours. -/
structure Chain (κ α : Type) where
  first : α
  rest : List (Link κ × α)
  deriving Repr

namespace Chain

variable {κ α β : Type}

/-- The operators of the links, from left to right. -/
def operators (rest : List (Link κ × α)) : List κ := rest.map fun x => x.1.op

/-- The items from left to right. -/
def items (c : Chain κ α) : List α := c.first :: c.rest.map Prod.snd

/-- The same links between other items. -/
def map (f : α → β) (c : Chain κ α) : Chain κ β :=
  ⟨f c.first, c.rest.map fun x => (x.1, f x.2)⟩

/-- Cuts the chain of `a` and the given rest at the links whose operator `p` picks out. -/
def cutFrom (p : κ → Bool) (a : α) : List (Link κ × α) → Chain κ (Chain κ α)
  | [] => ⟨⟨a, []⟩, []⟩
  | (l, b) :: rest =>
      let tail := cutFrom p b rest
      if p l.op then ⟨⟨a, []⟩, (l, tail.first) :: tail.rest⟩
      else ⟨⟨a, (l, tail.first.first) :: tail.first.rest⟩, tail.rest⟩

/-- Cuts a chain at the links whose operator `p` picks out. -/
def cut (p : κ → Bool) (c : Chain κ α) : Chain κ (Chain κ α) := cutFrom p c.first c.rest

/-- Joins the items from left to right. -/
def fold (join : Link κ → α → α → α) (c : Chain κ α) : α :=
  c.rest.foldl (fun done x => join x.1 done x.2) c.first

/-- Joins the items tier by tier, the first tier last; the operators of no tier bind tightest. -/
def collapse (join : Link κ → α → α → α) : List (κ → Bool) → Chain κ α → α
  | [], c => c.fold join
  | p :: tiers, c => ((c.cut p).map (collapse join tiers)).fold join

/-! ## Cutting -/

variable {p : κ → Bool} {a b : α} {l : Link κ} {left right : List (Link κ × α)}

theorem cutFrom_of_none (h : ∀ x ∈ right, p x.1.op = false) (a : α) :
    cutFrom p a right = ⟨⟨a, right⟩, []⟩ := by
  induction right generalizing a with
  | nil => rfl
  | cons x right ih =>
      have hx : p x.1.op = false := h x List.mem_cons_self
      have htail := ih (fun y hy => h y (List.mem_cons_of_mem _ hy)) x.2
      simp only [cutFrom, hx, htail]
      rfl

theorem cutFrom_append (hl : p l.op = true) (a b : α) (left right : List (Link κ × α)) :
    cutFrom p a (left ++ (l, b) :: right) =
      ⟨(cutFrom p a left).first,
        (cutFrom p a left).rest ++ (l, (cutFrom p b right).first) :: (cutFrom p b right).rest⟩ := by
  induction left generalizing a with
  | nil => simp [cutFrom, hl]
  | cons x left ih =>
      -- a cut at `x` opens a new piece, and without one `x` joins the first piece of the tail
      have htail := ih x.2
      cases hx : p x.1.op with
      | true => simp [cutFrom, hx, htail]
      | false => simp [cutFrom, hx, htail]

/-! ## The root -/

/-- `op` is the last operator of the loosest tier that it and the operators around it have. -/
def IsRoot : List (κ → Bool) → List κ → κ → List κ → Prop
  | [], _, _, right => right = []
  | p :: tiers, left, op, right =>
      (p op = true ∧ ∀ x ∈ right, p x = false) ∨
        (p op = false ∧ (∀ x ∈ left ++ right, p x = false) ∧ IsRoot tiers left op right)

/-- The last of the members that `p` picks out, if it picks out any. -/
theorem forall_or_exists_last (p : α → Bool) (xs : List α) :
    (∀ x ∈ xs, p x = false) ∨
      ∃ left x right, xs = left ++ x :: right ∧ p x = true ∧ ∀ y ∈ right, p y = false := by
  induction xs with
  | nil => exact Or.inl (fun x hx => absurd hx List.not_mem_nil)
  | cons x xs ih =>
      rcases ih with hnone | ⟨left, y, right, rfl, hy, hright⟩
      · -- `x` is the only member left that `p` may pick out
        cases hx : p x with
        | true => exact Or.inr ⟨[], x, xs, rfl, hx, hnone⟩
        | false =>
            apply Or.inl
            intro z hz
            rcases List.mem_cons.1 hz with rfl | hz
            · exact hx
            · exact hnone z hz
      · exact Or.inr ⟨x :: left, y, right, rfl, hy, hright⟩

theorem exists_isRoot_operators (tiers : List (κ → Bool)) (ops : List κ) (hne : ops ≠ []) :
    ∃ left op right, ops = left ++ op :: right ∧ IsRoot tiers left op right := by
  induction tiers with
  | nil =>
      -- what no tier tells apart is joined from the left, so its last operator is the root
      have hlast := List.dropLast_concat_getLast hne
      exact ⟨ops.dropLast, ops.getLast hne, [], hlast.symm, rfl⟩
  | cons p tiers ih =>
      rcases forall_or_exists_last p ops with hnone | ⟨left, op, right, h, hop, hright⟩
      · rcases ih with ⟨left, op, right, rfl, hroot⟩
        have hop : p op = false := hnone op (by simp)
        refine ⟨left, op, right, rfl, Or.inr ⟨hop, ?_, hroot⟩⟩
        intro x hx
        rcases List.mem_append.1 hx with hx | hx
        · exact hnone x (List.mem_append_left _ hx)
        · exact hnone x (List.mem_append_right _ (List.mem_cons_of_mem _ hx))
      · exact ⟨left, op, right, h, Or.inl ⟨hop, hright⟩⟩

theorem exists_isRoot (tiers : List (κ → Bool)) (rest : List (Link κ × α)) (hne : rest ≠ []) :
    ∃ left l b right, rest = left ++ (l, b) :: right ∧
      IsRoot tiers (operators left) l.op (operators right) := by
  have hops : operators rest ≠ [] := by
    simpa [operators] using hne
  rcases exists_isRoot_operators tiers (operators rest) hops with ⟨left, op, right, heq, hroot⟩
  rcases List.map_eq_append_iff.1 heq with ⟨left', tail, rfl, rfl, htail⟩
  rcases List.map_eq_cons_iff.1 htail with ⟨x, right', rfl, rfl, rfl⟩
  exact ⟨left', x.1, x.2, right', rfl, hroot⟩

theorem collapse_of_none {join : Link κ → α → α → α} {tiers : List (κ → Bool)}
    (h : ∀ x ∈ right, p x.1.op = false) (a : α) :
    collapse join (p :: tiers) ⟨a, right⟩ = collapse join tiers ⟨a, right⟩ := by
  simp [collapse, cut, cutFrom_of_none h, map, fold]

/-- The tree splits at its root: the operands left of it and those right of it make its sides. -/
theorem collapse_append {join : Link κ → α → α → α} {tiers : List (κ → Bool)}
    (hroot : IsRoot tiers (operators left) l.op (operators right)) (a b : α) :
    collapse join tiers ⟨a, left ++ (l, b) :: right⟩ =
      join l (collapse join tiers ⟨a, left⟩) (collapse join tiers ⟨b, right⟩) := by
  induction tiers with
  | nil =>
      -- nothing stands right of the root, which is the last step of the fold
      have hnil : right = [] := List.map_eq_nil_iff.1 hroot
      subst hnil
      simp [collapse, fold]
  | cons p tiers ih =>
      rcases hroot with ⟨hl, hright⟩ | ⟨hl, hnone, hroot⟩
      · -- the pieces right of a link of the loosest tier are one piece
        have hright : ∀ x ∈ right, p x.1.op = false :=
          fun x hx => hright x.1.op (List.mem_map_of_mem hx)
        rw [collapse_of_none hright]
        simp [collapse, cut, cutFrom_append hl, cutFrom_of_none hright, map, fold]
      · -- this tier cuts neither the chain nor its sides
        have hleft : ∀ x ∈ left, p x.1.op = false :=
          fun x hx => hnone x.1.op (List.mem_append_left _ (List.mem_map_of_mem hx))
        have hright : ∀ x ∈ right, p x.1.op = false :=
          fun x hx => hnone x.1.op (List.mem_append_right _ (List.mem_map_of_mem hx))
        have hall : ∀ x ∈ left ++ (l, b) :: right, p x.1.op = false := by
          intro x hx
          rcases List.mem_append.1 hx with hx | hx
          · exact hleft x hx
          · rcases List.mem_cons.1 hx with rfl | hx
            · exact hl
            · exact hright x hx
        rw [collapse_of_none hall, collapse_of_none hleft, collapse_of_none hright, ih hroot]

/-! ## Items -/

section Conditions

variable {P : α → Prop} {G : Link κ × α → Prop} {rest : List (Link κ × α)}

/-- A condition on the items of a chain and one on its links with what follows them. -/
theorem forall_cons_iff :
    ((∀ i ∈ (⟨a, (l, b) :: rest⟩ : Chain κ α).items, P i) ∧ ∀ x ∈ (l, b) :: rest, G x) ↔
      P a ∧ G (l, b) ∧ (∀ i ∈ (⟨b, rest⟩ : Chain κ α).items, P i) ∧ ∀ x ∈ rest, G x := by
  simp only [items, List.map_cons, List.forall_mem_cons]
  constructor
  · rintro ⟨⟨ha, hitems⟩, hlink, hrest⟩
    exact ⟨ha, hlink, hitems, hrest⟩
  · rintro ⟨ha, hlink, hitems, hrest⟩
    exact ⟨⟨ha, hitems⟩, hlink, hrest⟩

theorem forall_append_iff :
    ((∀ i ∈ (⟨a, left ++ (l, b) :: right⟩ : Chain κ α).items, P i) ∧
        ∀ x ∈ left ++ (l, b) :: right, G x) ↔
      ((∀ i ∈ (⟨a, left⟩ : Chain κ α).items, P i) ∧ ∀ x ∈ left, G x) ∧ G (l, b) ∧
        (∀ i ∈ (⟨b, right⟩ : Chain κ α).items, P i) ∧ ∀ x ∈ right, G x := by
  induction left generalizing a with
  | nil =>
      rw [List.nil_append, forall_cons_iff]
      simp [items]
  | cons x left ih =>
      rw [List.cons_append, forall_cons_iff, ih, forall_cons_iff, and_assoc, and_assoc, and_assoc,
        and_assoc]

end Conditions

theorem items_append (a b : α) (left : List (Link κ × α)) (l : Link κ) (right : List (Link κ × α)) :
    (⟨a, left ++ (l, b) :: right⟩ : Chain κ α).items =
      (⟨a, left⟩ : Chain κ α).items ++ (⟨b, right⟩ : Chain κ α).items := by
  simp [items]

end Chain
end RecordFilter
