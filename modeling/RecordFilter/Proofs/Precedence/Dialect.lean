import RecordFilter.Proofs.Precedence.Chain

/-!
# Dialect — chains as texts, and readers that split at the root

A dialect says how the operators of a language are written, which of them bind alike, and which node
an operator makes.  It writes a chain of texts as one text, and it gives the chain its tree, in which
each node keeps the trimmed text that it stands for.

A reader that splits each chain at its root reads this tree (`Dialect.read_write`).
-/

namespace RecordFilter

/-- Operators `κ` and trees `ν` of one language; the first tier binds loosest. -/
structure Dialect (κ ν : Type) where
  spell : κ → Text
  tiers : List (κ → Bool)
  node : κ → ν → ν → Text → ν

/-- A stretch of a text and the tree for it. -/
structure Part (ν : Type) where
  text : Text
  node : ν

namespace Dialect

variable {κ ν ε : Type} {d : Dialect κ ν}

/-- The text of a link. -/
def linkText (d : Dialect κ ν) (l : Link κ) : Text := l.before ++ d.spell l.op ++ l.after

/-- The text of a chain. -/
def write (d : Dialect κ ν) (c : Chain κ Text) : Text :=
  c.first ++ c.rest.flatMap fun x => d.linkText x.1 ++ x.2

/-- One operation between two parts. -/
def join (d : Dialect κ ν) (l : Link κ) (a b : Part ν) : Part ν :=
  ⟨a.text ++ d.linkText l ++ b.text,
    d.node l.op a.node b.node (Text.trim (a.text ++ d.linkText l ++ b.text))⟩

/-- The parts of a chain, each with its tree. -/
def parts (leaf : Text → ν) (c : Chain κ Text) : Chain κ (Part ν) := c.map fun a => ⟨a, leaf a⟩

/-- The tree of a chain whose items have the trees `leaf`. -/
def tree (d : Dialect κ ν) (leaf : Text → ν) (c : Chain κ Text) : ν :=
  (Chain.collapse d.join d.tiers (parts leaf c)).node

/-! ## Splitting -/

variable {a b : Text} {l : Link κ} {left right : List (Link κ × Text)} {leaf : Text → ν}

theorem write_append (d : Dialect κ ν) (a b : Text) (left right : List (Link κ × Text))
    (l : Link κ) :
    d.write ⟨a, left ++ (l, b) :: right⟩ = d.write ⟨a, left⟩ ++ d.linkText l ++ d.write ⟨b, right⟩ := by
  simp [write]

theorem operators_map {α β : Type} (f : α → β) (rest : List (Link κ × α)) :
    Chain.operators (rest.map fun x => (x.1, f x.2)) = Chain.operators rest := by
  simp [Chain.operators, Function.comp_def]

theorem collapse_parts_append
    (hroot : Chain.IsRoot d.tiers (Chain.operators left) l.op (Chain.operators right)) :
    Chain.collapse d.join d.tiers (parts leaf ⟨a, left ++ (l, b) :: right⟩) =
      d.join l (Chain.collapse d.join d.tiers (parts leaf ⟨a, left⟩))
        (Chain.collapse d.join d.tiers (parts leaf ⟨b, right⟩)) := by
  -- the operators do not change when the items become parts, so neither does the root
  have hparts : ∀ rest : List (Link κ × Text),
      Chain.operators (rest.map fun x => (x.1, (⟨x.2, leaf x.2⟩ : Part ν))) =
        Chain.operators rest :=
    operators_map fun t => (⟨t, leaf t⟩ : Part ν)
  rw [← hparts left, ← hparts right] at hroot
  have hcollapse := @Chain.collapse_append κ (Part ν) l _ _ d.join d.tiers hroot ⟨a, leaf a⟩ ⟨b, leaf b⟩
  simpa [parts, Chain.map] using hcollapse

theorem collapse_parts_single (d : Dialect κ ν) (leaf : Text → ν) (a : Text) :
    Chain.collapse d.join d.tiers (parts leaf ⟨a, []⟩) = ⟨a, leaf a⟩ := by
  -- no tier finds a link to cut at
  induction d.tiers with
  | nil => rfl
  | cons p tiers ih =>
      have hnone : ∀ x ∈ ([] : List (Link κ × Part ν)), p x.1.op = false :=
        fun x hx => absurd hx List.not_mem_nil
      have hstep : Chain.collapse d.join (p :: tiers) (parts leaf ⟨a, []⟩) =
          Chain.collapse d.join tiers (parts leaf ⟨a, []⟩) :=
        Chain.collapse_of_none hnone (⟨a, leaf a⟩ : Part ν)
      exact hstep.trans ih

/-- Induction over the roots of a chain. -/
theorem root_induction {motive : Chain κ Text → Prop} (tiers : List (κ → Bool))
    (single : ∀ a, motive ⟨a, []⟩)
    (append : ∀ a left l b right,
      Chain.IsRoot tiers (Chain.operators left) l.op (Chain.operators right) →
      motive ⟨a, left⟩ → motive ⟨b, right⟩ → motive ⟨a, left ++ (l, b) :: right⟩)
    (c : Chain κ Text) : motive c := by
  -- the sides of a root are no sublists at a fixed place, so the induction counts links
  induction hn : c.rest.length using Nat.strongRecOn generalizing c with
  | ind n ih =>
      subst hn
      rcases c with ⟨a, rest⟩
      cases rest with
      | nil => exact single a
      | cons x rest =>
          rcases Chain.exists_isRoot tiers (x :: rest) (List.cons_ne_nil x rest) with
            ⟨left, l, b, right, heq, hroot⟩
          have hlen : (x :: rest).length = left.length + (right.length + 1) := by
            rw [heq]
            simp
          -- the root itself is on neither side, so each side has fewer links
          have hleft : motive ⟨a, left⟩ := ih left.length (by simp only [hlen]; omega) ⟨a, left⟩ rfl
          have hright : motive ⟨b, right⟩ :=
            ih right.length (by simp only [hlen]; omega) ⟨b, right⟩ rfl
          rw [heq]
          exact append a left l b right hroot hleft hright

theorem text_collapse (d : Dialect κ ν) (leaf : Text → ν) (c : Chain κ Text) :
    (Chain.collapse d.join d.tiers (parts leaf c)).text = d.write c := by
  induction c using root_induction d.tiers with
  | single a =>
      rw [collapse_parts_single]
      simp [write]
  | append a left l b right hroot hleft hright =>
      rw [collapse_parts_append hroot, write_append]
      simp only [join, hleft, hright]

theorem tree_append
    (hroot : Chain.IsRoot d.tiers (Chain.operators left) l.op (Chain.operators right))
    (leaf : Text → ν) (a b : Text) :
    d.tree leaf ⟨a, left ++ (l, b) :: right⟩ =
      d.node l.op (d.tree leaf ⟨a, left⟩) (d.tree leaf ⟨b, right⟩)
        (Text.trim (d.write ⟨a, left ++ (l, b) :: right⟩)) := by
  rw [tree, collapse_parts_append hroot, write_append]
  simp only [join, text_collapse, tree]

theorem tree_single (d : Dialect κ ν) (leaf : Text → ν) (a : Text) :
    d.tree leaf ⟨a, []⟩ = leaf a := by
  rw [tree, collapse_parts_single]

/-! ## Reading -/

variable {Fits : Chain κ Text → Prop} {read : Text → Except ε ν}

/-- `read` splits a fitting chain at its root when all its items can be read. -/
def SplitsAtRoot (d : Dialect κ ν) (read : Text → Except ε ν) (Fits : Chain κ Text → Prop) : Prop :=
  ∀ a left l b right, Fits ⟨a, left ++ (l, b) :: right⟩ →
    Chain.IsRoot d.tiers (Chain.operators left) l.op (Chain.operators right) →
    (∀ i ∈ (⟨a, left ++ (l, b) :: right⟩ : Chain κ Text).items, ∃ t, read i = .ok t) →
    ∀ x y, read (d.write ⟨a, left⟩) = .ok x → read (d.write ⟨b, right⟩) = .ok y →
      read (d.write ⟨a, left ++ (l, b) :: right⟩) =
        .ok (d.node l.op x y (Text.trim (d.write ⟨a, left ++ (l, b) :: right⟩)))

/-- `read` reads a fitting chain only if it reads what stands on either side of its root. -/
def NeedsBothSides (d : Dialect κ ν) (read : Text → Except ε ν) (Fits : Chain κ Text → Prop) :
    Prop :=
  ∀ a left l b right, Fits ⟨a, left ++ (l, b) :: right⟩ →
    Chain.IsRoot d.tiers (Chain.operators left) l.op (Chain.operators right) →
    (∃ t, read (d.write ⟨a, left ++ (l, b) :: right⟩) = .ok t) →
    (∃ x, read (d.write ⟨a, left⟩) = .ok x) ∧ ∃ y, read (d.write ⟨b, right⟩) = .ok y

/-- Both sides of a link in a fitting chain fit. -/
def Splittable (Fits : Chain κ Text → Prop) : Prop :=
  ∀ a left l b right, Fits ⟨a, left ++ (l, b) :: right⟩ → Fits ⟨a, left⟩ ∧ Fits ⟨b, right⟩

/-- A reader that splits at the root reads a chain of readable items as the chain's tree. -/
theorem read_write (hsub : Splittable Fits) (hsplit : d.SplitsAtRoot read Fits)
    (c : Chain κ Text) (hfits : Fits c) (hleaf : ∀ a ∈ c.items, read a = .ok (leaf a)) :
    read (d.write c) = .ok (d.tree leaf c) := by
  induction c using root_induction d.tiers with
  | single a =>
      have hread := hleaf a List.mem_cons_self
      rw [tree_single]
      simpa [write] using hread
  | append a left l b right hroot ihl ihr =>
      have hfits' := hsub a left l b right hfits
      -- the items of the chain are those of its two sides, so the leaves of each side are known
      have hitems := Chain.items_append a b left l right
      have hl := ihl hfits'.1 (fun i hi => hleaf i (hitems ▸ List.mem_append_left _ hi))
      have hr := ihr hfits'.2 (fun i hi => hleaf i (hitems ▸ List.mem_append_right _ hi))
      rw [tree_append hroot]
      exact hsplit a left l b right hfits hroot (fun i hi => ⟨leaf i, hleaf i hi⟩) _ _ hl hr

/-- A reader that needs both sides of the root reads a chain only if it reads every item. -/
theorem read_items (hsub : Splittable Fits) (hsides : d.NeedsBothSides read Fits)
    (c : Chain κ Text) (hfits : Fits c) (h : ∃ t, read (d.write c) = .ok t) :
    ∀ a ∈ c.items, ∃ t, read a = .ok t := by
  induction c using root_induction d.tiers with
  | single a =>
      intro i hi
      have hia : i = a := by simpa [Chain.items] using hi
      subst hia
      simpa [write] using h
  | append a left l b right hroot ihl ihr =>
      -- both sides are read, and each item stands on one of them
      have hfits' := hsub a left l b right hfits
      rcases hsides a left l b right hfits hroot h with ⟨hx, hy⟩
      intro i hi
      rw [Chain.items_append] at hi
      rcases List.mem_append.1 hi with hi | hi
      · exact ihl hfits'.1 hx i hi
      · exact ihr hfits'.2 hy i hi

end Dialect
end RecordFilter
