import RecordFilter.Condition.Basic
import RecordFilter.Number.Notation

/-!
# Outline — one view of the three kinds of tree

Conditions, comparisons and arithmetic are seen as one kind of tree, `Node`, in which a comparison
hangs directly below the connective that uses it.  `Node.outline` writes a tree with one line a
node, each indented by two blanks more than its parent.
-/

namespace RecordFilter

/-- A node of a filter's tree. -/
inductive Node where
  | condition (c : Condition)
  | comparison (c : Comparison)
  | arithmetic (a : Arithmetic)
  deriving DecidableEq, Repr

namespace Node

/-- The node of a condition; a condition that is one comparison is that comparison. -/
def ofCondition : Condition → Node
  | .comparison c => .comparison c
  | c => .condition c

/-- The word for the kind of a node. -/
def kind : Node → Text
  | .condition _ => "logical".toList
  | .comparison _ => "comparison".toList
  | .arithmetic _ => "arithmetic".toList

/-- The text that the node was read from. -/
def raw : Node → Text
  | .condition c => c.raw
  | .comparison c => c.raw
  | .arithmetic a => a.raw

/-- The operator of an inner node; for a comparison the relation as applied. -/
def operation? : Node → Option Text
  | .condition c => c.keyword?
  | .comparison c => some c.effective.symbol
  | .arithmetic a => a.operator?.map fun op => [op.symbol]

/-- How many operations stand on the longest way down, counted as each kind does. -/
def complexity : Node → Nat
  | .condition c => c.complexity
  | .comparison c => c.complexity
  | .arithmetic a => a.complexity

/-- The operands of an arithmetic expression. -/
def arithmeticChildren : Arithmetic → List Node
  | .binary _ left right _ => [.arithmetic left, .arithmetic right]
  | _ => []

/-- The two sides of a comparison of numbers. -/
def operandChildren : Comparison.Operands → List Node
  | .numeric left right => [.arithmetic left, .arithmetic right]
  | .text _ _ => []

/-- The nodes directly below. -/
def children : Node → List Node
  | .condition c => c.children.map ofCondition
  | .comparison c => operandChildren c.operands
  | .arithmetic a => arithmeticChildren a

/-- One line: the kind, the operator in brackets, the complexity and the text. -/
def line (depth : Nat) (n : Node) : Text :=
  let operation := match n.operation? with
    | some op => " [".toList ++ op ++ "]".toList
    | none => []
  List.replicate (2 * depth) ' ' ++ n.kind ++ operation ++ " complexity=".toList
    ++ Number.natText n.complexity ++ ": ".toList ++ n.raw ++ ['\n']

end Node

/-! ## Outlines -/

/-- The outline of an arithmetic expression. -/
def Arithmetic.outline (depth : Nat) : Arithmetic → Text
  | .binary op left right raw =>
      (Node.arithmetic (.binary op left right raw)).line depth
        ++ left.outline (depth + 1) ++ right.outline (depth + 1)
  | leaf => (Node.arithmetic leaf).line depth

/-- The outline of a comparison. -/
def Comparison.outline (depth : Nat) (c : Comparison) : Text :=
  (Node.comparison c).line depth ++
    match c.operands with
    | .numeric left right => left.outline (depth + 1) ++ right.outline (depth + 1)
    | .text _ _ => []

/-- The outline of a condition. -/
def Condition.outline (depth : Nat) : Condition → Text
  | .comparison c => c.outline depth
  | .truth b => (Node.condition (.truth b)).line depth
  | .negation child raw =>
      (Node.condition (.negation child raw)).line depth ++ child.outline (depth + 1)
  | .binary op left right raw =>
      (Node.condition (.binary op left right raw)).line depth
        ++ left.outline (depth + 1) ++ right.outline (depth + 1)

/-- The node and all nodes below it, one line each, every line ended. -/
def Node.outline (depth : Nat) : Node → Text
  | .condition c => c.outline depth
  | .comparison c => c.outline depth
  | .arithmetic a => a.outline depth

theorem Node.outline_ofCondition (depth : Nat) (c : Condition) :
    (Node.ofCondition c).outline depth = c.outline depth := by
  cases c <;> rfl

/-- An outline is the node's own line, then its children's outlines one level further in. -/
theorem Condition.outline_eq (depth : Nat) (c : Condition) :
    c.outline depth = (Node.ofCondition c).line depth
      ++ (Node.ofCondition c).children.flatMap (Node.outline (depth + 1)) := by
  cases c with
  | truth b => simp [Condition.outline, Node.ofCondition, Node.children, Condition.children]
  | comparison c =>
      obtain ⟨raw, written, swapped, operands⟩ := c
      cases operands <;> simp [Condition.outline, Comparison.outline, Node.ofCondition,
        Node.children, Node.operandChildren, Node.outline]
  | negation child raw =>
      simp [Condition.outline, Node.ofCondition, Node.children, Condition.children,
        ← Node.outline_ofCondition]
  | binary op left right raw =>
      simp [Condition.outline, Node.ofCondition, Node.children, Condition.children,
        ← Node.outline_ofCondition]

end RecordFilter
