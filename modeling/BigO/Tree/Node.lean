-- Parse trees. A node has a kind, the bytes it covers, its children, and
-- fields that name a child or a node kept apart from the children.
import BigO.Text.Utf8

namespace BigO.Tree

open BigO.Text

/-- A node of a parse tree. `fields` names children by position; `detached`
names nodes that are no children. -/
structure Node where
  kind : String
  bytes : List UInt8 := []
  hasError : Bool := false
  children : List Node := []
  fields : List (String × Nat) := []
  detached : List (String × Node) := []

namespace Node

/-- The text of a node. Bytes that are no text are replaced. -/
def text (n : Node) : List Char :=
  decodeLossy n.bytes

def field? (n : Node) (name : String) : Option Node :=
  match n.fields.lookup name with
  | some i => n.children[i]?
  | none => n.detached.lookup name

/-! ## Size -/

mutual

/-- The number of nodes of a tree, detached ones not counted. -/
def size : Node → Nat
  | ⟨_, _, _, children, _, _⟩ => forestSize children + 1

def forestSize : List Node → Nat
  | [] => 0
  | n :: ns => n.size + forestSize ns

end

theorem size_eq (n : Node) : n.size = forestSize n.children + 1 := by
  cases n
  simp [size]

/-! ## Fields lead to smaller trees -/

theorem sizeOf_lookup_lt {name : String} {m : Node} :
    ∀ {pairs : List (String × Node)}, pairs.lookup name = some m → sizeOf m < sizeOf pairs
  | [], h => by simp at h
  | (k, v) :: rest, h => by
    rw [List.lookup_cons] at h
    split at h
    · simp only [Option.some.injEq] at h
      subst h
      simp
      omega
    · have := sizeOf_lookup_lt h
      simp
      omega

theorem sizeOf_field_lt {n m : Node} {name : String} (h : n.field? name = some m) :
    sizeOf m < sizeOf n := by
  cases n with
  | mk kind bytes hasError children fields detached =>
    simp only [field?] at h
    split at h
    · have := List.sizeOf_lt_of_mem (List.mem_of_getElem? h)
      simp
      omega
    · have := sizeOf_lookup_lt h
      simp
      omega

end Node

end BigO.Tree
