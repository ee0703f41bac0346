-- Loop nests as data. A forest of loops has its measures, its text in each
-- language, and the shape of its parse trees; nothing here reads either.
import BigO.Loop.Nesting
import BigO.Proofs.Visits

namespace BigO.Loop

open BigO.Text BigO.Tree

/-! ## The longer of two lists -/

section Longer

variable {α β : Type}

/-- The longer of two lists, the first if they are of one length. -/
def longer (a b : List α) : List α :=
  if a.length < b.length then b else a

theorem length_longer (a b : List α) : (longer a b).length = max a.length b.length := by
  unfold longer
  split <;> omega

theorem longer_eq_left {a b : List α} (h : b.length ≤ a.length) : longer a b = a :=
  if_neg (by omega)

theorem longer_nil_left (b : List α) : longer [] b = b := by
  cases b with
  | nil => rfl
  | cons x xs => exact if_pos (by simp)

theorem longer_assoc (a b c : List α) : longer (longer a b) c = longer a (longer b c) := by
  unfold longer
  split <;> split <;> (try split) <;> first | rfl | omega

theorem append_longer (p a b : List α) : p ++ longer a b = longer (p ++ a) (p ++ b) := by
  unfold longer
  simp only [List.length_append, Nat.add_lt_add_iff_left]
  split <;> rfl

theorem map_longer (g : α → β) (a b : List α) :
    (longer a b).map g = longer (a.map g) (b.map g) := by
  unfold longer
  simp only [List.length_map]
  split <;> rfl

theorem longer_append_self (a b : List α) : longer a (a ++ b) = a ++ b := by
  cases b with
  | nil => simp [longer]
  | cons x xs => exact if_pos (by simp)

/-- The best nest once a loop, the loops inside it and those after it are met is
the best of what they show together. -/
theorem longer_nest (best base : List α) (x : α) (inner rest : List α) :
    longer (longer (longer best (base ++ [x])) (base ++ [x] ++ inner)) (base ++ rest) =
      longer best (base ++ longer (x :: inner) rest) := by
  rw [longer_assoc best, longer_append_self, longer_assoc, append_longer]
  simp

end Longer

/-! ## Bounds -/

/-- A character that a number or a name may be made of. Beyond ASCII only white
space is ruled out. -/
def isTokenChar (c : Char) : Bool :=
  if c.toNat < 0x80 then c.isAlphanum || c == '_' || c == '$' else !isBlank c

/-- A bound that is a single token: a number or a name. -/
structure Bound where
  text : List Char
  ne_nil : text ≠ []
  isToken : text.all isTokenChar = true

/-- What a loop with this bound multiplies the work by. -/
def Bound.factor (b : Bound) : Factor :=
  factorOfBound b.text

theorem Bound.isTokenChar_of_mem (b : Bound) {c : Char} (hc : c ∈ b.text) : isTokenChar c = true :=
  List.all_eq_true.mp b.isToken c hc

theorem Bound.notMem (b : Bound) {x : Char} (hx : isTokenChar x = false) : x ∉ b.text := by
  intro h
  rw [b.isTokenChar_of_mem h] at hx
  exact absurd hx (by decide)

/-! ## Forests -/

/-- Loops in order, each with the loops inside it. -/
inductive Forest where
  | empty
  | loop (bound : Bound) (inner rest : Forest)

namespace Forest

/-- The number of loops. -/
def count : Forest → Nat
  | empty => 0
  | loop _ inner rest => 1 + inner.count + rest.count

/-- How many loops the deepest one lies in, itself counted. -/
def height : Forest → Nat
  | empty => 0
  | loop _ inner rest => max (inner.height + 1) rest.height

/-- The bounds on the way to the deepest loop, and to the first of several. -/
def deepest : Forest → List Bound
  | empty => []
  | loop b inner rest => longer (b :: inner.deepest) rest.deepest

/-- The way to the deepest loop, with what a reader makes of a bound at a level. -/
def path {α : Type} (make : Nat → Bound → α) : Nat → Forest → List α
  | _, empty => []
  | level, loop b inner rest =>
    longer (make level b :: path make (level + 1) inner) (path make level rest)

/-- What does not depend on the level is read off the bounds alone. -/
theorem map_path {α β : Type} {make : Nat → Bound → α} {g : α → β} {h : Bound → β}
    (hg : ∀ level b, g (make level b) = h b) (level : Nat) (f : Forest) :
    (f.path make level).map g = f.deepest.map h := by
  induction f generalizing level with
  | empty => rfl
  | loop b inner rest ihi ihr =>
    rw [path, deepest, map_longer, map_longer, ihr, List.map_cons, List.map_cons, ihi, hg]

theorem length_path {α : Type} (make : Nat → Bound → α) (level : Nat) (f : Forest) :
    (f.path make level).length = f.height := by
  induction f generalizing level with
  | empty => rfl
  | loop b inner rest ihi ihr =>
    rw [path, length_longer, List.length_cons, ihi, ihr, height]

/-! ## Text -/

/-- What stands before the bound in the line that opens a loop. -/
def headerStart : Language → List Char
  | .python => "for i in range(".toList
  | .java | .c => "for (int i = 0; i < ".toList

/-- What stands after the bound in the line that opens a loop. -/
def headerEnd : Language → List Char
  | .python => "):".toList
  | .java | .c => "; i++) \x7b".toList

/-- The line that opens a loop, without its margin. -/
def header (lang : Language) (b : Bound) : List Char :=
  headerStart lang ++ (b.text ++ headerEnd lang)

/-- The line that ends a loop, or stands where nothing is inside it. -/
def closing : Language → List Char
  | .python => "pass".toList
  | .java | .c => "\x7d".toList

/-- The blank before a line, so many columns for each level. -/
def margin (unit level : Nat) : List Char :=
  List.replicate (unit * level) ' '

/-- The lines after those of the loops inside a loop. -/
def closingLines (lang : Language) (unit level : Nat) (inner : Forest) : List (List Char) :=
  if lang.profile.usesBraces then [margin unit level ++ closing lang]
  else match inner with
    | empty => [margin unit (level + 1) ++ closing lang]
    | loop .. => []

/-- The lines of a forest. -/
def lines (lang : Language) (unit : Nat) : Nat → Forest → List (List Char)
  | _, empty => []
  | level, loop b inner rest =>
    (margin unit level ++ header lang b) ::
      (lines lang unit (level + 1) inner ++ closingLines lang unit level inner ++
        lines lang unit level rest)

/-- The source of a forest. -/
def source (lang : Language) (unit : Nat) (f : Forest) : List Char :=
  joinLines (f.lines lang unit 0)

/-! ## Parse trees -/

/-- The tokens of a header before its bound. -/
def tokensBefore : Language → List (List Char)
  | .python => ["for", "i", "in", "range", "("].map String.toList
  | .java | .c => ["for", "(", "int", "i", "=", "0", ";", "i", "<"].map String.toList

/-- The tokens of a header after its bound. -/
def tokensAfter : Language → List (List Char)
  | .python => [")", ":"].map String.toList
  | .java | .c => [";", "i", "++", ")"].map String.toList

/-- The leaves of a loop outside its body. -/
def headerTokens (lang : Language) (b : Bound) : List (List Char) :=
  tokensBefore lang ++ b.text :: tokensAfter lang

/-- The leaves of the body of a loop outside the loops in it. -/
def bodyTokens (lang : Language) (inner : Forest) : List (List Char) :=
  if lang.profile.usesBraces then [['{'], ['}']]
  else match inner with
    | empty => [closing lang]
    | loop .. => []

/-- Nodes of this kind are neither loops nor functions. -/
def IsPlainKind (lang : Language) (kind : String) : Prop :=
  lang.loopKind? kind = none ∧ lang.isFunctionKind kind = false

instance (lang : Language) (kind : String) : Decidable (IsPlainKind lang kind) :=
  inferInstanceAs (Decidable (_ ∧ _))

/-- There are neither loops nor functions in a tree. -/
def IsPlain (lang : Language) (n : Node) : Prop :=
  ∀ m ∈ n.nodes, IsPlainKind lang m.kind

instance (lang : Language) (n : Node) : Decidable (IsPlain lang n) :=
  inferInstanceAs (Decidable (∀ m ∈ n.nodes, IsPlainKind lang m.kind))

/-- A list of trees holds the loops of a forest in order, and beside them only
plain trees, with these leaves. The header of a loop is spread over its
children in any way, and its body is the child that the field names. -/
inductive Holds (lang : Language) : Forest → List (List Char) → List Node → Prop
  | nil : Holds lang empty [] []
  | aside {f : Forest} {ts : List (List Char)} {n : Node} {ns : List Node} :
      IsPlain lang n → Holds lang f ts ns → Holds lang f (Node.leaves [n] ++ ts) (n :: ns)
  | loop {b : Bound} {inner rest : Forest} {ts : List (List Char)} {n : Node} {ns : List Node}
      (before : List Node) (body : Node) (after : List Node) :
      n.kind = "for_statement" →
      n.children = before ++ body :: after →
      n.fields.lookup "body" = some before.length →
      (∀ m ∈ before ++ after, IsPlain lang m) →
      Node.leaves (before ++ after) = headerTokens lang b →
      IsPlainKind lang body.kind →
      Holds lang inner (bodyTokens lang inner) body.children →
      Holds lang rest ts ns →
      Holds lang (.loop b inner rest) ts (n :: ns)

/-- A parse tree of a source that holds the loops of a forest and nothing else. -/
structure IsTreeOf (lang : Language) (source : List Char) (f : Forest) (root : Node) : Prop where
  plain : IsPlainKind lang root.kind
  holds : Holds lang f [] root.children
  within : ∀ n ∈ root.nodes, n.text <:+: source

end Forest

end BigO.Loop
