-- The languages and what is known of each: how it writes comments, which words
-- open loops, which calls sort, where bounds and functions are declared, and
-- the node kinds of its parse trees.
import BigO.Language.Calls
import BigO.Language.Comments
import BigO.Loop.Bound
import BigO.Recursion.Signature

namespace BigO

open BigO.Scan BigO.Scan.Scanner

/-- The languages that can be read. -/
inductive Language where
  | python
  | java
  | c
deriving DecidableEq, Repr

inductive LoopKind where
  | forLoop
  | whileLoop
  | doLoop
deriving DecidableEq, Repr

def LoopKind.label : LoopKind → String
  | .forLoop => "for"
  | .whileLoop => "while"
  | .doLoop => "do"

/-- The node kinds of a language's parse trees, and the texts that mark a node
as a sort or as another library operation. -/
structure TreeVocabulary where
  loopNodes : List (String × LoopKind)
  functionNodes : List String
  sortCalls : List (Scanner Unit)
  libraryCalls : List (Scanner Unit)

/-- What is known of a language. Bound rules and signatures are tried in order. -/
structure Profile where
  usesBraces : Bool
  comments : CommentStyle
  loopWords : List String
  sortCalls : List (Scanner Unit)
  boundRules : List Loop.BoundRule
  signatures : List (Scanner Recursion.Signature)
  tree : TreeVocabulary

namespace Language

/-! ## Names -/

/-- Every language, in the order they are listed. -/
def all : List Language := [.python, .java, .c]

/-- The name of a language, which is also its tag. -/
def name : Language → String
  | .python => "python"
  | .java => "java"
  | .c => "c"

def ofName? (n : String) : Option Language :=
  all.find? (·.name == n)

theorem name_injective {a b : Language} (h : a.name = b.name) : a = b := by
  cases a <;> cases b <;> first | rfl | exact absurd h (by decide)

theorem ofName?_eq_some_iff {n : String} {lang : Language} :
    ofName? n = some lang ↔ lang.name = n := by
  constructor
  · intro h
    have hname := List.find?_some h
    exact eq_of_beq hname
  · rintro rfl
    cases lang <;> decide

theorem isSome_ofName?_iff (n : String) :
    (ofName? n).isSome = true ↔ ∃ lang : Language, lang.name = n := by
  rw [Option.isSome_iff_exists]
  exact exists_congr fun _ => ofName?_eq_some_iff

/-- The language of a text that no language is given for. -/
def fallback : Language := .python

/-! ## Profiles -/

/-- The bound rules of the languages with braces. -/
def braceBoundRules : List Loop.BoundRule :=
  [.limit Loop.clauseLimit, .limit Loop.conditionLimit]

def profile : Language → Profile
  | .python => {
      usesBraces := false
      comments := .hash
      loopWords := ["for", "while"]
      sortCalls := [anyCaseCallOf "sorted", anyCaseMethodCallOf "sort"]
      boundRules := [.call Loop.rangeCall, .limit Loop.whileLimit]
      signatures := [Recursion.defSignature]
      tree := {
        loopNodes := [("for_statement", .forLoop), ("while_statement", .whileLoop)]
        functionNodes := ["function_definition"]
        sortCalls := [callOf "sorted", methodCallOf "sort"]
        libraryCalls := [callOf "set", callOf "dict", memberOf "heapq", memberOf "bisect"] } }
  | .java => {
      usesBraces := true
      comments := .slash
      loopWords := ["for", "while", "do"]
      sortCalls :=
        [anyCaseWord "arrays.sort", anyCaseWord "collections.sort", anyCaseMethodCallOf "sort"]
      boundRules := braceBoundRules
      signatures := [Recursion.methodSignature]
      tree := {
        loopNodes := [("for_statement", .forLoop), ("enhanced_for_statement", .forLoop),
          ("while_statement", .whileLoop), ("do_statement", .doLoop)]
        functionNodes := ["method_declaration"]
        sortCalls := [callOf "Arrays.sort", callOf "Collections.sort", methodCallOf "sort"]
        libraryCalls := [word "HashMap", word "HashSet", word "PriorityQueue", word "Deque"] } }
  | .c => {
      usesBraces := true
      comments := .slash
      loopWords := ["for", "while", "do"]
      sortCalls := [anyCaseCallOf "qsort"]
      boundRules := braceBoundRules
      signatures := [Recursion.blockSignature]
      tree := {
        loopNodes := [("for_statement", .forLoop), ("while_statement", .whileLoop),
          ("do_statement", .doLoop)]
        functionNodes := ["function_definition"]
        sortCalls := [callOf "qsort"]
        libraryCalls := [callOf "bsearch", callOf "malloc", callOf "calloc", callOf "realloc"] } }

/-! ## What the profile is asked for -/

def withoutComments (l : Language) (text : List Char) : List Char :=
  Comments.strip l.profile.comments text

/-- The bound of a loop header (`extract_loop_bound`). -/
def loopBound? (l : Language) (header : List Char) : Option (List Char) :=
  Loop.bound? l.profile.boundRules header

/-- The bound of a loop header, or the default if it shows none. -/
def loopBound (l : Language) (header : List Char) : List Char :=
  match l.loopBound? header with
  | some (x :: xs) => x :: xs
  | _ => Loop.defaultBound

/-- The line holds a word that opens a loop. -/
def opensLoop (l : Language) (line : List Char) : Bool :=
  l.profile.loopWords.any fun w => (word w).occurs line

/-- The line holds a call that sorts. -/
def isSortLine (l : Language) (line : List Char) : Bool :=
  l.profile.sortCalls.any (·.occurs line)

/-- The kind of loop that a node kind stands for. -/
def loopKind? (l : Language) (kind : String) : Option LoopKind :=
  l.profile.tree.loopNodes.lookup kind

def isFunctionKind (l : Language) (kind : String) : Bool :=
  l.profile.tree.functionNodes.contains kind

end Language

end BigO
