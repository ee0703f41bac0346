-- Line ends. A text whose lines end in a return and a line feed has the loops, the
-- sorts and the functions of the text whose lines end in a line feed alone, and so
-- the same estimate, but for a method that says it throws and names nothing.
import BigO.Proofs.BareBodies

namespace BigO

open BigO.Text BigO.Scan BigO.Scan.Scanner

/-! ## Lines that sort -/

section SortCalls

variable {text : List Char} (htext : PairedSoFar text)

include htext

theorem agrees_bracket : Agrees (Whole text) (Whole text) Eq (blanks >>= fun _ => char '(')
    (blanks >>= fun _ => char '(') :=
  (agrees_blanks htext).fromWhole.bind fun _ _ _ => agrees_char htext (by decide) (by decide)

/-- A scanner that finds the same in a text with and without its returns. -/
def Steady (text : List Char) (s : Scanner Unit) : Prop :=
  Agrees (Whole text) (Whole text) Eq s s ∧ ∀ c, Torn text c → s c = []

section Words

variable {w : String} (hw : Unbroken w.toList)

include hw

theorem agrees_anyCase : Agrees (Whole text) (Whole text) Eq (folded foldCase w)
    (folded foldCase w) := by
  have hr : foldCase '\r' = '\r' := by decide
  have hn : foldCase '\n' = '\n' := by decide
  exact (agrees_passExactly htext hw.1 (by rw [hr, hn]; exact hw.2)).fromWhole

theorem steady_anyCaseCallOf : Steady text (anyCaseCallOf w) :=
  ⟨(agrees_wordEdge htext).bind fun _ _ _ =>
      (agrees_anyCase htext hw).bind fun _ _ _ => agrees_bracket htext,
    fun _ hc => bind_eq_nil (wordEdge_torn htext hc)⟩

theorem steady_anyCaseMethodCallOf : Steady text (anyCaseMethodCallOf w) :=
  ⟨(agrees_char htext (by decide) (by decide)).fromWhole.bind fun _ _ _ =>
      (agrees_anyCase htext hw).bind fun _ _ _ => agrees_bracket htext,
    fun _ hc => bind_eq_nil (one_torn htext (by decide) hc)⟩

theorem steady_anyCaseWord : Steady text (anyCaseWord w) :=
  ⟨(agrees_wordEdge htext).bind fun _ _ _ =>
      (agrees_anyCase htext hw).bind fun _ _ _ => agrees_wordEdge htext,
    fun _ hc => bind_eq_nil (wordEdge_torn htext hc)⟩

end Words

theorem steady_sortCalls (lang : Language) : ∀ s ∈ lang.profile.sortCalls, Steady text s := by
  intro s hs
  cases lang with
  | python =>
    change s ∈ [_, _] at hs
    simp only [List.mem_cons, List.not_mem_nil, or_false] at hs
    rcases hs with rfl | rfl
    · exact steady_anyCaseCallOf htext (by decide)
    · exact steady_anyCaseMethodCallOf htext (by decide)
  | java =>
    change s ∈ [_, _, _] at hs
    simp only [List.mem_cons, List.not_mem_nil, or_false] at hs
    rcases hs with rfl | rfl | rfl
    · exact steady_anyCaseWord htext (by decide)
    · exact steady_anyCaseWord htext (by decide)
    · exact steady_anyCaseMethodCallOf htext (by decide)
  | c =>
    change s ∈ [_] at hs
    rw [List.mem_singleton.mp hs]
    exact steady_anyCaseCallOf htext (by decide)

theorem isSortLine_bare (lang : Language) : lang.isSortLine (bare text) = lang.isSortLine text := by
  unfold Language.isSortLine
  rw [Bool.eq_iff_iff, List.any_eq_true, List.any_eq_true]
  refine exists_congr fun s => and_congr_right fun hs => ?_
  obtain ⟨hagrees, htorn⟩ := steady_sortCalls htext lang s hs
  rw [occurs_bare htext hagrees htorn]

end SortCalls

/-! ## The signals of a text -/

section Lexical

variable {text : List Char} (htext : PairedSoFar text)

include htext

theorem sorts_bare (lang : Language) :
    Lexical.sorts lang (bare text) = Lexical.sorts lang text := by
  unfold Lexical.sorts
  have hkept : (lines text).filter (lang.isSortLine ∘ bare) =
      (lines text).filter lang.isSortLine :=
    List.filter_congr fun l hl =>
      isSortLine_bare (Recursion.pairedSoFar_of_mem_lines htext hl).1 lang
  rw [lines_bare, List.filter_map, hkept, List.map_map]
  refine List.map_congr_left fun l hl => ?_
  obtain ⟨hpaired, hline⟩ := Recursion.pairedSoFar_of_mem_lines htext (List.mem_of_mem_filter hl)
  rw [Function.comp_apply, trim_bare hpaired hline]

omit htext in
/-- A line is read the same with and without its return. -/
theorem step_bare (lang : Language) (r : Loop.Reader) {line : List Char} (h : PairedSoFar line)
    (hline : '\n' ∉ line) : r.step lang (bare line) = r.step lang line := by
  unfold Loop.Reader.step
  rw [isBlankText_bare, trim_bare h hline]
  split
  · rfl
  · rename_i hblank
    rw [indentWidth_bare h hline (Bool.not_eq_true _ ▸ hblank)]

theorem nesting_bare (lang : Language) :
    Loop.nesting lang (bare text) = Loop.nesting lang text := by
  unfold Loop.nesting
  rw [lines_bare, List.foldl_map]
  congr 1
  refine List.foldl_ext _ _ _ fun r l hl => ?_
  obtain ⟨hpaired, hline⟩ := Recursion.pairedSoFar_of_mem_lines htext hl
  exact step_bare lang r hpaired hline

end Lexical

/-- All signals of a text with paired returns but its recursion are those of the bare text. -/
theorem strippedSignals_bare {text : List Char} (htext : Paired text) (lang : Language) :
    Lexical.strippedSignals lang text =
      { Lexical.strippedSignals lang (bare text) with
        recursion := Recursion.signals lang text } := by
  unfold Lexical.strippedSignals
  rw [nesting_bare htext.soFar, sorts_bare htext.soFar]

theorem signals_withReturns {source : String} (h : '\r' ∉ source.toList) (lang : Language) :
    ∃ text, Paired text ∧ bare text = lang.withoutComments source.toList ∧
      Lexical.signals lang (String.ofList (withReturns source.toList)) =
        { Lexical.signals lang source with recursion := Recursion.signals lang text } := by
  obtain ⟨hpaired, hstrip⟩ := Comments.paired_strip_and_strip_bare
    (Comments.unbrokenStyle_profile lang) (paired_withReturns h)
  rw [bare_withReturns h] at hstrip
  refine ⟨lang.withoutComments (withReturns source.toList), hpaired, hstrip.symm, ?_⟩
  unfold Lexical.signals
  rw [String.toList_ofList, Language.withoutComments, Language.withoutComments, hstrip]
  exact strippedSignals_bare hpaired lang

/-! ## The law -/

/-- A source without carriage returns, and the source with one before every line feed. All
signals but recursion are the same, for every language. If the language is not Java, or if
no `throws` of the source without comments has nothing but a line feed between itself and a
block, then the estimates are the same, the reasons included. -/
theorem byText_withReturns (source : String) (tag : Option String) (h : '\r' ∉ source.toList) :
    let lang := Language.ofTag tag
    let returning := String.ofList (withReturns source.toList)
    { Lexical.signals lang returning with recursion := [] } =
        { Lexical.signals lang source with recursion := [] } ∧
      ((lang = .java → ¬ Recursion.throwsNothing <:+: lang.withoutComments source.toList) →
        Analyzer.byText (some returning) tag = Analyzer.byText (some source) tag) := by
  intro lang returning
  obtain ⟨text, hpaired, hbare, hsignals⟩ := signals_withReturns h lang
  refine ⟨by rw [hsignals], fun hthrows => ?_⟩
  have hrecursion : Recursion.signals lang text = (Lexical.signals lang source).recursion := by
    rw [← hbare] at hthrows
    rw [← Recursion.signals_bare hpaired lang hthrows, hbare, Lexical.signals,
      Lexical.strippedSignals]
  have hsame : Lexical.signals lang returning = Lexical.signals lang source := by
    rw [hsignals, hrecursion]
  unfold Analyzer.byText Lexical.estimate Analyzer.textOf
  simp only [Option.getD_some]
  congr 2

/-- A method that names what it throws on the line before its block. -/
def throwingMethod : String :=
  "int f(int n) throws E\n\x7b return n * f(n - 1); \x7d\n"

theorem byText_withReturns_throwingMethod :
    let returning := String.ofList (withReturns throwingMethod.toList)
    '\r' ∉ throwingMethod.toList ∧
      ¬ Recursion.throwsNothing <:+: Language.java.withoutComments throwingMethod.toList ∧
      Analyzer.byText (some returning) (some "java") =
        Analyzer.byText (some throwingMethod) (some "java") := by
  intro returning
  have hreturn : '\r' ∉ throwingMethod.toList := by decide +kernel
  have hjava : Language.ofTag (some "java") = .java := by decide +kernel
  have hthrows :
      ¬ Recursion.throwsNothing <:+: Language.java.withoutComments throwingMethod.toList := by
    decide +kernel
  refine ⟨hreturn, hthrows, (byText_withReturns throwingMethod (some "java") hreturn).2 ?_⟩
  rw [hjava]
  exact fun _ => hthrows

/-- A method that says it throws and names nothing. -/
def emptyHandedMethod : String :=
  "int f(int n) throws\n\x7b return f(n - 1); \x7d"

/-- A return before the line feed makes two blanks, which are taken for what is thrown: only
then is the method seen, and seen to call itself. -/
theorem returns_count_as_thrown :
    ¬ ∀ (source : String) (tag : Option String), '\r' ∉ source.toList →
      Analyzer.byText (some (String.ofList (withReturns source.toList))) tag =
        Analyzer.byText (some source) tag := by
  intro h
  have hsame := h emptyHandedMethod (some "java") (by decide +kernel)
  have htags := congrArg Estimate.tags hsame
  revert htags
  decide +kernel

end BigO
