-- Where a text declares a function with `def`, said without a scanner: a lead that starts a
-- line, the name, and the next bracket. No declaration hides another, so that text which is
-- added at the end leaves the first declaration of each name where it is.
import BigO.Proofs.DeclaredNames

namespace BigO.Scan.Cursor

variable {c d : Cursor} {a b passed : List Char}

theorem To.split (h : c.To (a ++ b) d) : ∃ e, c.To a e ∧ e.To b d := by
  refine ⟨⟨a.reverse ++ c.before, b ++ d.after⟩, ⟨?_, rfl⟩, ⟨rfl, ?_⟩⟩
  · rw [h.ahead, List.append_assoc]
  · rw [h.behind, List.reverse_append, List.append_assoc]

/-! ## Text at the end -/

/-- The same place where more text follows. -/
def followedBy (c : Cursor) (more : List Char) : Cursor :=
  ⟨c.before, c.after ++ more⟩

theorem before_followedBy (c : Cursor) (more : List Char) : (c.followedBy more).before = c.before :=
  rfl

@[simp]
theorem after_followedBy (c : Cursor) (more : List Char) :
    (c.followedBy more).after = c.after ++ more :=
  rfl

@[simp]
theorem text_followedBy (c : Cursor) (more : List Char) :
    (c.followedBy more).text = c.text ++ more := by
  simp [text, before_followedBy]

theorem to_followedBy_iff {more : List Char} :
    (c.followedBy more).To passed (d.followedBy more) ↔ c.To passed d := by
  constructor
  · rintro ⟨hahead, hbehind⟩
    refine ⟨(List.append_left_inj more).mp ?_, hbehind⟩
    rw [List.append_assoc]
    exact hahead
  · rintro ⟨hahead, hbehind⟩
    refine ⟨?_, hbehind⟩
    rw [after_followedBy, after_followedBy, hahead, List.append_assoc]

theorem exists_followedBy {text more : List Char} (hc : c.text = text ++ more)
    (hle : more.length ≤ c.after.length) : ∃ b : Cursor, b.text = text ∧ c = b.followedBy more := by
  rcases c with ⟨before, after⟩
  rcases List.append_eq_append_iff.mp hc with ⟨first, hfirst, hafter⟩ | ⟨first, hfirst, hafter⟩
  · exact ⟨⟨before, first⟩, hfirst.symm, by rw [followedBy, ← hafter]⟩
  · have hlength := congrArg List.length hafter
    have hle' : more.length ≤ after.length := hle
    rw [List.length_append] at hlength
    have hnil : first = [] := List.length_eq_zero_iff.mp (by omega)
    subst hnil
    refine ⟨⟨before, []⟩, ?_, ?_⟩
    · simpa [Cursor.text] using hfirst
    · rw [followedBy, List.nil_append]
      exact congrArg (Cursor.mk before) hafter.symm

end BigO.Scan.Cursor

namespace BigO.Recursion

open BigO.Text BigO.Scan BigO.Scan.Scanner

/-! ## Definitions -/

/-- What stands on a line before the name: a margin, perhaps `async`, and `def`. -/
inductive IsLead : List Char → Prop where
  | plain {margin gap : List Char} (hmargin : Only isInLineBlank margin) (hne : gap ≠ [])
      (hgap : Only isBlank gap) : IsLead (margin ++ ("def".toList ++ gap))
  | async {margin gap gap' : List Char} (hmargin : Only isInLineBlank margin) (hne : gap ≠ [])
      (hgap : Only isBlank gap) (hne' : gap' ≠ []) (hgap' : Only isBlank gap') :
      IsLead (margin ++ ("async".toList ++ (gap ++ ("def".toList ++ gap'))))

/-- A function is declared from one place to another, which is past its bracket. -/
structure IsDefinition (c : Cursor) (s : Signature) (d : Cursor) : Prop where
  atLineStart : c.atLineStart = true
  lead : ∃ lead, c.To lead s.start ∧ IsLead lead
  isName : IsName s.name
  called : ∃ gap, s.start.To (s.name ++ (gap ++ ['('])) d ∧ Only isBlank gap

theorem mem_named_iff {c d : Cursor} {s : Signature} : (s, d) ∈ named c ↔
    s.start = c ∧ IsName s.name ∧ c.To s.name d ∧ d.wordAfter = false := by
  refine ⟨of_mem_named, ?_⟩
  rintro ⟨rfl, hname, hto, hend⟩
  rcases s with ⟨⟨before, after⟩, name⟩
  obtain ⟨x, xs, rfl, hx, hxs⟩ := hname
  have hafter : after = x :: (xs ++ d.after) := hto.ahead
  have hbehind : d.before = xs.reverse ++ x :: before := by simpa using hto.behind
  have hrun : ((), d) ∈ run isWord ⟨x :: before, xs ++ d.after⟩ :=
    mem_run_iff.mpr ⟨xs, ⟨rfl, hbehind⟩, hxs, hend⟩
  have hpass := (Prod.mk.inj (List.mem_singleton.mp hrun)).2
  have htake : (xs ++ d.after).takeWhile isWord = xs := by
    have hahead := congrArg Cursor.before hpass
    rw [Cursor.pass_eq, hbehind] at hahead
    exact List.reverse_inj.mp (List.append_cancel_right hahead.symm)
  subst hafter
  rw [named_cons, if_pos hx, htake, ← hpass]
  exact List.mem_singleton_self _

theorem isBlank_of_isInLineBlank {x : Char} (h : isInLineBlank x = true) : isBlank x = true := by
  rw [isInLineBlank, Bool.or_eq_true, beq_iff_eq, beq_iff_eq] at h
  rcases h with rfl | rfl
  · decide
  · decide

theorem isDefinition_of_mem {c d : Cursor} {s : Signature} (h : (s, d) ∈ defSignature c) :
    IsDefinition c s d := by
  obtain ⟨⟨⟨⟩, c₁⟩, hmargin, h⟩ := mem_bind.mp h
  obtain ⟨⟨⟨⟩, c₂⟩, hasync, h⟩ := mem_bind.mp h
  obtain ⟨⟨⟨⟩, c₃⟩, hdef, h⟩ := mem_bind.mp h
  obtain ⟨⟨⟨⟩, c₄⟩, hblank, h⟩ := mem_bind.mp h
  obtain ⟨⟨s', e⟩, hnamed, h⟩ := mem_bind.mp h
  obtain ⟨⟨⟨⟩, f⟩, hgap, h⟩ := mem_bind.mp h
  obtain ⟨⟨⟨⟩, g⟩, hbracket, h⟩ := mem_bind.mp h
  obtain ⟨rfl, rfl⟩ := Prod.mk.inj (mem_pure.mp h)
  obtain ⟨q, hhere, hrun⟩ := mem_bind.mp hmargin
  obtain ⟨hstart, rfl⟩ := mem_here.mp hhere
  obtain ⟨margin, hto₁, hmarginOnly, -⟩ := mem_run_iff.mp hrun
  have hto₃ := mem_exactly_iff.mp hdef
  obtain ⟨gap, hto₄, hne, hgapOnly, -⟩ := mem_runSome_iff.mp hblank
  obtain ⟨rfl, hname, htoName, -⟩ := mem_named_iff.mp hnamed
  obtain ⟨gap', htoGap, hgapOnly', -⟩ := mem_run_iff.mp hgap
  obtain ⟨_, htoBracket, rfl⟩ := passes_char '(' f _ hbracket
  refine ⟨hstart, ?_, hname, gap', htoName.trans (htoGap.trans htoBracket), hgapOnly'⟩
  rcases mem_either.mp hasync with hasync | hnone
  · obtain ⟨⟨⟨⟩, b⟩, hword, hrun⟩ := mem_bind.mp hasync
    have hto₂ := mem_exactly_iff.mp hword
    obtain ⟨between, htoBetween, hneBetween, hbetween, -⟩ := mem_runSome_iff.mp hrun
    exact ⟨_, hto₁.trans (hto₂.trans (htoBetween.trans (hto₃.trans hto₄))),
      .async hmarginOnly hneBetween hbetween hne hgapOnly⟩
  · obtain rfl := (Prod.mk.inj (mem_pure.mp hnone)).2
    exact ⟨_, hto₁.trans (hto₃.trans hto₄), .plain hmarginOnly hne hgapOnly⟩

/-- From `def` on all definitions are read alike. -/
theorem mem_fromDef {b d : Cursor} {s : Signature} {gap gap' : List Char}
    (hto : b.To ("def".toList ++ gap) s.start) (hne : gap ≠ []) (hgap : Only isBlank gap)
    (hname : IsName s.name) (hcalled : s.start.To (s.name ++ (gap' ++ ['('])) d)
    (hgap' : Only isBlank gap') :
    (s, d) ∈ (literal "def" >>= fun _ => runSome isBlank >>= fun _ =>
      named >>= fun s => blanks >>= fun _ => char '(' >>= fun _ => pure s) b := by
  obtain ⟨b', hdef, htoStart⟩ := hto.split
  obtain ⟨e, htoName, hcalled⟩ := hcalled.split
  obtain ⟨f, htoGap, htoBracket⟩ := hcalled.split
  have hstart : s.start.after.head?.any isBlank = false := by
    obtain ⟨x, xs, hx, hstartx, -⟩ := hname
    rw [htoName.ahead, hx]
    exact isBlank_of_isNameStart hstartx
  have hafter : e.after = gap' ++ '(' :: d.after := by
    rw [htoGap.ahead, htoBracket.ahead]
    rfl
  have hend : e.wordAfter = false := wordAfter_of_gap hafter hgap'
  have hstop : f.after.head?.any isBlank = false := by
    rw [htoBracket.ahead]
    show isBlank '(' = false
    decide
  refine mem_bind.mpr ⟨((), b'), mem_exactly_iff.mpr hdef, ?_⟩
  refine mem_bind.mpr ⟨_, mem_runSome_iff.mpr ⟨gap, htoStart, hne, hgap, hstart⟩, ?_⟩
  refine mem_bind.mpr ⟨(s, e), mem_named_iff.mpr ⟨rfl, hname, htoName, hend⟩, ?_⟩
  refine mem_bind.mpr ⟨_, mem_run_iff.mpr ⟨gap', htoGap, hgap', hstop⟩, ?_⟩
  refine mem_bind.mpr ⟨((), d), mem_one.mpr ⟨'(', d.after, htoBracket.ahead, rfl, ?_⟩,
    mem_pure.mpr rfl⟩
  rcases d with ⟨before, after⟩
  exact congrArg (Cursor.mk · after) htoBracket.behind

theorem mem_of_isDefinition {c d : Cursor} {s : Signature} (h : IsDefinition c s d) :
    (s, d) ∈ defSignature c := by
  obtain ⟨hstart, ⟨lead, hlead, hisLead⟩, hname, gap, hcalled, hgap⟩ := h
  have hmargin : ∀ {b : Cursor} {first : List Char}, c.To first b → Only isInLineBlank first →
      b.after.head?.any isInLineBlank = false → ((), b) ∈ margin c := fun hto honly hstop =>
    mem_bind.mpr ⟨((), c), mem_here.mpr ⟨hstart, rfl⟩, mem_run_iff.mpr ⟨_, hto, honly, hstop⟩⟩
  cases hisLead with
  | @plain margin between honly hne hbetween =>
    obtain ⟨c₁, hto₁, hto⟩ := hlead.split
    have hstop : c₁.after.head?.any isInLineBlank = false := by
      rw [hto.ahead]
      rfl
    refine mem_bind.mpr ⟨((), c₁), hmargin hto₁ honly hstop, ?_⟩
    exact mem_bind.mpr ⟨((), c₁), mem_either.mpr (.inr (mem_pure.mpr rfl)),
      mem_fromDef hto hne hbetween hname hcalled hgap⟩
  | @async margin between between' honly hne hbetween hne' hbetween' =>
    obtain ⟨c₁, hto₁, hto⟩ := hlead.split
    obtain ⟨c₂, hto₂, htoDef⟩ := hto.split
    obtain ⟨c₃, hto₃, htoDef⟩ := htoDef.split
    have hstop : c₁.after.head?.any isInLineBlank = false := by
      rw [hto.ahead]
      rfl
    have hstop' : c₃.after.head?.any isBlank = false := by
      rw [htoDef.ahead]
      rfl
    refine mem_bind.mpr ⟨((), c₁), hmargin hto₁ honly hstop, ?_⟩
    refine mem_bind.mpr ⟨((), c₃), mem_either.mpr (.inl ?_),
      mem_fromDef htoDef hne' hbetween' hname hcalled hgap⟩
    exact mem_bind.mpr ⟨((), c₂), mem_exactly_iff.mpr hto₂,
      mem_runSome_iff.mpr ⟨between, hto₃, hne, hbetween, hstop'⟩⟩

/-! ## The place of a definition -/

theorem IsLead.isBlank_or_isNameStart {lead : List Char} (h : IsLead lead) :
    ∀ x ∈ lead, isBlank x = true ∨ isNameStart x = true := by
  have hword : Only isNameStart ("async".toList ++ "def".toList) :=
    List.all_eq_true.mp (by decide)
  cases h with
  | plain hmargin _ hgap =>
    intro x hx
    rcases List.mem_append.mp hx with hx | hx
    · exact .inl (isBlank_of_isInLineBlank (hmargin x hx))
    · rcases List.mem_append.mp hx with hx | hx
      · exact .inr (hword x (List.mem_append_right _ hx))
      · exact .inl (hgap x hx)
  | async hmargin _ hgap _ hgap' =>
    intro x hx
    simp only [List.mem_append] at hx
    rcases hx with hx | hx | hx | hx | hx
    · exact .inl (isBlank_of_isInLineBlank (hmargin x hx))
    · exact .inr (hword x (List.mem_append_left _ hx))
    · exact .inl (hgap x hx)
    · exact .inr (hword x (List.mem_append_right _ hx))
    · exact .inl (hgap' x hx)

/-- No bracket stands before the one that a definition ends in. -/
theorem notMem_bracket {lead name gap : List Char} (hlead : IsLead lead) (hname : IsName name)
    (hgap : Only isBlank gap) : '(' ∉ lead ++ (name ++ gap) := by
  rw [List.mem_append, List.mem_append, not_or, not_or]
  refine ⟨fun h => ?_, fun h => absurd (hname.only _ h) (by decide),
    fun h => absurd (hgap _ h) (by decide)⟩
  rcases hlead.isBlank_or_isNameStart _ h with hblank | hstart
  · exact absurd hblank (by decide)
  · exact absurd hstart (by decide)

section Places

variable {text : List Char} {c d : Cursor} {s : Signature}

theorem IsDefinition.bracket (h : IsDefinition c s d) :
    ∃ passed, c.To (passed ++ ['(']) d ∧ '(' ∉ passed := by
  obtain ⟨lead, hlead, hisLead⟩ := h.lead
  obtain ⟨gap, hcalled, hgap⟩ := h.called
  refine ⟨lead ++ (s.name ++ gap), ?_, notMem_bracket hisLead h.isName hgap⟩
  simpa using hlead.trans hcalled

theorem IsDefinition.apart (h : IsDefinition c s d) : s.start.wordBefore = false :=
  (declares_of_mem_defSignature (mem_of_isDefinition h)).apart

theorem IsDefinition.start_before (h : IsDefinition c s d) :
    d.after.length < s.start.after.length ∧ s.start.after.length ≤ c.after.length :=
  (declares_of_mem_defSignature (mem_of_isDefinition h)).start_before

/-- The bracket tells which function is declared. -/
theorem IsDefinition.signature_unique {c' : Cursor} {s' : Signature} (h : IsDefinition c s d)
    (h' : IsDefinition c' s' d) : s = s' := by
  obtain ⟨gap, hcalled, hgap⟩ := h.called
  obtain ⟨gap', hcalled', hgap'⟩ := h'.called
  have hback : ∀ {gap : List Char}, Only isBlank gap → Only isBlank gap.reverse :=
    fun hgap x hx => hgap x (List.mem_reverse.mp hx)
  have hend : ∀ {name rest : List Char}, IsName name →
      (name.reverse ++ rest).head?.any isBlank = false := by
    intro name rest hname
    obtain ⟨x, hx⟩ := Option.isSome_iff_exists.mp (List.getLast?_isSome.mpr hname.ne_nil)
    rw [List.head?_append, List.head?_reverse, hx]
    show isBlank x = false
    rw [Bool.eq_false_iff]
    intro hblank
    have hword := hname.only x (List.mem_of_getLast? hx)
    rw [isWord_of_isBlank hblank] at hword
    exact absurd hword (by decide)
  have hbehind : gap.reverse ++ (s.name.reverse ++ s.start.before) =
      gap'.reverse ++ (s'.name.reverse ++ s'.start.before) := by
    have hsame := hcalled.behind.symm.trans hcalled'.behind
    simpa using hsame
  obtain ⟨hgaps, hnames⟩ := append_inj_of_only (hback hgap) (hback hgap') (hend h.isName)
    (hend h'.isName) hbehind
  have hwords : ∀ {name : List Char}, IsName name → Only isWord name.reverse :=
    fun hname x hx => hname.only x (List.mem_reverse.mp hx)
  obtain ⟨hname, hstart⟩ := append_inj_of_only (hwords h.isName) (hwords h'.isName) h.apart
    h'.apart hnames
  rw [List.reverse_inj] at hgaps hname
  have hafter : s.start.after = s'.start.after := by
    rw [hcalled.ahead, hcalled'.ahead, hgaps, hname]
  rcases s with ⟨⟨before, after⟩, name⟩
  rcases s' with ⟨⟨before', after'⟩, name'⟩
  simp_all

theorem IsDefinition.head?_before (h : IsDefinition c s d) : d.before.head? = some '(' := by
  obtain ⟨passed, hto, -⟩ := h.bracket
  rw [hto.head?_before (by simp), List.getLast?_concat]

/-- A definition goes on to no later bracket than the first one. -/
theorem IsDefinition.end_le {e : Cursor} (h : IsDefinition c s d) (htext : e.text = c.text)
    (hbracket : e.before.head? = some '(') (hlt : e.after.length < c.after.length) :
    e.after.length ≤ d.after.length := by
  by_contra hpast
  obtain ⟨passed, hto, hnone⟩ := h.bracket
  obtain ⟨first, hfirst⟩ := exists_passed htext (Nat.le_of_lt hlt)
  obtain ⟨last, hlast⟩ := exists_passed (hto.text_eq.trans htext.symm) (by omega)
  have hne : first ≠ [] ∧ last ≠ [] := by
    constructor
    · rintro rfl
      rw [hfirst.eq_self] at hlt
      exact Nat.lt_irrefl _ hlt
    · rintro rfl
      rw [hlast.eq_self] at hpast
      exact hpast (Nat.le_refl _)
  have hsplit := hto.unique (hfirst.trans hlast)
  have hmem : '(' ∈ first := List.mem_of_getLast? (hfirst.head?_before hne.1 ▸ hbracket)
  have hwithin : first <+: passed := by
    have hlength := congrArg List.length hsplit
    have hpos := List.length_pos_iff.mpr hne.2
    simp only [List.length_append, List.length_singleton] at hlength
    have hstart : first <+: passed ++ ['('] := ⟨last, hsplit.symm⟩
    exact List.prefix_of_prefix_length_le hstart (List.prefix_append passed ['(']) (by omega)
  exact hnone (hwithin.subset hmem)

/-- A definition that starts within another one ends with it. -/
theorem IsDefinition.end_unique {e d' : Cursor} {t : Signature} (h : IsDefinition c s d)
    (h' : IsDefinition e t d') (htext : c.text = e.text) (hle : c.after.length ≤ e.after.length)
    (hlt : d'.after.length < c.after.length) : d' = d := by
  obtain ⟨passed, hto, -⟩ := h.bracket
  obtain ⟨passed', hto', -⟩ := h'.bracket
  have hlength := h.start_before
  refine eq_of_length_after ?_ (Nat.le_antisymm ?_ ?_)
  · rw [hto'.text_eq, hto.text_eq, htext]
  · exact h.end_le (hto'.text_eq.trans htext.symm) h'.head?_before hlt
  · exact h'.end_le (hto.text_eq.trans htext) h.head?_before (by omega)

/-- The functions that a text declares are those of its definitions. -/
theorem mem_declared_iff : s ∈ declared .python text ↔
    ∃ c d, c.text = text ∧ IsDefinition c s d := by
  have hdeclared : declared .python text = defSignature.findAll text :=
    List.flatMap_singleton ..
  have hscan : defSignature ∈ Language.python.profile.signatures := List.mem_singleton_self _
  have hpasses : defSignature.Passes (· ≠ []) := passes_signature hscan
  have hfinds := finds_findAll hpasses text
  rw [hdeclared]
  constructor
  · intro h
    obtain ⟨c, d, hc, hhead⟩ := hfinds.exists_way hpasses h
    exact ⟨c, d, hc, isDefinition_of_mem (List.mem_of_head? hhead)⟩
  · rintro ⟨c, d, hc, h⟩
    have hle : c.after.length ≤ text.length := by
      rw [← hc, Cursor.text, List.length_append]
      omega
    obtain ⟨t, ht, e, d', he, hhead, hstart, hend⟩ := hfinds.covers hpasses hc hle
      (List.ne_nil_of_mem (mem_of_isDefinition h))
    have h' := isDefinition_of_mem (List.mem_of_head? hhead)
    obtain rfl := h.end_unique h' he.symm hstart hend
    rwa [h.signature_unique h']

end Places

/-! ## First declarations -/

theorem firstDeclared?_eq_some_iff {lang : Language} {text f : List Char} {s : Signature} :
    firstDeclared? lang text f = some s ↔ s ∈ declared lang text ∧ s.name = f ∧
      ∀ t ∈ declared lang text, t.name = f → t.start.after.length ≤ s.start.after.length := by
  have hfirst : ∀ {s : Signature}, firstDeclared? lang text f = some s →
      ∀ t ∈ declared lang text, t.name = f → t.start.after.length ≤ s.start.after.length := by
    intro s h t ht hname
    obtain ⟨-, before, after, hsplit, hbefore⟩ := List.find?_eq_some_iff_append.mp h
    have hpairwise := pairwise_declared lang text
    rw [hsplit] at ht hpairwise
    rcases List.mem_append.mp ht with ht | ht
    · exact absurd hname (by simpa using hbefore t ht)
    · rcases List.mem_cons.mp ht with rfl | ht
      · exact Nat.le_refl _
      · have hrest := (List.pairwise_append.mp hpairwise).2.1
        exact Nat.le_of_lt ((List.pairwise_cons.mp hrest).1 t ht)
  constructor
  · intro h
    obtain ⟨hname, hmem⟩ := of_firstDeclared? h
    exact ⟨hmem, hname, hfirst h⟩
  · rintro ⟨hmem, hname, hall⟩
    have hsome : (firstDeclared? lang text f).isSome = true :=
      List.find?_isSome.mpr ⟨s, hmem, by simp [hname]⟩
    obtain ⟨t, ht⟩ := Option.isSome_iff_exists.mp hsome
    obtain ⟨htname, htmem⟩ := of_firstDeclared? ht
    -- neither of the two stands before the other
    have hlength := Nat.le_antisymm (hall t htmem htname) (hfirst ht s hmem hname)
    have htext : t.start.text = s.start.text :=
      (isDeclaredName_of_mem_declared htmem).inText.trans
        (isDeclaredName_of_mem_declared hmem).inText.symm
    have hstart : t.start = s.start := eq_of_length_after htext hlength
    rw [ht]
    rcases s with ⟨start, name⟩
    rcases t with ⟨start', name'⟩
    simp_all

/-- The same declaration where more text follows. -/
def Signature.followedBy (s : Signature) (more : List Char) : Signature :=
  ⟨s.start.followedBy more, s.name⟩

theorem isDefinition_followedBy_iff {c d : Cursor} {s : Signature} {more : List Char} :
    IsDefinition (c.followedBy more) (s.followedBy more) (d.followedBy more) ↔
      IsDefinition c s d := by
  constructor
  · rintro ⟨hstart, ⟨lead, hlead, hisLead⟩, hname, gap, hcalled, hgap⟩
    exact ⟨hstart, ⟨lead, Cursor.to_followedBy_iff.mp hlead, hisLead⟩, hname, gap,
      Cursor.to_followedBy_iff.mp hcalled, hgap⟩
  · rintro ⟨hstart, ⟨lead, hlead, hisLead⟩, hname, gap, hcalled, hgap⟩
    exact ⟨hstart, ⟨lead, Cursor.to_followedBy_iff.mpr hlead, hisLead⟩, hname, gap,
      Cursor.to_followedBy_iff.mpr hcalled, hgap⟩

/-- A definition that ends before the added text stands in the text without it. -/
theorem IsDefinition.exists_followedBy {text more : List Char} {c d : Cursor} {s : Signature}
    (h : IsDefinition c s d) (hc : c.text = text ++ more) (hle : more.length ≤ d.after.length) :
    ∃ t ∈ declared .python text, s = t.followedBy more := by
  obtain ⟨hd, hs⟩ := h.start_before
  obtain ⟨lead, hlead, -⟩ := h.lead
  obtain ⟨gap, hcalled, -⟩ := h.called
  obtain ⟨c₀, hc₀, rfl⟩ := Cursor.exists_followedBy hc (by omega)
  obtain ⟨s₀, -, hs₀⟩ := Cursor.exists_followedBy (hlead.text_eq.trans hc) (by omega)
  obtain ⟨d₀, -, rfl⟩ := Cursor.exists_followedBy
    (hcalled.text_eq.trans (hlead.text_eq.trans hc)) hle
  rcases s with ⟨start, name⟩
  have hstart : start = s₀.followedBy more := hs₀
  subst hstart
  have hdefinition : IsDefinition c₀ ⟨s₀, name⟩ d₀ := isDefinition_followedBy_iff.mp h
  exact ⟨⟨s₀, name⟩, mem_declared_iff.mpr ⟨c₀, d₀, hc₀, hdefinition⟩, rfl⟩

/-- Text that is added at the end leaves the first declaration of a name where it is. -/
theorem firstDeclared?_append {text f : List Char} {s : Signature}
    (h : firstDeclared? .python text f = some s) (more : List Char) :
    firstDeclared? .python (text ++ more) f = some (s.followedBy more) := by
  obtain ⟨hmem, hname, hfirst⟩ := firstDeclared?_eq_some_iff.mp h
  obtain ⟨c, d, hc, hdefinition⟩ := mem_declared_iff.mp hmem
  have hmore : IsDefinition (c.followedBy more) (s.followedBy more) (d.followedBy more) :=
    isDefinition_followedBy_iff.mpr hdefinition
  refine firstDeclared?_eq_some_iff.mpr ⟨mem_declared_iff.mpr ⟨_, _, ?_, hmore⟩, hname, ?_⟩
  · rw [Cursor.text_followedBy, hc]
  · intro t ht htname
    obtain ⟨c', d', hc', ht'⟩ := mem_declared_iff.mp ht
    by_contra hlater
    -- it would end before the added text, and so stand before the first one without it too
    have hle : more.length ≤ d'.after.length := by
      have hlength := hmore.start_before
      have hlength' := ht'.start_before
      obtain ⟨passed, hto, -⟩ := hmore.bracket
      have hend := ht'.end_le (e := d.followedBy more) ?_ hmore.head?_before (by omega)
      · rw [Cursor.after_followedBy, List.length_append] at hend
        omega
      · rw [hto.text_eq, Cursor.text_followedBy, hc, hc']
    obtain ⟨t₀, ht₀, rfl⟩ := ht'.exists_followedBy hc' hle
    have hbefore := hfirst t₀ ht₀ htname
    simp only [Signature.followedBy, Cursor.after_followedBy, List.length_append] at hlater
    omega

end BigO.Recursion
