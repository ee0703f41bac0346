-- In the languages with braces each function is judged by its own block: from the start
-- of the line that its name is on, over the rest of its signature, and from the brace that
-- the signature ends in to the brace that closes it, or to the end of the text.
import BigO.Proofs.BareBodies
import BigO.Proofs.SignatureParts

namespace BigO.Recursion

open BigO.Text BigO.Scan BigO.Scan.Scanner

/-! ## Blocks -/

/-- With `depth` braces open before it, the text leaves one open wherever it is cut. -/
def StaysOpen (depth : Nat) (text : List Char) : Prop :=
  ∀ part, part <+: text → part.count '}' < depth + part.count '{'

/-- With `depth` braces open before it, the text closes the last of them at its end and not
before. -/
structure Closes (depth : Nat) (text : List Char) : Prop where
  closed : text.count '}' = depth + text.count '{'
  notBefore : ∀ part, part <+: text → part ≠ text → part.count '}' < depth + part.count '{'

/-- A block: it starts with a brace, has as many that close as open, and is the shortest
such stretch from its start. -/
structure IsBlock (text : List Char) : Prop where
  opens : text.head? = some '{'
  balanced : text.count '}' = text.count '{'
  shortest : ∀ part, part <+: text → part ≠ [] → part ≠ text → part.count '}' < part.count '{'

/-- A block that is never closed. -/
structure IsOpenBlock (text : List Char) : Prop where
  opens : text.head? = some '{'
  unbalanced : ∀ part, part <+: text → part ≠ [] → part.count '}' < part.count '{'

section Cons

variable {depth d : Nat} {c : Char} {cs : List Char}

/-- What the first character opens or closes, the rest starts with. -/
theorem StaysOpen.cons (h : StaysOpen d cs)
    (hd : d + (if c = '}' then 1 else 0) = depth + if c = '{' then 1 else 0) (hpos : 0 < depth) :
    StaysOpen depth (c :: cs) := by
  intro part hpart
  cases part with
  | nil => simpa using hpos
  | cons x xs =>
    obtain ⟨rfl, hxs⟩ := List.cons_prefix_cons.mp hpart
    have hcount := h xs hxs
    simp only [List.count_cons, beq_iff_eq]
    omega

theorem Closes.cons (h : Closes d cs)
    (hd : d + (if c = '}' then 1 else 0) = depth + if c = '{' then 1 else 0) (hpos : 0 < depth) :
    Closes depth (c :: cs) := by
  constructor
  · have hcount := h.closed
    simp only [List.count_cons, beq_iff_eq]
    omega
  · intro part hpart hne
    cases part with
    | nil => simpa using hpos
    | cons x xs =>
      obtain ⟨rfl, hxs⟩ := List.cons_prefix_cons.mp hpart
      have hcount := h.notBefore xs hxs (fun hsame => hne (hsame ▸ rfl))
      simp only [List.count_cons, beq_iff_eq]
      omega

end Cons

/-- The block goes up to where the last open brace is closed, if it ever is. -/
theorem closes_or_staysOpen (depth : Nat) (text : List Char) :
    (∀ block, blockFrom (depth + 1) text = some block → Closes (depth + 1) block) ∧
      (blockFrom (depth + 1) text = none → StaysOpen (depth + 1) text) := by
  induction text generalizing depth with
  | nil =>
    refine ⟨fun block h => absurd h (by simp [blockFrom]), fun _ part hpart => ?_⟩
    rw [List.prefix_nil.mp hpart]
    simp
  | cons c cs ih =>
    -- what follows the first character is read at the depth that this one leaves
    have hstep : ∀ d, (d + 1) + (if c = '}' then 1 else 0) =
          (depth + 1) + (if c = '{' then 1 else 0) →
        (∀ block, (blockFrom (d + 1) cs).map (c :: ·) = some block → Closes (depth + 1) block) ∧
          ((blockFrom (d + 1) cs).map (c :: ·) = none → StaysOpen (depth + 1) (c :: cs)) := by
      intro d hd
      constructor
      · intro block hblock
        obtain ⟨rest, hrest, rfl⟩ := Option.map_eq_some_iff.mp hblock
        exact ((ih d).1 rest hrest).cons hd (Nat.succ_pos depth)
      · intro hnone
        exact ((ih d).2 (Option.map_eq_none_iff.mp hnone)).cons hd (Nat.succ_pos depth)
    rw [blockFrom_cons]
    split
    · rename_i hopen
      exact hstep (depth + 1) (by simp [hopen])
    · rename_i hopen
      split
      · rename_i hclose
        cases depth with
        | zero =>
          refine ⟨fun block hblock => ?_, fun hnone => absurd hnone (by simp)⟩
          obtain rfl := Option.some.inj hblock
          have hend : Closes 0 [] :=
            ⟨rfl, fun part hpart hne => absurd (List.prefix_nil.mp hpart) hne⟩
          exact hend.cons (by simp [hclose]) Nat.one_pos
        | succ d => exact hstep d (by simp [hclose])
      · rename_i hclose
        exact hstep depth (by simp [hopen, hclose])

/-- The braces of a text after one that opens. -/
theorem count_after_open (rest : List Char) :
    ('{' :: rest).count '}' = rest.count '}' ∧ ('{' :: rest).count '{' = 1 + rest.count '{' :=
  ⟨List.count_cons_of_ne (by decide), by rw [List.count_cons_self, Nat.add_comm]⟩

theorem isBlock_of_closes {rest : List Char} (h : Closes 1 rest) : IsBlock ('{' :: rest) := by
  refine ⟨rfl, ?_, fun part hpart hne hshort => ?_⟩
  · rw [(count_after_open rest).1, (count_after_open rest).2]
    exact h.closed
  · obtain ⟨x, xs, rfl⟩ := List.exists_cons_of_ne_nil hne
    obtain ⟨rfl, hxs⟩ := List.cons_prefix_cons.mp hpart
    rw [(count_after_open xs).1, (count_after_open xs).2]
    exact h.notBefore xs hxs (fun hsame => hshort (hsame ▸ rfl))

theorem isOpenBlock_of_staysOpen {rest : List Char} (h : StaysOpen 1 rest) :
    IsOpenBlock ('{' :: rest) := by
  refine ⟨rfl, fun part hpart hne => ?_⟩
  obtain ⟨x, xs, rfl⟩ := List.exists_cons_of_ne_nil hne
  obtain ⟨rfl, hxs⟩ := List.cons_prefix_cons.mp hpart
  rw [(count_after_open xs).1, (count_after_open xs).2]
  exact h xs hxs

/-! ## Bodies -/

/-- No block starts before the first brace that opens, whatever closes before it. -/
theorem blockFrom_append {header : List Char} (h : '{' ∉ header) (text : List Char) :
    blockFrom 0 (header ++ text) = (blockFrom 0 text).map (header ++ ·) := by
  induction header with
  | nil => simp
  | cons c cs ih =>
    rw [List.mem_cons, not_or] at h
    obtain ⟨hc, hcs⟩ := h
    have hmap : ((blockFrom 0 text).map (cs ++ ·)).map (c :: ·) =
        (blockFrom 0 text).map ((c :: cs) ++ ·) := Option.map_map ..
    rw [List.cons_append, blockFrom_cons, if_neg (Ne.symm hc), ← hmap, ← ih hcs]
    split <;> rfl

/-- The body of a text up to the start of its first block. -/
theorem blockBody_append {header : List Char} (h : '{' ∉ header) (rest : List Char) :
    ∃ block, blockBody (header ++ '{' :: rest) = header ++ block ∧
      ((IsBlock block ∧ block <+: '{' :: rest) ∨ (IsOpenBlock block ∧ block = '{' :: rest)) := by
  have hopen : blockFrom 0 ('{' :: rest) = (blockFrom 1 rest).map ('{' :: ·) := by
    rw [blockFrom_cons, if_pos rfl]
  have hbrace : '{' ∈ header ++ '{' :: rest := by simp
  obtain ⟨hcloses, hstays⟩ := closes_or_staysOpen 0 rest
  rw [blockBody, if_pos hbrace, blockFrom_append h, hopen]
  cases hblock : blockFrom 1 rest with
  | none => exact ⟨'{' :: rest, rfl, .inr ⟨isOpenBlock_of_staysOpen (hstays hblock), rfl⟩⟩
  | some block =>
    refine ⟨'{' :: block, rfl, .inl ⟨isBlock_of_closes (hcloses block hblock), ?_⟩⟩
    exact List.cons_prefix_cons.mpr ⟨rfl, prefix_of_blockFrom hblock⟩

/-- Where the line of a place starts, and what stands on it up to the place. -/
theorem exists_lineStart (c : Cursor) : ∃ (b : Cursor) (line : List Char),
    c.fromLineStart = line ++ c.after ∧ b.atLineStart = true ∧ b.To line c ∧ '\n' ∉ line := by
  refine ⟨⟨c.before.dropWhile (· != '\n'), (c.before.takeWhile (· != '\n')).reverse ++ c.after⟩,
    (c.before.takeWhile (· != '\n')).reverse, rfl, ?_, ⟨rfl, ?_⟩, fun hmem => ?_⟩
  · have hstop := List.head?_dropWhile_not (· != '\n') c.before
    unfold Cursor.atLineStart
    show (c.before.dropWhile (· != '\n')).head?.all (· == '\n') = true
    cases h : (c.before.dropWhile (· != '\n')).head? with
    | none => rfl
    | some x => simpa [h] using hstop
  · rw [List.reverse_reverse, List.takeWhile_append_dropWhile]
  · exact absurd (only_takeWhile _ _ _ (List.mem_reverse.mp hmem)) (by decide)

/-- A lead that starts a line has all that stands on the last line before the place. -/
theorem suffix_of_lineStart {b c d : Cursor} {line lead : List Char} (hline : b.To line d)
    (hnone : '\n' ∉ line) (hlead : c.To lead d) (hstart : c.atLineStart = true) :
    line <:+ lead := by
  have hbehind : line.reverse ++ b.before = lead.reverse ++ c.before :=
    hline.behind.symm.trans hlead.behind
  rcases List.append_eq_append_iff.mp hbehind with ⟨more, hmore, -⟩ | ⟨more, hmore, hbefore⟩
  · refine ⟨more.reverse, ?_⟩
    rw [← List.reverse_inj, List.reverse_append, List.reverse_reverse, hmore]
  · cases more with
    | nil =>
      rw [List.append_nil, List.reverse_inj] at hmore
      exact hmore ▸ List.suffix_refl _
    | cons x xs =>
      -- the line would go on over the line feed before the lead
      have hx : x = '\n' := by simpa [Cursor.atLineStart, hbefore] using hstart
      have hmem : x ∈ line.reverse := by simp [hmore]
      exact absurd (hx ▸ List.mem_reverse.mp hmem) hnone

/-- The parts of the body of a function that is read up to a place: what stands on the line
of the name before it, the signature from the name up to its brace, and its own block. -/
structure IsOwnBody (s : Signature) (d : Cursor) (line signature block : List Char) : Prop where
  onLine : ∃ b : Cursor, b.atLineStart = true ∧ b.To line s.start ∧ '\n' ∉ line
  read : s.start.To (signature ++ ['{']) d
  firstBrace : Only isPlain (line ++ signature)
  ownBlock : (IsBlock block ∧ block <+: '{' :: d.after) ∨
    (IsOpenBlock block ∧ block = '{' :: d.after)

theorem body_of_declaresBlock {lang : Language} (hbraces : lang.profile.usesBraces = true)
    {c d : Cursor} {s : Signature} (h : DeclaresBlock c s d) :
    ∃ line signature block, body lang s.start.fromLineStart = line ++ (signature ++ block) ∧
      IsOwnBody s d line signature block := by
  obtain ⟨lead, hlead, hplainLead⟩ := h.lead
  obtain ⟨signature, hsignature, hplain⟩ := h.block
  obtain ⟨b, line, hbody, hstart, hline, hnone⟩ := exists_lineStart s.start
  have hsuffix := suffix_of_lineStart hline hnone hlead h.atLineStart
  have hfirst : Only isPlain (line ++ signature) :=
    Only.append (fun x hx => hplainLead x (hsuffix.subset hx)) hplain
  have hopening : '{' ∉ line ++ signature := fun hmem => absurd (hfirst _ hmem) (by decide)
  obtain ⟨block, hblock, hcases⟩ := blockBody_append hopening d.after
  refine ⟨line, signature, block, ?_, ⟨b, hstart, hline, hnone⟩, hsignature, hfirst, hcases⟩
  have hsplit : line ++ (signature ++ ['{'] ++ d.after) =
      (line ++ signature) ++ '{' :: d.after := by simp
  rw [body, if_pos hbraces, hbody, hsignature.ahead, hsplit, hblock, List.append_assoc]

/-- In a language with braces every function that a text declares has a match, and the body
that it is judged by has the block of its own signature, and no other brace before it. -/
theorem judged_by_own_block {lang : Language} (hbraces : lang.profile.usesBraces = true)
    (text : List Char) :
    (∀ s ∈ declared lang text, ∃ c d, Matches lang text c s d) ∧
      ∀ c s d, Matches lang text c s d →
        ∃ line signature block, body lang s.start.fromLineStart = line ++ (signature ++ block) ∧
          IsOwnBody s d line signature block := by
  refine ⟨fun s hs => exists_matches_of_mem_declared hs, ?_⟩
  rintro c s d ⟨-, scan, hscan, hhead⟩
  exact body_of_declaresBlock hbraces (declaresBlock_of_mem hbraces hscan (List.mem_of_head? hhead))

/-- A name on the line after its type, a block in its block, and a method that the text breaks
off in. -/
def brokenOff : List Char :=
  "static int\nf(int n)\n\x7b if (n) \x7b f(1); \x7d \x7d\nint g() \x7b f(2);".toList

theorem judged_by_own_block_brokenOff :
    Language.java.profile.usesBraces = true ∧
      (declared .java brokenOff).map (fun s => body .java s.start.fromLineStart) =
        ["f(int n)\n\x7b if (n) \x7b f(1); \x7d \x7d".toList, "int g() \x7b f(2);".toList] ∧
      ∀ s ∈ declared .java brokenOff, ∃ c d, Matches .java brokenOff c s d ∧
        ∃ line signature block, body .java s.start.fromLineStart = line ++ (signature ++ block) ∧
          IsOwnBody s d line signature block := by
  have hbraces : Language.java.profile.usesBraces = true := rfl
  refine ⟨hbraces, by decide +kernel, fun s hs => ?_⟩
  obtain ⟨hmatched, hown⟩ := judged_by_own_block hbraces brokenOff
  obtain ⟨c, d, hmatch⟩ := hmatched s hs
  exact ⟨c, d, hmatch, hown c s d hmatch⟩

end BigO.Recursion
