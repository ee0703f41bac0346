-- The laws of settings. An environment is accepted when every variable that is set to more than
-- blanks has a valid value, and the settings then are what the values say. Otherwise the first
-- variable that is not valid is reported, and a session runs with all settings as they are by
-- default.
import BigO.Proofs.Numerals
import BigO.Proofs.SmallLetters
import BigO.Session

namespace BigO.Settings

open BigO.Text

/-! ## Valid values -/

/-- The value is a number as numbers are written, of no more digits than are read, and above
zero. -/
def IsLength (raw : String) (n : Int) : Prop :=
  (∃ m : Numeral, m.text = raw.toList ∧ m.digits.length ≤ maxDigits ∧ m.value = n) ∧ 0 < n

/-- The words of a flag. -/
def wordsOf : Bool → List String
  | true => yesWords
  | false => noWords

/-- The value is a word of the flag in letters large or small, with blanks around it. -/
def IsFlag (raw : String) (flag : Bool) : Prop :=
  ∃ word ∈ wordsOf flag, (trim raw.toList).map Char.toLower = word.toList

/-- The value is a level that the logger knows, but for its case and the blanks around it. -/
def IsLevel (env : Environment) (raw : String) (level : String) : Prop :=
  env.levelFault? level = none ∧ toUpper (trim raw.toList) = level.toList

theorem isLevel_ofList_iff (pairs : List (String × String)) (raw level : String) :
    IsLevel (.ofList pairs) raw level ↔
      level ∈ ["TRACE", "DEBUG", "INFO", "SUCCESS", "WARNING", "ERROR", "CRITICAL"] ∧
        toUpper (trim raw.toList) = level.toList := by
  have hknown : (Environment.ofList pairs).levelFault? level = none ↔
      level ∈ Environment.usualLevels := by
    simp [Environment.ofList]
  rw [IsLevel, hknown]
  rfl

/-- A variable, with the values it may have in an environment. -/
structure Variable where
  name : String
  Valid : Environment → String → Prop

namespace Variable

def length : Variable := ⟨lengthVariable, fun _ raw => ∃ n, IsLength raw n⟩

def fallback : Variable := ⟨fallbackVariable, fun _ raw => ∃ flag, IsFlag raw flag⟩

def level : Variable := ⟨levelVariable, fun env raw => ∃ level, IsLevel env raw level⟩

end Variable

/-- The variables, in the order in which they are read. -/
def allVariables : List Variable :=
  [.length, .fallback, .level]

/-- The variable is not set, or to blanks, or it has a valid value. -/
def Accepts (env : Environment) (v : Variable) : Prop :=
  ∀ raw, env v.name = some raw → isBlankText raw.toList = true ∨ v.Valid env raw

/-- The variable is not accepted, but all before it are. -/
def IsFirstInvalid (env : Environment) (v : Variable) : Prop :=
  ∃ before after, allVariables = before ++ v :: after ∧ (∀ w ∈ before, Accepts env w) ∧
    ¬ Accepts env v

/-- What a variable sets: what its value says, or the default if it is not set, or to blanks. -/
inductive Sets {α : Type} (env : Environment) (name : String) (means : String → α → Prop)
    (fallback : α) : α → Prop where
  | unset (h : ∀ raw, env name = some raw → isBlankText raw.toList = true) :
    Sets env name means fallback fallback
  | value {raw : String} {a : α} (h : env name = some raw)
    (hblank : isBlankText raw.toList = false) (hmeans : means raw a) :
    Sets env name means fallback a

/-- The failure is one of a setting, its message starts with the name of the variable, and no
other variable, and no other value, is told with it. -/
structure Reports (e : Failure) (name raw : String) : Prop where
  kind : e.kind = .configuration
  message : ∃ complaint, e.message = name ++ " must be " ++ complaint
  details : e.context.details ⊆ [(name, .text raw)]

/-! ## The readers -/

/-- A reader gives just what values say, and reports all other values under the name. -/
structure Reads {α : Type} (reader : String → String → Except Failure α)
    (means : String → α → Prop) : Prop where
  ok_iff : ∀ name raw a, reader name raw = .ok a ↔ means raw a
  reports : ∀ name raw e, reader name raw = .error e → Reports e name raw

theorem mustBe_append (name kind value : String) :
    name ++ (" must be " ++ kind) ++ value = name ++ " must be " ++ (kind ++ value) := by
  rw [String.append_assoc, String.append_assoc, String.append_assoc]

theorem reads_length : Reads readLength IsLength where
  ok_iff name raw n := by
    unfold readLength IsLength
    rw [← readInteger_eq_ok_iff]
    cases readInteger raw.toList with
    | error e => simp
    | ok value =>
      dsimp only
      split
      · rename_i hpositive
        simp only [reduceCtorEq, Except.ok.injEq, false_iff, not_and]
        omega
      · rename_i hpositive
        simp only [Except.ok.injEq]
        omega
  reports name raw e h := by
    unfold readLength at h
    split at h
    · obtain rfl := Except.error.inj h
      exact ⟨rfl, ⟨"an integer, got " ++ quote raw, mustBe_append name "an integer, got " _⟩,
        List.Subset.refl _⟩
    · split at h
      · rename_i n hpositive _
        obtain rfl := Except.error.inj h
        exact ⟨rfl, ⟨"positive, got " ++ toString n, mustBe_append name "positive, got " _⟩,
          List.nil_subset _⟩
      · exact absurd h (by simp)

theorem mem_words_iff {words : List String}
    (h : ∀ word ∈ words, word.toList.all (·.toNat < 0x80) = true ∧ 'k' ∉ word.toList)
    (text : List Char) :
    String.ofList (toLower text) ∈ words ↔
      ∃ word ∈ words, text.map Char.toLower = word.toList := by
  have hletters : ∀ word ∈ words,
      (toLower text = word.toList ↔ text.map Char.toLower = word.toList) := by
    intro word hword
    obtain ⟨hascii, hk⟩ := h word hword
    refine toLower_eq_iff (fun c hc => ?_) hk text
    exact of_decide_eq_true (List.all_eq_true.mp hascii c hc)
  constructor
  · intro hword
    exact ⟨_, hword, (hletters _ hword).mp String.toList_ofList.symm⟩
  · rintro ⟨word, hword, htext⟩
    rw [(hletters word hword).mpr htext, String.ofList_toList]
    exact hword

theorem reads_flag : Reads readFlag IsFlag where
  ok_iff name raw flag := by
    have hplain : ∀ word ∈ wordsOf flag,
        word.toList.all (·.toNat < 0x80) = true ∧ 'k' ∉ word.toList := by
      cases flag with
      | true => decide
      | false => decide
    have hapart : ∀ word ∈ noWords, word ∉ yesWords := by decide
    rw [IsFlag, ← mem_words_iff hplain]
    unfold readFlag
    dsimp only
    split
    · rename_i hyes
      cases flag with
      | true => exact iff_of_true rfl hyes
      | false => exact iff_of_false (by simp) fun hno => hapart _ hno hyes
    · rename_i hyes
      split
      · rename_i hno
        cases flag with
        | true => exact iff_of_false (by simp) hyes
        | false => exact iff_of_true rfl hno
      · rename_i hno
        cases flag with
        | true => exact iff_of_false (by simp) hyes
        | false => exact iff_of_false (by simp) hno
  reports name raw e h := by
    unfold readFlag at h
    dsimp only at h
    split at h
    · exact absurd h (by simp)
    · split at h
      · exact absurd h (by simp)
      · obtain rfl := Except.error.inj h
        exact ⟨rfl, ⟨"a boolean, got " ++ quote raw, mustBe_append name "a boolean, got " _⟩,
          List.Subset.refl _⟩

theorem reads_level (env : Environment) : Reads (readLevel env.levelFault?) (IsLevel env) where
  ok_iff name raw level := by
    unfold readLevel IsLevel
    dsimp only
    split
    · rename_i hknown
      rw [Except.ok.injEq]
      constructor
      · rintro rfl
        exact ⟨hknown, String.toList_ofList.symm⟩
      · rintro ⟨-, htext⟩
        rw [htext, String.ofList_toList]
    · rename_i cause hfault
      refine iff_of_false (by simp) ?_
      rintro ⟨hknown, htext⟩
      rw [htext, String.ofList_toList, hknown] at hfault
      cases hfault
  reports name raw e h := by
    unfold readLevel at h
    dsimp only at h
    split at h
    · exact absurd h (by simp)
    · obtain rfl := Except.error.inj h
      exact ⟨rfl, ⟨"a loguru level name, got " ++ quote raw,
        mustBe_append name "a loguru level name, got " _⟩, List.Subset.refl _⟩

/-! ## One variable -/

section Variable

variable {α : Type} {reader : String → String → Except Failure α} {means : String → α → Prop}
  {env : Environment} {name : String}

theorem value?_eq_some_iff {raw : String} :
    value? env name = some raw ↔ env name = some raw ∧ isBlankText raw.toList = false := by
  rw [value?, Option.filter_eq_some_iff, Bool.not_eq_true']

theorem value?_eq_none_iff :
    value? env name = none ↔ ∀ raw, env name = some raw → isBlankText raw.toList = true := by
  simp [value?, Option.filter_eq_none_iff]

/-- A variable that is accepted sets something; another one is reported. -/
theorem Reads.read_cases (h : Reads reader means) (env : Environment) (name : String)
    (fallback : α) :
    (Accepts env ⟨name, fun _ raw => ∃ a, means raw a⟩ ∧
      ∃ a, read env name reader fallback = .ok a ∧ Sets env name means fallback a) ∨
    (¬ Accepts env ⟨name, fun _ raw => ∃ a, means raw a⟩ ∧
      ∃ e raw, read env name reader fallback = .error e ∧ env name = some raw ∧
        Reports e name raw) := by
  unfold read
  cases hvalue : value? env name with
  | none =>
    have hblank := value?_eq_none_iff.mp hvalue
    exact .inl ⟨fun raw hraw => .inl (hblank raw hraw), fallback, rfl, .unset hblank⟩
  | some raw =>
    obtain ⟨hraw, hblank⟩ := value?_eq_some_iff.mp hvalue
    dsimp only
    cases hread : reader name raw with
    | ok a =>
      have hmeans := (h.ok_iff name raw a).mp hread
      refine .inl ⟨fun raw' hraw' => .inr ⟨a, ?_⟩, a, rfl, .value hraw hblank hmeans⟩
      obtain rfl := Option.some.inj (hraw.symm.trans hraw')
      exact hmeans
    | error e =>
      refine .inr ⟨fun haccepts => ?_, e, raw, rfl, hraw, h.reports name raw e hread⟩
      rcases haccepts raw hraw with hblank' | ⟨a, hmeans⟩
      · rw [hblank] at hblank'
        exact absurd hblank' (by decide)
      · rw [(h.ok_iff name raw a).mpr hmeans] at hread
        exact absurd hread (by simp)

theorem Sets.means_value {fallback a : α} {raw : String} (h : Sets env name means fallback a)
    (hraw : env name = some raw) (hblank : isBlankText raw.toList = false) : means raw a := by
  cases h with
  | unset hunset =>
    rw [hunset raw hraw] at hblank
    exact absurd hblank (by decide)
  | value h _ hmeans =>
    obtain rfl := Option.some.inj (h.symm.trans hraw)
    exact hmeans

end Variable

/-! ## All of them -/

/-- The settings are what the variables set. -/
structure IsSet (env : Environment) (s : Settings) : Prop where
  length : Sets env lengthVariable IsLength 120 s.snippetLength
  fallback : Sets env fallbackVariable IsFlag true s.fallbackOnErrors
  level : Sets env levelVariable (IsLevel env) (if isDebug env then "DEBUG" else "WARNING")
    s.logLevel

theorem accepts_all_iff (env : Environment) : (∀ v ∈ allVariables, Accepts env v) ↔
    Accepts env .length ∧ Accepts env .fallback ∧ Accepts env .level := by
  simp [allVariables]

/-- Either all variables are accepted and set what the settings are, or the first that is not
accepted is reported. -/
theorem ofEnvironment_cases (env : Environment) :
    (∃ s, ofEnvironment env = .ok s ∧ (∀ v ∈ allVariables, Accepts env v) ∧ IsSet env s) ∨
    (∃ e v raw, ofEnvironment env = .error e ∧ IsFirstInvalid env v ∧ env v.name = some raw ∧
      Reports e v.name raw) := by
  unfold ofEnvironment
  -- one variable after the other: the first that is reported leaves the later ones unread
  rcases reads_length.read_cases env lengthVariable 120 with
    ⟨hlength, length, hread, hsetLength⟩ | ⟨hlength, e, raw, hread, hraw, hreports⟩
  case inr =>
    refine .inr ⟨e, _, raw, ?_, ⟨[], _, rfl, List.forall_mem_nil _, hlength⟩, hraw, hreports⟩
    rw [hread]
    rfl
  rw [hread]
  rcases reads_flag.read_cases env fallbackVariable true with
    ⟨hflag, flag, hread, hsetFlag⟩ | ⟨hflag, e, raw, hread, hraw, hreports⟩
  case inr =>
    refine .inr ⟨e, _, raw, ?_,
      ⟨[_], _, rfl, List.forall_mem_singleton.mpr hlength, hflag⟩, hraw, hreports⟩
    rw [hread]
    rfl
  rw [hread]
  rcases (reads_level env).read_cases env levelVariable
      (if isDebug env then "DEBUG" else "WARNING") with
    ⟨hlevel, level, hread, hsetLevel⟩ | ⟨hlevel, e, raw, hread, hraw, hreports⟩
  case inr =>
    refine .inr ⟨e, _, raw, ?_, ⟨[_, _], [], rfl, ?_, hlevel⟩, hraw, hreports⟩
    · rw [hread]
      rfl
    · exact List.forall_mem_cons.mpr ⟨hlength, List.forall_mem_singleton.mpr hflag⟩
  rw [hread]
  exact .inl ⟨⟨length, flag, level⟩, rfl, (accepts_all_iff env).mpr ⟨hlength, hflag, hlevel⟩,
    ⟨hsetLength, hsetFlag, hsetLevel⟩⟩

theorem IsFirstInvalid.not_accepts {env : Environment} {v : Variable}
    (h : IsFirstInvalid env v) : ¬ ∀ w ∈ allVariables, Accepts env w := by
  obtain ⟨before, after, hvariables, -, hinvalid⟩ := h
  exact fun haccepts => hinvalid (haccepts v (by simp [hvariables]))

theorem exists_ok_iff (env : Environment) :
    (∃ s, ofEnvironment env = .ok s) ↔ ∀ v ∈ allVariables, Accepts env v := by
  rcases ofEnvironment_cases env with ⟨s, hok, haccepts, -⟩ | ⟨e, v, raw, herror, hfirst, -, -⟩
  · exact iff_of_true ⟨s, hok⟩ haccepts
  · refine iff_of_false ?_ hfirst.not_accepts
    rintro ⟨s, hok⟩
    exact absurd (hok.symm.trans herror) (by simp)

theorem isSet_of_ok {env : Environment} {s : Settings} (h : ofEnvironment env = .ok s) :
    IsSet env s := by
  rcases ofEnvironment_cases env with ⟨t, hok, -, hset⟩ | ⟨e, v, raw, herror, -, -, -⟩
  · obtain rfl := Except.ok.inj (h.symm.trans hok)
    exact hset
  · exact absurd (h.symm.trans herror) (by simp)

theorem reports_of_error {env : Environment} {e : Failure} (h : ofEnvironment env = .error e) :
    ∃ v raw, IsFirstInvalid env v ∧ env v.name = some raw ∧ Reports e v.name raw := by
  rcases ofEnvironment_cases env with ⟨s, hok, -, -⟩ | ⟨e', v, raw, herror, hfirst, hraw, hreports⟩
  · exact absurd (h.symm.trans hok) (by simp)
  · obtain rfl := Except.error.inj (h.symm.trans herror)
    exact ⟨v, raw, hfirst, hraw, hreports⟩

/-- The length is positive, set or by default. -/
theorem IsSet.length_pos {env : Environment} {s : Settings} (h : IsSet env s) :
    0 < s.snippetLength := by
  obtain ⟨length, flag, level⟩ := s
  have hset : Sets env lengthVariable IsLength 120 length := h.length
  cases hset with
  | unset =>
    change (0 : Int) < 120
    decide
  | value _ _ hmeans => exact hmeans.2

/-- The decimal text of a number that is not too long sets just the number. -/
theorem isLength_toString_iff {k : Nat} (hpos : 0 < k) (hlength : (toString k).length ≤ maxDigits)
    (n : Int) : IsLength (toString k) n ↔ n = k := by
  have hdigits : (decimal k).digits.length ≤ maxDigits := by
    rwa [digits_decimal, ← Nat.toList_repr, ← Nat.toString_eq_repr, String.length_toList]
  have hread : readInteger (toString k).toList = .ok (k : Int) :=
    (readInteger_eq_ok_iff _ _).mpr ⟨decimal k, text_decimal k, hdigits, value_decimal k⟩
  rw [IsLength, ← readInteger_eq_ok_iff, hread, Except.ok.injEq]
  omega

/-! ## The laws -/

/-- Every environment is accepted just when each variable is, with a positive length and all
settings as the variables set them; the decimal text of a number sets it. If an environment is
not accepted, its first variable that is not valid is reported, and what is shared then has
every setting as it is by default. An environment that is a list of variables has the usual
levels. -/
theorem accepted_iff_valid (env : Environment) :
    ((∃ s, ofEnvironment env = .ok s) ↔ ∀ v ∈ allVariables, Accepts env v) ∧
    (∀ s, ofEnvironment env = .ok s → 1 ≤ s.snippetLength ∧ IsSet env s) ∧
    (∀ k : Nat, 0 < k → (toString k).length ≤ maxDigits →
      env lengthVariable = some (toString k) → Accepts env .fallback → Accepts env .level →
      ∃ s, ofEnvironment env = .ok s ∧ s.snippetLength = k) ∧
    (∀ e, ofEnvironment env = .error e →
      (∃ v raw, IsFirstInvalid env v ∧ env v.name = some raw ∧ Reports e v.name raw) ∧
      ∀ session : Session, session.environment = env → session.analyzer = none →
        session.shared.1 = .standard
          { snippetLength := 120, fallbackOnErrors := true, logLevel := "WARNING" }
          { provider := session.provider }) ∧
    ∀ pairs, env = .ofList pairs → ∀ raw level, IsLevel env raw level ↔
      level ∈ ["TRACE", "DEBUG", "INFO", "SUCCESS", "WARNING", "ERROR", "CRITICAL"] ∧
        toUpper (trim raw.toList) = level.toList := by
  refine ⟨exists_ok_iff env, fun s hok => ?_, fun k hpos hlength hraw hfallback hlevel => ?_,
    fun e herror => ⟨reports_of_error herror, fun session henv hunmade => ?_⟩, ?_⟩
  · exact ⟨(isSet_of_ok hok).length_pos, isSet_of_ok hok⟩
  · have hmeans := isLength_toString_iff hpos hlength
    have haccepts : Accepts env .length := by
      intro raw hraw'
      obtain rfl := Option.some.inj (hraw.symm.trans hraw')
      exact .inr ⟨k, (hmeans k).mpr rfl⟩
    obtain ⟨s, hok⟩ := (exists_ok_iff env).mpr
      ((accepts_all_iff env).mpr ⟨haccepts, hfallback, hlevel⟩)
    have hblank : isBlankText (toString k).toList = false := by
      rw [← text_decimal]
      exact (decimal k).isBlankText_text
    exact ⟨s, hok, (hmeans _).mp ((isSet_of_ok hok).length.means_value hraw hblank)⟩
  · rw [Session.shared, hunmade, henv, ofEnvironmentOrDefault, herror]
  · rintro pairs rfl
    exact isLevel_ofList_iff pairs

/-- A valid length and a valid flag are dropped with a level that there is not. -/
theorem accepted_iff_valid_loudLevel :
    let loud := Environment.ofList
      [(lengthVariable, "80"), (fallbackVariable, " Off"), (levelVariable, "LOUD")]
    (∃ e v raw, ofEnvironment loud = .error e ∧ IsFirstInvalid loud v ∧ Reports e v.name raw) ∧
      ({ environment := loud, provider := .uninstalled } : Session).shared.1 =
        .standard {} { provider := .uninstalled } ∧
    ∃ s, ofEnvironment (.ofList [(lengthVariable, toString 80)]) = .ok s ∧
      s.snippetLength = 80 := by
  intro loud
  obtain ⟨-, -, -, hfails, -⟩ := accepted_iff_valid loud
  obtain ⟨-, -, hdecimal, -⟩ := accepted_iff_valid (.ofList [(lengthVariable, toString 80)])
  have hnone : (ofEnvironment loud).toOption.isSome = false := by decide +kernel
  cases h : ofEnvironment loud with
  | ok s =>
    rw [h] at hnone
    exact absurd hnone (by simp [Except.toOption])
  | error e =>
    obtain ⟨⟨v, raw, hfirst, -, hreports⟩, hshared⟩ := hfails e h
    refine ⟨⟨e, v, raw, rfl, hfirst, hreports⟩,
      hshared { environment := loud, provider := .uninstalled } rfl rfl, ?_⟩
    refine hdecimal 80 (by decide) (by decide +kernel) (by decide) ?_ ?_
    · exact fun raw hraw => absurd hraw (by decide +revert)
    · exact fun raw hraw => absurd hraw (by decide +revert)

end BigO.Settings
