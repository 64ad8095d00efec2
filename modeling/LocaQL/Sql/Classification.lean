import LocaQL.Sql.Leads

/-!
# The classification

What `isMutatingOrSessionControlStatement` accepts: a text with a leading phrase, a view
statement, or one that controls a transaction (`isMutating_iff`).  The patterns do not see
white space and semicolons at the end of a text, so the dispatcher, which looks at the text
without its last semicolon, finds the same phrases and views.
-/

namespace LocaQL.Sql

open Pattern
open List hiding mem_pure

variable {α β : Type} {s u j : List Char} {x : List Char × List Char} {c : Char} {ks : List String}

/-! ## The text of a target -/

def IsSegment (u : List Char) : Prop :=
  ∃ (o c : Option Char) (n : List Char), u = o.toList ++ (n ++ c.toList) ∧
    (∀ a ∈ o, a = '\x60') ∧ (∀ a ∈ c, a = '\x60') ∧ n ≠ [] ∧ ∀ a ∈ n, isPathChar a

def IsDotSegment (u : List Char) : Prop := ∃ v, u = '.' :: v ∧ IsSegment v

def IsTarget (u : List Char) : Prop :=
  ∃ a b c, u = a ++ (b ++ c) ∧ IsSegment a ∧ IsDotSegment b ∧ (c = [] ∨ IsDotSegment c)

theorem mem_char {a : Char} {x : Char × List Char} : x ∈ char a s ↔ x.1 = a ∧ s = a :: x.2 := by
  rw [char, mem_one, beq_iff_eq]
  constructor
  · rintro ⟨rfl, h⟩
    exact ⟨rfl, h⟩
  · rintro ⟨rfl, h⟩
    exact ⟨rfl, h⟩

theorem mem_tick {x : Option Char × List Char} :
    x ∈ tick s ↔ (∀ a ∈ x.1, a = '\x60') ∧ s = x.1.toList ++ x.2 := by
  obtain ⟨o, t⟩ := x
  simp only [tick, mem_opt, mem_char, Prod.mk.injEq]
  constructor
  · rintro (⟨⟨a, t⟩, ⟨rfl, rfl⟩, rfl, rfl⟩ | ⟨rfl, rfl⟩)
    · exact ⟨fun a ha => (Option.some.inj ha).symm, rfl⟩
    · exact ⟨nofun, rfl⟩
  · rintro ⟨ha, rfl⟩
    cases o with
    | none => exact .inr ⟨rfl, rfl⟩
    | some a =>
      obtain rfl := ha a rfl
      exact .inl ⟨(_, t), ⟨rfl, rfl⟩, rfl, rfl⟩

theorem mem_segment : x ∈ segment s ↔ IsSegment x.1 ∧ s = x.1 ++ x.2 := by
  obtain ⟨u, t⟩ := x
  simp only [segment, mem_bind, mem_pure, mem_tick, mem_many1, Prod.mk.injEq]
  constructor
  · rintro ⟨⟨o, r⟩, ⟨ho, rfl⟩, ⟨n, r'⟩, ⟨ne, hn, rfl⟩, ⟨c, t⟩, ⟨hc, rfl⟩, rfl, rfl⟩
    exact ⟨⟨o, c, n, by simp, ho, hc, ne, hn⟩, by simp⟩
  · rintro ⟨⟨o, c, n, rfl, ho, hc, ne, hn⟩, rfl⟩
    exact ⟨(o, n ++ (c.toList ++ t)), ⟨ho, by simp⟩, (n, c.toList ++ t), ⟨ne, hn, rfl⟩, (c, t),
      ⟨hc, rfl⟩, by simp, rfl⟩

theorem mem_dotSegment : x ∈ dotSegment s ↔ IsDotSegment x.1 ∧ s = x.1 ++ x.2 := by
  obtain ⟨u, t⟩ := x
  simp only [dotSegment, mem_bind, mem_pure, mem_char, mem_segment, Prod.mk.injEq]
  constructor
  · rintro ⟨⟨a, r⟩, ⟨rfl, rfl⟩, ⟨v, t⟩, ⟨hv, rfl⟩, rfl, rfl⟩
    exact ⟨⟨v, rfl, hv⟩, rfl⟩
  · rintro ⟨⟨v, rfl, hv⟩, rfl⟩
    exact ⟨('.', v ++ t), ⟨rfl, rfl⟩, (v, t), ⟨hv, rfl⟩, rfl, rfl⟩

theorem mem_target : x ∈ persistentTargetExpression s ↔ IsTarget x.1 ∧ s = x.1 ++ x.2 := by
  obtain ⟨u, t⟩ := x
  simp only [persistentTargetExpression, mem_bind, mem_pure, mem_opt, mem_segment,
    mem_dotSegment, Prod.mk.injEq]
  constructor
  · rintro ⟨⟨a, r⟩, ⟨ha, rfl⟩, ⟨b, r⟩, ⟨hb, rfl⟩, ⟨c, t⟩,
      ⟨⟨c, t⟩, ⟨hc, rfl⟩, h⟩ | h, rfl, rfl⟩
    · obtain ⟨rfl, rfl⟩ := Prod.mk.inj h
      exact ⟨⟨a, b, c, by simp, ha, hb, .inr hc⟩, by simp⟩
    · obtain ⟨rfl, rfl⟩ := Prod.mk.inj h
      exact ⟨⟨a, b, [], by simp, ha, hb, .inl rfl⟩, by simp⟩
  · rintro ⟨⟨a, b, c, rfl, ha, hb, rfl | hc⟩, rfl⟩
    · exact ⟨(a, b ++ t), ⟨ha, by simp⟩, (b, t), ⟨hb, rfl⟩, (none, t), .inr rfl, by simp, rfl⟩
    · exact ⟨(a, b ++ (c ++ t)), ⟨ha, by simp⟩, (b, c ++ t), ⟨hb, rfl⟩, (some c, t),
        .inl ⟨(c, t), ⟨hc, rfl⟩, rfl⟩, by simp, rfl⟩

/-- The characters of a target. -/
def isTargetChar (c : Char) : Bool := isPathChar c || c == '\x60' || c == '.'

theorem IsSegment.chars (h : IsSegment u) : ∀ c ∈ u, isTargetChar c := by
  obtain ⟨o, c, n, rfl, ho, hc, -, hn⟩ := h
  intro a ha
  simp only [mem_append, Option.mem_toList] at ha
  rcases ha with ha | ha | ha
  · simp [isTargetChar, ho a ha]
  · simp [isTargetChar, hn a ha]
  · simp [isTargetChar, hc a ha]

theorem IsDotSegment.chars (h : IsDotSegment u) : ∀ c ∈ u, isTargetChar c := by
  obtain ⟨v, rfl, hv⟩ := h
  exact forall_mem_cons.mpr ⟨by decide, hv.chars⟩

theorem IsTarget.chars (h : IsTarget u) : ∀ c ∈ u, isTargetChar c := by
  obtain ⟨a, b, c, rfl, ha, hb, hc⟩ := h
  intro x hx
  simp only [mem_append] at hx
  rcases hx with hx | hx | hx
  · exact ha.chars x hx
  · exact hb.chars x hx
  · rcases hc with rfl | hc
    · cases hx
    · exact hc.chars x hx

theorem IsTarget.ne_nil (h : IsTarget u) : u ≠ [] := by
  obtain ⟨a, b, c, rfl, -, ⟨v, rfl, -⟩, -⟩ := h
  simp

theorem matches_target : persistentTargetExpression.Matches s ↔ ∃ u t, IsTarget u ∧ s = u ++ t := by
  rw [matches_iff]
  simp only [mem_target, Prod.exists]

/-! ## White space and semicolons at the end -/

/-- Text that no pattern reads: white space and semicolons. -/
def Junk (j : List Char) : Prop := ∀ c ∈ j, GoText.isSpace c ∨ c = ';'

theorem isNameChar_of_isWord (h : isWord c) : isNameChar c := by
  simp only [isWord, Bool.or_eq_true] at h
  rcases h with ((lower | upper) | digit) | under
  · simp [isNameChar, isLetter, GoText.foldRune_of_isLower lower, lower]
  · simp [isNameChar, isLetter, GoText.isLower_foldRune_of_isUpper upper]
  · rw [isNameChar, isDigit, digit, Bool.or_true, Bool.true_or]
  · rw [isNameChar, under, Bool.or_true]

theorem not_isTargetChar_of_isSpace (h : GoText.isSpace c) : isTargetChar c = false := by
  have letter : isLetter c = false := GoText.isLower_foldRune_of_isSpace h
  have ne (d : Char) (hd : GoText.isSpace d = false) : (c == d) = false := by
    rw [beq_eq_false_iff_ne]
    rintro rfl
    rw [h] at hd
    cases hd
  have digit : isDigit c = false := by
    rw [Bool.eq_false_iff]
    intro digit
    rw [isDigit, Bool.and_eq_true, decide_eq_true_eq, decide_eq_true_eq] at digit
    have low : 48 ≤ c.toNat := digit.1
    have high : c.toNat ≤ 57 := digit.2
    have := GoText.toNat_of_isSpace h
    omega
  simp only [isTargetChar, isPathChar, isNameChar, letter, digit, ne '_' rfl, ne '-' rfl,
    ne '\x60' rfl, ne '.' rfl, Bool.or_self]

theorem Junk.not_isTargetChar (h : Junk j) : ∀ c ∈ j, isTargetChar c = false := by
  intro c hc
  rcases h c hc with space | rfl
  · exact not_isTargetChar_of_isSpace space
  · decide

/-- What is read without a character of `j` is read from the part before it. -/
theorem read_before {w r : List Char} (eq : s ++ j = w ++ r) (fresh : ∀ c ∈ w, c ∉ j) :
    ∃ y, s = w ++ y ∧ r = y ++ j := by
  rcases append_eq_append_iff.mp eq with ⟨y, rfl, rfl⟩ | ⟨y, rfl, rfl⟩
  · cases y with
    | nil => exact ⟨[], by simp, by simp⟩
    | cons c y => exact absurd mem_cons_self (fresh c (by simp))
  · exact ⟨y, rfl, rfl⟩

/-- A pattern that reads something and does not see what is junk at the end. -/
structure Robust (p : Pattern α) : Prop where
  junk : ∀ {s j}, Junk j → (p.Matches (s ++ j) ↔ p.Matches s)
  nonempty : ¬p.Matches []

/-- A keyword: a word of letters. -/
def isKeyword (k : String) : Bool := !k.toList.isEmpty && k.toList.all isLetter

theorem isKeyword_letters {k : String} (hk : isKeyword k) {w : List Char}
    (hw : fold w = fold k.toList) : w ≠ [] ∧ ∀ c ∈ w, isLetter c := by
  rw [isKeyword, Bool.and_eq_true, Bool.not_eq_true', isEmpty_eq_false_iff, all_eq_true] at hk
  refine ⟨?_, fun c hc => ?_⟩
  · rintro rfl
    exact hk.1 (map_eq_nil_iff.mp hw.symm)
  · have mem : GoText.foldRune c ∈ fold k.toList := hw ▸ mem_map_of_mem hc
    obtain ⟨a, ha, same⟩ := mem_map.mp mem
    have := hk.2 a ha
    rwa [isLetter, same] at this

theorem not_matches_lead_nil {p : Pattern α} (h : ¬p.Matches []) : ¬(lead ks p).Matches [] := by
  cases ks with
  | nil => rwa [lead_nil]
  | cons k ks =>
    intro lead
    obtain ⟨w, g, t, eq, -, ne, -⟩ := matches_lead_cons.mp lead
    simp [ne] at eq

theorem Robust.lead {p : Pattern α} (keywords : ∀ k ∈ ks, isKeyword k) (h : Robust p) :
    Robust (lead ks p) := by
  induction ks with
  | nil => rwa [lead_nil]
  | cons k ks ih =>
    obtain ⟨hk, hks⟩ := forall_mem_cons.mp keywords
    have ih := ih hks
    refine ⟨fun {s j} hj => ?_, fun hyp => ?_⟩
    · simp only [matches_lead_cons]
      constructor
      · rintro ⟨w, g, t, eq, hw, ne, white, h⟩
        obtain ⟨-, letters⟩ := isKeyword_letters hk hw
        obtain ⟨y, rfl, behind⟩ := read_before eq fun c hc mem => by
          have := hj.not_isTargetChar c mem
          simp [isTargetChar, isPathChar, isNameChar, letters c hc] at this
        rcases append_eq_append_iff.mp behind with ⟨z, rfl, rfl⟩ | ⟨z, rfl, rfl⟩
        · exact ⟨w, g, z, rfl, hw, ne, white, (ih.junk hj).mp h⟩
        · -- the white space reaches into the junk, and the rest would be read from it
          have hz : Junk t := fun c hc => hj c (mem_append_right z hc)
          exact absurd ((ih.junk (s := []) hz).mp h) ih.nonempty
      · rintro ⟨w, g, t, rfl, hw, ne, white, h⟩
        exact ⟨w, g, t ++ j, by simp, hw, ne, white, (ih.junk hj).mpr h⟩
    · exact not_matches_lead_nil h.nonempty hyp

/-- A keyword is read alike with junk behind it. -/
theorem Robust.keyword {k : String} (hk : isKeyword k) : Robust (keyword k.toList) := by
  refine ⟨fun {s j} hj => ?_, fun h => ?_⟩
  · have boundary_append (l y : List Char) :
        boundary l.getLast? (y ++ j) = boundary l.getLast? y := by
      cases y with
      | cons c y => rfl
      | nil =>
        cases j with
        | nil => rfl
        | cons c j =>
          have word : isWord c = false := by
            rw [Bool.eq_false_iff]
            intro word
            have name := isNameChar_of_isWord word
            have := hj.not_isTargetChar c mem_cons_self
            simp [isTargetChar, isPathChar, name] at this
          simp [boundary, word]
    simp only [matches_keyword]
    constructor
    · rintro ⟨l, t, eq, hl, bound⟩
      obtain ⟨-, letters⟩ := isKeyword_letters hk hl
      obtain ⟨y, rfl, rfl⟩ := read_before eq fun c hc mem => by
        have := hj.not_isTargetChar c mem
        simp [isTargetChar, isPathChar, isNameChar, letters c hc] at this
      exact ⟨l, y, rfl, hl, boundary_append l y ▸ bound⟩
    · rintro ⟨l, y, rfl, hl, bound⟩
      exact ⟨l, y ++ j, by simp, hl, (boundary_append l y).symm ▸ bound⟩
  · obtain ⟨l, t, eq, hl, -⟩ := matches_keyword.mp h
    obtain ⟨ne, -⟩ := isKeyword_letters hk hl
    simp [ne] at eq

theorem Robust.target : Robust persistentTargetExpression := by
  refine ⟨fun {s j} hj => ?_, fun h => ?_⟩
  · simp only [matches_target]
    constructor
    · rintro ⟨u, t, hu, eq⟩
      obtain ⟨y, rfl, -⟩ := read_before eq fun c hc mem => by
        have := hj.not_isTargetChar c mem
        rw [hu.chars c hc] at this
        cases this
      exact ⟨u, y, hu, rfl⟩
    · rintro ⟨u, t, hu, rfl⟩
      exact ⟨u, t ++ j, hu, by simp⟩
  · obtain ⟨u, t, hu, eq⟩ := matches_target.mp h
    simp [hu.ne_nil] at eq

theorem Ending.junk {m e : List Char} (ending : Ending m e) : Junk e := by
  rcases ending with ⟨rfl, -⟩ | ⟨sp, spaces, rfl⟩
  · nofun
  intro c hc
  rcases mem_append.mp hc with hc | hc
  · exact .inl (spaces c hc)
  · exact .inr (mem_singleton.mp hc)

theorem keywords_leads : ∀ x ∈ leads, isKeyword x.2 ∧ ∀ k ∈ x.1, isKeyword k := by decide

theorem keywords_createView : ∀ ks ∈ createViewHeads, ∀ k ∈ ks, isKeyword k := by decide

theorem led_junk (hj : Junk j) : Led leads (s ++ j) ↔ Led leads s := by
  refine exists_congr fun x => and_congr_right fun mem => ?_
  obtain ⟨last, keywords⟩ := keywords_leads x mem
  exact ((Robust.keyword last).lead keywords).junk hj

theorem led_trimSemicolon (h : GoText.Trimmed s) : Led leads (trimSemicolon s) ↔ Led leads s := by
  obtain ⟨e, eq, ending⟩ := exists_ending h
  rw [← led_junk ending.junk, ← eq]

theorem not_matches_lastTarget_nil : ¬lastTarget.Matches [] := by
  intro h
  obtain ⟨y, hy, -⟩ := matches_bind.mp h
  exact Robust.target.nonempty (matches_iff.mpr ⟨y, hy⟩)

/-- A `DROP VIEW` that is recognized has no semicolon at its end. -/
theorem last_of_lastTarget (h : (lead ks lastTarget).Matches s) : s.getLast? ≠ some ';' := by
  induction ks generalizing s with
  | nil =>
    rw [lead_nil, lastTarget] at h
    simp only [matches_bind, mem_target, white, mem_many, eos, matches_ahead] at h
    obtain ⟨⟨u, r⟩, ⟨hu, rfl⟩, ⟨g, r⟩, ⟨white, rfl⟩, ended⟩ := h
    rw [List.isEmpty_iff.mp ended, append_nil]
    intro last
    rcases mem_append.mp (mem_of_getLast? last) with mem | mem
    · exact absurd (hu.chars _ mem) (by decide)
    · exact absurd (white _ mem) (by decide)
  | cons k ks ih =>
    obtain ⟨w, g, t, rfl, -, -, -, h⟩ := matches_lead_cons.mp h
    have ne : t ≠ [] := by
      rintro rfl
      exact not_matches_lead_nil not_matches_lastTarget_nil h
    rw [← append_assoc, getLast?_append_of_ne_nil _ ne]
    exact ih h

theorem viewStatement_trimSemicolon (h : GoText.Trimmed s) (view : ViewStatement s) :
    ViewStatement (trimSemicolon s) := by
  obtain ⟨e, eq, ending⟩ := exists_ending h
  rcases view with ⟨ks, mem, drop⟩ | ⟨ks, mem, create⟩
  · rcases ending with ⟨rfl, -⟩ | ⟨sp, -, rfl⟩
    · rw [append_nil] at eq
      exact .inl ⟨ks, mem, eq ▸ drop⟩
    · refine absurd ?_ (last_of_lastTarget drop)
      rw [eq]
      simp
  · rw [eq, (Robust.target.lead (keywords_createView ks mem)).junk ending.junk] at create
    exact .inr ⟨ks, mem, create⟩

/-! ## What is classified -/

/-- A statement that begins, commits or rolls back a transaction, without comments. -/
def TransactionControl (s : List Char) : Prop :=
  sessionBeginPattern.Matches s ∨ sessionCommitPattern.Matches s ∨ sessionRollbackPattern.Matches s

/-- A leading phrase starts with a letter. -/
theorem Led.head (h : Led leads s) : ∃ c t, s = c :: t ∧ isLetter c := by
  obtain ⟨⟨ks, k⟩, mem, h⟩ := h
  obtain ⟨last, keywords⟩ := keywords_leads _ mem
  obtain ⟨w, t, rfl, ne, letters⟩ : ∃ w t, s = w ++ t ∧ w ≠ [] ∧ ∀ c ∈ w, isLetter c := by
    cases ks with
    | nil =>
      obtain ⟨w, t, rfl, hw, -⟩ := matches_keyword.mp (lead_nil (keyword k.toList) ▸ h)
      exact ⟨w, t, rfl, isKeyword_letters last hw⟩
    | cons k' ks =>
      obtain ⟨w, g, t, rfl, hw, -⟩ := matches_lead_cons.mp h
      exact ⟨w, g ++ t, rfl, isKeyword_letters (keywords k' mem_cons_self) hw⟩
  obtain ⟨c, w, rfl⟩ := exists_cons_of_ne_nil ne
  exact ⟨c, w ++ t, rfl, letters c mem_cons_self⟩

theorem startsComment_of_isLetter (h : isLetter c) (t : List Char) :
    startsComment (c :: t) = false := by
  have ne (d : Char) (hd : isLetter d = false) : (d == c) = false := by
    rw [beq_eq_false_iff_ne]
    rintro rfl
    rw [h] at hd
    cases hd
  simp only [startsComment, List.isPrefixOf, ne '-' rfl, ne '/' rfl, Bool.false_and, Bool.or_self]

theorem led_of_createTempTable (h : sessionCreateTempTablePattern.Matches s) : Led leads s := by
  have cases {p : Pattern (List Char × List Char)} {t : List Char} :
      ((words ["TEMP"] <|> words ["TEMPORARY"]) >>= fun _ => p).Matches t ↔
        ((words ["TEMP"] >>= fun _ => p) <|> (words ["TEMPORARY"] >>= fun _ => p)).Matches t := by
    rw [matches_or]
    simp only [matches_bind, mem_or, or_and_right, exists_or]
  rw [sessionCreateTempTablePattern, ← headed_nil, headed_words, headed_congr fun t => cases,
    headed_or, headed_words, headed_words, headed_words, headed_words] at h
  rcases h with h | h
  · exact (led_of_headed [["CREATE", "TEMP"]] (by decide) h).mono (by decide)
  · exact (led_of_headed [["CREATE", "TEMPORARY"]] (by decide) h).mono (by decide)

/-- A text without leading comments is what the parsers look at, up to a semicolon. -/
theorem led_statementText {q : List Char} (h : Led leads (trimSemicolon q)) :
    Led leads (statementText q) := by
  have trimmed := trimmed_trimSemicolon q
  obtain ⟨c, t, eq, letter⟩ := h.head
  have text : statementText (trimSemicolon q) = trimSemicolon (trimSemicolon q) := by
    rw [statementText, trimLeadingSQLComments_eq trimmed, skipComments_other]
    rw [eq, startsComment_of_isLetter letter]
  rwa [← led_trimSemicolon (trimmed_statementText q), ← statementText_trimSemicolon, text,
    led_trimSemicolon trimmed]

/-- What `isMutatingOrSessionControlStatement` accepts. -/
theorem isMutating_iff {projectID : String} {q : List Char} :
    isMutatingOrSessionControlStatement projectID q ↔
      Led leads (statementText q) ∨ ViewStatement (statementText q) ∨
        TransactionControl (trimSemicolon q) := by
  simp only [isMutatingOrSessionControlStatement, Bool.or_eq_true,
    parsePersistentSQLStatement_isSome, parsePersistentViewStatement_isSome,
    isPersistentAlterTableStatement, sessionControl, decide_eq_true_eq, TransactionControl]
  constructor
  · rintro ((((led | view) | schema) | alter) | ((begin | commit) | rollback) | temp)
    · exact .inl led
    · exact .inr (.inl view)
    · exact .inl (led_of_createSchema schema)
    · rcases alter with (((add | drop) | rename) | renameTo) | options
      all_goals exact .inl (led_of_parseAlterTable ‹_›)
    · exact .inr (.inr (.inl begin))
    · exact .inr (.inr (.inr (.inl commit)))
    · exact .inr (.inr (.inr (.inr rollback)))
    · exact .inl (led_statementText (led_of_createTempTable temp))
  · rintro (led | view | begin | commit | rollback)
    · exact .inl (.inl (.inl (.inl led)))
    · exact .inl (.inl (.inl (.inr view)))
    · exact .inr (.inl (.inl (.inl begin)))
    · exact .inr (.inl (.inl (.inr commit)))
    · exact .inr (.inl (.inr rollback))

end LocaQL.Sql
