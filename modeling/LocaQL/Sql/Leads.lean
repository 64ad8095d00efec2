import LocaQL.Sql.Trimming

/-!
# Leading keywords
-/

namespace LocaQL.Sql

open Pattern List

variable {α β : Type} {s q : List Char} {k projectID : String} {ks os : List String}
  {heads : List (List String)} {c : Char} {p : Pattern α}

theorem matches_bind_of_always {f : α → Pattern β} (always : ∀ a t, (f a).Matches t) :
    (p >>= f).Matches s ↔ p.Matches s := by
  rw [matches_bind, matches_iff]
  exact ⟨fun ⟨y, hy, _⟩ => ⟨y, hy⟩, fun ⟨y, hy⟩ => ⟨y, hy, always y.1 y.2⟩⟩

/-! ## Keywords before a pattern -/

/-- A pattern behind keywords with white space between them. -/
def lead (ks : List String) (p : Pattern α) : Pattern α := words ks >>= fun _ => p

@[simp] theorem lead_nil (p : Pattern α) : lead [] p = p := pure_bind () fun _ => p

theorem lead_cons (k : String) (ks : List String) (p : Pattern α) :
    lead (k :: ks) p = word k.toList >>= fun _ => spaces >>= fun _ => lead ks p := by
  simp only [lead, words, bind_assoc]

theorem lead_append (ks ks' : List String) (p : Pattern α) :
    lead (ks ++ ks') p = lead ks (lead ks' p) := by
  induction ks with
  | nil => rw [nil_append, lead_nil]
  | cons k ks ih => rw [cons_append, lead_cons, lead_cons, ih]

theorem matches_lead_cons :
    (lead (k :: ks) p).Matches s ↔
      ∃ w g t, s = w ++ (g ++ t) ∧ fold w = fold k.toList ∧ g ≠ [] ∧ (∀ c ∈ g, isWhite c) ∧
        (lead ks p).Matches t := by
  simp only [lead_cons, matches_bind, mem_word, spaces, mem_many1]
  constructor
  · rintro ⟨⟨w, r⟩, ⟨hw, rfl⟩, ⟨g, t⟩, ⟨ne, hg, rfl⟩, h⟩
    exact ⟨w, g, t, rfl, hw, ne, hg, h⟩
  · rintro ⟨w, g, t, rfl, hw, ne, hg, h⟩
    exact ⟨(w, g ++ t), ⟨hw, rfl⟩, (g, t), ⟨ne, hg, rfl⟩, h⟩

/-- An alternative behind keywords. -/
theorem matches_lead_or {q r : Pattern α} (cases : ∀ t, p.Matches t ↔ q.Matches t ∨ r.Matches t) :
    (lead ks p).Matches s ↔ (lead ks q).Matches s ∨ (lead ks r).Matches s := by
  simp only [lead, matches_bind, cases, and_or_left, exists_or]

theorem matches_optWords_bind {q : Bool → Pattern α}
    (same : ∀ t, (q true).Matches t ↔ (q false).Matches t) :
    (optWords ks >>= q).Matches s ↔ (lead ks (q false)).Matches s ∨ (q false).Matches s := by
  rw [optWords, bind_assoc]
  simp only [pure_bind]
  refine matches_opt_bind fun o t => ?_
  cases o with
  | none => exact Iff.rfl
  | some u => exact same t

/-- Keywords, optional keywords, and the rest. -/
theorem matches_lead_opt {q : Bool → Pattern α}
    (same : ∀ t, (q true).Matches t ↔ (q false).Matches t) :
    (lead ks (optWords os >>= q)).Matches s ↔
      (lead (ks ++ os) (q false)).Matches s ∨ (lead ks (q false)).Matches s := by
  rw [lead_append]
  exact matches_lead_or fun t => matches_optWords_bind same

/-- White space at the start is skipped; a trimmed text has none. -/
theorem matches_white_bind {q : List Char → Pattern α} {r : Pattern β}
    (same : ∀ l t, (q l).Matches t ↔ r.Matches t) (trimmed : ∀ c ∈ s.head?, ¬isWhite c) :
    (white >>= q).Matches s ↔ r.Matches s := by
  simp only [white, matches_bind, mem_many, same]
  constructor
  · rintro ⟨⟨l, t⟩, ⟨hl, rfl⟩, h⟩
    cases l with
    | nil => exact h
    | cons c l => exact absurd (hl c mem_cons_self) (trimmed c rfl)
  · exact fun h => ⟨([], s), ⟨fun _ h => absurd h not_mem_nil, rfl⟩, h⟩

/-! ## Alternatives of keywords -/

/-- One of some sequences of keywords, and the pattern behind it. -/
def Headed (heads : List (List String)) (p : Pattern α) (s : List Char) : Prop :=
  ∃ ks ∈ heads, (lead ks p).Matches s

theorem headed_nil : Headed [[]] p s ↔ p.Matches s := by
  simp only [Headed, mem_singleton, exists_eq_left, lead_nil]

theorem headed_congr {q : Pattern β} (same : ∀ t, p.Matches t ↔ q.Matches t) :
    Headed heads p s ↔ Headed heads q s := by
  simp only [Headed, lead, matches_bind, same]

theorem headed_words :
    Headed heads (words ks >>= fun _ => p) s ↔ Headed (heads.map (· ++ ks)) p s := by
  change Headed heads (lead ks p) s ↔ _
  simp only [Headed, mem_map, ← lead_append, exists_exists_and_eq_and]

theorem headed_or {q : Pattern α} :
    Headed heads (p <|> q) s ↔ Headed heads p s ∨ Headed heads q s := by
  simp only [Headed, matches_lead_or fun t => matches_or, and_or_left, exists_or]

/-- Optional keywords double the alternatives. -/
theorem headed_opt {q : Bool → Pattern α} (same : ∀ t, (q true).Matches t ↔ (q false).Matches t) :
    Headed heads (optWords os >>= q) s ↔ Headed (heads ++ heads.map (· ++ os)) (q false) s := by
  simp only [Headed, matches_lead_opt same, mem_append, mem_map, or_and_right,
    and_or_left, exists_or, exists_exists_and_eq_and]
  exact Or.comm

/-! ## Leading phrases -/

/-- One of some phrases: keywords, and a last one with a word boundary behind it. -/
def Led (phrases : List (List String × String)) (s : List Char) : Prop :=
  ∃ x ∈ phrases, (lead x.1 (keyword x.2.toList)).Matches s

theorem led_append {xs ys : List (List String × String)} :
    Led (xs ++ ys) s ↔ Led xs s ∨ Led ys s := by
  simp only [Led, mem_append, or_and_right, exists_or]

theorem headed_keyword : Headed heads (keyword k.toList) s ↔ Led (heads.map (·, k)) s := by
  simp only [Headed, Led, mem_map, exists_exists_and_eq_and]

theorem headed_anyKeyword :
    Headed heads (anyKeyword ks) s ↔ Led (ks.flatMap fun k => heads.map (·, k)) s := by
  induction ks with
  | nil =>
    have none : ¬Headed heads (anyKeyword []) s := by
      rintro ⟨ks, -, h⟩
      obtain ⟨y, -, h⟩ := matches_bind.mp h
      exact absurd h (not_matches_of_find rfl)
    exact ⟨fun h => absurd h none, fun ⟨_, h, _⟩ => absurd h not_mem_nil⟩
  | cons k ks ih => rw [anyKeyword, headed_or, headed_keyword, ih, flatMap_cons, led_append]

/-- A word read in two parts. -/
theorem matches_word_append {k k' : List Char} :
    (word k >>= fun _ => word k' >>= fun _ => p).Matches s ↔
      (word (k ++ k') >>= fun _ => p).Matches s := by
  simp only [matches_bind, mem_word]
  constructor
  · rintro ⟨⟨l, r⟩, ⟨hl, rfl⟩, ⟨l', t⟩, ⟨hl', rfl⟩, h⟩
    refine ⟨(l ++ l', t), ⟨?_, (append_assoc _ _ _).symm⟩, h⟩
    rw [fold, map_append]
    exact (congrArg₂ _ hl hl').trans (map_append).symm
  · rintro ⟨⟨l, t⟩, ⟨hl, rfl⟩, h⟩
    obtain ⟨l₁, l₂, rfl, h₁, h₂⟩ := map_eq_append_iff.mp (hl.trans map_append)
    exact ⟨(l₁, l₂ ++ t), ⟨h₁, append_assoc _ _ _⟩, (l₂, t), ⟨h₂, rfl⟩, h⟩

/-- `TEMP` and `TEMPORARY` behind other keywords. -/
def temporaries (heads : List (List String)) : List (List String) :=
  heads.map (· ++ ["TEMP"]) ++ heads.map (· ++ ["TEMPORARY"])

theorem matches_temporary_bind :
    (temporary >>= fun _ => p).Matches s ↔ Headed [["TEMP"], ["TEMPORARY"]] p s := by
  have split : "TEMPORARY".toList = "TEMP".toList ++ "ORARY".toList := by decide
  have lead_one (k : String) (t : List Char) :
      (lead [k] p).Matches t ↔ (word k.toList >>= fun _ => spaces >>= fun _ => p).Matches t := by
    rw [lead_cons, lead_nil]
  simp only [Headed, mem_cons, not_mem_nil, or_false, exists_eq_or_imp, exists_eq_left,
    lead_one, split, ← matches_word_append, temporary, bind_assoc, pure_bind]
  simp only [matches_bind (p := word "TEMP".toList), matches_opt_bind fun _ _ => Iff.rfl,
    and_or_left, exists_or]
  exact Or.comm

theorem headed_temporary :
    Headed heads (temporary >>= fun _ => p) s ↔ Headed (temporaries heads) p s := by
  have two (ks : List String) : (lead ks (temporary >>= fun _ => p)).Matches s ↔
      (lead (ks ++ ["TEMP"]) p).Matches s ∨ (lead (ks ++ ["TEMPORARY"]) p).Matches s := by
    rw [lead_append, lead_append]
    refine matches_lead_or fun t => ?_
    rw [matches_temporary_bind]
    simp only [Headed, mem_cons, not_mem_nil, or_false, exists_eq_or_imp, exists_eq_left]
  simp only [Headed, two, temporaries, mem_append, mem_map, or_and_right, and_or_left,
    exists_or, exists_exists_and_eq_and]

theorem headed_optTemporary :
    Headed heads (opt temporary >>= fun _ => p) s ↔ Headed (heads ++ temporaries heads) p s := by
  have cases (t : List Char) : (opt temporary >>= fun _ => p).Matches t ↔
      (p <|> (temporary >>= fun _ => p)).Matches t := by
    rw [matches_opt_bind (fun _ _ => Iff.rfl), matches_or, or_comm]
  rw [headed_congr cases, headed_or, headed_temporary]
  simp only [Headed, mem_append, or_and_right, exists_or]

theorem headed_optWords :
    Headed heads (optWords os >>= fun _ => p) s ↔ Headed (heads ++ heads.map (· ++ os)) p s :=
  headed_opt fun _ => Iff.rfl

/-! ## The leads of table statements -/

def creates : List (List String) := [["CREATE"], ["CREATE", "OR", "REPLACE"]]

/-- The phrases of `persistentLeadPattern`. -/
def persistentLeads : List (List String × String) :=
  [([], "INSERT"), ([], "UPDATE"), ([], "DELETE"), ([], "MERGE"), ([], "TRUNCATE")] ++
  (creates.map (·, "TABLE") ++ [(["DROP"], "TABLE")])

/-- The phrases of `unsupportedMutationLeadPattern`. -/
def unsupportedLeads : List (List String × String) :=
  let kinds := ["SCHEMA", "FUNCTION", "PROCEDURE", "MODEL"]
  [(["ALTER"], "TABLE")] ++
  ((temporaries creates).map (·, "TABLE") ++
    kinds.flatMap (fun k => (creates ++ temporaries creates).map (·, k)) ++
  (kinds.map (["DROP"], ·) ++
  ([([], "CALL"), ([], "GRANT"), ([], "REVOKE")] ++
  ([(["EXPORT"], "DATA")] ++
  ([(["LOAD"], "DATA")] ++
  ([([], "BEGIN")] ++
  ([(["START"], "TRANSACTION")] ++ [([], "COMMIT"), ([], "ROLLBACK")])))))))

theorem persistentLead_iff (trimmed : ∀ c ∈ s.head?, ¬isWhite c) :
    persistentLeadPattern.Matches s ↔ Led persistentLeads s := by
  rw [persistentLeadPattern, matches_white_bind (fun _ _ => Iff.rfl) trimmed, ← headed_nil]
  simp only [headed_or, headed_anyKeyword, headed_words, headed_optWords,
    headed_keyword, ← led_append]
  exact Iff.rfl

theorem unsupportedLead_iff (trimmed : ∀ c ∈ s.head?, ¬isWhite c) :
    unsupportedMutationLeadPattern.Matches s ↔ Led unsupportedLeads s := by
  rw [unsupportedMutationLeadPattern, matches_white_bind (fun _ _ => Iff.rfl) trimmed,
    ← headed_nil]
  simp only [headed_or, headed_anyKeyword, headed_words, headed_optWords,
    headed_keyword, headed_temporary, headed_optTemporary, ← led_append]
  exact Iff.rfl

/-- The phrases that a table, dataset or session statement may start with. -/
def leads : List (List String × String) := persistentLeads ++ unsupportedLeads

/-! ## A keyword with white space behind it -/

/-- Whether every spelling of the word ends with an ASCII letter. -/
def plain (k : String) : Bool :=
  k.toList.getLast?.any fun a =>
    GoText.isLower (GoText.foldRune a) && GoText.foldRune a != 's' && GoText.foldRune a != 'k'

theorem isWord_of_fold {a : Char} (h : GoText.foldRune c = a) (lower : GoText.isLower a)
    (hs : a ≠ 's') (hk : a ≠ 'k') : isWord c := by
  rw [GoText.foldRune] at h
  split at h
  next upper => simp [isWord, upper]
  split at h
  · exact absurd h.symm hs
  split at h
  · exact absurd h.symm hk
  · subst h
    simp [isWord, lower]

theorem not_isWord_of_isWhite (h : isWhite c) : isWord c = false := by
  simp only [isWhite, Bool.or_eq_true, beq_iff_eq] at h
  rcases h with (((rfl | rfl) | rfl) | rfl) | rfl <;> decide

theorem exists_last (hk : plain k) {w : List Char} (hw : fold w = fold k.toList) :
    ∃ b, w.getLast? = some b ∧ isWord b := by
  have last : w.getLast?.map GoText.foldRune = k.toList.getLast?.map GoText.foldRune := by
    rw [← getLast?_map, ← getLast?_map]
    exact congrArg List.getLast? hw
  rw [plain] at hk
  cases hl : k.toList.getLast? with
  | none => rw [hl] at hk; cases hk
  | some a =>
    rw [hl, Option.map_some] at last
    obtain ⟨b, hb, same⟩ := Option.map_eq_some_iff.mp last
    simp only [hl, Option.any_some, Bool.and_eq_true, bne_iff_ne] at hk
    exact ⟨b, hb, isWord_of_fold same hk.1.1 hk.1.2 hk.2⟩

theorem keyword_of_spaces (hk : plain k) (h : (lead [k] p).Matches s) :
    (keyword k.toList).Matches s := by
  obtain ⟨w, g, t, rfl, hw, ne, white, -⟩ := matches_lead_cons.mp h
  refine matches_keyword.mpr ⟨w, g ++ t, rfl, hw, ?_⟩
  obtain ⟨c, g, rfl⟩ := exists_cons_of_ne_nil ne
  obtain ⟨b, last, hb⟩ := exists_last hk hw
  rw [boundary, last]
  simp [hb, not_isWord_of_isWhite (white c mem_cons_self)]

theorem led_of_headed (heads : List (List String)) (hk : plain k)
    (h : Headed (heads.map (· ++ [k])) p s) : Led (heads.map (·, k)) s := by
  obtain ⟨_, mem, h⟩ := h
  obtain ⟨ks, hks, rfl⟩ := mem_map.mp mem
  refine ⟨(ks, k), mem_map_of_mem hks, ?_⟩
  rw [lead_append] at h
  obtain ⟨y, hy, h⟩ := matches_bind.mp h
  exact matches_bind.mpr ⟨y, hy, keyword_of_spaces hk h⟩

/-! ## Table statements -/

theorem isSpace_of_isWhite (h : isWhite c) : GoText.isSpace c := by
  simp only [isWhite, Bool.or_eq_true, beq_iff_eq] at h
  rcases h with (((rfl | rfl) | rfl) | rfl) | rfl <;> decide

theorem head_statementText (q : List Char) : ∀ c ∈ (statementText q).head?, ¬isWhite c :=
  fun c hc white => (trimmed_trimSemicolon _).1 c hc (isSpace_of_isWhite white)

theorem Led.mono {xs ys : List (List String × String)} (h : Led xs s) (sub : xs ⊆ ys) :
    Led ys s := by
  obtain ⟨x, mem, h⟩ := h
  exact ⟨x, sub mem, h⟩

/-- A pattern that starts with keywords. -/
theorem headed_start (trimmed : ∀ c ∈ s.head?, ¬isWhite c) :
    (white >>= fun _ => words ks >>= fun _ => p).Matches s ↔ Headed [ks] p s := by
  rw [matches_white_bind (fun _ _ => Iff.rfl) trimmed, ← headed_nil, headed_words]
  exact Iff.rfl

/-- Each target pattern starts with a phrase of `persistentLeadPattern`. -/
theorem led_of_candidate {c : Candidate} (mem : c ∈ candidates)
    (trimmed : ∀ c ∈ s.head?, ¬isWhite c) (h : c.pattern.Matches s) : Led persistentLeads s := by
  simp only [candidates, mem_cons, not_mem_nil, or_false] at mem
  have one {k : String} {p : Pattern Heading} (hk : plain k) (h : Headed [[k]] p s)
      (mem : ([], k) ∈ persistentLeads) : Led persistentLeads s :=
    (led_of_headed [[]] hk h).mono fun x hx => mem_singleton.mp hx ▸ mem
  rcases mem with rfl | rfl | rfl | rfl | rfl | rfl | rfl
  · exact one (k := "INSERT") (by decide) ((headed_start trimmed).mp h) (by decide)
  · exact one (k := "UPDATE") (by decide) ((headed_start trimmed).mp h) (by decide)
  · exact one (k := "DELETE") (by decide) ((headed_start trimmed).mp h) (by decide)
  · exact one (k := "MERGE") (by decide) ((headed_start trimmed).mp h) (by decide)
  · have h : Headed [["TRUNCATE"]] (words ["TABLE"] >>= fun _ => _) s :=
      headed_words.mpr ((headed_start trimmed).mp h)
    exact one (by decide) h (by decide)
  · simp only [createTargetPattern] at h
    rw [headed_start trimmed, headed_opt (fun t => by simp only [matches_bind, matches_pure]),
      headed_words] at h
    exact (led_of_headed creates (by decide) h).mono (by decide)
  · exact (led_of_headed [["DROP"]] (by decide) ((headed_start trimmed).mp h)).mono (by decide)

/-! ## Views -/

/-- The keywords of `CREATE VIEW`. -/
def createViewHeads : List (List String) :=
  [["CREATE", "VIEW"],
   ["CREATE", "OR", "REPLACE", "VIEW"],
   ["CREATE", "MATERIALIZED", "VIEW"],
   ["CREATE", "OR", "REPLACE", "MATERIALIZED", "VIEW"],
   ["CREATE", "VIEW", "IF", "NOT", "EXISTS"],
   ["CREATE", "OR", "REPLACE", "VIEW", "IF", "NOT", "EXISTS"],
   ["CREATE", "MATERIALIZED", "VIEW", "IF", "NOT", "EXISTS"],
   ["CREATE", "OR", "REPLACE", "MATERIALIZED", "VIEW", "IF", "NOT", "EXISTS"]]

theorem createView_iff (trimmed : ∀ c ∈ s.head?, ¬isWhite c) :
    createViewTargetPattern.Matches s ↔ Headed createViewHeads persistentTargetExpression s := by
  rw [createViewTargetPattern, matches_white_bind (fun _ _ => Iff.rfl) trimmed, ← headed_nil,
    headed_words, headed_opt (fun t => by simp only [matches_bind, matches_pure]),
    headed_opt (fun t => by simp only [matches_bind, matches_pure]), headed_words,
    headed_opt (fun t => by simp only [matches_bind, matches_pure])]
  refine headed_congr fun t => ?_
  refine matches_bind_of_always fun a r => ?_
  exact matches_bind.mpr ⟨([], r), mem_many.mpr ⟨by simp, rfl⟩, matches_pure _ _⟩

/-- The keywords of `DROP VIEW`. -/
def dropViewHeads : List (List String) :=
  [["DROP", "VIEW"],
   ["DROP", "MATERIALIZED", "VIEW"],
   ["DROP", "VIEW", "IF", "EXISTS"],
   ["DROP", "MATERIALIZED", "VIEW", "IF", "EXISTS"]]

/-- A target and nothing behind it. -/
def lastTarget : Pattern Unit := do
  let _ ← persistentTargetExpression
  let _ ← white
  eos

theorem dropView_iff (trimmed : ∀ c ∈ s.head?, ¬isWhite c) :
    dropViewTargetPattern.Matches s ↔ Headed dropViewHeads lastTarget s := by
  rw [dropViewTargetPattern, matches_white_bind (fun _ _ => Iff.rfl) trimmed, ← headed_nil,
    headed_words, headed_opt (fun t => by simp only [matches_bind, matches_pure]), headed_words,
    headed_opt (fun t => by simp only [matches_bind, matches_pure])]
  refine headed_congr fun t => ?_
  simp only [lastTarget, matches_bind (p := persistentTargetExpression),
    matches_bind (p := white), matches_bind_of_always fun _ _ => matches_pure _ _]

/-! ## The classification -/

/-- A table statement is recognized by its leading phrase. -/
theorem parsePersistentSQLStatement_isSome :
    (parsePersistentSQLStatement projectID q).isSome ↔ Led leads (statementText q) := by
  have trimmed := head_statementText q
  rw [parsePersistentSQLStatement, leads, led_append, ← persistentLead_iff trimmed,
    ← unsupportedLead_iff trimmed]
  split
  next parsed found =>
    refine ⟨fun _ => .inl ?_, fun _ => rfl⟩
    obtain ⟨c, mem, parse⟩ := exists_of_findSome?_eq_some found
    rw [persistentLead_iff trimmed]
    refine led_of_candidate mem trimmed ?_
    rw [Candidate.parse] at parse
    split at parse
    · cases parse
    next m found => exact matches_of_find found
  · by_cases lead : persistentLeadPattern.Matches (statementText q)
    · rw [if_pos lead]
      exact ⟨fun _ => .inl lead, fun _ => rfl⟩
    · rw [if_neg lead]
      by_cases unsupported : unsupportedMutationLeadPattern.Matches (statementText q)
      · rw [if_pos unsupported]
        exact ⟨fun _ => .inr unsupported, fun _ => rfl⟩
      · rw [if_neg unsupported]
        exact ⟨nofun, fun h => absurd h (not_or.mpr ⟨lead, unsupported⟩)⟩

/-- A view statement: `CREATE VIEW` and a target, or `DROP VIEW` and nothing but a target. -/
def ViewStatement (s : List Char) : Prop :=
  Headed dropViewHeads lastTarget s ∨ Headed createViewHeads persistentTargetExpression s

theorem parsePersistentViewStatement_isSome :
    (parsePersistentViewStatement projectID q).isSome ↔ ViewStatement (statementText q) := by
  have trimmed := head_statementText q
  rw [parsePersistentViewStatement, ViewStatement, ← dropView_iff trimmed,
    ← createView_iff trimmed, Matches, Matches]
  split
  next found => simp only [found, Option.isSome_some, true_or]
  next none =>
    split
    next none' => simp only [none, none', Option.isSome_none, Bool.false_eq_true, or_self]
    next found => simp only [found, Option.isSome_some, or_true]

theorem led_of_createSchema (h : (parseCreateSchemaStatement q).isSome) :
    Led leads (statementText q) := by
  rw [parseCreateSchemaStatement, Option.isSome_map] at h
  have h : createSchemaTargetPattern.Matches (statementText q) := h
  exact (led_of_headed [["CREATE"]] (by decide)
    ((headed_start (head_statementText q)).mp h)).mono (by decide)

theorem led_of_parseAlterTable {γ : Type} {action : List Char → Option γ}
    (h : (parseAlterTable action projectID q).isSome) : Led leads (statementText q) := by
  rw [parseAlterTable, matchAlterTableLead] at h
  cases found : alterTableTargetPattern.find (statementText q) with
  | none =>
    rw [found] at h
    cases h
  | some m =>
    have h : alterTableTargetPattern.Matches (statementText q) := matches_of_find found
    exact (led_of_headed [["ALTER"]] (by decide)
      ((headed_start (head_statementText q)).mp h)).mono (by decide)

end LocaQL.Sql
