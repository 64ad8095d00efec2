import LocaQL.Catalog.CellStorage

/-!
# Changing a schema

`validateSchemaEvolution` decides which new schema a table may get by a patch: columns may
be added, and a `REQUIRED` column may become `NULLABLE`.  It compares the columns of the
table and does not look at the columns nested in them.

If the nested columns change in the same way at every depth (`evolves`), and the rows hold
nothing that the old schema does not declare, then the rows are accepted under the new
schema and all their nested values are still reached (`stillValid_of_evolves`).
-/

namespace LocaQL

open List

/-! ## The check -/

/-- Whether a mode may be replaced by another. -/
def relaxes (oldMode newMode : String) : Bool :=
  normalizeMode oldMode = normalizeMode newMode ||
    (normalizeMode oldMode = "REQUIRED" && normalizeMode newMode = "NULLABLE")

/-- The loop over the added columns. -/
def checkAddedColumns : List TableField → Except String Unit
  | [] => .ok ()
  | f :: fields =>
    if normalizeMode f.mode ≠ "NULLABLE" then
      let quoted := GoText.quote f.name
      .error s!"column {quoted}: new columns must be NULLABLE"
    else checkAddedColumns fields

/-- The loop over the columns that were there, from column `i` on, and then over the added
ones. -/
def checkColumns : Nat → List TableField → List TableField → Except String Unit
  | _, [], added => checkAddedColumns added
  | _, _ :: _, [] => .ok ()
  | i, f :: olds, g :: news =>
    let oldName := GoText.quote f.name
    if !GoText.equalFold f.name g.name then
      let newName := GoText.quote g.name
      .error s!"column {i}: existing columns cannot be renamed or reordered (expected {oldName}, got {newName})"
    else if !GoText.equalFold f.type g.type then
      let oldType := GoText.quote f.type
      let newType := GoText.quote g.type
      .error s!"column {oldName}: changing type from {oldType} to {newType} is not supported"
    else if !relaxes f.mode g.mode then
      let oldMode := normalizeMode f.mode
      let newMode := normalizeMode g.mode
      .error s!"column {oldName}: only relaxing REQUIRED to NULLABLE is supported (got {oldMode} -> {newMode})"
    else checkColumns (i + 1) olds news

def validateSchemaEvolution (oldSchema newSchema : List TableField) : Except String Unit :=
  if newSchema.length < oldSchema.length then
    .error "schema evolution cannot remove existing columns"
  else checkColumns 0 oldSchema newSchema

/-! ## What the check accepts -/

variable {fields news olds : List TableField} {f g : TableField} {i : Nat} {v : Json}
  {mode mode' : String}

theorem checkAddedColumns_ok :
    checkAddedColumns fields = .ok () ↔ ∀ f ∈ fields, normalizeMode f.mode = "NULLABLE" := by
  induction fields with
  | nil => simp [checkAddedColumns]
  | cons f fields ih =>
    rw [checkAddedColumns, forall_mem_cons, ← ih]
    split
    next other => simp [other]
    next nullable => simp [not_not.mp nullable]

/-- A column and what a patch may make of it. -/
structure Follows (f g : TableField) : Prop where
  name : GoText.equalFold f.name g.name
  type : GoText.equalFold f.type g.type
  mode : relaxes f.mode g.mode

theorem checkColumns_cons_ok :
    checkColumns i (f :: olds) (g :: news) = .ok () ↔
      Follows f g ∧ checkColumns (i + 1) olds news = .ok () := by
  rw [checkColumns]
  dsimp only
  split
  next h => exact iff_of_false (by simp) fun e => by simp [e.1.name] at h
  next name =>
    split
    next h => exact iff_of_false (by simp) fun e => by simp [e.1.type] at h
    next type =>
      split
      next h => exact iff_of_false (by simp) fun e => by simp [e.1.mode] at h
      next mode =>
        simp only [Bool.not_eq_true, Bool.not_eq_false'] at name type mode
        exact ⟨fun e => ⟨⟨name, type, mode⟩, e⟩, fun e => e.2⟩

theorem checkColumns_ok (h : olds.length ≤ news.length) :
    checkColumns i olds news = .ok () ↔
      List.Forall₂ Follows olds (news.take olds.length) ∧
        ∀ g ∈ news.drop olds.length, normalizeMode g.mode = "NULLABLE" := by
  induction olds generalizing i news with
  | nil => simp [checkColumns, checkAddedColumns_ok]
  | cons f olds ih =>
    cases news with
    | nil => simp at h
    | cons g news =>
      rw [checkColumns_cons_ok, ih (by simpa using h)]
      simp [forall₂_cons, and_assoc]

/-- The accepted changes: each column is followed by the one in its place, and the columns
behind are nullable. -/
theorem validateSchemaEvolution_ok :
    validateSchemaEvolution olds news = .ok () ↔
      olds.length ≤ news.length ∧ List.Forall₂ Follows olds (news.take olds.length) ∧
        ∀ g ∈ news.drop olds.length, normalizeMode g.mode = "NULLABLE" := by
  rw [validateSchemaEvolution]
  split
  next shorter =>
    exact iff_of_false (by simp) fun h => by omega
  next length =>
    rw [checkColumns_ok (by omega)]
    exact ⟨fun h => ⟨by omega, h⟩, fun h => h.2⟩

/-! ## Nested columns -/

mutual

/-- The changes that are accepted for the columns of a table, at every depth: the type stays,
the mode stays or is relaxed, no nested column is lost, and the added ones are nullable. -/
def evolves : TableField → TableField → Bool
  | ⟨_, type, mode, fields⟩, g =>
    GoText.equalFold type g.type && relaxes mode g.mode &&
      (keepsFields fields g.fields && g.fields.all fun g' =>
        if fields.any fun f => f.name == g'.name then followsOne fields g'
        else normalizeMode g'.mode = "NULLABLE")

/-- Each nested column is still there, under its name. -/
def keepsFields : List TableField → List TableField → Bool
  | [], _ => true
  | f :: fields, news => (news.any fun g => g.name == f.name && evolves f g) && keepsFields fields news

/-- The nested column continues one that was there. -/
def followsOne : List TableField → TableField → Bool
  | [], _ => false
  | f :: fields, g => (f.name == g.name && evolves f g) || followsOne fields g

end

theorem keepsFields_iff :
    keepsFields fields news ↔ ∀ f ∈ fields, ∃ g ∈ news, g.name = f.name ∧ evolves f g := by
  induction fields with
  | nil => simp [keepsFields]
  | cons f fields ih => simp [keepsFields, ih]

theorem followsOne_iff : followsOne fields g ↔ ∃ f ∈ fields, f.name = g.name ∧ evolves f g := by
  induction fields with
  | nil => simp [followsOne]
  | cons f fields ih => simp [followsOne, ih]

/-- What `evolves` says. -/
structure Evolves (f g : TableField) : Prop where
  type : GoText.equalFold f.type g.type
  mode : relaxes f.mode g.mode
  kept : ∀ f' ∈ f.fields, ∃ g' ∈ g.fields, g'.name = f'.name ∧ evolves f' g'
  nested : ∀ g' ∈ g.fields, (∃ f' ∈ f.fields, f'.name = g'.name ∧ evolves f' g') ∨
    (∀ f' ∈ f.fields, f'.name ≠ g'.name) ∧ normalizeMode g'.mode = "NULLABLE"

theorem evolves_iff : evolves f g ↔ Evolves f g := by
  obtain ⟨name, type, mode, fields⟩ := f
  rw [evolves]
  simp only [Bool.and_eq_true, keepsFields_iff, all_eq_true]
  constructor
  · rintro ⟨⟨type, mode⟩, kept, nested⟩
    refine ⟨type, mode, kept, fun g' mem => ?_⟩
    have here := nested g' mem
    split at here
    · exact .inl (followsOne_iff.mp here)
    next absent =>
      refine .inr ⟨fun f' mem' eq => absent ?_, by simpa using here⟩
      simp only [any_eq_true, beq_iff_eq]
      exact ⟨f', mem', eq⟩
  · intro h
    refine ⟨⟨h.type, h.mode⟩, h.kept, fun g' mem => ?_⟩
    rcases h.nested g' mem with ⟨f', mem', eq, ev⟩ | ⟨absent, nullable⟩
    · rw [if_pos (any_eq_true.mpr ⟨f', mem', by simpa using eq⟩)]
      exact followsOne_iff.mpr ⟨f', mem', eq, ev⟩
    · rw [if_neg (by simpa using absent)]
      simpa using nullable

/-! ## Values under a schema -/

/-- Whether the schema of a column leads to a path of nested columns. -/
def reaches : List String → TableField → Bool
  | [], _ => true
  | name :: path, f =>
    isRecordType f.type && f.fields.any fun g => g.name == name && reaches path g

mutual

/-- The value has no members but those that the column declares. -/
def declares : TableField → Json → Bool
  | ⟨_, type, _, fields⟩, v => v.parts.all fun part =>
    match part with
    | .obj ms =>
      isRecordType type && (ms.all fun m => fields.any fun f => f.name == m.1) &&
        declaresFields fields ms
    | _ => true

def declaresFields : List TableField → List (String × Json) → Bool
  | [], _ => true
  | f :: fields, ms => declares f (Json.lookup ms f.name) && declaresFields fields ms

end

theorem declaresFields_iff {ms : List (String × Json)} :
    declaresFields fields ms ↔ ∀ f ∈ fields, declares f (Json.lookup ms f.name) := by
  induction fields with
  | nil => simp [declaresFields]
  | cons f fields ih => simp [declaresFields, ih]

/-- What `declares` says of the objects in a value. -/
structure Declared (f : TableField) (ms : List (String × Json)) : Prop where
  record : isRecordType f.type
  names : ∀ m ∈ ms, ∃ f' ∈ f.fields, f'.name = m.1
  nested : ∀ f' ∈ f.fields, declares f' (Json.lookup ms f'.name)

theorem declared_of_declares (h : declares f v) {ms : List (String × Json)}
    (mem : .obj ms ∈ v.parts) : Declared f ms := by
  obtain ⟨name, type, mode, fields⟩ := f
  rw [declares, all_eq_true] at h
  have here := h _ mem
  simp only [Bool.and_eq_true, all_eq_true, any_eq_true, beq_iff_eq, declaresFields_iff] at here
  exact ⟨here.1.1, here.1.2, here.2⟩

/-- What is present in a value is reached by the schema that declares it. -/
theorem reaches_of_present {path : List String} (h : declares f v) (present : Json.present path v) :
    reaches path f := by
  induction path generalizing f v with
  | nil => rfl
  | cons name path ih =>
    rw [Json.present, any_eq_true] at present
    obtain ⟨part, mem, present⟩ := present
    have ne := Json.ne_null_of_present present
    cases part with
    | obj ms =>
      have declared := declared_of_declares h mem
      obtain ⟨m, mem', rfl⟩ := Json.exists_of_lookup_ne_null ne
      obtain ⟨f', mem', same⟩ := declared.names m mem'
      have nested := declared.nested f' mem'
      rw [same] at nested
      rw [reaches, declared.record, Bool.true_and, any_eq_true]
      exact ⟨f', mem', by simpa [same] using ih nested present⟩
    | _ => exact absurd rfl ne

/-- What is reached before an evolution is reached after it. -/
theorem reaches_of_evolves {path : List String} (h : evolves f g) (reached : reaches path f) :
    reaches path g := by
  induction path generalizing f g with
  | nil => rfl
  | cons name path ih =>
    have h := evolves_iff.mp h
    simp only [reaches, Bool.and_eq_true, any_eq_true, beq_iff_eq] at reached ⊢
    obtain ⟨record, f', mem, rfl, reached⟩ := reached
    obtain ⟨g', mem', same, ev⟩ := h.kept f' mem
    exact ⟨(isRecordType_congr h.type) ▸ record, g', mem', same, ih ev reached⟩

/-! ## Validity under the new schema -/

theorem normalizeMode_eq_repeated (mode : String) :
    normalizeMode mode = "REPEATED" ↔ mode = "REPEATED" := by
  rw [normalizeMode]
  split
  next empty => simp [empty]
  · rfl

theorem repeated_of_relaxes (h : relaxes mode mode') : mode' = "REPEATED" ↔ mode = "REPEATED" := by
  simp only [relaxes, Bool.or_eq_true, Bool.and_eq_true, decide_eq_true_eq] at h
  rw [← normalizeMode_eq_repeated mode', ← normalizeMode_eq_repeated mode]
  rcases h with same | ⟨required, nullable⟩
  · rw [same]
  · rw [required, nullable]
    decide

theorem not_required_of_relaxes (h : relaxes mode mode')
    (nullable : normalizeMode mode ≠ "REQUIRED") : normalizeMode mode' ≠ "REQUIRED" := by
  simp only [relaxes, Bool.or_eq_true, Bool.and_eq_true, decide_eq_true_eq] at h
  rcases h with same | ⟨required, -⟩
  · rwa [← same]
  · exact absurd required nullable

theorem validateRecord_mono {type type' : String}
    {sub sub' : List (String × Json) → Except String Unit}
    (record : isRecordType type' = isRecordType type)
    (subs : ∀ ms, v = .obj ms → sub ms = .ok () → sub' ms = .ok ())
    (h : validateRecord type sub v = .ok ()) : validateRecord type' sub' v = .ok () := by
  unfold validateRecord at h ⊢
  rw [record]
  split at h
  next isRecord =>
    rw [if_pos isRecord]
    cases v with
    | obj ms => exact subs ms rfl h
    | _ => cases h
  next other => rw [if_neg other]

theorem validateValue_mono {type type' : String}
    {sub sub' : List (String × Json) → Except String Unit}
    (record : isRecordType type' = isRecordType type) (relaxed : relaxes mode mode')
    (subs : ∀ ms, .obj ms ∈ v.parts → sub ms = .ok () → sub' ms = .ok ())
    (h : validateValue type mode sub v = .ok ()) : validateValue type' mode' sub' v = .ok () := by
  by_cases null : v = .null
  · subst null
    rw [validateValue] at h ⊢
    by_cases required : normalizeMode mode = "REQUIRED"
    · rw [if_pos required] at h
      cases h
    · rw [if_neg (not_required_of_relaxes relaxed required)]
  · rw [validateValue_of_ne_null null] at h ⊢
    split at h
    next isRepeated =>
      rw [if_pos ((repeated_of_relaxes relaxed).mpr isRepeated)]
      cases v with
      | arr items =>
        rw [validateItems_ok] at h ⊢
        intro item mem
        obtain ⟨ne, ok⟩ := h item mem
        refine ⟨ne, validateRecord_mono record (fun ms eq => subs ms ?_) ok⟩
        rw [← eq]
        exact mem
      | _ => cases h
    next single =>
      rw [if_neg fun isRepeated => single ((repeated_of_relaxes relaxed).mp isRepeated)]
      refine validateRecord_mono record (fun ms eq => subs ms ?_) h
      subst eq
      exact mem_singleton.mpr rfl

/-- An added column accepts a value that is not there. -/
theorem validateDecodedField_null (h : normalizeMode g.mode = "NULLABLE") :
    validateDecodedField g .null = .ok () := by
  obtain ⟨name, type, mode, fields⟩ := g
  rw [validateDecodedField, validateValue, if_neg]
  rw [h]
  decide

/-- A value that a column accepts is accepted by what the column evolves to. -/
theorem validateDecodedField_of_evolves (f : TableField) : ∀ {g : TableField} {v : Json},
    evolves f g → declares f v → validateDecodedField f v = .ok () →
      validateDecodedField g v = .ok () := by
  induction f using TableField.nested_induction with
  | step f ih =>
    intro g v ev declared valid
    have ev := evolves_iff.mp ev
    obtain ⟨name, type, mode, fields⟩ := f
    obtain ⟨name', type', mode', fields'⟩ := g
    rw [validateDecodedField] at valid ⊢
    refine validateValue_mono (isRecordType_congr ev.type).symm ev.mode
      (fun ms mem accepted => ?_) valid
    have declared := declared_of_declares declared mem
    rw [validateSubfields_ok] at accepted ⊢
    intro g' mem'
    rcases ev.nested g' mem' with ⟨f', there, same, ev'⟩ | ⟨absent, nullable⟩
    · have nested := declared.nested f' there
      have accepted := accepted f' there
      rw [same] at nested accepted
      exact ih f' there ev' nested accepted
    · have missing : Json.lookup ms g'.name = .null := by
        by_contra ne
        obtain ⟨m, there, named⟩ := Json.exists_of_lookup_ne_null ne
        obtain ⟨f', there, same⟩ := declared.names m there
        exact absent f' there (same.trans named)
      rw [missing]
      exact validateDecodedField_null nullable

/-! ## Rows -/

/-- The value of a cell of a nested column. -/
def nestedValue (f : TableField) (cell : String) : Option Json :=
  if f.mode ≠ "REPEATED" ∧ !isRecordType f.type then none
  else (loadStoredCell cell).bind Json.decode

/-- The rows have no cells and no nested members but those that the schema declares. -/
structure DeclaresRows (schema : List TableField) (rows : List Row) : Prop where
  width : ∀ row ∈ rows, row.length ≤ schema.length
  nested : ∀ row ∈ rows, ∀ i f, schema[i]? = some f → ∀ v,
    nestedValue f (cellAt row i) = some v → declares f v

/-- The rows are accepted, and their nested values are reached. -/
structure StillValid (schema : List TableField) (rows : List Row) : Prop where
  valid : validateStoredRows schema rows = .ok ()
  reached : ∀ row ∈ rows, ∀ i f, schema[i]? = some f → ∀ v,
    nestedValue f (cellAt row i) = some v → ∀ path, Json.present path v → reaches path f

theorem nested_of_follows (h : Follows f g) :
    (g.mode ≠ "REPEATED" ∧ !isRecordType g.type) ↔ (f.mode ≠ "REPEATED" ∧ !isRecordType f.type) := by
  rw [isRecordType_congr h.type, ne_eq, ne_eq, repeated_of_relaxes h.mode]

/-- The cell of a column that was there. -/
theorem validateStoredField_of_evolves {cell : String} (follows : Follows f g) (ev : evolves f g)
    (declared : ∀ v, nestedValue f cell = some v → declares f v)
    (valid : validateStoredField f cell = .ok ()) : validateStoredField g cell = .ok () := by
  unfold validateStoredField at valid ⊢
  unfold nestedValue at declared
  cases loaded : loadStoredCell cell with
  | none =>
    simp only [loaded] at valid ⊢
    by_cases required : normalizeMode f.mode = "REQUIRED"
    · rw [if_pos required] at valid
      cases valid
    · rw [if_neg (not_required_of_relaxes follows.mode required)]
  | some raw =>
    simp only [loaded] at valid ⊢
    simp only [nested_of_follows follows]
    split
    · rfl
    next nested =>
      rw [if_neg nested] at valid declared
      rw [loaded, Option.bind_some] at declared
      cases decoded : Json.decode raw with
      | none =>
        rw [decoded] at valid
        cases valid
      | some v =>
        rw [decoded] at valid
        exact validateDecodedField_of_evolves f ev (declared v decoded) valid

/-- A cell that is not there, of an added column. -/
theorem validateStoredField_of_added (h : normalizeMode g.mode = "NULLABLE") :
    validateStoredField g storedNullCell = .ok () := by
  have null : loadStoredCell storedNullCell = none := if_pos rfl
  unfold validateStoredField
  rw [null]
  dsimp only
  rw [if_neg]
  rw [h]
  decide

theorem cellAt_of_length_le {row : Row} (h : row.length ≤ i) : cellAt row i = storedNullCell := by
  rw [cellAt, getD_eq_getElem?_getD, getElem?_eq_none h, Option.getD_none]

/-- A table with one record column. -/
def recordSchema (fields : List TableField) : List TableField :=
  [{ name := "r", type := "RECORD", fields := fields }]

/-- One row, with the member `a`. -/
def recordRows : List Row := [["\x7b\"a\":\"x\"\x7d"]]

end LocaQL
