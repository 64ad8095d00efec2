import LocaQL.Catalog.Partitioning
import LocaQL.Sql.Projections
import Mathlib.Logic.Function.Basic

/-!
# The pseudocolumns of `SELECT *`

The engine knows the pseudocolumns of a table as two columns of its own, so a `*` brings them
along.  `hideWildcardIngestionPseudocolumns` takes them off again: it counts the items of the
projection that name a pseudocolumn, keeps as many columns of that pseudocolumn as there are such
items, the first ones, and drops the others.

The columns that are kept are the first ones, not those of the items.  A `*` that stands before a
direct item hands out its own columns in the place of the item's, so the projection comes out in
the order of its list only if the direct items behind the first `*` follow it at once, in the
order in which the columns are handed out (`hidden_iff`).
-/

namespace LocaQL.Sql

open List

/-! ## The model -/

/-- The column that the engine has for a pseudocolumn. -/
def Pseudo.column : Pseudo → String
  | .time => ingestionPartitionTimeColumn
  | .date => ingestionPartitionDateColumn

/-- The pseudocolumn that has a column of the name, in lower case. -/
def pseudoOf (name : List Char) : Option Pseudo :=
  if name = Pseudo.time.column.toList then some .time
  else if name = Pseudo.date.column.toList then some .date
  else none

def fieldPseudo (field : TableField) : Option Pseudo :=
  pseudoOf (GoText.toLower field.name.toList)

/-- The loop over the schema: the columns that are kept, each with its index. -/
def keptFields : (Pseudo → Nat) → List (TableField × Nat) → List (Nat × TableField)
  | _, [] => []
  | keep, (field, i) :: rest =>
    match fieldPseudo field with
    | none => (i, field) :: keptFields keep rest
    | some w =>
      if keep w = 0 then keptFields keep rest
      else (i, { field with name := w.name }) ::
        keptFields (Function.update keep w (keep w - 1)) rest

def hideWildcardIngestionPseudocolumns (queryText : List Char) (schema : List TableField)
    (rows : List Row) : List TableField × List Row :=
  let kept := keptFields (directPseudocolumnProjectionCounts queryText) schema.zipIdx
  if kept.length = schema.length then (kept.map Prod.snd, rows)
  else (kept.map Prod.snd, rows.map fun row => kept.map fun k => row.getD k.1 storedNullCell)

/-! ## Projections -/

/-- An item of a projection, over the columns `α` that are no pseudocolumns. -/
inductive Item (α : Type) where
  | star
  | direct (w : Pseudo)
  | other (column : α)

variable {n : Pseudo → Nat}

section

variable {α : Type} {items : List (Item α)} {users : List α}

def Item.pseudo : Item α → Option Pseudo
  | direct w => some w
  | _ => none

/-- The columns of an item in the engine. -/
def Item.expand (users : List α) : Item α → List (Pseudo ⊕ α)
  | star => users.map .inr ++ [.inl .time, .inl .date]
  | direct w => [.inl w]
  | other c => [.inr c]

/-- The columns of an item in the answer. -/
def Item.shown (users : List α) : Item α → List (Pseudo ⊕ α)
  | star => users.map .inr
  | direct w => [.inl w]
  | other c => [.inr c]

def directs (items : List (Item α)) : List Pseudo := items.filterMap Item.pseudo

/-- The first columns of a pseudocolumn are kept, as many as are asked for. -/
def keepFirst : (Pseudo → Nat) → List (Pseudo ⊕ α) → List (Pseudo ⊕ α)
  | _, [] => []
  | n, .inr c :: cs => .inr c :: keepFirst n cs
  | n, .inl w :: cs =>
    if n w = 0 then keepFirst n cs
    else .inl w :: keepFirst (Function.update n w (n w - 1)) cs

/-- The pseudocolumns that a `*` hands out: those that the items behind it still ask for, beyond
the ones that are `pending`. -/
def handed (pending : List Pseudo) (behind : List (Item α)) : List Pseudo :=
  [.time, .date].filter fun w => pending.count w < (directs behind).count w

/-- The direct items ask for the pseudocolumns in the order in which they have been handed out.
The `pending` ones have been handed out by a `*`, and not been asked for.  A direct item takes the
first of them and hands out its own column; no other column comes before the last of them. -/
def Ordered (users : List α) : List Pseudo → List (Item α) → Prop
  | _, [] => True
  | [], .direct _ :: items => Ordered users [] items
  | w :: pending, .direct x :: items =>
    w = x ∧ Ordered users
      (pending ++ if pending.count x < (directs items).count x then [x] else []) items
  | pending, .other _ :: items => pending = [] ∧ Ordered users [] items
  | pending, .star :: items =>
    (pending = [] ∨ users = []) ∧ Ordered users (pending ++ handed pending items) items

/-! ## Keeping the first columns -/

theorem keepFirst_map_inr (n : Pseudo → Nat) (users : List α) (cs : List (Pseudo ⊕ α)) :
    keepFirst n (users.map .inr ++ cs) = users.map .inr ++ keepFirst n cs := by
  induction users with
  | nil => rfl
  | cons c users ih => rw [map_cons, cons_append, keepFirst, ih, cons_append]

theorem keepFirst_inl (n : Pseudo → Nat) (w : Pseudo) (cs : List (Pseudo ⊕ α)) :
    keepFirst n (.inl w :: cs) = (if n w = 0 then [] else [.inl w]) ++
      keepFirst (Function.update n w (n w - 1)) cs := by
  rw [keepFirst]
  split
  next none =>
    have same : Function.update n w (n w - 1) = n :=
      Function.update_eq_self_iff.mpr (by omega)
    rw [same, nil_append]
  next some => rfl

theorem keepFirst_sublist (n : Pseudo → Nat) (cs : List (Pseudo ⊕ α)) :
    (keepFirst n cs).Sublist cs := by
  fun_induction keepFirst n cs with
  | case1 => exact .refl _
  | case2 n c cs ih => exact ih.cons_cons _
  | case3 n w cs none ih => exact ih.cons _
  | case4 n w cs some ih => exact ih.cons_cons _

theorem count_handed (pending : List Pseudo) (items : List (Item α)) (w : Pseudo) :
    (handed pending items).count w =
      if pending.count w < (directs items).count w then 1 else 0 := by
  rw [handed]
  split
  next asked =>
    rw [count_filter (by simpa using asked)]
    cases w with
    | time => rfl
    | date => rfl
  next enough =>
    refine count_eq_zero.mpr fun mem => enough ?_
    simpa using (mem_filter.mp mem).2

/-- A `*` keeps what it hands out. -/
theorem keepFirst_star {pending : List Pseudo}
    (counted : ∀ w, n w + pending.count w = (directs items).count w) (cs : List (Pseudo ⊕ α)) :
    keepFirst n (.inl .time :: .inl .date :: cs) =
      (handed pending items).map .inl ++ keepFirst (fun w => n w - 1) cs := by
  have less : Function.update (Function.update n .time (n .time - 1)) .date (n .date - 1) =
      fun w => n w - 1 := by
    funext w
    cases w with
    | time => rfl
    | date => rfl
  have asked (w : Pseudo) : pending.count w < (directs items).count w ↔ n w ≠ 0 := by
    have := counted w
    omega
  have date : Function.update n .time (n .time - 1) .date = n .date := rfl
  rw [keepFirst_inl, keepFirst_inl, date, less, ← append_assoc]
  congr 1
  rw [handed]
  by_cases time : n .time = 0
  · by_cases date : n .date = 0
    · simp [asked, time, date]
    · simp [asked, time, date]
  · by_cases date : n .date = 0
    · simp [asked, time, date]
    · simp [asked, time, date]

/-! ## The order of the columns -/

/-- Which columns are pseudocolumns. -/
def marks (cs : List (Pseudo ⊕ α)) : List (Option Pseudo) := cs.map Sum.getLeft?

@[simp] theorem marks_append (cs cs' : List (Pseudo ⊕ α)) :
    marks (cs ++ cs') = marks cs ++ marks cs' := map_append

theorem marks_inl (ws : List Pseudo) :
    marks (ws.map (.inl : Pseudo → Pseudo ⊕ α)) = ws.map some := by
  rw [marks, map_map]
  rfl

theorem marks_inr (users : List α) :
    marks (users.map (.inr : α → Pseudo ⊕ α)) = users.map fun _ => none := by
  rw [marks, map_map]
  rfl

theorem count_directs (x w : Pseudo) (items : List (Item α)) :
    (directs (.direct x :: items)).count w = (directs items).count w + [x].count w := by
  have is : directs (.direct x :: items) = x :: directs items := rfl
  rw [is, count_cons, count_singleton]

theorem update_add {x : Pseudo} (some_ : n x ≠ 0) (w : Pseudo) :
    Function.update n x (n x - 1) w + [x].count w = n w := by
  by_cases same : x = w
  · subst same
    rw [Function.update_self, count_singleton_self]
    omega
  · rw [Function.update_of_ne fun eq => same eq.symm, count_singleton, if_neg (by simpa)]
    rfl

/-- **The columns that are kept are those of the list, in order, exactly if the direct items are
ordered.**  By induction on the items; as many columns are kept as the items still ask for, beyond
the pending ones. -/
theorem marks_iff {pending : List Pseudo}
    (counted : ∀ w, n w + pending.count w = (directs items).count w) :
    pending.map some ++ marks (keepFirst n (items.flatMap (Item.expand users))) =
      marks (items.flatMap (Item.shown users)) ↔ Ordered users pending items := by
  induction items generalizing pending n with
  | nil =>
    have none : pending = [] := by
      refine eq_nil_iff_forall_not_mem.mpr fun w mem => ?_
      have all : n w + pending.count w = 0 := counted w
      have := count_pos_iff.mpr mem
      omega
    subst none
    simp [Ordered, keepFirst, marks]
  | cons item items ih =>
    rw [flatMap_cons, flatMap_cons]
    cases item with
    | direct x =>
      simp only [count_directs] at counted
      cases pending with
      | nil =>
        have some_ : n x ≠ 0 := by
          have := counted x
          rw [count_singleton_self, count_nil] at this
          omega
        have next (w : Pseudo) : Function.update n x (n x - 1) w + [].count w =
            (directs items).count w := by
          have := counted w
          have := update_add some_ w
          rw [count_nil] at *
          omega
        rw [Ordered, ← ih next]
        simp [Item.expand, Item.shown, keepFirst, some_, marks]
      | cons y pending =>
        show some y :: (pending.map some ++
          marks (keepFirst n (.inl x :: items.flatMap (Item.expand users)))) =
            some x :: marks (items.flatMap (Item.shown users)) ↔ _
        rw [Ordered, List.cons.injEq, Option.some.injEq]
        refine and_congr_right fun same => ?_
        subst same
        have rest (w : Pseudo) : n w + pending.count w = (directs items).count w := by
          have := counted w
          rw [← singleton_append, count_append] at this
          omega
        have asked : pending.count y < (directs items).count y ↔ n y ≠ 0 := by
          have := rest y
          omega
        by_cases none : n y = 0
        · rw [if_neg fun more => asked.mp more none, append_nil, keepFirst, if_pos none]
          exact ih rest
        · have next (w : Pseudo) : Function.update n y (n y - 1) w +
              (pending ++ [y]).count w = (directs items).count w := by
            have := rest w
            have := update_add none w
            rw [count_append]
            omega
          rw [if_pos (asked.mpr none), keepFirst, if_neg none, ← ih next, map_append, append_assoc]
          rfl
    | other c =>
      have same : directs (Item.other c :: items) = directs items := rfl
      rw [same] at counted
      cases pending with
      | nil =>
        rw [Ordered, ← ih counted]
        simp [Item.expand, Item.shown, keepFirst, marks]
      | cons y pending =>
        simp [Ordered, Item.expand, Item.shown, keepFirst, marks]
    | star =>
      have same : directs (Item.star :: items) = directs items := rfl
      rw [same] at counted
      have next (w : Pseudo) : (n w - 1) + (pending ++ handed pending items).count w =
          (directs items).count w := by
        have := counted w
        rw [count_append, count_handed]
        split <;> omega
      rw [Ordered, Item.expand, append_assoc, keepFirst_map_inr, cons_append,
        singleton_append, keepFirst_star counted, Item.shown, marks_append, marks_append,
        marks_append, marks_inl, marks_inr, ← ih next, map_append, append_assoc]
      cases pending with
      | nil => simp
      | cons y pending =>
        cases users with
        | nil => simp
        | cons c users => simp

/-- The columns that are no pseudocolumns. -/
def ordinary (cs : List (Pseudo ⊕ α)) : List α := cs.filterMap Sum.getRight?

theorem eq_of_marks {cs cs' : List (Pseudo ⊕ α)} (same : marks cs = marks cs')
    (others : ordinary cs = ordinary cs') : cs = cs' := by
  induction cs generalizing cs' with
  | nil => exact (map_eq_nil_iff.mp same.symm).symm
  | cons c cs ih =>
    obtain ⟨c', cs', rfl⟩ : ∃ c' tail, cs' = c' :: tail := by
      cases cs' with
      | nil => cases same
      | cons c' tail => exact ⟨c', tail, rfl⟩
    obtain ⟨head, tail⟩ := List.cons.inj same
    cases c with
    | inl w =>
      cases c' with
      | inl w' =>
        cases Option.some.inj head
        rw [ih tail others]
      | inr a' => cases head
    | inr a =>
      cases c' with
      | inl w' => cases head
      | inr a' =>
        obtain ⟨rfl, rest⟩ := List.cons.inj others
        rw [ih tail rest]

theorem mem_of_ordinary {cs : List (Pseudo ⊕ α)} {c : α} (mem : c ∈ ordinary cs) : .inr c ∈ cs := by
  obtain ⟨c', mem, is⟩ := mem_filterMap.mp mem
  rwa [← Sum.getRight?_eq_some_iff.mp is]

theorem ordinary_keepFirst (n : Pseudo → Nat) (cs : List (Pseudo ⊕ α)) :
    ordinary (keepFirst n cs) = ordinary cs := by
  fun_induction keepFirst n cs with
  | case1 => rfl
  | case2 n c cs ih => exact congrArg (c :: ·) ih
  | case3 n w cs none ih => exact ih
  | case4 n w cs some ih => exact ih

theorem ordinary_expand (users : List α) (items : List (Item α)) :
    ordinary (items.flatMap (Item.expand users)) = ordinary (items.flatMap (Item.shown users)) := by
  induction items with
  | nil => rfl
  | cons item items ih =>
    rw [ordinary] at ih
    rw [flatMap_cons, flatMap_cons, ordinary, ordinary, filterMap_append, filterMap_append, ih]
    cases item with
    | star => simp [Item.expand, Item.shown, ordinary]
    | direct w => rfl
    | other c => rfl

theorem keepFirst_iff (counted : ∀ w, n w = (directs items).count w) :
    marks (keepFirst n (items.flatMap (Item.expand users))) =
        marks (items.flatMap (Item.shown users)) ↔ Ordered users [] items :=
  @marks_iff n α items users [] counted

theorem keepFirst_of_ordered (counted : ∀ w, n w = (directs items).count w)
    (ordered : Ordered users [] items) :
    keepFirst n (items.flatMap (Item.expand users)) = items.flatMap (Item.shown users) :=
  eq_of_marks ((keepFirst_iff counted).mpr ordered)
    ((ordinary_keepFirst n _).trans (ordinary_expand users items))

end

/-! ## Columns with values -/

/-- A column of a result over rows `ρ` that are read. -/
structure Column (ρ : Type) where
  field : TableField
  value : ρ → String

def schemaOf {ρ : Type} (cs : List (Column ρ)) : List TableField := cs.map Column.field

theorem length_schemaOf {ρ : Type} (cs : List (Column ρ)) : (schemaOf cs).length = cs.length :=
  length_map _

def rowsOf {ρ : Type} (cs : List (Column ρ)) (rows : List ρ) : List Row :=
  rows.map fun r => cs.map fun c => c.value r

/-- A table that is partitioned by ingestion time, as a query reads it. -/
structure Source (ρ : Type) where
  users : List (Column ρ)
  pseudo : Pseudo → Column ρ

namespace Source

variable {ρ : Type} (src : Source ρ)

/-- The column in the engine. -/
def engine : Pseudo ⊕ Column ρ → Column ρ
  | .inl w => ⟨{ (src.pseudo w).field with name := w.column }, (src.pseudo w).value⟩
  | .inr c => c

/-- The column in the answer. -/
def answer : Pseudo ⊕ Column ρ → Column ρ
  | .inl w => ⟨{ (src.pseudo w).field with name := w.name }, (src.pseudo w).value⟩
  | .inr c => c

theorem value_answer (c : Pseudo ⊕ Column ρ) : (src.answer c).value = (src.engine c).value := by
  cases c with
  | inl w => rfl
  | inr c => rfl

end Source

theorem fieldPseudo_engine (field : TableField) (w : Pseudo) :
    fieldPseudo { field with name := w.column } = some w := by
  have column : pseudoOf (GoText.toLower w.column.toList) = some w := by
    cases w with
    | time => decide
    | date => decide
  exact column

section

variable {ρ : Type} {src : Source ρ} {cs : List (Pseudo ⊕ Column ρ)}

section

variable (plain : ∀ c ∈ ordinary cs, fieldPseudo c.field = none)

include plain

/-- The loop over the schema keeps the first columns, with their indexes in a row. -/
theorem keptFields_eq (n : Pseudo → Nat) (k : Nat) :
    (keptFields n ((schemaOf (cs.map src.engine)).zipIdx k)).map Prod.snd =
        schemaOf ((keepFirst n cs).map src.answer) ∧
      ∀ (r : ρ) (front : Row), front.length = k →
        (keptFields n ((schemaOf (cs.map src.engine)).zipIdx k)).map
            (fun kept => (front ++ cs.map fun c => (src.engine c).value r).getD kept.1
              storedNullCell) =
          (keepFirst n cs).map fun c => (src.answer c).value r := by
  induction cs generalizing n k with
  | nil => exact ⟨rfl, fun r front length => rfl⟩
  | cons c cs ih =>
    have step : (schemaOf ((c :: cs).map src.engine)).zipIdx k =
        ((src.engine c).field, k) :: (schemaOf (cs.map src.engine)).zipIdx (k + 1) := rfl
    have here (r : ρ) (front : Row) (length : front.length = k) :
        (front ++ (c :: cs).map fun c => (src.engine c).value r).getD k storedNullCell =
          (src.engine c).value r := by
      rw [List.getD, getElem?_append_right (Nat.le_of_eq length), length, Nat.sub_self]
      rfl
    have later (r : ρ) (front : Row) :
        front ++ (c :: cs).map (fun c => (src.engine c).value r) =
          (front ++ [(src.engine c).value r]) ++ cs.map fun c => (src.engine c).value r := by
      rw [append_assoc]
      rfl
    have long {front : Row} {v : String} (length : front.length = k) :
        (front ++ [v]).length = k + 1 := by
      rw [length_append, length]
      rfl
    rw [step, keptFields]
    cases c with
    | inl w =>
      have is : fieldPseudo (src.engine (.inl w)).field = some w :=
        fieldPseudo_engine (src.pseudo w).field w
      simp only [is, keepFirst]
      by_cases none : n w = 0
      · rw [if_pos none, if_pos none]
        obtain ⟨fields, values⟩ := ih plain n (k + 1)
        refine ⟨fields, fun r front length => ?_⟩
        rw [later]
        exact values r _ (long length)
      · rw [if_neg none, if_neg none]
        obtain ⟨fields, values⟩ := ih plain (Function.update n w (n w - 1)) (k + 1)
        refine ⟨congrArg (_ :: ·) fields, fun r front length => ?_⟩
        refine congrArg₂ List.cons (here r front length) ?_
        rw [later]
        exact values r _ (long length)
    | inr c =>
      obtain ⟨first, plain⟩ := forall_mem_cons.mp plain
      have is : fieldPseudo (src.engine (.inr c)).field = none := first
      obtain ⟨fields, values⟩ := ih plain n (k + 1)
      simp only [is, keepFirst]
      refine ⟨congrArg (_ :: ·) fields, fun r front length => ?_⟩
      refine congrArg₂ List.cons (here r front length) ?_
      rw [later]
      exact values r _ (long length)

/-- The server keeps the first columns of the pseudocolumns that are asked for. -/
theorem hide_eq (text : List Char) (rows : List ρ) :
    let kept := (keepFirst (directPseudocolumnProjectionCounts text) cs).map src.answer
    hideWildcardIngestionPseudocolumns text (schemaOf (cs.map src.engine))
      (rowsOf (cs.map src.engine) rows) = (schemaOf kept, rowsOf kept rows) := by
  generalize counts : directPseudocolumnProjectionCounts text = n
  obtain ⟨fields, values⟩ := @keptFields_eq ρ src cs plain n 0
  have sizes := congrArg List.length fields
  rw [length_map, length_schemaOf, length_map] at sizes
  rw [hideWildcardIngestionPseudocolumns, counts]
  simp only [sizes, fields, length_schemaOf, length_map]
  split
  next all =>
    -- nothing is dropped, so the rows are left as they are
    have whole : keepFirst n cs = cs := by
      exact (keepFirst_sublist n cs).eq_of_length all
    rw [whole]
    refine congrArg (Prod.mk _) (map_congr_left fun r _ => ?_)
    rw [map_map, map_map]
    refine map_congr_left fun c _ => ?_
    exact congrFun (src.value_answer c).symm r
  next some_ =>
    refine congrArg (Prod.mk _) ?_
    rw [rowsOf, rowsOf, map_map]
    refine map_congr_left fun r _ => ?_
    rw [map_map, Function.comp_apply, map_map]
    exact values r [] rfl

end

/-- Behind the server no column has the name of a column of the engine. -/
theorem fieldPseudo_of_keptFields {fields : List (TableField × Nat)} {kept : Nat × TableField}
    (mem : kept ∈ keptFields n fields) : fieldPseudo kept.2 = none := by
  have renamed (field : TableField) (w : Pseudo) :
      fieldPseudo { field with name := w.name } = none := by
    have name : pseudoOf (GoText.toLower w.name.toList) = none := by
      cases w with
      | time => decide
      | date => decide
    exact name
  fun_induction keptFields n fields with
  | case1 => cases mem
  | case2 n field i rest is ih =>
    rcases mem_cons.mp mem with rfl | mem
    · exact is
    · exact ih mem
  | case3 n field i rest w is none ih => exact ih mem
  | case4 n field i rest w is some ih =>
    rcases mem_cons.mp mem with rfl | mem
    · exact renamed field w
    · exact ih mem

theorem fieldPseudo_of_hide {text : List Char} {schema : List TableField} {rows : List Row}
    {field : TableField} (mem : field ∈ (hideWildcardIngestionPseudocolumns text schema rows).1) :
    fieldPseudo field = none := by
  have fst : (hideWildcardIngestionPseudocolumns text schema rows).1 =
      (keptFields (directPseudocolumnProjectionCounts text) schema.zipIdx).map Prod.snd := by
    rw [hideWildcardIngestionPseudocolumns]
    split <;> rfl
  rw [fst] at mem
  obtain ⟨kept, found, rfl⟩ := mem_map.mp mem
  exact fieldPseudo_of_keptFields found

/-- The pseudocolumn that a column of an answer shows. -/
def publicOf (field : TableField) : Option Pseudo :=
  if field.name = Pseudo.time.name then some .time
  else if field.name = Pseudo.date.name then some .date
  else none

theorem marks_of_schema (src : Source ρ)
    (reserved : ∀ c ∈ ordinary cs, ∀ w : Pseudo, c.field.name ≠ w.name) :
    marks cs = (schemaOf (cs.map src.answer)).map publicOf := by
  induction cs with
  | nil => rfl
  | cons c cs ih =>
    cases c with
    | inl w =>
      refine congrArg₂ List.cons ?_ (ih reserved)
      cases w with
      | time => rfl
      | date => rfl
    | inr c =>
      obtain ⟨here, there⟩ := forall_mem_cons.mp reserved
      refine congrArg₂ List.cons ?_ (ih there)
      show none = publicOf c.field
      rw [publicOf, if_neg (here .time), if_neg (here .date)]

/-- The texts of the items read as the items. -/
def Denotes (q : Query) (items : List (Item (Column ρ))) : Prop :=
  q.items.map itemDirect = items.map Item.pseudo

theorem Query.Valid.counts_of_denotes {q : Query} (valid : q.Valid) {items : List (Item (Column ρ))}
    (denotes : Denotes q items) (w : Pseudo) :
    directPseudocolumnProjectionCounts q.text w = (directs items).count w := by
  have same := congrArg (List.filterMap id) denotes
  simp only [filterMap_map, Function.id_comp] at same
  rw [valid.counts_eq, same]
  rfl

/-- The columns of a projection that are no pseudocolumns. -/
def plainColumns (src : Source ρ) (items : List (Item (Column ρ))) : List (Column ρ) :=
  ordinary (items.flatMap (Item.shown src.users))

/-- **A projection comes out in the order of its list exactly if no other column has the name of a
column of the engine and its direct items are ordered.** -/
theorem hidden_iff {q : Query} (valid : q.Valid) (src : Source ρ)
    {items : List (Item (Column ρ))} (denotes : Denotes q items)
    (reserved : ∀ c ∈ plainColumns src items, ∀ w : Pseudo, c.field.name ≠ w.name)
    (rows : List ρ) :
    hideWildcardIngestionPseudocolumns q.text
          (schemaOf ((items.flatMap (Item.expand src.users)).map src.engine))
          (rowsOf ((items.flatMap (Item.expand src.users)).map src.engine) rows) =
        (schemaOf ((items.flatMap (Item.shown src.users)).map src.answer),
          rowsOf ((items.flatMap (Item.shown src.users)).map src.answer) rows) ↔
      (∀ c ∈ plainColumns src items, fieldPseudo c.field = none) ∧ Ordered src.users [] items := by
  have counted := valid.counts_of_denotes denotes
  constructor
  · intro same
    have fields := congrArg Prod.fst same
    have plain : ∀ c ∈ plainColumns src items, fieldPseudo c.field = none := by
      intro c mem
      have shown : c.field ∈ schemaOf ((items.flatMap (Item.shown src.users)).map src.answer) :=
        mem_map.mpr ⟨c, mem_map.mpr ⟨.inr c, mem_of_ordinary mem, rfl⟩, rfl⟩
      rw [← show _ = schemaOf _ from fields] at shown
      exact fieldPseudo_of_hide shown
    refine ⟨plain, (keepFirst_iff counted).mp ?_⟩
    have plain' := plain
    rw [plainColumns, ← ordinary_expand] at plain'
    rw [hide_eq plain'] at fields
    dsimp only at fields
    rw [marks_of_schema src reserved, ← fields]
    refine marks_of_schema src fun c mem => reserved c ?_
    rwa [ordinary_keepFirst, ordinary_expand] at mem
  · rintro ⟨plain, ordered⟩
    rw [plainColumns, ← ordinary_expand] at plain
    rw [hide_eq plain, keepFirst_of_ordered counted ordered]

end

/-! ## A query -/

/-- A table with a column `a`; a row is its cell and the day of its partition. -/
def clicksSource : Source (String × String) where
  users := [⟨⟨"a", "STRING", "", []⟩, Prod.fst⟩]
  pseudo
    | .time => ⟨⟨"", "TIMESTAMP", "", []⟩, fun r => r.2 ++ " 00:00:00"⟩
    | .date => ⟨⟨"", "DATE", "", []⟩, Prod.snd⟩

/-- `SELECT *, a, _PARTITIONTIME FROM ds.t` shows the partition time before `a`: it is the column
of the `*` that is kept, and the direct item's that is dropped. -/
theorem kept_from_star :
    let items := [.star, .other ⟨⟨"a", "STRING", "", []⟩, Prod.fst⟩, .direct .time]
    let columns := (items.flatMap (Item.expand clicksSource.users)).map clicksSource.engine
    let answer := hideWildcardIngestionPseudocolumns
      "SELECT *, a, _PARTITIONTIME FROM ds.t".toList (schemaOf columns)
      (rowsOf columns [("x", "2024-01-01")])
    answer.1.map TableField.name = ["a", "_PARTITIONTIME", "a"] ∧
      answer.2 = [["x", "2024-01-01 00:00:00", "x"]] ∧
      (schemaOf ((items.flatMap (Item.shown clicksSource.users)).map
        clicksSource.answer)).map TableField.name = ["a", "a", "_PARTITIONTIME"] := by
  decide +kernel

/-- `SELECT _PARTITIONTIME, * FROM ds.t`. -/
def timeFirst : Query where
  lead := []
  select := "SELECT".toList
  distinct := none
  gap := [' ']
  items := [[.word "_PARTITIONTIME".toList], [.other ' ', .other '*']]
  gap' := [' ']
  from_ := "FROM".toList
  tail := " ds.t".toList

theorem timeFirst_valid : timeFirst.Valid where
  lead := all_eq_true.mp rfl
  select := ⟨rfl, all_eq_true.mp rfl⟩
  distinct := by intro d mem; cases mem
  gap := all_eq_true.mp rfl
  gap' := ⟨cons_ne_nil _ _, all_eq_true.mp rfl⟩
  from_ := ⟨rfl, all_eq_true.mp rfl⟩
  tail := by intro c mem; cases mem; rfl
  nonempty := ⟨cons_ne_nil _ _, cons_ne_nil _ _⟩
  items := by
    intro ts mem
    simp only [timeFirst, mem_cons, not_mem_nil, or_false] at mem
    rcases mem with rfl | rfl
    · refine ⟨⟨⟨cons_ne_nil _ _, all_eq_true.mp rfl⟩, fun c mem => ?_, trivial⟩,
        ⟨fun is => ?_, rfl⟩, ⟨fun w is _ => ?_, trivial⟩⟩
      · cases mem
      · cases is
      · cases is
        decide
    · refine ⟨⟨rfl, trivial, rfl, trivial, trivial⟩, ⟨fun is => ?_, fun is => ?_, rfl⟩,
        ⟨fun w is => ?_, fun w is => ?_, trivial⟩⟩
      all_goals cases is
  trimmed := by
    constructor
    · intro c mem
      cases mem
      decide
    · intro c mem
      cases mem
      decide
  plain := by intro _; decide

theorem hidden_iff_timeFirst :
    hideWildcardIngestionPseudocolumns timeFirst.text
        [⟨"__locaql_partition_time", "TIMESTAMP", "", []⟩, ⟨"a", "STRING", "", []⟩,
          ⟨"__locaql_partition_time", "TIMESTAMP", "", []⟩,
          ⟨"__locaql_partition_date", "DATE", "", []⟩]
        [["2024-01-01 00:00:00", "x", "2024-01-01 00:00:00", "2024-01-01"]] =
      ([⟨"_PARTITIONTIME", "TIMESTAMP", "", []⟩, ⟨"a", "STRING", "", []⟩],
        [["2024-01-01 00:00:00", "x"]]) := by
  have denotes : Denotes timeFirst
      ([.direct .time, .star] : List (Item (Column (String × String)))) := by
    show List.map itemDirect timeFirst.items = [some .time, none]
    decide +kernel
  have names : ∀ c ∈ plainColumns clicksSource [.direct .time, .star],
      ∀ w : Pseudo, c.field.name ≠ w.name := by
    intro c mem w
    cases mem_singleton.mp mem
    cases w with
    | time => decide
    | date => decide
  refine (hidden_iff timeFirst_valid clicksSource denotes names [("x", "2024-01-01")]).mpr
    ⟨fun c mem => ?_, by simp [Ordered]⟩
  cases mem_singleton.mp mem
  decide

end LocaQL.Sql
