import LocaQL.Lib.Json

/-!
# JSON texts of byte strings

A Go string is a sequence of bytes, which `json.Marshal` reads as UTF-8.  A byte that begins no
encoded character is written as the escape of U+FFFD, whichever byte it is; the character U+FFFD
itself is written as it stands.  So a list of strings is determined by its text up to the
choice of such bytes (`marshalStrings_eq_iff`).
-/

namespace Json

open List

abbrev Bytes := List UInt8

/-- The runes of a string behind `skip` more bytes of the last one, `none` for a byte that begins
no encoded character. -/
def runesFrom : Nat → Bytes → List (Option Char)
  | _, [] => []
  | skip + 1, _ :: s => runesFrom skip s
  | 0, b :: s =>
    match ByteArray.utf8DecodeChar? ⟨(b :: s).toArray⟩ 0 with
    | some c => some c :: runesFrom (c.utf8Size - 1) s
    | none => none :: runesFrom 0 s

def runes (s : Bytes) : List (Option Char) := runesFrom 0 s

def escapeRune : Option Char → List Char
  | some c => escape c
  | none => ['\\', 'u', 'f', 'f', 'f', 'd']

def quoteRunes (rs : List (Option Char)) : List Char := '"' :: rs.flatMap escapeRune ++ ['"']

/-- `json.Marshal` of a `[]string`, with `none` for the nil slice. -/
def marshalStrings : Option (List Bytes) → List Char
  | none => ['n', 'u', 'l', 'l']
  | some ss => '[' :: [','].intercalate (ss.map fun s => quoteRunes (runes s)) ++ [']']

/-! ## Reading a text back -/

/-- The rune at the beginning of an escaped text, and what follows it. -/
def readRune : List Char → Option Char × List Char
  | '\\' :: 'u' :: a :: b :: c :: d :: s =>
    (if [a, b, c, d] = ['f', 'f', 'f', 'd'] then none else (hex4 a b c d).map Char.ofNat, s)
  | '\\' :: c :: s => (simpleEscape c, s)
  | c :: s => (some c, s)
  | [] => (none, [])

theorem readRune_plain {c : Char} (h : c ≠ '\\') (s : List Char) :
    readRune (c :: s) = (some c, s) := by
  unfold readRune
  split
  next eq => cases eq; exact absurd rfl h
  next eq => cases eq; exact absurd rfl h
  next eq => cases eq; rfl
  next eq => cases eq

theorem readRune_unicodeEscape {c : Char}
    (h : c.toNat < 0x20 ∨ c ∈ ['<', '>', '&', '\u2028', '\u2029']) (s : List Char) :
    readRune (unicodeEscape c.toNat ++ s) = (some c, s) := by
  have low : ∀ n < 0x20, (readRune (unicodeEscape n)).1 = some (Char.ofNat n) := by decide
  rcases h with lt | mem
  · exact congrArg (·, s) ((low _ lt).trans (congrArg some (Char.ofNat_toNat c)))
  · simp only [mem_cons, not_mem_nil, or_false] at mem
    rcases mem with rfl | rfl | rfl | rfl | rfl <;> rfl

theorem readRune_escapeRune (r : Option Char) (s : List Char) :
    readRune (escapeRune r ++ s) = (r, s) := by
  cases r with
  | none => rfl
  | some c =>
    show readRune (escape c ++ s) = _
    unfold escape
    iterate 7
      split
      next is =>
        rw [beq_iff_eq.mp is]
        rfl
    split
    next unicode => exact readRune_unicodeEscape (by simpa using unicode) s
    · exact readRune_plain (by simp_all) s

/-- An escaped rune is no closing quote. -/
theorem head?_escapeRune (r : Option Char) (s : List Char) :
    (escapeRune r ++ s).head? ≠ some '"' := by
  intro quote
  have back := readRune_escapeRune r s
  cases text : escapeRune r ++ s with
  | nil => rw [text] at quote; cases quote
  | cons c t =>
    rw [text] at quote back
    cases quote
    rw [readRune_plain (by decide)] at back
    cases back
    exact absurd (congrArg List.length text) (by simp [escapeRune, escape])

theorem quoteRunes_append_inj {rs rs' : List (Option Char)} {s s' : List Char}
    (h : quoteRunes rs ++ s = quoteRunes rs' ++ s') : rs = rs' ∧ s = s' := by
  simp only [quoteRunes, cons_append, append_assoc, List.cons.injEq, true_and, nil_append] at h
  induction rs generalizing rs' with
  | nil =>
    cases rs' with
    | nil => exact ⟨rfl, (List.cons.inj h).2⟩
    | cons r rs' =>
      rw [flatMap_cons, append_assoc] at h
      exact absurd (congrArg List.head? h).symm (head?_escapeRune r _)
  | cons r rs ih =>
    rw [flatMap_cons, append_assoc] at h
    cases rs' with
    | nil => exact absurd (congrArg List.head? h) (head?_escapeRune r _)
    | cons r' rs' =>
      rw [flatMap_cons, append_assoc] at h
      have first := congrArg readRune h
      rw [readRune_escapeRune, readRune_escapeRune, Prod.mk.injEq] at first
      obtain ⟨rest, rfl⟩ := ih first.2
      exact ⟨by rw [first.1, rest], rfl⟩

theorem intercalate_quoteRunes_inj {l l' : List (List (Option Char))}
    (h : [','].intercalate (l.map quoteRunes) ++ [']'] =
      [','].intercalate (l'.map quoteRunes) ++ [']']) : l = l' := by
  induction l generalizing l' with
  | nil =>
    cases l' with
    | nil => rfl
    | cons rs' l' => cases l' <;> simp [quoteRunes, intercalate_cons_cons] at h
  | cons rs l ih =>
    cases l' with
    | nil => cases l <;> simp [quoteRunes, intercalate_cons_cons] at h
    | cons rs' l' =>
      cases l with
      | nil =>
        cases l' with
        | nil =>
          rw [map_cons, map_nil, intercalate_singleton, map_cons,
            map_nil, intercalate_singleton] at h
          rw [(quoteRunes_append_inj h).1]
        | cons next' l' =>
          simp only [map_cons, map_nil, intercalate_singleton,
            intercalate_cons_cons, append_assoc] at h
          cases (quoteRunes_append_inj h).2
      | cons next l =>
        cases l' with
        | nil =>
          simp only [map_cons, map_nil, intercalate_singleton,
            intercalate_cons_cons, append_assoc] at h
          cases (quoteRunes_append_inj h).2
        | cons next' l' =>
          simp only [map_cons, intercalate_cons_cons, append_assoc] at h
          obtain ⟨rfl, rest⟩ := quoteRunes_append_inj h
          have rest : [','].intercalate ((next :: l).map quoteRunes) ++ [']'] =
              [','].intercalate ((next' :: l').map quoteRunes) ++ [']'] :=
            (List.cons.inj rest).2
          rw [ih rest]

theorem marshalStrings_eq_iff {ss ss' : Option (List Bytes)} :
    marshalStrings ss = marshalStrings ss' ↔
      ss.map (List.map runes) = ss'.map (List.map runes) := by
  cases ss with
  | none => cases ss' <;> simp [marshalStrings]
  | some ss =>
    cases ss' with
    | none => simp [marshalStrings]
    | some ss' =>
      simp only [marshalStrings, Option.map_some, Option.some.injEq, cons_append,
        List.cons.injEq, true_and]
      refine ⟨fun h => ?_, fun h => ?_⟩
      · refine intercalate_quoteRunes_inj ?_
        rwa [map_map, map_map]
      · have texts := congrArg (List.map quoteRunes) h
        rw [map_map, map_map] at texts
        exact congrArg (fun l => [','].intercalate l ++ [']']) texts

end Json
