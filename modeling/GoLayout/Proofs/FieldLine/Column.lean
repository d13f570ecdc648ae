import GoLayout.FieldLine.Column
import GoLayout.Proofs.Source.Header

/-! # Where names stand

    The search for a name goes past everything that is not the name as a whole word:

    * past characters that belong to no word (`wholeWord?_gap`);
    * past another word, even one that starts like the name (`wholeWord?_other`).

    So a name is located behind a gap (`locate_gap`), and also behind a package and its dot
    (`locate_package`). -/

namespace GoLayout.Column

open Identifier

variable {name : Text}

/-- The character in front of what follows a text. -/
theorem getLast?_or_some (c : Char) (t : Text) (previous : Option Char) :
    t.getLast?.or (some c) = (c :: t).getLast?.or previous := by
  rw [List.getLast?_cons]
  cases t.getLast? with
  | none => rfl
  | some d => rfl

/-- No name starts with a character that belongs to no word. -/
theorem isWholeWord_of_not_isWord (hname : isIdentifier name = true) {c : Char}
    (hc : isWord c = false) (previous : Option Char) (t : Text) :
    isWholeWord previous name (c :: t) = false := by
  obtain ⟨d, u, rfl, hd, -⟩ := exists_cons hname
  have hne : d ≠ c := by
    rintro rfl
    rw [isWord_of_isIdentStart hd] at hc
    exact nomatch hc
  have hafter : Text.after? (d :: u) (c :: t) = none := if_neg hne
  rw [isWholeWord, hafter]

/-- Inside a word no name starts. -/
theorem isWholeWord_of_previous {c : Char} (hc : isWord c = true) (t : Text) :
    isWholeWord (some c) name t = false := by
  rw [isWholeWord]
  cases Text.after? name t with
  | none => rfl
  | some rest =>
      show (!isWord c && _) = false
      rw [hc]
      rfl

/-- The search goes past characters that belong to no word. -/
theorem wholeWord?_gap (hname : isIdentifier name = true) {gap : Text}
    (hgap : ∀ c ∈ gap, isWord c = false) (t : Text) :
    ∀ column previous, wholeWord? name column previous (gap ++ t) =
      wholeWord? name (column + gap.length) (gap.getLast?.or previous) t := by
  induction gap with
  | nil => intro column previous; rfl
  | cons c gap ih =>
      intro column previous
      have hhead := isWholeWord_of_not_isWord hname (hgap c List.mem_cons_self) previous (gap ++ t)
      -- the characters of the gap are passed one by one, and the last of them is remembered
      have hlen : column + 1 + gap.length = column + (c :: gap).length := by
        rw [List.length_cons]
        omega
      rw [List.cons_append, wholeWord?, hhead, if_neg Bool.false_ne_true,
        ih fun d hd => hgap d (List.mem_cons_of_mem _ hd), getLast?_or_some, hlen]

/-- Inside a word no whole word starts. -/
theorem wholeWord?_inside {u : Text} (hu : ∀ c ∈ u, isWord c = true) (t : Text) :
    ∀ column previous, isWord previous = true →
      wholeWord? name column (some previous) (u ++ t) =
        wholeWord? name (column + u.length) (u.getLast?.or (some previous)) t := by
  induction u with
  | nil => intro column previous _; rfl
  | cons c u ih =>
      intro column previous hprevious
      have hlen : column + 1 + u.length = column + (c :: u).length := by
        rw [List.length_cons]
        omega
      rw [List.cons_append, wholeWord?, isWholeWord_of_previous hprevious,
        if_neg Bool.false_ne_true, ih (fun d hd => hu d (List.mem_cons_of_mem _ hd)) _ _
          (hu c List.mem_cons_self), getLast?_or_some, hlen]

/-- The search goes past another word. -/
theorem wholeWord?_other {other t : Text} (hname : isIdentifier name = true)
    (hother : isIdentifier other = true) (hne : other ≠ name) (ht : t.head?.any isWord = false)
    (column : Nat) (previous : Option Char) :
    wholeWord? name column previous (other ++ t) =
      wholeWord? name (column + other.length) other.getLast? t := by
  have hhead : isWholeWord previous name (other ++ t) = false := by
    rw [isWholeWord]
    cases hafter : Text.after? name (other ++ t) with
    | none => rfl
    | some rest =>
        -- a whole word here would be the identifier that leads the text, which is the other one
        cases hrest : rest.head?.any isWord with
        | true =>
            show (!_ && !rest.head?.any isWord) = false
            rw [hrest, Bool.not_true, Bool.and_false]
        | false =>
            have hsplit := Text.after?_eq_some.mp hafter
            have hleading := leading?_of_isIdentifier hother ht
            rw [hsplit, leading?_of_isIdentifier hname hrest] at hleading
            exact absurd (congrArg Prod.fst (Option.some.inj hleading)).symm hne
  -- behind its first character the search is inside the other word
  obtain ⟨c, u, rfl, hc, hu⟩ := exists_cons hother
  have hlast : u.getLast?.or (some c) = (c :: u).getLast? :=
    (getLast?_or_some c u none).trans Option.or_none
  have hlen : column + 1 + u.length = column + (c :: u).length := by
    rw [List.length_cons]
    omega
  rw [List.cons_append] at hhead ⊢
  rw [wholeWord?, hhead, if_neg Bool.false_ne_true,
    wholeWord?_inside hu _ _ _ (isWord_of_isIdentStart hc), hlast, hlen]

/-- The search ends where the name stands alone. -/
theorem wholeWord?_found {t : Text} (hname : isIdentifier name = true)
    (ht : t.head?.any isWord = false) {previous : Option Char}
    (hprevious : previous.any isWord = false) (column : Nat) :
    wholeWord? name column previous (name ++ t) = some column := by
  have hafter : Text.after? name (name ++ t) = some t := Text.after?_eq_some.mpr rfl
  have hwhole : isWholeWord previous name (name ++ t) = true := by
    rw [isWholeWord, hafter]
    show (!previous.any isWord && !t.head?.any isWord) = true
    rw [hprevious, ht]
    rfl
  -- the search looks at a first character, and a name has one
  obtain ⟨c, u, hcons⟩ : ∃ c u, name ++ t = c :: u := by
    obtain ⟨c, u, rfl, -⟩ := exists_cons hname
    exact ⟨c, u ++ t, rfl⟩
  rw [hcons] at hwhole ⊢
  rw [wholeWord?, if_pos hwhole]

/-- A name that is found behind some text is located there. -/
theorem locate_append {before rest : Text} {column : Nat}
    (h : wholeWord? name before.length before.getLast? rest = some column) :
    locate (before ++ rest) name before.length = column := by
  have hmin : min before.length (before ++ rest).length = before.length := by
    rw [List.length_append]
    omega
  rw [locate, hmin, List.take_left, List.drop_left, h]

theorem getLast?_gap {gap : Text} (hne : gap ≠ []) (hgap : ∀ c ∈ gap, isWord c = false)
    (previous : Option Char) : (gap.getLast?.or previous).any isWord = false := by
  rw [List.getLast?_eq_some_getLast hne]
  exact hgap _ (List.getLast_mem hne)

/-- A name is located behind characters that belong to no word. -/
theorem locate_gap {before gap t : Text} (hname : isIdentifier name = true) (hne : gap ≠ [])
    (hgap : ∀ c ∈ gap, isWord c = false) (ht : t.head?.any isWord = false) :
    locate (before ++ (gap ++ (name ++ t))) name before.length = before.length + gap.length := by
  refine locate_append ?_
  rw [wholeWord?_gap hname hgap]
  exact wholeWord?_found hname ht (getLast?_gap hne hgap _) _

/-- A name is located behind its package. -/
theorem locate_package {gap package t : Text} (hname : isIdentifier name = true)
    (hgap : ∀ c ∈ gap, isWord c = false) (hpackage : isIdentifier package = true)
    (hne : package ≠ name) (ht : t.head?.any isWord = false) :
    locate (gap ++ (package ++ (['.'] ++ (name ++ t)))) name 0 =
      gap.length + package.length + 1 := by
  have hword : isWord '.' = false := by decide
  have hhead : (['.'] ++ (name ++ t)).head?.any isWord = false := hword
  have hdot : ∀ c ∈ ['.'], isWord c = false := fun c hc => by
    rw [List.mem_singleton.mp hc, hword]
  -- the package is another word, the dot is none, and behind it the name is found
  have hfound : wholeWord? name ([] : Text).length ([] : Text).getLast?
      (gap ++ (package ++ (['.'] ++ (name ++ t)))) = some (gap.length + package.length + 1) := by
    rw [wholeWord?_gap hname hgap, wholeWord?_other hname hpackage hne hhead,
      wholeWord?_gap hname hdot,
      wholeWord?_found hname ht (getLast?_gap (List.cons_ne_nil _ _) hdot _)]
    show some (0 + gap.length + package.length + 1) = _
    rw [Nat.zero_add]
  exact locate_append hfound

end GoLayout.Column
