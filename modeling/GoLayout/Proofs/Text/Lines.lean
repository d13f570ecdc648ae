import GoLayout.Source.CodeLine
import Mathlib.Data.List.DropRight

/-! # Lines and outer blanks

    A document that is joined from lines is read back as these lines (`sourceLines_joinWith`),
    and trimming takes away exactly the blanks around a text (`trim_append`), so that what is left
    neither starts nor ends with one (`solid_trim`). -/

namespace GoLayout

namespace Text

theorem splitOn_of_notMem {sep : Char} {t : Text} (h : sep ∉ t) : splitOn sep t = [t] := by
  induction t with
  | nil => rfl
  | cons c t ih =>
      obtain ⟨hc, ht⟩ := not_or.mp (mt List.mem_cons.mpr h)
      rw [splitOn_cons, if_neg (Ne.symm hc), ih ht]
      rfl

/-- The first part ends at the first separator. -/
theorem splitOn_append_cons {sep : Char} {t : Text} (h : sep ∉ t) (rest : Text) :
    splitOn sep (t ++ sep :: rest) = t :: splitOn sep rest := by
  induction t with
  | nil => exact if_pos rfl
  | cons c t ih =>
      obtain ⟨hc, ht⟩ := not_or.mp (mt List.mem_cons.mpr h)
      rw [List.cons_append, splitOn_cons, if_neg (Ne.symm hc), ih ht]
      rfl

/-- Splitting undoes joining where no part holds the separator. -/
theorem splitOn_joinWith {sep : Char} {parts : List Text} (hne : parts ≠ [])
    (h : ∀ t ∈ parts, sep ∉ t) : splitOn sep (joinWith [sep] parts) = parts := by
  induction parts with
  | nil => exact absurd rfl hne
  | cons t ts ih =>
      have ht := h t List.mem_cons_self
      cases ts with
      | nil => exact splitOn_of_notMem ht
      | cons u us =>
          show splitOn sep (t ++ [sep] ++ joinWith [sep] (u :: us)) = _
          rw [List.append_assoc, List.singleton_append, splitOn_append_cons ht,
            ih (List.cons_ne_nil u us) fun v hv => h v (List.mem_cons_of_mem _ hv)]

/-- Dropping at the end comes to the first element only if nothing is left behind it. -/
theorem rdropWhile_cons {α : Type} (p : α → Bool) (a : α) (l : List α) :
    (a :: l).rdropWhile p =
      if l.rdropWhile p = [] ∧ p a = true then [] else a :: l.rdropWhile p := by
  rw [List.rdropWhile, List.reverse_cons, List.dropWhile_append]
  -- only where nothing else is left the first element may go as well
  by_cases hl : (l.reverse.dropWhile p).isEmpty = true
  · have hnil : l.rdropWhile p = [] := by
      rw [List.rdropWhile, List.isEmpty_iff.mp hl, List.reverse_nil]
    rw [if_pos hl, hnil]
    by_cases ha : p a = true
    · rw [if_pos ⟨rfl, ha⟩, List.dropWhile_cons_of_pos ha]
      rfl
    · rw [if_neg fun h => ha h.2, List.dropWhile_cons_of_neg ha]
      rfl
  · have hne : l.rdropWhile p ≠ [] := by
      rw [List.rdropWhile, ne_eq, List.reverse_eq_nil_iff]
      exact fun h => hl (List.isEmpty_iff.mpr h)
    rw [if_neg hl, if_neg fun h => hne h.1, List.reverse_append]
    rfl

theorem dropTrailing_cons (c d : Char) (t : Text) :
    dropTrailing c (d :: t) =
      if dropTrailing c t = [] ∧ (d == c) = true then [] else d :: dropTrailing c t :=
  rdropWhile_cons (· == c) d t

/-- Nothing in front of another character than the trailing one is lost. -/
theorem dropTrailing_append_cons {c d : Char} (h : d ≠ c) (t rest : Text) :
    dropTrailing c (t ++ d :: rest) = t ++ d :: dropTrailing c rest := by
  have hd : ¬ (d == c) = true := fun hdc => h (eq_of_beq hdc)
  induction rest using List.reverseRecOn with
  | nil => exact List.rdropWhile_concat_neg _ _ _ hd
  | append_singleton rest e ih =>
      show List.rdropWhile (· == c) (t ++ d :: (rest ++ [e])) =
        t ++ d :: List.rdropWhile (· == c) (rest ++ [e])
      rw [← List.cons_append, ← List.append_assoc, List.rdropWhile_concat,
        List.rdropWhile_concat]
      -- what stays at the end is decided behind the character that stops the dropping
      by_cases he : (e == c) = true
      · rw [if_pos he, if_pos he]
        exact ih
      · rw [if_neg he, if_neg he, List.append_assoc, List.cons_append]

theorem dropTrailing_concat {c d : Char} (h : d ≠ c) (t : Text) :
    dropTrailing c (t ++ [d]) = t ++ [d] :=
  dropTrailing_append_cons h t []

theorem dropTrailing_prefix (c : Char) (t : Text) : dropTrailing c t <+: t :=
  List.rdropWhile_prefix _ _

/-- The text is made of blanks alone. -/
def AllBlank (t : Text) : Prop := ∀ c ∈ t, isBlank c = true

instance (t : Text) : Decidable (AllBlank t) := decidable_of_iff _ List.all_eq_true

theorem allBlank_nil : AllBlank [] := nofun

theorem isBlankText_iff {t : Text} : isBlankText t = true ↔ AllBlank t := List.all_eq_true

theorem trimLeft_append {t : Text} (h : AllBlank t) (rest : Text) :
    trimLeft (t ++ rest) = trimLeft rest :=
  List.dropWhile_append_of_pos h

theorem trimLeft_of_allBlank {t : Text} (h : AllBlank t) : trimLeft t = [] := by
  rw [← List.append_nil t, trimLeft_append h]
  rfl

theorem trimLeft_cons {c : Char} (h : isBlank c = false) (t : Text) :
    trimLeft (c :: t) = c :: t :=
  List.dropWhile_cons_of_neg (by rw [h]; exact Bool.false_ne_true)

theorem trimRight_append {t : Text} (h : AllBlank t) (before : Text) :
    trimRight (before ++ t) = trimRight before := by
  have hrev : AllBlank t.reverse := fun c hc => h c (List.mem_reverse.mp hc)
  show (List.dropWhile isBlank (before ++ t).reverse).reverse = _
  rw [List.reverse_append, List.dropWhile_append_of_pos hrev]
  rfl

theorem trimRight_concat {c : Char} (h : isBlank c = false) (t : Text) :
    trimRight (t ++ [c]) = t ++ [c] :=
  List.rdropWhile_concat_neg _ _ _ (by rw [h]; exact Bool.false_ne_true)

/-- The text neither starts nor ends with a blank, and it is not empty. -/
structure Solid (t : Text) : Prop where
  head : ∃ c rest, t = c :: rest ∧ isBlank c = false
  last : ∃ before c, t = before ++ [c] ∧ isBlank c = false

theorem Solid.trimLeft {t : Text} (h : Solid t) (rest : Text) :
    Text.trimLeft (t ++ rest) = t ++ rest := by
  obtain ⟨c, u, rfl, hc⟩ := h.head
  exact trimLeft_cons hc _

theorem Solid.trimRight {t : Text} (h : Solid t) (before : Text) :
    Text.trimRight (before ++ t) = before ++ t := by
  obtain ⟨u, c, rfl, hc⟩ := h.last
  rw [← List.append_assoc]
  exact trimRight_concat hc _

theorem trim_of_allBlank {t : Text} (h : AllBlank t) : trim t = [] := by
  rw [trim, trimLeft_of_allBlank h]
  rfl

/-- Trimming takes the blanks around a solid text away. -/
theorem trim_append {before t behind : Text} (hb : AllBlank before) (h : Solid t)
    (hr : AllBlank behind) : trim (before ++ t ++ behind) = t := by
  rw [trim, List.append_assoc, trimLeft_append hb, h.trimLeft, trimRight_append hr]
  exact h.trimRight []

/-- Blanks at the end of a text make no difference to what is left of it. -/
theorem trim_append_blanks {blanks : Text} (h : AllBlank blanks) (t : Text) :
    trim (t ++ blanks) = trim t := by
  have hleft : trimLeft (t ++ blanks) =
      if (trimLeft t).isEmpty then trimLeft blanks else trimLeft t ++ blanks :=
    List.dropWhile_append
  rw [trim, trim, hleft]
  split
  · next hempty => rw [trimLeft_of_allBlank h, List.isEmpty_iff.mp hempty]
  · exact trimRight_append h _

theorem Solid.trim {t : Text} (h : Solid t) : Text.trim t = t := by
  have htrim := trim_append allBlank_nil h allBlank_nil
  rw [List.nil_append, List.append_nil] at htrim
  exact htrim

/-- The blanks at the start of a text are its margin. -/
theorem exists_trimLeft (t : Text) : ∃ margin, AllBlank margin ∧ t = margin ++ trimLeft t :=
  ⟨t.takeWhile isBlank, fun _ hc => List.mem_takeWhile_imp hc,
    List.takeWhile_append_dropWhile.symm⟩

/-- A text is its margins and what is left of it between them. -/
theorem exists_trim (t : Text) :
    ∃ before behind, AllBlank before ∧ AllBlank behind ∧ t = before ++ (trim t ++ behind) := by
  obtain ⟨before, hbefore, hleft⟩ := exists_trimLeft t
  obtain ⟨behind, hbehind, hright⟩ := exists_trimLeft (trimLeft t).reverse
  refine ⟨before, behind.reverse, hbefore, fun c hc => hbehind c (List.mem_reverse.mp hc), ?_⟩
  have hsplit : trimLeft t = trim t ++ behind.reverse := by
    have hreverse := congrArg List.reverse hright
    rwa [List.reverse_reverse, List.reverse_append] at hreverse
  rw [← hsplit]
  exact hleft

/-- No blank stands at the end of the text. -/
def EndsSolid (t : Text) : Prop := ∀ c, t.getLast? = some c → isBlank c = false

/-- What a text ends with ends as the text does. -/
theorem EndsSolid.of_suffix {t u : Text} (h : EndsSolid t) (hu : u <:+ t) : EndsSolid u := by
  obtain ⟨front, rfl⟩ := hu
  intro c hc
  refine h c ?_
  rw [List.getLast?_append, hc]
  rfl

/-- What is left of a text ends with no blank. -/
theorem endsSolid_trim (t : Text) : EndsSolid (trim t) := by
  intro c hc
  have hlast := List.head?_dropWhile_not isBlank (trimLeft t).reverse
  rw [trim, trimRight, List.getLast?_reverse] at hc
  rw [hc] at hlast
  exact hlast

/-- Behind its margin a text that ends without blanks is solid. -/
theorem EndsSolid.solid_trimLeft {t : Text} (h : EndsSolid t) (hne : trimLeft t ≠ []) :
    Solid (trimLeft t) := by
  constructor
  · obtain ⟨c, u, hcons⟩ := List.exists_cons_of_ne_nil hne
    have hhead := List.head?_dropWhile_not isBlank t
    rw [show t.dropWhile isBlank = c :: u from hcons] at hhead
    exact ⟨c, u, hcons, hhead⟩
  · have hsuffix := h.of_suffix (List.dropWhile_suffix isBlank)
    exact ⟨_, _, (List.dropLast_append_getLast hne).symm,
      hsuffix _ (List.getLast?_eq_some_getLast hne)⟩

/-- What is left of a text that is not blank is solid. -/
theorem solid_trim {t : Text} (h : ¬ AllBlank t) : Solid (trim t) := by
  have hprefix : trim t <+: trimLeft t := List.rdropWhile_prefix _ _
  cases htrim : trim t with
  | nil =>
      obtain ⟨before, behind, hbefore, hbehind, ht⟩ := exists_trim t
      refine absurd (fun c hc => ?_) h
      rw [ht, htrim, List.nil_append] at hc
      exact (List.mem_append.mp hc).elim (hbefore c) (hbehind c)
  | cons c u =>
      have hends := endsSolid_trim t
      have hhead := List.head?_dropWhile_not isBlank t
      rw [htrim] at hends hprefix
      obtain ⟨behind, hleft⟩ := hprefix
      rw [show t.dropWhile isBlank = c :: (u ++ behind) from hleft.symm] at hhead
      -- what is left starts with no blank, so that nothing more is taken from its front
      have hfirst : trimLeft (c :: u) = c :: u := trimLeft_cons hhead u
      rw [← hfirst]
      exact hends.solid_trimLeft (by rw [hfirst]; exact List.cons_ne_nil c u)

/-- Nothing is left of a blank text, and something of any other. -/
theorem trim_eq_nil_iff {t : Text} : trim t = [] ↔ AllBlank t := by
  refine ⟨fun htrim => ?_, trim_of_allBlank⟩
  by_contra hblank
  obtain ⟨c, rest, hcons, -⟩ := (solid_trim hblank).head
  exact List.cons_ne_nil c rest (hcons.symm.trans htrim)

/-- What is left between the margins has none. -/
theorem trim_trim (t : Text) : trim (trim t) = trim t := by
  by_cases hblank : AllBlank t
  · rw [trim_of_allBlank hblank]
    rfl
  · exact (solid_trim hblank).trim

/-- Outer blanks make no difference to whether a text is blank. -/
theorem isBlankText_trim (t : Text) : isBlankText (trim t) = isBlankText t := by
  rw [Bool.eq_iff_iff, isBlankText_iff, isBlankText_iff, ← trim_eq_nil_iff, trim_trim,
    trim_eq_nil_iff]

end Text

/-- The lines of a document as they are read, without their carriage returns. -/
def readLines (lines : List Text) : List Text := lines.map (Text.dropTrailing '\r')

theorem readLines_append (a b : List Text) :
    readLines (a ++ b) = readLines a ++ readLines b := List.map_append

theorem length_readLines (lines : List Text) : (readLines lines).length = lines.length :=
  List.length_map _

/-- A document joined from lines is read as these lines. -/
theorem sourceLines_joinWith {lines : List Text} (hne : lines ≠ [])
    (h : ∀ t ∈ lines, '\n' ∉ t) :
    sourceLines (Text.joinWith ['\n'] lines) = readLines lines := by
  rw [sourceLines, Text.splitOn_joinWith hne h]
  rfl

end GoLayout
