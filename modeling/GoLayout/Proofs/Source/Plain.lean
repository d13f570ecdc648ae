import GoLayout.Proofs.Source.Bracket
import GoLayout.Proofs.Text.Lines
import GoLayout.Source.Literal
import GoLayout.Text.Identifier

/-! # Plain text

    Text without slashes and quotes is code as it stands: no comment starts in it
    (`stripFrom_append`), no literal either (`after_eq`), and each of its characters is live
    (`glyphs_eq`).  Blanks and word characters are plain. -/

namespace GoLayout

/-- Neither a comment nor a literal can start with the character. -/
def isPlain (c : Char) : Bool := c != '/' && !isQuote c

/-- The text is made of such characters. -/
def Plain (t : Text) : Prop := ∀ c ∈ t, isPlain c = true

instance (t : Text) : Decidable (Plain t) := decidable_of_iff _ List.all_eq_true

/-- A live glyph for each character. -/
def liveGlyphs (t : Text) : List Glyph := t.map fun c => ⟨c, true⟩

theorem liveGlyphs_append (a b : Text) : liveGlyphs (a ++ b) = liveGlyphs a ++ liveGlyphs b :=
  List.map_append

theorem isPlain_iff {c : Char} : isPlain c = true ↔ c ≠ '/' ∧ isQuote c = false := by
  rw [isPlain, Bool.and_eq_true, bne_iff_ne, Bool.not_eq_true']

theorem not_isPlain_iff {c : Char} :
    isPlain c = false ↔ c = '/' ∨ c = '"' ∨ c = '\'' ∨ c = rawQuote := by
  simp [isPlain, isQuote]
  tauto

/-- Blanks start nothing. -/
theorem isPlain_of_isBlank {c : Char} (h : isBlank c = true) : isPlain c = true := by
  cases hp : isPlain c with
  | true => rfl
  | false =>
      rcases not_isPlain_iff.mp hp with rfl | rfl | rfl | rfl <;> exact absurd h (by decide)

/-- Word characters start nothing. -/
theorem isPlain_of_isWord {c : Char} (h : isWord c = true) : isPlain c = true := by
  cases hp : isPlain c with
  | true => rfl
  | false =>
      rcases not_isPlain_iff.mp hp with rfl | rfl | rfl | rfl <;> exact absurd h (by decide)

/-- A live glyph is live as its own character only. -/
theorem isLive_of_ne {c d : Char} (h : c ≠ d) : (⟨c, true⟩ : Glyph).isLive d = false := by
  simp [Glyph.isLive, h]

theorem not_isBlank_of_structural : ∀ c ∈ structural, isBlank c = false := by
  have hall : structural.all (fun c => !isBlank c) = true := by decide
  intro c hc
  simpa using List.all_eq_true.mp hall c hc

/-- Live glyphs are still when the text holds no structural character. -/
theorem still_liveGlyphs {t : Text} (h : ∀ c ∈ structural, c ∉ t) : Still (liveGlyphs t) := by
  intro g hg c hc
  obtain ⟨d, hd, rfl⟩ := List.mem_map.mp hg
  refine isLive_of_ne ?_
  rintro rfl
  exact h d hc hd

theorem still_of_allBlank {t : Text} (h : Text.AllBlank t) : Still (liveGlyphs t) := by
  refine still_liveGlyphs fun c hc hmem => ?_
  have hblank := h c hmem
  rw [not_isBlank_of_structural c hc] at hblank
  exact nomatch hblank

namespace Plain

theorem nil : Plain [] := fun _ hc => nomatch hc

theorem append {a b : Text} (ha : Plain a) (hb : Plain b) : Plain (a ++ b) := by
  intro c hc
  rcases List.mem_append.mp hc with hca | hcb
  · exact ha c hca
  · exact hb c hcb

theorem cons {c : Char} {t : Text} (hc : isPlain c = true) (ht : Plain t) : Plain (c :: t) := by
  intro d hd
  rcases List.mem_cons.mp hd with rfl | hmem
  · exact hc
  · exact ht d hmem

theorem of_allBlank {t : Text} (h : Text.AllBlank t) : Plain t :=
  fun c hc => isPlain_of_isBlank (h c hc)

/-- Stripping keeps plain text and goes on behind it. -/
theorem stripFrom_append {t : Text} (h : Plain t) (rest : Text) :
    Comment.stripFrom .code (t ++ rest) = Comment.keep t (Comment.stripFrom .code rest) := by
  induction t with
  | nil => rfl
  | cons c t ih =>
      obtain ⟨hslash, hquote⟩ := isPlain_iff.mp (h c List.mem_cons_self)
      have hrest := ih fun d hd => h d (List.mem_cons_of_mem _ hd)
      -- the character is no slash, so that neither mark starts here, and no quote, so that the mode
      -- stays
      rw [List.cons_append,
        Comment.stripFrom.eq_4 _ _ (fun _ hc => absurd hc hslash) (fun _ hc => absurd hc hslash),
        hquote]
      show Comment.keep [c] (Comment.stripFrom .code (t ++ rest)) = _
      rw [hrest]
      rfl

/-- A plain line is its own code. -/
theorem strip_eq {t : Text} (h : Plain t) : Comment.strip t false = (t, false) := by
  have happ := h.stripFrom_append []
  rw [List.append_nil] at happ
  show Comment.stripFrom .code t = _
  rw [happ]
  show (t ++ [], false) = _
  rw [List.append_nil]

/-- Plain text opens no literal. -/
theorem after_eq {t : Text} (h : Plain t) : Quoting.after .outside t = .outside := by
  induction t with
  | nil => rfl
  | cons c t ih =>
      have hquote := (isPlain_iff.mp (h c List.mem_cons_self)).2
      show Quoting.after (Quoting.next .outside c) t = _
      rw [show Quoting.next .outside c = .outside by simp [Quoting.next, hquote]]
      exact ih fun d hd => h d (List.mem_cons_of_mem _ hd)

/-- All of it is live. -/
theorem glyphs_eq {t : Text} (h : Plain t) : glyphs t = liveGlyphs t := by
  induction t with
  | nil => rfl
  | cons c t ih =>
      have hquote := (isPlain_iff.mp (h c List.mem_cons_self)).2
      show Glyph.read .outside c :: glyphsFrom (Quoting.next .outside c) t = _
      rw [show Quoting.next .outside c = .outside by simp [Quoting.next, hquote],
        show Glyph.read .outside c = ⟨c, true⟩ by simp [Glyph.read, hquote]]
      exact congrArg _ (ih fun d hd => h d (List.mem_cons_of_mem _ hd))

/-- Glyphs behind plain text are read as if the line started there. -/
theorem glyphs_append {t : Text} (h : Plain t) (rest : Text) :
    glyphs (t ++ rest) = liveGlyphs t ++ glyphs rest := by
  rw [GoLayout.glyphs_append rest h.after_eq, h.glyphs_eq]

end Plain

end GoLayout
