import GoLayout.Proofs.Source.Plain

/-! # Raw strings

    A raw string is text between two raw quotes, with no such quote inside.  Nothing else ends
    it, so that comment marks, quotes, brackets and semicolons in it are text:

    * stripping comments keeps it (`stripFrom_rawString`);
    * none of its characters is live (`glyphs_rawString`). -/

namespace GoLayout

/-- The raw string with the given text. -/
def rawString (t : Text) : Text := rawQuote :: (t ++ [rawQuote])

/-- Dead glyphs for the characters of a text. -/
def deadGlyphs (t : Text) : List Glyph := t.map fun c => ⟨c, false⟩

theorem still_deadGlyphs (t : Text) : Still (deadGlyphs t) := by
  intro g hg c _
  obtain ⟨d, -, rfl⟩ := List.mem_map.mp hg
  rfl

theorem Still.append {gs hs : List Glyph} (hg : Still gs) (hh : Still hs) : Still (gs ++ hs) := by
  intro g hmem
  rcases List.mem_append.mp hmem with hleft | hright
  · exact hg g hleft
  · exact hh g hright

variable {t : Text}

/-- Inside a raw string, stripping keeps everything up to the quote. -/
theorem stripFrom_insideRaw (h : rawQuote ∉ t) (rest : Text) :
    Comment.stripFrom (.literal rawQuote) (t ++ rawQuote :: rest) =
      Comment.keep (t ++ [rawQuote]) (Comment.stripFrom .code rest) := by
  induction t with
  | nil =>
      cases rest with
      | nil => rfl
      | cons d rest =>
          have hraw : ¬ (rawQuote = '\\' ∧ rawQuote ≠ rawQuote) := fun hboth => hboth.2 rfl
          rw [List.nil_append, Comment.stripFrom.eq_7, if_neg hraw, if_pos rfl]
          rfl
  | cons c t ih =>
      obtain ⟨hc, ht⟩ := not_or.mp (mt List.mem_cons.mpr h)
      have hraw : ¬ (c = '\\' ∧ rawQuote ≠ rawQuote) := fun hboth => hboth.2 rfl
      -- the pass looks two characters ahead, and behind this one stands at least the quote
      obtain ⟨d, u, hnext⟩ : ∃ d u, t ++ rawQuote :: rest = d :: u := by
        cases t with
        | nil => exact ⟨rawQuote, rest, rfl⟩
        | cons d t => exact ⟨d, t ++ rawQuote :: rest, rfl⟩
      rw [List.cons_append, hnext, Comment.stripFrom.eq_7, if_neg hraw,
        if_neg (Ne.symm hc), ← hnext, ih ht]
      rfl

/-- A raw string is kept as it stands, whatever marks it holds. -/
theorem stripFrom_rawString (h : rawQuote ∉ t) (rest : Text) :
    Comment.stripFrom .code (rawString t ++ rest) =
      Comment.keep (rawString t) (Comment.stripFrom .code rest) := by
  have hshape : rawString t ++ rest = rawQuote :: (t ++ rawQuote :: rest) := by
    rw [rawString, List.cons_append, List.append_assoc]
    rfl
  rw [hshape]
  show Comment.keep [rawQuote] (Comment.stripFrom (.literal rawQuote) _) = _
  rw [stripFrom_insideRaw h]
  rfl

/-- Inside of a raw string nothing is live, up to the next back quote. -/
theorem glyphsFrom_insideRaw (h : rawQuote ∉ t) (rest : Text) :
    glyphsFrom (.inside rawQuote) (t ++ rawQuote :: rest) =
      deadGlyphs (t ++ [rawQuote]) ++ glyphs rest := by
  induction t with
  | nil => rfl
  | cons c t ih =>
      obtain ⟨hc, ht⟩ := not_or.mp (mt List.mem_cons.mpr h)
      have hnext : Quoting.next (.inside rawQuote) c = .inside rawQuote := by
        have hraw : ¬ (c = '\\' ∧ rawQuote ≠ rawQuote) := fun hboth => hboth.2 rfl
        rw [Quoting.next, if_neg (Ne.symm hc), if_neg hraw]
      rw [List.cons_append, glyphsFrom, hnext, ih ht]
      rfl

/-- Nothing of a raw string is live, and behind it the code goes on. -/
theorem glyphs_rawString (h : rawQuote ∉ t) (rest : Text) :
    glyphs (rawString t ++ rest) = deadGlyphs (rawString t) ++ glyphs rest := by
  have hshape : rawString t ++ rest = rawQuote :: (t ++ rawQuote :: rest) := by
    rw [rawString, List.cons_append, List.append_assoc]
    rfl
  rw [hshape]
  show _ :: glyphsFrom (.inside rawQuote) _ = _
  rw [glyphsFrom_insideRaw h]
  rfl

end GoLayout
