import GoLayout.Proofs.Source.Plain

/-! # Closed text

    Text that closes what it opens reads the same wherever it stands: no literal and no comment
    starts in it, no line ends in it and no segment does, and every count is behind it what it
    was in front of it.

    * Closed texts follow each other (`Closed.append`, `Closed.joinWith`) and nest in brackets.
    * The nesting behind a closed text is the one in front of it (`Closed.after_eq`).
    * No brace in it closes one in front of it (`Closed.staysInside`). -/

namespace GoLayout

/-- The character stands for itself: it starts nothing, divides nothing and ends no line. -/
def isFlat (c : Char) : Bool := isPlain c && !structural.contains c && c != '\n'

/-- An opening bracket and the one that closes it. -/
inductive BracketPair : Char → Char → Prop where
  | round : BracketPair '(' ')'
  | square : BracketPair '[' ']'
  | curly : BracketPair '{' '}'

/-- Flat characters and brackets in pairs. -/
inductive Closed : Text → Prop where
  | nil : Closed []
  | flat {c : Char} {t : Text} : isFlat c = true → Closed t → Closed (c :: t)
  | pair {left right : Char} {t u : Text} : BracketPair left right → Closed t → Closed u →
      Closed (left :: (t ++ right :: u))

/-- A flat character is plain, neither nests nor divides, and breaks no line. -/
theorem isFlat_iff {c : Char} :
    isFlat c = true ↔ isPlain c = true ∧ c ∉ structural ∧ c ≠ '\n' := by
  simp [isFlat, and_assoc]

/-- Word characters are flat. -/
theorem isFlat_of_isWord {c : Char} (h : isWord c = true) : isFlat c = true := by
  refine isFlat_iff.mpr ⟨isPlain_of_isWord h, ?_, ?_⟩
  · have hall : structural.all (fun d => !isWord d) = true := by decide
    intro hmem
    have hword := List.all_eq_true.mp hall c hmem
    rw [h] at hword
    exact nomatch hword
  · rintro rfl
    exact absurd h (by decide)

/-- Flat characters divide and nest nothing. -/
theorem still_of_isFlat {c : Char} (h : isFlat c = true) : Still (liveGlyphs [c]) := by
  refine still_liveGlyphs fun d hd hmem => ?_
  rw [List.mem_singleton.mp hmem] at hd
  exact (isFlat_iff.mp h).2.1 hd

namespace BracketPair

theorem isPlain {left right : Char} (h : BracketPair left right) :
    GoLayout.isPlain left = true ∧ GoLayout.isPlain right = true := by
  cases h <;> decide

/-- No bracket ends a line or a segment. -/
theorem ne {left right : Char} (h : BracketPair left right) {c : Char} (hc : c ∈ ['\n', ';']) :
    c ≠ left ∧ c ≠ right := by
  rcases List.mem_cons.mp hc with rfl | hmem
  · cases h <;> decide
  · rw [List.mem_singleton.mp hmem]
    cases h <;> decide

/-- What the left bracket opens, the right one closes. -/
theorem next_next {left right : Char} (h : BracketPair left right) {n : Nesting}
    (hn : 0 ≤ n.brackets) :
    0 ≤ (n.next ⟨left, true⟩).brackets ∧ (n.next ⟨left, true⟩).next ⟨right, true⟩ = n := by
  obtain ⟨brackets, braces⟩ := n
  have hmax : max (brackets + 1 - 1) 0 = brackets := by
    dsimp only at hn
    omega
  -- the closing bracket takes away what the opening one added; round and square ones are counted
  -- together
  cases h with
  | round =>
      refine ⟨Int.le_trans hn (Int.le_add_one (Int.le_refl _)), ?_⟩
      show (⟨max (brackets + 1 - 1) 0, braces⟩ : Nesting) = _
      rw [hmax]
  | square =>
      refine ⟨Int.le_trans hn (Int.le_add_one (Int.le_refl _)), ?_⟩
      show (⟨max (brackets + 1 - 1) 0, braces⟩ : Nesting) = _
      rw [hmax]
  | curly =>
      refine ⟨hn, ?_⟩
      show (⟨brackets, braces + 1 - 1⟩ : Nesting) = _
      rw [Int.add_sub_cancel]

/-- A pair leaves the depth as it was, and between its brackets it is not lower. -/
theorem brace_add {left right : Char} (h : BracketPair left right) :
    0 ≤ Bracket.brace ⟨left, true⟩ ∧
      Bracket.brace ⟨left, true⟩ + Bracket.brace ⟨right, true⟩ = 0 := by
  cases h <;> decide

end BracketPair

namespace Closed

theorem of_flat {t : Text} (h : t.all isFlat = true) : Closed t := by
  induction t with
  | nil => exact .nil
  | cons c t ih =>
      rw [List.all_cons, Bool.and_eq_true] at h
      exact .flat h.1 (ih h.2)

theorem append {t u : Text} (ht : Closed t) (hu : Closed u) : Closed (t ++ u) := by
  induction ht with
  | nil => exact hu
  | flat hc _ ih => exact .flat hc ih
  | pair hpair ht' _ _ ih =>
      rw [List.cons_append, List.append_assoc, List.cons_append]
      exact .pair hpair ht' ih

theorem enclose {left right : Char} {t : Text} (hpair : BracketPair left right) (ht : Closed t) :
    Closed ([left] ++ t ++ [right]) :=
  .pair hpair ht .nil

theorem joinWith {sep : Text} {parts : List Text} (hsep : Closed sep)
    (h : ∀ t ∈ parts, Closed t) : Closed (Text.joinWith sep parts) := by
  induction parts with
  | nil => exact .nil
  | cons part parts ih =>
      have hpart := h part List.mem_cons_self
      have hparts := ih fun t ht => h t (List.mem_cons_of_mem _ ht)
      cases parts with
      | nil => exact hpart
      | cons next parts => exact (hpart.append hsep).append hparts

/-- Nothing in closed text starts a comment or a literal. -/
theorem plain {t : Text} (h : Closed t) : Plain t := by
  induction h with
  | nil => exact Plain.nil
  | flat hc _ ih => exact Plain.cons (isFlat_iff.mp hc).1 ih
  | pair hpair _ _ iht ihu =>
      exact Plain.cons hpair.isPlain.1 (iht.append (Plain.cons hpair.isPlain.2 ihu))

/-- Closed text holds neither the end of a line nor the end of a segment. -/
theorem notMem {t : Text} (h : Closed t) {c : Char} (hc : c ∈ ['\n', ';']) : c ∉ t := by
  induction h with
  | nil => exact List.not_mem_nil
  | flat hflat _ ih =>
      obtain ⟨-, hstructural, hbreak⟩ := isFlat_iff.mp hflat
      rintro (_ | ⟨_, hmem⟩)
      · rcases List.mem_cons.mp hc with hline | hsemi
        · exact hbreak hline
        · rw [List.mem_singleton.mp hsemi] at hstructural
          exact hstructural List.mem_cons_self
      · exact ih hmem
  | pair hpair _ _ iht ihu =>
      obtain ⟨hleft, hright⟩ := hpair.ne hc
      intro hmem
      rcases List.mem_cons.mp hmem with heq | hmem
      · exact hleft heq
      · rcases List.mem_append.mp hmem with hin | hbehind
        · exact iht hin
        · rcases List.mem_cons.mp hbehind with heq | hmem
          · exact hright heq
          · exact ihu hmem

/-- The nesting behind closed text is the one in front of it. -/
theorem after_eq {t : Text} (h : Closed t) :
    ∀ n : Nesting, 0 ≤ n.brackets → n.after (liveGlyphs t) = n := by
  -- inside a pair the nesting is one deeper, so the induction is for every nesting
  induction h with
  | nil => intro n _; rfl
  | @flat c t hc _ ih =>
      intro n hn
      have hnext : n.next ⟨c, true⟩ = n := Nesting.after_of_still (still_of_isFlat hc) n
      show (n.next ⟨c, true⟩).after (liveGlyphs t) = n
      rw [hnext, ih n hn]
  | @pair left right t u hpair _ _ iht ihu =>
      intro n hn
      obtain ⟨hopen, hclose⟩ := hpair.next_next hn
      show (n.next ⟨left, true⟩).after (liveGlyphs (t ++ right :: u)) = n
      rw [liveGlyphs_append, Nesting.after_append, iht _ hopen]
      show ((n.next ⟨left, true⟩).next ⟨right, true⟩).after (liveGlyphs u) = n
      rw [hclose, ihu n hn]

/-- Along closed text the depth of braces never is below the one in front of it, and behind it
    is that one. -/
theorem staysInside {t : Text} (h : Closed t) :
    Bracket.braceSum (liveGlyphs t) = 0 ∧
      ∀ depth, 1 ≤ depth → Bracket.StaysInside depth (liveGlyphs t) := by
  induction h with
  | nil => exact ⟨rfl, fun depth hdepth => Bracket.staysInside_of_still hdepth fun _ hg => nomatch hg⟩
  | @flat c t hc _ ih =>
      have hzero := Bracket.braceSum_of_still (still_of_isFlat hc)
      refine ⟨?_, fun depth hdepth => ?_⟩
      · show Bracket.braceSum (liveGlyphs [c] ++ liveGlyphs t) = 0
        rw [Bracket.braceSum_append, hzero, ih.1]
        rfl
      · have hhead := Bracket.staysInside_of_still hdepth (still_of_isFlat hc)
        exact hhead.glue (by rw [hzero, Int.add_zero]; exact ih.2 depth hdepth)
  | @pair left right t u hpair _ _ iht ihu =>
      obtain ⟨hopen, hclose⟩ := hpair.brace_add
      have hsplit : liveGlyphs (left :: (t ++ right :: u)) =
          ⟨left, true⟩ :: (liveGlyphs t ++ ⟨right, true⟩ :: liveGlyphs u) :=
        congrArg _ (liveGlyphs_append t (right :: u))
      rw [hsplit]
      refine ⟨?_, fun depth hdepth => ?_⟩
      · rw [Bracket.braceSum_cons, Bracket.braceSum_append, Bracket.braceSum_cons, iht.1, ihu.1]
        omega
      · -- no opening bracket goes down, so that the depth inside is positive as well
        have hinside : 1 ≤ depth + Bracket.brace ⟨left, true⟩ := by omega
        refine Bracket.StaysInside.cons hdepth ((iht.2 _ hinside).glue ?_)
        rw [iht.1, Int.add_zero]
        refine Bracket.StaysInside.cons hinside (ihu.2 _ ?_)
        omega

end Closed

end GoLayout
