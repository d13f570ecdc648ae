import GoLayout.Source.Bracket
import GoLayout.Source.Segment

/-! # Brackets along a line

    The counts that reading keeps are sums along the line:

    * the brace depth, as long as it does not come to zero (`closing_eq`);
    * the nesting of segments, one step for each glyph (`cut_snd`), whose bracket depth never
      turns negative (`after_brackets_nonneg`). -/

namespace GoLayout

/-- The characters that divide a body or nest in it. -/
def structural : Text := [';', '[', '(', ']', ')', '{', '}']

/-- None of the glyphs stands for such a character. -/
def Still (gs : List Glyph) : Prop := ∀ g ∈ gs, ∀ c ∈ structural, g.isLive c = false

instance (gs : List Glyph) : Decidable (Still gs) :=
  decidable_of_iff (gs.all (fun g => structural.all fun c => !g.isLive c) = true) (by
    simp [Still])

/-- A glyph is known by the live character that it stands for. -/
theorem Glyph.eq_of_isLive {g : Glyph} {c : Char} (h : g.isLive c = true) : g = ⟨c, true⟩ := by
  rw [isLive, Bool.and_eq_true, beq_iff_eq] at h
  obtain ⟨char, live⟩ := g
  obtain ⟨rfl, rfl⟩ : live = true ∧ char = c := h
  rfl

/-- The characters of some glyphs that stand outside literals. -/
def liveText (gs : List Glyph) : Text := (gs.filter (·.live)).map (·.char)

theorem liveText_cons (g : Glyph) (gs : List Glyph) :
    liveText (g :: gs) = if g.live then g.char :: liveText gs else liveText gs := by
  rw [liveText, List.filter_cons]
  split <;> rfl

theorem liveText_append (gs hs : List Glyph) :
    liveText (gs ++ hs) = liveText gs ++ liveText hs := by
  rw [liveText, List.filter_append, List.map_append]
  rfl

namespace Bracket

/-- What some glyphs add to the brace depth. -/
def braceSum : List Glyph → Int
  | [] => 0
  | g :: gs => brace g + braceSum gs

@[simp] theorem braceSum_nil : braceSum [] = 0 := rfl

@[simp] theorem braceSum_cons (g : Glyph) (gs : List Glyph) :
    braceSum (g :: gs) = brace g + braceSum gs := rfl

@[simp] theorem braceSum_append (gs hs : List Glyph) :
    braceSum (gs ++ hs) = braceSum gs + braceSum hs := by
  induction gs with
  | nil => simp
  | cons g gs ih =>
      rw [List.cons_append, braceSum_cons, ih, braceSum_cons]
      omega

/-- At every place along the glyphs the depth is at least one. -/
def StaysInside (depth : Int) (gs : List Glyph) : Prop :=
  ∀ p, p <+: gs → 1 ≤ depth + braceSum p

/-- Behind the first glyph the depth is at least one as well. -/
theorem StaysInside.tail {depth : Int} {g : Glyph} {gs : List Glyph}
    (h : StaysInside depth (g :: gs)) : StaysInside (depth + brace g) gs := by
  intro p hp
  have hcons := h (g :: p) (List.prefix_cons_inj g |>.mpr hp)
  rw [braceSum_cons] at hcons
  omega

/-- The depth stays positive behind a glyph that leaves it so. -/
theorem StaysInside.cons {depth : Int} {g : Glyph} {gs : List Glyph} (hdepth : 1 ≤ depth)
    (h : StaysInside (depth + brace g) gs) : StaysInside depth (g :: gs) := by
  intro p hp
  rcases List.prefix_cons_iff.mp hp with rfl | ⟨q, rfl, hq⟩
  · rw [braceSum_nil]
    omega
  · have hrest := h q hq
    rw [braceSum_cons]
    omega

theorem StaysInside.glue {depth : Int} {gs hs : List Glyph} (hg : StaysInside depth gs)
    (hh : StaysInside (depth + braceSum gs) hs) : StaysInside depth (gs ++ hs) := by
  rintro p ⟨q, hq⟩
  rcases List.append_eq_append_iff.mp hq with ⟨_, rfl, -⟩ | ⟨r, rfl, hr⟩
  · exact hg p (List.prefix_append _ _)
  · have hrest := hh r ⟨q, hr.symm⟩
    rw [braceSum_append]
    omega

/-- Still glyphs do not touch the depth. -/
theorem braceSum_of_still {gs : List Glyph} (h : Still gs) : braceSum gs = 0 := by
  induction gs with
  | nil => rfl
  | cons g gs ih =>
      have hg := h g List.mem_cons_self
      have hzero : brace g = 0 := by
        rw [brace, hg '{' (by decide), hg '}' (by decide)]
        rfl
      rw [braceSum_cons, hzero, ih fun g' hg' => h g' (List.mem_cons_of_mem _ hg')]
      rfl

/-- Still glyphs are no parentheses. -/
theorem parenSum_of_still {gs : List Glyph} (h : Still gs) : parenSum gs = 0 := by
  induction gs with
  | nil => rfl
  | cons g gs ih =>
      have hg := h g List.mem_cons_self
      have hzero : paren g = 0 := by
        rw [paren, hg '(' (by decide), hg ')' (by decide)]
        rfl
      rw [parenSum, hzero, ih fun g' hg' => h g' (List.mem_cons_of_mem _ hg')]
      rfl

/-- A positive depth stays so where nothing touches it. -/
theorem staysInside_of_still {depth : Int} {gs : List Glyph} (hdepth : 1 ≤ depth)
    (h : Still gs) : StaysInside depth gs := by
  intro p hp
  rw [braceSum_of_still fun g hg => h g (hp.subset hg)]
  omega

/-- A line along which the depth stays positive closes nothing. -/
theorem closing_eq (gs : List Glyph) :
    ∀ depth, StaysInside depth gs → closing depth gs = (depth + braceSum gs, none) := by
  induction gs with
  | nil => intro depth _; simp [closing]
  | cons g gs ih =>
      intro depth h
      have hfirst := h [g] (List.prefix_append [g] gs)
      -- a closing brace at depth one would bring the depth to zero
      have hopen : ¬ (g.isLive '}' = true ∧ depth = 1) := by
        rintro ⟨hlive, rfl⟩
        have hbrace : brace g = -1 := by
          rw [Glyph.eq_of_isLive hlive]
          rfl
        rw [braceSum_cons, hbrace] at hfirst
        exact absurd hfirst (by decide)
      rw [closing, if_neg hopen, ih _ h.tail, braceSum_cons]
      show (_, none) = (_, none)
      rw [Int.add_assoc]

end Bracket

namespace Nesting

/-- The nesting behind some glyphs. -/
def after (n : Nesting) (gs : List Glyph) : Nesting := gs.foldl next n

@[simp] theorem after_cons (n : Nesting) (g : Glyph) (gs : List Glyph) :
    n.after (g :: gs) = (n.next g).after gs := rfl

theorem after_append (n : Nesting) (gs hs : List Glyph) :
    n.after (gs ++ hs) = (n.after gs).after hs := List.foldl_append

/-- A closing bracket where none is open counts for nothing. -/
theorem next_brackets_nonneg {n : Nesting} (h : 0 ≤ n.brackets) (g : Glyph) :
    0 ≤ (n.next g).brackets := by
  unfold next
  split
  · show 0 ≤ n.brackets + 1
    omega
  · split
    · exact Int.le_max_right _ _
    · split
      · exact h
      · split
        · exact h
        · exact h

theorem after_brackets_nonneg (gs : List Glyph) :
    ∀ n : Nesting, 0 ≤ n.brackets → 0 ≤ (n.after gs).brackets := by
  induction gs with
  | nil => intro n h; exact h
  | cons g gs ih => intro n h; exact ih _ (next_brackets_nonneg h g)

/-- A dividing semicolon leaves the nesting as it is. -/
theorem next_of_divides {n : Nesting} {g : Glyph} (h : n.divides g = true) : n.next g = n := by
  simp only [divides, Glyph.isLive, Bool.and_eq_true, beq_iff_eq] at h
  have hc : g.char = ';' := h.1.1.2
  simp [next, Glyph.isLive, hc]

/-- Glyphs that are no brackets leave the nesting as it is. -/
theorem after_of_still {gs : List Glyph} (h : Still gs) : ∀ n : Nesting, n.after gs = n := by
  induction gs with
  | nil => intro n; rfl
  | cons g gs ih =>
      intro n
      have hg := h g List.mem_cons_self
      have hnext : n.next g = n := by
        simp only [next, hg '[' (by decide), hg '(' (by decide), hg ']' (by decide),
          hg ')' (by decide), hg '{' (by decide), hg '}' (by decide), Bool.or_false,
          Bool.false_eq_true, if_false]
      rw [after_cons, hnext, ih fun g' hg' => h g' (List.mem_cons_of_mem _ hg')]

end Nesting

/-- Cutting a line counts its brackets on the way. -/
theorem Segment.cut_snd (gs : List Glyph) : ∀ n, (Segment.cut n gs).2 = n.after gs := by
  induction gs with
  | nil => intro n; rfl
  | cons g gs ih =>
      intro n
      rw [Segment.cut]
      split
      · next h =>
        show (Segment.cut n gs).2 = _
        rw [ih, Nesting.after_cons, Nesting.next_of_divides h]
      · exact ih _

/-- The count that is handed on is that behind all glyphs of the line. -/
theorem Segment.split_snd (code : Text) (brackets : Int) :
    (Segment.split code brackets).2 = (Nesting.after ⟨brackets, 0⟩ (glyphs code)).brackets := by
  show (Segment.cut ⟨brackets, 0⟩ (glyphs code)).2.brackets = _
  rw [Segment.cut_snd]

/-- Glyphs without a live semicolon are one segment. -/
theorem Segment.cut_fst_of_notDivided {gs : List Glyph} (h : ∀ g ∈ gs, g.isLive ';' = false) :
    ∀ n, (Segment.cut n gs).1 = [gs.map (·.char)] := by
  induction gs with
  | nil => intro n; rfl
  | cons g gs ih =>
      intro n
      have hdiv : n.divides g = false := by
        rw [Nesting.divides, h g List.mem_cons_self]
        rfl
      rw [Segment.cut, hdiv, if_neg Bool.false_ne_true]
      show Text.glue g.char (Segment.cut (n.next g) gs).1 = _
      rw [ih fun g' hg' => h g' (List.mem_cons_of_mem _ hg')]
      rfl

/-- Code without a live semicolon is one segment. -/
theorem Segment.split_fst_of_notDivided {code : Text} (brackets : Int)
    (h : ∀ g ∈ glyphs code, g.isLive ';' = false) :
    (Segment.split code brackets).1 = [⟨0, code⟩] := by
  show Segment.place 0 (Segment.cut ⟨brackets, 0⟩ (glyphs code)).1 = _
  rw [Segment.cut_fst_of_notDivided h, glyphs, map_char_glyphsFrom]
  rfl

end GoLayout
