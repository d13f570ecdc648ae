import GoLayout.Proofs.Source.Bracket

/-! # Where a depth comes to zero

    A count of braces that starts inside a body either stays inside along the whole line or stops
    at the brace that closes the body (`staysInside_of_closing`, `exists_of_closing`).  Over
    several lines of code each line is counted from outside of literals; `StaysOpen` and `Closes`
    say of such lines what the count of one line says of it.

    Where no body is meant, braces are counted without going below zero (`leftOpen`); a body with
    its braces leaves none open (`leftOpen_enclosed`). -/

namespace GoLayout.Bracket

variable {depth : Int} {g : Glyph} {gs : List Glyph}

/-- A brace that does not close the body leaves the depth at one or more. -/
theorem one_le_add_brace (hdepth : 1 ≤ depth) (hopen : ¬ (g.isLive '}' = true ∧ depth = 1)) :
    1 ≤ depth + brace g := by
  rw [brace]
  split
  · omega
  · split
    · next hclose =>
      have hne : depth ≠ 1 := fun heq => hopen ⟨hclose, heq⟩
      omega
    · omega

/-- A count that does not stop stays inside. -/
theorem staysInside_of_closing (gs : List Glyph) :
    ∀ {depth behind : Int}, 1 ≤ depth → closing depth gs = (behind, none) →
      StaysInside depth gs ∧ behind = depth + braceSum gs := by
  induction gs with
  | nil =>
      intro depth behind hdepth h
      refine ⟨fun p hp => ?_, ?_⟩
      · rw [List.prefix_nil.mp hp, braceSum_nil]
        omega
      · rw [← (Prod.mk.inj h).1, braceSum_nil]
        omega
  | cons g gs ih =>
      intro depth behind hdepth h
      rw [closing] at h
      split at h
      · cases h
      · next hopen =>
        obtain ⟨hfst, hsnd⟩ := Prod.mk.inj h
        have hrest : closing (depth + brace g) gs = (behind, none) :=
          Prod.ext hfst (Option.map_eq_none_iff.mp hsnd)
        obtain ⟨hinside, hbehind⟩ := ih (one_le_add_brace hdepth hopen) hrest
        refine ⟨hinside.cons hdepth, ?_⟩
        rw [hbehind, braceSum_cons]
        omega

/-- A count that stops does so at the first brace that brings the depth to zero. -/
theorem exists_of_closing (gs : List Glyph) :
    ∀ {depth : Int} {column : Nat}, 1 ≤ depth → (closing depth gs).2 = some column →
      ∃ inside behind, gs = inside ++ ⟨'}', true⟩ :: behind ∧ inside.length = column ∧
        StaysInside depth inside ∧ depth + braceSum inside = 1 := by
  induction gs with
  | nil => intro depth column _ h; exact nomatch h
  | cons g gs ih =>
      intro depth column hdepth h
      rw [closing] at h
      split at h
      · next hclose =>
        obtain ⟨hlive, rfl⟩ := hclose
        refine ⟨[], gs, by rw [Glyph.eq_of_isLive hlive]; rfl, Option.some.inj h, fun p hp => ?_, rfl⟩
        rw [List.prefix_nil.mp hp]
        exact Int.le_refl 1
      · next hopen =>
        obtain ⟨column', hcolumn, rfl⟩ := Option.map_eq_some_iff.mp h
        obtain ⟨inside, behind, rfl, hlength, hinside, hdepth'⟩ :=
          ih (one_le_add_brace hdepth hopen) hcolumn
        refine ⟨g :: inside, behind, rfl, congrArg (· + 1) hlength, hinside.cons hdepth, ?_⟩
        rw [braceSum_cons]
        omega

/-- The depth behind a line is zero exactly if the line closes the body. -/
theorem closing_isSome_iff (gs : List Glyph) : ∀ {depth : Int}, 1 ≤ depth →
    ((closing depth gs).2.isSome = true ↔ (closing depth gs).1 = 0) := by
  induction gs with
  | nil =>
      intro depth hdepth
      refine iff_of_false Bool.false_ne_true fun hzero => ?_
      have hzero : depth = 0 := hzero
      omega
  | cons g gs ih =>
      intro depth hdepth
      rw [closing]
      -- the count stops with zero, and nowhere else is it less than one
      split
      · exact iff_of_true rfl rfl
      · next hopen =>
        dsimp only
        rw [Option.isSome_map]
        exact ih (one_le_add_brace hdepth hopen)

/-! ## Several lines of code -/

/-- The first opening brace of some lines of code stands below a number of lines, and the given
    lines are the code behind it. -/
def OpensOn (codes : List Text) (skipped : Nat) (body : List Text) : Prop :=
  ∃ front before after below, codes = front ++ (before ++ '{' :: after) :: below ∧
    body = after :: below ∧ front.length = skipped ∧ '{' ∉ before ∧ ∀ code ∈ front, '{' ∉ code

/-- The depth behind some lines of code. -/
def depthBelow (depth : Int) (codes : List Text) : Int := depth + braceSum (codes.flatMap glyphs)

/-- The depth is at least one at every place along the lines. -/
def StaysOpen (depth : Int) (codes : List Text) : Prop := StaysInside depth (codes.flatMap glyphs)

/-- The depth comes to zero somewhere along the lines. -/
def Closes (depth : Int) (codes : List Text) : Prop :=
  ∃ p, p <+: codes.flatMap glyphs ∧ depth + braceSum p = 0

variable {code : Text} {codes : List Text}

/-- A line without an opening brace is one more to skip. -/
theorem OpensOn.cons {skipped : Nat} {body : List Text} (hcode : '{' ∉ code)
    (h : OpensOn codes skipped body) : OpensOn (code :: codes) (skipped + 1) body := by
  obtain ⟨front, before, after, below, rfl, hbody, rfl, hbefore, hfront⟩ := h
  exact ⟨code :: front, before, after, below, rfl, hbody, rfl, hbefore,
    List.forall_mem_cons.mpr ⟨hcode, hfront⟩⟩

theorem OpensOn.length_eq {skipped : Nat} {body : List Text} (h : OpensOn codes skipped body) :
    codes.length = skipped + body.length := by
  obtain ⟨front, before, after, below, rfl, rfl, rfl, -⟩ := h
  rw [List.length_append, List.length_cons, List.length_cons]

theorem depthBelow_cons (depth : Int) (code : Text) (codes : List Text) :
    depthBelow depth (code :: codes) = depthBelow (depth + braceSum (glyphs code)) codes := by
  rw [depthBelow, depthBelow, List.flatMap_cons, braceSum_append, Int.add_assoc]

theorem StaysOpen.nil (h : 1 ≤ depth) : StaysOpen depth [] := by
  intro p hp
  rw [List.prefix_nil.mp hp, braceSum_nil]
  omega

theorem StaysOpen.cons (hcode : StaysInside depth (glyphs code))
    (h : StaysOpen (depth + braceSum (glyphs code)) codes) : StaysOpen depth (code :: codes) := by
  rw [StaysOpen, List.flatMap_cons]
  exact hcode.glue h

theorem Closes.cons (h : Closes (depth + braceSum (glyphs code)) codes) :
    Closes depth (code :: codes) := by
  obtain ⟨p, hp, hzero⟩ := h
  refine ⟨glyphs code ++ p, ?_, ?_⟩
  · rw [List.flatMap_cons]
    exact (List.prefix_append_right_inj _).mpr hp
  · rw [braceSum_append]
    omega

/-! ## Braces that are left open -/

/-- The number of open braces behind some glyphs, given their number in front; a closing brace
    where none is open counts for nothing. -/
def leftOpen (count : Int) (gs : List Glyph) : Int :=
  gs.foldl (fun count g => max (count + brace g) 0) count

variable {count : Int}

theorem leftOpen_cons (count : Int) (g : Glyph) (gs : List Glyph) :
    leftOpen count (g :: gs) = leftOpen (max (count + brace g) 0) gs := rfl

theorem leftOpen_append (count : Int) (gs hs : List Glyph) :
    leftOpen count (gs ++ hs) = leftOpen (leftOpen count gs) hs := List.foldl_append

theorem leftOpen_nonneg (gs : List Glyph) : ∀ {count : Int}, 0 ≤ count → 0 ≤ leftOpen count gs := by
  induction gs with
  | nil => intro count h; exact h
  | cons g gs ih => intro count _; exact ih (Int.le_max_right _ _)

/-- Inside of a body the braces of the body are open as well. -/
theorem leftOpen_of_staysInside (gs : List Glyph) :
    ∀ {count depth : Int}, 0 ≤ count → 1 ≤ depth → StaysInside depth gs →
      leftOpen (count + depth) gs = count + depth + braceSum gs := by
  induction gs with
  | nil => intro count depth _ _ _; exact (Int.add_zero _).symm
  | cons g gs ih =>
      intro count depth hopen hdepth h
      have hfirst := h [g] (List.prefix_append [g] gs)
      rw [braceSum_cons, braceSum_nil] at hfirst
      -- as long as the depth is positive, no closing brace meets a count of zero
      have hmax : max (count + depth + brace g) 0 = count + (depth + brace g) := by omega
      rw [leftOpen_cons, hmax, ih hopen (by omega) h.tail, braceSum_cons]
      omega

/-- A body in its braces leaves no brace open. -/
theorem leftOpen_enclosed {inside : List Glyph} (behind : List Glyph) (hopen : 0 ≤ count)
    (hinside : StaysInside 1 inside) (hsum : 1 + braceSum inside = 1) :
    leftOpen count (⟨'{', true⟩ :: (inside ++ ⟨'}', true⟩ :: behind)) = leftOpen count behind := by
  have hup : max (count + brace ⟨'{', true⟩) 0 = count + 1 := by
    have hone : brace ⟨'{', true⟩ = 1 := rfl
    omega
  have hdown : max (count + 1 + braceSum inside + brace ⟨'}', true⟩) 0 = count := by
    have hone : brace ⟨'}', true⟩ = -1 := rfl
    omega
  -- the brace in front adds one, and the one behind takes it away again
  rw [leftOpen_cons, hup, leftOpen_append, leftOpen_of_staysInside inside hopen (by decide) hinside,
    leftOpen_cons, hdown]

end GoLayout.Bracket
