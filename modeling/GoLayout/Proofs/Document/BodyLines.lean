import GoLayout.Proofs.Document.Reading
import GoLayout.Proofs.Source.Braces
import GoLayout.Proofs.Source.Spelling

/-! # Bodies and the code of their lines

    A body starts behind the first opening brace of the code from its header on
    (`Body.opening?_opensOn`).  How far it goes depends only on the code from there on.
    `Body.Extends` says what one line decides: the body ends on it, or it goes on with the next
    line at the depth behind this one.  Reading a body follows it (`Body.readFrom_extends`), and
    what holds of the lines of a body is proved by induction on it:

    * along the lines in front of the last one the depth stays at one or more, and a body ends
      closed exactly when it comes to zero on the last one (`staysOpen_take`, `closes`,
      `staysOpen`);
    * no line that starts at depth one is a header, and a body that is not closed ends in front of
      one or with the document (`noHeader`, `stops`). -/

namespace GoLayout

open GoLayout.Bracket

/-- The code of some lines, given whether a block comment is open in front of them. -/
def Comment.codes : Bool → List Text → List Text
  | _, [] => []
  | isOpen, raw :: below => (strip raw isOpen).1 :: codes (strip raw isOpen).2 below

namespace Body

/-! ## The opening brace -/

/-- The code behind the first brace of a line is what a body on that line starts with. -/
theorem afterBrace?_opensOn {l first : CodeLine} {below : List Text}
    (h : l.afterBrace? = some first) :
    first.number = l.number ∧ OpensOn (l.code :: Comment.codes l.inBlock below) 0
      (first.code :: Comment.codes first.inBlock below) := by
  obtain ⟨⟨before, after⟩, hcut, rfl⟩ := Option.map_eq_some_iff.mp h
  obtain ⟨hcode, hbefore⟩ := Text.cutAt?_eq_some.mp hcut
  refine ⟨rfl, [], before, after, _, ?_, rfl, rfl, hbefore, nofun⟩
  rw [hcode]
  rfl

theorem notMem_of_afterBrace? {l : CodeLine} (h : l.afterBrace? = none) : '{' ∉ l.code :=
  Text.cutAt?_eq_none (Option.map_eq_none_iff.mp h)

/-- Lines without a brace are skipped until the body starts. -/
theorem openingBelow?_opensOn {first : CodeLine} {rest : List Text} (lines : List Text) :
    ∀ {number : Nat} {inBlock : Bool}, openingBelow? number inBlock lines = some (first, rest) →
      ∃ skipped, first.number = number + skipped ∧ OpensOn (Comment.codes inBlock lines) skipped
        (first.code :: Comment.codes first.inBlock rest) := by
  induction lines with
  | nil => intro number inBlock h; exact nomatch h
  | cons raw below ih =>
      intro number inBlock h
      rw [openingBelow?] at h
      split at h
      · next l hbrace =>
        obtain ⟨rfl, rfl⟩ := Prod.mk.inj (Option.some.inj h)
        exact ⟨0, afterBrace?_opensOn hbrace⟩
      · next hbrace =>
        obtain ⟨skipped, hnumber, hopens⟩ := ih h
        exact ⟨skipped + 1, by omega, hopens.cons (notMem_of_afterBrace? hbrace)⟩

/-- A body starts behind the first opening brace. -/
theorem opening?_opensOn {l first : CodeLine} {lines rest : List Text}
    (h : opening? l lines = some (first, rest)) :
    ∃ skipped, first.number = l.number + skipped ∧
      OpensOn (l.code :: Comment.codes l.inBlock lines) skipped
        (first.code :: Comment.codes first.inBlock rest) := by
  rw [opening?] at h
  split at h
  · next l' hbrace =>
    obtain ⟨rfl, rfl⟩ := Prod.mk.inj (Option.some.inj h)
    exact ⟨0, afterBrace?_opensOn hbrace⟩
  · next hbrace =>
    obtain ⟨skipped, hnumber, hopens⟩ := openingBelow?_opensOn lines h
    exact ⟨skipped + 1, by omega, hopens.cons (notMem_of_afterBrace? hbrace)⟩

/-! ## The lines of a body -/

/-- From a depth on a body goes on over some lines of code: the number of lines below the first
    one that belong to it, and its ending. -/
inductive Extends : Int → List Text → Nat → Ending → Prop where
  | closed {depth : Int} {code : Text} {below : List Text} {column : Nat} :
      (scanBraces code depth).2 = some column → Extends depth (code :: below) 0 .closed
  | endOfInput {depth behind : Int} {code : Text} :
      scanBraces code depth = (behind, none) → Extends depth [code] 0 .endOfInput
  | beforeHeader {depth : Int} {code next : Text} {below : List Text} :
      scanBraces code depth = (1, none) → (Header.leading? next).isSome = true →
      Extends depth (code :: next :: below) 0 .beforeHeader
  | next {depth behind : Int} {code next : Text} {below : List Text} {count : Nat}
      {ending : Ending} :
      scanBraces code depth = (behind, none) →
      (behind = 1 → Header.leading? next = none) →
      Extends behind (next :: below) count ending →
      Extends depth (code :: next :: below) (count + 1) ending

/-- A body is read over the code of its lines. -/
theorem readFrom_extends (lines : List Text) :
    ∀ (depth : Int) (l : CodeLine), ∃ count,
      (readFrom depth l lines).last.number = l.number + count ∧
      Extends depth (l.code :: Comment.codes l.inBlock lines) count
        (readFrom depth l lines).ending := by
  induction lines with
  | nil =>
      intro depth l
      rw [readFrom]
      cases hscan : scanBraces l.code depth with
      | mk behind close =>
          cases close with
          | some column => exact ⟨0, rfl, .closed (congrArg Prod.snd hscan)⟩
          | none => exact ⟨0, rfl, .endOfInput hscan⟩
  | cons raw below ih =>
      intro depth l
      rw [readFrom]
      -- the cases of the reader: a brace closes the body, a header below ends it, or it goes on
      cases hscan : scanBraces l.code depth with
      | mk behind close =>
          cases close with
          | some column => exact ⟨0, rfl, .closed (congrArg Prod.snd hscan)⟩
          | none =>
              dsimp only
              rw [if_neg (by decide)]
              split
              · next hheader =>
                obtain ⟨hone, hsome⟩ := (Bool.and_eq_true _ _).mp hheader
                obtain rfl : behind = 1 := of_decide_eq_true hone
                exact ⟨0, rfl, .beforeHeader hscan hsome⟩
              · next hnone =>
                obtain ⟨count, hlast, hextends⟩ :=
                  ih behind (CodeLine.ofRaw (l.number + 1) raw l.inBlock)
                refine ⟨count + 1, ?_, .next hscan (fun hone => ?_) hextends⟩
                · show (readFrom behind _ below).last.number = _
                  rw [hlast]
                  show l.number + 1 + count = _
                  omega
                · refine Option.not_isSome_iff_eq_none.mp fun hsome => hnone ?_
                  exact (Bool.and_eq_true _ _).mpr ⟨decide_eq_true hone, hsome⟩

namespace Extends

variable {depth : Int} {codes : List Text} {count : Nat} {ending : Ending}

/-- What a line that closes nothing leaves for the next one. -/
theorem behind_eq {behind : Int} {code : Text} (hdepth : 1 ≤ depth)
    (hscan : scanBraces code depth = (behind, none)) :
    StaysInside depth (glyphs code) ∧ behind = depth + braceSum (glyphs code) ∧ 1 ≤ behind := by
  obtain ⟨hinside, hbehind⟩ := staysInside_of_closing (glyphs code) hdepth hscan
  have hone := hinside _ (List.prefix_refl _)
  exact ⟨hinside, hbehind, by omega⟩

/-- The depth is at least one along all lines in front of the last one. -/
theorem staysOpen_take (h : Extends depth codes count ending) :
    1 ≤ depth → StaysOpen depth (codes.take count) := by
  induction h with
  | closed _ => exact StaysOpen.nil
  | endOfInput _ => exact StaysOpen.nil
  | beforeHeader _ _ => exact StaysOpen.nil
  | next hscan _ _ ih =>
      intro hdepth
      obtain ⟨hinside, hbehind, hone⟩ := behind_eq hdepth hscan
      exact .cons hinside (hbehind ▸ ih hone)

/-- A closed body comes to depth zero on its last line. -/
theorem closes (h : Extends depth codes count ending) :
    1 ≤ depth → ending = .closed → Closes depth (codes.take (count + 1)) := by
  induction h with
  | closed hscan =>
      intro hdepth _
      -- the text in front of the brace comes down to depth one, and the brace to zero
      obtain ⟨inside, behind, hsplit, -, -, hone⟩ := exists_of_closing _ hdepth hscan
      refine ⟨inside ++ [⟨'}', true⟩], ⟨behind, ?_⟩, ?_⟩
      · rw [List.take_succ_cons, List.take_zero, List.flatMap_singleton, hsplit]
        exact List.append_assoc _ _ _
      · have hclose : braceSum [⟨'}', true⟩] = -1 := rfl
        rw [braceSum_append, hclose]
        omega
  | endOfInput _ => exact fun _ h => nomatch h
  | beforeHeader _ _ => exact fun _ h => nomatch h
  | next hscan _ _ ih =>
      intro hdepth hclosed
      obtain ⟨-, hbehind, hone⟩ := behind_eq hdepth hscan
      exact .cons (hbehind ▸ ih hone hclosed)

/-- Any other body stays at depth one or more to the end of its last line. -/
theorem staysOpen (h : Extends depth codes count ending) :
    1 ≤ depth → ending ≠ .closed → StaysOpen depth (codes.take (count + 1)) := by
  induction h with
  | closed _ => exact fun _ hne => absurd rfl hne
  | endOfInput hscan =>
      intro hdepth _
      obtain ⟨hinside, hbehind, hone⟩ := behind_eq hdepth hscan
      exact .cons hinside (.nil (hbehind ▸ hone))
  | beforeHeader hscan _ =>
      intro hdepth _
      obtain ⟨hinside, hbehind, hone⟩ := behind_eq hdepth hscan
      exact .cons hinside (.nil (hbehind ▸ hone))
  | next hscan _ _ ih =>
      intro hdepth hopen
      obtain ⟨hinside, hbehind, hone⟩ := behind_eq hdepth hscan
      exact .cons hinside (hbehind ▸ ih hone hopen)

/-- Below the first line no line of the body that starts at depth one starts with a header. -/
theorem noHeader (h : Extends depth codes count ending) :
    1 ≤ depth → ∀ k code, k < count → codes[k + 1]? = some code →
      depthBelow depth (codes.take (k + 1)) = 1 → Header.leading? code = none := by
  induction h with
  | closed _ => exact fun _ k _ hk => absurd hk (Nat.not_lt_zero k)
  | endOfInput _ => exact fun _ k _ hk => absurd hk (Nat.not_lt_zero k)
  | beforeHeader _ _ => exact fun _ k _ hk => absurd hk (Nat.not_lt_zero k)
  | next hscan hnone _ ih =>
      intro hdepth k code hk hcode hone
      obtain ⟨-, hbehind, hpos⟩ := behind_eq hdepth hscan
      rw [List.take_succ_cons, depthBelow_cons, ← hbehind] at hone
      -- the first line below was tested when the body went on to it, and the others further down
      cases k with
      | zero =>
          obtain rfl := Option.some.inj hcode
          rw [List.take_zero, depthBelow, List.flatMap_nil, braceSum_nil, Int.add_zero] at hone
          exact hnone hone
      | succ k => exact ih hpos k code (Nat.lt_of_succ_lt_succ hk) hcode hone

/-- A body that is not closed ends with the document, or in front of a line that starts with a
    header at depth one. -/
theorem stops (h : Extends depth codes count ending) :
    1 ≤ depth → ending ≠ .closed → codes.length = count + 1 ∨
      depthBelow depth (codes.take (count + 1)) = 1 ∧
        ∃ code, codes[count + 1]? = some code ∧ (Header.leading? code).isSome = true := by
  induction h with
  | closed _ => exact fun _ hne => absurd rfl hne
  | endOfInput _ => exact fun _ _ => .inl rfl
  | beforeHeader hscan hsome =>
      intro hdepth _
      obtain ⟨-, hbehind, -⟩ := behind_eq hdepth hscan
      refine .inr ⟨?_, _, rfl, hsome⟩
      rw [List.take_succ_cons, depthBelow_cons, ← hbehind]
      rfl
  | next hscan _ _ ih =>
      intro hdepth hopen
      obtain ⟨-, hbehind, hpos⟩ := behind_eq hdepth hscan
      rcases ih hpos hopen with hlength | ⟨hone, hcode⟩
      · exact .inl (congrArg (· + 1) hlength)
      · refine .inr ⟨?_, hcode⟩
        rw [List.take_succ_cons, depthBelow_cons, ← hbehind]
        exact hone

end Extends

end Body

end GoLayout
