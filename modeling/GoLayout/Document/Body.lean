import GoLayout.Source.Bracket
import GoLayout.Source.Header

/-! # Bodies

    A body runs from the opening brace to the brace that closes it. Only the lines that start
    at depth one hold fields; deeper ones belong to nested types. A body without a closing
    brace ends before the next line that starts with a header at depth one, or with the
    document. -/

namespace GoLayout

/-- How a body ends. -/
inductive Ending where
  | closed
  | beforeHeader
  | endOfInput
  deriving Repr, DecidableEq

/-- A body: its lines at depth one, its ending, the last line that belongs to it, and the
    lines below. -/
structure Body where
  parts : List CodeLine
  ending : Ending
  last : CodeLine
  below : List Text
  deriving Repr, DecidableEq

namespace Body

/-- The line behind the first opening brace on the lines below, and the lines below it. -/
def openingBelow? (number : Nat) (inBlock : Bool) : List Text → Option (CodeLine × List Text)
  | [] => none
  | raw :: below =>
    match (CodeLine.ofRaw number raw inBlock).afterBrace? with
    | some l => some (l, below)
    | none => openingBelow? (number + 1) (CodeLine.ofRaw number raw inBlock).inBlock below

/-- The line behind the first opening brace on a line or below it, and the lines below
    that. -/
def opening? (l : CodeLine) (below : List Text) : Option (CodeLine × List Text) :=
  match l.afterBrace? with
  | some l => some (l, below)
  | none => openingBelow? (l.number + 1) l.inBlock below

/-- What a line at a given depth gives to the fields, cut at the brace that closes the
    body. -/
def partOf (depth : Int) (l : CodeLine) (close : Option Nat) : List CodeLine :=
  if depth = 1 then [{ l with code := close.elim l.code l.code.take }] else []

/-- The body from a line at a given depth on. -/
def readFrom (depth : Int) (l : CodeLine) : List Text → Body
  | [] =>
    let r := Bracket.scanBraces l.code depth
    ⟨partOf depth l r.2, if r.2.isSome then .closed else .endOfInput, l, []⟩
  | raw :: below =>
    let r := Bracket.scanBraces l.code depth
    let next := CodeLine.ofRaw (l.number + 1) raw l.inBlock
    if r.2.isSome then ⟨partOf depth l r.2, .closed, l, raw :: below⟩
    else if r.1 = 1 && (Header.leading? next.code).isSome then
      ⟨partOf depth l r.2, .beforeHeader, l, raw :: below⟩
    else
      let body := readFrom r.1 next below
      { body with parts := partOf depth l r.2 ++ body.parts }

/-- The body behind its opening brace. -/
def read (l : CodeLine) (below : List Text) : Body := readFrom 1 l below

/-- Below an opening brace there are fewer lines than where it is looked for. -/
theorem openingBelow?_length {number : Nat} {inBlock : Bool} {lines rest : List Text}
    {l : CodeLine} (h : openingBelow? number inBlock lines = some (l, rest)) :
    rest.length ≤ lines.length := by
  fun_induction openingBelow? number inBlock lines with
  | case1 => exact nomatch h
  | case2 number inBlock raw below l' hbrace =>
    obtain ⟨-, rfl⟩ := Prod.mk.inj (Option.some.inj h)
    exact Nat.le_succ _
  | case3 number inBlock raw below hnone ih => exact Nat.le_succ_of_le (ih h)

/-- The opening brace may stand on the header line; then all lines are below it. -/
theorem opening?_length {l l' : CodeLine} {lines rest : List Text}
    (h : opening? l lines = some (l', rest)) : rest.length ≤ lines.length := by
  unfold opening? at h
  split at h
  · obtain ⟨-, rfl⟩ := Prod.mk.inj (Option.some.inj h)
    exact Nat.le_refl _
  · exact openingBelow?_length h

/-- A body leaves no more lines than stand below its first one. -/
theorem readFrom_below_length (depth : Int) (l : CodeLine) (lines : List Text) :
    (readFrom depth l lines).below.length ≤ lines.length := by
  fun_induction readFrom depth l lines with
  | case1 depth l r => exact Nat.le_refl 0
  | case2 depth l raw below r hclosed => exact Nat.le_refl _
  | case3 depth l raw below r next hopen hheader => exact Nat.le_refl _
  | case4 depth l raw below r next hopen hnone body ih => exact Nat.le_succ_of_le ih

end Body

end GoLayout
