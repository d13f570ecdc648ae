import GoLayout.Text.Basic
import GoLayout.Text.Word

/-! # Columns of names

    The place of a field name on its line: the first occurrence as a whole word from a given
    column on, else the first occurrence at all, else the column itself. `locateFrom` also
    takes columns counted back from the end of the line, and agrees with `locate` on all others
    (`locateFrom_natCast`). -/

namespace GoLayout.Column

/-- Does the text start with the name, with no word character next to it? The first argument
    is the character before. -/
def isWholeWord (previous : Option Char) (name text : Text) : Bool :=
  match Text.after? name text with
  | some rest => !(previous.any isWord) && !(rest.head?.any isWord)
  | none => false

/-- The column of the first whole-word occurrence of a name in a text that starts at the
    given column behind the given character. -/
def wholeWord? (name : Text) (column : Nat) (previous : Option Char) : Text → Option Nat
  | [] => if isWholeWord previous name [] then some column else none
  | c :: t =>
    if isWholeWord previous name (c :: t) then some column
    else wholeWord? name (column + 1) (some c) t

/-- The column of a name on a line, from a given column on. -/
def locate (line name : Text) (start : Nat) : Nat :=
  let previous := (line.take start).getLast?
  match wholeWord? name (min start line.length) previous (line.drop start) with
  | some column => column
  | none =>
    match Text.find? name (line.drop start) with
    | some distance => if start ≤ line.length then start + distance else start
    | none => start

/-- The column of a name on a line, from a column that may be counted back from the end of the
    line. Then a whole word may stand anywhere on the line, and only an occurrence inside a
    word has to lie behind that column. -/
def locateFrom (line name : Text) : Int → Int
  | .ofNat start => locate line name start
  | .negSucc back =>
    match wholeWord? name 0 none line with
    | some column => column
    | none =>
      let start := line.length - (back + 1)
      match Text.find? name (line.drop start) with
      | some distance => start + distance
      | none => .negSucc back

theorem locateFrom_natCast (line name : Text) (start : Nat) :
    locateFrom line name start = locate line name start := rfl

end GoLayout.Column
