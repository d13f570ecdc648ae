import GoLayout.Text.Basic
import GoLayout.Text.Word

/-! # Identifiers

    An identifier at the start of a text is as long as it can be. Nothing of the text is lost
    (`leading?_append`), and no blank can belong to an identifier
    (`not_isWord_of_isBlank`). -/

namespace GoLayout.Identifier

/-- Is the text an identifier? -/
def isIdentifier : Text → Bool
  | [] => false
  | c :: t => isIdentStart c && t.all isWord

/-- The identifier at the start of a text and what follows it. -/
def leading? : Text → Option (Text × Text)
  | [] => none
  | c :: t => if isIdentStart c then some (c :: t.takeWhile isWord, t.dropWhile isWord) else none

theorem not_isWord_of_isBlank {c : Char} (h : isBlank c = true) : isWord c = false := by
  have key : ∀ n ∈ blankCodes, isWord (Char.ofNat n) = false := by decide +kernel
  simpa using key _ (toNat_mem_of_isBlank h)

theorem leading?_append {t name rest : Text} (h : leading? t = some (name, rest)) :
    t = name ++ rest := by
  cases t with
  | nil => simp [leading?] at h
  | cons c t =>
    rw [leading?] at h
    split at h
    · simp only [Option.some.injEq, Prod.mk.injEq] at h
      obtain ⟨rfl, rfl⟩ := h
      simp
    · contradiction

theorem leading?_length {t name rest : Text} (h : leading? t = some (name, rest)) :
    rest.length < t.length := by
  cases t with
  | nil => simp [leading?] at h
  | cons c t =>
    rw [leading?] at h
    split at h
    · simp only [Option.some.injEq, Prod.mk.injEq] at h
      obtain ⟨-, rfl⟩ := h
      exact Nat.lt_succ_of_le (List.dropWhile_suffix _).length_le
    · contradiction

end GoLayout.Identifier
