import GoLayout.Proofs.Syntax.FieldSyntax
import GoLayout.Proofs.TypeExpr.ArrayLength
import GoLayout.TypeExpr.Footprint

/-! # The syntax of types

    A type is a tree, which is printed on one line and has a size and an alignment of its own:

    * names are no keywords, and what stands between the brackets of a function, an interface or
      a struct may be any text on one line;
    * `TypeSyntax.footprint` sizes the tree by recursion on it.  Only the element of an array and
      a type in parentheses are looked at; every other type has a size by its outermost form;
    * a printed type has no outer blanks and no line break (`TypeSyntax.solid`,
      `TypeSyntax.noBreak`). -/

namespace GoLayout

/-- The name of a type or of a package: an identifier that is no keyword. -/
structure TypeName extends Name where
  notKeyword : text ∉ keywords

/-- Text on one line. -/
structure LineText where
  text : Text
  noBreak : '\n' ∉ text

/-- The length of an array: a number whose decimal digits are within the limit. -/
structure ArrayBound where
  value : Nat
  digits_le : (Decimal.ofNat value).length ≤ Decimal.digitLimit

mutual

/-- A type. -/
inductive TypeSyntax where
  | named (name : TypeName)
  | qualified (package name : TypeName)
  | generic (package : Option TypeName) (name : TypeName) (first : TypeSyntax)
      (more : List TypeSyntax)
  | pointer (target : TypeSyntax)
  | slice (element : TypeSyntax)
  | array (length : ArrayBound) (element : TypeSyntax)
  | map (key value : TypeSyntax)
  | channel (use : ChannelUse) (element : TypeSyntax)
  | function (parameters : LineText) (results : ResultSyntax)
  | interface (body : LineText)
  | struct (body : LineText)
  | paren (inner : TypeSyntax)

/-- What a function returns. -/
inductive ResultSyntax where
  | none
  | one (type : TypeSyntax)
  | several (results : LineText)

end

/-- A name with the package in front of it. -/
def TypeName.qualifiedText (package name : TypeName) : Text := package.text ++ '.' :: name.text

/-- A name with or without a package. -/
def TypeName.textIn (package : Option TypeName) (name : TypeName) : Text :=
  match package with
  | some package => package.qualifiedText name
  | none => name.text

mutual

/-- The type as it is printed. -/
def TypeSyntax.text : TypeSyntax → Text
  | .named name => name.text
  | .qualified package name => package.qualifiedText name
  | .generic package name first more =>
      name.textIn package ++ listText '[' ']' (first.text :: TypeSyntax.texts more)
  | .pointer target => '*' :: target.text
  | .slice element => '[' :: ']' :: element.text
  | .array length element => '[' :: (Decimal.ofNat length.value ++ ']' :: element.text)
  | .map key value => ['m', 'a', 'p', '['] ++ key.text ++ ']' :: value.text
  | .channel use element => use.text ++ element.text
  | .function parameters results =>
      ['f', 'u', 'n', 'c', '('] ++ parameters.text ++ ')' :: results.text
  | .interface body => ['i', 'n', 't', 'e', 'r', 'f', 'a', 'c', 'e', '{'] ++ body.text ++ ['}']
  | .struct body => ['s', 't', 'r', 'u', 'c', 't', '{'] ++ body.text ++ ['}']
  | .paren inner => '(' :: (inner.text ++ [')'])

def TypeSyntax.texts : List TypeSyntax → List Text
  | [] => []
  | t :: ts => t.text :: TypeSyntax.texts ts

def ResultSyntax.text : ResultSyntax → Text
  | .none => []
  | .one type => ' ' :: type.text
  | .several results => ' ' :: '(' :: (results.text ++ [')'])

end

/-! ## Sizes -/

/-- The predeclared types of each size and alignment. -/
def predeclaredRows (w : WordSize) : List (List Text × Footprint) :=
  [(["bool", "int8", "uint8", "byte"], ⟨1, 1⟩),
    (["int16", "uint16"], ⟨2, 2⟩),
    (["int32", "uint32", "rune", "float32"], ⟨4, 4⟩),
    (["int64", "uint64", "float64"], ⟨8, 8⟩),
    (["complex64"], ⟨8, 4⟩),
    (["complex128"], ⟨16, 8⟩),
    (["int", "uint", "uintptr"], ⟨w.bytes, w.bytes⟩),
    (["string", "any", "error"], ⟨2 * w.bytes, w.bytes⟩)]

/-- The size and alignment of a named type: that of its row, and one word for all others. -/
def namedFootprint (w : WordSize) (name : Text) : Footprint :=
  match (predeclaredRows w).find? (·.1.contains name) with
  | some row => row.2
  | none => ⟨w.bytes, w.bytes⟩

/-- The size and alignment of a type. -/
def TypeSyntax.footprint (w : WordSize) : TypeSyntax → Footprint
  | .named name => namedFootprint w name.text
  | .slice _ => ⟨3 * w.bytes, w.bytes⟩
  | .array length element =>
      ⟨length.value * (element.footprint w).size, (element.footprint w).alignment⟩
  | .interface _ => ⟨2 * w.bytes, w.bytes⟩
  | .paren inner => inner.footprint w
  | .qualified _ _ => ⟨w.bytes, w.bytes⟩
  | .generic _ _ _ _ => ⟨w.bytes, w.bytes⟩
  | .pointer _ => ⟨w.bytes, w.bytes⟩
  | .map _ _ => ⟨w.bytes, w.bytes⟩
  | .channel _ _ => ⟨w.bytes, w.bytes⟩
  | .function _ _ => ⟨w.bytes, w.bytes⟩
  | .struct _ => ⟨w.bytes, w.bytes⟩

/-! ## Printed types have no outer blanks -/

/-- A name starts with a letter, with its package or without. -/
theorem TypeName.textIn_starts (package : Option TypeName) (name : TypeName) :
    Starts (name.textIn package) := by
  cases package with
  | none => exact name.starts
  | some p => exact p.starts.append _

/-- No type starts with a blank or a comma. -/
theorem TypeSyntax.starts (t : TypeSyntax) : Starts t.text := by
  cases t with
  | named name => exact name.starts
  | qualified package name => exact package.starts.append _
  | generic package name first more => exact (name.textIn_starts package).append _
  | channel use element => cases use <;> exact Starts.of_cons (by decide) _
  | _ => exact Starts.of_cons (by decide) _

mutual

/-- No type ends with a blank. -/
theorem TypeSyntax.ends : ∀ t : TypeSyntax, Ends t.text
  | .named name => name.ends
  | .qualified package name => (name.ends.append ['.']).append package.text
  | .generic _ _ _ _ => (listText_ends (by decide) _).append _
  | .pointer target => target.ends.append ['*']
  | .slice element => element.ends.append ['[', ']']
  | .array length element =>
      ((element.ends.append [']']).append (Decimal.ofNat length.value)).append ['[']
  | .map key value => (value.ends.append [']']).append (['m', 'a', 'p', '['] ++ key.text)
  | .channel _ element => element.ends.append _
  | .function parameters results =>
      results.ends.append (['f', 'u', 'n', 'c', '('] ++ parameters.text)
  | .interface _ => Ends.of_concat (by decide) _
  | .struct _ => Ends.of_concat (by decide) _
  | .paren inner => Ends.of_concat (by decide) ('(' :: inner.text)

/-- The end of a function is that of its results, or the parenthesis in front of them. -/
theorem ResultSyntax.ends : ∀ r : ResultSyntax, Ends (')' :: r.text)
  | .none => Ends.of_concat (by decide) []
  | .one type => type.ends.append [')', ' ']
  | .several results => Ends.of_concat (by decide) (')' :: ' ' :: '(' :: results.text)

end

theorem TypeSyntax.solid (t : TypeSyntax) : Text.Solid t.text := by
  obtain ⟨c, rest, hcons, hc, -⟩ := t.starts
  exact ⟨⟨c, rest, hcons, hc⟩, t.ends⟩

/-! ## Printed types stand on one line -/

theorem TypeName.noBreak (name : TypeName) : '\n' ∉ name.text := by
  intro h
  exact absurd (Identifier.isWord_of_mem name.isIdentifier _ h) (by decide)

theorem TypeName.qualifiedText_noBreak (package name : TypeName) :
    '\n' ∉ package.qualifiedText name := by
  intro h
  rcases List.mem_append.mp h with h | h
  · exact package.noBreak h
  · exact name.noBreak (List.mem_of_ne_of_mem (by decide) h)

theorem TypeName.textIn_noBreak (package : Option TypeName) (name : TypeName) :
    '\n' ∉ name.textIn package := by
  cases package with
  | none => exact name.noBreak
  | some p => exact p.qualifiedText_noBreak name

theorem ArrayBound.noBreak (length : ArrayBound) : '\n' ∉ Decimal.ofNat length.value := by
  intro h
  exact absurd (Decimal.isDigit_of_mem_ofNat h) (by decide)

theorem Text.notMem_joinWith {c : Char} {sep : Text} {parts : List Text} (hsep : c ∉ sep)
    (h : ∀ t ∈ parts, c ∉ t) : c ∉ Text.joinWith sep parts := by
  induction parts with
  | nil => exact List.not_mem_nil
  | cons t ts ih =>
      have ht := h t List.mem_cons_self
      have hts := ih fun u hu => h u (List.mem_cons_of_mem _ hu)
      cases ts with
      | nil => exact ht
      | cons u us =>
          show c ∉ t ++ sep ++ Text.joinWith sep (u :: us)
          simp only [List.mem_append, ht, hsep, hts, or_self, not_false_eq_true]

/-- A list is in one line if its parts are. -/
theorem listText_noBreak {left right : Char} {parts : List Text} (hleft : '\n' ≠ left)
    (hright : '\n' ≠ right) (h : ∀ t ∈ parts, '\n' ∉ t) : '\n' ∉ listText left right parts := by
  have hparts := Text.notMem_joinWith (show '\n' ∉ [',', ' '] by decide) h
  simp only [listText, List.mem_append, List.mem_singleton, hleft, hright, hparts, or_self,
    not_false_eq_true]

mutual

/-- A type is in one line, form by form. -/
theorem TypeSyntax.noBreak : ∀ t : TypeSyntax, '\n' ∉ t.text
  | .named name => name.noBreak
  | .qualified package name => package.qualifiedText_noBreak name
  | .generic package name first more => by
      have hname := name.textIn_noBreak package
      have hparts : ∀ t ∈ first.text :: TypeSyntax.texts more, '\n' ∉ t := by
        intro t ht
        rcases List.mem_cons.mp ht with rfl | hmem
        · exact first.noBreak
        · exact TypeSyntax.texts_noBreak more t hmem
      have hlist : '\n' ∉ listText '[' ']' (first.text :: TypeSyntax.texts more) :=
        listText_noBreak (by decide) (by decide) hparts
      simp only [TypeSyntax.text, List.mem_append, hname, hlist, or_self, not_false_eq_true]
  | .pointer target => by
      have htarget := target.noBreak
      simp [TypeSyntax.text, htarget]
  | .slice element => by
      have helement := element.noBreak
      simp [TypeSyntax.text, helement]
  | .array length element => by
      have hlength := length.noBreak
      have helement := element.noBreak
      simp [TypeSyntax.text, hlength, helement]
  | .map key value => by
      have hkey := key.noBreak
      have hvalue := value.noBreak
      simp [TypeSyntax.text, hkey, hvalue]
  | .channel use element => by
      have helement := element.noBreak
      cases use <;> simp [TypeSyntax.text, ChannelUse.text, helement]
  | .function parameters results => by
      have hparameters := parameters.noBreak
      have hresults := results.noBreak
      simp [TypeSyntax.text, hparameters, hresults]
  | .interface body => by
      have hbody := body.noBreak
      simp [TypeSyntax.text, hbody]
  | .struct body => by
      have hbody := body.noBreak
      simp [TypeSyntax.text, hbody]
  | .paren inner => by
      have hinner := inner.noBreak
      simp [TypeSyntax.text, hinner]

theorem TypeSyntax.texts_noBreak : ∀ ts : List TypeSyntax, ∀ t ∈ TypeSyntax.texts ts, '\n' ∉ t
  | [], _, ht => nomatch ht
  | first :: more, t, ht => by
      rcases List.mem_cons.mp ht with rfl | hmem
      · exact first.noBreak
      · exact TypeSyntax.texts_noBreak more t hmem

theorem ResultSyntax.noBreak : ∀ r : ResultSyntax, '\n' ∉ r.text
  | .none => List.not_mem_nil
  | .one type => by
      have htype := type.noBreak
      simp [ResultSyntax.text, htype]
  | .several results => by
      have hresults := results.noBreak
      simp [ResultSyntax.text, hresults]

end

end GoLayout
