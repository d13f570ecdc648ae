import GoLayout.Proofs.TypeExpr.Syntax
import GoLayout.TypeExpr.Form

/-! # Printed types have the sizes of their trees

    However its parts nest, a printed type is sized like its tree, with any blanks around it
    (`TypeSyntax.footprintOf_text`).  The tests for the form of a text come one after the other;
    the route:

    * blanks and parentheses around a text come off (`Form.peel_congr`, `Form.peel_paren`), and no
      other type starts with a parenthesis;
    * a name is taken for no keyword, even where it starts with one: behind the keyword there
      would stand one more character of the name (`Form.isWord_behind`);
    * a text with a character that no name has is no predeclared type;
    * the digits of an array length end at its bracket (`Form.arrayParts?_brackets`). -/

namespace GoLayout

namespace Form

/-! ## What comes off -/

/-- Parentheses around all of a type are taken away, and so on inside of them. -/
theorem peel_of_some {t inner : Text} (h : unparen? t.trim = some inner) :
    peel t = peel inner := by
  rw [peel]
  split
  · next hinner => rw [Option.some.inj (hinner.symm.trans h)]
  · next hnone => exact nomatch hnone.symm.trans h

/-- Without such parentheses only the margins are. -/
theorem peel_of_none {t : Text} (h : unparen? t.trim = none) : peel t = t.trim := by
  rw [peel]
  split
  · next hinner => exact nomatch hinner.symm.trans h
  · rfl

/-- Margins do not matter to what is peeled. -/
theorem peel_congr {t u : Text} (h : t.trim = u.trim) : peel t = peel u := by
  cases hinner : unparen? u.trim with
  | some inner => rw [peel_of_some hinner, peel_of_some (by rw [h]; exact hinner)]
  | none => rw [peel_of_none hinner, peel_of_none (by rw [h]; exact hinner), h]

/-- Parentheses come off. -/
theorem peel_paren (t : Text) : peel ('(' :: (t ++ [')'])) = peel t := by
  have hsolid : Text.Solid ('(' :: (t ++ [')'])) :=
    ⟨⟨'(', _, rfl, by decide⟩, '(' :: t, ')', rfl, by decide⟩
  refine peel_of_some ?_
  rw [hsolid.trim, unparen?, if_pos List.getLast?_concat, List.dropLast_concat]

/-- From other texts without outer blanks nothing comes off. -/
theorem peel_of_solid {t : Text} (h : Text.Solid t) (hhead : t.head? ≠ some '(') :
    peel t = t := by
  have hnone : unparen? t = none := by
    unfold unparen?
    split
    · exact absurd rfl hhead
    · rfl
  rw [peel_of_none (by rw [h.trim]; exact hnone), h.trim]

/-- A type with a length in front is read as an array. -/
theorem read_of_array {t literal element : Text} {length : Nat}
    (h : arrayParts? (peel t) = some (literal, element))
    (hlength : ArrayLength.value? literal = some length) :
    read t = .array length (read element) := by
  rw [read]
  split
  · next hparts =>
    obtain ⟨rfl, rfl⟩ := Prod.mk.inj (Option.some.inj (hparts.symm.trans h))
    rw [hlength]
  · next hnone => rw [hnone] at h; cases h

/-- With brackets in front that hold no length it is read as one that cannot be sized. -/
theorem read_of_badLength {t literal element : Text}
    (h : arrayParts? (peel t) = some (literal, element))
    (hlength : ArrayLength.value? literal = none) : read t = .badLength (peel t) := by
  rw [read]
  split
  · next hparts =>
    obtain ⟨rfl, rfl⟩ := Prod.mk.inj (Option.some.inj (hparts.symm.trans h))
    rw [hlength]
  · next hnone => rw [hnone] at h; cases h

/-- Any other type is read as it stands when peeled. -/
theorem read_of_simple {t : Text} (h : arrayParts? (peel t) = none) :
    read t = ofSimple (peel t) := by
  rw [read]
  split
  · next hparts => rw [h] at hparts; cases hparts
  · rfl

/-- Texts that come down to the same have the same form. -/
theorem read_congr {t u : Text} (h : peel t = peel u) : read t = read u := by
  cases hparts : arrayParts? (peel u) with
  | none => rw [read_of_simple hparts, read_of_simple (by rw [h]; exact hparts), h]
  | some parts =>
      obtain ⟨literal, element⟩ := parts
      have hparts' : arrayParts? (peel t) = some (literal, element) := by rw [h]; exact hparts
      cases hlength : ArrayLength.value? literal with
      | none => rw [read_of_badLength hparts hlength, read_of_badLength hparts' hlength, h]
      | some length => rw [read_of_array hparts hlength, read_of_array hparts' hlength]

/-! ## The forms by their first characters -/

theorem arrayParts?_of_head {t : Text} (h : t.head? ≠ some '[') : arrayParts? t = none := by
  unfold arrayParts?
  split
  · exact absurd rfl h
  · rfl

theorem isSlice_of_head {t : Text} (h : t.head? ≠ some '[') : isSlice t = false := by
  unfold isSlice
  split
  · exact absurd rfl h
  · rfl

/-- A type that is held by a pointer has the size of one word. -/
theorem ofSimple_pointerLike {t : Text} (hhead : t.head? ≠ some '[')
    (h : isPointerLike t = true) : ofSimple t = .sized (.words 1) := by
  rw [ofSimple, isSlice_of_head hhead, if_neg Bool.false_ne_true, if_pos h]

/-- The brackets of a slice hold no length. -/
theorem arrayParts?_slice (t : Text) : arrayParts? ('[' :: ']' :: t) = none := rfl

/-- Each character of a length literal is one of a word. -/
theorem isWord_of_isLength {c : Char} (h : (c.isAlphanum || c == '_') = true) :
    isWord c = true := by
  rcases Bool.or_eq_true_iff.mp h with halphanum | hunderscore
  · exact isWord_of_isAlphanum halphanum
  · rw [beq_iff_eq.mp hunderscore]
    decide

/-- An array type has the parts that it is written from, whatever blanks stand inside and behind
    the brackets. -/
theorem arrayParts?_brackets {before literal behind after element : Text}
    (hbefore : Text.AllBlank before) (hbehind : Text.AllBlank behind) (hafter : Text.AllBlank after)
    (hliteral : ArrayLength.isLiteral literal = true)
    (hlength : ∀ c ∈ literal, (c.isAlphanum || c == '_') = true) (h : Text.Solid element)
    (hbreak : '\n' ∉ element) :
    arrayParts? ('[' :: (before ++ (literal ++ (behind ++ ']' :: (after ++ element))))) =
      some (literal, element) := by
  have hinner : Text.trimLeft (before ++ (literal ++ (behind ++ ']' :: (after ++ element)))) =
      literal ++ (behind ++ ']' :: (after ++ element)) := by
    rw [Text.trimLeft_append hbefore]
    cases literal with
    | nil => exact nomatch hliteral
    | cons c t =>
        have hword := isWord_of_isLength (hlength c List.mem_cons_self)
        exact Text.trimLeft_cons (Identifier.not_isBlank_of_isWord hword) _
  -- the literal is all of these characters, since neither a blank nor the bracket is one
  have htake : (literal ++ (behind ++ ']' :: (after ++ element))).takeWhile
      (fun c => c.isAlphanum || c == '_') = literal := by
    rw [List.takeWhile_append_of_pos hlength]
    cases behind with
    | nil => exact List.append_nil literal
    | cons c t =>
        have hblank := Identifier.not_isWord_of_isBlank (hbehind c List.mem_cons_self)
        rw [List.cons_append, List.takeWhile_cons_of_neg, List.append_nil]
        intro hc
        rw [isWord_of_isLength hc] at hblank
        exact nomatch hblank
  have hbracket : Text.trimLeft (behind ++ ']' :: (after ++ element)) =
      ']' :: (after ++ element) := by
    rw [Text.trimLeft_append hbehind]
    exact Text.trimLeft_cons (by decide) _
  have helement : Text.trimLeft (after ++ element) = element := by
    have happ := h.trimLeft []
    rw [List.append_nil] at happ
    rw [Text.trimLeft_append hafter, happ]
  have hempty : element.isEmpty = false := by
    obtain ⟨c, t, rfl, -⟩ := h.head
    rfl
  have hline : element.contains '\n' = false := by
    rw [List.contains_eq_mem, decide_eq_false hbreak]
  rw [arrayParts?, hinner, htake, List.drop_left, hbracket]
  show (if (ArrayLength.isLiteral literal && !(Text.trimLeft (after ++ element)).isEmpty &&
    !(Text.trimLeft (after ++ element)).contains '\n') = true
    then some (literal, Text.trimLeft (after ++ element)) else none) = _
  rw [helement, hliteral, hempty, hline]
  rfl

/-- An array type has the parts that it is printed from. -/
theorem arrayParts?_bound {element : Text} (length : ArrayBound) (h : Text.Solid element)
    (hbreak : '\n' ∉ element) :
    arrayParts? ('[' :: (Decimal.ofNat length.value ++ ']' :: element)) =
      some (Decimal.ofNat length.value, element) := by
  have hnil := Text.allBlank_nil
  refine arrayParts?_brackets hnil hnil hnil (ArrayLength.isLiteral_ofNat length.value) ?_ h hbreak
  intro c hc
  rw [Char.isAlphanum, Decimal.isDigit_of_mem_ofNat hc, Bool.or_true, Bool.true_or]

/-! ## Texts that start with a name -/

section Led

variable {name word rest : Text}

/-- Behind a word that a text starts with, but not the name at its start, the name goes on. -/
theorem isWord_behind {behind : Text} (hname : ∀ c ∈ name, isWord c = true)
    (hword : ∀ c ∈ word, isWord c = true) (hne : name ≠ word)
    (hrest : rest.head?.any isWord = false) (h : Text.after? word (name ++ rest) = some behind) :
    ∃ c t, behind = c :: t ∧ isWord c = true := by
  rcases List.append_eq_append_iff.mp (Text.after?_eq_some.mp h) with
    ⟨u, rfl, hu⟩ | ⟨u, rfl, hu⟩
  · -- the word would be the name, or go on in what stands behind the name
    cases u with
    | nil => exact absurd (List.append_nil name).symm hne
    | cons c u =>
        have hc : isWord c = false := by rwa [hu] at hrest
        rw [hword c (List.mem_append_right _ List.mem_cons_self)] at hc
        exact nomatch hc
  · cases u with
    | nil => exact absurd (List.append_nil word) hne
    | cons c u =>
        exact ⟨c, u ++ rest, hu, hname c (List.mem_append_right _ List.mem_cons_self)⟩

/-- A type that is led by a name starts with no keyword and its bracket. -/
theorem opensWith_led {bracket : Char} (hname : ∀ c ∈ name, isWord c = true)
    (hword : ∀ c ∈ word, isWord c = true) (hne : name ≠ word)
    (hrest : rest.head?.any isWord = false) (hbracket : isWord bracket = false) :
    opensWith word bracket (name ++ rest) = false := by
  unfold opensWith
  split
  · next behind h =>
    -- the name is longer than the keyword, and so a letter stands behind the keyword
    obtain ⟨c, t, rfl, hc⟩ := isWord_behind hname hword hne hrest h
    rw [Text.trimLeft_cons (Identifier.not_isBlank_of_isWord hc), List.head?_cons,
      beq_eq_false_iff_ne]
    intro heq
    rw [Option.some.inj heq, hbracket] at hc
    exact nomatch hc
  · rfl

theorem startsWithWord_led (hname : ∀ c ∈ name, isWord c = true)
    (hword : ∀ c ∈ word, isWord c = true) (hne : name ≠ word)
    (hrest : rest.head?.any isWord = false) : startsWithWord word (name ++ rest) = false := by
  unfold startsWithWord
  split
  · next behind h =>
    obtain ⟨c, t, rfl, hc⟩ := isWord_behind hname hword hne hrest h
    show (!isWord c) = false
    rw [hc]
    rfl
  · rfl

end Led

/-- A keyword is a single word. -/
theorem isWord_of_mem_keyword {word : Text} (h : word ∈ keywords) :
    ∀ c ∈ word, isWord c = true := by
  have hall : keywords.all (·.all isWord) = true := by decide +kernel
  exact List.all_eq_true.mp (List.all_eq_true.mp hall word h)

end Form

/-- A name starts with a character of its own. -/
theorem TypeName.head?_ne (name : TypeName) {c : Char} (hc : isWord c = false) (rest : Text) :
    (name.text ++ rest).head? ≠ some c := by
  obtain ⟨d, t, hcons, hd, -⟩ := Identifier.exists_cons name.isIdentifier
  rw [hcons]
  intro h
  rw [← Option.some.inj h, Identifier.isWord_of_isIdentStart hd] at hc
  exact nomatch hc

/-- A name starts with a letter. -/
theorem TypeName.head?_text_ne (name : TypeName) {c : Char} (hc : isWord c = false) :
    name.text.head? ≠ some c := by
  have hhead := name.head?_ne hc []
  rwa [List.append_nil] at hhead

namespace Form

/-- A text that starts with a name is none of the types that are told by their start. -/
theorem ofSimple_led (name : TypeName) {rest : Text} (hrest : rest.head?.any isWord = false) :
    ofSimple (name.text ++ rest) =
      match Predeclared.measure? (name.text ++ rest) with
      | some measure => .sized measure
      | none => .unresolved (name.text ++ rest) := by
  have hname := Identifier.isWord_of_mem name.isIdentifier
  have hne : ∀ word ∈ keywords, name.text ≠ word := fun word hword heq =>
    name.notKeyword (heq ▸ hword)
  -- one by one, no keyword leads the type, since a name does
  have hmap : opensWith "map".toList '[' (name.text ++ rest) = false :=
    opensWith_led hname (isWord_of_mem_keyword (by decide)) (hne _ (by decide)) hrest (by decide)
  have hfunc : opensWith "func".toList '(' (name.text ++ rest) = false :=
    opensWith_led hname (isWord_of_mem_keyword (by decide)) (hne _ (by decide)) hrest (by decide)
  have hinterface : opensWith "interface".toList '{' (name.text ++ rest) = false :=
    opensWith_led hname (isWord_of_mem_keyword (by decide)) (hne _ (by decide)) hrest (by decide)
  have hchan : startsWithWord "chan".toList (name.text ++ rest) = false :=
    startsWithWord_led hname (isWord_of_mem_keyword (by decide)) (hne _ (by decide)) hrest
  have hslice : isSlice (name.text ++ rest) = false :=
    isSlice_of_head (name.head?_ne (by decide) rest)
  have hstar : ((name.text ++ rest).head? == some '*') = false :=
    beq_eq_false_iff_ne.mpr (name.head?_ne (by decide) rest)
  have hchannel : isChannel (name.text ++ rest) = false := by
    unfold isChannel
    rw [hchan, Bool.false_or]
    split
    · next heq =>
      have hhead : (name.text ++ rest).head? = some '<' := by rw [heq]; rfl
      exact absurd hhead (name.head?_ne (by decide) rest)
    · rfl
  have hpointer : isPointerLike (name.text ++ rest) = false := by
    rw [isPointerLike, hstar, hmap, hfunc, hchannel]
    rfl
  rw [ofSimple, hslice, hpointer, hinterface]
  rfl

/-! ## Predeclared types -/

/-- A predeclared type is a single word. -/
theorem measure?_eq_none {t : Text} {c : Char} (h : c ∈ t) (hc : isWord c = false) :
    Predeclared.measure? t = none := by
  have htable : Predeclared.table.all (·.1.all isWord) = true := by decide +kernel
  cases hm : Predeclared.measure? t with
  | none => rfl
  | some m =>
      obtain ⟨before, after, heq, -⟩ := List.lookup_eq_some_iff.mp hm
      have hrow : t.all isWord = true := List.all_eq_true.mp htable (t, m) (by rw [heq]; simp)
      have hword := List.all_eq_true.mp hrow c h
      rw [hc] at hword
      exact nomatch hword

/-- The table gives a predeclared type the size of its row. -/
theorem measure?_footprint (w : WordSize) {name : Text} {m : Measure}
    (h : Predeclared.measure? name = some m) : m.footprint w = namedFootprint w name := by
  have htable : ∀ w, ∀ e ∈ Predeclared.table, e.2.footprint w = namedFootprint w e.1 := by
    intro w
    cases w with
    | four => decide +kernel
    | eight => decide +kernel
  obtain ⟨before, after, heq, -⟩ := List.lookup_eq_some_iff.mp h
  exact htable w (name, m) (by rw [heq]; simp)

/-- A name that is not in the table is in no row. -/
theorem namedFootprint_of_none (w : WordSize) {name : Text}
    (h : Predeclared.measure? name = none) : namedFootprint w name = ⟨w.bytes, w.bytes⟩ := by
  have hrows : ∀ w, ∀ row ∈ predeclaredRows w, ∀ n ∈ row.1,
      (Predeclared.measure? n).isSome = true := by
    intro w
    cases w with
    | four => decide +kernel
    | eight => decide +kernel
  have hfind : (predeclaredRows w).find? (·.1.contains name) = none := by
    rw [List.find?_eq_none]
    intro row hrow hcontains
    have hsome := hrows w row hrow name (List.contains_iff_mem.mp hcontains)
    rw [h] at hsome
    exact nomatch hsome
  rw [namedFootprint, hfind]

theorem words_one_footprint (w : WordSize) :
    (Measure.words 1).footprint w = ⟨w.bytes, w.bytes⟩ := by
  rw [Measure.footprint, Nat.one_mul]

/-- A text that starts with a name and goes on with another character is one word. -/
theorem ofSimple_led_footprint (w : WordSize) (name : TypeName) {c : Char} (rest : Text)
    (hc : isWord c = false) :
    (ofSimple (name.text ++ c :: rest)).footprint w = ⟨w.bytes, w.bytes⟩ := by
  have hmem : c ∈ name.text ++ c :: rest := List.mem_append_right _ List.mem_cons_self
  have hhead : (c :: rest).head?.any isWord = false := hc
  rw [ofSimple_led name hhead, measure?_eq_none hmem hc]
  exact words_one_footprint w

/-- A name has the footprint of the table. -/
theorem ofSimple_name_footprint (w : WordSize) (name : TypeName) :
    (ofSimple name.text).footprint w = namedFootprint w name.text := by
  have hled := ofSimple_led name (show ([] : Text).head?.any isWord = false from rfl)
  rw [List.append_nil] at hled
  rw [hled]
  cases hm : Predeclared.measure? name.text with
  | some m => exact measure?_footprint w hm
  | none =>
      rw [namedFootprint_of_none w hm]
      exact words_one_footprint w

end Form

/-! ## Printed types -/

namespace Form

/-- A type that peels to no array has the footprint of what it peels to. -/
theorem footprintOf_of_simple (w : WordSize) {s t : Text} (hpeel : peel s = t)
    (harray : arrayParts? t = none) : footprintOf w s = (ofSimple t).footprint w := by
  rw [footprintOf, read_of_simple (by rw [hpeel]; exact harray), hpeel]

/-- A type that peels to one held by a pointer has the size of a word. -/
theorem footprintOf_pointerLike (w : WordSize) {s t : Text} (hpeel : peel s = t)
    (hhead : t.head? ≠ some '[') (h : isPointerLike t = true) :
    footprintOf w s = ⟨w.bytes, w.bytes⟩ := by
  rw [footprintOf_of_simple w hpeel (arrayParts?_of_head hhead), ofSimple_pointerLike hhead h]
  exact words_one_footprint w

end Form

section Printed

open Form

/-- From a type nothing comes off, unless it stands in parentheses. -/
theorem TypeSyntax.peel_text (t : TypeSyntax) (h : t.text.head? ≠ some '(') :
    Form.peel t.text = t.text :=
  peel_of_solid t.solid h

/-- A type that starts with a name and goes on with another character is one word. -/
theorem TypeSyntax.footprintOf_led (w : WordSize) {t : TypeSyntax} {s rest : Text}
    {name : TypeName} {c : Char} (htext : t.text = name.text ++ c :: rest)
    (hc : isWord c = false) (h : Form.peel s = Form.peel t.text) :
    footprintOf w s = ⟨w.bytes, w.bytes⟩ := by
  have hpeel : Form.peel s = name.text ++ c :: rest := by
    rw [h, t.peel_text (by rw [htext]; exact name.head?_ne (by decide) _), htext]
  rw [footprintOf_of_simple w hpeel (arrayParts?_of_head (name.head?_ne (by decide) _))]
  exact ofSimple_led_footprint w name rest hc

/-- A type with arguments starts with the name of its package or with its own. -/
theorem TypeSyntax.generic_led (package : Option TypeName) (name : TypeName) (first : TypeSyntax)
    (more : List TypeSyntax) : ∃ (lead : TypeName) (c : Char) (rest : Text),
      (TypeSyntax.generic package name first more).text = lead.text ++ c :: rest ∧
        isWord c = false := by
  cases package with
  | none => exact ⟨name, '[', _, rfl, by decide⟩
  | some p => exact ⟨p, '.', _, List.append_assoc _ _ _, by decide⟩

theorem ChannelUse.isChannel (use : ChannelUse) (element : Text) :
    Form.isChannel (use.text ++ element) = true := by
  cases use with
  | both => rfl
  | send => rfl
  | receive => rfl

/-- A text that comes down to the same as a printed type has the size of the tree. -/
theorem TypeSyntax.footprintOf_of_peel (w : WordSize) : ∀ (t : TypeSyntax) {s : Text},
    Form.peel s = Form.peel t.text → footprintOf w s = t.footprint w
  | .named name, s, h => by
      have hpeel : Form.peel s = name.text :=
        h.trans (TypeSyntax.peel_text (.named name) (name.head?_text_ne (by decide)))
      rw [footprintOf_of_simple w hpeel (arrayParts?_of_head (name.head?_text_ne (by decide)))]
      exact ofSimple_name_footprint w name
  | .qualified package name, s, h =>
      TypeSyntax.footprintOf_led w (t := .qualified package name) rfl (by decide) h
  | .generic package name first more, s, h => by
      obtain ⟨lead, c, rest, htext, hc⟩ := TypeSyntax.generic_led package name first more
      exact TypeSyntax.footprintOf_led w htext hc h
  | .pointer target, s, h =>
      footprintOf_pointerLike w (h.trans (TypeSyntax.peel_text (.pointer target) nofun)) nofun rfl
  | .slice element, s, h => by
      have hpeel := h.trans (TypeSyntax.peel_text (.slice element) nofun)
      rw [footprintOf_of_simple w hpeel (arrayParts?_slice element.text)]
      rfl
  | .array length element, s, h => by
      have hpeel := h.trans (TypeSyntax.peel_text (.array length element) nofun)
      have hparts := arrayParts?_bound length element.solid element.noBreak
      have hvalue := ArrayLength.value?_ofNat length.digits_le
      have helement := TypeSyntax.footprintOf_of_peel w element (s := element.text) rfl
      rw [footprintOf, read_of_array (by rw [hpeel]; exact hparts) hvalue]
      show Footprint.mk _ _ = Footprint.mk _ _
      rw [← helement]
      rfl
  | .map key value, s, h =>
      footprintOf_pointerLike w (h.trans (TypeSyntax.peel_text (.map key value) nofun)) nofun rfl
  | .channel use element, s, h => by
      have hhead : ∀ c ∈ ['(', '['], (use.text ++ element.text).head? ≠ some c := by
        cases use <;> simp [ChannelUse.text]
      refine footprintOf_pointerLike w
        (h.trans (TypeSyntax.peel_text (.channel use element) (hhead '(' (by decide))))
        (hhead '[' (by decide)) ?_
      have hchannel : Form.isChannel (TypeSyntax.channel use element).text = true :=
        use.isChannel element.text
      rw [isPointerLike, hchannel, Bool.or_true, Bool.true_or]
  | .function parameters results, s, h =>
      footprintOf_pointerLike w
        (h.trans (TypeSyntax.peel_text (.function parameters results) nofun)) nofun rfl
  | .interface body, s, h => by
      have hpeel := h.trans (TypeSyntax.peel_text (.interface body) nofun)
      rw [footprintOf_of_simple w hpeel rfl]
      rfl
  | .struct body, s, h => by
      have hpeel := h.trans (TypeSyntax.peel_text (.struct body) nofun)
      rw [footprintOf_of_simple w hpeel rfl]
      -- no predeclared name ends with a brace
      have hnone : Predeclared.measure? (TypeSyntax.struct body).text = none :=
        measure?_eq_none (c := '}') (List.mem_append_right _ List.mem_cons_self) (by decide)
      have hsimple : ofSimple (TypeSyntax.struct body).text = match
          Predeclared.measure? (TypeSyntax.struct body).text with
        | some measure => .sized measure
        | none => .unresolved (TypeSyntax.struct body).text := rfl
      rw [hsimple, hnone]
      exact words_one_footprint w
  | .paren inner, s, h =>
      TypeSyntax.footprintOf_of_peel w inner (h.trans (peel_paren inner.text))

/-- A printed type has the size and the alignment of its tree, whatever blanks stand around it. -/
theorem TypeSyntax.footprintOf_text (w : WordSize) (t : TypeSyntax) {before behind : Text}
    (hbefore : Text.AllBlank before) (hbehind : Text.AllBlank behind) :
    footprintOf w (before ++ t.text ++ behind) = t.footprint w := by
  refine t.footprintOf_of_peel w (peel_congr ?_)
  rw [Text.trim_append hbefore t.solid hbehind, t.solid.trim]

/-- Arrays in parentheses, the element named like a channel and with a type argument. -/
def nestedArrays : TypeSyntax :=
  .paren (.array ⟨3, by decide⟩ (.paren (.array ⟨2, by decide⟩
    (.generic none ⟨⟨"chancellor", by decide⟩, by decide⟩
      (.named ⟨⟨"string", by decide⟩, by decide⟩) []))))

/-- The element is one word, and there are six of them. -/
theorem TypeSyntax.footprintOf_nestedArrays :
    nestedArrays.text = "([3]([2]chancellor[string]))".toList ∧
      Text.AllBlank ['\t'] ∧ Text.AllBlank [' ', '\n'] ∧
      footprintOf .eight (['\t'] ++ nestedArrays.text ++ [' ', '\n']) = ⟨48, 8⟩ := by
  have hbefore : Text.AllBlank ['\t'] := Text.isBlankText_iff.mp (by decide)
  have hbehind : Text.AllBlank [' ', '\n'] := Text.isBlankText_iff.mp (by decide)
  exact ⟨by decide +kernel, hbefore, hbehind,
    TypeSyntax.footprintOf_text .eight nestedArrays hbefore hbehind⟩

end Printed

end GoLayout
