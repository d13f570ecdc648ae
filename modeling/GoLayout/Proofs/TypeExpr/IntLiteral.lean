import Mathlib.Data.Nat.Digits.Defs
import GoLayout.Proofs.TypeExpr.Sizing

/-! # Array lengths in every spelling

    An integer literal is written in one of the bases of the language, with or without underscores
    between its digits.  Whatever spelling and whatever blanks the brackets of an array type hold,
    its size is that of its element as often as the literal says, and its alignment is that of its
    element (`footprintOf_array`).  The route:

    * the digits of a base are read as their values, and underscores leave no trace
      (`ArrayLength.Digits.ofDigits?_eq`);
    * each spelling has the outline of a literal and is read as the number that it denotes
      (`ArrayLength.Denotes.isLiteral`, `ArrayLength.Denotes.value?_eq`);
    * outer blanks come off the whole text and off its element alike, so that the element is sized
      as it is on its own (`Form.read_congr`). -/

namespace GoLayout

namespace ArrayLength

/-- The digits of all bases in the order of their values, in small and in capital letters. -/
def digitRows : List Text := ["0123456789abcdef", "0123456789ABCDEF"]

/-- The character is a digit of the value. -/
def IsDigit (c : Char) (d : Nat) : Prop := ∃ row ∈ digitRows, row[d]? = some c

instance (c : Char) (d : Nat) : Decidable (IsDigit c d) :=
  inferInstanceAs (Decidable (∃ row ∈ digitRows, row[d]? = some c))

/-- What may stand between two digits, or between a base and its digits. -/
inductive Gap : Text → Prop where
  | none : Gap []
  | underscore : Gap ['_']

/-- Digits of a base with at most an underscore between neighbours, and their values. -/
inductive Digits (base : Nat) : Text → List Nat → Prop where
  | last {c : Char} {d : Nat} : IsDigit c d → d < base → Digits base [c] [d]
  | cons {c : Char} {d : Nat} {gap t : Text} {ds : List Nat} : IsDigit c d → d < base → Gap gap →
      Digits base t ds → Digits base (c :: (gap ++ t)) (d :: ds)

/-- The letters of the bases behind a leading zero. -/
def baseLetters : List (Char × Nat) :=
  [('x', 16), ('X', 16), ('o', 8), ('O', 8), ('b', 2), ('B', 2)]

/-- The integer literals of the language, and the numbers that they denote. A zero in front of
    other digits is the base of an octal literal. -/
inductive Denotes : Text → Nat → Prop where
  | zero : Denotes ['0'] 0
  | decimal {t : Text} {ds : List Nat} : Digits 10 t ds → ds.head? ≠ some 0 →
      ds.length ≤ Decimal.digitLimit → Denotes t (Nat.ofDigits 10 ds.reverse)
  | octal {gap t : Text} {ds : List Nat} : Gap gap → Digits 8 t ds →
      Denotes ('0' :: (gap ++ t)) (Nat.ofDigits 8 ds.reverse)
  | based {letter : Char} {base : Nat} {gap t : Text} {ds : List Nat} :
      (letter, base) ∈ baseLetters → Gap gap → Digits base t ds →
      Denotes ('0' :: letter :: (gap ++ t)) (Nat.ofDigits base ds.reverse)

/-! ## Digits -/

variable {base d n : Nat} {c letter : Char} {t gap : Text} {ds : List Nat}

/-- What holds of the digits in every row of the table holds of all digits. -/
theorem IsDigit.of_rows {P : Char → Nat → Bool}
    (hrows : (digitRows.all fun row => row.zipIdx.all fun e => P e.1 e.2) = true)
    (h : IsDigit c d) : P c d = true := by
  obtain ⟨row, hrow, hd⟩ := h
  have hall := List.all_eq_true.mp hrows row hrow
  exact List.all_eq_true.mp hall (c, d) (List.mem_zipIdx_iff_getElem?.mpr hd)

theorem IsDigit.hexValue?_eq (h : IsDigit c d) : hexValue? c = some d := by
  have hvalue := h.of_rows (P := fun c d => hexValue? c == some d) (by decide)
  exact beq_iff_eq.mp hvalue

theorem IsDigit.isAlphanum (h : IsDigit c d) : c.isAlphanum = true :=
  h.of_rows (P := fun c _ => c.isAlphanum) (by decide)

/-- Taking out the underscores keeps the digits. -/
theorem IsDigit.filter (h : IsDigit c d) (t : Text) :
    (c :: t).filter (· != '_') = c :: t.filter (· != '_') :=
  List.filter_cons_of_pos (h.of_rows (P := fun c _ => c != '_') (by decide))

/-- A digit below ten is a decimal one. -/
theorem IsDigit.isDigit (h : IsDigit c d) (hd : d < 10) : c.isDigit = true := by
  have hten := h.of_rows (P := fun c d => !decide (d < 10) || c.isDigit) (by decide)
  rwa [decide_eq_true hd] at hten

/-- Taking out the underscores takes out the gaps. -/
theorem Gap.filter (h : Gap gap) (t : Text) :
    (gap ++ t).filter (· != '_') = t.filter (· != '_') := by
  cases h with
  | none => rfl
  | underscore => rfl

theorem Gap.eq_underscore (h : Gap gap) : ∀ c ∈ gap, c = '_' := by
  cases h with
  | none => exact nofun
  | underscore => exact fun c hc => List.mem_singleton.mp hc

namespace Digits

/-- Digits start with a digit. -/
theorem head (h : Digits base t ds) :
    ∃ c d, t.head? = some c ∧ ds.head? = some d ∧ IsDigit c d ∧ d < base := by
  cases h with
  | last hc hd => exact ⟨_, _, rfl, rfl, hc, hd⟩
  | cons hc hd => exact ⟨_, _, rfl, rfl, hc, hd⟩

/-- Digits and the gaps between them hold underscores and digits only. -/
theorem of_mem (h : Digits base t ds) : ∀ c ∈ t, c = '_' ∨ ∃ d, IsDigit c d ∧ d < base := by
  induction h with
  | last hc hd =>
      intro c hmem
      rw [List.mem_singleton.mp hmem]
      exact .inr ⟨_, hc, hd⟩
  | cons hc hd hgap _ ih =>
      intro c hmem
      rcases List.mem_cons.mp hmem with rfl | hmem
      · exact .inr ⟨_, hc, hd⟩
      · rcases List.mem_append.mp hmem with hmem | hmem
        · exact .inl (hgap.eq_underscore c hmem)
        · exact ih c hmem

/-- Without their underscores the digits are read as their values. -/
theorem places (h : Digits base t ds) :
    (t.filter (· != '_')).mapM (fun c => (hexValue? c).filter (· < base)) = some ds := by
  induction h with
  | @last c d hc hd =>
      rw [hc.filter, List.filter_nil,
        List.mapM_cons, hc.hexValue?_eq, Option.filter_some, if_pos (decide_eq_true hd)]
      rfl
  | @cons c d gap t ds hc hd hgap _ ih =>
      rw [hc.filter, hgap.filter,
        List.mapM_cons, hc.hexValue?_eq, Option.filter_some, if_pos (decide_eq_true hd), ih]
      rfl

/-- Without the underscores there are as many characters as digits. -/
theorem length_filter (h : Digits base t ds) : (t.filter (· != '_')).length = ds.length := by
  induction h with
  | last hc =>
      rw [hc.filter]
      rfl
  | cons hc _ hgap _ ih =>
      rw [hc.filter, hgap.filter,
        List.length_cons, ih, List.length_cons]

/-- The first digit stays the first character. -/
theorem head?_filter (h : Digits base t ds) : (t.filter (· != '_')).head? = t.head? := by
  cases h with
  | last hc => rw [hc.filter]; rfl
  | cons hc => rw [hc.filter]; rfl

/-- Digits are read as the number that they denote in their base. -/
theorem ofDigits?_eq (h : Digits base t ds) :
    ofDigits? base (t.filter (· != '_')) = some (Nat.ofDigits base ds.reverse) := by
  -- the places are read from the first one on, while a number has its lowest digit in front
  have hvalue : Decimal.ofPlaces base ds = Nat.ofDigits base ds.reverse := by
    rw [Nat.ofDigits_eq_foldr, List.foldr_reverse, Decimal.ofPlaces]
    simp only [Nat.cast_id, Nat.add_comm]
  have hplaces := h.places
  have hhead := h.head?_filter
  obtain ⟨c, d, hc, -⟩ := h.head
  rw [hc] at hhead
  generalize t.filter (· != '_') = digits at hplaces hhead
  cases digits with
  | nil => cases hhead
  | cons e digits =>
      rw [ofDigits?, places?, hplaces, Option.map_some, hvalue]
      exact List.cons_ne_nil e digits

theorem isPlain (h : Digits base t ds) (hbase : base ≤ 10) : ∀ c ∈ t, isPlain c = true := by
  intro c hc
  rcases h.of_mem c hc with rfl | ⟨d, hdigit, hd⟩
  · decide
  · rw [ArrayLength.isPlain, hdigit.isDigit (Nat.lt_of_lt_of_le hd hbase), Bool.true_or]

theorem isHex (h : Digits base t ds) : ∀ c ∈ t, isHex c = true := by
  intro c hc
  rcases h.of_mem c hc with rfl | ⟨d, hdigit, -⟩
  · decide
  · rw [ArrayLength.isHex, hdigit.hexValue?_eq, Option.isSome_some, Bool.true_or]

theorem isLength (h : Digits base t ds) : ∀ c ∈ t, (c.isAlphanum || c == '_') = true := by
  intro c hc
  rcases h.of_mem c hc with rfl | ⟨d, hdigit, -⟩
  · decide
  · rw [hdigit.isAlphanum, Bool.true_or]

end Digits

/-! ## Literals -/

/-- An underscore in front does not matter to this. -/
theorem Gap.isPlain_append {u : Text} (h : Gap gap) (hu : ∀ c ∈ u, isPlain c = true) :
    ∀ c ∈ gap ++ u, isPlain c = true := by
  intro c hc
  rcases List.mem_append.mp hc with hc | hc
  · rw [h.eq_underscore c hc]
    decide
  · exact hu c hc

/-- A base letter is read as its base. -/
theorem base?_of_mem (h : (letter, base) ∈ baseLetters) :
    base? letter = some base ∧ (letter != '_') = true ∧ letter.isAlphanum = true := by
  have hall : ∀ e ∈ baseLetters,
      base? e.1 = some e.2 ∧ (e.1 != '_') = true ∧ e.1.isAlphanum = true := by
    decide
  exact hall (letter, base) h

namespace Denotes

/-- Everything that denotes a number is a literal. -/
theorem isLiteral (h : Denotes t n) : isLiteral t = true := by
  cases h with
  | zero => decide
  | decimal hdigits =>
      have hplain := hdigits.isPlain (Nat.le_refl 10)
      obtain ⟨c, d, hhead, -, hdigit, hd⟩ := hdigits.head
      obtain ⟨u, rfl⟩ := List.head?_eq_some_iff.mp hhead
      exact isLiteral_of_isPlain (hdigit.isDigit hd) (List.forall_mem_cons.mp hplain).2
  | octal hgap hdigits =>
      exact isLiteral_of_isPlain (by decide) (hgap.isPlain_append (hdigits.isPlain (by decide)))
  | @based letter base gap t ds hletter hgap hdigits =>
      obtain ⟨c, d, hhead, -⟩ := hdigits.head
      have hne : (gap ++ t).isEmpty = false := by
        obtain ⟨u, rfl⟩ := List.head?_eq_some_iff.mp hhead
        rw [List.isEmpty_eq_false_iff]
        exact List.append_ne_nil_of_right_ne_nil gap (List.cons_ne_nil c u)
      have hhex : (gap ++ t).all isHex = true := by
        rw [List.all_append, List.all_eq_true.mpr hdigits.isHex, Bool.and_true, List.all_eq_true]
        intro e he
        rw [hgap.eq_underscore e he]
        decide
      rw [ArrayLength.isLiteral, (base?_of_mem hletter).1, hne, hhex]
      rfl

/-- The literal is read as the number that it denotes. -/
theorem value?_eq (h : Denotes t n) : value? t = some n := by
  cases h with
  | zero => decide
  | @decimal t ds hdigits hzero hlimit =>
      have hvalue := hdigits.ofDigits?_eq
      have hlength := hdigits.length_filter
      obtain ⟨c, d, hc, hd, hdigit, -⟩ := hdigits.head
      have hhead := hdigits.head?_filter.trans hc
      -- a decimal literal starts with no zero, so that it is not taken for an octal one
      have hne : c ≠ '0' := by
        rintro rfl
        have hzero' := hdigit.of_rows (P := fun c d => c != '0' || d == 0) (by decide)
        exact hzero (hd.trans (congrArg some (beq_iff_eq.mp hzero')))
      rw [value?]
      generalize t.filter (· != '_') = digits at hvalue hlength hhead
      unfold valueOfDigits?
      split
      · exact absurd (Option.some.inj hhead).symm hne
      · rw [if_pos (hlength.trans_le hlimit), hvalue]
  | @octal gap t ds hgap hdigits =>
      have hvalue := hdigits.ofDigits?_eq
      obtain ⟨c, d, hc, hd, hdigit, hlt⟩ := hdigits.head
      have hhead := hdigits.head?_filter.trans hc
      -- behind the zero of an octal literal stands a digit, and no letter of a base
      have hbase : base? c = none := base?_of_isDigit (hdigit.isDigit (by omega))
      rw [value?, List.filter_cons_of_pos (by decide), hgap.filter]
      generalize t.filter (· != '_') = digits at hvalue hhead
      obtain ⟨u, rfl⟩ := List.head?_eq_some_iff.mp hhead
      rw [valueOfDigits?, hbase]
      exact hvalue
  | @based letter base gap t ds hletter hgap hdigits =>
      obtain ⟨hbase, hne, -⟩ := base?_of_mem hletter
      rw [value?, List.filter_cons_of_pos (by decide),
        List.filter_cons_of_pos (p := (· != '_')) hne, hgap.filter, valueOfDigits?, hbase]
      exact hdigits.ofDigits?_eq

/-- A literal has the characters that a length may have. -/
theorem isLength (h : Denotes t n) : ∀ c ∈ t, (c.isAlphanum || c == '_') = true := by
  have hgap {gap : Text} (hgap : Gap gap) : ∀ c ∈ gap, (c.isAlphanum || c == '_') = true := by
    intro c hc
    rw [hgap.eq_underscore c hc]
    decide
  cases h with
  | zero => exact List.forall_mem_singleton.mpr (by decide)
  | decimal hdigits => exact hdigits.isLength
  | octal hunderscore hdigits =>
      refine List.forall_mem_cons.mpr ⟨by decide, List.forall_mem_append.mpr ?_⟩
      exact ⟨hgap hunderscore, hdigits.isLength⟩
  | based hletter hunderscore hdigits =>
      refine List.forall_mem_cons.mpr ⟨by decide, List.forall_mem_cons.mpr ⟨?_, ?_⟩⟩
      · rw [(base?_of_mem hletter).2.2, Bool.true_or]
      · exact List.forall_mem_append.mpr ⟨hgap hunderscore, hdigits.isLength⟩

end Denotes

end ArrayLength

/-! ## Brackets -/

/-- The brackets of an array type, with blanks inside and behind them. -/
structure ArrayBrackets where
  before : Text
  literal : Text
  behind : Text
  after : Text
  length : Nat
  denotes : ArrayLength.Denotes literal length
  before_blank : Text.AllBlank before
  behind_blank : Text.AllBlank behind
  after_blank : Text.AllBlank after

namespace ArrayBrackets

/-- The brackets as they are written. -/
def text (b : ArrayBrackets) : Text :=
  '[' :: (b.before ++ (b.literal ++ (b.behind ++ ']' :: b.after)))

variable {element : Text}

/-- What comes off behind the brackets comes off the element. -/
theorem peel_append (b : ArrayBrackets) {margin : Text} (h : Text.Solid element)
    {blanks : Text} (hblanks : Text.AllBlank blanks) :
    Form.peel (b.text ++ (margin ++ (element ++ blanks))) = b.text ++ (margin ++ element) := by
  have hsolid : Text.Solid (b.text ++ (margin ++ element)) := by
    obtain ⟨u, c, hlast, hc⟩ := h.last
    refine ⟨⟨'[', _, rfl, by decide⟩, b.text ++ (margin ++ u), c, ?_, hc⟩
    rw [hlast, List.append_assoc, List.append_assoc]
  -- the blanks behind the element are those behind the array
  have htrim : Text.trim (b.text ++ (margin ++ (element ++ blanks))) =
      b.text ++ (margin ++ element) := by
    have happ := Text.trim_append Text.allBlank_nil hsolid hblanks
    rwa [List.nil_append, List.append_assoc, List.append_assoc] at happ
  rw [Form.peel_congr (htrim.trans hsolid.trim.symm)]
  exact Form.peel_of_solid hsolid nofun

/-- The brackets and the element are told apart, and the blanks between them belong to neither. -/
theorem arrayParts?_append (b : ArrayBrackets) {margin : Text} (hmargin : Text.AllBlank margin)
    (h : Text.Solid element) (hline : '\n' ∉ element) :
    Form.arrayParts? (b.text ++ (margin ++ element)) = some (b.literal, element) := by
  have hafter : Text.AllBlank (b.after ++ margin) :=
    List.forall_mem_append.mpr ⟨b.after_blank, hmargin⟩
  have hparts := Form.arrayParts?_brackets b.before_blank b.behind_blank hafter
    b.denotes.isLiteral b.denotes.isLength h hline
  rw [text]
  simpa only [List.append_assoc, List.cons_append] using hparts

/-- An array has its element as often as its length says. -/
theorem footprintOf_append (w : WordSize) (b : ArrayBrackets) (hblank : ¬ Text.AllBlank element)
    (hline : '\n' ∉ element) : footprintOf w (b.text ++ element) =
      ⟨b.length * (footprintOf w element).size, (footprintOf w element).alignment⟩ := by
  have hsolid := Text.solid_trim hblank
  obtain ⟨margin, blanks, hmargin, hblanks, hsplit⟩ := Text.exists_trim element
  have htrim : '\n' ∉ Text.trim element := by
    intro hmem
    refine hline ?_
    rw [hsplit]
    exact List.mem_append_right _ (List.mem_append_left _ hmem)
  have hpeel : Form.peel (b.text ++ element) = b.text ++ (margin ++ Text.trim element) := by
    conv_lhs => rw [hsplit]
    exact b.peel_append hsolid hblanks
  have hparts := b.arrayParts?_append hmargin hsolid htrim
  rw [← hpeel] at hparts
  have helement : Form.read (Text.trim element) = Form.read element :=
    Form.read_congr (Form.peel_congr hsolid.trim)
  rw [footprintOf, Form.read_of_array hparts b.denotes.value?_eq, helement]
  rfl

/-- The lengths of nested arrays multiply. -/
theorem footprintOf_flatMap (w : WordSize) (hblank : ¬ Text.AllBlank element)
    (hline : '\n' ∉ element) (bs : List ArrayBrackets) (hbs : ∀ b ∈ bs.tail, '\n' ∉ b.text) :
    footprintOf w (bs.flatMap text ++ element) =
      ⟨(bs.map length).prod * (footprintOf w element).size, (footprintOf w element).alignment⟩ := by
  induction bs with
  | nil =>
      rw [List.map_nil, List.prod_nil, Nat.one_mul]
      rfl
  | cons b bs ih =>
      -- the element of this array is an array again, of which only the inner brackets may break a
      -- line
      have hinner : '\n' ∉ bs.flatMap text ++ element := by
        intro hmem
        rcases List.mem_append.mp hmem with hmem | hmem
        · obtain ⟨a, ha, hmem⟩ := List.mem_flatMap.mp hmem
          exact hbs a ha hmem
        · exact hline hmem
      have hinnerBlank : ¬ Text.AllBlank (bs.flatMap text ++ element) :=
        fun hall => hblank fun c hc => hall c (List.mem_append_right _ hc)
      rw [List.flatMap_cons, List.append_assoc, b.footprintOf_append w hinnerBlank hinner,
        ih fun a ha => hbs a (List.mem_of_mem_tail ha), List.map_cons, List.prod_cons,
        Nat.mul_assoc]

end ArrayBrackets

/-- However its length is spelled, an array has the size of its element times the length and the
    alignment of its element: two spellings of one length give one size, and the lengths of nested
    arrays multiply. -/
theorem footprintOf_array (w : WordSize) {element : Text} (hblank : ¬ Text.AllBlank element)
    (hline : '\n' ∉ element) :
    (∀ b : ArrayBrackets, footprintOf w (b.text ++ element) =
      ⟨b.length * (footprintOf w element).size, (footprintOf w element).alignment⟩) ∧
    (∀ a b : ArrayBrackets, a.length = b.length →
      footprintOf w (a.text ++ element) = footprintOf w (b.text ++ element)) ∧
    ∀ bs : List ArrayBrackets, (∀ b ∈ bs.tail, '\n' ∉ b.text) →
      footprintOf w (bs.flatMap ArrayBrackets.text ++ element) =
        ⟨(bs.map ArrayBrackets.length).prod * (footprintOf w element).size,
          (footprintOf w element).alignment⟩ := by
  have hone (b : ArrayBrackets) := b.footprintOf_append w hblank hline
  refine ⟨hone, ?_, ArrayBrackets.footprintOf_flatMap w hblank hline⟩
  intro a b hlength
  rw [hone a, hone b, hlength]

/-- Two, with an underscore behind the base and between the digits, and a line break behind it. -/
def twoInBinary : ArrayBrackets where
  before := [' ']
  literal := "0b_1_0"
  behind := ['\n']
  after := ['\t']
  length := 2
  denotes := @ArrayLength.Denotes.based 'b' 2 ['_'] "1_0".toList [1, 0] (by decide) .underscore
    (.cons (by decide) (by decide) .underscore (.last (by decide) (by decide)))
  before_blank := by decide
  behind_blank := by decide
  after_blank := by decide

/-- Two as a decimal number. -/
def twoInDecimal : ArrayBrackets where
  before := []
  literal := "2"
  behind := []
  after := []
  length := 2
  denotes := @ArrayLength.Denotes.decimal ['2'] [2] (.last (by decide) (by decide)) nofun
    (by decide)
  before_blank := nofun
  behind_blank := nofun
  after_blank := nofun

/-- Strings in two arrays of length two, which is spelled in two ways. -/
theorem footprintOf_array_strings :
    ¬ Text.AllBlank "string ".toList ∧ '\n' ∉ "string ".toList ∧
      footprintOf .four "[ 0b_1_0\n]\t[2]string ".toList = ⟨32, 4⟩ ∧
      footprintOf .four "[2]string ".toList = footprintOf .four "[ 0b_1_0\n]\tstring ".toList := by
  have hblank : ¬ Text.AllBlank "string ".toList := by decide
  have hline : '\n' ∉ "string ".toList := by decide
  obtain ⟨-, hsame, hnested⟩ := footprintOf_array .four hblank hline
  have helement : footprintOf .four "string ".toList = ⟨8, 4⟩ := by decide +kernel
  have htwice := hnested [twoInBinary, twoInDecimal] (by decide)
  rw [helement] at htwice
  exact ⟨hblank, hline, htwice, hsame twoInDecimal twoInBinary rfl⟩

end GoLayout
